import FxaLite.OAuth.NormalForm

/-!
# The grammar of a scope string

A scope string is either parsed to a set or refused with `InvalidScopeError`, and what is parsed
is of the grammar of scope tokens, as far as two things do not get in the way: `urlsplit` raises
an error of its own on a host with wrong brackets, and `$` lets one line feed through at the end.
-/

namespace FxaLite.OAuth

/-- A scope token: printable ASCII but for the space, the double quote and the backslash. -/
def IsScopeToken (value : List Char) : Prop :=
  value ≠ [] ∧ ∀ c ∈ value, c.toNat = 0x21 ∨ (0x23 ≤ c.toNat ∧ c.toNat ≤ 0x5b) ∨ (0x5d ≤ c.toNat ∧ c.toNat ≤ 0x7e)

/-- A URL that is written as its parts are, with a lower-case host and without credentials or query. -/
def IsScopeUrl (value : List Char) : Prop :=
  ∃ parts, Url.urlsplit value = some parts ∧ Url.urlunsplit parts = value ∧ parts.scheme = "https".toList ∧
    (∀ c ∈ parts.netloc, c.isUpper = false) ∧ hasCredentials parts.netloc = false ∧ parts.query = []

/-- A scope string is parsed to scopes of the grammar, or refused with `InvalidScopeError`. -/
def OneGrammar (value : List Char) : Prop :=
  match ScopeSet.fromString value with
  | .error raised => ∃ word, raised = .invalidScope word
  | .ok set => ∀ scope ∈ set.values, IsScopeToken scope ∧ ("https:".toList <+: scope → IsScopeUrl scope)

/-- The words of a scope string. -/
def words (value : List Char) : List (List Char) := (value.splitOn ' ').filter (· ≠ [])

/-- A URL of scope characters that `urlsplit` does not take. -/
def IsMalformedUrl (word : List Char) : Prop :=
  "https:".toList <+: word ∧ matchesSome isScopeChar word = true ∧ Url.urlsplit word = none

instance (word : List Char) : Decidable (IsMalformedUrl word) := inferInstanceAs (Decidable (_ ∧ _))

/-- A word that has implicants. -/
def IsScope (word : List Char) : Prop := ∃ found, implicants word = .ok found

/-- No word that comes behind scopes only is a malformed URL; and where all words are scopes, those
with a line feed are implied by others. -/
def Tidy (value : List Char) : Prop :=
  (∀ before word after, words value = before ++ word :: after → (∀ scope ∈ before, IsScope scope) → ¬IsMalformedUrl word) ∧
    ((∀ word ∈ words value, IsScope word) →
      ∀ word ∈ words value, '\n' ∈ word → ∃ other ∈ words value, other ≠ word ∧ ∃ found, implicants word = .ok found ∧ other ∈ found)

/-! ### One word -/

/-- What raises a plain `ValueError`. -/
theorem implicants_eq_invalidUrl {word : List Char} : implicants word = .error .invalidUrl ↔ IsMalformedUrl word := by
  rw [implicants, Fallible.map_eq_error, implicantValues, IsMalformedUrl, ← List.isPrefixOf_iff_prefix]
  constructor
  · intro h
    split at h
    · rename_i hhttps
      unfold urlImplicants at h
      split at h
      · cases h
      · rename_i hchars
        split at h
        · rename_i hsplit
          exact ⟨hhttps, by simpa using hchars, hsplit⟩
        · split at h <;> cases h
    · unfold shortImplicants at h
      dsimp only at h
      split at h
      · cases h
      · split at h
        · cases h
        · split at h
          · cases h
          · split at h <;> cases h
  · rintro ⟨hhttps, hchars, hsplit⟩
    rw [if_pos hhttps, urlImplicants, hchars, hsplit]
    rfl

/-- A scope has nothing but scope characters, but for a line feed at its end. -/
theorem isScopeToken_iff {word : List Char} (h : IsScope word) : IsScopeToken word ↔ '\n' ∉ word := by
  obtain ⟨found, hfound⟩ := h
  constructor
  · rintro ⟨-, hchars⟩ hline
    exact absurd (hchars '\n' hline) (by decide)
  · intro hline
    refine ⟨(space_not_mem_of_implicants hfound).2, fun c hc => ?_⟩
    obtain hchar | rfl := Py.mem_of_matchesClass (matchesSome_of_implicants hfound) hc
    · simpa [isScopeChar, or_assoc] using hchar
    · exact absurd hc hline

/-- A text that is its own lower case has no capital. -/
theorem isUpper_of_lower {text : List Char} (h : text = Py.lower text) {c : Char} (hc : c ∈ text) : c.isUpper = false := by
  have hsame := List.map_inj_left.mp ((List.map_id text).trans h) c hc
  by_contra hupper
  have hrange : 65 ≤ c.toNat ∧ c.toNat ≤ 90 := Py.isUpper_iff.mp (Bool.of_not_eq_false hupper)
  rw [id_eq, Py.lowerChar_of_isUpper (Bool.of_not_eq_false hupper)] at hsame
  have hcode := congrArg Char.toNat hsame
  rw [Py.toNat_ofNat_of_lt (by omega)] at hcode
  omega

/-- A scope that is a URL is a canonical one. -/
theorem isScopeUrl_of_isScope {word : List Char} (h : IsScope word) (hhttps : "https:".toList <+: word) : IsScopeUrl word := by
  obtain ⟨found, hfound⟩ := h
  obtain ⟨values, hvalues, -⟩ := Fallible.map_eq_ok.mp hfound
  rw [implicantValues, if_pos (List.isPrefixOf_iff_prefix.mpr hhttps)] at hvalues
  obtain ⟨parts, hparts, hcanonical, -⟩ := urlImplicants_eq_ok hvalues
  obtain ⟨hscheme, -, hquery, -, hunsplit⟩ := parts_of_isCanonical hcanonical
  obtain ⟨hcredentials, hlower⟩ : hasCredentials parts.netloc = false ∧ parts.netloc = Py.lower parts.netloc := by
    simp only [isCanonical, Bool.and_eq_true, decide_eq_true_eq, Bool.not_eq_true'] at hcanonical
    tauto
  exact ⟨parts, hparts, hunsplit, hscheme, fun c hc => isUpper_of_lower hlower hc, hcredentials, hquery⟩

/-! ### A whole string -/

/-- A value is refused as a scope when its implicants are. -/
theorem Scope.of_eq_error {word : List Char} {raised : ScopeError} :
    Scope.of word = .error raised ↔ OAuth.implicants word = .error raised := by
  unfold Scope.of
  split
  · rename_i found hfound
    simp [hfound]
  · rename_i other hother
    simp [hother]

/-- A value is a scope when it has implicants. -/
theorem Scope.exists_of {word : List Char} : (∃ s, Scope.of word = .ok s) ↔ IsScope word := by
  constructor
  · rintro ⟨s, hs⟩
    rw [← Scope.value_of hs]
    exact ⟨s.implicants, s.derived⟩
  · rintro ⟨found, hfound⟩
    exact ⟨⟨word, found, hfound⟩, Scope.of_value ⟨word, found, hfound⟩⟩

/-- A string is parsed word by word. -/
theorem ScopeSet.fromString_eq (value : List Char) :
    ScopeSet.fromString value = ((words value).mapM Scope.of).map ScopeSet.ofScopes := Fallible.foldlM_map_eq _ _

/-- Words that are scopes are the values of these. -/
theorem map_value_of_mapM {found : List (List Char)} {scopes : List Scope} (h : found.mapM Scope.of = .ok scopes) :
    found = scopes.map Scope.value := by
  have hall := Fallible.mapM_eq_ok.mp h
  clear h
  induction hall with
  | nil => rfl
  | cons hs _ ih => rw [List.map_cons, ← ih, Scope.value_of hs]

/-- A malformed URL that only scopes precede is what the string is refused for. -/
theorem mapM_eq_invalidUrl {found : List (List Char)} :
    found.mapM Scope.of = .error .invalidUrl ↔
      ∃ before word after, found = before ++ word :: after ∧ (∀ scope ∈ before, IsScope scope) ∧ IsMalformedUrl word := by
  simp only [Fallible.mapM_eq_error, Scope.exists_of, Scope.of_eq_error, implicants_eq_invalidUrl]

/-- What is kept of scopes is of the grammar when each with a line feed is implied by another. -/
theorem ofScopes_inGrammar {scopes : List Scope} :
    (∀ scope ∈ (ScopeSet.ofScopes scopes).values, IsScopeToken scope ∧ ("https:".toList <+: scope → IsScopeUrl scope)) ↔
      ∀ s ∈ scopes, '\n' ∈ s.value → ∃ t ∈ scopes, t ≠ s ∧ s ≤ t := by
  have hscope : ∀ s : Scope, IsScope s.value := fun s => ⟨s.implicants, s.derived⟩
  simp only [ScopeSet.values, List.forall_mem_map, ScopeSet.mem_ofScopes]
  constructor
  · intro h s hs hline
    by_contra hmaximal
    push Not at hmaximal
    have hkept : ∀ t ∈ scopes, s ≤ t → t = s := fun t ht hle => by
      by_contra hne
      exact hmaximal t ht hne hle
    exact (isScopeToken_iff (hscope s)).mp (h s ⟨hs, hkept⟩).1 hline
  · intro h s hs
    refine ⟨(isScopeToken_iff (hscope s)).mpr fun hline => ?_, isScopeUrl_of_isScope (hscope s)⟩
    obtain ⟨t, ht, hne, hle⟩ := h s hs.1 hline
    exact hne (hs.2 t ht hle)

/-- A scope string is parsed to scopes of the grammar or refused with `InvalidScopeError`, when and
only when no malformed URL is come to, and no line feed is kept. -/
theorem oneGrammar_iff (value : List Char) : OneGrammar value ↔ Tidy value := by
  have hmalformed : (∀ before word after, words value = before ++ word :: after →
      (∀ scope ∈ before, IsScope scope) → ¬IsMalformedUrl word) ↔ (words value).mapM Scope.of ≠ .error .invalidUrl := by
    rw [ne_eq, mapM_eq_invalidUrl]
    push Not
    rfl
  rw [OneGrammar, ScopeSet.fromString_eq, Tidy, hmalformed]
  cases hwords : (words value).mapM Scope.of with
  | error raised =>
    have hnot : ¬∀ word ∈ words value, IsScope word := by
      obtain ⟨before, word, after, hsplit, -, hraised⟩ := Fallible.mapM_eq_error.mp hwords
      intro hall
      obtain ⟨found, hfound⟩ := hall word (by simp [hsplit])
      cases hfound.symm.trans (Scope.of_eq_error.mp hraised)
    cases raised <;> simp [Except.map, hnot]
  | ok scopes =>
    rw [map_value_of_mapM hwords]
    have hall : ∀ s ∈ scopes, IsScope s.value := fun s _ => ⟨s.implicants, s.derived⟩
    have hother : ∀ s t : Scope, (t ≠ s ∧ s ≤ t) ↔
        (t.value ≠ s.value ∧ ∃ found, implicants s.value = .ok found ∧ t.value ∈ found) := by
      intro s t
      refine and_congr (not_congr ⟨congrArg Scope.value, Scope.eq_of_value⟩) ⟨fun hle => ⟨s.implicants, s.derived, hle⟩, ?_⟩
      rintro ⟨found, hfound, hmem⟩
      cases s.derived.symm.trans hfound
      exact hmem
    simp only [Except.map, ofScopes_inGrammar, hother, List.mem_map, exists_exists_and_eq_and, forall_exists_index, and_imp,
      forall_apply_eq_imp_iff₂]
    have hread : (Except.ok scopes : Except ScopeError (List Scope)) ≠ .error .invalidUrl := by simp
    exact ⟨fun h => ⟨hread, fun _ => h⟩, fun h => h.2 hall⟩

/-- A host with a bracket that is not closed raises another error, and a line feed at the end is kept. -/
theorem not_oneGrammar : ¬OneGrammar "https://[/a".toList ∧ ¬OneGrammar "profile\n".toList := by
  constructor
  · intro h
    have hraised : ScopeSet.fromString "https://[/a".toList = .error .invalidUrl := by
      rw [ScopeSet.fromString_eq, mapM_eq_invalidUrl.mpr ⟨[], "https://[/a".toList, [], by decide, by simp, by decide⟩]
      rfl
    rw [OneGrammar, hraised] at h
    cases h.choose_spec
  · intro h
    have hvalue : "profile\n".toList ∈ (ScopeSet.ofValues ["profile\n"] (by decide)).values := by decide
    have hkept : ScopeSet.fromString "profile\n".toList = .ok (ScopeSet.ofValues ["profile\n"] (by decide)) := rfl
    rw [OneGrammar, hkept] at h
    exact absurd ((h _ hvalue).1.2 '\n' (by decide)) (by decide)

end FxaLite.OAuth
