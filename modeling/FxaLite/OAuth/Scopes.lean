import FxaLite.Lib.Url
import FxaLite.Lib.Fallible
import Mathlib.Data.List.Infix
import Mathlib.Order.UpperLower.Closure

/-!
# Scopes

`scopes.py`: a scope value is a short name such as `profile:email:write` or a URL with a path,
and each has finitely many implicants, the values that would imply it. A scope is a value for
which they can be derived. Implication is a preorder on scopes, and a `ScopeSet` stands for the
lower set of everything its values imply: its operations are those of the lattice of lower sets,
as far as they ought to be.
-/

namespace FxaLite.OAuth

/-- What deriving implicants can raise: `InvalidScopeError`, and the `ValueError` of `urlsplit`. -/
inductive ScopeError where
  | invalidScope (value : List Char)
  | invalidUrl
  deriving DecidableEq, Repr

/-! ### Implicants -/

/-- `_VALID_SCOPE_VALUE`, one character. -/
def isScopeChar (c : Char) : Bool :=
  let n := c.toNat
  n == 0x21 || (0x23 ≤ n && n ≤ 0x5b) || (0x5d ≤ n && n ≤ 0x7e)

/-- `_VALID_SHORT_NAME` and `_VALID_FRAGMENT`, one character. -/
def isNameChar (c : Char) : Bool := Url.isAlnum c || c = '_'

/-- `_PATH_ESCAPES`. -/
def isPathEscape (c : Char) : Bool := c = '<' || c = '>' || c.toNat = 0x60 || c.toNat = 0x7b || c.toNat = 0x7d || c = '\\'

/-- `re.match` of `^[class]+$`. -/
def matchesSome (inClass : Char → Bool) (s : List Char) : Bool := Py.matchesClass inClass 1 s.length s

/-- `MAX_SHORT_SCOPE_COMPONENTS`. -/
def maxShortScopeComponents : ℕ := 32

/-- The last component of a scope that may write. -/
def write : List Char := ['w', 'r', 'i', 't', 'e']

/-- `":".join(names)`. -/
def joinNames (names : List (List Char)) : List Char := [':'].intercalate names

/-- `"/".join(segments)`. -/
def joinPath (segments : List (List Char)) : List Char := ['/'].intercalate segments

/-- What a loop that ends in `pop()` runs through: the list and its prefixes, down to a length. -/
def popping (shortest : ℕ) (l : List (List Char)) : List (List (List Char)) :=
  l.inits.reverse.filter fun p => shortest ≤ p.length

/-- `names[-1] == "write"`. -/
def hasWrite (names : List (List Char)) : Bool := names.getLast? = some write

/-- The components without a final `write`. -/
def base (names : List (List Char)) : List (List Char) := if hasWrite names then names.dropLast else names

/-- `_short_implicants`. The source bounds the split, which changes nothing but what a value of too
many components costs. -/
def shortImplicants (value : List Char) : Except ScopeError (List (List Char)) :=
  let names := value.splitOn ':'
  if !matchesSome isScopeChar value then .error (.invalidScope value)
  else if maxShortScopeComponents < names.length then .error (.invalidScope value)
  else if !names.all (matchesSome isNameChar) then .error (.invalidScope value)
  else if base names = [] then .error (.invalidScope value)
  else
    .ok ((popping 1 (base names)).flatMap fun parent =>
      (joinNames parent ++ ':' :: write) :: if hasWrite names then [] else [joinNames parent])

/-- `parts.username or parts.password`. -/
def hasCredentials (netloc : List Char) : Bool :=
  match Py.rpartition '@' netloc with
  | (userinfo, true, _) => !(Py.partition ':' userinfo).1.isEmpty || !(Py.partition ':' userinfo).2.2.isEmpty
  | _ => false

/-- A value is written as the parts it is split into would be, and these are acceptable. -/
def isCanonical (value : List Char) (parts : Url.SplitResult) : Bool :=
  parts.scheme = "https".toList && !hasCredentials parts.netloc && parts.query.isEmpty && !parts.netloc.isEmpty &&
    parts.netloc.all (·.toNat < 128) && parts.netloc = Py.lower parts.netloc &&
    !(":443".toList.isSuffixOf parts.netloc) && !parts.path.isEmpty && parts.path.getLast? ≠ some '/' &&
    (parts.path.splitOn '/').all (fun segment => segment ≠ ['.'] && segment ≠ ['.', '.']) &&
    !parts.path.any isPathEscape && (parts.fragment.isEmpty || matchesSome isNameChar parts.fragment) &&
    Url.urlunsplit parts = value

/-- `f"{scheme}://{netloc}"`. -/
def origin (netloc : List Char) : List Char := "https".toList ++ ':' :: '/' :: '/' :: netloc

/-- `_url_implicants`. -/
def urlImplicants (value : List Char) : Except ScopeError (List (List Char)) :=
  if !matchesSome isScopeChar value then .error (.invalidScope value)
  else
    match Url.urlsplit value with
    | none => .error .invalidUrl
    | some parts =>
      if !isCanonical value parts then .error (.invalidScope value)
      else
        .ok ((popping 2 (parts.path.splitOn '/')).flatMap fun segments =>
          (origin parts.netloc ++ joinPath segments) ::
            if parts.fragment.isEmpty then [] else [origin parts.netloc ++ joinPath segments ++ '#' :: parts.fragment])

/-- `implicant_values`. -/
def implicantValues (value : List Char) : Except ScopeError (List (List Char)) :=
  if "https:".toList.isPrefixOf value then urlImplicants value else shortImplicants value

/-- `_implicants`. -/
def implicants (value : List Char) : Except ScopeError (List (List Char)) :=
  (implicantValues value).map List.eraseDups

example : implicants "profile:email:write".toList = .ok ["profile:email:write".toList, "profile:write".toList] := by decide

example : implicants "https://identity.mozilla.com/apps/oldsync".toList =
    .ok ["https://identity.mozilla.com/apps/oldsync".toList, "https://identity.mozilla.com/apps".toList] := by decide

/-! ### What implies what -/

/-- What such a loop runs through. -/
theorem mem_popping {shortest : ℕ} {l p : List (List Char)} :
    p ∈ popping shortest l ↔ p <+: l ∧ shortest ≤ p.length := by
  simp [popping]

/-- Without a final `write`, the components are a beginning of what they were. -/
theorem base_isPrefix (names : List (List Char)) : base names <+: names := by
  unfold base
  split
  · exact List.dropLast_prefix names
  · exact List.prefix_rfl

/-- What it takes for a short name to have implicants. -/
theorem shortImplicants_eq_ok {value : List Char} {l : List (List Char)} (h : shortImplicants value = .ok l) :
    (value.splitOn ':').all (matchesSome isNameChar) = true ∧ base (value.splitOn ':') ≠ [] ∧
      l = (popping 1 (base (value.splitOn ':'))).flatMap fun parent =>
        (joinNames parent ++ ':' :: write) :: if hasWrite (value.splitOn ':') then [] else [joinNames parent] := by
  dsimp only [shortImplicants] at h
  split at h
  · cases h
  · split at h
    · cases h
    · split at h
      · cases h
      · rename_i hall
        split at h
        · cases h
        · rename_i hbase
          exact ⟨by simpa using hall, hbase, (Except.ok.inj h).symm⟩

/-- The implicants of a short name: its beginnings, with `write` behind them, and without it unless
it may write itself. -/
theorem mem_shortImplicants {value i : List Char} {l : List (List Char)} (h : shortImplicants value = .ok l) :
    i ∈ l ↔ ∃ parent, parent ≠ [] ∧ parent <+: base (value.splitOn ':') ∧
      (i = joinNames (parent ++ [write]) ∨ (hasWrite (value.splitOn ':') = false ∧ i = joinNames parent)) := by
  have hjoin : ∀ {parent : List (List Char)}, parent ≠ [] →
      joinNames (parent ++ [write]) = joinNames parent ++ ':' :: write := fun hnil => Py.intercalate_concat hnil
  obtain ⟨-, -, rfl⟩ := shortImplicants_eq_ok h
  simp only [List.mem_flatMap, mem_popping, List.mem_cons]
  constructor
  · rintro ⟨parent, ⟨hpart, hlength⟩, hi⟩
    have hnil : parent ≠ [] := List.ne_nil_of_length_pos hlength
    refine ⟨parent, hnil, hpart, ?_⟩
    obtain rfl | hi := hi
    · exact Or.inl (hjoin hnil).symm
    · split at hi
      · cases hi
      · rename_i hwrite
        exact Or.inr ⟨by simpa using hwrite, List.mem_singleton.mp hi⟩
  · rintro ⟨parent, hnil, hpart, hi⟩
    refine ⟨parent, ⟨hpart, List.length_pos_of_ne_nil hnil⟩, ?_⟩
    obtain rfl | ⟨hwrite, rfl⟩ := hi
    · exact Or.inl (hjoin hnil)
    · exact Or.inr (by simp [hwrite])

/-- A short name with implicants holds no slash, and its implicants hold none. -/
theorem slash_not_mem_of_shortImplicants {value i : List Char} {l : List (List Char)}
    (h : shortImplicants value = .ok l) (hi : i ∈ l) : '/' ∉ i := by
  have hnames : ∀ name ∈ value.splitOn ':', '/' ∉ name := by
    obtain ⟨hall, -, -⟩ := shortImplicants_eq_ok h
    intro name hname hslash
    obtain hchar | hline := Py.mem_of_matchesClass (List.all_eq_true.mp hall name hname) hslash
    · exact absurd hchar (by decide)
    · exact absurd hline (by decide)
  have hjoined : ∀ {names : List (List Char)}, (∀ name ∈ names, '/' ∉ name) → '/' ∉ joinNames names := by
    intro names hfree hslash
    obtain heq | ⟨name, hname, hmem⟩ := Py.mem_of_mem_intercalate hslash
    · exact absurd heq (by decide)
    · exact hfree name hname hmem
  obtain ⟨parent, -, hpart, rfl | ⟨-, rfl⟩⟩ := (mem_shortImplicants h).mp hi
  · refine hjoined fun name hname => ?_
    obtain hname | hname := List.mem_append.mp hname
    · exact hnames name ((hpart.trans (base_isPrefix _)).subset hname)
    · rw [List.mem_singleton.mp hname]
      decide
  · exact hjoined fun name hname => hnames name ((hpart.trans (base_isPrefix _)).subset hname)

/-- A short name implies itself. -/
theorem self_mem_shortImplicants {value : List Char} {l : List (List Char)} (h : shortImplicants value = .ok l) :
    value ∈ l := by
  have hvalue : joinNames (value.splitOn ':') = value := List.intercalate_splitOn ':'
  refine (mem_shortImplicants h).mpr ⟨_, (shortImplicants_eq_ok h).2.1, List.prefix_rfl, ?_⟩
  cases hwrite : hasWrite (value.splitOn ':') with
  | true =>
    have hlast : (value.splitOn ':').getLast? = some write := by simpa [hasWrite] using hwrite
    refine Or.inl ?_
    rw [base, if_pos hwrite, List.dropLast_append_getLast? write hlast, hvalue]
  | false => exact Or.inr ⟨rfl, by rw [base, if_neg (by simp [hwrite]), hvalue]⟩

/-- Components of a short name, with `write` behind them, are found again. -/
theorem splitOn_joinNames_write {p names : List (List Char)} {c : List Char} (h : p <+: names)
    (hnames : names = c.splitOn ':') : (joinNames (p ++ [write])).splitOn ':' = p ++ [write] := by
  refine List.splitOn_intercalate ':' (fun name hname => ?_) (by simp)
  obtain hname | hname := List.mem_append.mp hname
  · exact Py.not_mem_of_mem_splitOn (hnames ▸ h.subset hname)
  · rw [List.mem_singleton.mp hname]
    decide

/-- What implies an implicant of a short name implies the name. -/
theorem mem_shortImplicants_trans {a b c : List Char} {lb lc : List (List Char)} (hc : shortImplicants c = .ok lc)
    (hbc : b ∈ lc) (hb : shortImplicants b = .ok lb) (hab : a ∈ lb) : a ∈ lc := by
  obtain ⟨p, hp, hpart, hbvalue⟩ := (mem_shortImplicants hc).mp hbc
  obtain ⟨q, hq, hqpart, havalue⟩ := (mem_shortImplicants hb).mp hab
  have hpc : p <+: c.splitOn ':' := hpart.trans (base_isPrefix _)
  rw [mem_shortImplicants hc]
  obtain rfl | ⟨hwrite, rfl⟩ := hbvalue
  · -- `b` may write: so may `a`
    have hsplit := splitOn_joinNames_write hpc rfl
    have hbase : base (p ++ [write]) = p := by simp [base, hasWrite]
    rw [hsplit, hbase] at hqpart
    obtain rfl | ⟨hnot, -⟩ := havalue
    · exact ⟨q, hq, hqpart.trans hpart, Or.inl rfl⟩
    · simp [hsplit, hasWrite] at hnot
  · have hsplit : (joinNames p).splitOn ':' = p := Py.splitOn_intercalate_of_isPrefix hp hpc
    rw [hsplit] at hqpart havalue
    have hqc : q <+: base (c.splitOn ':') := (hqpart.trans (base_isPrefix p)).trans hpart
    obtain rfl | ⟨-, rfl⟩ := havalue
    · exact ⟨q, hq, hqc, Or.inl rfl⟩
    · exact ⟨q, hq, hqc, Or.inr ⟨hwrite, rfl⟩⟩

/-- The scheme of a URL scope is one. -/
theorem isScheme_https : Url.IsScheme "https".toList := ⟨by decide, by decide, by decide⟩

/-- What it takes for a URL to have implicants. -/
theorem urlImplicants_eq_ok {value : List Char} {l : List (List Char)} (h : urlImplicants value = .ok l) :
    ∃ parts, Url.urlsplit value = some parts ∧ isCanonical value parts = true ∧
      l = (popping 2 (parts.path.splitOn '/')).flatMap fun segments =>
        (origin parts.netloc ++ joinPath segments) ::
          if parts.fragment.isEmpty then [] else [origin parts.netloc ++ joinPath segments ++ '#' :: parts.fragment] := by
  unfold urlImplicants at h
  split at h
  · cases h
  · split at h
    · cases h
    · rename_i parts hparts
      split at h
      · cases h
      · rename_i hcanonical
        exact ⟨parts, hparts, by simpa using hcanonical, (Except.ok.inj h).symm⟩

/-- Canonical parts are those of an `https` URL with a host, a path and no query, and make up the
value. -/
theorem parts_of_isCanonical {value : List Char} {parts : Url.SplitResult} (h : isCanonical value parts = true) :
    parts.scheme = "https".toList ∧ parts.netloc ≠ [] ∧ parts.query = [] ∧ parts.path ≠ [] ∧
      Url.urlunsplit parts = value := by
  simp only [isCanonical, Bool.and_eq_true, decide_eq_true_eq, List.isEmpty_iff, Bool.not_eq_true',
    List.isEmpty_eq_false_iff] at h
  tauto

/-- The URL with a host, a path and possibly a fragment. -/
def urlOf (netloc : List Char) (segments : List (List Char)) (fragment : List Char) : Url.SplitResult :=
  ⟨"https".toList, netloc, joinPath segments, [], fragment⟩

/-- The implicants of a URL: the URLs of its parent paths, with and without its fragment. -/
theorem mem_urlImplicants {value i : List Char} {l : List (List Char)} {parts : Url.SplitResult}
    (h : urlImplicants value = .ok l) (hparts : Url.urlsplit value = some parts) :
    i ∈ l ↔ ∃ segments, segments <+: parts.path.splitOn '/' ∧ 2 ≤ segments.length ∧
      ∃ fragment, (fragment = [] ∨ fragment = parts.fragment) ∧
        i = Url.urlunsplit (urlOf parts.netloc segments fragment) := by
  obtain ⟨parts', hparts', -, rfl⟩ := urlImplicants_eq_ok h
  cases hparts.symm.trans hparts'
  have hbare : ∀ segments : List (List Char), origin parts.netloc ++ joinPath segments =
      Url.urlunsplit (urlOf parts.netloc segments []) := fun segments => by
    simp [origin, Url.urlunsplit, urlOf, Url.behind]
  have hwith : ∀ segments : List (List Char), parts.fragment ≠ [] →
      origin parts.netloc ++ joinPath segments ++ '#' :: parts.fragment =
        Url.urlunsplit (urlOf parts.netloc segments parts.fragment) := fun segments hne => by
    simp [origin, Url.urlunsplit, urlOf, Url.behind, hne]
  simp only [List.mem_flatMap, mem_popping, List.mem_cons]
  constructor
  · rintro ⟨segments, ⟨hpart, hlength⟩, hi⟩
    refine ⟨segments, hpart, hlength, ?_⟩
    obtain rfl | hi := hi
    · exact ⟨[], Or.inl rfl, hbare segments⟩
    · split at hi
      · cases hi
      · rename_i hne
        rw [List.isEmpty_iff] at hne
        exact ⟨parts.fragment, Or.inr rfl, (List.mem_singleton.mp hi).trans (hwith segments hne)⟩
  · rintro ⟨segments, hpart, hlength, fragment, hfragment, rfl⟩
    refine ⟨segments, ⟨hpart, hlength⟩, ?_⟩
    obtain rfl | rfl := hfragment
    · exact Or.inl (hbare segments).symm
    · by_cases hne : parts.fragment = []
      · rw [hne]
        exact Or.inl (hbare segments).symm
      · refine Or.inr ?_
        rw [if_neg (by simpa using hne), ← hwith segments hne]
        exact List.mem_singleton.mpr rfl

/-- The path of a canonical URL begins with a slash. -/
theorem two_le_segments {value : List Char} {parts : Url.SplitResult} (hparts : Url.urlsplit value = some parts)
    (hcanonical : isCanonical value parts = true) : 2 ≤ (parts.path.splitOn '/').length := by
  obtain ⟨-, hnetloc, -, hpath, -⟩ := parts_of_isCanonical hcanonical
  have hseparated := Url.separated_of_urlsplit hparts hnetloc
  obtain ⟨c, rest, hcons⟩ := List.exists_cons_of_ne_nil hpath
  have hdelimiter : Url.isDelimiter c = true := hseparated.path c (by simp [hcons])
  have hslash : c = '/' := by
    simp only [Url.isDelimiter, Bool.or_eq_true, decide_eq_true_eq] at hdelimiter
    obtain (hslash | rfl) | rfl := hdelimiter
    · exact hslash
    · exact absurd (by simp [hcons]) hseparated.beforeQuery
    · exact absurd (by simp [hcons]) hseparated.beforeFragment
  have hrest : (rest.splitOn '/').length ≠ 0 := by simp
  rw [hcons, hslash, List.splitOn_cons_eq_if_modifyHead]
  simp only [beq_self_eq_true, if_true, List.length_cons]
  omega

/-- A URL implies itself. -/
theorem self_mem_urlImplicants {value : List Char} {l : List (List Char)} (h : urlImplicants value = .ok l) :
    value ∈ l := by
  obtain ⟨parts, hparts, hcanonical, -⟩ := urlImplicants_eq_ok h
  obtain ⟨hscheme, -, hquery, -, hvalue⟩ := parts_of_isCanonical hcanonical
  refine (mem_urlImplicants h hparts).mpr
    ⟨_, List.prefix_rfl, two_le_segments hparts hcanonical, parts.fragment, Or.inr rfl, ?_⟩
  have hpath : joinPath (parts.path.splitOn '/') = parts.path := List.intercalate_splitOn '/'
  rw [urlOf, hpath, ← hscheme, ← hquery, hvalue]

/-- The parents of a URL are split into their own parts. -/
theorem parts_of_parent {value : List Char} {parts parts' : Url.SplitResult} (hparts : Url.urlsplit value = some parts)
    (hcanonical : isCanonical value parts = true) {segments : List (List Char)}
    (hpart : segments <+: parts.path.splitOn '/') (hlength : 2 ≤ segments.length) {fragment : List Char}
    (hfragment : fragment = [] ∨ fragment = parts.fragment)
    (hparent : Url.urlsplit (Url.urlunsplit (urlOf parts.netloc segments fragment)) = some parts') :
    parts' = urlOf parts.netloc segments fragment ∧ parts'.path.splitOn '/' = segments := by
  obtain ⟨hscheme, hnetloc, -, -, -⟩ := parts_of_isCanonical hcanonical
  have hpath : joinPath segments <+: parts.path := by
    have hjoined : joinPath (parts.path.splitOn '/') = parts.path := List.intercalate_splitOn '/'
    rw [← hjoined]
    exact Py.intercalate_isPrefix hpart
  have hsub : fragment ⊆ parts.fragment := by
    obtain rfl | rfl := hfragment
    · exact List.nil_subset _
    · exact List.Subset.refl _
  have hseparated := (Url.separated_of_urlsplit hparts hnetloc).parent hpath hsub
  have hfound : parts' = urlOf parts.netloc segments fragment := by
    refine Url.eq_of_urlsplit_urlunsplit isScheme_https ?_ hparent
    rw [urlOf, ← hscheme]
    exact hseparated
  refine ⟨hfound, ?_⟩
  rw [hfound]
  exact Py.splitOn_intercalate_of_isPrefix (List.ne_nil_of_length_pos (by omega)) hpart

/-- What implies an implicant of a URL implies the URL. -/
theorem mem_urlImplicants_trans {a b c : List Char} {lb lc : List (List Char)} (hc : urlImplicants c = .ok lc)
    (hbc : b ∈ lc) (hb : urlImplicants b = .ok lb) (hab : a ∈ lb) : a ∈ lc := by
  obtain ⟨parts, hparts, hcanonical, -⟩ := urlImplicants_eq_ok hc
  obtain ⟨segments, hpart, hlength, fragment, hfragment, rfl⟩ := (mem_urlImplicants hc hparts).mp hbc
  obtain ⟨parts', hparts', -, -⟩ := urlImplicants_eq_ok hb
  obtain ⟨rfl, hsegments⟩ := parts_of_parent hparts hcanonical hpart hlength hfragment hparts'
  obtain ⟨upper, hupper, hupperLength, upperFragment, hupperFragment, rfl⟩ := (mem_urlImplicants hb hparts').mp hab
  rw [hsegments] at hupper
  refine (mem_urlImplicants hc hparts).mpr ⟨upper, hupper.trans hpart, hupperLength, upperFragment, ?_, rfl⟩
  obtain rfl | rfl := hupperFragment
  · exact Or.inl rfl
  · exact hfragment

/-- A URL with implicants holds a slash, and its implicants begin as URLs. -/
theorem slash_mem_of_urlImplicants {value i : List Char} {l : List (List Char)} (h : urlImplicants value = .ok l)
    (hi : i ∈ l) : '/' ∈ i ∧ "https:".toList.isPrefixOf i = true := by
  obtain ⟨parts, hparts, -, -⟩ := urlImplicants_eq_ok h
  obtain ⟨segments, -, -, fragment, -, rfl⟩ := (mem_urlImplicants h hparts).mp hi
  exact ⟨by simp [Url.urlunsplit], by simp [Url.urlunsplit, urlOf]⟩

/-- A value implies itself. -/
theorem self_mem_implicants {value : List Char} {l : List (List Char)} (h : implicants value = .ok l) : value ∈ l := by
  obtain ⟨values, hvalues, rfl⟩ := Fallible.map_eq_ok.mp h
  rw [List.mem_eraseDups]
  unfold implicantValues at hvalues
  split at hvalues
  · exact self_mem_urlImplicants hvalues
  · exact self_mem_shortImplicants hvalues

/-- A value with implicants is made of scope characters. -/
theorem matchesSome_of_implicants {value : List Char} {l : List (List Char)} (h : implicants value = .ok l) :
    matchesSome isScopeChar value = true := by
  obtain ⟨values, hvalues, -⟩ := Fallible.map_eq_ok.mp h
  by_contra hno
  have hbad : (!matchesSome isScopeChar value) = true := by simpa using hno
  unfold implicantValues at hvalues
  split at hvalues
  · rw [urlImplicants, if_pos hbad] at hvalues
    cases hvalues
  · rw [shortImplicants, if_pos hbad] at hvalues
    cases hvalues

/-- So it can stand between spaces. -/
theorem space_not_mem_of_implicants {value : List Char} {l : List (List Char)} (h : implicants value = .ok l) :
    ' ' ∉ value ∧ value ≠ [] := by
  have hmatches := matchesSome_of_implicants h
  refine ⟨fun hspace => ?_, fun hnil => ?_⟩
  · obtain hchar | hline := Py.mem_of_matchesClass hmatches hspace
    · exact absurd hchar (by decide)
    · exact absurd hline (by decide)
  · subst hnil
    cases hmatches

/-- Implication is transitive. -/
theorem mem_implicants_trans {a b c : List Char} {lb lc : List (List Char)} (hc : implicants c = .ok lc)
    (hbc : b ∈ lc) (hb : implicants b = .ok lb) (hab : a ∈ lb) : a ∈ lc := by
  obtain ⟨valuesC, hvaluesC, rfl⟩ := Fallible.map_eq_ok.mp hc
  obtain ⟨valuesB, hvaluesB, rfl⟩ := Fallible.map_eq_ok.mp hb
  rw [List.mem_eraseDups] at hbc hab ⊢
  unfold implicantValues at hvaluesB hvaluesC
  split at hvaluesC
  · rw [if_pos (slash_mem_of_urlImplicants hvaluesC hbc).2] at hvaluesB
    exact mem_urlImplicants_trans hvaluesC hbc hvaluesB hab
  · split at hvaluesB
    · -- an implicant of a short name holds no slash, and no URL goes without
      exact absurd (slash_mem_of_urlImplicants hvaluesB (self_mem_urlImplicants hvaluesB)).1
        (slash_not_mem_of_shortImplicants hvaluesC hbc)
    · exact mem_shortImplicants_trans hvaluesC hbc hvaluesB hab

end FxaLite.OAuth
