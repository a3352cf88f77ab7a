import FxaLite.Lib.Dict
import FxaLite.OAuth.NormalForm
import Mathlib.Data.List.Nodup

/-!
# The dictionaries of a set of scopes

`ScopeSet` as its two attributes: the dictionary from the scopes held to their implicants, and
the index from each implicant to the scopes held that it implies. The methods keep them apart by
hand, and look keys up that would not be there if the two disagreed. They never disagree: every
method leaves dictionaries that mirror a set of scopes whose index is exact, and no lookup fails.
-/

namespace FxaLite.OAuth

open Fallible

/-- What the methods can raise: the errors of deriving implicants, and the `KeyError` of a lookup. -/
inductive SetError where
  | scope (raised : ScopeError)
  | key (missing : List Char)
  deriving DecidableEq, Repr

/-- The attributes `_scopes_to_implicants` and `_implicants_to_scopes`. A value of the second is a
`set`, as a list in which nothing stands twice. -/
structure ScopeDicts where
  scopesToImplicants : List (List Char × List (List Char))
  implicantsToScopes : List (List Char × List (List Char))
  deriving DecidableEq, Repr

namespace ScopeDicts

/-- An empty set. -/
def empty : ScopeDicts := ⟨[], []⟩

instance : EmptyCollection ScopeDicts := ⟨empty⟩

/-- `dict[key]`. -/
def lookup {ν : Type} (dict : List (List Char × ν)) (key : List Char) : Except SetError ν :=
  match Dict.get? dict key with
  | some value => .ok value
  | none => .error (.key key)

/-- `values`. -/
def values (set : ScopeDicts) : List (List Char) := Dict.keys set.scopesToImplicants

/-- `implicant_values`. -/
def implicantValues (set : ScopeDicts) : List (List Char) := Dict.keys set.implicantsToScopes

/-- `__str__`. -/
def str (set : ScopeDicts) : List Char := [' '].intercalate set.values

/-- `__eq__`. -/
def equals (set other : ScopeDicts) : Bool :=
  set.values.all (fun scope => scope ∈ other.values) && other.values.all fun scope => scope ∈ set.values

/-- `_has_some_scope`. -/
def hasSomeScope (set : ScopeDicts) (scopes : List (List Char)) : Bool := scopes.any fun scope => scope ∈ set.values

/-- One turn of the loop of `_remove_scope`. -/
def unindex (scope : List Char) (index : List (List Char × List (List Char))) (implicant : List Char) :
    Except SetError (List (List Char × List (List Char))) := do
  let implied ← lookup index implicant
  let implied := implied.filter (· ≠ scope)
  .ok (if implied.isEmpty then Dict.del index implicant else Dict.put index implicant implied)

/-- `_remove_scope`. -/
def removeScope (set : ScopeDicts) (scope : List Char) : Except SetError ScopeDicts := do
  let implicants ← lookup set.scopesToImplicants scope
  let index ← implicants.foldlM (unindex scope) set.implicantsToScopes
  .ok ⟨Dict.del set.scopesToImplicants scope, index⟩

/-- The scopes that an implicant is indexed with: `_implicants_to_scopes.get(implicant, ())`. -/
def indexed (index : List (List Char × List (List Char))) (implicant : List Char) : List (List Char) :=
  (Dict.get? index implicant).getD []

/-- One turn of the loop at the end of `_add_scope`. -/
def index (scope : List Char) (index : List (List Char × List (List Char))) (implicant : List Char) :
    List (List Char × List (List Char)) :=
  Dict.put index implicant ((indexed index implicant).insert scope)

/-- `_add_scope`. -/
def addScope (set : ScopeDicts) (scope : List Char) (implicants : List (List Char)) : Except SetError ScopeDicts :=
  if set.hasSomeScope implicants then .ok set
  else do
    let set ← (indexed set.implicantsToScopes scope).foldlM removeScope set
    .ok ⟨Dict.put set.scopesToImplicants scope implicants, implicants.foldl (index scope) set.implicantsToScopes⟩

/-- `__init__`, one scope. -/
def addValue (set : ScopeDicts) (scope : List Char) : Except SetError ScopeDicts :=
  match implicants scope with
  | .ok found => set.addScope scope found
  | .error raised => .error (.scope raised)

/-- `from_array`. -/
def fromArray (values : List (List Char)) : Except SetError ScopeDicts := values.foldlM addValue ∅

/-- `from_string`. -/
def fromString (value : List Char) : Except SetError ScopeDicts := fromArray ((value.splitOn ' ').filter (· ≠ []))

/-- A loop of `_add_scope` over some items of `_scopes_to_implicants`. -/
def addItems (set : ScopeDicts) (items : List (List Char × List (List Char))) : Except SetError ScopeDicts :=
  items.foldlM (fun set item => set.addScope item.1 item.2) set

/-- `contains`. -/
def contains (set other : ScopeDicts) : Bool := other.scopesToImplicants.all fun item => set.hasSomeScope item.2

/-- `intersects`. -/
def intersects (set other : ScopeDicts) : Bool :=
  other.implicantValues.any (fun implicant => implicant ∈ set.values) ||
    set.implicantValues.any fun implicant => implicant ∈ other.values

/-- `filtered`. -/
def filtered (set other : ScopeDicts) : Except SetError ScopeDicts :=
  addItems ∅ (set.scopesToImplicants.filter fun item => other.hasSomeScope item.2)

/-- `difference`. -/
def difference (set other : ScopeDicts) : Except SetError ScopeDicts :=
  addItems ∅ (set.scopesToImplicants.filter fun item => !other.hasSomeScope item.2)

/-- `union`. -/
def union (set other : ScopeDicts) : Except SetError ScopeDicts := do
  let result ← addItems ∅ set.scopesToImplicants
  addItems result other.scopesToImplicants

/-- `add`. -/
def add (set other : ScopeDicts) : Except SetError ScopeDicts := addItems set other.scopesToImplicants

example : (fromString "profile:email profile openid".toList).map values = .ok ["profile".toList, "openid".toList] := by
  decide

/-! ### The index -/

variable {dict : List (List Char × List (List Char))} {scope implicant : List Char} {implicants : List (List Char)}

/-- No implicant is indexed with nothing, or with a scope twice. -/
def Tidy (dict : List (List Char × List (List Char))) : Prop :=
  ∀ implicant scopes, Dict.get? dict implicant = some scopes → scopes ≠ [] ∧ scopes.Nodup

/-- What an implicant is indexed with stands there once. -/
theorem Tidy.nodup (h : Tidy dict) (implicant : List Char) : (indexed dict implicant).Nodup := by
  unfold indexed
  cases hget : Dict.get? dict implicant with
  | none => exact List.nodup_nil
  | some scopes => exact (h implicant scopes hget).2

/-- What an implicant is indexed with after an assignment. -/
theorem indexed_put (dict : List (List Char × List (List Char))) (implicant other : List Char) (scopes : List (List Char)) :
    indexed (Dict.put dict implicant scopes) other = if other = implicant then scopes else indexed dict other := by
  unfold indexed
  rw [Dict.get?_put]
  split <;> rfl

/-- A scope is indexed with each of its implicants. -/
theorem mem_indexed_foldl_index (dict : List (List Char × List (List Char))) (scope other value : List Char)
    (implicants : List (List Char)) :
    value ∈ indexed (implicants.foldl (index scope) dict) other ↔
      value ∈ indexed dict other ∨ value = scope ∧ other ∈ implicants := by
  induction implicants generalizing dict with
  | nil => simp
  | cons implicant rest ih =>
    rw [List.foldl_cons, ih, index, indexed_put]
    by_cases hother : other = implicant
    · subst hother
      simp only [if_true, List.mem_insert_iff, List.mem_cons, true_or, and_true]
      tauto
    · rw [if_neg hother]
      simp [hother]

/-- The index stays tidy. -/
theorem tidy_foldl_index (h : Tidy dict) (scope : List Char) (implicants : List (List Char)) :
    Tidy (implicants.foldl (index scope) dict) := by
  induction implicants generalizing dict with
  | nil => exact h
  | cons implicant rest ih =>
    refine ih fun other scopes hget => ?_
    rw [index, Dict.get?_put] at hget
    split at hget
    · obtain rfl := Option.some.inj hget
      exact ⟨List.ne_nil_of_mem List.mem_insert_self, List.Nodup.insert (h.nodup implicant)⟩
    · exact h other scopes hget

/-- One implicant of a scope that is indexed with it. -/
theorem unindex_eq_ok (hmem : scope ∈ indexed dict implicant) (h : Tidy dict) :
    ∃ dict', unindex scope dict implicant = .ok dict' ∧ Tidy dict' ∧
      ∀ other value, value ∈ indexed dict' other ↔
        value ∈ indexed dict other ∧ ¬(value = scope ∧ other = implicant) := by
  unfold indexed at hmem
  cases hget : Dict.get? dict implicant with
  | none => simp [hget] at hmem
  | some implied =>
    refine ⟨_, by rw [unindex, lookup, hget]; rfl, ?_, ?_⟩
    · intro other scopes hfound
      split at hfound
      · rw [Dict.get?_del] at hfound
        split at hfound
        · cases hfound
        · exact h other scopes hfound
      · rename_i hleft
        rw [Dict.get?_put] at hfound
        split at hfound
        · obtain rfl := Option.some.inj hfound
          exact ⟨fun hnil => hleft (List.isEmpty_iff.mpr hnil), (h implicant implied hget).2.filter _⟩
        · exact h other scopes hfound
    · intro other value
      by_cases hother : other = implicant
      · subst hother
        have hhere : indexed dict other = implied := by rw [indexed, hget]; rfl
        rw [hhere]
        split
        · rename_i hempty
          have hnone : indexed (Dict.del dict other) other = [] := by rw [indexed, Dict.get?_del, if_pos rfl]; rfl
          rw [hnone]
          have hfilter := List.isEmpty_iff.mp hempty
          constructor
          · intro hv
            cases hv
          · intro hv
            have hkept : value ∈ implied.filter (· ≠ scope) := List.mem_filter.mpr ⟨hv.1, by simpa using hv.2⟩
            rw [hfilter] at hkept
            cases hkept
        · rw [indexed_put, if_pos rfl, List.mem_filter]
          simp
      · have hsame : indexed (if (implied.filter (· ≠ scope)).isEmpty then Dict.del dict implicant
            else Dict.put dict implicant (implied.filter (· ≠ scope))) other = indexed dict other := by
          split
          · rw [indexed, Dict.get?_del, if_neg hother]
            rfl
          · rw [indexed_put, if_neg hother]
        rw [hsame]
        simp [hother]

/-- All implicants of a scope that is indexed with each of them. -/
theorem foldlM_unindex (hnodup : implicants.Nodup) (hmem : ∀ implicant ∈ implicants, scope ∈ indexed dict implicant)
    (h : Tidy dict) :
    ∃ dict', implicants.foldlM (unindex scope) dict = .ok dict' ∧ Tidy dict' ∧
      ∀ other value, value ∈ indexed dict' other ↔
        value ∈ indexed dict other ∧ ¬(value = scope ∧ other ∈ implicants) := by
  induction implicants generalizing dict with
  | nil => exact ⟨dict, rfl, h, by simp⟩
  | cons implicant rest ih =>
    obtain ⟨hfirst, hrest⟩ := List.nodup_cons.mp hnodup
    obtain ⟨next, hnext, htidy, hindexed⟩ := unindex_eq_ok (hmem implicant List.mem_cons_self) h
    obtain ⟨dict', hdict', htidy', hindexed'⟩ := ih hrest (fun other hother => by
      refine (hindexed other scope).mpr ⟨hmem other (List.mem_cons_of_mem _ hother), fun hsame => ?_⟩
      exact hfirst (hsame.2 ▸ hother)) htidy
    refine ⟨dict', ?_, htidy', fun other value => ?_⟩
    · rw [List.foldlM_cons, hnext]
      exact hdict'
    · rw [hindexed', hindexed, List.mem_cons]
      tauto

/-! ### What the dictionaries mirror -/

/-- The dictionaries of a set of scopes. -/
structure Mirrors (dicts : ScopeDicts) (set : ScopeSet) : Prop where
  scopes : dicts.scopesToImplicants = set.scopesToImplicants.map fun s => (s.value, s.implicants)
  index : ∀ implicant scope, scope ∈ indexed dicts.implicantsToScopes implicant ↔
    (implicant, scope) ∈ set.implicantsToScopes
  tidy : Tidy dicts.implicantsToScopes

/-- The implicants of a scope are distinct. -/
theorem nodup_implicants (s : Scope) : s.implicants.Nodup := by
  have nodup : ∀ (n : ℕ) (l : List (List Char)), l.length ≤ n → l.eraseDups.Nodup := by
    intro n
    induction n with
    | zero =>
      intro l hl
      rw [List.length_eq_zero_iff.mp (Nat.le_zero.mp hl)]
      exact List.nodup_nil
    | succ n ih =>
      intro l hl
      cases l with
      | nil => exact List.nodup_nil
      | cons a rest =>
        have hshorter := Nat.le_trans (List.length_filter_le (fun b => !b == a) rest) (Nat.le_of_succ_le_succ hl)
        rw [List.eraseDups_cons]
        refine List.nodup_cons.mpr ⟨fun hmem => ?_, ih _ hshorter⟩
        simpa using (List.mem_filter.mp (List.mem_eraseDups.mp hmem)).2
  obtain ⟨found, -, hfound⟩ := map_eq_ok.mp s.derived
  exact hfound ▸ nodup found.length found le_rfl

/-- Each scope is kept with its own implicants. -/
theorem get?_map_scope {scopes : List Scope} {s : Scope} (hs : s ∈ scopes) :
    Dict.get? (scopes.map fun s => (s.value, s.implicants)) s.value = some s.implicants := by
  induction scopes with
  | nil => cases hs
  | cons t rest ih =>
    rw [List.map_cons, Dict.get?_cons]
    split
    · rename_i heq
      rw [Scope.eq_of_value heq]
    · rename_i hne
      obtain rfl | hrest := List.mem_cons.mp hs
      · exact absurd rfl hne
      · exact ih hrest

namespace Mirrors

variable {dicts others : ScopeDicts} {set other : ScopeSet}

/-- Empty dictionaries mirror the empty set. -/
theorem empty : Mirrors ∅ ∅ where
  scopes := rfl
  index implicant scope := by
    constructor
    · intro h
      cases h
    · intro h
      cases h
  tidy implicant scopes h := by cases h

/-- They hold the same values. -/
theorem values (h : Mirrors dicts set) : dicts.values = set.values := by
  unfold ScopeDicts.values ScopeSet.values Dict.keys
  rw [h.scopes, List.map_map]
  rfl

/-- They have the same scopes among their values. -/
theorem hasSomeScope (h : Mirrors dicts set) (scopes : List (List Char)) :
    dicts.hasSomeScope scopes = set.hasSomeScope scopes := by
  unfold ScopeDicts.hasSomeScope ScopeSet.hasSomeScope
  rw [h.values]

/-- Removing a scope that is held. -/
theorem removeScope (h : Mirrors dicts set) {s : Scope} (hs : s ∈ set.scopesToImplicants) :
    ∃ dicts', dicts.removeScope s.value = .ok dicts' ∧ Mirrors dicts' (set.removeScope s.value) := by
  have hlookup : Dict.get? dicts.scopesToImplicants s.value = some s.implicants := by
    rw [h.scopes]
    exact get?_map_scope hs
  have hindexed : ∀ implicant ∈ s.implicants, s.value ∈ indexed dicts.implicantsToScopes implicant := by
    intro implicant hmem
    rw [h.index, set.indexed]
    exact ⟨s, hs, rfl, hmem⟩
  obtain ⟨dict', hdict', htidy, hmem⟩ := foldlM_unindex (nodup_implicants s) hindexed h.tidy
  refine ⟨⟨Dict.del dicts.scopesToImplicants s.value, dict'⟩, ?_, ?_, ?_, htidy⟩
  · simp only [ScopeDicts.removeScope, lookup, hlookup, ok_bind, hdict']
  · simp only [ScopeSet.removeScope, h.scopes, Dict.del, List.filter_map]
    rfl
  · intro implicant scope
    rw [hmem, h.index]
    simp only [ScopeSet.removeScope, List.mem_filter, decide_eq_true_eq]
    refine and_congr_right fun hpair => ?_
    obtain ⟨t, ht, rfl, himplicant⟩ := (set.indexed implicant scope).mp hpair
    constructor
    · intro hnot heq
      rw [Scope.eq_of_value heq] at himplicant
      exact hnot ⟨heq, himplicant⟩
    · intro hne heq
      exact hne heq.1

/-- Removing several. -/
theorem foldlM_removeScope {values : List (List Char)} (h : Mirrors dicts set) (hnodup : values.Nodup)
    (hheld : ∀ value ∈ values, value ∈ set.values) :
    ∃ dicts', values.foldlM ScopeDicts.removeScope dicts = .ok dicts' ∧
      Mirrors dicts' (values.foldl ScopeSet.removeScope set) := by
  induction values generalizing dicts set with
  | nil => exact ⟨dicts, rfl, h⟩
  | cons value rest ih =>
    obtain ⟨hfirst, hrest⟩ := List.nodup_cons.mp hnodup
    obtain ⟨s, hs, rfl⟩ := List.mem_map.mp (hheld value List.mem_cons_self)
    obtain ⟨next, hnext, hmirrors⟩ := h.removeScope hs
    obtain ⟨dicts', hdicts', hmirrors'⟩ := ih hmirrors hrest (by
      intro other hother
      obtain ⟨t, ht, rfl⟩ := List.mem_map.mp (hheld other (List.mem_cons_of_mem _ hother))
      refine List.mem_map_of_mem (List.mem_filter.mpr ⟨ht, ?_⟩)
      exact decide_eq_true fun heq => hfirst (heq ▸ hother))
    refine ⟨dicts', ?_, hmirrors'⟩
    rw [List.foldlM_cons, hnext]
    exact hdicts'

/-- Adding a scope. -/
theorem addScope (h : Mirrors dicts set) (s : Scope) :
    ∃ dicts', dicts.addScope s.value s.implicants = .ok dicts' ∧ Mirrors dicts' (set.addScope s) := by
  unfold ScopeDicts.addScope ScopeSet.addScope
  rw [h.hasSomeScope]
  split
  · exact ⟨dicts, rfl, h⟩
  · rename_i hnew
    have himplied : ∀ value, value ∈ indexed dicts.implicantsToScopes s.value ↔ value ∈ set.implied s.value := by
      intro value
      rw [h.index]
      simp [ScopeSet.implied]
    have hheld : ∀ value ∈ indexed dicts.implicantsToScopes s.value, value ∈ set.values := by
      intro value hvalue
      obtain ⟨t, ht, rfl, -⟩ := (set.indexed _ _).mp ((h.index _ _).mp hvalue)
      exact List.mem_map_of_mem ht
    obtain ⟨left, hleft, hmirrors⟩ := h.foldlM_removeScope (h.tidy.nodup s.value) hheld
    -- what is removed is the same, in whatever order
    have hsame : ∀ t, t ∈ ((indexed dicts.implicantsToScopes s.value).foldl ScopeSet.removeScope set).scopesToImplicants ↔
        t ∈ ((set.implied s.value).foldl ScopeSet.removeScope set).scopesToImplicants := by
      intro t
      rw [ScopeSet.mem_foldl_removeScope, ScopeSet.mem_foldl_removeScope, himplied]
    have hscopes : ((indexed dicts.implicantsToScopes s.value).foldl ScopeSet.removeScope set).scopesToImplicants =
        ((set.implied s.value).foldl ScopeSet.removeScope set).scopesToImplicants := by
      rw [ScopeSet.scopesToImplicants_foldl_removeScope, ScopeSet.scopesToImplicants_foldl_removeScope]
      apply List.filter_congr
      intro t _
      simp only [himplied]
    have hunheld : s.value ∉ Dict.keys left.scopesToImplicants := by
      intro hmem
      rw [← ScopeDicts.values, hmirrors.values] at hmem
      obtain ⟨t, ht, hvalue⟩ := List.mem_map.mp hmem
      rw [Scope.eq_of_value hvalue, ScopeSet.mem_foldl_removeScope] at ht
      exact hnew (ScopeSet.hasSomeScope_iff.mpr (ScopeSet.mem_grants.mpr ⟨s, ht.1, le_rfl⟩))
    refine ⟨_, by rw [hleft]; rfl, ?_, ?_, tidy_foldl_index hmirrors.tidy _ _⟩
    · rw [Dict.put_of_not_mem hunheld, hmirrors.scopes, hscopes]
      simp [ScopeSet.holdScope]
    · intro implicant scope
      rw [mem_indexed_foldl_index, hmirrors.index, ScopeSet.indexed, ScopeSet.indexed]
      simp only [hsame, ScopeSet.holdScope, List.mem_append, List.mem_singleton]
      constructor
      · rintro (⟨t, ht, hvalue, hmem⟩ | ⟨rfl, hmem⟩)
        · exact ⟨t, Or.inl ht, hvalue, hmem⟩
        · exact ⟨s, Or.inr rfl, rfl, hmem⟩
      · rintro ⟨t, ht | rfl, hvalue, hmem⟩
        · exact Or.inl ⟨t, ht, hvalue, hmem⟩
        · exact Or.inr ⟨hvalue.symm, hmem⟩

/-- Adding scopes one after another. -/
theorem addItems (h : Mirrors dicts set) (scopes : List Scope) :
    ∃ dicts', dicts.addItems (scopes.map fun s => (s.value, s.implicants)) = .ok dicts' ∧
      Mirrors dicts' (scopes.foldl ScopeSet.addScope set) := by
  induction scopes generalizing dicts set with
  | nil => exact ⟨dicts, rfl, h⟩
  | cons s rest ih =>
    obtain ⟨next, hnext, hmirrors⟩ := h.addScope s
    obtain ⟨dicts', hdicts', hmirrors'⟩ := ih hmirrors
    refine ⟨dicts', ?_, hmirrors'⟩
    rw [ScopeDicts.addItems, List.map_cons, List.foldlM_cons, hnext]
    exact hdicts'

/-- `union`. -/
theorem union (h : Mirrors dicts set) (h' : Mirrors others other) :
    ∃ dicts', dicts.union others = .ok dicts' ∧ Mirrors dicts' (set.union other) := by
  obtain ⟨first, hfirst, hmirrors⟩ := Mirrors.empty.addItems set.scopesToImplicants
  obtain ⟨dicts', hdicts', hmirrors'⟩ := hmirrors.addItems other.scopesToImplicants
  refine ⟨dicts', ?_, ?_⟩
  · rw [ScopeDicts.union, h.scopes, h'.scopes, hfirst]
    exact hdicts'
  · rw [ScopeSet.union, ScopeSet.ofScopes, List.foldl_append]
    exact hmirrors'

/-- `add`. -/
theorem add (h : Mirrors dicts set) (h' : Mirrors others other) :
    ∃ dicts', dicts.add others = .ok dicts' ∧
      Mirrors dicts' (other.scopesToImplicants.foldl ScopeSet.addScope set) := by
  rw [ScopeDicts.add, h'.scopes]
  exact h.addItems other.scopesToImplicants

/-- The scopes among the items that pass a test. -/
theorem filter_items (h : Mirrors dicts set) (h' : Mirrors others other) (keep : Bool) :
    (dicts.scopesToImplicants.filter fun item => others.hasSomeScope item.2 == keep) =
      (set.scopesToImplicants.filter fun s => other.hasSomeScope s.implicants == keep).map fun s => (s.value, s.implicants) := by
  rw [h.scopes, List.filter_map]
  congr 1
  apply List.filter_congr
  intro s _
  rw [Function.comp_apply, h'.hasSomeScope]

/-- `filtered`. -/
theorem filtered (h : Mirrors dicts set) (h' : Mirrors others other) :
    ∃ dicts', dicts.filtered others = .ok dicts' ∧ Mirrors dicts' (set.filtered other) := by
  have hitems := h.filter_items h' true
  simp only [beq_true] at hitems
  rw [ScopeDicts.filtered, hitems]
  exact Mirrors.empty.addItems _

/-- `difference`. -/
theorem difference (h : Mirrors dicts set) (h' : Mirrors others other) :
    ∃ dicts', dicts.difference others = .ok dicts' ∧ Mirrors dicts' (set.difference other) := by
  have hitems := h.filter_items h' false
  simp only [beq_false] at hitems
  rw [ScopeDicts.difference, hitems]
  exact Mirrors.empty.addItems _

/-- `contains`. -/
theorem contains (h : Mirrors dicts set) (h' : Mirrors others other) : dicts.contains others = set.contains other := by
  unfold ScopeDicts.contains ScopeSet.contains
  rw [h'.scopes, List.all_map]
  simp only [Function.comp_def, h.hasSomeScope]

/-- The implicants that are indexed. -/
theorem mem_implicantValues (h : Mirrors dicts set) {implicant : List Char} :
    implicant ∈ dicts.implicantValues ↔ ∃ s ∈ set.scopesToImplicants, implicant ∈ s.implicants := by
  rw [ScopeDicts.implicantValues, Dict.mem_keys]
  constructor
  · intro hsome
    obtain ⟨scopes, hget⟩ := Option.isSome_iff_exists.mp hsome
    obtain ⟨scope, hscope⟩ := List.exists_mem_of_ne_nil _ (h.tidy implicant scopes hget).1
    have hindexed : scope ∈ indexed dicts.implicantsToScopes implicant := by
      rw [indexed, hget]
      exact hscope
    obtain ⟨s, hs, -, hmem⟩ := (set.indexed _ _).mp ((h.index _ _).mp hindexed)
    exact ⟨s, hs, hmem⟩
  · intro hexists
    obtain ⟨s, hs, hmem⟩ := hexists
    have hindexed := (h.index implicant s.value).mpr ((set.indexed _ _).mpr ⟨s, hs, rfl, hmem⟩)
    unfold indexed at hindexed
    cases hget : Dict.get? dicts.implicantsToScopes implicant with
    | none => simp [hget] at hindexed
    | some scopes => rfl

/-- `from_array`, of scopes. -/
theorem fromArray (scopes : List Scope) :
    ∃ dicts', ScopeDicts.fromArray (scopes.map Scope.value) = .ok dicts' ∧ Mirrors dicts' (ScopeSet.ofScopes scopes) := by
  have hfold : ∀ {dicts : ScopeDicts} (scopes : List Scope), (scopes.map Scope.value).foldlM addValue dicts =
      dicts.addItems (scopes.map fun s => (s.value, s.implicants)) := by
    intro dicts scopes
    induction scopes generalizing dicts with
    | nil => rfl
    | cons s rest ih =>
      have hone : dicts.addValue s.value = dicts.addScope s.value s.implicants := by
        rw [addValue, s.derived]
      rw [List.map_cons, List.foldlM_cons, hone, ScopeDicts.addItems, List.map_cons, List.foldlM_cons]
      cases dicts.addScope s.value s.implicants with
      | error raised => rfl
      | ok next => exact ih
  rw [ScopeDicts.fromArray, hfold]
  exact Mirrors.empty.addItems scopes

end Mirrors

/-! ### Sets that are built -/

/-- One value implies another. -/
def Implies (a b : List Char) : Prop := ∃ found, OAuth.implicants b = .ok found ∧ a ∈ found

/-- The order of scopes. -/
theorem implies_iff {s t : Scope} : Implies t.value s.value ↔ s ≤ t := by
  constructor
  · rintro ⟨found, hfound, hmem⟩
    cases s.derived.symm.trans hfound
    exact hmem
  · exact fun hle => ⟨s.implicants, s.derived, hle⟩

/-- The index agrees with what would be computed anew from the values. -/
structure Exact (set : ScopeDicts) : Prop where
  items : ∀ value found, Dict.get? set.scopesToImplicants value = some found → OAuth.implicants value = .ok found
  index : ∀ implicant scope, scope ∈ indexed set.implicantsToScopes implicant ↔
    scope ∈ set.values ∧ Implies implicant scope
  keys : ∀ implicant, implicant ∈ set.implicantValues ↔ ∃ scope ∈ set.values, Implies implicant scope

/-- No value implies another. -/
def Antichain (set : ScopeDicts) : Prop := set.values.Pairwise fun v w => ¬Implies v w ∧ ¬Implies w v

/-- The sets that the constructors and the methods make. -/
inductive Built : ScopeDicts → Prop
  | fromArray {values : List (List Char)} {set : ScopeDicts} (h : fromArray values = .ok set) : Built set
  | add {set other result : ScopeDicts} (hset : Built set) (hother : Built other) (h : set.add other = .ok result) :
      Built result
  | union {set other result : ScopeDicts} (hset : Built set) (hother : Built other)
      (h : set.union other = .ok result) : Built result
  | filtered {set other result : ScopeDicts} (hset : Built set) (hother : Built other)
      (h : set.filtered other = .ok result) : Built result
  | difference {set other result : ScopeDicts} (hset : Built set) (hother : Built other)
      (h : set.difference other = .ok result) : Built result

/-- Values of which a set can be made are scopes. -/
theorem scopes_of_fromArray {values : List (List Char)} {set : ScopeDicts} (h : ScopeDicts.fromArray values = .ok set) :
    ∃ scopes : List Scope, values = scopes.map Scope.value := by
  have hfold : ∀ {set set' : ScopeDicts} (values : List (List Char)), values.foldlM addValue set = .ok set' →
      ∃ scopes : List Scope, values = scopes.map Scope.value := by
    intro set set' values h
    induction values generalizing set with
    | nil => exact ⟨[], rfl⟩
    | cons value rest ih =>
      rw [List.foldlM_cons, bind_eq_ok] at h
      obtain ⟨next, hnext, hrest⟩ := h
      obtain ⟨scopes, rfl⟩ := ih hrest
      unfold addValue at hnext
      split at hnext
      · rename_i found hfound
        exact ⟨⟨value, found, hfound⟩ :: scopes, rfl⟩
      · cases hnext
  exact hfold values h

/-- They mirror a set of scopes in normal form. -/
theorem Built.mirrors {dicts : ScopeDicts} (h : Built dicts) :
    ∃ set, Mirrors dicts set ∧ ScopeSet.Normal set.scopesToImplicants := by
  have hsame : ∀ {x : Except SetError ScopeDicts} {result dicts' : ScopeDicts} {set : ScopeSet}, x = .ok result →
      x = .ok dicts' → Mirrors dicts' set → Mirrors result set := by
    intro x result dicts' set hresult hdicts' hmirrors
    cases hresult.symm.trans hdicts'
    exact hmirrors
  induction h with
  | fromArray h =>
    obtain ⟨scopes, rfl⟩ := scopes_of_fromArray h
    obtain ⟨dicts', hdicts', hmirrors⟩ := Mirrors.fromArray scopes
    exact ⟨_, hsame h hdicts' hmirrors, ScopeSet.normal_ofScopes scopes⟩
  | add _ _ h ih ih' =>
    obtain ⟨set, hset, hnormal⟩ := ih
    obtain ⟨other, hother, -⟩ := ih'
    obtain ⟨dicts', hdicts', hmirrors⟩ := hset.add hother
    exact ⟨_, hsame h hdicts' hmirrors, (ScopeSet.foldl_addScope_normal hnormal _).1⟩
  | union _ _ h ih ih' =>
    obtain ⟨set, hset, -⟩ := ih
    obtain ⟨other, hother, -⟩ := ih'
    obtain ⟨dicts', hdicts', hmirrors⟩ := hset.union hother
    exact ⟨_, hsame h hdicts' hmirrors, ScopeSet.normal_ofScopes _⟩
  | filtered _ _ h ih ih' =>
    obtain ⟨set, hset, -⟩ := ih
    obtain ⟨other, hother, -⟩ := ih'
    obtain ⟨dicts', hdicts', hmirrors⟩ := hset.filtered hother
    exact ⟨_, hsame h hdicts' hmirrors, ScopeSet.normal_ofScopes _⟩
  | difference _ _ h ih ih' =>
    obtain ⟨set, hset, -⟩ := ih
    obtain ⟨other, hother, -⟩ := ih'
    obtain ⟨dicts', hdicts', hmirrors⟩ := hset.difference hother
    exact ⟨_, hsame h hdicts' hmirrors, ScopeSet.normal_ofScopes _⟩

namespace Mirrors

variable {dicts others : ScopeDicts} {set other : ScopeSet}

/-- A value is held if its scope is. -/
theorem mem_values (h : Mirrors dicts set) {value : List Char} :
    value ∈ dicts.values ↔ ∃ s ∈ set.scopesToImplicants, s.value = value := by
  rw [h.values, ScopeSet.values, List.mem_map]

/-- The index is exact. -/
theorem exact (h : Mirrors dicts set) : dicts.Exact where
  items value found hget := by
    have hvalue : value ∈ dicts.values := Dict.mem_keys.mpr (by rw [hget]; rfl)
    obtain ⟨s, hs, rfl⟩ := h.mem_values.mp hvalue
    rw [h.scopes, get?_map_scope hs] at hget
    rw [s.derived, Option.some.inj hget]
  index implicant scope := by
    rw [h.index, set.indexed, h.mem_values]
    constructor
    · rintro ⟨s, hs, rfl, hmem⟩
      exact ⟨⟨s, hs, rfl⟩, s.implicants, s.derived, hmem⟩
    · rintro ⟨⟨s, hs, rfl⟩, found, hfound, hmem⟩
      cases s.derived.symm.trans hfound
      exact ⟨s, hs, rfl, hmem⟩
  keys implicant := by
    rw [h.mem_implicantValues]
    constructor
    · rintro ⟨s, hs, hmem⟩
      exact ⟨s.value, h.mem_values.mpr ⟨s, hs, rfl⟩, s.implicants, s.derived, hmem⟩
    · rintro ⟨value, hvalue, found, hfound, hmem⟩
      obtain ⟨s, hs, rfl⟩ := h.mem_values.mp hvalue
      cases s.derived.symm.trans hfound
      exact ⟨s, hs, hmem⟩

/-- The values of a normal set are an antichain. -/
theorem antichain (h : Mirrors dicts set) (hnormal : ScopeSet.Normal set.scopesToImplicants) : dicts.Antichain := by
  unfold Antichain
  rw [h.values, ScopeSet.values, List.pairwise_map]
  refine hnormal.imp fun hapart => ?_
  rw [implies_iff, implies_iff]
  exact hapart.symm

/-- Sets with the same scopes are equal. -/
theorem equals (h : Mirrors dicts set) (h' : Mirrors others other)
    (hsame : ∀ s, s ∈ set.scopesToImplicants ↔ s ∈ other.scopesToImplicants) : dicts.equals others = true := by
  simp only [ScopeDicts.equals, Bool.and_eq_true, List.all_eq_true, decide_eq_true_eq]
  constructor
  · intro value hvalue
    obtain ⟨s, hs, rfl⟩ := h.mem_values.mp hvalue
    exact h'.mem_values.mpr ⟨s, (hsame s).mp hs, rfl⟩
  · intro value hvalue
    obtain ⟨s, hs, rfl⟩ := h'.mem_values.mp hvalue
    exact h.mem_values.mpr ⟨s, (hsame s).mpr hs, rfl⟩

/-- A set is read as it is written. -/
theorem fromString_str (h : Mirrors dicts set) (hnormal : ScopeSet.Normal set.scopesToImplicants) :
    ∃ dicts', fromString dicts.str = .ok dicts' ∧ dicts'.equals dicts = true := by
  obtain ⟨dicts', hdicts', hmirrors⟩ := Mirrors.fromArray set.scopesToImplicants
  refine ⟨dicts', ?_, hmirrors.equals h fun s => by rw [ScopeSet.scopesToImplicants_ofScopes hnormal]⟩
  have hwords : (dicts.str.splitOn ' ').filter (· ≠ []) = set.scopesToImplicants.map Scope.value := by
    rw [ScopeDicts.str, h.values]
    exact ScopeSet.words_intercalate set.scopesToImplicants
  rw [fromString, hwords, hdicts']

end Mirrors

/-- Implication is a partial order on the scopes. A set made of scopes holds those that no other
of them implies, whatever their order. Every set that is built has an exact index, holds no
scope that another one implies, is read as it is written, and no method ever raises. -/
theorem scope_sets_normal :
    ((∀ s : Scope, Implies s.value s.value) ∧
        (∀ s t : Scope, Implies s.value t.value → Implies t.value s.value → s.value = t.value) ∧
        ∀ s t u : Scope, Implies s.value t.value → Implies t.value u.value → Implies s.value u.value) ∧
      (∀ scopes : List Scope, ∃ set, ScopeDicts.fromArray (scopes.map Scope.value) = .ok set ∧ set.Antichain ∧
        (∀ value, value ∈ set.values ↔
          ∃ s ∈ scopes, s.value = value ∧ ∀ t ∈ scopes, t.value ≠ value → ¬Implies t.value value) ∧
        ∀ scopes' : List Scope, (∀ s, s ∈ scopes' ↔ s ∈ scopes) →
          ∃ set', ScopeDicts.fromArray (scopes'.map Scope.value) = .ok set' ∧ set'.equals set = true) ∧
      (∀ set : ScopeDicts, set.Built → set.Exact ∧ set.Antichain ∧
        ∃ set', fromString set.str = .ok set' ∧ set'.equals set = true) ∧
      ∀ set other : ScopeDicts, set.Built → other.Built →
        (∃ result, set.add other = .ok result) ∧ (∃ result, set.union other = .ok result) ∧
          (∃ result, set.filtered other = .ok result) ∧ ∃ result, set.difference other = .ok result := by
  refine ⟨⟨fun s => implies_iff.mpr le_rfl, fun s t hst hts => ?_, fun s t u hst htu => ?_⟩, fun scopes => ?_,
    fun set hbuilt => ?_, fun set other hset hother => ?_⟩
  · exact congrArg Scope.value (le_antisymm (implies_iff.mp hts) (implies_iff.mp hst))
  · exact implies_iff.mpr ((implies_iff.mp htu).trans (implies_iff.mp hst))
  · obtain ⟨set, hset, hmirrors⟩ := Mirrors.fromArray scopes
    refine ⟨set, hset, hmirrors.antichain (ScopeSet.normal_ofScopes scopes), fun value => ?_, fun scopes' hsame => ?_⟩
    · rw [hmirrors.mem_values]
      simp only [ScopeSet.mem_ofScopes]
      constructor
      · rintro ⟨s, ⟨hs, hmax⟩, rfl⟩
        refine ⟨s, hs, rfl, fun t ht hne himplies => hne ?_⟩
        rw [hmax t ht (implies_iff.mp himplies)]
      · rintro ⟨s, hs, rfl, hmax⟩
        refine ⟨s, ⟨hs, fun t ht hle => ?_⟩, rfl⟩
        by_contra hne
        exact hmax t ht (fun heq => hne (Scope.eq_of_value heq)) (implies_iff.mpr hle)
    · obtain ⟨set', hset', hmirrors'⟩ := Mirrors.fromArray scopes'
      refine ⟨set', hset', hmirrors'.equals hmirrors fun s => ?_⟩
      rw [ScopeSet.mem_ofScopes, ScopeSet.mem_ofScopes, hsame]
      simp only [hsame]
  · obtain ⟨scopes, hmirrors, hnormal⟩ := hbuilt.mirrors
    exact ⟨hmirrors.exact, hmirrors.antichain hnormal, hmirrors.fromString_str hnormal⟩
  · obtain ⟨_, hmirrors, -⟩ := hset.mirrors
    obtain ⟨_, hmirrors', -⟩ := hother.mirrors
    obtain ⟨added, hadded, -⟩ := hmirrors.add hmirrors'
    obtain ⟨united, hunited, -⟩ := hmirrors.union hmirrors'
    obtain ⟨common, hcommon, -⟩ := hmirrors.filtered hmirrors'
    obtain ⟨rest, hrest, -⟩ := hmirrors.difference hmirrors'
    exact ⟨⟨added, hadded⟩, ⟨united, hunited⟩, ⟨common, hcommon⟩, ⟨rest, hrest⟩⟩

/-! ### What the methods mean -/

/-- Everything that some value of a set implies. -/
def means (set : ScopeDicts) : Set Scope := {s | ∃ value ∈ set.values, Implies value s.value}

namespace Mirrors

variable {dicts others : ScopeDicts} {set other : ScopeSet}

/-- It is what the scopes held grant. -/
theorem mem_means (h : Mirrors dicts set) {s : Scope} : s ∈ dicts.means ↔ s ∈ set.grants := by
  rw [ScopeSet.mem_grants]
  constructor
  · rintro ⟨value, hvalue, himplies⟩
    obtain ⟨t, ht, rfl⟩ := h.mem_values.mp hvalue
    exact ⟨t, ht, implies_iff.mp himplies⟩
  · rintro ⟨t, ht, hle⟩
    exact ⟨t.value, h.mem_values.mpr ⟨t, ht, rfl⟩, implies_iff.mpr hle⟩

/-- `contains` is inclusion. -/
theorem contains_iff (h : Mirrors dicts set) (h' : Mirrors others other) :
    dicts.contains others = true ↔ others.means ⊆ dicts.means := by
  rw [h.contains h', ScopeSet.contains_iff]
  constructor
  · intro hle s hs
    exact h.mem_means.mpr (hle (h'.mem_means.mp hs))
  · intro hsub s hs
    exact h.mem_means.mp (hsub (h'.mem_means.mpr hs))

/-- A value is read as the set of it alone, and contained if it is implied. -/
theorem contains_value (h : Mirrors dicts set) (s : Scope) :
    ∃ alone, fromString s.value = .ok alone ∧ (dicts.contains alone = true ↔ s ∈ set.grants) := by
  obtain ⟨alone, halone, hmirrors⟩ := Mirrors.fromArray [s]
  have hwords := ScopeSet.words_intercalate [s]
  have hjoined : [' '].intercalate ([s].map Scope.value) = s.value := by simp
  rw [hjoined] at hwords
  refine ⟨alone, by rw [fromString, hwords, halone], ?_⟩
  have hheld : (ScopeSet.ofScopes [s]).scopesToImplicants = [s] :=
    ScopeSet.scopesToImplicants_ofScopes (List.pairwise_singleton _ _)
  rw [h.contains hmirrors, ScopeSet.contains, hheld, List.all_cons, List.all_nil, Bool.and_true,
    ScopeSet.hasSomeScope_iff]

/-- A value is held if its scope is. -/
theorem value_mem_values (h : Mirrors dicts set) {s : Scope} :
    s.value ∈ dicts.values ↔ s ∈ set.scopesToImplicants := by
  rw [h.mem_values]
  constructor
  · rintro ⟨t, ht, hvalue⟩
    rwa [← Scope.eq_of_value hvalue]
  · exact fun hs => ⟨s, hs, rfl⟩

/-- `filtered` keeps the values that the other set grants. -/
theorem mem_filtered (h : Mirrors dicts set) (h' : Mirrors others other)
    (hnormal : ScopeSet.Normal set.scopesToImplicants) :
    ∃ common, dicts.filtered others = .ok common ∧
      ∀ value, value ∈ common.values ↔ ∃ s ∈ set.scopesToImplicants, s.value = value ∧ s ∈ other.grants := by
  obtain ⟨common, hcommon, hmirrors⟩ := h.filtered h'
  refine ⟨common, hcommon, fun value => ?_⟩
  rw [hmirrors.mem_values, ScopeSet.filtered, ScopeSet.scopesToImplicants_ofScopes (hnormal.filter _)]
  simp only [List.mem_filter, ScopeSet.hasSomeScope_iff]
  constructor
  · rintro ⟨s, ⟨hs, hgranted⟩, hvalue⟩
    exact ⟨s, hs, hvalue, hgranted⟩
  · rintro ⟨s, hs, hvalue, hgranted⟩
    exact ⟨s, ⟨hs, hgranted⟩, hvalue⟩

/-- `difference` keeps the others. -/
theorem mem_difference (h : Mirrors dicts set) (h' : Mirrors others other)
    (hnormal : ScopeSet.Normal set.scopesToImplicants) :
    ∃ rest, dicts.difference others = .ok rest ∧
      ∀ value, value ∈ rest.values ↔ ∃ s ∈ set.scopesToImplicants, s.value = value ∧ s ∉ other.grants := by
  obtain ⟨rest, hrest, hmirrors⟩ := h.difference h'
  refine ⟨rest, hrest, fun value => ?_⟩
  rw [hmirrors.mem_values, ScopeSet.difference, ScopeSet.scopesToImplicants_ofScopes (hnormal.filter _)]
  have hnot : ∀ s : Scope, (!other.hasSomeScope s.implicants) = true ↔ s ∉ other.grants := by
    intro s
    rw [← ScopeSet.hasSomeScope_iff, Bool.not_eq_true', Bool.not_eq_true]
  simp only [List.mem_filter, hnot]
  constructor
  · rintro ⟨s, ⟨hs, hgranted⟩, hvalue⟩
    exact ⟨s, hs, hvalue, hgranted⟩
  · rintro ⟨s, hs, hvalue, hgranted⟩
    exact ⟨s, ⟨hs, hgranted⟩, hvalue⟩

/-- Some value of one set is implied by the other. -/
theorem any_implicantValues (h' : Mirrors others other) (dicts : ScopeDicts) :
    (others.implicantValues.any fun implicant => implicant ∈ dicts.values) = true ↔
      ∃ s : Scope, s.value ∈ others.values ∧ s ∈ dicts.means := by
  simp only [List.any_eq_true, decide_eq_true_eq, h'.mem_implicantValues]
  constructor
  · rintro ⟨implicant, ⟨s, hs, hmem⟩, hheld⟩
    exact ⟨s, h'.value_mem_values.mpr hs, implicant, hheld, s.implicants, s.derived, hmem⟩
  · rintro ⟨s, hs, value, hvalue, found, hfound, hmem⟩
    cases s.derived.symm.trans hfound
    exact ⟨value, ⟨s, h'.value_mem_values.mp hs, hmem⟩, hvalue⟩

end Mirrors

/-- The methods of sets that are built mean what their names say, by the scopes that the values of
a set imply: `contains` is inclusion, and so reflexive and transitive; `union` is the union;
`filtered` and `difference` part the values into those the other set contains and those it does
not; and `intersects` does not depend on which set is asked. -/
theorem scope_set_operations {set other : ScopeDicts} (hset : set.Built) (hother : other.Built) :
    ((set.contains other = true ↔ other.means ⊆ set.means) ∧ set.contains set = true ∧
        ∀ third : ScopeDicts, third.Built → set.contains other = true → other.contains third = true →
          set.contains third = true) ∧
      (∃ united, set.union other = .ok united ∧ united.means = set.means ∪ other.means) ∧
      (∃ common rest, set.filtered other = .ok common ∧ set.difference other = .ok rest ∧
        List.Disjoint common.values rest.values ∧
        (∀ value, value ∈ set.values ↔ value ∈ common.values ∨ value ∈ rest.values) ∧
        (∀ value ∈ common.values, ∃ alone, fromString value = .ok alone ∧ other.contains alone = true) ∧
        ∀ value ∈ rest.values, ∃ alone, fromString value = .ok alone ∧ other.contains alone = false) ∧
      set.intersects other = other.intersects set ∧
      (set.intersects other = true ↔ (∃ s : Scope, s.value ∈ set.values ∧ s ∈ other.means) ∨
        ∃ s : Scope, s.value ∈ other.values ∧ s ∈ set.means) := by
  obtain ⟨scopes, hmirrors, hnormal⟩ := hset.mirrors
  obtain ⟨others, hmirrors', -⟩ := hother.mirrors
  refine ⟨⟨hmirrors.contains_iff hmirrors', (hmirrors.contains_iff hmirrors).mpr fun _ => id, ?_⟩, ?_, ?_, ?_, ?_⟩
  · intro third hthird hfirst hsecond
    obtain ⟨_, hmirrors'', -⟩ := hthird.mirrors
    rw [hmirrors.contains_iff hmirrors'] at hfirst
    rw [hmirrors'.contains_iff hmirrors''] at hsecond
    exact (hmirrors.contains_iff hmirrors'').mpr (hsecond.trans hfirst)
  · obtain ⟨united, hunited, hmeans⟩ := hmirrors.union hmirrors'
    refine ⟨united, hunited, Set.ext fun s => ?_⟩
    rw [hmeans.mem_means, ScopeSet.grants_union, LowerSet.mem_sup_iff, Set.mem_union, hmirrors.mem_means,
      hmirrors'.mem_means]
  · obtain ⟨common, hcommon, hmem⟩ := hmirrors.mem_filtered hmirrors' hnormal
    obtain ⟨rest, hrest, hmem'⟩ := hmirrors.mem_difference hmirrors' hnormal
    refine ⟨common, rest, hcommon, hrest, ?_, fun value => ?_, ?_, ?_⟩
    · intro value hvalue hvalue'
      obtain ⟨s, -, rfl, hgranted⟩ := (hmem value).mp hvalue
      obtain ⟨t, -, heq, hnot⟩ := (hmem' _).mp hvalue'
      rw [Scope.eq_of_value heq] at hnot
      exact hnot hgranted
    · rw [hmirrors.mem_values, hmem, hmem']
      constructor
      · rintro ⟨s, hs, hvalue⟩
        by_cases hgranted : s ∈ others.grants
        · exact Or.inl ⟨s, hs, hvalue, hgranted⟩
        · exact Or.inr ⟨s, hs, hvalue, hgranted⟩
      · rintro (⟨s, hs, hvalue, -⟩ | ⟨s, hs, hvalue, -⟩)
        · exact ⟨s, hs, hvalue⟩
        · exact ⟨s, hs, hvalue⟩
    · intro value hvalue
      obtain ⟨s, -, rfl, hgranted⟩ := (hmem value).mp hvalue
      obtain ⟨alone, halone, hcontains⟩ := hmirrors'.contains_value s
      exact ⟨alone, halone, hcontains.mpr hgranted⟩
    · intro value hvalue
      obtain ⟨s, -, rfl, hnot⟩ := (hmem' value).mp hvalue
      obtain ⟨alone, halone, hcontains⟩ := hmirrors'.contains_value s
      exact ⟨alone, halone, Bool.eq_false_iff.mpr fun h => hnot (hcontains.mp h)⟩
  · exact Bool.or_comm _ _
  · rw [ScopeDicts.intersects, Bool.or_eq_true, hmirrors'.any_implicantValues, hmirrors.any_implicantValues, or_comm]

/-- The set of `profile`. -/
def profileScope : ScopeDicts where
  scopesToImplicants := [("profile".toList, ["profile:write".toList, "profile".toList])]
  implicantsToScopes := [("profile:write".toList, ["profile".toList]), ("profile".toList, ["profile".toList])]

/-- The set of `profile:email:write`. -/
def emailWriteScope : ScopeDicts where
  scopesToImplicants :=
    [("profile:email:write".toList, ["profile:email:write".toList, "profile:write".toList])]
  implicantsToScopes := [("profile:email:write".toList, ["profile:email:write".toList]),
    ("profile:write".toList, ["profile:email:write".toList])]

/-- To read a profile is not to write an address. -/
theorem scope_set_operations_profile :
    (profileScope.contains emailWriteScope = true ↔ emailWriteScope.means ⊆ profileScope.means) ∧
      profileScope.contains emailWriteScope = false ∧ profileScope.intersects emailWriteScope = false := by
  have hprofile : ScopeDicts.fromArray ["profile".toList] = .ok profileScope := by decide
  have hemail : ScopeDicts.fromArray ["profile:email:write".toList] = .ok emailWriteScope := by decide
  exact ⟨(scope_set_operations (Built.fromArray hprofile) (Built.fromArray hemail)).1.1, by decide, by decide⟩

end ScopeDicts

end FxaLite.OAuth
