import FxaLite.OAuth.Scopes

/-!
# Sets of scopes

`ScopeSet`: a dictionary from the scopes held to their implicants, in the order they were added,
with an index from the implicants back. A scope that is implied by another is not held twice, so
that what a set means is not which values it holds but what they imply: a lower set of scopes.
Adding and uniting are joins of lower sets, `contains` is their order, and filtering and taking
the difference never leave the set.
-/

namespace FxaLite.OAuth

/-- A scope value with its implicants. -/
structure Scope where
  value : List Char
  implicants : List (List Char)
  derived : OAuth.implicants value = .ok implicants

namespace Scope

/-- A scope is its value. -/
theorem eq_of_value {s t : Scope} (h : s.value = t.value) : s = t := by
  obtain ⟨value, found, hfound⟩ := s
  obtain ⟨value', found', hfound'⟩ := t
  subst h
  cases hfound.symm.trans hfound'
  rfl

instance : DecidableEq Scope := fun s t => decidable_of_iff (s.value = t.value) ⟨eq_of_value, congrArg value⟩

/-- The scope of a value, if it is one. -/
def of (value : List Char) : Except ScopeError Scope :=
  match h : OAuth.implicants value with
  | .ok found => .ok ⟨value, found, h⟩
  | .error raised => .error raised

/-- Its value is the value it is made of. -/
theorem value_of {value : List Char} {s : Scope} (h : of value = .ok s) : s.value = value := by
  unfold of at h
  split at h
  · cases h
    rfl
  · cases h

/-- The value of a scope is one. -/
theorem of_value (s : Scope) : of s.value = .ok s := by
  unfold of
  split
  · rename_i found hfound
    exact congrArg Except.ok (eq_of_value rfl)
  · rename_i raised hraised
    cases s.derived.symm.trans hraised

/-- A scope is below those that imply it. -/
instance : Preorder Scope where
  le s t := t.value ∈ s.implicants
  le_refl s := self_mem_implicants s.derived
  le_trans s t u hst htu := mem_implicants_trans s.derived hst t.derived htu

/-- One scope implies another if its value is among the implicants of that. -/
theorem le_def {s t : Scope} : s ≤ t ↔ t.value ∈ s.implicants := Iff.rfl

instance (s t : Scope) : Decidable (s ≤ t) := inferInstanceAs (Decidable (t.value ∈ s.implicants))

end Scope

/-- `ScopeSet`: the scopes held, and for each implicant the scopes held that it implies. -/
structure ScopeSet where
  scopesToImplicants : List Scope
  implicantsToScopes : List (List Char × List Char)
  indexed : ∀ implicant scope, (implicant, scope) ∈ implicantsToScopes ↔
    ∃ s ∈ scopesToImplicants, s.value = scope ∧ implicant ∈ s.implicants

namespace ScopeSet

/-- The set without scopes. -/
def empty : ScopeSet := ⟨[], [], by simp⟩

instance : EmptyCollection ScopeSet := ⟨empty⟩
instance : Inhabited ScopeSet := ⟨empty⟩

/-- `values`. -/
def values (set : ScopeSet) : List (List Char) := set.scopesToImplicants.map Scope.value

/-- `is_empty`. -/
def isEmpty (set : ScopeSet) : Bool := set.scopesToImplicants.isEmpty

/-- `__str__`. -/
def str (set : ScopeSet) : List Char := [' '].intercalate set.values

/-- `_has_some_scope`. -/
def hasSomeScope (set : ScopeSet) (scopes : List (List Char)) : Bool := scopes.any fun scope => scope ∈ set.values

/-- `_remove_scope`. -/
def removeScope (set : ScopeSet) (scope : List Char) : ScopeSet where
  scopesToImplicants := set.scopesToImplicants.filter (·.value ≠ scope)
  implicantsToScopes := set.implicantsToScopes.filter (·.2 ≠ scope)
  indexed implicant scope' := by
    simp only [List.mem_filter, set.indexed, decide_eq_true_eq]
    constructor
    · rintro ⟨⟨s, hs, rfl, hmem⟩, hne⟩
      exact ⟨s, ⟨hs, hne⟩, rfl, hmem⟩
    · rintro ⟨s, ⟨hs, hne⟩, rfl, hmem⟩
      exact ⟨⟨s, hs, rfl, hmem⟩, hne⟩

/-- `_implicants_to_scopes.get(scope, ())`. -/
def implied (set : ScopeSet) (scope : List Char) : List (List Char) :=
  (set.implicantsToScopes.filter (·.1 = scope)).map Prod.snd

/-- What `_add_scope` does once nothing held implies the scope and it implies nothing held. -/
def holdScope (set : ScopeSet) (s : Scope) : ScopeSet where
  scopesToImplicants := set.scopesToImplicants ++ [s]
  implicantsToScopes := set.implicantsToScopes ++ s.implicants.map fun implicant => (implicant, s.value)
  indexed implicant scope := by
    simp only [List.mem_append, set.indexed, List.mem_map, Prod.mk.injEq, List.mem_singleton]
    constructor
    · rintro (⟨t, ht, hvalue, hmem⟩ | ⟨i, hi, rfl, rfl⟩)
      · exact ⟨t, Or.inl ht, hvalue, hmem⟩
      · exact ⟨s, Or.inr rfl, rfl, hi⟩
    · rintro ⟨t, ht | rfl, hvalue, hmem⟩
      · exact Or.inl ⟨t, ht, hvalue, hmem⟩
      · exact Or.inr ⟨implicant, hmem, rfl, hvalue⟩

/-- `_add_scope`. -/
def addScope (set : ScopeSet) (s : Scope) : ScopeSet :=
  if set.hasSomeScope s.implicants then set
  else ((set.implied s.value).foldl removeScope set).holdScope s

/-- `from_array`. -/
def fromArray (values : List (List Char)) : Except ScopeError ScopeSet :=
  values.foldlM (fun set value => (Scope.of value).map set.addScope) ∅

/-- `from_string`. -/
def fromString (value : List Char) : Except ScopeError ScopeSet := fromArray ((value.splitOn ' ').filter (· ≠ []))

/-- A set of scopes that are known to be well formed. -/
def ofValues (values : List String) (h : (fromArray (values.map String.toList)).toOption.isSome = true) : ScopeSet :=
  (fromArray (values.map String.toList)).toOption.get h

/-- `contains`. -/
def contains (set other : ScopeSet) : Bool := other.scopesToImplicants.all fun s => set.hasSomeScope s.implicants

/-- A set to which scopes are added one after another. -/
def ofScopes (scopes : List Scope) : ScopeSet := scopes.foldl addScope ∅

/-- `filtered`. -/
def filtered (set other : ScopeSet) : ScopeSet :=
  ofScopes (set.scopesToImplicants.filter fun s => other.hasSomeScope s.implicants)

/-- `intersects`. -/
def intersects (set other : ScopeSet) : Bool :=
  (other.scopesToImplicants.any fun s => set.hasSomeScope s.implicants) ||
    set.scopesToImplicants.any fun s => other.hasSomeScope s.implicants

/-- `difference`. -/
def difference (set other : ScopeSet) : ScopeSet :=
  ofScopes (set.scopesToImplicants.filter fun s => !other.hasSomeScope s.implicants)

/-- `union`. -/
def union (set other : ScopeSet) : ScopeSet := ofScopes (set.scopesToImplicants ++ other.scopesToImplicants)

example : ((ofValues ["profile:email", "openid"] (by decide)).union (ofValues ["profile"] (by decide))).values =
    ["openid".toList, "profile".toList] := by decide

/-! ### What a set means -/

variable {set other : ScopeSet} {s : Scope}

/-- What a set of scopes means: everything that what it holds implies. -/
def grants (set : ScopeSet) : LowerSet Scope := lowerClosure {s | s ∈ set.scopesToImplicants}

/-- A scope is granted if something held implies it. -/
theorem mem_grants : s ∈ set.grants ↔ ∃ t ∈ set.scopesToImplicants, s ≤ t := mem_lowerClosure

/-- `_has_some_scope`, asked about the implicants of a scope, says whether it is granted. -/
theorem hasSomeScope_iff : set.hasSomeScope s.implicants = true ↔ s ∈ set.grants := by
  simp only [hasSomeScope, values, List.any_eq_true, decide_eq_true_eq, List.mem_map, mem_grants]
  constructor
  · rintro ⟨_, hmem, t, ht, rfl⟩
    exact ⟨t, ht, hmem⟩
  · rintro ⟨t, ht, hle⟩
    exact ⟨t.value, hle, t, ht, rfl⟩

/-- `contains` is the order of what the sets mean. -/
theorem contains_iff : set.contains other = true ↔ other.grants ≤ set.grants := by
  rw [grants, lowerClosure_le]
  simp only [contains, List.all_eq_true, hasSomeScope_iff]
  exact Iff.rfl

/-- Nothing is granted by the set without scopes. -/
@[simp] theorem grants_empty : (∅ : ScopeSet).grants = ⊥ := by
  have hnone : {s : Scope | s ∈ (∅ : ScopeSet).scopesToImplicants} = ∅ :=
    Set.eq_empty_of_forall_notMem fun s => List.not_mem_nil
  rw [grants, hnone, lowerClosure_empty]

/-- What is left when scopes are removed. -/
theorem mem_foldl_removeScope {scopes : List (List Char)} :
    s ∈ (scopes.foldl removeScope set).scopesToImplicants ↔ s ∈ set.scopesToImplicants ∧ s.value ∉ scopes := by
  induction scopes generalizing set with
  | nil => simp
  | cons scope rest ih =>
    rw [List.foldl_cons, ih]
    simp [removeScope, and_assoc]

/-- The scopes held that a scope implies. -/
theorem value_mem_implied {t : Scope} (ht : t ∈ set.scopesToImplicants) : t.value ∈ set.implied s.value ↔ t ≤ s := by
  have hmem : t.value ∈ set.implied s.value ↔ (s.value, t.value) ∈ set.implicantsToScopes := by
    simp [implied]
  rw [hmem, set.indexed]
  constructor
  · rintro ⟨u, -, hvalue, hle⟩
    rw [← Scope.eq_of_value hvalue]
    exact hle
  · intro hle
    exact ⟨t, ht, rfl, hle⟩

/-- Adding a scope adds what it implies. -/
@[simp] theorem grants_addScope (set : ScopeSet) (s : Scope) : (set.addScope s).grants = set.grants ⊔ LowerSet.Iic s := by
  unfold addScope
  split
  · rename_i hheld
    rw [eq_comm, sup_eq_left, LowerSet.Iic_le]
    exact hasSomeScope_iff.mp hheld
  · ext t
    simp only [SetLike.mem_coe, LowerSet.mem_sup_iff, LowerSet.mem_Iic_iff, mem_grants, holdScope, List.mem_append,
      List.mem_singleton, mem_foldl_removeScope]
    constructor
    · rintro ⟨u, ⟨hu, -⟩ | rfl, hle⟩
      · exact Or.inl ⟨u, hu, hle⟩
      · exact Or.inr hle
    · rintro (⟨u, hu, hle⟩ | hle)
      · -- a scope that was removed is implied by the new one
        by_cases hremoved : u.value ∈ set.implied s.value
        · exact ⟨s, Or.inr rfl, hle.trans ((value_mem_implied hu).mp hremoved)⟩
        · exact ⟨u, Or.inl ⟨hu, hremoved⟩, hle⟩
      · exact ⟨s, Or.inr rfl, hle⟩

/-- Adding scopes one after another. -/
theorem grants_foldl_addScope (scopes : List Scope) :
    (scopes.foldl addScope set).grants = set.grants ⊔ lowerClosure {s | s ∈ scopes} := by
  induction scopes generalizing set with
  | nil => simp
  | cons s rest ih =>
    have hcons : {t | t ∈ s :: rest} = {s} ∪ {t | t ∈ rest} := by
      ext t
      simp
    rw [List.foldl_cons, ih, grants_addScope, hcons, lowerClosure_union, lowerClosure_singleton, sup_assoc]

/-- A set grants what it is made of implies. -/
theorem grants_ofScopes (scopes : List Scope) : (ofScopes scopes).grants = lowerClosure {s | s ∈ scopes} := by
  rw [ofScopes, grants_foldl_addScope, grants_empty, bot_sup_eq]

/-- A union grants what either grants. -/
@[simp] theorem grants_union (set other : ScopeSet) : (set.union other).grants = set.grants ⊔ other.grants := by
  rw [union, ofScopes, List.foldl_append, grants_foldl_addScope, grants_foldl_addScope, grants_empty, bot_sup_eq]
  rfl

/-- A difference grants no more than the set. -/
theorem grants_difference_le (set other : ScopeSet) : (set.difference other).grants ≤ set.grants := by
  rw [difference, grants_ofScopes]
  exact lowerClosure_mono fun s hs => (List.mem_filter.mp hs).1

/-- Filtering leaves what both grant. -/
theorem grants_filtered_le (set other : ScopeSet) : (set.filtered other).grants ≤ set.grants ⊓ other.grants := by
  rw [filtered, grants_ofScopes]
  refine le_inf (lowerClosure_mono fun s hs => (List.mem_filter.mp hs).1) ?_
  rw [lowerClosure_le]
  exact fun s hs => hasSomeScope_iff.mp (List.mem_filter.mp hs).2

/-- If nothing is left of a difference, the other set grants everything the set does. -/
theorem grants_le_of_difference_isEmpty (h : (set.difference other).isEmpty = true) : set.grants ≤ other.grants := by
  rw [grants, lowerClosure_le]
  intro s hs
  by_contra hno
  have hkept : s ∈ set.scopesToImplicants.filter fun s => !other.hasSomeScope s.implicants := by
    refine List.mem_filter.mpr ⟨hs, ?_⟩
    rw [Bool.not_eq_true', Bool.eq_false_iff]
    exact fun hheld => hno (hasSomeScope_iff.mp hheld)
  have hmem : s ∈ (set.difference other).grants := by
    rw [difference, grants_ofScopes]
    exact subset_lowerClosure hkept
  obtain ⟨t, ht, -⟩ := mem_grants.mp hmem
  rw [List.isEmpty_iff.mp h] at ht
  cases ht

/-! ### Reading and writing -/

/-- Of the values of scopes the set of the scopes is made. -/
theorem fromArray_map_value (scopes : List Scope) : fromArray (scopes.map Scope.value) = .ok (ofScopes scopes) := by
  have hfold : ∀ set : ScopeSet,
      (scopes.map Scope.value).foldlM (fun set value => (Scope.of value).map set.addScope) set =
        (.ok (scopes.foldl addScope set) : Except ScopeError ScopeSet) := by
    induction scopes with
    | nil => exact fun set => rfl
    | cons s rest ih =>
      intro set
      rw [List.map_cons, List.foldlM_cons, Scope.of_value]
      exact ih (set.addScope s)
  exact hfold ∅

/-- Scopes written one after another, with a space between them, are found again. -/
theorem words_intercalate (scopes : List Scope) :
    (([' '].intercalate (scopes.map Scope.value)).splitOn ' ').filter (· ≠ []) = scopes.map Scope.value := by
  have hvalues : ∀ value ∈ scopes.map Scope.value, ' ' ∉ value ∧ value ≠ [] := by
    intro value hvalue
    obtain ⟨s, -, rfl⟩ := List.mem_map.mp hvalue
    exact space_not_mem_of_implicants s.derived
  by_cases hnil : scopes.map Scope.value = []
  · rw [hnil]
    rfl
  · rw [List.splitOn_intercalate ' ' (fun value hvalue => (hvalues value hvalue).1) hnil, List.filter_eq_self]
    intro value hvalue
    simpa using (hvalues value hvalue).2

/-- What is written as a text is read as the set of the scopes that were held. -/
theorem fromString_str_eq (set : ScopeSet) : fromString set.str = .ok (ofScopes set.scopesToImplicants) := by
  have hsplit : (set.str.splitOn ' ').filter (· ≠ []) = set.values := words_intercalate set.scopesToImplicants
  rw [fromString, hsplit]
  exact fromArray_map_value set.scopesToImplicants

/-- That is a set of the same meaning. -/
theorem fromString_str (set : ScopeSet) : ∃ set', fromString set.str = .ok set' ∧ set'.grants = set.grants :=
  ⟨_, set.fromString_str_eq, grants_ofScopes set.scopesToImplicants⟩

end ScopeSet

end FxaLite.OAuth
