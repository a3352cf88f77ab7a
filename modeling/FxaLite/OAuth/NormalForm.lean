import FxaLite.OAuth.ScopeSet
import Mathlib.Data.List.Pairwise

/-!
# The normal form of a set of scopes

Implication is antisymmetric: two values that imply each other are spelled alike. So the scopes
are a partial order, and what a set built by `add` holds is determined by what it means: the
scopes it was given that no other scope it was given implies, in the order in which they came.
-/

namespace FxaLite.OAuth

/-! ### Antisymmetry -/

/-- Two short names that imply each other are the same. -/
theorem eq_of_mem_shortImplicants {a b : List Char} {la lb : List (List Char)} (ha : shortImplicants a = .ok la)
    (hb : shortImplicants b = .ok lb) (hab : a ∈ lb) (hba : b ∈ la) : a = b := by
  obtain ⟨p, hp, hpart, havalue⟩ := (mem_shortImplicants hb).mp hab
  obtain ⟨q, hq, hqpart, hbvalue⟩ := (mem_shortImplicants ha).mp hba
  have hpb : p <+: b.splitOn ':' := hpart.trans (base_isPrefix _)
  have hqa : q <+: a.splitOn ':' := hqpart.trans (base_isPrefix _)
  have hjoined : joinNames (b.splitOn ':') = b := List.intercalate_splitOn ':'
  obtain rfl | ⟨hwrite, rfl⟩ := havalue
  · -- `a` may write: so may `b`
    have hsplit := splitOn_joinNames_write hpb rfl
    have hbase : base (p ++ [write]) = p := by simp [base, hasWrite]
    rw [hsplit, hbase] at hqpart
    obtain rfl | ⟨hnot, -⟩ := hbvalue
    · rw [splitOn_joinNames_write hqa rfl] at hpart
      have hbase' : base (q ++ [write]) = q := by simp [base, hasWrite]
      rw [hbase'] at hpart
      rw [hpart.eq_of_length_le hqpart.length_le]
    · simp [hsplit, hasWrite] at hnot
  · have hsplit : (joinNames p).splitOn ':' = p := Py.splitOn_intercalate_of_isPrefix hp hpb
    rw [hsplit] at hqpart hqa
    obtain rfl | ⟨-, rfl⟩ := hbvalue
    · have hends := splitOn_joinNames_write (hqa.trans hpb) rfl
      simp [hends, hasWrite] at hwrite
    · have hq' : (joinNames q).splitOn ':' = q := Py.splitOn_intercalate_of_isPrefix hq (hqa.trans hpb)
      rw [hq'] at hpb
      rw [hpb.eq_of_length_le hqa.length_le]

/-- Two URLs that imply each other are the same. -/
theorem eq_of_mem_urlImplicants {a b : List Char} {la lb : List (List Char)} (ha : urlImplicants a = .ok la)
    (hb : urlImplicants b = .ok lb) (hab : a ∈ lb) (hba : b ∈ la) : a = b := by
  obtain ⟨partsB, hpartsB, hcanonicalB, -⟩ := urlImplicants_eq_ok hb
  obtain ⟨partsA, hpartsA, hcanonicalA, -⟩ := urlImplicants_eq_ok ha
  obtain ⟨segments, hpart, hlength, fragment, hfragment, havalue⟩ := (mem_urlImplicants hb hpartsB).mp hab
  obtain ⟨rfl, hsegments⟩ := parts_of_parent hpartsB hcanonicalB hpart hlength hfragment (havalue ▸ hpartsA)
  obtain ⟨upper, hupper, hupperLength, upperFragment, hupperFragment, hbvalue⟩ :=
    (mem_urlImplicants ha hpartsA).mp hba
  obtain ⟨hsame, hupperSegments⟩ :=
    parts_of_parent hpartsA hcanonicalA hupper hupperLength hupperFragment (hbvalue ▸ hpartsB)
  rw [hsegments] at hupper
  rw [hupperSegments] at hpart
  have hequal : segments = upper := hpart.eq_of_length_le hupper.length_le
  have hends : fragment = upperFragment := by
    have hbfragment : partsB.fragment = upperFragment := congrArg Url.SplitResult.fragment hsame
    obtain rfl | rfl := hfragment
    · obtain h | h := hupperFragment
      · exact h.symm
      · exact h.symm
    · exact hbfragment
  rw [havalue, hbvalue, hequal, hends]
  rfl

/-- Two values that imply each other are the same. -/
theorem eq_of_mem_implicants {a b : List Char} {la lb : List (List Char)} (ha : implicants a = .ok la)
    (hb : implicants b = .ok lb) (hab : a ∈ lb) (hba : b ∈ la) : a = b := by
  obtain ⟨valuesA, hvaluesA, rfl⟩ := Fallible.map_eq_ok.mp ha
  obtain ⟨valuesB, hvaluesB, rfl⟩ := Fallible.map_eq_ok.mp hb
  rw [List.mem_eraseDups] at hab hba
  unfold implicantValues at hvaluesA hvaluesB
  split at hvaluesA
  · rw [if_pos (slash_mem_of_urlImplicants hvaluesA hba).2] at hvaluesB
    exact eq_of_mem_urlImplicants hvaluesA hvaluesB hab hba
  · rename_i hshort
    split at hvaluesB
    · exact absurd (slash_mem_of_urlImplicants hvaluesB hab).2 hshort
    · exact eq_of_mem_shortImplicants hvaluesA hvaluesB hab hba

/-- Scopes are a partial order under implication. -/
instance : PartialOrder Scope where
  le_antisymm s t hst hts := Scope.eq_of_value (eq_of_mem_implicants s.derived t.derived hts hst)

/-! ### Normal form -/

namespace ScopeSet

/-- No scope held implies another. -/
def Normal (scopes : List Scope) : Prop := scopes.Pairwise fun s t => ¬s ≤ t ∧ ¬t ≤ s

variable {set other : ScopeSet} {s t : Scope} {scopes : List Scope}

/-- Of two scopes of a normal list that imply one another there is only one. -/
theorem Normal.eq_of_le (h : Normal scopes) (hs : s ∈ scopes) (ht : t ∈ scopes) (hle : s ≤ t) : s = t := by
  have : Std.Symm fun s t : Scope => ¬s ≤ t ∧ ¬t ≤ s := ⟨fun _ _ hab => hab.symm⟩
  by_contra hne
  exact (List.Pairwise.forall h hs ht hne).1 hle

/-- A part of a normal list is one. -/
theorem Normal.filter (h : Normal scopes) (p : Scope → Bool) : Normal (scopes.filter p) := List.Pairwise.filter p h

/-- Removing scopes leaves the others in their order. -/
theorem scopesToImplicants_foldl_removeScope (values : List (List Char)) :
    (values.foldl removeScope set).scopesToImplicants = set.scopesToImplicants.filter fun s => s.value ∉ values := by
  induction values generalizing set with
  | nil => simp
  | cons value rest ih =>
    rw [List.foldl_cons, ih, removeScope, List.filter_filter]
    apply List.filter_congr
    intro s _
    simp [Bool.and_comm]

/-- What is held once a scope is added: what there was if some of it implies the scope, and else
what the scope does not imply, and the scope. -/
theorem scopesToImplicants_addScope (set : ScopeSet) (s : Scope) : (set.addScope s).scopesToImplicants =
    if set.hasSomeScope s.implicants then set.scopesToImplicants
    else set.scopesToImplicants.filter (fun t => ¬t ≤ s) ++ [s] := by
  unfold addScope
  split
  · rfl
  · change ((set.implied s.value).foldl removeScope set).scopesToImplicants ++ [s] = _
    rw [scopesToImplicants_foldl_removeScope]
    congr 1
    apply List.filter_congr
    intro t ht
    simp only [value_mem_implied ht]

/-- Adding keeps a set normal. -/
theorem normal_addScope (h : Normal set.scopesToImplicants) (s : Scope) : Normal (set.addScope s).scopesToImplicants := by
  rw [scopesToImplicants_addScope]
  split
  · exact h
  · rename_i hnew
    refine List.pairwise_append.mpr ⟨h.filter _, List.pairwise_singleton _ _, ?_⟩
    intro t ht u hu
    obtain rfl := List.mem_singleton.mp hu
    obtain ⟨hheld, hnot⟩ := List.mem_filter.mp ht
    exact ⟨of_decide_eq_true hnot, fun hle => hnew (hasSomeScope_iff.mpr (mem_grants.mpr ⟨t, hheld, hle⟩))⟩

/-- It holds nothing but what it held and the scope. -/
theorem mem_addScope (h : t ∈ (set.addScope s).scopesToImplicants) : t ∈ set.scopesToImplicants ∨ t = s := by
  rw [scopesToImplicants_addScope] at h
  split at h
  · exact Or.inl h
  · obtain hold | hnew := List.mem_append.mp h
    · exact Or.inl (List.mem_of_mem_filter hold)
    · exact Or.inr (List.mem_singleton.mp hnew)

/-- Adding scopes one after another keeps a set normal, and adds nothing else. -/
theorem foldl_addScope_normal (h : Normal set.scopesToImplicants) (scopes : List Scope) :
    Normal (scopes.foldl addScope set).scopesToImplicants ∧
      ∀ t ∈ (scopes.foldl addScope set).scopesToImplicants, t ∈ set.scopesToImplicants ∨ t ∈ scopes := by
  induction scopes generalizing set with
  | nil => exact ⟨h, fun t ht => Or.inl ht⟩
  | cons s rest ih =>
    obtain ⟨hnormal, hmem⟩ := ih (normal_addScope h s)
    refine ⟨hnormal, fun t ht => ?_⟩
    obtain hset | hrest := hmem t ht
    · obtain hold | rfl := mem_addScope hset
      · exact Or.inl hold
      · exact Or.inr List.mem_cons_self
    · exact Or.inr (List.mem_cons_of_mem _ hrest)

/-- A set that is made of scopes is normal. -/
theorem normal_ofScopes (scopes : List Scope) : Normal (ofScopes scopes).scopesToImplicants :=
  (@foldl_addScope_normal ∅ List.Pairwise.nil scopes).1

/-- It holds the scopes that no other of them implies. -/
theorem mem_ofScopes : s ∈ (ofScopes scopes).scopesToImplicants ↔ s ∈ scopes ∧ ∀ t ∈ scopes, s ≤ t → t = s := by
  have hsub : ∀ t ∈ (ofScopes scopes).scopesToImplicants, t ∈ scopes := fun t ht =>
    ((@foldl_addScope_normal ∅ List.Pairwise.nil scopes).2 t ht).resolve_left List.not_mem_nil
  have hcovered : ∀ t ∈ scopes, ∃ u ∈ (ofScopes scopes).scopesToImplicants, t ≤ u := by
    intro t ht
    have hgranted : t ∈ (ofScopes scopes).grants := by
      rw [grants_ofScopes]
      exact subset_lowerClosure ht
    exact mem_grants.mp hgranted
  constructor
  · intro hs
    refine ⟨hsub s hs, fun t ht hle => ?_⟩
    obtain ⟨u, hu, htu⟩ := hcovered t ht
    obtain rfl := (normal_ofScopes scopes).eq_of_le hs hu (hle.trans htu)
    exact le_antisymm htu hle
  · intro h
    obtain ⟨u, hu, hle⟩ := hcovered s h.1
    exact h.2 u (hsub u hu) hle ▸ hu

/-- Nothing of a normal list is lost. -/
theorem foldl_addScope_of_normal (h : Normal (set.scopesToImplicants ++ scopes)) :
    (scopes.foldl addScope set).scopesToImplicants = set.scopesToImplicants ++ scopes := by
  induction scopes generalizing set with
  | nil => simp
  | cons s rest ih =>
    have hapart : ∀ t ∈ set.scopesToImplicants, ¬t ≤ s ∧ ¬s ≤ t := fun t ht =>
      (List.pairwise_append.mp h).2.2 t ht s List.mem_cons_self
    have hnew : ¬set.hasSomeScope s.implicants = true := by
      intro hheld
      obtain ⟨t, ht, hle⟩ := mem_grants.mp (hasSomeScope_iff.mp hheld)
      exact (hapart t ht).2 hle
    have hkept : set.scopesToImplicants.filter (fun t => ¬t ≤ s) = set.scopesToImplicants :=
      List.filter_eq_self.mpr fun t ht => decide_eq_true (hapart t ht).1
    have hadded : (set.addScope s).scopesToImplicants = set.scopesToImplicants ++ [s] := by
      rw [scopesToImplicants_addScope, if_neg hnew, hkept]
    rw [List.foldl_cons, ih, hadded]
    · simp
    · rw [hadded]
      simpa using h

/-- A set made of a normal list holds the list. -/
theorem scopesToImplicants_ofScopes (h : Normal scopes) : (ofScopes scopes).scopesToImplicants = scopes :=
  @foldl_addScope_of_normal ∅ scopes h

/-- What is read from values is normal. -/
theorem normal_of_fromArray {values : List (List Char)} (h : fromArray values = .ok set) :
    Normal set.scopesToImplicants := by
  have hfold : ∀ {start : ScopeSet}, Normal start.scopesToImplicants →
      values.foldlM (fun set value => (Scope.of value).map set.addScope) start = .ok set →
      Normal set.scopesToImplicants := by
    clear h
    intro start hstart h
    induction values generalizing start with
    | nil =>
      cases h
      exact hstart
    | cons value rest ih =>
      obtain ⟨next, hnext, hrest⟩ := Fallible.bind_eq_ok.mp (List.foldlM_cons.symm.trans h)
      obtain ⟨s, -, rfl⟩ := Fallible.map_eq_ok.mp hnext
      exact ih (normal_addScope hstart s) hrest
  exact @hfold ∅ List.Pairwise.nil h

/-- A normal set that is written and read is written as before. -/
theorem str_of_fromString_str (h : Normal set.scopesToImplicants) (hread : fromString set.str = .ok other) :
    other.str = set.str := by
  rw [fromString_str_eq] at hread
  cases hread
  rw [str, values, scopesToImplicants_ofScopes h]
  rfl

end ScopeSet

end FxaLite.OAuth
