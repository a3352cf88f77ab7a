import Mathlib.Data.List.Nodup

/-!
# Dictionaries that keep the order of insertion

A dictionary is the list of its entries, the oldest first: an assignment to a key that is there
leaves the entry in its place, and a new key goes to the end. Two lemmas say what a lookup finds
after an assignment and after a deletion, and everything else is read off them.
-/

namespace Dict

variable {κ ν : Type*} [DecidableEq κ]

/-- The value of a key. -/
def get? (d : List (κ × ν)) (k : κ) : Option ν := d.lookup k

/-- An assignment. -/
def put : List (κ × ν) → κ → ν → List (κ × ν)
  | [], k, v => [(k, v)]
  | (k', v') :: rest, k, v => if k' = k then (k, v) :: rest else (k', v') :: put rest k v

/-- A deletion. -/
def del (d : List (κ × ν)) (k : κ) : List (κ × ν) := d.filter (·.1 ≠ k)

/-- The keys, the oldest first. -/
def keys (d : List (κ × ν)) : List κ := d.map Prod.fst

variable (d : List (κ × ν)) (k k' : κ) (v : ν)

@[simp] theorem get?_nil : get? ([] : List (κ × ν)) k = none := rfl

/-- One step of a lookup. -/
theorem get?_cons : get? ((k', v) :: d) k = if k = k' then some v else get? d k := by
  by_cases h : k = k'
  · simp [get?, h]
  · have hbeq : (k == k') = false := by simpa using h
    rw [if_neg h, get?, List.lookup_cons, hbeq, get?]

/-- A lookup after an assignment. -/
@[simp] theorem get?_put : get? (put d k v) k' = if k' = k then some v else get? d k' := by
  induction d with
  | nil => rw [put, get?_cons]
  | cons entry rest ih =>
    obtain ⟨key, value⟩ := entry
    by_cases hkey : key = k
    · rw [put, if_pos hkey, get?_cons, get?_cons, hkey]
      split <;> rfl
    · rw [put, if_neg hkey, get?_cons, get?_cons, ih]
      split
      · rename_i heq
        rw [if_neg fun h => hkey (heq.symm.trans h)]
      · rfl

/-- A lookup after a deletion. -/
@[simp] theorem get?_del : get? (del d k) k' = if k' = k then none else get? d k' := by
  induction d with
  | nil => simp [del]
  | cons entry rest ih =>
    obtain ⟨key, value⟩ := entry
    unfold del at ih ⊢
    by_cases hkey : key = k
    · rw [List.filter_cons_of_neg (by simpa using hkey), ih, get?_cons, hkey]
      split <;> rfl
    · rw [List.filter_cons_of_pos (by simpa using hkey), get?_cons, ih, get?_cons]
      split
      · rename_i heq
        rw [if_neg fun h => hkey (heq.symm.trans h)]
      · rfl

variable {d k}

/-- The entry of a key that is there once is found, from either end. -/
theorem get?_reverse_of_mem (hnodup : (d.map Prod.fst).Nodup) (h : (k, v) ∈ d) : get? d.reverse k = some v := by
  have hforward : ∀ l : List (κ × ν), (l.map Prod.fst).Nodup → (k, v) ∈ l → get? l k = some v := by
    intro l hl hmem
    induction l with
    | nil => cases hmem
    | cons entry rest ih =>
      obtain ⟨key, value⟩ := entry
      rw [List.map_cons, List.nodup_cons] at hl
      rw [get?_cons]
      obtain heq | hrest := List.mem_cons.mp hmem
      · cases heq
        rw [if_pos rfl]
      · have hne : k ≠ key := fun heq => hl.1 (List.mem_map.mpr ⟨(k, v), hrest, heq⟩)
        rw [if_neg hne]
        exact ih hl.2 hrest
  refine hforward _ ?_ (List.mem_reverse.mpr h)
  rw [List.map_reverse]
  exact (List.reverse_perm _).nodup_iff.mpr hnodup

/-- A key is there if a lookup finds it. -/
theorem mem_keys : k ∈ keys d ↔ (get? d k).isSome = true := by
  induction d with
  | nil => simp [keys]
  | cons entry rest ih =>
    obtain ⟨key, value⟩ := entry
    rw [get?_cons, keys, List.map_cons, List.mem_cons]
    by_cases hkey : k = key
    · simp [hkey]
    · rw [if_neg hkey, ← ih]
      simp [keys, hkey]

/-- A key without an entry is not among the keys. -/
theorem get?_eq_none_iff : get? d k = none ↔ k ∉ keys d := by
  rw [mem_keys]
  exact Option.not_isSome_iff_eq_none.symm

variable {v}

/-- An assignment adds one entry at most. -/
theorem length_put_le : (put d k v).length ≤ d.length + 1 := by
  induction d with
  | nil => simp [put]
  | cons entry rest ih =>
    obtain ⟨key, value⟩ := entry
    rw [put]
    split
    · simp
    · simpa using ih

/-- An assignment to a key that is there adds none. -/
theorem length_put_of_get? (h : get? d k ≠ none) : (put d k v).length = d.length := by
  induction d with
  | nil => exact absurd rfl h
  | cons entry rest ih =>
    obtain ⟨key, value⟩ := entry
    rw [put]
    split
    · rfl
    · rename_i hne
      rw [get?_cons, if_neg (Ne.symm hne)] at h
      simp [ih h]

/-- A deletion of a key that is there takes an entry away. -/
theorem length_del_lt (h : get? d k ≠ none) : (del d k).length < d.length := by
  obtain ⟨entry, hentry, hkey⟩ := List.mem_map.mp (not_not.mp (get?_eq_none_iff.not.mp h))
  refine List.length_filter_lt_length_iff_exists.mpr ⟨entry, hentry, ?_⟩
  simp [hkey]

/-- The keys after an assignment. -/
theorem keys_put : keys (put d k v) = if k ∈ keys d then keys d else keys d ++ [k] := by
  induction d with
  | nil => rfl
  | cons entry rest ih =>
    obtain ⟨key, value⟩ := entry
    by_cases hkey : key = k
    · simp [put, hkey, keys]
    · simp only [keys, List.map_cons, List.mem_cons] at ih ⊢
      rw [put, if_neg hkey, List.map_cons, ih]
      by_cases hmem : k ∈ rest.map Prod.fst
      · simp [hmem]
      · simp [hmem, Ne.symm hkey]

/-- An assignment keeps the keys distinct. -/
theorem nodup_put (h : (keys d).Nodup) : (keys (put d k v)).Nodup := by
  rw [keys_put]
  split
  · exact h
  · rename_i hnew
    exact h.append (List.nodup_singleton k) (List.disjoint_singleton.mpr hnew)

/-- A new key goes to the end. -/
theorem put_of_not_mem (h : k ∉ keys d) (v : ν) : put d k v = d ++ [(k, v)] := by
  induction d with
  | nil => rfl
  | cons entry rest ih =>
    obtain ⟨key, value⟩ := entry
    simp only [keys, List.map_cons, List.mem_cons, not_or] at h
    rw [put, if_neg (Ne.symm h.1), ih h.2, List.cons_append]

end Dict
