import FxaLite.Lib.Table
import Mathlib.Data.List.Nodup
import Mathlib.Logic.Equiv.Defs

/-!
# Tables under other keys

The rows of a table may lie under other keys in another table. Statements that name the keys
accordingly find the same rows in both, and leave two tables that are still so related; a `SELECT`
whose keys come in the same order returns the same list.
-/

namespace Relational

namespace Table

variable {κ κ' ν : Type*} [LinearOrder κ] [LinearOrder κ'] {f : κ ≃ κ'} {t : Table κ ν} {t' : Table κ' ν}
variable {p : κ → ν → Bool} {p' : κ' → ν → Bool}

/-- The second table has the rows of the first, under other keys. -/
def Renamed (f : κ ≃ κ') (t : Table κ ν) (t' : Table κ' ν) : Prop := ∀ k, t'.find? (f k) = t.find? k

/-- A row is stored in both. -/
theorem Renamed.set (h : t.Renamed f t') (k : κ) (v : ν) : (t.set k v).Renamed f (t'.set (f k) v) := by
  intro other
  rw [find?_set, find?_set, h]
  simp only [f.injective.eq_iff]

/-- A row is made or updated in both. -/
theorem Renamed.upsert (h : t.Renamed f t') (k : κ) (new : ν) (update : ν → ν) :
    (t.upsert k new update).Renamed f (t'.upsert (f k) new update) := by
  unfold Table.upsert
  rw [h k]
  exact h.set k _

/-- The same rows are deleted from both. -/
theorem Renamed.deleteWhere (h : t.Renamed f t') (hp : ∀ k v, p' (f k) v = p k v) :
    (t.deleteWhere p).Renamed f (t'.deleteWhere p') := by
  intro k
  rw [find?_deleteWhere, find?_deleteWhere, h]
  simp only [hp]

/-- The rows that match under the one keys are those that match under the others. -/
theorem Renamed.mem_select (h : t.Renamed f t') (hp : ∀ k v, p' (f k) v = p k v) {r : κ' × ν} :
    r ∈ t'.select p' ↔ r ∈ (t.select p).map fun r => (f r.1, r.2) := by
  obtain ⟨k, v⟩ := r
  obtain ⟨k, rfl⟩ := f.surjective k
  rw [Table.mem_select, h, hp, List.mem_map]
  constructor
  · exact fun hrow => ⟨(k, v), Table.mem_select.mpr hrow, rfl⟩
  · rintro ⟨⟨k', v'⟩, hrow, heq⟩
    obtain ⟨hkey, rfl⟩ := Prod.mk.inj heq
    exact f.injective hkey ▸ Table.mem_select.mp hrow

/-- There are as many of them. -/
theorem Renamed.count (h : t.Renamed f t') (hp : ∀ k v, p' (f k) v = p k v) : t'.count p' = t.count p := by
  have hnodup : ((t.select p).map fun r => (f r.1, r.2)).Nodup :=
    (t.select_nodup p).map fun _ _ heq => Prod.ext (f.injective (Prod.mk.inj heq).1) (Prod.mk.inj heq).2
  have hperm := (List.perm_ext_iff_of_nodup (t'.select_nodup p') hnodup).mpr fun _ => h.mem_select hp
  exact hperm.length_eq.trans (List.length_map _)

/-- They are selected alike, if their keys come in the same order. -/
theorem Renamed.select (h : t.Renamed f t') (hp : ∀ k v, p' (f k) v = p k v)
    (hmono : ∀ k k' v v', p k v = true → p k' v' = true → k < k' → f k < f k') :
    t'.select p' = (t.select p).map fun r => (f r.1, r.2) := by
  apply eq_of_mem_iff (t'.select_sorted p')
  · rw [List.pairwise_map]
    refine (t.select_sorted p).imp_of_mem fun hr hr' hlt => ?_
    exact hmono _ _ _ _ (Table.mem_select.mp hr).2 (Table.mem_select.mp hr').2 hlt
  · exact fun _ => h.mem_select hp

/-- A table in which only keys without rows are moved is the same under the new keys. -/
theorem renamed_self {f : κ ≃ κ} (h : ∀ k, f k ≠ k → t.find? k = none ∧ t.find? (f k) = none) : t.Renamed f t := by
  intro k
  by_cases hk : f k = k
  · rw [hk]
  · obtain ⟨hold, hnew⟩ := h k hk
    rw [hold, hnew]

end Table

end Relational
