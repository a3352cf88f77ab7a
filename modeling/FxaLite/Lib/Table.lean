import Mathlib.Order.Defs.LinearOrder
import Mathlib.Order.Basic
import Mathlib.Order.Lattice
import Mathlib.Data.List.Perm.Basic

/-!
# Keyed tables

A relational table with a primary key, as a list of rows in strictly increasing key order.
Keeping the order canonical makes two tables with the same contents equal, so a statement
about the rows of a table can be made by looking keys up. The operations are the ones SQL
statements are built from: point lookup, `INSERT`, `INSERT .. ON CONFLICT`, `DELETE .. WHERE`
and `SELECT .. WHERE`.
-/

namespace Relational

/-- Rows under a primary key, in key order. -/
structure Table (κ ν : Type*) [LinearOrder κ] where
  rows : List (κ × ν)
  sorted : rows.Pairwise fun a b => a.1 < b.1

namespace Table

variable {κ ν : Type*} [LinearOrder κ]

/-- The table of a fresh schema. -/
def empty : Table κ ν := ⟨[], .nil⟩

instance : EmptyCollection (Table κ ν) := ⟨empty⟩
instance : Inhabited (Table κ ν) := ⟨empty⟩

/-- Tables are their row lists. -/
theorem eq_of_rows {t t' : Table κ ν} (h : t.rows = t'.rows) : t = t' := by
  cases t; cases t'; simpa using h

instance [DecidableEq ν] : DecidableEq (Table κ ν) := fun t t' =>
  decidable_of_iff (t.rows = t'.rows) ⟨eq_of_rows, fun h => h ▸ rfl⟩

/-- The value stored under a key. -/
def find? (t : Table κ ν) (k : κ) : Option ν := t.rows.lookup k

/-- Put a row in its place, over a row with the same key if there is one. -/
def insertRow (k : κ) (v : ν) : List (κ × ν) → List (κ × ν)
  | [] => [(k, v)]
  | (k', v') :: rest =>
    if k < k' then (k, v) :: (k', v') :: rest
    else if k = k' then (k, v) :: rest
    else (k', v') :: insertRow k v rest

/-- A row of the result is the new one or an old one with another key. -/
theorem mem_insertRow {k : κ} {v : ν} {l : List (κ × ν)} {r : κ × ν} (h : r ∈ insertRow k v l) :
    r = (k, v) ∨ r ∈ l := by
  induction l with
  | nil => simpa [insertRow] using h
  | cons head rest ih =>
    simp only [insertRow] at h
    split at h
    · simpa using h
    · split at h
      · rcases List.mem_cons.mp h with h | h
        · exact Or.inl h
        · exact Or.inr (List.mem_cons_of_mem _ h)
      · rcases List.mem_cons.mp h with h | h
        · exact Or.inr (h ▸ List.mem_cons_self)
        · exact (ih h).imp_right (List.mem_cons_of_mem _)

/-- Insertion keeps the key order. -/
theorem sorted_insertRow (k : κ) (v : ν) {l : List (κ × ν)}
    (h : l.Pairwise fun a b => a.1 < b.1) : (insertRow k v l).Pairwise fun a b => a.1 < b.1 := by
  induction l with
  | nil => exact List.pairwise_singleton _ _
  | cons head rest ih =>
    obtain ⟨hhead, hrest⟩ := List.pairwise_cons.mp h
    simp only [insertRow]
    split
    · rename_i hlt
      refine List.pairwise_cons.mpr ⟨fun r hr => ?_, h⟩
      rcases List.mem_cons.mp hr with rfl | hr
      · exact hlt
      · exact hlt.trans (hhead r hr)
    · split
      · rename_i heq
        exact List.pairwise_cons.mpr ⟨fun r hr => heq ▸ hhead r hr, hrest⟩
      · rename_i hlt hne
        refine List.pairwise_cons.mpr ⟨fun r hr => ?_, ih hrest⟩
        rcases mem_insertRow hr with rfl | hr
        · exact lt_of_le_of_ne (not_lt.mp hlt) (Ne.symm hne)
        · exact hhead r hr

/-- `INSERT OR REPLACE`: store a value under a key. -/
def set (t : Table κ ν) (k : κ) (v : ν) : Table κ ν := ⟨insertRow k v t.rows, sorted_insertRow k v t.sorted⟩

/-- `INSERT .. ON CONFLICT DO UPDATE`: a new row, or the old one updated. -/
def upsert (t : Table κ ν) (k : κ) (new : ν) (update : ν → ν) : Table κ ν :=
  t.set k ((t.find? k).elim new update)

/-- An `INSERT .. ON CONFLICT DO UPDATE` statement with its values bound. -/
structure Upsert (κ ν : Type*) where
  key : κ
  new : ν
  update : ν → ν

/-- What the statement leaves under its key. -/
def Upsert.value (u : Upsert κ ν) (old : Option ν) : ν := old.elim u.new u.update

/-- One such statement after another. -/
def upsertAll : Table κ ν → List (Upsert κ ν) → Table κ ν
  | t, [] => t
  | t, u :: rest => upsertAll (t.upsert u.key u.new u.update) rest

/-- `DELETE .. WHERE`. -/
def deleteWhere (t : Table κ ν) (p : κ → ν → Bool) : Table κ ν :=
  ⟨t.rows.filter fun r => !p r.1 r.2, t.sorted.filter _⟩

/-- `SELECT .. WHERE`, in key order. -/
def select (t : Table κ ν) (p : κ → ν → Bool) : List (κ × ν) := t.rows.filter fun r => p r.1 r.2

/-- `SELECT COUNT(*) .. WHERE`, which is also the row count of the matching `DELETE`. -/
def count (t : Table κ ν) (p : κ → ν → Bool) : ℕ := (t.select p).length

/-- One step of a lookup. -/
theorem lookup_cons (k k₁ : κ) (v₁ : ν) (rest : List (κ × ν)) :
    ((k₁, v₁) :: rest).lookup k = if k = k₁ then some v₁ else rest.lookup k := by
  by_cases h : k = k₁
  · simp [h]
  · have hbeq : (k == k₁) = false := by simpa using h
    rw [if_neg h, List.lookup_cons, hbeq]

/-- Looking up in a list in which the keys increase finds exactly its rows. -/
theorem mem_rows_iff {t : Table κ ν} {k : κ} {v : ν} : (k, v) ∈ t.rows ↔ t.find? k = some v := by
  obtain ⟨rows, hsorted⟩ := t
  simp only [find?]
  induction rows with
  | nil => simp
  | cons head rest ih =>
    obtain ⟨k₁, v₁⟩ := head
    obtain ⟨hhead, hrest⟩ := List.pairwise_cons.mp hsorted
    rw [lookup_cons, List.mem_cons, ih hrest]
    by_cases hk : k = k₁
    · have hnone : rest.lookup k ≠ some v := fun hfind =>
        (hhead (k, v) ((ih hrest).mpr hfind)).ne' hk
      simp [hk, eq_comm] at hnone ⊢
      exact fun h => absurd h hnone
    · simp [hk]

/-- Two lists in which the keys increase and which have the same rows are the same list. -/
theorem eq_of_mem_iff {l l' : List (κ × ν)} (hl : l.Pairwise fun a b => a.1 < b.1)
    (hl' : l'.Pairwise fun a b => a.1 < b.1) (h : ∀ r, r ∈ l ↔ r ∈ l') : l = l' := by
  have nodup {l : List (κ × ν)} (hl : l.Pairwise fun a b => a.1 < b.1) : l.Nodup :=
    hl.imp fun hlt heq => hlt.ne (congrArg Prod.fst heq)
  exact List.Perm.eq_of_pairwise (fun a b _ _ hab hba => absurd (hab.trans hba) (lt_irrefl _)) hl hl'
    ((List.perm_ext_iff_of_nodup (nodup hl) (nodup hl')).mpr h)

/-- Tables with the same lookups are the same table. -/
theorem ext_find? {t t' : Table κ ν} (h : ∀ k, t.find? k = t'.find? k) : t = t' := by
  apply eq_of_rows
  apply eq_of_mem_iff t.sorted t'.sorted
  intro r
  obtain ⟨k, v⟩ := r
  rw [mem_rows_iff, mem_rows_iff, h]

@[simp] theorem find?_empty (k : κ) : (∅ : Table κ ν).find? k = none := rfl

/-- A stored value is found under its key, and no other lookup changes. -/
@[simp] theorem find?_set (t : Table κ ν) (k k' : κ) (v : ν) :
    (t.set k v).find? k' = if k' = k then some v else t.find? k' := by
  simp only [find?, set]
  induction t.rows with
  | nil => rw [insertRow, lookup_cons]
  | cons head rest ih =>
    obtain ⟨k₁, v₁⟩ := head
    simp only [insertRow]
    split
    · rw [lookup_cons]
    · split
      · rename_i heq
        rw [lookup_cons, lookup_cons, heq]
        by_cases h : k' = k₁ <;> simp [h]
      · rename_i hne
        rw [lookup_cons, lookup_cons, ih]
        by_cases h : k' = k
        · simp [h, hne]
        · simp [h]

/-- What an upsert leaves under its own key and under the others. -/
@[simp] theorem find?_upsert (t : Table κ ν) (k k' : κ) (new : ν) (update : ν → ν) :
    (t.upsert k new update).find? k' =
      if k' = k then some ((t.find? k).elim new update) else t.find? k' := by
  simp [upsert]

/-- Statements one after another, in two parts. -/
theorem upsertAll_append (t : Table κ ν) (us vs : List (Upsert κ ν)) :
    t.upsertAll (us ++ vs) = (t.upsertAll us).upsertAll vs := by
  induction us generalizing t with
  | nil => rfl
  | cons u rest ih => exact ih _

/-- Under each key only the statements for that key count. -/
theorem find?_upsertAll (t : Table κ ν) (us : List (Upsert κ ν)) (k : κ) :
    (t.upsertAll us).find? k =
      (us.filter (·.key = k)).foldl (fun old u => some (u.value old)) (t.find? k) := by
  induction us generalizing t with
  | nil => rfl
  | cons u rest ih =>
    rw [upsertAll, ih, find?_upsert]
    by_cases hk : u.key = k
    · subst hk
      simp [Upsert.value]
    · rw [if_neg (Ne.symm hk)]
      simp [hk]

/-- A key that no statement names keeps its row. -/
theorem find?_upsertAll_of_ne {t : Table κ ν} {us : List (Upsert κ ν)} {k : κ}
    (h : ∀ u ∈ us, u.key ≠ k) : (t.upsertAll us).find? k = t.find? k := by
  have hnone : us.filter (·.key = k) = [] := List.filter_eq_nil_iff.mpr fun u hu => by simpa using h u hu
  rw [find?_upsertAll, hnone, List.foldl_nil]

/-- A deletion keeps exactly the rows that do not match. -/
@[simp] theorem find?_deleteWhere (t : Table κ ν) (p : κ → ν → Bool) (k : κ) :
    (t.deleteWhere p).find? k = (t.find? k).filter fun v => !p k v := by
  apply Option.ext
  intro v
  rw [← mem_rows_iff, Option.filter_eq_some_iff, ← mem_rows_iff]
  simp [deleteWhere]

/-- The order of two deletions makes no difference. -/
theorem deleteWhere_comm (t : Table κ ν) (p q : κ → ν → Bool) :
    (t.deleteWhere p).deleteWhere q = (t.deleteWhere q).deleteWhere p := by
  apply ext_find?
  intro k
  simp only [find?_deleteWhere, Option.filter_filter, Bool.and_comm]

/-- A deletion that takes a second one along makes it needless. -/
theorem deleteWhere_deleteWhere_of_imp {t : Table κ ν} {p q : κ → ν → Bool}
    (h : ∀ k v, t.find? k = some v → q k v = true → p k v = true) : (t.deleteWhere q).deleteWhere p = t.deleteWhere p := by
  apply ext_find?
  intro k
  simp only [find?_deleteWhere]
  cases hfind : t.find? k with
  | none => rfl
  | some v =>
    cases hq : q k v with
    | false => simp [Option.filter_some, hq]
    | true => simp [Option.filter_some, hq, h k v hfind hq]

/-- A row that a deletion does not match may be stored before it or after. -/
theorem deleteWhere_set_of_false {t : Table κ ν} {p : κ → ν → Bool} {k : κ} {v : ν} (h : p k v = false) :
    (t.set k v).deleteWhere p = (t.deleteWhere p).set k v := by
  apply ext_find?
  intro k'
  simp only [find?_deleteWhere, find?_set]
  by_cases hk : k' = k
  · simp [hk, h]
  · simp [hk]

/-- A row that it matches, over one that it matches, is stored for nothing. -/
theorem deleteWhere_set_of_true {t : Table κ ν} {p : κ → ν → Bool} {k : κ} {v : ν} (h : p k v = true)
    (hold : ∀ old, t.find? k = some old → p k old = true) : (t.set k v).deleteWhere p = t.deleteWhere p := by
  apply ext_find?
  intro k'
  simp only [find?_deleteWhere, find?_set]
  by_cases hk : k' = k
  · cases hfind : t.find? k with
    | none => simp [Option.filter_some, hk, h, hfind]
    | some old => simp [Option.filter_some, hk, h, hfind, hold old hfind]
  · simp [hk]

/-- A row the deletion does not match stays. -/
theorem find?_deleteWhere_of_false {t : Table κ ν} {p : κ → ν → Bool} {k : κ}
    (h : ∀ v, t.find? k = some v → p k v = false) : (t.deleteWhere p).find? k = t.find? k := by
  rw [find?_deleteWhere]
  cases hfind : t.find? k with
  | none => rfl
  | some v => simp [h v hfind]

/-- A row the deletion matches is gone. -/
theorem find?_deleteWhere_of_true {t : Table κ ν} {p : κ → ν → Bool} {k : κ}
    (h : ∀ v, t.find? k = some v → p k v = true) : (t.deleteWhere p).find? k = none := by
  rw [find?_deleteWhere]
  cases hfind : t.find? k with
  | none => rfl
  | some v => simp [h v hfind]

/-- Deleting one key leaves the others. -/
theorem find?_deleteKey (t : Table κ ν) (k k' : κ) :
    (t.deleteWhere fun key _ => key = k).find? k' = if k' = k then none else t.find? k' := by
  by_cases h : k' = k
  · rw [if_pos h]
    exact find?_deleteWhere_of_true fun _ _ => decide_eq_true h
  · rw [if_neg h]
    exact find?_deleteWhere_of_false fun _ _ => decide_eq_false h

/-- The rows a `SELECT` returns. -/
theorem mem_select {t : Table κ ν} {p : κ → ν → Bool} {r : κ × ν} :
    r ∈ t.select p ↔ t.find? r.1 = some r.2 ∧ p r.1 r.2 = true := by
  obtain ⟨k, v⟩ := r
  simp only [select, List.mem_filter, mem_rows_iff]

/-- A `SELECT` returns its rows in key order, so no key twice. -/
theorem select_sorted (t : Table κ ν) (p : κ → ν → Bool) :
    (t.select p).Pairwise fun a b => a.1 < b.1 := t.sorted.filter _

/-- In particular it returns no row twice. -/
theorem select_nodup (t : Table κ ν) (p : κ → ν → Bool) : (t.select p).Nodup :=
  (t.select_sorted p).imp fun hlt heq => hlt.ne (congrArg Prod.fst heq)

/-- Two `SELECT`s, of two tables even, that return the same rows return them alike. -/
theorem select_congr {t t' : Table κ ν} {p p' : κ → ν → Bool}
    (h : ∀ k v, (t.find? k = some v ∧ p k v = true) ↔ (t'.find? k = some v ∧ p' k v = true)) :
    t.select p = t'.select p' := by
  apply eq_of_mem_iff (t.select_sorted p) (t'.select_sorted p')
  intro r
  rw [mem_select, mem_select, h]

/-- Selecting a key selects its row. -/
theorem select_key (t : Table κ ν) (k : κ) :
    (t.select fun key _ => key = k) = ((t.find? k).map fun v => (k, v)).toList := by
  apply eq_of_mem_iff (t.select_sorted _)
  · cases t.find? k with
    | none => exact List.Pairwise.nil
    | some v => exact List.pairwise_singleton _ _
  · intro r
    obtain ⟨key, v⟩ := r
    rw [mem_select, Option.mem_toList, Option.map_eq_some_iff]
    simp only [decide_eq_true_eq, Prod.mk.injEq]
    constructor
    · intro h
      obtain ⟨hfind, rfl⟩ := h
      exact ⟨v, hfind, rfl, rfl⟩
    · intro h
      obtain ⟨_, hfind, rfl, rfl⟩ := h
      exact ⟨hfind, rfl⟩

/-- A `COUNT` is zero exactly when no row matches. -/
theorem count_eq_zero_iff {t : Table κ ν} {p : κ → ν → Bool} :
    t.count p = 0 ↔ ∀ k v, t.find? k = some v → p k v = false := by
  rw [count, List.length_eq_zero_iff, List.eq_nil_iff_forall_not_mem]
  constructor
  · intro h k v hfind
    by_contra hp
    exact h (k, v) (mem_select.mpr ⟨hfind, by simpa using hp⟩)
  · rintro h ⟨k, v⟩ hmem
    obtain ⟨hfind, hp⟩ := mem_select.mp hmem
    exact absurd hp (by simp [h k v hfind])

end Table

end Relational
