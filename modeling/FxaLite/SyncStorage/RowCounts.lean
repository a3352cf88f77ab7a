import FxaLite.Lib.OffsetPaging
import FxaLite.SyncStorage.Pagination

/-!
# Tokens that are row counts

Records in `index` order, and ids in any order or none, are paged by the number of rows that
have been given. The engine sorts anew for every page and may break ties another way each
time, so the pages are the matching records, each once, exactly if no ties go over a page
boundary: ids in `newest` or `oldest` order have no ties, ids in no order all tie, and in
`index` order those records tie that have one sortindex or none.
-/

namespace FxaLite.SyncStorage

open Relational Fallible OffsetPaging SyncStore

/-! ### The rankings of the statement -/

/-- No `ORDER BY`: all rows tie. -/
def noRank : Ranking Bso := ⟨fun _ _ => True, fun _ _ => instDecidableTrue, fun _ _ => Or.inl trivial, fun _ _ => trivial⟩

/-- What a page of rows holds. -/
def Items.of (full : Bool) (rows : List Bso) : Items := if full then .records rows else .ids (rows.map Bso.id)

/-- The ids of what a page holds. -/
def Items.names : Items → List String
  | .records items => items.map Bso.id
  | .ids items => items

/-- Whole records are paged by row count only by index. -/
def Counted (query : BsoQuery) (full : Bool) : Prop := full = true → query.sort = some .index

section Page

variable {self : SyncStore} {db : Db} {c : ℕ} {query : BsoQuery} {full : Bool} {token : Option Offset} {skip : ℕ}

end Page

section Reading

variable {float : String → Option ℚ} {params : Params} {self : SyncStore} {db : Db} {name : String} {c : ℕ}
  {query : BsoQuery} {full : Bool} {skip : ℕ} {text : Option (List Char)}

end Reading

/-! ### Which readings that concerns -/

section Kinds

variable {self : SyncStore} {db : Db} {c : ℕ} {query : BsoQuery}

/-- Without an order all do, so only a reading of one page is safe. -/
theorem uncut_noRank_iff {n : ℕ} (hn : 1 ≤ n) (rows : List Bso) : noRank.Uncut n rows ↔ rows.length ≤ n := by
  have hbefore : ∀ x, noRank.before rows x = 0 := fun x =>
    List.countP_eq_zero.mpr fun y _ => by simp [noRank]
  have hupTo : ∀ x, noRank.upTo rows x = rows.length := fun x =>
    List.countP_eq_length.mpr fun y _ => decide_eq_true trivial
  unfold Ranking.Uncut
  simp only [hbefore, hupTo, Nat.zero_div]
  constructor
  · intro huncut
    cases rows with
    | nil => exact Nat.zero_le n
    | cons x rest =>
      have hpage := (Nat.div_eq_zero_iff.mp (huncut x (by simp)).symm).resolve_left (by omega)
      omega
  · intro hlength x hx
    have hpos := List.length_pos_of_mem hx
    exact (Nat.div_eq_of_lt (by omega)).symm

end Kinds

end FxaLite.SyncStorage
