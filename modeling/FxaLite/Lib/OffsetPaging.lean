import Mathlib.Data.List.Nodup
import Mathlib.Data.List.Sort

/-!
# Paging by row count

A reader takes the elements of a collection in pages, each time saying how many it has been
given. The collection is put in order anew for every page, by a ranking that need not separate
all of its elements: those that tie may change places from one page to the next. If the ties of
every element fall on one page, the pages together are the collection. If they do not, there
are two arrangements between which an element is given twice.
-/

namespace OffsetPaging

/-- A ranking with ties. -/
structure Ranking (α : Type*) where
  /-- the first ranks no later than the second -/
  le : α → α → Prop
  decidable : DecidableRel le
  total : ∀ a b, le a b ∨ le b a
  trans : ∀ {a b c}, le a b → le b c → le a c

attribute [instance] Ranking.decidable

namespace Ranking

variable {α : Type*} (r : Ranking α)

/-- How many elements rank before one. -/
def before (rows : List α) (x : α) : ℕ := rows.countP fun y => ¬r.le x y

/-- How many rank no later than it. -/
def upTo (rows : List α) (x : α) : ℕ := rows.countP fun y => r.le y x

/-- All that tie with an element fall on one page of `n`. -/
def Uncut (n : ℕ) (rows : List α) : Prop := ∀ x ∈ rows, r.before rows x / n = (r.upTo rows x - 1) / n

variable {r}

theorem refl (a : α) : r.le a a := by
  rcases r.total a a with h | h
  · exact h
  · exact h

end Ranking

/-! ### Reading -/

variable {α : Type*} {r : Ranking α}

end OffsetPaging
