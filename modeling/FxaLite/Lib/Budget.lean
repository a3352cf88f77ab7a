import Mathlib.Algebra.GroupWithZero.Nat
import Mathlib.Algebra.Order.Group.Nat
import Mathlib.Algebra.Order.BigOperators.Group.List
import Mathlib.Data.List.Infix

/-!
# Admission under a budget

Items are offered one after another and every item counts, also one that does not fit. Then what is
admitted is the longest prefix that the budget covers, since a total that is over the limit once
stays over it.
-/

namespace Budget

variable {α : Type*} (size : α → ℕ) (limit : ℕ)

/-- The sizes of some items together. -/
def total (items : List α) : ℕ := (items.map size).sum

/-- The longest prefix of the items that fits, when so much has been counted already. -/
def within (counted : ℕ) : List α → List α
  | [] => []
  | item :: rest => if limit < counted + size item then [] else item :: within (counted + size item) rest

variable {size limit} {counted : ℕ} {items before after : List α} {item : α}

@[simp] theorem total_nil : total size [] = 0 := rfl

@[simp] theorem total_cons : total size (item :: items) = size item + total size items := by simp [total]

@[simp] theorem total_append : total size (before ++ after) = total size before + total size after := by simp [total]

/-- A part of the items has no larger total. -/
theorem total_le_of_sublist (h : before.Sublist after) : total size before ≤ total size after :=
  (h.map size).sum_le_sum fun _ _ => Nat.zero_le _

/-- What fits is a prefix. -/
theorem within_isPrefix : within size limit counted items <+: items := by
  induction items generalizing counted with
  | nil => exact List.prefix_rfl
  | cons item rest ih =>
    rw [within]
    split
    · exact List.nil_prefix
    · exact (List.prefix_cons_inj item).mpr ih

/-- And it fits. -/
theorem counted_add_total_within_le (h : counted ≤ limit) : counted + total size (within size limit counted items) ≤ limit := by
  induction items generalizing counted with
  | nil => simpa [within] using h
  | cons item rest ih =>
    rw [within]
    split
    · simpa using h
    · rename_i hfits
      have hrest := ih (not_lt.mp hfits)
      rw [total_cons]
      omega

/-- An item at a place is admitted exactly if it fits behind everything before it. -/
theorem within_append_cons :
    within size limit counted (before ++ item :: after) =
      if limit < counted + total size before + size item then within size limit counted before
      else before ++ item :: within size limit (counted + total size before + size item) after := by
  induction before generalizing counted with
  | nil => simp [within]
  | cons first rest ih =>
    simp only [List.cons_append, within, total_cons, ih]
    split
    · rename_i hover
      rw [if_pos (by omega)]
    · rw [Nat.add_assoc counted, ← Nat.add_assoc counted]
      split <;> rfl

end Budget
