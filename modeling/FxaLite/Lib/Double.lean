import Mathlib.Algebra.Order.Ring.Int
import Mathlib.Data.Nat.Log
import Mathlib.Tactic.Positivity.Basic
import Mathlib.Tactic.Ring

/-!
# Doubles, as far as integers meet them

A finite double is a binary fraction. An integer is rounded to one with ties to even, in fifty-three
bits, and raises where it would be too large; a double is rounded to an integer the same way. An
integer that has no more than fifty-three bits before its trailing zeros survives both.
-/

/-- A double, up to the sign of zero. -/
inductive Double where
  | finite (numerator : ℤ) (shift : ℕ)
  | infinite (negative : Bool)
  | nan
  deriving DecidableEq, Repr

namespace Double

/-- The integer nearest to `n / 2 ^ shift`, the even one of two. -/
def roundHalfEven (n : ℤ) (shift : ℕ) : ℤ :=
  let quotient := n / 2 ^ shift
  let rest := n % 2 ^ shift
  if 2 * rest < 2 ^ shift then quotient
  else if 2 ^ shift < 2 * rest then quotient + 1
  else if quotient % 2 = 0 then quotient else quotient + 1

/-- The bits that do not fit in the fifty-three of a double. -/
def excess (n : ℤ) : ℕ := Nat.log2 n.natAbs - 52

/-- Where the doubles end. -/
def bound : ℕ := 2 ^ 1024

/-- `float(n)`; `none` is an `OverflowError`. -/
def ofInt (n : ℤ) : Option Double :=
  let rounded := roundHalfEven n (excess n) * 2 ^ excess n
  if rounded.natAbs < bound then some (.finite rounded 0) else none

/-- What a conversion may raise. -/
inductive Error where
  | value
  | overflow
  deriving DecidableEq, Repr

/-- `round(x)`. -/
def round : Double → Except Error ℤ
  | finite numerator shift => .ok (roundHalfEven numerator shift)
  | infinite _ => .error .overflow
  | nan => .error .value

/-- An integer that is a double: at most fifty-three bits and zeros, and not too large. -/
def IsExact (n : ℤ) : Prop := ∃ m : ℤ, ∃ k : ℕ, m.natAbs < 2 ^ 53 ∧ n = m * 2 ^ k ∧ n.natAbs < bound

/-- Nothing is rounded where nothing is left over. -/
theorem roundHalfEven_mul (m : ℤ) (shift : ℕ) : roundHalfEven (m * 2 ^ shift) shift = m := by
  have hpos : (0 : ℤ) < 2 ^ shift := by positivity
  have hquotient : m * 2 ^ shift / 2 ^ shift = m := Int.mul_ediv_cancel m hpos.ne'
  have hrest : m * 2 ^ shift % 2 ^ shift = 0 := Int.mul_emod_left m (2 ^ shift)
  simp only [roundHalfEven, hquotient, hrest, mul_zero, if_pos hpos]

/-- The excess of such an integer is among its trailing zeros. -/
theorem excess_le {m : ℤ} {k : ℕ} (hm : m.natAbs < 2 ^ 53) : excess (m * 2 ^ k) ≤ k := by
  have hlog : Nat.log2 (m * 2 ^ k).natAbs < 53 + k := by
    rw [Nat.log2_eq_log_two, Int.natAbs_mul, Int.natAbs_pow]
    refine Nat.log_lt_of_lt_pow' (by omega) ?_
    rw [pow_add]
    exact Nat.mul_lt_mul_of_pos_right hm (by positivity)
  simp only [excess]
  omega

/-- An exact integer becomes itself. -/
theorem ofInt_of_isExact {n : ℤ} (h : IsExact n) : ofInt n = some (.finite n 0) := by
  obtain ⟨m, k, hm, rfl, hsmall⟩ := h
  have hle : excess (m * 2 ^ k) ≤ k := excess_le hm
  have hsplit : m * 2 ^ k = m * 2 ^ (k - excess (m * 2 ^ k)) * 2 ^ excess (m * 2 ^ k) := by
    rw [mul_assoc, ← pow_add, Nat.sub_add_cancel hle]
  have hrounded : roundHalfEven (m * 2 ^ k) (excess (m * 2 ^ k)) * 2 ^ excess (m * 2 ^ k) = m * 2 ^ k := by
    generalize excess (m * 2 ^ k) = shift at hsplit
    rw [hsplit, roundHalfEven_mul]
  simp only [ofInt, hrounded, if_pos hsmall]

/-- And is rounded to itself. -/
@[simp] theorem round_finite_zero (n : ℤ) : round (.finite n 0) = .ok n :=
  congrArg Except.ok (by simpa using roundHalfEven_mul n 0)

/-- An integer of fifty-three bits is exact. -/
theorem isExact_of_lt {n : ℤ} (h : n.natAbs < 2 ^ 53) : IsExact n :=
  ⟨n, 0, h, by simp, h.trans (Nat.pow_lt_pow_right (by decide) (by decide))⟩

/-- Between two doubles the even one is taken. -/
example : ofInt (2 ^ 53 + 1) = some (.finite (2 ^ 53) 0) := by decide +kernel

end Double
