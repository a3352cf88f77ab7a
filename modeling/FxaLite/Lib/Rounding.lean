import Mathlib.Algebra.Order.Field.Power
import Mathlib.Data.Int.ConditionallyCompleteOrder
import Mathlib.Data.Int.Log
import Mathlib.Data.Rat.Floor
import Mathlib.Tactic.FieldSimp
import Mathlib.Tactic.Linarith
import Mathlib.Tactic.Positivity

/-!
# Rationals rounded to fifty-three bits

What one floating-point operation does to its exact result: the result becomes the nearest number
with a significand of fifty-three bits, the even one of two. Neither overflow nor underflow is
modelled. Rounding keeps the order, moves a number by at most half a unit in its last place, and
leaves a number alone that has no more than fifty-three bits.
-/

namespace Rounding

/-! ### To an integer -/

/-- The integer nearest to `x`, the even one of two. -/
def nearest (x : ℚ) : ℤ :=
  if 2 * Int.fract x < 1 then ⌊x⌋
  else if 1 < 2 * Int.fract x then ⌊x⌋ + 1
  else if ⌊x⌋ % 2 = 0 then ⌊x⌋ else ⌊x⌋ + 1

variable {x y : ℚ} {n : ℤ}

/-- The nearest integer is at most a half away, and even where it is a half away. -/
theorem nearest_spec (x : ℚ) : |x - nearest x| < 1 / 2 ∨ |x - nearest x| = 1 / 2 ∧ nearest x % 2 = 0 := by
  have hfract : x = ⌊x⌋ + Int.fract x := (Int.floor_add_fract x).symm
  have hnonneg : 0 ≤ Int.fract x := Int.fract_nonneg x
  have hlt : Int.fract x < 1 := Int.fract_lt_one x
  simp only [nearest]
  split
  · left
    rw [abs_lt]
    constructor <;> linarith
  · split
    · left
      push_cast
      rw [abs_lt]
      constructor <;> linarith
    · have hhalf : Int.fract x = 1 / 2 := by linarith
      split
      · rename_i heven
        refine Or.inr ⟨?_, heven⟩
        rw [show x - ⌊x⌋ = 1 / 2 by linarith]
        norm_num
      · refine Or.inr ⟨?_, by omega⟩
        push_cast
        rw [show x - (⌊x⌋ + 1) = -(1 / 2) by linarith]
        norm_num

/-- Only the nearest integer is that close. -/
theorem nearest_eq_iff : nearest x = n ↔ |x - n| < 1 / 2 ∨ |x - n| = 1 / 2 ∧ n % 2 = 0 := by
  constructor
  · rintro rfl
    exact nearest_spec x
  · intro h
    have hspec := nearest_spec x
    have hapart : |(nearest x : ℚ) - n| ≤ |x - nearest x| + |x - n| := by
      rw [abs_sub_comm x (nearest x)]
      exact abs_sub_le _ _ _
    rw [← Int.cast_sub, ← Int.cast_abs] at hapart
    have hbound : |nearest x - n| ≤ 1 := by
      have hle : ((|nearest x - n| : ℤ) : ℚ) ≤ 1 := by
        obtain h | h := h <;> obtain hspec | hspec := hspec <;> linarith
      exact_mod_cast hle
    by_contra hne
    -- two neighbours are both a half away, and only one of them is even
    have hone : |nearest x - n| = 1 := le_antisymm hbound (Int.one_le_abs (sub_ne_zero.mpr hne))
    rw [hone, Int.cast_one] at hapart
    obtain hlt | ⟨htie, heven⟩ := h
    · obtain hspec | hspec := hspec <;> linarith
    · obtain hlt | ⟨-, heven'⟩ := hspec
      · linarith
      · obtain hone | hone := abs_eq (by decide : (0 : ℤ) ≤ 1) |>.mp hone <;> omega

/-- What is less than a half away is nearest. -/
theorem nearest_of_abs_lt (h : |x - n| < 1 / 2) : nearest x = n := nearest_eq_iff.mpr (Or.inl h)

/-- An integer is nearest to itself. -/
@[simp] theorem nearest_intCast (n : ℤ) : nearest n = n := nearest_of_abs_lt (by simp)

/-- The integer nearest to a quotient, by its remainder. -/
theorem nearest_div (n : ℤ) {b : ℕ} (hb : 0 < b) :
    nearest (n / b) =
      if 2 * (n % b) < b then n / b
      else if b < 2 * (n % b) then n / b + 1
      else if n / b % 2 = 0 then n / b else n / b + 1 := by
  have hfloor : ⌊(n : ℚ) / b⌋ = n / b := Rat.floor_intCast_div_natCast n b
  have hpos : (0 : ℚ) < b := by exact_mod_cast hb
  have hfract : Int.fract ((n : ℚ) / b) = ((n % b : ℤ) : ℚ) / b := by
    have hsplit : ((b : ℤ) * (n / b) + n % b : ℤ) = n := Int.mul_ediv_add_emod n b
    rw [Int.fract, hfloor, eq_div_iff hpos.ne', sub_mul, div_mul_cancel₀ _ hpos.ne', sub_eq_iff_eq_add]
    exact_mod_cast (by linarith : n = n % b + n / b * b)
  have hlt : 2 * (((n % b : ℤ) : ℚ) / b) < 1 ↔ 2 * (n % b) < b := by
    rw [← mul_div_assoc, div_lt_one hpos]
    exact_mod_cast Iff.rfl
  have hgt : 1 < 2 * (((n % b : ℤ) : ℚ) / b) ↔ (b : ℤ) < 2 * (n % b) := by
    rw [← mul_div_assoc, one_lt_div hpos]
    exact_mod_cast Iff.rfl
  simp only [nearest, hfract, hfloor, hlt, hgt]

/-- The nearest integer is at most a half away. -/
theorem abs_sub_nearest_le (x : ℚ) : |x - nearest x| ≤ 1 / 2 :=
  (nearest_spec x).elim le_of_lt fun h => h.1.le

/-- Ties are broken the same way on both sides of zero. -/
theorem nearest_neg (x : ℚ) : nearest (-x) = -nearest x := by
  rw [nearest_eq_iff, Int.cast_neg, neg_sub_neg, abs_sub_comm, Int.neg_emod_two]
  exact nearest_spec x

/-- The nearest integer keeps the order. -/
theorem nearest_mono : Monotone nearest := by
  intro x y hxy
  by_contra hlt
  have hstep : (nearest y : ℚ) + 1 ≤ nearest x := by exact_mod_cast not_le.mp hlt
  have hx := abs_le.mp (abs_sub_nearest_le x)
  have hy := abs_le.mp (abs_sub_nearest_le y)
  -- otherwise both are the same half between two neighbours
  have heq : x = y := by linarith
  exact hlt (heq ▸ le_rfl)

/-! ### To a significand of fifty-three bits -/

/-- The exponent of the last of the fifty-three bits. -/
def lastPlace (x : ℚ) : ℤ := Int.log 2 |x| - 52

/-- The number of fifty-three bits nearest to `x`, the even one of two. -/
def double (x : ℚ) : ℚ := nearest (x / 2 ^ lastPlace x) * 2 ^ lastPlace x

/-- The last place of a number between two powers of two. -/
theorem lastPlace_eq {e : ℤ} (hlow : 2 ^ (e + 52) ≤ |x|) (hhigh : |x| < 2 ^ (e + 53)) : lastPlace x = e := by
  have hpos : 0 < |x| := lt_of_lt_of_le (by positivity) hlow
  have hle : e + 52 ≤ Int.log 2 |x| := (Int.zpow_le_iff_le_log one_lt_two hpos).mp (by exact_mod_cast hlow)
  have hlt : Int.log 2 |x| < e + 53 := (Int.lt_zpow_iff_log_lt one_lt_two hpos).mp (by exact_mod_cast hhigh)
  simp only [lastPlace]
  omega

/-- A number that is not zero has fifty-three bits down to its last place. -/
theorem two_pow_le_abs_div (hx : x ≠ 0) : 2 ^ 52 ≤ |x| / 2 ^ lastPlace x ∧ |x| / 2 ^ lastPlace x < 2 ^ 53 := by
  have hpos : 0 < |x| := abs_pos.mpr hx
  have hunit : (0 : ℚ) < 2 ^ lastPlace x := by positivity
  have hlow : (2 : ℚ) ^ (52 + lastPlace x) ≤ |x| := by
    have hle := Int.zpow_log_le_self (b := 2) one_lt_two hpos
    rw [lastPlace, add_sub_cancel]
    exact_mod_cast hle
  have hhigh : |x| < (2 : ℚ) ^ (53 + lastPlace x) := by
    have hlt := Int.lt_zpow_succ_log_self (b := 2) one_lt_two |x|
    rw [lastPlace, show 53 + (Int.log 2 |x| - 52) = Int.log 2 |x| + 1 by ring]
    exact_mod_cast hlt
  rw [le_div_iff₀ hunit, div_lt_iff₀ hunit]
  rw [zpow_add₀ two_ne_zero] at hlow hhigh
  exact ⟨by exact_mod_cast hlow, by exact_mod_cast hhigh⟩

@[simp] theorem double_zero : double 0 = 0 := by
  have hzero : nearest 0 = 0 := by exact_mod_cast nearest_intCast 0
  simp [double, hzero]

/-- Rounding moves a number by at most half a unit in the last place. -/
theorem abs_sub_double_le (x : ℚ) : |x - double x| ≤ 2 ^ lastPlace x / 2 := by
  have hunit : (0 : ℚ) < 2 ^ lastPlace x := by positivity
  have hsplit : x - double x = (x / 2 ^ lastPlace x - nearest (x / 2 ^ lastPlace x)) * 2 ^ lastPlace x := by
    rw [double, sub_mul, div_mul_cancel₀ x hunit.ne']
  calc |x - double x| = |x / 2 ^ lastPlace x - nearest (x / 2 ^ lastPlace x)| * 2 ^ lastPlace x := by
        rw [hsplit, abs_mul, abs_of_pos hunit]
    _ ≤ 1 / 2 * 2 ^ lastPlace x := mul_le_mul_of_nonneg_right (abs_sub_nearest_le _) hunit.le
    _ = 2 ^ lastPlace x / 2 := by ring

/-- Rounding treats both signs alike. -/
theorem double_neg (x : ℚ) : double (-x) = -double x := by
  have hplace : lastPlace (-x) = lastPlace x := by rw [lastPlace, abs_neg, lastPlace]
  rw [double, hplace, neg_div, nearest_neg, Int.cast_neg, neg_mul, double]

/-- A positive number is rounded within its powers of two. -/
theorem double_bounds (hx : 0 < x) : 2 ^ 52 * 2 ^ lastPlace x ≤ double x ∧ double x ≤ 2 ^ 53 * 2 ^ lastPlace x := by
  have hunit : (0 : ℚ) ≤ 2 ^ lastPlace x := by positivity
  obtain ⟨hlow, hhigh⟩ := two_pow_le_abs_div hx.ne'
  rw [abs_of_pos hx] at hlow hhigh
  have hlow' : (2 ^ 52 : ℤ) ≤ nearest (x / 2 ^ lastPlace x) := by
    rw [← nearest_intCast (2 ^ 52)]
    exact nearest_mono (by exact_mod_cast hlow)
  have hhigh' : nearest (x / 2 ^ lastPlace x) ≤ (2 ^ 53 : ℤ) := by
    rw [← nearest_intCast (2 ^ 53)]
    exact nearest_mono (by exact_mod_cast hhigh.le)
  exact ⟨mul_le_mul_of_nonneg_right (by exact_mod_cast hlow') hunit,
    mul_le_mul_of_nonneg_right (by exact_mod_cast hhigh') hunit⟩

/-- What is positive stays positive. -/
theorem double_pos (hx : 0 < x) : 0 < double x := lt_of_lt_of_le (by positivity) (double_bounds hx).1

/-- What is not negative does not become negative. -/
theorem double_nonneg (hx : 0 ≤ x) : 0 ≤ double x := by
  obtain rfl | hpos := hx.eq_or_lt
  · rw [double_zero]
  · exact (double_pos hpos).le

/-- Rounding keeps the order of positive numbers. -/
theorem double_le_double (hx : 0 < x) (hxy : x ≤ y) : double x ≤ double y := by
  have hy : 0 < y := hx.trans_le hxy
  have hplace : lastPlace x ≤ lastPlace y := by
    have hlog := Int.log_mono_right (b := 2) (abs_pos.mpr hx.ne') (abs_le_abs_of_nonneg hx.le hxy)
    simp only [lastPlace]
    omega
  obtain heq | hlt := hplace.eq_or_lt
  · have hunit : (0 : ℚ) < 2 ^ lastPlace y := by positivity
    have hnearest : nearest (x / 2 ^ lastPlace y) ≤ nearest (y / 2 ^ lastPlace y) :=
      nearest_mono (div_le_div_of_nonneg_right hxy hunit.le)
    rw [double, double, heq]
    exact mul_le_mul_of_nonneg_right (by exact_mod_cast hnearest) hunit.le
  · -- a power of two stands between them
    calc double x ≤ 2 ^ 53 * 2 ^ lastPlace x := (double_bounds hx).2
      _ = 2 ^ 52 * 2 ^ (lastPlace x + 1) := by rw [zpow_add_one₀ two_ne_zero]; ring
      _ ≤ 2 ^ 52 * 2 ^ lastPlace y :=
        mul_le_mul_of_nonneg_left (zpow_le_zpow_right₀ one_le_two (by omega)) (by positivity)
      _ ≤ double y := (double_bounds hy).1

/-- Rounding keeps the order. -/
theorem double_mono : Monotone double := by
  intro x y hxy
  obtain hx | rfl | hx := lt_trichotomy 0 x
  · exact double_le_double hx hxy
  · rw [double_zero]
    exact double_nonneg hxy
  · obtain hy | hy := lt_or_ge y 0
    · have hneg := double_le_double (neg_pos.mpr hy) (neg_le_neg hxy)
      rwa [double_neg, double_neg, neg_le_neg_iff] at hneg
    · have hpos := double_pos (neg_pos.mpr hx)
      rw [double_neg, neg_pos] at hpos
      exact hpos.le.trans (double_nonneg hy)

/-- Rounding between two known powers of two. -/
theorem double_eq {e : ℤ} (hlow : 2 ^ (e + 52) ≤ |x|) (hhigh : |x| < 2 ^ (e + 53)) :
    double x = nearest (x / 2 ^ e) * 2 ^ e := by
  rw [double, lastPlace_eq hlow hhigh]

/-- Rounding an integer of `j` bits too many, in units of `2 ^ k`. -/
theorem double_div_two_pow {n : ℤ} {j : ℕ} (k : ℕ) (hlow : 2 ^ (j + 52) ≤ n) (hhigh : n < 2 ^ (j + 53)) :
    double (n / 2 ^ k) = nearest (n / (2 ^ j : ℕ)) * 2 ^ j / 2 ^ k := by
  have hunit : (0 : ℚ) < 2 ^ k := by positivity
  have hn : (0 : ℚ) ≤ n := by exact_mod_cast (by positivity : (0 : ℤ) ≤ 2 ^ (j + 52)).trans hlow
  have habs : |(n : ℚ) / 2 ^ k| = n / 2 ^ k := abs_of_nonneg (by positivity)
  have hpow : ∀ i : ℕ, (2 : ℚ) ^ ((j : ℤ) - k + i) = 2 ^ (j + i) / 2 ^ k := by
    intro i
    rw [sub_add_eq_add_sub, zpow_sub₀ two_ne_zero]
    exact_mod_cast rfl
  have hbase : (2 : ℚ) ^ ((j : ℤ) - k) = 2 ^ j / 2 ^ k := by
    rw [zpow_sub₀ two_ne_zero]
    exact_mod_cast rfl
  have hlow' : (2 : ℚ) ^ ((j : ℤ) - k + 52) ≤ |(n : ℚ) / 2 ^ k| := by
    rw [habs, show (52 : ℤ) = ((52 : ℕ) : ℤ) from rfl, hpow]
    exact div_le_div_of_nonneg_right (by exact_mod_cast hlow) hunit.le
  have hhigh' : |(n : ℚ) / 2 ^ k| < (2 : ℚ) ^ ((j : ℤ) - k + 53) := by
    rw [habs, show (53 : ℤ) = ((53 : ℕ) : ℤ) from rfl, hpow]
    exact div_lt_div_of_pos_right (by exact_mod_cast hhigh) hunit
  rw [double_eq hlow' hhigh', hbase, div_div_div_cancel_right₀ hunit.ne', mul_div_assoc]
  push_cast
  rfl

/-- A number of fifty-three bits is left alone. -/
theorem double_div_two_pow_eq_self {n : ℤ} (k : ℕ) (hn : |n| < 2 ^ 53) : double (n / 2 ^ k) = n / 2 ^ k := by
  obtain rfl | hzero := eq_or_ne n 0
  · simp
  have hunit : (0 : ℚ) < 2 ^ k := by positivity
  have hx : ((n : ℚ) / 2 ^ k) ≠ 0 := div_ne_zero (Int.cast_ne_zero.mpr hzero) hunit.ne'
  have hplace : lastPlace ((n : ℚ) / 2 ^ k) ≤ -k := by
    have hlt : |(n : ℚ) / 2 ^ k| < (2 : ℚ) ^ ((53 : ℤ) - k) := by
      rw [abs_div, abs_of_pos hunit, zpow_sub₀ two_ne_zero, zpow_natCast]
      exact div_lt_div_of_pos_right (by exact_mod_cast hn) hunit
    have hlog : Int.log 2 |(n : ℚ) / 2 ^ k| < (53 : ℤ) - k :=
      (Int.lt_zpow_iff_log_lt one_lt_two (abs_pos.mpr hx)).mp (by rwa [Nat.cast_ofNat])
    simp only [lastPlace]
    omega
  obtain ⟨j, hj⟩ := Int.le.dest hplace
  have hquotient : (n : ℚ) / 2 ^ k / 2 ^ lastPlace ((n : ℚ) / 2 ^ k) = ((n * 2 ^ j : ℤ) : ℚ) := by
    have hlast : lastPlace ((n : ℚ) / 2 ^ k) = -((k : ℤ) + j) := by omega
    rw [hlast, zpow_neg, zpow_add₀ two_ne_zero, zpow_natCast, zpow_natCast]
    push_cast
    field_simp
  have hlast : (0 : ℚ) < 2 ^ lastPlace ((n : ℚ) / 2 ^ k) := by positivity
  rw [double, hquotient, nearest_intCast, ← hquotient, div_mul_cancel₀ _ hlast.ne']

end Rounding
