import FxaLite.SyncStorage.Models
import FxaLite.Lib.PyFloat

/-!
# Timestamps on the wire

A timestamp leaves as seconds with two decimals and comes back through `float()`, a product, a
truncation and a rounding down. Here each float operation is rounded. The text is always that of the
timestamp itself; but the product can fall just short of the milliseconds it stands for, and then
truncating and rounding down lose a whole hundredth of a second.
-/

namespace FxaLite.SyncStorage.Rounded

open Rounding

/-- `timestamp_header`. -/
def timestampHeader (milliseconds : ℕ) : List Char := Py.fixed2 (double (milliseconds / 1000))

/-- `timestamp_json`: the number rounded to two decimals. -/
def timestampJson (milliseconds : ℕ) : ℚ := double (nearest (double (milliseconds / 1000) * 100) / 100)

/-- `parse_timestamp`. -/
def parseTimestamp (raw : List Char) : Except Raised ℕ :=
  match Py.decimal raw with
  | none => .error (.http badRequest)
  | some number =>
    let seconds := double number
    if seconds < 0 ∨ double ((2 ^ 64 - 1) / 1000) < seconds then .error (.http badRequest)
    else .ok (quantize ⌊double (seconds * 1000)⌋.toNat)

/-- The binary places of the double of a number of milliseconds, in seconds. -/
def places (t : ℕ) : ℕ := (52 - Int.log 2 |(t : ℚ) / 1000|).toNat

/-- The milliseconds in units of the last of these places. -/
def scaled (t : ℕ) : ℕ := t * 2 ^ places t

/-- Where no hundredth is lost: the seconds are rounded up, or by so little down that the product
is rounded back. -/
def KeepsHundredth (t : ℕ) : Prop := 2 ^ 62 ≤ scaled t ∨ scaled t % 1000 ≤ 256 ∨ 500 ≤ scaled t % 1000

instance (t : ℕ) : Decidable (KeepsHundredth t) := inferInstanceAs (Decidable (_ ∨ _))

/-- What the roundings of the seconds and of the product leave of the milliseconds, in the same units. -/
def slip (t : ℕ) : ℤ :=
  if 2 ^ 62 ≤ scaled t ∨ scaled t % 1000 ≤ 256 ∨ 744 ≤ scaled t % 1000 then 0
  else if scaled t % 1000 < 500 then -512 else 512

section Milliseconds

variable {t : ℕ}

/-- Timestamps of less than fifteen digits have sixteen binary places and more. -/
theorem lastPlace_eq_places (hpos : 0 < t) (hlt : t < 10 ^ 14) :
    lastPlace ((t : ℚ) / 1000) = -places t ∧ 16 ≤ places t := by
  have hx : (0 : ℚ) < |(t : ℚ) / 1000| := by positivity
  have hsmall : |(t : ℚ) / 1000| < ((2 : ℕ) : ℚ) ^ (37 : ℤ) := by
    have hcast : (t : ℚ) < 10 ^ 14 := by exact_mod_cast hlt
    rw [abs_of_nonneg (by positivity), div_lt_iff₀ (by norm_num)]
    exact hcast.trans (by norm_num)
  have hlog : Int.log 2 |(t : ℚ) / 1000| < 37 := (Int.lt_zpow_iff_log_lt one_lt_two hx).mp hsmall
  simp only [lastPlace, places]
  omega

/-- The seconds in units of their last place are a thousandth of the milliseconds. -/
theorem seconds_div_unit (hpos : 0 < t) (hlt : t < 10 ^ 14) :
    (t : ℚ) / 1000 / 2 ^ lastPlace ((t : ℚ) / 1000) = ((scaled t : ℕ) : ℤ) / ((1000 : ℕ) : ℚ) := by
  rw [(lastPlace_eq_places hpos hlt).1, zpow_neg, zpow_natCast, scaled]
  push_cast
  rw [div_inv_eq_mul]
  ring

/-- The milliseconds fill sixty-two bits of these units, or sixty-three. -/
theorem scaled_bounds (hpos : 0 < t) (hlt : t < 10 ^ 14) : 1000 * 2 ^ 52 ≤ scaled t ∧ scaled t < 1000 * 2 ^ 53 := by
  have hx : (t : ℚ) / 1000 ≠ 0 := by positivity
  obtain ⟨hlow, hhigh⟩ := two_pow_le_abs_div hx
  rw [abs_of_nonneg (by positivity), seconds_div_unit hpos hlt] at hlow hhigh
  rw [le_div_iff₀ (by norm_num)] at hlow
  rw [div_lt_iff₀ (by norm_num)] at hhigh
  constructor
  · rw [mul_comm]
    exact_mod_cast hlow
  · rw [mul_comm]
    exact_mod_cast hhigh

/-- Beyond their last place the milliseconds end in ten zeros and more. -/
theorem dvd_scaled (hq : t % 10 = 0) (hpos : 0 < t) (hlt : t < 10 ^ 14) : 5120 ∣ scaled t := by
  have hplaces := (lastPlace_eq_places hpos hlt).2
  have hten : 10 ∣ t := Nat.dvd_of_mod_eq_zero hq
  have hpow : 2 ^ 16 ∣ 2 ^ places t := pow_dvd_pow 2 hplaces
  exact (by decide : 5120 ∣ 10 * 2 ^ 16).trans (mul_dvd_mul hten hpow)

/-- The seconds as a double. -/
theorem double_seconds (hpos : 0 < t) (hlt : t < 10 ^ 14) :
    double ((t : ℚ) / 1000) = nearest (((scaled t : ℕ) : ℤ) / ((1000 : ℕ) : ℚ)) / 2 ^ places t := by
  rw [double, seconds_div_unit hpos hlt, (lastPlace_eq_places hpos hlt).1, zpow_neg, zpow_natCast,
    ← div_eq_mul_inv]

/-- The product of the seconds and a thousand before it is rounded: at most five hundred units off. -/
theorem product_spec {n m : ℤ} (hdvd : 5120 ∣ n) (hm : m = nearest (n / (1000 : ℕ))) :
    1000 * m = n + if n % 1000 < 500 then -(n % 1000) else 1000 - n % 1000 := by
  have hnearest := nearest_div n (b := 1000) (by decide)
  rw [← hm] at hnearest
  split_ifs at hnearest ⊢ <;> omega

/-- The product rounded to sixty-two bits, of which nine are zeros. -/
theorem nearest_product_nine {n d : ℤ} (hdvd : 5120 ∣ n)
    (hd : d = if n % 1000 < 500 then -(n % 1000) else 1000 - n % 1000) :
    nearest ((n + d : ℤ) / (512 : ℕ)) * 512 =
      n + if n % 1000 ≤ 256 ∨ 744 ≤ n % 1000 then 0 else if n % 1000 < 500 then -512 else 512 := by
  have hnearest := nearest_div (n + d) (b := 512) (by decide)
  split_ifs at hnearest hd ⊢ <;> omega

/-- The product rounded to sixty-three bits, of which ten are zeros. -/
theorem nearest_product_ten {n d : ℤ} (hdvd : 5120 ∣ n)
    (hd : d = if n % 1000 < 500 then -(n % 1000) else 1000 - n % 1000) :
    nearest ((n + d : ℤ) / (1024 : ℕ)) * 1024 = n := by
  have hnearest := nearest_div (n + d) (b := 1024) (by decide)
  split_ifs at hnearest hd <;> omega

/-- The product of the seconds and a thousand, rounded twice. -/
theorem double_product (hq : t % 10 = 0) (hpos : 0 < t) (hlt : t < 10 ^ 14) :
    double (double ((t : ℚ) / 1000) * 1000) = t + slip t / 2 ^ places t := by
  obtain ⟨hlow, hhigh⟩ := scaled_bounds hpos hlt
  have hdvd : (5120 : ℤ) ∣ scaled t := by exact_mod_cast dvd_scaled hq hpos hlt
  have hunit : (2 : ℚ) ^ places t ≠ 0 := by positivity
  have ht : (t : ℚ) = scaled t / 2 ^ places t := by
    rw [scaled, Nat.cast_mul, Nat.cast_pow, Nat.cast_ofNat, mul_div_cancel_right₀ _ hunit]
  obtain ⟨d, hd⟩ : ∃ d : ℤ, d = if (scaled t : ℤ) % 1000 < 500 then -((scaled t : ℤ) % 1000) else 1000 - scaled t % 1000 :=
    ⟨_, rfl⟩
  have hproduct : double ((t : ℚ) / 1000) * 1000 = ((scaled t + d : ℤ) : ℚ) / 2 ^ places t := by
    have hspec := product_spec hdvd rfl
    rw [← hd] at hspec
    rw [double_seconds hpos hlt, ← hspec]
    push_cast
    ring
  have hnear : -500 ≤ d ∧ d ≤ 500 := by
    split_ifs at hd <;> omega
  rw [hproduct]
  conv_rhs => rw [ht, ← add_div]
  by_cases hnine : scaled t < 2 ^ 62
  · rw [double_div_two_pow (j := 9) _ (by omega) (by omega)]
    have hround := nearest_product_nine hdvd hd
    have hslip : slip t = if (scaled t : ℤ) % 1000 ≤ 256 ∨ 744 ≤ (scaled t : ℤ) % 1000 then 0
        else if (scaled t : ℤ) % 1000 < 500 then -512 else 512 := by
      simp only [slip]
      split_ifs <;> omega
    rw [← hslip] at hround
    congr 1
    exact_mod_cast hround
  · have hslip : slip t = 0 := if_pos (Or.inl (not_lt.mp hnine))
    rw [double_div_two_pow (j := 10) _ (by omega) (by omega), hslip, Int.cast_zero, add_zero]
    have hround := nearest_product_ten hdvd hd
    congr 1
    exact_mod_cast hround

/-- Truncated, the product is the milliseconds or one less. -/
theorem floor_product (hq : t % 10 = 0) (ht : 0 < t) (hlt : t < 10 ^ 14) :
    ⌊double (double ((t : ℚ) / 1000) * 1000)⌋ = if KeepsHundredth t then (t : ℤ) else t - 1 := by
  have hunit : (2 : ℚ) ^ 16 ≤ 2 ^ places t := pow_le_pow_right₀ one_le_two (lastPlace_eq_places ht hlt).2
  have hpos : (0 : ℚ) < 2 ^ places t := by positivity
  have hslip : slip t = 0 ∨ slip t = 512 ∨ slip t = -512 := by
    simp only [slip]
    split_ifs <;> simp
  have hkeeps : KeepsHundredth t ↔ 0 ≤ slip t := by
    simp only [slip, KeepsHundredth]
    split_ifs <;> omega
  have hsmall : (512 : ℚ) / 2 ^ places t < 1 := (div_lt_one hpos).mpr (by linarith)
  have hnonneg : (0 : ℚ) < 512 / 2 ^ places t := by positivity
  rw [double_product hq ht hlt, Int.floor_eq_iff]
  obtain h | h | h := hslip
  · rw [if_pos (hkeeps.mpr h.ge), h]
    constructor <;> simp
  · rw [if_pos (hkeeps.mpr (by omega)), h]
    push_cast
    constructor <;> linarith
  · rw [if_neg (by rw [hkeeps]; omega), h]
    push_cast
    rw [neg_div]
    constructor <;> linarith

/-- The seconds are so close to the hundredths that two decimals show these. -/
theorem nearest_seconds (hq : t % 10 = 0) (hlt : t < 10 ^ 14) :
    nearest (double ((t : ℚ) / 1000) * 100) = (t / 10 : ℕ) := by
  obtain rfl | hpos := Nat.eq_zero_or_pos t
  · have hzero : nearest 0 = 0 := by exact_mod_cast nearest_intCast 0
    simp [hzero]
  obtain ⟨hplace, hplaces⟩ := lastPlace_eq_places hpos hlt
  have hnear := abs_sub_double_le ((t : ℚ) / 1000)
  have hunit : (2 : ℚ) ^ lastPlace ((t : ℚ) / 1000) ≤ 1 / 2 ^ 16 := by
    rw [hplace, zpow_neg, zpow_natCast, one_div]
    exact inv_anti₀ (by positivity) (pow_le_pow_right₀ one_le_two hplaces)
  have ht : (t : ℚ) / 1000 * 100 = (t / 10 : ℕ) := by
    have hten : ((10 * (t / 10) : ℕ) : ℚ) = t := by exact_mod_cast Nat.mul_div_cancel' (Nat.dvd_of_mod_eq_zero hq)
    push_cast at hten ⊢
    linarith
  refine nearest_of_abs_lt ?_
  rw [Int.cast_natCast, ← ht, ← sub_mul, abs_mul, abs_sub_comm]
  norm_num
  linarith

/-- A timestamp of less than fifteen digits leaves as the hundredths it has. -/
theorem timestampHeader_eq (hq : t % 10 = 0) (hlt : t < 10 ^ 14) : timestampHeader t = Py.hundredthsStr (t / 10) := by
  have hnonneg : ¬double ((t : ℚ) / 1000) < 0 := not_lt.mpr (double_nonneg (by positivity))
  rw [timestampHeader, Py.fixed2, if_neg hnonneg, nearest_seconds hq hlt, Int.natAbs_natCast, List.nil_append]

/-- The text denotes the seconds exactly. -/
theorem decimal_timestampHeader (hq : t % 10 = 0) (hlt : t < 10 ^ 14) :
    Py.decimal (timestampHeader t) = some ((t : ℚ) / 1000) := by
  have hten : ((10 * (t / 10) : ℕ) : ℚ) = t := by exact_mod_cast Nat.mul_div_cancel' (Nat.dvd_of_mod_eq_zero hq)
  rw [timestampHeader_eq hq hlt, Py.decimal_hundredthsStr, Option.some.injEq]
  push_cast at hten ⊢
  linarith

end Milliseconds

/-- A number that is neither negative nor too large is read as its milliseconds, rounded twice. -/
theorem parseTimestamp_eq_ok {raw : List Char} {number : ℚ} {m : ℕ} (hraw : Py.decimal raw = some number) :
    parseTimestamp raw = .ok m ↔
      (0 ≤ double number ∧ double number ≤ double ((2 ^ 64 - 1) / 1000)) ∧
        quantize ⌊double (double number * 1000)⌋.toNat = m := by
  simp only [parseTimestamp, hraw]
  split_ifs with hrange
  · obtain hlt | hlt := hrange
    · simp [hlt]
    · simp [hlt]
  · rw [not_or, not_lt, not_lt] at hrange
    simp [hrange]

/-- What comes back of a timestamp: itself, or a hundredth less. -/
theorem parseTimestamp_timestampHeader {t : ℕ} (hq : t % 10 = 0) (hlt : t < 10 ^ 14) :
    parseTimestamp (timestampHeader t) = .ok (if KeepsHundredth t then t else t - 10) := by
  have hsmall : (t : ℚ) / 1000 ≤ (2 ^ 64 - 1) / 1000 := by
    have hcast : (t : ℚ) < 10 ^ 14 := by exact_mod_cast hlt
    refine div_le_div_of_nonneg_right ?_ (by norm_num)
    linarith
  refine (parseTimestamp_eq_ok (decimal_timestampHeader hq hlt)).mpr
    ⟨⟨double_nonneg (by positivity), double_mono hsmall⟩, ?_⟩
  obtain rfl | hpos := Nat.eq_zero_or_pos t
  · simp [quantize]
  · rw [floor_product hq hpos hlt]
    split_ifs
    · rw [Int.toNat_natCast, quantize]
      omega
    · rw [quantize]
      omega

/-- Reading keeps the order of the numbers the texts denote. -/
theorem parseTimestamp_mono {a b : List Char} {x y : ℚ} {m n : ℕ} (hx : Py.decimal a = some x)
    (hy : Py.decimal b = some y) (hxy : x ≤ y) (hm : parseTimestamp a = .ok m) (hn : parseTimestamp b = .ok n) :
    m ≤ n := by
  obtain ⟨-, rfl⟩ := (parseTimestamp_eq_ok hx).mp hm
  obtain ⟨-, rfl⟩ := (parseTimestamp_eq_ok hy).mp hn
  have hproduct : double (double x * 1000) ≤ double (double y * 1000) :=
    double_mono (mul_le_mul_of_nonneg_right (double_mono hxy) (by norm_num))
  have hfloor := Int.toNat_le_toNat (Int.floor_mono hproduct)
  simp only [quantize]
  omega

/-- Where no hundredth is lost, the echo is read as it is over exact decimals. -/
theorem parseTimestamp_eq_exact {t : ℕ} (hq : t % 10 = 0) (hlt : t < 10 ^ 14) (hkeeps : KeepsHundredth t) :
    parseTimestamp (timestampHeader t) = SyncStorage.parseTimestamp (some (SyncStorage.timestampHeader t)) := by
  have hcast : (t : ℚ) < 10 ^ 14 := by exact_mod_cast hlt
  have hnonneg : (0 : ℚ) ≤ t := by positivity
  have hrange : ¬(SyncStorage.timestampHeader t < 0 ∨ (2 ^ 64 - 1) / 1000 < SyncStorage.timestampHeader t) := by
    simp only [SyncStorage.timestampHeader]
    rintro (h | h) <;> linarith
  have hexact : SyncStorage.timestampHeader t * 1000 = (t : ℚ) := by
    simp [SyncStorage.timestampHeader]
  have hfloor : (t : ℚ).floor = (t : ℤ) := by exact_mod_cast Rat.floor_intCast (t : ℤ)
  rw [parseTimestamp_timestampHeader hq hlt, if_pos hkeeps]
  simp only [SyncStorage.parseTimestamp, if_neg hrange, hexact, hfloor, Int.toNat_natCast, quantize, hq, Nat.sub_zero]

/-- A timestamp that is echoed compares equal exactly where no hundredth is lost, and texts are
read in the order of the numbers they denote. -/
theorem echo_equal_iff (t : ℕ) :
    (t % 10 = 0 → t < 10 ^ 14 → (parseTimestamp (timestampHeader t) = .ok t ↔ KeepsHundredth t)) ∧
      ∀ (a b : List Char) (x y : ℚ) (m n : ℕ), Py.decimal a = some x → Py.decimal b = some y → x ≤ y →
        parseTimestamp a = .ok m → parseTimestamp b = .ok n → m ≤ n := by
  refine ⟨fun hq hlt => ?_, fun a b x y m n => parseTimestamp_mono⟩
  rw [parseTimestamp_timestampHeader hq hlt, Except.ok.injEq]
  split_ifs with hkeeps
  · simp [hkeeps]
  · have hpos : 0 < t := by
      refine Nat.pos_of_ne_zero ?_
      rintro rfl
      exact hkeeps (Or.inr (Or.inl (by simp [scaled])))
    simp only [hkeeps, iff_false]
    omega

/-- From the nineteenth of January 2038 on, for some months, hundredths are lost. -/
theorem echo_in_2038 : parseTimestamp (timestampHeader 2147483648140) = .ok 2147483648130 := by
  decide +kernel

end FxaLite.SyncStorage.Rounded
