import FxaLite.Lib.PyText
import FxaLite.Lib.Rounding

/-!
# Decimal numerals as Python reads and writes them

The number a text denotes before `float()` rounds it, and the two decimal places of a format such
as `.2f`. `float()` accepts what `int()` accepts of spaces, underscores and scripts, and a point and
an exponent besides; there is no limit on the number of digits.
-/

namespace Py

/-- Digits that may be missing altogether. -/
def optionalDigits (s : List Char) : Option ℕ := if s.isEmpty then some 0 else digitsFrom 0 false s

/-- The number of digits of a run, its underscores aside. -/
def digitCount (s : List Char) : ℕ := (s.filter (· ≠ '_')).length

/-- Digits around a point, on one side of it at least. -/
def significand (s : List Char) : Option ℚ :=
  let (whole, _, fraction) := partition '.' s
  if whole.isEmpty && fraction.isEmpty then none
  else do
    let wholeValue ← optionalDigits whole
    let fractionValue ← optionalDigits fraction
    some (wholeValue + fractionValue / 10 ^ digitCount fraction)

/-- The digits of an exponent, after a sign or without one. -/
def exponent : List Char → Option ℤ
  | '-' :: digits => (digitsFrom 0 false digits).map fun n => -(n : ℤ)
  | '+' :: digits => (digitsFrom 0 false digits).map fun n => (n : ℤ)
  | digits => (digitsFrom 0 false digits).map fun n => (n : ℤ)

/-- What stands before an exponent. -/
def isExponentMark (c : Char) : Bool := c = 'e' || c = 'E'

/-- A numeral without its sign. -/
def unsignedDecimal (s : List Char) : Option ℚ :=
  match s.dropWhile fun c => !isExponentMark c with
  | [] => significand s
  | _ :: digits => do
    let number ← significand (s.takeWhile fun c => !isExponentMark c)
    let power ← exponent digits
    some (number * 10 ^ power)

/-- The number that `float(text)` rounds; `none` is a `ValueError`, an infinity or a NaN. -/
def decimal (s : List Char) : Option ℚ :=
  match stripWhere isNumeralSpace s with
  | '-' :: digits => (unsignedDecimal digits).map (-·)
  | '+' :: digits => unsignedDecimal digits
  | digits => unsignedDecimal digits

/-- A number of hundredths, with a point and both decimals. -/
def hundredthsStr (n : ℕ) : List Char :=
  str (n / 100) ++ '.' :: [Nat.digitChar (n / 10 % 10), Nat.digitChar (n % 10)]

/-- `f"{x:.2f}"`. -/
def fixed2 (x : ℚ) : List Char :=
  (if x < 0 then ['-'] else []) ++ hundredthsStr (Rounding.nearest (x * 100)).natAbs

/-- A run of ASCII digits and its value. -/
theorem digitsFrom_of_isDigit {s : List Char} (hs : ∀ c ∈ s, c.isDigit = true) (hnil : s ≠ []) :
    digitsFrom 0 false s = some (Nat.ofDigitChars 10 s 0) := by
  cases s with
  | nil => exact absurd rfl hnil
  | cons c rest =>
    have hc : c.isDigit = true := hs c (by simp)
    have hne : c ≠ '_' := by rintro rfl; simp at hc
    rw [digitsFrom, if_neg hne, decimalDigit_of_isDigit hc, Nat.ofDigitChars_cons]
    exact digitsFrom_digits rest (fun d hd => hs d (by simp [hd])) _

/-- ASCII digits among the digits that may be missing. -/
theorem optionalDigits_of_isDigit {s : List Char} (hs : ∀ c ∈ s, c.isDigit = true) :
    optionalDigits s = some (Nat.ofDigitChars 10 s 0) := by
  cases s with
  | nil => simp [optionalDigits]
  | cons c rest => exact digitsFrom_of_isDigit hs (by simp)

/-- ASCII digits hold no underscore. -/
theorem digitCount_of_isDigit {s : List Char} (hs : ∀ c ∈ s, c.isDigit = true) : digitCount s = s.length := by
  rw [digitCount, filter_underscore_of_isDigit hs]

/-- The digits of the last two places. -/
theorem isDigit_of_mem_places {n : ℕ} {c : Char}
    (h : c ∈ [Nat.digitChar (n / 10 % 10), Nat.digitChar (n % 10)]) : c.isDigit = true := by
  simp only [List.mem_cons, List.not_mem_nil, or_false] at h
  obtain rfl | rfl := h <;> simp [Nat.isDigit_digitChar, Nat.mod_lt]

/-- Digits around a point. -/
theorem significand_point {whole fraction : List Char} (hwhole : ∀ c ∈ whole, c.isDigit = true) (hnil : whole ≠ [])
    (hfraction : ∀ c ∈ fraction, c.isDigit = true) :
    significand (whole ++ '.' :: fraction) =
      some ((Nat.ofDigitChars 10 whole 0 : ℚ) + (Nat.ofDigitChars 10 fraction 0 : ℚ) / 10 ^ fraction.length) := by
  have hpoint : '.' ∉ whole := fun hmem => absurd (hwhole '.' hmem) (by decide)
  have hempty : (whole.isEmpty && fraction.isEmpty) = false := by simp [hnil]
  simp only [significand, partition_append '.' whole fraction hpoint, hempty, Bool.false_eq_true, if_false,
    optionalDigits_of_isDigit hwhole, optionalDigits_of_isDigit hfraction, digitCount_of_isDigit hfraction]
  rfl

/-- What is written with two decimals is read as written. -/
theorem decimal_hundredthsStr (n : ℕ) : decimal (hundredthsStr n) = some ((n : ℚ) / 100) := by
  have hplaces := @isDigit_of_mem_places n
  have hwhole : ∀ c ∈ str (n / 100), c.isDigit = true := fun c hc => isDigit_of_mem_str hc
  have hmem : ∀ c ∈ hundredthsStr n, c.isDigit = true ∨ c = '.' := by
    intro c hc
    simp only [hundredthsStr, List.mem_append, List.mem_cons] at hc
    obtain hc | rfl | hc := hc
    · exact Or.inl (hwhole c hc)
    · exact Or.inr rfl
    · exact Or.inl (hplaces (by simpa using hc))
  have hstrip : stripWhere isNumeralSpace (hundredthsStr n) = hundredthsStr n := by
    refine stripWhere_isNumeralSpace fun c hc => ?_
    obtain hdigit | rfl := hmem c hc
    · exact not_isSpace_of_isDigit hdigit
    · decide
  have hsign : ∀ c, (c = '-' ∨ c = '+') → c ∉ hundredthsStr n := by
    rintro c (rfl | rfl) hc <;> obtain h | h := hmem _ hc <;> cases h
  have hmark : (hundredthsStr n).dropWhile (fun c => !isExponentMark c) = [] := by
    rw [List.dropWhile_eq_nil_iff]
    intro c hc
    obtain hdigit | rfl := hmem c hc
    · obtain ⟨hlow, hhigh⟩ := toNat_of_isDigit hdigit
      simp only [isExponentMark, Bool.not_eq_true', Bool.or_eq_false_iff, decide_eq_false_iff_not]
      constructor <;> rintro rfl <;> revert hhigh <;> decide
    · decide
  have hvalue : unsignedDecimal (hundredthsStr n) = some ((n : ℚ) / 100) := by
    have hfraction : Nat.ofDigitChars 10 [Nat.digitChar (n / 10 % 10), Nat.digitChar (n % 10)] 0 = n % 100 := by
      rw [Nat.ofDigitChars_cons_digitChar_of_lt_ten (Nat.mod_lt _ (by decide)),
        Nat.ofDigitChars_cons_digitChar_of_lt_ten (Nat.mod_lt _ (by decide)), Nat.ofDigitChars_nil]
      omega
    have hsplit : (n : ℚ) = (n / 100 : ℕ) * 100 + (n % 100 : ℕ) := by exact_mod_cast (Nat.div_add_mod' n 100).symm
    simp only [unsignedDecimal, hmark]
    rw [hundredthsStr, significand_point hwhole (Nat.toDigits_ne_nil) (fun c hc => hplaces hc), hfraction, str,
      Nat.ofDigitChars_ten_toDigits, hsplit]
    simp only [List.length_cons, List.length_nil]
    norm_num
    ring
  rw [decimal, hstrip]
  split
  · rename_i hcons
    exact absurd (by simp [hcons]) (hsign '-' (Or.inl rfl))
  · rename_i hcons
    exact absurd (by simp [hcons]) (hsign '+' (Or.inr rfl))
  · exact hvalue

end Py
