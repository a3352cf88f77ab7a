import Mathlib.Data.List.Basic

/-!
# Hexadecimal text

`bytes.hex` and `bytes.fromhex`: two lower-case digits a byte are written; digits in either case
are read, and ASCII white space between bytes is passed over.
-/

namespace Hex

/-- A digit. -/
def digit (n : ℕ) : Char := if n < 10 then Char.ofNat (48 + n) else Char.ofNat (87 + n)

/-- The value of a digit in either case. -/
def nibble (c : Char) : Option ℕ :=
  let n := c.toNat
  if 48 ≤ n ∧ n ≤ 57 then some (n - 48)
  else if 97 ≤ n ∧ n ≤ 102 then some (n - 87)
  else if 65 ≤ n ∧ n ≤ 70 then some (n - 55)
  else none

/-- A digit in either case. -/
def isDigit (c : Char) : Bool := (nibble c).isSome

/-- The white space that is passed over. -/
def isSpace (c : Char) : Bool := c = ' ' || (9 ≤ c.toNat && c.toNat ≤ 13)

/-- `bytes.hex`. -/
def encode : List UInt8 → List Char
  | [] => []
  | byte :: rest => digit (byte.toNat / 16) :: digit (byte.toNat % 16) :: encode rest

/-- `bytes.fromhex`; `none` is a `ValueError`. -/
def decode : List Char → Option (List UInt8)
  | [] => some []
  | [c] => if isSpace c then some [] else none
  | c :: d :: rest =>
    if isSpace c then decode (d :: rest)
    else
      match nibble c, nibble d with
      | some high, some low => (decode rest).map (UInt8.ofNat (high * 16 + low) :: ·)
      | _, _ => none

/-- A digit that is written is read. -/
theorem nibble_digit {n : ℕ} (h : n < 16) : nibble (digit n) = some n := by
  have hall : ∀ m : Fin 16, nibble (digit m) = some m.val := by decide
  exact hall ⟨n, h⟩

/-- It is no white space. -/
theorem isSpace_digit {n : ℕ} (h : n < 16) : isSpace (digit n) = false := by
  have hall : ∀ m : Fin 16, isSpace (digit m) = false := by decide
  exact hall ⟨n, h⟩

/-- No digit is white space. -/
theorem isSpace_of_nibble {c : Char} {n : ℕ} (h : nibble c = some n) : isSpace c = false := by
  by_contra hspace
  simp only [isSpace, Bool.not_eq_false, Bool.or_eq_true, Bool.and_eq_true, decide_eq_true_eq] at hspace
  have hnone : nibble c = none := by
    obtain rfl | ⟨hlow, hhigh⟩ := hspace
    · rfl
    · unfold nibble
      rw [if_neg (by omega), if_neg (by omega), if_neg (by omega)]
  cases hnone.symm.trans h

/-- What is written is read. -/
@[simp] theorem decode_encode (bytes : List UInt8) : decode (encode bytes) = some bytes := by
  induction bytes with
  | nil => rfl
  | cons byte rest ih =>
    have hhigh : byte.toNat / 16 < 16 := by
      have hbyte := byte.toNat_lt
      omega
    have hlow : byte.toNat % 16 < 16 := Nat.mod_lt _ (by decide)
    have hbyte : byte.toNat / 16 * 16 + byte.toNat % 16 = byte.toNat := Nat.div_add_mod' _ _
    simp only [encode, decode, isSpace_digit hhigh, nibble_digit hhigh, nibble_digit hlow, ih, hbyte, UInt8.ofNat_toNat]
    rfl

/-- Two digits are written for every byte. -/
theorem length_encode (bytes : List UInt8) : (encode bytes).length = 2 * bytes.length := by
  induction bytes with
  | nil => rfl
  | cons byte rest ih =>
    rw [encode, List.length_cons, List.length_cons, ih, List.length_cons]
    omega

/-- Nothing else is written. -/
theorem exists_digit_of_mem {bytes : List UInt8} {c : Char} (hc : c ∈ encode bytes) : ∃ n < 16, c = digit n := by
  induction bytes with
  | nil => cases hc
  | cons byte rest ih =>
    have hbyte := byte.toNat_lt
    rw [encode, List.mem_cons, List.mem_cons] at hc
    obtain rfl | rfl | hrest := hc
    · exact ⟨_, by omega, rfl⟩
    · exact ⟨_, Nat.mod_lt _ (by decide), rfl⟩
    · exact ih hrest

end Hex
