import Mathlib.Data.List.Basic
import Mathlib.Tactic.Linarith

/-!
# Strings of code points

A Python string is a list of code points, surrogates among them. UTF-8 has no form for a surrogate
on the way out; on the way in, the lenient decoder lets one pass. What can be written is read.
-/

/-- A string, as its code points. -/
abbrev Points := List ℕ

instance lawfulBEqPoints : LawfulBEq Points := List.instLawfulBEq

namespace Points

/-- The code points of a text. -/
def ofString (s : String) : Points := s.toList.map Char.toNat

/-- The text of a string that is ASCII. -/
def ascii? (s : Points) : Option (List Char) :=
  if s.all (· < 128) then some (s.map Char.ofNat) else none

/-- A code point of the surrogates. -/
def isSurrogate (n : ℕ) : Bool := 0xd800 ≤ n && n < 0xe000

/-- A code point that has a form in UTF-8. -/
def isScalar (n : ℕ) : Bool := n < 0x110000 && !isSurrogate n

/-- The form of a code point in UTF-8. -/
def encodePoint (n : ℕ) : List UInt8 :=
  if n < 0x80 then [UInt8.ofNat n]
  else if n < 0x800 then [UInt8.ofNat (0xc0 + n / 64), UInt8.ofNat (0x80 + n % 64)]
  else if n < 0x10000 then
    [UInt8.ofNat (0xe0 + n / 4096), UInt8.ofNat (0x80 + n / 64 % 64), UInt8.ofNat (0x80 + n % 64)]
  else
    [UInt8.ofNat (0xf0 + n / 262144), UInt8.ofNat (0x80 + n / 4096 % 64), UInt8.ofNat (0x80 + n / 64 % 64),
      UInt8.ofNat (0x80 + n % 64)]

/-- `str.encode()`; `none` is a `UnicodeEncodeError`. -/
def encode (s : Points) : Option (List UInt8) :=
  if s.all isScalar then some (s.flatMap encodePoint) else none

/-- A byte that continues a code point. -/
def isTail (b : UInt8) : Bool := 0x80 ≤ b.toNat && b.toNat < 0xc0

/-- `bytes.decode("utf-8", "surrogatepass")`; `none` is a `UnicodeDecodeError`. -/
def decode : List UInt8 → Option Points
  | [] => some []
  | a :: rest =>
    if a.toNat < 0x80 then (decode rest).map (a.toNat :: ·)
    else
      match rest with
      | [] => none
      | b :: rest =>
        if !isTail b then none
        else if 0xc2 ≤ a.toNat ∧ a.toNat < 0xe0 then
          (decode rest).map (((a.toNat - 0xc0) * 64 + (b.toNat - 0x80)) :: ·)
        else
          match rest with
          | [] => none
          | c :: rest =>
            if !isTail c then none
            else if 0xe0 ≤ a.toNat ∧ a.toNat < 0xf0 then
              let n := (a.toNat - 0xe0) * 4096 + (b.toNat - 0x80) * 64 + (c.toNat - 0x80)
              if n < 0x800 then none else (decode rest).map (n :: ·)
            else
              match rest with
              | [] => none
              | d :: rest =>
                if !isTail d then none
                else if 0xf0 ≤ a.toNat ∧ a.toNat < 0xf5 then
                  let n := (a.toNat - 0xf0) * 262144 + (b.toNat - 0x80) * 4096 + (c.toNat - 0x80) * 64 + (d.toNat - 0x80)
                  if n < 0x10000 ∨ 0x110000 ≤ n then none else (decode rest).map (n :: ·)
                else none

/-! ### What is written is read -/

/-- A continuation byte. -/
theorem toNat_tail (n : ℕ) : (UInt8.ofNat (0x80 + n % 64)).toNat = 0x80 + n % 64 := by
  rw [UInt8.toNat_ofNat']
  omega

/-- It continues. -/
theorem isTail_tail (n : ℕ) : isTail (UInt8.ofNat (0x80 + n % 64)) = true := by
  rw [isTail, toNat_tail]
  simp only [Bool.and_eq_true, decide_eq_true_eq]
  omega

/-- Reading the form of one code point. -/
theorem decode_encodePoint_append {n : ℕ} (h : n < 0x110000) (rest : List UInt8) :
    decode (encodePoint n ++ rest) = (decode rest).map (n :: ·) := by
  unfold encodePoint
  split
  · rename_i hone
    have hnat : (UInt8.ofNat n).toNat = n := by
      rw [UInt8.toNat_ofNat']
      omega
    rw [List.cons_append, List.nil_append, decode.eq_def]
    simp only [hnat, if_pos hone]
  · rename_i hone
    split
    · rename_i htwo
      have hlead : (UInt8.ofNat (0xc0 + n / 64)).toNat = 0xc0 + n / 64 := by
        rw [UInt8.toNat_ofNat']
        omega
      have hrange : 0xc2 ≤ 0xc0 + n / 64 ∧ 0xc0 + n / 64 < 0xe0 := by omega
      have hvalue : (0xc0 + n / 64 - 0xc0) * 64 + (0x80 + n % 64 - 0x80) = n := by omega
      rw [List.cons_append, decode.eq_def]
      simp only [List.cons_append, List.nil_append, hlead, toNat_tail, isTail_tail, Bool.not_true,
        Bool.false_eq_true, if_false, if_pos hrange, hvalue]
      rw [if_neg (by omega)]
    · rename_i htwo
      split
      · rename_i hthree
        have hlead : (UInt8.ofNat (0xe0 + n / 4096)).toNat = 0xe0 + n / 4096 := by
          rw [UInt8.toNat_ofNat']
          omega
        have hnot : ¬(0xc2 ≤ 0xe0 + n / 4096 ∧ 0xe0 + n / 4096 < 0xe0) := by omega
        have hrange : 0xe0 ≤ 0xe0 + n / 4096 ∧ 0xe0 + n / 4096 < 0xf0 := by omega
        have hvalue : (0xe0 + n / 4096 - 0xe0) * 4096 + (0x80 + n / 64 % 64 - 0x80) * 64 + (0x80 + n % 64 - 0x80) = n := by
          omega
        rw [List.cons_append, decode.eq_def]
        simp only [List.cons_append, List.nil_append, hlead, toNat_tail, isTail_tail, Bool.not_true,
          Bool.false_eq_true, if_false, if_neg hnot, if_pos hrange, hvalue, if_neg htwo]
        rw [if_neg (by omega)]
      · rename_i hthree
        have hlead : (UInt8.ofNat (0xf0 + n / 262144)).toNat = 0xf0 + n / 262144 := by
          rw [UInt8.toNat_ofNat']
          omega
        have htwo' : ¬(0xc2 ≤ 0xf0 + n / 262144 ∧ 0xf0 + n / 262144 < 0xe0) := by omega
        have hthree' : ¬(0xe0 ≤ 0xf0 + n / 262144 ∧ 0xf0 + n / 262144 < 0xf0) := by omega
        have hrange : 0xf0 ≤ 0xf0 + n / 262144 ∧ 0xf0 + n / 262144 < 0xf5 := by omega
        have hvalue : (0xf0 + n / 262144 - 0xf0) * 262144 + (0x80 + n / 4096 % 64 - 0x80) * 4096 +
            (0x80 + n / 64 % 64 - 0x80) * 64 + (0x80 + n % 64 - 0x80) = n := by
          omega
        have hbounds : ¬(n < 0x10000 ∨ 0x110000 ≤ n) := by omega
        rw [List.cons_append, decode.eq_def]
        simp only [List.cons_append, List.nil_append, hlead, toNat_tail, isTail_tail, Bool.not_true,
          Bool.false_eq_true, if_false, if_neg htwo', if_neg hthree', if_pos hrange, hvalue, if_neg hbounds]
        rw [if_neg (by omega)]

/-- What can be written is read. -/
theorem decode_of_encode {s : Points} {bytes : List UInt8} (h : encode s = some bytes) : decode bytes = some s := by
  unfold encode at h
  split at h
  · rename_i hscalar
    cases h
    induction s with
    | nil => rfl
    | cons n rest ih =>
      simp only [List.all_cons, Bool.and_eq_true] at hscalar
      have hn : n < 0x110000 := by
        have hfirst := hscalar.1
        simp only [isScalar, Bool.and_eq_true, decide_eq_true_eq] at hfirst
        exact hfirst.1
      rw [List.flatMap_cons, decode_encodePoint_append hn, ih hscalar.2]
      rfl
  · cases h

/-- A text has no surrogates. -/
theorem isScalar_toNat (c : Char) : isScalar c.toNat = true := by
  have hvalid := c.valid
  simp only [UInt32.isValidChar, Nat.isValidChar] at hvalid
  simp only [isScalar, isSurrogate, Bool.and_eq_true, Bool.not_eq_true', decide_eq_true_eq, Bool.and_eq_false_iff,
    decide_eq_false_iff_not, Char.toNat]
  omega

/-- A text of Unicode; `none` if there is a surrogate in it. -/
def text? (s : Points) : Option (List Char) := if s.all isScalar then some (s.map Char.ofNat) else none

/-- The code points of a text are read back. -/
@[simp] theorem text?_map_toNat (s : List Char) : text? (s.map Char.toNat) = some s := by
  have hall : (s.map Char.toNat).all isScalar = true := by
    rw [List.all_map]
    exact List.all_eq_true.mpr fun c _ => isScalar_toNat c
  rw [text?, if_pos hall, List.map_map]
  congr 1
  exact (List.map_congr_left fun c _ => Char.ofNat_toNat c).trans (List.map_id _)

/-- The code points of ASCII are read back. -/
theorem ascii?_map_toNat {s : List Char} (h : ∀ c ∈ s, c.toNat < 128) : ascii? (s.map Char.toNat) = some s := by
  have hall : (s.map Char.toNat).all (· < 128) = true := by simpa using h
  rw [ascii?, if_pos hall, List.map_map]
  congr 1
  exact (List.map_congr_left fun c _ => Char.ofNat_toNat c).trans (List.map_id _)

end Points

namespace Py

/-- The characters a string may be made of. To the methods of `str` a lone surrogate is no letter, no digit, no
white space and no punctuation; no encoding has a form for it. -/
class StrChar (χ : Type) where
  /-- The character that the methods of `str` take it for. -/
  seen : χ → Char
  /-- The text of a string; `none` if there is a lone surrogate in it. -/
  text? : List χ → Option (List Char)

/-- The characters of Unicode. -/
instance charStrChar : StrChar Char := ⟨id, some⟩

/-- Code points; a lone surrogate passes for a NUL. -/
instance pointStrChar : StrChar ℕ := ⟨Char.ofNat, Points.text?⟩

/-- A character is seen as it is. -/
@[simp] theorem seen_char (c : Char) : StrChar.seen c = c := rfl

/-- So are those of a string. -/
@[simp] theorem map_seen_char (s : List Char) : s.map StrChar.seen = s := List.map_id s

/-- There is no surrogate among characters. -/
@[simp] theorem text?_char (s : List Char) : StrChar.text? s = some s := rfl

end Py
