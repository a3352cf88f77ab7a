import Mathlib.Data.List.Basic
import Mathlib.Algebra.Order.Group.Nat

/-!
# Base64 as the standard library writes and reads it

`b64encode` with its padding, and the lenient decoder behind `b64decode`: characters outside the
alphabet are passed over, and a complete pad ends the text. Where the text is validated, nothing is
passed over. The URL-safe variants exchange two characters on the way out and on the way in. What is
encoded is decoded, in both alphabets and by both decoders.
-/

namespace Base64

/-- The character of six bits. -/
def digit (n : ℕ) : Char :=
  if n < 26 then Char.ofNat (65 + n)
  else if n < 52 then Char.ofNat (71 + n)
  else if n < 62 then Char.ofNat (n - 4)
  else if n = 62 then '+' else '/'

/-- The six bits of a character of the alphabet. -/
def sextet (c : Char) : Option ℕ :=
  let n := c.toNat
  if 65 ≤ n ∧ n ≤ 90 then some (n - 65)
  else if 97 ≤ n ∧ n ≤ 122 then some (n - 71)
  else if 48 ≤ n ∧ n ≤ 57 then some (n + 4)
  else if c = '+' then some 62
  else if c = '/' then some 63
  else none

/-- `b64encode`. -/
def encode : List UInt8 → List Char
  | a :: b :: c :: rest =>
    digit (a.toNat / 4) :: digit (a.toNat % 4 * 16 + b.toNat / 16) :: digit (b.toNat % 16 * 4 + c.toNat / 64) ::
      digit (c.toNat % 64) :: encode rest
  | [a, b] => [digit (a.toNat / 4), digit (a.toNat % 4 * 16 + b.toNat / 16), digit (b.toNat % 16 * 4), '=']
  | [a] => [digit (a.toNat / 4), digit (a.toNat % 4 * 16), '=', '=']
  | [] => []

/-- `a2b_base64`, from the state in which the text so far has left it: how many characters of a
group are read, the bits they have left over, and the pads since. -/
def decodeFrom (position leftover pads : ℕ) : List Char → Option (List UInt8)
  | [] => if position = 0 then some [] else none
  | c :: rest =>
    if c = '=' then
      if 2 ≤ position then
        if 4 ≤ position + pads + 1 then some [] else decodeFrom position leftover (pads + 1) rest
      else decodeFrom position leftover pads rest
    else
      match sextet c with
      | none => decodeFrom position leftover pads rest
      | some bits =>
        match position with
        | 0 => decodeFrom 1 bits 0 rest
        | 1 => (decodeFrom 2 (bits % 16) 0 rest).map (UInt8.ofNat (leftover * 4 + bits / 16) :: ·)
        | 2 => (decodeFrom 3 (bits % 4) 0 rest).map (UInt8.ofNat (leftover * 16 + bits / 4) :: ·)
        | _ => (decodeFrom 0 0 0 rest).map (UInt8.ofNat (leftover * 64 + bits) :: ·)

/-- `b64decode` of a string; what is not ASCII is refused. -/
def decode (text : List Char) : Option (List UInt8) :=
  if text.all (·.toNat < 128) then decodeFrom 0 0 0 text else none

/-- `b64decode` of a string with `validate`: whole groups of the alphabet, of which only the last may be padded. Behind
a whole group more pads are read over. -/
def decodeStrict : List Char → Option (List UInt8)
  | [] => some []
  | [a, b, '=', '='] => do
    let a ← sextet a
    let b ← sextet b
    some [UInt8.ofNat (a * 4 + b / 16)]
  | [a, b, c, '='] => do
    let a ← sextet a
    let b ← sextet b
    let c ← sextet c
    some [UInt8.ofNat (a * 4 + b / 16), UInt8.ofNat (b % 16 * 16 + c / 4)]
  | a :: b :: c :: d :: rest => do
    let a ← sextet a
    let b ← sextet b
    let c ← sextet c
    let d ← sextet d
    let rest ← if rest.all (· = '=') then some [] else decodeStrict rest
    some (UInt8.ofNat (a * 4 + b / 16) :: UInt8.ofNat (b % 16 * 16 + c / 4) :: UInt8.ofNat (c % 4 * 64 + d) :: rest)
  | _ => none

/-- The two characters that URLs cannot take. -/
def toUrlsafe (c : Char) : Char := if c = '+' then '-' else if c = '/' then '_' else c

/-- The characters that stand for them. -/
def fromUrlsafe (c : Char) : Char := if c = '-' then '+' else if c = '_' then '/' else c

/-- `urlsafe_b64encode`. -/
def urlsafeEncode (bytes : List UInt8) : List Char := (encode bytes).map toUrlsafe

/-- `urlsafe_b64decode`. -/
def urlsafeDecode (text : List Char) : Option (List UInt8) := decode (text.map fromUrlsafe)

/-! ### What is encoded is decoded -/

/-- The characters of the alphabet. -/
def isDigit (c : Char) : Bool := (sextet c).isSome

/-- Six bits are read as they were written. -/
theorem sextet_digit {n : ℕ} (h : n < 64) : sextet (digit n) = some n := by
  have hall : ∀ n < 64, sextet (digit n) = some n := by decide
  exact hall n h

/-- No character stands for more. -/
theorem sextet_lt {c : Char} {n : ℕ} (h : sextet c = some n) : n < 64 := by
  simp only [sextet] at h
  split_ifs at h <;> simp only [Option.some.injEq] at h <;> omega

/-- A character of the alphabet is no pad. -/
theorem digit_ne_pad {n : ℕ} (h : n < 64) : digit n ≠ '=' := by
  have hall : ∀ n < 64, digit n ≠ '=' := by decide
  exact hall n h

section RoundTrip

variable {leftover pads n : ℕ} {rest : List Char} {a b : UInt8}

/-- Reading the first character of a group. -/
theorem decodeFrom_zero (h : n < 64) : decodeFrom 0 leftover pads (digit n :: rest) = decodeFrom 1 n 0 rest := by
  rw [decodeFrom, if_neg (digit_ne_pad h), sextet_digit h]
  rfl

/-- Reading the second character completes a byte. -/
theorem decodeFrom_one (h : n < 64) (ha : leftover * 4 + n / 16 = a.toNat) :
    decodeFrom 1 leftover pads (digit n :: rest) = (decodeFrom 2 (n % 16) 0 rest).map (a :: ·) := by
  rw [decodeFrom, if_neg (digit_ne_pad h), sextet_digit h]
  simp only [ha, UInt8.ofNat_toNat]

/-- So does reading the third. -/
theorem decodeFrom_two (h : n < 64) (ha : leftover * 16 + n / 4 = a.toNat) :
    decodeFrom 2 leftover pads (digit n :: rest) = (decodeFrom 3 (n % 4) 0 rest).map (a :: ·) := by
  rw [decodeFrom, if_neg (digit_ne_pad h), sextet_digit h]
  simp only [ha, UInt8.ofNat_toNat]

/-- And the fourth, which ends the group. -/
theorem decodeFrom_three (h : n < 64) (ha : leftover * 64 + n = a.toNat) :
    decodeFrom 3 leftover pads (digit n :: rest) = (decodeFrom 0 0 0 rest).map (a :: ·) := by
  rw [decodeFrom, if_neg (digit_ne_pad h), sextet_digit h]
  simp only [ha, UInt8.ofNat_toNat]

end RoundTrip

/-- The decoder undoes the encoder. -/
theorem decodeFrom_encode (bytes : List UInt8) : decodeFrom 0 0 0 (encode bytes) = some bytes := by
  induction bytes using encode.induct with
  | case1 a b c rest ih =>
    have ha := a.toNat_lt
    have hb := b.toNat_lt
    have hc := c.toNat_lt
    rw [encode, decodeFrom_zero (by omega), decodeFrom_one (a := a) (by omega) (by omega),
      decodeFrom_two (a := b) (by omega) (by omega), decodeFrom_three (a := c) (by omega) (by omega), ih]
    rfl
  | case2 a b =>
    have ha := a.toNat_lt
    have hb := b.toNat_lt
    rw [encode, decodeFrom_zero (by omega), decodeFrom_one (a := a) (by omega) (by omega),
      decodeFrom_two (a := b) (by omega) (by omega)]
    rfl
  | case3 a =>
    have ha := a.toNat_lt
    rw [encode, decodeFrom_zero (by omega), decodeFrom_one (a := a) (by omega) (by omega)]
    rfl
  | case4 => rfl

/-- Only nothing at all is written in pads alone. -/
theorem eq_nil_of_all_pads {bytes : List UInt8} (h : (encode bytes).all (· = '=') = true) : bytes = [] := by
  have hdigit : ∀ {n : ℕ} {rest : List Char}, n < 64 → (digit n :: rest).all (· = '=') = true → False := by
    intro n rest hn hall
    rw [List.all_cons, Bool.and_eq_true, decide_eq_true_eq] at hall
    exact digit_ne_pad hn hall.1
  induction bytes using encode.induct with
  | case1 a b c rest ih =>
    have ha := a.toNat_lt
    exact (hdigit (by omega) h).elim
  | case2 a b =>
    have ha := a.toNat_lt
    exact (hdigit (by omega) h).elim
  | case3 a =>
    have ha := a.toNat_lt
    exact (hdigit (by omega) h).elim
  | case4 => rfl

/-- The strict decoder undoes it too. -/
theorem decodeStrict_encode (bytes : List UInt8) : decodeStrict (encode bytes) = some bytes := by
  have hbyte : ∀ {n : ℕ} {byte : UInt8}, n = byte.toNat → UInt8.ofNat n = byte := by
    rintro n byte rfl
    exact UInt8.ofNat_toNat
  induction bytes using encode.induct with
  | case1 a b c rest ih =>
    have ha := a.toNat_lt
    have hb := b.toNat_lt
    have hc := c.toNat_lt
    have hpad : digit (c.toNat % 64) ≠ '=' := digit_ne_pad (by omega)
    rw [encode, decodeStrict]
    · simp only [sextet_digit (show a.toNat / 4 < 64 by omega), sextet_digit (show a.toNat % 4 * 16 + b.toNat / 16 < 64 by omega),
        sextet_digit (show b.toNat % 16 * 4 + c.toNat / 64 < 64 by omega), sextet_digit (show c.toNat % 64 < 64 by omega),
        Option.bind_eq_bind, Option.bind_some]
      rw [@hbyte _ a (by omega), @hbyte _ b (by omega), @hbyte _ c (by omega)]
      split
      · rename_i hall
        rw [eq_nil_of_all_pads hall]
      · rw [ih, Option.bind_some]
    · exact fun _ hd _ => hpad hd
    · exact fun hd _ => hpad hd
  | case2 a b =>
    have ha := a.toNat_lt
    have hb := b.toNat_lt
    have hpad : digit (b.toNat % 16 * 4) ≠ '=' := digit_ne_pad (by omega)
    rw [encode, decodeStrict]
    · simp only [sextet_digit (show a.toNat / 4 < 64 by omega), sextet_digit (show a.toNat % 4 * 16 + b.toNat / 16 < 64 by omega),
        sextet_digit (show b.toNat % 16 * 4 < 64 by omega), Option.bind_eq_bind, Option.bind_some]
      rw [@hbyte _ a (by omega), @hbyte _ b (by omega)]
    · exact hpad
  | case3 a =>
    have ha := a.toNat_lt
    simp only [encode, decodeStrict, sextet_digit (show a.toNat / 4 < 64 by omega),
      sextet_digit (show a.toNat % 4 * 16 < 64 by omega), Option.bind_eq_bind, Option.bind_some]
    rw [@hbyte _ a (by omega)]
  | case4 => rfl

/-- The encoder writes characters of the alphabet, and then two pads at most. -/
theorem encode_eq_append (bytes : List UInt8) : ∃ body pads, encode bytes = body ++ List.replicate pads '=' ∧
    (∀ c ∈ body, ∃ n < 64, c = digit n) ∧ pads ≤ 2 := by
  induction bytes using encode.induct with
  | case1 a b c rest ih =>
    obtain ⟨body, pads, heq, hbody, hpads⟩ := ih
    have ha := a.toNat_lt
    have hb := b.toNat_lt
    have hc := c.toNat_lt
    refine ⟨_ :: _ :: _ :: _ :: body, pads, by rw [encode, heq]; rfl, ?_, hpads⟩
    simp only [List.mem_cons]
    rintro c (rfl | rfl | rfl | rfl | hmem)
    · exact ⟨_, by omega, rfl⟩
    · exact ⟨_, by omega, rfl⟩
    · exact ⟨_, by omega, rfl⟩
    · exact ⟨_, by omega, rfl⟩
    · exact hbody c hmem
  | case2 a b =>
    have ha := a.toNat_lt
    have hb := b.toNat_lt
    refine ⟨[_, _, _], 1, rfl, ?_, by omega⟩
    simp only [List.mem_cons, List.not_mem_nil, or_false]
    rintro c (rfl | rfl | rfl)
    · exact ⟨_, by omega, rfl⟩
    · exact ⟨_, by omega, rfl⟩
    · exact ⟨_, by omega, rfl⟩
  | case3 a =>
    have ha := a.toNat_lt
    refine ⟨[_, _], 2, rfl, ?_, le_rfl⟩
    simp only [List.mem_cons, List.not_mem_nil, or_false]
    rintro c (rfl | rfl)
    · exact ⟨_, by omega, rfl⟩
    · exact ⟨_, by omega, rfl⟩
  | case4 => exact ⟨[], 0, rfl, by simp, Nat.zero_le _⟩

/-- The encoder writes characters of the alphabet and pads. -/
theorem mem_encode {bytes : List UInt8} {c : Char} (h : c ∈ encode bytes) : (∃ n < 64, c = digit n) ∨ c = '=' := by
  obtain ⟨body, pads, heq, hbody, -⟩ := encode_eq_append bytes
  rw [heq] at h
  obtain h | h := List.mem_append.mp h
  · exact Or.inl (hbody c h)
  · exact Or.inr (List.eq_of_mem_replicate h)

/-- A character that stands in a header between quotes: ASCII, and neither a quote nor a backslash. -/
def isPlain (c : Char) : Bool := c.toNat < 128 && c ≠ '"' && c ≠ '\\'

/-- What is encoded can stand between quotes. -/
theorem isPlain_encode {bytes : List UInt8} {c : Char} (h : c ∈ encode bytes) :
    isPlain c = true ∧ isPlain (toUrlsafe c) = true ∧ fromUrlsafe (toUrlsafe c) = c := by
  have hall : ∀ n < 64, isPlain (digit n) = true ∧ isPlain (toUrlsafe (digit n)) = true ∧
      fromUrlsafe (toUrlsafe (digit n)) = digit n := by decide
  obtain ⟨n, hn, rfl⟩ | rfl := mem_encode h
  · exact hall n hn
  · decide

/-- A group of four characters for every three bytes. -/
theorem length_encode (bytes : List UInt8) : (encode bytes).length = (bytes.length + 2) / 3 * 4 := by
  induction bytes using encode.induct with
  | case1 a b c rest ih =>
    simp only [encode, List.length_cons, ih]
    omega
  | case2 a b => simp [encode]
  | case3 a => simp [encode]
  | case4 => rfl

/-- The encoder writes whole groups. -/
theorem length_encode_mod (bytes : List UInt8) : (encode bytes).length % 4 = 0 := by
  rw [length_encode]
  exact Nat.mul_mod_left _ 4

/-- What is encoded is decoded. -/
theorem decode_encode (bytes : List UInt8) : decode (encode bytes) = some bytes := by
  have hascii : (encode bytes).all (·.toNat < 128) = true := by
    refine List.all_eq_true.mpr fun c hc => ?_
    have hplain := (isPlain_encode hc).1
    simp only [isPlain, Bool.and_eq_true] at hplain
    exact hplain.1.1
  rw [decode, if_pos hascii, decodeFrom_encode]

/-- What is encoded for URLs is decoded. -/
theorem urlsafeDecode_urlsafeEncode (bytes : List UInt8) : urlsafeDecode (urlsafeEncode bytes) = some bytes := by
  have hback : (urlsafeEncode bytes).map fromUrlsafe = encode bytes := by
    rw [urlsafeEncode, List.map_map]
    exact (List.map_congr_left fun c hc => (isPlain_encode hc).2.2).trans (List.map_id _)
  rw [urlsafeDecode, hback, decode_encode]

/-- Every byte takes a character. -/
theorem length_le_of_decodeFrom {position leftover pads : ℕ} {text : List Char} {bytes : List UInt8}
    (h : decodeFrom position leftover pads text = some bytes) : bytes.length ≤ text.length := by
  induction text generalizing position leftover pads bytes with
  | nil =>
    rw [decodeFrom] at h
    split at h
    · cases h
      exact le_rfl
    · cases h
  | cons c rest ih =>
    have hlater : ∀ {position leftover pads : ℕ}, decodeFrom position leftover pads rest = some bytes →
        bytes.length ≤ (c :: rest).length := fun hrest => (ih hrest).trans (Nat.le_succ _)
    have hbyte : ∀ {position leftover pads : ℕ} {byte : UInt8},
        (decodeFrom position leftover pads rest).map (byte :: ·) = some bytes → bytes.length ≤ (c :: rest).length := by
      intro position leftover pads byte hrest
      obtain ⟨tail, htail, rfl⟩ := Option.map_eq_some_iff.mp hrest
      exact Nat.succ_le_succ (ih htail)
    rw [decodeFrom] at h
    split at h
    · split at h
      · split at h
        · cases h
          exact Nat.zero_le _
        · exact hlater h
      · exact hlater h
    · split at h
      · exact hlater h
      · split at h
        · exact hlater h
        · exact hbyte h
        · exact hbyte h
        · exact hbyte h

/-- A text is at least as long as what it decodes to. -/
theorem length_le_of_urlsafeDecode {text : List Char} {bytes : List UInt8} (h : urlsafeDecode text = some bytes) :
    bytes.length ≤ text.length := by
  unfold urlsafeDecode decode at h
  split at h
  · simpa using length_le_of_decodeFrom h
  · cases h

end Base64
