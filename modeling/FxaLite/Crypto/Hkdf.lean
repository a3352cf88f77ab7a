import FxaLite.Lib.BlockStream
import FxaLite.Lib.Fallible

/-!
# Keyed hashes and key derivation

SHA-256 and HMAC are not opened: a development over them holds for every pair of functions with
digests of the right length. `hkdf.py` is built from them here as it is there, extract and then
expand, block by block, with a counter of one byte in each. Lengths that the counter would not cover
are refused, and for the others the key has a closed form. Every exception here is a `ValueError`.
-/

namespace FxaLite.Crypto

open BlockStream

/-- The bytes of a text in UTF-8. -/
def utf8 (s : List Char) : List UInt8 := s.flatMap String.utf8EncodeChar

/-- A character of ASCII. -/
def isAscii (c : Char) : Bool := c.toNat < 128

/-- The bytes of an ASCII text; `none` is a `UnicodeEncodeError`. -/
def ascii (s : List Char) : Option (List UInt8) :=
  if s.all isAscii then some (s.map fun c => UInt8.ofNat c.toNat) else none

/-- `HASH_LENGTH`: the size of a digest. -/
def hashLength : ℕ := 32

/-- A digest is not empty. -/
theorem hashLength_pos : 0 < hashLength := by decide

/-- One block is not too much for a key. -/
theorem hashLength_le : hashLength ≤ 255 * hashLength := by decide

/-- What is taken from `hashlib` and `hmac`. -/
structure Sha256 where
  sha256 : List UInt8 → List UInt8
  hmac : List UInt8 → List UInt8 → List UInt8
  length_sha256 : ∀ message, (sha256 message).length = hashLength
  length_hmac : ∀ key message, (hmac key message).length = hashLength

/-- A `ValueError`: for a length that is refused before anything is computed, from `bytes` for a
counter that is no byte, from `xor`, for a seed of the wrong length, from `bytes.fromhex`, or a
`BundleError`, for the signature or for the length of the keys. -/
inductive ValueError where
  | cannotDerive (length : ℕ)
  | byteRange
  | xorLengths (left right : ℕ)
  | seedLength (length : ℕ)
  | fromHex
  | invalidSignature
  | keysLength (length : ℕ)
  deriving DecidableEq, Repr

section Hkdf

variable (h : Sha256)

/-- The blocks of an expansion. -/
def expansion (prk info : List UInt8) : Source UInt8 where
  width := hashLength
  width_pos := hashLength_pos
  next counter block := h.hmac prk (block ++ info ++ [UInt8.ofNat counter])
  length_next _ _ := h.length_hmac _ _

/-- The extract of a secret. -/
def extract (salt ikm : List UInt8) : List UInt8 := h.hmac (if salt = [] then List.replicate hashLength 0 else salt) ikm

/-- `hkdf`, with its loop. -/
def hkdfLoop (ikm info salt : List UInt8) (length : ℕ) : Except ValueError (List UInt8) :=
  if 255 * hashLength < length then .error (.cannotDerive length)
  else
    match (expansion h (extract h salt ikm) info).fill 255 length ⟨[], [], 1⟩ with
    | none => .error .byteRange
    | some p => .ok (p.out.take length)

/-- Within the bound, every counter is a byte. -/
theorem fill_expansion (prk info : List UInt8) {length : ℕ} (hlength : length ≤ 255 * hashLength) :
    ∃ final, (expansion h prk info).fill 255 length ⟨[], [], 1⟩ = some final ∧ final.counter ≤ 256 ∧
      final.out = (expansion h prk info).blocks ((expansion h prk info).rounds length) 1 [] := by
  have hrounds : (expansion h prk info).rounds length ≤ 255 := (Source.rounds_le_iff _).mpr hlength
  refine ⟨(expansion h prk info).turn^[(expansion h prk info).rounds length] ⟨[], [], 1⟩, ?_, ?_, ?_⟩
  · rw [Source.fill_start, if_pos (Or.inr (by omega))]
  · rw [Source.counter_iterate_turn]
    exact Nat.add_le_add_left hrounds 1
  · exact Source.out_iterate_turn _ _ _

/-- What the loop comes to for a length that is not refused, in closed form: `hkdfLoop_eq` says that it does. -/
def hkdf (ikm info : List UInt8) (salt : List UInt8 := []) (length : ℕ := hashLength)
    (_ : length ≤ 255 * hashLength := by first | exact hashLength_le | decide) : List UInt8 :=
  (expansion h (extract h salt ikm) info).output length 1 []

variable {h} {ikm info salt : List UInt8} {length : ℕ}

/-- Within the bound, the loop gives the key. -/
theorem hkdfLoop_eq (hlength : length ≤ 255 * hashLength) :
    hkdfLoop h ikm info salt length = .ok (hkdf h ikm info salt length hlength) := by
  obtain ⟨final, hfill, -, hout⟩ := fill_expansion h (extract h salt ikm) info hlength
  simp only [hkdfLoop, if_neg (not_lt.mpr hlength), hfill, hout, hkdf, Source.output]

/-- Beyond it, nothing is computed. -/
theorem hkdfLoop_of_lt (hlength : 255 * hashLength < length) :
    hkdfLoop h ikm info salt length = .error (.cannotDerive length) :=
  if_pos hlength

/-- A key has the length that was asked for. -/
@[simp] theorem length_hkdf (hlength : length ≤ 255 * hashLength) : (hkdf h ikm info salt length hlength).length = length :=
  Source.length_output _ _ _ _

end Hkdf

/-- `hmac.compare_digest` of two strings; `none` is a `TypeError`, for what is not ASCII. -/
def compareDigest (a b : List Char) : Option Bool :=
  if a.all isAscii && b.all isAscii then some (a = b) else none

/-- An ASCII string is equal to itself. -/
theorem compareDigest_self {a : List Char} (h : a.all isAscii = true) : compareDigest a a = some true := by
  simp [compareDigest, h]

end FxaLite.Crypto
