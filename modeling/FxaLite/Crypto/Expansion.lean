import FxaLite.Crypto.Hkdf
import Mathlib.Data.List.Zip

/-!
# The callers of the expansion

`tokens.py` seals a payload under a pad of its own length, so the bound on the length of a key is
one on the payload.
-/

namespace FxaLite.Crypto

open BlockStream

variable (h : Sha256)

/-- `NAMESPACE`. -/
def hkdfNamespace : String := "identity.mozilla.com/picl/v1/"

/-- `kw`. -/
def kw (name : String) : List UInt8 := utf8 (hkdfNamespace ++ name).toList

/-- `derive`. -/
def derive (ikm : List UInt8) (name : String) (salt : List UInt8) (length : ℕ) : Except ValueError (List UInt8) :=
  hkdfLoop h ikm (kw name) salt length

/-- `MAC_LENGTH`. -/
def bundleMacLength : ℕ := 32

/-- `xor`. -/
def xor (a b : List UInt8) : Except ValueError (List UInt8) :=
  if a.length ≠ b.length then .error (.xorLengths a.length b.length) else .ok (List.zipWith (· ^^^ ·) a b)

/-- `_bundle_keys`. -/
def bundleKeys (bundleKey : List UInt8) (keyInfo : String) (payloadSize : ℕ) :
    Except ValueError (List UInt8 × List UInt8) := do
  let km ← derive h bundleKey keyInfo [] (bundleMacLength + payloadSize)
  return (km.take bundleMacLength, km.drop bundleMacLength)

/-- `bundle`. -/
def bundle (bundleKey : List UInt8) (keyInfo : String) (payload : List UInt8) : Except ValueError (List UInt8) := do
  let (hmacKey, xorKey) ← bundleKeys h bundleKey keyInfo payload.length
  let ciphertext ← xor payload xorKey
  return ciphertext ++ h.hmac hmacKey ciphertext

/-- `payload[:-MAC_LENGTH]`. -/
def sealedPart (payload : List UInt8) : List UInt8 := payload.take (payload.length - bundleMacLength)

/-- `unbundle`. -/
def unbundle (bundleKey : List UInt8) (keyInfo : String) (payload : List UInt8) : Except ValueError (List UInt8) := do
  let ciphertext := sealedPart payload
  let expectedMac := payload.drop (payload.length - bundleMacLength)
  let (hmacKey, xorKey) ← bundleKeys h bundleKey keyInfo ciphertext.length
  if h.hmac hmacKey ciphertext ≠ expectedMac then .error .invalidSignature
  else xor ciphertext xorKey

variable {h}

/-! ### Bundles -/

/-- The keys of a bundle of a size that is covered. -/
theorem bundleKeys_of_le (h : Sha256) (bundleKey : List UInt8) (keyInfo : String) {size : ℕ} (hsize : size ≤ 8128) :
    ∃ hmacKey xorKey, bundleKeys h bundleKey keyInfo size = .ok (hmacKey, xorKey) ∧ xorKey.length = size := by
  have hlength : bundleMacLength + size ≤ 255 * hashLength := by
    simp only [bundleMacLength, hashLength]
    omega
  refine ⟨_, _, by rw [bundleKeys, derive, hkdfLoop_eq hlength]; rfl, ?_⟩
  rw [List.length_drop, length_hkdf, Nat.add_sub_cancel_left]

/-- A larger one is refused. -/
theorem bundleKeys_of_lt {bundleKey : List UInt8} {keyInfo : String} {size : ℕ} (hsize : 8128 < size) :
    bundleKeys h bundleKey keyInfo size = .error (.cannotDerive (bundleMacLength + size)) := by
  have hlength : 255 * hashLength < bundleMacLength + size := by
    simp only [bundleMacLength, hashLength]
    omega
  rw [bundleKeys, derive, hkdfLoop_of_lt hlength]
  rfl

/-- Sealing a payload whose size is covered. -/
theorem bundle_of_le (h : Sha256) (bundleKey : List UInt8) (keyInfo : String) {payload : List UInt8}
    (hsize : payload.length ≤ 8128) :
    ∃ hmacKey xorKey ciphertext, bundleKeys h bundleKey keyInfo payload.length = .ok (hmacKey, xorKey) ∧
      xor payload xorKey = .ok ciphertext ∧
      bundle h bundleKey keyInfo payload = .ok (ciphertext ++ h.hmac hmacKey ciphertext) := by
  obtain ⟨hmacKey, xorKey, hkeys, hlength⟩ := bundleKeys_of_le h bundleKey keyInfo hsize
  have hxor : xor payload xorKey = .ok (List.zipWith (· ^^^ ·) payload xorKey) := if_neg (not_not.mpr hlength.symm)
  refine ⟨hmacKey, xorKey, _, hkeys, hxor, ?_⟩
  simp only [bundle, hkeys, Fallible.ok_bind, hxor]
  rfl

/-- Opening one. -/
theorem unbundle_of_le (h : Sha256) (bundleKey : List UInt8) (keyInfo : String) {payload : List UInt8}
    (hsize : (sealedPart payload).length ≤ 8128) :
    ∃ hmacKey xorKey plaintext, bundleKeys h bundleKey keyInfo (sealedPart payload).length = .ok (hmacKey, xorKey) ∧
      xor (sealedPart payload) xorKey = .ok plaintext ∧
      unbundle h bundleKey keyInfo payload =
        if h.hmac hmacKey (sealedPart payload) ≠ payload.drop (payload.length - bundleMacLength) then .error .invalidSignature
        else .ok plaintext := by
  obtain ⟨hmacKey, xorKey, hkeys, hlength⟩ := bundleKeys_of_le h bundleKey keyInfo hsize
  have hxor : xor (sealedPart payload) xorKey = .ok (List.zipWith (· ^^^ ·) (sealedPart payload) xorKey) :=
    if_neg (not_not.mpr hlength.symm)
  refine ⟨hmacKey, xorKey, _, hkeys, hxor, ?_⟩
  simp only [unbundle, hkeys, Fallible.ok_bind, hxor]

/-- The loop of the expansion ends for every length: within the bound no counter is more than a
byte, the key has the length asked for, and a shorter one is its beginning; beyond the bound the
length is refused at once. So the keys of a bundle can be derived for a payload of 8128 bytes at
most, when it is sealed and when it is opened. -/
theorem hkdf_expansion (h : Sha256) :
    (∀ (ikm info salt : List UInt8) (length : ℕ), length ≤ 255 * hashLength →
      (∀ prk, ∃ final, (expansion h prk info).fill 255 length ⟨[], [], 1⟩ = some final ∧ final.counter - 1 ≤ 255) ∧
      ∃ out, hkdfLoop h ikm info salt length = .ok out ∧ out.length = length ∧
        ∀ longer ≤ 255 * hashLength, length ≤ longer →
          ∃ out', hkdfLoop h ikm info salt longer = .ok out' ∧ out <+: out') ∧
    (∀ (ikm info salt : List UInt8) (length : ℕ), 255 * hashLength < length →
      hkdfLoop h ikm info salt length = .error (.cannotDerive length)) ∧
    (∀ (bundleKey : List UInt8) (keyInfo : String) (payload : List UInt8),
      (payload.length ≤ 8128 →
        ∃ hmacKey xorKey ciphertext, bundleKeys h bundleKey keyInfo payload.length = .ok (hmacKey, xorKey) ∧
          xor payload xorKey = .ok ciphertext ∧
          bundle h bundleKey keyInfo payload = .ok (ciphertext ++ h.hmac hmacKey ciphertext)) ∧
      (8128 < payload.length →
        bundle h bundleKey keyInfo payload = .error (.cannotDerive (bundleMacLength + payload.length)))) ∧
    ∀ (bundleKey : List UInt8) (keyInfo : String) (payload : List UInt8),
      ((sealedPart payload).length ≤ 8128 →
        ∃ hmacKey xorKey plaintext, bundleKeys h bundleKey keyInfo (sealedPart payload).length = .ok (hmacKey, xorKey) ∧
          xor (sealedPart payload) xorKey = .ok plaintext ∧
          unbundle h bundleKey keyInfo payload =
            if h.hmac hmacKey (sealedPart payload) ≠ payload.drop (payload.length - bundleMacLength) then .error .invalidSignature
            else .ok plaintext) ∧
      (8128 < (sealedPart payload).length →
        unbundle h bundleKey keyInfo payload = .error (.cannotDerive (bundleMacLength + (sealedPart payload).length))) := by
  refine ⟨fun ikm info salt length hlength => ⟨fun prk => ?_, _, hkdfLoop_eq hlength, length_hkdf hlength, ?_⟩,
    fun ikm info salt length => hkdfLoop_of_lt,
    fun bundleKey keyInfo payload => ⟨bundle_of_le h bundleKey keyInfo, fun hsize => ?_⟩,
    fun bundleKey keyInfo payload => ⟨unbundle_of_le h bundleKey keyInfo, fun hsize => ?_⟩⟩
  · obtain ⟨final, hfill, hcounter, -⟩ := fill_expansion h prk info hlength
    exact ⟨final, hfill, by omega⟩
  · intro longer hlonger hle
    exact ⟨_, hkdfLoop_eq hlonger, Source.output_isPrefix _ hle 1 []⟩
  · rw [bundle, bundleKeys_of_lt hsize]
    rfl
  · rw [unbundle, bundleKeys_of_lt hsize]
    rfl

end FxaLite.Crypto
