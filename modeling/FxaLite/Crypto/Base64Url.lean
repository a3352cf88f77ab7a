import FxaLite.Lib.Base64
import Mathlib.Data.List.TakeWhile
import Mathlib.Tactic.Ring

/-!
# base64url as `jose.py` writes and reads it

No padding on the way out, any or none on the way in, and nothing outside the alphabet. What is
written is read, for every string of bytes.
-/

namespace FxaLite.Crypto

/-- The alphabet of `_BASE64URL`. -/
def inAlphabet (c : Char) : Bool := c.isAlphanum || c = '_' || c = '-'

/-- `_BASE64URL.fullmatch`. -/
def isBase64url (data : List Char) : Bool :=
  let pads := data.dropWhile inAlphabet
  pads.length ≤ 2 && pads.all (· = '=')

/-- `"=" * (-len(data) % 4)`. -/
def missingPads (data : List Char) : List Char := List.replicate ((-(data.length : ℤ)) % 4).toNat '='

/-- `b64u_encode`. -/
def b64uEncode (data : List UInt8) : List Char :=
  ((Base64.urlsafeEncode data).reverse.dropWhile (· = '=')).reverse

/-- `b64u_decode`; `none` is a `ValueError`. -/
def b64uDecode (data : List Char) : Option (List UInt8) :=
  if isBase64url data then Base64.urlsafeDecode (data ++ missingPads data) else none

/-- The characters that are written for six bits. -/
theorem inAlphabet_digit {n : ℕ} (h : n < 64) :
    inAlphabet (Base64.toUrlsafe (Base64.digit n)) = true ∧ Base64.toUrlsafe (Base64.digit n) ≠ '=' := by
  have hall : ∀ n < 64, inAlphabet (Base64.toUrlsafe (Base64.digit n)) = true ∧ Base64.toUrlsafe (Base64.digit n) ≠ '=' := by
    decide
  exact hall n h

/-- What is written is what the standard encoder writes, without its pads. -/
theorem urlsafeEncode_eq_append (data : List UInt8) :
    ∃ pads ≤ 2, Base64.urlsafeEncode data = b64uEncode data ++ List.replicate pads '=' ∧
      ∀ c ∈ b64uEncode data, inAlphabet c = true := by
  obtain ⟨body, pads, heq, hbody, hpads⟩ := Base64.encode_eq_append data
  have hurlsafe : Base64.urlsafeEncode data = body.map Base64.toUrlsafe ++ List.replicate pads '=' := by
    rw [Base64.urlsafeEncode, heq, List.map_append, List.map_replicate]
    rfl
  have hmem : ∀ c ∈ body.map Base64.toUrlsafe, inAlphabet c = true ∧ c ≠ '=' := by
    intro c hc
    obtain ⟨d, hd, rfl⟩ := List.mem_map.mp hc
    obtain ⟨n, hn, rfl⟩ := hbody d hd
    exact inAlphabet_digit hn
  have hstrip : b64uEncode data = body.map Base64.toUrlsafe := by
    have hnone : ∀ c ∈ (body.map Base64.toUrlsafe).reverse, ¬decide (c = '=') = true := by
      intro c hc
      simpa using (hmem c (List.mem_reverse.mp hc)).2
    rw [b64uEncode, hurlsafe, List.reverse_append, List.reverse_replicate,
      List.dropWhile_append_of_pos (by simp), List.dropWhile_eq_self_iff.mpr, List.reverse_reverse]
    intro hlen
    exact hnone _ (List.getElem_mem hlen)
  refine ⟨pads, hpads, by rw [hstrip, hurlsafe], ?_⟩
  rw [hstrip]
  exact fun c hc => (hmem c hc).1

/-- Only the alphabet is written. -/
theorem inAlphabet_of_mem_b64uEncode {data : List UInt8} {c : Char} (h : c ∈ b64uEncode data) : inAlphabet c = true := by
  obtain ⟨-, -, -, hmem⟩ := urlsafeEncode_eq_append data
  exact hmem c h

/-- What is written is no longer than what the standard encoder writes. -/
theorem length_b64uEncode_le (data : List UInt8) : (b64uEncode data).length ≤ (data.length + 2) / 3 * 4 := by
  obtain ⟨pads, -, heq, -⟩ := urlsafeEncode_eq_append data
  have hlength := congrArg List.length heq
  rw [Base64.urlsafeEncode, List.length_map, Base64.length_encode, List.length_append] at hlength
  omega

/-- What is written is read. -/
theorem b64uDecode_b64uEncode (data : List UInt8) : b64uDecode (b64uEncode data) = some data := by
  obtain ⟨pads, hpads, heq, hmem⟩ := urlsafeEncode_eq_append data
  have hmatch : isBase64url (b64uEncode data) = true := by
    rw [isBase64url, List.dropWhile_eq_nil_iff.mpr hmem]
    rfl
  have hlength : ((b64uEncode data).length + pads) % 4 = 0 := by
    have hwhole := congrArg List.length heq
    rw [Base64.urlsafeEncode, List.length_map, List.length_append, List.length_replicate] at hwhole
    rw [← hwhole, Base64.length_encode_mod]
  have hmissing : missingPads (b64uEncode data) = List.replicate pads '=' := by
    rw [missingPads]
    congr 1
    omega
  rw [b64uDecode, if_pos hmatch, hmissing, ← heq, Base64.urlsafeDecode_urlsafeEncode]

/-- What is read is hardly longer than its text. -/
theorem length_le_of_b64uDecode {text : List Char} {bytes : List UInt8} (h : b64uDecode text = some bytes) :
    bytes.length ≤ text.length + 3 := by
  unfold b64uDecode at h
  split at h
  · have hle := Base64.length_le_of_urlsafeDecode h
    rw [List.length_append, missingPads, List.length_replicate] at hle
    omega
  · cases h

/-- What is read is ASCII. -/
theorem toNat_lt_of_b64uDecode {text : List Char} {bytes : List UInt8} (h : b64uDecode text = some bytes) :
    ∀ c ∈ text, c.toNat < 128 := by
  intro c hc
  have hsome : (b64uDecode text).isSome = true := by simp [h]
  unfold b64uDecode at hsome
  split at hsome
  · rename_i hmatch
    unfold Base64.urlsafeDecode Base64.decode at hsome
    split at hsome
    · rename_i hall
      have hfrom := List.all_eq_true.mp hall (Base64.fromUrlsafe c) (List.mem_map_of_mem (List.mem_append_left _ hc))
      simp only [Base64.fromUrlsafe] at hfrom
      split at hfrom
      · rename_i heq
        exact heq ▸ by decide
      · split at hfrom
        · rename_i heq
          exact heq ▸ by decide
        · exact of_decide_eq_true hfrom
    · cases hsome
  · cases hsome

end FxaLite.Crypto
