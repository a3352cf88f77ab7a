import FxaLite.Crypto.ConcatKdf
import FxaLite.Crypto.Jwt
import FxaLite.Lib.Dict

/-!
# Compact JWE

`jose.py`, the half that seals and opens scoped keys: an agreement between an ephemeral key and the
recipient's, a content key derived from it, and a header that is authenticated as it is spelled.
The curve and the cipher are parameters, with what the two directions rely on: a point is its
coordinates, the agreement commutes, and what is sealed opens.
-/

namespace FxaLite.Crypto

/-- P-256 as the library has it: private and public keys, and the agreement between them. -/
structure Curve where
  Private : Type
  Public : Type
  publicKey : Private → Public
  coordinates : Public → ℕ × ℕ
  /-- `EllipticCurvePublicNumbers(…).public_key()`; `none` is a `ValueError` -/
  fromNumbers : ℕ → ℕ → Option Public
  agreed : Private → Public → List UInt8
  coordinates_lt : ∀ key, (coordinates key).1 < 256 ^ 32 ∧ (coordinates key).2 < 256 ^ 32
  fromNumbers_coordinates : ∀ key, fromNumbers (coordinates key).1 (coordinates key).2 = some key
  agreed_comm : ∀ a b, agreed a (publicKey b) = agreed b (publicKey a)

/-- AES-GCM as the library has it; `none` is an `InvalidTag`. -/
structure Aead where
  encrypt : List UInt8 → List UInt8 → List UInt8 → List UInt8 → List UInt8
  decrypt : List UInt8 → List UInt8 → List UInt8 → List UInt8 → Option (List UInt8)
  length_encrypt : ∀ key nonce plaintext aad, (encrypt key nonce plaintext aad).length = plaintext.length + 16
  decrypt_encrypt : ∀ key nonce plaintext aad, decrypt key nonce (encrypt key nonce plaintext aad) aad = some plaintext

/-- The private key of a recipient: one of P-256, or one of another curve. -/
inductive RecipientKey (curve : Curve) where
  | p256 (key : curve.Private)
  | otherCurve

/-- `CONTENT_ENCRYPTION`. -/
def contentEncryption : String := "A256GCM"

/-- `IV_LENGTH`. -/
def ivLength : ℕ := 12

/-- `TAG_LENGTH`. -/
def tagLength : ℕ := 16

/-- `CEK_LENGTH`. -/
def cekLength : ℕ := 32

/-- `MAX_JWE_LENGTH`. -/
def maxJweLength : ℕ := 250 * 1024

/-- `MAX_JWE_HEADER_LENGTH`. -/
def maxJweHeaderLength : ℕ := 8 * 1024

/-- `CONTENT_ENCRYPTION.encode("ascii")`. -/
def algorithmId : List UInt8 := utf8 contentEncryption.toList

/-! ### Numbers and keys -/

/-- `int.to_bytes(size, "big")` of a number that fits. -/
def toBytes : ℕ → ℕ → List UInt8
  | 0, _ => []
  | size + 1, n => toBytes size (n / 256) ++ [UInt8.ofNat (n % 256)]

/-- `int.from_bytes(…, "big")`. -/
def fromBytes (bytes : List UInt8) : ℕ := bytes.foldl (fun n b => 256 * n + b.toNat) 0

/-- `b64u_decode` of a string. -/
def decodeText (text : Points) : Option (List UInt8) := text.ascii?.bind b64uDecode

/-- `uint_b64u` of a member; `none` is a `KeyError`, a `TypeError` or a `ValueError`. -/
def uintB64u : Option Json → Option ℕ
  | some (.str text) => (decodeText text).map fromBytes
  | _ => none

/-- A JSON string of ASCII characters. -/
def Json.ofText (text : List Char) : Json := .str (text.map Char.toNat)

/-- `ec_public_key_to_jwk`. -/
def ecPublicKeyToJwk (curve : Curve) (key : curve.Public) : Members :=
  [(Points.ofString "kty", .ofText "EC".toList), (Points.ofString "crv", .ofText "P-256".toList),
    (Points.ofString "x", .ofText (b64uEncode (toBytes 32 (curve.coordinates key).1))),
    (Points.ofString "y", .ofText (b64uEncode (toBytes 32 (curve.coordinates key).2)))]

/-- `jwk_to_ec_public_key`. -/
def jwkToEcPublicKey (curve : Curve) (jwk : Members) : Except Raised curve.Public :=
  if !isText "EC" (jwk.get "kty") then .error (.jweError .notEcKey)
  else if !isText "P-256" (jwk.get "crv") then .error (.jweError .notOnCurve)
  else if (jwk.get "d").isSome then .error (.jweError .privateKey)
  else
    match uintB64u (jwk.get "x"), uintB64u (jwk.get "y") with
    | some x, some y =>
      match curve.fromNumbers x y with
      | some key => .ok key
      | none => .error (.jweError .invalidPublicKey)
    | _, _ => .error (.jweError .invalidPublicKey)

/-! ### Opening -/

/-- `_segment`. -/
def segment (data : Option (List UInt8)) (what : String) (length : Option ℕ) : Except Raised (List UInt8) :=
  match data with
  | none => .error (.jweError (.notBase64url what))
  | some raw =>
    match length with
    | none => .ok raw
    | some length => if raw.length ≠ length then .error (.jweError (.wrongLength what raw.length length)) else .ok raw

/-- `_party_info`. -/
def partyInfo (header : Members) (name : String) : Except Raised (List UInt8) :=
  match header.get name with
  | none | some .null => .ok []
  | some (.str text) => segment (decodeText text) ("JWE " ++ name) none
  | some _ => .error (.jweError (.notString name))

/-- `key.exchange`; a key of another curve is a `ValueError`. -/
def exchange (curve : Curve) (key : RecipientKey curve) (peer : curve.Public) : Except Raised (List UInt8) :=
  match key with
  | .p256 key => .ok (curve.agreed key peer)
  | .otherCurve => .error .valueError

/-- What `decrypt_jwe` asks of a header before it agrees on a key. -/
def checkHeader (header : Members) : Except Raised Unit :=
  if !isText "ECDH-ES" (header.get "alg") then .error (.jweError (.algorithm "JWE" (header.get "alg")))
  else if !isText contentEncryption (header.get "enc") then .error (.jweError (.contentEncryption (header.get "enc")))
  else
    match header.get "zip" with
    | some compression => .error (.jweError (.compression compression))
    | none => if (header.get "crit").isSome then .error (.jweError .critical) else .ok ()

/-- The ephemeral key of a header. -/
def ephemeralKey (curve : Curve) (header : Members) : Except Raised curve.Public :=
  match header.get "epk" with
  | some (.obj epk) => jwkToEcPublicKey curve epk
  | _ => .error (.jweError .noEphemeralKey)

section Opening

variable (h : Sha256) (curve : Curve) (aead : Aead) (loads : Loads)

/-- `concat_kdf` with its `struct.error`. -/
def contentKey (sharedSecret apu apv : List UInt8) : Except Raised (List UInt8) :=
  match concatKdf h sharedSecret algorithmId apu apv cekLength with
  | some cek => .ok cek
  | none => .error .structError

/-- The end of `decrypt_jwe`, with the content key. -/
def openSealed (cek : List UInt8) (first iv ciphertext tag : List Char) : Except Raised (List UInt8) := do
  let nonce ← segment (b64uDecode iv) "JWE IV" (some ivLength)
  let ciphertext ← segment (b64uDecode ciphertext) "JWE ciphertext" none
  let tag ← segment (b64uDecode tag) "JWE tag" (some tagLength)
  match ascii first with
  | none => .error .valueError
  | some aad =>
    match aead.decrypt cek nonce (ciphertext ++ tag) aad with
    | some plaintext => .ok plaintext
    | none => .error (.jweError .authentication)

/-- `decrypt_jwe`. -/
def decryptJwe (jwe : List Char) (key : RecipientKey curve) : Except Raised (List UInt8) := do
  bounded jwe maxJweLength .jweError "JWE"
  match jwe.splitOn '.' with
  | [first, encryptedKey, iv, ciphertext, tag] =>
    bounded first maxJweHeaderLength .jweError "JWE protected header"
    let header ← jsonObject loads first .jweError "JWE header"
    checkHeader header
    if encryptedKey ≠ [] then .error (.jweError .encryptedKey)
    else
      let peer ← ephemeralKey curve header
      let sharedSecret ← exchange curve key peer
      let apu ← partyInfo header "apu"
      let apv ← partyInfo header "apv"
      let cek ← contentKey h sharedSecret apu apv
      openSealed aead cek first iv ciphertext tag
  | parts => .error (.jweError (.segments 5 "JWE" parts.length))

end Opening

/-! ### What escapes -/

open Fallible

/-- `json.loads`, whose strings are no longer than the text. -/
structure JsonReader where
  loads : Loads
  length_le : ∀ bytes members name text, loads bytes = .ok (.obj members) →
    Members.get members name = some (.str text) → text.length ≤ bytes.length

section Escaping

variable {h : Sha256} {curve : Curve} {aead : Aead} {reader : JsonReader} {header : Members}
  {first iv ciphertext tag : List Char}

/-- The length of a JWE is refused as announced. -/
@[simp] theorem not_escapes_bounded_jwe {token : List Char} (limit : ℕ) (what : String) :
    ¬Escapes Raised.IsJweError (bounded token limit .jweError what) :=
  not_escapes_bounded (fun complaint => show (Raised.jweError complaint).IsJweError from trivial) limit what

/-- What escapes the reading of a header. -/
@[simp] theorem escapes_jsonObject_jwe {loads : Loads} {segment : List Char} (what : String) :
    Escapes Raised.IsJweError (jsonObject loads segment .jweError what) ↔ TooDeep loads segment :=
  escapes_jsonObject (fun complaint => show (Raised.jweError complaint).IsJweError from trivial) id what

/-- A header is refused as announced. -/
@[simp] theorem not_escapes_checkHeader : ¬Escapes Raised.IsJweError (checkHeader header) := by
  unfold checkHeader
  repeat' split
  all_goals simp [Raised.IsJweError]

/-- So is a segment. -/
@[simp] theorem not_escapes_segment (data : Option (List UInt8)) (what : String) (length : Option ℕ) :
    ¬Escapes Raised.IsJweError (segment data what length) := by
  unfold segment
  repeat' split
  all_goals simp [Raised.IsJweError]

/-- So is what a party says of itself. -/
@[simp] theorem not_escapes_partyInfo (name : String) : ¬Escapes Raised.IsJweError (partyInfo header name) := by
  unfold partyInfo
  split
  · simp
  · simp
  · simp
  · simp [Raised.IsJweError]

/-- So is a key that is no point of the curve. -/
@[simp] theorem not_escapes_ephemeralKey : ¬Escapes Raised.IsJweError (ephemeralKey curve header) := by
  unfold ephemeralKey jwkToEcPublicKey
  repeat' split
  all_goals simp [Raised.IsJweError]

/-- What escapes the agreement on a key. -/
theorem escapes_exchange {key : RecipientKey curve} {peer : curve.Public} :
    Escapes Raised.IsJweError (exchange curve key peer) ↔ key = .otherCurve := by
  cases key <;> simp [exchange, Raised.IsJweError]

/-- What a party says is no longer than the header. -/
theorem length_le_of_partyInfo {name : String} {info : List UInt8} (hheader : Decodes reader.loads first header)
    (hinfo : partyInfo header name = .ok info) : info.length ≤ first.length + 6 := by
  unfold partyInfo at hinfo
  split at hinfo
  · cases hinfo
    exact Nat.zero_le _
  · cases hinfo
    exact Nat.zero_le _
  · rename_i text hget
    obtain ⟨bytes, hbytes, hloads⟩ := hheader
    have htext := reader.length_le bytes header name text hloads hget
    have hfirst := length_le_of_b64uDecode hbytes
    unfold segment at hinfo
    split at hinfo
    · cases hinfo
    · rename_i raw hraw
      cases hinfo
      obtain ⟨chars, hchars, hdecode⟩ := Option.bind_eq_some_iff.mp hraw
      have hlength : chars.length = text.length := by
        unfold Points.ascii? at hchars
        split at hchars
        · cases hchars
          simp
        · cases hchars
      have hinfo := length_le_of_b64uDecode hdecode
      omega
  · cases hinfo

/-- A content key is derived from what a header can hold. -/
theorem exists_contentKey {sharedSecret apu apv : List UInt8} (hapu : apu.length ≤ maxWord) (hapv : apv.length ≤ maxWord) :
    ∃ cek, contentKey h sharedSecret apu apv = .ok cek := by
  have halgorithm : algorithmId.length ≤ maxWord := by decide
  obtain ⟨cek, hcek, -⟩ := exists_concatKdf h sharedSecret halgorithm hapu hapv (by decide : cekLength * 8 ≤ maxWord)
  exact ⟨cek, by rw [contentKey, hcek]⟩

/-- The ciphertext and the tag are refused as announced. -/
theorem not_escapes_openSealed {cek : List UInt8} (hfirst : ∀ c ∈ first, c.toNat < 128) :
    ¬Escapes Raised.IsJweError (openSealed aead cek first iv ciphertext tag) := by
  have hascii : first.all isAscii = true := List.all_eq_true.mpr fun c hc => decide_eq_true (hfirst c hc)
  simp only [openSealed, escapes_bind, not_escapes_segment, false_or, ascii, if_pos hascii]
  rintro ⟨nonce, -, sealed, -, mac, -, hescapes⟩
  split at hescapes <;> simp [Raised.IsJweError] at hescapes

/-- What escapes once a header has been read: a key of another curve, when it comes to the agreement. -/
theorem escapes_agreement {key : RecipientKey curve} {encryptedKey : List Char} (hheader : Decodes reader.loads first header)
    (hlength : first.length ≤ maxJweHeaderLength) :
    Escapes Raised.IsJweError (if encryptedKey ≠ [] then .error (.jweError .encryptedKey) else do
      let peer ← ephemeralKey curve header
      let sharedSecret ← exchange curve key peer
      let apu ← partyInfo header "apu"
      let apv ← partyInfo header "apv"
      let cek ← contentKey h sharedSecret apu apv
      openSealed aead cek first iv ciphertext tag) ↔
      encryptedKey = [] ∧ key = .otherCurve ∧ ∃ peer, ephemeralKey curve header = .ok peer := by
  by_cases hkey : encryptedKey = []
  · rw [if_neg (not_not.mpr hkey)]
    simp only [escapes_bind, not_escapes_ephemeralKey, false_or, escapes_exchange, hkey, true_and]
    constructor
    · rintro ⟨peer, hpeer, hother | ⟨sharedSecret, -, hescapes⟩⟩
      · exact ⟨hother, peer, hpeer⟩
      · obtain hescapes | ⟨apu, hapu, hescapes⟩ := hescapes
        · exact absurd hescapes (not_escapes_partyInfo _)
        obtain hescapes | ⟨apv, hapv, hescapes⟩ := hescapes
        · exact absurd hescapes (not_escapes_partyInfo _)
        have hbytes : maxJweHeaderLength + 6 ≤ maxWord := by decide
        have hapuLength := length_le_of_partyInfo hheader hapu
        have hapvLength := length_le_of_partyInfo hheader hapv
        obtain ⟨cek, hcek⟩ := @exists_contentKey h sharedSecret apu apv (by omega) (by omega)
        obtain hescapes | ⟨cek', -, hescapes⟩ := hescapes
        · rw [hcek] at hescapes
          exact absurd hescapes (escapes_ok _)
        · obtain ⟨bytes, hdecode, -⟩ := hheader
          exact absurd hescapes (not_escapes_openSealed (toNat_lt_of_b64uDecode hdecode))
    · rintro ⟨hother, peer, hpeer⟩
      exact ⟨peer, hpeer, Or.inl hother⟩
  · rw [if_pos hkey]
    simp [Raised.IsJweError, hkey]

/-- What escapes `decrypt_jwe`: a header that is nested too deep, and a key of another curve once
it is the turn of the agreement. -/
theorem escapes_decryptJwe {jwe : List Char} {key : RecipientKey curve} :
    Escapes Raised.IsJweError (decryptJwe h curve aead reader.loads jwe key) ↔
      jwe.length ≤ maxJweLength ∧ ∃ first encryptedKey iv ciphertext tag,
        jwe.splitOn '.' = [first, encryptedKey, iv, ciphertext, tag] ∧ first.length ≤ maxJweHeaderLength ∧
        (TooDeep reader.loads first ∨
          key = .otherCurve ∧ ∃ header peer, Decodes reader.loads first header ∧ checkHeader header = .ok () ∧
            encryptedKey = [] ∧ ephemeralKey curve header = .ok peer) := by
  rw [decryptJwe, escapes_bind]
  simp only [not_escapes_bounded_jwe, bounded_eq_ok, false_or, exists_const]
  refine and_congr_right fun hlength => ?_
  split
  · rename_i first encryptedKey iv ciphertext tag hsplit
    rw [escapes_bind]
    simp only [not_escapes_bounded_jwe, bounded_eq_ok, false_or, exists_const, escapes_bind, escapes_jsonObject_jwe,
      not_escapes_checkHeader, jsonObject_eq_ok]
    constructor
    · rintro ⟨hfirst, hdeep | ⟨header, hheader, ⟨⟩, hcheck, hescapes⟩⟩
      · exact ⟨first, encryptedKey, iv, ciphertext, tag, hsplit, hfirst, Or.inl hdeep⟩
      · obtain ⟨hkey, hother, peer, hpeer⟩ := (escapes_agreement hheader hfirst).mp hescapes
        exact ⟨first, encryptedKey, iv, ciphertext, tag, hsplit, hfirst, Or.inr ⟨hother, header, peer, hheader, hcheck, hkey, hpeer⟩⟩
    · rintro ⟨first', encryptedKey', iv', ciphertext', tag', heq, hfirst, hescapes⟩
      rw [hsplit] at heq
      cases heq
      refine ⟨hfirst, hescapes.imp_right fun hother => ?_⟩
      obtain ⟨hother, header, peer, hheader, hcheck, hkey, hpeer⟩ := hother
      exact ⟨header, hheader, (), hcheck, (escapes_agreement hheader hfirst).mpr ⟨hkey, hother, peer, hpeer⟩⟩
  · rename_i parts hnot
    simp only [escapes_error, Raised.IsJweError, not_true, false_iff]
    rintro ⟨first, encryptedKey, iv, ciphertext, tag, heq, -⟩
    exact hnot first encryptedKey iv ciphertext tag heq

/-- `verify_jwt` and `decode_jwt_header` raise nothing but a `JWTError`, and `decrypt_jwe` nothing
but a `JWEError`, exactly when no segment that they come to read is nested too deep and the key of
the recipient is one of P-256 when it comes to the agreement. -/
theorem announced_iff (h : Sha256) (curve : Curve) (aead : Aead) (reader : JsonReader) {Key : Type}
    (verify : Key → List UInt8 → List UInt8 → Bool) (keys : Keys Key) (token jwe : List Char) (now : Option ℤ)
    (clock leeway : ℤ) (key : RecipientKey curve) :
    (¬Escapes Raised.IsJwtError (decodeJwtHeader reader.loads token) ↔
      ¬(token.length ≤ maxJwtLength ∧ TooDeep reader.loads (Py.partition '.' token).1)) ∧
    (¬Escapes Raised.IsJwtError (verifyJwt reader.loads verify keys token now clock leeway) ↔
      ¬(token.length ≤ maxJwtLength ∧ ∃ first second third, token.splitOn '.' = [first, second, third] ∧
        (TooDeep reader.loads first ∨
          Signed reader.loads verify keys first second third ∧ TooDeep reader.loads second))) ∧
    (¬Escapes Raised.IsJweError (decryptJwe h curve aead reader.loads jwe key) ↔
      ¬(jwe.length ≤ maxJweLength ∧ ∃ first encryptedKey iv ciphertext tag,
        jwe.splitOn '.' = [first, encryptedKey, iv, ciphertext, tag] ∧ first.length ≤ maxJweHeaderLength ∧
        (TooDeep reader.loads first ∨
          key = .otherCurve ∧ ∃ header peer, Decodes reader.loads first header ∧ checkHeader header = .ok () ∧
            encryptedKey = [] ∧ ephemeralKey curve header = .ok peer))) :=
  ⟨not_congr escapes_decodeJwtHeader, not_congr escapes_verifyJwt, not_congr escapes_decryptJwe⟩

/-- A header that is nested too deep ends the reading of the token, with what the reader raised. -/
theorem decodeJwtHeader_of_tooDeep {loads : Loads} {bytes : List UInt8} (hlength : (b64uEncode bytes).length ≤ maxJwtLength)
    (hdeep : loads bytes = .error .recursionError) :
    decodeJwtHeader loads (b64uEncode bytes) = .error .recursionError := by
  have hdot : '.' ∉ b64uEncode bytes := fun hmem => absurd (inAlphabet_of_mem_b64uEncode hmem) (by decide)
  rw [decodeJwtHeader, bounded_eq_ok (u := ()).mpr hlength, ok_bind, Py.partition_of_not_mem '.' _ hdot, jsonObject,
    b64uDecode_b64uEncode]
  dsimp only
  rw [hdeep]

/-- An interpreter that bears fewer than six thousand containers inside each other, on a text that
opens as many. -/
def shallowReader : JsonReader where
  loads bytes := if bytes = List.replicate 6000 91 then .error .recursionError else .error .valueError
  length_le bytes members name text hloads _ := by
    split at hloads <;> cases hloads

/-- The reader gives up on them. -/
theorem loads_shallowReader {bytes : List UInt8} (hbytes : bytes = List.replicate 6000 91) :
    shallowReader.loads bytes = .error .recursionError :=
  if_pos hbytes

/-- Nobody signed it, and it is a `RecursionError`. -/
theorem recursionError_escapes :
    Escapes Raised.IsJwtError (decodeJwtHeader shallowReader.loads (b64uEncode (List.replicate 6000 91))) := by
  have hlength : (b64uEncode (List.replicate 6000 91)).length ≤ maxJwtLength := by
    have hle := length_b64uEncode_le (List.replicate 6000 91)
    rw [List.length_replicate] at hle
    exact hle.trans (by decide)
  rw [decodeJwtHeader_of_tooDeep hlength (loads_shallowReader rfl)]
  simp [Raised.IsJwtError]

end Escaping

end FxaLite.Crypto
