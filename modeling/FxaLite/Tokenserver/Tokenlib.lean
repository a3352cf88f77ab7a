import FxaLite.Crypto.Hkdf
import FxaLite.Lib.Base64
import FxaLite.Lib.Double
import FxaLite.Lib.JsonText

/-!
# Tokens

`tokenlib.py`: the tokenserver signs a dictionary of claims with a key derived from the shared
secret, and derives a second key from the signed token itself. Both go to the client, who shows
the first and signs with the second.
-/

namespace FxaLite.Tokenserver

open Crypto

/-- A number, as the interpreter represents it. -/
inductive Number where
  | int (value : ℤ)
  | float (value : Double)

/-- A JSON value. -/
abbrev Value := JsonText.Document Number (List Char)

/-- An `int`. -/
@[match_pattern] abbrev Value.int (value : ℤ) : Value := .number (.int value)

/-- A `float`. -/
@[match_pattern] abbrev Value.float (value : Double) : Value := .number (.float value)

/-- A dictionary of claims, in its order. -/
abbrev Claims := List (List Char × Value)

/-- What is taken from the interpreter: `json`, `float()` of a string, and `str()` of what is no
string. The `none`s are `ValueError`s. -/
structure Interpreter where
  dumps : Claims → List Char
  loads : List UInt8 → Option Value
  float : List Char → Option Double
  repr : Value → List Char

/-- `{**claims, key: value}`. -/
def setItem (key : List Char) (value : Value) : Claims → Claims
  | [] => [(key, value)]
  | (k, v) :: rest => if k = key then (k, value) :: rest else (k, v) :: setItem key value rest

/-- A hexadecimal digit. -/
def hexDigit (n : ℕ) : Char := if n < 10 then Char.ofNat (48 + n) else Char.ofNat (87 + n)

/-- `bytes.hex()`. -/
def hex (bytes : List UInt8) : List Char := bytes.flatMap fun b => [hexDigit (b.toNat / 16), hexDigit (b.toNat % 16)]

/-- `SIGNING_INFO`. -/
def signingInfo : List UInt8 := utf8 "services.mozilla.com/tokenlib/v1/signing".toList

/-- `DERIVE_INFO`. -/
def deriveInfo : List UInt8 := utf8 "services.mozilla.com/tokenlib/v1/derive/".toList

/-- `MAC_LENGTH`. -/
def macLength : ℕ := hashLength

section Tokens

variable (h : Sha256) (i : Interpreter)

/-- `signing_key`. -/
def signingKey (secret : List Char) : List UInt8 := hkdf h (utf8 secret) signingInfo

/-- `derive_secret`; `none` is a `UnicodeEncodeError`. -/
def deriveSecret (token salt secret : List Char) : Option (List Char) := do
  let token ← ascii token
  let salt ← ascii salt
  some (Base64.urlsafeEncode (hkdf h (utf8 secret) (deriveInfo ++ token) salt))

/-- The payload of a token: the claims and the salt. -/
def payload (claims : Claims) (random : List UInt8) : Claims := setItem "salt".toList (.str (hex random)) claims

/-- A payload with its signature behind it. -/
def sign (secret : List Char) (payload : List UInt8) : List UInt8 := payload ++ h.hmac (signingKey h secret) payload

/-- The token that `make_token` returns. -/
def tokenId (claims : Claims) (random : List UInt8) (secret : List Char) : List Char :=
  Base64.urlsafeEncode (sign h secret (utf8 (i.dumps (payload claims random))))

/-- `make_token`, with the bytes that `token_bytes` returns. -/
def makeToken (claims : Claims) (random : List UInt8) (secret : List Char) : Option (List Char × List Char) := do
  let token := tokenId h i claims random secret
  let key ← deriveSecret h token (hex random) secret
  some (token, key)

end Tokens

/-! ### The claims of the token route -/

/-- What the token route makes a token of. -/
structure TokenClaims where
  node : List Char
  fxaKid : List Char
  fxaUid : List Char
  hashedDeviceId : List Char
  hashedFxaUid : List Char
  expires : ℤ
  uid : ℤ
  deriving DecidableEq, Repr

/-- The dictionary. -/
def TokenClaims.toClaims (claims : TokenClaims) : Claims :=
  [("node".toList, .str claims.node), ("fxa_kid".toList, .str claims.fxaKid), ("fxa_uid".toList, .str claims.fxaUid),
    ("hashed_device_id".toList, .str claims.hashedDeviceId), ("hashed_fxa_uid".toList, .str claims.hashedFxaUid),
    ("expires".toList, .int claims.expires), ("uid".toList, .int claims.uid),
    ("tokenserver_origin".toList, .str "python".toList)]

/-! ### Tokens are ASCII -/

/-- What is ASCII can be encoded. -/
theorem exists_ascii {s : List Char} (h : ∀ c ∈ s, isAscii c = true) : ∃ bytes, ascii s = some bytes :=
  ⟨_, if_pos (List.all_eq_true.mpr h)⟩

/-- Hexadecimal digits are ASCII. -/
theorem isAscii_of_mem_hex {bytes : List UInt8} {c : Char} (h : c ∈ hex bytes) : isAscii c = true := by
  have hdigit : ∀ n < 16, isAscii (hexDigit n) = true := by decide
  obtain ⟨b, -, hc⟩ := List.mem_flatMap.mp h
  have hb := b.toNat_lt
  simp only [List.mem_cons, List.not_mem_nil, or_false] at hc
  obtain rfl | rfl := hc
  · exact hdigit _ (by omega)
  · exact hdigit _ (by omega)

/-- What is encoded for URLs is ASCII, and can stand in quotes. -/
theorem isPlain_of_mem_urlsafeEncode {bytes : List UInt8} {c : Char} (h : c ∈ Base64.urlsafeEncode bytes) :
    Base64.isPlain c = true := by
  obtain ⟨d, hd, rfl⟩ := List.mem_map.mp h
  exact (Base64.isPlain_encode hd).2.1

/-- A token is always made, and its key is the one derived from it. -/
theorem exists_makeToken (h : Sha256) (i : Interpreter) (claims : Claims) (random : List UInt8) (secret : List Char) :
    ∃ key, makeToken h i claims random secret = some (tokenId h i claims random secret, key) ∧
      deriveSecret h (tokenId h i claims random secret) (hex random) secret = some key := by
  obtain ⟨token, htoken⟩ : ∃ bytes, ascii (tokenId h i claims random secret) = some bytes :=
    exists_ascii fun c hc => by
      have hplain := isPlain_of_mem_urlsafeEncode hc
      simp only [Base64.isPlain, Bool.and_eq_true] at hplain
      exact hplain.1.1
  obtain ⟨salt, hsalt⟩ := exists_ascii fun c (hc : c ∈ hex random) => isAscii_of_mem_hex hc
  have hkey : deriveSecret h (tokenId h i claims random secret) (hex random) secret =
      some (Base64.urlsafeEncode (hkdf h (utf8 secret) (deriveInfo ++ token) salt)) := by
    simp only [deriveSecret, htoken, hsalt]
    rfl
  refine ⟨_, ?_, hkey⟩
  simp only [makeToken, hkey]
  rfl

end FxaLite.Tokenserver
