import FxaLite.Lib.Fallible
import FxaLite.Lib.Url
import FxaLite.SyncStorage.Errors
import FxaLite.SyncStorage.Hawk
import FxaLite.Tokenserver.Tokenlib

/-!
# From a header to a Sync uid

`credentials.py`: the token in a header is decoded and its signature checked, its claims are read,
its expiry is compared with the clock, and the header is verified under the key derived from it.
A token that the tokenserver made is read as the claims it was made of.
-/

namespace FxaLite.SyncStorage

open Crypto Tokenserver Hawk
open Py (StrChar)

/-- Host and port as the client signed them. -/
structure Origin where
  host : List Char
  port : ℤ
  deriving DecidableEq, Repr

/-- `Origin.parse`; `none` is a `ValueError`. -/
def Origin.parse (url : List Char) : Option Origin :=
  match Url.urlsplit url with
  | none => none
  | some parts =>
    let host := if Url.hostname parts.netloc = [] then "localhost".toList else Url.hostname parts.netloc
    match Url.port parts.netloc with
    | none => none
    | some (some port) => some ⟨host, port⟩
    | some none => some ⟨host, if parts.scheme = "https".toList then 443 else 80⟩

/-- A verified payload. -/
structure SyncCredentials where
  uid : ℤ
  fxaUid : List Char
  fxaKid : List Char
  hashedFxaUid : List Char
  hashedDeviceId : List Char
  node : List Char
  expires : ℤ
  salt : List Char
  deriving DecidableEq, Repr

section Tokens

variable (h : Sha256) (i : Interpreter) {χ : Type} [StrChar χ]

/-- `float(value)`; a `TypeError` is caught like a `ValueError`. -/
def floatOf : Value → Except Double.Error Double
  | .null | .arr _ | .obj _ => .error .value
  | .bool b => .ok (.finite (if b then 1 else 0) 0)
  | .int n => (Double.ofInt n).elim (.error .overflow) .ok
  | .float x => .ok x
  | .str text => (i.float text).elim (.error .value) .ok

/-- `round(float(value))`; nothing catches an `OverflowError`. -/
def expiresOf (value : Value) : Except Thrown ℤ :=
  match (floatOf i value).bind Double.round with
  | .ok n => .ok n
  | .error .value => .error (.hawk .missingClaim)
  | .error .overflow => .error .uncaught

/-- `str(claims.get(name, ""))`. -/
def textOf (claims : Claims) (name : String) : List Char :=
  match claims.lookup name.toList with
  | none => []
  | some (.str text) => text
  | some value => i.repr value

/-- `_credentials`. -/
def credentialsOf (claims : Claims) : Except Thrown SyncCredentials :=
  match claims.lookup "uid".toList, claims.lookup "salt".toList, claims.lookup "expires".toList with
  | some uid, some salt, some expires => do
    let expires ← expiresOf i expires
    match uid, salt with
    | .int uid, .str salt =>
      .ok
        { uid := uid
          fxaUid := textOf i claims "fxa_uid"
          fxaKid := textOf i claims "fxa_kid"
          hashedFxaUid := textOf i claims "hashed_fxa_uid"
          hashedDeviceId := textOf i claims "hashed_device_id"
          node := textOf i claims "node"
          expires := expires
          salt := salt }
    | _, _ => .error (.hawk .malformedClaim)
  | _, _, _ => .error (.hawk .missingClaim)

/-- `token + "=" * (-len(token) % 4)`. -/
def padded (token : List Char) : List Char := token ++ List.replicate ((4 - token.length % 4) % 4) '='

/-- `parse_token`. -/
def parseToken (token : List χ) (secret : List Char) : Except Thrown SyncCredentials :=
  match (StrChar.text? token).bind fun token => Base64.urlsafeDecode (padded token) with
  | none => .error (.hawk .undecodableToken)
  | some raw =>
    if raw.length ≤ macLength then .error (.hawk .tooShort)
    else
      let payload := raw.take (raw.length - macLength)
      let signature := raw.drop (raw.length - macLength)
      if h.hmac (signingKey h secret) payload ≠ signature then .error (.hawk .badSignature)
      else
        match i.loads payload with
        | none => .error (.hawk .notJson)
        | some (.obj claims) => credentialsOf i claims
        | some _ => .error (.hawk .notObject)

end Tokens

/-- `_exempt_from_expiry`. -/
def exemptFromExpiry (path : List Char) : Bool :=
  match (path.dropWhile (· = '/')).splitOn '/' with
  | [version, uid, info, collections] =>
    version = "1.5".toList && !uid.isEmpty && info = "info".toList && collections = "collections".toList
  | _ => false

/-- What `authenticate` is called with, beside the header, the secret, the path and the clock. -/
structure Presented (χ : Type := Char) where
  method : List χ
  resource : List χ
  origin : Origin
  body : Option (List UInt8)
  contentType : List χ
  deriving DecidableEq, Repr

/-- The target that the signature covers. -/
def Presented.target {χ : Type} (request : Presented χ) : Target χ :=
  ⟨request.method, request.resource, request.origin.host, request.origin.port⟩

section Authentication

variable (h : Sha256) (i : Interpreter) {χ : Type} [StrChar χ]

/-- The key that the claims of a token derive from it; `none` is a `UnicodeEncodeError`. -/
def keyOf (token : List χ) (salt secret : List Char) : Option (List Char) :=
  (StrChar.text? token).bind fun token => deriveSecret h token salt secret

/-- That key, and what it verifies. -/
def verifySigned (header : HawkHeader χ) (credentials : SyncCredentials) (secret : List Char) (request : Presented χ)
    (now : ℤ) : Except Thrown Unit :=
  match keyOf h header.id credentials.salt secret with
  | none => .error .uncaught
  | some key => verify h header key request.target now request.body request.contentType

/-- What `authenticate` tries. -/
def verified (header : List χ) (secret : List Char) (request : Presented χ) (path : List χ) (now : ℤ) :
    Except Thrown SyncCredentials := do
  let parsed ← (parse header).mapError Thrown.hawk
  let credentials ← parseToken h i parsed.id secret
  if !exemptFromExpiry (path.map StrChar.seen) && credentials.expires ≤ now then .error (.hawk .expired)
  else do
    verifySigned h parsed credentials secret request now
    .ok credentials

/-- `authenticate`: every `HawkError` is a 401. -/
def authenticate (header : Option (List χ)) (secret : List Char) (request : Presented χ) (path : List χ) (now : ℤ) :
    Except SyncStorageError SyncCredentials :=
  match header with
  | none | some [] => .error unauthorized
  | some header =>
    match verified h i header secret request path now with
    | .ok credentials => .ok credentials
    | .error (.hawk _) => .error unauthorized
    | .error .uncaught => .error internalError

end Authentication

/-! ### A token that was made is read -/

section RoundTrip

variable {h : Sha256} {i : Interpreter}

/-- Nothing is padded that is whole. -/
theorem padded_urlsafeEncode (bytes : List UInt8) : padded (Base64.urlsafeEncode bytes) = Base64.urlsafeEncode bytes := by
  have hlen : (Base64.urlsafeEncode bytes).length % 4 = 0 := by
    rw [Base64.urlsafeEncode, List.length_map, Base64.length_encode_mod]
  rw [padded, hlen]
  exact List.append_nil _

/-- The key of a token of characters. -/
theorem keyOf_char (token salt secret : List Char) : keyOf h token salt secret = deriveSecret h token salt secret := rfl

/-- A signed payload is taken apart again. -/
theorem parseToken_sign {secret : List Char} {payload : List UInt8} (hpayload : payload ≠ []) {claims : Claims}
    (hloads : i.loads payload = some (.obj claims)) :
    parseToken h i (Base64.urlsafeEncode (sign h secret payload)) secret = credentialsOf i claims := by
  have hmac : (h.hmac (signingKey h secret) payload).length = macLength := h.length_hmac _ _
  have hlen : (sign h secret payload).length = payload.length + macLength := by
    rw [sign, List.length_append, hmac]
  have hpos : 0 < payload.length := List.length_pos_iff.mpr hpayload
  have htake : (sign h secret payload).take (payload.length + macLength - macLength) = payload := by
    rw [Nat.add_sub_cancel, sign, List.take_left]
  have hdrop : (sign h secret payload).drop (payload.length + macLength - macLength) =
      h.hmac (signingKey h secret) payload := by
    rw [Nat.add_sub_cancel, sign, List.drop_left]
  have hlong : ¬payload.length + macLength ≤ macLength := by omega
  simp only [parseToken, Py.text?_char, Option.bind_some, padded_urlsafeEncode, Base64.urlsafeDecode_urlsafeEncode, hlen,
    if_neg hlong, htake, hdrop, ne_eq, not_true, if_false, hloads]

/-- What the claims of the token route say. -/
def TokenClaims.credentials (claims : TokenClaims) (random : List UInt8) (expires : ℤ) : SyncCredentials where
  uid := claims.uid
  fxaUid := claims.fxaUid
  fxaKid := claims.fxaKid
  hashedFxaUid := claims.hashedFxaUid
  hashedDeviceId := claims.hashedDeviceId
  node := claims.node
  expires := expires
  salt := hex random

/-- Their payload is read as they are, but for a rounded expiry. -/
theorem credentialsOf_payload (claims : TokenClaims) (random : List UInt8) {expires : ℤ}
    (hexpires : expiresOf i (.int claims.expires) = .ok expires) :
    credentialsOf i (payload claims.toClaims random) = .ok (TokenClaims.credentials claims random expires) := by
  simp [credentialsOf, payload, TokenClaims.toClaims, setItem, List.lookup_cons, hexpires, textOf, TokenClaims.credentials]

/-- An exact expiry is not rounded. -/
theorem expiresOf_of_isExact {n : ℤ} (hexact : Double.IsExact n) : expiresOf i (.int n) = .ok n := by
  have hfloat : floatOf i (.int n) = .ok (.finite n 0) := by
    rw [floatOf, Double.ofInt_of_isExact hexact, Option.elim_some]
  simp only [expiresOf, hfloat, Except.bind, Double.round_finite_zero]

end RoundTrip

end FxaLite.SyncStorage
