import FxaLite.Crypto.Base64Url
import FxaLite.Crypto.Hkdf
import FxaLite.Lib.JsonText
import FxaLite.Lib.PyText
import Mathlib.Algebra.Order.Ring.Rat

/-!
# JSON web tokens

`jose.py`, the half that verifies access tokens: a length first, then the header, the signature
over the first two segments as they came, and only then the claims. What `json.loads` does and
what a signature is are parameters; a number of JSON is the number it denotes.
-/

namespace FxaLite.Crypto

/-- A value of JSON. -/
abbrev Json := JsonText.Document ℚ Points

/-- The members of an object, as a dictionary. -/
abbrev Members := List (Points × Json)

/-- `dict.get`. -/
def Members.get (members : Members) (name : String) : Option Json := members.lookup (Points.ofString name)

/-- A value is this string. -/
def isText (text : String) : Option Json → Bool
  | some (.str found) => found = Points.ofString text
  | _ => false

/-- `json.loads` of bytes. -/
abbrev Loads := List UInt8 → Except JsonText.LoadsError Json

/-- What an error says. -/
inductive Complaint where
  /-- `{what} is longer than {limit} characters` -/
  | tooLong (what : String) (limit : ℕ)
  /-- `expected {expected} {what} segments, got {got}` -/
  | segments (expected : ℕ) (what : String) (got : ℕ)
  /-- `malformed {what}` -/
  | malformed (what : String)
  /-- `{what} is not an object` -/
  | notObject (what : String)
  /-- `unsupported {what} algorithm: {alg!r}` -/
  | algorithm (what : String) (alg : Option Json)
  /-- `no signing key for kid {kid!r}` -/
  | noSigningKey (kid : Option Json)
  /-- `{what} is not base64url` -/
  | notBase64url (what : String)
  /-- `bad JWT signature` -/
  | badSignature
  /-- `JWT {name} is not a number` -/
  | notNumber (name : String)
  /-- `JWT has expired` -/
  | expired
  /-- `appJwk is not an EC key` -/
  | notEcKey
  /-- `appJwk is not on curve P-256` -/
  | notOnCurve
  /-- `appJwk includes the private key` -/
  | privateKey
  /-- `invalid EC public key` -/
  | invalidPublicKey
  /-- `unsupported content encryption: {enc!r}` -/
  | contentEncryption (enc : Option Json)
  /-- `unsupported JWE compression: {zip!r}` -/
  | compression (zip : Json)
  /-- `JWE names critical header parameters we do not implement` -/
  | critical
  /-- `ECDH-ES direct agreement carries no encrypted key` -/
  | encryptedKey
  /-- `JWE header carries no ephemeral public key` -/
  | noEphemeralKey
  /-- `JWE {name} is not a string` -/
  | notString (name : String)
  /-- `{what} is {got} bytes, expected {expected}` -/
  | wrongLength (what : String) (got expected : ℕ)
  /-- `JWE authentication failed` -/
  | authentication
  /-- `A256GCM needs a {expected}-byte key, got {got}` -/
  | keyLength (expected got : ℕ)

/-- What is raised: the two exceptions the module announces, and others. -/
inductive Raised where
  | jwtError (complaint : Complaint)
  | jweError (complaint : Complaint)
  | recursionError
  | valueError
  | structError

/-- A `JWTError`. -/
def Raised.IsJwtError : Raised → Prop
  | jwtError _ => True
  | _ => False

/-- A `JWEError`. -/
def Raised.IsJweError : Raised → Prop
  | jweError _ => True
  | _ => False

/-- `MAX_JWT_LENGTH`. -/
def maxJwtLength : ℕ := 8 * 1024

/-- `_bounded`. -/
def bounded (token : List Char) (limit : ℕ) (error : Complaint → Raised) (what : String) : Except Raised Unit :=
  if limit < token.length then .error (error (.tooLong what limit)) else .ok ()

section Parsing

variable (loads : Loads)

/-- `_json_object`. -/
def jsonObject (segment : List Char) (error : Complaint → Raised) (what : String) : Except Raised Members :=
  match b64uDecode segment with
  | none => .error (error (.malformed what))
  | some bytes =>
    match loads bytes with
    | .error .valueError => .error (error (.malformed what))
    | .error .recursionError => .error .recursionError
    | .ok (.obj members) => .ok members
    | .ok _ => .error (error (.notObject what))

/-- `decode_jwt_header`. -/
def decodeJwtHeader (token : List Char) : Except Raised Members := do
  bounded token maxJwtLength .jwtError "JWT"
  jsonObject loads (Py.partition '.' token).1 .jwtError "JWT header"

end Parsing

/-- `_numeric_date`. -/
def numericDate (claims : Members) (name : String) : Except Raised (Option ℚ) :=
  match claims.get name with
  | none => .ok none
  | some (.number value) => .ok (some value)
  | some _ => .error (.jwtError (.notNumber name))

section Verification

variable (loads : Loads) {Key : Type} (verify : Key → List UInt8 → List UInt8 → Bool)

/-- The keys of a caller: by their ids, or a single one. -/
inductive Keys (Key : Type) where
  | byId (keys : List (Points × Key))
  | single (key : Key)

/-- The key that a header names. -/
def signingKey (keys : Keys Key) (header : Members) : Except Raised Key :=
  match keys with
  | .single key => .ok key
  | .byId keys =>
    match header.get "kid" with
    | some (.str kid) =>
      match keys.lookup kid with
      | some key => .ok key
      | none => .error (.jwtError (.noSigningKey (header.get "kid")))
    | kid => .error (.jwtError (.noSigningKey kid))

/-- The signature and the text it signs, as bytes. -/
def signedParts (first second third : List Char) : Except Raised (List UInt8 × List UInt8) :=
  match b64uDecode third, ascii (first ++ '.' :: second) with
  | some signature, some signingInput => .ok (signature, signingInput)
  | _, _ => .error (.jwtError (.notBase64url "JWT"))

/-- All of `verify_jwt` that comes before the claims are read. -/
def checkSignature (keys : Keys Key) (token first second third : List Char) : Except Raised Unit := do
  let header ← decodeJwtHeader loads token
  if isText "RS256" (header.get "alg") then
    let key ← signingKey keys header
    let (signature, signingInput) ← signedParts first second third
    if verify key signature signingInput then .ok () else .error (.jwtError .badSignature)
  else .error (.jwtError (.algorithm "JWT" (header.get "alg")))

/-- The end of `verify_jwt`, on the claims. -/
def checkTimes (claims : Members) (now : Option ℤ) (clock leeway : ℤ) : Except Raised Members := do
  let expires ← numericDate claims "exp"
  let _ ← numericDate claims "iat"
  match expires with
  | none => .ok claims
  | some expires => if expires + leeway ≤ now.getD clock then .error (.jwtError .expired) else .ok claims

/-- `verify_jwt`; the clock is read if there is no `now`. -/
def verifyJwt (keys : Keys Key) (token : List Char) (now : Option ℤ) (clock leeway : ℤ) : Except Raised Members := do
  bounded token maxJwtLength .jwtError "JWT"
  match token.splitOn '.' with
  | [first, second, third] =>
    checkSignature loads verify keys token first second third
    let claims ← jsonObject loads second .jwtError "JWT payload"
    checkTimes claims now clock leeway
  | parts => .error (.jwtError (.segments 3 "JWT" parts.length))

end Verification

/-! ### What is accepted -/

/-- A segment decodes to an object. -/
def Decodes (loads : Loads) (segment : List Char) (members : Members) : Prop :=
  ∃ bytes, b64uDecode segment = some bytes ∧ loads bytes = .ok (.obj members)

/-- A member is a number, if it is there. -/
def NumberOrAbsent (claims : Members) (name : String) : Prop :=
  ∀ value, claims.get name = some value → ∃ number, value = .number number

open Fallible

section Accepted

variable {loads : Loads} {segment token first second third : List Char} {members header claims : Members}

@[simp] theorem bounded_eq_ok {limit : ℕ} {error : Complaint → Raised} {what : String} {u : Unit} :
    bounded token limit error what = .ok u ↔ token.length ≤ limit := by
  unfold bounded
  split
  · rename_i hlong
    simpa using hlong
  · rename_i hshort
    simpa using hshort

/-- Reading a segment. -/
@[simp] theorem jsonObject_eq_ok {error : Complaint → Raised} {what : String} :
    jsonObject loads segment error what = .ok members ↔ Decodes loads segment members := by
  unfold jsonObject Decodes
  cases b64uDecode segment with
  | none => simp
  | some bytes =>
    cases hloads : loads bytes with
    | error e => cases e <;> simp [hloads]
    | ok value => cases value <;> simp [hloads]

/-- A text that is a string is that string. -/
@[simp] theorem isText_eq_true {text : String} {value : Option Json} :
    isText text value = true ↔ value = some (.str (Points.ofString text)) := by
  unfold isText
  split <;> simp_all

/-- Reading a date. -/
theorem numericDate_eq_ok {name : String} {value : Option ℚ} :
    numericDate claims name = .ok value ↔ claims.get name = value.map .number := by
  unfold numericDate
  split
  · rename_i hnone
    cases value <;> simp [hnone]
  · rename_i number hnumber
    cases value <;> simp [hnumber]
  · rename_i other hnot hother
    cases value with
    | none => simp [hother]
    | some number =>
      have hne : other ≠ .number number := fun heq => hnot number heq
      simp [hother, hne]

/-- A date can be read exactly if it is a number or absent. -/
theorem exists_numericDate {name : String} :
    (∃ value, numericDate claims name = .ok value) ↔ NumberOrAbsent claims name := by
  simp only [numericDate_eq_ok, NumberOrAbsent]
  constructor
  · rintro ⟨value, heq⟩ found hfound
    rw [heq] at hfound
    obtain ⟨number, -, rfl⟩ := Option.map_eq_some_iff.mp hfound
    exact ⟨number, rfl⟩
  · intro hall
    cases hget : claims.get name with
    | none => exact ⟨none, rfl⟩
    | some found =>
      obtain ⟨number, rfl⟩ := hall found hget
      exact ⟨some number, rfl⟩

/-- The claims are returned as they are, if their dates are numbers and they have not expired. -/
theorem checkTimes_eq_ok {now : Option ℤ} {clock leeway : ℤ} {result : Members} :
    checkTimes claims now clock leeway = .ok result ↔
      result = claims ∧ NumberOrAbsent claims "iat" ∧ NumberOrAbsent claims "exp" ∧
        ∀ expires, claims.get "exp" = some (.number expires) → (now.getD clock : ℚ) < expires + leeway := by
  simp only [checkTimes, bind_eq_ok]
  rw [← exists_numericDate, ← exists_numericDate]
  constructor
  · rintro ⟨expires, hexp, issued, hiat, hresult⟩
    cases expires with
    | none =>
      cases hresult
      refine ⟨rfl, ⟨issued, hiat⟩, ⟨none, hexp⟩, fun expires hget => ?_⟩
      rw [numericDate_eq_ok.mp hexp] at hget
      cases hget
    | some expires =>
      dsimp only at hresult
      split at hresult
      · cases hresult
      · rename_i hfuture
        cases hresult
        refine ⟨rfl, ⟨issued, hiat⟩, ⟨some expires, hexp⟩, fun expires' hget => ?_⟩
        rw [numericDate_eq_ok.mp hexp] at hget
        cases hget
        exact not_le.mp hfuture
  · rintro ⟨rfl, ⟨issued, hiat⟩, ⟨expires, hexp⟩, hfuture⟩
    refine ⟨expires, hexp, issued, hiat, ?_⟩
    cases expires with
    | none => rfl
    | some expires => exact if_neg (not_le.mpr (hfuture expires (numericDate_eq_ok.mp hexp)))

variable {Key : Type} {verify : Key → List UInt8 → List UInt8 → Bool}

/-- A key is found if the header names one that is there. -/
theorem signingKey_byId_eq_ok {keys : List (Points × Key)} {key : Key} :
    signingKey (.byId keys) header = .ok key ↔ ∃ kid, header.get "kid" = some (.str kid) ∧ keys.lookup kid = some key := by
  simp only [signingKey]
  split
  · rename_i kid hkid
    cases hkey : keys.lookup kid <;> simp [hkid, hkey]
  · rename_i value hnot
    have hnone : ∀ kid, header.get "kid" ≠ some (.str kid) := fun kid heq => hnot kid heq
    simp [hnone]

/-- The signature and what it signs are the segments as they came. -/
theorem signedParts_eq_ok {signature signingInput : List UInt8} :
    signedParts first second third = .ok (signature, signingInput) ↔
      b64uDecode third = some signature ∧ ascii (first ++ '.' :: second) = some signingInput := by
  unfold signedParts
  cases b64uDecode third with
  | none => simp
  | some found => cases ascii (first ++ '.' :: second) <;> simp

/-- What is signed by a key. -/
def Signed (loads : Loads) (verify : Key → List UInt8 → List UInt8 → Bool) (keys : Keys Key)
    (first second third : List Char) : Prop :=
  ∃ header key signature signingInput, Decodes loads first header ∧ header.get "alg" = some (.str (Points.ofString "RS256")) ∧
    signingKey keys header = .ok key ∧ b64uDecode third = some signature ∧
    ascii (first ++ '.' :: second) = some signingInput ∧ verify key signature signingInput = true

/-- The signature is right if a key that the header names says so. -/
theorem checkSignature_eq_ok {keys : Keys Key} {u : Unit} (hsplit : token.splitOn '.' = [first, second, third])
    (hlength : token.length ≤ maxJwtLength) :
    checkSignature loads verify keys token first second third = .ok u ↔
      Signed loads verify keys first second third := by
  simp only [checkSignature, decodeJwtHeader, bind_eq_ok, bounded_eq_ok, hlength, true_and, exists_const,
    jsonObject_eq_ok, Py.partition_fst_of_splitOn hsplit, Signed]
  constructor
  · rintro ⟨header, hheader, hrest⟩
    split at hrest
    · rename_i halg
      simp only [bind_eq_ok] at hrest
      obtain ⟨key, hkey, ⟨signature, signingInput⟩, hparts, hverify⟩ := hrest
      obtain ⟨hsignature, hinput⟩ := signedParts_eq_ok.mp hparts
      dsimp only at hverify
      split at hverify
      · rename_i hvalid
        exact ⟨header, key, signature, signingInput, hheader, isText_eq_true.mp halg, hkey, hsignature, hinput, hvalid⟩
      · cases hverify
    · cases hrest
  · rintro ⟨header, key, signature, signingInput, hheader, halg, hkey, hsignature, hinput, hvalid⟩
    refine ⟨header, hheader, ?_⟩
    rw [if_pos (isText_eq_true.mpr halg), hkey, ok_bind, signedParts_eq_ok.mpr ⟨hsignature, hinput⟩, ok_bind]
    exact if_pos hvalid

/-- The claims are returned for a token that is short enough, has three segments and is signed by
the key, and they are then its payload. -/
theorem verifyJwt_eq_ok {keys : Keys Key} {now : Option ℤ} {clock leeway : ℤ} :
    verifyJwt loads verify keys token now clock leeway = .ok claims ↔
      token.length ≤ maxJwtLength ∧ ∃ first second third, token.splitOn '.' = [first, second, third] ∧
        Signed loads verify keys first second third ∧ Decodes loads second claims ∧
        NumberOrAbsent claims "iat" ∧ NumberOrAbsent claims "exp" ∧
        ∀ expires, claims.get "exp" = some (.number expires) → (now.getD clock : ℚ) < expires + leeway := by
  by_cases hlength : token.length ≤ maxJwtLength
  · simp only [verifyJwt, bind_eq_ok, bounded_eq_ok, hlength, true_and, exists_const]
    split
    · rename_i first second third hsplit
      simp only [bind_eq_ok, checkSignature_eq_ok hsplit hlength, jsonObject_eq_ok, checkTimes_eq_ok, exists_const]
      constructor
      · rintro ⟨hsigned, found, hfound, rfl, htimes⟩
        exact ⟨first, second, third, hsplit, hsigned, hfound, htimes⟩
      · rintro ⟨first', second', third', heq, hsigned, hfound, htimes⟩
        rw [hsplit] at heq
        cases heq
        exact ⟨hsigned, claims, hfound, rfl, htimes⟩
    · rename_i parts hnot
      simp only [reduceCtorEq, false_iff]
      rintro ⟨first, second, third, heq, -⟩
      exact hnot first second third heq
  · simp [verifyJwt, hlength]

/-- The claims are returned exactly for a token within the length cap, of three segments, whose
header is an object that names the algorithm and a key of the map, whose signature that key
verifies over the first two segments as they came, and whose payload is an object with dates that
are numbers and an expiry that is still to come; and it is that payload that is returned. -/
theorem verifyJwt_iff (loads : Loads) (verify : Key → List UInt8 → List UInt8 → Bool) (keys : List (Points × Key))
    (token : List Char) (now : Option ℤ) (clock leeway : ℤ) (claims : Members) :
    verifyJwt loads verify (.byId keys) token now clock leeway = .ok claims ↔
      token.length ≤ maxJwtLength ∧ ∃ first second third, token.splitOn '.' = [first, second, third] ∧
        (∃ header kid key signature signingInput, Decodes loads first header ∧
          header.get "alg" = some (.str (Points.ofString "RS256")) ∧ header.get "kid" = some (.str kid) ∧
          keys.lookup kid = some key ∧ b64uDecode third = some signature ∧
          ascii (first ++ '.' :: second) = some signingInput ∧ verify key signature signingInput = true) ∧
        Decodes loads second claims ∧ NumberOrAbsent claims "iat" ∧ NumberOrAbsent claims "exp" ∧
        ∀ expires, claims.get "exp" = some (.number expires) → (now.getD clock : ℚ) < expires + leeway := by
  have hsigned : ∀ first second third, Signed loads verify (.byId keys) first second third ↔
      ∃ header kid key signature signingInput, Decodes loads first header ∧
        header.get "alg" = some (.str (Points.ofString "RS256")) ∧ header.get "kid" = some (.str kid) ∧
        keys.lookup kid = some key ∧ b64uDecode third = some signature ∧
        ascii (first ++ '.' :: second) = some signingInput ∧ verify key signature signingInput = true := by
    intro first second third
    simp only [Signed, signingKey_byId_eq_ok]
    constructor
    · rintro ⟨header, key, signature, signingInput, hheader, halg, ⟨kid, hkid, hkey⟩, hrest⟩
      exact ⟨header, kid, key, signature, signingInput, hheader, halg, hkid, hkey, hrest⟩
    · rintro ⟨header, kid, key, signature, signingInput, hheader, halg, hkid, hkey, hrest⟩
      exact ⟨header, key, signature, signingInput, hheader, halg, ⟨kid, hkid, hkey⟩, hrest⟩
  simp only [verifyJwt_eq_ok, hsigned]

end Accepted

/-! ### What escapes -/

/-- A segment decodes to a text that is nested too deep. -/
def TooDeep (loads : Loads) (segment : List Char) : Prop :=
  ∃ bytes, b64uDecode segment = some bytes ∧ loads bytes = .error .recursionError

section Escaping

variable {loads : Loads} {segment token first second third : List Char} {header claims : Members}
  {announced : Raised → Prop} {error : Complaint → Raised}

/-- A length that is refused is refused as announced. -/
theorem not_escapes_bounded (herror : ∀ complaint, announced (error complaint)) (limit : ℕ) (what : String) :
    ¬Escapes announced (bounded token limit error what) := by
  unfold bounded
  split <;> simp [herror]

/-- Only what is nested too deep escapes the reading of a segment. -/
theorem escapes_jsonObject (herror : ∀ complaint, announced (error complaint)) (hdeep : ¬announced .recursionError)
    (what : String) : Escapes announced (jsonObject loads segment error what) ↔ TooDeep loads segment := by
  unfold jsonObject TooDeep
  cases b64uDecode segment with
  | none => simp [herror]
  | some bytes =>
    cases hloads : loads bytes with
    | error e => cases e <;> simp [hloads, herror, hdeep]
    | ok value => cases value <;> simp [hloads, herror]

/-- The length of a JWT is refused as announced. -/
@[simp] theorem not_escapes_bounded_jwt (limit : ℕ) (what : String) :
    ¬Escapes Raised.IsJwtError (bounded token limit .jwtError what) :=
  not_escapes_bounded (fun complaint => show (Raised.jwtError complaint).IsJwtError from trivial) limit what

/-- What escapes the reading of a segment of a JWT. -/
@[simp] theorem escapes_jsonObject_jwt (what : String) :
    Escapes Raised.IsJwtError (jsonObject loads segment .jwtError what) ↔ TooDeep loads segment :=
  escapes_jsonObject (fun complaint => show (Raised.jwtError complaint).IsJwtError from trivial) id what

/-- What escapes `decode_jwt_header`. -/
theorem escapes_decodeJwtHeader :
    Escapes Raised.IsJwtError (decodeJwtHeader loads token) ↔
      token.length ≤ maxJwtLength ∧ TooDeep loads (Py.partition '.' token).1 := by
  simp [decodeJwtHeader, escapes_bind]

variable {Key : Type} {verify : Key → List UInt8 → List UInt8 → Bool} {keys : Keys Key}

/-- The search for a key fails as announced. -/
theorem not_escapes_signingKey : ¬Escapes Raised.IsJwtError (signingKey keys header) := by
  unfold signingKey
  split
  · simp
  · split
    · split <;> simp [Raised.IsJwtError]
    · simp [Raised.IsJwtError]

/-- So does the reading of the signature. -/
theorem not_escapes_signedParts : ¬Escapes Raised.IsJwtError (signedParts first second third) := by
  unfold signedParts
  split <;> simp [Raised.IsJwtError]

/-- What escapes the checks before the claims is what escapes the reading of the header. -/
theorem escapes_checkSignature :
    Escapes Raised.IsJwtError (checkSignature loads verify keys token first second third) ↔
      Escapes Raised.IsJwtError (decodeJwtHeader loads token) := by
  rw [checkSignature, escapes_bind, or_iff_left]
  rintro ⟨header, -, hescapes⟩
  split at hescapes
  · simp only [escapes_bind, not_escapes_signingKey, not_escapes_signedParts, false_or] at hescapes
    obtain ⟨key, -, parts, -, hescapes⟩ := hescapes
    split at hescapes <;> simp [Raised.IsJwtError] at hescapes
  · simp [Raised.IsJwtError] at hescapes

/-- A date that is no number is refused as announced. -/
theorem not_escapes_numericDate (name : String) : ¬Escapes Raised.IsJwtError (numericDate claims name) := by
  unfold numericDate
  split <;> simp [Raised.IsJwtError]

/-- So is a token that has expired. -/
theorem not_escapes_checkTimes {now : Option ℤ} {clock leeway : ℤ} :
    ¬Escapes Raised.IsJwtError (checkTimes claims now clock leeway) := by
  simp only [checkTimes, escapes_bind, not_escapes_numericDate, false_or]
  rintro ⟨expires, -, issued, -, hescapes⟩
  cases expires with
  | none => exact escapes_ok _ hescapes
  | some expires =>
    dsimp only at hescapes
    split at hescapes <;> simp [Raised.IsJwtError] at hescapes

/-- What escapes `verify_jwt`. -/
theorem escapes_verifyJwt {now : Option ℤ} {clock leeway : ℤ} :
    Escapes Raised.IsJwtError (verifyJwt loads verify keys token now clock leeway) ↔
      token.length ≤ maxJwtLength ∧ ∃ first second third, token.splitOn '.' = [first, second, third] ∧
        (TooDeep loads first ∨ Signed loads verify keys first second third ∧ TooDeep loads second) := by
  by_cases hlength : token.length ≤ maxJwtLength
  · rw [verifyJwt, escapes_bind]
    simp only [not_escapes_bounded_jwt, bounded_eq_ok, hlength, true_and, exists_const, false_or]
    split
    · rename_i first second third hsplit
      simp only [escapes_bind, escapes_checkSignature, escapes_decodeJwtHeader, hlength, true_and,
        Py.partition_fst_of_splitOn hsplit, checkSignature_eq_ok hsplit hlength,
        escapes_jsonObject_jwt, not_escapes_checkTimes, and_false, exists_const, or_false]
      constructor
      · intro hescapes
        exact ⟨first, second, third, hsplit, hescapes⟩
      · rintro ⟨first', second', third', heq, hescapes⟩
        rw [hsplit] at heq
        cases heq
        exact hescapes
    · rename_i parts hnot
      simp only [escapes_error, Raised.IsJwtError, not_true, false_iff]
      rintro ⟨first, second, third, heq, -⟩
      exact hnot first second third heq
  · simp [verifyJwt, bounded, not_le.mp hlength, Raised.IsJwtError, hlength]

end Escaping

end FxaLite.Crypto
