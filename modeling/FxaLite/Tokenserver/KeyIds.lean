import FxaLite.Crypto.ScopedKeys
import FxaLite.Tokenserver.Bearer
import FxaLite.Tokenserver.Reliance

/-!
# The key that a token request names

A browser sends the `kid` of its Sync key as `X-KeyID`. The tokenserver takes it apart, moves the
Sync user of the account by it, and puts it together again in the credential it mints for the
storage. For a key that was derived from `kB` what comes out is what went in.
-/

namespace FxaLite.Tokenserver

open FxaLite.OAuth FxaLite.Crypto Concurrent

/-! ### Reading the headers -/

def invalidKeyId (description : String) : Raised := .refused "invalid-key-id" description
def badClientStateHeader : Raised := .refused "error" "Invalid client state value"

/-- `CLIENT_STATE_RE.match`. -/
def isClientState (value : List Char) : Bool :=
  Py.matchesClass (fun c => c.isAlphanum || c = '.' || c = '_' || c = '-') 1 32 value

/-- `_x_client_state`. -/
def xClientState (header : Option (List Char)) : Except Failure (Option (List Char)) :=
  match header with
  | none => .ok none
  | some value => if isClientState value then .ok (some value) else .error (.raised badClientStateHeader)

/-- The bytes of the second half of an `X-KeyID`. -/
def decodeKeyState (encoded : List Char) : Option (List UInt8) :=
  if Py.matchesClass inAlphabet 1 encoded.length encoded then Base64.urlsafeDecode (encoded ++ missingPads encoded) else none

/-- The two halves of an `X-KeyID`. -/
def parseKeyId (raw : List Char) : Except Failure (ℤ × List Char) :=
  if !raw.all isAscii then .error (.raised (invalidKeyId "Invalid X-KeyID header"))
  else
    let parts := Py.partition '-' raw
    if !parts.2.1 then .error (.raised invalidCredentials)
    else
      match Py.int parts.1, decodeKeyState parts.2.2 with
      | some keysChangedAt, some state => .ok (keysChangedAt, Hex.encode state)
      | _, _ => .error (.raised invalidCredentials)

/-- `_key_id`. -/
def keyId (xKeyId clientStateHeader : Option (List Char)) : Except Failure (ℤ × List Char) :=
  match xKeyId with
  | none => .error (.raised (invalidKeyId "Missing X-KeyID header"))
  | some raw => do
    let halves ← parseKeyId raw
    let declared ← xClientState clientStateHeader
    if declared.isSome && declared ≠ some halves.2 then
      .error (.raised (invalidClientState "Client state mismatch in X-Client-State header"))
    else .ok halves

/-- An integer in at least so many places. -/
def zeroPadded (width : ℕ) (n : ℤ) : List Char :=
  let sign := if n < 0 then ['-'] else []
  let digits := Py.str n.natAbs
  sign ++ List.replicate (width - sign.length - digits.length) '0' ++ digits

/-- `_fxa_kid`; `none` is a `ValueError`. -/
def fxaKid (timestamp : ℤ) (clientState : List Char) : Option (List Char) :=
  (Hex.decode clientState).map fun state => zeroPadded 13 timestamp ++ '-' :: b64uEncode state

/-- A claim as an integer; a number of JSON is one if it is whole. -/
def intClaim : Option Json → Option ℤ
  | some (.number value) => if value.den = 1 then some value.num else none
  | _ => none

/-- The headers of a token request. -/
structure Headers where
  authorization : Option (List Char)
  xKeyId : Option (List Char)
  xClientState : Option (List Char)

/-- What `_auth_data` reads of a request. -/
def readRequest {rsa : Rsa} (py : PyJson) (keys : SigningKeys rsa) (server : Server) (headers : Headers) (now : ℤ)
    (nowMs : ℕ) : Except Failure TokenRequest := do
  let claims ← verifiedAccessToken py keys server headers.authorization now
  let (timestamp, state) ← keyId headers.xKeyId headers.xClientState
  match claims.get "sub" with
  | some (.str sub) =>
    match sub.text? with
    | some sub => .ok ⟨String.ofList sub, intClaim (claims.get "fxa-generation"), timestamp, String.ofList state, nowMs⟩
    | none => .error .uncaught
  | _ => .error .uncaught

/-! ### The key of a browser -/

section Kid

variable {timestamp : ℤ} {text : List Char} {state : List UInt8}

/-- A time that is written is in digits. -/
theorem isDigit_of_intStr (htext : Py.intStr timestamp = some text) (hpos : 0 ≤ timestamp) :
    text = Py.str timestamp.natAbs ∧ ∀ c ∈ text, c.isDigit = true := by
  rw [Py.intStr, Option.ite_none_left_eq_some, Option.some.injEq, if_neg (not_lt.mpr hpos)] at htext
  obtain ⟨-, rfl⟩ := htext
  exact ⟨rfl, fun c hc => Py.isDigit_of_mem_str hc⟩

/-- The second half of a `kid` is read. -/
theorem decodeKeyState_b64uEncode (hne : state ≠ []) : decodeKeyState (b64uEncode state) = some state := by
  have hdecoded := b64uDecode_b64uEncode state
  have hnonempty : b64uEncode state ≠ [] := by
    intro hnil
    rw [hnil] at hdecoded
    exact hne (Option.some.inj hdecoded).symm
  have hline : (b64uEncode state).getLast? ≠ some '\n' := by
    intro hlast
    exact absurd (inAlphabet_of_mem_b64uEncode (List.mem_of_getLast? hlast)) (by decide)
  have hmatch : Py.matchesClass inAlphabet 1 (b64uEncode state).length (b64uEncode state) = true :=
    (Py.matchesClass_eq_true hline).mpr
      ⟨List.length_pos_of_ne_nil hnonempty, le_rfl, fun c hc => inAlphabet_of_mem_b64uEncode hc⟩
  rw [decodeKeyState, if_pos hmatch]
  unfold b64uDecode at hdecoded
  split at hdecoded
  · exact hdecoded
  · cases hdecoded

/-- A `kid` is read as the time and the state it was made of. -/
theorem parseKeyId_kid (htext : Py.intStr timestamp = some text) (hpos : 0 ≤ timestamp) (hne : state ≠ []) :
    parseKeyId (text ++ '-' :: b64uEncode state) = .ok (timestamp, Hex.encode state) := by
  obtain ⟨-, hdigits⟩ := isDigit_of_intStr htext hpos
  have hhyphen : '-' ∉ text := fun hmem => absurd (hdigits _ hmem) (by decide)
  have hascii : (text ++ '-' :: b64uEncode state).all isAscii = true := by
    rw [List.all_eq_true]
    intro c hc
    obtain hc | hc := List.mem_append.mp hc
    · have hrange := Py.toNat_of_isDigit (hdigits c hc)
      exact decide_eq_true (by omega)
    · obtain rfl | hc := List.mem_cons.mp hc
      · decide
      · exact decide_eq_true (toNat_lt_of_mem_b64uEncode hc)
  simp only [parseKeyId, hascii, Py.partition_append '-' text _ hhyphen, Py.int_intStr htext, decodeKeyState_b64uEncode hne,
    Bool.not_true, Bool.false_eq_true, if_false]

/-- And the two are put together to the `kid` again, if the time takes all its places. -/
theorem fxaKid_encode (htext : Py.intStr timestamp = some text) (hpos : 0 ≤ timestamp) (hlength : text.length = 13) :
    fxaKid timestamp (Hex.encode state) = some (text ++ '-' :: b64uEncode state) := by
  obtain ⟨hstr, -⟩ := isDigit_of_intStr htext hpos
  have hpadded : zeroPadded 13 timestamp = text := by
    rw [zeroPadded, if_neg (not_lt.mpr hpos), ← hstr, hlength]
    rfl
  rw [fxaKid, Hex.decode_encode, Option.map_some, hpadded]

end Kid

section Browser

variable {rsa : Rsa} {py : PyJson} {signers keys : SigningKeys rsa} {server : Server} {response : TokenResponse}
  {accessToken scheme : List Char} {h : Sha256} {scope : List Char} {kb : List UInt8} {uid : List Char}
  {keyRotationTimestamp : ℤ} {keyRotationSecret : List UInt8} {key : ScopedKey} {declared : Option (List Char)}

/-- A fingerprint has sixteen bytes. -/
theorem length_fingerprint (h : Sha256) (kb : List UInt8) : (fingerprint h kb).length = 16 := by
  rw [fingerprint, List.length_take, h.length_sha256]
  rfl

/-- A client state may be declared. -/
theorem isClientState_clientState (h : Sha256) (kb : List UInt8) : isClientState (clientState h kb) = true := by
  have hdigit : ∀ n < 16, (Hex.digit n).isAlphanum = true := by decide
  have hdigits : ∀ c ∈ clientState h kb, c.isAlphanum = true := by
    intro c hc
    obtain ⟨n, hn, rfl⟩ := Hex.exists_digit_of_mem hc
    exact hdigit n hn
  have hline : (clientState h kb).getLast? ≠ some '\n' :=
    fun hlast => absurd (hdigits _ (List.mem_of_getLast? hlast)) (by decide)
  have hlength : (clientState h kb).length = 32 := by rw [clientState, Hex.length_encode, length_fingerprint]
  exact (Py.matchesClass_eq_true hline).mpr ⟨by omega, by omega, fun c hc => by simp [hdigits c hc]⟩

/-- The `kid` of a Sync key is read as the time of the last rotation and the client state of `kB`. -/
theorem keyId_kid (hkey : deriveScopedKey h scope kb uid keyRotationTimestamp keyRotationSecret = .ok key)
    (hsync : scope ∈ syncScopes) (hpos : 0 ≤ keyRotationTimestamp)
    (hdeclared : ∀ state ∈ declared, state = clientState h kb) :
    keyId (some key.kid) declared = .ok (keyRotationTimestamp, clientState h kb) := by
  obtain ⟨-, -, -, -, timestamp, htimestamp, -, ⟨-, rfl⟩ | ⟨hother, -⟩⟩ := deriveScopedKey_eq_ok hkey
  · have hne : fingerprint h kb ≠ [] := List.ne_nil_of_length_pos (by rw [length_fingerprint]; decide)
    have hparsed : parseKeyId (legacySyncKey h scope kb timestamp).kid = .ok (keyRotationTimestamp, clientState h kb) :=
      parseKeyId_kid htimestamp hpos hne
    rw [keyId, hparsed, Fallible.ok_bind]
    cases declared with
    | none => rfl
    | some state =>
      obtain rfl := hdeclared state rfl
      rw [xClientState, if_pos (isClientState_clientState h kb), Fallible.ok_bind]
      simp
  · exact absurd hsync hother

/-- It is put together again. -/
theorem fxaKid_kid (hkey : deriveScopedKey h scope kb uid keyRotationTimestamp keyRotationSecret = .ok key)
    (hsync : scope ∈ syncScopes) (hpos : 0 ≤ keyRotationTimestamp) :
    fxaKid keyRotationTimestamp (clientState h kb) = some key.kid := by
  obtain ⟨-, -, -, -, timestamp, htimestamp, hlength, ⟨-, rfl⟩ | ⟨hother, -⟩⟩ := deriveScopedKey_eq_ok hkey
  · exact fxaKid_encode htimestamp hpos hlength
  · exact absurd hsync hother

/-- A time in thirteen places is not zero. -/
theorem keyRotationTimestamp_ne_zero
    (hkey : deriveScopedKey h scope kb uid keyRotationTimestamp keyRotationSecret = .ok key) : keyRotationTimestamp ≠ 0 := by
  rintro rfl
  obtain ⟨-, -, -, -, timestamp, htimestamp, hlength, -⟩ := deriveScopedKey_eq_ok hkey
  cases htimestamp
  exact absurd hlength (by decide)

/-- A browser that presents an access token and the `kid` of its Sync key is taken for the account of the token with
the client state of `kB`, exactly if the scope of the token implies that of Sync and it has not expired; and the
credential that it is then given names its key by the same `kid`. -/
theorem browser_key_named (hdecimal : py.Decimal) (hissued : Issued py signers server response accessToken)
    (haccepts : keys.Accepts signers) (hscheme : Py.lower scheme = "bearer".toList)
    (hkey : deriveScopedKey h scope kb uid keyRotationTimestamp keyRotationSecret = .ok key)
    (hsync : scope ∈ syncScopes) (hpos : 0 ≤ keyRotationTimestamp)
    (hdeclared : ∀ state ∈ declared, state = clientState h kb) (now : ℤ) (nowMs : ℕ) :
    let claims := response.accessToken
    let request : TokenRequest :=
      ⟨claims.sub, claims.generation, keyRotationTimestamp, String.ofList (clientState h kb), nowMs⟩
    (∃ granted, readScope response.scope = .ok granted ∧
      readRequest py keys server ⟨some (scheme ++ ' ' :: accessToken), some key.kid, declared⟩ now nowMs =
        if now < claims.exp ∧ granted.contains oldsync = true ∧ claims.sub ≠ "" then .ok request
        else .error (.raised invalidCredentials)) ∧
    ∀ db facts, ((token request).exec db).1 = .ok facts →
      fxaKid (facts.keysChangedAt.getD facts.generation) (clientState h kb) = some key.kid := by
  intro claims request
  obtain ⟨granted, hread, hverified⟩ := verifiedAccessToken_eq hissued hdecimal haccepts hscheme now
  refine ⟨⟨granted, hread, ?_⟩, fun db facts hfacts => ?_⟩
  · rw [readRequest, hverified]
    split
    · have hgeneration : intClaim (response.accessToken.claims.get "fxa-generation") = response.accessToken.generation := by
        rw [(get_optional_claims _).1]
        cases response.accessToken.generation with
        | none => rfl
        | some generation => simp [intClaim, claimInt]
      have hsub : response.accessToken.claims.get "sub" = some (.str (Points.ofString response.accessToken.sub)) := rfl
      have htext : (Points.ofString response.accessToken.sub).text? = some response.accessToken.sub.toList :=
        Points.text?_map_toNat _
      simp only [Fallible.ok_bind, keyId_kid hkey hsync hpos hdeclared, hsub, htext, hgeneration, String.ofList_toList]
      rfl
    · rfl
  · have hanswers := (relies_token request db).exec UserDb.Grows.refl
    have hnamed := (hanswers facts hfacts).2 (keyRotationTimestamp_ne_zero hkey)
    rw [hnamed, Option.getD_some]
    exact fxaKid_kid hkey hsync hpos

end Browser

/-! ### A browser with a key of zeros -/

/-- A code for the scope of Sync. -/
def syncCode : FxaLite.Accounts.Db := { oneCode with oauthCodes := oneCode.oauthCodes.map fun row => { row with scope := oldsyncScope } }

/-- What its exchange is answered with. -/
def syncResponse : TokenResponse :=
  { smallResponse with
    accessToken := newAccessToken smallServer (presented ⟨0, Nat.zero_lt_two⟩).2
      ⟨browser "5882386c6d801776" "https://accounts.example", "u", "u@accounts.example", oldsync, 1, 1, 1, 1, 1, none, none, true, []⟩ 21600
    scope := oldsyncScope }

/-- A key of zeros. -/
def zeroKey : ScopedKey := legacySyncKey blankHash oldsyncScope.toList (List.replicate 32 0) "1700000000000".toList

/-- It is taken for what it is, and named in the credential. -/
theorem zero_key_named :
    ∃ accessToken, smallKeys.sign decimalPython syncResponse.accessToken.claims accessTokenTyp = .ok accessToken ∧
      readRequest decimalPython smallKeys smallServer ⟨some ("Bearer".toList ++ ' ' :: accessToken), some zeroKey.kid, none⟩ 21601
          2000 = .ok ⟨"u", some 1, 1700000000000, "00000000000000000000000000000000", 2000⟩ ∧
      fxaKid 1700000000000 (clientState blankHash (List.replicate 32 0)) = some zeroKey.kid := by
  have hsigned : ((smallKeys.sign decimalPython syncResponse.accessToken.claims accessTokenTyp).toOption.any
      fun token => token.length ≤ maxJwtLength) = true := by decide +kernel
  obtain ⟨accessToken, htoken, hlength⟩ := Option.any_eq_true _ _ |>.mp hsigned
  have hanswer : ((oauthToken smallServer (presented 0).1 (presented 0).2).exec syncCode).1.toOption = some syncResponse := by
    decide
  have hissued : Issued decimalPython smallKeys smallServer syncResponse accessToken :=
    ⟨⟨syncCode, _, _, Fallible.toOption_eq_some.mp hanswer⟩, Fallible.toOption_eq_some.mp htoken, by decide,
      of_decide_eq_true hlength⟩
  have hkey : deriveScopedKey blankHash oldsyncScope.toList (List.replicate 32 0) (List.replicate 32 '0') 1700000000000
      nullKeyRotationSecret = .ok zeroKey := by rfl
  have hdeclared : ∀ state ∈ (none : Option (List Char)), state = clientState blankHash (List.replicate 32 0) := by simp
  have hscheme : Py.lower "Bearer".toList = "bearer".toList := by decide
  obtain ⟨⟨granted, hgranted, hread⟩, hnamed⟩ := browser_key_named decimal_decimalPython hissued smallKeys.accepts_self hscheme
    hkey (by decide) (by decide) hdeclared 21601 2000
  have hscope : (readScope oldsyncScope).toOption.any (·.contains oldsync) = true := by decide
  have hcontains : granted.contains oldsync = true := by
    have hsome : readScope oldsyncScope = .ok granted := hgranted
    rwa [hsome] at hscope
  refine ⟨accessToken, Fallible.toOption_eq_some.mp htoken, ?_, hnamed (UserDb.fresh ["u"]) ⟨1, 1, some 1700000000000⟩ (by rfl)⟩
  exact hread.trans (if_pos ⟨by decide, hcontains, by decide⟩)

end FxaLite.Tokenserver
