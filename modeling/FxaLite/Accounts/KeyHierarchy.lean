import FxaLite.Accounts.Database
import FxaLite.Accounts.Throttle
import FxaLite.Crypto.Tokens
import FxaLite.Lib.Machine
import FxaLite.Lib.PyText

/-!
# The keys of an account

`accounts.py` and the routes of `/account` that hand out key fetch tokens. An account holds kA and,
wrapped twice, kB. Each sign-in takes one wrapping off under what the password is stretched to, and
seals the rest under a fresh token; the client opens it and takes the other off. Whatever happens in
between, this ends in the keys that the account was made with.
-/

namespace FxaLite.Accounts

open Crypto Reactive

/-! ### The tables -/

/-- `bytes.hex`. -/
def hexText (bytes : List UInt8) : String := String.ofList (Hex.encode bytes)

/-- `bytes.fromhex`. -/
def fromHex (text : String) : Except ValueError (List UInt8) :=
  match Hex.decode text.toList with
  | none => .error .fromHex
  | some bytes => .ok bytes

/-- The errors of these routes; an `IntegrityError` or a `ValueError` is none that a client is told of. -/
inductive SignInError where
  | featureNotEnabled
  | accountExists (email : String)
  | unknownAccount (email : String)
  | tooManyRequests (retryAfter : ℤ)
  | incorrectPassword (dbEmail requestEmail : String)
  | unauthorized (message : String)
  | integrityError
  | valueError (raised : ValueError)
  deriving DecidableEq, Repr

namespace Db

variable (db : Db)

/-- `account_by_email`, of an email that is normalized. -/
def accountByEmail (normalized : String) : Option Account := db.accounts.find? (·.normalizedEmail = normalized)

/-- `create_account`: neither the uid nor the normalized email may be taken. -/
def createAccount (account : Account) : Except SignInError Db :=
  if (db.account account.uid).isSome || (db.accountByEmail account.normalizedEmail).isSome then
    .error (.accountExists account.email)
  else .ok { db with accounts := db.accounts ++ [account] }

/-- `delete_account`: the rows of every other table go with it. -/
def deleteAccount (uid : String) : Db where
  accounts := db.accounts.filter (·.uid ≠ uid)
  sessionTokens := db.sessionTokens.filter (·.uid ≠ uid)
  keyFetchTokens := db.keyFetchTokens.filter (·.uid ≠ uid)
  oauthCodes := db.oauthCodes.filter (·.uid ≠ uid)
  refreshTokens := db.refreshTokens.filter (·.uid ≠ uid)

/-- `create_session_token`: its id is its own, and it has an account. -/
def createSessionToken (token : SessionToken) : Except SignInError Db :=
  if (db.sessionToken token.tokenId).isSome || (db.account token.uid).isNone then .error .integrityError
  else .ok { db with sessionTokens := db.sessionTokens ++ [token] }

/-- `reauthenticate_session_token`. -/
def reauthenticateSessionToken (tokenId : String) (authAt : ℤ) : Db :=
  { db with
    sessionTokens := db.sessionTokens.map fun token =>
      if token.tokenId = tokenId then { token with authAt } else token }

/-- `create_key_fetch_token`: its id is its own, and it has an account. -/
def createKeyFetchToken (token : KeyFetchToken) : Except SignInError Db :=
  if (db.keyFetchToken token.tokenId).isSome || (db.account token.uid).isNone then .error .integrityError
  else .ok { db with keyFetchTokens := db.keyFetchTokens ++ [token] }

end Db

/-! ### `accounts.py` -/

/-- What is taken from the interpreter: its cryptography and the lower case of a text. -/
structure Host extends Kdf where
  lower : List Char → List Char

/-- `secrets.token_bytes`. -/
abbrev Random (n : ℕ) := { bytes : List UInt8 // bytes.length = n }

/-- What is drawn for a new account. -/
structure AccountSecrets where
  uid : Random 16
  ka : Random 32
  wrapWrapKb : Random 32
  authSalt : Random 32

variable (host : Host)

/-- `normalize_email`. -/
def normalizeEmail (email : String) : String := String.ofList (host.lower (Py.strip email.toList))

/-- The row that `provision` makes. -/
def newAccount (email : String) (stretched : StretchedPassword) (random : AccountSecrets) (createdAt : ℤ) : Account where
  uid := hexText random.uid
  email := String.ofList (Py.strip email.toList)
  normalizedEmail := normalizeEmail host email
  ka := hexText random.ka
  wrapWrapKb := hexText random.wrapWrapKb
  authSalt := hexText random.authSalt
  verifyHash := hexText (stretched.verifyHash host.toSha256)
  verifierSetAt := createdAt
  keysChangedAt := createdAt
  profileChangedAt := createdAt

/-- `provision`. -/
def provision (db : Db) (email : String) (authPw : List UInt8) (random : AccountSecrets) (createdAt : ℤ) :
    Except SignInError (Account × StretchedPassword × Db) := do
  let stretched := stretch host.toKdf authPw random.authSalt
  let account := newAccount host email stretched random createdAt
  let db ← db.createAccount account
  return (account, stretched, db)

/-- `authenticate`, and the throttle once it has been asked and told. -/
def authenticate (db : Db) (throttle : Throttle) (email : String) (authPw : List UInt8) (now : ℚ) :
    Except SignInError (Account × StretchedPassword) × Throttle :=
  match db.accountByEmail (normalizeEmail host email) with
  | none => (.error (.unknownAccount email), throttle)
  | some account =>
    let key := normalizeEmail host email
    let (wait, throttle) := throttle.retryAfter key now
    if wait ≠ 0 then (.error (.tooManyRequests wait), throttle)
    else
      match fromHex account.authSalt, fromHex account.verifyHash with
      | .ok authSalt, .ok verifyHash =>
        let stretched := stretch host.toKdf authPw authSalt
        if stretched.verifyHash host.toSha256 ≠ verifyHash then
          (.error (.incorrectPassword account.email (String.ofList (Py.strip email.toList))), throttle.recordFailure key now)
        else (.ok (account, stretched), throttle.recordSuccess key)
      | .error raised, _ => (.error (.valueError raised), throttle)
      | _, .error raised => (.error (.valueError raised), throttle)

/-- A `ValueError` that nothing catches. -/
def uncaught {α : Type} (x : Except ValueError α) : Except SignInError α := x.mapError .valueError

/-- `start_session`. -/
def startSession (db : Db) (account : Account) (seed : Random 32) (createdAt : ℤ) :
    Except SignInError (TokenKeys × SessionToken × Db) := do
  let keys ← uncaught (deriveTokenKeys host.toSha256 .session seed)
  let token : SessionToken := ⟨hexText keys.id, account.uid, createdAt, createdAt⟩
  let db ← db.createSessionToken token
  return (keys, token, db)

/-- What `start_key_fetch` seals for an account. -/
def sealKeys (account : Account) (stretched : StretchedPassword) (bundleKey : List UInt8) :
    Except ValueError (List UInt8) := do
  let wrapWrapKb ← fromHex account.wrapWrapKb
  let wrapKb ← stretched.wrap host.toSha256 wrapWrapKb
  let ka ← fromHex account.ka
  bundleAccountKeys host.toSha256 bundleKey ka wrapKb

/-- `start_key_fetch`. -/
def startKeyFetch (db : Db) (account : Account) (stretched : StretchedPassword) (seed : Random 32)
    (createdAt : ℤ) : Except SignInError (TokenKeys × Db) := do
  let keys ← uncaught (deriveTokenKeys host.toSha256 .keyFetch seed)
  let bundle ← uncaught (sealKeys host account stretched keys.bundleKey)
  let db ← db.createKeyFetchToken ⟨hexText keys.id, account.uid, hexText bundle, createdAt⟩
  return (keys, db)

/-! ### The routes -/

/-- The client's side of a sign-in: what it was told, and the salt that it stretches the password with. -/
structure KeyClient where
  email : String
  password : List Char
  salt : Salt
  deriving DecidableEq

/-- What it derives from them; `authPW` is sent, and the other key is kept. -/
def KeyClient.credentials (client : KeyClient) : Credentials :=
  Crypto.credentials host.toKdf client.password client.salt

/-- A sign-in, with the seeds that are drawn for its tokens. -/
structure SignIn where
  client : KeyClient
  keys : Bool
  sessionSeed : Random 32
  keySeed : Random 32
  createdAt : ℤ

/-- The answers of the routes, with what bears on keys. -/
inductive Answer where
  | signedIn (uid : String) (sessionToken keyFetchToken : Option String)
  | bundle (bundle : String)
  | done
  deriving DecidableEq, Repr

/-- The end of a sign-in: a key fetch token, if one is asked for. -/
def handOut (db : Db) (account : Account) (stretched : StretchedPassword) (signIn : SignIn)
    (sessionToken : Option String) : Except SignInError Answer × Db :=
  if signIn.keys then
    match startKeyFetch host db account stretched signIn.keySeed signIn.createdAt with
    | .error raised => (.error raised, db)
    | .ok (keys, db) => (.ok (.signedIn account.uid sessionToken (some keys.token)), db)
  else (.ok (.signedIn account.uid sessionToken none), db)

/-- A session, and then the end of a sign-in. -/
def beginSession (db : Db) (account : Account) (stretched : StretchedPassword) (signIn : SignIn) :
    Except SignInError Answer × Db :=
  match startSession host db account signIn.sessionSeed signIn.createdAt with
  | .error raised => (.error raised, db)
  | .ok (session, _, db) => handOut host db account stretched signIn (some session.token)

/-- `account_create`. -/
def accountCreate (openRegistration : Bool) (db : Db) (signIn : SignIn) (random : AccountSecrets) :
    Except SignInError Answer × Db :=
  if !openRegistration then (.error .featureNotEnabled, db)
  else
    match provision host db signIn.client.email (signIn.client.credentials host).authPw random signIn.createdAt with
    | .error raised => (.error raised, db)
    | .ok (account, stretched, db) => beginSession host db account stretched signIn

/-- `provision_with_password`. -/
def provisionWithPassword (db : Db) (client : KeyClient) (random : AccountSecrets) (createdAt : ℤ) :
    Except SignInError Answer × Db :=
  match provision host db client.email (client.credentials host).authPw random createdAt with
  | .error raised => (.error raised, db)
  | .ok (_, _, db) => (.ok .done, db)

/-- `account_login`. -/
def accountLogin (db : Db) (throttle : Throttle) (signIn : SignIn) (now : ℚ) :
    Except SignInError Answer × Db × Throttle :=
  match authenticate host db throttle signIn.client.email (signIn.client.credentials host).authPw now with
  | (.error raised, throttle) => (.error raised, db, throttle)
  | (.ok (account, stretched), throttle) =>
    let (answer, db) := beginSession host db account stretched signIn
    (answer, db, throttle)

/-- `session_credentials`, of a token id that was read from the header. -/
def sessionCredentials (db : Db) (tokenId : String) : Except SignInError (SessionToken × Account) :=
  match db.sessionToken tokenId with
  | none => .error (.unauthorized "Token not found")
  | some token =>
    match db.account token.uid with
    | none => .error (.unauthorized "Token not found")
    | some account => .ok (token, account)

/-- `session_reauth`. -/
def sessionReauth (db : Db) (throttle : Throttle) (signIn : SignIn) (tokenId : String) (now : ℚ) :
    Except SignInError Answer × Db × Throttle :=
  match sessionCredentials db tokenId with
  | .error raised => (.error raised, db, throttle)
  | .ok credentials =>
    match authenticate host db throttle signIn.client.email (signIn.client.credentials host).authPw now with
    | (.error raised, throttle) => (.error raised, db, throttle)
    | (.ok (account, stretched), throttle) =>
      if account.uid ≠ credentials.2.uid then (.error (.unknownAccount signIn.client.email), db, throttle)
      else
        let db := db.reauthenticateSessionToken credentials.1.tokenId signIn.createdAt
        let (answer, db) := handOut host db account stretched signIn none
        (answer, db, throttle)

/-- `account_destroy`. -/
def accountDestroy (db : Db) (throttle : Throttle) (client : KeyClient) (tokenId : String) (now : ℚ) :
    Except SignInError Answer × Db × Throttle :=
  match sessionCredentials db tokenId with
  | .error raised => (.error raised, db, throttle)
  | .ok credentials =>
    match authenticate host db throttle client.email (client.credentials host).authPw now with
    | (.error raised, throttle) => (.error raised, db, throttle)
    | (.ok (account, _), throttle) =>
      if account.uid ≠ credentials.2.uid then (.error (.unknownAccount client.email), db, throttle)
      else (.ok .done, db.deleteAccount account.uid, throttle)

/-- `key_fetch_credentials` and `account_keys`. -/
def fetchKeys (db : Db) (tokenId : String) : Except SignInError Answer × Db :=
  match db.keyFetchToken tokenId with
  | none => (.error (.unauthorized "Token not found"), db)
  | some token =>
    match db.account token.uid with
    | none => (.error (.unauthorized "Token not found"), db)
    | some _ => (.ok (.bundle token.keyBundle), db.deleteKeyFetchToken token.tokenId)

/-! ### Runs -/

/-- What happens to the accounts. -/
inductive Request where
  | create (signIn : SignIn) (random : AccountSecrets)
  | add (client : KeyClient) (random : AccountSecrets) (createdAt : ℤ)
  | login (signIn : SignIn) (now : ℚ)
  | reauth (signIn : SignIn) (tokenId : String) (now : ℚ)
  | keys (tokenId : String)
  | destroy (client : KeyClient) (tokenId : String) (now : ℚ)

/-- The client of a request that may be answered with a key fetch token. -/
def Request.client : Request → Option KeyClient
  | .create signIn _ => some signIn.client
  | .login signIn _ => some signIn.client
  | .reauth signIn _ _ => some signIn.client
  | _ => none

/-- An account as it was made. -/
structure SignUp where
  client : KeyClient
  random : AccountSecrets

/-- A key fetch token as it was handed out. -/
structure Mint where
  uid : String
  client : KeyClient
  token : String

/-- The tables and the throttle. The accounts made and the tokens handed out, the newest first, are
written down for the statements below; nothing reads them. -/
structure Service where
  db : Db
  throttle : Throttle
  signUps : List SignUp
  mints : List Mint

/-- A request to the handler it is for. -/
def Service.handle (openRegistration : Bool) (w : Service) : Request → Except SignInError Answer × Db × Throttle
  | .create signIn random =>
    let (answer, db) := accountCreate host openRegistration w.db signIn random
    (answer, db, w.throttle)
  | .add client random createdAt =>
    let (answer, db) := provisionWithPassword host w.db client random createdAt
    (answer, db, w.throttle)
  | .login signIn now => accountLogin host w.db w.throttle signIn now
  | .reauth signIn tokenId now => sessionReauth host w.db w.throttle signIn tokenId now
  | .keys tokenId =>
    let (answer, db) := fetchKeys w.db tokenId
    (answer, db, w.throttle)
  | .destroy client tokenId now => accountDestroy host w.db w.throttle client tokenId now

/-- The accounts made, once a request is done. -/
def Service.signUpsAfter (openRegistration : Bool) (w : Service) : Request → List SignUp
  | .create signIn random =>
    match provision host w.db signIn.client.email (signIn.client.credentials host).authPw random signIn.createdAt with
    | .ok _ => if openRegistration then ⟨signIn.client, random⟩ :: w.signUps else w.signUps
    | .error _ => w.signUps
  | .add client random createdAt =>
    match provision host w.db client.email (client.credentials host).authPw random createdAt with
    | .ok _ => ⟨client, random⟩ :: w.signUps
    | .error _ => w.signUps
  | _ => w.signUps

/-- The tokens handed out, once a request is answered. -/
def mintsAfter (mints : List Mint) (client : Option KeyClient) : Except SignInError Answer → List Mint
  | .ok (.signedIn uid _ (some token)) =>
    match client with
    | some client => ⟨uid, client, token⟩ :: mints
    | none => mints
  | _ => mints

/-- One request after another. -/
def service (openRegistration : Bool) : Machine Service Request (Except SignInError Answer) where
  step w request :=
    let (answer, db, throttle) := w.handle host openRegistration request
    (⟨db, throttle, w.signUpsAfter host openRegistration request, mintsAfter w.mints request.client answer⟩, answer)

/-- The start: no accounts. -/
def Service.fresh (throttle : Throttle) : Service := ⟨.fresh, throttle, [], []⟩

/-! ### The client's end -/

/-- The id under which a client presents a token. -/
def tokenIdOf (token : String) : Except ValueError String := do
  let data ← fromHex token
  let keys ← deriveTokenKeys host.toSha256 .keyFetch data
  return hexText keys.id

/-- A key response, opened with the token and unwrapped with the key that was kept. -/
def recover (token : String) (unwrapBKey : List UInt8) (bundle : String) :
    Except ValueError (List UInt8 × List UInt8) := do
  let data ← fromHex token
  let keys ← deriveTokenKeys host.toSha256 .keyFetch data
  let payload ← fromHex bundle
  let (ka, wrapKb) ← unbundleAccountKeys host.toSha256 keys.bundleKey payload
  let kb ← xor wrapKb unwrapBKey
  return (ka, kb)

/-- The password of a new account, stretched by the server. -/
def SignUp.stretched (made : SignUp) : StretchedPassword :=
  stretch host.toKdf (made.client.credentials host).authPw made.random.authSalt

/-- wrapKb: wrapWrapKb with the wrapping of a stretched password taken off. -/
def SignUp.wrapKb (made : SignUp) (stretched : StretchedPassword) : List UInt8 :=
  List.zipWith (· ^^^ ·) (deriveKey host.toSha256 stretched.ikm "wrapwrapKey") made.random.wrapWrapKb.1

/-- kB of a new account: wrapKb with the wrapping of the client taken off. -/
def SignUp.kb (made : SignUp) : List UInt8 :=
  List.zipWith (· ^^^ ·) (made.wrapKb host (made.stretched host)) (made.client.credentials host).unwrapBKey

/-- The making of the account with a uid. -/
def signUpOf (signUps : List SignUp) (uid : String) : Option SignUp := signUps.find? (hexText ·.random.uid = uid)

/-- The handing out of the token that is presented under an id. -/
def mintOf (mints : List Mint) (tokenId : String) : Option Mint := mints.find? (tokenIdOf host ·.token = .ok tokenId)

/-! ### Sealing and opening -/

variable {host}

/-- What is written in hexadecimal is read. -/
@[simp] theorem fromHex_hexText (bytes : List UInt8) : fromHex (hexText bytes) = .ok bytes := by
  rw [fromHex, hexText, String.toList_ofList, Hex.decode_encode]

/-- The columns of an account, as they were made. -/
structure SignUp.Made (host : Host) (made : SignUp) (account : Account) : Prop where
  uid : account.uid = hexText made.random.uid
  ka : account.ka = hexText made.random.ka
  wrapWrapKb : account.wrapWrapKb = hexText made.random.wrapWrapKb
  authSalt : account.authSalt = hexText made.random.authSalt
  verifyHash : account.verifyHash = hexText ((made.stretched host).verifyHash host.toSha256)

/-- The keys of a seed, derived. -/
theorem deriveTokenKeys_random (type : TokenType) (seed : Random 32) :
    deriveTokenKeys host.toSha256 type seed = .ok (tokenKeys host.toSha256 type seed) :=
  if_neg (not_not.mpr seed.2)

/-- A client finds the id of the token it was handed. -/
theorem tokenIdOf_token (seed : Random 32) :
    tokenIdOf host (tokenKeys host.toSha256 .keyFetch seed).token =
      .ok (hexText (tokenKeys host.toSha256 .keyFetch seed).id) := by
  have hdata : fromHex (tokenKeys host.toSha256 .keyFetch seed).token = .ok seed.1 := fromHex_hexText _
  rw [tokenIdOf, hdata, Fallible.ok_bind, deriveTokenKeys_random]
  rfl

/-- The wrapping has the length of what is wrapped. -/
theorem wrap_wrapWrapKb (made : SignUp) (stretched : StretchedPassword) :
    stretched.wrap host.toSha256 made.random.wrapWrapKb.1 = .ok (made.wrapKb host stretched) :=
  xor_eq_ok ((length_deriveKey _ _ _).trans made.random.wrapWrapKb.2.symm)

/-- So has what is in it. -/
theorem length_wrapKb (made : SignUp) (stretched : StretchedPassword) : (made.wrapKb host stretched).length = 32 :=
  (length_of_xor (wrap_wrapWrapKb made stretched)).2.trans (length_deriveKey _ _ _)

/-- Whatever the password, what is sealed for an account is opened: kA, and the rest of kB. -/
theorem sealKeys_eq {made : SignUp} {account : Account} (hmade : made.Made host account)
    (stretched : StretchedPassword) (bundleKey : List UInt8) :
    ∃ bytes, sealKeys host account stretched bundleKey = .ok bytes ∧
      unbundleAccountKeys host.toSha256 bundleKey bytes = .ok (made.random.ka.1, made.wrapKb host stretched) := by
  have hsize : (made.random.ka.1 ++ made.wrapKb host stretched).length ≤ 8128 := by
    rw [List.length_append, made.random.ka.2, length_wrapKb]
    decide
  obtain ⟨hmacKey, xorKey, ciphertext, -, -, hbundle⟩ := bundle_of_le host.toSha256 bundleKey "account/keys" hsize
  refine ⟨_, ?_, unbundleAccountKeys_of_bundle made.random.ka.2 (length_wrapKb made stretched) hbundle⟩
  rw [sealKeys, hmade.wrapWrapKb, fromHex_hexText, Fallible.ok_bind, wrap_wrapWrapKb, Fallible.ok_bind, hmade.ka,
    fromHex_hexText, Fallible.ok_bind]
  exact hbundle

/-- A key response gives a client that signed in with the password of the account its kA and kB. -/
def Opens (host : Host) (mint : Mint) (made : SignUp) (bundle : String) : Prop :=
  mint.client.password = made.client.password → mint.client.salt = made.client.salt →
    recover host mint.token (mint.client.credentials host).unwrapBKey bundle = .ok (made.random.ka.1, made.kb host)

/-- What is sealed at a sign-in does. -/
theorem opens_of_sealKeys {made : SignUp} {account : Account} (hmade : made.Made host account) (client : KeyClient)
    (seed : Random 32) {bytes : List UInt8}
    (hsealed : sealKeys host account (stretch host.toKdf (client.credentials host).authPw made.random.authSalt)
      (tokenKeys host.toSha256 .keyFetch seed).bundleKey = .ok bytes) :
    Opens host ⟨account.uid, client, (tokenKeys host.toSha256 .keyFetch seed).token⟩ made (hexText bytes) := by
  intro hpassword hsalt
  dsimp only at hpassword hsalt ⊢
  have hcredentials : client.credentials host = made.client.credentials host := by
    rw [KeyClient.credentials, KeyClient.credentials, hpassword, hsalt]
  rw [hcredentials] at hsealed ⊢
  obtain ⟨bytes', hsealed', hopened⟩ := sealKeys_eq hmade (made.stretched host)
    (tokenKeys host.toSha256 .keyFetch seed).bundleKey
  cases hsealed.symm.trans hsealed'
  have hdata : fromHex (tokenKeys host.toSha256 .keyFetch seed).token = .ok seed.1 := fromHex_hexText _
  have hxor : xor (made.wrapKb host (made.stretched host)) (made.client.credentials host).unwrapBKey =
      .ok (made.kb host) :=
    xor_eq_ok ((length_wrapKb made _).trans (length_deriveKey _ _ _).symm)
  rw [recover, hdata, Fallible.ok_bind, deriveTokenKeys_random, Fallible.ok_bind, fromHex_hexText, Fallible.ok_bind,
    hopened, Fallible.ok_bind]
  dsimp only
  rw [hxor]
  rfl

/-! ### What is kept -/

/-- Every account has its columns as they were made; every key fetch token has an account, and opens
to the keys of it. -/
structure Kept (host : Host) (db : Db) (signUps : List SignUp) (mints : List Mint) : Prop where
  made : ∀ account ∈ db.accounts, ∃ made, signUpOf signUps account.uid = some made ∧ made.Made host account
  owned : ∀ token ∈ db.keyFetchTokens, ∃ account ∈ db.accounts, account.uid = token.uid
  minted : ∀ token ∈ db.keyFetchTokens, ∃ mint made, mintOf host mints token.tokenId = some mint ∧
    mint.uid = token.uid ∧ signUpOf signUps token.uid = some made ∧ Opens host mint made token.keyBundle

variable {db db' : Db} {signUps : List SignUp} {mints : List Mint}

/-- Sessions do not matter. -/
theorem Kept.of_eq (kept : Kept host db signUps mints) (haccounts : db'.accounts = db.accounts)
    (htokens : db'.keyFetchTokens = db.keyFetchTokens) : Kept host db' signUps mints :=
  ⟨haccounts ▸ kept.made, haccounts ▸ htokens ▸ kept.owned, htokens ▸ kept.minted⟩

/-- A new account has a uid of its own. -/
theorem createAccount_eq_ok {account : Account} (h : db.createAccount account = .ok db') :
    db' = { db with accounts := db.accounts ++ [account] } ∧ ∀ other ∈ db.accounts, other.uid ≠ account.uid := by
  unfold Db.createAccount at h
  split at h
  · cases h
  · rename_i hfree
    refine ⟨(Except.ok.inj h).symm, fun other hother heq => hfree ?_⟩
    have hfound : (db.account account.uid).isSome = true :=
      List.find?_isSome.mpr ⟨other, hother, decide_eq_true heq⟩
    rw [hfound, Bool.true_or]

/-- Making an account leaves the others as they were made. -/
theorem Kept.createAccount (kept : Kept host db signUps mints) {account : Account} {made : SignUp}
    (hmade : made.Made host account) (h : db.createAccount account = .ok db') :
    Kept host db' (made :: signUps) mints := by
  obtain ⟨rfl, hfresh⟩ := createAccount_eq_ok h
  have hother : ∀ other ∈ db.accounts, signUpOf (made :: signUps) other.uid = signUpOf signUps other.uid := by
    intro other hother
    rw [signUpOf, List.find?_cons_of_neg]
    · rfl
    · simpa [← hmade.uid] using (hfresh other hother).symm
  refine ⟨fun found hfound => ?_, fun token htoken => ?_, fun token htoken => ?_⟩
  · obtain hold | hnew := List.mem_append.mp hfound
    · rw [hother found hold]
      exact kept.made found hold
    · obtain rfl := List.mem_singleton.mp hnew
      exact ⟨made, by simp [signUpOf, hmade.uid], hmade⟩
  · obtain ⟨owner, howner, huid⟩ := kept.owned token htoken
    exact ⟨owner, List.mem_append_left _ howner, huid⟩
  · obtain ⟨owner, howner, huid⟩ := kept.owned token htoken
    rw [← huid, hother owner howner, huid]
    exact kept.minted token htoken

/-- Deleting one leaves the others with theirs. -/
theorem Kept.deleteAccount (kept : Kept host db signUps mints) (uid : String) :
    Kept host (db.deleteAccount uid) signUps mints := by
  refine ⟨fun account haccount => kept.made account (List.mem_of_mem_filter haccount), fun token htoken => ?_,
    fun token htoken => kept.minted token (List.mem_of_mem_filter htoken)⟩
  obtain ⟨hheld, hne⟩ := List.mem_filter.mp htoken
  obtain ⟨owner, howner, huid⟩ := kept.owned token hheld
  exact ⟨owner, List.mem_filter.mpr ⟨howner, huid ▸ hne⟩, huid⟩

/-- Deleting a token leaves the others. -/
theorem Kept.deleteKeyFetchToken (kept : Kept host db signUps mints) (tokenId : String) :
    Kept host (db.deleteKeyFetchToken tokenId) signUps mints :=
  ⟨kept.made, fun token htoken => kept.owned token (List.mem_of_mem_filter htoken),
    fun token htoken => kept.minted token (List.mem_of_mem_filter htoken)⟩

/-- A new token has an id of its own, and an account. -/
theorem createKeyFetchToken_eq_ok {token : KeyFetchToken} (h : db.createKeyFetchToken token = .ok db') :
    db' = { db with keyFetchTokens := db.keyFetchTokens ++ [token] } ∧
      (∀ other ∈ db.keyFetchTokens, other.tokenId ≠ token.tokenId) ∧ ∃ account ∈ db.accounts, account.uid = token.uid := by
  unfold Db.createKeyFetchToken at h
  split at h
  · cases h
  · rename_i hfree
    rw [Bool.or_eq_true, not_or] at hfree
    obtain ⟨hnone, howner⟩ := hfree
    refine ⟨(Except.ok.inj h).symm, fun other hother heq => hnone ?_, ?_⟩
    · exact List.find?_isSome.mpr ⟨other, hother, decide_eq_true heq⟩
    · obtain ⟨account, haccount⟩ := Option.isSome_iff_exists.mp (Option.isSome_iff_ne_none.mpr fun hnone' =>
        howner (Option.isNone_iff_eq_none.mpr hnone'))
      exact ⟨account, List.mem_of_find?_eq_some haccount, by simpa using List.find?_some haccount⟩

/-- Handing out a token that opens to the keys of its account leaves the others. -/
theorem Kept.createKeyFetchToken (kept : Kept host db signUps mints) {token : KeyFetchToken} {mint : Mint} {made : SignUp}
    (h : db.createKeyFetchToken token = .ok db') (hid : tokenIdOf host mint.token = .ok token.tokenId)
    (huid : mint.uid = token.uid) (hmade : signUpOf signUps token.uid = some made)
    (hopens : Opens host mint made token.keyBundle) : Kept host db' signUps (mint :: mints) := by
  obtain ⟨rfl, hfresh, howner⟩ := createKeyFetchToken_eq_ok h
  refine ⟨kept.made, fun found hfound => ?_, fun found hfound => ?_⟩
  · obtain hold | hnew := List.mem_append.mp hfound
    · exact kept.owned found hold
    · obtain rfl := List.mem_singleton.mp hnew
      exact howner
  · obtain hold | hnew := List.mem_append.mp hfound
    · have hother : mintOf host (mint :: mints) found.tokenId = mintOf host mints found.tokenId := by
        rw [mintOf, List.find?_cons_of_neg]
        · rfl
        · simpa [hid] using (hfresh found hold).symm
      rw [hother]
      exact kept.minted found hold
    · obtain rfl := List.mem_singleton.mp hnew
      exact ⟨mint, made, by simp [mintOf, hid], huid, hmade, hopens⟩

/-! ### One request -/

/-- An answer that no `ValueError` has cut short. -/
def Sound {α : Type} (answer : Except SignInError α) : Prop := ∀ raised, answer ≠ .error (.valueError raised)

/-- Handing out a token fails for its id or its account only. -/
theorem startKeyFetch_eq {account : Account} {stretched : StretchedPassword} {seed : Random 32} {bytes : List UInt8}
    (hsealed : sealKeys host account stretched (tokenKeys host.toSha256 .keyFetch seed).bundleKey = .ok bytes)
    (createdAt : ℤ) :
    startKeyFetch host db account stretched seed createdAt =
      (db.createKeyFetchToken ⟨hexText (tokenKeys host.toSha256 .keyFetch seed).id, account.uid, hexText bytes, createdAt⟩).map
        fun db' => (tokenKeys host.toSha256 .keyFetch seed, db') := by
  rw [startKeyFetch, deriveTokenKeys_random]
  change (uncaught (sealKeys host account stretched _) >>= _) = _
  rw [hsealed]
  change (db.createKeyFetchToken _ >>= _) = _
  cases db.createKeyFetchToken _ <;> rfl

/-- A new row is refused for nothing else. -/
theorem sound_createKeyFetchToken (token : KeyFetchToken) : Sound (db.createKeyFetchToken token) := by
  intro raised
  unfold Db.createKeyFetchToken
  split <;> exact nofun

/-- The end of a sign-in to an account. -/
theorem Kept.handOut (kept : Kept host db signUps mints) {account : Account} {made : SignUp} {signIn : SignIn}
    (hmade : made.Made host account) (hsignUp : signUpOf signUps account.uid = some made) {sessionToken : Option String}
    {answer : Except SignInError Answer}
    (h : FxaLite.Accounts.handOut host db account
      (stretch host.toKdf (signIn.client.credentials host).authPw made.random.authSalt) signIn sessionToken = (answer, db')) :
    Kept host db' signUps (mintsAfter mints (some signIn.client) answer) ∧ Sound answer := by
  obtain ⟨bytes, hsealed, -⟩ := sealKeys_eq hmade
    (stretch host.toKdf (signIn.client.credentials host).authPw made.random.authSalt)
    (tokenKeys host.toSha256 .keyFetch signIn.keySeed).bundleKey
  unfold FxaLite.Accounts.handOut at h
  rw [startKeyFetch_eq hsealed] at h
  cases hkeys : signIn.keys with
  | false =>
    simp only [hkeys, Bool.false_eq_true, if_false] at h
    cases h
    exact ⟨kept, fun _ => nofun⟩
  | true =>
    rw [hkeys, if_pos rfl] at h
    cases hcreate : db.createKeyFetchToken
        ⟨hexText (tokenKeys host.toSha256 .keyFetch signIn.keySeed).id, account.uid, hexText bytes, signIn.createdAt⟩ with
    | error raised =>
      rw [hcreate] at h
      cases h
      exact ⟨kept, fun value heq => sound_createKeyFetchToken _ value (hcreate.trans (by cases heq; rfl))⟩
    | ok db'' =>
      rw [hcreate] at h
      cases h
      have hopens := opens_of_sealKeys hmade signIn.client signIn.keySeed hsealed
      have hkept : Kept host db' signUps
          (⟨account.uid, signIn.client, (tokenKeys host.toSha256 .keyFetch signIn.keySeed).token⟩ :: mints) :=
        kept.createKeyFetchToken hcreate (tokenIdOf_token signIn.keySeed) rfl hsignUp hopens
      exact ⟨hkept, fun _ => nofun⟩

/-- A session is begun or refused for its id or its account; nothing else changes. -/
theorem startSession_eq (account : Account) (seed : Random 32) (createdAt : ℤ) :
    startSession host db account seed createdAt =
      (db.createSessionToken ⟨hexText (tokenKeys host.toSha256 .session seed).id, account.uid, createdAt, createdAt⟩).map
        fun db' => (tokenKeys host.toSha256 .session seed,
          ⟨hexText (tokenKeys host.toSha256 .session seed).id, account.uid, createdAt, createdAt⟩, db') := by
  rw [startSession, deriveTokenKeys_random]
  change (db.createSessionToken _ >>= _) = _
  cases db.createSessionToken _ <;> rfl

/-- A sign-in to an account. -/
theorem Kept.beginSession (kept : Kept host db signUps mints) {account : Account} {made : SignUp} {signIn : SignIn}
    (hmade : made.Made host account) (hsignUp : signUpOf signUps account.uid = some made)
    {answer : Except SignInError Answer}
    (h : FxaLite.Accounts.beginSession host db account
      (stretch host.toKdf (signIn.client.credentials host).authPw made.random.authSalt) signIn = (answer, db')) :
    Kept host db' signUps (mintsAfter mints (some signIn.client) answer) ∧ Sound answer := by
  rw [FxaLite.Accounts.beginSession, startSession_eq] at h
  unfold Db.createSessionToken at h
  split at h
  · rename_i raised hraised
    cases h
    split at hraised
    · cases hraised
      exact ⟨kept, fun _ => nofun⟩
    · cases hraised
  · rename_i session token db'' hsession
    split at hsession
    · cases hsession
    · cases hsession
      refine Kept.handOut ?_ hmade hsignUp h
      exact kept.of_eq rfl rfl

/-- What a new account is made with. -/
theorem provision_eq (db : Db) (client : KeyClient) (random : AccountSecrets) (createdAt : ℤ) :
    ∃ account, (⟨client, random⟩ : SignUp).Made host account ∧
      provision host db client.email (client.credentials host).authPw random createdAt =
        (db.createAccount account).map fun db' => (account, (⟨client, random⟩ : SignUp).stretched host, db') := by
  refine ⟨newAccount host client.email ((⟨client, random⟩ : SignUp).stretched host) random createdAt,
    ⟨rfl, rfl, rfl, rfl, rfl⟩, ?_⟩
  simp only [provision, SignUp.stretched]
  cases db.createAccount _ <;> rfl

/-- An account is refused for its uid or its email only. -/
theorem sound_createAccount (account : Account) : Sound (db.createAccount account) := by
  intro raised
  unfold Db.createAccount
  split <;> exact nofun

/-- Who is let in: an account, as it was made, with the password it was sent stretched by its salt. -/
theorem Kept.authenticate (kept : Kept host db signUps mints) {throttle throttle' : Throttle} {email : String}
    {authPw : List UInt8} {now : ℚ} {account : Account} {stretched : StretchedPassword}
    (h : FxaLite.Accounts.authenticate host db throttle email authPw now = (.ok (account, stretched), throttle')) :
    ∃ made, signUpOf signUps account.uid = some made ∧ made.Made host account ∧
      stretched = stretch host.toKdf authPw made.random.authSalt := by
  unfold FxaLite.Accounts.authenticate at h
  split at h
  · cases h
  · rename_i found hfound
    obtain ⟨made, hsignUp, hmade⟩ := kept.made found (List.mem_of_find?_eq_some hfound)
    dsimp only at h
    split at h
    · cases h
    · rw [hmade.authSalt, hmade.verifyHash, fromHex_hexText, fromHex_hexText] at h
      dsimp only at h
      split at h
      · cases h
      · cases h
        exact ⟨made, hsignUp, hmade, rfl⟩

/-- Who is not: never for a `ValueError`, and for an incorrect password only with another than the
one the account was made with. -/
theorem Kept.authenticate_error (kept : Kept host db signUps mints) {throttle throttle' : Throttle} {email : String}
    {authPw : List UInt8} {now : ℚ} {raised : SignInError}
    (h : FxaLite.Accounts.authenticate host db throttle email authPw now = (.error raised, throttle')) :
    (∀ value, raised ≠ .valueError value) ∧
      ∀ dbEmail requestEmail, raised = .incorrectPassword dbEmail requestEmail →
        ∀ account made, db.accountByEmail (normalizeEmail host email) = some account →
          signUpOf signUps account.uid = some made → authPw ≠ (made.client.credentials host).authPw := by
  unfold FxaLite.Accounts.authenticate at h
  split at h
  · cases h
    exact ⟨nofun, nofun⟩
  · rename_i found hfound
    obtain ⟨made, hsignUp, hmade⟩ := kept.made found (List.mem_of_find?_eq_some hfound)
    dsimp only at h
    split at h
    · cases h
      exact ⟨nofun, nofun⟩
    · rw [hmade.authSalt, hmade.verifyHash, fromHex_hexText, fromHex_hexText] at h
      dsimp only at h
      split at h
      · rename_i hdiffers
        cases h
        refine ⟨nofun, fun _ _ _ account made' haccount hmade' heq => hdiffers ?_⟩
        cases hfound.symm.trans haccount
        cases hsignUp.symm.trans hmade'
        rw [heq]
        rfl
      · cases h

variable {openRegistration : Bool} {answer : Except SignInError Answer} {throttle throttle' : Throttle}

/-- Signing up. -/
theorem Kept.accountCreate (kept : Kept host db signUps mints) {signIn : SignIn} {random : AccountSecrets}
    (h : FxaLite.Accounts.accountCreate host openRegistration db signIn random = (answer, db')) :
    Kept host db' (Service.signUpsAfter host openRegistration ⟨db, throttle, signUps, mints⟩ (.create signIn random))
      (mintsAfter mints (some signIn.client) answer) ∧ Sound answer := by
  obtain ⟨account, hmade, hprovision⟩ := @provision_eq host db signIn.client random signIn.createdAt
  unfold FxaLite.Accounts.accountCreate at h
  simp only [Service.signUpsAfter, hprovision] at h ⊢
  cases hopen : openRegistration with
  | false =>
    rw [hopen] at h
    cases h
    refine ⟨?_, fun _ => nofun⟩
    cases db.createAccount account <;> exact kept
  | true =>
    rw [hopen] at h
    cases hcreate : db.createAccount account with
    | error raised =>
      rw [hcreate] at h
      cases h
      exact ⟨kept, fun value heq => sound_createAccount account value (hcreate.trans (by cases heq; rfl))⟩
    | ok db'' =>
      rw [hcreate] at h
      exact (kept.createAccount hmade hcreate).beginSession hmade (by simp [signUpOf, hmade.uid]) h

/-- Adding an account from the command line. -/
theorem Kept.provisionWithPassword (kept : Kept host db signUps mints) {client : KeyClient} {random : AccountSecrets}
    {createdAt : ℤ} (h : FxaLite.Accounts.provisionWithPassword host db client random createdAt = (answer, db'))
    (openAnyway : Bool) :
    Kept host db' (Service.signUpsAfter host openAnyway ⟨db, throttle, signUps, mints⟩ (.add client random createdAt))
      (mintsAfter mints none answer) ∧ Sound answer := by
  obtain ⟨account, hmade, hprovision⟩ := @provision_eq host db client random createdAt
  unfold FxaLite.Accounts.provisionWithPassword at h
  simp only [Service.signUpsAfter, hprovision] at h ⊢
  cases hcreate : db.createAccount account with
  | error raised =>
    rw [hcreate] at h
    cases h
    exact ⟨kept, fun value heq => sound_createAccount account value (hcreate.trans (by cases heq; rfl))⟩
  | ok db'' =>
    rw [hcreate] at h
    cases h
    exact ⟨kept.createAccount hmade hcreate, fun _ => nofun⟩

/-- Signing in. -/
theorem Kept.accountLogin (kept : Kept host db signUps mints) {signIn : SignIn} {now : ℚ}
    (h : FxaLite.Accounts.accountLogin host db throttle signIn now = (answer, db', throttle')) :
    Kept host db' signUps (mintsAfter mints (some signIn.client) answer) ∧ Sound answer := by
  unfold FxaLite.Accounts.accountLogin at h
  split at h
  · rename_i raised throttle'' hauth
    cases h
    exact ⟨kept, fun value heq => (kept.authenticate_error hauth).1 value (by cases heq; rfl)⟩
  · rename_i account stretched throttle'' hauth
    obtain ⟨made, hsignUp, hmade, rfl⟩ := kept.authenticate hauth
    cases h
    exact kept.beginSession hmade hsignUp rfl

/-- A session names one of the accounts. -/
theorem sessionCredentials_error {tokenId : String} {raised : SignInError} (h : sessionCredentials db tokenId = .error raised) :
    raised = .unauthorized "Token not found" := by
  unfold sessionCredentials at h
  split at h
  · exact (Except.error.inj h).symm
  · split at h
    · exact (Except.error.inj h).symm
    · cases h

/-- Proving the password again. -/
theorem Kept.sessionReauth (kept : Kept host db signUps mints) {signIn : SignIn} {tokenId : String} {now : ℚ}
    (h : FxaLite.Accounts.sessionReauth host db throttle signIn tokenId now = (answer, db', throttle')) :
    Kept host db' signUps (mintsAfter mints (some signIn.client) answer) ∧ Sound answer := by
  unfold FxaLite.Accounts.sessionReauth at h
  split at h
  · rename_i raised hsession
    cases h
    rw [sessionCredentials_error hsession]
    exact ⟨kept, fun _ => nofun⟩
  · split at h
    · rename_i raised throttle'' hauth
      cases h
      exact ⟨kept, fun value heq => (kept.authenticate_error hauth).1 value (by cases heq; rfl)⟩
    · rename_i account stretched throttle'' hauth
      obtain ⟨made, hsignUp, hmade, rfl⟩ := kept.authenticate hauth
      split at h
      · cases h
        exact ⟨kept, fun _ => nofun⟩
      · cases h
        refine Kept.handOut ?_ hmade hsignUp rfl
        exact kept.of_eq rfl rfl

/-- A request that asks for no token is handed none. -/
@[simp] theorem mintsAfter_none (mints : List Mint) (answer : Except SignInError Answer) :
    mintsAfter mints none answer = mints := by
  unfold mintsAfter
  split <;> rfl

/-- Deleting an account. -/
theorem Kept.accountDestroy (kept : Kept host db signUps mints) {client : KeyClient} {tokenId : String} {now : ℚ}
    (h : FxaLite.Accounts.accountDestroy host db throttle client tokenId now = (answer, db', throttle')) :
    Kept host db' signUps mints ∧ Sound answer := by
  unfold FxaLite.Accounts.accountDestroy at h
  split at h
  · rename_i raised hsession
    cases h
    rw [sessionCredentials_error hsession]
    exact ⟨kept, fun _ => nofun⟩
  · split at h
    · rename_i raised throttle'' hauth
      cases h
      exact ⟨kept, fun value heq => (kept.authenticate_error hauth).1 value (by cases heq; rfl)⟩
    · split at h
      · cases h
        exact ⟨kept, fun _ => nofun⟩
      · cases h
        exact ⟨kept.deleteAccount _, fun _ => nofun⟩

/-- Fetching keys. -/
theorem Kept.fetchKeys (kept : Kept host db signUps mints) {tokenId : String}
    (h : FxaLite.Accounts.fetchKeys db tokenId = (answer, db')) : Kept host db' signUps mints ∧ Sound answer := by
  unfold FxaLite.Accounts.fetchKeys at h
  split at h
  · cases h
    exact ⟨kept, fun _ => nofun⟩
  · split at h
    · cases h
      exact ⟨kept, fun _ => nofun⟩
    · cases h
      exact ⟨kept.deleteKeyFetchToken _, fun _ => nofun⟩

/-! ### Every run -/

/-- Every request keeps the accounts and tokens as they should be, and is not cut short. -/
theorem Kept.step {w : Service} (kept : Kept host w.db w.signUps w.mints) (request : Request) :
    Kept host ((service host openRegistration).step w request).1.db ((service host openRegistration).step w request).1.signUps
        ((service host openRegistration).step w request).1.mints ∧
      Sound ((service host openRegistration).step w request).2 := by
  obtain ⟨db, throttle, signUps, mints⟩ := w
  cases request with
  | create signIn random => exact kept.accountCreate rfl
  | add client random createdAt => exact kept.provisionWithPassword rfl openRegistration
  | login signIn now => exact kept.accountLogin rfl
  | reauth signIn tokenId now => exact kept.sessionReauth rfl
  | keys tokenId =>
    refine ⟨?_, (kept.fetchKeys rfl).2⟩
    change Kept host _ signUps (mintsAfter mints none _)
    rw [mintsAfter_none]
    exact (kept.fetchKeys rfl).1
  | destroy client tokenId now =>
    refine ⟨?_, (kept.accountDestroy rfl).2⟩
    change Kept host _ signUps (mintsAfter mints none _)
    rw [mintsAfter_none]
    exact (kept.accountDestroy rfl).1

/-- So does every run. -/
theorem kept_run (host : Host) (openRegistration : Bool) (throttle : Throttle) (requests : List Request) :
    Kept host ((service host openRegistration).run (.fresh throttle) requests).db
      ((service host openRegistration).run (.fresh throttle) requests).signUps
      ((service host openRegistration).run (.fresh throttle) requests).mints := by
  have hstep : ∀ (w : Service) (request : Request), Kept host w.db w.signUps w.mints → True →
      Kept host ((service host openRegistration).step w request).1.db
        ((service host openRegistration).step w request).1.signUps
        ((service host openRegistration).step w request).1.mints := fun w request kept _ => (kept.step request).1
  exact (service host openRegistration).run_of_step hstep ⟨nofun, nofun, nofun⟩ (Machine.along_true _)

/-- A key response is the bundle of a token. -/
theorem bundle_of_fetchKeys {tokenId bundle : String} (h : FxaLite.Accounts.fetchKeys db tokenId = (.ok (.bundle bundle), db')) :
    ∃ token ∈ db.keyFetchTokens, token.tokenId = tokenId ∧ token.keyBundle = bundle := by
  unfold FxaLite.Accounts.fetchKeys at h
  split at h
  · cases h
  · rename_i token htoken
    split at h
    · cases h
    · cases h
      exact ⟨token, List.mem_of_find?_eq_some htoken, by simpa using List.find?_some htoken, rfl⟩

/-- A row that is refused is refused by the database. -/
theorem createKeyFetchToken_error {token : KeyFetchToken} {raised : SignInError}
    (h : db.createKeyFetchToken token = .error raised) : raised = .integrityError := by
  unfold Db.createKeyFetchToken at h
  split at h
  · exact (Except.error.inj h).symm
  · cases h

/-- So is a session. -/
theorem createSessionToken_error {token : SessionToken} {raised : SignInError}
    (h : db.createSessionToken token = .error raised) : raised = .integrityError := by
  unfold Db.createSessionToken at h
  split at h
  · exact (Except.error.inj h).symm
  · cases h

/-- Once a client is let in, nothing but the database turns it away. -/
theorem beginSession_error {account : Account} {made : SignUp} {signIn : SignIn} {stretched : StretchedPassword}
    {raised : SignInError} (hmade : made.Made host account)
    (h : (beginSession host db account stretched signIn).1 = .error raised) : raised = .integrityError := by
  obtain ⟨bytes, hsealed, -⟩ := sealKeys_eq hmade stretched (tokenKeys host.toSha256 .keyFetch signIn.keySeed).bundleKey
  rw [beginSession, startSession_eq] at h
  cases hsession : db.createSessionToken ⟨hexText (tokenKeys host.toSha256 .session signIn.sessionSeed).id, account.uid,
      signIn.createdAt, signIn.createdAt⟩ with
  | error refused =>
    rw [hsession] at h
    cases h
    exact createSessionToken_error hsession
  | ok begun =>
    rw [hsession] at h
    simp only [Except.map, handOut, startKeyFetch_eq hsealed] at h
    split at h
    · cases hkeys : begun.createKeyFetchToken ⟨hexText (tokenKeys host.toSha256 .keyFetch signIn.keySeed).id, account.uid,
          hexText bytes, signIn.createdAt⟩ with
      | error refused =>
        rw [hkeys] at h
        cases h
        exact createKeyFetchToken_error hkeys
      | ok ended =>
        rw [hkeys] at h
        cases h
    · cases h

/-- An incorrect password is found by `authenticate`. -/
theorem Kept.authenticate_of_login (kept : Kept host db signUps mints) {signIn : SignIn} {now : ℚ}
    {dbEmail requestEmail : String}
    (h : (FxaLite.Accounts.accountLogin host db throttle signIn now).1 = .error (.incorrectPassword dbEmail requestEmail)) :
    ∃ throttle', FxaLite.Accounts.authenticate host db throttle signIn.client.email (signIn.client.credentials host).authPw now =
      (.error (.incorrectPassword dbEmail requestEmail), throttle') := by
  unfold FxaLite.Accounts.accountLogin at h
  split at h
  · rename_i raised throttle' hauth
    cases h
    exact ⟨throttle', hauth⟩
  · rename_i account stretched throttle' hauth
    obtain ⟨made, -, hmade, -⟩ := kept.authenticate hauth
    cases beginSession_error hmade h

/-- After any requests, every account has its making. A key response, opened with the token that it was asked for
with and unwrapped by a client with the password of the account, gives kA and kB as they were made; no request is
cut short by a `ValueError`, and that password is never found incorrect. Apart from accounts, what is
sealed under any key, up to the limit of the expansion, is opened as it was, and what has another
digest than its own is refused. -/
theorem keys_recovered (host : Host) (openRegistration : Bool) (throttle : Throttle) :
    (∀ requests : List Request,
      let w := (service host openRegistration).run (.fresh throttle) requests
      (∀ account ∈ w.db.accounts, ∃ made, signUpOf w.signUps account.uid = some made) ∧
      (∀ tokenId bundle, ((service host openRegistration).step w (.keys tokenId)).2 = .ok (.bundle bundle) →
        ∃ mint made, mintOf host w.mints tokenId = some mint ∧ signUpOf w.signUps mint.uid = some made ∧
          (mint.client.password = made.client.password → mint.client.salt = made.client.salt →
            recover host mint.token (mint.client.credentials host).unwrapBKey bundle =
              .ok (made.random.ka.1, made.kb host))) ∧
      (∀ request raised, ((service host openRegistration).step w request).2 ≠ .error (.valueError raised)) ∧
      ∀ (signIn : SignIn) (now : ℚ) (account : Account) (made : SignUp),
        w.db.accountByEmail (normalizeEmail host signIn.client.email) = some account →
        signUpOf w.signUps account.uid = some made → signIn.client.password = made.client.password →
        signIn.client.salt = made.client.salt → ∀ dbEmail requestEmail,
          ((service host openRegistration).step w (.login signIn now)).2 ≠
            .error (.incorrectPassword dbEmail requestEmail)) ∧
    ∀ (bundleKey : List UInt8) (keyInfo : String) (payload : List UInt8),
      (payload.length ≤ 8128 → ∃ bytes, Crypto.bundle host.toSha256 bundleKey keyInfo payload = .ok bytes ∧
        unbundle host.toSha256 bundleKey keyInfo bytes = .ok payload) ∧
      ((sealedPart payload).length ≤ 8128 →
        ∃ hmacKey xorKey, bundleKeys host.toSha256 bundleKey keyInfo (sealedPart payload).length = .ok (hmacKey, xorKey) ∧
          (host.hmac hmacKey (sealedPart payload) ≠ payload.drop (payload.length - bundleMacLength) →
            unbundle host.toSha256 bundleKey keyInfo payload = .error .invalidSignature)) := by
  refine ⟨fun requests => ?_, fun bundleKey keyInfo payload => ⟨fun hsize => ?_, fun hsize => ?_⟩⟩
  · intro w
    have kept := kept_run host openRegistration throttle requests
    refine ⟨fun account haccount => ?_, fun tokenId bundle hanswer => ?_, fun request => (kept.step request).2, ?_⟩
    · obtain ⟨made, hmade, -⟩ := kept.made account haccount
      exact ⟨made, hmade⟩
    · obtain ⟨token, htoken, rfl, rfl⟩ := @bundle_of_fetchKeys w.db _ tokenId bundle (Prod.ext hanswer rfl)
      obtain ⟨mint, made, hmint, huid, hmade, hopens⟩ := kept.minted token htoken
      exact ⟨mint, made, hmint, huid ▸ hmade, hopens⟩
    · intro signIn now account made haccount hmade hpassword hsalt dbEmail requestEmail hanswer
      obtain ⟨throttle', hauth⟩ := kept.authenticate_of_login hanswer
      refine (kept.authenticate_error hauth).2 dbEmail requestEmail rfl account made haccount hmade ?_
      rw [KeyClient.credentials, KeyClient.credentials, hpassword, hsalt]
  · obtain ⟨hmacKey, xorKey, ciphertext, -, -, hsealed⟩ := bundle_of_le host.toSha256 bundleKey keyInfo hsize
    exact ⟨_, hsealed, unbundle_of_bundle hsealed⟩
  · obtain ⟨hmacKey, xorKey, hkeys, hrefused⟩ := @unbundle_eq_invalidSignature host.toSha256 bundleKey keyInfo payload hsize
    exact ⟨hmacKey, xorKey, hkeys, hrefused.mpr⟩

end FxaLite.Accounts
