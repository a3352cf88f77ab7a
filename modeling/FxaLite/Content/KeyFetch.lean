import FxaLite.Accounts.AuthHeaders
import FxaLite.Accounts.KeyHierarchy
import FxaLite.Content.Derivations

/-!
# Keys in the browser

`login` and `accountKeys` of `api.js`: what the browser makes of a password, and of the key response
that the server answers its token with. In every run of the routes it ends with the kA and kB of the
account, as they were made.
-/

namespace FxaLite.Content

open FxaLite.Accounts FxaLite.Crypto Reactive

/-- `getCredentials`. -/
def getCredentials (k : Kdf) (email password : List Char) : Credentials :=
  let salt := utf8 ((hkdfNamespace ++ "quickStretch:").toList ++ email)
  let stretched := k.pbkdf2 (utf8 password) salt 1000
  ⟨hkdf k.toSha256 stretched (kw "authPW") zeroSalt 32, hkdf k.toSha256 stretched (kw "unwrapBkey") zeroSalt 32⟩

/-- `TOKEN_PREFIXES`. -/
def tokenPrefix : TokenType → String
  | .session => "fxs"
  | .keyFetch => "fxk"
  | .accountReset => "fxar"
  | .passwordForgot => "fxpf"
  | .passwordChange => "fxpc"

/-- `bearerHeader`. -/
def bearerHeader (h : Sha256) (token : List Char) (kind : TokenType) : Option (List Char) :=
  (deriveTokenCredentials h token kind.value).map fun credentials =>
    "Bearer ".toList ++ (tokenPrefix kind).toList ++ '_' :: credentials.id

/-- `accountKeys`, from the bundle that the route answers with. -/
def accountKeys (h : Sha256) (keyFetchToken : List Char) (unwrapBKey : List UInt8) (bundle : List Char) :
    Option (List UInt8 × List UInt8) := do
  let credentials ← deriveTokenCredentials h keyFetchToken TokenType.keyFetch.value
  let (ka, wrapKb) ← unbundleKeyFetchResponse h credentials.bundleKey bundle
  let kb ← xor wrapKb unwrapBKey
  return (ka, kb)

/-! ### What the browser derives -/

section Derived

variable {host : Host} {unwrapBKey : List UInt8} {bytes : List UInt8}

/-- From a password the browser derives what the server's own client derives, with the salt of the first version. -/
@[simp] theorem getCredentials_eq (k : Kdf) (email password : List Char) :
    getCredentials k email password = credentials k password (.v1 email) :=
  congrArg₂ Credentials.mk (hkdf_zeroSalt k.toSha256 _ _ _) (hkdf_zeroSalt k.toSha256 _ _ _)

/-- The text of a token is its seed. -/
@[simp] theorem toList_token (h : Sha256) (seed : List UInt8) : (tokenKeys h .keyFetch seed).token.toList = Hex.encode seed :=
  String.toList_ofList

/-- The header under which the browser presents a token is read as the id that the server gave it. -/
theorem tokenId_bearerHeader_token (host : Host) (seed : Random 32) :
    ∃ header id, bearerHeader host.toSha256 (tokenKeys host.toSha256 .keyFetch seed).token.toList .keyFetch = some header ∧
      tokenId (some header) .keyFetch = .ok (some id) ∧
        hexText (tokenKeys host.toSha256 .keyFetch seed).id = String.ofList id := by
  have hcredentials := deriveTokenCredentials_encode host.toSha256 .keyFetch seed.1
  have hid : (tokenKeys host.toSha256 .keyFetch seed).id.length = 32 := by
    simp only [tokenKeys, List.length_take, length_hkdf]
    rfl
  refine ⟨Accounts.bearerHeader (tokenKeys host.toSha256 .keyFetch seed) .keyFetch, _, ?_, tokenId_bearerHeader hid .keyFetch, rfl⟩
  dsimp only at hcredentials
  rw [bearerHeader, toList_token, hcredentials]
  rfl

/-- What the server's own client recovers from a key response, the browser recovers. -/
theorem accountKeys_of_recover {seed : Random 32} {keys : List UInt8 × List UInt8}
    (hrecover : recover host (tokenKeys host.toSha256 .keyFetch seed).token unwrapBKey (hexText bytes) = .ok keys) :
    accountKeys host.toSha256 (tokenKeys host.toSha256 .keyFetch seed).token.toList unwrapBKey (hexText bytes).toList =
      some keys := by
  have hdata : fromHex (tokenKeys host.toSha256 .keyFetch seed).token = .ok seed.1 := fromHex_hexText _
  simp only [recover, hdata, fromHex_hexText, deriveTokenKeys_random, Fallible.ok_bind, Fallible.bind_eq_ok] at hrecover
  obtain ⟨⟨ka, wrapKb⟩, hopened, kb, hkb, hkeys⟩ := hrecover
  cases hkeys
  have hcredentials := deriveTokenCredentials_encode host.toSha256 .keyFetch seed.1
  have hunbundled := unbundleKeyFetchResponse_encode host.toSha256 (tokenKeys host.toSha256 .keyFetch seed).bundleKey bytes
  rw [← unbundleAccountKeys_toOption, hopened] at hunbundled
  have hxor : xor wrapKb unwrapBKey = some kb := by
    obtain ⟨hlength, -⟩ := length_of_xor hkb
    rw [xor_eq_ok hlength] at hkb
    cases hkb
    exact if_neg (not_not.mpr hlength)
  rw [accountKeys, toList_token, hexText, String.toList_ofList]
  dsimp only at hcredentials
  simp only [hcredentials, Option.bind_eq_bind, Option.bind_some, hunbundled, Except.toOption, hxor]
  rfl

end Derived

/-! ### Texts that are written -/

/-- Bundles and tokens are spelled in hexadecimal, as they are written. -/
structure Spelled (host : Host) (db : Db) (mints : List Mint) : Prop where
  bundles : ∀ token ∈ db.keyFetchTokens, ∃ bytes, token.keyBundle = hexText bytes
  tokens : ∀ mint ∈ mints, ∃ seed : Random 32, mint.token = (tokenKeys host.toSha256 .keyFetch seed).token

namespace Spelled

variable {host : Host} {openRegistration : Bool} {db db' : Db} {mints : List Mint} {account : Account}
  {stretched : StretchedPassword} {signIn : SignIn} {answer : Except SignInError Answer} {throttle throttle' : Throttle}

/-- Tables with some of the tokens. -/
theorem of_subset (hspelled : Spelled host db mints) (h : ∀ token ∈ db'.keyFetchTokens, token ∈ db.keyFetchTokens) :
    Spelled host db' mints := ⟨fun token htoken => hspelled.bundles token (h token htoken), hspelled.tokens⟩

/-- What `start_key_fetch` writes. -/
theorem startKeyFetch_eq_ok {seed : Random 32} {createdAt : ℤ} {keys : TokenKeys}
    (h : startKeyFetch host db account stretched seed createdAt = .ok (keys, db')) :
    keys = tokenKeys host.toSha256 .keyFetch seed ∧ ∃ bytes, db.createKeyFetchToken
      ⟨hexText (tokenKeys host.toSha256 .keyFetch seed).id, account.uid, hexText bytes, createdAt⟩ = .ok db' := by
  unfold startKeyFetch at h
  rw [deriveTokenKeys_random] at h
  change (uncaught (sealKeys host account stretched _) >>= _) = _ at h
  obtain ⟨bytes, -, h⟩ := Fallible.bind_eq_ok.mp h
  obtain ⟨begun, hcreate, h⟩ := Fallible.bind_eq_ok.mp h
  cases h
  exact ⟨rfl, bytes, hcreate⟩

/-- The end of a sign-in. -/
theorem handOut (hspelled : Spelled host db mints) {sessionToken : Option String} (client : Option KeyClient)
    (h : Accounts.handOut host db account stretched signIn sessionToken = (answer, db')) :
    Spelled host db' (mintsAfter mints client answer) := by
  unfold Accounts.handOut at h
  split at h
  · split at h
    · cases h
      exact hspelled
    · rename_i keys begun hstart
      cases h
      obtain ⟨rfl, bytes, hcreate⟩ := startKeyFetch_eq_ok hstart
      obtain ⟨rfl, -⟩ := createKeyFetchToken_eq_ok hcreate
      refine ⟨fun token htoken => ?_, fun mint hmint => ?_⟩
      · obtain htoken | htoken := List.mem_append.mp htoken
        · exact hspelled.bundles token htoken
        · cases List.mem_singleton.mp htoken
          exact ⟨bytes, rfl⟩
      · cases client with
        | none => exact hspelled.tokens mint hmint
        | some client =>
          obtain rfl | hmint := List.mem_cons.mp hmint
          · exact ⟨signIn.keySeed, rfl⟩
          · exact hspelled.tokens mint hmint
  · cases h
    exact hspelled

/-- A session, and the end of a sign-in. -/
theorem beginSession (hspelled : Spelled host db mints) (client : Option KeyClient)
    (h : Accounts.beginSession host db account stretched signIn = (answer, db')) :
    Spelled host db' (mintsAfter mints client answer) := by
  rw [Accounts.beginSession, startSession_eq] at h
  cases hcreate : db.createSessionToken ⟨hexText (tokenKeys host.toSha256 .session signIn.sessionSeed).id, account.uid,
      signIn.createdAt, signIn.createdAt⟩ with
  | error raised =>
    rw [hcreate] at h
    cases h
    exact hspelled
  | ok begun =>
    rw [hcreate] at h
    have hsame : begun.keyFetchTokens = db.keyFetchTokens := by
      unfold Db.createSessionToken at hcreate
      split at hcreate
      · cases hcreate
      · cases hcreate
        rfl
    exact (hspelled.of_subset fun token htoken => hsame ▸ htoken).handOut client h

/-- An account is made with no tokens. -/
theorem of_createAccount (hspelled : Spelled host db mints) (h : db.createAccount account = .ok db') : Spelled host db' mints := by
  obtain ⟨rfl, -⟩ := createAccount_eq_ok h
  exact ⟨hspelled.bundles, hspelled.tokens⟩

/-- Signing up. -/
theorem accountCreate (hspelled : Spelled host db mints) (random : AccountSecrets)
    (h : Accounts.accountCreate host openRegistration db signIn random = (answer, db')) :
    Spelled host db' (mintsAfter mints (some signIn.client) answer) := by
  obtain ⟨account, -, hprovision⟩ := @provision_eq host db signIn.client random signIn.createdAt
  unfold Accounts.accountCreate at h
  rw [hprovision] at h
  split at h
  · cases h
    exact hspelled
  · cases hcreate : db.createAccount account with
    | error raised =>
      rw [hcreate] at h
      cases h
      exact hspelled
    | ok made =>
      rw [hcreate] at h
      exact (hspelled.of_createAccount hcreate).beginSession _ h

/-- Adding an account from the command line. -/
theorem provisionWithPassword (hspelled : Spelled host db mints) {client : KeyClient} {random : AccountSecrets} {createdAt : ℤ}
    (h : Accounts.provisionWithPassword host db client random createdAt = (answer, db')) : Spelled host db' mints := by
  obtain ⟨account, -, hprovision⟩ := @provision_eq host db client random createdAt
  unfold Accounts.provisionWithPassword at h
  rw [hprovision] at h
  cases hcreate : db.createAccount account with
  | error raised =>
    rw [hcreate] at h
    cases h
    exact hspelled
  | ok made =>
    rw [hcreate] at h
    cases h
    exact hspelled.of_createAccount hcreate

/-- Signing in. -/
theorem accountLogin (hspelled : Spelled host db mints) {now : ℚ}
    (h : Accounts.accountLogin host db throttle signIn now = (answer, db', throttle')) :
    Spelled host db' (mintsAfter mints (some signIn.client) answer) := by
  unfold Accounts.accountLogin at h
  split at h
  · cases h
    exact hspelled
  · cases h
    exact hspelled.beginSession _ rfl

/-- Proving the password again. -/
theorem sessionReauth (hspelled : Spelled host db mints) {tokenId : String} {now : ℚ}
    (h : Accounts.sessionReauth host db throttle signIn tokenId now = (answer, db', throttle')) :
    Spelled host db' (mintsAfter mints (some signIn.client) answer) := by
  unfold Accounts.sessionReauth at h
  split at h
  · cases h
    exact hspelled
  · split at h
    · cases h
      exact hspelled
    · split at h
      · cases h
        exact hspelled
      · cases h
        have hsame : ∀ tokenId authAt, Spelled host (db.reauthenticateSessionToken tokenId authAt) mints :=
          fun _ _ => ⟨hspelled.bundles, hspelled.tokens⟩
        exact (hsame _ _).handOut _ rfl

/-- Deleting an account. -/
theorem accountDestroy (hspelled : Spelled host db mints) {client : KeyClient} {tokenId : String} {now : ℚ}
    (h : Accounts.accountDestroy host db throttle client tokenId now = (answer, db', throttle')) : Spelled host db' mints := by
  unfold Accounts.accountDestroy at h
  split at h
  · cases h
    exact hspelled
  · split at h
    · cases h
      exact hspelled
    · split at h
      · cases h
        exact hspelled
      · cases h
        exact hspelled.of_subset fun token htoken => (List.mem_filter.mp htoken).1

/-- Fetching keys. -/
theorem fetchKeys (hspelled : Spelled host db mints) {tokenId : String} (h : Accounts.fetchKeys db tokenId = (answer, db')) :
    Spelled host db' mints := by
  unfold Accounts.fetchKeys at h
  split at h
  · cases h
    exact hspelled
  · split at h
    · cases h
      exact hspelled
    · cases h
      exact hspelled.of_subset fun token htoken => (List.mem_filter.mp htoken).1

/-- Every request. -/
theorem step {w : Service} (hspelled : Spelled host w.db w.mints) (request : Request) :
    Spelled host ((service host openRegistration).step w request).1.db ((service host openRegistration).step w request).1.mints := by
  obtain ⟨db, throttle, signUps, mints⟩ := w
  cases request with
  | create signIn random => exact hspelled.accountCreate random rfl
  | add client random createdAt =>
    change Spelled host _ (mintsAfter mints none _)
    rw [mintsAfter_none]
    exact hspelled.provisionWithPassword rfl
  | login signIn now => exact hspelled.accountLogin rfl
  | reauth signIn tokenId now => exact hspelled.sessionReauth rfl
  | keys tokenId =>
    change Spelled host _ (mintsAfter mints none _)
    rw [mintsAfter_none]
    exact hspelled.fetchKeys rfl
  | destroy client tokenId now =>
    change Spelled host _ (mintsAfter mints none _)
    rw [mintsAfter_none]
    exact hspelled.accountDestroy rfl

end Spelled

/-- Every run writes them so. -/
theorem spelled_run (host : Host) (openRegistration : Bool) (throttle : Throttle) (requests : List Request) :
    Spelled host ((service host openRegistration).run (.fresh throttle) requests).db
      ((service host openRegistration).run (.fresh throttle) requests).mints := by
  have hstep : ∀ (w : Service) (request : Request), Spelled host w.db w.mints → True →
      Spelled host ((service host openRegistration).step w request).1.db
        ((service host openRegistration).step w request).1.mints := fun w request hspelled _ => hspelled.step request
  exact (service host openRegistration).run_of_step hstep ⟨nofun, nofun⟩ (Machine.along_true _)

/-- In every run, the header under which the browser presents a key fetch token is read as the id that the server
wrote. Whatever bundle its token is then answered with, with the password and the email of the account it
recovers kA and kB as they were made. -/
theorem browser_recovers_keys (host : Host) (openRegistration : Bool) (throttle : Throttle) (requests : List Request) :
    let w := (service host openRegistration).run (.fresh throttle) requests
    (∀ mint ∈ w.mints, ∃ header id, bearerHeader host.toSha256 mint.token.toList .keyFetch = some header ∧
      tokenId (some header) .keyFetch = .ok (some id) ∧ tokenIdOf host mint.token = .ok (String.ofList id)) ∧
    ∀ tokenId bundle, ((service host openRegistration).step w (.keys tokenId)).2 = .ok (.bundle bundle) →
      ∃ mint made, mintOf host w.mints tokenId = some mint ∧ signUpOf w.signUps mint.uid = some made ∧
        ∀ email, mint.client.salt = .v1 email → made.client.salt = .v1 email →
          mint.client.password = made.client.password →
            (mint.client.credentials host).authPw = (getCredentials host.toKdf email mint.client.password).authPw ∧
              accountKeys host.toSha256 mint.token.toList
                (getCredentials host.toKdf email mint.client.password).unwrapBKey bundle.toList =
                  some (made.random.ka.1, made.kb host) := by
  intro w
  have hspelled := spelled_run host openRegistration throttle requests
  have kept := kept_run host openRegistration throttle requests
  refine ⟨fun mint hmint => ?_, fun tokenId bundle hanswer => ?_⟩
  · obtain ⟨seed, hseed⟩ := hspelled.tokens mint hmint
    obtain ⟨header, id, hheader, hread, hid⟩ := tokenId_bearerHeader_token host seed
    exact ⟨header, id, hseed ▸ hheader, hread, by rw [hseed, tokenIdOf_token, hid]⟩
  · obtain ⟨token, htoken, rfl, rfl⟩ := @bundle_of_fetchKeys w.db _ tokenId bundle (Prod.ext hanswer rfl)
    obtain ⟨mint, made, hmint, huid, hmade, hopens⟩ := kept.minted token htoken
    refine ⟨mint, made, hmint, huid ▸ hmade, fun email hsalt hsalt' hpassword => ?_⟩
    obtain ⟨bytes, hbytes⟩ := hspelled.bundles token htoken
    obtain ⟨seed, hseed⟩ := hspelled.tokens mint (List.mem_of_find?_eq_some hmint)
    have hcredentials : getCredentials host.toKdf email mint.client.password = mint.client.credentials host := by
      rw [getCredentials_eq, KeyClient.credentials, hsalt]
    have hrecover := hopens hpassword (hsalt.trans hsalt'.symm)
    rw [hseed, hbytes] at hrecover
    rw [hcredentials, hseed, hbytes]
    exact ⟨rfl, accountKeys_of_recover hrecover⟩

end FxaLite.Content
