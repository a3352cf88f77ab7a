import FxaLite.SyncStorage.SignedTarget
import FxaLite.Tokenserver.Endpoint

/-!
# The holder of a credential

The tokenserver mints credentials while it moves its Sync users, and the storage admits whoever signs with one.
Together: whoever is answered by the one is admitted by the other, for the uid of the answer and no other, until the
credential expires; and what is admitted for a uid is always of the one account and client state that it was asked for.
-/

namespace FxaLite.SyncStorage

open Crypto Tokenserver Hawk Concurrent

/-- What a client signs of a request: its method, the target that goes over the wire, the address of the storage, and
the body if the route reads it. -/
def Scope.signedParts (scope : Scope) (raw : List UInt8) (origin : Origin) (readBody : Bool) : Presented where
  method := scope.method
  resource := scope.target raw
  origin := origin
  body := if readBody then some scope.body else none
  contentType := scope.contentType.getD []

/-- A storage request that is signed with a credential, at a time that is near. -/
def IsSigned (h : Sha256) (app : App) (credential : CredentialResponse) (scope : Scope) (readBody : Bool) : Prop :=
  ∃ raw origin header attributes, scope.rawPath = some raw ∧ Origin.parse app.publicUrl = some origin ∧
    scope.authorization = some (write attributes) ∧
    IsWritten h credential.id credential.key (scope.signedParts raw origin readBody) header attributes ∧
    (((app.nowMs / 1000 : ℕ) : ℤ) - header.ts).natAbs ≤ maxSkewSeconds

/-- A request that reaches a storage route of an application at its root, and whose URL comes apart where it was put
together. -/
structure Scope.ReachesStorage (scope : Scope) (f : Framework) (wellFormed : List Char → Prop) : Prop where
  host : wellFormed scope.host
  root : scope.rootPath.getD [] = []
  route : f.route scope ≠ none
  splitsBack : scope.SplitsBack

/-- The interpreter reads these claims as it writes them. -/
def ReadsBack (i : Interpreter) (claims : Claims) : Prop := i.loads (utf8 (i.dumps claims)) = some (.obj claims)

section Holders

variable {h : Sha256} {i : Interpreter} {f : Framework} {wellFormed : List Char → Prop} {app : App} {config : Config} {call : TokenCall}
  {response : CredentialResponse} {kid : List Char} {scope : Scope} {readBody : Bool}

/-- The user of a uid that a row names is found. -/
theorem syncUser_of_names {users : UserDb} {uid : ℕ} {fxaUid clientState : String} (hnames : users.Names uid fxaUid clientState)
    (hbound : uid < 2 ^ 63) : ∃ user, syncUser users uid = .ok (some user) := by
  obtain ⟨row, hrow, hrowUid, -, -⟩ := hnames
  rw [syncUser, if_pos hbound]
  cases hfind : users.users.find? (·.uid = uid) with
  | none =>
    have hnone := List.find?_eq_none.mp hfind row hrow
    exact absurd (decide_eq_true hrowUid) hnone
  | some user => exact ⟨user, rfl⟩

/-- The storage puts together what was signed, if the URL of the request comes apart where it was put together. -/
theorem presented_eq_signedParts (hurl : f.url scope = Url.urlsplit scope.urlText) (hsplits : scope.SplitsBack) {raw : List UInt8}
    (hraw : scope.rawPath = some raw) (origin : Origin) (readBody : Bool) :
    ∃ url, f.url scope = some url ∧ presented scope url origin readBody = scope.signedParts raw origin readBody := by
  obtain ⟨url, hfound, hquery⟩ := Option.map_eq_some_iff.mp ((map_query_url_eq_some hurl).mpr hsplits)
  refine ⟨url, hfound, ?_⟩
  simp only [presented, Scope.signedParts, signedTarget, hraw, hquery, Scope.target]

/-- What the storage reads of a credential. -/
def credentialsFor (h : Sha256) (config : Config) (call : TokenCall) (response : CredentialResponse) (kid : List Char) : SyncCredentials :=
  TokenClaims.credentials (claimsOf h config call response.uid kid) call.random (claimsOf h config call response.uid kid).expires

/-- A credential that was minted is read as its claims, and signs with the key that they derive. -/
theorem parseToken_of_mints (hmints : Mints h i config call response kid)
    (hexact : Double.IsExact (claimsOf h config call response.uid kid).expires)
    (hreads : ReadsBack i (payload (claimsOf h config call response.uid kid).toClaims call.random)) (hempty : i.loads [] = none) :
    response.id = tokenId h i (claimsOf h config call response.uid kid).toClaims call.random config.secret ∧
      parseToken h i response.id config.secret = .ok (credentialsFor h config call response kid) ∧
      deriveSecret h response.id (credentialsFor h config call response kid).salt config.secret = some response.key := by
  obtain ⟨key, hmade, hkey⟩ := exists_makeToken h i (claimsOf h config call response.uid kid).toClaims call.random config.secret
  have hsame := hmade.symm.trans hmints.token
  obtain ⟨hid, hkeys⟩ := Prod.mk.inj (Option.some.inj hsame)
  refine ⟨hid.symm, ?_, ?_⟩
  · rw [← hid]
    exact parseToken_tokenId (expiresOf_of_isExact hexact) hreads hempty
  · rw [← hid, ← hkeys]
    exact hkey

/-- Whoever signs with a credential is admitted for its uid, and for no other, until it expires. -/
theorem authenticateRequest_of_mints (hmints : Mints h i config call response kid)
    (hexact : Double.IsExact (credentialsFor h config call response kid).expires)
    (hreads : ReadsBack i (payload (claimsOf h config call response.uid kid).toClaims call.random)) (hempty : i.loads [] = none)
    (hchecks : f.ChecksHosts wellFormed) (hsecret : app.secret = config.secret) (hreaches : scope.ReachesStorage f wellFormed)
    (hsigned : IsSigned h app response scope readBody) {fxaUid clientState : String}
    (hnames : app.users.Names response.uid fxaUid clientState) (hbound : response.uid < 2 ^ 63) (uid : ℕ) :
    authenticateRequest h i f app scope uid readBody =
      if uid = response.uid ∧ ((app.nowMs / 1000 : ℕ) : ℤ) < (credentialsFor h config call response kid).expires then
        .ok ⟨⟨uid, quantize app.nowMs⟩, credentialsFor h config call response kid, if readBody then scope.body else []⟩
      else .error unauthorized := by
  obtain ⟨raw, origin, header, attributes, hraw, horigin, hauthorization, hwritten, hskew⟩ := hsigned
  obtain ⟨url, hurl, hpresented⟩ :=
    presented_eq_signedParts (hchecks.url scope hreaches.host) hreaches.splitsBack hraw origin readBody
  have hmount : mountRelative scope url = url.path := by simp [mountRelative, hreaches.root]
  have hexempt : exemptFromExpiry (mountRelative scope url) = false := by rw [hmount, not_exempt hchecks hreaches.route hurl]
  obtain ⟨hid, hparse, hkey⟩ := parseToken_of_mints hmints hexact hreads hempty
  have hheader := hwritten.parse_write hid
  have hne : write attributes ≠ [] := List.cons_ne_nil _ _
  have hauthenticate : authenticate h i (some (write attributes)) config.secret (scope.signedParts raw origin readBody)
      (mountRelative scope url) ((app.nowMs / 1000 : ℕ) : ℤ) =
        if ((app.nowMs / 1000 : ℕ) : ℤ) < (credentialsFor h config call response kid).expires then
          .ok (credentialsFor h config call response kid) else .error unauthorized := by
    have hdecides := @authenticate_of_verified h i config.secret (scope.signedParts raw origin readBody) header
      (write attributes) (mountRelative scope url) ((app.nowMs / 1000 : ℕ) : ℤ) _ hne hheader (hwritten.id ▸ hparse)
      (hwritten.verifySigned hkey hskew)
    simpa only [hexempt, Bool.false_eq_true, false_or] using hdecides
  obtain ⟨user, huser⟩ := syncUser_of_names hnames hbound
  have huid : (credentialsFor h config call response kid).uid = response.uid := rfl
  unfold authenticateRequest
  rw [hurl, horigin, hauthorization]
  dsimp only
  rw [hpresented, hsecret, hauthenticate]
  split
  · rename_i halive
    rw [Fallible.ok_bind, huid]
    by_cases hsame : uid = response.uid
    · subst hsame
      simp only [ne_eq, not_true_eq_false, if_false, huser, Fallible.ok_bind, halive, and_self, if_true]
    · have hother : (response.uid : ℤ) ≠ uid := fun heq => hsame (by omega)
      simp only [ne_eq, hother, not_false_eq_true, if_true, hsame, false_and, if_false]
  · rename_i hdead
    simp only [hdead, and_false, if_false]
    rfl

/-- Whatever token requests run beside each other, and in whatever order their statements are carried out: whoever is
answered has a credential of its account and client state, which nobody is answered with for another account or client
state; and a storage request that is signed with it is admitted for the uid of the answer, and for no other, until the
credential expires, as a request of that account with the key that was named. -/
theorem holder_admitted {ι : Type*} [DecidableEq ι] (hchecks : f.ChecksHosts wellFormed) (hempty : i.loads [] = none)
    (calls : ι → TokenCall) (accounts : List String) (schedule : List ι) :
    let t := (Threads.machine ι UserDb (Except Failure CredentialResponse)).run (tokenCalls h i config calls accounts) schedule
    ∀ j response, t.Finished j (.ok response) →
      (∀ j' response', t.Finished j' (.ok response') → response'.uid = response.uid →
        (calls j').request.sub = (calls j).request.sub ∧ (calls j').request.clientState = (calls j).request.clientState) ∧
      ∃ kid, Mints h i config (calls j) response kid ∧
        (Double.IsExact (credentialsFor h config (calls j) response kid).expires →
          ReadsBack i (payload (claimsOf h config (calls j) response.uid kid).toClaims (calls j).random) → response.uid < 2 ^ 63 →
          ∀ app scope readBody, app.users = t.state → app.secret = config.secret → scope.ReachesStorage f wellFormed →
            IsSigned h app response scope readBody →
            ∀ uid, authenticateRequest h i f app scope uid readBody =
              if uid = response.uid ∧
                  ((app.nowMs / 1000 : ℕ) : ℤ) < (credentialsFor h config (calls j) response kid).expires then
                .ok ⟨⟨uid, quantize app.nowMs⟩, credentialsFor h config (calls j) response kid, if readBody then scope.body else []⟩
              else .error unauthorized) := by
  intro t j response hfinished
  obtain ⟨hnumbered, hanswered⟩ := @answered_of_run h i config ι _ calls accounts schedule
  obtain ⟨hnames, kid, hmints⟩ := hanswered j response hfinished
  refine ⟨fun j' response' hfinished' huid => ?_, kid, hmints,
    fun hexact hreads hbound app scope readBody husers hsecret hreaches hsigned => ?_⟩
  · obtain ⟨hnames', -⟩ := hanswered j' response' hfinished'
    rw [huid] at hnames'
    exact hnumbered.named_unique hnames' hnames
  · rw [← husers] at hnames
    exact authenticateRequest_of_mints hmints hexact hreads hempty hchecks hsecret hreaches hsigned hnames hbound

end Holders

/-! ### A client that signs in and reads -/

/-- The storage of a server on one machine. -/
def localConfig : Config := ⟨"http://localhost/storage".toList, 3600, "secret".toList⟩

/-- A request on first sight. -/
def firstCall : TokenCall where
  application := application
  version := version
  request := ⟨"aa", some 1, 1, "00", 1700000000000⟩
  duration := some "300".toList
  random := sampleRandom

/-- The claims of its credential. -/
def firstClaims : TokenClaims := claimsOf sampleHash localConfig firstCall 1 "0000000000001-AA".toList

/-- A member of a JSON object that is a plain text. -/
def textMember (name : String) (value : List Char) : List Char := '"' :: name.toList ++ "\":\"".toList ++ value ++ "\",".toList

/-- An interpreter that knows their payload, as `json.dumps` writes it. -/
def firstInterpreter : Interpreter :=
  knowing
    ('\x7b' :: (textMember "node" firstClaims.node ++ textMember "fxa_kid" firstClaims.fxaKid ++ textMember "fxa_uid" firstClaims.fxaUid ++
      textMember "hashed_device_id" firstClaims.hashedDeviceId ++ textMember "hashed_fxa_uid" firstClaims.hashedFxaUid ++
      "\"expires\":1700000300,\"uid\":1,\"tokenserver_origin\":\"python\",\"salt\":\"00ff10\"\x7d".toList))
    (.obj (payload firstClaims.toClaims sampleRandom))

/-- The run of that request alone. -/
def firstRun : Threads (Fin 1) UserDb (Except Failure CredentialResponse) :=
  (Threads.machine (Fin 1) UserDb (Except Failure CredentialResponse)).run
    (tokenCalls sampleHash firstInterpreter localConfig (fun _ => firstCall) ["aa"]) [0, 0, 0]

/-- The storage after it. -/
def firstApp : App := ⟨"http://localhost".toList, "secret".toList, firstRun.state, 1700000000000⟩

/-- A read of a collection. -/
def bookmarksScope (authorization : List Char) : Scope :=
  { scopeFor "localhost" "/storage/1.5/1/storage/bookmarks" "/storage/1.5/1/storage/bookmarks" "" with
    authorization := some authorization }

/-- The header with which it is signed. -/
def bookmarksHeader (response : CredentialResponse) : HawkHeader :=
  clientHeader sampleHash response.id response.key
    ((bookmarksScope []).signedParts (utf8 "/storage/1.5/1/storage/bookmarks".toList) ⟨"localhost".toList, 80⟩ false)
    1700000000 "abcd".toList

/-- The request is answered, for the first uid. -/
theorem firstRun_finished : ∃ response, firstRun.Finished ⟨0, Nat.one_pos⟩ (.ok response) ∧ response.uid = 1 := by
  obtain ⟨key, hmade, -⟩ := exists_makeToken sampleHash firstInterpreter firstClaims.toClaims sampleRandom "secret".toList
  have hkid : fxaKid 1 firstCall.request.clientState.toList = some "0000000000001-AA".toList := by decide
  have hminted : makeToken sampleHash firstInterpreter
      (claimsOf sampleHash localConfig firstCall 1 "0000000000001-AA".toList).toClaims firstCall.random localConfig.secret =
      some (tokenId sampleHash firstInterpreter firstClaims.toClaims sampleRandom "secret".toList, key) := hmade
  have hresponse : respond sampleHash firstInterpreter localConfig firstCall ⟨1, 1, some 1⟩ = .ok
      { id := tokenId sampleHash firstInterpreter firstClaims.toClaims sampleRandom "secret".toList
        key := key
        uid := 1
        apiEndpoint := localConfig.node ++ '/' :: version ++ '/' :: Py.str 1
        duration := duration firstCall.duration localConfig.tokenserverToken
        hashedFxaUid := metricsHash sampleHash firstCall.request.sub.toList localConfig.secret } := by
    simp only [respond, Option.getD_some, hkid, hminted]
  have hfinished : firstRun.Finished ⟨0, Nat.one_pos⟩ (respond sampleHash firstInterpreter localConfig firstCall ⟨1, 1, some 1⟩) := rfl
  rw [hresponse] at hfinished
  exact ⟨_, hfinished, rfl⟩

/-- The URL of the read comes apart where it was put together. -/
theorem splitsBack_bookmarksScope (authorization : List Char) : (bookmarksScope authorization).SplitsBack := by
  have hbefore : (bookmarksScope authorization).beforeQuery = "localhost/storage/1.5/1/storage/bookmarks".toList := rfl
  refine splitsBack_of_plain ?_ rfl
  rw [hbefore]
  decide +kernel

/-- A framework that takes whatever is under the prefix of the storage for that read. -/
def firstFramework : Framework where
  url := checkingFramework.url
  route scope := if storagePrefix <+: scope.path then some ⟨1, .getCollection "bookmarks".toList⟩ else none

/-- A route is found there, and only there. -/
theorem firstFramework_route {scope : Scope} : firstFramework.route scope ≠ none ↔ storagePrefix <+: scope.path := by
  unfold firstFramework
  dsimp only
  split <;> simp_all

/-- It behaves as documented. -/
theorem firstFramework_checksHosts : firstFramework.ChecksHosts IsAddress where
  address := checkingFramework_checksHosts.address
  url := checkingFramework_checksHosts.url
  otherwise := checkingFramework_checksHosts.otherwise
  route _ := firstFramework_route.mp

/-- The read reaches that route. -/
theorem reachesStorage_bookmarksScope (authorization : List Char) :
    (bookmarksScope authorization).ReachesStorage firstFramework IsAddress where
  host := isAddress_localhost
  root := rfl
  route := firstFramework_route.mpr ⟨"1/storage/bookmarks".toList, rfl⟩
  splitsBack := splitsBack_bookmarksScope authorization

/-- The client is answered, and admitted with what it was answered. -/
theorem holder_admitted_first :
    ∃ response, firstRun.Finished ⟨0, Nat.one_pos⟩ (.ok response) ∧
      authenticateRequest sampleHash firstInterpreter firstFramework firstApp
          (bookmarksScope (write ((bookmarksHeader response).attributes "1700000000".toList true true))) 1 false =
        .ok ⟨⟨1, 1700000000000⟩, TokenClaims.credentials firstClaims sampleRandom 1700000300, []⟩ := by
  have hempty : firstInterpreter.loads [] = none := knowing_loads_nil _ _ _
  obtain ⟨response, hfinished, huid⟩ := firstRun_finished
  obtain ⟨-, kid, hmints, hall⟩ := holder_admitted firstFramework_checksHosts hempty (fun _ : Fin 1 => firstCall) ["aa"] [0, 0, 0]
    ⟨0, Nat.one_pos⟩ response hfinished
  obtain ⟨timestamp, htimestamp, hnamed⟩ := hmints.named
  obtain rfl : timestamp = 1 := hnamed (by decide)
  have hkid : fxaKid 1 firstCall.request.clientState.toList = some "0000000000001-AA".toList := by decide
  obtain rfl : kid = "0000000000001-AA".toList := Option.some.inj (htimestamp.symm.trans hkid)
  have hclaims : claimsOf sampleHash localConfig firstCall response.uid "0000000000001-AA".toList = firstClaims := by
    rw [huid]
    rfl
  have hexact : Double.IsExact (credentialsFor sampleHash localConfig firstCall response "0000000000001-AA".toList).expires := by
    rw [credentialsFor, hclaims]
    exact Double.isExact_of_lt (by decide)
  have hreads : ReadsBack firstInterpreter (payload firstClaims.toClaims sampleRandom) := knowing_loads_dumps _ _ _
  obtain ⟨hid, -, hkey⟩ := parseToken_of_mints hmints hexact (hclaims ▸ hreads) hempty
  have hwritten := @isWritten_clientHeader sampleHash "secret".toList response.id response.key
    ((bookmarksScope []).signedParts (utf8 "/storage/1.5/1/storage/bookmarks".toList) ⟨"localhost".toList, 80⟩ false)
    _ "abcd".toList "1700000000".toList "80".toList 1700000000 true true hkey (by decide) (by decide)
    (List.all_eq_true.mp (by decide))
  have hskew : (((firstApp.nowMs / 1000 : ℕ) : ℤ) - 1700000000).natAbs ≤ maxSkewSeconds := by
    change (((1700000000000 / 1000 : ℕ) : ℤ) - 1700000000).natAbs ≤ maxSkewSeconds
    decide
  have hadmitted := hall hexact (hclaims ▸ hreads) (by rw [huid]; decide) firstApp
    (bookmarksScope (write ((bookmarksHeader response).attributes "1700000000".toList true true))) false rfl rfl
    (reachesStorage_bookmarksScope _) ⟨_, _, _, _, rfl, by decide, rfl, hwritten, hskew⟩
  have hcredentials : credentialsFor sampleHash localConfig firstCall response "0000000000001-AA".toList =
      TokenClaims.credentials firstClaims sampleRandom 1700000300 := by
    rw [credentialsFor, hclaims]
    rfl
  have hnow : ((firstApp.nowMs / 1000 : ℕ) : ℤ) < 1700000300 := by
    change ((1700000000000 / 1000 : ℕ) : ℤ) < 1700000300
    decide
  refine ⟨response, hfinished, (hadmitted 1).trans ?_⟩
  rw [hcredentials, if_pos ⟨huid.symm, hnow⟩]
  rfl

end FxaLite.SyncStorage
