import FxaLite.Tokenserver.KeyIds
import FxaLite.Tokenserver.Tokenlib

/-!
# The token endpoint

The route of the tokenserver from the request it has read to its response: the Sync user of the account is
looked for, and a credential is minted for it. Whatever requests run beside each other, a credential is for a
row of the account and the client state it was asked for with, and no row is of two.
-/

namespace FxaLite.Tokenserver

open FxaLite.Crypto Concurrent

/-! ### The route -/

/-- `APPLICATION`. -/
def application : List Char := "sync".toList

/-- `VERSION`. -/
def version : List Char := "1.5".toList

def unsupported (description : String) : Raised := .refused "error" description

/-- What the route takes from the configuration: the URL of the storage, the lifetime of a credential in seconds,
and the secret that is shared with the storage. -/
structure Config where
  node : List Char
  tokenserverToken : ℤ
  secret : List Char

/-- What a request brings besides what was read of its headers, and the bytes that are drawn for its salt. -/
structure TokenCall where
  application : List Char
  version : List Char
  request : TokenRequest
  duration : Option (List Char)
  random : List UInt8

/-- The response, without what is the same in every one. -/
structure CredentialResponse where
  id : List Char
  key : List Char
  uid : ℕ
  apiEndpoint : List Char
  duration : ℤ
  hashedFxaUid : List Char
  deriving DecidableEq, Repr

/-- `_duration`. -/
def duration (raw : Option (List Char)) (default : ℤ) : ℤ :=
  match raw.bind Py.int with
  | none => default
  | some requested => if 0 < requested ∧ requested ≤ default then requested else default

section Route

variable (h : Sha256) (i : Interpreter) (config : Config)

/-- `metrics_hash`. -/
def metricsHash (value secret : List Char) : List Char := (hex (h.hmac (utf8 secret) (utf8 value))).take 32

/-- `hashed_device_id`. -/
def hashedDeviceId (hashedFxaUid secret : List Char) : List Char := metricsHash h (hashedFxaUid ++ "none".toList) secret

/-- The claims that a credential is minted of. -/
def claimsOf (call : TokenCall) (uid : ℕ) (kid : List Char) : TokenClaims where
  node := config.node
  fxaKid := kid
  fxaUid := call.request.sub.toList
  hashedDeviceId := hashedDeviceId h (metricsHash h call.request.sub.toList config.secret) config.secret
  hashedFxaUid := metricsHash h call.request.sub.toList config.secret
  expires := (call.request.nowMs / 1000 : ℕ) + duration call.duration config.tokenserverToken
  uid := uid

/-- The end of the route, once the Sync user is found. -/
def respond (call : TokenCall) (facts : TokenFacts) : Except Failure CredentialResponse :=
  match fxaKid (facts.keysChangedAt.getD facts.generation) call.request.clientState.toList with
  | none => .error .uncaught
  | some kid =>
    match makeToken h i (claimsOf h config call facts.uid kid).toClaims call.random config.secret with
    | none => .error .uncaught
    | some minted =>
      .ok
        { id := minted.1
          key := minted.2
          uid := facts.uid
          apiEndpoint := config.node ++ '/' :: version ++ '/' :: Py.str facts.uid
          duration := duration call.duration config.tokenserverToken
          hashedFxaUid := metricsHash h call.request.sub.toList config.secret }

/-- `token`. -/
def tokenRoute (call : TokenCall) : Script UserDb (Except Failure CredentialResponse) :=
  if call.application ≠ application then .done (.error (.raised (unsupported "Unsupported application")))
  else if call.version ≠ version then .done (.error (.raised (unsupported "Unsupported application version")))
  else
    (token call.request).bind fun result =>
      match result with
      | .error raised => .done (.error (.raised raised))
      | .ok facts => .done (respond h i config call facts)

end Route

/-! ### What is answered -/

section Responses

variable {h : Sha256} {i : Interpreter} {config : Config}

/-- What a response is made of: the claims of its request, with its uid and the name of a key. -/
structure Mints (h : Sha256) (i : Interpreter) (config : Config) (call : TokenCall) (response : CredentialResponse) (kid : List Char) :
    Prop where
  named : ∃ timestamp, fxaKid timestamp call.request.clientState.toList = some kid ∧
    (call.request.keyTimestamp ≠ 0 → timestamp = call.request.keyTimestamp)
  token : makeToken h i (claimsOf h config call response.uid kid).toClaims call.random config.secret = some (response.id, response.key)

/-- A response is minted of the claims of its request. -/
theorem mints_of_respond {call : TokenCall} {facts : TokenFacts} {response : CredentialResponse}
    (hresponse : respond h i config call facts = .ok response)
    (hnamed : call.request.keyTimestamp ≠ 0 → facts.keysChangedAt = some call.request.keyTimestamp) :
    response.uid = facts.uid ∧ ∃ kid, Mints h i config call response kid := by
  unfold respond at hresponse
  split at hresponse
  · cases hresponse
  · rename_i kid hkid
    split at hresponse
    · cases hresponse
    · rename_i minted hminted
      cases hresponse
      refine ⟨rfl, kid, ⟨_, hkid, fun hne => ?_⟩, hminted⟩
      rw [hnamed hne]
      rfl

/-- A response of the route is minted for a uid of its account and client state. -/
theorem relies_tokenRoute (call : TokenCall) (db : UserDb) :
    (tokenRoute h i config call).Relies UserDb.Grows (fun db result => ∀ response, result = .ok response →
      db.Names response.uid call.request.sub call.request.clientState ∧ ∃ kid, Mints h i config call response kid) db := by
  unfold tokenRoute
  split
  · intro response hresponse
    cases hresponse
  · split
    · intro response hresponse
      cases hresponse
    · refine (relies_token call.request db).bind fun result db' hanswers => ?_
      cases result with
      | error raised =>
        intro response hresponse
        cases hresponse
      | ok facts =>
        intro response hresponse
        obtain ⟨hnames, hnamed⟩ := hanswers facts rfl
        obtain ⟨huid, hminted⟩ := mints_of_respond hresponse hnamed
        exact ⟨huid ▸ hnames, hminted⟩

variable {ι : Type*}

/-- Calls of the token route that have not begun. -/
def tokenCalls (h : Sha256) (i : Interpreter) (config : Config) (calls : ι → TokenCall) (accounts : List String) :
    Threads ι UserDb (Except Failure CredentialResponse) := ⟨.fresh accounts, fun j => tokenRoute h i config (calls j)⟩

/-- In every run of calls, uids are told apart, and whoever is answered has a credential for a row of its own. -/
theorem answered_of_run [DecidableEq ι] (calls : ι → TokenCall) (accounts : List String) (schedule : List ι) :
    let t := (Threads.machine ι UserDb (Except Failure CredentialResponse)).run (tokenCalls h i config calls accounts) schedule
    t.state.Numbered ∧ ∀ j response, t.Finished j (.ok response) →
      t.state.Names response.uid (calls j).request.sub (calls j).request.clientState ∧
        ∃ kid, Mints h i config (calls j) response kid := by
  intro t
  obtain ⟨hgrows, hfinished⟩ := @Threads.finished_of_relies UserDb (Except Failure CredentialResponse) UserDb.Grows ι _
    (tokenCalls h i config calls accounts) (fun j db result => ∀ response, result = .ok response →
      db.Names response.uid (calls j).request.sub (calls j).request.clientState ∧ ∃ kid, Mints h i config (calls j) response kid)
    UserDb.Grows.refl UserDb.Grows.trans
    (fun hgrows hanswers response hresponse => ⟨hgrows.names _ _ _ (hanswers response hresponse).1, (hanswers response hresponse).2⟩)
    (fun j => relies_tokenRoute (calls j) _) schedule
  exact ⟨hgrows.numbered (numbered_fresh accounts), fun j response h => hfinished j _ h response rfl⟩

end Responses

end FxaLite.Tokenserver
