import FxaLite.OAuth.Escalation
import FxaLite.OAuth.NormalForm

/-!
# What a code is bound to

No request adds a code but an authorization, and it adds the one it answers with. So in every run
a code that is found was minted by an authorization of the run, and what an exchange of it is
checked against, and yields, is what was authorized there. The sweep of an authorization takes
only codes that have expired; and a code that has been redeemed is not there again until it is
drawn again.
-/

namespace FxaLite.OAuth

open FxaLite.Accounts Concurrent Reactive

/-! ### What is authorized -/

section Authorization

variable {server : Server} {ambient : Ambient} {payload : AuthorizationRequest} {credentials : SessionToken × Account}
  {grant : Grant}

/-- A scope that is parsed is normal. -/
theorem normal_of_parseScope {value field : String} {scope : ScopeSet} (h : parseScope value field = .ok scope) :
    ScopeSet.Normal scope.scopesToImplicants := by
  unfold parseScope at h
  split at h
  · rename_i hread
    cases h
    exact ScopeSet.normal_of_fromArray hread
  · cases h
  · cases h

/-- The scope that is asked for is normal. -/
theorem normal_of_requestedScope {scope : ScopeSet} (h : requestedScope payload = .ok scope) :
    ScopeSet.Normal scope.scopesToImplicants := by
  unfold requestedScope at h
  split at h
  · exact normal_of_parseScope h
  · split at h
    · cases h
    · split at h
      · cases h
      · dsimp only at h
        split at h
        · rename_i hread
          cases h
          exact ScopeSet.normal_of_fromArray hread
        · cases h

/-- A grant that is validated is for the claims and the client, with what was asked for. -/
theorem validateRequestedGrant_eq_ok {claims : SessionClaims} {client : Client} {request : GrantRequest}
    (h : validateRequestedGrant claims client request = .ok grant) :
    grant.client = client ∧ grant.uid = claims.uid ∧ grant.scope = grantedScope client request.scope ∧
      grant.keysJwe = request.keysJwe ∧ grant.offline = decide (request.accessType = "offline") := by
  dsimp only [validateRequestedGrant] at h
  split at h
  · cases h
  · split at h
    · cases h
    · split at h
      · cases h
      · cases h
        exact ⟨rfl, rfl, rfl, rfl, rfl⟩

/-- Its scope is normal if that is. -/
theorem normal_of_validateRequestedGrant {claims : SessionClaims} {client : Client} {request : GrantRequest}
    (h : validateRequestedGrant claims client request = .ok grant)
    (hnormal : ScopeSet.Normal request.scope.scopesToImplicants) : ScopeSet.Normal grant.scope.scopesToImplicants := by
  obtain ⟨-, -, hscope, -, -⟩ := validateRequestedGrant_eq_ok h
  rw [hscope, grantedScope]
  split
  · exact ScopeSet.normal_ofScopes _
  · exact hnormal

/-- A granted authorization: its client is registered and its challenge in order, and the grant is for the
account of the session, with the keys and the access that were asked for. -/
structure Granted (server : Server) (payload : AuthorizationRequest) (credentials : SessionToken × Account)
    (grant : Grant) : Prop where
  client : findClient server payload.clientId = .ok grant.client
  challenge : checkPkceParameters grant.client payload = .ok ()
  uid : grant.uid = credentials.2.uid
  keysJwe : grant.keysJwe = payload.keysJwe
  offline : grant.offline = decide (payload.accessType = "offline")
  normal : ScopeSet.Normal grant.scope.scopesToImplicants

/-- What an authorization that passes its checks is granted. -/
theorem granted_of_authorizationGrant (h : authorizationGrant server ambient payload credentials = .ok grant) :
    Granted server payload credentials grant := by
  unfold authorizationGrant at h
  split at h
  · cases h
  · simp only [Fallible.bind_eq_ok] at h
    obtain ⟨client, hclient, -, -, scope, hscope, -, -, _, hchallenge, hvetted⟩ := h
    have hnormal := normal_of_validateRequestedGrant hvetted (normal_of_requestedScope hscope)
    obtain ⟨rfl, huid, -, hkeys, hoffline⟩ := validateRequestedGrant_eq_ok hvetted
    exact ⟨hclient, hchallenge, huid, hkeys, hoffline, hnormal⟩

/-- A public client binds its code to a challenge. -/
theorem challenge_of_checkPkceParameters {client : Client} (hpublic : client.publicClient = true)
    (h : checkPkceParameters client payload = .ok ()) :
    given payload.codeChallenge ≠ none ∧ given payload.codeChallengeMethod = some pkceMethod := by
  unfold checkPkceParameters at h
  rw [hpublic] at h
  cases hchallenge : given payload.codeChallenge with
  | none => simp [hchallenge] at h
  | some challenge =>
    cases hmethod : given payload.codeChallengeMethod with
    | none => simp [hchallenge, hmethod] at h
    | some method => simpa [hchallenge, hmethod] using h

end Authorization

/-! ### Where codes come from -/

section Codes

variable {server : Server} {ambient : Ambient}

/-- A call mints a code: it is an authorization of a session that is granted and answered, and the row is
what it records. -/
def Mints (server : Server) (db : Db) (call : Call) (row : OauthCode) : Prop :=
  ∃ payload ambient credentials grant, call = .authorization payload ambient ∧
    ((sessionCredentials ambient).exec db).1 = .ok credentials ∧
    authorizationGrant server ambient payload credentials = .ok grant ∧
    (serveCall server db call).2 = .authorized (.ok ⟨ambient.tokenHex 0, payload.state, scopeText grant.scope⟩) ∧
    row = oauthCodeRow server ambient payload credentials grant

/-- The end of an authorization: the codes that have not expired are left, and the one that is answered with. -/
theorem mem_exec_authorizeGrant {payload : AuthorizationRequest} {credentials : SessionToken × Account} {grant : Grant}
    {db : Db} {row : OauthCode}
    (h : row ∈ ((authorizeGrant server ambient payload credentials grant).exec db).2.oauthCodes) :
    row ∈ db.oauthCodes ∨
      ((authorizeGrant server ambient payload credentials grant).exec db).1 =
          .ok ⟨ambient.tokenHex 0, payload.state, scopeText grant.scope⟩ ∧
        row = oauthCodeRow server ambient payload credentials grant := by
  have hswept : ∀ {before : ℤ}, row ∈ (db.deleteExpiredOauthCodes before).oauthCodes → row ∈ db.oauthCodes :=
    fun hrow => (List.mem_filter.mp hrow).1
  simp only [authorizeGrant, createOauthCode, Script.exec_act, Script.andThen, Script.bind, Script.exec_stmt] at h ⊢
  split at h
  · rename_i htakes
    rw [if_pos htakes]
    obtain hrow | hrow := List.mem_append.mp h
    · exact Or.inl (hswept hrow)
    · exact Or.inr ⟨rfl, List.mem_singleton.mp hrow⟩
  · exact Or.inl (hswept h)

/-- Making tokens adds no code. -/
theorem ensures_codes_generateTokens (codes : List OauthCode) (ttl : ℤ) (grant : Grant) :
    (generateTokens server ambient ttl grant).Ensures (fun db => db.oauthCodes ⊆ codes) fun _ => True := by
  unfold generateTokens
  split
  · intro db hdb
    dsimp only
    split
    · exact ⟨hdb, trivial⟩
    · exact ⟨hdb, trivial⟩
  · trivial

/-- Nor does redeeming one. -/
theorem ensures_codes_authorizationCodeGrant (codes : List OauthCode) (client : Client) (payload : TokenRequest) :
    (authorizationCodeGrant server ambient client payload).Ensures (fun db => db.oauthCodes ⊆ codes) fun _ => True := by
  have hdelete : ∀ (db : Db) (code : String), db.oauthCodes ⊆ codes → (db.deleteOauthCode code).oauthCodes ⊆ codes :=
    fun db code hdb row hrow => hdb (List.mem_filter.mp hrow).1
  unfold authorizationCodeGrant
  split
  · trivial
  · split
    · trivial
    · refine Script.Ensures.read fun db _ => ?_
      split
      · trivial
      · unfold redeemCode
        split
        · trivial
        · trivial
        · split
          · exact fun db hdb => ⟨hdelete db _ hdb, trivial⟩
          · split
            · trivial
            · refine fun db hdb => ⟨hdelete db _ hdb, Script.Ensures.read fun db _ => ?_⟩
              split
              · trivial
              · trivial

/-- Nor does using a refresh token. -/
theorem ensures_codes_refreshTokenGrant (codes : List OauthCode) (client : Client) (payload : TokenRequest) :
    (refreshTokenGrant server ambient client payload).Ensures (fun db => db.oauthCodes ⊆ codes) fun _ => True := by
  unfold refreshTokenGrant
  split
  · trivial
  · refine Script.Ensures.read fun db _ => ?_
    split
    · trivial
    · unfold useRefreshToken
      split
      · trivial
      · trivial
      · split
        · trivial
        · refine Script.Ensures.read fun db _ => ?_
          split
          · trivial
          · exact fun db hdb => ⟨hdb, trivial⟩

/-- Nor does using a session. -/
theorem ensures_codes_fxaCredentialsGrant (codes : List OauthCode) (client : Client) (payload : TokenRequest) :
    (fxaCredentialsGrant ambient client payload).Ensures (fun db => db.oauthCodes ⊆ codes) fun _ => True := by
  unfold fxaCredentialsGrant
  split
  · trivial
  · split
    · trivial
    · split
      · trivial
      · refine ensures_optionalSessionCredentials.bind fun result _ => ?_
        cases result with
        | error raised => trivial
        | ok credentials => trivial

/-- A token request adds no code. -/
theorem ensures_codes_oauthToken (codes : List OauthCode) (payload : TokenRequest) :
    (oauthToken server payload ambient).Ensures (fun db => db.oauthCodes ⊆ codes) fun _ => True := by
  unfold oauthToken
  split
  · trivial
  · rename_i client _
    split
    · trivial
    · have hgrant : (requestGrant server ambient client payload).Ensures (fun db => db.oauthCodes ⊆ codes)
          fun _ => True := by
        unfold requestGrant
        split
        · exact ensures_codes_authorizationCodeGrant codes client payload
        · split
          · exact ensures_codes_refreshTokenGrant codes client payload
          · split
            · exact ensures_codes_fxaCredentialsGrant codes client payload
            · trivial
      refine hgrant.bind fun result _ => ?_
      cases result with
      | error raised => trivial
      | ok grant => exact ensures_codes_generateTokens codes _ grant

/-- The step lemma: a call adds no code but the one it mints. -/
theorem mem_serveCall {db : Db} {call : Call} {row : OauthCode} (h : row ∈ (serveCall server db call).1.oauthCodes) :
    row ∈ db.oauthCodes ∨ Mints server db call row := by
  cases call with
  | authorization payload ambient =>
    have hcredentials : ((sessionCredentials ambient).exec db).2 = db :=
      ((@ensures_sessionCredentials ambient (· = db)).exec rfl).2
    cases hresult : ((sessionCredentials ambient).exec db).1 with
    | error raised =>
      dsimp only [serveCall, oauthAuthorization] at h
      rw [Script.exec_andThen_error (Prod.ext hresult hcredentials)] at h
      exact Or.inl h
    | ok credentials =>
      have hexec : (oauthAuthorization server payload ambient).exec db = _ :=
        Script.exec_andThen_ok (Prod.ext hresult hcredentials)
      cases hgrant : authorizationGrant server ambient payload credentials with
      | error raised =>
        rw [hgrant] at hexec
        dsimp only [serveCall] at h
        rw [hexec] at h
        exact Or.inl h
      | ok grant =>
        rw [hgrant] at hexec
        dsimp only [serveCall] at h
        rw [hexec] at h
        refine (mem_exec_authorizeGrant h).imp_right fun ⟨hanswer, hrow⟩ =>
          ⟨payload, ambient, credentials, grant, rfl, hresult, hgrant, ?_, hrow⟩
        dsimp only [serveCall]
        rw [hexec, hanswer]
  | token payload ambient => exact Or.inl (((ensures_codes_oauthToken db.oauthCodes payload).exec (List.Subset.refl _)).2 h)
  | elsewhere accounts sessionTokens keyFetchTokens keepsCode keepsToken => exact Or.inl (List.mem_filter.mp h).1

/-- An authorization sweeps nothing away but what has expired. -/
theorem createdAt_lt_of_swept {db : Db} {payload : AuthorizationRequest} {row : OauthCode} (hrow : row ∈ db.oauthCodes)
    (hswept : row ∉ (serveCall server db (.authorization payload ambient)).1.oauthCodes) :
    row.createdAt < ambient.now 1 - server.authorizationCodeTtl * 1000 := by
  by_contra hfresh
  have hkept : (oauthAuthorization server payload ambient).Ensures (row ∈ ·.oauthCodes) fun _ => True := by
    refine ensures_sessionCredentials.bind fun result _ => ?_
    cases result with
    | error raised => trivial
    | ok credentials =>
      dsimp only
      split
      · trivial
      · refine fun db hdb => ⟨List.mem_filter.mpr ⟨hdb, decide_eq_true hfresh⟩, fun db hdb => ?_⟩
        dsimp only
        split
        · exact ⟨List.mem_append_left _ hdb, trivial⟩
        · exact ⟨hdb, trivial⟩
  exact hswept (hkept.exec hrow).2

/-- Codes that were not there before some calls, and that none of them mints, are not there after them. -/
theorem oauthCode_run_eq_none {db : Db} {code : String} (hgone : db.oauthCode code = none) {calls : List Call}
    (hdrawn : ∀ payload ambient, .authorization payload ambient ∈ calls → server.hashToken (ambient.tokenHex 0) ≠ code) :
    ((oauthServer server).run db calls).oauthCode code = none := by
  refine List.find?_eq_none.mpr fun row hrow hcode => ?_
  obtain hbefore | ⟨earlier, call, later, rfl, hmints⟩ :=
    @Machine.exists_step_of_run _ _ _ (oauthServer server) (row ∈ ·.oauthCodes) _
      (fun db call => @mem_serveCall server db call row) _ _ hrow
  · exact List.find?_eq_none.mp hgone row hbefore hcode
  · obtain ⟨payload, ambient, credentials, grant, rfl, -, -, -, rfl⟩ := hmints
    exact hdrawn payload ambient (by simp) (of_decide_eq_true hcode)

end Codes

/-! ### What an exchange comes to -/

section Exchange

variable {server : Server} {requestCode : String} {request : TokenRequest × Ambient}

/-- A code that passes is held. -/
theorem foundCode_of_passes {client : Client} {row : OauthCode} (h : Passes server request client row) :
    foundCode server requestCode request client row =
      holding server client row request.2 (tokenTtl server request.1) := by
  unfold foundCode redeemCode
  rw [h.client]
  dsimp only
  rw [if_neg h.fresh]
  have hverifier : checkCodeVerifier server row (codeRequest requestCode request.1).codeVerifier = .ok () := h.verifier
  rw [hverifier]
  rfl

/-- The account of a code is read, and the grant made of the two. -/
theorem exec_codeAccount_eq_ok {client : Client} {row : OauthCode} {grant : Grant} {db after : Db}
    (h : (codeAccount client row).exec db = (.ok grant, after)) :
    after = db ∧ ∃ account, db.account row.uid = some account ∧ grantFromCode client account row = .ok grant := by
  rw [codeAccount, Script.exec_read] at h
  split at h
  · cases h
  · rename_i account howner
    obtain ⟨hgrant, hafter⟩ := Prod.mk.inj h
    exact ⟨hafter.symm, account, howner, hgrant⟩

/-- A request that is refused is not answered with tokens. -/
theorem IsRefused.exec_ne_ok {script : Script Db (Except OauthError TokenResponse)} (h : IsRefused script) {db after : Db}
    {response : TokenResponse} : script.exec db ≠ (.ok response, after) := by
  cases h with
  | now raised => exact fun hexec => nomatch hexec
  | sweeping code raised => exact fun hexec => nomatch hexec

/-- An exchange that is answered with tokens: the code is there and passes, its account is there, and the
tokens are made for the grant that it stands for. -/
structure Exchanged (server : Server) (db : Db) (requestCode : String) (request : TokenRequest × Ambient)
    (response : TokenResponse) (client : Client) (row : OauthCode) (account : Account) (grant : Grant) : Prop where
  registered : findClient server request.1.clientId = .ok client
  found : db.oauthCode (server.hashToken requestCode) = some row
  passes : Passes server request client row
  owner : db.account row.uid = some account
  grants : grantFromCode client account row = .ok grant
  tokens : response = { tokenResponse server request.2 grant (tokenTtl server request.1) with
    refreshToken := if grant.offline then some (request.2.tokenHex 1) else none }

/-- How an exchange is answered with tokens, and that it takes the code away. -/
theorem exchanged_of_redeem {db after : Db} {response : TokenResponse}
    (h : (redeem server requestCode request).exec db = (.ok response, after)) :
    (∃ client row account grant, Exchanged server db requestCode request response client row account grant) ∧
      after.oauthCode (server.hashToken requestCode) = none := by
  obtain ⟨raised, hraised⟩ | ⟨client, hclient, hread⟩ := redeem_cases server requestCode request
  · rw [hraised] at h
    cases h
  · rw [hread, Script.exec_read] at h
    cases hfound : db.oauthCode (server.hashToken requestCode) with
    | none =>
      rw [hfound] at h
      cases h
    | some row =>
      rw [hfound] at h
      dsimp only at h
      have hcode := Db.code_of_oauthCode hfound
      obtain ⟨hpasses, -⟩ | hrefused := @foundCode_cases server requestCode request client row hcode
      · rw [foundCode_of_passes hpasses, holding, Script.exec_act] at h
        obtain ⟨grant, middle, haccount, htokens⟩ := Script.exec_andThen_eq_ok h
        obtain ⟨rfl, account, howner, hgrant⟩ := exec_codeAccount_eq_ok haccount
        obtain ⟨hresponse, hafter⟩ := exec_generateTokens_eq_ok htokens
        refine ⟨⟨client, row, account, grant, hclient, hfound, hpasses, howner, hgrant, hresponse⟩, ?_⟩
        have hcodes : after.oauthCodes = (db.deleteOauthCode row.code).oauthCodes := by
          rw [hafter]
          split
          · rfl
          · rfl
        rw [← hcode, Db.oauthCode, hcodes]
        exact Db.oauthCode_deleteOauthCode db row.code
      · exact absurd h hrefused.exec_ne_ok

/-- A code with a challenge passes with a verifier of the challenge only. -/
theorem verifier_of_checkCodeVerifier {row : OauthCode} {verifier : Option String} (hbound : given row.codeChallenge ≠ none)
    (h : checkCodeVerifier server row verifier = .ok ()) :
    ∃ text, verifier = some text ∧ row.codeChallenge = some (server.sha256B64u text) := by
  have hgiven : ∀ {s : Option String} {t : String}, given s = some t → s = some t := fun hs =>
    (Option.filter_eq_some_iff.mp hs).1
  obtain ⟨challenge, hchallenge⟩ := Option.ne_none_iff_exists'.mp hbound
  unfold checkCodeVerifier at h
  rw [hchallenge] at h
  dsimp only at h
  split at h
  · cases h
  · cases hverifier : given verifier with
    | none =>
      rw [hverifier] at h
      cases h
    | some text =>
      rw [hverifier] at h
      obtain ⟨digest, hdigest, hcompared⟩ := Fallible.bind_eq_ok.mp h
      obtain ⟨equal, hequal, hend⟩ := Fallible.bind_eq_ok.mp hcompared
      have hsame : challenge = server.sha256B64u text := by
        unfold pkceChallenge at hdigest
        split at hdigest
        · cases hdigest
          cases equal with
          | false => cases hend
          | true => exact eq_of_compareDigest hequal
        · cases hdigest
      exact ⟨text, hgiven hverifier, by rw [hgiven hchallenge, hsame]⟩

/-- The grant of a code: its client and its account's uid, its keys and its access, and the scope that is
written as it was authorized. -/
theorem grant_of_grantFromCode {ambient : Ambient} {payload : AuthorizationRequest}
    {credentials : SessionToken × Account} {authorized grant : Grant} {client : Client} {account : Account}
    (hnormal : ScopeSet.Normal authorized.scope.scopesToImplicants)
    (h : grantFromCode client account (oauthCodeRow server ambient payload credentials authorized) = .ok grant) :
    grant.client = client ∧ grant.uid = account.uid ∧ grant.keysJwe = payload.keysJwe ∧
      grant.offline = authorized.offline ∧ scopeText grant.scope = scopeText authorized.scope := by
  unfold grantFromCode at h
  split at h
  · cases h
  · rename_i scope hread
    cases h
    refine ⟨rfl, rfl, rfl, rfl, ?_⟩
    have hread' : ScopeSet.fromString authorized.scope.str = .ok scope := by
      simpa only [readScope, oauthCodeRow, scopeText, String.toList_ofList] using hread
    exact congrArg String.ofList (ScopeSet.str_of_fromString_str hnormal hread')

end Exchange

/-- An exchange is bound to an authorization: it presents the code that was issued there, for its client, in
time, and with the verifier of its challenge if the client is public; and it yields what was
authorized. -/
structure BoundTo (server : Server) (authorization : AuthorizationRequest) (minting : Ambient)
    (credentials : SessionToken × Account) (issued : AuthorizationResponse) (client : Client) (requestCode : String)
    (request : TokenRequest × Ambient) (response : TokenResponse) : Prop where
  code : server.hashToken issued.code = server.hashToken requestCode
  authorized : findClient server authorization.clientId = .ok client
  presented : findClient server request.1.clientId = .ok client
  inTime : request.2.now 0 ≤ minting.now 1 + server.authorizationCodeTtl * 1000
  verified : client.publicClient = true → ∃ verifier, request.1.codeVerifier = some verifier ∧
    authorization.codeChallenge = some (server.sha256B64u verifier)
  clientId : response.accessToken.clientId = client.id
  uid : response.accessToken.sub = credentials.2.uid
  scope : response.accessToken.scope = issued.scope ∧ response.scope = issued.scope
  keysJwe : response.keysJwe = given authorization.keysJwe
  offline : response.refreshToken.isSome ↔ authorization.accessType = "offline"

/-- What is exchanged was authorized. -/
theorem boundTo_of_exchanged {server : Server} {db : Db} {requestCode : String} {request : TokenRequest × Ambient}
    {response : TokenResponse} {client : Client} {account : Account} {grant authorized : Grant} {minting : Ambient}
    {authorization : AuthorizationRequest} {credentials : SessionToken × Account}
    (h : Exchanged server db requestCode request response client
      (oauthCodeRow server minting authorization credentials authorized) account grant)
    (hgranted : authorizationGrant server minting authorization credentials = .ok authorized) :
    BoundTo server authorization minting credentials
      ⟨minting.tokenHex 0, authorization.state, scopeText authorized.scope⟩ client requestCode request response := by
  have hauthorized := granted_of_authorizationGrant hgranted
  -- registered under one id, the two clients are one
  have hclient : authorized.client = client := by
    have hid : authorized.client.id = client.id := eq_of_compareDigest h.passes.client
    have hget := get_of_findClient hauthorized.client
    rw [hid, get_of_findClient h.registered] at hget
    exact (Option.some.inj hget).symm
  obtain ⟨hgrantClient, hgrantUid, hgrantKeys, hgrantOffline, hgrantScope⟩ :=
    grant_of_grantFromCode hauthorized.normal h.grants
  have howner : account.uid = credentials.2.uid := by
    have howns : db.account authorized.uid = some account := h.owner
    have hfound : account.uid = authorized.uid := by simpa using List.find?_some howns
    rw [hfound, hauthorized.uid]
  have htokens := h.tokens
  refine
    { code := Db.code_of_oauthCode h.found
      authorized := hclient ▸ hauthorized.client
      presented := h.registered
      inTime := not_lt.mp h.passes.fresh
      verified := fun hpublic => ?_
      clientId := by rw [htokens, ← hgrantClient]; rfl
      uid := by rw [htokens, ← howner, ← hgrantUid]; rfl
      scope := by rw [htokens, ← hgrantScope]; exact ⟨rfl, rfl⟩
      keysJwe := by rw [htokens, ← hgrantKeys]; rfl
      offline := ?_ }
  · obtain ⟨hchallenge, -⟩ := challenge_of_checkPkceParameters hpublic (hclient ▸ hauthorized.challenge)
    exact verifier_of_checkCodeVerifier hchallenge h.passes.verifier
  · rw [htokens, hgrantOffline, hauthorized.offline]
    by_cases hoffline : authorization.accessType = "offline"
    · simp [hoffline]
    · simp [hoffline]

/-- In every run, an exchange that is answered with tokens is bound to an authorization of the run that was
answered with its code; the codes that an authorization sweeps away are refused from then on wherever they
may still be; and once a code is exchanged, every later exchange of it fails, unless it is drawn again. -/
theorem code_bound_to_authorization (server : Server) (calls : List Call) :
    let db := (oauthServer server).run Db.fresh calls
    (∀ requestCode payload ambient response,
      (serveCall server db (.token (codeRequest requestCode payload) ambient)).2 = .tokens (.ok response) →
        ∃ earlier authorization minting later credentials issued client,
          calls = earlier ++ .authorization authorization minting :: later ∧
          let before := (oauthServer server).run Db.fresh earlier
          ((sessionCredentials minting).exec before).1 = .ok credentials ∧
          (serveCall server before (.authorization authorization minting)).2 = .authorized (.ok issued) ∧
          BoundTo server authorization minting credentials issued client requestCode (payload, ambient) response) ∧
      (∀ authorization minting row, row ∈ db.oauthCodes →
        row ∉ (serveCall server db (.authorization authorization minting)).1.oauthCodes →
        ∀ db' requestCode payload ambient response, db'.oauthCode (server.hashToken requestCode) = some row →
          minting.now 1 ≤ ambient.now 0 →
          (serveCall server db' (.token (codeRequest requestCode payload) ambient)).2 ≠ .tokens (.ok response)) ∧
      ∀ requestCode payload ambient response,
        (serveCall server db (.token (codeRequest requestCode payload) ambient)).2 = .tokens (.ok response) →
        ∀ later, (∀ authorization minting, .authorization authorization minting ∈ later →
          server.hashToken (minting.tokenHex 0) ≠ server.hashToken requestCode) →
        ∀ payload' ambient' response',
          (serveCall server ((oauthServer server).run
            (serveCall server db (.token (codeRequest requestCode payload) ambient)).1 later)
            (.token (codeRequest requestCode payload') ambient')).2 ≠ .tokens (.ok response') := by
  intro db
  refine ⟨?_, ?_, ?_⟩
  · intro requestCode payload ambient response hanswer
    obtain ⟨⟨client, row, account, grant, h⟩, -⟩ := @exchanged_of_redeem server requestCode (payload, ambient) db _ response
      (Prod.ext (Answer.tokens.inj hanswer) rfl)
    have hrow : row ∈ db.oauthCodes := List.mem_of_find?_eq_some h.found
    obtain hfresh | ⟨earlier, call, later, hcalls, hmints⟩ :=
      @Machine.exists_step_of_run _ _ _ (oauthServer server) (row ∈ ·.oauthCodes) _
        (fun db call => @mem_serveCall server db call row) _ _ hrow
    · cases hfresh
    · obtain ⟨authorization, minting, credentials, authorized, rfl, hcredentials, hgranted, hissued, rfl⟩ := hmints
      exact ⟨earlier, authorization, minting, later, credentials, _, client, hcalls, hcredentials, hissued,
        boundTo_of_exchanged h hgranted⟩
  · intro authorization minting row hrow hswept db' requestCode payload ambient response hthere hlater hanswer
    obtain ⟨⟨client, row', account, grant, h⟩, -⟩ := @exchanged_of_redeem server requestCode (payload, ambient) db' _
      response (Prod.ext (Answer.tokens.inj hanswer) rfl)
    obtain rfl := Option.some.inj (h.found.symm.trans hthere)
    have hexpired : row'.createdAt < minting.now 1 - server.authorizationCodeTtl * 1000 :=
      createdAt_lt_of_swept hrow hswept
    have hfresh : ¬row'.createdAt + server.authorizationCodeTtl * 1000 < ambient.now 0 := h.passes.fresh
    omega
  · intro requestCode payload ambient response hanswer later hdrawn payload' ambient' response' hagain
    obtain ⟨-, hgone⟩ := @exchanged_of_redeem server requestCode (payload, ambient) db _ response
      (Prod.ext (Answer.tokens.inj hanswer) rfl)
    obtain ⟨⟨client, row, account, grant, h⟩, -⟩ := @exchanged_of_redeem server requestCode (payload', ambient') _ _ response'
      (Prod.ext (Answer.tokens.inj hagain) rfl)
    have hstill := oauthCode_run_eq_none hgone hdrawn
    cases hstill.symm.trans h.found

end FxaLite.OAuth
