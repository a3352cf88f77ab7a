import FxaLite.OAuth.Redemption
import FxaLite.Lib.Machine

/-!
# No scope escalation

A client has a ceiling: its own scopes and those every trusted client may have, or, if it is not
trusted, the few that any client may have. A grant stays below it when it is made; a code and a
refresh token carry it through the database, and an exchange reads back what it means; widening
at a refresh is measured against the ceiling again. So below the ceiling every token stays, in
every run.
-/

namespace FxaLite.OAuth

open FxaLite.Accounts Concurrent Reactive

/-- All that a client may ever have. -/
def ceiling (client : Client) : ScopeSet :=
  if client.trusted then client.allowedScopes.union trustedAllowedScopes else untrustedAllowedScopes

/-- The scopes whose keys are derived. -/
def IsKeyBearing (key : Scope) : Prop := String.ofList key.value ∈ keyBearingScopes

/-- A token with this scope is within bounds: the client's ceiling contains the scope, and whatever in
it implies a key-bearing scope is implied by the client's own scopes. -/
def WithinBounds (client : Client) (text : String) : Prop :=
  ∃ scope, readScope text = .ok scope ∧ (ceiling client).contains scope = true ∧
    ∀ s ∈ scope.scopesToImplicants, ∀ key, IsKeyBearing key → key ≤ s →
      client.allowedScopes.hasSomeScope s.implicants = true

/-! ### Keys -/

/-- Only URLs imply a key-bearing scope. -/
theorem url_of_isKeyBearing {key s : Scope} (hkey : IsKeyBearing key) (hle : key ≤ s) :
    "https:".toList.isPrefixOf s.value = true := by
  have hurl : keyBearingScopes.all (fun value => "https:".toList.isPrefixOf value.toList) = true := by decide
  have hhttps : "https:".toList.isPrefixOf key.value = true := by
    simpa using List.all_eq_true.mp hurl _ hkey
  obtain ⟨values, hvalues, hfound⟩ := Fallible.map_eq_ok.mp key.derived
  rw [implicantValues, if_pos hhttps] at hvalues
  have hmem : s.value ∈ values := by
    rw [Scope.le_def, ← hfound, List.mem_eraseDups] at hle
    exact hle
  exact (slash_mem_of_urlImplicants hvalues hmem).2

/-- A set of short names grants nothing that implies a key-bearing scope. -/
theorem not_mem_grants_of_short {set : ScopeSet} {key s : Scope}
    (hshort : set.values.all (fun value => !"https:".toList.isPrefixOf value) = true) (hkey : IsKeyBearing key)
    (hle : key ≤ s) : s ∉ set.grants := by
  intro hgranted
  obtain ⟨t, ht, hst⟩ := ScopeSet.mem_grants.mp hgranted
  have hno := List.all_eq_true.mp hshort t.value (List.mem_map_of_mem ht)
  rw [url_of_isKeyBearing hkey (hle.trans hst)] at hno
  cases hno

/-- Of what implies a key-bearing scope, a client may only have what its own scopes imply. -/
theorem mem_allowedScopes_of_key {client : Client} {key s : Scope} (hs : s ∈ (ceiling client).grants)
    (hkey : IsKeyBearing key) (hle : key ≤ s) : s ∈ client.allowedScopes.grants := by
  unfold ceiling at hs
  split at hs
  · rw [ScopeSet.grants_union, LowerSet.mem_sup_iff] at hs
    refine hs.resolve_right (not_mem_grants_of_short ?_ hkey hle)
    decide
  · refine absurd hs (not_mem_grants_of_short ?_ hkey hle)
    decide

/-- Below the ceiling, a scope that is written is within bounds. -/
theorem withinBounds_of_le {client : Client} {scope : ScopeSet} (h : scope.grants ≤ (ceiling client).grants) :
    WithinBounds client (scopeText scope) := by
  obtain ⟨read, hread, hgrants⟩ := scope.fromString_str
  rw [← hgrants] at h
  refine ⟨read, by rw [readScope, scopeText, String.toList_ofList, hread], ScopeSet.contains_iff.mpr h, ?_⟩
  intro s hs key hkey hle
  have hmem : s ∈ read.grants := ScopeSet.mem_grants.mpr ⟨s, hs, le_rfl⟩
  exact ScopeSet.hasSomeScope_iff.mpr (mem_allowedScopes_of_key (h hmem) hkey hle)

/-! ### Grants -/

/-- A grant stays below the ceiling of its client, which is registered. -/
structure Grant.Bounded (server : Server) (grant : Grant) : Prop where
  registered : server.clients.get grant.client.id = some grant.client
  below : grant.scope.grants ≤ (ceiling grant.client).grants

/-- What is stored for a client means something below its ceiling. -/
def StoredBelow (server : Server) (clientId text : String) : Prop :=
  ∃ client scope, server.clients.get clientId = some client ∧ readScope text = .ok scope ∧
    scope.grants ≤ (ceiling client).grants

/-- A requested grant that is vetted is bounded. -/
theorem bounded_of_validateRequestedGrant {server : Server} {claims : SessionClaims} {client : Client}
    {request : GrantRequest} {grant : Grant} (hclient : server.clients.get client.id = some client)
    (h : validateRequestedGrant claims client request = .ok grant) : grant.Bounded server := by
  dsimp only [validateRequestedGrant] at h
  split at h
  · cases h
  · rename_i huntrusted
    split at h
    · cases h
    · split at h
      · cases h
      · cases h
        refine ⟨hclient, ?_⟩
        dsimp only
        unfold grantedScope ceiling
        cases htrusted : client.trusted with
        | true => exact (ScopeSet.grants_filtered_le _ _).trans inf_le_right
        | false =>
          have hnone : (request.scope.difference untrustedAllowedScopes).isEmpty = true := by
            simpa [htrusted] using huntrusted
          exact ScopeSet.grants_le_of_difference_isEmpty hnone

/-- A bounded grant is stored below the ceiling. -/
theorem Grant.Bounded.stored {server : Server} {grant : Grant} (h : grant.Bounded server) :
    StoredBelow server grant.client.id (scopeText grant.scope) := by
  obtain ⟨read, hread, hgrants⟩ := grant.scope.fromString_str
  refine ⟨grant.client, read, h.registered, by rw [readScope, scopeText, String.toList_ofList, hread], ?_⟩
  rw [hgrants]
  exact h.below

/-! ### Runs -/

/-- A request, or what the rest of the server does to the tables in between: it writes accounts and
sessions, and of codes and refresh tokens it only deletes some. -/
inductive Call where
  | authorization (payload : AuthorizationRequest) (ambient : Ambient)
  | token (payload : TokenRequest) (ambient : Ambient)
  | elsewhere (accounts : List Account) (sessionTokens : List SessionToken) (keyFetchTokens : List KeyFetchToken)
      (keepsCode : OauthCode → Bool) (keepsToken : RefreshToken → Bool)

/-- How a call is answered. -/
inductive Answer where
  | authorized (result : Except OauthError AuthorizationResponse)
  | tokens (result : Except OauthError TokenResponse)
  | unanswered

/-- One call after another. -/
def serveCall (server : Server) (db : Db) : Call → Db × Answer
  | .authorization payload ambient =>
    (((oauthAuthorization server payload ambient).exec db).2,
      .authorized ((oauthAuthorization server payload ambient).exec db).1)
  | .token payload ambient =>
    (((oauthToken server payload ambient).exec db).2, .tokens ((oauthToken server payload ambient).exec db).1)
  | .elsewhere accounts sessionTokens keyFetchTokens keepsCode keepsToken =>
    (⟨accounts, sessionTokens, keyFetchTokens, db.oauthCodes.filter keepsCode, db.refreshTokens.filter keepsToken⟩,
      .unanswered)

/-- The server as a machine. -/
def oauthServer (server : Server) : Machine Db Call Answer := ⟨serveCall server⟩

/-- Every code and every refresh token that is stored means something below its client's ceiling. -/
structure AllBelow (server : Server) (db : Db) : Prop where
  codes : ∀ row ∈ db.oauthCodes, StoredBelow server row.clientId row.scope
  tokens : ∀ row ∈ db.refreshTokens, StoredBelow server row.clientId row.scope

/-- An access token is below the ceiling of its client. -/
def TokenBelow (server : Server) (response : TokenResponse) : Prop :=
  ∃ grant : Grant, grant.Bounded server ∧ response.accessToken.clientId = grant.client.id ∧
    response.accessToken.scope = scopeText grant.scope

section Invariant

variable {server : Server} {ambient : Ambient} {client : Client}

/-- A client that is found is registered under its own id. -/
theorem get_of_findClient {clientId : String} (h : findClient server clientId = .ok client) :
    server.clients.get client.id = some client := by
  unfold findClient at h
  split at h
  · cases h
  · rename_i found hfound
    cases h
    exact Registry.get_id hfound

/-- What compares equal is equal. -/
theorem eq_of_compareDigest {a b : String} (h : compareDigest a b = .ok true) : a = b := by
  unfold compareDigest at h
  split at h
  · simpa using h
  · cases h

/-- Tokens that are made for a bounded grant are below the ceiling. -/
theorem ensures_generateTokens (ttl : ℤ) {grant : Grant} (h : grant.Bounded server) :
    (generateTokens server ambient ttl grant).Ensures (AllBelow server)
      fun result => ∀ response, result = .ok response → TokenBelow server response := by
  have hbelow : ∀ response : TokenResponse, response.accessToken = newAccessToken server ambient grant ttl →
      TokenBelow server response := by
    intro response hresponse
    exact ⟨grant, h, by rw [hresponse]; rfl, by rw [hresponse]; rfl⟩
  unfold generateTokens
  split
  · intro db hdb
    dsimp only
    split
    · refine ⟨⟨hdb.codes, fun row hrow => ?_⟩, fun response hresponse => ?_⟩
      · obtain hrow | hrow := List.mem_append.mp hrow
        · exact hdb.tokens row hrow
        · rw [List.mem_singleton.mp hrow]
          exact h.stored
      · cases hresponse
        exact hbelow _ rfl
    · exact ⟨hdb, fun response hresponse => nomatch hresponse⟩
  · intro response hresponse
    cases hresponse
    exact hbelow _ rfl

/-- Credentials are only read. -/
theorem ensures_optionalSessionCredentials {P : Db → Prop} :
    (optionalSessionCredentials ambient).Ensures P fun _ => True := by
  unfold optionalSessionCredentials
  split
  · trivial
  · trivial
  · refine Script.Ensures.read fun db _ => ?_
    split
    · trivial
    · refine Script.Ensures.read fun db _ => ?_
      split
      · trivial
      · trivial

/-- Also where there must be some. -/
theorem ensures_sessionCredentials {P : Db → Prop} : (sessionCredentials ambient).Ensures P fun _ => True := by
  refine ensures_optionalSessionCredentials.bind fun result _ => ?_
  cases result with
  | error raised => trivial
  | ok credentials =>
    cases credentials with
    | none => trivial
    | some credentials => trivial

/-- A grant that a code is redeemed for is bounded. -/
theorem ensures_authorizationCodeGrant (payload : TokenRequest) :
    (authorizationCodeGrant server ambient client payload).Ensures (AllBelow server)
      fun result => ∀ grant, result = .ok grant → server.clients.get client.id = some client → grant.Bounded server := by
  have hdelete : ∀ (db : Db) (code : String), AllBelow server db → AllBelow server (db.deleteOauthCode code) :=
    fun db code hdb => ⟨fun row hrow => hdb.codes row (List.mem_filter.mp hrow).1, hdb.tokens⟩
  unfold authorizationCodeGrant
  split
  · exact fun grant hgrant => nomatch hgrant
  · split
    · exact fun grant hgrant => nomatch hgrant
    · refine Script.Ensures.read fun db hdb => ?_
      split
      · exact fun grant hgrant => nomatch hgrant
      · rename_i row hfound
        have hstored : StoredBelow server row.clientId row.scope := hdb.codes row (List.mem_of_find?_eq_some hfound)
        unfold redeemCode
        split
        · exact fun grant hgrant => nomatch hgrant
        · exact fun grant hgrant => nomatch hgrant
        · rename_i hequal
          split
          · exact fun db hdb => ⟨hdelete db _ hdb, fun grant hgrant => nomatch hgrant⟩
          · split
            · exact fun grant hgrant => nomatch hgrant
            · refine fun db hdb => ⟨hdelete db _ hdb, Script.Ensures.read fun db hdb => ?_⟩
              split
              · exact fun grant hgrant => nomatch hgrant
              · intro grant hgrant hclient
                obtain ⟨client', scope, hclient', hscope, hle⟩ := hstored
                rw [eq_of_compareDigest hequal, hclient] at hclient'
                cases hclient'
                unfold grantFromCode at hgrant
                rw [hscope] at hgrant
                cases hgrant
                exact ⟨hclient, hle⟩

/-- The scope of a refresh: what is held, or what is asked for within what is held, or, for a trusted
client, within the ceiling. -/
theorem refreshedScope_le {payload : TokenRequest} {row : RefreshToken} {scope : ScopeSet}
    (h : refreshedScope client payload row = .ok scope) :
    ∃ held, readScope row.scope = .ok held ∧
      (scope.grants ≤ held.grants ∨ client.trusted = true ∧ scope.grants ≤ held.grants ⊔ (ceiling client).grants) := by
  unfold refreshedScope at h
  split at h
  · cases h
  · rename_i held hheld
    refine ⟨held, hheld, ?_⟩
    split at h
    · cases h
      exact Or.inl (ScopeSet.grants_difference_le _ _)
    · split at h
      · cases h
      · rename_i requested _
        split at h
        · cases h
        · rename_i hcontained
          cases h
          have hrequested := ScopeSet.grants_difference_le requested nonRefreshableScopes
          have hwidest : requested.grants ≤ held.grants ∨ requested.grants ≤ (widestScope client held).grants := by
            simp only [Bool.and_eq_true, Bool.not_eq_true', Bool.not_eq_false, not_and_or,
              ScopeSet.contains_iff] at hcontained
            exact hcontained
          obtain hle | hle := hwidest
          · exact Or.inl (hrequested.trans hle)
          · unfold widestScope at hle
            split at hle
            · rename_i htrusted
              rw [ScopeSet.grants_union, ScopeSet.grants_union, sup_assoc] at hle
              refine Or.inr ⟨htrusted, hrequested.trans ?_⟩
              rw [ceiling, if_pos htrusted, ScopeSet.grants_union]
              exact hle
            · exact Or.inl (hrequested.trans hle)

/-- A grant that a refresh token is used for is bounded. -/
theorem ensures_refreshTokenGrant (payload : TokenRequest) :
    (refreshTokenGrant server ambient client payload).Ensures (AllBelow server)
      fun result => ∀ grant, result = .ok grant → server.clients.get client.id = some client → grant.Bounded server := by
  have htouch : ∀ (db : Db) (tokenId : String) (at' : ℤ), AllBelow server db →
      AllBelow server (db.touchRefreshToken tokenId at') := by
    refine fun db tokenId at' hdb => ⟨hdb.codes, fun row hrow => ?_⟩
    obtain ⟨row', hrow', rfl⟩ := List.mem_map.mp hrow
    have hstored := hdb.tokens row' hrow'
    split
    · exact hstored
    · exact hstored
  unfold refreshTokenGrant
  split
  · exact fun grant hgrant => nomatch hgrant
  · refine Script.Ensures.read fun db hdb => ?_
    split
    · exact fun grant hgrant => nomatch hgrant
    · rename_i row hfound
      have hstored : StoredBelow server row.clientId row.scope := hdb.tokens row (List.mem_of_find?_eq_some hfound)
      unfold useRefreshToken
      split
      · exact fun grant hgrant => nomatch hgrant
      · exact fun grant hgrant => nomatch hgrant
      · rename_i hequal
        split
        · exact fun grant hgrant => nomatch hgrant
        · rename_i scope hscope
          refine Script.Ensures.read fun db hdb => ?_
          split
          · exact fun grant hgrant => nomatch hgrant
          · refine fun db hdb => ⟨htouch db _ _ hdb, fun grant hgrant hclient => ?_⟩
            cases hgrant
            refine ⟨hclient, ?_⟩
            obtain ⟨client', held', hclient', hheld', hbelow⟩ := hstored
            rw [eq_of_compareDigest hequal, hclient] at hclient'
            cases hclient'
            obtain ⟨held, hheld, hle⟩ := refreshedScope_le hscope
            cases hheld.symm.trans hheld'
            obtain hle | ⟨-, hle⟩ := hle
            · exact hle.trans hbelow
            · exact hle.trans (sup_le hbelow le_rfl)

/-- A grant that a session is used for is bounded. -/
theorem ensures_fxaCredentialsGrant (payload : TokenRequest) :
    (fxaCredentialsGrant ambient client payload).Ensures (AllBelow server)
      fun result => ∀ grant, result = .ok grant → server.clients.get client.id = some client → grant.Bounded server := by
  unfold fxaCredentialsGrant
  split
  · exact fun grant hgrant => nomatch hgrant
  · split
    · exact fun grant hgrant => nomatch hgrant
    · split
      · exact fun grant hgrant => nomatch hgrant
      · refine ensures_optionalSessionCredentials.bind fun result _ => ?_
        cases result with
        | error raised => exact fun grant hgrant => nomatch hgrant
        | ok credentials =>
          intro grant hgrant hclient
          unfold sessionGrant at hgrant
          split at hgrant
          · cases hgrant
          · split at hgrant
            · cases hgrant
            · exact bounded_of_validateRequestedGrant hclient hgrant

/-- Every grant is bounded. -/
theorem ensures_requestGrant (payload : TokenRequest) :
    (requestGrant server ambient client payload).Ensures (AllBelow server)
      fun result => ∀ grant, result = .ok grant → server.clients.get client.id = some client → grant.Bounded server := by
  unfold requestGrant
  split
  · exact ensures_authorizationCodeGrant payload
  · split
    · exact ensures_refreshTokenGrant payload
    · split
      · exact ensures_fxaCredentialsGrant payload
      · exact fun grant hgrant => nomatch hgrant

/-- A token request keeps what is stored below the ceilings, and answers with tokens below them. -/
theorem ensures_oauthToken (payload : TokenRequest) :
    (oauthToken server payload ambient).Ensures (AllBelow server)
      fun result => ∀ response, result = .ok response → TokenBelow server response := by
  unfold oauthToken
  split
  · exact fun response hresponse => nomatch hresponse
  · rename_i client hclient
    split
    · exact fun response hresponse => nomatch hresponse
    · exact (ensures_requestGrant payload).andThen fun grant hgrant =>
        ensures_generateTokens _ (hgrant (get_of_findClient hclient))

/-- An authorization keeps what is stored below the ceilings. -/
theorem ensures_oauthAuthorization (payload : AuthorizationRequest) :
    (oauthAuthorization server payload ambient).Ensures (AllBelow server) fun _ => True := by
  refine ensures_sessionCredentials.bind fun result _ => ?_
  cases result with
  | error raised => trivial
  | ok credentials =>
    dsimp only
    split
    · trivial
    · rename_i grant hgrant
      have hbounded : grant.Bounded server := by
        unfold authorizationGrant at hgrant
        split at hgrant
        · cases hgrant
        · simp only [Fallible.bind_eq_ok] at hgrant
          obtain ⟨client, hclient, -, -, scope, -, -, -, -, -, hvetted⟩ := hgrant
          exact bounded_of_validateRequestedGrant (get_of_findClient hclient) hvetted
      refine fun db hdb => ⟨⟨fun row hrow => hdb.codes row (List.mem_filter.mp hrow).1, hdb.tokens⟩, fun db hdb => ?_⟩
      dsimp only
      split
      · refine ⟨⟨fun row hrow => ?_, hdb.tokens⟩, trivial⟩
        obtain hrow | hrow := List.mem_append.mp hrow
        · exact hdb.codes row hrow
        · rw [List.mem_singleton.mp hrow]
          exact hbounded.stored
      · exact ⟨hdb, trivial⟩

/-- The step lemma: a call keeps what is stored below the ceilings. -/
theorem allBelow_serveCall {db : Db} (hdb : AllBelow server db) (call : Call) :
    AllBelow server (serveCall server db call).1 := by
  cases call with
  | authorization payload ambient => exact ((ensures_oauthAuthorization payload).exec hdb).2
  | token payload ambient => exact ((ensures_oauthToken payload).exec hdb).2
  | elsewhere accounts sessionTokens keyFetchTokens keepsCode keepsToken =>
    exact ⟨fun row hrow => hdb.codes row (List.mem_filter.mp hrow).1,
      fun row hrow => hdb.tokens row (List.mem_filter.mp hrow).1⟩

/-- The run lemma: in every run, what is stored is below the ceilings. -/
theorem allBelow_of_run (server : Server) (calls : List Call) :
    AllBelow server ((oauthServer server).run Db.fresh calls) := by
  have hstart : AllBelow server Db.fresh := ⟨fun _ hrow => (nomatch hrow), fun _ hrow => (nomatch hrow)⟩
  have hstep : ∀ db call, AllBelow server db → True → AllBelow server ((oauthServer server).step db call).1 :=
    fun db call hdb _ => allBelow_serveCall hdb call
  exact (oauthServer server).run_of_step hstep hstart (oauthServer server).along_true

/-- What is made for a grant: the response says it, and a refresh token is added if it is offline. -/
theorem exec_generateTokens_eq_ok {ttl : ℤ} {grant : Grant} {db after : Db} {response : TokenResponse}
    (h : (generateTokens server ambient ttl grant).exec db = (.ok response, after)) :
    response = { tokenResponse server ambient grant ttl with
        refreshToken := if grant.offline then some (ambient.tokenHex 1) else none } ∧
      after = if grant.offline then db.createRefreshToken (refreshTokenRow server ambient grant) else db := by
  unfold generateTokens at h
  split at h
  · rename_i hoffline
    obtain ⟨token, middle, hminted, hdone⟩ := Script.exec_andThen_eq_ok h
    rw [mintRefreshToken, Script.exec_stmt] at hminted
    split at hminted
    · cases hminted
      cases hdone
      exact ⟨by rw [if_pos hoffline], (if_pos hoffline).symm⟩
    · cases hminted
  · rename_i honline
    cases h
    exact ⟨by rw [if_neg honline]; rfl, (if_neg honline).symm⟩

/-- What a refresh exchange presents, and what its access token carries. -/
theorem scope_of_refresh {payload : TokenRequest} {refreshToken : String} {db : Db} {response : TokenResponse}
    (htype : payload.grantType = "refresh_token") (hpresented : payload.refreshToken = some refreshToken)
    (hclient : findClient server payload.clientId = .ok client)
    (h : ((oauthToken server payload ambient).exec db).1 = .ok response) :
    ∃ row scope, db.refreshToken (server.hashToken refreshToken) = some row ∧ row.clientId = client.id ∧
      refreshedScope client payload row = .ok scope ∧ response.accessToken.scope = scopeText scope := by
  unfold oauthToken at h
  rw [hclient] at h
  dsimp only at h
  split at h
  · cases h
  · have hexec : ((requestGrant server ambient client payload).andThen
        (generateTokens server ambient (tokenTtl server payload))).exec db = (.ok response, _) := Prod.ext h rfl
    obtain ⟨grant, middle, hgrant, htokens⟩ := Script.exec_andThen_eq_ok hexec
    have hscope : response.accessToken.scope = scopeText grant.scope := by
      rw [(exec_generateTokens_eq_ok htokens).1]
      rfl
    unfold requestGrant at hgrant
    rw [if_neg (by rw [htype]; decide), if_pos htype] at hgrant
    unfold refreshTokenGrant at hgrant
    rw [hpresented] at hgrant
    dsimp only at hgrant
    rw [Script.exec_read] at hgrant
    split at hgrant
    · cases hgrant
    · rename_i row hfound
      unfold useRefreshToken at hgrant
      split at hgrant
      · cases hgrant
      · cases hgrant
      · rename_i hequal
        split at hgrant
        · cases hgrant
        · rename_i scope hrefreshed
          refine ⟨row, scope, hfound, eq_of_compareDigest hequal, hrefreshed, ?_⟩
          unfold refreshAccount at hgrant
          rw [Script.exec_read] at hgrant
          split at hgrant
          · cases hgrant
          · cases hgrant
            exact hscope

end Invariant

/-- In every run, with any clients, every refresh token that is stored and every access token that is
issued is within the bounds of its client; and what a refresh exchange yields is implied by the
refresh token it presents, unless the client is trusted and the scope is below its ceiling. -/
theorem no_scope_escalation (server : Server) (calls : List Call) :
    let db := (oauthServer server).run Db.fresh calls
    (∀ row ∈ db.refreshTokens, ∃ client, server.clients.get row.clientId = some client ∧ WithinBounds client row.scope) ∧
      (∀ payload ambient response, (serveCall server db (.token payload ambient)).2 = .tokens (.ok response) →
        ∃ client, server.clients.get response.accessToken.clientId = some client ∧
          WithinBounds client response.accessToken.scope) ∧
      ∀ payload ambient response refreshToken client, payload.grantType = "refresh_token" →
        payload.refreshToken = some refreshToken → findClient server payload.clientId = .ok client →
        (serveCall server db (.token payload ambient)).2 = .tokens (.ok response) →
        ∃ row held minted, db.refreshToken (server.hashToken refreshToken) = some row ∧
          readScope row.scope = .ok held ∧ readScope response.accessToken.scope = .ok minted ∧
          (held.contains minted = true ∨ client.trusted = true ∧ (ceiling client).contains minted = true) := by
  intro db
  have hbelow : AllBelow server db := allBelow_of_run server calls
  refine ⟨fun row hrow => ?_, fun payload ambient response hresponse => ?_, ?_⟩
  · obtain ⟨client, scope, hclient, hscope, hle⟩ := hbelow.tokens row hrow
    refine ⟨client, hclient, scope, hscope, ScopeSet.contains_iff.mpr hle, fun s hs key hkey hkeyle => ?_⟩
    have hmem : s ∈ scope.grants := ScopeSet.mem_grants.mpr ⟨s, hs, le_rfl⟩
    exact ScopeSet.hasSomeScope_iff.mpr (mem_allowedScopes_of_key (hle hmem) hkey hkeyle)
  · have htokens : TokenBelow server response :=
      ((ensures_oauthToken payload).exec hbelow).1 response (Answer.tokens.inj hresponse)
    obtain ⟨grant, hgrant, hid, hscope⟩ := htokens
    rw [hid, hscope]
    exact ⟨grant.client, hgrant.registered, withinBounds_of_le hgrant.below⟩
  · intro payload ambient response refreshToken client htype hpresented hclient hresponse
    obtain ⟨row, scope, hrow, hid, hrefreshed, hscope⟩ :=
      scope_of_refresh htype hpresented hclient (Answer.tokens.inj hresponse)
    obtain ⟨held, hheld, hle⟩ := refreshedScope_le hrefreshed
    obtain ⟨minted, hminted, hgrants⟩ := scope.fromString_str
    refine ⟨row, held, minted, hrow, hheld, ?_, ?_⟩
    · rw [hscope, readScope, scopeText, String.toList_ofList, hminted]
    · rw [ScopeSet.contains_iff, ScopeSet.contains_iff, hgrants]
      -- what is held was below the ceiling already
      obtain ⟨client', held', hclient', hheld', hbelow'⟩ := hbelow.tokens row (List.mem_of_find?_eq_some hrow)
      rw [hid, get_of_findClient hclient] at hclient'
      cases hclient'
      cases hheld.symm.trans hheld'
      exact hle.imp_right fun ⟨htrusted, hwider⟩ => ⟨htrusted, hwider.trans (sup_le hbelow' le_rfl)⟩

-- a browser that holds a refresh token for the profile may widen it to its own scopes
example : ((oauthToken smallServer ⟨"refresh_token", "5882386c6d801776", none, none,
    some "1111111111111111111111111111111111111111111111111111111111111111", some oldsyncScope, none, none⟩
    (presented 0).2).exec
      { oneCode with refreshTokens :=
        [⟨"3138bb9bc78df27c473ecfd1410f7bd45ebac1f59cf3ff9cfe4db77aab7aedd3", "u", "5882386c6d801776", "profile", 1000,
          1000⟩] }).1.toOption.map (·.scope) = some oldsyncScope := by decide

end FxaLite.OAuth
