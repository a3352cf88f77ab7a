import FxaLite.OAuth.Grants

/-!
# The routes that authorize and exchange

`POST /oauth/authorization` turns a session into a code, and `POST /oauth/token` turns a code, a
refresh token or a session into tokens. Each is the sequence of its database statements, with
its checks where they stand between them.
-/

namespace FxaLite.OAuth

open FxaLite.Accounts Concurrent

/-- `AuthorizationRequest`. -/
structure AuthorizationRequest where
  clientId : String
  state : String
  responseType : String
  redirectUri : Option String
  scope : Option String
  accessType : String
  codeChallengeMethod : Option String
  codeChallenge : Option String
  keysJwe : Option String
  acrValues : Option String
  maxAge : Option ℤ
  service : Option String
  deriving DecidableEq, Repr

/-- `TokenRequest`. -/
structure TokenRequest where
  grantType : String
  clientId : String
  code : Option String
  codeVerifier : Option String
  refreshToken : Option String
  scope : Option String
  accessType : Option String
  ttl : Option ℤ
  deriving DecidableEq, Repr

/-- The response of `/oauth/authorization`, without the redirect that repeats it. -/
structure AuthorizationResponse where
  code : String
  state : String
  scope : String
  deriving DecidableEq, Repr

/-- `PKCE_METHOD`. -/
def pkceMethod : String := "S256"

/-- `MAX_AGE_LEEWAY`. -/
def maxAgeLeeway : ℤ := 5

/-- `_client`. -/
def findClient (server : Server) (clientId : String) : Except OauthError Client :=
  match server.clients.get clientId with
  | none => .error (.unknownClient clientId)
  | some client => .ok client

/-- What is neither ASCII nor text to `hmac.compare_digest` and `encode("ascii")`. -/
def isAscii (s : String) : Bool := s.toList.all (·.toNat < 128)

/-- `hmac.compare_digest`. -/
def compareDigest (a b : String) : Except OauthError Bool :=
  if isAscii a && isAscii b then .ok (a = b) else .error .internal

/-! ### Sessions -/

/-- The second half of `optional_session_credentials`: the account of the token. -/
def sessionAccount (token : SessionToken) : Script Db (Except OauthError (Option (SessionToken × Account))) :=
  .read fun db =>
    match db.account token.uid with
    | none => .done (.error (.unauthorized "Token not found"))
    | some account => .done (.ok (some (token, account)))

/-- `optional_session_credentials`. -/
def optionalSessionCredentials (ambient : Ambient) : Script Db (Except OauthError (Option (SessionToken × Account))) :=
  match ambient.tokenId with
  | .error raised => .done (.error raised)
  | .ok none => .done (.ok none)
  | .ok (some identifier) =>
    .read fun db =>
      match db.sessionToken identifier with
      | none => .done (.error (.unauthorized "Token not found"))
      | some token => sessionAccount token

/-- `session_credentials`. -/
def sessionCredentials (ambient : Ambient) : Script Db (Except OauthError (SessionToken × Account)) :=
  (optionalSessionCredentials ambient).andThen fun credentials =>
    match credentials with
    | none => .done (.error (.unauthorized "Token not found"))
    | some credentials => .done (.ok credentials)

/-! ### Authorization -/

/-- `_redirect_uri`. -/
def checkRedirectUri (client : Client) (requested : Option String) : Except OauthError String :=
  match requested with
  | none =>
    match client.redirectUris with
    | [] => .error .internal
    | redirectUri :: _ => .ok redirectUri
  | some requested => if requested ∈ client.redirectUris then .ok requested else .error (.incorrectRedirect requested)

/-- `_parse_scope`. -/
def parseScope (value field : String) : Except OauthError ScopeSet :=
  match readScope value with
  | .ok scope => .ok scope
  | .error (.invalidScope _) => .error (.invalidRequestParameter [field])
  | .error .invalidUrl => .error .internal

/-- `_requested_scope`. -/
def requestedScope (payload : AuthorizationRequest) : Except OauthError ScopeSet :=
  match given payload.scope with
  | some scope => parseScope scope "scope"
  | none =>
    match given payload.service with
    | none => .error (.invalidRequestParameter ["scope"])
    | some service =>
      match serviceScopes (lower service) with
      | none => .error (.invalidRequestParameter ["service"])
      | some resolved =>
        let values := if (given payload.keysJwe).isSome && keysConditionalScope ∉ resolved then
          resolved ++ [keysConditionalScope] else resolved
        match ScopeSet.fromArray (values.map String.toList) with
        | .ok scope => .ok scope
        | .error _ => .error .internal

/-- `_check_authentication_strength`. -/
def checkAuthenticationStrength (payload : AuthorizationRequest) (now authAt : ℤ) : Except OauthError Unit :=
  if "AAL2".toList ∈ ((payload.acrValues.getD "").toList.splitOnP Py.isSpace) then .error (.mismatchAcrValues "1")
  else
    match payload.maxAge with
    | none => .ok ()
    | some maxAge => if maxAge + maxAgeLeeway < now / 1000 - authAt then .error (.mismatchAcrValues "1") else .ok ()

/-- `_check_pkce_parameters`. -/
def checkPkceParameters (client : Client) (payload : AuthorizationRequest) : Except OauthError Unit :=
  let challenge := given payload.codeChallenge
  let method := given payload.codeChallengeMethod
  if client.publicClient && (challenge.isNone || method.isNone) then .error .missingPkceParameters
  else if !client.publicClient && (challenge.isSome || method.isSome) then .error (.notPublicClient client.id)
  else if method.isSome && method ≠ some pkceMethod then .error (.invalidRequestParameter ["code_challenge_method"])
  else .ok ()

/-- The checks of `oauth_authorization`, up to the grant. -/
def authorizationGrant (server : Server) (ambient : Ambient) (payload : AuthorizationRequest)
    (credentials : SessionToken × Account) : Except OauthError Grant :=
  if payload.responseType ≠ "code" then .error .invalidResponseType
  else do
    let client ← findClient server payload.clientId
    let _ ← checkRedirectUri client payload.redirectUri
    let scope ← requestedScope payload
    checkAuthenticationStrength payload (ambient.now 0) credentials.1.lastAuthAt
    checkPkceParameters client payload
    validateRequestedGrant (.forSession credentials.2 credentials.1) client ⟨scope, payload.accessType, payload.keysJwe⟩

/-- The row of a code. -/
def oauthCodeRow (server : Server) (ambient : Ambient) (payload : AuthorizationRequest)
    (credentials : SessionToken × Account) (grant : Grant) : OauthCode where
  code := server.hashToken (ambient.tokenHex 0)
  uid := grant.uid
  clientId := grant.client.id
  scope := scopeText grant.scope
  createdAt := ambient.now 1
  authAt := credentials.1.authAt
  codeChallenge := payload.codeChallenge
  codeChallengeMethod := payload.codeChallengeMethod
  keysJwe := payload.keysJwe
  sessionTokenId := some credentials.1.tokenId
  offline := grant.offline

/-- `create_oauth_code`. A key that is taken, or an account that is gone, is an exception. -/
def createOauthCode (row : OauthCode) : Script Db (Except OauthError Unit) :=
  .stmt (fun db => if db.takesOauthCode row then db.createOauthCode row else db) fun db =>
    if db.takesOauthCode row then .done (.ok ()) else .done (.error .internal)

/-- The statements of `oauth_authorization`, for a grant. -/
def authorizeGrant (server : Server) (ambient : Ambient) (payload : AuthorizationRequest)
    (credentials : SessionToken × Account) (grant : Grant) : Script Db (Except OauthError AuthorizationResponse) :=
  .act (·.deleteExpiredOauthCodes (ambient.now 1 - server.authorizationCodeTtl * 1000))
    ((createOauthCode (oauthCodeRow server ambient payload credentials grant)).andThen fun _ =>
      .done (.ok ⟨ambient.tokenHex 0, payload.state, scopeText grant.scope⟩))

/-- `oauth_authorization`. -/
def oauthAuthorization (server : Server) (payload : AuthorizationRequest) (ambient : Ambient) :
    Script Db (Except OauthError AuthorizationResponse) :=
  (sessionCredentials ambient).andThen fun credentials =>
    match authorizationGrant server ambient payload credentials with
    | .error raised => .done (.error raised)
    | .ok grant => authorizeGrant server ambient payload credentials grant

/-! ### Codes -/

/-- `pkce_challenge`. -/
def pkceChallenge (server : Server) (verifier : String) : Except OauthError String :=
  if isAscii verifier then .ok (server.sha256B64u verifier) else .error .internal

/-- `_check_code_verifier`. -/
def checkCodeVerifier (server : Server) (code : OauthCode) (verifier : Option String) : Except OauthError Unit := do
  match given code.codeChallenge with
  | some codeChallenge =>
    if code.codeChallengeMethod ≠ some pkceMethod then throw (.mismatchCodeChallenge none)
    match given verifier with
    | none => throw .missingPkceParameters
    | some verifier =>
      let challenge ← pkceChallenge server verifier
      let equal ← compareDigest codeChallenge challenge
      if !equal then throw (.mismatchCodeChallenge (some challenge))
  | none =>
    match given verifier with
    | none => pure ()
    | some verifier =>
      let challenge ← pkceChallenge server verifier
      throw (.mismatchCodeChallenge (some challenge))

/-- `_grant_from_code`. -/
def grantFromCode (client : Client) (account : Account) (code : OauthCode) : Except OauthError Grant :=
  match readScope code.scope with
  | .error _ => .error .internal
  | .ok scope =>
    .ok
      { client, scope
        uid := account.uid
        email := account.email
        authAt := code.authAt / 1000
        generation := account.verifierSetAt
        profileChangedAt := account.profileChangedAt
        keysChangedAt := account.keysChangedAt
        aal := 1
        sessionTokenId := code.sessionTokenId
        keysJwe := code.keysJwe
        offline := code.offline
        keyBearing := [] }

/-- The end of `_authorization_code_grant`, once the code is deleted. -/
def codeAccount (client : Client) (code : OauthCode) : Script Db (Except OauthError Grant) :=
  .read fun db =>
    match db.account code.uid with
    | none => .done (.error .invalidToken)
    | some account => .done (grantFromCode client account code)

/-- When a code expires. -/
def expiresAt (server : Server) (code : OauthCode) : ℤ := code.createdAt + server.authorizationCodeTtl * 1000

/-- The rest of `_authorization_code_grant`, once the code is found. -/
def redeemCode (server : Server) (ambient : Ambient) (client : Client) (payload : TokenRequest) (requestCode : String)
    (code : OauthCode) : Script Db (Except OauthError Grant) :=
  match compareDigest code.clientId client.id with
  | .error raised => .done (.error raised)
  | .ok false => .done (.error (.mismatchCode requestCode client.id))
  | .ok true =>
    if expiresAt server code < ambient.now 0 then
      .act (·.deleteOauthCode code.code) (.done (.error (.expiredCode requestCode (expiresAt server code))))
    else
      match checkCodeVerifier server code payload.codeVerifier with
      | .error raised => .done (.error raised)
      | .ok _ => .act (·.deleteOauthCode code.code) (codeAccount client code)

/-- `_authorization_code_grant`. -/
def authorizationCodeGrant (server : Server) (ambient : Ambient) (client : Client) (payload : TokenRequest) :
    Script Db (Except OauthError Grant) :=
  match payload.code with
  | none => .done (.error (.invalidRequestParameter ["code"]))
  | some requestCode =>
    if (given payload.codeVerifier).isSome && !client.publicClient then .done (.error (.notPublicClient client.id))
    else
      .read fun db =>
        match db.oauthCode (server.hashToken requestCode) with
        | none => .done (.error (.unknownCode requestCode))
        | some code => redeemCode server ambient client payload requestCode code

/-! ### Refresh tokens -/

/-- What may be asked for at a refresh: a trusted client may widen what it holds within its own scopes. -/
def widestScope (client : Client) (scope : ScopeSet) : ScopeSet :=
  if client.trusted then (scope.union client.allowedScopes).union trustedAllowedScopes else scope

/-- The scope of `_refresh_token_grant`. -/
def refreshedScope (client : Client) (payload : TokenRequest) (token : RefreshToken) : Except OauthError ScopeSet :=
  match readScope token.scope with
  | .error _ => .error .internal
  | .ok scope =>
    match given payload.scope with
    | none => .ok (scope.difference nonRefreshableScopes)
    | some value =>
      match parseScope value "scope" with
      | .error raised => .error raised
      | .ok requested =>
        if !scope.contains requested && !(widestScope client scope).contains requested then
          .error (.invalidScopes (requested.difference scope).values)
        else .ok (requested.difference nonRefreshableScopes)

/-- The grant of a refresh token. -/
def refreshGrant (client : Client) (scope : ScopeSet) (account : Account) : Grant where
  client := client
  uid := account.uid
  email := account.email
  scope := scope
  authAt := 0
  generation := account.verifierSetAt
  profileChangedAt := account.profileChangedAt
  keysChangedAt := account.keysChangedAt
  aal := 0
  sessionTokenId := none
  keysJwe := none
  offline := false
  keyBearing := []

/-- The end of `_refresh_token_grant`, for a scope. -/
def refreshAccount (ambient : Ambient) (client : Client) (token : RefreshToken) (scope : ScopeSet) :
    Script Db (Except OauthError Grant) :=
  .read fun db =>
    match db.account token.uid with
    | none => .done (.error .invalidToken)
    | some account =>
      .act (·.touchRefreshToken token.tokenId (ambient.now 0)) (.done (.ok (refreshGrant client scope account)))

/-- The rest of `_refresh_token_grant`, once the token is found. -/
def useRefreshToken (ambient : Ambient) (client : Client) (payload : TokenRequest) (token : RefreshToken) :
    Script Db (Except OauthError Grant) :=
  match compareDigest token.clientId client.id with
  | .error raised => .done (.error raised)
  | .ok false => .done (.error .invalidToken)
  | .ok true =>
    match refreshedScope client payload token with
    | .error raised => .done (.error raised)
    | .ok scope => refreshAccount ambient client token scope

/-- `_refresh_token_grant`. -/
def refreshTokenGrant (server : Server) (ambient : Ambient) (client : Client) (payload : TokenRequest) :
    Script Db (Except OauthError Grant) :=
  match payload.refreshToken with
  | none => .done (.error (.invalidRequestParameter ["refresh_token"]))
  | some refreshToken =>
    .read fun db =>
      match db.refreshToken (server.hashToken refreshToken) with
      | none => .done (.error .invalidToken)
      | some token => useRefreshToken ambient client payload token

/-! ### Sessions as grants -/

/-- The end of `_fxa_credentials_grant`, for a session. -/
def sessionGrant (client : Client) (payload : TokenRequest) (value : String)
    (credentials : Option (SessionToken × Account)) : Except OauthError Grant :=
  match credentials with
  | none => .error (.unauthorized "Token not found")
  | some (token, account) =>
    match parseScope value "scope" with
    | .error raised => .error raised
    | .ok scope =>
      validateRequestedGrant (.forSession account token) client
        ⟨scope, (given payload.accessType).getD "online", none⟩

/-- `_fxa_credentials_grant`. -/
def fxaCredentialsGrant (ambient : Ambient) (client : Client) (payload : TokenRequest) :
    Script Db (Except OauthError Grant) :=
  if !client.canGrant then .done (.error .invalidGrantType)
  else if !client.publicClient then .done (.error (.notPublicClient client.id))
  else
    match payload.scope with
    | none => .done (.error (.invalidRequestParameter ["scope"]))
    | some value =>
      (optionalSessionCredentials ambient).andThen fun credentials =>
        .done (sessionGrant client payload value credentials)

/-! ### Tokens -/

/-- The grant of a token request, by its type. -/
def requestGrant (server : Server) (ambient : Ambient) (client : Client) (payload : TokenRequest) :
    Script Db (Except OauthError Grant) :=
  if payload.grantType = "authorization_code" then authorizationCodeGrant server ambient client payload
  else if payload.grantType = "refresh_token" then refreshTokenGrant server ambient client payload
  else if payload.grantType = "fxa-credentials" then fxaCredentialsGrant ambient client payload
  else .done (.error .invalidGrantType)

/-- The lifetime of an access token. -/
def tokenTtl (server : Server) (payload : TokenRequest) : ℤ :=
  min ((payload.ttl.bind ifNonzero).getD server.accessTokenTtl) server.accessTokenTtl

/-- `oauth_token`. -/
def oauthToken (server : Server) (payload : TokenRequest) (ambient : Ambient) :
    Script Db (Except OauthError TokenResponse) :=
  match findClient server payload.clientId with
  | .error raised => .done (.error raised)
  | .ok client =>
    if payload.accessType.isSome && payload.grantType ≠ "fxa-credentials" then
      .done (.error (.invalidRequestParameter ["access_type"]))
    else
      (requestGrant server ambient client payload).andThen (generateTokens server ambient (tokenTtl server payload))

end FxaLite.OAuth
