import FxaLite.OAuth.Clients
import FxaLite.Accounts.Database
import FxaLite.Lib.Script

/-!
# Grants

`grant.py`: what a client may have, and the tokens that say so. An access token is its claims,
which nothing records; a refresh token is a row, under the hash of what the client holds. What is
signed and hashed, and with what, is the server's.
-/

namespace FxaLite.OAuth

open FxaLite.Accounts Concurrent

/-- What a route of this tier can raise; `internal` is an exception it does not expect. -/
inductive OauthError where
  | unauthorized (reason : String)
  | unknownClient (clientId : String)
  | incorrectRedirect (redirectUri : String)
  | unknownCode (requestCode : String)
  | mismatchCode (requestCode client : String)
  | expiredCode (requestCode : String) (expiredAt : ℤ)
  | invalidToken
  | invalidRequestParameter (keys : List String)
  | invalidResponseType
  | invalidScopes (scopes : List (List Char))
  | notPublicClient (clientId : String)
  | mismatchCodeChallenge (pkceHashValue : Option String)
  | missingPkceParameters
  | invalidGrantType
  | mismatchAcrValues (foundValue : String)
  | internal
  deriving DecidableEq, Repr

/-- `str(scope)`, as it is stored and sent. -/
def scopeText (scope : ScopeSet) : String := String.ofList scope.str

/-- `ScopeSet.from_string`. -/
def readScope (text : String) : Except ScopeError ScopeSet := ScopeSet.fromString text.toList

/-- `UNTRUSTED_ALLOWED_SCOPES`. -/
def untrustedAllowedScopes : ScopeSet :=
  .ofValues ["openid", "profile:uid", "profile:email", "profile:display_name"] (by decide)

/-- `TRUSTED_ALLOWED_SCOPES`. -/
def trustedAllowedScopes : ScopeSet := .ofValues ["openid", "profile", "email", "profile:subscriptions"] (by decide)

/-- `NON_REFRESHABLE_SCOPES`. -/
def nonRefreshableScopes : ScopeSet := .ofValues ["openid", sessionScope] (by decide)

/-- `SessionClaims`. -/
structure SessionClaims where
  uid : String
  email : String
  sessionTokenId : String
  generation : ℤ
  lastAuthAt : ℤ
  profileChangedAt : ℤ
  keysChangedAt : ℤ
  aal : ℤ

/-- `SessionClaims.for_session`. -/
def SessionClaims.forSession (account : Account) (token : SessionToken) : SessionClaims where
  uid := account.uid
  email := account.email
  sessionTokenId := token.tokenId
  generation := account.verifierSetAt
  lastAuthAt := token.lastAuthAt
  profileChangedAt := account.profileChangedAt
  keysChangedAt := account.keysChangedAt
  aal := 1

/-- `GrantRequest`. -/
structure GrantRequest where
  scope : ScopeSet
  accessType : String
  keysJwe : Option String

/-- `Grant`. -/
structure Grant where
  client : Client
  uid : String
  email : String
  scope : ScopeSet
  authAt : ℤ
  generation : ℤ
  profileChangedAt : ℤ
  keysChangedAt : ℤ
  aal : ℤ
  sessionTokenId : Option String
  keysJwe : Option String
  offline : Bool
  keyBearing : List (List Char)

/-- The key-bearing scopes among those that are asked for. -/
def keyBearing (scope : ScopeSet) : List Scope :=
  scope.scopesToImplicants.filter fun s => String.ofList s.value ∈ keyBearingScopes

/-- The scopes a trusted client is granted of those it asks for; an untrusted one was refused if it
may not have them all. -/
def grantedScope (client : Client) (scope : ScopeSet) : ScopeSet :=
  if client.trusted then scope.filtered (client.allowedScopes.union trustedAllowedScopes) else scope

/-- `validate_requested_grant`. -/
def validateRequestedGrant (claims : SessionClaims) (client : Client) (request : GrantRequest) :
    Except OauthError Grant :=
  let invalid := request.scope.difference untrustedAllowedScopes
  let forbidden := (ScopeSet.ofScopes (keyBearing request.scope)).difference client.allowedScopes
  let scope := grantedScope client request.scope
  if !client.trusted && !invalid.isEmpty then .error (.invalidScopes invalid.values)
  else if !forbidden.isEmpty then .error (.invalidScopes forbidden.values)
  else if client.trusted && scope.isEmpty && !request.scope.isEmpty then
    .error (.invalidScopes request.scope.values)
  else
    .ok
      { client, scope
        uid := claims.uid
        email := claims.email
        authAt := claims.lastAuthAt
        generation := claims.generation
        profileChangedAt := claims.profileChangedAt
        keysChangedAt := claims.keysChangedAt
        aal := claims.aal
        sessionTokenId := some claims.sessionTokenId
        keysJwe := request.keysJwe
        offline := request.accessType = "offline"
        keyBearing := (keyBearing request.scope).map Scope.value }

/-- What the server is set up with: its clients, its lifetimes in seconds, its URLs, and the two
forms in which it writes a SHA-256 digest. -/
structure Server where
  clients : Registry
  accessTokenTtl : ℤ
  authorizationCodeTtl : ℤ
  issuer : String
  tokenserverUrl : String
  sha256Hex : String → String
  sha256B64u : String → String

/-- What a request finds around it: what `token_id` makes of its `Authorization` header, and the
readings of the clock, in milliseconds, and the random tokens that its handler takes. -/
structure Ambient where
  tokenId : Except OauthError (Option String)
  now : ℕ → ℤ
  tokenHex : ℕ → String

/-- The claims of an access token. -/
structure AccessToken where
  aud : String
  clientId : String
  exp : ℤ
  iat : ℤ
  iss : String
  jti : String
  scope : String
  sub : String
  generation : Option ℤ
  profileChangedAt : Option ℤ
  acr : Option ℤ
  authTime : Option ℤ
  deriving DecidableEq, Repr

/-- The response of `/oauth/token`. -/
structure TokenResponse where
  accessToken : AccessToken
  scope : String
  expiresIn : ℤ
  authAt : Option ℤ
  keysJwe : Option String
  refreshToken : Option String
  deriving DecidableEq, Repr

/-- `if value:`, of a number. -/
def ifNonzero (n : ℤ) : Option ℤ := if n ≠ 0 then some n else none

/-- `if value:`, of a string that may be missing. -/
def given (s : Option String) : Option String := s.filter (· ≠ "")

/-- `hash_token`. -/
def Server.hashToken (server : Server) (token : String) : String := server.sha256Hex token

/-- `_access_token`. -/
def newAccessToken (server : Server) (ambient : Ambient) (grant : Grant) (ttl : ℤ) : AccessToken where
  aud := if grant.scope.contains (.ofValues [oldsyncScope] (by decide)) then server.tokenserverUrl else grant.client.id
  clientId := grant.client.id
  exp := ambient.now 1 / 1000 + ttl
  iat := ambient.now 1 / 1000
  iss := server.issuer
  jti := ambient.tokenHex 0
  scope := scopeText grant.scope
  sub := grant.uid
  generation := ifNonzero grant.generation
  profileChangedAt := ifNonzero grant.profileChangedAt
  acr := ifNonzero grant.aal
  authTime := ifNonzero grant.authAt

/-- The response, before a refresh token is added. -/
def tokenResponse (server : Server) (ambient : Ambient) (grant : Grant) (ttl : ℤ) : TokenResponse where
  accessToken := newAccessToken server ambient grant ttl
  scope := scopeText grant.scope
  expiresIn := ttl
  authAt := ifNonzero grant.authAt
  keysJwe := given grant.keysJwe
  refreshToken := none

/-- The row of a refresh token. -/
def refreshTokenRow (server : Server) (ambient : Ambient) (grant : Grant) : RefreshToken where
  tokenId := server.hashToken (ambient.tokenHex 1)
  uid := grant.uid
  clientId := grant.client.id
  scope := scopeText grant.scope
  createdAt := ambient.now 1
  lastUsedAt := ambient.now 1

/-- `mint_refresh_token`. A key that is taken, or an account that is gone, is an exception. -/
def mintRefreshToken (server : Server) (ambient : Ambient) (grant : Grant) : Script Db (Except OauthError String) :=
  .stmt
    (fun db =>
      if db.takesRefreshToken (refreshTokenRow server ambient grant) then
        db.createRefreshToken (refreshTokenRow server ambient grant)
      else db)
    fun db =>
      if db.takesRefreshToken (refreshTokenRow server ambient grant) then .done (.ok (ambient.tokenHex 1))
      else .done (.error .internal)

/-- `generate_tokens`. -/
def generateTokens (server : Server) (ambient : Ambient) (ttl : ℤ) (grant : Grant) :
    Script Db (Except OauthError TokenResponse) :=
  if grant.offline then
    (mintRefreshToken server ambient grant).andThen fun token =>
      .done (.ok { tokenResponse server ambient grant ttl with refreshToken := some token })
  else .done (.ok (tokenResponse server ambient grant ttl))

end FxaLite.OAuth
