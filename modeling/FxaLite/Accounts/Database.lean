import Mathlib.Data.String.Basic

/-!
# The account database

The tables of `db.py` behind authentication and OAuth, with the columns that a handler reads.
Every statement is carried out at once; the methods here are those statements.
-/

namespace FxaLite.Accounts

/-- A row of `accounts`; the columns of its keys hold bytes in hexadecimal. -/
structure Account where
  uid : String
  email : String
  normalizedEmail : String
  ka : String
  wrapWrapKb : String
  authSalt : String
  verifyHash : String
  verifierSetAt : ℤ
  keysChangedAt : ℤ
  profileChangedAt : ℤ
  deriving DecidableEq, Repr

/-- A row without keys. -/
def Account.blank (uid email : String) (createdAt : ℤ) : Account :=
  ⟨uid, email, email, "", "", "", "", createdAt, createdAt, createdAt⟩

/-- A row of `session_tokens`. -/
structure SessionToken where
  tokenId : String
  uid : String
  createdAt : ℤ
  authAt : ℤ
  deriving DecidableEq, Repr

/-- `last_auth_at`, in seconds. -/
def SessionToken.lastAuthAt (token : SessionToken) : ℤ :=
  (if token.authAt ≠ 0 then token.authAt else token.createdAt) / 1000

/-- A row of `key_fetch_tokens`. -/
structure KeyFetchToken where
  tokenId : String
  uid : String
  keyBundle : String
  createdAt : ℤ
  deriving DecidableEq, Repr

/-- A row of `oauth_codes`; the code is the hash of what the client holds. -/
structure OauthCode where
  code : String
  uid : String
  clientId : String
  scope : String
  createdAt : ℤ
  authAt : ℤ
  codeChallenge : Option String
  codeChallengeMethod : Option String
  keysJwe : Option String
  sessionTokenId : Option String
  offline : Bool
  deriving DecidableEq, Repr

/-- A row of `refresh_tokens`. -/
structure RefreshToken where
  tokenId : String
  uid : String
  clientId : String
  scope : String
  createdAt : ℤ
  lastUsedAt : ℤ
  deriving DecidableEq, Repr

/-- The database, each table in the order of insertion. -/
structure Db where
  accounts : List Account
  sessionTokens : List SessionToken
  keyFetchTokens : List KeyFetchToken
  oauthCodes : List OauthCode
  refreshTokens : List RefreshToken
  deriving DecidableEq, Repr

namespace Db

/-- A database without accounts. -/
def fresh : Db := ⟨[], [], [], [], []⟩

instance : Inhabited Db := ⟨fresh⟩

variable (db : Db)

/-- `account`. -/
def account (uid : String) : Option Account := db.accounts.find? (·.uid = uid)

/-- `session_token`. -/
def sessionToken (tokenId : String) : Option SessionToken := db.sessionTokens.find? (·.tokenId = tokenId)

/-- `key_fetch_token`. -/
def keyFetchToken (tokenId : String) : Option KeyFetchToken := db.keyFetchTokens.find? (·.tokenId = tokenId)

/-- `delete_key_fetch_token`. -/
def deleteKeyFetchToken (tokenId : String) : Db :=
  { db with keyFetchTokens := db.keyFetchTokens.filter (·.tokenId ≠ tokenId) }

/-- `oauth_code`. -/
def oauthCode (code : String) : Option OauthCode := db.oauthCodes.find? (·.code = code)

/-- `create_oauth_code`, where no constraint is violated. -/
def createOauthCode (code : OauthCode) : Db := { db with oauthCodes := db.oauthCodes ++ [code] }

/-- `delete_oauth_code`. -/
def deleteOauthCode (code : String) : Db := { db with oauthCodes := db.oauthCodes.filter (·.code ≠ code) }

/-- `delete_expired_oauth_codes`. -/
def deleteExpiredOauthCodes (before : ℤ) : Db :=
  { db with oauthCodes := db.oauthCodes.filter fun row => ¬row.createdAt < before }

/-- `refresh_token`. -/
def refreshToken (tokenId : String) : Option RefreshToken := db.refreshTokens.find? (·.tokenId = tokenId)

/-- `create_refresh_token`, where no constraint is violated. -/
def createRefreshToken (token : RefreshToken) : Db := { db with refreshTokens := db.refreshTokens ++ [token] }

/-- A code has a key of its own and an account. -/
def takesOauthCode (code : OauthCode) : Bool := (db.oauthCode code.code).isNone && (db.account code.uid).isSome

/-- A refresh token has a key of its own and an account. -/
def takesRefreshToken (token : RefreshToken) : Bool :=
  (db.refreshToken token.tokenId).isNone && (db.account token.uid).isSome

/-- `touch_refresh_token`. -/
def touchRefreshToken (tokenId : String) (lastUsedAt : ℤ) : Db :=
  { db with
    refreshTokens := db.refreshTokens.map fun token =>
      if token.tokenId = tokenId then { token with lastUsedAt } else token }

/-! ### What is found -/

variable {db}

/-- A code is found under its own name. -/
theorem code_of_oauthCode {code : String} {row : OauthCode} (h : db.oauthCode code = some row) : row.code = code := by
  simpa using List.find?_some h

/-- A key fetch token is found under its own id. -/
theorem tokenId_of_keyFetchToken {tokenId : String} {row : KeyFetchToken} (h : db.keyFetchToken tokenId = some row) :
    row.tokenId = tokenId := by
  simpa using List.find?_some h

/-- A code that is deleted is gone. -/
@[simp] theorem oauthCode_deleteOauthCode (db : Db) (code : String) : (db.deleteOauthCode code).oauthCode code = none := by
  simp [oauthCode, deleteOauthCode, List.find?_eq_none]

/-- A key fetch token that is deleted is gone. -/
@[simp] theorem keyFetchToken_deleteKeyFetchToken (db : Db) (tokenId : String) :
    (db.deleteKeyFetchToken tokenId).keyFetchToken tokenId = none := by
  simp [keyFetchToken, deleteKeyFetchToken, List.find?_eq_none]

end Db

end FxaLite.Accounts
