import FxaLite.Accounts.AuthHeaders
import FxaLite.Accounts.KeyHierarchy
import FxaLite.Devices.Tables
import FxaLite.Devices.UserAgents
import FxaLite.OAuth.Grants

/-!
# The routes around a device

`devices.py` and `session.py`, and whatever else starts or ends a session, a refresh token or an account.
Each route finds out whose credential its request came with and then goes on, one statement after
another. What a password check, a grant or a command line lets through begins here where it has been let
through; the header of a request is read here.
-/

namespace FxaLite.Devices

open Concurrent Crypto
open Accounts (Random hexText tokenId refreshBearer)

/-- What these routes raise. An `IntegrityError`, or the exception of a text that is not ASCII or not
hexadecimal, is none that a client is told of. -/
inductive DeviceError where
  | unauthorized (reason : String)
  | invalidToken (message : String)
  | clientNotPublic
  | unknownDevice
  | unknownAccount (email : String)
  | deviceSessionConflict (deviceId : String)
  | featureNotEnabled
  | oauthInvalidToken
  | accountExists
  | integrityError
  | uncaught
  deriving DecidableEq, Repr

/-- The statements of a route. -/
abbrev Program (α : Type) := Script DeviceDb (Except DeviceError α)

/-- What the routes find besides the tables: the clients, each with its name, and the hashes. -/
structure Host extends Sha256 where
  clients : OAuth.Registry
  clientName : String → String

variable (host : Host)

/-! ### Credentials -/

/-- `hash_token`, of a text that is ASCII. -/
def hashToken (token : String) : Except DeviceError String :=
  match ascii token.toList with
  | none => .error .uncaught
  | some bytes => .ok (hexText (host.sha256 bytes))

/-- `DEVICE_MANAGEMENT_CLIENT_IDS`. -/
def deviceManagementClientIds : List String :=
  ["5882386c6d801776", "1b1a3e44c54fbb58", "3332a18d142636cb", "a2270f727f45f648", "3c49430b43dfba77"]

/-- `DeviceCredentials`: a session or a refresh token, the latter with its client, and the account. -/
inductive DeviceCredentials where
  | ofSession (tokenId : String) (row : SessionRow)
  | ofRefresh (tokenId : String) (row : RefreshRow) (client : OAuth.Client)

namespace DeviceCredentials

/-- `account.uid`. -/
def uid : DeviceCredentials → String
  | .ofSession _ row => row.uid
  | .ofRefresh _ row _ => row.uid

/-- The token that was presented. -/
def token : DeviceCredentials → Credential
  | .ofSession tokenId _ => .session tokenId
  | .ofRefresh tokenId _ _ => .refresh tokenId

/-- `session_token_id`. -/
def sessionTokenId : DeviceCredentials → Option String
  | .ofSession tokenId _ => some tokenId
  | .ofRefresh _ _ _ => none

/-- `refresh_token_id`. -/
def refreshTokenId : DeviceCredentials → Option String
  | .ofSession _ _ => none
  | .ofRefresh tokenId _ _ => some tokenId

end DeviceCredentials

/-- `session_credentials`, of the token with an id. -/
def sessionOf (tokenId : String) : Program (String × SessionRow) :=
  .read fun db =>
    match db.sessionToken tokenId with
    | none => .done (.error (.unauthorized "Token not found"))
    | some row => .read fun db =>
      if row.uid ∈ db.accounts then .done (.ok (tokenId, row)) else .done (.error (.unauthorized "Token not found"))

/-- `session_credentials`. -/
def sessionCredentials (header : Option (List Char)) : Program (String × SessionRow) :=
  match tokenId header .session with
  | .error reason => .done (.error (.unauthorized reason))
  | .ok none => .done (.error (.unauthorized "Token not found"))
  | .ok (some id) => sessionOf (String.ofList id)

/-- What `refresh_credentials` asks of a grant. -/
def mayManageDevices (row : RefreshRow) : Except DeviceError OAuth.Client :=
  match host.clients.get row.clientId with
  | none => .error (.unauthorized "Unknown client")
  | some client =>
    if !client.publicClient then .error .clientNotPublic
    else if row.clientId ∈ deviceManagementClientIds then .ok client
    else
      match OAuth.readScope row.scope with
      | .error _ => .error .uncaught
      | .ok scope => if scope.intersects OAuth.oldsync then .ok client else .error (.unauthorized "Token not allowed to manage devices")

/-- `refresh_credentials`, of the token with an id. -/
def refreshOf (tokenId : String) : Program DeviceCredentials :=
  .read fun db =>
    match db.refreshToken tokenId with
    | none => .done (.error (.unauthorized "Token not found"))
    | some row => .read fun db =>
      if row.uid ∈ db.accounts then .done ((mayManageDevices host row).map fun client => .ofRefresh tokenId row client)
      else .done (.error (.unauthorized "Token not found"))

/-- `device_credentials`. -/
def deviceCredentials (header : Option (List Char)) : Program DeviceCredentials :=
  match refreshBearer header with
  | none => (sessionCredentials header).andThen fun session => .done (.ok (.ofSession session.1 session.2))
  | some token =>
    match hashToken host (String.ofList token) with
    | .error raised => .done (.error raised)
    | .ok id => refreshOf host id

/-! ### Devices -/

/-- `DeviceRegistration`; its capabilities are dropped. -/
structure DeviceRegistration where
  id : Option String
  name : Option String
  type : Option String
  pushCallback : Option String
  pushPublicKey : Option String
  pushAuthKey : Option String
  availableCommands : Option (List (String × String))
  deriving DecidableEq, Repr

/-- The response of `_response`. -/
structure DeviceResponse where
  id : String
  name : String
  type : String
  pushCallback : String
  pushPublicKey : String
  pushAuthKey : String
  pushEndpointExpired : Bool
  availableCommands : List (String × String)
  createdAt : Option ℤ
  deriving DecidableEq, Repr

/-- `_response`. -/
def response (device : Device) (created : Bool) : DeviceResponse where
  id := device.id
  name := device.name
  type := device.type
  pushCallback := device.pushCallback
  pushPublicKey := device.pushPublicKey
  pushAuthKey := device.pushAuthKey
  pushEndpointExpired := device.pushEndpointExpired
  availableCommands := device.availableCommands
  createdAt := if created then some device.createdAt else none

/-- `_current_device`. -/
def currentDevice (db : DeviceDb) : DeviceCredentials → Option Device
  | .ofSession tokenId _ => db.deviceBySessionToken tokenId
  | .ofRefresh tokenId _ _ => db.deviceByRefreshToken tokenId

/-- `_session_user_agent`. -/
def sessionUserAgent : DeviceCredentials → String
  | .ofSession _ row => row.userAgent
  | .ofRefresh _ _ _ => ""

/-- `_pick`. -/
def pick (value : Option String) (current : Option Device) (column : Device → String) : String :=
  value.getD (current.elim "" column)

/-- The first text that says something. -/
def orElse (text fallback : String) : String := if text ≠ "" then text else fallback

/-- What a device is called that was given no name. -/
def fallbackName (credentials : DeviceCredentials) (userAgent : String) : String :=
  match credentials with
  | .ofSession _ _ => synthesizeName userAgent
  | .ofRefresh _ _ client => orElse (host.clientName client.id) (synthesizeName userAgent)

/-- What a device is taken for that was given no type. -/
def fallbackType (credentials : DeviceCredentials) (userAgent : String) : String :=
  match credentials with
  | .ofSession _ _ => if isMobile (parse userAgent) then "mobile" else "desktop"
  | .ofRefresh _ _ _ => "mobile"

/-- A push endpoint that is new has not expired. -/
def stillExpired (payload : DeviceRegistration) (current : Option Device) : Bool :=
  match current with
  | none => false
  | some device =>
    if (OAuth.given payload.pushCallback).isSome && payload.pushCallback ≠ some device.pushCallback then false
    else device.pushEndpointExpired

/-- `_merge`, with the id that would be drawn for a new device. -/
def merge (payload : DeviceRegistration) (current : Option Device) (credentials : DeviceCredentials) (userAgent drawn : String)
    (now : ℤ) : Device where
  id := (OAuth.given payload.id).getD (current.elim drawn (·.id))
  uid := credentials.uid
  sessionTokenId := credentials.sessionTokenId
  refreshTokenId := credentials.refreshTokenId
  name := orElse (pick payload.name current (·.name)) (fallbackName host credentials userAgent)
  type := orElse ((OAuth.given payload.type).getD (current.elim "" (·.type))) (fallbackType credentials userAgent)
  createdAt := current.elim now (·.createdAt)
  pushCallback := pick payload.pushCallback current (·.pushCallback)
  pushPublicKey := pick payload.pushPublicKey current (·.pushPublicKey)
  pushAuthKey := pick payload.pushAuthKey current (·.pushAuthKey)
  pushEndpointExpired := stillExpired payload current
  availableCommands := payload.availableCommands.getD (current.elim [] (·.availableCommands))

/-- A registration as it arrives. -/
structure Registration where
  header : Option (List Char)
  userAgent : Option String
  payload : DeviceRegistration
  drawn : String
  now : ℤ

/-- The end of `device_register`. -/
def store (registration : Registration) (credentials : DeviceCredentials) (current : Option Device) : Program DeviceResponse :=
  let device := merge host registration.payload current credentials
    (registration.userAgent.getD (sessionUserAgent credentials)) registration.drawn registration.now
  .stmt (fun db => if db.takesDevice device then db.upsertDevice device else db) fun db =>
    if db.takesDevice device then .done (.ok (response device current.isNone)) else .done (.error .integrityError)

/-- `device_register`, once the device that the credential owns has been looked up. -/
def registerOver (registration : Registration) (credentials : DeviceCredentials) (existing : Option Device) :
    Program DeviceResponse :=
  match OAuth.given registration.payload.id with
  | none => store host registration credentials existing
  | some id => .read fun db =>
    match db.device credentials.uid id with
    | none => .done (.error .unknownDevice)
    | some current =>
      match existing with
      | none => store host registration credentials (some current)
      | some own =>
        if own.id ≠ id then .done (.error (.deviceSessionConflict own.id))
        else store host registration credentials (some current)

/-- `device_register`. -/
def deviceRegister (registration : Registration) : Program DeviceResponse :=
  (deviceCredentials host registration.header).andThen fun credentials =>
    .read fun db => registerOver host registration credentials (currentDevice db credentials)

/-- A member of the list of devices. -/
structure ListedDevice where
  response : DeviceResponse
  isCurrentDevice : Bool
  lastAccessTime : ℤ
  deriving DecidableEq, Repr

/-- `_is_current`. -/
def isCurrent (device : Device) : DeviceCredentials → Bool
  | .ofSession tokenId _ => device.sessionTokenId = some tokenId
  | .ofRefresh tokenId _ _ => device.refreshTokenId = some tokenId

/-- The second half of `last_access_time`. -/
def refreshAccessTime (device : Device) : Script DeviceDb ℤ :=
  match OAuth.given device.refreshTokenId with
  | none => .done device.createdAt
  | some id => .read fun db => .done ((db.refreshToken id).elim device.createdAt fun row => max device.createdAt row.lastUsedAt)

/-- `last_access_time`. -/
def lastAccessTime (device : Device) : Script DeviceDb ℤ :=
  match OAuth.given device.sessionTokenId with
  | none => refreshAccessTime device
  | some id => .read fun db =>
    match db.sessionToken id with
    | some row => .done row.lastAccessTime
    | none => refreshAccessTime device

/-- The filter for idle devices. -/
def isIdle (filterIdleDevicesTimestamp : Option ℤ) (lastAccess : ℤ) : Bool :=
  filterIdleDevicesTimestamp.any fun timestamp => timestamp ≠ 0 && lastAccess ≤ timestamp

/-- The loop of `device_list`. -/
def listFrom (filterIdleDevicesTimestamp : Option ℤ) (credentials : DeviceCredentials) : List Device → Program (List ListedDevice)
  | [] => .done (.ok [])
  | device :: rest =>
    (lastAccessTime device).bind fun lastAccess =>
      (listFrom filterIdleDevicesTimestamp credentials rest).andThen fun listed =>
        if isIdle filterIdleDevicesTimestamp lastAccess then .done (.ok listed)
        else .done (.ok (⟨response device false, isCurrent device credentials, lastAccess⟩ :: listed))

/-- A session that is used to list is touched; a refresh token is not. -/
def touching (credentials : DeviceCredentials) (now : ℤ) (db : DeviceDb) : DeviceDb :=
  match credentials with
  | .ofSession tokenId _ => db.touchSessionToken tokenId now
  | .ofRefresh _ _ _ => db

/-- `device_list`. -/
def deviceList (header : Option (List Char)) (filterIdleDevicesTimestamp : Option ℤ) (now : ℤ) : Program (List ListedDevice) :=
  (deviceCredentials host header).andThen fun credentials =>
    .act (touching credentials now) (.read fun db =>
      listFrom filterIdleDevicesTimestamp credentials (db.devicesOf credentials.uid))

/-- `device_commands`: an owner of a device has an empty queue. -/
def deviceCommands (header : Option (List Char)) : Program Unit :=
  (deviceCredentials host header).andThen fun credentials =>
    .read fun db =>
      if (currentDevice db credentials).isNone then .done (.error .unknownDevice) else .done (.ok ())

/-- `device_destroy`, with `delete_device`. -/
def deviceDestroy (header : Option (List Char)) (id : String) : Program Unit :=
  (deviceCredentials host header).andThen fun credentials =>
    .read fun db =>
      match db.device credentials.uid id with
      | none => .done (.error .unknownDevice)
      | some device => .act (·.removeDevice credentials.uid device) (.done (.ok ()))

/-- `devices_notify`. -/
def devicesNotify (header : Option (List Char)) : Program Unit :=
  (deviceCredentials host header).andThen fun _ => .done (.error .featureNotEnabled)

/-! ### Sessions -/

/-- `last_auth_at`, in seconds. -/
def SessionRow.lastAuthAt (row : SessionRow) : ℤ := (if row.authAt ≠ 0 then row.authAt else row.createdAt) / 1000

/-- A session token as it is handed out. -/
structure SignedIn where
  uid : String
  sessionToken : String
  authAt : ℤ
  deriving DecidableEq, Repr

/-- `create_session_token`, of the token that a seed expands to. -/
def createSession (seed : Random 32) (row : SessionRow) : Program SignedIn :=
  let keys := tokenKeys host.toSha256 .session seed
  let row := { row with authKey := hexText keys.authKey }
  .stmt (fun db => if db.takesSession (hexText keys.id) row.uid then db.createSessionToken (hexText keys.id) row else db) fun db =>
    if db.takesSession (hexText keys.id) row.uid then .done (.ok ⟨row.uid, keys.token, row.lastAuthAt⟩)
    else .done (.error .integrityError)

/-- `start_session`, of an account whose password was checked. -/
def startSession (uid userAgent : String) (seed : Random 32) (now : ℤ) : Program SignedIn :=
  createSession host seed ⟨uid, "", now, now, now, userAgent⟩

/-- `session_status`, and whatever else only asks for a session. -/
def sessionStatus (header : Option (List Char)) : Program String :=
  (sessionCredentials header).andThen fun session => .done (.ok session.2.uid)

/-- The id of a token that is sent as it is, with `derive_token_keys`. -/
def customTokenId (token : List Char) : Except DeviceError String :=
  match (Hex.decode token).map (deriveTokenKeys host.toSha256 .session) with
  | some (.ok keys) => .ok (hexText keys.id)
  | _ => .error .uncaught

/-- `session_destroy`: the session itself, or another one of its account. -/
def sessionDestroy (header : Option (List Char)) (customSessionToken : Option (List Char)) : Program Unit :=
  (sessionCredentials header).andThen fun session =>
    match customSessionToken.filter (· ≠ []) with
    | none => .act (·.deleteSessionToken session.1) (.done (.ok ()))
    | some token =>
      match customTokenId host token with
      | .error raised => .done (.error raised)
      | .ok target => .read fun db =>
        match db.sessionToken target with
        | none => .done (.error (.invalidToken "Invalid session token"))
        | some row =>
          if row.uid ≠ session.2.uid then .done (.error (.invalidToken "Invalid session token"))
          else .act (·.deleteSessionToken target) (.done (.ok ()))

/-- `session_duplicate`: the copy says when the original was authenticated. -/
def sessionDuplicate (header : Option (List Char)) (userAgent : Option String) (seed : Random 32) (now : ℤ) : Program SignedIn :=
  (sessionCredentials header).andThen fun session =>
    createSession host seed
      { session.2 with lastAccessTime := now, userAgent := userAgent.getD session.2.userAgent }

/-- `session_reauth`, of an account that was authenticated by its address and a password. -/
def sessionReauth (header : Option (List Char)) (email authenticated : String) (now : ℤ) : Program ℤ :=
  (sessionCredentials header).andThen fun session =>
    if authenticated ≠ session.2.uid then .done (.error (.unknownAccount email))
    else .act (·.reauthenticateSessionToken session.1 now) (.done (.ok (now / 1000)))

/-! ### Refresh tokens and accounts -/

/-- `mint_refresh_token`, of a grant that was given. -/
def mintRefreshToken (uid clientId scope token : String) (now : ℤ) : Program String :=
  match hashToken host token with
  | .error raised => .done (.error raised)
  | .ok id =>
    .stmt (fun db => if db.takesRefresh id uid then db.createRefreshToken id ⟨uid, clientId, scope, now, now⟩ else db) fun db =>
      if db.takesRefresh id uid then .done (.ok token) else .done (.error .integrityError)

/-- The statement with which a refresh token is spent. -/
def spendRefreshToken (token : String) (now : ℤ) : Program Unit :=
  match hashToken host token with
  | .error raised => .done (.error raised)
  | .ok id => .act (·.touchRefreshToken id now) (.done (.ok ()))

/-- The part that the two routes share that revoke a token: its client is compared if one is named. -/
def revoke (id : String) (clientId : Option String) : Program Unit :=
  .read fun db =>
    match db.refreshToken id with
    | none => .done (.ok ())
    | some row =>
      match OAuth.given clientId with
      | none => .act (·.deleteRefreshToken id) (.done (.ok ()))
      | some named =>
        match compareDigest row.clientId.toList (OAuth.lower named).toList with
        | none => .done (.error .uncaught)
        | some false => .done (.error .oauthInvalidToken)
        | some true => .act (·.deleteRefreshToken id) (.done (.ok ()))

/-- `oauth_destroy`. -/
def oauthDestroy (token : String) (clientId : Option String) : Program Unit :=
  match hashToken host token with
  | .error raised => .done (.error raised)
  | .ok id => revoke id clientId

/-- `LegacyDestroyRequest`, of which one of the three names a token. -/
structure LegacyDestroy where
  access : Option String
  refreshToken : Option String
  refreshTokenId : Option String
  clientId : Option String
  deriving DecidableEq, Repr

/-- `destroy`: an access token has no row to delete. -/
def legacyDestroy (payload : LegacyDestroy) : Program Unit :=
  if payload.access.isSome then .done (.ok ())
  else
    match OAuth.given payload.refreshTokenId with
    | some id => revoke id payload.clientId
    | none => oauthDestroy host (payload.refreshToken.getD "") payload.clientId

/-- The statement with which `provision` makes an account. -/
def createAccount (uid : String) : Program Unit :=
  .stmt (fun db => if uid ∈ db.accounts then db else db.createAccount uid) fun db =>
    if uid ∈ db.accounts then .done (.error .accountExists) else .done (.ok ())

/-- The statement with which `account_destroy` and the command line remove one. -/
def removeAccount (uid : String) : Program Unit := .act (·.deleteAccount uid) (.done (.ok ()))

end FxaLite.Devices
