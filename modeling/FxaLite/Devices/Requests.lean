import FxaLite.Devices.Attached

/-!
# Requests

What clients ask for, and the command line, and the statements that it comes to. Each request changes few
tables, and these only for the token that it presents, names or is given. That is said here once, of any
changes that are allowed and of any property of the tables that others keep meanwhile.
-/

namespace FxaLite.Devices

open Concurrent Crypto
open Accounts (Random hexText)

/-- What a client asks for, or the command line. -/
inductive Request where
  | register (registration : Registration)
  | list (header : Option (List Char)) (filterIdleDevicesTimestamp : Option ℤ) (now : ℤ)
  | commands (header : Option (List Char))
  | destroyDevice (header : Option (List Char)) (id : String)
  | notify (header : Option (List Char))
  | attached (header : Option (List Char)) (filterIdleDevicesTimestamp : Option ℤ) (now : ℤ)
  | signIn (uid userAgent : String) (seed : Random 32) (now : ℤ)
  | status (header : Option (List Char))
  | destroySession (header : Option (List Char)) (customSessionToken : Option (List Char))
  | duplicate (header : Option (List Char)) (userAgent : Option String) (seed : Random 32) (now : ℤ)
  | reauth (header : Option (List Char)) (email authenticated : String) (now : ℤ)
  | mint (uid clientId scope token : String) (now : ℤ)
  | spend (token : String) (now : ℤ)
  | revoke (token : String) (clientId : Option String)
  | legacyRevoke (payload : LegacyDestroy)
  | createAccount (uid : String)
  | removeAccount (uid : String)

/-- What it is answered with. -/
inductive Answer where
  | done
  | uid (uid : String)
  | authAt (authAt : ℤ)
  | signedIn (token : SignedIn)
  | refreshToken (token : String)
  | device (response : DeviceResponse)
  | devices (listed : List ListedDevice)
  | attached (clients : List Accounts.Client)

/-- A program, and what its value is answered with. -/
def answering {α : Type} (answer : α → Answer) (program : Program α) : Program Answer :=
  program.andThen fun value => .done (.ok (answer value))

variable (host : Host)

/-- The statements of a request. -/
def Request.program : Request → Program Answer
  | .register registration => answering .device (deviceRegister host registration)
  | .list header filterIdle now => answering .devices (deviceList host header filterIdle now)
  | .commands header => answering (fun _ => .done) (deviceCommands host header)
  | .destroyDevice header id => answering (fun _ => .done) (deviceDestroy host header id)
  | .notify header => answering (fun _ => .done) (devicesNotify host header)
  | .attached header filterIdle now => answering .attached (attachedClients host header filterIdle now)
  | .signIn uid userAgent seed now => answering .signedIn (startSession host uid userAgent seed now)
  | .status header => answering .uid (sessionStatus header)
  | .destroySession header custom => answering (fun _ => .done) (sessionDestroy host header custom)
  | .duplicate header userAgent seed now => answering .signedIn (sessionDuplicate host header userAgent seed now)
  | .reauth header email authenticated now => answering .authAt (sessionReauth header email authenticated now)
  | .mint uid clientId scope token now => answering .refreshToken (mintRefreshToken host uid clientId scope token now)
  | .spend token now => answering (fun _ => .done) (spendRefreshToken host token now)
  | .revoke token clientId => answering (fun _ => .done) (oauthDestroy host token clientId)
  | .legacyRevoke payload => answering (fun _ => .done) (legacyDestroy host payload)
  | .createAccount uid => answering (fun _ => .done) (Devices.createAccount uid)
  | .removeAccount uid => answering (fun _ => .done) (Devices.removeAccount uid)

/-- The device that a registration comes to. -/
def Registration.device (registration : Registration) (credentials : DeviceCredentials) (current : Option Device) : Device :=
  merge host registration.payload current credentials (registration.userAgent.getD (sessionUserAgent credentials)) registration.drawn
    registration.now

/-- The refresh token that is to be revoked. -/
def LegacyDestroy.target (payload : LegacyDestroy) : Option String :=
  (OAuth.given payload.refreshTokenId).or (hashToken host (payload.refreshToken.getD "")).toOption

/-! ### What a request changes -/

section Changes

variable {host} {P : DeviceDb → Prop} {A : DeviceDb → DeviceDb → Prop} {header : Option (List Char)}

/-- An answer is made of a value that is there. -/
theorem makes_answering {α : Type} {answer : α → Answer} {program : Program α} (h : program.Makes P A) :
    (answering answer program).Makes P A := h.andThen fun _ => trivial

/-- To find out whose session it is changes nothing. -/
theorem makes_sessionCredentials : (sessionCredentials header).Makes P A := by
  unfold sessionCredentials
  split
  · trivial
  · trivial
  · refine .read fun db _ => ?_
    split
    · trivial
    · refine .read fun db _ => ?_
      split <;> trivial

/-- Or whose device. -/
theorem makes_deviceCredentials : (deviceCredentials host header).Makes P A := by
  unfold deviceCredentials
  split
  · exact makes_sessionCredentials.andThen fun _ => trivial
  · split
    · trivial
    · refine .read fun db _ => ?_
      split
      · trivial
      · refine .read fun db _ => ?_
        split <;> trivial

/-- Or when a device was last seen. -/
theorem makes_lastAccessTime (device : Device) : (lastAccessTime device).Makes P A := by
  have hrefresh : (refreshAccessTime device).Makes P A := by
    unfold refreshAccessTime
    split
    · trivial
    · exact .read fun _ _ => trivial
  unfold lastAccessTime
  split
  · exact hrefresh
  · refine .read fun db _ => ?_
    split
    · trivial
    · exact hrefresh

/-- The loop of a list changes nothing. -/
theorem makes_listFrom (filterIdle : Option ℤ) (credentials : DeviceCredentials) (devices : List Device) :
    (listFrom filterIdle credentials devices).Makes P A := by
  induction devices with
  | nil => trivial
  | cons device rest ih =>
    refine (makes_lastAccessTime device).bind fun lastAccess => ih.andThen fun listed => ?_
    split <;> trivial

/-- In either form. -/
theorem makes_attachedDevicesFrom (filterIdle : Option ℤ) (devices : List Device) :
    (attachedDevicesFrom filterIdle devices).Makes P A := by
  induction devices with
  | nil => trivial
  | cons device rest ih =>
    refine (makes_lastAccessTime device).bind fun lastAccess => ih.andThen fun attached => ?_
    split <;> trivial

/-- `device_commands` changes nothing. -/
theorem makes_deviceCommands : (deviceCommands host header).Makes P A := by
  refine makes_deviceCredentials.andThen fun credentials => .read fun db _ => ?_
  split <;> trivial

/-- Nor does `devices_notify`. -/
theorem makes_devicesNotify : (devicesNotify host header).Makes P A := makes_deviceCredentials.andThen fun _ => trivial

/-- Nor `session_status`. -/
theorem makes_sessionStatus : (sessionStatus header).Makes P A := makes_sessionCredentials.andThen fun _ => trivial

section OfDevice

variable {D : DeviceCredentials → Prop}
  (hcredentials : (deviceCredentials host header).Ensures P fun result => ∀ credentials, result = .ok credentials → D credentials)

include hcredentials

/-- `device_list` touches the session that is presented, if one is. -/
theorem makes_deviceList {filterIdle : Option ℤ} {now : ℤ}
    (htouch : ∀ tokenId row, D (.ofSession tokenId row) → ∀ db, P db → A db (db.touchSessionToken tokenId now)) :
    (deviceList host header filterIdle now).Makes P A := by
  refine hcredentials.makes_andThen makes_deviceCredentials fun credentials hD => ?_
  have hlist : (Script.read fun db => listFrom filterIdle credentials (db.devicesOf credentials.uid)).Makes P A :=
    .read fun db _ => makes_listFrom _ _ _
  cases credentials with
  | ofSession tokenId row => exact .act (htouch tokenId row hD) hlist
  | ofRefresh tokenId row client => exact fun db hdb => ⟨Or.inl rfl, hlist⟩

/-- `device_destroy` removes a device of the account. -/
theorem makes_deviceDestroy {id : String}
    (hremove : ∀ credentials, D credentials → ∀ db device, P db → db.device credentials.uid id = some device →
      ∀ db', P db' → A db' (db'.removeDevice credentials.uid device)) : (deviceDestroy host header id).Makes P A := by
  refine hcredentials.makes_andThen makes_deviceCredentials fun credentials hD => .read fun db hdb => ?_
  cases hdevice : db.device credentials.uid id with
  | none => trivial
  | some device => exact .act (hremove credentials hD db device hdb hdevice) trivial

end OfDevice

/-- The id of a device that is registered: it is drawn, or is that of the device of the token, or of a device of the
account. -/
def Registration.Names (registration : Registration) (credentials : DeviceCredentials) (db : DeviceDb) (id : String) : Prop :=
  id = registration.drawn ∨ (∃ device, currentDevice db credentials = some device ∧ id = device.id) ∨
    ∃ device, db.device credentials.uid id = some device

/-- `device_register` stores a device for the token that is presented. -/
theorem makes_deviceRegister {registration : Registration} {D : DeviceCredentials → Prop}
    (hcredentials : (deviceCredentials host registration.header).Ensures P fun result => ∀ credentials, result = .ok credentials →
      D credentials)
    (hupsert : ∀ credentials current, D credentials → ∀ db, P db →
      registration.Names credentials db (registration.device host credentials current).id →
        ∀ db', P db' → db'.takesDevice (registration.device host credentials current) = true →
          A db' (db'.upsertDevice (registration.device host credentials current))) :
    (deviceRegister host registration).Makes P A := by
  refine hcredentials.makes_andThen makes_deviceCredentials fun credentials hD => .read fun db hdb => ?_
  unfold registerOver
  cases hgiven : OAuth.given registration.payload.id with
  | none =>
    refine .guarded (hupsert credentials _ hD db hdb ?_)
    rw [Registration.device, merge, hgiven]
    cases hcurrent : currentDevice db credentials with
    | none => exact Or.inl rfl
    | some device => exact Or.inr (Or.inl ⟨device, hcurrent, rfl⟩)
  | some id =>
    refine .read fun db' hdb' => ?_
    cases hdevice : db'.device credentials.uid id with
    | none => trivial
    | some current =>
      have hstored : (store host registration credentials (some current)).Makes P A := by
        refine .guarded (hupsert credentials (some current) hD db' hdb' (Or.inr (Or.inr ⟨current, ?_⟩)))
        rw [Registration.device, merge, hgiven]
        exact hdevice
      cases currentDevice db credentials with
      | none => exact hstored
      | some device =>
        dsimp only
        split
        · trivial
        · exact hstored

section OfSession

variable {S : String × SessionRow → Prop}
  (hsession : (sessionCredentials header).Ensures P fun result => ∀ session, result = .ok session → S session)

include hsession

/-- `attached_clients` touches the session. -/
theorem makes_attachedClients {filterIdle : Option ℤ} {now : ℤ}
    (htouch : ∀ session, S session → ∀ db, P db → A db (db.touchSessionToken session.1 now)) :
    (attachedClients host header filterIdle now).Makes P A := by
  refine hsession.makes_andThen makes_sessionCredentials fun session hS => .act (htouch session hS) (.read fun db _ => ?_)
  refine (makes_attachedDevicesFrom _ _).andThen fun devices => .read fun db _ => ?_
  split
  · trivial
  · exact .read fun _ _ => trivial

/-- `session_destroy` deletes the session, or another one of its account. -/
theorem makes_sessionDestroy {custom : Option (List Char)}
    (hdelete : ∀ session target, S session →
      (target = session.1 ∨ ∃ db row, P db ∧ db.sessionToken target = some row ∧ row.uid = session.2.uid) →
        ∀ db, P db → A db (db.deleteSessionToken target)) : (sessionDestroy host header custom).Makes P A := by
  refine hsession.makes_andThen makes_sessionCredentials fun session hS => ?_
  split
  · exact .act (hdelete session session.1 hS (Or.inl rfl)) trivial
  · split
    · trivial
    · refine .read fun db hdb => ?_
      split
      · trivial
      · rename_i target _ _ row hrow
        split
        · trivial
        · rename_i hsame
          exact .act (hdelete session target hS (Or.inr ⟨db, row, hdb, hrow, of_not_not hsame⟩)) trivial

/-- `session_duplicate` makes a session with what is said of the original. -/
theorem makes_sessionDuplicate {userAgent : Option String} {seed : Random 32} {now : ℤ}
    (hcreate : ∀ session, S session → ∀ db, P db →
      db.takesSession (hexText (tokenKeys host.toSha256 .session seed).id) session.2.uid = true →
        A db (db.createSessionToken (hexText (tokenKeys host.toSha256 .session seed).id)
          { session.2 with
            authKey := hexText (tokenKeys host.toSha256 .session seed).authKey
            lastAccessTime := now
            userAgent := userAgent.getD session.2.userAgent })) :
    (sessionDuplicate host header userAgent seed now).Makes P A :=
  hsession.makes_andThen makes_sessionCredentials fun session hS => .guarded (hcreate session hS)

/-- `session_reauth` says of the session when it was authenticated, if that was by its account. -/
theorem makes_sessionReauth {email authenticated : String} {now : ℤ}
    (hreauth : ∀ session, S session → authenticated = session.2.uid →
      ∀ db, P db → A db (db.reauthenticateSessionToken session.1 now)) :
    (sessionReauth header email authenticated now).Makes P A := by
  refine hsession.makes_andThen makes_sessionCredentials fun session hS => ?_
  split
  · trivial
  · rename_i hsame
    exact .act (hreauth session hS (of_not_not hsame)) trivial

end OfSession

/-- `start_session` makes a session. -/
theorem makes_startSession {uid userAgent : String} {seed : Random 32} {now : ℤ}
    (hcreate : ∀ db, P db → db.takesSession (hexText (tokenKeys host.toSha256 .session seed).id) uid = true →
      A db (db.createSessionToken (hexText (tokenKeys host.toSha256 .session seed).id)
        ⟨uid, hexText (tokenKeys host.toSha256 .session seed).authKey, now, now, now, userAgent⟩)) :
    (startSession host uid userAgent seed now).Makes P A := .guarded hcreate

/-- `mint_refresh_token` makes a refresh token. -/
theorem makes_mintRefreshToken {uid clientId scope token : String} {now : ℤ}
    (hcreate : ∀ id, hashToken host token = .ok id → ∀ db, P db → db.takesRefresh id uid = true →
      A db (db.createRefreshToken id ⟨uid, clientId, scope, now, now⟩)) :
    (mintRefreshToken host uid clientId scope token now).Makes P A := by
  unfold mintRefreshToken
  split
  · trivial
  · rename_i id hid
    exact .guarded (hcreate id hid)

/-- One that is spent is touched. -/
theorem makes_spendRefreshToken {token : String} {now : ℤ}
    (htouch : ∀ id, hashToken host token = .ok id → ∀ db, P db → A db (db.touchRefreshToken id now)) :
    (spendRefreshToken host token now).Makes P A := by
  unfold spendRefreshToken
  split
  · trivial
  · rename_i id hid
    exact .act (htouch id hid) trivial

/-- One that is revoked is deleted, or nothing is. -/
theorem makes_revoke {id : String} {clientId : Option String} (hdelete : ∀ db, P db → A db (db.deleteRefreshToken id)) :
    (revoke id clientId).Makes P A := by
  have hdeleted : (Script.act (ρ := Except DeviceError Unit) (·.deleteRefreshToken id) (.done (.ok ()))).Makes P A :=
    .act hdelete trivial
  refine .read fun db _ => ?_
  split
  · trivial
  · split
    · exact hdeleted
    · split
      · trivial
      · trivial
      · exact hdeleted

/-- By its text likewise. -/
theorem makes_oauthDestroy {token : String} {clientId : Option String}
    (hdelete : ∀ id, hashToken host token = .ok id → ∀ db, P db → A db (db.deleteRefreshToken id)) :
    (oauthDestroy host token clientId).Makes P A := by
  unfold oauthDestroy
  split
  · trivial
  · rename_i id hid
    exact makes_revoke (hdelete id hid)

/-- Or by either, as the older route takes it. -/
theorem makes_legacyDestroy {payload : LegacyDestroy}
    (hdelete : ∀ id, payload.target host = some id → ∀ db, P db → A db (db.deleteRefreshToken id)) :
    (legacyDestroy host payload).Makes P A := by
  unfold legacyDestroy
  split
  · trivial
  · cases hgiven : OAuth.given payload.refreshTokenId with
    | some id =>
      refine makes_revoke (hdelete id ?_)
      rw [LegacyDestroy.target, hgiven, Option.some_or]
    | none =>
      refine makes_oauthDestroy fun id hid => hdelete id ?_
      rw [LegacyDestroy.target, hgiven, Option.none_or, hid]
      rfl

/-- `provision` makes an account that is not there. -/
theorem makes_createAccount {uid : String} (hcreate : ∀ db, P db → A db (db.createAccount uid)) :
    (Devices.createAccount uid).Makes P A := by
  intro db hdb
  dsimp only
  split
  · exact ⟨Or.inl rfl, trivial⟩
  · exact ⟨Or.inr (hcreate db hdb), trivial⟩

/-- An account is removed. -/
theorem makes_removeAccount {uid : String} (hdelete : ∀ db, P db → A db (db.deleteAccount uid)) :
    (Devices.removeAccount uid).Makes P A := .act hdelete trivial

end Changes

end FxaLite.Devices
