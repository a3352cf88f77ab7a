import FxaLite.Lib.Table
import Mathlib.Data.String.Basic

/-!
# The tables of the device registry

The tables of `db.py` that a device connects: the sessions and refresh tokens that may own one, and
the devices. A device points at its owner, under an index for each kind of pointer that lets no two
devices have one owner. Deleting a session deletes its device, and deleting an account deletes all it
has; a refresh token may go and leave its device pointing nowhere.
-/

namespace FxaLite.Devices

open Relational

/-- A row of `session_tokens`, which lies under its token id. -/
structure SessionRow where
  uid : String
  authKey : String
  createdAt : ℤ
  authAt : ℤ
  lastAccessTime : ℤ
  userAgent : String
  deriving DecidableEq, Repr

/-- A row of `refresh_tokens`, which lies under its token id. -/
structure RefreshRow where
  uid : String
  clientId : String
  scope : String
  createdAt : ℤ
  lastUsedAt : ℤ
  deriving DecidableEq, Repr

/-- A row of `devices`, which lies under its id. -/
structure DeviceRow where
  uid : String
  sessionTokenId : Option String
  refreshTokenId : Option String
  name : String
  type : String
  createdAt : ℤ
  pushCallback : String
  pushPublicKey : String
  pushAuthKey : String
  pushEndpointExpired : Bool
  availableCommands : List (String × String)
  deriving DecidableEq, Repr

/-- `Device`. -/
structure Device extends DeviceRow where
  id : String
  deriving DecidableEq, Repr

/-- A token by its id, of one of the two kinds that a device may belong to. -/
inductive Credential where
  | session (tokenId : String)
  | refresh (tokenId : String)
  deriving DecidableEq, Repr

/-- A row points at a token. -/
def DeviceRow.pointsTo (row : DeviceRow) : Credential → Bool
  | .session tokenId => row.sessionTokenId = some tokenId
  | .refresh tokenId => row.refreshTokenId = some tokenId

/-- Two rows that one of the unique indexes keeps apart. -/
def DeviceRow.clashes (row row' : DeviceRow) : Bool :=
  (row.sessionTokenId.isSome && row.sessionTokenId = row'.sessionTokenId) ||
    (row.refreshTokenId.isSome && row.refreshTokenId = row'.refreshTokenId)

/-- The tables. Of an account nothing but the uid is read here. -/
structure DeviceDb where
  accounts : List String
  sessionTokens : Table String SessionRow
  refreshTokens : Table String RefreshRow
  devices : Table String DeviceRow
  deriving DecidableEq

namespace DeviceDb

/-- A database without accounts. -/
def fresh : DeviceDb := ⟨[], ∅, ∅, ∅⟩

instance : Inhabited DeviceDb := ⟨fresh⟩

variable (db : DeviceDb)

/-! ### Accounts -/

/-- `create_account`, of a uid that is not taken. -/
def createAccount (uid : String) : DeviceDb := { db with accounts := uid :: db.accounts }

/-- `delete_account`: every table cascades on the uid, and devices on their sessions. -/
def deleteAccount (uid : String) : DeviceDb where
  accounts := db.accounts.filter (· ≠ uid)
  sessionTokens := db.sessionTokens.deleteWhere fun _ row => row.uid = uid
  refreshTokens := db.refreshTokens.deleteWhere fun _ row => row.uid = uid
  devices := db.devices.deleteWhere fun _ row =>
    row.uid = uid || (row.sessionTokenId.bind db.sessionTokens.find?).any (·.uid = uid)

/-! ### Session tokens -/

/-- `session_token`. -/
def sessionToken (tokenId : String) : Option SessionRow := db.sessionTokens.find? tokenId

/-- What `create_session_token` asks of a row: a key of its own and an account. -/
def takesSession (tokenId uid : String) : Bool := (db.sessionToken tokenId).isNone && uid ∈ db.accounts

/-- `create_session_token`, where no constraint is violated. -/
def createSessionToken (tokenId : String) (row : SessionRow) : DeviceDb :=
  { db with sessionTokens := db.sessionTokens.set tokenId row }

/-- An `UPDATE` of one session token. -/
def updateSession (tokenId : String) (update : SessionRow → SessionRow) : DeviceDb :=
  match db.sessionToken tokenId with
  | none => db
  | some row => { db with sessionTokens := db.sessionTokens.set tokenId (update row) }

/-- `touch_session_token`. -/
def touchSessionToken (tokenId : String) (lastAccessTime : ℤ) : DeviceDb :=
  db.updateSession tokenId fun row => { row with lastAccessTime }

/-- `reauthenticate_session_token`. -/
def reauthenticateSessionToken (tokenId : String) (authAt : ℤ) : DeviceDb :=
  db.updateSession tokenId fun row => { row with authAt, lastAccessTime := authAt }

/-- `delete_session_token`: its device goes with it. -/
def deleteSessionToken (tokenId : String) : DeviceDb :=
  { db with
    sessionTokens := db.sessionTokens.deleteWhere fun key _ => key = tokenId
    devices :=
      if (db.sessionToken tokenId).isSome then db.devices.deleteWhere fun _ row => row.pointsTo (.session tokenId)
      else db.devices }

/-- `session_tokens`, in the order of their creation. -/
def sessionTokensOf (uid : String) : List (String × SessionRow) :=
  (db.sessionTokens.select fun _ row => row.uid = uid).mergeSort fun a b => a.2.createdAt ≤ b.2.createdAt

/-! ### Refresh tokens -/

/-- `refresh_token`. -/
def refreshToken (tokenId : String) : Option RefreshRow := db.refreshTokens.find? tokenId

/-- What `create_refresh_token` asks of a row: a key of its own and an account. -/
def takesRefresh (tokenId uid : String) : Bool := (db.refreshToken tokenId).isNone && uid ∈ db.accounts

/-- `create_refresh_token`, where no constraint is violated. -/
def createRefreshToken (tokenId : String) (row : RefreshRow) : DeviceDb :=
  { db with refreshTokens := db.refreshTokens.set tokenId row }

/-- `touch_refresh_token`. -/
def touchRefreshToken (tokenId : String) (lastUsedAt : ℤ) : DeviceDb :=
  match db.refreshToken tokenId with
  | none => db
  | some row => { db with refreshTokens := db.refreshTokens.set tokenId { row with lastUsedAt } }

/-- `delete_refresh_token`: no device goes with it. -/
def deleteRefreshToken (tokenId : String) : DeviceDb :=
  { db with refreshTokens := db.refreshTokens.deleteWhere fun key _ => key = tokenId }

/-- `refresh_tokens`, in the order of their creation. -/
def refreshTokensOf (uid : String) : List (String × RefreshRow) :=
  (db.refreshTokens.select fun _ row => row.uid = uid).mergeSort fun a b => a.2.createdAt ≤ b.2.createdAt

/-! ### Devices -/

/-- A row with its id. -/
def deviceOf (entry : String × DeviceRow) : Device := ⟨entry.2, entry.1⟩

/-- `device`. -/
def device (uid id : String) : Option Device := ((db.devices.find? id).filter (·.uid = uid)).map (deviceOf ⟨id, ·⟩)

/-- The device of a token. -/
def deviceBy (credential : Credential) : Option Device :=
  (db.devices.select fun _ row => row.pointsTo credential).head?.map deviceOf

/-- `device_by_session_token`. -/
def deviceBySessionToken (tokenId : String) : Option Device := db.deviceBy (.session tokenId)

/-- `device_by_refresh_token`. -/
def deviceByRefreshToken (tokenId : String) : Option Device := db.deviceBy (.refresh tokenId)

/-- `devices`, in the order of their creation. -/
def devicesOf (uid : String) : List Device :=
  ((db.devices.select fun _ row => row.uid = uid).map deviceOf).mergeSort fun a b => a.createdAt ≤ b.createdAt

/-- What `upsert_device` asks of a device: an account if it is new, a session that is there if it points at
one, and no other device with its owner. -/
def takesDevice (device : Device) : Bool :=
  ((db.devices.find? device.id).isSome || device.uid ∈ db.accounts) &&
    device.sessionTokenId.all (fun tokenId => (db.sessionToken tokenId).isSome) &&
    db.devices.count (fun id row => id ≠ device.id && row.clashes device.toDeviceRow) = 0

/-- `upsert_device`, where no constraint is violated: a device that is there keeps its account and its age. -/
def upsertDevice (device : Device) : DeviceDb :=
  { db with
    devices := db.devices.upsert device.id device.toDeviceRow fun old =>
      { device.toDeviceRow with uid := old.uid, createdAt := old.createdAt } }

/-- The transaction of `delete_device`: the device, and whatever it points at. -/
def removeDevice (uid : String) (device : Device) : DeviceDb :=
  let db := { db with devices := db.devices.deleteWhere fun id row => row.uid = uid && id = device.id }
  let db := (device.sessionTokenId.filter (· ≠ "")).elim db db.deleteSessionToken
  (device.refreshTokenId.filter (· ≠ "")).elim db db.deleteRefreshToken

/-! ### What is found -/

variable {db} {uid tokenId key id : String} {device : Device} {credential : Credential}

/-- A session that is made is found under its key. -/
@[simp] theorem sessionToken_createSessionToken (row : SessionRow) :
    (db.createSessionToken tokenId row).sessionToken key = if key = tokenId then some row else db.sessionToken key := by
  simp [sessionToken, createSessionToken]

/-- An update is found in its row. -/
theorem sessionToken_updateSession (update : SessionRow → SessionRow) :
    (db.updateSession tokenId update).sessionToken key =
      if key = tokenId then (db.sessionToken tokenId).map update else db.sessionToken key := by
  unfold updateSession
  cases hrow : db.sessionToken tokenId with
  | none =>
    by_cases hkey : key = tokenId
    · simp [hkey, hrow]
    · simp [hkey]
  | some row => simp [sessionToken]

/-- And nowhere else. -/
@[simp] theorem updateSession_frame (update : SessionRow → SessionRow) :
    (db.updateSession tokenId update).accounts = db.accounts ∧
      (db.updateSession tokenId update).refreshTokens = db.refreshTokens ∧
      (db.updateSession tokenId update).devices = db.devices := by
  unfold updateSession
  split <;> simp

/-- A session that is deleted is gone. -/
@[simp] theorem sessionToken_deleteSessionToken :
    (db.deleteSessionToken tokenId).sessionToken key = if key = tokenId then none else db.sessionToken key :=
  Table.find?_deleteKey _ _ _

/-- What is left of the devices. -/
theorem find?_deleteSessionToken {row : DeviceRow} (h : (db.deleteSessionToken tokenId).devices.find? id = some row) :
    db.devices.find? id = some row ∧ ((db.sessionToken tokenId).isSome = true → row.pointsTo (.session tokenId) = false) := by
  unfold deleteSessionToken at h
  dsimp only at h
  split at h
  · rw [Table.find?_deleteWhere, Option.filter_eq_some_iff] at h
    exact ⟨h.1, fun _ => by simpa using h.2⟩
  · rename_i hnone
    exact ⟨h, fun hsome => absurd hsome hnone⟩

/-- A refresh token that is made is found under its key. -/
@[simp] theorem refreshToken_createRefreshToken (row : RefreshRow) :
    (db.createRefreshToken tokenId row).refreshToken key = if key = tokenId then some row else db.refreshToken key := by
  simp [refreshToken, createRefreshToken]

/-- One that is spent keeps everything but the time. -/
theorem refreshToken_touchRefreshToken (at' : ℤ) :
    (db.touchRefreshToken tokenId at').refreshToken key =
      if key = tokenId then (db.refreshToken tokenId).map fun row => { row with lastUsedAt := at' } else db.refreshToken key := by
  unfold touchRefreshToken
  cases hrow : db.refreshToken tokenId with
  | none =>
    by_cases hkey : key = tokenId
    · simp [hkey, hrow]
    · simp [hkey]
  | some row => simp [refreshToken]

/-- Nothing else changes. -/
@[simp] theorem touchRefreshToken_frame (at' : ℤ) :
    (db.touchRefreshToken tokenId at').accounts = db.accounts ∧
      (db.touchRefreshToken tokenId at').sessionTokens = db.sessionTokens ∧
      (db.touchRefreshToken tokenId at').devices = db.devices := by
  unfold touchRefreshToken
  split <;> simp

/-- A refresh token that is deleted is gone. -/
@[simp] theorem refreshToken_deleteRefreshToken :
    (db.deleteRefreshToken tokenId).refreshToken key = if key = tokenId then none else db.refreshToken key :=
  Table.find?_deleteKey _ _ _

/-- The sessions of the other accounts are left. -/
@[simp] theorem sessionToken_deleteAccount :
    (db.deleteAccount uid).sessionToken key = (db.sessionToken key).filter (·.uid ≠ uid) := by
  simp [sessionToken, deleteAccount]

/-- And their refresh tokens. -/
@[simp] theorem refreshToken_deleteAccount :
    (db.deleteAccount uid).refreshToken key = (db.refreshToken key).filter (·.uid ≠ uid) := by
  simp [refreshToken, deleteAccount]

/-- And their devices, but for those that point at a session of the account. -/
theorem find?_deleteAccount {row : DeviceRow} (h : (db.deleteAccount uid).devices.find? id = some row) :
    db.devices.find? id = some row ∧ row.uid ≠ uid ∧
      ∀ session, row.sessionTokenId.bind db.sessionTokens.find? = some session → session.uid ≠ uid := by
  rw [deleteAccount, Table.find?_deleteWhere, Option.filter_eq_some_iff] at h
  obtain ⟨hfind, hkept⟩ := h
  simp only [Bool.not_eq_true', Bool.or_eq_false_iff, decide_eq_false_iff_not, Option.any_eq_false] at hkept
  exact ⟨hfind, hkept.1, hkept.2⟩

/-- A device is found under its account and its id. -/
theorem device_eq_some : db.device uid id = some device ↔
    db.devices.find? id = some device.toDeviceRow ∧ device.uid = uid ∧ device.id = id := by
  obtain ⟨row, id'⟩ := device
  simp only [DeviceDb.device, deviceOf, Option.map_eq_some_iff, Option.filter_eq_some_iff, decide_eq_true_eq, Device.mk.injEq]
  constructor
  · rintro ⟨row', ⟨hfind, huid⟩, rfl, rfl⟩
    exact ⟨hfind, huid, rfl⟩
  · rintro ⟨hfind, huid, rfl⟩
    exact ⟨row, ⟨hfind, huid⟩, rfl, rfl⟩

/-- The device of a token points at it. -/
theorem pointsTo_of_deviceBy (h : db.deviceBy credential = some device) :
    db.devices.find? device.id = some device.toDeviceRow ∧ device.pointsTo credential = true := by
  obtain ⟨entry, hentry, rfl⟩ := Option.map_eq_some_iff.mp h
  exact Table.mem_select.mp (List.mem_of_head? hentry)

/-- What a device that may be stored asks for. -/
theorem takesDevice_eq_true : db.takesDevice device = true ↔
    ((db.devices.find? device.id).isSome = true ∨ device.uid ∈ db.accounts) ∧
      (∀ tokenId, device.sessionTokenId = some tokenId → (db.sessionToken tokenId).isSome = true) ∧
      ∀ id row, db.devices.find? id = some row → id ≠ device.id → row.clashes device.toDeviceRow = false := by
  have hall : device.sessionTokenId.all (fun tokenId => (db.sessionToken tokenId).isSome) = true ↔
      ∀ tokenId, device.sessionTokenId = some tokenId → (db.sessionToken tokenId).isSome = true := by
    cases device.sessionTokenId <;> simp
  simp only [takesDevice, Bool.and_eq_true, Bool.or_eq_true, decide_eq_true_eq, Table.count_eq_zero_iff, Bool.and_eq_false_imp,
    hall, and_assoc]

end DeviceDb

end FxaLite.Devices
