import FxaLite.Accounts.AttachedClients
import FxaLite.Devices.Routes
import Mathlib.Data.List.Lex

/-!
# The route of the attached clients

`attached_clients.py` before and after its merge: what it makes of the devices, the refresh tokens and the
sessions of an account, and the order in which the grants are listed.
-/

namespace FxaLite.Devices

open Concurrent
open Accounts (AttachedDevice AttachedOAuthClient AttachedSession Client)

variable (host : Host)

/-- `text or None`. -/
def textOrNone (text : String) : Option (List Char) := if text = "" then none else some text.toList

/-- A device as the merge takes it. -/
def attachedDevice (device : Device) (lastAccess : ℤ) : AttachedDevice where
  id := device.id.toList
  sessionTokenId := device.sessionTokenId.map String.toList
  refreshTokenId := device.refreshTokenId.map String.toList
  name := textOrNone device.name
  type := textOrNone device.type
  createdAt := some device.createdAt
  lastAccessTime := some lastAccess

/-- The loop of `_devices`. -/
def attachedDevicesFrom (filterIdleBefore : Option ℤ) : List Device → Program (List AttachedDevice)
  | [] => .done (.ok [])
  | device :: rest =>
    (lastAccessTime device).bind fun lastAccess =>
      (attachedDevicesFrom filterIdleBefore rest).andThen fun attached =>
        if isIdle filterIdleBefore lastAccess then .done (.ok attached) else .done (.ok (attachedDevice device lastAccess :: attached))

/-- `_client_name`. -/
def grantName (clientId : String) : String := (host.clients.get clientId).elim clientId fun client => host.clientName client.id

/-- A grant as the merge takes it; its scopes are sorted. -/
def attachedGrant (grant : String × RefreshRow) : Except DeviceError AttachedOAuthClient :=
  match OAuth.readScope grant.2.scope with
  | .error _ => .error .uncaught
  | .ok scope =>
    .ok
      { clientId := grant.2.clientId.toList
        clientName := (grantName host grant.2.clientId).toList
        refreshTokenId := some grant.1.toList
        createdTime := grant.2.createdAt
        lastAccessTime := grant.2.lastUsedAt
        scope := scope.values.mergeSort (· ≤ ·) }

/-- `_grant_order`: the newest first, then by name, creation and scope. -/
def grantOrder (a b : AttachedOAuthClient) : Ordering :=
  (compare b.lastAccessTime a.lastAccessTime).then
    ((compare a.clientName b.clientName).then
      ((compare a.createdTime b.createdTime).then (compare ([','].intercalate a.scope) ([','].intercalate b.scope))))

/-- `authorized_clients`, of the tokens that were read. -/
def authorizedClients (grants : List (String × RefreshRow)) : Except DeviceError (List AttachedOAuthClient) :=
  (grants.mapM (attachedGrant host)).map (·.mergeSort fun a b => grantOrder a b ≠ .gt)

/-- A session as the merge takes it. -/
def attachedSession (session : String × SessionRow) : AttachedSession where
  id := session.1.toList
  createdAt := session.2.createdAt
  lastAccessTime := session.2.lastAccessTime
  userAgent := parse session.2.userAgent

/-- `attached_clients`. -/
def attachedClients (header : Option (List Char)) (filterIdleDevicesTimestamp : Option ℤ) (now : ℤ) : Program (List Client) :=
  (sessionCredentials header).andThen fun session =>
    .act (·.touchSessionToken session.1 now) (.read fun db =>
      (attachedDevicesFrom filterIdleDevicesTimestamp (db.devicesOf session.2.uid)).andThen fun devices =>
        .read fun db =>
          match authorizedClients host (db.refreshTokensOf session.2.uid) with
          | .error raised => .done (.error raised)
          | .ok grants => .read fun db =>
            .done (.ok (Accounts.merge devices grants ((db.sessionTokensOf session.2.uid).map attachedSession) session.1.toList)))

end FxaLite.Devices
