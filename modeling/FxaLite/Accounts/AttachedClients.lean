import FxaLite.Lib.Claims
import FxaLite.Lib.Dict
import FxaLite.Lib.PyText
import Mathlib.Data.List.MinMax

/-!
# The list of attached clients

`attached_clients.py` merges devices, OAuth grants and sessions into one list of rows. A row is a
dictionary that later passes change in place, so an index says which row it is, not what is in it.
The table that the list is meant to be is stated apart: one part of the input for each row, and what
a row shows of its part.
-/

namespace FxaLite.Accounts

/-- A text that Python takes for true. -/
def truthy (text : Option (List Char)) : Bool := text.any (· ≠ [])

/-- `UserAgent`. -/
structure UserAgent where
  browser : List Char
  browserVersion : List Char
  os : List Char
  deriving DecidableEq

/-- `AttachedDevice`. -/
structure AttachedDevice where
  id : List Char
  sessionTokenId : Option (List Char)
  refreshTokenId : Option (List Char)
  name : Option (List Char)
  type : Option (List Char)
  createdAt : Option ℤ
  lastAccessTime : Option ℤ
  deriving DecidableEq

/-- `AttachedOAuthClient`. -/
structure AttachedOAuthClient where
  clientId : List Char
  clientName : List Char
  refreshTokenId : Option (List Char)
  createdTime : ℤ
  lastAccessTime : ℤ
  scope : List (List Char)
  deriving DecidableEq

/-- `AttachedSession`. -/
structure AttachedSession where
  id : List Char
  createdAt : ℤ
  lastAccessTime : ℤ
  userAgent : UserAgent
  deriving DecidableEq

/-- A row, without the members that are the same in every one. -/
structure Client where
  clientId : Option (List Char)
  deviceId : Option (List Char)
  sessionTokenId : Option (List Char)
  refreshTokenId : Option (List Char)
  isCurrentSession : Bool
  deviceType : Option (List Char)
  name : Option (List Char)
  createdTime : Option ℤ
  lastAccessTime : Option ℤ
  scope : Option (List (List Char))
  userAgent : List Char
  os : Option (List Char)
  deriving DecidableEq

/-- `_defaults`. -/
def defaults : Client where
  clientId := none
  deviceId := none
  sessionTokenId := none
  refreshTokenId := none
  isCurrentSession := false
  deviceType := none
  name := none
  createdTime := none
  lastAccessTime := some 0
  scope := none
  userAgent := []
  os := none

/-! ### The pieces of a row -/

/-- `describe`. -/
def describe (parsed : UserAgent) : List Char :=
  if parsed.browser = [] then [] else Py.strip (parsed.browser ++ ' ' :: parsed.browserVersion)

/-- `synthesize`. -/
def synthesize (parsed : UserAgent) : List Char :=
  (", ".toList).intercalate ((if parsed.browser = [] then [] else [Py.strip (parsed.browser ++ ' ' :: parsed.browserVersion)]) ++
    if parsed.os = [] then [] else [parsed.os])

/-- `str.replace` of a text that is not empty, after so many characters that are part of the last one. -/
def replaceFrom (old new : List Char) : ℕ → List Char → List Char
  | _, [] => []
  | skip + 1, _ :: rest => replaceFrom old new skip rest
  | 0, c :: rest =>
    if old.isPrefixOf (c :: rest) then new ++ replaceFrom old new (old.length - 1) rest
    else c :: replaceFrom old new 0 rest

/-- `_earliest`. -/
def earliest (current : Option ℤ) (candidate : ℤ) : ℤ :=
  match current with
  | none => candidate
  | some time => if time = 0 then candidate else min time candidate

/-- `_latest`. -/
def latest (current : Option ℤ) (candidate : ℤ) : ℤ :=
  match current with
  | none => candidate
  | some time => if time = 0 then candidate else max time candidate

/-! ### Merging -/

/-- The row of a device. -/
def ofDevice (device : AttachedDevice) : Client :=
  { defaults with
    sessionTokenId := device.sessionTokenId
    refreshTokenId := none
    deviceId := some device.id
    deviceType := device.type
    name := device.name
    createdTime := device.createdAt
    lastAccessTime := device.lastAccessTime }

/-- What a grant says in whichever row it is in. -/
def withGrant (grant : AttachedOAuthClient) (client : Client) : Client :=
  { client with
    clientId := some grant.clientId
    scope := some grant.scope
    createdTime := some (earliest client.createdTime grant.createdTime)
    lastAccessTime := some (latest client.lastAccessTime grant.lastAccessTime)
    name := if truthy client.name then client.name else some grant.clientName
    deviceType := if truthy client.deviceId && !truthy client.deviceType then some "mobile".toList else client.deviceType }

/-- A grant in the row of a device. -/
def updateWithGrant (grant : AttachedOAuthClient) (client : Client) : Client :=
  withGrant grant { client with refreshTokenId := grant.refreshTokenId }

/-- A row for a grant. -/
def ofGrant (grant : AttachedOAuthClient) : Client :=
  withGrant grant
    { defaults with
      refreshTokenId := grant.refreshTokenId
      createdTime := some grant.createdTime
      lastAccessTime := some grant.lastAccessTime }

/-- What a session says in whichever row it is in. -/
def withSession (current : List Char) (session : AttachedSession) (client : Client) : Client :=
  { client with
    createdTime := some (earliest client.createdTime session.createdAt)
    lastAccessTime := some (latest client.lastAccessTime session.lastAccessTime)
    isCurrentSession := client.sessionTokenId = some current
    scope := none
    userAgent := describe session.userAgent
    os := if session.userAgent.os = [] then none else some session.userAgent.os
    name := if truthy client.name then client.name else some (synthesize session.userAgent) }

/-- A row for a session. -/
def ofSession (current : List Char) (session : AttachedSession) : Client :=
  withSession current session { defaults with sessionTokenId := some session.id, createdTime := some session.createdAt }

/-- The last pass over a row. -/
def finish (client : Client) : Client :=
  { client with
    deviceType := if truthy client.deviceId && !truthy client.deviceType then some "desktop".toList else client.deviceType
    name := if truthy client.name then client.name.map (replaceFrom "Mac OS X".toList "macOS".toList 0) else client.name }

/-- An index of rows by a pointer that devices have. -/
abbrev Index := List (List Char × ℕ)

/-- A device in an index. -/
def Index.add (index : Index) (pointer : Option (List Char)) (row : ℕ) : Index :=
  match pointer with
  | some id => if id ≠ [] then Dict.put index id row else index
  | none => index

/-- The rows, and which of them is whose. -/
structure Pass where
  clients : List Client
  bySessionToken : Index
  byRefreshToken : Index

/-- One turn of the first loop. -/
def Pass.addDevice (pass : Pass) (device : AttachedDevice) : Pass where
  clients := pass.clients ++ [ofDevice device]
  bySessionToken := pass.bySessionToken.add device.sessionTokenId pass.clients.length
  byRefreshToken := pass.byRefreshToken.add device.refreshTokenId pass.clients.length

/-- One turn of the second loop. -/
def addGrant (byRefreshToken : Index) (clients : List Client) (grant : AttachedOAuthClient) : List Client :=
  match Dict.get? byRefreshToken (grant.refreshTokenId.getD []) with
  | some row => clients.modify row (updateWithGrant grant)
  | none => clients ++ [ofGrant grant]

/-- One turn of the third loop. -/
def addSession (current : List Char) (bySessionToken : Index) (clients : List Client) (session : AttachedSession) : List Client :=
  match Dict.get? bySessionToken session.id with
  | some row => clients.modify row (withSession current session)
  | none => clients ++ [ofSession current session]

/-- `merge`. -/
def merge (devices : List AttachedDevice) (oauthClients : List AttachedOAuthClient) (sessions : List AttachedSession)
    (currentSessionTokenId : List Char) : List Client :=
  let pass := devices.foldl Pass.addDevice ⟨[], [], []⟩
  let clients := oauthClients.foldl (addGrant pass.byRefreshToken) pass.clients
  let clients := sessions.foldl (addSession currentSessionTokenId pass.bySessionToken) clients
  clients.map finish

/-! ### The table that the list is meant to be -/

/-- A device points at a grant. -/
def AttachedDevice.claimsGrant (device : AttachedDevice) (grant : AttachedOAuthClient) : Bool :=
  truthy device.refreshTokenId && device.refreshTokenId = grant.refreshTokenId

/-- A device points at a session. -/
def AttachedDevice.claimsSession (device : AttachedDevice) (session : AttachedSession) : Bool :=
  truthy device.sessionTokenId && device.sessionTokenId = some session.id

/-- What a row is made of. -/
structure Part where
  device : Option AttachedDevice
  grant : Option AttachedOAuthClient
  session : Option AttachedSession

/-- When its parts were created, as far as that is known. -/
def Part.creations (part : Part) : List ℤ :=
  (part.device.bind (·.createdAt)).toList ++ (part.grant.map (·.createdTime)).toList ++ (part.session.map (·.createdAt)).toList

/-- When its parts were last used, as far as that is known. -/
def Part.accesses (part : Part) : List ℤ :=
  (part.device.bind (·.lastAccessTime)).toList ++ (part.grant.map (·.lastAccessTime)).toList ++
    (part.session.map (·.lastAccessTime)).toList

/-- One part for each device, with the grant and the session that it points at, and one for each grant
and each session that no device points at. -/
def parts (devices : List AttachedDevice) (grants : List AttachedOAuthClient) (sessions : List AttachedSession) : List Part :=
  (devices.map fun device => ⟨some device, Claims.claimed AttachedDevice.claimsGrant grants device,
    Claims.claimed AttachedDevice.claimsSession sessions device⟩) ++
  ((Claims.unclaimed AttachedDevice.claimsGrant devices grants).map fun grant => ⟨none, some grant, none⟩) ++
  (Claims.unclaimed AttachedDevice.claimsSession devices sessions).map fun session => ⟨none, none, some session⟩

/-- What a row shows of its part, to the session that asks. -/
structure Shows (current : List Char) (part : Part) (row : Client) : Prop where
  deviceId : row.deviceId = part.device.map (·.id)
  refreshTokenId : row.refreshTokenId = part.grant.bind (·.refreshTokenId)
  sessionTokenId : ∀ session, part.session = some session → row.sessionTokenId = some session.id
  createdTime : row.createdTime = part.creations.min?
  lastAccessTime : row.lastAccessTime = part.accesses.max?
  isCurrentSession : row.isCurrentSession = true ↔ ∃ session, part.session = some session ∧ session.id = current

/-- Distinct ids, distinct pointers, and timestamps that are positive where they are known. -/
structure Distinct (devices : List AttachedDevice) (grants : List AttachedOAuthClient) (sessions : List AttachedSession) : Prop where
  sessionPointers : ((devices.filterMap (·.sessionTokenId)).filter (· ≠ [])).Nodup
  refreshPointers : ((devices.filterMap (·.refreshTokenId)).filter (· ≠ [])).Nodup
  grantIds : (grants.filterMap (·.refreshTokenId)).Nodup
  sessionIds : (sessions.map (·.id)).Nodup
  deviceTimes : ∀ device ∈ devices, (∀ time ∈ device.createdAt, 0 < time) ∧ ∀ time ∈ device.lastAccessTime, 0 < time
  grantTimes : ∀ grant ∈ grants, 0 < grant.createdTime ∧ 0 < grant.lastAccessTime
  sessionTimes : ∀ session ∈ sessions, 0 < session.createdAt ∧ 0 < session.lastAccessTime

/-! ### The list is that table -/

section Merging

variable {devices devices' : List AttachedDevice} {grants grants' : List AttachedOAuthClient}
  {sessions sessions' : List AttachedSession} {current : List Char}

/-- A text that is there and not empty. -/
theorem truthy_eq_true {text : Option (List Char)} : truthy text = true ↔ ∃ id, text = some id ∧ id ≠ [] := by
  cases text <;> simp [truthy]

/-- What is found after a device has been added. -/
theorem get?_add (index : Index) (pointer : Option (List Char)) (row : ℕ) (key : List Char) :
    Dict.get? (index.add pointer row) key = if truthy pointer && pointer = some key then some row else Dict.get? index key := by
  cases pointer with
  | none => simp [Index.add, truthy]
  | some id =>
    by_cases hid : id = []
    · simp [Index.add, truthy, hid]
    · by_cases hkey : key = id
      · simp [Index.add, truthy, hid, hkey]
      · simp [Index.add, truthy, hid, hkey, Ne.symm hkey]

/-- The row of a pointer when one more device is there. -/
theorem findIdx?_concat (pointer : AttachedDevice → Option (List Char)) (key : List Char) {device : AttachedDevice}
    (hnodup : (((devices ++ [device]).filterMap pointer).filter (· ≠ [])).Nodup) :
    ((devices ++ [device]).findIdx? fun device => truthy (pointer device) && pointer device = some key) =
      if truthy (pointer device) && pointer device = some key then some devices.length
      else devices.findIdx? fun device => truthy (pointer device) && pointer device = some key := by
  rw [List.findIdx?_append]
  by_cases hkey : (truthy (pointer device) && decide (pointer device = some key)) = true
  · have hnone : (devices.findIdx? fun device => truthy (pointer device) && pointer device = some key) = none := by
      refine List.findIdx?_eq_none_iff.mpr fun d hd => ?_
      simp only [Bool.and_eq_true, decide_eq_true_eq, truthy_eq_true, List.filterMap_append, List.filter_append] at hkey hnodup
      obtain ⟨⟨id, hid, hne⟩, hpointer⟩ := hkey
      by_contra hclaim
      simp only [Bool.not_eq_false, Bool.and_eq_true, decide_eq_true_eq] at hclaim
      have hmem : key ∈ (devices.filterMap pointer).filter (· ≠ []) :=
        List.mem_filter.mpr ⟨List.mem_filterMap.mpr ⟨d, hd, hclaim.2⟩, by simp_all⟩
      have hlast : key ∈ ([device].filterMap pointer).filter (· ≠ []) := by simp_all
      exact (List.nodup_append.mp hnodup).2.2 key hmem key hlast rfl
    simp [hnone, hkey]
  · simp [hkey]

/-- The first loop. -/
theorem foldl_addDevice (hsessions : ((devices.filterMap (·.sessionTokenId)).filter (· ≠ [])).Nodup)
    (hrefreshes : ((devices.filterMap (·.refreshTokenId)).filter (· ≠ [])).Nodup) :
    (devices.foldl Pass.addDevice ⟨[], [], []⟩).clients = devices.map ofDevice ∧
      (∀ key, Dict.get? (devices.foldl Pass.addDevice ⟨[], [], []⟩).bySessionToken key =
        devices.findIdx? fun device => truthy device.sessionTokenId && device.sessionTokenId = some key) ∧
      ∀ key, Dict.get? (devices.foldl Pass.addDevice ⟨[], [], []⟩).byRefreshToken key =
        devices.findIdx? fun device => truthy device.refreshTokenId && device.refreshTokenId = some key := by
  induction devices using List.reverseRecOn with
  | nil => exact ⟨rfl, fun _ => rfl, fun _ => rfl⟩
  | append_singleton devices device ih =>
    have hbeginning : ∀ pointer : AttachedDevice → Option (List Char),
        (((devices ++ [device]).filterMap pointer).filter (· ≠ [])).Nodup → ((devices.filterMap pointer).filter (· ≠ [])).Nodup := by
      intro pointer hnodup
      rw [List.filterMap_append, List.filter_append] at hnodup
      exact (List.nodup_append.mp hnodup).1
    obtain ⟨hclients, hbySession, hbyRefresh⟩ := ih (hbeginning _ hsessions) (hbeginning _ hrefreshes)
    rw [List.foldl_append, List.foldl_cons, List.foldl_nil]
    simp only [Pass.addDevice, hclients, List.length_map, get?_add, hbySession, hbyRefresh]
    refine ⟨by simp, fun key => ?_, fun key => ?_⟩
    · exact (findIdx?_concat (·.sessionTokenId) key hsessions).symm
    · exact (findIdx?_concat (·.refreshTokenId) key hrefreshes).symm

/-- Distinct pointers and distinct keys are claims that exclude each other. -/
theorem exclusive_of_nodup {α : Type} (pointer : AttachedDevice → Option (List Char)) (key : α → Option (List Char))
    {items : List α} (hpointers : ((devices.filterMap pointer).filter (· ≠ [])).Nodup) (hkeys : (items.filterMap key).Nodup) :
    Claims.Exclusive (fun device item => truthy (pointer device) && pointer device = key item) devices items where
  apart := by
    rw [List.Nodup, List.pairwise_filter, List.pairwise_filterMap] at hpointers
    refine hpointers.imp fun hne item _ hboth => ?_
    simp only [Bool.and_eq_true, decide_eq_true_eq, truthy_eq_true] at hboth
    obtain ⟨⟨⟨id, hid, hid'⟩, hkey⟩, -, hkey'⟩ := hboth
    exact hne id hid id (by rw [hkey', ← hkey, hid]) (by simpa using hid') (by simpa using hid') rfl
  single := by
    rw [List.Nodup, List.pairwise_filterMap] at hkeys
    refine hkeys.imp fun hne device _ hboth => ?_
    simp only [Bool.and_eq_true, decide_eq_true_eq, truthy_eq_true] at hboth
    obtain ⟨⟨⟨id, hid, -⟩, hkey⟩, -, hkey'⟩ := hboth
    exact hne id (by rw [← hkey, hid]) id (by rw [← hkey', hid]) rfl

/-- No grant is claimed twice, and no device claims two. -/
theorem exclusive_claimsGrant (h : Distinct devices grants sessions) :
    Claims.Exclusive AttachedDevice.claimsGrant devices grants :=
  exclusive_of_nodup AttachedDevice.refreshTokenId AttachedOAuthClient.refreshTokenId h.refreshPointers h.grantIds

/-- No session is claimed twice, and no device claims two. -/
theorem exclusive_claimsSession (h : Distinct devices grants sessions) :
    Claims.Exclusive AttachedDevice.claimsSession devices sessions :=
  exclusive_of_nodup AttachedDevice.sessionTokenId (some ∘ AttachedSession.id) h.sessionPointers
    (List.filterMap_eq_map ▸ h.sessionIds)

/-- The row of a part, before the last pass. -/
def Part.row (current : List Char) (part : Part) : Client :=
  match part.device with
  | some device =>
    part.session.elim (part.grant.elim (ofDevice device) fun grant => updateWithGrant grant (ofDevice device)) fun session =>
      withSession current session (part.grant.elim (ofDevice device) fun grant => updateWithGrant grant (ofDevice device))
  | none =>
    match part.grant with
    | some grant => ofGrant grant
    | none => part.session.elim defaults (ofSession current)

/-- The list has one row for each part. -/
theorem merge_eq_map_parts (h : Distinct devices grants sessions) :
    merge devices grants sessions current = (parts devices grants sessions).map fun part => finish (part.row current) := by
  obtain ⟨hclients, hbySession, hbyRefresh⟩ := foldl_addDevice h.sessionPointers h.refreshPointers
  have hgrant : addGrant (devices.foldl Pass.addDevice ⟨[], [], []⟩).byRefreshToken =
      Claims.attach AttachedDevice.claimsGrant devices updateWithGrant ofGrant := by
    funext clients grant
    have hkey : ∀ device : AttachedDevice,
        (truthy device.refreshTokenId && decide (device.refreshTokenId = some (grant.refreshTokenId.getD []))) =
          device.claimsGrant grant := by
      intro device
      cases hgrant : grant.refreshTokenId <;> cases hdevice : device.refreshTokenId <;>
        simp [AttachedDevice.claimsGrant, truthy, hgrant, hdevice]
    cases hrow : devices.findIdx? (AttachedDevice.claimsGrant · grant) <;>
      simp only [addGrant, Claims.attach, hbyRefresh, hkey, hrow]
  have hsession : addSession current (devices.foldl Pass.addDevice ⟨[], [], []⟩).bySessionToken =
      Claims.attach AttachedDevice.claimsSession devices (withSession current) (ofSession current) := by
    funext clients session
    have hkey : ∀ device : AttachedDevice, (truthy device.sessionTokenId && decide (device.sessionTokenId = some session.id)) =
        device.claimsSession session := fun _ => rfl
    cases hrow : devices.findIdx? (AttachedDevice.claimsSession · session) <;>
      simp only [addSession, Claims.attach, hbySession, hkey, hrow]
  have hgrants := Claims.foldl_attach (exclusive_claimsGrant h) ofDevice [] updateWithGrant ofGrant
  have hsessions := Claims.foldl_attach (exclusive_claimsSession h)
    (fun device => (Claims.claimed AttachedDevice.claimsGrant grants device).elim (ofDevice device) fun grant =>
      updateWithGrant grant (ofDevice device))
    ((Claims.unclaimed AttachedDevice.claimsGrant devices grants).map ofGrant) (withSession current) (ofSession current)
  rw [List.append_nil, List.append_nil] at hgrants
  simp only [merge, hclients, hgrant, hsession, hgrants, hsessions, parts, List.map_append, List.map_map]
  congr 1

/-- A time that may be known is the earliest of itself. -/
@[simp] theorem min?_toList (time : Option ℤ) : time.toList.min? = time := by
  cases time <;> rfl

/-- And the latest. -/
@[simp] theorem max?_toList (time : Option ℤ) : time.toList.max? = time := by
  cases time <;> rfl

/-- The earliest of some times and one that may be there. -/
theorem elim_earliest {times : List ℤ} (hpos : ∀ time ∈ times, 0 < time) (time : Option ℤ) :
    (time.elim times.min? fun time => some (earliest times.min? time)) = (times ++ time.toList).min? := by
  cases time with
  | none => simp
  | some time =>
    cases times with
    | nil => rfl
    | cons first times =>
      have hmin : (first :: times).min? = some (times.foldl min first) := rfl
      have hne : times.foldl min first ≠ 0 := ne_of_gt (hpos _ (List.min?_mem hmin))
      rw [Option.elim_some, hmin, earliest, if_neg hne, List.cons_append, List.min?_cons', List.foldl_append]
      rfl

/-- The latest of some times and one that may be there. -/
theorem elim_latest {times : List ℤ} (hpos : ∀ time ∈ times, 0 < time) (time : Option ℤ) :
    (time.elim times.max? fun time => some (latest times.max? time)) = (times ++ time.toList).max? := by
  cases time with
  | none => simp
  | some time =>
    cases times with
    | nil => rfl
    | cons first times =>
      have hmax : (first :: times).max? = some (times.foldl max first) := rfl
      have hne : times.foldl max first ≠ 0 := ne_of_gt (hpos _ (List.max?_mem hmax))
      rw [Option.elim_some, hmax, latest, if_neg hne, List.cons_append, List.max?_cons', List.foldl_append]
      rfl

/-- What is there of a part: a device with what it points at, or one grant, or one session. -/
theorem mem_parts {part : Part} (hpart : part ∈ parts devices grants sessions) :
    (∃ device ∈ devices, part = ⟨some device, Claims.claimed AttachedDevice.claimsGrant grants device,
      Claims.claimed AttachedDevice.claimsSession sessions device⟩) ∨
    (∃ grant ∈ grants, part = ⟨none, some grant, none⟩) ∨ ∃ session ∈ sessions, part = ⟨none, none, some session⟩ := by
  rw [parts, List.mem_append, List.mem_append] at hpart
  obtain (hdevice | hgrant) | hsession := hpart
  · obtain ⟨device, hmem, rfl⟩ := List.mem_map.mp hdevice
    exact Or.inl ⟨device, hmem, rfl⟩
  · obtain ⟨grant, hmem, rfl⟩ := List.mem_map.mp hgrant
    exact Or.inr (Or.inl ⟨grant, List.mem_of_mem_filter hmem, rfl⟩)
  · obtain ⟨session, hmem, rfl⟩ := List.mem_map.mp hsession
    exact Or.inr (Or.inr ⟨session, List.mem_of_mem_filter hmem, rfl⟩)

/-- The row of a device shows it with what it points at. -/
theorem shows_row_of_device {device : AttachedDevice} {grant : Option AttachedOAuthClient} {session : Option AttachedSession}
    (hdevice : (∀ time ∈ device.createdAt, 0 < time) ∧ ∀ time ∈ device.lastAccessTime, 0 < time)
    (hgrant : ∀ g ∈ grant, 0 < g.createdTime ∧ 0 < g.lastAccessTime)
    (hsession : ∀ s ∈ session, device.sessionTokenId = some s.id) :
    Shows current ⟨some device, grant, session⟩ (finish (Part.row current ⟨some device, grant, session⟩)) := by
  have hcreated : ∀ time ∈ device.createdAt.toList ++ (grant.map (·.createdTime)).toList, 0 < time := by
    intro time htime
    obtain htime | htime := List.mem_append.mp htime
    · exact hdevice.1 time (Option.mem_toList.mp htime)
    · obtain ⟨g, hg, rfl⟩ := Option.map_eq_some_iff.mp (Option.mem_toList.mp htime)
      exact (hgrant g hg).1
  have haccess : ∀ time ∈ device.lastAccessTime.toList ++ (grant.map (·.lastAccessTime)).toList, 0 < time := by
    intro time htime
    obtain htime | htime := List.mem_append.mp htime
    · exact hdevice.2 time (Option.mem_toList.mp htime)
    · obtain ⟨g, hg, rfl⟩ := Option.map_eq_some_iff.mp (Option.mem_toList.mp htime)
      exact (hgrant g hg).2
  -- The device first, then the grant, then the session: each pass merges one more time.
  have hearliest := elim_earliest (fun t ht => hdevice.1 t (Option.mem_toList.mp ht)) (grant.map (·.createdTime))
  have hlatest := elim_latest (fun t ht => hdevice.2 t (Option.mem_toList.mp ht)) (grant.map (·.lastAccessTime))
  have hcreations := elim_earliest hcreated (session.map (·.createdAt))
  have haccesses := elim_latest haccess (session.map (·.lastAccessTime))
  rw [min?_toList] at hearliest
  rw [max?_toList] at hlatest
  rw [← hearliest] at hcreations
  rw [← hlatest] at haccesses
  refine ⟨?_, ?_, ?_, ?_, ?_, ?_⟩
  · cases grant <;> cases session <;> rfl
  · cases grant <;> cases session <;> rfl
  · rintro s rfl
    exact Eq.trans (by cases grant <;> rfl) (hsession s rfl)
  · refine Eq.trans ?_ hcreations
    cases grant <;> cases session <;> rfl
  · refine Eq.trans ?_ haccesses
    cases grant <;> cases session <;> rfl
  · cases session with
    | none =>
      have hrow : (finish (Part.row current ⟨some device, grant, none⟩)).isCurrentSession = false := by
        cases grant <;> rfl
      rw [hrow]
      simp
    | some s =>
      have hrow : (finish (Part.row current ⟨some device, grant, some s⟩)).isCurrentSession =
          decide (device.sessionTokenId = some current) := by
        cases grant <;> rfl
      rw [hrow, hsession s rfl]
      simp

/-- The row of a part shows it. -/
theorem shows_row (h : Distinct devices grants sessions) {part : Part} (hpart : part ∈ parts devices grants sessions) :
    Shows current part (finish (part.row current)) := by
  obtain ⟨device, hdevice, rfl⟩ | ⟨grant, hgrant, rfl⟩ | ⟨session, hsession, rfl⟩ := mem_parts hpart
  · refine shows_row_of_device (h.deviceTimes device hdevice) (fun grant hgrant => ?_) fun session hsession => ?_
    · exact h.grantTimes grant (List.mem_of_find?_eq_some hgrant)
    · have hclaims := List.find?_some hsession
      simp only [AttachedDevice.claimsSession, Bool.and_eq_true, decide_eq_true_eq] at hclaims
      exact hclaims.2
  · obtain ⟨hcreated, haccess⟩ := h.grantTimes grant hgrant
    have hearliest : earliest (some grant.createdTime) grant.createdTime = grant.createdTime :=
      (if_neg (ne_of_gt hcreated)).trans (min_self _)
    have hlatest : latest (some grant.lastAccessTime) grant.lastAccessTime = grant.lastAccessTime :=
      (if_neg (ne_of_gt haccess)).trans (max_self _)
    have hrow : (finish (Part.row current ⟨none, some grant, none⟩)).isCurrentSession = false := rfl
    refine ⟨rfl, rfl, fun session hnone => ?_, congrArg some hearliest, congrArg some hlatest, ?_⟩
    · cases hnone
    · rw [hrow]
      simp
  · obtain ⟨hcreated, -⟩ := h.sessionTimes session hsession
    have hearliest : earliest (some session.createdAt) session.createdAt = session.createdAt :=
      (if_neg (ne_of_gt hcreated)).trans (min_self _)
    have hlatest : latest (some 0) session.lastAccessTime = session.lastAccessTime := by simp [latest]
    have hrow : (finish (Part.row current ⟨none, none, some session⟩)).isCurrentSession =
        decide (some session.id = some current) := rfl
    refine ⟨rfl, rfl, fun s hs => ?_, congrArg some hearliest, congrArg some hlatest, ?_⟩
    · cases hs
      rfl
    · rw [hrow]
      simp

/-- No device is lost, and none is there twice. -/
theorem devices_parts : (parts devices grants sessions).filterMap (·.device) = devices := by
  simp [parts, List.filterMap_append, List.filterMap_map]

/-- Nor is a grant. -/
theorem grants_parts (h : Distinct devices grants sessions) :
    ((parts devices grants sessions).filterMap (·.grant)).Perm grants := by
  have hsplit := Claims.claimed_append_unclaimed (exclusive_claimsGrant h)
  simpa [parts, List.filterMap_append, List.filterMap_map, Function.comp_def] using hsplit

/-- Nor is a session. -/
theorem sessions_parts (h : Distinct devices grants sessions) :
    ((parts devices grants sessions).filterMap (·.session)).Perm sessions := by
  have hsplit := Claims.claimed_append_unclaimed (exclusive_claimsSession h)
  simpa [parts, List.filterMap_append, List.filterMap_map, Function.comp_def] using hsplit

/-- In another order the ids are as distinct. -/
theorem Distinct.perm (h : Distinct devices grants sessions) (hdevices : devices'.Perm devices) (hgrants : grants'.Perm grants)
    (hsessions : sessions'.Perm sessions) : Distinct devices' grants' sessions' where
  sessionPointers := (((hdevices.filterMap _).filter _).nodup_iff).mpr h.sessionPointers
  refreshPointers := (((hdevices.filterMap _).filter _).nodup_iff).mpr h.refreshPointers
  grantIds := ((hgrants.filterMap _).nodup_iff).mpr h.grantIds
  sessionIds := ((hsessions.map _).nodup_iff).mpr h.sessionIds
  deviceTimes device hdevice := h.deviceTimes device (hdevices.mem_iff.mp hdevice)
  grantTimes grant hgrant := h.grantTimes grant (hgrants.mem_iff.mp hgrant)
  sessionTimes session hsession := h.sessionTimes session (hsessions.mem_iff.mp hsession)

/-- In another order the table has the same parts. -/
theorem parts_perm (h : Distinct devices grants sessions) (hdevices : devices'.Perm devices) (hgrants : grants'.Perm grants)
    (hsessions : sessions'.Perm sessions) : (parts devices' grants' sessions').Perm (parts devices grants sessions) := by
  have hsame : ∀ device ∈ devices',
      Part.mk (some device) (Claims.claimed AttachedDevice.claimsGrant grants' device)
          (Claims.claimed AttachedDevice.claimsSession sessions' device) =
        ⟨some device, Claims.claimed AttachedDevice.claimsGrant grants device,
          Claims.claimed AttachedDevice.claimsSession sessions device⟩ := by
    intro device hdevice
    have hmem := hdevices.mem_iff.mp hdevice
    rw [Claims.claimed_perm (exclusive_claimsGrant h) hgrants hmem, Claims.claimed_perm (exclusive_claimsSession h) hsessions hmem]
  rw [parts, List.map_congr_left hsame]
  exact ((hdevices.map _).append ((Claims.unclaimed_perm hdevices hgrants).map _)).append
    ((Claims.unclaimed_perm hdevices hsessions).map _)

end Merging

/-- For ids and pointers that are distinct and times that are positive, the merged list is a table: one
row for each device and for each grant and session that no device points at, which shows exactly what it
is made of; every device, grant and session is in one row; a grant that is reported is there; and the
order of the lists only changes the order of the rows. -/
theorem merge_table (devices : List AttachedDevice) (grants : List AttachedOAuthClient) (sessions : List AttachedSession)
    (current : List Char) (h : Distinct devices grants sessions) :
    List.Forall₂ (Shows current) (parts devices grants sessions) (merge devices grants sessions current) ∧
    ((parts devices grants sessions).filterMap (·.device)).Perm devices ∧
    ((parts devices grants sessions).filterMap (·.grant)).Perm grants ∧
    ((parts devices grants sessions).filterMap (·.session)).Perm sessions ∧
    (merge devices grants sessions current).length = devices.length +
      (grants.filter fun grant => !devices.any (·.claimsGrant grant)).length +
      (sessions.filter fun session => !devices.any (·.claimsSession session)).length ∧
    (∀ row ∈ merge devices grants sessions current, ∀ id, row.refreshTokenId = some id →
      ∃ grant ∈ grants, grant.refreshTokenId = some id) ∧
    ∀ devices' grants' sessions', devices'.Perm devices → grants'.Perm grants → sessions'.Perm sessions →
      (merge devices' grants' sessions' current).Perm (merge devices grants sessions current) := by
  refine ⟨?_, List.Perm.of_eq devices_parts, grants_parts h, sessions_parts h, ?_, ?_, ?_⟩
  · rw [merge_eq_map_parts h, List.forall₂_map_right_iff]
    exact List.forall₂_same.mpr fun part hpart => shows_row h hpart
  · rw [merge_eq_map_parts h, List.length_map, parts, List.length_append, List.length_append, List.length_map, List.length_map,
      List.length_map]
    rfl
  · intro row hrow id hid
    rw [merge_eq_map_parts h] at hrow
    obtain ⟨part, hpart, rfl⟩ := List.mem_map.mp hrow
    rw [(shows_row h hpart).refreshTokenId] at hid
    obtain ⟨grant, hgrant, hid⟩ := Option.bind_eq_some_iff.mp hid
    exact ⟨grant, (grants_parts h).mem_iff.mp (List.mem_filterMap.mpr ⟨part, hpart, hgrant⟩), hid⟩
  · intro devices' grants' sessions' hdevices hgrants hsessions
    rw [merge_eq_map_parts h, merge_eq_map_parts (h.perm hdevices hgrants hsessions)]
    exact (parts_perm h hdevices hgrants hsessions).map _

/-- A device with a session and a grant that is gone, and one with a grant. -/
def sampleDevices : List AttachedDevice :=
  [⟨['1'], some ['a'], some ['x'], none, none, some 5, none⟩, ⟨['2'], none, some ['b'], none, none, none, some 7⟩]

/-- The grant of a device, one of its own, and one without a refresh token. -/
def sampleGrants : List AttachedOAuthClient :=
  [⟨['k'], ['K'], some ['b'], 3, 8, []⟩, ⟨['l'], ['L'], some ['c'], 4, 9, []⟩, ⟨['m'], ['M'], none, 4, 9, []⟩]

/-- The session of a device, and one of its own. -/
def sampleSessions : List AttachedSession :=
  [⟨['a'], 6, 10, ⟨[], [], []⟩⟩, ⟨['s'], 2, 11, ⟨[], [], []⟩⟩]

/-- Seven things in five rows. -/
theorem merge_table_sample :
    Distinct sampleDevices sampleGrants sampleSessions ∧ (merge sampleDevices sampleGrants sampleSessions ['s']).length = 5 := by
  have hdistinct : Distinct sampleDevices sampleGrants sampleSessions :=
    ⟨by decide, by decide, by decide, by decide, by simp [sampleDevices], by simp [sampleGrants], by simp [sampleSessions]⟩
  exact ⟨hdistinct, (merge_table _ _ _ ['s'] hdistinct).2.2.2.2.1.trans (by decide)⟩

end FxaLite.Accounts
