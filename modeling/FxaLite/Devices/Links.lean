import FxaLite.Devices.Requests

/-!
# What links the tables

Requests come in any number and at any time, and each carries out its statements between those of the
others, or stops after some of them. Whatever their order, a device has exactly one owner and an owner has
one device, and a device goes with its session and its account. If no id that is drawn for one account is
in use by another, then no device points into another account either.
-/

namespace FxaLite.Devices

open Concurrent Crypto
open Accounts (Random hexText)

variable (host : Host)

/-! ### The links -/

/-- What the keys of the tables and the routes keep up together: whatever there is has an account, a device
has one owner, which is a session that is there or a refresh token, and no two devices have the same. -/
structure Linked (db : DeviceDb) : Prop where
  session : ∀ tokenId row, db.sessionToken tokenId = some row → row.uid ∈ db.accounts
  refresh : ∀ tokenId row, db.refreshToken tokenId = some row → row.uid ∈ db.accounts
  device : ∀ id row, db.devices.find? id = some row → row.uid ∈ db.accounts
  owned : ∀ id row, db.devices.find? id = some row → row.sessionTokenId.isSome = !row.refreshTokenId.isSome
  live : ∀ id row tokenId, db.devices.find? id = some row → row.sessionTokenId = some tokenId →
    (db.sessionToken tokenId).isSome = true
  alone : ∀ id id' row row' credential, db.devices.find? id = some row → db.devices.find? id' = some row' →
    row.pointsTo credential = true → row'.pointsTo credential = true → id = id'

/-- The account that an id is drawn for. -/
structure Ownership where
  session : String → String
  refresh : String → String
  device : String → String

/-- The account of a token. -/
def Ownership.of (own : Ownership) : Credential → String
  | .session tokenId => own.session tokenId
  | .refresh tokenId => own.refresh tokenId

/-- Every row is of the account that its id was drawn for, and every device points at a token of its account. -/
structure Apart (own : Ownership) (db : DeviceDb) : Prop where
  session : ∀ tokenId row, db.sessionToken tokenId = some row → row.uid = own.session tokenId
  refresh : ∀ tokenId row, db.refreshToken tokenId = some row → row.uid = own.refresh tokenId
  device : ∀ id row, db.devices.find? id = some row → row.uid = own.device id
  pointer : ∀ id row credential, db.devices.find? id = some row → row.pointsTo credential = true → own.of credential = row.uid

/-! ### Statements and the links -/

section Linked

variable {db : DeviceDb} {uid tokenId : String}

/-- Two rows clash over a token that both point at. -/
theorem clashes_eq_true {row row' : DeviceRow} :
    row.clashes row' = true ↔ ∃ credential, row.pointsTo credential = true ∧ row'.pointsTo credential = true := by
  simp only [DeviceRow.clashes, Bool.or_eq_true, Bool.and_eq_true, Option.isSome_iff_exists, decide_eq_true_eq]
  constructor
  · rintro (⟨⟨tokenId, htoken⟩, hsame⟩ | ⟨⟨tokenId, htoken⟩, hsame⟩)
    · exact ⟨.session tokenId, decide_eq_true htoken, decide_eq_true (hsame ▸ htoken)⟩
    · exact ⟨.refresh tokenId, decide_eq_true htoken, decide_eq_true (hsame ▸ htoken)⟩
  · rintro ⟨tokenId | tokenId, hrow, hrow'⟩
    · have hsame := (of_decide_eq_true hrow).trans (of_decide_eq_true hrow').symm
      exact Or.inl ⟨⟨tokenId, of_decide_eq_true hrow⟩, hsame⟩
    · have hsame := (of_decide_eq_true hrow).trans (of_decide_eq_true hrow').symm
      exact Or.inr ⟨⟨tokenId, of_decide_eq_true hrow⟩, hsame⟩

/-- At the start there is nothing to link. -/
theorem linked_fresh : Linked DeviceDb.fresh where
  session _ _ h := by cases h
  refresh _ _ h := by cases h
  device _ _ h := by cases h
  owned _ _ h := by cases h
  live _ _ _ h := by cases h
  alone _ _ _ _ _ h := by cases h

/-- A new account has nothing. -/
theorem Linked.createAccount (h : Linked db) : Linked (db.createAccount uid) where
  session tokenId row hrow := List.mem_cons_of_mem _ (h.session tokenId row hrow)
  refresh tokenId row hrow := List.mem_cons_of_mem _ (h.refresh tokenId row hrow)
  device id row hrow := List.mem_cons_of_mem _ (h.device id row hrow)
  owned := h.owned
  live := h.live
  alone := h.alone

/-- All that an account has goes with it, and a device with its session. -/
theorem Linked.deleteAccount (h : Linked db) : Linked (db.deleteAccount uid) where
  session tokenId row hrow := by
    rw [DeviceDb.sessionToken_deleteAccount, Option.filter_eq_some_iff] at hrow
    exact List.mem_filter.mpr ⟨h.session tokenId row hrow.1, hrow.2⟩
  refresh tokenId row hrow := by
    rw [DeviceDb.refreshToken_deleteAccount, Option.filter_eq_some_iff] at hrow
    exact List.mem_filter.mpr ⟨h.refresh tokenId row hrow.1, hrow.2⟩
  device id row hrow := by
    obtain ⟨hfind, huid, -⟩ := DeviceDb.find?_deleteAccount hrow
    exact List.mem_filter.mpr ⟨h.device id row hfind, decide_eq_true huid⟩
  owned id row hrow := h.owned id row (DeviceDb.find?_deleteAccount hrow).1
  live id row tokenId hrow htoken := by
    obtain ⟨hfind, -, hsession⟩ := DeviceDb.find?_deleteAccount hrow
    obtain ⟨session, hlive⟩ := Option.isSome_iff_exists.mp (h.live id row tokenId hfind htoken)
    have hother := hsession session (by rw [htoken]; exact hlive)
    rw [DeviceDb.sessionToken_deleteAccount, hlive, Option.filter_some, if_pos (decide_eq_true hother)]
    rfl
  alone id id' row row' credential hrow hrow' :=
    h.alone id id' row row' credential (DeviceDb.find?_deleteAccount hrow).1 (DeviceDb.find?_deleteAccount hrow').1

/-- A session is made for an account. -/
theorem Linked.createSessionToken {row : SessionRow} (h : Linked db) (htakes : db.takesSession tokenId row.uid = true) :
    Linked (db.createSessionToken tokenId row) where
  session key row' hrow := by
    rw [DeviceDb.sessionToken_createSessionToken] at hrow
    split at hrow
    · cases hrow
      simp only [DeviceDb.takesSession, Bool.and_eq_true, decide_eq_true_eq] at htakes
      exact htakes.2
    · exact h.session key row' hrow
  refresh := h.refresh
  device := h.device
  owned := h.owned
  live id row' key hrow hkey := by
    rw [DeviceDb.sessionToken_createSessionToken]
    split
    · rfl
    · exact h.live id row' key hrow hkey
  alone := h.alone

/-- An update leaves a session to its account. -/
theorem Linked.updateSession {update : SessionRow → SessionRow} (h : Linked db) (hupdate : ∀ row, (update row).uid = row.uid) :
    Linked (db.updateSession tokenId update) := by
  obtain ⟨haccounts, hrefresh, hdevices⟩ := @DeviceDb.updateSession_frame db tokenId update
  refine ⟨fun key row hrow => ?_, ?_, ?_, ?_, fun id row key hrow hkey => ?_, ?_⟩
  · rw [DeviceDb.sessionToken_updateSession] at hrow
    rw [haccounts]
    split at hrow
    · obtain ⟨old, hold, rfl⟩ := Option.map_eq_some_iff.mp hrow
      rw [hupdate]
      exact h.session _ old hold
    · exact h.session key row hrow
  · unfold DeviceDb.refreshToken
    rw [hrefresh, haccounts]
    exact h.refresh
  · rw [hdevices, haccounts]
    exact h.device
  · rw [hdevices]
    exact h.owned
  · rw [hdevices] at hrow
    have hlive := h.live id row key hrow hkey
    rw [DeviceDb.sessionToken_updateSession]
    split
    · rename_i heq
      rw [Option.isSome_map, ← heq]
      exact hlive
    · exact hlive
  · rw [hdevices]
    exact h.alone

/-- A session takes its device with it. -/
theorem Linked.deleteSessionToken (h : Linked db) : Linked (db.deleteSessionToken tokenId) where
  session key row hrow := by
    rw [DeviceDb.sessionToken_deleteSessionToken] at hrow
    split at hrow
    · cases hrow
    · exact h.session key row hrow
  refresh := h.refresh
  device id row hrow := h.device id row (DeviceDb.find?_deleteSessionToken hrow).1
  owned id row hrow := h.owned id row (DeviceDb.find?_deleteSessionToken hrow).1
  live id row key hrow hkey := by
    obtain ⟨hfind, hpoints⟩ := DeviceDb.find?_deleteSessionToken hrow
    have hlive := h.live id row key hfind hkey
    rw [DeviceDb.sessionToken_deleteSessionToken]
    split
    · rename_i heq
      have hnot := hpoints (heq ▸ hlive)
      rw [← heq] at hnot
      exact absurd (decide_eq_true hkey) (Bool.eq_false_iff.mp hnot)
    · exact hlive
  alone id id' row row' credential hrow hrow' :=
    h.alone id id' row row' credential (DeviceDb.find?_deleteSessionToken hrow).1 (DeviceDb.find?_deleteSessionToken hrow').1

/-- A refresh token is made for an account. -/
theorem Linked.createRefreshToken {row : RefreshRow} (h : Linked db) (htakes : db.takesRefresh tokenId row.uid = true) :
    Linked (db.createRefreshToken tokenId row) where
  session := h.session
  refresh key row' hrow := by
    rw [DeviceDb.refreshToken_createRefreshToken] at hrow
    split at hrow
    · cases hrow
      simp only [DeviceDb.takesRefresh, Bool.and_eq_true, decide_eq_true_eq] at htakes
      exact htakes.2
    · exact h.refresh key row' hrow
  device := h.device
  owned := h.owned
  live := h.live
  alone := h.alone

/-- One that is spent stays with its account. -/
theorem Linked.touchRefreshToken {now : ℤ} (h : Linked db) : Linked (db.touchRefreshToken tokenId now) := by
  obtain ⟨haccounts, hsessions, hdevices⟩ := @DeviceDb.touchRefreshToken_frame db tokenId now
  refine ⟨?_, fun key row hrow => ?_, ?_, ?_, ?_, ?_⟩
  · unfold DeviceDb.sessionToken
    rw [hsessions, haccounts]
    exact h.session
  · rw [DeviceDb.refreshToken_touchRefreshToken] at hrow
    rw [haccounts]
    split at hrow
    · obtain ⟨old, hold, rfl⟩ := Option.map_eq_some_iff.mp hrow
      exact h.refresh _ old hold
    · exact h.refresh key row hrow
  · rw [hdevices, haccounts]
    exact h.device
  · rw [hdevices]
    exact h.owned
  · unfold DeviceDb.sessionToken
    rw [hdevices, hsessions]
    exact h.live
  · rw [hdevices]
    exact h.alone

/-- One that is deleted may leave a device behind. -/
theorem Linked.deleteRefreshToken (h : Linked db) : Linked (db.deleteRefreshToken tokenId) where
  session := h.session
  refresh key row hrow := by
    rw [DeviceDb.refreshToken_deleteRefreshToken] at hrow
    split at hrow
    · cases hrow
    · exact h.refresh key row hrow
  device := h.device
  owned := h.owned
  live := h.live
  alone := h.alone

/-- What a device that is stored comes to: itself, or its new pointer and what it says over its account and age. -/
theorem find?_upsertDevice {device : Device} {id : String} {row : DeviceRow}
    (h : (db.upsertDevice device).devices.find? id = some row) :
    (id ≠ device.id ∧ db.devices.find? id = some row) ∨
      (id = device.id ∧ row.sessionTokenId = device.sessionTokenId ∧ row.refreshTokenId = device.refreshTokenId ∧
        ((db.devices.find? id = none ∧ row.uid = device.uid) ∨
          ∃ old, db.devices.find? id = some old ∧ row.uid = old.uid)) := by
  rw [DeviceDb.upsertDevice, Relational.Table.find?_upsert] at h
  split at h
  · rename_i heq
    refine Or.inr ⟨heq, ?_⟩
    rw [heq]
    cases hold : db.devices.find? device.id with
    | none =>
      rw [hold] at h
      cases h
      exact ⟨rfl, rfl, Or.inl ⟨rfl, rfl⟩⟩
    | some old =>
      rw [hold] at h
      cases h
      exact ⟨rfl, rfl, Or.inr ⟨old, rfl, rfl⟩⟩
  · rename_i hne
    exact Or.inl ⟨hne, h⟩

/-- Rows with the same pointers point alike. -/
theorem pointsTo_congr {row row' : DeviceRow} {credential : Credential} (hsession : row.sessionTokenId = row'.sessionTokenId)
    (hrefresh : row.refreshTokenId = row'.refreshTokenId) : row.pointsTo credential = row'.pointsTo credential := by
  cases credential <;> simp only [DeviceRow.pointsTo, hsession, hrefresh]

/-- A device is stored with an owner that no other device has. -/
theorem Linked.upsertDevice {device : Device} (h : Linked db) (htakes : db.takesDevice device = true)
    (howned : device.sessionTokenId.isSome = !device.refreshTokenId.isSome) : Linked (db.upsertDevice device) := by
  obtain ⟨haccount, hlive, hclash⟩ := DeviceDb.takesDevice_eq_true.mp htakes
  have halone : ∀ id row credential, db.devices.find? id = some row → id ≠ device.id → row.pointsTo credential = true →
      ¬device.toDeviceRow.pointsTo credential = true := by
    intro id row credential hfind hne hrow hdevice
    exact Bool.eq_false_iff.mp (hclash id row hfind hne) (clashes_eq_true.mpr ⟨credential, hrow, hdevice⟩)
  refine ⟨h.session, h.refresh, fun id row hrow => ?_, fun id row hrow => ?_, fun id row tokenId hrow htoken => ?_,
    fun id id' row row' credential hrow hrow' hpoint hpoint' => ?_⟩
  · obtain ⟨-, hold⟩ | ⟨rfl, -, -, ⟨hnone, huid⟩ | ⟨old, hold, huid⟩⟩ := find?_upsertDevice hrow
    · exact h.device id row hold
    · rw [huid]
      exact haccount.resolve_left (by rw [hnone]; simp)
    · rw [huid]
      exact h.device _ old hold
  · obtain ⟨-, hold⟩ | ⟨-, hsession, hrefresh, -⟩ := find?_upsertDevice hrow
    · exact h.owned id row hold
    · rw [hsession, hrefresh]
      exact howned
  · obtain ⟨-, hold⟩ | ⟨-, hsession, -, -⟩ := find?_upsertDevice hrow
    · exact h.live id row tokenId hold htoken
    · exact hlive tokenId (hsession ▸ htoken)
  · obtain ⟨hne, hold⟩ | ⟨heq, hsession, hrefresh, -⟩ := find?_upsertDevice hrow <;>
      obtain ⟨hne', hold'⟩ | ⟨heq', hsession', hrefresh', -⟩ := find?_upsertDevice hrow'
    · exact h.alone id id' row row' credential hold hold' hpoint hpoint'
    · exact absurd (pointsTo_congr hsession' hrefresh' ▸ hpoint') (halone id row credential hold hne hpoint)
    · exact absurd (pointsTo_congr hsession hrefresh ▸ hpoint) (halone id' row' credential hold' hne' hpoint')
    · exact heq.trans heq'.symm

/-- What is left when devices are deleted. -/
theorem Linked.deleteDevices (h : Linked db) (p : String → DeviceRow → Bool) :
    Linked { db with devices := db.devices.deleteWhere p } := by
  have hsub : ∀ {id row}, (db.devices.deleteWhere p).find? id = some row → db.devices.find? id = some row := by
    intro id row hrow
    rw [Relational.Table.find?_deleteWhere, Option.filter_eq_some_iff] at hrow
    exact hrow.1
  exact ⟨h.session, h.refresh, fun id row hrow => h.device id row (hsub hrow), fun id row hrow => h.owned id row (hsub hrow),
    fun id row tokenId hrow => h.live id row tokenId (hsub hrow),
    fun id id' row row' credential hrow hrow' => h.alone id id' row row' credential (hsub hrow) (hsub hrow')⟩

/-- What deleting devices and tokens keeps, the removal of a device keeps. -/
theorem removeDevice_of {P : DeviceDb → Prop} {device : Device}
    (hdevices : P { db with devices := db.devices.deleteWhere fun id row => row.uid = uid && id = device.id })
    (hsession : ∀ db tokenId, P db → P (db.deleteSessionToken tokenId))
    (hrefresh : ∀ db tokenId, P db → P (db.deleteRefreshToken tokenId)) : P (db.removeDevice uid device) := by
  unfold DeviceDb.removeDevice
  cases device.sessionTokenId.filter (· ≠ "") <;> cases device.refreshTokenId.filter (· ≠ "")
  · exact hdevices
  · exact hrefresh _ _ hdevices
  · exact hsession _ _ hdevices
  · exact hrefresh _ _ (hsession _ _ hdevices)

/-- A device goes with its owner. -/
theorem Linked.removeDevice {device : Device} (h : Linked db) : Linked (db.removeDevice uid device) :=
  removeDevice_of (h.deleteDevices _) (fun _ _ h => h.deleteSessionToken) fun _ _ h => h.deleteRefreshToken

end Linked

/-! ### Statements and the accounts -/

section Apart

variable {own : Ownership} {db db' : DeviceDb} {uid tokenId : String}

/-- At the start nothing is of any account. -/
theorem apart_fresh (own : Ownership) : Apart own DeviceDb.fresh where
  session _ _ h := by cases h
  refresh _ _ h := by cases h
  device _ _ h := by cases h
  pointer _ _ _ h := by cases h

/-- What only keeps rows, and leaves their accounts and pointers as they are, keeps them apart. -/
theorem Apart.sub (h : Apart own db)
    (hsession : ∀ tokenId row, db'.sessionToken tokenId = some row → ∃ old, db.sessionToken tokenId = some old ∧ row.uid = old.uid)
    (hrefresh : ∀ tokenId row, db'.refreshToken tokenId = some row → ∃ old, db.refreshToken tokenId = some old ∧ row.uid = old.uid)
    (hdevice : ∀ id row, db'.devices.find? id = some row → db.devices.find? id = some row) : Apart own db' where
  session tokenId row hrow := by
    obtain ⟨old, hold, huid⟩ := hsession tokenId row hrow
    exact huid.trans (h.session tokenId old hold)
  refresh tokenId row hrow := by
    obtain ⟨old, hold, huid⟩ := hrefresh tokenId row hrow
    exact huid.trans (h.refresh tokenId old hold)
  device id row hrow := h.device id row (hdevice id row hrow)
  pointer id row credential hrow := h.pointer id row credential (hdevice id row hrow)

/-- A new account has no rows. -/
theorem Apart.createAccount (h : Apart own db) : Apart own (db.createAccount uid) := ⟨h.session, h.refresh, h.device, h.pointer⟩

/-- An account takes rows with it. -/
theorem Apart.deleteAccount (h : Apart own db) : Apart own (db.deleteAccount uid) := by
  refine h.sub (fun tokenId row hrow => ?_) (fun tokenId row hrow => ?_) fun id row hrow => (DeviceDb.find?_deleteAccount hrow).1
  · rw [DeviceDb.sessionToken_deleteAccount, Option.filter_eq_some_iff] at hrow
    exact ⟨row, hrow.1, rfl⟩
  · rw [DeviceDb.refreshToken_deleteAccount, Option.filter_eq_some_iff] at hrow
    exact ⟨row, hrow.1, rfl⟩

/-- A session is of the account that its id was drawn for. -/
theorem Apart.createSessionToken {row : SessionRow} (h : Apart own db) (hown : own.session tokenId = row.uid) :
    Apart own (db.createSessionToken tokenId row) where
  session key row' hrow := by
    rw [DeviceDb.sessionToken_createSessionToken] at hrow
    split at hrow
    · rename_i heq
      cases hrow
      rw [heq, hown]
    · exact h.session key row' hrow
  refresh := h.refresh
  device := h.device
  pointer := h.pointer

/-- An update leaves it there. -/
theorem Apart.updateSession {update : SessionRow → SessionRow} (h : Apart own db) (hupdate : ∀ row, (update row).uid = row.uid) :
    Apart own (db.updateSession tokenId update) := by
  obtain ⟨-, hrefresh, hdevices⟩ := @DeviceDb.updateSession_frame db tokenId update
  refine h.sub (fun key row hrow => ?_) (fun key row hrow => ⟨row, ?_, rfl⟩) fun id row hrow => ?_
  · rw [DeviceDb.sessionToken_updateSession] at hrow
    split at hrow
    · rename_i heq
      obtain ⟨old, hold, rfl⟩ := Option.map_eq_some_iff.mp hrow
      exact ⟨old, heq ▸ hold, hupdate old⟩
    · exact ⟨row, hrow, rfl⟩
  · unfold DeviceDb.refreshToken at hrow ⊢
    rwa [hrefresh] at hrow
  · rwa [hdevices] at hrow

/-- A session takes rows with it. -/
theorem Apart.deleteSessionToken (h : Apart own db) : Apart own (db.deleteSessionToken tokenId) := by
  refine h.sub (fun key row hrow => ?_) (fun key row hrow => ⟨row, hrow, rfl⟩) fun id row hrow => (DeviceDb.find?_deleteSessionToken hrow).1
  rw [DeviceDb.sessionToken_deleteSessionToken] at hrow
  split at hrow
  · cases hrow
  · exact ⟨row, hrow, rfl⟩

/-- A refresh token is of the account that its id was drawn for. -/
theorem Apart.createRefreshToken {row : RefreshRow} (h : Apart own db) (hown : own.refresh tokenId = row.uid) :
    Apart own (db.createRefreshToken tokenId row) where
  session := h.session
  refresh key row' hrow := by
    rw [DeviceDb.refreshToken_createRefreshToken] at hrow
    split at hrow
    · rename_i heq
      cases hrow
      rw [heq, hown]
    · exact h.refresh key row' hrow
  device := h.device
  pointer := h.pointer

/-- To be spent leaves it there. -/
theorem Apart.touchRefreshToken {now : ℤ} (h : Apart own db) : Apart own (db.touchRefreshToken tokenId now) := by
  obtain ⟨-, hsessions, hdevices⟩ := @DeviceDb.touchRefreshToken_frame db tokenId now
  refine h.sub (fun key row hrow => ⟨row, ?_, rfl⟩) (fun key row hrow => ?_) fun id row hrow => ?_
  · unfold DeviceDb.sessionToken at hrow ⊢
    rwa [hsessions] at hrow
  · rw [DeviceDb.refreshToken_touchRefreshToken] at hrow
    split at hrow
    · rename_i heq
      obtain ⟨old, hold, rfl⟩ := Option.map_eq_some_iff.mp hrow
      exact ⟨old, heq ▸ hold, rfl⟩
    · exact ⟨row, hrow, rfl⟩
  · rwa [hdevices] at hrow

/-- One that is deleted is no longer of any. -/
theorem Apart.deleteRefreshToken (h : Apart own db) : Apart own (db.deleteRefreshToken tokenId) := by
  refine h.sub (fun key row hrow => ⟨row, hrow, rfl⟩) (fun key row hrow => ?_) fun id row hrow => hrow
  rw [DeviceDb.refreshToken_deleteRefreshToken] at hrow
  split at hrow
  · cases hrow
  · exact ⟨row, hrow, rfl⟩

/-- A device is stored for a token of the account that its own id was drawn for. -/
theorem Apart.upsertDevice {device : Device} (h : Apart own db) (hid : own.device device.id = device.uid)
    (hpointer : ∀ credential, device.pointsTo credential = true → own.of credential = device.uid) :
    Apart own (db.upsertDevice device) := by
  have huid : ∀ {id row}, (db.upsertDevice device).devices.find? id = some row → row.uid = own.device id := by
    intro id row hrow
    obtain ⟨-, hold⟩ | ⟨rfl, -, -, ⟨-, huid⟩ | ⟨old, hold, huid⟩⟩ := find?_upsertDevice hrow
    · exact h.device id row hold
    · rw [huid, hid]
    · exact huid.trans (h.device _ old hold)
  refine ⟨h.session, h.refresh, fun id row hrow => huid hrow, fun id row credential hrow hpoints => ?_⟩
  obtain ⟨-, hold⟩ | ⟨rfl, hsession, hrefresh, -⟩ := find?_upsertDevice hrow
  · exact h.pointer id row credential hold hpoints
  · rw [huid hrow, hid]
    exact hpointer credential (pointsTo_congr hsession hrefresh ▸ hpoints)

/-- What is left when devices are deleted is as far apart. -/
theorem Apart.deleteDevices (h : Apart own db) (p : String → DeviceRow → Bool) :
    Apart own { db with devices := db.devices.deleteWhere p } := by
  refine h.sub (fun key row hrow => ⟨row, hrow, rfl⟩) (fun key row hrow => ⟨row, hrow, rfl⟩) fun id row hrow => ?_
  rw [Relational.Table.find?_deleteWhere, Option.filter_eq_some_iff] at hrow
  exact hrow.1

/-- A device is removed with its owner. -/
theorem Apart.removeDevice {device : Device} (h : Apart own db) : Apart own (db.removeDevice uid device) :=
  removeDevice_of (h.deleteDevices _) (fun _ _ h => h.deleteSessionToken) fun _ _ h => h.deleteRefreshToken

end Apart

/-! ### Requests and the links -/

/-- The token that a header presents to a device route. -/
def presented (header : Option (List Char)) : Option Credential :=
  match Accounts.refreshBearer header with
  | some token => (hashToken host (String.ofList token)).toOption.map .refresh
  | none =>
    match Accounts.tokenId header .session with
    | .ok (some id) => some (.session (String.ofList id))
    | _ => none

/-- A request draws its ids for the account that it is made for. -/
def Ownership.Allows (own : Ownership) : Request → Prop
  | .register registration => ∀ credential, presented host registration.header = some credential →
      own.device registration.drawn = own.of credential
  | .signIn uid _ seed _ => own.session (hexText (tokenKeys host.toSha256 .session seed).id) = uid
  | .duplicate header _ seed _ => ∀ id, Accounts.tokenId header .session = .ok (some id) →
      own.session (hexText (tokenKeys host.toSha256 .session seed).id) = own.session (String.ofList id)
  | .mint uid _ _ token _ => ∀ id, hashToken host token = .ok id → own.refresh id = uid
  | _ => True

/-- What holds of the tables whatever is drawn, and what holds if no id is drawn for two accounts. -/
def Sound (own : Ownership) (allowed : Prop) (db : DeviceDb) : Prop := Linked db ∧ (allowed → Apart own db)

section Programs

variable {host} {own : Ownership} {allowed : Prop} {header : Option (List Char)}

/-- An update of a session is one. -/
theorem Sound.updateSession {db : DeviceDb} {tokenId : String} {update : SessionRow → SessionRow} (h : Sound own allowed db)
    (hupdate : ∀ row, (update row).uid = row.uid) : Sound own allowed (db.updateSession tokenId update) :=
  ⟨h.1.updateSession hupdate, fun hallowed => (h.2 hallowed).updateSession hupdate⟩

/-- The deletion of one is. -/
theorem Sound.deleteSessionToken {db : DeviceDb} {tokenId : String} (h : Sound own allowed db) :
    Sound own allowed (db.deleteSessionToken tokenId) :=
  ⟨h.1.deleteSessionToken, fun hallowed => (h.2 hallowed).deleteSessionToken⟩

/-- That of a refresh token is. -/
theorem Sound.deleteRefreshToken {db : DeviceDb} {tokenId : String} (h : Sound own allowed db) :
    Sound own allowed (db.deleteRefreshToken tokenId) :=
  ⟨h.1.deleteRefreshToken, fun hallowed => (h.2 hallowed).deleteRefreshToken⟩

/-- What the credentials of a session route are. -/
theorem ensures_sessionCredentials : (sessionCredentials header).Ensures (Sound own allowed) fun result =>
    ∀ session, result = .ok session → (∃ id, Accounts.tokenId header .session = .ok (some id) ∧ session.1 = String.ofList id) ∧
      (allowed → session.2.uid = own.session session.1) := by
  unfold sessionCredentials
  split
  · intro session h
    cases h
  · intro session h
    cases h
  · rename_i id hid
    refine Script.Ensures.read fun db hdb => ?_
    cases hrow : db.sessionToken (String.ofList id) with
    | none =>
      intro session h
      cases h
    | some row =>
      refine Script.Ensures.read fun db' _ => ?_
      split
      · intro session h
        cases h
        exact ⟨⟨id, hid, rfl⟩, fun hallowed => (hdb.2 hallowed).session _ row hrow⟩
      · intro session h
        cases h

/-- What those of a device route are. -/
theorem ensures_deviceCredentials : (deviceCredentials host header).Ensures (Sound own allowed) fun result =>
    ∀ credentials, result = .ok credentials → presented host header = some credentials.token ∧
      (allowed → credentials.uid = own.of credentials.token) := by
  unfold deviceCredentials
  split
  · rename_i hbearer
    refine ensures_sessionCredentials.andThen fun session hsession credentials h => ?_
    cases h
    obtain ⟨⟨id, hid, htoken⟩, huid⟩ := hsession
    refine ⟨?_, huid⟩
    simp only [presented, hbearer, hid, DeviceCredentials.token, htoken]
  · rename_i token hbearer
    split
    · intro credentials h
      cases h
    · rename_i id hid
      refine Script.Ensures.read fun db hdb => ?_
      cases hrow : db.refreshToken id with
      | none =>
        intro credentials h
        cases h
      | some row =>
        refine Script.Ensures.read fun db' _ => ?_
        split
        · intro credentials h
          obtain ⟨client, -, rfl⟩ := Fallible.map_eq_ok.mp h
          refine ⟨?_, fun hallowed => (hdb.2 hallowed).refresh id row hrow⟩
          simp only [presented, hbearer, hid, DeviceCredentials.token]
          rfl
        · intro credentials h
          cases h

/-- A device that is stored points at the token that was presented. -/
theorem token_of_pointsTo {registration : Registration} {current : Option Device} {credentials : DeviceCredentials}
    {credential : Credential} (h : (registration.device host credentials current).pointsTo credential = true) :
    credentials.token = credential := by
  cases credentials <;> cases credential <;> simp_all [DeviceRow.pointsTo, Registration.device, merge,
    DeviceCredentials.sessionTokenId, DeviceCredentials.refreshTokenId, DeviceCredentials.token]

/-- It has one owner. -/
theorem owned_device (registration : Registration) (credentials : DeviceCredentials) (current : Option Device) :
    (registration.device host credentials current).sessionTokenId.isSome =
      !(registration.device host credentials current).refreshTokenId.isSome := by
  cases credentials <;> rfl

/-- A device that is looked up by its account is of it. -/
theorem own_device {db : DeviceDb} {uid id : String} {device : Device} (h : Apart own db) (hdevice : db.device uid id = some device) :
    own.device id = uid ∧ device.id = id := by
  obtain ⟨hfind, huid, rfl⟩ := DeviceDb.device_eq_some.mp hdevice
  exact ⟨(h.device _ _ hfind).symm.trans huid, rfl⟩

/-- The device of a token is of the token's account. -/
theorem own_currentDevice {db : DeviceDb} {credentials : DeviceCredentials} {device : Device} (h : Apart own db)
    (hdevice : currentDevice db credentials = some device) : own.device device.id = own.of credentials.token := by
  have hby : db.deviceBy credentials.token = some device := by
    cases credentials <;> exact hdevice
  obtain ⟨hfind, hpoints⟩ := DeviceDb.pointsTo_of_deviceBy hby
  exact (h.device _ _ hfind).symm.trans (h.pointer _ _ _ hfind hpoints).symm

/-- Its id is of its account, if the one that was drawn is. -/
theorem own_of_names {registration : Registration} {credentials : DeviceCredentials} {db : DeviceDb} {id : String}
    (h : Apart own db) (hnames : registration.Names credentials db id) (huid : credentials.uid = own.of credentials.token)
    (hdrawn : own.device registration.drawn = own.of credentials.token) : own.device id = credentials.uid := by
  obtain rfl | ⟨device, hdevice, rfl⟩ | ⟨device, hdevice⟩ := hnames
  · exact hdrawn.trans huid.symm
  · exact (own_currentDevice h hdevice).trans huid.symm
  · exact (own_device h hdevice).1

/-- Whatever is asked for keeps the links, and keeps the accounts apart if it draws its ids for the account
that it is made for. -/
theorem keeps_program (request : Request) (hallows : allowed → own.Allows host request) :
    (request.program host).Keeps (Sound own allowed) := by
  refine Script.Makes.keeps (A := fun _ => Sound own allowed) ?_ fun _ _ _ h => h
  cases request with
  | register registration =>
    refine makes_answering (makes_deviceRegister ensures_deviceCredentials fun credentials current hD db hdb hnames db' h htakes => ?_)
    obtain ⟨hpresented, huid⟩ := hD
    refine ⟨h.1.upsertDevice htakes (owned_device _ _ _), fun hallowed => (h.2 hallowed).upsertDevice ?_ fun credential hpoints => ?_⟩
    · exact own_of_names (hdb.2 hallowed) hnames (huid hallowed) (hallows hallowed _ hpresented)
    · rw [← token_of_pointsTo hpoints]
      exact (huid hallowed).symm
  | list header filterIdle now =>
    exact makes_answering (makes_deviceList ensures_deviceCredentials fun tokenId row _ db h => h.updateSession fun _ => rfl)
  | commands header => exact makes_answering makes_deviceCommands
  | destroyDevice header id =>
    exact makes_answering (makes_deviceDestroy ensures_deviceCredentials fun credentials _ db device _ _ db' h =>
      ⟨h.1.removeDevice, fun hallowed => (h.2 hallowed).removeDevice⟩)
  | notify header => exact makes_answering makes_devicesNotify
  | attached header filterIdle now =>
    exact makes_answering (makes_attachedClients ensures_sessionCredentials fun session _ db h => h.updateSession fun _ => rfl)
  | signIn uid userAgent seed now =>
    exact makes_answering (makes_startSession fun db h htakes =>
      ⟨h.1.createSessionToken htakes, fun hallowed => (h.2 hallowed).createSessionToken (hallows hallowed)⟩)
  | status header => exact makes_answering makes_sessionStatus
  | destroySession header custom =>
    exact makes_answering (makes_sessionDestroy ensures_sessionCredentials fun session target _ _ db h => h.deleteSessionToken)
  | duplicate header userAgent seed now =>
    refine makes_answering (makes_sessionDuplicate ensures_sessionCredentials fun session hS db h htakes =>
      ⟨h.1.createSessionToken htakes, fun hallowed => (h.2 hallowed).createSessionToken ?_⟩)
    obtain ⟨⟨id, hid, htoken⟩, huid⟩ := hS
    rw [hallows hallowed id hid, ← htoken]
    exact (huid hallowed).symm
  | reauth header email authenticated now =>
    exact makes_answering (makes_sessionReauth ensures_sessionCredentials fun session _ _ db h => h.updateSession fun _ => rfl)
  | mint uid clientId scope token now =>
    exact makes_answering (makes_mintRefreshToken fun id hid db h htakes =>
      ⟨h.1.createRefreshToken htakes, fun hallowed => (h.2 hallowed).createRefreshToken (hallows hallowed id hid)⟩)
  | spend token now =>
    exact makes_answering (makes_spendRefreshToken fun id _ db h =>
      ⟨h.1.touchRefreshToken, fun hallowed => (h.2 hallowed).touchRefreshToken⟩)
  | revoke token clientId => exact makes_answering (makes_oauthDestroy fun id _ db h => h.deleteRefreshToken)
  | legacyRevoke payload => exact makes_answering (makes_legacyDestroy fun id _ db h => h.deleteRefreshToken)
  | createAccount uid =>
    exact makes_answering (makes_createAccount fun db h => ⟨h.1.createAccount, fun hallowed => (h.2 hallowed).createAccount⟩)
  | removeAccount uid =>
    exact makes_answering (makes_removeAccount fun db h => ⟨h.1.deleteAccount, fun hallowed => (h.2 hallowed).deleteAccount⟩)

end Programs

/-- In every run of requests, in any number and with their statements in any order, wherever it stops: what
there is has an account; a device points at a session that is there or at a refresh token, and at one of them
only; and no two devices point at one token. If every id is drawn for one account only, a device and the token
that it points at, if that is still there, are of one account. -/
theorem devices_linked {ι : Type} [DecidableEq ι] (requests : ι → Request) (schedule : List ι) :
    let db := ((Threads.machine ι DeviceDb (Except DeviceError Answer)).run
      ⟨DeviceDb.fresh, fun i => (requests i).program host⟩ schedule).state
    Linked db ∧ ∀ own : Ownership, (∀ i, own.Allows host (requests i)) → ∀ id row, db.devices.find? id = some row →
      (∀ tokenId session, row.sessionTokenId = some tokenId → db.sessionToken tokenId = some session → session.uid = row.uid) ∧
      ∀ tokenId refresh, row.refreshTokenId = some tokenId → db.refreshToken tokenId = some refresh → refresh.uid = row.uid := by
  intro db
  have hsound : ∀ own : Ownership, Sound own (∀ i, own.Allows host (requests i)) db := by
    intro own
    refine Threads.state_of_keeps ⟨linked_fresh, fun _ => apart_fresh own⟩ (fun i => ?_) schedule
    exact keeps_program (requests i) fun hallows => hallows i
  refine ⟨(hsound ⟨id, id, id⟩).1, fun own hallows id row hrow => ?_⟩
  have hapart := (hsound own).2 hallows
  refine ⟨fun tokenId session htoken hsession => ?_, fun tokenId refresh htoken hrefresh => ?_⟩
  · exact (hapart.session _ _ hsession).trans (hapart.pointer id row (.session tokenId) hrow (decide_eq_true htoken))
  · exact (hapart.refresh _ _ hrefresh).trans (hapart.pointer id row (.refresh tokenId) hrow (decide_eq_true htoken))

end FxaLite.Devices
