import FxaLite.Devices.Lifetimes
import FxaLite.Lib.Noninterference

/-!
# One account among others

If no id that is drawn for one account is in use by another, the requests for an account are answered as if
there were no others, however the statements of all of them are interleaved, and leave what they would leave
alone. A request is for the account of its token, or for one that it names.
-/

namespace FxaLite.Devices

open Concurrent Crypto Relational
open Accounts (Random hexText)

variable (host : Host)

/-- What the tables have of an account. -/
def DeviceDb.of (db : DeviceDb) (uid : String) : DeviceDb where
  accounts := db.accounts.filter (· = uid)
  sessionTokens := db.sessionTokens.deleteWhere fun _ row => row.uid ≠ uid
  refreshTokens := db.refreshTokens.deleteWhere fun _ row => row.uid ≠ uid
  devices := db.devices.deleteWhere fun _ row => row.uid ≠ uid

/-- The session that a header names. -/
def namedSession (header : Option (List Char)) : Option String :=
  match Accounts.tokenId header .session with
  | .ok (some id) => some (String.ofList id)
  | _ => none

/-- It names it by its id. -/
theorem namedSession_eq_some {header : Option (List Char)} {name : String} :
    namedSession header = some name ↔ ∃ id, Accounts.tokenId header .session = .ok (some id) ∧ name = String.ofList id := by
  unfold namedSession
  cases Accounts.tokenId header .session with
  | error reason => simp
  | ok id => cases id <;> simp [eq_comm]

/-- Unless it is one of a refresh token, it presents that session. -/
theorem presented_of_session {header : Option (List Char)} (h : Accounts.refreshBearer header = none) :
    presented host header = (namedSession header).map .session := by
  unfold presented namedSession
  rw [h]
  cases Accounts.tokenId header .session with
  | error reason => rfl
  | ok id => cases id <;> rfl

/-- The account that a request is for, if there is one. -/
def Ownership.account (own : Ownership) : Request → Option String
  | .register registration => (presented host registration.header).map own.of
  | .list header _ _ | .commands header | .destroyDevice header _ | .notify header => (presented host header).map own.of
  | .attached header _ _ | .status header | .destroySession header _ | .duplicate header _ _ _ | .reauth header _ _ _ =>
    (namedSession header).map own.session
  | .signIn uid _ _ _ | .mint uid _ _ _ _ | .createAccount uid | .removeAccount uid => some uid
  | .spend token _ | .revoke token _ => (hashToken host token).toOption.map own.refresh
  | .legacyRevoke payload => (payload.target host).map own.refresh

/-- The tables, and what they have of an account. -/
def Aside (own : Ownership) (uid : String) (db alone : DeviceDb) : Prop := Sound own True db ∧ db.of uid = alone

/-! ### What is found -/

section Found

variable {own : Ownership} {uid key : String} {db alone : DeviceDb} {credential : Credential}

/-- The rows are apart. -/
theorem Aside.apart (h : Aside own uid db alone) : Apart own db := h.1.2 trivial

/-- A session is found if it is of the account. -/
theorem Aside.sessionToken (h : Aside own uid db alone) : alone.sessionToken key = (db.sessionToken key).filter (·.uid = uid) := by
  rw [← h.2]
  simp [DeviceDb.sessionToken, DeviceDb.of]

/-- So is a refresh token. -/
theorem Aside.refreshToken (h : Aside own uid db alone) : alone.refreshToken key = (db.refreshToken key).filter (·.uid = uid) := by
  rw [← h.2]
  simp [DeviceDb.refreshToken, DeviceDb.of]

/-- And a device. -/
theorem Aside.find?_devices (h : Aside own uid db alone) :
    alone.devices.find? key = (db.devices.find? key).filter (·.uid = uid) := by
  rw [← h.2]
  simp [DeviceDb.of]

/-- What is of one account is what a filter lets pass. -/
theorem filter_eq_self {α : Type} {p : α → Bool} {found : Option α} (h : ∀ value, found = some value → p value = true) :
    found.filter p = found := by
  cases found with
  | none => rfl
  | some value => rw [Option.filter_some, if_pos (h value rfl)]

/-- A session of the account is found as it is. -/
theorem Aside.ownSession (h : Aside own uid db alone) (hown : own.session key = uid) :
    alone.sessionToken key = db.sessionToken key := by
  rw [h.sessionToken]
  exact filter_eq_self fun row hrow => decide_eq_true ((h.apart.session key row hrow).trans hown)

/-- A refresh token of the account. -/
theorem Aside.ownRefresh (h : Aside own uid db alone) (hown : own.refresh key = uid) :
    alone.refreshToken key = db.refreshToken key := by
  rw [h.refreshToken]
  exact filter_eq_self fun row hrow => decide_eq_true ((h.apart.refresh key row hrow).trans hown)

/-- A device of the account. -/
theorem Aside.ownDevice (h : Aside own uid db alone) (hown : own.device key = uid) :
    alone.devices.find? key = db.devices.find? key := by
  rw [h.find?_devices]
  exact filter_eq_self fun row hrow => decide_eq_true ((h.apart.device key row hrow).trans hown)

/-- The account itself. -/
theorem Aside.mem_accounts (h : Aside own uid db alone) : uid ∈ alone.accounts ↔ uid ∈ db.accounts := by
  rw [← h.2]
  simp [DeviceDb.of]

/-- A device that is asked for by its account. -/
theorem Aside.device (h : Aside own uid db alone) : alone.device uid key = db.device uid key := by
  rw [DeviceDb.device, DeviceDb.device, h.find?_devices]
  simp

/-- The device of a token of the account. -/
theorem Aside.deviceBy (h : Aside own uid db alone) (hown : own.of credential = uid) :
    alone.deviceBy credential = db.deviceBy credential := by
  rw [DeviceDb.deviceBy, DeviceDb.deviceBy]
  congr 2
  refine Table.select_congr fun id row => ?_
  rw [h.find?_devices, Option.filter_eq_some_iff]
  constructor
  · rintro ⟨⟨hfind, -⟩, hpoints⟩
    exact ⟨hfind, hpoints⟩
  · rintro ⟨hfind, hpoints⟩
    exact ⟨⟨hfind, decide_eq_true ((h.apart.pointer id row credential hfind hpoints).symm.trans hown)⟩, hpoints⟩

/-- What the account has is listed alike. -/
theorem select_of {ν : Type} {t t' : Table String ν} {account : ν → String}
    (h : ∀ key, t'.find? key = (t.find? key).filter (account · = uid)) :
    (t'.select fun _ row => account row = uid) = t.select fun _ row => account row = uid := by
  refine Table.select_congr fun id row => ?_
  rw [h, Option.filter_eq_some_iff]
  exact ⟨fun hboth => ⟨hboth.1.1, hboth.2⟩, fun hboth => ⟨hboth, hboth.2⟩⟩

/-- The devices of the account. -/
theorem Aside.devicesOf (h : Aside own uid db alone) : alone.devicesOf uid = db.devicesOf uid := by
  rw [DeviceDb.devicesOf, DeviceDb.devicesOf, select_of fun _ => h.find?_devices]

/-- Its sessions. -/
theorem Aside.sessionTokensOf (h : Aside own uid db alone) : alone.sessionTokensOf uid = db.sessionTokensOf uid := by
  rw [DeviceDb.sessionTokensOf, DeviceDb.sessionTokensOf, select_of fun _ => h.sessionToken]

/-- Its refresh tokens. -/
theorem Aside.refreshTokensOf (h : Aside own uid db alone) : alone.refreshTokensOf uid = db.refreshTokensOf uid := by
  rw [DeviceDb.refreshTokensOf, DeviceDb.refreshTokensOf, select_of fun _ => h.refreshToken]

/-- What a new session asks for. -/
theorem Aside.takesSession (h : Aside own uid db alone) (hown : own.session key = uid) :
    db.takesSession key uid = alone.takesSession key uid := by
  rw [DeviceDb.takesSession, DeviceDb.takesSession, h.ownSession hown, decide_eq_decide.mpr h.mem_accounts]

/-- What a new refresh token asks for. -/
theorem Aside.takesRefresh (h : Aside own uid db alone) (hown : own.refresh key = uid) :
    db.takesRefresh key uid = alone.takesRefresh key uid := by
  rw [DeviceDb.takesRefresh, DeviceDb.takesRefresh, h.ownRefresh hown, decide_eq_decide.mpr h.mem_accounts]

/-- What a device asks for: only a device of its account may clash with it. -/
theorem Aside.takesDevice {device : Device} (h : Aside own uid db alone) (huid : device.uid = uid) (hid : own.device device.id = uid)
    (hpointer : ∀ credential, device.pointsTo credential = true → own.of credential = uid) :
    db.takesDevice device = alone.takesDevice device := by
  rw [Bool.eq_iff_iff, DeviceDb.takesDevice_eq_true, DeviceDb.takesDevice_eq_true, h.ownDevice hid, huid, h.mem_accounts]
  refine and_congr Iff.rfl (and_congr ?_ ?_)
  · refine forall_congr' fun tokenId => forall_congr' fun htoken => ?_
    rw [h.ownSession (hpointer (.session tokenId) (decide_eq_true htoken))]
  · constructor
    · intro hall id row hfind hne
      rw [h.find?_devices, Option.filter_eq_some_iff] at hfind
      exact hall id row hfind.1 hne
    · intro hall id row hfind hne
      by_contra hclash
      obtain ⟨credential, hrow, hdevice⟩ := clashes_eq_true.mp (Bool.not_eq_false _ ▸ hclash)
      have hsame : row.uid = uid := (h.apart.pointer id row credential hfind hrow).symm.trans (hpointer credential hdevice)
      have hfree := hall id row (by rw [h.find?_devices, hfind, Option.filter_some, if_pos (decide_eq_true hsame)]) hne
      exact hclash hfree

end Found

/-! ### Statements of the account -/

section Own

variable {own : Ownership} {uid tokenId : String} {db alone : DeviceDb}

/-- At the start there is nothing to have. -/
theorem aside_fresh (own : Ownership) (uid : String) : Aside own uid DeviceDb.fresh DeviceDb.fresh :=
  ⟨⟨linked_fresh, fun _ => apart_fresh own⟩, rfl⟩

/-- `create_account`. -/
theorem Aside.createAccount (h : Aside own uid db alone) : Aside own uid (db.createAccount uid) (alone.createAccount uid) := by
  refine ⟨⟨h.1.1.createAccount, fun _ => h.apart.createAccount⟩, ?_⟩
  rw [← h.2]
  simp [DeviceDb.of, DeviceDb.createAccount]

/-- `delete_account`. -/
theorem Aside.deleteAccount (h : Aside own uid db alone) : Aside own uid (db.deleteAccount uid) (alone.deleteAccount uid) := by
  refine ⟨⟨h.1.1.deleteAccount, fun _ => h.apart.deleteAccount⟩, ?_⟩
  rw [← h.2]
  have hdevices : ((db.deleteAccount uid).of uid).devices = ((db.of uid).deleteAccount uid).devices := by
    apply Table.ext_find?
    intro id
    simp only [DeviceDb.of, DeviceDb.deleteAccount, Table.find?_deleteWhere]
    cases db.devices.find? id with
    | none => rfl
    | some row => by_cases huid : row.uid = uid <;> simp [Option.filter_some, huid]
  have haccounts : ((db.deleteAccount uid).of uid).accounts = ((db.of uid).deleteAccount uid).accounts := by
    simp only [DeviceDb.of, DeviceDb.deleteAccount, List.filter_filter, Bool.and_comm]
  simp only [DeviceDb.of, DeviceDb.deleteAccount, DeviceDb.mk.injEq] at haccounts hdevices ⊢
  exact ⟨haccounts, Table.deleteWhere_comm _ _ _, Table.deleteWhere_comm _ _ _, hdevices⟩

/-- `create_session_token`. -/
theorem Aside.createSessionToken {row : SessionRow} (h : Aside own uid db alone) (htakes : db.takesSession tokenId row.uid = true)
    (hown : own.session tokenId = row.uid) (huid : row.uid = uid) :
    Aside own uid (db.createSessionToken tokenId row) (alone.createSessionToken tokenId row) := by
  refine ⟨⟨h.1.1.createSessionToken htakes, fun _ => h.apart.createSessionToken hown⟩, ?_⟩
  rw [← h.2]
  simp only [DeviceDb.of, DeviceDb.createSessionToken]
  rw [Table.deleteWhere_set_of_false (by simp [huid])]

/-- An update of a session. -/
theorem Aside.updateSession {update : SessionRow → SessionRow} (h : Aside own uid db alone) (hupdate : ∀ row, (update row).uid = row.uid)
    (hown : own.session tokenId = uid) : Aside own uid (db.updateSession tokenId update) (alone.updateSession tokenId update) := by
  refine ⟨h.1.updateSession hupdate, ?_⟩
  rw [DeviceDb.updateSession, DeviceDb.updateSession, h.ownSession hown]
  cases hrow : db.sessionToken tokenId with
  | none => exact h.2
  | some row =>
    have huid : (update row).uid = uid := (hupdate row).trans ((h.apart.session tokenId row hrow).trans hown)
    rw [← h.2]
    simp only [DeviceDb.of]
    rw [Table.deleteWhere_set_of_false (by simp [huid])]

/-- `delete_session_token`. -/
theorem Aside.deleteSessionToken (h : Aside own uid db alone) (hown : own.session tokenId = uid) :
    Aside own uid (db.deleteSessionToken tokenId) (alone.deleteSessionToken tokenId) := by
  refine ⟨h.1.deleteSessionToken, ?_⟩
  have hsame := h.ownSession hown
  simp only [DeviceDb.deleteSessionToken, hsame]
  rw [← h.2]
  simp only [DeviceDb.of, DeviceDb.mk.injEq, true_and]
  refine ⟨Table.deleteWhere_comm _ _ _, ?_⟩
  split
  · exact Table.deleteWhere_comm _ _ _
  · rfl

/-- `create_refresh_token`. -/
theorem Aside.createRefreshToken {row : RefreshRow} (h : Aside own uid db alone) (htakes : db.takesRefresh tokenId row.uid = true)
    (hown : own.refresh tokenId = row.uid) (huid : row.uid = uid) :
    Aside own uid (db.createRefreshToken tokenId row) (alone.createRefreshToken tokenId row) := by
  refine ⟨⟨h.1.1.createRefreshToken htakes, fun _ => h.apart.createRefreshToken hown⟩, ?_⟩
  rw [← h.2]
  simp only [DeviceDb.of, DeviceDb.createRefreshToken]
  rw [Table.deleteWhere_set_of_false (by simp [huid])]

/-- `touch_refresh_token`. -/
theorem Aside.touchRefreshToken {now : ℤ} (h : Aside own uid db alone) (hown : own.refresh tokenId = uid) :
    Aside own uid (db.touchRefreshToken tokenId now) (alone.touchRefreshToken tokenId now) := by
  refine ⟨⟨h.1.1.touchRefreshToken, fun _ => h.apart.touchRefreshToken⟩, ?_⟩
  rw [DeviceDb.touchRefreshToken, DeviceDb.touchRefreshToken, h.ownRefresh hown]
  cases hrow : db.refreshToken tokenId with
  | none => exact h.2
  | some row =>
    have huid : row.uid = uid := (h.apart.refresh tokenId row hrow).trans hown
    rw [← h.2]
    simp only [DeviceDb.of]
    rw [Table.deleteWhere_set_of_false (by simp [huid])]

/-- `delete_refresh_token`. -/
theorem Aside.deleteRefreshToken (h : Aside own uid db alone) :
    Aside own uid (db.deleteRefreshToken tokenId) (alone.deleteRefreshToken tokenId) := by
  refine ⟨⟨h.1.1.deleteRefreshToken, fun _ => h.apart.deleteRefreshToken⟩, ?_⟩
  rw [← h.2]
  simp only [DeviceDb.of, DeviceDb.deleteRefreshToken, DeviceDb.mk.injEq, true_and, and_true]
  exact Table.deleteWhere_comm _ _ _

/-- `upsert_device`. -/
theorem Aside.upsertDevice {device : Device} (h : Aside own uid db alone) (htakes : db.takesDevice device = true)
    (howned : device.sessionTokenId.isSome = !device.refreshTokenId.isSome) (huid : device.uid = uid) (hid : own.device device.id = uid)
    (hpointer : ∀ credential, device.pointsTo credential = true → own.of credential = uid) :
    Aside own uid (db.upsertDevice device) (alone.upsertDevice device) := by
  refine ⟨⟨h.1.1.upsertDevice htakes howned, fun _ => h.apart.upsertDevice (hid.trans huid.symm) fun credential hpoints =>
    (hpointer credential hpoints).trans huid.symm⟩, ?_⟩
  simp only [DeviceDb.upsertDevice, Table.upsert, h.ownDevice hid]
  rw [← h.2]
  simp only [DeviceDb.of, DeviceDb.mk.injEq, true_and]
  refine Table.deleteWhere_set_of_false ?_
  cases hold : db.devices.find? device.id with
  | none => simp [huid]
  | some old => simp [(h.apart.device device.id old hold).trans hid]

/-- `delete_device`: its session and its refresh token are of the account. -/
theorem Aside.removeDevice {device : Device} (h : Aside own uid db alone)
    (hpointer : ∀ credential, device.pointsTo credential = true → own.of credential = uid) :
    Aside own uid (db.removeDevice uid device) (alone.removeDevice uid device) := by
  have hdevices : Aside own uid { db with devices := db.devices.deleteWhere fun id row => row.uid = uid && id = device.id }
      { alone with devices := alone.devices.deleteWhere fun id row => row.uid = uid && id = device.id } := by
    refine ⟨⟨h.1.1.deleteDevices _, fun _ => h.apart.deleteDevices _⟩, ?_⟩
    rw [← h.2]
    simp only [DeviceDb.of, DeviceDb.mk.injEq, true_and]
    exact Table.deleteWhere_comm _ _ _
  unfold DeviceDb.removeDevice
  cases hsession : device.sessionTokenId.filter (· ≠ "") with
  | none => cases device.refreshTokenId.filter (· ≠ "") with
    | none => exact hdevices
    | some refreshId => exact hdevices.deleteRefreshToken
  | some sessionId =>
    have hown := hpointer (.session sessionId) (decide_eq_true (Option.filter_eq_some_iff.mp hsession).1)
    cases device.refreshTokenId.filter (· ≠ "") with
    | none => exact hdevices.deleteSessionToken hown
    | some refreshId => exact (hdevices.deleteSessionToken hown).deleteRefreshToken

end Own

/-! ### Statements of other accounts -/

section Other

variable {own : Ownership} {uid other tokenId : String} {db alone : DeviceDb}

/-- Another account is made. -/
theorem Aside.createAccount_other (h : Aside own uid db alone) (hne : other ≠ uid) : Aside own uid (db.createAccount other) alone := by
  refine ⟨⟨h.1.1.createAccount, fun _ => h.apart.createAccount⟩, ?_⟩
  rw [← h.2]
  simp [DeviceDb.of, DeviceDb.createAccount, hne]

/-- And deleted: no device of the account points at a session of it. -/
theorem Aside.deleteAccount_other (h : Aside own uid db alone) (hne : other ≠ uid) : Aside own uid (db.deleteAccount other) alone := by
  refine ⟨⟨h.1.1.deleteAccount, fun _ => h.apart.deleteAccount⟩, ?_⟩
  rw [← h.2]
  simp only [DeviceDb.of, DeviceDb.deleteAccount, DeviceDb.mk.injEq]
  refine ⟨?_, Table.deleteWhere_deleteWhere_of_imp ?_, Table.deleteWhere_deleteWhere_of_imp ?_, Table.deleteWhere_deleteWhere_of_imp ?_⟩
  · rw [List.filter_filter]
    refine List.filter_congr fun account _ => ?_
    by_cases heq : account = uid <;> simp [heq, hne.symm]
  · intro key row _ hrow
    exact decide_eq_true ((of_decide_eq_true hrow).trans_ne hne)
  · intro key row _ hrow
    exact decide_eq_true ((of_decide_eq_true hrow).trans_ne hne)
  · intro id row hfind hrow
    rw [Bool.or_eq_true, decide_eq_true_eq, Option.any_eq_true] at hrow
    refine decide_eq_true ?_
    obtain hrow | ⟨session, hsession, huid⟩ := hrow
    · exact hrow.trans_ne hne
    · obtain ⟨tokenId, htoken, hlive⟩ := Option.bind_eq_some_iff.mp hsession
      have hpointer := h.apart.pointer id row (.session tokenId) hfind (decide_eq_true htoken)
      exact (hpointer.symm.trans ((h.apart.session tokenId session hlive).symm.trans (of_decide_eq_true huid))).trans_ne hne

/-- A session is made for another account. -/
theorem Aside.createSessionToken_other {row : SessionRow} (h : Aside own uid db alone)
    (htakes : db.takesSession tokenId row.uid = true) (hown : own.session tokenId = row.uid) (hne : row.uid ≠ uid) :
    Aside own uid (db.createSessionToken tokenId row) alone := by
  refine ⟨⟨h.1.1.createSessionToken htakes, fun _ => h.apart.createSessionToken hown⟩, ?_⟩
  rw [← h.2]
  simp only [DeviceDb.of, DeviceDb.createSessionToken, DeviceDb.mk.injEq, true_and, and_true]
  refine Table.deleteWhere_set_of_true (decide_eq_true hne) fun old hold => decide_eq_true ?_
  exact (h.apart.session tokenId old hold).trans_ne (hown.trans_ne hne)

/-- One of another account is updated. -/
theorem Aside.updateSession_other {update : SessionRow → SessionRow} (h : Aside own uid db alone)
    (hupdate : ∀ row, (update row).uid = row.uid) (hne : own.session tokenId ≠ uid) :
    Aside own uid (db.updateSession tokenId update) alone := by
  refine ⟨h.1.updateSession hupdate, ?_⟩
  rw [DeviceDb.updateSession]
  cases hrow : db.sessionToken tokenId with
  | none => exact h.2
  | some row =>
    have hother : row.uid ≠ uid := (h.apart.session tokenId row hrow).trans_ne hne
    rw [← h.2]
    simp only [DeviceDb.of, DeviceDb.mk.injEq, true_and, and_true]
    refine Table.deleteWhere_set_of_true (decide_eq_true ((hupdate row).trans_ne hother)) fun old hold => decide_eq_true ?_
    exact (h.apart.session tokenId old hold).trans_ne hne

/-- Or deleted, with its device. -/
theorem Aside.deleteSessionToken_other (h : Aside own uid db alone) (hne : own.session tokenId ≠ uid) :
    Aside own uid (db.deleteSessionToken tokenId) alone := by
  refine ⟨h.1.deleteSessionToken, ?_⟩
  rw [← h.2]
  simp only [DeviceDb.deleteSessionToken, DeviceDb.of, DeviceDb.mk.injEq, true_and]
  refine ⟨Table.deleteWhere_deleteWhere_of_imp fun key row hfind hkey => decide_eq_true ?_, ?_⟩
  · rw [of_decide_eq_true hkey] at hfind
    exact (h.apart.session tokenId row hfind).trans_ne hne
  · split
    · refine Table.deleteWhere_deleteWhere_of_imp fun id row hfind hpoints => decide_eq_true ?_
      exact (h.apart.pointer id row (.session tokenId) hfind hpoints).symm.trans_ne hne
    · rfl

/-- A refresh token is made for another account. -/
theorem Aside.createRefreshToken_other {row : RefreshRow} (h : Aside own uid db alone)
    (htakes : db.takesRefresh tokenId row.uid = true) (hown : own.refresh tokenId = row.uid) (hne : row.uid ≠ uid) :
    Aside own uid (db.createRefreshToken tokenId row) alone := by
  refine ⟨⟨h.1.1.createRefreshToken htakes, fun _ => h.apart.createRefreshToken hown⟩, ?_⟩
  rw [← h.2]
  simp only [DeviceDb.of, DeviceDb.createRefreshToken, DeviceDb.mk.injEq, true_and, and_true]
  refine Table.deleteWhere_set_of_true (decide_eq_true hne) fun old hold => decide_eq_true ?_
  exact (h.apart.refresh tokenId old hold).trans_ne (hown.trans_ne hne)

/-- One of another account is spent. -/
theorem Aside.touchRefreshToken_other {now : ℤ} (h : Aside own uid db alone) (hne : own.refresh tokenId ≠ uid) :
    Aside own uid (db.touchRefreshToken tokenId now) alone := by
  refine ⟨⟨h.1.1.touchRefreshToken, fun _ => h.apart.touchRefreshToken⟩, ?_⟩
  rw [DeviceDb.touchRefreshToken]
  cases hrow : db.refreshToken tokenId with
  | none => exact h.2
  | some row =>
    have hother : row.uid ≠ uid := (h.apart.refresh tokenId row hrow).trans_ne hne
    rw [← h.2]
    simp only [DeviceDb.of, DeviceDb.mk.injEq, true_and, and_true]
    refine Table.deleteWhere_set_of_true (decide_eq_true hother) fun old hold => decide_eq_true ?_
    exact (h.apart.refresh tokenId old hold).trans_ne hne

/-- Or deleted. -/
theorem Aside.deleteRefreshToken_other (h : Aside own uid db alone) (hne : own.refresh tokenId ≠ uid) :
    Aside own uid (db.deleteRefreshToken tokenId) alone := by
  refine ⟨⟨h.1.1.deleteRefreshToken, fun _ => h.apart.deleteRefreshToken⟩, ?_⟩
  rw [← h.2]
  simp only [DeviceDb.of, DeviceDb.deleteRefreshToken, DeviceDb.mk.injEq, true_and, and_true]
  refine Table.deleteWhere_deleteWhere_of_imp fun key row hfind hkey => decide_eq_true ?_
  rw [of_decide_eq_true hkey] at hfind
  exact (h.apart.refresh tokenId row hfind).trans_ne hne

/-- A device of another account is stored. -/
theorem Aside.upsertDevice_other {device : Device} (h : Aside own uid db alone) (htakes : db.takesDevice device = true)
    (howned : device.sessionTokenId.isSome = !device.refreshTokenId.isSome) (hid : own.device device.id = device.uid)
    (hpointer : ∀ credential, device.pointsTo credential = true → own.of credential = device.uid) (hne : device.uid ≠ uid) :
    Aside own uid (db.upsertDevice device) alone := by
  refine ⟨⟨h.1.1.upsertDevice htakes howned, fun _ => h.apart.upsertDevice hid hpointer⟩, ?_⟩
  rw [← h.2]
  simp only [DeviceDb.upsertDevice, Table.upsert, DeviceDb.of, DeviceDb.mk.injEq, true_and]
  have hold : ∀ old, db.devices.find? device.id = some old → old.uid ≠ uid :=
    fun old hfind => (h.apart.device device.id old hfind).trans_ne (hid.trans_ne hne)
  refine Table.deleteWhere_set_of_true (decide_eq_true ?_) fun old hfind => decide_eq_true (hold old hfind)
  cases hfind : db.devices.find? device.id with
  | none => exact hne
  | some old => exact hold old hfind

/-- Or removed. -/
theorem Aside.removeDevice_other {device : Device} (h : Aside own uid db alone) (hne : other ≠ uid)
    (hpointer : ∀ credential, device.pointsTo credential = true → own.of credential ≠ uid) :
    Aside own uid (db.removeDevice other device) alone := by
  have hdevices : Aside own uid { db with devices := db.devices.deleteWhere fun id row => row.uid = other && id = device.id } alone := by
    refine ⟨⟨h.1.1.deleteDevices _, fun _ => h.apart.deleteDevices _⟩, ?_⟩
    rw [← h.2]
    simp only [DeviceDb.of, DeviceDb.mk.injEq, true_and]
    refine Table.deleteWhere_deleteWhere_of_imp fun id row _ hrow => decide_eq_true ?_
    rw [Bool.and_eq_true, decide_eq_true_eq] at hrow
    exact hrow.1.trans_ne hne
  unfold DeviceDb.removeDevice
  cases hsession : device.sessionTokenId.filter (· ≠ "") <;> cases hrefresh : device.refreshTokenId.filter (· ≠ "")
  · exact hdevices
  · exact hdevices.deleteRefreshToken_other (hpointer (.refresh _) (decide_eq_true (Option.filter_eq_some_iff.mp hrefresh).1))
  · exact hdevices.deleteSessionToken_other (hpointer (.session _) (decide_eq_true (Option.filter_eq_some_iff.mp hsession).1))
  · exact (hdevices.deleteSessionToken_other
      (hpointer (.session _) (decide_eq_true (Option.filter_eq_some_iff.mp hsession).1))).deleteRefreshToken_other
        (hpointer (.refresh _) (decide_eq_true (Option.filter_eq_some_iff.mp hrefresh).1))

end Other

/-! ### Requests for the account -/

section OwnPrograms

variable {host} {own : Ownership} {uid : String} {header : Option (List Char)}

/-- A device points at tokens of an account only. -/
def Device.PointsInto (own : Ownership) (uid : String) (device : Device) : Prop :=
  ∀ credential, device.pointsTo credential = true → own.of credential = uid

/-- A device of the account does. -/
theorem pointsInto_of_find? {db : DeviceDb} {device : Device} (h : Apart own db)
    (hfind : db.devices.find? device.id = some device.toDeviceRow) (huid : device.uid = uid) : device.PointsInto own uid :=
  fun credential hpoints => (h.pointer device.id device.toDeviceRow credential hfind hpoints).trans huid

/-- So does one that is listed. -/
theorem pointsInto_of_mem {db : DeviceDb} {device : Device} (h : Apart own db) (hmem : device ∈ db.devicesOf uid) :
    device.PointsInto own uid := by
  rw [DeviceDb.devicesOf, List.mem_mergeSort, List.mem_map] at hmem
  obtain ⟨entry, hentry, rfl⟩ := hmem
  obtain ⟨hfind, huid⟩ := Table.mem_select.mp hentry
  exact pointsInto_of_find? h hfind (of_decide_eq_true huid)

/-- The session of the account that a header names. -/
theorem paired_sessionCredentials (hown : ∀ id, namedSession header = some id → own.session id = uid) :
    (sessionCredentials header).Paired (Aside own uid)
      (fun result => ∀ session, result = .ok session →
        namedSession header = some session.1 ∧ own.session session.1 = uid ∧ session.2.uid = uid)
      (sessionCredentials header) := by
  unfold sessionCredentials
  unfold namedSession at hown ⊢
  cases hid : Accounts.tokenId header .session with
  | error reason => exact ⟨rfl, fun _ h => by cases h⟩
  | ok id =>
    cases id with
    | none => exact ⟨rfl, fun _ h => by cases h⟩
    | some id =>
      rw [hid] at hown
      have hsession := hown _ rfl
      refine .read fun db alone h => ?_
      rw [h.ownSession hsession]
      cases hrow : db.sessionToken (String.ofList id) with
      | none => exact ⟨rfl, fun _ h => by cases h⟩
      | some row =>
        have huid : row.uid = uid := (h.apart.session _ row hrow).trans hsession
        refine .read fun db' alone' h' => ?_
        rw [huid]
        refine .ite h'.mem_accounts.symm ⟨rfl, fun session hok => ?_⟩ ⟨rfl, fun _ h => by cases h⟩
        cases hok
        exact ⟨rfl, hsession, huid⟩

/-- The token of the account that a header presents. -/
theorem paired_deviceCredentials (hown : ∀ credential, presented host header = some credential → own.of credential = uid) :
    (deviceCredentials host header).Paired (Aside own uid)
      (fun result => ∀ credentials, result = .ok credentials →
        presented host header = some credentials.token ∧ own.of credentials.token = uid ∧ credentials.uid = uid)
      (deviceCredentials host header) := by
  unfold deviceCredentials
  cases hbearer : Accounts.refreshBearer header with
  | none =>
    rw [presented_of_session host hbearer] at hown ⊢
    refine (paired_sessionCredentials fun id hid => ?_).andThen (fun raised _ h => by cases h) fun session hsession => ?_
    · exact hown (.session id) (by rw [hid]; rfl)
    · obtain ⟨hnamed, hown', huid⟩ := hsession
      refine ⟨rfl, fun credentials hok => ?_⟩
      cases hok
      exact ⟨by rw [hnamed]; rfl, hown', huid⟩
  | some token =>
    unfold presented at hown ⊢
    rw [hbearer] at hown ⊢
    dsimp only at hown ⊢
    cases hid : hashToken host (String.ofList token) with
    | error raised => exact ⟨rfl, fun _ h => by cases h⟩
    | ok id =>
      rw [hid] at hown
      have hrefresh := hown _ rfl
      refine .read fun db alone h => ?_
      rw [h.ownRefresh hrefresh]
      cases hrow : db.refreshToken id with
      | none => exact ⟨rfl, fun _ h => by cases h⟩
      | some row =>
        have huid : row.uid = uid := (h.apart.refresh _ row hrow).trans hrefresh
        refine .read fun db' alone' h' => ?_
        rw [huid]
        refine .ite h'.mem_accounts.symm ⟨rfl, fun credentials hok => ?_⟩ ⟨rfl, fun _ h => by cases h⟩
        obtain ⟨client, -, rfl⟩ := Fallible.map_eq_ok.mp hok
        exact ⟨rfl, hrefresh, huid⟩

/-- When a device was last seen. -/
theorem paired_lastAccessTime {device : Device} (hpoints : device.PointsInto own uid) :
    (lastAccessTime device).Paired (Aside own uid) (fun _ => True) (lastAccessTime device) := by
  have hrefresh : (refreshAccessTime device).Paired (Aside own uid) (fun _ => True) (refreshAccessTime device) := by
    unfold refreshAccessTime
    cases hgiven : OAuth.given device.refreshTokenId with
    | none => exact ⟨rfl, trivial⟩
    | some id =>
      refine .read fun db alone h => ?_
      rw [h.ownRefresh (hpoints (.refresh id) (decide_eq_true (Option.filter_eq_some_iff.mp hgiven).1))]
      exact ⟨rfl, trivial⟩
  unfold lastAccessTime
  cases hgiven : OAuth.given device.sessionTokenId with
  | none => exact hrefresh
  | some id =>
    refine .read fun db alone h => ?_
    rw [h.ownSession (hpoints (.session id) (decide_eq_true (Option.filter_eq_some_iff.mp hgiven).1))]
    cases db.sessionToken id with
    | none => exact hrefresh
    | some row => exact ⟨rfl, trivial⟩

/-- The loop of the list. -/
theorem paired_listFrom {filterIdle : Option ℤ} {credentials : DeviceCredentials} {devices : List Device}
    (hpoints : ∀ device ∈ devices, device.PointsInto own uid) :
    (listFrom filterIdle credentials devices).Paired (Aside own uid) (fun _ => True) (listFrom filterIdle credentials devices) := by
  induction devices with
  | nil => exact ⟨rfl, trivial⟩
  | cons device rest ih =>
    obtain ⟨hdevice, hrest⟩ := List.forall_mem_cons.mp hpoints
    refine (paired_lastAccessTime hdevice).bind fun lastAccess _ => ?_
    refine ((ih hrest).imp fun _ _ _ _ => trivial).andThen (Q := fun _ => True) (fun _ => trivial) fun listed _ => ?_
    exact .ite Iff.rfl ⟨rfl, trivial⟩ ⟨rfl, trivial⟩

/-- The loop of the attached devices. -/
theorem paired_attachedDevicesFrom {filterIdle : Option ℤ} {devices : List Device}
    (hpoints : ∀ device ∈ devices, device.PointsInto own uid) :
    (attachedDevicesFrom filterIdle devices).Paired (Aside own uid) (fun _ => True) (attachedDevicesFrom filterIdle devices) := by
  induction devices with
  | nil => exact ⟨rfl, trivial⟩
  | cons device rest ih =>
    obtain ⟨hdevice, hrest⟩ := List.forall_mem_cons.mp hpoints
    refine (paired_lastAccessTime hdevice).bind fun lastAccess _ => ?_
    refine ((ih hrest).imp fun _ _ _ _ => trivial).andThen (Q := fun _ => True) (fun _ => trivial) fun attached _ => ?_
    exact .ite Iff.rfl ⟨rfl, trivial⟩ ⟨rfl, trivial⟩

/-- A device of the account is stored. -/
theorem paired_store {registration : Registration} {credentials : DeviceCredentials} {current : Option Device}
    (htoken : own.of credentials.token = uid) (huid : credentials.uid = uid)
    (hid : own.device (registration.device host credentials current).id = uid) :
    (store host registration credentials current).Paired (Aside own uid) (fun _ => True)
      (store host registration credentials current) := by
  have hpointer : ∀ credential, (registration.device host credentials current).pointsTo credential = true →
      own.of credential = uid := by
    intro credential hpoints
    rw [← token_of_pointsTo hpoints]
    exact htoken
  exact .guarded (fun db alone h => h.takesDevice huid hid hpointer) (fun db alone h htakes =>
    h.upsertDevice htakes (owned_device _ _ _) huid hid hpointer) trivial trivial

/-- `device_register`. -/
theorem paired_deviceRegister {registration : Registration}
    (hown : ∀ credential, presented host registration.header = some credential → own.of credential = uid)
    (hdrawn : ∀ credential, presented host registration.header = some credential →
      own.device registration.drawn = own.of credential) :
    (deviceRegister host registration).Paired (Aside own uid) (fun _ => True) (deviceRegister host registration) := by
  refine (paired_deviceCredentials hown).andThen (fun _ => trivial) fun credentials hcredentials => ?_
  obtain ⟨hpresented, htoken, huid⟩ := hcredentials
  refine .read fun db alone h => ?_
  have hcurrent : currentDevice alone credentials = currentDevice db credentials := by
    cases credentials with
    | ofSession tokenId row => exact h.deviceBy htoken
    | ofRefresh tokenId row client => exact h.deviceBy htoken
  rw [hcurrent]
  unfold registerOver
  cases hgiven : OAuth.given registration.payload.id with
  | none =>
    refine paired_store htoken huid ?_
    rw [Registration.device, merge, hgiven]
    cases hexisting : currentDevice db credentials with
    | none => exact (hdrawn _ hpresented).trans htoken
    | some device => exact (own_currentDevice h.apart hexisting).trans htoken
  | some id =>
    refine .read fun db' alone' h' => ?_
    rw [huid, h'.device]
    cases hdevice : db'.device uid id with
    | none => exact ⟨rfl, trivial⟩
    | some current =>
      have hstored : (store host registration credentials (some current)).Paired (Aside own uid) (fun _ => True)
          (store host registration credentials (some current)) := by
        refine paired_store htoken huid ?_
        rw [Registration.device, merge, hgiven]
        exact (own_device h'.apart hdevice).1
      cases currentDevice db credentials with
      | none => exact hstored
      | some device => exact .ite Iff.rfl ⟨rfl, trivial⟩ hstored

/-- A session is made for the account. -/
theorem paired_createSession {seed : Random 32} {row : SessionRow} (huid : row.uid = uid)
    (hown : own.session (hexText (tokenKeys host.toSha256 .session seed).id) = row.uid) :
    (createSession host seed row).Paired (Aside own uid) (fun _ => True) (createSession host seed row) := by
  refine .guarded (fun db alone h => ?_) (fun db alone h htakes => h.createSessionToken htakes hown huid) trivial trivial
  rw [show row.uid = uid from huid]
  exact h.takesSession (hown.trans huid)

/-- A refresh token of the account is revoked. -/
theorem paired_revoke {id : String} {clientId : Option String} (hown : own.refresh id = uid) :
    (revoke id clientId).Paired (Aside own uid) (fun _ => True) (revoke id clientId) := by
  have hdelete : (Script.act (ρ := Except DeviceError Unit) (·.deleteRefreshToken id) (.done (.ok ()))).Paired (Aside own uid)
      (fun _ => True) (.act (·.deleteRefreshToken id) (.done (.ok ()))) :=
    .act (fun db alone h => h.deleteRefreshToken) ⟨rfl, trivial⟩
  refine .read fun db alone h => ?_
  rw [h.ownRefresh hown]
  cases db.refreshToken id with
  | none => exact ⟨rfl, trivial⟩
  | some row =>
    cases OAuth.given clientId with
    | none => exact hdelete
    | some named =>
      dsimp only
      cases compareDigest row.clientId.toList (OAuth.lower named).toList with
      | none => exact ⟨rfl, trivial⟩
      | some same =>
        cases same with
        | false => exact ⟨rfl, trivial⟩
        | true => exact hdelete

/-- By its text likewise. -/
theorem paired_oauthDestroy {token : String} {clientId : Option String}
    (hown : ∀ id, hashToken host token = .ok id → own.refresh id = uid) :
    (oauthDestroy host token clientId).Paired (Aside own uid) (fun _ => True) (oauthDestroy host token clientId) := by
  unfold oauthDestroy
  cases hid : hashToken host token with
  | error raised => exact ⟨rfl, trivial⟩
  | ok id => exact paired_revoke (hown id hid)

/-- `destroy`. -/
theorem paired_legacyDestroy {payload : LegacyDestroy} (hown : ∀ id, payload.target host = some id → own.refresh id = uid) :
    (legacyDestroy host payload).Paired (Aside own uid) (fun _ => True) (legacyDestroy host payload) := by
  unfold legacyDestroy
  refine .ite Iff.rfl ⟨rfl, trivial⟩ ?_
  cases hgiven : OAuth.given payload.refreshTokenId with
  | some id =>
    refine paired_revoke (hown id ?_)
    rw [LegacyDestroy.target, hgiven, Option.some_or]
  | none =>
    refine paired_oauthDestroy fun id hid => hown id ?_
    rw [LegacyDestroy.target, hgiven, Option.none_or, hid]
    rfl

/-- `device_list`. -/
theorem paired_deviceList {filterIdle : Option ℤ} {now : ℤ}
    (hown : ∀ credential, presented host header = some credential → own.of credential = uid) :
    (deviceList host header filterIdle now).Paired (Aside own uid) (fun _ => True) (deviceList host header filterIdle now) := by
  refine (paired_deviceCredentials hown).andThen (fun _ => trivial) fun credentials hcredentials => ?_
  obtain ⟨-, htoken, huid⟩ := hcredentials
  refine .act (fun db alone h => ?_) (.read fun db alone h => ?_)
  · cases credentials with
    | ofSession tokenId row => exact h.updateSession (fun _ => rfl) htoken
    | ofRefresh tokenId row client => exact h
  · rw [huid, h.devicesOf]
    exact paired_listFrom fun device hmem => pointsInto_of_mem h.apart hmem

/-- `device_commands`. -/
theorem paired_deviceCommands (hown : ∀ credential, presented host header = some credential → own.of credential = uid) :
    (deviceCommands host header).Paired (Aside own uid) (fun _ => True) (deviceCommands host header) := by
  refine (paired_deviceCredentials hown).andThen (fun _ => trivial) fun credentials hcredentials => .read fun db alone h => ?_
  have hcurrent : currentDevice alone credentials = currentDevice db credentials := by
    cases credentials with
    | ofSession tokenId row => exact h.deviceBy hcredentials.2.1
    | ofRefresh tokenId row client => exact h.deviceBy hcredentials.2.1
  rw [hcurrent]
  exact .ite Iff.rfl ⟨rfl, trivial⟩ ⟨rfl, trivial⟩

/-- `device_destroy`. -/
theorem paired_deviceDestroy {id : String}
    (hown : ∀ credential, presented host header = some credential → own.of credential = uid) :
    (deviceDestroy host header id).Paired (Aside own uid) (fun _ => True) (deviceDestroy host header id) := by
  refine (paired_deviceCredentials hown).andThen (fun _ => trivial) fun credentials hcredentials => .read fun db alone h => ?_
  rw [hcredentials.2.2, h.device]
  cases hfound : db.device uid id with
  | none => exact ⟨rfl, trivial⟩
  | some device =>
    obtain ⟨hfind, huid, rfl⟩ := DeviceDb.device_eq_some.mp hfound
    exact .act (fun db' alone' h' => h'.removeDevice (pointsInto_of_find? h.apart hfind huid)) ⟨rfl, trivial⟩

/-- `attached_clients`. -/
theorem paired_attachedClients {filterIdle : Option ℤ} {now : ℤ}
    (hown : ∀ id, namedSession header = some id → own.session id = uid) :
    (attachedClients host header filterIdle now).Paired (Aside own uid) (fun _ => True)
      (attachedClients host header filterIdle now) := by
  refine (paired_sessionCredentials hown).andThen (fun _ => trivial) fun session hcredentials => ?_
  obtain ⟨-, hsession, huid⟩ := hcredentials
  refine .act (fun db alone h => h.updateSession (fun _ => rfl) hsession) (.read fun db alone h => ?_)
  rw [huid, h.devicesOf]
  refine ((paired_attachedDevicesFrom fun device hmem => pointsInto_of_mem h.apart hmem).imp fun _ _ _ _ => trivial).andThen
    (Q := fun _ => True) (fun _ => trivial) fun devices _ => .read fun db' alone' h' => ?_
  rw [h'.refreshTokensOf]
  cases authorizedClients host (db'.refreshTokensOf uid) with
  | error raised => exact ⟨rfl, trivial⟩
  | ok grants =>
    refine .read fun db'' alone'' h'' => ?_
    rw [h''.sessionTokensOf]
    exact ⟨rfl, trivial⟩

/-- `session_destroy`. -/
theorem paired_sessionDestroy {custom : Option (List Char)}
    (hown : ∀ id, namedSession header = some id → own.session id = uid) :
    (sessionDestroy host header custom).Paired (Aside own uid) (fun _ => True) (sessionDestroy host header custom) := by
  have hdelete : ∀ {tokenId}, own.session tokenId = uid →
      (Script.act (ρ := Except DeviceError Unit) (·.deleteSessionToken tokenId) (.done (.ok ()))).Paired (Aside own uid)
        (fun _ => True) (.act (·.deleteSessionToken tokenId) (.done (.ok ()))) :=
    fun hsession => .act (fun db alone h => h.deleteSessionToken hsession) ⟨rfl, trivial⟩
  refine (paired_sessionCredentials hown).andThen (fun _ => trivial) fun session hcredentials => ?_
  obtain ⟨-, hsession, huid⟩ := hcredentials
  cases custom.filter (· ≠ []) with
  | none => exact hdelete hsession
  | some token =>
    dsimp only
    cases customTokenId host token with
    | error raised => exact ⟨rfl, trivial⟩
    | ok target =>
      refine .read fun db alone h => ?_
      -- A session of another account is answered like one that is not there.
      rw [h.sessionToken]
      cases hrow : db.sessionToken target with
      | none => exact ⟨rfl, trivial⟩
      | some row =>
        by_cases hsame : row.uid = uid
        · rw [Option.filter_some, if_pos (decide_eq_true hsame)]
          refine .ite Iff.rfl ⟨rfl, trivial⟩ (hdelete ?_)
          exact (h.apart.session target row hrow).symm.trans hsame
        · rw [Option.filter_some, if_neg (by simp [hsame])]
          dsimp only
          rw [if_pos (by rw [huid]; exact hsame)]
          exact ⟨rfl, trivial⟩

/-- `session_duplicate`. -/
theorem paired_sessionDuplicate {userAgent : Option String} {seed : Random 32} {now : ℤ}
    (hown : ∀ id, namedSession header = some id → own.session id = uid)
    (hdrawn : ∀ id, Accounts.tokenId header .session = .ok (some id) →
      own.session (hexText (tokenKeys host.toSha256 .session seed).id) = own.session (String.ofList id)) :
    (sessionDuplicate host header userAgent seed now).Paired (Aside own uid) (fun _ => True)
      (sessionDuplicate host header userAgent seed now) := by
  refine (paired_sessionCredentials hown).andThen (fun _ => trivial) fun session hcredentials => ?_
  obtain ⟨hnamed, hsession, huid⟩ := hcredentials
  refine paired_createSession huid ?_
  obtain ⟨id, hid, hname⟩ := namedSession_eq_some.mp hnamed
  rw [hdrawn id hid, ← hname, hsession]
  exact huid.symm

/-- `session_reauth`. -/
theorem paired_sessionReauth {email authenticated : String} {now : ℤ}
    (hown : ∀ id, namedSession header = some id → own.session id = uid) :
    (sessionReauth header email authenticated now).Paired (Aside own uid) (fun _ => True)
      (sessionReauth header email authenticated now) := by
  refine (paired_sessionCredentials hown).andThen (fun _ => trivial) fun session hcredentials => ?_
  refine .ite Iff.rfl ⟨rfl, trivial⟩ ?_
  exact .act (fun db alone h => h.updateSession (fun _ => rfl) hcredentials.2.1) ⟨rfl, trivial⟩

/-- `mint_refresh_token`. -/
theorem paired_mintRefreshToken {clientId scope token : String} {now : ℤ}
    (hdrawn : ∀ id, hashToken host token = .ok id → own.refresh id = uid) :
    (mintRefreshToken host uid clientId scope token now).Paired (Aside own uid) (fun _ => True)
      (mintRefreshToken host uid clientId scope token now) := by
  unfold mintRefreshToken
  cases hid : hashToken host token with
  | error raised => exact ⟨rfl, trivial⟩
  | ok id =>
    exact .guarded (fun db alone h => h.takesRefresh (hdrawn id hid))
      (fun db alone h htakes => h.createRefreshToken htakes (hdrawn id hid) rfl) trivial trivial

/-- To spend one. -/
theorem paired_spendRefreshToken {token : String} {now : ℤ} (hown : ∀ id, hashToken host token = .ok id → own.refresh id = uid) :
    (spendRefreshToken host token now).Paired (Aside own uid) (fun _ => True) (spendRefreshToken host token now) := by
  unfold spendRefreshToken
  cases hid : hashToken host token with
  | error raised => exact ⟨rfl, trivial⟩
  | ok id => exact .act (fun db alone h => h.touchRefreshToken (hown id hid)) ⟨rfl, trivial⟩

/-- The account is made, if it is not there. -/
theorem paired_createAccount :
    (Devices.createAccount uid).Paired (Aside own uid) (fun _ => True) (Devices.createAccount uid) := by
  intro db alone h
  dsimp only
  by_cases hmem : uid ∈ db.accounts
  · rw [if_pos hmem, if_pos (h.mem_accounts.mpr hmem), if_pos hmem, if_pos (h.mem_accounts.mpr hmem)]
    exact ⟨h, rfl, trivial⟩
  · rw [if_neg hmem, if_neg (mt h.mem_accounts.mp hmem), if_neg hmem, if_neg (mt h.mem_accounts.mp hmem)]
    exact ⟨h.createAccount, rfl, trivial⟩

/-- A request for the account goes on as it would alone. -/
theorem paired_program {request : Request} (hallows : own.Allows host request) (haccount : own.account host request = some uid) :
    (request.program host).Paired (Aside own uid) (fun _ => True) (request.program host) := by
  have hanswering : ∀ {α : Type} {answer : α → Answer} {program : Program α}, program.Paired (Aside own uid) (fun _ => True) program →
      (answering answer program).Paired (Aside own uid) (fun _ => True) (answering answer program) :=
    fun h => (h.imp fun _ _ _ _ => trivial).andThen (Q := fun _ => True) (fun _ => trivial) fun _ _ => ⟨rfl, trivial⟩
  have hnamed : ∀ {α : Type} {found : Option α} {account : α → String}, found.map account = some uid →
      ∀ value, found = some value → account value = uid := by
    intro α found account haccount value hfound
    rw [hfound] at haccount
    exact Option.some.inj haccount
  have hrefresh : ∀ {token}, (hashToken host token).toOption.map own.refresh = some uid →
      ∀ id, hashToken host token = .ok id → own.refresh id = uid :=
    fun haccount id hid => hnamed haccount id (by rw [hid]; rfl)
  cases request with
  | register registration => exact hanswering (paired_deviceRegister (hnamed haccount) hallows)
  | list header filterIdle now => exact hanswering (paired_deviceList (hnamed haccount))
  | commands header => exact hanswering (paired_deviceCommands (hnamed haccount))
  | destroyDevice header id => exact hanswering (paired_deviceDestroy (hnamed haccount))
  | notify header =>
    exact hanswering ((paired_deviceCredentials (hnamed haccount)).andThen (fun _ => trivial) fun credentials _ => ⟨rfl, trivial⟩)
  | attached header filterIdle now => exact hanswering (paired_attachedClients (hnamed haccount))
  | signIn uid' userAgent seed now =>
    cases haccount
    exact hanswering (paired_createSession rfl hallows)
  | status header =>
    exact hanswering ((paired_sessionCredentials (hnamed haccount)).andThen (fun _ => trivial) fun session _ => ⟨rfl, trivial⟩)
  | destroySession header custom => exact hanswering (paired_sessionDestroy (hnamed haccount))
  | duplicate header userAgent seed now => exact hanswering (paired_sessionDuplicate (hnamed haccount) hallows)
  | reauth header email authenticated now => exact hanswering (paired_sessionReauth (hnamed haccount))
  | mint uid' clientId scope token now =>
    cases haccount
    exact hanswering (paired_mintRefreshToken hallows)
  | spend token now => exact hanswering (paired_spendRefreshToken (hrefresh haccount))
  | revoke token clientId => exact hanswering (paired_oauthDestroy (hrefresh haccount))
  | legacyRevoke payload => exact hanswering (paired_legacyDestroy (hnamed haccount))
  | createAccount uid' =>
    cases haccount
    exact hanswering paired_createAccount
  | removeAccount uid' =>
    cases haccount
    exact hanswering (.act (fun db alone h => h.deleteAccount) ⟨rfl, trivial⟩)

end OwnPrograms

/-! ### Requests for other accounts -/

section OtherPrograms

variable {host} {own : Ownership} {uid : String}

/-- A request for another account, or for none, leaves the account as it is. -/
theorem leaves_program {request : Request} (hallows : own.Allows host request) (haccount : own.account host request ≠ some uid) :
    (request.program host).Leaves (Aside own uid) := by
  have hother : ∀ {α : Type} {found : Option α} {account : α → String}, found.map account ≠ some uid →
      ∀ value, found = some value → account value ≠ uid := by
    intro α found account haccount value hfound heq
    exact haccount (by rw [hfound, Option.map_some, heq])
  have hrefresh : ∀ {token}, (hashToken host token).toOption.map own.refresh ≠ some uid →
      ∀ id, hashToken host token = .ok id → own.refresh id ≠ uid :=
    fun haccount id hid => hother haccount id (by rw [hid]; rfl)
  have hdevice := fun {header} => @ensures_deviceCredentials host own True header
  have hsession := fun {header} => @ensures_sessionCredentials own True header
  -- A session that is presented is of another account.
  have hapart : ∀ {header} {session : String × SessionRow}, (namedSession header).map own.session ≠ some uid →
      ((∃ id, Accounts.tokenId header .session = .ok (some id) ∧ session.1 = String.ofList id) ∧
        (True → session.2.uid = own.session session.1)) → own.session session.1 ≠ uid :=
    fun haccount hS => hother haccount _ (namedSession_eq_some.mpr hS.1)
  have htouch : ∀ {tokenId now}, own.session tokenId ≠ uid → ∀ db : DeviceDb, Sound own True db → ∀ alone, Aside own uid db alone →
      Aside own uid (db.touchSessionToken tokenId now) alone := fun hne db _ alone h => h.updateSession_other (fun _ => rfl) hne
  refine Script.Makes.leaves (P := Sound own True)
    (A := fun db db' => ∀ alone, Aside own uid db alone → Aside own uid db' alone) ?_ (fun _ _ h => h.1) fun _ _ _ hchange => hchange _
  cases request with
  | register registration =>
    refine makes_answering (makes_deviceRegister hdevice fun credentials current hD db hdb hnames db' _ htakes alone h => ?_)
    obtain ⟨hpresented, huid⟩ := hD
    refine h.upsertDevice_other htakes (owned_device _ _ _) ?_ (fun credential hpoints => ?_) ?_
    · exact own_of_names (hdb.2 trivial) hnames (huid trivial) (hallows _ hpresented)
    · rw [← token_of_pointsTo hpoints]
      exact (huid trivial).symm
    · exact (huid trivial).trans_ne (hother haccount _ hpresented)
  | list header filterIdle now =>
    exact makes_answering (makes_deviceList hdevice fun tokenId row hD => htouch (hother haccount (.session tokenId) hD.1))
  | commands header => exact makes_answering makes_deviceCommands
  | destroyDevice header id =>
    refine makes_answering (makes_deviceDestroy hdevice fun credentials hD db device hdb hfound db' _ alone h => ?_)
    obtain ⟨hfind, huid, rfl⟩ := DeviceDb.device_eq_some.mp hfound
    have hne : credentials.uid ≠ uid := (hD.2 trivial).trans_ne (hother haccount _ hD.1)
    refine h.removeDevice_other hne fun credential hpoints => ?_
    exact (pointsInto_of_find? (hdb.2 trivial) hfind huid credential hpoints).trans_ne hne
  | notify header => exact makes_answering makes_devicesNotify
  | attached header filterIdle now =>
    exact makes_answering (makes_attachedClients hsession fun session hS => htouch (hapart haccount hS))
  | signIn uid' userAgent seed now =>
    exact makes_answering (makes_startSession fun db _ htakes alone h =>
      h.createSessionToken_other htakes hallows fun heq => haccount (congrArg some heq))
  | status header => exact makes_answering makes_sessionStatus
  | destroySession header custom =>
    refine makes_answering (makes_sessionDestroy hsession fun session target hS htarget db _ alone h => ?_)
    refine h.deleteSessionToken_other ?_
    obtain rfl | ⟨db', row, hdb', hrow, huid⟩ := htarget
    · exact hapart haccount hS
    · rw [← (hdb'.2 trivial).session target row hrow, huid, hS.2 trivial]
      exact hapart haccount hS
  | duplicate header userAgent seed now =>
    refine makes_answering (makes_sessionDuplicate hsession fun session hS db _ htakes alone h => ?_)
    refine h.createSessionToken_other htakes ?_ ((hS.2 trivial).trans_ne (hapart haccount hS))
    obtain ⟨⟨id, hid, hname⟩, huid⟩ := hS
    rw [hallows id hid, ← hname]
    exact (huid trivial).symm
  | reauth header email authenticated now =>
    exact makes_answering (makes_sessionReauth hsession fun session hS _ db _ alone h =>
      h.updateSession_other (fun _ => rfl) (hapart haccount hS))
  | mint uid' clientId scope token now =>
    exact makes_answering (makes_mintRefreshToken fun id hid db _ htakes alone h =>
      h.createRefreshToken_other htakes (hallows id hid) fun heq => haccount (congrArg some heq))
  | spend token now =>
    exact makes_answering (makes_spendRefreshToken fun id hid db _ alone h => h.touchRefreshToken_other (hrefresh haccount id hid))
  | revoke token clientId =>
    exact makes_answering (makes_oauthDestroy fun id hid db _ alone h => h.deleteRefreshToken_other (hrefresh haccount id hid))
  | legacyRevoke payload =>
    exact makes_answering (makes_legacyDestroy fun id hid db _ alone h => h.deleteRefreshToken_other (hother haccount id hid))
  | createAccount uid' =>
    exact makes_answering (makes_createAccount fun db _ alone h => h.createAccount_other fun heq => haccount (congrArg some heq))
  | removeAccount uid' =>
    exact makes_answering (makes_removeAccount fun db _ alone h => h.deleteAccount_other fun heq => haccount (congrArg some heq))

end OtherPrograms

/-- Where no id that is drawn for one account is in use by another: beside any run of requests, with their
statements in any order and wherever it stops, take the run of the requests for one account alone. The two have
answered these the same, and the account has in the one run what there is in the other. -/
theorem accounts_isolated {ι : Type} [DecidableEq ι] (own : Ownership) (requests : ι → Request)
    (hallows : ∀ i, own.Allows host (requests i)) (uid : String) (schedule : List ι) :
    let threads : Threads ι DeviceDb (Except DeviceError Answer) := ⟨DeviceDb.fresh, fun i => (requests i).program host⟩
    let whole := (Threads.machine ι DeviceDb (Except DeviceError Answer)).run threads schedule
    let alone := (Threads.machine ι DeviceDb (Except DeviceError Answer)).run threads
      (schedule.filter fun i => own.account host (requests i) = some uid)
    (∀ i, own.account host (requests i) = some uid → ∀ answer, whole.Finished i answer ↔ alone.Finished i answer) ∧
      whole.state.of uid = alone.state := by
  intro threads whole alone
  obtain ⟨hstate, hpaired⟩ := @Threads.run_of_paired ι DeviceDb DeviceDb (Except DeviceError Answer) _ (Aside own uid)
    (fun _ => True) threads threads (fun i => decide (own.account host (requests i) = some uid)) (aside_fresh own uid)
    (fun i hi => paired_program (hallows i) (of_decide_eq_true hi))
    (fun i hi => leaves_program (hallows i) (of_decide_eq_false hi)) schedule
  exact ⟨fun i hi answer => Threads.finished_iff_of_paired (hpaired i (decide_eq_true hi)) answer, hstate.2⟩

/-- A text that is filled up with zeros has enough bytes for a hash. -/
theorem length_take_filled (message : List UInt8) :
    ((message ++ List.replicate hashLength 0).take hashLength).length = hashLength := by simp

/-- So have zeros, whatever they are for. -/
theorem length_zeros (_key _message : List UInt8) : (List.replicate hashLength (0 : UInt8)).length = hashLength :=
  List.length_replicate

/-- A hash that begins with its text, and no clients. -/
def plainHost : Host where
  sha256 message := (message ++ List.replicate hashLength 0).take hashLength
  hmac _ _ := List.replicate hashLength 0
  length_sha256 := length_take_filled
  length_hmac := length_zeros
  clients := ⟨[]⟩
  clientName _ := ""

/-- What two accounts ask for. -/
inductive Errand where
  | makeA
  | makeB
  | mintA
  | mintB
  | revokeB
  deriving DecidableEq

/-- The accounts are made, and a refresh token is minted for each; one is revoked. -/
def Errand.request : Errand → Request
  | makeA => .createAccount "a"
  | makeB => .createAccount "b"
  | mintA => .mint "a" "" "" "x" 0
  | mintB => .mint "b" "" "" "y" 0
  | revokeB => .revoke "y" none

/-- The name of a token is drawn for the account that it is minted for. -/
def mintedFor : Ownership where
  session _ := "a"
  refresh id := if id = hexText (plainHost.sha256 [121]) then "b" else "a"
  device _ := "a"

/-- The two tokens are there before the one is revoked, and their accounts do not notice each other. -/
theorem mintBeside_isolated :
    let threads : Threads Errand DeviceDb (Except DeviceError Answer) :=
      ⟨DeviceDb.fresh, fun errand => errand.request.program plainHost⟩
    let run := (Threads.machine Errand DeviceDb (Except DeviceError Answer)).run threads
    let schedule : List Errand := [.makeA, .makeB, .mintB, .mintA, .revokeB, .revokeB]
    let alone := run (schedule.filter fun errand => mintedFor.account plainHost errand.request = some "a")
    (run (schedule.take 4)).state.refreshTokens.rows.map (·.2.uid) = ["a", "b"] ∧
    (∀ errand, mintedFor.account plainHost (Errand.request errand) = some "a" →
      ∀ answer, (run schedule).Finished errand answer ↔ alone.Finished errand answer) ∧
      (run schedule).state.of "a" = alone.state := by
  intro threads run schedule alone
  refine ⟨by decide, accounts_isolated plainHost mintedFor Errand.request (fun errand => ?_) "a" schedule⟩
  have hx : hashToken plainHost "x" = .ok (hexText (plainHost.sha256 [120])) := rfl
  have hy : hashToken plainHost "y" = .ok (hexText (plainHost.sha256 [121])) := rfl
  cases errand with
  | makeA => trivial
  | makeB => trivial
  | mintA =>
    intro id hid
    cases hx.symm.trans hid
    decide
  | mintB =>
    intro id hid
    cases hy.symm.trans hid
    decide
  | revokeB => trivial

end FxaLite.Devices
