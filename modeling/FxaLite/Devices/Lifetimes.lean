import FxaLite.Devices.Links

/-!
# From when to when a token is accepted

A token is accepted as long as its row is there, and one of refresh tokens if its client may manage devices.
So it is accepted from the request that is answered with it until one that ends it: that ends its session or
revokes its grant, removes its device or its account.
-/

namespace FxaLite.Devices

open Concurrent Crypto Reactive
open Accounts (Random hexText)

variable (host : Host)

/-- One request after another. -/
def registry : Machine DeviceDb Request (Except DeviceError Answer) where
  step db request := (((request.program host).exec db).2, ((request.program host).exec db).1)

/-- A request leaves what its program does. -/
theorem registry_step (db : DeviceDb) (request : Request) :
    ((registry host).step db request).1 = ((request.program host).exec db).2 := rfl

/-- A token whose row is there, and whose client may manage devices if it is a refresh token. -/
def accepts (db : DeviceDb) : Credential → Prop
  | .session tokenId => (db.sessionToken tokenId).isSome = true
  | .refresh tokenId => ∃ row, db.refreshToken tokenId = some row ∧ ∃ client, mayManageDevices host row = .ok client

/-- The account of a token that is there. -/
def DeviceDb.accountOf (db : DeviceDb) : Credential → Option String
  | .session tokenId => (db.sessionToken tokenId).map (·.uid)
  | .refresh tokenId => (db.refreshToken tokenId).map (·.uid)

/-- What credentials say of the tables. -/
def DeviceCredentials.Hold (db : DeviceDb) : DeviceCredentials → Prop
  | .ofSession tokenId row => db.sessionToken tokenId = some row
  | .ofRefresh tokenId row client => db.refreshToken tokenId = some row ∧ mayManageDevices host row = .ok client

/-- A request that is answered with a new token. -/
def Request.starts (db : DeviceDb) (credential : Credential) : Request → Prop
  | .signIn uid _ seed _ =>
    credential = .session (hexText (tokenKeys host.toSha256 .session seed).id) ∧
      db.takesSession (hexText (tokenKeys host.toSha256 .session seed).id) uid = true
  | .duplicate header _ seed _ => ∃ session, ((sessionCredentials header).exec db).1 = .ok session ∧
      credential = .session (hexText (tokenKeys host.toSha256 .session seed).id) ∧
      db.takesSession (hexText (tokenKeys host.toSha256 .session seed).id) session.2.uid = true
  | .mint uid clientId scope token now => ∃ id, hashToken host token = .ok id ∧ credential = .refresh id ∧
      db.takesRefresh id uid = true ∧ ∃ client, mayManageDevices host ⟨uid, clientId, scope, now, now⟩ = .ok client
  | _ => False

/-- A refresh token is there, and the client that is named, if one is, is its own. -/
def Revocable (db : DeviceDb) (id : String) (clientId : Option String) : Prop :=
  ∃ row, db.refreshToken id = some row ∧
    ∀ named, OAuth.given clientId = some named → compareDigest row.clientId.toList (OAuth.lower named).toList = some true

/-- A request that ends a token. -/
def Request.ends (db : DeviceDb) (credential : Credential) : Request → Prop
  | .destroyDevice header id => ∃ credentials device, ((deviceCredentials host header).exec db).1 = .ok credentials ∧
      db.device credentials.uid id = some device ∧ device.pointsTo credential = true
  | .destroySession header custom => ∃ session, ((sessionCredentials header).exec db).1 = .ok session ∧
      ((custom.filter (· ≠ []) = none ∧ credential = .session session.1) ∨
        ∃ token target row, custom.filter (· ≠ []) = some token ∧ customTokenId host token = .ok target ∧
          credential = .session target ∧ db.sessionToken target = some row ∧ row.uid = session.2.uid)
  | .revoke token clientId => ∃ id, hashToken host token = .ok id ∧ credential = .refresh id ∧ Revocable db id clientId
  | .legacyRevoke payload => payload.access = none ∧ ∃ id,
      (OAuth.given payload.refreshTokenId = some id ∨
        (OAuth.given payload.refreshTokenId = none ∧ hashToken host (payload.refreshToken.getD "") = .ok id)) ∧
      credential = .refresh id ∧ Revocable db id payload.clientId
  | .removeAccount uid => db.accountOf credential = some uid
  | _ => False

/-! ### Credentials -/

section Credentials

variable {host} {db : DeviceDb} {header : Option (List Char)}

/-- To read credentials changes nothing. -/
theorem exec_sessionCredentials : ((sessionCredentials header).exec db).2 = db := by
  unfold sessionCredentials
  split
  · rfl
  · rfl
  · unfold sessionOf
    rw [Script.exec_read]
    split
    · rfl
    · rw [Script.exec_read]
      split <;> rfl

/-- Of either kind. -/
theorem exec_deviceCredentials : ((deviceCredentials host header).exec db).2 = db := by
  unfold deviceCredentials
  split
  · cases hsession : ((sessionCredentials header).exec db).1 with
    | error raised => rw [Script.exec_andThen_of_error exec_sessionCredentials hsession]
    | ok session =>
      rw [Script.exec_andThen_of_ok exec_sessionCredentials hsession]
      rfl
  · split
    · rfl
    · unfold refreshOf
      rw [Script.exec_read]
      split
      · rfl
      · rw [Script.exec_read]
        split <;> rfl

/-- A session token is accepted exactly if its row is there. -/
theorem sessionCredentials_eq_ok (h : Linked db) {session : String × SessionRow} :
    ((sessionCredentials header).exec db).1 = .ok session ↔
      ∃ id, Accounts.tokenId header .session = .ok (some id) ∧ session.1 = String.ofList id ∧
        db.sessionToken session.1 = some session.2 := by
  unfold sessionCredentials
  cases hid : Accounts.tokenId header .session with
  | error reason => simp
  | ok id =>
    cases id with
    | none => simp
    | some id =>
      simp only [sessionOf, Script.exec_read]
      cases hrow : db.sessionToken (String.ofList id) with
      | none =>
        simp only [Script.exec_done, reduceCtorEq, false_iff, not_exists, not_and]
        rintro id' hid' hsession
        cases hid'
        rw [hsession, hrow]
        simp
      | some row =>
        rw [Script.exec_read, if_pos (h.session _ row hrow)]
        simp only [Script.exec_done, Except.ok.injEq, Option.some.injEq]
        constructor
        · rintro rfl
          exact ⟨id, rfl, rfl, hrow⟩
        · rintro ⟨id', rfl, hsession, hrow'⟩
          rw [hsession, hrow, Option.some.injEq] at hrow'
          exact Prod.ext hsession.symm hrow'

/-- A device route takes a header for the token that it presents, if the token is accepted. -/
theorem deviceCredentials_eq_ok (h : Linked db) {credentials : DeviceCredentials} :
    ((deviceCredentials host header).exec db).1 = .ok credentials ↔
      presented host header = some credentials.token ∧ credentials.Hold host db := by
  unfold deviceCredentials presented
  cases hbearer : Accounts.refreshBearer header with
  | none =>
    cases hsession : ((sessionCredentials header).exec db).1 with
    | error raised =>
      rw [Script.exec_andThen_of_error exec_sessionCredentials hsession]
      simp only [reduceCtorEq, false_iff, not_and]
      intro hpresented hhold
      split at hpresented
      · rename_i id hid
        cases credentials with
        | ofRefresh tokenId row client => cases hpresented
        | ofSession tokenId row =>
          cases hpresented
          have hok := (@sessionCredentials_eq_ok db header h (String.ofList id, row)).mpr ⟨id, hid, rfl, hhold⟩
          rw [hsession] at hok
          cases hok
      · cases hpresented
    | ok session =>
      rw [Script.exec_andThen_of_ok exec_sessionCredentials hsession]
      obtain ⟨id, hid, htoken, hrow⟩ := (sessionCredentials_eq_ok h).mp hsession
      simp only [Script.exec_done, Except.ok.injEq, hid, ← htoken, Option.some.injEq]
      constructor
      · rintro rfl
        exact ⟨rfl, hrow⟩
      · rintro ⟨hpresented, hhold⟩
        cases credentials with
        | ofRefresh tokenId row client => cases hpresented
        | ofSession tokenId row =>
          cases hpresented
          rw [DeviceCredentials.Hold, hrow, Option.some.injEq] at hhold
          rw [hhold]
  | some token =>
    dsimp only
    cases hid : hashToken host (String.ofList token) with
    | error raised => simp [Except.toOption]
    | ok id =>
      simp only [refreshOf, Script.exec_read, Except.toOption, Option.map_some, Option.some.injEq]
      cases hrow : db.refreshToken id with
      | none =>
        simp only [Script.exec_done, reduceCtorEq, false_iff, not_and]
        intro hpresented hhold
        cases credentials with
        | ofSession tokenId row => cases hpresented
        | ofRefresh tokenId row client =>
          cases hpresented
          rw [hhold.1] at hrow
          cases hrow
      | some row =>
        rw [Script.exec_read, if_pos (h.refresh id row hrow), Script.exec_done, Fallible.map_eq_ok]
        constructor
        · rintro ⟨client, hclient, rfl⟩
          exact ⟨rfl, hrow, hclient⟩
        · rintro ⟨hpresented, hhold⟩
          cases credentials with
          | ofSession tokenId row => cases hpresented
          | ofRefresh tokenId row' client =>
            cases hpresented
            obtain ⟨hrow', hclient⟩ := hhold
            rw [hrow, Option.some.injEq] at hrow'
            subst hrow'
            exact ⟨client, hclient, rfl⟩

/-- So a header is accepted exactly if it presents a token that is. -/
theorem accepted_iff_presented (h : Linked db) :
    (∃ credentials, ((deviceCredentials host header).exec db).1 = .ok credentials) ↔
      ∃ credential, presented host header = some credential ∧ accepts host db credential := by
  simp only [deviceCredentials_eq_ok h]
  constructor
  · rintro ⟨credentials, hpresented, hhold⟩
    refine ⟨_, hpresented, ?_⟩
    cases credentials with
    | ofSession tokenId row => exact Option.isSome_iff_exists.mpr ⟨row, hhold⟩
    | ofRefresh tokenId row client => exact ⟨row, hhold.1, client, hhold.2⟩
  · rintro ⟨credential, hpresented, haccepts⟩
    cases credential with
    | session tokenId =>
      obtain ⟨row, hrow⟩ := Option.isSome_iff_exists.mp haccepts
      exact ⟨.ofSession tokenId row, hpresented, hrow⟩
    | refresh tokenId =>
      obtain ⟨row, hrow, client, hclient⟩ := haccepts
      exact ⟨.ofRefresh tokenId row client, hpresented, hrow, hclient⟩

end Credentials

/-! ### Statements -/

section Statements

variable {host} {db : DeviceDb} {credential : Credential} {tokenId key uid : String}

/-- A session token is accepted whose row is there. -/
theorem accepts_session : accepts host db (.session key) ↔ (db.sessionToken key).isSome = true := Iff.rfl

/-- A refresh token whose row is there, of a client that may manage devices. -/
theorem accepts_refresh : accepts host db (.refresh key) ↔
    ∃ row, db.refreshToken key = some row ∧ ∃ client, mayManageDevices host row = .ok client := Iff.rfl

/-- What is accepted depends on the rows of tokens. -/
theorem accepts_congr {db' : DeviceDb} (hsession : ∀ key, (db'.sessionToken key).isSome = (db.sessionToken key).isSome)
    (hrefresh : ∀ key, db'.refreshToken key = db.refreshToken key) : accepts host db' credential ↔ accepts host db credential := by
  cases credential with
  | session key => rw [accepts_session, accepts_session, hsession]
  | refresh key => rw [accepts_refresh, accepts_refresh, hrefresh]

/-- To update a session neither starts nor ends it. -/
theorem accepts_updateSession {update : SessionRow → SessionRow} :
    accepts host (db.updateSession tokenId update) credential ↔ accepts host db credential := by
  obtain ⟨-, hframe, -⟩ := @DeviceDb.updateSession_frame db tokenId update
  refine accepts_congr (fun key => ?_) fun key => ?_
  · rw [DeviceDb.sessionToken_updateSession]
    split
    · rename_i heq
      rw [Option.isSome_map, heq]
    · rfl
  · rw [DeviceDb.refreshToken, hframe]
    rfl

/-- Nor does it a refresh token to spend it. -/
theorem accepts_touchRefreshToken {now : ℤ} :
    accepts host (db.touchRefreshToken tokenId now) credential ↔ accepts host db credential := by
  obtain ⟨-, hframe, -⟩ := @DeviceDb.touchRefreshToken_frame db tokenId now
  cases credential with
  | session key =>
    rw [accepts_session, DeviceDb.sessionToken, hframe]
    rfl
  | refresh key =>
    rw [accepts_refresh, accepts_refresh, DeviceDb.refreshToken_touchRefreshToken]
    split
    · rename_i heq
      rw [heq]
      constructor
      · rintro ⟨row, hrow, client, hclient⟩
        obtain ⟨old, hold, rfl⟩ := Option.map_eq_some_iff.mp hrow
        exact ⟨old, hold, client, hclient⟩
      · rintro ⟨row, hrow, client, hclient⟩
        exact ⟨_, Option.map_eq_some_iff.mpr ⟨row, hrow, rfl⟩, client, hclient⟩
    · rfl

/-- A session is accepted once it is made. -/
theorem accepts_createSessionToken {row : SessionRow} :
    accepts host (db.createSessionToken tokenId row) credential ↔ accepts host db credential ∨ credential = .session tokenId := by
  cases credential with
  | session key =>
    rw [accepts_session, accepts_session, DeviceDb.sessionToken_createSessionToken]
    by_cases hkey : key = tokenId <;> simp [hkey]
  | refresh key =>
    rw [or_iff_left (by simp)]
    rfl

/-- Until it is deleted. -/
theorem accepts_deleteSessionToken :
    accepts host (db.deleteSessionToken tokenId) credential ↔ accepts host db credential ∧ credential ≠ .session tokenId := by
  cases credential with
  | session key =>
    rw [accepts_session, accepts_session, DeviceDb.sessionToken_deleteSessionToken]
    by_cases hkey : key = tokenId <;> simp [hkey]
  | refresh key =>
    rw [and_iff_left (by simp)]
    rfl

/-- A refresh token is deleted likewise. -/
theorem accepts_deleteRefreshToken :
    accepts host (db.deleteRefreshToken tokenId) credential ↔ accepts host db credential ∧ credential ≠ .refresh tokenId := by
  cases credential with
  | session key =>
    rw [and_iff_left (by simp)]
    rfl
  | refresh key =>
    rw [accepts_refresh, accepts_refresh, DeviceDb.refreshToken_deleteRefreshToken]
    by_cases hkey : key = tokenId <;> simp [hkey]

/-- The tokens of an account go with it. -/
theorem accepts_deleteAccount :
    accepts host (db.deleteAccount uid) credential ↔ accepts host db credential ∧ db.accountOf credential ≠ some uid := by
  cases credential with
  | session key =>
    rw [accepts_session, accepts_session, DeviceDb.accountOf, DeviceDb.sessionToken_deleteAccount]
    cases db.sessionToken key <;> simp
  | refresh key =>
    rw [accepts_refresh, accepts_refresh, DeviceDb.accountOf, DeviceDb.refreshToken_deleteAccount]
    cases db.refreshToken key <;> simp [and_comm]

/-- What a device points at is deleted, if it has a name. -/
theorem accepts_elim {pointer : Option String} {delete : DeviceDb → String → DeviceDb} {kind : String → Credential}
    (hdelete : ∀ tokenId, accepts host (delete db tokenId) credential ↔ accepts host db credential ∧ credential ≠ kind tokenId)
    (hnamed : credential ≠ kind "") :
    accepts host ((pointer.filter (· ≠ "")).elim db (delete db)) credential ↔
      accepts host db credential ∧ ∀ tokenId, pointer = some tokenId → credential ≠ kind tokenId := by
  cases pointer with
  | none => simp
  | some tokenId =>
    simp only [Option.filter_some, Option.some.injEq, forall_eq']
    by_cases hempty : tokenId = ""
    · rw [if_neg (by simp [hempty]), Option.elim_none, hempty, and_iff_left hnamed]
    · rw [if_pos (by simp [hempty]), Option.elim_some, hdelete]

/-- A device goes with what it points at. -/
theorem accepts_removeDevice {device : Device} (hnamed : credential ≠ .session "" ∧ credential ≠ .refresh "") :
    accepts host (db.removeDevice uid device) credential ↔ accepts host db credential ∧ ¬device.pointsTo credential = true := by
  rw [DeviceDb.removeDevice, accepts_elim (fun _ => accepts_deleteRefreshToken) hnamed.2,
    accepts_elim (fun _ => accepts_deleteSessionToken) hnamed.1, and_assoc]
  refine and_congr Iff.rfl ?_
  cases credential with
  | session key =>
    simp only [DeviceRow.pointsTo, decide_eq_true_eq, reduceCtorEq, not_false_eq_true, implies_true, and_true, ne_eq,
      Credential.session.injEq]
    exact ⟨fun h hpoints => h key hpoints rfl, fun h tokenId hpoints heq => h (heq ▸ hpoints)⟩
  | refresh key =>
    simp only [DeviceRow.pointsTo, decide_eq_true_eq, reduceCtorEq, not_false_eq_true, implies_true, true_and, ne_eq,
      Credential.refresh.injEq]
    exact ⟨fun h hpoints => h key hpoints rfl, fun h tokenId hpoints heq => h (heq ▸ hpoints)⟩

end Statements

/-! ### Requests -/

section Requests

variable {host} {db : DeviceDb} {credential : Credential} {header : Option (List Char)}

/-- An answer is made of a value that is there. -/
theorem exec_answering {α : Type} {answer : α → Answer} {program : Program α} :
    ((answering answer program).exec db).2 = (program.exec db).2 := by
  rw [answering, Script.andThen, Script.exec_bind]
  cases (program.exec db).1 <;> rfl

/-- A refresh token is gone that is revoked, if it may be. -/
theorem accepts_revoke {id : String} {clientId : Option String} :
    accepts host ((revoke id clientId).exec db).2 credential ↔
      accepts host db credential ∧ ¬(credential = .refresh id ∧ Revocable db id clientId) := by
  have hkept : ¬Revocable db id clientId → (accepts host db credential ↔
      accepts host db credential ∧ ¬(credential = .refresh id ∧ Revocable db id clientId)) :=
    fun hnot => (and_iff_left fun hboth => hnot hboth.2).symm
  have hdeleted : Revocable db id clientId → (accepts host (db.deleteRefreshToken id) credential ↔
      accepts host db credential ∧ ¬(credential = .refresh id ∧ Revocable db id clientId)) :=
    fun hrevocable => accepts_deleteRefreshToken.trans (and_congr_right fun _ => not_congr (and_iff_left hrevocable).symm)
  rw [revoke, Script.exec_read]
  cases hrow : db.refreshToken id with
  | none =>
    refine hkept ?_
    rintro ⟨row, hrow', -⟩
    rw [hrow] at hrow'
    cases hrow'
  | some row =>
    have hrevocable : Revocable db id clientId ↔ ∀ named, OAuth.given clientId = some named →
        compareDigest row.clientId.toList (OAuth.lower named).toList = some true := by
      rw [Revocable, hrow]
      simp
    cases hgiven : OAuth.given clientId with
    | none => exact hdeleted (hrevocable.mpr fun named hnamed => by rw [hgiven] at hnamed; cases hnamed)
    | some named =>
      dsimp only
      cases hdigest : compareDigest row.clientId.toList (OAuth.lower named).toList with
      | none => exact hkept fun h => by rw [hrevocable.mp h named hgiven] at hdigest; cases hdigest
      | some same =>
        cases same with
        | false => exact hkept fun h => by rw [hrevocable.mp h named hgiven] at hdigest; cases hdigest
        | true =>
          refine hdeleted (hrevocable.mpr fun named' hnamed' => ?_)
          rw [hgiven] at hnamed'
          cases hnamed'
          exact hdigest

/-- By its text likewise. -/
theorem accepts_oauthDestroy {token : String} {clientId : Option String} :
    accepts host ((oauthDestroy host token clientId).exec db).2 credential ↔ accepts host db credential ∧
      ¬∃ id, hashToken host token = .ok id ∧ credential = .refresh id ∧ Revocable db id clientId := by
  rw [oauthDestroy]
  cases hid : hashToken host token with
  | error raised => simp
  | ok id => simp [accepts_revoke]

/-- A session is accepted that is created, if it is. -/
theorem accepts_createSession {seed : Random 32} {row : SessionRow} :
    accepts host ((createSession host seed row).exec db).2 credential ↔
      accepts host db credential ∨ (credential = .session (hexText (tokenKeys host.toSha256 .session seed).id) ∧
        db.takesSession (hexText (tokenKeys host.toSha256 .session seed).id) row.uid = true) := by
  rw [createSession, Script.exec_stmt]
  cases htakes : db.takesSession (hexText (tokenKeys host.toSha256 .session seed).id) row.uid with
  | false => simp [Script.exec_done]
  | true => simp [Script.exec_done, accepts_createSessionToken]

/-- So is a refresh token of a client that may manage devices. -/
theorem accepts_mintRefreshToken {uid clientId scope token : String} {now : ℤ} :
    accepts host ((mintRefreshToken host uid clientId scope token now).exec db).2 credential ↔
      accepts host db credential ∨ (Request.mint uid clientId scope token now).starts host db credential := by
  rw [mintRefreshToken]
  cases hid : hashToken host token with
  | error raised => simp [Request.starts, hid]
  | ok id =>
    rw [Script.exec_stmt]
    cases htakes : db.takesRefresh id uid with
    | false => simp [Request.starts, hid, htakes]
    | true =>
      cases credential with
      | session key => simp [Request.starts, accepts_session, DeviceDb.sessionToken, DeviceDb.createRefreshToken]
      | refresh key =>
        have hfree : db.refreshToken id = none := by
          simp only [DeviceDb.takesRefresh, Bool.and_eq_true, Option.isNone_iff_eq_none] at htakes
          exact htakes.1
        simp only [Request.starts, hid, htakes, Except.ok.injEq, Credential.refresh.injEq, exists_eq_left', if_true, true_and,
          Script.exec_done, accepts_refresh, DeviceDb.refreshToken_createRefreshToken]
        by_cases hkey : key = id
        · simp [hkey, hfree]
        · simp [hkey]

/-- A token ends whose device is destroyed. -/
theorem accepts_deviceDestroy (hnamed : credential ≠ .session "" ∧ credential ≠ .refresh "") {id : String} :
    accepts host ((deviceDestroy host header id).exec db).2 credential ↔
      accepts host db credential ∧ ¬(Request.destroyDevice header id).ends host db credential := by
  rw [deviceDestroy]
  cases hcredentials : ((deviceCredentials host header).exec db).1 with
  | error raised =>
    rw [Script.exec_andThen_of_error exec_deviceCredentials hcredentials]
    simp [Request.ends, hcredentials]
  | ok credentials =>
    rw [Script.exec_andThen_of_ok exec_deviceCredentials hcredentials, Script.exec_read]
    cases hdevice : db.device credentials.uid id with
    | none => simp [Request.ends, hcredentials, hdevice]
    | some device =>
      rw [Script.exec_act, Script.exec_done, accepts_removeDevice hnamed]
      simp [Request.ends, hcredentials, hdevice]

/-- So does a session that is destroyed, by itself or by another one of its account. -/
theorem accepts_sessionDestroy {custom : Option (List Char)} :
    accepts host ((sessionDestroy host header custom).exec db).2 credential ↔
      accepts host db credential ∧ ¬(Request.destroySession header custom).ends host db credential := by
  rw [sessionDestroy]
  cases hsession : ((sessionCredentials header).exec db).1 with
  | error raised =>
    rw [Script.exec_andThen_of_error exec_sessionCredentials hsession]
    simp [Request.ends, hsession]
  | ok session =>
    rw [Script.exec_andThen_of_ok exec_sessionCredentials hsession]
    simp only [Request.ends, hsession, Except.ok.injEq, exists_eq_left']
    cases custom.filter (· ≠ []) with
    | none =>
      rw [Script.exec_act, Script.exec_done, accepts_deleteSessionToken]
      simp
    | some token =>
      dsimp only
      cases htarget : customTokenId host token with
      | error raised => simp [htarget]
      | ok target =>
        rw [Script.exec_read]
        cases hrow : db.sessionToken target with
        | none => simp [htarget, hrow]
        | some row =>
          dsimp only
          split
          · rename_i hother
            simp [htarget, hrow, hother]
          · rename_i hsame
            rw [Script.exec_act, Script.exec_done, accepts_deleteSessionToken]
            simp [htarget, hrow, of_not_not hsame]

/-- A session that is duplicated starts another. -/
theorem accepts_sessionDuplicate {userAgent : Option String} {seed : Random 32} {now : ℤ} :
    accepts host ((sessionDuplicate host header userAgent seed now).exec db).2 credential ↔
      accepts host db credential ∨ (Request.duplicate header userAgent seed now).starts host db credential := by
  rw [sessionDuplicate]
  cases hsession : ((sessionCredentials header).exec db).1 with
  | error raised =>
    rw [Script.exec_andThen_of_error exec_sessionCredentials hsession]
    simp [Request.starts, hsession]
  | ok session =>
    rw [Script.exec_andThen_of_ok exec_sessionCredentials hsession, accepts_createSession]
    simp [Request.starts, hsession]

/-- A refresh token ends that the older route revokes. -/
theorem accepts_legacyDestroy {payload : LegacyDestroy} :
    accepts host ((legacyDestroy host payload).exec db).2 credential ↔
      accepts host db credential ∧ ¬(Request.legacyRevoke payload).ends host db credential := by
  rw [legacyDestroy]
  cases haccess : payload.access with
  | some access => simp [Request.ends, haccess]
  | none =>
    rw [if_neg (by simp)]
    cases hid : OAuth.given payload.refreshTokenId with
    | some id =>
      rw [accepts_revoke]
      simp [Request.ends, haccess, hid]
    | none =>
      rw [accepts_oauthDestroy]
      simp [Request.ends, haccess, hid]

/-- The step rule: after a request a token is accepted that was and is not ended, or that is started. -/
theorem accepts_step (hnamed : credential ≠ .session "" ∧ credential ≠ .refresh "") (request : Request) :
    accepts host ((registry host).step db request).1 credential ↔
      (accepts host db credential ∧ ¬request.ends host db credential) ∨ request.starts host db credential := by
  -- Some requests only make changes that leave tokens as they are.
  have hquiet : ∀ request : Request, request.starts host db credential = False → request.ends host db credential = False →
      (request.program host).Makes (fun _ => True) (fun db' db'' => accepts host db'' credential ↔ accepts host db' credential) →
      (accepts host ((registry host).step db request).1 credential ↔
        (accepts host db credential ∧ ¬request.ends host db credential) ∨ request.starts host db credential) := by
    intro request hstarts hends hmakes
    rw [hstarts, hends, not_false_eq_true, and_true, or_false]
    exact hmakes.exec_of_trans Iff.rfl fun hfirst hsecond => hsecond.trans hfirst
  have hdevice : ∀ {P : DeviceDb → Prop} {header : Option (List Char)}, (deviceCredentials host header).Ensures P
      fun result => ∀ credentials, result = .ok credentials → True := makes_deviceCredentials.ensures fun _ _ _ => trivial
  have hsession : ∀ {P : DeviceDb → Prop} {header : Option (List Char)}, (sessionCredentials header).Ensures P
      fun result => ∀ session, result = .ok session → True := makes_sessionCredentials.ensures fun _ _ _ => trivial
  cases request with
  | register registration =>
    exact hquiet _ rfl rfl (makes_answering (makes_deviceRegister hdevice fun credentials current _ _ _ _ db' _ _ => Iff.rfl))
  | list header filterIdle now =>
    exact hquiet _ rfl rfl (makes_answering (makes_deviceList hdevice fun _ _ _ db' _ => accepts_updateSession))
  | commands header => exact hquiet _ rfl rfl (makes_answering makes_deviceCommands)
  | destroyDevice header id =>
    rw [registry_step, Request.program, exec_answering, accepts_deviceDestroy hnamed]
    exact (or_iff_left not_false).symm
  | notify header => exact hquiet _ rfl rfl (makes_answering makes_devicesNotify)
  | attached header filterIdle now =>
    exact hquiet _ rfl rfl (makes_answering (makes_attachedClients hsession fun _ _ db' _ => accepts_updateSession))
  | signIn uid userAgent seed now =>
    rw [registry_step, Request.program, exec_answering, startSession, accepts_createSession]
    simp only [Request.ends, Request.starts, not_false_eq_true, and_true]
  | status header => exact hquiet _ rfl rfl (makes_answering makes_sessionStatus)
  | destroySession header custom =>
    rw [registry_step, Request.program, exec_answering, accepts_sessionDestroy]
    exact (or_iff_left not_false).symm
  | duplicate header userAgent seed now =>
    rw [registry_step, Request.program, exec_answering, accepts_sessionDuplicate]
    simp only [Request.ends, not_false_eq_true, and_true]
  | reauth header email authenticated now =>
    exact hquiet _ rfl rfl (makes_answering (makes_sessionReauth hsession fun _ _ _ db' _ => accepts_updateSession))
  | mint uid clientId scope token now =>
    rw [registry_step, Request.program, exec_answering, accepts_mintRefreshToken]
    simp only [Request.ends, not_false_eq_true, and_true]
  | spend token now =>
    exact hquiet _ rfl rfl (makes_answering (makes_spendRefreshToken fun id _ db' _ => accepts_touchRefreshToken))
  | revoke token clientId =>
    rw [registry_step, Request.program, exec_answering, accepts_oauthDestroy]
    simp only [Request.ends, Request.starts, or_false]
  | legacyRevoke payload =>
    rw [registry_step, Request.program, exec_answering, accepts_legacyDestroy]
    exact (or_iff_left not_false).symm
  | createAccount uid => exact hquiet _ rfl rfl (makes_answering (makes_createAccount fun db' _ => Iff.rfl))
  | removeAccount uid =>
    rw [registry_step, Request.program, exec_answering, Devices.removeAccount, Script.exec_act, Script.exec_done,
      accepts_deleteAccount]
    simp only [Request.ends, Request.starts, or_false, ne_eq]

end Requests

/-- A token that a header presents has a name. -/
theorem ne_of_presented {header : Option (List Char)} {credential : Credential} (h : presented host header = some credential) :
    credential ≠ .session "" ∧ credential ≠ .refresh "" := by
  unfold presented at h
  split at h
  · obtain ⟨id, hid, rfl⟩ := Option.map_eq_some_iff.mp h
    refine ⟨by simp, fun hempty => ?_⟩
    rw [Credential.refresh.injEq] at hempty
    rename_i token _
    rw [hashToken] at hid
    cases hbytes : ascii (String.ofList token).toList with
    | none =>
      rw [hbytes] at hid
      cases hid
    | some bytes =>
      rw [hbytes] at hid
      cases hid
      have hlength := congrArg (fun text => text.toList.length) hempty
      simp [hexText, Hex.length_encode, host.length_sha256, hashLength] at hlength
  · split at h
    · rename_i id hid
      cases h
      refine ⟨fun hempty => ?_, by simp⟩
      rw [Credential.session.injEq] at hempty
      have hdigits : Accounts.IsDigest (id.take 64) := by
        obtain ⟨_, _, _, _, _, _, hscheme, ⟨_, hhawk⟩ | ⟨_, _, hbearer⟩⟩ := Accounts.tokenId_eq_ok hid
        · exact Accounts.isDigest_take_of_isTokenId (Accounts.hawkId_eq_ok hhawk)
        · have hdigest := (Accounts.bearerId_eq_ok hbearer (Accounts.getLast?_of_matchScheme hscheme)).1
          rwa [List.take_of_length_le hdigest.1.le]
      rw [String.ofList_eq_empty_iff.mp hempty] at hdigits
      cases hdigits.1
    · cases h

/-- A header is accepted on a device route, after any run of requests, exactly if it presents a token that
some request of the run was answered with, and that no later request has ended. -/
theorem accepted_iff_started (header : Option (List Char)) (requests : List Request) :
    (∃ credentials, ((deviceCredentials host header).exec ((registry host).run DeviceDb.fresh requests)).1 = .ok credentials) ↔
      ∃ credential, presented host header = some credential ∧ ∃ earlier request later, requests = earlier ++ request :: later ∧
        request.starts host ((registry host).run DeviceDb.fresh earlier) credential ∧
        ¬(registry host).Sometime (fun db request => request.ends host db credential)
          ((registry host).run DeviceDb.fresh (earlier ++ [request])) later := by
  have hlinked : ∀ db request, Linked db → Linked ((registry host).step db request).1 := by
    intro db request h
    have hsound : Sound ⟨id, id, id⟩ False db := ⟨h, False.elim⟩
    exact ((keeps_program request False.elim).exec hsound).1
  have hrun : Linked ((registry host).run DeviceDb.fresh requests) :=
    (registry host).run_of_step (fun db request h _ => hlinked db request h) linked_fresh (registry host).along_true
  rw [accepted_iff_presented hrun]
  refine exists_congr fun credential => and_congr_right fun hpresented => ?_
  have hfresh : ¬accepts host DeviceDb.fresh credential := by
    cases credential with
    | session key => exact fun h => by cases h
    | refresh key =>
      rintro ⟨row, hrow, -⟩
      cases hrow
  have hstep : ∀ db request, Linked db → (accepts host ((registry host).step db request).1 credential ↔
      (accepts host db credential ∧ ¬request.ends host db credential) ∨ request.starts host db credential) :=
    fun db request _ => accepts_step (ne_of_presented host hpresented) request
  have hsince := @Machine.run_iff_since _ _ _ (registry host) Linked (accepts host · credential)
    (fun db request => request.starts host db credential) (fun db request => request.ends host db credential) hlinked hstep
    DeviceDb.fresh linked_fresh requests
  exact hsince.trans (or_iff_right fun h => hfresh h.1)

end FxaLite.Devices
