import FxaLite.Devices.Lifetimes

/-!
# When a password was checked

A session is made with the time at which a password was checked, is copied with that time, and gets another
when the password is checked again. So what any session says of it, and what a client is told, is a time at
which a password of its account was checked.
-/

namespace FxaLite.Devices

open Concurrent Crypto Reactive
open Accounts (Random hexText)

variable (host : Host)

/-- A request for which a password of an account was checked, at a time: a new session, or a session that is there,
of whatever account, that is authenticated again. -/
def Request.checks (db : DeviceDb) (uid : String) (time : ℤ) : Request → Prop
  | .signIn uid' _ _ now => uid' = uid ∧ now = time
  | .reauth header _ authenticated now =>
    authenticated = uid ∧ now = time ∧ ∃ session, ((sessionCredentials header).exec db).1 = .ok session
  | _ => False

/-- In a run a password of an account was checked at a time. -/
def Checked (requests : List Request) (uid : String) (time : ℤ) : Prop :=
  ∃ earlier request later, requests = earlier ++ request :: later ∧
    request.checks ((registry host).run DeviceDb.fresh earlier) uid time

/-- A column that says when a password was checked: it is copied, or set when one is. -/
structure Stamp (time : SessionRow → ℤ) : Prop where
  inherited : ∀ row authKey lastAccessTime userAgent, time { row with authKey, lastAccessTime, userAgent } = time row
  reauthenticated : ∀ row now, time { row with authAt := now, lastAccessTime := now } = time row ∨
    time { row with authAt := now, lastAccessTime := now } = now
  started : ∀ uid authKey now userAgent, time ⟨uid, authKey, now, now, now, userAgent⟩ = now

/-- `auth_at` is one. -/
theorem stamp_authAt : Stamp SessionRow.authAt := ⟨fun _ _ _ _ => rfl, fun _ _ => Or.inr rfl, fun _ _ _ _ => rfl⟩

/-- So is `created_at`. -/
theorem stamp_createdAt : Stamp SessionRow.createdAt := ⟨fun _ _ _ _ => rfl, fun _ _ => Or.inl rfl, fun _ _ _ _ => rfl⟩

/-- Every session has an account and a time in common with one that is there. -/
def Old (time : SessionRow → ℤ) (db db' : DeviceDb) : Prop :=
  ∀ key row, db'.sessionToken key = some row → ∃ key' row', db.sessionToken key' = some row' ∧ row'.uid = row.uid ∧ time row' = time row

/-! ### Statements -/

section Statements

variable {time : SessionRow → ℤ} {db db' : DeviceDb} {uid tokenId : String}

/-- What is there is there. -/
theorem old_refl : Old time db db := fun key row hrow => ⟨key, row, hrow, rfl, rfl⟩

/-- A copy is made of a session that is there. -/
theorem Old.createSessionToken {row : SessionRow} (h : Old time db db')
    (hrow : ∃ key' row', db.sessionToken key' = some row' ∧ row'.uid = row.uid ∧ time row' = time row) :
    Old time db (db'.createSessionToken tokenId row) := by
  intro key found hfound
  rw [DeviceDb.sessionToken_createSessionToken] at hfound
  split at hfound
  · cases hfound
    exact hrow
  · exact h key found hfound

/-- An update that leaves the time leaves what is said of it. -/
theorem Old.updateSession {update : SessionRow → SessionRow} (h : Old time db db')
    (hupdate : ∀ row, (update row).uid = row.uid ∧ time (update row) = time row) : Old time db (db'.updateSession tokenId update) := by
  intro key found hfound
  rw [DeviceDb.sessionToken_updateSession] at hfound
  split at hfound
  · obtain ⟨old, hold, rfl⟩ := Option.map_eq_some_iff.mp hfound
    obtain ⟨key', row', hrow', huid, htime⟩ := h tokenId old hold
    exact ⟨key', row', hrow', huid.trans (hupdate old).1.symm, htime.trans (hupdate old).2.symm⟩
  · exact h key found hfound

/-- What is left was there. -/
theorem Old.sub {db'' : DeviceDb} (h : Old time db db')
    (hsub : ∀ key row, db''.sessionToken key = some row → db'.sessionToken key = some row) : Old time db db'' :=
  fun key row hrow => h key row (hsub key row hrow)

/-- So after a deletion. -/
theorem Old.deleteSessionToken (h : Old time db db') : Old time db (db'.deleteSessionToken tokenId) := by
  refine h.sub fun key row hrow => ?_
  rw [DeviceDb.sessionToken_deleteSessionToken] at hrow
  split at hrow
  · cases hrow
  · exact hrow

/-- Or after that of an account. -/
theorem Old.deleteAccount (h : Old time db db') : Old time db (db'.deleteAccount uid) := by
  refine h.sub fun key row hrow => ?_
  rw [DeviceDb.sessionToken_deleteAccount, Option.filter_eq_some_iff] at hrow
  exact hrow.1

/-- Or of a device. -/
theorem Old.removeDevice {device : Device} (h : Old time db db') : Old time db (db'.removeDevice uid device) :=
  removeDevice_of h (fun _ _ h => h.deleteSessionToken) fun _ _ h => h

/-- A refresh token is none of them. -/
theorem Old.touchRefreshToken {now : ℤ} (h : Old time db db') : Old time db (db'.touchRefreshToken tokenId now) := by
  obtain ⟨-, hsessions, -⟩ := @DeviceDb.touchRefreshToken_frame db' tokenId now
  refine h.sub fun key row hrow => ?_
  rwa [DeviceDb.sessionToken, hsessions] at hrow

end Statements

/-! ### Requests -/

section Requests

variable {host} {time : SessionRow → ℤ} {db : DeviceDb} {header : Option (List Char)}

/-- A session that is presented is there. -/
theorem ensures_sessionCredentials_old : (sessionCredentials header).Ensures (Old time db) fun result =>
    ∀ session, result = .ok session →
      ∃ key' row', db.sessionToken key' = some row' ∧ row'.uid = session.2.uid ∧ time row' = time session.2 := by
  unfold sessionCredentials
  split
  · intro session h
    cases h
  · intro session h
    cases h
  · refine Script.Ensures.read fun db' hold => ?_
    cases hrow : db'.sessionToken (String.ofList _) with
    | none =>
      intro session h
      cases h
    | some row =>
      refine Script.Ensures.read fun _ _ => ?_
      split
      · intro session h
        cases h
        exact hold _ row hrow
      · intro session h
        cases h

/-- It is there as it is presented. -/
theorem sessionToken_of_ok {session : String × SessionRow} (h : ((sessionCredentials header).exec db).1 = .ok session) :
    db.sessionToken session.1 = some session.2 := by
  unfold sessionCredentials at h
  split at h
  · cases h
  · cases h
  · rw [sessionOf, Script.exec_read] at h
    split at h
    · cases h
    · rename_i row hrow
      rw [Script.exec_read] at h
      split at h
      · cases h
        exact hrow
      · cases h

/-- A request that checks no password makes no time up. -/
theorem keeps_old (hstamp : Stamp time) (request : Request)
    (hsign : ∀ uid userAgent seed now, request ≠ .signIn uid userAgent seed now)
    (hreauth : ∀ header email authenticated now, request ≠ .reauth header email authenticated now) :
    (request.program host).Keeps (Old time db) := by
  have htouch : ∀ {tokenId now} db', Old time db db' → Old time db (db'.touchSessionToken tokenId now) :=
    fun db' h => h.updateSession fun row => ⟨rfl, hstamp.inherited row row.authKey _ row.userAgent⟩
  have hdevice : ∀ {header : Option (List Char)}, (deviceCredentials host header).Ensures (Old time db)
      fun result => ∀ credentials, result = .ok credentials → True := makes_deviceCredentials.ensures fun _ _ _ => trivial
  refine Script.Makes.keeps (A := fun _ => Old time db) ?_ fun _ _ _ h => h
  cases request with
  | register registration => exact makes_answering (makes_deviceRegister hdevice fun credentials current _ _ _ _ db' h _ => h)
  | list header filterIdle now => exact makes_answering (makes_deviceList hdevice fun tokenId row _ => htouch)
  | commands header => exact makes_answering makes_deviceCommands
  | destroyDevice header id =>
    exact makes_answering (makes_deviceDestroy hdevice fun credentials _ _ device _ _ db' h => h.removeDevice)
  | notify header => exact makes_answering makes_devicesNotify
  | attached header filterIdle now =>
    exact makes_answering (makes_attachedClients ensures_sessionCredentials_old fun session _ => htouch)
  | signIn uid userAgent seed now => exact absurd rfl (hsign uid userAgent seed now)
  | status header => exact makes_answering makes_sessionStatus
  | destroySession header custom =>
    exact makes_answering (makes_sessionDestroy ensures_sessionCredentials_old fun session target _ _ db' h => h.deleteSessionToken)
  | duplicate header userAgent seed now =>
    refine makes_answering (makes_sessionDuplicate ensures_sessionCredentials_old fun session hsession db' h _ =>
      h.createSessionToken ?_)
    obtain ⟨key, row, hrow, huid, htime⟩ := hsession
    exact ⟨key, row, hrow, huid, htime.trans (hstamp.inherited session.2 _ _ _).symm⟩
  | reauth header email authenticated now => exact absurd rfl (hreauth header email authenticated now)
  | mint uid clientId scope token now => exact makes_answering (makes_mintRefreshToken fun id _ db' h _ => h)
  | spend token now => exact makes_answering (makes_spendRefreshToken fun id _ db' h => h.touchRefreshToken)
  | revoke token clientId => exact makes_answering (makes_oauthDestroy fun id _ db' h => h)
  | legacyRevoke payload => exact makes_answering (makes_legacyDestroy fun id _ db' h => h)
  | createAccount uid => exact makes_answering (makes_createAccount fun db' h => h)
  | removeAccount uid => exact makes_answering (makes_removeAccount fun db' h => h.deleteAccount)

/-- A session that is authenticated again is there, and its account is the one whose password was checked. -/
theorem sessionReauth_eq_ok {email authenticated : String} {now authAt : ℤ}
    (h : ((sessionReauth header email authenticated now).exec db).1 = .ok authAt) :
    ∃ session, ((sessionCredentials header).exec db).1 = .ok session ∧ authenticated = session.2.uid ∧ authAt = now / 1000 := by
  rw [sessionReauth] at h
  cases hsession : ((sessionCredentials header).exec db).1 with
  | error raised =>
    rw [Script.exec_andThen_of_error exec_sessionCredentials hsession] at h
    cases h
  | ok session =>
    rw [Script.exec_andThen_of_ok exec_sessionCredentials hsession] at h
    split at h
    · cases h
    · rename_i hsame
      cases h
      exact ⟨session, rfl, of_not_not hsame, rfl⟩

/-- The step rule of a sign-in: what it makes says when the password was checked. -/
theorem stamp_startSession (hstamp : Stamp time) {uid userAgent : String} {seed : Random 32} {now : ℤ} {key : String} {row : SessionRow}
    (h : ((startSession host uid userAgent seed now).exec db).2.sessionToken key = some row) :
    db.sessionToken key = some row ∨ (uid = row.uid ∧ now = time row) := by
  rw [startSession, createSession, Script.exec_stmt] at h
  cases htakes : db.takesSession (hexText (tokenKeys host.toSha256 .session seed).id) uid with
  | false =>
    simp only [htakes, Bool.false_eq_true, if_false, Script.exec_done] at h
    exact Or.inl h
  | true =>
    simp only [htakes, if_true, Script.exec_done, DeviceDb.sessionToken_createSessionToken] at h
    split at h
    · cases h
      exact Or.inr ⟨rfl, (hstamp.started _ _ _ _).symm⟩
    · exact Or.inl h

/-- That of a new authentication: it is said of a session whose account it was of. -/
theorem stamp_sessionReauth (hstamp : Stamp time) {email authenticated : String} {now : ℤ} {key : String} {row : SessionRow}
    (h : ((sessionReauth header email authenticated now).exec db).2.sessionToken key = some row) :
    (∃ old, db.sessionToken key = some old ∧ old.uid = row.uid ∧ time old = time row) ∨
      (Request.reauth header email authenticated now).checks db row.uid (time row) := by
  rw [sessionReauth] at h
  cases hsession : ((sessionCredentials header).exec db).1 with
  | error raised =>
    rw [Script.exec_andThen_of_error exec_sessionCredentials hsession] at h
    exact Or.inl ⟨row, h, rfl, rfl⟩
  | ok session =>
    rw [Script.exec_andThen_of_ok exec_sessionCredentials hsession] at h
    split at h
    · exact Or.inl ⟨row, h, rfl, rfl⟩
    · rename_i hsame
      rw [Script.exec_act, Script.exec_done, DeviceDb.reauthenticateSessionToken, DeviceDb.sessionToken_updateSession] at h
      split at h
      · rename_i hkey
        obtain ⟨old, hold, rfl⟩ := Option.map_eq_some_iff.mp h
        obtain hkept | hset := hstamp.reauthenticated old now
        · exact Or.inl ⟨old, hkey ▸ hold, rfl, hkept.symm⟩
        · refine Or.inr ⟨?_, hset.symm, session, hsession⟩
          rw [sessionToken_of_ok hsession, Option.some.injEq] at hold
          rw [of_not_not hsame, hold]
      · exact Or.inl ⟨row, h, rfl, rfl⟩

/-- The step rule: a time that a session says was said before, or a password is checked then. -/
theorem stamp_step (hstamp : Stamp time) {uid : String} {at' : ℤ} (request : Request)
    (h : ∃ key row, ((registry host).step db request).1.sessionToken key = some row ∧ row.uid = uid ∧ time row = at') :
    (∃ key row, db.sessionToken key = some row ∧ row.uid = uid ∧ time row = at') ∨ request.checks db uid at' := by
  obtain ⟨key, row, hrow, rfl, rfl⟩ := h
  rw [registry_step] at hrow
  by_cases hsign : ∃ uid userAgent seed now, request = .signIn uid userAgent seed now
  · obtain ⟨uid, userAgent, seed, now, rfl⟩ := hsign
    rw [Request.program, exec_answering] at hrow
    obtain hold | hchecked := stamp_startSession hstamp hrow
    · exact Or.inl ⟨key, row, hold, rfl, rfl⟩
    · exact Or.inr hchecked
  · by_cases hreauth : ∃ header email authenticated now, request = .reauth header email authenticated now
    · obtain ⟨header, email, authenticated, now, rfl⟩ := hreauth
      rw [Request.program, exec_answering] at hrow
      obtain ⟨old, hold, huid, htime⟩ | hchecked := stamp_sessionReauth hstamp hrow
      · exact Or.inl ⟨key, old, hold, huid, htime⟩
      · exact Or.inr hchecked
    · have hkeeps := @keeps_old host time db hstamp request (fun uid userAgent seed now heq => hsign ⟨uid, userAgent, seed, now, heq⟩)
        fun header email authenticated now heq => hreauth ⟨header, email, authenticated, now, heq⟩
      exact Or.inl (hkeeps.exec old_refl key row hrow)

end Requests

/-! ### Runs -/

section Runs

variable {host} {requests : List Request} {uid : String} {time : ℤ}

/-- What was checked stays checked. -/
theorem Checked.append (h : Checked host requests uid time) (more : List Request) : Checked host (requests ++ more) uid time := by
  obtain ⟨earlier, request, later, rfl, hchecks⟩ := h
  exact ⟨earlier, request, later ++ more, by simp, hchecks⟩

/-- In every run, a column of a session that says when a password was checked says a time at which one was. -/
theorem checked_of_stamp {column : SessionRow → ℤ} (hstamp : Stamp column) {key : String} {row : SessionRow}
    (h : ((registry host).run DeviceDb.fresh requests).sessionToken key = some row) : Checked host requests row.uid (column row) := by
  have hrun := @Machine.exists_step_of_run _ _ _ (registry host)
    (fun db => ∃ key' row', db.sessionToken key' = some row' ∧ row'.uid = row.uid ∧ column row' = column row)
    (fun db request => request.checks db row.uid (column row)) (fun db request h => stamp_step hstamp request h)
    DeviceDb.fresh requests ⟨key, row, h, rfl, rfl⟩
  obtain ⟨key', row', hrow', -⟩ | hchecked := hrun
  · cases hrow'
  · exact hchecked

/-- What a client is told of a session is the time at which a password was checked, in seconds. -/
theorem checked_of_lastAuthAt {key : String} {row : SessionRow}
    (h : ((registry host).run DeviceDb.fresh requests).sessionToken key = some row) :
    ∃ time, Checked host requests row.uid time ∧ row.lastAuthAt = time / 1000 := by
  unfold SessionRow.lastAuthAt
  by_cases hzero : row.authAt ≠ 0
  · exact ⟨row.authAt, checked_of_stamp stamp_authAt h, by rw [if_pos hzero]⟩
  · exact ⟨row.createdAt, checked_of_stamp stamp_createdAt h, by rw [if_neg hzero]⟩

/-- An answer is made of what its program results in. -/
theorem answered {α : Type} {answer : α → Answer} {program : Program α} {db : DeviceDb} :
    ((answering answer program).exec db).1 = (program.exec db).1.map answer := by
  rw [answering, Script.andThen, Script.exec_bind]
  cases (program.exec db).1 <;> rfl

/-- A session that is created is answered with the time in its row. -/
theorem createSession_eq_ok {seed : Random 32} {row : SessionRow} {db : DeviceDb} {token : SignedIn}
    (h : ((createSession host seed row).exec db).1 = .ok token) : token.uid = row.uid ∧ token.authAt = row.lastAuthAt := by
  rw [createSession, Script.exec_stmt] at h
  cases htakes : db.takesSession (hexText (tokenKeys host.toSha256 .session seed).id) row.uid with
  | false =>
    simp only [htakes, Bool.false_eq_true, if_false, Script.exec_done] at h
    cases h
  | true =>
    simp only [htakes, if_true, Script.exec_done] at h
    cases h
    exact ⟨rfl, rfl⟩

/-- A token is answered to a sign-in, or to a duplication of a session that is there. -/
theorem signedIn_checked {token : SignedIn} (request : Request)
    (h : ((request.program host).exec ((registry host).run DeviceDb.fresh requests)).1 = .ok (.signedIn token)) :
    ∃ time, Checked host (requests ++ [request]) token.uid time ∧ token.authAt = time / 1000 := by
  cases request with
  | signIn uid userAgent seed now =>
    rw [Request.program, answered, Fallible.map_eq_ok] at h
    obtain ⟨value, hvalue, heq⟩ := h
    cases heq
    obtain ⟨huid, hauth⟩ := createSession_eq_ok hvalue
    refine ⟨now, ⟨requests, _, [], rfl, huid.symm, rfl⟩, hauth.trans ?_⟩
    simp [SessionRow.lastAuthAt]
  | duplicate header userAgent seed now =>
    rw [Request.program, answered, Fallible.map_eq_ok] at h
    obtain ⟨value, hvalue, heq⟩ := h
    cases heq
    rw [sessionDuplicate] at hvalue
    cases hsession : ((sessionCredentials header).exec ((registry host).run DeviceDb.fresh requests)).1 with
    | error raised =>
      rw [Script.exec_andThen_of_error exec_sessionCredentials hsession] at hvalue
      cases hvalue
    | ok session =>
      rw [Script.exec_andThen_of_ok exec_sessionCredentials hsession] at hvalue
      obtain ⟨huid, hauth⟩ := createSession_eq_ok hvalue
      obtain ⟨time, hchecked, htime⟩ := checked_of_lastAuthAt (sessionToken_of_ok hsession)
      refine ⟨time, ?_, hauth.trans htime⟩
      rw [huid]
      exact hchecked.append _
  | _ =>
    rw [Request.program, answered, Fallible.map_eq_ok] at h
    obtain ⟨value, -, heq⟩ := h
    cases heq

/-- A time is answered to a session that is authenticated again, by its account, and is the time of that. -/
theorem authAt_checked {authAt : ℤ} (request : Request)
    (h : ((request.program host).exec ((registry host).run DeviceDb.fresh requests)).1 = .ok (.authAt authAt)) :
    ∃ header email now session, request = .reauth header email session.2.uid now ∧
      ((sessionCredentials header).exec ((registry host).run DeviceDb.fresh requests)).1 = .ok session ∧
      Checked host (requests ++ [request]) session.2.uid now ∧ authAt = now / 1000 := by
  cases request with
  | reauth header email authenticated now =>
    rw [Request.program, answered, Fallible.map_eq_ok] at h
    obtain ⟨value, hvalue, heq⟩ := h
    cases heq
    obtain ⟨session, hsession, rfl, rfl⟩ := sessionReauth_eq_ok hvalue
    exact ⟨header, email, now, session, rfl, hsession, ⟨requests, _, [], rfl, rfl, rfl, session, hsession⟩, rfl⟩
  | _ =>
    rw [Request.program, answered, Fallible.map_eq_ok] at h
    obtain ⟨value, -, heq⟩ := h
    cases heq

end Runs

/-- Whatever a session was copied from, and whatever it was used for: the time of authentication in its row, and the
one that a client is told when it signs in or duplicates a session, is a time at which a password of the account was
checked. A client is told one when it authenticates a session again, at that time, with a password of its account. -/
theorem auth_time_checked (requests : List Request) :
    (∀ tokenId row, ((registry host).run DeviceDb.fresh requests).sessionToken tokenId = some row →
      Checked host requests row.uid row.authAt) ∧
    ∀ request,
      (∀ token, ((registry host).step ((registry host).run DeviceDb.fresh requests) request).2 = .ok (.signedIn token) →
        ∃ time, Checked host (requests ++ [request]) token.uid time ∧ token.authAt = time / 1000) ∧
      ∀ authAt, ((registry host).step ((registry host).run DeviceDb.fresh requests) request).2 = .ok (.authAt authAt) →
        ∃ header email now session, request = .reauth header email session.2.uid now ∧
          ((sessionCredentials header).exec ((registry host).run DeviceDb.fresh requests)).1 = .ok session ∧
          Checked host (requests ++ [request]) session.2.uid now ∧ authAt = now / 1000 := by
  exact ⟨fun tokenId row h => checked_of_stamp stamp_authAt h, fun request =>
    ⟨fun token h => signedIn_checked request h, fun authAt h => authAt_checked request h⟩⟩

end FxaLite.Devices
