import FxaLite.Lib.Interference
import FxaLite.Tokenserver.Rows

/-!
# What token requests rely on

Between two statements of a request others add rows, and change the values of rows. What a uid
names it goes on naming. A request relies on no more: it is answered for a uid of its account
and its client state, with the time of the keys that it has named, whatever runs beside it.
-/

namespace FxaLite.Tokenserver

open Concurrent

/-- What uids name they go on naming, and they stay told apart. -/
structure UserDb.Grows (db db' : UserDb) : Prop where
  names : ∀ uid fxaUid clientState, db.Names uid fxaUid clientState → db'.Names uid fxaUid clientState
  numbered : db.Numbered → db'.Numbered

/-- A request that is answered is answered for a uid of its account and client state, and with the time that it named,
if it named one. -/
def Answers (request : TokenRequest) (db : UserDb) (result : Except Raised TokenFacts) : Prop :=
  ∀ facts, result = .ok facts → db.Names facts.uid request.sub request.clientState ∧
    (request.keyTimestamp ≠ 0 → facts.keysChangedAt = some request.keyTimestamp)

section Requests

variable {db db' db'' : UserDb} {request : TokenRequest} {user : SyncUser} {uid : ℕ} {fxaUid clientState : String}

@[simp] theorem UserDb.Grows.refl (db : UserDb) : db.Grows db := ⟨fun _ _ _ h => h, fun h => h⟩

theorem UserDb.Grows.trans (h : db.Grows db') (h' : db'.Grows db'') : db.Grows db'' :=
  ⟨fun _ _ _ hnames => h'.names _ _ _ (h.names _ _ _ hnames), fun hnumbered => h'.numbered (h.numbered hnumbered)⟩

/-- A change of rows is one of the changes. -/
theorem UserDb.Touched.grows (h : db.Touched db') : db.Grows db' := ⟨fun _ _ _ => h.names, h.numbered⟩

/-- So is a new row, under the next uid. -/
theorem grows_insertUser (huid : user.uid = db.lastUid + 1) : db.Grows (db.insertUser user) :=
  ⟨fun _ _ _ hnames => names_insertUser hnames user, fun numbered => numbered_insertUser numbered huid⟩

/-- A refusal is no answer. -/
theorem answers_error (raised : Raised) : Answers request db (.error raised) := by
  intro facts hfacts
  cases hfacts

/-- A time that is named is the next one. -/
theorem nextKeysChangedAt_of_named (user : SyncUser) (hnamed : request.keyTimestamp ≠ 0) :
    nextKeysChangedAt (authData request) user = some request.keyTimestamp := by
  have hauth : (authData request).keysChangedAt = some request.keyTimestamp := by
    simp [authData, noneIfZero, Option.filter, hnamed]
  simp only [nextKeysChangedAt, hauth]

/-- The end of a request that makes a row. -/
theorem relies_superseding {generation : ℤ} (current : SyncUser) (hnames : db.Names uid request.sub request.clientState) :
    (superseding request uid generation (nextKeysChangedAt (authData request) current)).Relies UserDb.Grows (Answers request) db := by
  intro db' hgrows
  have htouched : db'.Touched (db'.replaceOtherSyncUsers request.sub uid request.nowMs) := touched_replaceOther _ _ _
  refine ⟨htouched.grows, fun facts hfacts => ?_⟩
  cases hfacts
  exact ⟨htouched.names (hgrows.names _ _ _ hnames), nextKeysChangedAt_of_named current⟩

/-- The end of a request, from the user that it has found. -/
theorem relies_judged {current : SyncUser} (retired : List String)
    (hnames : db.Names current.uid request.sub current.clientState) :
    (judged request current retired).Relies UserDb.Grows (Answers request) db := by
  unfold judged
  cases validate (authData request) current retired with
  | error raised => exact answers_error raised
  | ok =>
    dsimp only
    unfold apply
    dsimp only
    split
    · unfold createSyncUser
      split
      · refine fun db' _ => ⟨grows_insertUser rfl, relies_superseding current ?_⟩
        exact names_newUser _ _ _ _ _
      · exact answers_error _
    · rename_i hsame
      have hstate : request.clientState = current.clientState := not_not.mp hsame
      rw [← hstate] at hnames
      split
      · split
        · intro db' hgrows
          have htouched := @touched_updateSyncUser db' current.uid (nextGeneration (authData request) current)
            (nextKeysChangedAt (authData request) current)
          refine ⟨htouched.grows, fun facts hfacts => ?_⟩
          cases hfacts
          exact ⟨htouched.names (hgrows.names _ _ _ hnames), nextKeysChangedAt_of_named current⟩
        · exact answers_error _
      · intro facts hfacts
        cases hfacts
        exact ⟨hnames, nextKeysChangedAt_of_named current⟩

/-- The repair of a crash keeps what was found. -/
theorem relies_repair {createdAt : ℕ} {history : List SyncUser} (hnames : db.Names uid fxaUid clientState) :
    (repair createdAt history).Relies UserDb.Grows (fun db' _ => db'.Names uid fxaUid clientState) db := by
  induction history generalizing db with
  | nil => exact hnames
  | cons old rest ih =>
    unfold repair
    split
    · intro db' hgrows
      have htouched : db'.Touched (db'.replaceSyncUser old.uid createdAt) := touched_replaceSyncUser _ _
      exact ⟨htouched.grows, ih (htouched.names (hgrows.names _ _ _ hnames))⟩
    · exact ih hnames

/-- A request relies on nothing else of the others. -/
theorem relies_token (request : TokenRequest) (db : UserDb) : (token request).Relies UserDb.Grows (Answers request) db := by
  rw [token_eq]
  refine .read UserDb.Grows.refl fun db' _ => ?_
  cases hlisted : db'.syncUsers request.sub with
  | nil =>
    refine .read UserDb.Grows.refl fun db'' _ => ?_
    split
    · split
      · refine fun db''' _ => ⟨grows_insertUser rfl, relies_judged [] ?_⟩
        exact names_newUser _ _ _ _ _
      · exact answers_error _
    · exact answers_error _
  | cons current history =>
    have hmem : current ∈ db'.syncUsers request.sub := hlisted ▸ List.mem_cons_self
    obtain ⟨hrow, haccount⟩ := mem_syncUsers.mp hmem
    refine (relies_repair ⟨current, hrow, rfl, haccount, rfl⟩).bind fun _ db'' hnames => ?_
    exact relies_judged _ hnames

end Requests

end FxaLite.Tokenserver
