import FxaLite.Tokenserver.Rows

/-!
# Token requests at the same time

A request reads the rows of its account, and makes a row or replaces one in later statements. Two
requests on first sight that have both found no row make one each, and so do two that replace the
same user by the same client state. Where whoever makes a row finds that its client state is still
new to the account, and on first sight that the account has no row yet, every client state keeps to
one uid, and when all requests have ended no account has two users in use.
-/

namespace FxaLite.Tokenserver

open Concurrent Reactive

/-! ### The stages of a request -/

/-- Where a request is that has judged the user it found, with the uid that it is about to keep alone in use. -/
inductive Ending (request : TokenRequest) (db : UserDb) : Option ℕ → Program TokenFacts → Prop
  | rotating (generation : ℤ) (keysChangedAt : Option ℤ) :
      Ending request db none
        (insertion request generation keysChangedAt fun user => superseding request user.uid generation keysChangedAt)
  | superseding {uid : ℕ} (named : db.Names uid request.sub request.clientState) (generation : ℤ) (keysChangedAt : Option ℤ) :
      Ending request db (some uid) (superseding request uid generation keysChangedAt)
  | moving {uid : ℕ} (named : db.Names uid request.sub request.clientState) (generation : ℤ) (keysChangedAt : Option ℤ) :
      Ending request db none
        (.act (·.updateSyncUser uid generation keysChangedAt) (.done (.ok ⟨uid, generation, keysChangedAt⟩)))
  | granted {facts : TokenFacts} (named : db.Names facts.uid request.sub request.clientState) :
      Ending request db none (.done (.ok facts))
  | refused (raised : Raised) : Ending request db none (.done (.error raised))

/-- Where a request is. -/
inductive Stage (request : TokenRequest) (db : UserDb) : Option ℕ → Program TokenFacts → Prop
  | start : Stage request db none (token request)
  | unseen : Stage request db none (unseen request)
  | first : Stage request db none (firstSight request)
  | found {current : SyncUser} (named : db.Names current.uid request.sub current.clientState) (retired : List String)
      (createdAt : ℕ) (history : List SyncUser) :
      Stage request db none ((repair createdAt history).bind fun _ => judged request current retired)
  | ending {keep : Option ℕ} {script : Program TokenFacts} (h : Ending request db keep script) : Stage request db keep script

variable {request : TokenRequest} {db db' : UserDb} {keep : Option ℕ} {script : Program TokenFacts}

/-- What others do does not move a request. -/
theorem Ending.mono (h : Ending request db keep script)
    (hnames : ∀ uid fxaUid clientState, db.Names uid fxaUid clientState → db'.Names uid fxaUid clientState) :
    Ending request db' keep script := by
  cases h with
  | rotating generation keysChangedAt => exact .rotating generation keysChangedAt
  | superseding named generation keysChangedAt => exact .superseding (hnames _ _ _ named) generation keysChangedAt
  | moving named generation keysChangedAt => exact .moving (hnames _ _ _ named) generation keysChangedAt
  | granted named => exact .granted (hnames _ _ _ named)
  | refused raised => exact .refused raised

/-- Wherever it is. -/
theorem Stage.mono (h : Stage request db keep script)
    (hnames : ∀ uid fxaUid clientState, db.Names uid fxaUid clientState → db'.Names uid fxaUid clientState) :
    Stage request db' keep script := by
  cases h with
  | start => exact .start
  | unseen => exact .unseen
  | first => exact .first
  | found named retired createdAt history => exact .found (hnames _ _ _ named) retired createdAt history
  | ending h => exact .ending (h.mono hnames)

/-- What follows from the user that was found. -/
theorem ending_judged {current : SyncUser} (named : db.Names current.uid request.sub current.clientState)
    (retired : List String) : Ending request db none (judged request current retired) := by
  unfold judged
  cases validate (authData request) current retired with
  | error raised => exact .refused raised
  | ok =>
    dsimp only
    unfold apply
    dsimp only
    split
    · unfold createSyncUser
      split
      · exact .rotating _ _
      · exact .refused _
    · rename_i hsame
      have hstate : request.clientState = current.clientState := not_not.mp hsame
      rw [← hstate] at named
      split
      · split
        · exact .moving named _ _
        · exact .refused _
      · exact .granted named

/-! ### One statement -/

/-- What a statement does to the table, and to the uid that a request is about to keep. -/
inductive Moves (request : TokenRequest) (db : UserDb) : UserDb → Option ℕ → Option ℕ → Prop
  | quiet {db' : UserDb} (touched : db.Touched db') : Moves request db db' none none
  | first {user : SyncUser} (account : user.fxaUid = request.sub) (uid : user.uid = db.lastUid + 1)
      (alone : ∀ other ∈ db.users, other.fxaUid ≠ request.sub) : Moves request db (db.insertUser user) none none
  | rotate {user : SyncUser} (account : user.fxaUid = request.sub) (uid : user.uid = db.lastUid + 1)
      (state : user.clientState = request.clientState)
      (new : ∀ other ∈ db.users, other.fxaUid = request.sub → other.clientState ≠ request.clientState) :
      Moves request db (db.insertUser user) none (some user.uid)
  | supersede {uid : ℕ} (named : db.Names uid request.sub request.clientState) :
      Moves request db (db.replaceOtherSyncUsers request.sub uid request.nowMs) (some uid) none

/-- Who makes a row finds its client state new to the account, and on first sight the account without a row. -/
def MakesAlone (request : TokenRequest) (db : UserDb) (script : Program TokenFacts) : Prop :=
  ((∃ generation keysChangedAt next, script = insertion request generation keysChangedAt next) →
    ∀ other ∈ db.users, other.fxaUid = request.sub → other.clientState ≠ request.clientState) ∧
  (script = firstSight request → ∀ other ∈ db.users, other.fxaUid ≠ request.sub)

/-- The repair of a crash, one statement after another. -/
theorem repair_bind_next {createdAt : ℕ} {history : List SyncUser} {next : Unit → Program TokenFacts} {effect : UserDb → UserDb}
    {after : UserDb → Program TokenFacts} (h : (repair createdAt history).bind next = .stmt effect after) :
    (next () = .stmt effect after) ∨
      ∃ uid rest, effect = (·.replaceSyncUser uid createdAt) ∧ after = fun _ => (repair createdAt rest).bind next := by
  induction history with
  | nil => exact Or.inl h
  | cons old rest ih =>
    unfold repair at h
    split at h
    · obtain ⟨rfl, rfl⟩ := Script.stmt.inj h
      exact Or.inr ⟨old.uid, rest, rfl, rfl⟩
    · exact ih h

/-- What one statement does of a request that has judged its user. -/
theorem Ending.next {effect : UserDb → UserDb} {next : UserDb → Program TokenFacts}
    (h : Ending request db keep (.stmt effect next)) (halone : MakesAlone request db (.stmt effect next)) :
    ∃ keep', Moves request db (effect db) keep keep' ∧ Ending request (effect db) keep' (next db) := by
  generalize hscript : Script.stmt effect next = script at h halone
  cases h with
  | rotating generation keysChangedAt =>
    have hnew := halone.1 ⟨_, _, _, rfl⟩
    obtain ⟨rfl, rfl⟩ := Script.stmt.inj hscript
    exact ⟨_, .rotate rfl rfl rfl hnew, .superseding (names_newUser _ _ _ _ _) _ _⟩
  | superseding named generation keysChangedAt =>
    obtain ⟨rfl, rfl⟩ := Script.stmt.inj hscript
    exact ⟨none, .supersede named, .granted ((touched_replaceOther _ _ _).names named)⟩
  | moving named generation keysChangedAt =>
    obtain ⟨rfl, rfl⟩ := Script.stmt.inj hscript
    exact ⟨none, .quiet (touched_updateSyncUser _ _ _), .granted ((touched_updateSyncUser _ _ _).names named)⟩
  | granted named => cases hscript
  | refused raised => cases hscript

/-- What one statement of a request does. -/
theorem Stage.next {effect : UserDb → UserDb} {next : UserDb → Program TokenFacts}
    (h : Stage request db keep (.stmt effect next)) (halone : MakesAlone request db (.stmt effect next)) :
    ∃ keep', Moves request db (effect db) keep keep' ∧ Stage request (effect db) keep' (next db) := by
  generalize hscript : Script.stmt effect next = script at h halone
  cases h with
  | start =>
    obtain ⟨rfl, rfl⟩ := Script.stmt.inj (hscript.trans (token_eq request))
    refine ⟨none, .quiet (.refl db), ?_⟩
    dsimp only [id]
    cases hlisted : db.syncUsers request.sub with
    | nil => exact .unseen
    | cons current history =>
      have hmem : current ∈ db.syncUsers request.sub := hlisted ▸ List.mem_cons_self
      obtain ⟨hrow, haccount⟩ := mem_syncUsers.mp hmem
      exact .found ⟨current, hrow, rfl, haccount, rfl⟩ _ _ _
  | unseen =>
    obtain ⟨rfl, rfl⟩ := Script.stmt.inj hscript
    refine ⟨none, .quiet (.refl db), ?_⟩
    dsimp only [id]
    split
    · split
      · exact .first
      · exact .ending (.refused _)
    · exact .ending (.refused _)
  | first =>
    have hempty := halone.2 rfl
    obtain ⟨rfl, rfl⟩ := Script.stmt.inj hscript
    exact ⟨none, .first rfl rfl hempty, .ending (ending_judged (names_newUser _ _ _ _ _) [])⟩
  | found named retired createdAt history =>
    obtain hjudged | ⟨uid, rest, rfl, rfl⟩ := repair_bind_next hscript.symm
    · have hending := ending_judged named retired
      rw [hjudged] at hending
      obtain ⟨keep', hmoves, hnext⟩ := hending.next (hscript ▸ halone)
      exact ⟨keep', hmoves, .ending hnext⟩
    · have touched : db.Touched (db.replaceSyncUser uid createdAt) := touched_replaceSyncUser uid createdAt
      exact ⟨none, .quiet touched, .found (touched.names named) retired createdAt rest⟩
  | ending h =>
    subst hscript
    obtain ⟨keep', hmoves, hnext⟩ := h.next halone
    exact ⟨keep', hmoves, .ending hnext⟩

/-- A move keeps the table sound, and what uids name. -/
theorem Moves.sound {keep' : Option ℕ} (h : Moves request db db' keep keep') (sound : db.Sound) :
    db'.Sound ∧ ∀ uid fxaUid clientState, db.Names uid fxaUid clientState → db'.Names uid fxaUid clientState := by
  cases h with
  | quiet touched => exact ⟨touched.sound sound, fun _ _ _ => touched.names⟩
  | first account uid alone =>
    refine ⟨sound_insertUser sound uid ?_, fun _ _ _ hnames => names_insertUser hnames _⟩
    exact fun other hother hsame => absurd (hsame.trans account) (alone other hother)
  | rotate account uid state new =>
    refine ⟨sound_insertUser sound uid ?_, fun _ _ _ hnames => names_insertUser hnames _⟩
    exact fun other hother hsame => state ▸ new other hother (hsame.trans account)
  | @supersede uid named =>
    have touched : db.Touched (db.replaceOtherSyncUsers request.sub uid request.nowMs) := touched_replaceOther _ _ _
    exact ⟨touched.sound sound, fun _ _ _ => touched.names⟩

/-! ### Every interleaving -/

/-- Of the users in use that nobody is about to keep, an account has one at most. -/
def OneInUse (db : UserDb) (kept : ℕ → Prop) : Prop :=
  ∀ user ∈ db.users, ∀ other ∈ db.users, user.fxaUid = other.fxaUid → user.replacedAt = none → other.replacedAt = none →
    ¬kept user.uid → ¬kept other.uid → user.uid = other.uid

/-- A move keeps that, when what the request is about to keep changes with it. -/
theorem Moves.oneInUse {keep' : Option ℕ} {kept kept' : ℕ → Prop} (h : Moves request db db' keep keep') (sound : db.Sound)
    (hold : OneInUse db kept) (hothers : ∀ uid, keep ≠ some uid → kept uid → kept' uid) (hown : ∀ uid, keep' = some uid → kept' uid) :
    OneInUse db' kept' := by
  intro user huser other hother haccount hlive hlive' hkept hkept'
  have hnone : ∀ uid, (none : Option ℕ) ≠ some uid := by simp
  cases h with
  | quiet touched =>
    obtain ⟨row, hrow, huid, hfxa, -, hback⟩ := touched.exists_of_mem huser
    obtain ⟨row', hrow', huid', hfxa', -, hback'⟩ := touched.exists_of_mem hother
    rw [← huid, ← huid']
    refine hold row hrow row' hrow' (by rw [hfxa, hfxa', haccount]) (hback hlive) (hback' hlive') ?_ ?_
    · exact fun hmine => hkept (huid ▸ hothers _ (hnone _) hmine)
    · exact fun hmine => hkept' (huid' ▸ hothers _ (hnone _) hmine)
  | first account uid alone =>
    obtain hrow | hlast := List.mem_append.mp huser
    · obtain hrow' | hlast' := List.mem_append.mp hother
      · exact hold user hrow other hrow' haccount hlive hlive' (fun hmine => hkept (hothers _ (hnone _) hmine))
          fun hmine => hkept' (hothers _ (hnone _) hmine)
      · rw [List.mem_singleton.mp hlast'] at haccount
        exact absurd (haccount.trans account) (alone user hrow)
    · obtain hrow' | hlast' := List.mem_append.mp hother
      · rw [List.mem_singleton.mp hlast] at haccount
        exact absurd (haccount.symm.trans account) (alone other hrow')
      · rw [List.mem_singleton.mp hlast, List.mem_singleton.mp hlast']
  | rotate account uid state new =>
    obtain hrow | hlast := List.mem_append.mp huser
    · obtain hrow' | hlast' := List.mem_append.mp hother
      · exact hold user hrow other hrow' haccount hlive hlive' (fun hmine => hkept (hothers _ (hnone _) hmine))
          fun hmine => hkept' (hothers _ (hnone _) hmine)
      · exact absurd (hown _ (by rw [List.mem_singleton.mp hlast'])) hkept'
    · exact absurd (hown _ (by rw [List.mem_singleton.mp hlast])) hkept
  | @supersede uid named =>
    by_cases hsub : user.fxaUid = request.sub
    · rw [uid_of_replaceOther huser hsub hlive, uid_of_replaceOther hother (haccount.symm.trans hsub) hlive']
    · have touched : db.Touched (db.replaceOtherSyncUsers request.sub uid request.nowMs) := touched_replaceOther _ _ _
      obtain ⟨row, hrow, huid, hfxa, -, hback⟩ := touched.exists_of_mem huser
      obtain ⟨row', hrow', huid', hfxa', -, hback'⟩ := touched.exists_of_mem hother
      obtain ⟨mine, hmine, rfl, hmineSub, -⟩ := named
      have hforeign : ∀ row ∈ db.users, row.fxaUid ≠ request.sub → (some mine.uid : Option ℕ) ≠ some row.uid := by
        intro row hrow hne hsame
        exact hne (sound.eq_of_uid hmine hrow (Option.some.inj hsame) ▸ hmineSub)
      rw [← huid, ← huid']
      refine hold row hrow row' hrow' (by rw [hfxa, hfxa', haccount]) (hback hlive) (hback' hlive') ?_ ?_
      · exact fun hkeeps => hkept (huid ▸ hothers _ (hforeign row hrow (hfxa ▸ hsub)) hkeeps)
      · exact fun hkeeps => hkept' (huid' ▸ hothers _ (hforeign row' hrow' (hfxa' ▸ haccount ▸ hsub)) hkeeps)

/-- The repair of a crash, when it is over. -/
theorem repair_bind_done {createdAt : ℕ} {history : List SyncUser} {next : Unit → Program TokenFacts}
    {result : Except Raised TokenFacts} (h : (repair createdAt history).bind next = .done result) : next () = .done result := by
  induction history with
  | nil => exact h
  | cons old rest ih =>
    unfold repair at h
    split at h
    · cases h
    · exact ih h

/-- What a request that is granted has its token for. -/
theorem Ending.named {facts : TokenFacts} (h : Ending request db keep (.done (.ok facts))) :
    db.Names facts.uid request.sub request.clientState := by
  cases h with
  | granted named => exact named

/-- Wherever it was. -/
theorem Stage.named {facts : TokenFacts} (h : Stage request db keep (.done (.ok facts))) :
    db.Names facts.uid request.sub request.clientState := by
  generalize hscript : (Script.done (.ok facts) : Program TokenFacts) = script at h
  cases h with
  | start => cases hscript.trans (token_eq request)
  | unseen => cases hscript
  | first => cases hscript
  | found named retired createdAt history =>
    have hending := ending_judged named retired
    rw [repair_bind_done hscript.symm] at hending
    exact hending.named
  | ending h => exact (hscript ▸ h).named

/-- A request that is about to keep a uid has not ended. -/
theorem Stage.not_done {uid : ℕ} {result : Except Raised TokenFacts} : ¬Stage request db (some uid) (.done result) := by
  intro h
  cases h with
  | ending h => cases h

section Requests

variable {ι : Type*}

/-- Token requests that have not begun. -/
def tokenRequests (requests : ι → TokenRequest) (accounts : List String) : Threads ι UserDb (Except Raised TokenFacts) :=
  ⟨.fresh accounts, fun i => token (requests i)⟩

/-- A request that is about to make a row is alone with it. -/
def MakesRowAlone (requests : ι → TokenRequest) (t : Threads ι UserDb (Except Raised TokenFacts)) (i : ι) : Prop :=
  MakesAlone (requests i) t.state (t.script i)

/-- Where the requests are, with the uids that they are about to keep alone in use. -/
structure Underway (requests : ι → TokenRequest) (t : Threads ι UserDb (Except Raised TokenFacts)) (keep : ι → Option ℕ) :
    Prop where
  stages : ∀ i, Stage (requests i) t.state (keep i) (t.script i)
  sound : t.state.Sound
  inUse : OneInUse t.state fun uid => ∃ i, keep i = some uid

variable {requests : ι → TokenRequest} {t : Threads ι UserDb (Except Raised TokenFacts)} {keep : ι → Option ℕ}

/-- Requests that have not begun. -/
theorem underway_tokenRequests (requests : ι → TokenRequest) (accounts : List String) :
    Underway requests (tokenRequests requests accounts) fun _ => none := by
  constructor
  · exact fun i => .start
  · exact sound_fresh accounts
  · exact fun user huser => absurd huser List.not_mem_nil

/-- A statement of one of them. -/
theorem Underway.advance [DecidableEq ι] (h : Underway requests t keep) (i : ι) (halone : MakesRowAlone requests t i) :
    ∃ keep', Underway requests (t.advance i) keep' := by
  have hstage := h.stages i
  unfold MakesRowAlone at halone
  cases hscript : t.script i with
  | done result => exact ⟨keep, (Threads.advance_of_done hscript).symm ▸ h⟩
  | stmt effect next =>
    rw [hscript] at hstage halone
    obtain ⟨keep', hmoves, hnext⟩ := hstage.next halone
    obtain ⟨hsound, hnames⟩ := hmoves.sound h.sound
    refine ⟨Function.update keep i keep', ?_⟩
    rw [Threads.advance_of_stmt hscript]
    constructor
    · intro j
      by_cases hj : j = i
      · subst hj
        simpa using hnext
      · simpa [Function.update_of_ne hj] using (h.stages j).mono hnames
    · exact hsound
    · refine hmoves.oneInUse h.sound h.inUse ?_ ?_
      · rintro uid hne ⟨j, hj⟩
        have hother : j ≠ i := fun hsame => hne (hsame ▸ hj)
        exact ⟨j, by rw [Function.update_of_ne hother, hj]⟩
      · exact fun uid hkeep => ⟨i, by rw [Function.update_self, hkeep]⟩

/-- Every client state keeps to one uid, and once all requests have ended an account has one user in use at most. -/
structure OneUid (requests : ι → TokenRequest) (t : Threads ι UserDb (Except Raised TokenFacts)) : Prop where
  uids : ∀ i j facts facts', t.Finished i (.ok facts) → t.Finished j (.ok facts') → (requests i).sub = (requests j).sub →
    (requests i).clientState = (requests j).clientState → facts.uid = facts'.uid
  inUse : (∀ i, ∃ result, t.Finished i result) → ∀ fxaUid,
    (t.state.users.filter fun user => user.fxaUid = fxaUid ∧ user.replacedAt = none).length ≤ 1

/-- So it is of requests that are underway. -/
theorem Underway.oneUid (h : Underway requests t keep) : OneUid requests t where
  uids i j facts facts' hi hj hsub hstate := by
    have hnamed := (hi ▸ h.stages i).named
    have hnamed' := (hj ▸ h.stages j).named
    rw [← hsub, ← hstate] at hnamed'
    exact h.sound.names_unique hnamed hnamed'
  inUse hall fxaUid := by
    have hkept : ∀ uid, ¬∃ i, keep i = some uid := by
      rintro uid ⟨i, hi⟩
      obtain ⟨result, hresult⟩ := hall i
      have hstage := h.stages i
      rw [hi, hresult] at hstage
      exact hstage.not_done
    refine h.sound.length_le_one List.filter_sublist fun user huser other hother => ?_
    obtain ⟨hrow, hfits⟩ := List.mem_filter.mp huser
    obtain ⟨hrow', hfits'⟩ := List.mem_filter.mp hother
    obtain ⟨haccount, hlive⟩ := of_decide_eq_true hfits
    obtain ⟨haccount', hlive'⟩ := of_decide_eq_true hfits'
    exact h.inUse user hrow other hrow' (haccount.trans haccount'.symm) hlive hlive' (hkept _) (hkept _)

/-- If whoever makes a row finds its client state new to the account, and on first sight the account without
a row, then every client state keeps to one uid, and in the end an account has one user in use at most. -/
theorem one_uid_of_alone [DecidableEq ι] (requests : ι → TokenRequest) (accounts : List String) (schedule : List ι)
    (halone : (Threads.machine ι UserDb (Except Raised TokenFacts)).Along (MakesRowAlone requests)
      (tokenRequests requests accounts) schedule) :
    ∀ n, OneUid requests ((Threads.machine ι UserDb (Except Raised TokenFacts)).run (tokenRequests requests accounts)
      (schedule.take n)) := by
  intro n
  have hprefix := (Machine.along_append.mp ((List.take_append_drop n schedule).symm ▸ halone)).1
  obtain ⟨keep, h⟩ := @Machine.run_of_step _ _ _ (Threads.machine ι UserDb (Except Raised TokenFacts))
    (fun t => ∃ keep, Underway requests t keep) (MakesRowAlone requests)
    (fun t i h hstep => h.elim fun keep h => h.advance i hstep) _ _ ⟨_, underway_tokenRequests requests accounts⟩ hprefix
  exact h.oneUid

end Requests

/-- A request that is about to read makes no row. -/
theorem makesAlone_of_read {next : UserDb → Program TokenFacts} (h : script = .read next) : MakesAlone request db script := by
  have hmakes : ∀ generation keysChangedAt next, script ≠ insertion request generation keysChangedAt next := by
    intro generation keysChangedAt next hinsertion
    obtain ⟨heffect, -⟩ := Script.stmt.inj (h.symm.trans hinsertion)
    have husers := congrArg UserDb.users (congrFun heffect (.fresh []))
    simp [UserDb.fresh, UserDb.insertUser] at husers
  constructor
  · rintro ⟨generation, keysChangedAt, next, hinsertion⟩
    exact absurd hinsertion (hmakes generation keysChangedAt next)
  · exact fun hfirst => absurd hfirst (hmakes _ _ _)

/-- So does one of an account without rows. -/
theorem makesAlone_of_nil (h : db.users = []) : MakesAlone request db script := by
  constructor
  · exact fun _ other hother => absurd (h ▸ hother) List.not_mem_nil
  · exact fun _ other hother => absurd (h ▸ hother) List.not_mem_nil

/-- The same request of one account, twice. -/
def sameRequest : Fin 2 → TokenRequest := fun _ => ⟨"a", none, 5, "00", 10⟩

/-- In the order of a schedule. -/
def twice (schedule : List (Fin 2)) : Threads (Fin 2) UserDb (Except Raised TokenFacts) :=
  (Threads.machine (Fin 2) UserDb (Except Raised TokenFacts)).run (tokenRequests sameRequest ["a"]) schedule

/-- One after the other: the second finds what the first has made. -/
theorem one_uid_of_alone_twice :
    (twice [0, 0, 0, 1]).Finished 0 (.ok ⟨1, 0, some 5⟩) ∧ (twice [0, 0, 0, 1]).Finished 1 (.ok ⟨1, 0, some 5⟩) ∧
      OneUid sameRequest (twice [0, 0, 0, 1]) := by
  refine ⟨rfl, rfl, one_uid_of_alone sameRequest ["a"] [0, 0, 0, 1] ⟨?_, ?_, ?_, ?_, trivial⟩ 4⟩
  · exact makesAlone_of_nil rfl
  · exact makesAlone_of_nil rfl
  · exact makesAlone_of_nil rfl
  · exact makesAlone_of_read (token_eq _)

/-- Both look before either has made a row: two uids for one client state, and two users in use. -/
theorem two_uids_for_one_state : ¬OneUid sameRequest (twice [0, 0, 1, 1, 0, 1]) := by
  intro h
  have hfirst : (twice [0, 0, 1, 1, 0, 1]).Finished 0 (.ok ⟨1, 0, some 5⟩) := rfl
  have hsecond : (twice [0, 0, 1, 1, 0, 1]).Finished 1 (.ok ⟨2, 0, some 5⟩) := rfl
  exact absurd (h.uids 0 1 _ _ hfirst hsecond rfl rfl) (by decide)

end FxaLite.Tokenserver
