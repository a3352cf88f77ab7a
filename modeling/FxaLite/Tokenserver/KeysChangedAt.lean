import FxaLite.Tokenserver.Users

/-!
# Key changes and authentication changes

A key change is an authentication change, so the time of the last one should never be ahead of
the generation. The rule is checked against the stored user, and only where that user has a time
of its own: what a request says on first sight, or to a user that never had one, is stored as it
is. These are the only ways in which a pair gets into the table that breaks the rule.
-/

namespace FxaLite.Tokenserver

open Concurrent Reactive

/-- The tokenserver as a machine that answers one token request after another. -/
def tokenserver : Machine UserDb TokenRequest (Except Raised TokenFacts) :=
  ⟨fun db request => (((token request).exec db).2, ((token request).exec db).1)⟩

/-- The time of a key change, if there is one, is not ahead of a generation. -/
def InOrder (generation : ℤ) (keysChangedAt : Option ℤ) : Prop :=
  ∀ changed, keysChangedAt = some changed → changed ≤ generation

/-- The rule, of every Sync user. -/
def UserDb.KeysInOrder (db : UserDb) : Prop := ∀ user ∈ db.users, InOrder user.generation user.keysChangedAt

/-! ### The statements -/

/-- A new user keeps the rule exactly if it obeys it. -/
theorem keysInOrder_insertUser {db : UserDb} (h : db.KeysInOrder) (user : SyncUser) :
    (db.insertUser user).KeysInOrder ↔ InOrder user.generation user.keysChangedAt := by
  constructor
  · intro hinserted
    exact hinserted user (by simp [UserDb.insertUser])
  · intro huser other hother
    obtain hold | hnew := List.mem_append.mp hother
    · exact h other hold
    · exact List.mem_singleton.mp hnew ▸ huser

/-- An update that leaves both values alone makes no difference to the rule. -/
theorem keysInOrder_updateWhere {db : UserDb} {matching : SyncUser → Bool} {set : SyncUser → SyncUser}
    (hset : ∀ user, (set user).generation = user.generation ∧ (set user).keysChangedAt = user.keysChangedAt) :
    (db.updateWhere matching set).KeysInOrder ↔ db.KeysInOrder := by
  have hrow : ∀ user, (if matching user then set user else user).generation = user.generation ∧
      (if matching user then set user else user).keysChangedAt = user.keysChangedAt := by
    intro user
    split
    · exact hset user
    · exact ⟨rfl, rfl⟩
  unfold UserDb.KeysInOrder UserDb.updateWhere
  simp only [List.forall_mem_map, hrow]

/-- Neither of the two statements that retire users does. -/
theorem keysInOrder_replace (db : UserDb) (uid replacedAt : ℕ) :
    (db.replaceSyncUser uid replacedAt).KeysInOrder ↔ db.KeysInOrder := by
  unfold UserDb.replaceSyncUser
  apply keysInOrder_updateWhere
  exact fun _ => ⟨rfl, rfl⟩

theorem keysInOrder_replaceOther (db : UserDb) (fxaUid : String) (keep replacedAt : ℕ) :
    (db.replaceOtherSyncUsers fxaUid keep replacedAt).KeysInOrder ↔ db.KeysInOrder := by
  unfold UserDb.replaceOtherSyncUsers
  apply keysInOrder_updateWhere
  exact fun _ => ⟨rfl, rfl⟩

/-- Users are only ever added and changed. -/
def UserDb.Has (db : UserDb) (uid : ℕ) : Prop := ∃ user ∈ db.users, user.uid = uid

/-- An update that leaves uids alone loses none. -/
theorem has_updateWhere {db : UserDb} {matching : SyncUser → Bool} {set : SyncUser → SyncUser}
    (hset : ∀ user, (set user).uid = user.uid) {uid : ℕ} (h : db.Has uid) : (db.updateWhere matching set).Has uid := by
  obtain ⟨user, huser, rfl⟩ := h
  refine ⟨_, List.mem_map_of_mem huser, ?_⟩
  split
  · exact hset user
  · rfl

/-- Moving a user forward keeps the rule exactly if the new values obey it. -/
theorem keysInOrder_updateSyncUser {db : UserDb} (h : db.KeysInOrder) {uid : ℕ} (hhas : db.Has uid)
    (generation : ℤ) (keysChangedAt : Option ℤ) :
    (db.updateSyncUser uid generation keysChangedAt).KeysInOrder ↔ InOrder generation keysChangedAt := by
  constructor
  · intro hupdated
    obtain ⟨user, huser, rfl⟩ := hhas
    exact hupdated { user with generation, keysChangedAt } (List.mem_map.mpr ⟨user, huser, by simp⟩)
  · intro hvalues user huser
    obtain ⟨old, hold, rfl⟩ := List.mem_map.mp huser
    split
    · exact hvalues
    · exact h old hold

/-- The repair of a crash keeps the rule, and loses no user. -/
theorem repair_keeps (createdAt uid : ℕ) (history : List SyncUser) :
    (repair createdAt history).Keeps fun db => db.KeysInOrder ∧ db.Has uid := by
  induction history with
  | nil => trivial
  | cons old rest ih =>
    unfold repair
    split
    · intro db hdb
      have hhas : (db.replaceSyncUser old.uid createdAt).Has uid := by
        apply has_updateWhere _ hdb.2
        exact fun _ => rfl
      exact ⟨⟨(keysInOrder_replace db _ _).mpr hdb.1, hhas⟩, ih⟩
    · exact ih

/-- What `create_sync_user` does. -/
theorem createSyncUser_exec (fxaUid clientState : String) (generation : ℤ) (keysChangedAt : Option ℤ)
    (createdAt : ℕ) (db : UserDb) :
    (createSyncUser fxaUid clientState generation keysChangedAt createdAt).exec db =
      if bindableKeys generation keysChangedAt then
        (.ok (db.newUser fxaUid clientState generation keysChangedAt createdAt),
          db.insertUser (db.newUser fxaUid clientState generation keysChangedAt createdAt))
      else (.error .overflow, db) := by
  unfold createSyncUser
  split <;> rfl

/-! ### What is checked -/

/-- What a request that passes has not claimed. -/
theorem validate_eq_ok {auth : AuthData} {user : SyncUser} {retired : List String} :
    validate auth user retired = .ok () ↔
      ¬(gt auth.keysChangedAt user.keysChangedAt = true ∧ lt auth.generation auth.keysChangedAt = true) ∧
      ¬(user.clientState ≠ "" ∧ auth.clientState = "") ∧
      ¬retired.contains auth.clientState = true ∧
      ¬(auth.clientState ≠ user.clientState ∧ le auth.generation (some user.generation) = true) ∧
      ¬(auth.clientState ≠ user.clientState ∧ le auth.keysChangedAt user.keysChangedAt = true) ∧
      ¬gt (some user.generation) auth.generation = true ∧
      ¬gt user.keysChangedAt auth.keysChangedAt = true ∧
      ¬(auth.keysChangedAt = none ∧ user.keysChangedAt ≠ none ∧ user.keysChangedAt ≠ some 0) := by
  simp only [validate, Bool.and_eq_true, ite_eq_iff, reduceCtorEq, and_false, false_or, and_true]

/-- The values a request leaves obey the rule, if the user's own did and there is a time of a key
change or a generation to check them against. -/
theorem next_inOrder {auth : AuthData} {user : SyncUser} {retired : List String}
    (hvalid : validate auth user retired = .ok ()) (huser : InOrder user.generation user.keysChangedAt)
    (hchecked : user.keysChangedAt ≠ none ∨ auth.generation = none) :
    InOrder (nextGeneration auth user) (nextKeysChangedAt auth user) := by
  obtain ⟨hpair, -, -, -, -, hgeneration, hchanged, habsent⟩ := validate_eq_ok.mp hvalid
  unfold InOrder at huser ⊢
  unfold nextGeneration nextKeysChangedAt
  cases hstored : user.keysChangedAt with
  | none =>
    have hg : auth.generation = none := hchecked.resolve_left (not_not.mpr hstored)
    cases hk : auth.keysChangedAt with
    | none => simp
    | some changed =>
      simp only [hg, true_or, and_true, Option.some.injEq, forall_eq']
      split <;> omega
  | some stored =>
    have hstoredLe : stored ≤ user.generation := huser stored hstored
    cases hg : auth.generation with
    | none =>
      cases hk : auth.keysChangedAt with
      | none =>
        simp [hk, hstored] at habsent ⊢
        omega
      | some changed =>
        simp [hstored, hk, gt] at hchanged ⊢
        split <;> omega
    | some generation =>
      simp [hg, gt] at hgeneration
      cases hk : auth.keysChangedAt with
      | none =>
        simp [hk, hstored] at habsent ⊢
        omega
      | some changed =>
        simp [hstored, hk, hg, gt, lt] at hpair hchanged ⊢
        omega

/-- Where there is neither, a request leaves what it says. -/
theorem next_unchecked {auth : AuthData} {user : SyncUser} {generation : ℤ} (hstored : user.keysChangedAt = none)
    (hgeneration : auth.generation = some generation) :
    nextGeneration auth user = generation ∧ nextKeysChangedAt auth user = auth.keysChangedAt := by
  unfold nextGeneration nextKeysChangedAt
  rw [hstored, hgeneration]
  cases auth.keysChangedAt with
  | none => exact ⟨rfl, rfl⟩
  | some changed => exact ⟨rfl, rfl⟩

/-! ### One request -/

/-- A request that does not write a pair that breaks the rule: it comes from an account without
Sync users, and does not say so on its own; or it finds a user without a time of a key change,
and what it says of both, if it says both and is let through, obeys the rule. -/
def Paired (db : UserDb) (request : TokenRequest) : Prop :=
  let auth := authData request
  match db.syncUsers auth.fxaUid with
  | [] =>
    db.accounts.contains auth.fxaUid = true → bindableKeys (auth.generation.getD 0) auth.keysChangedAt = true →
      InOrder (auth.generation.getD 0) auth.keysChangedAt
  | current :: history =>
    current.keysChangedAt = none → validate auth current (retiredStates current history) = .ok () →
      ∀ generation, auth.generation = some generation →
        bindableKeys generation auth.keysChangedAt = true → InOrder generation auth.keysChangedAt

/-- The users that are listed are users. -/
theorem mem_syncUsers {db : UserDb} {fxaUid : String} {user : SyncUser} :
    user ∈ db.syncUsers fxaUid ↔ user ∈ db.users ∧ user.fxaUid = fxaUid := by
  simp [UserDb.syncUsers, List.mem_insertionSort]

/-- The user that a request makes on first sight. -/
def UserDb.firstUser (db : UserDb) (auth : AuthData) (nowMs : ℕ) : SyncUser :=
  db.newUser auth.fxaUid auth.clientState (auth.generation.getD 0) auth.keysChangedAt nowMs

/-- What happens on first sight. -/
theorem currentUser_of_none {db : UserDb} {auth : AuthData} (hnone : db.syncUsers auth.fxaUid = []) (nowMs : ℕ) :
    (currentUser auth nowMs).exec db =
      if db.accounts.contains auth.fxaUid = true then
        if bindableKeys (auth.generation.getD 0) auth.keysChangedAt = true then
          (.ok (db.firstUser auth nowMs, []), db.insertUser (db.firstUser auth nowMs))
        else (.error .overflow, db)
      else (.error invalidCredentials, db) := by
  have hcreated := createSyncUser_exec auth.fxaUid auth.clientState (auth.generation.getD 0) auth.keysChangedAt nowMs db
  simp only [currentUser, Script.exec_read, hnone]
  split
  · split
    · rename_i hfits
      rw [if_pos hfits] at hcreated
      rw [Script.exec_andThen_ok hcreated]
      rfl
    · rename_i hfits
      rw [if_neg hfits] at hcreated
      rw [Script.exec_andThen_error hcreated]
  · rfl

/-- What happens to an account with Sync users. -/
theorem currentUser_of_cons {db : UserDb} {auth : AuthData} {current : SyncUser} {history : List SyncUser}
    (hlisted : db.syncUsers auth.fxaUid = current :: history) (nowMs : ℕ) :
    (currentUser auth nowMs).exec db =
      (.ok (current, retiredStates current history), ((repair current.createdAt history).exec db).2) := by
  simp [currentUser, hlisted]

/-- A user who was just made is left as it is by the request that made it. -/
theorem apply_firstUser (auth : AuthData) (db db' : UserDb) (nowMs : ℕ) :
    ((apply auth (db.firstUser auth nowMs) nowMs).exec db').2 = db' := by
  have hchanged : nextKeysChangedAt auth (db.firstUser auth nowMs) = auth.keysChangedAt := by
    unfold nextKeysChangedAt UserDb.firstUser UserDb.newUser
    cases auth.keysChangedAt <;> rfl
  have hgeneration : nextGeneration auth (db.firstUser auth nowMs) = auth.generation.getD 0 := by
    unfold nextGeneration UserDb.firstUser UserDb.newUser
    cases auth.generation <;> cases auth.keysChangedAt <;> simp [gt]
  unfold apply
  rw [hchanged, hgeneration]
  simp [UserDb.firstUser, UserDb.newUser]

/-- What `_apply` writes keeps the rule exactly if the new values obey it, or do not fit. -/
theorem apply_keysInOrder {db : UserDb} (h : db.KeysInOrder) {user : SyncUser} (hhas : db.Has user.uid)
    (huser : InOrder user.generation user.keysChangedAt) (auth : AuthData) (nowMs : ℕ) :
    ((apply auth user nowMs).exec db).2.KeysInOrder ↔
      (bindableKeys (nextGeneration auth user) (nextKeysChangedAt auth user) = true →
        InOrder (nextGeneration auth user) (nextKeysChangedAt auth user)) := by
  unfold apply
  dsimp only
  by_cases hfits : bindableKeys (nextGeneration auth user) (nextKeysChangedAt auth user) = true
  · simp only [hfits, if_true, forall_const]
    split
    · have hcreated := createSyncUser_exec auth.fxaUid auth.clientState (nextGeneration auth user)
        (nextKeysChangedAt auth user) nowMs db
      rw [if_pos hfits] at hcreated
      rw [Script.exec_andThen_ok hcreated, Script.exec_act, Script.exec_done]
      exact (keysInOrder_replaceOther _ _ _ _).trans (keysInOrder_insertUser h _)
    · split
      · rw [Script.exec_act, Script.exec_done]
        exact keysInOrder_updateSyncUser h hhas _ _
      · rename_i hsame
        push Not at hsame
        simp [h, hsame.1, hsame.2, huser]
  · simp only [hfits, Bool.false_eq_true, if_false, false_implies, iff_true]
    split
    · have hcreated := createSyncUser_exec auth.fxaUid auth.clientState (nextGeneration auth user)
        (nextKeysChangedAt auth user) nowMs db
      rw [if_neg hfits] at hcreated
      rw [Script.exec_andThen_error hcreated]
      exact h
    · split
      · exact h
      · exact h

/-- First sight: the pair is stored as the request says it. -/
theorem token_first_sight {db : UserDb} (h : db.KeysInOrder) {request : TokenRequest}
    (hnone : db.syncUsers (authData request).fxaUid = []) :
    ((token request).exec db).2.KeysInOrder ↔ Paired db request := by
  unfold Paired
  simp only [hnone]
  have hfound := currentUser_of_none hnone request.nowMs
  by_cases haccount : db.accounts.contains (authData request).fxaUid = true
  · rw [if_pos haccount] at hfound
    by_cases hfits : bindableKeys ((authData request).generation.getD 0) (authData request).keysChangedAt = true
    · rw [if_pos hfits] at hfound
      rw [token, Script.exec_andThen_ok hfound]
      simp only [haccount, hfits, forall_const]
      -- whether the request passes or not, the user it made is there
      have hinserted := keysInOrder_insertUser h (db.firstUser (authData request) request.nowMs)
      cases validate (authData request) (db.firstUser (authData request) request.nowMs) [] with
      | error raised => exact hinserted
      | ok => exact (apply_firstUser (authData request) db _ request.nowMs).symm ▸ hinserted
    · rw [if_neg hfits] at hfound
      rw [token, Script.exec_andThen_error hfound]
      exact iff_of_true h fun _ hbindable => absurd hbindable hfits
  · rw [if_neg haccount] at hfound
    rw [token, Script.exec_andThen_error hfound]
    exact iff_of_true h fun hmem => absurd hmem haccount

/-- An account with Sync users: the current one is moved forward or replaced, if the request is
let through. -/
theorem token_current {db : UserDb} (h : db.KeysInOrder) {request : TokenRequest} {current : SyncUser}
    {history : List SyncUser} (hlisted : db.syncUsers (authData request).fxaUid = current :: history) :
    ((token request).exec db).2.KeysInOrder ↔ Paired db request := by
  obtain ⟨hmem, -⟩ := mem_syncUsers.mp (hlisted ▸ List.mem_cons_self : current ∈ db.syncUsers (authData request).fxaUid)
  obtain ⟨hrepaired, hhas⟩ := (repair_keeps current.createdAt current.uid history).exec ⟨h, current, hmem, rfl⟩
  unfold Paired
  simp only [hlisted]
  rw [token, Script.exec_andThen_ok (currentUser_of_cons hlisted request.nowMs)]
  dsimp only
  cases hvalid : validate (authData request) current (retiredStates current history) with
  | error raised => simpa using hrepaired
  | ok =>
    dsimp only
    rw [apply_keysInOrder hrepaired hhas (h current hmem)]
    by_cases hchecked : current.keysChangedAt ≠ none ∨ (authData request).generation = none
    · have hnext := next_inOrder hvalid (h current hmem) hchecked
      refine ⟨fun _ hstored _ generation hgeneration => ?_, fun _ _ => hnext⟩
      obtain hsome | hnone := hchecked
      · exact absurd hstored hsome
      · cases hnone.symm.trans hgeneration
    · push Not at hchecked
      obtain ⟨hstored, hsome⟩ := hchecked
      obtain ⟨generation, hgeneration⟩ := Option.ne_none_iff_exists'.mp hsome
      obtain ⟨hleft, hright⟩ := next_unchecked hstored hgeneration
      rw [hleft, hright]
      simp [hstored, hgeneration]

/-- A request keeps the rule exactly if it does not write a pair that breaks it. -/
theorem token_keysInOrder {db : UserDb} (h : db.KeysInOrder) (request : TokenRequest) :
    ((token request).exec db).2.KeysInOrder ↔ Paired db request := by
  cases hlisted : db.syncUsers (authData request).fxaUid with
  | nil => exact token_first_sight h hlisted
  | cons current history => exact token_current h hlisted

/-! ### Every run -/

/-- No time of a key change is ever ahead of its generation exactly in the runs in which no request
brings a pair on first sight, or to a user without a time of a key change, that is. -/
theorem keysChangedAt_le_generation (accounts : List String) (requests : List TokenRequest) :
    (∀ n, (tokenserver.run (UserDb.fresh accounts) (requests.take n)).KeysInOrder) ↔
      tokenserver.Along Paired (UserDb.fresh accounts) requests := by
  apply tokenserver.forall_run_iff_along
  · intro db request h
    exact token_keysInOrder h request
  · intro user huser
    simp [UserDb.fresh] at huser

/-- A first request with a generation of 1 and keys changed at 2, and one that says so of a user
who was made without a time of a key change. -/
theorem keysChangedAt_ahead :
    ¬(tokenserver.run (.fresh ["a"]) [⟨"a", some 1, 2, "00", 10⟩]).KeysInOrder ∧
      ¬(tokenserver.run (.fresh ["a"]) [⟨"a", some 1, 0, "00", 10⟩, ⟨"a", some 1, 2, "00", 20⟩]).KeysInOrder := by
  have hfirst : (tokenserver.run (.fresh ["a"]) [⟨"a", some 1, 2, "00", 10⟩]).users =
      [⟨1, "a", "00", 1, some 2, 10, none⟩] := by decide +kernel
  have hlater : (tokenserver.run (.fresh ["a"]) [⟨"a", some 1, 0, "00", 10⟩, ⟨"a", some 1, 2, "00", 20⟩]).users =
      [⟨1, "a", "00", 1, some 2, 10, none⟩] := by decide +kernel
  constructor
  · intro h
    exact absurd (h _ (by rw [hfirst]; exact List.mem_singleton_self _) 2 rfl) (by decide)
  · intro h
    exact absurd (h _ (by rw [hlater]; exact List.mem_singleton_self _) 2 rfl) (by decide)

end FxaLite.Tokenserver
