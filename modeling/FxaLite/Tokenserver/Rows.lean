import FxaLite.Tokenserver.KeysChangedAt
import Mathlib.Data.List.Nodup

/-!
# What a statement does to the rows of the Sync users

A request reads the rows of its account, and goes on by what it has found. A uid, the account it
belongs to and its client state stay together for ever: statements only add rows, change values, and
retire. Where no two rows of an account share a client state, the two determine the uid.
-/

namespace FxaLite.Tokenserver

open Concurrent

/-! ### The statements of a request -/

/-- The end of a request, from the user it has found on. -/
def judged (request : TokenRequest) (current : SyncUser) (retired : List String) : Program TokenFacts :=
  match validate (authData request) current retired with
  | .ok () => apply (authData request) current request.nowMs
  | .error raised => .done (.error raised)

/-- A statement that makes a row for a request, and what follows. -/
def insertion (request : TokenRequest) (generation : ℤ) (keysChangedAt : Option ℤ) (next : SyncUser → Program TokenFacts) :
    Program TokenFacts :=
  .stmt (fun db => db.insertUser (db.newUser request.sub request.clientState generation keysChangedAt request.nowMs)) fun db =>
    next (db.newUser request.sub request.clientState generation keysChangedAt request.nowMs)

/-- A request that has found no row, and an account. -/
def firstSight (request : TokenRequest) : Program TokenFacts :=
  insertion request ((authData request).generation.getD 0) (authData request).keysChangedAt fun user => judged request user []

/-- A request that has found no row. -/
def unseen (request : TokenRequest) : Program TokenFacts :=
  .read fun db =>
    if db.accounts.contains request.sub then
      if bindableKeys ((authData request).generation.getD 0) (authData request).keysChangedAt then firstSight request
      else .done (.error .overflow)
    else .done (.error invalidCredentials)

/-- A request that has made a row for a new client state. -/
def superseding (request : TokenRequest) (uid : ℕ) (generation : ℤ) (keysChangedAt : Option ℤ) : Program TokenFacts :=
  .act (·.replaceOtherSyncUsers request.sub uid request.nowMs) (.done (.ok ⟨uid, generation, keysChangedAt⟩))

/-- A request begins by reading the rows of its account. -/
theorem token_eq (request : TokenRequest) :
    token request = .read fun db =>
      match db.syncUsers request.sub with
      | [] => unseen request
      | current :: history =>
        (repair current.createdAt history).bind fun _ => judged request current (retiredStates current history) := by
  have hsub : (authData request).fxaUid = request.sub := rfl
  unfold token currentUser
  rw [Script.andThen_read]
  congr 1
  funext db
  rw [hsub]
  cases db.syncUsers request.sub with
  | nil =>
    dsimp only
    rw [Script.andThen_read]
    unfold unseen
    congr 1
    funext db
    split
    · unfold createSyncUser
      split
      · rfl
      · rfl
    · rfl
  | cons current history =>
    unfold Script.andThen
    rw [Script.bind_bind]
    rfl

/-! ### Rows -/

/-- A uid of an account, under a client state. -/
def UserDb.Names (db : UserDb) (uid : ℕ) (fxaUid clientState : String) : Prop :=
  ∃ user ∈ db.users, user.uid = uid ∧ user.fxaUid = fxaUid ∧ user.clientState = clientState

/-- Uids are told apart, and none is ahead of the last one given out. -/
structure UserDb.Numbered (db : UserDb) : Prop where
  uids : (db.users.map SyncUser.uid).Nodup
  issued : ∀ user ∈ db.users, user.uid ≤ db.lastUid

/-- And no two rows of an account share a client state. -/
structure UserDb.Sound (db : UserDb) : Prop extends db.Numbered where
  states : ∀ user ∈ db.users, ∀ other ∈ db.users, user.fxaUid = other.fxaUid → user.clientState = other.clientState →
    user.uid = other.uid

/-- A change of a row that leaves alone what it is the row of, and revives nothing. -/
structure Tame (set : SyncUser → SyncUser) : Prop where
  uid : ∀ user, (set user).uid = user.uid
  fxaUid : ∀ user, (set user).fxaUid = user.fxaUid
  clientState : ∀ user, (set user).clientState = user.clientState
  retired : ∀ user, (set user).replacedAt = none → user.replacedAt = none

/-- Rows are changed, none is added. -/
def UserDb.Touched (db db' : UserDb) : Prop :=
  ∃ set, Tame set ∧ db' = { db with users := db.users.map set }

variable {db db' : UserDb} {uid : ℕ} {fxaUid clientState : String} {user : SyncUser}

/-- The uids tell the rows of a table apart. -/
theorem UserDb.Numbered.eq_of_uid (numbered : db.Numbered) {other : SyncUser} (huser : user ∈ db.users) (hother : other ∈ db.users)
    (h : user.uid = other.uid) : user = other := List.inj_on_of_nodup_map numbered.uids huser hother h

/-- Rows of one uid are one row at most. -/
theorem UserDb.Numbered.length_le_one (numbered : db.Numbered) {rows : List SyncUser} (hrows : rows.Sublist db.users)
    (hsame : ∀ user ∈ rows, ∀ other ∈ rows, user.uid = other.uid) : rows.length ≤ 1 := by
  have huids := (hrows.map SyncUser.uid).nodup numbered.uids
  rcases rows with _ | ⟨first, _ | ⟨second, rest⟩⟩
  · exact Nat.zero_le 1
  · exact le_rfl
  · have hfirst : first.uid = second.uid := hsame first (by simp) second (by simp)
    simp [hfirst] at huids

/-- A uid is of one account, and under one client state. -/
theorem UserDb.Numbered.named_unique (numbered : db.Numbered) {fxaUid' clientState' : String}
    (hnames : db.Names uid fxaUid clientState) (hnames' : db.Names uid fxaUid' clientState') :
    fxaUid = fxaUid' ∧ clientState = clientState' := by
  obtain ⟨user, huser, rfl, rfl, rfl⟩ := hnames
  obtain ⟨other, hother, huid, rfl, rfl⟩ := hnames'
  obtain rfl := numbered.eq_of_uid hother huser huid
  exact ⟨rfl, rfl⟩

/-- An account and a client state have one uid. -/
theorem UserDb.Sound.names_unique (sound : db.Sound) {uid' : ℕ} (h : db.Names uid fxaUid clientState)
    (h' : db.Names uid' fxaUid clientState) : uid = uid' := by
  obtain ⟨user, huser, rfl, rfl, rfl⟩ := h
  obtain ⟨other, hother, rfl, haccount, hstate⟩ := h'
  exact sound.states user huser other hother haccount.symm hstate.symm

/-! ### Changes of rows -/

/-- A table without Sync users has none to tell apart. -/
theorem numbered_fresh (accounts : List String) : (UserDb.fresh accounts).Numbered :=
  ⟨List.nodup_nil, fun _ huser => absurd huser List.not_mem_nil⟩

/-- It is sound. -/
theorem sound_fresh (accounts : List String) : (UserDb.fresh accounts).Sound :=
  ⟨numbered_fresh accounts, fun _ huser => absurd huser List.not_mem_nil⟩

/-- Nothing at all is no change. -/
theorem UserDb.Touched.refl (db : UserDb) : db.Touched db := by
  refine ⟨id, ⟨fun _ => rfl, fun _ => rfl, fun _ => rfl, fun _ h => h⟩, ?_⟩
  rw [List.map_id]

/-- An update by a tame change is one. -/
theorem touched_updateWhere {matching : SyncUser → Bool} {set : SyncUser → SyncUser} (hset : Tame set) :
    db.Touched (db.updateWhere matching set) := by
  refine ⟨fun user => if matching user then set user else user, ?_, rfl⟩
  constructor
  · intro user
    split
    · exact hset.uid user
    · rfl
  · intro user
    split
    · exact hset.fxaUid user
    · rfl
  · intro user
    split
    · exact hset.clientState user
    · rfl
  · intro user
    split
    · exact hset.retired user
    · exact id

/-- Retiring a user is tame. -/
theorem tame_retire (replacedAt : ℕ) : Tame fun user => { user with replacedAt := some replacedAt } :=
  ⟨fun _ => rfl, fun _ => rfl, fun _ => rfl, fun _ h => by cases h⟩

theorem touched_replaceSyncUser (uid replacedAt : ℕ) : db.Touched (db.replaceSyncUser uid replacedAt) :=
  touched_updateWhere (tame_retire replacedAt)

theorem touched_replaceOther (fxaUid : String) (keep replacedAt : ℕ) :
    db.Touched (db.replaceOtherSyncUsers fxaUid keep replacedAt) := touched_updateWhere (tame_retire replacedAt)

theorem touched_updateSyncUser (uid : ℕ) (generation : ℤ) (keysChangedAt : Option ℤ) :
    db.Touched (db.updateSyncUser uid generation keysChangedAt) := by
  apply touched_updateWhere
  exact ⟨fun _ => rfl, fun _ => rfl, fun _ => rfl, fun _ h => h⟩

/-- Where others are retired, only the one that is kept is still in use. -/
theorem uid_of_replaceOther {keep replacedAt : ℕ} (huser : user ∈ (db.replaceOtherSyncUsers fxaUid keep replacedAt).users)
    (haccount : user.fxaUid = fxaUid) (hlive : user.replacedAt = none) : user.uid = keep := by
  obtain ⟨old, hold, rfl⟩ := List.mem_map.mp huser
  by_contra hother
  split at hlive
  · cases hlive
  · rename_i hkept
    rw [if_neg hkept] at haccount hother
    exact hkept (by simp [haccount, hother, hlive])

/-- Where one is retired, its uid is out of use. -/
theorem uid_of_replaceSyncUser {replacedAt : ℕ} (huser : user ∈ (db.replaceSyncUser uid replacedAt).users)
    (hlive : user.replacedAt = none) : user.uid ≠ uid := by
  obtain ⟨old, hold, rfl⟩ := List.mem_map.mp huser
  intro hsame
  split at hlive
  · cases hlive
  · rename_i hkept
    rw [if_neg hkept] at hsame
    exact hkept (by simp [hsame, hlive])

/-- A change of rows keeps what uids name. -/
theorem UserDb.Touched.names (h : db.Touched db') (hnames : db.Names uid fxaUid clientState) :
    db'.Names uid fxaUid clientState := by
  obtain ⟨set, hset, rfl⟩ := h
  obtain ⟨user, huser, rfl, rfl, rfl⟩ := hnames
  exact ⟨set user, List.mem_map_of_mem huser, hset.uid user, hset.fxaUid user, hset.clientState user⟩

/-- A row after the change is one before it, as far as it can be told apart. -/
theorem UserDb.Touched.exists_of_mem (h : db.Touched db') (huser : user ∈ db'.users) :
    ∃ old ∈ db.users, old.uid = user.uid ∧ old.fxaUid = user.fxaUid ∧ old.clientState = user.clientState ∧
      (user.replacedAt = none → old.replacedAt = none) := by
  obtain ⟨set, hset, rfl⟩ := h
  obtain ⟨old, hold, rfl⟩ := List.mem_map.mp huser
  exact ⟨old, hold, (hset.uid old).symm, (hset.fxaUid old).symm, (hset.clientState old).symm, hset.retired old⟩

/-- It keeps the uids of a table apart. -/
theorem UserDb.Touched.numbered (h : db.Touched db') (numbered : db.Numbered) : db'.Numbered := by
  have hrows := fun {user} => @UserDb.Touched.exists_of_mem db db' user h
  obtain ⟨set, hset, rfl⟩ := h
  constructor
  · have hsame : (db.users.map set).map SyncUser.uid = db.users.map SyncUser.uid := by
      rw [List.map_map]
      exact List.map_congr_left fun user _ => hset.uid user
    exact hsame ▸ numbered.uids
  · intro user huser
    obtain ⟨old, hold, huid, -⟩ := hrows huser
    exact huid ▸ numbered.issued old hold

/-- It keeps a table sound. -/
theorem UserDb.Touched.sound (h : db.Touched db') (sound : db.Sound) : db'.Sound := by
  refine ⟨h.numbered sound.toNumbered, ?_⟩
  intro user huser other hother haccount hstate
  obtain ⟨old, hold, huid, hfxa, hclient, -⟩ := h.exists_of_mem huser
  obtain ⟨old', hold', huid', hfxa', hclient', -⟩ := h.exists_of_mem hother
  rw [← huid, ← huid']
  exact sound.states old hold old' hold' (by rw [hfxa, hfxa', haccount]) (by rw [hclient, hclient', hstate])

/-! ### New rows -/

/-- A new row is added to what uids name. -/
theorem names_insertUser (h : db.Names uid fxaUid clientState) (user : SyncUser) :
    (db.insertUser user).Names uid fxaUid clientState := by
  obtain ⟨old, hold, hnames⟩ := h
  exact ⟨old, List.mem_append_left _ hold, hnames⟩

/-- It is named itself. -/
theorem names_newUser (fxaUid clientState : String) (generation : ℤ) (keysChangedAt : Option ℤ) (createdAt : ℕ) :
    (db.insertUser (db.newUser fxaUid clientState generation keysChangedAt createdAt)).Names (db.lastUid + 1) fxaUid clientState :=
  ⟨_, List.mem_append_right _ (List.mem_singleton_self _), rfl, rfl, rfl⟩

/-- A row under the next uid keeps the uids of a table apart. -/
theorem numbered_insertUser (numbered : db.Numbered) (huid : user.uid = db.lastUid + 1) : (db.insertUser user).Numbered := by
  constructor
  · change ((db.users ++ [user]).map SyncUser.uid).Nodup
    rw [List.map_append, List.map_singleton, List.nodup_append]
    refine ⟨numbered.uids, List.nodup_singleton _, ?_⟩
    intro other hother last hlast
    obtain ⟨row, hrow, rfl⟩ := List.mem_map.mp hother
    have hissued := numbered.issued row hrow
    have hnew := List.mem_singleton.mp hlast
    omega
  · intro row hrow
    change row.uid ≤ user.uid
    obtain hold | hlast := List.mem_append.mp hrow
    · have hissued := numbered.issued row hold
      omega
    · exact (congrArg SyncUser.uid (List.mem_singleton.mp hlast)).le

/-- A table stays sound with one whose client state is new to its account. -/
theorem sound_insertUser (sound : db.Sound) (huid : user.uid = db.lastUid + 1)
    (hnew : ∀ other ∈ db.users, other.fxaUid = user.fxaUid → other.clientState ≠ user.clientState) :
    (db.insertUser user).Sound := by
  refine ⟨numbered_insertUser sound.toNumbered huid, ?_⟩
  intro row hrow other hother haccount hstate
  obtain hold | hlast := List.mem_append.mp hrow
  · obtain hold' | hlast' := List.mem_append.mp hother
    · exact sound.states row hold other hold' haccount hstate
    · obtain rfl := List.mem_singleton.mp hlast'
      exact absurd hstate (hnew row hold haccount)
  · obtain rfl := List.mem_singleton.mp hlast
    obtain hold' | hlast' := List.mem_append.mp hother
    · exact absurd hstate.symm (hnew other hold' haccount.symm)
    · rw [List.mem_singleton.mp hlast']

end FxaLite.Tokenserver
