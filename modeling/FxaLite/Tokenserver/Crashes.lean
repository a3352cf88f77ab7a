import FxaLite.Tokenserver.Rows

/-!
# Token requests that a crash may cut short

Requests come one after another, and each may stop after any of its statements. The rows of an account
are in order: a newer one is ahead in its generation and in the time of its key change, and the newest
is in use. So the newest is listed first, and whatever a crash has left is squared away by the next
request before it is granted anything.
-/

namespace FxaLite.Tokenserver

open Concurrent Reactive

/-! ### Rows in order -/

/-- An absent time of a key change is before every other. -/
def KeysLe (keysChangedAt keysChangedAt' : Option ℤ) : Prop :=
  ∀ changed, keysChangedAt = some changed → ∃ changed', keysChangedAt' = some changed' ∧ changed ≤ changed'

/-- One state of an account is not ahead of another. -/
structure SyncUser.NotAhead (user other : SyncUser) : Prop where
  generation : user.generation ≤ other.generation
  keysChangedAt : KeysLe user.keysChangedAt other.keysChangedAt
  createdAt : user.createdAt ≤ other.createdAt

/-- The newest row of its account. -/
def UserDb.Newest (db : UserDb) (user : SyncUser) : Prop :=
  user ∈ db.users ∧ ∀ other ∈ db.users, other.fxaUid = user.fxaUid → other.uid ≤ user.uid

/-- Newer rows are ahead, and the newest is in use. -/
structure UserDb.Ordered (now : ℕ) (db : UserDb) : Prop where
  sound : db.Sound
  created : ∀ user ∈ db.users, user.createdAt ≤ now
  newer : ∀ user ∈ db.users, ∀ other ∈ db.users, user.fxaUid = other.fxaUid → user.uid ≤ other.uid → user.NotAhead other
  inUse : ∀ user, db.Newest user → user.replacedAt = none

/-- Every row goes on, is not behind what it was, and stays retired. -/
def UserDb.Later (db db' : UserDb) : Prop :=
  ∀ user ∈ db.users, ∃ user' ∈ db'.users, user'.uid = user.uid ∧ user'.fxaUid = user.fxaUid ∧
    user'.clientState = user.clientState ∧ user.NotAhead user' ∧ (user.replacedAt ≠ none → user'.replacedAt ≠ none)

variable {now : ℕ} {db db' db'' : UserDb} {user other current : SyncUser} {request : TokenRequest}

@[simp] theorem KeysLe.refl (keysChangedAt : Option ℤ) : KeysLe keysChangedAt keysChangedAt :=
  fun changed h => ⟨changed, h, le_rfl⟩

theorem KeysLe.trans {a b c : Option ℤ} (h : KeysLe a b) (h' : KeysLe b c) : KeysLe a c := by
  intro changed hchanged
  obtain ⟨changed', hchanged', hle⟩ := h changed hchanged
  obtain ⟨changed'', hchanged'', hle'⟩ := h' changed' hchanged'
  exact ⟨changed'', hchanged'', hle.trans hle'⟩

theorem SyncUser.NotAhead.refl (user : SyncUser) : user.NotAhead user := ⟨le_rfl, .refl _, le_rfl⟩

theorem SyncUser.NotAhead.trans {third : SyncUser} (h : user.NotAhead other) (h' : other.NotAhead third) :
    user.NotAhead third :=
  ⟨h.generation.trans h'.generation, h.keysChangedAt.trans h'.keysChangedAt, h.createdAt.trans h'.createdAt⟩

theorem UserDb.Later.refl (db : UserDb) : db.Later db := fun user huser => ⟨user, huser, rfl, rfl, rfl, .refl user, id⟩

theorem UserDb.Later.trans (h : db.Later db') (h' : db'.Later db'') : db.Later db'' := by
  intro user huser
  obtain ⟨user', huser', huid, haccount, hstate, hahead, hretired⟩ := h user huser
  obtain ⟨user'', huser'', huid', haccount', hstate', hahead', hretired'⟩ := h' user' huser'
  exact ⟨user'', huser'', huid'.trans huid, haccount'.trans haccount, hstate'.trans hstate, hahead.trans hahead',
    fun h => hretired' (hretired h)⟩

/-- A table without Sync users is in order. -/
theorem ordered_fresh (accounts : List String) : (UserDb.fresh accounts).Ordered 0 := by
  constructor
  · exact sound_fresh accounts
  · exact fun _ huser => absurd huser List.not_mem_nil
  · exact fun _ huser => absurd huser List.not_mem_nil
  · exact fun _ hnewest => absurd hnewest.1 List.not_mem_nil

/-- Time passes. -/
theorem UserDb.Ordered.mono (h : db.Ordered now) {now' : ℕ} (hle : now ≤ now') : db.Ordered now' :=
  ⟨h.sound, fun user huser => (h.created user huser).trans hle, h.newer, h.inUse⟩

/-- An account has one newest row. -/
theorem UserDb.Ordered.newest_unique (h : db.Ordered now) (huser : db.Newest user) (hother : db.Newest other)
    (haccount : user.fxaUid = other.fxaUid) : user = other :=
  h.sound.eq_of_uid huser.1 hother.1 (le_antisymm (hother.2 user huser.1 haccount) (huser.2 other hother.1 haccount.symm))

/-! ### The order of the list -/

theorem listedBefore_total (a b : SyncUser) : listedBefore a b ∨ listedBefore b a := by
  unfold listedBefore
  omega

theorem listedBefore_trans {a b c : SyncUser} (h : listedBefore a b) (h' : listedBefore b c) : listedBefore a c := by
  unfold listedBefore at h h' ⊢
  omega

/-- The first of the list is the newest row of the account. -/
theorem newest_of_syncUsers (h : db.Ordered now) {fxaUid : String} {history : List SyncUser}
    (hlisted : db.syncUsers fxaUid = current :: history) : db.Newest current ∧ current.fxaUid = fxaUid := by
  obtain ⟨hrow, haccount⟩ := mem_syncUsers.mp (hlisted ▸ List.mem_cons_self : current ∈ db.syncUsers fxaUid)
  have hsorted : (db.syncUsers fxaUid).Pairwise listedBefore := by
    have : Std.Total (listedBefore) := ⟨listedBefore_total⟩
    have : IsTrans SyncUser listedBefore := ⟨fun _ _ _ => listedBefore_trans⟩
    exact List.pairwise_insertionSort _ _
  rw [hlisted] at hsorted
  refine ⟨⟨hrow, fun other hother hsame => ?_⟩, haccount⟩
  have hmem : other ∈ current :: history := hlisted ▸ mem_syncUsers.mpr ⟨hother, hsame.trans haccount⟩
  obtain rfl | hlater := List.mem_cons.mp hmem
  · exact le_rfl
  · have hbefore := List.rel_of_pairwise_cons hsorted hlater
    by_contra hnewer
    have hahead := h.newer current hrow other hother hsame.symm (not_le.mp hnewer).le
    have hgeneration := hahead.generation
    have hcreated := hahead.createdAt
    unfold listedBefore at hbefore
    omega

/-- And the newest row is the first of the list. -/
theorem syncUsers_head (h : db.Ordered now) (hnewest : db.Newest user) : (db.syncUsers user.fxaUid).head? = some user := by
  cases hlisted : db.syncUsers user.fxaUid with
  | nil =>
    have hmem : user ∈ db.syncUsers user.fxaUid := mem_syncUsers.mpr ⟨hnewest.1, rfl⟩
    rw [hlisted] at hmem
    exact absurd hmem List.not_mem_nil
  | cons current history =>
    obtain ⟨hcurrent, haccount⟩ := newest_of_syncUsers h hlisted
    rw [List.head?_cons, h.newest_unique hcurrent hnewest haccount]

/-! ### The statements -/

/-- A new row of an account is in order, when it is not behind those that are there. -/
theorem ordered_insertUser (h : db.Ordered now) (huid : user.uid = db.lastUid + 1) (hlive : user.replacedAt = none)
    (hcreated : user.createdAt = now)
    (hahead : ∀ other ∈ db.users, other.fxaUid = user.fxaUid →
      other.clientState ≠ user.clientState ∧ other.generation ≤ user.generation ∧ KeysLe other.keysChangedAt user.keysChangedAt) :
    (db.insertUser user).Ordered now := by
  have hissued : ∀ other ∈ db.users, other.uid < user.uid := by
    intro other hother
    have hle := h.sound.issued other hother
    omega
  constructor
  · exact sound_insertUser h.sound huid fun other hother hsame => (hahead other hother hsame).1
  · intro row hrow
    obtain hold | hlast := List.mem_append.mp hrow
    · exact h.created row hold
    · exact (List.mem_singleton.mp hlast ▸ hcreated).le
  · intro row hrow row' hrow' hsame hle
    obtain hold | hlast := List.mem_append.mp hrow
    · obtain hold' | hlast' := List.mem_append.mp hrow'
      · exact h.newer row hold row' hold' hsame hle
      · obtain rfl := List.mem_singleton.mp hlast'
        obtain ⟨-, hgeneration, hkeys⟩ := hahead row hold hsame
        exact ⟨hgeneration, hkeys, hcreated ▸ h.created row hold⟩
    · obtain rfl := List.mem_singleton.mp hlast
      obtain hold' | hlast' := List.mem_append.mp hrow'
      · exact absurd hle (not_le.mpr (hissued row' hold'))
      · exact List.mem_singleton.mp hlast' ▸ .refl _
  · rintro row ⟨hrow, hnewest⟩
    obtain hold | hlast := List.mem_append.mp hrow
    · exact h.inUse row ⟨hold, fun other hother => hnewest other (List.mem_append_left _ hother)⟩
    · exact List.mem_singleton.mp hlast ▸ hlive

theorem later_insertUser (db : UserDb) (user : SyncUser) : db.Later (db.insertUser user) :=
  fun row hrow => ⟨row, List.mem_append_left _ hrow, rfl, rfl, rfl, .refl row, id⟩

/-- The new row is the newest of its account. -/
theorem newest_insertUser (h : db.Ordered now) (huid : user.uid = db.lastUid + 1) : (db.insertUser user).Newest user := by
  refine ⟨List.mem_append_right _ (List.mem_singleton_self _), fun other hother _ => ?_⟩
  obtain hold | hlast := List.mem_append.mp hother
  · have hle := h.sound.issued other hold
    omega
  · exact (congrArg SyncUser.uid (List.mem_singleton.mp hlast)).le

/-- Rows are retired, but the newest of each account. -/
theorem retire_updateWhere (h : db.Ordered now) {matching : SyncUser → Bool} (replacedAt : ℕ)
    (hkept : ∀ user, db.Newest user → matching user = false) :
    let db' := db.updateWhere matching fun user => { user with replacedAt := some replacedAt }
    db'.Ordered now ∧ db.Later db' ∧ ∀ user, db.Newest user → db'.Newest user := by
  intro db'
  let set : SyncUser → SyncUser := fun user => if matching user then { user with replacedAt := some replacedAt } else user
  have husers : db'.users = db.users.map set := rfl
  have hset : ∀ user, (set user).uid = user.uid ∧ (set user).fxaUid = user.fxaUid ∧ (set user).clientState = user.clientState ∧
      user.NotAhead (set user) ∧ (set user).NotAhead user ∧ (user.replacedAt ≠ none → (set user).replacedAt ≠ none) := by
    intro user
    by_cases hmatch : matching user = true
    · have hrow : set user = { user with replacedAt := some replacedAt } := if_pos hmatch
      rw [hrow]
      exact ⟨rfl, rfl, rfl, ⟨le_rfl, .refl _, le_rfl⟩, ⟨le_rfl, .refl _, le_rfl⟩, fun _ => by simp⟩
    · have hrow : set user = user := if_neg hmatch
      rw [hrow]
      exact ⟨rfl, rfl, rfl, .refl user, .refl user, id⟩
  have hnewest : ∀ user, db'.Newest (set user) → user ∈ db.users → db.Newest user := by
    rintro user ⟨-, hnewest⟩ huser
    refine ⟨huser, fun other hother hsame => ?_⟩
    have hle := hnewest (set other) (husers ▸ List.mem_map_of_mem hother) (by rw [(hset other).2.1, (hset user).2.1, hsame])
    rwa [(hset other).1, (hset user).1] at hle
  have hkeeps : ∀ user, db.Newest user → set user = user := fun user huser => if_neg (by simp [hkept user huser])
  refine ⟨?_, ?_, ?_⟩
  · constructor
    · exact (touched_updateWhere (tame_retire replacedAt)).sound h.sound
    · intro user huser
      obtain ⟨old, hold, rfl⟩ := List.mem_map.mp huser
      exact ((hset old).2.2.2.2.1).createdAt.trans (h.created old hold)
    · intro user huser other hother hsame hle
      obtain ⟨old, hold, rfl⟩ := List.mem_map.mp huser
      obtain ⟨old', hold', rfl⟩ := List.mem_map.mp hother
      have hordered := h.newer old hold old' hold' ((hset old).2.1.symm.trans (hsame.trans (hset old').2.1))
        ((hset old).1.symm.trans_le (hle.trans_eq (hset old').1))
      exact (hset old).2.2.2.2.1.trans (hordered.trans (hset old').2.2.2.1)
    · intro user huser
      obtain ⟨old, hold, rfl⟩ := List.mem_map.mp huser.1
      have holdNewest := hnewest old huser hold
      change (set old).replacedAt = none
      rw [hkeeps old holdNewest]
      exact h.inUse old holdNewest
  · intro user huser
    obtain ⟨huid, haccount, hstate, hahead, -, hretired⟩ := hset user
    exact ⟨set user, husers ▸ List.mem_map_of_mem huser, huid, haccount, hstate, hahead, hretired⟩
  · intro user huser
    refine ⟨?_, fun other hother hsame => ?_⟩
    · exact hkeeps user huser ▸ husers ▸ List.mem_map_of_mem huser.1
    · obtain ⟨old, hold, rfl⟩ := List.mem_map.mp hother
      exact (hset old).1.trans_le (huser.2 old hold ((hset old).2.1.symm.trans hsame))

/-- The newest row of an account is moved forward. -/
theorem forward_updateSyncUser (h : db.Ordered now) (hnewest : db.Newest current) {generation : ℤ} {keysChangedAt : Option ℤ}
    (hgeneration : current.generation ≤ generation) (hkeys : KeysLe current.keysChangedAt keysChangedAt) :
    let db' := db.updateSyncUser current.uid generation keysChangedAt
    db'.Ordered now ∧ db.Later db' ∧ db'.Newest { current with generation, keysChangedAt } := by
  intro db'
  let set : SyncUser → SyncUser := fun user => if user.uid = current.uid then { user with generation, keysChangedAt } else user
  have husers : db'.users = db.users.map set := by simp [db', set, UserDb.updateSyncUser, UserDb.updateWhere]
  have hmoved : set current = { current with generation, keysChangedAt } := if_pos rfl
  have hkept : ∀ user, user.uid ≠ current.uid → set user = user := fun user hne => if_neg hne
  have hrow : ∀ user, (set user).uid = user.uid ∧ (set user).fxaUid = user.fxaUid ∧ (set user).clientState = user.clientState ∧
      (set user).replacedAt = user.replacedAt ∧ (set user).createdAt = user.createdAt := by
    intro user
    by_cases hsame : user.uid = current.uid
    · have hset : set user = { user with generation, keysChangedAt } := if_pos hsame
      rw [hset]
      exact ⟨rfl, rfl, rfl, rfl, rfl⟩
    · rw [hkept user hsame]
      exact ⟨rfl, rfl, rfl, rfl, rfl⟩
  have hahead : ∀ user ∈ db.users, user.NotAhead (set user) := by
    intro user huser
    by_cases hsame : user.uid = current.uid
    · obtain rfl := h.sound.eq_of_uid huser hnewest.1 hsame
      exact hmoved ▸ ⟨hgeneration, hkeys, le_rfl⟩
    · rw [hkept user hsame]
      exact .refl user
  have touched : db.Touched db' := touched_updateSyncUser _ _ _
  refine ⟨?_, ?_, ?_, ?_⟩
  · constructor
    · exact touched.sound h.sound
    · intro user huser
      obtain ⟨old, hold, rfl⟩ := List.mem_map.mp (husers ▸ huser)
      exact (hrow old).2.2.2.2 ▸ h.created old hold
    · intro user huser other hother hsame hle
      obtain ⟨old, hold, rfl⟩ := List.mem_map.mp (husers ▸ huser)
      obtain ⟨old', hold', rfl⟩ := List.mem_map.mp (husers ▸ hother)
      have hsame' : old.fxaUid = old'.fxaUid := (hrow old).2.1.symm.trans (hsame.trans (hrow old').2.1)
      have hle' : old.uid ≤ old'.uid := (hrow old).1.symm.trans_le (hle.trans_eq (hrow old').1)
      by_cases hmine : old.uid = current.uid
      · -- the newest row is ahead of no other
        obtain rfl := h.sound.eq_of_uid hold hnewest.1 hmine
        obtain rfl := h.sound.eq_of_uid hold hold' (le_antisymm hle' (hnewest.2 old' hold' hsame'.symm))
        exact .refl _
      · rw [hkept old hmine]
        exact (h.newer old hold old' hold' hsame' hle').trans (hahead old' hold')
    · rintro user ⟨huser, hnew⟩
      obtain ⟨old, hold, rfl⟩ := List.mem_map.mp (husers ▸ huser)
      refine (hrow old).2.2.2.1.trans (h.inUse old ⟨hold, fun other hother hsame => ?_⟩)
      have hle := hnew (set other) (husers ▸ List.mem_map_of_mem hother) (by rw [(hrow other).2.1, (hrow old).2.1, hsame])
      rwa [(hrow other).1, (hrow old).1] at hle
  · intro user huser
    obtain ⟨huid, haccount, hstate, hretired, -⟩ := hrow user
    exact ⟨set user, husers ▸ List.mem_map_of_mem huser, huid, haccount, hstate, hahead user huser, fun h => hretired ▸ h⟩
  · exact hmoved ▸ husers ▸ List.mem_map_of_mem hnewest.1
  · intro other hother hsame
    obtain ⟨old, hold, rfl⟩ := List.mem_map.mp (husers ▸ hother)
    exact (hrow old).1.trans_le (hnewest.2 old hold ((hrow old).2.1.symm.trans hsame))

/-! ### The values of a request -/

/-- What passes the checks moves both values forward. -/
theorem next_forward {auth : AuthData} {retired : List String} (hvalid : validate auth current retired = .ok ()) :
    current.generation ≤ nextGeneration auth current ∧ KeysLe current.keysChangedAt (nextKeysChangedAt auth current) := by
  obtain ⟨-, -, -, -, -, hgeneration, hchanged, habsent⟩ := validate_eq_ok.mp hvalid
  constructor
  · unfold nextGeneration
    cases hg : auth.generation with
    | some generation => simpa [hg, gt] using hgeneration
    | none =>
      cases auth.keysChangedAt with
      | some changed =>
        dsimp only
        split
        · omega
        · exact le_rfl
      | none => exact le_rfl
  · unfold nextKeysChangedAt
    cases hk : auth.keysChangedAt with
    | some changed =>
      intro stored hstored
      rw [hk, hstored] at hchanged
      exact ⟨changed, rfl, by simpa [gt] using hchanged⟩
    | none =>
      intro stored hstored
      have hzero : stored = 0 := by simpa [hk, hstored] using habsent
      exact ⟨0, by rw [hstored]; rfl, hzero.le⟩

/-- A client state that passes is new, or that of the current user. -/
theorem state_not_retired {auth : AuthData} {retired : List String} (hvalid : validate auth current retired = .ok ()) :
    auth.clientState ∉ retired := by
  obtain ⟨-, -, hretired, -⟩ := validate_eq_ok.mp hvalid
  simpa using hretired

/-! ### One request -/

/-- The table is in order, and every row has gone on. -/
def UserDb.Advances (now : ℕ) (db db' : UserDb) : Prop := db'.Ordered now ∧ db.Later db'

/-- A request is granted for the newest row of its account, and the others are retired. -/
def Granted (request : TokenRequest) (facts : TokenFacts) (db : UserDb) : Prop :=
  ∃ user, db.Newest user ∧ user.fxaUid = request.sub ∧ user.clientState = request.clientState ∧ user.uid = facts.uid ∧
    ∀ other ∈ db.users, other.fxaUid = request.sub → other.uid ≠ user.uid → other.replacedAt ≠ none

/-- What a program passes, and what it grants. -/
structure Honours (request : TokenRequest) (start : UserDb) (script : Program TokenFacts) (db : UserDb) : Prop where
  through : script.Through (start.Advances request.nowMs) db
  grants : ∀ facts, (script.exec db).1 = .ok facts → Granted request facts (script.exec db).2

variable {start : UserDb}

/-- A refusal grants nothing. -/
theorem honours_error (h : start.Advances request.nowMs db) (raised : Raised) :
    Honours request start (.done (.error raised)) db :=
  ⟨h, fun _ hfacts => by cases hfacts⟩

/-- A statement and what follows it. -/
theorem Honours.stmt {effect : UserDb → UserDb} {next : UserDb → Program TokenFacts} (h : start.Advances request.nowMs db)
    (hnext : Honours request start (next db) (effect db)) : Honours request start (.stmt effect next) db :=
  ⟨⟨h, hnext.through⟩, hnext.grants⟩

/-- What a request has found before it judges: its newest row, the client states of the others, and nothing else in use. -/
structure Found (request : TokenRequest) (current : SyncUser) (retired : List String) (db : UserDb) : Prop where
  newest : db.Newest current
  account : current.fxaUid = request.sub
  states : ∀ other ∈ db.users, other.fxaUid = request.sub → other.clientState = current.clientState ∨ other.clientState ∈ retired
  alone : ∀ other ∈ db.users, other.fxaUid = request.sub → other.uid ≠ current.uid → other.replacedAt ≠ none

/-- A rotation: the new row, and then the retirement of all others. -/
theorem honours_rotation {retired : List String} (found : Found request current retired db)
    (h : start.Advances request.nowMs db) (hvalid : validate (authData request) current retired = .ok ())
    (hchanged : request.clientState ≠ current.clientState) :
    let generation := nextGeneration (authData request) current
    let keysChangedAt := nextKeysChangedAt (authData request) current
    Honours request start
      (insertion request generation keysChangedAt fun user => superseding request user.uid generation keysChangedAt) db := by
  intro generation keysChangedAt
  obtain ⟨hgeneration, hkeys⟩ := next_forward hvalid
  let user := db.newUser request.sub request.clientState generation keysChangedAt request.nowMs
  have hahead : ∀ other ∈ db.users, other.fxaUid = user.fxaUid →
      other.clientState ≠ user.clientState ∧ other.generation ≤ user.generation ∧
        KeysLe other.keysChangedAt user.keysChangedAt := by
    intro other hother hsame
    have hbefore := h.1.newer other hother current found.newest.1 (hsame.trans found.account.symm)
      (found.newest.2 other hother (hsame.trans found.account.symm))
    refine ⟨fun hstate => ?_, hbefore.generation.trans hgeneration, hbefore.keysChangedAt.trans hkeys⟩
    obtain hcurrent | hretired := found.states other hother hsame
    · exact hchanged (hstate.symm.trans hcurrent)
    · have hgiven : other.clientState = (authData request).clientState := hstate
      exact state_not_retired hvalid (hgiven ▸ hretired)
  have hinserted : (db.insertUser user).Ordered request.nowMs := ordered_insertUser h.1 rfl rfl rfl hahead
  have hlater : start.Later (db.insertUser user) := h.2.trans (later_insertUser db user)
  have hnewest : (db.insertUser user).Newest user := newest_insertUser h.1 rfl
  have hkept : ∀ row, (db.insertUser user).Newest row →
      (row.fxaUid = request.sub && row.uid ≠ user.uid && row.replacedAt.isNone) = false := by
    intro row hrow
    by_cases hsame : row.fxaUid = request.sub
    · simp [hinserted.newest_unique hrow hnewest hsame]
    · simp [hsame]
  obtain ⟨hordered, hlater', hstays⟩ := retire_updateWhere hinserted request.nowMs hkept
  refine .stmt h (.stmt ⟨hinserted, hlater⟩ ⟨⟨hordered, hlater.trans hlater'⟩, fun facts hfacts => ?_⟩)
  cases hfacts
  refine ⟨user, hstays user hnewest, rfl, rfl, rfl, fun other hother hsame hne => ?_⟩
  exact fun hlive => hne (uid_of_replaceOther hother hsame hlive)

/-- What follows from what a request has found. -/
theorem honours_judged {retired : List String} (found : Found request current retired db)
    (h : start.Advances request.nowMs db) : Honours request start (judged request current retired) db := by
  unfold judged
  cases hvalid : validate (authData request) current retired with
  | error raised => exact honours_error h raised
  | ok =>
    dsimp only
    unfold apply
    dsimp only
    split
    · rename_i hchanged
      unfold createSyncUser
      split
      · exact honours_rotation found h hvalid hchanged
      · exact honours_error h _
    · rename_i hsame
      have hstate : current.clientState = request.clientState := (not_not.mp hsame).symm
      obtain ⟨hgeneration, hkeys⟩ := next_forward hvalid
      split
      · split
        · obtain ⟨hordered, hlater, hnewest⟩ := forward_updateSyncUser h.1 found.newest hgeneration hkeys
          refine .stmt h ⟨⟨hordered, h.2.trans hlater⟩, fun facts hfacts => ?_⟩
          cases hfacts
          refine ⟨_, hnewest, found.account, hstate, rfl, fun other hother haccount hne => ?_⟩
          have touched : db.Touched (db.updateSyncUser current.uid (nextGeneration (authData request) current)
              (nextKeysChangedAt (authData request) current)) := touched_updateSyncUser _ _ _
          obtain ⟨old, hold, huid, hfxa, -, hback⟩ := touched.exists_of_mem hother
          exact fun hlive => found.alone old hold (hfxa.trans haccount) (fun hsame => hne (huid.symm.trans hsame)) (hback hlive)
        · exact honours_error h _
      · refine ⟨h, fun facts hfacts => ?_⟩
        cases hfacts
        exact ⟨current, found.newest, found.account, hstate, rfl, found.alone⟩

/-- What the repair of a crash has left to do: whatever is in use beside the newest row is still in its list. -/
structure Repairing (request : TokenRequest) (current : SyncUser) (retired : List String) (history : List SyncUser)
    (db : UserDb) : Prop where
  newest : db.Newest current
  account : current.fxaUid = request.sub
  states : ∀ other ∈ db.users, other.fxaUid = request.sub → other.clientState = current.clientState ∨ other.clientState ∈ retired
  pending : ∀ other ∈ db.users, other.fxaUid = request.sub → other.uid ≠ current.uid → other.replacedAt = none →
    ∃ old ∈ history, old.uid = other.uid ∧ old.replacedAt = none
  others : ∀ old ∈ history, old.uid ≠ current.uid ∧ db.Names old.uid request.sub old.clientState

/-- The repair, and what follows it. -/
theorem honours_repair {retired : List String} {history : List SyncUser} (createdAt : ℕ)
    (repairing : Repairing request current retired history db) (h : start.Advances request.nowMs db) :
    Honours request start ((repair createdAt history).bind fun _ => judged request current retired) db := by
  induction history generalizing db with
  | nil =>
    refine honours_judged ⟨repairing.newest, repairing.account, repairing.states, ?_⟩ h
    intro other hother haccount hne hlive
    obtain ⟨old, hold, -⟩ := repairing.pending other hother haccount hne hlive
    exact absurd hold List.not_mem_nil
  | cons old rest ih =>
    obtain ⟨hne, hnames⟩ := repairing.others old List.mem_cons_self
    unfold repair
    split
    · have touched : db.Touched (db.replaceSyncUser old.uid createdAt) := touched_replaceSyncUser old.uid createdAt
      have hkept : ∀ row, db.Newest row → (row.uid = old.uid && row.replacedAt.isNone) = false := by
        intro row hrow
        obtain ⟨mine, hmine, huid, haccount, -⟩ := hnames
        have hother : row.uid ≠ old.uid := by
          intro hsame
          obtain rfl := h.1.sound.eq_of_uid hrow.1 hmine (hsame.trans huid.symm)
          have hcurrent := h.1.newest_unique hrow repairing.newest (haccount.trans repairing.account.symm)
          exact hne (huid.symm.trans (congrArg SyncUser.uid hcurrent))
        simp [hother]
      obtain ⟨hordered, hlater, hstays⟩ := retire_updateWhere h.1 createdAt hkept
      refine .stmt h (ih ⟨hstays current repairing.newest, repairing.account, ?_, ?_, ?_⟩ ⟨hordered, h.2.trans hlater⟩)
      · intro other hother haccount
        obtain ⟨row, hrow, -, hfxa, hstate, -⟩ := touched.exists_of_mem hother
        exact hstate ▸ repairing.states row hrow (hfxa.trans haccount)
      · intro other hother haccount hother' hlive
        obtain ⟨row, hrow, huid, hfxa, -, hback⟩ := touched.exists_of_mem hother
        obtain ⟨listed, hlisted, hlistedUid, hopen⟩ :=
          repairing.pending row hrow (hfxa.trans haccount) (huid ▸ hother') (hback hlive)
        obtain rfl | hrest := List.mem_cons.mp hlisted
        · exact absurd (hlistedUid.trans huid).symm (uid_of_replaceSyncUser hother hlive)
        · exact ⟨listed, hrest, hlistedUid.trans huid, hopen⟩
      · intro row hrow
        obtain ⟨hdiffers, hnamed⟩ := repairing.others row (List.mem_cons_of_mem _ hrow)
        exact ⟨hdiffers, touched.names hnamed⟩
    · rename_i hretired
      refine ih ⟨repairing.newest, repairing.account, repairing.states, ?_, ?_⟩ h
      · intro other hother haccount hother' hlive
        obtain ⟨row, hrow, huid, hopen⟩ := repairing.pending other hother haccount hother' hlive
        obtain rfl | hrest := List.mem_cons.mp hrow
        · exact absurd hopen hretired
        · exact ⟨row, hrest, huid, hopen⟩
      · exact fun row hrow => repairing.others row (List.mem_cons_of_mem _ hrow)

/-- A request of an account without rows. -/
theorem honours_firstSight (hnone : start.syncUsers request.sub = []) (h : start.Ordered request.nowMs) :
    Honours request start (firstSight request) start := by
  have hempty : ∀ other ∈ start.users, other.fxaUid ≠ request.sub := by
    intro other hother hsame
    have hlisted : other ∈ start.syncUsers request.sub := mem_syncUsers.mpr ⟨hother, hsame⟩
    exact absurd (hnone ▸ hlisted) List.not_mem_nil
  let user := start.newUser request.sub request.clientState ((authData request).generation.getD 0)
    (authData request).keysChangedAt request.nowMs
  have hinserted : (start.insertUser user).Ordered request.nowMs :=
    ordered_insertUser h rfl rfl rfl fun other hother hsame => absurd hsame (hempty other hother)
  have hmine : ∀ other ∈ (start.insertUser user).users, other.fxaUid = request.sub → other = user := by
    intro other hother hsame
    obtain hold | hlast := List.mem_append.mp hother
    · exact absurd hsame (hempty other hold)
    · exact List.mem_singleton.mp hlast
  refine .stmt ⟨h, .refl start⟩ (honours_judged ⟨newest_insertUser h rfl, rfl, ?_, ?_⟩ ⟨hinserted, later_insertUser start user⟩)
  · exact fun other hother hsame => Or.inl (congrArg SyncUser.clientState (hmine other hother hsame))
  · exact fun other hother hsame hne => absurd (congrArg SyncUser.uid (hmine other hother hsame)) hne

/-- A request of an account with rows begins with all of the repair to do. -/
theorem repairing_of_syncUsers (h : db.Ordered now) {history : List SyncUser}
    (hlisted : db.syncUsers request.sub = current :: history) :
    Repairing request current (retiredStates current history) history db := by
  obtain ⟨hnewest, haccount⟩ := newest_of_syncUsers h hlisted
  have hmem : ∀ other ∈ db.users, other.fxaUid = request.sub → other = current ∨ other ∈ history := by
    intro other hother hsame
    exact List.mem_cons.mp (hlisted ▸ mem_syncUsers.mpr ⟨hother, hsame⟩)
  have huids : ((db.syncUsers request.sub).map SyncUser.uid).Nodup := by
    have hperm := (List.perm_insertionSort listedBefore (db.users.filter (·.fxaUid = request.sub))).map SyncUser.uid
    exact hperm.nodup_iff.mpr ((List.filter_sublist.map SyncUser.uid).nodup h.sound.uids)
  rw [hlisted, List.map_cons, List.nodup_cons] at huids
  constructor
  · exact hnewest
  · exact haccount
  · intro other hother hsame
    obtain rfl | hold := hmem other hother hsame
    · exact Or.inl rfl
    · by_cases hstate : other.clientState = current.clientState
      · exact Or.inl hstate
      · exact Or.inr (List.mem_filter.mpr ⟨List.mem_map_of_mem hold, decide_eq_true hstate⟩)
  · intro other hother hsame hne hlive
    obtain rfl | hold := hmem other hother hsame
    · exact absurd rfl hne
    · exact ⟨other, hold, rfl, hlive⟩
  · intro old hold
    obtain ⟨hrow, hsame⟩ := mem_syncUsers.mp (hlisted ▸ List.mem_cons_of_mem current hold : old ∈ db.syncUsers request.sub)
    exact ⟨fun hsame => huids.1 (hsame ▸ List.mem_map_of_mem hold), old, hrow, rfl, hsame, rfl⟩

/-- A request on a table in order. -/
theorem honours_token (h : start.Ordered request.nowMs) : Honours request start (token request) start := by
  have hstart : start.Advances request.nowMs start := ⟨h, .refl start⟩
  rw [token_eq]
  refine .stmt hstart ?_
  dsimp only [id]
  cases hlisted : start.syncUsers request.sub with
  | nil =>
    refine .stmt hstart ?_
    dsimp only [id]
    split
    · split
      · exact honours_firstSight hlisted h
      · exact honours_error hstart _
    · exact honours_error hstart _
  | cons current history => exact honours_repair current.createdAt (repairing_of_syncUsers h hlisted) hstart

/-- What does not pass the checks is refused. -/
theorem validate_error {auth : AuthData} {retired : List String} {raised : Raised}
    (h : validate auth current retired = .error raised) : ∃ status description, raised = .refused status description := by
  unfold validate at h
  dsimp only at h
  split_ifs at h
  all_goals
    obtain rfl := Except.error.inj h
    exact ⟨_, _, rfl⟩

/-- A client state that has been replaced is refused. -/
theorem token_refuses (h : db.Ordered now) (huser : user ∈ db.users) (haccount : user.fxaUid = request.sub)
    (hstate : user.clientState = request.clientState) (hretired : user.replacedAt ≠ none) :
    ∃ status description, ((token request).exec db).1 = .error (.refused status description) := by
  rw [token_eq, Script.exec_read]
  have hlisted : user ∈ db.syncUsers request.sub := mem_syncUsers.mpr ⟨huser, haccount⟩
  cases hrows : db.syncUsers request.sub with
  | nil => exact absurd (hrows ▸ hlisted) List.not_mem_nil
  | cons current history =>
    obtain ⟨hnewest, hsub⟩ := newest_of_syncUsers h hrows
    have hne : user ≠ current := fun hsame => hretired (hsame ▸ h.inUse current hnewest)
    have hdiffers : user.clientState ≠ current.clientState := fun hsame =>
      hne (h.sound.eq_of_uid huser hnewest.1 (h.sound.states user huser current hnewest.1 (haccount.trans hsub.symm) hsame))
    have hstale : (authData request).clientState ∈ retiredStates current history := by
      have hold : user ∈ history := (List.mem_cons.mp (hrows ▸ hlisted)).resolve_left hne
      exact List.mem_filter.mpr ⟨List.mem_map.mpr ⟨user, hold, hstate⟩, decide_eq_true fun hsame => hdiffers (hstate.trans hsame)⟩
    dsimp only
    rw [Script.exec_bind]
    unfold judged
    cases hvalid : validate (authData request) current (retiredStates current history) with
    | ok => exact absurd hstale (state_not_retired hvalid)
    | error raised =>
      obtain ⟨status, description, rfl⟩ := validate_error hvalid
      exact ⟨status, description, rfl⟩

/-! ### One request after another -/

/-- A request, and the number of its statements after which it is stopped, if it is. -/
structure Attempt where
  request : TokenRequest
  stop : Option ℕ

/-- When it is made. -/
def Attempt.time (attempt : Attempt) : ℕ := attempt.request.nowMs

/-- The tokenserver as it answers attempts; one that is stopped has no answer. -/
def attempts : Machine UserDb Attempt (Option (Except Raised TokenFacts)) :=
  ⟨fun db attempt =>
    match attempt.stop with
    | none => (((token attempt.request).exec db).2, some ((token attempt.request).exec db).1)
    | some statements => ((token attempt.request).cut statements db, none)⟩

/-- The table after some of the attempts. -/
def after (accounts : List String) (tries : List Attempt) (n : ℕ) : UserDb :=
  attempts.run (.fresh accounts) (tries.take n)

/-- A request that is one of the attempts has an answer. -/
def Answered (accounts : List String) (tries : List Attempt) (n : ℕ) (request : TokenRequest)
    (answer : Except Raised TokenFacts) : Prop :=
  ∃ attempt, tries[n]? = some attempt ∧ attempt.request = request ∧
    (attempts.step (after accounts tries n) attempt).2 = some answer

/-- The rows of an account that are in use. -/
def UserDb.inUse (db : UserDb) (fxaUid : String) : List SyncUser :=
  db.users.filter fun user => user.fxaUid = fxaUid ∧ user.replacedAt = none

/-- What holds of the users of every account, whichever attempts are stopped. -/
structure Consistent (accounts : List String) (tries : List Attempt) : Prop where
  oneInUse : ∀ n request facts, Answered accounts tries n request (.ok facts) →
    ∃ user, (after accounts tries (n + 1)).inUse request.sub = [user] ∧
      ((after accounts tries (n + 1)).syncUsers request.sub).head? = some user
  forward : ∀ m n request request' facts facts' user user', m ≤ n → Answered accounts tries m request (.ok facts) →
    Answered accounts tries n request' (.ok facts') → request.sub = request'.sub →
    ((after accounts tries (m + 1)).syncUsers request.sub).head? = some user →
    ((after accounts tries (n + 1)).syncUsers request'.sub).head? = some user' →
    user.generation ≤ user'.generation ∧ KeysLe user.keysChangedAt user'.keysChangedAt
  states : ∀ n fxaUid, (((after accounts tries n).users.filter (·.fxaUid = fxaUid)).map SyncUser.clientState).Nodup
  refused : ∀ m n request answer, ∀ user ∈ (after accounts tries m).users, m ≤ n → user.fxaUid = request.sub →
    user.clientState = request.clientState → user.replacedAt ≠ none → Answered accounts tries n request answer →
    ∃ status description, answer = .error (.refused status description)
  uids : ∀ m n request request' facts facts', Answered accounts tries m request (.ok facts) →
    Answered accounts tries n request' (.ok facts') → request.sub = request'.sub →
    request.clientState = request'.clientState → facts.uid = facts'.uid

section Attempts

variable {accounts : List String} {tries : List Attempt} {m n : ℕ} {attempt : Attempt} {facts : TokenFacts}

/-- One attempt, stopped or not. -/
theorem advances_step (h : db.Ordered attempt.time) : db.Advances attempt.time (attempts.step db attempt).1 := by
  have honours := honours_token h
  unfold attempts
  dsimp only
  split
  · exact honours.through.exec
  · exact honours.through.cut _

/-- Any number of them. -/
theorem advances_run {tries : List Attempt} (h : db.Ordered now) (htimed : Timed Attempt.time now tries) :
    db.Advances (lastTime Attempt.time now tries) (attempts.run db tries) := by
  refine attempts.run_invariant (P := fun now db' => db.Advances now db') ?_ ⟨h, .refl db⟩ htimed attempts.along_true
  rintro before db' attempt ⟨hordered, hlater⟩ hle -
  obtain ⟨hordered', hlater'⟩ := advances_step (hordered.mono hle)
  exact ⟨hordered', hlater.trans hlater'⟩

/-- The table is always in order. -/
theorem ordered_after (htimed : Timed Attempt.time 0 tries) (n : ℕ) :
    (after accounts tries n).Ordered (lastTime Attempt.time 0 (tries.take n)) := by
  have hprefix := (timed_append.mp ((List.take_append_drop n tries).symm ▸ htimed)).1
  exact (advances_run (ordered_fresh accounts) hprefix).1

/-- Also at the time of the next attempt. -/
theorem ordered_before (htimed : Timed Attempt.time 0 tries) (hnext : tries[n]? = some attempt) :
    (after accounts tries n).Ordered attempt.time := by
  obtain ⟨hlt, hget⟩ := List.getElem?_eq_some_iff.mp hnext
  have hparts : tries = tries.take n ++ attempt :: tries.drop (n + 1) := by
    rw [← hget, ← List.drop_eq_getElem_cons hlt, List.take_append_drop]
  have hordered : (after accounts tries n).Ordered _ := ordered_after htimed n
  rw [hparts] at htimed
  exact hordered.mono (timed_append.mp htimed).2.1

/-- Rows go on from each of the attempts to every later one. -/
theorem later_after (htimed : Timed Attempt.time 0 tries) (hle : m ≤ n) : (after accounts tries m).Later (after accounts tries n) := by
  obtain ⟨k, rfl⟩ := Nat.exists_eq_add_of_le hle
  have hordered : (after accounts tries m).Ordered _ := ordered_after htimed m
  rw [← List.take_append_drop m tries, timed_append] at htimed
  have hmiddle := (timed_append.mp ((List.take_append_drop k (tries.drop m)).symm ▸ htimed.2)).1
  have hlater := (advances_run hordered hmiddle).2
  unfold after
  rw [List.take_add, Machine.run_append]
  exact hlater

/-- The table after one more attempt. -/
theorem after_succ (hnext : tries[n]? = some attempt) :
    after accounts tries (n + 1) = (attempts.step (after accounts tries n) attempt).1 := by
  unfold after
  rw [List.take_add_one, hnext, Machine.run_append]
  rfl

/-- What an attempt that is answered did. -/
theorem granted_of_answered (htimed : Timed Attempt.time 0 tries) (h : Answered accounts tries n request (.ok facts)) :
    Granted request facts (after accounts tries (n + 1)) := by
  obtain ⟨attempt, hnext, rfl, hanswer⟩ := h
  have honours := honours_token (@ordered_before accounts tries n attempt htimed hnext)
  rw [after_succ hnext]
  unfold attempts at hanswer ⊢
  dsimp only at hanswer ⊢
  split at hanswer
  · exact honours.grants facts (Option.some.inj hanswer)
  · cases hanswer

/-- No two rows of an account share a client state. -/
theorem UserDb.Sound.states_nodup (sound : db.Sound) (fxaUid : String) :
    ((db.users.filter (·.fxaUid = fxaUid)).map SyncUser.clientState).Nodup := by
  have hrows : (db.users.filter (·.fxaUid = fxaUid)).Nodup := (List.Nodup.of_map SyncUser.uid sound.uids).filter _
  refine hrows.map_on fun user huser other hother hstate => ?_
  obtain ⟨hrow, haccount⟩ := List.mem_filter.mp huser
  obtain ⟨hrow', haccount'⟩ := List.mem_filter.mp hother
  have hsame : user.fxaUid = other.fxaUid := (of_decide_eq_true haccount).trans (of_decide_eq_true haccount').symm
  exact sound.eq_of_uid hrow hrow' (sound.states user hrow other hrow' hsame hstate)

/-- Where a request is granted, its account has one row in use, and it is the first of the list. -/
theorem Granted.oneInUse (h : Granted request facts db) (ordered : db.Ordered now) :
    ∃ user, db.inUse request.sub = [user] ∧ (db.syncUsers request.sub).head? = some user ∧ user.uid = facts.uid := by
  obtain ⟨user, hnewest, haccount, -, huid, halone⟩ := h
  have hmem : ∀ other ∈ db.inUse request.sub, other = user := by
    intro other hother
    obtain ⟨hrow, hfits⟩ := List.mem_filter.mp hother
    obtain ⟨hsame, hlive⟩ := of_decide_eq_true hfits
    refine ordered.sound.eq_of_uid hrow hnewest.1 ?_
    by_contra hne
    exact halone other hrow hsame hne hlive
  have hlive : user ∈ db.inUse request.sub :=
    List.mem_filter.mpr ⟨hnewest.1, decide_eq_true ⟨haccount, ordered.inUse user hnewest⟩⟩
  have hnodup : (db.inUse request.sub).Nodup := (List.Nodup.of_map SyncUser.uid ordered.sound.uids).filter _
  refine ⟨user, ?_, haccount ▸ syncUsers_head ordered hnewest, huid⟩
  exact List.perm_singleton.mp ((List.perm_ext_iff_of_nodup hnodup (List.nodup_singleton user)).mpr fun other =>
    ⟨fun hother => List.mem_singleton.mpr (hmem other hother), fun hother => List.mem_singleton.mp hother ▸ hlive⟩)

/-- What uids name, they go on to name. -/
theorem UserDb.Later.names (h : db.Later db') {uid : ℕ} {fxaUid clientState : String} (hnames : db.Names uid fxaUid clientState) :
    db'.Names uid fxaUid clientState := by
  obtain ⟨user, huser, rfl, rfl, rfl⟩ := hnames
  obtain ⟨user', huser', huid, haccount, hstate, -⟩ := h user huser
  exact ⟨user', huser', huid, haccount, hstate⟩

/-- The first of the list only goes forward. -/
theorem forward_of_le (htimed : Timed Attempt.time 0 tries) (hle : m ≤ n) {fxaUid fxaUid' : String} (hsub : fxaUid = fxaUid')
    {user user' : SyncUser} (hfirst : ((after accounts tries m).syncUsers fxaUid).head? = some user)
    (hfirst' : ((after accounts tries n).syncUsers fxaUid').head? = some user') :
    user.generation ≤ user'.generation ∧ KeysLe user.keysChangedAt user'.keysChangedAt := by
  have hordered : (after accounts tries n).Ordered _ := ordered_after htimed n
  obtain ⟨history, hlisted⟩ := List.head?_eq_some_iff.mp hfirst
  obtain ⟨history', hlisted'⟩ := List.head?_eq_some_iff.mp hfirst'
  obtain ⟨hnewest, haccount⟩ := newest_of_syncUsers (ordered_after htimed m) hlisted
  obtain ⟨hnewest', haccount'⟩ := newest_of_syncUsers hordered hlisted'
  obtain ⟨row, hrow, -, hrowAccount, -, hahead, -⟩ := later_after htimed hle user hnewest.1
  have hsame : row.fxaUid = user'.fxaUid := by rw [hrowAccount, haccount, haccount', hsub]
  have hahead' := hahead.trans (hordered.newer row hrow user' hnewest'.1 hsame (hnewest'.2 row hrow hsame))
  exact ⟨hahead'.generation, hahead'.keysChangedAt⟩

/-- A client state of an account keeps to its uid. -/
theorem uid_of_le (htimed : Timed Attempt.time 0 tries) (hle : m ≤ n) {request' : TokenRequest} {facts' : TokenFacts}
    (hanswered : Answered accounts tries m request (.ok facts)) (hanswered' : Answered accounts tries n request' (.ok facts'))
    (hsub : request.sub = request'.sub) (hstate : request.clientState = request'.clientState) : facts.uid = facts'.uid := by
  obtain ⟨user, hnewest, haccount, hclient, huid, -⟩ := granted_of_answered htimed hanswered
  obtain ⟨user', hnewest', haccount', hclient', huid', -⟩ := granted_of_answered htimed hanswered'
  have hnames : (after accounts tries (m + 1)).Names facts.uid request.sub request.clientState :=
    ⟨user, hnewest.1, huid, haccount, hclient⟩
  have hnames' : (after accounts tries (n + 1)).Names facts'.uid request.sub request.clientState :=
    ⟨user', hnewest'.1, huid', haccount'.trans hsub.symm, hclient'.trans hstate.symm⟩
  exact (ordered_after htimed (n + 1)).sound.names_unique ((later_after htimed (Nat.succ_le_succ hle)).names hnames) hnames'

/-- Whichever attempts are stopped, and wherever: a request that is granted leaves one user in use, users only go
forward, and a client state keeps to its uid and is refused once it has been replaced. -/
theorem consistent_of_timed (accounts : List String) (tries : List Attempt) (htimed : Timed Attempt.time 0 tries) :
    Consistent accounts tries where
  oneInUse n request facts hanswered := by
    obtain ⟨user, hinUse, hfirst, -⟩ := (granted_of_answered htimed hanswered).oneInUse (ordered_after htimed (n + 1))
    exact ⟨user, hinUse, hfirst⟩
  forward m n request request' facts facts' user user' hle _ _ hsub hfirst hfirst' :=
    forward_of_le htimed (Nat.succ_le_succ hle) hsub hfirst hfirst'
  states n fxaUid := (ordered_after htimed n).sound.states_nodup fxaUid
  refused m n request answer user huser hle haccount hstate hretired hanswered := by
    obtain ⟨attempt, -, rfl, hanswer⟩ := hanswered
    obtain ⟨user', huser', -, haccount', hstate', -, hretired'⟩ := later_after htimed hle user huser
    obtain ⟨status, description, hrefused⟩ := token_refuses (ordered_after htimed n) huser' (haccount'.trans haccount)
      (hstate'.trans hstate) (hretired' hretired)
    unfold attempts at hanswer
    dsimp only at hanswer
    split at hanswer
    · exact ⟨status, description, (Option.some.inj hanswer).symm.trans hrefused⟩
    · cases hanswer
  uids m n request request' facts facts' hanswered hanswered' hsub hstate := by
    obtain hle | hle := le_total m n
    · exact uid_of_le htimed hle hanswered hanswered' hsub hstate
    · exact (uid_of_le htimed hle hanswered' hanswered hsub.symm hstate.symm).symm

end Attempts

/-- A rotation that is stopped when it has made its row, and made again. -/
def rotation : List Attempt :=
  [⟨⟨"a", none, 5, "00", 10⟩, none⟩, ⟨⟨"a", none, 6, "01", 20⟩, some 2⟩, ⟨⟨"a", none, 6, "01", 30⟩, none⟩]

/-- Two rows are in use when it is stopped, and one when it is done. -/
theorem consistent_of_timed_rotation :
    ((after ["a"] rotation 2).inUse "a").length = 2 ∧
      Answered ["a"] rotation 2 ⟨"a", none, 6, "01", 30⟩ (.ok ⟨2, 6, some 6⟩) ∧ Consistent ["a"] rotation := by
  refine ⟨rfl, ⟨_, rfl, rfl, rfl⟩, consistent_of_timed ["a"] rotation (by decide)⟩

end FxaLite.Tokenserver
