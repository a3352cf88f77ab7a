import FxaLite.Lib.Script
import Mathlib.Algebra.Group.Int.Defs
import Mathlib.Data.List.Sort

/-!
# The Sync users of the tokenserver

`tokenserver/__init__.py` from the point on where an access token has been verified, over the
`sync_users` table. A token request reads the users of its account, makes one on first sight,
checks what it claims against the user it found, and moves that user forward or replaces it. No
transaction encloses its statements, so a request is a script of them.
-/

namespace FxaLite.Tokenserver

open Concurrent

/-! ### The database -/

/-- A row of `sync_users`. -/
structure SyncUser where
  uid : ℕ
  fxaUid : String
  clientState : String
  generation : ℤ
  keysChangedAt : Option ℤ
  createdAt : ℕ
  replacedAt : Option ℕ
  deriving DecidableEq, Repr

/-- The accounts there are, the Sync users in the order of their uids, and the last uid given out. -/
structure UserDb where
  accounts : List String
  users : List SyncUser
  lastUid : ℕ
  deriving DecidableEq, Repr

/-- A database without Sync users. -/
def UserDb.fresh (accounts : List String) : UserDb := ⟨accounts, [], 0⟩

/-- `ORDER BY generation DESC, created_at DESC, uid DESC`. -/
def listedBefore (a b : SyncUser) : Prop :=
  b.generation < a.generation ∨ a.generation = b.generation ∧
    (b.createdAt < a.createdAt ∨ a.createdAt = b.createdAt ∧ b.uid ≤ a.uid)

instance : DecidableRel listedBefore := fun _ _ => inferInstanceAs (Decidable (_ ∨ _))

namespace UserDb

/-- `sync_users`: every Sync user of an account, the current one first. -/
def syncUsers (db : UserDb) (fxaUid : String) : List SyncUser :=
  (db.users.filter (·.fxaUid = fxaUid)).insertionSort listedBefore

/-- The user that `create_sync_user` makes. -/
def newUser (db : UserDb) (fxaUid clientState : String) (generation : ℤ) (keysChangedAt : Option ℤ)
    (createdAt : ℕ) : SyncUser where
  uid := db.lastUid + 1
  fxaUid := fxaUid
  clientState := clientState
  generation := generation
  keysChangedAt := keysChangedAt
  createdAt := createdAt
  replacedAt := none

/-- Its insertion. -/
def insertUser (db : UserDb) (user : SyncUser) : UserDb :=
  { db with users := db.users ++ [user], lastUid := user.uid }

/-- An update of the users that match. -/
def updateWhere (db : UserDb) (matching : SyncUser → Bool) (set : SyncUser → SyncUser) : UserDb :=
  { db with users := db.users.map fun user => if matching user then set user else user }

/-- `update_sync_user`. -/
def updateSyncUser (db : UserDb) (uid : ℕ) (generation : ℤ) (keysChangedAt : Option ℤ) : UserDb :=
  db.updateWhere (·.uid = uid) fun user => { user with generation, keysChangedAt }

/-- `replace_sync_user`. -/
def replaceSyncUser (db : UserDb) (uid replacedAt : ℕ) : UserDb :=
  db.updateWhere (fun user => user.uid = uid && user.replacedAt.isNone) fun user =>
    { user with replacedAt := some replacedAt }

/-- `replace_other_sync_users`. -/
def replaceOtherSyncUsers (db : UserDb) (fxaUid : String) (keep replacedAt : ℕ) : UserDb :=
  db.updateWhere (fun user => user.fxaUid = fxaUid && user.uid ≠ keep && user.replacedAt.isNone) fun user =>
    { user with replacedAt := some replacedAt }

end UserDb

/-! ### Requests -/

/-- The refusals of the tokenserver, by their `status` and `description`; an `OverflowError` is
what `sqlite3` raises for an integer that fits no column. -/
inductive Raised where
  | refused (status description : String)
  | overflow
  deriving DecidableEq, Repr

def invalidCredentials : Raised := .refused "invalid-credentials" "Unauthorized"
def invalidClientState (description : String) : Raised := .refused "invalid-client-state" description
def invalidGeneration : Raised := .refused "invalid-generation" "Unauthorized"
def invalidKeysChangedAt : Raised := .refused "invalid-keysChangedAt" "Unauthorized"

/-- `AuthData`: what a request claims about the account. -/
structure AuthData where
  fxaUid : String
  clientState : String
  generation : Option ℤ
  keysChangedAt : Option ℤ
  deriving DecidableEq, Repr

/-- `_none_if_zero`. -/
def noneIfZero (value : Option ℤ) : Option ℤ := value.filter (· ≠ 0)

/-- One token request whose access token has been verified: the subject and `fxa-generation` of
the token, the two halves of its `X-KeyID`, and the clock. -/
structure TokenRequest where
  sub : String
  fxaGeneration : Option ℤ
  keyTimestamp : ℤ
  clientState : String
  nowMs : ℕ
  deriving DecidableEq, Repr

/-- `_auth_data`. -/
def authData (request : TokenRequest) : AuthData where
  fxaUid := request.sub
  clientState := request.clientState
  generation := noneIfZero request.fxaGeneration
  keysChangedAt := noneIfZero (some request.keyTimestamp)

/-- `_gt`: false unless both operands are present. -/
def gt : Option ℤ → Option ℤ → Bool
  | some left, some right => right < left
  | _, _ => false

/-- `_lt`. -/
def lt : Option ℤ → Option ℤ → Bool
  | some left, some right => left < right
  | _, _ => false

/-- `_le`. -/
def le : Option ℤ → Option ℤ → Bool
  | some left, some right => left ≤ right
  | _, _ => false

/-- `_validate`, in the order it runs. -/
def validate (auth : AuthData) (user : SyncUser) (retiredClientStates : List String) : Except Raised Unit :=
  let changedState := auth.clientState ≠ user.clientState
  if gt auth.keysChangedAt user.keysChangedAt && lt auth.generation auth.keysChangedAt then
    .error invalidKeysChangedAt
  else if user.clientState ≠ "" ∧ auth.clientState = "" then
    .error (invalidClientState "Unacceptable client-state value empty string")
  else if retiredClientStates.contains auth.clientState then
    .error (invalidClientState "Unacceptable client-state value stale value")
  else if changedState ∧ le auth.generation (some user.generation) then
    .error (invalidClientState "Unacceptable client-state value new value with no generation change")
  else if changedState ∧ le auth.keysChangedAt user.keysChangedAt then
    .error (invalidClientState "Unacceptable client-state value new value with no keys_changed_at change")
  else if gt (some user.generation) auth.generation then .error invalidGeneration
  else if gt user.keysChangedAt auth.keysChangedAt then .error invalidKeysChangedAt
  else if auth.keysChangedAt = none ∧ user.keysChangedAt ≠ none ∧ user.keysChangedAt ≠ some 0 then
    .error invalidKeysChangedAt
  else .ok ()

/-- `_next_keys_changed_at`. -/
def nextKeysChangedAt (auth : AuthData) (user : SyncUser) : Option ℤ :=
  match auth.keysChangedAt with
  | some keysChangedAt => some keysChangedAt
  | none => user.keysChangedAt.map fun _ => 0

/-- `_next_generation`. -/
def nextGeneration (auth : AuthData) (user : SyncUser) : ℤ :=
  match auth.generation, auth.keysChangedAt with
  | some generation, _ => generation
  | none, some keysChangedAt =>
    if user.generation < keysChangedAt ∧ (user.keysChangedAt = none ∨ gt (some keysChangedAt) user.keysChangedAt) then
      keysChangedAt
    else user.generation
  | none, none => user.generation

/-- Whether an integer can be bound to a statement. -/
def bindable (n : ℤ) : Bool := -2 ^ 63 ≤ n && n < 2 ^ 63

/-- Whether the two values of a user can. -/
def bindableKeys (generation : ℤ) (keysChangedAt : Option ℤ) : Bool :=
  bindable generation && keysChangedAt.all bindable

/-! ### The statements of a request -/

/-- What a statement of a request, or the request, results in. -/
abbrev Program (α : Type) := Script UserDb (Except Raised α)

/-- `create_sync_user`. -/
def createSyncUser (fxaUid clientState : String) (generation : ℤ) (keysChangedAt : Option ℤ) (createdAt : ℕ) :
    Program SyncUser :=
  if bindableKeys generation keysChangedAt then
    .stmt (fun db => db.insertUser (db.newUser fxaUid clientState generation keysChangedAt createdAt)) fun db =>
      .done (.ok (db.newUser fxaUid clientState generation keysChangedAt createdAt))
  else .done (.error .overflow)

/-- The loop of `_current_user`: users that a crash left unreplaced are replaced now. -/
def repair (createdAt : ℕ) : List SyncUser → Script UserDb Unit
  | [] => .done ()
  | old :: rest =>
    if old.replacedAt = none then .act (·.replaceSyncUser old.uid createdAt) (repair createdAt rest)
    else repair createdAt rest

/-- The client states that an account has retired. -/
def retiredStates (current : SyncUser) (history : List SyncUser) : List String :=
  (history.map SyncUser.clientState).filter (· ≠ current.clientState)

/-- `_current_user`: the current Sync user, made on first sight, and the client states that its
account has retired. -/
def currentUser (auth : AuthData) (nowMs : ℕ) : Program (SyncUser × List String) :=
  .read fun db =>
    match db.syncUsers auth.fxaUid with
    | [] =>
      .read fun db =>
        if db.accounts.contains auth.fxaUid then
          (createSyncUser auth.fxaUid auth.clientState (auth.generation.getD 0) auth.keysChangedAt nowMs).andThen
            fun user => .done (.ok (user, []))
        else .done (.error invalidCredentials)
    | current :: history =>
      (repair current.createdAt history).bind fun _ => .done (.ok (current, retiredStates current history))

/-- What a token is minted from: the Sync uid, and the values its keys are versioned by. -/
structure TokenFacts where
  uid : ℕ
  generation : ℤ
  keysChangedAt : Option ℤ
  deriving DecidableEq, Repr

/-- `_apply`: move the user forward, or replace it. -/
def apply (auth : AuthData) (user : SyncUser) (nowMs : ℕ) : Program TokenFacts :=
  let keysChangedAt := nextKeysChangedAt auth user
  let generation := nextGeneration auth user
  if auth.clientState ≠ user.clientState then
    (createSyncUser auth.fxaUid auth.clientState generation keysChangedAt nowMs).andThen fun replacement =>
      .act (·.replaceOtherSyncUsers auth.fxaUid replacement.uid nowMs)
        (.done (.ok ⟨replacement.uid, generation, keysChangedAt⟩))
  else if generation ≠ user.generation ∨ keysChangedAt ≠ user.keysChangedAt then
    if bindableKeys generation keysChangedAt then
      .act (·.updateSyncUser user.uid generation keysChangedAt) (.done (.ok ⟨user.uid, generation, keysChangedAt⟩))
    else .done (.error .overflow)
  else .done (.ok ⟨user.uid, generation, keysChangedAt⟩)

/-- `token`, up to the minting of the credential. -/
def token (request : TokenRequest) : Program TokenFacts :=
  let auth := authData request
  (currentUser auth request.nowMs).andThen fun (user, retired) =>
    match validate auth user retired with
    | .ok () => apply auth user request.nowMs
    | .error raised => .done (.error raised)

end FxaLite.Tokenserver
