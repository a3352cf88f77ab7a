import FxaLite.Accounts.Database
import FxaLite.Lib.SingleUse

/-!
# Fetching the keys

`GET /account/keys`: the token is looked up by the credentials of the route, and deleted by its
handler, which hands out the bundle whether or not there was still a token to delete. One request
after another, a replay finds nothing; two at a time that have both looked both get the bundle.
-/

namespace FxaLite.Accounts

open Concurrent Reactive

/-- The errors of the route. -/
inductive KeysError where
  | unauthorized (message : String)
  deriving DecidableEq, Repr

/-- The second half of `key_fetch_credentials`: the account of the token. -/
def keyFetchAccount (token : KeyFetchToken) : Script Db (Except KeysError (KeyFetchToken × Account)) :=
  .read fun db =>
    match db.account token.uid with
    | none => .done (.error (.unauthorized "Token not found"))
    | some account => .done (.ok (token, account))

/-- `key_fetch_credentials`, of a token id that was read from the header. -/
def keyFetchCredentials (identifier : String) : Script Db (Except KeysError (KeyFetchToken × Account)) :=
  .read fun db =>
    match db.keyFetchToken identifier with
    | none => .done (.error (.unauthorized "Token not found"))
    | some token => keyFetchAccount token

/-- `account_keys`. -/
def accountKeys (credentials : KeyFetchToken × Account) : Script Db (Except KeysError String) :=
  .act (·.deleteKeyFetchToken credentials.1.tokenId) (.done (.ok credentials.1.keyBundle))

/-- The route: its credentials, then its handler. -/
def getAccountKeys (identifier : String) : Script Db (Except KeysError String) :=
  (keyFetchCredentials identifier).andThen accountKeys

/-- A request, statement by statement. -/
theorem getAccountKeys_eq (identifier : String) :
    getAccountKeys identifier = .read fun db =>
      match db.keyFetchToken identifier with
      | none => .done (.error (.unauthorized "Token not found"))
      | some token => (keyFetchAccount token).andThen accountKeys := by
  rw [getAccountKeys, keyFetchCredentials, Script.andThen_read]
  congr 1
  funext db
  cases db.keyFetchToken identifier with
  | none => rfl
  | some token => rfl

/-- The rest of it, once the token is found. -/
theorem keyFetchAccount_eq (token : KeyFetchToken) :
    (keyFetchAccount token).andThen accountKeys = .read fun db =>
      match db.account token.uid with
      | none => .done (.error (.unauthorized "Token not found"))
      | some account => accountKeys (token, account) := by
  rw [keyFetchAccount, Script.andThen_read]
  congr 1
  funext db
  cases db.account token.uid with
  | none => rfl
  | some account => rfl

/-! ### The stages of a request -/

/-- A request that has looked the token up, and has yet to delete it. -/
def HasLookedUp (identifier : String) (script : Script Db (Except KeysError String)) : Prop :=
  ∃ token : KeyFetchToken, token.tokenId = identifier ∧
    (script = (keyFetchAccount token).andThen accountKeys ∨ ∃ account, script = accountKeys (token, account))

/-- The scripts of a request for a token, by stage. -/
def keyFetchStage (identifier : String) : Stage → Script Db (Except KeysError String) → Prop
  | .waiting, script => script = getAccountKeys identifier
  | .inHand, script => HasLookedUp identifier script
  | .taken, script => ∃ bundle, script = .done (.ok bundle)
  | .lost, script => ∃ raised, script = .done (.error raised)

/-- What one statement of a request does to the token, and to the stage. -/
theorem keyFetchStage_next {identifier : String} {stage : Stage} {effect : Db → Db}
    {next : Db → Script Db (Except KeysError String)} (h : keyFetchStage identifier stage (.stmt effect next))
    (db : Db) :
    ((effect db).keyFetchToken identifier ≠ none → db.keyFetchToken identifier ≠ none) ∧
      ∃ stage', Stage.Moves (db.keyFetchToken identifier ≠ none) ((effect db).keyFetchToken identifier ≠ none)
        stage stage' ∧ keyFetchStage identifier stage' (next db) := by
  cases stage with
  | waiting =>
    obtain ⟨rfl, rfl⟩ := Script.stmt.inj (h.trans (getAccountKeys_eq identifier))
    refine ⟨id, ?_⟩
    dsimp only
    cases hfound : db.keyFetchToken identifier with
    | none => exact ⟨.lost, .miss, _, rfl⟩
    | some token => exact ⟨.inHand, .find (by simp), token, Db.tokenId_of_keyFetchToken hfound, Or.inl rfl⟩
  | inHand =>
    obtain ⟨token, hid, hscript | ⟨account, hscript⟩⟩ := h
    · obtain ⟨rfl, rfl⟩ := Script.stmt.inj (hscript.trans (keyFetchAccount_eq token))
      refine ⟨id, ?_⟩
      dsimp only
      cases db.account token.uid with
      | none => exact ⟨.lost, .fail, _, rfl⟩
      | some account => exact ⟨.inHand, .stay _, token, hid, Or.inr ⟨account, rfl⟩⟩
    · obtain ⟨rfl, rfl⟩ := Script.stmt.inj hscript
      have hgone : (db.deleteKeyFetchToken token.tokenId).keyFetchToken identifier = none := by
        rw [hid]
        exact Db.keyFetchToken_deleteKeyFetchToken db identifier
      exact ⟨fun hthere => absurd hgone hthere, .taken, .take (not_not.mpr hgone), _, rfl⟩
  | taken =>
    obtain ⟨_, hdone⟩ := h
    cases hdone
  | lost =>
    obtain ⟨_, hdone⟩ := h
    cases hdone

/-- A key fetch token, as a ticket. -/
def keyFetchTicket (identifier : String) : Ticket Db (Except KeysError String) where
  present db := db.keyFetchToken identifier ≠ none
  won result := ∃ bundle, result = .ok bundle
  inStage := keyFetchStage identifier
  moves := keyFetchStage_next
  wins := by
    intro stage result h hwon
    obtain ⟨bundle, rfl⟩ := hwon
    cases stage with
    | waiting => cases h
    | inHand =>
      obtain ⟨token, -, hscript | ⟨account, hscript⟩⟩ := h
      · cases hscript
      · cases hscript
    | taken => rfl
    | lost =>
      obtain ⟨raised, hdone⟩ := h
      cases hdone

/-- A request that has not begun has not looked the token up. -/
theorem not_hasLookedUp_start (identifier : String) : ¬HasLookedUp identifier (getAccountKeys identifier) := by
  intro h
  obtain ⟨token, -, hscript | ⟨account, hscript⟩⟩ := h
  · -- without the token, but with its account, one goes on and the other does not
    let db : Db := { Db.fresh with accounts := [.blank token.uid "" 0] }
    rw [getAccountKeys_eq, keyFetchAccount_eq] at hscript
    have hnext := congrFun (Script.stmt.inj hscript).2 db
    have haccount : db.account token.uid = some (.blank token.uid "" 0) := by simp [db, Db.account, Account.blank]
    rw [haccount] at hnext
    cases hnext
  · -- with the token, one leaves it and the other does not
    let db : Db := { Db.fresh with keyFetchTokens := [token] }
    have heffect := congrFun (Script.stmt.inj hscript).1 db
    have hkept : db.keyFetchTokens = (db.deleteKeyFetchToken token.tokenId).keyFetchTokens :=
      congrArg Db.keyFetchTokens heffect
    simp [db, Db.deleteKeyFetchToken] at hkept

/-! ### Every schedule -/

section Requests

variable {ι : Type*} [DecidableEq ι]

/-- Any number of requests with one token. -/
def keyFetchRequests (ι : Type*) (identifier : String) (db : Db) : Threads ι Db (Except KeysError String) :=
  ⟨db, fun _ => getAccountKeys identifier⟩

/-- A request finds the token only while every other one has not begun, or is over. -/
def LooksUpAlone (identifier : String) (t : Threads ι Db (Except KeysError String)) (i : ι) : Prop :=
  t.script i = getAccountKeys identifier → t.state.keyFetchToken identifier ≠ none →
    ∀ j, j ≠ i → t.script j = getAccountKeys identifier ∨ ∃ result, t.script j = .done result

/-- Then it does not find it while another has it in hand. -/
theorem exclusive_of_looksUpAlone {identifier : String} {t : Threads ι Db (Except KeysError String)} {i : ι}
    (h : LooksUpAlone identifier t i) : (keyFetchTicket identifier).Exclusive t i := by
  intro hwaiting hfound j hj hinHand
  have hscript : t.script i = getAccountKeys identifier := hwaiting
  have hthere : t.state.keyFetchToken identifier ≠ none := by
    intro hnone
    rw [Threads.advance_self (hscript.trans (getAccountKeys_eq identifier)), hnone] at hfound
    obtain ⟨token, -, hscript | ⟨account, hscript⟩⟩ := hfound
    · cases hscript
    · cases hscript
  obtain hstart | ⟨result, hdone⟩ := h hscript hthere j hj
  · exact not_hasLookedUp_start identifier (hstart ▸ hinHand)
  · obtain ⟨token, -, hscript | ⟨account, hscript⟩⟩ := hinHand
    · cases hdone.symm.trans hscript
    · cases hdone.symm.trans hscript

/-- If no request finds the token while another is between looking it up and deleting it, one
request at most gets the bundle, and afterwards none does. -/
theorem key_bundle_once (identifier : String) (db : Db) {schedule : List ι}
    (halone : (Threads.machine ι Db (Except KeysError String)).Along (LooksUpAlone identifier)
      (keyFetchRequests ι identifier db) schedule) :
    let t := (Threads.machine ι Db (Except KeysError String)).run (keyFetchRequests ι identifier db) schedule
    (∀ i j bundle bundle', t.Finished i (.ok bundle) → t.Finished j (.ok bundle') → i = j) ∧
      ∀ i bundle, t.Finished i (.ok bundle) →
        ((getAccountKeys identifier).exec t.state).1 = .error (.unauthorized "Token not found") := by
  intro t
  obtain ⟨stage, held⟩ := (keyFetchTicket identifier).held_of_run
    (show ∀ i, keyFetchStage identifier .waiting ((keyFetchRequests ι identifier db).script i) from fun _ => rfl)
    (halone.imp fun t i => exclusive_of_looksUpAlone)
  refine ⟨fun i j bundle bundle' hi hj => held.one_winner hi hj ⟨bundle, rfl⟩ ⟨bundle', rfl⟩, fun i bundle hi => ?_⟩
  have hgone : t.state.keyFetchToken identifier = none := not_not.mp (held.gone_of_won hi ⟨bundle, rfl⟩)
  rw [getAccountKeys_eq, Script.exec_read, hgone]
  rfl

end Requests

/-- A database with one account and one key fetch token of it. -/
def oneToken : Db := { Db.fresh with accounts := [.blank "u" "" 0], keyFetchTokens := [⟨"t", "u", "bundle", 0⟩] }

/-- Two requests for its token, in the order of a schedule. -/
def twoRequests (schedule : List (Fin 2)) : Threads (Fin 2) Db (Except KeysError String) :=
  (Threads.machine (Fin 2) Db (Except KeysError String)).run (keyFetchRequests (Fin 2) "t" oneToken) schedule

/-- One request after the other: the first gets the bundle, and nothing is left for a third. -/
theorem key_bundle_once_replay :
    (twoRequests [0, 0, 0, 1]).Finished 0 (.ok "bundle") ∧
      ((getAccountKeys "t").exec (twoRequests [0, 0, 0, 1]).state).1 = .error (.unauthorized "Token not found") := by
  have hother : ∀ j : Fin 2, j ≠ 0 → j = 1 := by decide
  have hfirst : (twoRequests [0, 0, 0, 1]).Finished 0 (.ok "bundle") := rfl
  refine ⟨hfirst, (@key_bundle_once (Fin 2) _ "t" oneToken [0, 0, 0, 1] ⟨?_, ?_, ?_, ?_, trivial⟩).2 0 _ hfirst⟩
  · intro _ _ j _
    exact Or.inl rfl
  · intro _ _ j hj
    exact Or.inl (hother j hj ▸ rfl)
  · intro _ _ j hj
    exact Or.inl (hother j hj ▸ rfl)
  · intro _ hthere
    exact absurd rfl hthere

/-- Two requests that both look the token up before either deletes it. -/
theorem key_bundle_twice :
    (twoRequests [0, 1, 0, 1, 0, 1]).Finished 0 (.ok "bundle") ∧
      (twoRequests [0, 1, 0, 1, 0, 1]).Finished 1 (.ok "bundle") := ⟨rfl, rfl⟩

end FxaLite.Accounts
