import FxaLite.Accounts.Throttle
import FxaLite.Lib.Machine
import Mathlib.Data.Fintype.Basic
import Mathlib.Algebra.BigOperators.Group.Finset.Piecewise
import Mathlib.Tactic.Linarith

/-!
# Guessing a password

`authenticate` asks the throttle before it stretches a password, and reports a wrong one after.
Calls run in a pool of threads, so others may come in between: a call that has been let through
and has not yet reported is not counted by the next check. While the failures in the window and
the calls on their way leave room for one more, no window ever sees more guesses than the limit.
-/

namespace FxaLite.Accounts

open Reactive

/-! ### Calls -/

/-- A call of `authenticate` with a wrong password, before its next step. -/
inductive Call where
  | checking
  | stretching
  | recording
  | tooManyRequests (retryAfter : ℤ)
  | incorrectPassword
  deriving DecidableEq, Repr

/-- A call that was let through and has not reported its failure. -/
def Call.inFlight (call : Call) : Prop := call = .stretching ∨ call = .recording

instance : DecidablePred Call.inFlight := fun _ => inferInstanceAs (Decidable (_ ∨ _))

/-- The throttle, the clock and the calls for one account. The instants of guesses are written
down for the statements below; nothing reads them. -/
structure World (ι : Type*) where
  throttle : Throttle
  now : ℚ
  call : ι → Call
  guesses : List ℚ

/-- What a call of another kind does to the throttle: one for another account, or one with the right password. -/
inductive Elsewhere where
  | check
  | failure
  | success
  deriving DecidableEq, Repr

/-- The next thing to happen: a step of a call, a step of a call of another kind for this account or any other, or
nothing for some time. -/
inductive Event (ι : Type*) where
  | step (i : ι)
  | elsewhere (other : String) (action : Elsewhere)
  | wait (seconds : ℚ) (forward : 0 ≤ seconds)

/-- The method such a call runs. -/
def Elsewhere.run (throttle : Throttle) (other : String) (now : ℚ) : Elsewhere → Throttle
  | .check => (throttle.retryAfter other now).2
  | .failure => throttle.recordFailure other now
  | .success => throttle.recordSuccess other

section Calls

variable {ι : Type*} [DecidableEq ι]

/-- A step of `authenticate`: the check, the comparison of a stretched password, the report. -/
def World.step (key : String) (w : World ι) (i : ι) : World ι :=
  match w.call i with
  | .checking =>
    let (wait, throttle) := w.throttle.retryAfter key w.now
    { w with throttle, call := Function.update w.call i (if wait = 0 then .stretching else .tooManyRequests wait) }
  | .stretching => { w with guesses := w.now :: w.guesses, call := Function.update w.call i .recording }
  | .recording =>
    { w with
      throttle := w.throttle.recordFailure key w.now
      call := Function.update w.call i .incorrectPassword }
  | .tooManyRequests _ => w
  | .incorrectPassword => w

/-- What an event does. -/
def World.apply (key : String) (w : World ι) : Event ι → World ι
  | .step i => w.step key i
  | .elsewhere other action => { w with throttle := action.run w.throttle other w.now }
  | .wait seconds _ => { w with now := w.now + seconds }

/-- The calls as a machine that is driven by events. -/
def guessing (ι : Type*) [DecidableEq ι] (key : String) : Machine (World ι) (Event ι) Unit :=
  ⟨fun w event => (w.apply key event, ())⟩

/-- The guesses in a window of the configured length. -/
def World.guessesIn (w : World ι) (start : ℚ) : List ℚ :=
  w.guesses.filter fun t => start < t && t ≤ start + w.throttle.window

/-- No window sees more guesses than the limit. -/
def World.Bounded (w : World ι) : Prop := ∀ start, (w.guessesIn start).length ≤ w.throttle.limit

end Calls

/-! ### Counting guesses and calls -/

section Guesses

variable {ι : Type*}

/-- The guesses after an instant. -/
def World.guessesAfter (w : World ι) (after : ℚ) : List ℚ := w.guesses.filter (after < ·)

/-- Fewer guesses come after a later instant. -/
theorem guessesAfter_anti (w : World ι) {after later : ℚ} (h : after ≤ later) :
    (w.guessesAfter later).length ≤ (w.guessesAfter after).length := by
  have hsub : w.guessesAfter later = (w.guessesAfter after).filter (later < ·) := by
    unfold World.guessesAfter
    rw [List.filter_filter]
    apply List.filter_congr
    intro t _
    have himp : later < t → after < t := fun hlt => h.trans_lt hlt
    simpa using himp
  rw [hsub]
  exact List.length_filter_le _ _

/-- No guess comes after now. -/
theorem guessesAfter_now {w : World ι} (past : ∀ t ∈ w.guesses, t ≤ w.now) {after : ℚ} (h : w.now ≤ after) :
    w.guessesAfter after = [] := by
  refine List.filter_eq_nil_iff.mpr fun t ht => ?_
  simpa using (past t ht).trans h

/-- A window holds no more guesses than come after its start. -/
theorem guessesIn_le (w : World ι) (start : ℚ) : (w.guessesIn start).length ≤ (w.guessesAfter start).length := by
  have hsub : w.guessesIn start = (w.guessesAfter start).filter fun t => start < t && t ≤ start + w.throttle.window := by
    unfold World.guessesIn World.guessesAfter
    rw [List.filter_filter]
    apply List.filter_congr
    intro t _
    by_cases h : start < t <;> simp [h]
  rw [hsub]
  exact List.length_filter_le _ _

end Guesses

section Counting

variable {ι : Type*} [DecidableEq ι] [Fintype ι]

/-- How many calls are before a step. -/
def World.count (w : World ι) (call : Call) : ℕ := (Finset.univ.filter fun i => w.call i = call).card

/-- How many have been let through and not reported. -/
def World.countInFlight (w : World ι) : ℕ := (Finset.univ.filter fun i => (w.call i).inFlight).card

/-- They are the calls before those two steps. -/
theorem countInFlight_eq (w : World ι) : w.countInFlight = w.count .stretching + w.count .recording := by
  have hdisjoint : Disjoint (Finset.univ.filter fun i => w.call i = .stretching)
      (Finset.univ.filter fun i => w.call i = .recording) := by
    rw [Finset.disjoint_filter]
    intro i _ hstretching hrecording
    cases hstretching.symm.trans hrecording
  unfold World.countInFlight World.count
  rw [← Finset.card_union_of_disjoint hdisjoint, ← Finset.filter_or]
  rfl

/-- One call that moves on leaves one count and enters another. -/
theorem count_update {w w' : World ι} {i : ι} {after : Call} (h : w'.call = Function.update w.call i after)
    (call : Call) :
    w'.count call + (if w.call i = call then 1 else 0) = w.count call + (if after = call then 1 else 0) := by
  have hcomp : (fun j => if Function.update w.call i after j = call then 1 else 0) =
      Function.update (fun j => if w.call j = call then 1 else 0) i (if after = call then 1 else 0) := by
    funext j
    by_cases hj : j = i
    · simp [hj]
    · simp [Function.update_of_ne hj]
  unfold World.count
  rw [h, Finset.card_filter, Finset.card_filter, hcomp, Finset.sum_update_of_mem (Finset.mem_univ i),
    Finset.sum_eq_add_sum_sdiff_singleton_of_mem (Finset.mem_univ i) fun j => if w.call j = call then 1 else 0]
  omega

end Counting

/-! ### Every schedule -/

section Schedules

variable {ι : Type*} [Fintype ι] {key : String}

/-- There is room for one more guess where a check lets a call through: the failures that count
and the calls that were let through and have not reported are fewer than the limit. -/
def Room (key : String) (w : World ι) (i : ι) : Prop :=
  w.call i = .checking → (w.throttle.retryAfter key w.now).1 = 0 →
    (w.throttle.failures.live key (w.now - w.throttle.window)).length + w.countInFlight < w.throttle.limit

instance (w : World ι) (i : ι) : Decidable (Room key w i) := inferInstanceAs (Decidable (_ → _ → _))

/-- An event that overruns nothing: a check that lets a call through has room for it, a failure of another account does
not push out failures of this one, and a success of this one comes when there are no failures that count. -/
def Admitted (key : String) (w : World ι) : Event ι → Prop
  | .step i => Room key w i
  | .elsewhere other .failure => other ≠ key → w.throttle.Spares other key w.now
  | .elsewhere other .success => other = key → w.throttle.failures.live key (w.now - w.throttle.window) = []
  | .elsewhere _ .check => True
  | .wait _ _ => True

/-- Guesses, failures that count, and calls on their way keep within the limit. -/
structure World.Budgeted (key : String) (w : World ι) : Prop where
  bounded : w.Bounded
  past : ∀ t ∈ w.guesses, t ≤ w.now
  enabled : 0 < w.countInFlight → 0 < w.throttle.limit
  room : (w.guessesAfter (w.now - w.throttle.window)).length + w.count .stretching ≤ w.throttle.limit
  covered : ∀ after, w.now - w.throttle.window ≤ after →
    (w.guessesAfter after).length ≤ w.count .recording + (w.throttle.failures.live key after).length

/-- Before anything has happened. -/
theorem budgeted_start (throttle : Throttle) (now : ℚ) :
    World.Budgeted key (⟨throttle, now, fun _ => .checking, []⟩ : World ι) where
  bounded _ := by simp [World.guessesIn]
  past _ h := by simp at h
  enabled h := by simp [World.countInFlight, Call.inFlight] at h
  room := by simp [World.guessesAfter, World.count]
  covered _ _ := by simp [World.guessesAfter]

/-- A throttle that forgets no failure that counts leaves the budget as it is. -/
theorem budgeted_throttle {w : World ι} (h : w.Budgeted key) {throttle : Throttle}
    (hconfig : throttle.limit = w.throttle.limit ∧ throttle.window = w.throttle.window)
    (hlive : ∀ after, w.now - w.throttle.window ≤ after →
      (w.throttle.failures.live key after).length ≤ (throttle.failures.live key after).length) :
    World.Budgeted key { w with throttle } where
  bounded := by
    intro start
    unfold World.guessesIn
    rw [hconfig.1, hconfig.2]
    exact h.bounded start
  past := h.past
  enabled hpos := hconfig.1.symm ▸ h.enabled hpos
  room := by
    rw [hconfig.1, hconfig.2]
    exact h.room
  covered after hafter := by
    rw [hconfig.2] at hafter
    exact (h.covered after hafter).trans (Nat.add_le_add_left (hlive after hafter) _)

/-- A call that moves on keeps the budget if the counts do. -/
theorem budgeted_call {w : World ι} (h : w.Budgeted key) {call : ι → Call}
    (hrecording : World.count { w with call } .recording = w.count .recording)
    (hroom : (w.guessesAfter (w.now - w.throttle.window)).length + World.count { w with call } .stretching ≤
      w.throttle.limit) (henabled : 0 < w.throttle.limit ∨ World.countInFlight { w with call } = w.countInFlight) :
    World.Budgeted key { w with call } where
  bounded := h.bounded
  past := h.past
  enabled hpos := henabled.elim id fun hsame => h.enabled (hsame ▸ hpos)
  room := hroom
  covered after hafter := hrecording.symm ▸ h.covered after hafter

variable [DecidableEq ι]

/-- A check lets a call through only where there is room. -/
theorem budgeted_check {w : World ι} (h : w.Budgeted key) {i : ι} (hcall : w.call i = .checking)
    (hroom : Room key w i) : (w.step key i).Budgeted key := by
  obtain ⟨hlimit, hwindow⟩ := w.throttle.retryAfter_config key w.now
  have hkept := budgeted_throttle h ⟨hlimit, hwindow⟩ fun after hafter =>
    (congrArg List.length (Throttle.live_retryAfter key key hafter)).ge
  simp only [World.step, hcall]
  have hcount := fun call => @count_update ι _ _ w
    { w with call := Function.update w.call i (if (w.throttle.retryAfter key w.now).1 = 0 then .stretching else
      .tooManyRequests (w.throttle.retryAfter key w.now).1) } i _ rfl call
  have hstretching := hcount .stretching
  have hrecording := hcount .recording
  by_cases hwait : (w.throttle.retryAfter key w.now).1 = 0
  · have hfree := hroom hcall hwait
    have hcovered := h.covered _ le_rfl
    rw [countInFlight_eq] at hfree
    simp only [hcall, hwait, reduceCtorEq, if_false, if_true, add_zero] at hstretching hrecording ⊢
    refine budgeted_call hkept hrecording ?_ (Or.inl ?_)
    · change (w.guessesAfter (w.now - (w.throttle.retryAfter key w.now).2.window)).length +
        World.count { w with call := _ } .stretching ≤ (w.throttle.retryAfter key w.now).2.limit
      rw [hlimit, hwindow, hstretching]
      omega
    · change 0 < (w.throttle.retryAfter key w.now).2.limit
      rw [hlimit]
      omega
  · simp only [hcall, hwait, reduceCtorEq, if_false, add_zero] at hstretching hrecording ⊢
    refine budgeted_call hkept hrecording ?_ (Or.inr ?_)
    · exact (congrArg (_ + ·) hstretching).trans_le hkept.room
    · rw [countInFlight_eq, countInFlight_eq]
      exact congrArg₂ (· + ·) hstretching hrecording

/-- A guess. -/
theorem budgeted_guess {w : World ι} (h : w.Budgeted key) {i : ι} (hcall : w.call i = .stretching) :
    (w.step key i).Budgeted key := by
  have hstep : w.step key i = { w with guesses := w.now :: w.guesses, call := Function.update w.call i .recording } := by
    simp only [World.step, hcall]
  have hcount := fun call => @count_update ι _ _ w { w with call := Function.update w.call i .recording } i _ rfl call
  have hstretching := hcount .stretching
  have hrecording := hcount .recording
  simp only [hcall, reduceCtorEq, if_false, if_true, add_zero] at hstretching hrecording
  have hlimit := h.room
  have hafter : ∀ after, (World.guessesAfter { w with guesses := w.now :: w.guesses } after).length =
      (w.guessesAfter after).length + if after < w.now then 1 else 0 := by
    intro after
    unfold World.guessesAfter
    by_cases hlt : after < w.now <;> simp [hlt]
  rw [hstep]
  refine ⟨fun start => ?_, fun t ht => ?_, fun _ => ?_, ?_, fun after hle => ?_⟩
  · by_cases hwindow : start < w.now ∧ w.now ≤ start + w.throttle.window
    · have hstart : w.now - w.throttle.window ≤ start := by linarith [hwindow.2]
      have hin := (guessesIn_le w start).trans (guessesAfter_anti w hstart)
      have hlength : (World.guessesIn { w with guesses := w.now :: w.guesses } start).length =
          (w.guessesIn start).length + 1 := by
        simp [World.guessesIn, hwindow]
      change (World.guessesIn { w with guesses := w.now :: w.guesses } start).length ≤ w.throttle.limit
      omega
    · have hsame : World.guessesIn { w with guesses := w.now :: w.guesses } start = w.guessesIn start :=
        List.filter_cons_of_neg (by simpa using hwindow)
      change (World.guessesIn { w with guesses := w.now :: w.guesses } start).length ≤ w.throttle.limit
      rw [hsame]
      exact h.bounded start
  · obtain rfl | hold := List.mem_cons.mp ht
    · exact le_rfl
    · exact h.past t hold
  · change 0 < w.throttle.limit
    omega
  · have hnow := hafter (w.now - w.throttle.window)
    change (World.guessesAfter { w with guesses := w.now :: w.guesses } _).length +
      World.count { w with call := Function.update w.call i .recording } .stretching ≤ w.throttle.limit
    rw [hnow]
    split <;> omega
  · have hcovered := h.covered after hle
    have hlength := hafter after
    change (World.guessesAfter { w with guesses := w.now :: w.guesses } after).length ≤
      World.count { w with call := Function.update w.call i .recording } .recording +
        (w.throttle.failures.live key after).length
    rw [hlength, hrecording]
    split <;> omega

/-- The report of a wrong guess. -/
theorem budgeted_record {w : World ι} (h : w.Budgeted key) {i : ι} (hcall : w.call i = .recording) :
    (w.step key i).Budgeted key := by
  obtain ⟨hlimit, hwindow⟩ := w.throttle.recordFailure_config key w.now
  have hstep : w.step key i = { w with
      throttle := w.throttle.recordFailure key w.now
      call := Function.update w.call i .incorrectPassword } := by
    simp only [World.step, hcall]
  have hcount := fun call =>
    @count_update ι _ _ w { w with call := Function.update w.call i .incorrectPassword } i _ rfl call
  have hstretching := hcount .stretching
  have hrecording := hcount .recording
  simp only [hcall, reduceCtorEq, if_false, if_true, add_zero] at hstretching hrecording
  have henabled : 0 < w.throttle.limit := by
    apply h.enabled
    rw [countInFlight_eq]
    omega
  rw [hstep]
  refine ⟨fun start => ?_, h.past, fun _ => hlimit.symm ▸ henabled, ?_, fun after hle => ?_⟩
  · unfold World.guessesIn
    rw [hlimit, hwindow]
    exact h.bounded start
  · rw [hlimit, hwindow]
    exact (congrArg (_ + ·) hstretching).trans_le h.room
  · rw [hwindow] at hle
    have hcovered := h.covered after hle
    by_cases hlt : after < w.now
    · have hlive := Throttle.live_recordFailure (decide_eq_true henabled) key hle hlt
      change (w.guessesAfter after).length ≤
        World.count { w with call := Function.update w.call i .incorrectPassword } .recording + _
      rw [hlive]
      omega
    · change (w.guessesAfter after).length ≤ _
      rw [guessesAfter_now h.past (not_lt.mp hlt)]
      exact Nat.zero_le _

omit [DecidableEq ι] in
/-- What a call of another kind does. -/
theorem budgeted_elsewhere {w : World ι} (h : w.Budgeted key) {other : String} {action : Elsewhere}
    (hok : Admitted key w (.elsewhere other action)) :
    World.Budgeted key { w with throttle := action.run w.throttle other w.now } := by
  cases action with
  | check =>
    exact budgeted_throttle h (w.throttle.retryAfter_config other w.now) fun after hafter =>
      (congrArg List.length (Throttle.live_retryAfter key other hafter)).ge
  | failure =>
    refine budgeted_throttle h (w.throttle.recordFailure_config other w.now) fun after hafter => ?_
    by_cases hsame : other = key
    · exact hsame ▸ Throttle.length_live_le_recordFailure other hafter
    · exact (congrArg List.length (Throttle.live_recordFailure_of_ne (hok hsame) hsame hafter)).ge
  | success =>
    refine budgeted_throttle h (w.throttle.recordSuccess_config other) fun after hafter => ?_
    by_cases hsame : other = key
    · rw [← Failures.live_live _ _ hafter, hok hsame]
      exact Nat.zero_le _
    · exact (congrArg List.length (Throttle.live_recordSuccess_of_ne hsame after)).ge

/-- The step lemma. -/
theorem budgeted_apply {w : World ι} (h : w.Budgeted key) {event : Event ι} (hok : Admitted key w event) :
    (w.apply key event).Budgeted key := by
  cases event with
  | step i =>
    cases hcall : w.call i with
    | checking => exact budgeted_check h hcall hok
    | stretching => exact budgeted_guess h hcall
    | recording => exact budgeted_record h hcall
    | tooManyRequests wait => simpa [World.apply, World.step, hcall] using h
    | incorrectPassword => simpa [World.apply, World.step, hcall] using h
  | elsewhere other action => exact budgeted_elsewhere h hok
  | wait seconds forward =>
    have hlater : w.now - w.throttle.window ≤ w.now + seconds - w.throttle.window := by linarith
    exact {
      bounded := h.bounded
      past := fun t ht => (h.past t ht).trans (le_add_of_nonneg_right forward)
      enabled := h.enabled
      room := (Nat.add_le_add_right (guessesAfter_anti w hlater) _).trans h.room
      covered := fun after hafter => h.covered after (hlater.trans hafter) }

/-- In every run, by any schedule and with any other calls in between, in which each check that lets a call through has
room for it, no failure of another account pushes out failures of this one, and no right password makes the throttle
forget failures that count, no window of the configured length sees more guesses than the limit. -/
theorem guesses_bounded (key : String) (throttle : Throttle) (now : ℚ) {events : List (Event ι)}
    (hadmitted : (guessing ι key).Along (Admitted key) ⟨throttle, now, fun _ => .checking, []⟩ events) :
    ((guessing ι key).run ⟨throttle, now, fun _ => .checking, []⟩ events).Bounded := by
  have hbudgeted := (guessing ι key).run_of_step (P := fun w => w.Budgeted key)
    (fun w event h (hok : Admitted key w event) => budgeted_apply h hok) (budgeted_start throttle now) hadmitted
  exact hbudgeted.bounded

end Schedules

/-- Two calls for one account, by some schedule, under a limit of one failure in 300 seconds. -/
def twoGuesses (events : List (Event (Fin 2))) : World (Fin 2) :=
  (guessing (Fin 2) "a").run ⟨⟨1, 300, []⟩, 0, fun _ => .checking, []⟩ events

/-- One call after the other: the second is refused. -/
theorem guesses_bounded_in_turn : (twoGuesses [.step 0, .step 0, .step 0, .step 1]).Bounded := by
  refine guesses_bounded "a" ⟨1, 300, []⟩ 0 ⟨?_, ?_, ?_, ?_, trivial⟩
  · change Room "a" _ (0 : Fin 2)
    decide +kernel
  · change Room "a" _ (0 : Fin 2)
    decide +kernel
  · change Room "a" _ (0 : Fin 2)
    decide +kernel
  · change Room "a" _ (1 : Fin 2)
    decide +kernel

/-- Two calls that are both let through before either has reported. -/
theorem guesses_unbounded : ¬(twoGuesses [.step 0, .step 1, .step 0, .step 1]).Bounded := by
  intro h
  have hwindow : ((twoGuesses [.step 0, .step 1, .step 0, .step 1]).guessesIn (-1)).length = 2 := by decide +kernel
  have hlimit : (twoGuesses [.step 0, .step 1, .step 0, .step 1]).throttle.limit = 1 := by decide +kernel
  have hbound := h (-1)
  omega

end FxaLite.Accounts
