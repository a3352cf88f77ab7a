import FxaLite.Lib.Dict
import Mathlib.Data.Rat.Floor
import Mathlib.Algebra.Order.Ring.Rat

/-!
# The failed-password throttle

`throttle.py`: the failed password checks of each account inside a sliding window. The table is
a dict that keeps the order of insertion, so that the least recently used entry is its first; an
entry is a queue of instants. Every method runs under one lock, and is a function here. A clock
reading is the exact number it denotes.
-/

namespace FxaLite.Accounts

/-- `MAX_ENTRIES`. -/
def maxEntries : ℕ := 4096

/-- The queues of failures by key, in the order of the dict. -/
abbrev Failures := List (String × List ℚ)

/-- `FailureThrottle`: its limit, its window in seconds, and its table. -/
structure Throttle where
  limit : ℕ
  window : ℕ
  failures : Failures
  deriving DecidableEq, Repr

namespace Throttle

variable (throttle : Throttle)

/-- `enabled`. -/
def enabled : Bool := 0 < throttle.limit

/-- `_drop_expired`. -/
def dropExpired (recent : List ℚ) (now : ℚ) : List ℚ := recent.dropWhile (· ≤ now - throttle.window)

/-- `_prune`: the failures of a key that are left, if any are. -/
def prune (table : Failures) (key : String) (now : ℚ) : Option (List ℚ) × Failures :=
  match Dict.get? table key with
  | none => (none, table)
  | some recent =>
    let recent := throttle.dropExpired recent now
    if recent.isEmpty then (none, Dict.del table key) else (some recent, Dict.put table key recent)

/-- The loop of `_evict` that prunes every entry. -/
def pruneAll (table : Failures) (keys : List String) (now : ℚ) : Failures :=
  keys.foldl (fun table key => (throttle.prune table key now).2) table

/-- `_evict`: make room for a new key. -/
def evict (table : Failures) (now : ℚ) : Failures :=
  if table.length < maxEntries then table
  else
    let table := throttle.pruneAll table (table.map Prod.fst) now
    table.drop (table.length + 1 - maxEntries)

/-- `retry_after`: seconds to wait, or 0; and the throttle once expired failures are dropped. -/
def retryAfter (key : String) (now : ℚ) : ℤ × Throttle :=
  if !throttle.enabled then (0, throttle)
  else
    let (recent, failures) := throttle.prune throttle.failures key now
    let wait := match recent with
      | none => 0
      | some [] => 0
      | some (oldest :: rest) =>
        if (oldest :: rest).length < throttle.limit then 0
        else max 1 (⌊oldest + throttle.window - now⌋ + 1)
    (wait, { throttle with failures })

/-- `record_failure`. -/
def recordFailure (key : String) (now : ℚ) : Throttle :=
  if !throttle.enabled then throttle
  else
    let (recent, failures) := match Dict.get? throttle.failures key with
      | none => ([], throttle.evict throttle.failures now)
      | some recent => (recent, Dict.del throttle.failures key)
    { throttle with failures := Dict.put failures key (throttle.dropExpired recent now ++ [now]) }

/-- `record_success`. -/
def recordSuccess (key : String) : Throttle :=
  if !throttle.enabled then throttle else { throttle with failures := Dict.del throttle.failures key }

end Throttle

/-! ### The failures that count -/

/-- The failures of a key after some instant. -/
def Failures.live (table : Failures) (key : String) (after : ℚ) : List ℚ :=
  ((Dict.get? table key).getD []).filter (after < ·)

/-- Failures after an instant, among those after an earlier one. -/
theorem Failures.live_live (table : Failures) (key : String) {after later : ℚ} (h : after ≤ later) :
    (table.live key after).filter (later < ·) = table.live key later := by
  unfold Failures.live
  rw [List.filter_filter]
  apply List.filter_congr
  intro t _
  have himp : later < t → after < t := fun hlt => h.trans_lt hlt
  simpa using himp

namespace Throttle

variable {throttle : Throttle}

/-- Dropping what has expired drops nothing that counts. -/
theorem filter_dropExpired (recent : List ℚ) {now after : ℚ} (h : now - throttle.window ≤ after) :
    (throttle.dropExpired recent now).filter (after < ·) = recent.filter (after < ·) := by
  unfold dropExpired
  induction recent with
  | nil => rfl
  | cons first rest ih =>
    by_cases hfirst : first ≤ now - throttle.window
    · have hnot : ¬after < first := not_lt.mpr (hfirst.trans h)
      rw [List.dropWhile_cons_of_pos (by simpa using hfirst), ih, List.filter_cons_of_neg (by simpa using hnot)]
    · rw [List.dropWhile_cons_of_neg (by simpa using hfirst)]

/-- Neither does pruning. -/
theorem live_prune (table : Failures) (key other : String) {now after : ℚ} (h : now - throttle.window ≤ after) :
    (throttle.prune table other now).2.live key after = table.live key after := by
  unfold prune
  split
  · rfl
  · rename_i recent hget
    dsimp only
    unfold Failures.live
    split
    · rename_i hempty
      rw [Dict.get?_del]
      split
      · rename_i heq
        have hnone : throttle.dropExpired recent now = [] := List.isEmpty_iff.mp hempty
        rw [heq, hget, Option.getD_some, ← filter_dropExpired recent h, hnone]
        rfl
      · rfl
    · rw [Dict.get?_put]
      split
      · rename_i heq
        rw [heq, hget, Option.getD_some, Option.getD_some, filter_dropExpired recent h]
      · rfl

/-- A check leaves every failure that counts. -/
theorem live_retryAfter (key other : String) {now after : ℚ} (h : now - throttle.window ≤ after) :
    (throttle.retryAfter other now).2.failures.live key after = throttle.failures.live key after := by
  unfold retryAfter
  split
  · rfl
  · exact live_prune throttle.failures key other h

/-- The report of a failure is one more failure that counts. -/
theorem live_recordFailure (henabled : throttle.enabled = true) (key : String) {now after : ℚ}
    (h : now - throttle.window ≤ after) (hafter : after < now) :
    ((throttle.recordFailure key now).failures.live key after).length = (throttle.failures.live key after).length + 1 := by
  unfold recordFailure Failures.live
  simp only [henabled, Bool.not_true, Bool.false_eq_true, if_false]
  cases hget : Dict.get? throttle.failures key with
  | none =>
    simp [Dict.get?_put, dropExpired, hafter]
  | some recent =>
    simp [Dict.get?_put, filter_dropExpired recent h, hafter]

/-- It forgets none that counted. -/
theorem length_live_le_recordFailure (key : String) {now after : ℚ} (h : now - throttle.window ≤ after) :
    (throttle.failures.live key after).length ≤ ((throttle.recordFailure key now).failures.live key after).length := by
  unfold recordFailure
  split
  · exact le_rfl
  · cases hget : Dict.get? throttle.failures key with
    | none => simp [Failures.live, hget]
    | some recent => simp [Failures.live, hget, filter_dropExpired recent h]

/-- The report of another account's failure spares a key if it makes room for that account without
giving up failures of the key that count. -/
def Spares (throttle : Throttle) (other key : String) (now : ℚ) : Prop :=
  Dict.get? throttle.failures other = none →
    (throttle.evict throttle.failures now).live key (now - throttle.window) =
      throttle.failures.live key (now - throttle.window)

instance (throttle : Throttle) (other key : String) (now : ℚ) : Decidable (throttle.Spares other key now) :=
  inferInstanceAs (Decidable (_ → _))

/-- Then the key keeps all that counts. -/
theorem live_recordFailure_of_ne {key other : String} {now after : ℚ} (hspares : throttle.Spares other key now)
    (hne : other ≠ key) (h : now - throttle.window ≤ after) :
    (throttle.recordFailure other now).failures.live key after = throttle.failures.live key after := by
  unfold recordFailure
  split
  · rfl
  · cases hget : Dict.get? throttle.failures other with
    | none =>
      have hkept := congrArg (List.filter (after < ·)) (hspares hget)
      rw [Failures.live_live _ _ h, Failures.live_live _ _ h] at hkept
      rw [← hkept]
      simp [Failures.live, Dict.get?_put, hne.symm]
    | some recent => simp [Failures.live, Dict.get?_put, Dict.get?_del, hne.symm]

/-- A success of another account takes nothing from the key. -/
theorem live_recordSuccess_of_ne {key other : String} (hne : other ≠ key) (after : ℚ) :
    (throttle.recordSuccess other).failures.live key after = throttle.failures.live key after := by
  unfold recordSuccess
  split
  · rfl
  · simp [Failures.live, Dict.get?_del, hne.symm]

/-- No method changes the configuration. -/
@[simp] theorem retryAfter_config (key : String) (now : ℚ) :
    (throttle.retryAfter key now).2.limit = throttle.limit ∧ (throttle.retryAfter key now).2.window = throttle.window := by
  unfold retryAfter
  split <;> exact ⟨rfl, rfl⟩

@[simp] theorem recordFailure_config (key : String) (now : ℚ) :
    (throttle.recordFailure key now).limit = throttle.limit ∧ (throttle.recordFailure key now).window = throttle.window := by
  unfold recordFailure
  split <;> exact ⟨rfl, rfl⟩

@[simp] theorem recordSuccess_config (key : String) :
    (throttle.recordSuccess key).limit = throttle.limit ∧ (throttle.recordSuccess key).window = throttle.window := by
  unfold recordSuccess
  split <;> exact ⟨rfl, rfl⟩

end Throttle

end FxaLite.Accounts
