import FxaLite.Accounts.Throttle
import Mathlib.Data.List.Dedup
import Mathlib.Data.List.Induction
import Mathlib.Data.List.Pairwise
import Mathlib.Tactic.Linarith

/-!
# The throttle as a sliding window

Expired failures are dropped late, by whichever method looks at an entry next, and an entry may
give way to another key when the table is full. What is left of a key is always part of its
failures since its last success, and as long as the table has room it is all of them that can
still count. So a check counts exactly the failures of the window that ends now.
-/

namespace FxaLite.Accounts

/-- A call of a method of the throttle. -/
inductive Usage where
  | retryAfter (key : String) (now : ℚ)
  | recordFailure (key : String) (now : ℚ)
  | recordSuccess (key : String)
  deriving DecidableEq, Repr

namespace Usage

/-- The key a call is about. -/
def key : Usage → String
  | retryAfter key _ | recordFailure key _ | recordSuccess key => key

/-- The clock reading of a call, if it takes one. -/
def time? : Usage → Option ℚ
  | retryAfter _ now | recordFailure _ now => some now
  | recordSuccess _ => none

/-- What a call adds to the failures of a key since its last success. -/
def note (key : String) (failures : List ℚ) : Usage → List ℚ
  | recordFailure other now => if other = key then failures ++ [now] else failures
  | recordSuccess other => if other = key then [] else failures
  | retryAfter _ _ => failures

end Usage

/-- The failures of a key since its last success. -/
def failuresSince (key : String) (calls : List Usage) : List ℚ := calls.foldl (Usage.note key) []

/-- The clock does not go back. -/
def Clocked (calls : List Usage) : Prop := (calls.filterMap Usage.time?).Pairwise (· ≤ ·)

instance (calls : List Usage) : Decidable (Clocked calls) := inferInstanceAs (Decidable (List.Pairwise _ _))

/-- What a call does to the throttle. -/
def Throttle.apply (throttle : Throttle) : Usage → Throttle
  | .retryAfter key now => (throttle.retryAfter key now).2
  | .recordFailure key now => throttle.recordFailure key now
  | .recordSuccess key => throttle.recordSuccess key

/-- The throttle after a sequence of calls. -/
def Throttle.run (throttle : Throttle) (calls : List Usage) : Throttle := calls.foldl Throttle.apply throttle

/-- A throttle that has seen no call. -/
def Throttle.new (limit window : ℕ) : Throttle := ⟨limit, window, []⟩

/-! ### The table -/

namespace Failures

variable {table table' : Failures} {key other : String} {recent : List ℚ}

/-- What the table holds for a key. -/
def kept (table : Failures) (key : String) : List ℚ := (Dict.get? table key).getD []

end Failures

/-! ### What the methods keep -/

/-- In order of time, dropping from the front is dropping all that is no later. -/
theorem dropWhile_le_eq_filter {times : List ℚ} (h : times.Pairwise (· ≤ ·)) (horizon : ℚ) :
    times.dropWhile (· ≤ horizon) = times.filter (horizon < ·) := by
  induction times with
  | nil => rfl
  | cons first rest ih =>
    obtain ⟨hfirst, hrest⟩ := List.pairwise_cons.mp h
    by_cases hexpired : first ≤ horizon
    · rw [List.dropWhile_cons_of_pos (by simpa using hexpired), ih hrest,
        List.filter_cons_of_neg (by simpa using hexpired)]
    · have hlate : horizon < first := not_le.mp hexpired
      have hall : ∀ t ∈ rest, horizon < t := fun t ht => hlate.trans_le (hfirst t ht)
      rw [List.dropWhile_cons_of_neg (by simpa using hlate), List.filter_cons_of_pos (by simpa using hlate),
        List.filter_eq_self.mpr (by simpa using hall)]

namespace Throttle

open Failures

variable {throttle : Throttle} {table : Failures} {key other : String} {now : ℚ}

/-- Dropping what has expired leaves a part of a queue. -/
theorem dropExpired_sublist (recent : List ℚ) : (throttle.dropExpired recent now).Sublist recent :=
  List.dropWhile_sublist _

/-- The table after a key is pruned. -/
theorem kept_prune : (throttle.prune table key now).2.kept other =
    if other = key then throttle.dropExpired (table.kept key) now else table.kept other := by
  unfold prune
  cases hget : Dict.get? table key with
  | none =>
    dsimp only
    split
    · rename_i heq
      simp [heq, kept, hget, dropExpired]
    · rfl
  | some recent =>
    dsimp only
    split
    · rename_i hempty
      simp only [kept, Dict.get?_del, hget, Option.getD_some, List.isEmpty_iff.mp hempty]
      split <;> simp
    · simp only [kept, Dict.get?_put, hget, Option.getD_some]
      split <;> rfl

/-- What pruning a key finds is what it leaves. -/
theorem getD_prune_fst : ((throttle.prune table key now).1).getD [] = throttle.dropExpired (table.kept key) now := by
  unfold prune
  cases hget : Dict.get? table key with
  | none => simp [kept, hget, dropExpired]
  | some recent =>
    dsimp only
    split
    · rename_i hempty
      simp [kept, hget, List.isEmpty_iff.mp hempty]
    · simp [kept, hget]

/-- Pruning adds no entry. -/
theorem length_prune_le : (throttle.prune table key now).2.length ≤ table.length := by
  unfold prune
  cases hget : Dict.get? table key with
  | none => exact le_rfl
  | some recent =>
    dsimp only
    split
    · exact List.length_filter_le _ _
    · exact (Dict.length_put_of_get? (by simp [hget])).le

/-- It adds no key either. -/
theorem keys_prune_sublist : (Dict.keys (throttle.prune table key now).2).Sublist (Dict.keys table) := by
  unfold prune
  cases hget : Dict.get? table key with
  | none => exact List.Sublist.refl _
  | some recent =>
    dsimp only
    split
    · exact List.filter_sublist.map _
    · have hmem : key ∈ Dict.keys table := not_not.mp (Dict.get?_eq_none_iff.not.mp (by simp [hget]))
      rw [Dict.keys_put, if_pos hmem]

/-- Pruning leaves a part of what is there for every key. -/
theorem kept_prune_sublist : ((throttle.prune table key now).2.kept other).Sublist (table.kept other) := by
  rw [kept_prune]
  split
  · rename_i heq
    exact heq ▸ dropExpired_sublist _
  · exact List.Sublist.refl _

/-- So does pruning any number of keys, and no key is added. -/
theorem pruneAll_sublist (keys : List String) (table : Failures) :
    (Dict.keys (throttle.pruneAll table keys now)).Sublist (Dict.keys table) ∧
      ∀ other, ((throttle.pruneAll table keys now).kept other).Sublist (table.kept other) := by
  induction keys generalizing table with
  | nil => exact ⟨List.Sublist.refl _, fun _ => List.Sublist.refl _⟩
  | cons key rest ih =>
    have hrest := ih (throttle.prune table key now).2
    exact ⟨hrest.1.trans keys_prune_sublist, fun other => (hrest.2 other).trans kept_prune_sublist⟩

/-- Making room adds no key. -/
theorem keys_evict_sublist : (Dict.keys (throttle.evict table now)).Sublist (Dict.keys table) := by
  unfold evict
  split
  · exact List.Sublist.refl _
  · exact ((List.drop_sublist _ _).map _).trans (pruneAll_sublist _ _).1

/-- There is room for one more entry. -/
theorem length_evict_lt : (throttle.evict table now).length < maxEntries := by
  unfold evict
  split
  · assumption
  · have hpos : 0 < maxEntries := by decide
    simp only [List.length_drop]
    omega

/-- The table after a failure. -/
theorem kept_recordFailure (henabled : throttle.enabled = true) :
    (throttle.recordFailure key now).failures.kept key = throttle.dropExpired (throttle.failures.kept key) now ++ [now] := by
  unfold recordFailure
  cases hget : Dict.get? throttle.failures key <;> simp [henabled, kept, Dict.get?_put, hget]

/-- The table after a check. -/
theorem kept_retryAfter (henabled : throttle.enabled = true) :
    (throttle.retryAfter key now).2.failures.kept key = throttle.dropExpired (throttle.failures.kept key) now := by
  simp [retryAfter, henabled, kept_prune]

/-- The wait is read off the oldest failure that still counts, if there are enough of them. -/
theorem retryAfter_fst (henabled : throttle.enabled = true) :
    (throttle.retryAfter key now).1 = match throttle.dropExpired (throttle.failures.kept key) now with
      | [] => 0
      | oldest :: rest =>
        if (oldest :: rest).length < throttle.limit then 0 else max 1 (⌊oldest + throttle.window - now⌋ + 1) := by
  rw [← getD_prune_fst]
  simp only [retryAfter, henabled, Bool.not_true, Bool.false_eq_true, if_false]
  rcases (throttle.prune throttle.failures key now).1 with _ | _ | ⟨oldest, rest⟩ <;> rfl

/-- There is a wait when there are enough failures that count. -/
theorem retryAfter_pos_iff (hlimit : 1 ≤ throttle.limit) :
    0 < (throttle.retryAfter key now).1 ↔
      throttle.limit ≤ (throttle.dropExpired (throttle.failures.kept key) now).length := by
  rw [retryAfter_fst (decide_eq_true hlimit)]
  cases throttle.dropExpired (throttle.failures.kept key) now with
  | nil =>
    have hne : throttle.limit ≠ 0 := by omega
    simp [hne]
  | cons oldest rest =>
    dsimp only
    split
    · rename_i hfew
      simpa using hfew
    · rename_i hmany
      simpa using hmany

/-- The distinctness of the keys is kept by every call. -/
theorem nodup_apply (call : Usage) (h : (Dict.keys throttle.failures).Nodup) :
    (Dict.keys (throttle.apply call).failures).Nodup := by
  cases call with
  | retryAfter key now =>
    simp only [apply, retryAfter]
    split
    · exact h
    · exact h.sublist keys_prune_sublist
  | recordFailure key now =>
    simp only [apply, recordFailure]
    split
    · exact h
    · cases Dict.get? throttle.failures key with
      | none => exact Dict.nodup_put (h.sublist keys_evict_sublist)
      | some recent => exact Dict.nodup_put (h.sublist (List.filter_sublist.map Prod.fst))
  | recordSuccess key =>
    simp only [apply, recordSuccess]
    split
    · exact h
    · exact h.sublist (List.filter_sublist.map Prod.fst)

/-- The bound on the number of entries is kept by every call. -/
theorem length_apply_le (call : Usage) (h : throttle.failures.length ≤ maxEntries) :
    (throttle.apply call).failures.length ≤ maxEntries := by
  cases call with
  | retryAfter key now =>
    simp only [apply, retryAfter]
    split
    · exact h
    · exact length_prune_le.trans h
  | recordFailure key now =>
    simp only [apply, recordFailure]
    split
    · exact h
    · cases hget : Dict.get? throttle.failures key with
      | none => exact Dict.length_put_le.trans length_evict_lt
      | some recent => exact Dict.length_put_le.trans ((Dict.length_del_lt (by simp [hget])).trans_le h)
  | recordSuccess key =>
    simp only [apply, recordSuccess]
    split
    · exact h
    · exact (List.length_filter_le _ _).trans h

end Throttle

/-! ### Runs -/

section Runs

open Failures

variable {limit window : ℕ} {calls : List Usage} {key : String} {now : ℚ}

/-- A failure is the next of its key, and a success forgets them. -/
theorem failuresSince_append (calls : List Usage) (call : Usage) :
    failuresSince key (calls ++ [call]) = call.note key (failuresSince key calls) := by
  simp [failuresSince]

/-- The last call of a run. -/
theorem run_append (throttle : Throttle) (calls : List Usage) (call : Usage) :
    throttle.run (calls ++ [call]) = (throttle.run calls).apply call := by
  simp [Throttle.run]

/-- The failures of a key come in the order of the clock. -/
theorem failuresSince_sublist (key : String) (calls : List Usage) :
    (failuresSince key calls).Sublist (calls.filterMap Usage.time?) := by
  induction calls using List.reverseRecOn with
  | nil => exact List.Sublist.refl _
  | append_singleton calls call ih =>
    rw [failuresSince_append, List.filterMap_append]
    cases call with
    | retryAfter other now => exact ih.trans (List.sublist_append_left _ _)
    | recordFailure other now =>
      simp only [Usage.note]
      split
      · exact ih.append (List.Sublist.refl _)
      · exact ih.trans (List.sublist_append_left _ _)
    | recordSuccess other =>
      simp only [Usage.note]
      split
      · exact List.nil_sublist _
      · exact ih.trans (List.sublist_append_left _ _)

/-- No call changes the configuration. -/
theorem apply_config (throttle : Throttle) (call : Usage) :
    (throttle.apply call).limit = throttle.limit ∧ (throttle.apply call).window = throttle.window := by
  cases call with
  | retryAfter other now => exact Throttle.retryAfter_config other now
  | recordFailure other now => exact Throttle.recordFailure_config other now
  | recordSuccess other => exact Throttle.recordSuccess_config other

/-- A run keeps the configuration. -/
theorem run_config (throttle : Throttle) (calls : List Usage) :
    (throttle.run calls).limit = throttle.limit ∧ (throttle.run calls).window = throttle.window := by
  induction calls using List.reverseRecOn with
  | nil => exact ⟨rfl, rfl⟩
  | append_singleton calls call ih =>
    rw [run_append]
    exact ⟨(apply_config _ call).1.trans ih.1, (apply_config _ call).2.trans ih.2⟩

/-- A throttle with a limit stays on. -/
theorem enabled_run {throttle : Throttle} (h : throttle.enabled = true) (calls : List Usage) :
    (throttle.run calls).enabled = true := by
  simpa [Throttle.enabled, (run_config throttle calls).1] using h

/-- The keys stay distinct in a run. -/
theorem nodup_run (throttle : Throttle) (h : (Dict.keys throttle.failures).Nodup) (calls : List Usage) :
    (Dict.keys (throttle.run calls).failures).Nodup := by
  induction calls using List.reverseRecOn with
  | nil => exact h
  | append_singleton calls call ih =>
    rw [run_append]
    exact Throttle.nodup_apply call ih

/-- The keys of a new throttle are distinct, as there are none. -/
theorem nodup_run_new (limit window : ℕ) (calls : List Usage) :
    (Dict.keys ((Throttle.new limit window).run calls).failures).Nodup :=
  nodup_run (Throttle.new limit window) List.nodup_nil calls

/-- The table never outgrows its bound. -/
theorem length_run_le (calls : List Usage) : ((Throttle.new limit window).run calls).failures.length ≤ maxEntries := by
  induction calls using List.reverseRecOn with
  | nil => exact Nat.zero_le _
  | append_singleton calls call ih =>
    rw [run_append]
    exact Throttle.length_apply_le call ih

/-- With room in the table, a call for another key leaves a key alone. -/
theorem kept_apply_of_ne {throttle : Throttle} {call : Usage} (hne : call.key ≠ key)
    (hroom : throttle.failures.length < maxEntries) :
    (throttle.apply call).failures.kept key = throttle.failures.kept key := by
  cases call with
  | retryAfter other now =>
    simp only [Throttle.apply, Throttle.retryAfter]
    split
    · rfl
    · exact Throttle.kept_prune.trans (if_neg (Ne.symm hne))
  | recordFailure other now =>
    have hne' : key ≠ other := Ne.symm hne
    simp only [Throttle.apply, Throttle.recordFailure]
    split
    · rfl
    · cases Dict.get? throttle.failures other with
      | none => simp only [Throttle.evict, if_pos hroom, kept, Dict.get?_put, if_neg hne']
      | some recent => simp only [kept, Dict.get?_put, Dict.get?_del, if_neg hne']
  | recordSuccess other =>
    have hne' : key ≠ other := Ne.symm hne
    simp only [Throttle.apply, Throttle.recordSuccess]
    split
    · rfl
    · simp only [kept, Dict.get?_del, if_neg hne']

/-- A call adds no key but its own. -/
theorem keys_apply_subset (throttle : Throttle) (call : Usage) :
    Dict.keys (throttle.apply call).failures ⊆ call.key :: Dict.keys throttle.failures := by
  have hput : ∀ (table : Failures) other recent, Dict.keys table ⊆ Dict.keys throttle.failures →
      Dict.keys (Dict.put table other recent) ⊆ other :: Dict.keys throttle.failures := by
    intro table other recent hsub k hk
    rw [Dict.keys_put] at hk
    split at hk
    · exact List.mem_cons_of_mem _ (hsub hk)
    · rcases List.mem_append.mp hk with hk | hk
      · exact List.mem_cons_of_mem _ (hsub hk)
      · exact List.mem_singleton.mp hk ▸ List.mem_cons_self
  cases call with
  | retryAfter other now =>
    simp only [Throttle.apply, Throttle.retryAfter]
    split
    · exact List.subset_cons_self _ _
    · exact List.Subset.trans Throttle.keys_prune_sublist.subset (List.subset_cons_self _ _)
  | recordFailure other now =>
    simp only [Throttle.apply, Throttle.recordFailure]
    split
    · exact List.subset_cons_self _ _
    · cases Dict.get? throttle.failures other with
      | none => exact hput _ _ _ Throttle.keys_evict_sublist.subset
      | some recent => exact hput _ _ _ (List.filter_sublist.map _).subset
  | recordSuccess other =>
    simp only [Throttle.apply, Throttle.recordSuccess]
    split
    · exact List.subset_cons_self _ _
    · exact List.Subset.trans (List.filter_sublist.map _).subset (List.subset_cons_self _ _)

/-- Only keys that were used have entries. -/
theorem keys_run_subset (calls : List Usage) :
    Dict.keys ((Throttle.new limit window).run calls).failures ⊆ calls.map Usage.key := by
  induction calls using List.reverseRecOn with
  | nil => exact List.nil_subset _
  | append_singleton calls call ih =>
    rw [run_append, List.map_append]
    intro k hk
    rcases List.mem_cons.mp (keys_apply_subset _ call hk) with rfl | hk
    · simp
    · exact List.mem_append_left _ (ih hk)

/-- Few keys in use leave room in the table. -/
theorem length_run_lt (limit window : ℕ) (hkeys : (calls.map Usage.key).dedup.length < maxEntries) :
    ((Throttle.new limit window).run calls).failures.length < maxEntries := by
  have hsub : Dict.keys ((Throttle.new limit window).run calls).failures ⊆ (calls.map Usage.key).dedup :=
    fun k hk => List.mem_dedup.mpr (keys_run_subset calls hk)
  have hle := (List.subperm_of_subset (nodup_run_new limit window calls) hsub).length_le
  rw [Dict.keys, List.length_map] at hle
  exact hle.trans_lt hkeys

/-- Fewer calls use fewer keys. -/
theorem length_dedup_append (keys more : List String) : keys.dedup.length ≤ (keys ++ more).dedup.length :=
  (List.subperm_of_subset keys.nodup_dedup fun k hk => by simp [List.mem_dedup.mp hk]).length_le

/-- The failures that come after an instant, among those that come after an earlier one. -/
theorem dropExpired_filter {throttle : Throttle} {times : List ℚ} (h : times.Pairwise (· ≤ ·)) {after : ℚ}
    (hafter : after ≤ now - throttle.window) :
    throttle.dropExpired (times.filter (after < ·)) now = times.filter (now - throttle.window < ·) := by
  rw [Throttle.dropExpired, dropWhile_le_eq_filter (h.sublist List.filter_sublist), List.filter_filter]
  apply List.filter_congr
  intro t _
  have himp : now - throttle.window < t → after < t := hafter.trans_lt
  simpa using himp

/-- While the table has room, a key loses no failure that can still count. -/
theorem kept_run_eq (key : String) (hlimit : 1 ≤ limit) (hwindow : 0 < window) (hclock : Clocked calls)
    (hnow : ∀ t ∈ calls.filterMap Usage.time?, t ≤ now) (hkeys : (calls.map Usage.key).dedup.length < maxEntries) :
    ∃ after ≤ now - window,
      ((Throttle.new limit window).run calls).failures.kept key = (failuresSince key calls).filter (after < ·) := by
  have henabled : (Throttle.new limit window).enabled = true := decide_eq_true hlimit
  induction calls using List.reverseRecOn generalizing now with
  | nil => exact ⟨now - window, le_rfl, rfl⟩
  | append_singleton calls call ih =>
    have hon := enabled_run henabled calls
    have hconfig := (run_config (Throttle.new limit window) calls).2
    have hfew : (calls.map Usage.key).dedup.length < maxEntries := by
      rw [List.map_append] at hkeys
      exact (length_dedup_append _ _).trans_lt hkeys
    have hroom := length_run_lt limit window hfew
    unfold Clocked at hclock
    rw [List.filterMap_append, List.pairwise_append] at hclock
    obtain ⟨hcalls, -, hlast⟩ := hclock
    have hsorted := hcalls.sublist (failuresSince_sublist key calls)
    rw [run_append, failuresSince_append]
    -- What the earlier calls left is known up to the reading of the last one.
    have hearlier : ∀ t, call.time? = some t → t ≤ now ∧ ∃ after ≤ t - window,
        ((Throttle.new limit window).run calls).failures.kept key = (failuresSince key calls).filter (after < ·) := by
      intro t ht
      exact ⟨hnow t (by simp [ht]), ih hcalls (fun t' ht' => hlast t' ht' t (by simp [ht])) hfew⟩
    by_cases hkey : call.key = key
    · cases call with
      | retryAfter other t =>
        obtain rfl : other = key := hkey
        obtain ⟨hle, after, hafter, heq⟩ := hearlier t rfl
        refine ⟨t - window, by linarith, ?_⟩
        rw [Throttle.apply, Throttle.kept_retryAfter hon, heq, dropExpired_filter hsorted (by rwa [hconfig]), hconfig]
        rfl
      | recordFailure other t =>
        obtain rfl : other = key := hkey
        obtain ⟨hle, after, hafter, heq⟩ := hearlier t rfl
        have hpos : (0 : ℚ) < window := by exact_mod_cast hwindow
        refine ⟨t - window, by linarith, ?_⟩
        rw [Throttle.apply, Throttle.kept_recordFailure hon, heq, dropExpired_filter hsorted (by rwa [hconfig]), hconfig,
          Usage.note, if_pos rfl, List.filter_append, List.filter_cons_of_pos (by simpa using hpos)]
        rfl
      | recordSuccess other =>
        obtain rfl : other = key := hkey
        refine ⟨now - window, le_rfl, ?_⟩
        simp [Throttle.apply, Throttle.recordSuccess, hon, kept, Dict.get?_del, Usage.note]
    · rw [kept_apply_of_ne hkey hroom]
      have hnote : call.note key (failuresSince key calls) = failuresSince key calls := by
        cases call <;> simp_all [Usage.note, Usage.key]
      rw [hnote]
      exact ih hcalls (fun t ht => hnow t (by simp [ht])) hfew

/-! ### Checks -/

/-- With room in the table, a check is positive exactly when the window that ends now has seen as
many failures since the last success as the limit; and the table never outgrows its bound. -/
theorem slidingWindow_exact :
    (∀ (limit window : ℕ) (calls : List Usage) (key : String) (now : ℚ), 1 ≤ limit → 0 < window →
      Clocked (calls ++ [.retryAfter key now]) → (calls.map Usage.key).dedup.length < maxEntries →
        (0 < (((Throttle.new limit window).run calls).retryAfter key now).1 ↔
          limit ≤ ((failuresSince key calls).filter fun t => now - window < t ∧ t ≤ now).length)) ∧
    ∀ (limit window : ℕ) (calls : List Usage),
      ((Throttle.new limit window).run calls).failures.length ≤ maxEntries := by
  refine ⟨fun limit window calls key now hlimit hwindow hclock hkeys => ?_, fun limit window => length_run_le⟩
  unfold Clocked at hclock
  rw [List.filterMap_append, List.pairwise_append] at hclock
  obtain ⟨hcalls, -, hlast⟩ := hclock
  have hnow : ∀ t ∈ calls.filterMap Usage.time?, t ≤ now := fun t ht => hlast t ht now (by simp [Usage.time?])
  have hconfig := run_config (Throttle.new limit window) calls
  obtain ⟨after, hafter, hkept⟩ := kept_run_eq key hlimit hwindow hcalls hnow hkeys
  have hsorted := hcalls.sublist (failuresSince_sublist key calls)
  rw [Throttle.retryAfter_pos_iff (by rwa [hconfig.1]), hkept, dropExpired_filter hsorted (by rwa [hconfig.2]),
    hconfig.1, hconfig.2]
  have hfilter : (failuresSince key calls).filter (fun t => now - window < t ∧ t ≤ now) =
      (failuresSince key calls).filter (now - (window : ℚ) < ·) := by
    apply List.filter_congr
    intro t ht
    have hle := hnow t ((failuresSince_sublist key calls).subset ht)
    simp [hle]
  rw [hfilter]
  rfl

end Runs

end FxaLite.Accounts
