import Mathlib.Data.Nat.Basic
import Mathlib.Data.List.Basic

/-!
# Machines driven by timed inputs

A deterministic machine takes one input at a time and answers each. Inputs carry a time, and
in a run the times never go back. The rules here reduce a statement about every run to one
about a single step: an invariant that may mention the clock is kept by a run if each step
keeps it, and two machines answer a run alike if one step of a simulation relates them.
-/

namespace Reactive

/-- A deterministic machine: an input takes a state to the next one and is answered. -/
structure Machine (σ ι ο : Type*) where
  step : σ → ι → σ × ο

namespace Machine

variable {σ σ' ι ο : Type*}

/-- The state after a list of inputs. -/
def run (m : Machine σ ι ο) : σ → List ι → σ
  | s, [] => s
  | s, i :: rest => m.run (m.step s i).1 rest

/-- The answers to a list of inputs. -/
def outputs (m : Machine σ ι ο) : σ → List ι → List ο
  | _, [] => []
  | s, i :: rest => (m.step s i).2 :: m.outputs (m.step s i).1 rest

/-- Every step of the run meets a condition on the state before it and its input. -/
def Along (m : Machine σ ι ο) (ok : σ → ι → Prop) : σ → List ι → Prop
  | _, [] => True
  | s, i :: rest => ok s i ∧ m.Along ok (m.step s i).1 rest

/-- Some step of the run meets a condition on the state before it and its input. -/
def Sometime (m : Machine σ ι ο) (ev : σ → ι → Prop) : σ → List ι → Prop
  | _, [] => False
  | s, i :: rest => ev s i ∨ m.Sometime ev (m.step s i).1 rest

@[simp] theorem run_nil (m : Machine σ ι ο) (s : σ) : m.run s [] = s := rfl

@[simp] theorem run_cons (m : Machine σ ι ο) (s : σ) (i : ι) (rest : List ι) :
    m.run s (i :: rest) = m.run (m.step s i).1 rest := rfl

/-- A run goes on from where its first part ended. -/
theorem run_append (m : Machine σ ι ο) (s : σ) (is js : List ι) :
    m.run s (is ++ js) = m.run (m.run s is) js := by
  induction is generalizing s with
  | nil => rfl
  | cons i rest ih => exact ih _

/-- A condition on the inputs alone holds along every run of them. -/
theorem along_of_forall (m : Machine σ ι ο) {ok : ι → Prop} {s : σ} {is : List ι}
    (h : ∀ i ∈ is, ok i) : m.Along (fun _ => ok) s is := by
  induction is generalizing s with
  | nil => trivial
  | cons i rest ih => exact ⟨h i (by simp), ih fun j hj => h j (by simp [hj])⟩

/-- Every run meets no condition at all. -/
theorem along_true (m : Machine σ ι ο) {s : σ} {is : List ι} : m.Along (fun _ _ => True) s is :=
  m.along_of_forall fun _ _ => trivial

/-- A weaker condition holds along the same run. -/
theorem Along.imp {m : Machine σ ι ο} {ok ok' : σ → ι → Prop} (himp : ∀ s i, ok s i → ok' s i)
    {s : σ} {is : List ι} (h : m.Along ok s is) : m.Along ok' s is := by
  induction is generalizing s with
  | nil => trivial
  | cons i rest ih => exact ⟨himp _ _ h.1, ih h.2⟩

/-- What holds along a run holds along both its parts. -/
theorem along_append {m : Machine σ ι ο} {ok : σ → ι → Prop} {s : σ} {is js : List ι} :
    m.Along ok s (is ++ js) ↔ m.Along ok s is ∧ m.Along ok (m.run s is) js := by
  induction is generalizing s with
  | nil => simp [Along]
  | cons i rest ih => simp [Along, ih, and_assoc]

/-- The run rule without a clock: what every step keeps, a run keeps. -/
theorem run_of_step (m : Machine σ ι ο) {P : σ → Prop} {ok : σ → ι → Prop}
    (hstep : ∀ s i, P s → ok s i → P (m.step s i).1) {s : σ} {is : List ι} (h : P s) (hok : m.Along ok s is) :
    P (m.run s is) := by
  induction is generalizing s with
  | nil => exact h
  | cons i rest ih => exact ih (hstep s i h hok.1) hok.2

/-- What holds after a run held before it and was not ended, or was started in it and not ended since. -/
theorem run_iff_since (m : Machine σ ι ο) {I P : σ → Prop} {starts ends : σ → ι → Prop}
    (hkeeps : ∀ s i, I s → I (m.step s i).1) (hstep : ∀ s i, I s → (P (m.step s i).1 ↔ (P s ∧ ¬ends s i) ∨ starts s i))
    {s : σ} (h : I s) (is : List ι) :
    P (m.run s is) ↔ (P s ∧ ¬m.Sometime ends s is) ∨
      ∃ earlier i later, is = earlier ++ i :: later ∧ starts (m.run s earlier) i ∧
        ¬m.Sometime ends (m.run s (earlier ++ [i])) later := by
  induction is generalizing s with
  | nil => simp [Sometime]
  | cons i rest ih =>
    rw [run_cons, ih (hkeeps s i h), hstep s i h]
    simp only [Sometime, not_or]
    constructor
    · rintro (⟨⟨hp, hi⟩ | hstarts, hrest⟩ | ⟨earlier, j, later, rfl, hstarts, hlater⟩)
      · exact Or.inl ⟨hp, hi, hrest⟩
      · exact Or.inr ⟨[], i, rest, rfl, hstarts, hrest⟩
      · exact Or.inr ⟨i :: earlier, j, later, rfl, hstarts, hlater⟩
    · rintro (⟨hp, hi, hrest⟩ | ⟨earlier, j, later, hsplit, hstarts, hlater⟩)
      · exact Or.inl ⟨Or.inl ⟨hp, hi⟩, hrest⟩
      · cases earlier with
        | nil =>
          cases hsplit
          exact Or.inl ⟨Or.inr hstarts, hlater⟩
        | cons head earlier =>
          cases hsplit
          exact Or.inr ⟨earlier, j, later, rfl, hstarts, hlater⟩

/-- What a run comes to was there at its start, or was brought in by one of its steps. -/
theorem exists_step_of_run (m : Machine σ ι ο) {P : σ → Prop} {brings : σ → ι → Prop}
    (hstep : ∀ s i, P (m.step s i).1 → P s ∨ brings s i) {s : σ} {is : List ι} (h : P (m.run s is)) :
    P s ∨ ∃ earlier i later, is = earlier ++ i :: later ∧ brings (m.run s earlier) i := by
  induction is generalizing s with
  | nil => exact Or.inl h
  | cons i rest ih =>
    obtain hnext | ⟨earlier, j, later, hrest, hbrings⟩ := ih h
    · exact (hstep s i hnext).imp_right fun hbrings => ⟨[], i, rest, rfl, hbrings⟩
    · exact Or.inr ⟨i :: earlier, j, later, by rw [hrest, List.cons_append], hbrings⟩

/-- If steps on inputs and on what the inputs are called elsewhere answer alike, from related states to related
ones, so do runs. -/
theorem outputs_map_of_step {ι' : Type*} (m : Machine σ ι ο) (m' : Machine σ' ι' ο) {f : ι → ι'} {R : σ → σ' → Prop}
    (hstep : ∀ s s' i, R s s' → (m.step s i).2 = (m'.step s' (f i)).2 ∧ R (m.step s i).1 (m'.step s' (f i)).1)
    {s : σ} {s' : σ'} (h : R s s') (is : List ι) : m.outputs s is = m'.outputs s' (is.map f) := by
  induction is generalizing s s' with
  | nil => rfl
  | cons i rest ih =>
    obtain ⟨hout, hrel⟩ := hstep s s' i h
    rw [List.map_cons, outputs, outputs, hout, ih hrel]

/-- If a step keeps an invariant exactly when it meets a condition, a run keeps it throughout
exactly when all its steps do. -/
theorem forall_run_iff_along (m : Machine σ ι ο) {P : σ → Prop} {ok : σ → ι → Prop}
    (hstep : ∀ s i, P s → (P (m.step s i).1 ↔ ok s i)) {s : σ} {is : List ι} (h : P s) :
    (∀ n, P (m.run s (is.take n))) ↔ m.Along ok s is := by
  induction is generalizing s with
  | nil => simp [Along, h]
  | cons i rest ih =>
    constructor
    · intro hall
      have hnext : P (m.step s i).1 := hall 1
      exact ⟨(hstep s i h).mp hnext, (ih hnext).mp fun n => hall (n + 1)⟩
    · intro hok n
      have hnext : P (m.step s i).1 := (hstep s i h).mpr hok.1
      cases n with
      | zero => exact h
      | succ n => exact (ih hnext).mpr hok.2 n

end Machine

section Timed

variable {σ σ' ι ο : Type*} (time : ι → ℕ)

/-- The times of the inputs never go back, from a starting time on. -/
def Timed : ℕ → List ι → Prop
  | _, [] => True
  | t, i :: rest => t ≤ time i ∧ Timed (time i) rest

instance : (t : ℕ) → (is : List ι) → Decidable (Timed time t is)
  | _, [] => inferInstanceAs (Decidable True)
  | t, i :: rest =>
    have := instDecidableTimed (time i) rest
    inferInstanceAs (Decidable (t ≤ time i ∧ Timed time (time i) rest))

/-- What the clock showed last. -/
def lastTime : ℕ → List ι → ℕ
  | t, [] => t
  | _, i :: rest => lastTime (time i) rest

variable {time}

/-- The times of two consecutive parts. -/
theorem timed_append {t : ℕ} {is js : List ι} :
    Timed time t (is ++ js) ↔ Timed time t is ∧ Timed time (lastTime time t is) js := by
  induction is generalizing t with
  | nil => simp [Timed, lastTime]
  | cons i rest ih => simp [Timed, lastTime, ih, and_assoc]

/-- The clock has not gone back by the end of the run. -/
theorem le_lastTime {t : ℕ} {is : List ι} (h : Timed time t is) : t ≤ lastTime time t is := by
  induction is generalizing t with
  | nil => exact le_rfl
  | cons i rest ih => exact Nat.le_trans h.1 (ih h.2)

/-- The run rule: what every step keeps, a run keeps. -/
theorem Machine.run_invariant (m : Machine σ ι ο) {P : ℕ → σ → Prop} {ok : σ → ι → Prop}
    (hstep : ∀ t s i, P t s → t ≤ time i → ok s i → P (time i) (m.step s i).1)
    {t : ℕ} {s : σ} {is : List ι} (h : P t s) (htimed : Timed time t is) (hok : m.Along ok s is) :
    P (lastTime time t is) (m.run s is) := by
  induction is generalizing t s with
  | nil => exact h
  | cons i rest ih => exact ih (hstep t s i h htimed.1 hok.1) htimed.2 hok.2

end Timed

end Reactive
