import FxaLite.Lib.Script

/-!
# Programs that rely on each other

Between two statements of a program others change the state, but not in every way. What a program
relies on is a relation of an earlier state to a later one. It may rely on it if every statement of
every program, its own included, makes such a change; a result that stays right under such changes is
then right at the end of every run.
-/

namespace Concurrent

open Reactive

variable {σ ρ ρ' ε : Type*} {R : σ → σ → Prop}

namespace Script

/-- From some state on every statement of the program makes a change that is relied on, and its result is
right for the state it ends in, whatever such changes others make in between. -/
def Relies (R : σ → σ → Prop) (Q : σ → ρ → Prop) : Script σ ρ → σ → Prop
  | .done result, s => Q s result
  | .stmt effect next, s => ∀ s', R s s' → R s' (effect s') ∧ (next s').Relies R Q (effect s')

/-- What others do meanwhile is relied on. -/
theorem Relies.mono {Q : σ → ρ → Prop} {script : Script σ ρ} {s s' : σ} (h : script.Relies R Q s)
    (htrans : ∀ {a b c}, R a b → R b c → R a c) (hstable : ∀ {a b result}, R a b → Q a result → Q b result) (hchange : R s s') :
    script.Relies R Q s' := by
  cases script with
  | done result => exact hstable hchange h
  | stmt effect next => exact fun s'' hlater => h s'' (htrans hchange hlater)

/-- A program that nobody disturbs has a result that is right for the state it ends in. -/
theorem Relies.exec {Q : σ → ρ → Prop} {script : Script σ ρ} {s : σ} (hrefl : ∀ a, R a a) (h : script.Relies R Q s) :
    Q (script.exec s).2 (script.exec s).1 := by
  induction script generalizing s with
  | done result => exact h
  | stmt effect next ih => exact ih s (h s (hrefl s)).2

/-- A program that begins by reading, after every reading. -/
theorem Relies.read {Q : σ → ρ → Prop} {next : σ → Script σ ρ} {s : σ} (hrefl : ∀ a, R a a)
    (h : ∀ s', R s s' → (next s').Relies R Q s') : (Script.read next).Relies R Q s := fun s' hs' => ⟨hrefl s', h s' hs'⟩

/-- One program after another. -/
theorem Relies.bind {Q : σ → ρ → Prop} {Q' : σ → ρ' → Prop} {script : Script σ ρ} {f : ρ → Script σ ρ'} {s : σ}
    (h : script.Relies R Q s) (hf : ∀ result s', Q s' result → (f result).Relies R Q' s') : (script.bind f).Relies R Q' s := by
  induction script generalizing s with
  | done result => exact hf result s h
  | stmt effect next ih =>
    intro s' hs'
    obtain ⟨hchange, hnext⟩ := h s' hs'
    exact ⟨hchange, ih s' hnext⟩

end Script

namespace Threads

variable {ι : Type*} [DecidableEq ι]

/-- The run rule: what all programs rely on relates the beginning of a run to its end, and whoever is over then has a
result that is right for the state at the end. -/
theorem finished_of_relies {t : Threads ι σ ρ} {Q : ι → σ → ρ → Prop} (hrefl : ∀ a, R a a)
    (htrans : ∀ {a b c}, R a b → R b c → R a c) (hstable : ∀ {i a b result}, R a b → Q i a result → Q i b result)
    (h : ∀ i, (t.script i).Relies R (Q i) t.state) (schedule : List ι) :
    R t.state ((machine ι σ ρ).run t schedule).state ∧
      ∀ i result, ((machine ι σ ρ).run t schedule).Finished i result → Q i ((machine ι σ ρ).run t schedule).state result := by
  have hstep : ∀ (t' : Threads ι σ ρ) (i : ι), (R t.state t'.state ∧ ∀ j, (t'.script j).Relies R (Q j) t'.state) → True →
      R t.state (t'.advance i).state ∧ ∀ j, ((t'.advance i).script j).Relies R (Q j) (t'.advance i).state := by
    intro t' i hkept _
    cases hscript : t'.script i with
    | done result => rwa [advance_of_done hscript]
    | stmt effect next =>
      have hthis := hkept.2 i
      rw [hscript] at hthis
      obtain ⟨hchange, hnext⟩ := hthis t'.state (hrefl _)
      have hstate : (t'.advance i).state = effect t'.state := by rw [advance_of_stmt hscript]
      rw [hstate]
      refine ⟨htrans hkept.1 hchange, fun j => ?_⟩
      by_cases hji : j = i
      · rw [hji, advance_self hscript]
        exact hnext
      · rw [advance_script_of_ne hji]
        exact (hkept.2 j).mono htrans hstable hchange
  obtain ⟨hstate, hscripts⟩ : R t.state ((machine ι σ ρ).run t schedule).state ∧
      ∀ j, (((machine ι σ ρ).run t schedule).script j).Relies R (Q j) ((machine ι σ ρ).run t schedule).state :=
    (machine ι σ ρ).run_of_step hstep ⟨hrefl _, h⟩ ((machine ι σ ρ).along_true)
  refine ⟨hstate, fun i result hfinished => ?_⟩
  have hlast := hscripts i
  rwa [hfinished] at hlast

end Threads

end Concurrent
