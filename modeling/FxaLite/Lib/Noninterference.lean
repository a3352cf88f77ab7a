import FxaLite.Lib.Script
import Mathlib.Data.List.Forall2

/-!
# Noninterference

A machine that serves several parties keeps them apart if each gets the answers it would get
alone, had no other party ever been served. This is a statement about two runs: the whole one,
and the one from which the inputs of the others are purged. It is reduced to single steps by a
relation between the states of the two runs: an input of the party leads from related states to
related states, and one of another party leads the whole run to a state that is still related.
Where the answers agree only on a condition, the rule says that they agree throughout exactly
when the condition holds throughout. For parties whose programs run side by side, each statement
of a program takes the place of a step.
-/

namespace Reactive

namespace Machine

variable {σ ι ο : Type*} (m : Machine σ ι ο) (own : ι → Bool)

/-- The answers that a run gives to the inputs of one party. -/
def answers : σ → List ι → List ο
  | _, [] => []
  | s, i :: rest =>
    if own i then (m.step s i).2 :: answers (m.step s i).1 rest else answers (m.step s i).1 rest

/-- In a run and, beside it, the run of the party's inputs alone, each input of the party meets
a condition on the states that the two runs have come to. -/
def Beside (ok : σ → σ → ι → Prop) : σ → σ → List ι → Prop
  | _, _, [] => True
  | s, s', i :: rest =>
    if own i then ok s s' i ∧ Beside ok (m.step s i).1 (m.step s' i).1 rest else Beside ok (m.step s i).1 s' rest

variable {m own}

/-- The unwinding rule. -/
theorem answers_iff_beside {R : σ → σ → Prop} {alike : ο → ο → Prop} {ok : σ → σ → ι → Prop}
    (hown : ∀ s s' i, R s s' → own i = true →
      R (m.step s i).1 (m.step s' i).1 ∧ (alike (m.step s i).2 (m.step s' i).2 ↔ ok s s' i))
    (hother : ∀ s s' i, R s s' → own i = false → R (m.step s i).1 s')
    {s s' : σ} (h : R s s') (is : List ι) :
    List.Forall₂ alike (m.answers own s is) (m.outputs s' (is.filter own)) ↔ m.Beside own ok s s' is := by
  induction is generalizing s s' with
  | nil => simp [answers, outputs, Beside]
  | cons i rest ih =>
    cases hi : own i with
    | true =>
      obtain ⟨hnext, halike⟩ := hown s s' i h hi
      rw [List.filter_cons_of_pos hi]
      simp only [answers, outputs, Beside, hi, if_true, List.forall₂_cons, halike, ih hnext]
    | false =>
      have hnext : R (m.step s i).1 s' := hother s s' i h hi
      rw [List.filter_cons_of_neg (by simp [hi])]
      simp only [answers, Beside, hi, Bool.false_eq_true, if_false, ih hnext]

end Machine

end Reactive

namespace Concurrent

open Reactive

namespace Script

variable {σ σ' ρ ρ' ε : Type*} {R : σ → σ' → Prop}

/-- Two programs that go on alike from related states, and end with the same result, which has a property. -/
def Paired (R : σ → σ' → Prop) (Q : ρ → Prop) : Script σ ρ → Script σ' ρ → Prop
  | .done result, .done result' => result = result' ∧ Q result
  | .stmt effect next, .stmt effect' next' =>
    ∀ s s', R s s' → R (effect s) (effect' s') ∧ Paired R Q (next s) (next' s')
  | _, _ => False

/-- What every such result has, the result has. -/
theorem Paired.imp {Q Q' : ρ → Prop} {script : Script σ ρ} {script' : Script σ' ρ} (h : script.Paired R Q script')
    (himp : ∀ result, Q result → Q' result) : script.Paired R Q' script' := by
  induction script generalizing script' with
  | done result =>
    cases script' with
    | done result' => exact ⟨h.1, himp result h.2⟩
    | stmt effect' next' => exact h.elim
  | stmt effect next ih =>
    cases script' with
    | done result' => exact h.elim
    | stmt effect' next' =>
      intro s s' hrel
      obtain ⟨heffect, hnext⟩ := h s s' hrel
      exact ⟨heffect, ih s hnext⟩

/-- Programs that read go on alike after related readings. -/
theorem Paired.read {Q : ρ → Prop} {next : σ → Script σ ρ} {next' : σ' → Script σ' ρ}
    (h : ∀ s s', R s s' → (next s).Paired R Q (next' s')) : (Script.read next).Paired R Q (Script.read next') :=
  fun s s' hrel => ⟨hrel, h s s' hrel⟩

/-- Programs that begin with statements keep their states related if both the statements and the rest do. -/
theorem Paired.act {Q : ρ → Prop} {effect : σ → σ} {effect' : σ' → σ'} {next : Script σ ρ} {next' : Script σ' ρ}
    (heffect : ∀ s s', R s s' → R (effect s) (effect' s')) (hnext : next.Paired R Q next') :
    (Script.act effect next).Paired R Q (Script.act effect' next') := fun s s' hrel => ⟨heffect s s' hrel, hnext⟩

/-- Statements on a condition do if the condition is the same, and they do where it holds. -/
theorem Paired.guarded {Q : ρ → Prop} {ok : σ → Bool} {ok' : σ' → Bool} {effect : σ → σ} {effect' : σ' → σ'} {yes no : ρ}
    (hok : ∀ s s', R s s' → ok s = ok' s') (heffect : ∀ s s', R s s' → ok s = true → R (effect s) (effect' s'))
    (hyes : Q yes) (hno : Q no) :
    (Script.stmt (fun s => if ok s then effect s else s) fun s => if ok s then done yes else done no).Paired R Q
      (Script.stmt (fun s => if ok' s then effect' s else s) fun s => if ok' s then done yes else done no) := by
  intro s s' hrel
  dsimp only
  rw [← hok s s' hrel]
  cases hs : ok s with
  | false => exact ⟨hrel, rfl, hno⟩
  | true => exact ⟨heffect s s' hrel hs, rfl, hyes⟩

/-- Programs branch alike on conditions that are the same. -/
theorem Paired.ite {Q : ρ → Prop} {p p' : Prop} [Decidable p] [Decidable p'] {yes no : Script σ ρ} {yes' no' : Script σ' ρ}
    (h : p ↔ p') (hyes : yes.Paired R Q yes') (hno : no.Paired R Q no') :
    (if p then yes else no).Paired R Q (if p' then yes' else no') := by
  by_cases hp : p
  · rw [if_pos hp, if_pos (h.mp hp)]
    exact hyes
  · rw [if_neg hp, if_neg (mt h.mpr hp)]
    exact hno

/-- Sequences go on alike. -/
theorem Paired.bind {Q : ρ → Prop} {Q' : ρ' → Prop} {script : Script σ ρ} {script' : Script σ' ρ} {f : ρ → Script σ ρ'}
    {f' : ρ → Script σ' ρ'} (h : script.Paired R Q script') (hf : ∀ result, Q result → (f result).Paired R Q' (f' result)) :
    (script.bind f).Paired R Q' (script'.bind f') := by
  induction script generalizing script' with
  | done result =>
    cases script' with
    | done result' =>
      obtain ⟨rfl, hresult⟩ := h
      exact hf result hresult
    | stmt effect' next' => exact h.elim
  | stmt effect next ih =>
    cases script' with
    | done result' => exact h.elim
    | stmt effect' next' =>
      intro s s' hrel
      obtain ⟨heffect, hnext⟩ := h s s' hrel
      exact ⟨heffect, ih s hnext⟩

/-- So do sequences that may end early. -/
theorem Paired.andThen {Q : ρ → Prop} {Q' : Except ε ρ' → Prop} {script : Script σ (Except ε ρ)} {script' : Script σ' (Except ε ρ)}
    {f : ρ → Script σ (Except ε ρ')} {f' : ρ → Script σ' (Except ε ρ')}
    (h : script.Paired R (fun result => ∀ value, result = .ok value → Q value) script') (hraised : ∀ raised, Q' (.error raised))
    (hf : ∀ value, Q value → (f value).Paired R Q' (f' value)) : (script.andThen f).Paired R Q' (script'.andThen f') := by
  refine h.bind fun result hresult => ?_
  cases result with
  | error raised => exact ⟨rfl, hraised raised⟩
  | ok value => exact hf value (hresult value rfl)

/-- Every statement the program can come to leaves a state related to what it was related to. -/
def Leaves (R : σ → σ' → Prop) : Script σ ρ → Prop
  | .done _ => True
  | .stmt effect next => ∀ s s', R s s' → R (effect s) s' ∧ (next s).Leaves R

/-- A program does if its changes do. -/
theorem Makes.leaves {P : σ → Prop} {A : σ → σ → Prop} {script : Script σ ρ} (h : script.Makes P A) (hP : ∀ s s', R s s' → P s)
    (hA : ∀ s t s', A s t → R s s' → R t s') : script.Leaves R := by
  induction script with
  | done result => trivial
  | stmt effect next ih =>
    intro s s' hrel
    obtain ⟨hsame | hchange, hnext⟩ := h s (hP s s' hrel)
    · exact ⟨hsame.symm ▸ hrel, ih s hnext⟩
    · exact ⟨hA s _ s' hchange hrel, ih s hnext⟩

end Script

namespace Threads

variable {ι σ σ' ρ : Type*} [DecidableEq ι] {R : σ → σ' → Prop} {Q : ρ → Prop}

/-- Paired threads take a step side by side. -/
theorem advance_of_paired {t : Threads ι σ ρ} {t' : Threads ι σ' ρ} {i : ι} (hstate : R t.state t'.state)
    (h : (t.script i).Paired R Q (t'.script i)) :
    R (t.advance i).state (t'.advance i).state ∧ ((t.advance i).script i).Paired R Q ((t'.advance i).script i) := by
  cases hscript : t.script i with
  | done result =>
    cases hscript' : t'.script i with
    | done result' =>
      rw [advance_of_done hscript, advance_of_done hscript']
      exact ⟨hstate, h⟩
    | stmt effect' next' =>
      rw [hscript, hscript'] at h
      exact h.elim
  | stmt effect next =>
    cases hscript' : t'.script i with
    | done result' =>
      rw [hscript, hscript'] at h
      exact h.elim
    | stmt effect' next' =>
      rw [hscript, hscript'] at h
      obtain ⟨heffect, hnext⟩ := h t.state t'.state hstate
      rw [advance_self hscript, advance_self hscript', advance_of_stmt hscript, advance_of_stmt hscript']
      exact ⟨heffect, hnext⟩

/-- A thread that leaves its state related takes a step that does. -/
theorem advance_of_leaves {t : Threads ι σ ρ} {i : ι} {s' : σ'} (hstate : R t.state s') (h : (t.script i).Leaves R) :
    R (t.advance i).state s' ∧ ((t.advance i).script i).Leaves R := by
  cases hscript : t.script i with
  | done result =>
    rw [advance_of_done hscript]
    exact ⟨hstate, h⟩
  | stmt effect next =>
    rw [hscript] at h
    obtain ⟨heffect, hnext⟩ := h t.state s' hstate
    rw [advance_self hscript, advance_of_stmt hscript]
    exact ⟨heffect, hnext⟩

/-- The unwinding rule for programs: beside a run, the run of one party's threads alone, which are scheduled
as they are there, keeps its state related, and each of the threads goes on alike. -/
theorem run_of_paired {t : Threads ι σ ρ} {t' : Threads ι σ' ρ} {own : ι → Bool} (hstate : R t.state t'.state)
    (hown : ∀ i, own i = true → (t.script i).Paired R Q (t'.script i)) (hother : ∀ i, own i = false → (t.script i).Leaves R)
    (schedule : List ι) :
    R ((machine ι σ ρ).run t schedule).state ((machine ι σ' ρ).run t' (schedule.filter own)).state ∧
      ∀ i, own i = true → (((machine ι σ ρ).run t schedule).script i).Paired R Q
        (((machine ι σ' ρ).run t' (schedule.filter own)).script i) := by
  induction schedule generalizing t t' with
  | nil => exact ⟨hstate, hown⟩
  | cons i rest ih =>
    have hne : ∀ {j j'}, own j = true → own j' = false → j ≠ j' := by
      rintro j _ hj hj' rfl
      rw [hj] at hj'
      cases hj'
    cases hi : own i with
    | true =>
      obtain ⟨hnext, hpaired⟩ := advance_of_paired hstate (hown i hi)
      rw [List.filter_cons_of_pos hi]
      refine @ih (t.advance i) (t'.advance i) hnext (fun j hj => ?_) fun j hj => ?_
      · by_cases hji : j = i
        · exact hji ▸ hpaired
        · rw [advance_script_of_ne hji, advance_script_of_ne hji]
          exact hown j hj
      · rw [advance_script_of_ne (hne hi hj).symm]
        exact hother j hj
    | false =>
      obtain ⟨hnext, hleaves⟩ := advance_of_leaves hstate (hother i hi)
      rw [List.filter_cons_of_neg (by simp [hi])]
      refine @ih (t.advance i) t' hnext (fun j hj => ?_) fun j hj => ?_
      · rw [advance_script_of_ne (hne hj hi)]
        exact hown j hj
      · by_cases hji : j = i
        · exact hji ▸ hleaves
        · rw [advance_script_of_ne hji]
          exact hother j hj

omit [DecidableEq ι] in
/-- Threads that go on alike come to an end alike. -/
theorem finished_iff_of_paired {t : Threads ι σ ρ} {t' : Threads ι σ' ρ} {i : ι} (h : (t.script i).Paired R Q (t'.script i))
    (result : ρ) : t.Finished i result ↔ t'.Finished i result := by
  unfold Finished
  cases hscript : t.script i with
  | done first =>
    cases hscript' : t'.script i with
    | done second =>
      rw [hscript, hscript'] at h
      rw [h.1, Script.done.injEq, Script.done.injEq]
    | stmt effect next =>
      rw [hscript, hscript'] at h
      exact h.elim
  | stmt effect next =>
    cases hscript' : t'.script i with
    | done second =>
      rw [hscript, hscript'] at h
      exact h.elim
    | stmt effect' next' => simp

end Threads

end Concurrent
