import FxaLite.Lib.Script

/-!
# Tickets that are looked at before they are taken

A ticket lies in the shared state. A thread looks whether it is there, goes on with it in hand,
takes it away, and from then on may win. Looking and taking are two statements, and a thread that
takes does not ask whether the ticket was still there: two threads that have both looked both
win. If no thread looks while another has the ticket in hand, one thread at most ever gets to
take it.
-/

namespace Concurrent

open Reactive

/-- What a thread has to do with the ticket. -/
inductive Stage where
  | waiting
  | inHand
  | taken
  | lost
  deriving DecidableEq, Repr

/-- The thread has found the ticket, and has not given up. -/
def Stage.Holds : Stage → Prop
  | .inHand => True
  | .taken => True
  | _ => False

/-- From stage to stage by one statement, if the ticket is there before it, and after it. -/
inductive Stage.Moves (before after : Prop) : Stage → Stage → Prop
  | stay (stage : Stage) : Moves before after stage stage
  | miss : Moves before after .waiting .lost
  | find (there : before) : Moves before after .waiting .inHand
  | fail : Moves before after .inHand .lost
  | take (gone : ¬after) : Moves before after .inHand .taken

/-- A ticket in the state, and the scripts of the threads that are after it, by stage. No statement
brings the ticket back, and only who has taken it wins. -/
structure Ticket (σ ρ : Type*) where
  present : σ → Prop
  won : ρ → Prop
  inStage : Stage → Script σ ρ → Prop
  moves : ∀ {stage effect next}, inStage stage (.stmt effect next) → ∀ s,
    (present (effect s) → present s) ∧
      ∃ stage', Stage.Moves (present s) (present (effect s)) stage stage' ∧ inStage stage' (next s)
  wins : ∀ {stage result}, inStage stage (.done result) → won result → stage = .taken

namespace Ticket

variable {ι σ ρ : Type*} (k : Ticket σ ρ)

/-- Each thread is in some stage; one at most holds the ticket, and once it is taken it is gone. -/
structure Held (t : Threads ι σ ρ) (stage : ι → Stage) : Prop where
  stages : ∀ i, k.inStage (stage i) (t.script i)
  one : ∀ i j, (stage i).Holds → (stage j).Holds → i = j
  gone : ∀ i, stage i = .taken → ¬k.present t.state

/-- Before anyone has looked, nobody holds the ticket. -/
theorem held_of_waiting {t : Threads ι σ ρ} (h : ∀ i, k.inStage .waiting (t.script i)) :
    k.Held t fun _ => .waiting where
  stages := h
  one _ _ hi _ := hi.elim
  gone _ hi := nomatch hi

/-- One thread at most wins. -/
theorem Held.one_winner {k : Ticket σ ρ} {t : Threads ι σ ρ} {stage : ι → Stage} (held : k.Held t stage) {i j : ι}
    {result result' : ρ} (hi : t.Finished i result) (hj : t.Finished j result') (hwon : k.won result)
    (hwon' : k.won result') : i = j := by
  have hstage : ∀ {l r}, t.Finished l r → k.won r → stage l = .taken := fun hl hr =>
    k.wins (hl ▸ held.stages _) hr
  exact held.one i j (hstage hi hwon ▸ trivial) (hstage hj hwon' ▸ trivial)

/-- Once one has won, the ticket is gone. -/
theorem Held.gone_of_won {k : Ticket σ ρ} {t : Threads ι σ ρ} {stage : ι → Stage} (held : k.Held t stage) {i : ι}
    {result : ρ} (hi : t.Finished i result) (hwon : k.won result) : ¬k.present t.state :=
  held.gone i (k.wins (hi ▸ held.stages i) hwon)

variable [DecidableEq ι]

/-- A thread does not find the ticket while another has it in hand. -/
def Exclusive (t : Threads ι σ ρ) (i : ι) : Prop :=
  k.inStage .waiting (t.script i) → k.inStage .inHand ((t.advance i).script i) →
    ∀ j, j ≠ i → ¬k.inStage .inHand (t.script j)

/-- The step lemma: a thread that finds the ticket while nobody has it in hand is its one holder. -/
theorem held_advance {t : Threads ι σ ρ} {stage : ι → Stage} (held : k.Held t stage) {i : ι}
    (hexclusive : k.Exclusive t i) : ∃ stage', k.Held (t.advance i) stage' := by
  cases hscript : t.script i with
  | done result => exact ⟨stage, (Threads.advance_of_done hscript).symm ▸ held⟩
  | stmt effect next =>
    obtain ⟨hkeeps, stage', hmoves, hnext⟩ := k.moves (hscript ▸ held.stages i) t.state
    have hself : (t.advance i).script i = next t.state := Threads.advance_self hscript
    have hstate : (t.advance i).state = effect t.state := by rw [Threads.advance_of_stmt hscript]
    -- whoever else holds the ticket kept this thread from finding it
    have halone : stage'.Holds → ∀ j, j ≠ i → ¬(stage j).Holds := by
      intro hholds j hj hother
      generalize hbefore : stage i = before at hmoves
      cases hmoves with
      | stay => exact hj (held.one j i hother (hbefore ▸ hholds))
      | miss => exact hholds
      | find there =>
        cases hstage : stage j with
        | inHand =>
          exact hexclusive (hbefore ▸ held.stages i) (hself ▸ hnext) j hj (hstage ▸ held.stages j)
        | taken => exact held.gone j hstage there
        | waiting => exact (hstage ▸ hother : Stage.waiting.Holds)
        | lost => exact (hstage ▸ hother : Stage.lost.Holds)
      | fail => exact hholds
      | take gone => exact hj (held.one j i hother (hbefore ▸ trivial))
    refine ⟨Function.update stage i stage', fun j => ?_, fun j l hj hl => ?_, fun j hj => ?_⟩
    · by_cases hji : j = i
      · subst hji
        rw [Function.update_self, hself]
        exact hnext
      · rw [Function.update_of_ne hji, Threads.advance_script_of_ne hji]
        exact held.stages j
    · by_cases hji : j = i <;> by_cases hli : l = i
      · exact hji.trans hli.symm
      · rw [hji, Function.update_self] at hj
        rw [Function.update_of_ne hli] at hl
        exact absurd hl (halone hj l hli)
      · rw [hli, Function.update_self] at hl
        rw [Function.update_of_ne hji] at hj
        exact absurd hj (halone hl j hji)
      · rw [Function.update_of_ne hji] at hj
        rw [Function.update_of_ne hli] at hl
        exact held.one j l hj hl
    · rw [hstate]
      by_cases hji : j = i
      · rw [hji, Function.update_self] at hj
        subst hj
        generalize hbefore : stage i = before at hmoves
        cases hmoves with
        | stay => exact fun hafter => held.gone i hbefore (hkeeps hafter)
        | take gone => exact gone
      · rw [Function.update_of_ne hji] at hj
        exact fun hafter => held.gone j hj (hkeeps hafter)

/-- The run lemma: in a run in which no thread finds the ticket while another has it in hand, one
thread at most holds it. -/
theorem held_of_run {t : Threads ι σ ρ} (hstart : ∀ i, k.inStage .waiting (t.script i)) {schedule : List ι}
    (hexclusive : (Threads.machine ι σ ρ).Along k.Exclusive t schedule) :
    ∃ stage, k.Held ((Threads.machine ι σ ρ).run t schedule) stage := by
  refine (Threads.machine ι σ ρ).run_of_step (P := fun t => ∃ stage, k.Held t stage) ?_
    ⟨_, k.held_of_waiting hstart⟩ hexclusive
  intro t i hheld hok
  obtain ⟨stage, held⟩ := hheld
  exact k.held_advance held hok

end Ticket

end Concurrent
