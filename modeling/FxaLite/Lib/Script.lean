import FxaLite.Lib.Machine
import Mathlib.Logic.Function.Basic

/-!
# Programs made of atomic statements

A handler that works on a shared database is a sequence of statements. Each is carried out at
once; between two of them the handler keeps what it has read, and others may act. Run alone, a
script is a function of the state; run with others, it is a thread that takes one statement at
a time, in the order a schedule says.
-/

namespace Concurrent

open Reactive

/-- A program that is over, or begins with a statement: what the statement does to the state, and
how the program goes on, given the state the statement met. -/
inductive Script (σ ρ : Type*) where
  | done (result : ρ)
  | stmt (effect : σ → σ) (next : σ → Script σ ρ)

namespace Script

variable {σ ρ ρ' ε : Type*}

/-- A statement that only reads. -/
def read (next : σ → Script σ ρ) : Script σ ρ := .stmt id next

/-- A statement whose result nobody looks at. -/
def act (effect : σ → σ) (next : Script σ ρ) : Script σ ρ := .stmt effect fun _ => next

/-- One program after another. -/
def bind : Script σ ρ → (ρ → Script σ ρ') → Script σ ρ'
  | .done result, f => f result
  | .stmt effect next, f => .stmt effect fun s => (next s).bind f

/-- One program after another, unless the first raises. -/
def andThen (script : Script σ (Except ε ρ)) (f : ρ → Script σ (Except ε ρ')) : Script σ (Except ε ρ') :=
  script.bind fun result =>
    match result with
    | .ok value => f value
    | .error raised => .done (.error raised)

/-- A program run alone: its result and the state it leaves. -/
def exec : Script σ ρ → σ → ρ × σ
  | .done result, s => (result, s)
  | .stmt effect next, s => (next s).exec (effect s)

@[simp] theorem andThen_read (next : σ → Script σ (Except ε ρ)) (f : ρ → Script σ (Except ε ρ')) :
    (read next).andThen f = read fun s => (next s).andThen f := rfl

@[simp] theorem andThen_act (effect : σ → σ) (next : Script σ (Except ε ρ)) (f : ρ → Script σ (Except ε ρ')) :
    (act effect next).andThen f = act effect (next.andThen f) := rfl

@[simp] theorem andThen_ok (value : ρ) (f : ρ → Script σ (Except ε ρ')) :
    (done (.ok value)).andThen f = f value := rfl

@[simp] theorem andThen_error (raised : ε) (f : ρ → Script σ (Except ε ρ')) :
    (done (.error raised)).andThen f = done (.error raised) := rfl

@[simp] theorem exec_done (result : ρ) (s : σ) : (done result : Script σ ρ).exec s = (result, s) := rfl

@[simp] theorem exec_stmt (effect : σ → σ) (next : σ → Script σ ρ) (s : σ) :
    (stmt effect next).exec s = (next s).exec (effect s) := rfl

@[simp] theorem exec_read (next : σ → Script σ ρ) (s : σ) : (read next).exec s = (next s).exec s := rfl

@[simp] theorem exec_act (effect : σ → σ) (next : Script σ ρ) (s : σ) :
    (act effect next).exec s = next.exec (effect s) := rfl

/-- Three programs in a row. -/
theorem bind_bind {ρ'' : Type*} (script : Script σ ρ) (f : ρ → Script σ ρ') (g : ρ' → Script σ ρ'') :
    (script.bind f).bind g = script.bind fun result => (f result).bind g := by
  induction script with
  | done result => rfl
  | stmt effect next ih => simp only [bind, ih]

/-- The second program starts where the first ended. -/
@[simp] theorem exec_bind (script : Script σ ρ) (f : ρ → Script σ ρ') (s : σ) :
    (script.bind f).exec s = (f (script.exec s).1).exec (script.exec s).2 := by
  induction script generalizing s with
  | done result => rfl
  | stmt effect next ih => exact ih s (effect s)

/-- A program that raises ends the sequence. -/
theorem exec_andThen_error {script : Script σ (Except ε ρ)} {f : ρ → Script σ (Except ε ρ')} {s s' : σ} {raised : ε}
    (h : script.exec s = (.error raised, s')) : (script.andThen f).exec s = (.error raised, s') := by
  rw [andThen, exec_bind, h]
  rfl

/-- Otherwise the sequence goes on with its value. -/
theorem exec_andThen_ok {script : Script σ (Except ε ρ)} {f : ρ → Script σ (Except ε ρ')} {s s' : σ} {value : ρ}
    (h : script.exec s = (.ok value, s')) : (script.andThen f).exec s = (f value).exec s' := by
  rw [andThen, exec_bind, h]

/-- After a program that leaves the state, the sequence goes on from there. -/
theorem exec_andThen_of_ok {script : Script σ (Except ε ρ)} {f : ρ → Script σ (Except ε ρ')} {s : σ} {value : ρ}
    (hreads : (script.exec s).2 = s) (h : (script.exec s).1 = .ok value) : (script.andThen f).exec s = (f value).exec s :=
  exec_andThen_ok (Prod.ext h hreads : script.exec s = (.ok value, s))

/-- Or ends there. -/
theorem exec_andThen_of_error {script : Script σ (Except ε ρ)} {f : ρ → Script σ (Except ε ρ')} {s : σ} {raised : ε}
    (hreads : (script.exec s).2 = s) (h : (script.exec s).1 = .error raised) : (script.andThen f).exec s = (.error raised, s) :=
  exec_andThen_error (Prod.ext h hreads : script.exec s = (.error raised, s))

/-- How a sequence ends well. -/
theorem exec_andThen_eq_ok {script : Script σ (Except ε ρ)} {f : ρ → Script σ (Except ε ρ')} {s s' : σ} {value : ρ'}
    (h : (script.andThen f).exec s = (.ok value, s')) :
    ∃ first middle, script.exec s = (.ok first, middle) ∧ (f first).exec middle = (.ok value, s') := by
  rw [andThen, exec_bind] at h
  cases hfirst : (script.exec s).1 with
  | error raised =>
    rw [hfirst] at h
    cases h
  | ok first =>
    rw [hfirst] at h
    exact ⟨first, (script.exec s).2, Prod.ext hfirst rfl, h⟩

/-- The state that a program leaves that is stopped after some statements. -/
def cut : Script σ ρ → ℕ → σ → σ
  | .done _, _, s => s
  | .stmt _ _, 0, s => s
  | .stmt effect next, n + 1, s => (next s).cut n (effect s)

/-- Every state that a program run alone passes has a property. -/
def Through (P : σ → Prop) : Script σ ρ → σ → Prop
  | .done _, s => P s
  | .stmt effect next, s => P s ∧ (next s).Through P (effect s)

/-- The last of them does. -/
theorem Through.exec {P : σ → Prop} {script : Script σ ρ} {s : σ} (h : script.Through P s) : P (script.exec s).2 := by
  induction script generalizing s with
  | done result => exact h
  | stmt effect next ih => exact ih s h.2

/-- So does the state that is left wherever the program is stopped. -/
theorem Through.cut {P : σ → Prop} {script : Script σ ρ} {s : σ} (h : script.Through P s) (n : ℕ) : P (script.cut n s) := by
  induction script generalizing s n with
  | done result => exact h
  | stmt effect next ih =>
    cases n with
    | zero => exact h.1
    | succ n => exact ih s h.2 n

/-- Every statement the program can come to keeps a property of the state. -/
def Keeps (P : σ → Prop) : Script σ ρ → Prop
  | .done _ => True
  | .stmt effect next => ∀ s, P s → P (effect s) ∧ (next s).Keeps P

/-- What every statement keeps, the program keeps. -/
theorem Keeps.exec {P : σ → Prop} {script : Script σ ρ} (h : script.Keeps P) {s : σ} (hs : P s) :
    P (script.exec s).2 := by
  induction script generalizing s with
  | done result => exact hs
  | stmt effect next ih =>
    obtain ⟨heffect, hnext⟩ := h s hs
    exact ih s hnext heffect

/-- From states with a property on, every statement the program can come to leaves the state, or makes a change that
is allowed. -/
def Makes (P : σ → Prop) (A : σ → σ → Prop) : Script σ ρ → Prop
  | .done _ => True
  | .stmt effect next => ∀ s, P s → (effect s = s ∨ A s (effect s)) ∧ (next s).Makes P A

section Makes

variable {P : σ → Prop} {A : σ → σ → Prop}

/-- What the changes keep, the program keeps. -/
theorem Makes.keeps {script : Script σ ρ} (h : script.Makes P A) (hkept : ∀ s s', P s → A s s' → P s') : script.Keeps P := by
  induction script with
  | done result => trivial
  | stmt effect next ih =>
    intro s hs
    obtain ⟨hsame | hchange, hnext⟩ := h s hs
    · exact ⟨hsame.symm ▸ hs, ih s hnext⟩
    · exact ⟨hkept s _ hs hchange, ih s hnext⟩

/-- A relation that every change is in, and that goes on over the next, a program run alone is in. -/
theorem Makes.exec_of_trans {A : σ → σ → Prop} {script : Script σ ρ} (h : script.Makes (fun _ => True) A) {s : σ} (hrefl : ∀ {a}, A a a)
    (htrans : ∀ {a b c}, A a b → A b c → A a c) : A s (script.exec s).2 := by
  induction script generalizing s with
  | done result => exact hrefl
  | stmt effect next ih =>
    obtain ⟨hsame | hchange, hnext⟩ := h s trivial
    · rw [exec_stmt, hsame]
      exact ih s hnext
    · exact htrans hchange (ih s hnext)

/-- A program that begins by reading makes the changes that it makes after every reading. -/
theorem Makes.read {next : σ → Script σ ρ} (h : ∀ s, P s → (next s).Makes P A) : (Script.read next).Makes P A :=
  fun s hs => ⟨Or.inl rfl, h s hs⟩

/-- One that begins with a statement makes its change, and those of the rest. -/
theorem Makes.act {effect : σ → σ} {next : Script σ ρ} (heffect : ∀ s, P s → A s (effect s)) (hnext : next.Makes P A) :
    (Script.act effect next).Makes P A := fun s hs => ⟨Or.inr (heffect s hs), hnext⟩

/-- One that carries out its only statement on a condition makes its change on that condition. -/
theorem Makes.guarded {ok : σ → Bool} {effect : σ → σ} {yes no : ρ} (h : ∀ s, P s → ok s = true → A s (effect s)) :
    (Script.stmt (fun s => if ok s then effect s else s) fun s => if ok s then done yes else done no).Makes P A := by
  intro s hs
  cases hok : ok s with
  | false =>
    dsimp only
    rw [hok]
    exact ⟨Or.inl rfl, trivial⟩
  | true =>
    dsimp only
    rw [hok]
    exact ⟨Or.inr (h s hs hok), trivial⟩

/-- A sequence makes the changes of its parts. -/
theorem Makes.bind {script : Script σ ρ} {f : ρ → Script σ ρ'} (h : script.Makes P A) (hf : ∀ result, (f result).Makes P A) :
    (script.bind f).Makes P A := by
  induction script with
  | done result => exact hf result
  | stmt effect next ih =>
    intro s hs
    obtain ⟨heffect, hnext⟩ := h s hs
    exact ⟨heffect, ih s hnext⟩

/-- So does a sequence that may end early. -/
theorem Makes.andThen {script : Script σ (Except ε ρ)} {f : ρ → Script σ (Except ε ρ')} (h : script.Makes P A)
    (hf : ∀ value, (f value).Makes P A) : (script.andThen f).Makes P A := by
  refine h.bind fun result => ?_
  cases result with
  | error raised => trivial
  | ok value => exact hf value

end Makes

/-- Every statement the program can come to keeps a property of the state, and every result it can
come to has another. -/
def Ensures (P : σ → Prop) (Q : ρ → Prop) : Script σ ρ → Prop
  | .done result => Q result
  | .stmt effect next => ∀ s, P s → P (effect s) ∧ (next s).Ensures P Q

/-- A program that changes nothing ensures what every result has. -/
theorem Makes.ensures {P : σ → Prop} {Q : ρ → Prop} {script : Script σ ρ} (h : script.Makes P fun _ _ => False)
    (hresult : ∀ result, Q result) : script.Ensures P Q := by
  induction script with
  | done result => exact hresult result
  | stmt effect next ih =>
    intro s hs
    obtain ⟨hsame | hchange, hnext⟩ := h s hs
    · exact ⟨hsame.symm ▸ hs, ih s hnext⟩
    · exact hchange.elim

/-- What a program ensures, running it alone gives. -/
theorem Ensures.exec {P : σ → Prop} {Q : ρ → Prop} {script : Script σ ρ} (h : script.Ensures P Q) {s : σ} (hs : P s) :
    Q (script.exec s).1 ∧ P (script.exec s).2 := by
  induction script generalizing s with
  | done result => exact ⟨h, hs⟩
  | stmt effect next ih =>
    obtain ⟨heffect, hnext⟩ := h s hs
    exact ih s hnext heffect

/-- A sequence ensures what its second part does after every result of the first. -/
theorem Ensures.bind {P : σ → Prop} {Q : ρ → Prop} {Q' : ρ' → Prop} {script : Script σ ρ} {f : ρ → Script σ ρ'}
    (h : script.Ensures P Q) (hf : ∀ result, Q result → (f result).Ensures P Q') : (script.bind f).Ensures P Q' := by
  induction script with
  | done result => exact hf result h
  | stmt effect next ih =>
    intro s hs
    obtain ⟨heffect, hnext⟩ := h s hs
    exact ⟨heffect, ih s hnext⟩

/-- So does a sequence that may end early with an error, of its values. -/
theorem Ensures.andThen {P : σ → Prop} {Q : ρ → Prop} {Q' : ρ' → Prop} {script : Script σ (Except ε ρ)}
    {f : ρ → Script σ (Except ε ρ')} (h : script.Ensures P fun result => ∀ value, result = .ok value → Q value)
    (hf : ∀ value, Q value → (f value).Ensures P fun result => ∀ value', result = .ok value' → Q' value') :
    (script.andThen f).Ensures P fun result => ∀ value', result = .ok value' → Q' value' := by
  refine h.bind fun result hresult => ?_
  cases result with
  | error raised => exact fun value' hvalue => nomatch hvalue
  | ok value => exact hf value (hresult value rfl)

/-- A sequence that may end early makes the changes that its second part makes after every value of the first. -/
theorem Ensures.makes_andThen {P : σ → Prop} {A : σ → σ → Prop} {Q : ρ → Prop} {script : Script σ (Except ε ρ)}
    {f : ρ → Script σ (Except ε ρ')} (h : script.Ensures P fun result => ∀ value, result = .ok value → Q value)
    (hmakes : script.Makes P A) (hf : ∀ value, Q value → (f value).Makes P A) : (script.andThen f).Makes P A := by
  induction script with
  | done result =>
    cases result with
    | error raised => trivial
    | ok value => exact hf value (h value rfl)
  | stmt effect next ih =>
    intro s hs
    exact ⟨(hmakes s hs).1, ih s (h s hs).2 (hmakes s hs).2⟩

/-- A program that only reads ensures what it does after every reading. -/
theorem Ensures.read {P : σ → Prop} {Q : ρ → Prop} {next : σ → Script σ ρ}
    (h : ∀ s, P s → (next s).Ensures P Q) : (Script.read next).Ensures P Q := fun s hs => ⟨hs, h s hs⟩

end Script

/-! ### Threads -/

/-- Some programs at work on one state. -/
structure Threads (ι σ ρ : Type*) where
  state : σ
  script : ι → Script σ ρ

namespace Threads

variable {ι σ ρ : Type*} [DecidableEq ι]

/-- One thread carries out its next statement. -/
def advance (t : Threads ι σ ρ) (i : ι) : Threads ι σ ρ :=
  match t.script i with
  | .done _ => t
  | .stmt effect next => ⟨effect t.state, Function.update t.script i (next t.state)⟩

/-- The threads as a machine that is driven by a schedule. -/
def machine (ι σ ρ : Type*) [DecidableEq ι] : Machine (Threads ι σ ρ) ι Unit := ⟨fun t i => (t.advance i, ())⟩

/-- A thread is over, with a result. -/
def Finished (t : Threads ι σ ρ) (i : ι) (result : ρ) : Prop := t.script i = .done result

/-- A thread that is over has nothing to do. -/
theorem advance_of_done {t : Threads ι σ ρ} {i : ι} {result : ρ} (h : t.script i = .done result) :
    t.advance i = t := by
  rw [advance, h]

/-- What a statement does. -/
theorem advance_of_stmt {t : Threads ι σ ρ} {i : ι} {effect : σ → σ} {next : σ → Script σ ρ}
    (h : t.script i = .stmt effect next) :
    t.advance i = ⟨effect t.state, Function.update t.script i (next t.state)⟩ := by
  rw [advance, h]

/-- The thread goes on as its statement says. -/
theorem advance_self {t : Threads ι σ ρ} {i : ι} {effect : σ → σ} {next : σ → Script σ ρ}
    (h : t.script i = .stmt effect next) : (t.advance i).script i = next t.state := by
  rw [advance_of_stmt h]
  exact Function.update_self i _ _

/-- The other threads stay where they are. -/
theorem advance_script_of_ne {t : Threads ι σ ρ} {i j : ι} (h : j ≠ i) : (t.advance i).script j = t.script j := by
  unfold advance
  split
  · rfl
  · exact Function.update_of_ne h _ _

/-- The run rule: what every statement of every thread keeps, a run keeps, wherever it stops. -/
theorem state_of_keeps {t : Threads ι σ ρ} {P : σ → Prop} (h : P t.state) (hkeeps : ∀ i, (t.script i).Keeps P) (schedule : List ι) :
    P ((machine ι σ ρ).run t schedule).state := by
  refine ((machine ι σ ρ).run_of_step (P := fun t => P t.state ∧ ∀ i, (t.script i).Keeps P) ?_ ⟨h, hkeeps⟩
    ((machine ι σ ρ).along_true)).1
  intro t i hkept _
  change P (t.advance i).state ∧ ∀ j, ((t.advance i).script j).Keeps P
  cases hscript : t.script i with
  | done result => rwa [advance_of_done hscript]
  | stmt effect next =>
    have hthis := hkept.2 i
    rw [hscript] at hthis
    obtain ⟨heffect, hnext⟩ := hthis t.state hkept.1
    refine ⟨by rw [advance_of_stmt hscript]; exact heffect, fun j => ?_⟩
    by_cases hji : j = i
    · rw [hji, advance_self hscript]
      exact hnext
    · rw [advance_script_of_ne hji]
      exact hkept.2 j

end Threads

end Concurrent
