import Mathlib.Data.List.Forall2
import Mathlib.Order.Basic

/-!
# Computations that may raise

Inversion rules for `Except`: what a sequence of computations that ended well, or raised, says
about its parts. Proofs about monadic code take it apart with these and never unfold `bind`.
Two computations are compared by the rules of a relation that lets neither raise alone.
-/

namespace Fallible

universe u v

variable {ε : Type u} {α β : Type v}

/-- A sequence ends well exactly when both its parts do. -/
@[simp] theorem bind_eq_ok {x : Except ε α} {f : α → Except ε β} {b : β} :
    (x >>= f) = .ok b ↔ ∃ a, x = .ok a ∧ f a = .ok b := by
  cases x with
  | error e => exact ⟨fun h => (nomatch h), fun ⟨_, h, _⟩ => (nomatch h)⟩
  | ok a => exact ⟨fun h => ⟨a, rfl, h⟩, fun ⟨_, ha, h⟩ => by cases ha; exact h⟩

/-- A sequence raises what its first part does, or what is done with the value of that. -/
theorem bind_eq_error {x : Except ε α} {f : α → Except ε β} {e : ε} :
    (x >>= f) = .error e ↔ x = .error e ∨ ∃ a, x = .ok a ∧ f a = .error e := by
  cases x with
  | error e' =>
    change Except.error e' = .error e ↔ _
    simp
  | ok a =>
    change f a = .error e ↔ _
    simp

/-- A sequence goes on with the value of its first part. -/
@[simp] theorem ok_bind (a : α) (f : α → Except ε β) : (Except.ok a >>= f) = f a := rfl

/-- A sequence ends where its first part raises. -/
@[simp] theorem error_bind (e : ε) (f : α → Except ε β) : (Except.error e >>= f) = .error e := rfl

/-- A mapped computation ends well exactly when the computation does. -/
@[simp] theorem map_eq_ok {x : Except ε α} {f : α → β} {b : β} :
    x.map f = .ok b ↔ ∃ a, x = .ok a ∧ f a = b := by
  cases x with
  | error e => exact ⟨fun h => (nomatch h), fun ⟨_, h, _⟩ => (nomatch h)⟩
  | ok a => simp [Except.map]

/-- A mapped computation raises what the computation raises. -/
theorem map_eq_error {x : Except ε α} {f : α → β} {e : ε} : x.map f = .error e ↔ x = .error e := by
  cases x <;> simp [Except.map]

/-- A computation whose exceptions are renamed ends well exactly when it does. -/
theorem mapError_eq_ok {ε' : Type u} {x : Except ε α} {f : ε → ε'} {a : α} : x.mapError f = .ok a ↔ x = .ok a := by
  cases x <;> simp [Except.mapError]

/-- The rule of a loop that may raise: what every turn keeps, a loop that ends well keeps. -/
theorem foldlM_invariant {step : β → α → Except ε β} {P : β → Prop}
    (hstep : ∀ s item s', step s item = .ok s' → P s → P s') {items : List α} {s s' : β}
    (h : items.foldlM step s = .ok s') (hs : P s) : P s' := by
  induction items generalizing s with
  | nil =>
    cases h
    exact hs
  | cons item rest ih =>
    rw [List.foldlM_cons, bind_eq_ok] at h
    obtain ⟨next, hnext, hrest⟩ := h
    exact ih hrest (hstep s item next hnext hs)

/-- A loop whose turns raise on their own account can do what may raise first. -/
theorem foldlM_map_eq {σ : Type v} {f : α → Except ε β} {g : σ → β → σ} (items : List α) (s : σ) :
    items.foldlM (fun s item => (f item).map (g s)) s = (items.mapM f).map (·.foldl g s) := by
  induction items generalizing s with
  | nil => rfl
  | cons item rest ih =>
    rw [List.foldlM_cons, List.mapM_cons]
    cases f item with
    | error e => rfl
    | ok b =>
      change rest.foldlM _ (g s b) = _
      rw [ih]
      cases rest.mapM f <;> rfl

/-- Every element of a list is computed exactly when they are computed one by one. -/
theorem mapM_eq_ok {f : α → Except ε β} {items : List α} {results : List β} :
    items.mapM f = .ok results ↔ List.Forall₂ (fun item result => f item = .ok result) items results := by
  induction items generalizing results with
  | nil =>
    rw [List.mapM_nil, List.forall₂_nil_left_iff]
    exact ⟨fun h => (Except.ok.inj h).symm, fun h => congrArg Except.ok h.symm⟩
  | cons item rest ih =>
    simp only [List.mapM_cons, bind_eq_ok, List.forall₂_cons_left_iff, ih]
    constructor
    · rintro ⟨result, hitem, tail, hrest, h⟩
      exact ⟨result, tail, hitem, hrest, (Except.ok.inj h).symm⟩
    · rintro ⟨result, tail, hitem, hrest, rfl⟩
      exact ⟨result, hitem, tail, hrest, rfl⟩

/-- A list of computations raises what the first that raises does. -/
theorem mapM_eq_error {f : α → Except ε β} {items : List α} {e : ε} :
    items.mapM f = .error e ↔
      ∃ before item after, items = before ++ item :: after ∧ (∀ b ∈ before, ∃ result, f b = .ok result) ∧ f item = .error e := by
  induction items with
  | nil => simp [pure, Except.pure]
  | cons item rest ih =>
    rw [List.mapM_cons]
    cases hitem : f item with
    | error raised =>
      rw [error_bind]
      constructor
      · intro h
        cases h
        exact ⟨[], item, rest, rfl, by simp, hitem⟩
      · rintro ⟨_ | ⟨first, before⟩, failing, after, hitems, hbefore, hfails⟩
        · cases hitems
          cases hitem.symm.trans hfails
          rfl
        · cases hitems
          obtain ⟨result, hresult⟩ := hbefore item List.mem_cons_self
          cases hitem.symm.trans hresult
    | ok result =>
      rw [ok_bind]
      constructor
      · intro h
        cases hrest : rest.mapM f with
        | ok results => rw [hrest] at h; cases h
        | error raised =>
          rw [hrest, error_bind] at h
          obtain ⟨before, failing, after, rfl, hbefore, hfails⟩ := ih.mp (hrest.trans h)
          refine ⟨item :: before, failing, after, rfl, ?_, hfails⟩
          exact List.forall_mem_cons.mpr ⟨⟨result, hitem⟩, hbefore⟩
      · rintro ⟨_ | ⟨first, before⟩, failing, after, hitems, hbefore, hfails⟩
        · cases hitems
          cases hitem.symm.trans hfails
        · cases hitems
          rw [ih.mpr ⟨before, failing, after, rfl, fun b hb => hbefore b (List.mem_cons_of_mem _ hb), hfails⟩, error_bind]

/-- Two computations that raise alike, or end well with related values. -/
inductive Related {α β : Type v} (r : α → β → Prop) : Except ε α → Except ε β → Prop
  | ok {a : α} {b : β} (h : r a b) : Related r (.ok a) (.ok b)
  | error (e : ε) : Related r (.error e) (.error e)

/-- Computations with the same outcome are related by any reflexive relation. -/
theorem Related.refl {r : α → α → Prop} (x : Except ε α) (h : ∀ a, x = .ok a → r a a) : Related r x x := by
  cases x with
  | error e => exact .error e
  | ok a => exact .ok (h a rfl)

/-- The relational rule of a sequence. -/
theorem Related.bind {α' β' : Type v} {r : α → α' → Prop} {q : β → β' → Prop} {x : Except ε α} {x' : Except ε α'}
    {f : α → Except ε β} {f' : α' → Except ε β'} (hx : Related r x x')
    (hf : ∀ a a', r a a' → Related q (f a) (f' a')) : Related q (x >>= f) (x' >>= f') := by
  cases hx with
  | ok h => exact hf _ _ h
  | error e => exact .error e

/-- A weaker relation holds of the same computations. -/
theorem Related.imp {α' : Type v} {r q : α → α' → Prop} {x : Except ε α} {x' : Except ε α'} (hx : Related r x x')
    (h : ∀ a a', r a a' → q a a') : Related q x x' := by
  cases hx with
  | ok hr => exact .ok (h _ _ hr)
  | error e => exact .error e

/-- The value that a computation is read off for. -/
theorem toOption_eq_some {x : Except ε α} {a : α} : x.toOption = some a ↔ x = .ok a := by
  cases x with
  | error e => simp [Except.toOption]
  | ok b => simp [Except.toOption]

/-! ### Exceptions that are not announced -/

/-- A computation raises an exception that was not announced. -/
def Escapes (announced : ε → Prop) (x : Except ε α) : Prop := ∃ e, x = .error e ∧ ¬announced e

variable {announced : ε → Prop}

@[simp] theorem escapes_ok (a : α) : ¬Escapes announced (.ok a : Except ε α) := fun ⟨_, h, _⟩ => nomatch h

@[simp] theorem escapes_error (e : ε) : Escapes announced (.error e : Except ε α) ↔ ¬announced e :=
  ⟨fun ⟨_, h, hnot⟩ => by cases h; exact hnot, fun hnot => ⟨e, rfl, hnot⟩⟩

/-- What escapes a sequence escapes its first part, or what is done with the value of that. -/
theorem escapes_bind {x : Except ε α} {f : α → Except ε β} :
    Escapes announced (x >>= f) ↔ Escapes announced x ∨ ∃ a, x = .ok a ∧ Escapes announced (f a) := by
  cases x with
  | error e => simp
  | ok a => simp

end Fallible
