import Mathlib.Data.List.Basic
import Mathlib.Logic.Function.Iterate
import Mathlib.Tactic.Linarith

/-!
# Output by blocks, up to a length

A key derivation asks for one block after another until there are enough bytes, and cuts off the
rest. A block may depend on its number and on the block before it, and its number has a largest
value. The loop ends because blocks are not empty, and what it has put out is a prefix of what it
would put out for a greater length.
-/

namespace BlockStream

variable {α : Type*}

/-- A source of blocks of one width, each made from its number and the block before it. -/
structure Source (α : Type*) where
  width : ℕ
  width_pos : 0 < width
  next : ℕ → List α → List α
  length_next : ∀ counter block, (next counter block).length = width

/-- A state of the loop: the output so far, the last block, and the number of the next one. -/
structure Progress (α : Type*) where
  out : List α
  block : List α
  counter : ℕ

namespace Source

variable (source : Source α)

/-- One turn of the loop. -/
def turn (p : Progress α) : Progress α :=
  let block := source.next p.counter p.block
  ⟨p.out ++ block, block, p.counter + 1⟩

/-- The output grows by a block with every turn. -/
@[simp] theorem length_out_turn (p : Progress α) : (source.turn p).out.length = p.out.length + source.width := by
  simp [turn, source.length_next]

/-- The loop: turns until the output is long enough; `none` if a number is too large for a turn. -/
def fill (last length : ℕ) (p : Progress α) : Option (Progress α) :=
  if p.out.length < length then
    if last < p.counter then none else fill last length (source.turn p)
  else some p
  termination_by length - p.out.length
  decreasing_by
    have hpos := source.width_pos
    rw [length_out_turn]
    omega

/-- Some blocks in a row. -/
def blocks : ℕ → ℕ → List α → List α
  | 0, _, _ => []
  | rounds + 1, counter, block =>
    source.next counter block ++ blocks rounds (counter + 1) (source.next counter block)

@[simp] theorem length_blocks (rounds counter : ℕ) (block : List α) :
    (source.blocks rounds counter block).length = rounds * source.width := by
  induction rounds generalizing counter block with
  | zero => simp [blocks]
  | succ rounds ih =>
    rw [blocks, List.length_append, source.length_next, ih, Nat.succ_mul]
    omega

/-- Blocks that depend on nothing but their numbers. -/
theorem blocks_eq_flatMap {make : ℕ → List α} (hmake : ∀ counter block, source.next counter block = make counter)
    (rounds counter : ℕ) (block : List α) :
    source.blocks rounds counter block = (List.range' counter rounds).flatMap make := by
  induction rounds generalizing counter block with
  | zero => rfl
  | succ rounds ih => rw [blocks, ih, hmake, List.range'_succ, List.flatMap_cons]

/-- Fewer blocks are the first of more blocks. -/
theorem blocks_isPrefix {rounds rounds' : ℕ} (h : rounds ≤ rounds') (counter : ℕ) (block : List α) :
    source.blocks rounds counter block <+: source.blocks rounds' counter block := by
  induction rounds generalizing rounds' counter block with
  | zero => exact List.nil_prefix
  | succ rounds ih =>
    obtain ⟨rounds', rfl⟩ := Nat.exists_eq_succ_of_ne_zero (Nat.ne_zero_of_lt h)
    exact (List.prefix_append_right_inj _).mpr (ih (Nat.le_of_succ_le_succ h) _ _)

/-- The output after some turns. -/
theorem out_iterate_turn (rounds : ℕ) (p : Progress α) :
    (source.turn^[rounds] p).out = p.out ++ source.blocks rounds p.counter p.block := by
  induction rounds generalizing p with
  | zero => simp [blocks]
  | succ rounds ih =>
    rw [Function.iterate_succ_apply, ih, blocks, ← List.append_assoc]
    rfl

/-- The number of the next block after some turns. -/
theorem counter_iterate_turn (rounds : ℕ) (p : Progress α) :
    (source.turn^[rounds] p).counter = p.counter + rounds := by
  induction rounds generalizing p with
  | zero => rfl
  | succ rounds ih =>
    rw [Function.iterate_succ_apply, ih]
    exact Nat.add_right_comm p.counter 1 rounds

/-- The loop makes as many turns as it needs, if the numbers suffice for them. -/
theorem fill_eq {last length : ℕ} (rounds : ℕ) (p : Progress α)
    (hshort : ∀ k < rounds, p.out.length + k * source.width < length)
    (hlong : length ≤ p.out.length + rounds * source.width) :
    source.fill last length p =
      if rounds = 0 ∨ p.counter + rounds ≤ last + 1 then some (source.turn^[rounds] p) else none := by
  induction rounds generalizing p with
  | zero =>
    have hdone : ¬p.out.length < length := by omega
    rw [fill, if_neg hdone, if_pos (Or.inl rfl)]
    rfl
  | succ rounds ih =>
    have hnext := ih (source.turn p)
      (fun k hk => by
        have hlater := hshort (k + 1) (Nat.succ_lt_succ hk)
        rw [Nat.succ_mul] at hlater
        rw [length_out_turn]
        omega)
      (by
        rw [Nat.succ_mul] at hlong
        rw [length_out_turn]
        omega)
    have hcounter : (source.turn p).counter = p.counter + 1 := rfl
    have hfirst : p.out.length < length := by simpa using hshort 0 (Nat.succ_pos rounds)
    rw [fill, if_pos hfirst, hnext, hcounter, Function.iterate_succ_apply]
    by_cases hlast : last < p.counter
    · rw [if_pos hlast, if_neg (by omega)]
    · rw [if_neg hlast]
      by_cases hrounds : rounds = 0
      · rw [if_pos (Or.inl hrounds), if_pos (Or.inr (by omega))]
      · congr 1
        simp only [hrounds, Nat.succ_ne_zero, false_or]
        exact propext ⟨fun h => by omega, fun h => by omega⟩

/-- The number of blocks for a length. -/
def rounds (length : ℕ) : ℕ := (length + source.width - 1) / source.width

/-- They are enough. -/
theorem le_rounds_mul (length : ℕ) : length ≤ source.rounds length * source.width := by
  have hpos := source.width_pos
  have hdiv := Nat.lt_div_mul_add (a := length + source.width - 1) hpos
  unfold rounds
  omega

/-- Fewer are not. -/
theorem mul_lt_of_lt_rounds {length k : ℕ} (h : k < source.rounds length) : k * source.width < length := by
  have hpos := source.width_pos
  have hle := (Nat.le_div_iff_mul_le hpos).mp (Nat.succ_le_of_lt h)
  rw [Nat.succ_mul] at hle
  omega

/-- A bound on the length is one on the number of blocks. -/
theorem rounds_le_iff {length k : ℕ} : source.rounds length ≤ k ↔ length ≤ k * source.width := by
  constructor
  · intro h
    exact (source.le_rounds_mul length).trans (Nat.mul_le_mul_right _ h)
  · intro h
    by_contra hnot
    exact absurd (source.mul_lt_of_lt_rounds (not_le.mp hnot)) (not_lt.mpr h)

/-- The loop from its beginning. -/
theorem fill_start (last length counter : ℕ) (block : List α) :
    source.fill last length ⟨[], block, counter⟩ =
      if source.rounds length = 0 ∨ counter + source.rounds length ≤ last + 1 then
        some (source.turn^[source.rounds length] ⟨[], block, counter⟩)
      else none :=
  source.fill_eq _ _ (fun k hk => by simpa using source.mul_lt_of_lt_rounds hk)
    (by simpa using source.le_rounds_mul length)

/-- The output for a length, cut off. -/
def output (length counter : ℕ) (block : List α) : List α :=
  (source.blocks (source.rounds length) counter block).take length

/-- It has that length. -/
@[simp] theorem length_output (length counter : ℕ) (block : List α) : (source.output length counter block).length = length := by
  rw [output, List.length_take, length_blocks]
  exact min_eq_left (source.le_rounds_mul length)

/-- It is the beginning of the output for a greater length. -/
theorem output_isPrefix {length length' : ℕ} (h : length ≤ length') (counter : ℕ) (block : List α) :
    source.output length counter block <+: source.output length' counter block := by
  have hrounds : source.rounds length ≤ source.rounds length' :=
    source.rounds_le_iff.mpr (h.trans (source.le_rounds_mul length'))
  have hblocks := source.blocks_isPrefix hrounds counter block
  have hshort : source.output length counter block <+: source.blocks (source.rounds length') counter block :=
    (List.take_prefix _ _).trans hblocks
  exact List.prefix_take_iff.mpr ⟨hshort, by simpa using h⟩

end Source

end BlockStream
