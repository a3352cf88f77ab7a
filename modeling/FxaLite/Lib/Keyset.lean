import Mathlib.Data.List.Nodup

/-!
# Keyset pagination

A reader takes an ordered list in pages and says where it stopped with a token: the group of
the last element it was given, and how many elements of that group come no later than it. The
next page is cut from the elements of that group and the later ones, the counted ones skipped.
Groups are an order coarser than the list's own, as timestamps are in a list that is ordered
by timestamp and then by name; the token therefore keeps its meaning when elements of other
groups come and go.
-/

namespace Keyset

/-- An order on elements, and the coarser order on the groups they fall into. -/
structure Order (α β : Type*) where
  /-- the first comes no later than the second -/
  le : α → α → Prop
  group : α → β
  groupLe : β → β → Prop
  leDecidable : DecidableRel le
  groupDecidable : DecidableRel groupLe
  total : ∀ a b, le a b ∨ le b a
  trans : ∀ {a b c}, le a b → le b c → le a c
  group_mono : ∀ {a b}, le a b → groupLe (group a) (group b)
  group_trans : ∀ {s t u}, groupLe s t → groupLe t u → groupLe s u
  group_antisymm : ∀ {s t}, groupLe s t → groupLe t s → s = t

attribute [instance] Order.leDecidable Order.groupDecidable

namespace Order

variable {α β : Type*} (o : Order α β)

/-- A list in strictly increasing order. -/
def Sorted (l : List α) : Prop := l.Pairwise fun a b => ¬o.le b a

/-- What is still to come when the reader has been given everything up to a mark. -/
def after (mark : Option α) (l : List α) : List α :=
  match mark with
  | none => l
  | some m => l.filter fun x => ¬o.le x m

/-- How many elements of a mark's group come no later than the mark. -/
def ties (m : α) (l : List α) : ℕ := l.countP fun x => o.le x m ∧ o.groupLe (o.group m) (o.group x)

/-- The elements of a group and of the later ones. -/
def fromGroup (g : β) (l : List α) : List α := l.filter fun x => o.groupLe g (o.group x)

variable {o}

/-! ### Cutting a sorted list -/

theorem refl (a : α) : o.le a a := by
  rcases o.total a a with h | h
  · exact h
  · exact h

/-- Of two elements one comes no later. -/
theorem le_of_not_le {a b : α} (h : ¬o.le b a) : o.le a b := (o.total a b).resolve_right h

/-- What comes after something comes after everything before it. -/
theorem not_le_of_le {a b c : α} (hab : o.le a b) (hcb : ¬o.le c b) : ¬o.le c a :=
  fun hca => hcb (o.trans hca hab)

/-- A sorted list falls into the elements no later than one, and the later ones. -/
theorem Sorted.split {l : List α} (h : o.Sorted l) (m : α) :
    l.filter (fun x => o.le x m) ++ o.after (some m) l = l := by
  induction l with
  | nil => rfl
  | cons x rest ih =>
    obtain ⟨hx, hrest⟩ := List.pairwise_cons.mp h
    by_cases hxm : o.le x m
    · have hcut := ih hrest
      simp only [after] at hcut ⊢
      rw [List.filter_cons_of_pos (by simpa using hxm), List.filter_cons_of_neg (by simpa using hxm),
        List.cons_append, hcut]
    · -- the first element is later than the mark, so all are
      have hlater : ∀ y ∈ x :: rest, ¬o.le y m := by
        intro y hy
        rcases List.mem_cons.mp hy with rfl | hy
        · exact hxm
        · intro hym
          exact hxm (o.trans (le_of_not_le (hx y hy)) hym)
      have hnone : (x :: rest).filter (fun y => o.le y m) = [] :=
        List.filter_eq_nil_iff.mpr fun y hy => by simpa using hlater y hy
      have hall : o.after (some m) (x :: rest) = x :: rest :=
        List.filter_eq_self.mpr fun y hy => by simpa using hlater y hy
      rw [hnone, hall, List.nil_append]

/-- Cutting off what has been given leaves a sorted list. -/
theorem Sorted.after {l : List α} (h : o.Sorted l) (mark : Option α) : o.Sorted (o.after mark l) := by
  cases mark with
  | none => exact h
  | some m => exact h.filter _

/-- What is still to come is in the list, after the mark. -/
theorem mem_after_some {m x : α} {l : List α} : x ∈ o.after (some m) l ↔ x ∈ l ∧ ¬o.le x m := by
  simp [Order.after]

/-- The elements to come are in the list. -/
theorem mem_of_mem_after {mark : Option α} {x : α} {l : List α} (h : x ∈ o.after mark l) : x ∈ l := by
  cases mark with
  | none => exact h
  | some m => exact (mem_after_some.mp h).1

/-- In a sorted list nothing stands twice. -/
theorem Sorted.nodup {l : List α} (h : o.Sorted l) : l.Nodup := by
  apply h.imp
  intro a b hab heq
  exact hab (heq ▸ refl a)

/-- Elements of a sorted list that come no later than each other are one. -/
theorem Sorted.eq_of_le {l : List α} (h : o.Sorted l) {a b : α} (ha : a ∈ l) (hb : b ∈ l) (hab : o.le a b)
    (hba : o.le b a) : a = b := by
  have hall : ∀ x ∈ l, ∀ y ∈ l, o.le x y → o.le y x → x = y := by
    apply List.Pairwise.forall_of_forall_of_flip
    · intro x _ _ _
      rfl
    · exact h.imp fun hxy _ hyx => absurd hyx hxy
    · exact h.imp fun hxy hyx _ => absurd hyx hxy
  exact hall a ha b hb hab hba

/-- There is only one way to put the elements of a sorted list in order. -/
theorem Sorted.eq_of_perm {l l' : List α} (h : o.Sorted l) (hl' : l'.Pairwise o.le) (hperm : l'.Perm l) :
    l' = l := by
  apply hperm.eq_of_pairwise _ hl' (h.imp le_of_not_le)
  intro a b ha hb hab hba
  exact h.eq_of_le (hperm.mem_iff.mp ha) hb hab hba

/-! ### Resuming from a token -/

/-- Skipping the ties of a mark among its group and the later ones resumes after the mark. -/
theorem Sorted.drop_ties {l : List α} (h : o.Sorted l) (m : α) :
    (o.fromGroup (o.group m) l).drop (o.ties m l) = o.after (some m) l := by
  have hsorted : o.Sorted (o.fromGroup (o.group m) l) := h.filter _
  have hlength : ((o.fromGroup (o.group m) l).filter fun x => o.le x m).length = o.ties m l := by
    rw [fromGroup, List.filter_filter, ties, List.countP_eq_length_filter]
    congr 2
    funext x
    rw [Bool.decide_and]
  have hafter : o.after (some m) (o.fromGroup (o.group m) l) = o.after (some m) l := by
    simp only [Order.after, fromGroup, List.filter_filter]
    apply List.filter_congr
    intro x _
    by_cases hx : o.le x m
    · simp [hx]
    · simp [hx, o.group_mono (le_of_not_le hx)]
  calc (o.fromGroup (o.group m) l).drop (o.ties m l)
      = ((o.fromGroup (o.group m) l).filter (fun x => o.le x m) ++
          o.after (some m) (o.fromGroup (o.group m) l)).drop (o.ties m l) := by rw [hsorted.split m]
    _ = o.after (some m) (o.fromGroup (o.group m) l) := by rw [← hlength, List.drop_left]
    _ = o.after (some m) l := hafter

/-- A page ends at its last element: what is to come after it is the rest of what was. -/
theorem Sorted.after_last {l : List α} (h : o.Sorted l) {mark : Option α} {n : ℕ} {x : α}
    (hx : ((o.after mark l).take n).getLast? = some x) :
    o.after (some x) l = (o.after mark l).drop n := by
  have hsorted : o.Sorted (o.after mark l) := h.after mark
  have hmem : x ∈ o.after mark l := List.mem_of_mem_take (List.mem_of_getLast? hx)
  -- the mark is behind the reader: what comes after `x` comes after it too
  have hskip : o.after (some x) l = o.after (some x) (o.after mark l) := by
    cases mark with
    | none => rfl
    | some m =>
      have hmx : o.le m x := le_of_not_le (mem_after_some.mp hmem).2
      simp only [Order.after, List.filter_filter]
      apply List.filter_congr
      intro y _
      by_cases hy : o.le y x
      · simp [hy]
      · simp [hy, not_le_of_le hmx hy]
  obtain ⟨front, hfront⟩ := List.getLast?_eq_some_iff.mp hx
  have hcut : front ++ [x] ++ (o.after mark l).drop n = o.after mark l := by
    rw [← hfront, List.take_append_drop]
  rw [← hcut, Order.Sorted, List.pairwise_append] at hsorted
  obtain ⟨hpage, -, hrest⟩ := hsorted
  have hpageLe : ∀ y ∈ front ++ [x], o.le y x := by
    intro y hy
    rcases List.mem_append.mp hy with hy | hy
    · exact le_of_not_le ((List.pairwise_append.mp hpage).2.2 y hy x (by simp))
    · rw [List.mem_singleton.mp hy]
      exact refl x
  rw [hskip]
  calc o.after (some x) (o.after mark l)
      = o.after (some x) (front ++ [x] ++ (o.after mark l).drop n) := by rw [hcut]
    _ = (front ++ [x]).filter (fun y => ¬o.le y x) ++
          ((o.after mark l).drop n).filter (fun y => ¬o.le y x) := by rw [Order.after, List.filter_append]
    _ = [] ++ (o.after mark l).drop n := by
        congr 1
        · exact List.filter_eq_nil_iff.mpr fun y hy => by simpa using hpageLe y hy
        · exact List.filter_eq_self.mpr fun y hy => by simpa using hrest x (by simp) y hy
    _ = (o.after mark l).drop n := List.nil_append _

/-! ### Issuing a token -/

/-- Where a property that an element has is had by all before it, the elements that have it
are the first ones. -/
theorem takeWhile_eq_filter {p : α → Bool} {l : List α} (h : l.Pairwise fun a b => p b = true → p a = true) :
    l.takeWhile p = l.filter p := by
  induction l with
  | nil => rfl
  | cons a rest ih =>
    obtain ⟨ha, hrest⟩ := List.pairwise_cons.mp h
    by_cases hp : p a = true
    · rw [List.takeWhile_cons_of_pos hp, List.filter_cons_of_pos hp, ih hrest]
    · have hnone : rest.filter p = [] := List.filter_eq_nil_iff.mpr fun b hb hpb => hp (ha b hb hpb)
      rw [List.takeWhile_cons_of_neg hp, List.filter_cons_of_neg hp, hnone]

/-- The elements of the last one's group stand together at the end of a sorted page. -/
theorem Sorted.takeWhile_reverse [DecidableEq β] {front : List α} {x : α} (h : o.Sorted (front ++ [x])) :
    1 + (front.reverse.takeWhile fun y => o.group y = o.group x).length =
      (front ++ [x]).countP fun y => o.groupLe (o.group x) (o.group y) := by
  have hle : ∀ y ∈ front, o.le y x := fun y hy =>
    le_of_not_le ((List.pairwise_append.mp h).2.2 y hy x (by simp))
  have hgroup : ∀ y ∈ front, (o.groupLe (o.group x) (o.group y) ↔ o.group y = o.group x) := by
    intro y hy
    constructor
    · intro hxy
      exact o.group_antisymm (o.group_mono (hle y hy)) hxy
    · intro heq
      rw [heq]
      exact o.group_mono (refl x)
  have hfront : o.Sorted front := (List.pairwise_append.mp h).1
  -- from the back, once the group changes it does not come again
  have hrun : front.reverse.Pairwise fun y z =>
      decide (o.group z = o.group x) = true → decide (o.group y = o.group x) = true := by
    rw [List.pairwise_reverse]
    apply hfront.imp_of_mem
    intro z y hz hy hzy
    simp only [decide_eq_true_eq]
    intro hgz
    have hyx : o.groupLe (o.group y) (o.group x) := o.group_mono (hle y hy)
    apply o.group_antisymm hyx
    rw [← hgz]
    exact o.group_mono (le_of_not_le hzy)
  have hcount : (front.reverse.takeWhile fun y => o.group y = o.group x).length =
      front.countP fun y => o.groupLe (o.group x) (o.group y) := by
    rw [takeWhile_eq_filter hrun, ← List.countP_eq_length_filter, List.countP_reverse]
    apply List.countP_congr
    intro y hy
    simpa using (hgroup y hy).symm
  have hself : o.groupLe (o.group x) (o.group x) := o.group_mono (refl x)
  rw [hcount, List.countP_append, List.countP_singleton, if_pos (by simpa using hself), Nat.add_comm]

/-- The ties of a page's last element: those on the page, and those of the mark before it if
its group goes on. -/
theorem Sorted.ties_last {l : List α} (h : o.Sorted l) {mark : Option α} {n : ℕ} {x : α}
    (hx : ((o.after mark l).take n).getLast? = some x) :
    o.ties x l = ((o.after mark l).take n).countP (fun y => o.groupLe (o.group x) (o.group y)) +
      (match mark with
        | none => 0
        | some m => if o.groupLe (o.group x) (o.group m) then o.ties m l else 0) := by
  -- after the page nothing ties, and on the page only the group counts
  have hpage : o.ties x (o.after mark l) =
      ((o.after mark l).take n).countP fun y => o.groupLe (o.group x) (o.group y) := by
    have hrest : ∀ y ∈ (o.after mark l).drop n, ¬o.le y x := by
      intro y hy
      rw [← h.after_last hx] at hy
      exact (mem_after_some.mp hy).2
    obtain ⟨front, hfront⟩ := List.getLast?_eq_some_iff.mp hx
    have hsorted : o.Sorted (front ++ [x]) := hfront ▸ (h.after mark).sublist (List.take_sublist _ _)
    have hle : ∀ y ∈ front ++ [x], o.le y x := by
      intro y hy
      rcases List.mem_append.mp hy with hy | hy
      · exact le_of_not_le ((List.pairwise_append.mp hsorted).2.2 y hy x (by simp))
      · rw [List.mem_singleton.mp hy]
        exact refl x
    conv_lhs => rw [← List.take_append_drop n (o.after mark l)]
    have hnone : o.ties x ((o.after mark l).drop n) = 0 :=
      List.countP_eq_zero.mpr fun y hy => by simp [hrest y hy]
    rw [ties] at hnone ⊢
    rw [List.countP_append, hnone, Nat.add_zero]
    apply List.countP_congr
    intro y hy
    rw [hfront] at hy
    simp [hle y hy]
  cases mark with
  | none => exact hpage
  | some m =>
    have hmem : x ∈ o.after (some m) l := List.mem_of_mem_take (List.mem_of_getLast? hx)
    have hmx : o.le m x := le_of_not_le (mem_after_some.mp hmem).2
    -- before the mark there are ties only if the mark is one
    have hbefore : o.ties x (l.filter fun y => o.le y m) =
        if o.groupLe (o.group x) (o.group m) then o.ties m l else 0 := by
      split
      · rename_i hgroup
        rw [ties, ties, List.countP_filter]
        apply List.countP_congr
        intro y _
        by_cases hy : o.le y m
        · have hiff : o.groupLe (o.group x) (o.group y) ↔ o.groupLe (o.group m) (o.group y) :=
            ⟨fun hxy => o.group_trans (o.group_mono hmx) hxy, fun hmy => o.group_trans hgroup hmy⟩
          simp [hy, o.trans hy hmx, hiff]
        · simp [hy]
      · rename_i hgroup
        apply List.countP_eq_zero.mpr
        intro y hy
        have hym : o.le y m := by simpa using (List.mem_filter.mp hy).2
        simp only [decide_eq_true_eq, not_and]
        intro _ hxy
        exact hgroup (o.group_trans hxy (o.group_mono hym))
    conv_lhs => rw [← h.split m]
    rw [ties, List.countP_append]
    change o.ties x _ + o.ties x _ = _
    rw [hbefore, hpage, Nat.add_comm]

/-- The skip half of a token: the run at the end of the page, and if that is the whole page
and the token before it named the same group, what that one skipped. -/
theorem Sorted.skip_eq [DecidableEq β] {l : List α} (h : o.Sorted l) {mark : Option α} {n prev : ℕ} {x : α}
    {front : List α} (hpage : (o.after mark l).take n = front ++ [x])
    (hprev : ∀ m, mark = some m → prev = o.ties m l) :
    o.ties x l =
      if 1 + (front.reverse.takeWhile fun y => o.group y = o.group x).length = (front ++ [x]).length ∧
          mark.map o.group = some (o.group x)
      then 1 + (front.reverse.takeWhile fun y => o.group y = o.group x).length + prev
      else 1 + (front.reverse.takeWhile fun y => o.group y = o.group x).length := by
  have hx : ((o.after mark l).take n).getLast? = some x := by rw [hpage, List.getLast?_concat]
  have hsorted : o.Sorted (front ++ [x]) := hpage ▸ (h.after mark).sublist (List.take_sublist _ _)
  rw [h.ties_last hx, hpage, hsorted.takeWhile_reverse]
  cases mark with
  | none => simp
  | some m =>
    have hmem : ∀ y ∈ front ++ [x], ¬o.le y m := by
      intro y hy
      rw [← hpage] at hy
      exact (mem_after_some.mp (List.mem_of_mem_take hy)).2
    have hmx : o.le m x := le_of_not_le (hmem x (by simp))
    simp only [Option.map_some, Option.some.injEq, hprev m rfl]
    by_cases hgroup : o.group m = o.group x
    · -- the group of the mark goes on, so the whole page is of it
      have hall : (front ++ [x]).countP (fun y => o.groupLe (o.group x) (o.group y)) = (front ++ [x]).length := by
        rw [List.countP_eq_length]
        intro y hy
        have hmy : o.groupLe (o.group m) (o.group y) := o.group_mono (le_of_not_le (hmem y hy))
        simpa [hgroup] using hmy
      have hself : o.groupLe (o.group x) (o.group m) := by
        rw [hgroup]
        exact o.group_mono (refl x)
      rw [if_pos hself, if_pos ⟨hall, hgroup⟩]
    · have hnot : ¬o.groupLe (o.group x) (o.group m) := fun hxm =>
        hgroup (o.group_antisymm (o.group_mono hmx) hxm)
      rw [if_neg hnot, if_neg fun hand => hgroup hand.2, Nat.add_zero]

/-! ### Whole readings -/

variable (o) in
/-- The pages of a reader that finds another list at each fetch and goes on after the last
element it was given. -/
def pages (n : ℕ) : Option α → List (List α) → List (List α)
  | _, [] => []
  | mark, l :: rest =>
    let page := (o.after mark l).take n
    page :: pages n (page.getLast?.or mark) rest

/-- An element that the reader has passed does not come again. -/
theorem pages_of_passed {n : ℕ} {ls : List (List α)} {m u : α} {same : α → Bool}
    (hsame : ∀ l ∈ ls, ∀ x ∈ l, same x = true → x = u) (hm : o.le u m) :
    (o.pages n (some m) ls).flatten.filter same = [] := by
  induction ls generalizing m with
  | nil => rfl
  | cons l rest ih =>
    have hpage : ((o.after (some m) l).take n).filter same = [] := by
      apply List.filter_eq_nil_iff.mpr
      intro x hx hsx
      obtain ⟨hxl, hxm⟩ := mem_after_some.mp (List.mem_of_mem_take hx)
      rw [hsame l (by simp) x hxl hsx] at hxm
      exact hxm hm
    rw [pages, List.flatten_cons, List.filter_append, hpage, List.nil_append]
    cases hlast : ((o.after (some m) l).take n).getLast? with
    | none => exact ih (fun l' hl' => hsame l' (by simp [hl'])) hm
    | some m' =>
      have hmem : m' ∈ o.after (some m) l := List.mem_of_mem_take (List.mem_of_getLast? hlast)
      have hmm' : o.le m m' := le_of_not_le (mem_after_some.mp hmem).2
      exact ih (fun l' hl' => hsame l' (by simp [hl'])) (o.trans hm hmm')

variable (o) in
/-- The reader goes on while there is more than a page holds, and stops then. -/
def Complete (n : ℕ) : Option α → List (List α) → Prop
  | _, [] => False
  | mark, l :: rest =>
    if (o.after mark l).length ≤ n then rest = []
    else Complete n (((o.after mark l).take n).getLast?.or mark) rest

/-- Of the elements of a sorted list the ones that are some `u` are `u` once, if it is there. -/
theorem Sorted.filter_same {l : List α} (h : o.Sorted l) {u : α} {same : α → Bool} (hu : u ∈ l)
    (hsame : ∀ x ∈ l, same x = true ↔ x = u) : l.filter same = [u] := by
  have hiff : ∀ x, x ∈ l.filter same ↔ x ∈ [u] := by
    intro x
    rw [List.mem_filter, List.mem_singleton]
    constructor
    · intro hx
      exact (hsame x hx.1).mp hx.2
    · intro hx
      subst hx
      exact ⟨hu, (hsame x hu).mpr rfl⟩
  exact List.perm_singleton.mp
    ((List.perm_ext_iff_of_nodup (h.nodup.filter same) (List.nodup_singleton u)).mpr hiff)

/-- An element that is in the list at every fetch of a complete reading is on exactly one page,
and there once. -/
theorem pages_once {n : ℕ} {ls : List (List α)} {mark : Option α} {u : α} {same : α → Bool}
    (hsorted : ∀ l ∈ ls, o.Sorted l) (hsame : ∀ l ∈ ls, ∀ x ∈ l, same x = true ↔ x = u)
    (hmem : ∀ l ∈ ls, u ∈ l) (hmark : ∀ m, mark = some m → ¬o.le u m) (hcomplete : o.Complete n mark ls) :
    (o.pages n mark ls).flatten.filter same = [u] := by
  induction ls generalizing mark with
  | nil => exact absurd hcomplete id
  | cons l rest ih =>
    have hl : o.Sorted l := hsorted l (by simp)
    have hsamel := hsame l (by simp)
    have hu : u ∈ o.after mark l := by
      cases mark with
      | none => exact hmem l (by simp)
      | some m => exact mem_after_some.mpr ⟨hmem l (by simp), hmark m rfl⟩
    rw [Complete] at hcomplete
    rw [pages, List.flatten_cons, List.filter_append]
    split at hcomplete
    · rename_i hlast
      rw [hcomplete, List.take_of_length_le hlast, pages, List.flatten_nil, List.filter_nil, List.append_nil]
      exact (hl.after mark).filter_same hu fun x hx => hsamel x (mem_of_mem_after hx)
    · by_cases hpage : u ∈ (o.after mark l).take n
      · -- it is on this page, so the reader passes it
        have hone : ((o.after mark l).take n).filter same = [u] :=
          Sorted.filter_same ((hl.after mark).sublist (List.take_sublist _ _)) hpage fun x hx =>
            hsamel x (mem_of_mem_after (List.mem_of_mem_take hx))
        cases hlast : ((o.after mark l).take n).getLast? with
        | none => exact absurd (List.getLast?_eq_none_iff.mp hlast) (List.ne_nil_of_mem hpage)
        | some m =>
          have hum : o.le u m := by
            by_contra hnot
            have hdrop : u ∈ (o.after mark l).drop n := by
              rw [← hl.after_last hlast]
              exact mem_after_some.mpr ⟨hmem l (by simp), hnot⟩
            have hdisjoint := List.disjoint_take_drop (hl.after mark).nodup (Nat.le_refl n)
            exact hdisjoint hpage hdrop
          rw [hone, Option.some_or,
            pages_of_passed (fun l' hl' x hx hsx => (hsame l' (by simp [hl']) x hx).mp hsx) hum,
            List.append_nil]
      · -- it is still to come, after the last element of this page
        have hnone : ((o.after mark l).take n).filter same = [] := by
          apply List.filter_eq_nil_iff.mpr
          intro x hx hsx
          rw [(hsamel x (mem_of_mem_after (List.mem_of_mem_take hx))).mp hsx] at hx
          exact hpage hx
        rw [hnone, List.nil_append]
        apply ih (fun l' hl' => hsorted l' (by simp [hl'])) (fun l' hl' => hsame l' (by simp [hl']))
          (fun l' hl' => hmem l' (by simp [hl'])) _ hcomplete
        intro m hm
        cases hlast : ((o.after mark l).take n).getLast? with
        | none => exact hmark m (by rwa [hlast, Option.none_or] at hm)
        | some x =>
          obtain rfl : x = m := by rwa [hlast, Option.some_or, Option.some.injEq] at hm
          have hdrop : u ∈ (o.after mark l).drop n := by
            rw [← List.take_append_drop n (o.after mark l), List.mem_append] at hu
            exact hu.resolve_left hpage
          rw [← hl.after_last hlast] at hdrop
          exact (mem_after_some.mp hdrop).2

end Order

end Keyset
