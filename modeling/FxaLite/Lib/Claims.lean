import Mathlib.Data.List.Basic
import Mathlib.Data.List.Induction
import Mathlib.Data.List.Perm.Basic

/-!
# Holders and the items they claim

A list of rows, one for each holder, takes in a list of items one by one: an item that a holder
claims changes the row of that holder, and one that nobody claims is a row of its own. If no item is
claimed twice and no holder claims two, the rows are a table that neither loses an item nor has it
twice, and the order of the items is the order of the rows that are theirs alone.
-/

namespace Claims

variable {δ α ρ : Type*} (claims : δ → α → Bool) (holders holders' : List δ) (items items' : List α)

/-- No item is claimed twice, and no holder claims two items. -/
structure Exclusive : Prop where
  apart : holders.Pairwise fun d d' => ∀ a ∈ items, ¬(claims d a = true ∧ claims d' a = true)
  single : items.Pairwise fun a a' => ∀ d ∈ holders, ¬(claims d a = true ∧ claims d a' = true)

/-- The item that a holder claims. -/
def claimed (d : δ) : Option α := items.find? (claims d)

/-- The items that nobody claims. -/
def unclaimed : List α := items.filter fun a => !holders.any (claims · a)

/-- One item is taken into the rows. -/
def attach (update : α → ρ → ρ) (create : α → ρ) (rows : List ρ) (item : α) : List ρ :=
  match holders.findIdx? (claims · item) with
  | some i => rows.modify i (update item)
  | none => rows ++ [create item]

variable {claims holders holders' items items'} {d : δ} {item : α}

/-- A part of the items is no less exclusive. -/
theorem Exclusive.of_append (h : Exclusive claims holders (items ++ items')) : Exclusive claims holders items where
  apart := h.apart.imp fun hpair a ha => hpair a (List.mem_append_left _ ha)
  single := (List.pairwise_append.mp h.single).1

/-- In another order they are as exclusive. -/
theorem Exclusive.perm (h : Exclusive claims holders items) (hholders : holders'.Perm holders) (hitems : items'.Perm items) :
    Exclusive claims holders' items' where
  apart := by
    refine (h.apart.perm hholders.symm fun hpair a ha hboth => hpair a ha hboth.symm).imp fun hpair a ha => ?_
    exact hpair a (hitems.mem_iff.mp ha)
  single := by
    refine (h.single.perm hitems.symm fun hpair d hd hboth => hpair d hd hboth.symm).imp fun hpair d hd => ?_
    exact hpair d (hholders.mem_iff.mp hd)

/-- What a holder claims is all that it claims. -/
theorem toList_claimed (h : Exclusive claims holders items) (hd : d ∈ holders) :
    (claimed claims items d).toList = items.filter (claims d) := by
  have hitems := h.single
  clear h
  unfold claimed
  induction items with
  | nil => rfl
  | cons a items ih =>
    obtain ⟨ha, hrest⟩ := List.pairwise_cons.mp hitems
    by_cases hclaim : claims d a = true
    · have hnone : items.filter (claims d) = [] := List.filter_eq_nil_iff.mpr fun b hb hb' => ha b hb d hd ⟨hclaim, hb'⟩
      rw [List.find?_cons_of_pos hclaim, List.filter_cons_of_pos hclaim, hnone]
      rfl
    · rw [List.find?_cons_of_neg hclaim, List.filter_cons_of_neg hclaim, ih hrest]

/-- An option is what its list has. -/
theorem toList_injective {o o' : Option α} (h : o.toList = o'.toList) : o = o' := by
  cases o <;> cases o' <;> simp_all

/-- The order of the items does not change what a holder claims. -/
theorem claimed_perm (h : Exclusive claims holders items) (hitems : items'.Perm items) (hd : d ∈ holders) :
    claimed claims items' d = claimed claims items d := by
  have hperm := hitems.filter (claims d)
  rw [← toList_claimed h hd, ← toList_claimed (h.perm (List.Perm.refl _) hitems) hd] at hperm
  cases hsome : claimed claims items d with
  | none =>
    rw [hsome] at hperm
    exact Option.toList_eq_nil_iff.mp hperm.eq_nil
  | some a =>
    rw [hsome] at hperm
    exact Option.toList_eq_singleton_iff.mp hperm.eq_singleton

/-- Nor does the order of either list change which items nobody claims. -/
theorem unclaimed_perm (hholders : holders'.Perm holders) (hitems : items'.Perm items) :
    (unclaimed claims holders' items').Perm (unclaimed claims holders items) := by
  have hsame : (fun a => !holders'.any (claims · a)) = fun a => !holders.any (claims · a) :=
    funext fun a => congrArg (!·) (Bool.eq_iff_iff.mpr (by simp only [List.any_eq_true, hholders.mem_iff]))
  rw [unclaimed, unclaimed, hsame]
  exact hitems.filter _

/-- The items that are claimed and those that are not are all the items, each once. -/
theorem claimed_append_unclaimed (h : Exclusive claims holders items) :
    (holders.filterMap (claimed claims items) ++ unclaimed claims holders items).Perm items := by
  induction holders generalizing items with
  | nil => simp [unclaimed]
  | cons d holders ih =>
    obtain ⟨hd, hholders⟩ := List.pairwise_cons.mp h.apart
    -- The items of the others are among those that this one does not claim.
    have hothers : Exclusive claims holders (items.filter fun a => !claims d a) :=
      ⟨hholders.imp fun hpair a ha => hpair a (List.mem_of_mem_filter ha),
        (h.single.filter _).imp fun hpair d' hd' => hpair d' (List.mem_cons_of_mem _ hd')⟩
    have hclaimed : holders.filterMap (claimed claims items) =
        holders.filterMap (claimed claims (items.filter fun a => !claims d a)) := by
      refine List.filterMap_congr fun d' hd' => ?_
      have hfilter : (items.filter fun a => !claims d a).filter (claims d') = items.filter (claims d') := by
        rw [List.filter_filter]
        refine List.filter_congr fun a ha => ?_
        by_cases hclaim : claims d' a = true
        · have hnot : ¬claims d a = true := fun hclaim' => hd d' hd' a ha ⟨hclaim', hclaim⟩
          simp [hclaim, hnot]
        · simp [hclaim]
      rw [← toList_claimed h (List.mem_cons_of_mem _ hd'), ← toList_claimed hothers hd'] at hfilter
      exact (toList_injective hfilter).symm
    have hunclaimed : unclaimed claims (d :: holders) items = unclaimed claims holders (items.filter fun a => !claims d a) := by
      rw [unclaimed, unclaimed, List.filter_filter]
      refine List.filter_congr fun a _ => ?_
      simp [Bool.and_comm]
    have hfirst : (d :: holders).filterMap (claimed claims items) =
        items.filter (claims d) ++ holders.filterMap (claimed claims items) := by
      rw [← toList_claimed h List.mem_cons_self, List.filterMap_cons]
      cases claimed claims items d <;> rfl
    rw [hfirst, hclaimed, hunclaimed, List.append_assoc]
    exact ((ih hothers).append_left _).trans (List.filter_append_perm (claims d) items)

/-- A later item that a holder does not claim is nothing to it. -/
theorem claimed_append_of_not (hclaim : ¬claims d item = true) : claimed claims (items ++ [item]) d = claimed claims items d := by
  rw [claimed, List.find?_append, List.find?_cons_of_neg hclaim, List.find?_nil, Option.or_none, claimed]

/-- A later item that a holder claims is the one. -/
theorem claimed_append_of_claims (h : Exclusive claims holders (items ++ [item])) (hd : d ∈ holders)
    (hclaim : claims d item = true) :
    claimed claims items d = none ∧ claimed claims (items ++ [item]) d = some item := by
  have hnone : claimed claims items d = none := by
    refine List.find?_eq_none.mpr fun a ha hclaim' => ?_
    exact (List.pairwise_append.mp h.single).2.2 a ha item (List.mem_singleton_self _) d hd ⟨hclaim', hclaim⟩
  refine ⟨hnone, ?_⟩
  rw [claimed] at hnone
  rw [claimed, List.find?_append, hnone, Option.none_or, List.find?_cons_of_pos hclaim]

/-- The row in the middle of a list is changed. -/
theorem modify_append_cons (before after : List ρ) (row : ρ) (f : ρ → ρ) :
    (before ++ row :: after).modify before.length f = before ++ f row :: after := by
  induction before with
  | nil => rfl
  | cons first before ih => exact congrArg (first :: ·) ih

/-- The rows when all items have been taken in. -/
theorem foldl_attach (h : Exclusive claims holders items) (row : δ → ρ) (others : List ρ) (update : α → ρ → ρ) (create : α → ρ) :
    items.foldl (attach claims holders update create) (holders.map row ++ others) =
      (holders.map fun d => (claimed claims items d).elim (row d) fun a => update a (row d)) ++ others ++
        (unclaimed claims holders items).map create := by
  induction items using List.reverseRecOn with
  | nil => simp [claimed, unclaimed]
  | append_singleton items item ih =>
    rw [List.foldl_append, ih h.of_append, List.foldl_cons, List.foldl_nil, attach]
    cases hindex : holders.findIdx? (claims · item) with
    | none =>
      have hnone : ∀ d ∈ holders, ¬claims d item = true := by simpa using hindex
      have hrows : ∀ d ∈ holders, claimed claims (items ++ [item]) d = claimed claims items d :=
        fun d hd => claimed_append_of_not (hnone d hd)
      have hany : holders.any (claims · item) = false := by simpa using hnone
      have hunclaimed : unclaimed claims holders (items ++ [item]) = unclaimed claims holders items ++ [item] := by
        simp [unclaimed, hany]
      have hmap : (holders.map fun d => (claimed claims (items ++ [item]) d).elim (row d) fun a => update a (row d)) =
          holders.map fun d => (claimed claims items d).elim (row d) fun a => update a (row d) :=
        List.map_congr_left fun d hd => by rw [hrows d hd]
      rw [hmap, hunclaimed, List.map_append, List.map_singleton, List.append_assoc _ _ [create item]]
    | some i =>
      obtain ⟨hlt, hclaim, -⟩ := List.findIdx?_eq_some_iff_getElem.mp hindex
      obtain ⟨before, d, after, rfl, rfl⟩ : ∃ before d after, holders = before ++ d :: after ∧ before.length = i :=
        ⟨holders.take i, holders[i], holders.drop (i + 1), by rw [List.getElem_cons_drop, List.take_append_drop],
          List.length_take_of_le (Nat.le_of_lt hlt)⟩
      have hclaim : claims d item = true := by simpa using hclaim
      obtain ⟨-, hrest, hcross⟩ := List.pairwise_append.mp h.apart
      have hmem : item ∈ items ++ [item] := List.mem_append_right _ (List.mem_singleton_self _)
      have hbefore : ∀ d' ∈ before, claimed claims (items ++ [item]) d' = claimed claims items d' := fun d' hd' =>
        claimed_append_of_not fun hclaim' => hcross d' hd' d List.mem_cons_self item hmem ⟨hclaim', hclaim⟩
      have hafter : ∀ d' ∈ after, claimed claims (items ++ [item]) d' = claimed claims items d' := fun d' hd' =>
        claimed_append_of_not fun hclaim' => (List.pairwise_cons.mp hrest).1 d' hd' item hmem ⟨hclaim, hclaim'⟩
      obtain ⟨hnone, hsome⟩ := claimed_append_of_claims h (List.mem_append_right _ List.mem_cons_self) hclaim
      have hunclaimed : unclaimed claims (before ++ d :: after) (items ++ [item]) = unclaimed claims (before ++ d :: after) items := by
        simp [unclaimed, hclaim]
      have hmapBefore : (before.map fun d => (claimed claims (items ++ [item]) d).elim (row d) fun a => update a (row d)) =
          before.map fun d => (claimed claims items d).elim (row d) fun a => update a (row d) :=
        List.map_congr_left fun d hd => by rw [hbefore d hd]
      have hmapAfter : (after.map fun d => (claimed claims (items ++ [item]) d).elim (row d) fun a => update a (row d)) =
          after.map fun d => (claimed claims items d).elim (row d) fun a => update a (row d) :=
        List.map_congr_left fun d hd => by rw [hafter d hd]
      have hmodify := modify_append_cons (before.map fun d => (claimed claims items d).elim (row d) fun a => update a (row d))
        ((after.map fun d => (claimed claims items d).elim (row d) fun a => update a (row d)) ++
          (others ++ (unclaimed claims (before ++ d :: after) items).map create)) (row d) (update item)
      rw [List.length_map] at hmodify
      simp only [List.map_append, List.map_cons, hnone, hsome, Option.elim_none, Option.elim_some, hunclaimed, hmapBefore, hmapAfter,
        List.append_assoc, List.cons_append, hmodify]

end Claims
