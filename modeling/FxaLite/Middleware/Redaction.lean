import FxaLite.Middleware.Tracing
import Mathlib.Algebra.BigOperators.Group.List.Basic
import Mathlib.Tactic.Ring

/-!
# What the trace gives away

Two exchanges that differ only in their secrets should leave the same lines. Here is what it means to
differ only there, and which secrets the redaction does let through: numbers before the cut of a long body,
strings in lists, a credential without a scheme, and one that is too short to be cut.
-/

namespace FxaLite.Middleware

/-! ### Differing only in secrets -/

/-- Two secrets of one length, that begin alike if they are long. -/
def SameSecret {α : Type} (s t : List α) : Prop :=
  s.length = t.length ∧ (minRedactedLength < s.length → s.take prefixLength = t.take prefixLength)

/-- Where a value is: in the open, under the name of a secret, or in a list under one. -/
inductive Place where
  | plain
  | direct
  | listed
  deriving DecidableEq

/-- The place of the items of a list. -/
def Place.items : Place → Place
  | .plain => .plain
  | _ => .listed

/-- The place of a member. -/
def Place.member (secrets : List Points) (key : Points) : Place := if key ∈ secrets then .direct else .plain

section Documents

variable (secrets : List Points)

mutual

/-- Two documents that differ only in secrets. -/
def Alike : Place → Json → Json → Prop
  | _, .null, .null => True
  | _, .bool value, .bool value' => value = value'
  | place, .number written, .number written' => if place = .plain then written = written' else written.length = written'.length
  | place, .str text, .str text' => if place = .plain then text = text' else SameSecret text text'
  | place, .arr items, .arr items' => AlikeItems place.items items items'
  | _, .obj members, .obj members' => AlikeMembers members members'
  | _, _, _ => False

/-- Two lists that differ only in secrets. -/
def AlikeItems : Place → List Json → List Json → Prop
  | _, [], [] => True
  | place, item :: items, item' :: items' => Alike place item item' ∧ AlikeItems place items items'
  | _, _, _ => False

/-- Two dictionaries that differ only in secrets. -/
def AlikeMembers : List (Points × Json) → List (Points × Json) → Prop
  | [], [] => True
  | (key, item) :: members, (key', item') :: members' =>
    key = key' ∧ Alike (Place.member secrets key) item item' ∧ AlikeMembers members members'
  | _, _ => False

end

mutual

/-- No secret of a document is a string in a list. -/
def Sealed : Place → Json → Prop
  | place, .str text => place = .listed → text = []
  | place, .arr items => SealedItems place.items items
  | _, .obj members => SealedMembers members
  | _, _ => True

/-- Nor of a list. -/
def SealedItems : Place → List Json → Prop
  | _, [] => True
  | place, item :: items => Sealed place item ∧ SealedItems place items

/-- Nor of a dictionary. -/
def SealedMembers : List (Points × Json) → Prop
  | [] => True
  | (key, item) :: members => Sealed (Place.member secrets key) item ∧ SealedMembers members

end

/-- What is written for a value in its place. -/
def redactAt : Place → Json → Json
  | .direct, node => elide secrets node
  | _, node => redact secrets node

mutual

/-- What is written for a document, with blanks for the characters of numbers under the names of secrets. -/
def masked : Place → Json → List (Option ℕ)
  | place, .number written => written.map fun c => if place = .plain then some c else none
  | place, .arr items => some 91 :: (((Points.ofString ", ").map some).intercalate (maskedItems place.items items) ++ [some 93])
  | _, .obj members =>
    some 123 :: (((Points.ofString ", ").map some).intercalate (((maskedMembers members).insertionSort fun a b =>
      keyLe a.1 b.1).map fun member => (JsonText.quoted member.1 ++ Points.ofString ": ").map some ++ member.2) ++ [some 125])
  | place, node => (dumps (redactAt secrets place node)).map some

/-- The items of a list. -/
def maskedItems : Place → List Json → List (List (Option ℕ))
  | _, [] => []
  | place, item :: items => masked place item :: maskedItems place items

/-- The members of a dictionary. -/
def maskedMembers : List (Points × Json) → List (Points × List (Option ℕ))
  | [] => []
  | (key, item) :: members => (key, masked (Place.member secrets key) item) :: maskedMembers members

end

end Documents

/-- Two bodies that differ only in secrets. -/
def AlikeBodies (secrets : List Points) : Body → Body → Prop
  | .document doc, .document doc' => Alike secrets .plain doc doc'
  | body, body' => body = body'

/-- Two query strings that differ only in secrets. -/
def AlikeQueries (secrets : List Points) (raw raw' : List UInt8) : Prop :=
  List.Forall₂ (fun pair pair' => pair.1 = pair'.1 ∧ if pair.1 ∈ secrets then SameSecret pair.2 pair'.2 else pair.2 = pair'.2)
    (parseQsl (decodeReplace 0 raw)) (parseQsl (decodeReplace 0 raw'))

/-- Two values of the authorization header that differ only in the credential. -/
def AlikeAuthorizations (value value' : List UInt8) : Prop :=
  let (scheme, hasSpace, credential) := Py.partition ' ' (Py.latin1 value)
  let (scheme', hasSpace', credential') := Py.partition ' ' (Py.latin1 value')
  hasSpace = hasSpace' ∧
    if hasSpace then scheme = scheme' ∧ SameSecret credential credential' else SameSecret (Py.latin1 value) (Py.latin1 value')

/-- Two exchanges on one path that differ only in secrets. -/
structure AlikeExchanges (e e' : Exchange) : Prop where
  method : e.method = e'.method
  path : e.path = e'.path
  status : e.status = e'.status
  queryString : AlikeQueries (secretsFor e.path) e.queryString e'.queryString
  headers : List.Forall₂ (fun header header' => header.1 = header'.1 ∧
    if header.1 = authorizationName then AlikeAuthorizations header.2 header'.2 else header.2 = header'.2) e.headers e'.headers
  request : AlikeBodies (secretsFor e.path) e.request e'.request
  response : AlikeBodies (secretsFor e.path) e.response e'.response

/-- A body without a secret that is a string in a list, or a number that is not all behind the cut. -/
def SealedBody (secrets : List Points) : Body → Prop
  | .document doc => Sealed secrets .plain doc ∧ none ∉ (masked secrets .plain doc).take maxBodyChars
  | _ => True

/-- A body that is nested too deep to be read, or to be redacted. -/
def Overflows (bears : ℕ) (secrets : List Points) : Body → Prop
  | .document doc => bears < redactCalls secrets doc
  | .tooDeep => True
  | _ => False

/-- An authorization header that is absent or empty, or has a scheme, a space, and a credential that is long
or empty. -/
def SealedAuthorization (header : Option (List UInt8)) : Prop :=
  ∀ value, header = some value → value ≠ [] →
    let (_, hasSpace, credential) := Py.partition ' ' (Py.latin1 value)
    hasSpace = true ∧ (credential = [] ∨ minRedactedLength < credential.length)

/-! ### What is sealed is not written -/

section Sealing

variable {secrets : List Points} {place : Place}

/-- A secret string is not written. -/
theorem elideText_eq {text text' : Points} (h : SameSecret text text') : elideText text' = elideText text := by
  unfold elideText
  rw [← h.1]
  split
  · rename_i hlong
    rw [h.2 hlong]
  · rfl

/-- Only a string is written otherwise directly under the name of a secret. -/
theorem redactAt_of_ne_direct (hplace : place ≠ .direct) (node : Json) : redactAt secrets place node = redact secrets node := by
  cases place with
  | direct => exact absurd rfl hplace
  | plain => rfl
  | listed => rfl

/-- A list is redacted item by item in every place. -/
theorem redactAt_arr (items : List Json) : redactAt secrets place (.arr items) = .arr (redactItems secrets items) := by
  cases place <;> simp only [redactAt, elide, elided, redact]

/-- And a dictionary member by member. -/
theorem redactAt_obj (members : List (Points × Json)) :
    redactAt secrets place (.obj members) = .obj (redactMembers secrets members) := by
  cases place <;> simp only [redactAt, elide, elided, redact]

/-- The items of a list are not directly under a name. -/
theorem Place.items_ne_direct (place : Place) : place.items ≠ .direct := by
  cases place <;> decide

mutual

/-- A document that is sealed is written like any that differs only in secrets, but for the blanks. -/
theorem masked_eq_of_alike : ∀ (place : Place) (doc doc' : Json), Sealed secrets place doc → Alike secrets place doc doc' →
    masked secrets place doc' = masked secrets place doc
  | place, .null, .null, _, _ => rfl
  | place, .bool value, .bool value', _, halike => by
    simp only [Alike] at halike
    rw [halike]
  | place, .number written, .number written', _, halike => by
    simp only [Alike] at halike
    simp only [masked]
    split at halike
    · rw [halike]
    · rename_i hplace
      simp only [if_neg hplace, List.map_const', halike]
  | .plain, .str text, .str text', _, halike => by
    simp only [Alike, if_true] at halike
    rw [halike]
  | .direct, .str text, .str text', _, halike => by
    simp only [Alike, reduceCtorEq, if_false] at halike
    simp only [masked, redactAt, elide, elided, elideText_eq halike]
  | .listed, .str text, .str text', hsealed, halike => by
    simp only [Alike, Sealed, reduceCtorEq, if_false, forall_const] at halike hsealed
    rw [hsealed] at halike ⊢
    rw [List.length_eq_zero_iff.mp halike.1.symm]
  | place, .arr items, .arr items', hsealed, halike => by
    simp only [Alike, Sealed] at halike hsealed
    simp only [masked, maskedItems_eq_of_alike place.items items items' hsealed halike]
  | place, .obj members, .obj members', hsealed, halike => by
    simp only [Alike, Sealed] at halike hsealed
    simp only [masked, maskedMembers_eq_of_alike members members' hsealed halike]

/-- So are the items of a list. -/
theorem maskedItems_eq_of_alike : ∀ (place : Place) (items items' : List Json), SealedItems secrets place items →
    AlikeItems secrets place items items' → maskedItems secrets place items' = maskedItems secrets place items
  | place, [], [], _, _ => rfl
  | place, item :: items, item' :: items', hsealed, halike => by
    simp only [AlikeItems, SealedItems] at halike hsealed
    simp only [maskedItems, masked_eq_of_alike place item item' hsealed.1 halike.1,
      maskedItems_eq_of_alike place items items' hsealed.2 halike.2]

/-- And the members of a dictionary. -/
theorem maskedMembers_eq_of_alike : ∀ (members members' : List (Points × Json)), SealedMembers secrets members →
    AlikeMembers secrets members members' → maskedMembers secrets members' = maskedMembers secrets members
  | [], [], _, _ => rfl
  | (key, item) :: members, (key', item') :: members', hsealed, halike => by
    simp only [AlikeMembers, SealedMembers] at halike hsealed
    obtain ⟨rfl, halike, hrest⟩ := halike
    simp only [maskedMembers, masked_eq_of_alike _ item item' hsealed.1 halike,
      maskedMembers_eq_of_alike members members' hsealed.2 hrest]

end

mutual

/-- Documents that differ only in secrets are redacted by as many calls. -/
theorem redactCalls_eq_of_alike : ∀ (place : Place) (doc doc' : Json), Alike secrets place doc doc' →
    redactCalls secrets doc' = redactCalls secrets doc ∧
      elidingCalls doc' (redactCalls secrets doc') = elidingCalls doc (redactCalls secrets doc)
  | _, .null, .null, _ => ⟨rfl, rfl⟩
  | _, .bool _, .bool _, _ => ⟨rfl, rfl⟩
  | _, .number _, .number _, _ => ⟨rfl, rfl⟩
  | _, .str _, .str _, _ => ⟨rfl, rfl⟩
  | place, .arr items, .arr items', halike => by
    simp only [Alike] at halike
    simp only [redactCalls, elidingCalls, itemsCalls_eq_of_alike place.items items items' halike, and_self]
  | _, .obj members, .obj members', halike => by
    simp only [Alike] at halike
    simp only [redactCalls, elidingCalls, membersCalls_eq_of_alike members members' halike, and_self]

/-- So are the items of lists. -/
theorem itemsCalls_eq_of_alike : ∀ (place : Place) (items items' : List Json), AlikeItems secrets place items items' →
    itemsCalls secrets items' = itemsCalls secrets items
  | _, [], [], _ => rfl
  | place, item :: items, item' :: items', halike => by
    simp only [AlikeItems] at halike
    simp only [itemsCalls, (redactCalls_eq_of_alike place item item' halike.1).1,
      itemsCalls_eq_of_alike place items items' halike.2]

/-- And the members of dictionaries. -/
theorem membersCalls_eq_of_alike : ∀ (members members' : List (Points × Json)), AlikeMembers secrets members members' →
    membersCalls secrets members' = membersCalls secrets members
  | [], [], _ => rfl
  | (key, item) :: members, (key', item') :: members', halike => by
    simp only [AlikeMembers] at halike
    obtain ⟨rfl, halike, hrest⟩ := halike
    obtain ⟨hredact, helide⟩ := redactCalls_eq_of_alike _ item item' halike
    rw [membersCalls, membersCalls, helide, hredact, membersCalls_eq_of_alike members members' hrest]

end

end Sealing

/-! ### What is not sealed is written -/

section Leaking

variable {secrets : List Points}

/-- A secret differs from itself nowhere. -/
theorem sameSecret_refl {α : Type} (s : List α) : SameSecret s s := ⟨rfl, fun _ => rfl⟩

mutual

/-- A document differs from itself nowhere. -/
theorem alike_refl : ∀ (place : Place) (doc : Json), Alike secrets place doc doc
  | _, .null => trivial
  | _, .bool _ => rfl
  | place, .number written => by
    simp only [Alike, ite_self]
  | place, .str text => by
    simp only [Alike]
    split
    · trivial
    · exact sameSecret_refl text
  | place, .arr items => alikeItems_refl place.items items
  | _, .obj members => alikeMembers_refl members

/-- Nor does a list. -/
theorem alikeItems_refl : ∀ (place : Place) (items : List Json), AlikeItems secrets place items items
  | _, [] => trivial
  | place, item :: items => ⟨alike_refl place item, alikeItems_refl place items⟩

/-- Nor does a dictionary. -/
theorem alikeMembers_refl : ∀ members : List (Points × Json), AlikeMembers secrets members members
  | [] => trivial
  | (key, item) :: members => ⟨rfl, alike_refl (Place.member secrets key) item, alikeMembers_refl members⟩

end

/-- The length of pieces with a separator between them. -/
theorem length_intercalate (sep : Points) (pieces : List Points) :
    (sep.intercalate pieces).length = (pieces.map List.length).sum + sep.length * (pieces.length - 1) := by
  induction pieces with
  | nil => rfl
  | cons piece pieces ih =>
    cases pieces with
    | nil => simp [List.intercalate]
    | cons next pieces =>
      rw [List.intercalate_cons_cons]
      simp only [List.length_append, ih, List.map_cons, List.sum_cons, List.length_cons, Nat.add_sub_cancel]
      ring

/-- The length of a list as it is written. -/
theorem length_dumps_arr (items : List Json) :
    (dumps (.arr items)).length = ((dumpsItems items).map List.length).sum + 2 * ((dumpsItems items).length - 1) + 2 := by
  have hsep : (Points.ofString ", ").length = 2 := rfl
  rw [dumps, List.length_cons, List.length_append, length_intercalate, hsep]
  rfl

/-- The length of a dictionary as it is written, whatever the order of its keys. -/
theorem length_dumps_obj (members : List (Points × Json)) :
    (dumps (.obj members)).length =
      ((dumpsMembers members).map fun member => (JsonText.quoted member.1).length + 2 + member.2.length).sum +
        2 * ((dumpsMembers members).length - 1) + 2 := by
  have hsep : (Points.ofString ", ").length = 2 := rfl
  have hcolon : (Points.ofString ": ").length = 2 := rfl
  have hperm := List.perm_insertionSort (fun a b : Points × Points => keyLe a.1 b.1) (dumpsMembers members)
  have hsum := (hperm.map fun member : Points × Points => (JsonText.quoted member.1).length + 2 + member.2.length).sum_eq
  rw [dumps, List.length_cons, List.length_append, length_intercalate, hsep, List.map_map, List.length_map, hperm.length_eq, ← hsum]
  simp only [Function.comp_def, List.length_append, hcolon, List.length_cons, List.length_nil]

/-- Two secrets that differ in their last character. -/
theorem sameSecret_append_singleton {α : Type} (init : List α) (last last' : α) : SameSecret (init ++ [last]) (init ++ [last']) := by
  refine ⟨by simp, fun hlong => ?_⟩
  have hbeginning : prefixLength ≤ init.length := by
    simp only [minRedactedLength, List.length_append, List.length_singleton] at hlong
    simp only [prefixLength]
    omega
  rw [List.take_append_of_le_length hbeginning, List.take_append_of_le_length hbeginning]

/-- A string of the same length that is written in another. -/
theorem exists_sameSecret {text : Points} (hne : text ≠ []) :
    ∃ text', SameSecret text text' ∧ (JsonText.quoted text').length ≠ (JsonText.quoted text).length := by
  obtain ⟨init, last, rfl⟩ : ∃ init last, text = init ++ [last] := ⟨_, _, (List.dropLast_append_getLast hne).symm⟩
  have hlength : ∀ c, (JsonText.quoted (init ++ [c])).length =
      (init.flatMap JsonText.escapePoint).length + (JsonText.escapePoint c).length + 2 := by
    intro c
    simp [JsonText.quoted, List.flatMap_append]
    ring
  have hsame : ∀ c, SameSecret (init ++ [last]) (init ++ [c]) := sameSecret_append_singleton init last
  -- A quote is escaped by two characters, and a letter stands for itself.
  by_cases hone : (JsonText.escapePoint last).length = 1
  · have hquote : (JsonText.escapePoint 34).length = 2 := rfl
    exact ⟨init ++ [34], hsame 34, by rw [hlength, hlength, hone, hquote]; omega⟩
  · have hletter : (JsonText.escapePoint 97).length = 1 := rfl
    exact ⟨init ++ [97], hsame 97, by rw [hlength, hlength, hletter]; omega⟩

/-- The length of a list as it is redacted. -/
def itemsLength (secrets : List Points) (items : List Json) : ℕ := ((dumpsItems (redactItems secrets items)).map List.length).sum

/-- The length of a dictionary as it is redacted. -/
def membersLength (secrets : List Points) (members : List (Points × Json)) : ℕ :=
  ((dumpsMembers (redactMembers secrets members)).map fun member => (JsonText.quoted member.1).length + 2 + member.2.length).sum

mutual

/-- A document that is not sealed is not written like every one that differs only in secrets. -/
theorem exists_alike : ∀ (place : Place) (doc : Json), ¬Sealed secrets place doc → ∃ doc', Alike secrets place doc doc' ∧
    (dumps (redactAt secrets place doc')).length ≠ (dumps (redactAt secrets place doc)).length
  | place, .null, hsealed => absurd trivial hsealed
  | place, .bool _, hsealed => absurd trivial hsealed
  | place, .number _, hsealed => absurd trivial hsealed
  | place, .str text, hsealed => by
    simp only [Sealed, Classical.not_imp] at hsealed
    obtain ⟨rfl, hne⟩ := hsealed
    obtain ⟨text', hsame, hlength⟩ := exists_sameSecret hne
    refine ⟨.str text', by simpa only [Alike, reduceCtorEq, if_false] using hsame, ?_⟩
    simpa only [redactAt, redact, dumps] using hlength
  | place, .arr items, hsealed => by
    simp only [Sealed] at hsealed
    obtain ⟨items', halike, hcount, hlength⟩ := exists_alikeItems place.items items place.items_ne_direct hsealed
    refine ⟨.arr items', halike, ?_⟩
    rw [redactAt_arr, redactAt_arr, length_dumps_arr, length_dumps_arr, hcount]
    unfold itemsLength at hlength
    omega
  | place, .obj members, hsealed => by
    simp only [Sealed] at hsealed
    obtain ⟨members', halike, hcount, hlength⟩ := exists_alikeMembers members hsealed
    refine ⟨.obj members', halike, ?_⟩
    rw [redactAt_obj, redactAt_obj, length_dumps_obj, length_dumps_obj, hcount]
    unfold membersLength at hlength
    omega

/-- Nor is a list. -/
theorem exists_alikeItems : ∀ (place : Place) (items : List Json), place ≠ .direct → ¬SealedItems secrets place items →
    ∃ items', AlikeItems secrets place items items' ∧
      (dumpsItems (redactItems secrets items')).length = (dumpsItems (redactItems secrets items)).length ∧
      itemsLength secrets items' ≠ itemsLength secrets items
  | place, [], _, hsealed => absurd trivial hsealed
  | place, item :: items, hplace, hsealed => by
    have hcons : ∀ item items, itemsLength secrets (item :: items) =
        (dumps (redactAt secrets place item)).length + itemsLength secrets items := by
      intro item items
      rw [redactAt_of_ne_direct hplace]
      simp only [itemsLength, redactItems, dumpsItems, List.map_cons, List.sum_cons]
    by_cases hitem : Sealed secrets place item
    · have hrest : ¬SealedItems secrets place items := fun hitems => hsealed ⟨hitem, hitems⟩
      obtain ⟨items', halike, hcount, hlength⟩ := exists_alikeItems place items hplace hrest
      refine ⟨item :: items', ⟨alike_refl place item, halike⟩, by simp only [redactItems, dumpsItems, List.length_cons, hcount], ?_⟩
      rw [hcons, hcons]
      omega
    · obtain ⟨item', halike, hlength⟩ := exists_alike place item hitem
      refine ⟨item' :: items, ⟨halike, alikeItems_refl place items⟩, by simp only [redactItems, dumpsItems, List.length_cons], ?_⟩
      rw [hcons, hcons]
      omega

/-- Nor is a dictionary. -/
theorem exists_alikeMembers : ∀ members : List (Points × Json), ¬SealedMembers secrets members →
    ∃ members', AlikeMembers secrets members members' ∧
      (dumpsMembers (redactMembers secrets members')).length = (dumpsMembers (redactMembers secrets members)).length ∧
      membersLength secrets members' ≠ membersLength secrets members
  | [], hsealed => absurd trivial hsealed
  | (key, item) :: members, hsealed => by
    have hcons : ∀ item members, membersLength secrets ((key, item) :: members) = (JsonText.quoted key).length + 2 +
        (dumps (redactAt secrets (Place.member secrets key) item)).length + membersLength secrets members := by
      intro item members
      by_cases hkey : key ∈ secrets <;>
        simp only [membersLength, redactMembers, dumpsMembers, List.map_cons, List.sum_cons, Place.member, hkey, if_true, if_false,
          redactAt, elide]
    by_cases hitem : Sealed secrets (Place.member secrets key) item
    · have hrest : ¬SealedMembers secrets members := fun hmembers => hsealed ⟨hitem, hmembers⟩
      obtain ⟨members', halike, hcount, hlength⟩ := exists_alikeMembers members hrest
      refine ⟨(key, item) :: members', ⟨rfl, alike_refl _ item, halike⟩,
        by simp only [redactMembers, dumpsMembers, List.length_cons, hcount], ?_⟩
      rw [hcons, hcons]
      omega
    · obtain ⟨item', halike, hlength⟩ := exists_alike (Place.member secrets key) item hitem
      refine ⟨(key, item') :: members, ⟨rfl, halike, alikeMembers_refl members⟩,
        by simp only [redactMembers, dumpsMembers, List.length_cons], ?_⟩
      rw [hcons, hcons]
      omega

end

/-- The digits of a number are its own. -/
theorem digits_injective : Function.Injective digits := fun _ _ h =>
  Py.str_injective (List.map_injective_iff.mpr (fun _ _ => Char.toNat_inj.mp) h)

/-- A text is no secret if another one of another length is written otherwise. -/
theorem truncate_ne {rendered rendered' : Points} (h : rendered'.length ≠ rendered.length) :
    truncate rendered' ≠ truncate rendered := by
  have hlength : ∀ s : Points, maxBodyChars < s.length → maxBodyChars < (s.take maxBodyChars ++ Points.ofString "… (" ++
      digits s.length ++ Points.ofString " chars)").length := by
    intro s hs
    have hsuffix : (Points.ofString " chars)").length = 7 := rfl
    simp only [List.length_append, List.length_take, hsuffix]
    omega
  unfold truncate
  split <;> split
  · rename_i hlong' hlong
    intro heq
    have hheads : (rendered'.take maxBodyChars ++ Points.ofString "… (").length =
        (rendered.take maxBodyChars ++ Points.ofString "… (").length := by
      simp only [List.length_append, List.length_take]
      omega
    exact h (digits_injective (List.append_inj_right (List.append_cancel_right heq) hheads))
  · rename_i hlong' hshort
    exact fun heq => hshort (heq ▸ hlength rendered' hlong')
  · rename_i hshort' hlong
    exact fun heq => hshort' (heq ▸ hlength rendered hlong)
  · exact fun heq => h (congrArg List.length heq)

end Leaking

/-! ### What stands in the blanks -/

section Blanks

variable {secrets : List Points} {ok : ℕ → Prop}

/-- A character that is written as it is, or stands in a blank. -/
def Shows (ok : ℕ → Prop) (mark : Option ℕ) (c : ℕ) : Prop := mark = some c ∨ mark = none ∧ ok c

/-- A text without blanks shows itself. -/
theorem shows_map_some (text : Points) : List.Forall₂ (Shows ok) (text.map some) text :=
  List.forall₂_map_left_iff.mpr (List.forall₂_same.mpr fun _ _ => Or.inl rfl)

/-- Blanks show what fills them. -/
theorem shows_blank {written text : Points} (hlength : text.length = written.length) (hok : ∀ c ∈ text, ok c) :
    List.Forall₂ (Shows ok) (written.map fun _ => none) text := by
  induction written generalizing text with
  | nil =>
    rw [List.length_eq_zero_iff.mp hlength]
    exact List.Forall₂.nil
  | cons _ written ih =>
    obtain ⟨c, text, rfl⟩ := List.exists_cons_of_length_eq_add_one hlength
    exact List.Forall₂.cons (Or.inr ⟨rfl, hok c List.mem_cons_self⟩)
      (ih (Nat.succ.inj hlength) fun d hd => hok d (List.mem_cons_of_mem _ hd))

/-- One part after another. -/
theorem shows_append {masks masks' : List (Option ℕ)} {text text' : Points} (h : List.Forall₂ (Shows ok) masks text)
    (h' : List.Forall₂ (Shows ok) masks' text') : List.Forall₂ (Shows ok) (masks ++ masks') (text ++ text') :=
  List.rel_append h h'

/-- Parts with a separator between them. -/
theorem shows_intercalate (sep : Points) {pieces : List (List (Option ℕ))} {pieces' : List Points}
    (h : List.Forall₂ (List.Forall₂ (Shows ok)) pieces pieces') :
    List.Forall₂ (Shows ok) ((sep.map some).intercalate pieces) (sep.intercalate pieces') := by
  induction h with
  | nil => exact List.Forall₂.nil
  | cons hpiece hrest ih =>
    cases hrest with
    | nil => simpa using hpiece
    | cons hnext hrest =>
      rw [List.intercalate_cons_cons, List.intercalate_cons_cons]
      exact shows_append (shows_append hpiece (shows_map_some sep)) ih

/-- Sorting keeps lists element by element alike, if the order sees only what is alike. -/
theorem forall₂_insertionSort {α β : Type} {r : α → α → Prop} {s : β → β → Prop} [DecidableRel r] [DecidableRel s]
    {R : α → β → Prop} (hsame : ∀ a b a' b', R a a' → R b b' → (r a b ↔ s a' b')) {l : List α} {l' : List β}
    (h : List.Forall₂ R l l') : List.Forall₂ R (l.insertionSort r) (l'.insertionSort s) := by
  have hinsert : ∀ {a : α} {a' : β} {l : List α} {l' : List β}, R a a' → List.Forall₂ R l l' →
      List.Forall₂ R (l.orderedInsert r a) (l'.orderedInsert s a') := by
    intro a a' l l' ha h
    induction h with
    | nil => exact List.Forall₂.cons ha List.Forall₂.nil
    | @cons b b' _ _ hb hrest ih =>
      rw [List.orderedInsert_cons, List.orderedInsert_cons]
      by_cases hle : r a b
      · rw [if_pos hle, if_pos ((hsame _ _ _ _ ha hb).mp hle)]
        exact List.Forall₂.cons ha (List.Forall₂.cons hb hrest)
      · rw [if_neg hle, if_neg fun h => hle ((hsame _ _ _ _ ha hb).mpr h)]
        exact List.Forall₂.cons hb ih
  induction h with
  | nil => exact List.Forall₂.nil
  | cons ha _ ih => exact hinsert ha ih

mutual

/-- A document with other numbers under the names of secrets. -/
def refill (secrets : List Points) (fill : Points → Points) : Place → Json → Json
  | place, .number written => .number (if place = .plain then written else fill written)
  | place, .arr items => .arr (refillItems secrets fill place.items items)
  | _, .obj members => .obj (refillMembers secrets fill members)
  | _, node => node

/-- A list with other numbers. -/
def refillItems (secrets : List Points) (fill : Points → Points) : Place → List Json → List Json
  | _, [] => []
  | place, item :: items => refill secrets fill place item :: refillItems secrets fill place items

/-- A dictionary with other numbers. -/
def refillMembers (secrets : List Points) (fill : Points → Points) : List (Points × Json) → List (Points × Json)
  | [] => []
  | (key, item) :: members => (key, refill secrets fill (Place.member secrets key) item) :: refillMembers secrets fill members

end

mutual

/-- Other numbers of the same length are a difference in secrets alone. -/
theorem alike_refill {fill : Points → Points} (hfill : ∀ written, (fill written).length = written.length) :
    ∀ (place : Place) (doc : Json), Alike secrets place doc (refill secrets fill place doc)
  | _, .null => trivial
  | _, .bool _ => rfl
  | place, .number written => by
    simp only [refill, Alike]
    split
    · rfl
    · exact (hfill written).symm
  | place, .str text => alike_refl place (.str text)
  | place, .arr items => alikeItems_refill hfill place.items items
  | _, .obj members => alikeMembers_refill hfill members

/-- In a list, too. -/
theorem alikeItems_refill {fill : Points → Points} (hfill : ∀ written, (fill written).length = written.length) :
    ∀ (place : Place) (items : List Json), AlikeItems secrets place items (refillItems secrets fill place items)
  | _, [] => trivial
  | place, item :: items => ⟨alike_refill hfill place item, alikeItems_refill hfill place items⟩

/-- And in a dictionary. -/
theorem alikeMembers_refill {fill : Points → Points} (hfill : ∀ written, (fill written).length = written.length) :
    ∀ members : List (Points × Json), AlikeMembers secrets members (refillMembers secrets fill members)
  | [] => trivial
  | (key, item) :: members => ⟨rfl, alike_refill hfill (Place.member secrets key) item, alikeMembers_refill hfill members⟩

end

mutual

/-- With the same numbers it is the same document. -/
theorem refill_id : ∀ (place : Place) (doc : Json), refill secrets id place doc = doc
  | _, .null => rfl
  | _, .bool _ => rfl
  | _, .number _ => by simp only [refill, id_eq, ite_self]
  | _, .str _ => rfl
  | place, .arr items => by simp only [refill, refillItems_id place.items items]
  | _, .obj members => by simp only [refill, refillMembers_id members]

/-- The same list. -/
theorem refillItems_id : ∀ (place : Place) (items : List Json), refillItems secrets id place items = items
  | _, [] => rfl
  | place, item :: items => by simp only [refillItems, refill_id place item, refillItems_id place items]

/-- The same dictionary. -/
theorem refillMembers_id : ∀ members : List (Points × Json), refillMembers secrets id members = members
  | [] => rfl
  | (key, item) :: members => by
    simp only [refillMembers, refill_id (Place.member secrets key) item, refillMembers_id members]

end

/-- What is written for a member. -/
theorem redactAt_member (key : Points) (item : Json) :
    redactAt secrets (Place.member secrets key) item =
      if key ∈ secrets then elided item (redact secrets item) else redact secrets item := by
  by_cases hkey : key ∈ secrets
  · simp only [Place.member, if_pos hkey, redactAt, elide]
  · simp only [Place.member, if_neg hkey, redactAt]

/-- What may stand for numbers: as many characters, of some kind. -/
def Fills (ok : ℕ → Prop) (fill : Points → Points) : Prop :=
  ∀ written, (fill written).length = written.length ∧ ∀ c ∈ fill written, ok c

mutual

/-- What is written for a document with other numbers is what is written for the first, with the blanks filled. -/
theorem shows_refill {fill : Points → Points} (hfill : Fills ok fill) : ∀ (place : Place) (doc : Json),
    List.Forall₂ (Shows ok) (masked secrets place doc) (dumps (redactAt secrets place (refill secrets fill place doc)))
  | place, .null => shows_map_some (dumps (redactAt secrets place .null))
  | place, .bool value => shows_map_some (dumps (redactAt secrets place (.bool value)))
  | place, .number written => by
    have hwritten : ∀ w, dumps (redactAt secrets place (.number w)) = w := by
      intro w
      cases place <;> simp only [redactAt, elide, elided, redact, dumps]
    rw [refill, hwritten, masked]
    by_cases hplace : place = .plain
    · simp only [if_pos hplace]
      exact shows_map_some written
    · simp only [if_neg hplace]
      exact shows_blank (hfill written).1 (hfill written).2
  | place, .str text => shows_map_some (dumps (redactAt secrets place (.str text)))
  | place, .arr items => by
    rw [refill, redactAt_arr, dumps, masked]
    exact List.Forall₂.cons (Or.inl rfl) (shows_append (shows_intercalate _
      (shows_refillItems hfill place.items items place.items_ne_direct)) (shows_map_some [93]))
  | place, .obj members => by
    rw [refill, redactAt_obj, dumps, masked]
    have hsorted := @forall₂_insertionSort _ _ (fun a b : Points × List (Option ℕ) => keyLe a.1 b.1 = true)
      (fun a b : Points × Points => keyLe a.1 b.1 = true) _ _ _ (fun a b a' b' ha hb => by rw [ha.1, hb.1]) _ _
      (shows_refillMembers hfill members)
    refine List.Forall₂.cons (Or.inl rfl) (shows_append (shows_intercalate _ ?_) (shows_map_some [125]))
    refine List.forall₂_map_left_iff.mpr (List.forall₂_map_right_iff.mpr (hsorted.imp fun member member' hmember => ?_))
    rw [hmember.1]
    exact shows_append (shows_map_some _) hmember.2

/-- So are the items of a list. -/
theorem shows_refillItems {fill : Points → Points} (hfill : Fills ok fill) : ∀ (place : Place) (items : List Json), place ≠ .direct →
    List.Forall₂ (List.Forall₂ (Shows ok)) (maskedItems secrets place items)
      (dumpsItems (redactItems secrets (refillItems secrets fill place items)))
  | _, [], _ => List.Forall₂.nil
  | place, item :: items, hplace => by
    have hitem := shows_refill hfill place item
    rw [redactAt_of_ne_direct hplace] at hitem
    exact List.Forall₂.cons hitem (shows_refillItems hfill place items hplace)

/-- And the members of a dictionary. -/
theorem shows_refillMembers {fill : Points → Points} (hfill : Fills ok fill) : ∀ members : List (Points × Json),
    List.Forall₂ (fun member member' => member.1 = member'.1 ∧ List.Forall₂ (Shows ok) member.2 member'.2)
      (maskedMembers secrets members) (dumpsMembers (redactMembers secrets (refillMembers secrets fill members)))
  | [] => List.Forall₂.nil
  | (key, item) :: members => by
    have hitem := shows_refill hfill (Place.member secrets key) item
    rw [redactAt_member] at hitem
    exact List.Forall₂.cons ⟨rfl, hitem⟩ (shows_refillMembers hfill members)

end

/-- What is written for a document is its masked form, with the blanks filled somehow. -/
theorem shows_redact (doc : Json) :
    List.Forall₂ (Shows fun _ => True) (masked secrets .plain doc) (dumps (redact secrets doc)) := by
  have hfill : Fills (fun _ => True) id := fun _ => ⟨rfl, fun _ _ => trivial⟩
  have hshows := @shows_refill secrets _ id hfill .plain doc
  rwa [refill_id] at hshows

/-- Before a place without blanks the texts are the same. -/
theorem take_eq_of_shows {masks : List (Option ℕ)} {text : Points} (h : List.Forall₂ (Shows ok) masks text) (n : ℕ)
    (hnone : none ∉ masks.take n) : masks.take n = (text.take n).map some := by
  induction h generalizing n with
  | nil => simp
  | @cons mark c masks text hmark _ ih =>
    cases n with
    | zero => rfl
    | succ n =>
      rw [List.take_succ_cons, List.mem_cons, not_or] at hnone
      rw [List.take_succ_cons, List.take_succ_cons, List.map_cons, ih n hnone.2]
      obtain hsome | ⟨hblank, -⟩ := hmark
      · rw [hsome]
      · exact absurd hblank.symm hnone.1

/-- Blanks that one character fills. -/
theorem eq_map_of_shows {masks : List (Option ℕ)} {text : Points} {fill : ℕ} (h : List.Forall₂ (Shows (· = fill)) masks text) :
    text = masks.map (·.getD fill) := by
  induction h with
  | nil => rfl
  | cons hmark _ ih =>
    rw [List.map_cons, ← ih]
    obtain rfl | ⟨rfl, rfl⟩ := hmark <;> rfl

end Blanks

/-! ### Bodies -/

section Bodies

variable {secrets : List Points} {bears : ℕ} {body body' : Body}

/-- A body differs from itself nowhere. -/
theorem alikeBodies_refl (body : Body) : AlikeBodies secrets body body := by
  cases body with
  | document doc => exact alike_refl .plain doc
  | empty => rfl
  | other length => rfl
  | tooDeep => rfl

/-- Texts of one length are cut alike exactly if they begin alike. -/
theorem truncate_eq_iff {rendered rendered' : Points} (hlength : rendered'.length = rendered.length) :
    truncate rendered' = truncate rendered ↔ rendered'.take maxBodyChars = rendered.take maxBodyChars := by
  have htake : (rendered'.take maxBodyChars).length = (rendered.take maxBodyChars).length := by
    rw [List.length_take, List.length_take, hlength]
  unfold truncate
  rw [hlength]
  split
  · rw [List.append_left_inj, List.append_left_inj, List.append_left_inj]
  · rename_i hshort
    rw [List.take_of_length_le (not_lt.mp hshort), List.take_of_length_le (hlength ▸ not_lt.mp hshort)]

/-- A body overflows as any does that differs only in secrets. -/
theorem overflows_iff_of_alike (halike : AlikeBodies secrets body body') :
    Overflows bears secrets body' ↔ Overflows bears secrets body := by
  cases body with
  | document doc =>
    cases body' with
    | document doc' => rw [Overflows, Overflows, (redactCalls_eq_of_alike .plain doc doc' halike).1]
    | _ => cases halike
  | _ => rw [show body' = _ from halike.symm]

/-- A body that is sealed is rendered like any that differs only in secrets. -/
theorem renderBody_eq_of_alike (hsealed : SealedBody secrets body) (halike : AlikeBodies secrets body body') :
    renderBody bears secrets body' = renderBody bears secrets body := by
  cases body with
  | document doc =>
    cases body' with
    | document doc' =>
      have hcalls := (redactCalls_eq_of_alike .plain doc doc' halike).1
      have hmasked := masked_eq_of_alike .plain doc doc' hsealed.1 halike
      have hshows := @shows_redact secrets doc
      have hshows' := @shows_redact secrets doc'
      rw [hmasked] at hshows'
      have hlength := hshows'.length_eq.symm.trans hshows.length_eq
      have htake := (take_eq_of_shows hshows' maxBodyChars hsealed.2).symm.trans (take_eq_of_shows hshows maxBodyChars hsealed.2)
      have htexts := (truncate_eq_iff hlength).mpr (List.map_injective_iff.mpr (Option.some_injective ℕ) htake)
      rw [renderBody, renderBody, hcalls, htexts]
    | _ => cases halike
  | _ => rw [show body' = _ from halike.symm]

/-- A document with a blank before the cut is written otherwise than one that differs only in secrets. -/
theorem exists_truncate_ne {doc : Json} (hnone : none ∈ (masked secrets .plain doc).take maxBodyChars) :
    ∃ doc', Alike secrets .plain doc doc' ∧ truncate (dumps (redact secrets doc')) ≠ truncate (dumps (redact secrets doc)) := by
  -- The numbers are written in ones, and then in twos.
  have hfill : ∀ c : ℕ, Fills (· = c) fun written => List.replicate written.length c := fun c written =>
    ⟨List.length_replicate, fun _ hd => List.eq_of_mem_replicate hd⟩
  have halike : ∀ c, Alike secrets .plain doc (refill secrets (fun written => List.replicate written.length c) .plain doc) :=
    fun c => alike_refill (fun written => (hfill c written).1) .plain doc
  have htext : ∀ c, dumps (redact secrets (refill secrets (fun written => List.replicate written.length c) .plain doc)) =
      (masked secrets .plain doc).map (·.getD c) := fun c => eq_map_of_shows (shows_refill (hfill c) .plain doc)
  by_contra hall
  have hsame : ∀ c, truncate ((masked secrets .plain doc).map (·.getD c)) = truncate (dumps (redact secrets doc)) := by
    intro c
    by_contra hne
    exact hall ⟨_, halike c, htext c ▸ hne⟩
  have hlength : ((masked secrets .plain doc).map (·.getD 50)).length = ((masked secrets .plain doc).map (·.getD 49)).length := by
    rw [List.length_map, List.length_map]
  have htake := (truncate_eq_iff hlength).mp ((hsame 50).trans (hsame 49).symm)
  rw [← List.map_take, ← List.map_take] at htake
  exact absurd (List.map_inj_left.mp htake none hnone) (by decide)

/-- A body that is rendered and not sealed is not rendered like every one that differs only in secrets. -/
theorem exists_renderBody_ne (hfits : ¬Overflows bears secrets body) (hsealed : ¬SealedBody secrets body) :
    ∃ body' rendered rendered', AlikeBodies secrets body body' ∧ renderBody bears secrets body = .ok rendered ∧
      renderBody bears secrets body' = .ok rendered' ∧ rendered' ≠ rendered := by
  cases body with
  | document doc =>
    have hexists : ∃ doc', Alike secrets .plain doc doc' ∧
        truncate (dumps (redact secrets doc')) ≠ truncate (dumps (redact secrets doc)) := by
      by_cases hstrings : Sealed secrets .plain doc
      · exact exists_truncate_ne (not_not.mp fun hnone => hsealed ⟨hstrings, hnone⟩)
      · obtain ⟨doc', halike, hlength⟩ := exists_alike .plain doc hstrings
        exact ⟨doc', halike, truncate_ne hlength⟩
    obtain ⟨doc', halike, hne⟩ := hexists
    have hcalls := (redactCalls_eq_of_alike .plain doc doc' halike).1
    refine ⟨.document doc', _, _, halike, if_neg hfits, ?_, hne⟩
    rw [renderBody, hcalls]
    exact if_neg hfits
  | tooDeep => exact absurd trivial hfits
  | _ => exact absurd trivial hsealed

/-- A body that does not overflow is rendered. -/
theorem exists_renderBody (h : ¬Overflows bears secrets body) : ∃ rendered, renderBody bears secrets body = .ok rendered := by
  cases body with
  | tooDeep => exact absurd trivial h
  | document doc => exact ⟨_, if_neg h⟩
  | _ => exact ⟨_, rfl⟩

/-- One that does is an error. -/
theorem renderBody_of_overflows (h : Overflows bears secrets body) : renderBody bears secrets body = .error .recursionError := by
  cases body with
  | tooDeep => rfl
  | document doc => exact if_pos h
  | _ => cases h

end Bodies

/-! ### Query strings -/

/-- A query string differs from itself nowhere. -/
theorem alikeQueries_refl (secrets : List Points) (raw : List UInt8) : AlikeQueries secrets raw raw := by
  refine List.forall₂_same.mpr fun pair _ => ⟨rfl, ?_⟩
  split
  · exact sameSecret_refl _
  · rfl

/-- Query strings that differ only in secrets are rendered alike. -/
theorem renderQuery_eq_of_alike {secrets : List Points} {raw raw' : List UInt8} (h : AlikeQueries secrets raw raw') :
    renderQuery secrets raw' = renderQuery secrets raw := by
  have hnone : parseQsl (decodeReplace 0 []) = [] := rfl
  have hrender : ∀ raw, renderQuery secrets raw = urlencode ((parseQsl (decodeReplace 0 raw)).map fun pair =>
      (pair.1, if pair.1 ∈ secrets then elideText pair.2 else pair.2)) := by
    intro raw
    unfold renderQuery
    split
    · rename_i hempty
      rw [hempty, hnone]
      rfl
    · rfl
  rw [hrender, hrender]
  congr 1
  unfold AlikeQueries at h
  generalize parseQsl (decodeReplace 0 raw) = pairs at h ⊢
  generalize parseQsl (decodeReplace 0 raw') = pairs' at h ⊢
  induction h with
  | nil => rfl
  | cons hpair _ ih =>
    obtain ⟨hkey, hvalue⟩ := hpair
    rw [List.map_cons, List.map_cons, ih, ← hkey]
    split
    · rename_i hsecret
      rw [if_pos hsecret] at hvalue
      rw [elideText_eq hvalue]
    · rename_i hsecret
      rw [if_neg hsecret] at hvalue
      rw [hvalue]

/-! ### The authorization header -/

section Authorizations

variable {value value' : List UInt8}

/-- A character of a header is its byte. -/
theorem latin1_injective : Function.Injective Py.latin1 := by
  refine List.map_injective_iff.mpr fun a b h => ?_
  have hlt : ∀ c : UInt8, c.toNat < 0xd800 := fun c => Nat.lt_trans c.toNat_lt (by decide)
  have hnat := congrArg Char.toNat h
  rw [Py.toNat_ofNat_of_lt (hlt a), Py.toNat_ofNat_of_lt (hlt b)] at hnat
  exact UInt8.toNat_inj.mp hnat

/-- A space is the byte of a space. -/
theorem space_mem_latin1 : ' ' ∈ Py.latin1 value ↔ 32 ∈ value := by
  have hspace : Py.latin1 [32] = [' '] := rfl
  constructor
  · intro hmem
    obtain ⟨b, hb, heq⟩ := List.mem_map.mp hmem
    have hone : Py.latin1 [b] = Py.latin1 [32] := by
      rw [hspace]
      exact congrArg (· :: []) heq
    rwa [List.singleton_inj.mp (latin1_injective hone)] at hb
  · exact fun hmem => List.mem_map.mpr ⟨32, hmem, rfl⟩

/-- A header with a space after its scheme. -/
theorem partition_latin1_append {before : List UInt8} (hbefore : 32 ∉ before) (after : List UInt8) :
    Py.partition ' ' (Py.latin1 (before ++ 32 :: after)) = (Py.latin1 before, true, Py.latin1 after) := by
  have happend : Py.latin1 (before ++ 32 :: after) = Py.latin1 before ++ ' ' :: Py.latin1 after := by
    rw [Py.latin1, List.map_append, List.map_cons]
    rfl
  rw [happend]
  exact Py.partition_append ' ' _ _ fun hmem => hbefore (space_mem_latin1.mp hmem)

/-- A header either has no space, or one after its scheme. -/
theorem partition_latin1 (value : List UInt8) :
    (32 ∉ value ∧ Py.partition ' ' (Py.latin1 value) = (Py.latin1 value, false, [])) ∨
      ∃ before after, value = before ++ 32 :: after ∧ 32 ∉ before ∧
        Py.partition ' ' (Py.latin1 value) = (Py.latin1 before, true, Py.latin1 after) := by
  by_cases hspace : (32 : UInt8) ∈ value
  · obtain ⟨before, after, rfl, hbefore⟩ := List.eq_append_cons_of_mem hspace
    exact Or.inr ⟨before, after, rfl, hbefore, partition_latin1_append hbefore after⟩
  · exact Or.inl ⟨hspace, Py.partition_of_not_mem ' ' _ fun hmem => hspace (space_mem_latin1.mp hmem)⟩

/-- A header without a space is rendered as it is. -/
theorem renderAuthorization_of_not_mem (hspace : 32 ∉ value) (hne : value ≠ []) :
    renderAuthorization (some (Py.latin1 value)) = Py.latin1 value := by
  have hpartition := Py.partition_of_not_mem ' ' (Py.latin1 value) fun hmem => hspace (space_mem_latin1.mp hmem)
  have hne' : Py.latin1 value ≠ [] := fun h => hne (List.map_eq_nil_iff.mp h)
  simp only [renderAuthorization, if_neg hne', hpartition, if_true]

/-- A header with a scheme is rendered with the beginning of its credential. -/
theorem renderAuthorization_append {before : List UInt8} (hbefore : 32 ∉ before) (after : List UInt8) :
    renderAuthorization (some (Py.latin1 (before ++ 32 :: after))) =
      if after = [] then Py.latin1 before
      else Py.latin1 before ++ ' ' :: ((Py.latin1 after).take prefixLength ++ "…".toList) := by
  have hne : Py.latin1 (before ++ 32 :: after) ≠ [] := by simp [Py.latin1]
  have hempty : (Py.latin1 after = []) = (after = []) := propext List.map_eq_nil_iff
  simp only [renderAuthorization, if_neg hne, partition_latin1_append hbefore, hempty]

/-- A header differs from itself nowhere. -/
theorem alikeAuthorizations_refl (value : List UInt8) : AlikeAuthorizations value value := by
  unfold AlikeAuthorizations
  refine ⟨rfl, ?_⟩
  split
  · exact ⟨rfl, sameSecret_refl _⟩
  · exact sameSecret_refl _

/-- A header that is sealed is rendered like any that differs only in the credential. -/
theorem renderAuthorization_eq_of_alike (hsealed : SealedAuthorization (some value)) (halike : AlikeAuthorizations value value') :
    renderAuthorization (some (Py.latin1 value')) = renderAuthorization (some (Py.latin1 value)) := by
  unfold AlikeAuthorizations at halike
  by_cases hne : value = []
  · subst hne
    have hempty : Py.partition ' ' (Py.latin1 []) = ([], false, []) := rfl
    simp only [hempty, Bool.false_eq_true, if_false] at halike
    have hvalue' : Py.latin1 value' = [] := List.length_eq_zero_iff.mp halike.2.1.symm
    rw [hvalue']
    rfl
  have hlong := hsealed value rfl hne
  obtain ⟨-, hpartition⟩ | ⟨before, after, rfl, hbefore, hpartition⟩ := partition_latin1 value
  · rw [hpartition] at hlong
    exact absurd hlong.1 Bool.false_ne_true
  obtain ⟨-, hpartition'⟩ | ⟨before', after', rfl, hbefore', hpartition'⟩ := partition_latin1 value'
  · rw [hpartition, hpartition'] at halike
    exact absurd halike.1.symm Bool.false_ne_true
  rw [hpartition] at hlong
  rw [hpartition, hpartition'] at halike
  simp only [if_true, true_and] at halike hlong
  obtain ⟨hscheme, hlength, hbeginning⟩ := halike
  rw [renderAuthorization_append hbefore, renderAuthorization_append hbefore', hscheme]
  have hempty : (after' = []) = (after = []) := by
    refine propext ?_
    rw [← List.length_eq_zero_iff, ← List.length_eq_zero_iff]
    simp only [Py.latin1, List.length_map] at hlength
    rw [hlength]
  simp only [hempty]
  split
  · rfl
  · rename_i hafter
    have hcredential : Py.latin1 after ≠ [] := fun h => hafter (List.map_eq_nil_iff.mp h)
    rw [hbeginning (hlong.resolve_left hcredential)]

/-- Another byte, and not a space. -/
theorem exists_other_byte (b : UInt8) : ∃ other : UInt8, other ≠ b ∧ other ≠ 32 := by
  by_cases h : b = 97
  · exact ⟨98, h ▸ by decide, by decide⟩
  · exact ⟨97, Ne.symm h, by decide⟩

/-- A header that is not sealed is not rendered like every one that differs only in the credential. -/
theorem exists_renderAuthorization_ne (hsealed : ¬SealedAuthorization (some value)) :
    ∃ value', AlikeAuthorizations value value' ∧
      renderAuthorization (some (Py.latin1 value')) ≠ renderAuthorization (some (Py.latin1 value)) := by
  have hexposed : value ≠ [] ∧ ¬(let (_, hasSpace, credential) := Py.partition ' ' (Py.latin1 value)
      hasSpace = true ∧ (credential = [] ∨ minRedactedLength < credential.length)) := by
    by_contra hnot
    refine hsealed fun v hv hne => ?_
    cases hv
    exact by_contra fun hexposed => hnot ⟨hne, hexposed⟩
  obtain ⟨hne, hexposed⟩ := hexposed
  unfold AlikeAuthorizations
  obtain ⟨hspace, hpartition⟩ | ⟨before, after, rfl, hbefore, hpartition⟩ := partition_latin1 value
  · -- The whole header is the credential, and it is written as it is: another last byte shows.
    obtain ⟨init, last, rfl⟩ : ∃ init last, value = init ++ [last] := ⟨_, _, (List.dropLast_append_getLast hne).symm⟩
    obtain ⟨other, hother, hspaceOther⟩ := exists_other_byte last
    have hspace' : 32 ∉ init ++ [other] := by
      simp only [List.mem_append, List.mem_singleton, not_or] at hspace ⊢
      exact ⟨hspace.1, fun h => hspaceOther h.symm⟩
    have hpartition' := Py.partition_of_not_mem ' ' (Py.latin1 (init ++ [other])) fun hmem =>
      hspace' (space_mem_latin1.mp hmem)
    refine ⟨init ++ [other], ?_, ?_⟩
    · rw [hpartition, hpartition']
      refine ⟨rfl, ?_⟩
      simp only [Bool.false_eq_true, if_false, Py.latin1, List.map_append]
      exact sameSecret_append_singleton _ _ _
    · rw [renderAuthorization_of_not_mem hspace' (by simp), renderAuthorization_of_not_mem hspace hne]
      intro heq
      have hlast := List.append_cancel_left (latin1_injective heq)
      exact hother (List.singleton_inj.mp hlast)
  · -- The credential is short, and its first byte is written.
    rw [hpartition] at hexposed
    simp only [true_and, not_or, not_lt] at hexposed
    obtain ⟨hcredential, hshort⟩ := hexposed
    cases after with
    | nil => exact absurd rfl hcredential
    | cons first after =>
      obtain ⟨other, hother, -⟩ := exists_other_byte first
      refine ⟨before ++ 32 :: other :: after, ?_, ?_⟩
      · rw [hpartition, partition_latin1_append hbefore]
        exact ⟨rfl, rfl, by simp [Py.latin1], fun hlong => absurd hlong (not_lt.mpr hshort)⟩
      · rw [renderAuthorization_append hbefore, renderAuthorization_append hbefore, if_neg (List.cons_ne_nil _ _),
          if_neg (List.cons_ne_nil _ _)]
        intro heq
        have hhead := congrArg List.head? (List.cons.inj (List.append_cancel_left heq)).2
        have hbyte : Py.latin1 [other] = Py.latin1 [first] := congrArg (· :: []) (Option.some.inj hhead)
        exact hother (List.singleton_inj.mp (latin1_injective hbyte))

end Authorizations

/-! ### The trace -/

section Exchanges

variable {bears : ℕ} {e e' : Exchange} {headers headers' : List (List UInt8 × List UInt8)}

/-- Headers that differ only in the credential. -/
abbrev AlikeHeaders (headers headers' : List (List UInt8 × List UInt8)) : Prop :=
  List.Forall₂ (fun header header' => header.1 = header'.1 ∧
    if header.1 = authorizationName then AlikeAuthorizations header.2 header'.2 else header.2 = header'.2) headers headers'

/-- Headers differ from themselves nowhere. -/
theorem alikeHeaders_refl (headers : List (List UInt8 × List UInt8)) : AlikeHeaders headers headers := by
  refine List.forall₂_same.mpr fun header _ => ⟨rfl, ?_⟩
  split
  · exact alikeAuthorizations_refl _
  · rfl

/-- Another header before it does not matter. -/
theorem authorization_cons_of_ne {name : List UInt8} (hname : name ≠ authorizationName) (value : List UInt8)
    (headers : List (List UInt8 × List UInt8)) : authorization ((name, value) :: headers) = authorization headers := by
  rw [authorization, List.lookup_cons, beq_false_of_ne (Ne.symm hname)]
  rfl

/-- The authorization of headers that differ only in the credential. -/
theorem authorization_of_alike (h : AlikeHeaders headers headers') :
    (authorization headers = none ∧ authorization headers' = none) ∨
      ∃ value value', authorization headers = some value ∧ authorization headers' = some value' ∧ AlikeAuthorizations value value' := by
  induction h with
  | nil => exact Or.inl ⟨rfl, rfl⟩
  | @cons header header' _ _ hheader _ ih =>
    obtain ⟨name, value⟩ := header
    obtain ⟨name', value'⟩ := header'
    obtain ⟨hname, hvalue⟩ := hheader
    subst hname
    by_cases hauth : name = authorizationName
    · rw [if_pos hauth] at hvalue
      exact Or.inr ⟨value, value', by simp [authorization, hauth], by simp [authorization, hauth], hvalue⟩
    · rwa [authorization_cons_of_ne hauth, authorization_cons_of_ne hauth]

/-- Any other credential can be sent in the place of one. -/
theorem exists_alikeHeaders {value value' : List UInt8} (hvalue : authorization headers = some value)
    (halike : AlikeAuthorizations value value') :
    ∃ headers', AlikeHeaders headers headers' ∧ authorization headers' = some value' := by
  induction headers with
  | nil => cases hvalue
  | cons header headers ih =>
    obtain ⟨name, found⟩ := header
    by_cases hauth : name = authorizationName
    · have hfound : found = value := by simpa [authorization, hauth] using hvalue
      refine ⟨(name, value') :: headers, List.Forall₂.cons ⟨rfl, ?_⟩ (alikeHeaders_refl headers), by simp [authorization, hauth]⟩
      rwa [if_pos hauth, hfound]
    · rw [authorization_cons_of_ne hauth] at hvalue
      obtain ⟨headers', halikeHeaders, hauthorization⟩ := ih hvalue
      refine ⟨(name, found) :: headers', List.Forall₂.cons ⟨rfl, ?_⟩ halikeHeaders,
        by rw [authorization_cons_of_ne hauth, hauthorization]⟩
      rw [if_neg hauth]

/-- Exchanges that differ only in secrets have one target. -/
theorem target_eq_of_alike (h : AlikeExchanges e e') : e'.target = e.target := by
  have hquery := renderQuery_eq_of_alike h.queryString
  simp only [Exchange.target, ← h.path, hquery]

/-- The lines of exchanges that differ only in secrets differ only in the authorization and the bodies. -/
theorem line_eq_of_alike (h : AlikeExchanges e e') (auth request response : Points) :
    e'.line auth request response = e.line auth request response := by
  simp only [Exchange.line, target_eq_of_alike h, ← h.method, ← h.status]

/-- A line says what its authorization is. -/
theorem line_injective_auth {auth auth' request response : Points} (h : e.line auth request response = e.line auth' request response) :
    auth = auth' :=
  List.append_cancel_left (List.append_cancel_right h)

/-- And its request. -/
theorem line_injective_request {auth request request' response : Points}
    (h : e.line auth request response = e.line auth request' response) : request = request' :=
  List.append_cancel_left (List.append_cancel_right (List.append_cancel_left h))

/-- And its response. -/
theorem line_injective_response {auth request response response' : Points}
    (h : e.line auth request response = e.line auth request response') : response = response' :=
  List.append_cancel_left (List.append_cancel_left (List.append_cancel_left h))

/-- An exchange with another one's bodies and headers, where these differ only in secrets. -/
theorem alikeExchanges_of {request response : Body} (hheaders : AlikeHeaders e.headers headers')
    (hrequest : AlikeBodies (secretsFor e.path) e.request request)
    (hresponse : AlikeBodies (secretsFor e.path) e.response response) :
    AlikeExchanges e { e with headers := headers', request := request, response := response } where
  method := rfl
  path := rfl
  status := rfl
  queryString := alikeQueries_refl _ _
  headers := hheaders
  request := hrequest
  response := hresponse

/-- What is written of the authorization. -/
def renderedAuthorization (headers : List (List UInt8 × List UInt8)) : Points :=
  (renderAuthorization ((authorization headers).map Py.latin1)).map Char.toNat

/-- An exchange whose bodies are not too deep leaves one line. -/
theorem trace_eq_ok {debug : Bool} {request response : Points} (htraced : e.isTraced debug = true)
    (hrequest : renderBody bears (secretsFor e.path) e.request = .ok request)
    (hresponse : renderBody bears (secretsFor e.path) e.response = .ok response) :
    trace debug bears e = .ok [e.line (renderedAuthorization e.headers) request response] := by
  rw [trace, if_pos htraced, hrequest, hresponse]
  rfl

/-- The authorization that is written, of headers that are sealed. -/
theorem renderedAuthorization_eq_of_alike (hsealed : SealedAuthorization (authorization headers)) (h : AlikeHeaders headers headers') :
    renderedAuthorization headers' = renderedAuthorization headers := by
  unfold renderedAuthorization
  obtain ⟨hnone, hnone'⟩ | ⟨value, value', hvalue, hvalue', halike⟩ := authorization_of_alike h
  · rw [hnone, hnone']
  · rw [hvalue] at hsealed
    rw [hvalue, hvalue', Option.map_some, Option.map_some, renderAuthorization_eq_of_alike hsealed halike]

/-- The authorization that is written, of headers that are not sealed. -/
theorem exists_renderedAuthorization_ne (hsealed : ¬SealedAuthorization (authorization headers)) :
    ∃ headers', AlikeHeaders headers headers' ∧ renderedAuthorization headers' ≠ renderedAuthorization headers := by
  cases hvalue : authorization headers with
  | none =>
    rw [hvalue] at hsealed
    exact absurd (fun value hnone => by cases hnone) hsealed
  | some value =>
    rw [hvalue] at hsealed
    obtain ⟨value', halike, hne⟩ := exists_renderAuthorization_ne hsealed
    obtain ⟨headers', halikeHeaders, hvalue'⟩ := exists_alikeHeaders hvalue halike
    refine ⟨headers', halikeHeaders, fun heq => hne ?_⟩
    rw [renderedAuthorization, renderedAuthorization, hvalue, hvalue', Option.map_some, Option.map_some] at heq
    exact List.map_injective_iff.mpr (fun _ _ => Char.toNat_inj.mp) heq

/-- Exchanges that leave one line say the same in it. -/
theorem line_eq_of_trace_eq {debug : Bool} {request request' response response' : Points} (halike : AlikeExchanges e e')
    (htraced : e.isTraced debug = true) (htrace : trace debug bears e' = trace debug bears e)
    (hrequest : renderBody bears (secretsFor e.path) e.request = .ok request)
    (hresponse : renderBody bears (secretsFor e.path) e.response = .ok response)
    (hrequest' : renderBody bears (secretsFor e.path) e'.request = .ok request')
    (hresponse' : renderBody bears (secretsFor e.path) e'.response = .ok response') :
    e.line (renderedAuthorization e'.headers) request' response' = e.line (renderedAuthorization e.headers) request response := by
  have htraced' : e'.isTraced debug = true := by
    rwa [Exchange.isTraced, ← halike.path, ← Exchange.isTraced]
  rw [halike.path] at hrequest' hresponse'
  rw [trace_eq_ok htraced hrequest hresponse, trace_eq_ok htraced' hrequest' hresponse', line_eq_of_alike halike] at htrace
  exact List.singleton_inj.mp (Except.ok.inj htrace)

/-- An exchange with a body that overflows leaves an error. -/
theorem trace_of_overflows {debug : Bool} (htraced : e.isTraced debug = true)
    (hover : Overflows bears (secretsFor e.path) e.request ∨ Overflows bears (secretsFor e.path) e.response) :
    trace debug bears e = .error .recursionError := by
  rw [trace, if_pos htraced]
  by_cases hrequest : Overflows bears (secretsFor e.path) e.request
  · rw [renderBody_of_overflows hrequest]
    rfl
  · obtain ⟨request, hrendered⟩ := exists_renderBody hrequest
    rw [hrendered, renderBody_of_overflows (hover.resolve_left hrequest)]
    rfl

/-- Exchanges that differ only in secrets leave the same lines if the secrets are sealed. -/
theorem trace_eq_of_alike {debug : Bool} (halike : AlikeExchanges e e')
    (hauthorization : SealedAuthorization (authorization e.headers)) (hrequest : SealedBody (secretsFor e.path) e.request)
    (hresponse : SealedBody (secretsFor e.path) e.response) : trace debug bears e' = trace debug bears e := by
  have htraced : e'.isTraced debug = e.isTraced debug := by
    rw [Exchange.isTraced, Exchange.isTraced, halike.path]
  have hauth := renderedAuthorization_eq_of_alike hauthorization halike.headers
  unfold renderedAuthorization at hauth
  rw [trace, trace, htraced, hauth, ← halike.path, renderBody_eq_of_alike hrequest halike.request,
    renderBody_eq_of_alike hresponse halike.response]
  simp only [line_eq_of_alike halike]

end Exchanges

/-- Every exchange that differs from this one only in secrets leaves the same lines exactly when it is not
traced, or has a body that is nested too deep for a line, or is sealed: its authorization header is absent or
empty, or has a scheme, a space and a credential that is long or empty, and in its bodies no secret is a
string in a list, nor a number that is not all behind the cut. -/
theorem trace_eq_iff (debug : Bool) (bears : ℕ) (e : Exchange) :
    (∀ e', AlikeExchanges e e' → trace debug bears e' = trace debug bears e) ↔
      e.isTraced debug = false ∨ Overflows bears (secretsFor e.path) e.request ∨ Overflows bears (secretsFor e.path) e.response ∨
        (SealedAuthorization (authorization e.headers) ∧ SealedBody (secretsFor e.path) e.request ∧
          SealedBody (secretsFor e.path) e.response) := by
  constructor
  · intro hall
    cases htraced : e.isTraced debug with
    | false => exact Or.inl rfl
    | true =>
      by_cases hdeep : Overflows bears (secretsFor e.path) e.request
      · exact Or.inr (Or.inl hdeep)
      by_cases hdeep' : Overflows bears (secretsFor e.path) e.response
      · exact Or.inr (Or.inr (Or.inl hdeep'))
      obtain ⟨request, hrequest⟩ := exists_renderBody hdeep
      obtain ⟨response, hresponse⟩ := exists_renderBody hdeep'
      have hsame : ∀ e', AlikeExchanges e e' → ∀ request' response', renderBody bears (secretsFor e.path) e'.request = .ok request' →
          renderBody bears (secretsFor e.path) e'.response = .ok response' →
          e.line (renderedAuthorization e'.headers) request' response' = e.line (renderedAuthorization e.headers) request response :=
        fun e' halike _ _ => line_eq_of_trace_eq halike htraced (hall e' halike) hrequest hresponse
      refine Or.inr (Or.inr (Or.inr ⟨?_, ?_, ?_⟩))
      · by_contra hsealed
        obtain ⟨headers', halike, hne⟩ := exists_renderedAuthorization_ne hsealed
        exact hne (line_injective_auth (hsame _ (alikeExchanges_of halike (alikeBodies_refl _) (alikeBodies_refl _)) _ _
          hrequest hresponse))
      · by_contra hsealed
        obtain ⟨body', rendered, rendered', halike, hrendered, hrendered', hne⟩ := exists_renderBody_ne hdeep hsealed
        rw [hrequest] at hrendered
        cases hrendered
        exact hne (line_injective_request
          (hsame _ (alikeExchanges_of (alikeHeaders_refl _) halike (alikeBodies_refl _)) _ _ hrendered' hresponse))
      · by_contra hsealed
        obtain ⟨body', rendered, rendered', halike, hrendered, hrendered', hne⟩ := exists_renderBody_ne hdeep' hsealed
        rw [hresponse] at hrendered
        cases hrendered
        exact hne (line_injective_response
          (hsame _ (alikeExchanges_of (alikeHeaders_refl _) (alikeBodies_refl _) halike) _ _ hrequest hrendered'))
  · intro hcondition e' halike
    have htraced : e'.isTraced debug = e.isTraced debug := by
      rw [Exchange.isTraced, Exchange.isTraced, halike.path]
    cases hdebug : e.isTraced debug with
    | false => rw [trace, trace, htraced, hdebug, if_neg Bool.false_ne_true, if_neg Bool.false_ne_true]
    | true =>
      obtain hnot | hdeep | hdeep | ⟨hauthorization, hrequest, hresponse⟩ := hcondition
      · rw [hdebug] at hnot
        exact absurd hnot.symm Bool.false_ne_true
      · have hdeep' := (overflows_iff_of_alike halike.request).mpr hdeep
        rw [trace_of_overflows hdebug (Or.inl hdeep), trace_of_overflows (htraced.trans hdebug) (Or.inl (halike.path ▸ hdeep'))]
      · have hdeep' := (overflows_iff_of_alike halike.response).mpr hdeep
        rw [trace_of_overflows hdebug (Or.inr hdeep), trace_of_overflows (htraced.trans hdebug) (Or.inr (halike.path ▸ hdeep'))]
      · exact trace_eq_of_alike halike hauthorization hrequest hresponse

/-- A request whose authorization header is a credential alone. -/
def bareRequest (credential : List UInt8) : Exchange where
  method := Points.ofString "GET"
  path := Points.ofString "/v1/account/profile"
  queryString := []
  headers := [(authorizationName, credential)]
  status := 401
  request := .empty
  response := .empty

/-- Two of twenty-four bytes that differ in the last one: the credential is written whole. -/
theorem bare_credential_written :
    AlikeExchanges (bareRequest (List.replicate 23 97 ++ [98])) (bareRequest (List.replicate 23 97 ++ [99])) ∧
      trace true 1000 (bareRequest (List.replicate 23 97 ++ [99])) ≠ trace true 1000 (bareRequest (List.replicate 23 97 ++ [98])) := by
  have hspace : ∀ last : UInt8, last ≠ 32 → (32 : UInt8) ∉ List.replicate 23 97 ++ [last] := by
    intro last hlast hmem
    obtain hmem | hmem := List.mem_append.mp hmem
    · exact absurd (List.eq_of_mem_replicate hmem) (by decide)
    · exact hlast (List.mem_singleton.mp hmem).symm
  have halike : AlikeAuthorizations (List.replicate 23 97 ++ [98]) (List.replicate 23 97 ++ [99]) := by
    have hnot : ∀ last : UInt8, last ≠ 32 → ' ' ∉ Py.latin1 (List.replicate 23 97 ++ [last]) :=
      fun last hlast hmem => hspace last hlast (space_mem_latin1.mp hmem)
    unfold AlikeAuthorizations
    rw [Py.partition_of_not_mem ' ' _ (hnot 98 (by decide)), Py.partition_of_not_mem ' ' _ (hnot 99 (by decide))]
    refine ⟨rfl, ?_⟩
    simp only [Bool.false_eq_true, if_false, Py.latin1, List.map_append]
    exact sameSecret_append_singleton _ _ _
  have hexchanges : AlikeExchanges (bareRequest (List.replicate 23 97 ++ [98])) (bareRequest (List.replicate 23 97 ++ [99])) :=
    alikeExchanges_of (List.Forall₂.cons ⟨rfl, by rwa [if_pos rfl]⟩ List.Forall₂.nil) (alikeBodies_refl .empty)
      (alikeBodies_refl .empty)
  refine ⟨hexchanges, fun htrace => ?_⟩
  have hauth := line_injective_auth (line_eq_of_trace_eq hexchanges rfl htrace rfl rfl rfl rfl)
  have hrendered : ∀ last : UInt8, last ≠ 32 → renderedAuthorization (bareRequest (List.replicate 23 97 ++ [last])).headers =
      (Py.latin1 (List.replicate 23 97 ++ [last])).map Char.toNat := by
    intro last hlast
    have hfound : authorization (bareRequest (List.replicate 23 97 ++ [last])).headers = some (List.replicate 23 97 ++ [last]) := by
      simp [authorization, bareRequest]
    rw [renderedAuthorization, hfound, Option.map_some, renderAuthorization_of_not_mem (hspace last hlast) (by simp)]
  rw [hrendered 98 (by decide), hrendered 99 (by decide)] at hauth
  have hbytes := latin1_injective (List.map_injective_iff.mpr (fun _ _ => Char.toNat_inj.mp) hauth)
  exact absurd (List.singleton_inj.mp (List.append_cancel_left hbytes)) (by decide)

end FxaLite.Middleware
