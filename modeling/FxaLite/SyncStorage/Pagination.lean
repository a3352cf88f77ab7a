import FxaLite.Lib.Fallible
import FxaLite.Lib.Keyset
import FxaLite.SyncStorage.Models

/-!
# Paging through a collection

A client reads a collection of full records page by page, each time sending back the offset
token of the page before. The token is a timestamp and a row count, written as text, parsed,
quantized and checked against the query's window on its way back. Whatever the runs of equal
timestamps look like and wherever the pages cut them, the pages together are the matching
records in the order that was asked for, each once. What ends a reading before that is an
integer that the statement cannot be bound to.
-/

namespace FxaLite.SyncStorage

open Relational Fallible Keyset SyncStore

/-! ### The two orders -/

theorem olderFirst_total (a b : Bso) : olderFirst a b ∨ olderFirst b a := by
  unfold olderFirst
  rcases lt_trichotomy a.modified b.modified with h | h | h
  · exact Or.inl (Or.inl h)
  · rcases le_total a.id b.id with hid | hid
    · exact Or.inl (Or.inr ⟨h, hid⟩)
    · exact Or.inr (Or.inr ⟨h.symm, hid⟩)
  · exact Or.inr (Or.inl h)

theorem olderFirst_trans {a b c : Bso} (hab : olderFirst a b) (hbc : olderFirst b c) : olderFirst a c := by
  unfold olderFirst at *
  rcases hab with hab | ⟨hab, hid⟩
  · rcases hbc with hbc | ⟨hbc, -⟩
    · exact Or.inl (hab.trans hbc)
    · exact Or.inl (hbc ▸ hab)
  · rcases hbc with hbc | ⟨hbc, hid'⟩
    · exact Or.inl (hab ▸ hbc)
    · exact Or.inr ⟨hab.trans hbc, hid.trans hid'⟩

theorem modified_le_of_olderFirst {a b : Bso} (h : olderFirst a b) : a.modified ≤ b.modified := by
  rcases h with h | h
  · exact h.le
  · exact h.1.le

/-- `ORDER BY modified ASC, id ASC`, resumed at `modified >= ?`. -/
def oldestOrder : Order Bso ℕ where
  le := olderFirst
  group := Bso.modified
  groupLe := (· ≤ ·)
  leDecidable := inferInstance
  groupDecidable := inferInstance
  total := olderFirst_total
  trans := olderFirst_trans
  group_mono := modified_le_of_olderFirst
  group_trans := le_trans
  group_antisymm := le_antisymm

/-- `ORDER BY modified DESC, id DESC`, resumed at `modified <= ?`. -/
def newestOrder : Order Bso ℕ where
  le := newerFirst
  group := Bso.modified
  groupLe := (· ≥ ·)
  leDecidable := inferInstance
  groupDecidable := inferInstance
  total a b := olderFirst_total b a
  trans hab hbc := olderFirst_trans hbc hab
  group_mono h := modified_le_of_olderFirst h
  group_trans hst htu := le_trans htu hst
  group_antisymm hst hts := le_antisymm hts hst

/-- The order in which records are paged, for any sort but `index`. -/
def orderOf (sort : Option Sorting) : Order Bso ℕ := if sort = some .oldest then oldestOrder else newestOrder

/-- A record is grouped by its timestamp. -/
@[simp] theorem orderOf_group (sort : Option Sorting) : (orderOf sort).group = Bso.modified := by
  unfold orderOf
  split <;> rfl

/-- Records that come no later than each other have one timestamp and one id. -/
theorem id_eq_of_le {sort : Option Sorting} {a b : Bso} (hab : (orderOf sort).le a b)
    (hba : (orderOf sort).le b a) : a.id = b.id := by
  have key : ∀ {a b : Bso}, olderFirst a b → olderFirst b a → a.id = b.id := by
    intro a b hab hba
    rcases hab with hab | hab
    · exact absurd (modified_le_of_olderFirst hba) (not_le.mpr hab)
    · rcases hba with hba | hba
      · exact absurd hab.1.le (not_le.mpr hba)
      · exact le_antisymm hab.2 hba.2
  by_cases hsort : sort = some .oldest
  · rw [orderOf, if_pos hsort] at hab hba
    exact key hab hba
  · rw [orderOf, if_neg hsort] at hab hba
    exact key hba hab

/-- The sort of a statement puts its rows in that order. -/
theorem pairwise_orderBy {sort : Option Sorting} (hsort : sort ≠ some .index) (rows : List Bso) :
    (orderBy sort true rows).Pairwise (orderOf sort).le := by
  have : Std.Total olderFirst := ⟨olderFirst_total⟩
  have : IsTrans Bso olderFirst := ⟨fun _ _ _ => olderFirst_trans⟩
  have : Std.Total newerFirst := ⟨fun a b => olderFirst_total b a⟩
  have : IsTrans Bso newerFirst := ⟨fun _ _ _ hab hbc => olderFirst_trans hbc hab⟩
  cases sort with
  | none => exact List.pairwise_insertionSort newerFirst rows
  | some sort =>
    cases sort with
    | newest => exact List.pairwise_insertionSort newerFirst rows
    | oldest => exact List.pairwise_insertionSort olderFirst rows
    | index => exact absurd rfl hsort

/-- It loses and adds none. -/
theorem orderBy_perm (sort : Option Sorting) (rows : List Bso) : (orderBy sort true rows).Perm rows := by
  cases sort with
  | none => exact List.perm_insertionSort newerFirst rows
  | some sort =>
    cases sort with
    | newest => exact List.perm_insertionSort newerFirst rows
    | oldest => exact List.perm_insertionSort olderFirst rows
    | index => exact List.perm_insertionSort indexFirst rows

/-- Records with distinct ids are put in strictly increasing order. -/
theorem sorted_orderBy {sort : Option Sorting} (hsort : sort ≠ some .index) {rows : List Bso}
    (hids : rows.Pairwise fun a b => a.id ≠ b.id) : (orderOf sort).Sorted (orderBy sort true rows) := by
  have hdistinct : (orderBy sort true rows).Pairwise fun a b => a.id ≠ b.id :=
    (orderBy_perm sort rows).symm.pairwise hids fun hab => hab.symm
  apply ((pairwise_orderBy hsort rows).and hdistinct).imp
  intro a b h hba
  exact h.2 (id_eq_of_le h.1 hba)

/-- However the engine visits the rows, it sorts them into the one list that is in order. -/
theorem orderBy_eq {sort : Option Sorting} (hsort : sort ≠ some .index) {rows l : List Bso}
    (hperm : rows.Perm l) (hl : (orderOf sort).Sorted l) : orderBy sort true rows = l :=
  hl.eq_of_perm (pairwise_orderBy hsort rows) ((orderBy_perm sort rows).trans hperm)

/-! ### One page -/

section Page

variable (self : SyncStore) (db : Db) (collectionId : ℕ) (query : BsoQuery)

/-- The records a read selects, in key order. -/
def matching : List Bso := (db.bso.select (selects self collectionId query true)).map bsoOfRow

/-- The records a reading without a token is of, in its order. -/
def listing : List Bso := orderBy query.sort true (matching self db collectionId { query with offset := none })

/-- The token of a reader who has been given everything up to a record. -/
def tokenAt (sort : Option Sorting) (l : List Bso) (m : Bso) : Offset :=
  ⟨some m.modified, (orderOf sort).ties m l⟩

/-- The page after a record: as much of what is left as the limit allows, and the token of its
last record if that is not all. -/
def pageAfter (mark : Option Bso) : Page :=
  let l := listing self db collectionId query
  let left := (orderOf query.sort).after mark l
  let page := left.take (limitOf query)
  ⟨.records page,
    if limitOf query < left.length then page.getLast?.map fun m => (tokenAt query.sort l m).toText else none⟩

variable {self db collectionId query}

/-- A record of the answer is a row of the table that matches. -/
theorem mem_matching {bso : Bso} : bso ∈ matching self db collectionId query ↔
    db.bso.find? ⟨self.uid, collectionId, bso.id⟩ = some ⟨bso.sortindex, bso.payload, bso.modified, bso.expiry⟩ ∧
      self.now < bso.expiry ∧
      matchesQuery query true bso.id ⟨bso.sortindex, bso.payload, bso.modified, bso.expiry⟩ = true := by
  unfold matching
  simp only [List.mem_map, Table.mem_select, selects, Bool.and_eq_true, decide_eq_true_eq]
  constructor
  · intro h
    obtain ⟨⟨⟨uid, c, id⟩, row⟩, ⟨hfind, ⟨⟨rfl, rfl⟩, halive⟩, hmatch⟩, rfl⟩ := h
    exact ⟨hfind, halive, hmatch⟩
  · intro h
    exact ⟨(⟨self.uid, collectionId, bso.id⟩, ⟨bso.sortindex, bso.payload, bso.modified, bso.expiry⟩),
      ⟨h.1, ⟨⟨rfl, rfl⟩, h.2.1⟩, h.2.2⟩, rfl⟩

/-- No id is selected twice. -/
theorem matching_ids : (matching self db collectionId query).Pairwise fun a b => a.id ≠ b.id := by
  unfold matching
  rw [List.pairwise_map]
  apply (db.bso.select_sorted _).imp_of_mem
  intro a b ha hb hlt heq
  have hkey : ∀ r ∈ db.bso.select (selects self collectionId query true), r.1 = ⟨self.uid, collectionId, r.1.id⟩ := by
    intro r hr
    have hsel := (Table.mem_select.mp hr).2
    simp only [selects, Bool.and_eq_true, decide_eq_true_eq] at hsel
    obtain ⟨⟨⟨huid, hc⟩, -⟩, -⟩ := hsel
    rw [← huid, ← hc]
  apply hlt.ne
  rw [hkey a ha, hkey b hb]
  exact congrArg _ heq

/-- The records of a reading are in order. -/
theorem sorted_listing (hsort : query.sort ≠ some .index) :
    (orderOf query.sort).Sorted (listing self db collectionId query) :=
  sorted_orderBy hsort matching_ids

/-- They are the ones that match. -/
theorem mem_listing {bso : Bso} : bso ∈ listing self db collectionId query ↔
    bso ∈ matching self db collectionId { query with offset := none } :=
  (orderBy_perm _ _).mem_iff

/-- A token does not change the limit. -/
@[simp] theorem limitOf_token (token : Option Offset) : limitOf { query with offset := token } = limitOf query := rfl

/-- A token bounds the rows from the side the reading comes from. -/
theorem matchesQuery_token (hsort : query.sort ≠ some .index) (t skip : ℕ) (id : String) (row : BsoRow) :
    matchesQuery { query with offset := some ⟨some t, skip⟩ } true id row =
      (decide ((orderOf query.sort).groupLe t row.modified) &&
        matchesQuery { query with offset := none } true id row) := by
  have hbound : resumeBound { query with offset := some ⟨some t, skip⟩ } true = some t := by
    simp [resumeBound, hsort]
  have hnone : resumeBound { query with offset := none } true = none := by
    simp [resumeBound]
  unfold matchesQuery
  simp only [hbound, hnone, Bool.true_and, Bool.and_assoc]
  congr 1
  by_cases hold : query.sort = some .oldest
  · simp [hold, orderOf, oldestOrder]
  · simp [hold, orderOf, newestOrder]

/-- The rows selected with a token are those of the token's group and later in the order. -/
theorem matching_token (hsort : query.sort ≠ some .index) (t skip : ℕ) :
    matching self db collectionId { query with offset := some ⟨some t, skip⟩ } =
      (orderOf query.sort).fromGroup t (matching self db collectionId { query with offset := none }) := by
  unfold matching Order.fromGroup Table.select
  rw [List.filter_map, List.filter_filter]
  congr 1
  apply List.filter_congr
  intro r _
  simp only [selects, matchesQuery_token hsort, Function.comp, orderOf_group, bsoOfRow]
  rw [Bool.and_left_comm]

/-- What the statement selects for a token, sorted, is what is left after the record the token
was given for, behind the rows that are skipped. -/
theorem left_of_token (scan : ScanOrder) (hsort : query.sort ≠ some .index) (mark : Option Bso) :
    (orderBy query.sort true (scan.scan (matching self db collectionId
        { query with offset := mark.map (tokenAt query.sort (listing self db collectionId query)) }))).drop
      (numericOffset { query with offset := mark.map (tokenAt query.sort (listing self db collectionId query)) }) =
      (orderOf query.sort).after mark (listing self db collectionId query) := by
  have hsorted : (orderOf query.sort).Sorted (listing self db collectionId query) := sorted_listing hsort
  have hperm : (matching self db collectionId { query with offset := none }).Perm
      (listing self db collectionId query) := (orderBy_perm query.sort _).symm
  cases mark with
  | none =>
    simp only [Option.map_none]
    rw [orderBy_eq hsort ((scan.perm _).trans hperm) hsorted]
    rfl
  | some m =>
    simp only [Option.map_some, tokenAt]
    rw [matching_token hsort, ← hsorted.drop_ties m, orderOf_group]
    apply congrArg
    exact orderBy_eq hsort ((scan.perm _).trans (hperm.filter _)) (hsorted.filter _)

/-- Timestamps of the database end in a zero, so quantizing leaves them. -/
theorem quantize_of_whole {t : ℕ} (h : t % 10 = 0) : quantize t = t := by
  unfold quantize
  omega

/-- The next token of a page names its last record. -/
theorem encodeNextOffset_eq {l : List Bso} {sort : Option Sorting} (hsort : sort ≠ some .index)
    (hl : (orderOf sort).Sorted l) (hwhole : ∀ bso ∈ l, bso.modified % 10 = 0) {mark : Option Bso} {n : ℕ} {m : Bso}
    (hm : (((orderOf sort).after mark l).take n).getLast? = some m) :
    encodeNextOffset sort (((mark.map (tokenAt sort l)).map Offset.offset).getD 0)
        ((mark.map (tokenAt sort l)).bind Offset.timestamp)
        ((((orderOf sort).after mark l).take n).map Bso.modified) = (tokenAt sort l m).toText := by
  obtain ⟨front, hpage⟩ := List.getLast?_eq_some_iff.mp hm
  have hmem : m ∈ l := Order.mem_of_mem_after (List.mem_of_mem_take (List.mem_of_getLast? hm))
  have hties : ∀ m', mark = some m' →
      ((mark.map (tokenAt sort l)).map Offset.offset).getD 0 = (orderOf sort).ties m' l := by
    intro m' hm'
    rw [hm']
    rfl
  have hskip := hl.skip_eq hpage hties
  have hprev : (mark.map (tokenAt sort l)).bind Offset.timestamp = mark.map Bso.modified := by
    cases mark with
    | none => rfl
    | some m' => rfl
  have hrun : ((front.map Bso.modified).reverse.takeWhile (· = m.modified)).length =
      (front.reverse.takeWhile fun bso => bso.modified = m.modified).length := by
    rw [← List.map_reverse, List.takeWhile_map, List.length_map]
    rfl
  rw [orderOf_group] at hskip
  rw [encodeNextOffset, if_neg hsort, hpage, hprev, tokenAt, hskip]
  simp only [List.map_append, List.map_cons, List.map_nil, List.getLast?_concat, List.dropLast_concat, hrun,
    List.length_append, List.length_map, List.length_cons, List.length_nil, quantize_of_whole (hwhole m hmem)]

/-- The page a token leads to is the one after the record it was given for. -/
theorem pageOf_token (scan : ScanOrder) (hsort : query.sort ≠ some .index) (hlimit : 0 < limitOf query)
    (hwhole : ∀ bso ∈ listing self db collectionId query, bso.modified % 10 = 0) {mark : Option Bso}
    {token : Option Offset} (htoken : token = mark.map (tokenAt query.sort (listing self db collectionId query))) :
    pageOf scan { query with offset := token } true (matching self db collectionId { query with offset := token }) =
      pageAfter self db collectionId query mark := by
  subst htoken
  have hleft := @left_of_token self db collectionId query scan hsort mark
  have hsorted : (orderOf query.sort).Sorted (listing self db collectionId query) := sorted_listing hsort
  have hsql : sqlLimit { query with offset := mark.map (tokenAt query.sort (listing self db collectionId query)) } =
      limitOf query + 1 := if_pos hlimit
  generalize hrest : (orderOf query.sort).after mark (listing self db collectionId query) = left at hleft
  have hlength : limitOf query < (left.take (limitOf query + 1)).length ↔ limitOf query < left.length := by
    rw [List.length_take]
    omega
  unfold pageOf pageAfter
  simp only [hleft, hsql, hrest, limitOf_token, if_true]
  by_cases hmore : limitOf query < left.length
  · -- there is a next page, and this one ends with some record
    have hpage : (left.take (limitOf query + 1)).dropLast = left.take (limitOf query) := by
      rw [List.dropLast_eq_take, List.length_take, List.take_take]
      congr 1
      omega
    have hne : left.take (limitOf query) ≠ [] := by
      rw [← List.length_pos_iff, List.length_take]
      omega
    obtain ⟨m, hm⟩ := Option.ne_none_iff_exists'.mp (mt List.getLast?_eq_none_iff.mp hne)
    have htoken := encodeNextOffset_eq hsort hsorted hwhole (hrest.symm ▸ hm)
    rw [hrest] at htoken
    rw [if_pos (hlength.mpr hmore), if_pos hmore, hpage, hm, Option.map_some, ← htoken]
    rfl
  · have hall : left.take (limitOf query + 1) = left := List.take_of_length_le (by omega)
    have hpage : left.take (limitOf query) = left := List.take_of_length_le (by omega)
    have hzero : ¬(limitOf query = 0 ∧ True) := by omega
    rw [if_neg (mt hlength.mp hmore), if_neg hmore, hall, hpage, if_neg hzero]

end Page

/-! ### The token on its way back -/

/-- A number that `int()` reads is read back from its text. -/
theorem nonNegative_str {n : ℕ} (h : n < 10 ^ Py.maxStrDigits) : nonNegative (Py.str n) = some n := by
  rw [nonNegative, Py.int_str h]

/-- Where the two halves of a token are cut apart. -/
theorem parse_toText_eq (t k : ℕ) : Offset.parse (Offset.toText ⟨some t, k⟩) =
    (nonNegative (Py.str t)).bind fun t' => (nonNegative (Py.str k)).bind fun k' =>
      some ⟨some (quantize t'), k'⟩ := by
  have hcolon : ':' ∉ Py.str t := fun h => absurd (Py.isDigit_of_mem_str h) (by decide)
  unfold Offset.parse Offset.toText
  rw [Py.partition_append ':' _ _ hcolon]
  rfl

/-- A token survives its text, but for the quantizing. -/
theorem parse_toText {t k : ℕ} (ht : t < 10 ^ Py.maxStrDigits) (hk : k < 10 ^ Py.maxStrDigits) :
    Offset.parse (Offset.toText ⟨some t, k⟩) = some ⟨some (quantize t), k⟩ := by
  rw [parse_toText_eq, nonNegative_str ht, nonNegative_str hk]
  rfl

/-- A query without a token has no offset. -/
theorem parseQuery_none {float : String → Option ℚ} {params : Params} {query : BsoQuery}
    (h : parseQuery float (params.withOffset none) = .ok query) : query.offset = none := by
  unfold parseQuery at h
  simp only [bind_eq_ok] at h
  obtain ⟨newer, -, older, -, sort, -, limit, -, offset, hoffset, ids, -, hquery⟩ := h
  split at hquery
  · cases hquery
    cases hoffset
    rfl
  · cases hquery

/-- A query with a token is the query without it, if the token can be read and is in its window. -/
theorem parseQuery_token {float : String → Option ℚ} {params : Params} {query query' : BsoQuery} {token : List Char}
    (h : parseQuery float (params.withOffset none) = .ok query) :
    parseQuery float (params.withOffset (some token)) = .ok query' ↔
      ∃ o, Offset.parse token = some o ∧ query' = { query with offset := some o } ∧ offsetInWindow query' = true := by
  unfold parseQuery at h ⊢
  simp only [bind_eq_ok] at h
  obtain ⟨newer, hnewer, older, holder, sort, hsort, limit, hlimit, offset, -, ids, hids, hquery⟩ := h
  obtain rfl : (⟨newer, older, sort, limit, offset, ids⟩ : BsoQuery) = query := by
    split at hquery
    · exact Except.ok.inj hquery
    · cases hquery
  have hn : timestampParam float (params.withOffset (some token)) "newer" = .ok newer := hnewer
  have ho : timestampParam float (params.withOffset (some token)) "older" = .ok older := holder
  have hs : sortParam (params.withOffset (some token)) = .ok sort := hsort
  have hl : limitParam (params.withOffset (some token)) = .ok limit := hlimit
  have hi : idsParam (params.withOffset (some token)) = .ok ids := hids
  have hoff : offsetParam (params.withOffset (some token)) =
      (Offset.parse token).elim (.error (.http badRequest)) fun o => .ok (some o) := by
    cases hparse : Offset.parse token with
    | none => simp [offsetParam, Params.withOffset, hparse]
    | some o => simp [offsetParam, Params.withOffset, hparse]
  simp only [hn, ho, hs, hl, hi, hoff, ok_bind]
  cases hparse : Offset.parse token with
  | none => simp
  | some o =>
    simp only [Option.elim_some, ok_bind, Option.some.injEq, exists_eq_left']
    split
    · rename_i hwindow
      constructor
      · intro heq
        cases heq
        exact ⟨rfl, hwindow⟩
      · intro heq
        rw [heq.1]
    · rename_i hwindow
      constructor
      · intro heq
        cases heq
      · intro heq
        rw [heq.1] at heq
        exact absurd heq.2 hwindow

/-! ### A whole reading -/

/-- One fetch of a reading: the query of the request with the last page's token in it. -/
def fetch (float : String → Option ℚ) (params : Params) (scan : ScanOrder) (self : SyncStore) (db : Db)
    (name : String) (token : Option (List Char)) : Except Raised Page := do
  let query ← parseQuery float (params.withOffset token)
  getBsos self db scan name query true

/-- The records of a page. -/
def Items.bsos : Items → List Bso
  | .records items => items
  | .ids _ => []

/-- Fetches until a page comes without a token; `none` says that more are needed than are made. -/
def fetchAll (float : String → Option ℚ) (params : Params) (scan : ScanOrder) (self : SyncStore) (db : Db)
    (name : String) : ℕ → Option (List Char) → Except Raised (Option (List Bso))
  | 0, _ => .ok none
  | fetches + 1, token => do
    let page ← fetch float params scan self db name token
    match page.offset with
    | none => .ok (some page.items.bsos)
    | some token => do
      let rest ← fetchAll float params scan self db name fetches (some token)
      .ok (rest.map (page.items.bsos ++ ·))

/-- What the database keeps: timestamps that were quantized before they were stored, and no
more rows and no later timestamps than its 64-bit integers can count. -/
structure Db.Storable (db : Db) : Prop where
  whole : ∀ {key : BsoKey} {row : BsoRow}, db.bso.find? key = some row → row.modified % 10 = 0
  fits : ∀ {key : BsoKey} {row : BsoRow}, db.bso.find? key = some row → (row.modified : ℤ) ≤ sqliteMax
  countable : (db.bso.rows.length : ℤ) ≤ sqliteMax

/-- The integers a client sends with a query fit the statement: the timestamps of its window,
and its limit with one to spare. -/
structure BsoQuery.Fits (query : BsoQuery) : Prop where
  limit : (limitOf query : ℤ) < sqliteMax
  older : ∀ t ∈ query.older, (t : ℤ) ≤ sqliteMax
  newer : ∀ t ∈ query.newer, (t : ℤ) ≤ sqliteMax

section Reading

variable {float : String → Option ℚ} {params : Params} {scan : ScanOrder} {self : SyncStore} {db : Db} {name : String}
  {c : ℕ} {query : BsoQuery}

/-- The numbers of a stored collection are read back from their texts. -/
theorem lt_of_le_sqliteMax {n : ℕ} (h : (n : ℤ) ≤ sqliteMax) : n < 10 ^ Py.maxStrDigits := by
  have hn : n < 10 ^ 19 := by
    unfold sqliteMax at h
    omega
  exact hn.trans_le (Nat.pow_le_pow_right (by decide) (by decide))

/-- A statement can be bound exactly when the query fits, and the timestamp it resumes at and the
rows it skips do. -/
theorem bindable_token_iff (hlimit : 1 ≤ limitOf query) {full : Bool} {token : Option Offset} :
    bindable { query with offset := token } full = true ↔
      query.Fits ∧ (∀ t ∈ resumeBound { query with offset := token } full, (t : ℤ) ≤ sqliteMax) ∧
        (((token.map Offset.offset).getD 0 : ℕ) : ℤ) ≤ sqliteMax := by
  have hfits : ∀ n : ℕ, fitsSqlite n = true ↔ (n : ℤ) ≤ sqliteMax := by
    intro n
    unfold fitsSqlite sqliteMax
    simp only [Bool.and_eq_true, decide_eq_true_eq]
    omega
  have hsql : ((sqlLimit { query with offset := token } : ℕ) : ℤ) ≤ sqliteMax ↔ (limitOf query : ℤ) < sqliteMax := by
    have hpos : sqlLimit { query with offset := token } = limitOf query + 1 := if_pos hlimit
    rw [hpos]
    omega
  have hskip : numericOffset { query with offset := token } = (token.map Offset.offset).getD 0 := rfl
  unfold bindable boundIntegers
  rw [hskip]
  simp only [List.all_append, List.all_cons, List.all_nil, Bool.and_eq_true, Bool.and_true, hfits, hsql,
    List.all_eq_true, Option.mem_toList]
  constructor
  · intro h
    obtain ⟨⟨⟨ht, holder⟩, hnewer⟩, hl, hk⟩ := h
    exact ⟨⟨hl, holder, hnewer⟩, ht, hk⟩
  · intro h
    obtain ⟨⟨hl, holder, hnewer⟩, ht, hk⟩ := h
    exact ⟨⟨⟨ht, holder⟩, hnewer⟩, hl, hk⟩

/-- For records that are not read by index, that is the token's timestamp. -/
theorem bindable_iff (hsort : query.sort ≠ some .index) (hlimit : 1 ≤ limitOf query) {token : Option Offset} :
    bindable { query with offset := token } true = true ↔
      query.Fits ∧ (∀ t ∈ token.bind Offset.timestamp, (t : ℤ) ≤ sqliteMax) ∧
        (((token.map Offset.offset).getD 0 : ℕ) : ℤ) ≤ sqliteMax := by
  have hbound : resumeBound { query with offset := token } true = token.bind Offset.timestamp := if_pos ⟨rfl, hsort⟩
  rw [bindable_token_iff hlimit, hbound]

/-- What a query without a token asks of a record. -/
theorem matchesQuery_none {id : String} {row : BsoRow} :
    matchesQuery { query with offset := none } true id row = true ↔
      (∀ t ∈ query.older, row.modified < t) ∧ (∀ t ∈ query.newer, t < row.modified) ∧
        (query.ids = [] ∨ id ∈ query.ids) := by
  have hbound : resumeBound { query with offset := none } true = none := by simp [resumeBound]
  unfold matchesQuery
  simp only [hbound, Bool.true_and, Bool.and_eq_true, Bool.or_eq_true, List.isEmpty_iff, List.contains_iff_mem,
    and_assoc]
  cases query.older with
  | none => cases query.newer <;> simp
  | some older => cases query.newer <;> simp

/-- A listed record is a row, unexpired and in the query's window. -/
theorem mem_listing_iff {bso : Bso} : bso ∈ listing self db c query ↔
    db.bso.find? ⟨self.uid, c, bso.id⟩ = some ⟨bso.sortindex, bso.payload, bso.modified, bso.expiry⟩ ∧
      self.now < bso.expiry ∧ (∀ t ∈ query.older, bso.modified < t) ∧ (∀ t ∈ query.newer, t < bso.modified) ∧
      (query.ids = [] ∨ bso.id ∈ query.ids) := by
  rw [mem_listing, mem_matching, matchesQuery_none]

/-- A record whose token continues a reading: it has been stored, and is in the window of the
query. It need not be stored any more. -/
structure BsoQuery.Resumable (query : BsoQuery) (m : Bso) : Prop where
  whole : m.modified % 10 = 0
  fits : (m.modified : ℤ) ≤ sqliteMax
  older : ∀ t ∈ query.older, m.modified < t
  newer : ∀ t ∈ query.newer, t < m.modified

/-- A listed record is one. -/
theorem Db.Storable.resumable (h : db.Storable) {m : Bso} (hm : m ∈ listing self db c query) : query.Resumable m := by
  obtain ⟨hfind, -, holder, hnewer, -⟩ := mem_listing_iff.mp hm
  exact ⟨h.whole hfind, h.fits hfind, holder, hnewer⟩

/-- A listed record's timestamp ends in a zero. -/
theorem Db.Storable.whole_listing (h : db.Storable) : ∀ bso ∈ listing self db c query, bso.modified % 10 = 0 :=
  fun _ hmem => h.whole (mem_listing_iff.mp hmem).1

/-- There are not more listed records than rows. -/
theorem length_listing_le : (listing self db c query).length ≤ db.bso.rows.length := by
  unfold listing matching
  rw [(orderBy_perm _ _).length_eq, List.length_map]
  exact List.length_filter_le _ _

/-- The token of such a record is in the window of the query. -/
theorem offsetInWindow_token {m : Bso} (hm : query.Resumable m) (k : ℕ) :
    offsetInWindow { query with offset := some ⟨some m.modified, k⟩ } = true := by
  unfold offsetInWindow
  cases hn : query.newer with
  | some newer => simp [(hm.newer newer hn).le]
  | none =>
    cases ho : query.older with
    | some older => simp [(hm.older older ho).le]
    | none => simp

/-- A fetch without a token is the first page, or the statement cannot be bound. -/
theorem fetch_none (hquery : parseQuery float (params.withOffset none) = .ok query) (hsort : query.sort ≠ some .index)
    (hlimit : 1 ≤ limitOf query) (hname : collectionId db name = .ok c) (hstorable : db.Storable) :
    fetch float params scan self db name none =
      if bindable query true then .ok (pageAfter self db c query none) else .error .overflow := by
  have hnone : { query with offset := none } = query := by rw [← parseQuery_none hquery]
  have hwhole : ∀ bso ∈ listing self db c query, bso.modified % 10 = 0 := hstorable.whole_listing
  have htoken : (none : Option Offset) = Option.map (tokenAt query.sort (listing self db c query)) none := rfl
  have hpage := pageOf_token scan hsort hlimit hwhole htoken
  rw [hnone] at hpage
  unfold fetch getBsos
  simp only [hquery, hname, ok_bind]
  cases hbind : bindable query true with
  | false => rfl
  | true => exact congrArg Except.ok hpage

/-- A fetch with the token of such a record is the page after it. -/
theorem fetch_token (hquery : parseQuery float (params.withOffset none) = .ok query) (hsort : query.sort ≠ some .index)
    (hlimit : 1 ≤ limitOf query) (hname : collectionId db name = .ok c) (hstorable : db.Storable)
    (hfits : query.Fits) {m : Bso} (hm : query.Resumable m) :
    fetch float params scan self db name (some (tokenAt query.sort (listing self db c query) m).toText) =
      .ok (pageAfter self db c query (some m)) := by
  have hskip : (((orderOf query.sort).ties m (listing self db c query) : ℕ) : ℤ) ≤ sqliteMax := by
    have hties : (orderOf query.sort).ties m (listing self db c query) ≤ (listing self db c query).length :=
      List.countP_le_length
    exact (Int.ofNat_le.mpr (hties.trans length_listing_le)).trans hstorable.countable
  have hparse := parse_toText (lt_of_le_sqliteMax hm.fits) (lt_of_le_sqliteMax hskip)
  rw [quantize_of_whole hm.whole] at hparse
  have hagain : parseQuery float (params.withOffset
      (some (tokenAt query.sort (listing self db c query) m).toText)) =
        .ok { query with offset := some (tokenAt query.sort (listing self db c query) m) } :=
    (parseQuery_token hquery).mpr ⟨_, hparse, rfl, offsetInWindow_token hm _⟩
  have hbind : bindable { query with offset := some (tokenAt query.sort (listing self db c query) m) } true = true :=
    (bindable_iff hsort hlimit).mpr ⟨hfits, fun t ht => by cases ht; exact hm.fits, hskip⟩
  have hwhole : ∀ bso ∈ listing self db c query, bso.modified % 10 = 0 := hstorable.whole_listing
  have htoken : some (tokenAt query.sort (listing self db c query) m) =
      Option.map (tokenAt query.sort (listing self db c query)) (some m) := rfl
  have hpage := pageOf_token scan hsort hlimit hwhole htoken
  unfold fetch getBsos
  simp only [hagain, hname, ok_bind, hbind, Bool.not_true, Bool.false_eq_true, if_false]
  exact congrArg Except.ok hpage

/-- A fetch is the page after the record whose token it carries, or the first. -/
theorem fetch_mark (hquery : parseQuery float (params.withOffset none) = .ok query) (hsort : query.sort ≠ some .index)
    (hlimit : 1 ≤ limitOf query) (hname : collectionId db name = .ok c) (hstorable : db.Storable)
    (hfits : query.Fits) {mark : Option Bso} (hmark : ∀ m ∈ mark, query.Resumable m) :
    fetch float params scan self db name
        (mark.map fun m => (tokenAt query.sort (listing self db c query) m).toText) =
      .ok (pageAfter self db c query mark) := by
  cases mark with
  | none =>
    have hbind : bindable query true = true := by
      have hnone : { query with offset := none } = query := by rw [← parseQuery_none hquery]
      rw [← hnone, bindable_iff hsort hlimit]
      exact ⟨hfits, fun t ht => (nomatch ht), by decide⟩
    rw [Option.map_none, fetch_none hquery hsort hlimit hname hstorable, if_pos hbind]
  | some m => exact fetch_token hquery hsort hlimit hname hstorable hfits (hmark m rfl)

/-- What a page holds. -/
theorem pageAfter_bsos (mark : Option Bso) : (pageAfter self db c query mark).items.bsos =
    ((orderOf query.sort).after mark (listing self db c query)).take (limitOf query) := rfl

/-- A page that leaves something has a last record, and its token goes with the page. -/
theorem pageAfter_more (hlimit : 1 ≤ limitOf query) {mark : Option Bso}
    (hmore : limitOf query < ((orderOf query.sort).after mark (listing self db c query)).length) :
    ∃ m ∈ listing self db c query,
      (((orderOf query.sort).after mark (listing self db c query)).take (limitOf query)).getLast? = some m ∧
      (pageAfter self db c query mark).offset = some (tokenAt query.sort (listing self db c query) m).toText := by
  cases hlast : (((orderOf query.sort).after mark (listing self db c query)).take (limitOf query)).getLast? with
  | none =>
    have hnil := congrArg List.length (List.getLast?_eq_none_iff.mp hlast)
    rw [List.length_take, List.length_nil] at hnil
    omega
  | some m =>
    have hm : m ∈ listing self db c query :=
      Order.mem_of_mem_after (List.mem_of_mem_take (List.mem_of_getLast? hlast))
    refine ⟨m, hm, rfl, ?_⟩
    simp only [pageAfter, if_pos hmore, hlast, Option.map_some]

/-- A page that leaves nothing has no token. -/
theorem pageAfter_last {mark : Option Bso}
    (hlast : ¬limitOf query < ((orderOf query.sort).after mark (listing self db c query)).length) :
    (pageAfter self db c query mark).offset = none := if_neg hlast

/-- From any listed record on, or from the start, the fetches yield all that is left. -/
theorem fetchAll_after (hquery : parseQuery float (params.withOffset none) = .ok query)
    (hsort : query.sort ≠ some .index) (hlimit : 1 ≤ limitOf query) (hname : collectionId db name = .ok c)
    (hstorable : db.Storable) (hfits : query.Fits) {fetches : ℕ} {mark : Option Bso}
    (hmark : ∀ m ∈ mark, query.Resumable m)
    (hfetches : ((orderOf query.sort).after mark (listing self db c query)).length < fetches) :
    fetchAll float params scan self db name fetches
        (mark.map fun m => (tokenAt query.sort (listing self db c query) m).toText) =
      .ok (some ((orderOf query.sort).after mark (listing self db c query))) := by
  have hsorted : (orderOf query.sort).Sorted (listing self db c query) := sorted_listing hsort
  induction fetches generalizing mark with
  | zero => exact absurd hfetches (Nat.not_lt_zero _)
  | succ fetches ih =>
    unfold fetchAll
    rw [fetch_mark hquery hsort hlimit hname hstorable hfits hmark, ok_bind]
    by_cases hmore : limitOf query < ((orderOf query.sort).after mark (listing self db c query)).length
    · -- the reading goes on after the last record of the page
      obtain ⟨m, hm, hlast, hoffset⟩ := pageAfter_more hlimit hmore
      have hleft := hsorted.after_last hlast
      have hmark' : ∀ m' ∈ some m, query.Resumable m' := fun m' hm' => by cases hm'; exact hstorable.resumable hm
      have hfewer : ((orderOf query.sort).after (some m) (listing self db c query)).length < fetches := by
        rw [hleft, List.length_drop]
        omega
      have hrest := ih hmark' hfewer
      rw [Option.map_some] at hrest
      simp only [hoffset, hrest, ok_bind, pageAfter_bsos, hleft, Option.map_some, List.take_append_drop]
    · simp only [pageAfter_last hmore, pageAfter_bsos, List.take_of_length_le (Nat.le_of_not_lt hmore)]

/-- The order in which the pages are asked for: by timestamp, then by id. -/
def Precedes (sort : Option Sorting) (a b : Bso) : Prop :=
  if sort = some .oldest then a.modified < b.modified ∨ a.modified = b.modified ∧ a.id < b.id
  else b.modified < a.modified ∨ b.modified = a.modified ∧ b.id < a.id

/-- What a client means to read: the stored records that have not expired, are in the window of
the query and, if it names ids, are among them; each once, in order. -/
structure IsReading (self : SyncStore) (db : Db) (c : ℕ) (query : BsoQuery) (items : List Bso) : Prop where
  ordered : items.Pairwise (Precedes query.sort)
  complete : ∀ bso : Bso, bso ∈ items ↔
    db.bso.find? ⟨self.uid, c, bso.id⟩ = some ⟨bso.sortindex, bso.payload, bso.modified, bso.expiry⟩ ∧
      self.now < bso.expiry ∧ (∀ t ∈ query.older, bso.modified < t) ∧ (∀ t ∈ query.newer, t < bso.modified) ∧
      (query.ids = [] ∨ bso.id ∈ query.ids)

/-- Strictly before in the order of the statement. -/
theorem precedes_iff {sort : Option Sorting} {a b : Bso} : Precedes sort a b ↔ ¬(orderOf sort).le b a := by
  have key : ∀ a b : Bso, ¬olderFirst b a ↔ a.modified < b.modified ∨ a.modified = b.modified ∧ a.id < b.id := by
    intro a b
    unfold olderFirst
    rw [not_or, not_and, not_lt, not_le]
    constructor
    · intro h
      rcases h.1.lt_or_eq with hlt | heq
      · exact Or.inl hlt
      · exact Or.inr ⟨heq, h.2 heq.symm⟩
    · intro h
      rcases h with h | h
      · exact ⟨h.le, fun heq => absurd heq h.ne'⟩
      · exact ⟨h.1.le, fun _ => h.2⟩
  unfold Precedes orderOf
  split
  · exact (key a b).symm
  · exact (key b a).symm

/-- The fetches of a reading end with a page without a token, and the pages are the matching
records in order, exactly if the integers of the query can be bound. -/
theorem full_pagination_exact (hquery : parseQuery float (params.withOffset none) = .ok query)
    (hsort : query.sort ≠ some .index) (hlimit : 1 ≤ limitOf query) (hname : collectionId db name = .ok c)
    (hstorable : db.Storable) :
    (∃ items, fetchAll float params scan self db name (db.bso.rows.length + 1) none = .ok (some items) ∧
      IsReading self db c query items) ↔ query.Fits := by
  constructor
  · intro h
    obtain ⟨items, hitems, -⟩ := h
    -- the first fetch has been answered
    have hnone : { query with offset := none } = query := by rw [← parseQuery_none hquery]
    unfold fetchAll at hitems
    obtain ⟨page, hpage, -⟩ := bind_eq_ok.mp hitems
    rw [fetch_none hquery hsort hlimit hname hstorable] at hpage
    split at hpage
    · rename_i hbind
      rw [← hnone, bindable_iff hsort hlimit] at hbind
      exact hbind.1
    · cases hpage
  · intro hfits
    have hlength : ((orderOf query.sort).after none (listing self db c query)).length < db.bso.rows.length + 1 :=
      Nat.lt_succ_of_le length_listing_le
    have hmark : ∀ m ∈ (none : Option Bso), query.Resumable m := fun m hm => (nomatch hm)
    have hordered : (listing self db c query).Pairwise (Precedes query.sort) :=
      (sorted_listing hsort).imp precedes_iff.mpr
    exact ⟨listing self db c query, fetchAll_after hquery hsort hlimit hname hstorable hfits hmark hlength,
      hordered, fun _ => mem_listing_iff⟩

end Reading

/-- Three records written in one hundredth of a second. -/
def threeAtOnce : Db where
  collections := ["", "tabs"]
  userCollections := (∅ : Table UserCollectionKey ℕ).set ⟨1, 1⟩ 10
  bso := (((∅ : Table BsoKey BsoRow).set ⟨1, 1, "a"⟩ ⟨none, "", 10, 1000⟩).set ⟨1, 1, "b"⟩ ⟨none, "", 10, 1000⟩).set
    ⟨1, 1, "c"⟩ ⟨none, "", 10, 1000⟩
  batches := ∅
  batchItems := ∅

/-- They are read one by one, oldest first. -/
theorem full_pagination_of_three :
    ∃ items, fetchAll (fun _ => none) (Params.of [("limit", "1"), ("sort", "oldest")]) .primaryKey ⟨1, 20⟩ threeAtOnce
        "tabs" 4 none = .ok (some items) ∧
      IsReading ⟨1, 20⟩ threeAtOnce 1 { sort := some .oldest, limit := some 1 } items := by
  have hrows : ∀ {key : BsoKey} {row : BsoRow}, threeAtOnce.bso.find? key = some row → row = ⟨none, "", 10, 1000⟩ := by
    intro key row h
    simp only [threeAtOnce, Table.find?_set, Table.find?_empty] at h
    grind
  have hstorable : threeAtOnce.Storable :=
    { whole := fun h => by simp [hrows h]
      fits := fun h => by rw [hrows h]; decide
      countable := by decide +kernel }
  have hquery : parseQuery (fun _ => none) ((Params.of [("limit", "1"), ("sort", "oldest")]).withOffset none) =
      .ok { sort := some .oldest, limit := some 1 } := by decide +kernel
  exact (full_pagination_exact hquery (by decide) (by decide) rfl hstorable).mpr
    ⟨by decide, fun _ h => (nomatch h), fun _ h => (nomatch h)⟩

/-- With the largest limit a 64-bit integer can hold, the first fetch is refused. -/
theorem full_pagination_refused :
    parseQuery (fun _ => none) ((Params.of [("limit", "9223372036854775807")]).withOffset none) =
        .ok { limit := some 9223372036854775807 } ∧
      fetchAll (fun _ => none) (Params.of [("limit", "9223372036854775807")]) .primaryKey ⟨1, 20⟩ threeAtOnce "tabs" 4
        none = .error .overflow := by
  decide +kernel

end FxaLite.SyncStorage
