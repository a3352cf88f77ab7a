import FxaLite.SyncStorage.Collections
import FxaLite.SyncStorage.Pagination
import Mathlib.Data.List.Chain

/-!
# Paging while others write

A client pages through a collection while requests of any kind are served between its fetches.
The timestamp half of a token keeps its meaning whatever is written, for what is written comes
after it. The row count keeps its meaning only as long as the records it counts stay: those
with the timestamp of the last record of the page that come no later than it. While they stay,
every record that is left alone is read, and once; a record of that timestamp that is deleted
or rewritten between two fetches makes the next page skip one that was never read.
-/

namespace FxaLite.SyncStorage

open Relational Reactive Fallible Keyset SyncStore

/-! ### A reading through the server -/

/-- A client that pages through a collection; `params` are those of its first request. -/
structure Reader where
  uid : ℕ
  collection : String
  params : Params

/-- What is served before a fetch, and the fetch itself. -/
structure Round where
  between : List Call
  nowMs : ℕ
  newlines : Bool := false

/-- A fetch as it was served: what the database held, when, and the answer. -/
structure Fetched where
  db : Db
  now : ℕ
  answer : Response

/-- The records of an answer. -/
def Response.items (response : Response) : List BsoJson :=
  match response.body with
  | .items _ items => items
  | _ => []

/-- The request of a fetch. -/
def Reader.call (reader : Reader) (token : Option (List Char)) (round : Round) : Call where
  uid := reader.uid
  nowMs := round.nowMs
  request := .getCollection reader.collection (reader.params.withOffset token) round.newlines

/-- The fetches of a reading, each with the token of the one before, until one has none. -/
def Reader.read (p : Platform) (reader : Reader) : Db → Option (List Char) → List Round → List Fetched
  | _, _, [] => []
  | db, token, round :: rest =>
    let db := (server p).run db round.between
    let call := reader.call token round
    let served := serve p db call
    ⟨db, call.now, served.2⟩ ::
      match served.2.nextOffset with
      | none => []
      | some token => reader.read p served.1 (some token) rest

/-- The records a fetch reads from, in no particular order. -/
def Reader.rows (reader : Reader) (query : BsoQuery) (f : Fetched) : List Bso :=
  matching ⟨reader.uid, f.now⟩ f.db (f.db.idFor reader.collection) { query with offset := none }

/-- A record with the timestamp of another that comes no later than it. -/
def Tied (sort : Option Sorting) (x : BsoJson) (bso : Bso) : Prop :=
  timestampJson bso.modified = x.modified ∧ if sort = some .oldest then bso.id ≤ x.id else x.id ≤ bso.id

instance (sort : Option Sorting) (x : BsoJson) : DecidablePred (Tied sort x) := fun _ =>
  inferInstanceAs (Decidable (_ ∧ _))

/-- Between two fetches as many matching records have come as have gone that tie with the last
record of the first. -/
def Reader.Steady (reader : Reader) (query : BsoQuery) (f g : Fetched) : Prop :=
  ∀ x ∈ f.answer.items.getLast?,
    (reader.rows query f).countP (Tied query.sort x) = (reader.rows query g).countP (Tied query.sort x)

instance (reader : Reader) (query : BsoQuery) : DecidableRel (reader.Steady query) := fun _ _ =>
  inferInstanceAs (Decidable (∀ x ∈ _, _))

/-- A reading has ended when its last fetch was answered without a token. -/
def Ended (fetches : List Fetched) : Prop := ∃ f ∈ fetches.getLast?, f.answer.nextOffset = none

/-! ### One fetch -/

section Serve

variable {p : Platform} {reader : Reader} {query : BsoQuery} {db : Db}

/-- A page is served as it is read. -/
theorem serve_fetch {call : Call} {name : String} {params : Params} {token : Option (List Char)} {newlines : Bool}
    {page : Page} (hreq : call.request = .getCollection name (params.withOffset token) newlines)
    (hmodified : call.ifModifiedSince = none) (hunmodified : call.ifUnmodifiedSince = none)
    (hvalid : collectionRe name = true) (hfull : (params "full").isSome = true)
    (hfetch : fetch p.float params p.scan call.store db name token = .ok page) :
    (serve p db call).1 = db ∧ (serve p db call).2.body = itemsBody newlines page.items ∧
      (serve p db call).2.nextOffset = page.offset := by
  obtain ⟨parsed, hparse, hget⟩ := bind_eq_ok.mp hfetch
  have hfull' : ((params.withOffset token) "full").isSome = true := hfull
  have hname : validateCollection name = .ok () := validateCollection_eq_ok.mpr hvalid
  have hroute : route p call = .ok ⟨collectionResource call.store name, none,
      getCollection p call.store name parsed true newlines⟩ := by
    unfold route
    simp only [hreq, hname, hparse, ok_bind, hfull']
  have hpre : ∀ timestamp, precondition p call timestamp = .ok none := by
    intro timestamp
    unfold precondition
    simp only [hmodified, hunmodified]
  unfold serve handle run
  simp only [hroute, ok_bind, hpre, getCollection, hget]
  exact ⟨trivial, rfl, rfl⟩

/-- The listing a fetch cuts its page from. -/
def Reader.listed (reader : Reader) (query : BsoQuery) (f : Fetched) : List Bso :=
  listing ⟨reader.uid, f.now⟩ f.db (f.db.idFor reader.collection) query

/-- Timestamps in a body that are alike are alike. -/
theorem timestampJson_inj {a b : ℕ} : timestampJson a = timestampJson b ↔ a = b := timestampHeader_inj

/-- Tying with a record, on the answer, is tying with it in the order of the pages. -/
theorem tied_iff {sort : Option Sorting} {m bso : Bso} :
    Tied sort m.asJson bso ↔
      (orderOf sort).le bso m ∧ (orderOf sort).groupLe ((orderOf sort).group m) ((orderOf sort).group bso) := by
  unfold Tied Bso.asJson
  rw [timestampJson_inj]
  by_cases hsort : sort = some .oldest
  · simp only [hsort, if_true, orderOf, oldestOrder, olderFirst]
    constructor
    · intro h
      exact ⟨Or.inr h, h.1.ge⟩
    · intro h
      obtain ⟨hlt | heq, hge⟩ := h
      · exact absurd hge (not_le.mpr hlt)
      · exact heq
  · simp only [hsort, if_false, orderOf, newestOrder, newerFirst, olderFirst]
    constructor
    · intro h
      exact ⟨Or.inr ⟨h.1.symm, h.2⟩, h.1.le⟩
    · intro h
      obtain ⟨hlt | heq, hge⟩ := h
      · exact absurd hge (not_le.mpr hlt)
      · exact ⟨heq.1.symm, heq.2⟩

/-- The ties of a record, counted on the rows. -/
theorem ties_listed (reader : Reader) (query : BsoQuery) (f : Fetched) (m : Bso) :
    (orderOf query.sort).ties m (reader.listed query f) =
      (reader.rows query f).countP (Tied query.sort m.asJson) := by
  have hperm : (reader.listed query f).Perm (reader.rows query f) := orderBy_perm _ _
  rw [Order.ties, hperm.countP_eq]
  apply List.countP_congr
  intro bso _
  simp only [decide_eq_true_eq]
  exact tied_iff.symm

/-- Between steady fetches a token keeps its meaning. -/
theorem tokenAt_of_steady {f g : Fetched} (hsteady : reader.Steady query f g) {m : Bso}
    (hlast : f.answer.items.getLast? = some m.asJson) :
    tokenAt query.sort (reader.listed query f) m = tokenAt query.sort (reader.listed query g) m := by
  unfold tokenAt
  rw [ties_listed, ties_listed, hsteady m.asJson hlast]

/-- What the fetches of a reading have in common: a valid name of a known collection, in a
database that holds what it can store. -/
structure Reader.Reads (reader : Reader) (f : Fetched) : Prop where
  known : collectionId f.db reader.collection = .ok (f.db.idFor reader.collection)
  storable : f.db.Storable

/-- A fetch with the token of a record, or none, is answered with the page after it. -/
theorem answer_eq (hquery : parseQuery p.float (reader.params.withOffset none) = .ok query)
    (hfull : (reader.params "full").isSome = true) (hvalid : collectionRe reader.collection = true)
    (hsort : query.sort ≠ some .index) (hlimit : 1 ≤ limitOf query) (hfits : query.Fits) {round : Round}
    {token : Option (List Char)} {mark : Option Bso} {f : Fetched}
    (hf : f = ⟨db, (reader.call token round).now, (serve p db (reader.call token round)).2⟩)
    (hreads : reader.Reads f) (hmark : ∀ m ∈ mark, query.Resumable m)
    (htoken : token = mark.map fun m => (tokenAt query.sort (reader.listed query f) m).toText) :
    f.answer.items =
        (((orderOf query.sort).after mark (reader.listed query f)).take (limitOf query)).map Bso.asJson ∧
      f.answer.nextOffset =
        (pageAfter ⟨reader.uid, f.now⟩ f.db (f.db.idFor reader.collection) query mark).offset := by
  have hfetch : fetch p.float reader.params p.scan ⟨reader.uid, f.now⟩ f.db reader.collection
      (mark.map fun m => (tokenAt query.sort (reader.listed query f) m).toText) =
        .ok (pageAfter ⟨reader.uid, f.now⟩ f.db (f.db.idFor reader.collection) query mark) :=
    fetch_mark hquery hsort hlimit hreads.known hreads.storable hfits hmark
  rw [← htoken] at hfetch
  subst hf
  have hserved := @serve_fetch p db (reader.call token round) reader.collection reader.params token round.newlines _
    rfl rfl rfl hvalid hfull hfetch
  refine ⟨?_, hserved.2.2⟩
  unfold Response.items
  simp only [hserved.2.1]
  rfl

/-! ### The whole reading -/

/-- The answers of steady fetches are the pages of a reader that goes on after the last record
it was given, and if the reading has ended they are all its pages. -/
theorem read_eq_pages (hquery : parseQuery p.float (reader.params.withOffset none) = .ok query)
    (hfull : (reader.params "full").isSome = true) (hvalid : collectionRe reader.collection = true)
    (hsort : query.sort ≠ some .index) (hlimit : 1 ≤ limitOf query) (hfits : query.Fits) {rounds : List Round}
    {token : Option (List Char)} {mark : Option Bso} (hmark : ∀ m ∈ mark, query.Resumable m)
    (hreads : ∀ f ∈ reader.read p db token rounds, reader.Reads f)
    (htoken : ∀ f ∈ (reader.read p db token rounds).head?,
      token = mark.map fun m => (tokenAt query.sort (reader.listed query f) m).toText)
    (hsteady : (reader.read p db token rounds).IsChain (reader.Steady query)) :
    (reader.read p db token rounds).map (fun f => f.answer.items) =
        ((orderOf query.sort).pages (limitOf query) mark
          ((reader.read p db token rounds).map (reader.listed query))).map (·.map Bso.asJson) ∧
      (Ended (reader.read p db token rounds) →
        (orderOf query.sort).Complete (limitOf query) mark
          ((reader.read p db token rounds).map (reader.listed query))) := by
  induction rounds generalizing db token mark with
  | nil =>
    refine ⟨rfl, ?_⟩
    rintro ⟨f, hf, -⟩
    cases hf
  | cons round rest ih =>
    -- the fetch of this round, and those that its answer leads to
    obtain ⟨f, hf⟩ : ∃ f : Fetched, f = ⟨(server p).run db round.between, (reader.call token round).now,
        (serve p ((server p).run db round.between) (reader.call token round)).2⟩ := ⟨_, rfl⟩
    have hread : reader.read p db token (round :: rest) = f ::
        match f.answer.nextOffset with
        | none => []
        | some next =>
          reader.read p (serve p ((server p).run db round.between) (reader.call token round)).1 (some next) rest := by
      rw [hf]
      rfl
    rw [hread] at hreads htoken hsteady ⊢
    obtain ⟨hitems, hnext⟩ := answer_eq hquery hfull hvalid hsort hlimit hfits hf (hreads f (by simp)) hmark
      (htoken f rfl)
    by_cases hmore : limitOf query < ((orderOf query.sort).after mark (reader.listed query f)).length
    · obtain ⟨m, hm, hlast, hoffset⟩ := pageAfter_more hlimit hmore
      have hlast' : (((orderOf query.sort).after mark (reader.listed query f)).take (limitOf query)).getLast? =
        some m := hlast
      rw [hoffset] at hnext
      simp only [hnext] at hreads hsteady ⊢
      have hmark' : ∀ m' ∈ some m, query.Resumable m' := by
        intro m' hm'
        cases hm'
        exact (hreads f (by simp)).storable.resumable hm
      have hgiven : f.answer.items.getLast? = some m.asJson := by
        rw [hitems, List.getLast?_map, hlast']
        rfl
      obtain ⟨hpages, hends⟩ := ih hmark' (fun g hg => hreads g (List.mem_cons_of_mem f hg))
        (by
          intro g hg
          have hfg : reader.Steady query f g := (List.isChain_cons.mp hsteady).1 g hg
          rw [Option.map_some, ← tokenAt_of_steady hfg hgiven]
          rfl)
        (List.isChain_cons.mp hsteady).2
      rw [List.map_cons, List.map_cons, Order.pages, Order.Complete, List.map_cons, hitems, hpages,
        if_neg (Nat.not_le.mpr hmore), hlast', Option.some_or]
      refine ⟨rfl, ?_⟩
      rintro ⟨g, hg, hend⟩
      cases htail : reader.read p (serve p ((server p).run db round.between) (reader.call token round)).1
          (some (tokenAt query.sort (listing ⟨reader.uid, f.now⟩ f.db (f.db.idFor reader.collection) query) m).toText)
          rest with
      | nil =>
        rw [htail] at hg
        obtain rfl : f = g := by simpa using hg
        rw [hnext] at hend
        cases hend
      | cons g' tail =>
        rw [htail, List.getLast?_cons_cons] at hg
        rw [← htail] at hg ⊢
        exact hends ⟨g, hg, hend⟩
    · rw [pageAfter_last hmore] at hnext
      simp only [hnext, List.map_cons, List.map_nil, Order.pages, Order.Complete, hitems,
        if_pos (Nat.le_of_not_lt hmore)]
      exact ⟨trivial, fun _ => trivial⟩

/-- Timestamps are stored quantized. -/
def Db.Whole (db : Db) : Prop :=
  ∀ {key : BsoKey} {row : BsoRow}, db.bso.find? key = some row → row.modified % 10 = 0

/-- The rows of a database and its timestamps can be counted with 64-bit integers. -/
structure Db.Countable (db : Db) : Prop where
  rows : (db.bso.rows.length : ℤ) ≤ sqliteMax
  fits : ∀ {key : BsoKey} {row : BsoRow}, db.bso.find? key = some row → (row.modified : ℤ) ≤ sqliteMax

/-- A request stores the quantized reading of its clock, or leaves the timestamp. -/
theorem Effect.whole {call : Call} {db db' : Db} {status : ℕ} (h : Effect call db db' status) (hwhole : db.Whole) :
    db'.Whole := by
  intro key row hrow
  rcases h.rowOf hrow with ⟨hnow, -⟩ | ⟨old, hold, heq, -⟩
  · rw [hnow]
    exact quantize_mod call.nowMs
  · rw [heq]
    exact hwhole hold

/-- So do the requests of a run. -/
theorem whole_of_run (p : Platform) {db : Db} (hwhole : db.Whole) (calls : List Call) :
    ((server p).run db calls).Whole :=
  (server p).run_of_step (P := Db.Whole) (fun _ call h _ => (serve_effect p _ call).whole h) hwhole
    (server p).along_true

/-- And those of a reading. -/
theorem whole_of_read {token : Option (List Char)} {rounds : List Round} (hwhole : db.Whole) :
    ∀ f ∈ reader.read p db token rounds, f.db.Whole := by
  induction rounds generalizing db token with
  | nil =>
    intro f hf
    cases hf
  | cons round rest ih =>
    have hbefore : ((server p).run db round.between).Whole := whole_of_run p hwhole round.between
    intro f hf
    rcases List.mem_cons.mp hf with rfl | hf
    · exact hbefore
    · cases hnext : (serve p ((server p).run db round.between) (reader.call token round)).2.nextOffset with
      | none =>
        simp only [hnext] at hf
        cases hf
      | some next =>
        simp only [hnext] at hf
        exact ih ((serve_effect p _ _).whole hbefore) f hf

/-- A record that matches the query and is left alone: every fetch found the same row for it, and
found it unexpired. -/
structure Untouched (reader : Reader) (query : BsoQuery) (fetches : List Fetched) (bso : Bso) : Prop where
  matched : matchesQuery { query with offset := none } true bso.id
    ⟨bso.sortindex, bso.payload, bso.modified, bso.expiry⟩ = true
  kept : ∀ f ∈ fetches, f.db.record reader.uid reader.collection bso.id =
    some ⟨bso.sortindex, bso.payload, bso.modified, bso.expiry⟩
  alive : ∀ f ∈ fetches, f.now < bso.expiry

/-- A collection that holds a record is known, under the id the record is stored with. -/
theorem find?_of_record {uid : ℕ} {name id : String} {row : BsoRow} (h : db.record uid name id = some row) :
    collectionId db name = .ok (db.idFor name) ∧ db.bso.find? ⟨uid, db.idFor name, id⟩ = some row := by
  obtain ⟨c, hc, hfind⟩ := Option.bind_eq_some_iff.mp h
  rw [(ensure_of_known hc).2]
  exact ⟨collectionId_eq_ok.mpr hc, hfind⟩

/-- A record that is left alone is listed at every fetch. -/
theorem Untouched.mem_listed {fetches : List Fetched} {bso : Bso} (h : Untouched reader query fetches bso)
    {f : Fetched} (hf : f ∈ fetches) : bso ∈ reader.listed query f :=
  mem_listing.mpr (mem_matching.mpr ⟨(find?_of_record (h.kept f hf)).2, h.alive f hf, h.matched⟩)

/-- What is listed under the id of such a record is the record. -/
theorem Untouched.eq_of_id {fetches : List Fetched} {bso : Bso} (h : Untouched reader query fetches bso)
    {f : Fetched} (hf : f ∈ fetches) {x : Bso} (hx : x ∈ reader.listed query f) : x.id = bso.id ↔ x = bso := by
  constructor
  · intro hid
    have hrow := (mem_listing_iff.mp hx).1
    rw [hid] at hrow
    have heq := Option.some.inj (hrow.symm.trans (find?_of_record (h.kept f hf)).2)
    cases x
    cases bso
    simp only [BsoRow.mk.injEq] at heq
    simp only [Bso.mk.injEq]
    exact ⟨hid, heq.2.2.1, heq.2.1, heq.1, heq.2.2.2⟩
  · exact congrArg Bso.id

/-- A reading that has ended, with steady fetches, has yielded every record that was left alone,
and each once. -/
theorem untouched_once (p : Platform) (reader : Reader) (query : BsoQuery) (db : Db) (rounds : List Round)
    (hquery : parseQuery p.float (reader.params.withOffset none) = .ok query)
    (hfull : (reader.params "full").isSome = true) (hvalid : collectionRe reader.collection = true)
    (hsort : query.sort ≠ some .index) (hlimit : 1 ≤ limitOf query) (hfits : query.Fits)
    (hwhole : db.Whole) (hcount : ∀ f ∈ reader.read p db none rounds, f.db.Countable)
    (hsteady : (reader.read p db none rounds).IsChain (reader.Steady query))
    (hended : Ended (reader.read p db none rounds)) (bso : Bso)
    (huntouched : Untouched reader query (reader.read p db none rounds) bso) :
    ((reader.read p db none rounds).flatMap fun f => f.answer.items).filter (fun item => item.id = bso.id) =
      [bso.asJson] := by
  have hreads : ∀ f ∈ reader.read p db none rounds, reader.Reads f := fun f hf =>
    ⟨(find?_of_record (huntouched.kept f hf)).1, whole_of_read hwhole f hf, (hcount f hf).fits, (hcount f hf).rows⟩
  have hmark : ∀ m ∈ (none : Option Bso), query.Resumable m := fun m hm => by cases hm
  obtain ⟨hpages, hcomplete⟩ := read_eq_pages hquery hfull hvalid hsort hlimit hfits hmark hreads
    (fun f hf => rfl) hsteady
  have hitems : (reader.read p db none rounds).flatMap (fun f => f.answer.items) =
      ((orderOf query.sort).pages (limitOf query) none
        ((reader.read p db none rounds).map (reader.listed query))).flatten.map Bso.asJson := by
    rw [List.flatMap_def, hpages, List.map_flatten]
  have hsame : ∀ l ∈ (reader.read p db none rounds).map (reader.listed query), ∀ x ∈ l,
      decide (x.id = bso.id) = true ↔ x = bso := by
    intro l hl x hx
    obtain ⟨f, hf, rfl⟩ := List.mem_map.mp hl
    rw [decide_eq_true_eq]
    exact huntouched.eq_of_id hf hx
  have honce : ((orderOf query.sort).pages (limitOf query) none
      ((reader.read p db none rounds).map (reader.listed query))).flatten.filter
        (fun x => decide (x.id = bso.id)) = [bso] := by
    apply Order.pages_once _ hsame _ _ (hcomplete hended)
    · intro l hl
      obtain ⟨f, -, rfl⟩ := List.mem_map.mp hl
      exact sorted_listing hsort
    · intro l hl
      obtain ⟨f, hf, rfl⟩ := List.mem_map.mp hl
      exact huntouched.mem_listed hf
    · intro m hm
      cases hm
  rw [hitems, List.filter_map]
  exact congrArg (List.map Bso.asJson) honce

end Serve

/-! ### Readings of three records written in one hundredth of a second -/

/-- Records a, b and c, posted together. -/
def postThree : Call :=
  ⟨1, 10, none, none, .postCollection "tabs" (Params.of [])
    { valid := ["a", "b", "c"].map ({ id := ·, payload := some "x" }) }⟩

/-- The deletion of a record. -/
def deleteOne (nowMs : ℕ) (id : String) : Call := ⟨1, nowMs, none, none, .deleteBso "tabs" id⟩

/-- A client that reads them one by one, oldest first. -/
def oneByOne : Reader := ⟨1, "tabs", Params.of [("full", "1"), ("limit", "1"), ("sort", "oldest")]⟩

/-- What its parameters ask for. -/
def oldestFirst : BsoQuery := { sort := some .oldest, limit := some 1 }

/-- Its fetches, when a record is deleted between the first and the second. -/
def readingWithout (id : String) : List Fetched :=
  oneByOne.read (.knowing []) Db.fresh none [⟨[postThree], 20, false⟩, ⟨[deleteOne 30 id], 40, false⟩, ⟨[], 50, false⟩]

/-- Record b as it is stored. -/
def recordB : Bso := ⟨"b", 10, "x", none, 2100000000010⟩

/-- Nothing happens to record b in such a reading. -/
theorem untouched_recordB {id : String} (h : ((readingWithout id).all fun f =>
      decide (f.db.record 1 "tabs" "b" = some ⟨none, "x", 10, 2100000000010⟩ ∧ f.now < 2100000000010)) = true) :
    Untouched oneByOne oldestFirst (readingWithout id) recordB where
  matched := by decide +kernel
  kept f hf := (of_decide_eq_true (List.all_eq_true.mp h f hf)).1
  alive f hf := (of_decide_eq_true (List.all_eq_true.mp h f hf)).2

/-- Such a reading ends when its last page has no token. -/
theorem ended_of_last {fetches : List Fetched}
    (h : fetches.getLast?.map (fun f => f.answer.nextOffset) = some none) : Ended fetches :=
  Option.map_eq_some_iff.mp h

/-- If record a, which has been read, is deleted, record b is skipped: the reading ends without it. -/
theorem untouched_skipped : Untouched oneByOne oldestFirst (readingWithout "a") recordB ∧
    Ended (readingWithout "a") ∧
    ((readingWithout "a").flatMap fun f => f.answer.items).map BsoJson.id = ["a", "c"] :=
  ⟨untouched_recordB (by decide +kernel), ended_of_last (by decide +kernel), by decide +kernel⟩

/-- If record c is deleted, which comes later, the reading is steady and b is read. -/
theorem untouched_once_recordB :
    ((readingWithout "c").flatMap fun f => f.answer.items).filter (fun item => item.id = "b") =
      [recordB.asJson] := by
  have hrows : ∀ f ∈ readingWithout "c", f.db.bso.rows.length ≤ 3 ∧ ∀ r ∈ f.db.bso.rows, r.2.modified ≤ 10 := by
    decide +kernel
  have hcount : ∀ f ∈ readingWithout "c", f.db.Countable := by
    intro f hf
    obtain ⟨hlength, hmodified⟩ := hrows f hf
    have hmax : (10 : ℤ) ≤ sqliteMax := by decide
    constructor
    · omega
    · intro key row hrow
      have hle : row.modified ≤ 10 := hmodified (key, row) (Table.mem_rows_iff.mpr hrow)
      omega
  have hsteady : (readingWithout "c").IsChain (oneByOne.Steady oldestFirst) := by decide +kernel
  have hfresh : Db.fresh.Whole := by
    intro key row hrow
    cases hrow
  have hfits : oldestFirst.Fits :=
    { limit := by decide
      older := fun _ h => by cases h
      newer := fun _ h => by cases h }
  exact untouched_once (.knowing []) oneByOne oldestFirst Db.fresh _ (by decide +kernel) (by decide) (by decide +kernel)
    (by decide) (by decide) hfits hfresh hcount hsteady
    (ended_of_last (by decide +kernel)) recordB (untouched_recordB (by decide +kernel))

end FxaLite.SyncStorage
