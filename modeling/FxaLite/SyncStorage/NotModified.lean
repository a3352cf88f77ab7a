import FxaLite.SyncStorage.Resources

/-!
# Not modified

What a 304 is worth. A GET that names the timestamp an earlier one was answered with, and is
told that nothing is newer, would have been answered with the same body, but for records that
have run out in between. The timestamp does not show everything: a resource that is gone has
timestamp zero, and the list of collections has one timestamp for all writes of a hundredth.
-/

namespace FxaLite.SyncStorage

open Relational Reactive Fallible

/-! ### What a GET depends on -/

/-- The same request without its preconditions. -/
def Call.unconditional (call : Call) : Call := { call with ifModifiedSince := none, ifUnmodifiedSince := none }

/-- The status and the body of an answer. -/
def answered (p : Platform) (db : Db) (call : Call) : ℕ × Body :=
  ((serve p db call).2.status, (serve p db call).2.body)

/-- The status and the body of what a handler returns or raises. -/
def outcome (result : Except Raised (Response × Db)) : ℕ × Body :=
  match result with
  | .ok (answer, _) => (answer.status, answer.body)
  | .error raised =>
    match raised.protocolError with
    | some e => (e.statusCode, .weave e.weave.code)
    | none => (500, .unexpected)

/-- Without preconditions and without the lock, the handler decides. -/
theorem answered_unconditional {p : Platform} {db : Db} {call : Call} {rt : Route}
    (hroute : route p call.unconditional = .ok rt) (hcollection : rt.collection = none) :
    answered p db call.unconditional = outcome (rt.handler db) := by
  have hhandle : handle p call.unconditional db =
      (rt.handler db).map fun result => ({ result.1 with
        lastModified := result.1.lastModified.or (some (timestampHeader (rt.resource db))) }, result.2) := by
    unfold handle
    rw [hroute, ok_bind]
    unfold run
    have hpre : precondition p call.unconditional (rt.resource db) = .ok none := rfl
    simp only [hcollection, hpre, ok_bind]
    cases rt.handler db <;> rfl
  unfold answered serve
  rw [hhandle]
  cases h : rt.handler db with
  | ok result => rfl
  | error raised =>
    simp only [Except.map, outcome, errorResponse]
    cases raised.protocolError <;> rfl

/-- A resource looks the same to a reader of one database now and of another one then. -/
def Resource.LooksSame (db db' : Db) (uid now now' : ℕ) : Resource → Prop
  | .info => ∀ c, db'.userCollections.find? ⟨uid, c⟩ = db.userCollections.find? ⟨uid, c⟩
  | .collection name => ∀ id, (db'.record uid name id).filter (BsoRow.alive now') =
      (db.record uid name id).filter (BsoRow.alive now)
  | .record name id => ((db'.record uid name id).filter (BsoRow.alive now')).map BsoRow.content =
      ((db.record uid name id).filter (BsoRow.alive now)).map BsoRow.content

/-- Equal timestamps make equal lists of collections. -/
theorem infoCollections_congr {t uid now now' : ℕ} {db db' : Db} (inv : db.Inv t)
    (names : db.collections <+: db'.collections) (h : Resource.info.LooksSame db db' uid now now') :
    outcome (infoCollections ⟨uid, now'⟩ db') = outcome (infoCollections ⟨uid, now⟩ db) := by
  have hselect : (db'.userCollections.select fun key _ => key.uid = uid && key.collectionId ≠ tombstone) =
      db.userCollections.select fun key _ => key.uid = uid && key.collectionId ≠ tombstone := by
    apply Table.select_congr
    intro key s
    obtain ⟨keyUid, c⟩ := key
    by_cases huid : keyUid = uid
    · subst huid
      rw [h c]
    · simp [huid]
  have htimestamps : SyncStore.collectionTimestamps ⟨uid, now'⟩ db' = SyncStore.collectionTimestamps ⟨uid, now⟩ db := by
    unfold SyncStore.collectionTimestamps
    simp only
    rw [hselect]
    apply List.map_congr_left
    intro row hrow
    obtain ⟨⟨keyUid, c⟩, s⟩ := row
    have hlt := inv.stampKnown (Table.mem_select.mp hrow).1
    obtain ⟨more, hmore⟩ := names
    simp only [SyncStore.collectionName, ← hmore, List.getD_eq_getElem?_getD, List.getElem?_append_left hlt]
  unfold infoCollections
  rw [htimestamps]
  rfl

/-- Equal visible records make equal pages. -/
theorem getCollection_congr {p : Platform} {uid now now' : ℕ} {db db' : Db} {name : String} {query : BsoQuery}
    {full newlines : Bool} (names : db.collections <+: db'.collections)
    (hbind : SyncStore.bindable query full = true)
    (h : (Resource.collection name).LooksSame db db' uid now now') :
    outcome (getCollection p ⟨uid, now'⟩ name query full newlines db') =
      outcome (getCollection p ⟨uid, now⟩ name query full newlines db) := by
  -- the records a page is made of, once the collection has an id
  have hselect : ∀ c, db'.collections.idxOf? name = some c → db.collections.idxOf? name = some c →
      db'.bso.select (SyncStore.selects ⟨uid, now'⟩ c query full) =
        db.bso.select (SyncStore.selects ⟨uid, now⟩ c query full) := by
    intro c hc' hc
    apply Table.select_congr
    intro key row
    obtain ⟨keyUid, keyC, id⟩ := key
    by_cases hkey : keyUid = uid ∧ keyC = c
    · obtain ⟨rfl, rfl⟩ := hkey
      have hid := h id
      unfold Db.record at hid
      rw [hc', hc, Option.bind_some, Option.bind_some] at hid
      have hrow : ∀ r, ((db'.bso.find? ⟨keyUid, keyC, id⟩).filter (BsoRow.alive now') = some r ↔
          (db.bso.find? ⟨keyUid, keyC, id⟩).filter (BsoRow.alive now) = some r) := fun r => by rw [hid]
      have hiff := hrow row
      simp only [Option.filter_eq_some_iff, BsoRow.alive, decide_eq_true_eq] at hiff
      simp only [SyncStore.selects, decide_true, Bool.true_and, Bool.and_eq_true, decide_eq_true_eq]
      constructor
      · intro hsel
        obtain ⟨hfind, halive⟩ := hiff.mp ⟨hsel.1, hsel.2.1⟩
        exact ⟨hfind, halive, hsel.2.2⟩
      · intro hsel
        obtain ⟨hfind, halive⟩ := hiff.mpr ⟨hsel.1, hsel.2.1⟩
        exact ⟨hfind, halive, hsel.2.2⟩
    · have hno : ∀ now : ℕ, SyncStore.selects ⟨uid, now⟩ c query full ⟨keyUid, keyC, id⟩ row = false := by
        intro now
        simp only [SyncStore.selects, Bool.and_eq_false_iff, decide_eq_false_iff_not]
        exact Or.inl (Or.inl (not_and_or.mp hkey))
      simp [hno]
  unfold getCollection SyncStore.getBsos
  cases hc : db.collections.idxOf? name with
  | some c =>
    have hc' := idxOf?_of_isPrefix names hc
    rw [collectionId_eq_ok.mpr hc, collectionId_eq_ok.mpr hc', ok_bind, ok_bind, hbind, hselect c hc' hc]
    rfl
  | none =>
    rw [collectionId_eq_error.mpr ⟨hc, rfl⟩]
    cases hc' : db'.collections.idxOf? name with
    | none =>
      rw [collectionId_eq_error.mpr ⟨hc', rfl⟩]
      rfl
    | some c =>
      -- the name has been given an id since, but the user has no record there
      have hempty : db'.bso.select (SyncStore.selects ⟨uid, now'⟩ c query full) = [] := by
        rw [List.eq_nil_iff_forall_not_mem]
        intro row hrow
        obtain ⟨⟨keyUid, keyC, id⟩, row⟩ := row
        obtain ⟨hfind, hsel⟩ := Table.mem_select.mp hrow
        simp only [SyncStore.selects, Bool.and_eq_true, decide_eq_true_eq] at hsel
        obtain ⟨⟨⟨rfl, rfl⟩, halive⟩, -⟩ := hsel
        have hid := h id
        unfold Db.record at hid
        rw [hc', hc, Option.bind_some, Option.bind_none, hfind] at hid
        simp only [BsoRow.alive, Option.filter_some, decide_eq_true_eq, Option.filter_none, halive, if_true,
          reduceCtorEq] at hid
      rw [collectionId_eq_ok.mpr hc', ok_bind, hbind, hempty]
      have hscan : p.scan.scan [] = [] := List.perm_nil.mp (p.scan.perm [])
      have hpage : SyncStore.pageOf p.scan query full [] =
          ⟨if full then .records [] else .ids [], (SyncStore.pageOf p.scan query full []).offset⟩ := by
        have horder : SyncStore.orderBy query.sort full [] = [] := by
          unfold SyncStore.orderBy
          split <;> rfl
        simp only [SyncStore.pageOf, hscan, horder, List.drop_nil, List.take_nil, List.length_nil, Nat.not_lt_zero,
          if_false, List.map_nil]
      simp only [Bool.not_true, Bool.false_eq_true, if_false, error_bind, List.map_nil]
      rw [hpage]
      rfl

/-- What a read of a record comes to. -/
theorem getBso_outcome (uid now : ℕ) (name id : String) (db : Db) :
    outcome (getBso ⟨uid, now⟩ name id db) =
      match ((db.record uid name id).filter (BsoRow.alive now)).map BsoRow.content with
      | some (payload, sortindex, modified) => (200, .record ⟨id, timestampJson modified, payload, sortindex⟩)
      | none => (404, .weave 0) := by
  rw [getBso_eq]
  cases (db.record uid name id).filter (BsoRow.alive now) with
  | none => rfl
  | some row => rfl

/-- Equal content makes equal records. -/
theorem getBso_congr {uid now now' : ℕ} {db db' : Db} {name id : String}
    (h : (Resource.record name id).LooksSame db db' uid now now') :
    outcome (getBso ⟨uid, now'⟩ name id db') = outcome (getBso ⟨uid, now⟩ name id db) := by
  have hcontent : ((db'.record uid name id).filter (BsoRow.alive now')).map BsoRow.content =
      ((db.record uid name id).filter (BsoRow.alive now)).map BsoRow.content := h
  rw [getBso_outcome, getBso_outcome, hcontent]

/-- What a read of a record is routed to. -/
theorem route_getBso {p : Platform} {call : Call} {rt : Route} {name id : String}
    (hreq : call.request = .getBso name id) (hroute : route p call = .ok rt) :
    rt = ⟨bsoResource call.store name id, none, getBso call.store name id⟩ := by
  unfold route at hroute
  simp only [hreq, bind_eq_ok, Except.ok.injEq] at hroute
  obtain ⟨_, -, _, -, rfl⟩ := hroute
  rfl

/-- What a GET answers depends on what its resource looks like. -/
theorem answered_congr {p : Platform} {t : ℕ} {db db' : Db} {r : Resource} {call call' : Call} {rt : Route}
    (inv : db.Inv t) (names : db.collections <+: db'.collections)
    (hr : Resource.ofRequest call.request = some r) (hget : call.request.isGet = true)
    (hroute : route p call = .ok rt)
    (hbind : ∀ name params newlines query, call.request = .getCollection name params newlines →
      parseQuery p.float params = .ok query → SyncStore.bindable query (params "full").isSome = true)
    (huser : call'.uid = call.uid) (hreq : call'.request = call.request)
    (h : r.LooksSame db db' call.uid call.now call'.now) :
    answered p db' call'.unconditional = answered p db call.unconditional := by
  have hroute₁ : route p call.unconditional = .ok rt := hroute
  cases hcall : call.request with
  | infoCollections =>
    simp only [hcall, Resource.ofRequest, Option.some.injEq] at hr
    subst hr
    have hrt : ∀ c : Call, c.request = .infoCollections → c.uid = call.uid → route p c =
        .ok ⟨SyncStore.storageTimestamp c.store, none, infoCollections ⟨call.uid, c.now⟩⟩ := by
      intro c hc hu
      simp only [route, hc, Call.store, hu]
    rw [answered_unconditional (hrt call'.unconditional (hreq.trans hcall) huser) rfl,
      answered_unconditional (hrt call.unconditional hcall rfl) rfl]
    exact infoCollections_congr inv names h
  | getCollection name params newlines =>
    simp only [hcall, Resource.ofRequest, Option.some.injEq] at hr
    subst hr
    obtain ⟨valid, query, hquery, hrt⟩ := route_getCollection hcall hroute
    have hroute' : ∀ c : Call, c.request = .getCollection name params newlines → c.uid = call.uid → route p c =
        .ok ⟨collectionResource c.store name, none,
          getCollection p ⟨call.uid, c.now⟩ name query (params "full").isSome newlines⟩ := by
      intro c hc hu
      simp only [route, hc, validateCollection_eq_ok.mpr valid, hquery, ok_bind, Call.store, hu]
    rw [answered_unconditional (hroute' call'.unconditional (hreq.trans hcall) huser) rfl,
      answered_unconditional (hroute' call.unconditional hcall rfl) rfl]
    exact getCollection_congr names (hbind name params newlines query hcall hquery) h
  | getBso name id =>
    simp only [hcall, Resource.ofRequest, Option.some.injEq] at hr
    subst hr
    unfold route at hroute
    simp only [hcall, bind_eq_ok] at hroute
    obtain ⟨_, hname, _, hid, -⟩ := hroute
    have hroute' : ∀ c : Call, c.request = .getBso name id → c.uid = call.uid → route p c =
        .ok ⟨bsoResource c.store name id, none, getBso ⟨call.uid, c.now⟩ name id⟩ := by
      intro c hc hu
      simp only [route, hc, hname, hid, ok_bind, Call.store, hu]
    rw [answered_unconditional (hroute' call'.unconditional (hreq.trans hcall) huser) rfl,
      answered_unconditional (hroute' call.unconditional hcall rfl) rfl]
    exact getBso_congr h
  | _ => simp [hcall, Request.isGet] at hget

/-! ### What a 304 says -/

/-- A 304 to a GET says that the resource's timestamp is not past the one the request names. -/
theorem timestamp_le_of_not_modified {p : Platform} {db : Db} {call : Call} {r : Resource} {since : String}
    {last : ℕ} (hr : Resource.ofRequest call.request = some r) (hget : call.request.isGet = true)
    (hsince : call.ifModifiedSince = some since) (hfloat : p.float since = some (timestampHeader last))
    (h : (serve p db call).2.status = 304) : r.timestamp db call.uid ≤ last := by
  unfold serve at h
  split at h
  · rename_i response db' hhandle
    obtain ⟨rt, hroute, ⟨hpre, -⟩ | ⟨locked, answer, -, -, hanswer, rfl⟩⟩ := handle_eq_ok hhandle
    · rw [(Resource.route_resource hr hroute db).2] at hpre
      unfold precondition at hpre
      simp only [hsince] at hpre
      split at hpre
      · cases hpre
      · rename_i heq _
        cases heq
        simp only [bind_eq_ok, Except.ok.injEq, Option.ite_none_right_eq_some] at hpre
        obtain ⟨m, hparse, hle, -⟩ := hpre
        rw [hfloat] at hparse
        rw [parseTimestamp_header hparse] at hle
        exact Nat.le_trans hle (quantize_le last)
      · rename_i heq _
        cases heq
      · rename_i heq _
        cases heq
    · have hstatus := ((route_reads hget hroute).2 _ _ _ hanswer).2.1
      simp only [stampWeave_status, hstatus] at h
      omega
  · rename_i raised hhandle
    have herror : (errorResponse call raised).status ≠ 304 := by
      unfold errorResponse
      split
      · rename_i e _
        have := e.isError
        simp only
        omega
      · decide
    exact absurd h herror

/-- A resource that is newer than an answer, but whose timestamp is not, is not there. -/
theorem Resource.NewerThan.absent {r : Resource} {last uid : ℕ} {db : Db} (h : r.NewerThan last db uid)
    (hle : r.timestamp db uid ≤ last) : r.Absent db uid := by
  cases r with
  | info =>
    obtain hnone | ⟨c, s, hs, hlt⟩ := h
    · exact hnone
    · exact absurd (Nat.le_trans (le_storageTimestamp hs) hle) (not_le.mpr hlt)
  | collection name =>
    change (db.stamp uid name).getD 0 ≤ last at hle
    change db.stamp uid name = none
    cases hs : db.stamp uid name with
    | none => rfl
    | some s =>
      rw [hs] at hle
      exact absurd hle (not_le.mpr (h s hs))
  | record name id =>
    change ((db.record uid name id).map BsoRow.modified).getD 0 ≤ last at hle
    change db.record uid name id = none
    cases hrow : db.record uid name id with
    | none => rfl
    | some row =>
      rw [hrow] at hle
      exact absurd hle (not_le.mpr (h row hrow))

/-- Two databases without a resource are the same there. -/
theorem Resource.same_of_absent {r : Resource} {t t' uid : ℕ} {db db' : Db} (inv : db.Inv t) (inv' : db'.Inv t')
    (h : r.Absent db uid) (h' : r.Absent db' uid) : r.Same db db' uid := by
  cases r with
  | info => exact fun c => (h' c).trans (h c).symm
  | collection name =>
    have hnone : ∀ {t : ℕ} {db : Db}, db.Inv t → db.stamp uid name = none → ∀ id, db.record uid name id = none := by
      intro t db inv hstamp id
      cases hrow : db.record uid name id with
      | none => rfl
      | some row =>
        obtain ⟨s, hs, -⟩ := inv.record_le_stamp hrow
        rw [hstamp] at hs
        cases hs
    exact ⟨Eq.trans h' (Eq.symm h), fun id => (hnone inv' h' id).trans (hnone inv h id).symm⟩
  | record name id =>
    change (db'.record uid name id).map _ = (db.record uid name id).map _
    rw [show db'.record uid name id = none from h', show db.record uid name id = none from h]

/-- An earlier database without the records that have run out by now, as a later one has them. -/
def Db.withoutRanOut (db later : Db) (now : ℕ) : Db :=
  { db with
    bso := db.bso.deleteWhere fun key _ => (later.bso.find? key).any fun row => !row.alive now }

/-- It is a possible database itself. -/
theorem Db.Inv.withoutRanOut {t : ℕ} {db : Db} (inv : db.Inv t) (later : Db) (now : ℕ) :
    (db.withoutRanOut later now).Inv t where
  tombstoneName := inv.tombstoneName
  stampKnown := inv.stampKnown
  stampPast := inv.stampPast
  recordStamped h := by
    rw [Db.withoutRanOut, Table.find?_deleteWhere, Option.filter_eq_some_iff] at h
    exact inv.recordStamped h.1

/-- A record that neither was changed nor has run out looks as it did without those that have. -/
theorem Resource.looksSame_withoutRanOut {r : Resource} {uid now now' : ℕ} {db later : Db}
    (names : db.collections <+: later.collections) (hnow : now ≤ now')
    (hsame : r.Same db later uid)
    (hseen : ∀ name id, r = .record name id → ∀ row, db.record uid name id = some row → now < row.expiry) :
    r.LooksSame (db.withoutRanOut later now') later uid now now' := by
  -- a record in the earlier database, as far as it has not run out in the later one
  have hrecord : ∀ name id, (∃ row, db.record uid name id = some row) →
      (db.withoutRanOut later now').record uid name id =
        (db.record uid name id).filter fun _ => !(later.record uid name id).any fun row => !row.alive now' := by
    intro name id hthere
    obtain ⟨row, hrow⟩ := hthere
    have hbind := hrow
    unfold Db.record at hbind
    obtain ⟨c, hc, -⟩ := Option.bind_eq_some_iff.mp hbind
    have hc' := idxOf?_of_isPrefix names hc
    unfold Db.record
    rw [show (db.withoutRanOut later now').collections = db.collections from rfl, hc, hc', Option.bind_some,
      Option.bind_some, Option.bind_some]
    exact Table.find?_deleteWhere _ _ _
  have hgone : ∀ name id, db.record uid name id = none →
      (db.withoutRanOut later now').record uid name id = none := by
    intro name id hnone
    unfold Db.record at hnone ⊢
    change (db.collections.idxOf? name).bind _ = none
    cases hc : db.collections.idxOf? name with
    | none => rfl
    | some c =>
      rw [hc, Option.bind_some] at hnone
      rw [Option.bind_some]
      change (db.bso.deleteWhere _).find? _ = none
      rw [Table.find?_deleteWhere, hnone, Option.filter_none]
  cases r with
  | info => exact hsame
  | collection name =>
    intro id
    have hsame' : later.record uid name id = db.record uid name id := hsame.2 id
    cases hrow : db.record uid name id with
    | none => rw [hgone name id hrow, hsame', hrow]; rfl
    | some row =>
      rw [hrecord name id ⟨row, hrow⟩, hsame', hrow]
      by_cases halive : now' < row.expiry
      · have hearlier : now < row.expiry := Nat.lt_of_le_of_lt hnow halive
        have hkept : (some row).filter (fun _ => !(some row).any fun row => !row.alive now') = some row := by
          simp [BsoRow.alive, halive]
        rw [hkept, filter_alive, filter_alive, if_pos halive, if_pos hearlier]
      · have hdropped : (some row).filter (fun _ => !(some row).any fun row => !row.alive now') = none := by
          simpa [BsoRow.alive] using halive
        rw [hdropped, filter_alive, if_neg halive]
        rfl
  | record name id =>
    change ((later.record uid name id).filter _).map _ = (((db.withoutRanOut later now').record uid name id).filter _).map _
    have hsame' : (later.record uid name id).map BsoRow.content = (db.record uid name id).map BsoRow.content := hsame
    cases hrow : db.record uid name id with
    | none =>
      rw [hrow, Option.map_none, Option.map_eq_none_iff] at hsame'
      rw [hgone name id hrow, hsame']
      rfl
    | some row =>
      rw [hrow, Option.map_some] at hsame'
      obtain ⟨row', hrow', hcontent⟩ := Option.map_eq_some_iff.mp hsame'
      have halive := hseen name id rfl row hrow
      rw [hrecord name id ⟨row, hrow⟩, hrow', hrow]
      by_cases halive' : now' < row'.expiry
      · have hkept : (some row).filter (fun _ => !(some row').any fun row => !row.alive now') = some row := by
          simp [BsoRow.alive, halive']
        rw [hkept, filter_alive, filter_alive, if_pos halive, if_pos halive', Option.map_some, hcontent]
        rfl
      · have hdropped : (some row).filter (fun _ => !(some row').any fun row => !row.alive now') = none := by
          simpa [BsoRow.alive] using halive'
        rw [hdropped, filter_alive, if_neg halive']
        rfl

/-- A resource that was not changed looks the same if none of its records has run out. -/
theorem Resource.looksSame_of_same {r : Resource} {uid now now' : ℕ} {db later : Db} (hnow : now ≤ now')
    (hsame : r.Same db later uid)
    (hseen : ∀ name id, r = .record name id → ∀ row, db.record uid name id = some row → now < row.expiry)
    (hkept : ∀ name id row row', db.record uid name id = some row → now < row.expiry →
      later.record uid name id = some row' → now' < row'.expiry) : r.LooksSame db later uid now now' := by
  cases r with
  | info => exact hsame
  | collection name =>
    intro id
    have hsame' : later.record uid name id = db.record uid name id := hsame.2 id
    cases hrow : db.record uid name id with
    | none => rw [hsame', hrow]; rfl
    | some row =>
      rw [hsame', hrow, filter_alive, filter_alive]
      by_cases halive : now < row.expiry
      · rw [if_pos halive, if_pos (hkept name id row row hrow halive (hsame'.trans hrow))]
      · rw [if_neg halive, if_neg fun h => halive (Nat.lt_of_le_of_lt hnow h)]
  | record name id =>
    change ((later.record uid name id).filter _).map _ = ((db.record uid name id).filter _).map _
    have hsame' : (later.record uid name id).map BsoRow.content = (db.record uid name id).map BsoRow.content := hsame
    cases hrow : db.record uid name id with
    | none =>
      rw [hrow, Option.map_none, Option.map_eq_none_iff] at hsame'
      rw [hsame']
      rfl
    | some row =>
      rw [hrow, Option.map_some] at hsame'
      obtain ⟨row', hrow', hcontent⟩ := Option.map_eq_some_iff.mp hsame'
      have halive := hseen name id rfl row hrow
      rw [hrow', filter_alive, filter_alive, if_pos halive, if_pos (hkept name id row row' hrow halive hrow'),
        Option.map_some, Option.map_some, hcontent]

/-- A 304 is sound. A GET of the list of collections, of a collection or of a record is answered
200 past the epoch; later the same GET is told that nothing is newer than that answer. If the
resource has not vanished in between, and no request changed the user's timestamps in the
hundredth of the answer without the resource showing it, then without its condition the later
GET is answered like the first one would have been without the records that have run out since;
and if none has, with 200 and the same body. -/
theorem not_modified_sound (p : Platform) {before between : List Call} {first again : Call}
    {r : Resource} {last : ℕ} {since : String}
    (htimed : Timed Call.now 0 (before ++ first :: (between ++ [again]))) (hepoch : 0 < first.now)
    (hr : Resource.ofRequest first.request = some r) (hget : first.request.isGet = true)
    (hok : (serve p ((server p).run Db.fresh before) first).2.status = 200)
    (hlast : (serve p ((server p).run Db.fresh before) first).2.lastModified = some (timestampHeader last))
    (huser : again.uid = first.uid) (hreq : again.request = first.request)
    (hsince : again.ifModifiedSince = some since) (hfloat : p.float since = some (timestampHeader last))
    (h304 : (serve p ((server p).run Db.fresh (before ++ first :: between)) again).2.status = 304)
    (hthere : r.Absent ((server p).run Db.fresh (before ++ first :: between)) first.uid →
      r.Absent ((server p).run Db.fresh before) first.uid)
    (horder : (server p).Along (r.InOrder p last first.uid) ((server p).run Db.fresh before) between)
    (hbind : ∀ name params newlines query, first.request = .getCollection name params newlines →
      parseQuery p.float params = .ok query → SyncStore.bindable query (params "full").isSome = true) :
    let earlier := (server p).run Db.fresh before
    let later := (server p).run Db.fresh (before ++ first :: between)
    answered p later again.unconditional =
        answered p (earlier.withoutRanOut later again.now) first.unconditional ∧
      ((∀ name id row row', earlier.record first.uid name id = some row → first.now < row.expiry →
          later.record first.uid name id = some row' → again.now < row'.expiry) →
        answered p later again.unconditional = (200, (serve p earlier first).2.body)) := by
  obtain ⟨hbefore, hread_le, hafter⟩ := timed_append.mp htimed
  obtain ⟨hbetween, hagain⟩ := timed_append.mp hafter
  have hnow : first.now ≤ again.now := Nat.le_trans (le_lastTime hbetween) hagain.1
  have inv := (inv_of_run p hbefore).mono hread_le
  obtain ⟨valid, hunchanged, hstamp⟩ := get_lastModified hr hget hlast
  have hend : (server p).run Db.fresh (before ++ first :: between) =
      (server p).run ((server p).run Db.fresh before) between := by
    rw [Machine.run_append, Machine.run_cons]
    exact congrArg ((server p).run · between) hunchanged
  rw [hend] at h304 hthere ⊢
  generalize hdb : (server p).run Db.fresh before = db at *
  have names := names_of_run p db between
  have inv' : ((server p).run db between).Inv (lastTime Call.now first.now between) :=
    (server p).run_invariant (P := fun t db => db.Inv t)
      (fun _ _ call inv ht _ => (serve_effect p _ call).inv inv ht) inv hbetween (server p).along_true
  -- nothing has changed, or what has is gone
  have hsame : r.Same db ((server p).run db between) first.uid := by
    obtain hkept | hnewer := Resource.run_same_or_newer (r.behind_of_timestamp inv hstamp) inv hepoch valid
      hbetween horder
    · exact Resource.same_of_along hkept
    · have hle := timestamp_le_of_not_modified (hreq ▸ hr) (hreq ▸ hget) hsince hfloat h304
      rw [huser] at hle
      have habsent := hnewer.absent hle
      exact Resource.same_of_absent inv inv' (hthere habsent) habsent
  obtain ⟨rt, locked, answer, hroute, -, hlocked, hanswer, hserve⟩ := serve_success (by rw [hok]; decide)
  obtain ⟨hcollection, hreads⟩ := route_reads hget hroute
  rw [hcollection] at hlocked
  obtain rfl : locked = db := hlocked
  have hfirst : answered p locked first.unconditional = (200, (serve p locked first).2.body) := by
    have hroute' : route p first.unconditional = .ok rt := hroute
    rw [answered_unconditional hroute' hcollection, hanswer, hserve]
    change (answer.status, answer.body) = (200, answer.body)
    rw [(hreads _ _ _ hanswer).2.1]
  have hseen : ∀ name id, r = .record name id → ∀ row, locked.record first.uid name id = some row →
      first.now < row.expiry := by
    intro name id hrecord row hrow
    have hrequest : first.request = .getBso name id := by
      cases hq : first.request with
      | getBso name' id' =>
        rw [hq, hrecord] at hr
        cases hr
        rfl
      | infoCollections => rw [hq, hrecord] at hr; cases hr
      | getCollection _ _ _ => rw [hq, hrecord] at hr; cases hr
      | _ => rw [hq] at hget; cases hget
    have hrt := route_getBso hrequest hroute
    have hout := getBso_outcome first.uid first.now name id locked
    have hhandler : rt.handler locked = getBso ⟨first.uid, first.now⟩ name id locked := by
      rw [hrt]
      rfl
    rw [← hhandler, hanswer, hrow, filter_alive] at hout
    by_contra hdead
    rw [if_neg hdead] at hout
    have hstatus : answer.status = 404 := congrArg Prod.fst hout
    rw [(hreads _ _ _ hanswer).2.1] at hstatus
    cases hstatus
  constructor
  · exact answered_congr (inv.withoutRanOut _ again.now) names hr hget hroute hbind huser hreq
      (Resource.looksSame_withoutRanOut names hnow hsame hseen)
  · intro hkept
    rw [← hfirst]
    exact answered_congr inv names hr hget hroute hbind huser hreq
      (Resource.looksSame_of_same hnow hsame hseen hkept)

/-- A record is stored and a resource read; something happens; the resource is read again on the
condition that something is newer. -/
def pollCalls (resource other : Request) : List Call :=
  [⟨1, 10, none, none, .putBso "bookmarks" "a" { id := "a", payload := some "x" }⟩,
    ⟨1, 20, none, none, resource⟩,
    ⟨1, 30, none, none, other⟩,
    ⟨1, 40, some "0.01", none, resource⟩]

/-- Another collection is written in between: the 304 is right. -/
theorem not_modified_bookmarks :
    let p := Platform.knowing [("0.01", 1 / 100)]
    let calls := pollCalls (.getCollection "bookmarks" (.of []) false)
      (.putBso "tabs" "b" { id := "b", payload := some "z" })
    let later := (server p).run Db.fresh (calls.take 3)
    answered p later calls[3].unconditional = (200, .ids false ["a"]) := by
  intro p calls later
  have hlater : (((server p).run Db.fresh (calls.take 3)).stamp 1 "bookmarks").isSome = true := by decide +kernel
  rw [Option.isSome_iff_ne_none] at hlater
  have hquery : ∀ name params newlines query, calls[1].request = .getCollection name params newlines →
      parseQuery p.float params = .ok query → SyncStore.bindable query (params "full").isSome = true := by
    intro name params newlines query hreq hparse
    cases hreq
    have hempty : parseQuery p.float (Params.of []) = .ok {} := by decide +kernel
    rw [hempty] at hparse
    cases hparse
    decide
  have hsound := @not_modified_sound p [calls[0]] [calls[2]] calls[1] calls[3] (.collection "bookmarks") 10 "0.01"
    (by decide) (by decide) rfl rfl (by decide +kernel) (by decide +kernel) rfl rfl rfl (by decide +kernel)
    (by decide +kernel) (fun h => absurd h hlater) ⟨fun _ h => (nomatch h), trivial⟩ hquery
  exact hsound.1.trans (by decide +kernel)

/-- The record is deleted in between: the 304 comes all the same, where a plain GET says that
there is no such record. -/
theorem not_modified_after_delete :
    let p := Platform.knowing [("0.01", 1 / 100)]
    let calls := pollCalls (.getBso "bookmarks" "a") (.deleteBso "bookmarks" "a")
    let stored := (server p).run Db.fresh (calls.take 1)
    let later := (server p).run Db.fresh (calls.take 3)
    (serve p stored calls[1]).2.status = 200 ∧
      (serve p stored calls[1]).2.lastModified = some (timestampHeader 10) ∧
        (serve p later calls[3]).2.status = 304 ∧ answered p later calls[3].unconditional = (404, .weave 0) := by
  decide +kernel

end FxaLite.SyncStorage
