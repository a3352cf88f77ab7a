import FxaLite.SyncStorage.Collections

/-!
# Batches

An id handed out by the server is read back as itself. What a request does to the open batches
and to the items staged in them is one of five things, as for records; and an item is always
staged in a batch that is open.
-/

namespace FxaLite.SyncStorage

open Relational Reactive Fallible

/-! ### Batch ids -/

/-- An id in the server's own spelling is decoded to its decimal text. -/
theorem decodeStrict_encodeBatchId (n : ℕ) :
    (Base64.decodeStrict (encodeBatchId n).toList).bind Py.decodeAscii = some (Py.str n) := by
  rw [encodeBatchId, String.toList_ofList, Base64.decodeStrict_encode, Option.bind_some]
  refine Py.decodeAscii_encodeAscii fun c hc => ?_
  have hdigit := Py.toNat_of_isDigit (Py.isDigit_of_mem_str hc)
  omega

/-- An id that the server hands out is decoded as itself. -/
theorem eq_of_decodeBatchId {batchId : ℕ} {n : ℤ} (h : decodeBatchId (encodeBatchId batchId) = .ok n) :
    n = batchId := by
  unfold decodeBatchId at h
  simp only [decodeStrict_encodeBatchId, Option.getD_some] at h
  split at h
  · rename_i m hm
    obtain rfl := Except.ok.inj h
    exact Py.eq_of_int_str hm
  · cases h

/-! ### Staged items -/

/-- What is staged of a record. -/
def PostedBso.item (bso : PostedBso) : BatchItem := ⟨bso.sortindex, bso.payload, bso.ttl⟩

/-- The items once some records have been staged in a batch. -/
def stagedAll (uid : ℕ) (batchId : ℤ) (items : Table BatchItemKey BatchItem) (bsos : List PostedBso) :
    Table BatchItemKey BatchItem :=
  bsos.foldl (fun items bso => items.set ⟨uid, batchId, bso.id⟩ bso.item) items

/-- The last of some records that has a given id. -/
def lastPosted (id : String) (bsos : List PostedBso) : Option PostedBso := bsos.reverse.find? (·.id = id)

/-- The last record of two lists, one after the other. -/
theorem lastPosted_append (id : String) (bsos more : List PostedBso) :
    lastPosted id (bsos ++ more) = (lastPosted id more).or (lastPosted id bsos) := by
  simp only [lastPosted, List.reverse_append, List.find?_append]

/-- The loop of `append_to_batch`. -/
theorem stageBsos_items (self : SyncStore) (batchId : ℤ) (db : Db) (bsos : List PostedBso) :
    (SyncStore.stageBsos self batchId db bsos).batchItems = stagedAll self.uid batchId db.batchItems bsos := by
  induction bsos generalizing db with
  | nil => rfl
  | cons bso rest ih =>
    rw [SyncStore.stageBsos, ih]
    rfl

/-- An item of the batch is the last one staged under its id. -/
theorem find?_stagedAll (uid : ℕ) (batchId : ℤ) (items : Table BatchItemKey BatchItem) (bsos : List PostedBso)
    (id : String) :
    (stagedAll uid batchId items bsos).find? ⟨uid, batchId, id⟩ =
      ((lastPosted id bsos).map PostedBso.item).or (items.find? ⟨uid, batchId, id⟩) := by
  induction bsos generalizing items with
  | nil => rfl
  | cons bso rest ih =>
    have hlast : lastPosted id (bso :: rest) = (lastPosted id rest).or (if bso.id = id then some bso else none) := by
      rw [← List.singleton_append, lastPosted_append]
      congr 1
      simp [lastPosted, List.find?_cons]
      split <;> simp_all
    change (stagedAll uid batchId (items.set _ _) rest).find? _ = _
    rw [ih, hlast, Table.find?_set]
    by_cases hid : bso.id = id
    · subst hid
      cases lastPosted bso.id rest <;> simp
    · have hne : ¬(⟨uid, batchId, id⟩ : BatchItemKey) = ⟨uid, batchId, bso.id⟩ := by
        simpa [eq_comm] using hid
      rw [if_neg hne, if_neg hid, Option.or_none]

/-- An item of another batch stays. -/
theorem find?_stagedAll_of_ne {uid : ℕ} {batchId : ℤ} {items : Table BatchItemKey BatchItem}
    {bsos : List PostedBso} {key : BatchItemKey} (h : key.uid ≠ uid ∨ key.batchId ≠ batchId) :
    (stagedAll uid batchId items bsos).find? key = items.find? key := by
  induction bsos generalizing items with
  | nil => rfl
  | cons bso rest ih =>
    change (stagedAll uid batchId (items.set _ _) rest).find? _ = _
    rw [ih, Table.find?_set, if_neg]
    rintro rfl
    simp at h

/-! ### What a request does to batches -/

/-- A POST that names a batch: where, which, whether to commit, and the records it sends. -/
structure BatchUse where
  collection : String
  batchId : ℤ
  commit : Bool
  records : List PostedBso
  deriving DecidableEq, Repr

/-- The batch that a request names. -/
def Call.batchUse (call : Call) : Option BatchUse :=
  match call.request with
  | .postCollection name params bsos =>
    match parseBatch params with
    | .ok (some ⟨some text, commit⟩) =>
      match decodeBatchId text with
      | .ok batchId => some ⟨name, batchId, commit, bsos.valid⟩
      | .error _ => none
    | _ => none
  | _ => none

/-- The collection for which a request opens a batch, and the first records. -/
def Call.opens (call : Call) : Option (String × List PostedBso) :=
  match call.request with
  | .postCollection name params bsos =>
    match parseBatch params with
    | .ok (some ⟨none, false⟩) => some (name, bsos.valid)
    | _ => none
  | _ => none

/-- What a request, with its answer, does to the batches and their items. -/
inductive BatchEffect (call : Call) (db : Db) : Db → Response → Prop
  | keep {db' : Db} {answer : Response} (batches : db'.batches = db.batches) (items : db'.batchItems = db.batchItems)
      (idle : 300 ≤ answer.status ∨ call.batchUse = none ∧ call.opens = none) : BatchEffect call db db' answer
  | opened {db' : Db} {answer : Response} {name : String} {records : List PostedBso} {batchId : ℕ}
      {success : List String} {failed : List (String × String)}
      (request : call.opens = some (name, records)) (free : db.batches.find? ⟨call.uid, batchId⟩ = none)
      (low : call.now ≤ batchId) (high : batchId < call.now + maxBatchCreateRetry)
      (fresh : Fresh call db (db.idFor name)) (names : db'.collections = (db.ensure name).collections)
      (batches : db'.batches = db.batches.set ⟨call.uid, batchId⟩ (db.idFor name))
      (items : db'.batchItems = stagedAll call.uid batchId db.batchItems records)
      (body : answer.body = .staged (encodeBatchId batchId) success failed) (accepted : answer.status = 202) :
      BatchEffect call db db' answer
  | staged {db' : Db} {answer : Response} {use : BatchUse} (request : call.batchUse = some use)
      (append : use.commit = false)
      (isOpen : db.batches.find? ⟨call.uid, use.batchId⟩ = some (db.idFor use.collection))
      (batches : db'.batches = db.batches)
      (items : db'.batchItems = stagedAll call.uid use.batchId db.batchItems use.records)
      (accepted : answer.status = 202) : BatchEffect call db db' answer
  | committed {db' : Db} {answer : Response} {use : BatchUse} (request : call.batchUse = some use)
      (commit : use.commit = true)
      (isOpen : db.batches.find? ⟨call.uid, use.batchId⟩ = some (db.idFor use.collection))
      (fresh : Fresh call db (db.idFor use.collection))
      (after : db' = SyncStore.deleteBatch call.store ((db.ensure use.collection).written call.store
        (db.idFor use.collection) (call.recordWrites db)) use.batchId)
      (ok : answer.status = 200) : BatchEffect call db db' answer
  | wiped {db' : Db} {answer : Response} (request : call.request = .deleteAll)
      (batches : db'.batches = db.batches.deleteWhere fun key _ => key.uid = call.uid)
      (items : db'.batchItems = db.batchItems.deleteWhere fun key _ => key.uid = call.uid) :
      BatchEffect call db db' answer

section Handlers

variable {call : Call} {db db' : Db} {answer : Response} {name : String}

/-- Only the status and the body of the answer matter. -/
theorem BatchEffect.of_answer {response : Response} (h : BatchEffect call db db' answer)
    (hstatus : response.status = answer.status) (hbody : response.body = answer.body) :
    BatchEffect call db db' response := by
  cases h with
  | keep batches items idle => exact .keep batches items (hstatus ▸ idle)
  | opened request free low high fresh names batches items body accepted =>
    exact .opened request free low high fresh names batches items (hbody.trans body) (hstatus.trans accepted)
  | staged request append isOpen batches items accepted =>
    exact .staged request append isOpen batches items (hstatus.trans accepted)
  | committed request commit isOpen fresh after ok =>
    exact .committed request commit isOpen fresh after (hstatus.trans ok)
  | wiped request batches items => exact .wiped request batches items

/-- A POST to a batch, new or old. -/
theorem postBatch_batches {params : Params} {bsos : PostedBsos} {batch : BatchRequest}
    (hreq : call.request = .postCollection name params bsos) (hbatch : parseBatch params = .ok (some batch))
    (hplain : ¬(batch.id = none ∧ batch.commit = true)) (fresh : Fresh call db (db.idFor name))
    (h : postBatch call.store name batch bsos (db.ensure name) = .ok (answer, db')) :
    BatchEffect call db db' answer := by
  obtain ⟨identifier, opened, hopen, hend⟩ := postBatch_eq_ok h
  have hagain := getOrCreateCollectionId_ensure db name
  rw [getOrCreateCollectionId_eq, Prod.mk.injEq] at hagain
  obtain ⟨id, commit⟩ := batch
  simp only at hopen hend hplain
  obtain ⟨rfl, hcreate⟩ | ⟨rfl, hopened, hvalid⟩ := hopen
  · -- a new batch
    obtain ⟨rfl, hanswer, hstaged⟩ | ⟨rfl, -⟩ := hend
    · obtain ⟨batchId, hlow, hhigh, hfree, hidentifier, hopened⟩ := createBatch_eq_ok hcreate
      rw [hagain.1, hagain.2, ensure_batches] at hopened
      rw [ensure_batches] at hfree
      simp only at hidentifier hopened
      have hopens : call.opens = some (name, bsos.valid) := by simp [Call.opens, hreq, hbatch]
      have hitems : opened.batchItems = db.batchItems := by rw [hopened, ensure_batchItems]
      have hafter : db'.batches = opened.batches ∧ db'.collections = opened.collections ∧
          db'.batchItems = stagedAll call.uid batchId db.batchItems bsos.valid := by
        obtain ⟨hnil, rfl⟩ | happend := hstaged
        · rw [hnil]
          exact ⟨rfl, rfl, hitems⟩
        · obtain ⟨-, n, hdecode, rfl⟩ := appendToBatch_eq_ok happend
          rw [hidentifier] at hdecode
          obtain rfl := eq_of_decodeBatchId hdecode
          refine ⟨?_, ?_, ?_⟩
          · rw [stageBsos_eq]
          · rw [stageBsos_eq]
          · rw [stageBsos_items, hitems]
            rfl
      have hbody : answer.body = .staged (encodeBatchId batchId) (bsos.valid.map PostedBso.id) bsos.invalid := by
        rw [hanswer, hidentifier]
      refine .opened hopens hfree hlow hhigh fresh ?_ ?_ hafter.2.2 hbody ?_
      · rw [hafter.2.1, hopened]
      · rw [hafter.1, hopened]
        rfl
      · rw [hanswer]
    · exact absurd ⟨rfl, rfl⟩ hplain
  · -- an open batch of the collection
    subst hopened
    obtain ⟨batchId, c, hdecode, -, hid, hfind⟩ := validateBatch_eq_true hvalid
    obtain rfl := Option.some.inj ((idxOf?_ensure db name).symm.trans hid)
    rw [ensure_batches] at hfind
    have huse : call.batchUse = some ⟨name, batchId, commit, bsos.valid⟩ := by
      simp [Call.batchUse, hreq, hbatch, hdecode]
    obtain ⟨rfl, hanswer, hstaged⟩ | ⟨rfl, -⟩ := hend
    · have hafter : db'.batches = db.batches ∧
          db'.batchItems = stagedAll call.uid batchId db.batchItems bsos.valid := by
        obtain ⟨hnil, rfl⟩ | happend := hstaged
        · rw [hnil, ensure_batches, ensure_batchItems]
          exact ⟨rfl, rfl⟩
        · obtain ⟨-, n, hdecode', rfl⟩ := appendToBatch_eq_ok happend
          obtain rfl := Except.ok.inj (hdecode.symm.trans hdecode')
          refine ⟨?_, ?_⟩
          · rw [stageBsos_eq]
            exact ensure_batches db name
          · rw [stageBsos_items, ensure_batchItems]
            rfl
      exact .staged huse rfl hfind hafter.1 hafter.2 (by rw [hanswer])
    · obtain ⟨n, hdecode', hstatus, hafter⟩ := postBatch_committed hreq hbatch h
      obtain rfl := Except.ok.inj (hdecode.symm.trans hdecode')
      exact .committed huse rfl hfind fresh hafter hstatus

/-- A POST, batched or not. -/
theorem postCollection_batches {params : Params} {bsos : PostedBsos} {batch : Option BatchRequest}
    (hreq : call.request = .postCollection name params bsos) (hbatch : parseBatch params = .ok batch)
    (fresh : Fresh call db (db.idFor name))
    (h : postCollection call.store name batch bsos (db.ensure name) = .ok (answer, db')) :
    BatchEffect call db db' answer := by
  have hplain (huse : call.batchUse = none) (hopens : call.opens = none)
      (h : postCollection call.store name none bsos (db.ensure name) = .ok (answer, db')) :
      BatchEffect call db db' answer := by
    simp only [postCollection, bind_eq_ok] at h
    obtain ⟨⟨modified, after⟩, hpost, h⟩ := h
    have hresult := postBsos_eq_ok hpost
    rw [Prod.mk.injEq] at hresult
    simp only [Except.ok.injEq, Prod.mk.injEq] at h
    obtain ⟨rfl, rfl⟩ := h
    rw [hresult.2]
    refine .keep ?_ ?_ (Or.inr ⟨huse, hopens⟩)
    · simp only [Db.written, ensure_batches]
    · simp only [Db.written, ensure_batchItems]
  unfold postCollection at h
  cases batch with
  | none => exact hplain (by simp [Call.batchUse, hreq, hbatch]) (by simp [Call.opens, hreq, hbatch]) h
  | some batch =>
    obtain ⟨id, commit⟩ := batch
    by_cases hone : id = none ∧ commit = true
    · obtain ⟨rfl, rfl⟩ := hone
      exact hplain (by simp [Call.batchUse, hreq, hbatch]) (by simp [Call.opens, hreq, hbatch]) h
    · have hbatched : (!(id.isNone && commit)) = true := by
        cases id <;> cases commit <;> simp_all
      simp only [hbatched, if_true] at h
      exact postBatch_batches hreq hbatch hone fresh h

/-- The handlers that delete records leave batches alone. -/
theorem deleteCollection_batches {self : SyncStore} {query : BsoQuery}
    (h : deleteCollection self name query db = .ok (answer, db')) :
    db'.batches = db.batches ∧ db'.batchItems = db.batchItems := by
  unfold deleteCollection at h
  simp only at h
  split at h
  · rename_i modified after hdeleted
    simp only [Except.ok.injEq, Prod.mk.injEq] at h
    obtain ⟨-, rfl⟩ := h
    cases hids : query.ids.isEmpty with
    | true =>
      rw [hids, if_pos rfl] at hdeleted
      obtain ⟨c, -, hafter, -⟩ := deleteCollection_eq_ok hdeleted
      simp only at hafter
      rw [hafter]
      exact ⟨rfl, rfl⟩
    | false =>
      rw [hids, if_neg Bool.false_ne_true] at hdeleted
      obtain ⟨c, -, hresult⟩ := deleteBsos_eq_ok hids hdeleted
      rw [(Prod.mk.inj hresult).2]
      exact ⟨rfl, rfl⟩
  · cases h
    exact ⟨rfl, rfl⟩
  · cases h
    exact ⟨rfl, rfl⟩
  · cases h

theorem deleteBso_batches {self : SyncStore} {id : String} (h : deleteBso self name id db = .ok (answer, db')) :
    db'.batches = db.batches ∧ db'.batchItems = db.batchItems := by
  unfold deleteBso at h
  split at h
  · rename_i modified after hdeleted
    simp only [Except.ok.injEq, Prod.mk.injEq] at h
    obtain ⟨-, rfl⟩ := h
    obtain ⟨c, row, -, -, -, hresult⟩ := deleteBso_eq_ok hdeleted
    rw [(Prod.mk.inj hresult).2]
    exact ⟨rfl, rfl⟩
  · cases h
  · cases h
  · cases h

end Handlers

/-- The handler of a route has one of the five effects on batches. -/
theorem route_batches {p : Platform} {call : Call} {r : Route} {db locked db' : Db} {answer : Response}
    (hroute : route p call = .ok r) (hlocked : Locked call db r.collection locked)
    (h : r.handler locked = .ok (answer, db')) : BatchEffect call db db' answer := by
  have hreads (huse : call.batchUse = none) (hopens : call.opens = none) (hnone : r.collection = none)
      (hreads : Reads r.handler) : BatchEffect call db db' answer := by
    rw [hnone] at hlocked
    rw [(hreads _ _ _ h).1, show locked = db from hlocked]
    exact .keep rfl rfl (Or.inr ⟨huse, hopens⟩)
  unfold route at hroute
  cases hreq : call.request with
  | infoCollections =>
    simp only [hreq, Except.ok.injEq] at hroute
    subst hroute
    exact hreads (by simp [Call.batchUse, hreq]) (by simp [Call.opens, hreq]) rfl (infoCollections_reads _)
  | infoCollectionCounts =>
    simp only [hreq, Except.ok.injEq] at hroute
    subst hroute
    exact hreads (by simp [Call.batchUse, hreq]) (by simp [Call.opens, hreq]) rfl
      fun _ _ _ h => by cases h; exact ⟨rfl, rfl, rfl⟩
  | infoCollectionUsage =>
    simp only [hreq, Except.ok.injEq] at hroute
    subst hroute
    exact hreads (by simp [Call.batchUse, hreq]) (by simp [Call.opens, hreq]) rfl
      fun _ _ _ h => by cases h; exact ⟨rfl, rfl, rfl⟩
  | infoQuota =>
    simp only [hreq, Except.ok.injEq] at hroute
    subst hroute
    exact hreads (by simp [Call.batchUse, hreq]) (by simp [Call.opens, hreq]) rfl
      fun _ _ _ h => by cases h; exact ⟨rfl, rfl, rfl⟩
  | deleteAll =>
    simp only [hreq, Except.ok.injEq] at hroute
    subst hroute
    obtain ⟨rfl, rfl⟩ := Prod.mk.inj (Except.ok.inj h)
    obtain rfl : locked = db := hlocked
    exact .wiped hreq rfl rfl
  | getCollection name params newlines =>
    simp only [hreq, bind_eq_ok, Except.ok.injEq] at hroute
    obtain ⟨_, -, query, -, rfl⟩ := hroute
    exact hreads (by simp [Call.batchUse, hreq]) (by simp [Call.opens, hreq]) rfl
      (getCollection_reads p _ name query _ newlines)
  | getBso name id =>
    simp only [hreq, bind_eq_ok, Except.ok.injEq] at hroute
    obtain ⟨_, -, _, -, rfl⟩ := hroute
    exact hreads (by simp [Call.batchUse, hreq]) (by simp [Call.opens, hreq]) rfl (getBso_reads _ name id)
  | postCollection name params bsos =>
    simp only [hreq, bind_eq_ok, Except.ok.injEq] at hroute
    obtain ⟨_, -, batch, hbatch, rfl⟩ := hroute
    obtain ⟨hfresh, rfl⟩ := hlocked
    exact postCollection_batches hreq hbatch hfresh h
  | deleteCollection name params =>
    simp only [hreq, bind_eq_ok, Except.ok.injEq] at hroute
    obtain ⟨_, -, query, -, rfl⟩ := hroute
    obtain ⟨-, rfl⟩ := hlocked
    obtain ⟨hbatches, hitems⟩ := deleteCollection_batches h
    rw [ensure_batches] at hbatches
    rw [ensure_batchItems] at hitems
    exact .keep hbatches hitems (Or.inr ⟨by simp [Call.batchUse, hreq], by simp [Call.opens, hreq]⟩)
  | putBso name id body =>
    simp only [hreq, bind_eq_ok, Except.ok.injEq] at hroute
    obtain ⟨_, -, _, -, rfl⟩ := hroute
    obtain ⟨-, rfl⟩ := hlocked
    have hput := putBso_eq call.store (db.ensure name) name { body with id := id }
    unfold putBso at h
    simp only [hput, Except.ok.injEq, Prod.mk.injEq] at h
    obtain ⟨-, rfl⟩ := h
    refine .keep ?_ ?_ (Or.inr ⟨by simp [Call.batchUse, hreq], by simp [Call.opens, hreq]⟩)
    · simp only [Db.written, ensure_batches]
    · simp only [Db.written, ensure_batchItems]
  | deleteBso name id =>
    simp only [hreq, bind_eq_ok, Except.ok.injEq] at hroute
    obtain ⟨_, -, _, -, rfl⟩ := hroute
    obtain ⟨-, rfl⟩ := hlocked
    obtain ⟨hbatches, hitems⟩ := deleteBso_batches h
    rw [ensure_batches] at hbatches
    rw [ensure_batchItems] at hitems
    exact .keep hbatches hitems (Or.inr ⟨by simp [Call.batchUse, hreq], by simp [Call.opens, hreq]⟩)

/-- Every request has one of the five effects on batches; one that is refused has none. -/
theorem serve_batches (p : Platform) (db : Db) (call : Call) :
    BatchEffect call db (serve p db call).1 (serve p db call).2 := by
  unfold serve
  split
  · rename_i response db' h
    obtain ⟨r, hroute, ⟨hpre, rfl⟩ | ⟨locked, answer, -, hlocked, hanswer, rfl⟩⟩ := handle_eq_ok h
    · have hstatus := (precondition_some hpre).1
      refine .keep rfl rfl (Or.inl ?_)
      rw [stampWeave_status]
      omega
    · exact (route_batches hroute hlocked hanswer).of_answer rfl rfl
  · rename_i raised h
    exact .keep rfl rfl (Or.inl (errorResponse_status call raised))

/-! ### Reachable databases -/

/-- Every item is staged in a batch that is open. -/
def Db.ItemsOpen (db : Db) : Prop :=
  ∀ (uid : ℕ) (batchId : ℤ) (id : String) (item : BatchItem),
    db.batchItems.find? ⟨uid, batchId, id⟩ = some item → (db.batches.find? ⟨uid, batchId⟩).isSome = true

/-- Staging in a batch leaves every item in an open batch, if that one is open. -/
theorem itemsOpen_stagedAll {db db' : Db} {uid : ℕ} {batchId : ℤ} {bsos : List PostedBso} (h : db.ItemsOpen)
    (hopen : (db'.batches.find? ⟨uid, batchId⟩).isSome = true)
    (hkept : ∀ key, (db.batches.find? key).isSome = true → (db'.batches.find? key).isSome = true)
    (items : db'.batchItems = stagedAll uid batchId db.batchItems bsos) : db'.ItemsOpen := by
  intro uid' batchId' id item hitem
  by_cases hkey : uid' = uid ∧ batchId' = batchId
  · rw [hkey.1, hkey.2]
    exact hopen
  · rw [items, find?_stagedAll_of_ne (not_and_or.mp hkey)] at hitem
    exact hkept _ (h _ _ _ _ hitem)

/-- Every request keeps it so. -/
theorem BatchEffect.itemsOpen {call : Call} {db db' : Db} {answer : Response} (h : BatchEffect call db db' answer)
    (hopen : db.ItemsOpen) : db'.ItemsOpen := by
  cases h with
  | keep batches items idle =>
    intro uid batchId id item hitem
    rw [items] at hitem
    rw [batches]
    exact hopen _ _ _ _ hitem
  | opened request free low high fresh names batches items body accepted =>
    refine itemsOpen_stagedAll hopen (by rw [batches]; simp) (fun key hkey => ?_) items
    rw [batches, Table.find?_set]
    split
    · rfl
    · exact hkey
  | staged request append isOpen batches items accepted =>
    exact itemsOpen_stagedAll hopen (by rw [batches, isOpen]; rfl) (fun key hkey => by rwa [batches]) items
  | @committed use request commit isOpen fresh after ok =>
    intro uid batchId id item hitem
    rw [after, SyncStore.deleteBatch, Db.written] at hitem ⊢
    simp only [ensure_batchItems, ensure_batches, Table.find?_deleteWhere, Option.filter_eq_some_iff] at hitem ⊢
    have hother : uid ≠ call.store.uid ∨ batchId ≠ use.batchId := by
      simpa using hitem.2
    obtain ⟨c, hc⟩ := Option.isSome_iff_exists.mp (hopen _ _ _ _ hitem.1)
    rw [hc]
    simpa using hother
  | wiped request batches items =>
    intro uid batchId id item hitem
    rw [items, Table.find?_deleteWhere, Option.filter_eq_some_iff] at hitem
    obtain ⟨c, hc⟩ := Option.isSome_iff_exists.mp (hopen _ _ _ _ hitem.1)
    rw [batches, Table.find?_deleteWhere, hc]
    simpa using hitem.2

/-- It holds of every database a run of requests leads to. -/
theorem itemsOpen_of_run (p : Platform) {db : Db} (calls : List Call) (h : db.ItemsOpen) :
    ((server p).run db calls).ItemsOpen :=
  (server p).run_of_step (fun db call h _ => (serve_batches p db call).itemsOpen h) h (server p).along_true

/-- Two ids that look the same are the same. -/
theorem encodeBatchId_inj {a b : ℕ} (h : encodeBatchId a = encodeBatchId b) : a = b := by
  have htext := decodeStrict_encodeBatchId a
  rw [h, decodeStrict_encodeBatchId b] at htext
  exact (Py.str_injective (Option.some.inj htext)).symm

end FxaLite.SyncStorage
