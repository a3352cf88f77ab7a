import FxaLite.SyncStorage.Writes

/-!
# What a request can do

The inversion of `serve`, once for all properties of runs. A request that is refused, or only
reads, leaves every record and every timestamp; one that is carried out writes a list of
records of one collection, removes some of its records, drops the collection, or wipes the
storage of its user.
-/

namespace FxaLite.SyncStorage

open Relational Reactive Fallible

/-! ### The five effects -/

/-- The collection a URL names. -/
def Request.collection : Request → Option String
  | .getCollection collection _ _ => some collection
  | .postCollection collection _ _ => some collection
  | .deleteCollection collection _ => some collection
  | .getBso collection _ => some collection
  | .putBso collection _ _ => some collection
  | .deleteBso collection _ => some collection
  | _ => none

/-- The record writes a request asks for, in the order it makes them. Records appended to a
batch are not written. -/
def Call.recordWrites (db : Db) (call : Call) : List RecordWrite :=
  match call.request with
  | .putBso _ id body => [.put { body with id := id }]
  | .postCollection _ params bsos =>
    match parseBatch params with
    | .ok none => bsos.valid.map .put
    | .ok (some ⟨none, true⟩) => bsos.valid.map .put
    | .ok (some ⟨some batch, true⟩) =>
      match decodeBatchId batch with
      | .ok batchId =>
        (SyncStore.stagedItems call.store db batchId).map (fun item => .commit item.1.id item.2) ++
          bsos.valid.map .put
      | .error _ => []
    | _ => []
  | _ => []

/-- A write to a collection can move its timestamp forward. -/
def Fresh (call : Call) (db : Db) (collectionId : ℕ) : Prop :=
  ∀ modified, db.userCollections.find? ⟨call.uid, collectionId⟩ = some modified → modified < call.now

/-- What a request, answered with some status, does to names, records and timestamps. -/
inductive Effect (call : Call) (db : Db) : Db → ℕ → Prop
  | keep {db' : Db} {status : ℕ} (names : db.collections <+: db'.collections) (bso : db'.bso = db.bso)
      (stamps : db'.userCollections = db.userCollections)
      (idle : 300 ≤ status ∨ call.recordWrites db = []) : Effect call db db' status
  | wrote {db' : Db} {name : String} (url : call.request.collection = some name) (valid : collectionRe name = true)
      (fresh : Fresh call db (db.idFor name)) (names : db'.collections = (db.ensure name).collections)
      (bso : db'.bso = db.bso.upsertAll ((call.recordWrites db).map (·.upsert call.store (db.idFor name))))
      (stamps : db'.userCollections = db.userCollections.set ⟨call.uid, db.idFor name⟩ call.now) :
      Effect call db db' 200
  | removed {db' : Db} {name : String} {ids : List String} (url : call.request.collection = some name)
      (valid : collectionRe name = true) (idle : call.recordWrites db = [])
      (fresh : Fresh call db (db.idFor name)) (names : db'.collections = (db.ensure name).collections)
      (bso : db'.bso = db.bso.deleteWhere (named call.uid (db.idFor name) ids))
      (stamps : db'.userCollections = db.userCollections.set ⟨call.uid, db.idFor name⟩ call.now) :
      Effect call db db' 200
  | dropped {db' : Db} {name : String} (url : call.request.collection = some name)
      (valid : collectionRe name = true) (idle : call.recordWrites db = [])
      (fresh : Fresh call db (db.idFor name)) (names : db'.collections = (db.ensure name).collections)
      (bso : db'.bso = db.bso.deleteWhere (inCollection call.uid (db.idFor name)))
      (stamps : db'.userCollections =
        (db.userCollections.deleteWhere fun key _ => key = ⟨call.uid, db.idFor name⟩).set
          ⟨call.uid, tombstone⟩ call.now) :
      Effect call db db' 200
  | wiped {db' : Db} (request : call.request = .deleteAll) (names : db'.collections = db.collections)
      (bso : db'.bso = db.bso.deleteWhere fun key _ => key.uid = call.uid)
      (stamps : db'.userCollections = db.userCollections.deleteWhere fun key _ => key.uid = call.uid) :
      Effect call db db' 200

/-- Names are only added. -/
theorem Effect.names {call : Call} {db db' : Db} {status : ℕ} (h : Effect call db db' status) :
    db.collections <+: db'.collections := by
  cases h with
  | keep names bso stamps idle => exact names
  | wrote url valid fresh names bso stamps => exact names ▸ prefix_ensure db _
  | removed url valid idle fresh names bso stamps => exact names ▸ prefix_ensure db _
  | dropped url valid idle fresh names bso stamps => exact names ▸ prefix_ensure db _
  | wiped request names bso stamps => exact names ▸ List.prefix_rfl

/-! ### The transaction -/

/-- The names `validate_collection` lets through. -/
theorem validateCollection_eq_ok {name : String} : validateCollection name = .ok () ↔ collectionRe name = true := by
  simp [validateCollection]

/-- The guard of a write. -/
theorem checkWrite_eq_ok {call : Call} {db : Db} {c : ℕ} :
    SyncStore.checkWrite call.store db c = .ok () ↔ Fresh call db c := by
  have hstore : call.store = ⟨call.uid, call.now⟩ := rfl
  unfold SyncStore.checkWrite Fresh
  rw [hstore]
  cases db.userCollections.find? ⟨call.uid, c⟩ with
  | none => simp
  | some modified => simp

/-- What the write lock amounts to. -/
theorem lockForWrite_eq_ok {call : Call} {db db' : Db} {name : String} :
    lockForWrite call.store db name = .ok db' ↔ Fresh call db (db.idFor name) ∧ db' = db.ensure name := by
  have hcheck : SyncStore.checkWrite call.store (db.ensure name) (db.idFor name) = .ok () ↔
      Fresh call db (db.idFor name) := by
    rw [checkWrite_eq_ok]
    unfold Fresh
    rw [ensure_userCollections]
  unfold lockForWrite
  rw [getOrCreateCollectionId_eq]
  simp only [bind_eq_ok, Except.ok.injEq]
  constructor
  · intro h
    obtain ⟨_, hlock, rfl⟩ := h
    exact ⟨hcheck.mp hlock, rfl⟩
  · intro h
    exact ⟨(), hcheck.mpr h.1, h.2.symm⟩

/-- A POST whose guard lets it through writes its records. -/
theorem postBsos_of_fresh {call : Call} {db : Db} {name : String} (h : Fresh call db (db.idFor name))
    (bsos : List PostedBso) :
    SyncStore.postBsos call.store db name bsos false =
      .ok (call.now, (db.ensure name).written call.store (db.idFor name) (bsos.map .put)) := by
  have hcheck : SyncStore.checkWrite call.store (db.ensure name) (db.idFor name) = .ok () := by
    rw [checkWrite_eq_ok]
    unfold Fresh
    rw [ensure_userCollections]
    exact h
  unfold SyncStore.postBsos
  rw [getOrCreateCollectionId_eq]
  simp only [Bool.not_false, if_true, hcheck, ok_bind, writeBsos_eq]
  rfl

/-- A refused precondition is a 304 or a 412 with the resource's timestamp. -/
theorem precondition_some {p : Platform} {call : Call} {timestamp : ℕ} {response : Response}
    (h : precondition p call timestamp = .ok (some response)) :
    (response.status = 304 ∨ response.status = 412) ∧
      response.lastModified = some (timestampHeader timestamp) := by
  unfold precondition at h
  split at h
  · simp at h
  · simp only [bind_eq_ok, Except.ok.injEq, Option.ite_none_right_eq_some, Option.some.injEq] at h
    obtain ⟨_, -, -, rfl⟩ := h
    simp
  · simp only [bind_eq_ok, Except.ok.injEq, Option.ite_none_right_eq_some, Option.some.injEq] at h
    obtain ⟨_, -, -, rfl⟩ := h
    simp
  · simp at h

/-- The database a handler finds: a write is behind the lock. -/
def Locked (call : Call) (db : Db) : Option String → Db → Prop
  | none, locked => locked = db
  | some name, locked => Fresh call db (db.idFor name) ∧ locked = db.ensure name

/-- How a transaction ends that does not raise: the precondition refuses, or the handler runs
behind the lock. -/
theorem run_eq_ok {p : Platform} {call : Call} {resource : Db → ℕ} {collection : Option String}
    {handler : Handler} {db db' : Db} {response : Response}
    (h : run p call resource collection handler db = .ok (response, db')) :
    (precondition p call (resource db) = .ok (some response) ∧ db' = db) ∨
      ∃ locked answer, precondition p call (resource db) = .ok none ∧ Locked call db collection locked ∧
        handler locked = .ok (answer, db') ∧
        response = { answer with
          lastModified := answer.lastModified.or (some (timestampHeader (resource db))) } := by
  unfold run at h
  simp only [bind_eq_ok] at h
  obtain ⟨refusal, hpre, h⟩ := h
  cases refusal with
  | some refusal =>
    simp only [Except.ok.injEq, Prod.mk.injEq] at h
    obtain ⟨rfl, rfl⟩ := h
    exact Or.inl ⟨hpre, rfl⟩
  | none =>
    simp only [bind_eq_ok] at h
    obtain ⟨locked, hlock, ⟨answer, after⟩, hanswer, h⟩ := h
    simp only [Except.ok.injEq, Prod.mk.injEq] at h
    obtain ⟨rfl, rfl⟩ := h
    refine Or.inr ⟨locked, answer, hpre, ?_, hanswer, rfl⟩
    cases collection with
    | none => simpa [Locked, eq_comm] using hlock
    | some name => exact lockForWrite_eq_ok.mp hlock

/-- Refusals and errors have statuses from 300 on. -/
theorem errorResponse_status (call : Call) (raised : Raised) : 300 ≤ (errorResponse call raised).status := by
  unfold errorResponse
  split
  · rename_i e _
    exact Nat.le_trans (by decide) e.isError
  · decide

@[simp] theorem stampWeave_status (call : Call) (response : Response) :
    (stampWeave call response).status = response.status := rfl

@[simp] theorem stampWeave_lastModified (call : Call) (response : Response) :
    (stampWeave call response).lastModified = response.lastModified := rfl

@[simp] theorem stampWeave_body (call : Call) (response : Response) :
    (stampWeave call response).body = response.body := rfl

/-- How a request ends that does not raise. -/
theorem handle_eq_ok {p : Platform} {call : Call} {db db' : Db} {response : Response}
    (h : handle p call db = .ok (response, db')) :
    ∃ r, route p call = .ok r ∧
      ((precondition p call (r.resource db) = .ok (some response) ∧ db' = db) ∨
        ∃ locked answer, precondition p call (r.resource db) = .ok none ∧ Locked call db r.collection locked ∧
          r.handler locked = .ok (answer, db') ∧
          response = { answer with
            lastModified := answer.lastModified.or (some (timestampHeader (r.resource db))) }) := by
  unfold handle at h
  simp only [bind_eq_ok] at h
  obtain ⟨r, hroute, hrun⟩ := h
  exact ⟨r, hroute, run_eq_ok hrun⟩

/-! ### Every request -/

section Handlers

variable {call : Call} {db db' : Db} {answer : Response} {name : String}

/-- A handler that writes the records of its request has that effect. -/
theorem effect_of_written {ws : List RecordWrite} (url : call.request.collection = some name)
    (valid : collectionRe name = true) (fresh : Fresh call db (db.idFor name))
    (hws : call.recordWrites db = ws) (hnames : db'.collections = (db.ensure name).collections)
    (hbso : db'.bso = ((db.ensure name).written call.store (db.idFor name) ws).bso)
    (hstamps : db'.userCollections = ((db.ensure name).written call.store (db.idFor name) ws).userCollections) :
    Effect call db db' 200 := by
  refine .wrote url valid fresh hnames ?_ ?_
  · rw [hbso, hws, Db.written, ensure_bso]
  · rw [hstamps, Db.written, ensure_userCollections]
    rfl

/-- `put_bso` writes one record. -/
theorem putBso_effect {id : String} {body : PostedBso} (hreq : call.request = .putBso name id body)
    (valid : collectionRe name = true) (fresh : Fresh call db (db.idFor name))
    (h : putBso call.store name id body (db.ensure name) = .ok (answer, db')) :
    Effect call db db' answer.status := by
  have hput := putBso_eq call.store (db.ensure name) name { body with id := id }
  unfold putBso at h
  simp only [hput, Except.ok.injEq, Prod.mk.injEq] at h
  obtain ⟨rfl, rfl⟩ := h
  have hwrites : call.recordWrites db = [.put { body with id := id }] := by
    simp [Call.recordWrites, hreq]
  have hagain := getOrCreateCollectionId_ensure db name
  rw [getOrCreateCollectionId_eq, Prod.mk.injEq] at hagain
  rw [hagain.1, hagain.2]
  exact effect_of_written (by rw [hreq]; rfl) valid fresh hwrites rfl rfl rfl

/-- The commit of an open batch writes what is staged and then the records of the request, and
the batch is gone. -/
theorem postBatch_committed {params : Params} {bsos : PostedBsos} {id : String}
    (hreq : call.request = .postCollection name params bsos)
    (hbatch : parseBatch params = .ok (some ⟨some id, true⟩))
    (h : postBatch call.store name ⟨some id, true⟩ bsos (db.ensure name) = .ok (answer, db')) :
    ∃ batchId, decodeBatchId id = .ok batchId ∧ answer.status = 200 ∧
      db' = SyncStore.deleteBatch call.store
        ((db.ensure name).written call.store (db.idFor name) (call.recordWrites db)) batchId := by
  obtain ⟨identifier, opened, hopen, hend⟩ := postBatch_eq_ok h
  have hagain := getOrCreateCollectionId_ensure db name
  rw [getOrCreateCollectionId_eq, Prod.mk.injEq] at hagain
  obtain ⟨hid, -⟩ | ⟨hid, rfl, -⟩ := hopen
  · cases hid
  obtain rfl := Option.some.inj hid
  obtain ⟨hcommit, -⟩ | ⟨-, modified, committed, hcommitted, hposted⟩ := hend
  · cases hcommit
  obtain ⟨batchId, hdecode, hresult⟩ := commitBatch_eq_ok hcommitted
  rw [hagain.1, hagain.2, Prod.mk.injEq] at hresult
  obtain ⟨rfl, rfl⟩ := hresult
  have hstaged : SyncStore.stagedItems call.store (db.ensure name) batchId =
      SyncStore.stagedItems call.store db batchId := by
    unfold SyncStore.stagedItems
    rw [ensure_batchItems]
  rw [hstaged] at hposted
  generalize hcommits : (SyncStore.stagedItems call.store db batchId).map
    (fun item => RecordWrite.commit item.1.id item.2) = commits at hposted
  have hwrites : call.recordWrites db = commits ++ bsos.valid.map .put := by
    simp [Call.recordWrites, hreq, hbatch, hdecode, hcommits]
  refine ⟨batchId, hdecode, ?_⟩
  rw [hwrites]
  obtain ⟨hvalid, rfl, rfl⟩ | ⟨modified', hpost, rfl⟩ := hposted
  · rw [hvalid, List.map_nil, List.append_nil]
    exact ⟨rfl, rfl⟩
  · rw [postBsos_stamped] at hpost
    simp only [Except.ok.injEq, Prod.mk.injEq] at hpost
    obtain ⟨rfl, rfl⟩ := hpost
    have hknown : (SyncStore.deleteBatch call.store ((db.ensure name).written call.store (db.idFor name) commits)
        batchId).collections.idxOf? name = some (db.idFor name) := idxOf?_ensure db name
    obtain ⟨hensure, hidFor⟩ := ensure_of_known hknown
    rw [hensure, hidFor, ← written_written]
    exact ⟨rfl, rfl⟩

/-- `_post_batch` stages records, or commits and writes them. -/
theorem postBatch_effect {params : Params} {bsos : PostedBsos} {batch : BatchRequest}
    (hreq : call.request = .postCollection name params bsos) (hbatch : parseBatch params = .ok (some batch))
    (hplain : ¬(batch.id = none ∧ batch.commit = true))
    (valid : collectionRe name = true) (fresh : Fresh call db (db.idFor name))
    (h : postBatch call.store name batch bsos (db.ensure name) = .ok (answer, db')) :
    Effect call db db' answer.status := by
  obtain ⟨id, commit⟩ := batch
  cases commit with
  | true =>
    cases id with
    | none => exact absurd ⟨rfl, rfl⟩ hplain
    | some id =>
      obtain ⟨batchId, -, hstatus, rfl⟩ := postBatch_committed hreq hbatch h
      rw [hstatus]
      exact effect_of_written (by rw [hreq]; rfl) valid fresh rfl rfl rfl rfl
  | false =>
    obtain ⟨identifier, opened, hopen, hend⟩ := postBatch_eq_ok h
    have hagain := getOrCreateCollectionId_ensure db name
    rw [getOrCreateCollectionId_eq, Prod.mk.injEq] at hagain
    have hopened : opened.collections = (db.ensure name).collections ∧ opened.bso = db.bso ∧
        opened.userCollections = db.userCollections := by
      obtain ⟨-, hcreate⟩ | ⟨-, rfl, -⟩ := hopen
      · obtain ⟨batchId, -, -, -, -, hopened⟩ := createBatch_eq_ok hcreate
        rw [hagain.2] at hopened
        simp only at hopened
        rw [hopened]
        simp
      · simp
    obtain ⟨hnames, hbso, hstamps⟩ := hopened
    obtain ⟨-, rfl, hstaged⟩ | ⟨hcommit, -⟩ := hend
    · have hidle : call.recordWrites db = [] := by
        simp [Call.recordWrites, hreq, hbatch]
      have hsame : db'.collections = opened.collections ∧ db'.bso = opened.bso ∧
          db'.userCollections = opened.userCollections := by
        obtain ⟨-, rfl⟩ | happend := hstaged
        · exact ⟨rfl, rfl, rfl⟩
        · obtain ⟨-, batchId, -, rfl⟩ := appendToBatch_eq_ok happend
          rw [stageBsos_eq]
          exact ⟨rfl, rfl, rfl⟩
      refine .keep ?_ (hsame.2.1.trans hbso) (hsame.2.2.trans hstamps) (Or.inr hidle)
      rw [hsame.1, hnames]
      exact prefix_ensure db name
    · cases hcommit

/-- `post_collection`, batched or not. -/
theorem postCollection_effect {params : Params} {bsos : PostedBsos} {batch : Option BatchRequest}
    (hreq : call.request = .postCollection name params bsos) (hbatch : parseBatch params = .ok batch)
    (valid : collectionRe name = true) (fresh : Fresh call db (db.idFor name))
    (h : postCollection call.store name batch bsos (db.ensure name) = .ok (answer, db')) :
    Effect call db db' answer.status := by
  have hagain := getOrCreateCollectionId_ensure db name
  rw [getOrCreateCollectionId_eq, Prod.mk.injEq] at hagain
  have hplain (hwrites : call.recordWrites db = bsos.valid.map .put)
      (h : postCollection call.store name none bsos (db.ensure name) = .ok (answer, db')) :
      Effect call db db' answer.status := by
    simp only [postCollection, bind_eq_ok] at h
    obtain ⟨⟨modified, after⟩, hpost, h⟩ := h
    have hresult := postBsos_eq_ok hpost
    rw [hagain.1, hagain.2, Prod.mk.injEq] at hresult
    simp only [Except.ok.injEq, Prod.mk.injEq] at h
    obtain ⟨rfl, rfl⟩ := h
    rw [hresult.2]
    exact effect_of_written (by rw [hreq]; rfl) valid fresh hwrites rfl rfl rfl
  unfold postCollection at h
  cases batch with
  | none =>
    exact hplain (by simp [Call.recordWrites, hreq, hbatch]) h
  | some batch =>
    obtain ⟨id, commit⟩ := batch
    by_cases hone : id = none ∧ commit = true
    · obtain ⟨rfl, rfl⟩ := hone
      exact hplain (by simp [Call.recordWrites, hreq, hbatch]) h
    · have hbatched : (!(id.isNone && commit)) = true := by
        cases id <;> cases commit <;> simp_all
      simp only [hbatched, if_true] at h
      exact postBatch_effect hreq hbatch hone valid fresh h

/-- `delete_collection` drops the collection, removes the records named, or finds nothing. -/
theorem deleteCollection_effect {params : Params} {query : BsoQuery}
    (hreq : call.request = .deleteCollection name params)
    (valid : collectionRe name = true) (fresh : Fresh call db (db.idFor name))
    (h : deleteCollection call.store name query (db.ensure name) = .ok (answer, db')) :
    Effect call db db' answer.status := by
  have hidle : call.recordWrites db = [] := by simp [Call.recordWrites, hreq]
  have hurl : call.request.collection = some name := by rw [hreq]; rfl
  have hnothing : Effect call db (db.ensure name) 200 :=
    .keep (prefix_ensure db name) (ensure_bso db name) (ensure_userCollections db name) (Or.inr hidle)
  unfold deleteCollection at h
  simp only at h
  split at h
  · rename_i modified after hdeleted
    simp only [Except.ok.injEq, Prod.mk.injEq] at h
    obtain ⟨rfl, rfl⟩ := h
    cases hids : query.ids.isEmpty with
    | true =>
      rw [hids, if_pos rfl] at hdeleted
      obtain ⟨collectionId, hid, hafter, -⟩ := deleteCollection_eq_ok hdeleted
      obtain rfl := Option.some.inj ((idxOf?_ensure db name).symm.trans hid)
      simp only at hafter
      rw [hafter]
      refine .dropped hurl valid hidle fresh rfl ?_ ?_
      · rw [SyncStore.updateCollection, ensure_bso]
        rfl
      · rw [SyncStore.updateCollection, ensure_userCollections]
        rfl
    | false =>
      rw [hids, if_neg Bool.false_ne_true] at hdeleted
      obtain ⟨collectionId, hid, hresult⟩ := deleteBsos_eq_ok hids hdeleted
      obtain rfl := Option.some.inj ((idxOf?_ensure db name).symm.trans hid)
      rw [(Prod.mk.inj hresult).2]
      refine @Effect.removed call db _ name query.ids hurl valid hidle fresh rfl ?_ ?_
      · rw [SyncStore.updateCollection, ensure_bso]
        rfl
      · rw [SyncStore.updateCollection, ensure_userCollections]
        rfl
  · simp only [Except.ok.injEq, Prod.mk.injEq] at h
    obtain ⟨rfl, rfl⟩ := h
    exact hnothing
  · simp only [Except.ok.injEq, Prod.mk.injEq] at h
    obtain ⟨rfl, rfl⟩ := h
    exact hnothing
  · simp at h

/-- `delete_bso` removes one record, or fails. -/
theorem deleteBso_effect {id : String} (hreq : call.request = .deleteBso name id)
    (valid : collectionRe name = true) (fresh : Fresh call db (db.idFor name))
    (h : deleteBso call.store name id (db.ensure name) = .ok (answer, db')) :
    Effect call db db' answer.status := by
  have hidle : call.recordWrites db = [] := by simp [Call.recordWrites, hreq]
  unfold deleteBso at h
  split at h
  · rename_i modified after hdeleted
    simp only [Except.ok.injEq, Prod.mk.injEq] at h
    obtain ⟨rfl, rfl⟩ := h
    obtain ⟨collectionId, row, hid, -, -, hresult⟩ := deleteBso_eq_ok hdeleted
    obtain rfl := Option.some.inj ((idxOf?_ensure db name).symm.trans hid)
    rw [(Prod.mk.inj hresult).2]
    refine @Effect.removed call db _ name [id] (by rw [hreq]; rfl) valid hidle fresh rfl ?_ ?_
    · rw [SyncStore.updateCollection, ensure_bso]
      rfl
    · rw [SyncStore.updateCollection, ensure_userCollections]
      rfl
  · simp at h
  · simp at h
  · simp at h

end Handlers

/-- A handler that leaves the database as it is, answers 200, and leaves `X-Last-Modified` to
the transaction around it. -/
def Reads (handler : Handler) : Prop :=
  ∀ db db' answer, handler db = .ok (answer, db') →
    db' = db ∧ answer.status = 200 ∧ answer.lastModified = none

/-- The timestamps of the collections. -/
theorem infoCollections_reads (self : SyncStore) : Reads (infoCollections self) := by
  intro db db' answer h
  cases h
  exact ⟨rfl, rfl, rfl⟩

/-- Reading a collection is reading. -/
theorem getCollection_reads (p : Platform) (self : SyncStore) (name : String) (query : BsoQuery)
    (full newlines : Bool) : Reads (getCollection p self name query full newlines) := by
  intro db db' answer h
  unfold getCollection at h
  split at h
  · cases h
    exact ⟨rfl, rfl, rfl⟩
  · cases h
    exact ⟨rfl, rfl, rfl⟩
  · cases h

/-- Reading a record is reading. -/
theorem getBso_reads (self : SyncStore) (name id : String) : Reads (getBso self name id) := by
  intro db db' answer h
  unfold getBso at h
  split at h
  · cases h
    exact ⟨rfl, rfl, rfl⟩
  · cases h
  · cases h
  · cases h

/-- The handler of a route has one of the five effects, behind the route's lock. -/
theorem route_effect {p : Platform} {call : Call} {r : Route} {db locked db' : Db} {answer : Response}
    (hroute : route p call = .ok r) (hlocked : Locked call db r.collection locked)
    (h : r.handler locked = .ok (answer, db')) : Effect call db db' answer.status := by
  have hreads : call.recordWrites db = [] → r.collection = none → Reads r.handler →
      Effect call db db' answer.status := by
    intro hidle hnone hreads
    rw [hnone] at hlocked
    rw [(hreads _ _ _ h).1, show locked = db from hlocked]
    exact .keep List.prefix_rfl rfl rfl (Or.inr hidle)
  unfold route at hroute
  cases hreq : call.request with
  | infoCollections =>
    simp only [hreq, Except.ok.injEq] at hroute
    subst hroute
    exact hreads (by simp [Call.recordWrites, hreq]) rfl (infoCollections_reads _)
  | infoCollectionCounts =>
    simp only [hreq, Except.ok.injEq] at hroute
    subst hroute
    exact hreads (by simp [Call.recordWrites, hreq]) rfl fun _ _ _ h => by cases h; exact ⟨rfl, rfl, rfl⟩
  | infoCollectionUsage =>
    simp only [hreq, Except.ok.injEq] at hroute
    subst hroute
    exact hreads (by simp [Call.recordWrites, hreq]) rfl fun _ _ _ h => by cases h; exact ⟨rfl, rfl, rfl⟩
  | infoQuota =>
    simp only [hreq, Except.ok.injEq] at hroute
    subst hroute
    exact hreads (by simp [Call.recordWrites, hreq]) rfl fun _ _ _ h => by cases h; exact ⟨rfl, rfl, rfl⟩
  | deleteAll =>
    simp only [hreq, Except.ok.injEq] at hroute
    subst hroute
    obtain ⟨rfl, rfl⟩ := Prod.mk.inj (Except.ok.inj h)
    obtain rfl : locked = db := hlocked
    exact .wiped hreq rfl rfl rfl
  | getCollection name params newlines =>
    simp only [hreq, bind_eq_ok, Except.ok.injEq] at hroute
    obtain ⟨_, -, query, -, rfl⟩ := hroute
    exact hreads (by simp [Call.recordWrites, hreq]) rfl (getCollection_reads p _ name query _ newlines)
  | getBso name id =>
    simp only [hreq, bind_eq_ok, Except.ok.injEq] at hroute
    obtain ⟨_, -, _, -, rfl⟩ := hroute
    exact hreads (by simp [Call.recordWrites, hreq]) rfl (getBso_reads _ name id)
  | postCollection name params bsos =>
    simp only [hreq, bind_eq_ok, Except.ok.injEq] at hroute
    obtain ⟨_, hvalid, batch, hbatch, rfl⟩ := hroute
    obtain ⟨hfresh, rfl⟩ := hlocked
    exact postCollection_effect hreq hbatch (validateCollection_eq_ok.mp hvalid) hfresh h
  | deleteCollection name params =>
    simp only [hreq, bind_eq_ok, Except.ok.injEq] at hroute
    obtain ⟨_, hvalid, query, -, rfl⟩ := hroute
    obtain ⟨hfresh, rfl⟩ := hlocked
    exact deleteCollection_effect hreq (validateCollection_eq_ok.mp hvalid) hfresh h
  | putBso name id body =>
    simp only [hreq, bind_eq_ok, Except.ok.injEq] at hroute
    obtain ⟨_, hvalid, _, -, rfl⟩ := hroute
    obtain ⟨hfresh, rfl⟩ := hlocked
    exact putBso_effect hreq (validateCollection_eq_ok.mp hvalid) hfresh h
  | deleteBso name id =>
    simp only [hreq, bind_eq_ok, Except.ok.injEq] at hroute
    obtain ⟨_, hvalid, _, -, rfl⟩ := hroute
    obtain ⟨hfresh, rfl⟩ := hlocked
    exact deleteBso_effect hreq (validateCollection_eq_ok.mp hvalid) hfresh h

/-- A request that does not raise has one of the five effects. -/
theorem handle_effect {p : Platform} {call : Call} {db db' : Db} {response : Response}
    (h : handle p call db = .ok (response, db')) : Effect call db db' response.status := by
  obtain ⟨r, hroute, ⟨hpre, rfl⟩ | ⟨locked, answer, -, hlocked, hanswer, rfl⟩⟩ := handle_eq_ok h
  · have hstatus := (precondition_some hpre).1
    exact .keep List.prefix_rfl rfl rfl (Or.inl (by omega))
  · have heffect := route_effect hroute hlocked hanswer
    exact heffect

/-- Every request has one of the five effects; one that raises has none. -/
theorem serve_effect (p : Platform) (db : Db) (call : Call) :
    Effect call db (serve p db call).1 (serve p db call).2.status := by
  unfold serve
  split
  · rename_i response db' h
    have heffect := handle_effect h
    exact heffect
  · rename_i raised h
    exact .keep List.prefix_rfl rfl rfl (Or.inl (errorResponse_status call raised))

/-- The names of a later database start with those of an earlier one. -/
theorem names_of_run (p : Platform) (db : Db) (calls : List Call) :
    db.collections <+: ((server p).run db calls).collections :=
  @Machine.run_of_step _ _ _ (server p) (fun later => db.collections <+: later.collections) (fun _ _ => True)
    (fun later call h _ => h.trans (serve_effect p later call).names) db calls List.prefix_rfl (server p).along_true

end FxaLite.SyncStorage
