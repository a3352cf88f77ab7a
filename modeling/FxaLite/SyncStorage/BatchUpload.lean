import FxaLite.SyncStorage.Batches
import FxaLite.SyncStorage.Resources

/-!
# A batched upload is one POST

From the request that opens a batch to the one that commits it, the items of the batch are the
records appended so far, whatever else goes on. The commit then makes one write for each of
them. Where every record carries a payload or a sortindex, and no id comes twice, those are the
writes a POST of all the records would make, in any order, but for the expiry of a record that
is new and has no ttl.
-/

namespace FxaLite.SyncStorage

open Relational Reactive Fallible

/-! ### While the batch is open -/

/-- A request that appends to one batch of a collection. -/
def Call.appendsTo (call : Call) (uid : ℕ) (name : String) (batchId : ℤ) : Bool :=
  call.uid = uid && call.batchUse.any fun use => use.collection = name && use.batchId = batchId && !use.commit

/-- The records that some requests append to the batch. -/
def appended (uid : ℕ) (name : String) (batchId : ℤ) : List Call → List PostedBso
  | [] => []
  | call :: rest =>
    (if call.appendsTo uid name batchId then (call.batchUse.map BatchUse.records).getD [] else []) ++
      appended uid name batchId rest

/-- A step of an upload: the user does not wipe the storage, each append to the batch is
accepted, and the batch is not committed. -/
def Uploads (p : Platform) (uid : ℕ) (name : String) (batchId : ℤ) (db : Db) (call : Call) : Prop :=
  call.uid = uid → call.request ≠ .deleteAll ∧
    ∀ use, call.batchUse = some use → use.collection = name → use.batchId = batchId →
      if use.commit then 300 ≤ (serve p db call).2.status else (serve p db call).2.status = 202

/-- An open batch of a collection, and the records staged in it. -/
structure Uploading (uid c : ℕ) (name : String) (batchId : ℤ) (records : List PostedBso) (db : Db) : Prop where
  known : db.collections.idxOf? name = some c
  isOpen : db.batches.find? ⟨uid, batchId⟩ = some c
  items : ∀ id, db.batchItems.find? ⟨uid, batchId, id⟩ = (lastPosted id records).map PostedBso.item

/-- Two collections that would be written under one id are the same. -/
theorem eq_of_idFor {db : Db} {name other : String} {c : ℕ} (hknown : db.collections.idxOf? name = some c)
    (hid : db.idFor other = c) : other = name := by
  cases h : db.collections.idxOf? other with
  | some d =>
    rw [(ensure_of_known h).2] at hid
    exact name_eq_of_idxOf? (hid ▸ h) hknown
  | none =>
    rw [(ensure_of_unknown h).2] at hid
    obtain ⟨hlt, -⟩ := List.idxOf?_eq_some_iff.mp hknown
    omega

/-- A request that opens a batch names none. -/
theorem batchUse_of_opens {call : Call} {first : String × List PostedBso} (h : call.opens = some first) :
    call.batchUse = none := by
  unfold Call.opens at h
  unfold Call.batchUse
  cases hreq : call.request with
  | postCollection name params bsos =>
    simp only [hreq] at h ⊢
    split at h
    · rename_i hparse
      rw [hparse]
    · cases h
  | _ => rfl

/-- A request that names a batch is about its collection. -/
theorem ofRequest_of_batchUse {call : Call} {use : BatchUse} (h : call.batchUse = some use) :
    Resource.ofRequest call.request = some (.collection use.collection) := by
  unfold Call.batchUse at h
  cases hreq : call.request with
  | postCollection name params bsos =>
    simp only [hreq] at h
    split at h
    · split at h
      · obtain rfl := Option.some.inj h
        rfl
      · cases h
    · cases h
  | _ => simp [hreq] at h

/-- A step of an upload appends nothing, or it is an append to the batch that stages its records. -/
theorem Uploads.appended {p : Platform} {uid : ℕ} {name : String} {batchId : ℤ} {db : Db} {call : Call}
    (hstep : Uploads p uid name batchId db call) :
    FxaLite.SyncStorage.appended uid name batchId [call] = [] ∨ ∃ use, call.uid = uid ∧ call.batchUse = some use ∧
      use.collection = name ∧ use.batchId = batchId ∧ use.commit = false ∧
      FxaLite.SyncStorage.appended uid name batchId [call] = use.records ∧ (serve p db call).2.status = 202 := by
  by_cases happends : call.appendsTo uid name batchId = true
  · right
    have huses := happends
    simp only [Call.appendsTo, Bool.and_eq_true, decide_eq_true_eq, Option.any_eq_true, Bool.not_eq_eq_eq_not,
      Bool.not_true] at huses
    obtain ⟨huser, use, huse, ⟨hcollection, hid⟩, hcommit⟩ := huses
    have hstatus := (hstep huser).2 use huse hcollection hid
    rw [hcommit] at hstatus
    refine ⟨use, huser, huse, hcollection, hid, hcommit, ?_, by simpa using hstatus⟩
    simp [FxaLite.SyncStorage.appended, happends, huse]
  · left
    simp [FxaLite.SyncStorage.appended, happends]

/-- A step of an upload leaves the batch open, with the records it appends. -/
theorem Uploading.step {p : Platform} {uid c : ℕ} {name : String} {batchId : ℤ} {records : List PostedBso}
    {db : Db} {call : Call} (h : Uploading uid c name batchId records db) (hstep : Uploads p uid name batchId db call) :
    Uploading uid c name batchId (records ++ appended uid name batchId [call]) (serve p db call).1 := by
  have hknown := idxOf?_of_isPrefix (serve_effect p db call).names h.known
  have happended := hstep.appended
  have hkeep (hbatches : (serve p db call).1.batches.find? ⟨uid, batchId⟩ = db.batches.find? ⟨uid, batchId⟩)
      (hitems : ∀ id, (serve p db call).1.batchItems.find? ⟨uid, batchId, id⟩ =
        db.batchItems.find? ⟨uid, batchId, id⟩) (hnone : appended uid name batchId [call] = []) :
      Uploading uid c name batchId (records ++ appended uid name batchId [call]) (serve p db call).1 := by
    rw [hnone, List.append_nil]
    exact ⟨hknown, hbatches.trans h.isOpen, fun id => (hitems id).trans (h.items id)⟩
  have hbatch := serve_batches p db call
  generalize (serve p db call).1 = db' at hbatch hkeep hknown ⊢
  generalize hanswer : (serve p db call).2 = answer at hbatch happended
  cases hbatch with
  | keep batches items idle =>
    apply hkeep (by rw [batches]) fun _ => by rw [items]
    obtain hnone | ⟨use, -, huse, -, -, -, -, hstatus⟩ := happended
    · exact hnone
    · obtain hrefused | ⟨hnone, -⟩ := idle
      · omega
      · rw [huse] at hnone
        cases hnone
  | @opened other first batchId' success failed request free low high fresh names batches items body accepted =>
    have hother : ¬(uid = call.uid ∧ batchId = (batchId' : ℤ)) := by
      rintro ⟨rfl, rfl⟩
      rw [h.isOpen] at free
      cases free
    apply hkeep
    · rw [batches, Table.find?_set, if_neg]
      simpa using hother
    · intro id
      rw [items, find?_stagedAll_of_ne (not_and_or.mp hother)]
    · obtain hnone | ⟨use, -, huse, -⟩ := happended
      · exact hnone
      · rw [batchUse_of_opens request] at huse
        cases huse
  | @staged use request append isOpen batches items accepted =>
    by_cases hkey : uid = call.uid ∧ batchId = use.batchId
    · obtain ⟨rfl, rfl⟩ := hkey
      have hcollection : use.collection = name :=
        eq_of_idFor h.known (Option.some.inj (isOpen.symm.trans h.isOpen))
      have hrecords : appended call.uid name use.batchId [call] = use.records := by
        simp [appended, Call.appendsTo, request, hcollection, append]
      refine ⟨hknown, by rw [batches, h.isOpen], fun id => ?_⟩
      rw [items, find?_stagedAll, h.items, hrecords, lastPosted_append]
      cases lastPosted id use.records <;> rfl
    · apply hkeep (by rw [batches])
      · intro id
        rw [items, find?_stagedAll_of_ne (not_and_or.mp hkey)]
      · obtain hnone | ⟨use', huser, huse, -, hid, -⟩ := happended
        · exact hnone
        · obtain rfl := Option.some.inj (request.symm.trans huse)
          exact absurd ⟨huser.symm, hid.symm⟩ hkey
  | @committed use request commit isOpen fresh after ok =>
    by_cases hkey : uid = call.uid ∧ batchId = use.batchId
    · obtain ⟨rfl, rfl⟩ := hkey
      have hcollection : use.collection = name :=
        eq_of_idFor h.known (Option.some.inj (isOpen.symm.trans h.isOpen))
      have hrefused := (hstep rfl).2 use request hcollection rfl
      rw [commit, if_pos rfl, hanswer, ok] at hrefused
      omega
    · apply hkeep
      · rw [after, SyncStore.deleteBatch, Db.written]
        simp only [ensure_batches]
        exact Table.find?_deleteWhere_of_false fun _ _ => by simpa [Call.store] using hkey
      · intro id
        rw [after, SyncStore.deleteBatch, Db.written]
        simp only [ensure_batchItems]
        refine Table.find?_deleteWhere_of_false fun _ _ => ?_
        rw [Bool.and_eq_false_iff, decide_eq_false_iff_not, decide_eq_false_iff_not]
        exact not_and_or.mp hkey
      · obtain hnone | ⟨use', -, huse, -, -, hcommit, -⟩ := happended
        · exact hnone
        · obtain rfl := Option.some.inj (request.symm.trans huse)
          rw [commit] at hcommit
          cases hcommit
  | wiped request batches items =>
    have hother : uid ≠ call.uid := fun huser => (hstep huser.symm).1 request
    apply hkeep
    · rw [batches]
      exact Table.find?_deleteWhere_of_false fun _ _ => by simpa using hother
    · intro id
      rw [items]
      exact Table.find?_deleteWhere_of_false fun _ _ => by simpa using hother
    · obtain hnone | ⟨use, huser, -⟩ := happended
      · exact hnone
      · exact absurd huser.symm hother

/-- The run lemma: at the end of the upload the items are the records appended in it. -/
theorem Uploading.run {p : Platform} {uid c : ℕ} {name : String} {batchId : ℤ} {records : List PostedBso}
    {db : Db} {calls : List Call} (h : Uploading uid c name batchId records db)
    (hsteps : (server p).Along (Uploads p uid name batchId) db calls) :
    Uploading uid c name batchId (records ++ appended uid name batchId calls) ((server p).run db calls) := by
  induction calls generalizing db records with
  | nil => simpa [appended] using h
  | cons call rest ih =>
    have hrest := ih (h.step hsteps.1) hsteps.2
    have hsplit : appended uid name batchId (call :: rest) =
        appended uid name batchId [call] ++ appended uid name batchId rest := by
      simp [appended]
    rw [hsplit, ← List.append_assoc]
    exact hrest

/-- What is staged does not touch the records of the database. -/
theorem bso_of_accepted {p : Platform} {db : Db} {call : Call} (h : (serve p db call).2.status = 202) :
    (serve p db call).1.bso = db.bso := by
  have heffect := serve_effect p db call
  rw [h] at heffect
  generalize (serve p db call).1 = db' at heffect ⊢
  generalize hstatus : 202 = status at heffect
  cases heffect with
  | keep names bso stamps idle => exact bso
  | wrote => cases hstatus
  | removed => cases hstatus
  | dropped => cases hstatus
  | wiped => cases hstatus

/-- So no step of the upload does. -/
theorem appends_keep_records {p : Platform} {uid : ℕ} {name : String} {batchId : ℤ} {db : Db} {calls : List Call}
    (hsteps : (server p).Along (Uploads p uid name batchId) db calls) :
    (server p).Along (fun db call => call.appendsTo uid name batchId = true → (serve p db call).1.bso = db.bso)
      db calls := by
  refine hsteps.imp fun db call hstep happends => ?_
  simp only [Call.appendsTo, Bool.and_eq_true, decide_eq_true_eq, Option.any_eq_true, Bool.not_eq_eq_eq_not,
    Bool.not_true] at happends
  obtain ⟨huser, use, huse, ⟨hcollection, hid⟩, hcommit⟩ := happends
  have hstatus := (hstep huser).2 use huse hcollection hid
  rw [hcommit] at hstatus
  exact bso_of_accepted (by simpa using hstatus)

/-- A batch that has just been opened holds the records it was opened with. -/
theorem uploading_of_opens {p : Platform} {db : Db} {call : Call} {name : String} {first : List PostedBso}
    {batchId : ℕ} {success : List String} {failed : List (String × String)} (hitems : db.ItemsOpen)
    (hopens : call.opens = some (name, first)) (hstatus : (serve p db call).2.status = 202)
    (hbody : (serve p db call).2.body = .staged (encodeBatchId batchId) success failed) :
    Uploading call.uid (db.idFor name) name batchId first (serve p db call).1 ∧ batchId < call.now + maxBatchCreateRetry := by
  have hbatch := serve_batches p db call
  generalize (serve p db call).1 = db' at hbatch ⊢
  generalize (serve p db call).2 = answer at hbatch hstatus hbody
  cases hbatch with
  | keep batches items idle =>
    obtain hrefused | ⟨-, hnone⟩ := idle
    · omega
    · rw [hopens] at hnone
      cases hnone
  | @opened other records batchId' success' failed' request free low high fresh names batches items body accepted =>
    obtain ⟨rfl, rfl⟩ := Prod.mk.inj (Option.some.inj (request.symm.trans hopens))
    rw [body, Body.staged.injEq] at hbody
    obtain rfl := encodeBatchId_inj hbody.1
    refine ⟨⟨?_, ?_, fun id => ?_⟩, high⟩
    · rw [names]
      exact idxOf?_ensure db other
    · rw [batches, Table.find?_set, if_pos rfl]
    · have hnone : db.batchItems.find? ⟨call.uid, batchId', id⟩ = none := by
        cases hfind : db.batchItems.find? ⟨call.uid, batchId', id⟩ with
        | none => rfl
        | some item =>
          have hopen := hitems _ _ _ _ hfind
          rw [free] at hopen
          cases hopen
      rw [items, find?_stagedAll, hnone, Option.or_none]
  | staged request append isOpen batches items accepted =>
    rw [batchUse_of_opens hopens] at request
    cases request
  | committed request commit isOpen fresh after ok =>
    rw [batchUse_of_opens hopens] at request
    cases request
  | wiped request batches items =>
    simp [Call.opens, request] at hopens

/-! ### The commit -/

/-- The staged write of a record that carries a payload or a sortindex is the direct one, in front
of any others, where the record is there already. -/
theorem applied_commit {self : SyncStore} {bso : PostedBso} {us : List RecordWrite} (row : BsoRow)
    (hfields : bso.payload.isSome ∨ bso.sortindex.isSome) :
    RecordWrite.applied self (.commit bso.id bso.item :: us) row = RecordWrite.applied self (.put bso :: us) row := by
  have hstamps : (RecordWrite.put bso).stamps = true := Bool.or_eq_true_iff.mpr hfields
  simp only [RecordWrite.applied, List.any_cons, hstamps]
  rfl

/-- Where it is not, they differ in nothing but the expiry, and in that only without a ttl. -/
theorem fold_commit {self : SyncStore} {id : String} {bso : PostedBso} {us ws ws' : List RecordWrite}
    (hfields : bso.payload.isSome ∨ bso.sortindex.isSome)
    (hws : ws.filter (·.id = id) = .commit bso.id bso.item :: us) (hws' : ws'.filter (·.id = id) = .put bso :: us)
    (old : Option BsoRow) :
    (RecordWrite.fold self id ws old).map BsoRow.content = (RecordWrite.fold self id ws' old).map BsoRow.content ∧
      (bso.ttl.isSome ∨ old.isSome → RecordWrite.fold self id ws old = RecordWrite.fold self id ws' old) := by
  cases old with
  | some row =>
    rw [RecordWrite.fold_some, RecordWrite.fold_some, hws, hws', applied_commit row hfields]
    exact ⟨rfl, fun _ => rfl⟩
  | none =>
    rw [RecordWrite.fold_none hws, RecordWrite.fold_none hws', applied_commit _ hfields]
    refine ⟨by simp only [Option.map_some, BsoRow.content, RecordWrite.applied, RecordWrite.blank], fun httl => ?_⟩
    have hsent : (RecordWrite.lastSent RecordWrite.ttl (.put bso :: us)).isSome := by
      obtain httl | hnone := httl
      · change ((RecordWrite.lastSent RecordWrite.ttl us).or bso.ttl).isSome
        rw [Option.isSome_or, httl, Bool.or_true]
      · cases hnone
    obtain ⟨ttl, hlast⟩ := Option.isSome_iff_exists.mp hsent
    simp only [RecordWrite.applied, hlast, Option.elim_some]
    rfl

/-- The writes of the staged items that concern one record. -/
theorem filter_staged (self : SyncStore) (db : Db) (batchId : ℤ) (id : String) :
    ((SyncStore.stagedItems self db batchId).map fun item => RecordWrite.commit item.1.id item.2).filter (·.id = id) =
      ((db.batchItems.find? ⟨self.uid, batchId, id⟩).map (RecordWrite.commit id)).toList := by
  have hselect : (SyncStore.stagedItems self db batchId).filter (fun item => item.1.id = id) =
      ((db.batchItems.find? ⟨self.uid, batchId, id⟩).map fun item => (⟨self.uid, batchId, id⟩, item)).toList := by
    rw [← Table.select_key]
    unfold SyncStore.stagedItems Table.select
    rw [List.filter_filter]
    apply List.filter_congr
    intro item _
    obtain ⟨⟨uid, batchId', id'⟩, item⟩ := item
    simp only [BatchItemKey.mk.injEq, Bool.decide_and]
    rw [Bool.and_comm, Bool.and_assoc]
  rw [List.filter_map]
  change ((SyncStore.stagedItems self db batchId).filter fun item => item.1.id = id).map _ = _
  rw [hselect]
  cases db.batchItems.find? ⟨self.uid, batchId, id⟩ <;> rfl

/-- In a list without duplicate ids, the first record of an id is the only one. -/
theorem filter_posted {records : List PostedBso} (hnodup : (records.map PostedBso.id).Nodup) (id : String) :
    (records.map RecordWrite.put).filter (·.id = id) = ((records.find? (·.id = id)).map RecordWrite.put).toList := by
  induction records with
  | nil => rfl
  | cons bso rest ih =>
    rw [List.map_cons, List.nodup_cons] at hnodup
    rw [List.map_cons]
    by_cases hid : bso.id = id
    · have hrest : (rest.map RecordWrite.put).filter (·.id = id) = [] := by
        rw [List.filter_eq_nil_iff]
        intro w hw
        obtain ⟨other, hother, rfl⟩ := List.mem_map.mp hw
        have hne : other.id ≠ bso.id := fun heq => hnodup.1 (heq ▸ List.mem_map_of_mem hother)
        simpa [RecordWrite.id, ← hid] using hne
      rw [List.filter_cons_of_pos (by simp [RecordWrite.id, hid]), hrest,
        List.find?_cons_of_pos (by simp [hid])]
      rfl
    · rw [List.filter_cons_of_neg (by simp [RecordWrite.id, hid]), ih hnodup.2,
        List.find?_cons_of_neg (by simp [hid])]

/-- And it is the last one of any reordering. -/
theorem lastPosted_of_perm {records posted : List PostedBso} (hnodup : (records.map PostedBso.id).Nodup)
    (hperm : records.Perm posted) (id : String) : lastPosted id posted = records.find? (·.id = id) := by
  have hmem (bso : PostedBso) : bso ∈ posted.reverse ↔ bso ∈ records :=
    List.mem_reverse.trans hperm.mem_iff.symm
  unfold lastPosted
  cases hfind : records.find? (·.id = id) with
  | none =>
    rw [List.find?_eq_none] at hfind ⊢
    exact fun bso hbso => hfind bso ((hmem bso).mp hbso)
  | some bso =>
    have hid : bso.id = id := by simpa using List.find?_some hfind
    cases hlast : posted.reverse.find? (·.id = id) with
    | none =>
      rw [List.find?_eq_none] at hlast
      exact absurd hid (by simpa using hlast bso ((hmem bso).mpr (List.mem_of_find?_eq_some hfind)))
    | some other =>
      have hother : other.id = id := by simpa using List.find?_some hlast
      have hsame := List.inj_on_of_nodup_map hnodup ((hmem other).mp (List.mem_of_find?_eq_some hlast))
        (List.mem_of_find?_eq_some hfind) (hother.trans hid.symm)
      rw [hsame]

/-- The writes of a commit. -/
theorem recordWrites_of_commit {call : Call} {name : String} {batchId : ℤ} {last : List PostedBso}
    (h : call.batchUse = some ⟨name, batchId, true, last⟩) (db : Db) :
    call.recordWrites db =
      ((SyncStore.stagedItems call.store db batchId).map fun item => .commit item.1.id item.2) ++ last.map .put := by
  unfold Call.batchUse at h
  unfold Call.recordWrites
  cases hreq : call.request with
  | postCollection other params bsos =>
    simp only [hreq] at h ⊢
    split at h
    · rename_i text commit hparse
      split at h
      · rename_i n hdecode
        simp only [Option.some.injEq, BatchUse.mk.injEq] at h
        obtain ⟨-, rfl, rfl, rfl⟩ := h
        simp only [hparse, hdecode]
      · cases h
    · cases h
  | _ => simp [hreq] at h

section Commit

variable {p : Platform} {c : ℕ} {name : String} {batchId : ℤ} {posted records last : List PostedBso} {db : Db}
  {call : Call}

/-- What a commit does that is carried out. -/
theorem Uploading.committed (h : Uploading call.uid c name batchId posted db)
    (hrequest : call.batchUse = some ⟨name, batchId, true, last⟩) (hok : (serve p db call).2.status = 200) :
    Fresh call db c ∧ (serve p db call).1 =
      SyncStore.deleteBatch call.store (db.written call.store c (call.recordWrites db)) batchId := by
  obtain ⟨hensure, hid⟩ := ensure_of_known h.known
  have hbatch := serve_batches p db call
  generalize (serve p db call).1 = db' at hbatch ⊢
  generalize (serve p db call).2 = answer at hbatch hok
  cases hbatch with
  | keep batches items idle =>
    obtain hrefused | ⟨hnone, -⟩ := idle
    · omega
    · rw [hrequest] at hnone
      cases hnone
  | opened request free low high fresh names batches items body accepted => omega
  | staged request append isOpen batches items accepted => omega
  | committed request commit isOpen fresh after ok =>
    obtain rfl := Option.some.inj (request.symm.trans hrequest)
    rw [hid] at fresh
    rw [hensure, hid] at after
    exact ⟨fresh, after⟩
  | wiped request batches items => simp [Call.batchUse, request] at hrequest

/-- The commit leaves the records that a POST of everything appended would leave, and then a
POST of what the commit itself carries. -/
theorem Uploading.commit_is_post (h : Uploading call.uid c name batchId posted db)
    (hrequest : call.batchUse = some ⟨name, batchId, true, last⟩) (hok : (serve p db call).2.status = 200)
    (hperm : records.Perm posted) (hnodup : (records.map PostedBso.id).Nodup)
    (hfields : ∀ bso ∈ records, bso.payload.isSome ∨ bso.sortindex.isSome) :
    ∃ direct further,
      SyncStore.postBsos call.store db name records false = .ok (call.now, direct) ∧
      SyncStore.postBsos call.store direct name last true = .ok (call.now, further) ∧
      ∀ id, ((serve p db call).1.record call.uid name id).map BsoRow.content =
          (further.record call.uid name id).map BsoRow.content ∧
        ((∀ bso ∈ records, bso.id = id → bso.ttl.isSome ∨ (db.record call.uid name id).isSome) →
          (serve p db call).1.record call.uid name id = further.record call.uid name id) := by
  obtain ⟨hensure, hid⟩ := ensure_of_known h.known
  obtain ⟨hfresh, hdone⟩ := h.committed hrequest hok
  have hdirect := postBsos_of_fresh (hid ▸ hfresh : Fresh call db (db.idFor name)) records
  rw [hensure, hid] at hdirect
  have hknown : (db.written call.store c (records.map .put)).collections.idxOf? name = some c := h.known
  obtain ⟨hensure', hid'⟩ := ensure_of_known hknown
  have hfurther := postBsos_stamped call.store (db.written call.store c (records.map .put)) name last
  rw [hensure', hid', written_written] at hfurther
  refine ⟨_, _, hdirect, hfurther, fun id => ?_⟩
  have hrecord (ws : List RecordWrite) : (db.written call.store c ws).record call.uid name id =
      RecordWrite.fold call.store id ws (db.bso.find? ⟨call.uid, c, id⟩) := by
    unfold Db.record
    rw [show (db.written call.store c ws).collections = db.collections from rfl, h.known, Option.bind_some]
    exact find?_writes db.bso call.store c ws id
  have hbefore : db.record call.uid name id = db.bso.find? ⟨call.uid, c, id⟩ := by
    unfold Db.record
    rw [h.known, Option.bind_some]
  have hafter : (serve p db call).1.record call.uid name id =
      (db.written call.store c (call.recordWrites db)).record call.uid name id := by
    rw [hdone]
    rfl
  rw [hafter, hrecord, hrecord, hbefore, recordWrites_of_commit hrequest]
  -- the writes of one record: from the batch at most one, then those of the commit itself
  have hstaged := filter_staged call.store db batchId id
  have hitem : db.batchItems.find? ⟨call.store.uid, batchId, id⟩ =
      (records.find? (·.id = id)).map PostedBso.item := by
    rw [← lastPosted_of_perm hnodup hperm]
    exact h.items id
  rw [hitem] at hstaged
  cases hfind : records.find? (·.id = id) with
  | none =>
    have hsame : RecordWrite.fold call.store id
        (((SyncStore.stagedItems call.store db batchId).map fun item => .commit item.1.id item.2) ++
          last.map .put) (db.bso.find? ⟨call.uid, c, id⟩) =
        RecordWrite.fold call.store id (records.map .put ++ last.map .put) (db.bso.find? ⟨call.uid, c, id⟩) := by
      rw [hfind] at hstaged
      unfold RecordWrite.fold
      rw [List.filter_append, List.filter_append, hstaged, filter_posted hnodup, hfind]
      rfl
    rw [hsame]
    exact ⟨rfl, fun _ => rfl⟩
  | some bso =>
    have hbso : bso.id = id := by simpa using List.find?_some hfind
    have hmem : bso ∈ records := List.mem_of_find?_eq_some hfind
    have hfold := @fold_commit call.store id bso ((last.map RecordWrite.put).filter (·.id = id))
      (((SyncStore.stagedItems call.store db batchId).map fun item => .commit item.1.id item.2) ++ last.map .put)
      (records.map .put ++ last.map .put) (hfields bso hmem)
      (by rw [List.filter_append, hstaged, hfind, hbso]; rfl)
      (by rw [List.filter_append, filter_posted hnodup, hfind]; rfl)
      (db.bso.find? ⟨call.uid, c, id⟩)
    exact ⟨hfold.1, fun hexpiry => hfold.2 (hexpiry bso hmem hbso)⟩

/-- It touches no record of another collection or user, and no item or batch but its own. -/
theorem Uploading.commit_frame (h : Uploading call.uid c name batchId posted db)
    (hrequest : call.batchUse = some ⟨name, batchId, true, last⟩) (hok : (serve p db call).2.status = 200) :
    (∀ key : BsoKey, key.uid ≠ call.uid ∨ key.collectionId ≠ c →
      (serve p db call).1.bso.find? key = db.bso.find? key) ∧
    (∀ key : BatchItemKey, key.uid ≠ call.uid ∨ key.batchId ≠ batchId →
      (serve p db call).1.batchItems.find? key = db.batchItems.find? key) ∧
    (∀ key : BatchKey, key ≠ ⟨call.uid, batchId⟩ → (serve p db call).1.batches.find? key = db.batches.find? key) ∧
    (serve p db call).1.batches.find? ⟨call.uid, batchId⟩ = none ∧
    (serve p db call).1.stamp call.uid name = some call.now := by
  obtain ⟨-, hdone⟩ := h.committed hrequest hok
  rw [hdone]
  refine ⟨fun key hkey => ?_, fun key hkey => ?_, fun key hkey => ?_, ?_, ?_⟩
  · exact find?_writes_of_ne hkey
  · refine Table.find?_deleteWhere_of_false fun _ _ => ?_
    rw [Bool.and_eq_false_iff, decide_eq_false_iff_not, decide_eq_false_iff_not]
    exact hkey
  · exact Table.find?_deleteWhere_of_false fun _ _ => decide_eq_false hkey
  · exact Table.find?_deleteWhere_of_true fun _ _ => decide_eq_true rfl
  · unfold Db.stamp
    rw [show (SyncStore.deleteBatch call.store (db.written call.store c (call.recordWrites db)) batchId).collections =
      db.collections from rfl, h.known, Option.bind_some]
    exact (find?_set_stamp _ _ _ _ _ _).trans (if_pos ⟨rfl, rfl⟩)

end Commit

/-! ### After the commit -/

/-- A batch id that is not one of the collection's stays so, once the collection's timestamp is
within four milliseconds of it: new ids are instants of writes that are past the timestamp. -/
theorem shut_step {p : Platform} {db : Db} {call : Call} {t uid c committed batchId : ℕ} {name : String}
    (hshut : db.batches.find? ⟨uid, batchId⟩ ≠ some c) (hknown : db.collections.idxOf? name = some c)
    (hpassed : Passed committed t (db.stamp uid name)) (ht : t ≤ call.now) (hmod : committed % 10 = 0)
    (hid : batchId < committed + maxBatchCreateRetry) :
    (serve p db call).1.batches.find? ⟨uid, batchId⟩ ≠ some c := by
  have hbatch := serve_batches p db call
  generalize (serve p db call).1 = db' at hbatch ⊢
  cases hbatch with
  | keep batches items idle => rwa [batches]
  | @opened other first batchId' success failed request free low high fresh names batches items body accepted =>
    rw [batches, Table.find?_set]
    split
    · rename_i hkey
      obtain ⟨rfl, hsame⟩ := BatchKey.mk.inj hkey
      intro hvalue
      rw [Option.some.inj hvalue] at fresh
      have hstamp : db.stamp call.uid name = db.userCollections.find? ⟨call.uid, c⟩ := by
        unfold Db.stamp
        rw [hknown, Option.bind_some]
      have hlt := hpassed.lt_now ht fun s hs => fresh s (hstamp ▸ hs)
      have hnow := quantize_mod call.nowMs
      have hlow : quantize call.nowMs ≤ batchId' := low
      have hlt' : committed < quantize call.nowMs := hlt
      have hretry : maxBatchCreateRetry = 5 := rfl
      omega
    · exact hshut
  | staged request append isOpen batches items accepted => rwa [batches]
  | committed request commit isOpen fresh after ok =>
    intro hfind
    rw [after, SyncStore.deleteBatch, Db.written] at hfind
    simp only [ensure_batches, Table.find?_deleteWhere, Option.filter_eq_some_iff] at hfind
    exact hshut hfind.1
  | wiped request batches items =>
    intro hfind
    rw [batches, Table.find?_deleteWhere, Option.filter_eq_some_iff] at hfind
    exact hshut hfind.1

/-- It stays so for a whole run. -/
theorem shut_run {p : Platform} {db : Db} {calls : List Call} {t uid c committed batchId : ℕ} {name : String}
    (hshut : db.batches.find? ⟨uid, batchId⟩ ≠ some c) (hknown : db.collections.idxOf? name = some c)
    (inv : db.Inv t) (valid : collectionRe name = true) (hpassed : Passed committed t (db.stamp uid name))
    (hmod : committed % 10 = 0) (hid : batchId < committed + maxBatchCreateRetry)
    (htimed : Timed Call.now t calls) (hwipe : ∀ call ∈ calls, call.uid = uid → call.request ≠ .deleteAll) :
    ((server p).run db calls).collections.idxOf? name = some c ∧
      ((server p).run db calls).batches.find? ⟨uid, batchId⟩ ≠ some c := by
  induction calls generalizing db t with
  | nil => exact ⟨hknown, hshut⟩
  | cons call rest ih =>
    have heffect := serve_effect p db call
    exact ih (shut_step hshut hknown hpassed htimed.1 hmod hid) (idxOf?_of_isPrefix heffect.names hknown)
      (heffect.inv inv htimed.1)
      (hpassed.step inv htimed.1 valid fun huser hreq => absurd hreq (hwipe call (by simp) huser))
      htimed.2 fun other hother => hwipe other (by simp [hother])

/-- A batch id that is not one of the collection's is refused. -/
theorem refused_of_shut {p : Platform} {db : Db} {call : Call} {c : ℕ} {name : String} {batchId : ℤ}
    {use : BatchUse} (hshut : db.batches.find? ⟨call.uid, batchId⟩ ≠ some c)
    (hknown : db.collections.idxOf? name = some c) (huse : call.batchUse = some use)
    (hcollection : use.collection = name) (hid : use.batchId = batchId) : 300 ≤ (serve p db call).2.status := by
  have hidFor : db.idFor use.collection = c := by
    rw [hcollection]
    exact (ensure_of_known hknown).2
  have hbatch := serve_batches p db call
  generalize (serve p db call).1 = db' at hbatch
  generalize (serve p db call).2 = answer at hbatch ⊢
  cases hbatch with
  | keep batches items idle =>
    obtain hrefused | ⟨hnone, -⟩ := idle
    · exact hrefused
    · rw [huse] at hnone
      cases hnone
  | opened request free low high fresh names batches items body accepted =>
    rw [batchUse_of_opens request] at huse
    cases huse
  | staged request append isOpen batches items accepted =>
    obtain rfl := Option.some.inj (request.symm.trans huse)
    rw [hidFor, hid] at isOpen
    exact absurd isOpen hshut
  | committed request commit isOpen fresh after ok =>
    obtain rfl := Option.some.inj (request.symm.trans huse)
    rw [hidFor, hid] at isOpen
    exact absurd isOpen hshut
  | wiped request batches items => simp [Call.batchUse, request] at huse

/-- A batched upload equals one POST. A batch is opened, records are appended to it, each append
accepted, while any other requests go on but a wipe; then it is committed. Until then no append
changes a record; the commit leaves what a POST of all the records at its instant would have left,
in whatever order, and then a POST of its own records; nothing else changes; and from then on
the id is refused for the collection. -/
theorem batch_upload_is_post (p : Platform) {before between after : List Call} {opening commit : Call}
    {name : String} {first last records : List PostedBso} {batchId : ℕ} {success : List String}
    {failed : List (String × String)}
    (htimed : Timed Call.now 0 (before ++ opening :: (between ++ commit :: after)))
    (hopens : opening.opens = some (name, first))
    (hopened : (serve p ((server p).run Db.fresh before) opening).2.status = 202)
    (hanswer : (serve p ((server p).run Db.fresh before) opening).2.body =
      .staged (encodeBatchId batchId) success failed)
    (hsteps : (server p).Along (Uploads p opening.uid name batchId)
      ((server p).run Db.fresh (before ++ [opening])) between)
    (huser : commit.uid = opening.uid) (hcommit : commit.batchUse = some ⟨name, batchId, true, last⟩)
    (hok : (serve p ((server p).run Db.fresh (before ++ opening :: between)) commit).2.status = 200)
    (hperm : records.Perm (first ++ appended opening.uid name batchId between))
    (hnodup : (records.map PostedBso.id).Nodup)
    (hfields : ∀ bso ∈ records, bso.payload.isSome ∨ bso.sortindex.isSome)
    (hwipe : ∀ call ∈ after, call.uid = opening.uid → call.request ≠ .deleteAll) :
    let uid := opening.uid
    let full := (server p).run Db.fresh (before ++ opening :: between)
    let done := (serve p full commit).1
    (serve p ((server p).run Db.fresh before) opening).1.bso = ((server p).run Db.fresh before).bso ∧
    (server p).Along (fun db call => call.appendsTo uid name batchId = true → (serve p db call).1.bso = db.bso)
      ((server p).run Db.fresh (before ++ [opening])) between ∧
    (∃ direct further,
      SyncStore.postBsos ⟨uid, commit.now⟩ full name records false = .ok (commit.now, direct) ∧
      SyncStore.postBsos ⟨uid, commit.now⟩ direct name last true = .ok (commit.now, further) ∧
      ∀ id, (done.record uid name id).map BsoRow.content = (further.record uid name id).map BsoRow.content ∧
        ((∀ bso ∈ records, bso.id = id → bso.ttl.isSome ∨ (full.record uid name id).isSome) →
          done.record uid name id = further.record uid name id)) ∧
    (∃ c, full.collections.idxOf? name = some c ∧ ∀ key : BsoKey, key.uid ≠ uid ∨ key.collectionId ≠ c →
      done.bso.find? key = full.bso.find? key) ∧
    (∀ key : BatchItemKey, key.uid ≠ uid ∨ key.batchId ≠ batchId →
      done.batchItems.find? key = full.batchItems.find? key) ∧
    ∀ call use, call.uid = uid → call.batchUse = some use → use.collection = name → use.batchId = (batchId : ℤ) →
      300 ≤ (serve p ((server p).run done after) call).2.status := by
  intro uid full done
  obtain ⟨hbefore, hopening, hrest⟩ := timed_append.mp htimed
  obtain ⟨hbetween, hcommitting, hafter⟩ := timed_append.mp hrest
  have hfresh : Db.fresh.ItemsOpen := fun _ _ _ _ h => by simp [Db.fresh] at h
  have hitems := itemsOpen_of_run p before hfresh
  obtain ⟨huploading, hid⟩ := uploading_of_opens hitems hopens hopened hanswer
  have hstart : (server p).run Db.fresh (before ++ [opening]) =
      (serve p ((server p).run Db.fresh before) opening).1 := by
    rw [Machine.run_append]
    rfl
  rw [hstart] at hsteps ⊢
  have hfull : full = (server p).run (serve p ((server p).run Db.fresh before) opening).1 between := by
    change (server p).run Db.fresh (before ++ opening :: between) = _
    rw [Machine.run_append]
    rfl
  have huploaded := huploading.run hsteps
  rw [← hfull, ← huser] at huploaded
  have hposted := huploaded.commit_is_post hcommit hok (huser ▸ hperm) hnodup hfields
  obtain ⟨hrecords, hother, -, hgone, hstamp⟩ := huploaded.commit_frame hcommit hok
  have inv : full.Inv (lastTime Call.now opening.now between) := by
    rw [hfull]
    exact (server p).run_invariant (P := fun t db => db.Inv t)
      (fun _ _ call inv ht _ => (serve_effect p _ call).inv inv ht)
      ((serve_effect p _ opening).inv (inv_of_run p hbefore) hopening) hbetween (server p).along_true
  have hdone := (serve_effect p full commit).inv inv hcommitting
  rw [huser] at hposted hrecords hother hgone hstamp
  refine ⟨bso_of_accepted hopened, appends_keep_records hsteps, ?_, ⟨_, huploaded.known, hrecords⟩, hother, ?_⟩
  · have hstore : commit.store = ⟨uid, commit.now⟩ := by rw [Call.store, huser]
    rw [← hstore]
    exact hposted
  · intro call use hcall huse hcollection hbatch
    obtain ⟨rt, locked, answer, hroute, -⟩ := serve_success (by rw [hok]; decide)
    have hvalid : collectionRe name = true :=
      (Resource.route_resource (ofRequest_of_batchUse hcommit) hroute full).1
    have hlate : batchId < commit.now + maxBatchCreateRetry :=
      Nat.lt_of_lt_of_le hid (Nat.add_le_add_right (Nat.le_trans (le_lastTime hbetween) hcommitting) _)
    obtain ⟨hknown, hshut⟩ := @shut_run p _ after _ _ _ commit.now _ _
      (by rw [hgone]; simp) (idxOf?_of_isPrefix (serve_effect p full commit).names huploaded.known) hdone hvalid
      (by rw [hstamp]; exact le_rfl) (quantize_mod commit.nowMs) hlate hafter hwipe
    exact refused_of_shut (hcall ▸ hshut) hknown huse hcollection hbatch

/-- A batch of two records, with a PUT to the same collection while it is open. -/
def uploadCalls : List Call :=
  [⟨1, 10, none, none, .postCollection "tabs" (.of [("batch", "true")]) ⟨[{ id := "a", payload := some "x" }], []⟩⟩,
    ⟨1, 20, none, none, .putBso "tabs" "b" { id := "b", payload := some "y", sortindex := some 3 }⟩,
    ⟨1, 30, none, none, .postCollection "tabs" (.of [("batch", "MTA=")]) ⟨[{ id := "b", payload := some "z" }], []⟩⟩,
    ⟨1, 40, none, none, .postCollection "tabs" (.of [("batch", "MTA="), ("commit", "true")]) ⟨[], []⟩⟩]

/-- Committed at 40 ms, the two records are what a POST of both, in the other order, leaves. -/
theorem batch_upload_tabs :
    let full := (server (.knowing [])).run Db.fresh (uploadCalls.take 3)
    let done := (serve (.knowing []) full uploadCalls[3]).1
    ∃ direct further,
      SyncStore.postBsos ⟨1, 40⟩ full "tabs" [{ id := "b", payload := some "z" }, { id := "a", payload := some "x" }]
        false = .ok (40, direct) ∧
      SyncStore.postBsos ⟨1, 40⟩ direct "tabs" [] true = .ok (40, further) ∧
      ∀ id, (done.record 1 "tabs" id).map BsoRow.content = (further.record 1 "tabs" id).map BsoRow.content := by
  intro full done
  have hput : Uploads (.knowing []) 1 "tabs" 10 ((server (.knowing [])).run Db.fresh (uploadCalls.take 1))
      uploadCalls[1] := fun _ => ⟨(nomatch ·), fun use huse => (nomatch huse)⟩
  have happend : Uploads (.knowing []) 1 "tabs" 10 ((server (.knowing [])).run Db.fresh (uploadCalls.take 2))
      uploadCalls[2] := by
    refine fun _ => ⟨(nomatch ·), fun use huse _ _ => ?_⟩
    have hnames : uploadCalls[2].batchUse = some ⟨"tabs", 10, false, [{ id := "b", payload := some "z" }]⟩ := by
      decide +kernel
    obtain rfl := Option.some.inj (hnames.symm.trans huse)
    decide +kernel
  have hupload := @batch_upload_is_post (.knowing []) [] [uploadCalls[1], uploadCalls[2]] [] uploadCalls[0]
    uploadCalls[3] "tabs" [{ id := "a", payload := some "x" }] []
    [{ id := "b", payload := some "z" }, { id := "a", payload := some "x" }] 10 ["a"] [] (by decide)
    (by decide +kernel) (by decide +kernel) (by decide +kernel) ⟨hput, happend, trivial⟩ rfl (by decide +kernel)
    (by decide +kernel) (by decide +kernel) (by decide) (by decide) (fun _ h => (nomatch h))
  obtain ⟨-, -, ⟨direct, further, hdirect, hfurther, hrecords⟩, -⟩ := hupload
  exact ⟨direct, further, hdirect, hfurther, fun id => (hrecords id).1⟩

end FxaLite.SyncStorage
