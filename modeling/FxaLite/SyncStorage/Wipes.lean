import FxaLite.Lib.Renaming
import FxaLite.SyncStorage.Isolation
import Mathlib.Logic.Equiv.Basic

/-!
# A wipe is final

Nothing looks at a uid but to compare it with another. So a database in which users have changed
places answers a user's requests as the old one does the requests of the user whose place it is. After a
wipe a user has no rows, and changes places with any newcomer.
-/

namespace FxaLite.SyncStorage

open Relational Reactive Fallible

/-! ### Keys of other users -/

section Keys

variable (π : Equiv.Perm ℕ)

/-- The key of the user that takes the place of another. -/
def UserCollectionKey.rename : Equiv.Perm UserCollectionKey where
  toFun key := { key with uid := π key.uid }
  invFun key := { key with uid := π.symm key.uid }
  left_inv key := by simp
  right_inv key := by simp

/-- The key of a record. -/
def BsoKey.rename : Equiv.Perm BsoKey where
  toFun key := { key with uid := π key.uid }
  invFun key := { key with uid := π.symm key.uid }
  left_inv key := by simp
  right_inv key := by simp

/-- The key of a batch. -/
def BatchKey.rename : Equiv.Perm BatchKey where
  toFun key := { key with uid := π key.uid }
  invFun key := { key with uid := π.symm key.uid }
  left_inv key := by simp
  right_inv key := by simp

/-- The key of a staged item. -/
def BatchItemKey.rename : Equiv.Perm BatchItemKey where
  toFun key := { key with uid := π key.uid }
  invFun key := { key with uid := π.symm key.uid }
  left_inv key := by simp
  right_inv key := by simp

/-- The store of the user that takes the place of another. -/
def SyncStore.rename (self : SyncStore) : SyncStore := { self with uid := π self.uid }

/-- The second database is the first one with users in other places. -/
structure Db.Renamed (db db' : Db) : Prop where
  names : db'.collections = db.collections
  stamps : db.userCollections.Renamed (UserCollectionKey.rename π) db'.userCollections
  records : db.bso.Renamed (BsoKey.rename π) db'.bso
  batches : db.batches.Renamed (BatchKey.rename π) db'.batches
  items : db.batchItems.Renamed (BatchItemKey.rename π) db'.batchItems

/-- Both have the same value, and users are still in each other's places. -/
def Follows {α : Type} (x y : α × Db) : Prop := x.1 = y.1 ∧ y.2.Renamed π x.2

end Keys

variable {π : Equiv.Perm ℕ} {self : SyncStore} {db db' : Db} {name : String} {c : ℕ}

/-- Uids are told apart alike. -/
theorem decide_uid (π : Equiv.Perm ℕ) (uid uid' : ℕ) : decide (π uid = π uid') = decide (uid = uid') :=
  decide_eq_decide.mpr π.injective.eq_iff

/-- So are keys. -/
theorem decide_key {κ : Type} [DecidableEq κ] (f : Equiv.Perm κ) {key key' key'' : κ} (h : f key' = key'') :
    decide (f key = key'') = decide (key = key') := decide_eq_decide.mpr (f.injective.eq_iff' h)

/-- The order of a user's timestamps does not depend on the uid. -/
theorem UserCollectionKey.rename_lt {k k' : UserCollectionKey} (huid : k.uid = k'.uid) (h : k < k') :
    UserCollectionKey.rename π k < UserCollectionKey.rename π k' := by
  change toLex (k.uid, k.collectionId) < toLex (k'.uid, k'.collectionId) at h
  change toLex (π k.uid, k.collectionId) < toLex (π k'.uid, k'.collectionId)
  simpa [Prod.Lex.toLex_lt_toLex, huid] using h

/-- Nor does that of a user's records. -/
theorem BsoKey.rename_lt {k k' : BsoKey} (huid : k.uid = k'.uid) (h : k < k') : BsoKey.rename π k < BsoKey.rename π k' := by
  change toLex (k.uid, toLex (k.collectionId, k.id)) < toLex (k'.uid, toLex (k'.collectionId, k'.id)) at h
  change toLex (π k.uid, toLex (k.collectionId, k.id)) < toLex (π k'.uid, toLex (k'.collectionId, k'.id))
  simpa [Prod.Lex.toLex_lt_toLex, huid] using h

/-- Nor does that of what is staged. -/
theorem BatchItemKey.rename_lt {k k' : BatchItemKey} (huid : k.uid = k'.uid) (h : k < k') :
    BatchItemKey.rename π k < BatchItemKey.rename π k' := by
  change toLex (k.uid, toLex (k.batchId, k.id)) < toLex (k'.uid, toLex (k'.batchId, k'.id)) at h
  change toLex (π k.uid, toLex (k.batchId, k.id)) < toLex (π k'.uid, toLex (k'.batchId, k'.id))
  simpa [Prod.Lex.toLex_lt_toLex, huid] using h

/-! ### Reads -/

namespace Db.Renamed

/-- The id of a collection. -/
theorem collectionId (h : db.Renamed π db') (name : String) : SyncStore.collectionId db' name = SyncStore.collectionId db name := by
  unfold SyncStore.collectionId
  rw [h.names]

/-- Its name. -/
theorem collectionName (h : db.Renamed π db') : SyncStore.collectionName db' = SyncStore.collectionName db := by
  funext id
  unfold SyncStore.collectionName
  rw [h.names]

/-- A user's timestamps, in the same order. -/
theorem selectStamps (h : db.Renamed π db') (q : ℕ → Bool) :
    (db'.userCollections.select fun key _ => key.uid = π self.uid && q key.collectionId) =
      (db.userCollections.select fun key _ => key.uid = self.uid && q key.collectionId).map fun r =>
        (UserCollectionKey.rename π r.1, r.2) := by
  apply h.stamps.select
  · exact fun _ _ => congrArg₂ and (decide_uid π _ _) rfl
  · intro k k' v v' hk hk' hlt
    simp only [Bool.and_eq_true, decide_eq_true_eq] at hk hk'
    exact UserCollectionKey.rename_lt (hk.1.trans hk'.1.symm) hlt

/-- A user's records, in the same order. -/
theorem selectRecords (h : db.Renamed π db') (q : ℕ → String → BsoRow → Bool) :
    (db'.bso.select fun key row => key.uid = π self.uid && q key.collectionId key.id row) =
      (db.bso.select fun key row => key.uid = self.uid && q key.collectionId key.id row).map fun r =>
        (BsoKey.rename π r.1, r.2) := by
  apply h.records.select
  · exact fun _ _ => congrArg₂ and (decide_uid π _ _) rfl
  · intro k k' v v' hk hk' hlt
    simp only [Bool.and_eq_true, decide_eq_true_eq] at hk hk'
    exact BsoKey.rename_lt (hk.1.trans hk'.1.symm) hlt

/-- What is staged in a batch, in the same order. -/
theorem stagedItems (h : db.Renamed π db') (batchId : ℤ) :
    SyncStore.stagedItems (self.rename π) db' batchId =
      (SyncStore.stagedItems self db batchId).map fun r => (BatchItemKey.rename π r.1, r.2) := by
  apply h.items.select
  · exact fun _ _ => congrArg₂ and (decide_uid π _ _) rfl
  · intro k k' v v' hk hk' hlt
    simp only [Bool.and_eq_true, decide_eq_true_eq] at hk hk'
    exact BatchItemKey.rename_lt (hk.1.trans hk'.1.symm) hlt

/-- `storage_timestamp`. -/
theorem storageTimestamp (h : db.Renamed π db') :
    SyncStore.storageTimestamp (self.rename π) db' = SyncStore.storageTimestamp self db := by
  have hselected := @selectStamps π self db db' h fun _ => true
  simp only [Bool.and_true] at hselected
  unfold SyncStore.storageTimestamp SyncStore.rename
  rw [hselected, List.map_map]
  rfl

/-- `collection_timestamp`. -/
theorem collectionTimestamp (h : db.Renamed π db') (name : String) :
    SyncStore.collectionTimestamp (self.rename π) db' name = SyncStore.collectionTimestamp self db name := by
  have hstamp : ∀ c, db'.userCollections.find? ⟨π self.uid, c⟩ = db.userCollections.find? ⟨self.uid, c⟩ := fun c => h.stamps ⟨self.uid, c⟩
  unfold SyncStore.collectionTimestamp SyncStore.rename
  simp only [h.collectionId, hstamp]

/-- `bso_timestamp`. -/
theorem bsoTimestamp (h : db.Renamed π db') (name id : String) :
    SyncStore.bsoTimestamp (self.rename π) db' name id = SyncStore.bsoTimestamp self db name id := by
  have hrecord : ∀ c, db'.bso.find? ⟨π self.uid, c, id⟩ = db.bso.find? ⟨self.uid, c, id⟩ := fun c => h.records ⟨self.uid, c, id⟩
  unfold SyncStore.bsoTimestamp SyncStore.rename
  simp only [h.collectionId, hrecord]

/-- `collection_timestamps`. -/
theorem collectionTimestamps (h : db.Renamed π db') :
    SyncStore.collectionTimestamps (self.rename π) db' = SyncStore.collectionTimestamps self db := by
  have hselected := @selectStamps π self db db' h fun c => c ≠ tombstone
  unfold SyncStore.collectionTimestamps SyncStore.rename
  rw [hselected, List.map_map, h.collectionName]
  rfl

/-- The records that have not expired. -/
theorem unexpired (h : db.Renamed π db') :
    SyncStore.unexpired (self.rename π) db' = (SyncStore.unexpired self db).map fun r => (BsoKey.rename π r.1, r.2) :=
  selectRecords h fun _ _ row => self.now < row.expiry

/-- Their collections. -/
theorem groups (rows : List (BsoKey × BsoRow)) :
    SyncStore.groups (rows.map fun r => (BsoKey.rename π r.1, r.2)) = SyncStore.groups rows := by
  unfold SyncStore.groups
  rw [List.map_map]
  rfl

/-- Those of one collection. -/
theorem filter_collection (rows : List (BsoKey × BsoRow)) (c : ℕ) :
    ((rows.map fun r => (BsoKey.rename π r.1, r.2)).filter fun r => r.1.collectionId = c) =
      (rows.filter fun r => r.1.collectionId = c).map fun r => (BsoKey.rename π r.1, r.2) := by
  rw [List.filter_map]
  rfl

/-- What they weigh. -/
theorem payloadBytes (rows : List (BsoKey × BsoRow)) :
    SyncStore.payloadBytes (rows.map fun r => (BsoKey.rename π r.1, r.2)) = SyncStore.payloadBytes rows := by
  unfold SyncStore.payloadBytes
  rw [List.map_map]
  rfl

/-- `collection_counts`. -/
theorem collectionCounts (h : db.Renamed π db') :
    SyncStore.collectionCounts (self.rename π) db' = SyncStore.collectionCounts self db := by
  unfold SyncStore.collectionCounts
  simp only [h.unexpired, groups, filter_collection, List.length_map, h.collectionName]

/-- `collection_usage`. -/
theorem collectionUsage (h : db.Renamed π db') :
    SyncStore.collectionUsage (self.rename π) db' = SyncStore.collectionUsage self db := by
  unfold SyncStore.collectionUsage
  simp only [h.unexpired, groups, filter_collection, payloadBytes, h.collectionName]

/-- `storage_usage`. -/
theorem storageUsage (h : db.Renamed π db') :
    SyncStore.storageUsage (self.rename π) db' = SyncStore.storageUsage self db := by
  unfold SyncStore.storageUsage
  rw [h.unexpired, payloadBytes]

/-- `get_bso`. -/
theorem getBso (h : db.Renamed π db') (name id : String) :
    SyncStore.getBso (self.rename π) db' name id = SyncStore.getBso self db name id := by
  have hrecord : ∀ c, db'.bso.find? ⟨π self.uid, c, id⟩ = db.bso.find? ⟨self.uid, c, id⟩ := fun c => h.records ⟨self.uid, c, id⟩
  unfold SyncStore.getBso SyncStore.rename
  simp only [h.collectionId, hrecord]
  rfl

/-- `get_bsos`. -/
theorem getBsos (h : db.Renamed π db') (scan : ScanOrder) (name : String) (query : BsoQuery) (full : Bool) :
    SyncStore.getBsos (self.rename π) db' scan name query full = SyncStore.getBsos self db scan name query full := by
  have hselected : ∀ c, (db'.bso.select (SyncStore.selects (self.rename π) c query full)).map SyncStore.bsoOfRow =
      (db.bso.select (SyncStore.selects self c query full)).map SyncStore.bsoOfRow := by
    intro c
    have hrows := @selectRecords π self db db' h fun k id row =>
      k = c && (self.now < row.expiry && SyncStore.matchesQuery query full id row)
    simp only [← Bool.and_assoc] at hrows
    change db'.bso.select (SyncStore.selects (self.rename π) c query full) =
      (db.bso.select (SyncStore.selects self c query full)).map _ at hrows
    rw [hrows, List.map_map]
    rfl
  unfold SyncStore.getBsos
  simp only [h.collectionId, hselected]

/-! ### Writes -/

/-- `get_or_create_collection_id`. -/
theorem getOrCreateCollectionId (h : db.Renamed π db') (name : String) :
    Follows π (SyncStore.getOrCreateCollectionId db' name) (SyncStore.getOrCreateCollectionId db name) := by
  unfold SyncStore.getOrCreateCollectionId
  rw [h.collectionId, h.names]
  cases SyncStore.collectionId db name with
  | ok id => exact ⟨rfl, h⟩
  | error raised => exact ⟨rfl, { h with names := rfl }⟩

/-- Other records in both. -/
theorem withRecords (h : db.Renamed π db') {t t' : Table BsoKey BsoRow} (ht : t.Renamed (BsoKey.rename π) t') :
    Db.Renamed π { db with bso := t } { db' with bso := t' } := { h with records := ht }

/-- Other timestamps. -/
theorem withStamps (h : db.Renamed π db') {t t' : Table UserCollectionKey ℕ} (ht : t.Renamed (UserCollectionKey.rename π) t') :
    Db.Renamed π { db with userCollections := t } { db' with userCollections := t' } := { h with stamps := ht }

/-- `update_collection`. -/
theorem updateCollection (h : db.Renamed π db') (c : ℕ) :
    (SyncStore.updateCollection self db c).Renamed π (SyncStore.updateCollection (self.rename π) db' c) :=
  h.withStamps (h.stamps.set ⟨self.uid, c⟩ self.now)

/-- `check_write`. -/
theorem checkWrite (h : db.Renamed π db') (c : ℕ) :
    SyncStore.checkWrite (self.rename π) db' c = SyncStore.checkWrite self db c := by
  have hstamp : db'.userCollections.find? ⟨π self.uid, c⟩ = db.userCollections.find? ⟨self.uid, c⟩ := h.stamps ⟨self.uid, c⟩
  unfold SyncStore.checkWrite SyncStore.rename
  simp only [hstamp]

/-- The loop of `post_bsos`. -/
theorem writeBsos (h : db.Renamed π db') (c : ℕ) (bsos : List PostedBso) :
    (SyncStore.writeBsos self c db bsos).Renamed π (SyncStore.writeBsos (self.rename π) c db' bsos) := by
  induction bsos generalizing db db' with
  | nil => exact h
  | cons bso rest ih =>
    apply ih
    exact h.withRecords (h.records.upsert ⟨self.uid, c, bso.id⟩ _ _)

/-- `put_bso`. -/
theorem putBso (h : db.Renamed π db') (name id : String) (payload : Option String) (sortindex : Option ℤ) (ttl : Option ℕ) :
    Follows π (SyncStore.putBso (self.rename π) db' name id payload sortindex ttl)
      (SyncStore.putBso self db name id payload sortindex ttl) := by
  obtain ⟨hid, hensured⟩ := h.getOrCreateCollectionId name
  unfold SyncStore.putBso
  dsimp only
  rw [hid]
  have hwritten : (SyncStore.upsertBso self (SyncStore.getOrCreateCollectionId db name).2
        (SyncStore.getOrCreateCollectionId db name).1 id payload sortindex ttl).Renamed π
      (SyncStore.upsertBso (self.rename π) (SyncStore.getOrCreateCollectionId db' name).2
        (SyncStore.getOrCreateCollectionId db name).1 id payload sortindex ttl) :=
    hensured.withRecords (hensured.records.upsert ⟨self.uid, _, id⟩ _ _)
  exact ⟨rfl, hwritten.updateCollection _⟩

/-- `post_bsos`. -/
theorem postBsos (h : db.Renamed π db') (name : String) (bsos : List PostedBso) (stamped : Bool) :
    Related (Follows π) (SyncStore.postBsos (self.rename π) db' name bsos stamped)
      (SyncStore.postBsos self db name bsos stamped) := by
  obtain ⟨hid, hensured⟩ := h.getOrCreateCollectionId name
  unfold SyncStore.postBsos
  dsimp only
  rw [hid]
  have hposted : Follows π
      (self.now, SyncStore.updateCollection (self.rename π) (SyncStore.writeBsos (self.rename π)
        (SyncStore.getOrCreateCollectionId db name).1 (SyncStore.getOrCreateCollectionId db' name).2 bsos)
        (SyncStore.getOrCreateCollectionId db name).1)
      (self.now, SyncStore.updateCollection self (SyncStore.writeBsos self
        (SyncStore.getOrCreateCollectionId db name).1 (SyncStore.getOrCreateCollectionId db name).2 bsos)
        (SyncStore.getOrCreateCollectionId db name).1) := ⟨rfl, (hensured.writeBsos _ bsos).updateCollection _⟩
  cases stamped with
  | true => exact .ok hposted
  | false =>
    simp only [Bool.not_false, if_true, hensured.checkWrite]
    cases SyncStore.checkWrite self (SyncStore.getOrCreateCollectionId db name).2
        (SyncStore.getOrCreateCollectionId db name).1 with
    | error raised => exact .error raised
    | ok _ => exact .ok hposted

/-- `delete_bso`. -/
theorem deleteBso (h : db.Renamed π db') (name id : String) :
    Related (Follows π) (SyncStore.deleteBso (self.rename π) db' name id) (SyncStore.deleteBso self db name id) := by
  unfold SyncStore.deleteBso
  rw [h.collectionId]
  cases SyncStore.collectionId db name with
  | error raised => exact .error raised
  | ok c =>
    let doomed (self : SyncStore) (key : BsoKey) (row : BsoRow) : Bool :=
      key = ⟨self.uid, c, id⟩ && self.now < row.expiry
    have hdoomed : ∀ key row, doomed (self.rename π) (BsoKey.rename π key) row = doomed self key row :=
      fun _ _ => congrArg₂ and (decide_key (BsoKey.rename π) rfl) rfl
    have hcount : db'.bso.count (doomed (self.rename π)) = db.bso.count (doomed self) := h.records.count hdoomed
    dsimp only [ok_bind]
    rw [hcount]
    split
    · exact .error _
    · exact .ok ⟨rfl, (h.withRecords (h.records.deleteWhere hdoomed)).updateCollection c⟩

/-- `delete_bsos`. -/
theorem deleteBsos (h : db.Renamed π db') (name : String) (ids : List String) :
    Related (Follows π) (SyncStore.deleteBsos (self.rename π) db' name ids) (SyncStore.deleteBsos self db name ids) := by
  unfold SyncStore.deleteBsos
  rw [h.collectionId]
  cases SyncStore.collectionId db name with
  | error raised => exact .error raised
  | ok c =>
    let doomed (self : SyncStore) (key : BsoKey) (_ : BsoRow) : Bool :=
      key.uid = self.uid && key.collectionId = c && ids.contains key.id
    have hdeleted : (db.bso.deleteWhere (doomed self)).Renamed (BsoKey.rename π) (db'.bso.deleteWhere (doomed (self.rename π))) := by
      apply h.records.deleteWhere
      exact fun _ _ => congrArg₂ and (congrArg₂ and (decide_uid π _ _) rfl) rfl
    dsimp only [ok_bind]
    split
    · exact .ok ⟨rfl, h.updateCollection c⟩
    · exact .ok ⟨rfl, (h.withRecords hdeleted).updateCollection c⟩

/-- `delete_collection`. -/
theorem deleteCollection (h : db.Renamed π db') (name : String) :
    Related (Follows π) (SyncStore.deleteCollection (self.rename π) db' name) (SyncStore.deleteCollection self db name) := by
  unfold SyncStore.deleteCollection
  rw [h.collectionId]
  cases SyncStore.collectionId db name with
  | error raised => exact .error raised
  | ok c =>
    let records (self : SyncStore) (key : BsoKey) (_ : BsoRow) : Bool := key.uid = self.uid && key.collectionId = c
    let stamp (self : SyncStore) (key : UserCollectionKey) (_ : ℕ) : Bool := key = ⟨self.uid, c⟩
    have hrecords : ∀ key row, records (self.rename π) (BsoKey.rename π key) row = records self key row :=
      fun _ _ => congrArg₂ and (decide_uid π _ _) rfl
    have hstamp : ∀ key s, stamp (self.rename π) (UserCollectionKey.rename π key) s = stamp self key s :=
      fun _ _ => decide_key (UserCollectionKey.rename π) rfl
    have hcount : db'.bso.count (records (self.rename π)) = db.bso.count (records self) := h.records.count hrecords
    have hcount' : db'.userCollections.count (stamp (self.rename π)) = db.userCollections.count (stamp self) :=
      h.stamps.count hstamp
    dsimp only [ok_bind]
    rw [hcount, hcount']
    split
    · exact .error _
    · have hdeleted := (h.withRecords (h.records.deleteWhere hrecords)).withStamps (h.stamps.deleteWhere hstamp)
      have hmarked := @updateCollection π self _ _ hdeleted tombstone
      exact .ok ⟨hmarked.storageTimestamp, hmarked⟩

/-- `delete_storage`. -/
theorem deleteStorage (h : db.Renamed π db') :
    (SyncStore.deleteStorage self db).Renamed π (SyncStore.deleteStorage (self.rename π) db') where
  names := h.names
  stamps := h.stamps.deleteWhere fun _ _ => decide_uid π _ _
  records := h.records.deleteWhere fun _ _ => decide_uid π _ _
  batches := h.batches.deleteWhere fun _ _ => decide_uid π _ _
  items := h.items.deleteWhere fun _ _ => decide_uid π _ _

/-! ### Batches -/

/-- The loop of `create_batch`. -/
theorem allocateBatch (h : db.Renamed π db') (c tries batchId : ℕ) :
    Related (Follows π) (SyncStore.allocateBatch (self.rename π) db' c tries batchId)
      (SyncStore.allocateBatch self db c tries batchId) := by
  induction tries generalizing batchId with
  | zero => exact .error _
  | succ tries ih =>
    have hbatch : db'.batches.find? ⟨(self.rename π).uid, batchId⟩ = db.batches.find? ⟨self.uid, batchId⟩ :=
      h.batches ⟨self.uid, batchId⟩
    rw [SyncStore.allocateBatch, SyncStore.allocateBatch, hbatch]
    split
    · exact ih (batchId + 1)
    · exact .ok ⟨rfl, { h with batches := h.batches.set ⟨self.uid, batchId⟩ c }⟩

/-- `create_batch`. -/
theorem createBatch (h : db.Renamed π db') (name : String) :
    Related (Follows π) (SyncStore.createBatch (self.rename π) db' name) (SyncStore.createBatch self db name) := by
  obtain ⟨hid, hensured⟩ := h.getOrCreateCollectionId name
  unfold SyncStore.createBatch
  dsimp only
  rw [hid]
  apply (hensured.allocateBatch _ _ _).bind
  intro x y hxy
  exact .ok ⟨congrArg encodeBatchId hxy.1, hxy.2⟩

/-- `validate_batch`. -/
theorem validateBatch (h : db.Renamed π db') (name batch : String) :
    SyncStore.validateBatch (self.rename π) db' name batch = SyncStore.validateBatch self db name batch := by
  have hbatch : ∀ batchId : ℤ, db'.batches.find? ⟨π self.uid, batchId⟩ = db.batches.find? ⟨self.uid, batchId⟩ :=
    fun batchId => h.batches ⟨self.uid, batchId⟩
  unfold SyncStore.validateBatch SyncStore.rename
  simp only [h.collectionId, hbatch]

/-- The loop of `append_to_batch`. -/
theorem stageBsos (h : db.Renamed π db') (batchId : ℤ) (bsos : List PostedBso) :
    (SyncStore.stageBsos self batchId db bsos).Renamed π (SyncStore.stageBsos (self.rename π) batchId db' bsos) := by
  induction bsos generalizing db db' with
  | nil => exact h
  | cons bso rest ih =>
    apply ih
    exact { h with items := h.items.set ⟨self.uid, batchId, bso.id⟩ _ }

/-- `append_to_batch`. -/
theorem appendToBatch (h : db.Renamed π db') (name batch : String) (bsos : List PostedBso) :
    Related (fun after' after => after.Renamed π after') (SyncStore.appendToBatch (self.rename π) db' name batch bsos)
      (SyncStore.appendToBatch self db name batch bsos) := by
  unfold SyncStore.appendToBatch
  rw [h.validateBatch]
  cases SyncStore.validateBatch self db name batch with
  | error raised => exact .error raised
  | ok valid =>
    cases valid with
    | false => exact .error _
    | true =>
      cases decodeBatchId batch with
      | error raised => exact .error raised
      | ok batchId => exact .ok (h.stageBsos batchId bsos)

/-- The loop of `commit_batch`. -/
theorem commitItems (h : db.Renamed π db') (c : ℕ) (items : List (BatchItemKey × BatchItem)) :
    (SyncStore.commitItems self c db items).Renamed π
      (SyncStore.commitItems (self.rename π) c db' (items.map fun r => (BatchItemKey.rename π r.1, r.2))) := by
  induction items generalizing db db' with
  | nil => exact h
  | cons item rest ih =>
    apply ih
    exact h.withRecords (h.records.upsert ⟨self.uid, c, item.1.id⟩ _ _)

/-- `delete_batch`. -/
theorem deleteBatch (h : db.Renamed π db') (batchId : ℤ) :
    (SyncStore.deleteBatch self db batchId).Renamed π (SyncStore.deleteBatch (self.rename π) db' batchId) :=
  { h with
    items := h.items.deleteWhere fun _ _ => congrArg₂ and (decide_uid π _ _) rfl
    batches := h.batches.deleteWhere fun _ _ => decide_key (BatchKey.rename π) rfl }

/-- `commit_batch`. -/
theorem commitBatch (h : db.Renamed π db') (name batch : String) :
    Related (Follows π) (SyncStore.commitBatch (self.rename π) db' name batch) (SyncStore.commitBatch self db name batch) := by
  obtain ⟨hid, hensured⟩ := h.getOrCreateCollectionId name
  unfold SyncStore.commitBatch
  cases decodeBatchId batch with
  | error raised => exact .error raised
  | ok batchId =>
    dsimp only [ok_bind]
    rw [hid, hensured.stagedItems]
    split
    · exact .error _
    · exact .ok ⟨rfl, ((hensured.commitItems _ _).updateCollection _).deleteBatch batchId⟩

end Db.Renamed

/-! ### The handlers -/

/-- The resource of a collection. -/
theorem Db.Renamed.collectionResource (h : db.Renamed π db') (name : String) :
    collectionResource (self.rename π) name db' = collectionResource self name db := by
  unfold FxaLite.SyncStorage.collectionResource
  rw [h.collectionTimestamp]

/-- That of a record. -/
theorem Db.Renamed.bsoResource (h : db.Renamed π db') (name id : String) :
    bsoResource (self.rename π) name id db' = bsoResource self name id db := by
  unfold FxaLite.SyncStorage.bsoResource
  rw [h.bsoTimestamp]

/-- `info_collections`. -/
theorem infoCollections_follows (h : db.Renamed π db') :
    Related (Follows π) (infoCollections (self.rename π) db') (infoCollections self db) := by
  unfold infoCollections
  rw [h.collectionTimestamps]
  exact .ok ⟨rfl, h⟩

/-- `info_collection_counts`. -/
theorem infoCollectionCounts_follows (h : db.Renamed π db') :
    Related (Follows π) (infoCollectionCounts (self.rename π) db') (infoCollectionCounts self db) := by
  unfold infoCollectionCounts
  rw [h.collectionCounts]
  exact .ok ⟨rfl, h⟩

/-- `info_collection_usage`. -/
theorem infoCollectionUsage_follows (h : db.Renamed π db') :
    Related (Follows π) (infoCollectionUsage (self.rename π) db') (infoCollectionUsage self db) := by
  unfold infoCollectionUsage
  rw [h.collectionUsage]
  exact .ok ⟨rfl, h⟩

/-- `info_quota`. -/
theorem infoQuota_follows (h : db.Renamed π db') :
    Related (Follows π) (infoQuota (self.rename π) db') (infoQuota self db) := by
  unfold infoQuota
  rw [h.storageUsage]
  exact .ok ⟨rfl, h⟩

/-- `delete_all`. -/
theorem deleteAll_follows (h : db.Renamed π db') :
    Related (Follows π) (deleteAll (self.rename π) db') (deleteAll self db) := .ok ⟨rfl, h.deleteStorage⟩

/-- `get_collection`. -/
theorem getCollection_follows (h : db.Renamed π db') (p : Platform) (name : String) (query : BsoQuery) (full newlines : Bool) :
    Related (Follows π) (getCollection p (self.rename π) name query full newlines db')
      (getCollection p self name query full newlines db) := by
  unfold getCollection
  rw [h.getBsos]
  cases SyncStore.getBsos self db p.scan name query full with
  | ok page => exact .ok ⟨rfl, h⟩
  | error raised =>
    cases raised with
    | collectionNotFound => exact .ok ⟨rfl, h⟩
    | bsoNotFound => exact .error _
    | http e => exact .error _
    | conflict => exact .error _
    | batchNotFound => exact .error _
    | overflow => exact .error _
    | recursion => exact .error _

/-- `get_bso`. -/
theorem getBso_follows (h : db.Renamed π db') (name id : String) :
    Related (Follows π) (getBso (self.rename π) name id db') (getBso self name id db) := by
  unfold getBso
  rw [h.getBso]
  cases SyncStore.getBso self db name id with
  | ok found =>
    cases found with
    | none => exact .error _
    | some record => exact .ok ⟨rfl, h⟩
  | error raised => cases raised <;> exact .error _

/-- `put_bso`. -/
theorem putBso_follows (h : db.Renamed π db') (name id : String) (body : PostedBso) :
    Related (Follows π) (putBso (self.rename π) name id body db') (putBso self name id body db) := by
  obtain ⟨hmodified, hafter⟩ := @Db.Renamed.putBso π self db db' h name id body.payload body.sortindex body.ttl
  unfold putBso
  dsimp only
  rw [hmodified]
  exact .ok ⟨rfl, hafter⟩

/-- What follows a method that answers alike. -/
theorem Follows.related {α β : Type} {x y : Except Raised (α × Db)} {f g : α × Db → Except Raised (β × Db)}
    (h : Related (Follows π) x y) (hf : ∀ value after' after, after.Renamed π after' →
      Related (Follows π) (f (value, after')) (g (value, after))) : Related (Follows π) (x >>= f) (y >>= g) := by
  apply h.bind
  rintro ⟨value, after'⟩ ⟨value', after⟩ ⟨rfl, hafter⟩
  exact hf value after' after hafter

/-- `delete_bso`. -/
theorem deleteBso_follows (h : db.Renamed π db') (name id : String) :
    Related (Follows π) (deleteBso (self.rename π) name id db') (deleteBso self name id db) := by
  have hdeleted := @Db.Renamed.deleteBso π self db db' h name id
  unfold deleteBso
  generalize SyncStore.deleteBso (self.rename π) db' name id = x at hdeleted
  generalize SyncStore.deleteBso self db name id = y at hdeleted
  cases hdeleted with
  | @ok a b hab =>
    obtain ⟨modified, after'⟩ := a
    obtain ⟨modified', after⟩ := b
    obtain ⟨rfl, hafter⟩ := hab
    exact .ok ⟨rfl, hafter⟩
  | error raised => cases raised <;> exact .error _

/-- `delete_collection`, of the whole or of some ids. -/
theorem deleteCollection_follows (h : db.Renamed π db') (name : String) (query : BsoQuery) :
    Related (Follows π) (deleteCollection (self.rename π) name query db') (deleteCollection self name query db) := by
  have hdeleted : Related (Follows π)
      (if query.ids.isEmpty then SyncStore.deleteCollection (self.rename π) db' name
        else SyncStore.deleteBsos (self.rename π) db' name query.ids)
      (if query.ids.isEmpty then SyncStore.deleteCollection self db name else SyncStore.deleteBsos self db name query.ids) := by
    split
    · exact h.deleteCollection name
    · exact h.deleteBsos name query.ids
  unfold deleteCollection
  dsimp only
  rw [h.storageTimestamp]
  revert hdeleted
  generalize (if query.ids.isEmpty then SyncStore.deleteCollection (self.rename π) db' name
    else SyncStore.deleteBsos (self.rename π) db' name query.ids) = x
  generalize (if query.ids.isEmpty then SyncStore.deleteCollection self db name
    else SyncStore.deleteBsos self db name query.ids) = y
  intro hdeleted
  cases hdeleted with
  | @ok a b hab =>
    obtain ⟨modified, after'⟩ := a
    obtain ⟨modified', after⟩ := b
    obtain ⟨rfl, hafter⟩ := hab
    exact .ok ⟨rfl, hafter⟩
  | error raised =>
    cases raised with
    | collectionNotFound => exact .ok ⟨rfl, h⟩
    | bsoNotFound => exact .ok ⟨rfl, h⟩
    | http e => exact .error _
    | conflict => exact .error _
    | batchNotFound => exact .error _
    | overflow => exact .error _
    | recursion => exact .error _

/-- The batch of a POST. -/
theorem openedBatch_follows (h : db.Renamed π db') (name : String) (id : Option String) :
    Related (Follows π) (openedBatch (self.rename π) name id db') (openedBatch self name id db) := by
  cases id with
  | none => exact h.createBatch name
  | some id =>
    simp only [openedBatch, h.validateBatch]
    cases SyncStore.validateBatch self db name id with
    | error raised => exact .error raised
    | ok valid =>
      cases valid with
      | false => exact .error _
      | true => exact .ok ⟨rfl, h⟩

/-- A POST to a batch. -/
theorem postBatch_follows (h : db.Renamed π db') (name : String) (batch : BatchRequest) (bsos : PostedBsos) :
    Related (Follows π) (postBatch (self.rename π) name batch bsos db') (postBatch self name batch bsos db) := by
  unfold postBatch
  apply Follows.related (openedBatch_follows h name batch.id)
  intro identifier opened' opened hopened
  have hstaged : Related (fun after' after => after.Renamed π after')
      (if !bsos.valid.isEmpty && !batch.commit then
        SyncStore.appendToBatch (self.rename π) opened' name identifier bsos.valid else .ok opened')
      (if !bsos.valid.isEmpty && !batch.commit then SyncStore.appendToBatch self opened name identifier bsos.valid
        else .ok opened) := by
    split
    · exact hopened.appendToBatch name identifier bsos.valid
    · exact .ok hopened
  apply hstaged.bind
  intro staged' staged hstaged
  split
  · exact .ok ⟨rfl, hstaged⟩
  · apply Follows.related (hstaged.commitBatch name identifier)
    intro modified committed' committed hcommitted
    dsimp only
    split
    · exact .ok ⟨rfl, hcommitted⟩
    · apply Follows.related (hcommitted.postBsos name bsos.valid true)
      exact fun modified after' after hafter => .ok ⟨rfl, hafter⟩

/-- `post_collection`. -/
theorem postCollection_follows (h : db.Renamed π db') (name : String) (batch : Option BatchRequest) (bsos : PostedBsos) :
    Related (Follows π) (postCollection (self.rename π) name batch bsos db') (postCollection self name batch bsos db) := by
  have hplain : Related (Follows π) (postCollection (self.rename π) name none bsos db')
      (postCollection self name none bsos db) := by
    apply Follows.related (h.postBsos name bsos.valid false)
    exact fun modified after' after hafter => .ok ⟨rfl, hafter⟩
  unfold postCollection
  cases batch with
  | none => exact hplain
  | some batch =>
    dsimp only
    split
    · exact postBatch_follows h name batch bsos
    · exact hplain

/-! ### Requests -/

/-- The request of the user that takes the place of another. -/
def Call.rename (π : Equiv.Perm ℕ) (call : Call) : Call := { call with uid := π call.uid }

/-- The same as it arrives. -/
def HttpRequest.rename (π : Equiv.Perm ℕ) (http : HttpRequest) : HttpRequest := { http with uid := π http.uid }

section Requests

variable {p : Platform} {call : Call}

/-- The transaction of a request. -/
theorem run_follows (h : db.Renamed π db') {resource resource' : Db → ℕ} (hresource : resource' db' = resource db)
    {collection : Option String} {handler handler' : Handler}
    (hhandler : ∀ {db db' : Db}, db.Renamed π db' → Related (Follows π) (handler' db') (handler db)) :
    Related (Follows π) (run p (call.rename π) resource' collection handler' db') (run p call resource collection handler db) := by
  have hfinish : ∀ {x y : Except Raised (Response × Db)} (timestamp : ℕ), Related (Follows π) x y → Related (Follows π)
      (x >>= fun answer => .ok ({ answer.1 with
        lastModified := answer.1.lastModified.or (some (timestampHeader timestamp)) }, answer.2))
      (y >>= fun answer => .ok ({ answer.1 with
        lastModified := answer.1.lastModified.or (some (timestampHeader timestamp)) }, answer.2)) := by
    intro x y timestamp hxy
    apply Follows.related hxy
    exact fun response after' after hafter => .ok ⟨rfl, hafter⟩
  have hpre : precondition p (call.rename π) (resource' db') = precondition p call (resource db) := hresource ▸ rfl
  unfold run
  dsimp only
  rw [hpre, hresource]
  cases precondition p call (resource db) with
  | error raised => exact .error raised
  | ok refusal =>
    cases refusal with
    | some response => exact .ok ⟨rfl, h⟩
    | none =>
      cases collection with
      | none => exact hfinish _ (hhandler h)
      | some name =>
        obtain ⟨hid, hensured⟩ := h.getOrCreateCollectionId name
        have hguard : SyncStore.checkWrite (call.store.rename π) (SyncStore.getOrCreateCollectionId db' name).2
            (SyncStore.getOrCreateCollectionId db name).1 = SyncStore.checkWrite call.store
              (SyncStore.getOrCreateCollectionId db name).2 (SyncStore.getOrCreateCollectionId db name).1 :=
          hensured.checkWrite _
        change SyncStore.checkWrite (call.rename π).store _ _ = _ at hguard
        dsimp only [ok_bind, lockForWrite]
        rw [hid, hguard]
        cases SyncStore.checkWrite call.store (SyncStore.getOrCreateCollectionId db name).2
            (SyncStore.getOrCreateCollectionId db name).1 with
        | error raised => exact .error raised
        | ok _ => exact hfinish _ (hhandler hensured)

/-- The same request of the user in the other's place. -/
theorem handle_follows (h : db.Renamed π db') :
    Related (Follows π) (handle p (call.rename π) db') (handle p call db) := by
  have hstorage : SyncStore.storageTimestamp (call.store.rename π) db' = SyncStore.storageTimestamp call.store db :=
    h.storageTimestamp
  have hcollection : ∀ name, collectionResource (call.store.rename π) name db' = collectionResource call.store name db :=
    fun name => h.collectionResource name
  have hbso : ∀ name id, bsoResource (call.store.rename π) name id db' = bsoResource call.store name id db :=
    fun name id => h.bsoResource name id
  have hroute : ∀ {resource resource' : Db → ℕ} {handler handler' : Handler} (collection : Option String),
      resource' db' = resource db → (∀ {db db' : Db}, db.Renamed π db' → Related (Follows π) (handler' db') (handler db)) →
      Related (Follows π) (run p (call.rename π) resource' collection handler' db') (run p call resource collection handler db) :=
    fun _ hresource hhandler => run_follows h hresource hhandler
  have hrequest : (call.rename π).request = call.request := rfl
  unfold handle route
  rw [hrequest]
  cases call.request with
  | infoCollections => exact hroute none hstorage fun h => @infoCollections_follows π call.store _ _ h
  | infoCollectionCounts => exact hroute none hstorage fun h => @infoCollectionCounts_follows π call.store _ _ h
  | infoCollectionUsage => exact hroute none hstorage fun h => @infoCollectionUsage_follows π call.store _ _ h
  | infoQuota => exact hroute none hstorage fun h => @infoQuota_follows π call.store _ _ h
  | deleteAll => exact hroute none hstorage fun h => @deleteAll_follows π call.store _ _ h
  | getCollection name params newlines =>
    dsimp only
    cases validateCollection name with
    | error raised => exact .error raised
    | ok _ =>
      cases parseQuery p.float params with
      | error raised => exact .error raised
      | ok query => exact hroute none (hcollection name) fun h => @getCollection_follows π call.store _ _ h p name query _ newlines
  | postCollection name params bsos =>
    dsimp only
    cases validateCollection name with
    | error raised => exact .error raised
    | ok _ =>
      cases parseBatch params with
      | error raised => exact .error raised
      | ok batch => exact hroute (some name) (hcollection name) fun h => @postCollection_follows π call.store _ _ h name batch bsos
  | deleteCollection name params =>
    dsimp only
    cases validateCollection name with
    | error raised => exact .error raised
    | ok _ =>
      cases parseQuery p.float params with
      | error raised => exact .error raised
      | ok query => exact hroute (some name) (hcollection name) fun h => @deleteCollection_follows π call.store _ _ h name query
  | getBso name id =>
    dsimp only
    cases validateCollection name with
    | error raised => exact .error raised
    | ok _ =>
      cases validateBsoId id with
      | error raised => exact .error raised
      | ok _ => exact hroute none (hbso name id) fun h => @getBso_follows π call.store _ _ h name id
  | putBso name id body =>
    dsimp only
    cases validateCollection name with
    | error raised => exact .error raised
    | ok _ =>
      cases validateBsoId id with
      | error raised => exact .error raised
      | ok _ => exact hroute (some name) (hbso name id) fun h => @putBso_follows π call.store _ _ h name id body
  | deleteBso name id =>
    dsimp only
    cases validateCollection name with
    | error raised => exact .error raised
    | ok _ =>
      cases validateBsoId id with
      | error raised => exact .error raised
      | ok _ => exact hroute (some name) (hbso name id) fun h => @deleteBso_follows π call.store _ _ h name id

/-- It is answered as that of the user whose place it is. -/
theorem serve_renamed (h : db.Renamed π db') :
    (serve p db call).2 = (serve p db' (call.rename π)).2 ∧ (serve p db call).1.Renamed π (serve p db' (call.rename π)).1 := by
  have hfollows := @handle_follows π db db' p call h
  unfold serve
  revert hfollows
  generalize handle p (call.rename π) db' = x
  generalize handle p call db = y
  intro hfollows
  cases hfollows with
  | @ok a b hab =>
    obtain ⟨response, after'⟩ := a
    obtain ⟨response', after⟩ := b
    obtain ⟨rfl, hafter⟩ := hab
    exact ⟨rfl, hafter⟩
  | error raised => exact ⟨rfl, h⟩

/-- So it is over HTTP. -/
theorem serveHttp_renamed (codec : Codec) (http : HttpRequest) (h : db.Renamed π db') :
    (serveHttp p codec db http).2 = (serveHttp p codec db' (http.rename π)).2 ∧
      (serveHttp p codec db http).1.Renamed π (serveHttp p codec db' (http.rename π)).1 := by
  have hread : (http.rename π).read codec = http.read codec := rfl
  unfold serveHttp
  rw [hread]
  cases http.read codec with
  | error raised => exact ⟨rfl, h⟩
  | ok request => exact @serve_renamed π db db' p (http.call request) h

end Requests

/-! ### A wipe -/

/-- A user without rows. -/
structure Db.Vacant (db : Db) (uid : ℕ) : Prop where
  stamps : ∀ key : UserCollectionKey, key.uid = uid → db.userCollections.find? key = none
  records : ∀ key : BsoKey, key.uid = uid → db.bso.find? key = none
  batches : ∀ key : BatchKey, key.uid = uid → db.batches.find? key = none
  items : ∀ key : BatchItemKey, key.uid = uid → db.batchItems.find? key = none

/-- Two users without rows change places, and nothing changes. -/
theorem renamed_swap {uid newcomer : ℕ} (h : db.Vacant uid) (hnew : db.Vacant newcomer) :
    db.Renamed (Equiv.swap uid newcomer) db := by
  have hmoved : ∀ other, Equiv.swap uid newcomer other ≠ other → (other = uid ∨ other = newcomer) ∧
      (Equiv.swap uid newcomer other = uid ∨ Equiv.swap uid newcomer other = newcomer) := by
    intro other hne
    by_cases hold : other = uid
    · exact ⟨Or.inl hold, Or.inr (hold ▸ Equiv.swap_apply_left uid newcomer)⟩
    · by_cases hnewcomer : other = newcomer
      · exact ⟨Or.inr hnewcomer, Or.inl (hnewcomer ▸ Equiv.swap_apply_right uid newcomer)⟩
      · exact absurd (Equiv.swap_apply_of_ne_of_ne hold hnewcomer) hne
  have htable : ∀ {κ ν : Type} [LinearOrder κ] {t : Table κ ν} {f : Equiv.Perm κ} {user : κ → ℕ},
      (∀ k, user (f k) = Equiv.swap uid newcomer (user k)) → (∀ k, Equiv.swap uid newcomer (user k) = user k → f k = k) →
      (∀ k, user k = uid → t.find? k = none) → (∀ k, user k = newcomer → t.find? k = none) → t.Renamed f t := by
    intro κ ν _ t f user huser hfixed hnone hnone'
    apply Table.renamed_self
    intro k hk
    obtain ⟨hold, hnew⟩ := hmoved (user k) fun hsame => hk (hfixed k hsame)
    exact ⟨hold.elim (hnone k) (hnone' k), (huser k ▸ hnew).elim (hnone (f k)) (hnone' (f k))⟩
  constructor
  · rfl
  · exact htable (fun _ => rfl) (fun k hsame => congrArg (fun uid => { k with uid }) hsame) h.stamps hnew.stamps
  · exact htable (fun _ => rfl) (fun k hsame => congrArg (fun uid => { k with uid }) hsame) h.records hnew.records
  · exact htable (fun _ => rfl) (fun k hsame => congrArg (fun uid => { k with uid }) hsame) h.batches hnew.batches
  · exact htable (fun _ => rfl) (fun k hsame => congrArg (fun uid => { k with uid }) hsame) h.items hnew.items

/-- After a wipe a user has no rows. -/
theorem vacant_deleteStorage (self : SyncStore) (db : Db) : (SyncStore.deleteStorage self db).Vacant self.uid where
  stamps _ huid := Table.find?_deleteWhere_of_true fun _ _ => decide_eq_true huid
  records _ huid := Table.find?_deleteWhere_of_true fun _ _ => decide_eq_true huid
  batches _ huid := Table.find?_deleteWhere_of_true fun _ _ => decide_eq_true huid
  items _ huid := Table.find?_deleteWhere_of_true fun _ _ => decide_eq_true huid

/-- It leaves the rows of all others. -/
theorem sameRows_deleteStorage (db : Db) {uid : ℕ} (huid : uid ≠ self.uid) : SameRows uid db (SyncStore.deleteStorage self db) where
  stamps _ := Table.find?_deleteWhere_of_false fun _ _ => decide_eq_false huid
  records _ _ := Table.find?_deleteWhere_of_false fun _ _ => decide_eq_false huid
  batches _ := Table.find?_deleteWhere_of_false fun _ _ => decide_eq_false huid
  items _ _ := Table.find?_deleteWhere_of_false fun _ _ => decide_eq_false huid

/-- A user is vacant exactly when none of its rows is listed. -/
theorem vacant_iff {uid : ℕ} : db.Vacant uid ↔ db.rowsOf uid = ([], [], [], []) := by
  have htable : ∀ {κ ν : Type} [LinearOrder κ] (t : Table κ ν) (user : κ → ℕ),
      (t.select fun key _ => user key = uid) = [] ↔ ∀ key, user key = uid → t.find? key = none := by
    intro κ ν _ t user
    rw [List.eq_nil_iff_forall_not_mem]
    constructor
    · intro hnone key huser
      cases hfind : t.find? key with
      | none => rfl
      | some v => exact absurd (Table.mem_select.mpr ⟨hfind, decide_eq_true huser⟩) (hnone (key, v))
    · intro hnone row hrow
      obtain ⟨hfind, huser⟩ := Table.mem_select.mp hrow
      rw [hnone row.1 (of_decide_eq_true huser)] at hfind
      cases hfind
  unfold Db.rowsOf
  rw [Prod.mk.injEq, Prod.mk.injEq, Prod.mk.injEq, htable, htable, htable, htable]
  exact ⟨fun h => ⟨h.stamps, h.records, h.batches, h.items⟩, fun h => ⟨h.1, h.2.1, h.2.2.1, h.2.2.2⟩⟩

/-- After a wipe every request, of every run, is answered as a newcomer in the user's place would be, and the
rows of all other users are those of before. -/
theorem wipe_is_final (p : Platform) (codec : Codec) (db : Db) (uid now newcomer : ℕ)
    (hnew : db.rowsOf newcomer = ([], [], [], [])) :
    (∀ requests : List HttpRequest,
      (httpServer p codec).outputs (SyncStore.deleteStorage ⟨uid, now⟩ db) requests =
        (httpServer p codec).outputs (SyncStore.deleteStorage ⟨uid, now⟩ db)
          (requests.map (HttpRequest.rename (Equiv.swap uid newcomer)))) ∧
      ∀ other, other ≠ uid → (SyncStore.deleteStorage ⟨uid, now⟩ db).rowsOf other = db.rowsOf other := by
  have hothers : ∀ other, other ≠ uid → SameRows other db (SyncStore.deleteStorage ⟨uid, now⟩ db) :=
    fun other huid => @sameRows_deleteStorage ⟨uid, now⟩ db other huid
  have hwiped := vacant_deleteStorage ⟨uid, now⟩ db
  have hvacant : (SyncStore.deleteStorage ⟨uid, now⟩ db).Vacant newcomer := by
    by_cases huid : newcomer = uid
    · exact huid ▸ hwiped
    · exact vacant_iff.mpr ((hothers newcomer huid).rowsOf.trans hnew)
  refine ⟨fun requests => ?_, fun other huid => (hothers other huid).rowsOf⟩
  apply Machine.outputs_map_of_step _ _ _ (renamed_swap hwiped hvacant)
  exact fun before before' http hrenamed => serveHttp_renamed codec http hrenamed

/-- User 1 has a batch open, with a record staged in it. -/
def openBatch : Db :=
  { Db.fresh with
    collections := ["", "tabs"]
    batches := (∅ : Table BatchKey ℕ).set ⟨1, 10⟩ 1
    batchItems := (∅ : Table BatchItemKey BatchItem).set ⟨1, 10, "a"⟩ ⟨none, some "x", none⟩ }

/-- The commit of that batch, with an empty body. -/
def commitOpen : HttpRequest :=
  ⟨1, 30, fun _ => none, .postCollection "tabs" (Params.of [("batch", "10"), ("commit", "true")]) []⟩

/-- A server that can read an empty body. -/
def emptyBodies : Machine Db HttpRequest Response := httpServer (.knowing []) (.knowing [("[]", .arr [])])

/-- The batch can be committed, but not after a wipe: then user 1 is answered as user 2. -/
theorem wipe_is_final_openBatch :
    (emptyBodies.outputs openBatch [commitOpen]).map Response.status = [200] ∧
      (emptyBodies.outputs (SyncStore.deleteStorage ⟨1, 20⟩ openBatch) [commitOpen]).map Response.status = [400] ∧
      emptyBodies.outputs (SyncStore.deleteStorage ⟨1, 20⟩ openBatch) [commitOpen] =
        emptyBodies.outputs (SyncStore.deleteStorage ⟨1, 20⟩ openBatch) [commitOpen.rename (Equiv.swap 1 2)] := by
  refine ⟨by decide +kernel, by decide +kernel, ?_⟩
  exact (wipe_is_final (.knowing []) (.knowing [("[]", .arr [])]) openBatch 1 20 2 (by decide +kernel)).1 [commitOpen]

end FxaLite.SyncStorage
