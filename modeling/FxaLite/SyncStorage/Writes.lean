import FxaLite.Lib.Fallible
import FxaLite.SyncStorage.Handlers

/-!
# What the store's methods do

One inversion lemma for each method that writes. A collection's id is found or made; PUT, POST
and the commit of a batch all are a list of record writes to one collection, at one instant;
staging records touches nothing but the items of a batch.
-/

namespace FxaLite.SyncStorage

open Relational Reactive Fallible

/-! ### Collection names -/

/-- The id a write uses for a collection. -/
def Db.idFor (db : Db) (name : String) : ℕ := (SyncStore.getOrCreateCollectionId db name).1

/-- The database once a write has made sure of a collection's name. -/
def Db.ensure (db : Db) (name : String) : Db := (SyncStore.getOrCreateCollectionId db name).2

/-- A collection has an id once its name is known. -/
theorem collectionId_eq_ok {db : Db} {name : String} {id : ℕ} :
    SyncStore.collectionId db name = .ok id ↔ db.collections.idxOf? name = some id := by
  unfold SyncStore.collectionId
  cases db.collections.idxOf? name with
  | none => simp
  | some i => simp

/-- The only way not to have an id. -/
theorem collectionId_eq_error {db : Db} {name : String} {e : Raised} :
    SyncStore.collectionId db name = .error e ↔
      db.collections.idxOf? name = none ∧ e = .collectionNotFound := by
  unfold SyncStore.collectionId
  cases db.collections.idxOf? name with
  | none => simp [eq_comm]
  | some i => simp

/-- Making sure of a name touches no other table. -/
theorem ensure_eq (db : Db) (name : String) :
    db.ensure name = { db with collections := (db.ensure name).collections } := by
  unfold Db.ensure SyncStore.getOrCreateCollectionId
  split <;> rfl

@[simp] theorem ensure_bso (db : Db) (name : String) : (db.ensure name).bso = db.bso := by
  rw [ensure_eq]

@[simp] theorem ensure_userCollections (db : Db) (name : String) :
    (db.ensure name).userCollections = db.userCollections := by
  rw [ensure_eq]

@[simp] theorem ensure_batches (db : Db) (name : String) : (db.ensure name).batches = db.batches := by
  rw [ensure_eq]

@[simp] theorem ensure_batchItems (db : Db) (name : String) :
    (db.ensure name).batchItems = db.batchItems := by
  rw [ensure_eq]

/-- A known name keeps its id, and nothing is added. -/
theorem ensure_of_known {db : Db} {name : String} {id : ℕ} (h : db.collections.idxOf? name = some id) :
    db.ensure name = db ∧ db.idFor name = id := by
  have hok := collectionId_eq_ok.mpr h
  unfold Db.ensure Db.idFor SyncStore.getOrCreateCollectionId
  rw [hok]
  exact ⟨rfl, rfl⟩

/-- A new name goes to the end of the table. -/
theorem ensure_of_unknown {db : Db} {name : String} (h : db.collections.idxOf? name = none) :
    db.ensure name = { db with collections := db.collections ++ [name] } ∧
      db.idFor name = db.collections.length := by
  have herror := collectionId_eq_error.mpr ⟨h, rfl⟩
  unfold Db.ensure Db.idFor SyncStore.getOrCreateCollectionId
  rw [herror]
  exact ⟨rfl, rfl⟩

/-- The names that were there stay where they are. -/
theorem prefix_ensure (db : Db) (name : String) : db.collections <+: (db.ensure name).collections := by
  cases h : db.collections.idxOf? name with
  | none =>
    rw [(ensure_of_unknown h).1]
    exact List.prefix_append _ _
  | some id =>
    have hsame : db.ensure name = db := (ensure_of_known h).1
    exact hsame.symm ▸ List.prefix_rfl

/-- Afterwards the name is known, under the id the write uses. -/
theorem idxOf?_ensure (db : Db) (name : String) :
    (db.ensure name).collections.idxOf? name = some (db.idFor name) := by
  cases h : db.collections.idxOf? name with
  | none =>
    obtain ⟨hensure, hid⟩ := ensure_of_unknown h
    rw [hensure, hid]
    simp only [List.idxOf?] at h ⊢
    rw [List.findIdx?_append, h]
    simp [List.findIdx?_cons]
  | some id =>
    obtain ⟨hensure, hid⟩ := ensure_of_known h
    rw [hensure, hid, h]

@[simp] theorem collectionId_ensure (db : Db) (name : String) :
    SyncStore.collectionId (db.ensure name) name = .ok (db.idFor name) :=
  collectionId_eq_ok.mpr (idxOf?_ensure db name)

/-- Making sure of a name twice is making sure of it once. -/
@[simp] theorem getOrCreateCollectionId_ensure (db : Db) (name : String) :
    SyncStore.getOrCreateCollectionId (db.ensure name) name = (db.idFor name, db.ensure name) := by
  unfold SyncStore.getOrCreateCollectionId
  rw [collectionId_ensure]

theorem getOrCreateCollectionId_eq (db : Db) (name : String) :
    SyncStore.getOrCreateCollectionId db name = (db.idFor name, db.ensure name) := rfl

/-- An id found among some names is found among more. -/
theorem idxOf?_of_isPrefix {names names' : List String} (h : names <+: names') {name : String} {id : ℕ}
    (hid : names.idxOf? name = some id) : names'.idxOf? name = some id := by
  obtain ⟨more, rfl⟩ := h
  simp only [List.idxOf?] at hid ⊢
  rw [List.findIdx?_append, hid]
  rfl

/-- A name that gets its id later gets an id that was not in use. -/
theorem length_le_of_idxOf? {names names' : List String} (h : names <+: names') {name : String} {id : ℕ}
    (hnone : names.idxOf? name = none) (hid : names'.idxOf? name = some id) : names.length ≤ id := by
  obtain ⟨more, rfl⟩ := h
  simp only [List.idxOf?] at hid hnone
  rw [List.findIdx?_append, hnone] at hid
  simp only [Option.none_or, Option.map_eq_some_iff] at hid
  obtain ⟨i, -, rfl⟩ := hid
  omega

/-- Two names never share an id. -/
theorem name_eq_of_idxOf? {names : List String} {a b : String} {id : ℕ}
    (ha : names.idxOf? a = some id) (hb : names.idxOf? b = some id) : a = b := by
  obtain ⟨_, ha, -⟩ := List.idxOf?_eq_some_iff.mp ha
  obtain ⟨_, hb, -⟩ := List.idxOf?_eq_some_iff.mp hb
  exact ha.symm.trans hb

/-! ### Record writes -/

/-- One record a request writes: from a PUT or POST body, or from a batch it commits. -/
inductive RecordWrite where
  | put (bso : PostedBso)
  | commit (id : String) (item : BatchItem)
  deriving DecidableEq, Repr

namespace RecordWrite

/-- The record written. -/
def id : RecordWrite → String
  | put bso => bso.id
  | commit id _ => id

/-- Whether the write moves `modified` also when the record is there already. -/
def stamps : RecordWrite → Bool
  | put bso => bso.payload.isSome || bso.sortindex.isSome
  | commit _ _ => true

/-- The row of a record that was not there. -/
def new (self : SyncStore) : RecordWrite → BsoRow
  | put bso => SyncStore.newRow self bso.payload bso.sortindex bso.ttl
  | commit _ item => SyncStore.committedRow self item

/-- What becomes of a record that was there. -/
def update (self : SyncStore) : RecordWrite → BsoRow → BsoRow
  | put bso => SyncStore.updateRow self bso.payload bso.sortindex bso.ttl
  | commit _ item => SyncStore.mergedRow self item

/-- The row a write leaves. -/
def row (self : SyncStore) (w : RecordWrite) (old : Option BsoRow) : BsoRow := old.elim (w.new self) (w.update self)

/-- The statement of a write. -/
def upsert (self : SyncStore) (collectionId : ℕ) (w : RecordWrite) : Table.Upsert BsoKey BsoRow :=
  ⟨⟨self.uid, collectionId, w.id⟩, w.new self, w.update self⟩

/-- Writes one after another, seen from one record. -/
def fold (self : SyncStore) (id : String) (ws : List RecordWrite) (old : Option BsoRow) : Option BsoRow :=
  (ws.filter (·.id = id)).foldl (fun old w => some (w.row self old)) old

/-- A record that was there carries the instant of the request if the write moves `modified`. -/
theorem update_modified (self : SyncStore) (w : RecordWrite) (row : BsoRow) :
    (w.update self row).modified = if w.stamps then self.now else row.modified := by
  cases w <;> rfl

end RecordWrite

/-- The loop of `post_bsos` is a list of record writes. -/
theorem writeBsos_eq (self : SyncStore) (collectionId : ℕ) (db : Db) (bsos : List PostedBso) :
    SyncStore.writeBsos self collectionId db bsos =
      { db with bso := db.bso.upsertAll ((bsos.map RecordWrite.put).map (·.upsert self collectionId)) } := by
  induction bsos generalizing db with
  | nil => rfl
  | cons bso rest ih => rw [SyncStore.writeBsos, ih]; rfl

/-- The loop of `commit_batch` is a list of record writes. -/
theorem commitItems_eq (self : SyncStore) (collectionId : ℕ) (db : Db) (items : List (BatchItemKey × BatchItem)) :
    SyncStore.commitItems self collectionId db items =
      { db with
        bso := db.bso.upsertAll
          ((items.map fun item => RecordWrite.commit item.1.id item.2).map (·.upsert self collectionId)) } := by
  induction items generalizing db with
  | nil => rfl
  | cons item rest ih => rw [SyncStore.commitItems, ih]; rfl

/-- A record after a list of writes to its collection. -/
theorem find?_writes (t : Table BsoKey BsoRow) (self : SyncStore) (collectionId : ℕ) (ws : List RecordWrite)
    (id : String) :
    (t.upsertAll (ws.map (·.upsert self collectionId))).find? ⟨self.uid, collectionId, id⟩ =
      RecordWrite.fold self id ws (t.find? ⟨self.uid, collectionId, id⟩) := by
  rw [Table.find?_upsertAll, List.filter_map, List.foldl_map, RecordWrite.fold]
  congr 1
  apply List.filter_congr
  intro w _
  simp [RecordWrite.upsert]

/-- A record of another user or another collection after it. -/
theorem find?_writes_of_ne {t : Table BsoKey BsoRow} {self : SyncStore} {collectionId : ℕ}
    {ws : List RecordWrite} {key : BsoKey} (h : key.uid ≠ self.uid ∨ key.collectionId ≠ collectionId) :
    (t.upsertAll (ws.map (·.upsert self collectionId))).find? key = t.find? key := by
  apply Table.find?_upsertAll_of_ne
  intro u hu heq
  obtain ⟨w, -, rfl⟩ := List.mem_map.mp hu
  subst heq
  simp [RecordWrite.upsert] at h

namespace RecordWrite

/-- The payload a write sends. -/
def payload : RecordWrite → Option String
  | put bso => bso.payload
  | commit _ item => item.payload

/-- The sortindex a write sends. -/
def sortindex : RecordWrite → Option ℤ
  | put bso => bso.sortindex
  | commit _ item => item.sortindex

/-- The ttl a write sends. -/
def ttl : RecordWrite → Option ℕ
  | put bso => bso.ttl
  | commit _ item => item.ttlOffset

/-- The last value that some writes send for a field. -/
def lastSent {α : Type} (field : RecordWrite → Option α) : List RecordWrite → Option α
  | [] => none
  | w :: rest => (lastSent field rest).or (field w)

/-- A row after some writes of its record. -/
def applied (self : SyncStore) (us : List RecordWrite) (row : BsoRow) : BsoRow where
  sortindex := (lastSent sortindex us).or row.sortindex
  payload := (lastSent payload us).getD row.payload
  modified := if us.any stamps then self.now else row.modified
  expiry := (lastSent ttl us).elim row.expiry fun ttl => self.now + ttl * 1000

/-- One more write before the others. -/
theorem applied_cons (self : SyncStore) (w : RecordWrite) (us : List RecordWrite) (row : BsoRow) :
    applied self (w :: us) row = applied self us (w.update self row) := by
  have hfields : (w.update self row).sortindex = w.sortindex.or row.sortindex ∧
      (w.update self row).payload = w.payload.getD row.payload ∧
      (w.update self row).expiry = w.ttl.elim row.expiry fun ttl => self.now + ttl * 1000 := by
    cases w with
    | put bso =>
      obtain ⟨id, payload, sortindex, ttl⟩ := bso
      cases ttl <;> exact ⟨rfl, rfl, rfl⟩
    | commit id item =>
      obtain ⟨sortindex, payload, ttl⟩ := item
      cases ttl <;> exact ⟨rfl, rfl, rfl⟩
  obtain ⟨hsortindex, hpayload, hexpiry⟩ := hfields
  simp only [applied, lastSent, hsortindex, hpayload, hexpiry, w.update_modified, List.any_cons, BsoRow.mk.injEq]
  refine ⟨?_, ?_, ?_, ?_⟩
  · rw [Option.or_assoc]
  · cases lastSent payload us <;> rfl
  · by_cases hw : w.stamps = true <;> by_cases hrest : us.any stamps = true <;> simp [hw, hrest]
  · cases lastSent ttl us <;> rfl

/-- Writes of a record that is there. -/
theorem foldl_row (self : SyncStore) (us : List RecordWrite) (row : BsoRow) :
    us.foldl (fun old w => some (w.row self old)) (some row) = some (applied self us row) := by
  induction us generalizing row with
  | nil => rfl
  | cons w rest ih =>
    rw [List.foldl_cons, applied_cons, ← ih]
    rfl

/-- The fold over a record that is there. -/
theorem fold_some (self : SyncStore) (id : String) (ws : List RecordWrite) (row : BsoRow) :
    fold self id ws (some row) = some (applied self (ws.filter (·.id = id)) row) := foldl_row self _ row

/-- The row of a record about which a first write says nothing. -/
def blank (self : SyncStore) (w : RecordWrite) : BsoRow where
  sortindex := none
  payload := ""
  modified := self.now
  expiry := match w with
    | put _ => self.now + defaultBsoTtl * 1000
    | commit _ _ => maxTtl * 1000

/-- A write makes a new record as if it met a blank one. -/
theorem new_eq (self : SyncStore) (w : RecordWrite) : w.new self = w.update self (w.blank self) := by
  cases w with
  | put bso =>
    obtain ⟨id, payload, sortindex, ttl⟩ := bso
    cases ttl <;> simp [new, update, blank, SyncStore.newRow, SyncStore.updateRow]
  | commit id item =>
    obtain ⟨sortindex, payload, ttl⟩ := item
    cases ttl <;> simp [new, update, blank, SyncStore.committedRow, SyncStore.mergedRow]

/-- The fold over a record that is not there: its first write meets a blank one. -/
theorem fold_none {self : SyncStore} {id : String} {ws us : List RecordWrite} {w : RecordWrite}
    (h : ws.filter (·.id = id) = w :: us) :
    fold self id ws none = some (applied self (w :: us) (w.blank self)) := by
  rw [applied_cons, ← new_eq, fold, h, List.foldl_cons]
  exact foldl_row self us (w.new self)

/-- Some write of the record moves `modified`. -/
theorem any_stamps {id : String} {ws : List RecordWrite} :
    (ws.filter (·.id = id)).any stamps = true ↔ ∃ w ∈ ws, w.id = id ∧ w.stamps = true := by
  simp

/-- A record that was there keeps its `modified` unless some write of it moves it, which then
is the instant of the request. -/
theorem fold_modified_of_some {self : SyncStore} {id : String} {ws : List RecordWrite} {r row : BsoRow}
    (h : fold self id ws (some r) = some row) :
    row.modified = if ∃ w ∈ ws, w.id = id ∧ w.stamps = true then self.now else r.modified := by
  rw [fold_some] at h
  obtain rfl := Option.some.inj h
  simp only [applied, any_stamps]

/-- A record that was not there carries the instant of the request. -/
theorem fold_modified_of_none {self : SyncStore} {id : String} {ws : List RecordWrite} {row : BsoRow}
    (h : fold self id ws none = some row) : row.modified = self.now := by
  cases hus : ws.filter (·.id = id) with
  | nil =>
    rw [fold, hus] at h
    cases h
  | cons w us =>
    rw [fold_none hus] at h
    obtain rfl := Option.some.inj h
    simp only [applied, blank, ite_self]

/-- Either way it is the instant of the request or what it was. -/
theorem fold_modified {self : SyncStore} {id : String} {ws : List RecordWrite} {old : Option BsoRow}
    {row : BsoRow} (h : fold self id ws old = some row) :
    row.modified = self.now ∨ ∃ r, old = some r ∧ row.modified = r.modified := by
  cases old with
  | none => exact Or.inl (fold_modified_of_none h)
  | some r =>
    rw [fold_modified_of_some h]
    split
    · exact Or.inl rfl
    · exact Or.inr ⟨r, rfl, rfl⟩

/-- Writes that do not move `modified` send neither payload nor sortindex. -/
theorem lastSent_of_not_stamps {us : List RecordWrite} (h : us.any stamps = false) :
    lastSent payload us = none ∧ lastSent sortindex us = none := by
  induction us with
  | nil => exact ⟨rfl, rfl⟩
  | cons w rest ih =>
    rw [List.any_cons, Bool.or_eq_false_iff] at h
    obtain ⟨hpayload, hsortindex⟩ := ih h.2
    cases w with
    | put bso =>
      have hw : bso.payload = none ∧ bso.sortindex = none := by simpa [stamps] using h.1
      simp [lastSent, hpayload, hsortindex, payload, sortindex, hw]
    | commit id item => cases h.1

/-- Writes that do not move `modified` change neither payload nor sortindex of a record. -/
theorem fold_of_not_stamps {self : SyncStore} {id : String} {ws : List RecordWrite} {r : BsoRow}
    (h : ¬∃ w ∈ ws, w.id = id ∧ w.stamps = true) :
    ∃ row, fold self id ws (some r) = some row ∧ row.payload = r.payload ∧ row.sortindex = r.sortindex ∧
      row.modified = r.modified := by
  rw [← any_stamps, Bool.not_eq_true] at h
  obtain ⟨hpayload, hsortindex⟩ := lastSent_of_not_stamps h
  refine ⟨_, fold_some self id ws r, ?_⟩
  simp only [applied, hpayload, hsortindex, h, Option.getD_none, Option.none_or, Bool.false_eq_true, if_false,
    and_self]

end RecordWrite

/-- A list of record writes to a collection, and the collection stamped. -/
def Db.written (db : Db) (self : SyncStore) (collectionId : ℕ) (ws : List RecordWrite) : Db :=
  { db with
    bso := db.bso.upsertAll (ws.map (·.upsert self collectionId))
    userCollections := db.userCollections.set ⟨self.uid, collectionId⟩ self.now }

/-- Two lists of writes at one instant are one list. -/
theorem written_written (db : Db) (self : SyncStore) (collectionId : ℕ) (ws ws' : List RecordWrite) :
    (db.written self collectionId ws).written self collectionId ws' = db.written self collectionId (ws ++ ws') := by
  have hstamp : (db.userCollections.set ⟨self.uid, collectionId⟩ self.now).set ⟨self.uid, collectionId⟩ self.now =
      db.userCollections.set ⟨self.uid, collectionId⟩ self.now := by
    apply Table.ext_find?
    intro key
    simp only [Table.find?_set]
    split <;> rfl
  simp only [Db.written, List.map_append, Table.upsertAll_append, hstamp]

/-- `put_bso` is one record write. -/
theorem putBso_eq (self : SyncStore) (db : Db) (name : String) (bso : PostedBso) :
    SyncStore.putBso self db name bso.id bso.payload bso.sortindex bso.ttl =
      (self.now, (db.ensure name).written self (db.idFor name) [.put bso]) := rfl

/-- `post_bsos` past its guard is a list of record writes. -/
theorem postBsos_stamped (self : SyncStore) (db : Db) (name : String) (bsos : List PostedBso) :
    SyncStore.postBsos self db name bsos true =
      .ok (self.now, (db.ensure name).written self (db.idFor name) (bsos.map .put)) := by
  unfold SyncStore.postBsos
  rw [getOrCreateCollectionId_eq]
  simp only [writeBsos_eq]
  rfl

/-- With its guard, `post_bsos` raises or does the same. -/
theorem postBsos_eq_ok {self : SyncStore} {db : Db} {name : String} {bsos : List PostedBso} {result : ℕ × Db}
    (h : SyncStore.postBsos self db name bsos false = .ok result) :
    result = (self.now, (db.ensure name).written self (db.idFor name) (bsos.map .put)) := by
  unfold SyncStore.postBsos at h
  rw [getOrCreateCollectionId_eq] at h
  simp only [Bool.not_false, if_true, bind_eq_ok, Except.ok.injEq, writeBsos_eq] at h
  obtain ⟨_, -, h⟩ := h
  exact h.symm

/-- `commit_batch` is the list of writes staged under the batch, which is then gone. -/
theorem commitBatch_eq_ok {self : SyncStore} {db : Db} {name batch : String} {result : ℕ × Db}
    (h : SyncStore.commitBatch self db name batch = .ok result) :
    ∃ batchId, decodeBatchId batch = .ok batchId ∧ result = (self.now, SyncStore.deleteBatch self
      ((db.ensure name).written self (db.idFor name) ((SyncStore.stagedItems self db batchId).map
        fun item => .commit item.1.id item.2)) batchId) := by
  unfold SyncStore.commitBatch at h
  simp only [bind_eq_ok, getOrCreateCollectionId_eq] at h
  obtain ⟨batchId, hdecode, h⟩ := h
  split at h
  · simp at h
  · simp only [Except.ok.injEq, commitItems_eq] at h
    refine ⟨batchId, hdecode, ?_⟩
    rw [← h]
    simp [Db.written, SyncStore.updateCollection, SyncStore.stagedItems]

/-! ### Deletes -/

/-- The records of a collection named by a list of ids. -/
def named (uid collectionId : ℕ) (ids : List String) (key : BsoKey) (_ : BsoRow) : Bool :=
  key.uid = uid && key.collectionId = collectionId && ids.contains key.id

/-- The records of a collection. -/
def inCollection (uid collectionId : ℕ) (key : BsoKey) (_ : BsoRow) : Bool :=
  key.uid = uid && key.collectionId = collectionId

/-- `delete_bso` ends well where an unexpired record is there, and removes it. -/
theorem deleteBso_eq_ok {self : SyncStore} {db : Db} {name id : String} {result : ℕ × Db}
    (h : SyncStore.deleteBso self db name id = .ok result) :
    ∃ collectionId row, db.collections.idxOf? name = some collectionId ∧
      db.bso.find? ⟨self.uid, collectionId, id⟩ = some row ∧ self.now < row.expiry ∧
      result = (self.now, SyncStore.updateCollection self
        { db with bso := db.bso.deleteWhere (named self.uid collectionId [id]) } collectionId) := by
  unfold SyncStore.deleteBso at h
  simp only [bind_eq_ok] at h
  obtain ⟨collectionId, hid, h⟩ := h
  split at h
  · simp at h
  · rename_i hfound
    rw [Table.count_eq_zero_iff] at hfound
    push Not at hfound
    obtain ⟨key, row, hrow, hdoomed⟩ := hfound
    simp only [ne_eq, Bool.not_eq_false, Bool.and_eq_true, decide_eq_true_eq] at hdoomed
    obtain ⟨rfl, halive⟩ := hdoomed
    refine ⟨collectionId, row, collectionId_eq_ok.mp hid, hrow, halive, ?_⟩
    rw [← Except.ok.inj h]
    -- the row was found unexpired, so the expiry makes no difference to what is deleted
    have hsame : (db.bso.deleteWhere fun key row =>
          key = ⟨self.uid, collectionId, id⟩ && self.now < row.expiry) =
        db.bso.deleteWhere (named self.uid collectionId [id]) := by
      apply Table.ext_find?
      intro key
      simp only [Table.find?_deleteWhere]
      by_cases hkey : key = ⟨self.uid, collectionId, id⟩
      · subst hkey
        simp [hrow, named, halive]
      · have hother : ∀ row, named self.uid collectionId [id] key row = false := by
          intro row
          cases key
          simp_all [named]
        simp [hkey, hother]
    rw [hsame]

/-- What `delete_bsos` does with a list of ids. -/
theorem deleteBsos_eq_ok {self : SyncStore} {db : Db} {name : String} {ids : List String} {result : ℕ × Db}
    (hids : ids.isEmpty = false) (h : SyncStore.deleteBsos self db name ids = .ok result) :
    ∃ collectionId, db.collections.idxOf? name = some collectionId ∧
      result = (self.now, SyncStore.updateCollection self
        { db with bso := db.bso.deleteWhere (named self.uid collectionId ids) } collectionId) := by
  unfold SyncStore.deleteBsos at h
  simp only [bind_eq_ok] at h
  obtain ⟨collectionId, hid, h⟩ := h
  rw [hids] at h
  exact ⟨collectionId, collectionId_eq_ok.mp hid, (Except.ok.inj h).symm⟩

/-- What `delete_collection` does where there is something to delete. -/
theorem deleteCollection_eq_ok {self : SyncStore} {db : Db} {name : String} {result : ℕ × Db}
    (h : SyncStore.deleteCollection self db name = .ok result) :
    ∃ collectionId, db.collections.idxOf? name = some collectionId ∧
      result.2 = SyncStore.updateCollection self
        { db with
          bso := db.bso.deleteWhere (inCollection self.uid collectionId)
          userCollections := db.userCollections.deleteWhere
            fun key _ => key = ⟨self.uid, collectionId⟩ } tombstone ∧
      result.1 = SyncStore.storageTimestamp self result.2 := by
  unfold SyncStore.deleteCollection at h
  simp only [bind_eq_ok] at h
  obtain ⟨collectionId, hid, h⟩ := h
  split at h
  · simp at h
  · rw [← Except.ok.inj h]
    exact ⟨collectionId, collectionId_eq_ok.mp hid, rfl, rfl⟩

/-! ### Batches -/

/-- The id `create_batch` settles on is the first free one of five. -/
theorem allocateBatch_eq_ok {self : SyncStore} {db : Db} {collectionId tries batchId : ℕ} {result : ℕ × Db}
    (h : SyncStore.allocateBatch self db collectionId tries batchId = .ok result) :
    batchId ≤ result.1 ∧ result.1 < batchId + tries ∧ db.batches.find? ⟨self.uid, result.1⟩ = none ∧
      result.2 = { db with batches := db.batches.set ⟨self.uid, result.1⟩ collectionId } := by
  induction tries generalizing batchId with
  | zero => simp [SyncStore.allocateBatch] at h
  | succ tries ih =>
    rw [SyncStore.allocateBatch] at h
    split at h
    · obtain ⟨hle, hlt, hfree, hdb⟩ := ih h
      exact ⟨by omega, by omega, hfree, hdb⟩
    · rename_i hfree
      cases h
      exact ⟨le_rfl, by simp, by simpa using hfree, rfl⟩

/-- What `create_batch` does. -/
theorem createBatch_eq_ok {self : SyncStore} {db : Db} {name : String} {result : String × Db}
    (h : SyncStore.createBatch self db name = .ok result) :
    ∃ batchId, self.now ≤ batchId ∧ batchId < self.now + maxBatchCreateRetry ∧
      db.batches.find? ⟨self.uid, batchId⟩ = none ∧ result.1 = encodeBatchId batchId ∧
      result.2 = { db.ensure name with
        batches := db.batches.set ⟨self.uid, batchId⟩ (db.idFor name) } := by
  unfold SyncStore.createBatch at h
  simp only [getOrCreateCollectionId_eq, bind_eq_ok] at h
  obtain ⟨⟨batchId, opened⟩, hallocate, h⟩ := h
  obtain ⟨hle, hlt, hfree, hdb⟩ := allocateBatch_eq_ok hallocate
  simp only [Except.ok.injEq] at h
  rw [ensure_batches] at hfree
  refine ⟨batchId, hle, hlt, hfree, ?_, ?_⟩
  · rw [← h]
  · rw [← h]
    simpa using hdb

/-- What `validate_batch` accepts: a live id, open for the collection. -/
theorem validateBatch_eq_true {self : SyncStore} {db : Db} {name batch : String}
    (h : SyncStore.validateBatch self db name batch = .ok true) :
    ∃ batchId collectionId, decodeBatchId batch = .ok batchId ∧ self.now ≤ batchId + batchLifetimeMs ∧
      db.collections.idxOf? name = some collectionId ∧
      db.batches.find? ⟨self.uid, batchId⟩ = some collectionId := by
  unfold SyncStore.validateBatch at h
  simp only [bind_eq_ok] at h
  obtain ⟨batchId, hdecode, h⟩ := h
  split at h
  · simp at h
  · rename_i hlive
    split at h
    · simp at h
    · rename_i collectionId hid
      split at h
      · simp at h
      · simp only [Except.ok.injEq, decide_eq_true_eq] at h
        exact ⟨batchId, collectionId, hdecode, not_lt.mp hlive, collectionId_eq_ok.mp hid, h⟩

/-- Staging records touches nothing but the items of batches. -/
theorem stageBsos_eq (self : SyncStore) (batchId : ℤ) (db : Db) (bsos : List PostedBso) :
    SyncStore.stageBsos self batchId db bsos =
      { db with batchItems := (SyncStore.stageBsos self batchId db bsos).batchItems } := by
  induction bsos generalizing db with
  | nil => rfl
  | cons bso rest ih =>
    rw [SyncStore.stageBsos, ih]

/-- What `append_to_batch` does. -/
theorem appendToBatch_eq_ok {self : SyncStore} {db db' : Db} {name batch : String} {bsos : List PostedBso}
    (h : SyncStore.appendToBatch self db name batch bsos = .ok db') :
    SyncStore.validateBatch self db name batch = .ok true ∧
      ∃ batchId, decodeBatchId batch = .ok batchId ∧ db' = SyncStore.stageBsos self batchId db bsos := by
  unfold SyncStore.appendToBatch at h
  simp only [bind_eq_ok] at h
  obtain ⟨valid, hvalid, h⟩ := h
  cases valid with
  | false => simp at h
  | true =>
    simp only [Bool.not_true, Bool.false_eq_true, if_false, bind_eq_ok, Except.ok.injEq] at h
    obtain ⟨batchId, hdecode, h⟩ := h
    exact ⟨hvalid, batchId, hdecode, h.symm⟩

/-- How a batched POST ends that does not raise. The batch is a new one or a valid one; the
records are staged, or the batch is committed and then they are written. -/
theorem postBatch_eq_ok {self : SyncStore} {name : String} {batch : BatchRequest} {bsos : PostedBsos}
    {db db' : Db} {answer : Response} (h : postBatch self name batch bsos db = .ok (answer, db')) :
    ∃ identifier opened,
      ((batch.id = none ∧ SyncStore.createBatch self db name = .ok (identifier, opened)) ∨
        (batch.id = some identifier ∧ opened = db ∧ SyncStore.validateBatch self db name identifier = .ok true)) ∧
      ((batch.commit = false ∧
          answer = { status := 202, body := .staged identifier (bsos.valid.map PostedBso.id) bsos.invalid } ∧
          ((bsos.valid = [] ∧ db' = opened) ∨
            SyncStore.appendToBatch self opened name identifier bsos.valid = .ok db')) ∨
        (batch.commit = true ∧ ∃ modified committed,
          SyncStore.commitBatch self opened name identifier = .ok (modified, committed) ∧
          ((bsos.valid = [] ∧ answer = postedResponse modified bsos ∧ db' = committed) ∨
            ∃ modified', SyncStore.postBsos self committed name bsos.valid true = .ok (modified', db') ∧
              answer = postedResponse modified' bsos))) := by
  unfold postBatch at h
  simp only [bind_eq_ok] at h
  obtain ⟨⟨identifier, opened⟩, hopen, staged, hstage, h⟩ := h
  refine ⟨identifier, opened, ?_, ?_⟩
  · cases hid : batch.id with
    | none =>
      simp only [hid] at hopen
      exact Or.inl ⟨rfl, hopen⟩
    | some id =>
      simp only [hid, bind_eq_ok] at hopen
      obtain ⟨valid, hvalid, hopen⟩ := hopen
      cases valid with
      | false => simp at hopen
      | true =>
        simp only [if_true, Except.ok.injEq, Prod.mk.injEq] at hopen
        obtain ⟨rfl, rfl⟩ := hopen
        exact Or.inr ⟨rfl, rfl, hvalid⟩
  · cases hcommit : batch.commit with
    | false =>
      simp only [hcommit, Bool.not_false, if_true, Except.ok.injEq, Prod.mk.injEq] at h
      obtain ⟨rfl, rfl⟩ := h
      refine Or.inl ⟨rfl, rfl, ?_⟩
      cases hvalid : bsos.valid with
      | nil =>
        simp only [hvalid, hcommit, List.isEmpty_nil, Bool.not_true, Bool.false_and, Bool.false_eq_true, if_false,
          Except.ok.injEq] at hstage
        exact Or.inl ⟨rfl, hstage.symm⟩
      | cons bso rest =>
        simp only [hvalid, hcommit, List.isEmpty_cons, Bool.not_false, Bool.and_self, if_true] at hstage
        exact Or.inr hstage
    | true =>
      have hsame : staged = opened := by
        simpa [hcommit, eq_comm] using hstage
      subst hsame
      simp only [hcommit, Bool.not_true, Bool.false_eq_true, if_false, bind_eq_ok] at h
      obtain ⟨⟨modified, committed⟩, hcommitted, h⟩ := h
      refine Or.inr ⟨rfl, modified, committed, hcommitted, ?_⟩
      cases hvalid : bsos.valid with
      | nil =>
        simp only [hvalid, List.isEmpty_nil, if_true, Except.ok.injEq, Prod.mk.injEq] at h
        exact Or.inl ⟨rfl, h.1.symm, h.2.symm⟩
      | cons bso rest =>
        simp only [hvalid, List.isEmpty_cons, Bool.false_eq_true, if_false, bind_eq_ok] at h
        obtain ⟨⟨modified', after⟩, hpost, h⟩ := h
        simp only [Except.ok.injEq, Prod.mk.injEq] at h
        obtain ⟨rfl, rfl⟩ := h
        exact Or.inr ⟨modified', hpost, rfl⟩

end FxaLite.SyncStorage
