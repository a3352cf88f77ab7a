import FxaLite.SyncStorage.Reads

/-!
# What the writes make of a user's part

A write to a collection carried out in two databases, of which one shadows the other, goes to
the id that each has for the collection's name. It succeeds in both or raises the same in both,
has the same value, and leaves a shadow. One lemma for each table says when a change of its rows
does, and one for each method that it makes such a change.
-/

namespace FxaLite.SyncStorage

open Relational Reactive Fallible

/-! ### Changes of one table -/

section Tables

variable {uid : ℕ} {db alone : Db} {name : String} {c c' : ℕ}

/-- The same change of the timestamp of one collection. -/
theorem Shadow.withStamps (shadow : Shadow uid db alone) (hc : db.collections.idxOf? name = some c)
    (hc' : alone.collections.idxOf? name = some c') (change : Option ℕ → Option ℕ) {t t' : Table UserCollectionKey ℕ}
    (ht : ∀ k, t.find? ⟨uid, k⟩ =
      if k = c then change (db.userCollections.find? ⟨uid, k⟩) else db.userCollections.find? ⟨uid, k⟩)
    (ht' : ∀ k, t'.find? ⟨uid, k⟩ =
      if k = c' then change (alone.userCollections.find? ⟨uid, k⟩) else alone.userCollections.find? ⟨uid, k⟩) :
    Shadow uid { db with userCollections := t } { alone with userCollections := t' } := by
  have known : ∀ {names : List String} {id k s : ℕ} {old new : Table UserCollectionKey ℕ},
      names.idxOf? name = some id → (∀ {k s}, old.find? ⟨uid, k⟩ = some s → k < names.length) →
      new.find? ⟨uid, k⟩ = (if k = id then change (old.find? ⟨uid, k⟩) else old.find? ⟨uid, k⟩) →
      new.find? ⟨uid, k⟩ = some s → k < names.length := by
    intro names id k s old new hid hold hnew hs
    by_cases hk : k = id
    · exact hk ▸ (List.idxOf?_eq_some_iff.mp hid).1
    · rw [hnew, if_neg hk] at hs
      exact hold hs
  exact {
    named := { shadow.named with stampKnown := fun hs => known hc shadow.named.stampKnown (ht _) hs }
    namedAlone := { shadow.namedAlone with stampKnown := fun hs => known hc' shadow.namedAlone.stampKnown (ht' _) hs }
    subset := shadow.subset
    stamps := fun other => by
      have hold := shadow.stamps other
      unfold Db.stamp at hold ⊢
      rw [bind_idxOf?_of_local hc ht, bind_idxOf?_of_local hc' ht', hold]
    records := shadow.records
    batches := shadow.batches
    items := shadow.items }

/-- The same change of the records of one collection. -/
theorem Shadow.withRecords (shadow : Shadow uid db alone) (hc : db.collections.idxOf? name = some c)
    (hc' : alone.collections.idxOf? name = some c') (change : String → Option BsoRow → Option BsoRow)
    {t t' : Table BsoKey BsoRow}
    (ht : ∀ id k, t.find? ⟨uid, k, id⟩ =
      if k = c then change id (db.bso.find? ⟨uid, k, id⟩) else db.bso.find? ⟨uid, k, id⟩)
    (ht' : ∀ id k, t'.find? ⟨uid, k, id⟩ =
      if k = c' then change id (alone.bso.find? ⟨uid, k, id⟩) else alone.bso.find? ⟨uid, k, id⟩) :
    Shadow uid { db with bso := t } { alone with bso := t' } := by
  have known : ∀ {names : List String} {id : String} {i k : ℕ} {row : BsoRow} {old new : Table BsoKey BsoRow},
      names.idxOf? name = some i → (∀ {k id row}, old.find? ⟨uid, k, id⟩ = some row → k < names.length) →
      new.find? ⟨uid, k, id⟩ =
        (if k = i then change id (old.find? ⟨uid, k, id⟩) else old.find? ⟨uid, k, id⟩) →
      new.find? ⟨uid, k, id⟩ = some row → k < names.length := by
    intro names id i k row old new hid hold hnew hrow
    by_cases hk : k = i
    · exact hk ▸ (List.idxOf?_eq_some_iff.mp hid).1
    · rw [hnew, if_neg hk] at hrow
      exact hold hrow
  exact {
    named := { shadow.named with recordKnown := fun hrow => known hc shadow.named.recordKnown (ht _ _) hrow }
    namedAlone := { shadow.namedAlone with
      recordKnown := fun hrow => known hc' shadow.namedAlone.recordKnown (ht' _ _) hrow }
    subset := shadow.subset
    stamps := shadow.stamps
    records := fun other id => by
      have hold := shadow.records other id
      unfold Db.record at hold ⊢
      rw [bind_idxOf?_of_local hc (ht id), bind_idxOf?_of_local hc' (ht' id), hold]
    batches := shadow.batches
    items := shadow.items }

/-- Batches of the same collections. -/
theorem Shadow.withBatches (shadow : Shadow uid db alone) {t t' : Table BatchKey ℕ}
    (known : ∀ {batchId k}, t.find? ⟨uid, batchId⟩ = some k → k < db.collections.length)
    (known' : ∀ {batchId k}, t'.find? ⟨uid, batchId⟩ = some k → k < alone.collections.length)
    (h : ∀ batchId, (t.find? ⟨uid, batchId⟩).map (SyncStore.collectionName db) =
      (t'.find? ⟨uid, batchId⟩).map (SyncStore.collectionName alone)) :
    Shadow uid { db with batches := t } { alone with batches := t' } :=
  { shadow with
    named := { shadow.named with batchKnown := known }
    namedAlone := { shadow.namedAlone with batchKnown := known' }
    batches := h }

/-- The same staged items. -/
theorem Shadow.withItems (shadow : Shadow uid db alone) {t r : Table BatchItemKey BatchItem}
    (h : ∀ batchId id, t.find? ⟨uid, batchId, id⟩ = r.find? ⟨uid, batchId, id⟩) :
    Shadow uid { db with batchItems := t } { alone with batchItems := r } :=
  { shadow with
    named := { shadow.named with }
    namedAlone := { shadow.namedAlone with }
    items := h }

end Tables

/-! ### The name of a write -/

/-- A shadow in which the name of a collection is known, and in the database too. -/
structure Paired (uid : ℕ) (name : String) (c c' : ℕ) (db alone : Db) : Prop extends Shadow uid db alone where
  known : db.collections.idxOf? name = some c
  knownAlone : alone.collections.idxOf? name = some c'

/-- More names in a database keep it named. -/
theorem Db.Named.ensure {uid : ℕ} {db : Db} (named : db.Named uid) (name : String) : (db.ensure name).Named uid := by
  have same : SameRows uid db (db.ensure name) :=
    ⟨by simp, by simp, by simp, by simp⟩
  exact same.named named (prefix_ensure db name) (nodup_ensure named.nodup name)

/-- The names once one of them is made sure of. -/
theorem mem_ensure_iff {db : Db} {name other : String} :
    other ∈ (db.ensure name).collections ↔ other ∈ db.collections ∨ other = name := by
  cases hid : db.collections.idxOf? name with
  | some c =>
    have hmem : name ∈ db.collections := List.isSome_idxOf?.mp (by rw [hid]; rfl)
    rw [(ensure_of_known hid).1]
    constructor
    · exact Or.inl
    · rintro (h | rfl)
      · exact h
      · exact hmem
  | none =>
    rw [(ensure_of_unknown hid).1]
    simp

/-- Once both have made sure of a name, a shadow is still one. -/
theorem Shadow.ensure {uid : ℕ} {db alone : Db} (shadow : Shadow uid db alone) (name : String) :
    Paired uid name (db.idFor name) (alone.idFor name) (db.ensure name) (alone.ensure name) := by
  have same : ∀ db : Db, SameRows uid db (db.ensure name) := fun db =>
    ⟨by simp, by simp, by simp, by simp⟩
  have view : ∀ {db : Db}, db.Named uid → (∀ other, (db.ensure name).stamp uid other = db.stamp uid other) ∧
      (∀ other id, (db.ensure name).record uid other id = db.record uid other id) ∧
      ∀ batchId, (db.ensure name).batchName uid batchId = db.batchName uid batchId := by
    intro db named
    have hself : Shadow uid db db := ⟨named, named, List.Subset.refl _, fun _ => rfl, fun _ _ => rfl, fun _ => rfl,
      fun _ _ => rfl⟩
    have hensured := hself.of_sameRows (same db) (prefix_ensure db name) (nodup_ensure named.nodup name)
    exact ⟨hensured.stamps, hensured.records, hensured.batches⟩
  obtain ⟨hstamps, hrecords, hbatches⟩ := view shadow.named
  obtain ⟨hstamps', hrecords', hbatches'⟩ := view shadow.namedAlone
  exact {
    named := shadow.named.ensure name
    namedAlone := shadow.namedAlone.ensure name
    subset := by
      intro other h
      exact mem_ensure_iff.mpr ((mem_ensure_iff.mp h).imp_left fun hold => shadow.subset hold)
    stamps := fun other => by rw [hstamps, hstamps', shadow.stamps]
    records := fun other id => by rw [hrecords, hrecords', shadow.records]
    batches := fun batchId => by rw [hbatches, hbatches', shadow.batches]
    items := fun batchId id => by
      rw [ensure_batchItems, ensure_batchItems, shadow.items]
    known := idxOf?_ensure db name
    knownAlone := idxOf?_ensure alone name }

/-- A method has the same value in both, and leaves a shadow. -/
def Outcome {α : Type} (uid : ℕ) (name : String) (c c' : ℕ) (x y : α × Db) : Prop :=
  x.1 = y.1 ∧ Paired uid name c c' x.2 y.2

namespace Paired

variable {self : SyncStore} {name : String} {c c' : ℕ} {db alone : Db}

/-- Its timestamp, under the ids. -/
theorem stamp (h : Paired self.uid name c c' db alone) :
    db.userCollections.find? ⟨self.uid, c⟩ = alone.userCollections.find? ⟨self.uid, c'⟩ := by
  have hstamp := h.stamps name
  unfold Db.stamp at hstamp
  rwa [h.known, h.knownAlone] at hstamp

/-- Its records, under the ids. -/
theorem record (h : Paired self.uid name c c' db alone) (id : String) :
    db.bso.find? ⟨self.uid, c, id⟩ = alone.bso.find? ⟨self.uid, c', id⟩ := by
  have hrecord := h.records name id
  unfold Db.record at hrecord
  rwa [h.known, h.knownAlone] at hrecord

/-- The ids that a method finds or makes. -/
theorem ids (h : Paired self.uid name c c' db alone) :
    SyncStore.getOrCreateCollectionId db name = (c, db) ∧ SyncStore.getOrCreateCollectionId alone name = (c', alone) := by
  rw [getOrCreateCollectionId_eq, getOrCreateCollectionId_eq, (ensure_of_known h.known).1, (ensure_of_known h.known).2,
    (ensure_of_known h.knownAlone).1, (ensure_of_known h.knownAlone).2]
  exact ⟨rfl, rfl⟩

/-- A timestamp that is set. -/
theorem setStamp (shadow : Shadow self.uid db alone) (hc : db.collections.idxOf? name = some c)
    (hc' : alone.collections.idxOf? name = some c') (s : ℕ) :
    Shadow self.uid { db with userCollections := db.userCollections.set ⟨self.uid, c⟩ s }
      { alone with userCollections := alone.userCollections.set ⟨self.uid, c'⟩ s } := by
  apply shadow.withStamps hc hc' fun _ => some s
  · intro k
    rw [find?_set_stamp]
    simp
  · intro k
    rw [find?_set_stamp]
    simp

/-- Some record writes, and the collection stamped. -/
theorem written (h : Paired self.uid name c c' db alone) (ws : List RecordWrite) :
    Paired self.uid name c c' (db.written self c ws) (alone.written self c' ws) := by
  have hwrites : ∀ (t : Table BsoKey BsoRow) (i : ℕ) (id : String) (k : ℕ),
      (t.upsertAll (ws.map (·.upsert self i))).find? ⟨self.uid, k, id⟩ =
        if k = i then RecordWrite.fold self id ws (t.find? ⟨self.uid, k, id⟩) else t.find? ⟨self.uid, k, id⟩ := by
    intro t i id k
    by_cases hk : k = i
    · rw [if_pos hk, hk, find?_writes]
    · rw [if_neg hk, find?_writes_of_ne (Or.inr hk)]
  have hrecords := h.toShadow.withRecords h.known h.knownAlone _ (hwrites db.bso c) (hwrites alone.bso c')
  exact ⟨setStamp hrecords h.known h.knownAlone self.now, h.known, h.knownAlone⟩

/-- The collection stamped. -/
theorem updateCollection (h : Paired self.uid name c c' db alone) :
    Paired self.uid name c c' (SyncStore.updateCollection self db c) (SyncStore.updateCollection self alone c') :=
  ⟨setStamp h.toShadow h.known h.knownAlone self.now, h.known, h.knownAlone⟩

/-- Records of the collection deleted by their ids and their contents. -/
theorem deleteRecords (h : Paired self.uid name c c' db alone) {p r : BsoKey → BsoRow → Bool}
    {q : String → BsoRow → Bool} (hp : ∀ id k row, p ⟨self.uid, k, id⟩ row = (k = c && q id row))
    (hr : ∀ id k row, r ⟨self.uid, k, id⟩ row = (k = c' && q id row)) :
    Paired self.uid name c c' { db with bso := db.bso.deleteWhere p }
      { alone with bso := alone.bso.deleteWhere r } := by
  have hdelete : ∀ (t : Table BsoKey BsoRow) {i : ℕ} {d : BsoKey → BsoRow → Bool},
      (∀ id k row, d ⟨self.uid, k, id⟩ row = (k = i && q id row)) → ∀ id k,
      (t.deleteWhere d).find? ⟨self.uid, k, id⟩ =
        if k = i then (t.find? ⟨self.uid, k, id⟩).filter (fun row => !q id row) else t.find? ⟨self.uid, k, id⟩ := by
    intro t i d hd id k
    rw [Table.find?_deleteWhere]
    simp only [hd]
    by_cases hk : k = i
    · simp [hk]
    · cases t.find? ⟨self.uid, k, id⟩ <;> simp [hk]
  exact ⟨h.toShadow.withRecords h.known h.knownAlone (fun id old => old.filter fun row => !q id row)
    (hdelete db.bso hp) (hdelete alone.bso hr), h.known, h.knownAlone⟩
/-- `put_bso`. -/
theorem putBso (h : Paired self.uid name c c' db alone) (bso : PostedBso) :
    Outcome self.uid name c c' (SyncStore.putBso self db name bso.id bso.payload bso.sortindex bso.ttl)
      (SyncStore.putBso self alone name bso.id bso.payload bso.sortindex bso.ttl) := by
  rw [putBso_eq, putBso_eq, (ensure_of_known h.known).1, (ensure_of_known h.known).2,
    (ensure_of_known h.knownAlone).1, (ensure_of_known h.knownAlone).2]
  exact ⟨rfl, h.written _⟩

/-- The guard of a write lets through the same. -/
theorem checkWrite (h : Paired self.uid name c c' db alone) :
    SyncStore.checkWrite self db c = SyncStore.checkWrite self alone c' := by
  unfold SyncStore.checkWrite
  rw [h.stamp]

/-- `post_bsos`. -/
theorem postBsos (h : Paired self.uid name c c' db alone) (bsos : List PostedBso) (stamped : Bool) :
    Related (Outcome self.uid name c c') (SyncStore.postBsos self db name bsos stamped)
      (SyncStore.postBsos self alone name bsos stamped) := by
  unfold SyncStore.postBsos
  rw [h.ids.1, h.ids.2]
  have hposted : Related (Outcome self.uid name c c')
      (.ok (self.now, SyncStore.updateCollection self (SyncStore.writeBsos self c db bsos) c))
      (.ok (self.now, SyncStore.updateCollection self (SyncStore.writeBsos self c' alone bsos) c') : Except Raised _) := by
    rw [writeBsos_eq, writeBsos_eq]
    exact .ok ⟨rfl, h.written (bsos.map .put)⟩
  cases stamped with
  | true => exact hposted
  | false =>
    simp only [Bool.not_false, if_true, h.checkWrite]
    cases SyncStore.checkWrite self alone c' with
    | error e => exact .error e
    | ok _ => exact hposted

/-- `delete_bso`. -/
theorem deleteBso (h : Paired self.uid name c c' db alone) (id : String) :
    Related (Outcome self.uid name c c') (SyncStore.deleteBso self db name id)
      (SyncStore.deleteBso self alone name id) := by
  have hcount : ∀ (t : Table BsoKey BsoRow) (i : ℕ),
      (t.count fun key row => key = ⟨self.uid, i, id⟩ && self.now < row.expiry) = 0 ↔
        (t.find? ⟨self.uid, i, id⟩).filter (BsoRow.alive self.now) = none := by
    intro t i
    rw [Table.count_eq_zero_iff, Option.filter_eq_none_iff]
    constructor
    · intro hnone row hrow
      simpa [BsoRow.alive] using hnone _ row hrow
    · intro hnone key row hrow
      by_cases hkey : key = ⟨self.uid, i, id⟩
      · subst hkey
        simpa [BsoRow.alive] using hnone row hrow
      · simp [hkey]
  unfold SyncStore.deleteBso
  rw [collectionId_eq_ok.mpr h.known, collectionId_eq_ok.mpr h.knownAlone]
  simp only [ok_bind, hcount, h.record]
  split
  · exact .error _
  · refine .ok ⟨rfl, (h.deleteRecords (q := fun i row => i = id && self.now < row.expiry) ?_ ?_).updateCollection⟩
    · intro i k row
      simp [Bool.and_assoc]
    · intro i k row
      simp [Bool.and_assoc]

/-- `delete_bsos`. -/
theorem deleteBsos (h : Paired self.uid name c c' db alone) (ids : List String) :
    Related (Outcome self.uid name c c') (SyncStore.deleteBsos self db name ids)
      (SyncStore.deleteBsos self alone name ids) := by
  unfold SyncStore.deleteBsos
  rw [collectionId_eq_ok.mpr h.known, collectionId_eq_ok.mpr h.knownAlone]
  simp only [ok_bind]
  split
  · exact .ok ⟨rfl, h.updateCollection⟩
  · refine .ok ⟨rfl, (h.deleteRecords (q := fun id _ => ids.contains id) ?_ ?_).updateCollection⟩
    · intro id k row
      simp
    · intro id k row
      simp

/-- What there is to delete of a collection. -/
theorem count_collection (h : Paired self.uid name c c' db alone) :
    (db.bso.count fun key _ => key.uid = self.uid && key.collectionId = c) +
        (db.userCollections.count fun key _ => key = ⟨self.uid, c⟩) = 0 ↔
      (alone.bso.count fun key _ => key.uid = self.uid && key.collectionId = c') +
        (alone.userCollections.count fun key _ => key = ⟨self.uid, c'⟩) = 0 := by
  have hzero : ∀ (db : Db) (i : ℕ), (db.bso.count fun key _ => key.uid = self.uid && key.collectionId = i) +
        (db.userCollections.count fun key _ => key = ⟨self.uid, i⟩) = 0 ↔
      (∀ id, db.bso.find? ⟨self.uid, i, id⟩ = none) ∧ db.userCollections.find? ⟨self.uid, i⟩ = none := by
    intro db i
    rw [Nat.add_eq_zero_iff, Table.count_eq_zero_iff, Table.count_eq_zero_iff]
    apply and_congr
    · constructor
      · intro hnone id
        cases hrow : db.bso.find? ⟨self.uid, i, id⟩ with
        | none => rfl
        | some row => simpa using hnone _ row hrow
      · rintro hnone ⟨uid, k, id⟩ row hrow
        by_contra hdoomed
        obtain ⟨rfl, rfl⟩ : uid = self.uid ∧ k = i := by simpa using hdoomed
        simp [hnone] at hrow
    · constructor
      · intro hnone
        cases hs : db.userCollections.find? ⟨self.uid, i⟩ with
        | none => rfl
        | some s => simpa using hnone _ s hs
      · intro hnone key s hs
        by_contra hdoomed
        obtain rfl : key = ⟨self.uid, i⟩ := by simpa using hdoomed
        simp [hnone] at hs
  rw [hzero, hzero, h.stamp]
  simp only [h.record]

/-- `delete_collection`. -/
theorem deleteCollection (h : Paired self.uid name c c' db alone) :
    Related (Outcome self.uid name c c') (SyncStore.deleteCollection self db name)
      (SyncStore.deleteCollection self alone name) := by
  have hdrop : ∀ (t : Table UserCollectionKey ℕ) (i k : ℕ),
      (t.deleteWhere fun key _ => key = ⟨self.uid, i⟩).find? ⟨self.uid, k⟩ =
        if k = i then none else t.find? ⟨self.uid, k⟩ := by
    intro t i k
    rw [find?_delete_stamp]
    simp
  unfold SyncStore.deleteCollection
  rw [collectionId_eq_ok.mpr h.known, collectionId_eq_ok.mpr h.knownAlone]
  simp only [ok_bind, h.count_collection]
  split
  · exact .error _
  · have hrecords := h.deleteRecords (p := fun key _ => key.uid = self.uid && key.collectionId = c)
      (r := fun key _ => key.uid = self.uid && key.collectionId = c') (q := fun _ _ => true)
      (by intro id k row; simp) (by intro id k row; simp)
    have hstamps := hrecords.toShadow.withStamps h.known h.knownAlone (fun _ => none)
      (hdrop db.userCollections c) (hdrop alone.userCollections c')
    have hmarked := setStamp hstamps h.named.idxOf?_empty h.namedAlone.idxOf?_empty self.now
    exact .ok ⟨hmarked.storageTimestamp, hmarked, h.known, h.knownAlone⟩

/-! ### Batches -/

/-- `validate_batch`. -/
theorem validateBatch (h : Paired self.uid name c c' db alone) (batch : String) :
    SyncStore.validateBatch self db name batch = SyncStore.validateBatch self alone name batch := by
  have hopen : ∀ batchId : ℤ, db.batches.find? ⟨self.uid, batchId⟩ = some c ↔
      alone.batches.find? ⟨self.uid, batchId⟩ = some c' := by
    intro batchId
    rw [h.named.batch_iff h.known, h.namedAlone.batch_iff h.knownAlone, h.batches]
  unfold SyncStore.validateBatch
  rw [collectionId_eq_ok.mpr h.known, collectionId_eq_ok.mpr h.knownAlone]
  simp only [hopen]

/-- A batch opened under a free id. -/
theorem openBatch (h : Paired self.uid name c c' db alone) (batchId : ℤ) :
    Paired self.uid name c c' { db with batches := db.batches.set ⟨self.uid, batchId⟩ c }
      { alone with batches := alone.batches.set ⟨self.uid, batchId⟩ c' } := by
  have hset : ∀ (t : Table BatchKey ℕ) (i : ℕ) (other : ℤ), (t.set ⟨self.uid, batchId⟩ i).find? ⟨self.uid, other⟩ =
      if other = batchId then some i else t.find? ⟨self.uid, other⟩ := by
    intro t i other
    simp
  refine ⟨h.toShadow.withBatches ?_ ?_ ?_, h.known, h.knownAlone⟩
  · intro other k hk
    rw [hset] at hk
    split at hk
    · obtain rfl := Option.some.inj hk
      exact (List.idxOf?_eq_some_iff.mp h.known).1
    · exact h.named.batchKnown hk
  · intro other k hk
    rw [hset] at hk
    split at hk
    · obtain rfl := Option.some.inj hk
      exact (List.idxOf?_eq_some_iff.mp h.knownAlone).1
    · exact h.namedAlone.batchKnown hk
  · intro other
    rw [hset, hset]
    split
    · rw [Option.map_some, Option.map_some, SyncStore.collectionName, SyncStore.collectionName,
        getD_of_idxOf? h.known, getD_of_idxOf? h.knownAlone]
    · exact h.batches other

/-- The loop of `create_batch` finds the same ids free. -/
theorem allocateBatch (h : Paired self.uid name c c' db alone) (tries batchId : ℕ) :
    Related (Outcome self.uid name c c') (SyncStore.allocateBatch self db c tries batchId)
      (SyncStore.allocateBatch self alone c' tries batchId) := by
  induction tries generalizing batchId with
  | zero => exact .error _
  | succ tries ih =>
    have hfree : (db.batches.find? ⟨self.uid, batchId⟩).isSome = (alone.batches.find? ⟨self.uid, batchId⟩).isSome := by
      have hname := congrArg Option.isSome (h.batches batchId)
      simpa [Db.batchName] using hname
    rw [SyncStore.allocateBatch, SyncStore.allocateBatch, hfree]
    split
    · exact ih (batchId + 1)
    · exact .ok ⟨rfl, h.openBatch batchId⟩

/-- `create_batch`. -/
theorem createBatch (h : Paired self.uid name c c' db alone) :
    Related (Outcome self.uid name c c') (SyncStore.createBatch self db name)
      (SyncStore.createBatch self alone name) := by
  unfold SyncStore.createBatch
  rw [h.ids.1, h.ids.2]
  apply (h.allocateBatch _ _).bind
  intro x y hxy
  exact .ok ⟨congrArg encodeBatchId hxy.1, hxy.2⟩

/-- The loop of `append_to_batch`. -/
theorem stageBsos (h : Paired self.uid name c c' db alone) (batchId : ℤ) (bsos : List PostedBso) :
    Paired self.uid name c c' (SyncStore.stageBsos self batchId db bsos)
      (SyncStore.stageBsos self batchId alone bsos) := by
  induction bsos generalizing db alone with
  | nil => exact h
  | cons bso rest ih =>
    rw [SyncStore.stageBsos, SyncStore.stageBsos]
    refine ih ⟨h.toShadow.withItems fun other id => ?_, h.known, h.knownAlone⟩
    rw [Table.find?_set, Table.find?_set, h.items]

/-- `append_to_batch`. -/
theorem appendToBatch (h : Paired self.uid name c c' db alone) (batch : String) (bsos : List PostedBso) :
    Related (Paired self.uid name c c') (SyncStore.appendToBatch self db name batch bsos)
      (SyncStore.appendToBatch self alone name batch bsos) := by
  unfold SyncStore.appendToBatch
  rw [h.validateBatch]
  cases SyncStore.validateBatch self alone name batch with
  | error e => exact .error e
  | ok valid =>
    cases valid with
    | false => exact .error _
    | true =>
      cases decodeBatchId batch with
      | error e => exact .error e
      | ok batchId => exact .ok (h.stageBsos batchId bsos)

/-- The items of a batch. -/
theorem stagedItems (h : Paired self.uid name c c' db alone) (batchId : ℤ) :
    SyncStore.stagedItems self db batchId = SyncStore.stagedItems self alone batchId := by
  apply Table.select_congr
  rintro ⟨uid, other, id⟩ item
  simp only [Bool.and_eq_true, decide_eq_true_eq]
  constructor
  · intro hrow
    obtain ⟨hfind, rfl, rfl⟩ := hrow
    exact ⟨(h.items _ id).symm.trans hfind, rfl, rfl⟩
  · intro hrow
    obtain ⟨hfind, rfl, rfl⟩ := hrow
    exact ⟨(h.items _ id).trans hfind, rfl, rfl⟩

/-- `delete_batch`. -/
theorem deleteBatch (h : Paired self.uid name c c' db alone) (batchId : ℤ) :
    Paired self.uid name c c' (SyncStore.deleteBatch self db batchId) (SyncStore.deleteBatch self alone batchId) := by
  have hdelete : ∀ (t : Table BatchKey ℕ) (other : ℤ),
      (t.deleteWhere fun key _ => key = ⟨self.uid, batchId⟩).find? ⟨self.uid, other⟩ =
        if other = batchId then none else t.find? ⟨self.uid, other⟩ := by
    intro t other
    by_cases hother : other = batchId
    · rw [if_pos hother]
      exact Table.find?_deleteWhere_of_true fun _ _ => by simp [hother]
    · rw [if_neg hother]
      exact Table.find?_deleteWhere_of_false fun _ _ => by simp [hother]
  have hitems := h.toShadow.withItems
    (t := db.batchItems.deleteWhere fun key _ => key.uid = self.uid && key.batchId = batchId)
    (r := alone.batchItems.deleteWhere fun key _ => key.uid = self.uid && key.batchId = batchId)
    fun other id => by rw [Table.find?_deleteWhere, Table.find?_deleteWhere, h.items]
  refine ⟨hitems.withBatches ?_ ?_ ?_, h.known, h.knownAlone⟩
  · intro other k hk
    rw [hdelete] at hk
    split at hk
    · cases hk
    · exact h.named.batchKnown hk
  · intro other k hk
    rw [hdelete] at hk
    split at hk
    · cases hk
    · exact h.namedAlone.batchKnown hk
  · intro other
    rw [hdelete, hdelete]
    split
    · rfl
    · exact h.batches other

/-- `commit_batch`. -/
theorem commitBatch (h : Paired self.uid name c c' db alone) (batch : String) :
    Related (Outcome self.uid name c c') (SyncStore.commitBatch self db name batch)
      (SyncStore.commitBatch self alone name batch) := by
  unfold SyncStore.commitBatch
  cases decodeBatchId batch with
  | error e => exact .error e
  | ok batchId =>
    simp only [ok_bind, h.ids.1, h.ids.2, h.stagedItems, commitItems_eq]
    split
    · exact .error _
    · exact .ok ⟨rfl, (h.written _).deleteBatch batchId⟩

end Paired

/-- `delete_storage`. -/
theorem Shadow.deleteStorage {self : SyncStore} {db alone : Db} (shadow : Shadow self.uid db alone) :
    Shadow self.uid (SyncStore.deleteStorage self db) (SyncStore.deleteStorage self alone) := by
  have hstamps : ∀ (t : Table UserCollectionKey ℕ) c,
      (t.deleteWhere fun key _ => key.uid = self.uid).find? ⟨self.uid, c⟩ = none := fun t c =>
    Table.find?_deleteWhere_of_true fun _ _ => by simp
  have hrecords : ∀ (t : Table BsoKey BsoRow) c id,
      (t.deleteWhere fun key _ => key.uid = self.uid).find? ⟨self.uid, c, id⟩ = none := fun t c id =>
    Table.find?_deleteWhere_of_true fun _ _ => by simp
  have hbatches : ∀ (t : Table BatchKey ℕ) batchId,
      (t.deleteWhere fun key _ => key.uid = self.uid).find? ⟨self.uid, batchId⟩ = none := fun t batchId =>
    Table.find?_deleteWhere_of_true fun _ _ => by simp
  have hitems : ∀ (t : Table BatchItemKey BatchItem) batchId id,
      (t.deleteWhere fun key _ => key.uid = self.uid).find? ⟨self.uid, batchId, id⟩ = none := fun t batchId id =>
    Table.find?_deleteWhere_of_true fun _ _ => by simp
  have hnamed : ∀ {db : Db}, db.Named self.uid → (SyncStore.deleteStorage self db).Named self.uid := by
    intro db named
    refine ⟨named.tombstoneName, named.nodup, fun hs => ?_, fun hrow => ?_, fun hbatch => ?_⟩
    · rw [SyncStore.deleteStorage, hstamps] at hs
      cases hs
    · rw [SyncStore.deleteStorage, hrecords] at hrow
      cases hrow
    · rw [SyncStore.deleteStorage, hbatches] at hbatch
      cases hbatch
  have hempty : ∀ db : Db, (∀ name, (SyncStore.deleteStorage self db).stamp self.uid name = none) ∧
      ∀ name id, (SyncStore.deleteStorage self db).record self.uid name id = none := by
    intro db
    unfold Db.stamp Db.record SyncStore.deleteStorage
    constructor
    · intro name
      cases db.collections.idxOf? name with
      | none => rfl
      | some c => exact hstamps _ c
    · intro name id
      cases db.collections.idxOf? name with
      | none => rfl
      | some c => exact hrecords _ c id
  exact {
    named := hnamed shadow.named
    namedAlone := hnamed shadow.namedAlone
    subset := shadow.subset
    stamps := fun name => by rw [(hempty db).1, (hempty alone).1]
    records := fun name id => by rw [(hempty db).2, (hempty alone).2]
    batches := fun batchId => by
      unfold Db.batchName SyncStore.deleteStorage
      rw [hbatches, hbatches]
      rfl
    items := fun batchId id => by
      unfold SyncStore.deleteStorage
      rw [hitems, hitems] }

end FxaLite.SyncStorage
