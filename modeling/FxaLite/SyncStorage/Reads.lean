import FxaLite.SyncStorage.Views

/-!
# What the reads make of a user's part

A read that lists collections goes through the rows in the order of their ids, and so lists
them in another order in another database; everything else comes out the same. The lists are
compared by what is in them: a user's timestamps and records, each with the name of its
collection, are the same up to order in two databases of which one shadows the other.
-/

namespace FxaLite.SyncStorage

open Relational Reactive Fallible

/-! ### Lists of timestamps -/

/-- A user's timestamps with the names of their collections, the tombstone's included. -/
def Db.stampsOf (db : Db) (uid : ℕ) : List (String × ℕ) :=
  (db.userCollections.select fun key _ => key.uid = uid).map fun row =>
    (SyncStore.collectionName db row.1.collectionId, row.2)

section Stamps

variable {uid : ℕ} {db alone : Db}

/-- They are the timestamps by name. -/
theorem Db.Named.mem_stampsOf (named : db.Named uid) {name : String} {s : ℕ} :
    (name, s) ∈ db.stampsOf uid ↔ db.stamp uid name = some s := by
  unfold Db.stampsOf Db.stamp
  rw [List.mem_map, Option.bind_eq_some_iff]
  constructor
  · intro h
    obtain ⟨⟨⟨uid', c⟩, s'⟩, hrow, heq⟩ := h
    obtain ⟨hfind, huid⟩ := Table.mem_select.mp hrow
    obtain rfl : uid' = uid := by simpa using huid
    obtain ⟨rfl, rfl⟩ := Prod.mk.inj heq
    exact ⟨c, named.idxOf?_name (named.stampKnown hfind), hfind⟩
  · intro h
    obtain ⟨c, hc, hfind⟩ := h
    exact ⟨(⟨uid, c⟩, s), Table.mem_select.mpr ⟨hfind, by simp⟩, by rw [SyncStore.collectionName, getD_of_idxOf? hc]⟩

/-- None of them stands twice. -/
theorem Db.Named.nodup_stampsOf (named : db.Named uid) : (db.stampsOf uid).Nodup := by
  apply List.Nodup.map_on ?_ (Table.select_nodup _ _)
  rintro ⟨⟨u, c⟩, s⟩ hrow ⟨⟨u', c'⟩, s'⟩ hrow' heq
  obtain ⟨hfind, huid⟩ := Table.mem_select.mp hrow
  obtain ⟨hfind', huid'⟩ := Table.mem_select.mp hrow'
  obtain rfl : u = uid := by simpa using huid
  obtain rfl : u' = u := by simpa using huid'
  obtain ⟨hname, rfl⟩ := Prod.mk.inj heq
  rw [named.name_inj (named.stampKnown hfind) (named.stampKnown hfind') hname]

/-- A shadow has the same ones. -/
theorem Shadow.stampsOf_perm (shadow : Shadow uid db alone) : (db.stampsOf uid).Perm (alone.stampsOf uid) := by
  rw [List.perm_ext_iff_of_nodup shadow.named.nodup_stampsOf shadow.namedAlone.nodup_stampsOf]
  intro entry
  rw [shadow.named.mem_stampsOf, shadow.namedAlone.mem_stampsOf, shadow.stamps]

/-- The storage timestamp is the largest of them. -/
theorem storageTimestamp_eq (self : SyncStore) (db : Db) :
    SyncStore.storageTimestamp self db = ((db.stampsOf self.uid).map Prod.snd).foldr max 0 := by
  unfold SyncStore.storageTimestamp Db.stampsOf
  rw [List.map_map]
  rfl

/-- So a shadow has the same storage timestamp. -/
theorem Shadow.storageTimestamp {self : SyncStore} (shadow : Shadow self.uid db alone) :
    SyncStore.storageTimestamp self db = SyncStore.storageTimestamp self alone := by
  rw [storageTimestamp_eq, storageTimestamp_eq]
  exact (shadow.stampsOf_perm.map Prod.snd).foldr_eq 0

/-- The listed timestamps are all but the tombstone's. -/
theorem Db.Named.collectionTimestamps {self : SyncStore} (named : db.Named self.uid) :
    SyncStore.collectionTimestamps self db = (db.stampsOf self.uid).filter (·.1 ≠ "") := by
  unfold SyncStore.collectionTimestamps Db.stampsOf
  rw [List.filter_map]
  congr 1
  unfold Table.select
  rw [List.filter_filter]
  apply List.filter_congr
  rintro ⟨⟨uid, c⟩, s⟩ hrow
  by_cases huid : uid = self.uid
  · subst huid
    have hknown := named.stampKnown (Table.mem_rows_iff.mp hrow)
    have hname : SyncStore.collectionName db c = "" ↔ c = tombstone := by
      constructor
      · intro h
        exact Option.some.inj ((named.idxOf?_name hknown).symm.trans (h ▸ named.idxOf?_empty))
      · intro h
        rw [h, SyncStore.collectionName, getD_of_idxOf? named.idxOf?_empty]
    simp [hname]
  · simp [huid]

/-- A shadow lists the same collections with the same timestamps. -/
theorem Shadow.collectionTimestamps {self : SyncStore} (shadow : Shadow self.uid db alone) :
    (SyncStore.collectionTimestamps self db).Perm (SyncStore.collectionTimestamps self alone) := by
  rw [shadow.named.collectionTimestamps, shadow.namedAlone.collectionTimestamps]
  exact shadow.stampsOf_perm.filter _

end Stamps

/-! ### Lists of records -/

/-- A user's unexpired records, with the names of their collections. -/
def Db.visible (db : Db) (self : SyncStore) : List (String × String × BsoRow) :=
  (SyncStore.unexpired self db).map fun row => (SyncStore.collectionName db row.1.collectionId, row.1.id, row.2)

section Records

variable {self : SyncStore} {db alone : Db}

/-- The rows behind them. -/
theorem mem_unexpired {row : BsoKey × BsoRow} : row ∈ SyncStore.unexpired self db ↔
    row.1.uid = self.uid ∧ db.bso.find? ⟨self.uid, row.1.collectionId, row.1.id⟩ = some row.2 ∧
      self.now < row.2.expiry := by
  obtain ⟨⟨uid, c, id⟩, row⟩ := row
  rw [SyncStore.unexpired, Table.mem_select]
  simp only [Bool.and_eq_true, decide_eq_true_eq]
  constructor
  · intro h
    obtain ⟨hfind, rfl, halive⟩ := h
    exact ⟨rfl, hfind, halive⟩
  · intro h
    obtain ⟨rfl, hfind, halive⟩ := h
    exact ⟨hfind, rfl, halive⟩

/-- They are the records by name that have not run out. -/
theorem Db.Named.mem_visible (named : db.Named self.uid) {name id : String} {row : BsoRow} :
    (name, id, row) ∈ db.visible self ↔ db.record self.uid name id = some row ∧ self.now < row.expiry := by
  unfold Db.visible Db.record
  rw [List.mem_map, Option.bind_eq_some_iff]
  constructor
  · intro h
    obtain ⟨⟨⟨uid, c, id'⟩, row'⟩, hrow, heq⟩ := h
    obtain ⟨-, hfind, halive⟩ := mem_unexpired.mp hrow
    simp only [Prod.mk.injEq] at heq
    obtain ⟨rfl, rfl, rfl⟩ := heq
    exact ⟨⟨c, named.idxOf?_name (named.recordKnown hfind), hfind⟩, halive⟩
  · intro h
    obtain ⟨⟨c, hc, hfind⟩, halive⟩ := h
    exact ⟨(⟨self.uid, c, id⟩, row), mem_unexpired.mpr ⟨rfl, hfind, halive⟩, by
      rw [SyncStore.collectionName, getD_of_idxOf? hc]⟩

/-- Collections of a user's records have names of their own. -/
theorem Db.Named.name_inj_of_unexpired (named : db.Named self.uid) {r r' : BsoKey × BsoRow}
    (hr : r ∈ SyncStore.unexpired self db) (hr' : r' ∈ SyncStore.unexpired self db) :
    SyncStore.collectionName db r.1.collectionId = SyncStore.collectionName db r'.1.collectionId ↔
      r.1.collectionId = r'.1.collectionId := by
  constructor
  · intro h
    exact named.name_inj (named.recordKnown (mem_unexpired.mp hr).2.1)
      (named.recordKnown (mem_unexpired.mp hr').2.1) h
  · intro h
    rw [h]

/-- None of them stands twice. -/
theorem Db.Named.nodup_visible (named : db.Named self.uid) : (db.visible self).Nodup := by
  apply List.Nodup.map_on ?_ (Table.select_nodup _ _)
  intro r hr r' hr' heq
  simp only [Prod.mk.injEq] at heq
  obtain ⟨hname, hid, hrow⟩ := heq
  have hc := (named.name_inj_of_unexpired hr hr').mp hname
  have huid := (mem_unexpired.mp hr).1.trans (mem_unexpired.mp hr').1.symm
  obtain ⟨⟨uid, c, id⟩, row⟩ := r
  obtain ⟨⟨uid', c', id'⟩, row'⟩ := r'
  simp_all

/-- A shadow has the same ones. -/
theorem Shadow.visible_perm (shadow : Shadow self.uid db alone) : (db.visible self).Perm (alone.visible self) := by
  rw [List.perm_ext_iff_of_nodup shadow.named.nodup_visible shadow.namedAlone.nodup_visible]
  rintro ⟨name, id, row⟩
  rw [shadow.named.mem_visible, shadow.namedAlone.mem_visible, shadow.records]

/-- What a list of records by name says of each collection. -/
def tally (measure : List BsoRow → ℕ) (visible : List (String × String × BsoRow)) (name : String) : ℕ :=
  measure ((visible.filter (·.1 = name)).map (·.2.2))

/-- A statement grouped by collection has one row for each of them, with the measure of its records. -/
theorem Db.Named.mem_grouped (named : db.Named self.uid) (measure : List BsoRow → ℕ) {name : String} {n : ℕ} :
    (name, n) ∈ ((SyncStore.groups (SyncStore.unexpired self db)).map fun c => (SyncStore.collectionName db c,
        measure (((SyncStore.unexpired self db).filter (·.1.collectionId = c)).map Prod.snd))) ↔
      name ∈ (db.visible self).map Prod.fst ∧ n = tally measure (db.visible self) name := by
  have htally : ∀ r ∈ SyncStore.unexpired self db,
      tally measure (db.visible self) (SyncStore.collectionName db r.1.collectionId) =
        measure (((SyncStore.unexpired self db).filter (·.1.collectionId = r.1.collectionId)).map Prod.snd) := by
    intro r hr
    unfold tally Db.visible
    rw [List.filter_map, List.map_map]
    congr 2
    apply List.filter_congr
    intro r' hr'
    simp only [Function.comp_apply, named.name_inj_of_unexpired hr' hr]
  simp only [SyncStore.groups, List.mem_map, List.mem_dedup, Prod.mk.injEq]
  constructor
  · intro h
    obtain ⟨_, ⟨r, hr, rfl⟩, rfl, rfl⟩ := h
    exact ⟨⟨_, List.mem_map_of_mem hr, rfl⟩, (htally r hr).symm⟩
  · intro h
    obtain ⟨⟨v, hv, rfl⟩, rfl⟩ := h
    obtain ⟨r, hr, rfl⟩ := List.mem_map.mp hv
    exact ⟨_, ⟨r, hr, rfl⟩, rfl, (htally r hr).symm⟩

/-- It has no row twice. -/
theorem Db.Named.nodup_grouped (named : db.Named self.uid) (measure : ℕ → ℕ) :
    ((SyncStore.groups (SyncStore.unexpired self db)).map fun c =>
      (SyncStore.collectionName db c, measure c)).Nodup := by
  apply List.Nodup.map_on ?_ (List.nodup_dedup _)
  intro c hc c' hc' heq
  obtain ⟨r, hr, rfl⟩ := List.mem_map.mp (List.mem_dedup.mp hc)
  obtain ⟨r', hr', rfl⟩ := List.mem_map.mp (List.mem_dedup.mp hc')
  exact (named.name_inj_of_unexpired hr hr').mp (Prod.mk.inj heq).1

/-- A shadow has the same groups with the same measures, if the measure does not depend on order. -/
theorem Shadow.grouped_perm (shadow : Shadow self.uid db alone) {measure : List BsoRow → ℕ}
    (hmeasure : ∀ l l', l.Perm l' → measure l = measure l') :
    ((SyncStore.groups (SyncStore.unexpired self db)).map fun c => (SyncStore.collectionName db c,
      measure (((SyncStore.unexpired self db).filter (·.1.collectionId = c)).map Prod.snd))).Perm
    ((SyncStore.groups (SyncStore.unexpired self alone)).map fun c => (SyncStore.collectionName alone c,
      measure (((SyncStore.unexpired self alone).filter (·.1.collectionId = c)).map Prod.snd))) := by
  have hperm := shadow.visible_perm
  have htally : tally measure (db.visible self) = tally measure (alone.visible self) := by
    funext name
    exact hmeasure _ _ ((hperm.filter _).map _)
  rw [List.perm_ext_iff_of_nodup (shadow.named.nodup_grouped _) (shadow.namedAlone.nodup_grouped _)]
  rintro ⟨name, n⟩
  rw [shadow.named.mem_grouped, shadow.namedAlone.mem_grouped, htally, (hperm.map Prod.fst).mem_iff]

/-- The size of some records. -/
def bytesOf (rows : List BsoRow) : ℕ := (rows.map fun row => SyncStore.sqlLength row.payload).sum

/-- A shadow counts the same records. -/
theorem Shadow.collectionCounts (shadow : Shadow self.uid db alone) :
    (SyncStore.collectionCounts self db).Perm (SyncStore.collectionCounts self alone) := by
  have hgrouped := @Shadow.grouped_perm self db alone shadow List.length fun _ _ h => h.length_eq
  simp only [List.length_map] at hgrouped
  exact hgrouped

/-- It weighs them the same. -/
theorem Shadow.collectionUsage (shadow : Shadow self.uid db alone) :
    (SyncStore.collectionUsage self db).Perm (SyncStore.collectionUsage self alone) := by
  have hgrouped := @Shadow.grouped_perm self db alone shadow bytesOf fun _ _ h => (h.map _).sum_eq
  simp only [bytesOf, List.map_map] at hgrouped
  exact hgrouped

/-- And altogether. -/
theorem Shadow.storageUsage (shadow : Shadow self.uid db alone) :
    SyncStore.storageUsage self db = SyncStore.storageUsage self alone := by
  have hsum : ∀ db, SyncStore.storageUsage self db = ((db.visible self).map fun record => SyncStore.sqlLength record.2.2.payload).sum := by
    intro db
    unfold SyncStore.storageUsage SyncStore.payloadBytes Db.visible
    rw [List.map_map]
    rfl
  rw [hsum, hsum]
  exact (shadow.visible_perm.map _).sum_eq

end Records

/-! ### The records of one collection -/

/-- The records of one collection that a condition on ids and rows selects, in the order of their ids. -/
def Db.selected (db : Db) (uid c : ℕ) (p : String → BsoRow → Bool) : List (String × BsoRow) :=
  (db.bso.select fun key row => key.uid = uid && key.collectionId = c && p key.id row).map fun row => (row.1.id, row.2)

/-- They are those the collection has. -/
theorem mem_selected {db : Db} {uid c : ℕ} {p : String → BsoRow → Bool} {entry : String × BsoRow} :
    entry ∈ db.selected uid c p ↔ db.bso.find? ⟨uid, c, entry.1⟩ = some entry.2 ∧ p entry.1 entry.2 = true := by
  obtain ⟨id, row⟩ := entry
  unfold Db.selected
  rw [List.mem_map]
  constructor
  · intro h
    obtain ⟨⟨⟨uid', c', id'⟩, row'⟩, hrow, heq⟩ := h
    obtain ⟨hfind, hselected⟩ := Table.mem_select.mp hrow
    simp only [Bool.and_eq_true, decide_eq_true_eq] at hselected
    obtain ⟨⟨rfl, rfl⟩, hp⟩ := hselected
    obtain ⟨rfl, rfl⟩ := Prod.mk.inj heq
    exact ⟨hfind, hp⟩
  · intro h
    exact ⟨(⟨uid, c, id⟩, row), Table.mem_select.mpr ⟨h.1, by simpa using h.2⟩, rfl⟩

/-- Keys of one collection are ordered by their ids. -/
theorem BsoKey.lt_iff_id {uid c : ℕ} {id id' : String} :
    (⟨uid, c, id⟩ : BsoKey) < ⟨uid, c, id'⟩ ↔ id < id' := by
  change toLex (uid, toLex (c, id)) < toLex (uid, toLex (c, id')) ↔ _
  simp [Prod.Lex.toLex_lt_toLex]

/-- They come in the order of their ids. -/
theorem selected_sorted (db : Db) (uid c : ℕ) (p : String → BsoRow → Bool) :
    (db.selected uid c p).Pairwise fun a b => a.1 < b.1 := by
  unfold Db.selected
  rw [List.pairwise_map]
  apply (Table.select_sorted _ _).imp_of_mem
  rintro ⟨⟨u, k, id⟩, row⟩ ⟨⟨u', k', id'⟩, row'⟩ hrow hrow' hlt
  have hkey := (Table.mem_select.mp hrow).2
  have hkey' := (Table.mem_select.mp hrow').2
  simp only [Bool.and_eq_true, decide_eq_true_eq] at hkey hkey'
  obtain ⟨⟨rfl, rfl⟩, -⟩ := hkey
  obtain ⟨⟨rfl, rfl⟩, -⟩ := hkey'
  exact BsoKey.lt_iff_id.mp hlt

/-- A shadow has the same ones, under its own id of the collection. -/
theorem Shadow.selected {uid : ℕ} {db alone : Db} (shadow : Shadow uid db alone) {name : String} {c c' : ℕ}
    (hc : db.collections.idxOf? name = some c) (hc' : alone.collections.idxOf? name = some c')
    (p : String → BsoRow → Bool) : db.selected uid c p = alone.selected uid c' p := by
  apply Table.eq_of_mem_iff (selected_sorted _ _ _ _) (selected_sorted _ _ _ _)
  rintro ⟨id, row⟩
  have hrecord := shadow.records name id
  unfold Db.record at hrecord
  rw [hc, hc', Option.bind_some, Option.bind_some] at hrecord
  rw [mem_selected, mem_selected, hrecord]

/-- A collection that its user has no record of selects nothing. -/
theorem selected_eq_nil {db : Db} {uid c : ℕ} {name : String} (hc : db.collections.idxOf? name = some c)
    (h : ∀ id, db.record uid name id = none) (p : String → BsoRow → Bool) : db.selected uid c p = [] := by
  apply List.eq_nil_iff_forall_not_mem.mpr
  rintro ⟨id, row⟩ hmem
  have hnone := h id
  unfold Db.record at hnone
  rw [hc, Option.bind_some] at hnone
  rw [(mem_selected.mp hmem).1] at hnone
  cases hnone

/-- The statement of a collection read, in these terms. -/
theorem select_eq_selected (self : SyncStore) (db : Db) (c : ℕ) (query : BsoQuery) (full : Bool) :
    (db.bso.select (SyncStore.selects self c query full)).map SyncStore.bsoOfRow =
      (db.selected self.uid c fun id row => decide (self.now < row.expiry) && SyncStore.matchesQuery query full id row).map
        fun entry => ⟨entry.1, entry.2.modified, entry.2.payload, entry.2.sortindex, entry.2.expiry⟩ := by
  unfold Db.selected SyncStore.selects
  simp only [List.map_map, Bool.and_assoc]
  rfl

/-! ### Resources -/

/-- A shadow's collection has the same timestamp. -/
theorem Shadow.collectionResource {self : SyncStore} {db alone : Db} (shadow : Shadow self.uid db alone) (name : String) :
    collectionResource self name db = collectionResource self name alone := by
  rw [collectionResource_eq, collectionResource_eq, shadow.stamps]

/-- So has its record. -/
theorem Shadow.bsoResource {self : SyncStore} {db alone : Db} (shadow : Shadow self.uid db alone) (name id : String) :
    bsoResource self name id db = bsoResource self name id alone := by
  rw [bsoResource_eq, bsoResource_eq, shadow.records]

end FxaLite.SyncStorage
