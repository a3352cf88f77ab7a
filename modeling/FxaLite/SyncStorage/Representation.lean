import FxaLite.SyncStorage.Batches
import FxaLite.SyncStorage.Resources
import Mathlib.Data.List.Dedup

/-!
# The representation of a store

Four tables are written by separate statements, and the schema links only staged items to
their batch. What links the others is kept by the requests: a record lies in a collection that
is stamped no earlier than it, timestamps are whole hundredths of a second, nothing belongs to
the tombstone, and an item is staged in an open batch. The clock takes no part in it: a write
is only carried out if it moves its collection's timestamp forward, wherever the clock went in
between.
-/

namespace FxaLite.SyncStorage

open Relational Reactive Fallible

/-- The links between the tables. -/
structure Db.Represented (db : Db) : Prop where
  tombstoneName : db.collections.head? = some ""
  stampKnown : ∀ {uid c s : ℕ}, db.userCollections.find? ⟨uid, c⟩ = some s → c < db.collections.length
  stampHundredth : ∀ {uid c s : ℕ}, db.userCollections.find? ⟨uid, c⟩ = some s → 10 ∣ s
  recordStamped : ∀ {uid c : ℕ} {id : String} {row : BsoRow}, db.bso.find? ⟨uid, c, id⟩ = some row →
    ∃ s, db.userCollections.find? ⟨uid, c⟩ = some s ∧ row.modified ≤ s
  recordHundredth : ∀ {uid c : ℕ} {id : String} {row : BsoRow}, db.bso.find? ⟨uid, c, id⟩ = some row →
    10 ∣ row.modified
  recordCollection : ∀ {uid c : ℕ} {id : String} {row : BsoRow}, db.bso.find? ⟨uid, c, id⟩ = some row →
    c ≠ tombstone
  batchCollection : ∀ {uid : ℕ} {batchId : ℤ} {c : ℕ}, db.batches.find? ⟨uid, batchId⟩ = some c → c ≠ tombstone
  itemsOpen : db.ItemsOpen

/-- A fresh database has nothing to link. -/
theorem Db.represented_fresh : Db.fresh.Represented where
  tombstoneName := rfl
  stampKnown h := by simp [Db.fresh] at h
  stampHundredth h := by simp [Db.fresh] at h
  recordStamped h := by simp [Db.fresh] at h
  recordHundredth h := by simp [Db.fresh] at h
  recordCollection h := by simp [Db.fresh] at h
  batchCollection h := by simp [Db.fresh] at h
  itemsOpen _ _ _ _ h := by simp [Db.fresh] at h

/-! ### One request -/

/-- Rounding down leaves whole hundredths. -/
theorem quantize_dvd (n : ℕ) : 10 ∣ quantize n := Nat.dvd_sub_mod n

/-- No write to a collection with a valid name goes to the tombstone. -/
theorem idFor_ne_tombstone {db : Db} (h : db.collections.head? = some "") {name : String}
    (valid : collectionRe name = true) : db.idFor name ≠ tombstone := by
  intro hid
  have hensured := idxOf?_ensure db name
  have hhead := head?_of_isPrefix (prefix_ensure db name) h
  cases hnames : (db.ensure name).collections with
  | nil => simp [hnames] at hhead
  | cons first rest =>
    simp only [hnames, List.head?_cons, Option.some.injEq] at hhead
    have hempty : (db.ensure name).collections.idxOf? "" = some tombstone := by
      simp [hnames, hhead, List.idxOf?_cons, tombstone]
    obtain rfl : name = "" := name_eq_of_idxOf? (hid ▸ hensured) hempty
    exact absurd valid (by decide)

/-- A POST that is carried out names a valid collection. -/
theorem serve_valid {p : Platform} {db : Db} {call : Call} {name : String} {params : Params} {bsos : PostedBsos}
    (hreq : call.request = .postCollection name params bsos) (h : (serve p db call).2.status < 300) :
    collectionRe name = true := by
  obtain ⟨rt, _, _, hroute, -⟩ := serve_success h
  unfold route at hroute
  simp only [hreq, bind_eq_ok] at hroute
  obtain ⟨_, hvalid, -⟩ := hroute
  exact validateCollection_eq_ok.mp hvalid

/-- A batch after a request was open before, or belongs to the collection the request named. -/
theorem serve_batchOf {p : Platform} {db : Db} {call : Call} {key : BatchKey} {c : ℕ}
    (h : (serve p db call).1.batches.find? key = some c) :
    db.batches.find? key = some c ∨ ∃ name, collectionRe name = true ∧ c = db.idFor name := by
  cases serve_batches p db call with
  | keep batches items idle => exact Or.inl (batches ▸ h)
  | @opened name records batchId success failed request free low high fresh names batches items body accepted =>
    rw [batches, Table.find?_set] at h
    split at h
    · refine Or.inr ⟨name, ?_, (Option.some.inj h).symm⟩
      unfold Call.opens at request
      split at request
      · rename_i name' params bsos hreq
        split at request
        · obtain ⟨rfl, -⟩ := Prod.mk.inj (Option.some.inj request)
          exact @serve_valid p db call _ _ _ hreq (accepted ▸ by decide)
        · cases request
      · cases request
    · exact Or.inl h
  | staged request append isOpen batches items accepted => exact Or.inl (batches ▸ h)
  | committed request commit isOpen fresh after ok =>
    rw [after, SyncStore.deleteBatch, Db.written] at h
    simp only [ensure_batches, Table.find?_deleteWhere, Option.filter_eq_some_iff] at h
    exact Or.inl h.1
  | wiped request batches items =>
    rw [batches, Table.find?_deleteWhere, Option.filter_eq_some_iff] at h
    exact Or.inl h.1

/-- Every request keeps the links, at whatever instant it comes. -/
theorem Db.Represented.serve {db : Db} (rep : db.Represented) (p : Platform) (call : Call) :
    (serve p db call).1.Represented := by
  have heffect := serve_effect p db call
  have hnow : 10 ∣ call.now := quantize_dvd call.nowMs
  refine ⟨head?_of_isPrefix heffect.names rep.tombstoneName, fun hs => ?_, fun hs => ?_, fun hrow => ?_, fun hrow => ?_,
    fun hrow => ?_, fun hbatch => ?_, (serve_batches p db call).itemsOpen rep.itemsOpen⟩
  · obtain hold | ⟨hlt, -⟩ := heffect.stampOf hs
    · exact Nat.lt_of_lt_of_le (rep.stampKnown hold) heffect.names.length_le
    · exact hlt
  · obtain hold | ⟨-, rfl⟩ := heffect.stampOf hs
    · exact rep.stampHundredth hold
    · exact hnow
  · obtain ⟨hnew, hstamp, -⟩ | ⟨r, hr, hmodified, hstamp⟩ := heffect.rowOf hrow
    · exact ⟨call.now, hstamp, hnew.le⟩
    · obtain ⟨s, hs, hle⟩ := rep.recordStamped hr
      rw [hmodified]
      obtain hsame | ⟨hmoved, htombstone | hfresh⟩ := hstamp
      · exact ⟨s, hsame.trans hs, hle⟩
      · exact absurd htombstone (rep.recordCollection hr)
      · exact ⟨call.now, hmoved, Nat.le_trans hle (hfresh s hs).le⟩
  · obtain ⟨hnew, -⟩ | ⟨r, hr, hmodified, -⟩ := heffect.rowOf hrow
    · exact hnew ▸ hnow
    · exact hmodified ▸ rep.recordHundredth hr
  · obtain ⟨-, -, name, hvalid, rfl⟩ | ⟨r, hr, -⟩ := heffect.rowOf hrow
    · exact idFor_ne_tombstone rep.tombstoneName hvalid
    · exact rep.recordCollection hr
  · obtain hold | ⟨name, hvalid, rfl⟩ := serve_batchOf hbatch
    · exact rep.batchCollection hold
    · exact idFor_ne_tombstone rep.tombstoneName hvalid

/-- The links hold of every database that requests lead to, in any order of instants. -/
theorem represented_of_run (p : Platform) {db : Db} (rep : db.Represented) (calls : List Call) :
    ((server p).run db calls).Represented :=
  (server p).run_of_step (fun _ call rep _ => rep.serve p call) rep (server p).along_true

/-! ### What the /info routes make of it -/

/-- The collections of some rows are those of the rows. -/
theorem mem_groups {rows : List (BsoKey × BsoRow)} {c : ℕ} :
    c ∈ SyncStore.groups rows ↔ ∃ row ∈ rows, row.1.collectionId = c := by
  rw [SyncStore.groups, List.mem_dedup, List.mem_map]

/-- A collection with an unexpired record is listed with a timestamp. -/
theorem Db.Represented.listed {db : Db} (rep : db.Represented) {self : SyncStore} {c : ℕ}
    (h : c ∈ SyncStore.groups (SyncStore.unexpired self db)) :
    ∃ t, (SyncStore.collectionName db c, t) ∈ SyncStore.collectionTimestamps self db := by
  obtain ⟨⟨key, row⟩, hrow, rfl⟩ := mem_groups.mp h
  obtain ⟨hfind, hselected⟩ := Table.mem_select.mp hrow
  have huid : key.uid = self.uid := by
    simp only [Bool.and_eq_true, decide_eq_true_eq] at hselected
    exact hselected.1
  have hcollection : key.collectionId ≠ tombstone := rep.recordCollection hfind
  obtain ⟨s, hs, -⟩ := rep.recordStamped hfind
  refine ⟨s, List.mem_map.mpr ⟨(⟨key.uid, key.collectionId⟩, s), Table.mem_select.mpr ⟨hs, ?_⟩, rfl⟩⟩
  simp [huid, hcollection]

/-- What a user's timestamps, counts and sizes say together. -/
structure Db.Reported (db : Db) (self : SyncStore) : Prop where
  counted : ∀ {name : String} {n : ℕ}, (name, n) ∈ SyncStore.collectionCounts self db →
    ∃ t, (name, t) ∈ SyncStore.collectionTimestamps self db
  weighed : ∀ {name : String} {n : ℕ}, (name, n) ∈ SyncStore.collectionUsage self db →
    ∃ t, (name, t) ∈ SyncStore.collectionTimestamps self db
  collections : ∀ {name : String} {t : ℕ}, (name, t) ∈ SyncStore.collectionTimestamps self db →
    t ≤ SyncStore.storageTimestamp self db
  records : ∀ {c : ℕ} {id : String} {row : BsoRow}, db.bso.find? ⟨self.uid, c, id⟩ = some row →
    row.modified ≤ SyncStore.storageTimestamp self db

/-- In a linked database the collections that are counted or weighed are listed, and the storage
timestamp is not behind any other. -/
theorem Db.Represented.reported {db : Db} (rep : db.Represented) (self : SyncStore) : db.Reported self where
  counted h := by
    obtain ⟨c, hc, heq⟩ := List.mem_map.mp h
    obtain ⟨rfl, -⟩ := Prod.mk.inj heq
    exact rep.listed hc
  weighed h := by
    obtain ⟨c, hc, heq⟩ := List.mem_map.mp h
    obtain ⟨rfl, -⟩ := Prod.mk.inj heq
    exact rep.listed hc
  collections h := by
    obtain ⟨⟨⟨uid, c⟩, s⟩, hstamp, heq⟩ := List.mem_map.mp h
    obtain ⟨-, rfl⟩ := Prod.mk.inj heq
    obtain ⟨hfind, hselected⟩ := Table.mem_select.mp hstamp
    simp only [Bool.and_eq_true, decide_eq_true_eq] at hselected
    obtain ⟨rfl, -⟩ := hselected
    exact le_storageTimestamp hfind
  records h := by
    obtain ⟨s, hs, hle⟩ := rep.recordStamped h
    exact Nat.le_trans hle (le_storageTimestamp hs)

/-- In every database that requests of any users lead to, at any instants, the tables are linked,
and so are the answers that are made of them. -/
theorem represented_of_requests (p : Platform) (calls : List Call) :
    ((server p).run Db.fresh calls).Represented ∧
      ∀ self, ((server p).run Db.fresh calls).Reported self := by
  have rep := represented_of_run p Db.represented_fresh calls
  exact ⟨rep, rep.reported⟩

end FxaLite.SyncStorage
