import FxaLite.SyncStorage.Records
import FxaLite.SyncStorage.Resources

/-!
# Lazy and eager expiry

Expired rows stay in the table; reads and single deletes look past them. The reference is the
same server on a database from which every expired row is deleted before each request. The two
answer alike as long as no write meets the row of an expired record, or what it writes replaces
the row, and no precondition is decided by such a row's timestamp.
-/

namespace FxaLite.SyncStorage

open Relational Reactive Fallible

/-! ### The reference -/

/-- The database without the records that have expired. -/
def Db.purge (now : ℕ) (db : Db) : Db := { db with bso := db.bso.deleteWhere fun _ row => !row.alive now }

/-- Some writes of one record leave of an expired row of it what they leave where there is no
row: something that is over at once, or something that holds nothing of the row. -/
def Replaces (now : ℕ) (us : List RecordWrite) (row : BsoRow) : Prop :=
  match RecordWrite.lastSent RecordWrite.ttl us with
  | some ttl => ttl = 0 ∨
      ((RecordWrite.lastSent RecordWrite.payload us).isSome ∨ row.payload = "") ∧
        ((RecordWrite.lastSent RecordWrite.sortindex us).isSome ∨ row.sortindex = none) ∧
        us.any RecordWrite.stamps
  | none =>
    match us with
    | [] => True
    | .put _ :: _ => False
    | .commit _ _ :: _ => maxTtl * 1000 ≤ now

/-- A write that is carried out: the request is well formed, its precondition holds, the
timestamp of the collection can move, and the batch it names is open. -/
structure CarriedOut (p : Platform) (db : Db) (call : Call) (name : String) : Prop where
  accepted : ∃ rt, route p call = .ok rt ∧ precondition p call (rt.resource db) = .ok none
  fresh : Fresh call db (db.idFor name)
  batch : ∀ params bsos id commit, call.request = .postCollection name params bsos →
    parseBatch params = .ok (some ⟨some id, commit⟩) →
    SyncStore.validateBatch call.store (db.ensure name) name id = .ok true

/-- A request that does not take an expired record for a live one: its precondition says the
same of the record's timestamp as of zero, and what it writes replaces the record. -/
structure Harmless (p : Platform) (db : Db) (call : Call) : Prop where
  decided : ∀ {name id : String} {row : BsoRow}, Resource.ofRequest call.request = some (.record name id) →
    db.record call.uid name id = some row → row.expiry ≤ call.now →
    precondition p call row.modified = precondition p call 0
  replaced : ∀ {name id : String} {row : BsoRow}, call.request.collection = some name →
    CarriedOut p db call name → db.record call.uid name id = some row → row.expiry ≤ call.now →
    Replaces call.now ((call.recordWrites db).filter (·.id = id)) row

/-! ### Deleting what has expired -/

/-- A record of the purged table. -/
theorem find?_purge (now : ℕ) (db : Db) (key : BsoKey) :
    (db.purge now).bso.find? key = (db.bso.find? key).filter (BsoRow.alive now) := by
  unfold Db.purge
  rw [Table.find?_deleteWhere]
  congr 1
  funext row
  rw [Bool.not_not]

/-- What is left of an expired row that is replaced, is left where there is no row. -/
theorem filter_applied {self : SyncStore} {w : RecordWrite} {us : List RecordWrite} {row : BsoRow}
    (hexpired : row.expiry ≤ self.now) (h : Replaces self.now (w :: us) row) :
    (some (RecordWrite.applied self (w :: us) row)).filter (BsoRow.alive self.now) =
      (some (RecordWrite.applied self (w :: us) (w.blank self))).filter (BsoRow.alive self.now) := by
  unfold Replaces at h
  rw [filter_alive, filter_alive]
  cases httl : RecordWrite.lastSent RecordWrite.ttl (w :: us) with
  | none =>
    -- neither write path gives the record a later expiry
    have hdead : ¬self.now < (RecordWrite.applied self (w :: us) row).expiry := by
      simpa [RecordWrite.applied, httl] using hexpired
    have hdead' : ¬self.now < (RecordWrite.applied self (w :: us) (w.blank self)).expiry := by
      cases w with
      | put bso => simp [httl] at h
      | commit id item =>
        have hexpiry : (RecordWrite.applied self (.commit id item :: us) (RecordWrite.blank self (.commit id item))).expiry =
            maxTtl * 1000 := by
          rw [RecordWrite.applied, httl, Option.elim_none, RecordWrite.blank]
        rw [hexpiry]
        simp only [httl] at h
        exact not_lt.mpr h
    rw [if_neg hdead, if_neg hdead']
  | some ttl =>
    simp only [httl] at h
    obtain rfl | ⟨hpayload, hsortindex, hstamps⟩ := h
    · simp [RecordWrite.applied, httl]
    · have hsame : RecordWrite.applied self (w :: us) row = RecordWrite.applied self (w :: us) (w.blank self) := by
        simp only [RecordWrite.applied, RecordWrite.blank, httl, hstamps, if_true, Option.elim_some, BsoRow.mk.injEq,
          and_true]
        constructor
        · cases hlast : RecordWrite.lastSent RecordWrite.sortindex (w :: us) with
          | some _ => rfl
          | none => simpa [hlast] using hsortindex
        · cases hlast : RecordWrite.lastSent RecordWrite.payload (w :: us) with
          | some _ => rfl
          | none => simpa [hlast] using hpayload
      rw [hsame]

/-- Writes that replace every expired row they meet leave the same live records with those rows
and without them. -/
theorem purge_writes {call : Call} {db : Db} {c : ℕ} {ws : List RecordWrite}
    (h : ∀ id row, db.bso.find? ⟨call.uid, c, id⟩ = some row → row.expiry ≤ call.now →
      Replaces call.now (ws.filter (·.id = id)) row) (key : BsoKey) :
    ((db.bso.upsertAll (ws.map (·.upsert call.store c))).find? key).filter (BsoRow.alive call.now) =
      (((db.purge call.now).bso.upsertAll (ws.map (·.upsert call.store c))).find? key).filter
        (BsoRow.alive call.now) := by
  have halive : ∀ old : Option BsoRow, (old.filter (BsoRow.alive call.now)).filter (BsoRow.alive call.now) =
      old.filter (BsoRow.alive call.now) := fun old => by
    simp only [Option.filter_filter, Bool.and_self]
  obtain ⟨uid, c', id⟩ := key
  by_cases hkey : uid = call.uid ∧ c' = c
  · obtain ⟨rfl, rfl⟩ := hkey
    have hwrites : ∀ t : Table BsoKey BsoRow,
        (t.upsertAll (ws.map (·.upsert call.store c'))).find? ⟨call.uid, c', id⟩ =
          RecordWrite.fold call.store id ws (t.find? ⟨call.uid, c', id⟩) := fun t =>
      find?_writes t call.store c' ws id
    rw [hwrites, hwrites, find?_purge]
    cases hrow : db.bso.find? ⟨call.uid, c', id⟩ with
    | none => rfl
    | some row =>
      rw [filter_alive]
      split
      · rfl
      · rename_i hdead
        have hreplaces := h id row hrow (not_lt.mp hdead)
        cases hus : ws.filter (·.id = id) with
        | nil =>
          rw [RecordWrite.fold, RecordWrite.fold, hus, List.foldl_nil, List.foldl_nil, filter_alive, if_neg hdead]
          rfl
        | cons w us =>
          rw [hus] at hreplaces
          rw [RecordWrite.fold_some, RecordWrite.fold_none hus, hus]
          exact @filter_applied call.store w us row (not_lt.mp hdead) hreplaces
  · rw [find?_writes_of_ne (not_and_or.mp hkey), find?_writes_of_ne (not_and_or.mp hkey), find?_purge, halive]

/-! ### Handlers -/

/-- Two ends of a handler that differ in nothing but expired rows. -/
inductive Alike (now : ℕ) : Except Raised (Response × Db) → Except Raised (Response × Db) → Prop
  | ok (answer : Response) {db db' : Db} (same : db.purge now = db'.purge now) :
      Alike now (.ok (answer, db)) (.ok (answer, db'))
  | error (raised : Raised) : Alike now (.error raised) (.error raised)

section Handlers

variable {call : Call} {db : Db} {name : String}

end Handlers

/-! ### Requests -/

section Requests

variable {p : Platform} {call : Call} {db : Db} {t : ℕ}

/-- What a harmless request writes leaves the same live records either way. -/
theorem Harmless.live {name : String} (h : Harmless p db call) (inv : db.Inv t)
    (hurl : call.request.collection = some name) (hout : CarriedOut p db call name) (key : BsoKey) :
    (((db.ensure name).bso.upsertAll ((call.recordWrites (db.ensure name)).map
        (·.upsert call.store (db.idFor name)))).find? key).filter (BsoRow.alive call.now) =
      ((((db.ensure name).purge call.now).bso.upsertAll ((call.recordWrites (db.ensure name)).map
        (·.upsert call.store (db.idFor name)))).find? key).filter (BsoRow.alive call.now) := by
  have hwrites : call.recordWrites (db.ensure name) = call.recordWrites db := by
    simp only [Call.recordWrites, SyncStore.stagedItems, ensure_batchItems]
  apply purge_writes
  intro id row hrow hexpired
  rw [ensure_bso] at hrow
  rw [hwrites]
  exact h.replaced hurl hout ((inv.record_eq call.uid name id).trans hrow) hexpired

end Requests

end FxaLite.SyncStorage
