import FxaLite.SyncStorage.Effects
import Mathlib.Tactic.FieldSimp

/-!
# Collections by name

What holds of every reachable database, and the effect of a request on one collection of one
user, seen through the collection's name: its timestamp and its records. A name is global and
gets its id when someone first writes to it, so a collection that has no id yet has neither
timestamp nor records.
-/

namespace FxaLite.SyncStorage

open Relational Reactive Fallible

/-! ### The representation invariant -/

/-- What holds of the database when the clock showed `t` last. -/
structure Db.Inv (t : ℕ) (db : Db) : Prop where
  tombstoneName : db.collections.head? = some ""
  stampKnown : ∀ {uid c s : ℕ}, db.userCollections.find? ⟨uid, c⟩ = some s → c < db.collections.length
  stampPast : ∀ {uid c s : ℕ}, db.userCollections.find? ⟨uid, c⟩ = some s → s ≤ t
  recordStamped : ∀ {uid c : ℕ} {id : String} {row : BsoRow}, db.bso.find? ⟨uid, c, id⟩ = some row →
    ∃ s, db.userCollections.find? ⟨uid, c⟩ = some s ∧ row.modified ≤ s

/-- It holds of a fresh database. -/
theorem Db.inv_fresh : Db.fresh.Inv 0 where
  tombstoneName := rfl
  stampKnown h := by simp [Db.fresh] at h
  stampPast h := by simp [Db.fresh] at h
  recordStamped h := by simp [Db.fresh] at h

/-- It holds as the clock goes on. -/
theorem Db.Inv.mono {t t' : ℕ} {db : Db} (inv : db.Inv t) (h : t ≤ t') : db.Inv t' where
  tombstoneName := inv.tombstoneName
  stampKnown := inv.stampKnown
  stampPast hs := Nat.le_trans (inv.stampPast hs) h
  recordStamped := inv.recordStamped

/-- The reserved name has the reserved id. -/
theorem Db.Inv.idxOf?_empty {t : ℕ} {db : Db} (inv : db.Inv t) : db.collections.idxOf? "" = some tombstone := by
  have hhead := inv.tombstoneName
  cases hnames : db.collections with
  | nil => simp [hnames] at hhead
  | cons first rest =>
    simp only [hnames, List.head?_cons, Option.some.injEq] at hhead
    simp [hhead, List.idxOf?_cons, tombstone]

/-- No valid name has it. -/
theorem Db.Inv.ne_tombstone {t : ℕ} {db : Db} (inv : db.Inv t) {name : String} {c : ℕ}
    (valid : collectionRe name = true) (hid : db.collections.idxOf? name = some c) : c ≠ tombstone := by
  intro hc
  subst hc
  have hempty : name = "" := name_eq_of_idxOf? hid inv.idxOf?_empty
  subst hempty
  exact absurd valid (by decide)

/-- The head of the names stays. -/
theorem head?_of_isPrefix {names names' : List String} (h : names <+: names') {first : String}
    (hfirst : names.head? = some first) : names'.head? = some first := by
  obtain ⟨more, rfl⟩ := h
  cases names with
  | nil => simp at hfirst
  | cons a rest => simpa using hfirst

/-- Once a name is made sure of, its id is one of the table's. -/
theorem idFor_lt_length (db : Db) (name : String) : db.idFor name < (db.ensure name).collections.length := by
  obtain ⟨hlt, -⟩ := List.idxOf?_eq_some_iff.mp (idxOf?_ensure db name)
  exact hlt

/-- The invariant after a step in which every timestamp is an old one or the instant of the
request, and every record keeps a timestamp above it. -/
theorem Db.Inv.next {call : Call} {db db' : Db} {t : ℕ} (inv : db.Inv t) (ht : t ≤ call.now)
    (names : db.collections <+: db'.collections)
    (stamps : ∀ {uid c s : ℕ}, db'.userCollections.find? ⟨uid, c⟩ = some s →
      db.userCollections.find? ⟨uid, c⟩ = some s ∨ c < db'.collections.length ∧ s = call.now)
    (records : ∀ {uid c : ℕ} {id : String} {row : BsoRow}, db'.bso.find? ⟨uid, c, id⟩ = some row →
      ∃ s, db'.userCollections.find? ⟨uid, c⟩ = some s ∧ row.modified ≤ s) : db'.Inv call.now where
  tombstoneName := head?_of_isPrefix names inv.tombstoneName
  stampKnown h := by
    obtain hold | ⟨hlt, -⟩ := stamps h
    · exact Nat.lt_of_lt_of_le (inv.stampKnown hold) names.length_le
    · exact hlt
  stampPast h := by
    obtain hold | ⟨-, rfl⟩ := stamps h
    · exact Nat.le_trans (inv.stampPast hold) ht
    · exact le_rfl
  recordStamped := records

/-- A record that stays is still covered if its collection's timestamp stays or moves to the
instant of the request. -/
theorem Db.Inv.covered {call : Call} {db db' : Db} {t uid c : ℕ} {id : String} {row : BsoRow} (inv : db.Inv t)
    (ht : t ≤ call.now) (hrow : db.bso.find? ⟨uid, c, id⟩ = some row)
    (hstamp : db'.userCollections.find? ⟨uid, c⟩ = db.userCollections.find? ⟨uid, c⟩ ∨
      db'.userCollections.find? ⟨uid, c⟩ = some call.now) :
    ∃ s, db'.userCollections.find? ⟨uid, c⟩ = some s ∧ row.modified ≤ s := by
  obtain ⟨s, hs, hle⟩ := inv.recordStamped hrow
  obtain hsame | hnow := hstamp
  · exact ⟨s, hsame.trans hs, hle⟩
  · exact ⟨call.now, hnow, Nat.le_trans hle (Nat.le_trans (inv.stampPast hs) ht)⟩

/-- It holds once a name is made sure of. -/
theorem Db.Inv.ensure {t : ℕ} {db : Db} (inv : db.Inv t) (name : String) : (db.ensure name).Inv t where
  tombstoneName := head?_of_isPrefix (prefix_ensure db name) inv.tombstoneName
  stampKnown hs := by
    rw [ensure_userCollections] at hs
    exact Nat.lt_of_lt_of_le (inv.stampKnown hs) (prefix_ensure db name).length_le
  stampPast hs := by
    rw [ensure_userCollections] at hs
    exact inv.stampPast hs
  recordStamped hrow := by
    rw [ensure_bso] at hrow
    rw [ensure_userCollections]
    exact inv.recordStamped hrow

/-- The timestamps once one of them is set. -/
theorem find?_set_stamp (t : Table UserCollectionKey ℕ) (uid c s uid' c' : ℕ) :
    (t.set ⟨uid, c⟩ s).find? ⟨uid', c'⟩ = if uid' = uid ∧ c' = c then some s else t.find? ⟨uid', c'⟩ := by
  simp only [Table.find?_set, UserCollectionKey.mk.injEq]

/-- The timestamps once one of them is gone. -/
theorem find?_delete_stamp (t : Table UserCollectionKey ℕ) (uid c uid' c' : ℕ) :
    (t.deleteWhere fun key _ => key = ⟨uid, c⟩).find? ⟨uid', c'⟩ =
      if uid' = uid ∧ c' = c then none else t.find? ⟨uid', c'⟩ := by
  by_cases hkey : uid' = uid ∧ c' = c
  · rw [if_pos hkey]
    exact Table.find?_deleteWhere_of_true fun _ _ => by simp [hkey]
  · rw [if_neg hkey]
    exact Table.find?_deleteWhere_of_false fun _ _ => by simpa using hkey

/-- A timestamp after a request was there before, or is the instant of the request. -/
theorem Effect.stampOf {call : Call} {db db' : Db} {status uid c s : ℕ} (h : Effect call db db' status)
    (hs : db'.userCollections.find? ⟨uid, c⟩ = some s) :
    db.userCollections.find? ⟨uid, c⟩ = some s ∨ c < db'.collections.length ∧ s = call.now := by
  have hset : ∀ {name : String}, db'.collections = (db.ensure name).collections →
      db'.userCollections = db.userCollections.set ⟨call.uid, db.idFor name⟩ call.now →
      db.userCollections.find? ⟨uid, c⟩ = some s ∨ c < db'.collections.length ∧ s = call.now := by
    intro name names stamps
    rw [stamps, find?_set_stamp] at hs
    split at hs
    · rename_i heq
      exact Or.inr ⟨by rw [names, heq.2]; exact idFor_lt_length db name, (Option.some.inj hs).symm⟩
    · exact Or.inl hs
  cases h with
  | keep names bso stamps idle => exact Or.inl (stamps ▸ hs)
  | wrote url valid fresh names bso stamps => exact hset names stamps
  | removed url valid idle fresh names bso stamps => exact hset names stamps
  | @dropped name url valid idle fresh names bso stamps =>
    rw [stamps, find?_set_stamp, find?_delete_stamp] at hs
    split at hs
    · rename_i heq
      refine Or.inr ⟨?_, (Option.some.inj hs).symm⟩
      rw [names, heq.2]
      exact Nat.lt_of_le_of_lt (Nat.zero_le _) (idFor_lt_length db name)
    · split at hs
      · cases hs
      · exact Or.inl hs
  | wiped request names bso stamps =>
    rw [stamps, Table.find?_deleteWhere, Option.filter_eq_some_iff] at hs
    exact Or.inl hs.1

/-- A record after a request was written by it, in a collection that is stamped then, or kept its
timestamp, in a collection whose timestamp stayed or moved on to the instant of the request. -/
theorem Effect.rowOf {call : Call} {db db' : Db} {status uid c : ℕ} {id : String} {row : BsoRow}
    (h : Effect call db db' status) (hrow : db'.bso.find? ⟨uid, c, id⟩ = some row) :
    (row.modified = call.now ∧ db'.userCollections.find? ⟨uid, c⟩ = some call.now ∧
        ∃ name, collectionRe name = true ∧ c = db.idFor name) ∨
      ∃ r, db.bso.find? ⟨uid, c, id⟩ = some r ∧ row.modified = r.modified ∧
        (db'.userCollections.find? ⟨uid, c⟩ = db.userCollections.find? ⟨uid, c⟩ ∨
          db'.userCollections.find? ⟨uid, c⟩ = some call.now ∧
            (c = tombstone ∨ ∀ s, db.userCollections.find? ⟨uid, c⟩ = some s → s < call.now)) := by
  cases h with
  | keep names bso stamps idle =>
    rw [bso] at hrow
    exact Or.inr ⟨row, hrow, rfl, Or.inl (by rw [stamps])⟩
  | @wrote name url valid fresh names bso stamps =>
    have hstamp : db'.userCollections.find? ⟨uid, c⟩ =
        if uid = call.uid ∧ c = db.idFor name then some call.now else db.userCollections.find? ⟨uid, c⟩ := by
      rw [stamps, find?_set_stamp]
    by_cases hkey : uid = call.uid ∧ c = db.idFor name
    · rw [if_pos hkey] at hstamp
      obtain ⟨rfl, rfl⟩ := hkey
      rw [bso] at hrow
      have hfold := (find?_writes db.bso call.store (db.idFor name) (call.recordWrites db) id).symm.trans hrow
      obtain hnow | ⟨r, hr, hmodified⟩ := RecordWrite.fold_modified hfold
      · exact Or.inl ⟨hnow, hstamp, name, valid, rfl⟩
      · exact Or.inr ⟨r, hr, hmodified, Or.inr ⟨hstamp, Or.inr fresh⟩⟩
    · rw [if_neg hkey] at hstamp
      rw [bso, find?_writes_of_ne (not_and_or.mp hkey)] at hrow
      exact Or.inr ⟨row, hrow, rfl, Or.inl hstamp⟩
  | @removed name ids url valid idle fresh names bso stamps =>
    rw [bso, Table.find?_deleteWhere, Option.filter_eq_some_iff] at hrow
    refine Or.inr ⟨row, hrow.1, rfl, ?_⟩
    rw [stamps, find?_set_stamp]
    split
    · rename_i heq
      obtain ⟨rfl, rfl⟩ := heq
      exact Or.inr ⟨rfl, Or.inr fresh⟩
    · exact Or.inl rfl
  | @dropped name url valid idle fresh names bso stamps =>
    rw [bso, Table.find?_deleteWhere, Option.filter_eq_some_iff] at hrow
    have hother : ¬(uid = call.uid ∧ c = db.idFor name) := by
      simpa [inCollection, imp_iff_not_or] using hrow.2
    refine Or.inr ⟨row, hrow.1, rfl, ?_⟩
    rw [stamps, find?_set_stamp, find?_delete_stamp, if_neg hother]
    split
    · rename_i heq
      exact Or.inr ⟨rfl, Or.inl heq.2⟩
    · exact Or.inl rfl
  | wiped request names bso stamps =>
    rw [bso, Table.find?_deleteWhere, Option.filter_eq_some_iff] at hrow
    have hother : uid ≠ call.uid := by simpa using hrow.2
    refine Or.inr ⟨row, hrow.1, rfl, Or.inl ?_⟩
    rw [stamps]
    exact Table.find?_deleteWhere_of_false fun _ _ => by simpa using hother

/-- Every request keeps the invariant. -/
theorem Effect.inv {call : Call} {db db' : Db} {status t : ℕ} (h : Effect call db db' status)
    (inv : db.Inv t) (ht : t ≤ call.now) : db'.Inv call.now := by
  refine inv.next ht h.names h.stampOf fun {uid c id row} hrow => ?_
  obtain ⟨hnow, hstamp, -⟩ | ⟨r, hr, hmodified, hstamp⟩ := h.rowOf hrow
  · exact ⟨call.now, hstamp, hnow.le⟩
  · rw [hmodified]
    exact inv.covered ht hr (hstamp.imp_right And.left)

/-! ### One collection of one user -/

/-- The timestamp of a user's collection, if there is one. -/
def Db.stamp (db : Db) (uid : ℕ) (name : String) : Option ℕ :=
  (db.collections.idxOf? name).bind fun c => db.userCollections.find? ⟨uid, c⟩

/-- A record of a user's collection, expired or not. -/
def Db.record (db : Db) (uid : ℕ) (name id : String) : Option BsoRow :=
  (db.collections.idxOf? name).bind fun c => db.bso.find? ⟨uid, c, id⟩

/-- A record that has not run out at some instant. -/
def BsoRow.alive (now : ℕ) (row : BsoRow) : Bool := now < row.expiry

/-- A reader sees the record only until then. -/
theorem filter_alive (now : ℕ) (row : BsoRow) :
    (some row).filter (BsoRow.alive now) = if now < row.expiry then some row else none := by
  simp only [Option.filter_some, BsoRow.alive, decide_eq_true_eq]

/-- What `get_bso` answers with, from the record and the instant. -/
theorem getBso_eq (self : SyncStore) (name id : String) (db : Db) :
    getBso self name id db =
      ((db.record self.uid name id).filter (BsoRow.alive self.now)).elim (.error (.http notFound)) fun row =>
        .ok ({ body := .record (Bso.asJson ⟨id, row.modified, row.payload, row.sortindex, row.expiry⟩) }, db) := by
  have halive : BsoRow.alive self.now = fun row => decide (self.now < row.expiry) := rfl
  unfold getBso SyncStore.getBso Db.record
  cases hid : SyncStore.collectionId db name with
  | error e =>
    obtain ⟨hnone, rfl⟩ := collectionId_eq_error.mp hid
    rw [hnone]
    rfl
  | ok c =>
    rw [collectionId_eq_ok.mp hid, Option.bind_some, ok_bind, halive]
    dsimp only
    cases (db.bso.find? ⟨self.uid, c, id⟩).filter fun row => decide (self.now < row.expiry) with
    | none => rfl
    | some row => rfl

/-- The timestamp under the id a write uses. -/
theorem Db.Inv.stamp_eq {t : ℕ} {db : Db} (inv : db.Inv t) (uid : ℕ) (name : String) :
    db.stamp uid name = db.userCollections.find? ⟨uid, db.idFor name⟩ := by
  unfold Db.stamp
  cases h : db.collections.idxOf? name with
  | some c => rw [(ensure_of_known h).2, Option.bind_some]
  | none =>
    rw [(ensure_of_unknown h).2, Option.bind_none]
    cases hs : db.userCollections.find? ⟨uid, db.collections.length⟩ with
    | none => rfl
    | some s => exact absurd (inv.stampKnown hs) (lt_irrefl _)

/-- A record under the id a write uses. -/
theorem Db.Inv.record_eq {t : ℕ} {db : Db} (inv : db.Inv t) (uid : ℕ) (name id : String) :
    db.record uid name id = db.bso.find? ⟨uid, db.idFor name, id⟩ := by
  unfold Db.record
  cases h : db.collections.idxOf? name with
  | some c => rw [(ensure_of_known h).2, Option.bind_some]
  | none =>
    rw [(ensure_of_unknown h).2, Option.bind_none]
    cases hrow : db.bso.find? ⟨uid, db.collections.length, id⟩ with
    | none => rfl
    | some row =>
      obtain ⟨s, hs, -⟩ := inv.recordStamped hrow
      exact absurd (inv.stampKnown hs) (lt_irrefl _)

/-- A record is covered by its collection's timestamp. -/
theorem Db.Inv.record_le_stamp {t : ℕ} {db : Db} (inv : db.Inv t) {uid : ℕ} {name id : String} {row : BsoRow}
    (h : db.record uid name id = some row) : ∃ s, db.stamp uid name = some s ∧ row.modified ≤ s := by
  rw [inv.record_eq] at h
  obtain ⟨s, hs, hle⟩ := inv.recordStamped h
  exact ⟨s, by rw [inv.stamp_eq, hs], hle⟩

/-- The effect of a request, answered with some status, on one collection of one user. -/
inductive Change (call : Call) (db db' : Db) (status uid : ℕ) (name : String) : Prop
  | same (stamp : db'.stamp uid name = db.stamp uid name)
      (records : ∀ id, db'.record uid name id = db.record uid name id)
      (idle : call.uid = uid → call.request.collection = some name → 300 ≤ status ∨ call.recordWrites db = [])
  | wrote (user : call.uid = uid) (url : call.request.collection = some name) (ok : status = 200)
      (fresh : ∀ s, db.stamp uid name = some s → s < call.now) (stamp : db'.stamp uid name = some call.now)
      (records : ∀ id, db'.record uid name id =
        RecordWrite.fold call.store id (call.recordWrites db) (db.record uid name id))
  | removed (ids : List String) (user : call.uid = uid) (url : call.request.collection = some name)
      (ok : status = 200) (idle : call.recordWrites db = [])
      (fresh : ∀ s, db.stamp uid name = some s → s < call.now) (stamp : db'.stamp uid name = some call.now)
      (records : ∀ id, db'.record uid name id = if ids.contains id then none else db.record uid name id)
  | dropped (user : call.uid = uid) (url : call.request.collection = some name) (ok : status = 200)
      (idle : call.recordWrites db = []) (fresh : ∀ s, db.stamp uid name = some s → s < call.now)
      (stamp : db'.stamp uid name = none) (records : ∀ id, db'.record uid name id = none)
  | wiped (user : call.uid = uid) (request : call.request = .deleteAll) (ok : status = 200)
      (stamp : db'.stamp uid name = none) (records : ∀ id, db'.record uid name id = none)

/-- A collection whose rows are the old ones looks the same, also if it had no id before. -/
theorem view_of_tables {t : ℕ} {db db' : Db} (uid : ℕ) (name : String) (inv : db.Inv t)
    (names : db.collections <+: db'.collections)
    (stamps : ∀ c, db'.collections.idxOf? name = some c →
      db'.userCollections.find? ⟨uid, c⟩ = db.userCollections.find? ⟨uid, c⟩)
    (records : ∀ c id, db'.collections.idxOf? name = some c →
      db'.bso.find? ⟨uid, c, id⟩ = db.bso.find? ⟨uid, c, id⟩) :
    db'.stamp uid name = db.stamp uid name ∧ ∀ id, db'.record uid name id = db.record uid name id := by
  unfold Db.stamp Db.record
  cases hold : db.collections.idxOf? name with
  | some c =>
    have hnew := idxOf?_of_isPrefix names hold
    rw [hnew]
    exact ⟨stamps c hnew, fun id => records c id hnew⟩
  | none =>
    cases hnew : db'.collections.idxOf? name with
    | none => exact ⟨rfl, fun _ => rfl⟩
    | some c =>
      have hle := length_le_of_idxOf? names hold hnew
      simp only [Option.bind_none, Option.bind_some]
      rw [stamps c hnew]
      constructor
      · cases hs : db.userCollections.find? ⟨uid, c⟩ with
        | none => rfl
        | some s => exact absurd (inv.stampKnown hs) (not_lt.mpr hle)
      · intro id
        rw [records c id hnew]
        cases hrow : db.bso.find? ⟨uid, c, id⟩ with
        | none => rfl
        | some row =>
          obtain ⟨s, hs, -⟩ := inv.recordStamped hrow
          exact absurd (inv.stampKnown hs) (not_lt.mpr hle)

/-- The collection a write names, afterwards. -/
theorem view_of_ensure {db db' : Db} {name : String} (names : db'.collections = (db.ensure name).collections)
    (uid : ℕ) :
    db'.stamp uid name = db'.userCollections.find? ⟨uid, db.idFor name⟩ ∧
      ∀ id, db'.record uid name id = db'.bso.find? ⟨uid, db.idFor name, id⟩ := by
  unfold Db.stamp Db.record
  rw [names, idxOf?_ensure]
  exact ⟨rfl, fun _ => rfl⟩

/-- Every effect is a change of each collection of each user. -/
theorem Effect.change {call : Call} {db db' : Db} {status t : ℕ} (h : Effect call db db' status)
    (inv : db.Inv t) (ht : t ≤ call.now) (uid : ℕ) {name : String} (valid : collectionRe name = true) :
    Change call db db' status uid name := by
  have inv' := h.inv inv ht
  -- another collection, or another user's, has other rows
  have hother : ∀ {written : String} {c : ℕ}, db'.collections = (db.ensure written).collections →
      ¬(call.uid = uid ∧ call.request.collection = some name) → call.request.collection = some written →
      db'.collections.idxOf? name = some c → ¬(uid = call.uid ∧ c = db.idFor written) := by
    intro written c hnames helse hurl hc heq
    have hwritten : db'.collections.idxOf? written = some c := by
      rw [hnames, idxOf?_ensure, heq.2]
    obtain rfl := name_eq_of_idxOf? hwritten hc
    exact helse ⟨heq.1.symm, hurl⟩
  cases h with
  | keep names bso stamps idle =>
    obtain ⟨hstamp, hrecords⟩ := view_of_tables uid name inv names (fun c _ => by rw [stamps])
      fun c id _ => by rw [bso]
    exact .same hstamp hrecords fun _ _ => idle
  | @wrote written url valid' fresh names bso stamps =>
    by_cases hhere : call.uid = uid ∧ call.request.collection = some name
    · obtain ⟨rfl, hurl⟩ := hhere
      obtain rfl : written = name := Option.some.inj (url.symm.trans hurl)
      obtain ⟨hstamp, hrecords⟩ := view_of_ensure names call.uid
      refine .wrote rfl url rfl (fun s hs => fresh s (by rwa [inv.stamp_eq] at hs)) ?_ fun id => ?_
      · rw [hstamp, stamps, find?_set_stamp, if_pos ⟨rfl, rfl⟩]
      · rw [hrecords, bso, inv.record_eq]
        exact find?_writes db.bso call.store (db.idFor written) (call.recordWrites db) id
    · obtain ⟨hstamp, hrecords⟩ := view_of_tables uid name inv (names ▸ prefix_ensure db written)
        (fun c hc => by rw [stamps, find?_set_stamp, if_neg (hother names hhere url hc)])
        fun c id hc => by
          rw [bso]
          exact find?_writes_of_ne (not_and_or.mp (hother names hhere url hc))
      exact .same hstamp hrecords fun huser hurl => absurd ⟨huser, hurl⟩ hhere
  | @removed written ids url valid' idle fresh names bso stamps =>
    by_cases hhere : call.uid = uid ∧ call.request.collection = some name
    · obtain ⟨rfl, hurl⟩ := hhere
      obtain rfl : written = name := Option.some.inj (url.symm.trans hurl)
      obtain ⟨hstamp, hrecords⟩ := view_of_ensure names call.uid
      refine .removed ids rfl url rfl idle (fun s hs => fresh s (by rwa [inv.stamp_eq] at hs)) ?_ fun id => ?_
      · rw [hstamp, stamps, find?_set_stamp, if_pos ⟨rfl, rfl⟩]
      · rw [hrecords, bso, inv.record_eq]
        cases hid : ids.contains id with
        | true => exact Table.find?_deleteWhere_of_true fun _ _ => by simpa [named] using hid
        | false => exact Table.find?_deleteWhere_of_false fun _ _ => by simpa [named] using hid
    · obtain ⟨hstamp, hrecords⟩ := view_of_tables uid name inv (names ▸ prefix_ensure db written)
        (fun c hc => by rw [stamps, find?_set_stamp, if_neg (hother names hhere url hc)])
        fun c id hc => by
          rw [bso]
          refine Table.find?_deleteWhere_of_false fun _ _ => ?_
          have hne := hother names hhere url hc
          simp only [named, Bool.and_eq_false_iff, decide_eq_false_iff_not]
          exact Or.inl (not_and_or.mp hne)
      exact .same hstamp hrecords fun huser hurl => absurd ⟨huser, hurl⟩ hhere
  | @dropped written url valid' idle fresh names bso stamps =>
    have hreserved : ∀ {c : ℕ}, db'.collections.idxOf? name = some c → ¬(uid = call.uid ∧ c = tombstone) :=
      fun hc heq => inv'.ne_tombstone valid hc heq.2
    by_cases hhere : call.uid = uid ∧ call.request.collection = some name
    · obtain ⟨rfl, hurl⟩ := hhere
      obtain rfl : written = name := Option.some.inj (url.symm.trans hurl)
      obtain ⟨hstamp, hrecords⟩ := view_of_ensure names call.uid
      refine .dropped rfl url rfl idle (fun s hs => fresh s (by rwa [inv.stamp_eq] at hs)) ?_ fun id => ?_
      · have hc : db'.collections.idxOf? written = some (db.idFor written) := by rw [names, idxOf?_ensure]
        rw [hstamp, stamps, find?_set_stamp, if_neg (hreserved hc), find?_delete_stamp, if_pos ⟨rfl, rfl⟩]
      · rw [hrecords, bso]
        exact Table.find?_deleteWhere_of_true fun _ _ => by simp [inCollection]
    · obtain ⟨hstamp, hrecords⟩ := view_of_tables uid name inv (names ▸ prefix_ensure db written)
        (fun c hc => by
          rw [stamps, find?_set_stamp, if_neg (hreserved hc), find?_delete_stamp,
            if_neg (hother names hhere url hc)])
        fun c id hc => by
          rw [bso]
          refine Table.find?_deleteWhere_of_false fun _ _ => ?_
          have hne := hother names hhere url hc
          simp only [inCollection, Bool.and_eq_false_iff, decide_eq_false_iff_not]
          exact not_and_or.mp hne
      exact .same hstamp hrecords fun huser hurl => absurd ⟨huser, hurl⟩ hhere
  | wiped request names bso stamps =>
    by_cases huser : call.uid = uid
    · subst huser
      refine .wiped rfl request rfl ?_ fun id => ?_
      · rw [inv'.stamp_eq, stamps]
        exact Table.find?_deleteWhere_of_true fun _ _ => by simp
      · rw [inv'.record_eq, bso]
        exact Table.find?_deleteWhere_of_true fun _ _ => by simp
    · obtain ⟨hstamp, hrecords⟩ := view_of_tables uid name inv
        (show db.collections <+: db'.collections from names ▸ List.prefix_rfl)
        (fun c _ => by
          rw [stamps]
          exact Table.find?_deleteWhere_of_false fun _ _ => by simpa using Ne.symm huser)
        fun c id _ => by
          rw [bso]
          exact Table.find?_deleteWhere_of_false fun _ _ => by simpa using Ne.symm huser
      exact .same hstamp hrecords fun heq _ => absurd heq huser

/-- The change a request makes to one collection of one user. -/
theorem serve_change (p : Platform) {db : Db} {call : Call} {t : ℕ} (inv : db.Inv t) (ht : t ≤ call.now)
    (uid : ℕ) {name : String} (valid : collectionRe name = true) :
    Change call db (serve p db call).1 (serve p db call).2.status uid name :=
  (serve_effect p db call).change inv ht uid valid

/-- The invariant holds of every database a run of requests leads to. -/
theorem inv_of_run (p : Platform) {calls : List Call} (htimed : Timed Call.now 0 calls) :
    ((server p).run Db.fresh calls).Inv (lastTime Call.now 0 calls) :=
  (server p).run_invariant (P := fun t db => db.Inv t)
    (fun _ _ call inv ht _ => (serve_effect p _ call).inv inv ht) Db.inv_fresh htimed
    (server p).along_true

/-! ### Resource timestamps -/

/-- The list of a user's collections is not older than any of them. -/
theorem le_storageTimestamp {db : Db} {uid c s now : ℕ} (h : db.userCollections.find? ⟨uid, c⟩ = some s) :
    s ≤ SyncStore.storageTimestamp ⟨uid, now⟩ db := by
  have hmem : (⟨uid, c⟩, s) ∈ db.userCollections.select fun key _ => key.uid = uid :=
    Table.mem_select.mpr ⟨h, by simp⟩
  have hmax : ∀ l : List ℕ, s ∈ l → s ≤ l.foldr max 0 := by
    intro l hl
    induction l with
    | nil => cases hl
    | cons a rest ih =>
      obtain rfl | hl := List.mem_cons.mp hl
      · exact Nat.le_max_left _ _
      · exact Nat.le_trans (ih hl) (Nat.le_max_right _ _)
  exact hmax _ (List.mem_map_of_mem (f := Prod.snd) hmem)

/-- A collection that is not there has timestamp zero. -/
theorem collectionResource_eq (self : SyncStore) (name : String) (db : Db) :
    collectionResource self name db = (db.stamp self.uid name).getD 0 := by
  unfold collectionResource SyncStore.collectionTimestamp Db.stamp
  cases h : SyncStore.collectionId db name with
  | error e => simp [(collectionId_eq_error.mp h).1]
  | ok c =>
    rw [collectionId_eq_ok.mp h, ok_bind, Option.bind_some]
    cases db.userCollections.find? ⟨self.uid, c⟩ <;> rfl

/-- So has a record; an expired one that is still stored has not. -/
theorem bsoResource_eq (self : SyncStore) (name id : String) (db : Db) :
    bsoResource self name id db = ((db.record self.uid name id).map BsoRow.modified).getD 0 := by
  unfold bsoResource SyncStore.bsoTimestamp Db.record
  cases h : SyncStore.collectionId db name with
  | error e => simp [(collectionId_eq_error.mp h).1]
  | ok c =>
    rw [collectionId_eq_ok.mp h, ok_bind, Option.bind_some]
    cases db.bso.find? ⟨self.uid, c, id⟩ <;> rfl

/-- Timestamps that are spelled alike are alike. -/
theorem timestampHeader_inj {a b : ℕ} : timestampHeader a = timestampHeader b ↔ a = b := by
  simp only [timestampHeader]
  constructor
  · intro h
    have hcast : (a : ℚ) = b := by
      field_simp at h
      exact h
    exact_mod_cast hcast
  · intro h
    rw [h]

/-- A response that was not raised comes from the route's precondition or its handler. -/
theorem serve_eq_of_lastModified {p : Platform} {db : Db} {call : Call} {last : ℚ}
    (h : (serve p db call).2.lastModified = some last) :
    ∃ response, handle p call db = .ok (response, (serve p db call).1) ∧
      (serve p db call).2 = stampWeave call response := by
  unfold serve at h ⊢
  split
  · rename_i response db' hhandle
    exact ⟨response, hhandle, rfl⟩
  · rename_i raised hhandle
    simp only [hhandle] at h
    unfold errorResponse at h
    split at h <;> cases h

/-- A read answers with the timestamp of its resource, and changes nothing. -/
theorem read_lastModified {p : Platform} {db : Db} {call : Call} {r : Route} {last : ℚ}
    (hroute : route p call = .ok r) (hcollection : r.collection = none) (hreads : Reads r.handler)
    (h : (serve p db call).2.lastModified = some last) :
    (serve p db call).1 = db ∧ last = timestampHeader (r.resource db) := by
  obtain ⟨response, hhandle, hserve⟩ := serve_eq_of_lastModified h
  rw [hserve, stampWeave_lastModified] at h
  obtain ⟨r', hroute', hend⟩ := handle_eq_ok hhandle
  obtain rfl : r = r' := Except.ok.inj (hroute.symm.trans hroute')
  obtain ⟨hpre, hdb⟩ | ⟨locked, answer, -, hlocked, hanswer, rfl⟩ := hend
  · have hrefused := (precondition_some hpre).2
    exact ⟨hdb, Option.some.inj (h.symm.trans hrefused)⟩
  · rw [hcollection] at hlocked
    obtain rfl : locked = db := hlocked
    obtain ⟨hdb, -, hnone⟩ := hreads _ _ _ hanswer
    rw [hnone] at h
    exact ⟨hdb, (Option.some.inj h).symm⟩

/-- What a read of a collection is routed to. -/
theorem route_getCollection {p : Platform} {call : Call} {r : Route} {name : String} {params : Params}
    {newlines : Bool} (hreq : call.request = .getCollection name params newlines) (hroute : route p call = .ok r) :
    collectionRe name = true ∧ ∃ query, parseQuery p.float params = .ok query ∧
      r = ⟨collectionResource call.store name, none,
        getCollection p call.store name query (params "full").isSome newlines⟩ := by
  unfold route at hroute
  simp only [hreq, bind_eq_ok, Except.ok.injEq] at hroute
  obtain ⟨_, hvalid, query, hquery, rfl⟩ := hroute
  exact ⟨validateCollection_eq_ok.mp hvalid, query, hquery, rfl⟩

/-- A read of a collection answers with the collection's timestamp, zero if there is none. -/
theorem getCollection_lastModified {p : Platform} {db : Db} {call : Call} {name : String} {params : Params}
    {newlines : Bool} {last : ℕ} (hreq : call.request = .getCollection name params newlines)
    (h : (serve p db call).2.lastModified = some (timestampHeader last)) :
    collectionRe name = true ∧ (serve p db call).1 = db ∧ last = (db.stamp call.uid name).getD 0 := by
  obtain ⟨response, hhandle, -⟩ := serve_eq_of_lastModified h
  obtain ⟨r, hroute, -⟩ := handle_eq_ok hhandle
  obtain ⟨valid, query, -, rfl⟩ := route_getCollection hreq hroute
  obtain ⟨hdb, hlast⟩ := read_lastModified hroute rfl (getCollection_reads p _ name query _ newlines) h
  exact ⟨valid, hdb, (timestampHeader_inj.mp hlast).trans (collectionResource_eq call.store name db)⟩

end FxaLite.SyncStorage
