import FxaLite.SyncStorage.Names
import Mathlib.Data.List.Dedup
import Mathlib.Data.List.GetD
import Mathlib.Algebra.Order.Group.Nat
import Mathlib.Algebra.BigOperators.Group.List.Basic

/-!
# One user's part of two databases

The id of a collection depends on who wrote to which name first, so the same data of one user
can lie under different ids in two databases. Here two databases are compared as a user sees
them: the timestamps, records, batches and staged items under the names of their collections.
Every read is a function of that, except that a name without any data may be known in one of
the two and unknown in the other.
-/

namespace FxaLite.SyncStorage

open Relational Reactive Fallible

/-! ### Names and ids -/

section Names

variable {α : Type*} {names names' : List String} {name : String} {c : ℕ}

/-- The name of an id is the one that has it. -/
theorem getD_of_idxOf? (h : names.idxOf? name = some c) : names.getD c "" = name := by
  obtain ⟨hlt, hget, -⟩ := List.idxOf?_eq_some_iff.mp h
  rw [List.getD_eq_getElem _ _ hlt]
  exact hget

/-- Where no name stands twice, every id in use belongs to its name. -/
theorem idxOf?_getD (hnodup : names.Nodup) (hlt : c < names.length) : names.idxOf? (names.getD c "") = some c := by
  rw [List.getD_eq_getElem _ _ hlt, List.idxOf?_eq_some_iff]
  refine ⟨hlt, rfl, fun j hj heq => ?_⟩
  exact absurd ((hnodup.getElem_inj_iff).mp heq) (Nat.ne_of_lt hj)

/-- What is stored under ids in use is found under the same names after more have been added. -/
theorem bind_idxOf?_of_isPrefix (h : names <+: names') {f : ℕ → Option α} (hf : ∀ c, names.length ≤ c → f c = none) :
    (names'.idxOf? name).bind f = (names.idxOf? name).bind f := by
  cases hold : names.idxOf? name with
  | some c =>
    have hnew := idxOf?_of_isPrefix h hold
    rw [hnew]
  | none =>
    cases hnew : names'.idxOf? name with
    | none => rfl
    | some c => exact hf c (length_le_of_idxOf? h hold hnew)

/-- A change of what is stored under one id is a change of what is found under its name. -/
theorem bind_idxOf?_of_local (hc : names.idxOf? name = some c) {f f' : ℕ → Option α} {change : Option α → Option α}
    (h : ∀ k, f' k = if k = c then change (f k) else f k) (other : String) :
    (names.idxOf? other).bind f' =
      if other = name then change ((names.idxOf? other).bind f) else (names.idxOf? other).bind f := by
  by_cases hname : other = name
  · subst hname
    rw [if_pos rfl, hc, Option.bind_some, Option.bind_some, h, if_pos rfl]
  · rw [if_neg hname]
    cases hk : names.idxOf? other with
    | none => rfl
    | some k =>
      have hne : k ≠ c := fun heq => hname (name_eq_of_idxOf? hk (heq ▸ hc))
      rw [Option.bind_some, Option.bind_some, h, if_neg hne]

end Names

/-- A name is added at most once. -/
theorem nodup_ensure {db : Db} (h : db.collections.Nodup) (name : String) : (db.ensure name).collections.Nodup := by
  cases hid : db.collections.idxOf? name with
  | some c =>
    rw [(ensure_of_known hid).1]
    exact h
  | none =>
    have hnew : name ∉ db.collections := List.idxOf?_eq_none_iff.mp hid
    rw [(ensure_of_unknown hid).1]
    refine List.nodup_append.mpr ⟨h, List.nodup_singleton _, fun a ha b hb heq => ?_⟩
    obtain rfl := List.mem_singleton.mp hb
    exact hnew (heq ▸ ha)

/-! ### The view of a user -/

/-- The collection a user's open batch belongs to. -/
def Db.batchName (db : Db) (uid : ℕ) (batchId : ℤ) : Option String :=
  (db.batches.find? ⟨uid, batchId⟩).map (SyncStore.collectionName db)

/-- Every id that a user's rows refer to has a name of its own. -/
structure Db.Named (uid : ℕ) (db : Db) : Prop where
  tombstoneName : db.collections.head? = some ""
  nodup : db.collections.Nodup
  stampKnown : ∀ {c s : ℕ}, db.userCollections.find? ⟨uid, c⟩ = some s → c < db.collections.length
  recordKnown : ∀ {c : ℕ} {id : String} {row : BsoRow}, db.bso.find? ⟨uid, c, id⟩ = some row →
    c < db.collections.length
  batchKnown : ∀ {batchId : ℤ} {c : ℕ}, db.batches.find? ⟨uid, batchId⟩ = some c → c < db.collections.length

/-- A fresh database has no rows. -/
theorem Db.named_fresh (uid : ℕ) : Db.fresh.Named uid where
  tombstoneName := rfl
  nodup := List.nodup_singleton _
  stampKnown h := by simp [Db.fresh] at h
  recordKnown h := by simp [Db.fresh] at h
  batchKnown h := by simp [Db.fresh] at h

/-- The second database shadows the first for a user: it has the same data of that user, under
the same names, and knows no other names. -/
structure Shadow (uid : ℕ) (db alone : Db) : Prop where
  named : db.Named uid
  namedAlone : alone.Named uid
  subset : alone.collections ⊆ db.collections
  stamps : ∀ name, db.stamp uid name = alone.stamp uid name
  records : ∀ name id, db.record uid name id = alone.record uid name id
  batches : ∀ batchId, db.batchName uid batchId = alone.batchName uid batchId
  items : ∀ batchId id, db.batchItems.find? ⟨uid, batchId, id⟩ = alone.batchItems.find? ⟨uid, batchId, id⟩

/-- A fresh database shadows itself. -/
theorem shadow_fresh (uid : ℕ) : Shadow uid Db.fresh Db.fresh where
  named := Db.named_fresh uid
  namedAlone := Db.named_fresh uid
  subset := List.Subset.refl _
  stamps _ := rfl
  records _ _ := rfl
  batches _ := rfl
  items _ _ := rfl

namespace Db.Named

variable {uid : ℕ} {db : Db}

/-- The reserved name has the reserved id. -/
theorem idxOf?_empty (named : db.Named uid) : db.collections.idxOf? "" = some tombstone := by
  have hhead := named.tombstoneName
  cases hnames : db.collections with
  | nil => simp [hnames] at hhead
  | cons first rest =>
    simp only [hnames, List.head?_cons, Option.some.injEq] at hhead
    simp [hhead, List.idxOf?_cons, tombstone]

/-- The id of a row is that of its name. -/
theorem idxOf?_name (named : db.Named uid) {c : ℕ} (h : c < db.collections.length) :
    db.collections.idxOf? (SyncStore.collectionName db c) = some c := idxOf?_getD named.nodup h

/-- Ids of rows differ as their names do. -/
theorem name_inj (named : db.Named uid) {c k : ℕ} (hc : c < db.collections.length) (hk : k < db.collections.length)
    (h : SyncStore.collectionName db c = SyncStore.collectionName db k) : c = k :=
  Option.some.inj ((named.idxOf?_name hc).symm.trans (h ▸ named.idxOf?_name hk))

/-- A batch is open for a collection exactly when its row has the collection's id. -/
theorem batch_iff (named : db.Named uid) {name : String} {c : ℕ} (hc : db.collections.idxOf? name = some c)
    (batchId : ℤ) : db.batches.find? ⟨uid, batchId⟩ = some c ↔ db.batchName uid batchId = some name := by
  unfold Db.batchName
  rw [Option.map_eq_some_iff]
  constructor
  · intro h
    exact ⟨c, h, getD_of_idxOf? hc⟩
  · intro h
    obtain ⟨k, hk, hname⟩ := h
    have hid := named.idxOf?_name (named.batchKnown hk)
    rw [hname, hc] at hid
    rw [hk, hid]

end Db.Named

/-! ### Rows of another user -/

/-- Two databases with the same rows of a user, of which the second may know more names. -/
structure SameRows (uid : ℕ) (db db' : Db) : Prop where
  stamps : ∀ c, db'.userCollections.find? ⟨uid, c⟩ = db.userCollections.find? ⟨uid, c⟩
  records : ∀ c id, db'.bso.find? ⟨uid, c, id⟩ = db.bso.find? ⟨uid, c, id⟩
  batches : ∀ batchId, db'.batches.find? ⟨uid, batchId⟩ = db.batches.find? ⟨uid, batchId⟩
  items : ∀ batchId id, db'.batchItems.find? ⟨uid, batchId, id⟩ = db.batchItems.find? ⟨uid, batchId, id⟩

/-- A batch id is the only key of its row. -/
theorem find?_batch_of_ne {t : Table BatchKey ℕ} {uid uid' : ℕ} (h : uid ≠ uid') (batchId batchId' : ℤ) (c : ℕ) :
    (t.set ⟨uid', batchId'⟩ c).find? ⟨uid, batchId⟩ = t.find? ⟨uid, batchId⟩ := by
  rw [Table.find?_set, if_neg]
  intro heq
  exact h (congrArg BatchKey.uid heq)

/-- A request of another user leaves a user's timestamps and records. -/
theorem Effect.frame {call : Call} {db db' : Db} {status uid : ℕ} (h : Effect call db db' status)
    (huid : uid ≠ call.uid) :
    (∀ c, db'.userCollections.find? ⟨uid, c⟩ = db.userCollections.find? ⟨uid, c⟩) ∧
      ∀ c id, db'.bso.find? ⟨uid, c, id⟩ = db.bso.find? ⟨uid, c, id⟩ := by
  have hset : ∀ c s k, (db.userCollections.set ⟨call.uid, k⟩ s).find? ⟨uid, c⟩ = db.userCollections.find? ⟨uid, c⟩ :=
    fun c s k => by rw [find?_set_stamp, if_neg fun heq => huid heq.1]
  cases h with
  | keep names bso stamps idle => exact ⟨fun c => by rw [stamps], fun c id => by rw [bso]⟩
  | wrote url valid fresh names bso stamps =>
    refine ⟨fun c => by rw [stamps, hset], fun c id => ?_⟩
    rw [bso]
    exact find?_writes_of_ne (Or.inl huid)
  | removed url valid idle fresh names bso stamps =>
    refine ⟨fun c => by rw [stamps, hset], fun c id => ?_⟩
    rw [bso]
    exact Table.find?_deleteWhere_of_false fun _ _ => by simp [named, huid]
  | dropped url valid idle fresh names bso stamps =>
    refine ⟨fun c => ?_, fun c id => ?_⟩
    · rw [stamps, find?_set_stamp, if_neg fun heq => huid heq.1, find?_delete_stamp, if_neg fun heq => huid heq.1]
    · rw [bso]
      exact Table.find?_deleteWhere_of_false fun _ _ => by simp [inCollection, huid]
  | wiped request names bso stamps =>
    refine ⟨fun c => ?_, fun c id => ?_⟩
    · rw [stamps]
      exact Table.find?_deleteWhere_of_false fun _ _ => by simpa using huid
    · rw [bso]
      exact Table.find?_deleteWhere_of_false fun _ _ => by simpa using huid

/-- So it does the batches and what is staged in them, also under the same batch id. -/
theorem BatchEffect.frame {call : Call} {db db' : Db} {answer : Response} {uid : ℕ}
    (h : BatchEffect call db db' answer) (huid : uid ≠ call.uid) :
    (∀ batchId, db'.batches.find? ⟨uid, batchId⟩ = db.batches.find? ⟨uid, batchId⟩) ∧
      ∀ batchId id, db'.batchItems.find? ⟨uid, batchId, id⟩ = db.batchItems.find? ⟨uid, batchId, id⟩ := by
  cases h with
  | keep batches items idle => exact ⟨fun _ => by rw [batches], fun _ _ => by rw [items]⟩
  | opened request free low high fresh names batches items body accepted =>
    refine ⟨fun batchId => ?_, fun batchId id => ?_⟩
    · rw [batches, find?_batch_of_ne huid]
    · rw [items, find?_stagedAll_of_ne (Or.inl huid)]
  | staged request append isOpen batches items accepted =>
    refine ⟨fun batchId => by rw [batches], fun batchId id => ?_⟩
    rw [items, find?_stagedAll_of_ne (Or.inl huid)]
  | committed request commit isOpen fresh after ok =>
    rw [after, SyncStore.deleteBatch, Db.written]
    simp only [ensure_batches, ensure_batchItems]
    exact ⟨fun _ => Table.find?_deleteWhere_of_false fun _ _ => by simp [huid, Call.store],
      fun _ _ => Table.find?_deleteWhere_of_false fun _ _ => by simp [huid, Call.store]⟩
  | wiped request batches items =>
    rw [batches, items]
    exact ⟨fun _ => Table.find?_deleteWhere_of_false fun _ _ => by simpa using huid,
      fun _ _ => Table.find?_deleteWhere_of_false fun _ _ => by simpa using huid⟩

/-- A request leaves every row of every other user. -/
theorem serve_sameRows (p : Platform) (db : Db) {call : Call} {uid : ℕ} (huid : uid ≠ call.uid) :
    SameRows uid db (serve p db call).1 := by
  obtain ⟨hstamps, hrecords⟩ := (serve_effect p db call).frame huid
  obtain ⟨hbatches, hitems⟩ := (serve_batches p db call).frame huid
  exact ⟨hstamps, hrecords, hbatches, hitems⟩

/-- The names stay distinct. -/
theorem serve_nodup (p : Platform) {db : Db} (h : db.collections.Nodup) (call : Call) :
    (serve p db call).1.collections.Nodup := by
  obtain hsame | ⟨name, -, -, hadded⟩ := serve_names p db call
  · exact hsame ▸ h
  · exact hadded ▸ nodup_ensure h name

/-- More names make no difference to a user whose rows stay. -/
theorem SameRows.named {uid : ℕ} {db db' : Db} (same : SameRows uid db db') (h : db.Named uid)
    (names : db.collections <+: db'.collections) (nodup : db'.collections.Nodup) : db'.Named uid where
  tombstoneName := head?_of_isPrefix names h.tombstoneName
  nodup := nodup
  stampKnown hs := Nat.lt_of_lt_of_le (h.stampKnown (same.stamps _ ▸ hs)) names.length_le
  recordKnown hrow := Nat.lt_of_lt_of_le (h.recordKnown (same.records _ _ ▸ hrow)) names.length_le
  batchKnown hbatch := Nat.lt_of_lt_of_le (h.batchKnown (same.batches _ ▸ hbatch)) names.length_le

/-- What was not there under an id that is not in use. -/
theorem Db.Named.none_of_le {uid : ℕ} {db : Db} (h : db.Named uid) {c : ℕ} (hc : db.collections.length ≤ c) :
    db.userCollections.find? ⟨uid, c⟩ = none ∧ ∀ id, db.bso.find? ⟨uid, c, id⟩ = none := by
  constructor
  · cases hs : db.userCollections.find? ⟨uid, c⟩ with
    | none => rfl
    | some s => exact absurd (h.stampKnown hs) (not_lt.mpr hc)
  · intro id
    cases hrow : db.bso.find? ⟨uid, c, id⟩ with
    | none => rfl
    | some row => exact absurd (h.recordKnown hrow) (not_lt.mpr hc)

/-- A database with the same rows and more names looks the same. -/
theorem Shadow.of_sameRows {uid : ℕ} {db db' alone : Db} (shadow : Shadow uid db alone) (same : SameRows uid db db')
    (names : db.collections <+: db'.collections) (nodup : db'.collections.Nodup) : Shadow uid db' alone where
  named := same.named shadow.named names nodup
  namedAlone := shadow.namedAlone
  subset := List.Subset.trans shadow.subset names.subset
  stamps name := by
    rw [← shadow.stamps]
    unfold Db.stamp
    rw [funext same.stamps]
    exact bind_idxOf?_of_isPrefix names fun c hc => (shadow.named.none_of_le hc).1
  records name id := by
    rw [← shadow.records]
    unfold Db.record
    rw [funext fun c => same.records c id]
    exact bind_idxOf?_of_isPrefix names fun c hc => (shadow.named.none_of_le hc).2 id
  batches batchId := by
    rw [← shadow.batches]
    unfold Db.batchName
    rw [same.batches]
    apply Option.map_congr
    intro c hc
    have hknown := idxOf?_of_isPrefix names (shadow.named.idxOf?_name (shadow.named.batchKnown hc))
    exact getD_of_idxOf? hknown
  items batchId id := by rw [← shadow.items, same.items]

/-- A request of another user leaves a shadow a shadow. -/
theorem Shadow.other {uid : ℕ} {db alone : Db} (shadow : Shadow uid db alone) (p : Platform) {call : Call}
    (huid : uid ≠ call.uid) : Shadow uid (serve p db call).1 alone :=
  shadow.of_sameRows (serve_sameRows p db huid) (serve_effect p db call).names (serve_nodup p shadow.named.nodup call)

end FxaLite.SyncStorage
