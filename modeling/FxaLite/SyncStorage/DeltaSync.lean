import FxaLite.SyncStorage.Resources

/-!
# Delta sync

A client that has read a collection asks next time for what is newer than the timestamp it was
answered with. Every write path stamps the collection past every timestamp answered before, and
a record carries the instant it was created or last given content at; so what is newer is what
has been written since. A collection that is deleted loses its timestamp and starts over at
zero, but by then the clock has passed everything answered.
-/

namespace FxaLite.SyncStorage

open Relational Reactive

/-- A request that succeeds and writes a record: a PUT or POST with a payload or a sortindex for
it, or the commit of a batch that holds it. -/
def WritesRecord (p : Platform) (uid : ℕ) (name id : String) (db : Db) (call : Call) : Prop :=
  (serve p db call).2.status = 200 ∧ call.uid = uid ∧ call.request.collection = some name ∧
    ∃ w ∈ call.recordWrites db, w.id = id ∧ w.stamps = true

/-- A request that makes a record that was not there. -/
def CreatesRecord (p : Platform) (uid : ℕ) (name id : String) (db : Db) (call : Call) : Prop :=
  db.record uid name id = none ∧ ((serve p db call).1.record uid name id).isSome = true

/-- A request that creates or writes a record. -/
def TouchesRecord (p : Platform) (uid : ℕ) (name id : String) (db : Db) (call : Call) : Prop :=
  WritesRecord p uid name id db call ∨ CreatesRecord p uid name id db call

/-! ### One step -/

section Step

variable {p : Platform} {db : Db} {call : Call} {t uid last : ℕ} {name : String}

/-- A record that is newer than the answer, if it is there. -/
def Newer (last : ℕ) (record : Option BsoRow) : Prop := ∀ row, record = some row → last < row.modified

/-- A request that creates or writes a record leaves it newer than the answer. -/
theorem newer_of_touches {id : String} (h : NotBefore last t (db.stamp uid name)) (inv : db.Inv t)
    (ht : t ≤ call.now) (hpos : 0 < call.now) (valid : collectionRe name = true)
    (htouches : TouchesRecord p uid name id db call) : Newer last ((serve p db call).1.record uid name id) := by
  intro row hrow
  cases serve_change p inv ht uid valid with
  | same stamp records idle =>
    rw [records] at hrow
    obtain ⟨hstatus, huser, hurl, w, hw, -⟩ | ⟨hnone, -⟩ := htouches
    · obtain hrefused | hidle := idle huser hurl
      · omega
      · rw [hidle] at hw
        cases hw
    · rw [hnone] at hrow
      cases hrow
  | wrote user url ok fresh stamp records =>
    rw [records] at hrow
    have hmodified : row.modified = call.now := by
      cases hold : db.record uid name id with
      | none =>
        rw [hold] at hrow
        exact RecordWrite.fold_modified_of_none hrow
      | some r =>
        rw [hold] at hrow
        obtain ⟨-, -, -, hwrites⟩ | ⟨hnone, -⟩ := htouches
        · exact (RecordWrite.fold_modified_of_some hrow).trans (if_pos hwrites)
        · rw [hold] at hnone
          cases hnone
    rw [hmodified]
    exact h.lt_now ht hpos fresh
  | removed ids user url ok idle fresh stamp records =>
    obtain ⟨-, -, -, w, hw, -⟩ | ⟨hnone, -⟩ := htouches
    · rw [idle] at hw
      cases hw
    · rw [records, hnone, ite_self] at hrow
      cases hrow
  | dropped user url ok idle fresh stamp records =>
    rw [records] at hrow
    cases hrow
  | wiped user request ok stamp records =>
    rw [records] at hrow
    cases hrow

/-- A record that is newer than the answer stays so. -/
theorem Newer.step {id : String} (hnewer : Newer last (db.record uid name id))
    (h : NotBefore last t (db.stamp uid name)) (inv : db.Inv t) (ht : t ≤ call.now) (hpos : 0 < call.now)
    (valid : collectionRe name = true) : Newer last ((serve p db call).1.record uid name id) := by
  intro row hrow
  cases serve_change p inv ht uid valid with
  | same stamp records idle =>
    rw [records] at hrow
    exact hnewer row hrow
  | wrote user url ok fresh stamp records =>
    rw [records] at hrow
    obtain hnow | ⟨r, hr, hmodified⟩ := RecordWrite.fold_modified hrow
    · rw [hnow]
      exact h.lt_now ht hpos fresh
    · rw [hmodified]
      exact hnewer r hr
  | removed ids user url ok idle fresh stamp records =>
    rw [records] at hrow
    split at hrow
    · cases hrow
    · exact hnewer row hrow
  | dropped user url ok idle fresh stamp records =>
    rw [records] at hrow
    cases hrow
  | wiped user request ok stamp records =>
    rw [records] at hrow
    cases hrow

/-- A record that is newer than the answer after a request was so before, or the request
created or wrote it. -/
theorem touches_of_newer {id : String} {row : BsoRow} (inv : db.Inv t) (ht : t ≤ call.now)
    (valid : collectionRe name = true) (hrow : (serve p db call).1.record uid name id = some row)
    (hlast : last < row.modified) :
    TouchesRecord p uid name id db call ∨ ∃ r, db.record uid name id = some r ∧ last < r.modified := by
  cases serve_change p inv ht uid valid with
  | same stamp records idle =>
    rw [records] at hrow
    exact Or.inr ⟨row, hrow, hlast⟩
  | wrote user url ok fresh stamp records =>
    cases hold : db.record uid name id with
    | none => exact Or.inl (Or.inr ⟨hold, by rw [hrow]; rfl⟩)
    | some r =>
      rw [records, hold] at hrow
      have hmodified := RecordWrite.fold_modified_of_some hrow
      by_cases hwrites : ∃ w ∈ call.recordWrites db, w.id = id ∧ w.stamps = true
      · exact Or.inl (Or.inl ⟨ok, user, url, hwrites⟩)
      · rw [if_neg hwrites] at hmodified
        exact Or.inr ⟨r, rfl, hmodified ▸ hlast⟩
  | removed ids user url ok idle fresh stamp records =>
    rw [records] at hrow
    split at hrow
    · cases hrow
    · exact Or.inr ⟨row, hrow, hlast⟩
  | dropped user url ok idle fresh stamp records =>
    rw [records] at hrow
    cases hrow
  | wiped user request ok stamp records =>
    rw [records] at hrow
    cases hrow

end Step

/-! ### Whole runs -/

section Run

variable {p : Platform} {db : Db} {calls : List Call} {t uid last : ℕ} {name : String}

/-- A record that is newer than the answer stays so over a run whose clock has left zero. -/
theorem Newer.run {id : String} (hnewer : Newer last (db.record uid name id))
    (h : NotBefore last t (db.stamp uid name)) (inv : db.Inv t) (hpos : 0 < t) (valid : collectionRe name = true)
    (htimed : Timed Call.now t calls) (hwipe : ∀ call ∈ calls, call.uid = uid → call.request = .deleteAll → last < call.now) :
    Newer last (((server p).run db calls).record uid name id) := by
  have hstep : ∀ t db (call : Call),
      (Newer last (db.record uid name id) ∧ NotBefore last t (db.stamp uid name) ∧ db.Inv t ∧ 0 < t) → t ≤ call.now →
        (call.uid = uid → call.request = .deleteAll → last < call.now) →
          Newer last ((serve p db call).1.record uid name id) ∧
            NotBefore last call.now ((serve p db call).1.stamp uid name) ∧ (serve p db call).1.Inv call.now ∧ 0 < call.now := by
    intro t db call hkept ht hwipe
    obtain ⟨hnewer, h, inv, hpos⟩ := hkept
    have hnow : 0 < call.now := Nat.lt_of_lt_of_le hpos ht
    exact ⟨hnewer.step h inv ht hnow valid, h.step inv ht valid hwipe, (serve_effect p db call).inv inv ht, hnow⟩
  exact ((server p).run_invariant hstep ⟨hnewer, h, inv, hpos⟩ htimed ((server p).along_of_forall hwipe)).1

/-- A record that is created or written in a run is newer than the answer at its end. -/
theorem newer_of_sometime {id : String} (h : NotBefore last t (db.stamp uid name)) (inv : db.Inv t)
    (valid : collectionRe name = true) (htimed : Timed Call.now t calls)
    (hwipe : ∀ call ∈ calls, call.uid = uid → call.request = .deleteAll → last < call.now)
    (htouched : (server p).Sometime (fun db call => 0 < call.now ∧ TouchesRecord p uid name id db call) db calls) :
    Newer last (((server p).run db calls).record uid name id) := by
  induction calls generalizing db t with
  | nil => exact htouched.elim
  | cons call rest ih =>
    have hstep := h.step (p := p) inv htimed.1 valid (hwipe call (by simp))
    have inv' := (serve_effect p db call).inv inv htimed.1
    have hrest : ∀ c ∈ rest, c.uid = uid → c.request = .deleteAll → last < c.now := fun c hc => hwipe c (by simp [hc])
    obtain ⟨hpos, htouches⟩ | hlater := htouched
    · exact (newer_of_touches h inv htimed.1 hpos valid htouches).run hstep inv' hpos valid htimed.2 hrest
    · exact ih hstep inv' htimed.2 hrest hlater

/-- A record that is newer than the answer at the end of a run was so before, or was created
or written in it. -/
theorem sometime_of_newer {id : String} {row : BsoRow} (inv : db.Inv t) (valid : collectionRe name = true)
    (htimed : Timed Call.now t calls) (hrow : ((server p).run db calls).record uid name id = some row)
    (hlast : last < row.modified) :
    (server p).Sometime (TouchesRecord p uid name id) db calls ∨
      ∃ r, db.record uid name id = some r ∧ last < r.modified := by
  induction calls generalizing db t with
  | nil => exact Or.inr ⟨row, hrow, hlast⟩
  | cons call rest ih =>
    have inv' := (serve_effect p db call).inv inv htimed.1
    obtain hlater | ⟨r, hr, hlt⟩ := ih inv' htimed.2 hrow
    · exact Or.inl (Or.inr hlater)
    · exact (touches_of_newer inv htimed.1 valid hr hlt).imp_left Or.inl

/-- A record newer than a timestamp is selected by a read of what is newer, unless it expired. -/
theorem selects_newer {row : BsoRow} {c now : ℕ} {id : String} {full : Bool} (hlast : last < row.modified)
    (halive : now < row.expiry) :
    SyncStore.selects ⟨uid, now⟩ c { newer := some last } full ⟨uid, c, id⟩ row = true := by
  simp [SyncStore.selects, SyncStore.matchesQuery, SyncStore.resumeBound, hlast, halive]

end Run

/-- Delta sync is complete, and resends nothing. After a read of a collection that was answered
with a timestamp, in any run of requests of any users in which this one does not wipe the
storage, at least not in the hundredth it was answered: a record created or written since, at an instant past zero, is newer than the
timestamp and selected by a read of what is newer; and a record that is newer has been created
or written since. -/
theorem delta_sync_complete (p : Platform) {before after : List Call} {read : Call} {name : String}
    {params : Params} {newlines : Bool} {last : ℕ} (htimed : Timed Call.now 0 (before ++ read :: after))
    (hread : read.request = .getCollection name params newlines)
    (hlast : (serve p ((server p).run Db.fresh before) read).2.lastModified = some (timestampHeader last))
    (hwipe : ∀ call ∈ after, call.uid = read.uid → call.request = .deleteAll → last < call.now) {id : String} {row : BsoRow}
    (hrow : ((server p).run Db.fresh (before ++ read :: after)).record read.uid name id = some row) :
    ((server p).Sometime (fun db call => 0 < call.now ∧ TouchesRecord p read.uid name id db call)
        ((server p).run Db.fresh (before ++ [read])) after →
      last < row.modified ∧ ∀ c now full, now < row.expiry →
        SyncStore.selects ⟨read.uid, now⟩ c { newer := some last } full ⟨read.uid, c, id⟩ row = true) ∧
    (last < row.modified →
      (server p).Sometime (TouchesRecord p read.uid name id) ((server p).run Db.fresh (before ++ [read])) after) := by
  obtain ⟨hbefore, hread_le, hafter⟩ := timed_append.mp htimed
  have inv := inv_of_run p hbefore
  obtain ⟨valid, hsame, hstamp⟩ := getCollection_lastModified hread hlast
  have hstate : (server p).run Db.fresh (before ++ [read]) = (server p).run Db.fresh before := by
    rw [Machine.run_append]
    exact hsame
  have hend : (server p).run Db.fresh (before ++ read :: after) =
      (server p).run ((server p).run Db.fresh before) after := by
    rw [Machine.run_append, Machine.run_cons]
    exact congrArg ((server p).run · after) hsame
  rw [hend] at hrow
  rw [hstate]
  have inv' := inv.mono hread_le
  have hnot : NotBefore last read.now (((server p).run Db.fresh before).stamp read.uid name) := by
    cases hs : ((server p).run Db.fresh before).stamp read.uid name with
    | some s => exact (hstamp.trans (by rw [hs]; rfl)).le
    | none => exact Or.inl (hstamp.trans (by rw [hs]; rfl))
  constructor
  · intro htouched
    have hlt := newer_of_sometime hnot inv' valid hafter hwipe htouched row hrow
    exact ⟨hlt, fun _ _ _ halive => selects_newer hlt halive⟩
  · intro hlt
    obtain htouched | ⟨r, hr, hlt⟩ := sometime_of_newer inv' valid hafter hrow hlt
    · exact htouched
    · -- at the read, no record is newer than its collection
      obtain ⟨s, hs, hle⟩ := inv'.record_le_stamp hr
      have hle' : r.modified ≤ last := by
        rw [hstamp, hs]
        exact hle
      omega

/-- A read of a collection and the PUT that creates it, at given readings of the clock. -/
def readThenPut (readMs putMs : ℕ) : Call × Call :=
  (⟨1, readMs, none, none, .getCollection "tabs" (.of []) false⟩,
    ⟨1, putMs, none, none, .putBso "tabs" "a" { id := "a", payload := some "x" }⟩)

/-- Read at 10 ms, written at 20 ms: the record is newer than the answer. -/
theorem delta_sync_complete_tabs :
    let calls := readThenPut 10 20
    ∃ row, ((server (.knowing [])).run Db.fresh [calls.1, calls.2]).record 1 "tabs" "a" = some row ∧
      0 < row.modified := by
  let row : BsoRow := ⟨none, "x", 20, 2100000000020⟩
  have hrow : ((server (.knowing [])).run Db.fresh [(readThenPut 10 20).1, (readThenPut 10 20).2]).record
      1 "tabs" "a" = some row := by decide +kernel
  have hwipe : ∀ call ∈ [(readThenPut 10 20).2], call.uid = 1 → call.request = .deleteAll → 0 < call.now := by
    intro call hcall _ hreq
    rw [List.mem_singleton.mp hcall] at hreq
    cases hreq
  have htouches : TouchesRecord (.knowing []) 1 "tabs" "a" Db.fresh (readThenPut 10 20).2 :=
    Or.inr ⟨by decide +kernel, by decide +kernel⟩
  have hdelta := @delta_sync_complete (.knowing []) [] [(readThenPut 10 20).2] (readThenPut 10 20).1 "tabs"
    (.of []) false 0 (by decide) rfl (by decide +kernel) hwipe "a" row hrow
  exact ⟨row, hrow, (hdelta.1 (Or.inl ⟨by decide, htouches⟩)).1⟩

/-- At the epoch itself a record that is created after a read is not newer than the answer. -/
theorem delta_sync_incomplete_at_epoch :
    let p := Platform.knowing []
    let calls := readThenPut 0 0
    (serve p Db.fresh calls.1).2.lastModified = some (timestampHeader 0) ∧
      TouchesRecord p 1 "tabs" "a" (serve p Db.fresh calls.1).1 calls.2 ∧
      (((server p).run Db.fresh [calls.1, calls.2]).record 1 "tabs" "a").map BsoRow.modified = some 0 := by
  refine ⟨by decide +kernel, Or.inr ⟨by decide +kernel, by decide +kernel⟩, by decide +kernel⟩

end FxaLite.SyncStorage
