import FxaLite.SyncStorage.Resources

/-!
# Conditional writes and lost updates

A write that names the timestamp its client was answered with goes through only if the resource
is not newer. So a change by anyone else between the read and the write stops it, unless the
change was a removal: what is not there has timestamp zero and passes every such condition.
-/

namespace FxaLite.SyncStorage

open Reactive

/-- What a record says. -/
def BsoRow.says (row : BsoRow) : String × Option ℤ := (row.payload, row.sortindex)

/-- No record of the resource comes, goes, or says something else. -/
def Resource.SaysSame (db db' : Db) (uid : ℕ) : Resource → Prop
  | .info => True
  | .collection name => ∀ id, (db'.record uid name id).map BsoRow.says = (db.record uid name id).map BsoRow.says
  | .record name id => (db'.record uid name id).map BsoRow.says = (db.record uid name id).map BsoRow.says

/-- A resource that is the same says the same. -/
theorem Resource.Same.says {r : Resource} {db db' : Db} {uid : ℕ} (h : r.Same db db' uid) :
    r.SaysSame db db' uid := by
  cases r with
  | info => trivial
  | collection name => exact fun id => congrArg _ (h.2 id)
  | record name id =>
    have hcontent : (db'.record uid name id).map BsoRow.content = (db.record uid name id).map BsoRow.content := h
    have hproject : BsoRow.says = (fun content => (content.1, content.2.1)) ∘ BsoRow.content := rfl
    change (db'.record uid name id).map BsoRow.says = (db.record uid name id).map BsoRow.says
    rw [hproject, ← Option.map_map, ← Option.map_map, hcontent]

/-- A resource that is there and newer than an answer has a later timestamp. -/
theorem Resource.NewerThan.lt_timestamp {r : Resource} {last uid : ℕ} {db : Db} (h : r.NewerThan last db uid)
    (hthere : ¬r.Absent db uid) (hinfo : r ≠ .info) : last < r.timestamp db uid := by
  cases r with
  | info => exact absurd rfl hinfo
  | collection name =>
    cases hs : db.stamp uid name with
    | none => exact absurd hs hthere
    | some s =>
      change last < (db.stamp uid name).getD 0
      rw [hs]
      exact h s hs
  | record name id =>
    cases hrow : db.record uid name id with
    | none => exact absurd hrow hthere
    | some row =>
      change last < ((db.record uid name id).map BsoRow.modified).getD 0
      rw [hrow]
      exact h row hrow

/-- No lost update. A client reads a record or a collection past the epoch and is answered
`last`; its conditional write of the same resource succeeds later. Then no request between the
two, by anyone, has made a record of the resource come, go or say something else, or else the
resource is not there when the write runs. A wipe in the hundredth of the answer is left out. -/
theorem conditional_write_no_lost_update (p : Platform) {before between : List Call} {read write : Call}
    {r : Resource} {last : ℕ} {since : String}
    (htimed : Timed Call.now 0 (before ++ read :: (between ++ [write]))) (hepoch : 0 < read.now)
    (hread : Resource.ofRequest read.request = some r) (hget : read.request.isGet = true)
    (hlast : (serve p ((server p).run Db.fresh before) read).2.lastModified = some (timestampHeader last))
    (huser : write.uid = read.uid) (hwrite : Resource.ofRequest write.request = some r)
    (hput : write.request.isGet = false)
    (hsince : write.ifUnmodifiedSince = some since) (hfloat : p.float since = some (timestampHeader last))
    (hwipe : ∀ call ∈ between, call.uid = read.uid → call.request = .deleteAll → last < call.now)
    (hok : (serve p ((server p).run Db.fresh (before ++ read :: between)) write).2.status < 300) :
    (server p).Along (fun db call => r.SaysSame db (serve p db call).1 read.uid)
        ((server p).run Db.fresh (before ++ [read])) between ∨
      r.Absent ((server p).run Db.fresh (before ++ read :: between)) read.uid := by
  obtain ⟨hbefore, hread_le, hafter⟩ := timed_append.mp htimed
  obtain ⟨hbetween, -⟩ := timed_append.mp hafter
  have inv := (inv_of_run p hbefore).mono hread_le
  obtain ⟨valid, hsame, hstamp⟩ := get_lastModified hread hget hlast
  have hinfo : r ≠ .info := by
    intro heq
    rw [heq] at hwrite
    cases hreq : write.request with
    | infoCollections =>
      rw [hreq] at hput
      cases hput
    | _ =>
      rw [hreq] at hwrite
      cases hwrite
  have hstate : (server p).run Db.fresh (before ++ [read]) = (server p).run Db.fresh before := by
    rw [Machine.run_append]
    exact hsame
  have hend : (server p).run Db.fresh (before ++ read :: between) =
      (server p).run ((server p).run Db.fresh before) between := by
    rw [Machine.run_append, Machine.run_cons]
    exact congrArg ((server p).run · between) hsame
  rw [hend] at hok
  rw [hstate, hend]
  have horder : (server p).Along (r.InOrder p last read.uid) ((server p).run Db.fresh before) between := by
    refine Machine.Along.imp ?_ ((server p).along_of_forall hwipe)
    intro db call hcall huser
    cases r with
    | info => exact absurd rfl hinfo
    | collection name => exact hcall huser
    | record name id => exact hcall huser
  obtain hkept | hnewer := Resource.run_same_or_newer (r.behind_of_timestamp inv hstamp) inv hepoch valid hbetween
    horder
  · exact Or.inl (hkept.imp fun _ _ h => h.says)
  · right
    by_contra hthere
    -- the write has passed its condition, so the resource is not newer than the answer
    obtain ⟨rt, locked, answer, hroute, hpre, -⟩ := serve_success hok
    obtain ⟨m, hparse, hle⟩ := precondition_unmodified hpre hsince
    rw [hfloat] at hparse
    rw [(Resource.route_resource hwrite hroute _).2, huser, parseTimestamp_header hparse] at hle
    have hlt := hnewer.lt_timestamp hthere hinfo
    have hquantized := quantize_le last
    omega

/-- Two devices of one user: a record is stored and read; the other device does something; the
first writes again on the condition that nothing has happened. -/
def raceCalls (other : Request) : List Call :=
  [⟨1, 10, none, none, .putBso "bookmarks" "a" { id := "a", payload := some "x" }⟩,
    ⟨1, 20, none, none, .getBso "bookmarks" "a"⟩,
    ⟨1, 30, none, none, other⟩,
    ⟨1, 40, none, some "0.01", .putBso "bookmarks" "a" { id := "a", payload := some "y" }⟩]

/-- The other device writes another record: the conditional write succeeds, and the record has
been left alone. -/
theorem conditional_write_bookmarks :
    let p := Platform.knowing [("0.01", 1 / 100)]
    let calls := raceCalls (.putBso "bookmarks" "b" { id := "b", payload := some "z" })
    (server p).Along (fun db call => (Resource.record "bookmarks" "a").SaysSame db (serve p db call).1 1)
      ((server p).run Db.fresh (calls.take 2)) [calls[2]] := by
  intro p calls
  have hwipe : ∀ call ∈ [calls[2]], call.uid = 1 → call.request = .deleteAll → 10 < call.now := by
    intro call hcall _ hreq
    rw [List.mem_singleton.mp hcall] at hreq
    cases hreq
  obtain hkept | habsent := @conditional_write_no_lost_update p [calls[0]] [calls[2]] calls[1] calls[3]
    (.record "bookmarks" "a") 10 "0.01" (by decide) (by decide) rfl rfl (by decide +kernel) rfl rfl rfl rfl
    (by decide +kernel) hwipe (by decide +kernel)
  · exact hkept
  · have hthere : (((server p).run Db.fresh (calls.take 3)).record 1 "bookmarks" "a").isSome = true := by
      decide +kernel
    rw [Option.isSome_iff_ne_none] at hthere
    exact absurd habsent hthere

/-- The other device deletes the record: the conditional write succeeds all the same. -/
theorem conditional_write_after_delete :
    let p := Platform.knowing [("0.01", 1 / 100)]
    let calls := raceCalls (.deleteBso "bookmarks" "a")
    let stored := (server p).run Db.fresh (calls.take 1)
    let read := (server p).run Db.fresh (calls.take 2)
    let deleted := (server p).run Db.fresh (calls.take 3)
    (serve p stored calls[1]).2.lastModified = some (timestampHeader 10) ∧
      (serve p read calls[2]).2.status = 200 ∧ (serve p deleted calls[3]).2.status = 200 ∧
        (read.record 1 "bookmarks" "a").map BsoRow.says = some ("x", none) ∧
          (deleted.record 1 "bookmarks" "a").map BsoRow.says = none := by
  decide +kernel

end FxaLite.SyncStorage
