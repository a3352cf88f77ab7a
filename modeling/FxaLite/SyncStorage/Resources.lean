import FxaLite.SyncStorage.Collections

/-!
# Timestamps that have been answered

A resource is what a precondition is about: the list of a user's collections, a collection, or
a record. Once its timestamp has been answered, a request either leaves the resource as it is
or leaves it newer than the answer, and what is newer stays newer. A resource that is gone has
timestamp zero, whatever was answered before. A wipe goes through no conflict check, so one in
the very hundredth of the answer can put the clock back.
-/

namespace FxaLite.SyncStorage

open Relational Reactive Fallible

/-! ### Collections -/

/-- Where a collection's timestamp stands after it has been answered: not before the answer. A
collection without one is answered with zero, or has lost it since. -/
def NotBefore (last t : ℕ) (stamp : Option ℕ) : Prop :=
  match stamp with
  | some s => last ≤ s
  | none => last = 0 ∨ last < t

/-- The same of a collection that exists when it is answered. -/
def Passed (last t : ℕ) (stamp : Option ℕ) : Prop :=
  match stamp with
  | some s => last ≤ s
  | none => last < t

/-- Zero is never passed back. -/
theorem notBefore_iff {last t : ℕ} {stamp : Option ℕ} : NotBefore last t stamp ↔ last = 0 ∨ Passed last t stamp := by
  cases stamp with
  | some s =>
    constructor
    · exact Or.inr
    · intro h
      obtain rfl | h := h
      · exact Nat.zero_le s
      · exact h
  | none => exact Iff.rfl

section Step

variable {p : Platform} {db : Db} {call : Call} {t uid last : ℕ} {name : String}

/-- Any instant a write gets is past the answer. -/
theorem Passed.lt_now {stamp : Option ℕ} (h : Passed last t stamp) (ht : t ≤ call.now)
    (fresh : ∀ s, stamp = some s → s < call.now) : last < call.now := by
  cases stamp with
  | some s => exact Nat.lt_of_le_of_lt h (fresh s rfl)
  | none => exact Nat.lt_of_lt_of_le h ht

/-- From the first instant of the clock on, this holds of every collection. -/
theorem NotBefore.lt_now {stamp : Option ℕ} (h : NotBefore last t stamp) (ht : t ≤ call.now) (hpos : 0 < call.now)
    (fresh : ∀ s, stamp = some s → s < call.now) : last < call.now := by
  obtain rfl | hpassed := notBefore_iff.mp h
  · exact hpos
  · exact hpassed.lt_now ht fresh

/-- No request takes the timestamp back before the answer, but a wipe in the same hundredth. -/
theorem Passed.step (h : Passed last t (db.stamp uid name)) (inv : db.Inv t) (ht : t ≤ call.now)
    (valid : collectionRe name = true) (hwipe : call.uid = uid → call.request = .deleteAll → last < call.now) :
    Passed last call.now ((serve p db call).1.stamp uid name) := by
  cases serve_change p inv ht uid valid with
  | same stamp records idle =>
    rw [stamp]
    cases hs : db.stamp uid name with
    | some s => rwa [hs] at h
    | none =>
      rw [hs] at h
      exact Nat.lt_of_lt_of_le h ht
  | wrote user url ok fresh stamp records =>
    rw [stamp]
    exact (h.lt_now ht fresh).le
  | removed ids user url ok idle fresh stamp records =>
    rw [stamp]
    exact (h.lt_now ht fresh).le
  | dropped user url ok idle fresh stamp records =>
    rw [stamp]
    exact h.lt_now ht fresh
  | wiped user request ok stamp records =>
    rw [stamp]
    exact hwipe user request

/-- And what has been answered is not taken back either. -/
theorem NotBefore.step (h : NotBefore last t (db.stamp uid name)) (inv : db.Inv t) (ht : t ≤ call.now)
    (valid : collectionRe name = true) (hwipe : call.uid = uid → call.request = .deleteAll → last < call.now) :
    NotBefore last call.now ((serve p db call).1.stamp uid name) :=
  notBefore_iff.mpr ((notBefore_iff.mp h).imp_right fun hpassed => hpassed.step inv ht valid hwipe)

end Step

/-! ### Resources -/

/-- What a GET reads and a precondition is about. -/
inductive Resource where
  | info
  | collection (name : String)
  | record (name id : String)
  deriving DecidableEq, Repr

/-- What a client sees of a record, its expiry aside. -/
def BsoRow.content (row : BsoRow) : String × Option ℤ × ℕ := (row.payload, row.sortindex, row.modified)

namespace Resource

/-- The name in it is one a request can have. -/
def Valid : Resource → Prop
  | info => True
  | collection name => collectionRe name = true
  | record name _ => collectionRe name = true

/-- There is no such resource. -/
def Absent (db : Db) (uid : ℕ) : Resource → Prop
  | info => ∀ c, db.userCollections.find? ⟨uid, c⟩ = none
  | collection name => db.stamp uid name = none
  | record name id => db.record uid name id = none

/-- The resource is what it was. -/
def Same (db db' : Db) (uid : ℕ) : Resource → Prop
  | info => ∀ c, db'.userCollections.find? ⟨uid, c⟩ = db.userCollections.find? ⟨uid, c⟩
  | collection name =>
    db'.stamp uid name = db.stamp uid name ∧ ∀ id, db'.record uid name id = db.record uid name id
  | record name id =>
    (db'.record uid name id).map BsoRow.content = (db.record uid name id).map BsoRow.content

/-- The resource is newer than an answer, or not there. -/
def NewerThan (last : ℕ) (db : Db) (uid : ℕ) : Resource → Prop
  | info => (∀ c, db.userCollections.find? ⟨uid, c⟩ = none) ∨
      ∃ c s, db.userCollections.find? ⟨uid, c⟩ = some s ∧ last < s
  | collection name => ∀ s, db.stamp uid name = some s → last < s
  | record name id => ∀ row, db.record uid name id = some row → last < row.modified

/-- The timestamp of the collection it is in has not fallen behind the answer. -/
def Behind (last t : ℕ) (db : Db) (uid : ℕ) : Resource → Prop
  | info => True
  | collection name => NotBefore last t (db.stamp uid name)
  | record name _ => NotBefore last t (db.stamp uid name)

/-- A request does not change the user's timestamps in the hundredth of the answer, where the
resource could not show it: for the list of collections no request, for a collection or a
record no wipe. -/
def InOrder (p : Platform) (last uid : ℕ) (r : Resource) (db : Db) (call : Call) : Prop :=
  call.uid = uid →
    match r with
    | info => (serve p db call).1.userCollections ≠ db.userCollections → last < call.now
    | _ => call.request = .deleteAll → last < call.now

/-- Nothing has changed over two steps if nothing has in either. -/
theorem Same.trans {r : Resource} {db db' db'' : Db} {uid : ℕ} (h : r.Same db db' uid)
    (h' : r.Same db' db'' uid) : r.Same db db'' uid := by
  cases r with
  | info => exact fun c => (h' c).trans (h c)
  | collection name => exact ⟨h'.1.trans h.1, fun id => (h'.2 id).trans (h.2 id)⟩
  | record name id => exact Eq.trans h' h

/-- It is what it is. -/
theorem Same.refl (r : Resource) (db : Db) (uid : ℕ) : r.Same db db uid := by
  cases r with
  | info => exact fun _ => rfl
  | collection name => exact ⟨rfl, fun _ => rfl⟩
  | record name id => exact Eq.refl _

/-- What is newer stays newer as long as it stays the same. -/
theorem NewerThan.of_same {r : Resource} {last uid : ℕ} {db db' : Db} (h : r.NewerThan last db uid)
    (hsame : r.Same db db' uid) : r.NewerThan last db' uid := by
  cases r with
  | info =>
    obtain hnone | ⟨c, s, hs, hlt⟩ := h
    · exact Or.inl fun c => (hsame c).trans (hnone c)
    · exact Or.inr ⟨c, s, (hsame c).trans hs, hlt⟩
  | collection name => exact fun s hs => h s (hsame.1 ▸ hs)
  | record name id =>
    intro row hrow
    have hcontent : (db.record uid name id).map BsoRow.content = some row.content := by
      rw [← show (db'.record uid name id).map BsoRow.content = _ from hsame, hrow]
      rfl
    obtain ⟨r, hr, heq⟩ := Option.map_eq_some_iff.mp hcontent
    have hmodified : r.modified = row.modified := congrArg (fun content => content.2.2) heq
    exact hmodified ▸ h r hr

section Step

variable {p : Platform} {db : Db} {call : Call} {t uid last : ℕ} {r : Resource}

/-- A request that leaves a timestamp at its own instant makes the list of collections newer. -/
theorem info_newer {db' : Db} {c : ℕ} (hlast : last < call.now)
    (hstamp : db'.userCollections.find? ⟨uid, c⟩ = some call.now) : info.NewerThan last db' uid :=
  Or.inr ⟨c, call.now, hstamp, hlast⟩

/-- The step lemma for the list of collections. -/
theorem info_same_or_newer {db' : Db} {status : ℕ} (heffect : Effect call db db' status)
    (horder : call.uid = uid → db'.userCollections ≠ db.userCollections → last < call.now) :
    info.Same db db' uid ∨ info.NewerThan last db' uid := by
  by_cases huser : call.uid = uid
  · by_cases hstamps : db'.userCollections = db.userCollections
    · exact Or.inl fun c => by rw [hstamps]
    · have hlast := horder huser hstamps
      right
      subst huser
      cases heffect with
      | keep names bso stamps idle => exact absurd stamps hstamps
      | @wrote name url valid fresh names bso stamps =>
        exact info_newer hlast (by rw [stamps, find?_set_stamp, if_pos ⟨rfl, rfl⟩])
      | @removed name ids url valid idle fresh names bso stamps =>
        exact info_newer hlast (by rw [stamps, find?_set_stamp, if_pos ⟨rfl, rfl⟩])
      | @dropped name url valid idle fresh names bso stamps =>
        exact info_newer hlast (by rw [stamps, find?_set_stamp, if_pos ⟨rfl, rfl⟩])
      | wiped request names bso stamps =>
        left
        intro c
        rw [stamps]
        exact Table.find?_deleteWhere_of_true fun _ _ => by simp
  · left
    intro c
    cases heffect with
    | keep names bso stamps idle => rw [stamps]
    | @wrote name url valid fresh names bso stamps =>
      rw [stamps, find?_set_stamp, if_neg fun h => huser h.1.symm]
    | @removed name ids url valid idle fresh names bso stamps =>
      rw [stamps, find?_set_stamp, if_neg fun h => huser h.1.symm]
    | @dropped name url valid idle fresh names bso stamps =>
      rw [stamps, find?_set_stamp, if_neg fun h => huser h.1.symm, find?_delete_stamp,
        if_neg fun h => huser h.1.symm]
    | wiped request names bso stamps =>
      rw [stamps]
      exact Table.find?_deleteWhere_of_false fun _ _ => by simpa using Ne.symm huser

/-- The step lemma for a collection. -/
theorem collection_same_or_newer {name : String} (h : NotBefore last t (db.stamp uid name)) (inv : db.Inv t)
    (ht : t ≤ call.now) (hpos : 0 < call.now) (valid : collectionRe name = true) :
    (collection name).Same db (serve p db call).1 uid ∨
      (collection name).NewerThan last (serve p db call).1 uid := by
  have hstamped (fresh : ∀ s, db.stamp uid name = some s → s < call.now)
      (stamp : (serve p db call).1.stamp uid name = some call.now) :
      (collection name).NewerThan last (serve p db call).1 uid := by
    intro s hs
    rw [stamp] at hs
    obtain rfl := Option.some.inj hs
    exact h.lt_now ht hpos fresh
  cases serve_change p inv ht uid valid with
  | same stamp records idle => exact Or.inl ⟨stamp, records⟩
  | wrote user url ok fresh stamp records => exact Or.inr (hstamped fresh stamp)
  | removed ids user url ok idle fresh stamp records => exact Or.inr (hstamped fresh stamp)
  | dropped user url ok idle fresh stamp records =>
    exact Or.inr fun s hs => by rw [stamp] at hs; cases hs
  | wiped user request ok stamp records =>
    exact Or.inr fun s hs => by rw [stamp] at hs; cases hs

/-- The step lemma for a record. -/
theorem record_same_or_newer {name id : String} (h : NotBefore last t (db.stamp uid name)) (inv : db.Inv t)
    (ht : t ≤ call.now) (hpos : 0 < call.now) (valid : collectionRe name = true) :
    (record name id).Same db (serve p db call).1 uid ∨
      (record name id).NewerThan last (serve p db call).1 uid := by
  have hgone (hnone : (serve p db call).1.record uid name id = none) :
      (record name id).NewerThan last (serve p db call).1 uid := by
    intro row hrow
    rw [hnone] at hrow
    cases hrow
  cases serve_change p inv ht uid valid with
  | same stamp records idle => exact Or.inl (congrArg _ (records id))
  | wrote user url ok fresh stamp records =>
    have hnow (hmodified : ∀ row, (serve p db call).1.record uid name id = some row → row.modified = call.now) :
        (record name id).NewerThan last (serve p db call).1 uid := by
      intro row hrow
      rw [hmodified row hrow]
      exact h.lt_now ht hpos fresh
    cases hold : db.record uid name id with
    | none =>
      refine Or.inr (hnow fun row hrow => ?_)
      rw [records, hold] at hrow
      exact RecordWrite.fold_modified_of_none hrow
    | some old =>
      by_cases hwrites : ∃ w ∈ call.recordWrites db, w.id = id ∧ w.stamps = true
      · refine Or.inr (hnow fun row hrow => ?_)
        rw [records, hold] at hrow
        exact (RecordWrite.fold_modified_of_some hrow).trans (if_pos hwrites)
      · obtain ⟨row, hrow, hpayload, hsortindex, hmodified⟩ :=
          @RecordWrite.fold_of_not_stamps call.store id (call.recordWrites db) old hwrites
        left
        change ((serve p db call).1.record uid name id).map _ = (db.record uid name id).map _
        rw [records, hold, hrow]
        simp [BsoRow.content, hpayload, hsortindex, hmodified]
  | removed ids user url ok idle fresh stamp records =>
    cases hid : ids.contains id with
    | true => exact Or.inr (hgone (by rw [records, hid]; rfl))
    | false => exact Or.inl (congrArg _ ((records id).trans (by rw [hid]; rfl)))
  | dropped user url ok idle fresh stamp records => exact Or.inr (hgone (records id))
  | wiped user request ok stamp records => exact Or.inr (hgone (records id))

/-- The step lemma: a request leaves a resource as it is, or newer than what was answered. -/
theorem same_or_newer (h : r.Behind last t db uid) (inv : db.Inv t) (ht : t ≤ call.now) (hpos : 0 < call.now)
    (valid : r.Valid) (horder : r.InOrder p last uid db call) :
    r.Same db (serve p db call).1 uid ∨ r.NewerThan last (serve p db call).1 uid := by
  cases r with
  | info => exact info_same_or_newer (serve_effect p db call) horder
  | collection name => exact collection_same_or_newer h inv ht hpos valid
  | record name id => exact record_same_or_newer h inv ht hpos valid

/-- The collection of the resource does not fall behind the answer. -/
theorem Behind.step (h : r.Behind last t db uid) (inv : db.Inv t) (ht : t ≤ call.now) (valid : r.Valid)
    (horder : r.InOrder p last uid db call) : r.Behind last call.now (serve p db call).1 uid := by
  cases r with
  | info => trivial
  | collection name => exact NotBefore.step h inv ht valid horder
  | record name id => exact NotBefore.step h inv ht valid horder

end Step

section Run

variable {p : Platform} {db : Db} {calls : List Call} {t uid last : ℕ} {r : Resource}

/-- What is newer than what was answered stays newer over a run. -/
theorem NewerThan.run (hnewer : r.NewerThan last db uid) (h : r.Behind last t db uid) (inv : db.Inv t)
    (hpos : 0 < t) (valid : r.Valid) (htimed : Timed Call.now t calls)
    (horder : (server p).Along (r.InOrder p last uid) db calls) :
    r.NewerThan last ((server p).run db calls) uid := by
  induction calls generalizing db t with
  | nil => exact hnewer
  | cons call rest ih =>
    have hnow : 0 < call.now := Nat.lt_of_lt_of_le hpos htimed.1
    have hnext : r.NewerThan last (serve p db call).1 uid := by
      obtain hsame | hnewer' := same_or_newer h inv htimed.1 hnow valid horder.1
      · exact hnewer.of_same hsame
      · exact hnewer'
    exact ih hnext (h.step inv htimed.1 valid horder.1) ((serve_effect p db call).inv inv htimed.1) hnow
      htimed.2 horder.2

/-- The run lemma: either no step of a run changes a resource, or it is newer at the end than
what was answered at the start. -/
theorem run_same_or_newer (h : r.Behind last t db uid) (inv : db.Inv t) (hpos : 0 < t) (valid : r.Valid)
    (htimed : Timed Call.now t calls) (horder : (server p).Along (r.InOrder p last uid) db calls) :
    (server p).Along (fun db call => r.Same db (serve p db call).1 uid) db calls ∨
      r.NewerThan last ((server p).run db calls) uid := by
  induction calls generalizing db t with
  | nil => exact Or.inl trivial
  | cons call rest ih =>
    have hnow : 0 < call.now := Nat.lt_of_lt_of_le hpos htimed.1
    have inv' := (serve_effect p db call).inv inv htimed.1
    have h' := h.step inv htimed.1 valid horder.1
    obtain hsame | hnewer := same_or_newer h inv htimed.1 hnow valid horder.1
    · exact (ih h' inv' hnow htimed.2 horder.2).imp_left fun hrest => ⟨hsame, hrest⟩
    · exact Or.inr (hnewer.run h' inv' hnow valid htimed.2 horder.2)

/-- A resource that no step changes is the same at the end. -/
theorem same_of_along (h : (server p).Along (fun db call => r.Same db (serve p db call).1 uid) db calls) :
    r.Same db ((server p).run db calls) uid := by
  induction calls generalizing db with
  | nil => exact Same.refl r db uid
  | cons call rest ih => exact h.1.trans (ih h.2)

end Run

/-! ### Requests and their resources -/

/-- The resource a URL names. -/
def ofRequest : Request → Option Resource
  | .infoCollections => some info
  | .getCollection name _ _ => some (collection name)
  | .postCollection name _ _ => some (collection name)
  | .deleteCollection name _ => some (collection name)
  | .getBso name id => some (record name id)
  | .putBso name id _ => some (record name id)
  | .deleteBso name id => some (record name id)
  | _ => none

/-- The timestamp that answers a precondition on a resource. -/
def timestamp (db : Db) (uid : ℕ) : Resource → ℕ
  | info => SyncStore.storageTimestamp ⟨uid, 0⟩ db
  | collection name => (db.stamp uid name).getD 0
  | record name id => ((db.record uid name id).map BsoRow.modified).getD 0

/-- A route reads the timestamp of the resource its URL names. -/
theorem route_resource {p : Platform} {call : Call} {rt : Route} {r : Resource}
    (hr : ofRequest call.request = some r) (hroute : route p call = .ok rt) (db : Db) :
    r.Valid ∧ rt.resource db = r.timestamp db call.uid := by
  unfold route at hroute
  cases hreq : call.request with
  | infoCollections =>
    simp only [hreq, Except.ok.injEq] at hroute
    simp only [hreq, ofRequest, Option.some.injEq] at hr
    subst hroute hr
    exact ⟨trivial, rfl⟩
  | infoCollectionCounts => simp [hreq, ofRequest] at hr
  | infoCollectionUsage => simp [hreq, ofRequest] at hr
  | infoQuota => simp [hreq, ofRequest] at hr
  | deleteAll => simp [hreq, ofRequest] at hr
  | getCollection name params newlines =>
    simp only [hreq, bind_eq_ok, Except.ok.injEq] at hroute
    simp only [hreq, ofRequest, Option.some.injEq] at hr
    obtain ⟨_, hvalid, query, -, rfl⟩ := hroute
    subst hr
    exact ⟨validateCollection_eq_ok.mp hvalid, collectionResource_eq call.store name db⟩
  | postCollection name params bsos =>
    simp only [hreq, bind_eq_ok, Except.ok.injEq] at hroute
    simp only [hreq, ofRequest, Option.some.injEq] at hr
    obtain ⟨_, hvalid, batch, -, rfl⟩ := hroute
    subst hr
    exact ⟨validateCollection_eq_ok.mp hvalid, collectionResource_eq call.store name db⟩
  | deleteCollection name params =>
    simp only [hreq, bind_eq_ok, Except.ok.injEq] at hroute
    simp only [hreq, ofRequest, Option.some.injEq] at hr
    obtain ⟨_, hvalid, query, -, rfl⟩ := hroute
    subst hr
    exact ⟨validateCollection_eq_ok.mp hvalid, collectionResource_eq call.store name db⟩
  | getBso name id =>
    simp only [hreq, bind_eq_ok, Except.ok.injEq] at hroute
    simp only [hreq, ofRequest, Option.some.injEq] at hr
    obtain ⟨_, hvalid, _, -, rfl⟩ := hroute
    subst hr
    exact ⟨validateCollection_eq_ok.mp hvalid, bsoResource_eq call.store name id db⟩
  | putBso name id body =>
    simp only [hreq, bind_eq_ok, Except.ok.injEq] at hroute
    simp only [hreq, ofRequest, Option.some.injEq] at hr
    obtain ⟨_, hvalid, _, -, rfl⟩ := hroute
    subst hr
    exact ⟨validateCollection_eq_ok.mp hvalid, bsoResource_eq call.store name id db⟩
  | deleteBso name id =>
    simp only [hreq, bind_eq_ok, Except.ok.injEq] at hroute
    simp only [hreq, ofRequest, Option.some.injEq] at hr
    obtain ⟨_, hvalid, _, -, rfl⟩ := hroute
    subst hr
    exact ⟨validateCollection_eq_ok.mp hvalid, bsoResource_eq call.store name id db⟩

end Resource

/-- The requests that read a resource. -/
def Request.isGet : Request → Bool
  | .infoCollections => true
  | .getCollection _ _ _ => true
  | .getBso _ _ => true
  | _ => false

/-- Their routes only read. -/
theorem route_reads {p : Platform} {call : Call} {rt : Route} (hget : call.request.isGet = true)
    (hroute : route p call = .ok rt) : rt.collection = none ∧ Reads rt.handler := by
  unfold route at hroute
  cases hreq : call.request with
  | infoCollections =>
    simp only [hreq, Except.ok.injEq] at hroute
    subst hroute
    exact ⟨rfl, infoCollections_reads _⟩
  | getCollection name params newlines =>
    simp only [hreq, bind_eq_ok, Except.ok.injEq] at hroute
    obtain ⟨_, -, query, -, rfl⟩ := hroute
    exact ⟨rfl, getCollection_reads p _ name query _ newlines⟩
  | getBso name id =>
    simp only [hreq, bind_eq_ok, Except.ok.injEq] at hroute
    obtain ⟨_, -, _, -, rfl⟩ := hroute
    exact ⟨rfl, getBso_reads _ name id⟩
  | _ => simp [hreq, Request.isGet] at hget

/-- A read answers with the timestamp of its resource, and changes nothing. -/
theorem get_lastModified {p : Platform} {db : Db} {call : Call} {r : Resource} {last : ℕ}
    (hr : Resource.ofRequest call.request = some r) (hget : call.request.isGet = true)
    (h : (serve p db call).2.lastModified = some (timestampHeader last)) :
    r.Valid ∧ (serve p db call).1 = db ∧ last = r.timestamp db call.uid := by
  obtain ⟨response, hhandle, -⟩ := serve_eq_of_lastModified h
  obtain ⟨rt, hroute, -⟩ := handle_eq_ok hhandle
  obtain ⟨hcollection, hreads⟩ := route_reads hget hroute
  obtain ⟨valid, htimestamp⟩ := Resource.route_resource hr hroute db
  obtain ⟨hdb, hlast⟩ := read_lastModified hroute hcollection hreads h
  exact ⟨valid, hdb, (timestampHeader_inj.mp hlast).trans htimestamp⟩

/-- What has been answered, the resource does not fall behind. -/
theorem Resource.behind_of_timestamp {db : Db} {t t' uid last : ℕ} {r : Resource} (inv : db.Inv t)
    (hlast : last = r.timestamp db uid) : r.Behind last t' db uid := by
  cases r with
  | info => trivial
  | collection name =>
    change last = (db.stamp uid name).getD 0 at hlast
    change NotBefore last t' (db.stamp uid name)
    cases hs : db.stamp uid name with
    | some s => exact (hlast.trans (by rw [hs]; rfl)).le
    | none => exact Or.inl (hlast.trans (by rw [hs]; rfl))
  | record name id =>
    change last = ((db.record uid name id).map BsoRow.modified).getD 0 at hlast
    change NotBefore last t' (db.stamp uid name)
    cases hrow : db.record uid name id with
    | some row =>
      rw [hrow] at hlast
      obtain ⟨s, hs, hle⟩ := inv.record_le_stamp hrow
      rw [hs]
      exact Nat.le_trans hlast.le hle
    | none =>
      rw [hrow] at hlast
      obtain rfl : last = 0 := hlast
      cases db.stamp uid name with
      | some s => exact Nat.zero_le s
      | none => exact Or.inl rfl

/-! ### Preconditions -/

/-- The text of a timestamp is read as the hundredth the timestamp is in. -/
theorem parseTimestamp_header {last m : ℕ} (h : parseTimestamp (some (timestampHeader last)) = .ok m) :
    m = quantize last := by
  unfold parseTimestamp at h
  simp only at h
  split at h
  · cases h
  · have hexact : timestampHeader last * 1000 = (last : ℚ) := by
      simp [timestampHeader]
    have hfloor : (last : ℚ).floor = (last : ℤ) := by
      exact_mod_cast Rat.floor_intCast (last : ℤ)
    rw [hexact, hfloor, Int.toNat_natCast] at h
    exact (Except.ok.inj h).symm

/-- Rounding down does not go up. -/
theorem quantize_le (n : ℕ) : quantize n ≤ n := Nat.sub_le _ _

/-- What a request has passed that went through its precondition. -/
theorem serve_success {p : Platform} {db : Db} {call : Call} (h : (serve p db call).2.status < 300) :
    ∃ rt locked answer, route p call = .ok rt ∧ precondition p call (rt.resource db) = .ok none ∧
      Locked call db rt.collection locked ∧ rt.handler locked = .ok (answer, (serve p db call).1) ∧
      (serve p db call).2 = stampWeave call { answer with
        lastModified := answer.lastModified.or (some (timestampHeader (rt.resource db))) } := by
  unfold serve at h ⊢
  split
  · rename_i response db' hhandle
    obtain ⟨rt, hroute, ⟨hpre, rfl⟩ | ⟨locked, answer, hpre, hlocked, hanswer, rfl⟩⟩ := handle_eq_ok hhandle
    · simp only [hhandle, stampWeave_status] at h
      have hrefused := (precondition_some hpre).1
      omega
    · exact ⟨rt, locked, answer, hroute, hpre, hlocked, hanswer, rfl⟩
  · rename_i raised hhandle
    simp only [hhandle] at h
    exact absurd (errorResponse_status call raised) (not_le.mpr h)

/-- A precondition on what is unmodified lets through what is not newer than its text says. -/
theorem precondition_unmodified {p : Platform} {call : Call} {timestamp : ℕ} {since : String}
    (h : precondition p call timestamp = .ok none) (hsince : call.ifUnmodifiedSince = some since) :
    ∃ m, parseTimestamp (p.float since) = .ok m ∧ timestamp ≤ m := by
  unfold precondition at h
  simp only [hsince] at h
  split at h
  · cases h
  · rename_i heq
    cases heq
  · rename_i heq
    cases heq
    simp only [bind_eq_ok, Except.ok.injEq, ite_eq_right_iff, reduceCtorEq, imp_false, not_lt] at h
    exact h
  · rename_i heq
    cases heq

end FxaLite.SyncStorage
