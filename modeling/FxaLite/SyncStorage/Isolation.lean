import FxaLite.Lib.Noninterference
import FxaLite.SyncStorage.Shadows
import FxaLite.SyncStorage.Wire

/-!
# Isolation of users

Every user is served from tables that all users share. In a run of requests by many users, one
user's requests are compared with the same requests served alone: whatever the others did, the
database of the run without them shadows the database of the whole run, and shadows answer
alike. The one exception is a read of a collection that some user has named and this one has
not. It finds an empty collection where the run without the others finds none, and the two are
answered differently if the read asks for records with `limit=0`, or for a number that does not
fit the column it is compared with.
-/

namespace FxaLite.SyncStorage

open Relational Reactive Fallible

/-! ### Responses -/

/-- Bodies that say the same; the members of a JSON object have no order. -/
def Body.Alike : Body → Body → Prop
  | .timestamps entries, .timestamps entries' => entries.Perm entries'
  | .counts entries, .counts entries' => entries.Perm entries'
  | .usage kilobytes, .usage kilobytes' => kilobytes.Perm kilobytes'
  | body, body' => body = body'

/-- Responses with the same status and headers, and bodies that say the same. -/
def Response.Alike (response response' : Response) : Prop :=
  response.body.Alike response'.body ∧ response = { response' with body := response.body }

/-- A body says what it says. -/
theorem Body.Alike.refl (body : Body) : body.Alike body := by
  cases body <;> first | exact List.Perm.refl _ | rfl

/-- A response is like itself. -/
theorem Response.Alike.refl (response : Response) : response.Alike response := ⟨Body.Alike.refl _, rfl⟩

/-- The headers that are put around a handler's answer make no difference. -/
theorem Response.Alike.withLast {response response' : Response} (h : response.Alike response') (last : Option ℚ → Option ℚ) :
    Response.Alike { response with lastModified := last response.lastModified }
      { response' with lastModified := last response'.lastModified } := by
  obtain ⟨hbody, heq⟩ := h
  refine ⟨hbody, ?_⟩
  rw [heq]

/-- Nor does the stamp on every response. -/
theorem Response.Alike.stamped {response response' : Response} (h : response.Alike response') (call : Call) :
    (stampWeave call response).Alike (stampWeave call response') := by
  obtain ⟨hbody, heq⟩ := h
  refine ⟨hbody, ?_⟩
  rw [heq]
  rfl

/-! ### The handlers -/

/-- Answers of the two databases: alike, and one still shadows the other. -/
def Agree (uid : ℕ) (x y : Response × Db) : Prop := x.1.Alike y.1 ∧ Shadow uid x.2 y.2

section Handlers

variable {self : SyncStore} {name : String} {c c' : ℕ} {db alone : Db}

/-- `info_collections` lists the same timestamps. -/
theorem infoCollections_agree (shadow : Shadow self.uid db alone) :
    Related (Agree self.uid) (infoCollections self db) (infoCollections self alone) := by
  have hperm := shadow.collectionTimestamps.map fun entry => (entry.1, timestampJson entry.2)
  refine .ok ⟨⟨hperm, ?_⟩, shadow⟩
  simp [hperm.length_eq]

/-- `info_collection_counts` counts the same records. -/
theorem infoCollectionCounts_agree (shadow : Shadow self.uid db alone) :
    Related (Agree self.uid) (infoCollectionCounts self db) (infoCollectionCounts self alone) := by
  refine .ok ⟨⟨shadow.collectionCounts, ?_⟩, shadow⟩
  simp [shadow.collectionCounts.length_eq]

/-- `info_collection_usage` weighs them the same. -/
theorem infoCollectionUsage_agree (shadow : Shadow self.uid db alone) :
    Related (Agree self.uid) (infoCollectionUsage self db) (infoCollectionUsage self alone) := by
  have hperm := shadow.collectionUsage.map fun entry => (entry.1, (entry.2 : ℚ) / 1024)
  refine .ok ⟨⟨hperm, ?_⟩, shadow⟩
  simp [hperm.length_eq]

/-- `info_quota`. -/
theorem infoQuota_agree (shadow : Shadow self.uid db alone) :
    Related (Agree self.uid) (infoQuota self db) (infoQuota self alone) := by
  unfold infoQuota
  rw [shadow.storageUsage]
  exact .ok ⟨Response.Alike.refl _, shadow⟩

/-- `delete_all`. -/
theorem deleteAll_agree (shadow : Shadow self.uid db alone) :
    Related (Agree self.uid) (deleteAll self db) (deleteAll self alone) :=
  .ok ⟨Response.Alike.refl _, shadow.deleteStorage⟩

/-- `get_bso` finds the same record, whether or not the collection has an id. -/
theorem getBso_agree (shadow : Shadow self.uid db alone) (name id : String) :
    Related (Agree self.uid) (getBso self name id db) (getBso self name id alone) := by
  rw [getBso_eq, getBso_eq, shadow.records]
  cases (alone.record self.uid name id).filter (BsoRow.alive self.now) with
  | none => exact .error _
  | some row => exact .ok ⟨Response.Alike.refl _, shadow⟩

/-- `put_bso`. -/
theorem putBso_agree (h : Paired self.uid name c c' db alone) (id : String) (body : PostedBso) :
    Related (Agree self.uid) (putBso self name id body db) (putBso self name id body alone) := by
  obtain ⟨-, hpaired⟩ := h.putBso { body with id := id }
  exact .ok ⟨Response.Alike.refl _, hpaired.toShadow⟩

/-- `delete_bso`. -/
theorem deleteBso_agree (h : Paired self.uid name c c' db alone) (id : String) :
    Related (Agree self.uid) (deleteBso self name id db) (deleteBso self name id alone) := by
  have hdeleted := h.deleteBso id
  unfold deleteBso
  generalize SyncStore.deleteBso self db name id = x at hdeleted
  generalize SyncStore.deleteBso self alone name id = y at hdeleted
  cases hdeleted with
  | @ok a b hab =>
    obtain ⟨modified, after⟩ := a
    obtain ⟨modified', after'⟩ := b
    obtain ⟨rfl, hpaired⟩ := hab
    exact .ok ⟨Response.Alike.refl _, hpaired.toShadow⟩
  | error e => cases e <;> exact .error _

/-- `delete_collection`, of the whole or of some ids. -/
theorem deleteCollection_agree (h : Paired self.uid name c c' db alone) (query : BsoQuery) :
    Related (Agree self.uid) (deleteCollection self name query db) (deleteCollection self name query alone) := by
  have hdeleted : Related (Outcome self.uid name c c')
      (if query.ids.isEmpty then SyncStore.deleteCollection self db name else SyncStore.deleteBsos self db name query.ids)
      (if query.ids.isEmpty then SyncStore.deleteCollection self alone name
        else SyncStore.deleteBsos self alone name query.ids) := by
    split
    · exact h.deleteCollection
    · exact h.deleteBsos query.ids
  unfold deleteCollection
  dsimp only
  rw [h.toShadow.storageTimestamp]
  revert hdeleted
  generalize (if query.ids.isEmpty then SyncStore.deleteCollection self db name
    else SyncStore.deleteBsos self db name query.ids) = x
  generalize (if query.ids.isEmpty then SyncStore.deleteCollection self alone name
    else SyncStore.deleteBsos self alone name query.ids) = y
  intro hdeleted
  cases hdeleted with
  | @ok a b hab =>
    obtain ⟨modified, after⟩ := a
    obtain ⟨modified', after'⟩ := b
    obtain ⟨rfl, hpaired⟩ := hab
    exact .ok ⟨Response.Alike.refl _, hpaired.toShadow⟩
  | error e =>
    cases e with
    | collectionNotFound => exact .ok ⟨Response.Alike.refl _, h.toShadow⟩
    | bsoNotFound => exact .ok ⟨Response.Alike.refl _, h.toShadow⟩
    | http e => exact .error _
    | conflict => exact .error _
    | batchNotFound => exact .error _
    | overflow => exact .error _
    | recursion => exact .error _

/-- The batch of a POST: the one that is named, or a new one. -/
def openedBatch (self : SyncStore) (name : String) (id : Option String) (db : Db) : Except Raised (String × Db) :=
  match id with
  | none => SyncStore.createBatch self db name
  | some id => do
    if ← SyncStore.validateBatch self db name id then .ok (id, db) else .error (.http badRequest)

/-- It is opened alike. -/
theorem openedBatch_agree (h : Paired self.uid name c c' db alone) (id : Option String) :
    Related (Outcome self.uid name c c') (openedBatch self name id db) (openedBatch self name id alone) := by
  cases id with
  | none => exact h.createBatch
  | some id =>
    simp only [openedBatch, h.validateBatch]
    cases SyncStore.validateBatch self alone name id with
    | error e => exact .error e
    | ok valid =>
      cases valid with
      | false => exact .error _
      | true => exact .ok ⟨rfl, h⟩

/-- A POST to a batch, new or old. -/
theorem postBatch_agree (h : Paired self.uid name c c' db alone) (batch : BatchRequest) (bsos : PostedBsos) :
    Related (Agree self.uid) (postBatch self name batch bsos db) (postBatch self name batch bsos alone) := by
  unfold postBatch
  apply (openedBatch_agree h batch.id).bind
  rintro ⟨identifier, opened⟩ ⟨identifier', opened'⟩ ⟨rfl, hopened⟩
  have hstaged : Related (Paired self.uid name c c')
      (if !bsos.valid.isEmpty && !batch.commit then SyncStore.appendToBatch self opened name identifier bsos.valid
        else .ok opened)
      (if !bsos.valid.isEmpty && !batch.commit then SyncStore.appendToBatch self opened' name identifier bsos.valid
        else .ok opened') := by
    split
    · exact hopened.appendToBatch identifier bsos.valid
    · exact .ok hopened
  apply hstaged.bind
  intro staged staged' hstaged
  split
  · exact .ok ⟨Response.Alike.refl _, hstaged.toShadow⟩
  · apply (hstaged.commitBatch identifier).bind
    rintro ⟨modified, committed⟩ ⟨modified', committed'⟩ ⟨rfl, hcommitted⟩
    dsimp only
    split
    · exact .ok ⟨Response.Alike.refl _, hcommitted.toShadow⟩
    · apply (hcommitted.postBsos bsos.valid true).bind
      rintro ⟨modified', after⟩ ⟨modified'', after'⟩ ⟨rfl, hafter⟩
      exact .ok ⟨Response.Alike.refl _, hafter.toShadow⟩

/-- `post_collection`. -/
theorem postCollection_agree (h : Paired self.uid name c c' db alone) (batch : Option BatchRequest)
    (bsos : PostedBsos) :
    Related (Agree self.uid) (postCollection self name batch bsos db) (postCollection self name batch bsos alone) := by
  have hplain : Related (Agree self.uid) (postCollection self name none bsos db) (postCollection self name none bsos alone) := by
    apply (h.postBsos bsos.valid false).bind
    rintro ⟨modified, after⟩ ⟨modified', after'⟩ ⟨rfl, hafter⟩
    exact .ok ⟨Response.Alike.refl _, hafter.toShadow⟩
  unfold postCollection
  cases batch with
  | none => exact hplain
  | some batch =>
    dsimp only
    split
    · exact postBatch_agree h batch bsos
    · exact hplain

end Handlers

/-! ### A collection without records -/

section Empty

variable {self : SyncStore} {name : String} {db : Db} {query : BsoQuery} {full : Bool}

/-- The records of a read, from the ids and rows it selects. -/
def bsosOf (entries : List (String × BsoRow)) : List Bso :=
  entries.map fun entry => ⟨entry.1, entry.2.modified, entry.2.payload, entry.2.sortindex, entry.2.expiry⟩

/-- What a collection read returns where the collection has an id. -/
theorem getBsos_of_known {c : ℕ} (hc : db.collections.idxOf? name = some c) (scan : ScanOrder) (query : BsoQuery)
    (full : Bool) : SyncStore.getBsos self db scan name query full =
      if !SyncStore.bindable query full then .error .overflow
      else .ok (SyncStore.pageOf scan query full (bsosOf (db.selected self.uid c fun id row =>
        decide (self.now < row.expiry) && SyncStore.matchesQuery query full id row))) := by
  unfold SyncStore.getBsos bsosOf
  rw [collectionId_eq_ok.mpr hc, ok_bind, select_eq_selected]

/-- The page of no records. -/
theorem pageOf_nil (scan : ScanOrder) : SyncStore.pageOf scan query full [] =
    ⟨if full then .records [] else .ids [], if SyncStore.limitOf query = 0 ∧ full then some ['0'] else none⟩ := by
  have hscan : scan.scan [] = [] := List.perm_nil.mp (scan.perm [])
  have horder : SyncStore.orderBy query.sort full [] = [] := by
    unfold SyncStore.orderBy
    split <;> rfl
  unfold SyncStore.pageOf
  rw [hscan, horder, List.drop_nil, List.take_nil]
  simp

/-- A read that would show whether its collection has been named by anyone: of records and
without any, or with a number that cannot be bound. -/
def revealing (query : BsoQuery) (full : Bool) : Bool :=
  !SyncStore.bindable query full || (full && SyncStore.limitOf query = 0)

/-- Any other read answers alike whether the collection is empty or is not there. -/
theorem getCollection_of_empty {p : Platform} {newlines : Bool} {c : ℕ} (hc : db.collections.idxOf? name = some c)
    (hempty : ∀ id, db.record self.uid name id = none) (hquery : revealing query full = false) :
    getCollection p self name query full newlines db =
      .ok ({ body := itemsBody newlines (if full then .records [] else .ids []), records := some 0 }, db) := by
  simp only [revealing, Bool.or_eq_false_iff, Bool.not_eq_false', Bool.and_eq_false_iff, decide_eq_false_iff_not] at hquery
  obtain ⟨hbindable, hlimit⟩ := hquery
  unfold getCollection
  rw [getBsos_of_known hc, selected_eq_nil hc hempty]
  simp only [hbindable, Bool.not_true, Bool.false_eq_true, if_false, bsosOf, List.map_nil, pageOf_nil]
  cases full with
  | false => simp [Items.length]
  | true =>
    have hpositive : ¬(SyncStore.limitOf query = 0) := by simpa using hlimit
    simp [hpositive, Items.length]

/-- Such a read raises, or answers with an offset. -/
theorem getCollection_of_revealing {p : Platform} {newlines : Bool} {c : ℕ}
    (hc : db.collections.idxOf? name = some c) (hempty : ∀ id, db.record self.uid name id = none)
    (hquery : revealing query full = true) :
    getCollection p self name query full newlines db = .error .overflow ∨
      ∃ response, getCollection p self name query full newlines db = .ok (response, db) ∧
        response.nextOffset = some ['0'] := by
  unfold getCollection
  rw [getBsos_of_known hc, selected_eq_nil hc hempty]
  cases hbindable : SyncStore.bindable query full with
  | false => exact Or.inl rfl
  | true =>
    obtain ⟨rfl, hlimit⟩ : full = true ∧ SyncStore.limitOf query = 0 := by
      simpa [revealing, hbindable] using hquery
    refine Or.inr ⟨_, rfl, ?_⟩
    simp [bsosOf, pageOf_nil, hlimit]

/-- A collection that has no id is answered as an empty list. -/
theorem getCollection_of_unknown {p : Platform} {newlines : Bool} (hc : db.collections.idxOf? name = none) :
    getCollection p self name query full newlines db =
      .ok ({ body := itemsBody newlines (if full then .records [] else .ids []), records := some 0 }, db) := by
  unfold getCollection SyncStore.getBsos
  rw [collectionId_eq_error.mpr ⟨hc, rfl⟩]
  rfl

end Empty

/-! ### One request -/

/-- The name about which the answer to a request shows whether it has an id. -/
def Call.reveals (p : Platform) (call : Call) : Option String :=
  match call.request with
  | .getCollection name params _ =>
    match validateCollection name, parseQuery p.float params, precondition p call 0 with
    | .ok (), .ok query, .ok none => if revealing query (params "full").isSome then some name else none
    | _, _, _ => none
  | _ => none

/-- If the answer to a request shows that a name has an id, the user has named it. -/
def Call.Hidden (p : Platform) (db alone : Db) (call : Call) : Prop :=
  ∀ name, call.reveals p = some name → name ∈ db.collections → name ∈ alone.collections

section Requests

variable {p : Platform} {call : Call} {db alone : Db}

/-- When a request shows that. -/
theorem Call.reveals_eq_some {name : String} (h : call.reveals p = some name) :
    ∃ params newlines query, call.request = .getCollection name params newlines ∧
      validateCollection name = .ok () ∧ parseQuery p.float params = .ok query ∧ precondition p call 0 = .ok none ∧
      revealing query (params "full").isSome = true := by
  unfold Call.reveals at h
  split at h
  · rename_i name' params newlines hreq
    split at h
    · rename_i query hvalid hquery hpre
      obtain ⟨hreveals, heq⟩ := Option.ite_none_right_eq_some.mp h
      obtain rfl := Option.some.inj heq
      exact ⟨params, newlines, query, hreq, hvalid, hquery, hpre, hreveals⟩
    · cases h
  · cases h

/-- A read of a collection answers alike, unless it shows a name that only others have used. -/
theorem getCollection_agree (shadow : Shadow call.uid db alone) (hidden : call.Hidden p db alone) {name : String}
    {params : Params} {newlines : Bool} {query : BsoQuery}
    (hreq : call.request = .getCollection name params newlines) (hvalid : validateCollection name = .ok ())
    (hquery : parseQuery p.float params = .ok query)
    (hpre : precondition p call (collectionResource call.store name alone) = .ok none) :
    Related (Agree call.uid) (getCollection p call.store name query (params "full").isSome newlines db)
      (getCollection p call.store name query (params "full").isSome newlines alone) := by
  have hagree : ∀ response : Response, Related (Agree call.uid) (.ok (response, db))
      (.ok (response, alone) : Except Raised _) := fun response => .ok ⟨Response.Alike.refl _, shadow⟩
  cases hknown' : alone.collections.idxOf? name with
  | some c' =>
    have hmem : name ∈ db.collections := shadow.subset (List.isSome_idxOf?.mp (by rw [hknown']; rfl))
    obtain ⟨c, hknown⟩ := Option.isSome_iff_exists.mp (List.isSome_idxOf?.mpr hmem)
    unfold getCollection
    rw [getBsos_of_known hknown, getBsos_of_known hknown']
    have hselected := fun p => shadow.selected hknown hknown' p
    simp only [Call.store, hselected]
    split
    · exact hagree _
    · exact hagree _
    · exact .error _
  | none =>
    rw [getCollection_of_unknown hknown']
    cases hknown : db.collections.idxOf? name with
    | none =>
      rw [getCollection_of_unknown hknown]
      exact hagree _
    | some c =>
      have hnone : alone.stamp call.uid name = none := by
        unfold Db.stamp
        rw [hknown']
        rfl
      have hempty : ∀ id, db.record call.uid name id = none := by
        intro id
        rw [shadow.records]
        unfold Db.record
        rw [hknown']
        rfl
      have hzero : collectionResource call.store name alone = 0 := by
        rw [collectionResource_eq, Call.store, hnone]
        rfl
      rw [hzero] at hpre
      have hmem : name ∈ db.collections := List.isSome_idxOf?.mp (by rw [hknown]; rfl)
      have hnew : name ∉ alone.collections := List.idxOf?_eq_none_iff.mp hknown'
      have hharmless : revealing query (params "full").isSome = false := by
        cases hreveals : revealing query (params "full").isSome with
        | false => rfl
        | true =>
          have hshown : call.reveals p = some name := by
            simp [Call.reveals, hreq, hvalid, hquery, hpre, hreveals]
          exact absurd (hidden name hshown hmem) hnew
      rw [getCollection_of_empty hknown hempty hharmless]
      exact hagree _

/-- The transaction of a route around handlers that agree. -/
theorem run_agree (shadow : Shadow call.uid db alone) {resource : Db → ℕ} (hresource : resource db = resource alone)
    {collection : Option String} {handler : Handler}
    (hreads : collection = none → precondition p call (resource alone) = .ok none →
      Related (Agree call.uid) (handler db) (handler alone))
    (hwrites : ∀ name, collection = some name → ∀ {c c'} {db alone : Db}, Paired call.uid name c c' db alone →
      Related (Agree call.uid) (handler db) (handler alone)) :
    Related (Agree call.uid) (run p call resource collection handler db)
      (run p call resource collection handler alone) := by
  have hfinish : ∀ {x y : Except Raised (Response × Db)}, Related (Agree call.uid) x y →
      Related (Agree call.uid)
        (x >>= fun a => .ok ({ a.1 with
          lastModified := a.1.lastModified.or (some (timestampHeader (resource alone))) }, a.2))
        (y >>= fun a => .ok ({ a.1 with
          lastModified := a.1.lastModified.or (some (timestampHeader (resource alone))) }, a.2)) := by
    intro x y hxy
    apply hxy.bind
    intro a b hab
    exact .ok ⟨hab.1.withLast fun last => last.or (some (timestampHeader (resource alone))), hab.2⟩
  unfold run
  dsimp only
  rw [hresource]
  cases hpre : precondition p call (resource alone) with
  | error e => exact .error e
  | ok refusal =>
    cases refusal with
    | some response => exact .ok ⟨Response.Alike.refl _, shadow⟩
    | none =>
      cases collection with
      | none => exact hfinish (hreads rfl hpre)
      | some name =>
        have hpaired := shadow.ensure name
        dsimp only [ok_bind]
        unfold lockForWrite
        rw [getOrCreateCollectionId_eq, getOrCreateCollectionId_eq]
        have hguard : SyncStore.checkWrite call.store (db.ensure name) (db.idFor name) =
            SyncStore.checkWrite call.store (alone.ensure name) (alone.idFor name) :=
          @Paired.checkWrite call.store _ _ _ _ _ hpaired
        dsimp only
        rw [hguard]
        cases SyncStore.checkWrite call.store (alone.ensure name) (alone.idFor name) with
        | error e => exact .error e
        | ok _ => exact hfinish (hwrites name rfl hpaired)

/-- The same request in both, unless it shows a name that only others have used. -/
theorem handle_agree (shadow : Shadow call.uid db alone) (hidden : call.Hidden p db alone) :
    Related (Agree call.uid) (handle p call db) (handle p call alone) := by
  have hstorage : SyncStore.storageTimestamp call.store db = SyncStore.storageTimestamp call.store alone :=
    @Shadow.storageTimestamp db alone call.store shadow
  have hcollection : ∀ name, collectionResource call.store name db = collectionResource call.store name alone :=
    fun name => @Shadow.collectionResource call.store db alone shadow name
  have hbso : ∀ name id, bsoResource call.store name id db = bsoResource call.store name id alone :=
    fun name id => @Shadow.bsoResource call.store db alone shadow name id
  -- each route either reads, or writes to the collection it is locked for
  have hread : ∀ {resource : Db → ℕ} {handler : Handler}, resource db = resource alone →
      (precondition p call (resource alone) = .ok none → Related (Agree call.uid) (handler db) (handler alone)) →
      Related (Agree call.uid) (run p call resource none handler db) (run p call resource none handler alone) :=
    fun hresource hhandler => run_agree shadow hresource (fun _ => hhandler) (fun _ h => nomatch h)
  have hwrite : ∀ {resource : Db → ℕ} {name : String} {handler : Handler}, resource db = resource alone →
      (∀ {c c'} {db alone : Db}, Paired call.uid name c c' db alone →
        Related (Agree call.uid) (handler db) (handler alone)) →
      Related (Agree call.uid) (run p call resource (some name) handler db)
        (run p call resource (some name) handler alone) := by
    intro resource name handler hresource hhandler
    refine run_agree shadow hresource (fun h => nomatch h) ?_
    intro other h
    obtain rfl := Option.some.inj h
    exact hhandler
  unfold handle route
  cases hreq : call.request with
  | infoCollections => exact hread hstorage fun _ => @infoCollections_agree call.store _ _ shadow
  | infoCollectionCounts => exact hread hstorage fun _ => @infoCollectionCounts_agree call.store _ _ shadow
  | infoCollectionUsage => exact hread hstorage fun _ => @infoCollectionUsage_agree call.store _ _ shadow
  | infoQuota => exact hread hstorage fun _ => @infoQuota_agree call.store _ _ shadow
  | deleteAll => exact hread hstorage fun _ => @deleteAll_agree call.store _ _ shadow
  | getCollection name params newlines =>
    dsimp only
    cases hvalid : validateCollection name with
    | error e => exact .error e
    | ok _ =>
      cases hquery : parseQuery p.float params with
      | error e => exact .error e
      | ok query => exact hread (hcollection name) (getCollection_agree shadow hidden hreq hvalid hquery)
  | postCollection name params bsos =>
    dsimp only
    cases validateCollection name with
    | error e => exact .error e
    | ok _ =>
      cases parseBatch params with
      | error e => exact .error e
      | ok batch => exact hwrite (hcollection name) fun h => @postCollection_agree call.store _ _ _ _ _ h batch bsos
  | deleteCollection name params =>
    dsimp only
    cases validateCollection name with
    | error e => exact .error e
    | ok _ =>
      cases parseQuery p.float params with
      | error e => exact .error e
      | ok query => exact hwrite (hcollection name) fun h => @deleteCollection_agree call.store _ _ _ _ _ h query
  | getBso name id =>
    dsimp only
    cases validateCollection name with
    | error e => exact .error e
    | ok _ =>
      cases validateBsoId id with
      | error e => exact .error e
      | ok _ => exact hread (hbso name id) fun _ => @getBso_agree call.store _ _ shadow name id
  | putBso name id body =>
    dsimp only
    cases validateCollection name with
    | error e => exact .error e
    | ok _ =>
      cases validateBsoId id with
      | error e => exact .error e
      | ok _ => exact hwrite (hbso name id) fun h => @putBso_agree call.store _ _ _ _ _ h id body
  | deleteBso name id =>
    dsimp only
    cases validateCollection name with
    | error e => exact .error e
    | ok _ =>
      cases validateBsoId id with
      | error e => exact .error e
      | ok _ => exact hwrite (hbso name id) fun h => @deleteBso_agree call.store _ _ _ _ _ h id

/-- The transaction of a collection read that its precondition lets through. -/
theorem handle_getCollection {name : String} {params : Params} {newlines : Bool} {query : BsoQuery}
    (hreq : call.request = .getCollection name params newlines) (hvalid : validateCollection name = .ok ())
    (hquery : parseQuery p.float params = .ok query)
    (hpre : precondition p call (collectionResource call.store name db) = .ok none) :
    handle p call db = getCollection p call.store name query (params "full").isSome newlines db >>= fun answer =>
      .ok ({ answer.1 with lastModified :=
        answer.1.lastModified.or (some (timestampHeader (collectionResource call.store name db))) }, answer.2) := by
  unfold handle route
  simp only [hreq, hvalid, hquery, ok_bind, run, hpre]

/-- A request that shows a name that only others have used changes nothing, and is not answered
as it would be without them. -/
theorem serve_of_not_hidden (shadow : Shadow call.uid db alone) (h : ¬call.Hidden p db alone) :
    (serve p db call).1 = db ∧ (serve p alone call).1 = alone ∧
      ¬(serve p db call).2.Alike (serve p alone call).2 := by
  unfold Call.Hidden at h
  push Not at h
  obtain ⟨name, hshown, hmem, hnew⟩ := h
  obtain ⟨params, newlines, query, hreq, hvalid, hquery, hpre, hreveals⟩ := Call.reveals_eq_some hshown
  have hunknown : alone.collections.idxOf? name = none := List.idxOf?_eq_none_iff.mpr hnew
  obtain ⟨c, hknown⟩ := Option.isSome_iff_exists.mp (List.isSome_idxOf?.mpr hmem)
  have hstamp : alone.stamp call.uid name = none := by
    unfold Db.stamp
    rw [hunknown]
    rfl
  have hempty : ∀ id, db.record call.uid name id = none := by
    intro id
    rw [shadow.records]
    unfold Db.record
    rw [hunknown]
    rfl
  have hzero : ∀ d : Db, d.stamp call.uid name = none → collectionResource call.store name d = 0 := by
    intro d hd
    rw [collectionResource_eq, Call.store, hd]
    rfl
  have halone := hzero alone hstamp
  have hdb := hzero db ((shadow.stamps name).trans hstamp)
  have hhandle' := handle_getCollection hreq hvalid hquery (halone ▸ hpre)
  have hhandle := handle_getCollection hreq hvalid hquery (hdb ▸ hpre)
  rw [getCollection_of_unknown hunknown] at hhandle'
  unfold serve
  rw [hhandle', hhandle]
  obtain hraised | ⟨response, hanswered, hoffset⟩ :=
    @getCollection_of_revealing call.store name db query _ p newlines c hknown hempty hreveals
  · rw [hraised]
    refine ⟨rfl, rfl, fun halike => ?_⟩
    have hstatus : (500 : ℕ) = 200 := congrArg Response.status halike.2
    exact absurd hstatus (by decide)
  · rw [hanswered]
    refine ⟨rfl, rfl, fun halike => ?_⟩
    have hnext := congrArg Response.nextOffset halike.2
    change response.nextOffset = none at hnext
    rw [hoffset] at hnext
    cases hnext

/-- One request of the user: what it leaves is still shadowed, and it is answered alike exactly
when it shows no name that only others have used. -/
theorem serve_own (shadow : Shadow call.uid db alone) :
    Shadow call.uid (serve p db call).1 (serve p alone call).1 ∧
      ((serve p db call).2.Alike (serve p alone call).2 ↔ call.Hidden p db alone) := by
  by_cases hidden : call.Hidden p db alone
  · have hagree := handle_agree shadow hidden
    unfold serve
    revert hagree
    generalize handle p call db = x
    generalize handle p call alone = y
    intro hagree
    cases hagree with
    | @ok a b hab =>
      obtain ⟨halike, hshadow⟩ := hab
      exact ⟨hshadow, fun _ => hidden, fun _ => halike.stamped call⟩
    | error e => exact ⟨shadow, fun _ => hidden, fun _ => Response.Alike.refl _⟩
  · obtain ⟨hdb, halone, hdiffer⟩ := serve_of_not_hidden shadow hidden
    rw [hdb, halone]
    exact ⟨shadow, fun h => absurd h hdiffer, fun h => absurd h hidden⟩

end Requests

/-! ### Runs -/

/-- The same for a request as it arrives. -/
def HttpRequest.Hidden (p : Platform) (codec : Codec) (db alone : Db) (http : HttpRequest) : Prop :=
  ∀ request, http.read codec = .ok request → (http.call request).Hidden p db alone

/-- One request of the user over HTTP. -/
theorem serveHttp_own (p : Platform) (codec : Codec) {http : HttpRequest} {db alone : Db}
    (shadow : Shadow http.uid db alone) :
    Shadow http.uid (serveHttp p codec db http).1 (serveHttp p codec alone http).1 ∧
      ((serveHttp p codec db http).2.Alike (serveHttp p codec alone http).2 ↔ http.Hidden p codec db alone) := by
  unfold serveHttp HttpRequest.Hidden
  cases hread : http.read codec with
  | error e => exact ⟨shadow, iff_of_true (Response.Alike.refl _) fun _ h => nomatch h⟩
  | ok request =>
    obtain ⟨hshadow, hiff⟩ := @serve_own p (http.call request) db alone shadow
    simpa using ⟨hshadow, hiff⟩

/-- The rows of a user in the four tables. -/
def Db.rowsOf (db : Db) (uid : ℕ) : List (UserCollectionKey × ℕ) × List (BsoKey × BsoRow) ×
    List (BatchKey × ℕ) × List (BatchItemKey × BatchItem) :=
  (db.userCollections.select fun key _ => key.uid = uid, db.bso.select fun key _ => key.uid = uid,
    db.batches.select fun key _ => key.uid = uid, db.batchItems.select fun key _ => key.uid = uid)

/-- Rows that are found alike are listed alike. -/
theorem SameRows.rowsOf {uid : ℕ} {db db' : Db} (same : SameRows uid db db') : db'.rowsOf uid = db.rowsOf uid := by
  have hselect : ∀ {κ ν : Type} [LinearOrder κ] (t t' : Table κ ν) (user : κ → ℕ),
      (∀ key, user key = uid → t'.find? key = t.find? key) →
      (t'.select fun key _ => user key = uid) = t.select fun key _ => user key = uid := by
    intro κ ν _ t t' user h
    apply Table.select_congr
    intro key v
    simp only [decide_eq_true_eq]
    exact and_congr_left fun huid => by rw [h key huid]
  unfold Db.rowsOf
  rw [hselect db.userCollections db'.userCollections UserCollectionKey.uid, hselect db.bso db'.bso BsoKey.uid,
    hselect db.batches db'.batches BatchKey.uid, hselect db.batchItems db'.batchItems BatchItemKey.uid]
  · rintro ⟨uid, batchId, id⟩ rfl
    exact same.items batchId id
  · rintro ⟨uid, batchId⟩ rfl
    exact same.batches batchId
  · rintro ⟨uid, c, id⟩ rfl
    exact same.records c id
  · rintro ⟨uid, c⟩ rfl
    exact same.stamps c

/-- A request of another user leaves them, and leaves a shadow a shadow. -/
theorem serveHttp_other (p : Platform) (codec : Codec) {http : HttpRequest} {uid : ℕ} (huid : http.uid ≠ uid) (db : Db) :
    SameRows uid db (serveHttp p codec db http).1 ∧
      ∀ alone, Shadow uid db alone → Shadow uid (serveHttp p codec db http).1 alone := by
  unfold serveHttp
  cases http.read codec with
  | error e => exact ⟨⟨fun _ => rfl, fun _ _ => rfl, fun _ => rfl, fun _ _ => rfl⟩, fun _ h => h⟩
  | ok request =>
    have hother : uid ≠ (http.call request).uid := Ne.symm huid
    exact ⟨serve_sameRows p db hother, fun _ h => h.other p hother⟩

/-- In every run of requests by any users, a user is answered as if there were no others, and no
other user's request changes a row of theirs, exactly if no read of theirs of records with
`limit=0`, or with a number too large to bind, is of a collection that only others have named. -/
theorem users_isolated (p : Platform) (codec : Codec) (requests : List HttpRequest) (uid : ℕ) :
    (List.Forall₂ Response.Alike ((httpServer p codec).answers (·.uid = uid) Db.fresh requests)
        ((httpServer p codec).outputs Db.fresh (requests.filter (·.uid = uid))) ∧
      ∀ db (http : HttpRequest), http.uid ≠ uid → (serveHttp p codec db http).1.rowsOf uid = db.rowsOf uid) ↔
      (httpServer p codec).Beside (·.uid = uid) (fun db alone http => http.Hidden p codec db alone)
        Db.fresh Db.fresh requests := by
  have hanswers := @Machine.answers_iff_beside _ _ _ (httpServer p codec) (fun http => decide (http.uid = uid))
    (Shadow uid) Response.Alike (fun db alone http => http.Hidden p codec db alone)
    (fun db alone http shadow hown => by
      obtain rfl : http.uid = uid := of_decide_eq_true hown
      exact serveHttp_own p codec shadow)
    (fun db alone http shadow hother =>
      (serveHttp_other p codec (of_decide_eq_false hother) db).2 alone shadow)
    _ _ (shadow_fresh uid) requests
  rw [hanswers]
  exact and_iff_left fun db http huid => ((serveHttp_other p codec huid db).1).rowsOf

/-- User 2 writes to `bookmarks`, and then user 1 reads its records with `limit=0`. -/
def bookmarkRequests : List HttpRequest :=
  [⟨2, 10, fun _ => none, .putBso "bookmarks" "a" []⟩,
    ⟨1, 20, fun _ => none,
      .getCollection "bookmarks" (fun key => ([("full", "1"), ("limit", "0")] : List (String × String)).lookup key) false⟩]

/-- Only with user 2 is user 1 told an offset. -/
theorem bookmarks_show : ¬List.Forall₂ Response.Alike
    ((httpServer (Platform.knowing []) emptyObject).answers (·.uid = 1) Db.fresh bookmarkRequests)
    ((httpServer (Platform.knowing []) emptyObject).outputs Db.fresh (bookmarkRequests.filter (·.uid = 1))) := by
  have hoffsets : ((httpServer (Platform.knowing []) emptyObject).answers (·.uid = 1) Db.fresh bookmarkRequests).map
        Response.nextOffset = [some ['0']] ∧
      ((httpServer (Platform.knowing []) emptyObject).outputs Db.fresh
        (bookmarkRequests.filter (·.uid = 1))).map Response.nextOffset = [none] := by
    decide +kernel
  intro halike
  have hsame : ∀ {l l' : List Response}, List.Forall₂ Response.Alike l l' →
      l.map Response.nextOffset = l'.map Response.nextOffset := by
    intro l l' h
    induction h with
    | nil => rfl
    | cons h _ ih => rw [List.map_cons, List.map_cons, ih, congrArg Response.nextOffset h.2]
  have hequal := hsame halike
  rw [hoffsets.1, hoffsets.2] at hequal
  cases hequal

end FxaLite.SyncStorage
