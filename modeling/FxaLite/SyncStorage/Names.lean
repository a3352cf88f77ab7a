import FxaLite.SyncStorage.Wire
import FxaLite.SyncStorage.Batches

/-!
# The names a store holds

Record ids and collection names are matched against regular expressions wherever they enter: in
paths, in the bodies of PUT and POST, in lists of ids. From there they go into rows, into staged
items and into the table of collections, which grows only by the name a write was let through
with. The expressions end in `$`, which leaves room for one line feed that the grammar does not
have; nothing else separates what is stored from the grammar.
-/

namespace FxaLite.SyncStorage

open Relational Reactive Fallible

/-! ### The grammar -/

/-- A record id: 1 to 64 printable ASCII characters. -/
def BsoName (name : String) : Prop :=
  1 ≤ name.toList.length ∧ name.toList.length ≤ 64 ∧ ∀ c ∈ name.toList, 0x20 ≤ c.toNat ∧ c.toNat ≤ 0x7e

/-- A collection name: 1 to 32 letters, digits, dots, underscores and hyphens. -/
def CollectionName (name : String) : Prop :=
  1 ≤ name.toList.length ∧ name.toList.length ≤ 32 ∧
    ∀ c ∈ name.toList, c.isAlphanum = true ∨ c = '.' ∨ c = '_' ∨ c = '-'

/-- A name with a line feed at its end. -/
def EndsInLineFeed (name : String) : Prop := name.toList.getLast? = some '\n'

instance (name : String) : Decidable (EndsInLineFeed name) := inferInstanceAs (Decidable (_ = _))

/-- What `BSO_ID_RE` lets through without a line feed at its end is a record id. -/
theorem bsoName_of_re {name : String} (h : bsoIdRe name = true) (hend : ¬EndsInLineFeed name) : BsoName name := by
  obtain ⟨hlow, hhigh, hclass⟩ := (Py.matchesClass_eq_true hend).mp h
  exact ⟨hlow, hhigh, fun c hc => by simpa using hclass c hc⟩

/-- What `COLLECTION_RE` lets through without one is a collection name. -/
theorem collectionName_of_re {name : String} (h : collectionRe name = true) (hend : ¬EndsInLineFeed name) :
    CollectionName name := by
  obtain ⟨hlow, hhigh, hclass⟩ := (Py.matchesClass_eq_true hend).mp h
  refine ⟨hlow, hhigh, fun c hc => ?_⟩
  have hc := hclass c hc
  simp only [Bool.or_eq_true, Bool.and_eq_true, decide_eq_true_eq] at hc
  obtain ((⟨halnum, -⟩ | hdot) | hunderscore) | hhyphen := hc
  · exact Or.inl halnum
  · exact Or.inr (Or.inl hdot)
  · exact Or.inr (Or.inr (Or.inl hunderscore))
  · exact Or.inr (Or.inr (Or.inr hhyphen))

/-- No name of the grammar has a line feed anywhere. -/
theorem BsoName.no_lineFeed {name : String} (h : BsoName name) : '\n' ∉ name.toList := by
  intro hmem
  have hlow := (h.2.2 '\n' hmem).1
  revert hlow
  decide

/-- Every name in the database is one of the grammar. -/
structure Db.InGrammar (db : Db) : Prop where
  tombstoneName : db.collections.head? = some ""
  collections : ∀ name ∈ db.collections.tail, CollectionName name
  records : ∀ {key : BsoKey} {row : BsoRow}, db.bso.find? key = some row → BsoName key.id
  items : ∀ {key : BatchItemKey} {item : BatchItem}, db.batchItems.find? key = some item → BsoName key.id

/-- A fresh database has no names but the tombstone's. -/
theorem Db.inGrammar_fresh : Db.fresh.InGrammar where
  tombstoneName := rfl
  collections name h := by simp [Db.fresh] at h
  records h := by simp [Db.fresh] at h
  items h := by simp [Db.fresh] at h

/-! ### The table of collections -/

/-- A name that is in the table is not added. -/
theorem ensure_of_mem {db : Db} {name : String} (h : name ∈ db.collections) : db.ensure name = db := by
  obtain ⟨id, hid⟩ := Option.isSome_iff_exists.mp (List.isSome_idxOf?.mpr h)
  exact (ensure_of_known hid).1

/-- Once it is made sure of, it is there. -/
theorem mem_ensure (db : Db) (name : String) : name ∈ (db.ensure name).collections :=
  List.isSome_idxOf?.mp (by rw [idxOf?_ensure]; rfl)

/-- A handler that adds no name to a table that has a certain one. -/
def KeepsNames (name : String) (handler : Handler) : Prop :=
  ∀ db db' answer, name ∈ db.collections → handler db = .ok (answer, db') → db'.collections = db.collections

section Handlers

variable (self : SyncStore) (name : String)

/-- Batched or not, a POST adds no name but its own. -/
theorem postBatch_keepsNames (batch : BatchRequest) (bsos : PostedBsos) :
    KeepsNames name (postBatch self name batch bsos) := by
  intro db db' answer hmem h
  obtain ⟨identifier, opened, hopen, hrest⟩ := postBatch_eq_ok h
  have hopened : opened.collections = db.collections := by
    obtain ⟨-, hcreate⟩ | ⟨-, rfl, -⟩ := hopen
    · obtain ⟨_, -, -, -, -, hdb⟩ := createBatch_eq_ok hcreate
      rw [show opened = _ from hdb, ensure_of_mem hmem]
    · rfl
  obtain ⟨-, -, ⟨-, rfl⟩ | happend⟩ | ⟨-, modified, committed, hcommit, hpost⟩ := hrest
  · exact hopened
  · obtain ⟨-, batchId, -, rfl⟩ := appendToBatch_eq_ok happend
    rw [stageBsos_eq]
    exact hopened
  · obtain ⟨batchId, -, hresult⟩ := commitBatch_eq_ok hcommit
    have hcommitted : committed.collections = db.collections := by
      obtain ⟨-, rfl⟩ := Prod.mk.inj hresult
      rw [SyncStore.deleteBatch, Db.written, ensure_of_mem (hopened ▸ hmem)]
      exact hopened
    obtain ⟨-, -, rfl⟩ | ⟨modified', hstored, -⟩ := hpost
    · exact hcommitted
    · rw [postBsos_stamped, Except.ok.injEq, Prod.mk.injEq] at hstored
      obtain ⟨-, rfl⟩ := hstored
      rw [Db.written, ensure_of_mem (hcommitted ▸ hmem)]
      exact hcommitted

/-- A POST adds no name but its own. -/
theorem postCollection_keepsNames (batch : Option BatchRequest) (bsos : PostedBsos) :
    KeepsNames name (postCollection self name batch bsos) := by
  intro db db' answer hmem h
  have hplain : postCollection self name none bsos db = .ok (answer, db') → db'.collections = db.collections := by
    intro hplain
    simp only [postCollection, bind_eq_ok, Except.ok.injEq, Prod.mk.injEq] at hplain
    obtain ⟨result, hpost, -, rfl⟩ := hplain
    rw [postBsos_eq_ok hpost, Db.written, ensure_of_mem hmem]
  unfold postCollection at h
  cases batch with
  | none => exact hplain h
  | some batch =>
    dsimp only at h
    split at h
    · exact postBatch_keepsNames self name batch bsos db db' answer hmem h
    · exact hplain h

/-- A DELETE of a collection or of some of its records adds none. -/
theorem deleteCollection_keepsNames (query : BsoQuery) : KeepsNames name (deleteCollection self name query) := by
  intro db db' answer hmem h
  unfold deleteCollection at h
  dsimp only at h
  split at h
  · rename_i modified after hdelete
    obtain ⟨-, rfl⟩ := Prod.mk.inj (Except.ok.inj h)
    cases hids : query.ids.isEmpty with
    | true =>
      rw [hids, if_pos rfl] at hdelete
      obtain ⟨c, -, hafter, -⟩ := deleteCollection_eq_ok hdelete
      rw [show after = _ from hafter]
      rfl
    | false =>
      rw [hids, if_neg (by simp)] at hdelete
      obtain ⟨c, -, hafter⟩ := deleteBsos_eq_ok hids hdelete
      obtain ⟨-, rfl⟩ := Prod.mk.inj hafter
      rfl
  · cases h
    rfl
  · cases h
    rfl
  · cases h

/-- A DELETE of a record adds none. -/
theorem deleteBso_keepsNames (id : String) : KeepsNames name (deleteBso self name id) := by
  intro db db' answer hmem h
  unfold deleteBso at h
  split at h
  · rename_i modified after hdelete
    obtain ⟨-, rfl⟩ := Prod.mk.inj (Except.ok.inj h)
    obtain ⟨c, row, -, -, -, hafter⟩ := deleteBso_eq_ok hdelete
    obtain ⟨-, rfl⟩ := Prod.mk.inj hafter
    rfl
  · cases h
  · cases h
  · cases h

/-- A PUT adds none. -/
theorem putBso_keepsNames (id : String) (body : PostedBso) : KeepsNames name (putBso self name id body) := by
  intro db db' answer hmem h
  obtain ⟨-, rfl⟩ := Prod.mk.inj (Except.ok.inj h)
  change (db.ensure name).collections = _
  rw [ensure_of_mem hmem]

end Handlers

/-- The collection whose name a request writes down if it is not there: that of a write. -/
def Request.locks : Request → Option String
  | .postCollection collection _ _ => some collection
  | .deleteCollection collection _ => some collection
  | .putBso collection _ _ => some collection
  | .deleteBso collection _ => some collection
  | _ => none

/-- A handler that names no collection leaves their table alone, and so does one that reads. -/
theorem collections_of_reads {handler : Handler} (hreads : Reads handler) {db db' : Db} {answer : Response}
    (h : handler db = .ok (answer, db')) : db'.collections = db.collections := by
  rw [(hreads _ _ _ h).1]

/-- Behind the lock, the handler of a route leaves the table of collections as the lock left it. -/
theorem route_names {p : Platform} {call : Call} {r : Route} {db locked db' : Db} {answer : Response}
    (hroute : route p call = .ok r) (hlocked : Locked call db r.collection locked)
    (h : r.handler locked = .ok (answer, db')) :
    db'.collections = db.collections ∨ ∃ name, call.request.locks = some name ∧ collectionRe name = true ∧
      db'.collections = (db.ensure name).collections := by
  have hreads : r.collection = none → Reads r.handler → db'.collections = db.collections := by
    intro hnone hreads
    rw [hnone] at hlocked
    exact (collections_of_reads hreads h).trans (congrArg Db.collections hlocked)
  have hwrites : ∀ name, r.collection = some name → KeepsNames name r.handler →
      db'.collections = (db.ensure name).collections := by
    intro name hname hkeeps
    rw [hname] at hlocked
    obtain ⟨-, rfl⟩ := hlocked
    exact hkeeps _ _ _ (mem_ensure db name) h
  unfold route at hroute
  cases hreq : call.request with
  | infoCollections =>
    simp only [hreq, Except.ok.injEq] at hroute
    subst hroute
    exact Or.inl (hreads rfl (infoCollections_reads _))
  | infoCollectionCounts =>
    simp only [hreq, Except.ok.injEq] at hroute
    subst hroute
    exact Or.inl (hreads rfl fun _ _ _ h => by cases h; exact ⟨rfl, rfl, rfl⟩)
  | infoCollectionUsage =>
    simp only [hreq, Except.ok.injEq] at hroute
    subst hroute
    exact Or.inl (hreads rfl fun _ _ _ h => by cases h; exact ⟨rfl, rfl, rfl⟩)
  | infoQuota =>
    simp only [hreq, Except.ok.injEq] at hroute
    subst hroute
    exact Or.inl (hreads rfl fun _ _ _ h => by cases h; exact ⟨rfl, rfl, rfl⟩)
  | deleteAll =>
    simp only [hreq, Except.ok.injEq] at hroute
    subst hroute
    obtain ⟨-, rfl⟩ := Prod.mk.inj (Except.ok.inj h)
    obtain rfl : locked = db := hlocked
    exact Or.inl rfl
  | getCollection name params newlines =>
    simp only [hreq, bind_eq_ok, Except.ok.injEq] at hroute
    obtain ⟨_, -, query, -, rfl⟩ := hroute
    exact Or.inl (hreads rfl (getCollection_reads p _ name query _ newlines))
  | getBso name id =>
    simp only [hreq, bind_eq_ok, Except.ok.injEq] at hroute
    obtain ⟨_, -, _, -, rfl⟩ := hroute
    exact Or.inl (hreads rfl (getBso_reads _ name id))
  | postCollection name params bsos =>
    simp only [hreq, bind_eq_ok, Except.ok.injEq] at hroute
    obtain ⟨_, hvalid, batch, -, rfl⟩ := hroute
    exact Or.inr ⟨name, rfl, validateCollection_eq_ok.mp hvalid,
      hwrites name rfl (postCollection_keepsNames _ name batch bsos)⟩
  | deleteCollection name params =>
    simp only [hreq, bind_eq_ok, Except.ok.injEq] at hroute
    obtain ⟨_, hvalid, query, -, rfl⟩ := hroute
    exact Or.inr ⟨name, rfl, validateCollection_eq_ok.mp hvalid,
      hwrites name rfl (deleteCollection_keepsNames _ name query)⟩
  | putBso name id body =>
    simp only [hreq, bind_eq_ok, Except.ok.injEq] at hroute
    obtain ⟨_, hvalid, _, -, rfl⟩ := hroute
    exact Or.inr ⟨name, rfl, validateCollection_eq_ok.mp hvalid, hwrites name rfl (putBso_keepsNames _ name id body)⟩
  | deleteBso name id =>
    simp only [hreq, bind_eq_ok, Except.ok.injEq] at hroute
    obtain ⟨_, hvalid, _, -, rfl⟩ := hroute
    exact Or.inr ⟨name, rfl, validateCollection_eq_ok.mp hvalid, hwrites name rfl (deleteBso_keepsNames _ name id)⟩

/-- A request leaves the table of collections as it is, or makes sure of the name of a write. -/
theorem serve_names (p : Platform) (db : Db) (call : Call) :
    (serve p db call).1.collections = db.collections ∨
      ∃ name, call.request.locks = some name ∧ collectionRe name = true ∧
        (serve p db call).1.collections = (db.ensure name).collections := by
  unfold serve
  split
  · rename_i response db' h
    obtain ⟨r, hroute, ⟨-, rfl⟩ | ⟨locked, answer, -, hlocked, hanswer, -⟩⟩ := handle_eq_ok h
    · exact Or.inl rfl
    · exact route_names hroute hlocked hanswer
  · exact Or.inl rfl

/-! ### The ids of rows and of staged items -/

/-- The record ids that a request asks to store. -/
def Request.storedIds : Request → List String
  | .postCollection _ _ bsos => bsos.valid.map PostedBso.id
  | .putBso _ bso _ => [bso]
  | _ => []

/-- A record that is written was sent with the request, or is staged in a batch. -/
theorem recordWrites_id {db : Db} {call : Call} {w : RecordWrite} (h : w ∈ call.recordWrites db) :
    w.id ∈ call.request.storedIds ∨ ∃ key item, db.batchItems.find? key = some item ∧ key.id = w.id := by
  have hposted : ∀ bsos : PostedBsos, w ∈ bsos.valid.map RecordWrite.put → w.id ∈ bsos.valid.map PostedBso.id := by
    intro bsos hw
    obtain ⟨bso, hbso, rfl⟩ := List.mem_map.mp hw
    exact List.mem_map_of_mem hbso
  unfold Call.recordWrites at h
  cases hreq : call.request with
  | putBso name id body =>
    simp only [hreq, List.mem_singleton] at h
    subst h
    exact Or.inl (List.mem_singleton.mpr rfl)
  | postCollection name params bsos =>
    simp only [hreq] at h
    split at h
    · exact Or.inl (hposted bsos h)
    · exact Or.inl (hposted bsos h)
    · split at h
      · rename_i batchId _
        obtain hstaged | hsent := List.mem_append.mp h
        · obtain ⟨⟨key, item⟩, hitem, rfl⟩ := List.mem_map.mp hstaged
          exact Or.inr ⟨key, item, (Table.mem_select.mp hitem).1, rfl⟩
        · exact Or.inl (hposted bsos hsent)
      · simp at h
    · simp at h
  | _ => simp [hreq] at h

/-- A record after a request was there before, or the request wrote it. -/
theorem Effect.recordId {call : Call} {db db' : Db} {status : ℕ} {key : BsoKey} {row : BsoRow}
    (h : Effect call db db' status) (hrow : db'.bso.find? key = some row) :
    (∃ r, db.bso.find? key = some r) ∨ ∃ w ∈ call.recordWrites db, w.id = key.id := by
  cases h with
  | keep names bso stamps idle => exact Or.inl ⟨row, bso ▸ hrow⟩
  | @wrote name url valid fresh names bso stamps =>
    by_cases hwrite : ∃ w ∈ call.recordWrites db, w.id = key.id
    · exact Or.inr hwrite
    · push Not at hwrite
      rw [bso, Table.find?_upsertAll_of_ne] at hrow
      · exact Or.inl ⟨row, hrow⟩
      · intro u hu heq
        obtain ⟨w, hw, rfl⟩ := List.mem_map.mp hu
        exact hwrite w hw (congrArg BsoKey.id heq)
  | removed url valid idle fresh names bso stamps =>
    rw [bso, Table.find?_deleteWhere, Option.filter_eq_some_iff] at hrow
    exact Or.inl ⟨row, hrow.1⟩
  | dropped url valid idle fresh names bso stamps =>
    rw [bso, Table.find?_deleteWhere, Option.filter_eq_some_iff] at hrow
    exact Or.inl ⟨row, hrow.1⟩
  | wiped request names bso stamps =>
    rw [bso, Table.find?_deleteWhere, Option.filter_eq_some_iff] at hrow
    exact Or.inl ⟨row, hrow.1⟩

/-- An item after some records were staged was there before, or is one of them. -/
theorem stagedAll_id {uid : ℕ} {batchId : ℤ} {items : Table BatchItemKey BatchItem} {bsos : List PostedBso}
    {key : BatchItemKey} {item : BatchItem} (h : (stagedAll uid batchId items bsos).find? key = some item) :
    items.find? key = some item ∨ key.id ∈ bsos.map PostedBso.id := by
  induction bsos generalizing items with
  | nil => exact Or.inl h
  | cons bso rest ih =>
    obtain hset | hrest := ih h
    · rw [Table.find?_set] at hset
      split at hset
      · rename_i hkey
        exact Or.inr (by simp [hkey])
      · exact Or.inl hset
    · exact Or.inr (List.mem_cons_of_mem _ hrest)

/-- The records of a POST to a batch are those it sends. -/
theorem batchUse_records {call : Call} {use : BatchUse} (h : call.batchUse = some use) :
    call.request.storedIds = use.records.map PostedBso.id := by
  unfold Call.batchUse at h
  split at h
  · rename_i name params bsos hreq
    rw [hreq]
    split at h
    · split at h
      · rw [← Option.some.inj h]
        rfl
      · cases h
    · cases h
  · cases h

/-- So are those of a POST that opens one. -/
theorem opens_records {call : Call} {name : String} {records : List PostedBso}
    (h : call.opens = some (name, records)) : call.request.storedIds = records.map PostedBso.id := by
  unfold Call.opens at h
  split at h
  · rename_i name' params bsos hreq
    rw [hreq]
    split at h
    · obtain ⟨-, rfl⟩ := Prod.mk.inj (Option.some.inj h)
      rfl
    · cases h
  · cases h

/-- A staged item after a request was staged before, or was sent with the request. -/
theorem BatchEffect.itemId {call : Call} {db db' : Db} {answer : Response} {key : BatchItemKey} {item : BatchItem}
    (h : BatchEffect call db db' answer) (hitem : db'.batchItems.find? key = some item) :
    db.batchItems.find? key = some item ∨ key.id ∈ call.request.storedIds := by
  cases h with
  | keep batches items idle => exact Or.inl (items ▸ hitem)
  | opened request free low high fresh names batches items body accepted =>
    rw [opens_records request]
    exact stagedAll_id (items ▸ hitem)
  | staged request append isOpen batches items accepted =>
    rw [batchUse_records request]
    exact stagedAll_id (items ▸ hitem)
  | committed request commit isOpen fresh after ok =>
    rw [after, SyncStore.deleteBatch, Db.written] at hitem
    simp only [ensure_batchItems, Table.find?_deleteWhere, Option.filter_eq_some_iff] at hitem
    exact Or.inl hitem.1
  | wiped request batches items =>
    rw [items, Table.find?_deleteWhere, Option.filter_eq_some_iff] at hitem
    exact Or.inl hitem.1

/-! ### Every request -/

/-- A request that stores names of the grammar only. -/
structure Request.InGrammar (request : Request) : Prop where
  ids : ∀ id ∈ request.storedIds, BsoName id
  collection : ∀ name, request.locks = some name → collectionRe name = true → CollectionName name

/-- Making sure of a name of the grammar leaves no other in the table. -/
theorem ensure_tail {db : Db} (hhead : db.collections.head? = some "")
    (hnames : ∀ name ∈ db.collections.tail, CollectionName name) {name : String} (hname : CollectionName name) :
    ∀ other ∈ (db.ensure name).collections.tail, CollectionName other := by
  by_cases hmem : name ∈ db.collections
  · rw [ensure_of_mem hmem]
    exact hnames
  · rw [(ensure_of_unknown (List.idxOf?_eq_none_iff.mpr hmem)).1]
    intro other hother
    obtain ⟨rest, hrest⟩ : ∃ rest, db.collections = "" :: rest := List.head?_eq_some_iff.mp hhead
    simp only [hrest, List.cons_append, List.tail_cons, List.mem_append, List.mem_singleton] at hother hnames
    obtain hold | rfl := hother
    · exact hnames other hold
    · exact hname

/-- A request that stores names of the grammar only leaves a database that holds no others. -/
theorem Db.InGrammar.serve {db : Db} (names : db.InGrammar) (p : Platform) {call : Call}
    (hrequest : call.request.InGrammar) : (serve p db call).1.InGrammar where
  tombstoneName := head?_of_isPrefix (serve_effect p db call).names names.tombstoneName
  collections := by
    obtain hsame | ⟨name, hlocks, hvalid, hensured⟩ := serve_names p db call
    · exact hsame ▸ names.collections
    · exact hensured ▸ ensure_tail names.tombstoneName names.collections (hrequest.collection name hlocks hvalid)
  records hrow := by
    obtain ⟨r, hr⟩ | ⟨w, hw, hid⟩ := (serve_effect p db call).recordId hrow
    · exact names.records hr
    · obtain hsent | ⟨key, item, hitem, hstaged⟩ := recordWrites_id hw
      · exact hid ▸ hrequest.ids w.id hsent
      · rw [← hid, ← hstaged]
        exact names.items hitem
  items hitem := by
    obtain hold | hsent := (serve_batches p db call).itemId hitem
    · exact names.items hold
    · exact hrequest.ids _ hsent

/-- A request over HTTP that names nothing with a line feed at its end, in what it stores. -/
def HttpRequest.Clean (codec : Codec) (http : HttpRequest) : Prop :=
  ∀ request, http.read codec = .ok request →
    (∀ id ∈ request.storedIds, ¬EndsInLineFeed id) ∧ ∀ name, request.locks = some name → ¬EndsInLineFeed name

/-- The ids of a request that was read are those the expression accepts. -/
theorem read_ids {codec : Codec} {http : HttpRequest} {request : Request} (h : http.read codec = .ok request) :
    ∀ id ∈ request.storedIds, bsoIdRe id = true := by
  unfold HttpRequest.read at h
  split at h
  case h_7 =>
    simp only [bind_eq_ok, Except.ok.injEq] at h
    obtain ⟨_, -, _, -, _, -, _, -, bsos, hbsos, _, -, rfl⟩ := h
    intro id hid
    obtain ⟨bso, hbso, rfl⟩ := List.mem_map.mp hid
    exact parseBsoBodies_valid hbsos bso hbso
  case h_10 =>
    simp only [bind_eq_ok, Except.ok.injEq] at h
    obtain ⟨_, -, _, hvalid, _, -, _, -, _, -, rfl⟩ := h
    intro id hid
    obtain rfl := List.mem_singleton.mp hid
    simpa [validateBsoId] using hvalid
  all_goals
    cases h
    simp [Request.storedIds]

/-- What a clean request is read to is in the grammar. -/
theorem HttpRequest.Clean.inGrammar {codec : Codec} {http : HttpRequest} (clean : http.Clean codec)
    {request : Request} (h : http.read codec = .ok request) : request.InGrammar where
  ids id hid := bsoName_of_re (read_ids h id hid) ((clean request h).1 id hid)
  collection name hlocks hvalid := collectionName_of_re hvalid ((clean request h).2 name hlocks)

/-- A clean request over HTTP keeps every name in the grammar. -/
theorem Db.InGrammar.serveHttp {db : Db} (names : db.InGrammar) (p : Platform) {codec : Codec} {http : HttpRequest}
    (clean : http.Clean codec) : (serveHttp p codec db http).1.InGrammar := by
  unfold FxaLite.SyncStorage.serveHttp
  split
  · rename_i request hread
    exact names.serve p (clean.inGrammar hread)
  · exact names

/-- Clean requests keep the names in the grammar, however many come. -/
theorem inGrammar_of_run (p : Platform) (codec : Codec) {db : Db} (names : db.InGrammar)
    {requests : List HttpRequest} (hclean : ∀ http ∈ requests, http.Clean codec) :
    ((httpServer p codec).run db requests).InGrammar :=
  (httpServer p codec).run_of_step (fun _ _ names clean => names.serveHttp p clean) names
    ((httpServer p codec).along_of_forall hclean)

/-- In every database that requests over HTTP lead to, the names are in the grammar, if no
request stores a record id or a collection name with a line feed at its end. -/
theorem names_in_grammar (p : Platform) (codec : Codec) {requests : List HttpRequest}
    (hclean : ∀ http ∈ requests, http.Clean codec) : ((httpServer p codec).run Db.fresh requests).InGrammar :=
  inGrammar_of_run p codec Db.inGrammar_fresh hclean

/-- A PUT of an empty record. -/
def putEmpty (collection bso : String) : HttpRequest := ⟨1, 10, fun _ => none, .putBso collection bso []⟩

/-- What `json.loads` makes of an empty record. -/
def emptyObject : Codec := .knowing [("{}", .obj [])]

/-- How it is read. -/
theorem putEmpty_read {request : Request} (h : (putEmpty "tabs" "a").read emptyObject = .ok request) :
    request = .putBso "tabs" "a" { id := "" } := by
  have hbody : parseBsoBody emptyObject [] none = .ok { id := "" } := by decide +kernel
  have hread : (putEmpty "tabs" "a").read emptyObject = .ok (.putBso "tabs" "a" { id := "" }) := by
    rw [HttpRequest.read]
    simp only [putEmpty, hbody]
    rfl
  exact Except.ok.inj (h.symm.trans hread)

/-- A PUT of a record named "a". -/
theorem names_in_grammar_tabs :
    ((httpServer (.knowing []) emptyObject).run Db.fresh [putEmpty "tabs" "a"]).InGrammar := by
  refine names_in_grammar (.knowing []) emptyObject fun http hhttp request hread => ?_
  obtain rfl := List.mem_singleton.mp hhttp
  obtain rfl := putEmpty_read hread
  simp [Request.storedIds, Request.locks, EndsInLineFeed]

/-- A PUT of a record named "a\n" is let through, and so is one to a collection "tabs\n". -/
theorem names_with_lineFeed :
    ¬((httpServer (.knowing []) emptyObject).run Db.fresh [putEmpty "tabs" "a\n"]).InGrammar ∧
      ¬((httpServer (.knowing []) emptyObject).run Db.fresh [putEmpty "tabs\n" "a"]).InGrammar := by
  constructor
  · intro names
    have hstored : (((httpServer (.knowing []) emptyObject).run Db.fresh [putEmpty "tabs" "a\n"]).bso.find?
        ⟨1, 1, "a\n"⟩).isSome = true := by decide +kernel
    obtain ⟨row, hrow⟩ := Option.isSome_iff_exists.mp hstored
    exact (names.records hrow).no_lineFeed (by decide)
  · intro names
    have hstored : ((httpServer (.knowing []) emptyObject).run Db.fresh [putEmpty "tabs\n" "a"]).collections =
        ["", "tabs\n"] := by decide +kernel
    have hname := (names.collections "tabs\n" (by rw [hstored]; simp)).2.2 '\n' (by decide)
    revert hname
    decide

end FxaLite.SyncStorage
