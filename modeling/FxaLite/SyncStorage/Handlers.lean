import FxaLite.Lib.Machine
import FxaLite.SyncStorage.Models

/-!
# The storage handlers

`syncstorage/__init__.py` after authentication: the route handlers and the transaction wrapper
around them. A request reaches `serve` with the uid its signature names, the server's clock and
its two precondition headers; POST and PUT bodies arrive parsed. Whatever is raised inside the
transaction rolls the database back, and the exception handlers turn it into a response.
-/

namespace FxaLite.SyncStorage

open Reactive

/-- What the handlers take from the interpreter and the database engine. -/
structure Platform where
  /-- `float()`; `none` stands for a `ValueError`, a NaN and the infinities -/
  float : String → Option ℚ
  /-- the order of rows that no `ORDER BY` separates -/
  scan : ScanOrder

/-- A platform that knows some decimals and visits rows in primary key order. -/
def Platform.knowing (decimals : List (String × ℚ)) : Platform := ⟨(decimals.lookup ·), .primaryKey⟩

/-- The routes, with what each reads from the path, the query string and the body. -/
inductive Request where
  | infoCollections
  | infoCollectionCounts
  | infoCollectionUsage
  | infoQuota
  | deleteAll
  | getCollection (collection : String) (params : Params) (newlines : Bool)
  | postCollection (collection : String) (params : Params) (bsos : PostedBsos)
  | deleteCollection (collection : String) (params : Params)
  | getBso (collection bso : String)
  | putBso (collection bso : String) (body : PostedBso)
  | deleteBso (collection bso : String)

/-- One authenticated request, at a reading of the server's clock. -/
structure Call where
  uid : ℕ
  nowMs : ℕ
  ifModifiedSince : Option String := none
  ifUnmodifiedSince : Option String := none
  request : Request

/-- The quantized instant of a request. -/
def Call.now (call : Call) : ℕ := quantize call.nowMs

/-- The store a request runs against. -/
def Call.store (call : Call) : SyncStore := ⟨call.uid, call.now⟩

/-- `Bso.as_json`: the expiry never leaves. -/
structure BsoJson where
  id : String
  modified : ℚ
  payload : String
  sortindex : Option ℤ
  deriving DecidableEq, Repr

def Bso.asJson (bso : Bso) : BsoJson := ⟨bso.id, timestampJson bso.modified, bso.payload, bso.sortindex⟩

/-- What a response body says. -/
inductive Body where
  | empty
  /-- the bare integer of an error -/
  | weave (code : ℕ)
  /-- the envelope of an exception nothing foresaw -/
  | unexpected
  | null
  | modified (timestamp : ℚ)
  | modifiedObject (timestamp : ℚ)
  | timestamps (entries : List (String × ℚ))
  | counts (entries : List (String × ℕ))
  | usage (kilobytes : List (String × ℚ))
  | quota (usedKilobytes : ℚ)
  | items (newlines : Bool) (items : List BsoJson)
  | ids (newlines : Bool) (items : List String)
  | record (bso : BsoJson)
  | posted (modified : ℚ) (success : List String) (failed : List (String × String))
  | staged (batch : String) (success : List String) (failed : List (String × String))
  deriving DecidableEq, Repr

/-- A response, with the headers the protocol gives a meaning. -/
structure Response where
  status : ℕ := 200
  body : Body
  lastModified : Option ℚ := none
  records : Option ℕ := none
  nextOffset : Option (List Char) := none
  retryAfter : Option ℕ := none
  weaveTimestamp : Option ℚ := none
  deriving DecidableEq, Repr

/-! ### The transaction, and the headers around every handler -/

/-- `_precondition`: `X-If-Modified-Since` / `X-If-Unmodified-Since`, checked against `timestamp`. -/
def precondition (p : Platform) (call : Call) (timestamp : ℕ) : Except Raised (Option Response) :=
  let refuse (status : ℕ) : Response :=
    { status := status, body := .empty, lastModified := some (timestampHeader timestamp) }
  match call.ifModifiedSince, call.ifUnmodifiedSince with
  | some _, some _ => .error (.http badRequest)
  | some since, none => do
    let since ← parseTimestamp (p.float since)
    .ok (if timestamp ≤ since then some (refuse 304) else none)
  | none, some since => do
    let since ← parseTimestamp (p.float since)
    .ok (if since < timestamp then some (refuse 412) else none)
  | none, none => .ok none

/-- The write lock of `_run`: the collection's name is made an id, and its timestamp must be
able to move forward. -/
def lockForWrite (self : SyncStore) (db : Db) (collection : String) : Except Raised Db := do
  let (collectionId, db) := SyncStore.getOrCreateCollectionId db collection
  SyncStore.checkWrite self db collectionId
  .ok db

/-- A handler, inside the transaction. -/
abbrev Handler := Db → Except Raised (Response × Db)

/-- `_run`: check the precondition, take the write lock if `collection` is given, run the
handler, and let the resource timestamp be `X-Last-Modified` unless the handler set a better one. -/
def run (p : Platform) (call : Call) (resource : Db → ℕ) (collection : Option String) (handler : Handler) :
    Handler := fun db => do
  let timestamp := resource db
  match ← precondition p call timestamp with
  | some response => .ok (response, db)
  | none =>
    let db ← (match collection with
      | none => .ok db
      | some name => lockForWrite call.store db name)
    let (response, db) ← handler db
    .ok ({ response with lastModified := response.lastModified.or (some (timestampHeader timestamp)) }, db)

/-- `_collection_resource`. -/
def collectionResource (self : SyncStore) (collection : String) (db : Db) : ℕ :=
  match SyncStore.collectionTimestamp self db collection with
  | .ok timestamp => timestamp
  | .error _ => 0

/-- `_bso_resource`. -/
def bsoResource (self : SyncStore) (collection bso : String) (db : Db) : ℕ :=
  match SyncStore.bsoTimestamp self db collection bso with
  | .ok timestamp => timestamp
  | .error _ => 0

/-! ### /info -/

section Routes

variable (p : Platform) (self : SyncStore)

/-- `info_collections`: collection name to last-modified. -/
def infoCollections : Handler := fun db =>
  let result := (SyncStore.collectionTimestamps self db).map fun entry => (entry.1, timestampJson entry.2)
  .ok ({ body := .timestamps result, records := some result.length }, db)

/-- `info_collection_counts`. -/
def infoCollectionCounts : Handler := fun db =>
  let result := SyncStore.collectionCounts self db
  .ok ({ body := .counts result, records := some result.length }, db)

/-- `info_collection_usage`, in kilobytes. -/
def infoCollectionUsage : Handler := fun db =>
  let result := (SyncStore.collectionUsage self db).map fun entry => (entry.1, (entry.2 : ℚ) / 1024)
  .ok ({ body := .usage result, records := some result.length }, db)

/-- `info_quota`: the usage, and no limit. -/
def infoQuota : Handler := fun db =>
  .ok ({ body := .quota (SyncStore.storageUsage self db / 1024) }, db)

/-! ### Whole storage -/

/-- `delete_all`: wipe this account's Sync data. -/
def deleteAll : Handler := fun db => .ok ({ body := .null }, SyncStore.deleteStorage self db)

/-! ### Collections -/

/-- The body of a page, one item a line if that was asked for. -/
def itemsBody (newlines : Bool) : Items → Body
  | .records items => .items newlines (items.map Bso.asJson)
  | .ids items => .ids newlines items

/-- The number of items on a page. -/
def Items.length : Items → ℕ
  | .records items => items.length
  | .ids items => items.length

/-- `get_collection`: a collection that does not exist is an empty list. -/
def getCollection (collection : String) (query : BsoQuery) (full newlines : Bool) : Handler := fun db =>
  match SyncStore.getBsos self db p.scan collection query full with
  | .ok page =>
    let response : Response :=
      { body := itemsBody newlines page.items
        records := some page.items.length
        nextOffset := page.offset }
    .ok (response, db)
  | .error .collectionNotFound =>
    .ok ({ body := itemsBody newlines (if full then .records [] else .ids []), records := some 0 }, db)
  | .error e => .error e

/-- The answer to a POST that has been stored. -/
def postedResponse (modified : ℕ) (bsos : PostedBsos) : Response where
  body := .posted (timestampJson modified) (bsos.valid.map PostedBso.id) bsos.invalid
  lastModified := some (timestampHeader modified)

/-- `_post_batch`: append to a batch, and commit it if asked. -/
def postBatch (collection : String) (batch : BatchRequest) (bsos : PostedBsos) : Handler := fun db => do
  let (identifier, db) ← (match batch.id with
    | none => SyncStore.createBatch self db collection
    | some id => do
      if ← SyncStore.validateBatch self db collection id then .ok (id, db) else .error (.http badRequest))
  let db ← (if !bsos.valid.isEmpty && !batch.commit
    then SyncStore.appendToBatch self db collection identifier bsos.valid
    else .ok db)
  if !batch.commit then
    let response : Response :=
      { status := 202
        body := .staged identifier (bsos.valid.map PostedBso.id) bsos.invalid }
    .ok (response, db)
  else
    let (modified, db) ← SyncStore.commitBatch self db collection identifier
    if bsos.valid.isEmpty then .ok (postedResponse modified bsos, db)
    else
      -- records sent with the commit are newer than anything staged under the same id
      let (modified, db) ← SyncStore.postBsos self db collection bsos.valid true
      .ok (postedResponse modified bsos, db)

/-- `post_collection`: a batch opened and committed by one request is a plain POST. -/
def postCollection (collection : String) (batch : Option BatchRequest) (bsos : PostedBsos) : Handler :=
  fun db =>
    let plain : Except Raised (Response × Db) := do
      let (modified, db) ← SyncStore.postBsos self db collection bsos.valid false
      .ok (postedResponse modified bsos, db)
    match batch with
    | none => plain
    | some batch =>
      if !(batch.id.isNone && batch.commit) then postBatch self collection batch bsos db else plain

/-- `delete_collection`: a whole collection, or just the ids named in `?ids=`. Deleting what is
not there is answered with the storage timestamp. -/
def deleteCollection (collection : String) (query : BsoQuery) : Handler := fun db =>
  let respond (modified : ℕ) : Response :=
    { body := .modified (timestampJson modified)
      lastModified := if query.ids.isEmpty then none else some (timestampHeader modified) }
  let deleted := if query.ids.isEmpty
    then SyncStore.deleteCollection self db collection
    else SyncStore.deleteBsos self db collection query.ids
  match deleted with
  | .ok (modified, db) => .ok (respond modified, db)
  | .error .collectionNotFound => .ok (respond (SyncStore.storageTimestamp self db), db)
  | .error .bsoNotFound => .ok (respond (SyncStore.storageTimestamp self db), db)
  | .error e => .error e

/-! ### Single records -/

/-- `get_bso`. -/
def getBso (collection bso : String) : Handler := fun db =>
  match SyncStore.getBso self db collection bso with
  | .ok (some record) => .ok ({ body := .record record.asJson }, db)
  | .ok none => .error (.http notFound)
  | .error .collectionNotFound => .error (.http notFound)
  | .error e => .error e

/-- `put_bso`. -/
def putBso (collection bso : String) (body : PostedBso) : Handler := fun db =>
  let (modified, db) := SyncStore.putBso self db collection bso body.payload body.sortindex body.ttl
  let response : Response :=
    { body := .modified (timestampJson modified), lastModified := some (timestampHeader modified) }
  .ok (response, db)

/-- `delete_bso`. -/
def deleteBso (collection bso : String) : Handler := fun db =>
  match SyncStore.deleteBso self db collection bso with
  | .ok (modified, db) =>
    let response : Response :=
      { body := .modifiedObject (timestampJson modified), lastModified := some (timestampHeader modified) }
    .ok (response, db)
  | .error .collectionNotFound => .error (.http notFound)
  | .error .bsoNotFound => .error (.http notFound)
  | .error e => .error e

end Routes

/-! ### Requests -/

/-- What a route hands to `_run`: the resource its URL names, the collection it is a write
against, and its handler. -/
structure Route where
  resource : Db → ℕ
  collection : Option String
  handler : Handler

/-- Each route: what it validates and parses before the transaction, and what it runs in it. -/
def route (p : Platform) (call : Call) : Except Raised Route :=
  let self := call.store
  let storage := SyncStore.storageTimestamp self
  match call.request with
  | .infoCollections => .ok ⟨storage, none, infoCollections self⟩
  | .infoCollectionCounts => .ok ⟨storage, none, infoCollectionCounts self⟩
  | .infoCollectionUsage => .ok ⟨storage, none, infoCollectionUsage self⟩
  | .infoQuota => .ok ⟨storage, none, infoQuota self⟩
  | .deleteAll => .ok ⟨storage, none, deleteAll self⟩
  | .getCollection collection params newlines => do
    validateCollection collection
    let query ← parseQuery p.float params
    let full := (params "full").isSome
    .ok ⟨collectionResource self collection, none, getCollection p self collection query full newlines⟩
  | .postCollection collection params bsos => do
    validateCollection collection
    let batch ← parseBatch params
    .ok ⟨collectionResource self collection, some collection, postCollection self collection batch bsos⟩
  | .deleteCollection collection params => do
    validateCollection collection
    let query ← parseQuery p.float params
    .ok ⟨collectionResource self collection, some collection, deleteCollection self collection query⟩
  | .getBso collection bso => do
    validateCollection collection
    validateBsoId bso
    .ok ⟨bsoResource self collection bso, none, getBso self collection bso⟩
  | .putBso collection bso body => do
    validateCollection collection
    validateBsoId bso
    .ok ⟨bsoResource self collection bso, some collection, putBso self collection bso body⟩
  | .deleteBso collection bso => do
    validateCollection collection
    validateBsoId bso
    .ok ⟨bsoResource self collection bso, some collection, deleteBso self collection bso⟩

/-- A request up to the exception handlers. -/
def handle (p : Platform) (call : Call) : Handler := fun db => do
  let route ← route p call
  run p call route.resource route.collection route.handler db

/-- The protocol error an exception becomes; nothing maps an `OverflowError` or a `RecursionError`. -/
def Raised.protocolError : Raised → Option SyncStorageError
  | .http e => some e
  | .conflict => some SyncStorage.conflict
  | .batchNotFound => some badRequest
  | .collectionNotFound => some internalError
  | .bsoNotFound => some internalError
  | .overflow | .recursion => none

/-- The exception handlers of the application. -/
def errorResponse (call : Call) (raised : Raised) : Response :=
  match raised.protocolError with
  | some e =>
    { status := e.statusCode
      body := .weave e.weave.code
      retryAfter := e.retryAfter
      weaveTimestamp := some (timestampJson call.now) }
  | none => { status := 500, body := .unexpected }

/-- `weave_timestamp`: the server's clock, or the resource's own timestamp if later. -/
def stampWeave (call : Call) (response : Response) : Response :=
  let now := timestampJson call.now
  { response with weaveTimestamp := some (max now (response.lastModified.getD now)) }

/-- One authenticated request against the database: what it leaves and what it answers. -/
def serve (p : Platform) (db : Db) (call : Call) : Db × Response :=
  match handle p call db with
  | .ok (response, db) => (db, stampWeave call response)
  | .error raised => (db, errorResponse call raised)

/-- The storage server as a machine that answers one request after another. -/
def server (p : Platform) : Machine Db Call Response := ⟨serve p⟩

end FxaLite.SyncStorage
