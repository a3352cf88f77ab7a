import FxaLite.Lib.Base64
import FxaLite.Lib.PyText
import FxaLite.SyncStorage.Errors
import FxaLite.SyncStorage.Schema
import Mathlib.Algebra.Group.Int.Defs
import Mathlib.Algebra.GroupWithZero.Nat
import Mathlib.Data.List.Sort
import Mathlib.Data.Rat.Defs

/-!
# The storage methods

`store.py`, one definition a method. A `SyncStore` is built per request from the uid and the
one instant every write of that request is stamped with; the database is passed explicitly,
and a method that raises leaves it to the caller to roll back. Everything a client sends that
reaches a statement as an integer is checked against the signed 64-bit column it is bound to.

SQL leaves the order of rows that no `ORDER BY` separates to the engine. A `ScanOrder` is such
a choice, a permutation of the selected rows; statements about results hold for every choice.
-/

namespace FxaLite.SyncStorage

open Relational

/-! ### Constants -/

/-- `DEFAULT_BSO_TTL`, in seconds. -/
def defaultBsoTtl : ℕ := 2100000000

/-- `MAX_TTL`: what a batch item without a ttl is committed with, as an absolute instant. -/
def maxTtl : ℕ := 2100000000

/-- `BATCH_LIFETIME_MS`: how long a batch may stay open. -/
def batchLifetimeMs : ℕ := 2 * 60 * 60 * 1000

/-- `DEFAULT_LIMIT`. -/
def defaultLimit : ℕ := 10000

/-- `MAX_BATCH_CREATE_RETRY`. -/
def maxBatchCreateRetry : ℕ := 5

/-- The largest integer `sqlite3` binds to a statement. -/
def sqliteMax : ℤ := 2 ^ 63 - 1

/-- Whether an integer can be bound to a statement. -/
def fitsSqlite (n : ℤ) : Bool := -2 ^ 63 ≤ n && n ≤ sqliteMax

/-! ### Timestamps -/

/-- Round down to a whole hundredth of a second. -/
def quantize (milliseconds : ℕ) : ℕ := milliseconds - milliseconds % 10

/-- A quantized instant is a whole number of hundredths of a second. -/
theorem quantize_mod (n : ℕ) : quantize n % 10 = 0 := by
  unfold quantize
  omega

/-- `timestamp_header`: seconds, as the exact decimal the header spells. -/
def timestampHeader (milliseconds : ℕ) : ℚ := milliseconds / 1000

/-- `timestamp_json`: the same value as a JSON number. -/
def timestampJson (milliseconds : ℕ) : ℚ := milliseconds / 1000

/-! ### Offsets and queries -/

/-- The orders that can be produced; the absence of one is `none` at each use. -/
inductive Sorting where
  | newest
  | oldest
  | index
  deriving DecidableEq, Repr

/-- `<timestamp>:<rows to skip>`, or a bare row count. -/
structure Offset where
  timestamp : Option ℕ
  offset : ℕ
  deriving DecidableEq, Repr

/-- `Offset.__str__`. -/
def Offset.toText (o : Offset) : List Char :=
  match o.timestamp with
  | none => Py.str o.offset
  | some t => Py.str t ++ ':' :: Py.str o.offset

/-- `_non_negative`; `none` is a `ValueError`. -/
def nonNegative (value : List Char) : Option ℕ :=
  match Py.int value with
  | some (Int.ofNat n) => some n
  | _ => none

/-- `Offset.parse`; `none` is a `ValueError`. -/
def Offset.parse (value : List Char) : Option Offset :=
  match Py.partition ':' value with
  | (_, false, _) => (nonNegative value).map fun n => ⟨none, n⟩
  | (head, true, tail) => do
    let t ← nonNegative head
    let n ← nonNegative tail
    some ⟨some (quantize t), n⟩

/-- The `?newer=&older=&sort=&limit=&offset=&ids=` half of a collection read. -/
structure BsoQuery where
  newer : Option ℕ := none
  older : Option ℕ := none
  sort : Option Sorting := none
  limit : Option ℕ := none
  offset : Option Offset := none
  ids : List String := []
  deriving DecidableEq, Repr

/-- What a page holds: whole records, or ids alone. -/
inductive Items where
  | records (items : List Bso)
  | ids (items : List String)
  deriving DecidableEq, Repr

/-- A result set plus the offset token that continues it. -/
structure Page where
  items : Items
  offset : Option (List Char)
  deriving DecidableEq, Repr

/-- `encode_next_offset`, given the `modified` values of the page's records. -/
def encodeNextOffset (sort : Option Sorting) (prevOffset : ℕ) (prevTimestamp : Option ℕ)
    (modified : List ℕ) : List Char :=
  if sort = some .index then Py.str (prevOffset + modified.length)
  else
    match modified.getLast? with
    | none => Py.str prevOffset
    | some bound =>
      let skip := 1 + (modified.dropLast.reverse.takeWhile (· = bound)).length
      let skip := if skip = modified.length ∧ prevTimestamp = some bound then skip + prevOffset else skip
      Offset.toText ⟨some (quantize bound), skip⟩

/-! ### Batch ids -/

/-- `encode_batch_id`: base64 of the decimal text. -/
def encodeBatchId (batchId : ℕ) : String := String.ofList (Base64.encode (Py.encodeAscii (Py.str batchId)))

/-- `decode_batch_id`: base64 if it decodes, the raw string otherwise. -/
def decodeBatchId (value : String) : Except Raised ℤ :=
  let decoded := ((Base64.decodeStrict value.toList).bind Py.decodeAscii).getD value.toList
  match Py.int decoded with
  | some n => .ok n
  | none => .error .batchNotFound

/-! ### The store -/

/-- The order in which the engine visits selected rows, where no `ORDER BY` decides. -/
structure ScanOrder where
  scan : List Bso → List Bso
  perm : ∀ rows, (scan rows).Perm rows

/-- Rows in primary key order. -/
def ScanOrder.primaryKey : ScanOrder := ⟨id, fun _ => .refl _⟩

/-- One user's storage, for the duration of one request. -/
structure SyncStore where
  uid : ℕ
  /-- The single instant every write in this request is stamped with. -/
  now : ℕ
  deriving DecidableEq, Repr

namespace SyncStore

variable (self : SyncStore) (db : Db)

/-! #### Collections -/

/-- `collection_id`. -/
def collectionId (name : String) : Except Raised ℕ :=
  match db.collections.idxOf? name with
  | some id => .ok id
  | none => .error .collectionNotFound

/-- `get_or_create_collection_id`: the id, and the database with the name in it. -/
def getOrCreateCollectionId (name : String) : ℕ × Db :=
  match collectionId db name with
  | .ok id => (id, db)
  | .error _ => (db.collections.length, { db with collections := db.collections ++ [name] })

/-- `collection_names`, of one id. -/
def collectionName (id : ℕ) : String := db.collections.getD id ""

/-! #### Timestamps -/

/-- `storage_timestamp`: the newest thing that has happened to this user, tombstone included. -/
def storageTimestamp : ℕ :=
  ((db.userCollections.select fun key _ => key.uid = self.uid).map Prod.snd).foldr max 0

/-- `collection_timestamp`. -/
def collectionTimestamp (name : String) : Except Raised ℕ := do
  let collectionId ← collectionId db name
  match db.userCollections.find? ⟨self.uid, collectionId⟩ with
  | some modified => .ok modified
  | none => .error .collectionNotFound

/-- `bso_timestamp`: zero for a BSO that is not there. The expiry is not looked at. -/
def bsoTimestamp (collection bsoId : String) : Except Raised ℕ := do
  let collectionId ← collectionId db collection
  match db.bso.find? ⟨self.uid, collectionId, bsoId⟩ with
  | some row => .ok row.modified
  | none => .ok 0

/-- `collection_timestamps`. -/
def collectionTimestamps : List (String × ℕ) :=
  (db.userCollections.select fun key _ => key.uid = self.uid && key.collectionId ≠ tombstone).map
    fun row => (collectionName db row.1.collectionId, row.2)

/-- `WHERE uid = ? AND expiry > ?`, in key order. -/
def unexpired : List (BsoKey × BsoRow) :=
  db.bso.select fun key row => key.uid = self.uid && self.now < row.expiry

/-- The collections of some rows, each once: what `GROUP BY collection_id` groups by. -/
def groups (rows : List (BsoKey × BsoRow)) : List ℕ := (rows.map (·.1.collectionId)).dedup

/-- `collection_counts`. -/
def collectionCounts : List (String × ℕ) :=
  let rows := unexpired self db
  (groups rows).map fun id =>
    (collectionName db id, (rows.filter (·.1.collectionId = id)).length)

/-- `LENGTH`, of a text: what stands before its first NUL. -/
def sqlLength (text : String) : ℕ := (text.toList.takeWhile (· ≠ Char.ofNat 0)).length

/-- `SUM(LENGTH(payload))`. -/
def payloadBytes (rows : List (BsoKey × BsoRow)) : ℕ := (rows.map fun row => sqlLength row.2.payload).sum

/-- `collection_usage`. -/
def collectionUsage : List (String × ℕ) :=
  let rows := unexpired self db
  (groups rows).map fun id =>
    (collectionName db id, payloadBytes (rows.filter (·.1.collectionId = id)))

/-- `storage_usage`. -/
def storageUsage : ℕ := payloadBytes (unexpired self db)

/-! #### Reads -/

/-- `_bso`. -/
def bsoOfRow (row : BsoKey × BsoRow) : Bso :=
  ⟨row.1.id, row.2.modified, row.2.payload, row.2.sortindex, row.2.expiry⟩

/-- `get_bso`. -/
def getBso (collection bsoId : String) : Except Raised (Option Bso) := do
  let collectionId ← collectionId db collection
  let key := ⟨self.uid, collectionId, bsoId⟩
  .ok (((db.bso.find? key).filter fun row => self.now < row.expiry).map fun row => bsoOfRow (key, row))

/-- The timestamp a page resumes from: only for records, and not in `index` order. -/
def resumeBound (query : BsoQuery) (full : Bool) : Option ℕ :=
  if full ∧ query.sort ≠ some .index then query.offset.bind Offset.timestamp else none

/-- The part of the `WHERE` clause of `get_bsos` that comes from the query. -/
def matchesQuery (query : BsoQuery) (full : Bool) (id : String) (row : BsoRow) : Bool :=
  (match resumeBound query full with
    | none => true
    | some bound => if query.sort = some .oldest then bound ≤ row.modified else row.modified ≤ bound) &&
  (match query.older with
    | none => true
    | some older => row.modified < older) &&
  (match query.newer with
    | none => true
    | some newer => newer < row.modified) &&
  (query.ids.isEmpty || query.ids.contains id)

/-- The `WHERE` clause of `get_bsos`. -/
def selects (collectionId : ℕ) (query : BsoQuery) (full : Bool) (key : BsoKey) (row : BsoRow) : Bool :=
  key.uid = self.uid && key.collectionId = collectionId && self.now < row.expiry &&
    matchesQuery query full key.id row

/-- `ORDER BY modified ASC, id ASC`. -/
def olderFirst (a b : Bso) : Prop := a.modified < b.modified ∨ a.modified = b.modified ∧ a.id ≤ b.id

/-- `ORDER BY modified DESC, id DESC`. -/
def newerFirst (a b : Bso) : Prop := olderFirst b a

/-- `ORDER BY sortindex DESC`, where `NULL` counts as smallest. -/
def indexFirst (a b : Bso) : Prop :=
  match a.sortindex, b.sortindex with
  | some i, some j => j ≤ i
  | some _, none => True
  | none, some _ => False
  | none, none => True

instance : DecidableRel olderFirst := fun _ _ => inferInstanceAs (Decidable (_ ∨ _))
instance : DecidableRel newerFirst := fun a b => inferInstanceAs (Decidable (olderFirst b a))
instance : DecidableRel indexFirst := fun a b => by
  unfold indexFirst
  split <;> infer_instance

/-- The `ORDER BY` clause of `get_bsos`: no `sort` is `newest` for records and no order for ids. -/
def orderBy (sort : Option Sorting) (full : Bool) (rows : List Bso) : List Bso :=
  match sort.or (if full then some .newest else none) with
  | none => rows
  | some .newest => rows.insertionSort newerFirst
  | some .oldest => rows.insertionSort olderFirst
  | some .index => rows.insertionSort indexFirst

/-- The limit of a read. -/
def limitOf (query : BsoQuery) : ℕ := query.limit.getD defaultLimit

/-- How many rows of the order a page skips. -/
def numericOffset (query : BsoQuery) : ℕ := (query.offset.map Offset.offset).getD 0

/-- The `LIMIT` of the statement: one row more than asked for says that there is a next page. -/
def sqlLimit (query : BsoQuery) : ℕ := if 0 < limitOf query then limitOf query + 1 else limitOf query

/-- The integers of a query that are bound to the statement. -/
def boundIntegers (query : BsoQuery) (full : Bool) : List ℕ :=
  (resumeBound query full).toList ++ query.older.toList ++ query.newer.toList ++
    [sqlLimit query, numericOffset query]

/-- Whether all of them can be. -/
def bindable (query : BsoQuery) (full : Bool) : Bool := (boundIntegers query full).all fun n => fitsSqlite n

/-- The page of the rows a read selects. -/
def pageOf (scan : ScanOrder) (query : BsoQuery) (full : Bool) (matching : List Bso) : Page :=
  let limit := limitOf query
  let rows := ((orderBy query.sort full (scan.scan matching)).drop (numericOffset query)).take (sqlLimit query)
  let items (rows : List Bso) : Items := if full then .records rows else .ids (rows.map Bso.id)
  if limit < rows.length then
    let rows := rows.dropLast
    let offset :=
      if full then
        encodeNextOffset query.sort (numericOffset query) (query.offset.bind Offset.timestamp) (rows.map Bso.modified)
      else Py.str (limit + numericOffset query)
    ⟨items rows, some offset⟩
  else ⟨items rows, if limit = 0 ∧ full then some ['0'] else none⟩

/-- `get_bsos`: the paginated collection read. -/
def getBsos (scan : ScanOrder) (collection : String) (query : BsoQuery) (full : Bool) :
    Except Raised Page := do
  let collectionId ← collectionId db collection
  if !bindable query full then .error .overflow
  else .ok (pageOf scan query full ((db.bso.select (selects self collectionId query full)).map bsoOfRow))

/-! #### Writes -/

/-- `update_collection`. -/
def updateCollection (collectionId : ℕ) : Db :=
  { db with userCollections := db.userCollections.set ⟨self.uid, collectionId⟩ self.now }

/-- The row `put_bso` inserts for a record that is not there. -/
def newRow (payload : Option String) (sortindex : Option ℤ) (ttl : Option ℕ) : BsoRow where
  sortindex := sortindex
  payload := payload.getD ""
  modified := self.now
  expiry := self.now + ttl.getD defaultBsoTtl * 1000

/-- The assignments `put_bso` makes to a record that is there: only the fields that were sent,
and `modified` only with a payload or a sortindex. -/
def updateRow (payload : Option String) (sortindex : Option ℤ) (ttl : Option ℕ) (row : BsoRow) : BsoRow where
  sortindex := sortindex.or row.sortindex
  payload := payload.getD row.payload
  modified := if payload.isSome || sortindex.isSome then self.now else row.modified
  expiry := if ttl.isSome then self.now + ttl.getD defaultBsoTtl * 1000 else row.expiry

/-- `put_bso` with `touch_collection=False`: the upsert alone. -/
def upsertBso (collectionId : ℕ) (bsoId : String) (payload : Option String) (sortindex : Option ℤ)
    (ttl : Option ℕ) : Db :=
  { db with
    bso := db.bso.upsert ⟨self.uid, collectionId, bsoId⟩ (newRow self payload sortindex ttl)
      (updateRow self payload sortindex ttl) }

/-- `put_bso`: create or update one record and stamp the collection. -/
def putBso (collection bsoId : String) (payload : Option String) (sortindex : Option ℤ)
    (ttl : Option ℕ) : ℕ × Db :=
  let (collectionId, db) := getOrCreateCollectionId db collection
  let db := upsertBso self db collectionId bsoId payload sortindex ttl
  (self.now, updateCollection self db collectionId)

/-- `check_write`: refuse a write that cannot advance the timestamp. -/
def checkWrite (collectionId : ℕ) : Except Raised Unit :=
  match db.userCollections.find? ⟨self.uid, collectionId⟩ with
  | some modified => if self.now ≤ modified then .error .conflict else .ok ()
  | none => .ok ()

/-- The loop of `post_bsos`. -/
def writeBsos (collectionId : ℕ) : Db → List PostedBso → Db
  | db, [] => db
  | db, bso :: rest =>
    writeBsos collectionId (upsertBso self db collectionId bso.id bso.payload bso.sortindex bso.ttl) rest

/-- `post_bsos`; `stamped` says this transaction has already moved the collection to `now`. -/
def postBsos (collection : String) (bsos : List PostedBso) (stamped : Bool) : Except Raised (ℕ × Db) := do
  let (collectionId, db) := getOrCreateCollectionId db collection
  if !stamped then checkWrite self db collectionId
  let db := writeBsos self collectionId db bsos
  .ok (self.now, updateCollection self db collectionId)

/-- `delete_bso`. An expired record is not found. -/
def deleteBso (collection bsoId : String) : Except Raised (ℕ × Db) := do
  let collectionId ← collectionId db collection
  let doomed (key : BsoKey) (row : BsoRow) : Bool :=
    key = ⟨self.uid, collectionId, bsoId⟩ && self.now < row.expiry
  if db.bso.count doomed = 0 then .error .bsoNotFound
  else .ok (self.now, updateCollection self { db with bso := db.bso.deleteWhere doomed } collectionId)

/-- `delete_bsos`. -/
def deleteBsos (collection : String) (ids : List String) : Except Raised (ℕ × Db) := do
  let collectionId ← collectionId db collection
  let doomed (key : BsoKey) (_ : BsoRow) : Bool :=
    key.uid = self.uid && key.collectionId = collectionId && ids.contains key.id
  let db := if ids.isEmpty then db else { db with bso := db.bso.deleteWhere doomed }
  .ok (self.now, updateCollection self db collectionId)

/-- `delete_collection`: remove it with its records, and mark the tombstone. The value is the
storage timestamp. -/
def deleteCollection (collection : String) : Except Raised (ℕ × Db) := do
  let collectionId ← collectionId db collection
  let records (key : BsoKey) (_ : BsoRow) : Bool := key.uid = self.uid && key.collectionId = collectionId
  let stamp (key : UserCollectionKey) (_ : ℕ) : Bool := key = ⟨self.uid, collectionId⟩
  let deleted := db.bso.count records + db.userCollections.count stamp
  if deleted = 0 then .error .collectionNotFound
  else
    let db := { db with
      bso := db.bso.deleteWhere records
      userCollections := db.userCollections.deleteWhere stamp }
    let db := updateCollection self db tombstone
    .ok (storageTimestamp self db, db)

/-- `delete_storage`: everything of this user, the tombstone and open batches included. -/
def deleteStorage : Db :=
  { db with
    bso := db.bso.deleteWhere fun key _ => key.uid = self.uid
    userCollections := db.userCollections.deleteWhere fun key _ => key.uid = self.uid
    batchItems := db.batchItems.deleteWhere fun key _ => key.uid = self.uid
    batches := db.batches.deleteWhere fun key _ => key.uid = self.uid }

/-! #### Batches -/

/-- The loop of `create_batch`: the first free id from `batchId` on, in so many tries. -/
def allocateBatch (collectionId : ℕ) : ℕ → ℕ → Except Raised (ℕ × Db)
  | 0, _ => .error .conflict
  | tries + 1, batchId =>
    if (db.batches.find? ⟨self.uid, batchId⟩).isSome then allocateBatch collectionId tries (batchId + 1)
    else .ok (batchId, { db with batches := db.batches.set ⟨self.uid, batchId⟩ collectionId })

/-- `create_batch`: open a batch and return its id. -/
def createBatch (collection : String) : Except Raised (String × Db) := do
  let (collectionId, db) := getOrCreateCollectionId db collection
  let (batchId, db) ← allocateBatch self db collectionId maxBatchCreateRetry self.now
  .ok (encodeBatchId batchId, db)

/-- `validate_batch`. -/
def validateBatch (collection batch : String) : Except Raised Bool := do
  let batchId ← decodeBatchId batch
  if batchId + batchLifetimeMs < self.now then .ok false
  else
    match collectionId db collection with
    | .error _ => .ok false
    | .ok collectionId =>
      if !fitsSqlite batchId then .error .overflow
      else .ok (db.batches.find? ⟨self.uid, batchId⟩ = some collectionId)

/-- The loop of `append_to_batch`: an id sent twice replaces itself. -/
def stageBsos (batchId : ℤ) : Db → List PostedBso → Db
  | db, [] => db
  | db, bso :: rest =>
    let item : BatchItem := ⟨bso.sortindex, bso.payload, bso.ttl⟩
    stageBsos batchId { db with batchItems := db.batchItems.set ⟨self.uid, batchId, bso.id⟩ item } rest

/-- `append_to_batch`: stage records against an open batch. -/
def appendToBatch (collection batch : String) (bsos : List PostedBso) : Except Raised Db := do
  if !(← validateBatch self db collection batch) then .error .batchNotFound
  else
    let batchId ← decodeBatchId batch
    .ok (stageBsos self batchId db bsos)

/-- The row the commit inserts for a staged record that is not there. -/
def committedRow (item : BatchItem) : BsoRow where
  sortindex := item.sortindex
  payload := item.payload.getD ""
  modified := self.now
  expiry := match item.ttlOffset with
    | none => maxTtl * 1000
    | some ttl => self.now + ttl * 1000

/-- What the commit makes of a record that is there: a staged `NULL` leaves a field alone. -/
def mergedRow (item : BatchItem) (row : BsoRow) : BsoRow where
  sortindex := item.sortindex.or row.sortindex
  payload := item.payload.getD row.payload
  modified := self.now
  expiry := match item.ttlOffset with
    | none => row.expiry
    | some ttl => self.now + ttl * 1000

/-- The loop of `commit_batch`. -/
def commitItems (collectionId : ℕ) : Db → List (BatchItemKey × BatchItem) → Db
  | db, [] => db
  | db, (key, item) :: rest =>
    commitItems collectionId
      { db with
        bso := db.bso.upsert ⟨self.uid, collectionId, key.id⟩ (committedRow self item) (mergedRow self item) }
      rest

/-- The items staged in a batch, in the order of their ids. -/
def stagedItems (batchId : ℤ) : List (BatchItemKey × BatchItem) :=
  db.batchItems.select fun key _ => key.uid = self.uid && key.batchId = batchId

/-- `delete_batch`, of a decoded id. -/
def deleteBatch (batchId : ℤ) : Db :=
  { db with
    batchItems := db.batchItems.deleteWhere fun key _ => key.uid = self.uid && key.batchId = batchId
    batches := db.batches.deleteWhere fun key _ => key = ⟨self.uid, batchId⟩ }

/-- `commit_batch`: land a whole batch in `sync_bso` at one timestamp. -/
def commitBatch (collection batch : String) : Except Raised (ℕ × Db) := do
  let batchId ← decodeBatchId batch
  let (collectionId, db) := getOrCreateCollectionId db collection
  if !fitsSqlite batchId then .error .overflow
  else
    let db := commitItems self collectionId db (stagedItems self db batchId)
    let db := updateCollection self db collectionId
    .ok (self.now, deleteBatch self db batchId)

end SyncStore

end FxaLite.SyncStorage
