import FxaLite.Lib.Table
import Mathlib.Data.Prod.Lex
import Mathlib.Data.String.Basic
import Mathlib.Order.Lattice

/-!
# The Sync storage tables

Phase 6 of the schema in `db.py`: the global collection names, and four tables keyed by the
Sync uid. Instants are milliseconds since the epoch. A name in `sync_collections` is never
deleted and its `AUTOINCREMENT` id is therefore its position; position 0 is the tombstone,
seeded with the empty name.
-/

namespace FxaLite.SyncStorage

open Relational

/-- `PRIMARY KEY (uid, collection_id)` of `sync_user_collections`. -/
structure UserCollectionKey where
  uid : ℕ
  collectionId : ℕ
  deriving DecidableEq, Repr

/-- `PRIMARY KEY (uid, collection_id, id)` of `sync_bso`. -/
structure BsoKey where
  uid : ℕ
  collectionId : ℕ
  id : String
  deriving DecidableEq, Repr

/-- `PRIMARY KEY (uid, batch_id)` of `sync_batches`. -/
structure BatchKey where
  uid : ℕ
  batchId : ℤ
  deriving DecidableEq, Repr

/-- `PRIMARY KEY (uid, batch_id, id)` of `sync_batch_items`. -/
structure BatchItemKey where
  uid : ℕ
  batchId : ℤ
  id : String
  deriving DecidableEq, Repr

instance : LinearOrder UserCollectionKey :=
  LinearOrder.lift' (fun k => toLex (k.uid, k.collectionId)) fun a b h => by
    cases a; cases b; simpa using h

instance : LinearOrder BsoKey :=
  LinearOrder.lift' (fun k => toLex (k.uid, toLex (k.collectionId, k.id))) fun a b h => by
    cases a; cases b; simpa using h

instance : LinearOrder BatchKey :=
  LinearOrder.lift' (fun k => toLex (k.uid, k.batchId)) fun a b h => by
    cases a; cases b; simpa using h

instance : LinearOrder BatchItemKey :=
  LinearOrder.lift' (fun k => toLex (k.uid, toLex (k.batchId, k.id))) fun a b h => by
    cases a; cases b; simpa using h

/-- The columns of `sync_bso` outside its key. `expiry` is an absolute instant. -/
structure BsoRow where
  sortindex : Option ℤ
  payload : String
  modified : ℕ
  expiry : ℕ
  deriving DecidableEq, Repr

/-- The columns of `sync_batch_items` outside its key; `none` is `NULL`. -/
structure BatchItem where
  sortindex : Option ℤ
  payload : Option String
  ttlOffset : Option ℕ
  deriving DecidableEq, Repr

/-- The storage half of the database. -/
structure Db where
  /-- `sync_collections`, a name at the position that is its id -/
  collections : List String
  /-- `sync_user_collections`: when a user's collection was last modified -/
  userCollections : Table UserCollectionKey ℕ
  /-- `sync_bso` -/
  bso : Table BsoKey BsoRow
  /-- `sync_batches`: the collection an open batch belongs to -/
  batches : Table BatchKey ℕ
  /-- `sync_batch_items` -/
  batchItems : Table BatchItemKey BatchItem
  deriving DecidableEq

/-- The reserved `sync_collections` row that carries a deleted collection's mark. -/
def tombstone : ℕ := 0

/-- A freshly migrated database. -/
def Db.fresh : Db := ⟨[""], ∅, ∅, ∅, ∅⟩

/-- One Basic Storage Object, as it leaves the database. -/
structure Bso where
  id : String
  modified : ℕ
  payload : String
  sortindex : Option ℤ
  expiry : ℕ
  deriving DecidableEq, Repr

/-- One record from a POST or PUT body, already known to be well formed. -/
structure PostedBso where
  id : String
  payload : Option String := none
  sortindex : Option ℤ := none
  ttl : Option ℕ := none
  deriving DecidableEq, Repr

/-- A parsed POST body: what will be stored, and what will not with the reason. -/
structure PostedBsos where
  valid : List PostedBso
  invalid : List (String × String) := []
  deriving DecidableEq, Repr

end FxaLite.SyncStorage
