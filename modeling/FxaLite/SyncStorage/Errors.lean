/-!
# What a storage request can fail with

`errors.py` maps every refusal to a status code and one integer; the store's own exceptions
are turned into those by the transaction wrapper. An `OverflowError` is what `sqlite3` raises
for an integer that does not fit a signed 64-bit column, a `RecursionError` what `json.loads`
raises for a body that is nested too deep; nothing catches either.
-/

namespace FxaLite.SyncStorage

/-- `WeaveError`: the six values that are ever sent. -/
inductive WeaveError where
  | unknown
  | illegalMethod
  | malformedJson
  | invalidWbo
  | overQuota
  | sizeLimitExceeded
  deriving DecidableEq, Repr

/-- The integer on the wire. -/
def WeaveError.code : WeaveError → Nat
  | .unknown => 0
  | .illegalMethod => 1
  | .malformedJson => 6
  | .invalidWbo => 8
  | .overQuota => 14
  | .sizeLimitExceeded => 17

/-- What a conflicting write is told to wait, in seconds. -/
def retryAfterSeconds : Nat := 10

/-- An error with Sync 1.5's wire representation. -/
structure SyncStorageError where
  statusCode : Nat
  isError : 400 ≤ statusCode := by decide
  weave : WeaveError := .unknown
  retryAfter : Option Nat := none
  deriving DecidableEq, Repr

def unauthorized : SyncStorageError := { statusCode := 401 }
def invalidWbo : SyncStorageError := { statusCode := 400, weave := .invalidWbo }
def badRequest : SyncStorageError := { statusCode := 400 }
def notFound : SyncStorageError := { statusCode := 404 }
def unsupportedMediaType : SyncStorageError := { statusCode := 415 }
def requestTooLarge : SyncStorageError := { statusCode := 413, weave := .sizeLimitExceeded }
def conflict : SyncStorageError := { statusCode := 503, retryAfter := some retryAfterSeconds }
def internalError : SyncStorageError := { statusCode := 500 }

/-- The exceptions of the store and of the handlers around it. -/
inductive Raised where
  | collectionNotFound
  | bsoNotFound
  | batchNotFound
  | conflict
  | http (error : SyncStorageError)
  | overflow
  | recursion
  deriving DecidableEq, Repr

end FxaLite.SyncStorage
