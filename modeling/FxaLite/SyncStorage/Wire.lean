import FxaLite.SyncStorage.Bodies
import FxaLite.SyncStorage.Effects

/-!
# The storage routes over HTTP

The route handlers of `syncstorage/__init__.py` from the authenticated request on: each checks
the names in its path, its headers and its body in the order of the source, and hands what it
read to the transaction. A request that cannot be read leaves the database as it is.
-/

namespace FxaLite.SyncStorage

open Reactive Fallible

/-- The routes, with what each takes from the path, the query string and the body. -/
inductive Endpoint where
  | infoCollections
  | infoCollectionCounts
  | infoCollectionUsage
  | infoQuota
  | deleteAll
  /-- `newlines` is what `wants_newlines` makes of the `Accept` header -/
  | getCollection (collection : String) (params : Params) (newlines : Bool)
  | postCollection (collection : String) (params : Params) (body : Bytes)
  | deleteCollection (collection : String) (params : Params)
  | getBso (collection bso : String)
  | putBso (collection bso : String) (body : Bytes)
  | deleteBso (collection bso : String)

/-- One authenticated request as it arrives, at a reading of the server's clock. -/
structure HttpRequest where
  uid : ℕ
  nowMs : ℕ
  headers : Headers
  endpoint : Endpoint

/-- What a route makes of its path, its headers and its body. -/
def HttpRequest.read (codec : Codec) (http : HttpRequest) : Except Raised Request :=
  match http.endpoint with
  | .infoCollections => .ok .infoCollections
  | .infoCollectionCounts => .ok .infoCollectionCounts
  | .infoCollectionUsage => .ok .infoCollectionUsage
  | .infoQuota => .ok .infoQuota
  | .deleteAll => .ok .deleteAll
  | .getCollection collection params newlines => .ok (.getCollection collection params newlines)
  | .postCollection collection params body => do
    validateCollection collection
    checkContentLength http.headers
    checkBatchHeaders http.headers
    let _ ← parseBatch params
    let bsos ← parseBsoBodies codec body (http.headers "content-type")
    checkKnownBadPayload bsos.valid collection
    .ok (.postCollection collection params bsos)
  | .deleteCollection collection params => .ok (.deleteCollection collection params)
  | .getBso collection bso => .ok (.getBso collection bso)
  | .putBso collection bso body => do
    validateCollection collection
    validateBsoId bso
    checkContentLength http.headers
    let record ← parseBsoBody codec body (http.headers "content-type")
    checkKnownBadPayload [record] collection
    .ok (.putBso collection bso record)
  | .deleteBso collection bso => .ok (.deleteBso collection bso)

/-- The request once it is read. -/
def HttpRequest.call (http : HttpRequest) (request : Request) : Call where
  uid := http.uid
  nowMs := http.nowMs
  ifModifiedSince := http.headers "x-if-modified-since"
  ifUnmodifiedSince := http.headers "x-if-unmodified-since"
  request := request

/-- One request over HTTP: what it leaves and what it answers. -/
def serveHttp (p : Platform) (codec : Codec) (db : Db) (http : HttpRequest) : Db × Response :=
  match http.read codec with
  | .ok request => serve p db (http.call request)
  | .error raised => (db, errorResponse (http.call .infoCollections) raised)

/-- The storage routes as a machine. -/
def httpServer (p : Platform) (codec : Codec) : Machine Db HttpRequest Response := ⟨serveHttp p codec⟩

/-! ### The records of a body that was read -/

/-- A record out of which an object was made has an id that the expression accepts. -/
theorem bsoFromObject_id {fields : List (String × Json)} {bso : PostedBso}
    (h : bsoFromObject fields true = .ok bso) : bsoIdRe bso.id = true := by
  simp only [bsoFromObject] at h
  split at h
  · cases h
  · simp only [bind_eq_ok, Except.ok.injEq] at h
    obtain ⟨id, hid, _, -, _, -, _, -, rfl⟩ := h
    unfold idField at hid
    split at hid
    · split at hid
      · rename_i hre
        exact Except.ok.inj hid ▸ hre
      · cases hid
    · simp at hid
    · cases hid

/-- One turn of the loop admits no record with another id. -/
theorem Reading.admit_valid {reading reading' : Reading} {item : Json} (h : reading.admit item = .ok reading')
    (hvalid : ∀ bso ∈ reading.result.valid, bsoIdRe bso.id = true) :
    ∀ bso ∈ reading'.result.valid, bsoIdRe bso.id = true := by
  unfold Reading.admit at h
  split at h
  · split at h
    · split at h
      · cases h
      · dsimp only at h
        split at h
        · cases h
          exact hvalid
        · rename_i bso hbso
          split at h
          · cases h
            exact hvalid
          · cases h
            intro bso' hmem
            obtain hold | hnew := List.mem_append.mp hmem
            · exact hvalid bso' hold
            · exact List.mem_singleton.mp hnew ▸ bsoFromObject_id hbso
    · cases h
  · cases h

/-- Every record that a POST body is read to hold has an id that the expression accepts. -/
theorem parseBsoBodies_valid {codec : Codec} {body : Bytes} {contentType : Option String} {bsos : PostedBsos}
    (h : parseBsoBodies codec body contentType = .ok bsos) : ∀ bso ∈ bsos.valid, bsoIdRe bso.id = true := by
  unfold parseBsoBodies at h
  simp only [bind_eq_ok, Except.ok.injEq] at h
  obtain ⟨_, -, items, -, reading, hreading, rfl⟩ := h
  have hvalid : ∀ bso ∈ reading.result.valid, bsoIdRe bso.id = true :=
    foldlM_invariant (P := fun r => ∀ bso ∈ r.result.valid, bsoIdRe bso.id = true)
      (fun _ _ _ hadmit => Reading.admit_valid hadmit) hreading (by simp)
  intro bso hbso
  exact hvalid bso (List.mem_of_mem_take hbso)

end FxaLite.SyncStorage
