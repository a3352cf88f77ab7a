import FxaLite.SyncStorage.Bodies
import FxaLite.SyncStorage.Credentials
import FxaLite.SyncStorage.Handlers
import FxaLite.Tokenserver.Users

/-!
# Which requests are authenticated

`_authenticate` of `syncstorage/__init__.py`, and the routes that call it once they have looked at the
names in their paths and at the headers that announce a body. The framework hands it a request in three
forms: the bytes of the target, the decoded path, and a URL that is put together from the `Host` header,
the path and the query and taken apart again. What the framework does is a parameter; what is relied on
of it is stated beside it.
-/

namespace FxaLite.SyncStorage

open Crypto Tokenserver Hawk

/-- The scheme of a connection. -/
inductive Scheme where
  | http
  | https
  deriving DecidableEq, Repr

/-- Its name. -/
def Scheme.text : Scheme → List Char
  | .http => "http".toList
  | .https => "https".toList

/-- What a request looks like to an application: the parts of it that are read here. -/
structure Scope where
  method : List Char
  scheme : Scheme
  host : List Char
  path : List Char
  rawPath : Option (List UInt8)
  query : List Char
  rootPath : Option (List Char)
  authorization : Option (List Char)
  contentType : Option (List Char)
  body : List UInt8
  /-- the other headers, by lower-case name -/
  otherHeaders : List (String × String) := []
  deriving DecidableEq, Repr

/-- `request.headers.get`, for the headers that announce a body. -/
def Scope.headers (scope : Scope) : Headers := (scope.otherHeaders.lookup ·)

/-- The routes of the storage router. -/
inductive StorageRoute where
  | infoCollections
  | infoCollectionCounts
  | infoCollectionUsage
  | infoQuota
  | infoConfiguration
  | deleteAll
  | getCollection (collection : List Char)
  | postCollection (collection : List Char)
  | deleteCollection (collection : List Char)
  | getBso (collection bso : List Char)
  | putBso (collection bso : List Char)
  | deleteBso (collection bso : List Char)
  deriving DecidableEq, Repr

/-- The `read_body` each route passes. -/
def StorageRoute.readBody : StorageRoute → Bool
  | .postCollection _ | .putBso _ _ => true
  | _ => false

/-- What each route checks before it authenticates. -/
def StorageRoute.precheck (headers : Headers) : StorageRoute → Except Raised Unit
  | .getCollection collection | .deleteCollection collection => validateCollection (String.ofList collection)
  | .postCollection collection => do
    validateCollection (String.ofList collection)
    checkContentLength headers
    checkBatchHeaders headers
  | .getBso collection bso | .deleteBso collection bso => do
    validateCollection (String.ofList collection)
    validateBsoId (String.ofList bso)
  | .putBso collection bso => do
    validateCollection (String.ofList collection)
    validateBsoId (String.ofList bso)
    checkContentLength headers
  | _ => .ok ()

/-- A route with the uid in its path. -/
structure Matched where
  uid : ℕ
  handler : StorageRoute
  deriving DecidableEq, Repr

/-- What is taken from the framework: `request.url`, where `none` is a `ValueError`, and the storage
route whose handler a request reaches, if it reaches one. -/
structure Framework where
  url : Scope → Option Url.SplitResult
  route : Scope → Option Matched

/-- The text that `request.url` takes apart, where the `Host` header is taken as it comes. -/
def Scope.urlText (scope : Scope) : List Char :=
  scope.scheme.text ++ ':' :: '/' :: '/' :: (scope.host ++ (scope.path ++ Url.behind '?' scope.query))

/-- `STORAGE_PREFIX` and the version, which every storage route begins with. -/
def storagePrefix : List Char := "/storage/1.5/".toList

/-- What is documented about a framework that takes the `Host` header as it comes: how it makes `request.url`,
and that a route matches the path that its pattern describes. -/
structure Framework.IsStarlette (f : Framework) : Prop where
  url : ∀ scope, f.url scope = Url.urlsplit scope.urlText
  route : ∀ scope, f.route scope ≠ none → storagePrefix <+: scope.path

/-- An address holds none of the characters that end one in a URL. -/
def IsAddress (text : List Char) : Prop := ∀ c ∈ text, Url.isDelimiter c = false

/-- What is documented about one that checks the `Host` header, as the locked version does: where the header is
not well formed, `request.url` is put together with the address of the server, or is the path and the query alone. -/
structure Framework.ChecksHosts (f : Framework) (wellFormed : List Char → Prop) : Prop where
  address : ∀ host, wellFormed host → IsAddress host
  url : ∀ scope, wellFormed scope.host → f.url scope = Url.urlsplit scope.urlText
  otherwise : ∀ scope, ¬wellFormed scope.host →
    (∃ server, IsAddress server ∧ f.url scope = Url.urlsplit { scope with host := server }.urlText) ∨
      f.url scope = Url.urlsplit (scope.path ++ Url.behind '?' scope.query)
  route : ∀ scope, f.route scope ≠ none → storagePrefix <+: scope.path

/-- The configuration and the secret of an application, with the clock at a request. -/
structure App where
  publicUrl : List Char
  secret : List Char
  users : UserDb
  nowMs : ℕ

/-- A verified request and the store it will run against. -/
structure SyncRequest where
  store : SyncStore
  credentials : SyncCredentials
  body : List UInt8
  deriving DecidableEq, Repr

/-- `db.sync_user(uid)`; the database takes no integer beyond 64 bits. -/
def syncUser (users : UserDb) (uid : ℕ) : Except SyncStorageError (Option SyncUser) :=
  if uid < 2 ^ 63 then .ok (users.users.find? (·.uid = uid)) else .error internalError

/-- `_signed_target`; a byte is a Latin-1 character. -/
def signedTarget (scope : Scope) (url : Url.SplitResult) : List Char :=
  match scope.rawPath with
  | none => url.path
  | some raw => raw.map fun b => Char.ofNat b.toNat

/-- `_mount_relative`. -/
def mountRelative (scope : Scope) (url : Url.SplitResult) : List Char :=
  let root := scope.rootPath.getD []
  if root ≠ [] ∧ root <+: url.path then url.path.drop root.length else url.path

/-- What `_authenticate` presents to `credentials.authenticate`. -/
def presented (scope : Scope) (url : Url.SplitResult) (origin : Origin) (readBody : Bool) : Presented where
  method := scope.method
  resource := signedTarget scope url ++ Url.behind '?' url.query
  origin := origin
  body := if readBody then some scope.body else none
  contentType := scope.contentType.getD []

section Authenticate

variable (h : Sha256) (i : Interpreter) (f : Framework) (app : App)

/-- `_authenticate`. -/
def authenticateRequest (scope : Scope) (uid : ℕ) (readBody : Bool) : Except SyncStorageError SyncRequest :=
  match f.url scope, Origin.parse app.publicUrl with
  | some url, some origin => do
    let verified ← authenticate h i scope.authorization app.secret (presented scope url origin readBody)
      (mountRelative scope url) (app.nowMs / 1000 : ℕ)
    if verified.uid ≠ uid then .error unauthorized
    else do
      match ← syncUser app.users uid with
      | none => .error unauthorized
      | some _ => .ok ⟨⟨uid, quantize app.nowMs⟩, verified, if readBody then scope.body else []⟩
  | _, _ => .error internalError

/-- What the route of a request refuses before it authenticates, or what it authenticates; the one that only tells
constants does neither. -/
def authenticated (scope : Scope) : Option (Except SyncStorageError SyncRequest) :=
  match f.route scope with
  | none | some ⟨_, .infoConfiguration⟩ => none
  | some ⟨uid, handler⟩ => some do
    (handler.precheck scope.headers).mapError fun raised => raised.protocolError.getD internalError
    authenticateRequest h i f app scope uid handler.readBody

end Authenticate

end FxaLite.SyncStorage
