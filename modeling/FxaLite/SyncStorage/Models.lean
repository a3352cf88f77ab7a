import FxaLite.SyncStorage.Store
import Mathlib.Data.Rat.Floor

/-!
# Reading a Sync 1.5 request

The parts of `models.py` that come before the transaction: the two name grammars, the query
string of a collection read, and the batch parameters. `float()` is a parameter of the query
parser, as the exact number a text denotes; `none` stands for a `ValueError`, a NaN and the
infinities, which are all refused alike.
-/

namespace FxaLite.SyncStorage

/-- `BSO_ID_RE`: any printable ASCII, up to 64 characters. -/
def bsoIdRe (id : String) : Bool := Py.matchesClass (fun c => 0x20 ≤ c.toNat && c.toNat ≤ 0x7e) 1 64 id.toList

/-- `COLLECTION_RE`. -/
def collectionRe (name : String) : Bool :=
  Py.matchesClass (fun c => (c.isAlphanum && c.toNat < 128) || c = '.' || c = '_' || c = '-') 1 32 name.toList

/-- `MAX_IDS`: the cap on `?ids=`. -/
def maxIds : ℕ := 100

/-- `validate_collection`: a name that cannot exist is a 404. -/
def validateCollection (name : String) : Except Raised Unit :=
  if collectionRe name then .ok () else .error (.http notFound)

/-- `validate_bso_id`. -/
def validateBsoId (id : String) : Except Raised Unit :=
  if bsoIdRe id then .ok () else .error (.http notFound)

/-- `parse_timestamp`, of what `float()` makes of the text. Here `float` carries the rounding, that of the product and of
the bound included; `Rounded.parseTimestamp` is the reading with each of them. -/
def parseTimestamp (seconds : Option ℚ) : Except Raised ℕ :=
  match seconds with
  | none => .error (.http badRequest)
  | some seconds =>
    if seconds < 0 ∨ (2 ^ 64 - 1) / 1000 < seconds then .error (.http badRequest)
    else .ok (quantize (seconds * 1000).floor.toNat)

/-- A query string as `request.query_params.get` reads it. -/
abbrev Params := String → Option String

/-- A query string of some keys and values. -/
def Params.of (entries : List (String × String)) : Params := (entries.lookup ·)

/-- The query with its `offset` replaced, as a client does that follows a token. -/
def Params.withOffset (params : Params) (token : Option (List Char)) : Params := fun name =>
  if name = "offset" then token.map String.ofList else params name

/-- `_timestamp`. -/
def timestampParam (float : String → Option ℚ) (params : Params) (name : String) : Except Raised (Option ℕ) :=
  match params name with
  | none => .ok none
  | some raw => (parseTimestamp (float raw)).map some

/-- The `sort` parameter: `none` is normalised to the absent case. -/
def sortParam (params : Params) : Except Raised (Option Sorting) :=
  match params "sort" with
  | none => .ok none
  | some sort =>
    if sort = "none" then .ok none
    else if sort = "newest" then .ok (some .newest)
    else if sort = "oldest" then .ok (some .oldest)
    else if sort = "index" then .ok (some .index)
    else .error (.http badRequest)

/-- The `limit` parameter. -/
def limitParam (params : Params) : Except Raised (Option ℕ) :=
  match params "limit" with
  | none => .ok none
  | some raw =>
    match nonNegative raw.toList with
    | some n => .ok (some n)
    | none => .error (.http badRequest)

/-- The `offset` parameter. -/
def offsetParam (params : Params) : Except Raised (Option Offset) :=
  match params "offset" with
  | none => .ok none
  | some raw =>
    match Offset.parse raw.toList with
    | some o => .ok (some o)
    | none => .error (.http badRequest)

/-- The `ids` parameter: comma separated, stripped, empty parts dropped. -/
def idsParam (params : Params) : Except Raised (List String) :=
  let parts := (((params "ids").getD "").toList.splitOn ',').map Py.strip
  let ids := (parts.filter (· ≠ [])).map String.ofList
  if maxIds < ids.length then .error (.http badRequest)
  else if ids.any fun id => !bsoIdRe id then .error (.http badRequest)
  else .ok ids

/-- The cross-check at the end of `parse_query`: a token whose timestamp falls outside the
`newer`/`older` window cannot have come from a page of this query. -/
def offsetInWindow (query : BsoQuery) : Bool :=
  match query.offset.bind Offset.timestamp with
  | none => true
  | some bound =>
    query.sort = some .index ||
      match query.newer, query.older with
      | some newer, _ => newer ≤ bound
      | none, some older => bound ≤ older
      | none, none => true

/-- `parse_query`. -/
def parseQuery (float : String → Option ℚ) (params : Params) : Except Raised BsoQuery := do
  let newer ← timestampParam float params "newer"
  let older ← timestampParam float params "older"
  let sort ← sortParam params
  let limit ← limitParam params
  let offset ← offsetParam params
  let ids ← idsParam params
  let query : BsoQuery := ⟨newer, older, sort, limit, offset, ids⟩
  if offsetInWindow query then .ok query else .error (.http badRequest)

/-- `?batch=` / `?commit=`, once they have been made sense of; no id means a new batch. -/
structure BatchRequest where
  id : Option String
  commit : Bool
  deriving DecidableEq, Repr

/-- `TRUE_RE`: the word "true" in any case; like `$`, it leaves room for one final line feed. -/
def trueRe (value : String) : Bool :=
  let text := value.toList
  let text := if text.getLast? = some '\n' then text.dropLast else text
  text.map Char.toLower = ['t', 'r', 'u', 'e']

/-- `parse_batch`; `none` is a POST that is not batched at all. -/
def parseBatch (params : Params) : Except Raised (Option BatchRequest) :=
  match params "batch", params "commit" with
  | none, none => .ok none
  | none, some _ => .error (.http badRequest)
  | some batch, commit =>
    if commit.any fun c => !trueRe c then .error (.http badRequest)
    else .ok (some ⟨if batch = "" ∨ trueRe batch then none else some batch, commit.isSome⟩)

end FxaLite.SyncStorage
