import FxaLite.Lib.JsonText
import FxaLite.SyncStorage.Models

/-!
# Reading the records of a request

The other half of `models.py`: the bodies of PUT and POST, and the headers that announce them.
A record of a POST that is not well formed is reported and its neighbours are stored; only a
body out of which no records can be told fails as a whole. The `json` module and the decoding
of bytes are parameters. A value is what `json.loads` returns, an object a list of its keys,
each once; the strings hold no lone surrogate, which no column of the database takes.
-/

namespace FxaLite.SyncStorage

/-- A value as `json.loads` returns it; nothing here reads a number that is not whole. -/
abbrev Json := JsonText.Document (Option ℤ) String

/-- An `int`. -/
@[match_pattern] abbrev Json.int (value : ℤ) : Json := .number (some value)

/-- A `float`. -/
@[match_pattern] abbrev Json.float : Json := .number none

/-- The bytes of a body. -/
abbrev Bytes := List UInt8

/-- What the parsers of bodies take from the interpreter. -/
structure Codec where
  /-- `json.loads` of text -/
  loads : String → Except JsonText.LoadsError Json
  /-- `json.loads` of bytes, whose encoding it detects -/
  loadsBytes : Bytes → Except JsonText.LoadsError Json
  /-- `bytes.decode("utf-8", errors="replace")` -/
  decode : Bytes → String

/-- The text of bytes that are all ASCII. -/
def Bytes.ascii (body : Bytes) : String := String.ofList (body.map fun byte => Char.ofNat byte.toNat)

/-- The value of a text that is in a list; no other text is JSON. -/
def knownText (texts : List (String × Json)) (text : String) : Except JsonText.LoadsError Json :=
  (texts.lookup text).elim (.error .valueError) .ok

/-- A codec that knows the values of some ASCII texts. -/
def Codec.knowing (texts : List (String × Json)) : Codec :=
  ⟨knownText texts, fun body => knownText texts (Bytes.ascii body), Bytes.ascii⟩

/-- Request headers by lower-case name, as `request.headers.get` reads them. -/
abbrev Headers := String → Option String

/-! ### Constants -/

/-- `MAX_TTL` of `models.py`: the largest ttl a record may ask for, in seconds. -/
def maxBsoTtl : ℤ := 999999999

def maxSortindex : ℤ := 999999999
def minSortindex : ℤ := -999999999

/-- `CONTENT_TYPES`. -/
def contentTypes : List String := ["application/json", "text/plain", "application/newlines"]

/-- `Limits`, with the values of `LIMITS`. -/
structure Limits where
  maxPostBytes : ℕ := 2621440
  maxPostRecords : ℕ := 100
  maxRecordPayloadBytes : ℕ := 2621440
  maxRequestBytes : ℕ := 2621440 + 4096
  maxTotalBytes : ℕ := 100 * 2621440
  maxTotalRecords : ℕ := 10000
  deriving Repr

/-- `LIMITS`. -/
def limits : Limits := {}

/-! ### Headers -/

/-- `check_content_type`: the media type, which must be one of three. -/
def checkContentType (contentType : Option String) : Except Raised String :=
  let given := match contentType with
    | none => "application/json"
    | some text => if text = "" then "application/json" else text
  let media := String.ofList (Py.lower (Py.strip (Py.partition ';' given.toList).1))
  if contentTypes.contains media then .ok media else .error (.http unsupportedMediaType)

/-- One header of `check_batch_headers`: a number that a client declares, and its limit. -/
def checkDeclared (headers : Headers) (name : String) (limit : ℕ) : Except Raised Unit :=
  match headers name with
  | none => .ok ()
  | some raw =>
    match Py.int raw.toList with
    | none => .error (.http badRequest)
    | some declared => if (limit : ℤ) < declared then .error (.http requestTooLarge) else .ok ()

/-- `check_batch_headers`: `X-Weave-Records` and friends. -/
def checkBatchHeaders (headers : Headers) : Except Raised Unit := do
  checkDeclared headers "x-weave-records" limits.maxPostRecords
  checkDeclared headers "x-weave-bytes" limits.maxPostBytes
  checkDeclared headers "x-weave-total-records" limits.maxTotalRecords
  checkDeclared headers "x-weave-total-bytes" limits.maxTotalBytes

/-- `check_content_length`; what is no number is passed over. -/
def checkContentLength (headers : Headers) : Except Raised Unit :=
  match (headers "content-length").bind fun raw => Py.int raw.toList with
  | none => .ok ()
  | some length => if (limits.maxRequestBytes : ℤ) < length then .error (.http requestTooLarge) else .ok ()

/-! ### One record -/

/-- `dict.get`: a field that is absent reads as a field that is null. -/
def field (fields : List (String × Json)) (name : String) : Json := (fields.lookup name).getD .null

/-- The fields a record may have. -/
def knownFields : List String := ["id", "sortindex", "payload", "ttl", "modified", "collection"]

/-- The `id` field; a PUT may leave it out. -/
def idField (fields : List (String × Json)) (requireId : Bool) : Except String String :=
  match field fields "id" with
  | .str id => if bsoIdRe id then .ok id else .error "invalid bso: id"
  | .null => if requireId then .error "invalid bso: id" else .ok ""
  | _ => .error "invalid bso: id"

/-- The `payload` field. -/
def payloadField (fields : List (String × Json)) : Except String (Option String) :=
  match field fields "payload" with
  | .null => .ok none
  | .str payload => .ok (some payload)
  | _ => .error "invalid bso: payload"

/-- The `sortindex` field. -/
def sortindexField (fields : List (String × Json)) : Except String (Option ℤ) :=
  match field fields "sortindex" with
  | .null => .ok none
  | .int n => if minSortindex ≤ n ∧ n ≤ maxSortindex then .ok (some n) else .error "invalid bso: sortindex"
  | _ => .error "invalid bso: sortindex"

/-- The `ttl` field. -/
def ttlField (fields : List (String × Json)) : Except String (Option ℕ) :=
  match field fields "ttl" with
  | .null => .ok none
  | .int n => if n < 0 ∨ maxBsoTtl < n then .error "invalid bso: ttl" else .ok (some n.toNat)
  | _ => .error "invalid bso: ttl"

/-- `_bso_from_object`; an error carries the text of the `ValueError`. -/
def bsoFromObject (fields : List (String × Json)) (requireId : Bool) : Except String PostedBso :=
  let unknown := (fields.map Prod.fst).filter fun name => !knownFields.contains name
  match unknown.mergeSort.head? with
  | some name => .error ("unknown field " ++ name)
  | none => do
    let id ← idField fields requireId
    let payload ← payloadField fields
    let sortindex ← sortindexField fields
    let ttl ← ttlField fields
    .ok ⟨id, payload, sortindex, ttl⟩

/-- `payload_size`. -/
def PostedBso.payloadSize (bso : PostedBso) : ℕ := (bso.payload.getD "").length

/-! ### Whole bodies -/

/-- What becomes of a failed `json.loads`: only a `ValueError` is caught. -/
def notJson : JsonText.LoadsError → Raised
  | .valueError => .http invalidWbo
  | .recursionError => .recursion

/-- `parse_bso_body`: the body of a PUT, exactly one record. -/
def parseBsoBody (codec : Codec) (body : Bytes) (contentType : Option String) : Except Raised PostedBso := do
  let _ ← checkContentType contentType
  match codec.loadsBytes (if body.isEmpty then "{}".toUTF8.toList else body) with
  | .ok (.obj fields) =>
    match bsoFromObject fields false with
    | .ok bso =>
      if limits.maxRecordPayloadBytes < bso.payloadSize then .error (.http requestTooLarge) else .ok bso
    | .error _ => .error (.http invalidWbo)
  | .ok _ => .error (.http invalidWbo)
  | .error failure => .error (notJson failure)

/-- What has been read of a POST body so far. -/
structure Reading where
  seen : List String := []
  totalPayload : ℕ := 0
  result : PostedBsos := ⟨[], []⟩

/-- One turn of the loop of `parse_bso_bodies`. -/
def Reading.admit (reading : Reading) (item : Json) : Except Raised Reading :=
  match item with
  | .obj fields =>
    match field fields "id" with
    | .str bsoId =>
      if reading.seen.contains bsoId then .error (.http invalidWbo)
      else
        let seen := reading.seen ++ [bsoId]
        let result := reading.result
        match bsoFromObject fields true with
        | .error reason => .ok { reading with seen, result := { result with invalid := result.invalid ++ [(bsoId, reason)] } }
        | .ok bso =>
          let totalPayload := reading.totalPayload + bso.payloadSize
          if limits.maxRecordPayloadBytes < bso.payloadSize ∨ limits.maxPostBytes < totalPayload then
            .ok ⟨seen, totalPayload, { result with invalid := result.invalid ++ [(bso.id, "retry bytes")] }⟩
          else .ok ⟨seen, totalPayload, { result with valid := result.valid ++ [bso] }⟩
    | _ => .error (.http invalidWbo)
  | _ => .error (.http invalidWbo)

/-- The end of `parse_bso_bodies`: what is past the cap is popped off the end, and deferred. -/
def deferRecords (result : PostedBsos) : PostedBsos where
  valid := result.valid.take limits.maxPostRecords
  invalid := result.invalid ++
    (result.valid.drop limits.maxPostRecords).reverse.map fun dropped => (dropped.id, "retry bso")

/-- The values of a POST body: a list, or one a line. -/
def rawItems (codec : Codec) (media text : String) : Except Raised (List Json) :=
  if media = "application/newlines" then
    ((Py.splitLines text.toList).filter fun line => !(Py.strip line).isEmpty).mapM fun line =>
      match codec.loads (String.ofList line) with
      | .ok item => .ok item
      | .error failure => .error (notJson failure)
  else
    match codec.loads (if text = "" then "[]" else text) with
    | .ok (.arr items) => .ok items
    | .ok _ => .error (.http invalidWbo)
    | .error failure => .error (notJson failure)

/-- `parse_bso_bodies`. -/
def parseBsoBodies (codec : Codec) (body : Bytes) (contentType : Option String) : Except Raised PostedBsos := do
  let media ← checkContentType contentType
  let raw ← rawItems codec media (codec.decode body)
  let reading ← raw.foldlM Reading.admit {}
  .ok (deferRecords reading.result)

/-! ### A payload that must not be stored -/

/-- The white space of `\s*`, and what must follow it. -/
def followsSpace (tail : List Char) : List Char → Bool
  | [] => tail.isEmpty
  | c :: rest => tail.isPrefixOf (c :: rest) || (Py.isSpace c && followsSpace tail rest)

/-- `KNOWN_BAD_PAYLOAD_RE.search`: an all-zero IV. -/
def knownBadPayload (payload : String) : Bool :=
  payload.toList.tails.any fun text =>
    "IV\":".toList.isPrefixOf text && followsSpace "\"AAAAAAAAAAAAAAAAAAAAAA==".toList (text.drop 4)

/-- `check_known_bad_payload`. -/
def checkKnownBadPayload (bsos : List PostedBso) (collection : String) : Except Raised Unit :=
  if collection = "crypto" ∧ (bsos.any fun bso => knownBadPayload (bso.payload.getD "")) = true then
    .error (.http invalidWbo)
  else .ok ()

end FxaLite.SyncStorage
