import FxaLite.Lib.JsonText
import FxaLite.Lib.PyText
import Mathlib.Data.List.Sort

/-!
# Request tracing

`tracing.py` writes a line for each request at the level `DEBUG`, and redacts what could be replayed:
the values of JSON members and query parameters with certain names, and the credential of the
`Authorization` header. Everything it writes is a string of code points.
-/

namespace FxaLite.Middleware

/-! ### Names of secrets -/

/-- `SECRET_KEYS`. -/
def secretKeys : List Points :=
  ["access_token", "assertion", "authPW", "authorization", "bundle", "client_secret", "code", "code_verifier", "id_token",
    "key", "keyFetchToken", "keyRotationSecret", "keys_jwe", "oldAuthPW", "passwordChangeToken", "payload", "pushAuthKey",
    "pushPublicKey", "refresh_token", "sessionToken", "subject_token", "token", "unwrapBKey", "wrapKb"].map Points.ofString

/-- `PATH_SECRET_KEYS`. -/
def pathSecretKeys : List (Points × List Points) := [(Points.ofString "/token/", [Points.ofString "id"])]

/-- `PREFIX_LENGTH`. -/
def prefixLength : ℕ := 8

/-- `MIN_REDACTED_LENGTH`. -/
def minRedactedLength : ℕ := 16

/-- `MAX_BODY_CHARS`. -/
def maxBodyChars : ℕ := 2048

/-- `secrets_for`. -/
def secretsFor (path : Points) : List Points :=
  secretKeys ++ (pathSecretKeys.filter fun entry => entry.1.isPrefixOf path).flatMap Prod.snd

/-- The digits of a number. -/
def digits (n : ℕ) : Points := (Py.str n).map Char.toNat

/-! ### Documents -/

/-- A decoded JSON document. A number is what `json.dumps` writes for it. -/
abbrev Json := JsonText.Document Points Points

/-- `_elide` of a string. -/
def elideText (text : Points) : Points :=
  if minRedactedLength < text.length then
    text.take prefixLength ++ Points.ofString "…(" ++ digits text.length ++ Points.ofString " chars)"
  else Points.ofString "…"

/-- `_elide` of a value, for what `redact` makes of it. -/
def elided : Json → Json → Json
  | .str text, _ => .str (elideText text)
  | _, redacted => redacted

section Redacting

variable (secrets : List Points)

mutual

/-- `redact`. -/
def redact : Json → Json
  | .obj members => .obj (redactMembers members)
  | .arr items => .arr (redactItems items)
  | node => node

/-- `redact` of the items of a list. -/
def redactItems : List Json → List Json
  | [] => []
  | item :: items => redact item :: redactItems items

/-- `_value` of the members of a dictionary. -/
def redactMembers : List (Points × Json) → List (Points × Json)
  | [] => []
  | (key, item) :: members =>
    (key, if key ∈ secrets then elided item (redact item) else redact item) :: redactMembers members

end

/-- `_elide`. -/
def elide (node : Json) : Json := elided node (redact secrets node)

/-- The calls inside each other that `_elide` is, for those that `redact` is. -/
def elidingCalls : Json → ℕ → ℕ
  | .str _, _ => 1
  | _, redacting => redacting + 1

mutual

/-- The calls inside each other that `redact` is: it calls itself for the items of a list, and through `_value`, and
`_elide` under the name of a secret, for the members of a dictionary. -/
def redactCalls : Json → ℕ
  | .obj members => membersCalls members + 1
  | .arr items => itemsCalls items + 1
  | _ => 1

/-- Those for the items of a list. -/
def itemsCalls : List Json → ℕ
  | [] => 0
  | item :: items => max (redactCalls item) (itemsCalls items)

/-- Those for the members of a dictionary. -/
def membersCalls : List (Points × Json) → ℕ
  | [] => 0
  | (key, item) :: members =>
    max ((if key ∈ secrets then elidingCalls item (redactCalls item) else redactCalls item) + 1) (membersCalls members)

end

end Redacting

/-- The order of keys by their code points. -/
def keyLe : Points → Points → Bool
  | [], _ => true
  | _ :: _, [] => false
  | a :: s, b :: t => a < b || (a = b && keyLe s t)

mutual

/-- `json.dumps(…, sort_keys=True, ensure_ascii=False)`. -/
def dumps : Json → Points
  | .null => Points.ofString "null"
  | .bool true => Points.ofString "true"
  | .bool false => Points.ofString "false"
  | .number written => written
  | .str text => JsonText.quoted text
  | .arr items => 91 :: ((Points.ofString ", ").intercalate (dumpsItems items) ++ [93])
  | .obj members =>
    123 :: ((Points.ofString ", ").intercalate (((dumpsMembers members).insertionSort fun a b => keyLe a.1 b.1).map fun member =>
      JsonText.quoted member.1 ++ Points.ofString ": " ++ member.2) ++ [125])

/-- The items of a list. -/
def dumpsItems : List Json → List Points
  | [] => []
  | item :: items => dumps item :: dumpsItems items

/-- The members of a dictionary. -/
def dumpsMembers : List (Points × Json) → List (Points × Points)
  | [] => []
  | (key, item) :: members => (key, dumps item) :: dumpsMembers members

end

/-- A body as `render_body` finds it: empty, of so many bytes that `json.loads` refuses, a document, or one
that is nested too deep. -/
inductive Body where
  | empty
  | other (length : ℕ)
  | document (doc : Json)
  | tooDeep

/-- What the bytes of a body are, for a `json.loads`. -/
def Body.read (loads : List UInt8 → Except JsonText.LoadsError Json) (raw : List UInt8) : Body :=
  if raw = [] then .empty
  else
    match loads raw with
    | .ok doc => .document doc
    | .error .valueError => .other raw.length
    | .error .recursionError => .tooDeep

/-- A text that is cut if it is long. -/
def truncate (rendered : Points) : Points :=
  if maxBodyChars < rendered.length then
    rendered.take maxBodyChars ++ Points.ofString "… (" ++ digits rendered.length ++ Points.ofString " chars)"
  else rendered

/-- `render_body`, where the interpreter bears so many more calls inside each other; a `RecursionError` is not caught.
`json.dumps` is not written in Python and goes deeper than `redact`. -/
def renderBody (bears : ℕ) (secrets : List Points) : Body → Except JsonText.LoadsError Points
  | .empty => .ok (Points.ofString "(empty)")
  | .other length => .ok (Points.ofString "<" ++ digits length ++ Points.ofString " bytes, not JSON>")
  | .document doc =>
    if bears < redactCalls secrets doc then .error .recursionError else .ok (truncate (dumps (redact secrets doc)))
  | .tooDeep => .error .recursionError

/-! ### Query strings -/

/-- How many bytes continue a first byte, and the bounds of the first of them. -/
def continuation (first : ℕ) : Option (ℕ × ℕ × ℕ) :=
  if 0xc2 ≤ first ∧ first < 0xe0 then some (1, 0x80, 0xc0)
  else if first = 0xe0 then some (2, 0xa0, 0xc0)
  else if first = 0xed then some (2, 0x80, 0xa0)
  else if 0xe1 ≤ first ∧ first < 0xf0 then some (2, 0x80, 0xc0)
  else if first = 0xf0 then some (3, 0x90, 0xc0)
  else if 0xf1 ≤ first ∧ first < 0xf4 then some (3, 0x80, 0xc0)
  else if first = 0xf4 then some (3, 0x80, 0x90)
  else none

/-- The bytes that continue a first byte, as many as do. -/
def continuing : ℕ → ℕ → ℕ → List UInt8 → List UInt8
  | count + 1, low, high, b :: rest =>
    if low ≤ b.toNat ∧ b.toNat < high then b :: continuing count 0x80 0xc0 rest else []
  | _, _, _, _ => []

/-- `bytes.decode("utf-8", "replace")`, after so many bytes that belong to what is written already. -/
def decodeReplace : ℕ → List UInt8 → Points
  | _, [] => []
  | skip + 1, _ :: rest => decodeReplace skip rest
  | 0, a :: rest =>
    if a.toNat < 0x80 then a.toNat :: decodeReplace 0 rest
    else
      match continuation a.toNat with
      | none => 0xfffd :: decodeReplace 0 rest
      | some (count, low, high) =>
        let tail := continuing count low high rest
        if tail.length < count then 0xfffd :: decodeReplace tail.length rest
        else tail.foldl (fun n b => n * 64 + b.toNat % 64) (a.toNat % 2 ^ (6 - count)) :: decodeReplace tail.length rest

/-- `unquote_to_bytes` of ASCII characters. -/
def unquoteToBytes : Points → List UInt8
  | [] => []
  | 37 :: a :: b :: rest =>
    match JsonText.hexDigit a, JsonText.hexDigit b with
    | some high, some low => UInt8.ofNat (16 * high + low) :: unquoteToBytes rest
    | _, _ => 37 :: unquoteToBytes (a :: b :: rest)
  | c :: rest => UInt8.ofNat c :: unquoteToBytes rest

/-- `unquote_plus`. -/
def unquotePlus (s : Points) : Points :=
  ((s.map fun c => if c = 43 then 32 else c).splitBy fun a b => decide (a < 128) == decide (b < 128)).flatMap fun run =>
    if run.all (· < 128) then decodeReplace 0 (unquoteToBytes run) else run

/-- `parse_qsl(…, keep_blank_values=True)`. -/
def parseQsl (query : Points) : List (Points × Points) :=
  ((query.splitOn 38).filter (· ≠ [])).map fun pair =>
    (unquotePlus (pair.takeWhile (· ≠ 61)), unquotePlus (pair.dropWhile (· ≠ 61)).tail)

/-- A hexadecimal digit as `quote` writes it. -/
def upperHexChar (n : ℕ) : ℕ := if n < 10 then 48 + n else 55 + n

/-- A byte in `quote_plus`. -/
def quoteByte (b : UInt8) : Points :=
  let c := Char.ofNat b.toNat
  if b.toNat < 128 ∧ (c.isAlphanum ∨ c ∈ ['_', '.', '-', '~']) then [b.toNat]
  else if b.toNat = 32 then [43]
  else [37, upperHexChar (b.toNat / 16), upperHexChar (b.toNat % 16)]

/-- `quote_plus`. -/
def quotePlus (s : Points) : Points := (s.flatMap Points.encodePoint).flatMap quoteByte

/-- `urlencode`. -/
def urlencode (pairs : List (Points × Points)) : Points :=
  [38].intercalate (pairs.map fun pair => quotePlus pair.1 ++ 61 :: quotePlus pair.2)

/-- `render_query`. -/
def renderQuery (secrets : List Points) (raw : List UInt8) : Points :=
  if raw = [] then []
  else
    urlencode ((parseQsl (decodeReplace 0 raw)).map fun pair =>
      (pair.1, if pair.1 ∈ secrets then elideText pair.2 else pair.2))

/-! ### Headers -/

/-- `b"authorization"`. -/
def authorizationName : List UInt8 := "authorization".toList.map fun c => UInt8.ofNat c.toNat

/-- `_header` of the authorization. -/
def authorization (headers : List (List UInt8 × List UInt8)) : Option (List UInt8) := headers.lookup authorizationName

/-- `render_authorization`. -/
def renderAuthorization (header : Option (List Char)) : List Char :=
  match header with
  | none => "none".toList
  | some header =>
    if header = [] then "none".toList
    else
      let (scheme, _, rest) := Py.partition ' ' header
      if rest = [] then scheme else scheme ++ ' ' :: (rest.take prefixLength ++ "…".toList)

/-! ### The trace -/

/-- What a request and its response leave for the trace. -/
structure Exchange where
  method : Points
  path : Points
  queryString : List UInt8
  headers : List (List UInt8 × List UInt8)
  status : ℕ
  request : Body
  response : Body

/-- `target`. -/
def Exchange.target (e : Exchange) : Points :=
  let query := renderQuery (secretsFor e.path) e.queryString
  if query = [] then e.path else e.path ++ 63 :: query

/-- The line of an exchange, with its authorization and its bodies as they are rendered. -/
def Exchange.line (e : Exchange) (auth request response : Points) : Points :=
  (e.method ++ 32 :: e.target ++ Points.ofString " -> " ++
    (if e.status = 0 then Points.ofString "(no response)" else digits e.status) ++ Points.ofString " auth=") ++ auth ++
    (Points.ofString "\n    request : " ++ request ++ (Points.ofString "\n    response: " ++ response))

/-- An exchange is traced. -/
def Exchange.isTraced (debug : Bool) (e : Exchange) : Bool := debug && !(Points.ofString "/static/").isPrefixOf e.path

/-- The lines that are written for an exchange, at a level and for an interpreter that bears so many calls. -/
def trace (debug : Bool) (bears : ℕ) (e : Exchange) : Except JsonText.LoadsError (List Points) :=
  if e.isTraced debug then do
    let auth := (renderAuthorization ((authorization e.headers).map Py.latin1)).map Char.toNat
    let request ← renderBody bears (secretsFor e.path) e.request
    let response ← renderBody bears (secretsFor e.path) e.response
    return [e.line auth request response]
  else return []

end FxaLite.Middleware
