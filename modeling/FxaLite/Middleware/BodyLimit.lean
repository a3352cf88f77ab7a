import FxaLite.Lib.PyText
import Mathlib.Tactic.Linarith

/-!
# The limit on request bodies

`middleware.py`: a body is measured before the application sees any of it. A declared length is
believed, since the server is to deliver no more than that; a body that declares none is read and
counted, and what was read is replayed. The server's framing is a relation between the headers of
a request and what can be received with it.
-/

namespace FxaLite.Middleware

/-- A string of bytes. -/
abbrev Bytes := List UInt8

/-- A message of the ASGI server: a chunk of the body, or another one, such as `http.disconnect`. -/
inductive Message where
  | request (body : Option Bytes) (moreBody : Option Bool)
  | disconnect
  deriving DecidableEq, Repr

/-- The bytes of the body that a message brings. -/
def Message.body : Message → Bytes
  | request body _ => body.getD []
  | disconnect => []

/-- The size of what some messages bring. -/
def total (messages : List Message) : ℕ := (messages.map fun message => message.body.length).sum

/-- The names and values of headers. -/
abbrev Headers := List (Bytes × Bytes)

/-- The parts of an ASGI scope that are read. -/
structure Scope where
  type : String
  path : String
  headers : Headers
  deriving DecidableEq, Repr

/-! ### Headers -/

/-- The bytes of an ASCII text. -/
def asciiBytes (s : String) : Bytes := s.toList.map fun c => UInt8.ofNat c.toNat

/-- `bytes.lower()`. -/
def lowerBytes (bytes : Bytes) : Bytes := bytes.map fun b => if 65 ≤ b ∧ b ≤ 90 then b + 32 else b

/-- The values of the headers of a name. -/
def headerValues (headers : Headers) (name : String) : List (List Char) :=
  (headers.filter fun header => lowerBytes header.1 = asciiBytes name).map fun header => Py.latin1 header.2

/-- `_header`: the first of them. -/
def header (headers : Headers) (name : String) : Option (List Char) := (headerValues headers name).head?

/-- `_content_length`. -/
def contentLength (headers : Headers) : Option ℤ := (header headers "content-length").bind Py.int

/-- `_has_body`. -/
def hasBody (headers : Headers) : Bool := (header headers "transfer-encoding").isSome

/-! ### The limit -/

/-- `BodyLimit`. -/
structure BodyLimit where
  storagePrefix : String := "/storage"
  tokenserverPrefix : String := "/token"
  defaultLimit : ℕ := 64 * 1024
  storageLimit : ℕ := 2621440 + 4096

/-- Who answers on a path. -/
inductive Tier where
  | storage
  | tokenserver
  | accounts
  deriving DecidableEq, Repr

/-- `str.startswith`. -/
def startsWith (s start : String) : Bool := start.toList.isPrefixOf s.toList

/-- `limit_for`. -/
def BodyLimit.limitFor (limits : BodyLimit) (path : String) : ℕ :=
  if startsWith path (limits.storagePrefix ++ "/") then limits.storageLimit else limits.defaultLimit

/-- `_envelope`: whose parser has to read the refusal. -/
def BodyLimit.envelope (limits : BodyLimit) (path : String) : Tier :=
  if startsWith path (limits.storagePrefix ++ "/") then .storage
  else if startsWith path (limits.tokenserverPrefix ++ "/") then .tokenserver
  else .accounts

/-- What comes of reading a body; `waiting` is a client that has not finished. -/
inductive Buffered where
  | body (bytes : Bytes)
  | oversized
  | waiting
  deriving DecidableEq, Repr

/-- `_buffer`, with the size and the chunks so far. -/
def buffer (limit size : ℕ) (chunks : Bytes) : List Message → Buffered
  | [] => .waiting
  | .disconnect :: _ => .body chunks
  | .request body moreBody :: rest =>
    let chunk := body.getD []
    if limit < size + chunk.length then .oversized
    else if moreBody.getD false then buffer limit (size + chunk.length) (chunks ++ chunk) rest
    else .body (chunks ++ chunk)

/-- What the application receives from: the server itself, or `_replay`. -/
inductive Receive where
  | server (messages : List Message)
  | replay (body : Bytes)
  deriving DecidableEq, Repr

/-- The answers to the first calls of it. -/
def Receive.first : Receive → ℕ → List Message
  | server messages, n => messages.take n
  | replay _, 0 => []
  | replay body, n + 1 => .request (some body) (some false) :: List.replicate n .disconnect

/-- What becomes of a request. -/
inductive Outcome where
  | refused (tier : Tier)
  | waiting
  | started (receive : Receive)
  deriving DecidableEq, Repr

/-- `__call__`. -/
def BodyLimit.call (limits : BodyLimit) (scope : Scope) (messages : List Message) : Outcome :=
  if scope.type ≠ "http" then .started (.server messages)
  else
    let limit := limits.limitFor scope.path
    match contentLength scope.headers with
    | some declared =>
      if (limit : ℤ) < declared then .refused (limits.envelope scope.path) else .started (.server messages)
    | none =>
      if !hasBody scope.headers then .started (.server messages)
      else
        match buffer limit 0 [] messages with
        | .oversized => .refused (limits.envelope scope.path)
        | .body bytes => .started (.replay bytes)
        | .waiting => .waiting

/-! ### Framing -/

/-- The length that a server reads off a `Content-Length`: a number in decimal digits. -/
def wireLength (value : List Char) : Option ℕ :=
  if value ≠ [] ∧ value.all Char.isDigit then some (Nat.ofDigitChars 10 value 0) else none

/-- What can be received with some headers. A transfer encoding ends the body wherever its chunks
do, whatever length is declared with it; without one the body is no longer than a declared length,
which is a number, and empty if there is none. -/
def Framed (headers : Headers) (messages : List Message) : Prop :=
  hasBody headers = true ∨
    ((∀ value ∈ headerValues headers "content-length", ∃ n, wireLength value = some n ∧ total messages ≤ n) ∧
      (headerValues headers "content-length" = [] → total messages = 0))

/-- Headers for which the body is not measured: a length that is read and acceptable together with
a transfer encoding, and a length that cannot be read without one. -/
def Unmeasured (limit : ℕ) (headers : Headers) : Prop :=
  match contentLength headers with
  | some declared => declared ≤ limit ∧ hasBody headers = true
  | none => hasBody headers = false ∧ (header headers "content-length").isSome = true

/-- The application is never handed more than the limit of the path. -/
def BodyLimit.Bounded (limits : BodyLimit) (path : String) (headers : Headers) (messages : List Message) : Prop :=
  ∀ receive, limits.call ⟨"http", path, headers⟩ messages = .started receive →
    ∀ n, total (receive.first n) ≤ limits.limitFor path

/-! ### What the application is handed -/

section Bound

variable {limits : BodyLimit} {path : String} {headers : Headers} {messages : List Message} {limit : ℕ}

/-- Fewer messages bring less. -/
theorem total_take_le (messages : List Message) (n : ℕ) : total (messages.take n) ≤ total messages := by
  have hsplit : total messages = total (messages.take n) + total (messages.drop n) := by
    rw [total, total, total, ← List.sum_append, ← List.map_append, List.take_append_drop]
  omega

/-- What a single chunk brings. -/
theorem total_singleton (body : Bytes) (moreBody : Option Bool) :
    total [.request (some body) moreBody] = body.length := by
  simp [total, Message.body]

/-- A replay hands out what was read, once. -/
theorem total_first_replay_le (body : Bytes) (n : ℕ) : total ((Receive.replay body).first n) ≤ body.length := by
  cases n with
  | zero => exact Nat.zero_le _
  | succ n => simp [Receive.first, total, Message.body]

/-- What is read does not pass the limit. -/
theorem length_le_of_buffer {size : ℕ} {chunks bytes : Bytes} (h : buffer limit size chunks messages = .body bytes)
    (hsize : chunks.length = size) (hlimit : size ≤ limit) : bytes.length ≤ limit := by
  induction messages generalizing size chunks with
  | nil => cases h
  | cons message rest ih =>
    cases message with
    | disconnect =>
      cases h
      exact hsize.trans_le hlimit
    | request body moreBody =>
      simp only [buffer] at h
      have hnext : (chunks ++ body.getD []).length = size + (body.getD []).length := by rw [List.length_append, hsize]
      split at h
      · cases h
      · rename_i hfits
        split at h
        · exact ih h hnext (not_lt.mp hfits)
        · cases h
          exact hnext.trans_le (not_lt.mp hfits)

/-- Without a transfer encoding, a length that is read is one the server keeps to. -/
theorem total_le_of_contentLength {declared : ℤ} (hframed : Framed headers messages) (hbody : hasBody headers = false)
    (h : contentLength headers = some declared) : (total messages : ℤ) ≤ declared := by
  obtain ⟨value, hvalue, hint⟩ := Option.bind_eq_some_iff.mp h
  have hmem : value ∈ headerValues headers "content-length" := List.mem_of_mem_head? hvalue
  obtain ⟨n, hwire, hle⟩ := (hframed.resolve_left (by simp [hbody])).1 value hmem
  unfold wireLength at hwire
  split at hwire
  · rename_i hdigits
    rw [Py.int_digits hdigits.1 fun c hc => List.all_eq_true.mp hdigits.2 c hc] at hint
    split at hint
    · cases hint
    · cases hwire
      cases hint
      exact_mod_cast hle
  · cases hwire

/-- An application that is handed what the server delivers is handed all of it. -/
theorem bounded_server (h : limits.call ⟨"http", path, headers⟩ messages = .started (.server messages)) :
    limits.Bounded path headers messages ↔ total messages ≤ limits.limitFor path := by
  constructor
  · intro hbounded
    have hall := hbounded _ h messages.length
    rwa [Receive.first, List.take_length] at hall
  · intro hle receive hreceive n
    cases h.symm.trans hreceive
    exact (total_take_le messages n).trans hle

/-- The application is handed more than the limit of its path exactly when the body is larger than
that and the headers are such that it is not measured. -/
theorem bounded_iff (hframed : Framed headers messages) :
    limits.Bounded path headers messages ↔
      ¬(Unmeasured (limits.limitFor path) headers ∧ limits.limitFor path < total messages) := by
  cases hlength : contentLength headers with
  | some declared =>
    simp only [Unmeasured, hlength]
    by_cases hover : (limits.limitFor path : ℤ) < declared
    · have hcall : limits.call ⟨"http", path, headers⟩ messages = .refused (limits.envelope path) := by
        simp [BodyLimit.call, hlength, hover]
      have hbounded : limits.Bounded path headers messages := fun receive hreceive => nomatch hcall.symm.trans hreceive
      simp [hbounded, hover.not_ge]
    · have hcall : limits.call ⟨"http", path, headers⟩ messages = .started (.server messages) := by
        simp [BodyLimit.call, hlength, hover]
      rw [bounded_server hcall]
      cases hbody : hasBody headers with
      | true => simp [not_lt.mp hover]
      | false =>
        have hle := total_le_of_contentLength hframed hbody hlength
        have hfits : total messages ≤ limits.limitFor path := by omega
        simp [hfits]
  | none =>
    simp only [Unmeasured, hlength]
    cases hbody : hasBody headers with
    | false =>
      have hcall : limits.call ⟨"http", path, headers⟩ messages = .started (.server messages) := by
        simp [BodyLimit.call, hlength, hbody]
      rw [bounded_server hcall]
      cases hheader : header headers "content-length" with
      | some value => simp
      | none =>
        have hempty : total messages = 0 :=
          (hframed.resolve_left (by simp [hbody])).2 (List.head?_eq_none_iff.mp hheader)
        simp [hempty]
    | true =>
      have hbounded : limits.Bounded path headers messages := by
        intro receive hreceive n
        simp only [BodyLimit.call, ne_eq, not_true, if_false, hlength, hbody, Bool.not_true, Bool.false_eq_true] at hreceive
        split at hreceive
        · cases hreceive
        · rename_i bytes hbuffer
          cases hreceive
          exact (total_first_replay_le bytes n).trans (length_le_of_buffer hbuffer rfl (Nat.zero_le _))
        · cases hreceive
      simp [hbounded]

/-- Headers with a short length and a chunked body that goes past the limit of every other tier. -/
def smuggled : Headers := [(asciiBytes "content-length", asciiBytes "10"), (asciiBytes "transfer-encoding", asciiBytes "chunked")]

/-- What is allowed with these headers. -/
theorem bounded_iff_sample :
    BodyLimit.Bounded {} "/v1/account/login" smuggled [.request (some [1]) none] ↔
      ¬(Unmeasured (BodyLimit.limitFor {} "/v1/account/login") smuggled ∧
        BodyLimit.limitFor {} "/v1/account/login" < total [.request (some [1]) none]) :=
  bounded_iff (Or.inl (by decide))

/-- The application behind is handed a body of one byte more than its limit. -/
theorem bounded_smuggled :
    Framed smuggled [.request (some (List.replicate 65537 97)) none] ∧
      ¬BodyLimit.Bounded {} "/v1/account/login" smuggled [.request (some (List.replicate 65537 97)) none] := by
  refine ⟨Or.inl (by decide), fun hbounded => ?_⟩
  have hlimit : BodyLimit.limitFor {} "/v1/account/login" = 65536 := by decide
  have hall := (bounded_server rfl).mp hbounded
  rw [total_singleton, List.length_replicate, hlimit] at hall
  omega

end Bound

/-! ### What a replay makes of it -/

/-- How a body ends for whoever reads it. -/
inductive Ending where
  | complete
  | disconnected
  | waiting
  deriving DecidableEq, Repr

/-- What some messages are to whoever reads a body to its end: its bytes, and how it ends. -/
def readBody : List Message → Bytes × Ending
  | [] => ([], .waiting)
  | .disconnect :: _ => ([], .disconnected)
  | .request body moreBody :: rest =>
    if moreBody.getD false then (body.getD [] ++ (readBody rest).1, (readBody rest).2) else (body.getD [], .complete)

/-- What is received is what was sent: the same bytes, not complete before the client's last chunk,
and cut short where the client was. -/
structure Faithful (sent received : List Message) : Prop where
  bytes : (readBody received).1 = (readBody sent).1
  complete : (readBody received).2 = .complete → (readBody sent).2 = .complete
  disconnected : (readBody sent).2 = .disconnected → (readBody received).2 = .disconnected

/-- An application that asks often enough receives what was sent. -/
def BodyLimit.Replays (limits : BodyLimit) (path : String) (headers : Headers) (messages : List Message) : Prop :=
  ∀ receive, limits.call ⟨"http", path, headers⟩ messages = .started receive →
    ∀ n, messages.length < n → Faithful messages (receive.first n)

/-- Headers for which the body is counted while it is read. -/
def Counted (headers : Headers) : Prop := contentLength headers = none ∧ hasBody headers = true

section Replay

variable {limits : BodyLimit} {path : String} {headers : Headers} {messages : List Message} {limit : ℕ}

/-- Within the limit, reading a body ends with its bytes unless it does not end. -/
theorem buffer_eq {size : ℕ} (chunks : Bytes) (hfits : size + total messages ≤ limit) :
    buffer limit size chunks messages =
      if (readBody messages).2 = .waiting then .waiting else .body (chunks ++ (readBody messages).1) := by
  induction messages generalizing size chunks with
  | nil => rfl
  | cons message rest ih =>
    cases message with
    | disconnect => simp [buffer, readBody]
    | request body moreBody =>
      have hsplit : total (.request body moreBody :: rest) = (body.getD []).length + total rest := by
        simp [total, Message.body]
      have hchunk : ¬limit < size + (body.getD []).length := by omega
      simp only [buffer, readBody, if_neg hchunk]
      by_cases hmore : moreBody.getD false = true
      · simp only [if_pos hmore]
        rw [ih _ (by omega), List.append_assoc]
      · simp [if_neg hmore]

/-- What is replayed is always complete. -/
theorem readBody_first_replay (body : Bytes) (n : ℕ) : readBody ((Receive.replay body).first (n + 1)) = (body, .complete) :=
  rfl

/-- What the server delivers is received as it is. -/
theorem replays_server (h : limits.call ⟨"http", path, headers⟩ messages = .started (.server messages)) :
    limits.Replays path headers messages := by
  intro receive hreceive n hn
  cases h.symm.trans hreceive
  rw [Receive.first, List.take_of_length_le hn.le]
  exact ⟨rfl, id, id⟩

/-- Within the limit, the application receives what was sent exactly when the body is not counted,
or the client does not disconnect in the middle of it. -/
theorem replays_iff (hsize : total messages ≤ limits.limitFor path) :
    limits.Replays path headers messages ↔ ¬(Counted headers ∧ (readBody messages).2 = .disconnected) := by
  by_cases hcounted : Counted headers
  · have hcall : limits.call ⟨"http", path, headers⟩ messages =
        if (readBody messages).2 = .waiting then .waiting else .started (.replay (readBody messages).1) := by
      simp only [BodyLimit.call, ne_eq, not_true, if_false, hcounted.1, hcounted.2, Bool.not_true, Bool.false_eq_true]
      rw [buffer_eq [] (by rwa [Nat.zero_add])]
      by_cases hwaiting : (readBody messages).2 = .waiting <;> simp [hwaiting]
    simp only [hcounted, true_and]
    cases hending : (readBody messages).2 with
    | waiting =>
      rw [hending, if_pos rfl] at hcall
      have hreplays : limits.Replays path headers messages := fun receive hreceive => nomatch hcall.symm.trans hreceive
      simp [hreplays]
    | complete =>
      rw [hending, if_neg (by decide)] at hcall
      have hreplays : limits.Replays path headers messages := by
        intro receive hreceive n hn
        cases hcall.symm.trans hreceive
        obtain ⟨n, rfl⟩ := Nat.exists_eq_succ_of_ne_zero (Nat.ne_zero_of_lt hn)
        exact ⟨rfl, fun _ => hending, fun hcut => nomatch hending.symm.trans hcut⟩
      simp [hreplays]
    | disconnected =>
      rw [hending, if_neg (by decide)] at hcall
      have hnot : ¬limits.Replays path headers messages := by
        intro hreplays
        have hcut := (hreplays _ hcall (messages.length + 1) (Nat.lt_succ_self _)).disconnected hending
        rw [readBody_first_replay] at hcut
        cases hcut
      simp [hnot]
  · have hreplays : limits.Replays path headers messages := by
      cases hlength : contentLength headers with
      | some declared =>
        by_cases hover : (limits.limitFor path : ℤ) < declared
        · intro receive hreceive
          simp [BodyLimit.call, hlength, hover] at hreceive
        · exact replays_server (by simp [BodyLimit.call, hlength, hover])
      | none =>
        have hbody : hasBody headers = false := by simpa [Counted, hlength] using hcounted
        exact replays_server (by simp [BodyLimit.call, hlength, hbody])
    simp [hcounted, hreplays]

/-- A chunked body that ends well. -/
theorem replays_iff_sample :
    BodyLimit.Replays {} "/storage/1.5/1/storage/a" [(asciiBytes "transfer-encoding", asciiBytes "chunked")]
        [.request (some [1, 2]) (some true), .request (some [3]) none] ↔
      ¬(Counted [(asciiBytes "transfer-encoding", asciiBytes "chunked")] ∧
        (readBody [.request (some [1, 2]) (some true), .request (some [3]) none]).2 = .disconnected) :=
  replays_iff (by decide)

/-- A client that gives up in the middle of its lines is taken to have sent all of them. -/
theorem replays_truncated :
    total [.request (some (asciiBytes "line\n")) (some true), .disconnect] ≤ BodyLimit.limitFor {} "/storage/1.5/1/storage/a" ∧
      ¬BodyLimit.Replays {} "/storage/1.5/1/storage/a" [(asciiBytes "transfer-encoding", asciiBytes "chunked")]
        [.request (some (asciiBytes "line\n")) (some true), .disconnect] := by
  refine ⟨by decide, fun hreplays => ?_⟩
  have hcut := (hreplays (.replay (asciiBytes "line\n")) (by decide) 3 (by decide)).disconnected (by decide)
  exact absurd hcut (by decide)

end Replay

end FxaLite.Middleware
