import FxaLite.Crypto.Hkdf
import FxaLite.Lib.Base64
import FxaLite.Lib.Points
import FxaLite.Lib.PyText

/-!
# HAWK

`hawk.py`: the `Authorization` header of a storage request is parsed, the string it was signed
over is put together again, and the signature over it is compared. The strings may be of characters
or of code points: one that holds a lone surrogate is parsed like any other, but cannot be encoded.
A header that is written attribute by attribute, in any order, is parsed into what was written.
-/

namespace FxaLite.SyncStorage.Hawk

open Crypto
open Py (StrChar)

/-- `MAX_SKEW_SECONDS`. -/
def maxSkewSeconds : ℕ := 52 * 7 * 24 * 60 * 60

/-- The reasons of a `HawkError`, those `credentials.py` raises included. -/
inductive HawkError where
  | notHawk
  | missingAttributes (names : List String)
  | nonIntegerTs
  | outsideSkew
  | badMac
  | noBody
  | badPayloadHash
  | undecodableToken
  | tooShort
  | badSignature
  | notJson
  | notObject
  | missingClaim
  | malformedClaim
  | expired
  deriving DecidableEq, Repr

/-- What verifying a header may raise: a `HawkError`, or something nobody catches. -/
inductive Thrown where
  | hawk (error : HawkError)
  | uncaught
  deriving DecidableEq, Repr

/-- The parsed `Authorization` header. -/
structure HawkHeader (χ : Type := Char) where
  id : List χ
  ts : ℤ
  nonce : List χ
  mac : List χ
  hash : List χ := []
  ext : List χ := []
  deriving DecidableEq, Repr

/-- The request a header is verified against. -/
structure Target (χ : Type := Char) where
  method : List χ
  resource : List χ
  host : List Char
  port : ℤ
  deriving DecidableEq, Repr

/-! ### Parsing -/

section Parsing

variable {χ : Type} [StrChar χ]

/-- `str.partition`: what is before the first separator, and what is behind it. -/
def cut (sep : Char) (s : List χ) : List χ × List χ :=
  (s.takeWhile (StrChar.seen · ≠ sep), (s.dropWhile (StrChar.seen · ≠ sep)).drop 1)

/-- `[a-z]`. -/
def isKeyChar (c : Char) : Bool := 'a' ≤ c && c ≤ 'z'

/-- `[^"\\]`. -/
def isValueChar (c : Char) : Bool := c ≠ '"' && c ≠ '\\'

/-- What follows a character, where a text begins with it. -/
def expect (c : Char) : List χ → Option (List χ)
  | [] => none
  | d :: rest => if StrChar.seen d = c then some rest else none

/-- `_ATTRIBUTE_RE` at the beginning of a text, with what follows the match. No part of it can
stop where its first character could go on, so the longest choice is the only one. -/
def matchAttribute (s : List χ) : Option ((List Char × List χ) × List χ) := do
  let key := (s.map StrChar.seen).takeWhile isKeyChar
  if key = [] then none
  else do
    let rest ← expect '=' ((s.drop key.length).dropWhile (Py.isSpace <| StrChar.seen ·))
    let rest ← expect '"' (rest.dropWhile (Py.isSpace <| StrChar.seen ·))
    let after ← expect '"' (rest.dropWhile (isValueChar <| StrChar.seen ·))
    some ((key, rest.takeWhile (isValueChar <| StrChar.seen ·)), after)

/-- `_ATTRIBUTE_RE.finditer`, of a text no longer than the bound. -/
def findAttributes : ℕ → List χ → List (List Char × List χ)
  | _, [] => []
  | 0, _ :: _ => []
  | bound + 1, c :: rest =>
    match matchAttribute (c :: rest) with
    | some (pair, after) => pair :: findAttributes bound after
    | none => findAttributes bound rest

/-- The dictionary of the attributes: the last of a name counts. -/
def valueOf (attributes : List (List Char × List χ)) (name : String) : Option (List χ) :=
  attributes.reverse.lookup name.toList

/-- `parse`. -/
def parse (header : List χ) : Except HawkError (HawkHeader χ) :=
  match cut ' ' header with
  | (scheme, rest) =>
    if Py.lower (scheme.map StrChar.seen) ≠ "hawk".toList || (Py.strip (rest.map StrChar.seen)).isEmpty then .error .notHawk
    else
      let attributes := findAttributes rest.length rest
      match valueOf attributes "id", valueOf attributes "ts", valueOf attributes "nonce",
        valueOf attributes "mac" with
      | some id, some ts, some nonce, some mac =>
        match Py.int (ts.map StrChar.seen) with
        | none => .error .nonIntegerTs
        | some ts =>
          .ok
            { id := id
              ts := ts
              nonce := nonce
              mac := mac
              hash := (valueOf attributes "hash").getD []
              ext := (valueOf attributes "ext").getD [] }
      | _, _, _, _ =>
        .error (.missingAttributes (["id", "mac", "nonce", "ts"].filter fun name => (valueOf attributes name).isNone))

end Parsing

/-! ### The signature -/

section Signature

variable (h : Sha256) {χ : Type} [StrChar χ]

/-- `normalized`; `none` is a `ValueError`, for a number with too many digits or a string that cannot be encoded. -/
def normalized (header : HawkHeader χ) (target : Target χ) : Option (List UInt8) := do
  let ts ← Py.intStr header.ts
  let port ← Py.intStr target.port
  let nonce ← StrChar.text? header.nonce
  let method ← StrChar.text? target.method
  let resource ← StrChar.text? target.resource
  let hash ← StrChar.text? header.hash
  let ext ← StrChar.text? header.ext
  some (utf8 (['\n'].intercalate
    ["hawk.1.header".toList, ts, nonce, Py.upper method, resource, Py.lower target.host, port, hash, ext] ++ ['\n']))

/-- `mac`; `none` is an exception, of `normalized` or for a key that is not ASCII. -/
def mac (key : List Char) (header : HawkHeader χ) (target : Target χ) : Option (List Char) := do
  let message ← normalized header target
  let key ← ascii key
  some (Base64.encode (h.hmac key message))

/-- The media type that takes part in a payload hash. -/
def mediaType (contentType : List Char) : List Char := Py.lower (Py.strip (Py.partition ';' contentType).1)

/-- The bytes that a payload hash is taken over. -/
def payloadInput (body : List UInt8) (contentType : List Char) : List UInt8 :=
  utf8 ("hawk.1.payload\n".toList ++ mediaType contentType ++ ['\n']) ++ body ++ utf8 ['\n']

/-- `payload_hash`; `none` is a `UnicodeEncodeError`. What follows the media type takes no part, and is not encoded. -/
def payloadHash (body : List UInt8) (contentType : List χ) : Option (List Char) :=
  (StrChar.text? (cut ';' contentType).1).map fun media => Base64.encode (h.sha256 (payloadInput body media))

/-- `hmac.compare_digest` of a string that is computed with one that was sent; `none` is an exception, of the
computation or for a string that is not ASCII. -/
def compareSent (computed : Option (List Char)) (sent : List χ) : Option Bool := do
  let computed ← computed
  let sent ← StrChar.text? sent
  compareDigest computed sent

/-- `verify`. -/
def verify (header : HawkHeader χ) (key : List Char) (target : Target χ) (now : ℤ) (body : Option (List UInt8))
    (contentType : List χ) : Except Thrown Unit :=
  if maxSkewSeconds < (now - header.ts).natAbs then .error (.hawk .outsideSkew)
  else
    match compareSent (mac h key header target) header.mac with
    | none => .error .uncaught
    | some false => .error (.hawk .badMac)
    | some true =>
      if header.hash = [] then .ok ()
      else
        match body with
        | none => .error (.hawk .noBody)
        | some body =>
          match compareSent (payloadHash h body contentType) header.hash with
          | none => .error .uncaught
          | some false => .error (.hawk .badPayloadHash)
          | some true => .ok ()

/-- A separator cuts characters as it parts them. -/
theorem cut_char (sep : Char) (s : List Char) : cut sep s = ((Py.partition sep s).1, (Py.partition sep s).2.2) := by
  induction s with
  | nil => rfl
  | cons c rest ih =>
    rw [cut, Prod.mk.injEq] at ih
    rw [cut, Py.partition_cons]
    split
    · rename_i hsep
      simp [hsep]
    · rename_i hne
      simp [hne, ← ih.1, ← ih.2]

/-- And compared, if they are ASCII. -/
theorem compareSent_char (computed : Option (List Char)) (sent : List Char) :
    compareSent computed sent = computed.bind (compareDigest · sent) := rfl

/-- What is encoded is ASCII, and can stand in quotes. -/
theorem isValueChar_of_mem_encode {bytes : List UInt8} {c : Char} (hc : c ∈ Base64.encode bytes) :
    isAscii c = true ∧ isValueChar c = true := by
  have hplain := (Base64.isPlain_encode hc).1
  simp only [Base64.isPlain, Bool.and_eq_true] at hplain
  exact ⟨hplain.1.1, by simp only [isValueChar, hplain.1.2, hplain.2, Bool.and_self]⟩

/-- A signature is the encoding of a digest. -/
theorem eq_encode_of_mac {key : List Char} {header : HawkHeader χ} {target : Target χ} {text : List Char}
    (hmac : mac h key header target = some text) : ∃ digest, text = Base64.encode digest := by
  simp only [mac, Option.bind_eq_bind, Option.bind_eq_some_iff, Option.some.injEq] at hmac
  obtain ⟨message, -, key, -, rfl⟩ := hmac
  exact ⟨_, rfl⟩

/-- So is a payload hash. -/
theorem eq_encode_of_payloadHash {body : List UInt8} {contentType : List χ} {text : List Char}
    (hhash : payloadHash h body contentType = some text) : ∃ digest, text = Base64.encode digest := by
  obtain ⟨media, -, rfl⟩ := Option.map_eq_some_iff.mp hhash
  exact ⟨_, rfl⟩

/-- Two encodings can be compared. -/
theorem compareDigest_encode (bytes : List UInt8) :
    compareDigest (Base64.encode bytes) (Base64.encode bytes) = some true :=
  compareDigest_self (List.all_eq_true.mpr fun _ hc => (isValueChar_of_mem_encode hc).1)

/-- A header that carries its own signature is verified, as long as its time is near and its hash, if
it has one, is that of the body. -/
theorem verify_signed {header : HawkHeader} {key : List Char} {target : Target} {now : ℤ} {body : Option (List UInt8)}
    {contentType : List Char} (hskew : (now - header.ts).natAbs ≤ maxSkewSeconds)
    (hmac : mac h key header target = some header.mac)
    (hhash : header.hash = [] ∨ ∃ payload, body = some payload ∧ payloadHash h payload contentType = some header.hash) :
    verify h header key target now body contentType = .ok () := by
  obtain ⟨digest, hdigest⟩ := eq_encode_of_mac h hmac
  have hcompare : compareDigest header.mac header.mac = some true := hdigest ▸ compareDigest_encode digest
  simp only [verify, if_neg (not_lt.mpr hskew), hmac, compareSent_char, Option.bind_some, hcompare]
  obtain hempty | ⟨payload, rfl, hpayload⟩ := hhash
  · rw [if_pos hempty]
  · obtain ⟨sum, hsum⟩ := eq_encode_of_payloadHash h hpayload
    have hsame : compareDigest header.hash header.hash = some true := hsum ▸ compareDigest_encode sum
    simp only [hpayload, Option.bind_some, hsame]
    split <;> rfl

end Signature

/-! ### A header that is written is parsed -/

/-- A header is written as the scheme and its attributes, in quotes and with commas between them. -/
def writeAttribute (pair : List Char × List Char) : List Char := pair.1 ++ '=' :: '"' :: (pair.2 ++ ['"'])

/-- The attributes of a header. -/
def writeAttributes (attributes : List (List Char × List Char)) : List Char :=
  [',', ' '].intercalate (attributes.map writeAttribute)

/-- A header. -/
def write (attributes : List (List Char × List Char)) : List Char := "Hawk ".toList ++ writeAttributes attributes

/-- A pair that can be written: a name in small letters, and a value that can stand in quotes. -/
structure IsWritable (pair : List Char × List Char) : Prop where
  name : pair.1 ≠ []
  keyChars : ∀ c ∈ pair.1, isKeyChar c = true
  valueChars : ∀ c ∈ pair.2, isValueChar c = true

/-- A written attribute is matched, up to its end. -/
theorem matchAttribute_writeAttribute {pair : List Char × List Char} (h : IsWritable pair) (rest : List Char) :
    matchAttribute (writeAttribute pair ++ rest) = some (pair, rest) := by
  obtain ⟨key, value⟩ := pair
  obtain ⟨hname, hkey, hvalue⟩ := h
  have htext : writeAttribute (key, value) ++ rest = key ++ '=' :: '"' :: (value ++ '"' :: rest) := by
    simp [writeAttribute]
  have heq : isKeyChar '=' = false := by decide
  have hspace : Py.isSpace '=' = false := by decide
  have hquote : Py.isSpace '"' = false := by decide
  have hend : isValueChar '"' = false := by decide
  have hread : (key ++ '=' :: '"' :: (value ++ '"' :: rest)).takeWhile isKeyChar = key := by
    rw [List.takeWhile_append_of_pos hkey, List.takeWhile_cons_of_neg (by simp [heq]), List.append_nil]
  rw [htext, matchAttribute, Py.map_seen_char, hread, if_neg hname, List.drop_left]
  simp [expect, hspace, hquote, hend, List.takeWhile_append_of_pos hvalue, List.dropWhile_append_of_pos hvalue]

/-- What begins with no letter of a name is passed over. -/
theorem findAttributes_cons {c : Char} (hc : isKeyChar c = false) (bound : ℕ) (rest : List Char) :
    findAttributes (bound + 1) (c :: rest) = findAttributes bound rest := by
  have hnone : (c :: rest).takeWhile isKeyChar = [] := List.takeWhile_cons_of_neg (by simp [hc])
  simp [findAttributes, matchAttribute, hnone]

/-- A written attribute is found, and then what follows it. -/
theorem findAttributes_writeAttribute {pair : List Char × List Char} (h : IsWritable pair) (bound : ℕ) (rest : List Char) :
    findAttributes (bound + 1) (writeAttribute pair ++ rest) = pair :: findAttributes bound rest := by
  have hmatch := matchAttribute_writeAttribute h rest
  cases htext : writeAttribute pair ++ rest with
  | nil => simp [writeAttribute] at htext
  | cons c text =>
    rw [htext] at hmatch
    simp only [findAttributes, hmatch]

/-- Written attributes are found. -/
theorem findAttributes_writeAttributes {attributes : List (List Char × List Char)} (h : ∀ pair ∈ attributes, IsWritable pair)
    {bound : ℕ} (hbound : (writeAttributes attributes).length ≤ bound) :
    findAttributes bound (writeAttributes attributes) = attributes := by
  induction attributes generalizing bound with
  | nil => simp [writeAttributes, findAttributes]
  | cons pair rest ih =>
    have hpair := h pair (by simp)
    have hlen : 3 ≤ (writeAttribute pair).length := by
      simp only [writeAttribute, List.length_append, List.length_cons]
      omega
    cases rest with
    | nil =>
      have hone : writeAttributes [pair] = writeAttribute pair ++ [] := by simp [writeAttributes]
      rw [hone, List.append_nil] at hbound
      obtain ⟨bound, rfl⟩ : ∃ b, bound = b + 1 := ⟨bound - 1, by omega⟩
      rw [hone, findAttributes_writeAttribute hpair, findAttributes]
    | cons next rest =>
      have htext : writeAttributes (pair :: next :: rest) =
          writeAttribute pair ++ ',' :: ' ' :: writeAttributes (next :: rest) := by
        simp [writeAttributes, List.intercalate_cons_cons]
      rw [htext] at hbound ⊢
      simp only [List.length_append, List.length_cons] at hbound
      obtain ⟨bound, rfl⟩ : ∃ b, bound = b + 3 := ⟨bound - 3, by omega⟩
      rw [findAttributes_writeAttribute hpair, findAttributes_cons (by decide), findAttributes_cons (by decide),
        ih (fun p hp => h p (by simp [hp])) (by omega)]

/-- Wherever there is an attribute, there is an equals sign. -/
theorem mem_writeAttributes {attributes : List (List Char × List Char)} (h : attributes ≠ []) :
    '=' ∈ writeAttributes attributes := by
  cases attributes with
  | nil => exact absurd rfl h
  | cons pair rest =>
    cases rest with
    | nil => simp [writeAttributes, writeAttribute]
    | cons next rest => simp [writeAttributes, writeAttribute, List.intercalate_cons_cons]

section Lookup

variable {attributes : List (List Char × List Char)} {name : String} {value : List Char}

/-- What stands under a name that occurs once is looked up. -/
theorem lookup_of_mem {key : List Char} (hnodup : (attributes.map Prod.fst).Nodup) (h : (key, value) ∈ attributes) :
    attributes.lookup key = some value := by
  induction attributes with
  | nil => cases h
  | cons pair rest ih =>
    rw [List.map_cons, List.nodup_cons] at hnodup
    rw [List.lookup_cons]
    obtain heq | hrest := List.mem_cons.mp h
    · simp [← heq]
    · have hne : (key == pair.1) = false :=
        beq_false_of_ne fun heq => hnodup.1 (heq ▸ List.mem_map_of_mem hrest)
      rw [hne]
      exact ih hnodup.2 hrest

/-- An attribute that stands there once is looked up. -/
theorem valueOf_of_mem (hnodup : (attributes.map Prod.fst).Nodup) (h : (name.toList, value) ∈ attributes) :
    valueOf attributes name = some value := by
  refine lookup_of_mem ?_ (List.mem_reverse.mpr h)
  rw [List.map_reverse]
  exact (List.reverse_perm _).nodup_iff.mpr hnodup

end Lookup

/-- An attribute that may be left out where it is empty. -/
def optional (name : String) (value : List Char) (omitted : Bool) : List (List Char × List Char) :=
  if omitted && value.isEmpty then [] else [(name.toList, value)]

/-- The attributes of a header, its time as `str` writes it. -/
def HawkHeader.attributes (header : HawkHeader) (ts : List Char) (omitHash omitExt : Bool) :
    List (List Char × List Char) :=
  [("id".toList, header.id), ("ts".toList, ts), ("nonce".toList, header.nonce), ("mac".toList, header.mac)] ++
    (optional "hash" header.hash omitHash ++ optional "ext" header.ext omitExt)

/-- A header whose values can stand in quotes. -/
structure HawkHeader.IsQuotable (header : HawkHeader) : Prop where
  id : ∀ c ∈ header.id, isValueChar c = true
  nonce : ∀ c ∈ header.nonce, isValueChar c = true
  mac : ∀ c ∈ header.mac, isValueChar c = true
  hash : ∀ c ∈ header.hash, isValueChar c = true
  ext : ∀ c ∈ header.ext, isValueChar c = true

section Written

variable {header : HawkHeader} {ts : List Char} {omitHash omitExt : Bool}

/-- What is left out is empty. -/
theorem mem_optional {name : String} {value : List Char} {omitted : Bool} {pair : List Char × List Char} :
    pair ∈ optional name value omitted ↔ pair = (name.toList, value) ∧ ¬(omitted = true ∧ value = []) := by
  simp only [optional, Bool.and_eq_true, List.isEmpty_iff]
  split
  · simp_all
  · simp_all

/-- No attribute of a header is written twice. -/
theorem HawkHeader.nodup_attributes :
    ((header.attributes ts omitHash omitExt).map Prod.fst).Nodup := by
  simp only [attributes, optional]
  split <;> split <;> simp

/-- The number is written in digits and a sign. -/
theorem isValueChar_of_mem_intStr {n : ℤ} {s : List Char} (h : Py.intStr n = some s) {c : Char} (hc : c ∈ s) :
    isValueChar c = true := by
  rw [Py.intStr, Option.ite_none_left_eq_some, Option.some.injEq] at h
  have hdigit : c = '-' ∨ c.isDigit = true := by
    obtain ⟨-, rfl⟩ := h
    split at hc
    · exact (List.mem_cons.mp hc).imp_right Py.isDigit_of_mem_str
    · exact Or.inr (Py.isDigit_of_mem_str hc)
  simp only [isValueChar, Bool.and_eq_true, decide_eq_true_eq]
  refine ⟨?_, ?_⟩ <;> (rintro rfl; revert hdigit; decide)

/-- The attributes of a header can be written. -/
theorem HawkHeader.isWritable_of_mem_attributes (hquotable : header.IsQuotable) (hts : Py.intStr header.ts = some ts)
    {pair : List Char × List Char} (h : pair ∈ header.attributes ts omitHash omitExt) : IsWritable pair := by
  have hrequired : ∀ {name : String} {value : List Char}, name.toList ≠ [] → name.toList.all isKeyChar = true →
      (∀ c ∈ value, isValueChar c = true) → IsWritable (name.toList, value) :=
    fun hname hkey hvalue => ⟨hname, List.all_eq_true.mp hkey, hvalue⟩
  simp only [attributes, List.mem_append, List.mem_cons, List.not_mem_nil, or_false] at h
  obtain (rfl | rfl | rfl | rfl) | h | h := h
  · exact hrequired (by decide) (by decide) hquotable.id
  · exact hrequired (by decide) (by decide) fun c hc => isValueChar_of_mem_intStr hts hc
  · exact hrequired (by decide) (by decide) hquotable.nonce
  · exact hrequired (by decide) (by decide) hquotable.mac
  · exact (mem_optional.mp h).1 ▸ hrequired (by decide) (by decide) hquotable.hash
  · exact (mem_optional.mp h).1 ▸ hrequired (by decide) (by decide) hquotable.ext

/-- An attribute that is left out is read as empty. -/
theorem getD_valueOf {attributes : List (List Char × List Char)} {name : String} {value : List Char}
    (hsome : ∀ other, (name.toList, other) ∈ attributes → other = value)
    (hnone : value ≠ [] → (name.toList, value) ∈ attributes) : (valueOf attributes name).getD [] = value := by
  cases hvalue : valueOf attributes name with
  | none =>
    by_contra hne
    have hpair := List.lookup_eq_none_iff.mp hvalue _ (List.mem_reverse.mpr (hnone (Ne.symm hne)))
    simp at hpair
  | some other =>
    obtain ⟨before, after, heq, -⟩ := List.lookup_eq_some_iff.mp hvalue
    refine hsome other (List.mem_reverse.mp ?_)
    simp [heq]

/-- A header that is written attribute by attribute, in any order, is parsed into what was written. -/
theorem parse_write {attributes : List (List Char × List Char)} (hquotable : header.IsQuotable)
    (hts : Py.intStr header.ts = some ts) (hperm : attributes.Perm (header.attributes ts omitHash omitExt)) :
    parse (write attributes) = .ok header := by
  have hnodup : (attributes.map Prod.fst).Nodup :=
    (hperm.map Prod.fst).nodup_iff.mpr HawkHeader.nodup_attributes
  have hwritable : ∀ pair ∈ attributes, IsWritable pair := fun pair hpair =>
    HawkHeader.isWritable_of_mem_attributes hquotable hts (hperm.subset hpair)
  have hvalue : ∀ {name : String} {value : List Char}, (name.toList, value) ∈ header.attributes ts omitHash omitExt →
      valueOf attributes name = some value := fun hmem => valueOf_of_mem hnodup (hperm.symm.subset hmem)
  have hid : valueOf attributes "id" = some header.id := hvalue (by simp [HawkHeader.attributes])
  have htime : valueOf attributes "ts" = some ts := hvalue (by simp [HawkHeader.attributes])
  have hnonce : valueOf attributes "nonce" = some header.nonce := hvalue (by simp [HawkHeader.attributes])
  have hmac : valueOf attributes "mac" = some header.mac := hvalue (by simp [HawkHeader.attributes])
  have hhash : (valueOf attributes "hash").getD [] = header.hash := by
    refine getD_valueOf (fun other hmem => ?_) fun hne => hperm.symm.subset ?_
    · have hin := hperm.subset hmem
      simp only [HawkHeader.attributes, List.mem_append, mem_optional] at hin
      simp at hin
      exact hin.1
    · simp [HawkHeader.attributes, mem_optional, hne]
  have hext : (valueOf attributes "ext").getD [] = header.ext := by
    refine getD_valueOf (fun other hmem => ?_) fun hne => hperm.symm.subset ?_
    · have hin := hperm.subset hmem
      simp only [HawkHeader.attributes, List.mem_append, mem_optional] at hin
      simp at hin
      exact hin.1
    · simp [HawkHeader.attributes, mem_optional, hne]
  have hcut : cut ' ' (write attributes) = ("Hawk".toList, writeAttributes attributes) := by
    have hpartition : Py.partition ' ' (write attributes) = ("Hawk".toList, true, writeAttributes attributes) :=
      Py.partition_append ' ' "Hawk".toList _ (by decide)
    rw [cut_char, hpartition]
  have hnonempty : attributes ≠ [] := by
    rintro rfl
    cases hid
  have hstrip : (Py.strip (writeAttributes attributes)).isEmpty = false :=
    List.isEmpty_eq_false_iff.mpr (Py.strip_ne_nil (mem_writeAttributes hnonempty) (by decide))
  have hscheme : Py.lower "Hawk".toList = "hawk".toList := by decide
  have hfind := findAttributes_writeAttributes hwritable le_rfl
  simp only [parse, hcut, Py.map_seen_char, hscheme, hstrip, hfind, hid, htime, hnonce, hmac, hhash, hext, Py.int_intStr hts]
  simp

end Written

end FxaLite.SyncStorage.Hawk
