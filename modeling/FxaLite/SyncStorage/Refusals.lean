import FxaLite.SyncStorage.Handshake

/-!
# What authentication raises

A client recovers from a 401 and from nothing else, so `authenticate` catches every `HawkError`. It
does not catch what `compare_digest` raises for a string that is not ASCII, what `encode` raises for a
lone surrogate, nor what `round` raises for an infinite expiry. All of these take a token with the
server's own signature, so they are behind every check of the token; a header that shows such a token
gets there with any signature at all.
-/

namespace FxaLite.SyncStorage

open Crypto Tokenserver Hawk
open Py (StrChar)

/-! ### Strings -/

section Strings

variable {χ : Type} [StrChar χ]

/-- A string of ASCII characters alone. -/
def AllAscii (s : List χ) : Prop := (StrChar.text? s).any (fun text => text.all isAscii) = true

instance decidableAllAscii (s : List χ) : Decidable (AllAscii s) := inferInstanceAs (Decidable (_ = true))

/-- A string without a lone surrogate. -/
def Encodable (s : List χ) : Prop := (StrChar.text? s).isSome = true

/-- The strings that a signature covers, without one. -/
def SignedEncodable (header : HawkHeader χ) (target : Target χ) : Prop :=
  Encodable header.nonce ∧ Encodable target.method ∧ Encodable target.resource ∧ Encodable header.hash ∧ Encodable header.ext

/-- A header carries its own signature. -/
def SignedWith (h : Sha256) (key : List Char) (header : HawkHeader χ) (target : Target χ) : Prop :=
  ∃ text, mac h key header target = some text ∧ StrChar.text? header.mac = some text

/-- Characters are ASCII one by one. -/
theorem allAscii_iff {s : List Char} : AllAscii s ↔ s.all isAscii = true := Iff.rfl

/-- What is encoded is ASCII. -/
theorem allAscii_encode (bytes : List UInt8) : AllAscii (Base64.encode bytes) :=
  allAscii_iff.mpr (List.all_eq_true.mpr fun _ hc => (isValueChar_of_mem_encode hc).1)

/-- A string of ASCII is a text of it. -/
theorem AllAscii.exists_text {s : List χ} (h : AllAscii s) : ∃ text, StrChar.text? s = some text ∧ AllAscii text :=
  (Option.any_eq_true _ _).mp h

/-- And only such a string is. -/
theorem AllAscii.of_text {s : List χ} {text : List Char} (htext : StrChar.text? s = some text) (h : AllAscii text) :
    AllAscii s := (Option.any_eq_true _ _).mpr ⟨text, htext, h⟩

/-- `compare_digest` raises for what is not ASCII. -/
theorem compareDigest_eq_none {a b : List Char} : compareDigest a b = none ↔ ¬(AllAscii a ∧ AllAscii b) := by
  simp only [compareDigest, allAscii_iff, ← Bool.and_eq_true]
  split
  · rename_i hboth
    simp [hboth]
  · rename_i hnot
    simpa using hnot

/-- What was sent cannot be compared if there is nothing to compare it with, or it is not ASCII. -/
theorem compareSent_eq_none {computed : Option (List Char)} {sent : List χ}
    (hcomputed : ∀ text, computed = some text → AllAscii text) :
    compareSent computed sent = none ↔ computed = none ∨ ¬AllAscii sent := by
  cases computed with
  | none => simp [compareSent]
  | some text =>
    have htext := hcomputed text rfl
    cases hsent : StrChar.text? sent with
    | none => simp [compareSent, hsent, AllAscii]
    | some sentText =>
      have hascii : AllAscii sent ↔ AllAscii sentText :=
        ⟨fun h => by
          obtain ⟨other, hother, hall⟩ := h.exists_text
          cases hsent.symm.trans hother
          exact hall, AllAscii.of_text hsent⟩
      have hcompare : compareSent (some text) sent = compareDigest text sentText := by simp [compareSent, hsent]
      rw [hcompare, compareDigest_eq_none, hascii]
      simp [htext]

/-- It is right if it is the same. -/
theorem compareSent_eq_true {computed : Option (List Char)} {sent : List χ}
    (hcomputed : ∀ text, computed = some text → AllAscii text) :
    compareSent computed sent = some true ↔ ∃ text, computed = some text ∧ StrChar.text? sent = some text := by
  simp only [compareSent, Option.bind_eq_bind, Option.bind_eq_some_iff]
  constructor
  · rintro ⟨text, htext, sentText, hsent, hcompare⟩
    rw [compareDigest, Option.ite_none_right_eq_some] at hcompare
    have hsame : text = sentText := by simpa using hcompare.2
    exact ⟨text, htext, hsame ▸ hsent⟩
  · rintro ⟨text, htext, hsent⟩
    exact ⟨text, htext, text, hsent, compareDigest_self (allAscii_iff.mp (hcomputed text htext))⟩

end Strings

/-! ### What escapes -/

section Escapes

variable (h : Sha256) (i : Interpreter) {χ : Type} [StrChar χ]

/-- The claims of a token that bears the server's signature. -/
def signedClaims (token : List χ) (secret : List Char) : Option Claims := do
  let token ← StrChar.text? token
  let raw ← Base64.urlsafeDecode (padded token)
  if raw.length ≤ macLength then none
  else if h.hmac (signingKey h secret) (raw.take (raw.length - macLength)) ≠ raw.drop (raw.length - macLength) then none
  else
    match i.loads (raw.take (raw.length - macLength)) with
    | some (.obj claims) => some claims
    | _ => none

/-- Claims with an expiry that is too large for an integer or a double. -/
def ExpiryOverflows (claims : Claims) : Prop :=
  (claims.lookup "uid".toList).isSome ∧ (claims.lookup "salt".toList).isSome ∧
    ∃ expires, claims.lookup "expires".toList = some expires ∧ (floatOf i expires).bind Double.round = .error .overflow

/-- What escapes the verification of a header under a key: a string that the signature covers holds a
surrogate; or the signature is not ASCII; or, behind a right signature, the hash is not, or the media type
of the body that it is of holds a surrogate. -/
def VerificationEscapes (key : List Char) (header : HawkHeader χ) (request : Presented χ) : Prop :=
  ¬SignedEncodable header request.target ∨ ¬AllAscii header.mac ∨
    header.hash ≠ [] ∧ request.body ≠ none ∧ (¬AllAscii header.hash ∨ ¬Encodable (cut ';' request.contentType).1) ∧
      SignedWith h key header request.target

/-- A header under which something escapes `authenticate`: it shows a token with the server's
signature, and either the claims overflow, or the token is live and its salt is not ASCII, or the time of
the header is near and something escapes its verification. -/
def Escapes (header : List χ) (secret : List Char) (request : Presented χ) (path : List χ) (now : ℤ) : Prop :=
  ∃ parsed, parse header = .ok parsed ∧
    ((∃ claims, signedClaims h i parsed.id secret = some claims ∧ ExpiryOverflows i claims) ∨
      ∃ credentials, parseToken h i parsed.id secret = .ok credentials ∧
        (exemptFromExpiry (path.map StrChar.seen) = true ∨ now < credentials.expires) ∧
        (¬AllAscii credentials.salt ∨
          ∃ key, keyOf h parsed.id credentials.salt secret = some key ∧
            (now - parsed.ts).natAbs ≤ maxSkewSeconds ∧ VerificationEscapes h key parsed request))

end Escapes

/-! ### The steps -/

section Steps

variable {h : Sha256} {i : Interpreter} {χ : Type} [StrChar χ] {header : HawkHeader χ} {target : Target χ}
  {secret key : List Char}

/-- What was parsed has a time that can be written. -/
theorem exists_intStr_of_parse {text : List χ} (hparse : parse text = .ok header) :
    ∃ ts, Py.intStr header.ts = some ts := by
  unfold parse at hparse
  dsimp only at hparse
  split at hparse
  · cases hparse
  · split at hparse
    · split at hparse
      · cases hparse
      · rename_i hts
        obtain rfl := Except.ok.inj hparse
        exact Py.exists_intStr_of_int hts
    · cases hparse

/-- A port of an origin is of five digits. -/
theorem exists_intStr_port {url : List Char} {origin : Origin} (horigin : Origin.parse url = some origin) :
    ∃ port, Py.intStr origin.port = some port := by
  have hshort : ∀ n : ℤ, (∃ s, Py.int s = some n) ∨ n = 443 ∨ n = 80 → ∃ port, Py.intStr n = some port := by
    rintro n (⟨s, hs⟩ | rfl | rfl)
    · exact Py.exists_intStr_of_int hs
    · exact ⟨"443".toList, by decide⟩
    · exact ⟨"80".toList, by decide⟩
  refine hshort _ ?_
  unfold Origin.parse at horigin
  split at horigin
  · cases horigin
  · dsimp only at horigin
    split at horigin
    · cases horigin
    · rename_i port hport
      obtain rfl := Option.some.inj horigin
      unfold Url.port at hport
      dsimp only at hport
      split at hport
      · cases hport
      · split at hport
        · split at hport
          · rename_i n hn
            split at hport
            · obtain rfl := Option.some.inj (Option.some.inj hport)
              exact Or.inl ⟨_, hn⟩
            · cases hport
          · cases hport
        · cases hport
    · obtain rfl := Option.some.inj horigin
      dsimp only
      split
      · exact Or.inr (Or.inl rfl)
      · exact Or.inr (Or.inr rfl)

/-- A derived key is ASCII. -/
theorem exists_ascii_of_keyOf {token : List χ} {salt : List Char} (hkey : keyOf h token salt secret = some key) :
    ∃ bytes, ascii key = some bytes := by
  obtain ⟨text, -, hkey⟩ := Option.bind_eq_some_iff.mp hkey
  exact exists_ascii fun c hc => isAscii_of_mem_deriveSecret hkey hc

/-- There is none for a salt that is not. -/
theorem keyOf_eq_none {token : List χ} {salt : List Char} (htoken : AllAscii token) :
    keyOf h token salt secret = none ↔ ¬AllAscii salt := by
  obtain ⟨text, htext, hascii⟩ := htoken.exists_text
  obtain ⟨tokenBytes, htokenBytes⟩ := exists_ascii (List.all_eq_true.mp (allAscii_iff.mp hascii))
  rw [keyOf, htext, Option.bind_some, allAscii_iff]
  by_cases hsalt : salt.all isAscii = true
  · obtain ⟨saltBytes, hsaltBytes⟩ := exists_ascii (List.all_eq_true.mp hsalt)
    simp [deriveSecret, htokenBytes, hsaltBytes, hsalt]
  · have hnone : ascii salt = none := if_neg hsalt
    simp [deriveSecret, htokenBytes, hnone, hsalt]

/-- With a key and numbers that can be written, there is a signature of what can be encoded. -/
theorem mac_eq_none {ts port : List Char} {bytes : List UInt8} (hts : Py.intStr header.ts = some ts)
    (hport : Py.intStr target.port = some port) (hkey : ascii key = some bytes) :
    mac h key header target = none ↔ ¬SignedEncodable header target := by
  simp only [mac, normalized, hts, hport, hkey, SignedEncodable, Encodable, Option.bind_eq_bind, Option.bind_some,
    Option.bind_eq_none_iff, Option.isSome_iff_exists]
  constructor
  · rintro hnone ⟨⟨nonce, hnonce⟩, ⟨method, hmethod⟩, ⟨resource, hresource⟩, ⟨hash, hhash⟩, ⟨ext, hext⟩⟩
    simp [hnonce, hmethod, hresource, hhash, hext] at hnone
  · intro hnot message hmessage
    simp only [Option.bind_eq_some_iff] at hmessage
    obtain ⟨nonce, hnonce, method, hmethod, resource, hresource, hash, hhash, ext, hext, -⟩ := hmessage
    exact absurd ⟨⟨nonce, hnonce⟩, ⟨method, hmethod⟩, ⟨resource, hresource⟩, ⟨hash, hhash⟩, ⟨ext, hext⟩⟩ hnot

/-- What escapes `_credentials`. -/
theorem credentialsOf_eq_uncaught {claims : Claims} :
    credentialsOf i claims = .error .uncaught ↔ ExpiryOverflows i claims := by
  have hexpires : ∀ v, expiresOf i v = .error .uncaught ↔ (floatOf i v).bind Double.round = .error .overflow := by
    intro v
    unfold expiresOf
    split <;> simp_all
  unfold credentialsOf ExpiryOverflows
  split
  · rename_i uid salt expires huid hsalt hclaim
    simp only [huid, hsalt, hclaim, Option.isSome_some, Option.some.injEq, exists_eq_left', true_and, ← hexpires]
    cases hread : expiresOf i expires with
    | error e => simp [Fallible.error_bind]
    | ok n =>
      simp only [Fallible.ok_bind, reduceCtorEq, iff_false]
      split <;> simp
  · rename_i hmissing
    simp only [reduceCtorEq, Except.error.injEq, false_iff, not_and, not_exists]
    intro huid hsalt expires hclaim
    obtain ⟨uid, huid⟩ := Option.isSome_iff_exists.mp huid
    obtain ⟨salt, hsalt⟩ := Option.isSome_iff_exists.mp hsalt
    exact absurd hclaim (hmissing uid salt expires huid hsalt)

/-- What escapes `parse_token` is the overflow of an expiry under the server's signature. -/
theorem parseToken_eq_uncaught {token : List χ} :
    parseToken h i token secret = .error .uncaught ↔
      ∃ claims, signedClaims h i token secret = some claims ∧ ExpiryOverflows i claims := by
  unfold parseToken signedClaims
  cases StrChar.text? token with
  | none => simp
  | some text =>
    simp only [Option.bind_eq_bind, Option.bind_some]
    cases Base64.urlsafeDecode (padded text) with
    | none => simp
    | some raw =>
      simp only [Option.bind_some]
      split
      · simp
      · split
        · simp
        · split <;> simp_all [credentialsOf_eq_uncaught]

/-- A token that is read is ASCII. -/
theorem allAscii_of_parseToken {token : List χ} {credentials : SyncCredentials}
    (htoken : parseToken h i token secret = .ok credentials) : AllAscii token := by
  unfold parseToken at htoken
  split at htoken
  · cases htoken
  · rename_i raw hraw
    obtain ⟨text, htext, hdecode⟩ := Option.bind_eq_some_iff.mp hraw
    refine AllAscii.of_text htext (allAscii_iff.mpr (List.all_eq_true.mpr fun c hc => ?_))
    rw [Base64.urlsafeDecode, Base64.decode, Option.ite_none_right_eq_some] at hdecode
    have hmem : Base64.fromUrlsafe c ∈ (padded text).map Base64.fromUrlsafe :=
      List.mem_map_of_mem (List.mem_append_left _ hc)
    have hlt := List.all_eq_true.mp hdecode.1 _ hmem
    rw [Base64.fromUrlsafe] at hlt
    split at hlt
    · rename_i heq
      rw [heq]
      decide
    · split at hlt
      · rename_i heq
        rw [heq]
        decide
      · exact hlt

/-- What was sent as a hash cannot be compared. -/
theorem compareHash_eq_none {payload : List UInt8} {contentType sent : List χ} :
    compareSent (payloadHash h payload contentType) sent = none ↔ ¬AllAscii sent ∨ ¬Encodable (cut ';' contentType).1 := by
  have hcomputed : ∀ text, payloadHash h payload contentType = some text → AllAscii text := by
    intro text htext
    obtain ⟨digest, rfl⟩ := eq_encode_of_payloadHash h htext
    exact allAscii_encode digest
  rw [compareSent_eq_none hcomputed, payloadHash, Option.map_eq_none_iff, or_comm, Encodable, Option.isSome_iff_ne_none,
    not_not]

/-- What escapes `verify`. -/
theorem verify_eq_uncaught {request : Presented χ} {now : ℤ}
    (hmac : mac h key header request.target = none ↔ ¬SignedEncodable header request.target) :
    verify h header key request.target now request.body request.contentType = .error .uncaught ↔
      (now - header.ts).natAbs ≤ maxSkewSeconds ∧ VerificationEscapes h key header request := by
  have hcomputed : ∀ text, mac h key header request.target = some text → AllAscii text := by
    intro text htext
    obtain ⟨digest, rfl⟩ := eq_encode_of_mac h htext
    exact allAscii_encode digest
  have hnone := (@compareSent_eq_none χ _ _ header.mac hcomputed).trans (or_congr hmac Iff.rfl)
  have htrue := @compareSent_eq_true χ _ _ header.mac hcomputed
  unfold verify VerificationEscapes
  split
  · rename_i hskew
    simp [not_le.mpr hskew]
  · rename_i hskew
    simp only [not_lt.mp hskew, true_and]
    split
    · rename_i hcompare
      exact iff_of_true rfl (or_assoc.mp (Or.inl (hnone.mp hcompare)))
    · rename_i hcompare
      rw [hcompare] at hnone htrue
      obtain ⟨hencodable, hascii⟩ := not_or.mp (mt hnone.mpr (Option.some_ne_none false))
      have hwrong : ¬SignedWith h key header request.target := fun hsigned => by cases htrue.mpr hsigned
      simp [hencodable, hascii, hwrong]
    · rename_i hcompare
      rw [hcompare] at hnone
      obtain ⟨hencodable, hascii⟩ := not_or.mp (mt hnone.mpr (Option.some_ne_none true))
      have hright : SignedWith h key header request.target := htrue.mp hcompare
      simp only [hencodable, hascii, hright, false_or, and_true]
      by_cases hempty : header.hash = []
      · simp [hempty]
      · cases hbody : request.body with
        | none => simp [hempty]
        | some payload =>
          simp only [hempty, if_false, ne_eq, not_false_eq_true, reduceCtorEq, true_and]
          rw [← compareHash_eq_none]
          cases compareSent (payloadHash h payload request.contentType) header.hash with
          | none => simp
          | some same => cases same <;> simp

/-- What escapes the key of a live token and the signature under it. -/
theorem verifySigned_eq_uncaught {request : Presented χ} {credentials : SyncCredentials} {now : ℤ} {ts port : List Char}
    (htoken : AllAscii header.id) (hts : Py.intStr header.ts = some ts)
    (hport : Py.intStr request.origin.port = some port) :
    verifySigned h header credentials secret request now = .error .uncaught ↔
      ¬AllAscii credentials.salt ∨
        ∃ key, keyOf h header.id credentials.salt secret = some key ∧
          (now - header.ts).natAbs ≤ maxSkewSeconds ∧ VerificationEscapes h key header request := by
  have hsalt := @keyOf_eq_none h χ _ secret header.id credentials.salt htoken
  cases hkey : keyOf h header.id credentials.salt secret with
  | none => simp [SyncStorage.verifySigned, hkey, hsalt.mp hkey]
  | some key =>
    rw [hkey] at hsalt
    have hascii : AllAscii credentials.salt := not_not.mp (mt hsalt.mpr (Option.some_ne_none key))
    obtain ⟨bytes, hbytes⟩ := exists_ascii_of_keyOf hkey
    simp only [SyncStorage.verifySigned, hkey, verify_eq_uncaught (mac_eq_none hts hport hbytes), hascii, not_true, false_or,
      Option.some.injEq, exists_eq_left']

end Steps

/-! ### Nothing else escapes -/

section Refusals

variable {h : Sha256} {i : Interpreter} {χ : Type} [StrChar χ] {secret : List Char} {request : Presented χ} {path : List χ}
  {now : ℤ}

/-- What escapes the whole attempt. -/
theorem verified_eq_uncaught {header : List χ} {url : List Char} (horigin : Origin.parse url = some request.origin) :
    verified h i header secret request path now = .error .uncaught ↔ Escapes h i header secret request path now := by
  obtain ⟨port, hport⟩ := exists_intStr_port horigin
  unfold verified Escapes
  cases hparse : parse header with
  | error e => simp [Except.mapError, Fallible.error_bind]
  | ok parsed =>
    obtain ⟨ts, hts⟩ := exists_intStr_of_parse hparse
    simp only [Except.mapError, Fallible.ok_bind, Except.ok.injEq, exists_eq_left', ← parseToken_eq_uncaught]
    cases htoken : parseToken h i parsed.id secret with
    | error e => simp [Fallible.error_bind]
    | ok credentials =>
      simp only [Fallible.ok_bind, reduceCtorEq, false_or, Except.ok.injEq, exists_eq_left',
        ← verifySigned_eq_uncaught (allAscii_of_parseToken htoken) hts hport]
      by_cases hlive : exemptFromExpiry (path.map StrChar.seen) = true ∨ now < credentials.expires
      · have hcheck : (!exemptFromExpiry (path.map StrChar.seen) && decide (credentials.expires ≤ now)) = false := by
          obtain hexempt | hnow := hlive
          · simp [hexempt]
          · simp [not_le.mpr hnow]
        simp only [hcheck, Bool.false_eq_true, if_false, hlive, true_and]
        cases verifySigned h parsed credentials secret request now <;> simp [Fallible.ok_bind, Fallible.error_bind]
      · have hcheck : (!exemptFromExpiry (path.map StrChar.seen) && decide (credentials.expires ≤ now)) = true := by
          rw [not_or, not_lt, Bool.not_eq_true] at hlive
          simp [hlive]
        simp [hcheck, hlive]

/-- `authenticate` returns credentials or raises a 401, exactly where nothing escapes it; for headers, methods, targets
and content types of any code points, or of any characters. -/
theorem authenticate_refuses_iff {χ : Type} [StrChar χ] (h : Sha256) (i : Interpreter) (header : Option (List χ))
    (secret : List Char) (request : Presented χ) (path : List χ) (now : ℤ) {url : List Char}
    (horigin : Origin.parse url = some request.origin) :
    ((∃ credentials, authenticate h i header secret request path now = .ok credentials) ∨
        authenticate h i header secret request path now = .error unauthorized) ↔
      ∀ text, header = some text → ¬Escapes h i text secret request path now := by
  have hempty : ¬Escapes h i [] secret request path now := by
    rintro ⟨parsed, hparse, -⟩
    have hnone : parse ([] : List χ) = .error .notHawk := by simp [parse, cut, Py.lower]
    cases hnone.symm.trans hparse
  cases header with
  | none => simp [authenticate]
  | some text =>
    cases text with
    | nil => simp [authenticate, hempty]
    | cons c rest =>
      have hescapes := @verified_eq_uncaught h i χ _ secret request path now (c :: rest) url horigin
      have hdifferent : internalError ≠ unauthorized := by decide
      simp only [Option.some.injEq, forall_eq', ← hescapes, authenticate]
      cases verified h i (c :: rest) secret request path now with
      | ok credentials => simp
      | error e =>
        cases e with
        | hawk error => simp
        | uncaught => simp [hdifferent]

/-- What escapes is an internal error. -/
theorem authenticate_of_escapes {header : List χ} {url : List Char} (hne : header ≠ [])
    (horigin : Origin.parse url = some request.origin) (hescapes : Escapes h i header secret request path now) :
    authenticate h i (some header) secret request path now = .error internalError := by
  have huncaught := (verified_eq_uncaught horigin).mpr hescapes
  obtain ⟨c, rest, rfl⟩ := List.exists_cons_of_ne_nil hne
  simp only [authenticate, huncaught]

end Refusals

/-- A request for the records of a collection, in code points. -/
def samplePoints : Presented ℕ where
  method := Points.ofString "GET"
  resource := Points.ofString "/storage/1.5/1/storage/bookmarks"
  origin := ⟨"localhost".toList, 80⟩
  body := none
  contentType := []

/-- A header that names the scheme and then holds a lone surrogate. -/
def surrogateHeader : Points := Points.ofString "Hawk " ++ [0xd800]

/-- With nothing to parse in it, the answer is a 401. -/
theorem authenticate_refuses_iff_sample :
    ((∃ credentials, authenticate sampleHash (sampleInterpreter 1700003600 "1700003600".toList) (some surrogateHeader)
          "secret".toList samplePoints (Points.ofString "/storage/1.5/1/storage/bookmarks") 1700000000 = .ok credentials) ∨
        authenticate sampleHash (sampleInterpreter 1700003600 "1700003600".toList) (some surrogateHeader) "secret".toList
          samplePoints (Points.ofString "/storage/1.5/1/storage/bookmarks") 1700000000 = .error unauthorized) ↔
      ∀ text, some surrogateHeader = some text →
        ¬Escapes sampleHash (sampleInterpreter 1700003600 "1700003600".toList) text "secret".toList samplePoints
          (Points.ofString "/storage/1.5/1/storage/bookmarks") 1700000000 :=
  authenticate_refuses_iff _ _ _ _ _ _ _ (show Origin.parse "http://localhost".toList = some samplePoints.origin by decide)

/-- The header of a client that has a live token, and signs with a letter that is not ASCII. -/
def accentedHeader (i : Interpreter) : HawkHeader :=
  ⟨sampleToken i 1700003600, 1700000000, "abcd".toList, "é".toList, [], []⟩

/-- It is answered with a 500. -/
theorem authenticate_accented :
    authenticate sampleHash (sampleInterpreter 1700003600 "1700003600".toList)
        (some (write ((accentedHeader (sampleInterpreter 1700003600 "1700003600".toList)).attributes "1700000000".toList
          true true)))
        "secret".toList sampleRequest "/storage/1.5/1/storage/bookmarks".toList 1700000000 =
      .error internalError := by
  have horigin : Origin.parse "http://localhost".toList = some sampleRequest.origin := by decide
  have hkey := deriveSecret_sampleToken (sampleInterpreter 1700003600 "1700003600".toList) 1700003600
  rw [← keyOf_char] at hkey
  refine authenticate_of_escapes (List.cons_ne_nil _ _) horigin ⟨accentedHeader _, ?_, Or.inr ⟨_, parseToken_tokenId
    (expiresOf_of_isExact (Double.isExact_of_lt (by decide))) (sampleInterpreter_loads _ _ _)
    (sampleInterpreter_loads_nil _ _), Or.inr ?_, Or.inr ⟨_, hkey, ?_, Or.inr (Or.inl ?_)⟩⟩⟩
  · refine Hawk.parse_write ⟨fun c hc => ?_, List.all_eq_true.mp (by decide), List.all_eq_true.mp (by decide), nofun,
      nofun⟩ (by decide) (List.Perm.refl _)
    have hplain := isPlain_of_mem_urlsafeEncode hc
    simp only [Base64.isPlain, Bool.and_eq_true] at hplain
    simp only [isValueChar, hplain.1.2, hplain.2, Bool.and_self]
  · show (1700000000 : ℤ) < 1700003600
    decide
  · show ((1700000000 : ℤ) - 1700000000).natAbs ≤ maxSkewSeconds
    decide
  · show ¬AllAscii "é".toList
    decide

end FxaLite.SyncStorage
