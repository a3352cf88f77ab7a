import FxaLite.SyncStorage.Credentials

/-!
# A token that was made authenticates until it expires

The tokenserver makes tokens and the storage tier reads them, and nothing but the shared secret is
between them. What the one writes is what the other reads: the claims, the salt and with it the
key, and a header that a client writes with both is parsed and verified. The expiry goes through a
double on its way, so it has to be one.
-/

namespace FxaLite.SyncStorage

open Crypto Tokenserver Hawk

/-- A header that a client writes for a request: with its token, a nonce and an `ext` that can
stand in quotes, no hash or that of the body, and a signature, which covers everything but itself.
The attributes stand in any order, and what is empty may be left out. -/
structure IsWritten (h : Sha256) (token key : List Char) (request : Presented) (header : HawkHeader)
    (attributes : List (List Char × List Char)) : Prop where
  id : header.id = token
  nonce : ∀ c ∈ header.nonce, isValueChar c = true
  ext : ∀ c ∈ header.ext, isValueChar c = true
  hash : header.hash = [] ∨
    ∃ body, request.body = some body ∧ payloadHash h body request.contentType = some header.hash
  mac : mac h key header request.target = some header.mac
  order : ∃ ts omitHash omitExt, Py.intStr header.ts = some ts ∧ attributes.Perm (header.attributes ts omitHash omitExt)

section Handshake

variable {h : Sha256} {i : Interpreter} {claims : TokenClaims} {random : List UInt8} {secret token key : List Char}
  {request : Presented} {header : HawkHeader} {attributes : List (List Char × List Char)}

/-- Such a header is parsed into its fields. -/
theorem IsWritten.parse_write {bytes : List UInt8} (hwritten : IsWritten h token key request header attributes)
    (htoken : token = Base64.urlsafeEncode bytes) : parse (write attributes) = .ok header := by
  obtain ⟨ts, omitHash, omitExt, hts, hperm⟩ := hwritten.order
  refine Hawk.parse_write ⟨fun c hc => ?_, hwritten.nonce, fun c hc => ?_, fun c hc => ?_, hwritten.ext⟩ hts hperm
  · rw [hwritten.id, htoken] at hc
    have hplain := isPlain_of_mem_urlsafeEncode hc
    simp only [Base64.isPlain, Bool.and_eq_true] at hplain
    simp only [isValueChar, hplain.1.2, hplain.2, Bool.and_self]
  · obtain ⟨digest, hdigest⟩ := eq_encode_of_mac h hwritten.mac
    rw [hdigest] at hc
    exact (isValueChar_of_mem_encode hc).2
  · obtain hempty | ⟨body, -, hhash⟩ := hwritten.hash
    · rw [hempty] at hc
      cases hc
    · obtain ⟨sum, hsum⟩ := eq_encode_of_payloadHash h hhash
      rw [hsum] at hc
      exact (isValueChar_of_mem_encode hc).2

/-- And it is verified, as long as its time is near. -/
theorem IsWritten.verifySigned {credentials : SyncCredentials} {now : ℤ}
    (hwritten : IsWritten h token key request header attributes)
    (hkey : deriveSecret h token credentials.salt secret = some key)
    (hskew : (now - header.ts).natAbs ≤ maxSkewSeconds) :
    verifySigned h header credentials secret request now = .ok () := by
  rw [SyncStorage.verifySigned, hwritten.id, keyOf_char, hkey]
  exact verify_signed h hskew hwritten.mac hwritten.hash

/-- A token that was made is read as its claims, with the expiry rounded. -/
theorem parseToken_tokenId {expires : ℤ} (hexpires : expiresOf i (.int claims.expires) = .ok expires)
    (hjson : i.loads (utf8 (i.dumps (payload claims.toClaims random))) = some (.obj (payload claims.toClaims random)))
    (hempty : i.loads [] = none) :
    parseToken h i (tokenId h i claims.toClaims random secret) secret =
      .ok (TokenClaims.credentials claims random expires) := by
  have hpayload : utf8 (i.dumps (payload claims.toClaims random)) ≠ [] := by
    intro hnil
    rw [hnil, hempty] at hjson
    cases hjson
  rw [tokenId, parseToken_sign hpayload hjson, credentialsOf_payload claims random hexpires]

/-- Once a header is parsed, its token read and its signature verified, only the expiry decides. -/
theorem authenticate_of_verified {text path : List Char} {now : ℤ} {credentials : SyncCredentials}
    (htext : text ≠ []) (hparse : parse text = .ok header) (htoken : parseToken h i header.id secret = .ok credentials)
    (hverify : verifySigned h header credentials secret request now = .ok ()) :
    authenticate h i (some text) secret request path now =
      if exemptFromExpiry path = true ∨ now < credentials.expires then .ok credentials else .error unauthorized := by
  obtain ⟨c, rest, rfl⟩ := List.exists_cons_of_ne_nil htext
  have hverified : verified h i (c :: rest) secret request path now =
      if exemptFromExpiry path = true ∨ now < credentials.expires then .ok credentials
      else .error (.hawk .expired) := by
    simp only [verified, hparse, Except.mapError, Fallible.ok_bind, htoken, hverify, Py.map_seen_char]
    cases hexempt : exemptFromExpiry path with
    | true => simp
    | false =>
      by_cases hnow : now < credentials.expires
      · simp [hnow, not_le.mpr hnow]
      · simp [hnow, not_lt.mp hnow]
  simp only [authenticate, hverified]
  split_ifs <;> rfl

/-- A derived key is ASCII. -/
theorem isAscii_of_mem_deriveSecret {salt : List Char} (hkey : deriveSecret h token salt secret = some key) {c : Char}
    (hc : c ∈ key) : isAscii c = true := by
  simp only [deriveSecret, Option.bind_eq_bind, Option.bind_eq_some_iff, Option.some.injEq] at hkey
  obtain ⟨tokenBytes, -, saltBytes, -, heq⟩ := hkey
  rw [← heq] at hc
  have hplain := isPlain_of_mem_urlsafeEncode hc
  simp only [Base64.isPlain, Bool.and_eq_true] at hplain
  exact hplain.1.1

/-- The header of a client that sends neither a hash nor an `ext`. -/
def clientHeader (h : Sha256) (token key : List Char) (request : Presented) (ts : ℤ) (nonce : List Char) : HawkHeader :=
  ⟨token, ts, nonce, (mac h key ⟨token, ts, nonce, [], [], []⟩ request.target).getD [], [], []⟩

/-- The client writes it, at any time and with any nonce that can be written at all. -/
theorem isWritten_clientHeader {salt nonce text port : List Char} {ts : ℤ} {omitHash omitExt : Bool}
    (hkey : deriveSecret h token salt secret = some key)
    (hts : Py.intStr ts = some text) (hport : Py.intStr request.origin.port = some port)
    (hnonce : ∀ c ∈ nonce, isValueChar c = true) :
    IsWritten h token key request (clientHeader h token key request ts nonce)
      ((clientHeader h token key request ts nonce).attributes text omitHash omitExt) := by
  obtain ⟨bytes, hbytes⟩ := exists_ascii fun c hc => isAscii_of_mem_deriveSecret hkey hc
  have hmessage : ∃ message, normalized ⟨token, ts, nonce, [], [], []⟩ request.target = some message := by
    simp [normalized, Presented.target, hts, hport]
  obtain ⟨message, hmessage⟩ := hmessage
  have hsignature : mac h key ⟨token, ts, nonce, [], [], []⟩ request.target = some (Base64.encode (h.hmac bytes message)) := by
    simp [mac, hmessage, hbytes]
  exact
    { id := rfl
      nonce := hnonce
      ext := fun _ hc => absurd hc List.not_mem_nil
      hash := Or.inl rfl
      mac := by
        rw [clientHeader, hsignature]
        exact hsignature
      order := ⟨text, omitHash, omitExt, hts, List.Perm.refl _⟩ }

end Handshake

/-! ### A hash and an interpreter for one token -/

/-- Digests of the right length. -/
def sampleHash : Sha256 where
  sha256 message := (message.reverse ++ List.replicate hashLength 0).take hashLength
  hmac key message := (message.reverse ++ (key ++ List.replicate hashLength 0)).take hashLength
  length_sha256 message := by simp
  length_hmac key message := by
    simp only [List.length_take, List.length_append, List.length_replicate]
    omega

/-- An interpreter that knows one JSON document. -/
def knowing (text : List Char) (value : Value) : Interpreter where
  dumps _ := text
  loads bytes := if bytes = utf8 text then some value else none
  float _ := none
  repr _ := []

/-- It reads what it writes. -/
theorem knowing_loads_dumps (text : List Char) (value : Value) (claims : Claims) :
    (knowing text value).loads (utf8 ((knowing text value).dumps claims)) = some value := if_pos rfl

/-- It reads nothing into nothing. -/
theorem knowing_loads_nil (c : Char) (rest : List Char) (value : Value) : (knowing (c :: rest) value).loads [] = none := by
  refine if_neg fun hnil => ?_
  have hlen := congrArg List.length hnil
  rw [utf8, List.flatMap_cons, List.length_append, String.length_utf8EncodeChar] at hlen
  have hpos := c.utf8Size_pos
  simp only [List.length_nil] at hlen
  omega

/-- The claims of one token. -/
def sampleClaims (expires : ℤ) : TokenClaims where
  node := "http://localhost/storage".toList
  fxaKid := "0000000000001-AAAA".toList
  fxaUid := "aa".toList
  hashedDeviceId := "bb".toList
  hashedFxaUid := "cc".toList
  expires := expires
  uid := 1

/-- The bytes of its salt. -/
def sampleRandom : List UInt8 := [0x00, 0xff, 0x10]

/-- An interpreter that knows their payload, as `json.dumps` writes it. -/
def sampleInterpreter (expires : ℤ) (text : List Char) : Interpreter :=
  knowing
    ('\x7b' :: ("\"node\":\"http://localhost/storage\",\"fxa_kid\":\"0000000000001-AAAA\",\"fxa_uid\":\"aa\",".toList ++
      "\"hashed_device_id\":\"bb\",\"hashed_fxa_uid\":\"cc\",\"expires\":".toList ++ text ++
      ",\"uid\":1,\"tokenserver_origin\":\"python\",\"salt\":\"00ff10\"\x7d".toList))
    (.obj (payload (sampleClaims expires).toClaims sampleRandom))

/-- It reads that payload. -/
theorem sampleInterpreter_loads (expires : ℤ) (text : List Char) (claims : Claims) :
    (sampleInterpreter expires text).loads (utf8 ((sampleInterpreter expires text).dumps claims)) =
      some (.obj (payload (sampleClaims expires).toClaims sampleRandom)) := by
  unfold sampleInterpreter
  exact knowing_loads_dumps _ _ _

/-- And needs a text to read. -/
theorem sampleInterpreter_loads_nil (expires : ℤ) (text : List Char) : (sampleInterpreter expires text).loads [] = none := by
  unfold sampleInterpreter
  exact knowing_loads_nil _ _ _

/-- Its token, as `make_token` returns it for a known interpreter. -/
def sampleToken (i : Interpreter) (expires : ℤ) : List Char :=
  tokenId sampleHash i (sampleClaims expires).toClaims sampleRandom "secret".toList

/-- The key that goes with it. -/
def sampleKey (i : Interpreter) (expires : ℤ) : List Char :=
  (deriveSecret sampleHash (sampleToken i expires) (hex sampleRandom) "secret".toList).getD []

/-- The key is derived. -/
theorem deriveSecret_sampleToken (i : Interpreter) (expires : ℤ) :
    deriveSecret sampleHash (sampleToken i expires) (hex sampleRandom) "secret".toList = some (sampleKey i expires) := by
  obtain ⟨key, -, hkey⟩ := exists_makeToken sampleHash i (sampleClaims expires).toClaims sampleRandom "secret".toList
  rw [sampleKey, sampleToken, hkey]
  rfl

/-- A request for the records of a collection. -/
def sampleRequest : Presented where
  method := "GET".toList
  resource := "/storage/1.5/1/storage/bookmarks".toList
  origin := ⟨"localhost".toList, 80⟩
  body := none
  contentType := []

/-! ### Minting and authenticating -/

/-- A minted token is read back by the storage tier, which derives the client's key from it; and a
header that the client writes with both is parsed, and passes as long as the token has not expired. -/
theorem minted_token_authenticates (h : Sha256) (i : Interpreter) (claims : TokenClaims) (random : List UInt8)
    (secret : List Char) (hexact : Double.IsExact claims.expires)
    (hjson : i.loads (utf8 (i.dumps (payload claims.toClaims random))) = some (.obj (payload claims.toClaims random)))
    (hempty : i.loads [] = none) :
    ∃ token key credentials, makeToken h i claims.toClaims random secret = some (token, key) ∧
      parseToken h i token secret = .ok credentials ∧
      (credentials.uid = claims.uid ∧ credentials.salt = hex random ∧ credentials.expires = claims.expires) ∧
      deriveSecret h token credentials.salt secret = some key ∧
      ∀ request header attributes, IsWritten h token key request header attributes →
        parse (write attributes) = .ok header ∧
        ∀ path now, (now - header.ts).natAbs ≤ maxSkewSeconds →
          authenticate h i (some (write attributes)) secret request path now =
            if exemptFromExpiry path = true ∨ now < claims.expires then .ok credentials else .error unauthorized := by
  obtain ⟨key, hmade, hkey⟩ := exists_makeToken h i claims.toClaims random secret
  have hparse := @parseToken_tokenId h i claims random secret _ (expiresOf_of_isExact hexact) hjson hempty
  refine ⟨_, key, _, hmade, hparse, ⟨rfl, rfl, rfl⟩, hkey, fun request header attributes hwritten => ?_⟩
  have hheader := hwritten.parse_write rfl
  refine ⟨hheader, fun path now hskew => ?_⟩
  exact authenticate_of_verified (List.cons_ne_nil _ _) hheader (hwritten.id ▸ hparse) (hwritten.verifySigned hkey hskew)

/-- For one token, with a request that a client writes a header for. -/
theorem minted_token_authenticates_sample :
    ∃ token key credentials header attributes,
      makeToken sampleHash (sampleInterpreter 1700003600 "1700003600".toList) (sampleClaims 1700003600).toClaims
        sampleRandom "secret".toList = some (token, key) ∧
      IsWritten sampleHash token key sampleRequest header attributes ∧
      authenticate sampleHash (sampleInterpreter 1700003600 "1700003600".toList) (some (write attributes)) "secret".toList
        sampleRequest "/storage/1.5/1/storage/bookmarks".toList 1700000000 = .ok credentials := by
  obtain ⟨token, key, credentials, hmade, -, ⟨-, -, -⟩, hkey, hall⟩ :=
    minted_token_authenticates sampleHash (sampleInterpreter 1700003600 "1700003600".toList) (sampleClaims 1700003600)
      sampleRandom "secret".toList (Double.isExact_of_lt (by decide)) (sampleInterpreter_loads _ _ _)
      (sampleInterpreter_loads_nil _ _)
  have hwritten := @isWritten_clientHeader sampleHash "secret".toList token key sampleRequest _ "abcd".toList
    "1700000000".toList "80".toList 1700000000 true true hkey (by decide) (by decide)
    (List.all_eq_true.mp (by decide))
  have hpass := (hall _ _ _ hwritten).2 "/storage/1.5/1/storage/bookmarks".toList 1700000000
    (show ((1700000000 : ℤ) - 1700000000).natAbs ≤ maxSkewSeconds by decide)
  rw [if_pos (Or.inr (by decide))] at hpass
  exact ⟨token, key, credentials, _, _, hmade, hwritten, hpass⟩

/-- An expiry that becomes another is read as the other. -/
theorem exists_rounded {i : Interpreter} {claims : TokenClaims} {random : List UInt8} {secret : List Char} {expires : ℤ}
    (hfloat : Double.ofInt claims.expires = some (.finite expires 0)) (hne : expires ≠ claims.expires)
    (hjson : i.loads (utf8 (i.dumps (payload claims.toClaims random))) = some (.obj (payload claims.toClaims random)))
    (hempty : i.loads [] = none) (h : Sha256) :
    ∃ token key credentials, makeToken h i claims.toClaims random secret = some (token, key) ∧
      parseToken h i token secret = .ok credentials ∧ credentials.expires ≠ claims.expires := by
  obtain ⟨key, hmade, -⟩ := exists_makeToken h i claims.toClaims random secret
  have hexpires : expiresOf i (.int claims.expires) = .ok expires := by
    simp only [expiresOf, floatOf, hfloat, Option.elim_some, Except.bind, Double.round_finite_zero]
  exact ⟨_, key, _, hmade, parseToken_tokenId hexpires hjson hempty, hne⟩

/-- The token of an expiry between two doubles is read with one of them. -/
theorem rounded_expiry_differs :
    ∃ token key credentials,
      makeToken sampleHash (sampleInterpreter 9007199254740993 "9007199254740993".toList)
        (sampleClaims 9007199254740993).toClaims sampleRandom "secret".toList = some (token, key) ∧
      parseToken sampleHash (sampleInterpreter 9007199254740993 "9007199254740993".toList) token "secret".toList =
        .ok credentials ∧
      credentials.expires ≠ (sampleClaims 9007199254740993).expires := by
  have hfloat : Double.ofInt (sampleClaims 9007199254740993).expires = some (.finite 9007199254740992 0) := by
    decide +kernel
  exact exists_rounded hfloat (by decide) (sampleInterpreter_loads _ _ _) (sampleInterpreter_loads_nil _ _) sampleHash

end FxaLite.SyncStorage
