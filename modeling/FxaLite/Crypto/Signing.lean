import FxaLite.Crypto.Sealing

/-!
# Signing a JWT

`sign_jwt` of `jose.py` and the keys of `keys.py`: one that signs, and perhaps a retired one that
is still accepted. A token is signed over the text of its header and claims, so whoever knows the
public half of the key under its id reads back the claims that were signed, until they expire.
-/

namespace FxaLite.Crypto

open Fallible

/-! ### Integers in JSON -/

/-- The interpreter writes the integers that it can write in decimal, and reads them. -/
structure PyJson.Decimal (py : PyJson) : Prop where
  writes : ∀ {n : ℤ} {digits : List Char}, Py.intStr n = some digits → py.number n = digits.map Char.toNat
  reads : ∀ {n : ℤ} {digits : List Char}, Py.intStr n = some digits → py.int (digits.map Char.toNat) = some (.number n)

/-- An integer that can be written is written as a numeral. -/
theorem numeral_of_intStr {n : ℤ} {digits : List Char} (h : Py.intStr n = some digits) :
    JsonText.Numeral (digits.map Char.toNat) := by
  have hdigit : ∀ c ∈ Py.str n.natAbs, JsonText.isDigit c.toNat = true := by
    intro c hc
    have hdecimal := Py.isDigit_of_mem_str hc
    simpa [Char.isDigit, JsonText.isDigit, UInt32.le_iff_toNat_le] using hdecimal
  obtain ⟨c, rest, hstr⟩ := List.exists_cons_of_ne_nil (@Nat.toDigits_ne_nil n.natAbs 10)
  have hcons : Py.str n.natAbs = c :: rest := hstr
  rw [hcons] at hdigit
  have hrest : ∀ d ∈ rest.map Char.toNat, JsonText.isDigit d = true := by
    intro d hd
    obtain ⟨e, he, rfl⟩ := List.mem_map.mp hd
    exact hdigit e (List.mem_cons_of_mem _ he)
  have hzero : c.toNat = 48 → rest.map Char.toNat = [] := by
    intro hc
    obtain rfl : c = '0' := Char.toNat_inj.mp hc
    rw [Py.eq_nil_of_str hcons, List.map_nil]
  rw [Py.intStr, Option.ite_none_left_eq_some, Option.some.injEq, hcons] at h
  obtain ⟨-, rfl⟩ := h
  split
  · exact .negative (hdigit c List.mem_cons_self) hrest hzero
  · exact .digits (hdigit c List.mem_cons_self) hrest hzero

/-- An interpreter that writes and reads integers only. -/
def decimalPython : PyJson where
  int digits := (Py.int (digits.map Char.ofNat)).map fun n : ℤ => .number n
  float _ := .null
  constant _ := .null
  number value := ((Py.intStr value.num).getD []).map Char.toNat
  decodeOther _ := none
  depth := 998

/-- It does so in decimal. -/
theorem decimal_decimalPython : decimalPython.Decimal where
  writes {n digits} h := by
    change ((Py.intStr (n : ℚ).num).getD []).map Char.toNat = digits.map Char.toNat
    rw [Rat.num_intCast, h, Option.getD_some]
  reads {n digits} h := by
    have hback : (digits.map Char.toNat).map Char.ofNat = digits := by
      rw [List.map_map]
      exact (List.map_congr_left fun c _ => Char.ofNat_toNat c).trans (List.map_id _)
    change (Py.int ((digits.map Char.toNat).map Char.ofNat)).map _ = some (JsonText.Document.number (n : ℚ))
    rw [hback, Py.int_intStr h, Option.map_some]

/-- A string, or an integer that can be written. -/
inductive Claim : Json → Prop
  | str (text : Points) : Claim (.str text)
  | int {n : ℤ} (h : (Py.intStr n).isSome = true) : Claim (.number n)

variable {py : PyJson} {members : Members}

/-- Claims are read as members of an object. -/
theorem readsInside_dumps (hdecimal : py.Decimal) {value : Json} (h : Claim value) (depth : ℕ) :
    JsonText.ReadsInside py.builder depth (py.dumps value) value := by
  cases h with
  | str text =>
    rw [PyJson.dumps]
    exact (JsonText.reads_quoted py.builder depth text).inside
  | @int n h =>
    obtain ⟨digits, hdigits⟩ := Option.isSome_iff_exists.mp h
    rw [PyJson.dumps, hdecimal.writes hdigits]
    exact JsonText.readsInside_numeral depth (numeral_of_intStr hdigits) (hdecimal.reads hdigits)

/-- An object of claims is read from what is written for it. -/
theorem decodes_of_claims (hdecimal : py.Decimal) (hnodup : (members.map Prod.fst).Nodup) (hne : members ≠ [])
    (hclaims : ∀ member ∈ members, Claim member.2) {first : List Char} (hfirst : b64uJson py members = .ok first) :
    Decodes py.loads first members := by
  have hmembers : ∀ member ∈ members.map fun member => (member.1, py.dumps member.2, member.2),
      JsonText.ReadsInside py.builder (py.depth + 1) member.2.1 member.2.2 := by
    intro member hmember
    obtain ⟨member, hmem, rfl⟩ := List.mem_map.mp hmember
    exact readsInside_dumps hdecimal (hclaims member hmem) (py.depth + 1)
  have hread := JsonText.reads_writeObject_of_inside hmembers
  have hpairs : (members.map fun member => (member.1, member.2)) = members := List.map_id' members
  have hobj : py.builder.obj members = .obj members := congrArg JsonText.Document.obj (PyJson.dict_of_nodup hnodup)
  simp only [List.map_map, Function.comp_def] at hread
  rw [hpairs, hobj, ← PyJson.dumpsMembers_eq_map, ← PyJson.dumps] at hread
  exact decodes_of_reads py hread hne hfirst

/-! ### Signing -/

/-- RSA signatures of SHA-256 with PKCS #1 v1.5 padding, as the library makes and checks them. -/
structure Rsa where
  Private : Type
  Public : Type
  publicKey : Private → Public
  sign : Private → List UInt8 → List UInt8
  verify : Public → List UInt8 → List UInt8 → Bool
  verify_sign : ∀ key message, verify (publicKey key) (sign key message) message = true

/-- Signatures that are not secret. -/
def openRsa : Rsa where
  Private := Unit
  Public := Unit
  publicKey _ := ()
  sign _ _ := []
  verify _ _ _ := true
  verify_sign _ _ := rfl

variable {rsa : Rsa}

/-- The header of `sign_jwt`. -/
def signedHeader (kid : Points) (typ : String) : Members :=
  [(Points.ofString "alg", .ofText "RS256".toList), (Points.ofString "typ", .ofText typ.toList),
    (Points.ofString "kid", .str kid)]

/-- `sign_jwt`. -/
def signJwt (py : PyJson) (rsa : Rsa) (claims : Members) (key : rsa.Private) (kid : Points) (typ : String) :
    Except Raised (List Char) := do
  let first ← b64uJson py (signedHeader kid typ)
  let second ← b64uJson py claims
  match ascii (first ++ '.' :: second) with
  | none => .error .valueError
  | some signingInput => .ok (first ++ '.' :: (second ++ '.' :: b64uEncode (rsa.sign key signingInput)))

/-- The pieces of a token that is signed. -/
theorem signJwt_eq_ok {claims : Members} {key : rsa.Private} {kid : Points} {typ : String} {token : List Char}
    (h : signJwt py rsa claims key kid typ = .ok token) :
    ∃ header payload signingInput, b64uJson py (signedHeader kid typ) = .ok (b64uEncode header) ∧
      b64uJson py claims = .ok (b64uEncode payload) ∧
      ascii (b64uEncode header ++ '.' :: b64uEncode payload) = some signingInput ∧
      token.splitOn '.' = [b64uEncode header, b64uEncode payload, b64uEncode (rsa.sign key signingInput)] := by
  obtain ⟨first, hfirst, h⟩ := bind_eq_ok.mp h
  obtain ⟨second, hsecond, h⟩ := bind_eq_ok.mp h
  obtain ⟨header, rfl⟩ := exists_bytes_of_b64uJson hfirst
  obtain ⟨payload, rfl⟩ := exists_bytes_of_b64uJson hsecond
  split at h
  · cases h
  · rename_i signingInput hinput
    cases h
    refine ⟨header, payload, signingInput, hfirst, hsecond, hinput, ?_⟩
    have hdot : ∀ bytes, '.' ∉ b64uEncode bytes := fun bytes hmem =>
      absurd (inAlphabet_of_mem_b64uEncode hmem) (by decide)
    have hpieces : ∀ piece ∈ [b64uEncode header, b64uEncode payload, b64uEncode (rsa.sign key signingInput)],
        '.' ∉ piece := by simp [hdot]
    simpa using List.splitOn_intercalate '.' hpieces (List.cons_ne_nil _ _)

/-- The alphabet of base64url is between the hyphen and the letters. -/
theorem toNat_of_inAlphabet {c : Char} (h : inAlphabet c = true) : 45 ≤ c.toNat ∧ c.toNat < 123 := by
  have hclasses : ((c.isAlpha || c.isDigit) || decide (c = '_') || decide (c = '-')) = true := h
  simp only [Bool.or_eq_true, decide_eq_true_eq, Py.isAlpha_iff] at hclasses
  obtain (((hupper | hlower) | hdigit) | rfl) | rfl := hclasses
  · have hrange := Py.isUpper_iff.mp hupper
    omega
  · have hrange := Py.isLower_iff.mp hlower
    omega
  · have hrange := Py.toNat_of_isDigit hdigit
    omega
  · decide
  · decide

/-- So are the characters of a token. -/
theorem toNat_of_mem_signJwt {claims : Members} {key : rsa.Private} {kid : Points} {typ : String} {token : List Char}
    (h : signJwt py rsa claims key kid typ = .ok token) {c : Char} (hc : c ∈ token) : 45 ≤ c.toNat ∧ c.toNat < 123 := by
  obtain ⟨header, payload, signingInput, -, -, -, hsplit⟩ := signJwt_eq_ok h
  have hjoined : ['.'].intercalate (token.splitOn '.') = token := List.intercalate_splitOn '.'
  rw [← hjoined] at hc
  obtain rfl | ⟨piece, hpiece, hc⟩ := Py.mem_of_mem_intercalate hc
  · decide
  · rw [hsplit] at hpiece
    simp only [List.mem_cons, List.not_mem_nil, or_false] at hpiece
    rcases hpiece with rfl | rfl | rfl
    · exact toNat_of_inAlphabet (inAlphabet_of_mem_b64uEncode hc)
    · exact toNat_of_inAlphabet (inAlphabet_of_mem_b64uEncode hc)
    · exact toNat_of_inAlphabet (inAlphabet_of_mem_b64uEncode hc)

/-- The header that was signed is read. -/
theorem decodeJwtHeader_signJwt (hdecimal : py.Decimal) {claims : Members} {key : rsa.Private} {kid : Points} {typ : String}
    {token : List Char} (h : signJwt py rsa claims key kid typ = .ok token) (hlength : token.length ≤ maxJwtLength) :
    decodeJwtHeader py.loads token = .ok (signedHeader kid typ) := by
  obtain ⟨header, payload, signingInput, hheader, -, -, hsplit⟩ := signJwt_eq_ok h
  have hclaims : ∀ member ∈ signedHeader kid typ, Claim member.2 := by
    intro member hmember
    simp only [signedHeader, List.mem_cons, List.not_mem_nil, or_false] at hmember
    rcases hmember with rfl | rfl | rfl
    · exact .str _
    · exact .str _
    · exact .str _
  have hnames : ((signedHeader kid typ).map Prod.fst).Nodup := by
    have hdistinct : (["alg", "typ", "kid"].map Points.ofString).Nodup := by decide
    exact hdistinct
  have hdecodes := decodes_of_claims hdecimal hnames (List.cons_ne_nil _ _) hclaims hheader
  rw [decodeJwtHeader, (bounded_eq_ok (u := ())).mpr hlength, ok_bind, Py.partition_fst_of_splitOn hsplit]
  exact jsonObject_eq_ok.mpr hdecodes

/-- What is signed is verified with the public half of the key, up to its times. -/
theorem verifyJwt_signJwt (hdecimal : py.Decimal) {claims : Members} (hnodup : (claims.map Prod.fst).Nodup)
    (hne : claims ≠ []) (hclaims : ∀ member ∈ claims, Claim member.2) {key : rsa.Private} {kid : Points} {typ : String}
    {token : List Char} (h : signJwt py rsa claims key kid typ = .ok token) (hlength : token.length ≤ maxJwtLength)
    {keys : List (Points × rsa.Public)} (hkey : keys.lookup kid = some (rsa.publicKey key)) (now : Option ℤ)
    (clock leeway : ℤ) :
    verifyJwt py.loads rsa.verify (.byId keys) token now clock leeway = checkTimes claims now clock leeway := by
  have hheader := decodeJwtHeader_signJwt hdecimal h hlength
  obtain ⟨header, payload, signingInput, -, hpayload, hinput, hsplit⟩ := signJwt_eq_ok h
  have hdecodes := decodes_of_claims hdecimal hnodup hne hclaims hpayload
  have hsigned : signingKey (.byId keys) (signedHeader kid typ) = .ok (rsa.publicKey key) :=
    signingKey_byId_eq_ok.mpr ⟨kid, rfl, hkey⟩
  have hparts : signedParts (b64uEncode header) (b64uEncode payload) (b64uEncode (rsa.sign key signingInput)) =
      .ok (rsa.sign key signingInput, signingInput) := signedParts_eq_ok.mpr ⟨b64uDecode_b64uEncode _, hinput⟩
  have halg : isText "RS256" ((signedHeader kid typ).get "alg") = true := rfl
  rw [verifyJwt, (bounded_eq_ok (u := ())).mpr hlength, ok_bind, hsplit]
  simp only [checkSignature, hheader, ok_bind, halg, if_true, hsigned, hparts, rsa.verify_sign,
    jsonObject_eq_ok.mpr hdecodes]

/-! ### The keys of the server -/

/-- `SigningKeys`: the key that signs, under its id, and perhaps one that is retired, under another. -/
structure SigningKeys (rsa : Rsa) where
  private' : rsa.Private
  kid : Points
  retired : Option (Points × rsa.Public)
  apart : ∀ key ∈ retired, key.1 ≠ kid

namespace SigningKeys

/-- `verifiers`. -/
def verifiers (keys : SigningKeys rsa) : List (Points × rsa.Public) :=
  (keys.kid, rsa.publicKey keys.private') :: keys.retired.toList

/-- `sign`. -/
def sign (py : PyJson) (keys : SigningKeys rsa) (claims : Members) (typ : String) : Except Raised (List Char) :=
  signJwt py rsa claims keys.private' keys.kid typ

/-- `verify`, at an instant. -/
def verify (py : PyJson) (keys : SigningKeys rsa) (token : List Char) (now : ℤ) : Except Raised Members :=
  verifyJwt py.loads rsa.verify (.byId keys.verifiers) token (some now) now 0

/-- The keys accept what others sign: these sign now, or did before they were rotated. -/
def Accepts (keys signers : SigningKeys rsa) : Prop :=
  keys.verifiers.lookup signers.kid = some (rsa.publicKey signers.private')

/-- The key that signs is accepted. -/
theorem accepts_self (keys : SigningKeys rsa) : keys.Accepts keys := List.lookup_cons_self

/-- So is the one that signed before. -/
theorem accepts_retired {keys signers : SigningKeys rsa}
    (h : keys.retired = some (signers.kid, rsa.publicKey signers.private')) : keys.Accepts signers := by
  have hapart : signers.kid ≠ keys.kid := keys.apart _ h
  rw [Accepts, verifiers, h, Option.toList_some, List.lookup_cons, beq_false_of_ne hapart]
  exact List.lookup_cons_self

end SigningKeys

end FxaLite.Crypto
