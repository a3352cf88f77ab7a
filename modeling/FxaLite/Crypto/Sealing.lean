import FxaLite.Crypto.Jwe
import FxaLite.Lib.Dict

/-!
# Sealing a JWE

`encrypt_jwe_ecdh_es` of `jose.py`, with the writer and the reader of its header: what is sealed to
a public key is opened with the private one. The header is written once and read once, so the two
ends agree on the content key if they agree on the members, and on the additional data since it is
the text itself.
-/

namespace FxaLite.Crypto

/-! ### JSON values as text -/

/-- What the `json` module leaves to the interpreter: its numbers, the encodings other than UTF-8, and
how many containers it bears inside each other beyond two. -/
structure PyJson where
  int : Points → Option Json
  float : Points → Json
  constant : Points → Json
  number : ℚ → Points
  decodeOther : List UInt8 → Option Points
  depth : ℕ

namespace PyJson

variable (py : PyJson)

/-- A dictionary of pairs, of which the last one of a name counts. -/
def dict (pairs : Members) : Members := pairs.foldl (fun members pair => Dict.put members pair.1 pair.2) []

/-- The values that `json.loads` makes. -/
def builder : JsonText.Builder Json where
  null := .null
  bool := .bool
  int := py.int
  float := py.float
  constant := py.constant
  str := .str
  arr := .arr
  obj pairs := .obj (dict pairs)

/-- The text of a document. `detect_encoding` goes by its first bytes. -/
def decode (bytes : List UInt8) : Option Points :=
  match bytes with
  | a :: b :: _ => if 0 < a.toNat ∧ a.toNat < 0x80 ∧ 0 < b.toNat then Points.decode bytes else py.decodeOther bytes
  | _ => py.decodeOther bytes

/-- `json.loads` of bytes. -/
def loads : Loads := fun bytes =>
  match py.decode bytes with
  | none => .error .valueError
  | some text => JsonText.loads py.builder (py.depth + 2) text

mutual

/-- `json.dumps(…, separators=(",", ":"), ensure_ascii=False)`. -/
def dumps : Json → Points
  | .null => Points.ofString "null"
  | .bool true => Points.ofString "true"
  | .bool false => Points.ofString "false"
  | .number value => py.number value
  | .str text => JsonText.quoted text
  | .arr items => 91 :: (List.intercalate [44] (dumpsItems items) ++ [93])
  | .obj members => JsonText.writeObject (dumpsMembers members)

/-- The items of an array. -/
def dumpsItems : List Json → List Points
  | [] => []
  | item :: items => dumps item :: dumpsItems items

/-- The members of an object. -/
def dumpsMembers : Members → List (Points × Points)
  | [] => []
  | (name, value) :: members => (name, dumps value) :: dumpsMembers members

end

end PyJson

/-! ### Sealing -/

/-- `os.urandom(IV_LENGTH)`. -/
structure Nonce where
  bytes : List UInt8
  length_bytes : bytes.length = ivLength

section Sealing

variable (h : Sha256) (curve : Curve) (aead : Aead) (py : PyJson)

/-- `_b64u_json`; a lone surrogate is a `UnicodeEncodeError`. -/
def b64uJson (value : Members) : Except Raised (List Char) :=
  match (py.dumps (.obj value)).encode with
  | none => .error .valueError
  | some bytes => .ok (b64uEncode bytes)

/-- `_seal`. -/
def sealJwe (header : Members) (cek plaintext : List UInt8) (iv : Nonce) : Except Raised (List Char) :=
  if cek.length ≠ cekLength then .error (.jweError (.keyLength cekLength cek.length))
  else do
    let first ← b64uJson py header
    match ascii first with
    | none => .error .valueError
    | some aad =>
      let box := aead.encrypt cek iv.bytes plaintext aad
      let ciphertext := box.take (box.length - tagLength)
      let tag := box.drop (box.length - tagLength)
      .ok (['.'].intercalate [first, [], b64uEncode iv.bytes, b64uEncode ciphertext, b64uEncode tag])

/-- A member of a header that is left out when there is nothing to say. -/
def partyMember (name : String) (info : List UInt8) : Members :=
  if info = [] then [] else [(Points.ofString name, .ofText (b64uEncode info))]

/-- The header of `encrypt_jwe_ecdh_es`. -/
def sealedHeader (ephemeral : curve.Public) (apu apv : List UInt8) (kid : Option Json) : Members :=
  [(Points.ofString "alg", .ofText "ECDH-ES".toList), (Points.ofString "enc", .ofText contentEncryption.toList),
    (Points.ofString "epk", .obj (ecPublicKeyToJwk curve ephemeral))] ++
    partyMember "apu" apu ++ partyMember "apv" apv ++ kid.toList.map fun kid => (Points.ofString "kid", kid)

/-- `encrypt_jwe_ecdh_es`, with the ephemeral key and the nonce that it draws. -/
def encryptJweEcdhEs (recipientJwk : Members) (plaintext apu apv : List UInt8) (ephemeral : curve.Private) (iv : Nonce) :
    Except Raised (List Char) := do
  let recipient ← jwkToEcPublicKey curve recipientJwk
  let cek ← contentKey h (curve.agreed ephemeral recipient) apu apv
  sealJwe aead py (sealedHeader curve (curve.publicKey ephemeral) apu apv (recipientJwk.get "kid")) cek plaintext iv

end Sealing

/-! ### The header comes back -/

/-- The bytes of a number that fits are the number. -/
theorem fromBytes_toBytes {size n : ℕ} (hn : n < 256 ^ size) : fromBytes (toBytes size n) = n := by
  induction size generalizing n with
  | zero =>
    rw [pow_zero, Nat.lt_one_iff] at hn
    rw [hn]
    rfl
  | succ size ih =>
    have hdiv : n / 256 < 256 ^ size := Nat.div_lt_of_lt_mul (by rwa [pow_succ'] at hn)
    have hbyte : (UInt8.ofNat (n % 256)).toNat = n % 256 := by
      rw [UInt8.toNat_ofNat']
      omega
    have hhead : (toBytes size (n / 256)).foldl (fun n b => 256 * n + b.toNat) 0 = n / 256 := ih hdiv
    rw [fromBytes, toBytes, List.foldl_append, hhead, List.foldl_cons, List.foldl_nil, hbyte]
    omega

/-- What is written as base64url is ASCII. -/
theorem toNat_lt_of_mem_b64uEncode {bytes : List UInt8} {c : Char} (hc : c ∈ b64uEncode bytes) : c.toNat < 128 :=
  toNat_lt_of_b64uDecode (b64uDecode_b64uEncode bytes) c hc

/-- A member that was written as base64url is read. -/
@[simp] theorem decodeText_b64uEncode (bytes : List UInt8) : decodeText ((b64uEncode bytes).map Char.toNat) = some bytes := by
  rw [decodeText, Points.ascii?_map_toNat fun c hc => toNat_lt_of_mem_b64uEncode hc, Option.bind_some, b64uDecode_b64uEncode]

/-- So is a coordinate. -/
theorem uintB64u_toBytes {n : ℕ} (hn : n < 256 ^ 32) : uintB64u (some (.ofText (b64uEncode (toBytes 32 n)))) = some n := by
  simp only [uintB64u, Json.ofText, decodeText_b64uEncode, Option.map_some, fromBytes_toBytes hn]

/-- A public key comes back from its JWK, whatever other members that has. -/
theorem jwkToEcPublicKey_append (curve : Curve) (key : curve.Public) {members : Members} (hd : members.get "d" = none) :
    jwkToEcPublicKey curve (ecPublicKeyToJwk curve key ++ members) = .ok key := by
  obtain ⟨hx, hy⟩ := curve.coordinates_lt key
  have hkty : Members.get (ecPublicKeyToJwk curve key ++ members) "kty" = some (.ofText "EC".toList) := rfl
  have hcrv : Members.get (ecPublicKeyToJwk curve key ++ members) "crv" = some (.ofText "P-256".toList) := rfl
  have hnone : Members.get (ecPublicKeyToJwk curve key ++ members) "d" = none := hd
  have hgetx : Members.get (ecPublicKeyToJwk curve key ++ members) "x" =
      some (.ofText (b64uEncode (toBytes 32 (curve.coordinates key).1))) := rfl
  have hgety : Members.get (ecPublicKeyToJwk curve key ++ members) "y" =
      some (.ofText (b64uEncode (toBytes 32 (curve.coordinates key).2))) := rfl
  have hec : isText "EC" (some (.ofText "EC".toList)) = true := rfl
  have hp256 : isText "P-256" (some (.ofText "P-256".toList)) = true := rfl
  simp only [jwkToEcPublicKey, hkty, hcrv, hnone, hgetx, hgety, uintB64u_toBytes hx, uintB64u_toBytes hy,
    curve.fromNumbers_coordinates, hec, hp256, Bool.not_true, Bool.false_eq_true, if_false, Option.isSome_none]

/-- A value of strings and objects whose names are distinct, no deeper than this. -/
inductive Plain : ℕ → Json → Prop
  | str (depth : ℕ) (text : Points) : Plain depth (.str text)
  | obj {depth : ℕ} {members : Members} (hnodup : (members.map Prod.fst).Nodup)
      (hplain : ∀ member ∈ members, Plain depth member.2) : Plain (depth + 1) (.obj members)

section Text

variable (py : PyJson) {members : Members}

/-- Distinct names are kept as they come. -/
theorem PyJson.dict_of_nodup (hnodup : (members.map Prod.fst).Nodup) : PyJson.dict members = members := by
  induction members using List.reverseRecOn with
  | nil => rfl
  | append_singleton members member ih =>
    rw [List.map_append, List.nodup_append] at hnodup
    have hnew : member.1 ∉ Dict.keys members := fun hmem =>
      hnodup.2.2 _ hmem _ (by simp) rfl
    have hmembers : members.foldl (fun members pair => Dict.put members pair.1 pair.2) [] = members := ih hnodup.1
    rw [PyJson.dict, List.foldl_append, hmembers, List.foldl_cons, List.foldl_nil, Dict.put_of_not_mem hnew]

/-- The members of an object are written one by one. -/
theorem PyJson.dumpsMembers_eq_map (members : Members) :
    py.dumpsMembers members = members.map fun member => (member.1, py.dumps member.2) := by
  induction members with
  | nil => rfl
  | cons member members ih => rw [PyJson.dumpsMembers, ih, List.map_cons]

/-- A plain value is read from what is written for it. -/
theorem reads_dumps {depth : ℕ} {value : Json} (hplain : Plain depth value) :
    JsonText.Reads py.builder depth (py.dumps value) value := by
  induction hplain with
  | str depth text =>
    rw [PyJson.dumps]
    exact JsonText.reads_quoted py.builder depth text
  | @obj depth members hnodup hplain ih =>
    have hmembers : ∀ member ∈ members.map fun member => (member.1, py.dumps member.2, member.2),
        JsonText.Reads py.builder depth member.2.1 member.2.2 := by
      intro member hmember
      obtain ⟨member, hmem, rfl⟩ := List.mem_map.mp hmember
      exact ih member hmem
    have hread := JsonText.reads_writeObject hmembers
    have hpairs : (members.map fun member => (member.1, member.2)) = members := List.map_id' members
    have hobj : py.builder.obj members = .obj members := congrArg JsonText.Document.obj (PyJson.dict_of_nodup hnodup)
    simp only [List.map_map, Function.comp_def] at hread
    rw [hpairs, hobj] at hread
    rwa [PyJson.dumps, PyJson.dumpsMembers_eq_map]

/-- The text of an object begins with a brace and a quote. -/
theorem dumps_obj_cons (member : Points × Json) (members : Members) :
    ∃ tail, py.dumps (.obj (member :: members)) = 123 :: 34 :: tail := by
  obtain ⟨tail, htail⟩ := JsonText.writeMembers_cons member.1 (py.dumps member.2) (py.dumpsMembers members)
  exact ⟨tail, by rw [PyJson.dumps, PyJson.dumpsMembers, JsonText.writeObject, htail]⟩

/-- A text that begins with a brace and a quote is taken for UTF-8. -/
theorem decode_of_encode {tail : Points} {bytes : List UInt8} (hencode : Points.encode (123 :: 34 :: tail) = some bytes) :
    py.decode bytes = some (123 :: 34 :: tail) := by
  have hbytes : bytes = 123 :: 34 :: tail.flatMap Points.encodePoint := by
    unfold Points.encode at hencode
    split at hencode
    · exact (Option.some.inj hencode).symm
    · cases hencode
  have hutf8 := Points.decode_of_encode hencode
  rw [hbytes] at hutf8 ⊢
  rw [PyJson.decode, if_pos (by decide), hutf8]

/-- What `_b64u_json` makes of an object is read if its text is. -/
theorem decodes_of_reads {first : List Char}
    (hread : JsonText.Reads py.builder (py.depth + 2) (py.dumps (.obj members)) (.obj members)) (hne : members ≠ [])
    (hfirst : b64uJson py members = .ok first) : Decodes py.loads first members := by
  unfold b64uJson at hfirst
  split at hfirst
  · cases hfirst
  rename_i bytes hencode
  cases hfirst
  obtain ⟨member, rest, rfl⟩ := List.exists_cons_of_ne_nil hne
  obtain ⟨tail, htail⟩ := dumps_obj_cons py member rest
  have hloads := JsonText.loads_of_reads hread
  rw [htail] at hencode hloads
  refine ⟨bytes, b64uDecode_b64uEncode bytes, ?_⟩
  simp only [PyJson.loads, decode_of_encode py hencode, hloads]

/-- What it makes of a plain object is. -/
theorem decodes_of_b64uJson {first : List Char} (hplain : Plain (py.depth + 2) (.obj members)) (hne : members ≠ [])
    (hfirst : b64uJson py members = .ok first) : Decodes py.loads first members :=
  decodes_of_reads py (reads_dumps py hplain) hne hfirst

/-- A string can be encoded if it can be before it is written. -/
theorem all_quoted (text : Points) : (JsonText.quoted text).all Points.isScalar = text.all Points.isScalar := by
  have hhex : ∀ n < 16, Points.isScalar (JsonText.hexChar n) = true := by decide
  have hescape : ∀ c, (JsonText.escapePoint c).all Points.isScalar = Points.isScalar c := by
    intro c
    unfold JsonText.escapePoint
    split
    · rename_i hself
      rcases hself with rfl | rfl <;> decide
    iterate 5
      split
      · rename_i heq
        exact heq ▸ by decide
    split
    · rename_i hcontrol
      have hscalar : Points.isScalar c = true := by
        simp only [Points.isScalar, Points.isSurrogate, Bool.and_eq_true, Bool.not_eq_true', decide_eq_true_eq,
          Bool.and_eq_false_iff, decide_eq_false_iff_not]
        omega
      have hfixed : Points.isScalar 92 = true ∧ Points.isScalar 117 = true ∧ Points.isScalar 48 = true := by decide
      simp only [List.all_cons, List.all_nil, hfixed, hhex _ (by omega : c / 16 < 16), hhex _ (by omega : c % 16 < 16),
        hscalar, Bool.and_true]
    · simp
  have hquote : Points.isScalar 34 = true := by decide
  have hflat : (text.flatMap JsonText.escapePoint).all Points.isScalar = text.all Points.isScalar := by
    rw [List.all_flatMap]
    exact congrArg text.all (funext hescape)
  simp [JsonText.quoted, hquote, hflat]

/-- So can an object, if its names and values can. -/
theorem all_writeMembers (members : List (Points × Points)) :
    (JsonText.writeMembers members).all Points.isScalar =
      members.all fun member => member.1.all Points.isScalar && member.2.all Points.isScalar := by
  have hend : Points.isScalar 125 = true := by decide
  have hcomma : Points.isScalar 44 = true := by decide
  have hcolon : Points.isScalar 58 = true := by decide
  induction members with
  | nil => rfl
  | cons member rest ih =>
    cases rest with
    | nil => simp [JsonText.writeMembers, all_quoted, hend, hcolon]
    | cons next rest => simp [JsonText.writeMembers, all_quoted, hcolon, hcomma, ih, Bool.and_assoc]

end Text

section RoundTrip

open Fallible

variable {curve : Curve}

/-- The key of a recipient as a JWK, with a string for its id or none. -/
structure Recipient (curve : Curve) (key : curve.Private) where
  jwk : Members
  kid : Option Points
  isPublicKey : jwkToEcPublicKey curve jwk = .ok (curve.publicKey key)
  get_kid : jwk.get "kid" = kid.map .str

/-- The JWK of a key pair, and an id. -/
def Recipient.ofKey (key : curve.Private) (kid : Option Points) : Recipient curve key where
  jwk := ecPublicKeyToJwk curve (curve.publicKey key) ++ kid.toList.map fun kid => (Points.ofString "kid", .str kid)
  kid := kid
  isPublicKey := jwkToEcPublicKey_append curve _ (by cases kid <;> rfl)
  get_kid := by cases kid <;> rfl

variable {ephemeral : curve.Public} {apu apv info : List UInt8} {kid : Option Json} {name asked : String}

/-- A member of either part. -/
theorem get_append (members members' : Members) (asked : String) :
    Members.get (members ++ members') asked = (members.get asked).or (members'.get asked) :=
  List.lookup_append

/-- A member alone. -/
theorem get_singleton (name asked : String) (value : Json) : Members.get [(Points.ofString name, value)] asked =
    if Points.ofString asked = Points.ofString name then some value else none := by
  by_cases hname : Points.ofString asked = Points.ofString name
  · simp [Members.get, hname]
  · simp [Members.get, List.lookup_cons, beq_false_of_ne hname, hname]

/-- What a party says is under its own name. -/
theorem get_partyMember (name asked : String) (info : List UInt8) : Members.get (partyMember name info) asked =
    if Points.ofString asked = Points.ofString name ∧ info ≠ [] then some (.ofText (b64uEncode info)) else none := by
  by_cases hinfo : info = []
  · simp [partyMember, hinfo, Members.get]
  · simp [partyMember, hinfo, get_singleton]

/-- The id is under its own name. -/
theorem get_kidMember (kid : Option Json) (hasked : Points.ofString asked ≠ Points.ofString "kid") :
    Members.get (kid.toList.map fun kid => (Points.ofString "kid", kid)) asked = none := by
  cases kid with
  | none => rfl
  | some kid => exact (get_singleton "kid" asked kid).trans (if_neg hasked)

/-- What a header has beside its first members: what the parties say. -/
theorem get_sealedHeader (halg : Points.ofString asked ≠ Points.ofString "alg")
    (henc : Points.ofString asked ≠ Points.ofString "enc") (hepk : Points.ofString asked ≠ Points.ofString "epk")
    (hkid : Points.ofString asked ≠ Points.ofString "kid") :
    Members.get (sealedHeader curve ephemeral apu apv kid) asked =
      ((partyMember "apu" apu).get asked).or ((partyMember "apv" apv).get asked) := by
  have hfirst : Members.get [(Points.ofString "alg", Json.ofText "ECDH-ES".toList),
      (Points.ofString "enc", .ofText contentEncryption.toList),
      (Points.ofString "epk", .obj (ecPublicKeyToJwk curve ephemeral))] asked = none := by
    simp [Members.get, List.lookup_cons, beq_false_of_ne halg, beq_false_of_ne henc, beq_false_of_ne hepk]
  rw [sealedHeader, get_append, get_append, get_append, get_kidMember kid hkid, hfirst, Option.none_or, Option.or_none]

/-- A header that was sealed passes. -/
theorem checkHeader_sealedHeader : checkHeader (sealedHeader curve ephemeral apu apv kid) = .ok () := by
  have halg : Members.get (sealedHeader curve ephemeral apu apv kid) "alg" = some (.ofText "ECDH-ES".toList) := rfl
  have henc : Members.get (sealedHeader curve ephemeral apu apv kid) "enc" = some (.ofText contentEncryption.toList) := rfl
  have hzip : Members.get (sealedHeader curve ephemeral apu apv kid) "zip" = none := by
    rw [get_sealedHeader (by decide) (by decide) (by decide) (by decide), get_partyMember, get_partyMember,
      if_neg fun h => absurd h.1 (by decide), if_neg fun h => absurd h.1 (by decide), Option.none_or]
  have hcrit : Members.get (sealedHeader curve ephemeral apu apv kid) "crit" = none := by
    rw [get_sealedHeader (by decide) (by decide) (by decide) (by decide), get_partyMember, get_partyMember,
      if_neg fun h => absurd h.1 (by decide), if_neg fun h => absurd h.1 (by decide), Option.none_or]
  have hecdh : isText "ECDH-ES" (some (.ofText "ECDH-ES".toList)) = true := rfl
  have hgcm : isText contentEncryption (some (.ofText contentEncryption.toList)) = true := rfl
  simp only [checkHeader, halg, henc, hzip, hcrit, hecdh, hgcm, Bool.not_true, Bool.false_eq_true, if_false, Option.isSome_none]

/-- Its key is the ephemeral one. -/
theorem ephemeralKey_sealedHeader : ephemeralKey curve (sealedHeader curve ephemeral apu apv kid) = .ok ephemeral := by
  have hepk : Members.get (sealedHeader curve ephemeral apu apv kid) "epk" = some (.obj (ecPublicKeyToJwk curve ephemeral)) := rfl
  have hkey := @jwkToEcPublicKey_append curve ephemeral [] rfl
  rw [List.append_nil] at hkey
  simp only [ephemeralKey, hepk, hkey]

/-- What a party says of itself is what it said. -/
theorem partyInfo_of_get {header : Members} (hget : header.get name = (partyMember name info).get name) :
    partyInfo header name = .ok info := by
  rw [get_partyMember] at hget
  by_cases hinfo : info = []
  · rw [if_neg fun h => h.2 hinfo] at hget
    simp only [partyInfo, hget, hinfo]
  · rw [if_pos ⟨rfl, hinfo⟩] at hget
    simp only [partyInfo, hget, Json.ofText, decodeText_b64uEncode, segment]

/-- The producer's. -/
theorem partyInfo_apu : partyInfo (sealedHeader curve ephemeral apu apv kid) "apu" = .ok apu := by
  refine partyInfo_of_get ?_
  rw [get_sealedHeader (by decide) (by decide) (by decide) (by decide), get_partyMember "apv",
    if_neg fun h => absurd h.1 (by decide), Option.or_none]

/-- The recipient's. -/
theorem partyInfo_apv : partyInfo (sealedHeader curve ephemeral apu apv kid) "apv" = .ok apv := by
  refine partyInfo_of_get ?_
  rw [get_sealedHeader (by decide) (by decide) (by decide) (by decide), get_partyMember "apu",
    if_neg fun h => absurd h.1 (by decide), Option.none_or]

/-- The members of a key are strings under distinct names. -/
theorem plain_ecPublicKeyToJwk (depth : ℕ) (key : curve.Public) : Plain (depth + 1) (.obj (ecPublicKeyToJwk curve key)) := by
  refine Plain.obj (by simp only [ecPublicKeyToJwk, List.map_cons, List.map_nil]; decide) fun member hmember => ?_
  simp only [ecPublicKeyToJwk, List.mem_cons, List.not_mem_nil, or_false] at hmember
  rcases hmember with rfl | rfl | rfl | rfl <;> exact Plain.str _ _

/-- What a party says is a string. -/
theorem plain_of_mem_partyMember {depth : ℕ} {member : Points × Json} (hmember : member ∈ partyMember name info) :
    Plain depth member.2 := by
  unfold partyMember at hmember
  split at hmember
  · cases hmember
  · rw [List.mem_singleton.mp hmember]
    exact Plain.str _ _

/-- A header is plain, with a string for its id. -/
theorem plain_sealedHeader (depth : ℕ) (kid : Option Points) :
    Plain (depth + 2) (.obj (sealedHeader curve ephemeral apu apv (kid.map .str))) := by
  have hsublist : List.Sublist ((sealedHeader curve ephemeral apu apv (kid.map .str)).map Prod.fst)
      (["alg", "enc", "epk", "apu", "apv", "kid"].map Points.ofString) := by
    by_cases hapu : apu = [] <;> by_cases hapv : apv = [] <;> cases kid <;>
      simp only [sealedHeader, partyMember, hapu, hapv, if_true, if_false, Option.map, Option.toList, List.map, List.cons_append,
        List.nil_append, List.append_nil] <;>
      decide
  refine Plain.obj (hsublist.nodup (by decide)) fun member hmember => ?_
  rw [sealedHeader, List.mem_append, List.mem_append, List.mem_append] at hmember
  obtain ((hfirst | hapu) | hapv) | hkid := hmember
  · simp only [List.mem_cons, List.not_mem_nil, or_false] at hfirst
    rcases hfirst with rfl | rfl | rfl
    · exact Plain.str _ _
    · exact Plain.str _ _
    · exact plain_ecPublicKeyToJwk depth ephemeral
  · exact plain_of_mem_partyMember hapu
  · exact plain_of_mem_partyMember hapv
  · obtain ⟨value, hvalue, rfl⟩ := List.mem_map.mp hkid
    obtain ⟨text, -, rfl⟩ := Option.map_eq_some_iff.mp (Option.mem_toList.mp hvalue)
    exact Plain.str _ _

/-- A member of ASCII text can be encoded. -/
theorem all_ofText (py : PyJson) (text : List Char) : (py.dumps (.ofText text)).all Points.isScalar = true := by
  rw [Json.ofText, PyJson.dumps, all_quoted, List.all_map]
  exact List.all_eq_true.mpr fun c _ => Points.isScalar_toNat c

/-- A header is written exactly when its id can be encoded. -/
theorem exists_b64uJson (py : PyJson) (kid : Option Points) :
    (∃ first, b64uJson py (sealedHeader curve ephemeral apu apv (kid.map .str)) = .ok first) ↔
      ∀ text, kid = some text → text.all Points.isScalar = true := by
  have hnames : ∀ name ∈ ["alg", "enc", "epk", "apu", "apv", "kid", "kty", "crv", "x", "y"],
      (Points.ofString name).all Points.isScalar = true := by decide
  have hbrace : Points.isScalar 123 = true := by decide
  have hobject : ∀ members : Members, (py.dumps (.obj members)).all Points.isScalar =
      members.all fun member => member.1.all Points.isScalar && (py.dumps member.2).all Points.isScalar := by
    intro members
    rw [PyJson.dumps, JsonText.writeObject, List.all_cons, hbrace, Bool.true_and, PyJson.dumpsMembers_eq_map,
      all_writeMembers, List.all_map]
    rfl
  have hkey : (py.dumps (.obj (ecPublicKeyToJwk curve ephemeral))).all Points.isScalar = true := by
    simp [hobject, ecPublicKeyToJwk, all_ofText, hnames]
  have hparty : ∀ name info, (Points.ofString name).all Points.isScalar = true → (partyMember name info).all
      (fun member => member.1.all Points.isScalar && (py.dumps member.2).all Points.isScalar) = true := by
    intro name info hname
    unfold partyMember
    split
    · rfl
    · rw [List.all_cons, List.all_nil, hname, all_ofText]
      rfl
  have hall : (py.dumps (.obj (sealedHeader curve ephemeral apu apv (kid.map .str)))).all Points.isScalar =
      kid.all fun text => text.all Points.isScalar := by
    rw [hobject, sealedHeader, List.all_append, List.all_append, List.all_append, hparty "apu" apu (hnames _ (by decide)),
      hparty "apv" apv (hnames _ (by decide))]
    simp only [List.all_cons, List.all_nil, hnames _ (by decide : "alg" ∈ _), hnames _ (by decide : "enc" ∈ _),
      hnames _ (by decide : "epk" ∈ _), all_ofText, hkey, Bool.and_self, Bool.true_and]
    cases kid with
    | none => rfl
    | some text =>
      simp only [Option.map_some, Option.toList_some, List.map_cons, List.map_nil, List.all_cons, List.all_nil,
        hnames _ (by decide : "kid" ∈ _), PyJson.dumps, all_quoted, Bool.true_and, Bool.and_true, Option.all_some]
  have hencode : (∃ first, b64uJson py (sealedHeader curve ephemeral apu apv (kid.map .str)) = .ok first) ↔
      (py.dumps (.obj (sealedHeader curve ephemeral apu apv (kid.map .str)))).all Points.isScalar = true := by
    unfold b64uJson Points.encode
    split <;> simp_all
  rw [hencode, hall]
  cases kid <;> simp

variable {h : Sha256} {aead : Aead} {py : PyJson}

/-- A content key is derived exactly when what the parties say can be counted in four bytes. -/
theorem exists_contentKey_iff {sharedSecret : List UInt8} :
    (∃ cek, contentKey h sharedSecret apu apv = .ok cek) ↔ apu.length ≤ maxWord ∧ apv.length ≤ maxWord := by
  constructor
  · rintro ⟨cek, hcek⟩
    unfold contentKey at hcek
    split at hcek
    · rename_i key hkey
      simp only [concatKdf, otherInfo, lengthPrefixed, Option.bind_eq_bind, Option.bind_eq_some_iff, Option.map_eq_some_iff] at hkey
      obtain ⟨-, ⟨-, -, -, ⟨apuLength, hapu, -⟩, -, ⟨apvLength, hapv, -⟩, -⟩, -⟩ := hkey
      exact ⟨le_maxWord_of_packWord hapu, le_maxWord_of_packWord hapv⟩
    · cases hcek
  · rintro ⟨hapu, hapv⟩
    exact exists_contentKey hapu hapv

/-- What is sealed under a header that was read is opened under the same content key. -/
theorem openSealed_encrypt {cek plaintext aad : List UInt8} {first : List Char} {iv : Nonce} (haad : ascii first = some aad) :
    let box := aead.encrypt cek iv.bytes plaintext aad
    openSealed aead cek first (b64uEncode iv.bytes) (b64uEncode (box.take (box.length - tagLength)))
      (b64uEncode (box.drop (box.length - tagLength))) = .ok plaintext := by
  intro box
  have hlength : box.length = plaintext.length + 16 := aead.length_encrypt cek iv.bytes plaintext aad
  have htag : (box.drop (box.length - tagLength)).length = tagLength := by
    rw [List.length_drop, hlength, tagLength]
    omega
  have hopen : aead.decrypt cek iv.bytes box aad = some plaintext := aead.decrypt_encrypt cek iv.bytes plaintext aad
  simp only [openSealed, b64uDecode_b64uEncode, segment, ne_eq, iv.length_bytes, htag, not_true, if_false, ok_bind, haad,
    List.take_append_drop, hopen]

/-- The pieces of a token are what it was made of. -/
theorem splitOn_token (first iv ciphertext tag : List UInt8) :
    (['.'].intercalate [b64uEncode first, [], b64uEncode iv, b64uEncode ciphertext, b64uEncode tag]).splitOn '.' =
      [b64uEncode first, [], b64uEncode iv, b64uEncode ciphertext, b64uEncode tag] := by
  have hdot : ∀ bytes, '.' ∉ b64uEncode bytes := fun bytes hmem => absurd (inAlphabet_of_mem_b64uEncode hmem) (by decide)
  refine List.splitOn_intercalate '.' (fun piece hpiece => ?_) (List.cons_ne_nil _ _)
  simp only [List.mem_cons, List.not_mem_nil, or_false] at hpiece
  rcases hpiece with rfl | rfl | rfl | rfl | rfl
  · exact hdot first
  · exact List.not_mem_nil
  · exact hdot iv
  · exact hdot ciphertext
  · exact hdot tag

/-- A header is written as base64url. -/
theorem exists_bytes_of_b64uJson {header : Members} {first : List Char} (hfirst : b64uJson py header = .ok first) :
    ∃ bytes, first = b64uEncode bytes := by
  unfold b64uJson at hfirst
  split at hfirst
  · cases hfirst
  · cases hfirst
    exact ⟨_, rfl⟩

/-- What is written as base64url can be authenticated. -/
theorem exists_ascii_b64uEncode (bytes : List UInt8) : ∃ aad, ascii (b64uEncode bytes) = some aad :=
  ⟨_, if_pos (List.all_eq_true.mpr fun _ hc => decide_eq_true (toNat_lt_of_mem_b64uEncode hc))⟩

/-- A token is sealed exactly when its header is written, and then these are its pieces. -/
theorem sealJwe_eq_ok {header : Members} {cek plaintext : List UInt8} {iv : Nonce} {token : List Char}
    (hcek : cek.length = cekLength) :
    sealJwe aead py header cek plaintext iv = .ok token ↔ ∃ bytes aad, b64uJson py header = .ok (b64uEncode bytes) ∧
      ascii (b64uEncode bytes) = some aad ∧
      let box := aead.encrypt cek iv.bytes plaintext aad
      token = ['.'].intercalate [b64uEncode bytes, [], b64uEncode iv.bytes, b64uEncode (box.take (box.length - tagLength)),
        b64uEncode (box.drop (box.length - tagLength))] := by
  rw [sealJwe, if_neg (not_not.mpr hcek)]
  unfold b64uJson
  split
  · simp
  · rename_i bytes hbytes
    obtain ⟨aad, haad⟩ := exists_ascii_b64uEncode bytes
    simp only [ok_bind, haad, Except.ok.injEq]
    constructor
    · rintro rfl
      exact ⟨bytes, aad, rfl, haad, rfl⟩
    · rintro ⟨bytes', aad', hsame, haad', rfl⟩
      rw [← hsame, haad] at haad'
      cases haad'
      rw [hsame]

/-- A token for a recipient is sealed under the key that both ends agree on. -/
theorem encryptJweEcdhEs_eq_ok {key ephemeral : curve.Private} (recipient : Recipient curve key) {plaintext : List UInt8}
    {iv : Nonce} {token : List Char} :
    encryptJweEcdhEs h curve aead py recipient.jwk plaintext apu apv ephemeral iv = .ok token ↔
      ∃ cek, contentKey h (curve.agreed key (curve.publicKey ephemeral)) apu apv = .ok cek ∧
        sealJwe aead py (sealedHeader curve (curve.publicKey ephemeral) apu apv (recipient.kid.map .str)) cek plaintext iv =
          .ok token := by
  rw [encryptJweEcdhEs, recipient.isPublicKey, recipient.get_kid, curve.agreed_comm key ephemeral]
  simp only [ok_bind, bind_eq_ok]

/-- The content key has the length that the cipher takes. -/
theorem length_of_contentKey {sharedSecret cek : List UInt8} (hcek : contentKey h sharedSecret apu apv = .ok cek) :
    cek.length = cekLength := by
  unfold contentKey at hcek
  split at hcek
  · rename_i key hkey
    cases hcek
    exact length_of_concatKdf hkey
  · cases hcek

/-- `decrypt_jwe` opens what `encrypt_jwe_ecdh_es` sealed to the public key, if the token and its header
are not too long. -/
theorem decryptJwe_encryptJwe {key ephemeral : curve.Private} (recipient : Recipient curve key) {plaintext : List UInt8}
    {iv : Nonce} {token : List Char}
    (htoken : encryptJweEcdhEs h curve aead py recipient.jwk plaintext apu apv ephemeral iv = .ok token)
    (hlength : token.length ≤ maxJweLength) (hfirst : (Py.partition '.' token).1.length ≤ maxJweHeaderLength) :
    decryptJwe h curve aead py.loads token (.p256 key) = .ok plaintext := by
  obtain ⟨cek, hcek, hseal⟩ := (encryptJweEcdhEs_eq_ok recipient).mp htoken
  obtain ⟨bytes, aad, hheader, haad, rfl⟩ := (sealJwe_eq_ok (length_of_contentKey hcek)).mp hseal
  have hsplit := splitOn_token bytes iv.bytes
    ((aead.encrypt cek iv.bytes plaintext aad).take ((aead.encrypt cek iv.bytes plaintext aad).length - tagLength))
    ((aead.encrypt cek iv.bytes plaintext aad).drop ((aead.encrypt cek iv.bytes plaintext aad).length - tagLength))
  have hdecodes := decodes_of_b64uJson py (plain_sealedHeader py.depth recipient.kid) (List.cons_ne_nil _ _) hheader
  rw [Py.partition_fst_of_splitOn hsplit] at hfirst
  rw [decryptJwe, bounded_eq_ok (u := ()).mpr hlength, ok_bind, hsplit]
  simp only [bounded_eq_ok (u := ()).mpr hfirst, jsonObject_eq_ok.mpr hdecodes, checkHeader_sealedHeader, ne_eq, not_true, if_false,
    ephemeralKey_sealedHeader, exchange, partyInfo_apu, partyInfo_apv, hcek, ok_bind]
  exact openSealed_encrypt haad

/-- What is sealed to a public key is opened with the private one, for a token and a header that are
not too long, exactly when the id of the key can be encoded and what the parties say can be counted. -/
theorem roundTrip_iff (h : Sha256) (curve : Curve) (aead : Aead) (py : PyJson) {key : curve.Private}
    (recipient : Recipient curve key) (plaintext apu apv : List UInt8) (ephemeral : curve.Private) (iv : Nonce) :
    (∃ token, encryptJweEcdhEs h curve aead py recipient.jwk plaintext apu apv ephemeral iv = .ok token ∧
      (token.length ≤ maxJweLength → (Py.partition '.' token).1.length ≤ maxJweHeaderLength →
        decryptJwe h curve aead py.loads token (.p256 key) = .ok plaintext)) ↔
      (∀ kid, recipient.kid = some kid → kid.all Points.isScalar = true) ∧ apu.length ≤ maxWord ∧ apv.length ≤ maxWord := by
  rw [← @exists_b64uJson curve (curve.publicKey ephemeral) apu apv py,
    ← @exists_contentKey_iff apu apv h (curve.agreed key (curve.publicKey ephemeral))]
  constructor
  · rintro ⟨token, htoken, -⟩
    obtain ⟨cek, hcek, hseal⟩ := (encryptJweEcdhEs_eq_ok recipient).mp htoken
    obtain ⟨bytes, -, hheader, -⟩ := (sealJwe_eq_ok (length_of_contentKey hcek)).mp hseal
    exact ⟨⟨_, hheader⟩, cek, hcek⟩
  · rintro ⟨⟨first, hheader⟩, cek, hcek⟩
    obtain ⟨bytes, rfl⟩ := exists_bytes_of_b64uJson hheader
    obtain ⟨aad, haad⟩ := exists_ascii_b64uEncode bytes
    have hseal : ∃ token, sealJwe aead py (sealedHeader curve (curve.publicKey ephemeral) apu apv (recipient.kid.map .str)) cek
        plaintext iv = .ok token :=
      ⟨_, (sealJwe_eq_ok (length_of_contentKey hcek)).mpr ⟨bytes, aad, hheader, haad, rfl⟩⟩
    obtain ⟨token, hseal⟩ := hseal
    have htoken := (encryptJweEcdhEs_eq_ok recipient).mpr ⟨cek, hcek, hseal⟩
    exact ⟨token, htoken, decryptJwe_encryptJwe recipient htoken⟩

/-! ### An id that cannot be encoded -/

/-- A curve with one pair of keys. -/
def lonelyCurve : Curve where
  Private := Unit
  Public := Unit
  publicKey _ := ()
  coordinates _ := (0, 0)
  fromNumbers _ _ := some ()
  agreed _ _ := []
  coordinates_lt _ := ⟨by norm_num, by norm_num⟩
  fromNumbers_coordinates _ := rfl
  agreed_comm _ _ := rfl

/-- A cipher that leaves the text as it is, with a tag after it. -/
def clearBox : Aead where
  encrypt _ _ plaintext _ := plaintext ++ List.replicate 16 0
  decrypt _ _ sealed _ := some (sealed.take (sealed.length - 16))
  length_encrypt _ _ plaintext _ := by simp
  decrypt_encrypt _ _ plaintext _ := by simp

/-- Digests of zeros. -/
def blankHash : Sha256 where
  sha256 _ := List.replicate hashLength 0
  hmac _ _ := List.replicate hashLength 0
  length_sha256 _ := List.length_replicate
  length_hmac _ _ := List.length_replicate

/-- An interpreter that reads no numbers and no other encoding than UTF-8. -/
def sternPython : PyJson where
  int _ := none
  float _ := .null
  constant _ := .null
  number _ := []
  decodeOther _ := none
  depth := 998

/-- The JSON text `"\\ud800"` is a string, and no key with that id is sealed to. -/
theorem surrogate_id_not_sealed :
    JsonText.loads sternPython.builder 1000 (Points.ofString "\"\\ud800\"") = .ok (.str [0xd800]) ∧
      ∀ token, encryptJweEcdhEs blankHash lonelyCurve clearBox sternPython (@Recipient.ofKey lonelyCurve () (some [0xd800])).jwk
        [] [] [] () ⟨List.replicate 12 0, rfl⟩ ≠ .ok token := by
  refine ⟨by rfl, fun token htoken => ?_⟩
  obtain ⟨cek, hcek, hseal⟩ := (encryptJweEcdhEs_eq_ok (@Recipient.ofKey lonelyCurve () (some [0xd800]))).mp htoken
  obtain ⟨bytes, -, hheader, -⟩ := (sealJwe_eq_ok (length_of_contentKey hcek)).mp hseal
  exact absurd ((exists_b64uJson sternPython (some [0xd800])).mp ⟨_, hheader⟩ [0xd800] rfl) (by decide)

end RoundTrip

end FxaLite.Crypto
