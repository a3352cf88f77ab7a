import FxaLite.Content.Derivations
import FxaLite.Crypto.Sealing
import FxaLite.OAuth.ScopedKeyData

/-!
# Keys sealed in the browser

`buildKeysJwe` of `app.js`: the key of every scope that the server names, derived from kB, and sealed to
the public key of the client with `encryptJweEcdhEs` of `crypto.js`. The server keeps the blob and hands it
on; the client opens it, and finds the keys that `derive_scoped_key` would have made.
-/

namespace FxaLite.Content

open FxaLite.Crypto FxaLite.OAuth

/-! ### Texts -/

/-- `JSON.stringify` of a string without lone surrogates. -/
def stringifyText (text : List Char) : Points := JsonText.quoted (text.map Char.toNat)

/-- `JSON.stringify` of an object, whose names are none of them numbers: they keep the order in which they came. -/
def stringifyObject (members : List (List Char × Points)) : Points :=
  JsonText.writeObject (members.map fun member => (member.1.map Char.toNat, member.2))

/-- `utf8` of a text without lone surrogates. -/
def utf8Points (text : Points) : List UInt8 := text.flatMap Points.encodePoint

/-! ### Sealing -/

section Sealing

variable (h : Sha256) (curve : Curve) (aead : Aead)

/-- `publicJwk`, of a key that was exported. -/
def publicJwk (key : curve.Public) : Points :=
  stringifyObject
    [("kty".toList, stringifyText "EC".toList), ("crv".toList, stringifyText "P-256".toList),
      ("x".toList, stringifyText (b64u (toBytes 32 (curve.coordinates key).1))),
      ("y".toList, stringifyText (b64u (toBytes 32 (curve.coordinates key).2)))]

/-- The protected header. -/
def protectedHeader (ephemeral : curve.Public) : List Char :=
  b64u (utf8Points (stringifyObject
    [("alg".toList, stringifyText "ECDH-ES".toList), ("enc".toList, stringifyText "A256GCM".toList),
      ("epk".toList, publicJwk curve ephemeral)]))

/-- `sealA256Gcm`: the ciphertext and the tag. -/
def sealA256Gcm (header : List Char) (cek iv plaintext : List UInt8) : List UInt8 × List UInt8 :=
  let box := aead.encrypt cek iv plaintext (utf8 header)
  (slice box 0 (box.length - 16), sliceFrom box (box.length - 16))

/-- `encryptJweEcdhEs`, with the ephemeral key and the nonce that it draws. -/
def encryptJweEcdhEs (recipient : curve.Public) (plaintext : List UInt8) (ephemeral : curve.Private) (iv : Nonce) : List Char :=
  let cek := concatKdf h (curve.agreed ephemeral recipient) (utf8 "A256GCM".toList) [] [] 32
  let header := protectedHeader curve (curve.publicKey ephemeral)
  let box := sealA256Gcm aead header cek iv.bytes plaintext
  header ++ '.' :: '.' :: (b64u iv.bytes ++ '.' :: (b64u box.1 ++ '.' :: b64u box.2))

/-- A scoped key. -/
def stringifyKey (key : ScopedKey) : Points :=
  stringifyObject
    [("kty".toList, stringifyText "oct".toList), ("scope".toList, stringifyText key.scope), ("k".toList, stringifyText key.k),
      ("kid".toList, stringifyText key.kid)]

/-- The keys of some scopes, each under its own. -/
def stringifyKeys (keys : List ScopedKey) : Points := stringifyObject (keys.map fun key => (key.scope, stringifyKey key))

/-- The keys of the scopes that the server names. -/
def scopedKeys (metadata : List (List Char × KeyData)) (kb : List UInt8) (uid : List Char) : Option (List ScopedKey) :=
  metadata.mapM fun entry =>
    deriveScopedKey h entry.1 kb uid entry.2.keyRotationSecret entry.2.keyRotationTimestamp

/-- `buildKeysJwe`, once kB is known; without a scope that has a key, there is nothing to seal. -/
def buildKeysJwe (metadata : List (List Char × KeyData)) (kb : List UInt8) (uid : List Char) (recipient : curve.Public)
    (ephemeral : curve.Private) (iv : Nonce) : Option (List Char) :=
  if metadata = [] then none
  else (scopedKeys h metadata kb uid).map fun keys =>
    encryptJweEcdhEs h curve aead recipient (utf8Points (stringifyKeys keys)) ephemeral iv

end Sealing

/-! ### One token -/

section Token

variable {h : Sha256} {curve : Curve} {aead : Aead} {py : PyJson}

/-- A character of ASCII is one byte. -/
theorem utf8EncodeChar_of_lt {c : Char} (hc : c.toNat < 128) : String.utf8EncodeChar c = [UInt8.ofNat c.toNat] := by
  have hsmall : c.val.toNat ≤ 127 := Nat.lt_succ_iff.mp hc
  rw [String.utf8EncodeChar, if_pos hsmall]
  rfl

/-- So ASCII text is as many bytes. -/
theorem utf8_of_ascii {text : List Char} {bytes : List UInt8} (hascii : ascii text = some bytes) : utf8 text = bytes := by
  unfold ascii at hascii
  split at hascii
  · rename_i hall
    cases hascii
    induction text with
    | nil => rfl
    | cons c rest ih =>
      rw [List.all_cons, Bool.and_eq_true] at hall
      have hrest : utf8 rest = rest.map fun c => UInt8.ofNat c.toNat := ih hall.2
      rw [utf8, List.flatMap_cons, utf8EncodeChar_of_lt (of_decide_eq_true hall.1), List.map_cons, ← hrest]
      rfl
  · cases hascii

/-- The header is the one that `encrypt_jwe_ecdh_es` writes. -/
theorem b64uJson_sealedHeader (py : PyJson) (ephemeral : curve.Public) :
    b64uJson py (sealedHeader curve ephemeral [] [] none) = .ok (protectedHeader curve ephemeral) := by
  obtain ⟨first, hfirst⟩ := (@exists_b64uJson curve ephemeral [] [] py none).mpr nofun
  have htext : py.dumps (.obj (sealedHeader curve ephemeral [] [] none)) = stringifyObject
      [("alg".toList, stringifyText "ECDH-ES".toList), ("enc".toList, stringifyText "A256GCM".toList),
        ("epk".toList, publicJwk curve ephemeral)] := by
    simp only [publicJwk, b64u_eq]
    rfl
  have hheader : b64uJson py (sealedHeader curve ephemeral [] [] none) = .ok first := hfirst
  rw [hheader]
  unfold b64uJson Points.encode at hheader
  rw [htext] at hheader
  split at hheader
  · cases hheader
  · rename_i bytes hbytes
    cases hheader
    rw [Option.ite_none_right_eq_some] at hbytes
    rw [← Option.some.inj hbytes.2, protectedHeader, b64u_eq]
    rfl

/-- The browser seals what `encrypt_jwe_ecdh_es` does. -/
theorem encryptJweEcdhEs_eq (py : PyJson) (key ephemeral : curve.Private) (plaintext : List UInt8) (iv : Nonce) :
    Crypto.encryptJweEcdhEs h curve aead py (Recipient.ofKey key none).jwk plaintext [] [] ephemeral iv =
      .ok (encryptJweEcdhEs h curve aead (curve.publicKey key) plaintext ephemeral iv) := by
  have hcek := @concatKdf_eq h (curve.agreed ephemeral (curve.publicKey key)) algorithmId [] [] cekLength (by decide) (by decide)
    (by decide) (by decide)
  have hcontent : contentKey h (curve.agreed key (curve.publicKey ephemeral)) [] [] =
      .ok (concatKdf h (curve.agreed ephemeral (curve.publicKey key)) algorithmId [] [] cekLength) := by
    rw [curve.agreed_comm, contentKey, hcek]
  refine (encryptJweEcdhEs_eq_ok (Recipient.ofKey key none)).mpr ⟨_, hcontent, ?_⟩
  have hheader := b64uJson_sealedHeader py (curve.publicKey ephemeral)
  obtain ⟨bytes, hbytes⟩ := exists_bytes_of_b64uJson hheader
  obtain ⟨aad, haad⟩ := exists_ascii_b64uEncode bytes
  rw [← hbytes] at haad
  refine (sealJwe_eq_ok (length_of_contentKey hcontent)).mpr ⟨bytes, aad, hbytes ▸ hheader, hbytes ▸ haad, ?_⟩
  intro box
  have hlength : box.length = plaintext.length + 16 := aead.length_encrypt _ _ _ _
  have hsub : (box.length : ℤ) - 16 = (box.length - tagLength : ℕ) := by
    rw [tagLength]
    omega
  have hsealed : sealA256Gcm aead (protectedHeader curve (curve.publicKey ephemeral))
      (concatKdf h (curve.agreed ephemeral (curve.publicKey key)) (utf8 "A256GCM".toList) [] [] 32) iv.bytes plaintext =
      (box.take (box.length - tagLength), box.drop (box.length - tagLength)) := by
    rw [sealA256Gcm, utf8_of_ascii haad]
    change (slice box 0 (box.length - 16), sliceFrom box (box.length - 16)) = _
    rw [hsub, slice_zero, sliceFrom_natCast]
  simp only [encryptJweEcdhEs, hsealed, ← hbytes, b64u_eq]
  simp [List.intercalate, List.intersperse]

/-! ### Its length -/

/-- A number is of so many bytes. -/
@[simp] theorem length_toBytes (size n : ℕ) : (toBytes size n).length = size := by
  induction size generalizing n with
  | zero => rfl
  | succ size ih => rw [toBytes, List.length_append, ih, List.length_singleton]

/-- The base64url of so many bytes is no longer than their base64. -/
theorem length_b64u_le (bytes : List UInt8) : (b64u bytes).length ≤ (bytes.length + 2) / 3 * 4 := by
  rw [b64u_eq]
  exact length_b64uEncode_le bytes

/-- A text has no more than four bytes for each code point. -/
theorem length_utf8Points_le (text : Points) : (utf8Points text).length ≤ 4 * text.length := by
  have hpoint : ∀ n, (Points.encodePoint n).length ≤ 4 := by
    intro n
    unfold Points.encodePoint
    split_ifs <;> simp
  induction text with
  | nil => rfl
  | cons c rest ih =>
    have hone := hpoint c
    rw [utf8Points, List.flatMap_cons, List.length_append, List.length_cons]
    have hrest : (rest.flatMap Points.encodePoint).length ≤ 4 * rest.length := ih
    omega

/-- A string is written with at most six code points for each of its own. -/
theorem length_stringifyText_le (text : List Char) : (stringifyText text).length ≤ 6 * text.length + 2 := by
  have hquoted := JsonText.length_quoted_le (text.map Char.toNat)
  rwa [List.length_map] at hquoted

/-- An object is as long as its members. -/
theorem length_stringifyObject_le (members : List (List Char × Points)) :
    (stringifyObject members).length ≤ (members.map fun member => 6 * member.1.length + member.2.length + 4).sum + 2 := by
  have hobject := JsonText.length_writeObject_le (members.map fun member => (member.1.map Char.toNat, member.2))
  simp only [List.map_map, Function.comp_def, List.length_map] at hobject
  exact hobject

/-- The public key is short. -/
theorem length_publicJwk_le (key : curve.Public) : (publicJwk curve key).length ≤ 644 := by
  have hcoordinate : ∀ n, (stringifyText (b64u (toBytes 32 n))).length ≤ 266 := by
    intro n
    have htext := length_stringifyText_le (b64u (toBytes 32 n))
    have hencoded := length_b64u_le (toBytes 32 n)
    rw [length_toBytes] at hencoded
    omega
  have hkty : (stringifyText "EC".toList).length ≤ 14 := length_stringifyText_le _
  have hcrv : (stringifyText "P-256".toList).length ≤ 32 := length_stringifyText_le _
  have hx := hcoordinate (curve.coordinates key).1
  have hy := hcoordinate (curve.coordinates key).2
  have hmembers : (publicJwk curve key).length ≤
      (18 + (stringifyText "EC".toList).length + 4) + ((18 + (stringifyText "P-256".toList).length + 4) +
        ((6 + (stringifyText (b64u (toBytes 32 (curve.coordinates key).1))).length + 4) +
          ((6 + (stringifyText (b64u (toBytes 32 (curve.coordinates key).2))).length + 4) + 0))) + 2 :=
    length_stringifyObject_le _
  omega

/-- So is the protected header. -/
theorem length_protectedHeader_le (ephemeral : curve.Public) : (protectedHeader curve ephemeral).length ≤ 4268 := by
  have halg : (stringifyText "ECDH-ES".toList).length ≤ 44 := length_stringifyText_le _
  have henc : (stringifyText "A256GCM".toList).length ≤ 44 := length_stringifyText_le _
  have hepk := @length_publicJwk_le curve ephemeral
  have hmembers : (stringifyObject
      [("alg".toList, stringifyText "ECDH-ES".toList), ("enc".toList, stringifyText "A256GCM".toList),
        ("epk".toList, publicJwk curve ephemeral)]).length ≤
      (18 + (stringifyText "ECDH-ES".toList).length + 4) + ((18 + (stringifyText "A256GCM".toList).length + 4) +
        ((18 + (publicJwk curve ephemeral).length + 4) + 0)) + 2 := length_stringifyObject_le _
  have hbytes := length_utf8Points_le (stringifyObject
    [("alg".toList, stringifyText "ECDH-ES".toList), ("enc".toList, stringifyText "A256GCM".toList),
      ("epk".toList, publicJwk curve ephemeral)])
  have hencoded := length_b64u_le (utf8Points (stringifyObject
    [("alg".toList, stringifyText "ECDH-ES".toList), ("enc".toList, stringifyText "A256GCM".toList),
      ("epk".toList, publicJwk curve ephemeral)]))
  rw [protectedHeader]
  omega

/-- The first piece of a token is its header. -/
theorem partition_encryptJweEcdhEs (recipient : curve.Public) (plaintext : List UInt8) (ephemeral : curve.Private) (iv : Nonce) :
    (Py.partition '.' (encryptJweEcdhEs h curve aead recipient plaintext ephemeral iv)).1 =
      protectedHeader curve (curve.publicKey ephemeral) := by
  have hdot : '.' ∉ protectedHeader curve (curve.publicKey ephemeral) := by
    rw [protectedHeader, b64u_eq]
    exact fun hmem => absurd (inAlphabet_of_mem_b64uEncode hmem) (by decide)
  rw [encryptJweEcdhEs, Py.partition_append _ _ _ hdot]

/-- A token is as long as its header and its ciphertext. -/
theorem length_encryptJweEcdhEs_le (recipient : curve.Public) (plaintext : List UInt8) (ephemeral : curve.Private) (iv : Nonce) :
    (encryptJweEcdhEs h curve aead recipient plaintext ephemeral iv).length ≤ 4 * plaintext.length + 5000 := by
  have hheader := length_protectedHeader_le (curve.publicKey ephemeral)
  have hiv := length_b64u_le iv.bytes
  rw [iv.length_bytes, ivLength] at hiv
  simp only [encryptJweEcdhEs, sealA256Gcm, List.length_append, List.length_cons]
  generalize hcek : concatKdf h _ _ _ _ _ = cek
  generalize hbox : aead.encrypt cek iv.bytes plaintext (utf8 (protectedHeader curve (curve.publicKey ephemeral))) = box
  have hlength : box.length = plaintext.length + 16 := hbox ▸ aead.length_encrypt _ _ _ _
  have hciphertext := length_b64u_le (slice box 0 (box.length - 16))
  have htag := length_b64u_le (sliceFrom box (box.length - 16))
  have hsub : (box.length : ℤ) - 16 = (plaintext.length : ℕ) := by omega
  rw [hsub, slice_zero, List.length_take] at hciphertext
  rw [hsub, sliceFrom_natCast, List.length_drop] at htag
  rw [hsub, slice_zero, sliceFrom_natCast]
  omega

/-! ### What is in it -/

/-- A scoped key, as a client reads it. -/
def keyMembers (key : ScopedKey) : Members :=
  [(Points.ofString "kty", .ofText "oct".toList), (Points.ofString "scope", .ofText key.scope),
    (Points.ofString "k", .ofText key.k), (Points.ofString "kid", .ofText key.kid)]

/-- The keys of some scopes, each under its own. -/
def keysMembers (keys : List ScopedKey) : Members := keys.map fun key => (key.scope.map Char.toNat, .obj (keyMembers key))

variable {keys : List ScopedKey}

/-- What the browser writes is what the server would. -/
theorem stringifyKeys_eq (py : PyJson) (keys : List ScopedKey) : stringifyKeys keys = py.dumps (.obj (keysMembers keys)) := by
  have hkey : ∀ key, stringifyKey key = py.dumps (.obj (keyMembers key)) := fun _ => rfl
  rw [PyJson.dumps, PyJson.dumpsMembers_eq_map, stringifyKeys, stringifyObject, keysMembers, List.map_map, List.map_map]
  refine congrArg JsonText.writeObject (List.map_congr_left fun key _ => ?_)
  exact Prod.ext rfl (hkey key)

/-- The keys of distinct scopes are plain. -/
theorem plain_keysMembers (depth : ℕ) (hnodup : (keys.map ScopedKey.scope).Nodup) : Plain (depth + 2) (.obj (keysMembers keys)) := by
  refine Plain.obj ?_ fun member hmember => ?_
  · have hinjective : Function.Injective fun text : List Char => text.map Char.toNat :=
      List.map_injective_iff.mpr fun c d heq => Char.toNat_inj.mp heq
    rw [keysMembers, List.map_map]
    have hnames := hnodup.map hinjective
    rwa [List.map_map] at hnames
  · obtain ⟨key, -, rfl⟩ := List.mem_map.mp hmember
    refine Plain.obj (by simp only [keyMembers, List.map_cons, List.map_nil]; decide) fun member hmember => ?_
    simp only [keyMembers, List.mem_cons, List.not_mem_nil, or_false] at hmember
    rcases hmember with rfl | rfl | rfl | rfl <;> exact Plain.str _ _

/-- Their text can be encoded. -/
theorem encode_stringifyKeys (py : PyJson) (keys : List ScopedKey) :
    Points.encode (py.dumps (.obj (keysMembers keys))) = some (utf8Points (stringifyKeys keys)) := by
  have hnames : ∀ name ∈ ["kty", "scope", "k", "kid"], (Points.ofString name).all Points.isScalar = true := by decide
  have hbrace : Points.isScalar 123 = true := by decide
  have hobject : ∀ members : Members, (py.dumps (.obj members)).all Points.isScalar =
      members.all fun member => member.1.all Points.isScalar && (py.dumps member.2).all Points.isScalar := by
    intro members
    rw [PyJson.dumps, JsonText.writeObject, List.all_cons, hbrace, Bool.true_and, PyJson.dumpsMembers_eq_map,
      all_writeMembers, List.all_map]
    rfl
  have hkey : ∀ key, (py.dumps (.obj (keyMembers key))).all Points.isScalar = true := by
    intro key
    simp [hobject, keyMembers, all_ofText, hnames]
  have hscope : ∀ text : List Char, (text.map Char.toNat).all Points.isScalar = true := by
    intro text
    rw [List.all_map]
    exact List.all_eq_true.mpr fun c _ => Points.isScalar_toNat c
  have hall : (py.dumps (.obj (keysMembers keys))).all Points.isScalar = true := by
    rw [hobject, keysMembers, List.all_map]
    refine List.all_eq_true.mpr fun key _ => ?_
    simp only [Function.comp_apply, hscope, hkey, Bool.and_self]
  rw [Points.encode, if_pos hall, stringifyKeys_eq py]
  rfl

/-- And they are read. -/
theorem loads_stringifyKeys (py : PyJson) (hnodup : (keys.map ScopedKey.scope).Nodup) (hne : keys ≠ []) :
    py.loads (utf8Points (stringifyKeys keys)) = .ok (.obj (keysMembers keys)) := by
  have hencode := encode_stringifyKeys py keys
  have hread := JsonText.loads_of_reads (reads_dumps py (plain_keysMembers py.depth hnodup))
  obtain ⟨key, rest, rfl⟩ := List.exists_cons_of_ne_nil hne
  obtain ⟨tail, htail⟩ := dumps_obj_cons py (key.scope.map Char.toNat, .obj (keyMembers key)) (keysMembers rest)
  have hcons : keysMembers (key :: rest) = (key.scope.map Char.toNat, .obj (keyMembers key)) :: keysMembers rest := rfl
  rw [hcons] at hencode hread ⊢
  rw [htail] at hencode hread
  simp only [PyJson.loads, decode_of_encode py hencode, hread]

end Token

/-! ### The keys of a client -/

section Keys

variable {h : Sha256} {server : Server} {clientId scope : String} {credentials : Accounts.SessionToken × Accounts.Account}
  {metadata : List (List Char × KeyData)} {kb : List UInt8} {uid : List Char}

/-- At most thirteen digits are written for a number of so many. -/
theorem intStr_of_lt {n : ℤ} (hlow : 0 ≤ n) (hhigh : n < 10 ^ 13) :
    Py.intStr n = some (Py.str n.natAbs) ∧ (Py.str n.natAbs).length ≤ 13 := by
  have hle : (Py.str n.natAbs).length ≤ 13 := (Nat.length_toDigits_le_iff (by decide) (by decide)).mpr (by omega)
  have hmax : ¬Py.maxStrDigits < (Py.str n.natAbs).length := not_lt.mpr (hle.trans (by decide))
  exact ⟨by rw [Py.intStr, if_neg hmax, if_neg (by omega)], hle⟩

/-- Thirteen for a time of thirteen digits. -/
theorem exists_intStr_of_thirteen {n : ℤ} (hlow : 10 ^ 12 ≤ n) (hhigh : n < 10 ^ 13) :
    ∃ text, Py.intStr n = some text ∧ text.length = 13 := by
  obtain ⟨hwritten, hle⟩ := intStr_of_lt (by omega) hhigh
  have hgt : ¬(Py.str n.natAbs).length ≤ 12 := by
    intro hshort
    have hsmall := (Nat.length_toDigits_le_iff (by decide) (by decide)).mp hshort
    omega
  exact ⟨_, hwritten, by omega⟩

/-- A key is derived for every scope that has one. -/
theorem exists_deriveScopedKey (h : Sha256) {value : List Char} {timestamp : ℤ} (hvalue : String.ofList value ∈ keyBearingScopes)
    (hkb : kb.length = 32) (huid : uid.length = 32 ∧ ∀ c ∈ uid, Hex.isDigit c = true) (hlow : 10 ^ 12 ≤ timestamp)
    (hhigh : timestamp < 10 ^ 13) :
    ∃ key, Crypto.deriveScopedKey h value kb uid timestamp nullKeyRotationSecret = .ok key ∧ key.scope = value := by
  have hlong : ¬value.length < 10 := by
    have hall : ∀ text ∈ keyBearingScopes, ¬text.toList.length < 10 := by decide
    have htext := hall _ hvalue
    rwa [String.toList_ofList] at htext
  have hline : uid.getLast? ≠ some '\n' := fun hlast => absurd (huid.2 _ (List.mem_of_getLast? hlast)) (by decide)
  have hhex : isHex32 uid = true := (Py.matchesClass_eq_true hline).mpr ⟨huid.1.ge, huid.1.le, huid.2⟩
  obtain ⟨text, htext, hlength⟩ := exists_intStr_of_thirteen hlow hhigh
  obtain ⟨salt, hsalt⟩ : ∃ salt, Hex.decode uid = some salt := by
    have hread := hexToBytes_eq_decode huid.2 (by rw [huid.1])
    have hany : uid.any (fun c => (Hex.nibble c).isNone) = false := by
      refine List.any_eq_false.mpr fun c hc => ?_
      have hsome : (Hex.nibble c).isSome = true := huid.2 c hc
      simpa [Option.isSome_iff_ne_none] using hsome
    rw [hexToBytes, huid.1, hany] at hread
    exact ⟨_, hread.symm⟩
  have hsecret : nullKeyRotationSecret.length = 32 := rfl
  simp only [Crypto.deriveScopedKey, hkb, hsecret, hhex, htext, hlength, hlong, hsalt, ne_eq, not_true, if_false, Bool.not_true,
    Bool.false_eq_true]
  by_cases hsync : value ∈ syncScopes
  · exact ⟨_, if_pos hsync, rfl⟩
  · exact ⟨_, if_neg hsync, rfl⟩

/-- The key that is derived is short. -/
theorem length_stringifyKey_le {value : List Char} {timestamp : ℤ} {secret : List UInt8} {key : ScopedKey}
    (hkey : Crypto.deriveScopedKey h value kb uid timestamp secret = .ok key) (hvalue : value.length ≤ 64)
    (hlow : 10 ^ 12 ≤ timestamp) (hhigh : timestamp < 10 ^ 13) : (stringifyKey key).length ≤ 1256 := by
  obtain ⟨-, -, -, -, text, htext, hlength, hkind⟩ := deriveScopedKey_eq_ok hkey
  have hpieces : key.scope.length ≤ 64 ∧ key.k.length ≤ 88 ∧ key.kid.length ≤ 38 := by
    obtain ⟨-, rfl⟩ | ⟨-, salt, -, rfl⟩ := hkind
    · have hk := length_b64uEncode_le (hkdf h kb (kw "oldsync") [] 64)
      have hkid := length_b64uEncode_le (fingerprint h kb)
      have hprint : (fingerprint h kb).length ≤ 16 := List.length_take_le _ _
      rw [length_hkdf] at hk
      simp only [legacySyncKey, List.length_append, List.length_cons]
      omega
    · obtain ⟨hseconds, hshort⟩ := @intStr_of_lt ((timestamp + 500) / 1000) (by omega) (by omega)
      simp only [generalScopedKey, hseconds, Option.getD_some, List.length_append, List.length_cons]
      generalize hkdf h (kb ++ secret) (scopedKeyInfo value) salt scopedKeyLength = km
      have hk := length_b64uEncode_le ((km.drop 16).take 32)
      have hkid := length_b64uEncode_le (km.take 16)
      have hfirst : (km.take 16).length ≤ 16 := List.length_take_le _ _
      have hmiddle : ((km.drop 16).take 32).length ≤ 32 := List.length_take_le _ _
      omega
  have hkty : (stringifyText "oct".toList).length ≤ 20 := length_stringifyText_le _
  have hscope := length_stringifyText_le key.scope
  have hk := length_stringifyText_le key.k
  have hkid := length_stringifyText_le key.kid
  have hmembers : (stringifyKey key).length ≤
      (18 + (stringifyText "oct".toList).length + 4) + ((30 + (stringifyText key.scope).length + 4) +
        ((6 + (stringifyText key.k).length + 4) + ((18 + (stringifyText key.kid).length + 4) + 0))) + 2 :=
    length_stringifyObject_le _
  omega

/-- So are those of three scopes. -/
theorem length_stringifyKeys_le {keys : List ScopedKey} (hcount : keys.length ≤ 3)
    (hkeys : ∀ key ∈ keys, key.scope.length ≤ 64 ∧ (stringifyKey key).length ≤ 1256) :
    (stringifyKeys keys).length ≤ 5000 := by
  have hsum : ∀ keys : List ScopedKey, (∀ key ∈ keys, key.scope.length ≤ 64 ∧ (stringifyKey key).length ≤ 1256) →
      ((keys.map fun key => (key.scope, stringifyKey key)).map fun member => 6 * member.1.length + member.2.length + 4).sum ≤
        keys.length * 1644 := by
    intro keys hkeys
    induction keys with
    | nil => exact Nat.zero_le _
    | cons key rest ih =>
      obtain ⟨hscope, hlength⟩ := hkeys key List.mem_cons_self
      have hrest := ih fun other hother => hkeys other (List.mem_cons_of_mem _ hother)
      simp only [List.map_cons, List.sum_cons, List.length_cons]
      omega
  have hmembers : (stringifyKeys keys).length ≤
      ((keys.map fun key => (key.scope, stringifyKey key)).map fun member => 6 * member.1.length + member.2.length + 4).sum + 2 :=
    length_stringifyObject_le _
  have hthree := hsum keys hkeys
  omega

/-- From what the server names, the browser derives what `derive_scoped_key` does. -/
theorem scopedKeys_eq_some (hmetadata : scopedKeyData server clientId scope credentials = .ok metadata) (hkb : kb.length = 32)
    (huid : uid.length = 32 ∧ ∀ c ∈ uid, Hex.isDigit c = true)
    (htime : 10 ^ 12 ≤ keyRotationTimestamp credentials.2 ∧ keyRotationTimestamp credentials.2 < 10 ^ 13) :
    ∃ keys, scopedKeys h metadata kb uid = some keys ∧ keys.map ScopedKey.scope = metadata.map Prod.fst ∧
      (keys.map ScopedKey.scope).Nodup ∧ ∀ key ∈ keys,
        Crypto.deriveScopedKey h key.scope kb uid (keyRotationTimestamp credentials.2) nullKeyRotationSecret = .ok key := by
  obtain ⟨values, hnodup, hbearing, rfl⟩ := scopedKeyData_eq_ok hmetadata
  have hkeys : ∃ keys, scopedKeys h (values.map fun value =>
        (value, ⟨value, Hex.encode nullKeyRotationSecret, keyRotationTimestamp credentials.2⟩)) kb uid = some keys ∧
      keys.map ScopedKey.scope = values ∧ ∀ key ∈ keys,
        Crypto.deriveScopedKey h key.scope kb uid (keyRotationTimestamp credentials.2) nullKeyRotationSecret = .ok key := by
    clear hnodup hmetadata
    induction values with
    | nil => exact ⟨[], rfl, rfl, nofun⟩
    | cons value values ih =>
      obtain ⟨keys, hkeys, hscopes, hderived⟩ := ih fun other hother => hbearing other (List.mem_cons_of_mem _ hother)
      obtain ⟨key, hkey, hscope⟩ := exists_deriveScopedKey h (hbearing value List.mem_cons_self) hkb huid htime.1 htime.2
      have hbrowser := deriveScopedKey_eq_some h huid.2 hkey
      refine ⟨key :: keys, ?_, by rw [List.map_cons, hscope, hscopes], fun other hother => ?_⟩
      · rw [scopedKeys] at hkeys ⊢
        rw [List.map_cons, List.mapM_cons]
        simp only [hbrowser, hkeys, Option.bind_eq_bind, Option.bind_some, Option.pure_def]
      · obtain rfl | hother := List.mem_cons.mp hother
        · exact hscope.symm ▸ hkey
        · exact hderived other hother
  obtain ⟨keys, hkeys, hscopes, hderived⟩ := hkeys
  refine ⟨keys, hkeys, ?_, hscopes ▸ hnodup, hderived⟩
  rw [hscopes, List.map_map]
  exact (List.map_id values).symm

/-- The server names at most three scopes, and none of them is long: so what is sealed is short. -/
theorem length_stringifyKeys_of_metadata (hmetadata : scopedKeyData server clientId scope credentials = .ok metadata)
    {keys : List ScopedKey} (hscopes : keys.map ScopedKey.scope = metadata.map Prod.fst)
    (hderived : ∀ key ∈ keys, Crypto.deriveScopedKey h key.scope kb uid (keyRotationTimestamp credentials.2)
      nullKeyRotationSecret = .ok key)
    (htime : 10 ^ 12 ≤ keyRotationTimestamp credentials.2 ∧ keyRotationTimestamp credentials.2 < 10 ^ 13) :
    (stringifyKeys keys).length ≤ 5000 := by
  obtain ⟨values, hnodup, hbearing, rfl⟩ := scopedKeyData_eq_ok hmetadata
  have hvalues : keys.map ScopedKey.scope = values := by
    rw [hscopes, List.map_map]
    exact List.map_id values
  have hknown : ∀ value ∈ values, value ∈ keyBearingScopes.map String.toList := by
    intro value hvalue
    exact List.mem_map.mpr ⟨_, hbearing value hvalue, String.toList_ofList⟩
  have hcount : keys.length ≤ 3 := by
    have hle := (hnodup.subperm hknown).length_le
    rwa [← hvalues, List.length_map, List.length_map] at hle
  refine length_stringifyKeys_le hcount fun key hkey => ?_
  have hlong : ∀ text ∈ keyBearingScopes.map String.toList, text.length ≤ 64 := by decide
  have hscope : key.scope.length ≤ 64 := hlong _ (hknown _ (hvalues ▸ List.mem_map_of_mem hkey))
  exact ⟨hscope, length_stringifyKey_le (hderived key hkey) hscope htime.1 htime.2⟩

/-- For a client that the server names scopes to, the browser seals one key for each: the token is the one that
`encrypt_jwe_ecdh_es` makes for the public key, and the client opens it to an object of the keys that
`derive_scoped_key` makes from kB, each under its scope. -/
theorem keys_jwe_opened (h : Sha256) (curve : Curve) (aead : Aead) (py : PyJson)
    (hmetadata : scopedKeyData server clientId scope credentials = .ok metadata) (hne : metadata ≠ []) (hkb : kb.length = 32)
    (huid : uid.length = 32 ∧ ∀ c ∈ uid, Hex.isDigit c = true)
    (htime : 10 ^ 12 ≤ keyRotationTimestamp credentials.2 ∧ keyRotationTimestamp credentials.2 < 10 ^ 13)
    (key ephemeral : curve.Private) (iv : Nonce) :
    ∃ keys token, keys.map ScopedKey.scope = metadata.map Prod.fst ∧
      (∀ derived ∈ keys, Crypto.deriveScopedKey h derived.scope kb uid (keyRotationTimestamp credentials.2)
        nullKeyRotationSecret = .ok derived) ∧
      buildKeysJwe h curve aead metadata kb uid (curve.publicKey key) ephemeral iv = some token ∧
      Crypto.encryptJweEcdhEs h curve aead py (Recipient.ofKey key none).jwk (utf8Points (stringifyKeys keys)) [] [] ephemeral iv =
        .ok token ∧
      ∃ plaintext, decryptJwe h curve aead py.loads token (.p256 key) = .ok plaintext ∧
        py.loads plaintext = .ok (.obj (keysMembers keys)) := by
  obtain ⟨keys, hkeys, hscopes, hnodup, hderived⟩ := @scopedKeys_eq_some h _ _ _ _ _ _ _ hmetadata hkb huid htime
  have hsealed := @encryptJweEcdhEs_eq h curve aead py key ephemeral (utf8Points (stringifyKeys keys)) iv
  have hkeysNe : keys ≠ [] := by
    rintro rfl
    exact hne (List.map_eq_nil_iff.mp hscopes.symm)
  have hshort := length_stringifyKeys_of_metadata hmetadata hscopes hderived htime
  have hbytes := length_utf8Points_le (stringifyKeys keys)
  have htoken := @length_encryptJweEcdhEs_le h curve aead (curve.publicKey key) (utf8Points (stringifyKeys keys)) ephemeral iv
  have hlength := htoken.trans (show 4 * (utf8Points (stringifyKeys keys)).length + 5000 ≤ maxJweLength by
    rw [maxJweLength]
    omega)
  have hheader := @partition_encryptJweEcdhEs h curve aead (curve.publicKey key) (utf8Points (stringifyKeys keys)) ephemeral iv ▸
    (length_protectedHeader_le (curve.publicKey ephemeral)).trans (show 4268 ≤ maxJweHeaderLength by decide)
  refine ⟨keys, _, hscopes, hderived, ?_, hsealed, _, decryptJwe_encryptJwe (Recipient.ofKey key none) hsealed hlength hheader,
    loads_stringifyKeys py hnodup hkeysNe⟩
  rw [buildKeysJwe, if_neg hne, hkeys, Option.map_some]

end Keys

/-- The session and the account of somebody who signed in when the keys were made. -/
def firstSession : Accounts.SessionToken × Accounts.Account :=
  (⟨"s", "u", 1700000000000, 0⟩, .blank "u" "u@accounts.example" 1700000000000)

/-- What the server says of the key for Sync. -/
def oldsyncData : List (List Char × KeyData) :=
  [(oldsyncScope.toList, ⟨oldsyncScope.toList, List.replicate 64 '0', 1700000000000⟩)]

/-- The key for Sync is sealed for a small server's browser, and opened. -/
theorem oldsync_jwe_opened : ∃ keys token, keys.map ScopedKey.scope = [oldsyncScope.toList] ∧
    buildKeysJwe blankHash lonelyCurve clearBox oldsyncData (List.replicate 32 1) (List.replicate 32 'a') () ()
      ⟨List.replicate 12 0, rfl⟩ = some token ∧
    ∃ plaintext, decryptJwe blankHash lonelyCurve clearBox sternPython.loads token (.p256 ()) = .ok plaintext ∧
      sternPython.loads plaintext = .ok (.obj (keysMembers keys)) := by
  have hmetadata : scopedKeyData smallServer "5882386c6d801776" oldsyncScope firstSession = .ok oldsyncData := by decide +kernel
  obtain ⟨keys, token, hscopes, -, htoken, -, hopened⟩ := keys_jwe_opened blankHash lonelyCurve clearBox sternPython hmetadata
    (List.cons_ne_nil _ _) (@List.length_replicate UInt8 32 1)
    ⟨@List.length_replicate Char 32 'a', List.all_eq_true.mp (by decide)⟩ (by decide) () () ⟨List.replicate 12 0, rfl⟩
  exact ⟨keys, token, hscopes, htoken, hopened⟩

end FxaLite.Content
