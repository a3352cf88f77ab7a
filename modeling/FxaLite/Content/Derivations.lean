import FxaLite.Crypto.ConcatKdf
import FxaLite.Crypto.ScopedKeys
import FxaLite.Lib.Rounding

/-!
# The key derivations of the browser

`crypto.js` derives on the other side of the wire what `onepw.py`, `tokens.py`, `scoped_keys.py` and
`jose.py` derive on this one, with the numbers, slices and base64 of a browser. Whatever the server
derives or seals, the browser derives the same, and opens.
-/

namespace FxaLite.Content

open FxaLite.Crypto BlockStream

/-! ### Bytes and texts -/

/-- The bytes of pairs of digits, as `parseInt` reads them. -/
def hexPairs : List Char → List UInt8
  | c :: d :: rest => UInt8.ofNat ((Hex.nibble c).getD 0 * 16 + (Hex.nibble d).getD 0) :: hexPairs rest
  | _ => []

/-- `hexToBytes`; `none` is an `Error`. -/
def hexToBytes (hex : List Char) : Option (List UInt8) :=
  if hex.length % 2 ≠ 0 || hex.any fun c => (Hex.nibble c).isNone then none else some (hexPairs hex)

/-- `text.padStart(width, "0")`. -/
def padStart (width : ℕ) (text : List Char) : List Char := List.replicate (width - text.length) '0' ++ text

/-- `bytesToHex`. -/
def bytesToHex (bytes : List UInt8) : List Char := bytes.flatMap fun b => padStart 2 (Nat.toDigits 16 b.toNat)

/-- `text.replace(/=+$/, "")`. -/
def stripPads (text : List Char) : List Char := (text.reverse.dropWhile (· = '=')).reverse

/-- `text.replace(/from/g, to)`, of characters. -/
def replaceAll (old new : Char) (text : List Char) : List Char := text.map fun c => if c = old then new else c

/-- `b64u`. -/
def b64u (bytes : List UInt8) : List Char :=
  stripPads (replaceAll '/' '_' (replaceAll '+' '-' (Base64.encode bytes)))

/-- `xor`; `none` is an `Error`. -/
def xor (a b : List UInt8) : Option (List UInt8) :=
  if a.length ≠ b.length then none else some (List.zipWith (· ^^^ ·) a b)

/-- An index of a slice, from the end if it is negative. -/
def sliceIndex (length : ℕ) (index : ℤ) : ℕ := if index < 0 then (length + index).toNat else min index.toNat length

/-- `bytes.slice(start, stop)`. -/
def slice (bytes : List UInt8) (start stop : ℤ) : List UInt8 :=
  (bytes.take (sliceIndex bytes.length stop)).drop (sliceIndex bytes.length start)

/-- `bytes.slice(start)`. -/
def sliceFrom (bytes : List UInt8) (start : ℤ) : List UInt8 := bytes.drop (sliceIndex bytes.length start)

/-! ### Numbers -/

/-- `Math.round` of a double. -/
def mathRound (x : ℚ) : ℤ := ⌊x + 1 / 2⌋

/-- `String(n)`, of an integer that has no more than fifty-three bits. -/
def numberText (n : ℤ) : List Char := if n < 0 then '-' :: Nat.toDigits 10 n.natAbs else Nat.toDigits 10 n.natAbs

section Derivations

variable (h : Sha256)

/-- The salt that stands for none. -/
def zeroSalt : List UInt8 := List.replicate 32 0

/-- `TokenCredentials` of `deriveTokenCredentials`. -/
structure TokenCredentials where
  id : List Char
  authKey : List UInt8
  bundleKey : List UInt8
  deriving DecidableEq, Repr

/-- `deriveTokenCredentials`. -/
def deriveTokenCredentials (token : List Char) (kind : String) : Option TokenCredentials :=
  (hexToBytes token).map fun seed =>
    let material := hkdf h seed (kw kind) zeroSalt 96
    ⟨bytesToHex (slice material 0 32), slice material 32 64, slice material 64 96⟩

/-- `unbundleKeyFetchResponse`: `kA` and `wrapKb`. -/
def unbundleKeyFetchResponse (bundleKey : List UInt8) (bundle : List Char) : Option (List UInt8 × List UInt8) := do
  let payload ← hexToBytes bundle
  let ciphertext := slice payload 0 (payload.length - 32)
  let mac := sliceFrom payload (payload.length - 32)
  let material := hkdf h bundleKey (kw "account/keys") zeroSalt 96
  if mac = h.hmac (slice material 0 32) ciphertext then
    let plaintext ← xor ciphertext (slice material 32 96)
    some (slice plaintext 0 32, slice plaintext 32 64)
  else none

/-- The key of a Sync scope is not too long. -/
theorem syncLength_le : 64 ≤ 255 * hashLength := by decide

/-- Nor is that of another scope, with its fingerprint. -/
theorem scopedLength_le : 48 ≤ 255 * hashLength := by decide

/-- `deriveScopedKey`; a timestamp is a number, and what is divided is rounded to a double. -/
def deriveScopedKey (scope : List Char) (kb : List UInt8) (uid keyRotationSecret : List Char) (keyRotationTimestamp : ℤ) :
    Option ScopedKey :=
  if scope ∈ syncScopes then
    some
      { scope
        k := b64u (hkdf h kb (kw "oldsync") zeroSalt 64 syncLength_le)
        kid := numberText keyRotationTimestamp ++ '-' :: b64u (slice (h.sha256 kb) 0 16) }
  else do
    let secret ← hexToBytes keyRotationSecret
    let salt ← hexToBytes uid
    let material := hkdf h (kb ++ secret) (utf8 ((hkdfNamespace ++ "scoped_key\n").toList ++ scope)) salt 48 scopedLength_le
    some
      { scope
        k := b64u (slice material 16 48)
        kid := numberText (mathRound (Rounding.double (keyRotationTimestamp / 1000))) ++ '-' :: b64u (slice material 0 16) }

/-- The loop of `concatKdf`: blocks until there are enough bytes. -/
def concatBlocksFrom (shared suffix : List UInt8) (length : ℕ) : ℕ → ℕ → ℕ → List UInt8
  | 0, _, _ => []
  | fuel + 1, counter, produced =>
    if produced < length then
      let block := h.sha256 (wordBytes counter ++ shared ++ suffix)
      block ++ concatBlocksFrom shared suffix length fuel (counter + 1) (produced + block.length)
    else []

/-- `concatKdf`; `setUint32` keeps the last four bytes of a number. -/
def concatKdf (shared algorithm apu apv : List UInt8) (length : ℕ) : List UInt8 :=
  let prefixed := fun value : List UInt8 => wordBytes value.length ++ value
  let suffix := prefixed algorithm ++ prefixed apu ++ prefixed apv ++ wordBytes (length * 8)
  (concatBlocksFrom h shared suffix length length 1 0).take length

end Derivations

/-! ### Base64 and hexadecimal text -/

section Texts

variable {bytes : List UInt8}

/-- Both sides write base64url alike. -/
@[simp] theorem b64u_eq (bytes : List UInt8) : b64u bytes = b64uEncode bytes := by
  have hreplaced : replaceAll '/' '_' (replaceAll '+' '-' (Base64.encode bytes)) = Base64.urlsafeEncode bytes := by
    rw [replaceAll, replaceAll, List.map_map, Base64.urlsafeEncode]
    refine List.map_congr_left fun c _ => ?_
    simp only [Function.comp_apply, Base64.toUrlsafe]
    split
    · rfl
    · rfl
  rw [b64u, hreplaced]
  rfl

/-- Hexadecimal text is read alike. -/
@[simp] theorem hexToBytes_encode (bytes : List UInt8) : hexToBytes (Hex.encode bytes) = some bytes := by
  have heven : (Hex.encode bytes).length % 2 = 0 := by rw [Hex.length_encode, Nat.mul_mod_right]
  have hdigits : (Hex.encode bytes).any (fun c => (Hex.nibble c).isNone) = false := by
    refine List.any_eq_false.mpr fun c hc => ?_
    obtain ⟨n, hn, rfl⟩ := Hex.exists_digit_of_mem hc
    simp [Hex.nibble_digit hn]
  have hpairs : hexPairs (Hex.encode bytes) = bytes := by
    clear heven hdigits
    induction bytes with
    | nil => rfl
    | cons b rest ih =>
      have hbyte := b.toNat_lt
      have hvalue : b.toNat / 16 * 16 + b.toNat % 16 = b.toNat := Nat.div_add_mod' _ _
      rw [Hex.encode, hexPairs, Hex.nibble_digit (by omega), Hex.nibble_digit (Nat.mod_lt _ (by decide)), ih]
      simp only [Option.getD_some, hvalue, UInt8.ofNat_toNat]
  rw [hexToBytes, heven, hdigits, hpairs]
  rfl

/-- And written. -/
@[simp] theorem bytesToHex_eq (bytes : List UInt8) : bytesToHex bytes = Hex.encode bytes := by
  have hbyte : ∀ n < 256, padStart 2 (Nat.toDigits 16 n) = [Hex.digit (n / 16), Hex.digit (n % 16)] := by decide +kernel
  induction bytes with
  | nil => rfl
  | cons b rest ih =>
    have hrest : bytesToHex (b :: rest) = padStart 2 (Nat.toDigits 16 b.toNat) ++ bytesToHex rest := rfl
    rw [hrest, hbyte _ b.toNat_lt, ih]
    rfl

end Texts

/-! ### The same derivations -/

section Slices

variable {bytes : List UInt8}

/-- A slice between two places. -/
theorem slice_natCast (bytes : List UInt8) (start stop : ℕ) : slice bytes start stop = (bytes.take stop).drop start := by
  have hindex : ∀ n : ℕ, sliceIndex bytes.length n = min n bytes.length := fun n => if_neg (not_lt.mpr (Int.natCast_nonneg n))
  rw [slice, hindex, hindex, ← List.take_eq_take_min]
  obtain hstart | hstart := le_total start bytes.length
  · rw [min_eq_left hstart]
  · have hshort : (bytes.take stop).length ≤ bytes.length := List.length_take_le' _ _
    rw [min_eq_right hstart, List.drop_eq_nil_of_le hshort, List.drop_eq_nil_of_le (hshort.trans hstart)]

/-- The first bytes. -/
theorem slice_zero (bytes : List UInt8) (stop : ℕ) : slice bytes 0 stop = bytes.take stop := slice_natCast bytes 0 stop

/-- The rest. -/
theorem sliceFrom_natCast (bytes : List UInt8) (start : ℕ) : sliceFrom bytes start = bytes.drop start := by
  rw [sliceFrom, sliceIndex, if_neg (not_lt.mpr (Int.natCast_nonneg start)), Int.toNat_natCast]
  obtain hstart | hstart := le_total start bytes.length
  · rw [min_eq_left hstart]
  · rw [min_eq_right hstart, List.drop_length, List.drop_eq_nil_of_le hstart]

/-- All but the last thirty-two bytes are sixty-four exactly of ninety-six. -/
theorem length_slice_sub_eq_iff (bytes : List UInt8) : (slice bytes 0 (bytes.length - 32)).length = 64 ↔ bytes.length = 96 := by
  have hzero : sliceIndex bytes.length 0 = 0 := by simp [sliceIndex]
  rw [slice, hzero, List.drop_zero, List.length_take, sliceIndex]
  split
  · omega
  · omega

end Slices

section Agreement

variable (h : Sha256)

/-- Zeros are the salt that stands for none. -/
@[simp] theorem hkdf_zeroSalt (ikm info : List UInt8) {length : ℕ} (hlength : length ≤ 255 * hashLength) :
    hkdf h ikm info zeroSalt length hlength = hkdf h ikm info [] length hlength := by
  have hzero : zeroSalt ≠ [] := by decide
  rw [hkdf, hkdf, extract, extract, if_neg hzero, if_pos rfl]
  rfl

/-- From a token the browser derives the keys that the server derives from its seed. -/
theorem deriveTokenCredentials_encode (type : TokenType) (data : List UInt8) :
    let keys := tokenKeys h type data
    deriveTokenCredentials h (Hex.encode data) type.value = some ⟨Hex.encode keys.id, keys.authKey, keys.bundleKey⟩ := by
  intro keys
  have hkeys : keys = tokenKeys h type data := rfl
  have hid := slice_natCast (hkdf h data (kw type.value) [] 96) 0 32
  have hauth := slice_natCast (hkdf h data (kw type.value) [] 96) 32 64
  have hbundle := slice_natCast (hkdf h data (kw type.value) [] 96) 64 96
  rw [List.drop_take] at hauth hbundle
  rw [deriveTokenCredentials, hexToBytes_encode, hkeys]
  simp only [Option.map_some, hkdf_zeroSalt, bytesToHex_eq]
  exact congrArg some (TokenCredentials.mk.injEq .. |>.mpr ⟨congrArg Hex.encode hid, hauth, hbundle⟩)

/-- The keys of a bundle: of ninety-six bytes, the last are the digest of the others. -/
def openedKeys (bundleKey payload : List UInt8) : Option (List UInt8 × List UInt8) :=
  let material := hkdf h bundleKey (kw "account/keys") [] 96
  let plaintext := List.zipWith (· ^^^ ·) (payload.take 64) (material.drop 32)
  if payload.length = 96 ∧ h.hmac (material.take 32) (payload.take 64) = payload.drop 64 then
    some (plaintext.take 32, plaintext.drop 32)
  else none

/-- These are the keys that the server opens. -/
theorem unbundleAccountKeys_toOption (bundleKey payload : List UInt8) :
    (unbundleAccountKeys h bundleKey payload).toOption = openedKeys h bundleKey payload := by
  by_cases hlength : payload.length = 96
  · have hsealed : sealedPart payload = payload.take 64 := by rw [sealedPart, hlength, bundleMacLength]
    have hsize : (payload.take 64).length = 64 := by rw [List.length_take, hlength]; rfl
    have hmac : payload.drop (96 - bundleMacLength) = payload.drop 64 := rfl
    have hkeys : bundleKeys h bundleKey "account/keys" 64 =
        .ok ((hkdf h bundleKey (kw "account/keys") [] 96).take 32, (hkdf h bundleKey (kw "account/keys") [] 96).drop 32) := by
      rw [bundleKeys, derive, hkdfLoop_eq (by decide)]
      rfl
    have hpad : (payload.take 64).length = ((hkdf h bundleKey (kw "account/keys") [] 96).drop 32).length := by
      rw [hsize, List.length_drop, length_hkdf]
    have hplain : (List.zipWith (· ^^^ ·) (payload.take 64) ((hkdf h bundleKey (kw "account/keys") [] 96).drop 32)).length =
        accountKeysLength := by
      rw [List.length_zipWith, ← hpad, min_self, hsize]
      rfl
    simp only [unbundleAccountKeys, unbundle, hsealed, hsize, hkeys, hmac, Fallible.ok_bind, openedKeys, hlength, true_and]
    by_cases hdigest : h.hmac ((hkdf h bundleKey (kw "account/keys") [] 96).take 32) (payload.take 64) = payload.drop 64
    · rw [if_neg (not_not.mpr hdigest), xor_eq_ok hpad, Fallible.ok_bind, if_neg (not_not.mpr hplain), if_pos hdigest]
      rfl
    · rw [if_pos hdigest, if_neg hdigest]
      rfl
  · have hfails : ∀ keys, unbundleAccountKeys h bundleKey payload ≠ .ok keys := by
      intro keys hkeys
      simp only [unbundleAccountKeys, Fallible.bind_eq_ok] at hkeys
      obtain ⟨plaintext, hplaintext, hkeys⟩ := hkeys
      split at hkeys
      · cases hkeys
      rename_i hplain
      simp only [unbundle, Fallible.bind_eq_ok] at hplaintext
      obtain ⟨keys, -, hplaintext⟩ := hplaintext
      split at hplaintext
      · cases hplaintext
      have hsealed := (length_of_xor hplaintext).2
      rw [not_not.mp hplain, sealedPart, List.length_take, bundleMacLength, accountKeysLength] at hsealed
      omega
    have hnone : openedKeys h bundleKey payload = none := if_neg fun hkeys => hlength hkeys.1
    rw [hnone]
    cases hkeys : unbundleAccountKeys h bundleKey payload with
    | error e => rfl
    | ok keys => exact absurd hkeys (hfails keys)

/-- And those that the browser opens. -/
theorem unbundleKeyFetchResponse_encode (bundleKey payload : List UInt8) :
    unbundleKeyFetchResponse h bundleKey (Hex.encode payload) = openedKeys h bundleKey payload := by
  have hmaterial := @length_hkdf h bundleKey (kw "account/keys") [] 96 (by decide)
  simp only [unbundleKeyFetchResponse, hexToBytes_encode, hkdf_zeroSalt, Option.bind_eq_bind, Option.bind_some, openedKeys]
  generalize hkdf h bundleKey (kw "account/keys") [] 96 = material at *
  have hmacKey : slice material 0 32 = material.take 32 := slice_zero material 32
  have hpad : slice material 32 96 = material.drop 32 := by
    have hslice := slice_natCast material 32 96
    rwa [List.take_of_length_le hmaterial.le] at hslice
  have hpadLength : (material.drop 32).length = 64 := by rw [List.length_drop, hmaterial]
  rw [hmacKey, hpad]
  by_cases hlength : payload.length = 96
  · have hsub : (payload.length : ℤ) - 32 = (64 : ℕ) := by omega
    have hsize : (payload.take 64).length = 64 := by rw [List.length_take, hlength]; rfl
    have hplain : (List.zipWith (· ^^^ ·) (payload.take 64) (material.drop 32)).length = 64 := by
      rw [List.length_zipWith, hpadLength, hsize, min_self]
    rw [hsub, slice_zero, sliceFrom_natCast]
    by_cases hdigest : h.hmac (material.take 32) (payload.take 64) = payload.drop 64
    · have hsecond := slice_natCast (List.zipWith (· ^^^ ·) (payload.take 64) (material.drop 32)) 32 64
      rw [List.take_of_length_le hplain.le] at hsecond
      rw [if_pos hdigest.symm, if_pos ⟨hlength, hdigest⟩, xor, if_neg (not_not.mpr (hsize.trans hpadLength.symm)),
        Option.bind_some]
      exact congrArg some (Prod.ext (slice_zero _ 32) hsecond)
    · rw [if_neg fun heq => hdigest heq.symm, if_neg fun hkeys => hdigest hkeys.2]
  · have hxor : xor (slice payload 0 (payload.length - 32)) (material.drop 32) = none := by
      refine if_pos fun heq => hlength ((length_slice_sub_eq_iff payload).mp ?_)
      rw [heq, hpadLength]
    rw [hxor, Option.bind_none, ite_self, if_neg fun hkeys => hlength hkeys.1]

end Agreement

/-! ### Numbers and their texts -/

section Numbers

variable {n : ℤ} {text : List Char}

/-- A number is written alike. -/
theorem numberText_of_intStr (htext : Py.intStr n = some text) : numberText n = text := by
  rw [Py.intStr, Option.ite_none_left_eq_some] at htext
  exact Option.some.inj htext.2

/-- Thirteen characters are not more than thirteen digits. -/
theorem natAbs_lt_of_intStr (htext : Py.intStr n = some text) (hlength : text.length = 13) : n.natAbs < 10 ^ 13 := by
  rw [Py.intStr, Option.ite_none_left_eq_some, Option.some.injEq] at htext
  have hdigits : (Py.str n.natAbs).length ≤ 13 := by
    rw [← hlength, ← htext.2]
    split
    · exact Nat.le_succ _
    · exact le_rfl
  exact (Nat.length_toDigits_le_iff (by decide) (by decide)).mp hdigits

/-- A time in milliseconds is rounded to the same second: a quotient that is a half is a double, and
one that is less than a half stays so. -/
theorem mathRound_double_div (hn : n.natAbs < 10 ^ 13) : mathRound (Rounding.double (n / 1000)) = (n + 500) / 1000 := by
  obtain rfl | hzero := eq_or_ne n 0
  · norm_num [mathRound]
  obtain ⟨m, hm⟩ : ∃ m, m = (n + 500) / 1000 := ⟨_, rfl⟩
  have hx : (n : ℚ) / 1000 ≠ 0 := div_ne_zero (Int.cast_ne_zero.mpr hzero) (by norm_num)
  have hlow : (1000 * m : ℚ) ≤ n + 500 := by exact_mod_cast (by omega : 1000 * m ≤ n + 500)
  have hhigh : (n : ℚ) ≤ 1000 * m + 499 := by exact_mod_cast (by omega : n ≤ 1000 * m + 499)
  have hhalf : ((2 * m - 1 : ℤ) : ℚ) / 2 ^ 1 ≤ Rounding.double (n / 1000) := by
    have hbits : |2 * m - 1| < 2 ^ 53 := by
      rw [abs_lt]
      constructor <;> omega
    rw [← Rounding.double_div_two_pow_eq_self 1 hbits]
    refine Rounding.double_mono ?_
    push_cast
    linarith
  have hplace : Rounding.lastPlace ((n : ℚ) / 1000) ≤ -19 := by
    have hlt : |(n : ℚ) / 1000| < 2 ^ (34 : ℤ) := by
      have habs : |(n : ℚ)| < 10 ^ 13 := by exact_mod_cast (Int.abs_eq_natAbs n).trans_lt (Int.ofNat_lt.mpr hn)
      rw [abs_div, abs_of_pos (by norm_num : (0 : ℚ) < 1000), div_lt_iff₀ (by norm_num)]
      exact habs.trans (by norm_num)
    have hlog : Int.log 2 |(n : ℚ) / 1000| < 34 :=
      (Int.lt_zpow_iff_log_lt one_lt_two (abs_pos.mpr hx)).mp (by rwa [Nat.cast_ofNat])
    simp only [Rounding.lastPlace]
    omega
  have herror : Rounding.double (n / 1000) - n / 1000 ≤ 2 ^ (-19 : ℤ) / 2 := by
    have hpow : (2 : ℚ) ^ Rounding.lastPlace ((n : ℚ) / 1000) ≤ 2 ^ (-19 : ℤ) := zpow_le_zpow_right₀ one_le_two hplace
    have hle := neg_abs_le ((n : ℚ) / 1000 - Rounding.double (n / 1000))
    have hbound := Rounding.abs_sub_double_le ((n : ℚ) / 1000)
    linarith
  have hunit : (2 : ℚ) ^ (-19 : ℤ) / 2 < 1 / 1000 := by norm_num
  rw [mathRound, ← hm, Int.floor_eq_iff]
  push_cast at hhalf
  constructor <;> linarith

end Numbers

section Keys

variable (h : Sha256)

/-- Pairs of digits are read alike. -/
theorem hexToBytes_eq_decode {text : List Char} (hdigits : ∀ c ∈ text, Hex.isDigit c = true) (heven : text.length % 2 = 0) :
    hexToBytes text = Hex.decode text := by
  have hnone : text.any (fun c => (Hex.nibble c).isNone) = false := by
    refine List.any_eq_false.mpr fun c hc => ?_
    have hsome : (Hex.nibble c).isSome = true := hdigits c hc
    simpa [Option.isSome_iff_ne_none] using hsome
  have hpairs : Hex.decode text = some (hexPairs text) := by
    clear hnone
    induction text using hexPairs.induct with
    | case1 c d rest ih =>
      obtain ⟨high, hhigh⟩ := Option.isSome_iff_exists.mp (hdigits c List.mem_cons_self)
      obtain ⟨low, hlow⟩ := Option.isSome_iff_exists.mp (hdigits d (by simp))
      have hspace := Hex.isSpace_of_nibble hhigh
      have hrest : rest.length % 2 = 0 := by
        rw [List.length_cons, List.length_cons] at heven
        omega
      simp only [Hex.decode, hspace, hhigh, hlow, hexPairs, ih (fun e he => hdigits e (by simp [he])) hrest, Option.getD_some]
      rfl
    | case2 text hshort =>
      cases text with
      | nil => rfl
      | cons c rest =>
        cases rest with
        | nil => cases heven
        | cons d rest => exact absurd rfl (hshort c d rest)
  rw [hexToBytes, heven, hnone, hpairs]
  rfl

/-- For a user's id of hexadecimal digits, the key that `derive_scoped_key` gives, the browser derives, with the same name:
what it divides and rounds as floating-point numbers is the second that is counted in integers. -/
theorem deriveScopedKey_eq_some {scope : List Char} {kb : List UInt8} {uid : List Char} {keyRotationTimestamp : ℤ}
    {keyRotationSecret : List UInt8} {key : ScopedKey} (huid : ∀ c ∈ uid, Hex.isDigit c = true)
    (hkey : Crypto.deriveScopedKey h scope kb uid keyRotationTimestamp keyRotationSecret = .ok key) :
    deriveScopedKey h scope kb uid (Hex.encode keyRotationSecret) keyRotationTimestamp = some key := by
  obtain ⟨hkb, -, hhex, -, timestamp, htimestamp, hlength, hderived⟩ := deriveScopedKey_eq_ok hkey
  have hline : uid.getLast? ≠ some '\n' := fun hlast => absurd (huid _ (List.mem_of_getLast? hlast)) (by decide)
  have hthirtytwo : uid.length = 32 := by
    have hmatch := (Py.matchesClass_eq_true hline).mp hhex
    omega
  obtain ⟨hsync, rfl⟩ | ⟨hother, salt, hsalt, rfl⟩ := hderived
  · have hfingerprint := slice_zero (h.sha256 kb) 16
    rw [deriveScopedKey, if_pos hsync, numberText_of_intStr htimestamp]
    simp only [hkdf_zeroSalt, b64u_eq]
    exact congrArg (fun digest => some (ScopedKey.mk scope _ (timestamp ++ '-' :: b64uEncode digest))) hfingerprint
  · have hseconds : (Py.intStr ((keyRotationTimestamp + 500) / 1000)).getD [] = numberText ((keyRotationTimestamp + 500) / 1000) := by
      have hsmall := natAbs_lt_of_intStr htimestamp hlength
      have hdigits : (Py.str ((keyRotationTimestamp + 500) / 1000).natAbs).length ≤ 13 :=
        (Nat.length_toDigits_le_iff (by decide) (by decide)).mpr (by omega)
      have hmax : ¬Py.maxStrDigits < (Py.str ((keyRotationTimestamp + 500) / 1000).natAbs).length :=
        not_lt.mpr (hdigits.trans (by decide))
      rw [Py.intStr, if_neg hmax]
      rfl
    have hround := mathRound_double_div (natAbs_lt_of_intStr htimestamp hlength)
    have hread : hexToBytes uid = some salt := by rw [hexToBytes_eq_decode huid (by omega), hsalt]
    have hk := slice_natCast (hkdf h (kb ++ keyRotationSecret) (scopedKeyInfo scope) salt scopedKeyLength) 16 48
    have hkid := slice_zero (hkdf h (kb ++ keyRotationSecret) (scopedKeyInfo scope) salt scopedKeyLength) 16
    rw [List.drop_take] at hk
    simp only [deriveScopedKey, if_neg hother, hexToBytes_encode, hread, Option.bind_eq_bind, Option.bind_some, b64u_eq, hround]
    refine congrArg some (ScopedKey.mk.injEq .. |>.mpr ⟨rfl, congrArg b64uEncode hk, ?_⟩)
    rw [← hseconds]
    exact congrArg (fun digest => _ ++ '-' :: b64uEncode digest) hkid

/-- The loop makes the blocks that are still missing. -/
theorem concatBlocksFrom_eq (shared suffix block : List UInt8) {length fuel counter produced : ℕ} (hfuel : length - produced ≤ fuel) :
    concatBlocksFrom h shared suffix length fuel counter produced =
      (concatBlocks h shared suffix).blocks ((concatBlocks h shared suffix).rounds (length - produced)) counter block := by
  have hrounds : ∀ n, (concatBlocks h shared suffix).rounds n = (n + 31) / 32 := fun _ => rfl
  induction fuel generalizing counter produced block with
  | zero =>
    rw [hrounds, (by omega : (length - produced + 31) / 32 = 0)]
    rfl
  | succ fuel ih =>
    rw [concatBlocksFrom]
    split
    · rename_i hshort
      have hlength : (h.sha256 (wordBytes counter ++ shared ++ suffix)).length = 32 := h.length_sha256 _
      have hnext : (concatBlocks h shared suffix).rounds (length - produced) =
          (concatBlocks h shared suffix).rounds (length - (produced + 32)) + 1 := by
        rw [hrounds, hrounds]
        omega
      rw [hnext, Source.blocks]
      simp only [hlength]
      rw [ih ((concatBlocks h shared suffix).next counter block) (by omega)]
      rfl
    · rename_i hdone
      rw [hrounds, (by omega : (length - produced + 31) / 32 = 0)]
      rfl

/-- The content key is derived alike. -/
theorem concatKdf_eq (shared : List UInt8) {algorithm apu apv : List UInt8} {length : ℕ} (halgorithm : algorithm.length ≤ maxWord)
    (hapu : apu.length ≤ maxWord) (hapv : apv.length ≤ maxWord) (hlength : length * 8 ≤ maxWord) :
    Crypto.concatKdf h shared algorithm apu apv length = some (concatKdf h shared algorithm apu apv length) := by
  obtain ⟨info, hinfo, -, hkey⟩ := concatKdf_eq_output h shared halgorithm hapu hapv hlength
  obtain ⟨first, second, third, last, hfirst, hsecond, hthird, hlast, rfl⟩ := otherInfo_eq_some.mp hinfo
  rw [lengthPrefixed, packWord_of_le halgorithm] at hfirst
  rw [lengthPrefixed, packWord_of_le hapu] at hsecond
  rw [lengthPrefixed, packWord_of_le hapv] at hthird
  rw [packWord_of_le hlength] at hlast
  cases hfirst
  cases hsecond
  cases hthird
  cases hlast
  rw [hkey, Source.output, concatKdf]
  simp only [List.append_assoc]
  rw [concatBlocksFrom_eq h _ _ [] (Nat.sub_le length 0), Nat.sub_zero]

end Keys

end FxaLite.Content
