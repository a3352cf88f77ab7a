import FxaLite.Crypto.Expansion
import FxaLite.Lib.Hex

/-!
# Stretched passwords and tokens

`onepw.py` and `tokens.py`. A password is stretched by the client, which keeps one key and sends
the other, and by the server, which keeps a hash of what it is sent. A token is a seed, from which
the client and the server expand the same keys; what is sealed under one is opened with it.
-/

namespace FxaLite.Crypto

/-- What is taken from `hashlib` besides: the two functions that stretch a password. -/
structure Kdf extends Sha256 where
  pbkdf2 : List UInt8 → List UInt8 → ℕ → List UInt8
  scrypt : List UInt8 → List UInt8 → List UInt8

/-! ### Passwords -/

/-- `Salt`, of one of two versions. -/
inductive Salt where
  | v1 (email : List Char)
  | v2 (value : List Char)
  deriving DecidableEq, Repr

/-- `Salt.__str__`. -/
def Salt.str : Salt → List Char
  | .v1 email => (hkdfNamespace ++ "quickStretch:").toList ++ email
  | .v2 value => (hkdfNamespace ++ "quickStretchV2:").toList ++ value

/-- `Salt.iterations`. -/
def Salt.iterations : Salt → ℕ
  | .v1 _ => 1000
  | .v2 _ => 650000

/-- `derive` with the length it has by default, which is within the bound. -/
def deriveKey (h : Sha256) (ikm : List UInt8) (name : String) : List UInt8 := hkdf h ikm (kw name)

/-- It has that length. -/
@[simp] theorem length_deriveKey (h : Sha256) (ikm : List UInt8) (name : String) :
    (deriveKey h ikm name).length = hashLength := length_hkdf _

/-- `quick_stretch`. -/
def quickStretch (k : Kdf) (password : List Char) (salt : Salt) : List UInt8 :=
  k.pbkdf2 (utf8 password) (utf8 salt.str) salt.iterations

/-- `Credentials`: the key that is sent, and the one that is kept. -/
structure Credentials where
  authPw : List UInt8
  unwrapBKey : List UInt8
  deriving DecidableEq, Repr

/-- `credentials`. -/
def credentials (k : Kdf) (password : List Char) (salt : Salt) : Credentials :=
  let stretched := quickStretch k password salt
  ⟨deriveKey k.toSha256 stretched "authPW", deriveKey k.toSha256 stretched "unwrapBkey"⟩

/-- `StretchedPassword`: a text, of hexadecimal digits. -/
structure StretchedPassword where
  stretched : List Char
  deriving DecidableEq, Repr

namespace StretchedPassword

/-- `_ikm`: the bytes of the text, not those that it spells. -/
def ikm (password : StretchedPassword) : List UInt8 := utf8 password.stretched

/-- `verify_hash`. -/
def verifyHash (h : Sha256) (password : StretchedPassword) : List UInt8 := deriveKey h password.ikm "verifyHash"

/-- `wrap`, in its own context. -/
def wrap (h : Sha256) (password : StretchedPassword) (payload : List UInt8) : Except ValueError (List UInt8) :=
  xor (deriveKey h password.ikm "wrapwrapKey") payload

end StretchedPassword

/-- `stretch`. -/
def stretch (k : Kdf) (authPw authSalt : List UInt8) : StretchedPassword := ⟨Hex.encode (k.scrypt authPw authSalt)⟩

/-! ### Tokens -/

/-- `TokenType`. -/
inductive TokenType where
  | session
  | keyFetch
  | accountReset
  | passwordChange
  | passwordForgot
  deriving DecidableEq, Repr

/-- Its value, a part of the protocol. -/
def TokenType.value : TokenType → String
  | .session => "sessionToken"
  | .keyFetch => "keyFetchToken"
  | .accountReset => "accountResetToken"
  | .passwordChange => "passwordChangeToken"
  | .passwordForgot => "passwordForgotToken"

/-- `TokenKeys`. -/
structure TokenKeys where
  data : List UInt8
  id : List UInt8
  authKey : List UInt8
  bundleKey : List UInt8
  deriving DecidableEq, Repr

/-- `token`. -/
def TokenKeys.token (keys : TokenKeys) : String := String.ofList (Hex.encode keys.data)

/-- The keys of a seed of the right length. -/
def tokenKeys (h : Sha256) (type : TokenType) (data : List UInt8) : TokenKeys :=
  let km := hkdf h data (kw type.value) [] (3 * 32)
  ⟨data, km.take 32, (km.drop 32).take 32, (km.drop 64).take 32⟩

/-- `derive_token_keys`. -/
def deriveTokenKeys (h : Sha256) (type : TokenType) (data : List UInt8) : Except ValueError TokenKeys :=
  if data.length ≠ 32 then .error (.seedLength data.length) else .ok (tokenKeys h type data)

/-- `ACCOUNT_KEYS_LENGTH`. -/
def accountKeysLength : ℕ := 64

/-- `bundle_account_keys`. -/
def bundleAccountKeys (h : Sha256) (bundleKey ka wrapKb : List UInt8) : Except ValueError (List UInt8) :=
  bundle h bundleKey "account/keys" (ka ++ wrapKb)

/-- `unbundle_account_keys`. -/
def unbundleAccountKeys (h : Sha256) (bundleKey payload : List UInt8) : Except ValueError (List UInt8 × List UInt8) := do
  let plaintext ← unbundle h bundleKey "account/keys" payload
  if plaintext.length ≠ accountKeysLength then .error (.keysLength plaintext.length)
  else .ok (plaintext.take 32, plaintext.drop 32)

/-! ### What is sealed is opened -/

/-- What is combined twice with the same bytes comes back. -/
theorem zipWith_xor_cancel {a b : List UInt8} (h : a.length = b.length) :
    List.zipWith (· ^^^ ·) (List.zipWith (· ^^^ ·) a b) b = a := by
  induction a generalizing b with
  | nil => simp
  | cons x rest ih =>
    cases b with
    | nil => cases h
    | cons y others =>
      simp only [List.zipWith_cons_cons, ih (Nat.succ.inj h), UInt8.xor_assoc, UInt8.xor_self, UInt8.xor_zero]

/-- Two texts of one length can be combined. -/
theorem xor_eq_ok {a b : List UInt8} (h : a.length = b.length) : xor a b = .ok (List.zipWith (· ^^^ ·) a b) :=
  if_neg (not_not.mpr h)

variable {h : Sha256} {bundleKey : List UInt8} {keyInfo : String}

/-- A bundle is what was sealed and a digest. -/
theorem sealedPart_append {ciphertext mac : List UInt8} (hmac : mac.length = bundleMacLength) :
    sealedPart (ciphertext ++ mac) = ciphertext ∧
      (ciphertext ++ mac).drop ((ciphertext ++ mac).length - bundleMacLength) = mac := by
  have hlength : (ciphertext ++ mac).length - bundleMacLength = ciphertext.length := by
    rw [List.length_append, hmac, Nat.add_sub_cancel]
  rw [sealedPart, hlength]
  exact ⟨List.take_left, List.drop_left⟩

/-- What is combined has the length of both, and comes back. -/
theorem length_of_xor {a b c : List UInt8} (hxor : xor a b = .ok c) : a.length = b.length ∧ c.length = a.length := by
  unfold xor at hxor
  split at hxor
  · cases hxor
  · rename_i hlength
    cases hxor
    have hsame := not_not.mp hlength
    exact ⟨hsame, by simp [hsame]⟩

/-- So it can be undone. -/
theorem xor_of_xor {a b c : List UInt8} (hxor : xor a b = .ok c) : xor c b = .ok a := by
  obtain ⟨hlength, hresult⟩ := length_of_xor hxor
  rw [xor_eq_ok hlength] at hxor
  cases hxor
  rw [xor_eq_ok (hresult.trans hlength), zipWith_xor_cancel hlength]

/-- A bundle with a digest of its own, under the keys for its size. -/
theorem unbundle_append {hmacKey xorKey ciphertext mac : List UInt8} (hmac : mac.length = bundleMacLength)
    (hkeys : bundleKeys h bundleKey keyInfo ciphertext.length = .ok (hmacKey, xorKey)) :
    unbundle h bundleKey keyInfo (ciphertext ++ mac) =
      if h.hmac hmacKey ciphertext ≠ mac then .error .invalidSignature else xor ciphertext xorKey := by
  obtain ⟨hsealed, hdigest⟩ := @sealedPart_append ciphertext mac hmac
  rw [unbundle, hsealed, hdigest, hkeys, Fallible.ok_bind]

/-- What was sealed is opened with the same key. -/
theorem unbundle_of_bundle {payload bytes : List UInt8} (hsealed : bundle h bundleKey keyInfo payload = .ok bytes) :
    unbundle h bundleKey keyInfo bytes = .ok payload := by
  simp only [bundle, Fallible.bind_eq_ok] at hsealed
  obtain ⟨⟨hmacKey, xorKey⟩, hkeys, ciphertext, hxor, hbytes⟩ := hsealed
  cases hbytes
  rw [← (length_of_xor hxor).2] at hkeys
  rw [unbundle_append (h.length_hmac _ _) hkeys, if_neg (not_not.mpr rfl)]
  exact xor_of_xor hxor

/-- Keys that were sealed are opened as they were. -/
theorem unbundleAccountKeys_of_bundle {ka wrapKb bytes : List UInt8} (hka : ka.length = 32) (hwrapKb : wrapKb.length = 32)
    (hsealed : bundleAccountKeys h bundleKey ka wrapKb = .ok bytes) :
    unbundleAccountKeys h bundleKey bytes = .ok (ka, wrapKb) := by
  have hlength : (ka ++ wrapKb).length = accountKeysLength := by
    rw [List.length_append, hka, hwrapKb]
    rfl
  rw [unbundleAccountKeys, unbundle_of_bundle hsealed, Fallible.ok_bind, if_neg (not_not.mpr hlength), ← hka,
    List.take_left, List.drop_left]

/-- What is opened with another digest than its own is refused. -/
theorem unbundle_eq_invalidSignature {payload : List UInt8} (hsize : (sealedPart payload).length ≤ 8128) :
    ∃ hmacKey xorKey, bundleKeys h bundleKey keyInfo (sealedPart payload).length = .ok (hmacKey, xorKey) ∧
      (unbundle h bundleKey keyInfo payload = .error .invalidSignature ↔
        h.hmac hmacKey (sealedPart payload) ≠ payload.drop (payload.length - bundleMacLength)) := by
  obtain ⟨hmacKey, xorKey, plaintext, hkeys, -, hopened⟩ := unbundle_of_le h bundleKey keyInfo hsize
  refine ⟨hmacKey, xorKey, hkeys, ?_⟩
  rw [hopened]
  split <;> simp_all

end FxaLite.Crypto
