import FxaLite.Crypto.Base64Url
import FxaLite.Crypto.Tokens
import FxaLite.Lib.PyText

/-!
# Scoped keys

`scoped_keys.py`: the key of one scope, derived from `kB` and named by the time of the last rotation
and a fingerprint. The Sync scopes take an older path, on which the fingerprint is of `kB` itself.
-/

namespace FxaLite.Crypto

/-- `KEY_LENGTH`. -/
def scopedKeyLength : ℕ := 48

/-- `SYNC_SCOPES`. -/
def syncScopes : List (List Char) :=
  ["https://identity.mozilla.com/apps/oldsync".toList, "https://identity.thunderbird.net/apps/sync".toList]

/-- `NULL_KEY_ROTATION_SECRET`. -/
def nullKeyRotationSecret : List UInt8 := List.replicate 32 0

/-- `_HEX32_RE.match`. -/
def isHex32 (uid : List Char) : Bool := Py.matchesClass Hex.isDigit 32 32 uid

/-- Why no key is derived; each is a `ValueError`. -/
inductive ScopedKeyError where
  | inputKey
  | keyRotationSecret
  | uid
  | keyRotationTimestamp
  | identifier
  deriving DecidableEq, Repr

/-- The JWK of a scoped key, without its `kty`, which is `oct`. -/
structure ScopedKey where
  scope : List Char
  k : List Char
  kid : List Char
  deriving DecidableEq, Repr

section Derivation

variable (h : Sha256)

/-- The fingerprint of `kB`. -/
def fingerprint (kb : List UInt8) : List UInt8 := (h.sha256 kb).take 16

/-- `client_state`. -/
def clientState (kb : List UInt8) : List Char := Hex.encode (fingerprint h kb)

/-- `_legacy_sync_key`; the timestamp is as it is written. -/
def legacySyncKey (scope : List Char) (kb : List UInt8) (timestamp : List Char) : ScopedKey where
  scope := scope
  k := b64uEncode (hkdf h kb (kw "oldsync") [] 64)
  kid := timestamp ++ '-' :: b64uEncode (fingerprint h kb)

/-- The info of a scope. -/
def scopedKeyInfo (scope : List Char) : List UInt8 := utf8 ((hkdfNamespace ++ "scoped_key\n").toList ++ scope)

/-- The key of any other scope. -/
def generalScopedKey (scope : List Char) (kb salt : List UInt8) (keyRotationTimestamp : ℤ)
    (keyRotationSecret : List UInt8) : ScopedKey :=
  let km := hkdf h (kb ++ keyRotationSecret) (scopedKeyInfo scope) salt scopedKeyLength
  let seconds := (keyRotationTimestamp + 500) / 1000
  { scope
    k := b64uEncode ((km.drop 16).take 32)
    kid := (Py.intStr seconds).getD [] ++ '-' :: b64uEncode (km.take 16) }

/-- `derive_scoped_key`. -/
def deriveScopedKey (scope : List Char) (kb : List UInt8) (uid : List Char) (keyRotationTimestamp : ℤ)
    (keyRotationSecret : List UInt8) : Except ScopedKeyError ScopedKey :=
  if kb.length ≠ 32 then .error .inputKey
  else if keyRotationSecret.length ≠ 32 then .error .keyRotationSecret
  else if !isHex32 uid then .error .uid
  else
    match Py.intStr keyRotationTimestamp with
    | none => .error .keyRotationTimestamp
    | some timestamp =>
      if timestamp.length ≠ 13 then .error .keyRotationTimestamp
      else if scope.length < 10 then .error .identifier
      else if scope ∈ syncScopes then .ok (legacySyncKey h scope kb timestamp)
      else
        match Hex.decode uid with
        | none => .error .uid
        | some salt => .ok (generalScopedKey h scope kb salt keyRotationTimestamp keyRotationSecret)

end Derivation

/-! ### What is derived -/

section Derived

variable {h : Sha256} {scope : List Char} {kb : List UInt8} {uid : List Char} {keyRotationTimestamp : ℤ}
  {keyRotationSecret : List UInt8} {key : ScopedKey}

/-- What a key is derived from, and what it is. -/
theorem deriveScopedKey_eq_ok (hkey : deriveScopedKey h scope kb uid keyRotationTimestamp keyRotationSecret = .ok key) :
    kb.length = 32 ∧ keyRotationSecret.length = 32 ∧ isHex32 uid = true ∧ 10 ≤ scope.length ∧
      ∃ timestamp, Py.intStr keyRotationTimestamp = some timestamp ∧ timestamp.length = 13 ∧
        (scope ∈ syncScopes ∧ key = legacySyncKey h scope kb timestamp ∨
          scope ∉ syncScopes ∧ ∃ salt, Hex.decode uid = some salt ∧
            key = generalScopedKey h scope kb salt keyRotationTimestamp keyRotationSecret) := by
  unfold deriveScopedKey at hkey
  split at hkey
  · cases hkey
  rename_i hkb
  split at hkey
  · cases hkey
  rename_i hsecret
  split at hkey
  · cases hkey
  rename_i huid
  split at hkey
  · cases hkey
  rename_i timestamp htimestamp
  split at hkey
  · cases hkey
  rename_i hlength
  split at hkey
  · cases hkey
  rename_i hscope
  refine ⟨not_not.mp hkb, not_not.mp hsecret, by simpa using huid, not_lt.mp hscope, timestamp, htimestamp, not_not.mp hlength,
    ?_⟩
  split at hkey
  · rename_i hsync
    cases hkey
    exact Or.inl ⟨hsync, rfl⟩
  · rename_i hother
    split at hkey
    · cases hkey
    · rename_i salt hsalt
      cases hkey
      exact Or.inr ⟨hother, salt, hsalt, rfl⟩

end Derived

end FxaLite.Crypto
