import FxaLite.SyncStorage.Batches

/-!
# The two spellings of a batch id

A batch id is handed out as the base64 of its decimal text, and taken back in that spelling or as
the decimal text itself. The decoder tries base64 first. Every digit stands for six bits that begin
with two ones, so what a decimal text might decode to begins with a byte that is not ASCII.
-/

namespace FxaLite.SyncStorage

/-- Every digit is in the upper quarter of the base64 alphabet. -/
theorem le_sextet_of_isDigit {c : Char} (hc : c.isDigit = true) {n : ℕ} (h : Base64.sextet c = some n) : 52 ≤ n := by
  obtain ⟨hlow, hhigh⟩ := Py.toNat_of_isDigit hc
  have hupper : ¬(65 ≤ c.toNat ∧ c.toNat ≤ 90) := by omega
  have hlower : ¬(97 ≤ c.toNat ∧ c.toNat ≤ 122) := by omega
  have hdigit : 48 ≤ c.toNat ∧ c.toNat ≤ 57 := by omega
  simp only [Base64.sextet, if_neg hupper, if_neg hlower, if_pos hdigit, Option.some.injEq] at h
  omega

/-- What a text that begins with a digit decodes to begins with a byte that is not ASCII. -/
theorem head_of_decodeStrict {c : Char} (hc : c.isDigit = true) {rest : List Char} {bytes : List UInt8}
    (h : Base64.decodeStrict (c :: rest) = some bytes) : ∃ first tail, bytes = first :: tail ∧ 128 ≤ first.toNat := by
  have hhigh : ∀ {d : Char} {x y : ℕ}, Base64.sextet c = some x → Base64.sextet d = some y →
      128 ≤ (UInt8.ofNat (x * 4 + y / 16)).toNat := by
    intro d x y hx hy
    have hlow := le_sextet_of_isDigit hc hx
    have hxlt := Base64.sextet_lt hx
    have hylt := Base64.sextet_lt hy
    have hbyte : x * 4 + y / 16 < 256 := by omega
    rw [UInt8.toNat_ofNat_of_lt' hbyte]
    omega
  unfold Base64.decodeStrict at h
  split at h
  · rename_i hnil
    cases hnil
  · rename_i a b heq
    obtain ⟨rfl, -⟩ := List.cons_eq_cons.mp heq
    simp only [Option.bind_eq_bind, Option.bind_eq_some_iff, Option.some.injEq] at h
    obtain ⟨x, hx, y, hy, rfl⟩ := h
    exact ⟨_, _, rfl, hhigh hx hy⟩
  · rename_i a b d hne heq
    obtain ⟨rfl, -⟩ := List.cons_eq_cons.mp heq
    simp only [Option.bind_eq_bind, Option.bind_eq_some_iff, Option.some.injEq] at h
    obtain ⟨x, hx, y, hy, z, -, rfl⟩ := h
    exact ⟨_, _, rfl, hhigh hx hy⟩
  · rename_i a b d e tail hne hne' heq
    obtain ⟨rfl, -⟩ := List.cons_eq_cons.mp heq
    simp only [Option.bind_eq_bind, Option.bind_eq_some_iff] at h
    obtain ⟨x, hx, y, hy, z, -, w, -, h⟩ := h
    split at h
    · cases h
      exact ⟨_, _, rfl, hhigh hx hy⟩
    · obtain ⟨rest, -, h⟩ := Option.bind_eq_some_iff.mp h
      cases h
      exact ⟨_, _, rfl, hhigh hx hy⟩
  · cases h

/-- No decimal text is a strict base64 text that decodes to ASCII. -/
theorem decodeAscii_decodeStrict_of_isDigit {s : List Char} (hnil : s ≠ []) (hs : ∀ c ∈ s, c.isDigit = true) :
    (Base64.decodeStrict s).bind Py.decodeAscii = none := by
  cases s with
  | nil => exact absurd rfl hnil
  | cons c rest =>
    cases hbytes : Base64.decodeStrict (c :: rest) with
    | none => rfl
    | some bytes =>
      obtain ⟨first, tail, rfl, hfirst⟩ := head_of_decodeStrict (hs c (by simp)) hbytes
      have hlt : ¬first.toNat < 128 := not_lt.mpr hfirst
      simp [Py.decodeAscii, hlt]

/-- Either spelling is read as the decimal text is. -/
theorem decodeBatchId_of_text {value : String} {n : ℕ}
    (h : ((Base64.decodeStrict value.toList).bind Py.decodeAscii).getD value.toList = Py.str n) :
    decodeBatchId value =
      if Py.maxStrDigits < (Py.str n).length then .error .batchNotFound else .ok (n : ℤ) := by
  unfold decodeBatchId
  simp only [h, Py.int_str_eq]
  split
  · rename_i m hm
    split at hm
    · cases hm
    · rename_i hlen
      rw [if_neg hlen, Option.some.inj hm]
  · rename_i hnone
    split at hnone
    · rename_i hlen
      rw [if_pos hlen]
    · cases hnone

/-- The decimal text of a number is taken as it is. -/
theorem getD_decimal (n : ℕ) :
    ((Base64.decodeStrict (String.ofList (Py.str n)).toList).bind Py.decodeAscii).getD (String.ofList (Py.str n)).toList =
      Py.str n := by
  have hnil : Py.str n ≠ [] := Nat.toDigits_ne_nil
  rw [String.toList_ofList, decodeAscii_decodeStrict_of_isDigit hnil fun c hc => Py.isDigit_of_mem_str hc,
    Option.getD_none]

/-- A number of as many digits as the interpreter converts is read back from both spellings, and no
decimal text at all is mistaken for base64. -/
theorem batchId_roundTrip :
    (∀ n : ℕ, n < 10 ^ Py.maxStrDigits →
      decodeBatchId (encodeBatchId n) = .ok (n : ℤ) ∧ decodeBatchId (String.ofList (Py.str n)) = .ok (n : ℤ)) ∧
      ∀ s : List Char, s ≠ [] → (∀ c ∈ s, c.isDigit = true) → (Base64.decodeStrict s).bind Py.decodeAscii = none := by
  refine ⟨fun n hn => ?_, fun s => decodeAscii_decodeStrict_of_isDigit⟩
  have hlen : ¬Py.maxStrDigits < (Py.str n).length :=
    not_lt.mpr ((Nat.length_toDigits_le_iff (by decide) (by decide)).mpr hn)
  constructor
  · have htext : ((Base64.decodeStrict (encodeBatchId n).toList).bind Py.decodeAscii).getD (encodeBatchId n).toList = Py.str n := by
      rw [decodeStrict_encodeBatchId, Option.getD_some]
    rw [decodeBatchId_of_text htext, if_neg hlen]
  · rw [decodeBatchId_of_text (getD_decimal n), if_neg hlen]

/-- One digit more, and the interpreter refuses to convert the text. -/
theorem decodeBatchId_too_long :
    decodeBatchId (String.ofList (Py.str (10 ^ Py.maxStrDigits))) = .error .batchNotFound := by
  have hlen : Py.maxStrDigits < (Py.str (10 ^ Py.maxStrDigits)).length := by
    rw [← not_le, Py.str, Nat.length_toDigits_le_iff (by decide) (by decide)]
    exact lt_irrefl _
  rw [decodeBatchId_of_text (getD_decimal _), if_pos hlen]

end FxaLite.SyncStorage
