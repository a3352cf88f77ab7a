import Mathlib.Data.List.Basic

/-!
# UTF-8 is a prefix code

No character's bytes begin another's. A text is therefore read off its bytes in one way, also where
bytes follow that are no text, as long as it is known where the text ends.
-/

namespace Utf8

/-- The bytes of a character say which one it is, and where they end. -/
theorem encodeChar_append_inj {c d : Char} {rest tail : List UInt8}
    (h : String.utf8EncodeChar c ++ rest = String.utf8EncodeChar d ++ tail) : c = d ∧ rest = tail := by
  have hbytes := congrArg List.toByteArray h
  rw [List.toByteArray_append, List.toByteArray_append] at hbytes
  have hdecode := congrArg (ByteArray.utf8DecodeChar? · 0) hbytes
  simp only [ByteArray.utf8DecodeChar?_utf8EncodeChar_append, Option.some.injEq] at hdecode
  subst hdecode
  exact ⟨rfl, List.append_cancel_left h⟩

/-- Two texts up to a character that neither holds, and what follows it. -/
theorem encode_append_inj {sep : Char} {s t : List Char} (hs : sep ∉ s) (ht : sep ∉ t) {rest tail : List UInt8}
    (h : s.flatMap String.utf8EncodeChar ++ (String.utf8EncodeChar sep ++ rest) =
      t.flatMap String.utf8EncodeChar ++ (String.utf8EncodeChar sep ++ tail)) : s = t ∧ rest = tail := by
  induction s generalizing t with
  | nil =>
    cases t with
    | nil => exact ⟨rfl, (encodeChar_append_inj h).2⟩
    | cons d t =>
      rw [List.flatMap_cons, List.append_assoc] at h
      exact absurd (encodeChar_append_inj h).1 fun heq => ht (heq ▸ List.mem_cons_self)
  | cons c s ih =>
    cases t with
    | nil =>
      rw [List.flatMap_cons, List.append_assoc] at h
      exact absurd (encodeChar_append_inj h).1 fun heq => hs (heq ▸ List.mem_cons_self)
    | cons d t =>
      rw [List.flatMap_cons, List.append_assoc, List.flatMap_cons, List.append_assoc] at h
      obtain ⟨rfl, hrest⟩ := encodeChar_append_inj h
      have hst := ih (fun hmem => hs (List.mem_cons_of_mem _ hmem)) (fun hmem => ht (List.mem_cons_of_mem _ hmem)) hrest
      exact ⟨congrArg (c :: ·) hst.1, hst.2⟩

/-- Different texts have different bytes. -/
theorem encode_injective : Function.Injective fun s : List Char => s.flatMap String.utf8EncodeChar := by
  intro s t h
  have hbytes : s.utf8Encode = t.utf8Encode := congrArg List.toByteArray h
  have hdecode := congrArg ByteArray.utf8Decode? hbytes
  rw [List.utf8Decode?_utf8Encode, List.utf8Decode?_utf8Encode, Option.some.injEq] at hdecode
  exact congrArg Array.toList hdecode

end Utf8
