import FxaLite.Lib.Utf8
import FxaLite.SyncStorage.Hawk

/-!
# What a signature covers

The normalized string of a request is its fields, each on a line of its own, so it determines
every field that is a single line. The input of the payload hash is a media type on a line and
then the body, so it determines the body whatever the body holds.
-/

namespace FxaLite.SyncStorage.Hawk

open Crypto

/-- A field that can stand on a line. -/
def SingleLine (field : List Char) : Prop := '\n' ∉ field

/-- A request of such fields; the numbers hold none. -/
structure HawkHeader.IsSingleLine (header : HawkHeader) (target : Target) : Prop where
  nonce : SingleLine header.nonce
  method : SingleLine target.method
  resource : SingleLine target.resource
  host : SingleLine target.host
  hash : SingleLine header.hash
  ext : SingleLine header.ext

/-! ### Fields that stay on their line -/

/-- A small letter does not break a line that its capital does not break. -/
theorem SingleLine.lower {s : List Char} (h : SingleLine s) : SingleLine (Py.lower s) := by
  intro hmem
  obtain ⟨c, hc, heq⟩ := List.mem_map.mp hmem
  rw [Py.lowerChar] at heq
  split at heq
  · rename_i hupper
    simp only [Bool.or_eq_true, Bool.and_eq_true, decide_eq_true_eq] at hupper
    have hnat := congrArg Char.toNat heq
    rw [Py.toNat_ofNat_of_lt (by omega)] at hnat
    change c.toNat + 32 = 10 at hnat
    omega
  · split at heq
    · cases heq
    · exact h (heq ▸ hc)

/-- Nor does a capital. -/
theorem SingleLine.upper {s : List Char} (h : SingleLine s) : SingleLine (Py.upper s) := by
  intro hmem
  obtain ⟨c, hc, heq⟩ := List.mem_flatMap.mp hmem
  dsimp only at heq
  split at heq
  · rename_i hlower
    simp only [Bool.or_eq_true, Bool.and_eq_true, decide_eq_true_eq] at hlower
    have hnat := congrArg Char.toNat (List.mem_singleton.mp heq)
    rw [Py.toNat_ofNat_of_lt (n := c.toNat - 32) (by omega)] at hnat
    change 10 = c.toNat - 32 at hnat
    omega
  · split at heq
    · simp at heq
    · split at heq
      · simp at heq
      · split at heq
        · simp at heq
        · exact h (List.mem_singleton.mp heq ▸ hc)

/-- Nor what `str` writes. -/
theorem singleLine_of_intStr {n : ℤ} {s : List Char} (h : Py.intStr n = some s) : SingleLine s := by
  intro hmem
  rw [Py.intStr, Option.ite_none_left_eq_some, Option.some.injEq] at h
  obtain ⟨-, rfl⟩ := h
  have hdigit : ('\n' : Char).isDigit ≠ true := by decide
  split at hmem
  · obtain heq | hrest := List.mem_cons.mp hmem
    · cases heq
    · exact hdigit (Py.isDigit_of_mem_str hrest)
  · exact hdigit (Py.isDigit_of_mem_str hmem)

/-- A media type is part of its content type. -/
theorem SingleLine.mediaType {contentType : List Char} (h : SingleLine contentType) :
    SingleLine (mediaType contentType) := by
  refine SingleLine.lower fun hmem => h ?_
  have hpart : (Py.partition ';' contentType).1 ⊆ contentType := (Py.partition_isPrefix ';' contentType).subset
  refine hpart ?_
  rw [Py.strip, Py.stripWhere, List.mem_reverse] at hmem
  have hdropped := List.mem_reverse.mp (List.dropWhile_subset _ hmem)
  exact List.dropWhile_subset _ hdropped

/-! ### The strings determine the fields -/

/-- The lines of a normalized string. -/
theorem normalized_eq_some {header : HawkHeader} {target : Target} {message : List UInt8} :
    normalized header target = some message ↔
      ∃ ts port, Py.intStr header.ts = some ts ∧ Py.intStr target.port = some port ∧
        utf8 (['\n'].intercalate
          ["hawk.1.header".toList, ts, header.nonce, Py.upper target.method, target.resource, Py.lower target.host, port,
            header.hash, header.ext] ++ ['\n']) = message := by
  simp only [normalized, Py.text?_char, Option.bind_eq_bind, Option.bind_some, Option.bind_eq_some_iff, Option.some.injEq]
  constructor
  · rintro ⟨ts, hts, port, hport, heq⟩
    exact ⟨ts, port, hts, hport, heq⟩
  · rintro ⟨ts, port, hts, hport, heq⟩
    exact ⟨ts, hts, port, hport, heq⟩

/-- Lines that are joined can be told apart. -/
theorem intercalate_inj {lines lines' : List (List Char)} (h : ∀ line ∈ lines, SingleLine line)
    (h' : ∀ line ∈ lines', SingleLine line) (hnil : lines ≠ []) (hnil' : lines' ≠ [])
    (heq : ['\n'].intercalate lines = ['\n'].intercalate lines') : lines = lines' := by
  rw [← List.splitOn_intercalate '\n' h hnil, heq, List.splitOn_intercalate '\n' h' hnil']

/-- A normalized string of single lines determines them all. -/
theorem normalized_inj {header header' : HawkHeader} {target target' : Target} {message : List UInt8}
    (hlines : header.IsSingleLine target) (hlines' : header'.IsSingleLine target')
    (h : normalized header target = some message) (h' : normalized header' target' = some message) :
    header.ts = header'.ts ∧ header.nonce = header'.nonce ∧ Py.upper target.method = Py.upper target'.method ∧
      target.resource = target'.resource ∧ Py.lower target.host = Py.lower target'.host ∧
      target.port = target'.port ∧ header.hash = header'.hash ∧ header.ext = header'.ext := by
  obtain ⟨ts, port, hts, hport, hmessage⟩ := normalized_eq_some.mp h
  obtain ⟨ts', port', hts', hport', hmessage'⟩ := normalized_eq_some.mp h'
  have hsingle : ∀ {header : HawkHeader} {target : Target} {ts port : List Char}, header.IsSingleLine target →
      Py.intStr header.ts = some ts → Py.intStr target.port = some port →
      ∀ line ∈ ["hawk.1.header".toList, ts, header.nonce, Py.upper target.method, target.resource,
        Py.lower target.host, port, header.hash, header.ext], SingleLine line := by
    intro header target ts port hlines hts hport line hline
    simp only [List.mem_cons, List.not_mem_nil, or_false] at hline
    obtain rfl | rfl | rfl | rfl | rfl | rfl | rfl | rfl | rfl := hline
    · simp [SingleLine]
    · exact singleLine_of_intStr hts
    · exact hlines.nonce
    · exact hlines.method.upper
    · exact hlines.resource
    · exact hlines.host.lower
    · exact singleLine_of_intStr hport
    · exact hlines.hash
    · exact hlines.ext
  have htext := List.append_cancel_right (Utf8.encode_injective (hmessage.trans hmessage'.symm))
  have hfields := intercalate_inj (hsingle hlines hts hport) (hsingle hlines' hts' hport') (by simp) (by simp) htext
  simp only [List.cons.injEq, true_and, and_true] at hfields
  obtain ⟨hts_eq, hnonce, hmethod, hresource, hhost, hport_eq, hhash, hext⟩ := hfields
  exact ⟨Py.intStr_inj hts (hts_eq ▸ hts'), hnonce, hmethod, hresource, hhost, Py.intStr_inj hport (hport_eq ▸ hport'),
    hhash, hext⟩

/-- The input of a payload hash determines the media type and the body. -/
theorem payloadInput_inj {body body' : List UInt8} {contentType contentType' : List Char}
    (hline : SingleLine contentType) (hline' : SingleLine contentType')
    (h : payloadInput body contentType = payloadInput body' contentType') :
    mediaType contentType = mediaType contentType' ∧ body = body' := by
  have hsplit : ∀ (body : List UInt8) (contentType : List Char), payloadInput body contentType =
      utf8 "hawk.1.payload\n".toList ++
        ((mediaType contentType).flatMap String.utf8EncodeChar ++ (String.utf8EncodeChar '\n' ++ (body ++ utf8 ['\n']))) := by
    intro body contentType
    simp only [payloadInput, utf8, List.flatMap_append, List.flatMap_cons, List.flatMap_nil, List.append_assoc,
      List.append_nil]
  rw [hsplit, hsplit] at h
  obtain ⟨hmedia, hbody⟩ := Utf8.encode_append_inj hline.mediaType hline'.mediaType (List.append_cancel_left h)
  exact ⟨hmedia, List.append_cancel_right hbody⟩

/-- What is signed determines every field that is a single line, and what is hashed the media type
and every byte of the body. -/
theorem signed_strings_injective :
    (∀ (header header' : HawkHeader) (target target' : Target) (message : List UInt8),
      header.IsSingleLine target → header'.IsSingleLine target' →
      normalized header target = some message → normalized header' target' = some message →
        header.ts = header'.ts ∧ header.nonce = header'.nonce ∧ Py.upper target.method = Py.upper target'.method ∧
          target.resource = target'.resource ∧ Py.lower target.host = Py.lower target'.host ∧
          target.port = target'.port ∧ header.hash = header'.hash ∧ header.ext = header'.ext) ∧
      ∀ (body body' : List UInt8) (contentType contentType' : List Char),
        SingleLine contentType → SingleLine contentType' →
        payloadInput body contentType = payloadInput body' contentType' →
          mediaType contentType = mediaType contentType' ∧ body = body' :=
  ⟨fun _ _ _ _ _ => normalized_inj, fun _ _ _ _ => payloadInput_inj⟩

end FxaLite.SyncStorage.Hawk
