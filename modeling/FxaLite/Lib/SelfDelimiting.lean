import Mathlib.Data.List.Basic

/-!
# Encodings that say where they end

An encoder may refuse a value. It is self-delimiting when two strings that begin with codes are equal
only if the coded values are, and what follows them; then values can be written one after another
without a separator. Codes of one width are so, and so is data with its length before it.
-/

variable {α β : Type*}

/-- A code at the beginning of a string determines its value and the rest of the string. -/
def SelfDelimiting (encode : α → Option (List β)) : Prop :=
  ∀ ⦃x y : α⦄ ⦃code code' : List β⦄, encode x = some code → encode y = some code' →
    ∀ ⦃rest rest' : List β⦄, code ++ rest = code' ++ rest' → x = y ∧ rest = rest'

/-- Data after a header that tells its length. -/
def lengthFirst (header : ℕ → Option (List β)) (data : List β) : Option (List β) := (header data.length).map (· ++ data)

namespace SelfDelimiting

/-- Different values have different codes. -/
theorem injective {encode : α → Option (List β)} (h : SelfDelimiting encode) {x y : α} {code : List β}
    (hx : encode x = some code) (hy : encode y = some code) : x = y :=
  (h hx hy rfl : x = y ∧ ([] : List β) = []).1

/-- Different codes of one width delimit themselves. -/
theorem of_width {encode : α → Option (List β)} (width : ℕ) (hwidth : ∀ x code, encode x = some code → code.length = width)
    (hinjective : ∀ x y code, encode x = some code → encode y = some code → x = y) : SelfDelimiting encode := by
  intro x y code code' hx hy rest rest' heq
  have hlength : code.length = code'.length := (hwidth x code hx).trans (hwidth y code' hy).symm
  obtain ⟨rfl, hrest⟩ := List.append_inj heq hlength
  exact ⟨hinjective x y code hx hy, hrest⟩

/-- Data with its length before it delimits itself, when the length does. -/
theorem lengthFirst {header : ℕ → Option (List β)} (h : SelfDelimiting header) : SelfDelimiting (lengthFirst header) := by
  intro data data' code code' hdata hdata' rest rest' heq
  obtain ⟨count, hcount, rfl⟩ := Option.map_eq_some_iff.mp hdata
  obtain ⟨count', hcount', rfl⟩ := Option.map_eq_some_iff.mp hdata'
  rw [List.append_assoc, List.append_assoc] at heq
  obtain ⟨hlength, htail⟩ := h hcount hcount' heq
  exact List.append_inj htail hlength

end SelfDelimiting
