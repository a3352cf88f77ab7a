import FxaLite.Lib.Points
import FxaLite.Lib.Fallible

/-!
# JSON as the standard library reads and writes it

The scanner behind `json.loads`, over code points, for any representation of the values, and the
writer behind `json.dumps(…, separators=(",", ":"), ensure_ascii=False)` for strings and objects.
A container inside as many others as the interpreter bears is a `RecursionError`. What the writer
makes of strings and objects, the scanner reads, whatever follows it.
-/

namespace JsonText

/-- How `json.loads` fails: on text that is malformed, or nested deeper than the interpreter goes. -/
inductive LoadsError where
  | valueError
  | recursionError
  deriving DecidableEq, Repr

/-- A decoded document, over what a program takes its numbers for and its texts. An object is a list of its members. -/
inductive Document (ν τ : Type) where
  | null
  | bool (value : Bool)
  | number (value : ν)
  | str (text : τ)
  | arr (items : List (Document ν τ))
  | obj (members : List (τ × Document ν τ))

/-- What the scanner makes of each kind of value. `int` may refuse a numeral; `constant` is for
`NaN` and the infinities. -/
structure Builder (V : Type) where
  null : V
  bool : Bool → V
  int : Points → Option V
  float : Points → V
  constant : Points → V
  str : Points → V
  arr : List V → V
  obj : List (Points × V) → V

/-! ### Scanning -/

/-- White space between tokens. -/
def isSpace (c : ℕ) : Bool := c = 32 || c = 9 || c = 10 || c = 13

/-- What follows the white space. -/
def skip (s : Points) : Points := s.dropWhile isSpace

/-- The value of a hexadecimal digit. -/
def hexDigit (c : ℕ) : Option ℕ :=
  if 48 ≤ c ∧ c ≤ 57 then some (c - 48)
  else if 97 ≤ c ∧ c ≤ 102 then some (c - 87)
  else if 65 ≤ c ∧ c ≤ 70 then some (c - 55)
  else none

/-- Four hexadecimal digits, and what follows them. -/
def hex4 : Points → Option (ℕ × Points)
  | a :: b :: c :: d :: rest => do
    let a ← hexDigit a
    let b ← hexDigit b
    let c ← hexDigit c
    let d ← hexDigit d
    some (((a * 16 + b) * 16 + c) * 16 + d, rest)
  | _ => none

/-- A character after a backslash that stands for another one. -/
def simpleEscape (c : ℕ) : Option ℕ :=
  if c = 34 ∨ c = 92 ∨ c = 47 then some c
  else if c = 98 then some 8
  else if c = 102 then some 12
  else if c = 110 then some 10
  else if c = 114 then some 13
  else if c = 116 then some 9
  else none

/-- A surrogate that needs another one after it. -/
def isHigh (n : ℕ) : Bool := 0xd800 ≤ n && n < 0xdc00

/-- A surrogate that needs another one before it. -/
def isLow (n : ℕ) : Bool := 0xdc00 ≤ n && n < 0xe000

/-- What follows a backslash. Two escapes that are a pair of surrogates are one code point. -/
def readEscape : Points → Option (ℕ × Points)
  | [] => none
  | c :: rest =>
    if c = 117 then do
      let (n, rest) ← hex4 rest
      match rest with
      | 92 :: 117 :: tail =>
        if isHigh n then do
          let (m, tail) ← hex4 tail
          if isLow m then some (0x10000 + (n - 0xd800) * 0x400 + (m - 0xdc00), tail) else some (n, rest)
        else some (n, rest)
      | rest => some (n, rest)
    else (simpleEscape c).map (·, rest)

/-- A string after its opening quote, and what follows its closing one. -/
def readString : ℕ → Points → Option (Points × Points)
  | 0, _ => none
  | _, [] => none
  | fuel + 1, c :: rest =>
    if c = 34 then some ([], rest)
    else if c = 92 then do
      let (n, rest) ← readEscape rest
      let (s, rest) ← readString fuel rest
      some (n :: s, rest)
    else if c < 32 then none
    else do
      let (s, rest) ← readString fuel rest
      some (c :: s, rest)

/-- A decimal digit. -/
def isDigit (c : ℕ) : Bool := 48 ≤ c && c ≤ 57

/-- The digits of an integer without a superfluous zero, and what follows them. -/
def readDigits : Points → Option (Points × Points)
  | [] => none
  | c :: rest =>
    if c = 48 then some ([c], rest)
    else if isDigit c then some (c :: rest.takeWhile isDigit, rest.dropWhile isDigit)
    else none

/-- A fraction, if there is one. -/
def readFraction : Points → Points × Points
  | 46 :: c :: rest =>
    if isDigit c then (46 :: c :: rest.takeWhile isDigit, rest.dropWhile isDigit) else ([], 46 :: c :: rest)
  | s => ([], s)

/-- An exponent, if there is one. -/
def readExponent : Points → Points × Points
  | e :: sign :: c :: rest =>
    if (e = 101 ∨ e = 69) ∧ isDigit sign then
      (e :: sign :: (c :: rest).takeWhile isDigit, (c :: rest).dropWhile isDigit)
    else if (e = 101 ∨ e = 69) ∧ (sign = 43 ∨ sign = 45) ∧ isDigit c then
      (e :: sign :: c :: rest.takeWhile isDigit, rest.dropWhile isDigit)
    else ([], e :: sign :: c :: rest)
  | [e, c] => if (e = 101 ∨ e = 69) ∧ isDigit c then ([e, c], []) else ([], [e, c])
  | s => ([], s)

section Values

variable {V : Type} (b : Builder V)

/-- A number. -/
def readNumber (s : Points) : Option (V × Points) := do
  let (sign, unsigned) := match s with
    | 45 :: rest => ([45], rest)
    | s => ([], s)
  let (digits, rest) ← readDigits unsigned
  let (fraction, rest) := readFraction rest
  let (exponent, rest) := readExponent rest
  if fraction.isEmpty && exponent.isEmpty then (b.int (sign ++ digits)).map (·, rest)
  else some (b.float (sign ++ digits ++ fraction ++ exponent), rest)

/-- A value that is a fixed word. -/
def readWord (s : Points) : Option (V × Points) :=
  let words : List (String × V) := [("null", b.null), ("true", b.bool true), ("false", b.bool false),
    ("NaN", b.constant (Points.ofString "NaN")), ("Infinity", b.constant (Points.ofString "Infinity")),
    ("-Infinity", b.constant (Points.ofString "-Infinity"))]
  (words.find? fun word => (Points.ofString word.1).isPrefixOf s).map fun word => (word.2, s.drop word.1.length)

/-- A part that raises a `ValueError` if it is missing. -/
def orValueError {A : Type} : Option A → Except LoadsError A
  | some a => .ok a
  | none => .error .valueError

mutual

/-- A value, and what follows it; the depth is how many containers more there may be. -/
def readValue : ℕ → ℕ → Points → Except LoadsError (V × Points)
  | 0, _, _ => .error .valueError
  | _, _, [] => .error .valueError
  | fuel + 1, depth, c :: rest =>
    if c = 34 then do
      let (s, rest) ← orValueError (readString fuel rest)
      .ok (b.str s, rest)
    else if c = 123 then
      match depth with
      | 0 => .error .recursionError
      | depth + 1 => do
        let (members, rest) ← if (skip rest).head? = some 125 then .ok ([], (skip rest).tail) else readMembers fuel depth (skip rest)
        .ok (b.obj members, rest)
    else if c = 91 then
      match depth with
      | 0 => .error .recursionError
      | depth + 1 => do
        let (items, rest) ← if (skip rest).head? = some 93 then .ok ([], (skip rest).tail) else readItems fuel depth (skip rest)
        .ok (b.arr items, rest)
    else
      match readWord b (c :: rest) with
      | some found => .ok found
      | none => orValueError (readNumber b (c :: rest))

/-- The members of an object from the first name on, up to its closing brace. -/
def readMembers : ℕ → ℕ → Points → Except LoadsError (List (Points × V) × Points)
  | 0, _, _ => .error .valueError
  | _, _, [] => .error .valueError
  | fuel + 1, depth, c :: rest =>
    if c ≠ 34 then .error .valueError
    else do
      let (name, rest) ← orValueError (readString fuel rest)
      if (skip rest).head? = some 58 then do
        let (value, rest) ← readValue fuel depth (skip (skip rest).tail)
        if (skip rest).head? = some 125 then .ok ([(name, value)], (skip rest).tail)
        else if (skip rest).head? = some 44 then do
          let (members, rest) ← readMembers fuel depth (skip (skip rest).tail)
          .ok ((name, value) :: members, rest)
        else .error .valueError
      else .error .valueError

/-- The items of an array from the first one on, up to its closing bracket. -/
def readItems : ℕ → ℕ → Points → Except LoadsError (List V × Points)
  | 0, _, _ => .error .valueError
  | fuel + 1, depth, s => do
    let (value, rest) ← readValue fuel depth s
    if (skip rest).head? = some 93 then .ok ([value], (skip rest).tail)
    else if (skip rest).head? = some 44 then do
      let (items, rest) ← readItems fuel depth (skip (skip rest).tail)
      .ok (value :: items, rest)
    else .error .valueError

end

/-- `json.loads` of text, for an interpreter that bears so many containers inside each other. -/
def loads (depth : ℕ) (s : Points) : Except LoadsError V :=
  if s.head? = some 0xfeff then .error .valueError
  else do
    let (value, rest) ← readValue b (s.length + 1) depth (skip s)
    if skip rest = [] then .ok value else .error .valueError

end Values

/-! ### Writing -/

/-- A hexadecimal digit. -/
def hexChar (n : ℕ) : ℕ := if n < 10 then 48 + n else 87 + n

/-- A code point inside a string. -/
def escapePoint (c : ℕ) : Points :=
  if c = 34 ∨ c = 92 then [92, c]
  else if c = 8 then [92, 98]
  else if c = 12 then [92, 102]
  else if c = 10 then [92, 110]
  else if c = 13 then [92, 114]
  else if c = 9 then [92, 116]
  else if c < 32 then [92, 117, 48, 48, hexChar (c / 16), hexChar (c % 16)]
  else [c]

/-- A string. -/
def quoted (s : Points) : Points := 34 :: (s.flatMap escapePoint ++ [34])

/-- The members of an object and its closing brace, for values that are written already. -/
def writeMembers : List (Points × Points) → Points
  | [] => [125]
  | [(name, value)] => quoted name ++ 58 :: (value ++ [125])
  | (name, value) :: rest => quoted name ++ 58 :: (value ++ 44 :: writeMembers rest)

/-- An object. -/
def writeObject (members : List (Points × Points)) : Points := 123 :: writeMembers members

/-! ### The length of what is written -/

/-- A code point is escaped to no more than six. -/
theorem length_escapePoint_le (c : ℕ) : (escapePoint c).length ≤ 6 := by
  unfold escapePoint
  split_ifs <;> simp

/-- So the length of a string bounds what is written for it. -/
theorem length_quoted_le (s : Points) : (quoted s).length ≤ 6 * s.length + 2 := by
  have hbody : (s.flatMap escapePoint).length ≤ 6 * s.length := by
    induction s with
    | nil => simp
    | cons c rest ih =>
      have hone := length_escapePoint_le c
      rw [List.flatMap_cons, List.length_append, List.length_cons]
      omega
  rw [quoted, List.length_cons, List.length_append, List.length_singleton]
  omega

/-- And the lengths of its members what is written for an object. -/
theorem length_writeObject_le (members : List (Points × Points)) :
    (writeObject members).length ≤ (members.map fun member => 6 * member.1.length + member.2.length + 4).sum + 2 := by
  have hmembers : (writeMembers members).length ≤
      (members.map fun member => 6 * member.1.length + member.2.length + 4).sum + 1 := by
    induction members using writeMembers.induct with
    | case1 => simp [writeMembers]
    | case2 name value =>
      have hname := length_quoted_le name
      simp only [writeMembers, List.length_append, List.length_cons, List.length_nil, List.map_cons, List.map_nil,
        List.sum_cons, List.sum_nil]
      omega
    | case3 name value rest hrest ih =>
      have hname := length_quoted_le name
      rw [writeMembers]
      · simp only [List.length_append, List.length_cons, List.map_cons, List.sum_cons]
        omega
      · exact hrest
  rw [writeObject, List.length_cons]
  omega

/-! ### What is written is read -/

section RoundTrip

variable {V : Type} {b : Builder V} {depth fuel : ℕ} {text rest : Points} {value : V}

/-- A hexadecimal digit is read. -/
theorem hexDigit_hexChar {n : ℕ} (h : n < 16) : hexDigit (hexChar n) = some n := by
  have hall : ∀ n < 16, hexDigit (hexChar n) = some n := by decide
  exact hall n h

/-- A control character is read from its digits. -/
theorem readEscape_hex {c : ℕ} (h : c < 32) (rest : Points) :
    readEscape (117 :: 48 :: 48 :: hexChar (c / 16) :: hexChar (c % 16) :: rest) = some (c, rest) := by
  have hzero : hexDigit 48 = some 0 := rfl
  have hvalue : ((0 * 16 + 0) * 16 + c / 16) * 16 + c % 16 = c := by omega
  have hhigh : isHigh c = false := by
    simp only [isHigh, Bool.and_eq_false_iff, decide_eq_false_iff_not]
    omega
  have hhex : hex4 (48 :: 48 :: hexChar (c / 16) :: hexChar (c % 16) :: rest) = some (c, rest) := by
    simp only [hex4, hzero, hexDigit_hexChar (by omega : c / 16 < 16), hexDigit_hexChar (by omega : c % 16 < 16),
      Option.bind_eq_bind, Option.bind_some, hvalue]
  simp only [readEscape, if_true, hhex, Option.bind_eq_bind, Option.bind_some, hhigh]
  split <;> simp

/-- Reading one code point of a string. -/
theorem readString_escapePoint (c : ℕ) (fuel : ℕ) (rest : Points) :
    readString (fuel + 1) (escapePoint c ++ rest) = (readString fuel rest).map fun p => (c :: p.1, p.2) := by
  have hsimple : ∀ e n, simpleEscape e = some n → e ≠ 117 →
      readString (fuel + 1) (92 :: e :: rest) = (readString fuel rest).map fun p => (n :: p.1, p.2) := by
    intro e n hescape hne
    cases hread : readString fuel rest <;> simp [readString, readEscape, hne, hescape, hread]
  unfold escapePoint
  split
  · rename_i hself
    exact hsimple c c (by rcases hself with rfl | rfl <;> rfl) (by omega)
  split
  · rename_i heq
    exact heq ▸ hsimple 98 8 rfl (by omega)
  split
  · rename_i heq
    exact heq ▸ hsimple 102 12 rfl (by omega)
  split
  · rename_i heq
    exact heq ▸ hsimple 110 10 rfl (by omega)
  split
  · rename_i heq
    exact heq ▸ hsimple 114 13 rfl (by omega)
  split
  · rename_i heq
    exact heq ▸ hsimple 116 9 rfl (by omega)
  split
  · rename_i hcontrol
    simp only [List.cons_append, List.nil_append, readString, readEscape_hex hcontrol]
    cases hread : readString fuel rest <;> simp [hread]
  · rename_i hquote _ _ _ _ _ hprint
    have hne : c ≠ 34 ∧ c ≠ 92 := by omega
    cases hread : readString fuel rest <;> simp [readString, hne, hprint, hread]

/-- Reading a string up to its closing quote. -/
theorem readString_quoted (s : Points) (hfuel : s.length < fuel) (rest : Points) :
    readString fuel (s.flatMap escapePoint ++ 34 :: rest) = some (s, rest) := by
  induction s generalizing fuel with
  | nil =>
    obtain ⟨fuel, rfl⟩ := Nat.exists_eq_add_one_of_ne_zero (Nat.ne_zero_of_lt hfuel)
    rfl
  | cons c s ih =>
    obtain ⟨fuel, rfl⟩ := Nat.exists_eq_add_one_of_ne_zero (Nat.ne_zero_of_lt hfuel)
    rw [List.flatMap_cons, List.append_assoc, readString_escapePoint, ih (Nat.lt_of_succ_lt_succ hfuel)]
    rfl

/-- A string is no longer than it is written. -/
theorem length_lt_quoted (s : Points) : s.length + 1 < (quoted s).length := by
  have hle : s.length ≤ (s.flatMap escapePoint).length := by
    induction s with
    | nil => exact le_rfl
    | cons c s ih =>
      have hpos : 0 < (escapePoint c).length := by
        unfold escapePoint
        repeat' split
        all_goals simp
      rw [List.flatMap_cons, List.length_append, List.length_cons]
      omega
  simp only [quoted, List.length_cons, List.length_append, List.length_nil]
  omega

/-- A text is what a value is read from, whatever follows it. -/
structure Reads (b : Builder V) (depth : ℕ) (text : Points) (value : V) : Prop where
  starts : text.head? = some 34 ∨ text.head? = some 123
  read : ∀ fuel rest, text.length < fuel → readValue b fuel depth (text ++ rest) = .ok (value, rest)

/-- Where a member of an object ends. -/
def EndsMember (rest : Points) : Prop := rest.head? = some 44 ∨ rest.head? = some 125

/-- A text is what a value is read from, as a member of an object. -/
structure ReadsInside (b : Builder V) (depth : ℕ) (text : Points) (value : V) : Prop where
  starts : ∃ c tail, text = c :: tail ∧ isSpace c = false
  read : ∀ fuel rest, text.length < fuel → EndsMember rest → readValue b fuel depth (text ++ rest) = .ok (value, rest)

/-- What is read whatever follows it is read as a member. -/
theorem Reads.inside (h : Reads b depth text value) : ReadsInside b depth text value := by
  refine ⟨?_, fun fuel rest hfuel _ => h.read fuel rest hfuel⟩
  cases text with
  | nil => rcases h.starts with h | h <;> cases h
  | cons c tail =>
    refine ⟨c, tail, rfl, ?_⟩
    rcases h.starts with h | h <;> (cases h; rfl)

/-- There is no white space to skip before it. -/
theorem ReadsInside.skip_append (h : ReadsInside b depth text value) (rest : Points) : skip (text ++ rest) = text ++ rest := by
  obtain ⟨c, tail, rfl, hc⟩ := h.starts
  exact List.dropWhile_cons_of_neg (by simp [hc])

/-- An integer as it is written: perhaps a sign, and digits without a superfluous zero. -/
inductive Numeral : Points → Prop
  | digits {c : ℕ} {rest : Points} (hc : isDigit c = true) (hrest : ∀ d ∈ rest, isDigit d = true)
    (hzero : c = 48 → rest = []) : Numeral (c :: rest)
  | negative {c : ℕ} {rest : Points} (hc : isDigit c = true) (hrest : ∀ d ∈ rest, isDigit d = true)
    (hzero : c = 48 → rest = []) : Numeral (45 :: c :: rest)

/-- Its digits are read up to the end of the member. -/
theorem readDigits_append {c : ℕ} {digits : Points} (hc : isDigit c = true) (hdigits : ∀ d ∈ digits, isDigit d = true)
    (hzero : c = 48 → digits = []) (hends : EndsMember rest) :
    readDigits (c :: digits ++ rest) = some (c :: digits, rest) := by
  have hstop : rest.takeWhile isDigit = [] ∧ rest.dropWhile isDigit = rest := by
    cases rest with
    | nil => exact ⟨rfl, rfl⟩
    | cons d tail =>
      have hd : isDigit d = false := by rcases hends with h | h <;> (cases h; rfl)
      simp [hd]
  rw [List.cons_append, readDigits]
  by_cases heq : c = 48
  · rw [if_pos heq, hzero heq, List.nil_append]
  · rw [if_neg heq, if_pos hc, List.takeWhile_append_of_pos hdigits, List.dropWhile_append_of_pos hdigits, hstop.1, hstop.2,
      List.append_nil]

/-- Nothing more of a number is found there. -/
theorem readFraction_of_ends (hends : EndsMember rest) : readFraction rest = ([], rest) ∧ readExponent rest = ([], rest) := by
  have hnone : ∀ c ∈ [44, 125], ∀ tail, readFraction (c :: tail) = ([], c :: tail) ∧ readExponent (c :: tail) = ([], c :: tail) := by
    intro c hc tail
    simp only [List.mem_cons, List.not_mem_nil, or_false] at hc
    rcases hc with rfl | rfl
    · rcases tail with _ | ⟨d, _ | ⟨e, tail⟩⟩ <;> exact ⟨rfl, rfl⟩
    · rcases tail with _ | ⟨d, _ | ⟨e, tail⟩⟩ <;> exact ⟨rfl, rfl⟩
  cases rest with
  | nil => exact ⟨rfl, rfl⟩
  | cons c tail =>
    refine hnone c ?_ tail
    rcases hends with h | h
    · cases h
      decide
    · cases h
      decide

/-- An integer is read as a number. -/
theorem readNumber_numeral (h : Numeral text) (hint : b.int text = some value) (hends : EndsMember rest) :
    readNumber b (text ++ rest) = some (value, rest) := by
  obtain ⟨hfraction, hexponent⟩ := readFraction_of_ends hends
  cases h with
  | @digits c tail hc htail hzero =>
    have hdigits := readDigits_append hc htail hzero hends
    have hsign : c ≠ 45 := by
      rintro rfl
      cases hc
    rw [List.cons_append] at hdigits ⊢
    unfold readNumber
    split
    rename_i hcases
    split at hcases
    · rename_i heq
      exact absurd (List.cons.inj heq).1 hsign
    · cases hcases
      simp only [hdigits, hfraction, hexponent, Option.bind_eq_bind, Option.bind_some, List.isEmpty_nil, Bool.and_self,
        if_true, List.nil_append, hint, Option.map_some]
  | @negative c tail hc htail hzero =>
    have hdigits := readDigits_append hc htail hzero hends
    rw [List.cons_append] at hdigits
    rw [List.cons_append, List.cons_append, readNumber]
    simp only [hdigits, hfraction, hexponent, Option.bind_eq_bind, Option.bind_some, List.isEmpty_nil, Bool.and_self,
      if_true, List.cons_append, List.nil_append, hint, Option.map_some]

/-- No word begins as an integer does. -/
theorem readWord_numeral (h : Numeral text) (rest : Points) : readWord b (text ++ rest) = none := by
  have hwords : ∀ {c : ℕ}, isDigit c = true → c ≠ 110 ∧ c ≠ 116 ∧ c ≠ 102 ∧ c ≠ 78 ∧ c ≠ 73 ∧ c ≠ 45 := by
    intro c hc
    simp only [isDigit, Bool.and_eq_true, decide_eq_true_eq] at hc
    omega
  cases h with
  | digits hc =>
    obtain ⟨hn, ht, hf, hN, hI, hminus⟩ := hwords hc
    simp [readWord, Points.ofString, hn.symm, ht.symm, hf.symm, hN.symm, hI.symm, hminus.symm]
  | negative hc =>
    obtain ⟨-, -, -, -, hI, -⟩ := hwords hc
    simp [readWord, Points.ofString, hI.symm]

/-- An integer is read as a member. -/
theorem readsInside_numeral (depth : ℕ) (h : Numeral text) (hint : b.int text = some value) :
    ReadsInside b depth text value := by
  have hstarts : ∃ c tail, text = c :: tail ∧ (isDigit c = true ∨ c = 45) := by
    cases h with
    | digits hc => exact ⟨_, _, rfl, Or.inl hc⟩
    | negative hc => exact ⟨_, _, rfl, Or.inr rfl⟩
  obtain ⟨c, tail, rfl, hc⟩ := hstarts
  have hnot : isSpace c = false ∧ c ≠ 34 ∧ c ≠ 123 ∧ c ≠ 91 := by
    obtain hc | rfl := hc
    · simp only [isDigit, Bool.and_eq_true, decide_eq_true_eq] at hc
      refine ⟨?_, by omega, by omega, by omega⟩
      simp only [isSpace, Bool.or_eq_false_iff, decide_eq_false_iff_not]
      omega
    · decide
  refine ⟨⟨c, tail, rfl, hnot.1⟩, fun fuel rest hfuel hends => ?_⟩
  obtain ⟨fuel, rfl⟩ := Nat.exists_eq_add_one_of_ne_zero (Nat.ne_zero_of_lt hfuel)
  have hword := readWord_numeral (b := b) h rest
  have hnumber := readNumber_numeral h hint hends
  rw [List.cons_append] at hword hnumber ⊢
  rw [readValue.eq_def]
  simp only [if_neg hnot.2.1, if_neg hnot.2.2.1, if_neg hnot.2.2.2, hword, hnumber]
  rfl

/-- A string is read. -/
theorem reads_quoted (b : Builder V) (depth : ℕ) (s : Points) : Reads b depth (quoted s) (b.str s) := by
  refine ⟨Or.inl rfl, fun fuel rest hfuel => ?_⟩
  obtain ⟨fuel, rfl⟩ := Nat.exists_eq_add_one_of_ne_zero (Nat.ne_zero_of_lt hfuel)
  have hlength := length_lt_quoted s
  have hread := @readString_quoted fuel s (by omega) rest
  have happend : quoted s ++ rest = 34 :: (s.flatMap escapePoint ++ 34 :: rest) := by simp [quoted]
  rw [happend, readValue.eq_def]
  simp only [if_true, hread, orValueError, Fallible.ok_bind]

/-- The members of an object begin with a quote. -/
theorem writeMembers_cons (name value : Points) (members : List (Points × Points)) :
    ∃ tail, writeMembers ((name, value) :: members) = 34 :: tail := by
  cases members <;> exact ⟨_, rfl⟩

/-- The members of an object are read if their values are. -/
theorem readMembers_writeMembers {members : List (Points × Points × V)} (hne : members ≠ [])
    (hread : ∀ member ∈ members, ReadsInside b depth member.2.1 member.2.2)
    (hfuel : (writeMembers (members.map fun member => (member.1, member.2.1))).length < fuel) (rest : Points) :
    readMembers b fuel depth (writeMembers (members.map fun member => (member.1, member.2.1)) ++ rest) =
      .ok (members.map fun member => (member.1, member.2.2), rest) := by
  induction members generalizing fuel with
  | nil => exact absurd rfl hne
  | cons member members ih =>
    obtain ⟨name, text, value⟩ := member
    obtain ⟨fuel, rfl⟩ := Nat.exists_eq_add_one_of_ne_zero (Nat.ne_zero_of_lt hfuel)
    have hvalue : ReadsInside b depth text value := hread (name, text, value) List.mem_cons_self
    have hname := length_lt_quoted name
    -- The name, the colon and the value are read; what is left decides what comes next.
    have hfirst : ∀ tail, EndsMember tail → text.length < fuel → name.length < fuel →
        readMembers b (fuel + 1) depth (quoted name ++ 58 :: (text ++ tail)) =
          if (skip tail).head? = some 125 then .ok ([(name, value)], (skip tail).tail)
          else if (skip tail).head? = some 44 then do
            let (members, rest) ← readMembers b fuel depth (skip (skip tail).tail)
            .ok ((name, value) :: members, rest)
          else .error .valueError := by
      intro tail hends htext hlength
      have happend : quoted name ++ 58 :: (text ++ tail) = 34 :: (name.flatMap escapePoint ++ 34 :: (58 :: (text ++ tail))) := by
        simp [quoted]
      have hskip : skip (58 :: (text ++ tail)) = 58 :: (text ++ tail) := rfl
      rw [happend, readMembers]
      simp only [ne_eq, not_true, if_false, readString_quoted name hlength, orValueError, Fallible.ok_bind, hskip,
        List.head?_cons, if_true, List.tail_cons, hvalue.skip_append, hvalue.read fuel tail htext hends]
    cases members with
    | nil =>
      simp only [List.map_cons, List.map_nil, writeMembers, List.length_append, List.length_cons, List.length_nil] at hfuel ⊢
      rw [List.append_assoc, List.cons_append, List.append_assoc, hfirst _ (Or.inr rfl) (by omega) (by omega)]
      rfl
    | cons next members =>
      have hnext := @ih fuel (by simp) (fun member hmember => hread member (List.mem_cons_of_mem _ hmember))
      obtain ⟨tail, htail⟩ := writeMembers_cons next.1 next.2.1 (members.map fun member => (member.1, member.2.1))
      simp only [List.map_cons, writeMembers, List.length_append, List.length_cons] at hfuel hnext ⊢
      rw [List.append_assoc, List.cons_append, List.append_assoc, List.cons_append,
        hfirst _ (Or.inl rfl) (by omega) (by omega)]
      have hcomma : ∀ tail, skip (44 :: tail) = 44 :: tail := fun _ => rfl
      have hquote : ∀ tail, skip (34 :: tail) = 34 :: tail := fun _ => rfl
      have hrest := hnext (by omega)
      rw [htail, List.cons_append] at hrest
      simp only [hcomma, List.head?_cons, List.tail_cons, htail, List.cons_append, hquote, hrest, Fallible.ok_bind]
      rfl

/-- An object is read if its values are read as members, one level deeper. -/
theorem reads_writeObject_of_inside {members : List (Points × Points × V)}
    (hread : ∀ member ∈ members, ReadsInside b depth member.2.1 member.2.2) :
    Reads b (depth + 1) (writeObject (members.map fun member => (member.1, member.2.1)))
      (b.obj (members.map fun member => (member.1, member.2.2))) := by
  refine ⟨Or.inr rfl, fun fuel rest hfuel => ?_⟩
  obtain ⟨fuel, rfl⟩ := Nat.exists_eq_add_one_of_ne_zero (Nat.ne_zero_of_lt hfuel)
  simp only [writeObject, List.length_cons] at hfuel
  rw [writeObject, List.cons_append, readValue, if_neg (by decide), if_pos rfl]
  cases members with
  | nil => rfl
  | cons member members =>
    have hmembers := readMembers_writeMembers (List.cons_ne_nil member members) hread (by omega : _ < fuel) rest
    obtain ⟨tail, htail⟩ := writeMembers_cons member.1 member.2.1 (members.map fun member => (member.1, member.2.1))
    have hquote : ∀ tail, skip (34 :: tail) = 34 :: tail := fun _ => rfl
    simp only [List.map_cons, htail, List.cons_append] at hmembers ⊢
    rw [hquote, if_neg (by simp), hmembers]
    rfl

/-- So is an object whose values are read whatever follows them. -/
theorem reads_writeObject {members : List (Points × Points × V)}
    (hread : ∀ member ∈ members, Reads b depth member.2.1 member.2.2) :
    Reads b (depth + 1) (writeObject (members.map fun member => (member.1, member.2.1)))
      (b.obj (members.map fun member => (member.1, member.2.2))) :=
  reads_writeObject_of_inside fun member hmember => (hread member hmember).inside

/-- A text that a value is read from, alone. -/
theorem loads_of_reads (h : Reads b depth text value) : loads b depth text = .ok value := by
  have hbom : text.head? ≠ some 0xfeff := by
    rcases h.starts with h | h <;> simp [h]
  have hskip := h.inside.skip_append []
  have hread := h.read (text.length + 1) [] (Nat.lt_succ_self _)
  rw [List.append_nil] at hskip hread
  rw [loads, if_neg hbom, hskip, hread]
  rfl

end RoundTrip

end JsonText
