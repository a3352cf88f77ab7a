import Mathlib.Algebra.Group.Nat.Defs
import Mathlib.Data.Nat.Basic
import Mathlib.Data.Int.Notation
import Mathlib.Order.Basic
import Mathlib.Data.List.Infix
import Mathlib.Data.List.Induction
import Mathlib.Data.List.TakeWhile

/-!
# Text as Python's string methods read it

The handful of `str` methods and the integer conversions a request parser is built from, on
lists of characters: `strip`, `partition`, `int()` and `str()` of a natural number, and a
regular expression that is one character class between `^` and `$`. They follow the documented
behaviour of the language, which accepts more than a decimal numeral: surrounding white space,
a sign, underscores between digits, and the decimal digits of every script.
-/

namespace Py

/-- Texts are equal when their characters are. -/
instance lawfulBEqText : LawfulBEq (List Char) := List.instLawfulBEq

/-- `bytes.decode("latin-1")`. -/
def latin1 (bytes : List UInt8) : List Char := bytes.map fun b => Char.ofNat b.toNat

/-- `bytes.decode("ascii")`; `none` is a `UnicodeDecodeError`. -/
def decodeAscii (bytes : List UInt8) : Option (List Char) := if bytes.all (·.toNat < 128) then some (latin1 bytes) else none

/-- `str.encode("ascii")`, of a text that is ASCII. -/
def encodeAscii (s : List Char) : List UInt8 := s.map fun c => UInt8.ofNat c.toNat

/-- What is encoded is decoded. -/
theorem decodeAscii_encodeAscii {s : List Char} (h : ∀ c ∈ s, c.toNat < 128) : decodeAscii (encodeAscii s) = some s := by
  have hbyte : ∀ c ∈ s, (UInt8.ofNat c.toNat).toNat = c.toNat := fun c hc =>
    UInt8.toNat_ofNat_of_lt' ((h c hc).trans (by decide))
  have hall : (encodeAscii s).all (·.toNat < 128) = true := by
    rw [encodeAscii, List.all_map, List.all_eq_true]
    intro c hc
    rw [Function.comp_apply, decide_eq_true_eq, hbyte c hc]
    exact h c hc
  have hback : latin1 (encodeAscii s) = s := by
    rw [latin1, encodeAscii, List.map_map]
    refine (List.map_congr_left fun c hc => ?_).trans (List.map_id s)
    rw [Function.comp_apply, hbyte c hc, Char.ofNat_toNat, id]
  rw [decodeAscii, if_pos hall, hback]

/-- `str.isspace` on one character. -/
def isSpace (c : Char) : Bool :=
  let n := c.toNat
  (9 ≤ n && n ≤ 13) || (28 ≤ n && n ≤ 32) || n == 0x85 || n == 0xa0 || n == 0x1680 ||
    (0x2000 ≤ n && n ≤ 0x200a) || n == 0x2028 || n == 0x2029 || n == 0x202f || n == 0x205f || n == 0x3000

/-- What is left of a text without some characters at both ends. -/
def stripWhere (p : Char → Bool) (s : List Char) : List Char := ((s.dropWhile p).reverse.dropWhile p).reverse

/-- `str.strip()`. -/
def strip (s : List Char) : List Char := stripWhere isSpace s

/-- The white space around a numeral. `int()` and `float()` know fewer spaces than `str.isspace`: the four
separators of ASCII are none. -/
def isNumeralSpace (c : Char) : Bool := isSpace c && !(28 ≤ c.toNat && c.toNat ≤ 31)

/-- `str.partition(sep)`: what stands before the first separator, whether there is one, and
what stands after it. -/
def partition (sep : Char) : List Char → List Char × Bool × List Char
  | [] => ([], false, [])
  | c :: rest =>
    if c = sep then ([], true, rest)
    else
      let (head, found, tail) := partition sep rest
      (c :: head, found, tail)

/-- `str.rpartition(sep)`: what stands before the last separator, whether there is one, and what
stands after it. -/
def rpartition (sep : Char) (s : List Char) : List Char × Bool × List Char :=
  match partition sep s.reverse with
  | (tail, true, head) => (head.reverse, true, tail.reverse)
  | (_, false, _) => ([], false, s)

/-- The small letter of a Latin-1 character, and of the Kelvin sign, the one character beyond ASCII whose small letter
is ASCII. Other letters are left as they are: what is lowered is compared with ASCII words. -/
def lowerChar (c : Char) : Char :=
  let n := c.toNat
  if (65 ≤ n && n ≤ 90) || (0xc0 ≤ n && n ≤ 0xde && n ≠ 0xd7) then Char.ofNat (n + 32)
  else if n = 0x212a then 'k' else c

/-- `str.lower()`, as far as `lowerChar` goes. -/
def lower (s : List Char) : List Char := s.map lowerChar

/-- `str.upper()`, of ASCII and Latin-1 text; three letters have no capital in Latin-1. -/
def upper (s : List Char) : List Char :=
  s.flatMap fun c =>
    let n := c.toNat
    if (97 ≤ n && n ≤ 122) || (0xe0 ≤ n && n ≤ 0xfe && n ≠ 0xf7) then [Char.ofNat (n - 32)]
    else if n = 0xdf then ['S', 'S']
    else if n = 0xb5 then [Char.ofNat 0x39c]
    else if n = 0xff then [Char.ofNat 0x178] else [c]

/-- What ends a line for `str.splitlines()`; a carriage return takes a line feed after it along. -/
def isLineBreak (c : Char) : Bool :=
  let n := c.toNat
  (10 ≤ n && n ≤ 13) || (28 ≤ n && n ≤ 30) || n == 0x85 || n == 0x2028 || n == 0x2029

/-- `str.splitlines()`, with the line that is being read. -/
def splitLinesFrom (line : List Char) : List Char → List (List Char)
  | [] => if line.isEmpty then [] else [line]
  | '\r' :: '\n' :: rest => line :: splitLinesFrom [] rest
  | c :: rest => if isLineBreak c then line :: splitLinesFrom [] rest else splitLinesFrom (line ++ [c]) rest

/-- `str.splitlines()`. -/
def splitLines (s : List Char) : List (List Char) := splitLinesFrom [] s

/-- The code points of the digit zero in each script that has decimal digits. -/
def decimalZeros : List ℕ :=
  [0x30, 0x660, 0x6f0, 0x7c0, 0x966, 0x9e6, 0xa66, 0xae6, 0xb66, 0xbe6, 0xc66, 0xce6, 0xd66,
    0xde6, 0xe50, 0xed0, 0xf20, 0x1040, 0x1090, 0x17e0, 0x1810, 0x1946, 0x19d0, 0x1a80, 0x1a90,
    0x1b50, 0x1bb0, 0x1c40, 0x1c50, 0xa620, 0xa8d0, 0xa900, 0xa9d0, 0xa9f0, 0xaa50, 0xabf0,
    0xff10, 0x104a0, 0x10d30, 0x11066, 0x110f0, 0x11136, 0x111d0, 0x112f0, 0x11450, 0x114d0,
    0x11650, 0x116c0, 0x11730, 0x118e0, 0x11950, 0x11c50, 0x11d50, 0x11da0, 0x11f50, 0x16a60,
    0x16ac0, 0x16b50, 0x1d7ce, 0x1d7d8, 0x1d7e2, 0x1d7ec, 0x1d7f6, 0x1e140, 0x1e2f0, 0x1e4f0,
    0x1e950, 0x1fbf0]

/-- The value of a decimal digit, in any script. -/
def decimalDigit (c : Char) : Option ℕ :=
  (decimalZeros.find? fun z => z ≤ c.toNat && c.toNat < z + 10).map (c.toNat - ·)

/-- `sys.get_int_max_str_digits()`: longer numerals are refused by `int()`. -/
def maxStrDigits : ℕ := 4300

/-- Digits with single underscores between them; `afterDigit` says an underscore may follow. -/
def digitsFrom (value : ℕ) (afterDigit : Bool) : List Char → Option ℕ
  | [] => if afterDigit then some value else none
  | c :: rest =>
    if c = '_' then if afterDigit then digitsFrom value false rest else none
    else
      match decimalDigit c with
      | some d => digitsFrom (10 * value + d) true rest
      | none => none

/-- An unsigned numeral of at most `maxStrDigits` digits. -/
def unsigned (s : List Char) : Option ℕ :=
  if maxStrDigits < (s.filter (· ≠ '_')).length then none else digitsFrom 0 false s

/-- `int(text)`; `none` is a `ValueError`. -/
def int (s : List Char) : Option ℤ :=
  match stripWhere isNumeralSpace s with
  | '-' :: digits => (unsigned digits).map fun n => -(n : ℤ)
  | '+' :: digits => (unsigned digits).map fun n => (n : ℤ)
  | digits => (unsigned digits).map fun n => (n : ℤ)

/-- `str(n)` of a non-negative integer. -/
def str (n : ℕ) : List Char := Nat.toDigits 10 n

/-- `str(n)`; `none` is a `ValueError`, for more than `maxStrDigits` digits. -/
def intStr (n : ℤ) : Option (List Char) :=
  if maxStrDigits < (str n.natAbs).length then none
  else some (if n < 0 then '-' :: str n.natAbs else str n.natAbs)

/-- `re.match` of `^[class]{low,high}$`: like `$`, it leaves room for one final line feed. -/
def matchesClass (inClass : Char → Bool) (low high : ℕ) (s : List Char) : Bool :=
  let body := if s.getLast? = some '\n' then s.dropLast else s
  low ≤ body.length && body.length ≤ high && body.all inClass

/-- Without a line feed at its end, a text matches if its length and its characters do. -/
theorem matchesClass_eq_true {inClass : Char → Bool} {low high : ℕ} {s : List Char}
    (h : s.getLast? ≠ some '\n') :
    matchesClass inClass low high s = true ↔ low ≤ s.length ∧ s.length ≤ high ∧ ∀ c ∈ s, inClass c = true := by
  simp [matchesClass, h, and_assoc]

/-- What matches a class holds nothing else, but for a final line feed. -/
theorem mem_of_matchesClass {inClass : Char → Bool} {low high : ℕ} {s : List Char}
    (h : matchesClass inClass low high s = true) {c : Char} (hc : c ∈ s) : inClass c = true ∨ c = '\n' := by
  simp only [matchesClass, Bool.and_eq_true, List.all_eq_true] at h
  obtain ⟨-, hall⟩ := h
  split at hall
  · rename_i hlast
    rw [← List.dropLast_append_getLast? '\n' hlast, List.mem_append, List.mem_singleton] at hc
    exact hc.imp_left (hall c)
  · exact Or.inl (hall c hc)

/-- A character below the surrogates has the code point it is made of. -/
theorem toNat_ofNat_of_lt {n : ℕ} (h : n < 0xd800) : (Char.ofNat n).toNat = n := by
  have hvalid : n.isValidChar := Or.inl h
  rw [Char.ofNat, dif_pos hvalid]
  rfl

/-- The capital letters of ASCII. -/
theorem isUpper_iff {c : Char} : c.isUpper = true ↔ 65 ≤ c.toNat ∧ c.toNat ≤ 90 := decide_eq_true_iff

/-- Its small letters. -/
theorem isLower_iff {c : Char} : c.isLower = true ↔ 97 ≤ c.toNat ∧ c.toNat ≤ 122 :=
  Bool.and_eq_true_iff.trans (and_congr decide_eq_true_iff decide_eq_true_iff)

/-- Its letters. -/
theorem isAlpha_iff {c : Char} : c.isAlpha = true ↔ c.isUpper = true ∨ c.isLower = true := Bool.or_eq_true_iff

/-- The small letter of a capital letter of ASCII. -/
theorem lowerChar_of_isUpper {c : Char} (h : c.isUpper = true) : lowerChar c = Char.ofNat (c.toNat + 32) := by
  obtain ⟨hlow, hhigh⟩ := isUpper_iff.mp h
  have hrange : (65 ≤ c.toNat && c.toNat ≤ 90) = true := by simp [hlow, hhigh]
  exact if_pos (by rw [hrange, Bool.true_or])

/-- A small letter is its own. -/
theorem lowerChar_lowerChar (c : Char) : lowerChar (lowerChar c) = lowerChar c := by
  by_cases hupper : ((65 ≤ c.toNat && c.toNat ≤ 90) || (0xc0 ≤ c.toNat && c.toNat ≤ 0xde && c.toNat ≠ 0xd7)) = true
  · have hlower : lowerChar c = Char.ofNat (c.toNat + 32) := if_pos hupper
    have hnat : (Char.ofNat (c.toNat + 32)).toNat = c.toNat + 32 := by
      simp only [Bool.or_eq_true, Bool.and_eq_true, decide_eq_true_eq] at hupper
      exact toNat_ofNat_of_lt (by omega)
    rw [hlower, lowerChar, hnat, if_neg, if_neg]
    · simp only [Bool.or_eq_true, Bool.and_eq_true, decide_eq_true_eq] at hupper
      omega
    · simp only [Bool.or_eq_true, Bool.and_eq_true, decide_eq_true_eq] at hupper ⊢
      omega
  · have hlower : lowerChar c = if c.toNat = 0x212a then 'k' else c := if_neg hupper
    by_cases hkelvin : c.toNat = 0x212a
    · rw [hlower, if_pos hkelvin]
      rfl
    · rw [hlower, if_neg hkelvin, hlower, if_neg hkelvin]

/-- Lowering twice is lowering once. -/
theorem lower_lower (s : List Char) : lower (lower s) = lower s := by
  simp only [lower, List.map_map]
  exact List.map_congr_left fun c _ => lowerChar_lowerChar c

/-! ### Splitting and joining -/

section Splitting

variable {sep : Char} {s piece : List Char} {l l' : List (List Char)}

/-- No piece of a text that is split holds the separator. -/
theorem not_mem_of_mem_splitOn (h : piece ∈ s.splitOn sep) : sep ∉ piece := by
  induction s generalizing piece with
  | nil =>
    rw [List.splitOn_nil, List.mem_singleton] at h
    simp [h]
  | cons c rest ih =>
    rw [List.splitOn_cons_eq_if_modifyHead] at h
    split at h
    · obtain rfl | h := List.mem_cons.mp h
      · simp
      · exact ih h
    · rename_i hne
      cases hsplit : rest.splitOn sep with
      | nil => exact absurd hsplit (List.splitOn_ne_nil sep rest)
      | cons head tail =>
        rw [hsplit, List.modifyHead_cons] at h
        obtain rfl | h := List.mem_cons.mp h
        · have hhead : sep ∉ head := ih (by simp [hsplit])
          have hc : sep ≠ c := fun heq => hne (by simp [heq])
          simp [hhead, hc]
        · exact ih (by simp [hsplit, h])

/-- Joining one more piece. -/
theorem intercalate_concat (h : l ≠ []) : [sep].intercalate (l ++ [piece]) = [sep].intercalate l ++ sep :: piece := by
  induction l with
  | nil => exact absurd rfl h
  | cons head tail ih =>
    cases tail with
    | nil => simp
    | cons next tail =>
      have hnext := ih (by simp)
      simp only [List.cons_append] at hnext ⊢
      rw [List.intercalate_cons_cons, hnext]
      simp

/-- A part of the pieces joins to a part of the text. -/
theorem intercalate_isPrefix (h : l <+: l') : [sep].intercalate l <+: [sep].intercalate l' := by
  obtain ⟨rest, rfl⟩ := h
  induction rest using List.reverseRecOn with
  | nil => simp
  | append_singleton rest piece ih =>
    rw [← List.append_assoc]
    by_cases hnil : l ++ rest = []
    · simp [(List.append_eq_nil_iff.mp hnil).1]
    · rw [intercalate_concat hnil]
      exact ih.trans (List.prefix_append _ _)

/-- What is joined holds the separator and what the pieces hold. -/
theorem mem_of_mem_intercalate {c : Char} (h : c ∈ [sep].intercalate l) : c = sep ∨ ∃ piece ∈ l, c ∈ piece := by
  induction l using List.reverseRecOn with
  | nil => cases h
  | append_singleton rest piece ih =>
    by_cases hnil : rest = []
    · subst hnil
      exact Or.inr ⟨piece, by simp, by simpa using h⟩
    · rw [intercalate_concat hnil, List.mem_append, List.mem_cons] at h
      obtain h | rfl | h := h
      · obtain heq | ⟨found, hfound, hc⟩ := ih h
        · exact Or.inl heq
        · exact Or.inr ⟨found, by simp [hfound], hc⟩
      · exact Or.inl rfl
      · exact Or.inr ⟨piece, by simp, h⟩

/-- Some of the pieces of a text, joined and split, are found again. -/
theorem splitOn_intercalate_of_isPrefix (hnil : l ≠ []) (h : l <+: s.splitOn sep) :
    ([sep].intercalate l).splitOn sep = l :=
  List.splitOn_intercalate sep (fun _ hpiece => not_mem_of_mem_splitOn (h.subset hpiece)) hnil

end Splitting

/-! ### Numerals written by `str` -/

/-- The digits `str` writes are ASCII digits, in particular no space, sign, colon or underscore. -/
theorem isDigit_of_mem_str {n : ℕ} {c : Char} (h : c ∈ str n) : c.isDigit = true :=
  Nat.isDigit_of_mem_toDigits (by decide) (by decide) h

/-- Different numbers are written differently. -/
theorem str_injective : Function.Injective str := by
  intro a b h
  have hvalue := congrArg (fun digits => Nat.ofDigitChars 10 digits 0) h
  simpa [str] using hvalue

/-- No number but zero begins with a zero. -/
theorem eq_nil_of_str {n : ℕ} {rest : List Char} (h : str n = '0' :: rest) : rest = [] := by
  induction n using Nat.strong_induction_on generalizing rest with
  | h n ih =>
    by_cases hsmall : n < 10
    · rw [str, Nat.toDigits_of_lt_base hsmall] at h
      exact (List.cons.inj h).2.symm
    · rw [str, Nat.toDigits_of_base_le (by decide) (not_lt.mp hsmall)] at h
      obtain ⟨c, tail, hhead⟩ := List.exists_cons_of_ne_nil (@Nat.toDigits_ne_nil (n / 10) 10)
      rw [hhead, List.cons_append] at h
      obtain ⟨rfl, -⟩ := List.cons.inj h
      obtain rfl := ih (n / 10) (by omega) hhead
      have hzero : n / 10 = 0 := str_injective (hhead.trans (Nat.toDigits_zero 10).symm)
      omega

/-- The code points of the ASCII digits. -/
theorem toNat_of_isDigit {c : Char} (h : c.isDigit = true) : 48 ≤ c.toNat ∧ c.toNat < 58 := by
  simp only [Char.isDigit, Bool.and_eq_true, decide_eq_true_eq, ge_iff_le] at h
  have hlow : 48 ≤ c.val.toNat := UInt32.le_iff_toNat_le.mp h.1
  have hhigh : c.val.toNat ≤ 57 := UInt32.le_iff_toNat_le.mp h.2
  exact ⟨hlow, Nat.lt_succ_of_le hhigh⟩

/-- An ASCII digit as its value. -/
theorem decimalDigit_of_isDigit {c : Char} (h : c.isDigit = true) :
    decimalDigit c = some (c.toNat - '0'.toNat) := by
  obtain ⟨hlow, hhigh⟩ := toNat_of_isDigit h
  simp [decimalDigit, decimalZeros, hlow, hhigh]

/-- Reading a run of ASCII digits. -/
theorem digitsFrom_digits (s : List Char) (hs : ∀ c ∈ s, c.isDigit = true) (value : ℕ) :
    digitsFrom value true s = some (Nat.ofDigitChars 10 s value) := by
  induction s generalizing value with
  | nil => simp [digitsFrom]
  | cons c rest ih =>
    have hc : c.isDigit = true := hs c (by simp)
    have hne : c ≠ '_' := by rintro rfl; simp at hc
    rw [digitsFrom, if_neg hne, decimalDigit_of_isDigit hc, Nat.ofDigitChars_cons]
    exact ih (fun d hd => hs d (by simp [hd])) _

/-- A text that neither begins nor ends with white space keeps all of it. -/
theorem strip_eq_self_of_ends {s : List Char} (hhead : ∀ c, s.head? = some c → isSpace c = false)
    (hlast : ∀ c, s.getLast? = some c → isSpace c = false) : strip s = s := by
  have hdrop : ∀ l : List Char, (∀ c, l.head? = some c → isSpace c = false) → l.dropWhile isSpace = l := by
    intro l hl
    cases l with
    | nil => rfl
    | cons c rest => simp [hl c rfl]
  rw [strip, stripWhere, hdrop _ hhead, hdrop _ fun c hc => hlast c (by rwa [List.head?_reverse] at hc), List.reverse_reverse]

/-- Nothing that is stripped is left at the end. -/
theorem stripWhere_getLast? {p : Char → Bool} {s : List Char} {c : Char} (h : (stripWhere p s).getLast? = some c) :
    p c = false := by
  rw [stripWhere, List.getLast?_reverse] at h
  have hhead := List.head?_dropWhile_not p (s.dropWhile p).reverse
  rw [h] at hhead
  exact hhead

/-- Without such characters there is nothing to strip. -/
theorem stripWhere_eq_self {p : Char → Bool} {s : List Char} (h : ∀ c ∈ s, p c = false) : stripWhere p s = s := by
  have hdrop : ∀ l : List Char, (∀ c ∈ l, p c = false) → l.dropWhile p = l := by
    intro l hl
    cases l with
    | nil => rfl
    | cons c rest => simp [hl c (by simp)]
  rw [stripWhere, hdrop _ h, hdrop _ (fun c hc => h c (List.mem_reverse.mp hc)), List.reverse_reverse]

/-- Without white space there is nothing to strip. -/
theorem strip_eq_self {s : List Char} (h : ∀ c ∈ s, isSpace c = false) : strip s = s := stripWhere_eq_self h

/-- Nor is there around a numeral. -/
theorem stripWhere_isNumeralSpace {s : List Char} (h : ∀ c ∈ s, isSpace c = false) : stripWhere isNumeralSpace s = s :=
  stripWhere_eq_self fun c hc => by rw [isNumeralSpace, h c hc, Bool.false_and]

/-- What holds more than white space is not stripped of everything. -/
theorem strip_ne_nil {s : List Char} {c : Char} (hc : c ∈ s) (h : isSpace c = false) : strip s ≠ [] := by
  intro hnil
  have hmem : c ∈ (s.dropWhile isSpace).reverse := by
    rw [List.mem_reverse]
    induction s with
    | nil => cases hc
    | cons d rest ih =>
      by_cases hspace : isSpace d = true
      · rw [strip, stripWhere, List.dropWhile_cons_of_pos hspace] at hnil
        rw [List.dropWhile_cons_of_pos hspace]
        obtain rfl | hrest := List.mem_cons.mp hc
        · rw [h] at hspace
          cases hspace
        · exact ih hrest hnil
      · rwa [List.dropWhile_cons_of_neg hspace]
  rw [strip, stripWhere, List.reverse_eq_nil_iff, List.dropWhile_eq_nil_iff] at hnil
  rw [hnil c hmem] at h
  cases h

/-- An ASCII digit is no white space. -/
theorem not_isSpace_of_isDigit {c : Char} (h : c.isDigit = true) : isSpace c = false := by
  have hd := toNat_of_isDigit h
  simp only [isSpace, Bool.or_eq_false_iff, Bool.and_eq_false_iff, decide_eq_false_iff_not, beq_eq_false_iff_ne]
  omega

/-- An ASCII digit is no underscore. -/
theorem ne_underscore_of_isDigit {c : Char} (h : c.isDigit = true) : c ≠ '_' := by
  rintro rfl
  cases h

/-- ASCII digits hold no underscore. -/
theorem filter_underscore_of_isDigit {s : List Char} (hs : ∀ c ∈ s, c.isDigit = true) : s.filter (· ≠ '_') = s :=
  List.filter_eq_self.mpr fun c hc => decide_eq_true (ne_underscore_of_isDigit (hs c hc))

/-- Reading ASCII digits, up to the limit on their number. -/
theorem unsigned_digits {s : List Char} (hne : s ≠ []) (hs : ∀ c ∈ s, c.isDigit = true) :
    unsigned s = if maxStrDigits < s.length then none else some (Nat.ofDigitChars 10 s 0) := by
  rw [unsigned, filter_underscore_of_isDigit hs]
  split
  · rfl
  · obtain ⟨c, rest, rfl⟩ := List.exists_cons_of_ne_nil hne
    have hc := hs c List.mem_cons_self
    rw [digitsFrom, if_neg (ne_underscore_of_isDigit hc), decimalDigit_of_isDigit hc,
      Nat.ofDigitChars_cons]
    exact digitsFrom_digits rest (fun d hd => hs d (List.mem_cons_of_mem _ hd)) _

/-- Reading them as an integer. -/
theorem int_digits {s : List Char} (hne : s ≠ []) (hs : ∀ c ∈ s, c.isDigit = true) :
    int s = if maxStrDigits < s.length then none else some (Nat.ofDigitChars 10 s 0 : ℤ) := by
  rw [int, stripWhere_isNumeralSpace fun c hc => not_isSpace_of_isDigit (hs c hc)]
  split
  · exact absurd (hs '-' List.mem_cons_self) (by decide)
  · exact absurd (hs '+' List.mem_cons_self) (by decide)
  · rw [unsigned_digits hne hs]
    split <;> rfl

/-- Reading the digits `str` writes, up to the limit on their number. -/
theorem unsigned_str (n : ℕ) : unsigned (str n) = if maxStrDigits < (str n).length then none else some n := by
  have hvalue : Nat.ofDigitChars 10 (str n) 0 = n := by simp [str]
  rw [unsigned_digits (s := str n) Nat.toDigits_ne_nil fun c hc => isDigit_of_mem_str hc, hvalue]

/-- Reading what `str` writes, up to the limit on its length. -/
theorem int_str_eq (n : ℕ) :
    int (str n) = if maxStrDigits < (str n).length then none else some (n : ℤ) := by
  have hvalue : Nat.ofDigitChars 10 (str n) 0 = n := by simp [str]
  rw [int_digits (s := str n) Nat.toDigits_ne_nil fun c hc => isDigit_of_mem_str hc, hvalue]

/-- What `str` writes of an integer, `int` reads. -/
theorem int_intStr {n : ℤ} {s : List Char} (h : intStr n = some s) : int s = some n := by
  rw [intStr, Option.ite_none_left_eq_some, Option.some.injEq] at h
  obtain ⟨hlen, rfl⟩ := h
  split
  · rename_i hneg
    have hstrip : stripWhere isNumeralSpace ('-' :: str n.natAbs) = '-' :: str n.natAbs := by
      refine stripWhere_isNumeralSpace fun c hc => ?_
      obtain rfl | hc := List.mem_cons.mp hc
      · decide
      · exact not_isSpace_of_isDigit (isDigit_of_mem_str hc)
    have hvalue : -(n.natAbs : ℤ) = n := by omega
    rw [int, hstrip]
    simp only [unsigned_str, if_neg hlen]
    exact congrArg some hvalue
  · rw [int_str_eq, if_neg hlen, Option.some.injEq]
    omega

/-- A decimal digit is less than ten. -/
theorem decimalDigit_lt {c : Char} {d : ℕ} (h : decimalDigit c = some d) : d < 10 := by
  simp only [decimalDigit, Option.map_eq_some_iff] at h
  obtain ⟨z, hz, rfl⟩ := h
  have hrange := List.find?_some hz
  simp only [Bool.and_eq_true, decide_eq_true_eq] at hrange
  omega

/-- A run of digits denotes a number of no more digits. -/
theorem digitsFrom_lt {s : List Char} {value n : ℕ} {afterDigit : Bool} (h : digitsFrom value afterDigit s = some n) :
    n < (value + 1) * 10 ^ (s.filter (· ≠ '_')).length := by
  induction s generalizing value afterDigit with
  | nil =>
    cases afterDigit with
    | false => simp [digitsFrom] at h
    | true =>
      obtain rfl : value = n := by simpa [digitsFrom] using h
      simp
  | cons c rest ih =>
    rw [digitsFrom] at h
    split at h
    · rename_i hunder
      split at h
      · simpa [hunder] using ih h
      · cases h
    · rename_i hne
      split at h
      · rename_i d hd
        have hdigit := decimalDigit_lt hd
        have hlt := ih h
        rw [List.filter_cons_of_pos (by simpa using hne), List.length_cons, Nat.pow_succ]
        calc n < (10 * value + d + 1) * 10 ^ (rest.filter (· ≠ '_')).length := hlt
          _ ≤ ((value + 1) * 10) * 10 ^ (rest.filter (· ≠ '_')).length := Nat.mul_le_mul_right _ (by omega)
          _ = (value + 1) * (10 ^ (rest.filter (· ≠ '_')).length * 10) := by
            rw [Nat.mul_assoc, Nat.mul_comm 10]
      · cases h

/-- An unsigned numeral denotes a number that can be written. -/
theorem length_str_of_unsigned {s : List Char} {n : ℕ} (h : unsigned s = some n) : (str n).length ≤ maxStrDigits := by
  rw [unsigned, Option.ite_none_left_eq_some] at h
  obtain ⟨hlen, hdigits⟩ := h
  have hlt := digitsFrom_lt hdigits
  rw [Nat.zero_add, Nat.one_mul] at hlt
  have hpow : 10 ^ (s.filter (· ≠ '_')).length ≤ 10 ^ maxStrDigits := Nat.pow_le_pow_right (by decide) (not_lt.mp hlen)
  exact (Nat.length_toDigits_le_iff (by decide) (by decide)).mpr (hlt.trans_le hpow)

/-- What `int` reads, `str` writes. -/
theorem exists_intStr_of_int {s : List Char} {n : ℤ} (h : int s = some n) : ∃ text, intStr n = some text := by
  have hlen : (str n.natAbs).length ≤ maxStrDigits := by
    rw [int] at h
    have hread : ∃ digits m, unsigned digits = some m ∧ n.natAbs = m := by
      split at h
      all_goals
        simp only [Option.map_eq_some_iff, Option.bind_eq_bind, Option.bind_eq_some_iff, Option.pure_def,
          Option.some.injEq] at h
        obtain ⟨-, ⟨m, hm, rfl⟩, rfl⟩ := h
        exact ⟨_, m, hm, by omega⟩
    obtain ⟨digits, m, hm, hn⟩ := hread
    rw [hn]
    exact length_str_of_unsigned hm
  exact ⟨_, if_neg (not_lt.mpr hlen)⟩

/-- What is written alike is the same integer. -/
theorem intStr_inj {n m : ℤ} {s : List Char} (hn : intStr n = some s) (hm : intStr m = some s) : n = m :=
  Option.some.inj ((int_intStr hn).symm.trans (int_intStr hm))

/-- A number of at most `maxStrDigits` digits survives `str` and `int`. -/
theorem int_str {n : ℕ} (h : n < 10 ^ maxStrDigits) : int (str n) = some (n : ℤ) := by
  have hlen : (str n).length ≤ maxStrDigits := (Nat.length_toDigits_le_iff (by decide) (by decide)).mpr h
  rw [int_str_eq, if_neg (not_lt.mpr hlen)]

/-- What `int` makes of what `str` writes is the number, if anything. -/
theorem eq_of_int_str {n : ℕ} {m : ℤ} (h : int (str n) = some m) : m = n := by
  rw [int_str_eq] at h
  split at h
  · cases h
  · exact (Option.some.inj h).symm

/-- A text without characters is cut into nothing. -/
@[simp] theorem partition_nil (sep : Char) : partition sep [] = ([], false, []) := rfl

/-- One with some is cut at the first of them, or in the others. -/
theorem partition_cons (sep c : Char) (rest : List Char) :
    partition sep (c :: rest) =
      if c = sep then ([], true, rest)
      else (c :: (partition sep rest).1, (partition sep rest).2.1, (partition sep rest).2.2) := rfl

/-- What stands before the separator is what comes first and is none. -/
theorem partition_fst (sep : Char) (s : List Char) : (partition sep s).1 = s.takeWhile (· ≠ sep) := by
  induction s with
  | nil => rfl
  | cons c rest ih =>
    rw [partition_cons]
    split
    · simp_all
    · simp_all

/-- What stands before the separator does not hold it. -/
theorem not_mem_partition (sep : Char) (s : List Char) : sep ∉ (partition sep s).1 := by
  induction s with
  | nil => simp
  | cons c rest ih =>
    rw [partition_cons]
    split
    · simp
    · rename_i hne
      simp [ih, Ne.symm hne]

/-- What stands before the separator is the beginning of the text. -/
theorem partition_isPrefix (sep : Char) (s : List Char) : (partition sep s).1 <+: s := by
  induction s with
  | nil => simp
  | cons c rest ih =>
    rw [partition_cons]
    split
    · exact List.nil_prefix
    · exact (List.prefix_cons_inj c).mpr ih

/-- What stands after the separator is the end of the text. -/
theorem partition_suffix (sep : Char) (s : List Char) : (partition sep s).2.2 <:+ s := by
  induction s with
  | nil => simp
  | cons c rest ih =>
    rw [partition_cons]
    split
    · exact List.suffix_cons c rest
    · exact ih.trans (List.suffix_cons c rest)

/-- The separator is looked for in what follows, if it is not before. -/
theorem partition_append_of_not_mem {sep : Char} {head : List Char} (h : sep ∉ head) (tail : List Char) :
    partition sep (head ++ tail) =
      (head ++ (partition sep tail).1, (partition sep tail).2.1, (partition sep tail).2.2) := by
  induction head with
  | nil => rfl
  | cons c rest ih =>
    rw [List.mem_cons, not_or] at h
    rw [List.cons_append, partition_cons, if_neg (Ne.symm h.1), ih h.2]
    rfl

/-- A numeral holds no separator, so partitioning after it finds the one behind it. -/
theorem partition_append (sep : Char) (head tail : List Char) (h : sep ∉ head) :
    partition sep (head ++ sep :: tail) = (head, true, tail) := by
  rw [partition_append_of_not_mem h, partition_cons, if_pos rfl, List.append_nil]

/-- Without a separator there is nothing to cut off. -/
theorem partition_of_not_mem (sep : Char) (s : List Char) (h : sep ∉ s) :
    partition sep s = (s, false, []) := by
  have happend := partition_append_of_not_mem h []
  rwa [partition_nil, List.append_nil] at happend

/-- It is not looked for in what follows, if it is before. -/
theorem partition_append_of_mem {sep : Char} {head : List Char} (h : sep ∈ head) (tail : List Char) :
    partition sep (head ++ tail) = ((partition sep head).1, (partition sep head).2.1, (partition sep head).2.2 ++ tail) := by
  induction head with
  | nil => cases h
  | cons c rest ih =>
    rw [List.cons_append, partition_cons, partition_cons]
    split
    · rfl
    · rename_i hne
      rw [ih ((List.mem_cons.mp h).resolve_left (Ne.symm hne))]

/-- Leaving out other characters does not move the cut. -/
theorem partition_filter {sep : Char} {p : Char → Bool} (hsep : p sep = true) (s : List Char) :
    partition sep (s.filter p) =
      ((partition sep s).1.filter p, (partition sep s).2.1, (partition sep s).2.2.filter p) := by
  induction s with
  | nil => rfl
  | cons c rest ih =>
    by_cases hc : p c = true
    · rw [List.filter_cons_of_pos hc, partition_cons, partition_cons]
      split
      · rfl
      · rw [ih, List.filter_cons_of_pos hc]
    · have hne : c ≠ sep := by
        rintro rfl
        exact hc hsep
      rw [List.filter_cons_of_neg hc, ih, partition_cons, if_neg hne, List.filter_cons_of_neg hc]

/-- The first piece of a text that is split is what stands before the first separator. -/
theorem partition_fst_of_splitOn {sep : Char} {s first : List Char} {rest : List (List Char)}
    (h : s.splitOn sep = first :: rest) : (partition sep s).1 = first := by
  have hsplit : ∃ tail, s.splitOn sep = s.takeWhile (· ≠ sep) :: tail := by
    clear h
    induction s with
    | nil => exact ⟨[], List.splitOn_nil sep⟩
    | cons c rest ih =>
      obtain ⟨tail, hrest⟩ := ih
      rw [List.splitOn_cons_eq_if_modifyHead, hrest]
      by_cases hc : c = sep
      · exact ⟨_, by rw [if_pos (by simpa using hc), List.takeWhile_cons_of_neg (by simpa using hc)]⟩
      · exact ⟨tail, by rw [if_neg (by simpa using hc), List.takeWhile_cons_of_pos (by simpa using hc), List.modifyHead_cons]⟩
  obtain ⟨tail, htail⟩ := hsplit
  rw [partition_fst]
  exact (List.cons.inj (htail.symm.trans h)).1

end Py
