import FxaLite.Crypto.Tokens
import FxaLite.Lib.Dict
import FxaLite.Lib.PyText

/-!
# Credentials in a header

`token_id` and the refresh tokens of `auth/credentials.py`. An `Authorization` header names a token by its
id, under one of two schemes; a bearer id says by its prefix what kind of token it is, and a bearer
value without a prefix is a refresh token. So no header is taken for two kinds of credentials, unless
it is one of HAWK, which says nothing of the kind.
-/

namespace FxaLite.Accounts

open Crypto

/-- `MAX_HEADER_LENGTH`. -/
def maxHeaderLength : ℕ := 4096

/-- `\w`, of the characters that a header can hold, which are those of Latin-1. -/
def isWord (c : Char) : Bool :=
  let n := c.toNat
  (48 ≤ n && n ≤ 57) || (65 ≤ n && n ≤ 90) || n = 95 || (97 ≤ n && n ≤ 122) || n = 170 ||
    (178 ≤ n && n ≤ 190 && n ∉ [180, 182, 183, 184, 187]) || (192 ≤ n && n ≤ 255 && n ≠ 215 && n ≠ 247)

/-- `[0-9a-f]`. -/
def isLowerHex (c : Char) : Bool := (48 ≤ c.toNat && c.toNat ≤ 57) || (97 ≤ c.toNat && c.toNat ≤ 102)

/-- `[^"\\]`. -/
def isQuotable (c : Char) : Bool := c ≠ '"' && c ≠ '\\'

/-- Sixty-four lower-case hexadecimal digits. -/
def IsDigest (s : List Char) : Prop := s.length = 64 ∧ ∀ c ∈ s, isLowerHex c = true

/-- `_TOKEN_ID_RE.match`. -/
def isTokenId (s : List Char) : Bool := Py.matchesClass isLowerHex 64 64 s

/-- `_SCHEME_RE.match`: the scheme, and what follows the space after it. A word ends where its last
character is, so the longest choice is the only one. -/
def matchScheme (header : List Char) : Option (List Char × List Char) :=
  match header.takeWhile isWord, header.dropWhile isWord with
  | [], _ => none
  | scheme, [] => some (scheme, [])
  | scheme, c :: rest => if Py.isSpace c then some (scheme, rest.dropWhile Py.isSpace) else none

/-- `_ATTRIBUTE_RE` at the beginning of a text, with what follows the match. -/
def matchAttribute (s : List Char) : Option ((List Char × List Char) × List Char) :=
  match s.takeWhile isWord, s.dropWhile isWord with
  | [], _ => none
  | key, '=' :: '"' :: rest =>
    match rest.dropWhile isQuotable with
    | '"' :: after =>
      match after.dropWhile Py.isSpace with
      | [] => some ((key, rest.takeWhile isQuotable), [])
      | c :: next => if c = ',' then some ((key, rest.takeWhile isQuotable), next.dropWhile Py.isSpace) else none
    | _ => none
  | _, _ => none

/-- `_ATTRIBUTE_RE.findall`, of a text no longer than the bound. -/
def findAttributes : ℕ → List Char → List (List Char × List Char)
  | _, [] => []
  | 0, _ :: _ => []
  | bound + 1, c :: rest =>
    match matchAttribute (c :: rest) with
    | some (pair, after) => pair :: findAttributes bound after
    | none => findAttributes bound rest

/-- `_hawk_id`; the last attribute of a name counts. -/
def hawkId (attributes : List Char) : Except String (List Char) :=
  let identifier := (Dict.get? (findAttributes attributes.length attributes).reverse "id".toList).getD []
  if isTokenId identifier then .ok identifier else .error "Invalid token id"

/-- `BEARER_PREFIXES`. -/
def bearerPrefix : TokenType → String
  | .session => "fxs"
  | .keyFetch => "fxk"
  | .accountReset => "fxar"
  | .passwordChange => "fxpc"
  | .passwordForgot => "fxpf"

/-- A prefix and the underscore after it. -/
def bearerMark (type : TokenType) : List Char := (bearerPrefix type).toList ++ ['_']

/-- `_bearer_id`. -/
def bearerId (body : List Char) (type : TokenType) : Except String (List Char) :=
  let identifier := body.drop (bearerMark type).length
  if (bearerMark type).isPrefixOf body && isTokenId identifier then .ok (identifier.take 64) else .error "Invalid token id"

/-- `token_id`; an error is a 401 with its reason. -/
def tokenId (header : Option (List Char)) (type : TokenType) : Except String (Option (List Char)) :=
  let header := header.getD []
  if header = [] then .ok none
  else if maxHeaderLength < header.length then .error "Header length too long"
  else
    match matchScheme (Py.strip header) with
    | none => .error "Invalid header syntax"
    | some (scheme, rest) =>
      if Py.lower scheme = "hawk".toList then (hawkId rest).map some
      else if Py.lower scheme = "bearer".toList then (bearerId rest type).map some
      else .error ("Unsupported authentication scheme: " ++ String.ofList (Py.lower scheme))

/-- `_BEARER_RE.match`, as `device_credentials` asks it first: a refresh token. -/
def refreshBearer (header : Option (List Char)) : Option (List Char) :=
  match Py.strip (header.getD []) with
  | b :: rest =>
    let body := rest.drop 5
    let value := body.dropWhile Py.isSpace
    if (b = 'B' || b = 'b') && "earer".toList.isPrefixOf rest && value.length < body.length && isTokenId value then
      some (value.take 64)
    else none
  | [] => none

/-- `TokenKeys.bearer_header`. -/
def bearerHeader (keys : TokenKeys) (type : TokenType) : List Char :=
  "Bearer".toList ++ ' ' :: (bearerMark type ++ Hex.encode keys.id)

/-- An attribute as a HAWK client writes it. -/
def writeAttribute (pair : List Char × List Char) : List Char := pair.1 ++ '=' :: '"' :: (pair.2 ++ ['"'])

/-- Its attributes, with commas between them. -/
def writeAttributes (attributes : List (List Char × List Char)) : List Char :=
  [',', ' '].intercalate (attributes.map writeAttribute)

/-- What it sends. -/
def writeHawk (attributes : List (List Char × List Char)) : List Char := "Hawk".toList ++ ' ' :: writeAttributes attributes

/-! ### Ids -/

section Ids

variable {s body : List Char} {type type' : TokenType} {c : Char}

/-- A digit is a word character. -/
theorem isWord_of_isLowerHex (h : isLowerHex c = true) : isWord c = true := by
  simp only [isLowerHex, isWord, Bool.or_eq_true, Bool.and_eq_true, decide_eq_true_eq] at h ⊢
  omega

/-- A word character is no white space. -/
theorem isSpace_of_isWord (h : isWord c = true) : Py.isSpace c = false := by
  by_contra hspace
  simp only [isWord, Py.isSpace, Bool.or_eq_true, Bool.and_eq_true, decide_eq_true_eq, beq_iff_eq, Bool.not_eq_false,
    List.mem_cons, List.not_mem_nil, or_false] at h hspace
  omega

/-- Sixty-four digits are an id. -/
theorem isTokenId_of_isDigest (h : IsDigest s) : isTokenId s = true := by
  have hline : s.getLast? ≠ some '\n' := fun hlast => absurd (h.2 _ (List.mem_of_getLast? hlast)) (by decide)
  exact (Py.matchesClass_eq_true hline).mpr ⟨h.1.ge, h.1.le, h.2⟩

/-- An id without a final line feed is no more. -/
theorem isDigest_of_isTokenId (h : isTokenId s = true) (hline : s.getLast? ≠ some '\n') : IsDigest s := by
  obtain ⟨hlow, hhigh, hall⟩ := (Py.matchesClass_eq_true hline).mp h
  exact ⟨le_antisymm hhigh hlow, hall⟩

/-- An id is sixty-four digits, and at most one final line feed. -/
theorem isDigest_take_of_isTokenId (h : isTokenId s = true) : IsDigest (s.take 64) := by
  simp only [isTokenId, Py.matchesClass, Bool.and_eq_true, decide_eq_true_eq, List.all_eq_true] at h
  obtain ⟨⟨hlow, hhigh⟩, hall⟩ := h
  split at hlow
  · rename_i hline
    rw [if_pos hline] at hhigh hall
    have htake : s.take 64 = s.dropLast := by
      rw [List.dropLast_eq_take]
      congr 1
      rw [List.length_dropLast] at hlow hhigh
      omega
    exact ⟨by rw [htake]; omega, htake ▸ hall⟩
  · rename_i hline
    rw [if_neg hline] at hhigh hall
    rw [List.take_of_length_le hhigh]
    exact ⟨by omega, hall⟩

/-- So it is such digits, or such digits and a line feed. -/
theorem isDigest_or_of_isTokenId (h : isTokenId s = true) : IsDigest s ∨ ∃ digits, IsDigest digits ∧ s = digits ++ ['\n'] := by
  by_cases hline : s.getLast? = some '\n'
  · have hsplit := List.dropLast_append_getLast? '\n' hline
    refine Or.inr ⟨s.dropLast, ?_, hsplit.symm⟩
    simp only [isTokenId, Py.matchesClass, if_pos hline, Bool.and_eq_true, decide_eq_true_eq, List.all_eq_true] at h
    exact ⟨le_antisymm h.1.2 h.1.1, h.2⟩
  · exact Or.inl (isDigest_of_isTokenId h hline)

/-- Two kinds of tokens are marked apart. -/
theorem bearerMark_apart (hbody : (bearerMark type).isPrefixOf body = true) (hbody' : (bearerMark type').isPrefixOf body = true) :
    type = type' := by
  have hapart : ∀ type type', bearerMark type <+: bearerMark type' → type = type' := by
    intro type type' hprefix
    cases type <;> cases type' <;> first | rfl | exact absurd hprefix (by decide)
  rw [List.isPrefixOf_iff_prefix] at hbody hbody'
  obtain hprefix | hprefix := List.prefix_or_prefix_of_prefix hbody hbody'
  · exact hapart type type' hprefix
  · exact (hapart type' type hprefix).symm

/-- No id begins with a mark. -/
theorem not_isPrefixOf_of_isTokenId (h : isTokenId body = true) (type : TokenType) : (bearerMark type).isPrefixOf body = false := by
  by_contra hprefix
  rw [Bool.not_eq_false, List.isPrefixOf_iff_prefix] at hprefix
  obtain ⟨rest, rfl⟩ := hprefix
  have hmark : ∃ tail, bearerMark type = 'f' :: 'x' :: tail := by
    cases type <;> exact ⟨_, rfl⟩
  obtain ⟨tail, htail⟩ := hmark
  rw [htail] at h
  exact absurd ((isDigest_take_of_isTokenId h).2 'x' (by simp)) (by decide)

/-- A bearer id is a text of digits behind the mark, if no line feed ends what it is read from. -/
theorem bearerId_eq_ok {id : List Char} (h : bearerId body type = .ok id) (hline : body.getLast? ≠ some '\n') :
    IsDigest id ∧ body = bearerMark type ++ id := by
  unfold bearerId at h
  dsimp only at h
  split at h
  · rename_i hmatch
    rw [Bool.and_eq_true] at hmatch
    cases h
    obtain ⟨rest, rfl⟩ := List.isPrefixOf_iff_prefix.mp hmatch.1
    rw [List.drop_left] at hmatch ⊢
    have hrest : rest.getLast? ≠ some '\n' := by
      intro hlast
      refine hline ?_
      rw [List.getLast?_append, hlast]
      rfl
    have hdigest := isDigest_of_isTokenId hmatch.2 hrest
    rw [List.take_of_length_le hdigest.1.le]
    exact ⟨hdigest, rfl⟩
  · cases h

/-- Without its mark there is none. -/
theorem bearerId_of_not_isPrefixOf (h : (bearerMark type).isPrefixOf body = false) : bearerId body type = .error "Invalid token id" := by
  rw [bearerId, h]
  rfl

/-- A HAWK id is a text of digits. -/
theorem hawkId_eq_ok {id : List Char} (h : hawkId body = .ok id) : isTokenId id = true := by
  unfold hawkId at h
  dsimp only at h
  split at h
  · rename_i hmatch
    cases h
    exact hmatch
  · cases h

end Ids

/-! ### Headers -/

section Headers

variable {header : Option (List Char)} {type : TokenType}

/-- A scheme, white space, and the rest. -/
theorem matchScheme_append {scheme rest : List Char} {c : Char} (hne : scheme ≠ []) (hword : ∀ d ∈ scheme, isWord d = true)
    (hspace : Py.isSpace c = true) :
    matchScheme (scheme ++ c :: rest) = some (scheme, rest.dropWhile Py.isSpace) := by
  have hc : isWord c = false := by
    by_contra hw
    rw [Bool.not_eq_false] at hw
    rw [isSpace_of_isWord hw] at hspace
    cases hspace
  obtain ⟨d, scheme, rfl⟩ := List.exists_cons_of_ne_nil hne
  rw [matchScheme, List.takeWhile_append_of_pos hword, List.dropWhile_append_of_pos hword]
  simp [hc, hspace]

/-- What `token_id` reads, by the scheme. -/
theorem tokenId_eq {text scheme rest : List Char} (hne : text ≠ []) (hlength : text.length ≤ maxHeaderLength)
    (hscheme : matchScheme (Py.strip text) = some (scheme, rest)) (type : TokenType) :
    tokenId (some text) type =
      if Py.lower scheme = "hawk".toList then (hawkId rest).map some
      else if Py.lower scheme = "bearer".toList then (bearerId rest type).map some
      else .error ("Unsupported authentication scheme: " ++ String.ofList (Py.lower scheme)) := by
  simp only [tokenId, Option.getD_some, if_neg hne, if_neg (not_lt.mpr hlength), hscheme]

/-- An id is read by one of the schemes. -/
theorem tokenId_eq_ok {id : List Char} (h : tokenId header type = .ok (some id)) :
    ∃ text scheme rest, header = some text ∧ text ≠ [] ∧ text.length ≤ maxHeaderLength ∧
      matchScheme (Py.strip text) = some (scheme, rest) ∧
        (Py.lower scheme = "hawk".toList ∧ hawkId rest = .ok id ∨
          Py.lower scheme ≠ "hawk".toList ∧ Py.lower scheme = "bearer".toList ∧ bearerId rest type = .ok id) := by
  cases header with
  | none => cases h
  | some text =>
    simp only [tokenId, Option.getD_some] at h
    split at h
    · cases h
    · rename_i hne
      split at h
      · cases h
      · rename_i hlength
        split at h
        · cases h
        · rename_i scheme rest hscheme
          refine ⟨text, scheme, rest, rfl, hne, not_lt.mp hlength, hscheme, ?_⟩
          split at h
          · rename_i hhawk
            obtain ⟨id', hid, heq⟩ := Fallible.map_eq_ok.mp h
            cases heq
            exact Or.inl ⟨hhawk, hid⟩
          · rename_i hhawk
            split at h
            · rename_i hbearer
              obtain ⟨id', hid, heq⟩ := Fallible.map_eq_ok.mp h
              cases heq
              exact Or.inr ⟨hhawk, hbearer, hid⟩
            · cases h

/-- What follows a scheme does not end in a line feed, where nothing that could be stripped is at the end. -/
theorem getLast?_of_matchScheme {text scheme rest : List Char} (hscheme : matchScheme (Py.strip text) = some (scheme, rest)) :
    rest.getLast? ≠ some '\n' := by
  have hsuffix : rest <:+ Py.strip text := by
    generalize Py.strip text = stripped at hscheme
    unfold matchScheme at hscheme
    have hbehind := List.dropWhile_suffix (l := stripped) isWord
    split at hscheme
    · cases hscheme
    · cases hscheme
      exact List.nil_suffix
    · rename_i c tail htail _
      split at hscheme
      · cases hscheme
        rw [htail] at hbehind
        exact ((List.dropWhile_suffix _).trans (List.suffix_cons c tail)).trans hbehind
      · cases hscheme
  intro hlast
  obtain ⟨before, hbefore⟩ := hsuffix
  have hend : (Py.strip text).getLast? = some '\n' := by
    rw [← hbefore, List.getLast?_append, hlast]
    rfl
  exact absurd (Py.stripWhere_getLast? hend) (by decide)

/-- A refresh token stands after the scheme of bearers, and white space. -/
theorem refreshBearer_eq_some {token : List Char} (h : refreshBearer header = some token) :
    IsDigest token ∧ ∃ text scheme value, header = some text ∧ Py.lower scheme = "bearer".toList ∧
      matchScheme (Py.strip text) = some (scheme, value) ∧ isTokenId value = true := by
  unfold refreshBearer at h
  cases header with
  | none => cases h
  | some text =>
    rw [Option.getD_some] at h
    split at h
    · rename_i b rest hstrip
      dsimp only at h
      split at h
      · rename_i hmatch
        cases h
        simp only [Bool.and_eq_true, Bool.or_eq_true, decide_eq_true_eq] at hmatch
        obtain ⟨⟨⟨hb, hscheme⟩, hshort⟩, hvalue⟩ := hmatch
        have hdigest := isDigest_take_of_isTokenId hvalue
        obtain ⟨body, hbody⟩ := List.isPrefixOf_iff_prefix.mp hscheme
        have hdrop : rest.drop 5 = body := by
          rw [← hbody]
          rfl
        rw [hdrop] at hshort hvalue
        obtain ⟨c, tail, rfl⟩ : ∃ c tail, body = c :: tail := by
          cases body with
          | nil => cases hshort
          | cons c tail => exact ⟨c, tail, rfl⟩
        have hspace : Py.isSpace c = true := by
          by_contra hc
          rw [List.dropWhile_cons_of_neg hc] at hshort
          exact absurd hshort (lt_irrefl _)
        rw [List.dropWhile_cons_of_pos hspace] at hvalue
        have hword : ∀ d ∈ b :: "earer".toList, isWord d = true := by
          obtain rfl | rfl := hb <;> exact List.all_eq_true.mp (by decide)
        have hsplit := @matchScheme_append (b :: "earer".toList) tail c (List.cons_ne_nil _ _) hword hspace
        refine ⟨hdigest, text, b :: "earer".toList, tail.dropWhile Py.isSpace, rfl, ?_, ?_, hvalue⟩
        · obtain rfl | rfl := hb <;> decide
        · rw [hstrip, ← hbody, ← hsplit]
          rfl
      · cases h
    · cases h

/-- What a client sends after a scheme and a space is read by the scheme. -/
theorem tokenId_write {scheme rest : List Char} {c : Char} (hne : scheme ≠ []) (hword : ∀ d ∈ scheme, isWord d = true)
    (hfirst : rest.head? = some c) (hc : Py.isSpace c = false) (hlast : ∀ d, rest.getLast? = some d → Py.isSpace d = false)
    (hlength : (scheme ++ ' ' :: rest).length ≤ maxHeaderLength) (type : TokenType) :
    tokenId (some (scheme ++ ' ' :: rest)) type =
      if Py.lower scheme = "hawk".toList then (hawkId rest).map some
      else if Py.lower scheme = "bearer".toList then (bearerId rest type).map some
      else .error ("Unsupported authentication scheme: " ++ String.ofList (Py.lower scheme)) := by
  have hstrip : Py.strip (scheme ++ ' ' :: rest) = scheme ++ ' ' :: rest := by
    refine Py.strip_eq_self_of_ends (fun d hd => ?_) fun d hd => hlast d ?_
    · obtain ⟨e, tail, rfl⟩ := List.exists_cons_of_ne_nil hne
      cases hd
      exact isSpace_of_isWord (hword d List.mem_cons_self)
    · cases rest with
      | nil => cases hfirst
      | cons e tail => rwa [List.getLast?_append_cons, List.getLast?_cons_cons] at hd
  have hdrop : rest.dropWhile Py.isSpace = rest := by
    cases rest with
    | nil => rfl
    | cons d tail =>
      cases hfirst
      exact List.dropWhile_cons_of_neg (by rw [hc]; decide)
  have hscheme := @matchScheme_append scheme rest ' ' hne hword (by decide : Py.isSpace ' ' = true)
  rw [hdrop, ← hstrip] at hscheme
  refine tokenId_eq (fun hnil => hne (List.append_eq_nil_iff.mp hnil).1) hlength ?_ type
  exact hscheme

/-- The header of a token is read as its id. -/
theorem tokenId_bearerHeader {keys : TokenKeys} (hid : keys.id.length = 32) (type : TokenType) :
    tokenId (some (bearerHeader keys type)) type = .ok (some (Hex.encode keys.id)) := by
  have hlength : (Hex.encode keys.id).length = 64 := by rw [Hex.length_encode, hid]
  have hdigits : ∀ c ∈ Hex.encode keys.id, isLowerHex c = true := by
    have hall : ∀ n < 16, isLowerHex (Hex.digit n) = true := by decide
    intro c hc
    obtain ⟨n, hn, rfl⟩ := Hex.exists_digit_of_mem hc
    exact hall n hn
  have hmark : ∃ tail, bearerMark type = 'f' :: tail ∧ tail.length ≤ 4 := by
    cases type <;> exact ⟨_, rfl, by decide⟩
  obtain ⟨tail, htail, hshort⟩ := hmark
  have hlast : ∀ d, (bearerMark type ++ Hex.encode keys.id).getLast? = some d → Py.isSpace d = false := by
    intro d hd
    have hne : Hex.encode keys.id ≠ [] := fun hnil => by rw [hnil] at hlength; cases hlength
    rw [List.getLast?_append_of_ne_nil _ hne] at hd
    exact isSpace_of_isWord (isWord_of_isLowerHex (hdigits d (List.mem_of_getLast? hd)))
  have hfits : ("Bearer".toList ++ ' ' :: (bearerMark type ++ Hex.encode keys.id)).length ≤ maxHeaderLength := by
    rw [List.length_append, List.length_cons, List.length_append, hlength, htail, List.length_cons, maxHeaderLength]
    have hbearer : "Bearer".toList.length = 6 := rfl
    omega
  have hread := @tokenId_write "Bearer".toList (bearerMark type ++ Hex.encode keys.id) 'f' (by decide)
    (List.all_eq_true.mp (by decide)) (by rw [htail]; rfl) (by decide) hlast hfits type
  have hprefix : (bearerMark type).isPrefixOf (bearerMark type ++ Hex.encode keys.id) = true :=
    List.isPrefixOf_iff_prefix.mpr (List.prefix_append _ _)
  rw [bearerHeader, hread, if_neg (by decide), if_pos (by decide), bearerId, hprefix, List.drop_left,
    isTokenId_of_isDigest ⟨hlength, hdigits⟩, List.take_of_length_le hlength.le]
  rfl

/-! ### HAWK -/

/-- A pair that can be written: a word, and a value that can stand in quotes. -/
structure Writable (pair : List Char × List Char) : Prop where
  name : pair.1 ≠ []
  word : ∀ c ∈ pair.1, isWord c = true
  quotable : ∀ c ∈ pair.2, isQuotable c = true

/-- The first attribute, and a comma if there is another. -/
theorem writeAttributes_cons (pair : List Char × List Char) (rest : List (List Char × List Char)) :
    writeAttributes (pair :: rest) =
      writeAttribute pair ++ if rest = [] then [] else ',' :: ' ' :: writeAttributes rest := by
  cases rest with
  | nil => simp [writeAttributes]
  | cons next rest => simp [writeAttributes, List.intercalate_cons_cons]

/-- Attributes begin with a word and end with a quote. -/
theorem exists_ends_writeAttributes {pair : List Char × List Char} (h : Writable pair) (rest : List (List Char × List Char)) :
    (∃ c tail, writeAttributes (pair :: rest) = c :: tail ∧ isWord c = true) ∧
      (writeAttributes (pair :: rest)).getLast? = some '"' := by
  constructor
  · obtain ⟨c, name, hname⟩ := List.exists_cons_of_ne_nil h.name
    rw [writeAttributes_cons, writeAttribute, hname]
    exact ⟨c, _, rfl, h.word c (hname ▸ List.mem_cons_self)⟩
  · clear h
    induction rest generalizing pair with
    | nil =>
      have hconcat : writeAttribute pair = (pair.1 ++ '=' :: '"' :: pair.2) ++ ['"'] := by simp [writeAttribute]
      rw [writeAttributes_cons, if_pos rfl, List.append_nil, hconcat, List.getLast?_concat]
    | cons next rest ih =>
      have hnext := @ih next
      rw [writeAttributes_cons, if_neg (List.cons_ne_nil _ _), List.getLast?_append, List.getLast?_cons, List.getLast?_cons, hnext]
      rfl

/-- A written attribute is matched, and so is the comma after it. -/
theorem matchAttribute_writeAttribute {pair : List Char × List Char} (h : Writable pair) :
    matchAttribute (writeAttribute pair) = some (pair, []) ∧
      ∀ c tail, Py.isSpace c = false →
        matchAttribute (writeAttribute pair ++ ',' :: ' ' :: c :: tail) = some (pair, c :: tail) := by
  obtain ⟨name, value⟩ := pair
  obtain ⟨hname, hword, hquotable⟩ := h
  have heq : isWord '=' = false := by decide
  have hend : isQuotable '"' = false := by decide
  have hcomma : Py.isSpace ',' = false := by decide
  have hblank : Py.isSpace ' ' = true := by decide
  have htext : ∀ rest, writeAttribute (name, value) ++ rest = name ++ '=' :: '"' :: (value ++ '"' :: rest) := by
    intro rest
    simp [writeAttribute]
  obtain _ | ⟨d, name⟩ := name
  · exact absurd rfl hname
  · refine ⟨?_, fun c tail hc => ?_⟩
    · have hone := htext []
      rw [List.append_nil] at hone
      rw [hone, matchAttribute, List.takeWhile_append_of_pos hword, List.dropWhile_append_of_pos hword]
      simp [heq, hend, List.takeWhile_append_of_pos hquotable, List.dropWhile_append_of_pos hquotable]
    · rw [htext, matchAttribute, List.takeWhile_append_of_pos hword, List.dropWhile_append_of_pos hword]
      simp [heq, hend, hcomma, hblank, hc, List.takeWhile_append_of_pos hquotable, List.dropWhile_append_of_pos hquotable]

/-- What is matched is found, and then what follows it. -/
theorem findAttributes_of_match {text after : List Char} {pair : List Char × List Char} (hne : text ≠ [])
    (h : matchAttribute text = some (pair, after)) (bound : ℕ) :
    findAttributes (bound + 1) text = pair :: findAttributes bound after := by
  obtain ⟨c, tail, rfl⟩ := List.exists_cons_of_ne_nil hne
  simp only [findAttributes, h]

/-- Written attributes are found. -/
theorem findAttributes_writeAttributes {attributes : List (List Char × List Char)} (h : ∀ pair ∈ attributes, Writable pair)
    {bound : ℕ} (hbound : (writeAttributes attributes).length ≤ bound) :
    findAttributes bound (writeAttributes attributes) = attributes := by
  induction attributes generalizing bound with
  | nil => simp [writeAttributes, findAttributes]
  | cons pair rest ih =>
    obtain ⟨hend, hmore⟩ := matchAttribute_writeAttribute (h pair List.mem_cons_self)
    have hne : ∀ text, writeAttribute pair ++ text ≠ [] := by
      intro text hnil
      simp [writeAttribute] at hnil
    rw [writeAttributes_cons] at hbound ⊢
    cases rest with
    | nil =>
      have hpos := List.length_pos_of_ne_nil (hne [])
      rw [if_pos rfl, List.append_nil] at hbound ⊢
      rw [List.append_nil] at hpos
      obtain ⟨bound, rfl⟩ : ∃ b, bound = b + 1 := ⟨bound - 1, by omega⟩
      rw [findAttributes_of_match (by simpa using hne []) hend, findAttributes]
    | cons next rest =>
      obtain ⟨⟨c, tail, hcons, hc⟩, -⟩ := exists_ends_writeAttributes (h next (by simp)) rest
      have hfound := hmore c tail (isSpace_of_isWord hc)
      rw [if_neg (List.cons_ne_nil _ _), List.length_append, List.length_cons, List.length_cons] at hbound
      rw [if_neg (List.cons_ne_nil _ _)]
      rw [← hcons] at hfound
      obtain ⟨bound, rfl⟩ : ∃ b, bound = b + 1 := ⟨bound - 1, by omega⟩
      rw [findAttributes_of_match (hne _) hfound, ih (fun p hp => h p (List.mem_cons_of_mem _ hp)) (by omega)]

/-- The id that a HAWK client writes, among whatever attributes, is read, for every kind of token. -/
theorem tokenId_writeHawk {attributes : List (List Char × List Char)} {id : List Char} (h : ∀ pair ∈ attributes, Writable pair)
    (hnodup : (attributes.map Prod.fst).Nodup) (hmem : ("id".toList, id) ∈ attributes) (hid : isTokenId id = true)
    (hlength : (writeHawk attributes).length ≤ maxHeaderLength) (type : TokenType) :
    tokenId (some (writeHawk attributes)) type = .ok (some id) := by
  have hends : ∃ c, (writeAttributes attributes).head? = some c ∧ isWord c = true ∧
      (writeAttributes attributes).getLast? = some '"' := by
    obtain ⟨pair, rest, rfl⟩ := List.exists_cons_of_ne_nil (List.ne_nil_of_mem hmem)
    obtain ⟨⟨c, tail, hcons, hc⟩, hlast⟩ := exists_ends_writeAttributes (h pair List.mem_cons_self) rest
    exact ⟨c, by rw [hcons]; rfl, hc, hlast⟩
  obtain ⟨c, hhead, hc, hlast⟩ := hends
  have hread := @tokenId_write "Hawk".toList _ c (by decide) (List.all_eq_true.mp (by decide)) hhead (isSpace_of_isWord hc)
    (fun d hd => by cases hlast.symm.trans hd; decide) hlength type
  have hfound := Dict.get?_reverse_of_mem id hnodup hmem
  rw [writeHawk, hread, if_pos (by decide), hawkId, findAttributes_writeAttributes h le_rfl, hfound, Option.getD_some, if_pos hid]
  rfl

end Headers

/-- No header is taken for tokens of two kinds. An id that is read from it for one kind is sixty-four digits; under
the scheme of HAWK, where a line feed may follow them, it is read for all kinds, and under that of bearers, where
they follow the mark of the kind, for no other. A header that carries a refresh token is refused for every kind.
What the two kinds of clients send is read as the id that they mean. -/
theorem credentials_apart :
    (∀ header type id, tokenId header type = .ok (some id) →
      ∃ text scheme rest, header = some text ∧ matchScheme (Py.strip text) = some (scheme, rest) ∧
        (Py.lower scheme = "hawk".toList ∧ (IsDigest id ∨ ∃ digits, IsDigest digits ∧ id = digits ++ ['\n']) ∧
            (∀ type', tokenId header type' = .ok (some id)) ∨
          Py.lower scheme = "bearer".toList ∧ IsDigest id ∧ rest = bearerMark type ++ id ∧
            ∀ type', type' ≠ type → tokenId header type' = .error "Invalid token id")) ∧
    (∀ header token, refreshBearer header = some token → IsDigest token ∧
      ∀ type, ∃ reason, tokenId header type = .error reason) ∧
    (∀ (keys : TokenKeys) type, keys.id.length = 32 →
      tokenId (some (bearerHeader keys type)) type = .ok (some (Hex.encode keys.id))) ∧
    ∀ (attributes : List (List Char × List Char)) (id : List Char), (∀ pair ∈ attributes, Writable pair) →
      (attributes.map Prod.fst).Nodup → ("id".toList, id) ∈ attributes → isTokenId id = true →
        (writeHawk attributes).length ≤ maxHeaderLength → ∀ type, tokenId (some (writeHawk attributes)) type = .ok (some id) := by
  refine ⟨fun header type id hread => ?_, fun header token htoken => ?_, fun keys type hid => tokenId_bearerHeader hid type,
    fun attributes id h hnodup hmem hid hlength type => tokenId_writeHawk h hnodup hmem hid hlength type⟩
  · obtain ⟨text, scheme, rest, rfl, hne, hlength, hscheme, hkind⟩ := tokenId_eq_ok hread
    have hall := tokenId_eq hne hlength hscheme
    refine ⟨text, scheme, rest, rfl, hscheme, ?_⟩
    obtain ⟨hhawk, hid⟩ | ⟨hhawk, hbearer, hid⟩ := hkind
    · refine Or.inl ⟨hhawk, isDigest_or_of_isTokenId (hawkId_eq_ok hid), fun type' => ?_⟩
      rw [hall, if_pos hhawk, hid]
      rfl
    · obtain ⟨hdigest, hrest⟩ := bearerId_eq_ok hid (getLast?_of_matchScheme hscheme)
      refine Or.inr ⟨hbearer, hdigest, hrest, fun type' hother => ?_⟩
      have hmark : (bearerMark type).isPrefixOf rest = true := List.isPrefixOf_iff_prefix.mpr ⟨id, hrest.symm⟩
      have hunmarked : (bearerMark type').isPrefixOf rest = false := by
        by_contra hmark'
        rw [Bool.not_eq_false] at hmark'
        exact hother (bearerMark_apart hmark' hmark)
      rw [hall, if_neg hhawk, if_pos hbearer, bearerId_of_not_isPrefixOf hunmarked]
      rfl
  · obtain ⟨hdigits, text, scheme, value, rfl, hbearer, hscheme, hvalue⟩ := refreshBearer_eq_some htoken
    refine ⟨hdigits, fun type => ?_⟩
    have hne : text ≠ [] := by
      rintro rfl
      cases hscheme
    by_cases hlength : text.length ≤ maxHeaderLength
    · have hhawk : Py.lower scheme ≠ "hawk".toList := by
        rw [hbearer]
        decide
      rw [tokenId_eq hne hlength hscheme, if_neg hhawk, if_pos hbearer,
        bearerId_of_not_isPrefixOf (not_isPrefixOf_of_isTokenId hvalue type)]
      exact ⟨_, rfl⟩
    · refine ⟨"Header length too long", ?_⟩
      simp only [tokenId, Option.getD_some, if_neg hne, if_pos (not_le.mp hlength)]

end FxaLite.Accounts
