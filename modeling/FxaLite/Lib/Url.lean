import FxaLite.Lib.Hex
import FxaLite.Lib.PyText
import Mathlib.Data.List.TakeWhile

/-!
# URLs as the standard library splits them

`urlsplit` cuts a text at fixed characters, without decoding anything: what stands before the
first colon, if it can be a scheme; what stands between `//` and the first of `/`, `?` and `#`;
what stands behind the first `#`, and behind the first `?` before it. It raises only for a host
in brackets that is not an IPv6 address. `urlunsplit` puts the parts together again, and parts
that are free of the characters they are cut at are found back.

The text is Latin-1, as the headers of a request are; the compatibility forms of other
characters, which `urlsplit` refuses where they hide a delimiter, do not occur in it.
-/

namespace Url

/-- What `urlsplit` returns. -/
structure SplitResult where
  scheme : List Char
  netloc : List Char
  path : List Char
  query : List Char
  fragment : List Char
  deriving DecidableEq, Repr

/-! ### Hosts in brackets -/

/-- A letter or a digit. -/
def isAlnum (c : Char) : Bool := c.isAlpha || c.isDigit

/-- `_parse_octet` raises nothing. -/
def isOctet (octet : List Char) : Bool :=
  !octet.isEmpty && octet.all Char.isDigit && octet.length ≤ 3 && (octet = ['0'] || octet.head? ≠ some '0') &&
    Nat.ofDigitChars 10 octet 0 ≤ 255

/-- An IPv4 address. -/
def isIPv4 (address : List Char) : Bool :=
  let octets := address.splitOn '.'
  octets.length = 4 && octets.all isOctet

/-- `_parse_hextet` raises nothing. -/
def isHextet (hextet : List Char) : Bool := !hextet.isEmpty && hextet.all Hex.isDigit && hextet.length ≤ 4

/-- The parts of an IPv6 address between its colons, an IPv4 address at its end counting for two;
`none` if what stands there is no IPv4 address. -/
def hextets (address : List Char) : Option (List (List Char)) :=
  let parts := address.splitOn ':'
  match parts.getLast? with
  | some last =>
    if '.' ∈ last then if isIPv4 last then some (parts.dropLast ++ [['0'], ['0']]) else none else some parts
  | none => some parts

/-- An IPv6 address without its scope id: eight hextets, or fewer around one `::`, which may also
begin or end the address. -/
def isIPv6Body (address : List Char) : Bool :=
  3 ≤ (address.splitOn ':').length &&
    match hextets address with
    | none => false
    | some parts =>
      let inner := parts.tail.dropLast
      match inner.idxOf? [] with
      | none => parts.length = 8 && parts.all isHextet
      | some skipped =>
        let above := parts.take (skipped + 1)
        let below := parts.drop (skipped + 2)
        let above := if above.head? = some [] then above.tail else above
        let below := if below.getLast? = some [] then below.dropLast else below
        parts.length ≤ 9 && (inner.drop (skipped + 1)).all (· ≠ []) && above.length + below.length < 8 &&
          (parts.head? ≠ some [] || above.isEmpty) && (parts.getLast? ≠ some [] || below.isEmpty) &&
          above.all isHextet && below.all isHextet

/-- An IPv6 address, with its scope id if it has one. -/
def isIPv6 (address : List Char) : Bool :=
  match Py.partition '%' address with
  | (body, true, scopeId) => !scopeId.isEmpty && '%' ∉ scopeId && isIPv6Body body
  | (body, false, _) => isIPv6Body body

/-- `_check_bracketed_host` raises nothing. -/
def isBracketedHost (hostname : List Char) : Bool :=
  match hostname with
  | 'v' :: rest =>
    match Py.partition '.' rest with
    | (version, found, address) => found && !version.isEmpty && version.all Hex.isDigit && !address.isEmpty &&
        '\n' ∉ address
  | _ => isIPv6 hostname

/-- `_check_bracketed_netloc` raises nothing. -/
def isBracketedNetloc (netloc : List Char) : Bool :=
  let hostnameAndPort := (Py.rpartition '@' netloc).2.2
  match Py.partition '[' hostnameAndPort with
  | (before, true, bracketed) =>
    match Py.partition ']' bracketed with
    | (hostname, _, port) => before.isEmpty && (port.isEmpty || port.head? = some ':') && isBracketedHost hostname
  | (_, false, _) => isBracketedHost (Py.partition ':' hostnameAndPort).1

/-- Nothing about the brackets of a netloc raises. -/
def bracketsMatch (netloc : List Char) : Bool :=
  if '[' ∈ netloc then ']' ∈ netloc && isBracketedNetloc netloc else ']' ∉ netloc

/-! ### Splitting and joining -/

/-- `_WHATWG_C0_CONTROL_OR_SPACE`. -/
def isControlOrSpace (c : Char) : Bool := c.toNat ≤ 32

/-- `_UNSAFE_URL_BYTES_TO_REMOVE`. -/
def isRemoved (c : Char) : Bool := c = '\t' || c = '\r' || c = '\n'

/-- `scheme_chars`. -/
def isSchemeChar (c : Char) : Bool := isAlnum c || c = '+' || c = '-' || c = '.'

/-- A netloc ends in front of such a character. -/
def isDelimiter (c : Char) : Bool := c = '/' || c = '?' || c = '#'

/-- The scheme, if there is one, and the rest. -/
def splitScheme (url : List Char) : List Char × List Char :=
  match Py.partition ':' url with
  | (scheme, true, rest) =>
    if scheme.head?.any Char.isAlpha && scheme.all isSchemeChar then (Py.lower scheme, rest) else ([], url)
  | _ => ([], url)

/-- The netloc, if there is one, and the rest. -/
def splitNetloc : List Char → List Char × List Char
  | '/' :: '/' :: rest => (rest.takeWhile fun c => !isDelimiter c, rest.dropWhile fun c => !isDelimiter c)
  | url => ([], url)

/-- `urlsplit`; `none` is a `ValueError`. -/
def urlsplit (url : List Char) : Option SplitResult :=
  let url := (url.dropWhile isControlOrSpace).filter fun c => !isRemoved c
  let (scheme, url) := splitScheme url
  let (netloc, url) := splitNetloc url
  if bracketsMatch netloc then
    let (url, _, fragment) := Py.partition '#' url
    let (path, _, query) := Py.partition '?' url
    some ⟨scheme, netloc, path, query, fragment⟩
  else none

/-- What stands behind a separator, with the separator if anything does. -/
def behind (sep : Char) (s : List Char) : List Char := if s = [] then [] else sep :: s

/-- `urlunsplit`, of parts with a netloc and a path that is empty or begins with a slash. -/
def urlunsplit (parts : SplitResult) : List Char :=
  parts.scheme ++ ':' :: '/' :: '/' :: (parts.netloc ++ (parts.path ++ (behind '?' parts.query ++ behind '#' parts.fragment)))

/-! ### Host and port -/

/-- `_hostinfo`: the host as it stands in the netloc, and what stands behind it for the port. -/
def hostinfo (netloc : List Char) : List Char × List Char :=
  let hostinfo := (Py.rpartition '@' netloc).2.2
  match Py.partition '[' hostinfo with
  | (_, true, bracketed) =>
    match Py.partition ']' bracketed with
    | (hostname, _, port) => (hostname, (Py.partition ':' port).2.2)
  | (_, false, _) =>
    match Py.partition ':' hostinfo with
    | (hostname, _, port) => (hostname, port)

/-- `hostname`, empty where it is `None`; the zone of an address keeps its case. -/
def hostname (netloc : List Char) : List Char :=
  match Py.partition '%' (hostinfo netloc).1 with
  | (address, true, zone) => Py.lower address ++ '%' :: zone
  | (address, false, _) => Py.lower address

/-- `port`; the outer `none` is a `ValueError`, the inner one stands for no port. -/
def port (netloc : List Char) : Option (Option ℤ) :=
  let text := (hostinfo netloc).2
  if text = [] then some none
  else if text.all Char.isDigit then
    match Py.int text with
    | some n => if n ≤ 65535 then some (some n) else none
    | none => none
  else none

/-! ### Finding the parts again -/

/-- A scheme as `urlsplit` returns it. -/
structure IsScheme (scheme : List Char) : Prop where
  letter : scheme.head?.any Char.isAlpha = true
  chars : scheme.all isSchemeChar = true
  lower : Py.lower scheme = scheme

/-- Parts that are free of the characters they are cut at. -/
structure SplitResult.Separated (parts : SplitResult) : Prop where
  netloc : ∀ c ∈ parts.netloc, isDelimiter c = false
  path : ∀ c ∈ parts.path.head?, isDelimiter c = true
  beforeQuery : '?' ∉ parts.path
  beforeFragment : '#' ∉ parts.path
  query : '#' ∉ parts.query
  kept : ∀ c ∈ parts.netloc ++ (parts.path ++ (parts.query ++ parts.fragment)), isRemoved c = false

/-- A netloc is cut off in front of a delimiter. -/
theorem splitNetloc_of_ne_nil {url : List Char} (h : (splitNetloc url).1 ≠ []) :
    (∀ c ∈ (splitNetloc url).1, isDelimiter c = false) ∧ ∀ c ∈ (splitNetloc url).2.head?, isDelimiter c = true := by
  revert h
  unfold splitNetloc
  split
  · rename_i rest
    refine fun _ => ⟨fun c hc => ?_, fun c hc => ?_⟩
    · simpa using List.mem_takeWhile_imp hc
    · have hnot := List.head?_dropWhile_not (fun c => !isDelimiter c) rest
      rw [Option.mem_def.mp hc] at hnot
      simpa using hnot
  · exact fun h => absurd rfl h

/-- A scheme and a netloc are cut off from the front. -/
theorem splitScheme_suffix (url : List Char) : (splitScheme url).2 <:+ url := by
  unfold splitScheme
  split
  · rename_i scheme rest hpartition
    split
    · have hsuffix := Py.partition_suffix ':' url
      rwa [hpartition] at hsuffix
    · exact List.suffix_rfl
  · exact List.suffix_rfl

/-- Nothing is added to what a netloc is cut off from. -/
theorem mem_of_mem_splitNetloc {url : List Char} {c : Char} (h : c ∈ (splitNetloc url).1 ∨ c ∈ (splitNetloc url).2) :
    c ∈ url := by
  unfold splitNetloc at h
  split at h
  · obtain h | h := h
    · simp [( List.takeWhile_prefix _).subset h]
    · simp [(List.dropWhile_suffix _).subset h]
  · obtain h | h := h
    · cases h
    · exact h

/-- The parts of a URL with a netloc are separated. -/
theorem separated_of_urlsplit {url : List Char} {parts : SplitResult} (h : urlsplit url = some parts)
    (hnetloc : parts.netloc ≠ []) : parts.Separated := by
  simp only [urlsplit, Option.ite_none_right_eq_some, Option.some.injEq] at h
  generalize hclean : (url.dropWhile isControlOrSpace).filter (fun c => !isRemoved c) = clean at h
  obtain ⟨-, rfl⟩ := h
  generalize hrest : (splitScheme clean).2 = rest at hnetloc ⊢
  generalize hpath : (splitNetloc rest).2 = path
  have hkept : ∀ c ∈ rest, isRemoved c = false := by
    intro c hc
    have hmem : c ∈ clean := (splitScheme_suffix clean).subset (hrest ▸ hc)
    rw [← hclean] at hmem
    simpa using (List.mem_filter.mp hmem).2
  obtain ⟨hfree, hhead⟩ := splitNetloc_of_ne_nil hnetloc
  have hpre := Py.partition_isPrefix '#' path
  have hpre' := Py.partition_isPrefix '?' (Py.partition '#' path).1
  refine ⟨hfree, fun c hc => ?_, Py.not_mem_partition _ _, fun hmem => ?_, fun hmem => ?_, fun c hc => ?_⟩
  · obtain ⟨tail, htail⟩ := hpre'.trans hpre
    refine hhead c ?_
    rw [hpath, ← htail, Option.mem_def, List.head?_append, Option.mem_def.mp hc]
    rfl
  · exact Py.not_mem_partition '#' path (hpre'.subset hmem)
  · exact Py.not_mem_partition '#' path ((Py.partition_suffix '?' _).subset hmem)
  · have hin : c ∈ (splitNetloc rest).1 ∨ c ∈ path := by
      simp only [List.mem_append] at hc
      obtain hc | hc | hc | hc := hc
      · exact Or.inl hc
      · exact Or.inr (hpre.subset (hpre'.subset hc))
      · exact Or.inr (hpre.subset ((Py.partition_suffix '?' _).subset hc))
      · exact Or.inr ((Py.partition_suffix '#' _).subset hc)
    exact hkept c (mem_of_mem_splitNetloc (hpath ▸ hin))

/-- A letter is no control character. -/
theorem not_isControlOrSpace_of_isAlpha {c : Char} (h : c.isAlpha = true) : isControlOrSpace c = false := by
  have hlow : 65 ≤ c.toNat := by
    obtain h | h := Py.isAlpha_iff.mp h
    · exact (Py.isUpper_iff.mp h).1
    · exact le_trans (by decide) (Py.isLower_iff.mp h).1
  simp only [isControlOrSpace, decide_eq_false_iff_not]
  omega

/-- What follows a netloc is cut off from it. -/
theorem splitNetloc_append {netloc rest : List Char} (hnetloc : ∀ c ∈ netloc, isDelimiter c = false)
    (hrest : ∀ c ∈ rest.head?, isDelimiter c = true) :
    splitNetloc ('/' :: '/' :: (netloc ++ rest)) = (netloc, rest) := by
  have hall : ∀ c ∈ netloc, (!isDelimiter c) = true := fun c hc => by simp [hnetloc c hc]
  have htake : rest.takeWhile (fun c => !isDelimiter c) = [] := by
    cases rest with
    | nil => rfl
    | cons c rest => simp [hrest c rfl]
  have hdrop : rest.dropWhile (fun c => !isDelimiter c) = rest := by
    cases rest with
    | nil => rfl
    | cons c rest => simp [hrest c rfl]
  simp only [splitNetloc]
  rw [List.takeWhile_append_of_pos hall, List.dropWhile_append_of_pos hall, htake, hdrop, List.append_nil]

/-- What stands behind a separator is found, and so is what stands before it. -/
theorem partition_behind {sep : Char} {head tail : List Char} (h : sep ∉ head) :
    (Py.partition sep (head ++ behind sep tail)).1 = head ∧ (Py.partition sep (head ++ behind sep tail)).2.2 = tail := by
  by_cases htail : tail = []
  · rw [behind, if_pos htail, List.append_nil, Py.partition_of_not_mem sep head h]
    exact ⟨rfl, htail.symm⟩
  · rw [behind, if_neg htail, Py.partition_append sep head tail h]
    exact ⟨rfl, rfl⟩

/-- A scheme holds no character that is removed. -/
theorem not_isRemoved_of_isSchemeChar {c : Char} (h : isSchemeChar c = true) : isRemoved c = false := by
  simp only [isRemoved, Bool.or_eq_false_iff, decide_eq_false_iff_not]
  refine ⟨⟨?_, ?_⟩, ?_⟩ <;> (rintro rfl; exact absurd h (by decide))

/-- What stands before the scheme is stripped, and what follows it is cleaned. -/
theorem clean_append {scheme : List Char} (hscheme : IsScheme scheme) (rest : List Char) :
    ((scheme ++ ':' :: '/' :: '/' :: rest).dropWhile isControlOrSpace).filter (fun c => !isRemoved c) =
      scheme ++ ':' :: '/' :: '/' :: rest.filter fun c => !isRemoved c := by
  obtain ⟨hletter, hchars, -⟩ := hscheme
  have hkept : scheme.filter (fun c => !isRemoved c) = scheme := by
    refine List.filter_eq_self.mpr fun c hc => ?_
    rw [not_isRemoved_of_isSchemeChar (List.all_eq_true.mp hchars c hc)]
    rfl
  have hdrop : (scheme ++ ':' :: '/' :: '/' :: rest).dropWhile isControlOrSpace = scheme ++ ':' :: '/' :: '/' :: rest := by
    obtain _ | ⟨c, tail⟩ := scheme
    · cases hletter
    · exact List.dropWhile_cons_of_neg (by simp [not_isControlOrSpace_of_isAlpha hletter])
  have hfree : isRemoved ':' = false ∧ isRemoved '/' = false := by decide
  rw [hdrop, List.filter_append, hkept]
  simp [hfree]

/-- A scheme is split off. -/
theorem splitScheme_append {scheme : List Char} (hscheme : IsScheme scheme) (rest : List Char) :
    splitScheme (scheme ++ ':' :: rest) = (scheme, rest) := by
  obtain ⟨hletter, hchars, hlower⟩ := hscheme
  have hcolon : ':' ∉ scheme := fun hmem => absurd (List.all_eq_true.mp hchars ':' hmem) (by decide)
  rw [splitScheme, Py.partition_append ':' scheme rest hcolon]
  simp only [hletter, hchars, Bool.and_self, if_true, hlower]

/-- What stands behind the netloc of a text, cleaned. -/
def behindNetloc (s : List Char) : List Char :=
  (s.filter fun c => !isRemoved c).dropWhile fun c => !isDelimiter c

/-- What stands before the query and the fragment. -/
def beforeQuery (s : List Char) : List Char := s.takeWhile fun c => c ≠ '?' && c ≠ '#'

/-- The path of a URL stands between its netloc and its query. -/
theorem path_of_urlsplit {scheme rest : List Char} {parts : SplitResult} (hscheme : IsScheme scheme)
    (hsplit : urlsplit (scheme ++ ':' :: '/' :: '/' :: rest) = some parts) :
    parts.path = beforeQuery (behindNetloc rest) := by
  rw [urlsplit, clean_append hscheme] at hsplit
  simp only [splitScheme_append hscheme, splitNetloc] at hsplit
  split at hsplit
  · rw [← Option.some.inj hsplit]
    simp only [Py.partition_fst, List.takeWhile_takeWhile, beforeQuery, behindNetloc]
    congr 1
    funext c
    simp
  · cases hsplit

/-- The path of a text that begins with a single slash stands before its query. -/
theorem path_of_urlsplit_rooted {c : Char} {rest : List Char} {parts : SplitResult} (hslash : c ≠ '/') (hkept : isRemoved c = false)
    (hsplit : urlsplit ('/' :: c :: rest) = some parts) :
    parts.path = beforeQuery ('/' :: c :: rest.filter fun c => !isRemoved c) := by
  have hfree : isControlOrSpace '/' = false ∧ isRemoved '/' = false := by decide
  have hclean : (('/' :: c :: rest).dropWhile isControlOrSpace).filter (fun c => !isRemoved c) =
      '/' :: c :: rest.filter fun c => !isRemoved c := by
    rw [List.dropWhile_cons_of_neg (by simp [hfree.1])]
    simp [hfree.2, hkept]
  have hscheme : ∀ text, splitScheme ('/' :: text) = ([], '/' :: text) := by
    intro text
    have hletter : Char.isAlpha '/' = false := by decide
    simp only [splitScheme, Py.partition_cons, if_neg (show ¬('/' : Char) = ':' by decide)]
    split
    · rename_i scheme rest heq
      obtain ⟨rfl, -⟩ := Prod.mk.inj heq
      simp [hletter]
    · rfl
  have hnetloc : ∀ text, splitNetloc ('/' :: c :: text) = ([], '/' :: c :: text) := by
    intro text
    unfold splitNetloc
    split
    · rename_i heq
      exact absurd (List.cons.inj (List.cons.inj heq).2).1 hslash
    · rfl
  rw [urlsplit, hclean] at hsplit
  simp only [hscheme, hnetloc] at hsplit
  rw [if_pos (by decide)] at hsplit
  rw [← Option.some.inj hsplit]
  simp only [Py.partition_fst, List.takeWhile_takeWhile, beforeQuery]
  congr 1
  funext c
  simp

/-! ### The query of a text -/

/-- What `urlsplit` leaves of a text. -/
def clean (s : List Char) : List Char := s.filter fun c => !isRemoved c

/-- The netloc of a text that stands behind `://`. -/
def netlocOf (s : List Char) : List Char := (clean s).takeWhile fun c => !isDelimiter c

/-- Its query: what stands between the first question mark and the first number sign. -/
def queryOf (s : List Char) : List Char := (Py.partition '?' (Py.partition '#' s).1).2.2

/-- Behind a number sign there is no query. -/
theorem queryOf_append_of_fragment {s : List Char} (h : '#' ∈ s) (t : List Char) : queryOf (s ++ t) = queryOf s := by
  unfold queryOf
  rw [Py.partition_append_of_mem h]

/-- Behind a question mark everything is query, up to a number sign. -/
theorem queryOf_append_of_query {s : List Char} (hfragment : '#' ∉ s) (h : '?' ∈ s) (t : List Char) :
    queryOf (s ++ t) = queryOf s ++ (Py.partition '#' t).1 := by
  unfold queryOf
  rw [Py.partition_append_of_not_mem hfragment, Py.partition_append_of_mem h, Py.partition_of_not_mem _ _ hfragment]

/-- Without either the query is in what follows. -/
theorem queryOf_append_of_plain {s : List Char} (hfragment : '#' ∉ s) (h : '?' ∉ s) (t : List Char) :
    queryOf (s ++ t) = queryOf t := by
  unfold queryOf
  rw [Py.partition_append_of_not_mem hfragment, Py.partition_append_of_not_mem h]

/-- The query of a query is itself, up to a number sign. -/
theorem queryOf_behind (query : List Char) : queryOf (behind '?' query) = (Py.partition '#' query).1 := by
  unfold behind
  split
  · rename_i hnil
    rw [hnil]
    rfl
  · unfold queryOf
    rw [Py.partition_cons, if_neg (by decide), Py.partition_cons, if_pos rfl]

/-- Cleaning does not move the query. -/
theorem queryOf_clean (s : List Char) : queryOf (clean s) = clean (queryOf s) := by
  unfold queryOf clean
  rw [Py.partition_filter (by decide), Py.partition_filter (by decide)]

/-- A text behind a scheme is taken apart unless the brackets of its netloc raise, and its query is found. -/
theorem urlsplit_map_query {scheme : List Char} (hscheme : IsScheme scheme) (rest : List Char) :
    (urlsplit (scheme ++ ':' :: '/' :: '/' :: rest)).map SplitResult.query =
      if bracketsMatch (netlocOf rest) then some (clean (queryOf rest)) else none := by
  have hnetloc : '#' ∉ netlocOf rest ∧ '?' ∉ netlocOf rest := by
    constructor <;>
    · intro hmem
      have hkept := List.mem_takeWhile_imp hmem
      exact absurd hkept (by decide)
  have hquery : queryOf ((clean rest).dropWhile fun c => !isDelimiter c) = clean (queryOf rest) := by
    rw [← queryOf_clean]
    conv_rhs => rw [← List.takeWhile_append_dropWhile (p := fun c => !isDelimiter c) (l := clean rest)]
    exact (queryOf_append_of_plain hnetloc.1 hnetloc.2 _).symm
  rw [urlsplit, clean_append hscheme]
  simp only [splitScheme_append hscheme, splitNetloc]
  change Option.map _ (if bracketsMatch (netlocOf rest) = true then _ else _) = _
  split
  · exact congrArg some hquery
  · rfl

/-- A slash ends the netloc, if nothing before it does. -/
theorem behindNetloc_append_slash (host rest : List Char) :
    behindNetloc (host ++ '/' :: rest) = behindNetloc host ++ '/' :: rest.filter fun c => !isRemoved c := by
  have hslash : isRemoved '/' = false ∧ isDelimiter '/' = true := by decide
  simp only [behindNetloc, List.filter_append, List.dropWhile_append]
  split
  · rename_i hempty
    rw [List.isEmpty_iff.mp hempty, List.nil_append]
    simp [hslash]
  · simp [hslash]

/-- A URL further up is as separated. -/
theorem SplitResult.Separated.parent {parts : SplitResult} (h : parts.Separated) {path fragment : List Char}
    (hpath : path <+: parts.path) (hfragment : fragment ⊆ parts.fragment) :
    (⟨parts.scheme, parts.netloc, path, [], fragment⟩ : SplitResult).Separated where
  netloc := h.netloc
  path c hc := by
    obtain ⟨rest, hrest⟩ := hpath
    refine h.path c ?_
    rw [← hrest, Option.mem_def, List.head?_append, Option.mem_def.mp hc]
    rfl
  beforeQuery hmem := h.beforeQuery (hpath.subset hmem)
  beforeFragment hmem := h.beforeFragment (hpath.subset hmem)
  query hmem := nomatch hmem
  kept c hc := by
    simp only [List.mem_append] at hc
    obtain hc | hc | hc | hc := hc
    · exact h.kept c (by simp [hc])
    · exact h.kept c (by simp [hpath.subset hc])
    · cases hc
    · exact h.kept c (by simp [hfragment hc])

/-- Putting the parts together adds no character that is removed. -/
theorem isRemoved_of_mem_urlunsplit {parts : SplitResult} (hchars : parts.scheme.all isSchemeChar = true)
    (hkept : ∀ c ∈ parts.netloc ++ (parts.path ++ (parts.query ++ parts.fragment)), isRemoved c = false) {c : Char}
    (h : c ∈ urlunsplit parts) : isRemoved c = false := by
  have hbehind : ∀ {sep : Char} {s : List Char}, c ∈ behind sep s → c = sep ∨ c ∈ s := by
    intro sep s hmem
    unfold behind at hmem
    split at hmem
    · cases hmem
    · exact List.mem_cons.mp hmem
  simp only [urlunsplit, List.mem_append, List.mem_cons] at h
  obtain h | rfl | rfl | rfl | h | h | h | h := h
  · exact not_isRemoved_of_isSchemeChar (List.all_eq_true.mp hchars c h)
  · rfl
  · rfl
  · rfl
  · exact hkept c (by simp [h])
  · exact hkept c (by simp [h])
  · obtain rfl | h := hbehind h
    · rfl
    · exact hkept c (by simp [h])
  · obtain rfl | h := hbehind h
    · rfl
    · exact hkept c (by simp [h])

/-- Separated parts are found again, if nothing raises. -/
theorem eq_of_urlsplit_urlunsplit {parts result : SplitResult} (hscheme : IsScheme parts.scheme) (h : parts.Separated)
    (hsplit : urlsplit (urlunsplit parts) = some result) : result = parts := by
  obtain ⟨scheme, netloc, path, query, fragment⟩ := parts
  obtain ⟨hnetloc, hpath, hbeforeQuery, hbeforeFragment, hquery, hkept⟩ := h
  simp only at hscheme hnetloc hpath hbeforeQuery hbeforeFragment hquery hkept
  have hclean : (netloc ++ (path ++ (behind '?' query ++ behind '#' fragment))).filter (fun c => !isRemoved c) =
      netloc ++ (path ++ (behind '?' query ++ behind '#' fragment)) := by
    refine List.filter_eq_self.mpr fun c hc => ?_
    have hmem : c ∈ urlunsplit ⟨scheme, netloc, path, query, fragment⟩ :=
      List.mem_append_right _ (List.mem_cons_of_mem _ (List.mem_cons_of_mem _ (List.mem_cons_of_mem _ hc)))
    rw [isRemoved_of_mem_urlunsplit hscheme.chars hkept hmem]
    rfl
  have hrest : ∀ c ∈ (path ++ (behind '?' query ++ behind '#' fragment)).head?, isDelimiter c = true := by
    cases path with
    | cons c rest => exact hpath
    | nil =>
      cases query with
      | cons c rest =>
        intro c hc
        cases hc
        rfl
      | nil =>
        cases fragment with
        | cons c rest =>
          intro c hc
          cases hc
          rfl
        | nil => exact fun c hc => nomatch hc
  have hfragment : '#' ∉ path ++ behind '?' query := by
    rw [List.mem_append, behind]
    split
    · simp [hbeforeFragment]
    · simp [hbeforeFragment, hquery]
  obtain ⟨hpathquery, htail⟩ := @partition_behind _ _ fragment hfragment
  obtain ⟨hhead, hmiddle⟩ := @partition_behind _ _ query hbeforeQuery
  rw [urlsplit, urlunsplit, clean_append hscheme, hclean, splitScheme_append hscheme] at hsplit
  simp only at hsplit
  rw [splitNetloc_append hnetloc hrest, ← List.append_assoc] at hsplit
  simp only [hpathquery, htail, hhead, hmiddle] at hsplit
  split at hsplit
  · exact (Option.some.inj hsplit).symm
  · cases hsplit

end Url
