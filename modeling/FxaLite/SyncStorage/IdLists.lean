import FxaLite.SyncStorage.Wire
import Mathlib.Data.List.DropRight
import Mathlib.Data.List.TakeWhile

/-!
# Naming records in `?ids=`

A record id is any printable ASCII, and a list of ids is cut at its commas and stripped of the
spaces around each part. There is no escape, so an id with a comma in it, or with a space (or the
one line feed that the grammar lets through) at an end, can be stored but not named.
-/

namespace FxaLite.SyncStorage

/-- An id that survives the list syntax. -/
def Listable (id : String) : Prop := ',' ∉ id.toList ∧ Py.strip id.toList = id.toList

instance (id : String) : Decidable (Listable id) := inferInstanceAs (Decidable (_ ∧ _))

/-- An id that some POST body has a record accepted under. -/
def PostAccepts (codec : Codec) (id : String) : Prop :=
  ∃ body contentType bsos, parseBsoBodies codec body contentType = .ok bsos ∧ ∃ bso ∈ bsos.valid, bso.id = id

/-- A query string of ids alone. -/
def idsQuery (value : String) : Params := Params.of [("ids", value)]

open Fallible

/-- What is stripped has no space left to strip. -/
theorem strip_strip (s : List Char) : Py.strip (Py.strip s) = Py.strip s := by
  have hbeginning : Py.strip s <+: s.dropWhile Py.isSpace := by
    have hsuffix := List.dropWhile_suffix (l := (s.dropWhile Py.isSpace).reverse) Py.isSpace
    have hreverse := List.reverse_prefix.mpr hsuffix
    rwa [List.reverse_reverse] at hreverse
  have hfirst : (Py.strip s).dropWhile Py.isSpace = Py.strip s := by
    refine List.dropWhile_eq_self_iff.mpr fun hpos => ?_
    have hpos' : 0 < (s.dropWhile Py.isSpace).length := hpos.trans_le hbeginning.length_le
    rw [hbeginning.getElem hpos]
    exact List.dropWhile_get_zero_not Py.isSpace s hpos'
  have hlast : ((Py.strip s).reverse.dropWhile Py.isSpace).reverse = Py.strip s := by
    rw [Py.strip, Py.stripWhere, List.reverse_reverse, List.dropWhile_idempotent]
  rw [Py.strip.eq_def (Py.strip s), Py.stripWhere, hfirst, hlast]

/-- What is stripped has no character that was not there. -/
theorem mem_of_mem_strip {s : List Char} {c : Char} (h : c ∈ Py.strip s) : c ∈ s :=
  (List.dropWhile_suffix _).subset (List.mem_reverse.mp ((List.dropWhile_suffix _).subset (List.mem_reverse.mp h)))

/-- An id that is read from a list survives it. -/
theorem listable_of_idsParam {params : Params} {ids : List String} (h : idsParam params = .ok ids) : ∀ id ∈ ids, Listable id := by
  intro id hid
  unfold idsParam at h
  dsimp only at h
  split at h
  · cases h
  split at h
  · cases h
  cases h
  obtain ⟨text, htext, rfl⟩ := List.mem_map.mp hid
  obtain ⟨part, hpart, rfl⟩ := List.mem_map.mp (List.mem_filter.mp htext).1
  rw [Listable, String.toList_ofList]
  exact ⟨fun hcomma => Py.not_mem_of_mem_splitOn hpart (mem_of_mem_strip hcomma), strip_strip part⟩

/-- So does an id of a whole query. -/
theorem listable_of_parseQuery {float : String → Option ℚ} {params : Params} {query : BsoQuery}
    (h : parseQuery float params = .ok query) : ∀ id ∈ query.ids, Listable id := by
  unfold parseQuery at h
  simp only [bind_eq_ok] at h
  obtain ⟨newer, -, older, -, sort, -, limit, -, offset, -, ids, hread, h⟩ := h
  split at h
  · cases h
    exact listable_of_idsParam hread
  · cases h

/-- An accepted id is not empty. -/
theorem toList_ne_nil_of_bsoIdRe {id : String} (h : bsoIdRe id = true) : id.toList ≠ [] := by
  intro hnil
  rw [bsoIdRe, hnil] at h
  exact absurd h (by decide)

/-- The ids that survive the syntax are read from their list. -/
theorem idsParam_idsQuery {ids : List String} (hlength : ids.length ≤ maxIds) (hids : ∀ id ∈ ids, bsoIdRe id = true)
    (hlistable : ∀ id ∈ ids, Listable id) :
    idsParam (idsQuery (String.ofList ([','].intercalate (ids.map String.toList)))) = .ok ids := by
  have hparts : (((([','].intercalate (ids.map String.toList)).splitOn ',').map Py.strip).filter (· ≠ [])).map String.ofList = ids := by
    cases ids with
    | nil => rfl
    | cons first rest =>
      have hcommas : ∀ text ∈ (first :: rest).map String.toList, ',' ∉ text := by
        intro text htext
        obtain ⟨id, hid, rfl⟩ := List.mem_map.mp htext
        exact (hlistable id hid).1
      have hsplit := List.splitOn_intercalate ',' hcommas (by simp)
      have hstrip : ((first :: rest).map String.toList).map Py.strip = (first :: rest).map String.toList := by
        rw [List.map_map]
        exact List.map_congr_left fun id hid => (hlistable id hid).2
      have hfilter : ((first :: rest).map String.toList).filter (· ≠ []) = (first :: rest).map String.toList := by
        refine List.filter_eq_self.mpr fun text htext => ?_
        obtain ⟨id, hid, rfl⟩ := List.mem_map.mp htext
        exact decide_eq_true (toList_ne_nil_of_bsoIdRe (hids id hid))
      rw [hsplit, hstrip, hfilter, List.map_map]
      exact (List.map_congr_left fun id _ => String.ofList_toList).trans (List.map_id _)
  have hvalue : (idsQuery (String.ofList ([','].intercalate (ids.map String.toList))) "ids").getD "" =
      String.ofList ([','].intercalate (ids.map String.toList)) := rfl
  have hall : (ids.any fun id => !bsoIdRe id) = false := by simpa using hids
  rw [idsParam, hvalue, String.toList_ofList]
  simp only [hparts, hall]
  rw [if_neg (not_lt.mpr hlength), if_neg Bool.false_ne_true]

/-- A query of ids alone asks for these ids and nothing else. -/
theorem parseQuery_idsQuery (float : String → Option ℚ) {value : String} {ids : List String}
    (hread : idsParam (idsQuery value) = .ok ids) :
    parseQuery float (idsQuery value) = .ok ⟨none, none, none, none, none, ids⟩ := by
  have hnewer : timestampParam float (idsQuery value) "newer" = .ok none := rfl
  have holder : timestampParam float (idsQuery value) "older" = .ok none := rfl
  have hsort : sortParam (idsQuery value) = .ok none := rfl
  have hlimit : limitParam (idsQuery value) = .ok none := rfl
  have hoffset : offsetParam (idsQuery value) = .ok none := rfl
  rw [parseQuery, hnewer, holder, hsort, hlimit, hoffset, hread]
  rfl

/-- For up to a hundred ids that POST bodies accept, some `ids` parameter is read as exactly these ids, in
this order, when and only when none of them has a comma, or a space or a line feed at an end. -/
theorem listed_iff (float : String → Option ℚ) (codec : Codec) (ids : List String) (hlength : ids.length ≤ 100)
    (hids : ∀ id ∈ ids, PostAccepts codec id) :
    (∃ value query, parseQuery float (idsQuery value) = .ok query ∧ query.ids = ids) ↔ ∀ id ∈ ids, Listable id := by
  have haccepted : ∀ id ∈ ids, bsoIdRe id = true := by
    intro id hid
    obtain ⟨body, contentType, bsos, hparse, bso, hbso, rfl⟩ := hids id hid
    exact parseBsoBodies_valid hparse bso hbso
  constructor
  · rintro ⟨value, query, hquery, rfl⟩
    exact listable_of_parseQuery hquery
  · intro hlistable
    have hread := idsParam_idsQuery hlength haccepted hlistable
    exact ⟨_, _, parseQuery_idsQuery float hread, rfl⟩

/-- The text of a POST body of one record that has nothing but an id, which is written as it is quoted. -/
def oneRecordText (quoted : String) : String := "[\x7b\"id\":\"" ++ quoted ++ "\"\x7d]"

/-- A codec that knows it. -/
def oneRecord (quoted id : String) : Codec := .knowing [(oneRecordText quoted, .arr [.obj [("id", .str id)]])]

/-- Its bytes. -/
def oneRecordBody (quoted : String) : Bytes := (oneRecordText quoted).toUTF8.toList

/-- The id "a b", twice in one list. -/
theorem listed_iff_twice :
    ∃ value query, parseQuery (fun _ => none) (idsQuery value) = .ok query ∧ query.ids = ["a b", "a b"] := by
  have haccepts : PostAccepts (oneRecord "a b" "a b") "a b" :=
    ⟨oneRecordBody "a b", none, ⟨[{ id := "a b" }], []⟩, by decide +kernel, { id := "a b" }, by simp, rfl⟩
  refine (listed_iff (fun _ => none) (oneRecord "a b" "a b") ["a b", "a b"] (by decide) fun id hid => ?_).mpr (by decide)
  obtain rfl : id = "a b" := by simpa using hid
  exact haccepts

/-- A record named "a,b" is accepted, and no `ids` parameter names it. -/
theorem comma_not_listed :
    PostAccepts (oneRecord "a,b" "a,b") "a,b" ∧
      ¬∃ value query, parseQuery (fun _ => none) (idsQuery value) = .ok query ∧ query.ids = ["a,b"] := by
  constructor
  · exact ⟨oneRecordBody "a,b", none, ⟨[{ id := "a,b" }], []⟩, by decide +kernel, { id := "a,b" }, by simp, rfl⟩
  · rintro ⟨value, query, hquery, hids⟩
    have hlistable := listable_of_parseQuery hquery "a,b" (by rw [hids]; simp)
    exact absurd hlistable (by decide)

end FxaLite.SyncStorage
