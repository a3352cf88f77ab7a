import FxaLite.Lib.Budget
import FxaLite.SyncStorage.IdLists
import FxaLite.SyncStorage.Names

/-!
# What becomes of every record of a POST

The loop of `parse_bso_bodies` passes one verdict on every object of a body that it does not reject
as a whole. A record that cannot be read is refused with a reason. The records that can be read all
count towards the bytes of the request, so those that fit are the longest prefix of them that the
limit covers; the first hundred of these are valid and the others deferred.
-/

namespace FxaLite.SyncStorage

open Fallible

/-! ### Submissions -/

/-- An object of a body, with the id that it names. -/
structure Submission where
  id : String
  fields : List (String × Json)
  named : field fields "id" = .str id

/-- The value that is an object. -/
def Submission.item (s : Submission) : Json := .obj s.fields

/-- The expected shape of a body: every value an object that names an id, and no id twice. -/
def Submitted (items : List Json) (subs : List Submission) : Prop :=
  items = subs.map Submission.item ∧ (subs.map Submission.id).Nodup

/-- `_bso_from_object`, for a record of a POST. -/
def Submission.read (s : Submission) : Except String PostedBso := bsoFromObject s.fields true

/-- The records that are acceptable in themselves. -/
def acceptable (subs : List Submission) : List PostedBso := subs.filterMap fun s => s.read.toOption

/-- Those that are acceptable by size as well. -/
def fitting (subs : List Submission) : List PostedBso :=
  Budget.within PostedBso.payloadSize limits.maxPostBytes 0 (acceptable subs)

/-- The bytes of some records. -/
def payloadTotal (bsos : List PostedBso) : ℕ := Budget.total PostedBso.payloadSize bsos

/-! ### The loop -/

/-- What the loop makes of an object. -/
inductive Verdict where
  | accepted (bso : PostedBso)
  | refused (id reason : String)
  | tooMuch (bso : PostedBso)
  deriving DecidableEq, Repr

/-- The verdict in `valid`. -/
def Verdict.valid? : Verdict → Option PostedBso
  | .accepted bso => some bso
  | _ => none

/-- The verdict in `invalid`. -/
def Verdict.invalid? : Verdict → Option (String × String)
  | .accepted _ => none
  | .refused id reason => some (id, reason)
  | .tooMuch bso => some (bso.id, "retry bytes")

/-- The verdict on an object, when the records before it have so many bytes. -/
def Submission.verdict (s : Submission) (counted : ℕ) : Verdict :=
  match s.read with
  | .error reason => .refused s.id reason
  | .ok bso => if limits.maxPostBytes < counted + bso.payloadSize then .tooMuch bso else .accepted bso

/-- The bytes counted with an object. -/
def Submission.counts (s : Submission) (counted : ℕ) : ℕ := counted + payloadTotal (acceptable [s])

/-- The verdicts on some objects. -/
def judge (counted : ℕ) : List Submission → List Verdict
  | [] => []
  | s :: rest => s.verdict counted :: judge (s.counts counted) rest

/-- A reading with one more verdict. -/
def Reading.judged (reading : Reading) (s : Submission) : Reading where
  seen := reading.seen ++ [s.id]
  totalPayload := s.counts reading.totalPayload
  result :=
    { valid := reading.result.valid ++ (s.verdict reading.totalPayload).valid?.toList
      invalid := reading.result.invalid ++ (s.verdict reading.totalPayload).invalid?.toList }

section Loop

variable {reading reading' : Reading} {s : Submission} {bso : PostedBso}

/-- A record has the id of its object. -/
theorem Submission.id_of_read (h : s.read = .ok bso) : bso.id = s.id := by
  simp only [read, bsoFromObject] at h
  split at h
  · cases h
  · simp only [bind_eq_ok, Except.ok.injEq] at h
    obtain ⟨id, hid, _, -, _, -, _, -, rfl⟩ := h
    simp only [idField, s.named] at hid
    split at hid
    · exact (Except.ok.inj hid).symm
    · cases hid

/-- An object that cannot be read is passed over. -/
theorem acceptable_cons_error {rest : List Submission} {reason : String} (hread : s.read = .error reason) :
    acceptable (s :: rest) = acceptable rest := List.filterMap_cons_none (by rw [hread]; rfl)

/-- One that can be read is acceptable. -/
theorem acceptable_cons_ok {rest : List Submission} (hread : s.read = .ok bso) :
    acceptable (s :: rest) = bso :: acceptable rest := List.filterMap_cons_some (by rw [hread]; rfl)

/-- An object that cannot be read has no bytes that count. -/
theorem Submission.counts_error {counted : ℕ} {reason : String} (hread : s.read = .error reason) : s.counts counted = counted := by
  rw [counts, acceptable_cons_error hread]
  rfl

/-- The bytes of one that can be read count. -/
theorem Submission.counts_ok {counted : ℕ} (hread : s.read = .ok bso) : s.counts counted = counted + bso.payloadSize := by
  rw [counts, acceptable_cons_ok hread]
  simp [payloadTotal, acceptable]

/-- The limits on one record and on a request are the same, so what is too large by itself is too
large with what was counted before. -/
theorem overfull_iff (size counted : ℕ) :
    limits.maxRecordPayloadBytes < size ∨ limits.maxPostBytes < counted + size ↔ limits.maxPostBytes < counted + size := by
  have hsame : limits.maxRecordPayloadBytes = limits.maxPostBytes := rfl
  omega

/-- One turn of the loop, for an object that names a new id. -/
theorem Reading.admits_item (hnew : s.id ∉ reading.seen) : reading.admit s.item = .ok (reading.judged s) := by
  have hseen : reading.seen.contains s.id = false := by simpa using hnew
  simp only [Submission.item, Reading.admit, s.named, hseen, Bool.false_eq_true, if_false]
  cases hread : s.read with
  | error reason =>
    have hread' : bsoFromObject s.fields true = .error reason := hread
    simp only [hread', judged, Submission.verdict, hread, Submission.counts_error hread, Verdict.valid?, Verdict.invalid?,
      Option.toList, List.append_nil]
  | ok bso =>
    have hread' : bsoFromObject s.fields true = .ok bso := hread
    simp only [hread', overfull_iff, judged, Submission.verdict, hread, Submission.counts_ok hread]
    split <;> simp [Verdict.valid?, Verdict.invalid?]

/-- The loop over a body of the expected shape. -/
theorem foldlM_admits {subs : List Submission} (hnew : ∀ s ∈ subs, s.id ∉ reading.seen)
    (hnodup : (subs.map Submission.id).Nodup) :
    (subs.map Submission.item).foldlM Reading.admit reading =
      .ok { seen := reading.seen ++ subs.map Submission.id
            totalPayload := reading.totalPayload + payloadTotal (acceptable subs)
            result :=
              { valid := reading.result.valid ++ (judge reading.totalPayload subs).filterMap Verdict.valid?
                invalid := reading.result.invalid ++ (judge reading.totalPayload subs).filterMap Verdict.invalid? } } := by
  induction subs generalizing reading with
  | nil => simp [judge, acceptable, payloadTotal, pure, Except.pure]
  | cons s rest ih =>
    obtain ⟨hs, hrest⟩ := List.nodup_cons.mp hnodup
    have hnew' : ∀ t ∈ rest, t.id ∉ (reading.judged s).seen := by
      intro t ht hmem
      obtain hold | hsame := List.mem_append.mp hmem
      · exact hnew t (List.mem_cons_of_mem _ ht) hold
      · exact hs (List.mem_singleton.mp hsame ▸ List.mem_map_of_mem ht)
    have hacceptable : acceptable (s :: rest) = acceptable [s] ++ acceptable rest := by
      simp only [acceptable, ← List.filterMap_append, List.singleton_append]
    rw [List.map_cons, List.foldlM_cons, Reading.admits_item (hnew s List.mem_cons_self), ok_bind, ih hnew' hrest]
    simp only [Reading.judged, Submission.counts, judge, hacceptable, payloadTotal, Budget.total_append, List.append_assoc,
      List.map_cons, List.singleton_append, Nat.add_assoc]
    cases hvalid : (s.verdict reading.totalPayload).valid? <;>
      cases hinvalid : (s.verdict reading.totalPayload).invalid? <;>
        simp [hvalid, hinvalid]

/-- Once the bytes are over the limit, nothing more is accepted. -/
theorem judge_of_lt {counted : ℕ} {subs : List Submission} (hover : limits.maxPostBytes < counted) :
    (judge counted subs).filterMap Verdict.valid? = [] := by
  induction subs generalizing counted with
  | nil => rfl
  | cons s rest ih =>
    have hrest := @ih (s.counts counted) (hover.trans_le (Nat.le_add_right _ _))
    have hrefused : (s.verdict counted).valid? = none := by
      unfold Submission.verdict
      split
      · rfl
      · rw [if_pos (hover.trans_le (Nat.le_add_right _ _))]
        rfl
    rw [judge, List.filterMap_cons_none hrefused, hrest]

/-- What is accepted is what the limit covers. -/
theorem judge_valid (counted : ℕ) (subs : List Submission) :
    (judge counted subs).filterMap Verdict.valid? =
      Budget.within PostedBso.payloadSize limits.maxPostBytes counted (acceptable subs) := by
  induction subs generalizing counted with
  | nil => rfl
  | cons s rest ih =>
    cases hread : s.read with
    | error reason =>
      have hrefused : (s.verdict counted).valid? = none := by rw [Submission.verdict, hread]; rfl
      rw [judge, List.filterMap_cons_none hrefused, Submission.counts_error hread, ih, acceptable_cons_error hread]
    | ok bso =>
      rw [judge, acceptable_cons_ok hread, Budget.within, Submission.counts_ok hread]
      split
      · rename_i hover
        have hrefused : (s.verdict counted).valid? = none := by rw [Submission.verdict, hread]; simp [hover, Verdict.valid?]
        rw [List.filterMap_cons_none hrefused, judge_of_lt hover]
      · rename_i hfits
        have haccepted : (s.verdict counted).valid? = some bso := by
          rw [Submission.verdict, hread]
          simp [hfits, Verdict.valid?]
        rw [List.filterMap_cons_some haccepted, ih]

/-- The id that a verdict is on. -/
def Verdict.id : Verdict → String
  | .accepted bso => bso.id
  | .refused id _ => id
  | .tooMuch bso => bso.id

end Loop

/-! ### Whole bodies -/

/-- The values of a POST body: one a line, blank lines aside, or those of a list, where nothing at all
stands for an empty one. -/
def BodyItems (codec : Codec) (media text : String) (items : List Json) : Prop :=
  if media = "application/newlines" then
    List.Forall₂ (fun line item => codec.loads (String.ofList line) = .ok item)
      ((Py.splitLines text.toList).filter fun line => !(Py.strip line).isEmpty) items
  else codec.loads (if text = "" then "[]" else text) = .ok (.arr items)

/-- They are what is read. -/
theorem rawItems_eq_ok {codec : Codec} {media text : String} {items : List Json} :
    rawItems codec media text = .ok items ↔ BodyItems codec media text items := by
  unfold rawItems BodyItems
  split
  · rw [mapM_eq_ok]
    constructor
    · refine List.Forall₂.imp fun line item hline => ?_
      split at hline
      · cases hline
        assumption
      · cases hline
    · refine List.Forall₂.imp fun line item hline => ?_
      rw [hline]
  · split
    · rename_i found hfound
      simp [hfound]
    · rename_i hnot hfound
      rw [hfound]
      exact ⟨nofun, fun h => absurd (Except.ok.inj h) (hnot items)⟩
    · rename_i failure hfailure
      rw [hfailure]
      exact ⟨nofun, nofun⟩

/-- The text of a POST body, or a line of it that every line before lets be reached, is nested deeper than
`json.loads` goes. -/
def TooDeep (codec : Codec) (media text : String) : Prop :=
  if media = "application/newlines" then
    ∃ before line after, ((Py.splitLines text.toList).filter fun line => !(Py.strip line).isEmpty) = before ++ line :: after ∧
      (∀ earlier ∈ before, ∃ item, codec.loads (String.ofList earlier) = .ok item) ∧
      codec.loads (String.ofList line) = .error .recursionError
  else codec.loads (if text = "" then "[]" else text) = .error .recursionError

/-- What a body of the expected shape is parsed to. -/
def parsedBody (subs : List Submission) : PostedBsos where
  valid := (fitting subs).take limits.maxPostRecords
  invalid := (judge 0 subs).filterMap Verdict.invalid? ++
    ((fitting subs).drop limits.maxPostRecords).reverse.map fun dropped => (dropped.id, "retry bso")

section Bodies

variable {codec : Codec} {body : Bytes} {contentType : Option String} {media : String} {items : List Json}
  {subs : List Submission} {bsos : PostedBsos}

/-- It is parsed to that. -/
theorem parseBsoBodies_of_submitted (hmedia : checkContentType contentType = .ok media)
    (hitems : BodyItems codec media (codec.decode body) items) (hsubs : Submitted items subs) :
    parseBsoBodies codec body contentType = .ok (parsedBody subs) := by
  obtain ⟨rfl, hnodup⟩ := hsubs
  have hloop := @foldlM_admits {} subs (fun _ _ => List.not_mem_nil) hnodup
  rw [parseBsoBodies, hmedia, ok_bind, rawItems_eq_ok.mpr hitems, ok_bind, hloop, ok_bind, judge_valid]
  rfl

/-- The values of a body are determined by it. -/
theorem BodyItems.unique {text : String} {items items' : List Json} (h : BodyItems codec media text items)
    (h' : BodyItems codec media text items') : items = items' :=
  Except.ok.inj ((rawItems_eq_ok.mpr h).symm.trans (rawItems_eq_ok.mpr h'))

/-- And so are its objects. -/
theorem Submitted.unique {subs' : List Submission} (h : Submitted items subs) (h' : Submitted items subs') : subs = subs' := by
  have hinjective : Function.Injective Submission.item := by
    rintro ⟨id, fields, hid⟩ ⟨id', fields', hid'⟩ heq
    cases heq
    cases hid.symm.trans hid'
    rfl
  exact List.map_injective_iff.mpr hinjective (h.1.symm.trans h'.1)

end Bodies

/-! ### What is valid -/

/-- A text, or null. -/
def Json.ofText : Option String → Json
  | none => .null
  | some text => .str text

/-- A number, or null. -/
def Json.ofInt : Option ℤ → Json
  | none => .null
  | some n => .int n

/-- The reasons for which a record is refused. -/
theorem Submission.reason_of_read {s : Submission} {reason : String} (h : s.read = .error reason) :
    "unknown field ".toList <+: reason.toList ∨
      reason ∈ ["invalid bso: id", "invalid bso: payload", "invalid bso: sortindex", "invalid bso: ttl"] := by
  simp only [read, bsoFromObject] at h
  split at h
  · cases h
    exact Or.inl (by rw [String.toList_append]; exact List.prefix_append _ _)
  · refine Or.inr ?_
    simp only [bind_eq_error] at h
    obtain hid | ⟨id, -, hpayload | ⟨payload, -, hsortindex | ⟨sortindex, -, httl | ⟨ttl, -, hok⟩⟩⟩⟩ := h
    · unfold idField at hid
      split at hid
      · split at hid <;> cases hid
        simp
      · cases hid
        simp
      · cases hid
        simp
    · unfold payloadField at hpayload
      split at hpayload <;> cases hpayload
      simp
    · unfold sortindexField at hsortindex
      split at hsortindex
      · cases hsortindex
      · split at hsortindex <;> cases hsortindex
        simp
      · cases hsortindex
        simp
    · unfold ttlField at httl
      split at httl
      · cases httl
      · split at httl <;> cases httl
        simp
      · cases httl
        simp
    · cases hok

/-- None of them defers it. -/
theorem Submission.reason_ne {s : Submission} {reason : String} (h : s.read = .error reason) :
    reason ≠ "retry bytes" ∧ reason ≠ "retry bso" := by
  have hother : ∀ text : String, ¬"unknown field ".toList <+: text.toList →
      text ∉ ["invalid bso: id", "invalid bso: payload", "invalid bso: sortindex", "invalid bso: ttl"] → reason ≠ text := by
    intro text hunknown hinvalid heq
    obtain hbeginning | hmember := Submission.reason_of_read h
    · exact hunknown (heq ▸ hbeginning)
    · exact hinvalid (heq ▸ hmember)
  exact ⟨hother _ (by decide) (by decide), hother _ (by decide) (by decide)⟩

/-! ### The whole claim on a body -/

/-- What is accepted is read of an object. -/
theorem exists_of_mem_fitting {subs : List Submission} {bso : PostedBso} (h : bso ∈ fitting subs) :
    ∃ s ∈ subs, s.read = .ok bso := by
  obtain ⟨s, hs, hread⟩ := List.mem_filterMap.mp (Budget.within_isPrefix.subset h)
  refine ⟨s, hs, ?_⟩
  cases hresult : s.read with
  | error reason =>
    rw [hresult] at hread
    cases hread
  | ok found =>
    rw [hresult] at hread
    cases hread
    rfl

/-- What is accepted comes in the order of the objects. -/
theorem acceptable_sublist (subs : List Submission) :
    ((acceptable subs).map PostedBso.id).Sublist (subs.map Submission.id) := by
  induction subs with
  | nil => exact List.Sublist.slnil
  | cons s rest ih =>
    cases hread : s.read with
    | error reason =>
      rw [acceptable_cons_error hread]
      exact ih.cons _
    | ok bso =>
      rw [acceptable_cons_ok hread, List.map_cons, List.map_cons, Submission.id_of_read hread]
      exact ih.cons_cons _

/-- A verdict that defers a record says that the bytes are too many. -/
theorem reason_of_judge {counted : ℕ} {subs : List Submission} {id reason : String}
    (h : (id, reason) ∈ (judge counted subs).filterMap Verdict.invalid?) : reason ≠ "retry bso" := by
  induction subs generalizing counted with
  | nil => cases h
  | cons s rest ih =>
    obtain ⟨verdict, hverdict, hinvalid⟩ := List.mem_filterMap.mp h
    obtain rfl | hrest := List.mem_cons.mp hverdict
    · unfold Submission.verdict at hinvalid
      split at hinvalid
      · rename_i refused hread
        cases hinvalid
        exact (Submission.reason_ne hread).2
      · split at hinvalid
        · cases hinvalid
          decide
        · cases hinvalid
    · exact ih (List.mem_filterMap.mpr ⟨verdict, hrest, hinvalid⟩)

/-- What is accepted has no more bytes than a request may have. -/
theorem payloadTotal_fitting_le (subs : List Submission) : payloadTotal (fitting subs) ≤ limits.maxPostBytes := by
  have hfits : 0 + payloadTotal (fitting subs) ≤ limits.maxPostBytes := Budget.counted_add_total_within_le (Nat.zero_le _)
  rwa [Nat.zero_add] at hfits

/-- Neither has a part of it. -/
theorem payloadTotal_le_of_sublist {bsos others : List PostedBso} (h : bsos.Sublist others) :
    payloadTotal bsos ≤ payloadTotal others := Budget.total_le_of_sublist h

/-- A record of it has no more bytes than a record may have. -/
theorem payloadSize_le_of_mem_fitting {subs : List Submission} {bso : PostedBso} (h : bso ∈ fitting subs) :
    bso.payloadSize ≤ limits.maxRecordPayloadBytes := by
  have hpart := payloadTotal_le_of_sublist (List.singleton_sublist.mpr h)
  have hone : payloadTotal [bso] = bso.payloadSize := by simp [payloadTotal]
  exact hone ▸ hpart.trans (payloadTotal_fitting_le subs)

end FxaLite.SyncStorage
