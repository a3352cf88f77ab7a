import FxaLite.SyncStorage.Admission

/-!
# Records that are deferred

A record that is reported as `retry bytes` or `retry bso` is to be sent again alone. What counts
towards the bytes of a request is every record that can be read, also one that was itself deferred,
and what is too large for any request is deferred like what was only too much for this one.
-/

namespace FxaLite.SyncStorage

/-- A record that is sent alone is valid, however it is written. -/
def Submission.ValidAlone (s : Submission) : Prop :=
  ∀ codec body contentType media, checkContentType contentType = .ok media →
    BodyItems codec media (codec.decode body) [s.item] →
    ∃ bsos, parseBsoBodies codec body contentType = .ok bsos ∧ ∃ bso ∈ bsos.valid, bso.id = s.id

/-- What is deferred of a body is valid when it is sent alone, and is deferred for its bytes only where the
records accepted before it leave no room. -/
def DeferredRightly (codec : Codec) (body : Bytes) (contentType : Option String) : Prop :=
  ∀ bsos media items subs, parseBsoBodies codec body contentType = .ok bsos → checkContentType contentType = .ok media →
    BodyItems codec media (codec.decode body) items → Submitted items subs →
    ∀ before s after, subs = before ++ s :: after →
      ((s.id, "retry bytes") ∈ bsos.invalid ∨ (s.id, "retry bso") ∈ bsos.invalid → s.ValidAlone) ∧
      ((s.id, "retry bytes") ∈ bsos.invalid → ∃ bso, s.read = .ok bso ∧
        limits.maxPostBytes < payloadTotal (bsos.valid.filter fun b => b.id ∈ before.map Submission.id) + bso.payloadSize)

/-- The records that are acceptable in themselves, from the first one on that is too much for the request. -/
def overfull (subs : List Submission) : List PostedBso := (acceptable subs).drop (fitting subs).length

variable {subs before after : List Submission} {s : Submission} {bso : PostedBso}

/-- What is acceptable before an object, the object and what comes after it. -/
theorem acceptable_append_cons (hread : s.read = .ok bso) :
    acceptable (before ++ s :: after) = acceptable before ++ bso :: acceptable after := by
  simp [acceptable, hread, Except.toOption]

/-- What is acceptable is read of an object. -/
theorem exists_of_mem_acceptable (h : bso ∈ acceptable subs) : ∃ s ∈ subs, s.read = .ok bso := by
  obtain ⟨s, hs, hread⟩ := List.mem_filterMap.mp h
  refine ⟨s, hs, ?_⟩
  cases hresult : s.read with
  | error reason => simp [hresult, Except.toOption] at hread
  | ok found => simpa [hresult, Except.toOption] using hread

/-- Once the bytes are over the limit, everything that can be read is deferred. -/
theorem judge_retryBytes_of_lt {counted : ℕ} (hover : limits.maxPostBytes < counted) :
    ((judge counted subs).filterMap Verdict.invalid?).filter (fun entry => entry.2 = "retry bytes") =
      (acceptable subs).map fun bso => (bso.id, "retry bytes") := by
  induction subs generalizing counted with
  | nil => rfl
  | cons s rest ih =>
    have hrest := @ih (s.counts counted) (hover.trans_le (Nat.le_add_right _ _))
    cases hread : s.read with
    | error reason =>
      have hrefused : (s.verdict counted).invalid? = some (s.id, reason) := by rw [Submission.verdict, hread]; rfl
      rw [judge, List.filterMap_cons_some hrefused, List.filter_cons_of_neg, hrest, acceptable_cons_error hread]
      simpa using (Submission.reason_ne hread).1
    | ok bso =>
      have hdeferred : (s.verdict counted).invalid? = some (bso.id, "retry bytes") := by
        have hstill : limits.maxPostBytes < counted + bso.payloadSize := hover.trans_le (Nat.le_add_right _ _)
        simp [Submission.verdict, hread, hstill, Verdict.invalid?]
      rw [judge, List.filterMap_cons_some hdeferred, List.filter_cons_of_pos (by simp), hrest, acceptable_cons_ok hread,
        List.map_cons]

/-- What is deferred for its bytes is everything that can be read, from the first that does not fit on. -/
theorem judge_retryBytes (counted : ℕ) (subs : List Submission) :
    ((judge counted subs).filterMap Verdict.invalid?).filter (fun entry => entry.2 = "retry bytes") =
      ((acceptable subs).drop
        (Budget.within PostedBso.payloadSize limits.maxPostBytes counted (acceptable subs)).length).map
          fun bso => (bso.id, "retry bytes") := by
  induction subs generalizing counted with
  | nil => rfl
  | cons s rest ih =>
    cases hread : s.read with
    | error reason =>
      have hrefused : (s.verdict counted).invalid? = some (s.id, reason) := by rw [Submission.verdict, hread]; rfl
      rw [judge, List.filterMap_cons_some hrefused, List.filter_cons_of_neg, Submission.counts_error hread, ih,
        acceptable_cons_error hread]
      simpa using (Submission.reason_ne hread).1
    | ok bso =>
      rw [judge, acceptable_cons_ok hread, Budget.within, Submission.counts_ok hread]
      split
      · rename_i hover
        have hdeferred : (s.verdict counted).invalid? = some (bso.id, "retry bytes") := by
          simp [Submission.verdict, hread, hover, Verdict.invalid?]
        rw [List.filterMap_cons_some hdeferred, List.filter_cons_of_pos (by simp), judge_retryBytes_of_lt hover]
        rfl
      · rename_i hfits
        have haccepted : (s.verdict counted).invalid? = none := by
          simp [Submission.verdict, hread, hfits, Verdict.invalid?]
        rw [List.filterMap_cons_none haccepted, ih]
        rfl

/-- Such records are reported so, and no others. -/
theorem mem_invalid_retryBytes {id : String} :
    (id, "retry bytes") ∈ (parsedBody subs).invalid ↔ ∃ bso ∈ overfull subs, bso.id = id := by
  have hjudged : (id, "retry bytes") ∈ (judge 0 subs).filterMap Verdict.invalid? ↔ ∃ bso ∈ overfull subs, bso.id = id := by
    have hmem : (id, "retry bytes") ∈ ((judge 0 subs).filterMap Verdict.invalid?).filter (fun entry => entry.2 = "retry bytes") ↔
        ∃ bso ∈ overfull subs, (bso.id, "retry bytes") = (id, "retry bytes") := by
      rw [judge_retryBytes, List.mem_map]
      rfl
    simpa using hmem
  have hcapped : (id, "retry bytes") ∉
      ((fitting subs).drop limits.maxPostRecords).reverse.map fun dropped => (dropped.id, "retry bso") := by
    rintro hmem
    obtain ⟨dropped, -, heq⟩ := List.mem_map.mp hmem
    simp at heq
  rw [parsedBody, List.mem_append, hjudged]
  exact or_iff_left hcapped

/-- The record of an id is the only one. -/
theorem read_of_id_eq (hnodup : (subs.map Submission.id).Nodup) (hs : s ∈ subs) (hbso : bso ∈ acceptable subs)
    (hid : bso.id = s.id) : s.read = .ok bso := by
  obtain ⟨s', hs', hread⟩ := exists_of_mem_acceptable hbso
  have hsame : s' = s := List.inj_on_of_nodup_map hnodup hs' hs ((Submission.id_of_read hread).symm.trans hid)
  exact hsame ▸ hread

/-- What is accepted together with a record that is too much comes before it. -/
theorem fitting_before (hnodup : (subs.map Submission.id).Nodup) (hsplit : subs = before ++ s :: after)
    (hread : s.read = .ok bso) (hbso : bso ∈ overfull subs) : ∀ b ∈ fitting subs, b.id ∈ before.map Submission.id := by
  have hall := @acceptable_append_cons before after s bso hread
  have hparts : fitting subs ++ overfull subs = acceptable subs := by
    have htake : fitting subs = (acceptable subs).take (fitting subs).length :=
      List.prefix_iff_eq_take.mp Budget.within_isPrefix
    rw [overfull]
    nth_rewrite 1 [htake]
    exact List.take_append_drop _ _
  have hfits : bso ∉ fitting subs := by
    intro hmem
    have hids : ((fitting subs ++ overfull subs).map PostedBso.id).Nodup :=
      hparts ▸ (acceptable_sublist subs).nodup hnodup
    rw [List.map_append] at hids
    exact List.disjoint_of_nodup_append hids (List.mem_map_of_mem hmem) (List.mem_map_of_mem hbso)
  have hcut : fitting subs = fitting before := by
    have hwithin : fitting subs =
        Budget.within PostedBso.payloadSize limits.maxPostBytes 0 (acceptable before ++ bso :: acceptable after) := by
      rw [fitting, hsplit, hall]
    rw [Budget.within_append_cons] at hwithin
    split at hwithin
    · exact hwithin
    · exact absurd (hwithin ▸ List.mem_append_right _ List.mem_cons_self) hfits
  intro b hb
  obtain ⟨t, ht, htread⟩ := exists_of_mem_fitting (hcut ▸ hb)
  exact Submission.id_of_read htread ▸ List.mem_map_of_mem ht

/-- So everything accepted is accepted before a record that is too much. -/
theorem valid_before (hnodup : (subs.map Submission.id).Nodup) (hsplit : subs = before ++ s :: after)
    (hread : s.read = .ok bso) (hbso : bso ∈ overfull subs) :
    (parsedBody subs).valid.filter (fun b => b.id ∈ before.map Submission.id) = (fitting subs).take limits.maxPostRecords := by
  refine List.filter_eq_self.mpr fun b hb => decide_eq_true ?_
  exact fitting_before hnodup hsplit hread hbso b (List.mem_of_mem_take hb)

/-- A record alone is valid when it can be read and is no larger than a record may be. -/
theorem validAlone_iff (hread : s.read = .ok bso) : s.ValidAlone ↔ bso.payloadSize ≤ limits.maxRecordPayloadBytes := by
  have hsubs : Submitted [s.item] [s] := ⟨rfl, List.nodup_singleton _⟩
  have hvalid : (parsedBody [s]).valid = if limits.maxPostBytes < bso.payloadSize then [] else [bso] := by
    have hacceptable : acceptable [s] = [bso] := acceptable_cons_ok hread
    simp only [parsedBody, fitting, hacceptable, Budget.within, Nat.zero_add]
    split <;> rfl
  constructor
  · intro h
    let codec : Codec := ⟨fun _ => .ok (.arr [s.item]), fun _ => .error .valueError, fun _ => ""⟩
    have hitems : BodyItems codec "application/json" (codec.decode []) [s.item] := by simp [BodyItems, codec]
    obtain ⟨bsos, hparse, found, hfound, -⟩ := h codec [] none "application/json" (by decide) hitems
    obtain rfl : bsos = parsedBody [s] :=
      Except.ok.inj (hparse.symm.trans (parseBsoBodies_of_submitted (by decide) hitems hsubs))
    rw [hvalid] at hfound
    split at hfound
    · cases hfound
    · rename_i hfits
      exact not_lt.mp hfits
  · intro hfits codec body contentType media hmedia hitems
    refine ⟨_, parseBsoBodies_of_submitted hmedia hitems hsubs, bso, ?_, Submission.id_of_read hread⟩
    have hsame : limits.maxRecordPayloadBytes = limits.maxPostBytes := rfl
    rw [hvalid, if_neg (not_lt.mpr (hsame ▸ hfits))]
    exact List.mem_singleton.mpr rfl

/-- What is deferred of a body is deferred rightly, if and only if each of the records that are acceptable in
themselves, from the first one on that is too much for the request, is no larger than a record may be, and larger
than what the first hundred of the records before that one leave of the request. -/
theorem deferredRightly_iff (codec : Codec) (body : Bytes) (contentType : Option String) :
    DeferredRightly codec body contentType ↔
      ∀ media items subs, checkContentType contentType = .ok media → BodyItems codec media (codec.decode body) items →
        Submitted items subs → ∀ bso ∈ overfull subs, bso.payloadSize ≤ limits.maxRecordPayloadBytes ∧
          limits.maxPostBytes < payloadTotal ((fitting subs).take limits.maxPostRecords) + bso.payloadSize := by
  constructor
  · intro h media items subs hmedia hitems hsubs bso hbso
    obtain ⟨s, hs, hread⟩ := exists_of_mem_acceptable (List.mem_of_mem_drop hbso)
    obtain ⟨before, after, hsplit⟩ := List.append_of_mem hs
    obtain ⟨halone, hroom⟩ :=
      h _ media items subs (parseBsoBodies_of_submitted hmedia hitems hsubs) hmedia hitems hsubs before s after hsplit
    have hdeferred : (s.id, "retry bytes") ∈ (parsedBody subs).invalid :=
      mem_invalid_retryBytes.mpr ⟨bso, hbso, Submission.id_of_read hread⟩
    obtain ⟨found, hfound, hover⟩ := hroom hdeferred
    cases hread.symm.trans hfound
    rw [valid_before hsubs.2 hsplit hread hbso] at hover
    exact ⟨(validAlone_iff hread).mp (halone (Or.inl hdeferred)), hover⟩
  · intro h bsos media items subs hparse hmedia hitems hsubs before s after hsplit
    obtain rfl : bsos = parsedBody subs :=
      Except.ok.inj (hparse.symm.trans (parseBsoBodies_of_submitted hmedia hitems hsubs))
    have hs : s ∈ subs := hsplit ▸ List.mem_append_right _ List.mem_cons_self
    have hread : ∀ bso ∈ overfull subs, bso.id = s.id → s.read = .ok bso := fun bso hbso hid =>
      read_of_id_eq hsubs.2 hs (List.mem_of_mem_drop hbso) hid
    refine ⟨?_, fun hbytes => ?_⟩
    · rintro (hbytes | hcapped)
      · obtain ⟨bso, hbso, hid⟩ := mem_invalid_retryBytes.mp hbytes
        exact (validAlone_iff (hread bso hbso hid)).mpr (h media items subs hmedia hitems hsubs bso hbso).1
      · have hdropped : ∃ bso ∈ (fitting subs).drop limits.maxPostRecords, bso.id = s.id := by
          simp only [parsedBody, List.mem_append, List.mem_map, List.mem_reverse, Prod.mk.injEq, and_true] at hcapped
          exact hcapped.resolve_left fun hjudged => reason_of_judge hjudged rfl
        obtain ⟨bso, hbso, hid⟩ := hdropped
        have hfits := List.mem_of_mem_drop hbso
        have hown := read_of_id_eq hsubs.2 hs (Budget.within_isPrefix.subset hfits) hid
        exact (validAlone_iff hown).mpr (payloadSize_le_of_mem_fitting hfits)
    · obtain ⟨bso, hbso, hid⟩ := mem_invalid_retryBytes.mp hbytes
      have hown := hread bso hbso hid
      refine ⟨bso, hown, ?_⟩
      rw [valid_before hsubs.2 hsplit hown hbso]
      exact (h media items subs hmedia hitems hsubs bso hbso).2

/-! ### A record that is too large for any request -/

/-- A payload of so many bytes. -/
def longPayload (n : ℕ) : String := String.ofList (List.replicate n 'a')

/-- A record with that payload. -/
def longFields (n : ℕ) : List (String × Json) := [("id", .str "x"), ("payload", .str (longPayload n))]

/-- Its id. -/
theorem longFields_id (n : ℕ) : field (longFields n) "id" = .str "x" := by simp [field, longFields]

/-- Its object. -/
def longRecord (n : ℕ) : Submission := ⟨"x", longFields n, longFields_id n⟩

/-- A POST body with that record alone. -/
def longRecordText (n : ℕ) : List Char :=
  "[\x7b\"id\":\"x\",\"payload\":\"".toList ++ List.replicate n 'a' ++ "\"\x7d]".toList

/-- Its bytes. -/
def longRecordBody (n : ℕ) : Bytes := (longRecordText n).map fun c => UInt8.ofNat c.toNat

/-- The bytes are those of the payload and a few more. -/
theorem length_longRecordBody (n : ℕ) : (longRecordBody n).length = n + 25 := by
  have hopening : "[\x7b\"id\":\"x\",\"payload\":\"".toList.length = 22 := by decide
  have hclosing : "\"\x7d]".toList.length = 3 := by decide
  unfold longRecordBody longRecordText
  rw [List.length_map, List.length_append, List.length_append, List.length_replicate, hopening, hclosing, Nat.add_comm 22]

/-- All of them are ASCII. -/
theorem ascii_longRecordText {n : ℕ} {c : Char} (h : c ∈ longRecordText n) : Char.ofNat (UInt8.ofNat c.toNat).toNat = c := by
  have hopening : ("[\x7b\"id\":\"x\",\"payload\":\"".toList.all fun c => Char.ofNat (UInt8.ofNat c.toNat).toNat == c) = true := by
    decide
  have hpayload : Char.ofNat (UInt8.ofNat 'a'.toNat).toNat = 'a' := by decide
  have hclosing : ("\"\x7d]".toList.all fun c => Char.ofNat (UInt8.ofNat c.toNat).toNat == c) = true := by decide
  unfold longRecordText at h
  rw [List.mem_append, List.mem_append] at h
  obtain (hc | hc) | hc := h
  · exact eq_of_beq (List.all_eq_true.mp hopening c hc)
  · obtain rfl : c = 'a' := List.eq_of_mem_replicate hc
    exact hpayload
  · exact eq_of_beq (List.all_eq_true.mp hclosing c hc)

/-- So they are decoded to the text. -/
theorem ascii_longRecordBody (n : ℕ) : Bytes.ascii (longRecordBody n) = String.ofList (longRecordText n) := by
  rw [Bytes.ascii, longRecordBody, List.map_map]
  exact congrArg String.ofList ((List.map_congr_left fun c hc => ascii_longRecordText hc).trans (List.map_id _))

/-- The record can be read. -/
theorem read_longRecord (n : ℕ) : (longRecord n).read = .ok { id := "x", payload := some (longPayload n) } := by
  have hunknown : ((longFields n).map Prod.fst).filter (fun name => !knownFields.contains name) = [] := by
    simp [longFields, knownFields]
  have hpayload : field (longFields n) "payload" = .str (longPayload n) := by simp [field, longFields, List.lookup_cons]
  have hsortindex : field (longFields n) "sortindex" = .null := by simp [field, longFields, List.lookup_cons]
  have httl : field (longFields n) "ttl" = .null := by simp [field, longFields, List.lookup_cons]
  have hname : bsoIdRe "x" = true := by decide
  simp only [Submission.read, longRecord, bsoFromObject, hunknown, List.mergeSort_nil, List.head?_nil, idField,
    longFields_id, hname, if_true, payloadField, hpayload, sortindexField, hsortindex, ttlField, httl, Fallible.ok_bind]

/-- A record of one byte more than a record may have is deferred, and deferred again when it is sent alone. -/
theorem longRecord_not_deferredRightly :
    ∃ codec, (longRecordBody 2621441).length ≤ limits.maxRequestBytes ∧ ¬DeferredRightly codec (longRecordBody 2621441) none := by
  generalize hn : 2621441 = n
  have hread := read_longRecord n
  have hsize : (⟨"x", some (longPayload n), none, none⟩ : PostedBso).payloadSize = n := by
    change (longPayload n).length = n
    rw [longPayload, String.length_ofList, List.length_replicate]
  have hlarge : limits.maxPostBytes < n := by
    subst hn
    decide
  have hitems : BodyItems (.knowing [(String.ofList (longRecordText n), .arr [(longRecord n).item])]) "application/json"
      (Bytes.ascii (longRecordBody n)) [(longRecord n).item] := by
    have hnonempty : String.ofList (longRecordText n) ≠ "" := by
      intro hempty
      have htext := congrArg String.toList hempty
      rw [String.toList_ofList] at htext
      have hlength := length_longRecordBody n
      rw [longRecordBody, List.length_map, htext] at hlength
      exact absurd hlength (by simp)
    rw [ascii_longRecordBody]
    simp [BodyItems, hnonempty, Codec.knowing, knownText]
  have hsubs : Submitted [(longRecord n).item] [longRecord n] := ⟨rfl, List.nodup_singleton _⟩
  have hoverfull : (⟨"x", some (longPayload n), none, none⟩ : PostedBso) ∈ overfull [longRecord n] := by
    have hacceptable : acceptable [longRecord n] = [⟨"x", some (longPayload n), none, none⟩] :=
      acceptable_cons_ok hread
    have hnone : fitting [longRecord n] = [] := by
      rw [fitting, hacceptable, Budget.within, hsize, if_pos (by omega)]
    rw [overfull, hnone, hacceptable]
    exact List.mem_singleton.mpr rfl
  refine ⟨.knowing [(String.ofList (longRecordText n), .arr [(longRecord n).item])], ?_, fun h => ?_⟩
  · rw [length_longRecordBody]
    subst hn
    decide
  · obtain ⟨halone, -⟩ := h _ "application/json" _ _ (parseBsoBodies_of_submitted (by decide) hitems hsubs) (by decide) hitems
      hsubs [] (longRecord n) [] rfl
    have hdeferred := mem_invalid_retryBytes.mpr ⟨_, hoverfull, rfl⟩
    have hfits := (validAlone_iff hread).mp (halone (Or.inl hdeferred))
    rw [hsize] at hfits
    exact absurd hfits (not_le.mpr hlarge)

end FxaLite.SyncStorage
