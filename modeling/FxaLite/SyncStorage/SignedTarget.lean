import FxaLite.SyncStorage.Exemption

/-!
# The target that a signature covers

`_authenticate` puts the string that is verified together from two sources: the raw path, and the
query of a URL that the framework has concatenated and taken apart again. Routing and parameters
are read from the request itself. The two agree if a URL that is put together from the `Host`
header, the decoded path and the query comes apart where it was put together; a number sign in the
header or the path takes the query out of what is signed, and a question mark in the path puts a
part of the path into it.
-/

namespace FxaLite.SyncStorage

open Crypto Tokenserver Hawk

/-! ### A query that is found again -/

/-- What the URL of a request is put together from, less the scheme and the query. -/
def Scope.beforeQuery (scope : Scope) : List Char := scope.host ++ scope.path

/-- The URL of a request comes apart where it was put together. Behind a number sign or a question
mark in the host or the path it does so by chance only. -/
def Scope.SplitsBack (scope : Scope) : Prop :=
  Url.bracketsMatch (Url.netlocOf scope.beforeQuery) = true ∧
    if '#' ∈ scope.beforeQuery then Url.clean (Url.queryOf scope.beforeQuery) = scope.query
    else if '?' ∈ scope.beforeQuery then scope.query = [] ∧ Url.clean (Url.queryOf scope.beforeQuery) = []
    else ∀ c ∈ scope.query, c ≠ '#' ∧ Url.isRemoved c = false

/-- A host and a path without any of four characters, and a query that loses nothing, suffice. -/
theorem splitsBack_of_plain {scope : Scope}
    (hbefore : (scope.beforeQuery.all fun c => c ≠ '#' && c ≠ '?' && c ≠ '[' && c ≠ ']') = true)
    (hquery : (scope.query.all fun c => c ≠ '#' && !Url.isRemoved c) = true) : scope.SplitsBack := by
  simp only [List.all_eq_true, Bool.and_eq_true, decide_eq_true_eq, Bool.not_eq_true'] at hbefore hquery
  have hnetloc : ∀ c ∈ Url.netlocOf scope.beforeQuery, c ≠ '[' ∧ c ≠ ']' := by
    intro c hc
    have hmem : c ∈ scope.beforeQuery := List.mem_of_mem_filter ((List.takeWhile_prefix _).subset hc)
    exact ⟨(hbefore c hmem).1.2, (hbefore c hmem).2⟩
  have hopening : '[' ∉ Url.netlocOf scope.beforeQuery := fun hmem => (hnetloc _ hmem).1 rfl
  have hclosing : ']' ∉ Url.netlocOf scope.beforeQuery := fun hmem => (hnetloc _ hmem).2 rfl
  refine ⟨by simp [Url.bracketsMatch, hopening, hclosing], ?_⟩
  rw [if_neg fun hmem => (hbefore _ hmem).1.1.1 rfl, if_neg fun hmem => (hbefore _ hmem).1.1.2 rfl]
  exact hquery

/-- A text is left as it is if nothing in it is removed. -/
theorem clean_eq_self {s : List Char} : Url.clean s = s ↔ ∀ c ∈ s, Url.isRemoved c = false := by
  unfold Url.clean
  simp only [List.filter_eq_self, Bool.not_eq_true']

/-- A query comes back whole if it has no number sign and nothing in it is removed. -/
theorem clean_partition_eq_self {query : List Char} :
    Url.clean (Py.partition '#' query).1 = query ↔ ∀ c ∈ query, c ≠ '#' ∧ Url.isRemoved c = false := by
  constructor
  · intro h
    have hfragment : '#' ∉ query := by
      rw [← h]
      exact fun hmem => Py.not_mem_partition '#' query (List.mem_of_mem_filter hmem)
    rw [Py.partition_of_not_mem _ _ hfragment, clean_eq_self] at h
    intro c hc
    exact ⟨fun heq => hfragment (heq ▸ hc), h c hc⟩
  · intro h
    rw [Py.partition_of_not_mem _ _ fun hmem => (h _ hmem).1 rfl]
    exact clean_eq_self.mpr fun c hc => (h c hc).2

/-- The query that is found behind a text in which it begins already. -/
theorem clean_queryOf_of_query {s query : List Char} (hfragment : '#' ∉ s) (h : '?' ∈ s) :
    Url.clean (Url.queryOf (s ++ Url.behind '?' query)) = query ↔ query = [] ∧ Url.clean (Url.queryOf s) = [] := by
  rw [Url.queryOf_append_of_query hfragment h]
  constructor
  · intro heq
    by_cases hnil : query = []
    · rw [hnil, Url.behind, if_pos rfl] at heq
      exact ⟨hnil, by simpa using heq⟩
    · -- what is found has the query in it whole, behind a question mark
      have hlost : ∀ c ∈ query, c ≠ '#' ∧ Url.isRemoved c = false := by
        intro c hc
        rw [← heq] at hc
        obtain ⟨hmem, hkept⟩ := List.mem_filter.mp hc
        refine ⟨?_, by simpa using hkept⟩
        rintro rfl
        rcases List.mem_append.mp hmem with hmem | hmem
        · have hsuffix : Url.queryOf s <:+ s := by
            rw [Url.queryOf, Py.partition_of_not_mem _ _ hfragment]
            exact Py.partition_suffix '?' s
          exact hfragment (hsuffix.subset hmem)
        · exact Py.not_mem_partition '#' _ hmem
      have hbehind : Url.clean (Py.partition '#' (Url.behind '?' query)).1 = '?' :: query := by
        rw [Url.behind, if_neg hnil, Py.partition_cons, if_neg (by decide)]
        have hkept : Url.isRemoved '?' = false := by decide
        rw [Url.clean, List.filter_cons_of_pos (by simp [hkept])]
        exact congrArg _ (clean_partition_eq_self.mpr hlost)
      have hlength := congrArg List.length heq
      rw [Url.clean, List.filter_append, List.length_append] at hlength
      have hbehindLength := congrArg List.length hbehind
      rw [Url.clean, List.length_cons] at hbehindLength
      omega
  · rintro ⟨rfl, hclean⟩
    rw [Url.behind, if_pos rfl]
    simpa using hclean

/-- What stands behind a separator tells what it was. -/
theorem behind_inj {sep : Char} {s t : List Char} : Url.behind sep s = Url.behind sep t ↔ s = t := by
  constructor
  · intro h
    by_cases hs : s = []
    · by_cases ht : t = []
      · rw [hs, ht]
      · rw [Url.behind, if_pos hs, Url.behind, if_neg ht] at h
        cases h
    · by_cases ht : t = []
      · rw [Url.behind, if_neg hs, Url.behind, if_pos ht] at h
        cases h
      · rw [Url.behind, if_neg hs, Url.behind, if_neg ht] at h
        exact (List.cons.inj h).2
  · exact congrArg _

/-- The netloc ends before the query does not begin. -/
theorem netlocOf_behind (s query : List Char) : Url.netlocOf (s ++ Url.behind '?' query) = Url.netlocOf s := by
  unfold Url.behind
  split
  · rw [List.append_nil]
  · have hkept : Url.isRemoved '?' = false ∧ Url.isDelimiter '?' = true := by decide
    unfold Url.netlocOf Url.clean
    rw [List.filter_append, List.filter_cons_of_pos (by simp [hkept.1]), List.takeWhile_append]
    split
    · rename_i hall
      rw [List.takeWhile_cons_of_neg (by simp [hkept.2]), List.append_nil]
      exact ((List.takeWhile_prefix _).eq_of_length hall).symm
    · rfl

/-! ### The verified string -/

/-- What the client signs: the target as it puts it on the wire. -/
def Scope.target (scope : Scope) (raw : List UInt8) : List Char :=
  raw.map (fun b => Char.ofNat b.toNat) ++ Url.behind '?' scope.query

/-- The string that `_authenticate` verifies the signature over; `none` is an exception. -/
def verifiedResource (f : Framework) (scope : Scope) : Option (List Char) :=
  (f.url scope).map fun url => signedTarget scope url ++ Url.behind '?' url.query

/-- What `request.url` finds as the query. -/
theorem map_query_url {f : Framework} {scope : Scope} (hurl : f.url scope = Url.urlsplit scope.urlText) :
    (f.url scope).map Url.SplitResult.query =
      if Url.bracketsMatch (Url.netlocOf scope.beforeQuery)
      then some (Url.clean (Url.queryOf (scope.beforeQuery ++ Url.behind '?' scope.query))) else none := by
  have hrest : scope.host ++ (scope.path ++ Url.behind '?' scope.query) =
      scope.beforeQuery ++ Url.behind '?' scope.query := by rw [Scope.beforeQuery, List.append_assoc]
  rw [hurl, Scope.urlText, hrest, Url.urlsplit_map_query (isScheme_text scope.scheme), netlocOf_behind]

/-- The query is found again exactly if the URL comes apart where it was put together. -/
theorem map_query_url_eq_some {f : Framework} {scope : Scope} (hurl : f.url scope = Url.urlsplit scope.urlText) :
    (f.url scope).map Url.SplitResult.query = some scope.query ↔ scope.SplitsBack := by
  have hfound : Url.clean (Url.queryOf (scope.beforeQuery ++ Url.behind '?' scope.query)) = scope.query ↔
      if '#' ∈ scope.beforeQuery then Url.clean (Url.queryOf scope.beforeQuery) = scope.query
      else if '?' ∈ scope.beforeQuery then scope.query = [] ∧ Url.clean (Url.queryOf scope.beforeQuery) = []
      else ∀ c ∈ scope.query, c ≠ '#' ∧ Url.isRemoved c = false := by
    split
    · rename_i hfragment
      rw [Url.queryOf_append_of_fragment hfragment]
    · rename_i hfragment
      split
      · rename_i hquery
        exact clean_queryOf_of_query hfragment hquery
      · rename_i hquery
        rw [Url.queryOf_append_of_plain hfragment hquery, Url.queryOf_behind]
        exact clean_partition_eq_self
  rw [map_query_url hurl, Scope.SplitsBack, ← hfound]
  split
  · rename_i hbrackets
    rw [Option.some.injEq, and_iff_right hbrackets]
  · rename_i hbrackets
    constructor
    · intro h
      cases h
    · intro h
      exact absurd h.1 hbrackets

section Target

variable (h : Sha256) (i : Interpreter) (f : Framework) (app : App)

/-- `_authenticate`, with the signature verified over a given string. -/
def authenticateOver (resource : List Char) (scope : Scope) (uid : ℕ) (readBody : Bool) :
    Except SyncStorageError SyncRequest :=
  match f.url scope, Origin.parse app.publicUrl with
  | some url, some origin => do
    let verified ← authenticate h i scope.authorization app.secret
      { presented scope url origin readBody with resource := resource } (mountRelative scope url) (app.nowMs / 1000 : ℕ)
    if verified.uid ≠ uid then .error unauthorized
    else do
      match ← syncUser app.users uid with
      | none => .error unauthorized
      | some _ => .ok ⟨⟨uid, quantize app.nowMs⟩, verified, if readBody then scope.body else []⟩
  | _, _ => .error internalError

/-- `_authenticate` verifies the signature over the string it puts together. -/
theorem authenticateRequest_eq {scope : Scope} {resource : List Char}
    (hresource : verifiedResource f scope = some resource) (uid : ℕ) (readBody : Bool) :
    authenticateRequest h i f app scope uid readBody = authenticateOver h i f app resource scope uid readBody := by
  obtain ⟨url, hurl, rfl⟩ := Option.map_eq_some_iff.mp hresource
  unfold authenticateRequest authenticateOver
  rw [hurl]
  cases Origin.parse app.publicUrl with
  | none => rfl
  | some origin => rfl

/-- The string that is verified is the target of the request, and the request is authenticated over it, exactly
if its URL comes apart where it was put together. -/
theorem signature_covers_target (hstarlette : f.IsStarlette) (scope : Scope) (raw : List UInt8)
    (hraw : scope.rawPath = some raw) :
    (verifiedResource f scope = some (scope.target raw) ∧ ∀ uid readBody,
        authenticateRequest h i f app scope uid readBody =
          authenticateOver h i f app (scope.target raw) scope uid readBody) ↔ scope.SplitsBack := by
  have hverified : verifiedResource f scope = some (scope.target raw) ↔ scope.SplitsBack := by
    rw [← map_query_url_eq_some (hstarlette.url scope)]
    unfold verifiedResource Scope.target signedTarget
    rw [hraw]
    cases f.url scope with
    | none => simp
    | some url => simp only [Option.map_some, Option.some.injEq, List.append_cancel_left_eq, behind_inj]
  constructor
  · intro hcovers
    exact hverified.mp hcovers.1
  · intro hsplits
    have hresource := hverified.mpr hsplits
    exact ⟨hresource, authenticateRequest_eq h i f app hresource⟩

end Target

/-! ### Three targets -/

/-- A request for a record or a collection, with the path as it is and as it is put on the wire. -/
def scopeFor (host path wire query : String) : Scope where
  method := "GET".toList
  scheme := .http
  host := host.toList
  path := path.toList
  rawPath := some (utf8 wire.toList)
  query := query.toList
  rootPath := none
  authorization := none
  contentType := none
  body := []

/-- Behind a number sign in the `Host` header the query is not covered, and with a question mark in a record id
a part of the id is expected once more behind the target. -/
theorem signature_misses_target :
    verifiedResource sampleFramework (scopeFor "localhost#" "/storage/1.5/1/storage/tabs" "/storage/1.5/1/storage/tabs" "full=1") =
        some "/storage/1.5/1/storage/tabs".toList ∧
      verifiedResource sampleFramework (scopeFor "localhost" "/storage/1.5/1/storage/tabs/a?b" "/storage/1.5/1/storage/tabs/a%3Fb" "") =
        some "/storage/1.5/1/storage/tabs/a%3Fb?b".toList := by
  decide +kernel

/-- Of a record id with an escaped space, and a query, the target is signed as it was sent. -/
theorem signature_covers_target_escaped :
    verifiedResource sampleFramework (scopeFor "localhost" "/storage/1.5/1/storage/tabs/a b" "/storage/1.5/1/storage/tabs/a%20b" "full=1") =
      some ((scopeFor "localhost" "/storage/1.5/1/storage/tabs/a b" "/storage/1.5/1/storage/tabs/a%20b" "full=1").target
        (utf8 "/storage/1.5/1/storage/tabs/a%20b".toList)) :=
  ((signature_covers_target sampleHash (sampleInterpreter 1 []) sampleFramework sampleApp sampleFramework_isStarlette
    (scopeFor "localhost" "/storage/1.5/1/storage/tabs/a b" "/storage/1.5/1/storage/tabs/a%20b" "full=1")
    (utf8 "/storage/1.5/1/storage/tabs/a%20b".toList) rfl).mpr
    (splitsBack_of_plain (by decide +kernel) (by decide +kernel))).1

end FxaLite.SyncStorage
