import FxaLite.SyncStorage.Authentication
import FxaLite.SyncStorage.Handshake

/-!
# What a request with an expired token can reach

`_exempt_from_expiry` looks for `/1.5/{uid}/info/collections` at the beginning of a path, and the
path it is given is that of `request.url`, which begins with the `/storage` that the router is
mounted under: nothing is taken off it but a root path that is never set. So no route is exempt, not
even the one that is meant to be.
-/

namespace FxaLite.SyncStorage

open Crypto Tokenserver Hawk

/-! ### Paths -/

/-- A path is not exempt whose first segment is not the version. -/
theorem exemptFromExpiry_of_first {path first : List Char} {rest : List (List Char)}
    (hsplit : (path.dropWhile (· = '/')).splitOn '/' = first :: rest) (hfirst : first ≠ "1.5".toList) :
    exemptFromExpiry path = false := by
  rw [exemptFromExpiry, hsplit]
  split
  · rename_i version uid info collections heq
    obtain rfl := (List.cons.inj heq).1
    rw [decide_eq_false hfirst]
    rfl
  · rfl

/-- A path that goes through the mounted router is not exempt. -/
theorem exemptFromExpiry_mounted (after : List Char) : exemptFromExpiry (storagePrefix ++ after) = false := by
  have hstorage : "storage".toList.splitOn '/' = ["storage".toList] := List.splitOn_eq_singleton (by decide)
  have hpath : storagePrefix ++ after = '/' :: ("storage".toList ++ '/' :: ("1.5/".toList ++ after)) := rfl
  have hsplit : ((storagePrefix ++ after).dropWhile (· = '/')).splitOn '/' =
      "storage".toList :: ("1.5/".toList ++ after).splitOn '/' := by
    have hdrop : ("storage".toList ++ '/' :: ("1.5/".toList ++ after)).dropWhile (· = '/') =
        "storage".toList ++ '/' :: ("1.5/".toList ++ after) := List.dropWhile_cons_of_neg (by decide)
    rw [hpath, List.dropWhile_cons_of_pos (by decide), hdrop, List.splitOn_append_cons_self, hstorage, List.singleton_append]
  exact exemptFromExpiry_of_first hsplit (by decide)

/-- What is left of such a path in a URL, up to the query, goes through it too. -/
theorem exists_mounted (after : List Char) :
    ∃ rest, Url.beforeQuery (storagePrefix ++ after) = storagePrefix ++ rest := by
  have hplain : ∀ c ∈ storagePrefix, (c ≠ '?' && c ≠ '#') = true := List.all_eq_true.mp (by decide)
  exact ⟨_, List.takeWhile_append_of_pos hplain⟩

/-! ### The path of a request -/

section Requests

variable {f : Framework} {wellFormed : List Char → Prop} {scope : Scope} {url : Url.SplitResult}

/-- The schemes are schemes. -/
theorem isScheme_text (scheme : Scheme) : Url.IsScheme scheme.text := by
  cases scheme with
  | http => exact ⟨by decide, by decide, by decide⟩
  | https => exact ⟨by decide, by decide, by decide⟩

/-- Behind an address the path of the URL is that of the request. -/
theorem path_of_address (haddress : IsAddress scope.host) (hpath : storagePrefix <+: scope.path)
    (hurl : Url.urlsplit scope.urlText = some url) : ∃ rest, url.path = storagePrefix ++ rest := by
  obtain ⟨rest, hrest⟩ := hpath
  have hfree : storagePrefix.tail.filter (fun c => !Url.isRemoved c) = storagePrefix.tail := by decide
  have htext : scope.host ++ (scope.path ++ Url.behind '?' scope.query) =
      scope.host ++ '/' :: (storagePrefix.tail ++ (rest ++ Url.behind '?' scope.query)) := by
    rw [← hrest, List.append_assoc]
    rfl
  have hnothing : Url.behindNetloc scope.host = [] := by
    refine List.dropWhile_eq_nil_iff.mpr fun c hc => ?_
    rw [haddress c (List.mem_of_mem_filter hc)]
    rfl
  rw [Scope.urlText] at hurl
  rw [Url.path_of_urlsplit (isScheme_text scope.scheme) hurl, htext, Url.behindNetloc_append_slash, hnothing, List.nil_append,
    List.filter_append, hfree]
  exact exists_mounted _

/-- So it is without an address. -/
theorem path_of_bare (hpath : storagePrefix <+: scope.path)
    (hurl : Url.urlsplit (scope.path ++ Url.behind '?' scope.query) = some url) : ∃ rest, url.path = storagePrefix ++ rest := by
  obtain ⟨rest, hrest⟩ := hpath
  have hfree : storagePrefix.tail.tail.filter (fun c => !Url.isRemoved c) = storagePrefix.tail.tail := by decide
  have htext : scope.path ++ Url.behind '?' scope.query =
      '/' :: 's' :: (storagePrefix.tail.tail ++ (rest ++ Url.behind '?' scope.query)) := by
    rw [← hrest, List.append_assoc]
    rfl
  rw [htext] at hurl
  rw [Url.path_of_urlsplit_rooted (by decide) (by decide) hurl, List.filter_append, hfree]
  exact exists_mounted _

/-- A request that reaches a storage route is not exempt. -/
theorem not_exempt (hchecks : f.ChecksHosts wellFormed) (hroute : f.route scope ≠ none) (hurl : f.url scope = some url) :
    exemptFromExpiry url.path = false := by
  have hpath := hchecks.route scope hroute
  have hmounted : ∃ rest, url.path = storagePrefix ++ rest := by
    by_cases hhost : wellFormed scope.host
    · rw [hchecks.url scope hhost] at hurl
      exact path_of_address (hchecks.address _ hhost) hpath hurl
    · obtain ⟨server, hserver, haddress⟩ | hbare := hchecks.otherwise scope hhost
      · rw [haddress] at hurl
        exact @path_of_address { scope with host := server } url hserver hpath hurl
      · rw [hbare] at hurl
        exact path_of_bare hpath hurl
  obtain ⟨rest, hrest⟩ := hmounted
  rw [hrest, exemptFromExpiry_mounted]

end Requests

/-! ### Requests with an expired token -/

section Expired

variable (h : Sha256) (i : Interpreter) (f : Framework) (app : App)

/-- A request for a route of a uid that lacks nothing but time: its header is signed under a token of
that uid, which the server knows, and the token has expired. -/
structure LacksTime (scope : Scope) (uid : ℕ) (readBody : Bool) (url : Url.SplitResult) (header : HawkHeader)
    (credentials : SyncCredentials) : Prop where
  splits : f.url scope = some url
  parsed : ∃ text, scope.authorization = some text ∧ parse text = .ok header
  token : parseToken h i header.id app.secret = .ok credentials
  signed : ∃ origin, Origin.parse app.publicUrl = some origin ∧
    verifySigned h header credentials app.secret (presented scope url origin readBody) (app.nowMs / 1000 : ℕ) = .ok ()
  names : credentials.uid = uid
  user : ∃ user, syncUser app.users uid = .ok (some user)
  expired : credentials.expires ≤ (app.nowMs / 1000 : ℕ)

variable {h i f app} {scope : Scope} {uid : ℕ} {readBody : Bool} {url : Url.SplitResult} {header : HawkHeader}
  {credentials : SyncCredentials}

/-- Such a request is authenticated exactly if its path is exempt. -/
theorem authenticateRequest_of_lacksTime (hlacks : LacksTime h i f app scope uid readBody url header credentials) :
    (∃ sync, authenticateRequest h i f app scope uid readBody = .ok sync) ↔
      exemptFromExpiry (mountRelative scope url) = true := by
  obtain ⟨text, htext, hparse⟩ := hlacks.parsed
  obtain ⟨origin, horigin, hsigned⟩ := hlacks.signed
  obtain ⟨user, huser⟩ := hlacks.user
  have hnonempty : text ≠ [] := by
    rintro rfl
    cases hparse
  have hauth := @authenticate_of_verified h i app.secret (presented scope url origin readBody) header text
    (mountRelative scope url) (app.nowMs / 1000 : ℕ) credentials hnonempty hparse hlacks.token hsigned
  simp only [authenticateRequest, hlacks.splits, horigin, htext, hauth, not_lt.mpr hlacks.expired, or_false]
  split
  · rename_i hexempt
    simp [hexempt, hlacks.names, huser]
  · rename_i hexempt
    simp [hexempt]

/-- Where the application is reached at its root, every storage route is closed to an expired token. -/
theorem not_authenticated_of_lacksTime {wellFormed : List Char → Prop} (hchecks : f.ChecksHosts wellFormed)
    (hroot : scope.rootPath.getD [] = []) {handler : StorageRoute} (hroute : f.route scope = some ⟨uid, handler⟩)
    (hlacks : LacksTime h i f app scope uid handler.readBody url header credentials) :
    ¬∃ sync, authenticated h i f app scope = some (.ok sync) := by
  have hmount : mountRelative scope url = url.path := by simp [mountRelative, hroot]
  have hclosed : ∀ sync, authenticateRequest h i f app scope uid handler.readBody ≠ .ok sync := by
    intro sync hsync
    have hexempt := (authenticateRequest_of_lacksTime hlacks).mp ⟨sync, hsync⟩
    rw [hmount, not_exempt hchecks (by simp [hroute]) hlacks.splits] at hexempt
    cases hexempt
  rintro ⟨sync, hsync⟩
  simp only [authenticated, hroute] at hsync
  split at hsync
  · cases hsync
  · cases hsync
  · rename_i huid hhandler hmatched
    cases hmatched
    obtain ⟨-, -, hsync⟩ := Fallible.bind_eq_ok.mp (Option.some.inj hsync)
    exact hclosed sync hsync

/-- An expired token authenticates the requests for `info/collections` and no others, exactly as long as none of
them is for `info/collections`. -/
theorem expired_token_reaches_info_collections {wellFormed : List Char → Prop} (hchecks : f.ChecksHosts wellFormed)
    (hroot : scope.rootPath.getD [] = [])
    (hlacks : ∀ uid handler, f.route scope = some ⟨uid, handler⟩ → handler ≠ .infoConfiguration →
      ∃ url header credentials, LacksTime h i f app scope uid handler.readBody url header credentials) :
    ((∃ sync, authenticated h i f app scope = some (.ok sync)) ↔ ∃ uid, f.route scope = some ⟨uid, .infoCollections⟩) ↔
      ¬∃ uid, f.route scope = some ⟨uid, .infoCollections⟩ := by
  have hclosed : ¬∃ sync, authenticated h i f app scope = some (.ok sync) := by
    cases hroute : f.route scope with
    | none => simp [authenticated, hroute]
    | some matched =>
      obtain ⟨uid, handler⟩ := matched
      by_cases hhandler : handler = .infoConfiguration
      · subst hhandler
        simp [authenticated, hroute]
      · obtain ⟨url, header, credentials, hrequest⟩ := hlacks uid handler hroute hhandler
        exact not_authenticated_of_lacksTime hchecks hroot hroute hrequest
  rw [iff_false_left hclosed]

end Expired

/-! ### One request, at the time its token expires -/

/-- A framework that knows one route. -/
def sampleFramework : Framework where
  url scope := Url.urlsplit scope.urlText
  route scope :=
    if scope.method = "GET".toList ∧ scope.path = "/storage/1.5/1/info/collections".toList then some ⟨1, .infoCollections⟩
    else none

/-- It behaves as documented. -/
theorem sampleFramework_isStarlette : sampleFramework.IsStarlette where
  url _ := rfl
  route scope hroute := by
    by_cases hmatch : scope.method = "GET".toList ∧ scope.path = "/storage/1.5/1/info/collections".toList
    · rw [hmatch.2]
      decide
    · exact absurd (if_neg hmatch) hroute

/-- One that knows the same route, and passes over a `Host` header that is no address. -/
def checkingFramework : Framework where
  url scope :=
    if scope.host.all fun c => !Url.isDelimiter c then Url.urlsplit scope.urlText
    else Url.urlsplit (scope.path ++ Url.behind '?' scope.query)
  route := sampleFramework.route

/-- It behaves as documented. -/
theorem checkingFramework_checksHosts : checkingFramework.ChecksHosts IsAddress where
  address _ := id
  url scope hhost := if_pos (List.all_eq_true.mpr fun c hc => by rw [hhost c hc]; rfl)
  otherwise scope hhost := by
    refine Or.inr (if_neg fun hall => hhost fun c hc => ?_)
    simpa using List.all_eq_true.mp hall c hc
  route := sampleFramework_isStarlette.route

/-- A name is an address. -/
theorem isAddress_localhost : IsAddress "localhost".toList := by
  have hall : ("localhost".toList.all fun c => !Url.isDelimiter c) = true := by decide
  intro c hc
  simpa using List.all_eq_true.mp hall c hc

/-- An application with one user, when a token for one hour has expired. -/
def sampleApp : App where
  publicUrl := "http://localhost".toList
  secret := "secret".toList
  users := ⟨["aa"], [⟨1, "aa", "AAAA", 0, none, 1700000000000, none⟩], 1⟩
  nowMs := 1700003600000

/-- What its client asks for, and signs. -/
def infoRequest : Presented where
  method := "GET".toList
  resource := "/storage/1.5/1/info/collections".toList
  origin := ⟨"localhost".toList, 80⟩
  body := none
  contentType := []

/-- The header that it writes. -/
def infoHeader (i : Interpreter) : HawkHeader :=
  clientHeader sampleHash (sampleToken i 1700003600) (sampleKey i 1700003600) infoRequest 1700003600 "abcd".toList

/-- The request as the framework hands it over. -/
def infoScope (i : Interpreter) : Scope where
  method := "GET".toList
  scheme := .http
  host := "localhost".toList
  path := "/storage/1.5/1/info/collections".toList
  rawPath := some (utf8 "/storage/1.5/1/info/collections".toList)
  query := []
  rootPath := none
  authorization := some (write ((infoHeader i).attributes "1700003600".toList true true))
  contentType := none
  body := []

/-- The client lacks nothing but time. -/
theorem lacksTime_infoScope {i : Interpreter}
    (hjson : i.loads (utf8 (i.dumps (payload (sampleClaims 1700003600).toClaims sampleRandom))) =
      some (.obj (payload (sampleClaims 1700003600).toClaims sampleRandom)))
    (hempty : i.loads [] = none) :
    ∃ url credentials, LacksTime sampleHash i checkingFramework sampleApp (infoScope i) 1 false url (infoHeader i) credentials := by
  have hwritten := @isWritten_clientHeader sampleHash "secret".toList (sampleToken i 1700003600) (sampleKey i 1700003600)
    infoRequest _ "abcd".toList "1700003600".toList "80".toList 1700003600 true true (deriveSecret_sampleToken i 1700003600)
    (by decide) (by decide) (List.all_eq_true.mp (by decide))
  have hexact : Double.IsExact (sampleClaims 1700003600).expires := Double.isExact_of_lt (by decide)
  have hskew : (((1700003600000 / 1000 : ℕ) : ℤ) - 1700003600).natAbs ≤ maxSkewSeconds := by decide
  refine ⟨⟨"http".toList, "localhost".toList, "/storage/1.5/1/info/collections".toList, [], []⟩,
    TokenClaims.credentials (sampleClaims 1700003600) sampleRandom 1700003600, ?_⟩
  exact
    { splits := by
        have hurl : Url.urlsplit "http://localhost/storage/1.5/1/info/collections".toList =
            some ⟨"http".toList, "localhost".toList, "/storage/1.5/1/info/collections".toList, [], []⟩ := by decide
        have htext : (infoScope i).urlText = "http://localhost/storage/1.5/1/info/collections".toList := rfl
        rw [checkingFramework_checksHosts.url _ isAddress_localhost, htext]
        exact hurl
      parsed := ⟨_, rfl, hwritten.parse_write rfl⟩
      token := parseToken_tokenId (expiresOf_of_isExact hexact) hjson hempty
      signed := by
        have hpresented : presented (infoScope i)
            ⟨"http".toList, "localhost".toList, "/storage/1.5/1/info/collections".toList, [], []⟩ ⟨"localhost".toList, 80⟩
            false = infoRequest := by
          have hraw : (utf8 "/storage/1.5/1/info/collections".toList).map (fun b => Char.ofNat b.toNat) =
              "/storage/1.5/1/info/collections".toList := by decide
          simp only [presented, signedTarget, infoScope, infoRequest, hraw, Url.behind]
          rfl
        refine ⟨⟨"localhost".toList, 80⟩, by decide, ?_⟩
        rw [hpresented]
        exact hwritten.verifySigned (deriveSecret_sampleToken i 1700003600) hskew
      names := rfl
      user := ⟨_, rfl⟩
      expired := by
        show (1700003600 : ℤ) ≤ ((1700003600000 / 1000 : ℕ) : ℤ)
        decide }

/-- The interpreter of that request. -/
def infoInterpreter : Interpreter := sampleInterpreter 1700003600 "1700003600".toList

/-- Its client lacks nothing but time. -/
theorem lacksTime_infoInterpreter :
    ∃ url credentials, LacksTime sampleHash infoInterpreter checkingFramework sampleApp (infoScope infoInterpreter) 1 false
      url (infoHeader infoInterpreter) credentials :=
  lacksTime_infoScope (sampleInterpreter_loads _ _ _) (sampleInterpreter_loads_nil _ _)

/-- The equivalence at that request. -/
theorem expired_token_reaches_info_collections_sample :
    ((∃ sync, authenticated sampleHash infoInterpreter checkingFramework sampleApp (infoScope infoInterpreter) =
        some (.ok sync)) ↔ ∃ uid, checkingFramework.route (infoScope infoInterpreter) = some ⟨uid, .infoCollections⟩) ↔
      ¬∃ uid, checkingFramework.route (infoScope infoInterpreter) = some ⟨uid, .infoCollections⟩ := by
  refine expired_token_reaches_info_collections checkingFramework_checksHosts rfl fun uid handler hroute _ => ?_
  have hmatch : checkingFramework.route (infoScope infoInterpreter) = some ⟨1, .infoCollections⟩ := rfl
  rw [hmatch] at hroute
  cases hroute
  obtain ⟨url, credentials, hlacks⟩ := lacksTime_infoInterpreter
  exact ⟨url, _, credentials, hlacks⟩

/-- The route that an expired token is to reach is closed to it. -/
theorem info_collections_refused :
    (∃ url header credentials, LacksTime sampleHash infoInterpreter checkingFramework sampleApp (infoScope infoInterpreter) 1
      false url header credentials) ∧
    checkingFramework.route (infoScope infoInterpreter) = some ⟨1, .infoCollections⟩ ∧
    ¬∃ sync, authenticated sampleHash infoInterpreter checkingFramework sampleApp (infoScope infoInterpreter) =
      some (.ok sync) := by
  obtain ⟨url, credentials, hlacks⟩ := lacksTime_infoInterpreter
  exact ⟨⟨url, _, credentials, hlacks⟩, rfl, not_authenticated_of_lacksTime checkingFramework_checksHosts rfl rfl hlacks⟩

end FxaLite.SyncStorage
