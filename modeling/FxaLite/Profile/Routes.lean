import FxaLite.OAuth.AccessTokens

/-!
# The profile server

`profile/__init__.py`: an access token is checked against the signing keys, its account is read, and each
route tells what the scope of the token allows. What the scope hides makes no difference to any answer, not
even to the picture; what it allows is told.
-/

namespace FxaLite.Profile

open FxaLite.OAuth FxaLite.Crypto

/-- What is shown of an account. -/
structure Account where
  uid : String
  email : String
  locale : Option String
  deriving DecidableEq, Repr

/-- `Database.account`: the row of a uid, and what SQLite makes of a `sub` that is no text. -/
structure Accounts where
  find? : String → Option Account
  uid_eq : ∀ uid account, find? uid = some account → account.uid = uid
  other : Json → Except Refusal (Option Account)

/-- `Database.account`, of the `sub` among the claims. -/
def Accounts.account (accounts : Accounts) : Option Json → Except Refusal (Option Account)
  | none => .ok (accounts.find? "")
  | some (.str text) =>
    match text.text? with
    | none => .error .uncaught
    | some uid => .ok (accounts.find? (String.ofList uid))
  | some other => accounts.other other

/-- `EMAIL_SCOPES`. -/
def emailScopes : List String := ["profile:email", "email"]

/-- `UID_SCOPES`. -/
def uidScopes : List String := ["profile:uid"]

/-- `DISPLAY_NAME_SCOPES`. -/
def displayNameScopes : List String := ["profile:display_name"]

/-- `AVATAR_SCOPES`. -/
def avatarScopes : List String := ["profile:avatar"]

/-- `DEFAULT_MONOGRAM`. -/
def defaultMonogram : String := "default"

/-- `ScopeSet.contains`, of a scope of this module. -/
def containsValue (scope : ScopeSet) (value : String) : Bool := (readScope value).toOption.any scope.contains

/-- `TokenCredentials`; no route reads the client. -/
structure TokenCredentials where
  account : Account
  scope : ScopeSet

/-- `openid`. -/
def TokenCredentials.openid (credentials : TokenCredentials) : Bool := containsValue credentials.scope "openid"

/-- `allows`. -/
def TokenCredentials.allows (credentials : TokenCredentials) (scopes : List String) : Bool :=
  scopes.any (containsValue credentials.scope)

/-- `require`. -/
def TokenCredentials.require (credentials : TokenCredentials) (scopes : List String) : Except Refusal Unit :=
  if credentials.allows scopes then .ok () else .error (.insufficientScope scopes)

/-- The document of `/profile`. -/
structure Document where
  uid : Option String
  email : Option String
  locale : Option (Option String)
  amrValues : Option (List String)
  twoFactorAuthentication : Option Bool
  sub : Option String
  avatar : Option String
  avatarDefault : Option Bool
  metricsEnabled : Bool
  deriving DecidableEq, Repr

/-- A member that stands in the document on a condition. -/
def gated {α : Type} (allowed : Bool) (value : α) : Option α := if allowed then some value else none

/-- `Config.url`, of a path that begins with a slash. -/
def urlOf (publicUrl path : String) : String := publicUrl ++ "/" ++ path

/-- The monogram of `_avatar_url`. -/
def monogram (credentials : TokenCredentials) : String :=
  if credentials.allows emailScopes then
    ((credentials.account.email.toList.find? Url.isAlnum).map fun c => String.ofList [c]).getD defaultMonogram
  else defaultMonogram

/-- `_avatar_url`. -/
def avatarUrl (publicUrl : String) (credentials : TokenCredentials) : String :=
  urlOf publicUrl ("profile/v1/avatar/" ++ monogram credentials)

/-- `profile`. -/
def profile (publicUrl : String) (credentials : TokenCredentials) : Document where
  uid := gated (credentials.allows uidScopes || containsValue credentials.scope "profile") credentials.account.uid
  email := gated (credentials.allows emailScopes) credentials.account.email
  locale := gated (containsValue credentials.scope "profile:locale") credentials.account.locale
  amrValues := gated (containsValue credentials.scope "profile:amr") ["pwd", "email"]
  twoFactorAuthentication := gated (containsValue credentials.scope "profile:amr") false
  sub := gated credentials.openid credentials.account.uid
  avatar := gated (credentials.allows avatarScopes) (avatarUrl publicUrl credentials)
  avatarDefault := gated (credentials.allows avatarScopes) true
  metricsEnabled := false

/-- The routes that ask for a token. -/
inductive Route where
  | profile
  | email
  | uid
  | displayName
  deriving DecidableEq, Repr

/-- What they answer. -/
inductive Answer where
  | document (document : Document)
  | email (email : String)
  | uid (uid : String)
  | noContent
  deriving DecidableEq, Repr

/-- What a route answers to credentials. -/
def answer (publicUrl : String) (credentials : TokenCredentials) : Route → Except Refusal Answer
  | .profile => .ok (.document (profile publicUrl credentials))
  | .email => do
    credentials.require emailScopes
    .ok (.email credentials.account.email)
  | .uid => do
    credentials.require uidScopes
    .ok (.uid credentials.account.uid)
  | .displayName => do
    credentials.require displayNameScopes
    .ok .noContent

section Requests

variable {rsa : Rsa} (py : PyJson) (keys : SigningKeys rsa) (publicUrl : String) (accounts : Accounts)

/-- The token of an `Authorization` header. -/
def bearerToken (header : Option (List Char)) : Except Refusal (List Char) :=
  let header := header.getD []
  if "bearer ".toList.isPrefixOf (Py.lower header) then .ok (Py.strip (header.drop 7))
  else .error (.unauthorized "Bearer token not provided")

/-- `oauth_credentials`, once the signature was checked. -/
def claimsCredentials (typ : Option Json) (claims : Members) : Except Refusal TokenCredentials :=
  if !isText accessTokenTyp typ then .error (.unauthorized "Not an access token")
  else if !isText publicUrl (claims.get "iss") then .error (.unauthorized "Wrong issuer")
  else
    match accounts.account (claims.get "sub") with
    | .error refusal => .error refusal
    | .ok none => .error (.unauthorized "Unknown account")
    | .ok (some account) => (scopeClaim claims).map fun scope => ⟨account, scope⟩

/-- `oauth_credentials`. -/
def oauthCredentials (header : Option (List Char)) (now : ℤ) : Except Refusal TokenCredentials := do
  let token ← bearerToken header
  match keys.verify py token now with
  | .error (.jwtError _) => .error (.unauthorized "Invalid token")
  | .error _ => .error .uncaught
  | .ok claims => do
    let typ ← tokenTyp py token
    claimsCredentials publicUrl accounts typ claims

/-- A route. -/
def serve (route : Route) (header : Option (List Char)) (now : ℤ) : Except Refusal Answer := do
  let credentials ← oauthCredentials py keys publicUrl accounts header now
  answer publicUrl credentials route

end Requests

/-! ### What is told -/

section Told

variable {scope : ScopeSet} {publicUrl : String} {credentials : TokenCredentials} {account account' : Account}

/-- Two rows, or none, that agree on what a scope shows. -/
def Alike (scope : ScopeSet) : Option Account → Option Account → Prop
  | none, none => True
  | some account, some account' =>
    (emailScopes.any (containsValue scope) = true → account.email = account'.email) ∧
      (containsValue scope "profile:locale" = true → account.locale = account'.locale)
  | _, _ => False

/-- A route that requires a scope answers where it is allowed. -/
theorem require_bind {α : Type} {scopes : List String} {value : Except Refusal α} :
    (credentials.require scopes >>= fun _ => value) =
      if credentials.allows scopes then value else .error (.insufficientScope scopes) := by
  unfold TokenCredentials.require
  split <;> rfl

/-- What may be shown may differ, and what may not does not matter. -/
theorem gated_congr {α : Type} {allowed : Bool} {value value' : α} : gated allowed value = gated allowed value' ↔
    (allowed = true → value = value') := by
  cases allowed <;> simp [gated]

/-- What is allowed is a matter of the scope. -/
theorem allows_mk (account : Account) (scopes : List String) :
    (⟨account, scope⟩ : TokenCredentials).allows scopes = scopes.any (containsValue scope) := rfl

/-- An initial is a fact about the address, and is told only with it. -/
theorem monogram_congr (h : emailScopes.any (containsValue scope) = true → account.email = account'.email) :
    monogram ⟨account, scope⟩ = monogram ⟨account', scope⟩ := by
  rw [monogram, monogram, allows_mk, allows_mk]
  by_cases hallowed : emailScopes.any (containsValue scope) = true
  · rw [if_pos hallowed, if_pos hallowed, h hallowed]
  · rw [if_neg hallowed, if_neg hallowed]

/-- The document tells as much as its scope shows. -/
theorem profile_congr (huid : account.uid = account'.uid) : profile publicUrl ⟨account, scope⟩ = profile publicUrl ⟨account', scope⟩ ↔
    Alike scope (some account) (some account') := by
  constructor
  · intro h
    exact ⟨gated_congr.mp (congrArg Document.email h), gated_congr.mp (congrArg Document.locale h)⟩
  · rintro ⟨hemail, hlocale⟩
    rw [profile, profile, Document.mk.injEq]
    refine ⟨gated_congr.mpr fun _ => huid, gated_congr.mpr hemail, gated_congr.mpr hlocale, rfl, rfl, gated_congr.mpr fun _ => huid,
      gated_congr.mpr fun _ => ?_, rfl, rfl⟩
    rw [avatarUrl, avatarUrl, monogram_congr hemail]

/-- Two rows of one account are told apart exactly by what the scope shows. -/
theorem answer_congr (huid : account.uid = account'.uid) :
    (∀ route, answer publicUrl ⟨account, scope⟩ route = answer publicUrl ⟨account', scope⟩ route) ↔
      Alike scope (some account) (some account') := by
  constructor
  · intro h
    have hdocument := h .profile
    rw [answer, answer, Except.ok.injEq, Answer.document.injEq] at hdocument
    exact (profile_congr huid).mp hdocument
  · intro halike route
    cases route with
    | profile => rw [answer, answer, (profile_congr huid).mpr halike]
    | email =>
      rw [answer, answer, require_bind, require_bind, allows_mk, allows_mk]
      by_cases hallowed : emailScopes.any (containsValue scope) = true
      · rw [if_pos hallowed, if_pos hallowed, halike.1 hallowed]
      · rw [if_neg hallowed, if_neg hallowed]
    | uid =>
      rw [answer, answer, huid]
      rfl
    | displayName => rfl

end Told

/-! ### Tokens that were issued -/

section Issued

variable {rsa : Rsa} {py : PyJson} {signers keys : SigningKeys rsa} {server : Server} {response : TokenResponse}
  {token scheme : List Char}

/-- A token that is issued is found in a header, whatever the case of the scheme. -/
theorem bearerToken_eq (h : Issued py signers server response token) (hscheme : Py.lower scheme = "bearer".toList) :
    bearerToken (some (scheme ++ ' ' :: token)) = .ok token := by
  have hlength : scheme.length = 6 := by
    have hlower := congrArg List.length hscheme
    rwa [Py.lower, List.length_map] at hlower
  have hstrip : Py.strip token = token := by
    refine Py.strip_eq_self fun c hc => ?_
    have hrange := toNat_of_mem_signJwt h.signed hc
    simp only [Py.isSpace, Bool.or_eq_false_iff, Bool.and_eq_false_iff, decide_eq_false_iff_not, beq_eq_false_iff_ne]
    omega
  have hprefix : "bearer ".toList.isPrefixOf (Py.lower (scheme ++ ' ' :: token)) = true := by
    rw [List.isPrefixOf_iff_prefix]
    refine ⟨Py.lower token, ?_⟩
    have happend : Py.lower (scheme ++ ' ' :: token) = Py.lower scheme ++ ' ' :: Py.lower token := by
      simp only [Py.lower, List.map_append, List.map_cons]
      rfl
    rw [happend, hscheme]
    rfl
  have hdrop : (scheme ++ ' ' :: token).drop 7 = token := by
    rw [show (7 : ℕ) = scheme.length + 1 by rw [hlength], ← List.drop_drop, List.drop_left]
    rfl
  simp only [bearerToken, Option.getD_some, hprefix, if_true, hdrop, hstrip]

/-- Until it expires it is a credential for its account, if that is still there, with the scope of the response. -/
theorem oauthCredentials_eq (h : Issued py signers server response token) (hdecimal : py.Decimal) (haccepts : keys.Accepts signers)
    (hscheme : Py.lower scheme = "bearer".toList) :
    ∃ scope, readScope response.scope = .ok scope ∧ ∀ (accounts : Accounts) (now : ℤ),
      oauthCredentials py keys server.issuer accounts (some (scheme ++ ' ' :: token)) now =
        if now < response.accessToken.exp then
          (accounts.find? response.accessToken.sub).elim (.error (.unauthorized "Unknown account")) fun account => .ok ⟨account, scope⟩
        else .error (.unauthorized "Invalid token") := by
  obtain ⟨scope, hclaim, hread, -, -⟩ := h.scopeClaim_eq
  obtain ⟨ambient, ttl, grant, htoken, -, -⟩ := h.says
  refine ⟨scope, hread, fun accounts now => ?_⟩
  have hiss : isText server.issuer (response.accessToken.claims.get "iss") = true := by
    rw [isText_eq_true, htoken]
    rfl
  have hsub : accounts.account (response.accessToken.claims.get "sub") = .ok (accounts.find? response.accessToken.sub) := by
    have hget : response.accessToken.claims.get "sub" = some (.str (Points.ofString response.accessToken.sub)) := rfl
    rw [hget, Accounts.account, Points.ofString, Points.text?_map_toNat]
    simp
  have htyp : isText accessTokenTyp (some (.ofText accessTokenTyp.toList)) = true := rfl
  rw [oauthCredentials, bearerToken_eq h hscheme, Fallible.ok_bind, h.verify_eq hdecimal haccepts now]
  by_cases hnow : now < response.accessToken.exp
  · rw [if_pos hnow, if_pos hnow]
    simp only [h.tokenTyp_eq hdecimal, Fallible.ok_bind, claimsCredentials, htyp, hiss, hsub, hclaim, Bool.not_true, Bool.false_eq_true,
      if_false]
    cases accounts.find? response.accessToken.sub <;> rfl
  · rw [if_neg hnow, if_neg hnow]

/-- Whatever row an account has and whatever rows others have: the routes answer an access token that was issued
alike in two databases exactly if it has expired, or the account is in neither, or in both with what the granted
scope shows. -/
theorem scope_tells (hdecimal : py.Decimal) (hissued : Issued py signers server response token) (haccepts : keys.Accepts signers)
    (hscheme : Py.lower scheme = "bearer".toList) :
    ∃ scope, readScope response.scope = .ok scope ∧ ∀ (accounts accounts' : Accounts) (now : ℤ),
      (∀ route, serve py keys server.issuer accounts route (some (scheme ++ ' ' :: token)) now =
        serve py keys server.issuer accounts' route (some (scheme ++ ' ' :: token)) now) ↔
      response.accessToken.exp ≤ now ∨
        Alike scope (accounts.find? response.accessToken.sub) (accounts'.find? response.accessToken.sub) := by
  obtain ⟨scope, hread, hcredentials⟩ := oauthCredentials_eq hissued hdecimal haccepts hscheme
  refine ⟨scope, hread, fun accounts accounts' now => ?_⟩
  simp only [serve, hcredentials]
  by_cases hnow : now < response.accessToken.exp
  · rw [or_iff_right (not_le.mpr hnow)]
    simp only [if_pos hnow]
    cases hfind : accounts.find? response.accessToken.sub with
    | none =>
      cases hfind' : accounts'.find? response.accessToken.sub with
      | none => exact iff_of_true (fun _ => rfl) trivial
      | some account' =>
        refine iff_of_false (fun h => ?_) id
        have hraised := h .profile
        cases hraised
    | some account =>
      cases hfind' : accounts'.find? response.accessToken.sub with
      | none =>
        refine iff_of_false (fun h => ?_) id
        have hraised := h .profile
        cases hraised
      | some account' => exact answer_congr ((accounts.uid_eq _ _ hfind).trans (accounts'.uid_eq _ _ hfind').symm)
  · simp only [if_neg hnow]
    exact iff_of_true (fun _ => trivial) (Or.inl (not_lt.mp hnow))

end Issued

/-- An account table that knows of one account. -/
def knowing (account : Account) : Accounts where
  find? uid := if uid = account.uid then some account else none
  uid_eq uid found h := by
    split at h
    · rename_i huid
      cases h
      exact huid.symm
    · cases h
  other _ := .error .uncaught

/-- A small server's token shows the address of its account: another address is another answer. -/
theorem small_scope_tells : ∃ token, smallKeys.sign decimalPython smallResponse.accessToken.claims accessTokenTyp = .ok token ∧
    ∃ scope, readScope "profile" = .ok scope ∧
      ((∀ route, serve decimalPython smallKeys smallServer.issuer (knowing ⟨"u", "a@b", none⟩) route
            (some ("Bearer".toList ++ ' ' :: token)) 21601 =
          serve decimalPython smallKeys smallServer.issuer (knowing ⟨"u", "c@d", none⟩) route
            (some ("Bearer".toList ++ ' ' :: token)) 21601) ↔
        smallResponse.accessToken.exp ≤ 21601 ∨
          Alike scope ((knowing ⟨"u", "a@b", none⟩).find? smallResponse.accessToken.sub)
            ((knowing ⟨"u", "c@d", none⟩).find? smallResponse.accessToken.sub)) := by
  obtain ⟨token, htoken, hissued⟩ := small_issued
  obtain ⟨scope, hscope, htells⟩ := @scope_tells openRsa decimalPython smallKeys smallKeys smallServer smallResponse token
    "Bearer".toList decimal_decimalPython hissued smallKeys.accepts_self (by decide)
  exact ⟨token, htoken, scope, hscope, htells _ _ 21601⟩

end FxaLite.Profile
