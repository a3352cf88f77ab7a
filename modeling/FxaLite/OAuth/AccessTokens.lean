import FxaLite.Crypto.Signing
import FxaLite.OAuth.CodeBinding

/-!
# Access tokens

An access token is a JWT of its claims and nothing else: no row records it. What reads one,
`/verify` and `/introspect` here, knows of it what the signing keys accept and what the claims
say. A token that the server answers with says there what the response said, until it expires,
also after the key that signed it has been retired.
-/

namespace FxaLite.OAuth

open FxaLite.Accounts FxaLite.Crypto Concurrent

/-! ### The claims -/

/-- A string among the claims. -/
def claimText (text : String) : Json := .str (Points.ofString text)

/-- An integer among the claims. -/
def claimInt (n : ℤ) : Json := .number n

/-- `if value: claims[name] = value`. -/
def optionalClaim (name : String) (value : Option Json) : Members := value.toList.map fun value => (Points.ofString name, value)

/-- The claims of `_access_token`, as it writes them. -/
def AccessToken.claims (token : AccessToken) : Members :=
  [(Points.ofString "aud", claimText token.aud), (Points.ofString "client_id", claimText token.clientId),
    (Points.ofString "exp", claimInt token.exp), (Points.ofString "iat", claimInt token.iat),
    (Points.ofString "iss", claimText token.iss), (Points.ofString "jti", claimText token.jti),
    (Points.ofString "scope", claimText token.scope), (Points.ofString "sub", claimText token.sub)] ++
    optionalClaim "fxa-generation" (token.generation.map claimInt) ++
    optionalClaim "fxa-profileChangedAt" (token.profileChangedAt.map claimInt) ++
    optionalClaim "acr" (token.acr.map fun aal => claimText ("AAL" ++ toString aal)) ++
    optionalClaim "auth_time" (token.authTime.map claimInt)

/-- `ACCESS_TOKEN_TYP`. -/
def accessTokenTyp : String := "at+JWT"

/-! ### What reads them -/

/-- How a token is refused; `uncaught` is an exception that no handler expects. -/
inductive Refusal where
  | expiredToken
  | invalidToken
  | invalidCredentials
  | unauthorized (reason : String)
  | insufficientScope (scopes : List String)
  | uncaught

/-- `"expired" in text`. -/
def namesExpiry (text : List Char) : Bool := text.tails.any fun tail => "expired".toList.isPrefixOf tail

/-- `"expired" in str(exc)`; an error repeats a member of the header, in the way in which it is shown. -/
def saysExpired (shown : Option Json → List Char) : Complaint → Bool
  | .expired => true
  | .algorithm _ alg => namesExpiry (shown alg)
  | .noSigningKey kid => namesExpiry (shown kid)
  | _ => false

/-- `ScopeSet.from_string(claims.get("scope", ""))`. -/
def scopeClaim (claims : Members) : Except Refusal ScopeSet :=
  match claims.get "scope" with
  | none => .ok ∅
  | some (.str text) =>
    match text.text? with
    | none => .error .uncaught
    | some text =>
      match ScopeSet.fromString text with
      | .ok scope => .ok scope
      | .error _ => .error .uncaught
  | some _ => .error .uncaught

/-- `claims[name]`. -/
def claim (claims : Members) (name : String) : Except Refusal Json :=
  match claims.get name with
  | none => .error .uncaught
  | some value => .ok value

section Consumers

variable {rsa : Rsa} (py : PyJson) (shown : Option Json → List Char) (keys : SigningKeys rsa) (issuer : String)

/-- The type of a token whose signature is right. -/
def tokenTyp (token : List Char) : Except Refusal (Option Json) :=
  match decodeJwtHeader py.loads token with
  | .ok header => .ok (header.get "typ")
  | .error _ => .error .uncaught

/-- `_verified_access_token`. -/
def verifiedAccessToken (token : List Char) (now : ℤ) : Except Refusal Members :=
  match keys.verify py token now with
  | .error (.jwtError complaint) => .error (if saysExpired shown complaint then .expiredToken else .invalidToken)
  | .error _ => .error .uncaught
  | .ok claims => do
    let typ ← tokenTyp py token
    if !isText accessTokenTyp typ then .error .invalidToken
    else if !isText issuer (claims.get "iss") || (claims.get "sub").isNone then .error .invalidToken
    else .ok claims

/-- The response of `/verify`. -/
structure VerifyResponse where
  user : Json
  clientId : Json
  scope : List (List Char)
  generation : Option Json
  profileChangedAt : Option Json

/-- `verify`. -/
def verify (token : List Char) (now : ℤ) : Except Refusal VerifyResponse := do
  let claims ← verifiedAccessToken py shown keys issuer token now
  let user ← claim claims "sub"
  let clientId ← claim claims "client_id"
  let scope ← scopeClaim claims
  .ok ⟨user, clientId, scope.values, claims.get "fxa-generation", claims.get "fxa-profileChangedAt"⟩

/-- The response of `/introspect` for an access token that is active. -/
structure AccessTokenInfo where
  scope : Json
  clientId : Json
  iat : ℚ
  exp : ℚ
  sub : Json
  jti : Json
  acr : Option Json
  authTime : Option Json

/-- `claims[name] * 1000`, of a claim that `verify_jwt` has checked. -/
def milliseconds (claims : Members) (name : String) : Except Refusal ℚ :=
  match claims.get name with
  | some (.number value) => .ok (value * 1000)
  | _ => .error .uncaught

/-- `_describe_access_token`; a refusal that is none of the server's own escapes. -/
def describeAccessToken (token : List Char) (now : ℤ) : Except Refusal (Option AccessTokenInfo) :=
  match verifiedAccessToken py shown keys issuer token now with
  | .error .uncaught => .error .uncaught
  | .error _ => .ok none
  | .ok claims => do
    let clientId ← claim claims "client_id"
    let iat ← milliseconds claims "iat"
    let exp ← milliseconds claims "exp"
    let sub ← claim claims "sub"
    let jti ← claim claims "jti"
    .ok (some ⟨(claims.get "scope").getD (claimText ""), clientId, iat, exp, sub, jti, claims.get "acr",
      claims.get "auth_time"⟩)

/-- The response of `/introspect` for a refresh token. -/
structure RefreshTokenInfo where
  scope : String
  clientId : String
  iat : ℤ
  sub : String
  jti : String
  lastUsedAt : ℤ
  deriving DecidableEq, Repr

/-- `_describe_refresh_token`. -/
def describeRefreshToken (server : Server) (db : Db) (token : List Char) : Except Refusal (Option RefreshTokenInfo) :=
  let text := String.ofList token
  if isAscii text then
    .ok ((db.refreshToken (server.hashToken text)).map fun record =>
      ⟨record.scope, record.clientId, record.createdAt, record.uid, server.hashToken text, record.lastUsedAt⟩)
  else .error .uncaught

/-- The response of `/introspect`. -/
inductive Introspection where
  | inactive
  | accessToken (info : AccessTokenInfo)
  | refreshToken (info : RefreshTokenInfo)

/-- The first description there is. -/
def firstDescribed : List (Except Refusal (Option Introspection)) → Except Refusal Introspection
  | [] => .ok .inactive
  | described :: rest =>
    match described with
    | .error refusal => .error refusal
    | .ok (some answer) => .ok answer
    | .ok none => firstDescribed rest

/-- `introspect`. -/
def introspect (server : Server) (db : Db) (token : List Char) (tokenTypeHint : Option String) (now : ℤ) :
    Except Refusal Introspection :=
  let order := [(describeAccessToken py shown keys server.issuer token now).map (Option.map .accessToken),
    (describeRefreshToken server db token).map (Option.map .refreshToken)]
  firstDescribed (if tokenTypeHint = some "refresh_token" then order.reverse else order)

end Consumers

/-! ### What the server issues -/

section Claims

variable {token : AccessToken} {asked : String}

/-- The integers among the claims of a token. -/
def AccessToken.integers (token : AccessToken) : List ℤ :=
  token.exp :: token.iat :: (token.generation.toList ++ token.profileChangedAt.toList ++ token.authTime.toList)

/-- A claim that may be left out is under its own name. -/
theorem get_optionalClaim (name asked : String) (value : Option Json) :
    (optionalClaim name value).get asked = if Points.ofString asked = Points.ofString name then value else none := by
  cases value with
  | none => exact (ite_self none).symm
  | some value => exact get_singleton name asked value

/-- It is under no other. -/
theorem get_optionalClaim_of_ne {name asked : String} (hne : Points.ofString asked ≠ Points.ofString name)
    (value : Option Json) : (optionalClaim name value).get asked = none := by
  rw [get_optionalClaim, if_neg hne]

/-- Claims go by distinct names. -/
theorem nodup_claims (token : AccessToken) : (token.claims.map Prod.fst).Nodup := by
  have hdistinct : (["aud", "client_id", "exp", "iat", "iss", "jti", "scope", "sub", "fxa-generation",
      "fxa-profileChangedAt", "acr", "auth_time"].map Points.ofString).Nodup := by decide
  have hoptional : ∀ name value, ((optionalClaim name value).map Prod.fst).Sublist [Points.ofString name] := by
    intro name value
    cases value with
    | none => exact List.nil_sublist _
    | some value => exact List.Sublist.refl _
  refine hdistinct.sublist ?_
  simp only [AccessToken.claims, List.map_append]
  exact ((((List.Sublist.refl _).append (hoptional _ _)).append (hoptional _ _)).append (hoptional _ _)).append
    (hoptional _ _)

/-- Every one of them is a string, or an integer of the token. -/
theorem claim_of_mem_claims (hwritable : ∀ n ∈ token.integers, (Py.intStr n).isSome = true) {member : Points × Json}
    (hmember : member ∈ token.claims) : Claim member.2 := by
  have hoptional : ∀ {name : String} {value : Option Json}, (∀ json ∈ value, Claim json) →
      member ∈ optionalClaim name value → Claim member.2 := by
    intro name value hvalue hmem
    obtain ⟨json, hjson, rfl⟩ := List.mem_map.mp hmem
    exact hvalue json (Option.mem_toList.mp hjson)
  have hint : ∀ {value : Option ℤ}, value.toList ⊆ token.integers → ∀ json ∈ value.map claimInt, Claim json := by
    intro value hsub json hjson
    obtain ⟨n, hn, rfl⟩ := Option.map_eq_some_iff.mp hjson
    exact .int (hwritable n (hsub (Option.mem_toList.mpr hn)))
  simp only [AccessToken.claims, List.mem_append] at hmember
  obtain (((hmember | hgeneration) | hprofile) | hacr) | hauth := hmember
  · simp only [List.mem_cons, List.not_mem_nil, or_false] at hmember
    rcases hmember with rfl | rfl | rfl | rfl | rfl | rfl | rfl | rfl
    · exact .str _
    · exact .str _
    · exact .int (hwritable _ List.mem_cons_self)
    · exact .int (hwritable _ (List.mem_cons_of_mem _ List.mem_cons_self))
    · exact .str _
    · exact .str _
    · exact .str _
    · exact .str _
  · exact hoptional (hint fun n hn => by simp [AccessToken.integers, hn]) hgeneration
  · exact hoptional (hint fun n hn => by simp [AccessToken.integers, hn]) hprofile
  · refine hoptional (fun json hjson => ?_) hacr
    obtain ⟨aal, -, rfl⟩ := Option.map_eq_some_iff.mp hjson
    exact .str _
  · exact hoptional (hint fun n hn => by simp [AccessToken.integers, hn]) hauth

/-- The claims that are always there. -/
theorem get_claims (token : AccessToken) :
    token.claims.get "aud" = some (claimText token.aud) ∧ token.claims.get "client_id" = some (claimText token.clientId) ∧
      token.claims.get "exp" = some (claimInt token.exp) ∧ token.claims.get "iat" = some (claimInt token.iat) ∧
      token.claims.get "iss" = some (claimText token.iss) ∧ token.claims.get "jti" = some (claimText token.jti) ∧
      token.claims.get "scope" = some (claimText token.scope) ∧ token.claims.get "sub" = some (claimText token.sub) :=
  ⟨rfl, rfl, rfl, rfl, rfl, rfl, rfl, rfl⟩

/-- The claims that may be left out. -/
theorem get_optional_claims (token : AccessToken) :
    token.claims.get "fxa-generation" = token.generation.map claimInt ∧
      token.claims.get "fxa-profileChangedAt" = token.profileChangedAt.map claimInt ∧
      token.claims.get "acr" = token.acr.map (fun aal => claimText ("AAL" ++ toString aal)) ∧
      token.claims.get "auth_time" = token.authTime.map claimInt := by
  have hapart : (["fxa-generation", "fxa-profileChangedAt", "acr", "auth_time"].map Points.ofString).Nodup := by decide
  simp only [List.map_cons, List.map_nil, List.nodup_cons, List.mem_cons, List.not_mem_nil, or_false, not_or] at hapart
  obtain ⟨⟨hprofile, hacr, hauth⟩, ⟨hacr', hauth'⟩, hauth'', -⟩ := hapart
  refine ⟨?_, ?_, ?_, ?_⟩
  · rw [AccessToken.claims, get_append, get_append, get_append, get_append, get_optionalClaim_of_ne hauth,
      get_optionalClaim_of_ne hacr, get_optionalClaim_of_ne hprofile, get_optionalClaim, if_pos rfl, Option.or_none,
      Option.or_none, Option.or_none]
    rfl
  · rw [AccessToken.claims, get_append, get_append, get_append, get_append, get_optionalClaim_of_ne hauth',
      get_optionalClaim_of_ne hacr', get_optionalClaim_of_ne (Ne.symm hprofile), get_optionalClaim, if_pos rfl,
      Option.or_none, Option.or_none, Option.or_none]
    rfl
  · rw [AccessToken.claims, get_append, get_append, get_append, get_append, get_optionalClaim_of_ne hauth'',
      get_optionalClaim_of_ne (Ne.symm hacr'), get_optionalClaim_of_ne (Ne.symm hacr), get_optionalClaim, if_pos rfl,
      Option.or_none, Option.or_none]
    rfl
  · rw [AccessToken.claims, get_append, get_append, get_append, get_append, get_optionalClaim_of_ne (Ne.symm hauth''),
      get_optionalClaim_of_ne (Ne.symm hauth'), get_optionalClaim_of_ne (Ne.symm hauth), get_optionalClaim, if_pos rfl,
      Option.or_none]
    rfl

end Claims

section Grants

variable {server : Server} {ambient : Ambient} {client : Client}

/-- The scope of a grant is normal. -/
def NormalGrant (result : Except OauthError Grant) : Prop :=
  ∀ grant, result = .ok grant → ScopeSet.Normal grant.scope.scopesToImplicants

/-- The scope of a code is read, so it is normal. -/
theorem ensures_normal_authorizationCodeGrant (payload : TokenRequest) :
    (authorizationCodeGrant server ambient client payload).Ensures (fun _ => True) NormalGrant := by
  unfold authorizationCodeGrant
  split
  · exact fun grant hgrant => nomatch hgrant
  · split
    · exact fun grant hgrant => nomatch hgrant
    · refine Script.Ensures.read fun db _ => ?_
      split
      · exact fun grant hgrant => nomatch hgrant
      · unfold redeemCode
        split
        · exact fun grant hgrant => nomatch hgrant
        · exact fun grant hgrant => nomatch hgrant
        · split
          · exact fun db _ => ⟨trivial, fun grant hgrant => nomatch hgrant⟩
          · split
            · exact fun grant hgrant => nomatch hgrant
            · refine fun db _ => ⟨trivial, Script.Ensures.read fun db _ => ?_⟩
              split
              · exact fun grant hgrant => nomatch hgrant
              · intro grant hgrant
                unfold grantFromCode at hgrant
                split at hgrant
                · cases hgrant
                · rename_i hread
                  cases hgrant
                  exact ScopeSet.normal_of_fromArray hread

/-- That of a refresh token is a difference. -/
theorem ensures_normal_refreshTokenGrant (payload : TokenRequest) :
    (refreshTokenGrant server ambient client payload).Ensures (fun _ => True) NormalGrant := by
  have hdifference : ∀ {row : RefreshToken} {scope : ScopeSet}, refreshedScope client payload row = .ok scope →
      ScopeSet.Normal scope.scopesToImplicants := by
    intro row scope hscope
    unfold refreshedScope at hscope
    split at hscope
    · cases hscope
    · split at hscope
      · cases hscope
        exact ScopeSet.normal_ofScopes _
      · split at hscope
        · cases hscope
        · split at hscope
          · cases hscope
          · cases hscope
            exact ScopeSet.normal_ofScopes _
  unfold refreshTokenGrant
  split
  · exact fun grant hgrant => nomatch hgrant
  · refine Script.Ensures.read fun db _ => ?_
    split
    · exact fun grant hgrant => nomatch hgrant
    · unfold useRefreshToken
      split
      · exact fun grant hgrant => nomatch hgrant
      · exact fun grant hgrant => nomatch hgrant
      · split
        · exact fun grant hgrant => nomatch hgrant
        · rename_i scope hscope
          refine Script.Ensures.read fun db _ => ?_
          split
          · exact fun grant hgrant => nomatch hgrant
          · refine fun db _ => ⟨trivial, fun grant hgrant => ?_⟩
            cases hgrant
            exact hdifference hscope

/-- That of a session is granted of what was read. -/
theorem ensures_normal_fxaCredentialsGrant (payload : TokenRequest) :
    (fxaCredentialsGrant ambient client payload).Ensures (fun _ => True) NormalGrant := by
  unfold fxaCredentialsGrant
  split
  · exact fun grant hgrant => nomatch hgrant
  · split
    · exact fun grant hgrant => nomatch hgrant
    · split
      · exact fun grant hgrant => nomatch hgrant
      · refine ensures_optionalSessionCredentials.bind fun result _ => ?_
        cases result with
        | error raised => exact fun grant hgrant => nomatch hgrant
        | ok credentials =>
          intro grant hgrant
          unfold sessionGrant at hgrant
          split at hgrant
          · cases hgrant
          · split at hgrant
            · cases hgrant
            · rename_i hscope
              exact normal_of_validateRequestedGrant hgrant (normal_of_parseScope hscope)

/-- What a response says, and a normal scope that it says it of. -/
def Says (server : Server) (ambient : Ambient) (ttl : ℤ) (response : TokenResponse) (grant : Grant) : Prop :=
  response.accessToken = newAccessToken server ambient grant ttl ∧ response.scope = scopeText grant.scope ∧
    ScopeSet.Normal grant.scope.scopesToImplicants

/-- A token request is answered for a grant. -/
theorem ensures_says_oauthToken (payload : TokenRequest) :
    (oauthToken server payload ambient).Ensures (fun _ => True)
      fun result => ∀ response, result = .ok response → ∃ grant, Says server ambient (tokenTtl server payload) response grant := by
  unfold oauthToken
  split
  · exact fun response hresponse => nomatch hresponse
  · rename_i client _
    split
    · exact fun response hresponse => nomatch hresponse
    · have hgrant : (requestGrant server ambient client payload).Ensures (fun _ => True) NormalGrant := by
        unfold requestGrant
        split
        · exact ensures_normal_authorizationCodeGrant payload
        · split
          · exact ensures_normal_refreshTokenGrant payload
          · split
            · exact ensures_normal_fxaCredentialsGrant payload
            · exact fun grant hgrant => nomatch hgrant
      refine hgrant.andThen fun grant hnormal => ?_
      unfold generateTokens
      split
      · intro db _
        dsimp only
        split
        · refine ⟨trivial, fun response hresponse => ?_⟩
          cases hresponse
          exact ⟨grant, rfl, rfl, hnormal⟩
        · exact ⟨trivial, fun response hresponse => nomatch hresponse⟩
      · intro response hresponse
        cases hresponse
        exact ⟨grant, rfl, rfl, hnormal⟩

end Grants

/-! ### What is read of it -/

section Reading

variable {rsa : Rsa} {py : PyJson} {signers keys : SigningKeys rsa} {server : Server} {response : TokenResponse}
  {token : List Char}

/-- A token that a response carries: a request is answered with the response, and the token is its claims, signed.
The integers among them can be written, and the token is not too long to be read. -/
structure Issued (py : PyJson) (signers : SigningKeys rsa) (server : Server) (response : TokenResponse)
    (token : List Char) : Prop where
  answered : ∃ db payload ambient, ((oauthToken server payload ambient).exec db).1 = .ok response
  signed : signers.sign py response.accessToken.claims accessTokenTyp = .ok token
  writable : ∀ n ∈ response.accessToken.integers, (Py.intStr n).isSome = true
  length_le : token.length ≤ maxJwtLength

/-- What its response says. -/
theorem Issued.says (h : Issued py signers server response token) :
    ∃ ambient ttl grant, Says server ambient ttl response grant := by
  obtain ⟨db, payload, ambient, hanswer⟩ := h.answered
  obtain ⟨grant, hgrant⟩ := ((ensures_says_oauthToken payload).exec (s := db) trivial).1 response hanswer
  exact ⟨ambient, _, grant, hgrant⟩

/-- The keys return its claims, until it expires. -/
theorem Issued.verify_eq (h : Issued py signers server response token) (hdecimal : py.Decimal)
    (haccepts : keys.Accepts signers) (now : ℤ) : keys.verify py token now =
      if now < response.accessToken.exp then .ok response.accessToken.claims else .error (.jwtError .expired) := by
  obtain ⟨-, -, hexp, hiat, -⟩ := get_claims response.accessToken
  have hexpires : numericDate response.accessToken.claims "exp" = .ok (some (response.accessToken.exp : ℚ)) :=
    numericDate_eq_ok.mpr hexp
  have hissued : numericDate response.accessToken.claims "iat" = .ok (some (response.accessToken.iat : ℚ)) :=
    numericDate_eq_ok.mpr hiat
  have htimes : (response.accessToken.exp : ℚ) + ((0 : ℤ) : ℚ) ≤ (((some now).getD now : ℤ) : ℚ) ↔
      ¬now < response.accessToken.exp := by
    rw [Int.cast_zero, add_zero, Option.getD_some, Int.cast_le, not_lt]
  rw [SigningKeys.verify, verifyJwt_signJwt hdecimal (nodup_claims _) (List.cons_ne_nil _ _)
    (fun member hmember => claim_of_mem_claims h.writable hmember) h.signed h.length_le haccepts, checkTimes, hexpires,
    hissued]
  simp only [Fallible.ok_bind, htimes, ite_not]

/-- It is of the type of access tokens. -/
theorem Issued.tokenTyp_eq (h : Issued py signers server response token) (hdecimal : py.Decimal) :
    tokenTyp py token = .ok (some (.ofText accessTokenTyp.toList)) := by
  rw [tokenTyp, decodeJwtHeader_signJwt hdecimal h.signed h.length_le]
  rfl

/-- The server's own check passes it, until it expires. -/
theorem Issued.verifiedAccessToken_eq (h : Issued py signers server response token) (hdecimal : py.Decimal)
    (haccepts : keys.Accepts signers) (shown : Option Json → List Char) (now : ℤ) :
    verifiedAccessToken py shown keys server.issuer token now =
      if now < response.accessToken.exp then .ok response.accessToken.claims else .error .expiredToken := by
  obtain ⟨ambient, ttl, grant, htoken, -, -⟩ := h.says
  have hiss : isText server.issuer (response.accessToken.claims.get "iss") = true := by
    rw [isText_eq_true, htoken]
    rfl
  have hsub : (response.accessToken.claims.get "sub").isNone = false := rfl
  have htyp : isText accessTokenTyp (some (.ofText accessTokenTyp.toList)) = true := rfl
  rw [verifiedAccessToken, h.verify_eq hdecimal haccepts now]
  by_cases hnow : now < response.accessToken.exp
  · rw [if_pos hnow, if_pos hnow]
    simp only [h.tokenTyp_eq hdecimal, Fallible.ok_bind, htyp, hiss, hsub, Bool.not_true, Bool.or_false,
      Bool.false_eq_true, if_false]
  · rw [if_neg hnow, if_neg hnow]
    rfl

/-- The scope is read as it is in the response, and the audience goes by it. -/
theorem Issued.scopeClaim_eq (h : Issued py signers server response token) :
    ∃ scope, scopeClaim response.accessToken.claims = .ok scope ∧ readScope response.scope = .ok scope ∧
      scopeText scope = response.scope ∧ response.accessToken.aud =
        if scope.contains oldsync then server.tokenserverUrl else response.accessToken.clientId := by
  obtain ⟨ambient, ttl, grant, htoken, hscope, hnormal⟩ := h.says
  have hget : response.accessToken.claims.get "scope" = some (.str (Points.ofString (scopeText grant.scope))) := by
    rw [htoken]
    rfl
  have htext : (Points.ofString (scopeText grant.scope)).text? = some grant.scope.str := by
    rw [Points.ofString, Points.text?_map_toNat, scopeText, String.toList_ofList]
  have hread := grant.scope.fromString_str_eq
  have hsame : ∀ asked, (ScopeSet.ofScopes grant.scope.scopesToImplicants).contains asked = grant.scope.contains asked := by
    intro asked
    rw [Bool.eq_iff_iff, ScopeSet.contains_iff, ScopeSet.contains_iff, ScopeSet.grants_ofScopes]
    rfl
  refine ⟨ScopeSet.ofScopes grant.scope.scopesToImplicants, by simp only [scopeClaim, hget, htext, hread], ?_, ?_, ?_⟩
  · rw [hscope, readScope, scopeText, String.toList_ofList, hread]
  · rw [hscope, scopeText, ScopeSet.str_of_fromString_str hnormal hread, scopeText]
  · rw [htoken, hsame]
    rfl

/-- It is ASCII. -/
theorem Issued.isAscii_token (h : Issued py signers server response token) : isAscii (String.ofList token) = true := by
  rw [isAscii, String.toList_ofList, List.all_eq_true]
  intro c hc
  have hrange := toNat_of_mem_signJwt h.signed hc
  exact decide_eq_true (by omega)

/-- What is introspected of a token that is no refresh token is what its claims come to. -/
theorem introspect_of_described {shown : Option Json → List Char} {db : Db} {now : ℤ} {answer : Option AccessTokenInfo}
    (hascii : isAscii (String.ofList token) = true)
    (hfree : db.refreshToken (server.hashToken (String.ofList token)) = none)
    (hdescribed : describeAccessToken py shown keys server.issuer token now = .ok answer) (hint : Option String) :
    introspect py shown keys server db token hint now = .ok ((answer.map .accessToken).getD .inactive) := by
  have hrefresh : describeRefreshToken server db token = .ok none := by
    rw [describeRefreshToken, if_pos hascii, hfree]
    rfl
  unfold introspect
  rw [hdescribed, hrefresh]
  split
  · cases answer <;> rfl
  · cases answer <;> rfl

/-- What a response says of its access token, `/verify` and `/introspect` say until it expires, whichever of the
keys of the server signed it; from then on the one calls it expired and the other inactive. -/
theorem access_token_read (hdecimal : py.Decimal) (hissued : Issued py signers server response token)
    (haccepts : keys.Accepts signers) (shown : Option Json → List Char) (now : ℤ) :
    let claims := response.accessToken
    (now < claims.exp →
      (∃ scope, String.ofList ([' '].intercalate scope) = response.scope ∧
        verify py shown keys server.issuer token now = .ok ⟨claimText claims.sub, claimText claims.clientId, scope,
          claims.generation.map claimInt, claims.profileChangedAt.map claimInt⟩) ∧
      ∀ db hint, db.refreshToken (server.hashToken (String.ofList token)) = none →
        introspect py shown keys server db token hint now = .ok (.accessToken ⟨claimText response.scope,
          claimText claims.clientId, claims.iat * 1000, claims.exp * 1000, claimText claims.sub, claimText claims.jti,
          claims.acr.map fun aal => claimText ("AAL" ++ toString aal), claims.authTime.map claimInt⟩)) ∧
    (claims.exp ≤ now →
      verify py shown keys server.issuer token now = .error .expiredToken ∧
      ∀ db hint, db.refreshToken (server.hashToken (String.ofList token)) = none →
        introspect py shown keys server db token hint now = .ok .inactive) := by
  intro claims
  have hchecked := hissued.verifiedAccessToken_eq hdecimal haccepts shown now
  refine ⟨fun hnow => ?_, fun hnow => ?_⟩
  · rw [if_pos hnow] at hchecked
    obtain ⟨scope, hscope, -, htext, -⟩ := hissued.scopeClaim_eq
    obtain ⟨hgeneration, hprofile, hacr, hauth⟩ := get_optional_claims claims
    refine ⟨⟨scope.values, htext, ?_⟩, fun db hint hfree => ?_⟩
    · have hsub : claim claims.claims "sub" = .ok (claimText claims.sub) := rfl
      have hclient : claim claims.claims "client_id" = .ok (claimText claims.clientId) := rfl
      simp only [verify, hchecked, Fallible.ok_bind, hsub, hclient, hscope, hgeneration, hprofile, claims]
    · obtain ⟨ambient, ttl, grant, htoken, hsaid, -⟩ := hissued.says
      have hscopeText : response.accessToken.scope = response.scope := by rw [htoken, hsaid]; rfl
      have hdescribed : describeAccessToken py shown keys server.issuer token now = .ok (some ⟨claimText response.scope,
          claimText claims.clientId, claims.iat * 1000, claims.exp * 1000, claimText claims.sub, claimText claims.jti,
          claims.acr.map fun aal => claimText ("AAL" ++ toString aal), claims.authTime.map claimInt⟩) := by
        rw [← hscopeText, ← hacr, ← hauth, describeAccessToken, hchecked]
        rfl
      exact introspect_of_described hissued.isAscii_token hfree hdescribed hint
  · rw [if_neg (not_lt.mpr hnow)] at hchecked
    refine ⟨by rw [verify, hchecked]; rfl, fun db hint hfree => ?_⟩
    exact introspect_of_described hissued.isAscii_token hfree (by rw [describeAccessToken, hchecked]) hint

end Reading

/-- The keys of a small server. -/
def smallKeys : SigningKeys openRsa := ⟨(), Points.ofString "20260101-00000000", none, by simp⟩

theorem small_scope_isSome : (ScopeSet.fromArray (["profile"].map String.toList)).toOption.isSome = true := by decide

/-- What the exchange of its code is answered with. -/
def smallResponse : TokenResponse where
  accessToken := newAccessToken smallServer (presented ⟨0, Nat.zero_lt_two⟩).2
    ⟨browser "5882386c6d801776" "https://accounts.example", "u", "u@accounts.example", .ofValues ["profile"] small_scope_isSome,
      1, 1, 1, 1, 1, none, none, true, []⟩ 21600
  scope := "profile"
  expiresIn := 21600
  authAt := some 1
  keysJwe := none
  refreshToken := some "1111111111111111111111111111111111111111111111111111111111111111"

/-- It carries a token. -/
theorem small_issued : ∃ token, smallKeys.sign decimalPython smallResponse.accessToken.claims accessTokenTyp = .ok token ∧
    Issued decimalPython smallKeys smallServer smallResponse token := by
  have hsigned : ((smallKeys.sign decimalPython smallResponse.accessToken.claims accessTokenTyp).toOption.any
      fun token => token.length ≤ maxJwtLength) = true := by decide +kernel
  obtain ⟨token, htoken, hlength⟩ := Option.any_eq_true _ _ |>.mp hsigned
  have hanswer : ((oauthToken smallServer (presented 0).1 (presented 0).2).exec oneCode).1.toOption = some smallResponse := by
    decide
  exact ⟨token, Fallible.toOption_eq_some.mp htoken, ⟨⟨oneCode, _, _, Fallible.toOption_eq_some.mp hanswer⟩,
    Fallible.toOption_eq_some.mp htoken, by decide, of_decide_eq_true hlength⟩⟩

/-- Its token is read until it expires. -/
theorem small_access_token_read :
    ∃ token, smallKeys.sign decimalPython smallResponse.accessToken.claims accessTokenTyp = .ok token ∧
      (∃ scope, String.ofList ([' '].intercalate scope) = "profile" ∧
        verify decimalPython (fun _ => []) smallKeys smallServer.issuer token 21601 =
          .ok ⟨claimText "u", claimText "5882386c6d801776", scope, some (claimInt 1), some (claimInt 1)⟩) ∧
      verify decimalPython (fun _ => []) smallKeys smallServer.issuer token 21602 = .error .expiredToken := by
  obtain ⟨token, htoken, hissued⟩ := small_issued
  have hread := access_token_read decimal_decimalPython hissued smallKeys.accepts_self (fun _ => [])
  exact ⟨token, htoken, ((hread 21601).1 (by decide)).1, ((hread 21602).2 (by decide)).1⟩

end FxaLite.OAuth
