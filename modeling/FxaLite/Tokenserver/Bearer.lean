import FxaLite.OAuth.AccessTokens
import FxaLite.Tokenserver.Users

/-!
# Access tokens at the tokenserver

The tokenserver checks an access token against the signing keys itself, and more of it than
`/verify` does: whom it is for, and that it may be spent for Sync. The server names the
tokenserver as the audience exactly of the tokens that may.
-/

namespace FxaLite.Tokenserver

open FxaLite.OAuth FxaLite.Crypto

/-- How a request fails before its user is looked for: a refusal, or an exception that no handler expects. -/
inductive Failure where
  | raised (raised : Raised)
  | uncaught
  deriving DecidableEq, Repr

section Requests

variable {rsa : Rsa} (py : PyJson) (keys : SigningKeys rsa) (server : Server)

/-- The token of an `Authorization` header. -/
def bearerToken (authorization : Option (List Char)) : Except Failure (List Char) :=
  let parts := Py.partition ' ' (authorization.getD [])
  if parts.2.2 = [] || Py.lower parts.1 ≠ "bearer".toList then .error (.raised invalidCredentials)
  else .ok (Py.strip parts.2.2)

/-- A value is a string with something in it. -/
def isNonemptyText : Option Json → Bool
  | some (.str text) => text ≠ []
  | _ => false

/-- The checks on the claims of a token that is verified. -/
def checkClaims (claims : Members) : Except Failure Members :=
  if !isText server.issuer (claims.get "iss") || !isText server.tokenserverUrl (claims.get "aud") then
    .error (.raised invalidCredentials)
  else if !isNonemptyText (claims.get "sub") then .error (.raised invalidCredentials)
  else
    match scopeClaim claims with
    | .error _ => .error .uncaught
    | .ok scope => if scope.contains oldsync then .ok claims else .error (.raised invalidCredentials)

/-- `_verified_access_token`. -/
def verifiedAccessToken (authorization : Option (List Char)) (now : ℤ) : Except Failure Members := do
  let token ← bearerToken authorization
  match keys.verify py token now with
  | .error (.jwtError _) => .error (.raised invalidCredentials)
  | .error _ => .error .uncaught
  | .ok claims =>
    match decodeJwtHeader py.loads token with
    | .error _ => .error .uncaught
    | .ok header =>
      if !isText accessTokenTyp (header.get "typ") then .error (.raised invalidCredentials)
      else checkClaims server claims

end Requests

section Issued

variable {rsa : Rsa} {py : PyJson} {signers keys : SigningKeys rsa} {server : Server} {response : TokenResponse}
  {token scheme : List Char}

/-- A token that is issued is found in a header. -/
theorem bearerToken_eq (h : Issued py signers server response token) (hscheme : Py.lower scheme = "bearer".toList) :
    bearerToken (some (scheme ++ ' ' :: token)) = .ok token := by
  have hspace : ' ' ∉ scheme := by
    intro hmem
    have hlower : ' ' ∈ Py.lower scheme := List.mem_map.mpr ⟨' ', hmem, rfl⟩
    rw [hscheme] at hlower
    exact absurd hlower (by decide)
  have hne : token ≠ [] := by
    rintro rfl
    obtain ⟨header, payload, signingInput, -, -, -, hsplit⟩ := signJwt_eq_ok h.signed
    exact absurd (congrArg List.length hsplit) (by simp)
  have hstrip : Py.strip token = token := by
    refine Py.strip_eq_self fun c hc => ?_
    have hrange := toNat_of_mem_signJwt h.signed hc
    simp only [Py.isSpace, Bool.or_eq_false_iff, Bool.and_eq_false_iff, decide_eq_false_iff_not, beq_eq_false_iff_ne]
    omega
  simp only [bearerToken, Option.getD_some, Py.partition_append ' ' scheme token hspace, hscheme, hne, hstrip, decide_false,
    ne_eq, not_true_eq_false, Bool.or_self, Bool.false_eq_true, if_false]

/-- The tokenserver takes a token that is issued exactly if its scope implies the scope of Sync, until it expires. -/
theorem verifiedAccessToken_eq (h : Issued py signers server response token) (hdecimal : py.Decimal)
    (haccepts : keys.Accepts signers) (hscheme : Py.lower scheme = "bearer".toList) (now : ℤ) :
    ∃ scope, readScope response.scope = .ok scope ∧
      verifiedAccessToken py keys server (some (scheme ++ ' ' :: token)) now =
        if now < response.accessToken.exp ∧ scope.contains oldsync = true ∧ response.accessToken.sub ≠ "" then
          .ok response.accessToken.claims
        else .error (.raised invalidCredentials) := by
  obtain ⟨scope, hclaim, hread, -, haud⟩ := h.scopeClaim_eq
  obtain ⟨ambient, ttl, grant, htoken, -, -⟩ := h.says
  refine ⟨scope, hread, ?_⟩
  have hiss : isText server.issuer (response.accessToken.claims.get "iss") = true := by
    rw [isText_eq_true, htoken]
    rfl
  have hget : response.accessToken.claims.get "aud" = some (claimText response.accessToken.aud) := (get_claims _).1
  have hsub : isNonemptyText (response.accessToken.claims.get "sub") = decide (response.accessToken.sub ≠ "") := by
    have hempty : Points.ofString response.accessToken.sub = [] ↔ response.accessToken.sub = "" := by
      rw [Points.ofString, List.map_eq_nil_iff, String.toList_eq_nil_iff]
    exact decide_eq_decide.mpr hempty.not
  have hheader : decodeJwtHeader py.loads token = .ok (signedHeader signers.kid accessTokenTyp) :=
    decodeJwtHeader_signJwt hdecimal h.signed h.length_le
  have htyp : isText accessTokenTyp (Members.get (signedHeader signers.kid accessTokenTyp) "typ") = true := rfl
  have hchecked : checkClaims server response.accessToken.claims =
      if scope.contains oldsync = true ∧ response.accessToken.sub ≠ "" then .ok response.accessToken.claims
      else .error (.raised invalidCredentials) := by
    unfold checkClaims
    rw [hiss, hsub, hclaim, hget]
    by_cases hsync : scope.contains oldsync = true
    · have hfor : isText server.tokenserverUrl (some (claimText response.accessToken.aud)) = true := by
        rw [isText_eq_true, haud]
        exact congrArg (fun text => some (claimText text)) (if_pos hsync)
      by_cases hnobody : response.accessToken.sub = ""
      · simp [hfor, hnobody]
      · simp [hfor, hsync, hnobody]
    · have hneither : ¬(scope.contains oldsync = true ∧ response.accessToken.sub ≠ "") := fun hall => hsync hall.1
      rw [if_neg hneither]
      dsimp only
      split
      · rfl
      · split
        · rfl
        · rfl
  rw [verifiedAccessToken, bearerToken_eq h hscheme, Fallible.ok_bind, h.verify_eq hdecimal haccepts now]
  by_cases hnow : now < response.accessToken.exp
  · rw [if_pos hnow]
    simp only [hheader, htyp, hchecked, hnow, Bool.not_true, Bool.false_eq_true, if_false, true_and]
  · rw [if_neg hnow, if_neg fun hall => hnow hall.1]

end Issued

end FxaLite.Tokenserver
