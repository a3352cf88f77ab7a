import FxaLite.Crypto.ScopedKeys
import FxaLite.Lib.Dict
import FxaLite.OAuth.CodeBinding

/-!
# Rotation metadata

`POST /account/scoped-key-data`: for each key-bearing scope of a request, what goes into the key that
the client derives for it. No key crosses this route. A session that is older than the last
change of keys is refused, and so is a scope that the client may not have.
-/

namespace FxaLite.OAuth

open FxaLite.Accounts FxaLite.Crypto Fallible

/-- How the route refuses. -/
inductive KeyDataError where
  | oauth (raised : OauthError)
  | staleAuthAt (authAt : ℤ)
  deriving DecidableEq, Repr

/-- What is said of the key of a scope. -/
structure KeyData where
  identifier : List Char
  keyRotationSecret : List Char
  keyRotationTimestamp : ℤ
  deriving DecidableEq, Repr

/-- The time of the last change of keys. -/
def keyRotationTimestamp (account : Account) : ℤ := max account.keysChangedAt 0

/-- `scoped_key_data`, with the credentials of a session. -/
def scopedKeyData (server : Server) (clientId scope : String) (credentials : SessionToken × Account) :
    Except KeyDataError (List (List Char × KeyData)) := do
  let client ← (findClient server clientId).mapError .oauth
  let scope ← (parseScope scope "scope").mapError .oauth
  let claims := SessionClaims.forSession credentials.2 credentials.1
  let grant ← (validateRequestedGrant claims client ⟨scope, "online", none⟩).mapError .oauth
  let timestamp := keyRotationTimestamp credentials.2
  if claims.lastAuthAt < timestamp / 1000 then .error (.staleAuthAt claims.lastAuthAt)
  else .ok (grant.keyBearing.foldl (fun data value => Dict.put data value ⟨value, Hex.encode nullKeyRotationSecret, timestamp⟩) [])

section Answers

variable {server : Server} {clientId scope : String} {credentials : SessionToken × Account}
  {data : List (List Char × KeyData)} {set : ScopeSet}

/-- Scopes of which none implies another are distinct. -/
theorem nodup_values_of_normal {scopes : List Scope} (hnormal : ScopeSet.Normal scopes) : (scopes.map Scope.value).Nodup := by
  rw [List.nodup_iff_pairwise_ne, List.pairwise_map]
  refine hnormal.imp fun hapart heq => hapart.1 ?_
  rw [Scope.eq_of_value heq]

/-- Distinct names are added one by one. -/
theorem foldl_put_of_nodup {make : List Char → KeyData} {values : List (List Char)} (hnodup : values.Nodup) :
    values.foldl (fun data value => Dict.put data value (make value)) [] = values.map fun value => (value, make value) := by
  induction values using List.reverseRecOn with
  | nil => rfl
  | append_singleton values value ih =>
    rw [List.nodup_append] at hnodup
    have hnew : value ∉ Dict.keys (values.map fun value => (value, make value)) := by
      rw [Dict.keys, List.map_map]
      intro hmem
      obtain ⟨other, hother, heq⟩ := List.mem_map.mp hmem
      exact hnodup.2.2 other hother value (List.mem_singleton_self value) heq
    rw [List.foldl_append, List.foldl_cons, List.foldl_nil, ih hnodup.1, Dict.put_of_not_mem hnew, List.map_append,
      List.map_cons, List.map_nil]

/-- The key-bearing scopes of a grant are those that were asked for. -/
theorem keyBearing_of_validateRequestedGrant {claims : SessionClaims} {client : Client} {request : GrantRequest} {grant : Grant}
    (h : validateRequestedGrant claims client request = .ok grant) :
    grant.keyBearing = (keyBearing request.scope).map Scope.value := by
  dsimp only [validateRequestedGrant] at h
  split at h
  · cases h
  · split at h
    · cases h
    · split at h
      · cases h
      · cases h
        rfl

/-- What is answered: of distinct key-bearing scopes, each with the same secret and the same time. -/
theorem scopedKeyData_eq_ok (h : scopedKeyData server clientId scope credentials = .ok data) :
    ∃ values : List (List Char), values.Nodup ∧ (∀ value ∈ values, String.ofList value ∈ keyBearingScopes) ∧
      data = values.map fun value =>
        (value, ⟨value, Hex.encode nullKeyRotationSecret, keyRotationTimestamp credentials.2⟩) := by
  simp only [scopedKeyData, bind_eq_ok] at h
  obtain ⟨client, -, set, hset, grant, hgrant, h⟩ := h
  split at h
  · cases h
  cases h
  have hbearing := keyBearing_of_validateRequestedGrant (mapError_eq_ok.mp hgrant)
  have hnodup : grant.keyBearing.Nodup := by
    rw [hbearing]
    exact nodup_values_of_normal ((normal_of_parseScope (mapError_eq_ok.mp hset)).filter _)
  refine ⟨grant.keyBearing, hnodup, fun value hvalue => ?_, ?_⟩
  · rw [hbearing] at hvalue
    obtain ⟨s, hs, rfl⟩ := List.mem_map.mp hvalue
    exact of_decide_eq_true (List.mem_filter.mp hs).2
  · exact foldl_put_of_nodup hnodup

end Answers

end FxaLite.OAuth
