import FxaLite.OAuth.ScopeSet

/-!
# Clients

`clients.py`: who may be issued tokens, and the scopes that carry a key.
-/

namespace FxaLite.OAuth

/-- `OLDSYNC_SCOPE`. -/
def oldsyncScope : String := "https://identity.mozilla.com/apps/oldsync"

/-- It is a scope. -/
theorem oldsync_isSome : (ScopeSet.fromArray ([oldsyncScope].map String.toList)).toOption.isSome = true := by decide

/-- The set of it alone, which is `_OLDSYNC`. -/
def oldsync : ScopeSet := .ofValues [oldsyncScope] oldsync_isSome

/-- `SESSION_SCOPE`. -/
def sessionScope : String := "https://identity.mozilla.com/tokens/session"

/-- `ECOSYSTEM_TELEMETRY_SCOPE`. -/
def ecosystemTelemetryScope : String := "https://identity.mozilla.com/ids/ecosystem_telemetry"

/-- `KEY_BEARING_SCOPES`. -/
def keyBearingScopes : List String :=
  [oldsyncScope, ecosystemTelemetryScope, "https://identity.thunderbird.net/apps/sync"]

/-- `SERVICE_SCOPES.get(service)`. -/
def serviceScopes (service : String) : Option (List String) :=
  if service = "sync" then some [oldsyncScope, "profile"] else none

/-- `KEYS_CONDITIONAL_SCOPE`. -/
def keysConditionalScope : String := oldsyncScope

/-- `Client`. -/
structure Client where
  id : String
  redirectUris : List String
  allowedScopes : ScopeSet
  trusted : Bool
  canGrant : Bool
  publicClient : Bool

/-- `Registry`, as the list of clients it is built from: of two with one id, the later counts. -/
structure Registry where
  clients : List Client

/-- `str.lower()`. -/
def lower (s : String) : String := String.ofList (Py.lower s.toList)

/-- `Registry.get`. -/
def Registry.get (registry : Registry) (clientId : String) : Option Client :=
  registry.clients.reverse.find? (·.id = lower clientId)

/-- `_browser`. -/
def browser (clientId publicUrl : String) : Client where
  id := clientId
  redirectUris := ["urn:ietf:wg:oauth:2.0:oob:oauth-redirect-webchannel", publicUrl ++ "/oauth/success/" ++ clientId]
  allowedScopes := .ofValues [oldsyncScope, sessionScope, ecosystemTelemetryScope] (by decide)
  trusted := true
  canGrant := true
  publicClient := true

/-- Lowering twice is lowering once. -/
theorem lower_lower (s : String) : lower (lower s) = lower s := by
  rw [lower, lower, String.toList_ofList, Py.lower_lower]

/-- A client that is found is found under its own id. -/
theorem Registry.get_id {registry : Registry} {clientId : String} {client : Client}
    (h : registry.get clientId = some client) : registry.get client.id = some client := by
  have hid : client.id = lower clientId := by simpa using List.find?_some h
  rw [Registry.get, hid, lower_lower]
  exact h

end FxaLite.OAuth
