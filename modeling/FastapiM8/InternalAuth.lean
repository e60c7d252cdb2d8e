import FastapiM8.Python

/-! Credentials for private calls to the issuer: static headers, or short-lived service tokens
exchanged under a lock. -/
namespace FastapiM8

def internalClientHeader : String := "X-Internal-Client"

def internalTokenHeader : String := "X-Internal-Token"

def authorizationHeader : String := "Authorization"

def jtiStatusSuffix : String := "/jti-status"

def serviceTokenSuffix : String := "/service-token"

/-- `url.rstrip("/")`. -/
def rstripSlash (url : String) : String := String.ofList (url.toList.rdropWhile (· = '/'))

/-- The exchange URL lives next to the JTI-status URL. -/
def deriveServiceTokenUrl (introspectionUrl : String) : String :=
  let url := rstripSlash introspectionUrl
  let base :=
    if jtiStatusSuffix.toList.isSuffixOf url.toList then
      String.ofList (url.toList.take (url.length - jtiStatusSuffix.length))
    else url
  rstripSlash base ++ serviceTokenSuffix

/-- One request to the exchange endpoint. An empty scope list sends an empty body. -/
structure ExchangeRequest where
  url : String
  headers : Headers
  scopes : List String

/-- The configuration of a `ServiceTokenInternalAuth`; its credential is in the state. -/
structure ServiceTokenInternalAuth where
  clientId : String
  exchangeHeaders : Headers
  url : String
  scopes : List String
  leeway : ℤ

inductive InternalAuthProvider where
  | static (headers : Headers)
  | serviceToken (auth : ServiceTokenInternalAuth)

/-- The settings that select the provider. -/
structure InternalAuthSettings where
  privateApiSecret : Option String
  internalClientId : Option String
  serviceTokenExchangeEnabled : Bool
  serviceTokenScopes : Option (List String)
  serviceTokenRefreshLeewaySeconds : ℤ
  introspectionUrl : Option String

/-- `str(value)` of an optional text. -/
def strOrNone : Option String → String
  | none => "None"
  | some s => s

/-- `_secret_value`: an unset secret becomes the text `None`. -/
def secretValue (secret : Option String) : String := strOrNone secret

/-- `value or default`: an empty list counts as unset. -/
def scopesOrDefault : Option (List String) → List String
  | some (scope :: scopes) => scope :: scopes
  | _ => ["introspection"]

def buildInternalAuth (settings : InternalAuthSettings) : InternalAuthProvider :=
  let secret := secretValue settings.privateApiSecret
  let clientId := settings.internalClientId.getD ""
  if clientId = "" then .static [(internalTokenHeader, .text secret)]
  else if settings.serviceTokenExchangeEnabled then
    .serviceToken {
      clientId
      exchangeHeaders :=
        [(internalClientHeader, .text clientId), (internalTokenHeader, .text secret)]
      url := deriveServiceTokenUrl (strOrNone settings.introspectionUrl)
      scopes := scopesOrDefault settings.serviceTokenScopes
      leeway := settings.serviceTokenRefreshLeewaySeconds }
  else .static [(internalClientHeader, .text clientId), (internalTokenHeader, .text secret)]

/-- The cached credential and the lock that serialises its refresh. -/
structure CredentialState where
  token : Option Json
  expiresAt : ℚ
  locked : Bool

def CredentialState.init : CredentialState := ⟨none, 0, false⟩

/-- What the coroutines of a provider do on the shared credential and on the wire. -/
inductive AuthOp where
  | lockAcquire
  | lockRelease
  | monotonic
  | getToken
  | getExpiresAt
  | setToken (token : Option Json)
  | setExpiresAt (expiresAt : ℚ)
  | exchange (request : ExchangeRequest)

abbrev AuthAns : AuthOp → Type
  | .lockAcquire => Except PyExc Unit
  | .monotonic | .getExpiresAt => ℚ
  | .getToken => Option Json
  | .exchange _ => Except PyExc Response
  | .lockRelease | .setToken _ | .setExpiresAt _ => Unit

/-- Waiting for a lock that is held and for the exchange endpoint suspends the coroutine. -/
def AuthOp.exec (now : ℚ) : (o : AuthOp) → CredentialState → Option (AuthAns o × CredentialState)
  | .lockAcquire, s => if s.locked then none else some (.ok (), { s with locked := true })
  | .lockRelease, s => some ((), { s with locked := false })
  | .monotonic, s => some (now, s)
  | .getToken, s => some (s.token, s)
  | .getExpiresAt, s => some (s.expiresAt, s)
  | .setToken token, s => some ((), { s with token })
  | .setExpiresAt expiresAt, s => some ((), { s with expiresAt })
  | .exchange _, _ => none

namespace ServiceTokenInternalAuth

variable (auth : ServiceTokenInternalAuth)

/-- `async with self._lock`: the lock is released however the body ends. -/
def withLock {α : Type} (body : Py AuthOp AuthAns α) : Py AuthOp AuthAns α := do
  Py.await AuthOp.lockAcquire id
  let outcome ← Py.attempt body
  Py.perform AuthOp.lockRelease
  outcome

/-- POST the bootstrap credential and cache the minted token. -/
def exchange : Py AuthOp AuthAns Json := do
  let request : ExchangeRequest := ⟨auth.url, auth.exchangeHeaders, auth.scopes⟩
  let response : Response ← Py.await (AuthOp.exchange request) id
  response.raiseForStatus
  let data ← response.json
  let token ← data.getItem "access_token"
  let expiresIn ← (← data.getItem "expires_in").toInt
  Py.perform (AuthOp.setToken token.orNone)
  let now : ℚ ← Py.perform AuthOp.monotonic
  let expiresAt ← addSeconds now (max 0 (expiresIn - auth.leeway))
  Py.perform (AuthOp.setExpiresAt expiresAt)
  return token

/-- Return a live token, exchanging once under the lock if needed. -/
def ensureToken : Py AuthOp AuthAns Json :=
  withLock do
    let cached : Option Json ← Py.perform AuthOp.getToken
    match cached with
    | none => auth.exchange
    | some token =>
      let now : ℚ ← Py.perform AuthOp.monotonic
      let expiresAt : ℚ ← Py.perform AuthOp.getExpiresAt
      if now < expiresAt then return token else auth.exchange

def headers : Py AuthOp AuthAns Headers := do
  let token ← auth.ensureToken
  return [(authorizationHeader, .bearer token)]

/-- Drop the cached token so that the next call re-exchanges. -/
def invalidate : Py AuthOp AuthAns Bool := do
  withLock do
    Py.perform (AuthOp.setToken none)
    Py.perform (AuthOp.setExpiresAt 0)
  return true

end ServiceTokenInternalAuth

namespace InternalAuthProvider

def headers : InternalAuthProvider → Py AuthOp AuthAns Headers
  | .static headers => pure headers
  | .serviceToken auth => auth.headers

/-- Whether a retry is worthwhile after a rejected call. -/
def invalidate : InternalAuthProvider → Py AuthOp AuthAns Bool
  | .static _ => pure false
  | .serviceToken _ => ServiceTokenInternalAuth.invalidate

end InternalAuthProvider

section Raises

variable {A : (o : AuthOp) → AuthAns o → Prop} {P : PyExc → Prop}

namespace ServiceTokenInternalAuth

end ServiceTokenInternalAuth

namespace InternalAuthProvider

end InternalAuthProvider

end Raises

end FastapiM8
