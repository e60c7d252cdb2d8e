import FastapiM8.ApiKey.Client

/-! The settings of a consumer service: the validators that accept them, the builders of its
private clients, and the endpoints and credentials with which the clients are built. -/
namespace FastapiM8

/-- The settings that the validators and the builders of the private clients read. -/
structure PrivateClientSettings extends ConsumerServiceSettings where
  environment : String
  strictProductionMode : Bool
  apiKeyIntrospectionEnabled : Bool := false
  apiKeyIntrospectionUrl : Option String := none
  apiKeyIntrospectionPoolTimeout : ℚ := 2
  apiKeyIntrospectionMaxConcurrency : ℕ := 20
  apiKeyIntrospectionMaxResponseBytes : ℕ := 8192
  apiKeyIntrospectionSchemaVersion : String
  apiKeyIntrospectionCircuitFailureThreshold : ℤ := 5
  apiKeyIntrospectionCircuitResetSeconds : ℚ := 30
  eventSigningKey : Option String := none
  eventStreamConnectTimeout : ℚ := 5
  eventStreamReadTimeout : ℚ := 60

/-- The event-stream client of the SDK, with what it is built from beside its callbacks. -/
structure AuthEventStreamClient where
  streamUrl : String
  authProvider : InternalAuthProvider
  signingKey : Option String
  connectTimeout : ℚ
  readTimeout : ℚ

namespace PrivateClientSettings

/-- `not self.INTERNAL_CLIENT_ID`: an empty id counts as unset. -/
def Anonymous (settings : PrivateClientSettings) : Prop := settings.internalClientId.getD "" = ""

instance (settings : PrivateClientSettings) : Decidable settings.Anonymous :=
  inferInstanceAs (Decidable (_ = _))

def isProduction (settings : PrivateClientSettings) : Bool :=
  settings.environment = "production" || settings.strictProductionMode

/-- A rejected configuration. -/
def configError (message : String) : Except PyExc PrivateClientSettings :=
  .error (.valueError (some ("CONFIG: " ++ message)))

/-- `_validate_api_key_introspection`; `supported` is the SDK's check of the contract version. -/
def validateApiKeyIntrospection (supported : String → Bool) (settings : PrivateClientSettings) :
    Except PyExc PrivateClientSettings :=
  if settings.apiKeyIntrospectionEnabled = false then .ok settings
  else if settings.apiKeyIntrospectionUrl = none ∧ settings.introspectionUrl = none then
    configError ("API_KEY_INTROSPECTION_ENABLED=true requires API_KEY_INTROSPECTION_URL, or " ++
      "INTROSPECTION_URL to derive it from — the remote API-key principal has no local fallback.")
  else if settings.Anonymous then
    configError ("API_KEY_INTROSPECTION_ENABLED=true requires INTERNAL_CLIENT_ID — the issuer " ++
      "derives the evaluated audience from this consumer's registry identity, and the consumer " ++
      "verifies the echoed audience_id against it.")
  else if settings.privateApiSecret = none then
    configError ("API_KEY_INTROSPECTION_ENABLED=true requires PRIVATE_API_SECRET — " ++
      "introspection is a private issuer route and needs this consumer's internal credential.")
  else if supported settings.apiKeyIntrospectionSchemaVersion then .ok settings
  else
    configError ("API_KEY_INTROSPECTION_SCHEMA_VERSION is not a version this auth-sdk-m8 " ++
      "release implements — a consumer must never guess at a contract it cannot interpret.")

/-- `_validate_consumer_private_auth`. -/
def validateConsumerPrivateAuth (settings : PrivateClientSettings) :
    Except PyExc PrivateClientSettings :=
  if settings.serviceTokenExchangeEnabled ∧ settings.Anonymous then
    configError ("SERVICE_TOKEN_EXCHANGE_ENABLED=true requires INTERNAL_CLIENT_ID — " ++
      "service-token exchange is a per-consumer private-auth mode and has no identity to " ++
      "present without it.")
  else if ¬ settings.Anonymous ∧ settings.privateApiSecret = none then
    configError ("INTERNAL_CLIENT_ID is set but PRIVATE_API_SECRET is missing — per-consumer " ++
      "private auth needs this consumer's bootstrap secret.")
  else if settings.isProduction ∧ settings.introspectionUrl ≠ none ∧ settings.Anonymous then
    configError ("production/strict consumer has INTROSPECTION_URL set but no " ++
      "INTERNAL_CLIENT_ID — the legacy single-shared-secret private API mode is " ++
      "development-only and is rejected by a hardened fa-auth-m8 issuer (item 11.2b). Set " ++
      "INTERNAL_CLIENT_ID to this service's registered consumer id; its PRIVATE_API_SECRET " ++
      "then carries the per-consumer bootstrap secret.")
  else .ok settings

def effectiveApiKeyIntrospectionUrl (settings : PrivateClientSettings) : String :=
  match settings.apiKeyIntrospectionUrl with
  | some url => url
  | none => deriveApiKeyIntrospectionUrl (strOrNone settings.introspectionUrl)

/-- The provider of every private client. -/
def internalAuth (settings : PrivateClientSettings) : InternalAuthProvider :=
  buildInternalAuth settings.toInternalAuthSettings

/-- `_build_api_key_client`. -/
def buildApiKeyClient (settings : PrivateClientSettings) : Option ApiKeyIntrospectionClient :=
  if settings.apiKeyIntrospectionEnabled then
    some {
      url := settings.effectiveApiKeyIntrospectionUrl
      auth := settings.internalAuth
      audienceId := strOrNone settings.internalClientId
      tuning := {
        schemaVersion := settings.apiKeyIntrospectionSchemaVersion
        poolTimeout := settings.apiKeyIntrospectionPoolTimeout
        maxConcurrency := settings.apiKeyIntrospectionMaxConcurrency
        maxResponseBytes := settings.apiKeyIntrospectionMaxResponseBytes
        circuitFailureThreshold := settings.apiKeyIntrospectionCircuitFailureThreshold
        circuitResetSeconds := settings.apiKeyIntrospectionCircuitResetSeconds } }
  else none

/-- `build_event_stream_client`; the SDK derives the stream's URL. -/
def buildEventStreamClient (deriveStreamUrl : String → String) (settings : PrivateClientSettings)
    (connectTimeout readTimeout : Option ℚ) : Except PyExc AuthEventStreamClient :=
  match settings.introspectionUrl with
  | none =>
    .error (.valueError (some ("build_event_stream_client requires INTROSPECTION_URL to be set " ++
      "on settings (needed to derive the SSE stream URL).")))
  | some introspectionUrl =>
    .ok {
      streamUrl := deriveStreamUrl introspectionUrl
      authProvider := settings.internalAuth
      signingKey := settings.eventSigningKey
      connectTimeout := connectTimeout.getD settings.eventStreamConnectTimeout
      readTimeout := readTimeout.getD settings.eventStreamReadTimeout }

end PrivateClientSettings

/-- Settings that both validators accept. Of the SDK's own validators, only what they require of
a stateful consumer is used. -/
structure AcceptedSettings (supported : String → Bool) extends PrivateClientSettings where
  apiKeyAccepted : toPrivateClientSettings.validateApiKeyIntrospection supported =
    .ok toPrivateClientSettings
  privateAuthAccepted : toPrivateClientSettings.validateConsumerPrivateAuth =
    .ok toPrivateClientSettings
  statefulConsumer : isStateful = true → authServiceRole = "consumer" →
    introspectionUrl.isSome = true ∧ privateApiSecret.isSome = true

/-- The endpoint is derived from a URL that is configured. -/
def FromConfigured (derive : String → String) (url : Option String) (endpoint : String) : Prop :=
  ∃ configured, url = some configured ∧ endpoint = derive configured

namespace PrivateClientSettings

variable (settings : PrivateClientSettings)

/-- The header carries the configured secret, or the configured client id. -/
def Carries (header : String × HeaderValue) : Prop :=
  (∃ secret, settings.privateApiSecret = some secret ∧
    header = (internalTokenHeader, .text secret)) ∨
  ∃ clientId, settings.internalClientId = some clientId ∧
    header = (internalClientHeader, .text clientId)

/-- The provider presents configured credentials, and exchanges them at an endpoint that is
derived from the configured URL. -/
def ProviderFormed : InternalAuthProvider → Prop
  | .static headers => ∀ header ∈ headers, settings.Carries header
  | .serviceToken auth =>
    FromConfigured deriveServiceTokenUrl settings.introspectionUrl auth.url ∧
      ∀ header ∈ auth.exchangeHeaders, settings.Carries header

def RevocationClientFormed (client : RemoteRevocationClient) : Prop :=
  FromConfigured id settings.introspectionUrl client.url ∧ settings.ProviderFormed client.auth

def ApiKeyClientFormed (client : ApiKeyIntrospectionClient) : Prop :=
  (FromConfigured id settings.apiKeyIntrospectionUrl client.url ∨
    FromConfigured deriveApiKeyIntrospectionUrl settings.introspectionUrl client.url) ∧
  settings.ProviderFormed client.auth

def EventStreamClientFormed (deriveStreamUrl : String → String) (client : AuthEventStreamClient) :
    Prop :=
  FromConfigured deriveStreamUrl settings.introspectionUrl client.streamUrl ∧
    settings.ProviderFormed client.authProvider

/-- Every private client that is built is well formed. -/
structure ClientsFormed (deriveStreamUrl : String → String) (schemaVersion : String) : Prop where
  revocation : ∀ deps client,
    buildAuthDeps schemaVersion settings.toConsumerServiceSettings = .ok deps →
    deps.revocationClient = some client → settings.RevocationClientFormed client
  apiKey : ∀ client, settings.buildApiKeyClient = some client → settings.ApiKeyClientFormed client
  eventStream : ∀ connectTimeout readTimeout client,
    settings.buildEventStreamClient deriveStreamUrl connectTimeout readTimeout = .ok client →
    settings.EventStreamClientFormed deriveStreamUrl client

variable {settings} {supported : String → Bool}

theorem configError_ne_ok {message : String} : configError message ≠ .ok settings := by
  simp [configError]

/-- What an enabled API-key group that is accepted has configured. -/
structure ApiKeyConfigured (settings : PrivateClientSettings) : Prop where
  url : settings.apiKeyIntrospectionUrl.isSome = true ∨ settings.introspectionUrl.isSome = true
  identity : ¬ settings.Anonymous
  secret : settings.privateApiSecret.isSome = true

theorem apiKeyConfigured (h : settings.validateApiKeyIntrospection supported = .ok settings)
    (henabled : settings.apiKeyIntrospectionEnabled = true) : settings.ApiKeyConfigured := by
  unfold validateApiKeyIntrospection at h
  split at h
  next hdisabled => simp [henabled] at hdisabled
  split at h
  next => exact absurd h configError_ne_ok
  next hurl =>
    split at h
    next => exact absurd h configError_ne_ok
    next hidentity =>
      split at h
      next => exact absurd h configError_ne_ok
      next hsecret =>
        constructor
        · rw [Option.isSome_iff_ne_none, Option.isSome_iff_ne_none]
          exact not_and_or.mp hurl
        · exact hidentity
        · exact Option.isSome_iff_ne_none.mpr hsecret

/-- A consumer with an identity that is accepted has a secret. -/
theorem secret_of_identity (h : settings.validateConsumerPrivateAuth = .ok settings)
    (hidentity : ¬ settings.Anonymous) : settings.privateApiSecret.isSome = true := by
  unfold validateConsumerPrivateAuth at h
  split at h
  next => exact absurd h configError_ne_ok
  split at h
  next => exact absurd h configError_ne_ok
  next hsecret =>
    rw [Option.isSome_iff_ne_none]
    exact fun hnone => hsecret ⟨hidentity, hnone⟩

theorem carries_token_iff :
    settings.Carries (internalTokenHeader, .text (secretValue settings.privateApiSecret)) ↔
      settings.privateApiSecret.isSome = true := by
  have hnames : internalTokenHeader ≠ internalClientHeader := by decide
  cases hsecret : settings.privateApiSecret <;>
    simp [Carries, hnames, hsecret, secretValue, strOrNone]

theorem carries_client (hidentity : ¬ settings.Anonymous) :
    settings.Carries (internalClientHeader, .text (settings.internalClientId.getD "")) := by
  cases hclient : settings.internalClientId with
  | none => simp [Anonymous, hclient] at hidentity
  | some clientId => exact .inr ⟨clientId, hclient, rfl⟩

theorem fromConfigured_iff {derive : String → String} {url : Option String} :
    FromConfigured derive url (derive (strOrNone url)) ↔ url.isSome = true := by
  cases url <;> simp [FromConfigured, strOrNone]

/-- The headers of a consumer that presents its identity. -/
def bootstrapHeaders (settings : PrivateClientSettings) : Headers :=
  [(internalClientHeader, .text (settings.internalClientId.getD "")),
    (internalTokenHeader, .text (secretValue settings.privateApiSecret))]

theorem internalAuth_of_anonymous (h : settings.Anonymous) : settings.internalAuth =
    .static [(internalTokenHeader, .text (secretValue settings.privateApiSecret))] := if_pos h

theorem internalAuth_of_identity (h : ¬ settings.Anonymous) : settings.internalAuth =
    if settings.serviceTokenExchangeEnabled then
      .serviceToken {
        clientId := settings.internalClientId.getD ""
        exchangeHeaders := settings.bootstrapHeaders
        url := deriveServiceTokenUrl (strOrNone settings.introspectionUrl)
        scopes := scopesOrDefault settings.serviceTokenScopes
        leeway := settings.serviceTokenRefreshLeewaySeconds }
    else .static settings.bootstrapHeaders := if_neg h

theorem carries_bootstrapHeaders_iff (hidentity : ¬ settings.Anonymous) :
    (∀ header ∈ settings.bootstrapHeaders, settings.Carries header) ↔
      settings.privateApiSecret.isSome = true := by
  simp [bootstrapHeaders, carries_client hidentity, carries_token_iff]

/-- The provider is well formed exactly when there is a secret, and a URL when it exchanges. -/
theorem providerFormed_iff : settings.ProviderFormed settings.internalAuth ↔
    settings.privateApiSecret.isSome = true ∧
      (¬ settings.Anonymous → settings.serviceTokenExchangeEnabled = true →
        settings.introspectionUrl.isSome = true) := by
  by_cases hanonymous : settings.Anonymous
  · rw [internalAuth_of_anonymous hanonymous]
    simp [ProviderFormed, carries_token_iff, hanonymous]
  · rw [internalAuth_of_identity hanonymous]
    have hcarries := carries_bootstrapHeaders_iff hanonymous
    cases hexchange : settings.serviceTokenExchangeEnabled with
    | false => simpa [ProviderFormed] using hcarries
    | true =>
      simp only [ProviderFormed, ↓reduceIte, fromConfigured_iff, hcarries]
      simp [hanonymous, and_comm]

end PrivateClientSettings

namespace AcceptedSettings

variable {supported : String → Bool} (settings : AcceptedSettings supported)

/-- A stateful consumer has a secret, and an introspection URL. -/
theorem revocationClientFormed {schemaVersion : String} {deps : AuthDeps}
    {client : RemoteRevocationClient}
    (hdeps : buildAuthDeps schemaVersion settings.toConsumerServiceSettings = .ok deps)
    (hclient : deps.revocationClient = some client) : settings.RevocationClientFormed client := by
  unfold buildAuthDeps at hdeps
  split at hdeps
  next hconsumer =>
    simp only [Bool.and_eq_true, decide_eq_true_eq] at hconsumer
    obtain ⟨hurl, hsecret⟩ := settings.statefulConsumer hconsumer.1 hconsumer.2
    obtain rfl := Except.ok.inj hdeps
    obtain rfl := Option.some.inj hclient
    constructor
    · exact PrivateClientSettings.fromConfigured_iff.mpr hurl
    · exact PrivateClientSettings.providerFormed_iff.mpr ⟨hsecret, fun _ _ => hurl⟩
  next =>
    obtain rfl := Except.ok.inj hdeps
    contradiction

theorem apiKeyUrl_formed (h : settings.ApiKeyConfigured) :
    FromConfigured id settings.apiKeyIntrospectionUrl settings.effectiveApiKeyIntrospectionUrl ∨
      FromConfigured deriveApiKeyIntrospectionUrl settings.introspectionUrl
        settings.effectiveApiKeyIntrospectionUrl := by
  unfold PrivateClientSettings.effectiveApiKeyIntrospectionUrl
  cases hurl : settings.apiKeyIntrospectionUrl with
  | some url => exact .inl ⟨url, rfl, rfl⟩
  | none =>
    have hderived : settings.introspectionUrl.isSome = true := by
      simpa [hurl] using h.url
    exact .inr (PrivateClientSettings.fromConfigured_iff.mpr hderived)

/-- The API-key client is well formed unless it exchanges at a URL that is not configured. -/
theorem apiKeyClientFormed_iff :
    (∀ client, settings.buildApiKeyClient = some client → settings.ApiKeyClientFormed client) ↔
      ¬ (settings.apiKeyIntrospectionEnabled = true ∧
        settings.serviceTokenExchangeEnabled = true ∧ settings.introspectionUrl = none) := by
  unfold PrivateClientSettings.buildApiKeyClient
  cases henabled : settings.apiKeyIntrospectionEnabled with
  | false => simp
  | true =>
    have hconfigured := PrivateClientSettings.apiKeyConfigured settings.apiKeyAccepted henabled
    have hurl := apiKeyUrl_formed settings hconfigured
    simp [PrivateClientSettings.ApiKeyClientFormed, hurl,
      PrivateClientSettings.providerFormed_iff, hconfigured.secret, hconfigured.identity,
      Option.isSome_iff_ne_none]

/-- The event-stream client is well formed unless it presents a secret that is not configured. -/
theorem eventStreamClientFormed_iff (deriveStreamUrl : String → String) :
    (∀ connectTimeout readTimeout client,
      settings.buildEventStreamClient deriveStreamUrl connectTimeout readTimeout = .ok client →
      settings.EventStreamClientFormed deriveStreamUrl client) ↔
      ¬ (settings.introspectionUrl.isSome = true ∧ settings.Anonymous ∧
        settings.privateApiSecret = none) := by
  have hsecret := PrivateClientSettings.secret_of_identity settings.privateAuthAccepted
  unfold PrivateClientSettings.buildEventStreamClient
  cases hurl : settings.introspectionUrl with
  | none => simp
  | some url =>
    simp [PrivateClientSettings.EventStreamClientFormed, FromConfigured, hurl,
      PrivateClientSettings.providerFormed_iff]
    rw [Option.isSome_iff_ne_none] at hsecret ⊢
    tauto

/-- The private clients of accepted settings are well formed exactly when they do not enable
API keys with an exchange whose URL is not configured, nor leave a consumer without identity and
secret beside an introspection URL. -/
theorem private_clients_formed_iff (supported : String → Bool)
    (settings : AcceptedSettings supported) (deriveStreamUrl : String → String)
    (schemaVersion : String) :
    settings.ClientsFormed deriveStreamUrl schemaVersion ↔
      ¬ (settings.apiKeyIntrospectionEnabled = true ∧
        settings.serviceTokenExchangeEnabled = true ∧ settings.introspectionUrl = none) ∧
      ¬ (settings.introspectionUrl.isSome = true ∧ settings.Anonymous ∧
        settings.privateApiSecret = none) := by
  rw [← apiKeyClientFormed_iff, ← settings.eventStreamClientFormed_iff deriveStreamUrl]
  constructor
  · intro h
    exact ⟨h.apiKey, h.eventStream⟩
  · rintro ⟨hapiKey, hstream⟩
    exact ⟨fun _ _ => settings.revocationClientFormed, hapiKey, hstream⟩

/-- A stateless service that resolves API keys with exchanged tokens, and has set no
introspection URL. -/
def apiKeysOnly : AcceptedSettings (· = "1") where
  privateApiSecret := some "secret"
  internalClientId := some "orders"
  serviceTokenExchangeEnabled := true
  serviceTokenScopes := none
  serviceTokenRefreshLeewaySeconds := 30
  introspectionUrl := none
  isStateful := false
  authServiceRole := "consumer"
  accessRevocationMode := "fail_closed"
  revocationCacheTtlSeconds := 0
  environment := "production"
  strictProductionMode := true
  apiKeyIntrospectionEnabled := true
  apiKeyIntrospectionUrl := some "https://auth/user/private/v1/api-keys/introspect"
  apiKeyIntrospectionSchemaVersion := "1"
  apiKeyAccepted := rfl
  privateAuthAccepted := rfl
  statefulConsumer := by simp

/-- The exchange would go to `None/service-token`. -/
example : ∃ auth, apiKeysOnly.internalAuth = .serviceToken auth ∧ auth.url = "None/service-token" :=
  ⟨_, rfl, by decide⟩

theorem private_clients_not_formed :
    ¬ ∀ (supported : String → Bool) (settings : AcceptedSettings supported)
      (deriveStreamUrl : String → String) (schemaVersion : String),
      settings.ClientsFormed deriveStreamUrl schemaVersion := by
  intro h
  obtain ⟨-, ⟨url, hurl, -⟩, -⟩ := (h _ apiKeysOnly id "2").apiKey _ rfl
  contradiction

/-- A stateless development service that has set an introspection URL and nothing else. -/
def urlOnly : AcceptedSettings (· = "1") where
  privateApiSecret := none
  internalClientId := none
  serviceTokenExchangeEnabled := false
  serviceTokenScopes := none
  serviceTokenRefreshLeewaySeconds := 30
  introspectionUrl := some "http://auth:8000/user/private/v1/jti-status"
  isStateful := false
  authServiceRole := "consumer"
  accessRevocationMode := "fail_closed"
  revocationCacheTtlSeconds := 0
  environment := "development"
  strictProductionMode := false
  apiKeyIntrospectionSchemaVersion := "1"
  apiKeyAccepted := rfl
  privateAuthAccepted := rfl
  statefulConsumer := by simp

/-- The stream would be opened with the secret `None`. -/
example : urlOnly.internalAuth = .static [(internalTokenHeader, .text "None")] := rfl

end AcceptedSettings

end FastapiM8
