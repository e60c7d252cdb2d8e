import FastapiM8.ApiKey.Breaker
import FastapiM8.Deps

/-! The API-key introspection client: its coroutine, the breaker and the semaphore that its
calls share, and the pool of calls that run on one event loop. -/
namespace FastapiM8

inductive ApiKeyAccessMode where
  | readOnly | readWrite
  deriving DecidableEq, Repr

/-- The current authority of a key's owner. -/
structure ApiKeyPrincipal where
  userId : String
  role : RoleType
  isSuperuser : Bool
  accessMode : ApiKeyAccessMode
  authGeneration : ℤ
  deriving DecidableEq, Repr

/-- A reply of the introspection endpoint that validates against the contract. -/
inductive ApiKeyIntrospectionResponse where
  | inactive
  | active (audienceId : String) (principal : ApiKeyPrincipal)
  deriving DecidableEq

abbrev Bytes := List UInt8

/-- The SDK's models and policy for API keys: whether the request model accepts a key and a
version, what a body validates to, and the capability decision. -/
structure ApiKeySdk where
  request : (apiKey schemaVersion : String) → Bool
  response : Bytes → Option ApiKeyIntrospectionResponse
  hasCapability : ApiKeyPrincipal → RoleType → Bool

def apiKeyIntrospectSuffix : String := "/api-keys/introspect"

/-- The introspection URL lives next to the JTI-status URL. -/
def deriveApiKeyIntrospectionUrl (introspectionUrl : String) : String :=
  let url := rstripSlash introspectionUrl
  let base :=
    if jtiStatusSuffix.toList.isSuffixOf url.toList then
      String.ofList (url.toList.take (url.length - jtiStatusSuffix.length))
    else url
  rstripSlash base ++ apiKeyIntrospectSuffix

structure ApiKeyIntrospectionTuning where
  schemaVersion : String
  poolTimeout : ℚ := 2
  maxConcurrency : ℕ := 20
  maxResponseBytes : ℕ := 8192
  circuitFailureThreshold : ℤ := 5
  circuitResetSeconds : ℚ := 30

/-- The configuration of a client; its breaker and its semaphore are in the shared state. -/
structure ApiKeyIntrospectionClient where
  url : String
  auth : InternalAuthProvider
  audienceId : String
  tuning : ApiKeyIntrospectionTuning

/-- One introspection request: the unwrapped key travels in the body. -/
structure IntrospectionRequest where
  url : String
  apiKey : String
  schemaVersion : String
  headers : Headers

/-- A reply whose body is read in chunks. Reading can break off after the chunks, and closing
the response can raise. -/
structure StreamedResponse where
  statusCode : ℕ
  retryAfter : Option String
  chunks : List Bytes
  broken : Option PyExc
  closing : Option PyExc

/-- What `_transmit` returns. -/
structure IntrospectionReply where
  statusCode : ℕ
  body : Bytes
  retryAfter : Option String

namespace StreamedResponse

/-- The chunks that are read until the payload exceeds its limit. -/
def readChunks (maxResponseBytes : ℕ) (payload : Bytes) : List Bytes → Except PyExc Bytes
  | [] => .ok payload
  | chunk :: chunks =>
    if maxResponseBytes < (payload ++ chunk).length then
      .error (.apiKeyIntrospectionError "response_too_large")
    else readChunks maxResponseBytes (payload ++ chunk) chunks

/-- An exception for a `none` result. -/
def raiseIfAny : Option PyExc → Except PyExc Unit
  | none => .ok ()
  | some exc => .error exc

/-- The body of `async with self._client.stream(...)`, and its exit. -/
def read (maxResponseBytes : ℕ) (r : StreamedResponse) : Except PyExc IntrospectionReply := do
  let outcome : Except PyExc IntrospectionReply := do
    let payload ← readChunks maxResponseBytes [] r.chunks
    raiseIfAny r.broken
    return ⟨r.statusCode, payload, r.retryAfter⟩
  raiseIfAny r.closing
  outcome

/-- Reading chunks gives the whole body when it fits, however it is cut up. -/
theorem readChunks_eq {maxResponseBytes : ℕ} {payload : Bytes} (chunks : List Bytes)
    (hpayload : payload.length ≤ maxResponseBytes) :
    readChunks maxResponseBytes payload chunks =
      if (payload ++ chunks.flatten).length ≤ maxResponseBytes then .ok (payload ++ chunks.flatten)
      else .error (.apiKeyIntrospectionError "response_too_large") := by
  induction chunks generalizing payload with
  | nil => simp [readChunks, hpayload]
  | cons chunk chunks ih =>
    rw [readChunks, List.flatten_cons, ← List.append_assoc]
    split
    next hlarge =>
      have htotal : maxResponseBytes < (payload ++ chunk ++ chunks.flatten).length := by
        rw [List.length_append]
        omega
      rw [if_neg htotal.not_ge]
    next hfits => exact ih (not_lt.mp hfits)

end StreamedResponse

/-- What a call does on the shared client and on the wire. The provider's coroutines are
awaited as single operations here, and `checkpoint` is the suspension in which a task comes
to the slot that it was given. -/
inductive ApiKeyOp where
  | allowsCall
  | recordSuccess
  | recordFailure
  | semaphoreAcquire (timeout : ℚ)
  | checkpoint
  | semaphoreRelease
  | authHeaders
  | authInvalidate
  | post (request : IntrospectionRequest)

abbrev ApiKeyAns : ApiKeyOp → Type
  | .allowsCall => Bool
  | .recordSuccess | .recordFailure | .semaphoreRelease => Unit
  | .semaphoreAcquire _ | .checkpoint => Except PyExc Unit
  | .authHeaders => Except PyExc Headers
  | .authInvalidate => Except PyExc Bool
  | .post _ => Except PyExc StreamedResponse

namespace ApiKeyIntrospectionClient

variable (client : ApiKeyIntrospectionClient) (sdk : ApiKeySdk)

/-- Building the request model raises a `ValidationError` when it refuses the key. -/
def buildRequest (apiKey : String) : Except PyExc Unit :=
  if sdk.request apiKey client.tuning.schemaVersion then .ok () else .error (.valueError none)

/-- `await self._semaphore.acquire()`: a slot that was given is returned when the task is
cancelled before it comes to it. -/
def semaphoreAcquire : Py ApiKeyOp ApiKeyAns Unit := do
  Py.await (ApiKeyOp.semaphoreAcquire client.tuning.poolTimeout) id
  match ← Py.attempt (Py.await ApiKeyOp.checkpoint id) with
  | .ok () => return ()
  | .error exc =>
    Py.perform ApiKeyOp.semaphoreRelease
    throw exc

/-- Acquire a slot, shedding the request if capacity never frees up. -/
def acquireSlot : Py ApiKeyOp ApiKeyAns Unit := do
  match ← Py.attempt client.semaphoreAcquire with
  | .ok () => return ()
  | .error .timeoutError => throw (.apiKeyIntrospectionError "load_shed")
  | .error exc => throw exc

/-- `async with self._acquire_slot()`: the slot is released however the body ends. -/
def withSlot {α : Type} (body : Py ApiKeyOp ApiKeyAns α) : Py ApiKeyOp ApiKeyAns α := do
  client.acquireSlot
  let outcome : Except PyExc α ← Py.attempt body
  Py.perform ApiKeyOp.semaphoreRelease
  outcome

/-- Send the body with the unwrapped key and stream the reply. -/
def transmit (apiKey : String) : Py ApiKeyOp ApiKeyAns IntrospectionReply := do
  let headers : Headers ← Py.await ApiKeyOp.authHeaders id
  let request : IntrospectionRequest := ⟨client.url, apiKey, client.tuning.schemaVersion, headers⟩
  let response : StreamedResponse ← Py.await (ApiKeyOp.post request) id
  response.read client.tuning.maxResponseBytes

/-- The handler of a transmission that is not retried. -/
def failTransport (exc : PyExc) : Py ApiKeyOp ApiKeyAns IntrospectionReply :=
  if exc.isHttpError then do
    Py.perform ApiKeyOp.recordFailure
    throw (.apiKeyIntrospectionError "transport")
  else throw exc

/-- Only a failure to connect is retried, once. -/
def send (apiKey : String) : Py ApiKeyOp ApiKeyAns IntrospectionReply := do
  match ← Py.attempt (client.transmit apiKey) with
  | .ok reply => return reply
  | .error exc =>
    if exc.isConnectFailure then
      match ← Py.attempt (client.transmit apiKey) with
      | .ok reply => return reply
      | .error retryExc => failTransport retryExc
    else failTransport exc

/-- Validate the issuer's reply against the SDK contract, or fail closed. -/
def parse (body : Bytes) : Except PyExc ApiKeyIntrospectionResponse :=
  match sdk.response body with
  | some result => .ok result
  | none => .error (.apiKeyIntrospectionError "malformed_response")

/-- Map one issuer reply to a principal, a generic denial, or a failure. -/
def interpret (reply : IntrospectionReply) : Py ApiKeyOp ApiKeyAns (Option ApiKeyPrincipal) := do
  if reply.statusCode = 429 then
    throw (.apiKeyQuotaExceededError reply.retryAfter)
  else if reply.statusCode = 401 ∨ reply.statusCode = 403 then
    let _ : Bool ← Py.await ApiKeyOp.authInvalidate id
    throw (.apiKeyIntrospectionError "consumer_unauthorized")
  else if 500 ≤ reply.statusCode then
    Py.perform ApiKeyOp.recordFailure
    throw (.apiKeyIntrospectionError "issuer_unavailable")
  else if reply.statusCode ≠ 200 then
    Py.perform ApiKeyOp.recordFailure
    throw (.apiKeyIntrospectionError "unexpected_status")
  else
    let result ← parse sdk reply.body
    Py.perform ApiKeyOp.recordSuccess
    match result with
    | .inactive => return none
    | .active audienceId principal =>
      if audienceId ≠ client.audienceId then throw (.apiKeyIntrospectionError "audience_mismatch")
      else return some principal

/-- Resolve a key to its owner's current principal. -/
def introspect (apiKey : String) : Py ApiKeyOp ApiKeyAns (Option ApiKeyPrincipal) := do
  client.buildRequest sdk apiKey
  let allowed : Bool ← Py.perform ApiKeyOp.allowsCall
  if allowed then
    let reply ← client.withSlot (client.send apiKey)
    client.interpret sdk reply
  else throw (.apiKeyIntrospectionError "circuit_open")

end ApiKeyIntrospectionClient

/-- What the calls of a client share, and the monotonic clock. -/
structure ApiKeyState where
  breaker : CircuitBreaker
  slots : ℕ
  now : ℚ

namespace ApiKeyState

def init (tuning : ApiKeyIntrospectionTuning) (now : ℚ) : ApiKeyState where
  breaker := .init tuning.circuitFailureThreshold tuning.circuitResetSeconds
  slots := tuning.maxConcurrency
  now := now

def recordSuccess (s : ApiKeyState) : ApiKeyState := { s with breaker := s.breaker.recordSuccess }

def recordFailure (s : ApiKeyState) : ApiKeyState :=
  { s with breaker := s.breaker.recordFailure s.now }

def release (s : ApiKeyState) : ApiKeyState := { s with slots := s.slots + 1 }

end ApiKeyState

/-- The breaker and the semaphore answer at once; a full semaphore, the provider and the issuer
are awaited. -/
def ApiKeyOp.exec : (o : ApiKeyOp) → ApiKeyState → Option (ApiKeyAns o × ApiKeyState)
  | .allowsCall, s =>
    some ((s.breaker.allowsCall s.now).1, { s with breaker := (s.breaker.allowsCall s.now).2 })
  | .recordSuccess, s => some ((), s.recordSuccess)
  | .recordFailure, s => some ((), s.recordFailure)
  | .semaphoreAcquire _, s =>
    if 0 < s.slots then some (.ok (), { s with slots := s.slots - 1 }) else none
  | .semaphoreRelease, s => some ((), s.release)
  | .checkpoint, _ => none
  | .authHeaders, _ => none
  | .authInvalidate, _ => none
  | .post _, _ => none

/-- What can arrive for a suspended call: its turn, a result of its provider, the issuer's
reply, or an exception. -/
inductive ApiKeyAnswer where
  | resumed
  | headers (headers : Headers)
  | invalidated (retry : Bool)
  | response (response : StreamedResponse)
  | raises (exc : PyExc)

def ApiKeyOp.decode : (o : ApiKeyOp) → ApiKeyAnswer → Option (ApiKeyAns o)
  | .semaphoreAcquire _, .raises exc => some (.error exc)
  | .checkpoint, .resumed => some (.ok ())
  | .checkpoint, .raises exc => some (.error exc)
  | .authHeaders, .headers headers => some (.ok headers)
  | .authHeaders, .raises exc => some (.error exc)
  | .authInvalidate, .invalidated retry => some (.ok retry)
  | .authInvalidate, .raises exc => some (.error exc)
  | .post _, .response response => some (.ok response)
  | .post _, .raises exc => some (.error exc)
  | _, _ => none

/-- Between the segments of the calls only time passes. -/
def ApiKeyState.advance (s : ApiKeyState) (seconds : ℚ) : Option ApiKeyState :=
  if 0 ≤ seconds then some { s with now := s.now + seconds } else none

abbrev ApiKeyScheduler (Spec ρ : Type) :=
  Scheduler ApiKeyOp ApiKeyAns ApiKeyState Spec ApiKeyAnswer ℚ (Except PyExc ρ)

abbrev ApiKeyPool (Spec ρ : Type) := Pool ApiKeyOp ApiKeyAns ApiKeyState Spec (Except PyExc ρ)

abbrev ApiKeyAct (Spec : Type) := Act Spec ApiKeyAnswer ℚ

/-- The `introspect` calls of a client, each for its key. -/
def ApiKeyIntrospectionClient.scheduler (client : ApiKeyIntrospectionClient) (sdk : ApiKeySdk) :
    ApiKeyScheduler String (Option ApiKeyPrincipal) where
  body apiKey := (client.introspect sdk apiKey).run
  exec := ApiKeyOp.exec
  decode := ApiKeyOp.decode
  env := ApiKeyState.advance

/-- A new client: no call was made yet. -/
def ApiKeyIntrospectionClient.start (client : ApiKeyIntrospectionClient) (now : ℚ) {Spec ρ : Type} :
    ApiKeyPool Spec ρ := .idle (.init client.tuning now)

def textBytes (text : String) : Bytes := text.toList.map fun c => UInt8.ofNat c.toNat

def unusableKeyBody : Bytes := textBytes "\x7b\"active\":false,\"schema_version\":\"1\"\x7d"

def writerBody : Bytes :=
  textBytes <| "\x7b\"active\":true,\"schema_version\":\"1\",\"audience_id\":\"orders\"," ++
    "\"principal\":\x7b\"user_id\":\"7d7d8a3e-6d58-4f1b-9a55-0c7cf0a3c1de\"," ++
    "\"role\":\"writer\",\"is_superuser\":false,\"access_mode\":\"read_write\"," ++
    "\"authentication_method\":\"api_key\",\"auth_generation\":7\x7d,\"key_expires_at\":null\x7d"

def writerPrincipal : ApiKeyPrincipal :=
  ⟨"7d7d8a3e-6d58-4f1b-9a55-0c7cf0a3c1de", .writer, false, .readWrite, 7⟩

/-- The SDK on the requests and the replies of one key. -/
def apiKeyV1Sdk : ApiKeySdk where
  request apiKey schemaVersion := apiKey ≠ "" && schemaVersion = "1"
  response body :=
    if body = unusableKeyBody then some .inactive
    else if body = writerBody then some (.active "orders" writerPrincipal)
    else none
  hasCapability principal role := principal.role = role

/-- A client whose circuit opens at the first failure. -/
def strictClient (maxConcurrency : ℕ) : ApiKeyIntrospectionClient where
  url := "http://auth:8000/user/private/v1/api-keys/introspect"
  auth := .static [(internalTokenHeader, .text "secret")]
  audienceId := "orders"
  tuning := { schemaVersion := "1", maxConcurrency, circuitFailureThreshold := 1 }

end FastapiM8
