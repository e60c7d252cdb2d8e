import FastapiM8.InternalAuth
import FastapiM8.Lib.Pool
import FastapiM8.Revocation.Events

/-! The revocation client: its coroutines, the state they share, and the pool of calls that
run on one event loop. -/
namespace FastapiM8

/-- A reply of the JTI-status endpoint that validates against the contract. -/
inductive JtiStatusResponse where
  | inactive
  | active (userId : String) (authGeneration : ℤ)
  deriving DecidableEq

/-- The models of the SDK: what a decoded reply or an event payload validates to, `none`
for a `ValidationError`. -/
structure Sdk where
  jtiStatus : Json → Option JtiStatusResponse
  sessionRevoked : List (String × Json) → Option SessionRevokedEvent

/-- One JTI-status request. -/
structure StatusRequest where
  url : String
  jti : String
  expectedUserId : String
  schemaVersion : String
  headers : Headers

/-- The configuration of a client; its cache is in the shared state. -/
structure RemoteRevocationClient where
  url : String
  schemaVersion : String
  auth : InternalAuthProvider
  failClosed : Bool
  cacheTtl : ℤ

def RemoteRevocationClient.init (introspectionUrl : String) (privateApiSecret : Option String)
    (authProvider : Option InternalAuthProvider) (failClosed : Bool) (cacheTtl : ℤ)
    (schemaVersion : String) : Except PyExc RemoteRevocationClient :=
  match privateApiSecret, authProvider with
  | none, some auth => .ok ⟨introspectionUrl, schemaVersion, auth, failClosed, cacheTtl⟩
  | some secret, none =>
    .ok ⟨introspectionUrl, schemaVersion, .static [(internalTokenHeader, .text secret)], failClosed,
      cacheTtl⟩
  | _, _ =>
    .error (.valueError (some "provide exactly one of private_api_secret or auth_provider"))

/-- What a call does on the shared client and on the wire. The provider's coroutines are
awaited as single operations here. The one exception of `cachePut` is an `OverflowError`; it answers
whether it was spared that. -/
inductive ClientOp where
  | authHeaders
  | authInvalidate
  | post (request : StatusRequest)
  | cachePresent
  | cacheGet (jti : String)
  | cacheIsSuperseded (userId : String) (authGeneration : ℤ)
  | cachePut (jti userId : String) (authGeneration : ℤ)

abbrev ClientAns : ClientOp → Type
  | .authHeaders => Except PyExc Headers
  | .authInvalidate => Except PyExc Bool
  | .post _ => Except PyExc Response
  | .cachePresent | .cacheIsSuperseded _ _ | .cachePut _ _ _ => Bool
  | .cacheGet _ => Option Bool

namespace RemoteRevocationClient

variable (client : RemoteRevocationClient) (sdk : Sdk)

/-- Send one authenticated JTI-status request; raise on HTTP error. -/
def post (jti userId : String) : Py ClientOp ClientAns Response := do
  let headers : Headers ← Py.await ClientOp.authHeaders id
  let request : StatusRequest := ⟨client.url, jti, userId, client.schemaVersion, headers⟩
  let response : Response ← Py.await (ClientOp.post request) id
  response.raiseForStatus
  return response

/-- Validate the issuer's reply against the SDK contract, or fail closed. Only a `ValueError` of
`response.json()` is taken for an answer that cannot be read. -/
def parse (response : Response) : Except PyExc JtiStatusResponse :=
  match response.json with
  | .ok data =>
    match sdk.jtiStatus data with
    | some result => .ok result
    | none => .error (.revocationDecisionError "malformed_response")
  | .error (.valueError _) => .error (.revocationDecisionError "malformed_response")
  | .error exc => .error exc

theorem parse_of_some {response : Response} {result : JtiStatusResponse}
    (h : response.body.bind sdk.jtiStatus = some result) : parse sdk response = .ok result := by
  unfold parse Response.json
  unfold Response.body at h
  cases hcontent : response.content with
  | json data =>
    have hdata : sdk.jtiStatus data = some result := by simpa [hcontent] using h
    simp [hdata]
  | malformed | tooDeep => simp [hcontent] at h

/-- A reply without a decision is refused, except that one whose body nests too deeply raises what
the decoder raised. -/
theorem parse_of_none {response : Response} (h : response.body.bind sdk.jtiStatus = none) :
    parse sdk response = .error (if response.nestsTooDeep then .recursionError
      else .revocationDecisionError "malformed_response") := by
  unfold parse Response.json Response.nestsTooDeep
  unfold Response.body at h
  cases hcontent : response.content with
  | json data =>
    have hdata : sdk.jtiStatus data = none := by simpa [hcontent] using h
    simp [hdata]
  | malformed | tooDeep => rfl

/-- An active reply for a subject that the request did not assert is refused. -/
def checkSubject (userId : String) : JtiStatusResponse → Except PyExc JtiStatusResponse
  | .inactive => .ok .inactive
  | .active owner authGeneration =>
    if owner = userId then .ok (.active owner authGeneration)
    else .error (.revocationDecisionError "subject_mismatch")

/-- The first half of `_query_status`: a 401 is retried once when the provider says so. -/
def postRetrying (jti userId : String) : Py ClientOp ClientAns Response := do
  match ← Py.attempt (client.post jti userId) with
  | .ok response => return response
  | .error (.httpStatusError 401) =>
    let retry : Bool ← Py.await ClientOp.authInvalidate id
    if retry then client.post jti userId else throw (.httpStatusError 401)
  | .error exc => throw exc

def queryStatus (jti userId : String) : Py ClientOp ClientAns JtiStatusResponse := do
  let response ← client.postRetrying jti userId
  let result ← parse sdk response
  checkSubject userId result

/-- `is_revoked` from its `try` on: ask the issuer and act on the outcome. -/
def askIssuer (jti userId : String) : Py ClientOp ClientAns Bool := do
  match ← Py.attempt (client.queryStatus sdk jti userId) with
  | .error (.revocationDecisionError reason) => throw (.revocationDecisionError reason)
  | .error exc =>
    if exc.isException = false then throw exc
    else if client.failClosed then throw (.revocationCheckError exc)
    else return false
  | .ok .inactive => return true
  | .ok (.active _ authGeneration) =>
    let present : Bool ← Py.perform ClientOp.cachePresent
    if present then
      let superseded : Bool ← Py.perform (ClientOp.cacheIsSuperseded userId authGeneration)
      if superseded then return true
      else
        let fits : Bool ← Py.perform (ClientOp.cachePut jti userId authGeneration)
        if fits then return false else throw .overflowError
    else return false

def isRevoked (jti userId : String) (bypassCache : Bool) : Py ClientOp ClientAns Bool := do
  let present : Bool ← Py.perform ClientOp.cachePresent
  if present && !bypassCache then
    let cached : Option Bool ← Py.perform (ClientOp.cacheGet jti)
    match cached with
    | some hit => return hit
    | none => client.askIssuer sdk jti userId
  else client.askIssuer sdk jti userId

end RemoteRevocationClient

/-- What the calls of a client share: its cache, and the monotonic clock. -/
structure ClientState where
  cache : Option JtiRevocationCache
  now : ℚ

namespace ClientState

/-- A cache exists only for a positive time to live. -/
def init (client : RemoteRevocationClient) (now : ℚ) : ClientState where
  cache := if 0 < client.cacheTtl then some (.init client.cacheTtl) else none
  now := now

/-- Replace the cache when there is one. -/
def mapCache (s : ClientState) (f : JtiRevocationCache → JtiRevocationCache) : ClientState :=
  { s with cache := s.cache.map f }

def applySessionRevokedEvent (sdk : Sdk) (s : ClientState) (payload : List (String × Json)) :
    ClientState :=
  s.mapCache fun c => c.applySessionRevoked (sdk.sessionRevoked payload)

def evictJti (s : ClientState) (jti : String) : ClientState := s.mapCache fun c => c.evictJti jti

def evictUser (s : ClientState) (userId : String) : ClientState :=
  s.mapCache fun c => c.evictUser userId

def flushCache (s : ClientState) : ClientState := s.mapCache JtiRevocationCache.flushAll

end ClientState

/-- The cache is read and written at once; the provider and the issuer are awaited. -/
def ClientOp.exec : (o : ClientOp) → ClientState → Option (ClientAns o × ClientState)
  | .authHeaders, _ => none
  | .authInvalidate, _ => none
  | .post _, _ => none
  | .cachePresent, s => some (s.cache.isSome, s)
  | .cacheGet jti, s =>
    match s.cache with
    | none => some (none, s)
    | some c => some ((c.get s.now jti).1, { s with cache := some (c.get s.now jti).2 })
  | .cacheIsSuperseded userId authGeneration, s =>
    some (s.cache.any fun c => c.isSuperseded userId authGeneration, s)
  | .cachePut jti userId authGeneration, s =>
    match s.cache with
    | none => some (true, s)
    | some c =>
      let stored := c.put s.now jti userId authGeneration
      some (stored.1.isOk, { s with cache := some stored.2 })

/-- What can arrive for a suspended call: a result of its provider, the issuer's reply, or
an exception. -/
inductive ClientAnswer where
  | headers (headers : Headers)
  | invalidated (retry : Bool)
  | response (response : Response)
  | raises (exc : PyExc)

def ClientOp.decode : (o : ClientOp) → ClientAnswer → Option (ClientAns o)
  | .authHeaders, .headers headers => some (.ok headers)
  | .authInvalidate, .invalidated retry => some (.ok retry)
  | .post _, .response response => some (.ok response)
  | .authHeaders, .raises exc => some (.error exc)
  | .authInvalidate, .raises exc => some (.error exc)
  | .post _, .raises exc => some (.error exc)
  | _, _ => none

/-- Everything else that happens to a client between the segments of its calls. -/
inductive ClientEvent where
  | sessionRevoked (payload : List (String × Json))
  | evictJti (jti : String)
  | evictUser (userId : String)
  | flushCache
  | advance (seconds : ℚ)

def ClientEvent.apply (sdk : Sdk) (s : ClientState) : ClientEvent → Option ClientState
  | .sessionRevoked payload => some (s.applySessionRevokedEvent sdk payload)
  | .evictJti jti => some (s.evictJti jti)
  | .evictUser userId => some (s.evictUser userId)
  | .flushCache => some s.flushCache
  | .advance seconds => if 0 ≤ seconds then some { s with now := s.now + seconds } else none

/-- The arguments of one `is_revoked` call. -/
structure CallSpec where
  jti : String
  userId : String
  bypassCache : Bool
  deriving DecidableEq

abbrev ClientScheduler :=
  Scheduler ClientOp ClientAns ClientState CallSpec ClientAnswer ClientEvent (Except PyExc Bool)

abbrev ClientPool := Pool ClientOp ClientAns ClientState CallSpec (Except PyExc Bool)

abbrev ClientAct := Act CallSpec ClientAnswer ClientEvent

def RemoteRevocationClient.scheduler (client : RemoteRevocationClient) (sdk : Sdk) :
    ClientScheduler where
  body spec := (client.isRevoked sdk spec.jti spec.userId spec.bypassCache).run
  exec := ClientOp.exec
  decode := ClientOp.decode
  env := ClientEvent.apply sdk

/-- A new client: no call was made yet. -/
def RemoteRevocationClient.start (client : RemoteRevocationClient) (now : ℚ) : ClientPool :=
  .idle (.init client now)

end FastapiM8
