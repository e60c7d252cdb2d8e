import FastapiM8.Revocation.Client

/-! The auth dependencies of a service: the revocation check of a bearer token, the guards that
are built on it, and the events that reach the validation cache. -/
namespace FastapiM8

def forbidden : ℕ := 403

def unavailable : ℕ := 503

def noPrivileges : String := "The user doesn't have enough privileges"

def sessionRevokedType : String := "session.revoked"

def userDeletedType : String := "user.deleted"

inductive RoleType where
  | user | reader | writer | admin | superadmin
  deriving DecidableEq, Repr

/-- The payload of a validated access token; `fields` is its dump. -/
structure TokenPayload where
  jti : String
  sub : String
  fields : List (String × Json)

structure UserModel where
  id : String
  role : RoleType
  isSuperuser : Bool
  isActive : Bool
  deriving DecidableEq

/-- The SDK's user model, with `none` for a `ValidationError`, and its policy helpers. -/
structure PolicySdk where
  userModel : List (String × Json) → Option UserModel
  hasMinimumRole : RoleType → RoleType → Bool
  hasSuperuserPrivileges : RoleType → Bool → Bool

/-- `_validate_access_token`, on what the validator answers: `none` for an `InvalidToken`. -/
def validateAccessToken : Option TokenPayload → Except PyExc TokenPayload
  | some payload => .ok payload
  | none => .error (.httpException forbidden "Could not validate credentials.")

/-- How the revocation check of a token ends for the answer of `is_revoked`. -/
def revocationOutcome : Except PyExc Bool → Except PyExc Unit
  | .ok false => .ok ()
  | .ok true => .error (.httpException forbidden "Token has been revoked.")
  | .error (.revocationCheckError _) | .error (.revocationDecisionError _) =>
    .error (.httpException unavailable "Token revocation check unavailable.")
  | .error exc => .error exc

def checkTokenRevocation (sdk : Sdk) (revocationClient : Option RemoteRevocationClient)
    (jti userId : String) (bypassCache : Bool) : Py ClientOp ClientAns Unit :=
  match revocationClient with
  | none => pure ()
  | some client => do
    let outcome : Except PyExc Bool ← Py.attempt (client.isRevoked sdk jti userId bypassCache)
    revocationOutcome outcome

namespace PolicySdk

variable (policy : PolicySdk)

/-- The user model is built from the payload without its token claims, under the subject's id. -/
def buildActiveUser (payload : TokenPayload) : Except PyExc UserModel :=
  let payloadDict := ("id", Json.str payload.sub) ::
    payload.fields.filter fun field => field.1 ∉ ["exp", "jti", "type", "sub", "id"]
  match policy.userModel payloadDict with
  | none => .error (.valueError none)
  | some user =>
    if user.isActive then .ok user else .error (.httpException forbidden "Inactive user")

def requireRole (currentUser : UserModel) (roleLimit : RoleType) : Except PyExc Unit :=
  if policy.hasMinimumRole currentUser.role roleLimit then .ok ()
  else .error (.httpException forbidden noPrivileges)

/-- The dual-evidence check of `get_current_active_superuser`. -/
def requireSuperuser (currentUser : UserModel) : Except PyExc Unit :=
  if policy.hasSuperuserPrivileges currentUser.role currentUser.isSuperuser then .ok ()
  else .error (.httpException forbidden noPrivileges)

end PolicySdk

/-- The dependencies of one service share its revocation client. -/
structure AuthDeps where
  revocationClient : Option RemoteRevocationClient

/-- The settings that decide on the revocation client. -/
structure ConsumerServiceSettings extends InternalAuthSettings where
  isStateful : Bool
  authServiceRole : String
  accessRevocationMode : String
  revocationCacheTtlSeconds : ℤ

/-- Only a stateful consumer has a revocation client. -/
def buildAuthDeps (schemaVersion : String) (settings : ConsumerServiceSettings) :
    Except PyExc AuthDeps :=
  if settings.isStateful && settings.authServiceRole = "consumer" then do
    let client ← RemoteRevocationClient.init (strOrNone settings.introspectionUrl) none
      (some (buildInternalAuth settings.toInternalAuthSettings))
      (settings.accessRevocationMode = "fail_closed") settings.revocationCacheTtlSeconds
      schemaVersion
    return ⟨some client⟩
  else return ⟨none⟩

namespace AuthDeps

variable (deps : AuthDeps) (sdk : Sdk) (policy : PolicySdk) (validated : Option TokenPayload)

def authenticate (bypassCache : Bool) : Py ClientOp ClientAns UserModel := do
  let payload ← validateAccessToken validated
  checkTokenRevocation sdk deps.revocationClient payload.jti payload.sub bypassCache
  policy.buildActiveUser payload

def getCurrentUser : Py ClientOp ClientAns UserModel :=
  deps.authenticate sdk policy validated false

/-- The only path that a role guard can reach. -/
def getCurrentUserFresh : Py ClientOp ClientAns UserModel :=
  deps.authenticate sdk policy validated true

def requireRole (requiredRole : RoleType) : Py ClientOp ClientAns UserModel := do
  let currentUser ← deps.getCurrentUserFresh sdk policy validated
  policy.requireRole currentUser requiredRole
  return currentUser

def getCurrentActiveReader : Py ClientOp ClientAns UserModel :=
  deps.requireRole sdk policy validated .reader

def getCurrentActiveWriter : Py ClientOp ClientAns UserModel :=
  deps.requireRole sdk policy validated .writer

def getCurrentActiveAdmin : Py ClientOp ClientAns UserModel :=
  deps.requireRole sdk policy validated .admin

def getCurrentActiveSuperuser : Py ClientOp ClientAns UserModel := do
  let currentUser ← deps.getCurrentUserFresh sdk policy validated
  policy.requireSuperuser currentUser
  return currentUser

/-- An operation on the validation cache, when there is a revocation client. -/
def onClient (f : ClientState → ClientState) (s : ClientState) : ClientState :=
  if deps.revocationClient.isSome then f s else s

def evictJti (s : ClientState) (jti : String) : ClientState :=
  deps.onClient (fun s => s.evictJti jti) s

def evictUser (s : ClientState) (userId : String) : ClientState :=
  deps.onClient (fun s => s.evictUser userId) s

def flushCache (s : ClientState) : ClientState := deps.onClient ClientState.flushCache s

end AuthDeps

/-- An event of the auth stream. -/
structure AuthStreamEvent where
  eventType : String
  payload : List (String × Json)

/-- `event_type.replace("-", ".")`. -/
def dotted (eventType : String) : String :=
  String.ofList (eventType.toList.map fun c => if c = '-' then '.' else c)

def AuthDeps.handleAuthEvent (deps : AuthDeps) (sdk : Sdk) (s : ClientState)
    (event : AuthStreamEvent) : ClientState :=
  let eventType := dotted event.eventType
  if eventType = sessionRevokedType && deps.revocationClient.isSome then
    s.applySessionRevokedEvent sdk event.payload
  else if eventType = userDeletedType then
    match event.payload.lookup "user_id" with
    | some (.str userId) => deps.evictUser s userId
    | _ => s
  else s

/-- The dependencies that a route can ask for. -/
inductive Dependency where
  | currentUser
  | requireRole (role : RoleType)
  | activeSuperuser
  deriving DecidableEq

def Dependency.isRoleGuard : Dependency → Bool
  | .currentUser => false
  | _ => true

/-- A request to a route: its dependency, and what the validator answers for its token. -/
structure Request where
  dependency : Dependency
  validated : Option TokenPayload

def Dependency.run (deps : AuthDeps) (sdk : Sdk) (policy : PolicySdk)
    (validated : Option TokenPayload) : Dependency → Py ClientOp ClientAns UserModel
  | .currentUser => deps.getCurrentUser sdk policy validated
  | .requireRole role => deps.requireRole sdk policy validated role
  | .activeSuperuser => deps.getCurrentActiveSuperuser sdk policy validated

/-- What else happens to the validation cache while requests are served. -/
inductive DepsEvent where
  | authEvent (event : AuthStreamEvent)
  | evictJti (jti : String)
  | evictUser (userId : String)
  | flushCache
  | advance (seconds : ℚ)

def DepsEvent.apply (deps : AuthDeps) (sdk : Sdk) (s : ClientState) :
    DepsEvent → Option ClientState
  | .authEvent event => some (deps.handleAuthEvent sdk s event)
  | .evictJti jti => some (deps.evictJti s jti)
  | .evictUser userId => some (deps.evictUser s userId)
  | .flushCache => some (deps.flushCache s)
  | .advance seconds => if 0 ≤ seconds then some { s with now := s.now + seconds } else none

abbrev DepsScheduler :=
  Scheduler ClientOp ClientAns ClientState Request ClientAnswer DepsEvent (Except PyExc UserModel)

abbrev DepsPool := Pool ClientOp ClientAns ClientState Request (Except PyExc UserModel)

abbrev DepsAct := Act Request ClientAnswer DepsEvent

/-- The requests of a service, on one event loop. -/
def AuthDeps.scheduler (deps : AuthDeps) (sdk : Sdk) (policy : PolicySdk) : DepsScheduler where
  body request := (request.dependency.run deps sdk policy request.validated).run
  exec := ClientOp.exec
  decode := ClientOp.decode
  env := DepsEvent.apply deps sdk

/-- A service that has served no request yet. -/
def AuthDeps.start (deps : AuthDeps) (now : ℚ) : DepsPool :=
  .idle (match deps.revocationClient with
    | some client => .init client now
    | none => ⟨none, now⟩)

end FastapiM8
