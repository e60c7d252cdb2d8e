import FastapiM8.Health.Gather
import FastapiM8.Lifespan

/-! The app of a service: the startup that makes it ready, and its health endpoint, which answers
from the shared evaluation of the checks. -/
namespace FastapiM8

/-- The credentials that the app factory reads from the settings. -/
structure OperationalSettings where
  privateApiSecret : Option String
  healthDetailCredential : Option String := none
  metricsScrapeCredential : Option String := none

structure ConfigurationError where
  message : String
  deriving DecidableEq

def ConfigurationError.toPyExc (_error : ConfigurationError) : PyExc := .other "ConfigurationError"

/-- `cred.get_secret_value() if cred else None`: an empty credential counts as unset. -/
def setCredential : Option String → Option String
  | some "" => none
  | cred => cred

def reuseError (field : String) : ConfigurationError where
  message := "CONFIG: " ++ field ++
    " must not equal PRIVATE_API_SECRET — operational credentials " ++
    "must be independently rotatable from the private-API bootstrap secret (item 9.3). " ++
    "Set a distinct value."

/-- An operational credential must not reuse the private API secret. -/
def checkCredentialNoReuse (settings : OperationalSettings) : Except ConfigurationError Unit :=
  match settings.privateApiSecret with
  | none => .ok ()
  | some priVal =>
    if setCredential settings.healthDetailCredential = some priVal then
      .error (reuseError "HEALTH_DETAIL_CREDENTIAL")
    else if setCredential settings.metricsScrapeCredential = some priVal then
      .error (reuseError "METRICS_SCRAPE_CREDENTIAL")
    else .ok ()

/-- A request to the health endpoint. -/
structure HealthRequest where
  headers : List (String × String)

/-- An app as `create_app` builds it. `configHealth` is how the SDK's `check_config_health` ends on
the settings, `makeInternalTokenAuthorizer` its factory of the default authorizer.
`detailAuthorizer` says whether the service brings its own, which may keep a state or be awaited:
what it answers to a request arrives by an act. -/
structure App where
  settings : OperationalSettings
  configHealth : Except PyExc Unit
  lifecycle : AppLifecycle
  health : HealthConfig
  detailPublic : Bool := false
  detailAuthorizer : Bool := false
  makeInternalTokenAuthorizer : Option String → HealthRequest → Bool
  serviceName : Option String := none
  serviceVersion : Option String := none
  version : String
  authVersion : Option String

/-- The body of a health response. -/
inductive HealthContent where
  | initializing
  | ok
  | detailed (status : HealthStatus) (checks : List HealthCheckReport)
      (service version : Option String) (fastapiM8 : String) (authSdkM8 : Option String)

structure JSONResponse where
  content : HealthContent
  statusCode : ℕ := 200

/-- A call of the health endpoint. -/
inductive HealthCall where
  | authorizing
  | gathering
  | responded (response : JSONResponse)
  | raised (exc : PyExc)
  | cancelled

/-- The lifespan of an app, its `state`, and the calls of its health endpoint; the
`health_cache`, the clock and the probes are in `health`. -/
structure AppState where
  lifespan : Prog LifespanOp LifespanAns (Except PyExc Unit)
  serviceReady : Bool
  readySince : Option ℚ
  health : HealthState
  calls : ℕ → Option HealthCall

/-- The ways an app can move. -/
inductive AppAct where
  | lifespan (e : LifespanEvent)
  | request (id : ℕ) (request : HealthRequest)
  | authorized (id : ℕ) (answer : Except PyExc Bool)
  | health (l : HealthAct)

/-- The probe that an act moves. -/
def HealthAct.id? : HealthAct → Option ℕ
  | .probe id | .begin id _ | .finish id _ _ | .join id | .cancel id => some id
  | .wait _ => none

def initializing : JSONResponse := ⟨.initializing, 503⟩

/-- What a caller is told who is not authorized. -/
def shallow : JSONResponse := ⟨.ok, 200⟩

namespace AppState

def setCall (s : AppState) (id : ℕ) (call : HealthCall) : AppState :=
  { s with calls := Function.update s.calls id (some call) }

def markReady (s : AppState) : AppState :=
  { s with serviceReady := true, readySince := some s.health.now }

end AppState

namespace App

variable (app : App)

/-- The validator that `create_app` runs before those it is given. -/
def validateConfigHealth : Except PyExc Unit := do
  app.configHealth
  (checkCredentialNoReuse app.settings).mapError ConfigurationError.toPyExc

def lifespan : Lifespan := do
  app.validateConfigHealth
  app.lifecycle.lifespan

/-- The predicate on the credential of the health detail. -/
def defaultAuthorizer (request : HealthRequest) : Bool :=
  app.makeInternalTokenAuthorizer (setCredential app.settings.healthDetailCredential) request

def authorize : Option (HealthRequest → Bool) :=
  if app.detailAuthorizer then none else some app.defaultAuthorizer

/-- A new app. -/
def init (now : ℚ) : AppState where
  lifespan := app.lifespan.run
  serviceReady := false
  readySince := none
  health := .init now
  calls _ := none

/-- `_build_health_body`, with the overall status. -/
def detailResponse (g : Gathered) : JSONResponse where
  content := .detailed g.overall (g.results.map HealthCheckResult.modelDump) app.serviceName
    app.serviceVersion app.version app.authVersion
  statusCode := g.code

/-- A call answers as soon as its probe returns. -/
def settleCall (s : AppState) (id : ℕ) : AppState :=
  match s.health.probes id with
  | none => s
  | some (.gathering _) => s.setCall id .gathering
  | some (.returned g) => s.setCall id (.responded (app.detailResponse g))
  | some .raised => s.setCall id (.raised (.other "AttributeError"))
  | some .cancelled => s.setCall id .cancelled

def gather (s : AppState) (id : ℕ) : Option AppState :=
  (app.health.step s.health (.probe id)).map fun h => app.settleCall { s with health := h } id

/-- The endpoint once the authorizer has answered. -/
def decided (s : AppState) (id : ℕ) : Except PyExc Bool → Option AppState
  | .ok true => app.gather s id
  | .ok false => some (s.setCall id (.responded shallow))
  | .error exc => some (s.setCall id (.raised exc))

/-- The endpoint on a request. -/
def answer (s : AppState) (id : ℕ) (request : HealthRequest) : Option AppState :=
  if s.serviceReady = false then some (s.setCall id (.responded initializing))
  else if app.detailPublic then app.gather s id
  else
    match app.authorize with
    | some authorize => app.decided s id (.ok (authorize request))
    | none => some (s.setCall id .authorizing)

/-- One step of the lifespan, of a health call, of a check, or of the clock. -/
def step (s : AppState) : AppAct → Option AppState
  | .lifespan e =>
    (s.lifespan.advance e).map fun p =>
      let s' := { s with lifespan := p }
      if e.1 = .markReady then s'.markReady else s'
  | .request id request =>
    match s.calls id with
    | some _ => none
    | none => app.answer s id request
  | .authorized id answer =>
    match s.calls id with
    | some .authorizing => app.decided s id answer
    | _ => none
  | .health (.probe _) => none
  | .health l =>
    (app.health.step s.health l).map fun h =>
      let s' := { s with health := h }
      match l.id? with
      | some id => app.settleCall s' id
      | none => s'

end App

end FastapiM8
