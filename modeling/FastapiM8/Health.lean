import FastapiM8.Lib.OrderedDict
import FastapiM8.Lib.Regex
import FastapiM8.Python

/-! Health checks: what a check reports, what is scrubbed from a report when it is serialised,
how one check ends under its timeout, and the aggregate of all of them. -/
namespace FastapiM8

/-- `\s` in a pattern over texts. -/
def isPySpace (c : Char) : Bool :=
  (9 ≤ c.toNat && c.toNat ≤ 13) || (28 ≤ c.toNat && c.toNat ≤ 32) ||
    (0x2000 ≤ c.toNat && c.toNat ≤ 0x200A) ||
    [0x85, 0xA0, 0x1680, 0x2028, 0x2029, 0x202F, 0x205F, 0x3000].contains c.toNat

/-- A letter under `re.IGNORECASE`: its two cases, and the letters beyond ASCII that fold to it. -/
def ignoreCase (letter c : Char) : Bool :=
  c = letter || c.toLower = letter || (letter = 'i' && (c = 'İ' || c = 'ı')) ||
    (letter = 'k' && c.toNat = 0x212A) || (letter = 's' && c = 'ſ')

def sensitiveWords : List String :=
  ["secret", "password", "passwd", "token", "api_key", "access_key", "private_key", "credential",
    "dsn"]

/-- `_SENSITIVE_KEY`: one of the words between underscores or ends of the key. -/
def sensitiveKey : Regex Char :=
  .seq (.alt .atStart (.one (· = '_')))
    (.seq (.anyOf (sensitiveWords.map fun word => .literal ignoreCase word.toList))
      (.alt (.atEnd (· = '\n')) (.one (· = '_'))))

/-- `_SENSITIVE_KEY.search(key)`. -/
def isSensitiveKey (key : String) : Bool := sensitiveKey.found true key.toList

/-- A user in the pattern of credentials. -/
def isUserChar (c : Char) : Bool := !(c = '/' || isPySpace c || c = ':' || c = '@')

/-- A password in the pattern of credentials. -/
def isPasswordChar (c : Char) : Bool := !(c = '/' || isPySpace c || c = '@')

/-- `_CRED_IN_URL`: `://`, a user, a colon, a password and `@`. -/
def credInUrl : Regex Char :=
  .seq (.literal (· == ·) "://".toList)
    (.seq (.many isUserChar) (.seq (.one (· = ':')) (.seq (.many isPasswordChar) (.one (· = '@')))))

def maskedCredentials : List Char := "://***:***@".toList

/-- Mask embedded credentials in free text. -/
def scrubText (text : String) : String :=
  if text = "" then text else String.ofList (credInUrl.sub maskedCredentials text.toList)

/-- What is left of a metadata value: nothing under a sensitive key, the scrubbed text of a
string, and any other value as it is. -/
def scrubValue (key : String) (value : Json) : Json :=
  if isSensitiveKey key then .str "REDACTED"
  else
    match value with
    | .str text => .str (scrubText text)
    | value => value

abbrev Meta := OrderedDict String Json

def scrubMeta (metadata : Option Meta) : Option Meta :=
  match metadata with
  | none => none
  | some d => if d.size = 0 then some d else some (d.map scrubValue)

/-- Possible states for a single health check or aggregate. -/
inductive HealthStatus where
  | ok | degraded | fail | unknown
  deriving DecidableEq, Repr

/-- Policy for mapping individual check statuses to an HTTP status code. -/
inductive HealthAggregatePolicy where
  | strict | lenient
  deriving DecidableEq, Repr

/-- Result of a single health check; `metadata` is its `meta`. -/
structure HealthCheckResult where
  name : String
  status : HealthStatus
  latencyMs : Option ℚ := none
  error : Option String := none
  metadata : Option Meta := none

/-- A result as it is serialised, with the computed field `ok`. -/
structure HealthCheckReport extends HealthCheckResult where
  ok : Bool

namespace HealthCheckResult

def ok (r : HealthCheckResult) : Bool := r.status = .ok

/-- `model_dump` with the serialisers of `error` and `meta`. -/
def modelDump (r : HealthCheckResult) : HealthCheckReport where
  name := r.name
  status := r.status
  latencyMs := r.latencyMs
  error := r.error.map scrubText
  metadata := scrubMeta r.metadata
  ok := r.ok

end HealthCheckResult

/-- A check as `_check_name` sees it. -/
structure HealthCheck where
  dunderName : Option String
  typeName : String

def HealthCheck.checkName (check : HealthCheck) : String := check.dunderName.getD check.typeName

/-- How a check ends under its timeout. -/
inductive CheckEnding where
  | returned (result : HealthCheckResult)
  | returnedNone
  | raised (message : String)
  | timedOut

/-- The nearest integer, of two equally near ones the even one. -/
def roundHalfEven (q : ℚ) : ℕ :=
  let n := q.floor.toNat
  if q - n < 1 / 2 ∨ q - n = 1 / 2 ∧ n % 2 = 0 then n else n + 1

/-- `f"{q:.0f}"`. -/
def formatInteger (q : ℚ) : String :=
  if q < 0 then "-" ++ toString (roundHalfEven (-q)) else toString (roundHalfEven q)

/-- Execute a single health check with a timeout, from when it began until it ended. -/
def runCheck (check : HealthCheck) (timeout began ended : ℚ) : CheckEnding → HealthCheckResult
  | .returned result => { result with latencyMs := some ((ended - began) * 1000) }
  | .returnedNone => { name := check.checkName, status := .unknown }
  | .raised message => { name := check.checkName, status := .fail, error := some message }
  | .timedOut =>
    { name := check.checkName, status := .fail
      error := some ("timeout " ++ formatInteger (timeout * 1000) ++ "ms") }

/-- Compute the overall status from a list of check results. -/
def aggregate (results : List HealthCheckResult) (policy : HealthAggregatePolicy) : HealthStatus :=
  let statuses := (results.map (·.status)).toFinset
  if statuses = ∅ then .ok
  else if .fail ∈ statuses then .fail
  else if policy = .strict ∧ .unknown ∈ statuses then .fail
  else if .unknown ∈ statuses then .unknown
  else if .degraded ∈ statuses then .degraded
  else .ok

end FastapiM8
