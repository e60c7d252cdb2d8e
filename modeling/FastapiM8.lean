import FastapiM8.Lib.OrderedDict
import FastapiM8.Lib.Pool
import FastapiM8.Python
import FastapiM8.Revocation.Watermark
import FastapiM8.Revocation.Cache
import FastapiM8.Revocation.Events
import FastapiM8.Revocation.Replay
import FastapiM8.Revocation.Superseded
import FastapiM8.Lib.Records
import FastapiM8.InternalAuth
import FastapiM8.Revocation.Reorder
import FastapiM8.Revocation.Client
import FastapiM8.Revocation.Segments
import FastapiM8.Revocation.Runs
import FastapiM8.Revocation.Provenance
import FastapiM8.Revocation.Barrier
import FastapiM8.Revocation.Wire
import FastapiM8.Revocation.FailOpen
import FastapiM8.Lib.View
import FastapiM8.Deps
import FastapiM8.RoleGuards
import FastapiM8.ApiKey.Breaker
import FastapiM8.ApiKey.Client
import FastapiM8.ApiKey.Segments
import FastapiM8.ApiKey.Runs
import FastapiM8.ApiKey.Circuit
import FastapiM8.Lib.Monitor
import FastapiM8.ApiKey.Charge
import FastapiM8.ApiKey.Deps
import FastapiM8.InternalAuth.Segments
import FastapiM8.ApiKey.Typed
import FastapiM8.InternalAuth.Lifecycle
import FastapiM8.InternalAuth.Rejection
import FastapiM8.InternalAuth.Runs
import FastapiM8.Settings
import FastapiM8.Lifespan
import FastapiM8.RouteAudit
import FastapiM8.Lib.Regex
import FastapiM8.Health
import FastapiM8.Health.Scrub
import FastapiM8.Health.Meta
import FastapiM8.Health.Aggregate
import FastapiM8.Health.Gather
import FastapiM8.ApiKey.Automaton
import FastapiM8.ApiKey.Denial
import FastapiM8.ApiKey.Status
import FastapiM8.ApiKey.Slots
import FastapiM8.Revocation.Frame
import FastapiM8.Lib.Tenure
import FastapiM8.Revocation.Maps
import FastapiM8.Revocation.Growth
import FastapiM8.Lib.Leftmost
import FastapiM8.Health.Stable
import FastapiM8.Revocation.Opaque
import FastapiM8.ApiKey.Body
import FastapiM8.Lib.Wrap
import FastapiM8.Requests
import FastapiM8.Lib.Ending
import FastapiM8.Requests.Verdicts
import FastapiM8.Revocation.Denials
import FastapiM8.Requests.Modes
import FastapiM8.App
import FastapiM8.App.Startup
import FastapiM8.App.HealthRoute
import FastapiM8.Lib.Lock
import FastapiM8.Compat
import FastapiM8.Lib.Instrument
import FastapiM8.Revocation.Metrics
import FastapiM8.Revocation.Counters
import FastapiM8.Requests.Window
import FastapiM8.Lib.Lockstep
import FastapiM8.App.Secrets
import FastapiM8.ApiKey.Verdicts
import FastapiM8.IssuerUrls
import FastapiM8.ServiceClient
import FastapiM8.Lib.Course
import FastapiM8.Requests.Exchange
import FastapiM8.Lib.Link
import FastapiM8.Requests.Wired
