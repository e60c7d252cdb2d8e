import FastapiM8.Revocation.Segments

/-! A call together with its provider: status requests and token exchanges on the wire, and
the outcomes that the HTTP attempts of one call meet. -/
namespace FastapiM8

/-- What a call does when its provider's coroutines are part of it. -/
abbrev WireOp := ClientOp ⊕ AuthOp

abbrev WireAns : WireOp → Type := Prog.SumAns ClientAns AuthAns

/-- The state of a client and of its provider. -/
structure WireState where
  client : ClientState
  credential : CredentialState

def WireOp.exec : (o : WireOp) → WireState → Option (WireAns o × WireState)
  | .inl o, s => (o.exec s.client).map fun r => (r.1, { s with client := r.2 })
  | .inr o, s => (o.exec s.client.now s.credential).map fun r => (r.1, { s with credential := r.2 })

/-- Awaiting the provider runs its coroutine. -/
def wire (provider : InternalAuthProvider) : (o : ClientOp) → Prog WireOp WireAns (ClientAns o)
  | .authHeaders => provider.headers.run.inr
  | .authInvalidate => provider.invalidate.run.inr
  | o => Prog.perform (Sum.inl o)

/-- What ends a suspension of a call, with the state in which the call resumes: the outcome of
a status request or of a token exchange, or the provider's lock. -/
inductive Delivery where
  | status (outcome : Except PyExc Response) (s : WireState)
  | exchange (outcome : Except PyExc Response) (s : WireState)
  | granted (s : WireState)

namespace Delivery

def toClient : (o : ClientOp) → Delivery → Option (ClientAns o × WireState)
  | .post _, .status outcome s => some (outcome, s)
  | _, _ => none

def toProvider : (o : AuthOp) → Delivery → Option (AuthAns o × WireState)
  | .exchange _, .exchange outcome s => some (outcome, s)
  | .lockAcquire, .granted s =>
    some (.ok (), { s with credential := { s.credential with locked := true } })
  | _, _ => none

def deliver : (o : WireOp) → Delivery → Option (WireAns o × WireState)
  | .inl o => toClient o
  | .inr o => toProvider o

/-- The outcome of an HTTP attempt. -/
def attempt? : Delivery → Option (Except PyExc Response)
  | .status outcome _ => some outcome
  | .exchange outcome _ => some outcome
  | .granted _ => none

/-- The reply to a status request, with the state at its receipt. -/
def statusReply? : Delivery → Option (Response × WireState)
  | .status (.ok response) s => some (response, s)
  | _ => none

end Delivery

/-- Whether an attempt reached a server that was up. -/
def answeredBelow500 : Except PyExc Response → Bool
  | .ok response => response.statusCode < 500
  | .error _ => false

/-- Every HTTP attempt of a call was answered with a status below 500. -/
def NoOutage (ds : List Delivery) : Prop :=
  ∀ d ∈ ds, ∀ outcome, d.attempt? = some outcome → answeredBelow500 outcome = true

instance (ds : List Delivery) : Decidable (NoOutage ds) :=
  inferInstanceAs (Decidable (∀ d ∈ ds, ∀ outcome ∈ d.attempt?, answeredBelow500 outcome = true))

end FastapiM8
