import FastapiM8.Revocation.Wire
import FastapiM8.Revocation.Runs

/-! What a client that fails open accepts: only a call without a 2xx status reply that
`response.json()` can tell falls open, and it does so whatever its attempts were answered with. -/
namespace FastapiM8

open RemoteRevocationClient

variable {client : RemoteRevocationClient} {sdk : Sdk} {jti userId : String}
  {s s' : WireState} {ds rest : List Delivery} {result : Except PyExc Bool}

/-- A 2xx reply whose body `response.json()` decodes or refuses with a `ValueError`. -/
def Response.isReadable (r : Response) : Bool := r.isSuccess && !r.nestsTooDeep

/-- No status request was answered with a 2xx reply that can be read. -/
def NoDecision (ds : List Delivery) : Prop :=
  ∀ d ∈ ds, ∀ r, d.statusReply? = some r → r.1.isReadable = false

/-- What the deliveries of a status request tell about its outcome: a failure was read off
replies outside 2xx, a reply is the 2xx reply that came last. -/
def Reports (used : List Delivery) (s : WireState) : Except PyExc Response → Prop
  | .error exc => exc.ofReply = true ∧ NoDecision used
  | .ok r => r.isSuccess = true ∧ ∃ pre, used = pre ++ [.status (.ok r) s] ∧ NoDecision pre

theorem NoOutage.of_append {used : List Delivery} (h : NoOutage (used ++ rest)) : NoOutage rest :=
  fun d hd => h d (List.mem_append_right used hd)

theorem NoDecision.append {used used' : List Delivery} (h : NoDecision used)
    (h' : NoDecision used') : NoDecision (used ++ used') := by
  intro d hd
  rcases List.mem_append.mp hd with hd | hd
  · exact h d hd
  · exact h' d hd

theorem Reports.after {used used' : List Delivery} {outcome : Except PyExc Response}
    (h : Reports used s outcome) (hpre : NoDecision used') :
    Reports (used' ++ used) s outcome := by
  cases outcome with
  | error exc => exact ⟨h.1, hpre.append h.2⟩
  | ok r =>
    obtain ⟨hs, pre, rfl, hno⟩ := h
    exact ⟨hs, used' ++ pre, by simp, hpre.append hno⟩

/-- What an accepting call read off its last reply. -/
def Decided (sdk : Sdk) (userId : String) (r : Response) (s : WireState) : Prop :=
  ∃ g, r.body.bind sdk.jtiStatus = some (.active userId g) ∧
    s.client.isSuperseded userId g = false

end FastapiM8
