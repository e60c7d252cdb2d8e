import FastapiM8.ApiKey.Client

/-! The segments of an `introspect` call: where it can be suspended, and what each answer makes
it do to the breaker and to the semaphore before it waits again or ends. -/
namespace FastapiM8

/-- What a failure to get a slot is raised as. -/
def shed : PyExc → PyExc
  | .timeoutError => .apiKeyIntrospectionError "load_shed"
  | exc => exc

/-- The statuses that reject the consumer's own credential. -/
def IntrospectionReply.Rejects (reply : IntrospectionReply) : Prop :=
  reply.statusCode = 401 ∨ reply.statusCode = 403

instance (reply : IntrospectionReply) : Decidable reply.Rejects :=
  inferInstanceAs (Decidable (_ ∨ _))

/-- What a call learned about the issuer. -/
inductive Report where
  | success
  | failure
  deriving DecidableEq

/-- Tell the breaker what there is to tell. -/
def ApiKeyState.record (s : ApiKeyState) : Option Report → ApiKeyState
  | none => s
  | some .success => s.recordSuccess
  | some .failure => s.recordFailure

namespace ApiKeyIntrospectionClient

variable (client : ApiKeyIntrospectionClient) (sdk : ApiKeySdk) {α : Type}

/-- What a call ends with for a reply that it has read. -/
def verdict (reply : IntrospectionReply) : Except PyExc (Option ApiKeyPrincipal) :=
  if reply.statusCode = 429 then .error (.apiKeyQuotaExceededError reply.retryAfter)
  else if reply.Rejects then .error (.apiKeyIntrospectionError "consumer_unauthorized")
  else if 500 ≤ reply.statusCode then .error (.apiKeyIntrospectionError "issuer_unavailable")
  else if reply.statusCode ≠ 200 then .error (.apiKeyIntrospectionError "unexpected_status")
  else match sdk.response reply.body with
    | none => .error (.apiKeyIntrospectionError "malformed_response")
    | some .inactive => .ok none
    | some (.active audienceId principal) =>
      if audienceId ≠ client.audienceId then
        .error (.apiKeyIntrospectionError "audience_mismatch")
      else .ok (some principal)

/-- What a reply says about the issuer. -/
def replyReport (reply : IntrospectionReply) : Option Report :=
  if reply.statusCode = 429 ∨ reply.Rejects then none
  else if reply.statusCode ≠ 200 then some .failure
  else if (sdk.response reply.body).isSome then some .success
  else none

def requestFor (apiKey : String) (headers : Headers) : IntrospectionRequest :=
  ⟨client.url, apiKey, client.tuning.schemaVersion, headers⟩

/-- The reply that an answer to a POST amounts to. -/
def collect (r : Except PyExc StreamedResponse) : Except PyExc IntrospectionReply :=
  r.bind fun response => response.read client.tuning.maxResponseBytes

/-- A transmission once the provider has answered. -/
def afterHeaders (apiKey : String)
    (next : Except PyExc IntrospectionReply → Prog ApiKeyOp ApiKeyAns α) :
    Except PyExc Headers → Prog ApiKeyOp ApiKeyAns α
  | .error exc => next (.error exc)
  | .ok headers => .call (.post (client.requestFor apiKey headers))
      fun r : Except PyExc StreamedResponse => next (client.collect r)

/-- A transmission followed by what its caller does with the outcome. -/
def transmitThen (apiKey : String)
    (next : Except PyExc IntrospectionReply → Prog ApiKeyOp ApiKeyAns α) :
    Prog ApiKeyOp ApiKeyAns α := .call .authHeaders (client.afterHeaders apiKey next)

/-- A failed transmission that is not retried. -/
def giveUp (next : Except PyExc IntrospectionReply → Prog ApiKeyOp ApiKeyAns α) (exc : PyExc) :
    Prog ApiKeyOp ApiKeyAns α :=
  if exc.isHttpError then
    .call .recordFailure fun _ => next (.error (.apiKeyIntrospectionError "transport"))
  else next (.error exc)

/-- What follows the second transmission of a call. -/
def afterRetry (next : Except PyExc IntrospectionReply → Prog ApiKeyOp ApiKeyAns α) :
    Except PyExc IntrospectionReply → Prog ApiKeyOp ApiKeyAns α
  | .ok reply => next (.ok reply)
  | .error exc => giveUp next exc

/-- What follows the first transmission of a call. -/
def afterTransmit (apiKey : String)
    (next : Except PyExc IntrospectionReply → Prog ApiKeyOp ApiKeyAns α) :
    Except PyExc IntrospectionReply → Prog ApiKeyOp ApiKeyAns α
  | .ok reply => next (.ok reply)
  | .error exc =>
    if exc.isConnectFailure then client.transmitThen apiKey (afterRetry next) else giveUp next exc

/-- The end of a call: leave the slot, and interpret the reply when there is one. -/
def leave (outcome : Except PyExc IntrospectionReply) :
    Prog ApiKeyOp ApiKeyAns (Except PyExc (Option ApiKeyPrincipal)) :=
  .call .semaphoreRelease fun _ =>
    match outcome with
    | .error exc => .ret (.error exc)
    | .ok reply => (client.interpret sdk reply).run

/-- A call that comes to its slot. -/
def afterCheckpoint (apiKey : String) : Except PyExc Unit →
    Prog ApiKeyOp ApiKeyAns (Except PyExc (Option ApiKeyPrincipal))
  | .error exc => .call .semaphoreRelease fun _ => .ret (.error (shed exc))
  | .ok () => client.transmitThen apiKey (client.afterTransmit apiKey (client.leave sdk))

/-- A call that was given a slot, or was not. -/
def afterAcquire (apiKey : String) : Except PyExc Unit →
    Prog ApiKeyOp ApiKeyAns (Except PyExc (Option ApiKeyPrincipal))
  | .error exc => .ret (.error (shed exc))
  | .ok () => .call .checkpoint (client.afterCheckpoint sdk apiKey)

/-- A call that the breaker has admitted. -/
def admitted (apiKey : String) : Prog ApiKeyOp ApiKeyAns (Except PyExc (Option ApiKeyPrincipal)) :=
  .call (.semaphoreAcquire client.tuning.poolTimeout) (client.afterAcquire sdk apiKey)

variable {client sdk}

theorem run_transmit_bind (apiKey : String)
    (next : Except PyExc IntrospectionReply → Prog ApiKeyOp ApiKeyAns α) :
    (client.transmit apiKey).run >>= next = client.transmitThen apiKey next := by
  refine congrArg (Prog.call ApiKeyOp.authHeaders) (funext fun h : Except PyExc Headers => ?_)
  cases h with
  | error exc => rfl
  | ok headers =>
    refine congrArg (Prog.call (ApiKeyOp.post _))
      (funext fun r : Except PyExc StreamedResponse => ?_)
    cases r with
    | error exc => rfl
    | ok response => rfl

theorem run_failTransport_bind (exc : PyExc)
    (next : Except PyExc IntrospectionReply → Prog ApiKeyOp ApiKeyAns α) :
    (failTransport exc).run >>= next = giveUp next exc := by
  unfold failTransport giveUp
  cases exc.isHttpError <;> rfl

theorem afterTransmit_of_connect {exc : PyExc} (h : exc.isConnectFailure = true) (apiKey : String)
    (next : Except PyExc IntrospectionReply → Prog ApiKeyOp ApiKeyAns α) :
    client.afterTransmit apiKey next (.error exc) = client.transmitThen apiKey (afterRetry next) :=
  if_pos h

theorem afterTransmit_of_sent {exc : PyExc} (h : exc.isConnectFailure = false) (apiKey : String)
    (next : Except PyExc IntrospectionReply → Prog ApiKeyOp ApiKeyAns α) :
    client.afterTransmit apiKey next (.error exc) = giveUp next exc :=
  if_neg (Bool.eq_false_iff.mp h)

theorem run_send_bind (apiKey : String)
    (next : Except PyExc IntrospectionReply → Prog ApiKeyOp ApiKeyAns α) :
    (client.send apiKey).run >>= next =
      client.transmitThen apiKey (client.afterTransmit apiKey next) := by
  rw [send, Py.run_attempt_bind, Prog.bind_assoc, run_transmit_bind]
  refine congrArg (client.transmitThen apiKey) (funext fun outcome => ?_)
  cases outcome with
  | ok reply => rfl
  | error exc =>
    cases hc : exc.isConnectFailure with
    | false =>
      rw [afterTransmit_of_sent hc]
      simp only [hc, Bool.false_eq_true, ↓reduceIte]
      exact run_failTransport_bind exc next
    | true =>
      rw [afterTransmit_of_connect hc]
      simp only [hc, ↓reduceIte]
      rw [Py.run_attempt_bind, Prog.bind_assoc, run_transmit_bind]
      refine congrArg (client.transmitThen apiKey) (funext fun retried => ?_)
      cases retried with
      | ok reply => rfl
      | error retryExc => exact run_failTransport_bind retryExc next

/-- A call in its slot leaves it however its request ends. -/
theorem run_occupied (apiKey : String) :
    ((do
      let outcome : Except PyExc IntrospectionReply ← Py.attempt (client.send apiKey)
      Py.perform ApiKeyOp.semaphoreRelease
      outcome : Py ApiKeyOp ApiKeyAns IntrospectionReply) >>= client.interpret sdk).run =
      client.transmitThen apiKey (client.afterTransmit apiKey (client.leave sdk)) := by
  rw [ExceptT.run_bind, Py.run_attempt_bind, Prog.bind_assoc, run_send_bind]
  refine congrArg (client.transmitThen apiKey)
    (congrArg (client.afterTransmit apiKey) (funext fun outcome => ?_))
  refine congrArg (Prog.call ApiKeyOp.semaphoreRelease) (funext fun _ => ?_)
  cases outcome <;> rfl

/-- An `introspect` call with its awaits and its handlers written out. -/
theorem run_introspect (apiKey : String) :
    (client.introspect sdk apiKey).run =
      if sdk.request apiKey client.tuning.schemaVersion then
        .call .allowsCall fun allowed : Bool =>
          if allowed then client.admitted sdk apiKey
          else .ret (.error (.apiKeyIntrospectionError "circuit_open"))
      else .ret (.error (.valueError none)) := by
  unfold introspect buildRequest
  cases sdk.request apiKey client.tuning.schemaVersion with
  | false => rfl
  | true =>
    refine congrArg (Prog.call ApiKeyOp.allowsCall) (funext fun allowed : Bool => ?_)
    cases allowed with
    | false => rfl
    | true =>
      refine congrArg (Prog.call (ApiKeyOp.semaphoreAcquire _))
        (funext fun r : Except PyExc Unit => ?_)
      cases r with
      | error exc => cases exc <;> rfl
      | ok _ =>
        refine congrArg (Prog.call ApiKeyOp.checkpoint) (funext fun r : Except PyExc Unit => ?_)
        cases r with
        | error exc => cases exc <;> rfl
        | ok _ => exact run_occupied apiKey

end ApiKeyIntrospectionClient

/-- What the answer of an awaited operation tells the call. -/
inductive Signal where
  | granted
  | shed (exc : PyExc)
  | entered
  | abandoned (exc : PyExc)
  | credential (headers : Headers)
  | failed (exc : PyExc)
  | replied (reply : IntrospectionReply)
  | dropped (outcome : Except PyExc Bool)
  | internal

namespace ApiKeyIntrospectionClient

variable (client : ApiKeyIntrospectionClient) (sdk : ApiKeySdk) (apiKey : String)

def signal : (o : ApiKeyOp) → ApiKeyAns o → Signal
  | .semaphoreAcquire _, .ok () => .granted
  | .semaphoreAcquire _, .error exc => .shed exc
  | .checkpoint, .ok () => .entered
  | .checkpoint, .error exc => .abandoned exc
  | .authHeaders, .ok headers => .credential headers
  | .authHeaders, .error exc => .failed exc
  | .authInvalidate, outcome => .dropped outcome
  | .post _, r =>
    match client.collect r with
    | .ok reply => .replied reply
    | .error exc => .failed exc
  | _, _ => .internal

/-- The operations a call can be suspended on. Its requests carry its own key. -/
def Awaited : ApiKeyOp → Prop
  | .semaphoreAcquire _ | .checkpoint | .authHeaders | .authInvalidate => True
  | .post request => request.apiKey = apiKey
  | _ => False

/-- How a segment of a call ends, given the signal that started it: it waits for its next
operation, or it is over and has told the breaker what it learned. -/
inductive Follows (s : ApiKeyState) :
    Signal → Prog ApiKeyOp ApiKeyAns (Except PyExc (Option ApiKeyPrincipal)) × ApiKeyState → Prop
  | granted (k) : Follows s .granted (.call .checkpoint k, s)
  | shed (exc : PyExc) : Follows s (.shed exc) (.ret (.error (shed exc)), s)
  | entered (k) : Follows s .entered (.call .authHeaders k, s)
  | abandoned (exc : PyExc) :
      Follows s (.abandoned exc) (.ret (.error (FastapiM8.shed exc)), s.release)
  | sends (headers : Headers) (k) :
      Follows s (.credential headers) (.call (.post (client.requestFor apiKey headers)) k, s)
  | retries (exc : PyExc) (h : exc.isConnectFailure = true) (k) :
      Follows s (.failed exc) (.call .authHeaders k, s)
  | unreachable (exc : PyExc) (h : exc.isHttpError = true) :
      Follows s (.failed exc)
        (.ret (.error (.apiKeyIntrospectionError "transport")), s.recordFailure.release)
  | escapes (exc : PyExc) (h : exc.isHttpError = false) :
      Follows s (.failed exc) (.ret (.error exc), s.release)
  | rejected (reply : IntrospectionReply) (h : reply.Rejects) (k) :
      Follows s (.replied reply) (.call .authInvalidate k, s.release)
  | answered (reply : IntrospectionReply) (h : ¬ reply.Rejects) :
      Follows s (.replied reply)
        (.ret (client.verdict sdk reply), s.release.record (replyReport sdk reply))
  | dropped (retry : Bool) :
      Follows s (.dropped (.ok retry))
        (.ret (.error (.apiKeyIntrospectionError "consumer_unauthorized")), s)
  | dropFails (exc : PyExc) : Follows s (.dropped (.error exc)) (.ret (.error exc), s)

/-- The guarantee of a call: it waits only for operations of its own, and every segment ends
in one of the listed ways. -/
def IntrospectSegment (apiKey : String) (o : ApiKeyOp) (a : ApiKeyAns o) (s : ApiKeyState)
    (r : Prog ApiKeyOp ApiKeyAns (Except PyExc (Option ApiKeyPrincipal)) × ApiKeyState) : Prop :=
  Awaited apiKey o ∧ client.Follows sdk apiKey s (client.signal o a) r

variable {client sdk apiKey} {s : ApiKeyState}

/-- Tell the breaker what there is to tell, and go on. -/
def tell {α : Type} (report : Option Report) (p : Prog ApiKeyOp ApiKeyAns α) :
    Prog ApiKeyOp ApiKeyAns α :=
  match report with
  | none => p
  | some .success => .call .recordSuccess fun _ => p
  | some .failure => .call .recordFailure fun _ => p

/-- A reply that does not reject the credential is reported, and ends the call. -/
theorem run_interpret_of_accepts {reply : IntrospectionReply} (h : ¬ reply.Rejects) :
    (client.interpret sdk reply).run =
      tell (replyReport sdk reply) (.ret (client.verdict sdk reply)) := by
  have hrejects : ¬ (reply.statusCode = 401 ∨ reply.statusCode = 403) := h
  unfold interpret verdict replyReport
  by_cases h429 : reply.statusCode = 429
  · simp only [h429, ↓reduceIte, true_or]
    rfl
  simp only [h429, hrejects, h, false_or, ↓reduceIte]
  by_cases h500 : 500 ≤ reply.statusCode
  · have hne : reply.statusCode ≠ 200 := by omega
    simp only [h500, hne, ne_eq, not_false_eq_true, ↓reduceIte]
    rfl
  simp only [h500, ↓reduceIte]
  by_cases hok : reply.statusCode ≠ 200
  · rw [if_pos hok, if_pos hok, if_pos hok]
    rfl
  rw [if_neg hok, if_neg hok, if_neg hok, parse]
  cases hresult : sdk.response reply.body with
  | none => rfl
  | some result =>
    cases result with
    | inactive => rfl
    | active audienceId principal =>
      refine congrArg (Prog.call ApiKeyOp.recordSuccess) (funext fun _ => ?_)
      change (if audienceId ≠ client.audienceId then
        throw (.apiKeyIntrospectionError "audience_mismatch") else pure (some principal) :
        Py ApiKeyOp ApiKeyAns (Option ApiKeyPrincipal)).run = _
      by_cases haudience : audienceId ≠ client.audienceId
      · simp only [if_pos haudience]
        rfl
      · simp only [if_neg haudience]
        rfl

/-- The breaker is told at once. -/
theorem settle_interpret {reply : IntrospectionReply} (h : ¬ reply.Rejects) (s : ApiKeyState) :
    (client.interpret sdk reply).run.settle ApiKeyOp.exec s =
      (.ret (client.verdict sdk reply), s.record (replyReport sdk reply)) := by
  rw [run_interpret_of_accepts h]
  rcases replyReport sdk reply with - | - | - <;> rfl

/-- A reply that rejects the credential makes the call drop it. -/
theorem run_interpret_of_rejects {reply : IntrospectionReply} (h : reply.Rejects) :
    (client.interpret sdk reply).run = .call .authInvalidate fun r : Except PyExc Bool =>
      .ret (r.bind fun _ => .error (.apiKeyIntrospectionError "consumer_unauthorized")) := by
  have hrejects : reply.statusCode = 401 ∨ reply.statusCode = 403 := h
  have hne : reply.statusCode ≠ 429 := by omega
  unfold interpret
  simp only [hne, hrejects, ↓reduceIte]
  refine congrArg (Prog.call ApiKeyOp.authInvalidate) (funext fun r : Except PyExc Bool => ?_)
  cases r <;> rfl

theorem follows_leave_ok (reply : IntrospectionReply) (s : ApiKeyState) :
    client.Follows sdk apiKey s (.replied reply)
      ((client.leave sdk (.ok reply)).settle ApiKeyOp.exec s) := by
  change client.Follows sdk apiKey s _
    ((client.interpret sdk reply).run.settle ApiKeyOp.exec s.release)
  by_cases h : reply.Rejects
  · rw [run_interpret_of_rejects h]
    exact .rejected reply h _
  · rw [settle_interpret h]
    exact .answered reply h

theorem settle_giveUp (exc : PyExc) (s : ApiKeyState) :
    (giveUp (client.leave sdk) exc).settle ApiKeyOp.exec s =
      if exc.isHttpError then
        (.ret (.error (.apiKeyIntrospectionError "transport")), s.recordFailure.release)
      else (.ret (.error exc), s.release) := by
  unfold giveUp
  cases exc.isHttpError <;> rfl

theorem follows_giveUp (exc : PyExc) (s : ApiKeyState) :
    client.Follows sdk apiKey s (.failed exc)
      ((giveUp (client.leave sdk) exc).settle ApiKeyOp.exec s) := by
  rw [settle_giveUp]
  cases h : exc.isHttpError with
  | false => exact .escapes exc h
  | true => exact .unreachable exc h

/-- A call that leaves its slot has at most the rejection of its credential before it. -/
theorem obeys_leave_ok (reply : IntrospectionReply) (s : ApiKeyState) :
    Prog.Obeys ApiKeyOp.exec (client.IntrospectSegment sdk apiKey)
      ((client.leave sdk (.ok reply)).settle ApiKeyOp.exec s).1 := by
  change Prog.Obeys _ _ ((client.interpret sdk reply).run.settle ApiKeyOp.exec s.release).1
  by_cases h : reply.Rejects
  · rw [run_interpret_of_rejects h]
    refine .call ApiKeyOp.authInvalidate _ (fun r s => ⟨trivial, ?_⟩) (fun r s => .ret _)
    change Except PyExc Bool at r
    cases r with
    | error exc => exact .dropFails exc
    | ok retry => exact .dropped retry
  · rw [settle_interpret h]
    exact .ret _

theorem obeys_giveUp (exc : PyExc) (s : ApiKeyState) :
    Prog.Obeys ApiKeyOp.exec (client.IntrospectSegment sdk apiKey)
      ((giveUp (client.leave sdk) exc).settle ApiKeyOp.exec s).1 := by
  rw [settle_giveUp]
  split <;> exact .ret _

/-- A transmission obeys the guarantee when what follows it does. -/
theorem obeys_transmitThen {next : Except PyExc IntrospectionReply →
      Prog ApiKeyOp ApiKeyAns (Except PyExc (Option ApiKeyPrincipal))}
    (hok : ∀ reply s, client.Follows sdk apiKey s (.replied reply)
      ((next (.ok reply)).settle ApiKeyOp.exec s))
    (herror : ∀ exc s, client.Follows sdk apiKey s (.failed exc)
      ((next (.error exc)).settle ApiKeyOp.exec s))
    (hlater : ∀ outcome s, Prog.Obeys ApiKeyOp.exec (client.IntrospectSegment sdk apiKey)
      ((next outcome).settle ApiKeyOp.exec s).1) :
    Prog.Obeys ApiKeyOp.exec (client.IntrospectSegment sdk apiKey)
      (client.transmitThen apiKey next) := by
  refine .call _ _ (fun h s => ⟨trivial, ?_⟩) (fun h s => ?_)
  · change Except PyExc Headers at h
    cases h with
    | error exc => exact herror exc s
    | ok headers => exact .sends headers _
  · change Except PyExc Headers at h
    cases h with
    | error exc => exact hlater (.error exc) s
    | ok headers =>
      refine Prog.Obeys.call (ApiKeyOp.post _) _ (fun r s => ⟨rfl, ?_⟩)
        (fun r s => hlater (client.collect r) s)
      cases hr : client.collect r with
      | error exc =>
        simp only [signal, hr]
        exact herror exc s
      | ok reply =>
        simp only [signal, hr]
        exact hok reply s

/-- Every segment of an admitted call is one of the listed ones. -/
theorem obeys_admitted (client : ApiKeyIntrospectionClient) (sdk : ApiKeySdk) (apiKey : String) :
    Prog.Obeys ApiKeyOp.exec (client.IntrospectSegment sdk apiKey)
      (client.admitted sdk apiKey) := by
  have hretried : Prog.Obeys ApiKeyOp.exec (client.IntrospectSegment sdk apiKey)
      (client.transmitThen apiKey (afterRetry (client.leave sdk))) := by
    refine obeys_transmitThen follows_leave_ok follows_giveUp fun outcome s => ?_
    cases outcome with
    | ok reply => exact obeys_leave_ok reply s
    | error exc => exact obeys_giveUp exc s
  have hfirst : Prog.Obeys ApiKeyOp.exec (client.IntrospectSegment sdk apiKey)
      (client.transmitThen apiKey (client.afterTransmit apiKey (client.leave sdk))) := by
    refine obeys_transmitThen follows_leave_ok (fun exc s => ?_) fun outcome s => ?_
    · cases hc : exc.isConnectFailure with
      | false =>
        rw [afterTransmit_of_sent hc]
        exact follows_giveUp exc s
      | true =>
        rw [afterTransmit_of_connect hc]
        exact .retries exc hc _
    · cases outcome with
      | ok reply => exact obeys_leave_ok reply s
      | error exc =>
        cases hc : exc.isConnectFailure with
        | false =>
          rw [afterTransmit_of_sent hc]
          exact obeys_giveUp exc s
        | true =>
          rw [afterTransmit_of_connect hc]
          exact hretried
  have hslot : Prog.Obeys ApiKeyOp.exec (client.IntrospectSegment sdk apiKey)
      (.call .checkpoint (client.afterCheckpoint sdk apiKey)) := by
    refine .call ApiKeyOp.checkpoint _ (fun r s => ⟨trivial, ?_⟩) (fun r s => ?_)
    · match r with
      | .error exc => exact .abandoned exc
      | .ok () => exact .entered _
    · match r with
      | .error exc => exact .ret _
      | .ok () => exact hfirst
  refine .call (ApiKeyOp.semaphoreAcquire _) _ (fun r s => ⟨trivial, ?_⟩) (fun r s => ?_)
  · match r with
    | .error exc => exact .shed exc
    | .ok () => exact .granted _
  · match r with
    | .error exc => exact .ret _
    | .ok () => exact hslot

end ApiKeyIntrospectionClient
end FastapiM8
