import FastapiM8.Lib.Course
import FastapiM8.Requests

/-! The exchange of a request with its provider and with the issuer. A request asks for a
credential and shows it to the issuer; when that ends in a 401 it drops the credential and, if
the provider says so, goes through both once more. -/
namespace FastapiM8

open Prog Monitor

/-- The operation is answered by the provider or by the issuer. -/
def ClientOp.fromOutside : ClientOp → Bool
  | .authHeaders | .authInvalidate | .post _ => true
  | _ => false

/-- The operation is a status request. -/
def ClientOp.isPost : ClientOp → Bool
  | .post _ => true
  | _ => false

theorem ClientOp.exec_eq_none_iff (o : ClientOp) (s : ClientState) :
    o.exec s = none ↔ o.fromOutside = true := by
  cases o with
  | cacheGet jti => cases h : s.cache <;> simp [ClientOp.exec, fromOutside, h]
  | cachePut jti userId g => cases h : s.cache <;> simp [ClientOp.exec, fromOutside, h]
  | _ => simp [ClientOp.exec, fromOutside]

section Protocol

variable (client : RemoteRevocationClient) (jti userId : String)

/-- The status request for a token under the credential that the provider returned. -/
def RemoteRevocationClient.statusRequest (headers : Headers) : StatusRequest :=
  ⟨client.url, jti, userId, client.schemaVersion, headers⟩

/-- The answers to one `_post` and its outcome: the provider raises, or the issuer is shown the
credential that the provider returned. -/
inductive Attempt : List ClientTraceEvent → Except PyExc Response → Prop
  | unsent (exc : PyExc) : Attempt [⟨.authHeaders, .error exc⟩] (.error exc)
  | sent (headers : Headers) (answer : Except PyExc Response) :
      Attempt [⟨.authHeaders, .ok headers⟩,
        ⟨.post (client.statusRequest jti userId headers), answer⟩]
        (RemoteRevocationClient.checkStatus answer)

/-- What may be asked of the outside after these answers. -/
inductive Exchange : List ClientTraceEvent → ClientOp → Prop
  | credential : Exchange [] .authHeaders
  | ask (headers : Headers) :
      Exchange [⟨.authHeaders, .ok headers⟩] (.post (client.statusRequest jti userId headers))
  | drop {tr : List ClientTraceEvent}
      (rejected : Attempt client jti userId tr (.error (.httpStatusError 401))) :
      Exchange tr .authInvalidate
  | renew {tr : List ClientTraceEvent}
      (rejected : Attempt client jti userId tr (.error (.httpStatusError 401))) :
      Exchange (tr ++ [⟨.authInvalidate, .ok true⟩]) .authHeaders
  | askAgain {tr : List ClientTraceEvent}
      (rejected : Attempt client jti userId tr (.error (.httpStatusError 401)))
      (headers : Headers) :
      Exchange (tr ++ [⟨.authInvalidate, .ok true⟩] ++ [⟨.authHeaders, .ok headers⟩])
        (.post (client.statusRequest jti userId headers))

/-- The monitor of the exchange. -/
abbrev exchange : Monitor ClientOp ClientAns (List ClientTraceEvent) :=
  protocol ClientOp.fromOutside (Exchange client jti userId)

end Protocol

variable {client : RemoteRevocationClient} {sdk : Sdk} {deps : AuthDeps} {policy : PolicySdk}
  {jti userId : String} {tr : List ClientTraceEvent}

theorem watches_conclude (outcome : Except PyExc JtiStatusResponse) :
    (exchange client jti userId).Watches (fun _ _ => True) tr
      (client.conclude jti userId outcome) := by
  cases outcome with
  | error exc => cases exc <;> trivial
  | ok result =>
    cases result with
    | inactive => trivial
    | active owner g =>
      refine watches_inside rfl fun present : Bool => ?_
      cases present with
      | false => trivial
      | true =>
        refine watches_inside rfl fun superseded : Bool => ?_
        cases superseded with
        | true => trivial
        | false => exact watches_inside rfl fun _ => trivial

/-- A `_post` that may ask for its credential and then show it. -/
theorem watches_postThen {α : Type} {Q : List ClientTraceEvent → α → Prop}
    {next : Except PyExc Response → Prog ClientOp ClientAns α}
    (hcredential : Exchange client jti userId tr .authHeaders)
    (hask : ∀ headers, Exchange client jti userId (tr ++ [⟨.authHeaders, .ok headers⟩])
      (.post (client.statusRequest jti userId headers)))
    (hnext : ∀ tr' outcome, Attempt client jti userId tr' outcome →
      (exchange client jti userId).Watches Q (tr ++ tr') (next outcome)) :
    (exchange client jti userId).Watches Q tr (client.postThen jti userId next) := by
  refine watches_outside rfl hcredential fun headers : Except PyExc Headers => ?_
  cases headers with
  | error exc => exact hnext _ _ (.unsent exc)
  | ok headers =>
    refine watches_outside rfl (hask headers) fun answer : Except PyExc Response => ?_
    rw [List.append_assoc]
    exact hnext _ _ (.sent headers answer)

theorem watches_afterFirstPost {outcome : Except PyExc Response}
    (h : Attempt client jti userId tr outcome) :
    (exchange client jti userId).Watches (fun _ _ => True) tr
      (client.afterFirstPost sdk jti userId outcome) := by
  by_cases h401 : outcome = .error (.httpStatusError 401)
  · subst h401
    refine watches_outside rfl (.drop h) fun retry : Except PyExc Bool => ?_
    match retry with
    | .error exc => exact watches_conclude (.error exc)
    | .ok false => exact watches_conclude (.error (.httpStatusError 401))
    | .ok true =>
      exact watches_postThen (.renew h) (fun headers => .askAgain h headers)
        fun tr' outcome _ => watches_conclude _
  · rw [RemoteRevocationClient.afterFirstPost_of_ne h401]
    exact watches_conclude _

theorem watches_askIssuer :
    (exchange client jti userId).Watches (fun _ _ => True) []
      (client.askIssuer sdk jti userId).run := by
  rw [RemoteRevocationClient.run_askIssuer]
  refine watches_postThen .credential (fun headers => .ask headers) fun tr' outcome h => ?_
  rw [List.nil_append]
  exact watches_afterFirstPost h

theorem watches_isRevoked (bypassCache : Bool) :
    (exchange client jti userId).Watches (fun _ _ => True) []
      (client.isRevoked sdk jti userId bypassCache).run := by
  refine watches_inside rfl fun present : Bool => ?_
  cases present with
  | false => exact watches_askIssuer
  | true =>
    cases bypassCache with
    | true => exact watches_askIssuer
    | false =>
      refine watches_inside rfl fun cached : Option Bool => ?_
      cases cached with
      | some hit => trivial
      | none => exact watches_askIssuer

/-- The exchange of a request is that of its token; without a valid one there is none. -/
def RequestExchange (client : RemoteRevocationClient) (request : Request)
    (tr : List ClientTraceEvent) (o : ClientOp) : Prop :=
  ∃ payload, request.validated = some payload ∧ Exchange client payload.jti payload.sub tr o

theorem watches_request (hclient : deps.revocationClient = some client) (request : Request) :
    (protocol ClientOp.fromOutside (RequestExchange client request)).Watches (fun _ _ => True) []
      ((deps.scheduler sdk policy).body request) := by
  cases hvalid : request.validated with
  | none =>
    rw [body_of_invalid hvalid]
    trivial
  | some payload =>
    rw [body_of_valid hclient hvalid]
    refine watches_bind.mpr ?_
    refine (Watches.permits_mono (watches_isRevoked _) fun tr o h => ?_).mono fun _ _ _ => trivial
    exact ⟨payload, hvalid, h⟩

/-- The status requests of a trace. -/
def statusRequests (tr : List ClientTraceEvent) : ℕ := tr.countP fun e => e.1.isPost

/-- The status requests that a request has started: those answered and the one it waits for. -/
def statusRequestsStarted {α : Type} (tr : List ClientTraceEvent)
    (rest : Prog ClientOp ClientAns α) : ℕ :=
  statusRequests tr + if rest.awaits.any ClientOp.isPost then 1 else 0

theorem statusRequests_concat (e : ClientTraceEvent) :
    statusRequests (tr ++ [e]) = statusRequests tr + if e.1.isPost then 1 else 0 := by
  simp [statusRequests, List.countP_append, List.countP_singleton]

theorem Attempt.statusRequests_le {outcome : Except PyExc Response}
    (h : Attempt client jti userId tr outcome) : statusRequests tr ≤ 1 := by
  cases h <;> simp [statusRequests, ClientOp.isPost]

/-- What may be asked next is at most the second status request. -/
theorem Exchange.statusRequests_le {o : ClientOp} (h : Exchange client jti userId tr o) :
    statusRequests tr + (if o.isPost then 1 else 0) ≤ 2 := by
  cases h with
  | credential => decide
  | ask headers => simp [statusRequests, ClientOp.isPost]
  | drop rejected =>
    have hfirst := rejected.statusRequests_le
    simp only [ClientOp.isPost, Bool.false_eq_true, ↓reduceIte]
    omega
  | renew rejected =>
    have hfirst := rejected.statusRequests_le
    rw [statusRequests_concat]
    simp only [ClientOp.isPost, Bool.false_eq_true, ↓reduceIte]
    omega
  | askAgain rejected headers =>
    have hfirst := rejected.statusRequests_le
    rw [statusRequests_concat, statusRequests_concat]
    simp only [ClientOp.isPost, Bool.false_eq_true, ↓reduceIte]
    omega

theorem statusRequestsStarted_le {α : Type} {request : Request} {rest : Prog ClientOp ClientAns α}
    (hanswered : ∀ before e after, tr = before ++ e :: after →
      RequestExchange client request before e.1)
    (hawaits : ∀ o, rest.awaits = some o → RequestExchange client request tr o) :
    statusRequestsStarted tr rest ≤ 2 := by
  unfold statusRequestsStarted
  cases ho : rest.awaits with
  | some o =>
    obtain ⟨payload, -, hexchange⟩ := hawaits o ho
    exact hexchange.statusRequests_le
  | none =>
    show statusRequests tr ≤ 2
    rcases List.eq_nil_or_concat' tr with rfl | ⟨before, e, rfl⟩
    · decide
    · obtain ⟨payload, -, hexchange⟩ := hanswered before e [] rfl
      rw [statusRequests_concat]
      exact hexchange.statusRequests_le

/-- However requests, events and evictions interleave in a stateful service, every request keeps
to its exchange: what it was answered and what it waits for is one of the steps of the exchange
about its own token, after exactly the answers before it. So it starts at most two status
requests, and a request without a valid token is answered with nothing exchanged. -/
theorem request_exchange (hclient : deps.revocationClient = some client) {now : ℚ}
    {past : List (DepsPool × DepsAct)} {w : DepsPool}
    (run : Run (deps.scheduler sdk policy).step (deps.start now) past w) {id : ℕ}
    {request : Request} {prog : Prog ClientOp ClientAns (Except PyExc UserModel)}
    (ht : w.tasks id = some ⟨request, prog⟩) :
    (∀ before e after, (deps.scheduler sdk policy).deliveries id past = before ++ e :: after →
      RequestExchange client request before e.1) ∧
    (∀ o, prog.awaits = some o →
      RequestExchange client request ((deps.scheduler sdk policy).deliveries id past) o) ∧
    statusRequestsStarted ((deps.scheduler sdk policy).deliveries id past) prog ≤ 2 := by
  rw [start_of_some hclient] at run
  obtain ⟨hanswered, hawaits⟩ := Scheduler.protocol_of_run ClientOp.exec_eq_none_iff
    (watches_request hclient) run ht
  exact ⟨hanswered, hawaits, statusRequestsStarted_le hanswered hawaits⟩

/-- Two requests show the same token. The issuer rejects the credential of the first one, and
answers the second one before the first one asks again. -/
def rejectedOnce : List DepsAct :=
  [.spawn 0 generalRequest, .spawn 1 writerRequest, .resume 0 (.headers []),
    .resume 1 (.headers []), .resume 0 (.response ⟨401, .malformed⟩),
    .resume 1 (.response ⟨200, .json (activeBody "user-a" 1)⟩), .resume 0 (.invalidated true),
    .resume 0 (.headers [])]

theorem request_exchange_again :
    ∃ past w o client request, Run (consumerDeps.scheduler v2Sdk rankedPolicy).step
        (consumerDeps.start 0) past w ∧ past.map Prod.snd = rejectedOnce.reverse ∧
      w.awaits 0 = some o ∧ o.isPost = true ∧ RequestExchange client request
        ((consumerDeps.scheduler v2Sdk rankedPolicy).deliveries 0 past) o := by
  have heval : (rejectedOnce.foldlM (consumerDeps.scheduler v2Sdk rankedPolicy).step
      (consumerDeps.start 0)).any (fun w => (w.awaits 0).any ClientOp.isPost) = true := by
    decide +kernel
  obtain ⟨w, hw, hawaits⟩ := (Option.any_eq_true _ _).mp heval
  obtain ⟨o, ho, hpost⟩ := (Option.any_eq_true _ _).mp hawaits
  obtain ⟨past, run, hlabels⟩ := Run.of_foldlM hw
  obtain ⟨request, k, ht⟩ := Pool.awaits_eq_some ho
  have hexchange := (request_exchange rfl run ht).2.1 o rfl
  exact ⟨past, w, o, _, request, run, hlabels, ho, hpost, hexchange⟩

end FastapiM8
