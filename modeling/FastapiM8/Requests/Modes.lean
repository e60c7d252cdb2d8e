import FastapiM8.Requests

/-! The two failure modes side by side: what a service that fails open does, it does as the same
service that fails closed, but for the answer of a check that could not be made. -/
namespace FastapiM8

/-- What a client that fails open makes of the answer of one that fails closed. -/
def relaxed : Except PyExc Bool → Except PyExc Bool
  | .error (.revocationCheckError _) => .ok false
  | answer => answer

namespace RemoteRevocationClient

variable (client : RemoteRevocationClient) {sdk : Sdk}

def openMode : RemoteRevocationClient := { client with failClosed := false }

def closedMode : RemoteRevocationClient := { client with failClosed := true }

variable {client}

theorem conclude_openMode (jti userId : String) (outcome : Except PyExc JtiStatusResponse) :
    client.openMode.conclude jti userId outcome =
      client.closedMode.conclude jti userId outcome >>= fun answer => .ret (relaxed answer) := by
  cases outcome with
  | error exc =>
    cases exc with
    | cancelledError => rfl
    | _ => rfl
  | ok result =>
    cases result with
    | inactive => rfl
    | active owner g =>
      refine congrArg (Prog.call ClientOp.cachePresent) (funext fun present : Bool => ?_)
      cases present with
      | false => rfl
      | true =>
        refine congrArg (Prog.call (ClientOp.cacheIsSuperseded _ _)) (funext fun known : Bool => ?_)
        cases known with
        | true => rfl
        | false =>
          refine congrArg (Prog.call (ClientOp.cachePut _ _ _)) (funext fun fits : Bool => ?_)
          cases fits <;> rfl

theorem run_askIssuer_openMode (jti userId : String) :
    (client.openMode.askIssuer sdk jti userId).run =
      (client.closedMode.askIssuer sdk jti userId).run >>= fun answer => .ret (relaxed answer) := by
  have hquery : (client.openMode.queryStatus sdk jti userId).run =
      (client.closedMode.queryStatus sdk jti userId).run := rfl
  rw [run_askIssuer_eq_conclude, run_askIssuer_eq_conclude, hquery, Prog.bind_assoc]
  exact Prog.bind_congr fun outcome => conclude_openMode jti userId outcome

/-- The lookup that a call starts with, and what it does on a miss. -/
def lookupThen (jti : String) (bypassCache : Bool)
    (miss : Prog ClientOp ClientAns (Except PyExc Bool)) :
    Prog ClientOp ClientAns (Except PyExc Bool) :=
  .call .cachePresent fun present : Bool =>
    if present && !bypassCache then
      .call (.cacheGet jti) fun cached : Option Bool =>
        match cached with
        | some hit => .ret (.ok hit)
        | none => miss
    else miss

theorem run_isRevoked (jti userId : String) (bypassCache : Bool) :
    (client.isRevoked sdk jti userId bypassCache).run =
      lookupThen jti bypassCache (client.askIssuer sdk jti userId).run := by
  refine congrArg (Prog.call ClientOp.cachePresent) (funext fun present : Bool => ?_)
  have hlook : (Py.perform (ClientOp.cacheGet jti) >>= fun cached : Option Bool =>
      match cached with
      | some hit => pure hit
      | none => client.askIssuer sdk jti userId : Py ClientOp ClientAns Bool).run =
        .call (.cacheGet jti) fun cached : Option Bool =>
          match cached with
          | some hit => .ret (.ok hit)
          | none => (client.askIssuer sdk jti userId).run := by
    refine congrArg (Prog.call (ClientOp.cacheGet jti)) (funext fun cached : Option Bool => ?_)
    cases cached <;> rfl
  cases present <;> cases bypassCache
  · rfl
  · rfl
  · exact hlook
  · rfl

/-- A miss decides what becomes of a call; a hit is a hit. -/
theorem lookupThen_bind (jti : String) (bypassCache : Bool)
    (miss : Prog ClientOp ClientAns (Except PyExc Bool))
    {f : Except PyExc Bool → Except PyExc Bool} (hhit : ∀ hit, f (.ok hit) = .ok hit) :
    lookupThen jti bypassCache (miss >>= fun answer => .ret (f answer)) =
      lookupThen jti bypassCache miss >>= fun answer => .ret (f answer) := by
  refine congrArg (Prog.call ClientOp.cachePresent) (funext fun present : Bool => ?_)
  cases present <;> cases bypassCache
  · rfl
  · rfl
  · refine congrArg (Prog.call (ClientOp.cacheGet jti)) (funext fun cached : Option Bool => ?_)
    cases cached with
    | none => rfl
    | some hit => exact congrArg Prog.ret (hhit hit).symm
  · rfl

theorem run_isRevoked_openMode (jti userId : String) (bypassCache : Bool) :
    (client.openMode.isRevoked sdk jti userId bypassCache).run =
      (client.closedMode.isRevoked sdk jti userId bypassCache).run >>= fun answer =>
        .ret (relaxed answer) := by
  rw [run_isRevoked, run_isRevoked, run_askIssuer_openMode]
  exact lookupThen_bind jti bypassCache _ fun hit => rfl

/-- The revocation checks of the requests of a service, without their verdicts. -/
def checks (client : RemoteRevocationClient) (sdk : Sdk) :
    Scheduler ClientOp ClientAns ClientState Request ClientAnswer DepsEvent
      (Except PyExc Bool) where
  body request :=
    match request.validated with
    | none => .ret (.ok false)
    | some payload =>
      (client.isRevoked sdk payload.jti payload.sub request.dependency.isRoleGuard).run
  exec := ClientOp.exec
  decode := ClientOp.decode
  env := DepsEvent.apply ⟨some client⟩ sdk

theorem checks_client (client : RemoteRevocationClient) :
    (AuthDeps.mk (some client)).revocationClient = some client := rfl

/-- The requests of a service make the calls that their checks consist of. -/
def checksWraps (client : RemoteRevocationClient) (sdk : Sdk) (policy : PolicySdk) :
    (client.checks sdk).Wraps (client.scheduler sdk) where
  call := Request.call?
  finish _ answer := answer
  event := DepsEvent.onCache
  exec_eq := rfl
  decode_eq := rfl
  body_call request spec h := by
    obtain ⟨payload, hvalid, rfl⟩ := Request.call?_eq_some h
    simp only [checks, hvalid]
    exact (Prog.bind_ret _).symm
  body_alone request h := by
    have hinvalid := Option.map_eq_none_iff.mp h
    exact ⟨.ok false, by simp only [checks, hinvalid]⟩
  env_event := (AuthDeps.wraps sdk policy (checks_client client)).env_event
  env_quiet := (AuthDeps.wraps sdk policy (checks_client client)).env_quiet

end RemoteRevocationClient

/-- The service over the client that fails open. -/
def openDeps (client : RemoteRevocationClient) : AuthDeps := ⟨some client.openMode⟩

/-- The service over the client that fails closed. -/
def closedDeps (client : RemoteRevocationClient) : AuthDeps := ⟨some client.closedMode⟩

variable {client : RemoteRevocationClient} {sdk : Sdk} {policy : PolicySdk}

theorem verdict_of_invalid {request : Request} (hvalid : request.validated = none)
    (answer : Except PyExc Bool) : request.verdict policy answer =
      .error (.httpException forbidden "Could not validate credentials.") := by
  unfold Request.verdict
  rw [hvalid]
  rfl

theorem checks_of_invalid {request : Request} (hvalid : request.validated = none) :
    (client.checks sdk).body request = .ret (.ok false) := by
  simp only [RemoteRevocationClient.checks, hvalid]

theorem checks_of_valid {request : Request} {payload : TokenPayload}
    (hvalid : request.validated = some payload) : (client.checks sdk).body request =
      (client.isRevoked sdk payload.jti payload.sub request.dependency.isRoleGuard).run := by
  simp only [RemoteRevocationClient.checks, hvalid]

theorem body_of_closedDeps (request : Request) :
    ((closedDeps client).scheduler sdk policy).body request =
      (client.closedMode.checks sdk).body request >>= fun answer =>
        .ret (request.verdict policy answer) := by
  have hclient : (closedDeps client).revocationClient = some client.closedMode := rfl
  cases hvalid : request.validated with
  | none => rw [body_of_invalid hvalid, checks_of_invalid hvalid, Prog.ret_bind,
      verdict_of_invalid hvalid]
  | some payload =>
    rw [body_of_valid hclient hvalid, checks_of_valid hvalid]
    exact Prog.bind_congr fun answer => by rw [Request.verdict_of_valid hvalid]

theorem body_of_openDeps (request : Request) :
    ((openDeps client).scheduler sdk policy).body request =
      (client.closedMode.checks sdk).body request >>= fun answer =>
        .ret (request.verdict policy (relaxed answer)) := by
  have hclient : (openDeps client).revocationClient = some client.openMode := rfl
  cases hvalid : request.validated with
  | none => rw [body_of_invalid hvalid, checks_of_invalid hvalid, Prog.ret_bind,
      verdict_of_invalid hvalid]
  | some payload =>
    rw [body_of_valid hclient hvalid, checks_of_valid hvalid,
      RemoteRevocationClient.run_isRevoked_openMode, Prog.bind_assoc]
    exact Prog.bind_congr fun answer => by rw [Prog.ret_bind, Request.verdict_of_valid hvalid]

/-- The events of a service do not depend on the failure mode of its client. -/
theorem env_of_mode (client client' : RemoteRevocationClient) (s : ClientState) (e : DepsEvent) :
    e.apply ⟨some client⟩ sdk s = e.apply ⟨some client'⟩ sdk s := by
  cases e <;> rfl

def closedWraps (client : RemoteRevocationClient) (sdk : Sdk) (policy : PolicySdk) :
    ((closedDeps client).scheduler sdk policy).Wraps (client.closedMode.checks sdk) where
  call := some
  finish request answer := request.verdict policy answer
  event := some
  exec_eq := rfl
  decode_eq := rfl
  body_call request c h := by
    obtain rfl := Option.some.inj h
    exact body_of_closedDeps request
  body_alone request h := by contradiction
  env_event e e' h s := by
    obtain rfl := Option.some.inj h
    exact env_of_mode _ _ s e
  env_quiet e h := by contradiction

def openWraps (client : RemoteRevocationClient) (sdk : Sdk) (policy : PolicySdk) :
    ((openDeps client).scheduler sdk policy).Wraps (client.closedMode.checks sdk) where
  call := some
  finish request answer := request.verdict policy (relaxed answer)
  event := some
  exec_eq := rfl
  decode_eq := rfl
  body_call request c h := by
    obtain rfl := Option.some.inj h
    exact body_of_openDeps request
  body_alone request h := by contradiction
  env_event e e' h s := by
    obtain rfl := Option.some.inj h
    exact env_of_mode _ _ s e
  env_quiet e h := by contradiction

/-- A verdict is relaxed only where the check could not be made: the request then goes on as one
whose token was not revoked. -/
theorem verdict_relaxed (policy : PolicySdk) (request : Request) (answer : Except PyExc Bool) :
    request.verdict policy (relaxed answer) = request.verdict policy answer ∨
      ∃ payload cause, request.validated = some payload ∧
        answer = .error (.revocationCheckError cause) ∧
        request.verdict policy answer =
          .error (.httpException unavailable "Token revocation check unavailable.") ∧
        request.verdict policy (relaxed answer) = request.finish policy payload (.ok false) := by
  cases hvalid : request.validated with
  | none => exact .inl (by rw [verdict_of_invalid hvalid, verdict_of_invalid hvalid])
  | some payload =>
    rw [Request.verdict_of_valid hvalid, Request.verdict_of_valid hvalid]
    cases answer with
    | ok revoked => exact .inl rfl
    | error exc =>
      cases exc with
      | revocationCheckError cause => exact .inr ⟨payload, cause, rfl, rfl, rfl, rfl⟩
      | _ => exact .inl rfl

/-- A verdict on a `RevocationDecisionError` is a refusal, relaxed or not. -/
theorem finish_decisionError (policy : PolicySdk) (request : Request) (payload : TokenPayload)
    (reason : String) : request.finish policy payload (.error (.revocationDecisionError reason)) =
      .error (.httpException unavailable "Token revocation check unavailable.") := rfl

/-- A service that fails open and one that fails closed go through the same states of the cache
with the same requests, events and replies, and the same requests are pending. Their answers
differ only where the check of a valid token ends in a plain `RevocationCheckError`, which a refusal
by the issuer or a body that nests too deeply raises just as an outage does: there the one refuses
with a 503, and the other goes on as if the token was not revoked. Where the check ends in a
`RevocationDecisionError`, both refuse with a 503. -/
theorem fail_open_service {now : ℚ} {past : List (DepsPool × DepsAct)} {w : DepsPool}
    (run : Run ((openDeps client).scheduler sdk policy).step ((openDeps client).start now) past w) :
    ∃ past' v calls u,
      Run ((closedDeps client).scheduler sdk policy).step ((closedDeps client).start now) past' v ∧
      Run (client.closedMode.scheduler sdk).step (client.closedMode.start now) calls u ∧
      v.shared = w.shared ∧ u.shared = w.shared ∧
      past'.map (fun e => (e.1.shared, e.2)) = past.map (fun e => (e.1.shared, e.2)) ∧
      calls.map (fun e => (e.1.shared, e.2)) =
        past.filterMap (fun e => (onClientAct e.2).map fun l => (e.1.shared, l)) ∧
      (∀ id, v.Pending id ↔ w.Pending id) ∧
      ∀ id request answer, w.tasks id = some ⟨request, .ret answer⟩ →
        ∃ strict, v.tasks id = some ⟨request, .ret strict⟩ ∧
          (answer = strict ∨ ∃ payload cause, request.validated = some payload ∧
            u.tasks id = some
              ⟨request.callSpec payload, .ret (.error (.revocationCheckError cause))⟩ ∧
            strict = .error (.httpException unavailable "Token revocation check unavailable.") ∧
            answer = request.finish policy payload (.ok false)) ∧
          ∀ payload, request.validated = some payload →
            ∃ outcome, u.tasks id = some ⟨request.callSpec payload, .ret outcome⟩ ∧
              ∀ reason, outcome = .error (.revocationDecisionError reason) →
                strict = .error
                  (.httpException unavailable "Token revocation check unavailable.") ∧
                answer = .error
                  (.httpException unavailable "Token revocation check unavailable.") := by
  have hclosed : (closedWraps client sdk policy).Alike := ⟨fun _ => rfl, fun _ => rfl⟩
  have hopen : (openWraps client sdk policy).Alike := ⟨fun _ => rfl, fun _ => rfl⟩
  have hstart : (openDeps client).start now = .idle (.init client.closedMode now) := rfl
  rw [hstart] at run
  obtain ⟨checked, x, runx, hw, hpast⟩ := (openWraps client sdk policy).run run
  obtain ⟨past', v, runv, hv, hpast'⟩ := hclosed.lift runx
  obtain ⟨calls, u, runu, hu, hcalls⟩ :=
    (RemoteRevocationClient.checksWraps client.closedMode sdk policy).run runx
  have hseen := hopen.map_eq hpast
  refine ⟨past', v, calls, u, runv, runu, hv.shared_eq.symm.trans hw.shared_eq,
    hu.shared_eq.trans hw.shared_eq, hpast'.trans hseen, ?_, ?_, ?_⟩
  · have hclient := congrArg (List.filterMap fun e : ClientState × DepsAct =>
      (onClientAct e.2).map fun l => (e.1, l)) hseen
    rw [List.filterMap_map, List.filterMap_map] at hclient
    have hact : (RemoteRevocationClient.checksWraps client.closedMode sdk policy).act =
        onClientAct := funext fun l => by cases l <;> rfl
    rw [hcalls.filterMap_eq, hact]
    exact hclient
  · exact fun id => (hclosed.pending_iff hv id).trans (hopen.pending_iff hw id).symm
  · intro id request answer ht
    rcases hw.finished ht with ⟨hnone, -⟩ | ⟨c, outcome, hc, hx, rfl⟩
    · contradiction
    obtain rfl := Option.some.inj hc
    have hstrict := hclosed.tasks_eq hv id
    rw [hx] at hstrict
    have hcall : ∀ payload, request.validated = some payload →
        u.tasks id = some ⟨request.callSpec payload, .ret outcome⟩ := by
      intro payload hvalid
      rcases hu.finished hx with ⟨hnone, -⟩ | ⟨spec, answer, hspec, htask, rfl⟩
      · simp [RemoteRevocationClient.checksWraps, Request.call?, hvalid] at hnone
      · obtain ⟨payload', hvalid', rfl⟩ := Request.call?_eq_some hspec
        obtain rfl := Option.some.inj (hvalid.symm.trans hvalid')
        exact htask
    refine ⟨request.verdict policy outcome, hstrict, ?_, fun payload hvalid => ?_⟩
    · rcases verdict_relaxed policy request outcome with hsame |
        ⟨payload, cause, hvalid, rfl, hrefused, hrelaxed⟩
      · exact .inl hsame
      · exact .inr ⟨payload, cause, hvalid, hcall payload hvalid, hrefused, hrelaxed⟩
    · refine ⟨outcome, hcall payload hvalid, ?_⟩
      rintro reason rfl
      have hrefused := finish_decisionError policy request payload reason
      rw [← Request.verdict_of_valid hvalid] at hrefused
      exact ⟨hrefused, hrefused⟩

def issuerClient : RemoteRevocationClient where
  url := "https://issuer/private/v1/jti-status"
  schemaVersion := "2"
  auth := .static [(internalTokenHeader, .text "secret")]
  failClosed := true
  cacheTtl := 30

/-- A guard asks an issuer that answers with a server error. -/
def outageAsks : List DepsAct :=
  [.spawn 1 writerRequest, .resume 1 (.headers []), .resume 1 (.response ⟨500, .malformed⟩)]

theorem fail_open_service_outage :
    ∃ past v strict, Run ((closedDeps issuerClient).scheduler v2Sdk rankedPolicy).step
        ((closedDeps issuerClient).start 0) past v ∧
      v.tasks 1 = some ⟨writerRequest, .ret strict⟩ := by
  have heval : (outageAsks.foldlM ((openDeps issuerClient).scheduler v2Sdk rankedPolicy).step
      ((openDeps issuerClient).start 0)).any (fun w => (w.result 1).any Except.isOk) = true := by
    decide +kernel
  obtain ⟨w, hw, hok⟩ := (Option.any_eq_true _ _).mp heval
  obtain ⟨past, run, hlabels⟩ := Run.of_foldlM hw
  have hspawn : ∀ request, Act.spawn 1 request ∈ past.map Prod.snd → request = writerRequest := by
    intro request hmem
    rw [hlabels] at hmem
    simpa [outageAsks] using hmem
  obtain ⟨user, ht⟩ := tasks_of_isOk run hspawn hok
  obtain ⟨past', v, calls, u, runv, -, -, -, -, -, -, hanswers⟩ := fail_open_service run
  obtain ⟨strict, hstrict, -⟩ := hanswers 1 writerRequest _ ht
  exact ⟨past', v, strict, runv, hstrict⟩

end FastapiM8
