import FastapiM8.Lib.Wrap
import FastapiM8.Revocation.Provenance
import FastapiM8.RoleGuards

/-! The requests of a service over its revocation client: which events of the auth stream reach
the validation cache, and what the answers of the guards rest on. -/
namespace FastapiM8

/-- What `handle_auth_event` does to the client of a stateful service. -/
def AuthStreamEvent.onCache (event : AuthStreamEvent) : Option ClientEvent :=
  if dotted event.eventType = sessionRevokedType then some (.sessionRevoked event.payload)
  else if dotted event.eventType = userDeletedType then
    match event.payload.lookup "user_id" with
    | some (.str userId) => some (.evictUser userId)
    | _ => none
  else none

def DepsEvent.onCache : DepsEvent → Option ClientEvent
  | .authEvent event => event.onCache
  | .evictJti jti => some (.evictJti jti)
  | .evictUser userId => some (.evictUser userId)
  | .flushCache => some .flushCache
  | .advance seconds => some (.advance seconds)

/-- The call that a request makes, if its token is valid. -/
def Request.call? (request : Request) : Option CallSpec := request.validated.map request.callSpec

/-- What a request makes of the answer to its call. -/
def Request.verdict (policy : PolicySdk) (request : Request) (outcome : Except PyExc Bool) :
    Except PyExc UserModel := do
  let payload ← validateAccessToken request.validated
  request.finish policy payload outcome

variable {client : RemoteRevocationClient} {sdk : Sdk} {deps : AuthDeps} {policy : PolicySdk}

theorem Request.call?_eq_some {request : Request} {spec : CallSpec}
    (h : request.call? = some spec) :
    ∃ payload, request.validated = some payload ∧ request.callSpec payload = spec :=
  Option.map_eq_some_iff.mp h

theorem Request.verdict_of_valid {request : Request} {payload : TokenPayload}
    (h : request.validated = some payload) (outcome : Except PyExc Bool) :
    request.verdict policy outcome = request.finish policy payload outcome := by
  unfold verdict
  rw [h]
  rfl

theorem userDeleted_ne_sessionRevoked : userDeletedType ≠ sessionRevokedType := by decide

theorem onClient_of_some (hclient : deps.revocationClient = some client)
    (f : ClientState → ClientState) (s : ClientState) : deps.onClient f s = f s := by
  simp [AuthDeps.onClient, hclient]

theorem handleAuthEvent_of_some (hclient : deps.revocationClient = some client)
    (event : AuthStreamEvent) {e : ClientEvent} (h : event.onCache = some e) (s : ClientState) :
    some (deps.handleAuthEvent sdk s event) = e.apply sdk s := by
  unfold AuthStreamEvent.onCache at h
  split at h
  next hrevoked =>
    obtain rfl := Option.some.inj h
    simp [AuthDeps.handleAuthEvent, hrevoked, hclient, ClientEvent.apply]
  next hother =>
    split at h
    next hdeleted =>
      split at h
      next userId hlookup =>
        obtain rfl := Option.some.inj h
        simp [AuthDeps.handleAuthEvent, userDeleted_ne_sessionRevoked, hdeleted, hlookup,
          AuthDeps.evictUser, onClient_of_some hclient, ClientEvent.apply]
      next => contradiction
    next => contradiction

theorem handleAuthEvent_of_none (event : AuthStreamEvent) (h : event.onCache = none)
    (s : ClientState) : deps.handleAuthEvent sdk s event = s := by
  unfold AuthStreamEvent.onCache at h
  split at h
  next => contradiction
  next hother =>
    split at h
    next hdeleted =>
      split at h
      next => contradiction
      next =>
        simp only [AuthDeps.handleAuthEvent, hdeleted, userDeleted_ne_sessionRevoked, decide_false,
          Bool.false_and, Bool.false_eq_true, ↓reduceIte]
    next hunknown =>
      simp [AuthDeps.handleAuthEvent, hother, hunknown]

/-- The scheduler of a stateful service is one over the scheduler of its revocation client. -/
def AuthDeps.wraps (sdk : Sdk) (policy : PolicySdk)
    (hclient : deps.revocationClient = some client) :
    (deps.scheduler sdk policy).Wraps (client.scheduler sdk) where
  call := Request.call?
  finish := Request.verdict policy
  event := DepsEvent.onCache
  exec_eq := rfl
  decode_eq := rfl
  body_call request spec h := by
    obtain ⟨payload, hvalid, rfl⟩ := Request.call?_eq_some h
    rw [body_of_valid hclient hvalid]
    refine Prog.bind_congr fun outcome => ?_
    rw [Request.verdict_of_valid hvalid]
  body_alone request h := ⟨_, body_of_invalid (Option.map_eq_none_iff.mp h)⟩
  env_event e e' h s := by
    cases e with
    | authEvent event => exact handleAuthEvent_of_some hclient event h s
    | advance seconds =>
      obtain rfl := Option.some.inj h
      rfl
    | _ =>
      obtain rfl := Option.some.inj h
      exact congrArg some (onClient_of_some hclient _ s)
  env_quiet e h s s' hs := by
    cases e with
    | authEvent event =>
      obtain rfl := Option.some.inj hs
      exact handleAuthEvent_of_none event h s
    | _ => contradiction

/-- What a step of the service is for its revocation client, if anything. -/
def onClientAct : DepsAct → Option ClientAct
  | .spawn id request => request.call?.map (.spawn id)
  | .resume id answer => some (.resume id answer)
  | .wake id => some (.wake id)
  | .env e => e.onCache.map .env

variable {w w' : DepsPool} {l : DepsAct} {v : ClientPool} {l' : ClientAct}
  {hclient : deps.revocationClient = some client}

theorem start_of_some (hclient : deps.revocationClient = some client) (now : ℚ) :
    deps.start now = .idle (.init client now) := by
  simp [AuthDeps.start, hclient]

theorem act_wraps (l : DepsAct) : (AuthDeps.wraps sdk policy hclient).act l = onClientAct l := by
  cases l <;> rfl

/-- Every run of a stateful service is a run of its revocation client. The client goes through
the same cache states with the calls of the valid requests and with the events that
`handle_auth_event` acts on, and a finished request has made its verdict of the answer to its
call. -/
theorem requests_refine_calls (hclient : deps.revocationClient = some client) {now : ℚ}
    {past : List (DepsPool × DepsAct)}
    (run : Run (deps.scheduler sdk policy).step (deps.start now) past w) :
    ∃ past' v, Run (client.scheduler sdk).step (client.start now) past' v ∧
      v.shared = w.shared ∧
      past'.map (fun e => (e.1.shared, e.2)) =
        past.filterMap (fun e => (onClientAct e.2).map fun l => (e.1.shared, l)) ∧
      ∀ id request verdict, w.tasks id = some ⟨request, .ret verdict⟩ →
        (request.validated = none ∧
          verdict = .error (.httpException forbidden "Could not validate credentials.")) ∨
        ∃ payload answer, request.validated = some payload ∧
          v.tasks id = some ⟨request.callSpec payload, .ret answer⟩ ∧
          verdict = request.finish policy payload answer := by
  rw [start_of_some hclient] at run
  obtain ⟨past', v, run', hw, hpast⟩ := (AuthDeps.wraps sdk policy hclient).run run
  have hhistory := hpast.filterMap_eq
  simp only [act_wraps] at hhistory
  refine ⟨past', v, run', hw.shared_eq, hhistory, ?_⟩
  intro id request verdict ht
  rcases hw.finished ht with ⟨hnone, hbody⟩ | ⟨spec, answer, hcall, hv, hverdict⟩
  · have hinvalid := Option.map_eq_none_iff.mp hnone
    rw [body_of_invalid hinvalid] at hbody
    exact .inl ⟨hinvalid, (Prog.ret.inj hbody).symm⟩
  · obtain ⟨payload, hvalid, rfl⟩ := Request.call?_eq_some hcall
    exact .inr ⟨payload, answer, hvalid, hv,
      hverdict.trans (Request.verdict_of_valid hvalid answer)⟩

/-- The step takes the entry of a JTI out of the validation cache: an event of the stream that
covers it, under either spelling of its type, or an eviction by the service. -/
def Overtakes (sdk : Sdk) (w : DepsPool) (l : DepsAct) (jti : String) (e : CacheEntry) : Prop :=
  match l with
  | .env (.authEvent event) =>
    (dotted event.eventType = sessionRevokedType ∧
      ∃ c, w.shared.cache = some c ∧ c.Evicts (sdk.sessionRevoked event.payload) jti e) ∨
    (dotted event.eventType = userDeletedType ∧
      event.payload.lookup "user_id" = some (.str e.userId))
  | .env (.evictJti target) => jti = target
  | .env (.evictUser userId) => e.userId = userId
  | .env .flushCache => True
  | _ => False

/-- A step that takes an entry out does so in the client. -/
theorem removes_of_overtakes (policy : PolicySdk) (hclient : deps.revocationClient = some client)
    {jti : String} {e : CacheEntry} (h : Overtakes sdk w l jti e) :
    ∃ l', (AuthDeps.wraps sdk policy hclient).act l = some l' ∧
      ∀ v, (AuthDeps.wraps sdk policy hclient).Holds w v → Removes sdk v l' jti e := by
  cases l with
  | env ev =>
    cases ev with
    | authEvent event =>
      rcases h with ⟨hrevoked, hevicts⟩ | ⟨hdeleted, huser⟩
      · have hact : DepsEvent.onCache (.authEvent event) = some (.sessionRevoked event.payload) :=
          if_pos hrevoked
        refine ⟨_, congrArg (Option.map Act.env) hact, fun v hw => ?_⟩
        rw [← hw.shared_eq] at hevicts
        exact hevicts
      · have hact : DepsEvent.onCache (.authEvent event) = some (.evictUser e.userId) := by
          simp [DepsEvent.onCache, AuthStreamEvent.onCache, hdeleted,
            userDeleted_ne_sessionRevoked, huser]
        exact ⟨_, congrArg (Option.map Act.env) hact, fun v hw => rfl⟩
    | evictJti target => exact ⟨.env (.evictJti target), rfl, fun v hw => h⟩
    | evictUser userId => exact ⟨.env (.evictUser userId), rfl, fun v hw => h⟩
    | flushCache => exact ⟨.env .flushCache, rfl, fun v hw => h⟩
    | advance seconds => exact h.elim
  | _ => exact h.elim

/-- What the client receives is received by the request that makes the call. -/
theorem receives_of_holds (hw : (AuthDeps.wraps sdk policy hclient).Holds w v)
    (hl : (AuthDeps.wraps sdk policy hclient).act l = some l') {id : ℕ} {status : StatusRequest}
    {reply : JtiStatusResponse} (h : Receives sdk v l' id status reply) :
    Receives sdk w l id status reply := by
  obtain ⟨spec, k, response, ht, rfl, hsuccess, hparse⟩ := h
  obtain ⟨request, -, ht'⟩ := hw.carrier ht
  exact ⟨request, _, response, ht', Scheduler.Wraps.act_eq_resume hl, hsuccess, hparse⟩

/-- A request is admitted with the active user of its token, whom its dependency authorizes. -/
theorem finish_eq_ok {request : Request} {payload : TokenPayload} {outcome : Except PyExc Bool}
    {user : UserModel} (h : request.finish policy payload outcome = .ok user) :
    outcome = .ok false ∧ policy.buildActiveUser payload = .ok user ∧
      request.dependency.authorize policy user = .ok () := by
  obtain rfl := outcome_of_finish h
  obtain ⟨-, -, hrest⟩ := bind_eq_ok.mp h
  obtain ⟨user', huser, hlast⟩ := bind_eq_ok.mp hrest
  obtain ⟨_, hauthorize, hret⟩ := bind_eq_ok.mp hlast
  obtain rfl := Except.ok.inj hret
  exact ⟨rfl, huser, hauthorize⟩

/-- The step ends the request `id` with an answer. -/
def RequestEnds (w' : DepsPool) (l : DepsAct) (id : ℕ) (request : Request)
    (answer : Except PyExc UserModel) : Prop :=
  (l = .spawn id request ∨ ∃ reply, l = .resume id reply) ∧
    w'.tasks id = some ⟨request, .ret answer⟩

/-- A valid request that is answered has made its verdict of what its call returns in the same
step. -/
theorem returns_of_requestEnds (hw : (AuthDeps.wraps sdk policy hclient).Holds w v)
    (h : (deps.scheduler sdk policy).step w l = some w') {id : ℕ} {request : Request}
    {answer : Except PyExc UserModel} (hended : RequestEnds w' l id request answer)
    (hne : answer ≠ .error (.httpException forbidden "Could not validate credentials.")) :
    ∃ payload l' v' outcome, request.validated = some payload ∧
      answer = request.finish policy payload outcome ∧
      (AuthDeps.wraps sdk policy hclient).act l = some l' ∧
      (client.scheduler sdk).step v l' = some v' ∧
      Returns v' l' id (request.callSpec payload) outcome := by
  obtain ⟨hends, ht⟩ := hended
  have hcalled : ∀ u : ClientPool, (AuthDeps.wraps sdk policy hclient).Holds w' u →
      ∃ payload outcome, request.validated = some payload ∧
        answer = request.finish policy payload outcome ∧
        u.tasks id = some ⟨request.callSpec payload, .ret outcome⟩ := by
    intro u hu
    rcases hu.finished ht with ⟨hnone, hbody⟩ | ⟨spec, outcome, hcall, hv, hresult⟩
    · rw [body_of_invalid (Option.map_eq_none_iff.mp hnone)] at hbody
      exact absurd (Prog.ret.inj hbody).symm hne
    · obtain ⟨payload, hvalid, rfl⟩ := Request.call?_eq_some hcall
      exact ⟨payload, outcome, hvalid,
        hresult.trans (Request.verdict_of_valid hvalid outcome), hv⟩
  have hspawn : ∀ payload, request.validated = some payload →
      (AuthDeps.wraps sdk policy hclient).act (.spawn id request) =
        some (.spawn id (request.callSpec payload)) := by
    intro payload hvalid
    simp [act_wraps, onClientAct, Request.call?, hvalid]
  rcases hw.step h with ⟨hquiet, hw'⟩ | ⟨l', v', hl, h', hw'⟩
  · -- a quiet step neither starts a call nor answers one
    obtain ⟨payload, outcome, hvalid, -⟩ := hcalled v hw'
    rcases hends with rfl | ⟨reply, rfl⟩
    · rw [hspawn payload hvalid] at hquiet
      contradiction
    · contradiction
  · obtain ⟨payload, outcome, hvalid, hanswer, hv⟩ := hcalled v' hw'
    refine ⟨payload, l', v', outcome, hvalid, hanswer, hl, h', ?_, hv⟩
    rcases hends with rfl | ⟨reply, rfl⟩
    · exact .inl (Option.some.inj (hl.symm.trans (hspawn payload hvalid)))
    · exact .inr ⟨reply, (Option.some.inj hl).symm⟩

/-- In fail-closed mode a request is admitted on an active reply about its token: on the one to
its own status request, which names its subject, or, outside the role guards, on one received
within the time to live whose entry no event of the auth stream and no eviction has taken out
since. That one was about the same JTI, but the owner that it names may be another one than the
subject of the request. -/
theorem request_backed (hclient : deps.revocationClient = some client)
    (hclosed : client.failClosed = true) {now : ℚ} {past : List (DepsPool × DepsAct)}
    (run : Run (deps.scheduler sdk policy).step (deps.start now) past w)
    (h : (deps.scheduler sdk policy).step w l = some w') {id : ℕ} {request : Request}
    {user : UserModel} (hadmits : Admits w' l id request user) :
    ∃ payload, request.validated = some payload ∧ policy.buildActiveUser payload = .ok user ∧
      request.dependency.authorize policy user = .ok () ∧
      ((∃ status g, Receives sdk w l id status (.active payload.sub g) ∧
        status.jti = payload.jti ∧ status.expectedUserId = payload.sub ∧
        w.shared.isSuperseded payload.sub g = false) ∨
      request.dependency = .currentUser ∧ ∃ e newer w₁ l₁ id₁ status older,
        past = newer ++ (w₁, l₁) :: older ∧
        Receives sdk w₁ l₁ id₁ status (.active e.userId e.authGeneration) ∧
        status.jti = payload.jti ∧ w₁.shared.isSuperseded e.userId e.authGeneration = false ∧
        w₁.shared.now ≤ w.shared.now ∧ w.shared.now < w₁.shared.now + client.cacheTtl ∧
        ∀ x ∈ newer, ¬ Overtakes sdk x.1 x.2 payload.jti e) := by
  rw [start_of_some hclient] at run
  obtain ⟨past', v, run', hw, hpast⟩ := (AuthDeps.wraps sdk policy hclient).run run
  obtain ⟨payload, l', v', outcome, hvalid, hanswer, hl, h', hends, ht⟩ :=
    returns_of_requestEnds hw h hadmits (by simp)
  obtain ⟨rfl, huser, hauthorize⟩ := finish_eq_ok hanswer.symm
  refine ⟨payload, hvalid, huser, hauthorize, ?_⟩
  rcases hends with rfl | ⟨answer, rfl⟩
  · obtain ⟨-, -, hbypass, -, -, e, he, hlive⟩ := hits_of_spawn h' ht
    obtain ⟨newer', v₁, l₁', older', rfl, ⟨id₁, c, haccepts, hc, -, hexp⟩, hkept⟩ :=
      stored_origin run' he
    obtain ⟨status, hreceives, hjti, hown, hcurrent⟩ := haccepts
    obtain ⟨newer, w₁, l₁, older, rfl, hl₁, hw₁, hnewer, -⟩ := hpast.split
    obtain ⟨ops, hops⟩ := cache_run run'.split_cons.1 c hc
    have httl : c.ttl = client.cacheTtl := JtiRevocationCache.opRun_ttl hops
    have hordered : v₁.shared.now ≤ v.shared.now :=
      now_le_of_mem (Scheduler.guaranteed_idle _ _) run'
    rw [hexp, httl] at hlive
    rw [hown] at hreceives
    rw [hw₁.shared_eq] at hcurrent hordered hlive
    rw [hw.shared_eq] at hordered hlive
    refine .inr ⟨?_, e, newer, w₁, l₁, id₁, status, older, rfl, receives_of_holds hw₁ hl₁ hreceives,
      hjti, hcurrent, hordered, hlive, ?_⟩
    · cases hdependency : request.dependency with
      | currentUser => rfl
      | _ => simp [Request.callSpec, Dependency.isRoleGuard, hdependency] at hbypass
    · intro x hx hovertakes
      obtain ⟨l₂, hl₂, hremoves⟩ := removes_of_overtakes policy hclient hovertakes
      obtain ⟨v₂, hmem, hw₂⟩ := hnewer.mem hx hl₂
      exact hkept _ hmem (hremoves v₂ hw₂)
  · rcases returns_of_resume (calls_guaranteed run') h' ht with ⟨-, hopen⟩ |
      ⟨g, status, hreceives, hjti, hown, hr, -⟩
    · rw [hopen false rfl rfl] at hclosed
      contradiction
    · rw [hw.shared_eq] at hr
      exact .inl ⟨status, g, receives_of_holds hw hl hreceives, hjti, hown,
        (ClientState.eq_of_answer hr.symm).symm⟩

def generalRequest : Request := ⟨.currentUser, some writerToken⟩

/-- A session is cached, and five seconds later another user is deleted. -/
def otherDeleted : List DepsAct :=
  cachedLabels ++ [.env (.advance 5),
    .env (.authEvent ⟨"user-deleted", [("user_id", .str "user-b")]⟩)]

theorem otherDeleted_then_admitted :
    ∃ past w w' user, Run (consumerDeps.scheduler v2Sdk rankedPolicy).step (consumerDeps.start 0)
        past w ∧ past.map Prod.snd = otherDeleted.reverse ∧
      (consumerDeps.scheduler v2Sdk rankedPolicy).step w (.spawn 1 generalRequest) = some w' ∧
      Admits w' (.spawn 1 generalRequest) 1 generalRequest user := by
  have heval : (otherDeleted.foldlM (consumerDeps.scheduler v2Sdk rankedPolicy).step
      (consumerDeps.start 0)).any (fun w => holds w "jti-1" &&
        ((consumerDeps.scheduler v2Sdk rankedPolicy).step w (.spawn 1 generalRequest)).any
          fun w' => (w'.result 1).any Except.isOk) = true := by decide +kernel
  obtain ⟨past, w, w', run, hlabels, -, hstep, hok⟩ := Run.exists_step heval
  clear heval
  have hspawn : ∀ request, Act.spawn 1 request ∈
      ((w, Act.spawn 1 generalRequest) :: past).map Prod.snd → request = generalRequest := by
    intro request hmem
    rw [List.map_cons, hlabels] at hmem
    simpa [otherDeleted, cachedLabels] using hmem
  obtain ⟨user, ht⟩ := tasks_of_isOk (run.next hstep) hspawn hok
  exact ⟨past, w, w', user, run, hlabels, hstep, .inl rfl, ht⟩

theorem requests_refine_calls_admitted :
    ∃ (past' : List (ClientPool × ClientAct)) (v : ClientPool) (client : RemoteRevocationClient),
      Run (client.scheduler v2Sdk).step (client.start 0) past' v ∧
        v.tasks 1 = some ⟨⟨"jti-1", "user-a", false⟩, .ret (.ok false)⟩ := by
  obtain ⟨past, w, w', user, run, -, hstep, -, ht⟩ := otherDeleted_then_admitted
  obtain ⟨past', v, run', -, -, hverdicts⟩ := requests_refine_calls rfl (run.next hstep)
  rcases hverdicts 1 generalRequest _ ht with ⟨hnone, -⟩ | ⟨payload, answer, hvalid, hv, hfinish⟩
  · contradiction
  · obtain rfl := Option.some.inj hvalid
    obtain rfl := outcome_of_finish hfinish.symm
    exact ⟨past', v, _, run', hv⟩

theorem request_backed_cached :
    ∃ (past : List (DepsPool × DepsAct)) (w : DepsPool) (e : CacheEntry), ∃ x ∈ past,
      (∃ id status, Receives v2Sdk x.1 x.2 id status (.active e.userId e.authGeneration) ∧
        status.jti = "jti-1") ∧ w.shared.now < x.1.shared.now + 30 := by
  obtain ⟨past, w, w', user, run, -, hstep, hadmits⟩ := otherDeleted_then_admitted
  obtain ⟨payload, hvalid, -, -, ⟨status, g, ⟨_, _, _, _, hl, _⟩, -⟩ |
    ⟨-, e, newer, w₁, l₁, id₁, status, older, rfl, hreceives, hjti, -, -, hlive, -⟩⟩ :=
      request_backed rfl rfl run hstep hadmits
  · contradiction
  · obtain rfl := Option.some.inj hvalid
    have hmem : (w₁, l₁) ∈ newer ++ (w₁, l₁) :: older := List.mem_append_right _ List.mem_cons_self
    exact ⟨_, w, e, (w₁, l₁), hmem, ⟨id₁, status, hreceives, hjti⟩, hlive⟩

end FastapiM8
