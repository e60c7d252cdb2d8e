import FastapiM8.Deps
import FastapiM8.Lib.View
import FastapiM8.Revocation.Runs

/-! Role guards and the positive cache: a guard never looks a token up, so that it admits on
the issuer's reply to its own request alone. -/
namespace FastapiM8

variable {client : RemoteRevocationClient} {sdk : Sdk} {deps : AuthDeps} {policy : PolicySdk}
  {request : Request} {payload : TokenPayload}

/-- What a dependency asks of an active user. -/
def Dependency.authorize (policy : PolicySdk) (user : UserModel) : Dependency → Except PyExc Unit
  | .currentUser => .ok ()
  | .requireRole role => policy.requireRole user role
  | .activeSuperuser => policy.requireSuperuser user

/-- What a request makes of the answer to its revocation check. -/
def Request.finish (policy : PolicySdk) (request : Request) (payload : TokenPayload)
    (outcome : Except PyExc Bool) : Except PyExc UserModel := do
  revocationOutcome outcome
  let user ← policy.buildActiveUser payload
  request.dependency.authorize policy user
  return user

theorem run_authenticate (hclient : deps.revocationClient = some client) (bypassCache : Bool) :
    (deps.authenticate sdk policy (some payload) bypassCache).run =
      (client.isRevoked sdk payload.jti payload.sub bypassCache).run >>= fun outcome =>
        .ret ((revocationOutcome outcome).bind fun _ => policy.buildActiveUser payload) := by
  have hcheck : (checkTokenRevocation sdk deps.revocationClient payload.jti payload.sub
      bypassCache).run = (client.isRevoked sdk payload.jti payload.sub bypassCache).run >>=
        fun outcome => .ret (revocationOutcome outcome) := by
    rw [hclient]
    exact Py.run_attempt_bind _ _
  have hbind : (deps.authenticate sdk policy (some payload) bypassCache).run =
      (checkTokenRevocation sdk deps.revocationClient payload.jti payload.sub bypassCache >>=
        fun _ => (liftM (policy.buildActiveUser payload) : Py ClientOp ClientAns UserModel)).run :=
    rfl
  rw [hbind, Py.run_bind_lift, hcheck, Prog.bind_assoc]
  rfl

theorem run_guard (hclient : deps.revocationClient = some client)
    (authorize : UserModel → Except PyExc Unit) :
    (do
      let user ← deps.getCurrentUserFresh sdk policy (some payload)
      authorize user
      return user : Py ClientOp ClientAns UserModel).run =
    (client.isRevoked sdk payload.jti payload.sub true).run >>= fun outcome => .ret (do
      revocationOutcome outcome
      let user ← policy.buildActiveUser payload
      authorize user
      return user) := by
  have hguard : (do
      let user ← deps.getCurrentUserFresh sdk policy (some payload)
      authorize user
      return user : Py ClientOp ClientAns UserModel) =
    deps.getCurrentUserFresh sdk policy (some payload) >>= fun user =>
      liftM ((authorize user).bind fun _ => .ok user) :=
    congrArg (deps.getCurrentUserFresh sdk policy (some payload) >>= ·)
      (funext fun user => Py.lift_bind (authorize user) fun _ => .ok user)
  rw [hguard, Py.run_bind_lift, AuthDeps.getCurrentUserFresh, run_authenticate hclient,
    Prog.bind_assoc]
  refine Prog.bind_congr fun outcome => ?_
  cases revocationOutcome outcome <;> rfl

/-- A request asks for the revocation of its token, a guard past the cache, and decides on the
answer alone. -/
theorem body_of_valid (hclient : deps.revocationClient = some client)
    (hvalid : request.validated = some payload) :
    (deps.scheduler sdk policy).body request =
      (client.isRevoked sdk payload.jti payload.sub request.dependency.isRoleGuard).run >>=
        fun outcome => .ret (request.finish policy payload outcome) := by
  obtain ⟨dependency, validated⟩ := request
  obtain rfl : validated = some payload := hvalid
  cases dependency with
  | currentUser =>
    refine (run_authenticate hclient false).trans (Prog.bind_congr fun outcome => ?_)
    unfold Request.finish
    cases revocationOutcome outcome with
    | error exc => rfl
    | ok _ => cases policy.buildActiveUser payload <;> rfl
  | requireRole role => exact run_guard hclient fun user => policy.requireRole user role
  | activeSuperuser => exact run_guard hclient policy.requireSuperuser

theorem body_of_invalid (hvalid : request.validated = none) :
    (deps.scheduler sdk policy).body request =
      .ret (.error (.httpException forbidden "Could not validate credentials.")) := by
  obtain ⟨dependency, validated⟩ := request
  obtain rfl : validated = none := hvalid
  cases dependency <;> rfl

/-- A request is admitted only when its token was not revoked. -/
theorem outcome_of_finish {outcome : Except PyExc Bool} {user : UserModel}
    (h : request.finish policy payload outcome = .ok user) : outcome = .ok false := by
  cases outcome with
  | ok revoked =>
    cases revoked with
    | false => rfl
    | true => contradiction
  | error exc => cases exc <;> contradiction

/-- The call that a request makes. -/
def Request.callSpec (request : Request) (payload : TokenPayload) : CallSpec :=
  ⟨payload.jti, payload.sub, request.dependency.isRoleGuard⟩

/-- The segments of a request are those of its call, whose answer it decides on. -/
def RequestSegment (client : RemoteRevocationClient) (sdk : Sdk) (policy : PolicySdk)
    (request : Request) (o : ClientOp) (a : ClientAns o) (s : ClientState)
    (r : Prog ClientOp ClientAns (Except PyExc UserModel) × ClientState) : Prop :=
  ∃ payload r₀, request.validated = some payload ∧
    client.CallSegment sdk (request.callSpec payload) o a s r₀ ∧
    r = (r₀.1 >>= fun outcome => .ret (request.finish policy payload outcome), r₀.2)

theorem requests_keep (hclient : deps.revocationClient = some client)
    (w : DepsPool) (l : DepsAct) (w' : DepsPool)
    (hw : (deps.scheduler sdk policy).Guaranteed (RequestSegment client sdk policy) w)
    (h : (deps.scheduler sdk policy).step w l = some w') :
    (deps.scheduler sdk policy).Guaranteed (RequestSegment client sdk policy) w' := by
  refine Scheduler.guaranteed_step (fun request s => ?_) w l w' hw h
  change Prog.Obeys ClientOp.exec _ (((deps.scheduler sdk policy).body request).settle
    ClientOp.exec s).1
  cases hvalid : request.validated with
  | none =>
    rw [body_of_invalid hvalid]
    exact .ret _
  | some payload =>
    rw [body_of_valid hclient hvalid, Prog.settle_bind_ret]
    refine (RemoteRevocationClient.obeys_isRevoked (request.callSpec payload) s).bind_ret ?_
    intro o a s r hseg
    exact ⟨payload, r, hvalid, hseg, rfl⟩

theorem requests_guaranteed (hclient : deps.revocationClient = some client) {s : ClientState}
    {past : List (DepsPool × DepsAct)} {w : DepsPool}
    (run : Run (deps.scheduler sdk policy).step (.idle s) past w) :
    (deps.scheduler sdk policy).Guaranteed (RequestSegment client sdk policy) w :=
  run.invariant (requests_keep hclient) (Scheduler.guaranteed_idle _ _)

/-- The step ends the request `id` with a user. -/
def Admits (w' : DepsPool) (l : DepsAct) (id : ℕ) (request : Request) (user : UserModel) : Prop :=
  (l = .spawn id request ∨ ∃ answer, l = .resume id answer) ∧
    w'.tasks id = some ⟨request, .ret (.ok user)⟩

/-- A guard does not end before it has asked the issuer. -/
theorem not_admits_spawn (hclient : deps.revocationClient = some client)
    (hguard : request.dependency.isRoleGuard = true) {w w' : DepsPool} {id : ℕ} {user : UserModel}
    (h : (deps.scheduler sdk policy).step w (.spawn id request) = some w') :
    w'.tasks id ≠ some ⟨request, .ret (.ok user)⟩ := by
  obtain ⟨-, rfl⟩ := Scheduler.step_spawn_iff.mp h
  rw [Pool.park_tasks_self]
  intro ht
  obtain ⟨-, hprog⟩ := Thread.mk.inj (Option.some.inj ht)
  change (((deps.scheduler sdk policy).body request).settle ClientOp.exec w.shared).1 = _ at hprog
  cases hvalid : request.validated with
  | none =>
    rw [body_of_invalid hvalid] at hprog
    cases hprog
  | some payload =>
    have hmiss : (w.shared.lookup (request.callSpec payload)).1 = none := by
      unfold ClientState.lookup
      split
      · rfl
      · simp [Request.callSpec, hguard]
    have hcall : ((client.isRevoked sdk payload.jti payload.sub
        request.dependency.isRoleGuard).run.settle ClientOp.exec w.shared).1 =
          client.postThen payload.jti payload.sub
            (client.afterFirstPost sdk payload.jti payload.sub) := by
      have hstart : _ = client.startCall sdk (request.callSpec payload) w.shared :=
        RemoteRevocationClient.settle_isRevoked (request.callSpec payload) w.shared
      rw [← RemoteRevocationClient.run_askIssuer]
      exact (congrArg Prod.fst hstart).trans (RemoteRevocationClient.startCall_miss hmiss)
    rw [body_of_valid hclient hvalid, Prog.settle_bind_ret, hcall] at hprog
    contradiction

/-- In fail-closed mode a guard admits on the issuer's reply to its own request. -/
theorem receives_of_admits (hclient : deps.revocationClient = some client)
    (hclosed : client.failClosed = true) (hguard : request.dependency.isRoleGuard = true)
    {s : ClientState} {past : List (DepsPool × DepsAct)} {w w' : DepsPool} {l : DepsAct} {id : ℕ}
    {user : UserModel} (run : Run (deps.scheduler sdk policy).step (.idle s) past w)
    (h : (deps.scheduler sdk policy).step w l = some w') (hadmits : Admits w' l id request user) :
    ∃ payload status g, request.validated = some payload ∧
      (∃ w₁, (w₁, .spawn id request) ∈ past) ∧
      Receives sdk w l id status (.active payload.sub g) ∧ status.jti = payload.jti ∧
      status.expectedUserId = payload.sub ∧ w.shared.isSuperseded payload.sub g = false := by
  obtain ⟨rfl | ⟨answer, rfl⟩, ht⟩ := hadmits
  · exact absurd ht (not_admits_spawn hclient hguard h)
  · obtain ⟨request', o, k, a, ht', ha, rfl⟩ := Scheduler.step_resume_iff.mp h
    rw [Pool.park_tasks_self, Option.some.injEq, Thread.mk.injEq] at ht
    obtain ⟨rfl, hprog⟩ := ht
    obtain ⟨payload, r₀, hvalid, ⟨hawaits, hseg⟩, hr⟩ :=
      (requests_guaranteed hclient run).segment ht' a w.shared
    have hended : r₀.1 >>= (fun outcome => .ret (request'.finish policy payload outcome)) =
        .ret (.ok user) := (congrArg Prod.fst hr).symm.trans hprog
    have hresult : ∀ outcome, r₀.1 = .ret outcome → outcome = .ok false := by
      intro outcome hout
      rw [hout] at hended
      exact outcome_of_finish (Prog.ret.inj hended)
    cases hseg with
    | waits h o' k' ho => contradiction
    | fails h r₁ hr₁ =>
      have hopen := (hr₁ false (hresult r₁ rfl)).2
      rw [hopen] at hclosed
      contradiction
    | refuses owner g h hne => exact absurd (hresult _ rfl) (by simp)
    | denies h => exact absurd (hresult _ rfl) (by simp)
    | decides g hreply =>
      obtain ⟨status, hreceives, hjti, huser⟩ := receives_of_reply ht' ha hawaits hreply
      exact ⟨payload, status, g, hvalid, Scheduler.spawned run ht', hreceives, hjti, huser,
        (ClientState.eq_of_answer (hresult _ rfl)).symm⟩

/-- The watermark map of a client's cache. -/
def ClientState.watermarkMap (s : ClientState) : Option (OrderedDict String ℤ) :=
  s.cache.map JtiRevocationCache.watermarks

/-- The time to live of a client's cache, which nothing changes. -/
def ClientState.ttl (s : ClientState) : Option ℤ := s.cache.map JtiRevocationCache.ttl

/-- The operation is not a lookup. -/
def NoLookup : ClientOp → Prop
  | .cacheGet _ => False
  | _ => True

/-- Whether an event can move the watermark map, and by which payload. -/
def DepsEvent.revoked? : DepsEvent → Option (List (String × Json))
  | .authEvent event =>
    if dotted event.eventType = sessionRevokedType then some event.payload else none
  | _ => none

theorem watermarkMap_mapCache {s : ClientState} {f : JtiRevocationCache → JtiRevocationCache}
    (h : ∀ c, (f c).watermarks = c.watermarks) : (s.mapCache f).watermarkMap = s.watermarkMap := by
  simp only [ClientState.watermarkMap, ClientState.mapCache, Option.map_map]
  exact congrArg (Option.map · s.cache) (funext h)

theorem ttl_mapCache {s : ClientState} {f : JtiRevocationCache → JtiRevocationCache}
    (h : ∀ c, (f c).ttl = c.ttl) : (s.mapCache f).ttl = s.ttl := by
  simp only [ClientState.ttl, ClientState.mapCache, Option.map_map]
  exact congrArg (Option.map · s.cache) (funext h)

/-- What an operation does to the cache, a method of the cache does, if anything. -/
theorem cache_exec {o : ClientOp} {s s' : ClientState} {a : ClientAns o}
    (h : o.exec s = some (a, s')) : s' = s ∨ ∃ op : JtiRevocationCache.CacheOp,
      (∀ payload, op ≠ .sessionRevoked payload) ∧ s' = s.mapCache op.apply := by
  cases o with
  | cachePresent | cacheIsSuperseded userId g =>
    obtain ⟨-, rfl⟩ := Prod.mk.inj (Option.some.inj h)
    exact .inl rfl
  | cacheGet jti =>
    obtain ⟨cache, now⟩ := s
    cases cache with
    | none =>
      obtain ⟨-, rfl⟩ := Prod.mk.inj (Option.some.inj h)
      exact .inl rfl
    | some c =>
      obtain ⟨-, rfl⟩ := Prod.mk.inj (Option.some.inj h)
      exact .inr ⟨.get now jti, by simp, rfl⟩
  | cachePut jti userId g =>
    obtain ⟨cache, now⟩ := s
    cases cache with
    | none =>
      obtain ⟨-, rfl⟩ := Prod.mk.inj (Option.some.inj h)
      exact .inl rfl
    | some c =>
      obtain ⟨-, rfl⟩ := Prod.mk.inj (Option.some.inj h)
      exact .inr ⟨.put now jti userId g, by simp, rfl⟩
  | _ => contradiction

theorem watermarkMap_exec {o : ClientOp} {s s' : ClientState} {a : ClientAns o}
    (h : o.exec s = some (a, s')) : s'.watermarkMap = s.watermarkMap := by
  rcases cache_exec h with rfl | ⟨op, hop, rfl⟩
  · rfl
  · refine watermarkMap_mapCache fun c => (op.apply_maps.resolve_right ?_).1
    rintro ⟨payload, heq⟩
    exact hop payload heq

theorem ttl_exec {o : ClientOp} {s s' : ClientState} {a : ClientAns o}
    (h : o.exec s = some (a, s')) : s'.ttl = s.ttl := by
  rcases cache_exec h with rfl | ⟨op, -, rfl⟩
  · rfl
  · exact ttl_mapCache fun c => op.apply_ttl

theorem exec_blind {o : ClientOp} (ho : NoLookup o) {s₁ s₂ : ClientState}
    (h : s₁.watermarkMap = s₂.watermarkMap) (httl : s₁.ttl = s₂.ttl) :
    (o.exec s₁).map Prod.fst = (o.exec s₂).map Prod.fst := by
  cases o with
  | cacheGet jti => exact ho.elim
  | cachePresent =>
    have hpresent : ∀ s : ClientState, s.cache.isSome = s.watermarkMap.isSome := by
      intro s
      simp [ClientState.watermarkMap]
    simp only [ClientOp.exec, Option.map_some, hpresent, h]
  | cacheIsSuperseded userId g =>
    have hknown : ∀ s : ClientState, (s.cache.any fun c => c.isSuperseded userId g) =
        s.watermarkMap.any fun wm => decide (g < (wm.get? userId).getD 0) := by
      rintro ⟨cache, now⟩
      cases cache <;> rfl
    simp only [ClientOp.exec, Option.map_some, hknown, h]
  | cachePut jti userId g =>
    obtain ⟨cache₁, now₁⟩ := s₁
    obtain ⟨cache₂, now₂⟩ := s₂
    cases cache₁ with
    | none =>
      cases cache₂ with
      | none => rfl
      | some c₂ => contradiction
    | some c₁ =>
      cases cache₂ with
      | none => contradiction
      | some c₂ =>
        have hmap : c₁.watermarks = c₂.watermarks := Option.some.inj h
        have httl : c₁.ttl = c₂.ttl := Option.some.inj httl
        have hsame : (c₁.put now₁ jti userId g).1 = (c₂.put now₂ jti userId g).1 := by
          rw [JtiRevocationCache.put_fst, JtiRevocationCache.put_fst,
            JtiRevocationCache.watermark, JtiRevocationCache.watermark, hmap, httl]
        exact congrArg (fun outcome : Except PyExc Unit => some outcome.isOk) hsame
  | _ => rfl

theorem watermarkMap_onClient {f : ClientState → ClientState} {s : ClientState}
    (h : (f s).watermarkMap = s.watermarkMap) :
    (deps.onClient f s).watermarkMap = s.watermarkMap := by
  unfold AuthDeps.onClient
  split
  · exact h
  · rfl

theorem watermarkMap_quiet {e : DepsEvent} {s s' : ClientState} (hquiet : e.revoked? = none)
    (h : e.apply deps sdk s = some s') : s'.watermarkMap = s.watermarkMap := by
  cases e with
  | authEvent event =>
    have hother : dotted event.eventType ≠ sessionRevokedType := by
      intro htype
      simp [DepsEvent.revoked?, htype] at hquiet
    obtain rfl := Option.some.inj h
    simp only [AuthDeps.handleAuthEvent, hother, decide_false, Bool.false_and, Bool.false_eq_true,
      ↓reduceIte]
    split
    · split
      · exact watermarkMap_onClient (watermarkMap_mapCache fun _ => rfl)
      · rfl
    · rfl
  | advance seconds =>
    simp only [DepsEvent.apply, Option.ite_none_right_eq_some, Option.some.injEq] at h
    rw [← h.2]
    rfl
  | _ =>
    -- the evictions only remove entries
    obtain rfl := Option.some.inj h
    exact watermarkMap_onClient (watermarkMap_mapCache fun _ => rfl)

theorem watermarkMap_applySessionRevoked {s₁ s₂ : ClientState}
    (h : s₁.watermarkMap = s₂.watermarkMap) (payload : List (String × Json)) :
    (s₁.applySessionRevokedEvent sdk payload).watermarkMap =
      (s₂.applySessionRevokedEvent sdk payload).watermarkMap := by
  obtain ⟨cache₁, now₁⟩ := s₁
  obtain ⟨cache₂, now₂⟩ := s₂
  cases cache₁ with
  | none =>
    cases cache₂ with
    | none => rfl
    | some c₂ => contradiction
  | some c₁ =>
    cases cache₂ with
    | none => contradiction
    | some c₂ =>
      have hsame : c₁.watermarks = c₂.watermarks := Option.some.inj h
      exact congrArg some (JtiRevocationCache.applySessionRevoked_watermarks_congr hsame _)

/-- No event changes the time to live. -/
theorem ttl_event {e : DepsEvent} {s s' : ClientState} (h : e.apply deps sdk s = some s') :
    s'.ttl = s.ttl := by
  have honClient : ∀ f : ClientState → ClientState, (f s).ttl = s.ttl →
      (deps.onClient f s).ttl = s.ttl := by
    intro f hf
    unfold AuthDeps.onClient
    split
    · exact hf
    · rfl
  cases e with
  | authEvent event =>
    obtain rfl := Option.some.inj h
    have hrevoked : (s.applySessionRevokedEvent sdk event.payload).ttl = s.ttl :=
      ttl_mapCache fun c => JtiRevocationCache.applySessionRevoked_ttl _
    have hevicted : ∀ userId, (deps.evictUser s userId).ttl = s.ttl :=
      fun userId => honClient _ (ttl_mapCache fun _ => rfl)
    simp only [AuthDeps.handleAuthEvent]
    split
    · exact hrevoked
    · split
      · split
        · exact hevicted _
        · rfl
      · rfl
  | advance seconds =>
    simp only [DepsEvent.apply, Option.ite_none_right_eq_some, Option.some.injEq] at h
    rw [← h.2]
    rfl
  | _ =>
    obtain rfl := Option.some.inj h
    exact honClient _ (ttl_mapCache fun _ => rfl)

/-- The same `session.revoked` payload moves equal watermark maps alike. -/
theorem watermarkMap_revoked {e₁ e₂ : DepsEvent} {x : List (String × Json)}
    {s₁ s₂ s₁' s₂' : ClientState} (h₁ : e₁.revoked? = some x) (h₂ : e₂.revoked? = some x)
    (hsame : s₁.watermarkMap = s₂.watermarkMap) (hs₁ : e₁.apply deps sdk s₁ = some s₁')
    (hs₂ : e₂.apply deps sdk s₂ = some s₂') : s₁'.watermarkMap = s₂'.watermarkMap := by
  have happly : ∀ {e : DepsEvent} {s s' : ClientState}, e.revoked? = some x →
      e.apply deps sdk s = some s' →
      s' = deps.onClient (fun s => s.applySessionRevokedEvent sdk x) s := by
    intro e s s' he hs
    cases e with
    | authEvent event =>
      obtain ⟨htype, hpayload⟩ := Option.ite_none_right_eq_some.mp he
      obtain rfl := Option.some.inj hpayload
      obtain rfl := Option.some.inj hs
      cases hclient : deps.revocationClient <;>
        simp [AuthDeps.handleAuthEvent, AuthDeps.onClient, htype, hclient, sessionRevokedType,
          userDeletedType]
    | _ => contradiction
  rw [happly h₁ hs₁, happly h₂ hs₂]
  unfold AuthDeps.onClient
  split
  · exact watermarkMap_applySessionRevoked hsame x
  · exact hsame

/-- Requests may see the watermark map and the time to live; the store shows in lookups alone. -/
def watermarkView (deps : AuthDeps) (sdk : Sdk) (policy : PolicySdk) :
    (deps.scheduler sdk policy).View (Option (OrderedDict String ℤ) × Option ℤ)
      (List (String × Json)) where
  view s := (s.watermarkMap, s.ttl)
  blind := NoLookup
  low := DepsEvent.revoked?
  exec_view _ _ _ _ h := Prod.ext (watermarkMap_exec h) (ttl_exec h)
  exec_blind _ ho _ _ h := exec_blind ho (congrArg Prod.fst h) (congrArg Prod.snd h)
  env_quiet _ _ _ hquiet h := Prod.ext (watermarkMap_quiet hquiet h) (ttl_event h)
  env_low _ _ _ _ _ _ _ h₁ h₂ hsame hs₁ hs₂ :=
    Prod.ext (watermarkMap_revoked h₁ h₂ (congrArg Prod.fst hsame) hs₁ hs₂)
      (((ttl_event hs₁).trans (congrArg Prod.snd hsame)).trans (ttl_event hs₂).symm)

theorem only_conclude (jti userId : String) (outcome : Except PyExc JtiStatusResponse) :
    (client.conclude jti userId outcome).Only NoLookup := by
  cases outcome with
  | error exc => cases exc <;> trivial
  | ok result =>
    cases result with
    | inactive => trivial
    | active owner g =>
      refine ⟨trivial, fun present => ?_⟩
      cases present with
      | false => trivial
      | true =>
        refine ⟨trivial, fun superseded => ?_⟩
        cases superseded with
        | false => exact ⟨trivial, fun _ => trivial⟩
        | true => trivial

theorem only_postThen {jti userId : String}
    {next : Except PyExc Response → Prog ClientOp ClientAns (Except PyExc Bool)}
    (hnext : ∀ outcome, (next outcome).Only NoLookup) :
    (client.postThen jti userId next).Only NoLookup := by
  refine ⟨trivial, fun headers => ?_⟩
  change Except PyExc Headers at headers
  cases headers with
  | error exc => exact hnext (.error exc)
  | ok headers => exact ⟨trivial, fun r => hnext _⟩

theorem only_askIssuer (jti userId : String) :
    (client.askIssuer sdk jti userId).run.Only NoLookup := by
  rw [RemoteRevocationClient.run_askIssuer]
  refine only_postThen fun outcome => ?_
  by_cases h401 : outcome = .error (.httpStatusError 401)
  · subst h401
    refine ⟨trivial, fun r => ?_⟩
    match r with
    | .error exc => exact only_conclude jti userId (.error exc)
    | .ok false => exact only_conclude jti userId (.error (.httpStatusError 401))
    | .ok true => exact only_postThen fun outcome => only_conclude jti userId _
  · rw [RemoteRevocationClient.afterFirstPost_of_ne h401]
    exact only_conclude _ _ _

theorem only_guard (hclient : deps.revocationClient = some client)
    (hguard : request.dependency.isRoleGuard = true) :
    ((deps.scheduler sdk policy).body request).Only NoLookup := by
  cases hvalid : request.validated with
  | none =>
    rw [body_of_invalid hvalid]
    trivial
  | some payload =>
    rw [body_of_valid hclient hvalid, hguard]
    refine Prog.Only.bind ?_ fun outcome => trivial
    refine ⟨trivial, fun present => ?_⟩
    cases present <;> exact only_askIssuer payload.jti payload.sub

theorem buildAuthDeps_stateful {schemaVersion : String} {settings : ConsumerServiceSettings}
    (hstateful : settings.isStateful = true) (hconsumer : settings.authServiceRole = "consumer")
    (hclosed : settings.accessRevocationMode = "fail_closed")
    (hdeps : buildAuthDeps schemaVersion settings = .ok deps) :
    ∃ client, deps.revocationClient = some client ∧ client.failClosed = true := by
  unfold buildAuthDeps at hdeps
  rw [hstateful, hconsumer, hclosed] at hdeps
  obtain rfl := Except.ok.inj hdeps
  exact ⟨_, rfl, rfl⟩

/-- A stateful fail-closed consumer admits a request through a role guard only on an active
reply of the issuer to the request's own status check, received after the request started at
a generation that is not superseded; and what the positive cache holds makes no difference to
a guard: started in two states with the same watermark map, in caches of one time to live, it ends
alike in all runs in which its own awaits are answered alike and the same revocations arrive. -/
theorem role_guard_fresh (schemaVersion : String) (settings : ConsumerServiceSettings)
    (deps : AuthDeps) (hstateful : settings.isStateful = true)
    (hconsumer : settings.authServiceRole = "consumer")
    (hclosed : settings.accessRevocationMode = "fail_closed")
    (hdeps : buildAuthDeps schemaVersion settings = .ok deps) (sdk : Sdk) (policy : PolicySdk)
    (request : Request) (hguard : request.dependency.isRoleGuard = true) (id : ℕ) :
    (∀ now past w l w' user, Run (deps.scheduler sdk policy).step (deps.start now) past w →
      (deps.scheduler sdk policy).step w l = some w' → Admits w' l id request user →
      ∃ payload status g, request.validated = some payload ∧
        (∃ w₁, (w₁, .spawn id request) ∈ past) ∧
        Receives sdk w l id status (.active payload.sub g) ∧ status.jti = payload.jti ∧
        status.expectedUserId = payload.sub ∧ w.shared.isSuperseded payload.sub g = false) ∧
    ∀ w₁ w₂ v₁ v₂ past₁ past₂ u₁ u₂, w₁.shared.watermarkMap = w₂.shared.watermarkMap →
      w₁.shared.ttl = w₂.shared.ttl →
      (deps.scheduler sdk policy).step w₁ (.spawn id request) = some v₁ →
      (deps.scheduler sdk policy).step w₂ (.spawn id request) = some v₂ →
      Run (deps.scheduler sdk policy).step v₁ past₁ u₁ →
      Run (deps.scheduler sdk policy).step v₂ past₂ u₂ →
      Run.observed (Act.observe id DepsEvent.revoked?) past₁ =
        Run.observed (Act.observe id DepsEvent.revoked?) past₂ →
      u₁.result id = u₂.result id := by
  obtain ⟨client, hclient, hfail⟩ := buildAuthDeps_stateful hstateful hconsumer hclosed hdeps
  constructor
  · intro now past w l w' user run h hadmits
    exact receives_of_admits hclient hfail hguard run h hadmits
  · intro w₁ w₂ v₁ v₂ past₁ past₂ u₁ u₂ hmap httl h₁ h₂ run₁ run₂ hobs
    have hstart := (watermarkView deps sdk policy).of_spawn (only_guard hclient hguard)
      (Prod.ext hmap httl) h₁ h₂
    obtain ⟨hblind₁, hblind₂, hof⟩ := hstart
    have hend := Scheduler.View.agree run₁ run₂ hblind₁ hblind₂ hof hobs
    have htask : u₁.tasks id = u₂.tasks id := (Prod.mk.inj hend).2
    unfold Pool.result
    rw [htask]

/-- The documented role hierarchy, on payloads that carry the user's claims in full. -/
def rankedPolicy : PolicySdk where
  userModel fields :=
    match fields.lookup "id", fields.lookup "role", fields.lookup "is_superuser",
      fields.lookup "is_active" with
    | some (.str id), some (.str "writer"), some (.bool isSuperuser), some (.bool isActive) =>
      some ⟨id, .writer, isSuperuser, isActive⟩
    | some (.str id), some (.str "user"), some (.bool isSuperuser), some (.bool isActive) =>
      some ⟨id, .user, isSuperuser, isActive⟩
    | _, _, _, _ => none
  hasMinimumRole role limit := limit.ctorIdx ≤ role.ctorIdx
  hasSuperuserPrivileges role isSuperuser := role = .superadmin && isSuperuser

def writerToken : TokenPayload where
  jti := "jti-1"
  sub := "user-a"
  fields := [("jti", .str "jti-1"), ("sub", .str "user-a"), ("type", .str "access"),
    ("exp", .int 600), ("role", .str "writer"), ("is_superuser", .bool false),
    ("is_active", .bool true)]

def consumerSettings : ConsumerServiceSettings where
  privateApiSecret := some "secret"
  internalClientId := none
  serviceTokenExchangeEnabled := false
  serviceTokenScopes := none
  serviceTokenRefreshLeewaySeconds := 30
  introspectionUrl := some "https://issuer/private/v1/jti-status"
  isStateful := true
  authServiceRole := "consumer"
  accessRevocationMode := "fail_closed"
  revocationCacheTtlSeconds := 30

def consumerDeps : AuthDeps where
  revocationClient := some ⟨"https://issuer/private/v1/jti-status", "2",
    .static [(internalTokenHeader, .text "secret")], true, 30⟩

def writerRequest : Request := ⟨.requireRole .writer, some writerToken⟩

/-- A general request caches the session that a writer request asks for next. -/
def cachedLabels : List DepsAct :=
  [.spawn 0 ⟨.currentUser, some writerToken⟩, .resume 0 (.headers []),
    .resume 0 (.response ⟨200, .json (activeBody "user-a" 1)⟩)]

def writerAsks : List DepsAct :=
  cachedLabels ++ [Act.spawn 1 writerRequest, .resume 1 (.headers [])]

def activeAnswer : DepsAct := .resume 1 (.response ⟨200, .json (activeBody "user-a" 1)⟩)

def revokedAnswer : List DepsAct :=
  [.resume 1 (.headers []), .resume 1 (.response ⟨200, .json inactiveBody⟩)]

/-- The cache holds an entry for the JTI. -/
def holds (w : DepsPool) (jti : String) : Bool :=
  w.shared.cache.any fun c => (c.store.get? jti).isSome

/-- A task that ended well was started by the only label that starts it. -/
theorem tasks_of_isOk {past : List (DepsPool × DepsAct)} {w : DepsPool} {id : ℕ} {s : ClientState}
    (run : Run (deps.scheduler sdk policy).step (.idle s) past w)
    (hspawn : ∀ request', .spawn id request' ∈ past.map Prod.snd → request' = request)
    (hok : (w.result id).any Except.isOk = true) :
    ∃ user, w.tasks id = some ⟨request, .ret (.ok user)⟩ := by
  obtain ⟨r, hr, hok⟩ := (Option.any_eq_true _ _).mp hok
  unfold Pool.result at hr
  split at hr
  next request' r' ht =>
    obtain rfl := Option.some.inj hr
    obtain ⟨w₁, hmem⟩ := Scheduler.spawned run ht
    obtain rfl := hspawn request' (List.mem_map_of_mem (f := Prod.snd) hmem)
    cases r' with
    | error exc => simp [Except.isOk, Except.toBool] at hok
    | ok user => exact ⟨user, ht⟩
  next => simp at hr

theorem writer_admitted :
    ∃ past w w' user, Run (consumerDeps.scheduler v2Sdk rankedPolicy).step (consumerDeps.start 0)
        past w ∧ (consumerDeps.scheduler v2Sdk rankedPolicy).step w activeAnswer = some w' ∧
      Admits w' activeAnswer 1 writerRequest user := by
  have heval : (writerAsks.foldlM (consumerDeps.scheduler v2Sdk rankedPolicy).step
      (consumerDeps.start 0)).any (fun w => holds w "jti-1" &&
        ((consumerDeps.scheduler v2Sdk rankedPolicy).step w activeAnswer).any fun w' =>
          (w'.result 1).any Except.isOk) = true := by decide +kernel
  obtain ⟨past, w, w', run, hlabels, -, hstep, hok⟩ := Run.exists_step heval
  clear heval
  have hspawn : ∀ request, Act.spawn 1 request ∈ ((w, activeAnswer) :: past).map Prod.snd →
      request = writerRequest := by
    intro request hmem
    rw [List.map_cons, hlabels] at hmem
    simpa [writerAsks, cachedLabels, activeAnswer] using hmem
  obtain ⟨user, ht⟩ := tasks_of_isOk (run.next hstep) hspawn hok
  exact ⟨past, w, w', user, run, hstep, .inr ⟨_, rfl⟩, ht⟩

/-- A writer request starts on this state with no revocation noted, and the issuer denies it. -/
theorem writer_denied (labels : List DepsAct) (held : Bool)
    (heval : (labels.foldlM (consumerDeps.scheduler v2Sdk rankedPolicy).step
      (consumerDeps.start 0)).any (fun w => (holds w "jti-1" == held &&
        decide ((w.shared.watermarkMap, w.shared.ttl) = (some .empty, some 30))) &&
        ((consumerDeps.scheduler v2Sdk rankedPolicy).step w (.spawn 1 writerRequest)).any
          fun v => (revokedAnswer.foldlM (consumerDeps.scheduler v2Sdk rankedPolicy).step
            v).isSome) = true) :
    ∃ w v past u, holds w "jti-1" = held ∧
      (w.shared.watermarkMap, w.shared.ttl) = (some .empty, some 30) ∧
      (consumerDeps.scheduler v2Sdk rankedPolicy).step w (.spawn 1 writerRequest) = some v ∧
      Run (consumerDeps.scheduler v2Sdk rankedPolicy).step v past u ∧
      past.map Prod.snd = revokedAnswer.reverse := by
  obtain ⟨-, w, v, -, -, hw, hstep, hrest⟩ := Run.exists_step heval
  obtain ⟨hheld, hview⟩ := Bool.and_eq_true_iff.mp hw
  obtain ⟨u, hu⟩ := Option.isSome_iff_exists.mp hrest
  obtain ⟨past, run, hlabels⟩ := Run.of_foldlM hu
  exact ⟨w, v, past, u, eq_of_beq hheld, of_decide_eq_true hview, hstep, run, hlabels⟩

theorem role_guard_fresh_writer :
    (∃ (w : DepsPool) (status : StatusRequest) (g : ℤ),
      Receives v2Sdk w activeAnswer 1 status (.active "user-a" g) ∧ status.jti = "jti-1" ∧
        w.shared.isSuperseded "user-a" g = false) ∧
    ∃ w₁ w₂ u₁ u₂ : DepsPool, holds w₁ "jti-1" = true ∧ holds w₂ "jti-1" = false ∧
      u₁.result 1 = u₂.result 1 := by
  have hfresh := role_guard_fresh "2" consumerSettings consumerDeps rfl rfl rfl rfl v2Sdk
    rankedPolicy writerRequest rfl 1
  constructor
  · obtain ⟨past, w, w', user, run, hstep, hadmits⟩ := writer_admitted
    obtain ⟨payload, status, g, hvalid, -, hreceives, hjti, -, hsup⟩ :=
      hfresh.1 0 past w activeAnswer w' user run hstep hadmits
    obtain rfl := Option.some.inj hvalid
    exact ⟨w, status, g, hreceives, hjti, hsup⟩
  · obtain ⟨w₁, v₁, past₁, u₁, hheld₁, hview₁, hstep₁, run₁, hlabels₁⟩ :=
      writer_denied cachedLabels true (by decide +kernel)
    obtain ⟨w₂, v₂, past₂, u₂, hheld₂, hview₂, hstep₂, run₂, hlabels₂⟩ :=
      writer_denied [] false (by decide +kernel)
    have hobs : Run.observed (Act.observe 1 DepsEvent.revoked?) past₁ =
        Run.observed (Act.observe 1 DepsEvent.revoked?) past₂ := by
      rw [Run.observed_eq_filterMap, Run.observed_eq_filterMap, hlabels₁, hlabels₂]
    obtain ⟨hmap, httl⟩ := Prod.mk.inj (hview₁.trans hview₂.symm)
    have hsame := hfresh.2 w₁ w₂ v₁ v₂ past₁ past₂ u₁ u₂ hmap httl hstep₁ hstep₂ run₁ run₂ hobs
    exact ⟨w₁, w₂, u₁, u₂, hheld₁, hheld₂, hsame⟩

end FastapiM8
