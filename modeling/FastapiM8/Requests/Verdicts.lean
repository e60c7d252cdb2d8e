import FastapiM8.Lib.Ending
import FastapiM8.Requests
import FastapiM8.Revocation.Denials

/-! The verdicts of a service: every answer that a request can get, and how the answers of its
dependencies compare. -/
namespace FastapiM8

/-- The answer is not a cancellation, and an entry fits the cache unless the time to live is
beyond the floats. -/
def Uninterrupted (cacheTtl : ℤ) : (o : ClientOp) → ClientAns o → Prop
  | .authHeaders, .error exc => exc.isException = true
  | .authInvalidate, .error exc => exc.isException = true
  | .post _, .error exc => exc.isException = true
  | .cachePut _ _ _, fits => fits = true ∨ floatLimit ≤ cacheTtl
  | _, _ => True

/-- What a check raises when it cannot decide. -/
def CheckFailure : PyExc → Prop
  | .revocationCheckError _ | .revocationDecisionError _ => True
  | _ => False

/-- What a check raises of its own when it is given these answers: that it cannot decide, or that
it cannot store what was decided. -/
def OwnFailure (A : (o : ClientOp) → ClientAns o → Prop) (exc : PyExc) : Prop :=
  CheckFailure exc ∨ exc = .overflowError ∧ ∃ jti userId g, A (.cachePut jti userId g) false

/-- The check that a finished request has made, with its outcome. An invalid token is not checked,
and without a revocation client no token counts as revoked. Otherwise the request has made one call
to the client, in the client's part of the run. -/
inductive OwnCheck (deps : AuthDeps) (sdk : Sdk) (now : ℚ) (past : List (DepsPool × DepsAct))
    (w : DepsPool) (id : ℕ) (request : Request) : Option (Except PyExc Bool) → Prop
  | unasked (h : request.validated = none) : OwnCheck deps sdk now past w id request none
  | stateless (payload : TokenPayload) (h : request.validated = some payload)
      (hclient : deps.revocationClient = none) :
      OwnCheck deps sdk now past w id request (some (.ok false))
  | called (payload : TokenPayload) (h : request.validated = some payload)
      (client : RemoteRevocationClient) (hclient : deps.revocationClient = some client)
      (past' : List (ClientPool × ClientAct)) (v : ClientPool)
      (run : Run (client.scheduler sdk).step (client.start now) past' v)
      (hshared : v.shared = w.shared)
      (hhistory : past'.map (fun e => (e.1.shared, e.2)) =
        past.filterMap fun e => (onClientAct e.2).map fun l => (e.1.shared, l))
      (outcome : Except PyExc Bool)
      (hreturned : v.tasks id = some ⟨request.callSpec payload, .ret outcome⟩) :
      OwnCheck deps sdk now past w id request (some outcome)

/-- The answers of a request by the outcome of its check: one for a token that is not checked, one
for a revoked one, one for each check that fails, and for a token that is not revoked what its
user and its privileges make of it. -/
inductive Verdict (policy : PolicySdk) (request : Request) :
    Option (Except PyExc Bool) → Except PyExc UserModel → Prop
  | invalid (h : request.validated = none) : Verdict policy request none
      (.error (.httpException forbidden "Could not validate credentials."))
  | revoked (payload : TokenPayload) (h : request.validated = some payload) :
      Verdict policy request (some (.ok true))
        (.error (.httpException forbidden "Token has been revoked."))
  | unverifiable (payload : TokenPayload) (h : request.validated = some payload) (exc : PyExc)
      (hfailure : CheckFailure exc) : Verdict policy request (some (.error exc))
        (.error (.httpException unavailable "Token revocation check unavailable."))
  | unstored (payload : TokenPayload) (h : request.validated = some payload) :
      Verdict policy request (some (.error .overflowError)) (.error .overflowError)
  | malformed (payload : TokenPayload) (h : request.validated = some payload)
      (hmodel : policy.buildActiveUser payload = .error (.valueError none)) :
      Verdict policy request (some (.ok false)) (.error (.valueError none))
  | inactive (payload : TokenPayload) (h : request.validated = some payload)
      (huser : policy.buildActiveUser payload =
        .error (.httpException forbidden "Inactive user")) :
      Verdict policy request (some (.ok false))
        (.error (.httpException forbidden "Inactive user"))
  | unprivileged (payload : TokenPayload) (user : UserModel)
      (h : request.validated = some payload) (huser : policy.buildActiveUser payload = .ok user)
      (hdenied : request.dependency.authorize policy user ≠ .ok ()) :
      Verdict policy request (some (.ok false)) (.error (.httpException forbidden noPrivileges))
  | admitted (payload : TokenPayload) (user : UserModel) (h : request.validated = some payload)
      (huser : policy.buildActiveUser payload = .ok user)
      (hauthorize : request.dependency.authorize policy user = .ok ()) :
      Verdict policy request (some (.ok false)) (.ok user)

variable {client : RemoteRevocationClient} {sdk : Sdk} {deps : AuthDeps} {policy : PolicySdk}
  {jti userId : String} {cacheTtl : ℤ}

theorem isException_of_ofReply {exc : PyExc} (h : exc.ofReply = true) : exc.isException = true := by
  cases exc <;> first | rfl | contradiction

theorem post_raises : Py.Raises (Uninterrupted cacheTtl) (fun exc => exc.isException = true)
    (client.post jti userId) := by
  unfold RemoteRevocationClient.post
  refine Py.Raises.bind (Py.raises_await ?_) fun headers => ?_
  · rintro a ha exc rfl
    exact ha
  refine Py.Raises.bind (Py.raises_await ?_) fun response => ?_
  · rintro a ha exc rfl
    exact ha
  refine Py.Raises.bind (Py.raises_lift fun exc h => ?_) fun _ => Py.raises_pure _
  exact isException_of_ofReply (Response.ofReply_of_raiseForStatus h)

theorem postRetrying_raises : Py.Raises (Uninterrupted cacheTtl)
    (fun exc => exc.isException = true) (client.postRetrying jti userId) := by
  unfold RemoteRevocationClient.postRetrying
  refine Py.Raises.attempt_bind post_raises (fun response => Py.raises_pure _) fun exc hexc => ?_
  have hthrow : ∀ exc : PyExc, exc.isException = true →
      Py.Raises (Uninterrupted cacheTtl) (fun exc => exc.isException = true)
        (throw exc : Py ClientOp ClientAns Response) := by
    rintro exc hexc _ ⟨⟩
    exact hexc
  split
  next => contradiction
  next =>
    refine Py.Raises.bind (Py.raises_await ?_) fun retry => ?_
    · rintro a ha exc rfl
      exact ha
    · split
      · exact post_raises
      · exact hthrow _ rfl
  next exc' _ heq =>
    obtain rfl := Except.error.inj heq
    exact hthrow exc hexc

theorem isException_of_parse {response : Response} {exc : PyExc}
    (h : RemoteRevocationClient.parse sdk response = .error exc) : exc.isException = true := by
  cases hbody : response.body.bind sdk.jtiStatus with
  | some result =>
    rw [RemoteRevocationClient.parse_of_some sdk hbody] at h
    contradiction
  | none =>
    rw [RemoteRevocationClient.parse_of_none sdk hbody] at h
    obtain rfl := Except.error.inj h
    split <;> rfl

theorem queryStatus_raises : Py.Raises (Uninterrupted cacheTtl)
    (fun exc => exc.isException = true) (client.queryStatus sdk jti userId) := by
  unfold RemoteRevocationClient.queryStatus
  refine Py.Raises.bind postRetrying_raises fun response => ?_
  refine Py.Raises.bind (Py.raises_lift fun exc h => isException_of_parse h) fun result =>
    Py.raises_lift fun exc h => ?_
  · unfold RemoteRevocationClient.checkSubject at h
    split at h
    · contradiction
    · split at h
      · contradiction
      · obtain rfl := Except.error.inj h
        rfl

/-- What a call raises beyond its own failures, its status query has raised, and
`except Exception` does not catch it. -/
theorem askIssuer_raises {A : (o : ClientOp) → ClientAns o → Prop} {P : PyExc → Prop}
    (hquery : Py.Raises A P (client.queryStatus sdk jti userId)) :
    Py.Raises A (fun exc => OwnFailure A exc ∨ P exc ∧ exc.isException = false)
      (client.askIssuer sdk jti userId) := by
  have hthrow : ∀ exc, OwnFailure A exc ∨ P exc ∧ exc.isException = false →
      Py.Raises A (fun exc => OwnFailure A exc ∨ P exc ∧ exc.isException = false)
        (throw exc : Py ClientOp ClientAns Bool) := by
    rintro exc hexc _ ⟨⟩
    exact hexc
  unfold RemoteRevocationClient.askIssuer
  refine Py.Raises.attempt_bind hquery (fun result => ?_) fun exc hexc => ?_
  · cases result with
    | inactive => exact Py.raises_pure _
    | active owner g =>
      refine Py.Raises.bind (Py.raises_perform _) fun present => ?_
      split
      · refine Py.Raises.bind (Py.raises_perform _) fun superseded => ?_
        split
        · exact Py.raises_pure _
        · -- the entry is stored, or its end is beyond the floats
          intro fits hfits
          cases fits with
          | true => exact Py.raises_pure false
          | false => exact hthrow _ (.inl (.inr ⟨rfl, _, _, _, hfits⟩))
      · exact Py.raises_pure _
  · split
    next => exact hthrow _ (.inl (.inl trivial))
    next heq =>
      obtain rfl := Except.error.inj heq
      split
      next hescapes => exact hthrow _ (.inr ⟨hexc, hescapes⟩)
      next =>
        split
        · exact hthrow _ (.inl (.inl trivial))
        · exact Py.raises_pure _
    next => contradiction
    next => contradiction

theorem isRevoked_raises {A : (o : ClientOp) → ClientAns o → Prop} {P : PyExc → Prop}
    (hquery : Py.Raises A P (client.queryStatus sdk jti userId)) (bypassCache : Bool) :
    Py.Raises A (fun exc => OwnFailure A exc ∨ P exc ∧ exc.isException = false)
      (client.isRevoked sdk jti userId bypassCache) := by
  unfold RemoteRevocationClient.isRevoked
  refine Py.Raises.bind (Py.raises_perform _) fun present => ?_
  split
  · refine Py.Raises.bind (Py.raises_perform _) fun cached => ?_
    split
    · exact Py.raises_pure _
    · exact askIssuer_raises hquery
  · exact askIssuer_raises hquery

/-- Without a cancellation a check answers, or fails of its own. -/
theorem isRevoked_decides (cacheTtl : ℤ) (bypassCache : Bool) :
    (client.isRevoked sdk jti userId bypassCache).run.Ends (Uninterrupted cacheTtl)
      fun outcome => ∀ exc, outcome = .error exc → OwnFailure (Uninterrupted cacheTtl) exc := by
  refine Prog.Ends.mono (isRevoked_raises queryStatus_raises bypassCache) ?_
  intro outcome h exc heq
  refine (h exc heq).resolve_right ?_
  rintro ⟨hexception, hescapes⟩
  rw [hexception] at hescapes
  contradiction

theorem buildActiveUser_cases (policy : PolicySdk) (payload : TokenPayload) :
    (∃ user, policy.buildActiveUser payload = .ok user) ∨
      policy.buildActiveUser payload = .error (.valueError none) ∨
      policy.buildActiveUser payload = .error (.httpException forbidden "Inactive user") := by
  simp only [PolicySdk.buildActiveUser]
  split
  · exact .inr (.inl rfl)
  next user _ =>
    split
    · exact .inl ⟨user, rfl⟩
    · exact .inr (.inr rfl)

theorem authorize_cases (policy : PolicySdk) (dependency : Dependency) (user : UserModel) :
    dependency.authorize policy user = .ok () ∨
      dependency.authorize policy user = .error (.httpException forbidden noPrivileges) := by
  cases dependency with
  | currentUser => exact .inl rfl
  | requireRole role =>
    simp only [Dependency.authorize, PolicySdk.requireRole]
    cases policy.hasMinimumRole user.role role <;> simp
  | activeSuperuser =>
    simp only [Dependency.authorize, PolicySdk.requireSuperuser]
    cases policy.hasSuperuserPrivileges user.role user.isSuperuser <;> simp

theorem verdict_of_finish {request : Request} {payload : TokenPayload}
    (hvalid : request.validated = some payload) {outcome : Except PyExc Bool}
    (h : ∀ exc, outcome = .error exc → CheckFailure exc ∨ exc = .overflowError) :
    Verdict policy request (some outcome) (request.finish policy payload outcome) := by
  cases outcome with
  | error exc =>
    rcases h exc rfl with hfailure | rfl
    · cases exc with
      | revocationCheckError cause => exact .unverifiable payload hvalid _ hfailure
      | revocationDecisionError reason => exact .unverifiable payload hvalid _ hfailure
      | _ => exact hfailure.elim
    · exact .unstored payload hvalid
  | ok revoked =>
    cases revoked with
    | true => exact .revoked payload hvalid
    | false =>
      have hrest : request.finish policy payload (.ok false) = do
          let user ← policy.buildActiveUser payload
          request.dependency.authorize policy user
          return user := rfl
      rw [hrest]
      rcases buildActiveUser_cases policy payload with ⟨user, huser⟩ | hmodel | hinactive
      · rw [huser]
        rcases authorize_cases policy request.dependency user with hauthorize | hdenied
        · have hadmitted : (do
              let user ← (.ok user : Except PyExc UserModel)
              request.dependency.authorize policy user
              return user) = .ok user := by
            simp [bind, Except.bind, hauthorize, pure, Except.pure]
          rw [hadmitted]
          exact .admitted payload user hvalid huser hauthorize
        · have hrefused : (do
              let user ← (.ok user : Except PyExc UserModel)
              request.dependency.authorize policy user
              return user) = .error (.httpException forbidden noPrivileges) := by
            simp [bind, Except.bind, hdenied]
          rw [hrefused]
          exact .unprivileged payload user hvalid huser (by simp [hdenied])
      · rw [hmodel]
        exact .malformed payload hvalid hmodel
      · rw [hinactive]
        exact .inactive payload hvalid hinactive

/-- A service without a revocation client decides on the token alone. -/
theorem body_of_stateless (hclient : deps.revocationClient = none) {request : Request}
    {payload : TokenPayload} (hvalid : request.validated = some payload) :
    (deps.scheduler sdk policy).body request =
      .ret (request.finish policy payload (.ok false)) := by
  obtain ⟨dependency, validated⟩ := request
  obtain rfl : validated = some payload := hvalid
  obtain ⟨revocationClient⟩ := deps
  obtain rfl : revocationClient = none := hclient
  have hrest : ∀ authorize : UserModel → Except PyExc Unit,
      (do
        let user ← (liftM (policy.buildActiveUser payload) : Py ClientOp ClientAns UserModel)
        authorize user
        return user : Py ClientOp ClientAns UserModel).run = .ret (do
          let user ← policy.buildActiveUser payload
          authorize user
          return user) := by
    intro authorize
    cases policy.buildActiveUser payload with
    | error exc => rfl
    | ok user =>
      change (do liftM (authorize user); return user : Py ClientOp ClientAns UserModel).run =
        .ret (do authorize user; return user)
      cases authorize user <;> rfl
  cases dependency with
  | currentUser =>
    have hfinish : Request.finish policy ⟨.currentUser, some payload⟩ payload (.ok false) =
        policy.buildActiveUser payload := by
      simp only [Request.finish, revocationOutcome, Dependency.authorize]
      cases policy.buildActiveUser payload <;> rfl
    rw [hfinish]
    rfl
  | requireRole role => exact hrest fun user => policy.requireRole user role
  | activeSuperuser => exact hrest policy.requireSuperuser

/-- A request of a stateless service has its answer when it is made. -/
theorem body_of_finished (hclient : deps.revocationClient = none) {now : ℚ}
    {past : List (DepsPool × DepsAct)} {w : DepsPool}
    (run : Run (deps.scheduler sdk policy).step (deps.start now) past w) {id : ℕ}
    {request : Request} {answer : Except PyExc UserModel}
    (ht : w.tasks id = some ⟨request, .ret answer⟩) :
    (deps.scheduler sdk policy).body request = .ret answer := by
  have hbody : ∀ request, ((deps.scheduler sdk policy).body request).Ends (fun _ _ => True)
      fun answer => (deps.scheduler sdk policy).body request = .ret answer := by
    intro request
    cases hvalid : request.validated with
    | none =>
      rw [body_of_invalid hvalid]
      rfl
    | some payload =>
      rw [body_of_stateless hclient hvalid]
      rfl
  exact Scheduler.promised_of_run hbody (Scheduler.keeps_everything _) trivial run
    (fun _ _ _ _ _ _ _ _ => trivial) id _ ht

/-- The cache of a client, if there is one, has the client's time to live. -/
def HasTtl (cacheTtl : ℤ) (s : ClientState) : Prop := ∀ ttl ∈ s.ttl, ttl = cacheTtl

theorem hasTtl_init (client : RemoteRevocationClient) (now : ℚ) :
    HasTtl client.cacheTtl (.init client now) := by
  intro ttl httl
  simp only [ClientState.ttl, ClientState.init] at httl
  split at httl
  · exact (Option.some.inj httl).symm
  · contradiction

theorem ttl_clientEvent {e : ClientEvent} {s s' : ClientState} (h : e.apply sdk s = some s') :
    s'.ttl = s.ttl := by
  cases e with
  | sessionRevoked payload =>
    obtain rfl := Option.some.inj h
    exact ttl_mapCache fun c => JtiRevocationCache.applySessionRevoked_ttl _
  | advance seconds =>
    unfold ClientState.ttl
    rw [cache_of_advance h]
  | _ =>
    obtain rfl := Option.some.inj h
    exact ttl_mapCache fun _ => rfl

theorem client_keeps (client : RemoteRevocationClient) (sdk : Sdk) :
    (client.scheduler sdk).Keeps (Uninterrupted client.cacheTtl) (HasTtl client.cacheTtl) where
  exec o s a s' hs h := by
    have hkept : HasTtl client.cacheTtl s' := by
      unfold HasTtl
      rwa [ttl_exec h]
    refine ⟨?_, hkept⟩
    cases o with
    | cachePut jti userId g =>
      obtain ⟨cache, now⟩ := s
      cases cache with
      | none =>
        obtain ⟨rfl, -⟩ := Prod.mk.inj (Option.some.inj h)
        exact .inl rfl
      | some c =>
        obtain ⟨rfl, -⟩ := Prod.mk.inj (Option.some.inj h)
        have httl : c.ttl = client.cacheTtl := hs c.ttl rfl
        rcases lt_or_ge c.ttl floatLimit with hfits | hlimit
        · exact .inl (by rw [c.put_fst, if_pos (.inr hfits)]; rfl)
        · exact .inr (httl ▸ hlimit)
    | cachePresent | cacheGet jti | cacheIsSuperseded userId g => trivial
    | _ => contradiction
  env s e s' hs h := by
    unfold HasTtl
    rwa [ttl_clientEvent h]

/-- The step does not cancel a request. -/
def DepsAct.Uncancelled (l : DepsAct) : Prop :=
  ∀ id exc, l = .resume id (.raises exc) → exc.isException = true

theorem delivers_of_uncancelled {l : DepsAct} (h : DepsAct.Uncancelled l) {l' : ClientAct}
    (hl : onClientAct l = some l') :
    (client.scheduler sdk).Delivers (Uninterrupted cacheTtl) l' := by
  rintro id answer rfl o a ha
  obtain rfl : l = .resume id answer := by
    cases l <;> simp_all [onClientAct]
  change o.decode answer = some a at ha
  cases o <;> cases answer <;>
    simp only [ClientOp.decode, Option.some.injEq, reduceCtorEq] at ha <;> subst ha <;>
      first | trivial | exact h id _ rfl

/-- Stateful or not, in either failure mode and whatever the issuer and the provider answer, a
request that is not cancelled is answered by the outcome of its own check: with an admission, a
403 or a 503, unless the user model refuses the payload of its token, or the time to live of the
cache is beyond the floats. -/
theorem request_verdicts {now : ℚ} {past : List (DepsPool × DepsAct)} {w : DepsPool}
    (run : Run (deps.scheduler sdk policy).step (deps.start now) past w)
    (hpast : ∀ x ∈ past, DepsAct.Uncancelled x.2) {id : ℕ} {request : Request}
    {answer : Except PyExc UserModel} (ht : w.tasks id = some ⟨request, .ret answer⟩) :
    (∃ check, OwnCheck deps sdk now past w id request check ∧
      Verdict policy request check answer) ∧
      ((∃ user, answer = .ok user) ∨
        (∃ detail, answer = .error (.httpException forbidden detail)) ∨
        (∃ detail, answer = .error (.httpException unavailable detail)) ∨
        (∃ payload, request.validated = some payload ∧
          policy.buildActiveUser payload = .error (.valueError none) ∧
          answer = .error (.valueError none)) ∨
        ∃ client, deps.revocationClient = some client ∧ floatLimit ≤ client.cacheTtl ∧
          answer = .error .overflowError) := by
  suffices hchecked : ∃ check, OwnCheck deps sdk now past w id request check ∧
      Verdict policy request check answer ∧ (check = some (.error .overflowError) →
        ∃ client, deps.revocationClient = some client ∧ floatLimit ≤ client.cacheTtl) by
    obtain ⟨check, hown, hverdict, hoverflow⟩ := hchecked
    refine ⟨⟨check, hown, hverdict⟩, ?_⟩
    cases hverdict with
    | unverifiable payload h exc hfailure => exact .inr (.inr (.inl ⟨_, rfl⟩))
    | unstored payload h =>
      obtain ⟨client, hclient, hlimit⟩ := hoverflow rfl
      exact .inr (.inr (.inr (.inr ⟨client, hclient, hlimit, rfl⟩)))
    | malformed payload h hmodel => exact .inr (.inr (.inr (.inl ⟨payload, h, hmodel, rfl⟩)))
    | admitted payload user h huser hauthorize => exact .inl ⟨user, rfl⟩
    | _ => exact .inr (.inl ⟨_, rfl⟩)
  cases hclient : deps.revocationClient with
  | none =>
    have hbody := body_of_finished hclient run ht
    cases hvalid : request.validated with
    | none =>
      rw [body_of_invalid hvalid] at hbody
      obtain rfl := Prog.ret.inj hbody
      exact ⟨none, .unasked hvalid, .invalid hvalid, by simp⟩
    | some payload =>
      rw [body_of_stateless hclient hvalid] at hbody
      obtain rfl := Prog.ret.inj hbody
      exact ⟨_, .stateless payload hvalid hclient,
        verdict_of_finish hvalid (fun exc h => by contradiction), by simp⟩
  | some client =>
    obtain ⟨past', v, run', hshared, hhistory, hverdicts⟩ := requests_refine_calls hclient run
    rcases hverdicts id request answer ht with ⟨hvalid, rfl⟩ | ⟨payload, outcome, hvalid, hv, rfl⟩
    · exact ⟨none, .unasked hvalid, .invalid hvalid, by simp⟩
    · have hdelivered : ∀ x ∈ past',
          (client.scheduler sdk).Delivers (Uninterrupted client.cacheTtl) x.2 := by
        intro x hx
        have hmem := List.mem_map_of_mem (f := fun e => (e.1.shared, e.2)) hx
        rw [hhistory] at hmem
        obtain ⟨y, hy, heq⟩ := List.mem_filterMap.mp hmem
        obtain ⟨l, hl, hpair⟩ := Option.map_eq_some_iff.mp heq
        obtain ⟨-, rfl⟩ := Prod.mk.inj hpair
        exact delivers_of_uncancelled (hpast y hy) hl
      have hends := Scheduler.promised_of_run
        (fun spec => isRevoked_decides client.cacheTtl spec.bypassCache)
        (client_keeps client sdk) (hasTtl_init client now) run' hdelivered id _ hv
      refine ⟨some outcome, .called payload hvalid client hclient past' v run' hshared hhistory
        outcome hv, verdict_of_finish hvalid fun exc h => (hends exc h).imp_right And.left, ?_⟩
      intro h
      rcases hends _ (Option.some.inj h) with hfailure | ⟨-, jti, userId, g, hfits | hlimit⟩
      · exact hfailure.elim
      · contradiction
      · exact ⟨client, rfl, hlimit⟩

/-- A guard cannot reach the issuer, and its service is not available. -/
def unreachable : List DepsAct :=
  [.spawn 0 writerRequest, .resume 0 (.raises (.transportError .connectError))]

/-- The answer is a 503. -/
def saysUnavailable : Except PyExc UserModel → Bool
  | .error (.httpException status _) => status = unavailable
  | _ => false

theorem request_verdicts_unreachable :
    ∃ (past : List (DepsPool × DepsAct)) (w : DepsPool) (request : Request) (exc : PyExc),
      OwnCheck consumerDeps v2Sdk 0 past w 0 request (some (.error exc)) ∧ CheckFailure exc := by
  have heval : ((unreachable.foldlM (consumerDeps.scheduler v2Sdk rankedPolicy).step
      (consumerDeps.start 0)).bind fun w => (w.result 0).map fun r => (w, saysUnavailable r)).any
        Prod.snd = true := by decide +kernel
  obtain ⟨⟨w, b⟩, hw, hb⟩ := (Option.any_eq_true _ _).mp heval
  obtain ⟨w', hrun, hresult⟩ := Option.bind_eq_some_iff.mp hw
  obtain ⟨answer, hanswer, heq⟩ := Option.map_eq_some_iff.mp hresult
  obtain ⟨rfl, rfl⟩ := Prod.mk.inj heq
  obtain ⟨past, run, hlabels⟩ := Run.of_foldlM hrun
  unfold Pool.result at hanswer
  split at hanswer
  next request answer' ht =>
    obtain rfl := Option.some.inj hanswer
    have hpast : ∀ x ∈ past, DepsAct.Uncancelled x.2 := by
      intro x hx
      have hmem : x.2 ∈ unreachable.reverse := hlabels ▸ List.mem_map_of_mem hx
      simp only [unreachable, List.reverse_cons, List.reverse_nil, List.nil_append,
        List.cons_append, List.mem_cons, List.not_mem_nil, or_false] at hmem
      rintro id exc heq
      rcases hmem with h | h
      · rw [h] at heq
        obtain ⟨-, hexc⟩ := Act.resume.inj heq
        obtain rfl := ClientAnswer.raises.inj hexc
        rfl
      · rw [h] at heq
        contradiction
    obtain ⟨⟨check, hown, hverdict⟩, -⟩ := request_verdicts run hpast ht
    cases hverdict with
    | unverifiable payload h exc hfailure => exact ⟨past, w', request, exc, hown, hfailure⟩
    | _ => simp [saysUnavailable, forbidden, unavailable] at hb
  next => contradiction

/-- The documented policy: the roles are ordered, and a superuser needs both claims. -/
structure PolicySdk.Documented (policy : PolicySdk) : Prop where
  minimum : ∀ role limit, policy.hasMinimumRole role limit = true ↔ limit.ctorIdx ≤ role.ctorIdx
  superuser : ∀ role flag,
    policy.hasSuperuserPrivileges role flag = true ↔ role = .superadmin ∧ flag = true

/-- How far up in the documented table a dependency stands. -/
def Dependency.tier : Dependency → ℕ
  | .currentUser => 0
  | .requireRole role => role.ctorIdx + 1
  | .activeSuperuser => 6

/-- What arrives for a request that is suspended, and the state in which it resumes. -/
def ClientOp.deliver (o : ClientOp) (d : ClientAnswer × ClientState) :
    Option (ClientAns o × ClientState) :=
  (o.decode d.1).map fun a => (a, d.2)

theorem authorize_requireRole_iff {user : UserModel} {role : RoleType} :
    (Dependency.requireRole role).authorize policy user = .ok () ↔
      policy.hasMinimumRole user.role role = true := by
  simp only [Dependency.authorize, PolicySdk.requireRole]
  cases policy.hasMinimumRole user.role role <;> simp

theorem authorize_superuser_iff {user : UserModel} :
    Dependency.activeSuperuser.authorize policy user = .ok () ↔
      policy.hasSuperuserPrivileges user.role user.isSuperuser = true := by
  simp only [Dependency.authorize, PolicySdk.requireSuperuser]
  cases policy.hasSuperuserPrivileges user.role user.isSuperuser <;> simp

/-- Whom a dependency authorizes, every lower one does. -/
theorem authorize_of_tier_le (hpolicy : policy.Documented) {d d' : Dependency}
    (htier : d.tier ≤ d'.tier) {user : UserModel} (h : d'.authorize policy user = .ok ()) :
    d.authorize policy user = .ok () := by
  have hrole : ∀ role : RoleType, role.ctorIdx + 1 < 6 := by
    intro role
    cases role <;> decide
  cases d with
  | currentUser => rfl
  | requireRole limit =>
    rw [authorize_requireRole_iff, hpolicy.minimum]
    cases d' with
    | currentUser => simp [Dependency.tier] at htier
    | requireRole limit' =>
      rw [authorize_requireRole_iff, hpolicy.minimum] at h
      simp only [Dependency.tier] at htier
      omega
    | activeSuperuser =>
      rw [authorize_superuser_iff, hpolicy.superuser] at h
      rw [h.1]
      cases limit <;> decide
  | activeSuperuser =>
    cases d' with
    | currentUser => simp [Dependency.tier] at htier
    | requireRole limit' =>
      have := hrole limit'
      simp only [Dependency.tier] at htier
      omega
    | activeSuperuser => exact h

theorem finish_of_tier_le (hpolicy : policy.Documented) {request : Request} {d : Dependency}
    (htier : d.tier ≤ request.dependency.tier) {payload : TokenPayload} {user : UserModel}
    (h : request.finish policy payload (.ok false) = .ok user) :
    Request.finish policy { request with dependency := d } payload (.ok false) = .ok user := by
  obtain ⟨-, huser, hauthorize⟩ := finish_eq_ok h
  simp [Request.finish, revocationOutcome, huser, bind, Except.bind, pure, Except.pure,
    authorize_of_tier_le hpolicy htier hauthorize]

/-- Asking the issuer does not depend on the state in which it starts. -/
theorem play_askIssuer_congr (s₁ s₂ : ClientState) (script : List (ClientAnswer × ClientState)) :
    (client.askIssuer sdk jti userId).run.play ClientOp.exec ClientOp.deliver s₁ script =
      (client.askIssuer sdk jti userId).run.play ClientOp.exec ClientOp.deliver s₂ script := by
  rw [RemoteRevocationClient.run_askIssuer]
  rfl

/-- A check that goes past the cache and finds nothing revoked does so through the cache. -/
theorem play_of_bypass {s s' : ClientState} {script rest : List (ClientAnswer × ClientState)}
    (h : (client.isRevoked sdk jti userId true).run.play ClientOp.exec ClientOp.deliver s script =
      some (.ok false, s', rest)) :
    ∃ s'' rest', (client.isRevoked sdk jti userId false).run.play ClientOp.exec ClientOp.deliver s
      script = some (.ok false, s'', rest') := by
  have hstart : ∀ spec : CallSpec, (client.isRevoked sdk spec.jti spec.userId
      spec.bypassCache).run.play ClientOp.exec ClientOp.deliver s script =
        (client.startCall sdk spec s).1.play ClientOp.exec ClientOp.deliver
          (client.startCall sdk spec s).2 script := by
    intro spec
    rw [Prog.play_eq_play_settle, RemoteRevocationClient.settle_isRevoked]
  have hmiss : (s.lookup ⟨jti, userId, true⟩).1 = none := by
    unfold ClientState.lookup
    cases s.cache <;> rfl
  have hbypass := hstart ⟨jti, userId, true⟩
  rw [RemoteRevocationClient.startCall_miss hmiss, h] at hbypass
  rw [hstart ⟨jti, userId, false⟩]
  cases hlookup : (s.lookup ⟨jti, userId, false⟩).1 with
  | none =>
    rw [RemoteRevocationClient.startCall_miss hlookup]
    exact ⟨s', rest, (play_askIssuer_congr _ _ script).trans hbypass.symm⟩
  | some hit =>
    obtain ⟨rfl, -⟩ := lookup_eq_hit hlookup
    rw [RemoteRevocationClient.startCall_hit hlookup]
    exact ⟨_, script, rfl⟩

/-- Whatever arrives and in whatever states: a request that a dependency admits is admitted, with
the same user, by every dependency below it in the documented table. -/
theorem admission_descends (hpolicy : policy.Documented) {request : Request} {d : Dependency}
    (htier : d.tier ≤ request.dependency.tier) {s s' : ClientState}
    {script rest : List (ClientAnswer × ClientState)} {user : UserModel}
    (h : ((deps.scheduler sdk policy).body request).play ClientOp.exec ClientOp.deliver s script =
      some (.ok user, s', rest)) :
    ∃ s'' rest', ((deps.scheduler sdk policy).body { request with dependency := d }).play
      ClientOp.exec ClientOp.deliver s script = some (.ok user, s'', rest') := by
  cases hvalid : request.validated with
  | none =>
    rw [body_of_invalid hvalid] at h
    cases h
  | some payload =>
    have hvalid' : Request.validated ⟨d, some payload⟩ = some payload := rfl
    have hlower : request.finish policy payload (.ok false) = .ok user →
        Request.finish policy ⟨d, some payload⟩ payload (.ok false) = .ok user := by
      intro hadmitted
      rw [← hvalid]
      exact finish_of_tier_le hpolicy htier hadmitted
    cases hclient : deps.revocationClient with
    | none =>
      -- without a client both decide on the token alone
      rw [body_of_stateless hclient hvalid] at h
      simp only [Prog.play_ret, Option.some.injEq, Prod.mk.injEq] at h
      obtain ⟨hadmitted, rfl, rfl⟩ := h
      exact ⟨s, script, by rw [body_of_stateless hclient hvalid', Prog.play_ret, hlower hadmitted]⟩
    | some client =>
      rw [body_of_valid hclient hvalid, Prog.play_bind] at h
      obtain ⟨⟨outcome, s₁, rest₁⟩, hplay, hfinish⟩ := Option.bind_eq_some_iff.mp h
      simp only [Prog.play_ret, Option.some.injEq, Prod.mk.injEq] at hfinish
      obtain ⟨hadmitted, rfl, rfl⟩ := hfinish
      obtain rfl := outcome_of_finish hadmitted
      have hfinish' := hlower hadmitted
      rw [body_of_valid hclient hvalid', Prog.play_bind]
      suffices hcheck : ∃ s'' rest', (client.isRevoked sdk payload.jti payload.sub
          d.isRoleGuard).run.play ClientOp.exec ClientOp.deliver s script =
            some (.ok false, s'', rest') by
        obtain ⟨s'', rest', hcheck⟩ := hcheck
        exact ⟨s'', rest', by rw [hcheck, Option.bind_some, Prog.play_ret, hfinish']⟩
      cases hguard : request.dependency.isRoleGuard with
      | true =>
        rw [hguard] at hplay
        cases d with
        | currentUser => exact play_of_bypass hplay
        | _ => exact ⟨_, _, hplay⟩
      | false =>
        rw [hguard] at hplay
        cases hdependency : request.dependency with
        | currentUser =>
          rw [hdependency] at htier
          cases d with
          | currentUser => exact ⟨_, _, hplay⟩
          | _ => simp [Dependency.tier] at htier
        | _ => simp [Dependency.isRoleGuard, hdependency] at hguard

theorem documented_rankedPolicy : rankedPolicy.Documented where
  minimum role limit := by simp [rankedPolicy]
  superuser role flag := by simp [rankedPolicy]

/-- What the writer guard is answered, the general tier may have in its cache. -/
theorem admission_descends_general : ∃ (s : ClientState) (script : _) (user : UserModel) (r : _),
    ((consumerDeps.scheduler v2Sdk rankedPolicy).body generalRequest).play ClientOp.exec
      ClientOp.deliver s script = some (.ok user, r) := by
  let s : ClientState := ⟨none, 0⟩
  have hwriter : ((consumerDeps.scheduler v2Sdk rankedPolicy).body writerRequest).play
      ClientOp.exec ClientOp.deliver s
        [(.headers [], s), (.response ⟨200, .json (activeBody "user-a" 1)⟩, s)] =
      some (.ok ⟨"user-a", .writer, false, true⟩, s, []) := rfl
  obtain ⟨s', rest, h⟩ := admission_descends (d := .currentUser) documented_rankedPolicy
    (Nat.zero_le _) hwriter
  exact ⟨s, _, _, _, h⟩

def revokedToken : Except PyExc UserModel :=
  .error (.httpException forbidden "Token has been revoked.")

theorem raises_anything {α : Type} (p : Py ClientOp ClientAns α) :
    Py.Raises (fun _ _ => True) (fun _ => True) p := by
  change p.run.Ends _ _
  generalize p.run = q
  induction q with
  | ret a => exact fun _ _ => trivial
  | call o k ih => exact fun a _ => ih a

/-- Only a call that finds the token revoked makes a request say so. -/
theorem outcome_of_revokedToken {request : Request} {payload : TokenPayload}
    {outcome : Except PyExc Bool}
    (h : ∀ exc, outcome = .error exc →
      (CheckFailure exc ∨ exc = .overflowError) ∨ exc.isException = false)
    (hfinish : request.finish policy payload outcome = revokedToken) : outcome = .ok true := by
  cases outcome with
  | error exc =>
    rcases h exc rfl with (hfailure | rfl) | hescapes
    · cases exc <;> first | exact hfailure.elim | cases hfinish
    · cases hfinish
    · cases exc with
      | cancelledError => cases hfinish
      | _ => cases hescapes
  | ok revoked =>
    cases revoked with
    | true => rfl
    | false =>
      exfalso
      rcases bind_eq_error hfinish with hcheck | ⟨_, -, hrest⟩
      · cases hcheck
      · rcases bind_eq_error hrest with hbuild | ⟨user, -, hlast⟩
        · rcases buildActiveUser_cases policy payload with ⟨user, huser⟩ | hmodel | hinactive
          · rw [huser] at hbuild
            cases hbuild
          · rw [hmodel] at hbuild
            cases hbuild
          · rw [hinactive] at hbuild
            simp at hbuild
        · rcases bind_eq_error hlast with hauthorize | ⟨_, -, hret⟩
          · rcases authorize_cases policy request.dependency user with hok | hdenied
            · rw [hok] at hauthorize
              cases hauthorize
            · rw [hdenied] at hauthorize
              simp [noPrivileges] at hauthorize
          · cases hret

theorem body_ne_revokedToken (hclient : deps.revocationClient = none) (request : Request) :
    (deps.scheduler sdk policy).body request ≠ .ret revokedToken := by
  intro h
  cases hvalid : request.validated with
  | none =>
    rw [body_of_invalid hvalid] at h
    simp [revokedToken] at h
  | some payload =>
    rw [body_of_stateless hclient hvalid] at h
    have hrevoked := outcome_of_revokedToken (fun exc h => by contradiction) (Prog.ret.inj h)
    contradiction

/-- The step handles an event of the stream that revokes sessions of the user at this
generation. -/
def HandlesRevocation (sdk : Sdk) (l : DepsAct) (user : String) (g : ℤ) : Prop :=
  ∃ event revoked, l = .env (.authEvent event) ∧ dotted event.eventType = sessionRevokedType ∧
    sdk.sessionRevoked event.payload = some revoked ∧ revoked.userId = user ∧
    revoked.authGeneration = some g

theorem handles_of_revokes {l : DepsAct} {l' : ClientAct} {user : String} {g : ℤ}
    (hl : onClientAct l = some l') (h : Revokes sdk l' user g) :
    HandlesRevocation sdk l user g := by
  obtain ⟨payload, revoked, rfl, hrevoked, huser, hg⟩ := h
  cases l with
  | env e =>
    obtain ⟨e', he, heq⟩ := Option.map_eq_some_iff.mp hl
    obtain rfl := Act.env.inj heq
    cases e with
    | authEvent event =>
      simp only [DepsEvent.onCache, AuthStreamEvent.onCache] at he
      split at he
      next htype =>
        obtain rfl := ClientEvent.sessionRevoked.inj (Option.some.inj he)
        exact ⟨event, revoked, rfl, htype, hrevoked, huser, hg⟩
      next =>
        split at he
        · split at he <;> simp at he
        · contradiction
    | _ => simp [DepsEvent.onCache] at he
  | spawn id request => simp [onClientAct] at hl
  | _ => simp [onClientAct] at hl

/-- A request is told that its token was revoked only in the step in which the issuer answers its
own status request, and only when that answer is inactive, or is active at a generation below
one whose revocation the service has handled before (or below all generations). A service without
a revocation client never says so. -/
theorem revoked_answer_cause {now : ℚ} {past : List (DepsPool × DepsAct)} {w w' : DepsPool}
    {l : DepsAct}
    (run : Run (deps.scheduler sdk policy).step (deps.start now) past w)
    (h : (deps.scheduler sdk policy).step w l = some w') {id : ℕ} {request : Request}
    (hended : RequestEnds w' l id request revokedToken) :
    ∃ payload status reply, request.validated = some payload ∧
      Receives sdk w l id status reply ∧ status.jti = payload.jti ∧
      status.expectedUserId = payload.sub ∧ (reply = .inactive ∨
        ∃ g, reply = .active payload.sub g ∧
          ((∃ x ∈ past, ∃ g', g < g' ∧ HandlesRevocation sdk x.2 payload.sub g') ∨ g < 0)) := by
  cases hclient : deps.revocationClient with
  | none =>
    have hbody := body_of_finished hclient (run.next h) hended.2
    exact absurd hbody (body_ne_revokedToken hclient request)
  | some client =>
    rw [start_of_some hclient] at run
    obtain ⟨past', v, run', hw, hpast⟩ := (AuthDeps.wraps sdk policy hclient).run run
    obtain ⟨payload, l', v', outcome, hvalid, hanswer, hl, h', hreturns⟩ :=
      returns_of_requestEnds hw h hended (by simp [revokedToken])
    have hraised : ∀ exc, outcome = .error exc →
        (CheckFailure exc ∨ exc = .overflowError) ∨ exc.isException = false := by
      have hbody : ∀ spec : CallSpec, ((client.scheduler sdk).body spec).Ends (fun _ _ => True)
          fun outcome => ∀ exc, outcome = .error exc →
            OwnFailure (fun _ _ => True) exc ∨ True ∧ exc.isException = false :=
        fun spec => isRevoked_raises (raises_anything _) spec.bypassCache
      have hends := Scheduler.promised_of_run hbody (Scheduler.keeps_everything _) trivial
        (run'.next h') (fun _ _ _ _ _ _ _ _ => trivial) id _ hreturns.2
      intro exc heq
      exact (hends exc heq).imp (Or.imp_right And.left) And.right
    obtain rfl := outcome_of_revokedToken hraised hanswer.symm
    obtain ⟨status, reply, hreceives, hjti, huser, hdenied⟩ := denied_cause run' h' hreturns
    refine ⟨payload, status, reply, hvalid, receives_of_holds hw hl hreceives, hjti, huser, ?_⟩
    rcases hdenied with hinactive | ⟨g, hactive, ⟨⟨v₁, l₁⟩, hmem, g', hlt, hrevokes⟩ | hnegative⟩
    · exact .inl hinactive
    · obtain ⟨w₁, l₂, hmem', hl₂, -⟩ := hpast.origin hmem
      rw [act_wraps] at hl₂
      exact .inr ⟨g, hactive, .inl ⟨(w₁, l₂), hmem', g', hlt, handles_of_revokes hl₂ hrevokes⟩⟩
    · exact .inr ⟨g, hactive, .inr hnegative⟩

/-- A generation is revoked, and then a guard is answered at an earlier one. -/
def supersededAsks : List DepsAct :=
  [.env (.authEvent ⟨"session-revoked", [("user_id", .str "user-a"), ("auth_generation", .int 5),
      ("event_id", .str "event-1")]⟩), .spawn 1 writerRequest, .resume 1 (.headers [])]

/-- The answer is that the token was revoked. -/
def saysRevoked : Except PyExc UserModel → Bool
  | .error exc => exc = .httpException forbidden "Token has been revoked."
  | .ok _ => false

theorem revoked_answer_cause_superseded :
    ∃ x : DepsPool × DepsAct, ∃ g, 1 < g ∧ HandlesRevocation v2Sdk x.2 "user-a" g := by
  have heval : (supersededAsks.foldlM (consumerDeps.scheduler v2Sdk rankedPolicy).step
      (consumerDeps.start 0)).any (fun w => true &&
        ((consumerDeps.scheduler v2Sdk rankedPolicy).step w activeAnswer).any fun w' =>
          (w'.result 1).any saysRevoked) = true := by decide +kernel
  obtain ⟨past, w, w', run, hlabels, -, hstep, hsays⟩ := Run.exists_step heval
  clear heval
  obtain ⟨answer, hanswer, hsays⟩ := (Option.any_eq_true _ _).mp hsays
  obtain rfl : answer = revokedToken := by
    cases answer with
    | error exc => exact congrArg Except.error (of_decide_eq_true hsays)
    | ok user => contradiction
  unfold Pool.result at hanswer
  split at hanswer
  next request answer ht =>
    obtain rfl := Option.some.inj hanswer
    obtain ⟨w₁, hmem⟩ := Scheduler.spawned (run.next hstep) ht
    have hlabel := List.mem_map_of_mem (f := Prod.snd) hmem
    rw [List.map_cons, hlabels] at hlabel
    obtain rfl : request = writerRequest := by
      simpa [supersededAsks, activeAnswer] using hlabel
    obtain ⟨payload, status, reply, hvalid, ⟨_, _, _, _, hl, _, hparse⟩, -, -, hcause⟩ :=
      revoked_answer_cause run hstep ⟨.inr ⟨_, rfl⟩, ht⟩
    obtain rfl := Option.some.inj hvalid
    obtain ⟨-, hresponse⟩ := Act.resume.inj hl
    obtain rfl := ClientAnswer.response.inj hresponse
    obtain rfl : JtiStatusResponse.active "user-a" 1 = reply := Option.some.inj hparse
    rcases hcause with hinactive | ⟨g, hactive, ⟨x, -, g', hlt, hhandles⟩ | hnegative⟩
    · contradiction
    · obtain ⟨-, rfl⟩ := JtiStatusResponse.active.inj hactive
      exact ⟨x, g', hlt, hhandles⟩
    · obtain ⟨-, rfl⟩ := JtiStatusResponse.active.inj hactive
      contradiction
  next => contradiction

end FastapiM8
