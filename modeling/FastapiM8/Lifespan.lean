import FastapiM8.ApiKey.Client
import FastapiM8.Lib.Monitor

/-! The managed lifespan of an app: the startup validators, the service inside the extra context,
and the teardown of the resources that the app was given. -/
namespace FastapiM8

/-- What a lifespan releases at its end. -/
inductive Resource where
  | revocationHttp
  | revocationAuth
  | apiKeyHttp
  | apiKeyAuth
  | database
  deriving DecidableEq

/-- The auth dependencies with both clients that they own. -/
structure OwnedClients extends AuthDeps where
  apiKeyClient : Option ApiKeyIntrospectionClient

/-- The lifecycle configuration: the startup validators by name, and whether there are a
database engine and an extra context. -/
structure AppLifecycle where
  authDeps : Option OwnedClients
  dbEngine : Bool
  startupValidators : List String
  lifespanExtras : Bool

/-- What a lifespan does. `exitExtras` carries the exception with which the context is left, and
is answered whether that is suppressed; `serve` is the `yield`. -/
inductive LifespanOp where
  | validate (name : String)
  | enterExtras
  | exitExtras (exc : Option PyExc)
  | markReady
  | serve
  | close (r : Resource)
  deriving DecidableEq

abbrev LifespanAns : LifespanOp → Type
  | .validate _ | .enterExtras | .serve | .close _ => Except PyExc Unit
  | .exitExtras _ => Except PyExc Bool
  | .markReady => Unit

abbrev Lifespan := Py LifespanOp LifespanAns Unit

abbrev LifespanEvent := Prog.Event LifespanOp LifespanAns

/-- Close the HTTP session of a client, and then its auth provider. -/
def closeClient (http auth : Resource) : Lifespan := do
  Py.await (LifespanOp.close http) id
  Py.await (LifespanOp.close auth) id

def RemoteRevocationClient.close (_client : RemoteRevocationClient) : Lifespan :=
  closeClient .revocationHttp .revocationAuth

def ApiKeyIntrospectionClient.close (_client : ApiKeyIntrospectionClient) : Lifespan :=
  closeClient .apiKeyHttp .apiKeyAuth

/-- Close the revocation and API-key clients. -/
def OwnedClients.close (deps : OwnedClients) : Lifespan := do
  match deps.revocationClient with
  | some client => client.close
  | none => pure ()
  match deps.apiKeyClient with
  | some client => client.close
  | none => pure ()

/-- `async with lifespan_extras(app)`: what the context is told when it is left, and whether it
suppresses the exception of the body. -/
def withExtras (body : Lifespan) : Lifespan := do
  Py.await LifespanOp.enterExtras id
  let outcome : Except PyExc Unit ← Py.attempt body
  match outcome with
  | .ok () =>
    let _ignored : Bool ← Py.await (LifespanOp.exitExtras none) id
    return ()
  | .error exc =>
    let suppressed : Bool ← Py.await (LifespanOp.exitExtras (some exc)) id
    if suppressed then return () else throw exc

/-- Mark the service as ready and hand over to it. -/
def serveReady : Lifespan := do
  Py.perform LifespanOp.markReady
  Py.await LifespanOp.serve id

namespace AppLifecycle

variable (lc : AppLifecycle)

def runStartup : List String → Lifespan
  | [] => pure ()
  | name :: names => do
    Py.await (LifespanOp.validate name) id
    runStartup names

def teardown : Lifespan := do
  match lc.authDeps with
  | some deps => deps.close
  | none => pure ()
  if lc.dbEngine then Py.await (LifespanOp.close .database) id

/-- The lifespan up to its teardown. -/
def service : Lifespan := do
  runStartup lc.startupValidators
  if lc.lifespanExtras then withExtras serveReady else serveReady

def lifespan : Lifespan := do
  lc.service
  lc.teardown

/-- The resources that are configured, in the order in which the teardown comes to them. -/
def resources : List Resource :=
  (match lc.authDeps with
    | some deps =>
      (if deps.revocationClient.isSome then [.revocationHttp, .revocationAuth] else []) ++
        if deps.apiKeyClient.isSome then [.apiKeyHttp, .apiKeyAuth] else []
    | none => []) ++
  if lc.dbEngine then [.database] else []

/-- How often the trace closes a resource. -/
def closes (r : Resource) (tr : List LifespanEvent) : ℕ :=
  tr.countP fun e => e.1 = .close r

/-- With this event the lifespan goes on to its teardown: the service ends normally, the extra
context is left normally, or it suppresses the exception of the service. -/
def Proceeds : LifespanEvent → Prop
  | ⟨.serve, .ok ()⟩ => lc.lifespanExtras = false
  | ⟨.exitExtras none, .ok _⟩ => True
  | ⟨.exitExtras (some _), .ok true⟩ => True
  | _ => False

/-- The event is a failure to close a resource before the last one. -/
def Obstructs (e : LifespanEvent) : Prop :=
  ∃ r exc, e = ⟨.close r, .error exc⟩ ∧ lc.resources.getLast? ≠ some r

/-- Close resources one after the other. -/
def closeAll : List Resource → Lifespan
  | [] => pure ()
  | r :: rs => do
    Py.await (LifespanOp.close r) id
    closeAll rs

theorem closeAll_append (rs rs' : List Resource) :
    closeAll (rs ++ rs') = closeAll rs >>= fun _ => closeAll rs' := by
  induction rs with
  | nil => rfl
  | cons r rs ih => simp [closeAll, ih]

theorem close_eq (deps : OwnedClients) : deps.close = closeAll
    ((if deps.revocationClient.isSome then [.revocationHttp, .revocationAuth] else []) ++
      if deps.apiKeyClient.isSome then [.apiKeyHttp, .apiKeyAuth] else []) := by
  rw [OwnedClients.close, closeAll_append]
  cases deps.revocationClient <;> cases deps.apiKeyClient <;>
    simp [RemoteRevocationClient.close, ApiKeyIntrospectionClient.close, closeClient, closeAll]

/-- The teardown closes the configured resources in their order. -/
theorem teardown_eq : lc.teardown = closeAll lc.resources := by
  rw [teardown, resources, closeAll_append]
  have hengine : (if lc.dbEngine then Py.await (LifespanOp.close .database) id else pure () :
      Lifespan) = closeAll (if lc.dbEngine then [.database] else []) := by
    cases lc.dbEngine <;> simp [closeAll]
  cases lc.authDeps with
  | none => simpa [closeAll] using hengine
  | some deps => simp only [close_eq, hengine]

/-- The event of a close that succeeds. -/
def closed (r : Resource) : LifespanEvent := ⟨.close r, .ok ()⟩

/-- Closing goes through to the end, or up to the first failure. -/
theorem closeAll_trace {rs : List Resource} {tr : List LifespanEvent} {outcome : Except PyExc Unit}
    (h : (closeAll rs).run.Trace tr (.ret outcome)) :
    tr = rs.map closed ∨ ∃ before r after exc, rs = before ++ r :: after ∧
      tr = before.map closed ++ [⟨.close r, .error exc⟩] := by
  induction rs generalizing tr with
  | nil =>
    obtain ⟨rfl, -⟩ := Prog.trace_ret_iff.mp h
    exact .inl rfl
  | cons r rs ih =>
    obtain ⟨answer, rest, rfl, hrest⟩ := Py.trace_await_bind_iff.mp h
    cases answer with
    | ok _ =>
      rcases ih hrest with rfl | ⟨before, r', after, exc, rfl, rfl⟩
      · exact .inl rfl
      · exact .inr ⟨r :: before, r', after, exc, rfl, rfl⟩
    | error exc =>
      obtain ⟨rfl, -⟩ := hrest
      exact .inr ⟨[], r, rs, exc, rfl, rfl⟩

theorem teardown_trace {lc : AppLifecycle} {tr : List LifespanEvent} {outcome : Except PyExc Unit}
    (h : lc.teardown.run.Trace tr (.ret outcome)) : ∀ e ∈ tr, ∃ r, e.1 = .close r := by
  rw [teardown_eq] at h
  rcases closeAll_trace h with rfl | ⟨before, r', after, exc, -, rfl⟩
  · simp [closed]
  · simp [or_imp, forall_and, closed]

variable {lc} {tr : List LifespanEvent} {outcome : Except PyExc Unit} {r : Resource}

theorem runStartup_trace {names : List String}
    (h : (runStartup names).run.Trace tr (.ret outcome)) :
    ∀ e ∈ tr, ∃ name, e.1 = .validate name := by
  induction names generalizing tr with
  | nil =>
    obtain ⟨rfl, -⟩ := Prog.trace_ret_iff.mp h
    simp
  | cons name names ih =>
    obtain ⟨answer, rest, rfl, hrest⟩ := Py.trace_await_bind_iff.mp h
    cases answer with
    | ok _ => exact List.forall_mem_cons.mpr ⟨⟨name, rfl⟩, ih hrest⟩
    | error exc =>
      obtain ⟨rfl, -⟩ := hrest
      simp

theorem serveReady_trace (h : serveReady.run.Trace tr (.ret outcome)) :
    tr = [⟨.markReady, ()⟩, ⟨.serve, outcome⟩] := by
  obtain ⟨_, rest, rfl, hrest⟩ := Prog.trace_call_iff.mp h
  obtain ⟨served, rest', rfl, hend⟩ := Prog.trace_call_iff.mp hrest
  obtain ⟨rfl, rfl⟩ := Prog.trace_ret_iff.mp hend
  rfl

/-- What a trace of the service says: nothing is closed in it, and once the service was marked
ready it ends without an exception exactly when the trace proceeds. -/
structure ServiceTrace (lc : AppLifecycle) (tr : List LifespanEvent) (outcome : Except PyExc Unit) :
    Prop where
  closesNone : ∀ e ∈ tr, ∀ r, e.1 ≠ .close r
  proceeds : (∃ a, ⟨.markReady, a⟩ ∈ tr) → (outcome = .ok () ↔ ∃ e ∈ tr, lc.Proceeds e)

theorem serviceTrace_plain (hplain : lc.lifespanExtras = false)
    (h : serveReady.run.Trace tr (.ret outcome)) : ServiceTrace lc tr outcome := by
  obtain rfl := serveReady_trace h
  constructor
  · simp
  · intro _
    cases outcome <;> simp [Proceeds, hplain]

theorem serviceTrace_extras (hextras : lc.lifespanExtras = true)
    (h : (withExtras serveReady).run.Trace tr (.ret outcome)) : ServiceTrace lc tr outcome := by
  obtain ⟨entered, rest, rfl, hrest⟩ := Py.trace_await_bind_iff.mp h
  cases entered with
  | error exc =>
    obtain ⟨rfl, -⟩ := hrest
    constructor <;> simp
  | ok _ =>
    dsimp only [id] at hrest
    rw [Py.run_attempt_bind, Prog.trace_bind_iff] at hrest
    obtain ⟨served, tr₁, tr₂, rfl, hserved, hleft⟩ := hrest
    obtain rfl := serveReady_trace hserved
    cases served with
    | ok _ =>
      obtain ⟨answer, rest, rfl, hend⟩ := Py.trace_await_bind_iff.mp hleft
      cases answer with
      | ok ignored =>
        obtain ⟨rfl, rfl⟩ := Prog.trace_ret_iff.mp hend
        constructor <;> simp [Proceeds]
      | error exc =>
        obtain ⟨rfl, rfl⟩ := hend
        constructor <;> simp [Proceeds, hextras]
    | error exc =>
      obtain ⟨answer, rest, rfl, hend⟩ := Py.trace_await_bind_iff.mp hleft
      cases answer with
      | ok suppressed =>
        cases suppressed with
        | true =>
          obtain ⟨rfl, rfl⟩ := Prog.trace_ret_iff.mp hend
          constructor <;> simp [Proceeds]
        | false =>
          obtain ⟨rfl, rfl⟩ := Prog.trace_ret_iff.mp hend
          constructor <;> simp [Proceeds]
      | error exc' =>
        obtain ⟨rfl, rfl⟩ := hend
        constructor <;> simp [Proceeds]

theorem service_trace (h : lc.service.run.Trace tr (.ret outcome)) :
    ServiceTrace lc tr outcome := by
  obtain ⟨first, tr₁, tr₂, rfl, hstartup, hrest⟩ := Py.trace_bind_iff.mp h
  have hvalidates := runStartup_trace hstartup
  have hnotClose : ∀ e ∈ tr₁, ∀ r, e.1 ≠ .close r := by
    intro e he r heq
    obtain ⟨name, hname⟩ := hvalidates e he
    simp [heq] at hname
  have hnotReady : ∀ a, ⟨.markReady, a⟩ ∉ tr₁ := by
    intro a ha
    obtain ⟨name, hname⟩ := hvalidates _ ha
    contradiction
  have hnotProceeds : ∀ e ∈ tr₁, ¬ lc.Proceeds e := by
    rintro ⟨o, a⟩ he hproceeds
    obtain ⟨name, rfl⟩ := hvalidates _ he
    exact hproceeds
  cases first with
  | error exc =>
    obtain ⟨rfl, -⟩ := hrest
    constructor
    · simpa using hnotClose
    · rintro ⟨a, ha⟩
      exact absurd (by simpa using ha) (hnotReady a)
  | ok _ =>
    have hbody : ServiceTrace lc tr₂ outcome := by
      cases hextras : lc.lifespanExtras with
      | false =>
        simp only [hextras] at hrest
        exact serviceTrace_plain hextras hrest
      | true =>
        simp only [hextras] at hrest
        exact serviceTrace_extras hextras hrest
    constructor
    · intro e he
      rcases List.mem_append.mp he with he | he
      · exact hnotClose e he
      · exact hbody.closesNone e he
    · rintro ⟨a, ha⟩
      have hready : ⟨.markReady, a⟩ ∈ tr₂ := (List.mem_append.mp ha).resolve_left (hnotReady a)
      rw [hbody.proceeds ⟨a, hready⟩]
      constructor
      · rintro ⟨e, he, hproceeds⟩
        exact ⟨e, List.mem_append_right _ he, hproceeds⟩
      · rintro ⟨e, he, hproceeds⟩
        exact ⟨e, (List.mem_append.mp he).resolve_left (hnotProceeds e · hproceeds), hproceeds⟩

theorem resources_nodup (lc : AppLifecycle) : lc.resources.Nodup := by
  unfold resources
  cases lc.authDeps with
  | none => cases lc.dbEngine <;> simp
  | some deps =>
    dsimp only
    cases deps.revocationClient <;> cases deps.apiKeyClient <;> cases lc.dbEngine <;> simp

theorem closes_append (tr tr' : List LifespanEvent) :
    closes r (tr ++ tr') = closes r tr + closes r tr' := List.countP_append

theorem closes_eq_zero (h : ∀ e ∈ tr, ∀ r, e.1 ≠ .close r) : closes r tr = 0 := by
  rw [closes, List.countP_eq_zero]
  intro e he
  simpa using h e he r

theorem closes_map_closed (rs : List Resource) : closes r (rs.map closed) = rs.count r := by
  rw [closes, List.countP_map, List.count]
  refine List.countP_congr fun r' _ => ?_
  simp [closed]

theorem closes_failed {exc : PyExc} (before : List Resource) (r' : Resource) :
    closes r (before.map closed ++ [⟨.close r', .error exc⟩]) = (before ++ [r']).count r := by
  rw [closes_append, closes_map_closed, List.count_append]
  simp [closes, List.countP_singleton, List.count_singleton]

/-- A failure leaves resources open exactly when it is not the last one that fails to close. -/
theorem closed_up_to_iff {before after : List Resource} {r' : Resource}
    (hnodup : (before ++ r' :: after).Nodup) :
    (∀ r ∈ before ++ r' :: after, (before ++ [r']).count r = 1) ↔
      (before ++ r' :: after).getLast? = some r' := by
  have hsplit : before ++ r' :: after = (before ++ [r']) ++ after := by simp
  rw [hsplit] at hnodup ⊢
  obtain ⟨hclosed, -, hdisjoint⟩ := List.nodup_append.mp hnodup
  constructor
  · intro hall
    match after with
    | [] => simp
    | r :: after =>
      have hmem : r ∈ before ++ [r'] := by
        rw [← List.count_pos_iff, hall r (by simp)]
        exact Nat.one_pos
      exact absurd rfl (hdisjoint r hmem r List.mem_cons_self)
  · intro hlast
    have hafter : after = [] := by
      by_contra hsome
      rw [List.getLast?_append_of_ne_nil _ hsome] at hlast
      exact hdisjoint r' (by simp) r' (List.mem_of_getLast? hlast) rfl
    subst hafter
    intro r hr
    exact List.count_eq_one_of_mem hclosed (by simpa using hr)

theorem not_obstructs_closed : ¬ lc.Obstructs (closed r) := by
  rintro ⟨r', exc, heq, -⟩
  simp [closed] at heq

theorem obstructs_failed_iff {exc : PyExc} :
    lc.Obstructs ⟨.close r, .error exc⟩ ↔ lc.resources.getLast? ≠ some r := by
  constructor
  · rintro ⟨r', exc', heq, hlast⟩
    cases heq
    exact hlast
  · intro hlast
    exact ⟨r, exc, rfl, hlast⟩

/-- The teardown closes every resource once exactly when no close before the last one fails. -/
theorem teardown_closes_iff (h : lc.teardown.run.Trace tr (.ret outcome)) :
    (∀ r ∈ lc.resources, closes r tr = 1) ↔ ∀ e ∈ tr, ¬ lc.Obstructs e := by
  rw [teardown_eq] at h
  have hnodup := resources_nodup lc
  rcases closeAll_trace h with rfl | ⟨before, r', after, exc, hrs, rfl⟩
  · have hone : ∀ r ∈ lc.resources, lc.resources.count r = 1 := fun r =>
      List.count_eq_one_of_mem hnodup
    simpa [closes_map_closed, not_obstructs_closed] using hone
  · rw [hrs] at hnodup
    simp only [closes_failed, hrs, closed_up_to_iff hnodup]
    simp [or_imp, forall_and, not_obstructs_closed, obstructs_failed_iff, hrs]

/-- Once the service was marked ready, every configured resource is closed exactly once if and
only if the lifespan goes on to its teardown and no resource before the last one fails to close,
or there is nothing to close. -/
theorem closed_once_iff (lc : AppLifecycle) (tr : List LifespanEvent) (outcome : Except PyExc Unit)
    (htr : lc.lifespan.run.Trace tr (.ret outcome)) (hready : ∃ a, ⟨.markReady, a⟩ ∈ tr) :
    (∀ r ∈ lc.resources, closes r tr = 1) ↔
      lc.resources = [] ∨ (∃ e ∈ tr, lc.Proceeds e) ∧ ∀ e ∈ tr, ¬ lc.Obstructs e := by
  obtain ⟨first, tr₁, tr₂, rfl, hservice, hrest⟩ := Py.trace_bind_iff.mp htr
  have hserved := service_trace hservice
  have hzero : ∀ r, closes r tr₁ = 0 := fun r => closes_eq_zero hserved.closesNone
  cases first with
  | error exc =>
    obtain ⟨rfl, -⟩ := hrest
    simp only [List.append_nil] at hready ⊢
    have hstuck : ¬ ∃ e ∈ tr₁, lc.Proceeds e := by
      rw [← hserved.proceeds hready]
      simp
    simp only [hzero, hstuck, false_and, or_false]
    constructor
    · intro h
      exact List.eq_nil_iff_forall_not_mem.mpr fun r hr => by simpa using h r hr
    · intro hnone
      simp [hnone]
  | ok _ =>
    have hcloses : ∀ e ∈ tr₂, ∃ r, e.1 = .close r := teardown_trace hrest
    have hready₁ : ∃ a, ⟨.markReady, a⟩ ∈ tr₁ := by
      obtain ⟨a, ha⟩ := hready
      refine ⟨a, (List.mem_append.mp ha).resolve_right fun ha => ?_⟩
      obtain ⟨r, hr⟩ := hcloses _ ha
      contradiction
    obtain ⟨e, he, hproceeds⟩ := (hserved.proceeds hready₁).mp rfl
    have hreached : ∃ e ∈ tr₁ ++ tr₂, lc.Proceeds e := ⟨e, List.mem_append_left _ he, hproceeds⟩
    have hclear : ∀ e ∈ tr₁, ¬ lc.Obstructs e := by
      rintro e he ⟨r, exc, rfl, -⟩
      exact hserved.closesNone _ he r rfl
    have hempty : lc.resources = [] → ∀ e ∈ tr₂, ¬ lc.Obstructs e := by
      intro hnone
      rw [← teardown_closes_iff hrest, hnone]
      simp
    simp only [closes_append, hzero, Nat.zero_add, teardown_closes_iff hrest, hreached, true_and,
      List.forall_mem_append]
    tauto

/-- A service with a revocation client and a database engine. -/
def ordersLifecycle : AppLifecycle where
  authDeps := some {
    revocationClient := some ⟨"http://auth:8000/user/private/v1/jti-status", "2",
      .static [(internalTokenHeader, .text "secret")], true, 0⟩
    apiKeyClient := none }
  dbEngine := true
  startupValidators := ["check_config_health"]
  lifespanExtras := false

/-- A normal shutdown of the service releases its three resources. -/
theorem closed_once_iff_shutdown : ∃ tr,
    ordersLifecycle.lifespan.run.Trace tr (.ret (.ok ())) ∧
      ∀ r ∈ ordersLifecycle.resources, closes r tr = 1 := by
  have htr : ordersLifecycle.lifespan.run.Trace [⟨.validate "check_config_health", .ok ()⟩,
      ⟨.markReady, ()⟩, ⟨.serve, .ok ()⟩, closed .revocationHttp, closed .revocationAuth,
      closed .database] (.ret (.ok ())) :=
    .perform _ (.perform _ (.perform _ (.perform _ (.perform _ (.perform _ (.stop _))))))
  refine ⟨_, htr, (closed_once_iff ordersLifecycle _ _ htr ⟨(), by simp⟩).mpr (.inr ⟨?_, ?_⟩)⟩
  · exact ⟨⟨.serve, .ok ()⟩, by simp, rfl⟩
  · simp [Obstructs, closed]

/-- A cancellation that is delivered at the `yield` releases nothing. -/
theorem not_closed_on_cancellation :
    ¬ ∀ (lc : AppLifecycle) (tr : List LifespanEvent) (outcome : Except PyExc Unit),
      lc.lifespan.run.Trace tr (.ret outcome) → (∃ a, ⟨.markReady, a⟩ ∈ tr) →
      ∀ r ∈ lc.resources, closes r tr = 1 := by
  intro h
  have htr : ordersLifecycle.lifespan.run.Trace [⟨.validate "check_config_health", .ok ()⟩,
      ⟨.markReady, ()⟩, ⟨.serve, .error .cancelledError⟩] (.ret (.error .cancelledError)) :=
    .perform _ (.perform _ (.perform _ (.stop _)))
  have hclosed := h ordersLifecycle _ _ htr ⟨(), by simp⟩ .database (by decide)
  simp [closes] at hclosed

end AppLifecycle

end FastapiM8
