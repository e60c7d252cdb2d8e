import FastapiM8.Lib.Instrument
import FastapiM8.Revocation.Provenance

/-! The metrics of a revocation client. Cache lookups and failed checks are counted on a registry
of the SDK, which can be switched off or replaced while calls are pending. -/
namespace FastapiM8

/-- A counter with one label: a value for each value of the label. -/
abbrev Counter := String → ℕ

def Counter.inc (c : Counter) (label : String) : Counter := Function.update c label (c label + 1)

/-- `_CacheMetrics`: what is registered together on one registry. -/
structure CacheMetrics where
  lookups : Counter
  ttlSeconds : ℤ
  checkFailures : Counter

def CacheMetrics.new : CacheMetrics := ⟨fun _ => 0, 0, fun _ => 0⟩

/-- The metrics module of the SDK, if it is installed, and the global `_cache_metrics`. Registries
are numbered, and each of them keeps what was registered on it. -/
structure Observability where
  installed : Bool
  enabled : Bool
  registry : ℕ
  registered : ℕ → Option CacheMetrics
  cacheMetrics : Option ℕ
  memo_registered : ∀ r, cacheMetrics = some r → (registered r).isSome = true

/-- What the SDK does between the calls: it sets up its metrics anew. -/
structure MetricsSetup where
  enabled : Bool
  registry : ℕ

namespace Observability

/-- No metric of a client is registered anywhere. -/
def init (installed enabled : Bool) (registry : ℕ) : Observability :=
  ⟨installed, enabled, registry, fun _ => none, none, by simp⟩

def setup (obs : Observability) (e : MetricsSetup) : Observability :=
  { obs with enabled := e.enabled, registry := e.registry }

/-- The registry that is in use, unless the metrics are missing or disabled. -/
def getObs (obs : Observability) : Option ℕ :=
  if obs.installed && obs.enabled then some obs.registry else none

def register (obs : Observability) (registry : ℕ) : Observability :=
  { obs with
    registered := Function.update obs.registered registry (some .new),
    cacheMetrics := some registry,
    memo_registered := by simp }

/-- The registry whose metrics are to be used. To register a name on a registry that has it
already is an error of the metrics library. -/
def getCacheMetrics (obs : Observability) : Except PyExc (Option ℕ) × Observability :=
  match obs.getObs with
  | none => (.ok none, obs)
  | some registry =>
    if obs.cacheMetrics = some registry then (.ok (some registry), obs)
    else
      match obs.registered registry with
      | some _ => (.error (.valueError none), obs)
      | none => (.ok (some registry), obs.register registry)

def modify (obs : Observability) (registry : ℕ) (f : CacheMetrics → CacheMetrics) :
    Observability :=
  { obs with
    registered := Function.update obs.registered registry ((obs.registered registry).map f),
    memo_registered := by
      intro r hmemo
      have hr := obs.memo_registered r hmemo
      by_cases hsame : r = registry
      · subst hsame
        simpa using hr
      · simpa [hsame] using hr }

/-- What both records do: update the metrics that are in use, if there are any, and end with what
the metrics library raises for the update. -/
def record (f : CacheMetrics → CacheMetrics) (raised : Except PyExc Unit) (obs : Observability) :
    Except PyExc Unit × Observability :=
  match obs.getCacheMetrics with
  | (.error exc, obs') => (.error exc, obs')
  | (.ok none, obs') => (.ok (), obs')
  | (.ok (some registry), obs') => (raised, obs'.modify registry f)

/-- A gauge is set to a float. -/
def gaugeSet (value : ℤ) : Except PyExc Unit :=
  if value < floatLimit then .ok () else .error .overflowError

/-- The lookup is counted before the gauge is set. -/
def recordLookup (cacheTtl : ℤ) (result : String) : Observability →
    Except PyExc Unit × Observability :=
  record (fun m => { m with
    lookups := m.lookups.inc result
    ttlSeconds := if cacheTtl < floatLimit then cacheTtl else m.ttlSeconds }) (gaugeSet cacheTtl)

def recordCheckFailure (mode : String) : Observability → Except PyExc Unit × Observability :=
  record (fun m => { m with checkFailures := m.checkFailures.inc mode }) (.ok ())

/-- The registry in use has the metrics of an earlier time, and another one was used since. -/
def Stale (obs : Observability) : Prop :=
  ∃ registry, obs.getObs = some registry ∧ obs.cacheMetrics ≠ some registry ∧
    (obs.registered registry).isSome = true

instance (obs : Observability) : Decidable obs.Stale :=
  decidable_of_iff (obs.getObs.any fun r => obs.cacheMetrics ≠ some r && (obs.registered r).isSome)
    (by simp [Stale, Option.any_eq_true])

/-- The registry that a record is counted on. -/
def countsOn (obs : Observability) : Option ℕ := if obs.Stale then none else obs.getObs

/-- What a registry shows. -/
def metrics (obs : Observability) (r : ℕ) : CacheMetrics := (obs.registered r).getD .new

variable {obs : Observability}

/-- The metrics can be had, or are to be left alone, unless the registry is stale. -/
theorem getCacheMetrics_cases (obs : Observability) :
    (obs.getObs = none ∧ obs.getCacheMetrics = (.ok none, obs)) ∨
    (∃ r, obs.getObs = some r ∧ obs.cacheMetrics = some r ∧
      obs.getCacheMetrics = (.ok (some r), obs)) ∨
    (∃ r, obs.getObs = some r ∧ obs.cacheMetrics ≠ some r ∧ obs.registered r = none ∧
      obs.getCacheMetrics = (.ok (some r), obs.register r)) ∨
    obs.Stale ∧ obs.getCacheMetrics = (.error (.valueError none), obs) := by
  unfold getCacheMetrics
  cases hobs : obs.getObs with
  | none => exact .inl ⟨rfl, rfl⟩
  | some r =>
    by_cases hmemo : obs.cacheMetrics = some r
    · exact .inr (.inl ⟨r, rfl, hmemo, if_pos hmemo⟩)
    · cases hr : obs.registered r with
      | none =>
        refine .inr (.inr (.inl ⟨r, rfl, hmemo, hr, ?_⟩))
        simp [hmemo, hr]
      | some m =>
        refine .inr (.inr (.inr ⟨⟨r, hobs, hmemo, by simp [hr]⟩, ?_⟩))
        simp [hmemo, hr]

@[simp] theorem getObs_modify (r : ℕ) (f : CacheMetrics → CacheMetrics) :
    (obs.modify r f).getObs = obs.getObs := rfl

@[simp] theorem cacheMetrics_modify (r : ℕ) (f : CacheMetrics → CacheMetrics) :
    (obs.modify r f).cacheMetrics = obs.cacheMetrics := rfl

@[simp] theorem getObs_register (r : ℕ) : (obs.register r).getObs = obs.getObs := rfl

@[simp] theorem cacheMetrics_register (r : ℕ) : (obs.register r).cacheMetrics = some r := rfl

/-- A memo of the registry in use is never stale. -/
theorem not_stale_of_memo {r : ℕ} (hobs : obs.getObs = some r) (hmemo : obs.cacheMetrics = some r) :
    ¬ obs.Stale := by
  rintro ⟨r', hobs', hne, -⟩
  rw [hobs] at hobs'
  rw [hmemo] at hne
  exact hne hobs'

/-- A record fails on a stale registry, which it leaves as it is. -/
theorem record_of_stale (h : obs.Stale) (f : CacheMetrics → CacheMetrics)
    (raised : Except PyExc Unit) : obs.record f raised = (.error (.valueError none), obs) := by
  obtain ⟨r, hobs, hmemo, hr⟩ := h
  obtain ⟨m, hm⟩ := Option.isSome_iff_exists.mp hr
  simp [record, getCacheMetrics, hobs, hmemo, hm]

/-- Any other record succeeds if its update does, and leaves no stale registry behind. -/
theorem record_of_not_stale (h : ¬ obs.Stale) (f : CacheMetrics → CacheMetrics) :
    (obs.record f (.ok ())).1 = .ok () ∧ ¬ (obs.record f (.ok ())).2.Stale := by
  unfold record
  rcases getCacheMetrics_cases obs with ⟨-, heq⟩ | ⟨r, hobs, hmemo, heq⟩ |
    ⟨r, hobs, -, -, heq⟩ | ⟨hstale, -⟩
  · rw [heq]
    exact ⟨rfl, h⟩
  · rw [heq]
    exact ⟨rfl, not_stale_of_memo (r := r) hobs hmemo⟩
  · rw [heq]
    exact ⟨rfl, not_stale_of_memo (r := r) hobs rfl⟩
  · exact absurd hstale h

/-- A record updates what the registry shows that it is counted on. -/
theorem metrics_record (f : CacheMetrics → CacheMetrics) (raised : Except PyExc Unit) (r : ℕ) :
    (obs.record f raised).2.metrics r =
      if obs.countsOn = some r then f (obs.metrics r) else obs.metrics r := by
  have hmodify : ∀ (obs : Observability) (r' : ℕ), (obs.registered r').isSome = true →
      (obs.modify r' f).metrics r = if r' = r then f (obs.metrics r) else obs.metrics r := by
    intro obs r' hr'
    obtain ⟨m, hm⟩ := Option.isSome_iff_exists.mp hr'
    unfold metrics modify
    by_cases hr : r' = r
    · subst hr
      simp [hm]
    · simp [hr, Function.update_of_ne (Ne.symm hr)]
  by_cases hstale : obs.Stale
  · rw [record_of_stale hstale, countsOn, if_pos hstale]
    rfl
  rw [countsOn, if_neg hstale, record]
  rcases getCacheMetrics_cases obs with ⟨hobs, heq⟩ | ⟨r', hobs, hmemo, heq⟩ |
    ⟨r', hobs, -, hnone, heq⟩ | ⟨h, -⟩
  · rw [heq, hobs]
    rfl
  · rw [heq, hobs]
    simp only [Option.some.injEq]
    exact hmodify obs r' (obs.memo_registered r' hmemo)
  · rw [heq, hobs]
    simp only [Option.some.injEq]
    have hnew : (obs.register r').metrics r = obs.metrics r := by
      unfold metrics register
      by_cases hr : r = r'
      · subst hr
        simp [hnone]
      · simp [hr]
    rw [← hnew]
    exact hmodify (obs.register r') r' (by simp [register])
  · exact absurd h hstale

end Observability

/-- The records of a client. Both may raise. -/
inductive MetricOp where
  | recordLookup (result : String)
  | recordCheckFailure (mode : String)

abbrev MetricAns : MetricOp → Type := fun _ => Except PyExc Unit

abbrev MeteredOp := ClientOp ⊕ MetricOp

abbrev MeteredAns := Prog.SumAns ClientAns MetricAns

/-- A coroutine that records nothing. -/
def Py.metered {α : Type} (p : Py ClientOp ClientAns α) : Py MeteredOp MeteredAns α :=
  ExceptT.mk p.run.inl

def MetricOp.await (o : MetricOp) : Py MeteredOp MeteredAns Unit := Py.await (Sum.inr o) id

/-- A record that went well. -/
def recorded : (o : MetricOp) → MetricAns o := fun _ => .ok ()

namespace RemoteRevocationClient

variable (client : RemoteRevocationClient) (sdk : Sdk)

/-- How a failed check is counted, apart from a decision error. -/
def failureMode : String := if client.failClosed then "fail_closed" else "fail_open"

/-- `is_revoked` from its `try` on, with its records. -/
def meteredAskIssuer (jti userId : String) : Py MeteredOp MeteredAns Bool := do
  match ← Py.attempt (client.queryStatus sdk jti userId).metered with
  | .error (.revocationDecisionError reason) =>
    (MetricOp.recordCheckFailure "fail_closed").await
    throw (.revocationDecisionError reason)
  | .error exc =>
    if exc.isException = false then throw exc
    else
      (MetricOp.recordCheckFailure client.failureMode).await
      if client.failClosed then throw (.revocationCheckError exc)
      else return false
  | .ok .inactive => return true
  | .ok (.active _ authGeneration) =>
    let present : Bool ← (Py.perform ClientOp.cachePresent).metered
    if present then
      let superseded : Bool ←
        (Py.perform (ClientOp.cacheIsSuperseded userId authGeneration)).metered
      if superseded then return true
      else
        let fits : Bool ← (Py.perform (ClientOp.cachePut jti userId authGeneration)).metered
        if fits then return false else throw .overflowError
    else return false

def meteredIsRevoked (jti userId : String) (bypassCache : Bool) : Py MeteredOp MeteredAns Bool := do
  let present : Bool ← (Py.perform ClientOp.cachePresent).metered
  if present && !bypassCache then
    let cached : Option Bool ← (Py.perform (ClientOp.cacheGet jti)).metered
    match cached with
    | some hit =>
      (MetricOp.recordLookup "hit").await
      return hit
    | none =>
      (MetricOp.recordLookup "miss").await
      client.meteredAskIssuer sdk jti userId
  else client.meteredAskIssuer sdk jti userId

/-- The records are made at once. -/
def book : (o : MetricOp) → Observability → MetricAns o × Observability
  | .recordLookup result, obs => obs.recordLookup client.cacheTtl result
  | .recordCheckFailure mode, obs => obs.recordCheckFailure mode

/-- The calls of a client with their records, while the SDK may set up its metrics anew. -/
def metered : Scheduler MeteredOp MeteredAns (ClientState × Observability) CallSpec ClientAnswer
    (ClientEvent ⊕ MetricsSetup) (Except PyExc Bool) :=
  (client.scheduler sdk).instrument
    (fun spec => (client.meteredIsRevoked sdk spec.jti spec.userId spec.bypassCache).run)
    client.book Observability.setup

end RemoteRevocationClient

abbrev MeteredPool := Pool MeteredOp MeteredAns (ClientState × Observability) CallSpec
  (Except PyExc Bool)

abbrev MeteredAct := Act CallSpec ClientAnswer (ClientEvent ⊕ MetricsSetup)

def RemoteRevocationClient.startMetered (client : RemoteRevocationClient) (now : ℚ)
    (obs : Observability) : MeteredPool :=
  .idle (.init client now, obs)

section Erase

variable {α β : Type}

theorem Py.erase_attempt_metered_bind (p : Py ClientOp ClientAns α)
    (f : Except PyExc α → Py MeteredOp MeteredAns β) :
    (Py.attempt p.metered >>= f).run.erase recorded =
      (Py.attempt p >>= fun outcome => ExceptT.mk ((f outcome).run.erase recorded)).run := by
  rw [Py.run_attempt_bind, Py.run_attempt_bind, Prog.erase_bind]
  exact congrArg (· >>= fun outcome => (f outcome).run.erase recorded) (Prog.erase_inl p.run)

end Erase

namespace RemoteRevocationClient

variable {client : RemoteRevocationClient} {sdk : Sdk}

theorem erase_meteredAskIssuer (jti userId : String) :
    (client.meteredAskIssuer sdk jti userId).run.erase recorded =
      (client.askIssuer sdk jti userId).run := by
  unfold meteredAskIssuer askIssuer
  rw [Py.erase_attempt_metered_bind, Py.run_attempt_bind, Py.run_attempt_bind]
  refine Prog.bind_congr fun outcome => ?_
  cases outcome with
  | error exc =>
    cases exc with
    | revocationDecisionError reason => rfl
    | cancelledError => rfl
    | _ =>
      simp only [PyExc.isException, Bool.true_eq_false, ↓reduceIte]
      cases client.failClosed <;> rfl
  | ok result =>
    cases result with
    | inactive => rfl
    | active owner g =>
      refine congrArg (Prog.call ClientOp.cachePresent) (funext fun present : Bool => ?_)
      cases present with
      | false => rfl
      | true =>
        refine congrArg (Prog.call (ClientOp.cacheIsSuperseded _ _)) (funext fun b : Bool => ?_)
        cases b with
        | true => rfl
        | false =>
          refine congrArg (Prog.call (ClientOp.cachePut _ _ _)) (funext fun fits : Bool => ?_)
          cases fits <;> rfl

theorem erase_meteredIsRevoked (jti userId : String) (bypassCache : Bool) :
    (client.meteredIsRevoked sdk jti userId bypassCache).run.erase recorded =
      (client.isRevoked sdk jti userId bypassCache).run := by
  refine congrArg (Prog.call ClientOp.cachePresent) (funext fun present : Bool => ?_)
  have hask : (client.meteredAskIssuer sdk jti userId).run.erase recorded =
      (client.askIssuer sdk jti userId).run := erase_meteredAskIssuer jti userId
  cases present with
  | false => exact hask
  | true =>
    cases bypassCache with
    | true => exact hask
    | false =>
      refine congrArg (Prog.call (ClientOp.cacheGet jti)) (funext fun cached : Option Bool => ?_)
      cases cached with
      | none => exact hask
      | some hit => rfl

theorem sound_book (hfits : client.cacheTtl < floatLimit) :
    Prog.Sound client.book recorded fun obs => ¬ obs.Stale := by
  intro o obs h
  cases o with
  | recordLookup result =>
    have hset : Observability.gaugeSet client.cacheTtl = .ok () := if_pos hfits
    show (obs.recordLookup client.cacheTtl result).1 = .ok () ∧
      ¬ (obs.recordLookup client.cacheTtl result).2.Stale
    rw [Observability.recordLookup, hset]
    exact Observability.record_of_not_stale h _
  | recordCheckFailure mode => exact Observability.record_of_not_stale h _

end RemoteRevocationClient

variable {client : RemoteRevocationClient} {sdk : Sdk} {obs : Observability} {now : ℚ}

/-- The records change nothing that a client does whose time to live a gauge can show. Its runs
are what is left of the runs in which it records, when the records and the setups of the SDK are
erased: the same calls, events and replies, with the same states of the cache and the same results.
The SDK may switch its metrics or replace its registry at any time in these runs, as long as no step
is taken on a registry that another one has replaced in the meantime. -/
theorem metering_transparent (hfits : client.cacheTtl < floatLimit) (hobs : ¬ obs.Stale)
    {past' : List (ClientPool × ClientAct)} {v : ClientPool} :
    Run (client.scheduler sdk).step (client.start now) past' v ↔
      ∃ past w, Run (client.metered sdk).step (client.startMetered now obs) past w ∧
        (∀ x ∈ past, ¬ x.1.shared.2.Stale) ∧
        past.filterMap (Scheduler.eraseStep recorded) = past' ∧ w.erase recorded = v :=
  Scheduler.run_erase_iff
    (fun spec => RemoteRevocationClient.erase_meteredIsRevoked spec.jti spec.userId
      spec.bypassCache)
    (RemoteRevocationClient.sound_book hfits) hobs

/-- A call that stores a session, and one that finds it. -/
def storedThenFound : List ClientAct := hitLabels ++ [.spawn 1 ⟨"jti-1", "user-a", false⟩]

theorem metering_transparent_hit :
    ∃ past w, Run (cachingClient.metered v2Sdk).step
        (cachingClient.startMetered 0 (.init true true 0)) past w ∧
      (w.erase recorded).tasks 1 = some ⟨⟨"jti-1", "user-a", false⟩, .ret (.ok false)⟩ := by
  have heval : (storedThenFound.foldlM (cachingClient.scheduler v2Sdk).step
      (cachingClient.start 0)).any (fun v =>
        answered v 1 ⟨"jti-1", "user-a", false⟩ false) = true := by decide +kernel
  obtain ⟨v, hv, hanswered⟩ := (Option.any_eq_true _ _).mp heval
  obtain ⟨past', run', -⟩ := Run.of_foldlM hv
  have hfresh : ¬ (Observability.init true true 0).Stale := by decide
  obtain ⟨past, w, run, -, -, rfl⟩ := (metering_transparent (by decide +kernel) hfresh).mp run'
  exact ⟨past, w, run, answered_iff.mp hanswered⟩

end FastapiM8
