import FastapiM8.App

/-! The startup gate: an app becomes ready when its configuration was accepted and every startup
validator has passed, and until then its health endpoint says that it is initializing. -/
namespace FastapiM8

abbrev AppHistory := List (AppState × AppAct)

/-- What the lifespan has done, in order. -/
def lifespanEvents (past : AppHistory) : List LifespanEvent :=
  (past.filterMap fun e =>
    match e.2 with
    | .lifespan e => some e
    | _ => none).reverse

def ready : LifespanEvent := ⟨.markReady, ()⟩

namespace AppLifecycle

variable (lc : AppLifecycle) {tr : List LifespanEvent}
  {q : Prog LifespanOp LifespanAns (Except PyExc Unit)}

/-- What has to happen before an app is ready. -/
def startupEvents : List LifespanEvent :=
  lc.startupValidators.map (fun name => ⟨.validate name, .ok ()⟩) ++
    if lc.lifespanExtras then [⟨.enterExtras, .ok ()⟩] else []

variable {lc}

/-- A trace that is not empty begins with the operation of its program. -/
theorem trace_begins {o : LifespanOp}
    {k : LifespanAns o → Prog LifespanOp LifespanAns (Except PyExc Unit)} {e : LifespanEvent}
    (h : (Prog.call o k).Trace tr q) (he : e ∈ tr) :
    ∃ a rest, tr = ⟨o, a⟩ :: rest ∧ (k a).Trace rest q := by
  cases h with
  | stop => contradiction
  | perform a rest => exact ⟨a, _, rfl, rest⟩

theorem trace_ended {outcome : Except PyExc Unit} {e : LifespanEvent}
    (h : (Prog.ret outcome).Trace tr q) : e ∉ tr := by
  cases h with
  | stop => exact List.not_mem_nil

/-- What comes after an awaited step is reached when the step does not raise. -/
theorem ready_after_await {o : LifespanOp} {answer : LifespanAns o → Except PyExc Unit}
    {rest : Lifespan} (ho : o ≠ .markReady)
    (h : (Py.await o answer >>= fun _ => rest).run.Trace tr q) (hready : ready ∈ tr) :
    ∃ a tr', answer a = .ok () ∧ tr = ⟨o, a⟩ :: tr' ∧ rest.run.Trace tr' q ∧ ready ∈ tr' := by
  obtain ⟨a, tr', rfl, htr⟩ := trace_begins h hready
  have hlater : ready ∈ tr' := by
    refine (List.mem_cons.mp hready).resolve_left fun heq => ?_
    exact ho (congrArg Sigma.fst heq).symm
  change Prog.Trace (ExceptT.bindCont (fun _ => rest) (answer a)) tr' q at htr
  cases hanswer : answer a with
  | ok _ =>
    rw [hanswer] at htr
    exact ⟨a, tr', hanswer, rfl, htr, hlater⟩
  | error exc =>
    rw [hanswer] at htr
    exact absurd hlater (trace_ended htr)

theorem runStartup_ready {names : List String} {rest : Lifespan}
    (h : (runStartup names >>= fun _ => rest).run.Trace tr q) (hready : ready ∈ tr) :
    ∃ tr', tr = names.map (fun name => ⟨.validate name, .ok ()⟩) ++ tr' ∧ rest.run.Trace tr' q ∧
      ready ∈ tr' := by
  induction names generalizing tr with
  | nil => exact ⟨tr, rfl, h, hready⟩
  | cons name names ih =>
    rw [runStartup, bind_assoc] at h
    obtain ⟨a, tr', rfl, rfl, htr, hlater⟩ := ready_after_await (by simp) h hready
    obtain ⟨tr'', rfl, hrest, hlast⟩ := ih htr hlater
    exact ⟨tr'', rfl, hrest, hlast⟩

/-- The readiness of a lifespan comes right after its startup. -/
theorem ready_trace (h : lc.lifespan.run.Trace tr q) :
    ready ∈ tr ↔ ∃ rest, tr = lc.startupEvents ++ ready :: rest := by
  constructor
  · intro hready
    rw [AppLifecycle.lifespan, AppLifecycle.service, bind_assoc] at h
    obtain ⟨tr', rfl, hbody, hlater⟩ := runStartup_ready h hready
    unfold startupEvents
    cases hextras : lc.lifespanExtras with
    | false =>
      rw [hextras] at hbody
      obtain ⟨_, rest, rfl, -⟩ := trace_begins hbody hlater
      exact ⟨rest, by simp [ready]⟩
    | true =>
      simp only [hextras, ↓reduceIte, withExtras, bind_assoc] at hbody
      obtain ⟨a, tr'', rfl, rfl, hserve, hlast⟩ := ready_after_await (by simp) hbody hlater
      obtain ⟨_, rest, rfl, -⟩ := trace_begins hserve hlast
      exact ⟨rest, by simp [ready]⟩
  · rintro ⟨rest, rfl⟩
    exact List.mem_append_right _ List.mem_cons_self

end AppLifecycle

section Probes

variable {config : HealthConfig} {h h' : HealthState} {l : HealthAct}

/-- The clock goes on, or one probe moves: a new one, or one whose checks are running. -/
theorem health_step_cases (hstep : config.step h l = some h') :
    (∃ seconds, 0 ≤ seconds ∧ l = .wait seconds ∧ h' = { h with now := h.now + seconds }) ∨
      ∃ id p cache, l.id? = some id ∧ h' = { h with cache := cache }.setProbe id p ∧
        ((l = .probe id ∧ h.probes id = none) ∨
          (l ≠ .probe id ∧ ∃ g, h.probes id = some (.gathering g))) := by
  cases l with
  | probe id =>
    simp only [HealthConfig.step] at hstep
    split at hstep
    next => contradiction
    next hnew =>
      split at hstep
      next g _ =>
        exact .inr ⟨id, _, h.cache, rfl, (Option.some.inj hstep).symm, .inl ⟨rfl, hnew⟩⟩
      next => exact .inr ⟨id, _, h.cache, rfl, (Option.some.inj hstep).symm, .inl ⟨rfl, hnew⟩⟩
  | begin id i =>
    simp only [HealthConfig.step] at hstep
    split at hstep
    next g hp =>
      split at hstep
      next =>
        exact .inr ⟨id, _, h.cache, rfl, (Option.some.inj hstep).symm, .inr ⟨by simp, g, hp⟩⟩
      next => contradiction
    next => contradiction
  | finish id i ending =>
    simp only [HealthConfig.step] at hstep
    split at hstep
    next g hp =>
      split at hstep
      next =>
        exact .inr ⟨id, _, h.cache, rfl, (Option.some.inj hstep).symm, .inr ⟨by simp, g, hp⟩⟩
      next => contradiction
    next => contradiction
  | join id =>
    simp only [HealthConfig.step] at hstep
    split at hstep
    next g hp =>
      split at hstep
      next =>
        obtain rfl := Option.some.inj hstep
        unfold HealthConfig.publish
        split
        · exact .inr ⟨id, _, _, rfl, rfl, .inr ⟨by simp, g, hp⟩⟩
        · exact .inr ⟨id, _, h.cache, rfl, rfl, .inr ⟨by simp, g, hp⟩⟩
      next => contradiction
    next => contradiction
  | cancel id =>
    simp only [HealthConfig.step] at hstep
    split at hstep
    next g hp =>
      exact .inr ⟨id, _, h.cache, rfl, (Option.some.inj hstep).symm, .inr ⟨by simp, g, hp⟩⟩
    next => contradiction
  | wait seconds =>
    simp only [HealthConfig.step] at hstep
    split at hstep
    next hpos => exact .inl ⟨seconds, hpos, rfl, (Option.some.inj hstep).symm⟩
    next => contradiction

theorem health_now_le (hstep : config.step h l = some h') : h.now ≤ h'.now := by
  rcases health_step_cases hstep with ⟨seconds, hpos, -, rfl⟩ | ⟨id, p, cache, -, rfl, -⟩
  · show h.now ≤ h.now + seconds
    linarith
  · exact le_refl h.now

theorem health_probes_of_ne (hstep : config.step h l = some h') {id : ℕ} (hid : l.id? ≠ some id) :
    h'.probes id = h.probes id := by
  rcases health_step_cases hstep with ⟨seconds, -, -, rfl⟩ | ⟨id', p, cache, hid', rfl, -⟩
  · rfl
  · have hne : id ≠ id' := by
      rintro rfl
      exact hid hid'
    simp [HealthState.setProbe, Function.update_of_ne hne]

/-- A check belongs to a probe that is gathering. -/
theorem health_gathering (hstep : config.step h l = some h') {id : ℕ} (hid : l.id? = some id)
    (hprobe : l ≠ .probe id) : ∃ g, h.probes id = some (.gathering g) := by
  rcases health_step_cases hstep with ⟨seconds, -, rfl, -⟩ |
    ⟨id', p, cache, hid', -, ⟨hl, -⟩ | ⟨-, hg⟩⟩
  · contradiction
  · obtain rfl := Option.some.inj (hid.symm.trans hid')
    exact absurd hl hprobe
  · obtain rfl := Option.some.inj (hid.symm.trans hid')
    exact hg

end Probes

namespace App

variable {app : App} {now : ℚ} {past : AppHistory} {s s' : AppState} {l : AppAct} {id : ℕ}

/-- The step is none of the lifespan. -/
structure Keeps (s s' : AppState) : Prop where
  lifespan_eq : s'.lifespan = s.lifespan
  ready_eq : s'.serviceReady = s.serviceReady
  since_eq : s'.readySince = s.readySince

theorem keeps_refl (s : AppState) : Keeps s s := ⟨rfl, rfl, rfl⟩

theorem setCall_keeps (s : AppState) (id : ℕ) (call : HealthCall) : Keeps s (s.setCall id call) :=
  ⟨rfl, rfl, rfl⟩

theorem settleCall_keeps (s : AppState) (id : ℕ) : Keeps s (app.settleCall s id) := by
  unfold settleCall
  split <;> first | exact keeps_refl s | exact setCall_keeps s id _

theorem settleCall_health (s : AppState) (id : ℕ) : (app.settleCall s id).health = s.health := by
  unfold settleCall
  split <;> rfl

theorem gather_eq_some (h : app.gather s id = some s') :
    ∃ h, app.health.step s.health (.probe id) = some h ∧
      s' = app.settleCall { s with health := h } id := by
  obtain ⟨h', hstep, hs⟩ := Option.map_eq_some_iff.mp h
  exact ⟨h', hstep, hs.symm⟩

theorem gather_keeps (h : app.gather s id = some s') : Keeps s s' := by
  obtain ⟨h', -, rfl⟩ := gather_eq_some h
  obtain ⟨hlifespan, hready, hsince⟩ := @settleCall_keeps app { s with health := h' } id
  exact ⟨hlifespan, hready, hsince⟩

theorem decided_keeps {answer : Except PyExc Bool} (h : app.decided s id answer = some s') :
    Keeps s s' := by
  unfold decided at h
  split at h
  next => exact gather_keeps h
  next => exact Option.some.inj h ▸ setCall_keeps s id _
  next => exact Option.some.inj h ▸ setCall_keeps s id _

theorem answer_keeps {request : HealthRequest} (h : app.answer s id request = some s') :
    Keeps s s' := by
  unfold answer at h
  split at h
  next => exact Option.some.inj h ▸ setCall_keeps s id _
  next =>
    split at h
    next => exact gather_keeps h
    next =>
      split at h
      next => exact decided_keeps h
      next => exact Option.some.inj h ▸ setCall_keeps s id _

/-- The ways an app can move, and what each of them does. -/
inductive Moves (app : App) (s : AppState) : AppAct → AppState → Prop
  | lifespan (e : LifespanEvent) (p : Prog LifespanOp LifespanAns (Except PyExc Unit))
      (h : s.lifespan.advance e = some p) : Moves app s (.lifespan e)
        (if e.1 = .markReady then ({ s with lifespan := p } : AppState).markReady
          else { s with lifespan := p })
  | request (id : ℕ) (request : HealthRequest) {s' : AppState} (hnew : s.calls id = none)
      (h : app.answer s id request = some s') : Moves app s (.request id request) s'
  | authorized (id : ℕ) (answer : Except PyExc Bool) {s' : AppState}
      (hcall : s.calls id = some .authorizing) (h : app.decided s id answer = some s') :
      Moves app s (.authorized id answer) s'
  | check (l : HealthAct) (id : ℕ) (h : HealthState) (hid : l.id? = some id)
      (hprobe : ∀ id, l ≠ .probe id) (hstep : app.health.step s.health l = some h) :
      Moves app s (.health l) (app.settleCall { s with health := h } id)
  | wait (seconds : ℚ) (h : HealthState)
      (hstep : app.health.step s.health (.wait seconds) = some h) :
      Moves app s (.health (.wait seconds)) { s with health := h }

theorem moves_of_step (h : app.step s l = some s') : Moves app s l s' := by
  cases l with
  | lifespan e =>
    obtain ⟨p, hp, rfl⟩ := Option.map_eq_some_iff.mp h
    exact .lifespan e p hp
  | request id request =>
    simp only [step] at h
    split at h
    next => contradiction
    next hnew => exact .request id request hnew h
  | authorized id answer =>
    simp only [step] at h
    split at h
    next hcall => exact .authorized id answer hcall h
    next => contradiction
  | health l =>
    cases l with
    | probe id => contradiction
    | wait seconds =>
      obtain ⟨h', hstep, rfl⟩ := Option.map_eq_some_iff.mp h
      exact .wait seconds h' hstep
    | _ =>
      obtain ⟨h', hstep, rfl⟩ := Option.map_eq_some_iff.mp h
      exact .check _ _ h' rfl (by simp) hstep

theorem health_now_le_of_step (h : app.step s l = some s') : s.health.now ≤ s'.health.now := by
  have hgather : ∀ id {s'}, app.gather s id = some s' → s.health.now ≤ s'.health.now := by
    intro id s' h
    obtain ⟨h', hstep, rfl⟩ := gather_eq_some h
    rw [settleCall_health]
    exact health_now_le hstep
  have hdecided : ∀ id answer {s'}, app.decided s id answer = some s' →
      s.health.now ≤ s'.health.now := by
    intro id answer s' h
    unfold decided at h
    split at h
    next => exact hgather id h
    next => exact Option.some.inj h ▸ le_refl _
    next => exact Option.some.inj h ▸ le_refl _
  cases moves_of_step h with
  | lifespan e p hp => split <;> exact le_refl _
  | request id request hnew h =>
    unfold answer at h
    split at h
    next => exact Option.some.inj h ▸ le_refl _
    next =>
      split at h
      next => exact hgather id h
      next =>
        split at h
        next => exact hdecided id _ h
        next => exact Option.some.inj h ▸ le_refl _
  | authorized id answer hcall h => exact hdecided id answer h
  | check l id h hid hprobe hstep =>
    rw [settleCall_health]
    exact health_now_le hstep
  | wait seconds h hstep => exact health_now_le hstep

theorem lifespanEvents_cons (e : LifespanEvent) :
    lifespanEvents ((s, .lifespan e) :: past) = lifespanEvents past ++ [e] := by
  simp [lifespanEvents]

theorem lifespanEvents_skip (hl : ∀ e, l ≠ .lifespan e) :
    lifespanEvents ((s, l) :: past) = lifespanEvents past := by
  unfold lifespanEvents
  cases l with
  | lifespan e => exact absurd rfl (hl e)
  | _ => rfl

/-- What the lifespan of an app has done, and what that means for its readiness. -/
structure Gated (app : App) (past : AppHistory) (s : AppState) : Prop where
  trace : app.lifespan.run.Trace (lifespanEvents past) s.lifespan
  ready_iff : s.serviceReady = true ↔ ready ∈ lifespanEvents past
  since_some : s.serviceReady = true → ∃ t, s.readySince = some t ∧ t ≤ s.health.now
  since_none : s.serviceReady = false → s.readySince = none
  waiting : s.serviceReady = false → s.health.cache = none ∧ ∀ id, s.health.probes id = none ∧
    ∀ call, s.calls id = some call → call = .responded initializing

theorem gated_init : Gated app [] (app.init now) where
  trace := .stop _
  ready_iff := by simp [init, lifespanEvents]
  since_some h := by contradiction
  since_none _ := rfl
  waiting _ := ⟨rfl, fun id => ⟨rfl, fun call h => by contradiction⟩⟩

/-- A step that is none of the lifespan keeps the gate. -/
theorem Gated.keep (h : Gated app past s) (hkeeps : Keeps s s') (hl : ∀ e, l ≠ .lifespan e)
    (hnow : s.health.now ≤ s'.health.now)
    (hwaiting : s.serviceReady = false → s'.health.cache = none ∧ ∀ id, s'.health.probes id = none ∧
      ∀ call, s'.calls id = some call → call = .responded initializing) :
    Gated app ((s, l) :: past) s' where
  trace := by
    rw [lifespanEvents_skip hl, hkeeps.lifespan_eq]
    exact h.trace
  ready_iff := by
    rw [lifespanEvents_skip hl, hkeeps.ready_eq]
    exact h.ready_iff
  since_some hready := by
    rw [hkeeps.ready_eq] at hready
    obtain ⟨t, ht, hle⟩ := h.since_some hready
    exact ⟨t, hkeeps.since_eq.trans ht, hle.trans hnow⟩
  since_none hready := by
    rw [hkeeps.ready_eq] at hready
    exact hkeeps.since_eq.trans (h.since_none hready)
  waiting hready := by
    rw [hkeeps.ready_eq] at hready
    exact hwaiting hready

theorem Gated.lifespan {e : LifespanEvent} (h : Gated app past s)
    {p : Prog LifespanOp LifespanAns (Except PyExc Unit)} (hp : s.lifespan.advance e = some p) :
    Gated app ((s, .lifespan e) :: past) (if e.1 = .markReady then
      ({ s with lifespan := p } : AppState).markReady else { s with lifespan := p }) := by
  have htrace := h.trace.snoc hp
  obtain ⟨o, a⟩ := e
  by_cases ho : o = .markReady
  · subst ho
    rw [if_pos rfl]
    constructor
    · rw [lifespanEvents_cons]
      exact htrace
    · rw [lifespanEvents_cons]
      exact iff_of_true rfl (by simp [ready])
    · exact fun _ => ⟨s.health.now, rfl, le_refl _⟩
    · exact fun hready => by contradiction
    · exact fun hready => by contradiction
  · rw [if_neg ho]
    constructor
    · rw [lifespanEvents_cons]
      exact htrace
    · rw [lifespanEvents_cons, List.mem_append, ← h.ready_iff]
      simp [ready, Ne.symm ho]
    · exact h.since_some
    · exact h.since_none
    · exact h.waiting

theorem Gated.step (h : Gated app past s) (hstep : app.step s l = some s') :
    Gated app ((s, l) :: past) s' := by
  have hnow := health_now_le_of_step hstep
  cases moves_of_step hstep with
  | lifespan e p hp => exact h.lifespan hp
  | request id request hnew hanswer =>
    refine h.keep (answer_keeps hanswer) (by simp) hnow fun hready => ?_
    obtain ⟨hcache, hcalls⟩ := h.waiting hready
    unfold answer at hanswer
    rw [if_pos hready] at hanswer
    obtain rfl := Option.some.inj hanswer
    refine ⟨hcache, fun id' => ⟨(hcalls id').1, fun call hcall => ?_⟩⟩
    by_cases hid : id' = id
    · subst hid
      simp only [AppState.setCall, Function.update_self, Option.some.injEq] at hcall
      exact hcall.symm
    · simp only [AppState.setCall, Function.update_of_ne hid] at hcall
      exact (hcalls id').2 call hcall
  | authorized id answer hcall hanswer =>
    refine h.keep (decided_keeps hanswer) (by simp) hnow fun hready => ?_
    have hinitializing := ((h.waiting hready).2 id).2 _ hcall
    contradiction
  | check l id h' hid hprobe hcheck =>
    obtain ⟨hlifespan, hready, hsince⟩ := @settleCall_keeps app { s with health := h' } id
    refine h.keep ⟨hlifespan, hready, hsince⟩ (by simp) hnow fun hready => ?_
    obtain ⟨g, hg⟩ := health_gathering hcheck hid (hprobe id)
    rw [((h.waiting hready).2 id).1] at hg
    contradiction
  | wait seconds h' hwait =>
    refine h.keep ⟨rfl, rfl, rfl⟩ (by simp) hnow fun hready => ?_
    rcases health_step_cases hwait with ⟨_, _, -, rfl⟩ | ⟨_, _, _, hid, -⟩
    · exact h.waiting hready
    · contradiction

theorem gated_of_run (run : Run app.step (app.init now) past s) : Gated app past s := by
  induction run with
  | start => exact gated_init
  | next run hstep ih => exact ih.step hstep

theorem lifespan_of_accepted (h : app.validateConfigHealth = .ok ()) :
    app.lifespan = app.lifecycle.lifespan := by
  unfold lifespan
  rw [h]
  rfl

theorem lifespan_of_rejected {exc : PyExc} (h : app.validateConfigHealth = .error exc) :
    app.lifespan.run = .ret (.error exc) := by
  unfold lifespan
  rw [h]
  rfl

theorem lifespanEvents_append (newer older : AppHistory) :
    lifespanEvents (newer ++ older) = lifespanEvents older ++ lifespanEvents newer := by
  simp [lifespanEvents]

/-- An app is ready exactly when its configuration was accepted and its lifespan has gone through
every startup validator in order, and then into the extra context, without an exception. It stays
ready, with the time since when. Until then every call of the health endpoint is told that the
service is initializing, and no check has begun; an app whose configuration is rejected runs no
validator, closes nothing and stays so. -/
theorem ready_after_startup (run : Run app.step (app.init now) past s) :
    (s.serviceReady = true ↔ app.validateConfigHealth = .ok () ∧
      ∃ rest, lifespanEvents past = app.lifecycle.startupEvents ++ ready :: rest) ∧
    (s.serviceReady = true ↔ ∃ t, s.readySince = some t ∧ t ≤ s.health.now) ∧
    (s.serviceReady = false → s.health.cache = none ∧ ∀ id, s.health.probes id = none ∧
      ∀ call, s.calls id = some call → call = .responded initializing) ∧
    (∀ e ∈ past, e.1.serviceReady = true → s.serviceReady = true) ∧
    ∀ exc, app.validateConfigHealth = .error exc →
      s.lifespan = .ret (.error exc) ∧ lifespanEvents past = [] := by
  have hgated := gated_of_run run
  have hrejected : ∀ exc, app.validateConfigHealth = .error exc →
      s.lifespan = .ret (.error exc) ∧ lifespanEvents past = [] := by
    intro exc hexc
    have htrace := hgated.trace
    rw [lifespan_of_rejected hexc] at htrace
    generalize hq : s.lifespan = q at htrace
    generalize htr : lifespanEvents past = tr at htrace
    cases htrace
    exact ⟨rfl, rfl⟩
  refine ⟨?_, ?_, hgated.waiting, ?_, hrejected⟩
  · rw [hgated.ready_iff]
    constructor
    · intro hready
      cases haccepted : app.validateConfigHealth with
      | error exc =>
        rw [(hrejected exc haccepted).2] at hready
        contradiction
      | ok _ =>
        have htrace := hgated.trace
        rw [lifespan_of_accepted haccepted] at htrace
        exact ⟨rfl, (AppLifecycle.ready_trace htrace).mp hready⟩
    · rintro ⟨-, rest, hevents⟩
      rw [hevents]
      exact List.mem_append_right _ List.mem_cons_self
  · constructor
    · exact hgated.since_some
    · rintro ⟨t, ht, -⟩
      by_contra hready
      rw [hgated.since_none (Bool.eq_false_iff.mpr hready)] at ht
      contradiction
  · intro e he hready
    obtain ⟨newer, older, rfl⟩ := List.append_of_mem he
    obtain ⟨s₁, l₁⟩ := e
    have hold := (gated_of_run run.split_cons.1).ready_iff.mp hready
    rw [hgated.ready_iff, lifespanEvents_append, ← List.singleton_append, lifespanEvents_append]
    exact List.mem_append_left _ (List.mem_append_left _ hold)

/-- The service of a database whose detail credential is its own. -/
def ordersApp : App where
  settings := ⟨some "private-secret", some "health-secret", none⟩
  configHealth := .ok ()
  lifecycle := { AppLifecycle.ordersLifecycle with startupValidators := ["check_schema"] }
  health := HealthConfig.serviceChecks
  makeInternalTokenAuthorizer secret request :=
    match secret with
    | none => false
    | some secret => request.headers.lookup internalTokenHeader = some secret
  version := "4.6.0"
  authVersion := some "3.2.1"

/-- The startup of the service. -/
def ordersStarts : List AppAct :=
  [.lifespan ⟨.validate "check_schema", .ok ()⟩, .lifespan ready]

theorem ready_after_startup_orders :
    ∃ past s, Run ordersApp.step (ordersApp.init 0) past s ∧
      ∃ rest, lifespanEvents past = ordersApp.lifecycle.startupEvents ++ ready :: rest := by
  have heval : (ordersStarts.foldlM ordersApp.step (ordersApp.init 0)).any
      (·.serviceReady) = true := by decide +kernel
  obtain ⟨s, hs, hready⟩ := (Option.any_eq_true _ _).mp heval
  obtain ⟨past, run, -⟩ := Run.of_foldlM hs
  exact ⟨past, s, run, ((ready_after_startup run).1.mp hready).2⟩

end App
end FastapiM8
