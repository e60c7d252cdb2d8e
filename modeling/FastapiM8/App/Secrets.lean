import FastapiM8.App.Startup
import FastapiM8.Health.Meta
import FastapiM8.Lib.Lockstep

/-! Secrets in what the health checks return or raise: where they are in the URLs and under the
keys that are masked, how they differ makes no difference to any answer of the health endpoint. -/
namespace FastapiM8

/-- Metadata that differ in secrets, but not below their top level. -/
structure HiddenMeta (d d' : Meta) : Prop where
  same : SameMeta d d'
  shallow : ∀ key v v', (key, v) ∈ d.entries → (key, v') ∈ d'.entries →
    isSensitiveKey key = false → v.isStr = false → v = v'

/-- Results of a check that differ in secrets, and in the latency that the check states. -/
structure SameResult (r r' : HealthCheckResult) : Prop where
  name_eq : r.name = r'.name
  status_eq : r.status = r'.status
  error : Option.Rel SameText r.error r'.error
  metadata : Option.Rel HiddenMeta r.metadata r'.metadata

/-- Two ways for a check to end that differ in secrets. -/
inductive SameEnding : CheckEnding → CheckEnding → Prop
  | returned {r r' : HealthCheckResult} (h : SameResult r r') :
      SameEnding (.returned r) (.returned r')
  | returnedNone : SameEnding .returnedNone .returnedNone
  | raised {message message' : String} (h : SameText message message') :
      SameEnding (.raised message) (.raised message')
  | timedOut : SameEnding .timedOut .timedOut

/-- Two acts of the probes that differ in the secrets of how a check ends. -/
inductive SameHealthAct : HealthAct → HealthAct → Prop
  | refl (l : HealthAct) : SameHealthAct l l
  | finish (id i : ℕ) {ending ending' : CheckEnding} (h : SameEnding ending ending') :
      SameHealthAct (.finish id i ending) (.finish id i ending')

/-- Two acts of an app that differ in the secrets of how a check ends. -/
inductive SameAct : AppAct → AppAct → Prop
  | refl (l : AppAct) : SameAct l l
  | finish (id i : ℕ) {ending ending' : CheckEnding} (h : SameEnding ending ending') :
      SameAct (.health (.finish id i ending)) (.health (.finish id i ending'))

theorem HiddenMeta.map_eq {d d' : Meta} (h : HiddenMeta d d') :
    d.map scrubValue = d'.map scrubValue := by
  apply OrderedDict.ext
  exact SameFields.map_eq h.same h.shallow

theorem scrubMeta_congr {metadata metadata' : Option Meta}
    (h : Option.Rel HiddenMeta metadata metadata') : scrubMeta metadata = scrubMeta metadata' := by
  cases h with
  | some h => rw [scrubMeta_some, scrubMeta_some, h.map_eq]
  | none => rfl

theorem modelDump_congr {r r' : HealthCheckResult} (hname : r.name = r'.name)
    (hstatus : r.status = r'.status) (hlatency : r.latencyMs = r'.latencyMs)
    (herror : r.error.map scrubText = r'.error.map scrubText)
    (hmeta : scrubMeta r.metadata = scrubMeta r'.metadata) : r.modelDump = r'.modelDump := by
  unfold HealthCheckResult.modelDump HealthCheckResult.ok
  rw [hname, hstatus, hlatency, herror, hmeta]

/-- The report of a check does not depend on the secrets of how it ended. -/
theorem SameEnding.modelDump_eq {ending ending' : CheckEnding} (h : SameEnding ending ending')
    (check : HealthCheck) (timeout began ended : ℚ) :
    (runCheck check timeout began ended ending).modelDump =
      (runCheck check timeout began ended ending').modelDump := by
  cases h with
  | returned h =>
    -- the latency that a check states is overwritten
    exact modelDump_congr h.name_eq h.status_eq rfl
      (h.error.eq_of_map fun _ _ htext => htext.scrubText_eq) (scrubMeta_congr h.metadata)
  | returnedNone => rfl
  | raised h => exact modelDump_congr rfl rfl rfl (congrArg Option.some h.scrubText_eq) rfl
  | timedOut => rfl

/-- Two lists of results with the same reports. -/
def SameReports (results results' : List HealthCheckResult) : Prop :=
  results.map HealthCheckResult.modelDump = results'.map HealthCheckResult.modelDump

/-- Results with the same reports are aggregated alike. -/
theorem SameReports.aggregate_eq {results results' : List HealthCheckResult}
    (h : SameReports results results') (policy : HealthAggregatePolicy) :
    aggregate results policy = aggregate results' policy := by
  have hstatus : results.map (·.status) = results'.map (·.status) := by
    have hmap := congrArg (List.map fun report => report.status) h
    rw [List.map_map, List.map_map] at hmap
    exact hmap
  unfold aggregate
  rw [hstatus]

structure SameGathered (g g' : Gathered) : Prop where
  results : SameReports g.results g'.results
  overall_eq : g.overall = g'.overall
  code_eq : g.code = g'.code

structure SameGathering (g g' : Gathering) : Prop where
  slots_eq : g.slots.map (Option.map HealthCheckResult.modelDump) =
    g'.slots.map (Option.map HealthCheckResult.modelDump)
  tasks_eq : g.tasks = g'.tasks

inductive SameProbe : Probe → Probe → Prop
  | gathering {g g' : Gathering} (h : SameGathering g g') : SameProbe (.gathering g) (.gathering g')
  | returned {g g' : Gathered} (h : SameGathered g g') : SameProbe (.returned g) (.returned g')
  | raised : SameProbe .raised .raised
  | cancelled : SameProbe .cancelled .cancelled

structure SameHealth (s s' : HealthState) : Prop where
  now_eq : s.now = s'.now
  cache : Option.Rel (fun c c' => c.1 = c'.1 ∧ SameGathered c.2 c'.2) s.cache s'.cache
  probes : ∀ id, Option.Rel SameProbe (s.probes id) (s'.probes id)

/-- Two states of an app whose calls have been answered alike, and whose checks are reported
alike. -/
structure SameApp (s s' : AppState) : Prop where
  lifespan_eq : s.lifespan = s'.lifespan
  ready_eq : s.serviceReady = s'.serviceReady
  since_eq : s.readySince = s'.readySince
  calls_eq : s.calls = s'.calls
  health : SameHealth s.health s'.health

theorem SameGathered.refl (g : Gathered) : SameGathered g g := ⟨rfl, rfl, rfl⟩

theorem SameHealth.init (now : ℚ) : SameHealth (.init now) (.init now) :=
  ⟨rfl, .none, fun _ => .none⟩

theorem SameApp.init (app : App) (now : ℚ) : SameApp (app.init now) (app.init now) :=
  ⟨rfl, rfl, rfl, rfl, .init now⟩

theorem SameHealth.setProbe {s s' : HealthState} (h : SameHealth s s') (id : ℕ) {p p' : Probe}
    (hp : SameProbe p p') : SameHealth (s.setProbe id p) (s'.setProbe id p') where
  now_eq := h.now_eq
  cache := h.cache
  probes id' := by
    by_cases hid : id' = id
    · subst hid
      simp only [HealthState.setProbe, Function.update_self]
      exact .some hp
    · simp only [HealthState.setProbe, Function.update_of_ne hid]
      exact h.probes id'

section Probes

variable {config : HealthConfig} {s s' : HealthState}

theorem filled_rel {slots slots' : List (Option HealthCheckResult)}
    (h : slots.map (Option.map HealthCheckResult.modelDump) =
      slots'.map (Option.map HealthCheckResult.modelDump)) :
    Option.Rel SameReports (filled slots) (filled slots') := by
  induction slots generalizing slots' with
  | nil =>
    obtain rfl := List.map_eq_nil_iff.mp h.symm
    exact .some rfl
  | cons slot slots ih =>
    cases slots' with
    | nil => simp at h
    | cons slot' slots' =>
      rw [List.map_cons, List.map_cons] at h
      obtain ⟨hslot, hrest⟩ := List.cons.inj h
      cases slot with
      | none =>
        obtain rfl := Option.map_eq_none_iff.mp hslot.symm
        exact .none
      | some r =>
        obtain ⟨r', rfl, hr⟩ := Option.map_eq_some_iff.mp hslot.symm
        show Option.Rel SameReports ((filled slots).map (r :: ·)) ((filled slots').map (r' :: ·))
        refine (ih hrest).map_of fun results results' hresults => ?_
        show (r :: results).map HealthCheckResult.modelDump = (r' :: results').map _
        rw [List.map_cons, List.map_cons, hresults, hr]

theorem SameReports.evaluate {results results' : List HealthCheckResult}
    (h : SameReports results results') (config : HealthConfig) :
    SameGathered (config.evaluate results) (config.evaluate results') where
  results := h
  overall_eq := h.aggregate_eq config.policy
  code_eq := congrArg httpCode (h.aggregate_eq config.policy)

theorem SameHealth.served (h : SameHealth s s') :
    Option.Rel SameGathered (config.served s) (config.served s') := by
  obtain ⟨hnow, hcache, -⟩ := h
  unfold HealthConfig.served
  generalize s.cache = c at hcache ⊢
  generalize s'.cache = c' at hcache ⊢
  cases hcache with
  | none => exact .none
  | @some c c' h =>
    obtain ⟨time, g⟩ := c
    obtain ⟨time', g'⟩ := c'
    obtain ⟨rfl, hg⟩ := h
    simp only [hnow]
    split
    next => exact .some hg
    next => exact .none

theorem SameHealth.publish (h : SameHealth s s') (id : ℕ) {g g' : Gathering}
    (hg : SameGathering g g') : SameHealth (config.publish s id g) (config.publish s' id g') := by
  have hfilled := filled_rel hg.slots_eq
  unfold HealthConfig.publish
  generalize filled g.slots = r at hfilled ⊢
  generalize filled g'.slots = r' at hfilled ⊢
  cases hfilled with
  | none => exact h.setProbe id .raised
  | some hresults =>
    have hgathered := hresults.evaluate config
    have hcached : SameHealth { s with cache := some (s.now, config.evaluate _) }
        { s' with cache := some (s'.now, config.evaluate _) } :=
      ⟨h.now_eq, .some ⟨h.now_eq, hgathered⟩, h.probes⟩
    exact hcached.setProbe id (.returned hgathered)

theorem SameHealth.gathering_right (h : SameHealth s s') {id : ℕ} {g : Gathering}
    (hg : s.probes id = some (.gathering g)) :
    ∃ g', s'.probes id = some (.gathering g') ∧ SameGathering g g' := by
  have hprobe := h.probes id
  rw [hg] at hprobe
  obtain ⟨p', hp', hp⟩ := hprobe.exists_right
  cases hp with
  | gathering hsame => exact ⟨_, hp', hsame⟩

theorem SameHealth.gathering_left (h : SameHealth s s') {id : ℕ} {g' : Gathering}
    (hg' : s'.probes id = some (.gathering g')) : ∃ g, s.probes id = some (.gathering g) := by
  have hprobe := h.probes id
  rw [hg'] at hprobe
  obtain ⟨p, hp, hsame⟩ := hprobe.exists_left
  cases hsame with
  | gathering => exact ⟨_, hp⟩

/-- An act on a probe whose checks run is possible in both states or in neither. -/
theorem SameHealth.step_gathering (h : SameHealth s s') {l l' : HealthAct} {id : ℕ}
    (hid : l.id? = some id) (hid' : l'.id? = some id) (hl : l ≠ .probe id) (hl' : l' ≠ .probe id)
    (hstep : ∀ g g', s.probes id = some (.gathering g) → s'.probes id = some (.gathering g') →
      SameGathering g g' → Option.Rel SameHealth (config.step s l) (config.step s' l')) :
    Option.Rel SameHealth (config.step s l) (config.step s' l') := by
  by_cases hgathering : ∃ g, s.probes id = some (.gathering g)
  · obtain ⟨g, hg⟩ := hgathering
    obtain ⟨g', hg', hsame⟩ := h.gathering_right hg
    exact hstep g g' hg hg' hsame
  · have hnone : config.step s l = none :=
      Option.eq_none_iff_forall_not_mem.mpr fun _ h' => hgathering (health_gathering h' hid hl)
    have hnone' : config.step s' l' = none :=
      Option.eq_none_iff_forall_not_mem.mpr fun _ h' =>
        let ⟨_, hg'⟩ := health_gathering h' hid' hl'
        hgathering (h.gathering_left hg')
    rw [hnone, hnone']
    exact .none

/-- A check that ends with the same report in both states fills its slot alike. -/
theorem SameHealth.step_finish (h : SameHealth s s') (id i : ℕ) {ending ending' : CheckEnding}
    (hending : ∀ check began ended,
      (runCheck check config.timeout began ended ending).modelDump =
        (runCheck check config.timeout began ended ending').modelDump) :
    Option.Rel SameHealth (config.step s (.finish id i ending))
      (config.step s' (.finish id i ending')) := by
  refine h.step_gathering rfl rfl (by simp) (by simp) fun g g' hg hg' hsame => ?_
  simp only [HealthConfig.step, hg, hg', hsame.tasks_eq, h.now_eq]
  split
  next check began hcheck hbegan =>
    refine .some (h.setProbe id (.gathering ⟨?_, rfl⟩))
    show (g.slots.set i _).map _ = (g'.slots.set i _).map _
    rw [List.map_set, List.map_set, hsame.slots_eq, Option.map_some, Option.map_some, hending]
  next => exact .none

/-- The probes of two services move in lockstep when their checks end alike up to secrets. -/
theorem health_lockstep (config : HealthConfig) :
    Lockstep config.step config.step SameHealth SameHealthAct := by
  intro s s' l l' h hl
  cases hl with
  | finish id i hending =>
    exact h.step_finish id i fun check began ended => hending.modelDump_eq check _ began ended
  | refl l =>
    cases l with
    | probe id =>
      have hprobe := h.probes id
      simp only [HealthConfig.step]
      generalize s.probes id = p at hprobe ⊢
      generalize s'.probes id = p' at hprobe ⊢
      cases hprobe with
      | some => exact .none
      | none =>
        have hserved : Option.Rel SameGathered (config.served s) (config.served s') := h.served
        generalize config.served s = r at hserved ⊢
        generalize config.served s' = r' at hserved ⊢
        cases hserved with
        | some hg => exact .some (h.setProbe id (.returned hg))
        | none => exact .some (h.setProbe id (.gathering ⟨rfl, rfl⟩))
    | begin id i =>
      refine h.step_gathering rfl rfl (by simp) (by simp) fun g g' hg hg' hsame => ?_
      simp only [HealthConfig.step, hg, hg', hsame.tasks_eq, h.now_eq]
      split
      next => exact .some (h.setProbe id (.gathering ⟨hsame.slots_eq, rfl⟩))
      next => exact .none
    | finish id i ending => exact h.step_finish id i fun _ _ _ => rfl
    | join id =>
      refine h.step_gathering rfl rfl (by simp) (by simp) fun g g' hg hg' hsame => ?_
      simp only [HealthConfig.step, hg, hg', hsame.tasks_eq]
      split
      next => exact .some (h.publish id hsame)
      next => exact .none
    | cancel id =>
      refine h.step_gathering rfl rfl (by simp) (by simp) fun g g' hg hg' hsame => ?_
      simp only [HealthConfig.step, hg, hg']
      exact .some (h.setProbe id .cancelled)
    | wait seconds =>
      simp only [HealthConfig.step]
      split
      next => exact .some ⟨by rw [h.now_eq], h.cache, h.probes⟩
      next => exact .none

end Probes

theorem SameApp.setCall {s s' : AppState} (h : SameApp s s') (id : ℕ) (call : HealthCall) :
    SameApp (s.setCall id call) (s'.setCall id call) where
  lifespan_eq := h.lifespan_eq
  ready_eq := h.ready_eq
  since_eq := h.since_eq
  calls_eq := by
    show Function.update s.calls id _ = Function.update s'.calls id _
    rw [h.calls_eq]
  health := h.health

theorem SameApp.withHealth {s s' : AppState} (h : SameApp s s') {health health' : HealthState}
    (hhealth : SameHealth health health') :
    SameApp { s with health := health } { s' with health := health' } :=
  ⟨h.lifespan_eq, h.ready_eq, h.since_eq, h.calls_eq, hhealth⟩

namespace App

variable {app : App} {s s' : AppState}

theorem detailResponse_congr {g g' : Gathered} (h : SameGathered g g') :
    app.detailResponse g = app.detailResponse g' := by
  unfold detailResponse
  rw [h.overall_eq, h.code_eq, h.results]

theorem settleCall_rel (h : SameApp s s') (id : ℕ) :
    SameApp (app.settleCall s id) (app.settleCall s' id) := by
  have hprobe := h.health.probes id
  unfold settleCall
  generalize s.health.probes id = p at hprobe ⊢
  generalize s'.health.probes id = p' at hprobe ⊢
  cases hprobe with
  | none => exact h
  | some hp =>
    cases hp with
    | gathering => exact h.setCall id .gathering
    | @returned g g' hg =>
      show SameApp (s.setCall id (.responded (app.detailResponse g)))
        (s'.setCall id (.responded (app.detailResponse g')))
      rw [detailResponse_congr hg]
      exact h.setCall id _
    | raised => exact h.setCall id _
    | cancelled => exact h.setCall id .cancelled

/-- An act of the probes, and what the call that it belongs to makes of it. -/
theorem check_rel (h : SameApp s s') {l l' : HealthAct} (hl : SameHealthAct l l') (id : ℕ) :
    Option.Rel SameApp
      ((app.health.step s.health l).map fun health => app.settleCall { s with health := health } id)
      ((app.health.step s'.health l').map fun health =>
        app.settleCall { s' with health := health } id) := by
  have hstep := health_lockstep app.health _ _ l l' h.health hl
  exact hstep.map_of fun _ _ hhealth => settleCall_rel (h.withHealth hhealth) id

theorem gather_rel (h : SameApp s s') (id : ℕ) :
    Option.Rel SameApp (app.gather s id) (app.gather s' id) :=
  check_rel h (.refl (.probe id)) id

theorem decided_rel (h : SameApp s s') (id : ℕ) (answer : Except PyExc Bool) :
    Option.Rel SameApp (app.decided s id answer) (app.decided s' id answer) := by
  unfold decided
  split
  next => exact gather_rel h id
  next => exact .some (h.setCall id _)
  next => exact .some (h.setCall id _)

theorem answer_rel (h : SameApp s s') (id : ℕ) (request : HealthRequest) :
    Option.Rel SameApp (app.answer s id request) (app.answer s' id request) := by
  unfold answer
  rw [h.ready_eq]
  split
  next => exact .some (h.setCall id _)
  next =>
    split
    next => exact gather_rel h id
    next =>
      split
      next => exact decided_rel h id _
      next => exact .some (h.setCall id _)

/-- An app moves in lockstep with itself when its checks end alike up to secrets. -/
theorem app_lockstep (app : App) : Lockstep app.step app.step SameApp SameAct := by
  intro s s' l l' h hl
  cases hl with
  | finish id i hending => exact check_rel h (.finish id i hending) id
  | refl l =>
    cases l with
    | lifespan e =>
      simp only [step]
      rw [h.lifespan_eq]
      cases s'.lifespan.advance e with
      | none => exact .none
      | some p =>
        refine .some ?_
        show SameApp (if e.1 = .markReady then _ else _) (if e.1 = .markReady then _ else _)
        split
        next => exact ⟨rfl, rfl, congrArg some h.health.now_eq, h.calls_eq, h.health⟩
        next => exact ⟨rfl, h.ready_eq, h.since_eq, h.calls_eq, h.health⟩
    | request id request =>
      simp only [step]
      rw [h.calls_eq]
      split
      next => exact .none
      next => exact answer_rel h id request
    | authorized id answer =>
      simp only [step]
      rw [h.calls_eq]
      split
      next => exact decided_rel h id answer
      next => exact .none
    | health l =>
      cases l with
      | probe id => exact .none
      | wait seconds =>
        have hstep := health_lockstep app.health _ _ _ _ h.health (.refl (.wait seconds))
        exact hstep.map_of fun _ _ hhealth => h.withHealth hhealth
      | _ => exact check_rel h (.refl _) _

/-- The secrets that the health endpoint masks do not leave through it: were the passwords of the
URLs with a user and a password, or the values under sensitive keys of the top level of the
metadata, others in what the checks return or raise, the app could take the same steps, and at each
of them every call would have been answered in the same way. -/
theorem secrets_kept {now : ℚ} {past : AppHistory} (run : Run app.step (app.init now) past s)
    {acts : List AppAct} (hacts : List.Forall₂ SameAct (past.map Prod.snd) acts) :
    ∃ past' s', Run app.step (app.init now) past' s' ∧ past'.map Prod.snd = acts ∧
      s.calls = s'.calls ∧ past.map (fun e => e.1.calls) = past'.map fun e => e.1.calls :=
  (app_lockstep app).seen run (.init app now) hacts fun _ _ h => h.calls_eq

/-- A caller sees a check of the service fail with the address of its database. -/
def ordersFails (password : String) : List AppAct :=
  ordersStarts ++ [.request 0 ⟨[(internalTokenHeader, "health-secret")]⟩,
    .health (.begin 0 0), .health (.begin 0 1), .health (.finish 0 1 .timedOut),
    .health (.finish 0 0 (.raised (urlText "no route to postgresql" "orders" password "db:5432"))),
    .health (.join 0)]

theorem secrets_kept_orders :
    ∃ past s past' s', Run ordersApp.step (ordersApp.init 0) past s ∧
      past.map Prod.snd = (ordersFails "s3cr3t").reverse ∧
      Run ordersApp.step (ordersApp.init 0) past' s' ∧
      past'.map Prod.snd = (ordersFails "hunter2").reverse ∧ s.calls = s'.calls := by
  have heval : ((ordersFails "s3cr3t").foldlM ordersApp.step (ordersApp.init 0)).isSome = true := by
    decide +kernel
  obtain ⟨s, hs⟩ := Option.isSome_iff_exists.mp heval
  obtain ⟨past, run, hacts⟩ := Run.of_foldlM hs
  have hu : IsUser "orders".toList := List.all_eq_true.mp (by decide)
  have hp : IsPassword "s3cr3t".toList := ⟨by decide, List.all_eq_true.mp (by decide)⟩
  have hq : IsPassword "hunter2".toList := ⟨by decide, List.all_eq_true.mp (by decide)⟩
  have htext : SameText (urlText "no route to postgresql" "orders" "s3cr3t" "db:5432")
      (urlText "no route to postgresql" "orders" "hunter2" "db:5432") :=
    .single (.replace _ _ (by decide) hu hp hq)
  have hsame : List.Forall₂ SameAct (past.map Prod.snd) (ordersFails "hunter2").reverse := by
    rw [hacts]
    exact .cons (.refl _) (.cons (.finish 0 0 (.raised htext)) (.cons (.refl _) (.cons (.refl _)
      (.cons (.refl _) (.cons (.refl _) (.cons (.refl _) (.cons (.refl _) .nil)))))))
  obtain ⟨past', s', run', hacts', hcalls, -⟩ := secrets_kept run hsame
  exact ⟨past, s, past', s', run, hacts, run', hacts', hcalls⟩

end App

end FastapiM8
