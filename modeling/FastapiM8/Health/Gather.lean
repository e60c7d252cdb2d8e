import FastapiM8.Health.Aggregate
import FastapiM8.Lib.History

/-! Gathering the health checks: probes run their checks concurrently, write the results into
their slots, and share one cached evaluation. -/
namespace FastapiM8

/-- What the health endpoint is configured with. -/
structure HealthConfig where
  checks : List HealthCheck
  timeout : ℚ := 1 / 2
  policy : HealthAggregatePolicy := .lenient
  cacheTtl : ℚ := 2

/-- What a probe returns: the results, the overall status and the HTTP code. -/
structure Gathered where
  results : List HealthCheckResult
  overall : HealthStatus
  code : ℕ

def httpCode (overall : HealthStatus) : ℕ := if overall = .fail then 503 else 200

/-- A task of the task group: it runs one check. -/
inductive CheckTask where
  | spawned
  | running (began : ℚ)
  | ended
  deriving DecidableEq

/-- A probe that missed the cache: its slots, and a task for each. -/
structure Gathering where
  slots : List (Option HealthCheckResult)
  tasks : List CheckTask

inductive Probe where
  | gathering (g : Gathering)
  | returned (g : Gathered)
  | raised
  | cancelled

/-- The `health_cache` of an app, the clock, and the probes. -/
structure HealthState where
  now : ℚ
  cache : Option (ℚ × Gathered)
  probes : ℕ → Option Probe

/-- The ways the probes can move between two awaits. -/
inductive HealthAct where
  | probe (id : ℕ)
  | begin (id i : ℕ)
  | finish (id i : ℕ) (ending : CheckEnding)
  | join (id : ℕ)
  | cancel (id : ℕ)
  | wait (seconds : ℚ)

/-- Every slot as a result; a slot that is still empty raises where its status is read. -/
def filled : List (Option HealthCheckResult) → Option (List HealthCheckResult)
  | [] => some []
  | none :: _ => none
  | some r :: slots => (filled slots).map (r :: ·)

namespace HealthState

def init (now : ℚ) : HealthState := ⟨now, none, fun _ => none⟩

def setProbe (s : HealthState) (id : ℕ) (p : Probe) : HealthState :=
  { s with probes := Function.update s.probes id (some p) }

end HealthState

namespace HealthConfig

variable (config : HealthConfig)

/-- The cached evaluation, while it is young enough to be served. -/
def served (s : HealthState) : Option Gathered :=
  match s.cache with
  | some (time, g) => if s.now - time < config.cacheTtl then some g else none
  | none => none

/-- The slots and the tasks of a probe that missed the cache. -/
def spawnAll : Gathering where
  slots := List.replicate config.checks.length none
  tasks := List.replicate config.checks.length .spawned

def evaluate (results : List HealthCheckResult) : Gathered :=
  let overall := aggregate results config.policy
  ⟨results, overall, httpCode overall⟩

/-- The end of a probe whose tasks have ended. -/
def publish (s : HealthState) (id : ℕ) (g : Gathering) : HealthState :=
  match filled g.slots with
  | some results =>
    { s with cache := some (s.now, config.evaluate results) }.setProbe id
      (.returned (config.evaluate results))
  | none => s.setProbe id .raised

/-- One step of `_gather_health_results`, of one of its tasks, or of the clock. -/
def step (s : HealthState) : HealthAct → Option HealthState
  | .probe id =>
    match s.probes id with
    | some _ => none
    | none =>
      match config.served s with
      | some g => some (s.setProbe id (.returned g))
      | none => some (s.setProbe id (.gathering config.spawnAll))
  | .begin id i =>
    match s.probes id with
    | some (.gathering g) =>
      if g.tasks[i]? = some .spawned then
        some (s.setProbe id (.gathering { g with tasks := g.tasks.set i (.running s.now) }))
      else none
    | _ => none
  | .finish id i ending =>
    match s.probes id with
    | some (.gathering g) =>
      match config.checks[i]?, g.tasks[i]? with
      | some check, some (.running began) =>
        some (s.setProbe id (.gathering
          ⟨g.slots.set i (some (runCheck check config.timeout began s.now ending)),
            g.tasks.set i .ended⟩))
      | _, _ => none
    | _ => none
  | .join id =>
    match s.probes id with
    | some (.gathering g) =>
      if g.tasks.all (· = .ended) then some (config.publish s id g) else none
    | _ => none
  | .cancel id =>
    match s.probes id with
    | some (.gathering _) => some (s.setProbe id .cancelled)
    | _ => none
  | .wait seconds => if 0 ≤ seconds then some { s with now := s.now + seconds } else none

variable {config}

theorem served_eq_some_iff {s : HealthState} {g : Gathered} :
    config.served s = some g ↔
      ∃ time, s.cache = some (time, g) ∧ s.now - time < config.cacheTtl := by
  unfold served
  cases s.cache with
  | none => simp
  | some c =>
    obtain ⟨time, g'⟩ := c
    simp only [Option.some.injEq, Prod.mk.injEq]
    split
    next h =>
      simp only [Option.some.injEq]
      constructor
      · rintro rfl
        exact ⟨time, ⟨rfl, rfl⟩, h⟩
      · rintro ⟨_, ⟨rfl, rfl⟩, -⟩
        rfl
    next h =>
      simp only [reduceCtorEq, false_iff, not_exists, not_and]
      rintro _ ⟨rfl, rfl⟩ hlt
      exact h hlt

theorem filled_map_some (results : List HealthCheckResult) :
    filled (results.map some) = some results := by
  induction results with
  | nil => rfl
  | cons r results ih => rw [List.map_cons, filled, ih, Option.map_some]

/-- Slots that all hold a result are filled. -/
theorem exists_filled {slots : List (Option HealthCheckResult)}
    (h : ∀ slot ∈ slots, ∃ r, slot = some r) :
    ∃ results : List HealthCheckResult, slots = results.map some := by
  induction slots with
  | nil => exact ⟨[], rfl⟩
  | cons slot slots ih =>
    obtain ⟨⟨r, rfl⟩, hrest⟩ := List.forall_mem_cons.mp h
    obtain ⟨results, rfl⟩ := ih hrest
    exact ⟨r :: results, rfl⟩

abbrev HealthHistory := List (HealthState × HealthAct)

variable (config)

/-- The check `i` of a probe was run once begun, and this is its result. -/
def Ran (past : HealthHistory) (id i : ℕ) (check : HealthCheck) (r : HealthCheckResult) : Prop :=
  ∃ began ended ending, (began, .begin id i) ∈ past ∧ (ended, .finish id i ending) ∈ past ∧
    r = runCheck check config.timeout began.now ended.now ending

/-- What one probe has made of its own checks: a result for each in the order of their
declaration, the aggregate of these and its code. -/
structure Evaluated (past : HealthHistory) (id : ℕ) (g : Gathered) : Prop where
  length_eq : g.results.length = config.checks.length
  ran : ∀ i check, config.checks[i]? = some check →
    ∃ r, g.results[i]? = some r ∧ config.Ran past id i check r
  overall_eq : g.overall = aggregate g.results config.policy
  code_eq : g.code = httpCode g.overall

/-- The slots of a probe whose checks are running. -/
structure Filling (past : HealthHistory) (id : ℕ) (g : Gathering) : Prop where
  slots_length : g.slots.length = config.checks.length
  tasks_length : g.tasks.length = config.checks.length
  began : ∀ i t, g.tasks[i]? = some (.running t) → ∃ s, (s, .begin id i) ∈ past ∧ s.now = t
  ended : ∀ i check, config.checks[i]? = some check → g.tasks[i]? = some .ended →
    ∃ r, g.slots[i]? = some (some r) ∧ config.Ran past id i check r

/-- The probe found nothing in the cache that it could be served. -/
def Missed (past : HealthHistory) (id : ℕ) : Prop :=
  ∃ s, (s, .probe id) ∈ past ∧ config.served s = none

/-- The probe was served what the cache held when it came. -/
def Hit (past : HealthHistory) (id : ℕ) (g : Gathered) : Prop :=
  ∃ s time, (s, .probe id) ∈ past ∧ s.cache = some (time, g) ∧ s.now - time < config.cacheTtl

/-- The cached evaluation comes whole from a probe that published it. -/
def Published (past : HealthHistory) (time : ℚ) (g : Gathered) : Prop :=
  ∃ s id, (s, .join id) ∈ past ∧ time = s.now ∧ config.Evaluated past id g

/-- A probe whose checks run can go on: each check can begin, once begun it can end in every way,
and when all of them have ended the probe returns. -/
structure Proceeds (s : HealthState) (id : ℕ) (g : Gathering) : Prop where
  begins : ∀ i, g.tasks[i]? = some .spawned → ∃ s', config.step s (.begin id i) = some s'
  finishes : ∀ i began ending, g.tasks[i]? = some (.running began) →
    ∃ s', config.step s (.finish id i ending) = some s'
  returns : (∀ t ∈ g.tasks, t = .ended) →
    ∃ s' g', config.step s (.join id) = some s' ∧ s'.probes id = some (.returned g')

def ProbeOk (past : HealthHistory) (id : ℕ) : Probe → Prop
  | .gathering g => config.Missed past id ∧ config.Filling past id g
  | .returned g => config.Hit past id g ∨ config.Missed past id ∧ config.Evaluated past id g
  | .raised => False
  | .cancelled => True

structure Consistent (past : HealthHistory) (s : HealthState) : Prop where
  probes : ∀ id p, s.probes id = some p → config.ProbeOk past id p
  cache : ∀ time g, s.cache = some (time, g) → config.Published past time g

variable {config} {past : HealthHistory} {s s' : HealthState} {e : HealthState × HealthAct}
  {id : ℕ}

theorem Ran.cons {i : ℕ} {check : HealthCheck} {r : HealthCheckResult}
    (h : config.Ran past id i check r) : config.Ran (e :: past) id i check r := by
  obtain ⟨began, ended, ending, hbegin, hfinish, hr⟩ := h
  exact ⟨began, ended, ending, List.mem_cons_of_mem e hbegin, List.mem_cons_of_mem e hfinish, hr⟩

theorem Evaluated.cons {g : Gathered} (h : config.Evaluated past id g) :
    config.Evaluated (e :: past) id g where
  length_eq := h.length_eq
  ran i check hcheck := by
    obtain ⟨r, hr, hran⟩ := h.ran i check hcheck
    exact ⟨r, hr, hran.cons⟩
  overall_eq := h.overall_eq
  code_eq := h.code_eq

theorem Filling.cons {g : Gathering} (h : config.Filling past id g) :
    config.Filling (e :: past) id g where
  slots_length := h.slots_length
  tasks_length := h.tasks_length
  began i t ht := by
    obtain ⟨s, hs, hnow⟩ := h.began i t ht
    exact ⟨s, List.mem_cons_of_mem e hs, hnow⟩
  ended i check hcheck ht := by
    obtain ⟨r, hr, hran⟩ := h.ended i check hcheck ht
    exact ⟨r, hr, hran.cons⟩

theorem Missed.cons (h : config.Missed past id) : config.Missed (e :: past) id := by
  obtain ⟨s, hs, hnone⟩ := h
  exact ⟨s, List.mem_cons_of_mem e hs, hnone⟩

theorem Published.cons {time : ℚ} {g : Gathered} (h : config.Published past time g) :
    config.Published (e :: past) time g := by
  obtain ⟨s, id, hs, htime, heval⟩ := h
  exact ⟨s, id, List.mem_cons_of_mem e hs, htime, heval.cons⟩

theorem ProbeOk.cons {p : Probe} (h : config.ProbeOk past id p) :
    config.ProbeOk (e :: past) id p := by
  cases p with
  | gathering g => exact ⟨h.1.cons, h.2.cons⟩
  | returned g =>
    rcases h with ⟨s, time, hs, hcache, hlt⟩ | ⟨hmissed, heval⟩
    · exact .inl ⟨s, time, List.mem_cons_of_mem e hs, hcache, hlt⟩
    · exact .inr ⟨hmissed.cons, heval.cons⟩
  | raised => exact h
  | cancelled => trivial

/-- A step that moves one probe keeps the rest. -/
theorem Consistent.setProbe (h : config.Consistent past s) {p : Probe}
    (hp : config.ProbeOk (e :: past) id p) : config.Consistent (e :: past) (s.setProbe id p) where
  probes id' p' hp' := by
    by_cases hid : id' = id
    · subst hid
      simp only [HealthState.setProbe, Function.update_self, Option.some.injEq] at hp'
      exact hp' ▸ hp
    · simp only [HealthState.setProbe, Function.update_of_ne hid] at hp'
      exact (h.probes id' p' hp').cons
  cache time g hcache := (h.cache time g hcache).cons

theorem filling_spawnAll : config.Filling past id config.spawnAll where
  slots_length := List.length_replicate
  tasks_length := List.length_replicate
  began i t ht := by simp [spawnAll, List.getElem?_replicate] at ht
  ended i check _ ht := by simp [spawnAll, List.getElem?_replicate] at ht

theorem Filling.begin {g : Gathering} {i : ℕ} (h : config.Filling past id g) :
    config.Filling ((s, .begin id i) :: past) id
      { g with tasks := g.tasks.set i (.running s.now) } where
  slots_length := h.slots_length
  tasks_length := by rw [List.length_set, h.tasks_length]
  began j t ht := by
    rw [List.getElem?_set] at ht
    split at ht
    next hij =>
      subst hij
      split at ht
      next => exact ⟨s, List.mem_cons_self, by simpa using ht⟩
      next => contradiction
    next => exact h.cons.began j t ht
  ended j check hcheck ht := by
    rw [List.getElem?_set] at ht
    split at ht
    next =>
      split at ht
      next => simp at ht
      next => contradiction
    next => exact h.cons.ended j check hcheck ht

theorem Filling.finish {g : Gathering} {i : ℕ} {check : HealthCheck} {began : ℚ}
    {ending : CheckEnding} (h : config.Filling past id g) (hcheck : config.checks[i]? = some check)
    (ht : g.tasks[i]? = some (.running began)) :
    config.Filling ((s, .finish id i ending) :: past) id
      ⟨g.slots.set i (some (runCheck check config.timeout began s.now ending)),
        g.tasks.set i .ended⟩ where
  slots_length := by rw [List.length_set, h.slots_length]
  tasks_length := by rw [List.length_set, h.tasks_length]
  began j t hj := by
    rw [List.getElem?_set] at hj
    split at hj
    next =>
      split at hj
      next => simp at hj
      next => contradiction
    next => exact h.cons.began j t hj
  ended j check' hcheck' hj := by
    obtain ⟨hlt, -⟩ := List.getElem?_eq_some_iff.mp hcheck
    rw [← h.slots_length] at hlt
    by_cases hij : i = j
    · subst hij
      rw [hcheck, Option.some.injEq] at hcheck'
      subst hcheck'
      obtain ⟨s₁, hs₁, rfl⟩ := h.cons.began i began ht
      exact ⟨_, by rw [List.getElem?_set_self hlt],
        s₁, s, ending, hs₁, List.mem_cons_self, rfl⟩
    · rw [List.getElem?_set_ne hij] at hj ⊢
      exact h.cons.ended j check' hcheck' hj

/-- When all tasks have ended every slot holds a result. -/
theorem Filling.evaluated {g : Gathering} (h : config.Filling past id g)
    (hended : ∀ t ∈ g.tasks, t = .ended) :
    ∃ results, filled g.slots = some results ∧
      config.Evaluated past id (config.evaluate results) := by
  have hslot : ∀ i check, config.checks[i]? = some check →
      ∃ r, g.slots[i]? = some (some r) ∧ config.Ran past id i check r := by
    intro i check hcheck
    obtain ⟨hlt, -⟩ := List.getElem?_eq_some_iff.mp hcheck
    rw [← h.tasks_length] at hlt
    apply h.ended i check hcheck
    rw [List.getElem?_eq_getElem hlt, hended _ (List.getElem_mem hlt)]
  obtain ⟨results, hresults⟩ : ∃ results : List HealthCheckResult, g.slots = results.map some := by
    apply exists_filled
    intro slot hmem
    obtain ⟨i, hlt, rfl⟩ := List.getElem_of_mem hmem
    have hcheck : i < config.checks.length := h.slots_length ▸ hlt
    obtain ⟨r, hr, -⟩ := hslot i _ (List.getElem?_eq_getElem hcheck)
    rw [List.getElem?_eq_getElem hlt, Option.some.injEq] at hr
    exact ⟨r, hr⟩
  refine ⟨results, by rw [hresults, filled_map_some], ?_, ?_, rfl, rfl⟩
  · rw [← h.slots_length, hresults, List.length_map]
    rfl
  · intro i check hcheck
    obtain ⟨r, hr, hran⟩ := hslot i check hcheck
    rw [hresults, List.getElem?_map, Option.map_eq_some_iff] at hr
    obtain ⟨r', hr', heq⟩ := hr
    obtain rfl := Option.some.inj heq
    exact ⟨r', hr', hran⟩

theorem Consistent.publish (h : config.Consistent past s) {g : Gathering}
    (hp : s.probes id = some (.gathering g)) (hended : ∀ t ∈ g.tasks, t = .ended) :
    config.Consistent ((s, .join id) :: past) (config.publish s id g) := by
  obtain ⟨hmissed, hfilling⟩ := h.probes id _ hp
  obtain ⟨results, hfilled, heval⟩ := hfilling.evaluated hended
  have hprobe := (h.setProbe (e := (s, .join id)) (p := .returned (config.evaluate results))
    (.inr ⟨hmissed.cons, heval.cons⟩)).probes
  rw [HealthConfig.publish, hfilled]
  refine ⟨hprobe, ?_⟩
  intro time g' hcache
  simp only [HealthState.setProbe, Option.some.injEq, Prod.mk.injEq] at hcache
  obtain ⟨rfl, rfl⟩ := hcache
  exact ⟨s, id, List.mem_cons_self, rfl, heval.cons⟩

theorem Consistent.step (h : config.Consistent past s) {l : HealthAct}
    (hstep : config.step s l = some s') : config.Consistent ((s, l) :: past) s' := by
  cases l with
  | probe id =>
    simp only [HealthConfig.step] at hstep
    split at hstep
    next => contradiction
    next =>
      split at hstep
      next g hserved =>
        obtain rfl := Option.some.inj hstep
        obtain ⟨time, hcache, hlt⟩ := served_eq_some_iff.mp hserved
        exact h.setProbe (p := .returned g) (.inl ⟨s, time, List.mem_cons_self, hcache, hlt⟩)
      next hserved =>
        obtain rfl := Option.some.inj hstep
        exact h.setProbe (p := .gathering config.spawnAll)
          ⟨⟨s, List.mem_cons_self, hserved⟩, filling_spawnAll⟩
  | begin id i =>
    simp only [HealthConfig.step] at hstep
    split at hstep
    next g hp =>
      split at hstep
      next =>
        obtain rfl := Option.some.inj hstep
        obtain ⟨hmissed, hfilling⟩ := h.probes id _ hp
        exact h.setProbe (p := .gathering _) ⟨hmissed.cons, hfilling.begin⟩
      next => contradiction
    next => contradiction
  | finish id i ending =>
    simp only [HealthConfig.step] at hstep
    split at hstep
    next g hp =>
      split at hstep
      next check began hcheck ht =>
        obtain rfl := Option.some.inj hstep
        obtain ⟨hmissed, hfilling⟩ := h.probes id _ hp
        exact h.setProbe (p := .gathering _) ⟨hmissed.cons, hfilling.finish hcheck ht⟩
      next => contradiction
    next => contradiction
  | join id =>
    simp only [HealthConfig.step] at hstep
    split at hstep
    next g hp =>
      split at hstep
      next hended =>
        obtain rfl := Option.some.inj hstep
        exact h.publish hp fun t ht => by simpa using List.all_eq_true.mp hended t ht
      next => contradiction
    next => contradiction
  | cancel id =>
    simp only [HealthConfig.step] at hstep
    split at hstep
    next =>
      obtain rfl := Option.some.inj hstep
      exact h.setProbe (p := .cancelled) trivial
    next => contradiction
  | wait seconds =>
    simp only [HealthConfig.step] at hstep
    split at hstep
    next =>
      obtain rfl := Option.some.inj hstep
      exact ⟨fun id p hp => (h.probes id p hp).cons, fun time g hg => (h.cache time g hg).cons⟩
    next => contradiction

theorem consistent_of_run {now : ℚ} (run : Run config.step (.init now) past s) :
    config.Consistent past s := by
  induction run with
  | start => exact ⟨fun id p hp => by contradiction, fun time g hg => by contradiction⟩
  | next run hstep ih => exact ih.step hstep

theorem Consistent.proceeds (h : config.Consistent past s) {g : Gathering}
    (hp : s.probes id = some (.gathering g)) : config.Proceeds s id g where
  begins i ht := by
    simp only [HealthConfig.step, hp, ht, ↓reduceIte]
    exact ⟨_, rfl⟩
  finishes i began ending ht := by
    obtain ⟨hlt, -⟩ := List.getElem?_eq_some_iff.mp ht
    rw [(h.probes id _ hp).2.tasks_length] at hlt
    simp only [HealthConfig.step, hp, ht, List.getElem?_eq_getElem hlt]
    exact ⟨_, rfl⟩
  returns hended := by
    obtain ⟨results, hfilled, -⟩ := (h.probes id _ hp).2.evaluated hended
    have hall : g.tasks.all (· = .ended) = true := by simpa using hended
    simp only [HealthConfig.step, hp, hall, ↓reduceIte, HealthConfig.publish, hfilled]
    exact ⟨_, config.evaluate results, rfl, by simp [HealthState.setProbe]⟩

/-- A database that answers and a broker that does not. -/
def serviceChecks : HealthConfig := { checks := [⟨some "check_db", "function"⟩, ⟨none, "Broker"⟩] }

end HealthConfig

end FastapiM8
