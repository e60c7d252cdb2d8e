import FastapiM8.Lib.History
import FastapiM8.Lib.Program

/-! Cooperative scheduling of coroutines over a shared state. A pool holds the shared state
and the tasks that were started on it; a step starts a task, delivers the answer a task is
suspended on, or lets the environment act, and runs the task's next segment atomically. -/

/-- What the tasks of a pool run and how the shared state answers them. -/
structure Scheduler (Op : Type) (Ans : Op → Type) (σ Spec Answer Ev ρ : Type) where
  body : Spec → Prog Op Ans ρ
  exec : (o : Op) → σ → Option (Ans o × σ)
  decode : (o : Op) → Answer → Option (Ans o)
  env : σ → Ev → Option σ

/-- A started task and what it still has to run. -/
structure Thread (Op : Type) (Ans : Op → Type) (Spec ρ : Type) where
  spec : Spec
  prog : Prog Op Ans ρ

structure Pool (Op : Type) (Ans : Op → Type) (σ Spec ρ : Type) where
  shared : σ
  tasks : ℕ → Option (Thread Op Ans Spec ρ)

/-- The ways a pool can move. `resume` answers an operation from outside, `wake` retries an
operation of the shared state that was not available before. -/
inductive Act (Spec Answer Ev : Type) where
  | spawn (id : ℕ) (spec : Spec)
  | resume (id : ℕ) (answer : Answer)
  | wake (id : ℕ)
  | env (e : Ev)

/-- The step runs a segment of the task `id`. -/
def Act.Runs {Spec Answer Ev : Type} (l : Act Spec Answer Ev) (id : ℕ) : Prop :=
  (∃ spec, l = .spawn id spec) ∨ (∃ answer, l = .resume id answer) ∨ l = .wake id

theorem Act.Runs.unique {Spec Answer Ev : Type} {l : Act Spec Answer Ev} {id id' : ℕ}
    (h : l.Runs id) (h' : l.Runs id') : id = id' := by
  rcases h with ⟨spec, rfl⟩ | ⟨answer, rfl⟩ | rfl <;>
    rcases h' with ⟨spec', heq⟩ | ⟨answer', heq⟩ | heq <;> cases heq <;> rfl

namespace Pool

variable {Op : Type} {Ans : Op → Type} {σ Spec ρ : Type}

/-- A shared state on which nothing was started yet. -/
def idle (s : σ) : Pool Op Ans σ Spec ρ := ⟨s, fun _ => none⟩

/-- Leave a task where its segment ended. -/
def park (w : Pool Op Ans σ Spec ρ) (id : ℕ) (spec : Spec) (r : Prog Op Ans ρ × σ) :
    Pool Op Ans σ Spec ρ :=
  ⟨r.2, Function.update w.tasks id (some ⟨spec, r.1⟩)⟩

@[simp] theorem park_shared (w : Pool Op Ans σ Spec ρ) (id : ℕ) (spec : Spec)
    (r : Prog Op Ans ρ × σ) : (w.park id spec r).shared = r.2 := rfl

@[simp] theorem park_tasks_self (w : Pool Op Ans σ Spec ρ) (id : ℕ) (spec : Spec)
    (r : Prog Op Ans ρ × σ) : (w.park id spec r).tasks id = some ⟨spec, r.1⟩ := by
  simp [park]

theorem park_tasks_of_ne (w : Pool Op Ans σ Spec ρ) {id id' : ℕ} (spec : Spec)
    (r : Prog Op Ans ρ × σ) (h : id' ≠ id) : (w.park id spec r).tasks id' = w.tasks id' := by
  simp [park, h]

/-- The task has been started and has not ended. -/
def Pending (w : Pool Op Ans σ Spec ρ) (id : ℕ) : Prop :=
  ∃ spec o k, w.tasks id = some ⟨spec, .call o k⟩

/-- The operation that a task is suspended on. -/
def awaits (w : Pool Op Ans σ Spec ρ) (id : ℕ) : Option Op :=
  (w.tasks id).bind fun t => t.prog.awaits

theorem awaits_of_tasks {w : Pool Op Ans σ Spec ρ} {id : ℕ} {t : Thread Op Ans Spec ρ}
    (h : w.tasks id = some t) : w.awaits id = t.prog.awaits := by
  simp [awaits, h]

@[simp] theorem awaits_park_self (w : Pool Op Ans σ Spec ρ) (id : ℕ) (spec : Spec)
    (r : Prog Op Ans ρ × σ) : (w.park id spec r).awaits id = r.1.awaits :=
  awaits_of_tasks (park_tasks_self w id spec r)

theorem awaits_eq_some {w : Pool Op Ans σ Spec ρ} {id : ℕ} {o : Op} (h : w.awaits id = some o) :
    ∃ spec k, w.tasks id = some ⟨spec, .call o k⟩ := by
  obtain ⟨⟨spec, prog⟩, ht, ho⟩ := Option.bind_eq_some_iff.mp h
  cases prog with
  | ret r => contradiction
  | call o' k =>
    obtain rfl := Option.some.inj ho
    exact ⟨spec, k, ht⟩

theorem pending_iff {w : Pool Op Ans σ Spec ρ} {id : ℕ} :
    w.Pending id ↔ (w.awaits id).isSome = true := by
  constructor
  · rintro ⟨spec, o, k, ht⟩
    simp [awaits, ht]
  · intro h
    obtain ⟨o, ho⟩ := Option.isSome_iff_exists.mp h
    obtain ⟨spec, k, ht⟩ := awaits_eq_some ho
    exact ⟨spec, o, k, ht⟩

/-- The result of a finished task. -/
def result (w : Pool Op Ans σ Spec ρ) (id : ℕ) : Option ρ :=
  match w.tasks id with
  | some ⟨_, .ret r⟩ => some r
  | _ => none

theorem tasks_of_result {w : Pool Op Ans σ Spec ρ} {id : ℕ} {spec : Spec} {r : ρ}
    (hresult : w.result id = some r) (hspec : (w.tasks id).map Thread.spec = some spec) :
    w.tasks id = some ⟨spec, .ret r⟩ := by
  unfold result at hresult
  split at hresult
  next spec' r' ht =>
    rw [ht] at hspec
    obtain rfl := Option.some.inj hresult
    obtain rfl := Option.some.inj hspec
    exact ht
  next => contradiction

end Pool

namespace Scheduler

variable {Op : Type} {Ans : Op → Type} {σ Spec Answer Ev ρ : Type}
  (M : Scheduler Op Ans σ Spec Answer Ev ρ)

def step (w : Pool Op Ans σ Spec ρ) : Act Spec Answer Ev → Option (Pool Op Ans σ Spec ρ)
  | .spawn id spec =>
    match w.tasks id with
    | some _ => none
    | none => some (w.park id spec ((M.body spec).settle M.exec w.shared))
  | .resume id answer =>
    match w.tasks id with
    | some ⟨spec, .call o k⟩ =>
      match M.decode o answer with
      | some a => some (w.park id spec ((k a).settle M.exec w.shared))
      | none => none
    | _ => none
  | .wake id =>
    match w.tasks id with
    | some ⟨spec, .call o k⟩ =>
      match M.exec o w.shared with
      | some (a, s) => some (w.park id spec ((k a).settle M.exec s))
      | none => none
    | _ => none
  | .env e => (M.env w.shared e).map fun s => { w with shared := s }

variable {M} {w w' : Pool Op Ans σ Spec ρ}

theorem step_spawn_iff {id : ℕ} {spec : Spec} :
    M.step w (.spawn id spec) = some w' ↔
      w.tasks id = none ∧ w' = w.park id spec ((M.body spec).settle M.exec w.shared) := by
  simp only [step]
  cases w.tasks id <;> simp [eq_comm]

theorem step_resume_iff {id : ℕ} {answer : Answer} :
    M.step w (.resume id answer) = some w' ↔
      ∃ (spec : Spec) (o : Op) (k : Ans o → Prog Op Ans ρ) (a : Ans o),
        w.tasks id = some ⟨spec, .call o k⟩ ∧ M.decode o answer = some a ∧
        w' = w.park id spec ((k a).settle M.exec w.shared) := by
  constructor
  · intro h
    simp only [step] at h
    split at h
    next spec o k ht =>
      split at h
      next a ha => exact ⟨spec, o, k, a, ht, ha, (Option.some.inj h).symm⟩
      next => contradiction
    next => contradiction
  · rintro ⟨spec, o, k, a, ht, ha, rfl⟩
    simp only [step, ht, ha]

theorem step_wake_iff {id : ℕ} :
    M.step w (.wake id) = some w' ↔
      ∃ (spec : Spec) (o : Op) (k : Ans o → Prog Op Ans ρ) (a : Ans o) (s : σ),
        w.tasks id = some ⟨spec, .call o k⟩ ∧ M.exec o w.shared = some (a, s) ∧
        w' = w.park id spec ((k a).settle M.exec s) := by
  constructor
  · intro h
    simp only [step] at h
    split at h
    next spec o k ht =>
      split at h
      next a s ha => exact ⟨spec, o, k, a, s, ht, ha, (Option.some.inj h).symm⟩
      next => contradiction
    next => contradiction
  · rintro ⟨spec, o, k, a, s, ht, ha, rfl⟩
    simp only [step, ht, ha]

theorem step_env_iff {e : Ev} :
    M.step w (.env e) = some w' ↔ ∃ s, M.env w.shared e = some s ∧ w' = { w with shared := s } := by
  simp only [step, Option.map_eq_some_iff]
  exact exists_congr fun s => and_congr_right fun _ => eq_comm

/-- A step leaves alone every task but the one it runs. -/
theorem step_tasks {l : Act Spec Answer Ev} {id : ℕ} (h : M.step w l = some w')
    (hid : ¬ l.Runs id) : w'.tasks id = w.tasks id := by
  cases l with
  | spawn id' spec =>
    obtain ⟨-, rfl⟩ := step_spawn_iff.mp h
    exact Pool.park_tasks_of_ne w _ _ fun heq => hid (.inl ⟨spec, heq ▸ rfl⟩)
  | resume id' answer =>
    obtain ⟨spec, o, k, a, -, -, rfl⟩ := step_resume_iff.mp h
    exact Pool.park_tasks_of_ne w _ _ fun heq => hid (.inr (.inl ⟨answer, heq ▸ rfl⟩))
  | wake id' =>
    obtain ⟨spec, o, k, a, s, -, -, rfl⟩ := step_wake_iff.mp h
    exact Pool.park_tasks_of_ne w _ _ fun heq => hid (.inr (.inr (heq ▸ rfl)))
  | env e =>
    obtain ⟨s, -, rfl⟩ := step_env_iff.mp h
    rfl

/-- A finished task stays as it ended. -/
theorem step_done {l : Act Spec Answer Ev} {id : ℕ} {spec : Spec} {r : ρ}
    (h : M.step w l = some w') (ht : w.tasks id = some ⟨spec, .ret r⟩) :
    w'.tasks id = some ⟨spec, .ret r⟩ := by
  rw [← ht]
  refine step_tasks h ?_
  rintro (⟨spec', rfl⟩ | ⟨answer, rfl⟩ | rfl)
  · obtain ⟨hnew, -⟩ := step_spawn_iff.mp h
    rw [ht] at hnew
    contradiction
  · obtain ⟨spec', o, k, a, ht', -⟩ := step_resume_iff.mp h
    simp [ht] at ht'
  · obtain ⟨spec', o, k, a, s, ht', -⟩ := step_wake_iff.mp h
    simp [ht] at ht'

theorem run_done {w₀ : Pool Op Ans σ Spec ρ}
    {past : List (Pool Op Ans σ Spec ρ × Act Spec Answer Ev)} (run : Run M.step w₀ past w)
    {id : ℕ} {spec : Spec} {r : ρ} (ht : w₀.tasks id = some ⟨spec, .ret r⟩) :
    w.tasks id = some ⟨spec, .ret r⟩ :=
  run.invariant (I := fun w => w.tasks id = some ⟨spec, .ret r⟩)
    (fun _ _ _ hdone h => step_done h hdone) ht

/-- Every task of a reached pool was started in the run, for what it still carries. -/
theorem spawned {s : σ} {past : List (Pool Op Ans σ Spec ρ × Act Spec Answer Ev)}
    (run : Run M.step (Pool.idle s) past w) {id : ℕ} {t : Thread Op Ans Spec ρ}
    (ht : w.tasks id = some t) : ∃ w₁, (w₁, .spawn id t.spec) ∈ past := by
  induction run generalizing t with
  | start => simp [Pool.idle] at ht
  | @next past w l w' run h ih =>
    have hkept : ∀ t', w.tasks id = some t' → t'.spec = t.spec →
        ∃ w₁, (w₁, .spawn id t.spec) ∈ (w, l) :: past := by
      intro t' ht' hspec
      obtain ⟨w₁, hmem⟩ := ih ht'
      rw [hspec] at hmem
      exact ⟨w₁, List.mem_cons_of_mem _ hmem⟩
    have hpark : ∀ id' spec (r : Prog Op Ans ρ × σ), (w.park id' spec r).tasks id = some t →
        id' = id ∧ t.spec = spec ∨ w.tasks id = some t := by
      intro id' spec r ht
      by_cases hid : id' = id
      · subst hid
        rw [Pool.park_tasks_self] at ht
        obtain rfl := Option.some.inj ht
        exact .inl ⟨rfl, rfl⟩
      · rw [Pool.park_tasks_of_ne w spec r (Ne.symm hid)] at ht
        exact .inr ht
    cases l with
    | spawn id' spec =>
      obtain ⟨-, rfl⟩ := step_spawn_iff.mp h
      rcases hpark id' spec _ ht with ⟨rfl, rfl⟩ | hold
      · exact ⟨w, List.mem_cons_self⟩
      · exact hkept t hold rfl
    | resume id' answer =>
      obtain ⟨spec, o, k, a, ht', -, rfl⟩ := step_resume_iff.mp h
      rcases hpark id' spec _ ht with ⟨rfl, hspec⟩ | hold
      · exact hkept _ ht' hspec.symm
      · exact hkept t hold rfl
    | wake id' =>
      obtain ⟨spec, o, k, a, s, ht', -, rfl⟩ := step_wake_iff.mp h
      rcases hpark id' spec _ ht with ⟨rfl, hspec⟩ | hold
      · exact hkept _ ht' hspec.symm
      · exact hkept t hold rfl
    | env e =>
      obtain ⟨s, -, rfl⟩ := step_env_iff.mp h
      exact hkept t ht rfl

/-- The tasks of a pool obey a guarantee that may depend on what they were started for. -/
def Guaranteed (M : Scheduler Op Ans σ Spec Answer Ev ρ)
    (G : Spec → (o : Op) → Ans o → σ → Prog Op Ans ρ × σ → Prop) (w : Pool Op Ans σ Spec ρ) :
    Prop :=
  ∀ id t, w.tasks id = some t → Prog.Obeys M.exec (G t.spec) t.prog

theorem guaranteed_idle (G : Spec → (o : Op) → Ans o → σ → Prog Op Ans ρ × σ → Prop) (s : σ) :
    M.Guaranteed G (Pool.idle s) := by
  intro id t ht
  simp [Pool.idle] at ht

private theorem guaranteed_park {G : Spec → (o : Op) → Ans o → σ → Prog Op Ans ρ × σ → Prop}
    (hw : M.Guaranteed G w) {id : ℕ} {spec : Spec} {r : Prog Op Ans ρ × σ}
    (hr : Prog.Obeys M.exec (G spec) r.1) : M.Guaranteed G (w.park id spec r) := by
  intro id' t ht
  by_cases hid : id' = id
  · subst hid
    rw [Pool.park_tasks_self] at ht
    obtain rfl := Option.some.inj ht
    exact hr
  · rw [Pool.park_tasks_of_ne w spec r hid] at ht
    exact hw id' t ht

/-- When every task starts out obeying its guarantee, every step keeps the tasks obeying it. -/
theorem guaranteed_step {G : Spec → (o : Op) → Ans o → σ → Prog Op Ans ρ × σ → Prop}
    (hbody : ∀ spec s, Prog.Obeys M.exec (G spec) ((M.body spec).settle M.exec s).1)
    (w : Pool Op Ans σ Spec ρ) (l : Act Spec Answer Ev) (w' : Pool Op Ans σ Spec ρ)
    (hw : M.Guaranteed G w) (h : M.step w l = some w') : M.Guaranteed G w' := by
  cases l with
  | spawn id spec =>
    obtain ⟨-, rfl⟩ := step_spawn_iff.mp h
    exact guaranteed_park hw (hbody spec w.shared)
  | resume id answer =>
    obtain ⟨spec, o, k, a, ht, -, rfl⟩ := step_resume_iff.mp h
    cases hw id _ ht with
    | call _ _ _ later => exact guaranteed_park hw (later a w.shared)
  | wake id =>
    obtain ⟨spec, o, k, a, s, ht, -, rfl⟩ := step_wake_iff.mp h
    cases hw id _ ht with
    | call _ _ _ later => exact guaranteed_park hw (later a s)
  | env e =>
    obtain ⟨s, -, rfl⟩ := step_env_iff.mp h
    exact hw

/-- The segment that an answer starts obeys the guarantee of its task. -/
theorem Guaranteed.segment {G : Spec → (o : Op) → Ans o → σ → Prog Op Ans ρ × σ → Prop}
    (hw : M.Guaranteed G w) {id : ℕ} {spec : Spec} {o : Op} {k : Ans o → Prog Op Ans ρ}
    (ht : w.tasks id = some ⟨spec, .call o k⟩) (a : Ans o) (s : σ) :
    G spec o a s ((k a).settle M.exec s) := by
  cases hw id _ ht with
  | call _ _ segment _ => exact segment a s

end Scheduler
