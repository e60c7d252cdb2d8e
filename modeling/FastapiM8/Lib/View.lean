import FastapiM8.Lib.Pool

/-! Noninterference between the tasks of a pool. A view is a part of the shared state; a task
that only performs operations whose answers the view determines learns nothing else. -/

namespace Run

variable {σ Λ ω ν : Type*} {step : σ → Λ → Option σ}

/-- What an observer sees of a history. -/
def observed (observe : Λ → Option ω) (past : List (σ × Λ)) : List ω :=
  past.filterMap fun e => observe e.2

variable {observe : Λ → Option ω} {past : List (σ × Λ)} {s : σ} {l : Λ}

theorem observed_cons_none (h : observe l = none) :
    observed observe ((s, l) :: past) = observed observe past := by
  simp [observed, h]

theorem observed_cons_some {o : ω} (h : observe l = some o) :
    observed observe ((s, l) :: past) = o :: observed observe past := by
  simp [observed, h]

theorem observed_eq_filterMap (past : List (σ × Λ)) :
    observed observe past = (past.map Prod.snd).filterMap observe := by
  simp [observed, List.filterMap_map]

/-- Unwinding: when unobserved steps keep the view and observed ones act on it alike, two runs
with the same observations end in the same view. -/
theorem agree {I : σ → Prop} {view : σ → ν}
    (hI : ∀ s l s', I s → step s l = some s' → I s')
    (hquiet : ∀ s l s', I s → step s l = some s' → observe l = none → view s' = view s)
    (hstep : ∀ s₁ s₂ l₁ l₂ s₁' s₂' o, I s₁ → I s₂ → view s₁ = view s₂ → observe l₁ = some o →
      observe l₂ = some o → step s₁ l₁ = some s₁' → step s₂ l₂ = some s₂' → view s₁' = view s₂')
    {a₁ a₂ s₁ s₂ : σ} {past₁ past₂ : List (σ × Λ)} (h₁ : Run step a₁ past₁ s₁)
    (h₂ : Run step a₂ past₂ s₂) (ha₁ : I a₁) (ha₂ : I a₂) (ha : view a₁ = view a₂)
    (hsame : observed observe past₁ = observed observe past₂) : view s₁ = view s₂ := by
  induction h₁ generalizing past₂ s₂ with
  | start =>
    induction h₂ with
    | start => exact ha
    | @next past s l s' run h ih =>
      cases hl : observe l with
      | some o =>
        rw [observed_cons_some hl] at hsame
        contradiction
      | none =>
        rw [observed_cons_none hl] at hsame
        rw [hquiet s l s' (run.invariant hI ha₂) h hl]
        exact ih hsame
  | @next past₁ s₁ l₁ s₁' run₁ h₁ ih =>
    have hi₁ := run₁.invariant hI ha₁
    cases hl₁ : observe l₁ with
    | none =>
      rw [observed_cons_none hl₁] at hsame
      rw [hquiet s₁ l₁ s₁' hi₁ h₁ hl₁]
      exact ih h₂ hsame
    | some o =>
      rw [observed_cons_some hl₁] at hsame
      -- the second run moves on to the step that makes the same observation
      induction h₂ with
      | start => contradiction
      | @next past₂ s₂ l₂ s₂' run₂ h₂ ih₂ =>
        have hi₂ := run₂.invariant hI ha₂
        cases hl₂ : observe l₂ with
        | none =>
          rw [observed_cons_none hl₂] at hsame
          rw [hquiet s₂ l₂ s₂' hi₂ h₂ hl₂]
          exact ih₂ hsame
        | some o' =>
          rw [observed_cons_some hl₂] at hsame
          obtain ⟨rfl, hrest⟩ := List.cons.inj hsame
          exact hstep s₁ s₂ l₁ l₂ s₁' s₂' o hi₁ hi₂ (ih run₂ hrest) hl₁ hl₂ h₁ h₂

end Run

namespace Prog

variable {Op : Type} {Ans : Op → Type} {α β σ ν : Type} {P : Op → Prop}

/-- The program performs only operations that satisfy `P`. -/
def Only (P : Op → Prop) : Prog Op Ans α → Prop
  | .ret _ => True
  | .call o k => P o ∧ ∀ a, (k a).Only P

theorem Only.bind {p : Prog Op Ans α} {f : α → Prog Op Ans β} (hp : p.Only P)
    (hf : ∀ a, (f a).Only P) : (p >>= f).Only P := by
  induction p with
  | ret a => exact hf a
  | call o k ih => exact ⟨hp.1, fun a => ih a (hp.2 a)⟩

variable {exec : (o : Op) → σ → Option (Ans o × σ)} {view : σ → ν} {p : Prog Op Ans α}

theorem Only.settle (hp : p.Only P) (s : σ) : (p.settle exec s).1.Only P := by
  induction p generalizing s with
  | ret a => trivial
  | call o k ih =>
    cases he : exec o s with
    | none =>
      rw [settle_call_none he]
      exact hp
    | some r =>
      rw [settle_call_some he]
      exact ih r.1 (hp.2 r.1) r.2

/-- A segment keeps the view when its operations do. -/
theorem view_settle (hexec : ∀ o s a s', exec o s = some (a, s') → view s' = view s)
    (p : Prog Op Ans α) (s : σ) : view (p.settle exec s).2 = view s := by
  induction p generalizing s with
  | ret a => rfl
  | call o k ih =>
    cases he : exec o s with
    | none => rw [settle_call_none he]
    | some r =>
      rw [settle_call_some he, ih r.1 r.2]
      exact hexec o s r.1 r.2 he

/-- A program whose operations are answered from the view runs alike in states that agree on
the view. -/
theorem Only.settle_agree (hp : p.Only P)
    (hexec : ∀ o s a s', exec o s = some (a, s') → view s' = view s)
    (hblind : ∀ o, P o → ∀ s₁ s₂, view s₁ = view s₂ →
      (exec o s₁).map Prod.fst = (exec o s₂).map Prod.fst) {s₁ s₂ : σ}
    (hview : view s₁ = view s₂) : (p.settle exec s₁).1 = (p.settle exec s₂).1 := by
  induction p generalizing s₁ s₂ with
  | ret a => rfl
  | call o k ih =>
    have hans := hblind o hp.1 s₁ s₂ hview
    cases he₁ : exec o s₁ with
    | none =>
      have he₂ : exec o s₂ = none := by
        rw [he₁] at hans
        exact Option.map_eq_none_iff.mp hans.symm
      rw [settle_call_none he₁, settle_call_none he₂]
    | some r₁ =>
      obtain ⟨a, s₁'⟩ := r₁
      rw [he₁] at hans
      obtain ⟨⟨b, s₂'⟩, he₂, rfl⟩ := Option.map_eq_some_iff.mp hans.symm
      rw [settle_call_some he₁, settle_call_some he₂]
      refine ih b (hp.2 b) ?_
      rw [hexec o s₁ b s₁' he₁, hexec o s₂ b s₂' he₂, hview]

end Prog

/-- What is observed of the steps of a pool: everything about one task, and the events that
show up in the view. -/
def Act.observe {Spec Answer Ev ω : Type} (id : ℕ) (low : Ev → Option ω) :
    Act Spec Answer Ev → Option (Act Spec Answer ω)
  | .spawn id' spec => if id' = id then some (.spawn id spec) else none
  | .resume id' answer => if id' = id then some (.resume id answer) else none
  | .wake id' => if id' = id then some (.wake id) else none
  | .env e => (low e).map .env

namespace Scheduler

variable {Op : Type} {Ans : Op → Type} {σ Spec Answer Ev ρ ν ω : Type}

/-- A view of the shared state that no operation changes, with the operations it answers and
the events that act on it. -/
structure View (M : Scheduler Op Ans σ Spec Answer Ev ρ) (ν ω : Type) where
  view : σ → ν
  blind : Op → Prop
  low : Ev → Option ω
  exec_view : ∀ o s a s', M.exec o s = some (a, s') → view s' = view s
  exec_blind : ∀ o, blind o → ∀ s₁ s₂, view s₁ = view s₂ →
    (M.exec o s₁).map Prod.fst = (M.exec o s₂).map Prod.fst
  env_quiet : ∀ e s s', low e = none → M.env s e = some s' → view s' = view s
  env_low : ∀ e₁ e₂ x s₁ s₂ s₁' s₂', low e₁ = some x → low e₂ = some x → view s₁ = view s₂ →
    M.env s₁ e₁ = some s₁' → M.env s₂ e₂ = some s₂' → view s₁' = view s₂'

namespace View

variable {M : Scheduler Op Ans σ Spec Answer Ev ρ} (V : M.View ν ω)

/-- What a task can learn: the view, and its own course. -/
def of (id : ℕ) (w : Pool Op Ans σ Spec ρ) : ν × Option (Thread Op Ans Spec ρ) :=
  (V.view w.shared, w.tasks id)

/-- The task has started and performs only operations that the view answers. -/
def Blind (id : ℕ) (w : Pool Op Ans σ Spec ρ) : Prop :=
  ∃ t, w.tasks id = some t ∧ t.prog.Only V.blind

variable {V} {id : ℕ} {w w' : Pool Op Ans σ Spec ρ} {l : Act Spec Answer Ev}

theorem Blind.step (hw : V.Blind id w) (h : M.step w l = some w') : V.Blind id w' := by
  obtain ⟨t, ht, honly⟩ := hw
  have hpark : ∀ id' spec (r : Prog Op Ans ρ × σ), (id' = id → r.1.Only V.blind) →
      V.Blind id (w.park id' spec r) := by
    intro id' spec r hr
    by_cases hid : id' = id
    · subst hid
      exact ⟨_, Pool.park_tasks_self w id' spec r, hr rfl⟩
    · exact ⟨t, by rw [Pool.park_tasks_of_ne w spec r (Ne.symm hid), ht], honly⟩
  cases l with
  | spawn id' spec =>
    obtain ⟨hnew, rfl⟩ := step_spawn_iff.mp h
    refine hpark id' spec _ fun hid => ?_
    rw [hid, ht] at hnew
    contradiction
  | resume id' answer =>
    obtain ⟨spec, o, k, a, ht', -, rfl⟩ := step_resume_iff.mp h
    refine hpark id' spec _ fun hid => ?_
    rw [hid, ht] at ht'
    obtain rfl := Option.some.inj ht'
    exact (honly.2 a).settle w.shared
  | wake id' =>
    obtain ⟨spec, o, k, a, s, ht', -, rfl⟩ := step_wake_iff.mp h
    refine hpark id' spec _ fun hid => ?_
    rw [hid, ht] at ht'
    obtain rfl := Option.some.inj ht'
    exact (honly.2 a).settle s
  | env e =>
    obtain ⟨s, -, rfl⟩ := step_env_iff.mp h
    exact ⟨t, ht, honly⟩

theorem of_park {id' : ℕ} {spec : Spec} {r : Prog Op Ans ρ × σ} (hne : id' ≠ id)
    (hview : V.view r.2 = V.view w.shared) : V.of id (w.park id' spec r) = V.of id w := by
  refine Prod.ext hview ?_
  exact Pool.park_tasks_of_ne w spec r (Ne.symm hne)

/-- Other tasks and unobserved events change nothing that the task can learn. -/
theorem of_quiet (h : M.step w l = some w') (hl : l.observe id V.low = none) :
    V.of id w' = V.of id w := by
  cases l with
  | spawn id' spec =>
    obtain ⟨-, rfl⟩ := step_spawn_iff.mp h
    have hne : id' ≠ id := fun hid => by simp [Act.observe, hid] at hl
    exact of_park hne (Prog.view_settle V.exec_view _ _)
  | resume id' answer =>
    obtain ⟨spec, o, k, a, -, -, rfl⟩ := step_resume_iff.mp h
    have hne : id' ≠ id := fun hid => by simp [Act.observe, hid] at hl
    exact of_park hne (Prog.view_settle V.exec_view _ _)
  | wake id' =>
    obtain ⟨spec, o, k, a, s, -, ha, rfl⟩ := step_wake_iff.mp h
    have hne : id' ≠ id := fun hid => by simp [Act.observe, hid] at hl
    refine of_park hne ?_
    rw [Prog.view_settle V.exec_view]
    exact V.exec_view o w.shared a s ha
  | env e =>
    obtain ⟨s, hs, rfl⟩ := step_env_iff.mp h
    exact Prod.ext (V.env_quiet e w.shared s (Option.map_eq_none_iff.mp hl) hs) rfl

/-- A blind program settles alike in two states with the same view. -/
theorem park_agree {spec : Spec} {p : Prog Op Ans ρ} {s₁ s₂ : σ} {w₁ w₂ : Pool Op Ans σ Spec ρ}
    (honly : p.Only V.blind) (hview : V.view s₁ = V.view s₂) :
    V.of id (w₁.park id spec (p.settle M.exec s₁)) =
      V.of id (w₂.park id spec (p.settle M.exec s₂)) := by
  refine Prod.ext ?_ ?_
  · change V.view (p.settle M.exec s₁).2 = V.view (p.settle M.exec s₂).2
    rw [Prog.view_settle V.exec_view, Prog.view_settle V.exec_view, hview]
  · change (w₁.park id spec _).tasks id = (w₂.park id spec _).tasks id
    rw [Pool.park_tasks_self, Pool.park_tasks_self,
      honly.settle_agree V.exec_view V.exec_blind hview]

/-- A blind task starts alike in two states with the same view. -/
theorem of_spawn {spec : Spec} {w₁ w₂ v₁ v₂ : Pool Op Ans σ Spec ρ}
    (honly : (M.body spec).Only V.blind) (hview : V.view w₁.shared = V.view w₂.shared)
    (h₁ : M.step w₁ (.spawn id spec) = some v₁) (h₂ : M.step w₂ (.spawn id spec) = some v₂) :
    V.Blind id v₁ ∧ V.Blind id v₂ ∧ V.of id v₁ = V.of id v₂ := by
  obtain ⟨-, rfl⟩ := step_spawn_iff.mp h₁
  obtain ⟨-, rfl⟩ := step_spawn_iff.mp h₂
  exact ⟨⟨_, Pool.park_tasks_self w₁ id spec _, honly.settle w₁.shared⟩,
    ⟨_, Pool.park_tasks_self w₂ id spec _, honly.settle w₂.shared⟩, park_agree honly hview⟩

/-- The same observed step does the same to what a blind task can learn. -/
theorem of_observed {w₁ w₂ w₁' w₂' : Pool Op Ans σ Spec ρ} {l₁ l₂ : Act Spec Answer Ev}
    {x : Act Spec Answer ω} (hw₁ : V.Blind id w₁) (hof : V.of id w₁ = V.of id w₂)
    (hl₁ : l₁.observe id V.low = some x) (hl₂ : l₂.observe id V.low = some x)
    (h₁ : M.step w₁ l₁ = some w₁') (h₂ : M.step w₂ l₂ = some w₂') :
    V.of id w₁' = V.of id w₂' := by
  obtain ⟨hview, htask⟩ := Prod.mk.inj hof
  obtain ⟨t, ht, honly⟩ := hw₁
  cases l₁ with
  | spawn id' spec =>
    obtain ⟨hid, -⟩ := Option.ite_none_right_eq_some.mp hl₁
    obtain ⟨hnew, -⟩ := step_spawn_iff.mp h₁
    rw [hid, ht] at hnew
    contradiction
  | resume id' answer =>
    obtain ⟨rfl, hx⟩ := Option.ite_none_right_eq_some.mp hl₁
    obtain rfl := Option.some.inj hx
    obtain rfl : l₂ = .resume id' answer := by
      cases l₂ <;> simp_all [Act.observe]
    obtain ⟨spec₁, o₁, k₁, a₁, ht₁, ha₁, rfl⟩ := step_resume_iff.mp h₁
    obtain ⟨spec₂, o₂, k₂, a₂, ht₂, ha₂, rfl⟩ := step_resume_iff.mp h₂
    rw [← htask, ht₁] at ht₂
    cases ht₂
    obtain rfl := Option.some.inj (ha₁.symm.trans ha₂)
    obtain rfl := Option.some.inj (ht.symm.trans ht₁)
    exact park_agree (honly.2 a₁) hview
  | wake id' =>
    obtain ⟨rfl, hx⟩ := Option.ite_none_right_eq_some.mp hl₁
    obtain rfl := Option.some.inj hx
    obtain rfl : l₂ = .wake id' := by
      cases l₂ <;> simp_all [Act.observe]
    obtain ⟨spec₁, o₁, k₁, a₁, s₁, ht₁, ha₁, rfl⟩ := step_wake_iff.mp h₁
    obtain ⟨spec₂, o₂, k₂, a₂, s₂, ht₂, ha₂, rfl⟩ := step_wake_iff.mp h₂
    rw [← htask, ht₁] at ht₂
    cases ht₂
    obtain rfl := Option.some.inj (ht.symm.trans ht₁)
    have hans := V.exec_blind o₁ honly.1 _ _ hview
    rw [ha₁, ha₂] at hans
    obtain rfl : a₁ = a₂ := Option.some.inj hans
    refine park_agree (honly.2 a₁) ?_
    rw [V.exec_view _ _ _ _ ha₁, V.exec_view _ _ _ _ ha₂, hview]
  | env e₁ =>
    obtain ⟨y, hy₁, rfl⟩ := Option.map_eq_some_iff.mp hl₁
    cases l₂ with
    | env e₂ =>
      obtain ⟨y', hy₂, hyy⟩ := Option.map_eq_some_iff.mp hl₂
      obtain rfl := Act.env.inj hyy
      obtain ⟨s₁, hs₁, rfl⟩ := step_env_iff.mp h₁
      obtain ⟨s₂, hs₂, rfl⟩ := step_env_iff.mp h₂
      exact Prod.ext (V.env_low e₁ e₂ y' _ _ s₁ s₂ hy₁ hy₂ hview hs₁ hs₂) htask
    | _ => simp [Act.observe] at hl₂

/-- Noninterference: a blind task takes the same course in two runs that look the same to it,
from states that agree on the view. -/
theorem agree {w₁ w₂ w₁' w₂' : Pool Op Ans σ Spec ρ}
    {past₁ past₂ : List (Pool Op Ans σ Spec ρ × Act Spec Answer Ev)}
    (h₁ : Run M.step w₁ past₁ w₁') (h₂ : Run M.step w₂ past₂ w₂') (hw₁ : V.Blind id w₁)
    (hw₂ : V.Blind id w₂) (hof : V.of id w₁ = V.of id w₂)
    (hsame : Run.observed (Act.observe id V.low) past₁ =
      Run.observed (Act.observe id V.low) past₂) : V.of id w₁' = V.of id w₂' := by
  have hI : ∀ w l w', V.Blind id w → M.step w l = some w' → V.Blind id w' :=
    fun _ _ _ hw h => hw.step h
  have hquiet : ∀ w l w', V.Blind id w → M.step w l = some w' → l.observe id V.low = none →
      V.of id w' = V.of id w := fun _ _ _ _ h hl => of_quiet h hl
  have hstep : ∀ w₁ w₂ l₁ l₂ w₁' w₂' x, V.Blind id w₁ → V.Blind id w₂ → V.of id w₁ = V.of id w₂ →
      l₁.observe id V.low = some x → l₂.observe id V.low = some x → M.step w₁ l₁ = some w₁' →
      M.step w₂ l₂ = some w₂' → V.of id w₁' = V.of id w₂' :=
    fun _ _ _ _ _ _ _ hw _ hof hl₁ hl₂ h₁ h₂ => of_observed hw hof hl₁ hl₂ h₁ h₂
  exact Run.agree hI hquiet hstep h₁ h₂ hw₁ hw₂ hof hsame

end View

end Scheduler
