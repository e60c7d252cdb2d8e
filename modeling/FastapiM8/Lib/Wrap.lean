import FastapiM8.Lib.Pool

/-! One scheduler over another. A task of the outer scheduler makes at most one call of the inner
one and works on its result alone; an event of the outer scheduler is at most one event of the
inner one. Every run of the outer scheduler is then a run of the inner one on the same state. -/

namespace Scheduler

variable {Op : Type} {Ans : Op → Type} {σ Spec Spec' Answer Ev Ev' ρ ρ' : Type}

/-- How the tasks and the events of an outer scheduler use those of an inner one. -/
structure Wraps (N : Scheduler Op Ans σ Spec' Answer Ev' ρ')
    (M : Scheduler Op Ans σ Spec Answer Ev ρ) where
  call : Spec' → Option Spec
  finish : Spec' → ρ → ρ'
  event : Ev' → Option Ev
  exec_eq : N.exec = M.exec
  decode_eq : N.decode = M.decode
  body_call : ∀ spec c, call spec = some c →
    N.body spec = M.body c >>= fun r => .ret (finish spec r)
  body_alone : ∀ spec, call spec = none → ∃ r, N.body spec = .ret r
  env_event : ∀ e e', event e = some e' → ∀ s, N.env s e = M.env s e'
  env_quiet : ∀ e, event e = none → ∀ s s', N.env s e = some s' → s' = s

namespace Wraps

variable {N : Scheduler Op Ans σ Spec' Answer Ev' ρ'} {M : Scheduler Op Ans σ Spec Answer Ev ρ}
  (W : N.Wraps M)

/-- What a step of the outer scheduler is for the inner one, if anything. -/
def act : Act Spec' Answer Ev' → Option (Act Spec Answer Ev)
  | .spawn id spec => (W.call spec).map (.spawn id)
  | .resume id answer => some (.resume id answer)
  | .wake id => some (.wake id)
  | .env e => (W.event e).map .env

/-- A task, and the call that it carries. -/
inductive Carries : Option (Thread Op Ans Spec' ρ') → Option (Thread Op Ans Spec ρ) → Prop
  | idle : Carries none none
  | alone {spec : Spec'} {r : ρ'} (h : W.call spec = none) (hr : N.body spec = .ret r) :
      Carries (some ⟨spec, .ret r⟩) none
  | call {spec : Spec'} {c : Spec} (h : W.call spec = some c) (p : Prog Op Ans ρ) :
      Carries (some ⟨spec, p >>= fun r => .ret (W.finish spec r)⟩) (some ⟨c, p⟩)

/-- The inner pool holds the calls of the outer one, on the same state. -/
structure Holds (w : Pool Op Ans σ Spec' ρ') (v : Pool Op Ans σ Spec ρ) : Prop where
  shared_eq : v.shared = w.shared
  tasks : ∀ id, W.Carries (w.tasks id) (v.tasks id)

variable {W} {w w' : Pool Op Ans σ Spec' ρ'} {v : Pool Op Ans σ Spec ρ}

theorem holds_idle (s : σ) : W.Holds (.idle s) (.idle s) := ⟨rfl, fun _ => .idle⟩

theorem Holds.park (h : W.Holds w v) {id : ℕ} {spec : Spec'} {c : Spec}
    (hc : W.call spec = some c) (r : Prog Op Ans ρ × σ) :
    W.Holds (w.park id spec (r.1 >>= fun a => .ret (W.finish spec a), r.2)) (v.park id c r) where
  shared_eq := rfl
  tasks id' := by
    by_cases hid : id' = id
    · subst hid
      rw [Pool.park_tasks_self, Pool.park_tasks_self]
      exact .call hc r.1
    · rw [Pool.park_tasks_of_ne _ _ _ hid, Pool.park_tasks_of_ne _ _ _ hid]
      exact h.tasks id'

/-- A suspended task is suspended in its call. -/
theorem Holds.suspended (h : W.Holds w v) {id : ℕ} {spec : Spec'} {o : Op}
    {k : Ans o → Prog Op Ans ρ'} (ht : w.tasks id = some ⟨spec, .call o k⟩) :
    ∃ c k', W.call spec = some c ∧ v.tasks id = some ⟨c, .call o k'⟩ ∧
      k = fun a => k' a >>= fun r => .ret (W.finish spec r) := by
  have hcarries := h.tasks id
  rw [ht] at hcarries
  generalize hv : v.tasks id = t at hcarries
  generalize hp : (Prog.call o k : Prog Op Ans ρ') = p at hcarries
  cases hcarries with
  | alone => contradiction
  | @call _ c hc q =>
    cases q with
    | ret r => contradiction
    | call o' k' =>
      rw [Prog.call_bind] at hp
      cases hp
      exact ⟨c, k', hc, rfl, rfl⟩

/-- A finished task has finished its call, or it made none. -/
theorem Holds.finished (h : W.Holds w v) {id : ℕ} {spec : Spec'} {r : ρ'}
    (ht : w.tasks id = some ⟨spec, .ret r⟩) :
    (W.call spec = none ∧ N.body spec = .ret r) ∨
      ∃ c a, W.call spec = some c ∧ v.tasks id = some ⟨c, .ret a⟩ ∧ r = W.finish spec a := by
  have hcarries := h.tasks id
  rw [ht] at hcarries
  generalize hv : v.tasks id = t at hcarries
  generalize hp : (Prog.ret r : Prog Op Ans ρ') = p at hcarries
  cases hcarries with
  | alone hc hr =>
    obtain rfl := Prog.ret.inj hp
    exact .inl ⟨hc, hr⟩
  | @call _ c hc q =>
    obtain ⟨a, rfl, rfl⟩ := Prog.bind_ret_eq_ret hp.symm
    exact .inr ⟨c, a, hc, rfl, rfl⟩

/-- A call of the inner pool is carried by a task. -/
theorem Holds.carrier (h : W.Holds w v) {id : ℕ} {c : Spec} {p : Prog Op Ans ρ}
    (hv : v.tasks id = some ⟨c, p⟩) :
    ∃ spec, W.call spec = some c ∧
      w.tasks id = some ⟨spec, p >>= fun r => .ret (W.finish spec r)⟩ := by
  have hcarries := h.tasks id
  rw [hv] at hcarries
  generalize hw : w.tasks id = t at hcarries
  cases hcarries with
  | @call spec _ hc _ => exact ⟨spec, hc, rfl⟩

theorem Holds.fresh (h : W.Holds w v) {id : ℕ} (ht : w.tasks id = none) : v.tasks id = none := by
  have hcarries := h.tasks id
  rw [ht] at hcarries
  generalize v.tasks id = t at hcarries
  cases hcarries
  rfl

/-- A step of the outer scheduler is one of the inner scheduler, or nothing happens there. -/
theorem Holds.step (h : W.Holds w v) {l : Act Spec' Answer Ev'} (hstep : N.step w l = some w') :
    (W.act l = none ∧ W.Holds w' v) ∨
      ∃ l' v', W.act l = some l' ∧ M.step v l' = some v' ∧ W.Holds w' v' := by
  have hshared := h.shared_eq
  cases l with
  | spawn id spec =>
    obtain ⟨hnew, rfl⟩ := step_spawn_iff.mp hstep
    cases hc : W.call spec with
    | none =>
      obtain ⟨r, hr⟩ := W.body_alone spec hc
      refine .inl ⟨by simp [act, hc], ?_⟩
      rw [hr]
      refine ⟨hshared, fun id' => ?_⟩
      by_cases hid : id' = id
      · subst hid
        rw [Pool.park_tasks_self, h.fresh hnew]
        exact .alone hc hr
      · rw [Pool.park_tasks_of_ne _ _ _ hid]
        exact h.tasks id'
    | some c =>
      refine .inr ⟨.spawn id c, _, by simp [act, hc],
        step_spawn_iff.mpr ⟨h.fresh hnew, rfl⟩, ?_⟩
      rw [W.body_call spec c hc, Prog.settle_bind_ret, W.exec_eq, hshared]
      exact h.park hc _
  | resume id answer =>
    obtain ⟨spec, o, k, a, ht, ha, rfl⟩ := step_resume_iff.mp hstep
    obtain ⟨c, k', hc, hv, rfl⟩ := h.suspended ht
    rw [W.decode_eq] at ha
    refine .inr ⟨.resume id answer, _, rfl, step_resume_iff.mpr ⟨c, o, k', a, hv, ha, rfl⟩, ?_⟩
    rw [Prog.settle_bind_ret, W.exec_eq, hshared]
    exact h.park hc _
  | wake id =>
    obtain ⟨spec, o, k, a, s, ht, ha, rfl⟩ := step_wake_iff.mp hstep
    obtain ⟨c, k', hc, hv, rfl⟩ := h.suspended ht
    rw [W.exec_eq, ← hshared] at ha
    refine .inr ⟨.wake id, _, rfl, step_wake_iff.mpr ⟨c, o, k', a, s, hv, ha, rfl⟩, ?_⟩
    rw [Prog.settle_bind_ret, W.exec_eq]
    exact h.park hc _
  | env e =>
    obtain ⟨s, hs, rfl⟩ := step_env_iff.mp hstep
    cases he : W.event e with
    | none =>
      obtain rfl := W.env_quiet e he _ _ hs
      exact .inl ⟨by simp [act, he], h⟩
    | some e' =>
      rw [W.env_event e e' he, ← hshared] at hs
      exact .inr ⟨.env e', _, by simp [act, he], step_env_iff.mpr ⟨s, hs, rfl⟩, rfl, h.tasks⟩

theorem act_eq_resume {l : Act Spec' Answer Ev'} {id : ℕ} {answer : Answer}
    (h : W.act l = some (.resume id answer)) : l = .resume id answer := by
  cases l with
  | spawn id' spec => simp [act] at h
  | resume id' answer' =>
    obtain ⟨rfl, rfl⟩ := Act.resume.inj (Option.some.inj h)
    rfl
  | wake id' => simp [act] at h
  | env e => simp [act] at h

variable (W)

/-- The steps of an outer history, and what they are for the inner scheduler. -/
inductive Histories : List (Pool Op Ans σ Spec' ρ' × Act Spec' Answer Ev') →
    List (Pool Op Ans σ Spec ρ × Act Spec Answer Ev) → Prop
  | nil : Histories [] []
  | quiet {w : Pool Op Ans σ Spec' ρ'} {l : Act Spec' Answer Ev'}
      {past : List (Pool Op Ans σ Spec' ρ' × Act Spec' Answer Ev')}
      {past' : List (Pool Op Ans σ Spec ρ × Act Spec Answer Ev)} (h : W.act l = none)
      (rest : Histories past past') : Histories ((w, l) :: past) past'
  | step {w : Pool Op Ans σ Spec' ρ'} {v : Pool Op Ans σ Spec ρ} {l : Act Spec' Answer Ev'}
      {l' : Act Spec Answer Ev} {past : List (Pool Op Ans σ Spec' ρ' × Act Spec' Answer Ev')}
      {past' : List (Pool Op Ans σ Spec ρ × Act Spec Answer Ev)} (h : W.act l = some l')
      (hw : W.Holds w v) (rest : Histories past past') :
      Histories ((w, l) :: past) ((v, l') :: past')

variable {W} {past : List (Pool Op Ans σ Spec' ρ' × Act Spec' Answer Ev')}
  {past' : List (Pool Op Ans σ Spec ρ × Act Spec Answer Ev)}

/-- From pools that correspond, every run of the outer scheduler is a run of the inner one. -/
theorem run_from {w₀ : Pool Op Ans σ Spec' ρ'} {v₀ : Pool Op Ans σ Spec ρ} (hw₀ : W.Holds w₀ v₀)
    (h : Run N.step w₀ past w) :
    ∃ past' v, Run M.step v₀ past' v ∧ W.Holds w v ∧ W.Histories past past' := by
  induction h with
  | start => exact ⟨[], v₀, .start, hw₀, .nil⟩
  | @next past w l w' run hstep ih =>
    obtain ⟨past', v, run', hw, hpast⟩ := ih
    rcases hw.step hstep with ⟨hquiet, hw'⟩ | ⟨l', v', hl, hstep', hw'⟩
    · exact ⟨past', v, run', hw', .quiet hquiet hpast⟩
    · exact ⟨(v, l') :: past', v', run'.next hstep', hw', .step hl hw hpast⟩

/-- Every run of the outer scheduler is a run of the inner one. -/
theorem run (W : N.Wraps M) {s : σ} (h : Run N.step (.idle s) past w) :
    ∃ past' v, Run M.step (.idle s) past' v ∧ W.Holds w v ∧ W.Histories past past' :=
  run_from (holds_idle s) h

/-- The inner history is the outer one seen from the inner scheduler. -/
theorem Histories.filterMap_eq (h : W.Histories past past') :
    past'.map (fun e => (e.1.shared, e.2)) =
      past.filterMap fun e => (W.act e.2).map fun l => (e.1.shared, l) := by
  induction h with
  | nil => rfl
  | quiet hl rest ih =>
    rw [ih]
    simp [hl]
  | step hl hw rest ih =>
    rw [List.map_cons, ih, hw.shared_eq]
    simp [hl]

/-- Where the inner history can be cut, the outer one can. -/
theorem Histories.split {newer' older' : List (Pool Op Ans σ Spec ρ × Act Spec Answer Ev)}
    {l' : Act Spec Answer Ev} (h : W.Histories past (newer' ++ (v, l') :: older')) :
    ∃ newer w l older, past = newer ++ (w, l) :: older ∧ W.act l = some l' ∧ W.Holds w v ∧
      W.Histories newer newer' ∧ W.Histories older older' := by
  generalize hp : newer' ++ (v, l') :: older' = past' at h
  induction h generalizing newer' with
  | nil => simp at hp
  | @quiet w l past past' hl rest ih =>
    obtain ⟨newer, w₁, l₁, older, rfl, hact, hw, hnewer, holder⟩ := ih hp
    exact ⟨(w, l) :: newer, w₁, l₁, older, rfl, hact, hw, .quiet hl hnewer, holder⟩
  | @step w v₁ l l₁ past past' hl hw rest ih =>
    cases newer' with
    | nil =>
      obtain ⟨hhead, rfl⟩ := List.cons.inj hp
      obtain ⟨rfl, rfl⟩ := Prod.mk.inj hhead
      exact ⟨[], w, l, past, rfl, hl, hw, .nil, rest⟩
    | cons e newer' =>
      obtain ⟨rfl, hrest⟩ := List.cons.inj hp
      obtain ⟨newer, w₂, l₂, older, rfl, hact, hw₂, hnewer, holder⟩ := ih hrest
      exact ⟨(w, l) :: newer, w₂, l₂, older, rfl, hact, hw₂, .step hl hw hnewer, holder⟩

/-- Every step of the inner history comes from one of the outer history. -/
theorem Histories.origin {l' : Act Spec Answer Ev} (h : W.Histories past past')
    (hmem : (v, l') ∈ past') : ∃ w l, (w, l) ∈ past ∧ W.act l = some l' ∧ W.Holds w v := by
  obtain ⟨newer', older', rfl⟩ := List.append_of_mem hmem
  obtain ⟨newer, w, l, older, rfl, hl, hw, -, -⟩ := h.split
  exact ⟨w, l, List.mem_append_right _ List.mem_cons_self, hl, hw⟩

/-- Every step that is not quiet is in the inner history. -/
theorem Histories.mem (h : W.Histories past past') {l : Act Spec' Answer Ev'}
    {l' : Act Spec Answer Ev} (hmem : (w, l) ∈ past) (hl : W.act l = some l') :
    ∃ v, (v, l') ∈ past' ∧ W.Holds w v := by
  induction h with
  | nil => contradiction
  | quiet hquiet rest ih =>
    rcases List.mem_cons.mp hmem with heq | hmem
    · obtain ⟨rfl, rfl⟩ := Prod.mk.inj heq
      rw [hquiet] at hl
      contradiction
    · exact ih hmem
  | @step _ v _ _ _ _ hact hw rest ih =>
    rcases List.mem_cons.mp hmem with heq | hmem
    · obtain ⟨rfl, rfl⟩ := Prod.mk.inj heq
      obtain rfl := Option.some.inj (hact.symm.trans hl)
      exact ⟨v, List.mem_cons_self, hw⟩
    · obtain ⟨v', hv', hw'⟩ := ih hmem
      exact ⟨v', List.mem_cons_of_mem _ hv', hw'⟩

end Wraps

section Twins

variable {N : Scheduler Op Ans σ Spec Answer Ev ρ'} {M : Scheduler Op Ans σ Spec Answer Ev ρ}

/-- Every task of the outer scheduler is one call, and every event one event. -/
structure Wraps.Alike (W : N.Wraps M) : Prop where
  call_eq : ∀ spec, W.call spec = some spec
  event_eq : ∀ e, W.event e = some e

namespace Wraps

variable {W : N.Wraps M} {w : Pool Op Ans σ Spec ρ'} {v v' : Pool Op Ans σ Spec ρ}

theorem Alike.act_eq (hW : W.Alike) (l : Act Spec Answer Ev) : W.act l = some l := by
  cases l with
  | spawn id spec => simp [act, hW.call_eq]
  | resume id answer => rfl
  | wake id => rfl
  | env e => simp [act, hW.event_eq]

theorem Alike.carries_eq (hW : W.Alike) {t : Option (Thread Op Ans Spec ρ')}
    {u : Option (Thread Op Ans Spec ρ)} (h : W.Carries t u) :
    t = u.map fun x => ⟨x.spec, x.prog >>= fun r => .ret (W.finish x.spec r)⟩ := by
  cases h with
  | idle => rfl
  | alone hc => simp [hW.call_eq] at hc
  | call hc p =>
    rw [hW.call_eq] at hc
    obtain rfl := Option.some.inj hc
    rfl

theorem Alike.tasks_eq (hW : W.Alike) (h : W.Holds w v) (id : ℕ) :
    w.tasks id = (v.tasks id).map fun x =>
      ⟨x.spec, x.prog >>= fun r => .ret (W.finish x.spec r)⟩ :=
  hW.carries_eq (h.tasks id)

theorem Alike.pending_iff (hW : W.Alike) (h : W.Holds w v) (id : ℕ) :
    w.Pending id ↔ v.Pending id := by
  have hawaits : ∀ t : Thread Op Ans Spec ρ,
      (t.prog >>= fun r => Prog.ret (W.finish t.spec r)).awaits = t.prog.awaits := by
    intro t
    cases t.prog <;> rfl
  rw [Pool.pending_iff, Pool.pending_iff, Pool.awaits, Pool.awaits, hW.tasks_eq h]
  cases v.tasks id with
  | none => rfl
  | some t => simp [hawaits]

/-- The outer scheduler follows every step of the inner one. -/
theorem Alike.follow (hW : W.Alike) (h : W.Holds w v) {l : Act Spec Answer Ev}
    (hstep : M.step v l = some v') : ∃ w', N.step w l = some w' ∧ W.Holds w' v' := by
  have hshared := h.shared_eq
  cases l with
  | spawn id spec =>
    obtain ⟨hnew, rfl⟩ := step_spawn_iff.mp hstep
    have hfree : w.tasks id = none := by rw [hW.tasks_eq h, hnew]; rfl
    refine ⟨_, step_spawn_iff.mpr ⟨hfree, rfl⟩, ?_⟩
    rw [W.body_call spec spec (hW.call_eq spec), Prog.settle_bind_ret, W.exec_eq, hshared]
    exact h.park (hW.call_eq spec) _
  | resume id answer =>
    obtain ⟨spec, o, k, a, hv, ha, rfl⟩ := step_resume_iff.mp hstep
    have ht := hW.tasks_eq h id
    rw [hv] at ht
    rw [← W.decode_eq] at ha
    refine ⟨_, step_resume_iff.mpr ⟨spec, o, _, a, ht, ha, rfl⟩, ?_⟩
    show W.Holds (w.park id spec ((k a >>= fun r => Prog.ret (W.finish spec r)).settle N.exec
      w.shared)) _
    rw [W.exec_eq, Prog.settle_bind_ret, hshared]
    exact h.park (hW.call_eq spec) _
  | wake id =>
    obtain ⟨spec, o, k, a, s, hv, ha, rfl⟩ := step_wake_iff.mp hstep
    have ht := hW.tasks_eq h id
    rw [hv] at ht
    rw [← W.exec_eq, hshared] at ha
    refine ⟨_, step_wake_iff.mpr ⟨spec, o, _, a, s, ht, ha, rfl⟩, ?_⟩
    show W.Holds (w.park id spec ((k a >>= fun r => Prog.ret (W.finish spec r)).settle N.exec s)) _
    rw [W.exec_eq, Prog.settle_bind_ret]
    exact h.park (hW.call_eq spec) _
  | env e =>
    obtain ⟨s, hs, rfl⟩ := step_env_iff.mp hstep
    rw [← W.env_event e e (hW.event_eq e), hshared] at hs
    exact ⟨_, step_env_iff.mpr ⟨s, hs, rfl⟩, rfl, h.tasks⟩

/-- Every run of the inner scheduler is one of the outer scheduler. -/
theorem Alike.lift (hW : W.Alike) {s : σ}
    {past' : List (Pool Op Ans σ Spec ρ × Act Spec Answer Ev)}
    (run : Run M.step (.idle s) past' v) :
    ∃ past w, Run N.step (.idle s) past w ∧ W.Holds w v ∧
      past.map (fun e => (e.1.shared, e.2)) = past'.map fun e => (e.1.shared, e.2) := by
  induction run with
  | start => exact ⟨[], .idle s, .start, holds_idle s, rfl⟩
  | @next past' v l v' run hstep ih =>
    obtain ⟨past, w, run', hw, hpast⟩ := ih
    obtain ⟨w', hstep', hw'⟩ := hW.follow hw hstep
    refine ⟨(w, l) :: past, w', run'.next hstep', hw', ?_⟩
    rw [List.map_cons, List.map_cons, hpast, hw.shared_eq]

theorem Alike.map_eq (hW : W.Alike) {past : List (Pool Op Ans σ Spec ρ' × Act Spec Answer Ev)}
    {past' : List (Pool Op Ans σ Spec ρ × Act Spec Answer Ev)} (h : W.Histories past past') :
    past'.map (fun e => (e.1.shared, e.2)) = past.map fun e => (e.1.shared, e.2) := by
  rw [h.filterMap_eq, ← List.filterMap_eq_map]
  refine congrArg (fun f => past.filterMap f) (funext fun e => ?_)
  rw [hW.act_eq]
  rfl

end Wraps

end Twins

end Scheduler
