import FastapiM8.Lib.Pool

/-! Programs that keep books. Beside the operations of a program there is a second signature,
whose operations are answered at once from a state of their own. As long as these answers are
the expected ones, the books can be erased: what is left is a program over the first signature,
and the runs of the two schedulers correspond. -/

namespace Prog

variable {Op Op' : Type} {Ans : Op → Type} {Ans' : Op' → Type} {α β σ τ : Type}

/-- A program over the first of two signatures. -/
def inl (p : Prog Op Ans α) : Prog (Op ⊕ Op') (SumAns Ans Ans') α :=
  p.interp fun o => (perform (Sum.inl o) : Prog (Op ⊕ Op') (SumAns Ans Ans') (Ans o))

@[simp] theorem inl_ret (a : α) :
    (inl (.ret a : Prog Op Ans α) : Prog (Op ⊕ Op') (SumAns Ans Ans') α) = .ret a := rfl

@[simp] theorem inl_call (o : Op) (k : Ans o → Prog Op Ans α) :
    (inl (.call o k) : Prog (Op ⊕ Op') (SumAns Ans Ans') α) = .call (.inl o) fun a => (k a).inl :=
  rfl

/-- The program without its books, which are taken to answer as expected. -/
def erase (quiet : (o : Op') → Ans' o) : Prog (Op ⊕ Op') (SumAns Ans Ans') α → Prog Op Ans α
  | .ret a => .ret a
  | .call (.inl o) k => .call o fun a => (k a).erase quiet
  | .call (.inr o) k => (k (quiet o)).erase quiet

variable {quiet : (o : Op') → Ans' o}

@[simp] theorem erase_ret (a : α) :
    (Prog.ret a : Prog (Op ⊕ Op') (SumAns Ans Ans') α).erase quiet = .ret a := rfl

@[simp] theorem erase_call_inl (o : Op) (k : Ans o → Prog (Op ⊕ Op') (SumAns Ans Ans') α) :
    (Prog.call (.inl o) k : Prog (Op ⊕ Op') (SumAns Ans Ans') α).erase quiet =
      .call o fun a => (k a).erase quiet := rfl

@[simp] theorem erase_call_inr (o : Op') (k : Ans' o → Prog (Op ⊕ Op') (SumAns Ans Ans') α) :
    (Prog.call (.inr o) k : Prog (Op ⊕ Op') (SumAns Ans Ans') α).erase quiet =
      (k (quiet o)).erase quiet := rfl

theorem erase_bind (p : Prog (Op ⊕ Op') (SumAns Ans Ans') α)
    (f : α → Prog (Op ⊕ Op') (SumAns Ans Ans') β) :
    (p >>= f).erase quiet = p.erase quiet >>= fun a => (f a).erase quiet := by
  induction p with
  | ret a => rfl
  | call o k ih =>
    cases o with
    | inl o => exact congrArg (call o) (funext ih)
    | inr o => exact ih (quiet o)

@[simp] theorem erase_inl (p : Prog Op Ans α) :
    (p.inl : Prog (Op ⊕ Op') (SumAns Ans Ans') α).erase quiet = p := by
  induction p with
  | ret a => rfl
  | call o k ih => exact congrArg (call o) (funext ih)

/-- The first operations act on their own state, and the books are kept at once. -/
def both (exec : (o : Op) → σ → Option (Ans o × σ)) (book : (o : Op') → τ → Ans' o × τ) :
    (o : Op ⊕ Op') → σ × τ → Option (SumAns Ans Ans' o × (σ × τ))
  | .inl o, s => (exec o s.1).map fun r => (r.1, r.2, s.2)
  | .inr o, s => some ((book o s.2).1, s.1, (book o s.2).2)

/-- The program is not about to keep a book. -/
def Outside (p : Prog (Op ⊕ Op') (SumAns Ans Ans') α) : Prop := ∀ o, p.awaits ≠ some (.inr o)

variable {exec : (o : Op) → σ → Option (Ans o × σ)} {book : (o : Op') → τ → Ans' o × τ}

theorem both_inl {o : Op} {s s' : σ} {a : Ans o} (h : exec o s = some (a, s')) (t : τ) :
    both exec book (.inl o) (s, t) = some (a, s', t) := by
  simp [both, h]

theorem settle_inl_none {o : Op} {k : Ans o → Prog (Op ⊕ Op') (SumAns Ans Ans') α} {s : σ}
    (h : exec o s = none) (t : τ) :
    (Prog.call (.inl o) k : Prog (Op ⊕ Op') (SumAns Ans Ans') α).settle (both exec book) (s, t) =
      (.call (.inl o) k, s, t) := by
  have hboth : both exec book (.inl o) (s, t) = none := by simp [both, h]
  exact settle_call_none hboth

theorem settle_inl_some {o : Op} {k : Ans o → Prog (Op ⊕ Op') (SumAns Ans Ans') α} {s s' : σ}
    {a : Ans o} (h : exec o s = some (a, s')) (t : τ) :
    (Prog.call (.inl o) k : Prog (Op ⊕ Op') (SumAns Ans Ans') α).settle (both exec book) (s, t) =
      (k a).settle (both exec book) (s', t) :=
  settle_call_some (both_inl h t)

theorem settle_inr (o : Op') (k : Ans' o → Prog (Op ⊕ Op') (SumAns Ans Ans') α) (s : σ) (t : τ) :
    (Prog.call (.inr o) k : Prog (Op ⊕ Op') (SumAns Ans Ans') α).settle (both exec book) (s, t) =
      (k (book o t).1).settle (both exec book) (s, (book o t).2) :=
  settle_call_some (show both exec book (.inr o) (s, t) = some (_, s, _) from rfl)

/-- A program without books leaves them as they are. -/
theorem settle_inl (p : Prog Op Ans α) (s : σ) (t : τ) :
    (p.inl : Prog (Op ⊕ Op') (SumAns Ans Ans') α).settle (both exec book) (s, t) =
      ((p.settle exec s).1.inl, (p.settle exec s).2, t) := by
  induction p generalizing s with
  | ret a => rfl
  | call o k ih =>
    rw [inl_call]
    cases h : exec o s with
    | none =>
      rw [settle_inl_none h, settle_call_none h]
      rfl
    | some r =>
      rw [settle_inl_some h, settle_call_some h]
      exact ih r.1 r.2

/-- A segment never ends on a book. -/
theorem outside_settle (p : Prog (Op ⊕ Op') (SumAns Ans Ans') α) (s : σ) (t : τ) :
    (p.settle (both exec book) (s, t)).1.Outside := by
  induction p generalizing s t with
  | ret a =>
    intro o h
    contradiction
  | call o k ih =>
    cases o with
    | inr o =>
      rw [settle_inr]
      exact ih _ s _
    | inl o =>
      cases h : exec o s with
      | some r =>
        rw [settle_inl_some h]
        exact ih r.1 r.2 t
      | none =>
        rw [settle_inl_none h]
        intro o' ho'
        cases Option.some.inj ho'

/-- While `I` holds of the books they answer as expected, and keep `I`. -/
def Sound (book : (o : Op') → τ → Ans' o × τ) (quiet : (o : Op') → Ans' o) (I : τ → Prop) : Prop :=
  ∀ o t, I t → (book o t).1 = quiet o ∧ I (book o t).2

variable {I : τ → Prop}

variable (exec) in
/-- Erasing the books commutes with running a segment. -/
theorem erase_settle (hbook : Sound book quiet I) (p : Prog (Op ⊕ Op') (SumAns Ans Ans') α) (s : σ)
    {t : τ} (ht : I t) :
    ((p.settle (both exec book) (s, t)).1.erase quiet, (p.settle (both exec book) (s, t)).2.1) =
        (p.erase quiet).settle exec s ∧
      I (p.settle (both exec book) (s, t)).2.2 := by
  induction p generalizing s t with
  | ret a => exact ⟨rfl, ht⟩
  | call o k ih =>
    cases o with
    | inr o =>
      obtain ⟨hquiet, hkept⟩ := hbook o t ht
      rw [settle_inr, hquiet]
      exact ih (quiet o) s hkept
    | inl o =>
      rw [erase_call_inl]
      cases h : exec o s with
      | some r =>
        rw [settle_inl_some h, settle_call_some h]
        exact ih r.1 r.2 ht
      | none =>
        rw [settle_inl_none h, settle_call_none h]
        exact ⟨rfl, ht⟩

/-- The program performs only operations that `W` names, and its last answer and its result are
related by `L`. -/
def Concludes (W : Op → Prop) (L : (o : Op) → Ans o → α → Prop) : Prog Op Ans α → Prop
  | .ret _ => True
  | .call o k => W o ∧ ∀ a, (∀ x, k a = .ret x → L o a x) ∧ (k a).Concludes W L

variable {W : Op → Prop} {L : (o : Op) → Ans o → α → Prop}

/-- A program that waits for each of its operations, and then keeps books: its segments wait,
or they are those of the rest. -/
theorem Concludes.obeys_bind
    {G : (o : Op ⊕ Op') → SumAns Ans Ans' o → σ × τ →
      Prog (Op ⊕ Op') (SumAns Ans Ans') β × (σ × τ) → Prop}
    {p : Prog Op Ans α} {f : α → Prog (Op ⊕ Op') (SumAns Ans Ans') β} (hp : p.Concludes W L)
    (hopen : ∀ o, W o → ∀ s, exec o s = none)
    (hwait : ∀ o a s o' k, W o → W o' → G (.inl o) a s (.call (.inl o') k, s))
    (hend : ∀ o a x s, W o → L o a x → G (.inl o) a s ((f x).settle (both exec book) s))
    (hlater : ∀ x s, Obeys (both exec book) G ((f x).settle (both exec book) s).1) (s : σ × τ) :
    Obeys (both exec book) G ((p.inl >>= f).settle (both exec book) s).1 := by
  induction p generalizing s with
  | ret a => exact hlater a s
  | call o k ih =>
    obtain ⟨ho, hk⟩ := hp
    rw [inl_call, call_bind]
    rw [settle_inl_none (hopen o ho s.1) s.2]
    refine .call (Sum.inl o) _ (fun a s => ?_) (fun a s => ih a (hk a).2 s)
    obtain ⟨hends, hrest⟩ := hk a
    show G (.inl o) a s (((k a).inl >>= f).settle (both exec book) s)
    cases hka : k a with
    | ret x =>
      exact hend o a x s ho (hends x hka)
    | call o' k' =>
      rw [hka] at hrest
      rw [inl_call, call_bind, settle_inl_none (hopen o' hrest.1 s.1) s.2]
      exact hwait o a s o' _ ho hrest.1

end Prog

namespace Act

variable {Spec Answer Ev Ev' : Type}

/-- What a step is without the events of the books. -/
def erase : Act Spec Answer (Ev ⊕ Ev') → Option (Act Spec Answer Ev)
  | .spawn id spec => some (.spawn id spec)
  | .resume id answer => some (.resume id answer)
  | .wake id => some (.wake id)
  | .env (.inl e) => some (.env e)
  | .env (.inr _) => none

/-- A step that no event of the books comes with. -/
def keep : Act Spec Answer Ev → Act Spec Answer (Ev ⊕ Ev')
  | .spawn id spec => .spawn id spec
  | .resume id answer => .resume id answer
  | .wake id => .wake id
  | .env e => .env (.inl e)

theorem erase_keep (l : Act Spec Answer Ev) :
    (l.keep : Act Spec Answer (Ev ⊕ Ev')).erase = some l := by
  cases l <;> rfl

end Act

namespace Pool

variable {Op Op' : Type} {Ans : Op → Type} {Ans' : Op' → Type} {σ τ Spec ρ : Type}

/-- The pool of the programs without their books. -/
def erase (quiet : (o : Op') → Ans' o) (w : Pool (Op ⊕ Op') (Prog.SumAns Ans Ans') (σ × τ) Spec ρ) :
    Pool Op Ans σ Spec ρ where
  shared := w.shared.1
  tasks id := (w.tasks id).map fun t => ⟨t.spec, t.prog.erase quiet⟩

/-- No task of the pool is about to keep a book. -/
def Outside (w : Pool (Op ⊕ Op') (Prog.SumAns Ans Ans') (σ × τ) Spec ρ) : Prop :=
  ∀ id t, w.tasks id = some t → t.prog.Outside

variable {quiet : (o : Op') → Ans' o}
  {w : Pool (Op ⊕ Op') (Prog.SumAns Ans Ans') (σ × τ) Spec ρ}

theorem erase_tasks {id : ℕ} {t : Thread (Op ⊕ Op') (Prog.SumAns Ans Ans') Spec ρ}
    (h : w.tasks id = some t) : (w.erase quiet).tasks id = some ⟨t.spec, t.prog.erase quiet⟩ := by
  simp [erase, h]

theorem erase_tasks_eq_none {id : ℕ} : (w.erase quiet).tasks id = none ↔ w.tasks id = none := by
  simp [erase]

/-- A task that waits without its books waits with them, for the same operation. -/
theorem Outside.suspended (h : w.Outside) {id : ℕ} {spec : Spec} {o : Op}
    {k : Ans o → Prog Op Ans ρ} (ht : (w.erase quiet).tasks id = some ⟨spec, .call o k⟩) :
    ∃ k', w.tasks id = some ⟨spec, .call (.inl o) k'⟩ ∧ k = fun a => (k' a).erase quiet := by
  obtain ⟨⟨spec', p⟩, ht', heq⟩ := Option.map_eq_some_iff.mp ht
  obtain ⟨rfl, hp⟩ := Thread.mk.inj heq
  cases p with
  | ret r => contradiction
  | call o' k' =>
    cases o' with
    | inr o' => exact absurd rfl (h id _ ht' o')
    | inl o' =>
      obtain ⟨rfl, hk⟩ := Prog.call.inj hp
      exact ⟨k', ht', (eq_of_heq hk).symm⟩

theorem erase_park (id : ℕ) (spec : Spec)
    (r : Prog (Op ⊕ Op') (Prog.SumAns Ans Ans') ρ × (σ × τ)) :
    (w.park id spec r).erase quiet = (w.erase quiet).park id spec (r.1.erase quiet, r.2.1) := by
  have htasks : ((w.park id spec r).erase quiet).tasks =
      ((w.erase quiet).park id spec (r.1.erase quiet, r.2.1)).tasks := by
    funext id'
    by_cases hid : id' = id
    · subst hid
      rw [park_tasks_self, erase_tasks (park_tasks_self w id' spec r)]
    · rw [park_tasks_of_ne _ _ _ hid]
      simp [erase, park_tasks_of_ne _ _ _ hid]
  exact congrArg (Pool.mk r.2.1) htasks

theorem Outside.park (h : w.Outside) {id : ℕ} {spec : Spec}
    {r : Prog (Op ⊕ Op') (Prog.SumAns Ans Ans') ρ × (σ × τ)} (hr : r.1.Outside) :
    (w.park id spec r).Outside := by
  intro id' t ht
  by_cases hid : id' = id
  · subst hid
    rw [park_tasks_self] at ht
    obtain rfl := Option.some.inj ht
    exact hr
  · rw [park_tasks_of_ne _ _ _ hid] at ht
    exact h id' t ht

end Pool

namespace Scheduler

variable {Op Op' : Type} {Ans : Op → Type} {Ans' : Op' → Type}
  {σ τ Spec Answer Ev Ev' ρ : Type}

/-- The scheduler of programs that keep books beside those of `M`. -/
def instrument (M : Scheduler Op Ans σ Spec Answer Ev ρ)
    (body : Spec → Prog (Op ⊕ Op') (Prog.SumAns Ans Ans') ρ) (book : (o : Op') → τ → Ans' o × τ)
    (event : τ → Ev' → τ) :
    Scheduler (Op ⊕ Op') (Prog.SumAns Ans Ans') (σ × τ) Spec Answer (Ev ⊕ Ev') ρ where
  body := body
  exec := Prog.both M.exec book
  decode
    | .inl o, answer => M.decode o answer
    | .inr _, _ => none
  env s
    | .inl e => (M.env s.1 e).map fun s' => (s', s.2)
    | .inr e => some (s.1, event s.2 e)

variable {M : Scheduler Op Ans σ Spec Answer Ev ρ}
  {body : Spec → Prog (Op ⊕ Op') (Prog.SumAns Ans Ans') ρ} {book : (o : Op') → τ → Ans' o × τ}
  {event : τ → Ev' → τ} {quiet : (o : Op') → Ans' o} {I : τ → Prop}
  {w w' : Pool (Op ⊕ Op') (Prog.SumAns Ans Ans') (σ × τ) Spec ρ}

/-- A step keeps every task outside its books. -/
theorem outside_step {l : Act Spec Answer (Ev ⊕ Ev')} (hw : w.Outside)
    (h : (M.instrument body book event).step w l = some w') : w'.Outside := by
  cases l with
  | spawn id spec =>
    obtain ⟨-, rfl⟩ := step_spawn_iff.mp h
    exact hw.park (Prog.outside_settle _ _ _)
  | resume id answer =>
    obtain ⟨spec, o, k, a, -, -, rfl⟩ := step_resume_iff.mp h
    exact hw.park (Prog.outside_settle _ _ _)
  | wake id =>
    obtain ⟨spec, o, k, a, s, -, -, rfl⟩ := step_wake_iff.mp h
    exact hw.park (Prog.outside_settle _ _ _)
  | env e =>
    obtain ⟨s, -, rfl⟩ := step_env_iff.mp h
    exact hw

section Erase

variable (hbody : ∀ spec, (body spec).erase quiet = M.body spec)
  (hbook : Prog.Sound book quiet I)

include hbook

/-- A segment of a task, seen without the books. -/
theorem erase_park_settle (p : Prog (Op ⊕ Op') (Prog.SumAns Ans Ans') ρ) (id : ℕ) (spec : Spec)
    (s : σ × τ) (hs : I s.2) :
    (w.park id spec (p.settle (Prog.both M.exec book) s)).erase quiet =
      (w.erase quiet).park id spec ((p.erase quiet).settle M.exec s.1) := by
  obtain ⟨heq, -⟩ := Prog.erase_settle M.exec hbook p s.1 hs
  rw [Pool.erase_park, ← heq]

include hbody

/-- A step with books is the step without them, or nothing happens there. -/
theorem step_erase {l : Act Spec Answer (Ev ⊕ Ev')} (hw : w.Outside) (hI : I w.shared.2)
    (h : (M.instrument body book event).step w l = some w') :
    (l.erase = none ∧ w'.erase quiet = w.erase quiet) ∨
      ∃ l', l.erase = some l' ∧ M.step (w.erase quiet) l' = some (w'.erase quiet) := by
  cases l with
  | spawn id spec =>
    obtain ⟨hnew, rfl⟩ := step_spawn_iff.mp h
    refine .inr ⟨.spawn id spec, rfl, step_spawn_iff.mpr ⟨Pool.erase_tasks_eq_none.mpr hnew, ?_⟩⟩
    rw [← hbody]
    exact erase_park_settle hbook _ id spec w.shared hI
  | resume id answer =>
    obtain ⟨spec, o, k, a, ht, ha, rfl⟩ := step_resume_iff.mp h
    cases o with
    | inr o => exact absurd rfl (hw id _ ht o)
    | inl o =>
      exact .inr ⟨.resume id answer, rfl, step_resume_iff.mpr ⟨spec, o, _, a,
        Pool.erase_tasks ht, ha, erase_park_settle hbook _ id spec w.shared hI⟩⟩
  | wake id =>
    obtain ⟨spec, o, k, a, s, ht, ha, rfl⟩ := step_wake_iff.mp h
    cases o with
    | inr o => exact absurd rfl (hw id _ ht o)
    | inl o =>
      obtain ⟨⟨a', s'⟩, hexec, heq⟩ := Option.map_eq_some_iff.mp ha
      obtain ⟨rfl, rfl⟩ := Prod.mk.inj heq
      exact .inr ⟨.wake id, rfl, step_wake_iff.mpr ⟨spec, o, _, a', s',
        Pool.erase_tasks ht, hexec, erase_park_settle hbook _ id spec _ hI⟩⟩
  | env e =>
    obtain ⟨s, hs, rfl⟩ := step_env_iff.mp h
    cases e with
    | inl e =>
      obtain ⟨s', hs', rfl⟩ := Option.map_eq_some_iff.mp hs
      exact .inr ⟨.env e, rfl, step_env_iff.mpr ⟨s', hs', rfl⟩⟩
    | inr e =>
      obtain rfl := Option.some.inj hs
      exact .inl ⟨rfl, rfl⟩

/-- A step without books can be taken with them. -/
theorem step_keep {l : Act Spec Answer Ev} (hw : w.Outside) (hI : I w.shared.2)
    {v' : Pool Op Ans σ Spec ρ} (h : M.step (w.erase quiet) l = some v') :
    ∃ w', (M.instrument body book event).step w l.keep = some w' ∧ w'.erase quiet = v' ∧
      I w'.shared.2 := by
  have hkept : ∀ (p : Prog (Op ⊕ Op') (Prog.SumAns Ans Ans') ρ) (s : σ),
      I (p.settle (Prog.both M.exec book) (s, w.shared.2)).2.2 :=
    fun p s => (Prog.erase_settle M.exec hbook p s hI).2
  cases l with
  | spawn id spec =>
    obtain ⟨hnew, rfl⟩ := step_spawn_iff.mp h
    refine ⟨_, step_spawn_iff.mpr ⟨Pool.erase_tasks_eq_none.mp hnew, rfl⟩, ?_, hkept _ _⟩
    rw [← hbody]
    exact erase_park_settle hbook _ id spec w.shared hI
  | resume id answer =>
    obtain ⟨spec, o, k, a, ht, ha, rfl⟩ := step_resume_iff.mp h
    obtain ⟨k', ht', rfl⟩ := hw.suspended ht
    exact ⟨_, step_resume_iff.mpr ⟨spec, .inl o, k', a, ht', ha, rfl⟩,
      erase_park_settle hbook _ id spec w.shared hI, hkept _ _⟩
  | wake id =>
    obtain ⟨spec, o, k, a, s, ht, ha, rfl⟩ := step_wake_iff.mp h
    obtain ⟨k', ht', rfl⟩ := hw.suspended ht
    have hexec : Prog.both M.exec book (.inl o) w.shared = some (a, s, w.shared.2) :=
      Prog.both_inl ha w.shared.2
    exact ⟨_, step_wake_iff.mpr ⟨spec, .inl o, k', a, (s, w.shared.2), ht', hexec, rfl⟩,
      erase_park_settle hbook _ id spec (s, w.shared.2) hI, hkept _ _⟩
  | env e =>
    obtain ⟨s, hs, rfl⟩ := step_env_iff.mp h
    have henv : (M.instrument body book event).env w.shared (.inl e) = some (s, w.shared.2) :=
      congrArg (Option.map fun s' => (s', w.shared.2)) hs
    exact ⟨_, step_env_iff.mpr ⟨(s, w.shared.2), henv, rfl⟩, rfl, hI⟩

end Erase

/-- A step of a history without the books. -/
def eraseStep (quiet : (o : Op') → Ans' o)
    (x : Pool (Op ⊕ Op') (Prog.SumAns Ans Ans') (σ × τ) Spec ρ × Act Spec Answer (Ev ⊕ Ev')) :
    Option (Pool Op Ans σ Spec ρ × Act Spec Answer Ev) :=
  x.2.erase.map fun l => (x.1.erase quiet, l)

variable {past : List (Pool (Op ⊕ Op') (Prog.SumAns Ans Ans') (σ × τ) Spec ρ ×
  Act Spec Answer (Ev ⊕ Ev'))} {s : σ} {t : τ}

theorem outside_run (run : Run (M.instrument body book event).step (Pool.idle (s, t)) past w) :
    w.Outside := by
  refine run.invariant (fun _ _ _ hw h => outside_step hw h) ?_
  intro id u hu
  simp [Pool.idle] at hu

/-- A run in which the books answer as expected is a run without them. -/
theorem run_erase (hbody : ∀ spec, (body spec).erase quiet = M.body spec)
    (hbook : Prog.Sound book quiet I)
    (run : Run (M.instrument body book event).step (Pool.idle (s, t)) past w)
    (hpast : ∀ x ∈ past, I x.1.shared.2) :
    Run M.step (Pool.idle s) (past.filterMap (eraseStep quiet)) (w.erase quiet) := by
  induction run with
  | start => exact .start
  | @next past w l w' run h ih =>
    obtain ⟨hI, hrest⟩ := List.forall_mem_cons.mp hpast
    have hprefix := ih hrest
    rcases step_erase hbody hbook (outside_run run) hI h with ⟨hquiet, hsame⟩ | ⟨l', hl, h'⟩
    · have hnone : eraseStep quiet (w, l) = none := by simp [eraseStep, hquiet]
      rw [List.filterMap_cons_none hnone, hsame]
      exact hprefix
    · have hsome : eraseStep quiet (w, l) = some (w.erase quiet, l') := by simp [eraseStep, hl]
      rw [List.filterMap_cons_some hsome]
      exact hprefix.next h'

/-- The runs without books are what is left of the runs in which they answer as expected. -/
theorem run_erase_iff (hbody : ∀ spec, (body spec).erase quiet = M.body spec)
    (hbook : Prog.Sound book quiet I) (ht : I t) {past' : List (Pool Op Ans σ Spec ρ ×
      Act Spec Answer Ev)} {v : Pool Op Ans σ Spec ρ} :
    Run M.step (Pool.idle s) past' v ↔
      ∃ past w, Run (M.instrument body book event).step (Pool.idle (s, t)) past w ∧
        (∀ x ∈ past, I x.1.shared.2) ∧ past.filterMap (eraseStep quiet) = past' ∧
        w.erase quiet = v := by
  constructor
  · intro run
    suffices hlift : ∃ past w, Run (M.instrument body book event).step (Pool.idle (s, t)) past w ∧
        (∀ x ∈ past, I x.1.shared.2) ∧ past.filterMap (eraseStep quiet) = past' ∧
        w.erase quiet = v ∧ I w.shared.2 by
      obtain ⟨past, w, run', hpast, hsame, hw, -⟩ := hlift
      exact ⟨past, w, run', hpast, hsame, hw⟩
    induction run with
    | start => exact ⟨[], Pool.idle (s, t), .start, by simp, rfl, rfl, ht⟩
    | @next past' v l v' run h ih =>
      obtain ⟨past, w, run', hpast, rfl, rfl, hI⟩ := ih
      obtain ⟨w', h', rfl, hI'⟩ := step_keep hbody hbook (outside_run run') hI h
      refine ⟨(w, l.keep) :: past, w', run'.next h', ?_, ?_, rfl, hI'⟩
      · exact List.forall_mem_cons.mpr ⟨hI, hpast⟩
      · have hsome : eraseStep quiet (w, (l.keep : Act Spec Answer (Ev ⊕ Ev'))) =
            some (w.erase quiet, l) := by simp [eraseStep, Act.erase_keep]
        exact List.filterMap_cons_some hsome
  · rintro ⟨past, w, run, hpast, rfl, rfl⟩
    exact run_erase hbody hbook run hpast

end Scheduler
