import FastapiM8.Lib.Pool

/-! What the tasks of a pool end with, when every answer that they are given is an admitted one.
What they are answered at once may be admitted only under an invariant of the shared state. -/

namespace Prog

variable {Op : Type} {Ans : Op → Type} {α σ : Type} {A : (o : Op) → Ans o → Prop} {Q : α → Prop}
  {exec : (o : Op) → σ → Option (Ans o × σ)} {I : σ → Prop}

/-- A segment keeps what its program ends with, and the invariant. -/
theorem Ends.settle {p : Prog Op Ans α} (hp : p.Ends A Q)
    (hexec : ∀ o s a s', I s → exec o s = some (a, s') → A o a ∧ I s') {s : σ} (hs : I s) :
    (p.settle exec s).1.Ends A Q ∧ I (p.settle exec s).2 := by
  induction p generalizing s with
  | ret a => exact ⟨hp, hs⟩
  | call o k ih =>
    cases h : exec o s with
    | none =>
      rw [settle_call_none h]
      exact ⟨hp, hs⟩
    | some r =>
      obtain ⟨a, s'⟩ := r
      obtain ⟨ha, hs'⟩ := hexec o s a s' hs h
      rw [settle_call_some h]
      exact ih a (hp a ha) hs'

/-- A play goes through the first segment of its program. -/
theorem play_eq_play_settle {δ : Type} {deliver : (o : Op) → δ → Option (Ans o × σ)}
    (p : Prog Op Ans α) (s : σ) (script : List δ) :
    p.play exec deliver s script =
      (p.settle exec s).1.play exec deliver (p.settle exec s).2 script := by
  induction p generalizing s with
  | ret a => rfl
  | call o k ih =>
    cases h : exec o s with
    | none => rw [settle_call_none h]
    | some r =>
      rw [settle_call_some h, play_call_some h]
      exact ih r.1 r.2

end Prog

namespace Scheduler

variable {Op : Type} {Ans : Op → Type} {σ Spec Answer Ev ρ : Type}
  {M : Scheduler Op Ans σ Spec Answer Ev ρ} {A : (o : Op) → Ans o → Prop}
  {Q : Spec → ρ → Prop} {I : σ → Prop} {w w' : Pool Op Ans σ Spec ρ}

/-- Where the invariant holds, what an operation answers at once is admitted; the operations and
the environment keep it. -/
structure Keeps (M : Scheduler Op Ans σ Spec Answer Ev ρ) (A : (o : Op) → Ans o → Prop)
    (I : σ → Prop) : Prop where
  exec : ∀ o s a s', I s → M.exec o s = some (a, s') → A o a ∧ I s'
  env : ∀ s e s', I s → M.env s e = some s' → I s'

/-- Every task of the pool ends as it was promised for what it was started with. -/
def Promised (A : (o : Op) → Ans o → Prop) (Q : Spec → ρ → Prop) (w : Pool Op Ans σ Spec ρ) :
    Prop :=
  ∀ id t, w.tasks id = some t → t.prog.Ends A (Q t.spec)

/-- The answer that a step delivers is admitted by every operation that takes it. -/
def Delivers (M : Scheduler Op Ans σ Spec Answer Ev ρ) (A : (o : Op) → Ans o → Prop)
    (l : Act Spec Answer Ev) : Prop :=
  ∀ id answer, l = .resume id answer → ∀ o a, M.decode o answer = some a → A o a

/-- Nothing is lost by admitting every answer in every state. -/
theorem keeps_everything (M : Scheduler Op Ans σ Spec Answer Ev ρ) :
    M.Keeps (fun _ _ => True) (fun _ => True) :=
  ⟨fun _ _ _ _ _ _ => ⟨trivial, trivial⟩, fun _ _ _ _ _ => trivial⟩

theorem Promised.park (h : Promised A Q w) {id : ℕ} {spec : Spec} {r : Prog Op Ans ρ × σ}
    (hr : r.1.Ends A (Q spec)) : Promised A Q (w.park id spec r) := by
  intro id' t ht
  by_cases hid : id' = id
  · subst hid
    rw [Pool.park_tasks_self] at ht
    obtain rfl := Option.some.inj ht
    exact hr
  · rw [Pool.park_tasks_of_ne w spec r hid] at ht
    exact h id' t ht

theorem Promised.step (hbody : ∀ spec, (M.body spec).Ends A (Q spec)) (hkeeps : M.Keeps A I)
    (h : Promised A Q w) (hs : I w.shared) {l : Act Spec Answer Ev} (hl : M.Delivers A l)
    (hstep : M.step w l = some w') : Promised A Q w' ∧ I w'.shared := by
  cases l with
  | spawn id spec =>
    obtain ⟨-, rfl⟩ := step_spawn_iff.mp hstep
    obtain ⟨hends, hs'⟩ := (hbody spec).settle hkeeps.exec hs
    exact ⟨h.park hends, hs'⟩
  | resume id answer =>
    obtain ⟨spec, o, k, a, ht, ha, rfl⟩ := step_resume_iff.mp hstep
    have hcall : (Prog.call o k).Ends A (Q spec) := h id _ ht
    obtain ⟨hends, hs'⟩ := (hcall a (hl id answer rfl o a ha)).settle hkeeps.exec hs
    exact ⟨h.park hends, hs'⟩
  | wake id =>
    obtain ⟨spec, o, k, a, s, ht, ha, rfl⟩ := step_wake_iff.mp hstep
    have hcall : (Prog.call o k).Ends A (Q spec) := h id _ ht
    obtain ⟨hadmitted, hwoken⟩ := hkeeps.exec o w.shared a s hs ha
    obtain ⟨hends, hs'⟩ := (hcall a hadmitted).settle hkeeps.exec hwoken
    exact ⟨h.park hends, hs'⟩
  | env e =>
    obtain ⟨s, he, rfl⟩ := step_env_iff.mp hstep
    exact ⟨h, hkeeps.env w.shared e s hs he⟩

/-- In a run whose answers are admitted every finished task has ended as promised. -/
theorem promised_of_run (hbody : ∀ spec, (M.body spec).Ends A (Q spec)) (hkeeps : M.Keeps A I)
    {s : σ} (hstart : I s) {past : List (Pool Op Ans σ Spec ρ × Act Spec Answer Ev)}
    (run : Run M.step (Pool.idle s) past w) (hpast : ∀ x ∈ past, M.Delivers A x.2) :
    Promised A Q w := by
  suffices hboth : Promised A Q w ∧ I w.shared from hboth.1
  induction run with
  | start =>
    refine ⟨fun id t ht => ?_, hstart⟩
    simp [Pool.idle] at ht
  | @next past w l w' run hstep ih =>
    obtain ⟨hl, hrest⟩ := List.forall_mem_cons.mp hpast
    obtain ⟨h, hs⟩ := ih hrest
    exact h.step hbody hkeeps hs hl hstep

end Scheduler
