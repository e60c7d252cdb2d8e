import FastapiM8.Lib.Monitor
import FastapiM8.Lib.Pool

/-! The course of one task through a run of its pool. Whatever the other tasks do in between, a
task performs a trace of its own program, and the part of the trace that is answered from outside
is what the run has delivered to it. A program that keeps to a protocol with the outside
therefore keeps to it in every run. -/

namespace Prog

variable {Op : Type} {Ans : Op → Type} {α σ : Type} {exec : (o : Op) → σ → Option (Ans o × σ)}

theorem Trace.trans {p q r : Prog Op Ans α} {tr tr' : List (Event Op Ans)} (h : p.Trace tr q)
    (h' : q.Trace tr' r) : p.Trace (tr ++ tr') r := by
  induction h with
  | stop p => exact h'
  | perform a rest ih => exact .perform a (ih h')

/-- A segment performs operations that the shared state answers. -/
theorem trace_settle (p : Prog Op Ans α) (s : σ) :
    ∃ tr, p.Trace tr (p.settle exec s).1 ∧ ∀ e ∈ tr, ∃ s, exec e.1 s ≠ none := by
  induction p generalizing s with
  | ret a => exact ⟨[], .stop _, by simp⟩
  | call o k ih =>
    cases h : exec o s with
    | none =>
      rw [settle_call_none h]
      exact ⟨[], .stop _, by simp⟩
    | some r =>
      obtain ⟨a, s'⟩ := r
      rw [settle_call_some h]
      obtain ⟨tr, htr, hall⟩ := ih a s'
      refine ⟨⟨o, a⟩ :: tr, .perform a htr, List.forall_mem_cons.mpr ⟨⟨s, ?_⟩, hall⟩⟩
      simp [h]

/-- A segment ends with a result or on an operation that the shared state does not answer. -/
theorem exec_of_awaits_settle {p : Prog Op Ans α} {s : σ} {o : Op}
    (h : (p.settle exec s).1.awaits = some o) : exec o (p.settle exec s).2 = none := by
  induction p generalizing s with
  | ret a => contradiction
  | call o' k ih =>
    cases ho : exec o' s with
    | none =>
      rw [settle_call_none ho] at h ⊢
      obtain rfl := Option.some.inj h
      exact ho
    | some r =>
      rw [settle_call_some ho] at h ⊢
      exact ih r.1 h

end Prog

namespace Monitor

open Prog

variable {Op : Type} {Ans : Op → Type} {α : Type} {outside : Op → Bool}
  {Permits : List (Event Op Ans) → Op → Prop} {tr tr' : List (Event Op Ans)}

/-- The monitor that remembers what was answered from outside, and says by it what may be asked
of the outside next. -/
def protocol (outside : Op → Bool) (Permits : List (Event Op Ans) → Op → Prop) :
    Monitor Op Ans (List (Event Op Ans)) where
  admits tr o := outside o = true → Permits tr o
  next tr o a := if outside o then tr ++ [⟨o, a⟩] else tr

theorem protocol_next_outside {o : Op} (h : outside o = true) (a : Ans o) :
    (protocol outside Permits).next tr o a = tr ++ [⟨o, a⟩] := if_pos h

theorem protocol_next_inside {o : Op} (h : outside o = false) (a : Ans o) :
    (protocol outside Permits).next tr o a = tr := by simp [protocol, h]

theorem after_protocol :
    (protocol outside Permits).after tr tr' = tr ++ tr'.filter fun e => outside e.1 := by
  induction tr' generalizing tr with
  | nil => simp
  | cons e tr' ih =>
    rw [after_cons, ih, List.filter_cons]
    cases he : outside e.1 with
    | false => rw [protocol_next_inside he, if_neg Bool.false_ne_true]
    | true => rw [protocol_next_outside he, if_pos rfl, List.append_assoc, List.singleton_append]

/-- Every question of an accepted trace was permitted by the answers before it. -/
theorem permits_of_accepts (h : (protocol outside Permits).Accepts tr tr')
    {before after : List (Event Op Ans)} {e : Event Op Ans}
    (hsplit : (tr'.filter fun e => outside e.1) = before ++ e :: after) :
    Permits (tr ++ before) e.1 := by
  obtain ⟨tr₁, tr₂, rfl, rfl, hrest⟩ := List.filter_eq_append_iff.mp hsplit
  obtain ⟨tr₃, tr₄, rfl, hinside, he, -⟩ := List.filter_eq_cons_iff.mp hrest
  obtain ⟨-, haccepts⟩ := (accepts_append _ _).mp h
  obtain ⟨-, hadmits, -⟩ := (accepts_append _ _).mp haccepts
  rw [after_protocol, after_protocol, List.filter_eq_nil_iff.mpr hinside, List.append_nil]
    at hadmits
  exact hadmits he

/-- An operation of the shared state is of no account. -/
theorem watches_inside {Q : List (Event Op Ans) → α → Prop} {o : Op} {k : Ans o → Prog Op Ans α}
    (ho : outside o = false) (hk : ∀ a, (protocol outside Permits).Watches Q tr (k a)) :
    (protocol outside Permits).Watches Q tr (.call o k) := by
  refine ⟨fun houtside => ?_, fun a _ => ?_⟩
  · rw [ho] at houtside
    contradiction
  · rw [protocol_next_inside ho]
    exact hk a

/-- A question to the outside has to be permitted, and its answer is remembered. -/
theorem watches_outside {Q : List (Event Op Ans) → α → Prop} {o : Op} {k : Ans o → Prog Op Ans α}
    (ho : outside o = true) (hpermits : Permits tr o)
    (hk : ∀ a, (protocol outside Permits).Watches Q (tr ++ [⟨o, a⟩]) (k a)) :
    (protocol outside Permits).Watches Q tr (.call o k) := by
  refine ⟨fun _ => hpermits, fun a _ => ?_⟩
  rw [protocol_next_outside ho]
  exact hk a

theorem Watches.permits_mono {Q : List (Event Op Ans) → α → Prop} {p : Prog Op Ans α}
    {Permits' : List (Event Op Ans) → Op → Prop} (h : (protocol outside Permits).Watches Q tr p)
    (hpermits : ∀ tr o, Permits tr o → Permits' tr o) :
    (protocol outside Permits').Watches Q tr p := by
  induction p generalizing tr with
  | ret a => exact h
  | call o k ih => exact ⟨fun ho => hpermits tr o (h.1 ho), fun a ha => ih a (h.2 a ha)⟩

end Monitor

namespace Scheduler

open Prog

variable {Op : Type} {Ans : Op → Type} {σ Spec Answer Ev ρ : Type}
  (M : Scheduler Op Ans σ Spec Answer Ev ρ)

/-- What a step delivers to a task: the operation that it is suspended on, with the answer. -/
def delivery (id : ℕ) (w : Pool Op Ans σ Spec ρ) : Act Spec Answer Ev → Option (Event Op Ans)
  | .resume id' answer =>
    if id' = id then (w.awaits id).bind fun o => (M.decode o answer).map fun a => ⟨o, a⟩ else none
  | _ => none

/-- What a run has delivered to a task, in order. -/
def deliveries (id : ℕ) (past : List (Pool Op Ans σ Spec ρ × Act Spec Answer Ev)) :
    List (Event Op Ans) :=
  (past.filterMap fun e => M.delivery id e.1 e.2).reverse

variable {M} {w w' : Pool Op Ans σ Spec ρ} {l : Act Spec Answer Ev} {id : ℕ}
  {past : List (Pool Op Ans σ Spec ρ × Act Spec Answer Ev)}

theorem deliveries_cons : M.deliveries id ((w, l) :: past) =
    M.deliveries id past ++ (M.delivery id w l).toList := by
  unfold deliveries
  cases h : M.delivery id w l <;> simp [h]

theorem delivery_resume {spec : Spec} {o : Op} {k : Ans o → Prog Op Ans ρ} {answer : Answer}
    {a : Ans o} (ht : w.tasks id = some ⟨spec, .call o k⟩) (ha : M.decode o answer = some a) :
    M.delivery id w (.resume id answer) = some ⟨o, a⟩ := by
  have hawaits : w.awaits id = some o := Pool.awaits_of_tasks ht
  simp [delivery, hawaits, ha]

theorem deliveries_resume {spec : Spec} {o : Op} {k : Ans o → Prog Op Ans ρ} {answer : Answer}
    {a : Ans o} (ht : w.tasks id = some ⟨spec, .call o k⟩) (ha : M.decode o answer = some a) :
    M.deliveries id ((w, .resume id answer) :: past) = M.deliveries id past ++ [⟨o, a⟩] := by
  rw [deliveries_cons, delivery_resume ht ha, Option.toList_some]

theorem deliveries_resume_of_ne {id' : ℕ} {answer : Answer} (h : id ≠ id') :
    M.deliveries id ((w, .resume id' answer) :: past) = M.deliveries id past := by
  have hnone : M.delivery id w (.resume id' answer) = none := if_neg (Ne.symm h)
  rw [deliveries_cons, hnone, Option.toList_none, List.append_nil]

theorem deliveries_of_quiet (h : ∀ id' answer, l ≠ .resume id' answer) :
    M.deliveries id ((w, l) :: past) = M.deliveries id past := by
  rw [deliveries_cons]
  cases l with
  | resume id' answer => exact absurd rfl (h id' answer)
  | _ => exact List.append_nil _

variable {outside : Op → Bool} {delivered : List (Event Op Ans)}

/-- The task has performed a trace of its program whose part from outside was delivered to it,
and it waits for the outside if at all; nothing was delivered to a task that was not started. -/
def OnCourse (M : Scheduler Op Ans σ Spec Answer Ev ρ) (outside : Op → Bool)
    (delivered : List (Event Op Ans)) : Option (Thread Op Ans Spec ρ) → Prop
  | none => delivered = []
  | some t => (∃ tr, (M.body t.spec).Trace tr t.prog ∧
      (tr.filter fun e => outside e.1) = delivered) ∧
      ∀ o, t.prog.awaits = some o → outside o = true

section

variable (hexec : ∀ o s, M.exec o s = none ↔ outside o = true)
include hexec

/-- A task that runs a segment stays on its course. -/
theorem onCourse_settle {spec : Spec} {p : Prog Op Ans ρ} {tr : List (Event Op Ans)}
    (htr : (M.body spec).Trace tr p) (hdelivered : (tr.filter fun e => outside e.1) = delivered)
    (s : σ) : M.OnCourse outside delivered (some ⟨spec, (p.settle M.exec s).1⟩) := by
  obtain ⟨tr', htr', hall⟩ : ∃ tr', p.Trace tr' (p.settle M.exec s).1 ∧
      ∀ e ∈ tr', ∃ s, M.exec e.1 s ≠ none := trace_settle p s
  have hinside : (tr'.filter fun e => outside e.1) = [] := by
    rw [List.filter_eq_nil_iff]
    intro e he houtside
    obtain ⟨s', hanswered⟩ := hall e he
    exact hanswered ((hexec e.1 s').mpr houtside)
  refine ⟨⟨tr ++ tr', htr.trans htr', ?_⟩, ?_⟩
  · rw [List.filter_append, hinside, List.append_nil, hdelivered]
  · intro o ho
    exact (hexec o _).mp (exec_of_awaits_settle ho)

theorem OnCourse.step (h : M.OnCourse outside (M.deliveries id past) (w.tasks id))
    (hstep : M.step w l = some w') :
    M.OnCourse outside (M.deliveries id ((w, l) :: past)) (w'.tasks id) := by
  cases l with
  | spawn id' spec =>
    obtain ⟨hnew, rfl⟩ := step_spawn_iff.mp hstep
    rw [deliveries_of_quiet (by simp)]
    by_cases hid : id = id'
    · subst hid
      rw [hnew] at h
      rw [Pool.park_tasks_self, show M.deliveries id past = [] from h]
      exact onCourse_settle hexec (.stop (M.body spec)) rfl w.shared
    · rw [Pool.park_tasks_of_ne w spec _ hid]
      exact h
  | resume id' answer =>
    obtain ⟨spec, o, k, a, ht, ha, rfl⟩ := step_resume_iff.mp hstep
    by_cases hid : id = id'
    · subst hid
      rw [ht] at h
      obtain ⟨⟨tr, htr, hdelivered⟩, hwaits⟩ := h
      have hout : outside o = true := hwaits o rfl
      rw [Pool.park_tasks_self, deliveries_resume ht ha]
      refine onCourse_settle hexec (htr.trans (.perform a (.stop (k a)))) ?_ w.shared
      rw [List.filter_append, hdelivered, List.filter_cons, if_pos hout, List.filter_nil]
    · rw [Pool.park_tasks_of_ne w spec _ hid, deliveries_resume_of_ne hid]
      exact h
  | wake id' =>
    obtain ⟨spec, o, k, a, s, ht, ha, rfl⟩ := step_wake_iff.mp hstep
    rw [deliveries_of_quiet (by simp)]
    by_cases hid : id = id'
    · -- a task that waits for the outside is not woken
      subst hid
      rw [ht] at h
      have hnone := (hexec o w.shared).mpr (h.2 o rfl)
      rw [hnone] at ha
      contradiction
    · rw [Pool.park_tasks_of_ne w spec _ hid]
      exact h
  | env e =>
    obtain ⟨s, -, rfl⟩ := step_env_iff.mp hstep
    rw [deliveries_of_quiet (by simp)]
    exact h

/-- Every task of a run is on its course. -/
theorem onCourse_of_run {s : σ} (run : Run M.step (.idle s) past w) (id : ℕ) :
    M.OnCourse outside (M.deliveries id past) (w.tasks id) := by
  induction run with
  | start => rfl
  | next run hstep ih => exact ih.step hexec hstep

/-- Tasks whose programs keep to a protocol keep to it in every run: what was delivered to a task
was permitted by the deliveries before it, and what the task waits for is permitted by all. -/
theorem protocol_of_run {Permits : Spec → List (Event Op Ans) → Op → Prop}
    (hbody : ∀ spec, (Monitor.protocol outside (Permits spec)).Watches (fun _ _ => True) []
      (M.body spec))
    {s : σ} (run : Run M.step (.idle s) past w) {t : Thread Op Ans Spec ρ}
    (ht : w.tasks id = some t) :
    (∀ before e after, M.deliveries id past = before ++ e :: after →
      Permits t.spec before e.1) ∧
    ∀ o, t.prog.awaits = some o → Permits t.spec (M.deliveries id past) o := by
  have hcourse := onCourse_of_run hexec run id
  rw [ht] at hcourse
  obtain ⟨⟨tr, htr, hdelivered⟩, hwaits⟩ := hcourse
  obtain ⟨haccepts, hwatches⟩ := (hbody t.spec).sound htr fun _ _ => trivial
  rw [Monitor.after_protocol, hdelivered, List.nil_append] at hwatches
  constructor
  · intro before e after hsplit
    exact Monitor.permits_of_accepts haccepts (hdelivered.trans hsplit)
  · intro o ho
    exact hwatches.admits ho (hwaits o ho)

end

end Scheduler
