import FastapiM8.Lib.History
import FastapiM8.Lib.Monitor

/-! Threads that run a program under a common lock, and are preempted between any two of its
operations. Every run is the serial one in which the programs run whole, in the order in which the
threads give the lock back. -/

/-- A thread at a `with` statement of the lock. -/
inductive Locker (Op : Type) (Ans : Op → Type) (ρ : Type) where
  | waiting
  | inside (p : Prog Op Ans ρ)
  | done (r : ρ)

/-- What is run under the lock, and how the data that it protects answer an operation, given what
comes from outside. -/
structure Locked (Op : Type) (Ans : Op → Type) (σ In ρ : Type) where
  body : Prog Op Ans ρ
  exec : (o : Op) → σ → In → Option (Ans o × σ)

structure LockState (Op : Type) (Ans : Op → Type) (σ ρ : Type) where
  data : σ
  holder : Option ℕ
  threads : ℕ → Option (Locker Op Ans ρ)

inductive LockAct (In : Type) where
  | enter (id : ℕ)
  | acquire (id : ℕ)
  | perform (id : ℕ) (input : In)
  | release (id : ℕ)

/-- The act is one of a thread that has come to the lock already. -/
def LockAct.Continues {In : Type} (id : ℕ) : LockAct In → Prop
  | .enter _ => False
  | .acquire id' | .perform id' _ | .release id' => id' = id

/-- The thread that an act lets give the lock back. -/
def LockAct.released? {In : Type} : LockAct In → Option ℕ
  | .release id => some id
  | _ => none

variable {Op : Type} {Ans : Op → Type} {σ In ρ : Type}

namespace LockState

def init (s : σ) : LockState Op Ans σ ρ := ⟨s, none, fun _ => none⟩

def setThread (w : LockState Op Ans σ ρ) (id : ℕ) (t : Locker Op Ans ρ) : LockState Op Ans σ ρ :=
  { w with threads := Function.update w.threads id (some t) }

@[simp] theorem setThread_self (w : LockState Op Ans σ ρ) (id : ℕ) (t : Locker Op Ans ρ) :
    (w.setThread id t).threads id = some t := by
  simp [setThread]

theorem setThread_of_ne (w : LockState Op Ans σ ρ) {id id' : ℕ} (t : Locker Op Ans ρ)
    (h : id' ≠ id) : (w.setThread id t).threads id' = w.threads id' := by
  simp [setThread, h]

end LockState

namespace Locked

variable (M : Locked Op Ans σ In ρ)

def step (w : LockState Op Ans σ ρ) : LockAct In → Option (LockState Op Ans σ ρ)
  | .enter id =>
    match w.threads id with
    | none => some (w.setThread id .waiting)
    | some _ => none
  | .acquire id =>
    match w.threads id, w.holder with
    | some .waiting, none => some { w.setThread id (.inside M.body) with holder := some id }
    | _, _ => none
  | .perform id input =>
    match w.threads id with
    | some (.inside (.call o k)) =>
      (M.exec o w.data input).map fun r => { w.setThread id (.inside (k r.1)) with data := r.2 }
    | _ => none
  | .release id =>
    match w.threads id with
    | some (.inside (.ret r)) => some { w.setThread id (.done r) with holder := none }
    | _ => none

/-- The program performs these operations on the data without being preempted. -/
inductive Performs : σ → Prog Op Ans ρ → List (Prog.Event Op Ans) → σ → Prog Op Ans ρ → Prop
  | stop (s : σ) (p : Prog Op Ans ρ) : Performs s p [] s p
  | perform {s s₁ s' : σ} {o : Op} {k : Ans o → Prog Op Ans ρ} {input : In} {a : Ans o}
      {tr : List (Prog.Event Op Ans)} {q : Prog Op Ans ρ} (h : M.exec o s input = some (a, s₁))
      (rest : Performs s₁ (k a) tr s' q) : Performs s (.call o k) (⟨o, a⟩ :: tr) s' q

/-- A thread that has given the lock back, with what its program performed. -/
structure Section (Op : Type) (Ans : Op → Type) (ρ : Type) where
  thread : ℕ
  trace : List (Prog.Event Op Ans)
  result : ρ

/-- The programs of the log ran one after the other, the latest one first. -/
inductive Serial (s₀ : σ) : List (Section Op Ans ρ) → σ → Prop
  | nil : Serial s₀ [] s₀
  | cons {log : List (Section Op Ans ρ)} {s s' : σ} {x : Section Op Ans ρ}
      (before : Serial s₀ log s) (h : M.Performs s M.body x.trace s' (.ret x.result)) :
      Serial s₀ (x :: log) s'

variable {M} {s₀ s s' : σ} {w w' : LockState Op Ans σ ρ} {l : LockAct In}
  {log : List (Section Op Ans ρ)} {tr : List (Prog.Event Op Ans)} {p q : Prog Op Ans ρ}

theorem Performs.snoc {o : Op} {k : Ans o → Prog Op Ans ρ} {input : In} {a : Ans o} {s'' : σ}
    (h : M.Performs s p tr s' (.call o k)) (ha : M.exec o s' input = some (a, s'')) :
    M.Performs s p (tr ++ [⟨o, a⟩]) s'' (k a) := by
  generalize hq : Prog.call o k = q at h
  induction h with
  | stop s p =>
    subst hq
    exact .perform ha (.stop _ _)
  | perform h rest ih => exact .perform h (ih ha hq)

theorem performs_ret {a r : ρ} (h : M.Performs s (.ret a) tr s' (.ret r)) :
    tr = [] ∧ s' = s ∧ r = a := by
  cases h
  exact ⟨rfl, rfl, rfl⟩

theorem performs_call {o : Op} {k : Ans o → Prog Op Ans ρ} {r : ρ}
    (h : M.Performs s (.call o k) tr s' (.ret r)) :
    ∃ input a s₁ rest, M.exec o s input = some (a, s₁) ∧ tr = ⟨o, a⟩ :: rest ∧
      M.Performs s₁ (k a) rest s' (.ret r) := by
  cases h with
  | perform h rest => exact ⟨_, _, _, _, h, rfl, rest⟩

/-- What the threads have done so far: a serial log of the finished programs, and the thread that
holds the lock, which has begun where the log ends. -/
structure Serialised (M : Locked Op Ans σ In ρ) (s₀ : σ) (log : List (Section Op Ans ρ)) (s : σ)
    (w : LockState Op Ans σ ρ) : Prop where
  serial : M.Serial s₀ log s
  done_iff : ∀ id r, w.threads id = some (.done r) ↔ ∃ x ∈ log, x.thread = id ∧ x.result = r
  free : w.holder = none → w.data = s ∧ ∀ id p, w.threads id ≠ some (.inside p)
  held : ∀ id, w.holder = some id → ∃ p tr, w.threads id = some (.inside p) ∧
    M.Performs s M.body tr w.data p ∧ ∀ id' p', w.threads id' = some (.inside p') → id' = id

theorem serialised_init : M.Serialised s₀ [] s₀ (.init s₀) where
  serial := .nil
  done_iff id r := by simp [LockState.init]
  free _ := ⟨rfl, fun id p h => by contradiction⟩
  held id h := by contradiction

/-- A thread inside holds the lock. -/
theorem Serialised.holder_eq (h : M.Serialised s₀ log s w) {id : ℕ}
    (ht : w.threads id = some (.inside p)) : w.holder = some id := by
  cases hholder : w.holder with
  | none => exact absurd ht ((h.free hholder).2 id p)
  | some id' =>
    obtain ⟨_, _, _, _, honly⟩ := h.held id' hholder
    rw [honly id p ht]

/-- Every step keeps the log, or appends the thread that gives the lock back. -/
theorem Serialised.step (h : M.Serialised s₀ log s w) (hstep : M.step w l = some w') :
    (l.released? = none ∧ M.Serialised s₀ log s w') ∨
      ∃ x s', l.released? = some x.thread ∧ M.Serialised s₀ (x :: log) s' w' := by
  cases l with
  | enter id =>
    simp only [Locked.step] at hstep
    split at hstep
    next hnew =>
      obtain rfl := Option.some.inj hstep
      have hthread : ∀ id' t, t ≠ .waiting →
          ((w.setThread id .waiting).threads id' = some t ↔ w.threads id' = some t) := by
        intro id' t ht
        by_cases hid : id' = id
        · subst hid
          simp [hnew, Ne.symm ht]
        · rw [w.setThread_of_ne _ hid]
      refine .inl ⟨rfl, h.serial, fun id' r => ?_, fun hfree => ?_, fun id' hheld => ?_⟩
      · rw [hthread id' _ (by simp)]
        exact h.done_iff id' r
      · obtain ⟨hdata, hnone⟩ := h.free hfree
        exact ⟨hdata, fun id' p => (hthread id' _ (by simp)).not.mpr (hnone id' p)⟩
      · obtain ⟨p, tr, hp, hperforms, honly⟩ := h.held id' hheld
        refine ⟨p, tr, (hthread id' _ (by simp)).mpr hp, hperforms, fun id'' p' hp' => ?_⟩
        exact honly id'' p' ((hthread id'' _ (by simp)).mp hp')
    next => contradiction
  | acquire id =>
    simp only [Locked.step] at hstep
    split at hstep
    next hwaiting hfree =>
      obtain rfl := Option.some.inj hstep
      obtain ⟨hdata, hnone⟩ := h.free hfree
      refine .inl ⟨rfl, h.serial, fun id' r => ?_, fun hfree => by contradiction,
        fun id' hheld => ?_⟩
      · rw [← h.done_iff id' r]
        by_cases hid : id' = id
        · subst hid
          simp [hwaiting]
        · exact iff_of_eq (congrArg (· = _) (w.setThread_of_ne _ hid))
      · obtain rfl := Option.some.inj hheld
        refine ⟨M.body, [], w.setThread_self _ _, hdata ▸ .stop _ _, fun id' p' hp' => ?_⟩
        by_contra hid
        rw [show _ = w.threads id' from w.setThread_of_ne _ hid] at hp'
        exact hnone id' p' hp'
    next => contradiction
  | perform id input =>
    simp only [Locked.step] at hstep
    split at hstep
    next o k hcall =>
      obtain ⟨⟨a, s₁⟩, ha, rfl⟩ := Option.map_eq_some_iff.mp hstep
      have hholder := h.holder_eq hcall
      obtain ⟨p, tr, hp, hperforms, honly⟩ := h.held id hholder
      obtain rfl : p = .call o k := by
        rw [hcall] at hp
        exact (Locker.inside.inj (Option.some.inj hp)).symm
      refine .inl ⟨rfl, h.serial, fun id' r => ?_, fun hfree => ?_, fun id' hheld => ?_⟩
      · rw [← h.done_iff id' r]
        by_cases hid : id' = id
        · subst hid
          simp [hcall]
        · exact iff_of_eq (congrArg (· = _) (w.setThread_of_ne _ hid))
      · exact absurd (hholder.symm.trans hfree) (by simp)
      · obtain rfl := Option.some.inj (hholder.symm.trans hheld)
        refine ⟨k a, tr ++ [⟨o, a⟩], w.setThread_self _ _, hperforms.snoc ha, fun id' p' hp' => ?_⟩
        by_contra hid
        rw [show _ = w.threads id' from w.setThread_of_ne _ hid] at hp'
        exact hid (honly id' p' hp')
    next => contradiction
  | release id =>
    simp only [Locked.step] at hstep
    split at hstep
    next r hret =>
      obtain rfl := Option.some.inj hstep
      have hholder := h.holder_eq hret
      obtain ⟨p, tr, hp, hperforms, honly⟩ := h.held id hholder
      obtain rfl : p = .ret r := by
        rw [hret] at hp
        exact (Locker.inside.inj (Option.some.inj hp)).symm
      refine .inr ⟨⟨id, tr, r⟩, w.data, rfl, .cons h.serial hperforms, fun id' r' => ?_,
        fun _ => ⟨rfl, fun id' p' hp' => ?_⟩, fun id' hheld => by contradiction⟩
      · by_cases hid : id' = id
        · subst hid
          have hnot : ¬ ∃ x ∈ log, x.thread = id' ∧ x.result = r' := by
            rw [← h.done_iff, hret]
            simp
          rw [show _ = some (Locker.done r) from w.setThread_self id' _]
          simp only [Option.some.injEq, Locker.done.injEq, List.mem_cons, exists_eq_or_imp,
            true_and]
          exact (or_iff_left hnot).symm
        · rw [show _ = w.threads id' from w.setThread_of_ne _ hid, h.done_iff]
          simp [Ne.symm hid]
      · by_cases hid : id' = id
        · subst hid
          rw [show _ = some (Locker.done r) from w.setThread_self id' _] at hp'
          simp at hp'
        · rw [show _ = w.threads id' from w.setThread_of_ne _ hid] at hp'
          exact hid (honly id' p' hp')
    next => contradiction

/-- Every run is a serial one: its log lists the finished threads in the order in which they gave
the lock back. -/
theorem serialised_of_run {past : List (LockState Op Ans σ ρ × LockAct In)}
    (run : Run M.step (.init s₀) past w) :
    ∃ log s, M.Serialised s₀ log s w ∧
      log.map Section.thread = past.filterMap fun e => e.2.released? := by
  induction run with
  | start => exact ⟨[], s₀, serialised_init, rfl⟩
  | @next past w l w' run hstep ih =>
    obtain ⟨log, s, h, hlog⟩ := ih
    rcases h.step hstep with ⟨hl, h'⟩ | ⟨x, s', hl, h'⟩
    · exact ⟨log, s, h', by simp [hl, hlog]⟩
    · exact ⟨x :: log, s', h', by simp [hl, hlog]⟩

/-- A thread inside ends by itself, and gives the lock back. -/
theorem finish_inside (hexec : ∀ o s, ∃ input r, M.exec o s input = some r) {id : ℕ}
    (ht : w.threads id = some (.inside p)) :
    ∃ future w' r, Run M.step w future w' ∧ w'.threads id = some (.done r) ∧ w'.holder = none ∧
      (∀ id', id' ≠ id → w'.threads id' = w.threads id') ∧ ∀ x ∈ future, x.2.Continues id := by
  induction p generalizing w with
  | ret r =>
    have hstep : M.step w (.release id) =
        some { w.setThread id (.done r) with holder := none } := by
      simp only [Locked.step, ht]
    refine ⟨_, _, r, Run.start.next hstep, w.setThread_self id _, rfl, fun id' hid => ?_, ?_⟩
    · exact w.setThread_of_ne _ hid
    · simp [LockAct.Continues]
  | call o k ih =>
    obtain ⟨input, ⟨a, s⟩, ha⟩ := hexec o w.data
    have hstep : M.step w (.perform id input) =
        some { w.setThread id (.inside (k a)) with data := s } := by
      simp only [Locked.step, ht, ha, Option.map_some]
    have hinside : ({ w.setThread id (.inside (k a)) with data := s } :
        LockState Op Ans σ ρ).threads id = some (.inside (k a)) := w.setThread_self id _
    obtain ⟨future, w', r, run, hdone, hfree, hothers, hown⟩ := ih a hinside
    refine ⟨_, w', r, (Run.start.next hstep).append run, hdone, hfree, fun id' hid => ?_, ?_⟩
    · rw [hothers id' hid]
      exact w.setThread_of_ne _ hid
    · simpa [or_imp, forall_and, LockAct.Continues] using hown

/-- A thread that waits for a free lock ends by itself. -/
theorem finish_waiting (hexec : ∀ o s, ∃ input r, M.exec o s input = some r) {id : ℕ}
    (ht : w.threads id = some .waiting) (hfree : w.holder = none) :
    ∃ future w' r, Run M.step w future w' ∧ w'.threads id = some (.done r) ∧
      ∀ x ∈ future, x.2.Continues id := by
  have hstep : M.step w (.acquire id) =
      some { w.setThread id (.inside M.body) with holder := some id } := by
    simp only [Locked.step, ht, hfree]
  have hinside : ({ w.setThread id (.inside M.body) with holder := some id } :
      LockState Op Ans σ ρ).threads id = some (.inside M.body) := w.setThread_self id _
  obtain ⟨future, w', r, run, hdone, -, -, hown⟩ := finish_inside hexec hinside
  refine ⟨_, w', r, (Run.start.next hstep).append run, hdone, ?_⟩
  simpa [or_imp, forall_and, LockAct.Continues] using hown

/-- The lock blocks no thread for good: by acts of the thread that holds it and of its own alone,
every thread at the lock comes to its end. -/
theorem Serialised.progress (h : M.Serialised s₀ log s w)
    (hexec : ∀ o s, ∃ input r, M.exec o s input = some r) {id : ℕ} {t : Locker Op Ans ρ}
    (ht : w.threads id = some t) :
    ∃ future w' r, Run M.step w future w' ∧ w'.threads id = some (.done r) ∧
      ∀ x ∈ future, x.2.Continues id ∨ ∃ id', w.holder = some id' ∧ x.2.Continues id' := by
  cases t with
  | done r => exact ⟨[], w, r, .start, ht, by simp⟩
  | inside p =>
    obtain ⟨future, w', r, run, hdone, -, -, hown⟩ := finish_inside hexec ht
    exact ⟨future, w', r, run, hdone, fun x hx => .inl (hown x hx)⟩
  | waiting =>
    cases hholder : w.holder with
    | none =>
      obtain ⟨future, w', r, run, hdone, hown⟩ := finish_waiting hexec ht hholder
      exact ⟨future, w', r, run, hdone, fun x hx => .inl (hown x hx)⟩
    | some id' =>
      -- first the holder ends, which leaves this thread waiting
      obtain ⟨p, tr, hp, -⟩ := h.held id' hholder
      have hne : id ≠ id' := by
        rintro rfl
        rw [ht] at hp
        exact absurd (Option.some.inj hp) (by simp)
      obtain ⟨older, m, r', run, -, hfree, hothers, hother⟩ := finish_inside hexec hp
      have hwaits : m.threads id = some .waiting := (hothers id hne).trans ht
      obtain ⟨newer, w', r, run', hdone, hown⟩ := finish_waiting hexec hwaits hfree
      refine ⟨newer ++ older, w', r, run.append run', hdone, fun x hx => ?_⟩
      rcases List.mem_append.mp hx with hx | hx
      · exact .inl (hown x hx)
      · exact .inr ⟨id', rfl, hother x hx⟩

end Locked
