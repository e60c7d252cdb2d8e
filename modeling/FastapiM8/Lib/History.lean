import Mathlib.Tactic

/-! Runs of a labelled transition function together with their history. The history lists
the state and the label of every step, latest first, so that a property of a reached state
can refer to what the run has done before. -/

/-- `Run step s₀ past s`: the steps of `past` lead from `s₀` to `s`. -/
inductive Run {σ Λ : Type*} (step : σ → Λ → Option σ) (s₀ : σ) : List (σ × Λ) → σ → Prop
  | start : Run step s₀ [] s₀
  | next {past : List (σ × Λ)} {s : σ} {l : Λ} {s' : σ} (run : Run step s₀ past s)
      (h : step s l = some s') : Run step s₀ ((s, l) :: past) s'

namespace Run

variable {σ Λ κ β : Type*} {step : σ → Λ → Option σ} {s₀ s : σ} {past : List (σ × Λ)}

/-- An invariant that needs `Q` before and after each step holds while `Q` does. -/
theorem invariant_while {I Q : σ → Prop}
    (hI : ∀ s l s', Q s → I s → step s l = some s' → Q s' → I s')
    (h : Run step s₀ past s) (h₀ : I s₀) (hpast : ∀ e ∈ past, Q e.1) (hs : Q s) : I s := by
  induction h with
  | start => exact h₀
  | @next past s l s' run h ih =>
    have hq : Q s := hpast (s, l) List.mem_cons_self
    have hi : I s := ih (fun e he => hpast e (List.mem_cons_of_mem _ he)) hq
    exact hI s l s' hq hi h hs

/-- What holds at the start and is kept by every step holds in every reached state. -/
theorem invariant {I : σ → Prop} (hI : ∀ s l s', I s → step s l = some s' → I s')
    (h : Run step s₀ past s) (h₀ : I s₀) : I s :=
  invariant_while (Q := fun _ => True) (fun s l s' _ hi hs _ => hI s l s' hi hs) h h₀
    (fun _ _ => trivial) trivial

/-- Labels that can be taken one after the other make up a run. -/
theorem of_foldlM {labels : List Λ} (h : labels.foldlM step s₀ = some s) :
    ∃ past, Run step s₀ past s ∧ past.map Prod.snd = labels.reverse := by
  induction labels using List.reverseRecOn generalizing s with
  | nil =>
    obtain rfl := Option.some.inj h
    exact ⟨[], .start, rfl⟩
  | append_singleton labels l ih =>
    rw [List.foldlM_append] at h
    obtain ⟨m, hm, hl⟩ := Option.bind_eq_some_iff.mp h
    obtain ⟨past, run, hlabels⟩ := ih hm
    rw [List.foldlM_cons] at hl
    obtain ⟨s', hstep, hs'⟩ := Option.bind_eq_some_iff.mp hl
    obtain rfl := Option.some.inj hs'
    have hmap : ((m, l) :: past).map Prod.snd = (labels ++ [l]).reverse := by
      simp [hlabels]
    exact ⟨_, run.next hstep, hmap⟩

/-- A run and one more step, found by evaluating the labels. -/
theorem exists_step {labels : List Λ} {l : Λ} {q p : σ → Bool}
    (h : (labels.foldlM step s₀).any (fun s => q s && (step s l).any p) = true) :
    ∃ past s s', Run step s₀ past s ∧ past.map Prod.snd = labels.reverse ∧ q s = true ∧
      step s l = some s' ∧ p s' = true := by
  obtain ⟨s, hs, hqp⟩ := (Option.any_eq_true _ _).mp h
  obtain ⟨hq, hp⟩ := Bool.and_eq_true_iff.mp hqp
  obtain ⟨s', hs', hp'⟩ := (Option.any_eq_true _ _).mp hp
  obtain ⟨past, run, hlabels⟩ := of_foldlM hs
  exact ⟨past, s, s', run, hlabels, hq, hs', hp'⟩

/-- Take labels one after the other, each from a state that passes its check. -/
def follow {σ Λ : Type*} (step : σ → Λ → Option σ) : σ → List ((σ → Bool) × Λ) → Option σ
  | s, [] => some s
  | s, (check, l) :: script =>
    if check s then (step s l).bind fun s' => follow step s' script else none

/-- The step of a history takes the label of a script, from a state that passes its check. -/
def Took {σ Λ : Type*} (e : σ × Λ) (c : (σ → Bool) × Λ) : Prop := e.2 = c.2 ∧ c.1 e.1 = true

/-- Labels that can be followed make up a run through states that pass their checks. -/
theorem of_follow {script : List ((σ → Bool) × Λ)} (h : follow step s₀ script = some s) :
    ∃ past, Run step s₀ past s ∧ List.Forall₂ Took past script.reverse := by
  suffices hprefix : ∀ (done : List ((σ → Bool) × Λ)) (past : List (σ × Λ)) m,
      Run step s₀ past m → List.Forall₂ Took past done → follow step m script = some s →
      ∃ past', Run step s₀ past' s ∧ List.Forall₂ Took past' (script.reverse ++ done) by
    simpa using hprefix [] [] s₀ .start .nil h
  clear h
  induction script with
  | nil =>
    intro done past m run hall hm
    obtain rfl := Option.some.inj hm
    exact ⟨past, run, by simpa using hall⟩
  | cons c script ih =>
    intro done past m run hall hm
    obtain ⟨check, l⟩ := c
    rw [follow] at hm
    split at hm
    next hcheck =>
      obtain ⟨m', hstep, hrest⟩ := Option.bind_eq_some_iff.mp hm
      obtain ⟨past', run', hall'⟩ := ih ((check, l) :: done) ((m, l) :: past) m'
        (run.next hstep) (.cons ⟨rfl, hcheck⟩ hall) hrest
      exact ⟨past', run', by simpa using hall'⟩
    next => contradiction

/-- A run can be cut at every point of its history. -/
theorem split {newer older : List (σ × Λ)} (h : Run step s₀ (newer ++ older) s) :
    ∃ m, Run step s₀ older m ∧ Run step m newer s := by
  induction newer generalizing s with
  | nil => exact ⟨s, h, .start⟩
  | cons e newer ih =>
    cases h with
    | @next _ s₁ l _ run hstep =>
      obtain ⟨m, hm, hn⟩ := ih run
      exact ⟨m, hm, hn.next hstep⟩

/-- A run goes on from where another one ends. -/
theorem append {newer older : List (σ × Λ)} {m : σ} (h : Run step s₀ older m)
    (h' : Run step m newer s) : Run step s₀ (newer ++ older) s := by
  induction h' with
  | start => exact h
  | next run hstep ih => exact ih.next hstep

/-- The state recorded at a point of the history is the state reached there, and the step
recorded with it leads on to the rest of the run. -/
theorem split_cons {newer older : List (σ × Λ)} {s₁ : σ} {l : Λ}
    (h : Run step s₀ (newer ++ (s₁, l) :: older) s) :
    Run step s₀ older s₁ ∧ ∃ s₂, step s₁ l = some s₂ ∧ Run step s₂ newer s := by
  obtain ⟨m, hm, hn⟩ := h.split
  cases hm with
  | next run hstep => exact ⟨run, m, hstep, hn⟩

/-- The last step of a run, and the run that leads up to it. -/
theorem last {s₁ : σ} {l : Λ} (h : Run step s₀ ((s₁, l) :: past) s) :
    Run step s₀ past s₁ ∧ step s₁ l = some s := by
  cases h with
  | next run hstep => exact ⟨run, hstep⟩

/-- A number that every step raises by one or leaves alone is the number of the steps that
raised it. -/
theorem count {I : σ → Prop} (value : σ → ℕ) (counted : σ × Λ → Bool)
    (hI : ∀ s l s', I s → step s l = some s' → I s')
    (hstep : ∀ s l s', I s → step s l = some s' →
      value s' = value s + if counted (s, l) then 1 else 0)
    (h : Run step s₀ past s) (h₀ : I s₀) : value s = value s₀ + past.countP counted := by
  induction h with
  | start => rfl
  | @next past s l s' run h ih =>
    rw [hstep s l s' (run.invariant hI h₀) h, ih, List.countP_cons, Nat.add_assoc]

/-- Provenance: an entry of a table that every step either grants, or keeps from the state
before unless it covers the entry, was there at the start or was granted by a step of the
history, and no later step covers it. -/
theorem provenance {I : σ → Prop} (table : σ → κ → Option β)
    (grants covers : σ → Λ → κ → β → Prop)
    (hI : ∀ s l s', I s → step s l = some s' → I s')
    (hstep : ∀ s l s', I s → step s l = some s' → ∀ k x, table s' k = some x →
      grants s l k x ∨ table s k = some x ∧ ¬ covers s l k x)
    (h : Run step s₀ past s) (h₀ : I s₀) {k : κ} {x : β} (hx : table s k = some x) :
    (table s₀ k = some x ∧ ∀ e ∈ past, ¬ covers e.1 e.2 k x) ∨
      ∃ newer s₁ l₁ older, past = newer ++ (s₁, l₁) :: older ∧ grants s₁ l₁ k x ∧
        ∀ e ∈ newer, ¬ covers e.1 e.2 k x := by
  induction h with
  | start => exact .inl ⟨hx, fun e he => absurd he List.not_mem_nil⟩
  | @next past s l s' run h ih =>
    have hi : I s := run.invariant hI h₀
    rcases hstep s l s' hi h k x hx with hg | ⟨hold, hc⟩
    · exact .inr ⟨[], s, l, past, rfl, hg, fun e he => absurd he List.not_mem_nil⟩
    · rcases ih hold with ⟨hstart, hall⟩ | ⟨newer, s₁, l₁, older, rfl, hg, hall⟩
      · exact .inl ⟨hstart, List.forall_mem_cons.mpr ⟨hc, hall⟩⟩
      · exact .inr ⟨(s, l) :: newer, s₁, l₁, older, rfl, hg, List.forall_mem_cons.mpr ⟨hc, hall⟩⟩

end Run
