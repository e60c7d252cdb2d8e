import FastapiM8.Lib.History
import Mathlib.Data.List.Forall2

/-! Two machines in lockstep. When steps with matching labels keep a relation of the states and
are possible in both machines or in none, every run of one machine is, label by label, a run of
the other one through related states. -/

theorem Option.Rel.map_of {α β γ δ : Type*} {r : α → β → Prop} {q : γ → δ → Prop} {f : α → γ}
    {g : β → δ} {a : Option α} {b : Option β} (h : Option.Rel r a b)
    (hfg : ∀ a b, r a b → q (f a) (g b)) : Option.Rel q (a.map f) (b.map g) := by
  cases h with
  | some hab => exact .some (hfg _ _ hab)
  | none => exact .none

theorem Option.Rel.eq_of_map {α β γ : Type*} {r : α → β → Prop} {f : α → γ} {g : β → γ}
    {a : Option α} {b : Option β} (h : Option.Rel r a b) (hfg : ∀ a b, r a b → f a = g b) :
    a.map f = b.map g := by
  cases h with
  | some hab => exact congrArg Option.some (hfg _ _ hab)
  | none => rfl

theorem Option.Rel.exists_right {α β : Type*} {r : α → β → Prop} {a : α} {b : Option β}
    (h : Option.Rel r (Option.some a) b) : ∃ b', b = Option.some b' ∧ r a b' := by
  cases h with
  | some hab => exact ⟨_, rfl, hab⟩

theorem Option.Rel.exists_left {α β : Type*} {r : α → β → Prop} {a : Option α} {b : β}
    (h : Option.Rel r a (Option.some b)) : ∃ a', a = Option.some a' ∧ r a' b := by
  cases h with
  | some hab => exact ⟨_, rfl, hab⟩

section Lockstep

variable {σ τ Λ Μ α : Type*} {step : σ → Λ → Option σ} {step' : τ → Μ → Option τ}

/-- Steps with matching labels take related states to related states, or are not possible in
either of them. -/
def Lockstep (step : σ → Λ → Option σ) (step' : τ → Μ → Option τ) (related : σ → τ → Prop)
    (matching : Λ → Μ → Prop) : Prop :=
  ∀ s t l m, related s t → matching l m → Option.Rel related (step s l) (step' t m)

variable {related : σ → τ → Prop} {matching : Λ → Μ → Prop} {s₀ s : σ} {t₀ : τ}
  {past : List (σ × Λ)} {labels : List Μ}

/-- Every run of the first machine is a run of the second one on matching labels. -/
theorem Lockstep.run (hstep : Lockstep step step' related matching) (h : Run step s₀ past s)
    (h₀ : related s₀ t₀) (hlabels : List.Forall₂ matching (past.map Prod.snd) labels) :
    ∃ past' t, Run step' t₀ past' t ∧ past'.map Prod.snd = labels ∧ related s t ∧
      List.Forall₂ (fun e e' => related e.1 e'.1) past past' := by
  induction h generalizing labels with
  | start =>
    cases hlabels
    exact ⟨[], t₀, .start, rfl, h₀, .nil⟩
  | @next past s l s' run hs ih =>
    rw [List.map_cons] at hlabels
    cases hlabels with
    | @cons _ m _ labels hm hrest =>
      obtain ⟨past', t, run', rfl, hst, hpast⟩ := ih hrest
      have hrel := hstep s t l m hst hm
      rw [hs] at hrel
      obtain ⟨t', hnext, hst'⟩ := hrel.exists_right
      exact ⟨(t, m) :: past', t', run'.next hnext, rfl, hst', .cons hst hpast⟩

/-- What related states have in common is the same all along the two runs. -/
theorem Lockstep.seen (hstep : Lockstep step step' related matching) (h : Run step s₀ past s)
    (h₀ : related s₀ t₀) (hlabels : List.Forall₂ matching (past.map Prod.snd) labels)
    {f : σ → α} {g : τ → α} (hfg : ∀ s t, related s t → f s = g t) :
    ∃ past' t, Run step' t₀ past' t ∧ past'.map Prod.snd = labels ∧ f s = g t ∧
      past.map (fun e => f e.1) = past'.map fun e => g e.1 := by
  obtain ⟨past', t, run', hlabels', hst, hpast⟩ := hstep.run h h₀ hlabels
  have hall : List.Forall₂ (fun x y => x = y) (past.map fun e => f e.1)
      (past'.map fun e => g e.1) := by
    rw [List.forall₂_map_left_iff, List.forall₂_map_right_iff]
    exact hpast.imp fun _ _ he => hfg _ _ he
  rw [List.forall₂_eq_eq_eq] at hall
  exact ⟨past', t, run', hlabels', hfg s t hst, hall⟩

end Lockstep
