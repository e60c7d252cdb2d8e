import Mathlib.Tactic

/-! Deterministic transducers: from a state and an input to an output and the next state. Two of
them that are related by a simulation answer related inputs alike. -/

namespace Transducer

variable {σ τ ι κ ο : Type*}

/-- The outputs along a list of inputs. -/
def outputs (step : σ → ι → ο × σ) : σ → List ι → List ο
  | _, [] => []
  | s, i :: inputs => (step s i).1 :: outputs step (step s i).2 inputs

/-- The state after a list of inputs. -/
def final (step : σ → ι → ο × σ) : σ → List ι → σ
  | s, [] => s
  | s, i :: inputs => final step (step s i).2 inputs

/-- From related states, related inputs give the same output and lead to related states. -/
def Simulates (R : σ → τ → Prop) (Q : ι → κ → Prop) (step : σ → ι → ο × σ)
    (step' : τ → κ → ο × τ) : Prop :=
  ∀ s t i j, R s t → Q i j → (step s i).1 = (step' t j).1 ∧ R (step s i).2 (step' t j).2

variable {R : σ → τ → Prop} {Q : ι → κ → Prop} {step : σ → ι → ο × σ} {step' : τ → κ → ο × τ}
  {s : σ} {t : τ} {inputs : List ι} {inputs' : List κ}

theorem Simulates.outputs_eq (h : Simulates R Q step step') (hst : R s t)
    (hinputs : List.Forall₂ Q inputs inputs') :
    outputs step s inputs = outputs step' t inputs' := by
  induction hinputs generalizing s t with
  | nil => rfl
  | cons hi _ ih =>
    obtain ⟨houtput, hnext⟩ := h s t _ _ hst hi
    rw [outputs, outputs, houtput, ih hnext]

theorem Simulates.final (h : Simulates R Q step step') (hst : R s t)
    (hinputs : List.Forall₂ Q inputs inputs') :
    R (final step s inputs) (Transducer.final step' t inputs') := by
  induction hinputs generalizing s t with
  | nil => exact hst
  | cons hi _ ih => exact ih (h s t _ _ hst hi).2

/-- Two runs agree: they give the same outputs and end in related states. -/
def Agree (R : σ → τ → Prop) (step : σ → ι → ο × σ) (step' : τ → κ → ο × τ) (s : σ) (t : τ)
    (inputs : List ι) (inputs' : List κ) : Prop :=
  outputs step s inputs = outputs step' t inputs' ∧
    R (final step s inputs) (final step' t inputs')

theorem agree_cons_iff {i : ι} {j : κ} (h : (step s i).1 = (step' t j).1) :
    Agree R step step' s t (i :: inputs) (j :: inputs') ↔
      Agree R step step' (step s i).2 (step' t j).2 inputs inputs' := by
  unfold Agree
  rw [outputs, outputs, h, List.cons.injEq]
  simp only [true_and, final]

/-- If `P` says exactly of which inputs two related states make the same, then two runs from
related states agree at each of their points just if every input meets `P` at the state that
it finds. -/
theorem agree_prefixes_iff {f : ι → κ} {P : σ → ι → Prop}
    (hP : ∀ s t i, R s t →
      ((step s i).1 = (step' t (f i)).1 ∧ R (step s i).2 (step' t (f i)).2 ↔ P s i))
    (hst : R s t) :
    (∀ done, done <+: inputs → Agree R step step' s t done (done.map f)) ↔
      ∀ done i, done ++ [i] <+: inputs → P (final step s done) i := by
  induction inputs generalizing s t with
  | nil =>
    constructor
    · intro _ done i hprefix
      simp at hprefix
    · intro _ done hprefix
      obtain rfl := List.prefix_nil.mp hprefix
      exact ⟨rfl, hst⟩
  | cons i inputs ih =>
    constructor
    · intro h
      -- the point after the first input fixes that input and lets the rest of the runs go on
      obtain ⟨houtput, hnext⟩ := h [i] ⟨inputs, rfl⟩
      have hfirst : (step s i).1 = (step' t (f i)).1 := List.head_eq_of_cons_eq houtput
      have hrest := (ih hnext).mp fun done hprefix =>
        (agree_cons_iff hfirst).mp (h (i :: done) (List.cons_prefix_cons.mpr ⟨rfl, hprefix⟩))
      intro done j hprefix
      cases done with
      | nil =>
        obtain ⟨rfl, -⟩ := List.cons_prefix_cons.mp hprefix
        exact (hP s t j hst).mp ⟨hfirst, hnext⟩
      | cons i' done =>
        obtain ⟨rfl, hdone⟩ := List.cons_prefix_cons.mp hprefix
        exact hrest done j hdone
    · intro h done hprefix
      obtain ⟨hfirst, hnext⟩ := (hP s t i hst).mpr (h [] i ⟨inputs, rfl⟩)
      have hrest := (ih hnext).mpr fun done j hprefix =>
        h (i :: done) j (List.cons_prefix_cons.mpr ⟨rfl, hprefix⟩)
      cases done with
      | nil => exact ⟨rfl, hst⟩
      | cons i' done =>
        obtain ⟨rfl, hdone⟩ := List.cons_prefix_cons.mp hprefix
        exact (agree_cons_iff hfirst).mpr (hrest done hdone)

end Transducer
