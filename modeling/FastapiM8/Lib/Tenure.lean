import FastapiM8.Lib.History
import Mathlib.Data.List.Pairwise

/-! How long a key has been among the members of a state. In a run whose steps only remove
members and append at most one new one, the members stand in the order of their tenure. -/
namespace Run

variable {σ Λ κ : Type*} {step : σ → Λ → Option σ} {s₀ s : σ} {past : List (σ × Λ)}

/-- The number of steps in a row, up to now, before which `k` was a member. -/
def tenure [DecidableEq κ] (members : σ → List κ) (past : List (σ × Λ)) (k : κ) : ℕ :=
  (past.takeWhile fun e => k ∈ members e.1).length

section

variable [DecidableEq κ] {members : σ → List κ} {l : Λ} {k : κ}

theorem tenure_cons_of_mem (h : k ∈ members s) :
    tenure members ((s, l) :: past) k = tenure members past k + 1 := by
  unfold tenure
  rw [List.takeWhile_cons_of_pos (by simpa using h), List.length_cons]

theorem tenure_cons_of_not_mem (h : k ∉ members s) : tenure members ((s, l) :: past) k = 0 := by
  unfold tenure
  rw [List.takeWhile_cons_of_neg (by simpa using h), List.length_nil]

/-- The members are listed from the one with the longest tenure to the newest one. -/
theorem pairwise_tenure (members : σ → List κ) {I : σ → Prop}
    (hI : ∀ s l s', I s → step s l = some s' → I s')
    (hstep : ∀ s l s', I s → step s l = some s' → (members s').Sublist (members s) ∨
      ∃ k, k ∉ members s ∧ (members s').Sublist (members s ++ [k]))
    (h : Run step s₀ past s) (h₀ : I s₀) (hstart : members s₀ = []) :
    (members s).Pairwise fun k k' => tenure members past k' < tenure members past k := by
  induction h with
  | start =>
    rw [hstart]
    exact .nil
  | @next past s l s' run h ih =>
    -- one step adds one to the tenure of every old member, and a new one has none
    have hold : (members s).Pairwise fun k k' =>
        tenure members ((s, l) :: past) k' < tenure members ((s, l) :: past) k := by
      apply ih.imp_of_mem
      intro k k' hk hk' hlt
      rw [tenure_cons_of_mem hk, tenure_cons_of_mem hk']
      omega
    rcases hstep s l s' (run.invariant hI h₀) h with hsub | ⟨new, hnew, hsub⟩
    · exact hold.sublist hsub
    · apply List.Pairwise.sublist hsub
      rw [List.pairwise_append]
      refine ⟨hold, List.pairwise_singleton _ _, ?_⟩
      intro k hk k' hk'
      obtain rfl := List.mem_singleton.mp hk'
      rw [tenure_cons_of_mem hk, tenure_cons_of_not_mem hnew]
      omega

end

end Run
