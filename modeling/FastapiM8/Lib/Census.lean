import FastapiM8.Lib.Pool

/-! How many tasks of a pool are suspended on operations of one kind, and how a segment of one task
changes that number. -/

namespace Pool

variable {Op : Type} {Ans : Op → Type} {σ Spec ρ : Type} {kind : Op → Bool}
  {w : Pool Op Ans σ Spec ρ} {n : ℕ}

/-- The task is suspended on an operation of the kind. -/
def SuspendedOn (kind : Op → Bool) (w : Pool Op Ans σ Spec ρ) (id : ℕ) : Prop :=
  (w.awaits id).any kind = true

/-- The tasks that are suspended on an operation of the kind are finitely many, `n` in number. -/
def Counts (kind : Op → Bool) (w : Pool Op Ans σ Spec ρ) (n : ℕ) : Prop :=
  ∃ ids : Finset ℕ, (∀ id, id ∈ ids ↔ w.SuspendedOn kind id) ∧ ids.card = n

/-- What one task counts. -/
def weight (kind : Op → Bool) (o : Option Op) : ℕ := if o.any kind then 1 else 0

theorem counts_idle (kind : Op → Bool) (s : σ) :
    (idle s : Pool Op Ans σ Spec ρ).Counts kind 0 := by
  refine ⟨∅, ?_, rfl⟩
  intro id
  simp [SuspendedOn, awaits, idle]

theorem awaits_park_of_ne {id id' : ℕ} (spec : Spec) (r : Prog Op Ans ρ × σ) (h : id' ≠ id) :
    (w.park id spec r).awaits id' = w.awaits id' := by
  rw [awaits, park_tasks_of_ne w spec r h, ← awaits]

/-- A segment changes the number by what its own task counted and counts. -/
theorem Counts.park (h : w.Counts kind n) (id : ℕ) (spec : Spec) (r : Prog Op Ans ρ × σ) :
    ∃ n', (w.park id spec r).Counts kind n' ∧
      n' + weight kind (w.awaits id) = n + weight kind r.1.awaits := by
  obtain ⟨ids, hids, rfl⟩ := h
  have hself : (w.park id spec r).SuspendedOn kind id ↔ r.1.awaits.any kind = true := by
    rw [SuspendedOn, awaits_park_self]
  have hother {id' : ℕ} (hne : id' ≠ id) :
      (w.park id spec r).SuspendedOn kind id' ↔ w.SuspendedOn kind id' := by
    rw [SuspendedOn, awaits_park_of_ne spec r hne, SuspendedOn]
  have hold : weight kind (w.awaits id) = if id ∈ ids then 1 else 0 := by
    simp only [weight, hids, SuspendedOn]
  rw [hold]
  by_cases hin : r.1.awaits.any kind = true
  · refine ⟨_, ⟨insert id ids, ?_, rfl⟩, ?_⟩
    · intro id'
      rw [Finset.mem_insert]
      by_cases hid : id' = id
      · subst hid
        simp [hself, hin]
      · rw [hother hid, hids]
        exact or_iff_right hid
    · rw [weight, if_pos hin]
      by_cases hmem : id ∈ ids
      · rw [if_pos hmem, Finset.insert_eq_of_mem hmem]
      · rw [if_neg hmem, Finset.card_insert_of_notMem hmem, Nat.add_zero]
  · refine ⟨_, ⟨ids.erase id, ?_, rfl⟩, ?_⟩
    · intro id'
      rw [Finset.mem_erase]
      by_cases hid : id' = id
      · subst hid
        simp [hself, hin]
      · rw [hother hid, hids]
        exact and_iff_right hid
    · rw [weight, if_neg hin]
      by_cases hmem : id ∈ ids
      · rw [if_pos hmem, Finset.card_erase_add_one hmem, Nat.add_zero]
      · rw [if_neg hmem, Finset.erase_eq_of_notMem hmem]

theorem Counts.ncard (h : w.Counts kind n) :
    {id | w.SuspendedOn kind id}.Finite ∧ {id | w.SuspendedOn kind id}.ncard = n := by
  obtain ⟨ids, hids, rfl⟩ := h
  have hset : {id | w.SuspendedOn kind id} = ↑ids := by
    ext id
    exact (hids id).symm
  rw [hset]
  exact ⟨ids.finite_toSet, Set.ncard_coe_finset ids⟩

end Pool
