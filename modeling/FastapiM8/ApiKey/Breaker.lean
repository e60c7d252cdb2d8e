import Mathlib.Tactic

/-! The consecutive-failure circuit breaker of the introspection call. -/
namespace FastapiM8

/-- The breaker: its two limits, the failure streak, and when it opened. -/
structure CircuitBreaker where
  threshold : ℤ
  reset : ℚ
  failures : ℤ
  openedAt : Option ℚ
  deriving DecidableEq

namespace CircuitBreaker

/-- A closed circuit. -/
def init (failureThreshold : ℤ) (resetSeconds : ℚ) : CircuitBreaker :=
  ⟨failureThreshold, resetSeconds, 0, none⟩

/-- Whether a call may proceed. When the reset window is over the circuit closes again, one
failure short of its threshold. -/
def allowsCall (b : CircuitBreaker) (now : ℚ) : Bool × CircuitBreaker :=
  match b.openedAt with
  | none => (true, b)
  | some openedAt =>
    if now - openedAt < b.reset then (false, b)
    else (true, { b with openedAt := none, failures := b.threshold - 1 })

/-- Close the circuit and forget the failure streak. -/
def recordSuccess (b : CircuitBreaker) : CircuitBreaker :=
  { b with failures := 0, openedAt := none }

/-- Count an issuer failure, opening the circuit at the threshold. -/
def recordFailure (b : CircuitBreaker) (now : ℚ) : CircuitBreaker :=
  { b with
    failures := b.failures + 1
    openedAt := if b.threshold ≤ b.failures + 1 then some now else b.openedAt }

variable {b : CircuitBreaker} {now t : ℚ}

/-- The circuit opened less than its reset window ago. -/
def IsOpen (b : CircuitBreaker) (now : ℚ) : Prop := ∃ t, b.openedAt = some t ∧ now - t < b.reset

/-- The circuit opened, and its reset window is over. -/
def IsDue (b : CircuitBreaker) (now : ℚ) : Prop := ∃ t, b.openedAt = some t ∧ b.reset ≤ now - t

theorem IsDue.not_isOpen (h : b.IsDue now) : ¬ b.IsOpen now := by
  rintro ⟨t, ht, hlt⟩
  obtain ⟨t', ht', hle⟩ := h
  rw [ht] at ht'
  obtain rfl := Option.some.inj ht'
  exact absurd hle hlt.not_ge

theorem allowsCall_of_isOpen (h : b.IsOpen now) : b.allowsCall now = (false, b) := by
  obtain ⟨t, ht, hlt⟩ := h
  simp only [allowsCall, ht, if_pos hlt]

theorem allowsCall_of_isDue (h : b.IsDue now) :
    b.allowsCall now = (true, { b with openedAt := none, failures := b.threshold - 1 }) := by
  obtain ⟨t, ht, hle⟩ := h
  simp only [allowsCall, ht, if_neg hle.not_gt]

theorem allowsCall_of_closed (h : b.openedAt = none) : b.allowsCall now = (true, b) := by
  simp only [allowsCall, h]

/-- A call is refused exactly while the circuit is open. -/
theorem allowsCall_eq_false_iff : (b.allowsCall now).1 = false ↔ b.IsOpen now := by
  constructor
  · intro h
    unfold allowsCall at h
    split at h
    · contradiction
    next t ht =>
      split at h
      next hlt => exact ⟨t, ht, hlt⟩
      next => contradiction
  · intro h
    rw [allowsCall_of_isOpen h]

/-- A circuit that was opened stays so for a call that is refused. -/
theorem allowsCall_openedAt (h : (b.allowsCall now).2.openedAt = some t) :
    b.openedAt = some t ∧ now - t < b.reset := by
  cases hb : b.openedAt with
  | none =>
    rw [allowsCall_of_closed hb, hb] at h
    contradiction
  | some t' =>
    by_cases hlt : now - t' < b.reset
    · rw [allowsCall_of_isOpen ⟨t', hb, hlt⟩, hb] at h
      obtain rfl := Option.some.inj h
      exact ⟨rfl, hlt⟩
    · rw [allowsCall_of_isDue ⟨t', hb, not_lt.mp hlt⟩] at h
      contradiction

@[simp] theorem allowsCall_reset : (b.allowsCall now).2.reset = b.reset := by
  unfold allowsCall
  split
  · rfl
  · split <;> rfl

/-- The next failure opens the circuit. -/
def OpensNext (b : CircuitBreaker) : Prop := b.threshold ≤ b.failures + 1

instance : Decidable b.OpensNext := inferInstanceAs (Decidable (_ ≤ _))

theorem recordFailure_openedAt :
    (b.recordFailure now).openedAt = some t ↔
      b.OpensNext ∧ t = now ∨ ¬ b.OpensNext ∧ b.openedAt = some t := by
  by_cases h : b.OpensNext
  · have hopen : b.threshold ≤ b.failures + 1 := h
    simp [recordFailure, h, hopen, eq_comm]
  · have hshort : ¬ b.threshold ≤ b.failures + 1 := h
    simp [recordFailure, h, hshort]

end CircuitBreaker

end FastapiM8
