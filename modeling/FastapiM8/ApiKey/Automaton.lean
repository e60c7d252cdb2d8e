import FastapiM8.ApiKey.Segments
import FastapiM8.Lib.Transducer

/-! The automaton that the circuit breaker implements with a counter and a timestamp: closed,
open, half-open. -/
namespace FastapiM8

/-- A call that asks the breaker, and what it reports before the next one asks. -/
structure BreakerCall where
  asked : ℚ
  report : Option (Report × ℚ)

/-- What a report makes of the breaker. -/
def CircuitBreaker.tell (b : CircuitBreaker) : Option (Report × ℚ) → CircuitBreaker
  | none => b
  | some (.success, _) => b.recordSuccess
  | some (.failure, now) => b.recordFailure now

/-- Whether the breaker admits a call, and the breaker after it. -/
def CircuitBreaker.call (b : CircuitBreaker) (c : BreakerCall) : Bool × CircuitBreaker :=
  if (b.allowsCall c.asked).1 then (true, (b.allowsCall c.asked).2.tell c.report)
  else (false, (b.allowsCall c.asked).2)

/-- The circuit: closed after so many failures since the last success, open since a failure, or
waiting for the outcome of a trial. -/
inductive Circuit where
  | closed (failures : ℕ)
  | opened (since : ℚ)
  | halfOpen

namespace Circuit

variable (threshold : ℤ) (reset : ℚ)

/-- The circuit after an admitted call; `failed` is where a failure leads. -/
def after (unreported : Circuit) (failed : ℚ → Circuit) : Option (Report × ℚ) → Circuit
  | none => unreported
  | some (.success, _) => .closed 0
  | some (.failure, now) => failed now

/-- Whether the automaton admits a call, and its state after it. -/
def call (circuit : Circuit) (c : BreakerCall) : Bool × Circuit :=
  match circuit with
  | .closed failures =>
    let failed now := if threshold ≤ failures + 1 then opened now else closed (failures + 1)
    (true, after (.closed failures) failed c.report)
  | .opened since =>
    if c.asked - since < reset then (false, .opened since)
    else (true, after .halfOpen .opened c.report)
  | .halfOpen => (true, after .halfOpen .opened c.report)

/-- The breaker stands for a state of the automaton. -/
def StandsFor (b : CircuitBreaker) (circuit : Circuit) : Prop :=
  b.threshold = threshold ∧ b.reset = reset ∧
    match circuit with
    | .closed failures => b.failures = failures ∧ b.openedAt = none
    | .opened since => b.openedAt = some since
    | .halfOpen => b.failures = threshold - 1 ∧ b.openedAt = none

variable {threshold reset} {b : CircuitBreaker}

/-- A breaker that is one failure short of its threshold treats a call as a trial. -/
theorem standsFor_trial (hthreshold : b.threshold = threshold) (hreset : b.reset = reset)
    (hfailures : b.failures = threshold - 1) (hclosed : b.openedAt = none)
    (report : Option (Report × ℚ)) :
    StandsFor threshold reset (b.tell report) (after .halfOpen .opened report) := by
  match report with
  | none => exact ⟨hthreshold, hreset, hfailures, hclosed⟩
  | some (.success, _) => exact ⟨hthreshold, hreset, rfl, rfl⟩
  | some (.failure, now) =>
    have hopens : b.threshold ≤ b.failures + 1 := by omega
    exact ⟨hthreshold, hreset, if_pos hopens⟩

/-- A closed breaker counts its failures up to the threshold. -/
theorem standsFor_counted (hthreshold : b.threshold = threshold) (hreset : b.reset = reset)
    {failures : ℕ} (hfailures : b.failures = failures) (hclosed : b.openedAt = none)
    (report : Option (Report × ℚ)) :
    StandsFor threshold reset (b.tell report) (after (.closed failures)
      (fun now => if threshold ≤ failures + 1 then opened now else closed (failures + 1))
      report) := by
  match report with
  | none => exact ⟨hthreshold, hreset, hfailures, hclosed⟩
  | some (.success, _) => exact ⟨hthreshold, hreset, rfl, rfl⟩
  | some (.failure, now) =>
    by_cases hopens : threshold ≤ failures + 1
    · simp only [after, if_pos hopens]
      have hopened : b.threshold ≤ b.failures + 1 := by omega
      exact ⟨hthreshold, hreset, if_pos hopened⟩
    · simp only [after, if_neg hopens]
      have hshort : ¬ b.threshold ≤ b.failures + 1 := by omega
      have hcount : b.failures + 1 = ((failures + 1 : ℕ) : ℤ) := by omega
      exact ⟨hthreshold, hreset, hcount, (if_neg hshort).trans hclosed⟩

/-- The breaker and the automaton answer a call alike, and keep standing for each other. -/
theorem simulates : Transducer.Simulates (StandsFor threshold reset) Eq CircuitBreaker.call
    (call threshold reset) := by
  rintro b circuit c _ ⟨hthreshold, hreset, hstands⟩ rfl
  cases circuit with
  | closed failures =>
    obtain ⟨hfailures, hclosed⟩ := hstands
    simp only [CircuitBreaker.call, CircuitBreaker.allowsCall_of_closed hclosed, ↓reduceIte]
    exact ⟨rfl, standsFor_counted hthreshold hreset hfailures hclosed c.report⟩
  | opened since =>
    have hopened : b.openedAt = some since := hstands
    by_cases hlt : c.asked - since < reset
    · have hopen : b.IsOpen c.asked := ⟨since, hopened, hreset ▸ hlt⟩
      have hcall : call threshold reset (opened since) c = (false, opened since) := if_pos hlt
      rw [hcall, CircuitBreaker.call, CircuitBreaker.allowsCall_of_isOpen hopen]
      exact ⟨rfl, hthreshold, hreset, hopened⟩
    · have hdue : b.IsDue c.asked := ⟨since, hopened, hreset ▸ not_lt.mp hlt⟩
      have hcall : call threshold reset (opened since) c =
          (true, after .halfOpen .opened c.report) := if_neg hlt
      rw [hcall, CircuitBreaker.call, CircuitBreaker.allowsCall_of_isDue hdue]
      have hfailures : b.threshold - 1 = threshold - 1 := by rw [hthreshold]
      refine ⟨rfl, ?_⟩
      exact standsFor_trial (b := { b with openedAt := none, failures := b.threshold - 1 })
        hthreshold hreset hfailures rfl c.report
  | halfOpen =>
    obtain ⟨hfailures, hclosed⟩ := hstands
    simp only [CircuitBreaker.call, CircuitBreaker.allowsCall_of_closed hclosed, ↓reduceIte]
    exact ⟨rfl, standsFor_trial hthreshold hreset hfailures hclosed c.report⟩

/-- The breaker admits exactly the calls that the automaton admits, and stands for the state that
the automaton is in after them. -/
theorem admits_as_automaton (threshold : ℤ) (reset : ℚ) (calls : List BreakerCall) :
    Transducer.outputs CircuitBreaker.call (.init threshold reset) calls =
        Transducer.outputs (call threshold reset) (.closed 0) calls ∧
      StandsFor threshold reset
        (Transducer.final CircuitBreaker.call (.init threshold reset) calls)
        (Transducer.final (call threshold reset) (.closed 0) calls) := by
  have hstart : StandsFor threshold reset (.init threshold reset) (.closed 0) :=
    ⟨rfl, rfl, rfl, rfl⟩
  have hcalls : List.Forall₂ Eq calls calls := List.forall₂_refl calls
  exact ⟨simulates.outputs_eq hstart hcalls, simulates.final hstart hcalls⟩

/-- A circuit that opens at its second failure refuses a call in its reset window, and a failed
trial re-opens it for a whole new one. -/
example : Transducer.outputs CircuitBreaker.call (.init 2 30) [⟨0, some (.failure, 1)⟩,
    ⟨2, some (.failure, 3)⟩, ⟨32, none⟩, ⟨33, none⟩, ⟨34, some (.failure, 40)⟩, ⟨69, none⟩,
    ⟨70, some (.success, 71)⟩] = [true, true, false, true, true, false, true] := by
  decide +kernel

end Circuit

end FastapiM8
