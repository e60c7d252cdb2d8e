import FastapiM8.ApiKey.Runs

/-! Why the breaker denies a call: the failures that were recorded since the last success. -/
namespace FastapiM8

section Streak

variable {ε : Type*} (report : ε → Option Report) (time : ε → ℚ)

/-- The times of the failures since the last success of a history, latest first. -/
def streak : List ε → List ℚ
  | [] => []
  | e :: past =>
    match report e with
    | none => streak past
    | some .success => []
    | some .failure => time e :: streak past

variable {report time}

theorem mem_of_mem_streak {past : List ε} {t : ℚ} (h : t ∈ streak report time past) :
    ∃ e ∈ past, report e = some .failure ∧ time e = t := by
  induction past with
  | nil => simp [streak] at h
  | cons e past ih =>
    rw [streak] at h
    cases hreport : report e with
    | none =>
      rw [hreport] at h
      obtain ⟨e', he', hfailure⟩ := ih h
      exact ⟨e', List.mem_cons_of_mem e he', hfailure⟩
    | some r =>
      rw [hreport] at h
      cases r with
      | success => simp at h
      | failure =>
        rcases List.mem_cons.mp h with rfl | h
        · exact ⟨e, List.mem_cons_self, hreport, rfl⟩
        · obtain ⟨e', he', hfailure⟩ := ih h
          exact ⟨e', List.mem_cons_of_mem e he', hfailure⟩

end Streak

namespace CircuitBreaker

/-- The failure counter stays below the failures since the last success, and an opened circuit
has enough of them, the one that opened it among them. -/
structure Backed (threshold : ℤ) (reset : ℚ) (b : CircuitBreaker) (failures : List ℚ) : Prop where
  threshold_eq : b.threshold = threshold
  reset_eq : b.reset = reset
  counted : b.failures ≤ failures.length
  opened : ∀ t, b.openedAt = some t → threshold ≤ failures.length ∧ t ∈ failures

variable {threshold : ℤ} {reset now : ℚ} {b : CircuitBreaker} {failures : List ℚ}

theorem backed_init : Backed threshold reset (.init threshold reset) [] where
  threshold_eq := rfl
  reset_eq := rfl
  counted := le_rfl
  opened t ht := by contradiction

/-- A trial leaves the counter one short of the threshold: an opened circuit had more failures. -/
theorem Backed.allowsCall (h : Backed threshold reset b failures) :
    Backed threshold reset (b.allowsCall now).2 failures := by
  cases hopened : b.openedAt with
  | none => rwa [allowsCall_of_closed hopened]
  | some t =>
    by_cases hlt : now - t < b.reset
    · rwa [allowsCall_of_isOpen ⟨t, hopened, hlt⟩]
    · rw [allowsCall_of_isDue ⟨t, hopened, not_lt.mp hlt⟩]
      have henough := (h.opened t hopened).1
      have hthreshold := h.threshold_eq
      refine ⟨h.threshold_eq, h.reset_eq, ?_, fun t' ht' => by contradiction⟩
      show b.threshold - 1 ≤ failures.length
      omega

theorem Backed.recordSuccess (h : Backed threshold reset b failures) :
    Backed threshold reset b.recordSuccess [] where
  threshold_eq := h.threshold_eq
  reset_eq := h.reset_eq
  counted := le_rfl
  opened t ht := by contradiction

theorem Backed.recordFailure (h : Backed threshold reset b failures) :
    Backed threshold reset (b.recordFailure now) (now :: failures) where
  threshold_eq := h.threshold_eq
  reset_eq := h.reset_eq
  counted := by
    have hcounted := h.counted
    show b.failures + 1 ≤ _
    rw [List.length_cons]
    omega
  opened t ht := by
    have hcounted := h.counted
    have hthreshold := h.threshold_eq
    rw [List.length_cons]
    rcases recordFailure_openedAt.mp ht with ⟨hopens, rfl⟩ | ⟨-, hold⟩
    · have hreached : b.threshold ≤ b.failures + 1 := hopens
      exact ⟨by omega, List.mem_cons_self⟩
    · obtain ⟨henough, hmem⟩ := h.opened t hold
      exact ⟨by omega, List.mem_cons_of_mem now hmem⟩

/-- A backed breaker denies a call for the failures it has seen, one of them in its window. -/
theorem Backed.of_denied (h : Backed threshold reset b failures)
    (hdenied : (b.allowsCall now).1 = false) :
    threshold ≤ failures.length ∧ ∃ t ∈ failures, now - reset < t := by
  obtain ⟨t, ht, hlt⟩ := allowsCall_eq_false_iff.mp hdenied
  obtain ⟨henough, hmem⟩ := h.opened t ht
  rw [h.reset_eq] at hlt
  exact ⟨henough, t, hmem, by linarith⟩

/-- A backed breaker admits a call when the windows of its failures are over. -/
theorem Backed.of_over (h : Backed threshold reset b failures)
    (hover : ∀ t ∈ failures, t + reset ≤ now) : (b.allowsCall now).1 = true := by
  by_contra hdenied
  rw [Bool.not_eq_true] at hdenied
  obtain ⟨-, t, hmem, hlt⟩ := h.of_denied hdenied
  have hle := hover t hmem
  linarith

end CircuitBreaker

/-- What happens to a breaker: a call asks, a call reports, or time passes. -/
inductive BreakerAct where
  | ask
  | report (report : Report)
  | wait (seconds : ℚ)

/-- A breaker and the clock. -/
structure BreakerState where
  breaker : CircuitBreaker
  now : ℚ

namespace BreakerState

def step (s : BreakerState) : BreakerAct → Option BreakerState
  | .ask => some { s with breaker := (s.breaker.allowsCall s.now).2 }
  | .report .success => some { s with breaker := s.breaker.recordSuccess }
  | .report .failure => some { s with breaker := s.breaker.recordFailure s.now }
  | .wait seconds => if 0 ≤ seconds then some { s with now := s.now + seconds } else none

/-- What a step reports. -/
def reported (e : BreakerState × BreakerAct) : Option Report :=
  match e.2 with
  | .report report => some report
  | _ => none

/-- The failures since the last success of a run. -/
def failures (past : List (BreakerState × BreakerAct)) : List ℚ :=
  streak reported (fun e => e.1.now) past

variable {threshold : ℤ} {reset start : ℚ} {past : List (BreakerState × BreakerAct)}
  {s : BreakerState}

theorem backed_of_run (run : Run step ⟨.init threshold reset, start⟩ past s) :
    s.breaker.Backed threshold reset (failures past) ∧ ∀ e ∈ past, e.1.now ≤ s.now := by
  induction run with
  | start => exact ⟨CircuitBreaker.backed_init, by simp⟩
  | @next past s l s' run hstep ih =>
    obtain ⟨hbacked, hpast⟩ := ih
    have hnow : s.now ≤ s'.now → ∀ e ∈ (s, l) :: past, e.1.now ≤ s'.now := by
      intro hle
      exact List.forall_mem_cons.mpr ⟨hle, fun e he => (hpast e he).trans hle⟩
    cases l with
    | ask =>
      obtain rfl := Option.some.inj hstep
      exact ⟨hbacked.allowsCall, hnow le_rfl⟩
    | report report =>
      cases report with
      | success =>
        obtain rfl := Option.some.inj hstep
        exact ⟨hbacked.recordSuccess, hnow le_rfl⟩
      | failure =>
        obtain rfl := Option.some.inj hstep
        exact ⟨hbacked.recordFailure, hnow le_rfl⟩
    | wait seconds =>
      simp only [step] at hstep
      split at hstep
      next hnonneg =>
        obtain rfl := Option.some.inj hstep
        exact ⟨hbacked, hnow (le_add_of_nonneg_right hnonneg)⟩
      next => contradiction

/-- However the calls overlap: the breaker denies a call only after enough failures since the last
success, one of them within the reset window; so it admits every call from the end of the window
of the last failure on. -/
theorem denied_with_cause (run : Run step ⟨.init threshold reset, start⟩ past s) :
    ((s.breaker.allowsCall s.now).1 = false → threshold ≤ (failures past).length ∧
      ∃ t ∈ failures past, s.now - reset < t ∧ t ≤ s.now) ∧
    ((∀ e ∈ past, reported e = some .failure → e.1.now + reset ≤ s.now) →
      (s.breaker.allowsCall s.now).1 = true) := by
  obtain ⟨hbacked, hpast⟩ := backed_of_run run
  constructor
  · intro hdenied
    obtain ⟨henough, t, hmem, hlt⟩ := hbacked.of_denied hdenied
    obtain ⟨e, he, -, rfl⟩ := mem_of_mem_streak hmem
    exact ⟨henough, e.1.now, hmem, hlt, hpast e he⟩
  · intro hover
    apply hbacked.of_over
    intro t hmem
    obtain ⟨e, he, hfailure, rfl⟩ := mem_of_mem_streak hmem
    exact hover e he hfailure

/-- A breaker that opens at its first failure. -/
def tripped (now : ℚ) : BreakerState := ⟨⟨1, 30, 1, some 0⟩, now⟩

theorem denied_with_cause_tripped :
    (1 ≤ (failures [(⟨.init 1 30, 0⟩, .report .failure)]).length ∧
      ∃ t ∈ failures [(⟨.init 1 30, 0⟩, .report .failure)], (0 : ℚ) - 30 < t ∧ t ≤ 0) ∧
    ((tripped 30).breaker.allowsCall 30).1 = true := by
  have hopens : Run step ⟨.init 1 30, 0⟩ [(⟨.init 1 30, 0⟩, .report .failure)] (tripped 0) :=
    .next .start rfl
  have hwaits : step (tripped 0) (.wait 30) = some (tripped 30) := by
    simp [step, tripped]
  have hdenied : ((tripped 0).breaker.allowsCall 0).1 = false := by decide +kernel
  constructor
  · obtain ⟨henough, hrecent⟩ := (denied_with_cause hopens).1 hdenied
    exact ⟨by exact_mod_cast henough, hrecent⟩
  · refine (denied_with_cause (hopens.next hwaits)).2 ?_
    intro e he hfailure
    rw [List.mem_cons, List.mem_singleton] at he
    rcases he with rfl | rfl
    · contradiction
    · show (0 : ℚ) + 30 ≤ 30
      norm_num

end BreakerState

section Client

variable {client : ApiKeyIntrospectionClient} {sdk : ApiKeySdk} {w : IntrospectPool}
  {past : List (IntrospectPool × IntrospectAct)}

/-- The failures that the calls of a client have reported since the last success. -/
def ApiKeyIntrospectionClient.failures (client : ApiKeyIntrospectionClient) (sdk : ApiKeySdk)
    (past : List (IntrospectPool × IntrospectAct)) : List ℚ :=
  streak (fun e => client.report sdk e.1 e.2) (fun e => e.1.shared.now) past

theorem backed_of_client_run {start : ℚ}
    (run : Run (client.scheduler sdk).step (client.start start) past w) :
    w.shared.breaker.Backed client.tuning.circuitFailureThreshold
      client.tuning.circuitResetSeconds (client.failures sdk past) := by
  induction run with
  | start => exact CircuitBreaker.backed_init
  | @next past w l w' run hstep ih =>
    rw [ApiKeyIntrospectionClient.failures, streak]
    rcases breaker_step (introspects_guaranteed run) hstep with hrecord | ⟨hnone, -, hasked⟩
    · rw [hrecord]
      cases hreport : client.report sdk w l with
      | none => exact ih
      | some report =>
        cases report with
        | success => exact ih.recordSuccess
        | failure => exact ih.recordFailure
    · rw [hasked, hnone]
      exact ih.allowsCall

/-- The calls of a client are refused with cause only: whatever became of earlier trials, a call
is admitted from the end of the window of the last failure on. -/
theorem refused_with_cause {start : ℚ}
    (run : Run (client.scheduler sdk).step (client.start start) past w) :
    ((w.shared.breaker.allowsCall w.shared.now).1 = false →
      client.tuning.circuitFailureThreshold ≤ (client.failures sdk past).length ∧
        ∃ t ∈ client.failures sdk past,
          w.shared.now - client.tuning.circuitResetSeconds < t) ∧
    ((∀ e ∈ past, client.report sdk e.1 e.2 = some .failure →
        e.1.shared.now + client.tuning.circuitResetSeconds ≤ w.shared.now) →
      (w.shared.breaker.allowsCall w.shared.now).1 = true) := by
  have hbacked := backed_of_client_run run
  refine ⟨hbacked.of_denied, ?_⟩
  intro hover
  apply hbacked.of_over
  intro t hmem
  obtain ⟨e, he, hfailure, rfl⟩ := mem_of_mem_streak hmem
  exact hover e he hfailure

end Client

end FastapiM8
