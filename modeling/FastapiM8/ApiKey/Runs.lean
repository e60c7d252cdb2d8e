import FastapiM8.ApiKey.Segments

/-! Steps of an introspection client: how a call starts, what each step reports to the breaker,
and how the breaker stands along a run. -/
namespace FastapiM8

variable {client : ApiKeyIntrospectionClient} {sdk : ApiKeySdk} {apiKey : String}

abbrev IntrospectPool := ApiKeyPool String (Option ApiKeyPrincipal)

abbrev IntrospectAct := ApiKeyAct String

/-- Ask the breaker. -/
def ApiKeyState.ask (s : ApiKeyState) : ApiKeyState :=
  { s with breaker := (s.breaker.allowsCall s.now).2 }

/-- Take a slot that is free. -/
def ApiKeyState.take (s : ApiKeyState) : ApiKeyState := { s with slots := s.slots - 1 }

namespace ApiKeyIntrospectionClient

variable (client sdk apiKey)

/-- An admitted call takes a free slot at once and waits for one otherwise. -/
def enter (s : ApiKeyState) :
    Prog ApiKeyOp ApiKeyAns (Except PyExc (Option ApiKeyPrincipal)) × ApiKeyState :=
  if 0 < s.slots then (.call .checkpoint (client.afterCheckpoint sdk apiKey), s.take)
  else (client.admitted sdk apiKey, s)

/-- The first segment of a call. -/
def startIntrospect (s : ApiKeyState) :
    Prog ApiKeyOp ApiKeyAns (Except PyExc (Option ApiKeyPrincipal)) × ApiKeyState :=
  if sdk.request apiKey client.tuning.schemaVersion then
    if (s.breaker.allowsCall s.now).1 then client.enter sdk apiKey s.ask
    else (.ret (.error (.apiKeyIntrospectionError "circuit_open")), s.ask)
  else (.ret (.error (.valueError none)), s)

variable {client sdk apiKey}

theorem settle_admitted (apiKey : String) (s : ApiKeyState) :
    (client.admitted sdk apiKey).settle ApiKeyOp.exec s = client.enter sdk apiKey s := by
  by_cases h : 0 < s.slots
  · have hexec : (ApiKeyOp.semaphoreAcquire client.tuning.poolTimeout).exec s =
        some (.ok (), s.take) := if_pos h
    rw [admitted, Prog.settle_call_some hexec, enter, if_pos h]
    rfl
  · have hexec : (ApiKeyOp.semaphoreAcquire client.tuning.poolTimeout).exec s = none := if_neg h
    rw [admitted, Prog.settle_call_none hexec, enter, if_neg h, admitted]

theorem settle_introspect (apiKey : String) (s : ApiKeyState) :
    (client.introspect sdk apiKey).run.settle ApiKeyOp.exec s =
      client.startIntrospect sdk apiKey s := by
  rw [run_introspect, startIntrospect]
  cases sdk.request apiKey client.tuning.schemaVersion with
  | false => rfl
  | true =>
    have hexec : ApiKeyOp.allowsCall.exec s = some ((s.breaker.allowsCall s.now).1, s.ask) := rfl
    simp only [↓reduceIte]
    rw [Prog.settle_call_some hexec]
    cases (s.breaker.allowsCall s.now).1 with
    | false => rfl
    | true => exact settle_admitted apiKey s.ask

/-- However a call starts, its segments are the listed ones. -/
theorem obeys_introspect (apiKey : String) (s : ApiKeyState) :
    Prog.Obeys ApiKeyOp.exec (client.IntrospectSegment sdk apiKey)
      ((client.introspect sdk apiKey).run.settle ApiKeyOp.exec s).1 := by
  have hadmitted := client.obeys_admitted sdk apiKey
  rw [settle_introspect, startIntrospect]
  split
  · split
    · unfold enter
      split
      · cases hadmitted with
        | call _ _ _ later => exact later (.ok ()) s
      · exact hadmitted
    · exact .ret _
  · exact .ret _

end ApiKeyIntrospectionClient

open ApiKeyIntrospectionClient

variable {w w' : IntrospectPool} {l : IntrospectAct}

theorem introspects_keep (w : IntrospectPool) (l : IntrospectAct) (w' : IntrospectPool)
    (hw : (client.scheduler sdk).Guaranteed (client.IntrospectSegment sdk) w)
    (h : (client.scheduler sdk).step w l = some w') :
    (client.scheduler sdk).Guaranteed (client.IntrospectSegment sdk) w' := by
  exact Scheduler.guaranteed_step obeys_introspect w l w' hw h

theorem introspects_guaranteed {now : ℚ} {past : List (IntrospectPool × IntrospectAct)}
    (run : Run (client.scheduler sdk).step (client.start now) past w) :
    (client.scheduler sdk).Guaranteed (client.IntrospectSegment sdk) w :=
  run.invariant introspects_keep (Scheduler.guaranteed_idle _ _)

/-- A call starts by asking the breaker. -/
theorem introspect_spawn_iff {id : ℕ} :
    (client.scheduler sdk).step w (.spawn id apiKey) = some w' ↔ w.tasks id = none ∧
      w' = w.park id apiKey (client.startIntrospect sdk apiKey w.shared) := by
  rw [← settle_introspect]
  exact Scheduler.step_spawn_iff

/-- An operation that is retried rather than answered is the acquisition of a slot. -/
theorem exec_of_awaited (client : ApiKeyIntrospectionClient) {o : ApiKeyOp} {s s' : ApiKeyState}
    {a : ApiKeyAns o}
    (hawaited : Awaited apiKey o) (h : o.exec s = some (a, s')) :
    client.signal o a = .granted ∧ s' = s.take := by
  cases o with
  | semaphoreAcquire timeout =>
    simp only [ApiKeyOp.exec] at h
    split at h
    · obtain ⟨rfl, rfl⟩ := Prod.mk.inj (Option.some.inj h)
      exact ⟨rfl, rfl⟩
    · contradiction
  | _ => first | exact absurd hawaited id | contradiction

/-- A step starts a call, runs one segment of a call, hands a slot to a call, or lets time
pass. -/
theorem introspect_step_cases
    (hw : (client.scheduler sdk).Guaranteed (client.IntrospectSegment sdk) w)
    (h : (client.scheduler sdk).step w l = some w') :
    (∃ id apiKey, l = .spawn id apiKey ∧ w.tasks id = none ∧
      w' = w.park id apiKey (client.startIntrospect sdk apiKey w.shared)) ∨
    (∃ id answer apiKey o k a r, l = .resume id answer ∧
      w.tasks id = some ⟨apiKey, .call o k⟩ ∧ o.decode answer = some a ∧ Awaited apiKey o ∧
      r = (k a).settle ApiKeyOp.exec w.shared ∧
      client.Follows sdk apiKey w.shared (client.signal o a) r ∧ w' = w.park id apiKey r) ∨
    (∃ id apiKey k, l = .wake id ∧
      w' = w.park id apiKey (.call .checkpoint k, w.shared.take)) ∨
    (∃ seconds, l = .env seconds ∧ 0 ≤ seconds ∧
      w' = { w with shared := { w.shared with now := w.shared.now + seconds } }) := by
  cases l with
  | spawn id apiKey =>
    obtain ⟨hnew, hpark⟩ := introspect_spawn_iff.mp h
    exact .inl ⟨id, apiKey, rfl, hnew, hpark⟩
  | resume id answer =>
    obtain ⟨apiKey, o, k, a, ht, ha, rfl⟩ := Scheduler.step_resume_iff.mp h
    obtain ⟨hawaited, hfollows⟩ := hw.segment ht a w.shared
    exact .inr (.inl ⟨id, answer, apiKey, o, k, a, _, rfl, ht, ha, hawaited, rfl, hfollows, rfl⟩)
  | wake id =>
    obtain ⟨apiKey, o, k, a, s, ht, ha, rfl⟩ := Scheduler.step_wake_iff.mp h
    obtain ⟨hawaited, hfollows⟩ := hw.segment ht a s
    obtain ⟨hgranted, rfl⟩ := exec_of_awaited client hawaited ha
    rw [hgranted] at hfollows
    refine .inr (.inr (.inl ?_))
    generalize (k a).settle (client.scheduler sdk).exec w.shared.take = r at hfollows
    cases hfollows with
    | granted k' => exact ⟨id, apiKey, k', rfl, rfl⟩
  | env seconds =>
    obtain ⟨s, hs, rfl⟩ := Scheduler.step_env_iff.mp h
    obtain ⟨hnn, hs'⟩ : 0 ≤ seconds ∧ { w.shared with now := w.shared.now + seconds } = s := by
      simpa [scheduler, ApiKeyState.advance] using hs
    exact .inr (.inr (.inr ⟨seconds, rfl, hnn, by rw [hs']⟩))

/-- The step starts a call that asks the breaker. -/
def ApiKeyIntrospectionClient.Asks (client : ApiKeyIntrospectionClient) (sdk : ApiKeySdk)
    (l : IntrospectAct) (id : ℕ) : Prop :=
  ∃ apiKey, l = .spawn id apiKey ∧ sdk.request apiKey client.tuning.schemaVersion = true

/-- What a segment reports, given whether it ends its call: what the reply says that it reads,
and a failure when a transmission failed at the HTTP level and is not retried. -/
def Signal.report (sdk : ApiKeySdk) (ended : Bool) : Signal → Option Report
  | .replied reply => replyReport sdk reply
  | .failed exc => if exc.isHttpError && ended then some .failure else none
  | _ => none

/-- What the step reports to the breaker. -/
def ApiKeyIntrospectionClient.report (client : ApiKeyIntrospectionClient) (sdk : ApiKeySdk)
    (w : IntrospectPool) : IntrospectAct → Option Report
  | .resume id answer =>
    match w.tasks id with
    | some ⟨_, .call o k⟩ =>
      (o.decode answer).bind fun a =>
        (client.signal o a).report sdk ((k a).settle ApiKeyOp.exec w.shared).1.ended
    | _ => none
  | _ => none

theorem report_resume {id : ℕ} {answer : ApiKeyAnswer} {o : ApiKeyOp}
    {k : ApiKeyAns o → Prog ApiKeyOp ApiKeyAns (Except PyExc (Option ApiKeyPrincipal))}
    {a : ApiKeyAns o} (ht : w.tasks id = some ⟨apiKey, .call o k⟩) (ha : o.decode answer = some a) :
    client.report sdk w (.resume id answer) =
      (client.signal o a).report sdk ((k a).settle ApiKeyOp.exec w.shared).1.ended := by
  simp only [report, ht, ha, Option.bind_some]

/-- A segment tells the breaker what it reports, and nothing else. -/
theorem breaker_of_follows {s : ApiKeyState} {signal : Signal}
    {r : Prog ApiKeyOp ApiKeyAns (Except PyExc (Option ApiKeyPrincipal)) × ApiKeyState}
    (h : client.Follows sdk apiKey s signal r) :
    r.2.breaker = (s.record (signal.report sdk r.1.ended)).breaker := by
  cases h with
  | retries exc h => simp [Signal.report, Prog.ended, ApiKeyState.record]
  | unreachable exc h =>
    simp only [Signal.report, h, Prog.ended, Bool.and_self, ↓reduceIte]
    rfl
  | escapes exc h =>
    simp only [Signal.report, h, Bool.false_and, Bool.false_eq_true, ↓reduceIte]
    rfl
  | rejected reply h =>
    have hnone : replyReport sdk reply = none := if_pos (.inr h)
    rw [Signal.report, hnone]
    rfl
  | answered reply h =>
    rw [Signal.report]
    cases replyReport sdk reply with
    | none => rfl
    | some report => cases report <;> rfl
  | _ => rfl

/-- The breaker after a step: it has recorded what the step reports, or was asked by the call
that the step starts. -/
theorem breaker_step (hw : (client.scheduler sdk).Guaranteed (client.IntrospectSegment sdk) w)
    (h : (client.scheduler sdk).step w l = some w') :
    w'.shared.breaker = (w.shared.record (client.report sdk w l)).breaker ∨
    (client.report sdk w l = none ∧ (∃ id, client.Asks sdk l id) ∧
      w'.shared.breaker = (w.shared.breaker.allowsCall w.shared.now).2) := by
  rcases introspect_step_cases hw h with ⟨id, apiKey, rfl, -, rfl⟩ |
    ⟨id, answer, apiKey, o, k, a, r, rfl, ht, ha, -, rfl, hfollows, rfl⟩ |
    ⟨id, apiKey, k, rfl, rfl⟩ | ⟨seconds, rfl, -, rfl⟩
  · rw [Pool.park_shared, startIntrospect]
    cases hrequest : sdk.request apiKey client.tuning.schemaVersion with
    | false => exact .inl rfl
    | true =>
      refine .inr ⟨rfl, ⟨id, apiKey, rfl, hrequest⟩, ?_⟩
      cases (w.shared.breaker.allowsCall w.shared.now).1 with
      | false => rfl
      | true =>
        simp only [↓reduceIte, enter]
        split <;> rfl
  · rw [report_resume ht ha]
    exact .inl (breaker_of_follows hfollows)
  · exact .inl rfl
  · exact .inl rfl

@[simp] theorem record_now (s : ApiKeyState) (report : Option Report) :
    (s.record report).now = s.now := by
  rcases report with - | - | - <;> rfl

theorem now_of_follows {s : ApiKeyState} {signal : Signal}
    {r : Prog ApiKeyOp ApiKeyAns (Except PyExc (Option ApiKeyPrincipal)) × ApiKeyState}
    (h : client.Follows sdk apiKey s signal r) : r.2.now = s.now := by
  cases h with
  | answered reply h => exact record_now _ _
  | _ => rfl

theorem startIntrospect_now (apiKey : String) (s : ApiKeyState) :
    (client.startIntrospect sdk apiKey s).2.now = s.now := by
  unfold startIntrospect enter
  split_ifs <;> rfl

theorem introspect_now_le (hw : (client.scheduler sdk).Guaranteed (client.IntrospectSegment sdk) w)
    (h : (client.scheduler sdk).step w l = some w') : w.shared.now ≤ w'.shared.now := by
  rcases introspect_step_cases hw h with ⟨id, apiKey, rfl, -, rfl⟩ |
    ⟨id, answer, apiKey, o, k, a, r, rfl, -, -, -, -, hfollows, rfl⟩ | ⟨id, apiKey, k, rfl, rfl⟩ |
    ⟨seconds, rfl, hnn, rfl⟩
  · exact (startIntrospect_now apiKey w.shared).ge
  · exact (now_of_follows hfollows).ge
  · exact le_rfl
  · exact le_add_of_nonneg_right hnn

@[simp] theorem record_reset (s : ApiKeyState) (report : Option Report) :
    (s.record report).breaker.reset = s.breaker.reset := by
  rcases report with - | - | - <;> rfl

theorem reset_step (hw : (client.scheduler sdk).Guaranteed (client.IntrospectSegment sdk) w)
    (h : (client.scheduler sdk).step w l = some w') :
    w'.shared.breaker.reset = w.shared.breaker.reset := by
  rcases breaker_step hw h with hrecord | ⟨-, -, hasked⟩
  · rw [hrecord, record_reset]
  · rw [hasked, CircuitBreaker.allowsCall_reset]

section Since

variable {m : IntrospectPool} {past : List (IntrospectPool × IntrospectAct)}
  (hm : (client.scheduler sdk).Guaranteed (client.IntrospectSegment sdk) m)
  (run : Run (client.scheduler sdk).step m past w)
include hm run

theorem run_now_le : m.shared.now ≤ w.shared.now := by
  induction run with
  | start => exact le_rfl
  | next run h ih => exact ih.trans (introspect_now_le (run.invariant introspects_keep hm) h)

theorem run_reset : w.shared.breaker.reset = m.shared.breaker.reset := by
  induction run with
  | start => rfl
  | next run h ih => rw [reset_step (run.invariant introspects_keep hm) h, ih]

end Since

/-- The breaker of a reached client still has the reset window of its tuning. -/
theorem reset_eq {now : ℚ} {past : List (IntrospectPool × IntrospectAct)}
    (run : Run (client.scheduler sdk).step (client.start now) past w) :
    w.shared.breaker.reset = client.tuning.circuitResetSeconds := by
  exact run_reset (Scheduler.guaranteed_idle _ _) run

/-- The step reports the failure that opens the circuit. -/
def ApiKeyIntrospectionClient.Opens (client : ApiKeyIntrospectionClient) (sdk : ApiKeySdk)
    (w : IntrospectPool) (l : IntrospectAct) : Prop :=
  client.report sdk w l = some .failure ∧ w.shared.breaker.OpensNext

instance : Decidable (client.Opens sdk w l) := inferInstanceAs (Decidable (_ ∧ _))

/-- A circuit that a step leaves opened was opened by it, or stayed so: the step reports no
success, and starts no call for which the reset window is over. -/
theorem openedAt_step (hw : (client.scheduler sdk).Guaranteed (client.IntrospectSegment sdk) w)
    (h : (client.scheduler sdk).step w l = some w') {t : ℚ}
    (ht : w'.shared.breaker.openedAt = some t) :
    client.Opens sdk w l ∧ t = w.shared.now ∨
    w.shared.breaker.openedAt = some t ∧ client.report sdk w l ≠ some .success := by
  rcases breaker_step hw h with hrecord | ⟨hnone, -, hasked⟩
  · rw [hrecord] at ht
    cases hreport : client.report sdk w l with
    | none =>
      rw [hreport] at ht
      exact .inr ⟨ht, by simp⟩
    | some report =>
      rw [hreport] at ht
      cases report with
      | success => contradiction
      | failure =>
        rcases CircuitBreaker.recordFailure_openedAt.mp ht with ⟨hopens, rfl⟩ | ⟨-, hold⟩
        · exact .inl ⟨⟨hreport, hopens⟩, rfl⟩
        · exact .inr ⟨hold, by simp⟩
  · rw [hasked] at ht
    exact .inr ⟨(CircuitBreaker.allowsCall_openedAt ht).1, by simp [hnone]⟩

/-- A circuit that is found opened was opened by a step since it was last closed, and no
success was reported since that step. -/
theorem opened_since {m : IntrospectPool}
    (hm : (client.scheduler sdk).Guaranteed (client.IntrospectSegment sdk) m)
    (hclosed : m.shared.breaker.openedAt = none) {past : List (IntrospectPool × IntrospectAct)}
    (run : Run (client.scheduler sdk).step m past w) {t : ℚ}
    (ht : w.shared.breaker.openedAt = some t) :
    ∃ newer w₁ l₁ older, past = newer ++ (w₁, l₁) :: older ∧
      (client.Opens sdk w₁ l₁ ∧ t = w₁.shared.now) ∧
      ∀ x ∈ newer, ¬ client.report sdk x.1 x.2 = some .success := by
  rcases run.provenance (fun w (_ : Unit) => w.shared.breaker.openedAt)
    (fun w l _ t => client.Opens sdk w l ∧ t = w.shared.now)
    (fun w l _ _ => client.report sdk w l = some .success) introspects_keep
    (fun w l w' hw h _ t ht => openedAt_step hw h ht) hm (k := ()) ht with ⟨hstart, -⟩ | hopened
  · rw [hclosed] at hstart
    contradiction
  · exact hopened

/-- A circuit that has opened at `t₀` stays open until its reset window is over, as long as no
success is reported. -/
theorem stays_open {m : IntrospectPool}
    (hm : (client.scheduler sdk).Guaranteed (client.IntrospectSegment sdk) m) {t₀ : ℚ}
    (hnow : t₀ ≤ m.shared.now) (hopened : ∃ t, t₀ ≤ t ∧ m.shared.breaker.openedAt = some t)
    {newer : List (IntrospectPool × IntrospectAct)}
    (run : Run (client.scheduler sdk).step m newer w)
    (hquiet : ∀ x ∈ newer, client.report sdk x.1 x.2 ≠ some .success)
    (hwithin : w.shared.now - t₀ < w.shared.breaker.reset) :
    t₀ ≤ w.shared.now ∧ ∃ t, t₀ ≤ t ∧ w.shared.breaker.openedAt = some t := by
  induction run with
  | start => exact ⟨hnow, hopened⟩
  | @next newer w l w' run h ih =>
    have hw := run.invariant introspects_keep hm
    have hstep := introspect_now_le hw h
    rw [reset_step hw h] at hwithin
    have hbefore : w.shared.now - t₀ < w.shared.breaker.reset := by linarith
    obtain ⟨hlate, t, hle, ht⟩ := ih (fun x hx => hquiet x (List.mem_cons_of_mem _ hx)) hbefore
    refine ⟨hlate.trans hstep, ?_⟩
    rcases breaker_step hw h with hrecord | ⟨-, -, hasked⟩
    · rw [hrecord]
      cases hreport : client.report sdk w l with
      | none => exact ⟨t, hle, ht⟩
      | some report =>
        cases report with
        | success => exact absurd hreport (hquiet (w, l) List.mem_cons_self)
        | failure =>
          by_cases hopens : w.shared.breaker.OpensNext
          · exact ⟨w.shared.now, hlate,
              CircuitBreaker.recordFailure_openedAt.mpr (.inl ⟨hopens, rfl⟩)⟩
          · exact ⟨t, hle, CircuitBreaker.recordFailure_openedAt.mpr (.inr ⟨hopens, ht⟩)⟩
    · have hopen : w.shared.breaker.IsOpen w.shared.now := ⟨t, ht, by linarith⟩
      rw [hasked, CircuitBreaker.allowsCall_of_isOpen hopen]
      exact ⟨t, hle, ht⟩

end FastapiM8
