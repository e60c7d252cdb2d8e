import FastapiM8.ApiKey.Runs

/-! The circuit from an opening to the next success: which calls it refuses, who is admitted
beside its half-open trial, and what is sent while it is open. -/
namespace FastapiM8

open ApiKeyIntrospectionClient

variable {client : ApiKeyIntrospectionClient} {sdk : ApiKeySdk} {apiKey : String}
  {w w' : IntrospectPool} {l : IntrospectAct}

namespace ApiKeyIntrospectionClient

variable (client sdk)

/-- A step of the history opened the circuit less than its reset window before `w`, and no
success was reported since. -/
def OpenedWithin (past : List (IntrospectPool × IntrospectAct)) (w : IntrospectPool) : Prop :=
  ∃ newer w₁ l₁ older, past = newer ++ (w₁, l₁) :: older ∧ client.Opens sdk w₁ l₁ ∧
    (∀ x ∈ newer, client.report sdk x.1 x.2 ≠ some .success) ∧
    w.shared.now - w₁.shared.now < client.tuning.circuitResetSeconds

/-- The circuit has opened, its reset window is over, and since the opening nothing was
reported and no call has asked after the window. -/
def WindowOver (past : List (IntrospectPool × IntrospectAct)) (w : IntrospectPool) : Prop :=
  ∃ newer w₁ l₁ older, past = newer ++ (w₁, l₁) :: older ∧ client.Opens sdk w₁ l₁ ∧
    (∀ x ∈ newer, client.report sdk x.1 x.2 = none) ∧
    (∀ x ∈ newer, ∀ id, client.Asks sdk x.2 id →
      x.1.shared.now - w₁.shared.now < client.tuning.circuitResetSeconds) ∧
    client.tuning.circuitResetSeconds ≤ w.shared.now - w₁.shared.now

/-- The step admits the call that it starts. -/
def Admits (w : IntrospectPool) (l : IntrospectAct) (id : ℕ) : Prop :=
  ∃ w', (client.scheduler sdk).step w l = some w' ∧ w'.Pending id

variable {client sdk}

/-- A step that opens the circuit leaves it opened. -/
theorem opens_step (hw : (client.scheduler sdk).Guaranteed (client.IntrospectSegment sdk) w)
    (h : (client.scheduler sdk).step w l = some w') (hopens : client.Opens sdk w l) :
    w'.shared.breaker.openedAt = some w.shared.now := by
  rcases breaker_step hw h with hrecord | ⟨hnone, -, -⟩
  · rw [hrecord, hopens.1]
    exact CircuitBreaker.recordFailure_openedAt.mpr (.inl ⟨hopens.2, rfl⟩)
  · have hfailure := hopens.1
    simp [hnone] at hfailure

/-- A circuit that was closed at `m` is open now exactly when the steps since `m` have opened
it within the reset window. -/
theorem isOpen_iff_openedWithin {m : IntrospectPool}
    (hm : (client.scheduler sdk).Guaranteed (client.IntrospectSegment sdk) m)
    (hclosed : m.shared.breaker.openedAt = none)
    (hreset : w.shared.breaker.reset = client.tuning.circuitResetSeconds)
    {past : List (IntrospectPool × IntrospectAct)}
    (run : Run (client.scheduler sdk).step m past w) :
    w.shared.breaker.IsOpen w.shared.now ↔ client.OpenedWithin sdk past w := by
  constructor
  · rintro ⟨t, ht, hlt⟩
    obtain ⟨newer, w₁, l₁, older, rfl, ⟨hopens, rfl⟩, hquiet⟩ := opened_since hm hclosed run ht
    rw [hreset] at hlt
    exact ⟨newer, w₁, l₁, older, rfl, hopens, hquiet, hlt⟩
  · rintro ⟨newer, w₁, l₁, older, rfl, hopens, hquiet, hlt⟩
    obtain ⟨run₁, w₂, hstep, run₂⟩ := run.split_cons
    have hw₁ := run₁.invariant introspects_keep hm
    have hopened := opens_step hw₁ hstep hopens
    have hnow := introspect_now_le hw₁ hstep
    rw [← hreset] at hlt
    obtain ⟨-, t, hle, ht⟩ := stays_open (introspects_keep _ _ _ hw₁ hstep) hnow
      ⟨_, le_rfl, hopened⟩ run₂ hquiet hlt
    exact ⟨t, ht, by linarith⟩

/-- A call that asks is refused exactly when the circuit is open. -/
theorem admits_iff {id : ℕ} (hrequest : sdk.request apiKey client.tuning.schemaVersion = true)
    (hnew : w.tasks id = none) :
    client.Admits sdk w (.spawn id apiKey) id ↔ ¬ w.shared.breaker.IsOpen w.shared.now := by
  have hstep : (client.scheduler sdk).step w (.spawn id apiKey) =
      some (w.park id apiKey (client.startIntrospect sdk apiKey w.shared)) :=
    introspect_spawn_iff.mpr ⟨hnew, rfl⟩
  have hpending : client.Admits sdk w (.spawn id apiKey) id ↔
      (w.park id apiKey (client.startIntrospect sdk apiKey w.shared)).Pending id := by
    simp [Admits, hstep]
  rw [hpending, ← CircuitBreaker.allowsCall_eq_false_iff, startIntrospect, if_pos hrequest]
  cases (w.shared.breaker.allowsCall w.shared.now).1 with
  | false => simp [Pool.Pending]
  | true =>
    simp only [↓reduceIte, enter, admitted, Bool.true_eq_false, not_false_eq_true, iff_true]
    split <;> exact ⟨_, _, _, Pool.park_tasks_self _ _ _ _⟩

/-- An opening is kept by steps that report nothing and start no call that asks after it. -/
theorem opening_kept {m : IntrospectPool} {t : ℚ}
    (hm : (client.scheduler sdk).Guaranteed (client.IntrospectSegment sdk) m)
    (hopened : m.shared.breaker.openedAt = some t) {newer : List (IntrospectPool × IntrospectAct)}
    (run : Run (client.scheduler sdk).step m newer w)
    (hsilent : ∀ x ∈ newer, client.report sdk x.1 x.2 = none)
    (hearly : ∀ x ∈ newer, ∀ id, client.Asks sdk x.2 id →
      x.1.shared.now - t < m.shared.breaker.reset) :
    w.shared.breaker.openedAt = some t ∧ w.shared.breaker.reset = m.shared.breaker.reset := by
  induction run with
  | start => exact ⟨hopened, rfl⟩
  | @next newer w l w' run h ih =>
    have hw := run.invariant introspects_keep hm
    obtain ⟨ht, hreset⟩ := ih (fun x hx => hsilent x (List.mem_cons_of_mem _ hx))
      fun x hx => hearly x (List.mem_cons_of_mem _ hx)
    have hnone : client.report sdk w l = none := hsilent (w, l) List.mem_cons_self
    refine ⟨?_, (reset_step hw h).trans hreset⟩
    rcases breaker_step hw h with hrecord | ⟨-, ⟨id, hasks⟩, hasked⟩
    · rw [hrecord, hnone]
      exact ht
    · have hlt := hearly (w, l) List.mem_cons_self id hasks
      rw [← hreset] at hlt
      rw [hasked, CircuitBreaker.allowsCall_of_isOpen ⟨t, ht, hlt⟩]
      exact ht

/-- An opening that nothing has followed is still there when its reset window is over. -/
theorem isDue_of_windowOver {now : ℚ} {past : List (IntrospectPool × IntrospectAct)}
    (run : Run (client.scheduler sdk).step (client.start now) past w)
    (hover : client.WindowOver sdk past w) : w.shared.breaker.IsDue w.shared.now := by
  obtain ⟨newer, w₁, l₁, older, rfl, hopens, hsilent, hearly, hdue⟩ := hover
  have hreset := reset_eq run
  obtain ⟨run₁, w₂, hstep, run₂⟩ := run.split_cons
  have hw₁ := introspects_guaranteed run₁
  have hreset₂ := reset_eq (run₁.next hstep)
  rw [← hreset₂] at hearly
  obtain ⟨ht, -⟩ := opening_kept (introspects_keep _ _ _ hw₁ hstep) (opens_step hw₁ hstep hopens)
    run₂ hsilent hearly
  rw [← hreset] at hdue
  exact ⟨_, ht, hdue⟩

/-- The call that asks when the window is over closes the circuit on its way. -/
theorem closed_of_due {id : ℕ} (hrequest : sdk.request apiKey client.tuning.schemaVersion = true)
    (h : (client.scheduler sdk).step w (.spawn id apiKey) = some w')
    (hdue : w.shared.breaker.IsDue w.shared.now) : w'.shared.breaker.openedAt = none := by
  obtain ⟨-, rfl⟩ := introspect_spawn_iff.mp h
  have hasked : w.shared.ask.breaker.openedAt = none := by
    rw [ApiKeyState.ask, CircuitBreaker.allowsCall_of_isDue hdue]
  rw [Pool.park_shared, startIntrospect, if_pos hrequest, CircuitBreaker.allowsCall_of_isDue hdue]
  simp only [↓reduceIte, enter]
  split <;> exact hasked

/-- A call asks the breaker while the trial `id` has not ended; `between` lists the steps since
the trial was admitted. -/
def AsksBeside (client : ApiKeyIntrospectionClient) (sdk : ApiKeySdk)
    (newer : List (IntrospectPool × IntrospectAct)) (id : ℕ)
    (between : List (IntrospectPool × IntrospectAct)) (w : IntrospectPool) (l : IntrospectAct)
    (id' : ℕ) : Prop :=
  (∃ newest, newer = newest ++ (w, l) :: between) ∧ client.Asks sdk l id' ∧ w.Pending id

/-- The call that asks first when the reset window is over is admitted as the trial. No other
call is admitted until the trial has ended exactly when each one that asks meanwhile finds the
circuit opened again, since the admission and less than a reset window ago. -/
theorem half_open_trial_iff (client : ApiKeyIntrospectionClient) (sdk : ApiKeySdk) (now : ℚ)
    (newer older : List (IntrospectPool × IntrospectAct)) (w₁ w : IntrospectPool) (id : ℕ)
    (apiKey : String)
    (run : Run (client.scheduler sdk).step (client.start now)
      (newer ++ (w₁, .spawn id apiKey) :: older) w)
    (hrequest : sdk.request apiKey client.tuning.schemaVersion = true)
    (hover : client.WindowOver sdk older w₁) :
    client.Admits sdk w₁ (.spawn id apiKey) id ∧
    ((∀ between w₂ l₂ id₂, AsksBeside client sdk newer id between w₂ l₂ id₂ →
        ¬ client.Admits sdk w₂ l₂ id₂) ↔
      ∀ between w₂ l₂ id₂, AsksBeside client sdk newer id between w₂ l₂ id₂ →
        client.OpenedWithin sdk between w₂) := by
  obtain ⟨run₁, m, hstep, run₂⟩ := run.split_cons
  have hdue := isDue_of_windowOver run₁ hover
  have hnew := (introspect_spawn_iff.mp hstep).1
  have hm := introspects_guaranteed (run₁.next hstep)
  have hclosed := closed_of_due hrequest hstep hdue
  have hbeside : ∀ between w₂ l₂ id₂, AsksBeside client sdk newer id between w₂ l₂ id₂ →
      (¬ client.Admits sdk w₂ l₂ id₂ ↔ client.OpenedWithin sdk between w₂) := by
    rintro between w₂ - id₂ ⟨⟨newest, rfl⟩, ⟨apiKey₂, rfl, hrequest₂⟩, -⟩
    obtain ⟨between_run, w₃, hstep₂, -⟩ := run₂.split_cons
    have hreset : w₂.shared.breaker.reset = client.tuning.circuitResetSeconds := by
      rw [List.append_assoc] at run
      exact reset_eq run.split_cons.1
    have hopen := isOpen_iff_openedWithin hm hclosed hreset between_run
    rw [admits_iff hrequest₂ (introspect_spawn_iff.mp hstep₂).1, not_not, hopen]
  constructor
  · exact (admits_iff hrequest hnew).mpr hdue.not_isOpen
  · constructor
    · intro h between w₂ l₂ id₂ hasks
      exact (hbeside between w₂ l₂ id₂ hasks).mp (h between w₂ l₂ id₂ hasks)
    · intro h between w₂ l₂ id₂ hasks
      exact (hbeside between w₂ l₂ id₂ hasks).mpr (h between w₂ l₂ id₂ hasks)

/-- A call on its way to the issuer. -/
def sends (id : ℕ) : List ((IntrospectPool → Bool) × IntrospectAct) :=
  [(fun _ => true, .spawn id "key"), (fun _ => true, .resume id .resumed),
    (fun _ => true, .resume id (.headers [(internalTokenHeader, .text "secret")]))]

def readTimeout (id : ℕ) : IntrospectAct := .resume id (.raises (.transportError .readTimeout))

/-- The call opens the circuit, at a given time. -/
def opens (maxConcurrency id : ℕ) (now : ℚ) : (IntrospectPool → Bool) × IntrospectAct :=
  (fun w => decide ((strictClient maxConcurrency).Opens apiKeyV1Sdk w (readTimeout id)) &&
    decide (w.shared.now = now), readTimeout id)

def trialAsks : (IntrospectPool → Bool) × IntrospectAct :=
  (fun w => decide (w.shared.now = 30), .spawn 1 "key")

def asksBesideTrial : (IntrospectPool → Bool) × IntrospectAct :=
  (fun w => (w.awaits 1).isSome && decide (w.shared.now = 30), .spawn 2 "key")

/-- What has happened when the trial asks: call 0 has opened the circuit, and its reset window
is over. -/
theorem windowOver_of_took {past : List (IntrospectPool × IntrospectAct)}
    {script : List ((IntrospectPool → Bool) × IntrospectAct)} {w : IntrospectPool}
    (hall : List.Forall₂ Run.Took past ((fun _ => true, .env 30) :: opens 2 0 0 :: script))
    (hw : w.shared.now = 30) : (strictClient 2).WindowOver apiKeyV1Sdk past w := by
  rcases hall with - | @⟨⟨w₁, l₁⟩, -, past, -, ⟨rfl, -⟩, hall⟩
  rcases hall with - | @⟨⟨w₀, l₀⟩, -, older, -, ⟨rfl, hopened⟩, -⟩
  simp only [opens, Bool.and_eq_true, decide_eq_true_eq] at hopened
  refine ⟨[(w₁, .env 30)], w₀, readTimeout 0, older, rfl, hopened.1, ?_, ?_, ?_⟩
  · simp [report]
  · simp [Asks]
  · rw [hw, hopened.2]
    decide +kernel

/-- A call that was already on the wire fails while the trial is, and so opens the circuit
again before the next call asks. -/
theorem half_open_trial_alone :
    ∃ older w₀ w₁ w₂ w₃,
      Run ((strictClient 2).scheduler apiKeyV1Sdk).step ((strictClient 2).start 0)
        ([(w₂, .spawn 2 "key"), (w₁, readTimeout 3)] ++ (w₀, .spawn 1 "key") :: older) w₃ ∧
      AsksBeside (strictClient 2) apiKeyV1Sdk [(w₂, .spawn 2 "key"), (w₁, readTimeout 3)] 1
        [(w₁, readTimeout 3)] w₂ (.spawn 2 "key") 2 ∧
      ¬ (strictClient 2).Admits apiKeyV1Sdk w₂ (.spawn 2 "key") 2 := by
  have heval : (Run.follow ((strictClient 2).scheduler apiKeyV1Sdk).step ((strictClient 2).start 0)
      (sends 0 ++ sends 3 ++ [opens 2 0 0, (fun _ => true, .env 30), trialAsks, opens 2 3 30,
        asksBesideTrial])).isSome = true := by decide +kernel
  obtain ⟨w₃, hw₃⟩ := Option.isSome_iff_exists.mp heval
  obtain ⟨past, run, hall⟩ := Run.of_follow hw₃
  rcases hall with - | @⟨⟨w₂, l₂⟩, -, past, -, ⟨rfl, hbeside⟩, hall⟩
  rcases hall with - | @⟨⟨w₁, l₁⟩, -, past, -, ⟨rfl, hopened⟩, hall⟩
  rcases hall with - | @⟨⟨w₀, l₀⟩, -, older, -, ⟨rfl, hasked⟩, hall⟩
  simp only [trialAsks, decide_eq_true_eq] at hasked
  simp only [asksBesideTrial, opens, Bool.and_eq_true, decide_eq_true_eq] at hbeside hopened
  have hbetween : AsksBeside (strictClient 2) apiKeyV1Sdk
      [(w₂, .spawn 2 "key"), (w₁, readTimeout 3)] 1 [(w₁, readTimeout 3)] w₂ (.spawn 2 "key") 2 :=
    ⟨⟨[], rfl⟩, ⟨"key", rfl, by decide⟩, Pool.pending_iff.mpr hbeside.1⟩
  refine ⟨older, w₀, w₁, w₂, w₃, run, hbetween, ?_⟩
  refine (half_open_trial_iff (strictClient 2) apiKeyV1Sdk 0 _ older w₀ w₃ 1 "key" run (by decide)
    (windowOver_of_took hall hasked)).2.mpr ?_ _ _ _ _ hbetween
  rintro between w l id ⟨⟨newest, hnewer⟩, ⟨apiKey, rfl, -⟩, -⟩
  match newest with
  | [] =>
    obtain ⟨⟨rfl, -⟩, rfl⟩ := by simpa using hnewer
    refine ⟨[], w₁, readTimeout 3, [], rfl, hopened.1, by simp, ?_⟩
    rw [hbeside.2, hopened.2]
    decide +kernel
  | [_] => simp [readTimeout] at hnewer
  | _ :: _ :: _ => simp at hnewer

/-- The first call opens the circuit, the second asks when the window is over, and before it
has ended the third one is admitted as well. -/
theorem half_open_trial_not_alone :
    ¬ ∀ (client : ApiKeyIntrospectionClient) (sdk : ApiKeySdk) (now : ℚ)
      (newer older : List (IntrospectPool × IntrospectAct)) (w₁ w : IntrospectPool) (id : ℕ)
      (apiKey : String), 1 ≤ client.tuning.circuitFailureThreshold →
      0 < client.tuning.circuitResetSeconds →
      Run (client.scheduler sdk).step (client.start now)
        (newer ++ (w₁, .spawn id apiKey) :: older) w →
      sdk.request apiKey client.tuning.schemaVersion = true → client.WindowOver sdk older w₁ →
      client.Admits sdk w₁ (.spawn id apiKey) id ∧
      ∀ between w₂ l₂ id₂, AsksBeside client sdk newer id between w₂ l₂ id₂ →
        ¬ client.Admits sdk w₂ l₂ id₂ := by
  intro h
  have heval : (Run.follow ((strictClient 2).scheduler apiKeyV1Sdk).step ((strictClient 2).start 0)
      (sends 0 ++ [opens 2 0 0, (fun _ => true, .env 30), trialAsks,
        (fun w => asksBesideTrial.1 w && decide (w.shared.breaker.openedAt = none),
          asksBesideTrial.2)])).isSome = true := by decide +kernel
  obtain ⟨w₃, hw₃⟩ := Option.isSome_iff_exists.mp heval
  obtain ⟨past, run, hall⟩ := Run.of_follow hw₃
  rcases hall with - | @⟨⟨w₂, l₂⟩, -, past, -, ⟨rfl, hbeside⟩, hall⟩
  rcases hall with - | @⟨⟨w₁, l₁⟩, -, older, -, ⟨rfl, hasked⟩, hall⟩
  simp only [asksBesideTrial, trialAsks, Bool.and_eq_true, decide_eq_true_eq] at hbeside hasked
  obtain ⟨⟨hpending, -⟩, hclosed⟩ := hbeside
  have hrefused := (h (strictClient 2) apiKeyV1Sdk 0 [(w₂, .spawn 2 "key")] older w₁ w₃ 1 "key"
    (by decide) (by decide +kernel) run (by decide) (windowOver_of_took hall hasked)).2 [] w₂
    (.spawn 2 "key") 2 ⟨⟨[], rfl⟩, ⟨"key", rfl, by decide⟩, Pool.pending_iff.mpr hpending⟩
  have hnew := (introspect_spawn_iff.mp run.last.2).1
  refine hrefused ((admits_iff (by decide) hnew).mpr ?_)
  rintro ⟨t, ht, -⟩
  rw [hclosed] at ht
  contradiction

/-- The step starts the transmission of an introspection request. -/
def Transmits (client : ApiKeyIntrospectionClient) (sdk : ApiKeySdk) (w : IntrospectPool)
    (l : IntrospectAct) : Prop :=
  ∃ id request w', (client.scheduler sdk).step w l = some w' ∧ l.Runs id ∧
    w'.awaits id = some (.post request)

/-- The credential of a call arrives. -/
def Credentialed (w : IntrospectPool) (l : IntrospectAct) (id : ℕ) : Prop :=
  ∃ headers, l = .resume id (.headers headers) ∧ w.awaits id = some .authHeaders

/-- The step is taken less than the reset window after the opening at `w₁`; `between` lists the
steps since the opening. -/
def WithinWindow (client : ApiKeyIntrospectionClient)
    (newer : List (IntrospectPool × IntrospectAct)) (w₁ : IntrospectPool)
    (between : List (IntrospectPool × IntrospectAct)) (w : IntrospectPool) (l : IntrospectAct) :
    Prop :=
  (∃ newest, newer = newest ++ (w, l) :: between) ∧
    w.shared.now - w₁.shared.now < client.tuning.circuitResetSeconds

/-- The call has asked since the opening, and no success had been reported when it did. -/
def AskedSince (client : ApiKeyIntrospectionClient) (sdk : ApiKeySdk)
    (between : List (IntrospectPool × IntrospectAct)) (id : ℕ) : Prop :=
  ∃ newer w l older, between = newer ++ (w, l) :: older ∧ client.Asks sdk l id ∧
    ∀ x ∈ older, client.report sdk x.1 x.2 ≠ some .success

/-- The call asked the breaker in a step of `before`, or in `between` when a success had been
reported. -/
def AskedOutside (client : ApiKeyIntrospectionClient) (sdk : ApiKeySdk)
    (between before : List (IntrospectPool × IntrospectAct)) (id : ℕ) : Prop :=
  (∃ x ∈ before, client.Asks sdk x.2 id) ∨
    ∃ newer w l older, between = newer ++ (w, l) :: older ∧ client.Asks sdk l id ∧
      ∃ x ∈ older, client.report sdk x.1 x.2 = some .success

theorem awaits_startIntrospect (apiKey : String) (s : ApiKeyState)
    (request : IntrospectionRequest) :
    (client.startIntrospect sdk apiKey s).1.awaits ≠ some (.post request) := by
  unfold startIntrospect enter admitted
  split_ifs <;> simp

/-- A segment that ends in a request was started by the credential for it. -/
theorem credential_of_post {s : ApiKeyState} {signal : Signal}
    {r : Prog ApiKeyOp ApiKeyAns (Except PyExc (Option ApiKeyPrincipal)) × ApiKeyState}
    {request : IntrospectionRequest} (h : client.Follows sdk apiKey s signal r)
    (hpost : r.1.awaits = some (.post request)) : ∃ headers, signal = .credential headers := by
  cases h with
  | sends headers k => exact ⟨headers, rfl⟩
  | _ => simp at hpost

theorem post_of_credential {s : ApiKeyState} {headers : Headers}
    {r : Prog ApiKeyOp ApiKeyAns (Except PyExc (Option ApiKeyPrincipal)) × ApiKeyState}
    (h : client.Follows sdk apiKey s (.credential headers) r) :
    r.1.awaits = some (.post (client.requestFor apiKey headers)) := by
  cases h
  rfl

/-- The credential is the headers that the provider returned. -/
theorem headers_of_credential {o : ApiKeyOp} {a : ApiKeyAns o} {answer : ApiKeyAnswer}
    {headers : Headers} (ha : o.decode answer = some a)
    (h : client.signal o a = .credential headers) :
    o = .authHeaders ∧ answer = .headers headers := by
  unfold signal at h
  split at h
  case h_8 => split at h <;> contradiction
  case h_5 headers' =>
    obtain rfl := Signal.credential.inj h
    cases answer with
    | headers headers'' =>
      have heq : Except.ok headers'' = (Except.ok headers' : Except PyExc Headers) :=
        Option.some.inj ha
      obtain rfl := Except.ok.inj heq
      exact ⟨rfl, rfl⟩
    | raises exc =>
      have heq : Except.error exc = (Except.ok headers' : Except PyExc Headers) :=
        Option.some.inj ha
      contradiction
    | _ => contradiction
  all_goals contradiction

/-- Headers are delivered to a call that waits for its credential. -/
theorem credentialed_of_step {id : ℕ} {headers : Headers}
    (h : (client.scheduler sdk).step w (.resume id (.headers headers)) = some w') :
    Credentialed w (.resume id (.headers headers)) id := by
  obtain ⟨apiKey, o, k, a, ht, ha, -⟩ := Scheduler.step_resume_iff.mp h
  cases o with
  | authHeaders => exact ⟨headers, rfl, by simp [Pool.awaits_of_tasks ht]⟩
  | _ => contradiction

/-- A transmission starts when its credential arrives, and only then. -/
theorem transmits_iff (hw : (client.scheduler sdk).Guaranteed (client.IntrospectSegment sdk) w)
    (h : (client.scheduler sdk).step w l = some w') :
    client.Transmits sdk w l ↔ ∃ id, Credentialed w l id := by
  constructor
  · rintro ⟨id, request, w'', h', hruns, hpost⟩
    obtain rfl := Option.some.inj (h.symm.trans h')
    rcases introspect_step_cases hw h with ⟨id', apiKey, rfl, -, rfl⟩ |
      ⟨id', answer, apiKey, o, k, a, r, rfl, ht, ha, -, -, hfollows, rfl⟩ |
      ⟨id', apiKey, k, rfl, rfl⟩ | ⟨seconds, rfl, -, rfl⟩
    · obtain rfl : id' = id := by simpa [Act.Runs] using hruns
      rw [Pool.awaits_park_self] at hpost
      exact absurd hpost (awaits_startIntrospect apiKey w.shared request)
    · obtain rfl : id' = id := by simpa [Act.Runs] using hruns
      rw [Pool.awaits_park_self] at hpost
      obtain ⟨headers, hsignal⟩ := credential_of_post hfollows hpost
      obtain ⟨rfl, rfl⟩ := headers_of_credential ha hsignal
      exact ⟨id', headers, rfl, by simp [Pool.awaits_of_tasks ht]⟩
    · obtain rfl : id' = id := by simpa [Act.Runs] using hruns
      simp at hpost
    · simp [Act.Runs] at hruns
  · rintro ⟨id, headers, rfl, hawaits⟩
    obtain ⟨apiKey, k, ht⟩ := Pool.awaits_eq_some hawaits
    obtain ⟨-, hfollows⟩ := hw.segment ht (.ok headers) w.shared
    have hstep : (client.scheduler sdk).step w (.resume id (.headers headers)) =
        some (w.park id apiKey ((k (.ok headers)).settle ApiKeyOp.exec w.shared)) :=
      Scheduler.step_resume_iff.mpr ⟨apiKey, _, k, .ok headers, ht, rfl, rfl⟩
    refine ⟨id, client.requestFor apiKey headers, _, hstep, .inr (.inl ⟨_, rfl⟩), ?_⟩
    rw [Pool.awaits_park_self]
    exact post_of_credential hfollows

/-- A call that asks while the circuit is open is over at once, and stays so. -/
theorem not_pending_of_refused {m w₂ : IntrospectPool} {id : ℕ} (hasks : client.Asks sdk l id)
    (h : (client.scheduler sdk).step w l = some m) (hopen : w.shared.breaker.IsOpen w.shared.now)
    {newer : List (IntrospectPool × IntrospectAct)}
    (run : Run (client.scheduler sdk).step m newer w₂) : w₂.awaits id = none := by
  obtain ⟨apiKey, rfl, hrequest⟩ := hasks
  obtain ⟨-, rfl⟩ := introspect_spawn_iff.mp h
  have hrefused : (w.shared.breaker.allowsCall w.shared.now).1 = false :=
    CircuitBreaker.allowsCall_eq_false_iff.mpr hopen
  have hdone : (w.park id apiKey (client.startIntrospect sdk apiKey w.shared)).tasks id =
      some ⟨apiKey, .ret (.error (.apiKeyIntrospectionError "circuit_open"))⟩ := by
    simp [startIntrospect, hrequest, hrefused]
  rw [Pool.awaits_of_tasks (Scheduler.run_done run hdone)]
  rfl

/-- A call that has asked since an opening, before any success, has ended as long as the window
of the opening is not over. -/
theorem not_pending_of_askedSince {m w₁ w₂ : IntrospectPool} {l₁ : IntrospectAct} {id : ℕ}
    (hw₁ : (client.scheduler sdk).Guaranteed (client.IntrospectSegment sdk) w₁)
    (hopens : client.Opens sdk w₁ l₁) (hstep : (client.scheduler sdk).step w₁ l₁ = some m)
    {between : List (IntrospectPool × IntrospectAct)}
    (run : Run (client.scheduler sdk).step m between w₂)
    (hwithin : w₂.shared.now - w₁.shared.now < m.shared.breaker.reset)
    (hasked : client.AskedSince sdk between id) : w₂.awaits id = none := by
  obtain ⟨newer, w, l, older, rfl, hasks, hquiet⟩ := hasked
  obtain ⟨older_run, m', hstep', newer_run⟩ := run.split_cons
  have hm := introspects_keep _ _ _ hw₁ hstep
  have hw := older_run.invariant introspects_keep hm
  have hle : w.shared.now ≤ w₂.shared.now :=
    (introspect_now_le hw hstep').trans (run_now_le (introspects_keep _ _ _ hw hstep') newer_run)
  have hreset := run_reset hm older_run
  have hlt : w.shared.now - w₁.shared.now < w.shared.breaker.reset := by
    rw [hreset]
    linarith
  obtain ⟨-, t, htle, ht⟩ := stays_open hm (introspect_now_le hw₁ hstep)
    ⟨_, le_rfl, opens_step hw₁ hstep hopens⟩ older_run hquiet hlt
  have hopen : w.shared.breaker.IsOpen w.shared.now := ⟨t, ht, by linarith⟩
  exact not_pending_of_refused hasks hstep' hopen newer_run

/-- A call that awaits anything has asked the breaker. -/
theorem asked_of_awaits {now : ℚ} {past : List (IntrospectPool × IntrospectAct)}
    (run : Run (client.scheduler sdk).step (client.start now) past w) {id : ℕ} {o : ApiKeyOp}
    (h : w.awaits id = some o) : ∃ x ∈ past, client.Asks sdk x.2 id := by
  obtain ⟨apiKey, k, ht⟩ := Pool.awaits_eq_some h
  obtain ⟨w₁, hmem⟩ := Scheduler.spawned run ht
  refine ⟨_, hmem, apiKey, rfl, ?_⟩
  by_contra hrequest
  -- otherwise it had ended as soon as it was made
  obtain ⟨newer, older, rfl⟩ := List.append_of_mem hmem
  obtain ⟨-, m, hstep, rest⟩ := run.split_cons
  obtain ⟨-, rfl⟩ := introspect_spawn_iff.mp hstep
  have hdone : ∃ outcome, (w₁.park id apiKey (client.startIntrospect sdk apiKey w₁.shared)).tasks
      id = some ⟨apiKey, .ret outcome⟩ := by
    simp [startIntrospect, hrequest]
  obtain ⟨outcome, hdone⟩ := hdone
  have hended := Pool.awaits_of_tasks (Scheduler.run_done rest hdone)
  rw [h] at hended
  contradiction

/-- After a failure has opened the circuit nothing is transmitted for its reset window exactly
when no credential arrives in it at a call that had asked by then, or that asks after a success
reported since. -/
theorem open_circuit_silent_iff (client : ApiKeyIntrospectionClient) (sdk : ApiKeySdk) (now : ℚ)
    (newer older : List (IntrospectPool × IntrospectAct)) (w₁ w : IntrospectPool)
    (l₁ : IntrospectAct)
    (run : Run (client.scheduler sdk).step (client.start now) (newer ++ (w₁, l₁) :: older) w)
    (hopens : client.Opens sdk w₁ l₁) :
    (∀ between w₂ l₂, WithinWindow client newer w₁ between w₂ l₂ → ¬ client.Transmits sdk w₂ l₂) ↔
      ∀ between w₂ l₂ id, WithinWindow client newer w₁ between w₂ l₂ → Credentialed w₂ l₂ id →
        ¬ client.AskedOutside sdk between ((w₁, l₁) :: older) id := by
  obtain ⟨run₁, m, hstep, run₂⟩ := run.split_cons
  have hw₁ := introspects_guaranteed run₁
  have hm := introspects_keep _ _ _ hw₁ hstep
  have hreset := reset_eq (run₁.next hstep)
  have htransmits : ∀ between w₂ l₂, WithinWindow client newer w₁ between w₂ l₂ →
      (client.Transmits sdk w₂ l₂ ↔ ∃ id, Credentialed w₂ l₂ id) := by
    rintro between w₂ l₂ ⟨⟨newest, rfl⟩, -⟩
    obtain ⟨between_run, w₃, hstep₂, -⟩ := run₂.split_cons
    exact transmits_iff (between_run.invariant introspects_keep hm) hstep₂
  constructor
  · intro h between w₂ l₂ id hwithin harrives
    exact absurd ((htransmits _ _ _ hwithin).mpr ⟨id, harrives⟩) (h _ _ _ hwithin)
  · intro h between w₂ l₂ hwithin hposts
    obtain ⟨id, harrives⟩ := (htransmits _ _ _ hwithin).mp hposts
    have hinside := h between w₂ l₂ id hwithin harrives
    obtain ⟨⟨newest, rfl⟩, hlt⟩ := hwithin
    obtain ⟨between_run, -⟩ := run₂.split_cons
    obtain ⟨headers, -, hawaits⟩ := harrives
    obtain ⟨⟨w₃, l₃⟩, hmem, hasks⟩ := asked_of_awaits ((run₁.next hstep).append between_run) hawaits
    rcases List.mem_append.mp hmem with hmem | hmem
    · obtain ⟨later, earlier, rfl⟩ := List.append_of_mem hmem
      have hquiet : ∀ x ∈ earlier, client.report sdk x.1 x.2 ≠ some .success :=
        fun x hx hsuccess => hinside (.inr ⟨later, w₃, l₃, earlier, rfl, hasks, x, hx, hsuccess⟩)
      rw [← hreset] at hlt
      have hended := not_pending_of_askedSince hw₁ hopens hstep between_run hlt
        ⟨later, w₃, l₃, earlier, rfl, hasks, hquiet⟩
      simp [hended] at hawaits
    · exact hinside (.inl ⟨_, hmem, hasks⟩)

/-- Call 1 asks after call 0 has opened the circuit, and is refused. -/
theorem open_circuit_silent_refused :
    ∃ older w₀ w₁ w, Run ((strictClient 1).scheduler apiKeyV1Sdk).step ((strictClient 1).start 0)
        ([(w₁, .spawn 1 "key")] ++ (w₀, readTimeout 0) :: older) w ∧
      (strictClient 1).Opens apiKeyV1Sdk w₀ (readTimeout 0) ∧
      ∀ between w₂ l₂, WithinWindow (strictClient 1) [(w₁, .spawn 1 "key")] w₀ between w₂ l₂ →
        ¬ (strictClient 1).Transmits apiKeyV1Sdk w₂ l₂ := by
  have heval : (Run.follow ((strictClient 1).scheduler apiKeyV1Sdk).step ((strictClient 1).start 0)
      (sends 0 ++ [opens 1 0 0, (fun _ => true, .spawn 1 "key")])).isSome = true := by
    decide +kernel
  obtain ⟨w, hw⟩ := Option.isSome_iff_exists.mp heval
  obtain ⟨past, run, hall⟩ := Run.of_follow hw
  rcases hall with - | @⟨⟨w₁, l₁⟩, -, past, -, ⟨rfl, -⟩, hall⟩
  rcases hall with - | @⟨⟨w₀, l₀⟩, -, older, -, ⟨rfl, hopened⟩, -⟩
  simp only [opens, Bool.and_eq_true, decide_eq_true_eq] at hopened
  refine ⟨older, w₀, w₁, w, run, hopened.1, ?_⟩
  refine (open_circuit_silent_iff (strictClient 1) apiKeyV1Sdk 0 _ older w₀ w _ run
    hopened.1).mpr ?_
  rintro between w₂ l₂ id ⟨⟨newest, hnewer⟩, -⟩ ⟨headers, rfl, -⟩
  match newest with
  | [] => simp at hnewer
  | _ :: _ => simp at hnewer

/-- Call 1 waits for the only slot when call 0 opens the circuit; it is given the slot that
call 0 leaves, and transmits. -/
theorem open_circuit_not_silent :
    ¬ ∀ (client : ApiKeyIntrospectionClient) (sdk : ApiKeySdk) (now : ℚ)
      (newer older : List (IntrospectPool × IntrospectAct)) (w₁ w : IntrospectPool)
      (l₁ : IntrospectAct),
      Run (client.scheduler sdk).step (client.start now) (newer ++ (w₁, l₁) :: older) w →
      client.Opens sdk w₁ l₁ →
      ∀ between w₂ l₂, WithinWindow client newer w₁ between w₂ l₂ →
        ¬ client.Transmits sdk w₂ l₂ := by
  intro h
  have heval : (Run.follow ((strictClient 1).scheduler apiKeyV1Sdk).step ((strictClient 1).start 0)
      (sends 0 ++ [(fun _ => true, .spawn 1 "key"), opens 1 0 0, (fun _ => true, .wake 1),
        (fun _ => true, .resume 1 .resumed),
        (fun w => decide (w.shared.now = 0),
          .resume 1 (.headers [(internalTokenHeader, .text "secret")]))])).isSome = true := by
    decide +kernel
  obtain ⟨w, hw⟩ := Option.isSome_iff_exists.mp heval
  obtain ⟨past, run, hall⟩ := Run.of_follow hw
  rcases hall with - | @⟨⟨w₃, l₃⟩, -, past, -, ⟨rfl, hsends⟩, hall⟩
  rcases hall with - | @⟨⟨w₂, l₂⟩, -, past, -, ⟨rfl, -⟩, hall⟩
  rcases hall with - | @⟨⟨w₁, l₁⟩, -, past, -, ⟨rfl, -⟩, hall⟩
  rcases hall with - | @⟨⟨w₀, l₀⟩, -, older, -, ⟨rfl, hopened⟩, -⟩
  simp only [opens, Bool.and_eq_true, decide_eq_true_eq] at hopened hsends
  have hsilent := h (strictClient 1) apiKeyV1Sdk 0 [(w₃, _), (w₂, _), (w₁, _)] older w₀ w _ run
    hopened.1 [(w₂, _), (w₁, _)] w₃ _ ⟨⟨[], rfl⟩, ?_⟩
  · obtain ⟨run₃, hstep⟩ := run.last
    exact hsilent ((transmits_iff (introspects_guaranteed run₃) hstep).mpr
      ⟨1, credentialed_of_step hstep⟩)
  · rw [hsends, hopened.2]
    decide +kernel

end ApiKeyIntrospectionClient

end FastapiM8
