import FastapiM8.ApiKey.Runs
import FastapiM8.Lib.Census

/-! The concurrency slots of an introspection client: a slot is free or held by one call, from its
acquisition to its release, however the call ends. -/
namespace FastapiM8

open ApiKeyIntrospectionClient

/-- A call that is suspended on the operation holds a slot. -/
def ApiKeyOp.inSlot : ApiKeyOp → Bool
  | .checkpoint | .authHeaders | .post _ => true
  | _ => false

/-- The operation is on the wire. -/
def ApiKeyOp.onWire : ApiKeyOp → Bool
  | .post _ => true
  | _ => false

/-- The signal comes to a call that holds a slot. -/
def Signal.inSlot : Signal → Bool
  | .entered | .abandoned _ | .credential _ | .failed _ | .replied _ => true
  | _ => false

variable {client : ApiKeyIntrospectionClient} {sdk : ApiKeySdk} {apiKey : String}
  {w w' : IntrospectPool} {l : IntrospectAct} {s : ApiKeyState}
  {r : Prog ApiKeyOp ApiKeyAns (Except PyExc (Option ApiKeyPrincipal)) × ApiKeyState}

theorem inSlot_signal {o : ApiKeyOp} (ho : Awaited apiKey o) (a : ApiKeyAns o) :
    (client.signal o a).inSlot = o.inSlot := by
  cases o with
  | semaphoreAcquire timeout =>
    change Except PyExc Unit at a
    cases a <;> rfl
  | checkpoint =>
    change Except PyExc Unit at a
    cases a <;> rfl
  | authHeaders =>
    change Except PyExc Headers at a
    cases a <;> rfl
  | authInvalidate => rfl
  | post request =>
    change Except PyExc StreamedResponse at a
    simp only [signal]
    cases client.collect a <;> rfl
  | _ => exact ho.elim

theorem weight_some (o : ApiKeyOp) :
    Pool.weight ApiKeyOp.inSlot (some o) = if o.inSlot then 1 else 0 := rfl

@[simp] theorem record_slots (s : ApiKeyState) (report : Option Report) :
    (s.record report).slots = s.slots := by
  rcases report with - | - | - <;> rfl

/-- A segment leaves its slot exactly when it no longer holds it. -/
theorem slots_of_follows {signal : Signal} (hgranted : signal ≠ .granted)
    (h : client.Follows sdk apiKey s signal r) :
    r.2.slots + Pool.weight ApiKeyOp.inSlot r.1.awaits =
      s.slots + if signal.inSlot then 1 else 0 := by
  cases h with
  | granted k => contradiction
  | answered reply h =>
    rw [record_slots]
    rfl
  | _ => rfl

theorem not_granted_of_decode {o : ApiKeyOp} {answer : ApiKeyAnswer} {a : ApiKeyAns o}
    (ha : o.decode answer = some a) : client.signal o a ≠ .granted := by
  intro hgranted
  cases o with
  | semaphoreAcquire timeout =>
    cases answer with
    | raises exc =>
      obtain rfl := Option.some.inj ha
      contradiction
    | _ => contradiction
  | checkpoint =>
    change Except PyExc Unit at a
    cases a <;> contradiction
  | authHeaders =>
    change Except PyExc Headers at a
    cases a <;> contradiction
  | post request =>
    change Except PyExc StreamedResponse at a
    simp only [signal] at hgranted
    cases hread : client.collect a <;> rw [hread] at hgranted <;> contradiction
  | _ => contradiction

/-- A call that starts takes a slot, waits for one, or is refused. -/
theorem slots_startIntrospect (apiKey : String) (s : ApiKeyState) :
    (client.startIntrospect sdk apiKey s).2.slots +
        Pool.weight ApiKeyOp.inSlot (client.startIntrospect sdk apiKey s).1.awaits = s.slots := by
  unfold startIntrospect
  split
  · split
    · unfold enter
      split
      next hfree =>
        have hpos : 0 < s.slots := hfree
        show s.slots - 1 + 1 = s.slots
        omega
      next => rfl
    · rfl
  · rfl

/-- The free slots and the calls that hold one make up the capacity. -/
def Conserved (client : ApiKeyIntrospectionClient) (w : IntrospectPool) : Prop :=
  ∃ n, w.Counts ApiKeyOp.inSlot n ∧ w.shared.slots + n = client.tuning.maxConcurrency

theorem conserved_park (h : Conserved client w) (id : ℕ) (apiKey : String)
    (hr : r.2.slots + Pool.weight ApiKeyOp.inSlot r.1.awaits =
      w.shared.slots + Pool.weight ApiKeyOp.inSlot (w.awaits id)) :
    Conserved client (w.park id apiKey r) := by
  obtain ⟨n, hcounts, hn⟩ := h
  obtain ⟨n', hcounts', hn'⟩ := hcounts.park id apiKey r
  refine ⟨n', hcounts', ?_⟩
  rw [Pool.park_shared]
  omega

/-- Every step conserves the slots. -/
theorem conserved_step (hw : (client.scheduler sdk).Guaranteed (client.IntrospectSegment sdk) w)
    (hc : Conserved client w) (h : (client.scheduler sdk).step w l = some w') :
    Conserved client w' := by
  cases l with
  | spawn id apiKey =>
    obtain ⟨hnew, rfl⟩ := introspect_spawn_iff.mp h
    apply conserved_park hc
    rw [slots_startIntrospect, Pool.awaits, hnew]
    rfl
  | resume id answer =>
    obtain ⟨apiKey, o, k, a, ht, ha, rfl⟩ := Scheduler.step_resume_iff.mp h
    obtain ⟨hawaited, hfollows⟩ := hw.segment ht a w.shared
    apply conserved_park hc
    rw [slots_of_follows (not_granted_of_decode ha) hfollows, inSlot_signal hawaited,
      Pool.awaits_of_tasks ht, Prog.awaits_call, weight_some]
  | wake id =>
    obtain ⟨apiKey, o, k, a, s, ht, ha, rfl⟩ := Scheduler.step_wake_iff.mp h
    obtain ⟨hawaited, hfollows⟩ := hw.segment ht a s
    obtain ⟨hgranted, rfl⟩ := exec_of_awaited client hawaited ha
    have hfree : 0 < w.shared.slots ∧ o.inSlot = false := by
      cases o with
      | semaphoreAcquire timeout =>
        refine ⟨?_, rfl⟩
        by_contra hfull
        simp [scheduler, ApiKeyOp.exec, hfull] at ha
      | _ => first | exact hawaited.elim | contradiction
    apply conserved_park hc
    rw [hgranted] at hfollows
    rw [Pool.awaits_of_tasks ht, Prog.awaits_call, weight_some, hfree.2]
    generalize (k a).settle (client.scheduler sdk).exec w.shared.take = r at hfollows
    cases hfollows with
    | granted k' =>
      show w.shared.slots - 1 + 1 = w.shared.slots + 0
      omega
  | env seconds =>
    obtain ⟨s, hs, rfl⟩ := Scheduler.step_env_iff.mp h
    obtain ⟨-, hs⟩ : 0 ≤ seconds ∧ { w.shared with now := w.shared.now + seconds } = s := by
      simpa [scheduler, ApiKeyState.advance] using hs
    obtain ⟨n, hcounts, hn⟩ := hc
    exact ⟨n, hcounts, by rw [← hs]; exact hn⟩

theorem conserved_of_run {now : ℚ} {past : List (IntrospectPool × IntrospectAct)}
    (run : Run (client.scheduler sdk).step (client.start now) past w) : Conserved client w := by
  induction run with
  | start => exact ⟨0, Pool.counts_idle _ _, Nat.add_zero _⟩
  | next run hstep ih => exact conserved_step (introspects_guaranteed run) ih hstep

/-- A call that is shed had no slot, and returns none. -/
theorem slots_of_shed (hw : (client.scheduler sdk).Guaranteed (client.IntrospectSegment sdk) w)
    {id : ℕ} {timeout : ℚ} {exc : PyExc} (hwaits : w.awaits id = some (.semaphoreAcquire timeout))
    (h : (client.scheduler sdk).step w (.resume id (.raises exc)) = some w') :
    w'.shared.slots = w.shared.slots ∧ ¬ w'.Pending id := by
  obtain ⟨apiKey, o, k, a, ht, ha, rfl⟩ := Scheduler.step_resume_iff.mp h
  rw [Pool.awaits_of_tasks ht, Prog.awaits_call, Option.some.injEq] at hwaits
  subst hwaits
  obtain rfl := Option.some.inj ha
  obtain ⟨-, hfollows⟩ := hw.segment ht (Except.error exc) w.shared
  have hshed : client.signal (.semaphoreAcquire timeout) (Except.error exc) = .shed exc := rfl
  rw [hshed] at hfollows
  rw [Pool.park_shared, Pool.pending_iff, Pool.awaits_park_self]
  generalize (k (Except.error exc)).settle (client.scheduler sdk).exec w.shared = r at hfollows
  cases hfollows with
  | shed exc => exact ⟨rfl, by simp⟩

/-- However the calls of a client interleave and end: the free slots and the calls that hold one
make up the capacity, so no more calls than that are on the wire; a call that is shed returns
nothing, and all slots are free once all calls have ended. -/
theorem slots_conserved {now : ℚ} {past : List (IntrospectPool × IntrospectAct)}
    (run : Run (client.scheduler sdk).step (client.start now) past w) :
    {id | w.SuspendedOn ApiKeyOp.inSlot id}.Finite ∧
      w.shared.slots + {id | w.SuspendedOn ApiKeyOp.inSlot id}.ncard =
        client.tuning.maxConcurrency ∧
      {id | w.SuspendedOn ApiKeyOp.onWire id}.ncard ≤ client.tuning.maxConcurrency ∧
      (∀ id timeout exc w', w.awaits id = some (.semaphoreAcquire timeout) →
        (client.scheduler sdk).step w (.resume id (.raises exc)) = some w' →
        w'.shared.slots = w.shared.slots ∧ ¬ w'.Pending id) ∧
      ((∀ id, ¬ w.Pending id) → w.shared.slots = client.tuning.maxConcurrency) := by
  obtain ⟨n, hcounts, hn⟩ := conserved_of_run run
  obtain ⟨hfinite, hncard⟩ := hcounts.ncard
  have hwire : {id | w.SuspendedOn ApiKeyOp.onWire id} ⊆
      {id | w.SuspendedOn ApiKeyOp.inSlot id} := by
    intro id hid
    obtain ⟨o, ho, hpost⟩ := (Option.any_eq_true _ _).mp hid
    refine (Option.any_eq_true _ _).mpr ⟨o, ho, ?_⟩
    cases o <;> first | rfl | contradiction
  refine ⟨hfinite, by rw [hncard]; exact hn, ?_, ?_, ?_⟩
  · have hle := Set.ncard_le_ncard hwire hfinite
    omega
  · intro id timeout exc w' hwaits hstep
    exact slots_of_shed (introspects_guaranteed run) hwaits hstep
  · intro hended
    have hnone : {id | w.SuspendedOn ApiKeyOp.inSlot id} = ∅ := by
      ext id
      simp only [Set.mem_ofPred_eq, Set.mem_empty_iff_false, iff_false]
      intro hin
      obtain ⟨o, ho, -⟩ := (Option.any_eq_true _ _).mp hin
      exact hended id (Pool.pending_iff.mpr (by rw [ho]; rfl))
    rw [hnone, Set.ncard_empty] at hncard
    omega

/-- The call waits for a slot. -/
def waitsForSlot (w : IntrospectPool) (id : ℕ) : Bool :=
  match w.awaits id with
  | some (.semaphoreAcquire _) => true
  | _ => false

/-- Of three calls of a client with one slot, one has it, one waits and one is shed. -/
theorem slots_conserved_one : ∃ past w w',
    Run ((strictClient 1).scheduler apiKeyV1Sdk).step ((strictClient 1).start 0) past w ∧
      ((strictClient 1).scheduler apiKeyV1Sdk).step w (.resume 2 (.raises .timeoutError)) =
        some w' ∧
      waitsForSlot w 1 = true ∧
      w.shared.slots + {id | w.SuspendedOn ApiKeyOp.inSlot id}.ncard = 1 ∧
      w'.shared.slots = w.shared.slots ∧ ¬ w'.Pending 2 := by
  have heval : (([0, 1, 2].map fun id => .spawn id "key").foldlM
      ((strictClient 1).scheduler apiKeyV1Sdk).step ((strictClient 1).start 0)).any (fun w =>
        (waitsForSlot w 1 && waitsForSlot w 2) &&
          (((strictClient 1).scheduler apiKeyV1Sdk).step w
            (.resume 2 (.raises .timeoutError))).any fun _ => true) = true := by decide +kernel
  obtain ⟨past, w, w', run, -, hwait, hstep, -⟩ := Run.exists_step heval
  obtain ⟨hwaits, hshed⟩ := Bool.and_eq_true_iff.mp hwait
  obtain ⟨-, hslots, -, hreturns, -⟩ := slots_conserved run
  unfold waitsForSlot at hshed
  split at hshed
  next timeout hawaits =>
    obtain ⟨hsame, hover⟩ := hreturns 2 timeout _ w' hawaits hstep
    exact ⟨past, w, w', run, hstep, hwaits, hslots, hsame, hover⟩
  next => contradiction

end FastapiM8
