import FastapiM8.ApiKey.Status

/-! The read loop of `_transmit` as a machine that takes one chunk a step: what its buffer holds
at each step, and what the caller gets at the end, however the body is cut into chunks. -/
namespace FastapiM8

open Prog

/-- The loop goes on with the payload that it has read, or was abandoned with it. -/
inductive ReadState where
  | reading (payload : Bytes)
  | abandoned (payload : Bytes)
  deriving DecidableEq

namespace ReadState

def buffer : ReadState → Bytes
  | reading payload => payload
  | abandoned payload => payload

/-- Extend the payload by a chunk, and compare it with the cap. -/
def step (maxResponseBytes : ℕ) : ReadState → Bytes → Option ReadState
  | reading payload, chunk =>
    if maxResponseBytes < (payload ++ chunk).length then some (abandoned (payload ++ chunk))
    else some (reading (payload ++ chunk))
  | abandoned _, _ => none

/-- What the loop that stops here gives its caller. -/
def outcome : ReadState → Except PyExc Bytes
  | reading payload => .ok payload
  | abandoned _ => .error (.apiKeyIntrospectionError "response_too_large")

/-- What `readChunks` makes of the chunks that are still to come. -/
def resume (maxResponseBytes : ℕ) (later : List Bytes) : ReadState → Except PyExc Bytes
  | reading payload => StreamedResponse.readChunks maxResponseBytes payload later
  | abandoned payload => (abandoned payload).outcome

/-- The payload of a loop that goes on fits, that of an abandoned one does not. -/
def Within (maxResponseBytes : ℕ) : ReadState → Prop
  | reading payload => payload.length ≤ maxResponseBytes
  | abandoned payload => maxResponseBytes < payload.length

variable {maxResponseBytes : ℕ} {s s' : ReadState} {chunk : Bytes}
  {past : List (ReadState × Bytes)}

theorem step_cases (h : s.step maxResponseBytes chunk = some s') :
    ∃ payload, s = reading payload ∧
      (maxResponseBytes < (payload ++ chunk).length ∧ s' = abandoned (payload ++ chunk) ∨
        (payload ++ chunk).length ≤ maxResponseBytes ∧ s' = reading (payload ++ chunk)) := by
  cases s with
  | abandoned payload => contradiction
  | reading payload =>
    refine ⟨payload, rfl, ?_⟩
    rw [step] at h
    split at h
    next hlarge => exact .inl ⟨hlarge, (Option.some.inj h).symm⟩
    next hfits => exact .inr ⟨not_lt.mp hfits, (Option.some.inj h).symm⟩

theorem step_buffer (h : s.step maxResponseBytes chunk = some s') :
    s'.buffer = s.buffer ++ chunk := by
  obtain ⟨payload, rfl, ⟨-, rfl⟩ | ⟨-, rfl⟩⟩ := step_cases h
  · rfl
  · rfl

theorem step_within (h : s.step maxResponseBytes chunk = some s') :
    s'.Within maxResponseBytes := by
  obtain ⟨payload, rfl, ⟨hlarge, rfl⟩ | ⟨hfits, rfl⟩⟩ := step_cases h
  · exact hlarge
  · exact hfits

/-- A chunk is read only when the payload before it fits, so the cap is exceeded by less than
the chunk. -/
theorem step_buffer_le (hs : s.Within maxResponseBytes)
    (h : s.step maxResponseBytes chunk = some s') :
    s'.buffer.length ≤ maxResponseBytes + chunk.length := by
  have hbuffer := step_buffer h
  obtain ⟨payload, rfl, -⟩ := step_cases h
  have hfits : payload.length ≤ maxResponseBytes := hs
  rw [hbuffer, List.length_append]
  show payload.length + chunk.length ≤ maxResponseBytes + chunk.length
  omega

theorem resume_step (h : s.step maxResponseBytes chunk = some s') (later : List Bytes) :
    s.resume maxResponseBytes (chunk :: later) = s'.resume maxResponseBytes later := by
  obtain ⟨payload, rfl, ⟨hlarge, rfl⟩ | ⟨hfits, rfl⟩⟩ := step_cases h
  · show StreamedResponse.readChunks maxResponseBytes payload (chunk :: later) = _
    rw [StreamedResponse.readChunks, if_pos hlarge]
    rfl
  · show StreamedResponse.readChunks maxResponseBytes payload (chunk :: later) = _
    rw [StreamedResponse.readChunks, if_neg hfits.not_gt]
    rfl

theorem within_of_run (run : Run (step maxResponseBytes) (reading []) past s) :
    s.Within maxResponseBytes :=
  run.invariant (fun _ _ _ _ h => step_within h) (Nat.zero_le _)

/-- The buffer holds the chunks that have been read. -/
theorem buffer_of_run (run : Run (step maxResponseBytes) (reading []) past s) :
    s.buffer = (past.map Prod.snd).reverse.flatten := by
  induction run with
  | start => rfl
  | next run h ih => simp [step_buffer h, ih]

/-- At every point of the loop the chunks read and those to come make up what `readChunks`
works on. -/
theorem resume_of_run (run : Run (step maxResponseBytes) (reading []) past s)
    (later : List Bytes) : StreamedResponse.readChunks maxResponseBytes []
        ((past.map Prod.snd).reverse ++ later) = s.resume maxResponseBytes later := by
  induction run generalizing later with
  | start => rfl
  | @next past s chunk s' run h ih =>
    rw [List.map_cons, List.reverse_cons, List.append_assoc, ← resume_step h later]
    exact ih (chunk :: later)

/-- The loop takes the chunks one by one until it has read all of them or is abandoned. -/
theorem exists_run (maxResponseBytes : ℕ) (chunks : List Bytes) :
    ∃ done later past s, chunks = done ++ later ∧
      Run (step maxResponseBytes) (reading []) past s ∧ past.map Prod.snd = done.reverse ∧
      (later = [] ∨ ∃ payload, s = abandoned payload) := by
  induction chunks using List.reverseRecOn with
  | nil => exact ⟨[], [], [], reading [], rfl, .start, rfl, .inl rfl⟩
  | append_singleton chunks chunk ih =>
    obtain ⟨done, later, past, s, rfl, run, hpast, hend⟩ := ih
    cases s with
    | abandoned payload =>
      exact ⟨done, later ++ [chunk], past, _, by simp, run, hpast, .inr ⟨payload, rfl⟩⟩
    | reading payload =>
      obtain rfl : later = [] := by
        rcases hend with hnil | ⟨payload', hs⟩
        · exact hnil
        · contradiction
      obtain ⟨s', hstep⟩ : ∃ s', (reading payload).step maxResponseBytes chunk = some s' := by
        rw [step]
        split
        · exact ⟨_, rfl⟩
        · exact ⟨_, rfl⟩
      have hlabels : (((reading payload, chunk) :: past).map Prod.snd) =
          (done ++ [] ++ [chunk]).reverse := by
        simp [hpast]
      exact ⟨_, [], _, s', (List.append_nil _).symm, run.next hstep, hlabels, .inl rfl⟩

/-- The result of `readChunks` is that of the state in which its loop stops. -/
theorem readChunks_run (maxResponseBytes : ℕ) (chunks : List Bytes) :
    ∃ done later past s, chunks = done ++ later ∧
      Run (step maxResponseBytes) (reading []) past s ∧ past.map Prod.snd = done.reverse ∧
      (later = [] ∨ ∃ payload, s = abandoned payload) ∧
      StreamedResponse.readChunks maxResponseBytes [] chunks = s.outcome := by
  obtain ⟨done, later, past, s, rfl, run, hpast, hend⟩ := exists_run maxResponseBytes chunks
  refine ⟨done, later, past, s, rfl, run, hpast, hend, ?_⟩
  have hread := resume_of_run run later
  rw [hpast, List.reverse_reverse] at hread
  rw [hread]
  rcases hend with rfl | ⟨payload, rfl⟩
  · cases s with
    | reading payload => rfl
    | abandoned payload => rfl
  · rfl

/-- A body of exactly the cap is returned, one byte more is not. -/
example : StreamedResponse.readChunks 2 [] [[1], [], [2]] = .ok [1, 2] ∧
    StreamedResponse.readChunks 2 [] [[1], [], [2], [], [3]] =
      .error (.apiKeyIntrospectionError "response_too_large") := ⟨rfl, rfl⟩

end ReadState

namespace ApiKeyIntrospectionClient

/-- A transmission whose headers were supplied and whose request was answered. -/
def replied (client : ApiKeyIntrospectionClient) (apiKey : String) (headers : Headers)
    (response : StreamedResponse) : List (Event ApiKeyOp ApiKeyAns) :=
  [⟨.authHeaders, Except.ok headers⟩,
    ⟨.post ⟨client.url, apiKey, client.tuning.schemaVersion, headers⟩, Except.ok response⟩]

variable (client : ApiKeyIntrospectionClient) (apiKey : String) (headers : Headers)

theorem trace_replied_iff (response : StreamedResponse)
    (outcome : Except PyExc IntrospectionReply) :
    (client.transmit apiKey).run.Trace (client.replied apiKey headers response) (.ret outcome) ↔
      response.read client.tuning.maxResponseBytes = outcome := by
  refine trace_cons_iff.trans (trace_cons_iff.trans (trace_ret_iff.trans ?_))
  exact and_iff_right rfl

/-- A reply that is answered in chunks is returned whole if all of them together fit the cap, and
is refused otherwise; other chunks of the same bytes change nothing, also when reading breaks
off or closing fails; the loop that reads the chunks never holds more than the cap and the
chunk that it has just read. -/
theorem response_cap (statusCode : ℕ) (retryAfter : Option String) (chunks : List Bytes) :
    (∀ outcome, (client.transmit apiKey).run.Trace
        (client.replied apiKey headers ⟨statusCode, retryAfter, chunks, none, none⟩)
        (.ret outcome) ↔
      outcome = if (chunks.map List.length).sum ≤ client.tuning.maxResponseBytes then
          .ok ⟨statusCode, chunks.flatten, retryAfter⟩
        else .error (.apiKeyIntrospectionError "response_too_large")) ∧
    (∀ chunks' broken closing outcome, chunks'.flatten = chunks.flatten →
      ((client.transmit apiKey).run.Trace
          (client.replied apiKey headers ⟨statusCode, retryAfter, chunks', broken, closing⟩)
          (.ret outcome) ↔
        (client.transmit apiKey).run.Trace
          (client.replied apiKey headers ⟨statusCode, retryAfter, chunks, broken, closing⟩)
          (.ret outcome))) ∧
    (∃ done later past s, chunks = done ++ later ∧
      Run (ReadState.step client.tuning.maxResponseBytes) (.reading []) past s ∧
      past.map Prod.snd = done.reverse ∧ (later = [] ∨ ∃ payload, s = .abandoned payload) ∧
      StreamedResponse.readChunks client.tuning.maxResponseBytes [] chunks = s.outcome) ∧
    ∀ past s chunk s',
      Run (ReadState.step client.tuning.maxResponseBytes) (.reading []) past s →
      s.step client.tuning.maxResponseBytes chunk = some s' →
      s'.buffer = ((past.map Prod.snd).reverse ++ [chunk]).flatten ∧
        s'.buffer.length ≤ client.tuning.maxResponseBytes + chunk.length := by
  refine ⟨?_, ?_, ReadState.readChunks_run _ chunks, ?_⟩
  · intro outcome
    have hwhole : StreamedResponse.Whole ⟨statusCode, retryAfter, chunks, none, none⟩ :=
      ⟨rfl, rfl⟩
    rw [trace_replied_iff, hwhole.read, ← List.length_flatten]
    exact eq_comm
  · intro chunks' broken closing outcome hflat
    rw [trace_replied_iff, trace_replied_iff, StreamedResponse.read, StreamedResponse.read,
      StreamedResponse.readChunks_eq chunks' (Nat.zero_le _),
      StreamedResponse.readChunks_eq chunks (Nat.zero_le _), hflat]
  · intro past s chunk s' run h
    refine ⟨?_, ReadState.step_buffer_le (ReadState.within_of_run run) h⟩
    rw [ReadState.step_buffer h, ReadState.buffer_of_run run, List.flatten_append,
      List.flatten_singleton]

end ApiKeyIntrospectionClient

end FastapiM8
