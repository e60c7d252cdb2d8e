import FastapiM8.ApiKey.Segments
import FastapiM8.Lib.Monitor

/-! How often one `introspect` call transmits its key: a monitor keeps the number of POSTs that
the call may still start, which is none after a POST that can have reached the issuer. -/
namespace FastapiM8

open Prog Monitor

/-- The operation transmits the key. -/
def ApiKeyOp.isPost : ApiKeyOp → Bool
  | .post _ => true
  | _ => false

namespace ApiKeyIntrospectionClient

variable (client : ApiKeyIntrospectionClient) (sdk : ApiKeySdk)

/-- The POST failed to connect. -/
def unsent (r : Except PyExc StreamedResponse) : Bool :=
  match client.collect r with
  | .ok _ => false
  | .error exc => exc.isConnectFailure

/-- A POST that failed to connect leaves one less to start, any other one leaves none. -/
def postBudget : Monitor ApiKeyOp ApiKeyAns ℕ where
  admits budget o := o.isPost = true → 0 < budget
  next budget
    | .post _, r => if client.unsent r then budget - 1 else 0
    | _, _ => budget

/-- The POSTs of a trace and the one that the rest of the program is suspended on. -/
def postsStarted {α : Type} (tr : List (Event ApiKeyOp ApiKeyAns))
    (rest : Prog ApiKeyOp ApiKeyAns α) : ℕ :=
  tr.countP (fun e => e.1.isPost) + if rest.awaits.any ApiKeyOp.isPost then 1 else 0

/-- Whether the event is a POST that has reached the issuer. -/
def charges (reached : Except PyExc StreamedResponse → Bool) : Event ApiKeyOp ApiKeyAns → Bool
  | ⟨.post _, r⟩ => reached r
  | _ => false

/-- The POSTs that can have reached the issuer; one that is not answered yet can. -/
def postsReached {α : Type} (reached : Except PyExc StreamedResponse → Bool)
    (tr : List (Event ApiKeyOp ApiKeyAns)) (rest : Prog ApiKeyOp ApiKeyAns α) : ℕ :=
  tr.countP (charges reached) + if rest.awaits.any ApiKeyOp.isPost then 1 else 0

variable {client sdk}

theorem postBudget_next_of_not_post {budget : ℕ} {o : ApiKeyOp} (h : o.isPost = false)
    (a : ApiKeyAns o) : client.postBudget.next budget o a = budget := by
  cases o <;> first | rfl | contradiction

theorem admits_of_not_post {budget : ℕ} {o : ApiKeyOp} (h : o.isPost = false) :
    client.postBudget.admits budget o := by
  intro hpost
  simp [h] at hpost

/-- An operation that is no POST leaves the budget as it is. -/
theorem watches_call {α : Type} {Q : ℕ → α → Prop} {budget : ℕ} {o : ApiKeyOp}
    {k : ApiKeyAns o → Prog ApiKeyOp ApiKeyAns α} (ho : o.isPost = false)
    (hk : ∀ a, client.postBudget.Watches Q budget (k a)) :
    client.postBudget.Watches Q budget (.call o k) := by
  refine ⟨admits_of_not_post ho, fun a _ => ?_⟩
  rw [postBudget_next_of_not_post ho]
  exact hk a

theorem watches_interpret (budget : ℕ) (reply : IntrospectionReply) :
    client.postBudget.Watches (fun _ _ => True) budget (client.interpret sdk reply).run := by
  by_cases hrejects : reply.Rejects
  · rw [run_interpret_of_rejects hrejects]
    exact watches_call rfl fun _ => trivial
  · rw [run_interpret_of_accepts hrejects]
    rcases replyReport sdk reply with - | - | -
    · trivial
    · exact watches_call rfl fun _ => trivial
    · exact watches_call rfl fun _ => trivial

/-- Nothing that happens after the transmissions of a call transmits again. -/
theorem watches_leave (budget : ℕ) (outcome : Except PyExc IntrospectionReply) :
    client.postBudget.Watches (fun _ _ => True) budget (client.leave sdk outcome) := by
  refine watches_call rfl fun _ => ?_
  cases outcome with
  | error exc => trivial
  | ok reply => exact watches_interpret budget reply

theorem watches_giveUp (budget : ℕ) (exc : PyExc) :
    client.postBudget.Watches (fun _ _ => True) budget (giveUp (client.leave sdk) exc) := by
  unfold giveUp
  split
  · exact watches_call rfl fun _ => watches_leave budget _
  · exact watches_leave budget _

theorem watches_afterRetry (budget : ℕ) (outcome : Except PyExc IntrospectionReply) :
    client.postBudget.Watches (fun _ _ => True) budget (afterRetry (client.leave sdk) outcome) := by
  cases outcome with
  | ok reply => exact watches_leave budget (.ok reply)
  | error exc => exact watches_giveUp budget exc

/-- A transmission spends the budget of one POST. -/
theorem watches_transmitThen {α : Type} {apiKey : String} {Q : ℕ → α → Prop} {budget : ℕ}
    {next : Except PyExc IntrospectionReply → Prog ApiKeyOp ApiKeyAns α} (hbudget : 0 < budget)
    (hfailed : ∀ exc, client.postBudget.Watches Q budget (next (.error exc)))
    (hposted : ∀ r, client.postBudget.Watches Q (if client.unsent r then budget - 1 else 0)
      (next (client.collect r))) :
    client.postBudget.Watches Q budget (client.transmitThen apiKey next) := by
  refine ⟨admits_of_not_post rfl, fun headers _ => ?_⟩
  change Except PyExc Headers at headers
  cases headers with
  | error exc => exact hfailed exc
  | ok headers => exact ⟨fun _ => hbudget, fun r _ => hposted r⟩

/-- Only a failure to connect makes a call transmit again. -/
theorem watches_afterTransmit (apiKey : String) {budget : ℕ}
    {outcome : Except PyExc IntrospectionReply}
    (h : ∀ exc, outcome = .error exc → exc.isConnectFailure = true → 0 < budget) :
    client.postBudget.Watches (fun _ _ => True) budget
      (client.afterTransmit apiKey (client.leave sdk) outcome) := by
  cases outcome with
  | ok reply => exact watches_leave budget (.ok reply)
  | error exc =>
    cases hexc : exc.isConnectFailure with
    | false =>
      rw [afterTransmit_of_sent hexc]
      exact watches_giveUp budget exc
    | true =>
      rw [afterTransmit_of_connect hexc]
      exact watches_transmitThen (h exc rfl hexc) (fun exc => watches_giveUp budget exc)
        fun r => watches_afterRetry _ _

/-- A call may start two POSTs. -/
theorem watches_introspect (apiKey : String) :
    client.postBudget.Watches (fun _ _ => True) 2 (client.introspect sdk apiKey).run := by
  have hsend : client.postBudget.Watches (fun _ _ => True) 2
      (client.transmitThen apiKey (client.afterTransmit apiKey (client.leave sdk))) := by
    refine watches_transmitThen (by decide) (fun exc => ?_) fun r => ?_
    · exact watches_afterTransmit apiKey fun _ _ _ => by decide
    · refine watches_afterTransmit apiKey fun exc hexc hconnect => ?_
      have hunsent : client.unsent r = true := by
        simp [unsent, hexc, hconnect]
      simp [hunsent]
  rw [run_introspect]
  split
  · refine watches_call rfl fun allowed : Bool => ?_
    cases allowed with
    | false => trivial
    | true =>
      refine watches_call rfl fun acquired : Except PyExc Unit => ?_
      match acquired with
      | .error exc => trivial
      | .ok () =>
        refine watches_call rfl fun entered : Except PyExc Unit => ?_
        match entered with
        | .error exc => exact watches_call rfl fun _ => trivial
        | .ok () => exact hsend
  · trivial

theorem postBudget_next_of_post (client : ApiKeyIntrospectionClient) (budget : ℕ) {o : ApiKeyOp}
    (h : o.isPost = true)
    (a : ApiKeyAns o) : client.postBudget.next budget o a ≤ budget - 1 := by
  cases o with
  | post request =>
    simp only [postBudget]
    split <;> omega
  | _ => contradiction

/-- The POSTs of an accepted trace and those it leaves make up no more than the budget. -/
theorem countP_isPost_le {budget : ℕ} {tr : List (Event ApiKeyOp ApiKeyAns)}
    (h : client.postBudget.Accepts budget tr) :
    tr.countP (fun e => e.1.isPost) + client.postBudget.after budget tr ≤ budget := by
  induction tr generalizing budget with
  | nil => simp
  | cons e tr ih =>
    obtain ⟨o, a⟩ := e
    obtain ⟨hadmits, haccepts⟩ := h
    have hrest := ih haccepts
    rw [after_cons, List.countP_cons]
    cases ho : o.isPost with
    | false =>
      rw [postBudget_next_of_not_post ho] at hrest ⊢
      simpa [ho] using hrest
    | true =>
      have hpos : 0 < budget := hadmits ho
      have hspent := client.postBudget_next_of_post budget ho a
      dsimp only at hrest
      simp only [↓reduceIte]
      omega

theorem isPost_of_charges {reached : Except PyExc StreamedResponse → Bool}
    {e : Event ApiKeyOp ApiKeyAns} (h : charges reached e = true) : e.1.isPost = true := by
  unfold charges at h
  split at h
  · rfl
  · contradiction

/-- As soon as a POST can have reached the issuer, no other one is started. -/
theorem countP_charges_le {reached : Except PyExc StreamedResponse → Bool}
    (hconnect : ∀ r, client.unsent r = true → reached r = false) {budget : ℕ}
    {tr : List (Event ApiKeyOp ApiKeyAns)} (h : client.postBudget.Accepts budget tr) :
    tr.countP (charges reached) + min 1 (client.postBudget.after budget tr) ≤ 1 := by
  induction tr generalizing budget with
  | nil => simp
  | cons e tr ih =>
    obtain ⟨hadmits, haccepts⟩ := h
    have hrest := ih haccepts
    rw [after_cons, List.countP_cons]
    cases he : charges reached e with
    | false => simpa using hrest
    | true =>
      have hzero : client.postBudget.next budget e.1 e.2 = 0 := by
        obtain ⟨o, a⟩ := e
        cases o with
        | post request =>
          have hreached : reached a = true := he
          have hsent : client.unsent a = false := by
            by_contra hunsent
            simp [hconnect a (by simpa using hunsent)] at hreached
          simp [postBudget, hsent]
        | _ => contradiction
      have hposts := countP_isPost_le haccepts
      have hle : tr.countP (charges reached) ≤ tr.countP (fun e => e.1.isPost) :=
        List.countP_mono_left fun e _ => isPost_of_charges
      simp only [↓reduceIte]
      omega

/-- The rest of a watched call starts a POST only within the budget that its trace leaves. -/
theorem pending_le_after {budget : ℕ} {α : Type} {Q : ℕ → α → Prop}
    {rest : Prog ApiKeyOp ApiKeyAns α} (h : client.postBudget.Watches Q budget rest) :
    (if rest.awaits.any ApiKeyOp.isPost then 1 else 0) ≤ min 1 budget := by
  split
  next hpost =>
    obtain ⟨o, hawaits, ho⟩ := (Option.any_eq_true _ _).mp hpost
    have hpos : 0 < budget := h.admits hawaits ho
    omega
  next => exact Nat.zero_le _

/-- A reply, whatever its status and its body, has been sent for, unless reading or closing it
raises a failure to connect. -/
theorem unsent_of_response {response : StreamedResponse}
    (hbroken : ∀ exc, response.broken = some exc → exc.isConnectFailure = false)
    (hclosing : ∀ exc, response.closing = some exc → exc.isConnectFailure = false) :
    client.unsent (.ok response) = false := by
  have hcollect : client.collect (.ok response) =
      response.read client.tuning.maxResponseBytes := rfl
  rw [unsent, hcollect, StreamedResponse.read]
  cases hclose : response.closing with
  | some exc => exact hclosing exc hclose
  | none =>
    rw [StreamedResponse.readChunks_eq _ (Nat.zero_le _)]
    by_cases hfits : ([] ++ response.chunks.flatten).length ≤ client.tuning.maxResponseBytes
    · rw [if_pos hfits]
      cases hbreak : response.broken with
      | some exc => exact hbroken exc hbreak
      | none => rfl
    · rw [if_neg hfits]
      rfl

/-- An `introspect` call starts at most two POSTs, and at most one of them can have reached the
issuer. A POST that has not failed to connect is the last one, and a POST that was answered has
not failed to connect. -/
theorem charges_at_most_once (client : ApiKeyIntrospectionClient) (sdk : ApiKeySdk)
    (reached : Except PyExc StreamedResponse → Bool)
    (hconnect : ∀ r, client.unsent r = true → reached r = false) (apiKey : String)
    (tr : List (Event ApiKeyOp ApiKeyAns))
    (rest : Prog ApiKeyOp ApiKeyAns (Except PyExc (Option ApiKeyPrincipal)))
    (htr : (client.introspect sdk apiKey).run.Trace tr rest) :
    postsStarted tr rest ≤ 2 ∧ postsReached reached tr rest ≤ 1 ∧
    (∀ before request (r : Except PyExc StreamedResponse) later,
      tr = before ++ ⟨.post request, r⟩ :: later → client.unsent r = false →
      postsStarted later rest = 0) ∧
    ∀ response : StreamedResponse,
      (∀ exc, response.broken = some exc → exc.isConnectFailure = false) →
      (∀ exc, response.closing = some exc → exc.isConnectFailure = false) →
      client.unsent (.ok response) = false := by
  obtain ⟨haccepts, hrest⟩ := (watches_introspect apiKey).sound htr fun _ _ => trivial
  have hpending := pending_le_after hrest
  refine ⟨?_, ?_, ?_, fun response => unsent_of_response⟩
  · have hstarted := countP_isPost_le haccepts
    unfold postsStarted
    omega
  · have hcharged := countP_charges_le hconnect haccepts
    unfold postsReached
    omega
  · rintro before request r later rfl hsent
    obtain ⟨-, -, hlater⟩ := (accepts_append before _).mp haccepts
    rw [after_append, after_cons] at hpending
    have hzero : ∀ budget, client.postBudget.next budget (.post request) r = 0 := by
      intro budget
      simp [postBudget, hsent]
    dsimp only at hlater hpending
    rw [hzero] at hlater hpending
    have hnone := countP_isPost_le hlater
    unfold postsStarted
    omega

/-- A call whose first POST fails to connect, and whose second one times out. -/
def retriedTrace : List (Event ApiKeyOp ApiKeyAns) :=
  let headers : Headers := [(internalTokenHeader, .text "secret")]
  let request : ApiKeyOp := .post ((strictClient 1).requestFor "key" headers)
  [⟨.allowsCall, true⟩, ⟨.semaphoreAcquire 2, Except.ok ()⟩, ⟨.checkpoint, Except.ok ()⟩,
    ⟨.authHeaders, Except.ok headers⟩, ⟨request, Except.error (.transportError .connectTimeout)⟩,
    ⟨.authHeaders, Except.ok headers⟩, ⟨request, Except.error (.transportError .readTimeout)⟩]

theorem charges_at_most_once_retried :
    ∃ rest, ((strictClient 1).introspect apiKeyV1Sdk "key").run.Trace retriedTrace rest ∧
      postsStarted retriedTrace rest = 2 ∧
      postsReached (fun r => !(strictClient 1).unsent r) retriedTrace rest ≤ 1 := by
  have htr : ∃ rest, ((strictClient 1).introspect apiKeyV1Sdk "key").run.Trace retriedTrace rest ∧
      rest.awaits = some .recordFailure := by
    refine ⟨_, .perform _ (.perform _ (.perform _ (.perform _ (.perform _ (.perform _ (.perform _
      (.stop _))))))), rfl⟩
  obtain ⟨rest, htr, hawaits⟩ := htr
  have hcharges := charges_at_most_once (strictClient 1) apiKeyV1Sdk
    (fun r => !(strictClient 1).unsent r) (by simp) "key" retriedTrace rest htr
  refine ⟨rest, htr, ?_, hcharges.2.1⟩
  simp [postsStarted, hawaits, retriedTrace, ApiKeyOp.isPost]

end ApiKeyIntrospectionClient
end FastapiM8
