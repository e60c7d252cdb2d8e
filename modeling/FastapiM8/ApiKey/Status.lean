import FastapiM8.ApiKey.Charge

/-! What a call makes of a reply that is not a 200: the exception it raises, what it tells the
breaker, and whether it drops its credential. -/
namespace FastapiM8

open Prog Monitor

/-- The reply arrived without a transport error. -/
def StreamedResponse.Whole (response : StreamedResponse) : Prop :=
  response.broken = none ∧ response.closing = none

/-- The body of the reply, whatever chunks it came in. -/
def StreamedResponse.payload (response : StreamedResponse) : Bytes := response.chunks.flatten

theorem StreamedResponse.Whole.read {response : StreamedResponse} (h : response.Whole)
    (maxResponseBytes : ℕ) : response.read maxResponseBytes =
      if response.payload.length ≤ maxResponseBytes then
        .ok ⟨response.statusCode, response.payload, response.retryAfter⟩
      else .error (.apiKeyIntrospectionError "response_too_large") := by
  rw [StreamedResponse.read, StreamedResponse.readChunks_eq _ (Nat.zero_le _), h.1, h.2,
    List.nil_append]
  by_cases hfits : response.payload.length ≤ maxResponseBytes
  · have hflat : response.chunks.flatten.length ≤ maxResponseBytes := hfits
    rw [if_pos hfits, if_pos hflat]
    rfl
  · have hflat : ¬ response.chunks.flatten.length ≤ maxResponseBytes := hfits
    rw [if_neg hfits, if_neg hflat]
    rfl

/-- What a trace has told the breaker. -/
def reports (tr : List (Event ApiKeyOp ApiKeyAns)) : List Report :=
  tr.filterMap fun
    | ⟨.recordSuccess, _⟩ => some .success
    | ⟨.recordFailure, _⟩ => some .failure
    | _ => none

/-- The outcomes of the provider's `invalidate` in a trace. -/
def drops (tr : List (Event ApiKeyOp ApiKeyAns)) : List (Except PyExc Bool) :=
  tr.filterMap fun
    | ⟨.authInvalidate, outcome⟩ => some outcome
    | _ => none

/-- The issuer has answered a POST of the trace with the reply. -/
def RepliedWith (tr : List (Event ApiKeyOp ApiKeyAns)) (response : StreamedResponse) : Prop :=
  ∃ request, (⟨.post request, Except.ok response⟩ : Event ApiKeyOp ApiKeyAns) ∈ tr

namespace ApiKeyIntrospectionClient

variable (client : ApiKeyIntrospectionClient) (sdk : ApiKeySdk)

/-- A reply that is not a 200 is classified by its status when its body fits, and is abandoned
when it does not. -/
def Classified (response : StreamedResponse) (tr : List (Event ApiKeyOp ApiKeyAns))
    (result : Except PyExc (Option ApiKeyPrincipal)) : Prop :=
  if response.payload.length ≤ client.tuning.maxResponseBytes then
    if response.statusCode = 429 then
      result = .error (.apiKeyQuotaExceededError response.retryAfter) ∧ reports tr = [] ∧
        drops tr = []
    else if response.statusCode = 401 ∨ response.statusCode = 403 then
      ∃ outcome : Except PyExc Bool, drops tr = [outcome] ∧ reports tr = [] ∧
        result = outcome.bind fun _ => .error (.apiKeyIntrospectionError "consumer_unauthorized")
    else reports tr = [.failure] ∧ drops tr = [] ∧
      ∃ reason, result = .error (.apiKeyIntrospectionError reason)
  else result = .error (.apiKeyIntrospectionError "response_too_large")

/-- Every whole reply of the trace that is not a 200 was classified. -/
def Classifies (tr : List (Event ApiKeyOp ApiKeyAns))
    (result : Except PyExc (Option ApiKeyPrincipal)) : Prop :=
  ∀ response, RepliedWith tr response → response.Whole → response.statusCode ≠ 200 →
    client.Classified response tr result

/-- The event is no report, no loss of a credential and no whole reply. -/
def Quiet : Event ApiKeyOp ApiKeyAns → Prop
  | ⟨.recordSuccess, _⟩ | ⟨.recordFailure, _⟩ | ⟨.authInvalidate, _⟩ => False
  | ⟨.post _, .ok response⟩ => ¬ response.Whole
  | _ => True

variable {client sdk}

theorem reports_of_quiet {tr : List (Event ApiKeyOp ApiKeyAns)} (h : ∀ e ∈ tr, Quiet e) :
    reports tr = [] := by
  rw [reports, List.filterMap_eq_nil_iff]
  rintro ⟨o, a⟩ he
  have hquiet := h _ he
  cases o <;> first | rfl | exact hquiet.elim

theorem drops_of_quiet {tr : List (Event ApiKeyOp ApiKeyAns)} (h : ∀ e ∈ tr, Quiet e) :
    drops tr = [] := by
  rw [drops, List.filterMap_eq_nil_iff]
  rintro ⟨o, a⟩ he
  have hquiet := h _ he
  cases o <;> first | rfl | exact hquiet.elim

theorem not_whole_of_quiet {tr : List (Event ApiKeyOp ApiKeyAns)} (h : ∀ e ∈ tr, Quiet e)
    {response : StreamedResponse} (hreplied : RepliedWith tr response) : ¬ response.Whole := by
  obtain ⟨request, hmem⟩ := hreplied
  exact h _ hmem

theorem repliedWith_append {tr : List (Event ApiKeyOp ApiKeyAns)} {e : Event ApiKeyOp ApiKeyAns}
    {response : StreamedResponse} (he : e.1.isPost = false) :
    RepliedWith (tr ++ [e]) response ↔ RepliedWith tr response := by
  apply exists_congr
  intro request
  rw [List.mem_append, List.mem_singleton]
  apply or_iff_left
  rintro rfl
  contradiction

/-- A program that posts no more has classified what was answered, when that was a 200. -/
theorem classifies_of_no_posts {tr : List (Event ApiKeyOp ApiKeyAns)}
    (htr : ∀ response, RepliedWith tr response → response.Whole → response.statusCode = 200)
    {p : Prog ApiKeyOp ApiKeyAns (Except PyExc (Option ApiKeyPrincipal))}
    (hposts : client.postBudget.Watches (fun _ _ => True) 0 p) :
    history.Watches client.Classifies tr p := by
  induction p generalizing tr with
  | ret result =>
    intro response hreplied hwhole hstatus
    exact absurd (htr response hreplied hwhole) hstatus
  | call o k ih =>
    refine ⟨trivial, fun a _ => ?_⟩
    have hpost : o.isPost = false := by
      by_contra hpost
      exact absurd (hposts.1 (by simpa using hpost)) (lt_irrefl 0)
    apply ih a
    · intro response hreplied
      exact htr response ((repliedWith_append hpost).mp hreplied)
    · have hnext := hposts.2 a trivial
      rwa [postBudget_next_of_not_post hpost] at hnext

section Reply

variable {tr : List (Event ApiKeyOp ApiKeyAns)} (htr : ∀ e ∈ tr, Quiet e)
  {request : IntrospectionRequest} {response : StreamedResponse}
include htr

/-- The trace up to the reply. -/
theorem reports_replied (tail : List (Event ApiKeyOp ApiKeyAns)) :
    reports (tr ++ [⟨.post request, Except.ok response⟩] ++ tail) = reports tail := by
  rw [reports, List.filterMap_append, List.filterMap_append, ← reports, reports_of_quiet htr]
  rfl

theorem drops_replied (tail : List (Event ApiKeyOp ApiKeyAns)) :
    drops (tr ++ [⟨.post request, Except.ok response⟩] ++ tail) = drops tail := by
  rw [drops, List.filterMap_append, List.filterMap_append, ← drops, drops_of_quiet htr]
  rfl

/-- The reply is the only whole one of its trace. -/
theorem eq_of_repliedWith {tail : List (Event ApiKeyOp ApiKeyAns)}
    (htail : ∀ e ∈ tail, e.1.isPost = false) {response' : StreamedResponse}
    (hreplied : RepliedWith (tr ++ [⟨.post request, Except.ok response⟩] ++ tail) response')
    (hwhole : response'.Whole) : response' = response := by
  obtain ⟨request', hmem⟩ := hreplied
  rw [List.mem_append, List.mem_append, List.mem_singleton] at hmem
  rcases hmem with (hmem | heq) | hmem
  · exact absurd hwhole (htr _ hmem)
  · cases heq
    rfl
  · exact absurd (htail _ hmem) (by simp [ApiKeyOp.isPost])

theorem classifies_of_classified (tail : List (Event ApiKeyOp ApiKeyAns))
    {result : Except PyExc (Option ApiKeyPrincipal)} (htail : ∀ e ∈ tail, e.1.isPost = false)
    (h : client.Classified response (tr ++ [⟨.post request, Except.ok response⟩] ++ tail) result) :
    client.Classifies (tr ++ [⟨.post request, Except.ok response⟩] ++ tail) result := by
  intro response' hreplied hwhole _
  rwa [eq_of_repliedWith htr htail hreplied hwhole]

/-- A reply whose body fits is classified by its status. -/
theorem classifies_interpret (hfits : response.payload.length ≤ client.tuning.maxResponseBytes)
    (hok : response.statusCode ≠ 200) :
    history.Watches client.Classifies
      (tr ++ [⟨.post request, Except.ok response⟩] ++ [⟨.semaphoreRelease, ()⟩])
      (client.interpret sdk
        ⟨response.statusCode, response.payload, response.retryAfter⟩).run := by
  generalize hreply :
    (⟨response.statusCode, response.payload, response.retryAfter⟩ : IntrospectionReply) = reply
  have hcode : reply.statusCode = response.statusCode := by rw [← hreply]
  by_cases hrejects : reply.Rejects
  · have hstatus : response.statusCode = 401 ∨ response.statusCode = 403 := hcode ▸ hrejects
    have hne : response.statusCode ≠ 429 := by omega
    rw [run_interpret_of_rejects hrejects]
    refine ⟨trivial, fun (outcome : Except PyExc Bool) _ => ?_⟩
    rw [history_next, List.append_assoc]
    apply classifies_of_classified htr [⟨.semaphoreRelease, ()⟩, ⟨.authInvalidate, outcome⟩]
      (by simp [ApiKeyOp.isPost])
    rw [Classified, if_pos hfits, if_neg hne, if_pos hstatus]
    exact ⟨outcome, drops_replied htr _, reports_replied htr _, rfl⟩
  have hstatus : ¬ (response.statusCode = 401 ∨ response.statusCode = 403) := hcode ▸ hrejects
  rw [run_interpret_of_accepts hrejects]
  by_cases h429 : response.statusCode = 429
  · have hreport : replyReport sdk reply = none := if_pos (.inl (hcode ▸ h429))
    have hverdict : client.verdict sdk reply =
        .error (.apiKeyQuotaExceededError response.retryAfter) := by
      rw [verdict, hcode, if_pos h429, ← hreply]
    rw [hreport, hverdict]
    apply classifies_of_classified htr [⟨.semaphoreRelease, ()⟩] (by simp [ApiKeyOp.isPost])
    rw [Classified, if_pos hfits, if_pos h429]
    exact ⟨rfl, reports_replied htr _, drops_replied htr _⟩
  · have hreport : replyReport sdk reply = some .failure := by
      rw [replyReport, hcode, if_neg (not_or.mpr ⟨h429, hrejects⟩), if_pos hok]
    obtain ⟨reason, hverdict⟩ : ∃ reason, client.verdict sdk reply =
        .error (.apiKeyIntrospectionError reason) := by
      rw [verdict, hcode, if_neg h429, if_neg hrejects]
      split_ifs <;> exact ⟨_, rfl⟩
    rw [hreport, hverdict]
    refine ⟨trivial, fun (_ : Unit) _ => ?_⟩
    rw [history_next, List.append_assoc]
    apply classifies_of_classified htr [⟨.semaphoreRelease, ()⟩, ⟨.recordFailure, ()⟩]
      (by simp [ApiKeyOp.isPost])
    rw [Classified, if_pos hfits, if_neg h429, if_neg hstatus]
    exact ⟨reports_replied htr _, drops_replied htr _, reason, rfl⟩

/-- A call that leaves its slot with a reply classifies it. -/
theorem classifies_leave (hwhole : response.Whole) :
    history.Watches client.Classifies (tr ++ [⟨.post request, Except.ok response⟩])
      (client.leave sdk (client.collect (.ok response))) := by
  by_cases hok : response.statusCode = 200
  · apply classifies_of_no_posts ?_ (watches_leave 0 _)
    intro response' hreplied hwhole'
    rw [← List.append_nil (tr ++ _)] at hreplied
    rw [eq_of_repliedWith htr (by simp) hreplied hwhole', hok]
  have hread : client.collect (.ok response) = _ := hwhole.read client.tuning.maxResponseBytes
  rw [hread]
  split
  next hfits => exact ⟨trivial, fun (_ : Unit) _ => classifies_interpret htr hfits hok⟩
  next hlarge =>
    refine ⟨trivial, fun (_ : Unit) _ => ?_⟩
    apply classifies_of_classified htr [⟨.semaphoreRelease, ()⟩] (by simp [ApiKeyOp.isPost])
    exact (if_neg hlarge).mpr rfl

end Reply

theorem quiet_append {tr : List (Event ApiKeyOp ApiKeyAns)} {e : Event ApiKeyOp ApiKeyAns}
    (htr : ∀ e ∈ tr, Quiet e) (he : Quiet e) : ∀ e' ∈ tr ++ [e], Quiet e' := by
  intro e' hmem
  rw [List.mem_append, List.mem_singleton] at hmem
  rcases hmem with hmem | rfl
  · exact htr e' hmem
  · exact he

theorem collect_of_not_whole (client : ApiKeyIntrospectionClient) {response : StreamedResponse}
    (h : ¬ response.Whole) :
    ∃ exc, client.collect (.ok response) = .error exc := by
  change ∃ exc, response.read client.tuning.maxResponseBytes = .error exc
  rw [StreamedResponse.read]
  cases hclosing : response.closing with
  | some exc => exact ⟨exc, rfl⟩
  | none =>
    cases hbroken : response.broken with
    | none => exact absurd ⟨hbroken, hclosing⟩ h
    | some exc =>
      cases StreamedResponse.readChunks client.tuning.maxResponseBytes [] response.chunks with
      | error exc' => exact ⟨exc', rfl⟩
      | ok payload => exact ⟨exc, rfl⟩

/-- A call leaves its slot with every reply that is whole. -/
theorem giveUp_of_whole {response : StreamedResponse} (h : response.Whole) {exc : PyExc}
    (hread : client.collect (.ok response) = .error exc)
    (next : Except PyExc IntrospectionReply →
      Prog ApiKeyOp ApiKeyAns (Except PyExc (Option ApiKeyPrincipal))) :
    exc.isConnectFailure = false ∧ giveUp next exc = next (.error exc) := by
  have hwhole : client.collect (.ok response) = _ := h.read client.tuning.maxResponseBytes
  rw [hread] at hwhole
  split at hwhole
  · contradiction
  · obtain rfl := Except.error.inj hwhole
    exact ⟨rfl, rfl⟩

/-- A transmission classifies a whole reply, when what follows it leaves the slot with that, and
classifies what comes after any other one. -/
theorem classifies_transmitThen {apiKey : String} {tr : List (Event ApiKeyOp ApiKeyAns)}
    (htr : ∀ e ∈ tr, Quiet e)
    {next : Except PyExc IntrospectionReply →
      Prog ApiKeyOp ApiKeyAns (Except PyExc (Option ApiKeyPrincipal))}
    (hfailed : ∀ tr exc, (∀ e ∈ tr, Quiet e) →
      history.Watches client.Classifies tr (next (.error exc)))
    (hwhole : ∀ response, response.Whole →
      next (client.collect (.ok response)) = client.leave sdk (client.collect (.ok response))) :
    history.Watches client.Classifies tr (client.transmitThen apiKey next) := by
  refine ⟨trivial, fun (headers : Except PyExc Headers) _ => ?_⟩
  have hheaders : ∀ e ∈ tr ++ [⟨ApiKeyOp.authHeaders, headers⟩], Quiet e := quiet_append htr trivial
  cases headers with
  | error exc => exact hfailed _ exc hheaders
  | ok headers =>
    refine ⟨trivial, fun (r : Except PyExc StreamedResponse) _ => ?_⟩
    cases r with
    | error exc => exact hfailed _ exc (quiet_append hheaders trivial)
    | ok response =>
      show history.Watches client.Classifies _ (next (client.collect (.ok response)))
      by_cases h : response.Whole
      · rw [hwhole response h]
        exact classifies_leave hheaders h
      · obtain ⟨exc, hexc⟩ := collect_of_not_whole client h
        rw [hexc]
        exact hfailed _ exc (quiet_append hheaders h)

/-- Nothing is classified while no whole reply has arrived, and none can arrive any more. -/
theorem classifies_of_quiet {tr : List (Event ApiKeyOp ApiKeyAns)} (htr : ∀ e ∈ tr, Quiet e)
    {p : Prog ApiKeyOp ApiKeyAns (Except PyExc (Option ApiKeyPrincipal))}
    (hposts : client.postBudget.Watches (fun _ _ => True) 0 p) :
    history.Watches client.Classifies tr p := by
  apply classifies_of_no_posts ?_ hposts
  intro response hreplied hwhole
  exact absurd hwhole (not_whole_of_quiet htr hreplied)

theorem classifies_giveUp (tr : List (Event ApiKeyOp ApiKeyAns)) (exc : PyExc)
    (htr : ∀ e ∈ tr, Quiet e) :
    history.Watches client.Classifies tr (giveUp (client.leave sdk) exc) :=
  classifies_of_quiet htr (watches_giveUp 0 exc)

theorem classifies_retry {apiKey : String} {tr : List (Event ApiKeyOp ApiKeyAns)}
    (htr : ∀ e ∈ tr, Quiet e) :
    history.Watches client.Classifies tr
      (client.transmitThen apiKey (afterRetry (client.leave sdk))) := by
  apply classifies_transmitThen htr classifies_giveUp
  intro response hwhole
  cases hread : client.collect (.ok response) with
  | ok reply => rfl
  | error exc => exact (giveUp_of_whole hwhole hread _).2

theorem classifies_send {apiKey : String} {tr : List (Event ApiKeyOp ApiKeyAns)}
    (htr : ∀ e ∈ tr, Quiet e) :
    history.Watches client.Classifies tr
      (client.transmitThen apiKey (client.afterTransmit apiKey (client.leave sdk))) := by
  apply classifies_transmitThen htr
  · intro tr exc htr
    cases hexc : exc.isConnectFailure with
    | false =>
      rw [afterTransmit_of_sent hexc]
      exact classifies_giveUp tr exc htr
    | true =>
      rw [afterTransmit_of_connect hexc]
      exact classifies_retry htr
  · intro response hwhole
    cases hread : client.collect (.ok response) with
    | ok reply => rfl
    | error exc =>
      obtain ⟨hsent, hleave⟩ := giveUp_of_whole hwhole hread (client.leave sdk)
      rw [afterTransmit_of_sent hsent, hleave]

theorem classifies_introspect (apiKey : String) :
    history.Watches client.Classifies [] (client.introspect sdk apiKey).run := by
  rw [run_introspect]
  split
  · refine ⟨trivial, fun (allowed : Bool) _ => ?_⟩
    have hallowed := quiet_append (List.forall_mem_nil Quiet)
      (e := ⟨.allowsCall, allowed⟩) trivial
    cases allowed with
    | false => exact classifies_of_quiet hallowed trivial
    | true =>
      refine ⟨trivial, fun (acquired : Except PyExc Unit) _ => ?_⟩
      have hacquired := quiet_append hallowed
        (e := ⟨.semaphoreAcquire client.tuning.poolTimeout, acquired⟩) trivial
      match acquired with
      | .error exc => exact classifies_of_quiet hacquired trivial
      | .ok () =>
        refine ⟨trivial, fun (entered : Except PyExc Unit) _ => ?_⟩
        have hentered := quiet_append hacquired (e := ⟨.checkpoint, entered⟩) trivial
        match entered with
        | .error exc => exact classifies_of_quiet hentered (watches_call rfl fun _ => trivial)
        | .ok () => exact classifies_send hentered
  · exact classifies_of_quiet (List.forall_mem_nil Quiet) trivial

/-- Whatever call a reply other than a 200 answers without a transport error, and in whatever
chunks: when its body fits it is classified by its status, and a larger one is abandoned. -/
theorem status_classifies (client : ApiKeyIntrospectionClient) (sdk : ApiKeySdk) (apiKey : String)
    {tr : List (Event ApiKeyOp ApiKeyAns)} {result : Except PyExc (Option ApiKeyPrincipal)}
    (htr : (client.introspect sdk apiKey).run.Trace tr (.ret result))
    {response : StreamedResponse} (hreplied : RepliedWith tr response) (hwhole : response.Whole)
    (hstatus : response.statusCode ≠ 200) : client.Classified response tr result := by
  have hclassifies : client.Classifies tr result := (classifies_introspect apiKey).of_trace htr
  exact hclassifies response hreplied hwhole hstatus

/-- A client that reads as little as the settings allow. -/
def frugalClient : ApiKeyIntrospectionClient :=
  { strictClient 1 with tuning := { schemaVersion := "1", maxResponseBytes := 256 } }

/-- A call that ends once it has left its slot with a reply. -/
def repliedTrace (response : StreamedResponse) : List (Event ApiKeyOp ApiKeyAns) :=
  let headers : Headers := [(internalTokenHeader, .text "secret")]
  [⟨.allowsCall, true⟩, ⟨.semaphoreAcquire 2, Except.ok ()⟩, ⟨.checkpoint, Except.ok ()⟩,
    ⟨.authHeaders, Except.ok headers⟩,
    ⟨.post (frugalClient.requestFor "key" headers), Except.ok response⟩, ⟨.semaphoreRelease, ()⟩]

theorem repliedWith_repliedTrace (response : StreamedResponse) :
    RepliedWith (repliedTrace response) response :=
  ⟨frugalClient.requestFor "key" [(internalTokenHeader, .text "secret")], by simp [repliedTrace]⟩

/-- A chunk of as many bytes as this client reads. -/
def fullChunk : Bytes := List.replicate 256 0

def quotaReply (chunks : List Bytes) : StreamedResponse := ⟨429, some "60", chunks, none, none⟩

set_option maxRecDepth 4000 in
theorem trace_quotaReply : (frugalClient.introspect apiKeyV1Sdk "key").run.Trace
    (repliedTrace (quotaReply [fullChunk]))
    (.ret (.error (.apiKeyQuotaExceededError (some "60")))) :=
  .perform _ (.perform _ (.perform _ (.perform _ (.perform _ (.perform _ (.stop _))))))

set_option maxRecDepth 4000 in
theorem status_classifies_quota :
    reports (repliedTrace (quotaReply [fullChunk])) = [] ∧
      frugalClient.Classified (quotaReply [fullChunk]) (repliedTrace (quotaReply [fullChunk]))
        (.error (.apiKeyQuotaExceededError (some "60"))) :=
  ⟨rfl, status_classifies frugalClient apiKeyV1Sdk "key" trace_quotaReply
    (repliedWith_repliedTrace _) ⟨rfl, rfl⟩ (by decide)⟩

set_option maxRecDepth 4000 in
/-- A reply whose body is too large is not classified by its status. -/
theorem status_not_decisive :
    ¬ ∀ (client : ApiKeyIntrospectionClient) (sdk : ApiKeySdk) (apiKey : String)
      (tr : List (Event ApiKeyOp ApiKeyAns)) (result : Except PyExc (Option ApiKeyPrincipal))
      (response : StreamedResponse), (client.introspect sdk apiKey).run.Trace tr (.ret result) →
      RepliedWith tr response → response.Whole → response.statusCode ≠ 200 →
      (response.statusCode = 429 →
        result = .error (.apiKeyQuotaExceededError response.retryAfter) ∧ reports tr = [] ∧
          drops tr = []) ∧
      (response.statusCode = 401 ∨ response.statusCode = 403 →
        ∃ outcome, drops tr = [outcome] ∧ reports tr = [] ∧
          ∃ reason, result = .error (.apiKeyIntrospectionError reason)) ∧
      (response.statusCode ≠ 429 ∧ response.statusCode ≠ 401 ∧ response.statusCode ≠ 403 →
        reports tr = [.failure] ∧ drops tr = [] ∧
          ∃ reason, result = .error (.apiKeyIntrospectionError reason)) := by
  intro h
  have htr : (frugalClient.introspect apiKeyV1Sdk "key").run.Trace
      (repliedTrace (quotaReply [fullChunk, [0]]))
      (.ret (.error (.apiKeyIntrospectionError "response_too_large"))) :=
    .perform _ (.perform _ (.perform _ (.perform _ (.perform _ (.perform _ (.stop _))))))
  have hclassified := h _ _ _ _ _ (quotaReply [fullChunk, [0]]) htr (repliedWith_repliedTrace _)
    ⟨rfl, rfl⟩ (by decide)
  have hresult := (hclassified.1 rfl).1
  contradiction

end ApiKeyIntrospectionClient

end FastapiM8
