import FastapiM8.ApiKey.Deps
import FastapiM8.Lib.Wrap

/-! The verdicts of the API-key dependencies: every answer that a request can get, and what in its
own exchange with the issuer it comes from. -/
namespace FastapiM8

open ApiKeyIntrospectionClient

/-- The operations in which a call comes to its slot. -/
def ApiKeyOp.Queues : ApiKeyOp → Prop
  | .semaphoreAcquire _ | .checkpoint => True
  | _ => False

/-- The operations in which a call transmits its request. -/
def ApiKeyOp.Transmits : ApiKeyOp → Prop
  | .authHeaders | .post _ => True
  | _ => False

section Causes

variable {Spec ρ : Type} (client : ApiKeyIntrospectionClient) (sdk : ApiKeySdk)
  (past : List (ApiKeyPool Spec ρ × ApiKeyAct Spec)) (w : ApiKeyPool Spec ρ) (l : ApiKeyAct Spec)
  (id : ℕ) (apiKey : String)

/-- The step delivers the issuer's reply to the task's own request, read to its end. -/
def Replies (reply : IntrospectionReply) : Prop :=
  ∃ request response, l = .resume id (.response response) ∧ w.awaits id = some (.post request) ∧
    request.apiKey = apiKey ∧ response.read client.tuning.maxResponseBytes = .ok reply

/-- The step delivers an exception to a task that is suspended on the given operation. -/
def Fails (o : ApiKeyOp) (exc : PyExc) : Prop :=
  ∃ answer, l = .resume id answer ∧ w.awaits id = some o ∧ Delivers answer exc

/-- Why a key could not be verified, for each reason code. -/
inductive Unverified : String → Prop
  | circuitOpen (hl : ∃ spec, l = .spawn id spec)
      (hdenied : (w.shared.breaker.allowsCall w.shared.now).1 = false) : Unverified "circuit_open"
  | loadShed (o : ApiKeyOp) (ho : o.Queues) (h : Fails w l id o .timeoutError) :
      Unverified "load_shed"
  | transport (o : ApiKeyOp) (exc : PyExc) (ho : o.Transmits) (h : Fails w l id o exc)
      (hhttp : exc.isHttpError = true) : Unverified "transport"
  | tooLarge (request : IntrospectionRequest) (response : StreamedResponse)
      (hl : l = .resume id (.response response)) (ho : w.awaits id = some (.post request))
      (hlarge : client.tuning.maxResponseBytes < response.chunks.flatten.length) :
      Unverified "response_too_large"
  | rejected (x : ApiKeyPool Spec ρ × ApiKeyAct Spec) (reply : IntrospectionReply) (hx : x ∈ past)
      (h : Replies client x.1 x.2 id apiKey reply) (hrejects : reply.Rejects) :
      Unverified "consumer_unauthorized"
  | unavailable (reply : IntrospectionReply) (h : Replies client w l id apiKey reply)
      (h500 : 500 ≤ reply.statusCode) : Unverified "issuer_unavailable"
  | unexpected (reply : IntrospectionReply) (h : Replies client w l id apiKey reply)
      (hstatus : reply.statusCode ≠ 200 ∧ reply.statusCode ≠ 429 ∧ ¬ reply.Rejects ∧
        reply.statusCode < 500) : Unverified "unexpected_status"
  | malformed (reply : IntrospectionReply) (h : Replies client w l id apiKey reply)
      (hok : reply.statusCode = 200) (hbody : sdk.response reply.body = none) :
      Unverified "malformed_response"
  | foreign (reply : IntrospectionReply) (audienceId : String) (principal : ApiKeyPrincipal)
      (h : Replies client w l id apiKey reply) (hok : reply.statusCode = 200)
      (hbody : sdk.response reply.body = some (.active audienceId principal))
      (hne : audienceId ≠ client.audienceId) : Unverified "audience_mismatch"

/-- The outcomes of an `introspect` call that a step ends, each with what it comes from. -/
inductive CallVerdict : Except PyExc (Option ApiKeyPrincipal) → Prop
  | unusable (reply : IntrospectionReply) (h : Replies client w l id apiKey reply)
      (hok : reply.statusCode = 200) (hbody : sdk.response reply.body = some .inactive) :
      CallVerdict (.ok none)
  | resolved (reply : IntrospectionReply) (principal : ApiKeyPrincipal)
      (h : Replies client w l id apiKey reply) (hok : reply.statusCode = 200)
      (hbody : sdk.response reply.body = some (.active client.audienceId principal)) :
      CallVerdict (.ok (some principal))
  | limited (reply : IntrospectionReply) (h : Replies client w l id apiKey reply)
      (h429 : reply.statusCode = 429) :
      CallVerdict (.error (.apiKeyQuotaExceededError reply.retryAfter))
  | unverified (reason : String) (h : Unverified client sdk past w l id apiKey reason) :
      CallVerdict (.error (.apiKeyIntrospectionError reason))
  | escaped (exc : PyExc) (h : Escapes client sdk w l id apiKey exc) : CallVerdict (.error exc)

end Causes

variable {client : ApiKeyIntrospectionClient} {sdk : ApiKeySdk}

section Calls

variable {w w' : IntrospectPool} {past : List (IntrospectPool × IntrospectAct)} {id : ℕ}
  {apiKey : String} {s : ApiKeyState} {outcome : Except PyExc (Option ApiKeyPrincipal)}
  {r : Prog ApiKeyOp ApiKeyAns (Except PyExc (Option ApiKeyPrincipal)) × ApiKeyState}
  {answer : ApiKeyAnswer}

/-- Reading a reply ends with the whole of it, with a body that is too large, or with what the
connection raised. -/
theorem read_causes (maxResponseBytes : ℕ) (response : StreamedResponse) :
    (∃ reply, response.read maxResponseBytes = .ok reply) ∨
    maxResponseBytes < response.chunks.flatten.length ∧
      response.read maxResponseBytes = .error (.apiKeyIntrospectionError "response_too_large") ∨
    ∃ exc, response.read maxResponseBytes = .error exc ∧
      (response.broken = some exc ∨ response.closing = some exc) := by
  rcases read_cases maxResponseBytes response with ⟨exc, hread, hraised⟩ | hread | ⟨-, -, -, hread⟩
  · exact .inr (.inr ⟨exc, hread, hraised⟩)
  · by_cases hfits : response.chunks.flatten.length ≤ maxResponseBytes
    · -- a body that fits is not read as too large, unless the connection says so
      rw [StreamedResponse.read, StreamedResponse.readChunks_eq _ (Nat.zero_le _), List.nil_append,
        if_pos hfits] at hread ⊢
      cases hclosing : response.closing with
      | some exc => exact .inr (.inr ⟨exc, rfl, .inr rfl⟩)
      | none =>
        cases hbroken : response.broken with
        | some exc => exact .inr (.inr ⟨exc, rfl, .inl rfl⟩)
        | none => exact .inl ⟨_, rfl⟩
    · exact .inr (.inl ⟨not_le.mp hfits, hread⟩)
  · exact .inl ⟨_, hread⟩

/-- What a reply says that does not reject the credential. -/
theorem verdict_of_reply {l : IntrospectAct} {reply : IntrospectionReply}
    (h : Replies client w l id apiKey reply) (hrejects : ¬ reply.Rejects) :
    CallVerdict client sdk past w l id apiKey (client.verdict sdk reply) := by
  unfold verdict
  rw [if_neg hrejects]
  split_ifs with h429 h500 hok
  · exact .limited reply h h429
  · exact .unverified _ (.unavailable reply h h500)
  · exact .unverified _ (.unexpected reply h ⟨hok, h429, hrejects, not_le.mp h500⟩)
  · have hstatus : reply.statusCode = 200 := not_not.mp hok
    cases hbody : sdk.response reply.body with
    | none => exact .unverified _ (.malformed reply h hstatus hbody)
    | some result =>
      cases result with
      | inactive => exact .unusable reply h hstatus hbody
      | active audienceId principal =>
        show CallVerdict client sdk past w l id apiKey
          (if audienceId ≠ client.audienceId then _ else _)
        split
        next hne => exact .unverified _ (.foreign reply audienceId principal h hstatus hbody hne)
        next hne => exact .resolved reply principal h hstatus (not_not.mp hne ▸ hbody)

/-- A call that never gets to its slot is shed, or raises what kept it from it. -/
theorem verdict_of_shed {o : ApiKeyOp} (hawaits : w.awaits id = some o) (ho : o.Queues)
    {exc : PyExc} (huntranslated : exc ≠ .timeoutError → Untranslated exc o) :
    CallVerdict client sdk past w (.resume id (.raises exc)) id apiKey (.error (shed exc)) := by
  by_cases htimeout : exc = .timeoutError
  · subst htimeout
    exact .unverified _ (.loadShed o ho ⟨_, rfl, hawaits, .inl rfl⟩)
  · have hshed : shed exc = exc := by
      cases exc <;> first | rfl | contradiction
    rw [hshed]
    exact .escaped exc (.inl ⟨_, o, rfl, hawaits, .inl rfl, huntranslated htimeout⟩)

/-- A call whose transmission fails for good is not verified, or raises what failed it. -/
theorem verdict_of_failed {o : ApiKeyOp} (hawaits : w.awaits id = some o) (ho : o.Transmits)
    {exc : PyExc} (huntranslated : exc.isHttpError = false → Untranslated exc o)
    (hdelivers : Delivers answer exc) (h : client.Follows sdk apiKey s (.failed exc) r)
    (hend : r.1 = .ret outcome) :
    CallVerdict client sdk past w (.resume id answer) id apiKey outcome := by
  cases h with
  | retries exc h k => contradiction
  | unreachable exc h =>
    obtain rfl := Prog.ret.inj hend
    exact .unverified _ (.transport o exc ho ⟨answer, rfl, hawaits, hdelivers⟩ h)
  | escapes exc h =>
    obtain rfl := Prog.ret.inj hend
    exact .escaped exc (.inl ⟨answer, o, rfl, hawaits, hdelivers, huntranslated h⟩)

/-- The verdict of a call that its own request's answer ends. -/
theorem verdict_of_response {request : IntrospectionRequest} (hkey : request.apiKey = apiKey)
    (hawaits : w.awaits id = some (.post request)) (response : StreamedResponse)
    (h : client.Follows sdk apiKey s (client.signal (.post request) (.ok response)) r)
    (hend : r.1 = .ret outcome) :
    CallVerdict client sdk past w (.resume id (.response response)) id apiKey outcome := by
  have hcollect : client.collect (.ok response) =
      response.read client.tuning.maxResponseBytes := rfl
  rcases read_causes client.tuning.maxResponseBytes response with
    ⟨reply, hread⟩ | ⟨hlarge, hread⟩ | ⟨exc, hread, hraised⟩
  · simp only [signal, hcollect, hread] at h
    cases h with
    | rejected reply h k => contradiction
    | answered reply h =>
      obtain rfl := Prog.ret.inj hend
      exact verdict_of_reply ⟨request, response, rfl, hawaits, hkey, hread⟩ h
  · simp only [signal, hcollect, hread] at h
    cases h with
    | retries exc h k => contradiction
    | unreachable exc h => contradiction
    | escapes exc h =>
      obtain rfl := Prog.ret.inj hend
      exact .unverified _ (.tooLarge request response rfl hawaits hlarge)
  · simp only [signal, hcollect, hread] at h
    exact verdict_of_failed hawaits trivial (fun hhttp => hhttp) (.inr ⟨response, rfl, hraised⟩) h
      hend

/-- A call that drops its credential has been rejected by the issuer. -/
def Rejected (client : ApiKeyIntrospectionClient) (past : List (IntrospectPool × IntrospectAct))
    (id : ℕ) (apiKey : String) : Prop :=
  ∃ x ∈ past, ∃ reply, Replies client x.1 x.2 id apiKey reply ∧ reply.Rejects

/-- The verdict of a call that a segment ends. -/
theorem verdict_of_follows {o : ApiKeyOp} {a : ApiKeyAns o} (hawaited : Awaited apiKey o)
    (hawaits : w.awaits id = some o) (ha : o.decode answer = some a)
    (hdropping : o = .authInvalidate → Rejected client past id apiKey)
    (h : client.Follows sdk apiKey s (client.signal o a) r) (hend : r.1 = .ret outcome) :
    CallVerdict client sdk past w (.resume id answer) id apiKey outcome := by
  cases o with
  | semaphoreAcquire timeout =>
    cases answer with
    | raises exc =>
      obtain rfl := Option.some.inj ha
      cases h with
      | shed exc =>
        obtain rfl := Prog.ret.inj hend
        exact verdict_of_shed hawaits trivial fun hne => hne
    | _ => contradiction
  | checkpoint =>
    cases answer with
    | resumed =>
      obtain rfl := Option.some.inj ha
      cases h
      contradiction
    | raises exc =>
      obtain rfl := Option.some.inj ha
      cases h with
      | abandoned exc =>
        obtain rfl := Prog.ret.inj hend
        exact verdict_of_shed hawaits trivial fun hne => hne
    | _ => contradiction
  | authHeaders =>
    cases answer with
    | headers headers =>
      obtain rfl := Option.some.inj ha
      cases h
      contradiction
    | raises exc =>
      obtain rfl := Option.some.inj ha
      exact verdict_of_failed hawaits trivial (fun hhttp => hhttp) (.inl rfl) h hend
    | _ => contradiction
  | authInvalidate =>
    cases answer with
    | invalidated retry =>
      obtain rfl := Option.some.inj ha
      cases h with
      | dropped retry =>
        obtain rfl := Prog.ret.inj hend
        obtain ⟨x, hx, reply, hreply, hrejects⟩ := hdropping rfl
        exact .unverified _ (.rejected x reply hx hreply hrejects)
    | raises exc =>
      obtain rfl := Option.some.inj ha
      cases h with
      | dropFails exc =>
        obtain rfl := Prog.ret.inj hend
        exact .escaped exc (.inl ⟨_, _, rfl, hawaits, .inl rfl, trivial⟩)
    | _ => contradiction
  | post request =>
    cases answer with
    | response response =>
      obtain rfl := Option.some.inj ha
      exact verdict_of_response hawaited hawaits response h hend
    | raises exc =>
      obtain rfl := Option.some.inj ha
      exact verdict_of_failed hawaits trivial (fun hhttp => hhttp) (.inl rfl) h hend
    | _ => contradiction
  | _ => exact hawaited.elim

/-- Only the issuer's reply tells a call that it was replied to. -/
theorem replies_of_signal {o : ApiKeyOp} {a : ApiKeyAns o} {reply : IntrospectionReply}
    (hawaited : Awaited apiKey o) (hawaits : w.awaits id = some o) (ha : o.decode answer = some a)
    (h : client.signal o a = .replied reply) :
    Replies client w (.resume id answer) id apiKey reply := by
  cases o with
  | post request =>
    cases answer with
    | response response =>
      obtain rfl := Option.some.inj ha
      have hcollect : client.collect (.ok response) =
          response.read client.tuning.maxResponseBytes := rfl
      simp only [signal, hcollect] at h
      split at h
      next reply' hread =>
        obtain rfl := Signal.replied.inj h
        exact ⟨request, response, rfl, hawaits, hawaited, hread⟩
      next => contradiction
    | raises exc =>
      obtain rfl := Option.some.inj ha
      contradiction
    | _ => contradiction
  | semaphoreAcquire timeout | checkpoint | authHeaders =>
    rcases a with exc | _ <;> contradiction
  | authInvalidate => contradiction
  | _ => exact hawaited.elim

/-- Every finished call was ended by a step of the run that it has its verdict from, and a call
that drops its credential was rejected. -/
structure Attributed (client : ApiKeyIntrospectionClient) (sdk : ApiKeySdk)
    (past : List (IntrospectPool × IntrospectAct)) (w : IntrospectPool) : Prop where
  finished : ∀ id apiKey outcome, w.tasks id = some ⟨apiKey, .ret outcome⟩ →
    ∃ newer w₁ l older, past = newer ++ (w₁, l) :: older ∧
      CallVerdict client sdk older w₁ l id apiKey outcome
  dropping : ∀ id apiKey k, w.tasks id = some ⟨apiKey, .call .authInvalidate k⟩ →
    Rejected client past id apiKey

theorem Rejected.cons (h : Rejected client past id apiKey) (e : IntrospectPool × IntrospectAct) :
    Rejected client (e :: past) id apiKey := by
  obtain ⟨x, hx, hreply⟩ := h
  exact ⟨x, List.mem_cons_of_mem e hx, hreply⟩

theorem Attributed.cons (h : Attributed client sdk past w) (e : IntrospectPool × IntrospectAct) :
    Attributed client sdk (e :: past) w where
  finished id apiKey outcome ht := by
    obtain ⟨newer, w₁, l, older, rfl, hverdict⟩ := h.finished id apiKey outcome ht
    exact ⟨e :: newer, w₁, l, older, rfl, hverdict⟩
  dropping id apiKey k ht := (h.dropping id apiKey k ht).cons e

/-- A step that moves one call keeps the others. -/
theorem Attributed.park (h : Attributed client sdk past w) {l : IntrospectAct}
    (hfinished : ∀ outcome, r.1 = .ret outcome →
      CallVerdict client sdk past w l id apiKey outcome)
    (hdropping : ∀ k, r.1 = .call .authInvalidate k →
      Rejected client ((w, l) :: past) id apiKey) :
    Attributed client sdk ((w, l) :: past) (w.park id apiKey r) where
  finished id' apiKey' outcome ht := by
    by_cases hid : id' = id
    · subst hid
      rw [Pool.park_tasks_self] at ht
      obtain ⟨rfl, hret⟩ := Thread.mk.inj (Option.some.inj ht)
      exact ⟨[], w, l, past, rfl, hfinished outcome hret⟩
    · rw [Pool.park_tasks_of_ne _ _ _ hid] at ht
      exact (h.cons (w, l)).finished id' apiKey' outcome ht
  dropping id' apiKey' k ht := by
    by_cases hid : id' = id
    · subst hid
      rw [Pool.park_tasks_self] at ht
      obtain ⟨rfl, hcall⟩ := Thread.mk.inj (Option.some.inj ht)
      exact hdropping k hcall
    · rw [Pool.park_tasks_of_ne _ _ _ hid] at ht
      exact (h.cons (w, l)).dropping id' apiKey' k ht

/-- A new call is refused by the breaker or by the request model, or it queues. -/
theorem start_cases (client : ApiKeyIntrospectionClient) (sdk : ApiKeySdk) (apiKey : String)
    (s : ApiKeyState) :
    (sdk.request apiKey client.tuning.schemaVersion = false ∧
      (client.startIntrospect sdk apiKey s).1 = .ret (.error (.valueError none))) ∨
    ((s.breaker.allowsCall s.now).1 = false ∧ (client.startIntrospect sdk apiKey s).1 =
      .ret (.error (.apiKeyIntrospectionError "circuit_open"))) ∨
    ∃ o k, o.Queues ∧ (client.startIntrospect sdk apiKey s).1 = .call o k := by
  unfold startIntrospect
  split
  next =>
    split
    next =>
      unfold enter
      split
      next => exact .inr (.inr ⟨.checkpoint, _, trivial, rfl⟩)
      next => exact .inr (.inr ⟨.semaphoreAcquire _, _, trivial, rfl⟩)
    next hdenied => exact .inr (.inl ⟨Bool.eq_false_iff.mpr hdenied, rfl⟩)
  next hrequest => exact .inl ⟨Bool.eq_false_iff.mpr hrequest, rfl⟩

theorem Attributed.step (hw : (client.scheduler sdk).Guaranteed (client.IntrospectSegment sdk) w)
    (h : Attributed client sdk past w) {l : IntrospectAct}
    (hstep : (client.scheduler sdk).step w l = some w') :
    Attributed client sdk ((w, l) :: past) w' := by
  rcases introspect_step_cases hw hstep with ⟨id, apiKey, rfl, -, rfl⟩ |
    ⟨id, answer, apiKey, o, k, a, r, rfl, ht, ha, hawaited, -, hfollows, rfl⟩ |
    ⟨id, apiKey, k, rfl, rfl⟩ | ⟨seconds, rfl, -, rfl⟩
  · rcases start_cases client sdk apiKey w.shared with
      ⟨hrequest, hstart⟩ | ⟨hdenied, hstart⟩ | ⟨o, k, ho, hstart⟩
    · refine h.park (fun outcome hret => ?_) fun k hcall => ?_
      · obtain rfl := Prog.ret.inj (hstart.symm.trans hret)
        exact .escaped _ (.inr ⟨⟨apiKey, rfl⟩, hrequest, rfl⟩)
      · rw [hstart] at hcall
        contradiction
    · refine h.park (fun outcome hret => ?_) fun k hcall => ?_
      · obtain rfl := Prog.ret.inj (hstart.symm.trans hret)
        exact .unverified _ (.circuitOpen ⟨apiKey, rfl⟩ hdenied)
      · rw [hstart] at hcall
        contradiction
    · refine h.park (fun outcome hret => ?_) fun k' hcall => ?_
      · rw [hstart] at hret
        contradiction
      · rw [hstart] at hcall
        obtain ⟨rfl, -⟩ := Prog.call.inj hcall
        exact ho.elim
  · have hawaits := Pool.awaits_of_tasks ht
    refine h.park (fun outcome hend => ?_) fun k' hcall => ?_
    · refine verdict_of_follows hawaited hawaits ha ?_ hfollows hend
      rintro rfl
      exact h.dropping id apiKey k ht
    · generalize hsignal : client.signal o a = signal at hfollows
      cases hfollows with
      | rejected reply hrejects =>
        have hreply := replies_of_signal hawaited hawaits ha hsignal
        exact ⟨_, List.mem_cons_self, reply, hreply, hrejects⟩
      | _ => cases hcall
  · refine h.park (fun outcome hret => ?_) fun k' hcall => ?_
    · contradiction
    · cases hcall
  · obtain ⟨hfinished, hdropping⟩ := h.cons (w, .env seconds)
    exact ⟨hfinished, hdropping⟩

theorem attributed_of_run {now : ℚ}
    (run : Run (client.scheduler sdk).step (client.start now) past w) :
    Attributed client sdk past w := by
  induction run with
  | start =>
    constructor
    · intro id apiKey outcome ht
      contradiction
    · intro id apiKey k ht
      contradiction
  | next run hstep ih => exact ih.step (introspects_guaranteed run) hstep

end Calls

/-- The requests of a service make the calls of its introspection client. -/
def ApiKeyIntrospectionClient.wraps (client : ApiKeyIntrospectionClient) (sdk : ApiKeySdk) :
    (client.requests sdk).Wraps (client.scheduler sdk) where
  call request := if request.key = "" then none else some request.key
  finish request outcome := request.conclude sdk outcome
  event seconds := some seconds
  exec_eq := rfl
  decode_eq := rfl
  body_call request apiKey h := by
    split at h
    next => contradiction
    next hkey =>
      obtain rfl := Option.some.inj h
      exact run_answer_of_key hkey
  body_alone request h := by
    split at h
    next hkey => exact ⟨_, run_answer_of_noKey hkey⟩
    next => contradiction
  env_event seconds seconds' h s := by
    obtain rfl := Option.some.inj h
    rfl
  env_quiet seconds h := by contradiction

abbrev KeyPool := ApiKeyPool KeyRequest ApiKeyPrincipal

abbrev KeyAct := ApiKeyAct KeyRequest

abbrev KeyHistory := List (KeyPool × KeyAct)

section Lift

variable {w : KeyPool} {l : KeyAct} {v : IntrospectPool} {l' : IntrospectAct} {past : KeyHistory}
  {past' : List (IntrospectPool × IntrospectAct)} {id : ℕ} {apiKey : String}

theorem awaits_of_holds (hw : (client.wraps sdk).Holds w v) {o : ApiKeyOp}
    (h : v.awaits id = some o) : w.awaits id = some o := by
  obtain ⟨apiKey, k, ht⟩ := Pool.awaits_eq_some h
  obtain ⟨request, -, ht'⟩ := hw.carrier ht
  exact Pool.awaits_of_tasks ht'

theorem Replies.lift (hw : (client.wraps sdk).Holds w v) (hl : (client.wraps sdk).act l = some l')
    {reply : IntrospectionReply} (h : Replies client v l' id apiKey reply) :
    Replies client w l id apiKey reply := by
  obtain ⟨request, response, rfl, hawaits, hkey, hread⟩ := h
  exact ⟨request, response, Scheduler.Wraps.act_eq_resume hl, awaits_of_holds hw hawaits, hkey,
    hread⟩

theorem Fails.lift (hw : (client.wraps sdk).Holds w v) (hl : (client.wraps sdk).act l = some l')
    {o : ApiKeyOp} {exc : PyExc} (h : Fails v l' id o exc) : Fails w l id o exc := by
  obtain ⟨answer, rfl, hawaits, hdelivers⟩ := h
  exact ⟨answer, Scheduler.Wraps.act_eq_resume hl, awaits_of_holds hw hawaits, hdelivers⟩

/-- A call starts where its request does. -/
theorem spawn_of_act (hl : (client.wraps sdk).act l = some l') (h : ∃ spec, l' = .spawn id spec) :
    ∃ spec, l = .spawn id spec := by
  obtain ⟨apiKey, rfl⟩ := h
  cases l with
  | spawn id' request =>
    obtain ⟨apiKey', -, hspawn⟩ := Option.map_eq_some_iff.mp hl
    obtain ⟨rfl, -⟩ := Act.spawn.inj hspawn
    exact ⟨request, rfl⟩
  | _ => simp [Scheduler.Wraps.act] at hl

theorem Unverified.lift (hw : (client.wraps sdk).Holds w v)
    (hl : (client.wraps sdk).act l = some l') (hpast : (client.wraps sdk).Histories past past')
    {reason : String} (h : Unverified client sdk past' v l' id apiKey reason) :
    Unverified client sdk past w l id apiKey reason := by
  cases h with
  | circuitOpen hspawn hdenied =>
    rw [hw.shared_eq] at hdenied
    exact .circuitOpen (spawn_of_act hl hspawn) hdenied
  | loadShed o ho h => exact .loadShed o ho (h.lift hw hl)
  | transport o exc ho h hhttp => exact .transport o exc ho (h.lift hw hl) hhttp
  | tooLarge request response hresume ho hlarge =>
    subst hresume
    exact .tooLarge request response (Scheduler.Wraps.act_eq_resume hl) (awaits_of_holds hw ho)
      hlarge
  | rejected x reply hx h hrejects =>
    obtain ⟨w₁, l₁, hmem, hl₁, hw₁⟩ := hpast.origin hx
    exact .rejected (w₁, l₁) reply hmem (h.lift hw₁ hl₁) hrejects
  | unavailable reply h h500 => exact .unavailable reply (h.lift hw hl) h500
  | unexpected reply h hstatus => exact .unexpected reply (h.lift hw hl) hstatus
  | malformed reply h hok hbody => exact .malformed reply (h.lift hw hl) hok hbody
  | foreign reply audienceId principal h hok hbody hne =>
    exact .foreign reply audienceId principal (h.lift hw hl) hok hbody hne

theorem Escapes.lift (hw : (client.wraps sdk).Holds w v) (hl : (client.wraps sdk).act l = some l')
    {exc : PyExc} (h : Escapes client sdk v l' id apiKey exc) :
    Escapes client sdk w l id apiKey exc := by
  rcases h with ⟨answer, o, rfl, hawaits, hdelivers, huntranslated⟩ | ⟨hspawn, hrequest, hexc⟩
  · exact .inl ⟨answer, o, Scheduler.Wraps.act_eq_resume hl, awaits_of_holds hw hawaits, hdelivers,
      huntranslated⟩
  · exact .inr ⟨spawn_of_act hl hspawn, hrequest, hexc⟩

end Lift

section Requests

variable (client : ApiKeyIntrospectionClient) (sdk : ApiKeySdk) (past : KeyHistory) (w : KeyPool)
  (l : KeyAct) (id : ℕ) (request : KeyRequest)

/-- The answers of a request, each with what it comes from. An exception that the client does not
translate goes through, also one that is delivered from outside and has the class of one of the
client's own; the dependency then handles it like the client's own, and lets any other through. -/
inductive KeyVerdict : Except PyExc ApiKeyPrincipal → Prop
  | noKey (h : request.key = "") : KeyVerdict (.error (.httpException unauthorized invalidApiKey))
  | unusable (reply : IntrospectionReply) (h : Replies client w l id request.key reply)
      (hok : reply.statusCode = 200) (hbody : sdk.response reply.body = some .inactive) :
      KeyVerdict (.error (.httpException unauthorized invalidApiKey))
  | forbidden (reply : IntrospectionReply) (principal : ApiKeyPrincipal) (role : RoleType)
      (h : Replies client w l id request.key reply) (hok : reply.statusCode = 200)
      (hbody : sdk.response reply.body = some (.active client.audienceId principal))
      (hrole : request.dependency = .requireRole role)
      (hdenied : sdk.hasCapability principal role = false) :
      KeyVerdict (.error (.httpException forbidden noPrivileges))
  | admitted (reply : IntrospectionReply) (principal : ApiKeyPrincipal)
      (h : Replies client w l id request.key reply) (hok : reply.statusCode = 200)
      (hbody : sdk.response reply.body = some (.active client.audienceId principal))
      (hrole : ∀ role, request.dependency = .requireRole role →
        sdk.hasCapability principal role = true) : KeyVerdict (.ok principal)
  | limited (reply : IntrospectionReply) (h : Replies client w l id request.key reply)
      (h429 : reply.statusCode = 429) : KeyVerdict (.error (apiKeyQuotaDenial reply.retryAfter))
  | unverified (reason : String) (h : Unverified client sdk past w l id request.key reason) :
      KeyVerdict (.error (.httpException unavailable "API key verification unavailable."))
  | escaped (exc : PyExc) (h : Escapes client sdk w l id request.key exc) :
      KeyVerdict (request.conclude sdk (.error exc))

end Requests

/-- The verdict of a request is that of its call. -/
theorem verdict_of_call {w : KeyPool} {l : KeyAct} {v : IntrospectPool} {l' : IntrospectAct}
    {past : KeyHistory} {past' : List (IntrospectPool × IntrospectAct)} {id : ℕ}
    {request : KeyRequest} (hw : (client.wraps sdk).Holds w v)
    (hl : (client.wraps sdk).act l = some l') (hpast : (client.wraps sdk).Histories past past')
    {outcome : Except PyExc (Option ApiKeyPrincipal)}
    (h : CallVerdict client sdk past' v l' id request.key outcome) :
    KeyVerdict client sdk past w l id request (request.conclude sdk outcome) := by
  cases h with
  | unusable reply h hok hbody => exact .unusable reply (h.lift hw hl) hok hbody
  | resolved reply principal h hok hbody =>
    show KeyVerdict client sdk past w l id request (request.dependency.check sdk principal)
    cases hdependency : request.dependency with
    | currentPrincipal =>
      exact .admitted reply principal (h.lift hw hl) hok hbody (by simp [hdependency])
    | requireRole role =>
      simp only [ApiKeyDependency.check]
      split
      next hcapable =>
        refine .admitted reply principal (h.lift hw hl) hok hbody fun role' hrole => ?_
        obtain rfl := ApiKeyDependency.requireRole.inj (hdependency.symm.trans hrole)
        exact hcapable
      next hdenied =>
        exact .forbidden reply principal role (h.lift hw hl) hok hbody hdependency
          (Bool.eq_false_iff.mpr hdenied)
  | limited reply h h429 => exact .limited reply (h.lift hw hl) h429
  | unverified reason h => exact .unverified reason (h.lift hw hl hpast)
  | escaped exc h => exact .escaped exc (h.lift hw hl)

/-- Every answer of the API-key dependencies is one of the request's own exchange: 401 without a key
or when the issuer calls the key unusable, 403 when it names a principal without the capability,
429 when it answered 429, with its `Retry-After`, and 503 for a circuit that is open, a slot that
was not free in time, a failed transmission, or a reply that rejects the service's credential or
cannot be trusted. -/
theorem key_request_verdicts {now : ℚ} {past : KeyHistory} {w : KeyPool}
    (run : Run (client.requests sdk).step (client.start now) past w) {id : ℕ} {request : KeyRequest}
    {res : Except PyExc ApiKeyPrincipal} (ht : w.tasks id = some ⟨request, .ret res⟩) :
    ∃ newer w₁ l older, past = newer ++ (w₁, l) :: older ∧
      KeyVerdict client sdk older w₁ l id request res := by
  obtain ⟨past', v, run', hw, hpast⟩ := (client.wraps sdk).run run
  rcases hw.finished ht with ⟨hnone, hbody⟩ | ⟨apiKey, outcome, hcall, hv, rfl⟩
  · -- a request without a key makes no call
    have hkey : request.key = "" := by
      by_contra hkey
      exact absurd (hnone.symm.trans (if_neg hkey)) (by simp)
    rw [show (client.requests sdk).body request = _ from run_answer_of_noKey hkey] at hbody
    obtain rfl := Prog.ret.inj hbody
    obtain ⟨w₁, hmem⟩ := Scheduler.spawned run ht
    obtain ⟨newer, older, rfl⟩ := List.append_of_mem hmem
    exact ⟨newer, w₁, _, older, rfl, .noKey hkey⟩
  · obtain ⟨-, hkey⟩ := Option.ite_none_left_eq_some.mp hcall
    obtain rfl := Option.some.inj hkey
    obtain ⟨newer', v₁, l', older', rfl, hverdict⟩ :=
      (attributed_of_run run').finished id request.key outcome hv
    obtain ⟨newer, w₁, l, older, rfl, hl, hw₁, -, holder⟩ := hpast.split
    exact ⟨newer, w₁, l, older, rfl, verdict_of_call hw₁ hl holder hverdict⟩

/-- The issuer limits a writer's key for seven seconds. -/
def limitedLabels : List KeyAct :=
  sentLabels writerKeyRequest ++ [.resume 0 (.response ⟨429, some "7", [], none, none⟩)]

theorem key_request_verdicts_limited : ∃ past w newer w₁ l older,
    Run strictRequests.step ((strictClient 1).start 0) past w ∧ past = newer ++ (w₁, l) :: older ∧
      KeyVerdict (strictClient 1) apiKeyV1Sdk older w₁ l 0 writerKeyRequest
        (.error (.httpException tooManyRequests "API key rate limit exceeded"
          [("Retry-After", "7")])) := by
  have heval : (limitedLabels.foldlM strictRequests.step ((strictClient 1).start 0)).any (fun w =>
      decide (w.result 0 = some (.error (apiKeyQuotaDenial (some "7")))) &&
        decide ((w.tasks 0).map Thread.spec = some writerKeyRequest)) = true := by
    decide +kernel
  obtain ⟨w, hw, hdone⟩ := (Option.any_eq_true _ _).mp heval
  simp only [Bool.and_eq_true, decide_eq_true_eq] at hdone
  obtain ⟨past, run, -⟩ := Run.of_foldlM hw
  obtain ⟨newer, w₁, l, older, hpast, hverdict⟩ :=
    key_request_verdicts run (Pool.tasks_of_result hdone.1 hdone.2)
  exact ⟨past, w, newer, w₁, l, older, run, hpast, hverdict⟩

end FastapiM8
