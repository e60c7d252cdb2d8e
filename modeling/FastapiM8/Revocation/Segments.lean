import FastapiM8.Revocation.Client

/-! The segments of an `is_revoked` call. Between two awaits a call either waits again, fails,
or ends with the issuer's reply; only the last one touches the shared cache. -/
namespace FastapiM8

/-- An operation that a client has performed, and its answer. -/
abbrev ClientTraceEvent := Prog.Event ClientOp ClientAns

namespace RemoteRevocationClient

variable (client : RemoteRevocationClient) (sdk : Sdk) {α : Type}

/-- What a status request raises or returns for the outcome of its POST. -/
def checkStatus : Except PyExc Response → Except PyExc Response
  | .error exc => .error exc
  | .ok response =>
    if response.isSuccess then .ok response else .error (.httpStatusError response.statusCode)

/-- The decision that a status request ends with. -/
def interpret (userId : String) : Except PyExc Response → Except PyExc JtiStatusResponse
  | .error exc => .error exc
  | .ok response => (parse sdk response).bind (checkSubject userId)

/-- The rest of a call once its status query has ended. -/
def conclude (jti userId : String) :
    Except PyExc JtiStatusResponse → Prog ClientOp ClientAns (Except PyExc Bool)
  | .error (.revocationDecisionError reason) => .ret (.error (.revocationDecisionError reason))
  | .error exc =>
    .ret (if exc.isException = false then .error exc
      else if client.failClosed then .error (.revocationCheckError exc) else .ok false)
  | .ok .inactive => .ret (.ok true)
  | .ok (.active _ authGeneration) =>
    .call .cachePresent fun present : Bool =>
      if present then
        .call (.cacheIsSuperseded userId authGeneration) fun superseded : Bool =>
          if superseded then .ret (.ok true)
          else .call (.cachePut jti userId authGeneration) fun fits : Bool =>
            .ret (if fits then .ok false else .error .overflowError)
      else .ret (.ok false)

/-- A status request once the provider has answered. -/
def afterHeaders (jti userId : String)
    (next : Except PyExc Response → Prog ClientOp ClientAns α) :
    Except PyExc Headers → Prog ClientOp ClientAns α
  | .error exc => next (.error exc)
  | .ok headers => .call (.post ⟨client.url, jti, userId, client.schemaVersion, headers⟩)
      fun r : Except PyExc Response => next (checkStatus r)

/-- A status request followed by what its caller does with the outcome. -/
def postThen (jti userId : String) (next : Except PyExc Response → Prog ClientOp ClientAns α) :
    Prog ClientOp ClientAns α := .call .authHeaders (client.afterHeaders jti userId next)

/-- What follows a rejected status request once the provider was invalidated. -/
def afterInvalidate (jti userId : String) :
    Except PyExc Bool → Prog ClientOp ClientAns (Except PyExc Bool)
  | .error exc => client.conclude jti userId (.error exc)
  | .ok false => client.conclude jti userId (.error (.httpStatusError 401))
  | .ok true => client.postThen jti userId fun outcome =>
      client.conclude jti userId (interpret sdk userId outcome)

/-- What follows the first status request of a call. -/
def afterFirstPost (jti userId : String) :
    Except PyExc Response → Prog ClientOp ClientAns (Except PyExc Bool)
  | .error (.httpStatusError 401) => .call .authInvalidate (client.afterInvalidate sdk jti userId)
  | outcome => client.conclude jti userId (interpret sdk userId outcome)

variable {client sdk}

theorem run_post_bind (jti userId : String)
    (next : Except PyExc Response → Prog ClientOp ClientAns α) :
    (client.post jti userId).run >>= next = client.postThen jti userId next := by
  refine congrArg (Prog.call ClientOp.authHeaders) (funext fun h : Except PyExc Headers => ?_)
  cases h with
  | error exc => rfl
  | ok headers =>
    refine congrArg (Prog.call (ClientOp.post _)) (funext fun r : Except PyExc Response => ?_)
    cases r with
    | error exc => rfl
    | ok response =>
      have hrest : ∀ e : Except PyExc Unit,
          (do liftM e; pure response : Py ClientOp ClientAns Response).run >>= next =
            next (e.map fun _ => response) := by
        intro e
        cases e <;> rfl
      refine (hrest response.raiseForStatus).trans (congrArg next ?_)
      cases hs : response.isSuccess <;> simp [Response.raiseForStatus, checkStatus, hs, Except.map]

theorem run_askIssuer_eq_conclude (jti userId : String) :
    (client.askIssuer sdk jti userId).run =
      (client.queryStatus sdk jti userId).run >>= client.conclude jti userId := by
  refine (Py.run_attempt_bind _ _).trans (Prog.bind_congr fun outcome => ?_)
  cases outcome with
  | error exc =>
    cases exc with
    | revocationDecisionError reason => rfl
    | _ => cases hf : client.failClosed <;> simp [conclude, hf, PyExc.isException]
  | ok result =>
    cases result with
    | inactive => rfl
    | active owner g =>
      refine congrArg (Prog.call ClientOp.cachePresent) (funext fun present : Bool => ?_)
      cases present with
      | false => rfl
      | true =>
        refine congrArg (Prog.call (ClientOp.cacheIsSuperseded _ _)) (funext fun b : Bool => ?_)
        cases b with
        | true => rfl
        | false =>
          refine congrArg (Prog.call (ClientOp.cachePut _ _ _)) (funext fun fits : Bool => ?_)
          cases fits <;> rfl

theorem run_queryStatus (jti userId : String) :
    (client.queryStatus sdk jti userId).run =
      (client.postRetrying jti userId).run >>= fun outcome =>
        .ret (interpret sdk userId outcome) := by
  have hquery : client.queryStatus sdk jti userId = client.postRetrying jti userId >>=
      fun response => liftM ((parse sdk response).bind (checkSubject userId)) :=
    congrArg (client.postRetrying jti userId >>= ·) (funext fun response => Py.lift_bind _ _)
  rw [hquery, Py.run_bind_lift]
  refine Prog.bind_congr fun outcome => ?_
  cases outcome <;> rfl

theorem afterFirstPost_of_ne {outcome : Except PyExc Response}
    (h : outcome ≠ .error (.httpStatusError 401)) (jti userId : String) :
    client.afterFirstPost sdk jti userId outcome =
      client.conclude jti userId (interpret sdk userId outcome) := by
  unfold afterFirstPost
  split
  · exact absurd rfl h
  · rfl

/-- The tail of a call, with its awaits and its handlers written out. -/
theorem run_askIssuer (jti userId : String) :
    (client.askIssuer sdk jti userId).run =
      client.postThen jti userId (client.afterFirstPost sdk jti userId) := by
  rw [run_askIssuer_eq_conclude, run_queryStatus, postRetrying, Py.run_attempt_bind,
    Prog.bind_assoc, Prog.bind_assoc, run_post_bind]
  refine congrArg (client.postThen jti userId) (funext fun outcome => ?_)
  by_cases h401 : outcome = .error (.httpStatusError 401)
  · subst h401
    refine congrArg (Prog.call ClientOp.authInvalidate) (funext fun r : Except PyExc Bool => ?_)
    cases r with
    | error exc => rfl
    | ok retry =>
      cases retry with
      | false => rfl
      | true => exact run_post_bind jti userId _
  · cases outcome with
    | ok response => rfl
    | error exc =>
      cases exc with
      | httpStatusError code =>
        rw [afterFirstPost_of_ne h401]
        split <;> simp_all
      | _ => rfl

section Requests

variable (client) {jti userId : String} {tr : List ClientTraceEvent}

/-- One status request: the provider raises, or the POST carries the headers it returned. -/
def Requests (jti userId : String) (tr : List ClientTraceEvent) : Prop :=
  (∃ exc, tr = [⟨.authHeaders, .error exc⟩]) ∨
  ∃ headers answer, tr = [⟨.authHeaders, .ok headers⟩,
    ⟨.post ⟨client.url, jti, userId, client.schemaVersion, headers⟩, answer⟩]

/-- The headers that the requests of a trace carry. -/
def presented (tr : List ClientTraceEvent) : List Headers :=
  tr.filterMap fun e =>
    match e.1 with
    | .post request => some request.headers
    | _ => none

variable {client}

theorem postThen_trace {α : Type} {next : Except PyExc Response → Prog ClientOp ClientAns α} {r : α}
    (h : (client.postThen jti userId next).Trace tr (.ret r)) :
    ∃ first rest outcome, tr = first ++ rest ∧ client.Requests jti userId first ∧
      (next outcome).Trace rest (.ret r) := by
  obtain ⟨headers, rest, rfl, hrest⟩ := Prog.trace_call_iff.mp h
  change Except PyExc Headers at headers
  cases headers with
  | error exc => exact ⟨[_], rest, .error exc, rfl, .inl ⟨exc, rfl⟩, hrest⟩
  | ok headers =>
    obtain ⟨answer, rest, rfl, hlast⟩ := Prog.trace_call_iff.mp hrest
    exact ⟨[_, _], rest, checkStatus answer, rfl, .inr ⟨headers, answer, rfl⟩, hlast⟩

/-- A status query makes one request. After a 401 it drops the token of the provider, and makes
a second request when the provider says so. -/
theorem queryStatus_trace {outcome : Except PyExc JtiStatusResponse}
    (h : (client.queryStatus sdk jti userId).run.Trace tr (.ret outcome)) :
    client.Requests jti userId tr ∨ ∃ first, client.Requests jti userId first ∧
      ((∃ answer, tr = first ++ [⟨.authInvalidate, answer⟩]) ∨
        ∃ second, client.Requests jti userId second ∧
          tr = first ++ ⟨.authInvalidate, .ok true⟩ :: second) := by
  rw [run_queryStatus, postRetrying, Py.run_attempt_bind, Prog.bind_assoc, run_post_bind] at h
  obtain ⟨first, rest, posted, rfl, hfirst, hrest⟩ := postThen_trace h
  by_cases h401 : posted = .error (.httpStatusError 401)
  · subst h401
    refine .inr ⟨first, hfirst, ?_⟩
    obtain ⟨retry, rest, rfl, hretry⟩ := Prog.trace_call_iff.mp hrest
    change Except PyExc Bool at retry
    cases retry with
    | error exc =>
      obtain ⟨rfl, -⟩ := Prog.trace_ret_iff.mp hretry
      exact .inl ⟨.error exc, rfl⟩
    | ok retry =>
      cases retry with
      | false =>
        obtain ⟨rfl, -⟩ := Prog.trace_ret_iff.mp hretry
        exact .inl ⟨.ok false, rfl⟩
      | true =>
        have hsecond : ((client.post jti userId).run >>= fun outcome =>
            .ret (interpret sdk userId outcome)).Trace rest (.ret outcome) := hretry
        rw [run_post_bind] at hsecond
        obtain ⟨second, rest, posted, rfl, hposted, hend⟩ := postThen_trace hsecond
        obtain ⟨rfl, -⟩ := Prog.trace_ret_iff.mp hend
        rw [List.append_nil]
        exact .inr ⟨second, hposted, rfl⟩
  · suffices hnil : rest = [] by
      rw [hnil, List.append_nil]
      exact .inl hfirst
    cases posted with
    | ok response => exact (Prog.trace_ret_iff.mp hrest).1
    | error exc =>
      cases exc with
      | httpStatusError code =>
        split at hrest
        · simp_all
        · contradiction
        · exact (Prog.trace_ret_iff.mp hrest).1
      | _ => exact (Prog.trace_ret_iff.mp hrest).1

end Requests

end RemoteRevocationClient

/-- The operations a call can be suspended on. Its status requests carry its own JTI and
assert its own subject. -/
def Awaits (spec : CallSpec) : ClientOp → Prop
  | .authHeaders | .authInvalidate => True
  | .post request => request.jti = spec.jti ∧ request.expectedUserId = spec.userId
  | _ => False

/-- The decision of the issuer that the answer of an awaited operation carries. -/
def reply? (sdk : Sdk) : (o : ClientOp) → ClientAns o → Option JtiStatusResponse
  | .post _, .ok response => if response.isSuccess then response.body.bind sdk.jtiStatus else none
  | _, _ => none

namespace ClientState

/-- Whether the cache knows a generation to be superseded. -/
def isSuperseded (s : ClientState) (userId : String) (authGeneration : ℤ) : Bool :=
  s.cache.any fun c => c.isSuperseded userId authGeneration

/-- Offer an active reply to the cache, which refuses superseded generations itself. -/
def offer (s : ClientState) (jti userId : String) (authGeneration : ℤ) : ClientState :=
  s.mapCache fun c => (c.put s.now jti userId authGeneration).2

/-- What a call answers that offers an active reply: whether the cache knows better, unless the
cache raises. -/
def answer (s : ClientState) (jti userId : String) (authGeneration : ℤ) : Except PyExc Bool :=
  match s.cache with
  | none => .ok false
  | some c => (c.put s.now jti userId authGeneration).1.map fun _ =>
      c.isSuperseded userId authGeneration

/-- The lookup that starts a call: what it answers and the cache it leaves. -/
def lookup (s : ClientState) (spec : CallSpec) : Option Bool × ClientState :=
  match s.cache with
  | none => (none, s)
  | some c =>
    if spec.bypassCache then (none, s)
    else ((c.get s.now spec.jti).1, { s with cache := some (c.get s.now spec.jti).2 })

end ClientState

namespace ClientState

/-- A reply is answered and offered, or its end is no float and it is left out of the cache. -/
theorem answer_cases (s : ClientState) (jti userId : String) (g : ℤ) :
    s.answer jti userId g = .ok (s.isSuperseded userId g) ∨
    ((∃ c, s.cache = some c ∧ floatLimit ≤ c.ttl) ∧
      s.answer jti userId g = .error .overflowError ∧ s.offer jti userId g = s) := by
  obtain ⟨cache, now⟩ := s
  cases cache with
  | none => exact .inl rfl
  | some c =>
    have hanswer : answer ⟨some c, now⟩ jti userId g =
        (c.put now jti userId g).1.map fun _ => c.isSuperseded userId g := rfl
    have hoffer : offer ⟨some c, now⟩ jti userId g = ⟨some (c.put now jti userId g).2, now⟩ := rfl
    rw [hanswer, hoffer]
    rcases c.put_cases now jti userId g with ⟨-, hput⟩ | ⟨hlimit, hput⟩ | ⟨-, -, hput⟩
    · rw [hput]
      exact .inl rfl
    · rw [hput]
      exact .inr ⟨⟨c, rfl, hlimit⟩, rfl, rfl⟩
    · rw [hput]
      exact .inl rfl

theorem eq_of_answer {s : ClientState} {jti userId : String} {g : ℤ} {b : Bool}
    (h : s.answer jti userId g = .ok b) : b = s.isSuperseded userId g := by
  rcases s.answer_cases jti userId g with heq | ⟨-, heq, -⟩
  · exact (Except.ok.inj (heq.symm.trans h)).symm
  · rw [heq] at h
    contradiction

end ClientState

/-- How a segment of a call can end, given the answer that started it. -/
inductive Segment (client : RemoteRevocationClient) (sdk : Sdk) (spec : CallSpec) (o : ClientOp)
    (a : ClientAns o) (s : ClientState) :
    Prog ClientOp ClientAns (Except PyExc Bool) × ClientState → Prop
  | waits (h : reply? sdk o a = none) (o' : ClientOp)
      (k : ClientAns o' → Prog ClientOp ClientAns (Except PyExc Bool)) (ho : Awaits spec o') :
      Segment client sdk spec o a s (.call o' k, s)
  | fails (h : reply? sdk o a = none) (r : Except PyExc Bool)
      (hr : ∀ b, r = .ok b → b = false ∧ client.failClosed = false) :
      Segment client sdk spec o a s (.ret r, s)
  | refuses (owner : String) (g : ℤ) (h : reply? sdk o a = some (.active owner g))
      (hne : owner ≠ spec.userId) :
      Segment client sdk spec o a s (.ret (.error (.revocationDecisionError "subject_mismatch")), s)
  | denies (h : reply? sdk o a = some .inactive) :
      Segment client sdk spec o a s (.ret (.ok true), s)
  | decides (g : ℤ) (h : reply? sdk o a = some (.active spec.userId g)) :
      Segment client sdk spec o a s
        (.ret (s.answer spec.jti spec.userId g), s.offer spec.jti spec.userId g)

variable {client : RemoteRevocationClient} {sdk : Sdk} {spec : CallSpec} {s : ClientState}

/-- An active decision ends its call: it is offered to the cache, or refused when it names
another subject. -/
theorem Segment.of_active {o : ClientOp} {a : ClientAns o}
    {r : Prog ClientOp ClientAns (Except PyExc Bool) × ClientState} {owner : String} {g : ℤ}
    (hseg : Segment client sdk spec o a s r) (h : reply? sdk o a = some (.active owner g)) :
    (owner = spec.userId ∧
      r = (.ret (s.answer spec.jti owner g), s.offer spec.jti owner g)) ∨
    (owner ≠ spec.userId ∧
      r = (.ret (.error (.revocationDecisionError "subject_mismatch")), s)) := by
  cases hseg with
  | waits hnone =>
    rw [hnone] at h
    contradiction
  | fails hnone =>
    rw [hnone] at h
    contradiction
  | denies hinactive =>
    rw [hinactive] at h
    simp at h
  | refuses owner' g' hactive hne =>
    rw [hactive] at h
    obtain ⟨rfl, rfl⟩ := JtiStatusResponse.active.inj (Option.some.inj h)
    exact .inr ⟨hne, rfl⟩
  | decides g' hactive =>
    rw [hactive] at h
    obtain ⟨rfl, rfl⟩ := JtiStatusResponse.active.inj (Option.some.inj h)
    exact .inl ⟨rfl, rfl⟩

theorem Awaits.exec_eq_none {o : ClientOp} (h : Awaits spec o) (s : ClientState) :
    o.exec s = none := by
  cases o <;> first | rfl | exact absurd h id

namespace RemoteRevocationClient

/-- An active decision is offered to the cache, which may know better. -/
theorem settle_conclude_active (jti userId owner : String) (g : ℤ) (s : ClientState) :
    (client.conclude jti userId (.ok (.active owner g))).settle ClientOp.exec s =
      (.ret (s.answer jti userId g), s.offer jti userId g) := by
  obtain ⟨cache, now⟩ := s
  cases cache with
  | none => rfl
  | some c =>
    have hrest : (client.conclude jti userId (.ok (.active owner g))).settle ClientOp.exec
        ⟨some c, now⟩ = (if c.isSuperseded userId g then .ret (.ok true)
          else .call (.cachePut jti userId g) fun fits : Bool =>
            .ret (if fits then .ok false else .error .overflowError) :
            Prog ClientOp ClientAns (Except PyExc Bool)).settle ClientOp.exec ⟨some c, now⟩ := rfl
    have hanswer : ClientState.answer ⟨some c, now⟩ jti userId g =
        (c.put now jti userId g).1.map fun _ => c.isSuperseded userId g := rfl
    have hoffer : ClientState.offer ⟨some c, now⟩ jti userId g =
        ⟨some (c.put now jti userId g).2, now⟩ := rfl
    rw [hrest, hanswer, hoffer]
    cases hsup : c.isSuperseded userId g with
    | false =>
      have hput : (if (c.put now jti userId g).1.isOk then .ok false else .error .overflowError :
          Except PyExc Bool) = (c.put now jti userId g).1.map fun _ => false := by
        rw [JtiRevocationCache.put_fst]
        split <;> rfl
      exact congrArg (fun outcome => (Prog.ret outcome, _)) hput
    | true =>
      have hlt : g < c.watermark userId := of_decide_eq_true hsup
      rw [JtiRevocationCache.put_of_lt hlt]
      rfl

/-- The answer of an awaited operation is the outcome of a status request: a failure carries
no decision, a reply carries the one its body parses to. -/
def Carries (sdk : Sdk) (o : ClientOp) (a : ClientAns o) : Except PyExc Response → Prop
  | .error _ => reply? sdk o a = none
  | .ok response => reply? sdk o a = response.body.bind sdk.jtiStatus

theorem carries_checkStatus {request : StatusRequest} (r : Except PyExc Response) :
    Carries sdk (.post request) r (checkStatus r) := by
  cases r with
  | error exc => rfl
  | ok response => cases hs : response.isSuccess <;> simp [checkStatus, hs, Carries, reply?]

/-- How a call ends that concludes with an exception: its last answer carried no decision. -/
theorem segment_conclude_error {o : ClientOp} {a : ClientAns o} (hnone : reply? sdk o a = none)
    (exc : PyExc) :
    Segment client sdk spec o a s
      ((client.conclude spec.jti spec.userId (.error exc)).settle ClientOp.exec s) := by
  cases exc with
  | revocationDecisionError reason => exact .fails hnone _ (fun b hb => by cases hb)
  | _ =>
    refine .fails hnone _ (fun b hb => ?_)
    cases hf : client.failClosed <;> simp_all [PyExc.isException]

/-- How a call ends when it concludes with the outcome its last answer carries. -/
theorem segment_conclude {o : ClientOp} {a : ClientAns o} {outcome : Except PyExc Response}
    (h : Carries sdk o a outcome) :
    Segment client sdk spec o a s
      ((client.conclude spec.jti spec.userId (interpret sdk spec.userId outcome)).settle
        ClientOp.exec s) := by
  cases outcome with
  | error exc => exact segment_conclude_error h exc
  | ok response =>
    have hreply : reply? sdk o a = response.body.bind sdk.jtiStatus := h
    cases hp : response.body.bind sdk.jtiStatus with
    | none =>
      rw [interpret, parse_of_none sdk hp]
      exact segment_conclude_error (hreply.trans hp) _
    | some result =>
      rw [hp] at hreply
      rw [interpret, parse_of_some sdk hp]
      cases result with
      | inactive => exact .denies hreply
      | active owner g =>
        by_cases hown : owner = spec.userId
        · subst hown
          rw [Except.bind, checkSubject, if_pos rfl, settle_conclude_active]
          exact .decides g hreply
        · rw [Except.bind, checkSubject, if_neg hown]
          exact .refuses owner g hreply hown

/-- A call that concludes does not wait again. -/
theorem settled_conclude (outcome : Except PyExc JtiStatusResponse) (jti userId : String)
    (s : ClientState) :
    ∃ answer, ((client.conclude jti userId outcome).settle ClientOp.exec s).1 = .ret answer := by
  cases outcome with
  | error exc => cases exc <;> exact ⟨_, rfl⟩
  | ok result =>
    cases result with
    | inactive => exact ⟨_, rfl⟩
    | active owner g =>
      rw [settle_conclude_active]
      exact ⟨_, rfl⟩

theorem obeys_conclude {G : (o : ClientOp) → ClientAns o → ClientState →
      Prog ClientOp ClientAns (Except PyExc Bool) × ClientState → Prop}
    (outcome : Except PyExc JtiStatusResponse) (jti userId : String) (s : ClientState) :
    Prog.Obeys ClientOp.exec G ((client.conclude jti userId outcome).settle ClientOp.exec s).1 := by
  obtain ⟨answer, hsettled⟩ := settled_conclude outcome jti userId s
  rw [hsettled]
  exact .ret answer

/-- The guarantee of a call: it waits only for operations of its own, and every segment ends
in one of the listed ways. -/
def CallSegment (client : RemoteRevocationClient) (sdk : Sdk) (spec : CallSpec) (o : ClientOp)
    (a : ClientAns o) (s : ClientState)
    (r : Prog ClientOp ClientAns (Except PyExc Bool) × ClientState) : Prop :=
  Awaits spec o ∧ Segment client sdk spec o a s r

theorem obeys_postThen {next : Except PyExc Response → Prog ClientOp ClientAns (Except PyExc Bool)}
    (hnext : ∀ (o : ClientOp) (a : ClientAns o) outcome s, Carries sdk o a outcome →
      Segment client sdk spec o a s ((next outcome).settle ClientOp.exec s))
    (hlater : ∀ outcome s, Prog.Obeys ClientOp.exec (CallSegment client sdk spec)
      ((next outcome).settle ClientOp.exec s).1) :
    Prog.Obeys ClientOp.exec (CallSegment client sdk spec)
      (client.postThen spec.jti spec.userId next) := by
  have hpost : ∀ headers, Awaits spec
      (.post ⟨client.url, spec.jti, spec.userId, client.schemaVersion, headers⟩) :=
    fun headers => ⟨rfl, rfl⟩
  refine .call _ _ (fun h s => ⟨trivial, ?_⟩) (fun h s => ?_)
  · change Except PyExc Headers at h
    cases h with
    | error exc => exact hnext ClientOp.authHeaders (Except.error exc) (.error exc) s rfl
    | ok headers => exact .waits rfl _ _ (hpost headers)
  · change Except PyExc Headers at h
    cases h with
    | error exc => exact hlater (.error exc) s
    | ok headers =>
      refine Prog.Obeys.call (ClientOp.post _) _ (fun r s => ⟨hpost headers, ?_⟩) (fun r s => ?_)
      · exact hnext (.post _) r (checkStatus r) s (carries_checkStatus r)
      · exact hlater (checkStatus r) s

/-- Every segment of a call that asks the issuer ends in one of the listed ways. -/
theorem obeys_askIssuer :
    Prog.Obeys ClientOp.exec (CallSegment client sdk spec)
      (client.askIssuer sdk spec.jti spec.userId).run := by
  have hretry : Prog.Obeys ClientOp.exec (CallSegment client sdk spec)
      (client.postThen spec.jti spec.userId fun outcome =>
        client.conclude spec.jti spec.userId (interpret sdk spec.userId outcome)) :=
    obeys_postThen (fun o a outcome s h => segment_conclude h)
      (fun outcome s => obeys_conclude _ _ _ s)
  rw [run_askIssuer]
  have hrejected : Prog.Obeys ClientOp.exec (CallSegment client sdk spec)
      (client.afterFirstPost sdk spec.jti spec.userId (.error (.httpStatusError 401))) := by
    refine Prog.Obeys.call ClientOp.authInvalidate _ (fun r s => ⟨trivial, ?_⟩) (fun r s => ?_)
    · match r with
      | .error exc =>
        exact segment_conclude (show Carries sdk ClientOp.authInvalidate _ (.error exc) from rfl)
      | .ok false =>
        exact segment_conclude
          (show Carries sdk ClientOp.authInvalidate _ (.error (.httpStatusError 401)) from rfl)
      | .ok true => exact .waits rfl ClientOp.authHeaders _ trivial
    · match r with
      | .error exc => exact obeys_conclude (.error exc) spec.jti spec.userId s
      | .ok false => exact obeys_conclude (.error (.httpStatusError 401)) spec.jti spec.userId s
      | .ok true => exact hretry
  refine obeys_postThen (fun o a outcome s h => ?_) (fun outcome s => ?_)
  · by_cases h401 : outcome = .error (.httpStatusError 401)
    · subst h401
      exact .waits h ClientOp.authInvalidate _ trivial
    · rw [afterFirstPost_of_ne h401]
      exact segment_conclude h
  · by_cases h401 : outcome = .error (.httpStatusError 401)
    · subst h401
      exact hrejected
    · rw [afterFirstPost_of_ne h401]
      exact obeys_conclude _ _ _ s

/-- A call ends with its lookup when that hits, and asks the issuer otherwise. -/
def startCall (client : RemoteRevocationClient) (sdk : Sdk) (spec : CallSpec) (s : ClientState) :
    Prog ClientOp ClientAns (Except PyExc Bool) × ClientState :=
  match s.lookup spec with
  | (some hit, s') => (.ret (.ok hit), s')
  | (none, s') => ((client.askIssuer sdk spec.jti spec.userId).run, s')

theorem startCall_snd (spec : CallSpec) (s : ClientState) :
    (client.startCall sdk spec s).2 = (s.lookup spec).2 := by
  unfold startCall
  split <;> simp_all

theorem startCall_hit {s : ClientState} {hit : Bool} (h : (s.lookup spec).1 = some hit) :
    (client.startCall sdk spec s).1 = .ret (.ok hit) := by
  unfold startCall
  split <;> simp_all

theorem startCall_miss {s : ClientState} (h : (s.lookup spec).1 = none) :
    (client.startCall sdk spec s).1 = (client.askIssuer sdk spec.jti spec.userId).run := by
  unfold startCall
  split <;> simp_all

theorem settle_isRevoked (spec : CallSpec) (s : ClientState) :
    (client.isRevoked sdk spec.jti spec.userId spec.bypassCache).run.settle ClientOp.exec s =
      client.startCall sdk spec s := by
  obtain ⟨cache, now⟩ := s
  obtain ⟨jti, userId, bypassCache⟩ := spec
  have hask : ∀ s, (client.askIssuer sdk jti userId).run.settle ClientOp.exec s =
      ((client.askIssuer sdk jti userId).run, s) := by
    intro s
    rw [run_askIssuer]
    rfl
  cases cache with
  | none => exact hask ⟨none, now⟩
  | some c =>
    cases bypassCache with
    | true => exact hask ⟨some c, now⟩
    | false =>
      have hpresent : ClientOp.exec .cachePresent ⟨some c, now⟩ =
          some (true, ⟨some c, now⟩) := rfl
      have hget : ClientOp.exec (.cacheGet jti) ⟨some c, now⟩ =
          some ((c.get now jti).1, ⟨some (c.get now jti).2, now⟩) := rfl
      have hlookup : ClientState.lookup ⟨some c, now⟩ ⟨jti, userId, false⟩ =
          ((c.get now jti).1, ⟨some (c.get now jti).2, now⟩) := rfl
      rw [startCall, hlookup]
      refine (Prog.settle_call_some hpresent).trans ((Prog.settle_call_some hget).trans ?_)
      cases (c.get now jti).1 with
      | none => exact hask _
      | some hit => rfl

/-- However a call starts, its segments end in the listed ways. -/
theorem obeys_isRevoked (spec : CallSpec) (s : ClientState) :
    Prog.Obeys ClientOp.exec (CallSegment client sdk spec)
      ((client.isRevoked sdk spec.jti spec.userId spec.bypassCache).run.settle
        ClientOp.exec s).1 := by
  rw [settle_isRevoked]
  cases hlookup : (s.lookup spec).1 with
  | some hit =>
    rw [startCall_hit hlookup]
    exact .ret _
  | none =>
    rw [startCall_miss hlookup]
    exact obeys_askIssuer

end RemoteRevocationClient
end FastapiM8
