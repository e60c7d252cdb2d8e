import FastapiM8.Revocation.Metrics

/-! What the counters of a registry stand for: the lookups of the general tier, and the checks
that ended without a decision of the issuer. -/
namespace FastapiM8

/-- What a lookup finds in the cache, if the call makes one. -/
def ClientState.lookedUp (s : ClientState) (spec : CallSpec) : Option String :=
  s.cache.bind fun c =>
    if spec.bypassCache then none
    else some (if (c.get s.now spec.jti).1.isSome then "hit" else "miss")

/-- The answer of an operation is a decision of the issuer. -/
def decided (sdk : Sdk) : (o : MeteredOp) → MeteredAns o → Bool
  | .inl o, a => (reply? sdk o a).isSome
  | .inr _, _ => false

/-- The mode under which a check counts that ends in this way: it raises one of its own errors,
or it accepts without a decision. -/
def failure : Bool → Except PyExc Bool → Option String
  | _, .error (.revocationDecisionError _) => some "fail_closed"
  | _, .error (.revocationCheckError _) => some "fail_closed"
  | false, .ok false => some "fail_open"
  | _, _ => none

/-- What a segment ends with that is started by this answer. -/
def segmentFailure (sdk : Sdk) (o : MeteredOp) (a : MeteredAns o) :
    Prog MeteredOp MeteredAns (Except PyExc Bool) → Option String
  | .ret outcome => failure (decided sdk o a) outcome
  | .call _ _ => none

namespace RemoteRevocationClient

variable {client : RemoteRevocationClient} {sdk : Sdk}

/-- What the records of a call leave. -/
def noteLookup (client : RemoteRevocationClient) (obs : Observability) :
    Option String → Observability
  | none => obs
  | some result => (obs.recordLookup client.cacheTtl result).2

def noteFailure (obs : Observability) : Option String → Observability
  | none => obs
  | some mode => (obs.recordCheckFailure mode).2

/-- The outcome of a status query is the decision that its last answer carries; without one it
is an error, and so it is for a subject that was not asserted. -/
def Decides (sdk : Sdk) (userId : String) (o : ClientOp) (a : ClientAns o) :
    Except PyExc JtiStatusResponse → Prop
  | .ok result =>
    reply? sdk o a = some result ∧ ∀ owner g, result = .active owner g → owner = userId
  | .error exc => reply? sdk o a = none ∨ exc = .revocationDecisionError "subject_mismatch"

/-- The operations that a status query waits for. -/
def Waits : ClientOp → Prop
  | .authHeaders | .authInvalidate | .post _ => True
  | _ => False

theorem exec_of_waits {o : ClientOp} (h : Waits o) (s : ClientState) : o.exec s = none := by
  cases o <;> first | rfl | exact absurd h id

theorem decides_interpret {o : ClientOp} {a : ClientAns o} {outcome : Except PyExc Response}
    (h : Carries sdk o a outcome) (userId : String) :
    Decides sdk userId o a (interpret sdk userId outcome) := by
  cases outcome with
  | error exc => exact .inl h
  | ok response =>
    have hreply : reply? sdk o a = response.body.bind sdk.jtiStatus := h
    cases hp : response.body.bind sdk.jtiStatus with
    | none =>
      rw [interpret, parse_of_none sdk hp]
      exact .inl (hreply.trans hp)
    | some result =>
      rw [hp] at hreply
      rw [interpret, parse_of_some sdk hp, Except.bind]
      cases result with
      | inactive => exact ⟨hreply, fun owner g hactive => by contradiction⟩
      | active owner g =>
        by_cases hown : owner = userId
        · rw [checkSubject, if_pos hown]
          refine ⟨hreply, fun owner' g' hactive => ?_⟩
          obtain ⟨rfl, rfl⟩ := JtiStatusResponse.active.inj hactive
          exact hown
        · rw [checkSubject, if_neg hown]
          exact .inr rfl

section Query

variable {α : Type} {L : (o : ClientOp) → ClientAns o → α → Prop} {jti userId : String}

variable (sdk) in
theorem concludes_postThen {next : Except PyExc Response → Prog ClientOp ClientAns α}
    (hnext : ∀ o a outcome, Carries sdk o a outcome → ∀ x, next outcome = .ret x → L o a x)
    (hlater : ∀ outcome, (next outcome).Concludes Waits L) :
    (client.postThen jti userId next).Concludes Waits L := by
  refine ⟨trivial, fun h => ?_⟩
  change Except PyExc Headers at h
  cases h with
  | error exc => exact ⟨hnext .authHeaders (.error exc) (.error exc) rfl, hlater (.error exc)⟩
  | ok headers =>
    refine ⟨fun x hx => by contradiction, trivial, fun r => ?_⟩
    exact ⟨hnext (.post _) r _ (carries_checkStatus r), hlater _⟩

end Query

/-- What follows the first status request of a query. -/
def retried (client : RemoteRevocationClient) (sdk : Sdk) (jti userId : String) :
    Except PyExc Response → Prog ClientOp ClientAns (Except PyExc JtiStatusResponse)
  | .error (.httpStatusError 401) => .call .authInvalidate fun retry : Except PyExc Bool =>
    match retry with
    | .error exc => .ret (.error exc)
    | .ok false => .ret (.error (.httpStatusError 401))
    | .ok true => client.postThen jti userId fun outcome => .ret (interpret sdk userId outcome)
  | outcome => .ret (interpret sdk userId outcome)

theorem retried_of_ne {outcome : Except PyExc Response}
    (h : outcome ≠ .error (.httpStatusError 401)) (jti userId : String) :
    client.retried sdk jti userId outcome = .ret (interpret sdk userId outcome) := by
  unfold retried
  split
  · exact absurd rfl h
  · rfl

theorem run_queryStatus_retried (jti userId : String) :
    (client.queryStatus sdk jti userId).run =
      client.postThen jti userId (client.retried sdk jti userId) := by
  rw [run_queryStatus, postRetrying, Py.run_attempt_bind, Prog.bind_assoc, run_post_bind]
  refine congrArg (client.postThen jti userId) (funext fun outcome => ?_)
  by_cases h401 : outcome = .error (.httpStatusError 401)
  · subst h401
    refine congrArg (Prog.call ClientOp.authInvalidate) (funext fun r : Except PyExc Bool => ?_)
    cases r with
    | error exc => rfl
    | ok retry =>
      cases retry with
      | false => rfl
      | true => exact run_post_bind jti userId _
  · rw [retried_of_ne h401]
    cases outcome with
    | ok response => rfl
    | error exc =>
      cases exc with
      | httpStatusError code => split <;> simp_all
      | _ => rfl

/-- A status query waits for each of its operations, and ends with what the last one carries. -/
theorem concludes_queryStatus (jti userId : String) :
    (client.queryStatus sdk jti userId).run.Concludes Waits (Decides sdk userId) := by
  have hend : ∀ (o : ClientOp) (a : ClientAns o) outcome, Carries sdk o a outcome →
      ∀ x, (.ret (interpret sdk userId outcome) : Prog ClientOp ClientAns _) = .ret x →
        Decides sdk userId o a x := by
    intro o a outcome h x hx
    obtain rfl := Prog.ret.inj hx
    exact decides_interpret h userId
  have hsecond : (client.postThen jti userId fun outcome =>
      .ret (interpret sdk userId outcome)).Concludes Waits (Decides sdk userId) :=
    concludes_postThen sdk hend fun _ => trivial
  rw [run_queryStatus_retried]
  refine concludes_postThen sdk (fun o a outcome h x hx => ?_) (fun outcome => ?_)
  · by_cases h401 : outcome = .error (.httpStatusError 401)
    · subst h401
      contradiction
    · rw [retried_of_ne h401] at hx
      exact hend o a outcome h x hx
  · by_cases h401 : outcome = .error (.httpStatusError 401)
    · subst h401
      refine ⟨trivial, fun retry => ?_⟩
      match retry with
      | .error exc => exact ⟨hend .authInvalidate (.error exc) (.error exc) rfl, trivial⟩
      | .ok false =>
        exact ⟨hend .authInvalidate (.ok false) (.error (.httpStatusError 401)) rfl, trivial⟩
      | .ok true => exact ⟨fun x hx => by contradiction, hsecond⟩
    · rw [retried_of_ne h401]
      trivial

/-- The rest of a metered call once its status query has ended. -/
def meteredConclude (client : RemoteRevocationClient) (jti userId : String) :
    Except PyExc JtiStatusResponse → Prog MeteredOp MeteredAns (Except PyExc Bool)
  | .error (.revocationDecisionError reason) =>
    .call (.inr (.recordCheckFailure "fail_closed")) fun answer : Except PyExc Unit =>
      .ret (answer.bind fun _ => .error (.revocationDecisionError reason))
  | .error exc =>
    if exc.isException = false then .ret (.error exc)
    else
      .call (.inr (.recordCheckFailure client.failureMode)) fun answer : Except PyExc Unit =>
        .ret (answer.bind fun _ =>
          if client.failClosed then .error (.revocationCheckError exc) else .ok false)
  | .ok result => (client.conclude jti userId (.ok result)).inl

theorem run_meteredAskIssuer (jti userId : String) :
    (client.meteredAskIssuer sdk jti userId).run =
      (client.queryStatus sdk jti userId).run.inl >>= client.meteredConclude jti userId := by
  unfold meteredAskIssuer
  refine (Py.run_attempt_bind _ _).trans (Prog.bind_congr fun outcome => ?_)
  cases outcome with
  | error exc =>
    cases exc with
    | revocationDecisionError reason =>
      refine congrArg (Prog.call (Sum.inr _)) (funext fun answer : Except PyExc Unit => ?_)
      cases answer <;> rfl
    | cancelledError => rfl
    | _ =>
      refine congrArg (Prog.call (Sum.inr _)) (funext fun answer : Except PyExc Unit => ?_)
      cases answer with
      | error exc => rfl
      | ok _ => cases hf : client.failClosed <;> simp <;> rfl
  | ok result =>
    cases result with
    | inactive => rfl
    | active owner g =>
      refine congrArg (Prog.call (Sum.inl ClientOp.cachePresent)) (funext fun present : Bool => ?_)
      cases present with
      | false => rfl
      | true =>
        refine congrArg (Prog.call (Sum.inl (ClientOp.cacheIsSuperseded _ _)))
          (funext fun b : Bool => ?_)
        cases b with
        | true => rfl
        | false =>
          refine congrArg (Prog.call (Sum.inl (ClientOp.cachePut _ _ _)))
            (funext fun fits : Bool => ?_)
          cases fits <;> rfl

/-- A failure that is recorded before it is raised or passed over. -/
theorem settle_recordCheckFailure (mode : String) (outcome : Except PyExc Bool)
    (s : ClientState × Observability) :
    (Prog.call (.inr (.recordCheckFailure mode)) (fun answer : Except PyExc Unit =>
        .ret (answer.bind fun _ => outcome)) : Prog MeteredOp MeteredAns (Except PyExc Bool)).settle
          (Prog.both ClientOp.exec client.book) s =
      if s.2.Stale then (.ret (.error (.valueError none)), s)
      else (.ret outcome, s.1, (s.2.recordCheckFailure mode).2) := by
  obtain ⟨c, obs⟩ := s
  refine (Prog.settle_inr (MetricOp.recordCheckFailure mode) _ c obs).trans ?_
  have hbook : client.book (.recordCheckFailure mode) obs = obs.recordCheckFailure mode := rfl
  rw [hbook]
  by_cases hstale : obs.Stale
  · rw [if_pos hstale, Observability.recordCheckFailure, Observability.record_of_stale hstale]
    rfl
  · have hok : (obs.recordCheckFailure mode).1 = .ok () :=
      (Observability.record_of_not_stale hstale _).1
    rw [if_neg hstale, hok]
    rfl

/-- A segment that an answer of the provider or the issuer starts: the failure that it ends with
is recorded, and nothing else. -/
def MeteredSegment (sdk : Sdk) (o : MeteredOp) (a : MeteredAns o) (s : ClientState × Observability)
    (r : Prog MeteredOp MeteredAns (Except PyExc Bool) × (ClientState × Observability)) : Prop :=
  (∃ o', o = .inl o' ∧ Waits o') ∧ r.2.2 = noteFailure s.2 (segmentFailure sdk o a r.1)

theorem noted_recordCheckFailure {mode : String} {outcome : Except PyExc Bool} {o : MeteredOp}
    {a : MeteredAns o} (h : failure (decided sdk o a) outcome = some mode)
    {r : Prog MeteredOp MeteredAns (Except PyExc Bool) × (ClientState × Observability)}
    {s : ClientState × Observability}
    (hr : r = if s.2.Stale then (.ret (.error (.valueError none)), s)
      else (.ret outcome, s.1, (s.2.recordCheckFailure mode).2)) :
    r.2.2 = noteFailure s.2 (segmentFailure sdk o a r.1) := by
  by_cases hstale : s.2.Stale
  · rw [if_pos hstale] at hr
    subst hr
    rfl
  · rw [if_neg hstale] at hr
    subst hr
    show (s.2.recordCheckFailure mode).2 = noteFailure s.2 (failure (decided sdk o a) outcome)
    rw [h]
    rfl

/-- A call that concludes records its failure under the mode that it ends with. -/
theorem noted_meteredConclude {o : ClientOp} {a : ClientAns o} {jti userId : String}
    {outcome : Except PyExc JtiStatusResponse} (h : Decides sdk userId o a outcome)
    (s : ClientState × Observability) :
    ((client.meteredConclude jti userId outcome).settle
        (Prog.both ClientOp.exec client.book) s).2.2 =
      noteFailure s.2 (segmentFailure sdk (.inl o) a
        ((client.meteredConclude jti userId outcome).settle
          (Prog.both ClientOp.exec client.book) s).1) := by
  cases outcome with
  | error exc =>
    have hother : (∀ reason, exc ≠ .revocationDecisionError reason) → exc.isException = true →
        failure (decided sdk (.inl o) a)
          (if client.failClosed then .error (.revocationCheckError exc) else .ok false) =
            some client.failureMode := by
      intro hne _
      have hnone : reply? sdk o a = none := h.resolve_right (hne _)
      have hdecided : decided sdk (.inl o) a = false := by simp [decided, hnone]
      rw [hdecided, failureMode]
      cases client.failClosed <;> rfl
    cases exc with
    | revocationDecisionError reason =>
      refine noted_recordCheckFailure ?_ (settle_recordCheckFailure "fail_closed" _ s)
      cases decided sdk (.inl o) a <;> rfl
    | cancelledError => cases hd : decided sdk (.inl o) a <;> rfl
    | _ =>
      exact noted_recordCheckFailure (hother (by simp) rfl) (settle_recordCheckFailure _ _ s)
  | ok result =>
    obtain ⟨hreply, hown⟩ := h
    obtain ⟨c, obs⟩ := s
    have hdecided : decided sdk (.inl o) a = true := by simp [decided, hreply]
    unfold meteredConclude
    rw [Prog.settle_inl]
    cases result with
    | inactive =>
      show obs = noteFailure obs (failure (decided sdk (.inl o) a) (.ok true))
      rw [hdecided]
      rfl
    | active owner g =>
      rw [settle_conclude_active]
      show obs = noteFailure obs (failure (decided sdk (.inl o) a) (c.answer jti userId g))
      rw [hdecided]
      rcases c.answer_cases jti userId g with hanswer | ⟨-, hanswer, -⟩
      · rw [hanswer]
        cases c.isSuperseded userId g <;> rfl
      · rw [hanswer]
        rfl

/-- A call that concludes does not wait again. -/
theorem obeys_meteredConclude {G : (o : MeteredOp) → MeteredAns o → ClientState × Observability →
      Prog MeteredOp MeteredAns (Except PyExc Bool) × (ClientState × Observability) → Prop}
    (jti userId : String) (outcome : Except PyExc JtiStatusResponse)
    (s : ClientState × Observability) :
    Prog.Obeys (Prog.both ClientOp.exec client.book) G
      ((client.meteredConclude jti userId outcome).settle
        (Prog.both ClientOp.exec client.book) s).1 := by
  have hrecorded : ∀ mode answer, Prog.Obeys (Prog.both ClientOp.exec client.book) G
      ((Prog.call (.inr (.recordCheckFailure mode)) (fun recorded : Except PyExc Unit =>
        .ret (recorded.bind fun _ => answer)) :
          Prog MeteredOp MeteredAns (Except PyExc Bool)).settle
            (Prog.both ClientOp.exec client.book) s).1 := by
    intro mode answer
    rw [settle_recordCheckFailure]
    split <;> exact .ret _
  cases outcome with
  | error exc =>
    cases exc with
    | revocationDecisionError reason => exact hrecorded _ _
    | cancelledError => exact .ret _
    | _ => exact hrecorded _ _
  | ok result =>
    obtain ⟨c, obs⟩ := s
    obtain ⟨answer, hanswer⟩ := @settled_conclude client (.ok result) jti userId c
    unfold meteredConclude
    rw [Prog.settle_inl, hanswer]
    exact .ret answer

/-- Every segment of a metered call records the failure that it ends with. -/
theorem obeys_meteredAskIssuer (jti userId : String) (s : ClientState × Observability) :
    Prog.Obeys (Prog.both ClientOp.exec client.book) (MeteredSegment sdk)
      ((client.meteredAskIssuer sdk jti userId).run.settle
        (Prog.both ClientOp.exec client.book) s).1 := by
  rw [run_meteredAskIssuer]
  refine (concludes_queryStatus jti userId).obeys_bind (fun o ho s => exec_of_waits ho s) ?_ ?_
    (obeys_meteredConclude jti userId) s
  · intro o a s o' k ho _
    exact ⟨⟨o, rfl, ho⟩, rfl⟩
  · intro o a outcome s ho h
    exact ⟨⟨o, rfl, ho⟩, noted_meteredConclude h s⟩

/-- A call that asks the issuer waits at once. -/
theorem settle_meteredAskIssuer (jti userId : String) (s : ClientState × Observability) :
    (client.meteredAskIssuer sdk jti userId).run.settle (Prog.both ClientOp.exec client.book) s =
      ((client.meteredAskIssuer sdk jti userId).run, s) := by
  rw [run_meteredAskIssuer, run_queryStatus_retried]
  exact Prog.settle_inl_none (show ClientOp.exec .authHeaders s.1 = none from rfl) s.2

/-- The books after the lookup of a call, and the rest of the call. -/
def Started (client : RemoteRevocationClient) (sdk : Sdk) (spec : CallSpec)
    (s : ClientState × Observability)
    (r : Prog MeteredOp MeteredAns (Except PyExc Bool) × (ClientState × Observability)) : Prop :=
  r.2.2 = client.noteLookup s.2 (s.1.lookedUp spec) ∧
    Prog.Obeys (Prog.both ClientOp.exec client.book) (MeteredSegment sdk) r.1

theorem started_askIssuer {spec : CallSpec} {s s' : ClientState × Observability}
    (h : s'.2 = client.noteLookup s.2 (s.1.lookedUp spec)) (jti userId : String) :
    client.Started sdk spec s ((client.meteredAskIssuer sdk jti userId).run.settle
      (Prog.both ClientOp.exec client.book) s') := by
  refine ⟨?_, obeys_meteredAskIssuer jti userId s'⟩
  rw [settle_meteredAskIssuer]
  exact h

/-- A lookup is recorded before the call goes on, or ends with what the record raises. -/
theorem settle_recordLookup (result : String) (rest : Py MeteredOp MeteredAns Bool)
    (c : ClientState) (obs : Observability) :
    (∃ exc, ((MetricOp.recordLookup result).await >>= fun _ => rest).run.settle
        (Prog.both ClientOp.exec client.book) (c, obs) =
      (.ret (.error exc), c, (obs.recordLookup client.cacheTtl result).2)) ∨
    ((MetricOp.recordLookup result).await >>= fun _ => rest).run.settle
        (Prog.both ClientOp.exec client.book) (c, obs) =
      rest.run.settle (Prog.both ClientOp.exec client.book)
        (c, (obs.recordLookup client.cacheTtl result).2) := by
  have hbook : client.book (.recordLookup result) obs = obs.recordLookup client.cacheTtl result :=
    rfl
  have hsettle : ((MetricOp.recordLookup result).await >>= fun _ => rest).run.settle
      (Prog.both ClientOp.exec client.book) (c, obs) =
      Prog.settle (Prog.both ClientOp.exec client.book)
        (ExceptT.bindCont (fun _ => rest) (client.book (.recordLookup result) obs).1)
        (c, (client.book (.recordLookup result) obs).2) :=
    Prog.settle_inr (MetricOp.recordLookup result) _ c obs
  rw [hbook] at hsettle
  cases houtcome : (obs.recordLookup client.cacheTtl result).1 with
  | error exc =>
    rw [houtcome] at hsettle
    exact .inl ⟨exc, hsettle⟩
  | ok _ =>
    rw [houtcome] at hsettle
    exact .inr hsettle

theorem started_recordLookup {spec : CallSpec} {s c : ClientState} {obs : Observability}
    {result : String} (h : s.lookedUp spec = some result) {rest : Py MeteredOp MeteredAns Bool}
    (hrest : ∀ obs', obs' = client.noteLookup obs (s.lookedUp spec) →
      client.Started sdk spec (s, obs)
        (rest.run.settle (Prog.both ClientOp.exec client.book) (c, obs'))) :
    client.Started sdk spec (s, obs)
      (((MetricOp.recordLookup result).await >>= fun _ => rest).run.settle
        (Prog.both ClientOp.exec client.book) (c, obs)) := by
  have hnoted : (obs.recordLookup client.cacheTtl result).2 =
      client.noteLookup obs (s.lookedUp spec) := by
    rw [h]
    rfl
  rcases settle_recordLookup result rest c obs with ⟨exc, hraised⟩ | hgoes
  · rw [hraised]
    exact ⟨hnoted, .ret _⟩
  · rw [hgoes]
    exact hrest _ hnoted

/-- However a metered call starts, its lookup is recorded, and its segments record failures. -/
theorem started_isRevoked (spec : CallSpec) (s : ClientState × Observability) :
    client.Started sdk spec s
      ((client.meteredIsRevoked sdk spec.jti spec.userId spec.bypassCache).run.settle
        (Prog.both ClientOp.exec client.book) s) := by
  obtain ⟨⟨cache, now⟩, obs⟩ := s
  obtain ⟨jti, userId, bypassCache⟩ := spec
  cases cache with
  | none => exact started_askIssuer rfl jti userId
  | some c =>
    cases bypassCache with
    | true => exact started_askIssuer rfl jti userId
    | false =>
      have hlookup : ClientState.lookedUp ⟨some c, now⟩ ⟨jti, userId, false⟩ =
          some (if (c.get now jti).1.isSome then "hit" else "miss") := rfl
      have hpresent : ClientOp.exec .cachePresent ⟨some c, now⟩ =
          some (true, ⟨some c, now⟩) := rfl
      have hget : ClientOp.exec (.cacheGet jti) ⟨some c, now⟩ =
          some ((c.get now jti).1, ⟨some (c.get now jti).2, now⟩) := rfl
      refine (congrArg (client.Started sdk _ _) ((Prog.settle_inl_some hpresent obs).trans
        (Prog.settle_inl_some hget obs))).mpr ?_
      cases hcached : (c.get now jti).1 with
      | some hit =>
        rw [hcached] at hlookup
        exact started_recordLookup hlookup fun obs' h => ⟨h, .ret _⟩
      | none =>
        rw [hcached] at hlookup
        exact started_recordLookup hlookup fun obs' h => started_askIssuer h jti userId

end RemoteRevocationClient

section Shows

variable {client : RemoteRevocationClient} {obs : Observability} {r : ℕ}

open RemoteRevocationClient

theorem lookups_noteLookup (found : Option String) (result : String) :
    ((client.noteLookup obs found).metrics r).lookups result =
      (obs.metrics r).lookups result +
        if obs.countsOn = some r ∧ found = some result then 1 else 0 := by
  cases found with
  | none => simp [noteLookup]
  | some label =>
    rw [noteLookup, Observability.recordLookup, Observability.metrics_record]
    by_cases hr : obs.countsOn = some r
    · by_cases hlabel : label = result
      · subst hlabel
        simp [hr, Counter.inc]
      · simp [hr, Counter.inc, hlabel, Function.update_of_ne (Ne.symm hlabel)]
    · simp [hr]

theorem checkFailures_noteFailure (failed : Option String) (mode : String) :
    ((noteFailure obs failed).metrics r).checkFailures mode =
      (obs.metrics r).checkFailures mode +
        if obs.countsOn = some r ∧ failed = some mode then 1 else 0 := by
  cases failed with
  | none => simp [noteFailure]
  | some label =>
    rw [noteFailure, Observability.recordCheckFailure, Observability.metrics_record]
    by_cases hr : obs.countsOn = some r
    · by_cases hlabel : label = mode
      · subst hlabel
        simp [hr, Counter.inc]
      · simp [hr, Counter.inc, hlabel, Function.update_of_ne (Ne.symm hlabel)]
    · simp [hr]

theorem lookups_noteFailure (failed : Option String) :
    ((noteFailure obs failed).metrics r).lookups = (obs.metrics r).lookups := by
  cases failed with
  | none => rfl
  | some label =>
    rw [noteFailure, Observability.recordCheckFailure, Observability.metrics_record]
    split <;> rfl

theorem checkFailures_noteLookup (found : Option String) :
    ((client.noteLookup obs found).metrics r).checkFailures = (obs.metrics r).checkFailures := by
  cases found with
  | none => rfl
  | some label =>
    rw [noteLookup, Observability.recordLookup, Observability.metrics_record]
    split <;> rfl

theorem ttlSeconds_noteLookup (found : Option String) :
    ((client.noteLookup obs found).metrics r).ttlSeconds =
      if client.cacheTtl < floatLimit ∧ obs.countsOn = some r ∧ found.isSome = true
      then client.cacheTtl else (obs.metrics r).ttlSeconds := by
  cases found with
  | none => simp [noteLookup]
  | some label =>
    rw [noteLookup, Observability.recordLookup, Observability.metrics_record]
    by_cases hr : obs.countsOn = some r <;> simp [hr]

theorem ttlSeconds_noteFailure (failed : Option String) :
    ((noteFailure obs failed).metrics r).ttlSeconds = (obs.metrics r).ttlSeconds := by
  cases failed with
  | none => rfl
  | some label =>
    rw [noteFailure, Observability.recordCheckFailure, Observability.metrics_record]
    split <;> rfl

end Shows

/-- What the lookup of a call finds that the step starts. -/
def lookedUp (w : MeteredPool) : MeteredAct → Option String
  | .spawn _ spec => w.shared.1.lookedUp spec
  | _ => none

/-- The answer that is delivered to a call is a decision of the issuer. -/
def deliversDecision (client : RemoteRevocationClient) (sdk : Sdk) (w : MeteredPool) (id : ℕ)
    (answer : ClientAnswer) : Bool :=
  (w.awaits id).any fun o => ((client.metered sdk).decode o answer).any (decided sdk o)

/-- The mode under which a check counts that the step ends: with one of its errors, or with an
acceptance on an answer that was no decision. -/
def failedCheck (client : RemoteRevocationClient) (sdk : Sdk) (w : MeteredPool) :
    MeteredAct → Option String
  | .resume id answer =>
    (((client.metered sdk).step w (.resume id answer)).bind fun w' => w'.result id).bind
      (failure (deliversDecision client sdk w id answer))
  | _ => none

variable {client : RemoteRevocationClient} {sdk : Sdk} {w w' : MeteredPool} {l : MeteredAct}

open RemoteRevocationClient

theorem metered_keeps (w : MeteredPool) (l : MeteredAct) (w' : MeteredPool)
    (hw : (client.metered sdk).Guaranteed (fun _ => MeteredSegment sdk) w)
    (h : (client.metered sdk).step w l = some w') :
    (client.metered sdk).Guaranteed (fun _ => MeteredSegment sdk) w' :=
  Scheduler.guaranteed_step (fun spec s => (started_isRevoked spec s).2) w l w' hw h

/-- A step records the lookup of the call that it starts, and the failure of the one it ends. -/
theorem books_of_step (hw : (client.metered sdk).Guaranteed (fun _ => MeteredSegment sdk) w)
    (h : (client.metered sdk).step w l = some w') :
    w'.shared.2 = noteFailure (client.noteLookup w.shared.2 (lookedUp w l))
        (failedCheck client sdk w l) ∨
      ∃ e, l = .env (.inr e) ∧ w'.shared.2 = w.shared.2.setup e := by
  cases l with
  | spawn id spec =>
    obtain ⟨-, rfl⟩ := Scheduler.step_spawn_iff.mp h
    exact .inl (started_isRevoked spec w.shared).1
  | resume id answer =>
    obtain ⟨spec, o, k, a, ht, ha, hpark⟩ := Scheduler.step_resume_iff.mp h
    obtain ⟨-, hnoted⟩ := hw.segment ht a w.shared
    refine .inl ?_
    have hdecided : deliversDecision client sdk w id answer = decided sdk o a := by
      simp [deliversDecision, Pool.awaits, ht, ha]
    have hfailed : failedCheck client sdk w (.resume id answer) =
        segmentFailure sdk o a ((k a).settle (client.metered sdk).exec w.shared).1 := by
      simp only [failedCheck, h, hdecided, Option.bind_some, Pool.result]
      rw [hpark, Pool.park_tasks_self]
      cases ((k a).settle (client.metered sdk).exec w.shared).1 with
      | ret outcome => rfl
      | call o k => rfl
    rw [hfailed, hpark]
    exact hnoted
  | wake id =>
    obtain ⟨spec, o, k, a, s, ht, ha, -⟩ := Scheduler.step_wake_iff.mp h
    obtain ⟨⟨o, rfl, ho⟩, -⟩ := hw.segment ht a s
    have hnone : (client.metered sdk).exec (.inl o) w.shared = none := by
      show (o.exec w.shared.1).map _ = none
      rw [exec_of_waits ho]
      rfl
    rw [hnone] at ha
    contradiction
  | env e =>
    obtain ⟨s, hs, rfl⟩ := Scheduler.step_env_iff.mp h
    cases e with
    | inl e =>
      obtain ⟨c, -, rfl⟩ := Option.map_eq_some_iff.mp hs
      exact .inl rfl
    | inr e =>
      obtain rfl := Option.some.inj hs
      exact .inr ⟨e, rfl, rfl⟩

/-- The step is counted as a lookup with this result on the registry. -/
def countsLookup (r : ℕ) (result : String) (x : MeteredPool × MeteredAct) : Bool :=
  x.1.shared.2.countsOn = some r ∧ lookedUp x.1 x.2 = some result

/-- The step is counted as a failed check on the registry. -/
def countsFailure (client : RemoteRevocationClient) (sdk : Sdk) (r : ℕ) (mode : String)
    (x : MeteredPool × MeteredAct) : Bool :=
  x.1.shared.2.countsOn = some r ∧ failedCheck client sdk x.1 x.2 = some mode

theorem lookups_step (hw : (client.metered sdk).Guaranteed (fun _ => MeteredSegment sdk) w)
    (h : (client.metered sdk).step w l = some w') (r : ℕ) (result : String) :
    (w'.shared.2.metrics r).lookups result = (w.shared.2.metrics r).lookups result +
      if countsLookup r result (w, l) then 1 else 0 := by
  rcases books_of_step hw h with hnoted | ⟨e, rfl, hsetup⟩
  · rw [hnoted, lookups_noteFailure, lookups_noteLookup]
    simp only [countsLookup, decide_eq_true_eq]
  · rw [hsetup]
    simp [countsLookup, lookedUp, Observability.metrics, Observability.setup]

theorem checkFailures_step (hw : (client.metered sdk).Guaranteed (fun _ => MeteredSegment sdk) w)
    (h : (client.metered sdk).step w l = some w') (r : ℕ) (mode : String) :
    (w'.shared.2.metrics r).checkFailures mode = (w.shared.2.metrics r).checkFailures mode +
      if countsFailure client sdk r mode (w, l) then 1 else 0 := by
  rcases books_of_step hw h with hnoted | ⟨e, rfl, hsetup⟩
  · rw [hnoted]
    cases hfailed : failedCheck client sdk w l with
    | none =>
      show ((client.noteLookup w.shared.2 (lookedUp w l)).metrics r).checkFailures mode = _
      rw [checkFailures_noteLookup]
      simp [countsFailure, hfailed]
    | some mode' =>
      -- a step that ends a check makes no lookup
      have hfound : lookedUp w l = none := by
        cases l <;> first | rfl | contradiction
      rw [hfound, noteLookup, checkFailures_noteFailure]
      simp only [countsFailure, hfailed, decide_eq_true_eq]
  · rw [hsetup]
    simp [countsFailure, failedCheck, Observability.metrics, Observability.setup]

theorem ttlSeconds_step (hw : (client.metered sdk).Guaranteed (fun _ => MeteredSegment sdk) w)
    (h : (client.metered sdk).step w l = some w') (r : ℕ) :
    (w'.shared.2.metrics r).ttlSeconds =
      if client.cacheTtl < floatLimit ∧ w.shared.2.countsOn = some r ∧ (lookedUp w l).isSome = true
      then client.cacheTtl else (w.shared.2.metrics r).ttlSeconds := by
  rcases books_of_step hw h with hnoted | ⟨e, rfl, hsetup⟩
  · rw [hnoted, ttlSeconds_noteFailure, ttlSeconds_noteLookup]
  · rw [hsetup]
    simp [lookedUp, Observability.metrics, Observability.setup]

theorem metered_idle (s : ClientState × Observability) :
    (client.metered sdk).Guaranteed (fun _ => MeteredSegment sdk) (.idle s) :=
  Scheduler.guaranteed_idle _ s

/-- The gauge of a registry shows the time to live since the first lookup that counted on it, if
that is a float. -/
theorem ttlSeconds_run {now : ℚ} {installed enabled : Bool} {registry : ℕ}
    {past : List (MeteredPool × MeteredAct)}
    (run : Run (client.metered sdk).step
      (client.startMetered now (.init installed enabled registry)) past w) (r : ℕ) :
    (w.shared.2.metrics r).ttlSeconds =
      if client.cacheTtl < floatLimit ∧
        ∃ x ∈ past, x.1.shared.2.countsOn = some r ∧ (lookedUp x.1 x.2).isSome = true
      then client.cacheTtl else 0 := by
  induction run with
  | start => simp [RemoteRevocationClient.startMetered, Pool.idle, Observability.metrics,
      Observability.init, CacheMetrics.new]
  | @next past w l w' run h ih =>
    rw [ttlSeconds_step (run.invariant metered_keeps (metered_idle _)) h, ih]
    simp only [List.mem_cons, exists_eq_or_imp]
    by_cases hfits : client.cacheTtl < floatLimit
    swap
    · simp [hfits]
    by_cases hnow : w.shared.2.countsOn = some r ∧ (lookedUp w l).isSome = true
    · rw [if_pos ⟨hfits, hnow⟩, if_pos ⟨hfits, .inl hnow⟩]
    · rw [if_neg fun h => hnow h.2]
      simp only [hnow, false_or]

/-- The counters of every registry are exact, however the calls interleave and whenever the SDK
switches its metrics or replaces its registry. Hits and misses are the lookups of the general tier
that were made while the registry was in use, by what they found. The failed checks are those that
ended with an error of the check, and those that accepted a token although no decision of the
issuer was delivered to them; a `RevocationDecisionError` counts as `fail_closed` in either mode.
The gauge shows the time to live as soon as one lookup was counted, unless that is no float. -/
theorem metrics_count {now : ℚ} {installed enabled : Bool} {registry : ℕ}
    {past : List (MeteredPool × MeteredAct)}
    (run : Run (client.metered sdk).step
      (client.startMetered now (.init installed enabled registry)) past w) (r : ℕ) :
    (∀ result, (w.shared.2.metrics r).lookups result = past.countP (countsLookup r result)) ∧
    (∀ mode, (w.shared.2.metrics r).checkFailures mode =
      past.countP (countsFailure client sdk r mode)) ∧
    (w.shared.2.metrics r).ttlSeconds =
      if client.cacheTtl < floatLimit ∧
        ∃ x ∈ past, x.1.shared.2.countsOn = some r ∧ (lookedUp x.1 x.2).isSome = true
      then client.cacheTtl else 0 := by
  refine ⟨fun result => ?_, fun mode => ?_, ttlSeconds_run run r⟩
  · have hcount := run.count (fun w => (w.shared.2.metrics r).lookups result)
      (countsLookup r result) metered_keeps
      (fun w l w' hw h => lookups_step hw h r result) (metered_idle _)
    exact hcount.trans (Nat.zero_add _)
  · have hcount := run.count (fun w => (w.shared.2.metrics r).checkFailures mode)
      (countsFailure client sdk r mode) metered_keeps
      (fun w l w' hw h => checkFailures_step hw h r mode) (metered_idle _)
    exact hcount.trans (Nat.zero_add _)

/-- A client that fails open, with a cache. -/
def openCachingClient : RemoteRevocationClient := { cachingClient with failClosed := false }

/-- A call misses the cache, the registry is replaced, and the issuer answers with an error. -/
def replacedMeanwhile : List MeteredAct :=
  [.spawn 0 ⟨"jti-1", "user-a", false⟩, .resume 0 (.headers []), .env (.inr ⟨true, 1⟩),
    .resume 0 (.response ⟨500, .malformed⟩)]

theorem metrics_count_replaced :
    ∃ past w, Run (openCachingClient.metered v2Sdk).step
        (openCachingClient.startMetered 0 (.init true true 0)) past w ∧
      past.countP (countsLookup 0 "miss") = 1 ∧
      past.countP (countsFailure openCachingClient v2Sdk 1 "fail_open") = 1 := by
  have heval : (replacedMeanwhile.foldlM (openCachingClient.metered v2Sdk).step
      (openCachingClient.startMetered 0 (.init true true 0))).any (fun w =>
        (w.shared.2.metrics 0).lookups "miss" = 1 &&
          (w.shared.2.metrics 1).checkFailures "fail_open" = 1) = true := by decide +kernel
  obtain ⟨w, hw, hshown⟩ := (Option.any_eq_true _ _).mp heval
  obtain ⟨hmiss, hfailed⟩ := Bool.and_eq_true_iff.mp hshown
  obtain ⟨past, run, -⟩ := Run.of_foldlM hw
  refine ⟨past, w, run, ?_, ?_⟩
  · exact ((metrics_count run 0).1 "miss").symm.trans (of_decide_eq_true hmiss)
  · exact ((metrics_count run 1).2.1 "fail_open").symm.trans (of_decide_eq_true hfailed)

end FastapiM8
