import FastapiM8.Revocation.Segments

/-! Steps of a client: which replies are received, which entries a step stores or removes, and
what every run keeps. -/
namespace FastapiM8

variable {client : RemoteRevocationClient} {sdk : Sdk} {w w' : ClientPool} {l : ClientAct}

/-- The entry that the cache holds for a JTI. -/
def stored (w : ClientPool) (jti : String) : Option CacheEntry :=
  w.shared.cache.bind fun c => c.store.get? jti

/-- The step delivers to task `id` a 2xx reply to `request` that parses as `reply`. -/
def Receives {Spec Ev ρ : Type} (sdk : Sdk) (w : Pool ClientOp ClientAns ClientState Spec ρ)
    (l : Act Spec ClientAnswer Ev) (id : ℕ) (request : StatusRequest) (reply : JtiStatusResponse) :
    Prop :=
  ∃ spec k response, w.tasks id = some ⟨spec, .call (.post request) k⟩ ∧
    l = .resume id (.response response) ∧ response.isSuccess = true ∧
    response.body.bind sdk.jtiStatus = some reply

/-- The step receives, for a request with this JTI, an active reply about the asserted user
whose generation is not below the user's watermark at that moment. -/
def Accepts (sdk : Sdk) (w : ClientPool) (l : ClientAct) (id : ℕ) (jti userId : String) (g : ℤ) :
    Prop :=
  ∃ request, Receives sdk w l id request (.active request.expectedUserId g) ∧
    request.jti = jti ∧ request.expectedUserId = userId ∧
    w.shared.isSuperseded userId g = false

/-- The step stores the entry for an active reply. -/
def Stores (sdk : Sdk) (w : ClientPool) (l : ClientAct) (jti : String) (e : CacheEntry) : Prop :=
  ∃ id c, Accepts sdk w l id jti e.userId e.authGeneration ∧ w.shared.cache = some c ∧
    c.ttl < floatLimit ∧ e.expiresAt = w.shared.now + c.ttl

/-- The step is an eviction that covers the entry: of its JTI, of its owner, of the whole
cache, or by an event. -/
def Removes (sdk : Sdk) (w : ClientPool) (l : ClientAct) (jti : String) (e : CacheEntry) : Prop :=
  match l with
  | .env (.sessionRevoked payload) =>
    ∃ c, w.shared.cache = some c ∧ c.Evicts (sdk.sessionRevoked payload) jti e
  | .env (.evictJti target) => jti = target
  | .env (.evictUser userId) => e.userId = userId
  | .env .flushCache => True
  | _ => False

theorem lookup_eq_hit {s : ClientState} {spec : CallSpec} {b : Bool}
    (h : (s.lookup spec).1 = some b) :
    b = false ∧ spec.bypassCache = false ∧
      ∃ c e, s.cache = some c ∧ c.store.get? spec.jti = some e ∧ s.now < e.expiresAt := by
  unfold ClientState.lookup at h
  cases hc : s.cache with
  | none => simp [hc] at h
  | some c =>
    cases hb : spec.bypassCache with
    | true => simp [hc, hb] at h
    | false =>
      simp only [hc, hb, Bool.false_eq_true, ↓reduceIte] at h
      obtain ⟨hfalse, e, he, hlive⟩ := JtiRevocationCache.get_eq_hit_iff.mp h
      exact ⟨hfalse, rfl, c, e, rfl, he, hlive⟩

/-- Every step of a client keeps the guarantee of its calls. -/
theorem calls_keep (w : ClientPool) (l : ClientAct) (w' : ClientPool)
    (hw : (client.scheduler sdk).Guaranteed (client.CallSegment sdk) w)
    (h : (client.scheduler sdk).step w l = some w') :
    (client.scheduler sdk).Guaranteed (client.CallSegment sdk) w' := by
  exact Scheduler.guaranteed_step RemoteRevocationClient.obeys_isRevoked w l w' hw h

theorem calls_guaranteed {now : ℚ} {past : List (ClientPool × ClientAct)}
    (run : Run (client.scheduler sdk).step (client.start now) past w) :
    (client.scheduler sdk).Guaranteed (client.CallSegment sdk) w :=
  run.invariant calls_keep (Scheduler.guaranteed_idle _ _)

/-- A call starts with its lookup, and asks the issuer when that misses. -/
theorem client_spawn_iff {id : ℕ} {spec : CallSpec} :
    (client.scheduler sdk).step w (.spawn id spec) = some w' ↔ w.tasks id = none ∧
      w' = w.park id spec (client.startCall sdk spec w.shared) := by
  rw [← RemoteRevocationClient.settle_isRevoked]
  exact Scheduler.step_spawn_iff

/-- A step starts a call with its lookup, runs one segment of a call, or is an event. -/
theorem client_step_cases (hw : (client.scheduler sdk).Guaranteed (client.CallSegment sdk) w)
    (h : (client.scheduler sdk).step w l = some w') :
    (∃ id spec, l = .spawn id spec ∧ w.tasks id = none ∧
      w' = w.park id spec (client.startCall sdk spec w.shared)) ∨
    (∃ id answer spec o k a r, l = .resume id answer ∧ w.tasks id = some ⟨spec, .call o k⟩ ∧
      o.decode answer = some a ∧ Awaits spec o ∧ Segment client sdk spec o a w.shared r ∧
      w' = w.park id spec r) ∨
    (∃ e s, l = .env e ∧ e.apply sdk w.shared = some s ∧ w' = { w with shared := s }) := by
  cases l with
  | spawn id spec =>
    obtain ⟨hnew, hpark⟩ := client_spawn_iff.mp h
    exact .inl ⟨id, spec, rfl, hnew, hpark⟩
  | resume id answer =>
    obtain ⟨spec, o, k, a, ht, ha, rfl⟩ := Scheduler.step_resume_iff.mp h
    obtain ⟨hawaits, hseg⟩ := hw.segment ht a w.shared
    exact .inr (.inl ⟨id, answer, spec, o, k, a, _, rfl, ht, ha, hawaits, hseg, rfl⟩)
  | wake id =>
    obtain ⟨spec, o, k, a, s, ht, ha, -⟩ := Scheduler.step_wake_iff.mp h
    obtain ⟨hawaits, -⟩ := hw.segment ht a w.shared
    have hnone : (client.scheduler sdk).exec o w.shared = none := hawaits.exec_eq_none w.shared
    rw [hnone] at ha
    contradiction
  | env e =>
    obtain ⟨s, hs, rfl⟩ := Scheduler.step_env_iff.mp h
    exact .inr (.inr ⟨e, s, rfl, hs, rfl⟩)

theorem decode_post {request : StatusRequest} {answer : ClientAnswer} {response : Response}
    (h : (ClientOp.post request).decode answer = some (.ok response)) :
    answer = .response response := by
  cases answer with
  | response r =>
    simp only [ClientOp.decode, Option.some.injEq, Except.ok.injEq] at h
    rw [h]
  | _ => simp [ClientOp.decode] at h

/-- A decision reaches a task in a 2xx reply to one of its own requests. -/
theorem receives_of_reply {Spec Ev ρ : Type} {w : Pool ClientOp ClientAns ClientState Spec ρ}
    {id : ℕ} {answer : ClientAnswer} {task : Spec} {spec : CallSpec} {o : ClientOp}
    {k : ClientAns o → Prog ClientOp ClientAns ρ} {a : ClientAns o} {reply : JtiStatusResponse}
    (ht : w.tasks id = some ⟨task, .call o k⟩) (ha : o.decode answer = some a)
    (hawaits : Awaits spec o) (hreply : reply? sdk o a = some reply) :
    ∃ request, Receives sdk w (.resume id answer : Act Spec ClientAnswer Ev) id request reply ∧
      request.jti = spec.jti ∧ request.expectedUserId = spec.userId := by
  cases o with
  | post request =>
    cases a with
    | error exc => simp [reply?] at hreply
    | ok response =>
      simp only [reply?] at hreply
      split at hreply
      next hs =>
        have hresponse := decode_post ha
        exact ⟨request, ⟨task, k, response, ht, by rw [hresponse], hs, hreply⟩, hawaits⟩
      next => contradiction
  | _ => simp [reply?] at hreply

theorem cache_of_advance {s s' : ClientState} {seconds : ℚ}
    (h : (ClientEvent.advance seconds).apply sdk s = some s') : s'.cache = s.cache := by
  simp only [ClientEvent.apply] at h
  split at h
  · obtain rfl := Option.some.inj h
    rfl
  · contradiction

/-- A client step performs at most one operation on its cache. -/
theorem cache_step (hw : (client.scheduler sdk).Guaranteed (client.CallSegment sdk) w)
    (h : (client.scheduler sdk).step w l = some w') :
    w'.shared.cache = w.shared.cache ∨
      ∃ op : JtiRevocationCache.CacheOp,
        w'.shared.cache = w.shared.cache.map fun c => op.apply c := by
  rcases client_step_cases hw h with ⟨id, spec, -, -, rfl⟩ |
    ⟨id, answer, spec, o, k, a, r, -, -, -, -, hseg, rfl⟩ | ⟨e, s, -, hs, rfl⟩
  · rw [Pool.park_shared, RemoteRevocationClient.startCall_snd]
    unfold ClientState.lookup
    cases hc : w.shared.cache with
    | none => exact .inl hc
    | some c =>
      cases hb : spec.bypassCache with
      | true => exact .inl hc
      | false => exact .inr ⟨.get w.shared.now spec.jti, rfl⟩
  · cases hseg with
    | decides g h => exact .inr ⟨.put w.shared.now spec.jti spec.userId g, rfl⟩
    | _ => exact .inl rfl
  · cases e with
    | sessionRevoked payload =>
      obtain rfl := Option.some.inj hs
      exact .inr ⟨.sessionRevoked (sdk.sessionRevoked payload), rfl⟩
    | evictJti jti =>
      obtain rfl := Option.some.inj hs
      exact .inr ⟨.evictJti jti, rfl⟩
    | evictUser userId =>
      obtain rfl := Option.some.inj hs
      exact .inr ⟨.evictUser userId, rfl⟩
    | flushCache =>
      obtain rfl := Option.some.inj hs
      exact .inr ⟨.flushAll, rfl⟩
    | advance seconds => exact .inl (cache_of_advance hs)

/-- Along a run the cache goes through a run of its own operations. -/
theorem cache_run {now : ℚ} {past : List (ClientPool × ClientAct)}
    (run : Run (client.scheduler sdk).step (client.start now) past w) :
    ∀ c, w.shared.cache = some c →
      ∃ ops, Run JtiRevocationCache.opStep (.init client.cacheTtl) ops c := by
  induction run with
  | start =>
    intro c hc
    simp only [RemoteRevocationClient.start, Pool.idle, ClientState.init] at hc
    split at hc
    · obtain rfl := Option.some.inj hc
      exact ⟨[], .start⟩
    · contradiction
  | @next past w l w' run h ih =>
    intro c' hc'
    rcases cache_step (calls_guaranteed run) h with hsame | ⟨op, hop⟩
    · exact ih c' (hsame ▸ hc')
    · rw [hop, Option.map_eq_some_iff] at hc'
      obtain ⟨c, hc, rfl⟩ := hc'
      obtain ⟨ops, hops⟩ := ih c hc
      exact ⟨_, hops.next rfl⟩

/-- A client with a positive time to live has its cache throughout. -/
theorem cache_present (hpos : 0 < client.cacheTtl) {now : ℚ}
    {past : List (ClientPool × ClientAct)}
    (run : Run (client.scheduler sdk).step (client.start now) past w) :
    ∃ c, w.shared.cache = some c ∧ c.ttl = client.cacheTtl := by
  induction run with
  | start => exact ⟨_, if_pos hpos, rfl⟩
  | @next past w l w' run h ih =>
    obtain ⟨c, hc, httl⟩ := ih
    rcases cache_step (calls_guaranteed run) h with hsame | ⟨op, hop⟩
    · exact ⟨c, hsame.trans hc, httl⟩
    · exact ⟨op.apply c, by rw [hop, hc, Option.map_some], by
        rw [JtiRevocationCache.CacheOp.apply_ttl, httl]⟩

theorem now_le_step (hw : (client.scheduler sdk).Guaranteed (client.CallSegment sdk) w)
    (h : (client.scheduler sdk).step w l = some w') : w.shared.now ≤ w'.shared.now := by
  rcases client_step_cases hw h with ⟨id, spec, -, -, rfl⟩ |
    ⟨id, answer, spec, o, k, a, r, -, -, -, -, hseg, rfl⟩ | ⟨e, s, -, hs, rfl⟩
  · rw [Pool.park_shared, RemoteRevocationClient.startCall_snd]
    unfold ClientState.lookup
    split
    · exact le_rfl
    · split <;> exact le_rfl
  · cases hseg <;> exact le_rfl
  · cases e with
    | advance seconds =>
      simp only [ClientEvent.apply] at hs
      split at hs
      next hnn =>
        obtain rfl := Option.some.inj hs
        exact le_add_of_nonneg_right hnn
      next => contradiction
    | _ =>
      obtain rfl := Option.some.inj hs
      exact le_rfl

theorem stored_of_lookup {spec : CallSpec} {jti : String} {e : CacheEntry}
    {c' : JtiRevocationCache} (hc' : (w.shared.lookup spec).2.cache = some c')
    (he : c'.store.get? jti = some e) : stored w jti = some e := by
  unfold ClientState.lookup at hc'
  cases hc : w.shared.cache with
  | none => simp [hc] at hc'
  | some c =>
    refine Option.bind_eq_some_iff.mpr ⟨c, hc, ?_⟩
    cases hb : spec.bypassCache with
    | true =>
      simp only [hc, hb, ↓reduceIte, Option.some.injEq] at hc'
      rwa [hc']
    | false =>
      simp only [hc, hb, Bool.false_eq_true, ↓reduceIte, Option.some.injEq] at hc'
      subst hc'
      exact (JtiRevocationCache.get_get?.mp he).1

/-- The entries that a step leaves were stored by it, or were there and are not removed. -/
theorem stored_step (hw : (client.scheduler sdk).Guaranteed (client.CallSegment sdk) w)
    (h : (client.scheduler sdk).step w l = some w') {jti : String} {e : CacheEntry}
    (he : stored w' jti = some e) :
    Stores sdk w l jti e ∨ (stored w jti = some e ∧ ¬ Removes sdk w l jti e) := by
  obtain ⟨c', hc', he'⟩ := Option.bind_eq_some_iff.mp he
  rcases client_step_cases hw h with ⟨id, spec, rfl, -, rfl⟩ |
    ⟨id, answer, spec, o, k, a, r, rfl, ht, ha, hawaits, hseg, rfl⟩ | ⟨ev, s, rfl, hs, rfl⟩
  · refine .inr ⟨?_, fun hf => hf⟩
    rw [Pool.park_shared, RemoteRevocationClient.startCall_snd] at hc'
    exact stored_of_lookup hc' he'
  · have hsame : r.2 = w.shared → Stores sdk w (.resume id answer) jti e ∨
        (stored w jti = some e ∧ ¬ Removes sdk w (.resume id answer) jti e) := by
      intro hr
      have hc : w.shared.cache = some c' := by
        rw [← hr]
        exact hc'
      exact .inr ⟨Option.bind_eq_some_iff.mpr ⟨c', hc, he'⟩, fun hf => hf⟩
    cases hseg with
    | decides g hreply =>
      obtain ⟨c, hc, rfl⟩ := Option.map_eq_some_iff.mp hc'
      rcases JtiRevocationCache.put_get?.mp he' with ⟨hle, hfits, rfl, rfl⟩ | ⟨hold, -⟩
      · obtain ⟨request, hreceives, hjti, huser⟩ := receives_of_reply ht ha hawaits hreply
        have hcurrent : w.shared.isSuperseded spec.userId g = false := by
          simp [ClientState.isSuperseded, hc, JtiRevocationCache.isSuperseded, hle]
        have hactive : Receives sdk w (.resume id answer : ClientAct) id request
            (.active request.expectedUserId g) := by rwa [huser]
        exact .inl ⟨id, c, ⟨request, hactive, hjti, huser, hcurrent⟩, hc, hfits, rfl⟩
      · exact .inr ⟨Option.bind_eq_some_iff.mpr ⟨c, hc, hold⟩, fun hf => hf⟩
    | _ => exact hsame rfl
  · refine .inr ?_
    cases ev with
    | advance seconds =>
      have hcache := cache_of_advance hs
      exact ⟨Option.bind_eq_some_iff.mpr ⟨c', hcache ▸ hc', he'⟩, fun hf => hf⟩
    | sessionRevoked payload =>
      obtain rfl := Option.some.inj hs
      obtain ⟨c, hc, rfl⟩ := Option.map_eq_some_iff.mp hc'
      obtain ⟨hold, hkept⟩ := JtiRevocationCache.applySessionRevoked_get?.mp he'
      refine ⟨Option.bind_eq_some_iff.mpr ⟨c, hc, hold⟩, ?_⟩
      rintro ⟨c₁, hc₁, hev⟩
      obtain rfl := Option.some.inj (hc.symm.trans hc₁)
      exact hkept hev
    | evictJti target =>
      obtain rfl := Option.some.inj hs
      obtain ⟨c, hc, rfl⟩ := Option.map_eq_some_iff.mp hc'
      obtain ⟨hold, hne⟩ := JtiRevocationCache.evictJti_get?.mp he'
      exact ⟨Option.bind_eq_some_iff.mpr ⟨c, hc, hold⟩, hne⟩
    | evictUser userId =>
      obtain rfl := Option.some.inj hs
      obtain ⟨c, hc, rfl⟩ := Option.map_eq_some_iff.mp hc'
      obtain ⟨hold, hkept⟩ := JtiRevocationCache.evictUserBelow_get?.mp he'
      refine ⟨Option.bind_eq_some_iff.mpr ⟨c, hc, hold⟩, fun hu => hkept ⟨hu, ?_⟩⟩
      intro g hg
      contradiction
    | flushCache =>
      obtain rfl := Option.some.inj hs
      obtain ⟨c, hc, rfl⟩ := Option.map_eq_some_iff.mp hc'
      simp [JtiRevocationCache.flushAll] at he'

/-- The v2 contract on replies and payloads that carry nothing else. -/
def v2Sdk : Sdk where
  jtiStatus
    | .obj fields =>
      match fields.lookup "schema_version", fields.lookup "active", fields.lookup "user_id",
        fields.lookup "auth_generation" with
      | some (.str "2"), some (.bool false), _, _ => some .inactive
      | some (.str "2"), some (.bool true), some (.str userId), some (.int g) =>
        some (.active userId g)
      | _, _, _, _ => none
    | _ => none
  sessionRevoked payload :=
    match payload.lookup "user_id", payload.lookup "auth_generation", payload.lookup "jti",
      payload.lookup "event_id" with
    | some (.str userId), some (.int g), some (.str jti), some (.str eventId) =>
      some ⟨userId, some g, some jti, some eventId⟩
    | some (.str userId), some (.int g), none, some (.str eventId) =>
      some ⟨userId, some g, none, some eventId⟩
    | some (.str userId), none, _, _ => some ⟨userId, none, none, none⟩
    | _, _, _, _ => none

def activeBody (userId : String) (g : ℤ) : Json :=
  .obj [("active", .bool true), ("user_id", .str userId), ("auth_generation", .int g),
    ("schema_version", .str "2")]

def inactiveBody : Json := .obj [("active", .bool false), ("schema_version", .str "2")]

/-- A call that is answered at once with a 200 reply. -/
def asks (id : ℕ) (spec : CallSpec) (body : Json) : List ClientAct :=
  [.spawn id spec, .resume id (.headers []), .resume id (.response ⟨200, .json body⟩)]

/-- A fail-closed client with a time to live of 30 seconds. -/
def cachingClient : RemoteRevocationClient :=
  ⟨"https://issuer/private/v1/jti-status", "2", .static [], true, 30⟩

/-- The call has ended with this answer. -/
def answered (w : ClientPool) (id : ℕ) (spec : CallSpec) (b : Bool) : Bool :=
  match w.tasks id with
  | some ⟨spec', .ret (.ok b')⟩ => spec' = spec && b' = b
  | _ => false

theorem answered_iff {id : ℕ} {spec : CallSpec} {b : Bool} :
    answered w id spec b = true ↔ w.tasks id = some ⟨spec, .ret (.ok b)⟩ := by
  unfold answered
  split
  next spec' b' ht => simp [ht]
  next hne =>
    simp only [Bool.false_eq_true, false_iff]
    exact fun ht => hne _ _ ht

/-- The call is waiting for the reply to a request of this session. -/
def awaiting (w : ClientPool) (id : ℕ) (jti user : String) : Bool :=
  match w.tasks id with
  | some ⟨_, .call (.post request) _⟩ => request.jti = jti && request.expectedUserId = user
  | _ => false

theorem receives_of_awaiting (sdk : Sdk) {id : ℕ} {jti user : String} (response : Response)
    {reply : JtiStatusResponse} (h : awaiting w id jti user = true)
    (hs : response.isSuccess = true) (hparse : response.body.bind sdk.jtiStatus = some reply) :
    ∃ request, Receives sdk w (.resume id (.response response) : ClientAct) id request reply ∧
      request.jti = jti ∧ request.expectedUserId = user ∧
      ∃ spec k, w.tasks id = some ⟨spec, .call (.post request) k⟩ := by
  unfold awaiting at h
  split at h
  next spec request k ht =>
    obtain ⟨hjti, huser⟩ := Bool.and_eq_true_iff.mp h
    exact ⟨request, ⟨spec, k, response, ht, rfl, hs, hparse⟩, of_decide_eq_true hjti,
      of_decide_eq_true huser, spec, k, ht⟩
  next => contradiction

end FastapiM8
