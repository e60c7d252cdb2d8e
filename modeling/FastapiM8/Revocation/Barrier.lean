import FastapiM8.Revocation.Provenance

/-! Revocations against replies in flight: what the watermark keeps out of the cache after an
eviction, and what it lets back in. -/
namespace FastapiM8

namespace JtiRevocationCache

variable {c : JtiRevocationCache} {user : String} {g : ℤ}

/-- The user is tracked at a generation of at least `g`, and all of its entries reach `g`. -/
def Barrier (c : JtiRevocationCache) (user : String) (g : ℤ) : Prop :=
  (∃ wm, c.watermarks.get? user = some wm ∧ g ≤ wm) ∧
    ∀ jti e, c.store.get? jti = some e → e.userId = user → g ≤ e.authGeneration

theorem Barrier.le_watermark (h : c.Barrier user g) : g ≤ c.watermark user := by
  obtain ⟨⟨wm, hwm, hle⟩, -⟩ := h
  rwa [watermark, hwm, Option.getD_some]

/-- A user-wide event that is acted on sets the barrier at its generation. -/
theorem barrier_of_acted {eventId : Option String}
    (h : (c.noteRevocation user g eventId).1 = true) :
    (c.applySessionRevoked (some ⟨user, some g, none, eventId⟩)).Barrier user g := by
  obtain ⟨hwm, -⟩ := applySessionRevoked_v2_maps c ⟨user, some g, none, eventId⟩ rfl
  refine ⟨⟨g, ?_, le_rfl⟩, fun jti e he huser => ?_⟩
  · rw [hwm]
    exact noteRevocation_acted h
  · obtain ⟨-, hkept⟩ := applySessionRevoked_get?.mp he
    by_contra hlt
    exact hkept ⟨h, huser, not_le.mp hlt⟩

/-- Every operation keeps the barrier of a user who stays tracked. -/
theorem Barrier.apply {op : CacheOp} (h : c.Barrier user g)
    (htracked : user ∈ (op.apply c).watermarks.keys) : (op.apply c).Barrier user g := by
  refine ⟨?_, fun jti e he huser => ?_⟩
  · obtain ⟨⟨wm, hwm, hle⟩, -⟩ := h
    rcases CacheOp.apply_maps (c := c) op with ⟨hsame, -⟩ | ⟨payload, rfl⟩
    · exact ⟨wm, by rwa [hsame], hle⟩
    · obtain ⟨wm', hwm'⟩ := OrderedDict.mem_keys_iff.mp htracked
      rcases applySessionRevoked_progress hwm' with ⟨hold, -⟩ | ⟨event, -, -, -, -, hlt⟩
      · obtain rfl : wm = wm' := Option.some.inj (hwm.symm.trans hold)
        exact ⟨wm, hwm', hle⟩
      · have := hlt wm hwm
        exact ⟨wm', hwm', by omega⟩
  · rcases CacheOp.apply_get? he with hold | ⟨now, -, hle⟩
    · exact h.2 jti e hold huser
    · rw [huser] at hle
      exact h.le_watermark.trans hle

end JtiRevocationCache

variable {client : RemoteRevocationClient} {sdk : Sdk} {w w' : ClientPool} {l : ClientAct}

/-- What the reply that a step receives does to its call and to the shared state. -/
theorem step_of_receives (hw : (client.scheduler sdk).Guaranteed (client.CallSegment sdk) w)
    {id : ℕ} {request : StatusRequest} {owner : String} {g : ℤ}
    (hrec : Receives sdk w l id request (.active owner g))
    (h : (client.scheduler sdk).step w l = some w') :
    ∃ spec, request.jti = spec.jti ∧ request.expectedUserId = spec.userId ∧
      ((owner = spec.userId ∧ Returns w' l id spec (w.shared.answer spec.jti owner g) ∧
        w'.shared = w.shared.offer spec.jti owner g) ∨
      (owner ≠ spec.userId ∧
        Returns w' l id spec (.error (.revocationDecisionError "subject_mismatch")) ∧
        w'.shared = w.shared)) := by
  obtain ⟨spec, k, response, ht, rfl, hs, hparse⟩ := hrec
  obtain ⟨spec', o, k', a, ht', ha, rfl⟩ := Scheduler.step_resume_iff.mp h
  obtain ⟨rfl, hcall⟩ := Thread.mk.inj (Option.some.inj (ht.symm.trans ht'))
  cases hcall
  obtain rfl : Except.ok response = a := Option.some.inj ha
  obtain ⟨⟨hjti, huser⟩, hseg⟩ := hw.segment ht (.ok response) w.shared
  have hreply : reply? sdk (.post request) (.ok response) = some (.active owner g) := by
    simp [reply?, hs, hparse]
  have hends : ∀ {outcome : Except PyExc Bool},
      ((k (.ok response)).settle ClientOp.exec w.shared).1 = .ret outcome →
      Returns (w.park id spec ((k (.ok response)).settle ClientOp.exec w.shared))
        (.resume id (.response response)) id spec outcome := by
    intro outcome hprog
    have htask := Pool.park_tasks_self w id spec ((k (.ok response)).settle ClientOp.exec w.shared)
    rw [hprog] at htask
    exact ⟨.inr ⟨_, rfl⟩, htask⟩
  rcases hseg.of_active hreply with ⟨hown, hr⟩ | ⟨hne, hr⟩
  · have hret := hends (congrArg Prod.fst hr)
    exact ⟨spec, hjti, huser, .inl ⟨hown, hret, congrArg Prod.snd hr⟩⟩
  · have hret := hends (congrArg Prod.fst hr)
    exact ⟨spec, hjti, huser, .inr ⟨hne, hret, congrArg Prod.snd hr⟩⟩

/-- The user is in the watermark map. -/
def Tracked (w : ClientPool) (user : String) : Prop :=
  ∃ c, w.shared.cache = some c ∧ user ∈ c.watermarks.keys

/-- The barrier of a user holds in a pool with a cache. -/
def BarrierAt (w : ClientPool) (user : String) (g : ℤ) : Prop :=
  ∃ c, w.shared.cache = some c ∧ c.Barrier user g

theorem barrierAt_step (hw : (client.scheduler sdk).Guaranteed (client.CallSegment sdk) w)
    (h : (client.scheduler sdk).step w l = some w') {user : String} {g : ℤ}
    (hbarrier : BarrierAt w user g) (htracked : Tracked w' user) : BarrierAt w' user g := by
  obtain ⟨c, hc, hb⟩ := hbarrier
  obtain ⟨c', hc', hmem⟩ := htracked
  rcases cache_step hw h with hsame | ⟨op, hop⟩
  · exact ⟨c, hsame.trans hc, hb⟩
  · rw [hop, hc, Option.map_some, Option.some.injEq] at hc'
    subst hc'
    exact ⟨_, by rw [hop, hc, Option.map_some], hb.apply hmem⟩

/-- From a user-wide event that is acted on, for as long as its user stays tracked, the cache
holds no older entry of the user, and older active replies about the user change nothing: the
calls that they answer deny, or refuse them when they assert another subject. -/
theorem user_wide_barrier {now : ℚ} {newer older : List (ClientPool × ClientAct)}
    {w₁ : ClientPool} {payload : List (String × Json)} {c₁ : JtiRevocationCache} {user : String}
    {g : ℤ} {eventId : Option String}
    (run : Run (client.scheduler sdk).step (client.start now)
      (newer ++ (w₁, .env (.sessionRevoked payload)) :: older) w)
    (hpayload : sdk.sessionRevoked payload = some ⟨user, some g, none, eventId⟩)
    (hc₁ : w₁.shared.cache = some c₁) (hacted : (c₁.noteRevocation user g eventId).1 = true)
    (hnewer : ∀ x ∈ newer, Tracked x.1 user) (htracked : Tracked w user) :
    (∀ jti e, stored w jti = some e → e.userId = user → g ≤ e.authGeneration) ∧
    ∀ l w' id request g', Receives sdk w l id request (.active user g') → g' < g →
      (client.scheduler sdk).step w l = some w' →
      w'.shared = w.shared ∧
      ∃ spec, request.jti = spec.jti ∧ request.expectedUserId = spec.userId ∧
        ((spec.userId = user ∧ Returns w' l id spec (.ok true)) ∨
        (spec.userId ≠ user ∧
          Returns w' l id spec (.error (.revocationDecisionError "subject_mismatch")))) := by
  obtain ⟨hbefore, w₂, hstep, hafter⟩ := run.split_cons
  have hw₂ := calls_keep _ _ _ (calls_guaranteed hbefore) hstep
  have hstart : BarrierAt w₂ user g := by
    obtain ⟨s, hs, rfl⟩ := Scheduler.step_env_iff.mp hstep
    obtain rfl := Option.some.inj hs
    refine ⟨c₁.applySessionRevoked (sdk.sessionRevoked payload), ?_, ?_⟩
    · simp [ClientState.applySessionRevokedEvent, ClientState.mapCache, hc₁]
    · rw [hpayload]
      exact JtiRevocationCache.barrier_of_acted hacted
  have hkeep : ∀ s l s', Tracked s user →
      ((client.scheduler sdk).Guaranteed (client.CallSegment sdk) s ∧ BarrierAt s user g) →
      (client.scheduler sdk).step s l = some s' → Tracked s' user →
      ((client.scheduler sdk).Guaranteed (client.CallSegment sdk) s' ∧ BarrierAt s' user g) := by
    intro s l s' _ hs h htracked'
    exact ⟨calls_keep s l s' hs.1 h, barrierAt_step hs.1 h hs.2 htracked'⟩
  obtain ⟨hw, c, hc, hb⟩ := hafter.invariant_while hkeep ⟨hw₂, hstart⟩ hnewer htracked
  constructor
  · intro jti e he huser
    rw [stored, hc, Option.bind_some] at he
    exact hb.2 jti e he huser
  · intro l w' id request g' hrec hlt h
    have hsup : w.shared.isSuperseded user g' = true := by
      simp only [ClientState.isSuperseded, hc, Option.any_some, JtiRevocationCache.isSuperseded,
        decide_eq_true_eq]
      exact hlt.trans_le hb.le_watermark
    obtain ⟨spec, hjti, huser, ⟨hown, hret, hshared⟩ | ⟨hne, hret, hshared⟩⟩ :=
      step_of_receives hw hrec h
    · rw [answer_of_isSuperseded _ hsup] at hret
      rw [offer_of_isSuperseded _ hsup] at hshared
      exact ⟨hshared, spec, hjti, huser, .inl ⟨hown.symm, hret⟩⟩
    · exact ⟨hshared, spec, hjti, huser, .inr ⟨hne.symm, hret⟩⟩

/-- A call whose request is on the wire. -/
def inflightLabels : List ClientAct :=
  [.spawn 0 ⟨"jti-1", "user-a", false⟩, .resume 0 (.headers [])]

def userWideEvent : ClientAct :=
  .env (.sessionRevoked [("user_id", .str "user-a"), ("auth_generation", .int 2),
    ("event_id", .str "evt-1")])

def activeReply : ClientAct := .resume 0 (.response ⟨200, .json (activeBody "user-a" 1)⟩)

theorem user_wide_barrier_inflight :
    ∃ w w', (cachingClient.scheduler v2Sdk).step w activeReply = some w' ∧ w'.shared = w.shared ∧
      ∃ spec, spec.userId = "user-a" ∧ Returns w' activeReply 0 spec (.ok true) := by
  have heval : (inflightLabels.foldlM (cachingClient.scheduler v2Sdk).step
      (cachingClient.start 0)).any (fun w₁ =>
        (w₁.shared.cache.any fun c => (c.noteRevocation "user-a" 2 (some "evt-1")).1) &&
        ((cachingClient.scheduler v2Sdk).step w₁ userWideEvent).any fun w =>
          (awaiting w 0 "jti-1" "user-a" &&
            w.shared.cache.any fun c => decide ("user-a" ∈ c.watermarks.keys)) &&
          ((cachingClient.scheduler v2Sdk).step w activeReply).isSome) = true := by decide +kernel
  obtain ⟨past, w₁, w, run, -, hacted, hstep, hrest⟩ := Run.exists_step heval
  obtain ⟨c₁, hc₁, hacted⟩ := (Option.any_eq_true _ _).mp hacted
  obtain ⟨hw, hnext⟩ := Bool.and_eq_true_iff.mp hrest
  obtain ⟨hawaiting, htracked⟩ := Bool.and_eq_true_iff.mp hw
  obtain ⟨c, hc, hmem⟩ := (Option.any_eq_true _ _).mp htracked
  obtain ⟨w', hstep'⟩ := Option.isSome_iff_exists.mp hnext
  obtain ⟨request, hrec, -, huser, -⟩ :=
    receives_of_awaiting v2Sdk ⟨200, .json (activeBody "user-a" 1)⟩ hawaiting rfl rfl
  have run' : Run (cachingClient.scheduler v2Sdk).step (cachingClient.start 0)
      ([] ++ (w₁, userWideEvent) :: past) w := run.next hstep
  obtain ⟨hsame, spec, -, hspec, hends⟩ :=
    (user_wide_barrier run' rfl hc₁ hacted (by simp) ⟨c, hc, of_decide_eq_true hmem⟩).2
      activeReply w' 0 request 1 hrec (by decide) hstep'
  have hown : spec.userId = "user-a" := hspec.symm.trans huser
  rcases hends with ⟨-, hret⟩ | ⟨hne, -⟩
  · exact ⟨w, w', hstep', hsame, spec, hown, hret⟩
  · exact absurd hown hne

/-- The cache holds an entry of this session. -/
def Present (w : ClientPool) (jti user : String) : Prop :=
  ∃ e, stored w jti = some e ∧ e.userId = user

/-- The step is an eviction that covers the session at this generation: of its JTI, of its
owner, of the whole cache, or by an event for one of these. -/
def EvictsSession (sdk : Sdk) (w : ClientPool) (l : ClientAct) (jti user : String) (g : ℤ) : Prop :=
  l = .env (.evictJti jti) ∨ l = .env (.evictUser user) ∨ l = .env .flushCache ∨
    ∃ payload, l = .env (.sessionRevoked payload) ∧
      (sdk.sessionRevoked payload = none ∨
      (∃ target eventId, sdk.sessionRevoked payload = some ⟨user, none, target, eventId⟩) ∨
      ∃ c eventId, w.shared.cache = some c ∧
        sdk.sessionRevoked payload = some ⟨user, some g, some jti, eventId⟩ ∧
        (c.noteRevocation user g eventId).1 = true)

theorem removes_of_evictsSession {jti user : String} {g : ℤ} {e : CacheEntry}
    (h : EvictsSession sdk w l jti user g) (he : stored w jti = some e) (huser : e.userId = user) :
    Removes sdk w l jti e := by
  obtain ⟨c, hc, -⟩ := Option.bind_eq_some_iff.mp he
  rcases h with rfl | rfl | rfl | ⟨payload, rfl, hnone | ⟨target, eventId, hv1⟩ |
    ⟨c', eventId, hc', hv2, hacted⟩⟩
  · rfl
  · exact huser
  · trivial
  · have hevicts : c.Evicts (sdk.sessionRevoked payload) jti e := by
      rw [hnone]
      trivial
    exact ⟨c, hc, hevicts⟩
  · have hevicts : c.Evicts (sdk.sessionRevoked payload) jti e := by
      rw [hv1]
      exact huser
    exact ⟨c, hc, hevicts⟩
  · have hevicts : c'.Evicts (sdk.sessionRevoked payload) jti e := by
      rw [hv2]
      exact ⟨hacted, rfl⟩
    exact ⟨c', hc', hevicts⟩

/-- A call that finds a live entry is answered from it. -/
theorem returns_of_stored {id : ℕ} {jti user : String} {e : CacheEntry}
    (he : stored w jti = some e) (hlive : w.shared.now < e.expiresAt)
    (h : (client.scheduler sdk).step w (.spawn id ⟨jti, user, false⟩) = some w') :
    Returns w' (.spawn id ⟨jti, user, false⟩) id ⟨jti, user, false⟩ (.ok false) := by
  obtain ⟨-, rfl⟩ := client_spawn_iff.mp h
  obtain ⟨c, hc, hget⟩ := Option.bind_eq_some_iff.mp he
  have hhit : (w.shared.lookup ⟨jti, user, false⟩).1 = some false := by
    simp only [ClientState.lookup, hc, Bool.false_eq_true, ↓reduceIte]
    exact JtiRevocationCache.get_eq_hit_iff.mpr ⟨rfl, e, hget, hlive⟩
  refine ⟨.inl rfl, ?_⟩
  rw [Pool.park_tasks_self, RemoteRevocationClient.startCall_hit hhit]

/-- An eviction that covers a session leaves no entry of it. -/
theorem not_present_of_evictsSession
    (hw : (client.scheduler sdk).Guaranteed (client.CallSegment sdk) w)
    (h : (client.scheduler sdk).step w l = some w') {jti user : String} {g : ℤ}
    (hevicts : EvictsSession sdk w l jti user g) : ¬ Present w' jti user := by
  rintro ⟨e, he, huser⟩
  rcases stored_step hw h he with ⟨id, c, ⟨request, ⟨spec, k, response, -, hl, -⟩, -⟩, -⟩ |
    ⟨hold, hkept⟩
  · rcases hevicts with rfl | rfl | rfl | ⟨payload, rfl, -⟩ <;> contradiction
  · exact hkept (removes_of_evictsSession hevicts hold huser)

/-- What an accepted reply leaves for its JTI. -/
theorem stored_offer {s : ClientState} {c : JtiRevocationCache} {jti user : String} {g : ℤ}
    (hc : s.cache = some c) (hw' : w'.shared = s.offer jti user g)
    (hsup : s.isSuperseded user g = false) (hfits : c.ttl < floatLimit) :
    stored w' jti = some ⟨s.now + c.ttl, user, g⟩ := by
  have hle : c.watermark user ≤ g := by
    simpa [ClientState.isSuperseded, hc, JtiRevocationCache.isSuperseded] using hsup
  rw [stored, hw', ClientState.offer, ClientState.mapCache, hc, Option.map_some, Option.bind_some]
  exact JtiRevocationCache.put_get?.mpr (.inl ⟨hle, hfits, rfl, rfl⟩)

/-- A reply that was in flight when its session was evicted stays out of the cache exactly
when its generation is below the user's watermark at its receipt, or the time to live is one that
`put` raises for. -/
theorem inflight_eviction_iff (hpos : 0 < client.cacheTtl) {now : ℚ}
    {newer older : List (ClientPool × ClientAct)} {w₁ : ClientPool} {l₁ : ClientAct} {id : ℕ}
    {request : StatusRequest} {jti user : String} {g : ℤ}
    (run : Run (client.scheduler sdk).step (client.start now) (newer ++ (w₁, l₁) :: older) w)
    (hevicts : EvictsSession sdk w₁ l₁ jti user g)
    (halone : ∀ x ∈ newer, ∀ e, ¬ Stores sdk x.1 x.2 jti e)
    (hjti : request.jti = jti) (huser : request.expectedUserId = user)
    (hrec : Receives sdk w l id request (.active user g))
    (h : (client.scheduler sdk).step w l = some w') :
    (¬ Present w' jti user ↔
      w.shared.isSuperseded user g = true ∨ floatLimit ≤ client.cacheTtl) ∧
    ∀ id₂ w'', (client.scheduler sdk).step w' (.spawn id₂ ⟨jti, user, false⟩) = some w'' →
      ((Present w' jti user ∧
        Returns w'' (.spawn id₂ ⟨jti, user, false⟩) id₂ ⟨jti, user, false⟩ (.ok false)) ↔
      w.shared.isSuperseded user g = false ∧ client.cacheTtl < floatLimit) := by
  obtain ⟨hbefore, w₂, hstep, hafter⟩ := run.split_cons
  have hw₁ := calls_guaranteed hbefore
  have habsent : ¬ Present w jti user := by
    rintro ⟨e, he, hown⟩
    rcases stored_since (calls_keep _ _ _ hw₁ hstep) hafter he with
      ⟨hold, -⟩ | ⟨newer', w₃, l₃, older', rfl, hstores, -⟩
    · exact not_present_of_evictsSession hw₁ hstep hevicts ⟨e, hold, hown⟩
    · exact halone (w₃, l₃) (by simp) e hstores
  have hshared : w'.shared = w.shared.offer jti user g := by
    obtain ⟨spec, hspecJti, hspecUser, ⟨-, -, hshared⟩ | ⟨hne, -⟩⟩ :=
      step_of_receives (calls_guaranteed run) hrec h
    · rw [hshared, ← hspecJti, hjti]
    · exact absurd (huser.symm.trans hspecUser) hne
  obtain ⟨c, hc, httl⟩ := cache_present hpos run
  have hsame : w.shared.offer jti user g = w.shared → ¬ Present w' jti user := by
    intro hoffer
    unfold Present stored
    rw [hshared, hoffer]
    exact habsent
  cases hsup : w.shared.isSuperseded user g with
  | true =>
    have hkept := hsame (offer_of_isSuperseded _ hsup)
    exact ⟨iff_of_true hkept (.inl rfl),
      fun id₂ w'' _ => iff_of_false (fun hp => hkept hp.1) (by simp)⟩
  | false =>
    rcases lt_or_ge client.cacheTtl floatLimit with hfits | hlimit
    swap
    · have hkept := hsame (offer_of_overflow hc (httl ▸ hlimit) jti user g)
      exact ⟨iff_of_true hkept (.inr hlimit), fun id₂ w'' _ =>
        iff_of_false (fun hp => hkept hp.1) fun hfits => not_lt.mpr hlimit hfits.2⟩
    have hstored := stored_offer hc hshared hsup (httl.symm ▸ hfits)
    have hpresent : Present w' jti user := ⟨_, hstored, rfl⟩
    have hnow : w'.shared.now = w.shared.now := by
      rw [hshared]
      rfl
    have hlive : w'.shared.now < w.shared.now + c.ttl := by
      have hpos' : (0 : ℚ) < c.ttl := by
        rw [httl]
        exact_mod_cast hpos
      rw [hnow]
      linarith
    refine ⟨iff_of_false (fun hn => hn hpresent) (by simp [hfits]), fun id₂ w'' h' =>
      iff_of_true ?_ ⟨rfl, hfits⟩⟩
    exact ⟨hpresent, returns_of_stored hstored hlive h'⟩

/-- The event that revokes the session at the generation of the reply in flight. -/
def sessionEvent : ClientAct :=
  .env (.sessionRevoked [("user_id", .str "user-a"), ("auth_generation", .int 1),
    ("jti", .str "jti-1"), ("event_id", .str "evt-1")])

theorem sessionEvent_inflight :
    ∃ past w₁ w w' request, Run (cachingClient.scheduler v2Sdk).step (cachingClient.start 0)
        ([] ++ (w₁, sessionEvent) :: past) w ∧
      EvictsSession v2Sdk w₁ sessionEvent "jti-1" "user-a" 1 ∧
      (∃ spec k, w₁.tasks 0 = some ⟨spec, .call (.post request) k⟩) ∧ request.jti = "jti-1" ∧
      request.expectedUserId = "user-a" ∧
      Receives v2Sdk w activeReply 0 request (.active "user-a" 1) ∧
      (cachingClient.scheduler v2Sdk).step w activeReply = some w' ∧
      w.shared.isSuperseded "user-a" 1 = false ∧ Present w' "jti-1" "user-a" := by
  have heval : (inflightLabels.foldlM (cachingClient.scheduler v2Sdk).step
      (cachingClient.start 0)).any (fun w₁ =>
        (awaiting w₁ 0 "jti-1" "user-a" &&
          w₁.shared.cache.any fun c => (c.noteRevocation "user-a" 1 (some "evt-1")).1) &&
        ((cachingClient.scheduler v2Sdk).step w₁ sessionEvent).any fun w =>
          (!w.shared.isSuperseded "user-a" 1) &&
          ((cachingClient.scheduler v2Sdk).step w activeReply).any fun w' =>
            (stored w' "jti-1").any fun e => decide (e.userId = "user-a")) = true := by
    decide +kernel
  obtain ⟨past, w₁, w, run, -, hw₁, hstep, hrest⟩ := Run.exists_step heval
  obtain ⟨hawaiting, hacted⟩ := Bool.and_eq_true_iff.mp hw₁
  obtain ⟨c, hc, hacted⟩ := (Option.any_eq_true _ _).mp hacted
  obtain ⟨hsup, hnext⟩ := Bool.and_eq_true_iff.mp hrest
  obtain ⟨w', hstep', hkept⟩ := (Option.any_eq_true _ _).mp hnext
  obtain ⟨e, he, hown⟩ := (Option.any_eq_true _ _).mp hkept
  obtain ⟨request, -, hjti, huser, spec, k, ht⟩ :=
    receives_of_awaiting v2Sdk ⟨200, .json (activeBody "user-a" 1)⟩ hawaiting rfl rfl
  obtain ⟨s, -, hw⟩ := Scheduler.step_env_iff.mp hstep
  have ht' : w.tasks 0 = some ⟨spec, .call (.post request) k⟩ := by rwa [hw]
  refine ⟨past, w₁, w, w', request, run.next hstep, .inr (.inr (.inr ⟨_, rfl, .inr (.inr ?_)⟩)),
    ⟨spec, k, ht⟩, hjti, huser, ⟨spec, k, _, ht', rfl, rfl, rfl⟩, hstep', by simpa using hsup,
    e, he, of_decide_eq_true hown⟩
  exact ⟨c, some "evt-1", hc, rfl, hacted⟩

theorem inflight_eviction_iff_sessionEvent :
    ∃ w w', (cachingClient.scheduler v2Sdk).step w activeReply = some w' ∧
      (¬ Present w' "jti-1" "user-a" ↔ w.shared.isSuperseded "user-a" 1 = true ∨
        floatLimit ≤ cachingClient.cacheTtl) := by
  obtain ⟨past, w₁, w, w', request, run, hevicts, -, hjti, huser, hrec, hstep, -, -⟩ :=
    sessionEvent_inflight
  exact ⟨w, w', hstep,
    (inflight_eviction_iff (by decide) run hevicts (by simp) hjti huser hrec hstep).1⟩

theorem inflight_eviction_not_kept :
    ¬ ∀ (client : RemoteRevocationClient) (sdk : Sdk) (now : ℚ)
      (newer older : List (ClientPool × ClientAct)) (w₁ w w' : ClientPool) (l₁ l : ClientAct)
      (id : ℕ) (request : StatusRequest) (jti user : String) (g : ℤ), 0 < client.cacheTtl →
      Run (client.scheduler sdk).step (client.start now) (newer ++ (w₁, l₁) :: older) w →
      (∃ spec k, w₁.tasks id = some ⟨spec, .call (.post request) k⟩) →
      EvictsSession sdk w₁ l₁ jti user g →
      (∀ x ∈ newer, ∀ e, ¬ Stores sdk x.1 x.2 jti e) →
      request.jti = jti → request.expectedUserId = user →
      Receives sdk w l id request (.active user g) →
      (client.scheduler sdk).step w l = some w' → ¬ Present w' jti user := by
  intro h
  obtain ⟨past, w₁, w, w', request, run, hevicts, hsent, hjti, huser, hrec, hstep, -, hpresent⟩ :=
    sessionEvent_inflight
  exact h cachingClient v2Sdk 0 [] past w₁ w w' sessionEvent activeReply 0 request
    "jti-1" "user-a" 1 (by decide) run hsent hevicts (by simp) hjti huser hrec hstep hpresent

end FastapiM8
