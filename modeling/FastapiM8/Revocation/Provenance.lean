import FastapiM8.Revocation.Runs

/-! Where a call's answer comes from: every entry of the cache goes back to an active reply
of the issuer that no eviction has overtaken. -/
namespace FastapiM8

variable {client : RemoteRevocationClient} {sdk : Sdk} {w w' : ClientPool} {l : ClientAct}

/-- The step ends the call `id`, which was made for `spec`, with the outcome `r`. -/
def Returns (w' : ClientPool) (l : ClientAct) (id : ℕ) (spec : CallSpec) (r : Except PyExc Bool) :
    Prop :=
  (l = .spawn id spec ∨ ∃ answer, l = .resume id answer) ∧ w'.tasks id = some ⟨spec, .ret r⟩

/-- The step answers the call `id` from the cache. -/
def Hits (w w' : ClientPool) (l : ClientAct) (id : ℕ) (spec : CallSpec) : Prop :=
  l = .spawn id spec ∧ w'.tasks id = some ⟨spec, .ret (.ok false)⟩ ∧
    ∃ e, stored w spec.jti = some e ∧ w.shared.now < e.expiresAt

/-- A call that ends when it starts was answered from the cache. -/
theorem hits_of_spawn {id : ℕ} {spec spec' : CallSpec} {r : Except PyExc Bool}
    (h : (client.scheduler sdk).step w (.spawn id spec) = some w')
    (ht : w'.tasks id = some ⟨spec', .ret r⟩) :
    spec' = spec ∧ r = .ok false ∧ spec.bypassCache = false ∧
      Hits w w' (.spawn id spec) id spec := by
  obtain ⟨-, rfl⟩ := client_spawn_iff.mp h
  rw [Pool.park_tasks_self, Option.some.injEq, Thread.mk.injEq] at ht
  obtain ⟨rfl, hprog⟩ := ht
  cases hhit : (w.shared.lookup spec).1 with
  | none =>
    rw [RemoteRevocationClient.startCall_miss hhit, RemoteRevocationClient.run_askIssuer] at hprog
    contradiction
  | some hit =>
    obtain ⟨rfl, hbypass, c, e, hc, he, hlive⟩ := lookup_eq_hit hhit
    rw [RemoteRevocationClient.startCall_hit hhit, Prog.ret.injEq] at hprog
    have hstored : stored w spec.jti = some e := Option.bind_eq_some_iff.mpr ⟨c, hc, he⟩
    have hended : (w.park id spec (client.startCall sdk spec w.shared)).tasks id =
        some ⟨spec, .ret (.ok false)⟩ := by
      rw [Pool.park_tasks_self, RemoteRevocationClient.startCall_hit hhit]
    exact ⟨rfl, hprog.symm, hbypass, rfl, hended, e, hstored, hlive⟩

/-- How a call that was resumed comes to its end. -/
theorem returns_of_resume (hw : (client.scheduler sdk).Guaranteed (client.CallSegment sdk) w)
    {id : ℕ} {answer : ClientAnswer} {spec : CallSpec} {r : Except PyExc Bool}
    (h : (client.scheduler sdk).step w (.resume id answer) = some w')
    (ht : w'.tasks id = some ⟨spec, .ret r⟩) :
    (w'.shared = w.shared ∧ ∀ b, r = .ok b → b = false → client.failClosed = false) ∨
    ∃ g request, Receives sdk w (.resume id answer : ClientAct) id request (.active spec.userId g) ∧
      request.jti = spec.jti ∧ request.expectedUserId = spec.userId ∧
      r = w.shared.answer spec.jti spec.userId g ∧
      w'.shared = w.shared.offer spec.jti spec.userId g := by
  rcases client_step_cases hw h with ⟨_, _, hl, -, -⟩ |
    ⟨id', answer', spec', o, k, a, r', hl, ht', ha, hawaits, hseg, rfl⟩ | ⟨_, _, hl, -, -⟩
  · contradiction
  · obtain ⟨rfl, rfl⟩ := Act.resume.inj hl
    rw [Pool.park_tasks_self, Option.some.injEq, Thread.mk.injEq] at ht
    obtain ⟨rfl, hprog⟩ := ht
    cases hseg with
    | waits h o' k' ho => contradiction
    | fails h r₀ hr =>
      obtain rfl := Prog.ret.inj hprog
      exact .inl ⟨rfl, fun b hb _ => (hr b hb).2⟩
    | refuses owner g h hne =>
      obtain rfl := Prog.ret.inj hprog
      exact .inl ⟨rfl, fun b hb => by cases hb⟩
    | denies h =>
      obtain rfl := Prog.ret.inj hprog
      exact .inl ⟨rfl, fun b hb hf => by cases hb; contradiction⟩
    | decides g hreply =>
      obtain rfl := Prog.ret.inj hprog
      obtain ⟨request, hreceives, hjti, huser⟩ := receives_of_reply ht' ha hawaits hreply
      exact .inr ⟨g, request, hreceives, hjti, huser, rfl, rfl⟩
  · contradiction

/-- From a state whose calls are guaranteed on, an entry of the cache was there already or was
stored by a step, and no later step is an eviction that covers it. -/
theorem stored_since {w₀ : ClientPool} {past : List (ClientPool × ClientAct)}
    (hw₀ : (client.scheduler sdk).Guaranteed (client.CallSegment sdk) w₀)
    (run : Run (client.scheduler sdk).step w₀ past w) {jti : String} {e : CacheEntry}
    (he : stored w jti = some e) :
    (stored w₀ jti = some e ∧ ∀ x ∈ past, ¬ Removes sdk x.1 x.2 jti e) ∨
      ∃ newer w₁ l₁ older, past = newer ++ (w₁, l₁) :: older ∧ Stores sdk w₁ l₁ jti e ∧
        ∀ x ∈ newer, ¬ Removes sdk x.1 x.2 jti e :=
  run.provenance stored (Stores sdk) (Removes sdk) calls_keep
    (fun _ _ _ hw h _ _ he => stored_step hw h he) hw₀ he

theorem stored_start (now : ℚ) (jti : String) : stored (client.start now) jti = none := by
  simp only [stored, RemoteRevocationClient.start, Pool.idle, ClientState.init]
  split <;> rfl

/-- An entry of a reached cache was stored by a step of the run, and no later step is an
eviction that covers it. -/
theorem stored_origin {now : ℚ} {past : List (ClientPool × ClientAct)}
    (run : Run (client.scheduler sdk).step (client.start now) past w)
    {jti : String} {e : CacheEntry} (he : stored w jti = some e) :
    ∃ newer w₁ l₁ older, past = newer ++ (w₁, l₁) :: older ∧ Stores sdk w₁ l₁ jti e ∧
      ∀ x ∈ newer, ¬ Removes sdk x.1 x.2 jti e := by
  rcases stored_since (Scheduler.guaranteed_idle _ _) run he with ⟨hstart, -⟩ | h
  · have hnone : stored (client.start now) jti = none := stored_start now jti
    exact absurd (hnone.symm.trans hstart) (by simp)
  · exact h

theorem now_le_of_mem {w₀ : ClientPool} {newer older : List (ClientPool × ClientAct)}
    {w₁ : ClientPool} {l₁ : ClientAct}
    (hw₀ : (client.scheduler sdk).Guaranteed (client.CallSegment sdk) w₀)
    (run : Run (client.scheduler sdk).step w₀ (newer ++ (w₁, l₁) :: older) w) :
    w₁.shared.now ≤ w.shared.now := by
  obtain ⟨hbefore, w₂, hstep, hafter⟩ := run.split_cons
  have hw₁ := hbefore.invariant calls_keep hw₀
  have hkeep : ∀ s l s', (client.scheduler sdk).Guaranteed (client.CallSegment sdk) s ∧
      w₁.shared.now ≤ s.shared.now → (client.scheduler sdk).step s l = some s' →
      (client.scheduler sdk).Guaranteed (client.CallSegment sdk) s' ∧
        w₁.shared.now ≤ s'.shared.now := by
    intro s l s' hs h
    exact ⟨calls_keep s l s' hs.1 h, hs.2.trans (now_le_step hs.1 h)⟩
  exact (hafter.invariant hkeep ⟨calls_keep _ _ _ hw₁ hstep, now_le_step hw₁ hstep⟩).2

/-- In fail-closed mode a call is accepted on an active reply: on its own one, or on an
earlier one within the time to live that nothing has evicted since. -/
theorem accepted_backed (hclosed : client.failClosed = true) {now : ℚ}
    {past : List (ClientPool × ClientAct)}
    (run : Run (client.scheduler sdk).step (client.start now) past w)
    (h : (client.scheduler sdk).step w l = some w') {id : ℕ} {spec : CallSpec}
    (hret : Returns w' l id spec (.ok false)) :
    (∃ g, Accepts sdk w l id spec.jti spec.userId g) ∨
    ∃ e newer w₁ l₁ id₁ older, stored w spec.jti = some e ∧ past = newer ++ (w₁, l₁) :: older ∧
      Accepts sdk w₁ l₁ id₁ spec.jti e.userId e.authGeneration ∧
      w₁.shared.now ≤ w.shared.now ∧ w.shared.now < w₁.shared.now + client.cacheTtl ∧
      ∀ x ∈ newer, ¬ Removes sdk x.1 x.2 spec.jti e := by
  obtain ⟨rfl | ⟨answer, rfl⟩, ht⟩ := hret
  · obtain ⟨-, -, -, -, -, e, he, hlive⟩ := hits_of_spawn h ht
    obtain ⟨newer, w₁, l₁, older, rfl, ⟨id₁, c, haccepts, hc, -, hexp⟩, hkept⟩ :=
      stored_origin run he
    obtain ⟨ops, hops⟩ := cache_run run.split_cons.1 c hc
    have httl : c.ttl = client.cacheTtl := JtiRevocationCache.opRun_ttl hops
    have hordered : w₁.shared.now ≤ w.shared.now :=
      now_le_of_mem (Scheduler.guaranteed_idle _ _) run
    rw [hexp, httl] at hlive
    exact .inr ⟨e, newer, w₁, l₁, id₁, older, he, rfl, haccepts, hordered, hlive, hkept⟩
  · rcases returns_of_resume (calls_guaranteed run) h ht with ⟨-, hopen⟩ |
      ⟨g, request, hreceives, hjti, huser, hr, -⟩
    · rw [hopen false rfl rfl] at hclosed
      contradiction
    · have hactive : Receives sdk w (.resume id answer : ClientAct) id request
          (.active request.expectedUserId g) := by rwa [huser]
      exact .inl ⟨g, request, hactive, hjti, huser, (ClientState.eq_of_answer hr.symm).symm⟩

/-- A call that stores a session, and five seconds later one more call for it. -/
def hitLabels : List ClientAct :=
  asks 0 ⟨"jti-1", "user-a", false⟩ (activeBody "user-a" 1) ++ [Act.env (.advance 5)]

theorem accepted_backed_hit :
    ∃ w past, Run (cachingClient.scheduler v2Sdk).step (cachingClient.start 0) past w ∧
      ((∃ g, Accepts v2Sdk w (.spawn 1 ⟨"jti-1", "user-a", false⟩) 1 "jti-1" "user-a" g) ∨
      ∃ e newer w₁ l₁ id₁ older, stored w "jti-1" = some e ∧ past = newer ++ (w₁, l₁) :: older ∧
        Accepts v2Sdk w₁ l₁ id₁ "jti-1" e.userId e.authGeneration ∧
        w₁.shared.now ≤ w.shared.now ∧ w.shared.now < w₁.shared.now + cachingClient.cacheTtl ∧
        ∀ x ∈ newer, ¬ Removes v2Sdk x.1 x.2 "jti-1" e) := by
  have heval : (hitLabels.foldlM (cachingClient.scheduler v2Sdk).step (cachingClient.start 0)).any
      (fun w => true && ((cachingClient.scheduler v2Sdk).step w
        (.spawn 1 ⟨"jti-1", "user-a", false⟩)).any
          fun w' => answered w' 1 ⟨"jti-1", "user-a", false⟩ false) = true := by decide +kernel
  obtain ⟨past, w, w', run, -, -, hstep, hanswered⟩ := Run.exists_step heval
  exact ⟨w, past, run, accepted_backed rfl run hstep ⟨.inl rfl, answered_iff.mp hanswered⟩⟩

theorem offer_of_isSuperseded {s : ClientState} {userId : String} {g : ℤ} (jti : String)
    (h : s.isSuperseded userId g = true) : s.offer jti userId g = s := by
  obtain ⟨cache, now⟩ := s
  cases cache with
  | none => rfl
  | some c =>
    have hlt : g < c.watermark userId := of_decide_eq_true h
    simp only [ClientState.offer, ClientState.mapCache, Option.map_some]
    rw [JtiRevocationCache.put_of_lt hlt]

theorem answer_of_isSuperseded {s : ClientState} {userId : String} {g : ℤ} (jti : String)
    (h : s.isSuperseded userId g = true) : s.answer jti userId g = .ok true := by
  obtain ⟨cache, now⟩ := s
  cases cache with
  | none => contradiction
  | some c =>
    have hlt : g < c.watermark userId := of_decide_eq_true h
    have hknown : c.isSuperseded userId g = true := h
    simp only [ClientState.answer, JtiRevocationCache.put_of_lt hlt, hknown]
    rfl

theorem offer_of_overflow {s : ClientState} {c : JtiRevocationCache} (hc : s.cache = some c)
    (hlimit : floatLimit ≤ c.ttl) (jti userId : String) (g : ℤ) : s.offer jti userId g = s := by
  obtain ⟨cache, now⟩ := s
  obtain rfl : cache = some c := hc
  have hput : (c.put now jti userId g).2 = c := by
    rcases lt_or_ge g (c.watermark userId) with hlt | hle
    · rw [JtiRevocationCache.put_of_lt hlt]
    · rw [JtiRevocationCache.put_of_overflow hle hlimit]
  simp only [ClientState.offer, ClientState.mapCache, Option.map_some, hput]

/-- A denial leaves the cache as it is. -/
theorem stored_of_denied (hw : (client.scheduler sdk).Guaranteed (client.CallSegment sdk) w)
    (h : (client.scheduler sdk).step w l = some w') {id : ℕ} {spec : CallSpec}
    (hret : Returns w' l id spec (.ok true)) (jti : String) : stored w' jti = stored w jti := by
  obtain ⟨rfl | ⟨answer, rfl⟩, ht⟩ := hret
  · obtain ⟨-, hfalse, -⟩ := hits_of_spawn h ht
    simp at hfalse
  · unfold stored
    rcases returns_of_resume hw h ht with ⟨hsame, -⟩ | ⟨g, request, -, -, -, hsup, hsame⟩
    · rw [hsame]
    · rw [hsame, offer_of_isSuperseded _ (ClientState.eq_of_answer hsup.symm).symm]

/-- After a denial the general tier is answered from the cache only through an active reply
received since, or through an entry that the cache held when it denied and that has neither
expired nor been evicted. -/
theorem denial_sticks {now : ℚ} {newer older : List (ClientPool × ClientAct)}
    {w₁ w₂ : ClientPool} {l₁ : ClientAct} {id₁ id₂ : ℕ} {jti user : String}
    (run : Run (client.scheduler sdk).step (client.start now) (newer ++ (w₁, l₁) :: older) w)
    (hdenial : (client.scheduler sdk).step w₁ l₁ = some w₂)
    (hdenied : Returns w₂ l₁ id₁ ⟨jti, user, true⟩ (.ok true))
    (h : (client.scheduler sdk).step w (.spawn id₂ ⟨jti, user, false⟩) = some w')
    (haccepted : Returns w' (.spawn id₂ ⟨jti, user, false⟩) id₂ ⟨jti, user, false⟩ (.ok false)) :
    (∃ x ∈ newer, ∃ id₃ owner g, Accepts sdk x.1 x.2 id₃ jti owner g) ∨
      ∃ e, stored w₁ jti = some e ∧ w.shared.now < e.expiresAt ∧
        ∀ x ∈ newer, ¬ Removes sdk x.1 x.2 jti e := by
  obtain ⟨hbefore, w₂', hstep, hafter⟩ := run.split_cons
  obtain rfl := Option.some.inj (hdenial.symm.trans hstep)
  have hw₁ := calls_guaranteed hbefore
  obtain ⟨-, -, -, -, -, e, he, hlive⟩ := hits_of_spawn h haccepted.2
  rcases stored_since (calls_keep _ _ _ hw₁ hdenial) hafter he with
    ⟨hold, hkept⟩ | ⟨newer', w₃, l₃, older', rfl, ⟨id₃, -, haccepts, -⟩, -⟩
  · rw [stored_of_denied hw₁ hdenial hdenied] at hold
    exact .inr ⟨e, hold, hlive, hkept⟩
  · exact .inl ⟨(w₃, l₃), by simp, id₃, _, _, haccepts⟩

/-- A session is cached, and then a bypassing call finds it revoked. -/
def revokedLabels : List ClientAct :=
  asks 0 ⟨"jti-1", "user-a", false⟩ (activeBody "user-a" 1) ++
    [Act.spawn 1 ⟨"jti-1", "user-a", true⟩, Act.resume 1 (.headers [])]

def revokedReply : ClientAct := .resume 1 (.response ⟨200, .json inactiveBody⟩)

theorem revokedReply_then_hit :
    ∃ past w₁ w₂ w', Run (cachingClient.scheduler v2Sdk).step (cachingClient.start 0) past w₁ ∧
      (cachingClient.scheduler v2Sdk).step w₁ revokedReply = some w₂ ∧
      Returns w₂ revokedReply 1 ⟨"jti-1", "user-a", true⟩ (.ok true) ∧
      (cachingClient.scheduler v2Sdk).step w₂ (.spawn 2 ⟨"jti-1", "user-a", false⟩) = some w' ∧
      Returns w' (.spawn 2 ⟨"jti-1", "user-a", false⟩) 2
        ⟨"jti-1", "user-a", false⟩ (.ok false) := by
  have heval : (revokedLabels.foldlM (cachingClient.scheduler v2Sdk).step
      (cachingClient.start 0)).any (fun w₁ => true &&
        ((cachingClient.scheduler v2Sdk).step w₁ revokedReply).any fun w₂ =>
          answered w₂ 1 ⟨"jti-1", "user-a", true⟩ true &&
            ((cachingClient.scheduler v2Sdk).step w₂ (.spawn 2 ⟨"jti-1", "user-a", false⟩)).any
              fun w' => answered w' 2 ⟨"jti-1", "user-a", false⟩ false) = true := by decide +kernel
  obtain ⟨past, w₁, w₂, run, -, -, hstep, hrest⟩ := Run.exists_step heval
  obtain ⟨hdenied, hhit⟩ := Bool.and_eq_true_iff.mp hrest
  obtain ⟨w', hstep', haccepted⟩ := (Option.any_eq_true _ _).mp hhit
  exact ⟨past, w₁, w₂, w', run, hstep, ⟨.inr ⟨_, rfl⟩, answered_iff.mp hdenied⟩, hstep',
    .inl rfl, answered_iff.mp haccepted⟩

theorem denial_sticks_revoked :
    ∃ (w₁ w₂ : ClientPool) (e : CacheEntry), stored w₁ "jti-1" = some e ∧
      w₂.shared.now < e.expiresAt := by
  obtain ⟨past, w₁, w₂, w', run, hstep, hdenied, hstep', haccepted⟩ := revokedReply_then_hit
  have run' : Run (cachingClient.scheduler v2Sdk).step (cachingClient.start 0)
      ([] ++ (w₁, revokedReply) :: past) w₂ := run.next hstep
  rcases denial_sticks run' hstep hdenied hstep' haccepted with ⟨x, hx, -⟩ | ⟨e, he, hlive, -⟩
  · contradiction
  · exact ⟨w₁, w₂, e, he, hlive⟩

/-- A general call is waiting for the issuer while a bypassing call is denied. -/
def overtakenLabels : List ClientAct :=
  [.spawn 0 ⟨"jti-1", "user-a", false⟩, .resume 0 (.headers []),
    .spawn 1 ⟨"jti-1", "user-a", true⟩, .resume 1 (.headers [])]

def overtakenReply : ClientAct := .resume 0 (.response ⟨200, .json (activeBody "user-a" 1)⟩)

theorem overtakenReply_then_hit :
    ∃ past w₁ w₂ w w', Run (cachingClient.scheduler v2Sdk).step (cachingClient.start 0)
        ([(w₂, overtakenReply)] ++ (w₁, revokedReply) :: past) w ∧
      (cachingClient.scheduler v2Sdk).step w₁ revokedReply = some w₂ ∧
      Returns w₂ revokedReply 1 ⟨"jti-1", "user-a", true⟩ (.ok true) ∧
      stored w₁ "jti-1" = none ∧
      (cachingClient.scheduler v2Sdk).step w (.spawn 2 ⟨"jti-1", "user-a", false⟩) = some w' ∧
      Returns w' (.spawn 2 ⟨"jti-1", "user-a", false⟩) 2
        ⟨"jti-1", "user-a", false⟩ (.ok false) := by
  have heval : (overtakenLabels.foldlM (cachingClient.scheduler v2Sdk).step
      (cachingClient.start 0)).any (fun w₁ => (stored w₁ "jti-1").isNone &&
        ((cachingClient.scheduler v2Sdk).step w₁ revokedReply).any fun w₂ =>
          answered w₂ 1 ⟨"jti-1", "user-a", true⟩ true &&
            ((cachingClient.scheduler v2Sdk).step w₂ overtakenReply).any fun w =>
              ((cachingClient.scheduler v2Sdk).step w (.spawn 2 ⟨"jti-1", "user-a", false⟩)).any
                fun w' => answered w' 2 ⟨"jti-1", "user-a", false⟩ false) = true := by
    decide +kernel
  obtain ⟨past, w₁, w₂, run, -, hnone, hstep, hrest⟩ := Run.exists_step heval
  obtain ⟨hdenied, hlate⟩ := Bool.and_eq_true_iff.mp hrest
  obtain ⟨w, hstep₂, hhit⟩ := (Option.any_eq_true _ _).mp hlate
  obtain ⟨w', hstep', haccepted⟩ := (Option.any_eq_true _ _).mp hhit
  exact ⟨past, w₁, w₂, w, w', (run.next hstep).next hstep₂, hstep,
    ⟨.inr ⟨_, rfl⟩, answered_iff.mp hdenied⟩, Option.isNone_iff_eq_none.mp hnone, hstep',
    .inl rfl, answered_iff.mp haccepted⟩

/-- A hit after a denial needs no active reply in between; and when the cache held nothing for
the JTI, the reply in between can be one to an earlier request. -/
theorem denial_does_not_stick :
    (¬ ∀ (client : RemoteRevocationClient) (sdk : Sdk) (now : ℚ)
      (newer older : List (ClientPool × ClientAct)) (w w₁ w₂ w' : ClientPool) (l₁ : ClientAct)
      (id₁ id₂ : ℕ) (jti user : String), 0 < client.cacheTtl →
      Run (client.scheduler sdk).step (client.start now) (newer ++ (w₁, l₁) :: older) w →
      (client.scheduler sdk).step w₁ l₁ = some w₂ →
      Returns w₂ l₁ id₁ ⟨jti, user, true⟩ (.ok true) →
      (client.scheduler sdk).step w (.spawn id₂ ⟨jti, user, false⟩) = some w' →
      Returns w' (.spawn id₂ ⟨jti, user, false⟩) id₂ ⟨jti, user, false⟩ (.ok false) →
      ∃ x ∈ newer, ∃ id₃ request owner g,
        Receives sdk x.1 x.2 id₃ request (.active owner g) ∧ request.jti = jti) ∧
    ¬ ∀ (client : RemoteRevocationClient) (sdk : Sdk) (now : ℚ)
      (newer older : List (ClientPool × ClientAct)) (w w₁ w₂ w' : ClientPool) (l₁ : ClientAct)
      (id₁ id₂ : ℕ) (jti user : String), 0 < client.cacheTtl →
      Run (client.scheduler sdk).step (client.start now) (newer ++ (w₁, l₁) :: older) w →
      (client.scheduler sdk).step w₁ l₁ = some w₂ →
      Returns w₂ l₁ id₁ ⟨jti, user, true⟩ (.ok true) → stored w₁ jti = none →
      (client.scheduler sdk).step w (.spawn id₂ ⟨jti, user, false⟩) = some w' →
      Returns w' (.spawn id₂ ⟨jti, user, false⟩) id₂ ⟨jti, user, false⟩ (.ok false) →
      ∃ x ∈ newer, ∃ id₃ request owner g,
        Receives sdk x.1 x.2 id₃ request (.active owner g) ∧ request.jti = jti ∧
        ∀ spec k, w₂.tasks id₃ ≠ some ⟨spec, .call (.post request) k⟩ := by
  constructor
  · intro h
    obtain ⟨past, w₁, w₂, w', run, hstep, hdenied, hstep', haccepted⟩ := revokedReply_then_hit
    obtain ⟨x, hx, -⟩ := h cachingClient v2Sdk 0 [] past w₂ w₁ w₂ w' revokedReply 1 2 "jti-1"
      "user-a" (by decide) (run.next hstep) hstep hdenied hstep' haccepted
    contradiction
  · intro h
    obtain ⟨past, w₁, w₂, w, w', run, hstep, hdenied, hnone, hstep', haccepted⟩ :=
      overtakenReply_then_hit
    obtain ⟨x, hx, id₃, request, owner, g, ⟨spec, k, response, ht, -⟩, -, hlater⟩ :=
      h cachingClient v2Sdk 0 _ past w w₁ w₂ w' revokedReply 1 2 "jti-1" "user-a" (by decide) run
        hstep hdenied hnone hstep' haccepted
    obtain rfl := List.mem_singleton.mp hx
    exact hlater spec k ht

/-- The entry that answers the call was stored from an active reply about the call's user. -/
def SubjectBound (sdk : Sdk) (past : List (ClientPool × ClientAct)) (w : ClientPool)
    (spec : CallSpec) : Prop :=
  ∃ newer w₁ l₁ older e, past = newer ++ (w₁, l₁) :: older ∧ Stores sdk w₁ l₁ spec.jti e ∧
    stored w spec.jti = some e ∧ e.userId = spec.userId

/-- The owner of a stored entry is the user that the storing call asserted. -/
theorem stores_spawned {now : ℚ} {past : List (ClientPool × ClientAct)}
    (run : Run (client.scheduler sdk).step (client.start now) past w)
    {jti : String} {e : CacheEntry} (h : Stores sdk w l jti e) :
    ∃ w₁ id spec, (w₁, Act.spawn id spec) ∈ past ∧ spec.jti = jti ∧ spec.userId = e.userId := by
  obtain ⟨id, c, ⟨request, ⟨spec, k, response, ht, rfl, -⟩, hjti, huser, -⟩, -⟩ := h
  obtain ⟨⟨hreqJti, hreqUser⟩, -⟩ := (calls_guaranteed run).segment ht (.ok response) w.shared
  obtain ⟨w₁, hmem⟩ := Scheduler.spawned run ht
  exact ⟨w₁, id, spec, hmem, hreqJti.symm.trans hjti, hreqUser.symm.trans huser⟩

/-- A hit is bound to the call's subject exactly when the entry is recorded for that user,
and always is when all calls for its JTI assert one user. -/
theorem hit_subject_bound_iff {now : ℚ} {past : List (ClientPool × ClientAct)}
    (run : Run (client.scheduler sdk).step (client.start now) past w) {id : ℕ} {spec : CallSpec}
    (h : (client.scheduler sdk).step w (.spawn id spec) = some w')
    (haccepted : Returns w' (.spawn id spec) id spec (.ok false)) :
    (SubjectBound sdk past w spec ↔
      ∀ e, stored w spec.jti = some e → e.userId = spec.userId) ∧
    ((∀ x ∈ past, ∀ id' spec', x.2 = .spawn id' spec' → spec'.jti = spec.jti →
      spec'.userId = spec.userId) → SubjectBound sdk past w spec) := by
  obtain ⟨-, -, -, -, -, e, he, -⟩ := hits_of_spawn h haccepted.2
  obtain ⟨newer, w₁, l₁, older, rfl, hstores, -⟩ := stored_origin run he
  have hiff : SubjectBound sdk (newer ++ (w₁, l₁) :: older) w spec ↔
      ∀ e, stored w spec.jti = some e → e.userId = spec.userId := by
    constructor
    · rintro ⟨-, -, -, -, e', -, -, he', hown⟩ e'' he''
      obtain rfl := Option.some.inj (he'.symm.trans he'')
      exact hown
    · intro hown
      exact ⟨newer, w₁, l₁, older, e, rfl, hstores, he, hown e he⟩
  refine ⟨hiff, fun hsame => hiff.mpr fun e' he' => ?_⟩
  obtain rfl := Option.some.inj (he.symm.trans he')
  obtain ⟨w₂, id', spec', hmem, hjti, huser⟩ := stores_spawned run.split_cons.1 hstores
  rw [← huser]
  exact hsame _ (List.mem_append_right _ (List.mem_cons_of_mem _ hmem)) id' spec' rfl hjti

/-- One session cached for `user-a`, and a call that asserts `user-b` for its JTI. -/
theorem cached_for_other_subject (user : String) (huser : user = "user-a" ∨ user = "user-b") :
    ∃ past w w', Run (cachingClient.scheduler v2Sdk).step (cachingClient.start 0) past w ∧
      (cachingClient.scheduler v2Sdk).step w (.spawn 1 ⟨"jti-1", user, false⟩) = some w' ∧
      Returns w' (.spawn 1 ⟨"jti-1", user, false⟩) 1 ⟨"jti-1", user, false⟩ (.ok false) ∧
      (stored w "jti-1").map CacheEntry.userId = some "user-a" := by
  have heval : ∀ user ∈ ["user-a", "user-b"],
      ((asks 0 ⟨"jti-1", "user-a", false⟩ (activeBody "user-a" 1)).foldlM
        (cachingClient.scheduler v2Sdk).step (cachingClient.start 0)).any (fun w =>
          decide ((stored w "jti-1").map CacheEntry.userId = some "user-a") &&
          ((cachingClient.scheduler v2Sdk).step w (.spawn 1 ⟨"jti-1", user, false⟩)).any
            fun w' => answered w' 1 ⟨"jti-1", user, false⟩ false) = true := by decide +kernel
  obtain ⟨past, w, w', run, -, hown, hstep, haccepted⟩ :=
    Run.exists_step (heval user (by simpa using huser))
  exact ⟨past, w, w', run, hstep, ⟨.inl rfl, answered_iff.mp haccepted⟩, of_decide_eq_true hown⟩

theorem hit_subject_bound_own :
    ∃ past w, Run (cachingClient.scheduler v2Sdk).step (cachingClient.start 0) past w ∧
      SubjectBound v2Sdk past w ⟨"jti-1", "user-a", false⟩ := by
  obtain ⟨past, w, w', run, hstep, haccepted, hown⟩ := cached_for_other_subject "user-a" (.inl rfl)
  refine ⟨past, w, run, (hit_subject_bound_iff run hstep haccepted).1.mpr fun e he => ?_⟩
  rw [he] at hown
  exact Option.some.inj hown

theorem hit_not_subject_bound :
    ¬ ∀ (client : RemoteRevocationClient) (sdk : Sdk) (now : ℚ)
      (past : List (ClientPool × ClientAct)) (w w' : ClientPool) (id : ℕ) (spec : CallSpec),
      Run (client.scheduler sdk).step (client.start now) past w →
      (client.scheduler sdk).step w (.spawn id spec) = some w' →
      Returns w' (.spawn id spec) id spec (.ok false) → SubjectBound sdk past w spec := by
  intro h
  obtain ⟨past, w, w', run, hstep, haccepted, hown⟩ := cached_for_other_subject "user-b" (.inr rfl)
  obtain ⟨-, -, -, -, e, -, -, he, huser⟩ :=
    h cachingClient v2Sdk 0 past w w' 1 _ run hstep haccepted
  rw [he] at hown
  exact absurd (huser.symm.trans (Option.some.inj hown)) (by decide)

end FastapiM8
