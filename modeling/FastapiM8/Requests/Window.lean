import FastapiM8.Requests

/-! How long a service admits a session that its issuer no longer confirms. -/
namespace FastapiM8

variable {client : RemoteRevocationClient} {sdk : Sdk} {deps : AuthDeps} {policy : PolicySdk}
  {w w' w₀ : DepsPool} {l : DepsAct}

/-- An entry of a reached cache expires within the time to live. -/
theorem expires_within {now : ℚ} {past : List (ClientPool × ClientAct)} {v : ClientPool}
    (run : Run (client.scheduler sdk).step (client.start now) past v) {jti : String}
    {e : CacheEntry} (he : stored v jti = some e) :
    e.expiresAt ≤ v.shared.now + client.cacheTtl := by
  obtain ⟨newer, v₁, l₁, older, rfl, ⟨id, c, -, hc, -, hexpires⟩, -⟩ := stored_origin run he
  have hordered : v₁.shared.now ≤ v.shared.now := now_le_of_mem (Scheduler.guaranteed_idle _ _) run
  obtain ⟨ops, hops⟩ := cache_run run.split_cons.1 c hc
  have httl : c.ttl = client.cacheTtl := JtiRevocationCache.opRun_ttl hops
  rw [hexpires, httl]
  linarith

/-- The step receives an active reply to a status request for this session. -/
def Confirms (sdk : Sdk) (w : DepsPool) (l : DepsAct) (jti : String) : Prop :=
  ∃ id status owner g, Receives sdk w l id status (.active owner g) ∧ status.jti = jti

/-- The window of a revocation. When the issuer does not confirm a session any more, then in
fail-closed mode the role guards refuse it from then on. The general tier admits it on an entry
only that the cache held before: until that expires, which is within the time to live, and not
after an event of the auth stream or an eviction that covers the entry. -/
theorem window_closes (hclient : deps.revocationClient = some client)
    (hclosed : client.failClosed = true) {now : ℚ} {older newer : List (DepsPool × DepsAct)}
    (before : Run (deps.scheduler sdk policy).step (deps.start now) older w₀)
    (after : Run (deps.scheduler sdk policy).step w₀ newer w)
    (h : (deps.scheduler sdk policy).step w l = some w') {id : ℕ} {request : Request}
    {user : UserModel} (hadmits : Admits w' l id request user) {payload : TokenPayload}
    (hvalid : request.validated = some payload)
    (hsilent : ∀ x ∈ (w, l) :: newer, ¬ Confirms sdk x.1 x.2 payload.jti) :
    request.dependency = .currentUser ∧ ∃ c e, w₀.shared.cache = some c ∧
      c.store.get? payload.jti = some e ∧ w.shared.now < e.expiresAt ∧
      e.expiresAt ≤ w₀.shared.now + client.cacheTtl ∧
      ∀ x ∈ newer, ¬ Overtakes sdk x.1 x.2 payload.jti e := by
  rw [start_of_some hclient] at before
  obtain ⟨past₀, v₀, run₀, hw₀, -⟩ := (AuthDeps.wraps sdk policy hclient).run before
  obtain ⟨past', v, run', hw, hpast⟩ := Scheduler.Wraps.run_from hw₀ after
  have hguaranteed := run'.invariant calls_keep (calls_guaranteed run₀)
  obtain ⟨hnow, hquiet⟩ := List.forall_mem_cons.mp hsilent
  obtain ⟨payload', l', v', outcome, hvalid', hanswer, hl, h', hends, ht⟩ :=
    returns_of_requestEnds hw h hadmits (by simp)
  obtain rfl := Option.some.inj (hvalid.symm.trans hvalid')
  obtain ⟨rfl, -, -⟩ := finish_eq_ok hanswer.symm
  rcases hends with rfl | ⟨answer, rfl⟩
  · obtain ⟨-, -, hbypass, -, -, e, he, hlive⟩ := hits_of_spawn h' ht
    refine ⟨?_, ?_⟩
    · cases hdependency : request.dependency with
      | currentUser => rfl
      | _ => simp [Request.callSpec, Dependency.isRoleGuard, hdependency] at hbypass
    rcases stored_since (calls_guaranteed run₀) run' he with ⟨hold, hkept⟩ |
      ⟨newer', v₁, l₁, older', rfl, ⟨id₁, c, haccepts, -⟩, -⟩
    · have hexpires : e.expiresAt ≤ v₀.shared.now + client.cacheTtl := expires_within run₀ hold
      obtain ⟨c, hc, hget⟩ := Option.bind_eq_some_iff.mp hold
      rw [hw₀.shared_eq] at hc hexpires
      rw [hw.shared_eq] at hlive
      refine ⟨c, e, hc, hget, hlive, hexpires, fun x hx hovertakes => ?_⟩
      obtain ⟨l₂, hl₂, hremoves⟩ := removes_of_overtakes policy hclient hovertakes
      obtain ⟨v₂, hmem, hw₂⟩ := hpast.mem hx hl₂
      exact hkept _ hmem (hremoves v₂ hw₂)
    · -- an entry that was stored since was stored for a reply about this session
      obtain ⟨status, hreceives, hjti, -, -⟩ := haccepts
      obtain ⟨w₁, l₂, hmem, hl₂, hw₁⟩ :=
        hpast.origin (List.mem_append_right newer' List.mem_cons_self)
      exact absurd ⟨id₁, status, _, _, receives_of_holds hw₁ hl₂ hreceives, hjti⟩ (hquiet _ hmem)
  · rcases returns_of_resume hguaranteed h' ht with ⟨-, hopen⟩ |
      ⟨g, status, hreceives, hjti, -, -, -⟩
    · rw [hopen false rfl rfl] at hclosed
      contradiction
    · exact absurd ⟨_, status, _, g, receives_of_holds hw hl hreceives, hjti⟩ hnow

theorem not_confirms_of_ne {jti : String} (h : ∀ id answer, l ≠ .resume id answer) :
    ¬ Confirms sdk w l jti := by
  rintro ⟨id, status, owner, g, ⟨_, _, response, -, hl, -⟩, -⟩
  exact h id _ hl

theorem window_closes_open :
    ∃ (w₀ w : DepsPool) (c : JtiRevocationCache) (e : CacheEntry), w₀.shared.cache = some c ∧
      c.store.get? "jti-1" = some e ∧ w.shared.now < e.expiresAt ∧
      e.expiresAt ≤ w₀.shared.now + 30 := by
  obtain ⟨past, w, w', user, run, hlabels, hstep, hadmits⟩ := otherDeleted_then_admitted
  have hsplit : past.map Prod.snd =
      [.env (.authEvent ⟨"user-deleted", [("user_id", .str "user-b")]⟩), .env (.advance 5)] ++
        cachedLabels.reverse := hlabels
  obtain ⟨newer, older, rfl, hnewer, -⟩ := List.map_eq_append_iff.mp hsplit
  obtain ⟨w₀, before, after⟩ := run.split
  have hsilent : ∀ x ∈ (w, .spawn 1 generalRequest) :: newer, ¬ Confirms v2Sdk x.1 x.2 "jti-1" := by
    intro x hx
    refine not_confirms_of_ne fun id answer hl => ?_
    rcases List.mem_cons.mp hx with rfl | hx
    · contradiction
    · have hmem := List.mem_map_of_mem (f := Prod.snd) hx
      rw [hnewer, hl] at hmem
      simp at hmem
  obtain ⟨-, c, e, hc, he, hlive, hexpires, -⟩ :=
    window_closes rfl rfl before after hstep hadmits rfl hsilent
  exact ⟨w₀, w, c, e, hc, he, hlive, hexpires⟩

end FastapiM8
