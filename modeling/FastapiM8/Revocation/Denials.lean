import FastapiM8.Revocation.Provenance
import FastapiM8.RoleGuards

/-! Where a denial comes from: the issuer's reply, or a revocation that an event of the stream
has carried to the cache before. -/
namespace FastapiM8

variable {client : RemoteRevocationClient} {sdk : Sdk} {w w' : ClientPool} {l : ClientAct}
  {user : String} {g : ℤ}

/-- The watermark that a client keeps for a user. -/
def watermarkOf (w : ClientPool) (user : String) : Option ℤ :=
  w.shared.watermarkMap.bind fun wm => wm.get? user

/-- The step delivers a v2 revocation of the user at this generation. -/
def Revokes (sdk : Sdk) (l : ClientAct) (user : String) (g : ℤ) : Prop :=
  ∃ payload event, l = .env (.sessionRevoked payload) ∧
    sdk.sessionRevoked payload = some event ∧ event.userId = user ∧ event.authGeneration = some g

theorem watermarkMap_lookup (s : ClientState) (spec : CallSpec) :
    (s.lookup spec).2.watermarkMap = s.watermarkMap := by
  unfold ClientState.lookup
  split
  · rfl
  next c hc =>
    split
    · rfl
    · have hget : (ClientOp.cacheGet spec.jti).exec s =
          some ((c.get s.now spec.jti).1, { s with cache := some (c.get s.now spec.jti).2 }) := by
        simp [ClientOp.exec, hc]
      exact watermarkMap_exec hget

theorem watermarkMap_segment {spec : CallSpec} {o : ClientOp} {a : ClientAns o} {s : ClientState}
    {r : Prog ClientOp ClientAns (Except PyExc Bool) × ClientState}
    (h : Segment client sdk spec o a s r) : r.2.watermarkMap = s.watermarkMap := by
  cases h with
  | decides g hreply =>
    exact watermarkMap_mapCache fun c => ((JtiRevocationCache.CacheOp.apply_maps
      (.put s.now spec.jti spec.userId g)).resolve_right (by simp)).1
  | _ => rfl

/-- A watermark found after a step was there before, or the step has delivered it. -/
theorem watermarkOf_step (hw : (client.scheduler sdk).Guaranteed (client.CallSegment sdk) w)
    (h : (client.scheduler sdk).step w l = some w') (hg : watermarkOf w' user = some g) :
    Revokes sdk l user g ∨ watermarkOf w user = some g := by
  have hsame : w'.shared.watermarkMap = w.shared.watermarkMap →
      watermarkOf w user = some g := by
    intro hmap
    rwa [watermarkOf, hmap] at hg
  rcases client_step_cases hw h with ⟨id, spec, -, -, rfl⟩ |
    ⟨id, answer, spec, o, k, a, r, -, -, -, -, hseg, rfl⟩ | ⟨e, s, rfl, hs, rfl⟩
  · refine .inr (hsame ?_)
    rw [Pool.park_shared, RemoteRevocationClient.startCall_snd]
    exact watermarkMap_lookup w.shared spec
  · exact .inr (hsame (watermarkMap_segment hseg))
  · cases e with
    | sessionRevoked payload =>
      obtain rfl := Option.some.inj hs
      obtain ⟨wm, hwm, hget⟩ := Option.bind_eq_some_iff.mp hg
      obtain ⟨c', hc', rfl⟩ := Option.map_eq_some_iff.mp hwm
      obtain ⟨c, hc, rfl⟩ := Option.map_eq_some_iff.mp hc'
      rcases JtiRevocationCache.applySessionRevoked_progress hget with
        ⟨hold, -⟩ | ⟨event, hevent, huser, hgen, -, -⟩
      · refine .inr (Option.bind_eq_some_iff.mpr ⟨c.watermarks, ?_, hold⟩)
        rw [ClientState.watermarkMap, hc, Option.map_some]
      · exact .inl ⟨payload, event, rfl, hevent, huser, hgen⟩
    | advance seconds =>
      refine .inr (hsame ?_)
      unfold ClientState.watermarkMap
      rw [cache_of_advance hs]
    | _ =>
      -- the evictions leave the watermarks alone
      obtain rfl := Option.some.inj hs
      exact .inr (hsame (watermarkMap_mapCache fun _ => rfl))

/-- Every watermark of a reached state was delivered by an event of the run. -/
theorem revoked_of_watermark {now : ℚ} {past : List (ClientPool × ClientAct)}
    (run : Run (client.scheduler sdk).step (client.start now) past w)
    (hg : watermarkOf w user = some g) : ∃ x ∈ past, Revokes sdk x.2 user g := by
  have hstart : watermarkOf (client.start now) user = none := by
    simp only [watermarkOf, ClientState.watermarkMap, RemoteRevocationClient.start, Pool.idle,
      ClientState.init]
    split
    · exact OrderedDict.get?_empty user
    · rfl
  rcases run.provenance (fun w user => watermarkOf w user)
    (fun _ l user g => Revokes sdk l user g) (fun _ _ _ _ => False) calls_keep
    (fun s l s' hs h k x hx =>
      (watermarkOf_step hs h hx).imp_right fun hold => ⟨hold, fun hf => hf⟩)
    (Scheduler.guaranteed_idle _ _) hg with ⟨hold, -⟩ | ⟨newer, w₁, l₁, older, rfl, hrevokes, -⟩
  · rw [hstart] at hold
    contradiction
  · exact ⟨(w₁, l₁), List.mem_append_right _ List.mem_cons_self, hrevokes⟩

theorem isSuperseded_eq_true {s : ClientState} (h : s.isSuperseded user g = true) :
    (∃ m, (s.watermarkMap.bind fun wm => wm.get? user) = some m ∧ g < m) ∨ g < 0 := by
  obtain ⟨c, hc, hsuperseded⟩ := (Option.any_eq_true _ _).mp h
  have hlt : g < (c.watermarks.get? user).getD 0 := of_decide_eq_true hsuperseded
  cases hm : c.watermarks.get? user with
  | none =>
    rw [hm] at hlt
    exact .inr hlt
  | some m =>
    rw [hm] at hlt
    exact .inl ⟨m, by simp [ClientState.watermarkMap, hc, hm], hlt⟩

/-- The reply denies the call: the issuer says so, or it names a generation below one whose
revocation an event of the run has delivered, or below all of them. -/
def DeniedBy (sdk : Sdk) (past : List (ClientPool × ClientAct)) (userId : String)
    (reply : JtiStatusResponse) : Prop :=
  reply = .inactive ∨ ∃ g, reply = .active userId g ∧
    ((∃ x ∈ past, ∃ g', g < g' ∧ Revokes sdk x.2 userId g') ∨ g < 0)

/-- A call that finds its session revoked does so on the reply to its own request. -/
theorem denied_cause {now : ℚ} {past : List (ClientPool × ClientAct)}
    (run : Run (client.scheduler sdk).step (client.start now) past w)
    (h : (client.scheduler sdk).step w l = some w') {id : ℕ} {spec : CallSpec}
    (hreturns : Returns w' l id spec (.ok true)) :
    ∃ request reply, Receives sdk w l id request reply ∧ request.jti = spec.jti ∧
      request.expectedUserId = spec.userId ∧ DeniedBy sdk past spec.userId reply := by
  have hw := calls_guaranteed run
  obtain ⟨rfl | ⟨answer, rfl⟩, ht⟩ := hreturns
  · obtain ⟨-, hfalse, -⟩ := hits_of_spawn h ht
    simp at hfalse
  · rcases client_step_cases hw h with ⟨_, _, hl, -, -⟩ |
      ⟨id', answer', spec', o, k, a, r, hl, ht', ha, hawaits, hseg, rfl⟩ | ⟨_, _, hl, -, -⟩
    · contradiction
    · obtain ⟨rfl, rfl⟩ := Act.resume.inj hl
      rw [Pool.park_tasks_self, Option.some.injEq, Thread.mk.injEq] at ht
      obtain ⟨rfl, hprog⟩ := ht
      cases hseg with
      | waits hnone o' k' ho => contradiction
      | fails hnone r₀ hr =>
        obtain rfl := Prog.ret.inj hprog
        obtain ⟨hfalse, -⟩ := hr true rfl
        contradiction
      | refuses owner g' hactive hne => cases hprog
      | denies hinactive =>
        obtain ⟨request, hreceives, hjti, huser⟩ := receives_of_reply ht' ha hawaits hinactive
        exact ⟨request, .inactive, hreceives, hjti, huser, .inl rfl⟩
      | decides g' hactive =>
        obtain ⟨request, hreceives, hjti, huser⟩ := receives_of_reply ht' ha hawaits hactive
        refine ⟨request, .active spec'.userId g', hreceives, hjti, huser, .inr ⟨g', rfl, ?_⟩⟩
        have hsuperseded : w.shared.isSuperseded spec'.userId g' = true :=
          (ClientState.eq_of_answer (Prog.ret.inj hprog)).symm
        refine (isSuperseded_eq_true hsuperseded).imp_left ?_
        rintro ⟨m, hm, hlt⟩
        obtain ⟨x, hx, hrevokes⟩ := revoked_of_watermark run hm
        exact ⟨x, hx, m, hlt, hrevokes⟩
    · contradiction

end FastapiM8
