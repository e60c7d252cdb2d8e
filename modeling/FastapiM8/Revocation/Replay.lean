import FastapiM8.Revocation.Events

/-! Redelivered `session.revoked` events. The dedup set of a user covers one generation only;
that forgetting an id is harmless rests on the watermark having moved past its event. -/
namespace FastapiM8.JtiRevocationCache

variable {c : JtiRevocationCache} {user id : String} {g : ℤ}

/-- The watermark rule remembers the event `id` of `user` at generation `g`: the user's
watermark has moved past it, or stands at it with the id among the applied ones. -/
def Remembers (c : JtiRevocationCache) (user : String) (g : ℤ) (id : String) : Prop :=
  ∃ w, c.watermarks.get? user = some w ∧ (g < w ∨ g = w ∧ id ∈ c.appliedIds user)

/-- A remembered event is not acted on again. -/
theorem Remembers.noteRevocation (h : c.Remembers user g id) :
    c.noteRevocation user g (some id) = (false, c) := by
  obtain ⟨w, hw, hlt | ⟨rfl, hid⟩⟩ := h
  · exact noteRevocation_stale _ hw hlt
  · exact noteRevocation_replay hw hid

theorem Remembers.applySessionRevoked (h : c.Remembers user g id) (jti : Option String) :
    c.applySessionRevoked (some ⟨user, some g, jti, some id⟩) = c := by
  simp only [JtiRevocationCache.applySessionRevoked, h.noteRevocation]
  rfl

private theorem remembers_note (c : JtiRevocationCache) (user : String) (g : ℤ) (hid : id ≠ "") :
    (c.noteRevocation user g (some id)).2.Remembers user g id := by
  rcases noteRevocation_cases c user g (some id) with
    ⟨w, hw, hlt, heq⟩ | ⟨hw, ⟨id', hmem, hid'⟩, heq⟩ | ⟨-, hnone, -⟩ | ⟨hw, id', -, hid', heq⟩ |
    ⟨-, heq⟩
  · rw [heq]
    exact ⟨w, hw, .inl hlt⟩
  · obtain rfl := Option.some.inj hid'
    rw [heq]
    exact ⟨g, hw, .inr ⟨rfl, hmem⟩⟩
  · contradiction
  · obtain rfl := Option.some.inj hid'
    have hmem : id ∈ (c.recordEventId user id (OrderedDict.mem_keys_iff.mpr ⟨g, hw⟩)).appliedIds
        user := by
      rw [recordEventId_appliedIds_self]
      exact Finset.mem_insert_self _ _
    rw [heq]
    exact ⟨g, hw, .inr ⟨rfl, hmem⟩⟩
  · have hmem : id ∈ (c.advance user g (some id)).appliedIds user := by
      rw [advance_appliedIds_self]
      simp [firstEventIds, hid]
    rw [heq]
    exact ⟨g, advance_watermark_self _, .inr ⟨rfl, hmem⟩⟩

/-- Delivering an event with a non-empty id makes the cache remember it. -/
theorem remembers_applySessionRevoked (c : JtiRevocationCache) (user : String) (g : ℤ)
    (jti : Option String) (hid : id ≠ "") :
    (c.applySessionRevoked (some ⟨user, some g, jti, some id⟩)).Remembers user g id := by
  obtain ⟨w, hw, h⟩ := remembers_note c user g hid
  obtain ⟨hwm, hids⟩ := applySessionRevoked_v2_maps c ⟨user, some g, jti, some id⟩ rfl
  exact ⟨w, by rwa [hwm], by rwa [hids]⟩

/-- One operation keeps an event remembered as long as its user stays tracked. -/
theorem Remembers.apply {op : CacheOp} (h : c.Remembers user g id)
    (htracked : user ∈ (op.apply c).watermarks.keys) : (op.apply c).Remembers user g id := by
  obtain ⟨w, hw, hmem⟩ := h
  rcases CacheOp.apply_maps (c := c) op with ⟨hwm, hids⟩ | ⟨payload, rfl⟩
  · exact ⟨w, by rwa [hwm], by rwa [hids]⟩
  · obtain ⟨w', hw'⟩ := OrderedDict.mem_keys_iff.mp htracked
    rcases applySessionRevoked_progress hw' with ⟨hold, hsub⟩ | ⟨event, -, -, -, -, hlt⟩
    · obtain rfl : w = w' := Option.some.inj (hw.symm.trans hold)
      exact ⟨w, hw', hmem.imp_right fun h => ⟨h.1, hsub h.2⟩⟩
    · have hlt' := hlt w hw
      refine ⟨w', hw', .inl ?_⟩
      rcases hmem with hg | ⟨hg, -⟩ <;> omega

/-- The dedup ids of a tracked user all belong to events of that user that were delivered at
the current watermark. -/
theorem appliedIds_delivered {ttl : ℤ} {past : List (JtiRevocationCache × CacheOp)}
    (h : Run opStep (init ttl) past c) (hw : c.watermarks.get? user = some g)
    (hid : id ∈ c.appliedIds user) :
    ∃ c₁ jti, (c₁, CacheOp.sessionRevoked (some ⟨user, some g, jti, some id⟩)) ∈ past := by
  induction h with
  | start => simp [init, appliedIds] at hid
  | @next past c op c' run hstep ih =>
    obtain rfl := Option.some.inj hstep
    rcases CacheOp.apply_maps (c := c) op with ⟨hwm, hids⟩ | ⟨payload, rfl⟩
    · obtain ⟨c₁, jti, hmem⟩ := ih (by rwa [← hwm]) (by rwa [← hids])
      exact ⟨c₁, jti, List.mem_cons_of_mem _ hmem⟩
    · rcases applySessionRevoked_appliedIds hw hid with ⟨hold, hid'⟩ | ⟨jti, rfl⟩
      · obtain ⟨c₁, jti, hmem⟩ := ih hold hid'
        exact ⟨c₁, jti, List.mem_cons_of_mem _ hmem⟩
      · exact ⟨c, jti, List.mem_cons_self⟩

/-- Redelivery changes nothing while the user stays tracked, and the first delivery of an
event at the watermark's generation is acted on. -/
theorem replay_idempotent {ttl : ℤ} :
    (∀ newer c₁ older c user g jti id,
      Run opStep (init ttl)
        (newer ++ (c₁, .sessionRevoked (some ⟨user, some g, jti, some id⟩)) :: older) c →
      id ≠ "" → (∀ e ∈ newer, user ∈ e.1.watermarks.keys) → user ∈ c.watermarks.keys →
      c.applySessionRevoked (some ⟨user, some g, jti, some id⟩) = c) ∧
    (∀ past c user g id, Run opStep (init ttl) past c → c.watermarks.get? user = some g →
      (∀ c₁ jti, (c₁, CacheOp.sessionRevoked (some ⟨user, some g, jti, some id⟩)) ∉ past) →
      (c.noteRevocation user g (some id)).1 = true) := by
  constructor
  · intro newer c₁ older c user g jti id run hid htracked hc
    obtain ⟨-, c₂, hstep, hlater⟩ := run.split_cons
    obtain rfl := Option.some.inj hstep
    have hfirst :
        (c₁.applySessionRevoked (some ⟨user, some g, jti, some id⟩)).Remembers user g id :=
      remembers_applySessionRevoked c₁ user g jti hid
    have hkeep : ∀ s op s', user ∈ s.watermarks.keys → s.Remembers user g id →
        opStep s op = some s' → user ∈ s'.watermarks.keys → s'.Remembers user g id := by
      intro s op s' _ hs hop htracked'
      obtain rfl := Option.some.inj hop
      exact hs.apply htracked'
    have hnow := hlater.invariant_while hkeep hfirst htracked hc
    exact hnow.applySessionRevoked jti
  · intro past c user g id run hw hnew
    by_cases hmem : id ∈ c.appliedIds user
    · obtain ⟨c₁, jti, hold⟩ := appliedIds_delivered run hw hmem
      exact absurd hold (hnew c₁ jti)
    · rw [noteRevocation_sibling hw hmem]

/-- A cache that applied `event-1` and then stored the re-minted session. -/
def remintedCache : JtiRevocationCache :=
  (((init 30).applySessionRevoked (some ⟨"user-a", some 5, some "jti-1", some "event-1"⟩)).put
    0 "jti-1" "user-a" 5).2

theorem replay_idempotent_reminted :
    remintedCache.applySessionRevoked (some ⟨"user-a", some 5, some "jti-1", some "event-1"⟩) =
        remintedCache ∧
      (remintedCache.noteRevocation "user-a" 5 (some "event-2")).1 = true := by
  have run : Run opStep (init 30)
      [((init 30).applySessionRevoked (some ⟨"user-a", some 5, some "jti-1", some "event-1"⟩),
          .put 0 "jti-1" "user-a" 5),
        (init 30, .sessionRevoked (some ⟨"user-a", some 5, some "jti-1", some "event-1"⟩))]
      remintedCache := (Run.start.next rfl).next rfl
  constructor
  · exact replay_idempotent.1 [_] (init 30) [] _ "user-a" 5 (some "jti-1") "event-1" run
      (by decide) (by decide) (by decide)
  · refine replay_idempotent.2 _ _ "user-a" 5 "event-2" run (by decide) ?_
    intro c₁ jti h
    simp at h

end FastapiM8.JtiRevocationCache
