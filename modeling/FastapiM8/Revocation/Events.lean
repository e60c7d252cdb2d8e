import FastapiM8.Lib.History
import FastapiM8.Revocation.Watermark

/-! What `session.revoked` payloads do to the cache, and runs of its operations. -/
namespace FastapiM8

/-- The fields of a validated `SessionRevokedEvent`. -/
structure SessionRevokedEvent where
  userId : String
  authGeneration : Option ℤ
  jti : Option String
  eventId : Option String
  deriving DecidableEq

namespace JtiRevocationCache

variable {c : JtiRevocationCache}

/-- Apply one `session.revoked` payload, given as the outcome of its validation: `none` is a
`ValidationError`, which flushes the cache. -/
def applySessionRevoked (c : JtiRevocationCache) :
    Option SessionRevokedEvent → JtiRevocationCache
  | none => c.flushAll
  | some event =>
    match event.authGeneration with
    | none => c.evictUser event.userId
    | some generation =>
      let noted := c.noteRevocation event.userId generation event.eventId
      if noted.1 then
        match event.jti with
        | none => noted.2.evictUserBelow event.userId generation
        | some jti => noted.2.evictJti jti
      else noted.2

/-- The entries that a payload removes from the store. -/
def Evicts (c : JtiRevocationCache) (payload : Option SessionRevokedEvent) (jti : String)
    (entry : CacheEntry) : Prop :=
  match payload with
  | none => True
  | some event =>
    match event.authGeneration with
    | none => entry.userId = event.userId
    | some generation =>
      (c.noteRevocation event.userId generation event.eventId).1 = true ∧
        match event.jti with
        | none => entry.userId = event.userId ∧ entry.authGeneration < generation
        | some target => jti = target

theorem evictUserBelow_get? {userId jti : String} {generation : Option ℤ} {e : CacheEntry} :
    (c.evictUserBelow userId generation).store.get? jti = some e ↔
      c.store.get? jti = some e ∧
        ¬ (e.userId = userId ∧ ∀ g, generation = some g → e.authGeneration < g) := by
  rw [evictUserBelow, OrderedDict.get?_filter_eq_some]
  cases generation <;> simp [imp_iff_not_or]

theorem evictJti_get? {jti target : String} {e : CacheEntry} :
    (c.evictJti target).store.get? jti = some e ↔ c.store.get? jti = some e ∧ jti ≠ target := by
  rw [evictJti, OrderedDict.get?_erase]
  by_cases h : jti = target <;> simp [h]

theorem get_eq_hit_iff {now : ℚ} {jti : String} {b : Bool} :
    (c.get now jti).1 = some b ↔
      b = false ∧ ∃ e, c.store.get? jti = some e ∧ now < e.expiresAt := by
  unfold get
  cases he : c.store.get? jti with
  | none => simp
  | some e =>
    dsimp only
    split
    next h => simp [h]
    next h => simp [not_le.mp h, eq_comm]

/-- A lookup drops the entry it finds expired and nothing else. -/
theorem get_get? {now : ℚ} {jti target : String} {e : CacheEntry} :
    (c.get now target).2.store.get? jti = some e ↔
      c.store.get? jti = some e ∧ (jti = target → now < e.expiresAt) := by
  unfold get
  cases he : c.store.get? target with
  | none =>
    refine (and_iff_left_of_imp fun h hj => ?_).symm
    rw [hj, he] at h
    contradiction
  | some e' =>
    dsimp only
    split
    next hexp =>
      rw [OrderedDict.get?_erase]
      by_cases hj : jti = target
      · subst hj
        rw [if_pos rfl, he]
        constructor
        · intro h
          contradiction
        · rintro ⟨hold, h⟩
          obtain rfl := Option.some.inj hold
          exact absurd (h rfl) (not_lt.mpr hexp)
      · simp [hj]
    next hlive =>
      refine (and_iff_left_of_imp fun h hj => ?_).symm
      rw [hj, he] at h
      obtain rfl := Option.some.inj h
      exact not_le.mp hlive

theorem put_get? {now : ℚ} {jti target userId : String} {g : ℤ} {e : CacheEntry} :
    (c.put now target userId g).2.store.get? jti = some e ↔
      (c.watermark userId ≤ g ∧ c.ttl < floatLimit ∧ jti = target ∧
        e = ⟨now + c.ttl, userId, g⟩) ∨
      (c.store.get? jti = some e ∧
        (jti = target → g < c.watermark userId ∨ floatLimit ≤ c.ttl)) := by
  rcases c.put_cases now target userId g with ⟨hlt, hput⟩ | ⟨hlimit, hput⟩ | ⟨hle, hfits, hput⟩
  · simp [hput, hlt, not_le.mpr hlt]
  · simp [hput, hlimit, not_lt.mpr hlimit]
  · rw [hput, OrderedDict.get?_set]
    by_cases hj : jti = target
    · simp [hj, hle, hfits, not_lt.mpr hle, not_le.mpr hfits, eq_comm]
    · simp [hj]

/-- The store after a payload is the store before it, less the entries it evicts. -/
theorem applySessionRevoked_get? {payload : Option SessionRevokedEvent} {jti : String}
    {e : CacheEntry} :
    (c.applySessionRevoked payload).store.get? jti = some e ↔
      c.store.get? jti = some e ∧ ¬ c.Evicts payload jti e := by
  cases payload with
  | none => simp [applySessionRevoked, flushAll, Evicts]
  | some event =>
    obtain ⟨userId, authGeneration, target, eventId⟩ := event
    cases authGeneration with
    | none =>
      simp only [applySessionRevoked, evictUser, evictUserBelow_get?, Evicts]
      simp
    | some generation =>
      simp only [applySessionRevoked, Evicts]
      split
      next hacted =>
        cases target with
        | none => simp [evictUserBelow_get?, hacted]
        | some target => simp [evictJti_get?, hacted]
      next hacted => simp [hacted]

/-- A v2 event moves the two maps of the watermark rule as `note_revocation` does. -/
theorem applySessionRevoked_v2_dicts (c : JtiRevocationCache) (event : SessionRevokedEvent) {g : ℤ}
    (hg : event.authGeneration = some g) :
    (c.applySessionRevoked (some event)).watermarks =
        (c.noteRevocation event.userId g event.eventId).2.watermarks ∧
      (c.applySessionRevoked (some event)).appliedEventIds =
        (c.noteRevocation event.userId g event.eventId).2.appliedEventIds := by
  simp only [applySessionRevoked, hg]
  split
  · split <;> exact ⟨rfl, rfl⟩
  · exact ⟨rfl, rfl⟩

theorem applySessionRevoked_v2_maps (c : JtiRevocationCache) (event : SessionRevokedEvent) {g : ℤ}
    (hg : event.authGeneration = some g) :
    (c.applySessionRevoked (some event)).watermarks =
        (c.noteRevocation event.userId g event.eventId).2.watermarks ∧
      (c.applySessionRevoked (some event)).appliedIds =
        (c.noteRevocation event.userId g event.eventId).2.appliedIds := by
  obtain ⟨hwm, hdict⟩ := applySessionRevoked_v2_dicts c event hg
  refine ⟨hwm, ?_⟩
  unfold appliedIds
  rw [hdict]

/-- Nothing but a v2 event touches the two maps. -/
theorem applySessionRevoked_maps (c : JtiRevocationCache) (payload : Option SessionRevokedEvent) :
    ((c.applySessionRevoked payload).watermarks = c.watermarks ∧
      (c.applySessionRevoked payload).appliedIds = c.appliedIds) ∨
    ∃ event g, payload = some event ∧ event.authGeneration = some g := by
  cases payload with
  | none => exact .inl ⟨rfl, rfl⟩
  | some event =>
    cases hg : event.authGeneration with
    | none =>
      refine .inl ?_
      simp only [applySessionRevoked, hg]
      exact ⟨rfl, rfl⟩
    | some g => exact .inr ⟨event, g, rfl, hg⟩

/-- What a payload makes of the watermark map depends on the map alone. -/
theorem applySessionRevoked_watermarks_congr {c' : JtiRevocationCache}
    (h : c.watermarks = c'.watermarks) (payload : Option SessionRevokedEvent) :
    (c.applySessionRevoked payload).watermarks = (c'.applySessionRevoked payload).watermarks := by
  by_cases hv2 : ∃ event g, payload = some event ∧ event.authGeneration = some g
  · obtain ⟨event, g, rfl, hg⟩ := hv2
    rw [(applySessionRevoked_v2_maps c event hg).1, (applySessionRevoked_v2_maps c' event hg).1,
      noteRevocation_watermarks, noteRevocation_watermarks, h]
  · obtain ⟨hkept, -⟩ := (applySessionRevoked_maps c payload).resolve_right hv2
    obtain ⟨hkept', -⟩ := (applySessionRevoked_maps c' payload).resolve_right hv2
    rw [hkept, hkept', h]

/-- Of a user who is tracked afterwards, a payload keeps the watermark and forgets no event
id, or it is a v2 event of that user that raised the watermark to its own generation. -/
theorem applySessionRevoked_progress {payload : Option SessionRevokedEvent} {user : String} {w : ℤ}
    (hw : (c.applySessionRevoked payload).watermarks.get? user = some w) :
    (c.watermarks.get? user = some w ∧
      c.appliedIds user ⊆ (c.applySessionRevoked payload).appliedIds user) ∨
    ∃ event, payload = some event ∧ event.userId = user ∧ event.authGeneration = some w ∧
      (c.noteRevocation user w event.eventId).1 = true ∧
      ∀ w₀, c.watermarks.get? user = some w₀ → w₀ < w := by
  rcases applySessionRevoked_maps c payload with ⟨hwm, hids⟩ | ⟨event, g, rfl, hg⟩
  · rw [hwm] at hw
    exact .inl ⟨hw, by rw [hids]⟩
  · obtain ⟨hwm, hids⟩ := applySessionRevoked_v2_maps c event hg
    rw [hwm] at hw
    rcases noteRevocation_progress hw with ⟨hold, hsub⟩ | ⟨rfl, rfl, hacted, hlt⟩
    · exact .inl ⟨hold, by rwa [hids]⟩
    · exact .inr ⟨event, rfl, rfl, hg, hacted, hlt⟩

/-- A dedup id of a tracked user was there before at the same watermark, or the payload is
the v2 event of that user, generation and id. -/
theorem applySessionRevoked_appliedIds {payload : Option SessionRevokedEvent} {user id : String}
    {w : ℤ} (hw : (c.applySessionRevoked payload).watermarks.get? user = some w)
    (hid : id ∈ (c.applySessionRevoked payload).appliedIds user) :
    (c.watermarks.get? user = some w ∧ id ∈ c.appliedIds user) ∨
      ∃ jti, payload = some ⟨user, some w, jti, some id⟩ := by
  rcases applySessionRevoked_maps c payload with ⟨hwm, hids⟩ | ⟨event, g, rfl, hg⟩
  · rw [hwm] at hw
    rw [hids] at hid
    exact .inl ⟨hw, hid⟩
  · obtain ⟨hwm, hids⟩ := applySessionRevoked_v2_maps c event hg
    rw [hwm] at hw
    rw [hids] at hid
    rcases noteRevocation_appliedIds hw hid with h | ⟨rfl, rfl, heid⟩
    · exact .inl h
    · exact .inr ⟨event.jti, by rw [← hg, ← heid]⟩

@[simp] theorem applySessionRevoked_ttl (payload : Option SessionRevokedEvent) :
    (c.applySessionRevoked payload).ttl = c.ttl := by
  cases payload with
  | none => rfl
  | some event =>
    simp only [applySessionRevoked]
    split
    · rfl
    · split
      · split <;> exact noteRevocation_ttl _
      · exact noteRevocation_ttl _

/-- The operations that the client performs on its cache. -/
inductive CacheOp where
  | get (now : ℚ) (jti : String)
  | put (now : ℚ) (jti userId : String) (authGeneration : ℤ)
  | sessionRevoked (payload : Option SessionRevokedEvent)
  | evictJti (jti : String)
  | evictUser (userId : String)
  | flushAll

def CacheOp.apply (c : JtiRevocationCache) : CacheOp → JtiRevocationCache
  | .get now jti => (c.get now jti).2
  | .put now jti userId authGeneration => (c.put now jti userId authGeneration).2
  | .sessionRevoked payload => c.applySessionRevoked payload
  | .evictJti jti => c.evictJti jti
  | .evictUser userId => c.evictUser userId
  | .flushAll => c.flushAll

theorem CacheOp.apply_maps (op : CacheOp) :
    ((op.apply c).watermarks = c.watermarks ∧ (op.apply c).appliedIds = c.appliedIds) ∨
      ∃ payload, op = .sessionRevoked payload := by
  cases op with
  | get now jti =>
    refine .inl ?_
    simp only [CacheOp.apply, JtiRevocationCache.get]
    split
    · exact ⟨rfl, rfl⟩
    · split <;> exact ⟨rfl, rfl⟩
  | put now jti userId g =>
    refine .inl ?_
    show (c.put now jti userId g).2.watermarks = _ ∧ (c.put now jti userId g).2.appliedIds = _
    rcases c.put_cases now jti userId g with ⟨-, hput⟩ | ⟨-, hput⟩ | ⟨-, -, hput⟩ <;>
      rw [hput] <;> exact ⟨rfl, rfl⟩
  | sessionRevoked payload => exact .inr ⟨payload, rfl⟩
  | evictJti jti => exact .inl ⟨rfl, rfl⟩
  | evictUser userId => exact .inl ⟨rfl, rfl⟩
  | flushAll => exact .inl ⟨rfl, rfl⟩

/-- An entry found after an operation was there before, or a `put` stored it at a generation
that is not below its user's watermark. -/
theorem CacheOp.apply_get? {op : CacheOp} {jti : String} {e : CacheEntry}
    (h : (op.apply c).store.get? jti = some e) :
    c.store.get? jti = some e ∨
      ∃ now, op = .put now jti e.userId e.authGeneration ∧
        c.watermark e.userId ≤ e.authGeneration := by
  cases op with
  | get now target => exact .inl (get_get?.mp h).1
  | put now target userId g =>
    rcases put_get?.mp h with ⟨hw, -, rfl, rfl⟩ | ⟨hold, -⟩
    · exact .inr ⟨now, rfl, hw⟩
    · exact .inl hold
  | sessionRevoked payload => exact .inl (applySessionRevoked_get?.mp h).1
  | evictJti target => exact .inl (evictJti_get?.mp h).1
  | evictUser userId => exact .inl (evictUserBelow_get?.mp h).1
  | flushAll => simp [CacheOp.apply, JtiRevocationCache.flushAll] at h

/-- One step of a run of cache operations. -/
def opStep (c : JtiRevocationCache) (op : CacheOp) : Option JtiRevocationCache := some (op.apply c)

@[simp] theorem CacheOp.apply_ttl (op : CacheOp) : (op.apply c).ttl = c.ttl := by
  cases op with
  | get now jti =>
    simp only [CacheOp.apply, JtiRevocationCache.get]
    split
    · rfl
    · split <;> rfl
  | put now jti userId g =>
    rcases c.put_cases now jti userId g with ⟨-, hput⟩ | ⟨-, hput⟩ | ⟨-, -, hput⟩ <;>
      simp [CacheOp.apply, hput]
  | sessionRevoked payload => exact applySessionRevoked_ttl payload
  | _ => rfl

theorem opRun_ttl {c₀ : JtiRevocationCache} {past : List (JtiRevocationCache × CacheOp)}
    (run : Run opStep c₀ past c) : c.ttl = c₀.ttl := by
  induction run with
  | start => rfl
  | next run h ih =>
    obtain rfl := Option.some.inj h
    rw [CacheOp.apply_ttl, ih]

/-- Every list of operations can be run on every cache. -/
theorem run_ops (c : JtiRevocationCache) (ops : List CacheOp) :
    ∃ past, Run opStep c past (ops.foldl CacheOp.apply c) := by
  induction ops using List.reverseRecOn with
  | nil => exact ⟨[], .start⟩
  | append_singleton ops op ih =>
    obtain ⟨past, run⟩ := ih
    rw [List.foldl_append]
    exact ⟨_, run.next rfl⟩

end JtiRevocationCache

end FastapiM8
