import FastapiM8.Revocation.Client

/-! What a `session.revoked` payload leaves alone: the entries that it has no reason to remove,
and the watermark and the dedup ids of every user but its own. -/
namespace FastapiM8.JtiRevocationCache

variable {c : JtiRevocationCache} {userId : String} {generation : ℤ}

/-- A revocation is superseded or replayed: its generation is below the user's watermark, or
equal to it with an event id that is among the applied ones. -/
def alreadyApplied (c : JtiRevocationCache) (userId : String) (generation : ℤ)
    (eventId : Option String) : Bool :=
  (c.watermarks.get? userId).any fun watermark =>
    generation < watermark ||
      (generation = watermark && eventId.any fun id => id ∈ c.appliedIds userId)

/-- The entries that a payload is meant to remove, said without `note_revocation`: all of them
when it does not validate, the owner's when it has no generation, none when it was applied
before, and otherwise the named session or the owner's sessions of older generations. -/
def removes (c : JtiRevocationCache) (payload : Option SessionRevokedEvent) (jti : String)
    (entry : CacheEntry) : Bool :=
  match payload with
  | none => true
  | some ⟨userId, none, _, _⟩ => entry.userId = userId
  | some ⟨userId, some generation, target, eventId⟩ =>
    !c.alreadyApplied userId generation eventId &&
      match target with
      | some target => jti = target
      | none => entry.userId = userId && entry.authGeneration < generation

theorem noteRevocation_fst (c : JtiRevocationCache) (userId : String) (generation : ℤ)
    (eventId : Option String) :
    (c.noteRevocation userId generation eventId).1 =
      !c.alreadyApplied userId generation eventId := by
  unfold alreadyApplied
  rcases noteRevocation_cases c userId generation eventId with
    ⟨w, hw, hlt, h⟩ | ⟨hw, ⟨id, hid, rfl⟩, h⟩ | ⟨hw, rfl, h⟩ | ⟨hw, id, hid, rfl, h⟩ | ⟨hadv, h⟩
  · simp [h, hw, hlt]
  · simp [h, hw, hid]
  · simp [h, hw]
  · simp [h, hw, hid]
  · rw [h]
    cases hw : c.watermarks.get? userId with
    | none => rfl
    | some w =>
      have hlt := hadv w hw
      have hle : ¬ generation < w := by omega
      have hne : generation ≠ w := by omega
      simp [hle, hne]

theorem evictUserBelow_store (c : JtiRevocationCache) (userId : String)
    (authGeneration : Option ℤ) :
    (c.evictUserBelow userId authGeneration).store = c.store.filter fun _ entry =>
      !(entry.userId = userId && authGeneration.all fun g => entry.authGeneration < g) := by
  unfold evictUserBelow
  dsimp only
  apply OrderedDict.filter_congr
  intro jti entry _
  cases authGeneration <;> rfl

/-- The store after a payload is the store before it less what the payload removes, in the
same order; nothing is done to an entry that stays. -/
theorem applySessionRevoked_store (c : JtiRevocationCache)
    (payload : Option SessionRevokedEvent) :
    (c.applySessionRevoked payload).store =
      c.store.filter fun jti entry => !c.removes payload jti entry := by
  cases payload with
  | none => exact (OrderedDict.filter_false c.store).symm
  | some event =>
    obtain ⟨userId, authGeneration, target, eventId⟩ := event
    cases authGeneration with
    | none =>
      show (c.evictUserBelow userId none).store = _
      rw [evictUserBelow_store]
      apply OrderedDict.filter_congr
      intro jti entry _
      simp [removes]
    | some generation =>
      have hstore : (c.noteRevocation userId generation eventId).2.store = c.store :=
        noteRevocation_store eventId
      simp only [applySessionRevoked, noteRevocation_fst]
      cases hdone : c.alreadyApplied userId generation eventId with
      | true =>
        rw [if_neg (by decide), hstore, OrderedDict.filter_eq_self]
        intro jti entry _
        simp [removes, hdone]
      | false =>
        rw [if_pos Bool.not_false]
        cases target with
        | none =>
          show ((c.noteRevocation userId generation eventId).2.evictUserBelow userId _).store = _
          rw [evictUserBelow_store, hstore]
          apply OrderedDict.filter_congr
          intro jti entry _
          simp [removes, hdone]
        | some target =>
          show (c.noteRevocation userId generation eventId).2.store.erase target = _
          rw [hstore]
          apply OrderedDict.filter_congr
          intro jti entry _
          simp [removes, hdone]

/-- The user that is dropped when `userId` is tracked as well: the one tracked longest, if the
map is full and `userId` is new to it. -/
def displaced (c : JtiRevocationCache) (userId : String) : Option String :=
  if c.watermarks.size = maxTrackedWatermarks ∧ userId ∉ c.watermarks.keys then
    c.watermarks.first?
  else none

/-- The user that a payload drops from the two maps: only a v2 event tracks a user. -/
def displacedBy (c : JtiRevocationCache) : Option SessionRevokedEvent → Option String
  | some ⟨userId, some _, _, _⟩ => c.displaced userId
  | _ => none

/-- What the two maps hold about a user: the watermark and the dedup ids. -/
def record (c : JtiRevocationCache) (user : String) : Option ℤ × Option (Finset String) :=
  (c.watermarks.get? user, c.appliedEventIds.get? user)

theorem displaced_of_mem (h : userId ∈ c.watermarks.keys) : c.displaced userId = none := by
  unfold displaced
  rw [if_neg]
  rintro ⟨-, hnew⟩
  exact hnew h

theorem advance_record (eventId : Option String) {user : String} (h : user ≠ userId) :
    (c.advance userId generation eventId).record user =
      if c.displaced userId = some user then (none, none) else c.record user := by
  unfold record
  rcases advance_cases c userId generation eventId with
    ⟨hw, ha⟩ | ⟨oldest, hfirst, hne, hnew, hfull, hw, ha⟩
  · have hkept : c.displaced userId ≠ some user := by
      unfold displaced
      split
      next hfull =>
        -- one user more than the ceiling would have been trimmed
        have hb := (c.advance userId generation eventId).bounded
        rw [hw, OrderedDict.size_set, if_neg hfull.2] at hb
        omega
      next => simp
    rw [hw, ha, if_neg hkept, OrderedDict.get?_set_of_ne _ _ h, OrderedDict.get?_set_of_ne _ _ h]
  · have hdisp : c.displaced userId = some oldest := by
      unfold displaced
      rw [if_pos ⟨hfull, hnew⟩, hfirst]
    rw [hw, ha, hdisp, OrderedDict.get?_erase, OrderedDict.get?_erase]
    by_cases hold : user = oldest
    · rw [if_pos hold, if_pos hold, if_pos (by rw [hold])]
    · rw [if_neg hold, if_neg hold, if_neg (by simpa [eq_comm] using hold),
        OrderedDict.get?_set_of_ne _ _ h, OrderedDict.get?_set_of_ne _ _ h]

theorem noteRevocation_record (c : JtiRevocationCache) (generation : ℤ) (eventId : Option String)
    {user : String} (h : user ≠ userId) :
    (c.noteRevocation userId generation eventId).2.record user =
      if c.displaced userId = some user then (none, none) else c.record user := by
  have htracked : ∀ {w : ℤ}, c.watermarks.get? userId = some w →
      c.displaced userId ≠ some user := by
    intro w hw
    rw [displaced_of_mem (OrderedDict.mem_keys_iff.mpr ⟨w, hw⟩)]
    simp
  rcases noteRevocation_cases c userId generation eventId with
    ⟨w, hw, -, heq⟩ | ⟨hw, -, heq⟩ | ⟨hw, -, heq⟩ | ⟨hw, id, -, -, heq⟩ | ⟨-, heq⟩
  · rw [heq, if_neg (htracked hw)]
  · rw [heq, if_neg (htracked hw)]
  · rw [heq, if_neg (htracked hw)]
  · rw [heq, if_neg (htracked hw)]
    unfold record recordEventId
    rw [OrderedDict.get?_set_of_ne _ _ h]
  · rw [heq]
    exact advance_record eventId h

/-- A payload leaves the watermark and the dedup ids of every user but its own alone, or drops
both of the one user that gives way to it. -/
theorem applySessionRevoked_record (c : JtiRevocationCache) (payload : Option SessionRevokedEvent)
    {user : String} (h : ∀ event, payload = some event → user ≠ event.userId) :
    (c.applySessionRevoked payload).record user =
      if c.displacedBy payload = some user then (none, none) else c.record user := by
  cases payload with
  | none => rfl
  | some event =>
    obtain ⟨userId, authGeneration, target, eventId⟩ := event
    cases authGeneration with
    | none => rfl
    | some generation =>
      obtain ⟨hwm, hids⟩ :=
        applySessionRevoked_v2_dicts c ⟨userId, some generation, target, eventId⟩ rfl
      unfold record
      rw [hwm, hids]
      exact noteRevocation_record c generation eventId (h _ rfl)

/-- One `session.revoked` payload removes what it should and nothing else: the store loses the
entries that the payload is meant to remove, and of the users other than its own at most the
one tracked longest loses its record, when the map is full. -/
theorem sessionRevoked_frame (sdk : Sdk) (c : JtiRevocationCache) (now : ℚ)
    (payload : List (String × Json)) :
    let event := sdk.sessionRevoked payload
    let after := c.applySessionRevoked event
    ClientState.applySessionRevokedEvent sdk ⟨some c, now⟩ payload = ⟨some after, now⟩ ∧
      after.store = c.store.filter (fun jti entry => !c.removes event jti entry) ∧
      ∀ user, (∀ e, event = some e → user ≠ e.userId) →
        after.record user =
          if c.displacedBy event = some user then (none, none) else c.record user := by
  intro event after
  refine ⟨rfl, applySessionRevoked_store c event, ?_⟩
  intro user huser
  exact applySessionRevoked_record c event huser

end FastapiM8.JtiRevocationCache
