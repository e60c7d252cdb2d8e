import FastapiM8.Revocation.Cache

/-! The watermark rule of the cache: what one noted revocation does to the watermark map and
the dedup sets, branch by branch. -/
namespace FastapiM8.JtiRevocationCache

variable {c : JtiRevocationCache} {userId : String} {generation : ℤ}

/-- At most one round of the trimming loop runs: tracking a new user in a full map drops
the user tracked longest, who is another one. -/
theorem advance_cases (c : JtiRevocationCache) (userId : String) (generation : ℤ)
    (eventId : Option String) :
    ((c.advance userId generation eventId).watermarks = c.watermarks.set userId generation ∧
      (c.advance userId generation eventId).appliedEventIds =
        c.appliedEventIds.set userId (firstEventIds eventId)) ∨
    ∃ oldest, c.watermarks.first? = some oldest ∧ oldest ≠ userId ∧ userId ∉ c.watermarks.keys ∧
      c.watermarks.size = maxTrackedWatermarks ∧
      (c.advance userId generation eventId).watermarks =
        (c.watermarks.set userId generation).erase oldest ∧
      (c.advance userId generation eventId).appliedEventIds =
        (c.appliedEventIds.set userId (firstEventIds eventId)).erase oldest := by
  have hb := c.bounded
  have hsize := OrderedDict.size_set c.watermarks userId generation
  by_cases hfull : maxTrackedWatermarks < (c.watermarks.set userId generation).size
  · -- the map was full and the user is new, so the head of the old map is dropped
    have hnew : userId ∉ c.watermarks.keys := by
      intro hmem
      rw [if_pos hmem] at hsize
      omega
    rw [if_neg hnew] at hsize
    have hlen : c.watermarks.size = maxTrackedWatermarks := by omega
    have hkeys : c.watermarks.keys ≠ [] := by
      intro hnil
      rw [← OrderedDict.length_keys, hnil] at hlen
      simp [maxTrackedWatermarks] at hlen
    obtain ⟨oldest, hfirst⟩ : ∃ oldest, c.watermarks.first? = some oldest :=
      ⟨_, List.head?_eq_some_head hkeys⟩
    have hfirst' := OrderedDict.first?_set_of_ne_nil hfirst userId generation
    have htrim := trimWatermarks_of_full (c.appliedEventIds.set userId (firstEventIds eventId))
      (hsize.trans (by rw [hlen])) hfirst'
    refine .inr ⟨oldest, hfirst, ?_, hnew, hlen, congrArg Prod.fst htrim, congrArg Prod.snd htrim⟩
    rintro rfl
    exact hnew (OrderedDict.first?_mem hfirst)
  · have htrim := trimWatermarks_of_le (c.appliedEventIds.set userId (firstEventIds eventId))
      (Nat.le_of_not_lt hfull)
    exact .inl ⟨congrArg Prod.fst htrim, congrArg Prod.snd htrim⟩

@[simp] theorem advance_watermark_self (eventId : Option String) :
    (c.advance userId generation eventId).watermarks.get? userId = some generation := by
  rcases advance_cases c userId generation eventId with ⟨hw, -⟩ | ⟨oldest, -, hne, -, -, hw, -⟩
  · rw [hw, OrderedDict.get?_set_self]
  · rw [hw, OrderedDict.get?_erase_of_ne _ hne.symm, OrderedDict.get?_set_self]

@[simp] theorem advance_appliedIds_self (eventId : Option String) :
    (c.advance userId generation eventId).appliedIds userId = firstEventIds eventId := by
  unfold appliedIds
  rcases advance_cases c userId generation eventId with ⟨-, ha⟩ | ⟨oldest, -, hne, -, -, -, ha⟩
  · rw [ha, OrderedDict.get?_set_self, Option.getD_some]
  · rw [ha, OrderedDict.get?_erase_of_ne _ hne.symm, OrderedDict.get?_set_self, Option.getD_some]

/-- Advancing one user leaves every other user who stays tracked alone. -/
theorem advance_of_ne {other : String} (eventId : Option String) (h : other ≠ userId)
    {w : ℤ} (hw : (c.advance userId generation eventId).watermarks.get? other = some w) :
    c.watermarks.get? other = some w ∧
      (c.advance userId generation eventId).appliedIds other = c.appliedIds other := by
  unfold appliedIds
  rcases advance_cases c userId generation eventId with ⟨heq, ha⟩ | ⟨oldest, -, -, -, -, heq, ha⟩
  · rw [heq, OrderedDict.get?_set_of_ne _ _ h] at hw
    rw [ha, OrderedDict.get?_set_of_ne _ _ h]
    exact ⟨hw, rfl⟩
  · rw [heq, OrderedDict.get?_erase] at hw
    split at hw
    · contradiction
    next hne =>
      rw [OrderedDict.get?_set_of_ne _ _ h] at hw
      rw [ha, OrderedDict.get?_erase_of_ne _ hne, OrderedDict.get?_set_of_ne _ _ h]
      exact ⟨hw, rfl⟩

theorem noteRevocation_stale {w : ℤ} (eventId : Option String)
    (hw : c.watermarks.get? userId = some w) (h : generation < w) :
    c.noteRevocation userId generation eventId = (false, c) := by
  unfold noteRevocation
  split
  next hnone => rw [hw] at hnone; contradiction
  next w' hw' =>
    obtain rfl : w = w' := Option.some.inj (hw.symm.trans hw')
    rw [if_pos h]

theorem noteRevocation_replay {eventId : String}
    (hw : c.watermarks.get? userId = some generation) (h : eventId ∈ c.appliedIds userId) :
    c.noteRevocation userId generation (some eventId) = (false, c) := by
  unfold noteRevocation
  split
  next hnone => rw [hw] at hnone; contradiction
  next w hw' =>
    obtain rfl : generation = w := Option.some.inj (hw.symm.trans hw')
    simp [h]

theorem noteRevocation_anonymous (hw : c.watermarks.get? userId = some generation) :
    c.noteRevocation userId generation none = (true, c) := by
  unfold noteRevocation
  split
  next hnone => rw [hw] at hnone; contradiction
  next w hw' =>
    obtain rfl : generation = w := Option.some.inj (hw.symm.trans hw')
    simp

theorem noteRevocation_sibling {eventId : String}
    (hw : c.watermarks.get? userId = some generation) (h : eventId ∉ c.appliedIds userId) :
    c.noteRevocation userId generation (some eventId) =
      (true, c.recordEventId userId eventId (OrderedDict.mem_keys_iff.mpr ⟨generation, hw⟩)) := by
  unfold noteRevocation
  split
  next hnone => rw [hw] at hnone; contradiction
  next w hw' =>
    obtain rfl : generation = w := Option.some.inj (hw.symm.trans hw')
    simp [h]

theorem noteRevocation_advance (eventId : Option String)
    (h : ∀ w, c.watermarks.get? userId = some w → w < generation) :
    c.noteRevocation userId generation eventId = (true, c.advance userId generation eventId) := by
  unfold noteRevocation
  split
  · rfl
  next w hw =>
    have hlt := h w hw
    rw [if_neg (by omega), if_neg (by omega)]

/-- What one call does: nothing, or record a new event id at the user's watermark, or
advance the watermark. -/
theorem noteRevocation_cases (c : JtiRevocationCache) (userId : String) (generation : ℤ)
    (eventId : Option String) :
    (∃ w, c.watermarks.get? userId = some w ∧ generation < w ∧
      c.noteRevocation userId generation eventId = (false, c)) ∨
    (c.watermarks.get? userId = some generation ∧ (∃ id ∈ c.appliedIds userId, eventId = some id) ∧
      c.noteRevocation userId generation eventId = (false, c)) ∨
    (c.watermarks.get? userId = some generation ∧ eventId = none ∧
      c.noteRevocation userId generation eventId = (true, c)) ∨
    (∃ hw : c.watermarks.get? userId = some generation, ∃ id ∉ c.appliedIds userId,
      eventId = some id ∧ c.noteRevocation userId generation eventId =
        (true, c.recordEventId userId id (OrderedDict.mem_keys_iff.mpr ⟨generation, hw⟩))) ∨
    ((∀ w, c.watermarks.get? userId = some w → w < generation) ∧
      c.noteRevocation userId generation eventId =
        (true, c.advance userId generation eventId)) := by
  by_cases hadv : ∀ w, c.watermarks.get? userId = some w → w < generation
  · exact .inr (.inr (.inr (.inr ⟨hadv, noteRevocation_advance eventId hadv⟩)))
  push Not at hadv
  obtain ⟨w, hw, hle⟩ := hadv
  rcases hle.lt_or_eq with hlt | rfl
  · exact .inl ⟨w, hw, hlt, noteRevocation_stale eventId hw hlt⟩
  cases eventId with
  | none => exact .inr (.inr (.inl ⟨hw, rfl, noteRevocation_anonymous hw⟩))
  | some id =>
    by_cases hid : id ∈ c.appliedIds userId
    · exact .inr (.inl ⟨hw, ⟨id, hid, rfl⟩, noteRevocation_replay hw hid⟩)
    · exact .inr (.inr (.inr (.inl ⟨hw, id, hid, rfl, noteRevocation_sibling hw hid⟩)))

@[simp] theorem noteRevocation_store (eventId : Option String) :
    (c.noteRevocation userId generation eventId).2.store = c.store := by
  rcases noteRevocation_cases c userId generation eventId with
    ⟨w, -, -, h⟩ | ⟨-, -, h⟩ | ⟨-, -, h⟩ | ⟨hw, id, -, -, h⟩ | ⟨-, h⟩ <;>
  rw [h] <;> rfl

@[simp] theorem noteRevocation_ttl (eventId : Option String) :
    (c.noteRevocation userId generation eventId).2.ttl = c.ttl := by
  rcases noteRevocation_cases c userId generation eventId with
    ⟨w, -, -, h⟩ | ⟨-, -, h⟩ | ⟨-, -, h⟩ | ⟨hw, id, -, -, h⟩ | ⟨-, h⟩ <;>
  rw [h] <;> rfl

/-- The watermark map moves by itself: neither the store nor the dedup sets have a say. -/
theorem noteRevocation_watermarks (c : JtiRevocationCache) (userId : String) (generation : ℤ)
    (eventId : Option String) :
    (c.noteRevocation userId generation eventId).2.watermarks =
      if ∀ w ∈ c.watermarks.get? userId, w < generation then
        (trimWatermarks (c.watermarks.set userId generation) .empty).1
      else c.watermarks := by
  have hkept : ∀ {w : ℤ}, c.watermarks.get? userId = some w → ¬ w < generation →
      ¬ ∀ w ∈ c.watermarks.get? userId, w < generation := fun hw hlt h => hlt (h _ hw)
  rcases noteRevocation_cases c userId generation eventId with
    ⟨w, hw, hlt, h⟩ | ⟨hw, -, h⟩ | ⟨hw, -, h⟩ | ⟨hw, id, -, -, h⟩ | ⟨hadv, h⟩
  · rw [h, if_neg (hkept hw (by omega))]
  · rw [h, if_neg (hkept hw (by omega))]
  · rw [h, if_neg (hkept hw (by omega))]
  · rw [h, if_neg (hkept hw (by omega))]
    rfl
  · have hall : ∀ w ∈ c.watermarks.get? userId, w < generation := hadv
    rw [h, if_pos hall]
    exact trimWatermarks_fst _ _ _

/-- A revocation that is acted on leaves its user tracked at its own generation. -/
theorem noteRevocation_acted {eventId : Option String}
    (h : (c.noteRevocation userId generation eventId).1 = true) :
    (c.noteRevocation userId generation eventId).2.watermarks.get? userId = some generation := by
  rcases noteRevocation_cases c userId generation eventId with
    ⟨w, -, -, heq⟩ | ⟨-, -, heq⟩ | ⟨hw, -, heq⟩ | ⟨hw, id, -, -, heq⟩ | ⟨-, heq⟩
  · rw [heq] at h
    contradiction
  · rw [heq] at h
    contradiction
  · rwa [heq]
  · rw [heq]
    exact hw
  · rw [heq]
    exact advance_watermark_self eventId

theorem recordEventId_appliedIds_self {eventId : String} (h : userId ∈ c.watermarks.keys) :
    (c.recordEventId userId eventId h).appliedIds userId =
      insert eventId (c.appliedIds userId) := by
  rw [appliedIds, recordEventId, OrderedDict.get?_set_self, Option.getD_some]

theorem recordEventId_appliedIds_of_ne {other eventId : String} (h : userId ∈ c.watermarks.keys)
    (hne : other ≠ userId) :
    (c.recordEventId userId eventId h).appliedIds other = c.appliedIds other := by
  rw [appliedIds, recordEventId, OrderedDict.get?_set_of_ne _ _ hne, appliedIds]

/-- Of a user who is tracked afterwards, a call keeps the watermark and forgets no event id,
or it raises the watermark to its own generation. -/
theorem noteRevocation_progress {eventId : Option String} {user : String} {w : ℤ}
    (hw : (c.noteRevocation userId generation eventId).2.watermarks.get? user = some w) :
    (c.watermarks.get? user = some w ∧
      c.appliedIds user ⊆ (c.noteRevocation userId generation eventId).2.appliedIds user) ∨
    (user = userId ∧ w = generation ∧
      (c.noteRevocation userId generation eventId).1 = true ∧
      ∀ w₀, c.watermarks.get? user = some w₀ → w₀ < w) := by
  rcases noteRevocation_cases c userId generation eventId with
    ⟨w, -, -, heq⟩ | ⟨-, -, heq⟩ | ⟨-, -, heq⟩ | ⟨hu, id, -, -, heq⟩ | ⟨hlt, heq⟩
  · rw [heq] at hw ⊢
    exact .inl ⟨hw, subset_rfl⟩
  · rw [heq] at hw ⊢
    exact .inl ⟨hw, subset_rfl⟩
  · rw [heq] at hw ⊢
    exact .inl ⟨hw, subset_rfl⟩
  · rw [heq] at hw ⊢
    refine .inl ⟨hw, ?_⟩
    by_cases hne : user = userId
    · subst hne
      rw [recordEventId_appliedIds_self]
      exact Finset.subset_insert _ _
    · rw [recordEventId_appliedIds_of_ne _ hne]
  · rw [heq] at hw ⊢
    by_cases hne : user = userId
    · subst hne
      rw [advance_watermark_self] at hw
      obtain rfl := Option.some.inj hw
      exact .inr ⟨rfl, rfl, rfl, hlt⟩
    · obtain ⟨hold, hids⟩ := advance_of_ne eventId hne hw
      exact .inl ⟨hold, hids.ge⟩

/-- A dedup id of a tracked user was there before at the same watermark, or it is the id of
this call, which was made for this user at this watermark. -/
theorem noteRevocation_appliedIds {eventId : Option String} {user id : String} {w : ℤ}
    (hw : (c.noteRevocation userId generation eventId).2.watermarks.get? user = some w)
    (hid : id ∈ (c.noteRevocation userId generation eventId).2.appliedIds user) :
    (c.watermarks.get? user = some w ∧ id ∈ c.appliedIds user) ∨
      (user = userId ∧ w = generation ∧ eventId = some id) := by
  rcases noteRevocation_cases c userId generation eventId with
    ⟨w, -, -, heq⟩ | ⟨-, -, heq⟩ | ⟨-, -, heq⟩ | ⟨hu, new, -, rfl, heq⟩ | ⟨hlt, heq⟩
  · rw [heq] at hw hid
    exact .inl ⟨hw, hid⟩
  · rw [heq] at hw hid
    exact .inl ⟨hw, hid⟩
  · rw [heq] at hw hid
    exact .inl ⟨hw, hid⟩
  · rw [heq] at hw hid
    by_cases hne : user = userId
    · subst hne
      rw [recordEventId_appliedIds_self, Finset.mem_insert] at hid
      rcases hid with rfl | hid
      · exact .inr ⟨rfl, Option.some.inj (hw.symm.trans hu), rfl⟩
      · exact .inl ⟨hw, hid⟩
    · rw [recordEventId_appliedIds_of_ne _ hne] at hid
      exact .inl ⟨hw, hid⟩
  · rw [heq] at hw hid
    by_cases hne : user = userId
    · subst hne
      rw [advance_watermark_self] at hw
      rw [advance_appliedIds_self] at hid
      refine .inr ⟨rfl, (Option.some.inj hw).symm, ?_⟩
      cases eventId with
      | none => simp [firstEventIds] at hid
      | some new =>
        simp only [firstEventIds] at hid
        split at hid
        · simp at hid
        · rw [Finset.mem_singleton.mp hid]
    · obtain ⟨hold, hids⟩ := advance_of_ne eventId hne hw
      rw [hids] at hid
      exact .inl ⟨hold, hid⟩

end FastapiM8.JtiRevocationCache
