import FastapiM8.Revocation.Events

/-! Entries below the watermark of their user. A lookup does not consult the watermark, so
what separates it from the uncached path is which events leave such an entry behind. -/
namespace FastapiM8.JtiRevocationCache

variable {c : JtiRevocationCache}

/-- The event spares an entry that it supersedes: it is acted on at the generation `w`, but
names a session other than the entry's. -/
def Spares (c : JtiRevocationCache) (event : SessionRevokedEvent) (w : ℤ) (jti : String)
    (e : CacheEntry) : Prop :=
  event.userId = e.userId ∧ event.authGeneration = some w ∧
    (c.noteRevocation event.userId w event.eventId).1 = true ∧
    (∃ other, event.jti = some other ∧ other ≠ jti) ∧ c.store.get? jti = some e

/-- An operation that leaves an entry below the watermark `w` of its user found it there, at
the same watermark, or is an event that spares it. -/
theorem CacheOp.apply_superseded {op : CacheOp} {jti : String} {e : CacheEntry} {w : ℤ}
    (he : (op.apply c).store.get? jti = some e)
    (hw : (op.apply c).watermarks.get? e.userId = some w) (hlt : e.authGeneration < w) :
    (c.store.get? jti = some e ∧ c.watermarks.get? e.userId = some w) ∨
      ∃ event, op = .sessionRevoked (some event) ∧ Spares c event w jti e := by
  rcases CacheOp.apply_maps (c := c) op with ⟨hwm, -⟩ | ⟨payload, rfl⟩
  · rw [hwm] at hw
    rcases CacheOp.apply_get? he with hold | ⟨now, rfl, hle⟩
    · exact .inl ⟨hold, hw⟩
    · rw [watermark, hw, Option.getD_some] at hle
      omega
  · obtain ⟨hold, hkept⟩ := applySessionRevoked_get?.mp he
    rcases applySessionRevoked_progress hw with ⟨hsame, -⟩ | ⟨event, rfl, hu, hg, hacted, -⟩
    · exact .inl ⟨hold, hsame⟩
    · rw [← hu] at hacted
      cases hj : event.jti with
      | none =>
        -- a user-wide event at `w` would have evicted the entry
        simp only [Evicts, hg, hj] at hkept
        exact absurd ⟨hacted, hu.symm, hlt⟩ hkept
      | some other =>
        simp only [Evicts, hg, hj, hacted, true_and] at hkept
        exact .inr ⟨event, rfl, hu, hg, hacted, ⟨other, hj, Ne.symm hkept⟩, hold⟩

/-- An entry below its user's watermark was spared by an event of the run. -/
theorem superseded_origin {ttl : ℤ} {past : List (JtiRevocationCache × CacheOp)}
    (run : Run opStep (init ttl) past c) {jti : String} {e : CacheEntry} {w : ℤ}
    (he : c.store.get? jti = some e) (hw : c.watermarks.get? e.userId = some w)
    (hlt : e.authGeneration < w) :
    ∃ c₁ event, (c₁, CacheOp.sessionRevoked (some event)) ∈ past ∧ Spares c₁ event w jti e := by
  induction run with
  | start => simp [init] at he
  | @next past c op c' run hstep ih =>
    obtain rfl := Option.some.inj hstep
    rcases CacheOp.apply_superseded he hw hlt with ⟨hold, hsame⟩ | ⟨event, rfl, hspare⟩
    · obtain ⟨c₁, event, hmem, hspare⟩ := ih hold hsame
      exact ⟨c₁, event, List.mem_cons_of_mem _ hmem, hspare⟩
    · exact ⟨c, event, List.mem_cons_self, hspare⟩

/-- The cache holds, and so a hit accepts, a session that the uncached path denies only when a
JTI-scoped event for another session of the user moved the watermark over the stored entry,
or when the user is untracked and the entry's generation is negative. -/
theorem hit_superseded_only_when_spared {ttl : ℤ} :
    ∀ past c, Run opStep (init ttl) past c → ∀ jti e, c.store.get? jti = some e →
      c.isSuperseded e.userId e.authGeneration = true →
      (∃ w c₁ event, c.watermarks.get? e.userId = some w ∧ e.authGeneration < w ∧
        (c₁, CacheOp.sessionRevoked (some event)) ∈ past ∧ Spares c₁ event w jti e) ∨
      (e.userId ∉ c.watermarks.keys ∧ e.authGeneration < 0) := by
  intro past c run jti e he hsup
  rw [isSuperseded, decide_eq_true_iff, watermark] at hsup
  cases hw : c.watermarks.get? e.userId with
  | none =>
    rw [hw, Option.getD_none] at hsup
    exact .inr ⟨OrderedDict.get?_eq_none_iff.mp hw, hsup⟩
  | some w =>
    rw [hw, Option.getD_some] at hsup
    obtain ⟨c₁, event, hmem, hspare⟩ := superseded_origin run he hw hsup
    exact .inl ⟨w, c₁, event, rfl, hsup, hmem, hspare⟩

/-- Two sessions of one user at generation 1, one of them revoked at generation 2. -/
def siblingOps : List CacheOp :=
  [.put 0 "jti-1" "user-a" 1, .put 0 "jti-2" "user-a" 1,
    .sessionRevoked (some ⟨"user-a", some 2, some "jti-1", some "evt-1"⟩)]

def siblingCache : JtiRevocationCache := siblingOps.foldl CacheOp.apply (init 30)

theorem siblingCache_spared :
    ∃ w c₁ event, 1 < w ∧ siblingCache.watermarks.get? "user-a" = some w ∧
      Spares c₁ event w "jti-2" ⟨30, "user-a", 1⟩ := by
  obtain ⟨past, run⟩ := run_ops (init 30) siblingOps
  rcases hit_superseded_only_when_spared past siblingCache run "jti-2" ⟨30, "user-a", 1⟩
    (by decide +kernel) (by decide +kernel) with ⟨w, c₁, event, hw, hlt, -, hspare⟩ | ⟨hnew, -⟩
  · exact ⟨w, c₁, event, hlt, hw, hspare⟩
  · exact absurd (by decide +kernel) hnew

theorem not_watermark_le_of_stored :
    ¬ ∀ ttl past c, Run opStep (init ttl) past c → ∀ jti e, c.store.get? jti = some e →
      c.watermark e.userId ≤ e.authGeneration := by
  intro h
  obtain ⟨past, run⟩ := run_ops (init 30) siblingOps
  have hle := h 30 past siblingCache run "jti-2" ⟨30, "user-a", 1⟩ (by decide +kernel)
  revert hle
  decide +kernel

end FastapiM8.JtiRevocationCache
