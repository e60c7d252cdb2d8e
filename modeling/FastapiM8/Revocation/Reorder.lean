import FastapiM8.Lib.Records
import FastapiM8.Revocation.Events

/-! Reordered delivery. Of the v2 events of a user, the watermark rule acts on those that no
earlier one exceeds, so what an order of delivery evicts is decided by its weak records. -/
namespace FastapiM8.JtiRevocationCache

/-- A v2 event of a known user. -/
structure V2Event where
  authGeneration : ℤ
  jti : Option String
  eventId : Option String
  deriving DecidableEq

def V2Event.payload (user : String) (event : V2Event) : Option SessionRevokedEvent :=
  some ⟨user, some event.authGeneration, event.jti, event.eventId⟩

/-- The sessions that an event revokes when it is acted on. -/
def V2Event.Covers (user : String) (event : V2Event) (jti : String) (e : CacheEntry) : Prop :=
  match event.jti with
  | none => e.userId = user ∧ e.authGeneration < event.authGeneration
  | some target => jti = target

def deliver (user : String) (c : JtiRevocationCache) (events : List V2Event) :
    JtiRevocationCache :=
  events.foldl (fun c event => c.applySessionRevoked (event.payload user)) c

/-- The watermark of a user, `⊥` for an untracked one. -/
def reached (c : JtiRevocationCache) (user : String) : WithBot ℤ :=
  match c.watermarks.get? user with
  | none => ⊥
  | some w => w

/-- None of the events counts as a replay at the user's present watermark. -/
def Unapplied (c : JtiRevocationCache) (user : String) (events : List V2Event) : Prop :=
  ∀ event ∈ events, c.watermarks.get? user = some event.authGeneration →
    ∀ id, event.eventId = some id → id ∉ c.appliedIds user

variable {c : JtiRevocationCache} {user : String} {events : List V2Event}

theorem reached_eq_coe {w : ℤ} : c.reached user = w ↔ c.watermarks.get? user = some w := by
  unfold reached
  cases c.watermarks.get? user <;> simp

theorem reached_le_iff {g : ℤ} :
    c.reached user ≤ g ↔ ∀ w, c.watermarks.get? user = some w → w ≤ g := by
  unfold reached
  cases c.watermarks.get? user <;> simp

/-- An event that is no replay is acted on exactly when the watermark has not passed it. -/
theorem noteRevocation_acts_iff {event : V2Event} (h : c.Unapplied user [event]) :
    (c.noteRevocation user event.authGeneration event.eventId).1 = true ↔
      c.reached user ≤ event.authGeneration := by
  rw [reached_le_iff]
  rcases noteRevocation_cases c user event.authGeneration event.eventId with
    ⟨w, hw, hlt, heq⟩ | ⟨hw, ⟨id, hid, hev⟩, -⟩ | ⟨hw, -, heq⟩ | ⟨hw, id, -, -, heq⟩ | ⟨hlt, heq⟩
  · rw [heq]
    refine ⟨fun h => by contradiction, fun hle => ?_⟩
    have := hle w hw
    omega
  · exact absurd hid (h event List.mem_cons_self hw id hev)
  · simp [heq, hw]
  · simp [heq, hw]
  · rw [heq]
    exact ⟨fun _ w hw => (hlt w hw).le, fun _ => rfl⟩

theorem evicts_payload_iff {event : V2Event} {jti : String} {e : CacheEntry}
    (h : c.Unapplied user [event]) :
    c.Evicts (event.payload user) jti e ↔
      c.reached user ≤ event.authGeneration ∧ event.Covers user jti e := by
  rw [← noteRevocation_acts_iff h]
  rfl

/-- The watermark a delivery leaves is the maximum of the old one and the event's. -/
theorem reached_applySessionRevoked (c : JtiRevocationCache) (event : V2Event) :
    (c.applySessionRevoked (event.payload user)).reached user =
      max (c.reached user) event.authGeneration := by
  obtain ⟨hwm, -⟩ := applySessionRevoked_v2_maps c
    ⟨user, some event.authGeneration, event.jti, event.eventId⟩ rfl
  have hmap : (c.applySessionRevoked (event.payload user)).reached user =
      (c.noteRevocation user event.authGeneration event.eventId).2.reached user := by
    unfold reached
    rw [V2Event.payload, hwm]
  rw [hmap]
  rcases noteRevocation_cases c user event.authGeneration event.eventId with
    ⟨w, hw, hlt, heq⟩ | ⟨hw, -, heq⟩ | ⟨hw, -, heq⟩ | ⟨hw, id, -, -, heq⟩ | ⟨hlt, heq⟩
  · rw [heq, reached_eq_coe.mpr hw, max_eq_left (WithBot.coe_le_coe.mpr hlt.le)]
  · rw [heq, reached_eq_coe.mpr hw, max_self]
  · rw [heq, reached_eq_coe.mpr hw, max_self]
  · rw [heq, reached_eq_coe.mpr hw, max_self]
    exact reached_eq_coe.mpr hw
  · rw [heq, reached_eq_coe.mpr (advance_watermark_self _),
      max_eq_right (reached_le_iff.mpr fun w hw => (hlt w hw).le)]

/-- Delivering one event makes no replay of the others: their ids are different. -/
theorem Unapplied.deliver_one {event : V2Event} (h : c.Unapplied user (event :: events))
    (hids : ((event :: events).map V2Event.eventId).Nodup) :
    (c.applySessionRevoked (event.payload user)).Unapplied user events := by
  intro other hother hw id hid hmem
  rcases applySessionRevoked_appliedIds hw hmem with ⟨hw', hmem'⟩ | ⟨jti, heq⟩
  · exact h other (List.mem_cons_of_mem _ hother) hw' id hid hmem'
  · have hsame : event.eventId = other.eventId := by
      rw [hid]
      exact congrArg SessionRevokedEvent.eventId (Option.some.inj heq)
    rw [List.map_cons, List.nodup_cons] at hids
    exact hids.1 (hsame ▸ List.mem_map_of_mem hother)

/-- A delivery keeps the entries that none of its weak records covers. -/
theorem deliver_get? (h : c.Unapplied user events) (hids : (events.map V2Event.eventId).Nodup)
    {jti : String} {e : CacheEntry} :
    (deliver user c events).store.get? jti = some e ↔ c.store.get? jti = some e ∧
      ∀ event ∈ events.records V2Event.authGeneration (c.reached user),
        ¬ event.Covers user jti e := by
  induction events generalizing c with
  | nil => simp [deliver, List.records]
  | cons event events ih =>
    have hone : c.Unapplied user [event] := by
      intro other hother
      rw [List.mem_singleton] at hother
      exact h other (hother ▸ List.mem_cons_self)
    have hrest := ih (h.deliver_one hids) (List.nodup_cons.mp hids).2
    have hfold : deliver user c (event :: events) =
        deliver user (c.applySessionRevoked (event.payload user)) events := rfl
    rw [hfold, hrest, applySessionRevoked_get?, evicts_payload_iff hone,
      reached_applySessionRevoked, List.records]
    split
    next hle => simp [hle, and_assoc]
    next hgt => simp [hgt, max_eq_left (not_le.mp hgt).le]

theorem deliver_reached (c : JtiRevocationCache) (events : List V2Event) :
    (deliver user c events).reached user =
      events.foldl (fun w event => max w (event.authGeneration : WithBot ℤ)) (c.reached user) := by
  induction events generalizing c with
  | nil => rfl
  | cons event events ih =>
    have hfold : deliver user c (event :: events) =
        deliver user (c.applySessionRevoked (event.payload user)) events := rfl
    rw [hfold, ih, reached_applySessionRevoked, List.foldl_cons]

/-- The watermark after a delivery does not depend on its order. -/
theorem deliver_watermark_perm (c : JtiRevocationCache) {events' : List V2Event}
    (h : events'.Perm events) :
    (deliver user c events').watermarks.get? user =
      (deliver user c events).watermarks.get? user := by
  have hreached : (deliver user c events').reached user = (deliver user c events).reached user := by
    rw [deliver_reached, deliver_reached]
    apply h.foldl_eq'
    intro a _ b _ w
    exact max_right_comm _ _ _
  cases hw : (deliver user c events').watermarks.get? user with
  | some w => exact (reached_eq_coe.mp (hreached ▸ reached_eq_coe.mpr hw)).symm
  | none =>
    cases hw' : (deliver user c events).watermarks.get? user with
    | none => rfl
    | some w =>
      rw [← hw]
      exact reached_eq_coe.mp (hreached.trans (reached_eq_coe.mpr hw'))

/-- Events above the watermark of their user are new to it. -/
theorem unapplied_of_fresh
    (h : ∀ w, c.watermarks.get? user = some w → ∀ event ∈ events, w < event.authGeneration) :
    c.Unapplied user events := by
  intro event hevent hw
  exact absurd (h _ hw event hevent) (lt_irrefl _)

theorem exists_top {event : V2Event} (h : event ∈ events) :
    ∃ top ∈ events, ∀ other ∈ events, other.authGeneration ≤ top.authGeneration := by
  have hne : events.toFinset.Nonempty := ⟨event, List.mem_toFinset.mpr h⟩
  obtain ⟨top, htop, hle⟩ := events.toFinset.exists_max_image V2Event.authGeneration hne
  exact ⟨top, List.mem_toFinset.mp htop, fun other ho => hle other (List.mem_toFinset.mpr ho)⟩

/-- Delivery is independent of the order exactly when every cached entry that some event
covers is covered by an event of the highest generation. -/
theorem deliver_perm_iff
    (hfresh : ∀ w, c.watermarks.get? user = some w → ∀ event ∈ events, w < event.authGeneration)
    (hids : (events.map V2Event.eventId).Nodup) :
    (∀ l₁ l₂, l₁.Perm events → l₂.Perm events →
      (∀ jti, (deliver user c l₁).store.get? jti = (deliver user c l₂).store.get? jti) ∧
        (deliver user c l₁).watermarks.get? user = (deliver user c l₂).watermarks.get? user) ↔
    ∀ jti e, c.store.get? jti = some e → ∀ event ∈ events, event.Covers user jti e →
      ∃ top ∈ events, (∀ other ∈ events, other.authGeneration ≤ top.authGeneration) ∧
        top.Covers user jti e := by
  have hreached : ∀ event ∈ events, c.reached user ≤ event.authGeneration := fun event he =>
    reached_le_iff.mpr fun w hw => (hfresh w hw event he).le
  have hget : ∀ {l : List V2Event}, l.Perm events → ∀ jti e,
      ((deliver user c l).store.get? jti = some e ↔ c.store.get? jti = some e ∧
        ∀ event ∈ l.records V2Event.authGeneration (c.reached user),
          ¬ event.Covers user jti e) := by
    intro l hl jti e
    refine deliver_get? (unapplied_of_fresh fun w hw event he => ?_) ?_
    · exact hfresh w hw event (hl.mem_iff.mp he)
    · exact (hl.map V2Event.eventId).nodup_iff.mpr hids
  constructor
  · intro hsame jti e he event hevent hcov
    by_contra hnone
    push Not at hnone
    obtain ⟨top, htop, hmax⟩ := exists_top hevent
    have hfront : ∀ {a : V2Event}, a ∈ events → (a :: events.erase a).Perm events :=
      fun ha => (List.perm_cons_erase ha).symm
    -- with the event in front it is acted on, with a top event in front it is stale
    have hevicted : (deliver user c (event :: events.erase event)).store.get? jti ≠ some e := by
      intro hkept
      exact ((hget (hfront hevent) jti e).mp hkept).2 event
        (List.mem_records_cons _ (hreached event hevent)) hcov
    have hkept : (deliver user c (top :: events.erase top)).store.get? jti = some e := by
      refine (hget (hfront htop) jti e).mpr ⟨he, fun r hr => ?_⟩
      have hr' : r ∈ events := (hfront htop).mem_iff.mp ((List.records_sublist _ _).subset hr)
      have hle := List.key_le_of_mem_records_cons (hreached top htop) hr
      exact hnone r hr' fun other ho => (hmax other ho).trans hle
    exact hevicted (((hsame _ _ (hfront hevent) (hfront htop)).1 jti).trans hkept)
  · intro hcond l₁ l₂ h₁ h₂
    have hkeep : ∀ {l : List V2Event}, l.Perm events → ∀ jti e,
        ((deliver user c l).store.get? jti = some e ↔ c.store.get? jti = some e ∧
          ∀ event ∈ events, ¬ event.Covers user jti e) := by
      intro l hl jti e
      rw [hget hl]
      refine and_congr_right fun he => ⟨fun h event hevent hcov => ?_, fun h r hr => ?_⟩
      · obtain ⟨top, htop, hmax, hcov⟩ := hcond jti e he event hevent hcov
        refine h top (List.mem_records_of_top (hl.mem_iff.mpr htop) (hreached top htop) ?_) hcov
        exact fun other ho => hmax other (hl.mem_iff.mp ho)
      · exact h r (hl.mem_iff.mp ((List.records_sublist _ _).subset hr))
    constructor
    · intro jti
      apply Option.ext
      intro e
      rw [hkeep h₁, hkeep h₂]
    · exact deliver_watermark_perm c (h₁.trans h₂.symm)

/-- A cache with one session of `user-a`, and the event that revokes it. -/
def pendingCache : JtiRevocationCache := ((init 30).put 0 "jti-1" "user-a" 1).2

def thisSession : V2Event := ⟨2, some "jti-1", some "event-1"⟩

def otherSession : V2Event := ⟨3, some "jti-2", some "event-2"⟩

def everySession : V2Event := ⟨3, none, some "event-3"⟩

theorem deliver_perm_everySession :
    (deliver "user-a" pendingCache [thisSession, everySession]).store.get? "jti-1" =
        (deliver "user-a" pendingCache [everySession, thisSession]).store.get? "jti-1" ∧
      (deliver "user-a" pendingCache [thisSession, everySession]).watermarks.get? "user-a" =
        (deliver "user-a" pendingCache [everySession, thisSession]).watermarks.get? "user-a" := by
  have hfresh : ∀ w, pendingCache.watermarks.get? "user-a" = some w →
      ∀ event ∈ [thisSession, everySession], w < event.authGeneration := by
    intro w hw
    contradiction
  have hsame := (deliver_perm_iff hfresh (by decide)).mpr ?_ _ _ (.refl _) (.swap _ _ _)
  · exact ⟨hsame.1 "jti-1", hsame.2⟩
  · intro jti e he event hevent hcov
    refine ⟨everySession, by decide, by decide, ?_⟩
    rcases put_get?.mp he with ⟨-, -, -, rfl⟩ | ⟨hold, -⟩
    · exact ⟨rfl, by decide⟩
    · contradiction

theorem deliver_not_perm_invariant :
    ¬ ∀ (c : JtiRevocationCache) (user : String) (events : List V2Event),
      (∀ w, c.watermarks.get? user = some w → ∀ event ∈ events, w < event.authGeneration) →
      (events.map V2Event.eventId).Nodup →
      (∀ event ∈ events, ∀ target, event.jti = some target → ∀ e, c.store.get? target = some e →
        e.authGeneration ≤ event.authGeneration) →
      ∀ l₁ l₂, l₁.Perm events → l₂.Perm events →
        (∀ jti, (deliver user c l₁).store.get? jti = (deliver user c l₂).store.get? jti) ∧
        (deliver user c l₁).watermarks.get? user = (deliver user c l₂).watermarks.get? user := by
  intro h
  have hsame := h pendingCache "user-a" [thisSession, otherSession] ?_ (by decide) ?_
    [thisSession, otherSession] [otherSession, thisSession] (.refl _) (.swap _ _ _)
  · have hget := hsame.1 "jti-1"
    revert hget
    decide +kernel
  · intro w hw
    contradiction
  · intro event hevent target htarget e he
    rcases put_get?.mp he with ⟨-, -, rfl, rfl⟩ | ⟨hold, -⟩
    · have hgen : ∀ event ∈ [thisSession, otherSession], 1 ≤ event.authGeneration := by decide
      exact hgen event hevent
    · contradiction

end FastapiM8.JtiRevocationCache
