import FastapiM8.Lib.Tenure
import FastapiM8.Revocation.Frame

/-! The attributes of the cache as its methods change them, with no invariant attached: that
the watermark map and the dedup map fit together is a fact about every run of the methods. -/
namespace FastapiM8

/-- The attributes that `__init__` makes. -/
@[ext] structure CacheFields where
  ttl : ℤ
  store : OrderedDict String CacheEntry
  watermarks : OrderedDict String ℤ
  appliedEventIds : OrderedDict String (Finset String)

namespace CacheFields

def init (ttlSeconds : ℤ) : CacheFields := ⟨ttlSeconds, .empty, .empty, .empty⟩

def get (c : CacheFields) (now : ℚ) (jti : String) : Option Bool × CacheFields :=
  match c.store.get? jti with
  | none => (none, c)
  | some entry =>
    if entry.expiresAt ≤ now then (none, { c with store := c.store.erase jti })
    else (some false, c)

def put (c : CacheFields) (now : ℚ) (jti userId : String) (authGeneration : ℤ) :
    Except PyExc Unit × CacheFields :=
  if authGeneration < (c.watermarks.get? userId).getD 0 then (.ok (), c)
  else match addSeconds now c.ttl with
    | .error exc => (.error exc, c)
    | .ok expiresAt =>
      (.ok (), { c with store := c.store.set jti ⟨expiresAt, userId, authGeneration⟩ })

/-- The end of `note_revocation`: both maps are set, then trimmed. -/
def advance (c : CacheFields) (userId : String) (authGeneration : ℤ) (eventId : Option String) :
    CacheFields :=
  let trimmed := trimWatermarks (c.watermarks.set userId authGeneration)
    (c.appliedEventIds.set userId (JtiRevocationCache.firstEventIds eventId))
  { c with watermarks := trimmed.1, appliedEventIds := trimmed.2 }

def noteRevocation (c : CacheFields) (userId : String) (authGeneration : ℤ)
    (eventId : Option String) : Bool × CacheFields :=
  match c.watermarks.get? userId with
  | none => (true, c.advance userId authGeneration eventId)
  | some watermark =>
    if authGeneration < watermark then (false, c)
    else if authGeneration = watermark then
      let c := { c with appliedEventIds := c.appliedEventIds.setDefault userId ∅ }
      let applied := (c.appliedEventIds.get? userId).getD ∅
      match eventId with
      | none => (true, c)
      | some id =>
        if id ∈ applied then (false, c)
        else (true, { c with
          appliedEventIds := c.appliedEventIds.set userId (insert id applied) })
    else (true, c.advance userId authGeneration eventId)

def evictJti (c : CacheFields) (jti : String) : CacheFields :=
  { c with store := c.store.erase jti }

def evictUserBelow (c : CacheFields) (userId : String) (authGeneration : Option ℤ) :
    CacheFields :=
  { c with
    store := c.store.filter fun _ entry =>
      !(entry.userId = userId && (match authGeneration with
        | none => true
        | some generation => entry.authGeneration < generation)) }

def evictUser (c : CacheFields) (userId : String) : CacheFields := c.evictUserBelow userId none

def flushAll (c : CacheFields) : CacheFields := { c with store := .empty }

/-- `get` only drops an expired entry. -/
theorem get_cases (c : CacheFields) (now : ℚ) (jti : String) :
    (c.get now jti).2 = c ∨ (c.get now jti).2 = { c with store := c.store.erase jti } := by
  unfold get
  split
  · exact .inl rfl
  · split
    · exact .inr rfl
    · exact .inl rfl

/-- `put` stores an entry that is not below the watermark of its user, and whose end is a float. -/
theorem put_cases (c : CacheFields) (now : ℚ) (jti userId : String) (g : ℤ) :
    (c.put now jti userId g).2 = c ∨
    ¬ g < (c.watermarks.get? userId).getD 0 ∧ c.ttl < floatLimit ∧
      (c.put now jti userId g).2 =
        { c with store := c.store.set jti ⟨now + c.ttl, userId, g⟩ } := by
  unfold put
  split
  next => exact .inl rfl
  next hle =>
    rcases lt_or_ge c.ttl floatLimit with hfits | hlimit
    · rw [addSeconds_of_lt hfits]
      exact .inr ⟨hle, hfits, rfl⟩
    · rw [addSeconds_of_le hlimit]
      exact .inl rfl

/-- `note_revocation` touches nothing but the two maps. -/
theorem noteRevocation_rest (c : CacheFields) (userId : String) (g : ℤ) (eventId : Option String) :
    (c.noteRevocation userId g eventId).2.store = c.store ∧
      (c.noteRevocation userId g eventId).2.ttl = c.ttl := by
  unfold noteRevocation
  split
  · exact ⟨rfl, rfl⟩
  · split
    · exact ⟨rfl, rfl⟩
    · split
      · cases eventId with
        | none => exact ⟨rfl, rfl⟩
        | some id =>
          dsimp only
          split <;> exact ⟨rfl, rfl⟩
      · exact ⟨rfl, rfl⟩

/-- Forget the invariant. -/
def of (c : JtiRevocationCache) : CacheFields :=
  ⟨c.ttl, c.store, c.watermarks, c.appliedEventIds⟩

variable (c : JtiRevocationCache)

theorem of_init (ttlSeconds : ℤ) : init ttlSeconds = of (.init ttlSeconds) := rfl

theorem of_get (now : ℚ) (jti : String) :
    (of c).get now jti = ((c.get now jti).1, of (c.get now jti).2) := by
  unfold get JtiRevocationCache.get
  show (match c.store.get? jti with | none => _ | some entry => _) = _
  cases c.store.get? jti with
  | none => rfl
  | some entry =>
    dsimp only
    split <;> rfl

theorem of_put (now : ℚ) (jti userId : String) (g : ℤ) :
    (of c).put now jti userId g = ((c.put now jti userId g).1, of (c.put now jti userId g).2) := by
  unfold put JtiRevocationCache.put JtiRevocationCache.watermark
  show (if g < (c.watermarks.get? userId).getD 0 then _ else match addSeconds now c.ttl with
    | .error exc => _
    | .ok expiresAt => _) = _
  split
  · rfl
  · cases addSeconds now c.ttl <;> rfl

/-- A tracked user has a dedup set, so `setdefault` finds one. -/
theorem of_noteRevocation (userId : String) (g : ℤ) (eventId : Option String) :
    (of c).noteRevocation userId g eventId =
      ((c.noteRevocation userId g eventId).1, of (c.noteRevocation userId g eventId).2) := by
  have hdefault : ∀ {w : ℤ}, c.watermarks.get? userId = some w →
      c.appliedEventIds.setDefault userId ∅ = c.appliedEventIds := by
    intro w hw
    apply OrderedDict.setDefault_of_mem
    rw [c.sameUsers]
    exact OrderedDict.mem_keys_iff.mpr ⟨w, hw⟩
  have hids : (c.appliedEventIds.get? userId).getD ∅ = c.appliedIds userId := rfl
  unfold noteRevocation
  show (match c.watermarks.get? userId with | none => _ | some watermark => _) = _
  rcases JtiRevocationCache.noteRevocation_cases c userId g eventId with
    ⟨w, hw, hlt, h⟩ | ⟨hw, ⟨id, hid, rfl⟩, h⟩ | ⟨hw, rfl, h⟩ | ⟨hw, id, hid, rfl, h⟩ | ⟨hadv, h⟩
  · rw [hw, h]
    simp only [hlt, ↓reduceIte]
  · rw [hw, h]
    simp only [lt_self_iff_false, ↓reduceIte, of, hdefault hw, hids, hid]
  · rw [hw, h]
    simp only [lt_self_iff_false, ↓reduceIte, of, hdefault hw]
  · rw [hw, h]
    simp only [lt_self_iff_false, ↓reduceIte, of, hdefault hw, hids, hid]
    rfl
  · rw [h]
    cases hw : c.watermarks.get? userId with
    | none => rfl
    | some w =>
      have hlt := hadv w hw
      have hle : ¬ g < w := by omega
      have hne : g ≠ w := by omega
      simp only [hle, hne, ↓reduceIte]
      rfl

theorem of_evictJti (jti : String) : (of c).evictJti jti = of (c.evictJti jti) := rfl

theorem of_evictUserBelow (userId : String) (g : Option ℤ) :
    (of c).evictUserBelow userId g = of (c.evictUserBelow userId g) := rfl

theorem of_evictUser (userId : String) : (of c).evictUser userId = of (c.evictUser userId) := rfl

theorem of_flushAll : (of c).flushAll = of c.flushAll := rfl

end CacheFields

/-- The methods of the cache, and the passing of time. -/
inductive CacheAct where
  | get (jti : String)
  | put (jti userId : String) (authGeneration : ℤ)
  | noteRevocation (userId : String) (authGeneration : ℤ) (eventId : Option String)
  | evictJti (jti : String)
  | evictUser (userId : String)
  | evictUserBelow (userId : String) (authGeneration : Option ℤ)
  | flushAll
  | wait (seconds : ℚ)

/-- The attributes of a cache, and the monotonic clock that it reads. -/
structure FieldState where
  cache : CacheFields
  now : ℚ

namespace FieldState

def step (s : FieldState) : CacheAct → Option FieldState
  | .get jti => some { s with cache := (s.cache.get s.now jti).2 }
  | .put jti userId g => some { s with cache := (s.cache.put s.now jti userId g).2 }
  | .noteRevocation userId g eventId =>
    some { s with cache := (s.cache.noteRevocation userId g eventId).2 }
  | .evictJti jti => some { s with cache := s.cache.evictJti jti }
  | .evictUser userId => some { s with cache := s.cache.evictUser userId }
  | .evictUserBelow userId g => some { s with cache := s.cache.evictUserBelow userId g }
  | .flushAll => some { s with cache := s.cache.flushAll }
  | .wait seconds => if 0 ≤ seconds then some { s with now := s.now + seconds } else none

/-- The tracked users, oldest first. -/
def users (s : FieldState) : List String := s.cache.watermarks.keys

/-- Of the tracked users, `user` is the one that has been tracked for the most steps. -/
def TrackedLongest (past : List (FieldState × CacheAct)) (s : FieldState) (user : String) : Prop :=
  user ∈ s.users ∧ ∀ other ∈ s.users, other ≠ user →
    Run.tenure users past other < Run.tenure users past user

/-- The two maps fit together: the attributes are those of a cache with its invariant. -/
def Fits (s : FieldState) : Prop := ∃ c, s.cache = .of c

variable {s s' : FieldState} {act : CacheAct} {user : String}

theorem step_wait {seconds : ℚ} (h : 0 ≤ seconds) :
    s.step (.wait seconds) = some { s with now := s.now + seconds } := if_pos h

theorem step_wait_iff {seconds : ℚ} :
    s.step (.wait seconds) = some s' ↔ 0 ≤ seconds ∧ { s with now := s.now + seconds } = s' := by
  simp only [step, Option.ite_none_right_eq_some, Option.some.injEq]

/-- What one call does to the two maps: only `note_revocation` changes them. -/
theorem step_maps (h : s.step act = some s') :
    (s'.cache.watermarks = s.cache.watermarks ∧
      s'.cache.appliedEventIds = s.cache.appliedEventIds) ∨
    ∃ userId g eventId, act = .noteRevocation userId g eventId ∧
      s' = { s with cache := (s.cache.noteRevocation userId g eventId).2 } := by
  cases act with
  | noteRevocation userId g eventId =>
    exact .inr ⟨userId, g, eventId, rfl, (Option.some.inj h).symm⟩
  | get jti =>
    obtain rfl := Option.some.inj h
    rcases s.cache.get_cases s.now jti with heq | heq
    · exact .inl ⟨by rw [heq], by rw [heq]⟩
    · exact .inl ⟨by rw [heq], by rw [heq]⟩
  | put jti userId g =>
    obtain rfl := Option.some.inj h
    rcases s.cache.put_cases s.now jti userId g with heq | ⟨-, -, heq⟩
    · exact .inl ⟨by rw [heq], by rw [heq]⟩
    · exact .inl ⟨by rw [heq], by rw [heq]⟩
  | wait seconds =>
    obtain ⟨-, rfl⟩ := step_wait_iff.mp h
    exact .inl ⟨rfl, rfl⟩
  | _ =>
    obtain rfl := Option.some.inj h
    exact .inl ⟨rfl, rfl⟩

/-- What one call does to the store: it keeps some of the entries, or `put` sets one. -/
theorem step_store (h : s.step act = some s') :
    (∃ p, s'.cache.store = s.cache.store.filter p) ∨
    ∃ jti userId g, act = .put jti userId g ∧
      ¬ g < (s.cache.watermarks.get? userId).getD 0 ∧ s.cache.ttl < floatLimit ∧
      s'.cache.store = s.cache.store.set jti ⟨s.now + s.cache.ttl, userId, g⟩ := by
  have hkept : ∃ p, s.cache.store = s.cache.store.filter p :=
    ⟨fun _ _ => true, (OrderedDict.filter_eq_self fun _ _ _ => rfl).symm⟩
  cases act with
  | get jti =>
    obtain rfl := Option.some.inj h
    refine .inl ?_
    rcases s.cache.get_cases s.now jti with heq | heq
    · rw [heq]
      exact hkept
    · rw [heq]
      exact ⟨fun k _ => k ≠ jti, rfl⟩
  | put jti userId g =>
    obtain rfl := Option.some.inj h
    rcases s.cache.put_cases s.now jti userId g with heq | ⟨hle, hfits, heq⟩
    · rw [heq]
      exact .inl hkept
    · rw [heq]
      exact .inr ⟨jti, userId, g, rfl, hle, hfits, rfl⟩
  | noteRevocation userId g eventId =>
    obtain rfl := Option.some.inj h
    refine .inl ?_
    rw [(CacheFields.noteRevocation_rest _ userId g eventId).1]
    exact hkept
  | evictJti jti =>
    obtain rfl := Option.some.inj h
    exact .inl ⟨fun k _ => k ≠ jti, rfl⟩
  | evictUser userId =>
    obtain rfl := Option.some.inj h
    dsimp only [CacheFields.evictUser, CacheFields.evictUserBelow]
    exact .inl ⟨_, rfl⟩
  | evictUserBelow userId g =>
    obtain rfl := Option.some.inj h
    dsimp only [CacheFields.evictUserBelow]
    exact .inl ⟨_, rfl⟩
  | flushAll =>
    obtain rfl := Option.some.inj h
    exact .inl ⟨_, (OrderedDict.filter_false s.cache.store).symm⟩
  | wait seconds =>
    obtain ⟨-, rfl⟩ := step_wait_iff.mp h
    exact .inl hkept

/-- A call does not change the time to live, and the clock does not run backwards. -/
theorem step_rest (h : s.step act = some s') :
    s'.cache.ttl = s.cache.ttl ∧ s.now ≤ s'.now := by
  cases act with
  | get jti =>
    obtain rfl := Option.some.inj h
    rcases s.cache.get_cases s.now jti with heq | heq
    · exact ⟨by rw [heq], le_rfl⟩
    · exact ⟨by rw [heq], le_rfl⟩
  | put jti userId g =>
    obtain rfl := Option.some.inj h
    rcases s.cache.put_cases s.now jti userId g with heq | ⟨-, -, heq⟩
    · exact ⟨by rw [heq], le_rfl⟩
    · exact ⟨by rw [heq], le_rfl⟩
  | noteRevocation userId g eventId =>
    obtain rfl := Option.some.inj h
    exact ⟨(CacheFields.noteRevocation_rest _ userId g eventId).2, le_rfl⟩
  | wait seconds =>
    obtain ⟨hpos, rfl⟩ := step_wait_iff.mp h
    exact ⟨rfl, le_add_of_nonneg_right hpos⟩
  | _ =>
    obtain rfl := Option.some.inj h
    exact ⟨rfl, le_rfl⟩

/-- Every call keeps the two maps fitting together. -/
theorem fits_step (hs : s.Fits) (h : s.step act = some s') : s'.Fits := by
  obtain ⟨cache, now⟩ := s
  obtain ⟨c, rfl⟩ := hs
  cases act with
  | get jti =>
    obtain rfl := Option.some.inj h
    exact ⟨(c.get now jti).2, congrArg Prod.snd (CacheFields.of_get c now jti)⟩
  | put jti userId g =>
    obtain rfl := Option.some.inj h
    exact ⟨(c.put now jti userId g).2, congrArg Prod.snd (CacheFields.of_put c now jti userId g)⟩
  | noteRevocation userId g eventId =>
    obtain rfl := Option.some.inj h
    exact ⟨(c.noteRevocation userId g eventId).2,
      congrArg Prod.snd (CacheFields.of_noteRevocation c userId g eventId)⟩
  | evictJti jti =>
    obtain rfl := Option.some.inj h
    exact ⟨c.evictJti jti, CacheFields.of_evictJti c jti⟩
  | evictUser userId =>
    obtain rfl := Option.some.inj h
    exact ⟨c.evictUser userId, CacheFields.of_evictUser c userId⟩
  | evictUserBelow userId g =>
    obtain rfl := Option.some.inj h
    exact ⟨c.evictUserBelow userId g, CacheFields.of_evictUserBelow c userId g⟩
  | flushAll =>
    obtain rfl := Option.some.inj h
    exact ⟨c.flushAll, CacheFields.of_flushAll c⟩
  | wait seconds =>
    obtain ⟨-, rfl⟩ := step_wait_iff.mp h
    exact ⟨c, rfl⟩

theorem fits_of_run {ttl : ℤ} {now : ℚ} {past : List (FieldState × CacheAct)}
    (run : Run step ⟨.init ttl, now⟩ past s) : s.Fits :=
  run.invariant (fun _ _ _ hs h => fits_step hs h) ⟨.init ttl, CacheFields.of_init ttl⟩

/-- `note_revocation` leaves its user at the higher of the two watermarks. -/
theorem noteRevocation_self (hs : s.Fits) (user : String) (g : ℤ) (eventId : Option String) :
    (s.cache.noteRevocation user g eventId).2.watermarks.get? user =
      some ((s.cache.watermarks.get? user).elim g fun previous => max previous g) := by
  obtain ⟨c, hc⟩ := hs
  rw [hc, CacheFields.of_noteRevocation]
  show (c.noteRevocation user g eventId).2.watermarks.get? user =
    some ((c.watermarks.get? user).elim g fun previous => max previous g)
  rcases JtiRevocationCache.noteRevocation_cases c user g eventId with
    ⟨w, hw, hlt, h⟩ | ⟨hw, -, h⟩ | ⟨hw, -, h⟩ | ⟨hw, id, -, -, h⟩ | ⟨hadv, h⟩
  · rw [h, hw, Option.elim_some, max_eq_left hlt.le]
  · rw [h, hw, Option.elim_some, max_self]
  · rw [h, hw, Option.elim_some, max_self]
  · rw [h]
    show c.watermarks.get? user = _
    rw [hw, Option.elim_some, max_self]
  · rw [h, JtiRevocationCache.advance_watermark_self]
    cases hw : c.watermarks.get? user with
    | none => rfl
    | some w => rw [Option.elim_some, max_eq_right (hadv w hw).le]

/-- `note_revocation` leaves every other user's watermark alone, except that it may drop the
user that was tracked first. -/
theorem noteRevocation_other (hs : s.Fits) {other : String} {g : ℤ} {eventId : Option String}
    (hne : other ≠ user) :
    (s.cache.noteRevocation user g eventId).2.watermarks.get? other =
        s.cache.watermarks.get? other ∨
      (s.cache.noteRevocation user g eventId).2.watermarks.get? other = none ∧
        s.users.head? = some other := by
  obtain ⟨cache, now⟩ := s
  obtain ⟨c, rfl⟩ := hs
  rw [CacheFields.of_noteRevocation]
  have hrecord := congrArg Prod.fst
    (JtiRevocationCache.noteRevocation_record c g eventId hne)
  split at hrecord
  next hdisp =>
    refine .inr ⟨hrecord, ?_⟩
    unfold JtiRevocationCache.displaced at hdisp
    split at hdisp
    · exact hdisp
    · contradiction
  next => exact .inl hrecord

/-- A call only drops tracked users, and appends at most one new user. -/
theorem step_users (hs : s.Fits) (h : s.step act = some s') :
    s'.users.Sublist s.users ∨ ∃ user, user ∉ s.users ∧ s'.users.Sublist (s.users ++ [user]) := by
  rcases step_maps h with ⟨hwm, -⟩ | ⟨userId, g, eventId, -, rfl⟩
  · refine .inl ?_
    unfold users
    rw [hwm]
  obtain ⟨cache, now⟩ := s
  obtain ⟨c, rfl⟩ := hs
  unfold users
  rw [CacheFields.of_noteRevocation]
  show (c.noteRevocation userId g eventId).2.watermarks.keys.Sublist c.watermarks.keys ∨
    ∃ user, user ∉ c.watermarks.keys ∧
      (c.noteRevocation userId g eventId).2.watermarks.keys.Sublist (c.watermarks.keys ++ [user])
  rcases JtiRevocationCache.noteRevocation_cases c userId g eventId with
    ⟨w, -, -, h⟩ | ⟨-, -, h⟩ | ⟨-, -, h⟩ | ⟨hw, id, -, -, h⟩ | ⟨-, h⟩
  · rw [h]
    exact .inl (List.Sublist.refl _)
  · rw [h]
    exact .inl (List.Sublist.refl _)
  · rw [h]
    exact .inl (List.Sublist.refl _)
  · rw [h]
    exact .inl (List.Sublist.refl _)
  · rw [h]
    rcases JtiRevocationCache.advance_cases c userId g eventId with
      ⟨hwm, -⟩ | ⟨oldest, -, -, hnew, -, hwm, -⟩
    · rw [hwm, OrderedDict.keys_set]
      split
      next => exact .inl (List.Sublist.refl _)
      next hnew => exact .inr ⟨userId, hnew, List.Sublist.refl _⟩
    · rw [hwm, OrderedDict.keys_erase, OrderedDict.keys_set, if_neg hnew]
      exact .inr ⟨userId, hnew, List.filter_sublist⟩

/-- The first of the tracked users is the one that has been tracked longest. -/
theorem trackedLongest_of_head {ttl : ℤ} {now : ℚ} {past : List (FieldState × CacheAct)}
    (run : Run step ⟨.init ttl, now⟩ past s) (h : s.users.head? = some user) :
    s.TrackedLongest past user := by
  have hpair := Run.pairwise_tenure users (I := Fits)
    (fun _ _ _ hs h => fits_step hs h) (fun _ _ _ hs h => step_users hs h) run
    ⟨.init ttl, CacheFields.of_init ttl⟩ rfl
  obtain ⟨rest, hrest⟩ := List.head?_eq_some_iff.mp h
  rw [hrest, List.pairwise_cons] at hpair
  unfold TrackedLongest
  rw [hrest]
  refine ⟨List.mem_cons_self, ?_⟩
  intro other hother hne
  rcases List.mem_cons.mp hother with heq | hmem
  · exact absurd heq hne
  · exact hpair.1 other hmem

/-- A call that leaves a user tracked does not lower the watermark. -/
theorem step_watermark (hs : s.Fits) (h : s.step act = some s') {w : ℤ}
    (hw : s.cache.watermarks.get? user = some w) (htracked : user ∈ s'.users) :
    ∃ w', s'.cache.watermarks.get? user = some w' ∧ w ≤ w' := by
  rcases step_maps h with ⟨hwm, -⟩ | ⟨userId, g, eventId, -, rfl⟩
  · exact ⟨w, by rw [hwm, hw], le_rfl⟩
  by_cases hne : user = userId
  · subst hne
    have hself := noteRevocation_self hs user g eventId
    rw [hw, Option.elim_some] at hself
    exact ⟨max w g, hself, le_max_left w g⟩
  · rcases noteRevocation_other hs hne with hkept | ⟨hnone, -⟩
    · exact ⟨w, by rw [hkept, hw], le_rfl⟩
    · exact absurd htracked (OrderedDict.get?_eq_none_iff.mp hnone)

/-- Over a stretch of calls throughout which a user is tracked, the watermark only rises. -/
theorem run_watermark {t : FieldState} {newer : List (FieldState × CacheAct)} {w : ℤ}
    (hs : s.Fits) (run : Run step s newer t) (hnewer : ∀ e ∈ newer, user ∈ e.1.users)
    (htracked : user ∈ t.users) (hw : s.cache.watermarks.get? user = some w) :
    ∃ w', t.cache.watermarks.get? user = some w' ∧ w ≤ w' := by
  induction run with
  | start => exact ⟨w, hw, le_rfl⟩
  | @next newer m l t run h ih =>
    obtain ⟨hm, hrest⟩ := List.forall_mem_cons.mp hnewer
    obtain ⟨w₁, hw₁, hle₁⟩ := ih hrest hm
    have hfits : m.Fits := run.invariant (fun _ _ _ hs h => fits_step hs h) hs
    obtain ⟨w₂, hw₂, hle₂⟩ := step_watermark hfits h hw₁ htracked
    exact ⟨w₂, hw₂, hle₁.trans hle₂⟩

/-- `put` stores nothing below the watermark of its user. -/
theorem step_put_below {jti : String} {g w : ℤ} (hw : s.cache.watermarks.get? user = some w)
    (h : g < w) : s.step (.put jti user g) = some s := by
  have hput : s.cache.put s.now jti user g = (.ok (), s.cache) := by
    unfold CacheFields.put
    rw [hw, Option.getD_some, if_pos h]
  simp only [step, hput]

/-- An entry that a call stores is not below the watermark of its owner. -/
theorem step_stores (h : s.step act = some s') {jti : String} {e : CacheEntry} {w : ℤ}
    (hw : s.cache.watermarks.get? e.userId = some w) (he : s'.cache.store.get? jti = some e) :
    s.cache.store.get? jti = some e ∨ w ≤ e.authGeneration := by
  rcases step_store h with ⟨p, hstore⟩ | ⟨target, userId, g, -, hle, -, hstore⟩
  · rw [hstore, OrderedDict.get?_filter_eq_some] at he
    exact .inl he.1
  · rw [hstore, OrderedDict.get?_set] at he
    split at he
    · obtain rfl := Option.some.inj he
      rw [hw, Option.getD_some, not_lt] at hle
      exact .inr hle
    · exact .inl he

/-- Whatever is called on a cache, the watermark map and the dedup map track the same users,
within the ceiling; `note_revocation` tracks its user at the higher watermark, changes no other
watermark and drops at most the user tracked longest; nothing else changes the two maps; and
while a user stays tracked the watermark does not fall and no entry is stored below it. -/
theorem maps_consistent {ttl : ℤ} {now : ℚ} {past : List (FieldState × CacheAct)}
    (run : Run step ⟨.init ttl, now⟩ past s) :
    (s.cache.appliedEventIds.keys = s.cache.watermarks.keys ∧
      s.cache.watermarks.size ≤ maxTrackedWatermarks) ∧
    (∀ userId g eventId s', s.step (.noteRevocation userId g eventId) = some s' →
      s'.cache.watermarks.get? userId =
          some ((s.cache.watermarks.get? userId).elim g fun previous => max previous g) ∧
        ∀ other, other ≠ userId →
          s'.cache.watermarks.get? other = s.cache.watermarks.get? other ∨
            s'.cache.watermarks.get? other = none ∧ s.TrackedLongest past other) ∧
    (∀ act s', s.step act = some s' → (∀ userId g eventId, act ≠ .noteRevocation userId g eventId) →
      s'.cache.watermarks = s.cache.watermarks ∧
        s'.cache.appliedEventIds = s.cache.appliedEventIds) ∧
    ∀ newer t user w, Run step s newer t → (∀ e ∈ newer, user ∈ e.1.users) → user ∈ t.users →
      s.cache.watermarks.get? user = some w →
      ∃ w', t.cache.watermarks.get? user = some w' ∧ w ≤ w' ∧
        (∀ jti g, g < w' → t.step (.put jti user g) = some t) ∧
        ∀ act t' jti e, t.step act = some t' → t'.cache.store.get? jti = some e →
          e.userId = user → t.cache.store.get? jti = some e ∨ w' ≤ e.authGeneration := by
  have hfits := fits_of_run run
  refine ⟨?_, ?_, ?_, ?_⟩
  · obtain ⟨c, hc⟩ := hfits
    rw [hc]
    exact ⟨c.sameUsers, c.bounded⟩
  · intro userId g eventId s' hstep
    obtain rfl := Option.some.inj hstep
    refine ⟨noteRevocation_self hfits userId g eventId, ?_⟩
    intro other hne
    rcases noteRevocation_other hfits hne with hkept | ⟨hnone, hhead⟩
    · exact .inl hkept
    · exact .inr ⟨hnone, trackedLongest_of_head run hhead⟩
  · intro act s' hstep hother
    rcases step_maps hstep with hkept | ⟨userId, g, eventId, hact, -⟩
    · exact hkept
    · exact absurd hact (hother userId g eventId)
  · intro newer t user w hrun hnewer htracked hw
    obtain ⟨w', hw', hle⟩ := run_watermark hfits hrun hnewer htracked hw
    refine ⟨w', hw', hle, fun jti g hlt => step_put_below hw' hlt, ?_⟩
    rintro act t' jti e hstep he rfl
    exact step_stores hstep hw' he

/-- A revocation of a new user, and what a later one at a lower generation finds. -/
theorem maps_consistent_stale : ∃ past s, Run step ⟨.init 30, 0⟩ past s ∧
    s.cache.watermarks.get? "user-a" = some 2 ∧
    s.cache.appliedEventIds.keys = s.cache.watermarks.keys ∧
    ∃ s', s.step (.noteRevocation "user-a" 1 none) = some s' ∧
      s'.cache.watermarks.get? "user-a" = some 2 := by
  have hstep : step ⟨.init 30, 0⟩ (.noteRevocation "user-a" 2 none) = some _ := rfl
  have hrun := Run.start.next hstep
  obtain ⟨⟨hsame, -⟩, hnote, -⟩ := maps_consistent hrun
  exact ⟨_, _, hrun, by decide, hsame, _, rfl, (hnote "user-a" 1 none _ rfl).1⟩

end FieldState

end FastapiM8
