import FastapiM8.Lib.OrderedDict
import FastapiM8.Python
import Mathlib.Data.Finset.Insert

/-! The positive validation cache of the revocation client: entries keyed by JTI and tagged
with an authorization generation, and per user the watermark of applied revocations. -/
namespace FastapiM8

/-- Ceiling on users tracked in the revocation watermark map. -/
def maxTrackedWatermarks : ℕ := 10000

/-- A cached `active=True` result. -/
structure CacheEntry where
  expiresAt : ℚ
  userId : String
  authGeneration : ℤ
  deriving DecidableEq

/-- Drop the oldest-tracked user once the watermark map is full. The fuel is the size of
the map, which every round of the loop lowers. -/
def trimLoop : ℕ → OrderedDict String ℤ → OrderedDict String (Finset String) →
    OrderedDict String ℤ × OrderedDict String (Finset String)
  | 0, watermarks, applied => (watermarks, applied)
  | fuel + 1, watermarks, applied =>
    if maxTrackedWatermarks < watermarks.size then
      match watermarks.first? with
      | some oldest => trimLoop fuel (watermarks.erase oldest) (applied.erase oldest)
      | none => (watermarks, applied)
    else (watermarks, applied)

def trimWatermarks (watermarks : OrderedDict String ℤ)
    (applied : OrderedDict String (Finset String)) :
    OrderedDict String ℤ × OrderedDict String (Finset String) :=
  trimLoop watermarks.size watermarks applied

private theorem trimLoop_keys (fuel : ℕ) {watermarks : OrderedDict String ℤ}
    {applied : OrderedDict String (Finset String)} (h : applied.keys = watermarks.keys) :
    (trimLoop fuel watermarks applied).2.keys = (trimLoop fuel watermarks applied).1.keys := by
  induction fuel generalizing watermarks applied with
  | zero => exact h
  | succ fuel ih =>
    rw [trimLoop]
    split
    · split
      · apply ih
        rw [OrderedDict.keys_erase, OrderedDict.keys_erase, h]
      · exact h
    · exact h

private theorem trimLoop_size (fuel : ℕ) {watermarks : OrderedDict String ℤ}
    {applied : OrderedDict String (Finset String)} (h : watermarks.size ≤ fuel) :
    (trimLoop fuel watermarks applied).1.size ≤ maxTrackedWatermarks := by
  induction fuel generalizing watermarks applied with
  | zero => exact h.trans (Nat.zero_le _)
  | succ fuel ih =>
    rw [trimLoop]
    split
    next hfull =>
      split
      next oldest hfirst =>
        apply ih
        have := OrderedDict.size_erase_add_one (OrderedDict.first?_mem hfirst)
        omega
      next hnone =>
        rw [OrderedDict.first?, List.head?_eq_none_iff] at hnone
        rw [← OrderedDict.length_keys, hnone]
        exact Nat.zero_le _
    next hfit => exact Nat.le_of_not_lt hfit

theorem trimWatermarks_keys {watermarks : OrderedDict String ℤ}
    {applied : OrderedDict String (Finset String)} (h : applied.keys = watermarks.keys) :
    (trimWatermarks watermarks applied).2.keys = (trimWatermarks watermarks applied).1.keys :=
  trimLoop_keys _ h

theorem trimWatermarks_size (watermarks : OrderedDict String ℤ)
    (applied : OrderedDict String (Finset String)) :
    (trimWatermarks watermarks applied).1.size ≤ maxTrackedWatermarks :=
  trimLoop_size _ le_rfl

private theorem trimLoop_of_le (fuel : ℕ) {watermarks : OrderedDict String ℤ}
    (applied : OrderedDict String (Finset String)) (h : watermarks.size ≤ maxTrackedWatermarks) :
    trimLoop fuel watermarks applied = (watermarks, applied) := by
  cases fuel with
  | zero => rfl
  | succ fuel => rw [trimLoop, if_neg (Nat.not_lt.mpr h)]

private theorem trimLoop_fst (fuel : ℕ) (watermarks : OrderedDict String ℤ)
    (applied applied' : OrderedDict String (Finset String)) :
    (trimLoop fuel watermarks applied).1 = (trimLoop fuel watermarks applied').1 := by
  induction fuel generalizing watermarks applied applied' with
  | zero => rfl
  | succ fuel ih =>
    rw [trimLoop, trimLoop]
    split
    · split
      · apply ih
      · rfl
    · rfl

/-- Which users are dropped depends on the watermark map alone. -/
theorem trimWatermarks_fst (watermarks : OrderedDict String ℤ)
    (applied applied' : OrderedDict String (Finset String)) :
    (trimWatermarks watermarks applied).1 = (trimWatermarks watermarks applied').1 :=
  trimLoop_fst _ watermarks applied applied'

private theorem trimLoop_map (fuel : ℕ) (watermarks : OrderedDict String ℤ)
    (applied : OrderedDict String (Finset String)) (f : Finset String → Finset String) :
    (trimLoop fuel watermarks (applied.map fun _ => f)).2 =
      (trimLoop fuel watermarks applied).2.map fun _ => f := by
  induction fuel generalizing watermarks applied with
  | zero => rfl
  | succ fuel ih =>
    rw [trimLoop, trimLoop]
    split
    · split
      · rw [OrderedDict.erase_map, ih]
      · rfl
    · rfl

/-- What the dedup sets hold has no part in the trimming. -/
theorem trimWatermarks_map (watermarks : OrderedDict String ℤ)
    (applied : OrderedDict String (Finset String)) (f : Finset String → Finset String) :
    (trimWatermarks watermarks (applied.map fun _ => f)).2 =
      (trimWatermarks watermarks applied).2.map fun _ => f :=
  trimLoop_map _ watermarks applied f

theorem trimWatermarks_of_le {watermarks : OrderedDict String ℤ}
    (applied : OrderedDict String (Finset String)) (h : watermarks.size ≤ maxTrackedWatermarks) :
    trimWatermarks watermarks applied = (watermarks, applied) := trimLoop_of_le _ applied h

/-- A map one user over the ceiling loses exactly its oldest user. -/
theorem trimWatermarks_of_full {watermarks : OrderedDict String ℤ}
    (applied : OrderedDict String (Finset String)) {oldest : String}
    (h : watermarks.size = maxTrackedWatermarks + 1) (hfirst : watermarks.first? = some oldest) :
    trimWatermarks watermarks applied = (watermarks.erase oldest, applied.erase oldest) := by
  have hone := OrderedDict.size_erase_add_one (OrderedDict.first?_mem hfirst)
  rw [trimWatermarks, h, trimLoop, if_pos (by omega), hfirst]
  exact trimLoop_of_le _ _ (by omega)

/-- The cache. The two maps of the watermark rule track the same users in the same order,
and never more of them than the ceiling. -/
@[ext] structure JtiRevocationCache where
  ttl : ℤ
  store : OrderedDict String CacheEntry
  watermarks : OrderedDict String ℤ
  appliedEventIds : OrderedDict String (Finset String)
  sameUsers : appliedEventIds.keys = watermarks.keys
  bounded : watermarks.size ≤ maxTrackedWatermarks

namespace JtiRevocationCache

/-- `JtiRevocationCache(ttl_seconds)`. -/
def init (ttlSeconds : ℤ) : JtiRevocationCache where
  ttl := ttlSeconds
  store := .empty
  watermarks := .empty
  appliedEventIds := .empty
  sameUsers := rfl
  bounded := Nat.zero_le _

/-- Return `False` (not revoked) on a live hit; `None` on miss or expiry, dropping an
expired entry. -/
def get (c : JtiRevocationCache) (now : ℚ) (jti : String) : Option Bool × JtiRevocationCache :=
  match c.store.get? jti with
  | none => (none, c)
  | some entry =>
    if entry.expiresAt ≤ now then (none, { c with store := c.store.erase jti })
    else (some false, c)

/-- `self._watermarks.get(user_id, 0)`. -/
def watermark (c : JtiRevocationCache) (userId : String) : ℤ := (c.watermarks.get? userId).getD 0

/-- Cache a JTI as active, unless its generation is superseded. The settings accept a time to live
whose end is no float; nothing is stored then, and the `OverflowError` leaves the method. -/
def put (c : JtiRevocationCache) (now : ℚ) (jti userId : String) (authGeneration : ℤ) :
    Except PyExc Unit × JtiRevocationCache :=
  if authGeneration < c.watermark userId then (.ok (), c)
  else match addSeconds now c.ttl with
    | .error exc => (.error exc, c)
    | .ok expiresAt =>
      (.ok (), { c with store := c.store.set jti ⟨expiresAt, userId, authGeneration⟩ })

theorem put_of_lt {c : JtiRevocationCache} {userId : String} {g : ℤ} (h : g < c.watermark userId)
    (now : ℚ) (jti : String) : c.put now jti userId g = (.ok (), c) := if_pos h

theorem put_of_overflow {c : JtiRevocationCache} {userId : String} {g : ℤ}
    (h : c.watermark userId ≤ g) (hlimit : floatLimit ≤ c.ttl) (now : ℚ) (jti : String) :
    c.put now jti userId g = (.error .overflowError, c) := by
  rw [put, if_neg (not_lt.mpr h), addSeconds_of_le hlimit]

theorem put_of_le {c : JtiRevocationCache} {userId : String} {g : ℤ} (h : c.watermark userId ≤ g)
    (hfits : c.ttl < floatLimit) (now : ℚ) (jti : String) :
    c.put now jti userId g =
      (.ok (), { c with store := c.store.set jti ⟨now + c.ttl, userId, g⟩ }) := by
  rw [put, if_neg (not_lt.mpr h), addSeconds_of_lt hfits]

/-- Whether `put` raises does not depend on the store. -/
theorem put_fst (c : JtiRevocationCache) (now : ℚ) (jti userId : String) (g : ℤ) :
    (c.put now jti userId g).1 =
      if g < c.watermark userId ∨ c.ttl < floatLimit then .ok () else .error .overflowError := by
  rcases lt_or_ge g (c.watermark userId) with hlt | hle
  · rw [put_of_lt hlt, if_pos (.inl hlt)]
  rcases lt_or_ge c.ttl floatLimit with hfits | hlimit
  · rw [put_of_le hle hfits, if_pos (.inr hfits)]
  · rw [put_of_overflow hle hlimit, if_neg (by omega)]

/-- `put` returns, or raises and leaves the cache as it is. -/
theorem put_cases (c : JtiRevocationCache) (now : ℚ) (jti userId : String) (g : ℤ) :
    (g < c.watermark userId ∧ c.put now jti userId g = (.ok (), c)) ∨
    (floatLimit ≤ c.ttl ∧ c.put now jti userId g = (.error .overflowError, c)) ∨
    (c.watermark userId ≤ g ∧ c.ttl < floatLimit ∧ c.put now jti userId g =
      (.ok (), { c with store := c.store.set jti ⟨now + c.ttl, userId, g⟩ })) := by
  rcases lt_or_ge g (c.watermark userId) with hlt | hle
  · exact .inl ⟨hlt, put_of_lt hlt now jti⟩
  rcases lt_or_ge c.ttl floatLimit with hfits | hlimit
  · exact .inr (.inr ⟨hle, hfits, put_of_le hle hfits now jti⟩)
  · exact .inr (.inl ⟨hlimit, put_of_overflow hle hlimit now jti⟩)

/-- Whether a generation predates an applied revocation. -/
def isSuperseded (c : JtiRevocationCache) (userId : String) (authGeneration : ℤ) : Bool :=
  authGeneration < c.watermark userId

/-- The dedup set that `{event_id} if event_id else set()` starts a generation with: an
empty id counts as a missing one here. -/
def firstEventIds : Option String → Finset String
  | none => ∅
  | some eventId => if eventId = "" then ∅ else {eventId}

/-- Track a user at a new watermark, forgetting the previous generation's dedup ids. -/
def advance (c : JtiRevocationCache) (userId : String) (authGeneration : ℤ)
    (eventId : Option String) : JtiRevocationCache :=
  let trimmed := trimWatermarks (c.watermarks.set userId authGeneration)
    (c.appliedEventIds.set userId (firstEventIds eventId))
  { c with
    watermarks := trimmed.1
    appliedEventIds := trimmed.2
    sameUsers := trimWatermarks_keys (by
      rw [OrderedDict.keys_set, OrderedDict.keys_set, c.sameUsers])
    bounded := trimWatermarks_size _ _ }

/-- The dedup ids applied at the current watermark. By `sameUsers` a tracked user always has
a set, so `setdefault` inserts nothing. -/
def appliedIds (c : JtiRevocationCache) (userId : String) : Finset String :=
  (c.appliedEventIds.get? userId).getD ∅

/-- `applied.add(event_id)` for a tracked user. -/
def recordEventId (c : JtiRevocationCache) (userId : String) (eventId : String)
    (h : userId ∈ c.watermarks.keys) : JtiRevocationCache :=
  { c with
    appliedEventIds := c.appliedEventIds.set userId (insert eventId (c.appliedIds userId))
    sameUsers := by rw [OrderedDict.keys_set, c.sameUsers, if_pos h] }

/-- Apply the watermark rule to one v2 revocation, returning whether to act. -/
def noteRevocation (c : JtiRevocationCache) (userId : String) (authGeneration : ℤ)
    (eventId : Option String) : Bool × JtiRevocationCache :=
  match hw : c.watermarks.get? userId with
  | none => (true, c.advance userId authGeneration eventId)
  | some watermark =>
    if authGeneration < watermark then (false, c)
    else if authGeneration = watermark then
      match eventId with
      | none => (true, c)
      | some id =>
        if id ∈ c.appliedIds userId then (false, c)
        else (true, c.recordEventId userId id (OrderedDict.mem_keys_iff.mpr ⟨watermark, hw⟩))
    else (true, c.advance userId authGeneration eventId)

def evictJti (c : JtiRevocationCache) (jti : String) : JtiRevocationCache :=
  { c with store := c.store.erase jti }

/-- Remove a user's entries older than a generation (all when `None`). -/
def evictUserBelow (c : JtiRevocationCache) (userId : String) (authGeneration : Option ℤ) :
    JtiRevocationCache :=
  { c with
    store := c.store.filter fun _ entry =>
      !(entry.userId = userId && (match authGeneration with
        | none => true
        | some generation => entry.authGeneration < generation)) }

def evictUser (c : JtiRevocationCache) (userId : String) : JtiRevocationCache :=
  c.evictUserBelow userId none

/-- Clear every cached entry; the watermarks survive. -/
def flushAll (c : JtiRevocationCache) : JtiRevocationCache := { c with store := .empty }

end JtiRevocationCache

end FastapiM8
