import FastapiM8.Revocation.Maps
import Mathlib.Data.Finset.Card

/-! The size of the positive store. A limited rate of new sessions limits the entries that are
live, but an expired entry leaves the store only when its own session is looked up again. -/
namespace FastapiM8

namespace FieldState

variable {s s' : FieldState} {act : CacheAct} {past : List (FieldState × CacheAct)}

/-- The jtis put during the `ttl` seconds up to and including the moment `t + ttl`. -/
def putJtis (ttl : ℤ) (past : List (FieldState × CacheAct)) (t : ℚ) : Finset String :=
  (past.filterMap fun e => match e.2 with
    | .put jti _ _ => if t < e.1.now ∧ e.1.now ≤ t + ttl then some jti else none
    | _ => none).toFinset

/-- The number of entries that have expired and are still stored. -/
def expired (s : FieldState) : ℕ := (s.cache.store.filter fun _ e => e.expiresAt ≤ s.now).size

/-- The call stores an entry under a jti that the store does not hold. -/
def Adds (s : FieldState) : CacheAct → Prop
  | .put jti userId g =>
    jti ∉ s.cache.store.keys ∧ ¬ g < (s.cache.watermarks.get? userId).getD 0 ∧
      s.cache.ttl < floatLimit
  | _ => False

theorem mem_putJtis {ttl : ℤ} {t : ℚ} {jti : String} :
    jti ∈ putJtis ttl past t ↔ ∃ s userId g, (s, CacheAct.put jti userId g) ∈ past ∧
      t < s.now ∧ s.now ≤ t + ttl := by
  unfold putJtis
  rw [List.mem_toFinset, List.mem_filterMap]
  constructor
  · rintro ⟨⟨s, act⟩, hmem, heq⟩
    cases act with
    | put target userId g =>
      dsimp only at heq
      split at heq
      next hin =>
        obtain rfl := Option.some.inj heq
        exact ⟨s, userId, g, hmem, hin⟩
      next => contradiction
    | _ => contradiction
  · rintro ⟨s, userId, g, hmem, hin⟩
    exact ⟨_, hmem, if_pos hin⟩

theorem putJtis_mono {ttl : ℤ} {older : List (FieldState × CacheAct)} (h : older ⊆ past) (t : ℚ) :
    putJtis ttl older t ⊆ putJtis ttl past t := by
  intro jti hjti
  obtain ⟨s, userId, g, hmem, hin⟩ := mem_putJtis.mp hjti
  exact mem_putJtis.mpr ⟨s, userId, g, h hmem, hin⟩

/-- The store grows by a call that adds a jti, and by no other. -/
theorem step_size (h : s.step act = some s') :
    s'.cache.store.size ≤ s.cache.store.size ∨
      s.Adds act ∧ s'.cache.store.size = s.cache.store.size + 1 := by
  rcases step_store h with ⟨p, hstore⟩ | ⟨jti, userId, g, rfl, hle, hfits, hstore⟩
  · rw [hstore]
    exact .inl (OrderedDict.size_filter_le _ p)
  · rw [hstore, OrderedDict.size_set]
    split
    next => exact .inl le_rfl
    next hnew => exact .inr ⟨⟨hnew, hle, hfits⟩, rfl⟩

theorem ttl_of_run {ttl : ℤ} {now : ℚ} (run : Run step ⟨.init ttl, now⟩ past s) :
    s.cache.ttl = ttl :=
  run.invariant (I := fun s => s.cache.ttl = ttl) (fun _ _ _ hs h => (step_rest h).1.trans hs) rfl

/-- An entry was stored by a put of its jti, one time to live before it expires. -/
theorem stored_by_put {ttl : ℤ} {now : ℚ} (run : Run step ⟨.init ttl, now⟩ past s) {jti : String}
    {e : CacheEntry} (he : s.cache.store.get? jti = some e) :
    ∃ m userId g, (m, CacheAct.put jti userId g) ∈ past ∧ e.expiresAt = m.now + ttl ∧
      m.now ≤ s.now := by
  induction run with
  | start => simp [CacheFields.init] at he
  | @next past s act s' run h ih =>
    have hnow := (step_rest h).2
    have hold : s.cache.store.get? jti = some e → ∃ m userId g,
        (m, CacheAct.put jti userId g) ∈ (s, act) :: past ∧ e.expiresAt = m.now + ttl ∧
          m.now ≤ s'.now := by
      intro he
      obtain ⟨m, userId, g, hmem, hexp, hle⟩ := ih he
      exact ⟨m, userId, g, List.mem_cons_of_mem _ hmem, hexp, hle.trans hnow⟩
    rcases step_store h with ⟨p, hstore⟩ | ⟨target, userId, g, rfl, -, -, hstore⟩
    · rw [hstore, OrderedDict.get?_filter_eq_some] at he
      exact hold he.1
    · rw [hstore, OrderedDict.get?_set] at he
      split at he
      next heq =>
        obtain rfl := Option.some.inj he
        rw [heq, ttl_of_run run]
        exact ⟨s, userId, g, List.mem_cons_self, rfl, hnow⟩
      next => exact hold he

/-- The jtis of the live entries were put during the last time to live. -/
theorem live_subset {ttl : ℤ} {now : ℚ} (run : Run step ⟨.init ttl, now⟩ past s) :
    (s.cache.store.filter fun _ e => !(e.expiresAt ≤ s.now : Bool)).keys.toFinset ⊆
      putJtis ttl past (s.now - ttl) := by
  intro jti hjti
  rw [List.mem_toFinset, OrderedDict.mem_keys_iff] at hjti
  obtain ⟨e, he⟩ := hjti
  rw [OrderedDict.get?_filter_eq_some] at he
  obtain ⟨he, hlive⟩ := he
  obtain ⟨m, userId, g, hmem, hexp, hle⟩ := stored_by_put run he
  have hlive : s.now < m.now + ttl := by simpa [hexp] using hlive
  exact mem_putJtis.mpr ⟨m, userId, g, hmem, by linarith, by linarith⟩

/-- At a call that adds a jti, the live entries and the new one are within the limit. -/
theorem live_add_one_le {ttl : ℤ} {now : ℚ} {k : ℕ} (httl : 0 < ttl)
    (run : Run step ⟨.init ttl, now⟩ past s) (hadds : s.Adds act)
    (hlimit : (putJtis ttl ((s, act) :: past) (s.now - ttl)).card ≤ k) :
    (s.cache.store.filter fun _ e => !(e.expiresAt ≤ s.now : Bool)).size + 1 ≤ k := by
  cases act with
  | put jti userId g =>
    have hpos : (0 : ℚ) < ttl := Int.cast_pos.mpr httl
    have hold := (live_subset run).trans
      (putJtis_mono (List.subset_cons_self (s, .put jti userId g) past) _)
    have hnew : jti ∈ putJtis ttl ((s, .put jti userId g) :: past) (s.now - ttl) :=
      mem_putJtis.mpr ⟨s, userId, g, List.mem_cons_self, by linarith, by linarith⟩
    have hfresh : jti ∉
        (s.cache.store.filter fun _ e => !(e.expiresAt ≤ s.now : Bool)).keys.toFinset := by
      intro hmem
      rw [List.mem_toFinset, OrderedDict.mem_keys_iff] at hmem
      obtain ⟨e, he⟩ := hmem
      rw [OrderedDict.get?_filter_eq_some] at he
      exact hadds.1 (OrderedDict.mem_keys_iff.mpr ⟨e, he.1⟩)
    have hcard := Finset.card_le_card (Finset.insert_subset hnew hold)
    rw [Finset.card_insert_of_notMem hfresh, OrderedDict.card_keys] at hcard
    exact hcard.trans hlimit
  | _ => exact hadds.elim

/-- A run in which calls that add a jti find at most `m` expired entries stays within the limit
and these. -/
theorem size_le {ttl : ℤ} {now : ℚ} {k m : ℕ} (httl : 0 < ttl)
    (run : Run step ⟨.init ttl, now⟩ past s) (hlimit : ∀ t, (putJtis ttl past t).card ≤ k)
    (hexpired : ∀ e ∈ past, e.1.Adds e.2 → e.1.expired ≤ m) : s.cache.store.size ≤ k + m := by
  induction run with
  | start => exact Nat.zero_le _
  | @next past s act s' run h ih =>
    have hlimit' : ∀ t, (putJtis ttl past t).card ≤ k := fun t =>
      (Finset.card_le_card (putJtis_mono (List.subset_cons_self _ past) t)).trans (hlimit t)
    have hold := ih hlimit' fun e he => hexpired e (List.mem_cons_of_mem _ he)
    rcases step_size h with hle | ⟨hadds, heq⟩
    · exact hle.trans hold
    · have hlive := live_add_one_le httl run hadds (hlimit _)
      have hexp : s.expired ≤ m := hexpired (s, act) List.mem_cons_self hadds
      have hsplit := OrderedDict.size_filter_add s.cache.store fun _ e => e.expiresAt ≤ s.now
      unfold expired at hexp
      omega

end FieldState

/-- A run of a cache in which at most `k` distinct jtis are put during any `ttl` seconds. -/
structure LimitedRun (k : ℕ) where
  ttl : ℤ
  now : ℚ
  past : List (FieldState × CacheAct)
  state : FieldState
  ttl_pos : 0 < ttl
  run : Run FieldState.step ⟨.init ttl, now⟩ past state
  limited : ∀ t, (FieldState.putJtis ttl past t).card ≤ k

namespace LimitedRun

variable {k : ℕ}

/-- The store holds at most `b` entries in every state of the run. -/
def Within (r : LimitedRun k) (b : ℕ) : Prop :=
  (∀ e ∈ r.past, e.1.cache.store.size ≤ b) ∧ r.state.cache.store.size ≤ b

/-- Every put that adds a jti finds at most `m` expired entries in the store. -/
def FindsExpired (r : LimitedRun k) (m : ℕ) : Prop :=
  ∀ e ∈ r.past, e.1.Adds e.2 → e.1.expired ≤ m

theorem FindsExpired.within {r : LimitedRun k} {m : ℕ} (h : r.FindsExpired m) :
    r.Within (k + m) := by
  refine ⟨?_, FieldState.size_le r.ttl_pos r.run r.limited h⟩
  intro e he
  obtain ⟨newer, older, hpast⟩ := List.append_of_mem he
  obtain ⟨s, act⟩ := e
  have hrun := r.run
  rw [hpast] at hrun
  have holder : older ⊆ r.past := by
    rw [hpast]
    exact List.subset_append_of_subset_right _ (List.subset_cons_self _ _)
  apply FieldState.size_le r.ttl_pos hrun.split_cons.1
  · intro t
    exact (Finset.card_le_card (FieldState.putJtis_mono holder t)).trans (r.limited t)
  · exact fun e he => h e (holder he)

theorem Within.findsExpired {r : LimitedRun k} {b : ℕ} (h : r.Within b) : r.FindsExpired b :=
  fun e he _ => (OrderedDict.size_filter_le _ _).trans (h.1 e he)

/-- In a class of runs the size of the store has a bound that depends on the limit of puts
alone, just when the expired entries found by the puts of new jtis have such a bound. -/
theorem bounded_iff_expired_bounded (runs : ∀ k, Set (LimitedRun k)) :
    (∃ B : ℕ → ℕ, ∀ k, ∀ r ∈ runs k, r.Within (B k)) ↔
      ∃ M : ℕ → ℕ, ∀ k, ∀ r ∈ runs k, r.FindsExpired (M k) := by
  constructor
  · rintro ⟨B, h⟩
    exact ⟨B, fun k r hr => (h k r hr).findsExpired⟩
  · rintro ⟨M, h⟩
    exact ⟨fun k => k + M k, fun k r hr => (h k r hr).within⟩

/-- The jti of the `n`-th session. -/
def sessionJti (n : ℕ) : String := String.ofList (List.replicate n 'x')

theorem sessionJti_inj {m n : ℕ} (h : sessionJti m = sessionJti n) : m = n := by
  have hlist := congrArg (fun s => s.toList.length) h
  simpa [sessionJti] using hlist

/-- The cache after `n` sessions, one every 31 seconds, with a time to live of 30 seconds. -/
def forgotten : ℕ → FieldState
  | 0 => ⟨.init 30, 0⟩
  | n + 1 =>
    { cache := ((forgotten n).cache.put (forgotten n).now (sessionJti n) "user-a" 1).2
      now := (forgotten n).now + 31 }

theorem forgotten_fields (n : ℕ) :
    (forgotten n).now = 31 * n ∧ (forgotten n).cache.watermarks = .empty ∧
      (forgotten n).cache.ttl = 30 ∧
      (forgotten n).cache.store.keys = (List.range n).map sessionJti := by
  induction n with
  | zero => exact ⟨by simp [forgotten], rfl, rfl, rfl⟩
  | succ n ih =>
    obtain ⟨hnow, hwm, httl, hkeys⟩ := ih
    have hput : (forgotten (n + 1)).cache = { (forgotten n).cache with
        store := (forgotten n).cache.store.set (sessionJti n)
          ⟨(forgotten n).now + (forgotten n).cache.ttl, "user-a", 1⟩ } := by
      have hle : ¬ (1 : ℤ) < ((forgotten n).cache.watermarks.get? "user-a").getD 0 := by
        rw [hwm]
        decide
      have hfits : (forgotten n).cache.ttl < floatLimit := by
        rw [httl]
        decide +kernel
      simp only [forgotten, CacheFields.put, if_neg hle, addSeconds_of_lt hfits]
    have hnew : sessionJti n ∉ (forgotten n).cache.store.keys := by
      rw [hkeys, List.mem_map]
      rintro ⟨m, hm, heq⟩
      have hlt := List.mem_range.mp hm
      have := sessionJti_inj heq
      omega
    refine ⟨?_, by rw [hput, hwm], by rw [hput, httl], ?_⟩
    · show (forgotten n).now + 31 = _
      rw [hnow]
      push_cast
      ring
    · rw [hput, OrderedDict.keys_set, if_neg hnew, hkeys, List.range_succ, List.map_append]
      rfl

/-- The sessions make up a run, and each of them is put in a window of its own. -/
theorem forgotten_run (n : ℕ) : ∃ past, Run FieldState.step ⟨.init 30, 0⟩ past (forgotten n) ∧
    ∀ s jti userId g, (s, CacheAct.put jti userId g) ∈ past →
      ∃ m < n, jti = sessionJti m ∧ s.now = 31 * m := by
  induction n with
  | zero => exact ⟨[], .start, by simp⟩
  | succ n ih =>
    obtain ⟨past, run, hputs⟩ := ih
    have hput := run.next (l := .put (sessionJti n) "user-a" 1) rfl
    have hpos : (0 : ℚ) ≤ 31 := by norm_num
    refine ⟨_, hput.next (FieldState.step_wait hpos), ?_⟩
    intro s jti userId g hmem
    rcases List.mem_cons.mp hmem with heq | hmem
    · simp at heq
    rcases List.mem_cons.mp hmem with heq | hmem
    · obtain ⟨rfl, hact⟩ := Prod.mk.inj heq
      obtain ⟨rfl, -, -⟩ := CacheAct.put.inj hact
      exact ⟨n, Nat.lt_succ_self n, rfl, (forgotten_fields n).1⟩
    · obtain ⟨m, hm, hjti, hnow⟩ := hputs s jti userId g hmem
      exact ⟨m, hm.trans (Nat.lt_succ_self n), hjti, hnow⟩

theorem forgotten_limited {n : ℕ} {past : List (FieldState × CacheAct)}
    (hputs : ∀ s jti userId g, (s, CacheAct.put jti userId g) ∈ past →
      ∃ m < n, jti = sessionJti m ∧ s.now = 31 * m) (t : ℚ) :
    (FieldState.putJtis 30 past t).card ≤ 1 := by
  rw [Finset.card_le_one]
  intro jti hjti jti' hjti'
  obtain ⟨s, userId, g, hmem, hlt, hle⟩ := FieldState.mem_putJtis.mp hjti
  obtain ⟨s', userId', g', hmem', hlt', hle'⟩ := FieldState.mem_putJtis.mp hjti'
  obtain ⟨m, -, rfl, hnow⟩ := hputs s _ _ _ hmem
  obtain ⟨m', -, rfl, hnow'⟩ := hputs s' _ _ _ hmem'
  rw [hnow] at hlt hle
  rw [hnow'] at hlt' hle'
  push_cast at hle hle'
  -- two sessions are more than 30 seconds apart
  have hle₁ : (31 * m : ℚ) < 31 * (m' + 1) := by linarith
  have hle₂ : (31 * m' : ℚ) < 31 * (m + 1) := by linarith
  have hlt₁ : 31 * m < 31 * (m' + 1) := by exact_mod_cast hle₁
  have hlt₂ : 31 * m' < 31 * (m + 1) := by exact_mod_cast hle₂
  obtain rfl : m = m' := by omega
  rfl

/-- One new session in any window of the time to live, and the store outgrows every bound. -/
theorem not_bounded : ¬ ∃ B : ℕ → ℕ, ∀ k, ∀ r : LimitedRun k, r.Within (B k) := by
  rintro ⟨B, h⟩
  obtain ⟨past, run, hputs⟩ := forgotten_run (B 1 + 1)
  have hwithin := h 1 ⟨30, 0, past, forgotten (B 1 + 1), by decide, run, forgotten_limited hputs⟩
  have hsize : (forgotten (B 1 + 1)).cache.store.size = B 1 + 1 := by
    rw [← OrderedDict.length_keys, (forgotten_fields _).2.2.2, List.length_map, List.length_range]
  have hle : (forgotten (B 1 + 1)).cache.store.size ≤ B 1 := hwithin.2
  omega

end LimitedRun

end FastapiM8
