import FastapiM8.InternalAuth.Lifecycle

/-! Callers whose token was rejected: each invalidates the credential and retries, and how often
the token is replaced depends on the order of these calls. -/
namespace FastapiM8

namespace ServiceTokenInternalAuth

/-- A provider that has a token cached, and on which no call is running. -/
def holding (token : Json) (expiresAt now : ℚ) : AuthPool :=
  .idle ⟨⟨some token, expiresAt, false⟩, now⟩

/-- The step starts no other call than those of `n` rejected callers: caller `i` invalidates as
task `2 * i`, and retries as task `2 * i + 1` once that has returned. -/
def CallsOf (n : ℕ) (w : AuthPool) (l : AuthAct) : Prop :=
  ∀ id call, l = .spawn id call → ∃ i < n, call = .invalidate ∧ id = 2 * i ∨
    call = .headers ∧ id = 2 * i + 1 ∧ w.result (2 * i) = some (.ok (.dropped true))

/-- The step invalidates. -/
def StartsInvalidate (l : AuthAct) : Prop := ∃ id, l = .spawn id .invalidate

/-- The step retries. -/
def StartsHeaders (l : AuthAct) : Prop := ∃ id, l = .spawn id .headers

/-- A caller has begun to retry. -/
def HeadersStarted (past : List (AuthPool × AuthAct)) : Prop := ∃ e ∈ past, StartsHeaders e.2

/-- No caller invalidates after one has begun to retry. -/
def InOrder (past : List (AuthPool × AuthAct)) : Prop :=
  past.Pairwise fun later earlier => StartsInvalidate later.2 → ¬ StartsHeaders earlier.2

variable (auth : ServiceTokenInternalAuth)

/-- What the step delivers is a token with a lifetime above the leeway. -/
def Succeeds (l : AuthAct) : Prop :=
  ∀ id answer, l = .resume id answer → ∃ (r : Response) (token : Json) (expiresIn : ℤ),
    answer = .reply r ∧ r.Grants token expiresIn ∧ token ≠ .null ∧ auth.leeway < expiresIn ∧
      auth.lifetime expiresIn < floatLimit

/-- The step starts an exchange because there is no token, and not because it has expired. -/
def Anew (w : AuthPool) (l : AuthAct) : Prop :=
  w.shared.credential.token = none ∧ ∃ id, auth.Enters w l id .headers

/-- A step of the history has minted the token. -/
def MintedIn (past : List (AuthPool × AuthAct)) (token : Json) : Prop :=
  ∃ e ∈ past, ∃ id expiresIn, auth.Mints e.1 e.2 id token expiresIn

/-- No `invalidate` discards a token that was minted. -/
def KeepsMinted (past : List (AuthPool × AuthAct)) : Prop :=
  ∀ newer w l older, past = newer ++ (w, l) :: older → auth.Drops w l →
    ∀ token, w.shared.credential.token = some token → ¬ auth.MintedIn older token

/-- At most one exchange is made because there was no token. -/
def ExchangesOnce (past : List (AuthPool × AuthAct)) : Prop :=
  past.Pairwise fun later earlier =>
    ¬ (auth.Anew later.1 later.2 ∧ auth.Anew earlier.1 earlier.2)

/-- While no caller retries, every call has ended, the lock is free, nothing was minted, and the
first `invalidate` has dropped the token. -/
structure Quiet (past : List (AuthPool × AuthAct)) (w : AuthPool) : Prop where
  ended : ∀ id t, w.tasks id = some t → ∃ r, t.prog = .ret r
  free : w.shared.credential.locked = false
  unminted : ∀ token, ¬ auth.MintedIn past token
  dropped : ∀ id, w.result id = some (.ok (.dropped true)) → w.shared.credential.token = none

variable {auth} {w w' : AuthPool} {l : AuthAct} {id : ℕ} {past : List (AuthPool × AuthAct)}
  {token : Json} {expiresAt now : ℚ}

theorem HeadersStarted.mono {newer : List (AuthPool × AuthAct)} (h : HeadersStarted past) :
    HeadersStarted (newer ++ past) := by
  obtain ⟨e, he, hstarts⟩ := h
  exact ⟨e, List.mem_append_right newer he, hstarts⟩

theorem HeadersStarted.cons {e : AuthPool × AuthAct} (h : HeadersStarted past) :
    HeadersStarted (e :: past) := by
  obtain ⟨e', he, hstarts⟩ := h
  exact ⟨e', List.mem_cons_of_mem e he, hstarts⟩

theorem headersStarted_of_tasks (run : Run auth.scheduler.step (holding token expiresAt now) past w)
    {prog : AuthProg} (ht : w.tasks id = some ⟨.headers, prog⟩) : HeadersStarted past := by
  obtain ⟨w₁, hspawned⟩ := Scheduler.spawned run ht
  exact ⟨_, hspawned, id, rfl⟩

/-- A call that is given the lock to retry has been started. -/
theorem headersStarted_of_enters
    (run : Run auth.scheduler.step (holding token expiresAt now) past w)
    (h : auth.Enters w l id .headers) : HeadersStarted ((w, l) :: past) := by
  rcases h.2 with ⟨rfl, -⟩ | ⟨rfl, ht⟩
  · exact ⟨_, List.mem_cons_self, id, rfl⟩
  · exact (headersStarted_of_tasks run ht).cons

theorem mintedIn_cons {e : AuthPool × AuthAct} :
    auth.MintedIn (e :: past) token ↔
      (∃ id expiresIn, auth.Mints e.1 e.2 id token expiresIn) ∨ auth.MintedIn past token := by
  simp [MintedIn]

/-- A call that has ended does not get the lock. -/
theorem Quiet.not_wakes (hquiet : auth.Quiet past w) {call : AuthCall}
    (ht : w.tasks id = some ⟨call, auth.waiting call⟩) : False := by
  obtain ⟨r, hr⟩ := hquiet.ended id _ ht
  simp [waiting] at hr

theorem Quiet.not_mints (hquiet : auth.Quiet past w) {expiresIn : ℤ} :
    ¬ auth.Mints w l id token expiresIn := by
  rintro ⟨reply, -, hid, -⟩
  obtain ⟨call, k, ht⟩ := Pool.awaits_eq_some hid
  obtain ⟨r, hr⟩ := hquiet.ended id _ ht
  contradiction

theorem quiet_of_no_headers (run : Run auth.scheduler.step (holding token expiresAt now) past w)
    (hnone : ¬ HeadersStarted past) : auth.Quiet past w := by
  induction run with
  | start => constructor <;> simp [holding, Pool.idle, Pool.result, MintedIn]
  | @next past w l w' run h ih =>
    have hquiet := ih fun hstarted => hnone hstarted.cons
    have hw := run.invariant serialised_step (serialised_idle _)
    have hunminted : ∀ token, ¬ auth.MintedIn ((w, l) :: past) token := by
      intro token hminted
      rcases mintedIn_cons.mp hminted with ⟨id, expiresIn, hmints⟩ | hold
      · exact hquiet.not_mints hmints
      · exact hquiet.unminted token hold
    cases move_of_step hw h with
    | waits id call hnew hlocked => simp [hquiet.free] at hlocked
    | enters l id call henters =>
      cases call with
      | headers => exact absurd (headersStarted_of_enters run henters) hnone
      | invalidate =>
        refine ⟨?_, rfl, hunminted, fun _ _ => rfl⟩
        intro id' t ht
        by_cases hid : id' = id
        · subst hid
          rw [Pool.park_tasks_self] at ht
          obtain rfl := Option.some.inj ht
          exact ⟨_, rfl⟩
        · rw [Pool.park_tasks_of_ne w _ _ hid] at ht
          exact hquiet.ended id' t ht
    | refused id call exc ht => exact (hquiet.not_wakes ht).elim
    | answered id answer ht =>
      obtain ⟨r, hr⟩ := hquiet.ended id _ ht
      contradiction
    | advances seconds hnn => exact ⟨hquiet.ended, hquiet.free, hunminted, hquiet.dropped⟩

theorem InOrder.of_append {newer : List (AuthPool × AuthAct)} (h : InOrder (newer ++ past)) :
    InOrder past := (List.pairwise_append.mp h).2.1

theorem InOrder.of_cons {e : AuthPool × AuthAct} (h : InOrder (e :: past)) : InOrder past :=
  (List.pairwise_cons.mp h).2

/-- Out of order, some `invalidate` starts after a retry. -/
theorem late_of_not_inOrder (h : ¬ InOrder past) : ∃ newer w id older,
    past = newer ++ (w, .spawn id .invalidate) :: older ∧ HeadersStarted older := by
  induction past with
  | nil => exact absurd .nil h
  | cons e past ih =>
    by_cases hin : InOrder past
    · have hhead : ¬ ∀ e' ∈ past, StartsInvalidate e.2 → ¬ StartsHeaders e'.2 := by
        intro hall
        exact h (.cons hall hin)
      push Not at hhead
      obtain ⟨e', he', ⟨id, hl⟩, hstarts⟩ := hhead
      obtain ⟨w, l⟩ := e
      obtain rfl : l = .spawn id .invalidate := hl
      exact ⟨[], w, id, past, rfl, e', he', hstarts⟩
    · obtain ⟨newer, w, id, older, rfl, hstarted⟩ := ih hin
      exact ⟨e :: newer, w, id, older, rfl, hstarted⟩

/-- The step that invalidates comes before every retry. -/
theorem InOrder.quiet (hin : InOrder ((w, l) :: past))
    (run : Run auth.scheduler.step (holding token expiresAt now) past w) (hl : StartsInvalidate l) :
    ¬ HeadersStarted past ∧ auth.Quiet past w := by
  have hnone : ¬ HeadersStarted past := by
    rintro ⟨e, he, hstarts⟩
    exact (List.pairwise_cons.mp hin).1 e he hl hstarts
  exact ⟨hnone, quiet_of_no_headers run hnone⟩

/-- In order, an `invalidate` never waits. -/
theorem invalidates_ended (run : Run auth.scheduler.step (holding token expiresAt now) past w)
    (hin : InOrder past) {prog : AuthProg} (ht : w.tasks id = some ⟨.invalidate, prog⟩) :
    ∃ r, prog = .ret r := by
  induction run generalizing id prog with
  | start => simp [holding, Pool.idle] at ht
  | @next past w l w' run h ih =>
    have hw := run.invariant serialised_step (serialised_idle _)
    have hold : ∀ {id prog}, w.tasks id = some ⟨.invalidate, prog⟩ → ∃ r, prog = .ret r :=
      fun ht => ih hin.of_cons ht
    have hpark : ∀ id' call (r : AuthProg × AuthState),
        (w.park id' call r).tasks id = some ⟨.invalidate, prog⟩ →
        (call = .invalidate → ∃ a, r.1 = .ret a) → ∃ r, prog = .ret r := by
      intro id' call r ht hr
      by_cases hid : id = id'
      · subst hid
        rw [Pool.park_tasks_self] at ht
        obtain ⟨rfl, rfl⟩ := Thread.mk.inj (Option.some.inj ht)
        exact hr rfl
      · rw [Pool.park_tasks_of_ne w _ _ hid] at ht
        exact hold ht
    cases move_of_step hw h with
    | waits id' call hnew hlocked =>
      refine hpark _ _ _ ht ?_
      rintro rfl
      have hquiet := (hin.quiet run ⟨id', rfl⟩).2
      simp [hquiet.free] at hlocked
    | enters l id' call henters =>
      refine hpark _ _ _ ht ?_
      rintro rfl
      exact ⟨_, rfl⟩
    | refused id' call exc ht' => exact hpark _ _ _ ht fun _ => ⟨_, rfl⟩
    | answered id' answer ht' => exact hpark _ _ _ ht (by simp)
    | advances seconds hnn => exact hold ht

/-- In order, an `invalidate` takes effect when it starts, before every retry. -/
theorem drops_in_order (run : Run auth.scheduler.step (holding token expiresAt now) past w)
    (hin : InOrder ((w, l) :: past)) (hdrops : auth.Drops w l) :
    ¬ HeadersStarted past ∧ auth.Quiet past w := by
  obtain ⟨id, -, ⟨rfl, -⟩ | ⟨rfl, ht⟩⟩ := hdrops
  · exact hin.quiet run ⟨id, rfl⟩
  · obtain ⟨r, hr⟩ := invalidates_ended run hin.of_cons ht
    simp [waiting] at hr

theorem keepsMinted_of_inOrder
    (run : Run auth.scheduler.step (holding token expiresAt now) past w) (hin : InOrder past) :
    auth.KeepsMinted past := by
  rintro newer w₁ l₁ older rfl hdrops token' htoken
  obtain ⟨run₁, -⟩ := run.split_cons
  exact (drops_in_order run₁ hin.of_append hdrops).2.unminted token'

/-- An exchange that was made because there was no token belongs to a retry. -/
theorem headersStarted_of_anew (run : Run auth.scheduler.step (holding token expiresAt now) past w)
    {e : AuthPool × AuthAct} (he : e ∈ past) (hanew : auth.Anew e.1 e.2) : HeadersStarted past := by
  obtain ⟨newer, older, rfl⟩ := List.append_of_mem he
  obtain ⟨run₁, -⟩ := run.split_cons
  obtain ⟨-, id, henters⟩ := hanew
  exact (headersStarted_of_enters run₁ henters).mono

/-- A retry that gets the lock takes the live token, or exchanges and keeps the lock. -/
theorem enter_headers_cases (auth : ServiceTokenInternalAuth) (s : AuthState) :
    (auth.enter s .headers).2 = s ∧ s.credential.token.isSome = true ∨
      (auth.enter s .headers).2.credential.locked = true := by
  rw [enter]
  cases hlive : s.live? with
  | none => exact .inr rfl
  | some token =>
    obtain ⟨htoken, -⟩ := AuthState.live?_eq_some.mp hlive
    exact .inl ⟨rfl, by simp [htoken]⟩

/-- An exchange that succeeds leaves its token cached. -/
theorem cached_of_succeeds {answer : AuthAnswer} (hid : auth.Exchanging w id)
    (hsucceeds : auth.Succeeds (.resume id answer)) :
    ∃ token expiresIn, auth.Mints w (.resume id answer) id token expiresIn ∧
      (auth.exchanged w.shared (answer.outcome.bind Response.grant)).2.credential.token =
        some token := by
  obtain ⟨r, token, expiresIn, rfl, hgrants, hnull, -, hlimit⟩ := hsucceeds id answer rfl
  refine ⟨token, expiresIn, ⟨r, rfl, hid, hgrants⟩, ?_⟩
  have hgranted := grant_eq_ok.mpr hgrants
  simp only [AuthAnswer.outcome, Except.bind, hgranted, exchanged, if_pos hlimit]
  cases token <;> first | rfl | contradiction

theorem not_succeeds_raises {exc : PyExc} : ¬ auth.Succeeds (.resume id (.raises exc)) := by
  intro hsucceeds
  obtain ⟨r, token, expiresIn, heq, -⟩ := hsucceeds id _ rfl
  contradiction

/-- In order, once an exchange was made because there was no token, the lock is held or there
is a token. -/
theorem held_or_cached (run : Run auth.scheduler.step (holding token expiresAt now) past w)
    (hin : InOrder past) (hsucceeds : ∀ e ∈ past, auth.Succeeds e.2)
    (hanew : ∃ e ∈ past, auth.Anew e.1 e.2) :
    w.shared.credential.locked = true ∨ w.shared.credential.token.isSome = true := by
  induction run with
  | start => simp at hanew
  | @next past w l w' run h ih =>
    have hw := run.invariant serialised_step (serialised_idle _)
    have hold := ih hin.of_cons fun e he => hsucceeds e (List.mem_cons_of_mem _ he)
    have hl := hsucceeds (w, l) List.mem_cons_self
    have hkept : ¬ auth.Anew w l → w.shared.credential.locked = true ∨
        w.shared.credential.token.isSome = true := by
      intro hnot
      obtain ⟨e, he, hanew⟩ := hanew
      rcases List.mem_cons.mp he with rfl | he
      · contradiction
      · exact hold ⟨e, he, hanew⟩
    cases move_of_step hw h with
    | waits id call hnew hlocked => exact .inl hlocked
    | enters l id call henters =>
      cases call with
      | headers =>
        rcases auth.enter_headers_cases w.shared with ⟨hsame, htoken⟩ | hlocked
        · rw [Pool.park_shared, hsame]
          exact .inr htoken
        · exact .inl hlocked
      | invalidate =>
        have hnone := (drops_in_order run hin ⟨id, henters⟩).1
        obtain ⟨e, he, hanew⟩ := hanew
        rcases List.mem_cons.mp he with rfl | he
        · obtain ⟨-, id', henters'⟩ := hanew
          have := henters.unique henters'
          contradiction
        · exact absurd (headersStarted_of_anew run he hanew) hnone
    | refused id call exc ht => exact absurd hl not_succeeds_raises
    | answered id answer ht =>
      obtain ⟨token', expiresIn, -, htoken⟩ := cached_of_succeeds (exchanging_of_tasks ht) hl
      exact .inr (by simp [htoken])
    | advances seconds hnn =>
      refine hkept ?_
      rintro ⟨-, id, -, ⟨heq, -⟩ | ⟨heq, -⟩⟩ <;> contradiction

theorem exchangesOnce_of_inOrder
    (run : Run auth.scheduler.step (holding token expiresAt now) past w) (hin : InOrder past)
    (hsucceeds : ∀ e ∈ past, auth.Succeeds e.2) : auth.ExchangesOnce past := by
  induction run with
  | start => exact .nil
  | @next past w l w' run h ih =>
    have hin' := hin.of_cons
    have hsucceeds' := fun e he => hsucceeds e (List.mem_cons_of_mem _ he)
    refine .cons ?_ (ih hin' hsucceeds')
    rintro e he ⟨⟨hnone, id, hfree, -⟩, hanew⟩
    change w.shared.credential.token = none at hnone
    change w.shared.credential.locked = false at hfree
    rcases held_or_cached run hin' hsucceeds' ⟨e, he, hanew⟩ with hlocked | htoken
    · simp [hlocked] at hfree
    · simp [hnone] at htoken

theorem KeepsMinted.of_cons {e : AuthPool × AuthAct} (h : auth.KeepsMinted (e :: past)) :
    auth.KeepsMinted past := by
  rintro newer w l older rfl
  exact h (e :: newer) w l older rfl

/-- When nothing minted is discarded, then from the first retry on the lock is held, or a minted
token is cached. -/
theorem held_or_minted (run : Run auth.scheduler.step (holding token expiresAt now) past w)
    {n : ℕ} (hcallers : ∀ e ∈ past, CallsOf n e.1 e.2) (hsucceeds : ∀ e ∈ past, auth.Succeeds e.2)
    (hkeeps : auth.KeepsMinted past) (hstarted : HeadersStarted past) :
    w.shared.credential.locked = true ∨
      ∃ token, w.shared.credential.token = some token ∧ auth.MintedIn past token := by
  induction run with
  | start => simp [HeadersStarted] at hstarted
  | @next past w l w' run h ih =>
    have hw := run.invariant serialised_step (serialised_idle _)
    have hold := ih (fun e he => hcallers e (List.mem_cons_of_mem _ he))
      (fun e he => hsucceeds e (List.mem_cons_of_mem _ he)) hkeeps.of_cons
    have hl := hsucceeds (w, l) List.mem_cons_self
    have hbefore : ¬ StartsHeaders l → HeadersStarted past := by
      intro hnot
      obtain ⟨e, he, hstarts⟩ := hstarted
      rcases List.mem_cons.mp he with rfl | he
      · contradiction
      · exact ⟨e, he, hstarts⟩
    cases move_of_step hw h with
    | waits id call hnew hlocked => exact .inl hlocked
    | enters l id call henters =>
      have hunlocked : w.shared.credential.locked ≠ true := by simp [henters.1]
      cases call with
      | headers =>
        rcases auth.enter_headers_cases w.shared with ⟨hsame, hsome⟩ | hlocked
        · rw [Pool.park_shared, hsame]
          by_cases hearlier : HeadersStarted past
          · obtain ⟨token', htoken, hminted⟩ := (hold hearlier).resolve_left hunlocked
            exact .inr ⟨token', htoken, mintedIn_cons.mpr (.inr hminted)⟩
          · -- the first retry comes after its own `invalidate`, so there is no token
            have hquiet := quiet_of_no_headers run hearlier
            obtain ⟨-, ⟨rfl, -⟩ | ⟨rfl, ht⟩⟩ := henters
            · obtain ⟨i, -, ⟨heq, -⟩ | ⟨-, -, hdropped⟩⟩ :=
                hcallers _ List.mem_cons_self id .headers rfl
              · contradiction
              · simp [hquiet.dropped _ hdropped] at hsome
            · exact (hquiet.not_wakes ht).elim
        · exact .inl hlocked
      | invalidate =>
        have hnot : ¬ StartsHeaders l := by
          rintro ⟨id', rfl⟩
          rcases henters.2 with ⟨heq, -⟩ | ⟨heq, -⟩ <;> cases heq
        obtain ⟨token', htoken, hminted⟩ := (hold (hbefore hnot)).resolve_left hunlocked
        exact absurd hminted (hkeeps [] w l past rfl ⟨id, henters⟩ token' htoken)
    | refused id call exc ht => exact absurd hl not_succeeds_raises
    | answered id answer ht =>
      obtain ⟨token', expiresIn, hmints, htoken⟩ := cached_of_succeeds (exchanging_of_tasks ht) hl
      exact .inr ⟨token', htoken, mintedIn_cons.mpr (.inl ⟨id, expiresIn, hmints⟩)⟩
    | advances seconds hnn =>
      rcases hold (hbefore (by rintro ⟨id, heq⟩; contradiction)) with
        hlocked | ⟨token', htoken, hminted⟩
      · exact .inl hlocked
      · exact .inr ⟨token', htoken, mintedIn_cons.mpr (.inr hminted)⟩

/-- When nothing minted is discarded, an `invalidate` that starts after a retry never gets the
lock. -/
theorem waits_forever (run : Run auth.scheduler.step (holding token expiresAt now) past w) {n : ℕ}
    (hcallers : ∀ e ∈ past, CallsOf n e.1 e.2) (hsucceeds : ∀ e ∈ past, auth.Succeeds e.2)
    (hkeeps : auth.KeepsMinted past) {newer older : List (AuthPool × AuthAct)} {w₁ : AuthPool}
    (hlate : past = newer ++ (w₁, .spawn id .invalidate) :: older)
    (hstarted : HeadersStarted older) :
    w.tasks id = some ⟨.invalidate, auth.waiting .invalidate⟩ := by
  induction run generalizing newer with
  | start => simp at hlate
  | @next past w l w' run h ih =>
    have hw := run.invariant serialised_step (serialised_idle _)
    have hcallers' := fun e he => hcallers e (List.mem_cons_of_mem _ he)
    have hsucceeds' := fun e he => hsucceeds e (List.mem_cons_of_mem _ he)
    have hnot : HeadersStarted past → ¬ auth.Drops w l := by
      rintro hearlier ⟨id', henters⟩
      rcases held_or_minted run hcallers' hsucceeds' hkeeps.of_cons hearlier with
        hlocked | ⟨token', htoken, hminted⟩
      · simp [henters.1] at hlocked
      · exact hkeeps [] w l past rfl ⟨id', henters⟩ token' htoken hminted
    match newer, hlate with
    | [], hlate =>
      obtain ⟨heq, rfl⟩ := List.cons.inj hlate
      obtain ⟨rfl, rfl⟩ := Prod.mk.inj heq
      obtain ⟨hnew, rfl⟩ := Scheduler.step_spawn_iff.mp h
      cases hlocked : w.shared.credential.locked with
      | true =>
        have hsettle := auth.settle_call_locked .invalidate hlocked
        simp only [scheduler, hsettle, Pool.park_tasks_self]
        rfl
      | false => exact absurd ⟨id, hlocked, .inl ⟨rfl, hnew⟩⟩ (hnot hstarted)
    | e :: newer, hlate =>
      obtain ⟨rfl, rfl⟩ := List.cons.inj hlate
      have ht := ih hcallers' hsucceeds' hkeeps.of_cons rfl
      have hstarted' : HeadersStarted (newer ++ (w₁, .spawn id .invalidate) :: older) :=
        hstarted.cons.mono
      by_cases hruns : l.Runs id
      · cases move_of_step hw h with
        | waits id' call hnew hlocked =>
          obtain rfl := hruns.unique (.inl ⟨call, rfl⟩)
          simp [hnew] at ht
        | enters l id' call henters =>
          obtain rfl := hruns.unique henters.runs
          obtain ⟨hfree, ⟨rfl, hnew⟩ | ⟨rfl, ht'⟩⟩ := henters
          · simp [hnew] at ht
          · exact absurd ⟨id, hfree, .inr ⟨rfl, ht⟩⟩ (hnot hstarted')
        | refused id' call exc ht' =>
          exact absurd (hsucceeds _ List.mem_cons_self) not_succeeds_raises
        | answered id' answer ht' =>
          obtain rfl := hruns.unique (.inr (.inl ⟨_, rfl⟩))
          simp [ht'] at ht
        | advances seconds hnn =>
          rcases hruns with ⟨call, heq⟩ | ⟨answer, heq⟩ | heq <;> contradiction
      · rw [Scheduler.step_tasks h hruns]
        exact ht

/-- However `n` callers whose token was rejected invalidate and retry: when every `invalidate`
is called before the first retry, the token is replaced once and what replaces it is kept. When
all the calls have ended, the order is also necessary. -/
theorem rejected_replaced_once (auth : ServiceTokenInternalAuth) (token : Json) (expiresAt now : ℚ)
    (n : ℕ) (past : List (AuthPool × AuthAct)) (w : AuthPool)
    (run : Run auth.scheduler.step (holding token expiresAt now) past w)
    (hcallers : ∀ e ∈ past, CallsOf n e.1 e.2) (hsucceeds : ∀ e ∈ past, auth.Succeeds e.2) :
    (InOrder past → auth.ExchangesOnce past ∧ auth.KeepsMinted past) ∧
    ((∀ id, ¬ w.Pending id) →
      (auth.ExchangesOnce past ∧ auth.KeepsMinted past ↔ InOrder past)) := by
  have hinOrder : InOrder past → auth.ExchangesOnce past ∧ auth.KeepsMinted past := by
    intro hin
    exact ⟨exchangesOnce_of_inOrder run hin hsucceeds, keepsMinted_of_inOrder run hin⟩
  refine ⟨hinOrder, fun hended => ⟨?_, hinOrder⟩⟩
  rintro ⟨-, hkeeps⟩
  by_contra hlate
  obtain ⟨newer, w₁, id, older, hpast, hstarted⟩ := late_of_not_inOrder hlate
  have ht := waits_forever run hcallers hsucceeds hkeeps hpast hstarted
  exact hended id ⟨_, _, _, ht⟩

theorem step_drop (id : ℕ) (hnew : w.tasks id = none) (hfree : w.shared.credential.locked = false) :
    auth.scheduler.step w (.spawn id .invalidate) =
      some (w.park id .invalidate (.ret (.ok (.dropped true)), w.shared.drop)) :=
  step_spawn_free hnew hfree

theorem step_ask (id : ℕ) (hnew : w.tasks id = none) (hfree : w.shared.credential.locked = false)
    (hnone : w.shared.live? = none) : auth.scheduler.step w (.spawn id .headers) =
      some (w.park id .headers (auth.exchanging, w.shared.lock)) := by
  rw [step_spawn_free hnew hfree, enter, hnone]

theorem succeeds_granting {text : String} :
    orders.Succeeds (.resume id (.reply (granting text 300))) := by
  rintro id' answer heq
  obtain ⟨rfl, rfl⟩ := Act.resume.inj heq
  exact ⟨_, .str text, 300, rfl, grant_eq_ok.mp (grant_granting text 300), by simp, by decide,
    lifetime_orders⟩

theorem succeeds_spawn {call : AuthCall} : auth.Succeeds (.spawn id call) := by
  intro id' answer heq
  contradiction

theorem callsOf_resume {n : ℕ} {answer : AuthAnswer} : CallsOf n w (.resume id answer) := by
  intro id' call heq
  contradiction

theorem callsOf_invalidate {n i : ℕ} (hi : i < n) : CallsOf n w (.spawn (2 * i) .invalidate) := by
  intro id call heq
  obtain ⟨rfl, rfl⟩ := Act.spawn.inj heq
  exact ⟨i, hi, .inl ⟨rfl, rfl⟩⟩

theorem callsOf_headers {n i : ℕ} (hi : i < n)
    (hdropped : w.result (2 * i) = some (.ok (.dropped true))) :
    CallsOf n w (.spawn (2 * i + 1) .headers) := by
  intro id call heq
  obtain ⟨rfl, rfl⟩ := Act.spawn.inj heq
  exact ⟨i, hi, .inr ⟨rfl, rfl, hdropped⟩⟩

/-- The token that both callers presented is cached. -/
def rejected : AuthPool := holding (.str "rejected") 270 0

/-- Caller 0 has invalidated. -/
def invalidated : AuthPool :=
  rejected.park 0 .invalidate (.ret (.ok (.dropped true)), rejected.shared.drop)

theorem run_invalidated :
    Run orders.scheduler.step rejected [(rejected, .spawn 0 .invalidate)] invalidated :=
  Run.start.next (step_drop 0 rfl rfl)

/-- Both callers invalidate, and then both retry: the second retry finds the token that the
first one was granted. -/
theorem rejected_replaced_once_in_order :
    ∃ past w, Run orders.scheduler.step rejected past w ∧
      past.map Prod.snd = [.spawn 3 .headers, .resume 1 (.reply (granting "new" 300)),
        .spawn 1 .headers, .spawn 2 .invalidate, .spawn 0 .invalidate] ∧
      orders.ExchangesOnce past ∧ orders.KeepsMinted past := by
  have run₂ := run_invalidated.next (step_drop 2 rfl rfl)
  have run₃ := run₂.next (step_ask 1 rfl rfl rfl)
  have run₄ := run₃.next (step_grant "new" (Pool.park_tasks_self _ _ _ _) lifetime_orders)
  have hlive : (0 : ℚ) < 0 + orders.lifetime 300 := by decide +kernel
  have run₅ := run₄.next (step_find 3 rfl rfl (AuthState.live?_eq_some.mpr ⟨rfl, hlive⟩))
  refine ⟨_, _, run₅, rfl, ?_⟩
  refine (rejected_replaced_once orders (.str "rejected") 270 0 2 _ _ run₅ ?_ ?_).1 ?_
  · simp only [List.forall_mem_cons]
    exact ⟨callsOf_headers (i := 1) (by decide) rfl, callsOf_resume,
      callsOf_headers (i := 0) (by decide) rfl, callsOf_invalidate (i := 1) (by decide),
      callsOf_invalidate (i := 0) (by decide), by simp⟩
  · simp only [List.forall_mem_cons]
    exact ⟨succeeds_spawn, succeeds_granting, succeeds_spawn, succeeds_spawn, succeeds_spawn,
      by simp⟩
  · simp [InOrder, StartsInvalidate, StartsHeaders]

/-- Caller 0 invalidates and retries before caller 1 invalidates: caller 1 discards the new
token, and its retry exchanges again. -/
theorem rejected_replaced_twice :
    ¬ ∀ (auth : ServiceTokenInternalAuth) (token : Json) (expiresAt now : ℚ) (n : ℕ)
      (past : List (AuthPool × AuthAct)) (w : AuthPool),
      Run auth.scheduler.step (holding token expiresAt now) past w →
      (∀ e ∈ past, CallsOf n e.1 e.2) → (∀ e ∈ past, auth.Succeeds e.2) →
      auth.ExchangesOnce past ∧ auth.KeepsMinted past := by
  intro h
  have run₂ := run_invalidated.next (step_ask 1 rfl rfl rfl)
  have run₃ := run₂.next (step_grant "new" (Pool.park_tasks_self _ _ _ _) lifetime_orders)
  have run₄ := run₃.next (step_drop 2 rfl rfl)
  have run₅ := run₄.next (step_ask 3 rfl rfl rfl)
  refine absurd (h orders (.str "rejected") 270 0 2 _ _ run₅ ?_ ?_).1 ?_
  · simp only [List.forall_mem_cons]
    exact ⟨callsOf_headers (i := 1) (by decide) rfl, callsOf_invalidate (i := 1) (by decide),
      callsOf_resume, callsOf_headers (i := 0) (by decide) rfl,
      callsOf_invalidate (i := 0) (by decide), by simp⟩
  · simp only [List.forall_mem_cons]
    exact ⟨succeeds_spawn, succeeds_spawn, succeeds_granting, succeeds_spawn, succeeds_spawn,
      by simp⟩
  · intro honce
    exact (List.pairwise_cons.mp honce).1 (invalidated, .spawn 1 .headers) (by simp)
      ⟨⟨rfl, 3, rfl, .inl ⟨rfl, rfl⟩⟩, ⟨rfl, 1, rfl, .inl ⟨rfl, rfl⟩⟩⟩

end ServiceTokenInternalAuth

end FastapiM8
