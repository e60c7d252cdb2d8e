import FastapiM8.InternalAuth.Runs
import FastapiM8.Revocation.Segments

/-! The service token over its life: which exchange granted it, until when it is handed out, and
what replaces it after an `invalidate`. -/
namespace FastapiM8

namespace ServiceTokenInternalAuth

variable (auth : ServiceTokenInternalAuth)

/-- The step delivers to the call `id` a reply of the issuer that grants a token. -/
def Mints (w : AuthPool) (l : AuthAct) (id : ℕ) (token : Json) (expiresIn : ℤ) : Prop :=
  ∃ r : Response, l = .resume id (.reply r) ∧ auth.Exchanging w id ∧ r.Grants token expiresIn

/-- The step lets an `invalidate` call take effect; it returns in the same step. -/
def Drops (w : AuthPool) (l : AuthAct) : Prop := ∃ id, auth.Enters w l id .invalidate

/-- The step ends a `headers` call that returns the token. -/
def Returns (w : AuthPool) (l : AuthAct) (id : ℕ) (token : Json) : Prop :=
  ∃ w', auth.scheduler.step w l = some w' ∧ l.Runs id ∧ w'.result id = some (bearer token)

/-- Whatever token the step mints, its lifetime can be added to the clock, or it is the cached
token again. -/
def Fits (w : AuthPool) (l : AuthAct) : Prop :=
  ∀ id token expiresIn, auth.Mints w l id token expiresIn →
    auth.lifetime expiresIn < floatLimit ∨ w.shared.credential.token = token.orNone

/-- The step mints the token of an entry, and sets its expiry when the lifetime fits. -/
def Caches (w : AuthPool) (l : AuthAct) (entry : Json × ℚ) : Prop :=
  ∃ id expiresIn, auth.Mints w l id entry.1 expiresIn ∧
    (entry.2 = w.shared.now + auth.lifetime expiresIn ∨ ¬ auth.Fits w l)

/-- When the step ends an exchange with an exception, the cached token and its expiry stay. -/
def FailsClean (w : AuthPool) (l : AuthAct) : Prop :=
  ∀ w' id exc, auth.scheduler.step w l = some w' → auth.Exchanging w id → l.Runs id →
    w'.result id = some (.error exc) →
    w'.shared.credential.token = w.shared.credential.token ∧
      w'.shared.credential.expiresAt = w.shared.credential.expiresAt

/-- No two steps of the history mint the same token. -/
def DistinctMints (history : List (AuthPool × AuthAct)) : Prop :=
  history.Pairwise fun a b => ∀ token id₁ e₁ id₂ e₂, auth.Mints a.1 a.2 id₁ token e₁ →
    ¬ auth.Mints b.1 b.2 id₂ token e₂

/-- The steps, oldest first, give a client what its trace has the provider answer it: a `headers`
call returns the headers, and an `invalidate` call takes effect. -/
def Serves : List ClientTraceEvent → List (AuthPool × AuthAct) → Prop
  | [], _ => True
  | ⟨.authHeaders, .ok headers⟩ :: tr, steps =>
    ∃ before w l after id token, steps = before ++ (w, l) :: after ∧ auth.Returns w l id token ∧
      headers = [(authorizationHeader, .bearer token)] ∧ Serves tr after
  | ⟨.authInvalidate, .ok retry⟩ :: tr, steps =>
    ∃ before w l after, steps = before ++ (w, l) :: after ∧ auth.Drops w l ∧ retry = true ∧
      Serves tr after
  | _ :: tr, steps => Serves tr steps

variable {auth} {w w' : AuthPool} {l : AuthAct} {id : ℕ} {token : Json}

theorem Enters.runs {call : AuthCall} (h : auth.Enters w l id call) : l.Runs id := by
  rcases h.2 with ⟨rfl, -⟩ | ⟨rfl, -⟩
  · exact .inl ⟨call, rfl⟩
  · exact .inr (.inr rfl)

theorem Enters.unique {call call' : AuthCall} {id' : ℕ} (h : auth.Enters w l id call)
    (h' : auth.Enters w l id' call') : call = call' := by
  rcases h.2 with ⟨rfl, -⟩ | ⟨rfl, ht⟩
  · rcases h'.2 with ⟨heq, -⟩ | ⟨heq, -⟩
    · exact (Act.spawn.inj heq).2
    · contradiction
  · rcases h'.2 with ⟨heq, -⟩ | ⟨heq, ht'⟩
    · contradiction
    · obtain rfl := Act.wake.inj heq
      exact congrArg Thread.spec (Option.some.inj (ht.symm.trans ht'))

theorem mints_of_granted {answer : AuthAnswer} {expiresIn : ℤ}
    (hid : auth.Exchanging w id)
    (h : answer.outcome.bind Response.grant = .ok (token, expiresIn)) :
    auth.Mints w (.resume id answer) id token expiresIn := by
  cases answer with
  | reply r => exact ⟨r, rfl, hid, grant_eq_ok.mp h⟩
  | raises exc => contradiction

theorem granted_of_mints {answer : AuthAnswer} {id' : ℕ} {expiresIn : ℤ}
    (h : auth.Mints w (.resume id answer) id' token expiresIn) :
    id' = id ∧ answer.outcome.bind Response.grant = .ok (token, expiresIn) := by
  obtain ⟨r, heq, -, hgrants⟩ := h
  obtain ⟨rfl, rfl⟩ := Act.resume.inj heq
  exact ⟨rfl, grant_eq_ok.mpr hgrants⟩

theorem not_drops_resume {answer : AuthAnswer} : ¬ auth.Drops w (.resume id answer) := by
  rintro ⟨id', -, ⟨heq, -⟩ | ⟨heq, -⟩⟩ <;> contradiction

theorem orNone_eq_some {data : Json} (h : data.orNone = some token) : data = token := by
  cases data <;> simp_all [Json.orNone]

/-- Finding out whether the token is live leaves it as it is. -/
theorem enter_headers (auth : ServiceTokenInternalAuth) (s : AuthState) :
    (auth.enter s .headers).2.credential.token = s.credential.token ∧
      (auth.enter s .headers).2.credential.expiresAt = s.credential.expiresAt := by
  rw [enter]
  cases s.live? <;> exact ⟨rfl, rfl⟩

/-- A token that is cached after a step was minted by it, or was cached before with the same
expiry and is dropped by no `invalidate`. -/
theorem cached_step (hw : auth.Serialised w) (h : auth.scheduler.step w l = some w')
    (htoken : w'.shared.credential.token = some token) :
    auth.Caches w l (token, w'.shared.credential.expiresAt) ∨
    (w.shared.credential.token = some token ∧
      w'.shared.credential.expiresAt = w.shared.credential.expiresAt) ∧ ¬ auth.Drops w l := by
  cases move_of_step hw h with
  | waits id call hnew hlocked =>
    refine .inr ⟨⟨htoken, rfl⟩, ?_⟩
    rintro ⟨id', hfree, -⟩
    rw [hlocked] at hfree
    contradiction
  | enters l id call henters =>
    cases call with
    | headers =>
      obtain ⟨hkept, hexpiry⟩ := auth.enter_headers w.shared
      refine .inr ⟨⟨hkept.symm.trans htoken, hexpiry⟩, ?_⟩
      rintro ⟨id', hdrops⟩
      have := henters.unique hdrops
      contradiction
    | invalidate => contradiction
  | refused id call exc ht => exact .inr ⟨⟨htoken, rfl⟩, not_drops_resume⟩
  | answered id answer ht =>
    rw [Pool.park_shared] at htoken ⊢
    rcases hgranted : answer.outcome.bind Response.grant with exc | ⟨minted, expiresIn⟩
    · rw [hgranted] at htoken
      exact .inr ⟨⟨htoken, rfl⟩, not_drops_resume⟩
    · have hmints := mints_of_granted (exchanging_of_tasks ht) hgranted
      rw [hgranted, exchanged] at htoken
      rw [exchanged]
      by_cases hlimit : auth.lifetime expiresIn < floatLimit
      · rw [if_pos hlimit] at htoken ⊢
        obtain rfl : minted = token := orNone_eq_some htoken
        exact .inl ⟨id, expiresIn, hmints, .inl rfl⟩
      · rw [if_neg hlimit] at htoken ⊢
        obtain rfl : minted = token := orNone_eq_some htoken
        by_cases hfits : auth.Fits w (.resume id answer)
        · rcases hfits _ _ _ hmints with hlt | hsame
          · contradiction
          · exact .inr ⟨⟨hsame.trans htoken, rfl⟩, not_drops_resume⟩
        · exact .inl ⟨id, expiresIn, hmints, .inr hfits⟩
  | advances seconds hnn =>
    refine .inr ⟨⟨htoken, rfl⟩, ?_⟩
    rintro ⟨id', -, ⟨heq, -⟩ | ⟨heq, -⟩⟩ <;> contradiction

theorem bearer_inj {token' : Json} (h : bearer token = bearer token') : token = token' := by
  simpa [bearer] using h

/-- A `headers` call returns a token that it has minted itself, or the live one. -/
theorem minted_or_live (hw : auth.Serialised w) (h : auth.Returns w l id token) :
    (∃ expiresIn, auth.Mints w l id token expiresIn) ∨ w.shared.live? = some token := by
  obtain ⟨w', hstep, hruns, hresult⟩ := h
  cases move_of_step hw hstep with
  | waits id' call hnew hlocked =>
    obtain rfl := hruns.unique (.inl ⟨call, rfl⟩)
    simp [Pool.result, waiting] at hresult
  | enters l id' call henters =>
    obtain rfl := hruns.unique henters.runs
    cases call with
    | headers =>
      simp only [Pool.result, Pool.park_tasks_self, enter] at hresult
      cases hlive : w.shared.live? with
      | none => simp [hlive, exchanging] at hresult
      | some live =>
        simp only [hlive] at hresult
        obtain rfl := bearer_inj (Option.some.inj hresult)
        exact .inr rfl
    | invalidate => simp [Pool.result, enter, bearer] at hresult
  | refused id' call exc ht =>
    obtain rfl := hruns.unique (.inr (.inl ⟨_, rfl⟩))
    simp [Pool.result, bearer] at hresult
  | answered id' answer ht =>
    obtain rfl := hruns.unique (.inr (.inl ⟨_, rfl⟩))
    simp only [Pool.result, Pool.park_tasks_self] at hresult
    rcases hgranted : answer.outcome.bind Response.grant with exc | ⟨minted, expiresIn⟩
    · simp [hgranted, exchanged, bearer] at hresult
    · rw [hgranted, exchanged] at hresult
      by_cases hlimit : auth.lifetime expiresIn < floatLimit
      · rw [if_pos hlimit] at hresult
        obtain rfl := bearer_inj (Option.some.inj hresult)
        exact .inl ⟨expiresIn, mints_of_granted (exchanging_of_tasks ht) hgranted⟩
      · rw [if_neg hlimit] at hresult
        simp [bearer] at hresult
  | advances seconds hnn =>
    rcases hruns with ⟨call, heq⟩ | ⟨answer, heq⟩ | heq <;> contradiction

/-- The cached token of a reached pool was minted by a step of the run, which set its expiry
when the lifetime fits, and no `invalidate` has dropped it since. -/
theorem minted_since {m : AuthPool} (hm : auth.Serialised m)
    (hnone : m.shared.credential.token = none) {past : List (AuthPool × AuthAct)}
    (run : Run auth.scheduler.step m past w) (htoken : w.shared.credential.token = some token) :
    ∃ newer w₁ l₁ older, past = newer ++ (w₁, l₁) :: older ∧
      auth.Caches w₁ l₁ (token, w.shared.credential.expiresAt) ∧
      ∀ e ∈ newer, ¬ auth.Drops e.1 e.2 := by
  have hcached : ∀ w l w', auth.Serialised w → auth.scheduler.step w l = some w' →
      ∀ (k : Unit) x, w'.shared.cached? = some x →
        auth.Caches w l x ∨ w.shared.cached? = some x ∧ ¬ auth.Drops w l := by
    intro w l w' hw h _ x hx
    obtain ⟨token', htoken', rfl⟩ := Option.map_eq_some_iff.mp hx
    rcases cached_step hw h htoken' with hmints | ⟨⟨hold, hexpiry⟩, hdrops⟩
    · exact .inl hmints
    · exact .inr ⟨by simp [AuthState.cached?, hold, hexpiry], hdrops⟩
  have hx : w.shared.cached? = some (token, w.shared.credential.expiresAt) := by
    simp [AuthState.cached?, htoken]
  rcases run.provenance (fun w (_ : Unit) => w.shared.cached?)
    (fun w l _ x => auth.Caches w l x) (fun w l _ _ => auth.Drops w l) serialised_step hcached hm
    (k := ()) hx with ⟨hstart, -⟩ | hminted
  · simp [AuthState.cached?, hnone] at hstart
  · exact hminted

/-- A step that runs a call with an exchange in flight ends the exchange. -/
theorem answered_of_exchanging (hw : auth.Serialised w) (h : auth.scheduler.step w l = some w')
    (hid : auth.Exchanging w id) (hruns : l.Runs id) :
    ∃ answer, l = .resume id answer ∧ w' = w.park id .headers
      (auth.exchanged w.shared (answer.outcome.bind Response.grant)) := by
  cases move_of_step hw h with
  | waits id' call hnew hlocked =>
    obtain rfl := hruns.unique (.inl ⟨call, rfl⟩)
    simp [Exchanging, Pool.awaits, hnew] at hid
  | enters l id' call henters => exact absurd hid (henters.not_exchanging hw id)
  | refused id' call exc ht =>
    obtain rfl := hruns.unique (.inr (.inl ⟨_, rfl⟩))
    simp [Exchanging, Pool.awaits, ht, waiting] at hid
  | answered id' answer ht =>
    obtain rfl := hruns.unique (.inr (.inl ⟨_, rfl⟩))
    exact ⟨answer, rfl, rfl⟩
  | advances seconds hnn =>
    rcases hruns with ⟨call, heq⟩ | ⟨answer, heq⟩ | heq <;> contradiction

/-- An exchange fails clean exactly when what it mints fits: a lifetime that cannot be added to
the clock raises after the token was replaced. -/
theorem failsClean_iff (hw : auth.Serialised w) (h : auth.scheduler.step w l = some w') :
    auth.FailsClean w l ↔ auth.Fits w l := by
  constructor
  · rintro hclean id token expiresIn ⟨r, rfl, hid, hgrants⟩
    have hgranted := grant_eq_ok.mpr hgrants
    obtain ⟨answer, heq, rfl⟩ := answered_of_exchanging hw h hid (.inr (.inl ⟨_, rfl⟩))
    obtain rfl := (Act.resume.inj heq).2
    by_cases hlimit : auth.lifetime expiresIn < floatLimit
    · exact .inl hlimit
    · have hends : auth.exchanged w.shared ((AuthAnswer.reply r).outcome.bind Response.grant) =
          (.ret (.error .overflowError), w.shared.keep token w.shared.credential.expiresAt) := by
        simp [AuthAnswer.outcome, Except.bind, hgranted, exchanged, hlimit]
      obtain ⟨htoken, -⟩ := hclean _ id .overflowError h hid (.inr (.inl ⟨_, rfl⟩))
        (by simp [Pool.result, hends])
      rw [Pool.park_shared, hends] at htoken
      exact .inr htoken.symm
  · intro hfits w'' id exc h' hid hruns hresult
    obtain rfl : w' = w'' := Option.some.inj (h.symm.trans h')
    obtain ⟨answer, rfl, rfl⟩ := answered_of_exchanging hw h hid hruns
    rw [Pool.park_shared]
    simp only [Pool.result, Pool.park_tasks_self] at hresult
    rcases hgranted : answer.outcome.bind Response.grant with exc' | ⟨token, expiresIn⟩
    · exact ⟨rfl, rfl⟩
    · rw [hgranted, exchanged] at hresult
      rw [exchanged]
      by_cases hlimit : auth.lifetime expiresIn < floatLimit
      · simp [hlimit, bearer] at hresult
      · rw [if_neg hlimit]
        have hmints := mints_of_granted hid hgranted
        rcases hfits _ _ _ hmints with hlt | hsame
        · contradiction
        · exact ⟨hsame.symm, rfl⟩

/-- A token that is cached and live was granted by a reply whose lifetime is not over. -/
theorem minted_within {now : ℚ} {past : List (AuthPool × AuthAct)}
    (run : Run auth.scheduler.step (start now) past w) (hfits : ∀ e ∈ past, auth.Fits e.1 e.2)
    (hlive : w.shared.live? = some token) :
    ∃ newer w₀ l₀ older, past = newer ++ (w₀, l₀) :: older ∧ ∃ id expiresIn,
      auth.Mints w₀ l₀ id token expiresIn ∧
        w.shared.now < w₀.shared.now + auth.lifetime expiresIn := by
  obtain ⟨htoken, hbefore⟩ := AuthState.live?_eq_some.mp hlive
  obtain ⟨newer, w₀, l₀, older, rfl, ⟨id', expiresIn, hmints, hexpiry⟩, -⟩ :=
    minted_since (serialised_idle _) rfl run htoken
  refine ⟨newer, w₀, l₀, older, rfl, id', expiresIn, hmints, ?_⟩
  rcases hexpiry with hset | hunfit
  · rwa [← hset]
  · exact absurd (hfits (w₀, l₀) (by simp)) hunfit

/-- What is returned after an `invalidate` took effect was minted after it. -/
theorem minted_after_drop {m : AuthPool} (hm : auth.Serialised m)
    {newer : List (AuthPool × AuthAct)} (hdrops : auth.Drops m l)
    {m' : AuthPool} (hstep : auth.scheduler.step m l = some m')
    (run : Run auth.scheduler.step m' newer w) {l' : AuthAct}
    (hreturns : auth.Returns w l' id token) :
    ∃ e ∈ (w, l') :: newer, ∃ id expiresIn, auth.Mints e.1 e.2 id token expiresIn := by
  have hm' := serialised_step _ _ _ hm hstep
  have hnone : m'.shared.credential.token = none := by
    rcases htoken : m'.shared.credential.token with - | token'
    · rfl
    · rcases cached_step hm hstep htoken with ⟨id', expiresIn, ⟨r, rfl, -⟩, -⟩ | ⟨-, hkept⟩
      · exact absurd hdrops not_drops_resume
      · exact absurd hdrops hkept
  have hw := run.invariant serialised_step hm'
  rcases minted_or_live hw hreturns with ⟨expiresIn, hmints⟩ | hlive
  · exact ⟨(w, l'), List.mem_cons_self, id, expiresIn, hmints⟩
  · obtain ⟨htoken, -⟩ := AuthState.live?_eq_some.mp hlive
    obtain ⟨newest, w₀, l₀, between, rfl, ⟨id', expiresIn, hmints, -⟩, -⟩ :=
      minted_since hm' hnone run htoken
    exact ⟨(w₀, l₀), by simp, id', expiresIn, hmints⟩

/-- What is returned was minted in the run so far. -/
theorem minted_of_returns {now : ℚ} {past : List (AuthPool × AuthAct)}
    (run : Run auth.scheduler.step (start now) past w) (hreturns : auth.Returns w l id token) :
    ∃ e ∈ (w, l) :: past, ∃ id expiresIn, auth.Mints e.1 e.2 id token expiresIn := by
  rcases minted_or_live (serialised run) hreturns with ⟨expiresIn, hmints⟩ | hlive
  · exact ⟨(w, l), List.mem_cons_self, id, expiresIn, hmints⟩
  · obtain ⟨htoken, -⟩ := AuthState.live?_eq_some.mp hlive
    obtain ⟨newer, w₀, l₀, older, rfl, ⟨id', expiresIn, hmints, -⟩, -⟩ :=
      minted_since (serialised_idle _) rfl run htoken
    exact ⟨(w₀, l₀), by simp, id', expiresIn, hmints⟩

/-- When the issuer mints distinct tokens, what is returned after an `invalidate` took effect
was not returned before it. -/
theorem ne_of_dropped {now : ℚ} {newer older : List (AuthPool × AuthAct)} {w₁ : AuthPool}
    {l₁ : AuthAct} (run : Run auth.scheduler.step (start now) (newer ++ (w₁, l₁) :: older) w)
    (hdistinct : auth.DistinctMints ((w, l) :: (newer ++ (w₁, l₁) :: older)))
    (hdrops : auth.Drops w₁ l₁) (hreturns : auth.Returns w l id token)
    {e : AuthPool × AuthAct} (he : e ∈ older) {id₁ : ℕ} {rejected : Json}
    (hrejected : auth.Returns e.1 e.2 id₁ rejected) : token ≠ rejected := by
  obtain ⟨run₁, m, hdropped, run₂⟩ := run.split_cons
  obtain ⟨e₁, he₁, id₀, expiresIn, hnew⟩ :=
    minted_after_drop (serialised run₁) hdrops hdropped run₂ hreturns
  rintro rfl
  obtain ⟨after, before, rfl⟩ := List.append_of_mem he
  obtain ⟨e₂, he₂, id₂, expiresIn₂, hold⟩ := minted_of_returns run₁.split_cons.1 hrejected
  have hpairs := List.pairwise_append.mp (show
    List.Pairwise _ (((w, l) :: newer) ++ ((w₁, l₁) :: (after ++ e :: before))) from hdistinct)
  refine hpairs.2.2 e₁ he₁ e₂ ?_ token _ _ _ _ hnew hold
  exact List.mem_cons_of_mem _ (List.mem_append_right _ he₂)

open RemoteRevocationClient in
/-- The retry of a status query does not present the token that was rejected. -/
theorem presented_nodup {client : RemoteRevocationClient} {sdk : Sdk} {jti userId : String}
    {tr : List ClientTraceEvent} {outcome : Except PyExc JtiStatusResponse}
    (htr : (client.queryStatus sdk jti userId).run.Trace tr (.ret outcome)) {now : ℚ}
    {past : List (AuthPool × AuthAct)} (run : Run auth.scheduler.step (start now) past w)
    (hserves : auth.Serves tr past.reverse) (hdistinct : auth.DistinctMints past) :
    (presented tr).Nodup := by
  rcases queryStatus_trace htr with honce | ⟨first, hfirst, ⟨answer, rfl⟩ | ⟨second, hsecond, rfl⟩⟩
  · rcases honce with ⟨exc, rfl⟩ | ⟨headers, answer, rfl⟩ <;> simp [presented]
  · rcases hfirst with ⟨exc, rfl⟩ | ⟨headers, answer, rfl⟩ <;> simp [presented]
  · rcases hfirst with ⟨exc, rfl⟩ | ⟨rejected, answer, rfl⟩
    · rcases hsecond with ⟨exc, rfl⟩ | ⟨headers, answer, rfl⟩ <;> simp [presented]
    rcases hsecond with ⟨exc, rfl⟩ | ⟨headers, answer', rfl⟩
    · simp [presented]
    obtain ⟨before, w₀, l₀, after, id₀, old, hpast, hold, rfl, hrest⟩ := hserves
    obtain ⟨before₁, w₁, l₁, after₁, rfl, hdrops, -, hlast⟩ := hrest
    obtain ⟨before₂, w₂, l₂, after₂, id₂, new, rfl, hnew, rfl, -⟩ := hlast
    have hhistory : past = after₂.reverse ++ (w₂, l₂) :: (before₂.reverse ++ (w₁, l₁) ::
        (before₁.reverse ++ (w₀, l₀) :: before.reverse)) := by
      simpa using congrArg List.reverse hpast
    subst hhistory
    have hne : new ≠ old := ne_of_dropped run.split_cons.1
      (List.Pairwise.sublist (List.sublist_append_right _ _) hdistinct) hdrops hnew
      (e := (w₀, l₀)) (by simp) hold
    simpa [presented] using hne.symm

/-- In a run whose replies grant lifetimes that can be added to the clock: there is one exchange
at a time, a `headers` call returns what it has minted itself or a token within its lifetime, and
after an `invalidate` a token that was minted after it, so that the retry of a status query does
not present the token that was rejected. A failing exchange leaves the credential alone exactly
when what it was granted fits. -/
theorem service_token_lifecycle (auth : ServiceTokenInternalAuth) (now : ℚ)
    (past : List (AuthPool × AuthAct)) (w w' : AuthPool) (l : AuthAct)
    (run : Run auth.scheduler.step (start now) past w)
    (hfits : ∀ e ∈ past, auth.Fits e.1 e.2) (hstep : auth.scheduler.step w l = some w') :
    (∀ id id', auth.Exchanging w id → auth.Exchanging w id' → id = id') ∧
    (∀ id token, auth.Returns w l id token →
      (∃ expiresIn, auth.Mints w l id token expiresIn) ∨
      ∃ newer w₀ l₀ older, past = newer ++ (w₀, l₀) :: older ∧ ∃ id₀ expiresIn,
        auth.Mints w₀ l₀ id₀ token expiresIn ∧
          w.shared.now < w₀.shared.now + auth.lifetime expiresIn) ∧
    (auth.FailsClean w l ↔ auth.Fits w l) ∧
    (∀ newer w₁ l₁ older, past = newer ++ (w₁, l₁) :: older → auth.Drops w₁ l₁ →
      ∀ id token, auth.Returns w l id token →
        (∃ e ∈ (w, l) :: newer, ∃ id₀ expiresIn, auth.Mints e.1 e.2 id₀ token expiresIn) ∧
        (auth.DistinctMints ((w, l) :: past) →
          ∀ e ∈ older, ∀ id₁ rejected, auth.Returns e.1 e.2 id₁ rejected → token ≠ rejected)) ∧
    ∀ (client : RemoteRevocationClient) (sdk : Sdk) (jti userId : String)
      (tr : List ClientTraceEvent) (outcome : Except PyExc JtiStatusResponse),
      (client.queryStatus sdk jti userId).run.Trace tr (.ret outcome) →
      auth.Serves tr ((w, l) :: past).reverse → auth.DistinctMints ((w, l) :: past) →
      (RemoteRevocationClient.presented tr).Nodup := by
  have hw := serialised run
  refine ⟨hw.alone, ?_, failsClean_iff hw hstep, ?_, ?_⟩
  · intro id token hreturns
    rcases minted_or_live hw hreturns with hmints | hlive
    · exact .inl hmints
    · exact .inr (minted_within run hfits hlive)
  · rintro newer w₁ l₁ older rfl hdrops id token hreturns
    obtain ⟨run₁, m, hdropped, run₂⟩ := run.split_cons
    refine ⟨minted_after_drop (serialised run₁) hdrops hdropped run₂ hreturns, ?_⟩
    intro hdistinct e he id₁ rejected hrejected
    exact ne_of_dropped run hdistinct hdrops hreturns he hrejected
  · intro client sdk jti userId tr outcome htr hserves hdistinct
    exact presented_nodup htr (run.next hstep) hserves hdistinct

/-- A consumer with a refresh leeway of 30 seconds. -/
def orders : ServiceTokenInternalAuth where
  clientId := "orders"
  exchangeHeaders := [(internalClientHeader, .text "orders"), (internalTokenHeader, .text "secret")]
  url := "http://auth:8000/user/private/v1/service-token"
  scopes := ["introspection"]
  leeway := 30

/-- The reply that grants a token. -/
def granting (token : String) (expiresIn : ℤ) : Response :=
  ⟨200, .json (.obj [("access_token", .str token), ("expires_in", .int expiresIn)])⟩

theorem grant_granting (token : String) (expiresIn : ℤ) :
    (granting token expiresIn).grant = .ok (.str token, expiresIn) := rfl

/-- The first call of a provider has started its exchange. -/
def firstExchange : AuthPool := (start 0).park 0 .headers (orders.exchanging, (start 0).shared.lock)

theorem step_firstExchange :
    orders.scheduler.step (start 0) (.spawn 0 .headers) = some firstExchange :=
  step_spawn_free rfl rfl

theorem firstExchange_tasks : firstExchange.tasks 0 = some ⟨.headers, orders.exchanging⟩ :=
  Pool.park_tasks_self _ _ _ _

theorem step_grant (text : String) {seconds : ℤ}
    (ht : w.tasks id = some ⟨.headers, auth.exchanging⟩)
    (hlimit : auth.lifetime seconds < floatLimit) :
    auth.scheduler.step w (.resume id (.reply (granting text seconds))) =
      some (w.park id .headers (.ret (bearer (.str text)),
        w.shared.keep (.str text) (w.shared.now + auth.lifetime seconds))) := by
  rw [step_resume_exchanging _ ht]
  simp only [AuthAnswer.outcome, Except.bind, grant_granting, exchanged, if_pos hlimit]

theorem step_find (id : ℕ) {token : Json} (hnew : w.tasks id = none)
    (hfree : w.shared.credential.locked = false) (hlive : w.shared.live? = some token) :
    auth.scheduler.step w (.spawn id .headers) =
      some (w.park id .headers (.ret (bearer token), w.shared)) := by
  rw [step_spawn_free hnew hfree, enter, hlive]

theorem lifetime_orders : orders.lifetime 300 < floatLimit := by decide +kernel

/-- The first call has cached a token that it was granted for 300 seconds. -/
def firstToken : AuthPool :=
  firstExchange.park 0 .headers (.ret (bearer (.str "token")),
    firstExchange.shared.keep (.str "token") (firstExchange.shared.now + orders.lifetime 300))

theorem step_firstToken :
    orders.scheduler.step firstExchange (.resume 0 (.reply (granting "token" 300))) =
      some firstToken := step_grant "token" firstExchange_tasks lifetime_orders

theorem run_firstToken : Run orders.scheduler.step (start 0)
    [(firstExchange, .resume 0 (.reply (granting "token" 300))), (start 0, .spawn 0 .headers)]
    firstToken := (Run.start.next step_firstExchange).next step_firstToken

/-- A second call returns the token that the first one was granted. -/
theorem service_token_lifecycle_cached :
    ∃ past w, Run orders.scheduler.step (start 0) past w ∧
      orders.Returns w (.spawn 1 .headers) 1 (.str "token") ∧
      ∃ newer w₀ l₀ older, past = newer ++ (w₀, l₀) :: older ∧ ∃ id₀ expiresIn,
        orders.Mints w₀ l₀ id₀ (.str "token") expiresIn ∧
          w.shared.now < w₀.shared.now + orders.lifetime expiresIn := by
  have hlive : firstToken.shared.live? = some (.str "token") :=
    AuthState.live?_eq_some.mpr ⟨rfl, by decide +kernel⟩
  have hsecond : orders.scheduler.step firstToken (.spawn 1 .headers) = some (firstToken.park 1
      .headers (.ret (bearer (.str "token")), firstToken.shared)) := step_find 1 rfl rfl hlive
  have hreturns : orders.Returns firstToken (.spawn 1 .headers) 1 (.str "token") :=
    ⟨_, hsecond, .inl ⟨.headers, rfl⟩, by simp [Pool.result]⟩
  have hfits : ∀ e ∈ [(firstExchange, Act.resume 0 (.reply (granting "token" 300))),
      (start 0, .spawn 0 .headers)], orders.Fits e.1 e.2 := by
    simp only [List.forall_mem_cons]
    refine ⟨?_, ?_, by simp⟩
    · intro id token expiresIn hmints
      have hgrant := (granted_of_mints hmints).2
      obtain ⟨rfl, rfl⟩ := Prod.mk.inj (Except.ok.inj hgrant)
      exact .inl lifetime_orders
    · rintro id token expiresIn ⟨r, heq, -⟩
      contradiction
  obtain ⟨-, htoken, -⟩ := service_token_lifecycle orders 0 _ _ _ _ run_firstToken hfits hsecond
  rcases htoken 1 _ hreturns with ⟨expiresIn, r, heq, -⟩ | hminted
  · contradiction
  · exact ⟨_, _, run_firstToken, hreturns, hminted⟩

/-- A lifetime of `10 ^ 400` seconds raises, and the token has been replaced. -/
theorem service_token_lifecycle_overflow :
    ¬ ∀ (auth : ServiceTokenInternalAuth) (now : ℚ) (past : List (AuthPool × AuthAct))
      (w w' : AuthPool) (l : AuthAct), Run auth.scheduler.step (start now) past w →
      auth.scheduler.step w l = some w' → auth.FailsClean w l := by
  intro h
  obtain ⟨seconds, hseconds⟩ : ∃ seconds : ℤ, seconds = 10 ^ 400 := ⟨_, rfl⟩
  have hlifetime : ¬ orders.lifetime seconds < floatLimit := by
    rw [hseconds]
    decide +kernel
  have hgranted := step_resume_exchanging (.reply (granting "token" seconds)) firstExchange_tasks
  simp only [AuthAnswer.outcome, Except.bind, grant_granting, exchanged, if_neg hlifetime]
    at hgranted
  have hclean := h orders 0 _ _ _ _ (Run.start.next step_firstExchange) hgranted
  obtain ⟨htoken, -⟩ := hclean _ 0 .overflowError hgranted
    (exchanging_of_tasks firstExchange_tasks) (.inr (.inl ⟨_, rfl⟩)) (by simp [Pool.result])
  contradiction

end ServiceTokenInternalAuth

end FastapiM8
