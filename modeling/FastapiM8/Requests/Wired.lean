import FastapiM8.InternalAuth.Lifecycle
import FastapiM8.Lib.Link
import FastapiM8.Requests.Exchange
import FastapiM8.Revocation.Wire

/-! A service together with the provider of its revocation client. Its requests run the provider's
coroutines as part of themselves, on a credential and a lock that all of them share. -/
namespace FastapiM8

open Prog

/-- What arrives for a request is an answer to its call, or to the provider that the call runs. -/
def WireOp.decode : (o : WireOp) → ClientAnswer ⊕ AuthAnswer → Option (WireAns o)
  | .inl o, .inl answer => o.decode answer
  | .inr o, .inr answer => o.decode answer
  | _, _ => none

abbrev WiredPool := Pool WireOp WireAns WireState Request (Except PyExc UserModel)

abbrev WiredAct := Act Request (ClientAnswer ⊕ AuthAnswer) DepsEvent

namespace AuthDeps

variable (deps : AuthDeps) (sdk : Sdk) (policy : PolicySdk)

/-- The requests of a service, with the provider that their calls await. -/
def wiredScheduler (provider : InternalAuthProvider) :
    Scheduler WireOp WireAns WireState Request (ClientAnswer ⊕ AuthAnswer) DepsEvent
      (Except PyExc UserModel) where
  body request := ((deps.scheduler sdk policy).body request).interp (wire provider)
  exec := WireOp.exec
  decode := WireOp.decode
  env s e := (e.apply deps sdk s.client).map fun client => { s with client }

/-- A service that has served no request yet, with a new provider. -/
def wiredStart (now : ℚ) : WiredPool := .idle ⟨(deps.start now).shared, .init⟩

end AuthDeps

/-- The headers that a call on the provider has returned. -/
def AuthReturn.sent : AuthReturn → Headers
  | .headers values => values
  | .dropped _ => []

/-- What a call on the provider has said about a retry. -/
def AuthReturn.retries : AuthReturn → Bool
  | .headers _ => false
  | .dropped retry => retry

/-- The call on the provider that an operation awaits, and what its outcome answers. -/
def ClientOp.authCall :
    (o : ClientOp) → Option (AuthCall × (Except PyExc AuthReturn → ClientAns o))
  | .authHeaders => some (.headers, fun outcome => outcome.map AuthReturn.sent)
  | .authInvalidate => some (.invalidate, fun outcome => outcome.map AuthReturn.retries)
  | _ => none

variable {client : RemoteRevocationClient} {sdk : Sdk} {deps : AuthDeps} {policy : PolicySdk}
  {auth : ServiceTokenInternalAuth}

/-- An operation of a call takes no time. -/
theorem ClientOp.now_exec {o : ClientOp} {s s' : ClientState} {a : ClientAns o}
    (h : o.exec s = some (a, s')) : s'.now = s.now := by
  obtain ⟨cache, now⟩ := s
  cases o with
  | authHeaders => contradiction
  | authInvalidate => contradiction
  | post request => contradiction
  | cacheGet jti =>
    cases cache <;>
    · obtain ⟨-, rfl⟩ := Prod.mk.inj (Option.some.inj h)
      rfl
  | cachePut jti userId g =>
    cases cache <;>
    · obtain ⟨-, rfl⟩ := Prod.mk.inj (Option.some.inj h)
      rfl
  | _ =>
    obtain ⟨-, rfl⟩ := Prod.mk.inj (Option.some.inj h)
    rfl

/-- An operation of a service on its cache takes no time. -/
theorem onClient_now (f : ClientState → ClientState) (hf : ∀ s, (f s).now = s.now)
    (s : ClientState) : (deps.onClient f s).now = s.now := by
  unfold AuthDeps.onClient
  split
  · exact hf s
  · rfl

theorem evictUser_now (s : ClientState) (userId : String) : (deps.evictUser s userId).now = s.now :=
  onClient_now (fun s => s.evictUser userId) (fun _ => rfl) s

theorem handleAuthEvent_now (event : AuthStreamEvent) (s : ClientState) :
    (deps.handleAuthEvent sdk s event).now = s.now := by
  unfold AuthDeps.handleAuthEvent
  simp only
  split
  · rfl
  · split
    · split
      · exact evictUser_now s _
      · rfl
    · rfl

/-- Of the events of a service only the passing of time is one for the provider, too. -/
theorem DepsEvent.now_apply {e : DepsEvent} {s s' : ClientState}
    (h : e.apply deps sdk s = some s') :
    s'.now = s.now ∨ ∃ seconds, 0 ≤ seconds ∧ s'.now = s.now + seconds := by
  cases e with
  | authEvent event =>
    obtain rfl := Option.some.inj h
    exact .inl (handleAuthEvent_now event s)
  | evictJti jti =>
    obtain rfl := Option.some.inj h
    exact .inl (onClient_now (fun s => s.evictJti jti) (fun _ => rfl) s)
  | evictUser userId =>
    obtain rfl := Option.some.inj h
    exact .inl (evictUser_now s userId)
  | flushCache =>
    obtain rfl := Option.some.inj h
    exact .inl (onClient_now ClientState.flushCache (fun _ => rfl) s)
  | advance seconds =>
    simp only [DepsEvent.apply] at h
    split at h
    next hnn =>
      obtain rfl := Option.some.inj h
      exact .inr ⟨seconds, hnn, rfl⟩
    next => contradiction

/-- A coroutine of the provider is the call that wraps its result. -/
theorem run_of_call {α : Type} (p : Py AuthOp AuthAns α) {f : α → AuthReturn} {g : AuthReturn → α}
    (h : ∀ a, g (f a) = a) : p.run = (p >>= fun a => pure (f a)).run >>= fun outcome =>
      .ret (outcome.map g) := by
  have hwrap : (p >>= fun a => pure (f a)).run = p.run >>= fun outcome => .ret (outcome.map f) :=
    Prog.bind_congr fun outcome => by cases outcome <;> rfl
  rw [hwrap, bind_assoc]
  refine (bind_ret p.run).symm.trans (Prog.bind_congr fun outcome => ?_)
  cases outcome with
  | error exc => rfl
  | ok a => simp [Except.map, h]

/-- A service is linked with its service-token provider. -/
def AuthDeps.links (deps : AuthDeps) (sdk : Sdk) (policy : PolicySdk)
    (auth : ServiceTokenInternalAuth) :
    (deps.wiredScheduler sdk policy (.serviceToken auth)).Links (deps.scheduler sdk policy)
      auth.scheduler where
  fst := WireState.client
  snd s := ⟨s.credential, s.client.now⟩
  link := wire (.serviceToken auth)
  call := ClientOp.authCall
  body_eq _ := rfl
  link_own o h := by
    cases o with
    | authHeaders => contradiction
    | authInvalidate => contradiction
    | _ => rfl
  link_call o c reply h := by
    cases o with
    | authHeaders =>
      obtain ⟨rfl, rfl⟩ := Prod.mk.inj (Option.some.inj h)
      exact (congrArg Prog.inr (run_of_call auth.headers fun _ => rfl)).trans (inr_bind _ _)
    | authInvalidate =>
      obtain ⟨rfl, rfl⟩ := Prod.mk.inj (Option.some.inj h)
      exact (congrArg Prog.inr (run_of_call ServiceTokenInternalAuth.invalidate fun _ => rfl)).trans
        (inr_bind _ _)
    | _ => contradiction
  exec_own o t := by
    cases h : o.exec t.client with
    | none => simp [AuthDeps.wiredScheduler, AuthDeps.scheduler, WireOp.exec, h]
    | some r =>
      have hnow : r.2.now = t.client.now := ClientOp.now_exec h
      simp [AuthDeps.wiredScheduler, AuthDeps.scheduler, WireOp.exec, h, hnow]
  exec_service o t := by
    simp [AuthDeps.wiredScheduler, ServiceTokenInternalAuth.scheduler, WireOp.exec, AuthState.exec,
      Option.map_map, Function.comp_def]
  exec_call o c s h := by
    cases o with
    | authHeaders => rfl
    | authInvalidate => rfl
    | _ => contradiction
  decode_own o answer a h := by
    cases answer with
    | inl answer => exact ⟨answer, h⟩
    | inr answer => contradiction
  decode_service o answer a h := by
    cases answer with
    | inl answer => contradiction
    | inr answer => exact ⟨answer, h⟩
  decode_reply o c reply r h := by
    cases o with
    | authHeaders =>
      obtain ⟨rfl, rfl⟩ := Prod.mk.inj (Option.some.inj h)
      cases r with
      | error exc => exact ⟨.raises exc, rfl⟩
      | ok returned => exact ⟨.headers returned.sent, rfl⟩
    | authInvalidate =>
      obtain ⟨rfl, rfl⟩ := Prod.mk.inj (Option.some.inj h)
      cases r with
      | error exc => exact ⟨.raises exc, rfl⟩
      | ok returned => exact ⟨.invalidated returned.retries, rfl⟩
    | _ => contradiction
  env_own t e t' h := by
    obtain ⟨s, hs, rfl⟩ := Option.map_eq_some_iff.mp h
    exact .inr ⟨e, hs⟩
  env_service t e t' h := by
    obtain ⟨s, hs, rfl⟩ := Option.map_eq_some_iff.mp h
    rcases DepsEvent.now_apply hs with hnow | ⟨seconds, hnn, hnow⟩
    · exact .inl (by rw [hnow])
    · refine .inr ⟨seconds, ?_⟩
      simp [ServiceTokenInternalAuth.scheduler, AuthState.advance, hnn, hnow]

namespace ServiceTokenInternalAuth

variable {u u' : AuthPool} {past : List (AuthPool × AuthAct)} {l : AuthAct} {callId : ℕ} {now : ℚ}

/-- A call that ends well has returned a token, or has dropped the one that was cached. -/
theorem ended_ok (hu : auth.Serialised u) (hstep : auth.scheduler.step u l = some u')
    (hruns : l.Runs callId) {call : AuthCall} {r : AuthReturn}
    (ht : u'.tasks callId = some ⟨call, .ret (.ok r)⟩) :
    (call = .headers ∧ ∃ token, r = .headers [(authorizationHeader, .bearer token)] ∧
      auth.Returns u l callId token) ∨ (call = .invalidate ∧ auth.Drops u l) := by
  have hreturns : ∀ token, Except.ok r = bearer token →
      r = .headers [(authorizationHeader, .bearer token)] ∧ auth.Returns u l callId token := by
    intro token hbearer
    refine ⟨Except.ok.inj hbearer, u', hstep, hruns, ?_⟩
    rw [Pool.result, ht, ← hbearer]
  cases move_of_step hu hstep with
  | waits id' call' hnew hlocked =>
    obtain rfl := hruns.unique (.inl ⟨call', rfl⟩)
    simp [waiting] at ht
  | enters l id' call' henters =>
    obtain rfl := hruns.unique henters.runs
    rw [Pool.park_tasks_self] at ht
    cases call' with
    | invalidate =>
      cases ht
      exact .inr ⟨rfl, callId, henters⟩
    | headers =>
      rw [enter] at ht
      cases hlive : u.shared.live? with
      | none => simp [hlive, exchanging] at ht
      | some token =>
        simp only [hlive, Option.some.injEq, Thread.mk.injEq, Prog.ret.injEq] at ht
        exact .inl ⟨ht.1.symm, token, hreturns token ht.2.symm⟩
  | refused id' call' exc hwaiting =>
    obtain rfl := hruns.unique (.inr (.inl ⟨_, rfl⟩))
    simp at ht
  | answered id' answer hexchanging =>
    obtain rfl := hruns.unique (.inr (.inl ⟨_, rfl⟩))
    rw [Pool.park_tasks_self] at ht
    rcases hgranted : answer.outcome.bind Response.grant with exc | ⟨token, expiresIn⟩
    · simp [hgranted, exchanged] at ht
    · rw [hgranted, exchanged] at ht
      split at ht
      · simp only [Option.some.injEq, Thread.mk.injEq, Prog.ret.injEq] at ht
        exact .inl ⟨ht.1.symm, token, hreturns token ht.2.symm⟩
      · simp at ht
  | advances seconds hnn =>
    rcases hruns with ⟨_, heq⟩ | ⟨_, heq⟩ | heq <;> contradiction

/-- A `headers` call that has ended well returned its token in a step of the run. -/
theorem returned_of_run (run : Run auth.scheduler.step (start now) past u) {r : AuthReturn}
    (ht : u.tasks callId = some ⟨.headers, .ret (.ok r)⟩) :
    ∃ token, r = .headers [(authorizationHeader, .bearer token)] ∧
      ∃ e ∈ past, auth.Returns e.1 e.2 callId token := by
  obtain ⟨newer, u₁, l₁, older, u₂, rfl, hstep, hruns, hended⟩ := Scheduler.ended_of_run run ht
  rcases ended_ok (serialised run.split_cons.1) hstep hruns hended with
    ⟨-, token, hr, hreturns⟩ | ⟨hcall, -⟩
  · exact ⟨token, hr, (u₁, l₁), by simp, hreturns⟩
  · contradiction

/-- The lock is held by a call whose exchange is in flight. -/
theorem exchanging_of_locked (run : Run auth.scheduler.step (start now) past u)
    (hlocked : u.shared.credential.locked = true) : ∃ callId, auth.Exchanging u callId := by
  have hinv : ∀ u l u', auth.Serialised u ∧
      (u.shared.credential.locked = true → ∃ callId, auth.Exchanging u callId) →
      auth.scheduler.step u l = some u' → auth.Serialised u' ∧
      (u'.shared.credential.locked = true → ∃ callId, auth.Exchanging u' callId) := by
    rintro u l u' ⟨hu, hheld⟩ hstep
    refine ⟨serialised_step u l u' hu hstep, ?_⟩
    intro hlocked
    -- a call that waits or was refused leaves the lock to the one that has it
    have hother : ∀ {id call} {p : AuthProg}, u' = u.park id call (p, u.shared) →
        ¬ auth.Exchanging u id → ∃ callId, auth.Exchanging u' callId := by
      rintro id call p rfl hnot
      obtain ⟨callId, hcall⟩ := hheld hlocked
      refine ⟨callId, ?_⟩
      have hne : callId ≠ id := fun heq => hnot (heq ▸ hcall)
      rw [Exchanging, Pool.awaits, Pool.park_tasks_of_ne u call _ hne]
      exact hcall
    cases move_of_step hu hstep with
    | waits id call hnew hlock => exact hother rfl (by simp [Exchanging, Pool.awaits, hnew])
    | enters l id call henters =>
      refine ⟨id, ?_⟩
      rw [Exchanging, Pool.awaits_park_self]
      rw [Pool.park_shared] at hlocked
      cases call with
      | invalidate => contradiction
      | headers =>
        rw [enter] at hlocked ⊢
        cases hlive : u.shared.live? with
        | none => rfl
        | some token =>
          simp only [hlive] at hlocked
          rw [henters.1] at hlocked
          contradiction
    | refused id call exc ht => exact hother rfl (by simp [Exchanging, Pool.awaits, ht, waiting])
    | answered id answer ht =>
      rw [Pool.park_shared] at hlocked
      unfold exchanged at hlocked
      split at hlocked
      · contradiction
      · split at hlocked <;> contradiction
    | advances seconds hnn => exact hheld hlocked
  exact (run.invariant hinv ⟨serialised_idle _, fun h => by contradiction⟩).2 hlocked

/-- The event is the reply of the issuer that grants the token to an exchange. -/
def GrantedBy (auth : ServiceTokenInternalAuth) (token : Json) (e : Event AuthOp AuthAns) : Prop :=
  ∃ response expiresIn, e = ⟨.exchange auth.request, .ok response⟩ ∧
    response.Grants token expiresIn

/-- No two replies grant the same token. -/
def DistinctGrants (auth : ServiceTokenInternalAuth) (answers : List (Event AuthOp AuthAns)) :
    Prop :=
  answers.Pairwise fun e e' => ∀ token, auth.GrantedBy token e → ¬ auth.GrantedBy token e'

/-- What a step mints is granted by the reply that arrives in it. -/
theorem arrival_of_mints {token : Json} {expiresIn : ℤ}
    (h : auth.Mints u l callId token expiresIn) :
    ∃ e, auth.scheduler.arrival u l = some e ∧ auth.GrantedBy token e := by
  obtain ⟨response, rfl, hexchanging, hgrants⟩ := h
  obtain ⟨call, k, ht⟩ := Pool.awaits_eq_some hexchanging
  exact ⟨_, Scheduler.arrival_resume ht rfl, response, expiresIn, rfl, hgrants⟩

theorem granted_of_returns (run : Run auth.scheduler.step (start now) past u) {token : Json}
    {e : AuthPool × AuthAct} (he : e ∈ past) (hreturns : auth.Returns e.1 e.2 callId token) :
    ∃ answer ∈ auth.scheduler.arrivals past, auth.GrantedBy token answer := by
  obtain ⟨newer, older, rfl⟩ := List.append_of_mem he
  obtain ⟨e', he', id, expiresIn, hmints⟩ := minted_of_returns run.split_cons.1 hreturns
  obtain ⟨answer, harrival, hgranted⟩ := arrival_of_mints hmints
  refine ⟨answer, List.mem_reverse.mpr (List.mem_filterMap.mpr ⟨e', ?_, harrival⟩), hgranted⟩
  exact List.mem_append_right _ he'

theorem distinctMints_of_grants (h : auth.DistinctGrants (auth.scheduler.arrivals past)) :
    auth.DistinctMints past := by
  refine (List.pairwise_filterMap.mp (List.pairwise_reverse.mp h)).imp ?_
  intro a b hdistinct token id₁ e₁ id₂ e₂ hfirst hsecond
  obtain ⟨answer, harrival, hgranted⟩ := arrival_of_mints hfirst
  obtain ⟨answer', harrival', hgranted'⟩ := arrival_of_mints hsecond
  exact hdistinct answer harrival answer' harrival' token hgranted' hgranted

/-- Calls made one after the other: what a `headers` call returns after an `invalidate` is not
what one returned before it. -/
theorem renewed_differs (run : Run auth.scheduler.step (start now) past u)
    (hordered : ∀ x ∈ past, ∀ id n, x.2.Runs (Nat.pair id (n + 1)) →
      ∃ c r, x.1.tasks (Nat.pair id n) = some ⟨c, .ret r⟩)
    (hdistinct : auth.DistinctMints past) {id n : ℕ} {r₀ r₁ r₂ : AuthReturn}
    (h₀ : u.tasks (Nat.pair id n) = some ⟨.headers, .ret (.ok r₀)⟩)
    (h₁ : u.tasks (Nat.pair id (n + 1)) = some ⟨.invalidate, .ret (.ok r₁)⟩)
    (h₂ : u.tasks (Nat.pair id (n + 2)) = some ⟨.headers, .ret (.ok r₂)⟩) : r₀.sent ≠ r₂.sent := by
  -- the second `headers` call ends when the `invalidate` has, which ends when the first one has
  obtain ⟨newer, u₂, l₂, older, u₂', rfl, hstep₂, hruns₂, hended₂, c₁, r₁', hbefore₂⟩ :=
    Scheduler.Links.ended_in_order run hordered h₂
  obtain ⟨run₂, m, hm, later⟩ := run.split_cons
  have hkept : ∀ {callId call outcome}, u₂.tasks callId = some ⟨call, .ret outcome⟩ →
      u.tasks callId = some ⟨call, .ret outcome⟩ :=
    fun ht => Scheduler.run_done later (Scheduler.step_done hm ht)
  obtain ⟨rfl, rfl⟩ : c₁ = .invalidate ∧ r₁' = .ok r₁ := by
    simpa using (hkept hbefore₂).symm.trans h₁
  obtain ⟨newer', u₁, l₁, older', u₁', rfl, hstep₁, hruns₁, hended₁, c₀, r₀', hbefore₁⟩ :=
    Scheduler.Links.ended_in_order run₂ (fun x hx => hordered x (by simp [hx])) hbefore₂
  obtain ⟨run₁, m', hm', later'⟩ := run₂.split_cons
  obtain ⟨rfl, rfl⟩ : c₀ = .headers ∧ r₀' = .ok r₀ := by
    simpa using (hkept (Scheduler.run_done later' (Scheduler.step_done hm' hbefore₁))).symm.trans h₀
  obtain ⟨old, rfl, e, he, hold⟩ := returned_of_run run₁ hbefore₁
  rcases ended_ok (serialised run₁) hstep₁ hruns₁ hended₁ with ⟨hcall, -⟩ | ⟨-, hdrops⟩
  · contradiction
  rcases ended_ok (serialised run₂) hstep₂ hruns₂ hended₂ with ⟨-, new, rfl, hnew⟩ | ⟨hcall, -⟩
  · have hne := ne_of_dropped run₂ (hdistinct.sublist (List.sublist_append_right newer _)) hdrops
      hnew he hold
    intro hsame
    simp only [AuthReturn.sent, List.cons.injEq, Prod.mk.injEq, HeaderValue.bearer.injEq, true_and,
      and_true] at hsame
    exact hne hsame.symm
  · contradiction

end ServiceTokenInternalAuth

section Wired

variable {now : ℚ} {past : List (WiredPool × WiredAct)} {w : WiredPool}
  {pastM : List (DepsPool × DepsAct)} {v : DepsPool} {pastN : List (AuthPool × AuthAct)}
  {u : AuthPool}

/-- What the issuer answered to a request, leaving out the replies to exchanges. -/
def statusAnswers (deps : AuthDeps) (sdk : Sdk) (policy : PolicySdk)
    (auth : ServiceTokenInternalAuth) (id : ℕ) (past : List (WiredPool × WiredAct)) :
    List ClientTraceEvent :=
  ((deps.wiredScheduler sdk policy (.serviceToken auth)).deliveries id past).filterMap leftEvent

/-- What the provider was answered, whichever request ran it. -/
def providerAnswers (deps : AuthDeps) (sdk : Sdk) (policy : PolicySdk)
    (auth : ServiceTokenInternalAuth) (past : List (WiredPool × WiredAct)) :
    List (Event AuthOp AuthAns) :=
  ((deps.wiredScheduler sdk policy (.serviceToken auth)).arrivals past).filterMap rightEvent

/-- A request waits for the reply to its exchange. -/
def Exchanges (auth : ServiceTokenInternalAuth) (w : WiredPool) (id : ℕ) : Prop :=
  w.awaits id = some (.inr (.exchange auth.request))

/-- A run of the wired service, and the runs of its requests and of its provider. -/
abbrev Wires (deps : AuthDeps) (sdk : Sdk) (policy : PolicySdk) (auth : ServiceTokenInternalAuth)
    (now : ℚ) (past : List (WiredPool × WiredAct)) (w : WiredPool)
    (pastM : List (DepsPool × DepsAct)) (v : DepsPool) (pastN : List (AuthPool × AuthAct))
    (u : AuthPool) : Prop :=
  (deps.links sdk policy auth).Splits ⟨(deps.start now).shared, .init⟩ past w pastM v pastN u

theorem now_start (deps : AuthDeps) (now : ℚ) : (deps.start now).shared.now = now := by
  unfold AuthDeps.start
  cases deps.revocationClient <;> rfl

theorem Wires.service_run (h : Wires deps sdk policy auth now past w pastM v pastN u) :
    Run auth.scheduler.step (ServiceTokenInternalAuth.start now) pastN u := by
  have run := h.service
  simp only [AuthDeps.links, now_start] at run
  exact run

/-- No two requests exchange at once. -/
theorem Wires.alone (h : Wires deps sdk policy auth now past w pastM v pastN u) {id id' : ℕ}
    (hid : Exchanges auth w id) (hid' : Exchanges auth w id') : id = id' := by
  have hw := ServiceTokenInternalAuth.serialised h.service_run
  exact (Nat.pair_eq_pair.mp (hw.alone _ _ (h.waits_service hid) (h.waits_service hid'))).1

/-- A request that waits for the lock can take it, or another one has its exchange in flight. -/
theorem Wires.lock_progress (h : Wires deps sdk policy auth now past w pastM v pastN u) {id : ℕ}
    (hwaits : w.awaits id = some (.inr .lockAcquire)) :
    (∃ w', (deps.wiredScheduler sdk policy (.serviceToken auth)).step w (.wake id) = some w') ∨
      ∃ id', Exchanges auth w id' := by
  cases hlocked : w.shared.credential.locked with
  | false =>
    obtain ⟨request, k, ht⟩ := Pool.awaits_eq_some hwaits
    have hexec : WireOp.exec (.inr .lockAcquire) w.shared = some (.ok (),
        { w.shared with credential := { w.shared.credential with locked := true } }) := by
      simp [WireOp.exec, AuthOp.exec, hlocked]
    exact .inl ⟨_, Scheduler.step_wake_iff.mpr ⟨request, _, k, _, _, ht, hexec, rfl⟩⟩
  | true =>
    have hheld : u.shared.credential.locked = true := by
      rw [h.snd_eq]
      exact hlocked
    obtain ⟨callId, hcall⟩ := ServiceTokenInternalAuth.exchanging_of_locked h.service_run hheld
    exact .inr (h.waiting_call hcall)

theorem answers_headers {callId : ℕ} {headers : Headers}
    (h : (deps.links sdk policy auth).Answers u callId ⟨.authHeaders, .ok headers⟩) :
    ∃ r, u.tasks callId = some ⟨.headers, .ret (.ok r)⟩ ∧ r.sent = headers := by
  obtain ⟨call, reply, outcome, hcall, ht, hreply⟩ := h
  obtain ⟨rfl, rfl⟩ := Prod.mk.inj (Option.some.inj hcall)
  cases outcome with
  | error exc => contradiction
  | ok r => exact ⟨r, ht, (Except.ok.inj hreply).symm⟩

theorem answers_invalidate {callId : ℕ} {retry : Bool}
    (h : (deps.links sdk policy auth).Answers u callId ⟨.authInvalidate, .ok retry⟩) :
    ∃ r, u.tasks callId = some ⟨.invalidate, .ret (.ok r)⟩ := by
  obtain ⟨call, reply, outcome, hcall, ht, hreply⟩ := h
  obtain ⟨rfl, rfl⟩ := Prod.mk.inj (Option.some.inj hcall)
  cases outcome with
  | error exc => contradiction
  | ok r => exact ⟨r, ht⟩

/-- A request in flight is asked for by the exchange of its client. -/
theorem Wires.exchange (hclient : deps.revocationClient = some client)
    (h : Wires deps sdk policy auth now past w pastM v pastN u) {id : ℕ} {status : StatusRequest}
    (hstatus : w.awaits id = some (.inl (.post status))) :
    ∃ payload : TokenPayload, Exchange client payload.jti payload.sub
      ((deps.scheduler sdk policy).deliveries id pastM) (.post status) := by
  obtain ⟨hv, -⟩ := h.waits_own hstatus
  obtain ⟨request, k, ht⟩ := Pool.awaits_eq_some hv
  obtain ⟨payload, -, hexchange⟩ := (Scheduler.protocol_of_run ClientOp.exec_eq_none_iff
    (watches_request hclient) h.client ht).2 _ rfl
  exact ⟨payload, hexchange⟩

variable {jti userId : String} {tr : List ClientTraceEvent} {status first : StatusRequest}
  {answer : Except PyExc Response}

/-- A status request shows headers that the provider returned. -/
theorem Exchange.shown (h : Exchange client jti userId tr (.post status)) :
    (⟨.authHeaders, .ok status.headers⟩ : ClientTraceEvent) ∈ tr := by
  cases h with
  | ask headers => exact List.mem_singleton.mpr rfl
  | askAgain rejected headers => exact List.mem_append_right _ (List.mem_singleton.mpr rfl)

/-- A second status request follows an `invalidate` and new headers. -/
theorem Exchange.retried (h : Exchange client jti userId tr (.post status))
    (hfirst : (⟨.post first, answer⟩ : ClientTraceEvent) ∈ tr) :
    tr = [⟨.authHeaders, .ok first.headers⟩, ⟨.post first, answer⟩, ⟨.authInvalidate, .ok true⟩,
      ⟨.authHeaders, .ok status.headers⟩] := by
  cases h with
  | ask headers => simp at hfirst
  | askAgain rejected headers =>
    generalize Except.error (PyExc.httpStatusError 401) = outcome at rejected
    cases rejected with
    | unsent exc => simp at hfirst
    | sent headers' answer' =>
      have hsame : first = client.statusRequest jti userId headers' ∧ answer = answer' := by
        simpa using hfirst
      obtain ⟨rfl, rfl⟩ := hsame
      rfl

/-- What a status request in flight shows was granted by the issuer in this run. -/
theorem Wires.granted (hclient : deps.revocationClient = some client)
    (h : Wires deps sdk policy auth now past w pastM v pastN u) {id : ℕ}
    (hstatus : w.awaits id = some (.inl (.post status))) :
    ∃ token, status.headers = [(authorizationHeader, .bearer token)] ∧
      ∃ answer ∈ providerAnswers deps sdk policy auth past, auth.GrantedBy token answer := by
  obtain ⟨payload, hexchange⟩ := h.exchange hclient hstatus
  obtain ⟨n, hanswers⟩ := h.toJoint.answered_mem hexchange.shown rfl
  obtain ⟨r, hr, hsent⟩ := answers_headers hanswers
  obtain ⟨token, rfl, e, he, hreturns⟩ :=
    ServiceTokenInternalAuth.returned_of_run h.service_run hr
  obtain ⟨reply, hreply, hgranted⟩ :=
    ServiceTokenInternalAuth.granted_of_returns h.service_run he hreturns
  rw [h.arrived_eq] at hreply
  exact ⟨token, hsent.symm, reply, hreply, hgranted⟩

/-- A rejected token is not shown again. -/
theorem Wires.retry_differs (hclient : deps.revocationClient = some client)
    (h : Wires deps sdk policy auth now past w pastM v pastN u)
    (hdistinct : auth.DistinctGrants (providerAnswers deps sdk policy auth past)) {id : ℕ}
    (hfirst : ⟨.post first, answer⟩ ∈ statusAnswers deps sdk policy auth id past)
    (hstatus : w.awaits id = some (.inl (.post status))) : first.headers ≠ status.headers := by
  obtain ⟨payload, hexchange⟩ := h.exchange hclient hstatus
  have hmem : ⟨.post first, answer⟩ ∈ (deps.links sdk policy auth).own
      ((deps.scheduler sdk policy).deliveries id pastM) := by
    rw [h.owned_eq]
    exact hfirst
  have htr := hexchange.retried (List.mem_filter.mp hmem).1
  have hserved : (deps.links sdk policy auth).served
      ((deps.scheduler sdk policy).deliveries id pastM) =
        [⟨.authHeaders, .ok first.headers⟩, ⟨.authInvalidate, .ok true⟩,
          ⟨.authHeaders, .ok status.headers⟩] := by
    rw [htr]
    rfl
  have hanswered := h.answered id
  rw [hserved] at hanswered
  obtain ⟨r₀, h₀, hsent₀⟩ := answers_headers (hanswered 0 _ rfl)
  obtain ⟨r₁, h₁⟩ := answers_invalidate (hanswered 1 _ rfl)
  obtain ⟨r₂, h₂, hsent₂⟩ := answers_headers (hanswered 2 _ rfl)
  have hgrants : auth.DistinctGrants (auth.scheduler.arrivals pastN) := by
    rw [h.arrived_eq]
    exact hdistinct
  rw [← hsent₀, ← hsent₂]
  exact ServiceTokenInternalAuth.renewed_differs h.service_run h.ordered
    (ServiceTokenInternalAuth.distinctMints_of_grants hgrants) h₀ h₁ h₂

/-- A stateful service with a service-token provider is a run of its requests and a run of the
provider, whose calls answer them. However the requests interleave, at most one of them waits for
an exchange, and one that waits for the lock can take it or waits for that exchange. Every status
request in flight shows a token that a reply to an exchange of this run grants; when no two replies
grant the same token, a request that was answered once does not show the same headers again. -/
theorem wired_requests (hclient : deps.revocationClient = some client)
    (hauth : client.auth = .serviceToken auth)
    (run : Run (deps.wiredScheduler sdk policy client.auth).step (deps.wiredStart now) past w) :
    (∃ pastM v pastN u, Run (deps.scheduler sdk policy).step (deps.start now) pastM v ∧
      Run auth.scheduler.step (ServiceTokenInternalAuth.start now) pastN u ∧
      v.shared = w.shared.client ∧ u.shared = ⟨w.shared.credential, w.shared.client.now⟩ ∧
      (∀ id request verdict, w.tasks id = some ⟨request, .ret verdict⟩ →
        v.tasks id = some ⟨request, .ret verdict⟩) ∧
      ∀ id headers, (⟨.authHeaders, .ok headers⟩ : ClientTraceEvent) ∈
          (deps.scheduler sdk policy).deliveries id pastM →
        ∃ callId, u.result callId = some (.ok (.headers headers))) ∧
    (∀ id id', Exchanges auth w id → Exchanges auth w id' → id = id') ∧
    (∀ id, w.awaits id = some (.inr .lockAcquire) →
      (∃ w', (deps.wiredScheduler sdk policy client.auth).step w (.wake id) = some w') ∨
        ∃ id', Exchanges auth w id') ∧
    ∀ id status, w.awaits id = some (.inl (.post status)) →
      (∃ token, status.headers = [(authorizationHeader, .bearer token)] ∧
        ∃ answer ∈ providerAnswers deps sdk policy auth past, auth.GrantedBy token answer) ∧
      (auth.DistinctGrants (providerAnswers deps sdk policy auth past) →
        ∀ first answer, ⟨.post first, answer⟩ ∈ statusAnswers deps sdk policy auth id past →
          first.headers ≠ status.headers) := by
  rw [hauth] at run ⊢
  obtain ⟨pastM, v, pastN, u, h⟩ :=
    Scheduler.Links.splits_of_run (deps.links sdk policy auth) run
  have hwires : Wires deps sdk policy auth now past w pastM v pastN u := h
  refine ⟨⟨pastM, v, pastN, u, h.client, hwires.service_run, h.fst_eq, h.snd_eq,
    fun id request verdict => h.finished, ?_⟩, fun id id' => hwires.alone,
    fun id => hwires.lock_progress, ?_⟩
  · intro id headers hmem
    obtain ⟨n, hanswers⟩ := h.toJoint.answered_mem hmem rfl
    obtain ⟨r, hr, rfl⟩ := answers_headers hanswers
    obtain ⟨token, rfl, -⟩ := ServiceTokenInternalAuth.returned_of_run hwires.service_run hr
    exact ⟨_, by rw [Pool.result, hr]; rfl⟩
  · intro id status hstatus
    exact ⟨hwires.granted hclient hstatus, fun hdistinct first answer hfirst =>
      hwires.retry_differs hclient hdistinct hfirst hstatus⟩

/-- A service whose revocation client exchanges its credential for service tokens. -/
def ordersDeps : AuthDeps where
  revocationClient := some ⟨"http://auth:8000/user/private/v1/jti-status", "2",
    .serviceToken ServiceTokenInternalAuth.orders, true, 30⟩

/-- The issuer rejects the first service token of a request. It exchanges its credential for a
second one, while another request waits for the lock. -/
def rejectedToken : List WiredAct :=
  [.spawn 0 generalRequest,
    .resume 0 (.inr (.reply (ServiceTokenInternalAuth.granting "first" 300))),
    .resume 0 (.inl (.response ⟨401, .malformed⟩)), .spawn 1 generalRequest,
    .resume 0 (.inr (.reply (ServiceTokenInternalAuth.granting "second" 300)))]

/-- The request waits for the issuer, or for the lock of the provider. -/
def WiredPool.waitsForIssuer (w : WiredPool) (id : ℕ) : Bool :=
  (w.awaits id).any fun o => o.elim ClientOp.isPost fun _ => false

def WiredPool.waitsForLock (w : WiredPool) (id : ℕ) : Bool :=
  (w.awaits id).any fun o => o.elim (fun _ => false) fun o => match o with
    | .lockAcquire => true
    | _ => false

theorem wired_requests_rejected :
    ∃ past w status token, Run (ordersDeps.wiredScheduler v2Sdk rankedPolicy
        (.serviceToken ServiceTokenInternalAuth.orders)).step (ordersDeps.wiredStart 0) past w ∧
      past.map Prod.snd = rejectedToken.reverse ∧
      w.awaits 0 = some (.inl (.post status)) ∧
      status.headers = [(authorizationHeader, .bearer token)] ∧
      (∃ answer ∈ providerAnswers ordersDeps v2Sdk rankedPolicy ServiceTokenInternalAuth.orders
        past, ServiceTokenInternalAuth.orders.GrantedBy token answer) ∧
      w.awaits 1 = some (.inr .lockAcquire) ∧
      ((∃ w', (ordersDeps.wiredScheduler v2Sdk rankedPolicy
        (.serviceToken ServiceTokenInternalAuth.orders)).step w (.wake 1) = some w') ∨
        ∃ id', Exchanges ServiceTokenInternalAuth.orders w id') := by
  have heval : (rejectedToken.foldlM (ordersDeps.wiredScheduler v2Sdk rankedPolicy
      (.serviceToken ServiceTokenInternalAuth.orders)).step (ordersDeps.wiredStart 0)).any
      (fun w => WiredPool.waitsForIssuer w 0 && WiredPool.waitsForLock w 1) = true := by
    decide +kernel
  obtain ⟨w, hw, hwaits⟩ := (Option.any_eq_true _ _).mp heval
  obtain ⟨past, run, hlabels⟩ := Run.of_foldlM hw
  obtain ⟨hissuer, hlock⟩ := Bool.and_eq_true_iff.mp hwaits
  obtain ⟨o, ho, hpost⟩ := (Option.any_eq_true _ _).mp hissuer
  obtain ⟨status, rfl⟩ : ∃ status, o = .inl (.post status) := by
    rcases o with (_ | _ | status | _ | _ | _ | _) | o <;> first | exact ⟨_, rfl⟩ | contradiction
  obtain ⟨o', ho', hacquire⟩ := (Option.any_eq_true _ _).mp hlock
  obtain rfl : o' = .inr .lockAcquire := by
    rcases o' with o' | o'
    · contradiction
    · cases o' <;> first | rfl | contradiction
  obtain ⟨-, -, hwakes, hcredentials⟩ := wired_requests rfl rfl run
  obtain ⟨⟨token, hheaders, hgranted⟩, -⟩ := hcredentials 0 status ho
  exact ⟨past, w, status, token, run, hlabels, ho, hheaders, hgranted, ho', hwakes 1 ho'⟩

end Wired

end FastapiM8
