import FastapiM8.InternalAuth.Segments
import FastapiM8.Lib.Pool

/-! The calls on a service-token provider that run on one event loop: what a step of them can
do, and the lock that keeps their exchanges apart. -/
namespace FastapiM8

inductive AuthCall where
  | headers
  | invalidate
  deriving DecidableEq

/-- What a call on the provider returns. -/
inductive AuthReturn where
  | headers (headers : Headers)
  | dropped (retry : Bool)

/-- The shared credential and the monotonic clock. -/
structure AuthState where
  credential : CredentialState
  now : ℚ

namespace AuthState

def exec (o : AuthOp) (s : AuthState) : Option (AuthAns o × AuthState) :=
  (o.exec s.now s.credential).map fun r => (r.1, { s with credential := r.2 })

/-- Between the segments of the calls only time passes. -/
def advance (s : AuthState) (seconds : ℚ) : Option AuthState :=
  if 0 ≤ seconds then some { s with now := s.now + seconds } else none

/-- The cached token with its expiry. -/
def cached? (s : AuthState) : Option (Json × ℚ) :=
  s.credential.token.map (·, s.credential.expiresAt)

/-- The cached token, while it is live. -/
def live? (s : AuthState) : Option Json :=
  s.credential.token.filter fun _ => s.now < s.credential.expiresAt

theorem live?_eq_some {s : AuthState} {token : Json} :
    s.live? = some token ↔ s.credential.token = some token ∧ s.now < s.credential.expiresAt := by
  simp [live?, Option.filter_eq_some_iff]

def lock (s : AuthState) : AuthState :=
  { s with credential := { s.credential with locked := true } }

def unlock (s : AuthState) : AuthState :=
  { s with credential := { s.credential with locked := false } }

/-- Cache a token, and leave the lock. -/
def keep (s : AuthState) (token : Json) (expiresAt : ℚ) : AuthState :=
  { s with credential := ⟨token.orNone, expiresAt, false⟩ }

/-- Drop the cached token, and leave the lock. -/
def drop (s : AuthState) : AuthState := { s with credential := ⟨none, 0, false⟩ }

end AuthState

/-- What can arrive for a suspended call: the reply to its exchange, or an exception. -/
inductive AuthAnswer where
  | reply (response : Response)
  | raises (exc : PyExc)

def AuthAnswer.outcome : AuthAnswer → Except PyExc Response
  | .reply response => .ok response
  | .raises exc => .error exc

def AuthOp.decode : (o : AuthOp) → AuthAnswer → Option (AuthAns o)
  | .exchange _, answer => some answer.outcome
  | .lockAcquire, .raises exc => some (.error exc)
  | _, _ => none

abbrev AuthPool := Pool AuthOp AuthAns AuthState AuthCall (Except PyExc AuthReturn)

abbrev AuthAct := Act AuthCall AuthAnswer ℚ

/-- A program of a call on the provider. -/
abbrev AuthProg := Prog AuthOp AuthAns (Except PyExc AuthReturn)

namespace ServiceTokenInternalAuth

variable (auth : ServiceTokenInternalAuth)

def call : AuthCall → Py AuthOp AuthAns AuthReturn
  | .headers => do
    let headers ← auth.headers
    return .headers headers
  | .invalidate => do
    let retry ← invalidate
    return .dropped retry

/-- The calls on one provider. -/
def scheduler :
    Scheduler AuthOp AuthAns AuthState AuthCall AuthAnswer ℚ (Except PyExc AuthReturn) where
  body call := (auth.call call).run
  exec := AuthState.exec
  decode := AuthOp.decode
  env := AuthState.advance

/-- A new provider: nothing is cached, and no call was made yet. -/
def start (now : ℚ) : AuthPool := .idle ⟨.init, now⟩

/-- A `headers` call that returns its token. -/
def bearer (token : Json) : Except PyExc AuthReturn :=
  .ok (.headers [(authorizationHeader, .bearer token)])

/-- What a call does once it has the lock, or was refused it. -/
def onLock : AuthCall → Except PyExc Unit → AuthProg
  | .headers, r => auth.underLock r >>= fun outcome => .ret (outcome.map .headers)
  | .invalidate, r => dropUnderLock r >>= fun outcome => .ret (outcome.map .dropped)

/-- What a `headers` call does with the outcome of its exchange. -/
def onExchange (r : Except PyExc Response) : AuthProg :=
  auth.keepThen finish (r.bind Response.grant) >>= fun outcome => .ret (outcome.map .headers)

/-- A `headers` call that waits for its exchange; it holds the lock. -/
def exchanging : AuthProg := .call (.exchange auth.request) auth.onExchange

/-- What a call does as soon as it has the lock. -/
def enter (s : AuthState) : AuthCall → AuthProg × AuthState
  | .headers =>
    match s.live? with
    | some token => (.ret (bearer token), s)
    | none => (auth.exchanging, s.lock)
  | .invalidate => (.ret (.ok (.dropped true)), s.drop)

/-- What a `headers` call does with what its exchange grants. -/
def exchanged (s : AuthState) : Except PyExc (Json × ℤ) → AuthProg × AuthState
  | .error exc => (.ret (.error exc), s.unlock)
  | .ok (token, expiresIn) =>
    if auth.lifetime expiresIn < floatLimit then
      (.ret (bearer token), s.keep token (s.now + auth.lifetime expiresIn))
    else (.ret (.error .overflowError), s.keep token s.credential.expiresAt)

variable {auth} {s : AuthState}

theorem run_call (call : AuthCall) :
    (auth.call call).run = .call .lockAcquire (auth.onLock call) := by
  have hpure : ∀ {α : Type} (p : Py AuthOp AuthAns α) (f : α → AuthReturn),
      (p >>= fun a => pure (f a)).run = p.run >>= fun outcome => .ret (outcome.map f) := by
    intro α p f
    exact Prog.bind_congr fun outcome => by cases outcome <;> rfl
  cases call with
  | headers =>
    have hheaders := hpure auth.headers .headers
    rw [run_headers] at hheaders
    exact hheaders
  | invalidate =>
    have hinvalidate := hpure invalidate .dropped
    rw [run_invalidate] at hinvalidate
    exact hinvalidate

theorem settle_call_locked (auth : ServiceTokenInternalAuth) (call : AuthCall)
    (h : s.credential.locked = true) :
    (auth.call call).run.settle AuthState.exec s =
      (.call .lockAcquire (auth.onLock call), s) := by
  have hexec : AuthState.exec .lockAcquire s = none := by
    simp [AuthState.exec, AuthOp.exec, h]
  rw [run_call, Prog.settle_call_none hexec]

theorem settle_onLock (auth : ServiceTokenInternalAuth) (call : AuthCall)
    (h : s.credential.locked = false) :
    (auth.onLock call (.ok ())).settle AuthState.exec s.lock = auth.enter s call := by
  obtain ⟨⟨token, expiresAt, locked⟩, now⟩ := s
  obtain rfl : locked = false := h
  cases call with
  | invalidate => rfl
  | headers =>
    cases token with
    | none => rfl
    | some token =>
      by_cases hlive : now < expiresAt
      · simp [onLock, underLock, Prog.settle, AuthState.exec, AuthOp.exec, AuthState.lock, enter,
          AuthState.live?, hlive, finish, bearer, Except.map, Option.filter_some]
      · simp [onLock, underLock, Prog.settle, AuthState.exec, AuthOp.exec, AuthState.lock, enter,
          AuthState.live?, hlive, exchangeThen, exchanging]
        rfl

theorem settle_call_free (auth : ServiceTokenInternalAuth) (call : AuthCall)
    (h : s.credential.locked = false) :
    (auth.call call).run.settle AuthState.exec s = auth.enter s call := by
  have hexec : AuthState.exec .lockAcquire s = some (.ok (), s.lock) := by
    simp [AuthState.exec, AuthOp.exec, AuthState.lock, h]
  rw [run_call, Prog.settle_call_some hexec, auth.settle_onLock call h]

theorem settle_onExchange (auth : ServiceTokenInternalAuth) (r : Except PyExc Response)
    (s : AuthState) :
    (auth.onExchange r).settle AuthState.exec s = auth.exchanged s (r.bind Response.grant) := by
  rw [onExchange]
  cases r.bind Response.grant with
  | error exc => rfl
  | ok granted =>
    obtain ⟨token, expiresIn⟩ := granted
    by_cases hfits : auth.lifetime expiresIn < floatLimit
    · simp [keepThen, Prog.settle, AuthState.exec, AuthOp.exec, addSeconds, hfits, finish, bearer,
        AuthState.keep, Except.map, exchanged]
    · simp [keepThen, Prog.settle, AuthState.exec, AuthOp.exec, addSeconds, hfits, finish,
        AuthState.keep, Except.map, exchanged]

theorem settle_onLock_error (auth : ServiceTokenInternalAuth) (call : AuthCall) (exc : PyExc)
    (s : AuthState) :
    (auth.onLock call (.error exc)).settle AuthState.exec s = (.ret (.error exc), s) := by
  cases call <;> rfl

variable (auth)

/-- A call waits for the lock. -/
def waiting (call : AuthCall) : AuthProg := .call .lockAcquire (auth.onLock call)

/-- The step gives the lock, which is free, to the call `id`: to one that starts, or to one that
was waiting. -/
def Enters (w : AuthPool) (l : AuthAct) (id : ℕ) (call : AuthCall) : Prop :=
  w.shared.credential.locked = false ∧
    (l = .spawn id call ∧ w.tasks id = none ∨
      l = .wake id ∧ w.tasks id = some ⟨call, auth.waiting call⟩)

/-- The call `id` has an exchange in flight. -/
def Exchanging (w : AuthPool) (id : ℕ) : Prop := w.awaits id = some (.exchange auth.request)

/-- Where a call can be suspended. -/
inductive Shape : AuthCall → AuthProg → Prop
  | waiting (call : AuthCall) : Shape call (auth.waiting call)
  | exchanging : Shape .headers auth.exchanging
  | ended (call : AuthCall) (r : Except PyExc AuthReturn) : Shape call (.ret r)

/-- The calls are suspended where they can be, and the one that exchanges holds the lock. -/
structure Serialised (w : AuthPool) : Prop where
  shaped : ∀ id t, w.tasks id = some t → auth.Shape t.spec t.prog
  held : ∀ id, auth.Exchanging w id → w.shared.credential.locked = true
  alone : ∀ id id', auth.Exchanging w id → auth.Exchanging w id' → id = id'

/-- The moves of a pool of calls. -/
inductive Move (w : AuthPool) : AuthAct → AuthPool → Prop
  | waits (id : ℕ) (call : AuthCall) (hnew : w.tasks id = none)
      (hlocked : w.shared.credential.locked = true) :
      Move w (.spawn id call) (w.park id call (auth.waiting call, w.shared))
  | enters (l : AuthAct) (id : ℕ) (call : AuthCall) (h : auth.Enters w l id call) :
      Move w l (w.park id call (auth.enter w.shared call))
  | refused (id : ℕ) (call : AuthCall) (exc : PyExc)
      (h : w.tasks id = some ⟨call, auth.waiting call⟩) :
      Move w (.resume id (.raises exc)) (w.park id call (.ret (.error exc), w.shared))
  | answered (id : ℕ) (answer : AuthAnswer) (h : w.tasks id = some ⟨.headers, auth.exchanging⟩) :
      Move w (.resume id answer)
        (w.park id .headers (auth.exchanged w.shared (answer.outcome.bind Response.grant)))
  | advances (seconds : ℚ) (h : 0 ≤ seconds) :
      Move w (.env seconds) { w with shared := { w.shared with now := w.shared.now + seconds } }

variable {auth} {w w' : AuthPool} {l : AuthAct} {id : ℕ}

theorem Shape.eq {call : AuthCall} {prog : AuthProg} (h : auth.Shape call prog) :
    prog = auth.waiting call ∨ (call = .headers ∧ prog = auth.exchanging) ∨
      ∃ r, prog = .ret r := by
  cases h with
  | waiting => exact .inl rfl
  | exchanging => exact .inr (.inl ⟨rfl, rfl⟩)
  | ended r => exact .inr (.inr ⟨_, rfl⟩)

theorem move_of_step (hw : auth.Serialised w) (h : auth.scheduler.step w l = some w') :
    auth.Move w l w' := by
  cases l with
  | spawn id call =>
    obtain ⟨hnew, rfl⟩ := Scheduler.step_spawn_iff.mp h
    cases hlocked : w.shared.credential.locked with
    | true =>
      have hsettle := auth.settle_call_locked call hlocked
      simp only [scheduler, hsettle]
      exact .waits id call hnew hlocked
    | false =>
      have hsettle := auth.settle_call_free call hlocked
      simp only [scheduler, hsettle]
      exact .enters _ id call ⟨hlocked, .inl ⟨rfl, hnew⟩⟩
  | resume id answer =>
    obtain ⟨call, o, k, a, ht, ha, rfl⟩ := Scheduler.step_resume_iff.mp h
    have hshape : auth.Shape call (.call o k) := hw.shaped id _ ht
    rcases hshape.eq with hprog | ⟨hcall, hprog⟩ | ⟨r, hprog⟩
    · cases hprog
      cases answer with
      | reply response => contradiction
      | raises exc =>
        obtain rfl := Option.some.inj ha
        have hsettle := auth.settle_onLock_error call exc w.shared
        simp only [scheduler, hsettle]
        exact .refused id call exc ht
    · obtain rfl : call = .headers := hcall
      cases hprog
      obtain rfl := Option.some.inj ha
      have hsettle := auth.settle_onExchange answer.outcome w.shared
      simp only [scheduler, hsettle]
      exact .answered id answer ht
    · contradiction
  | wake id =>
    obtain ⟨call, o, k, a, s, ht, ha, rfl⟩ := Scheduler.step_wake_iff.mp h
    have hshape : auth.Shape call (.call o k) := hw.shaped id _ ht
    rcases hshape.eq with hprog | ⟨-, hprog⟩ | ⟨r, hprog⟩
    · cases hprog
      cases hlocked : w.shared.credential.locked with
      | true => simp [scheduler, AuthState.exec, AuthOp.exec, hlocked] at ha
      | false =>
        have hexec : AuthState.exec .lockAcquire w.shared = some (.ok (), w.shared.lock) := by
          simp [AuthState.exec, AuthOp.exec, AuthState.lock, hlocked]
        obtain ⟨rfl, rfl⟩ := Prod.mk.inj (Option.some.inj (hexec.symm.trans ha))
        have hsettle := auth.settle_onLock call hlocked
        simp only [scheduler, hsettle]
        exact .enters _ id call ⟨hlocked, .inr ⟨rfl, ht⟩⟩
    · cases hprog
      contradiction
    · contradiction
  | env seconds =>
    obtain ⟨s, hs, rfl⟩ := Scheduler.step_env_iff.mp h
    simp only [scheduler, AuthState.advance] at hs
    split at hs
    next hnn =>
      obtain rfl := Option.some.inj hs
      exact .advances seconds hnn
    next => contradiction

theorem step_spawn_free {call : AuthCall} (hnew : w.tasks id = none)
    (hfree : w.shared.credential.locked = false) :
    auth.scheduler.step w (.spawn id call) =
      some (w.park id call (auth.enter w.shared call)) := by
  rw [Scheduler.step_spawn_iff, ← auth.settle_call_free call hfree]
  exact ⟨hnew, rfl⟩

theorem step_resume_exchanging (answer : AuthAnswer)
    (ht : w.tasks id = some ⟨.headers, auth.exchanging⟩) :
    auth.scheduler.step w (.resume id answer) = some (w.park id .headers
      (auth.exchanged w.shared (answer.outcome.bind Response.grant))) := by
  rw [Scheduler.step_resume_iff, ← settle_onExchange]
  exact ⟨.headers, _, _, _, ht, rfl, rfl⟩

theorem awaits_park {call : AuthCall} {r : AuthProg × AuthState} {id' : ℕ} {o : AuthOp}
    (h : (w.park id call r).awaits id' = some o) :
    id' = id ∧ r.1.awaits = some o ∨ id' ≠ id ∧ w.awaits id' = some o := by
  by_cases hid : id' = id
  · subst hid
    rw [Pool.awaits_park_self] at h
    exact .inl ⟨rfl, h⟩
  · rw [Pool.awaits, Pool.park_tasks_of_ne w call r hid] at h
    exact .inr ⟨hid, h⟩

/-- A segment keeps the exchanges apart when it leaves the lock to the call that exchanges, and
starts an exchange only when there is no other. -/
theorem Serialised.park (hw : auth.Serialised w) {call : AuthCall} {r : AuthProg × AuthState}
    (hshape : auth.Shape call r.1)
    (hothers : ∀ id', id' ≠ id → auth.Exchanging w id' → r.2.credential.locked = true)
    (hself : r.1.awaits = some (.exchange auth.request) →
      r.2.credential.locked = true ∧ ∀ id', ¬ auth.Exchanging w id') :
    auth.Serialised (w.park id call r) := by
  constructor
  · intro id' t ht
    by_cases hid : id' = id
    · subst hid
      rw [Pool.park_tasks_self] at ht
      obtain rfl := Option.some.inj ht
      exact hshape
    · rw [Pool.park_tasks_of_ne w call r hid] at ht
      exact hw.shaped id' t ht
  · intro id' h
    rcases awaits_park h with ⟨-, hnew⟩ | ⟨hid, hold⟩
    · exact (hself hnew).1
    · exact hothers id' hid hold
  · intro id₁ id₂ h₁ h₂
    rcases awaits_park h₁ with ⟨rfl, hnew₁⟩ | ⟨-, hold₁⟩
    · rcases awaits_park h₂ with ⟨rfl, -⟩ | ⟨-, hold₂⟩
      · rfl
      · exact absurd hold₂ ((hself hnew₁).2 id₂)
    · rcases awaits_park h₂ with ⟨-, hnew₂⟩ | ⟨-, hold₂⟩
      · exact absurd hold₁ ((hself hnew₂).2 id₁)
      · exact hw.alone id₁ id₂ hold₁ hold₂

theorem exchanging_of_tasks (h : w.tasks id = some ⟨.headers, auth.exchanging⟩) :
    auth.Exchanging w id := Pool.awaits_of_tasks h

/-- While a call exchanges, no call is given the lock. -/
theorem Enters.not_exchanging {call : AuthCall} (h : auth.Enters w l id call)
    (hw : auth.Serialised w) (id' : ℕ) : ¬ auth.Exchanging w id' := by
  intro hid'
  have hlocked := hw.held id' hid'
  rw [h.1] at hlocked
  contradiction

theorem shape_enter (s : AuthState) (call : AuthCall) : auth.Shape call (auth.enter s call).1 := by
  cases call with
  | headers =>
    rw [enter]
    cases s.live? with
    | some token => exact .ended _ _
    | none => exact .exchanging
  | invalidate => exact .ended _ _

theorem locked_enter {s : AuthState} {call : AuthCall}
    (h : (auth.enter s call).1.awaits = some (.exchange auth.request)) :
    (auth.enter s call).2.credential.locked = true := by
  cases call with
  | headers =>
    rw [enter] at h ⊢
    cases hlive : s.live? with
    | some token => simp [hlive] at h
    | none => rfl
  | invalidate => contradiction

theorem ended_exchanged (auth : ServiceTokenInternalAuth) (s : AuthState)
    (granted : Except PyExc (Json × ℤ)) :
    ∃ r, (auth.exchanged s granted).1 = .ret r := by
  unfold exchanged
  split
  · exact ⟨_, rfl⟩
  · split <;> exact ⟨_, rfl⟩

theorem serialised_idle (s : AuthState) : auth.Serialised (Pool.idle s) := by
  constructor <;> simp [Pool.idle, Exchanging, Pool.awaits]

theorem serialised_step (w : AuthPool) (l : AuthAct) (w' : AuthPool) (hw : auth.Serialised w)
    (h : auth.scheduler.step w l = some w') : auth.Serialised w' := by
  cases move_of_step hw h with
  | waits id call hnew hlocked =>
    exact hw.park (.waiting call) (fun _ _ _ => hlocked) (by simp [waiting])
  | enters l id call henters =>
    have hfree := henters.not_exchanging hw
    exact hw.park (shape_enter w.shared call) (fun id' _ h => absurd h (hfree id'))
      fun h => ⟨locked_enter h, hfree⟩
  | refused id call exc ht =>
    exact hw.park (.ended call _) (fun id' _ h => hw.held id' h) (by simp)
  | answered id answer ht =>
    have halone : ∀ id', id' ≠ id → ¬ auth.Exchanging w id' := by
      intro id' hid h
      exact hid (hw.alone id' id h (exchanging_of_tasks ht))
    obtain ⟨r, hr⟩ := auth.ended_exchanged w.shared (answer.outcome.bind Response.grant)
    have hshape : auth.Shape .headers (.ret r) := .ended .headers r
    rw [← hr] at hshape
    exact hw.park hshape (fun id' hid h => absurd h (halone id' hid)) (by simp [hr])
  | advances seconds hnn => exact ⟨hw.shaped, hw.held, hw.alone⟩

theorem serialised {now : ℚ} {past : List (AuthPool × AuthAct)}
    (run : Run auth.scheduler.step (start now) past w) : auth.Serialised w :=
  run.invariant serialised_step (serialised_idle _)

end ServiceTokenInternalAuth

end FastapiM8
