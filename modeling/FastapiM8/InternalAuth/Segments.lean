import FastapiM8.InternalAuth

/-! The coroutines of a service-token provider with their awaits written out: the lock, the
exchange, and what a reply of the exchange endpoint grants. -/
namespace FastapiM8

/-- The token and the lifetime that a reply of the exchange endpoint grants. -/
def Response.grant (r : Response) : Except PyExc (Json × ℤ) := do
  r.raiseForStatus
  let data ← r.json
  let token ← data.getItem "access_token"
  let expiresIn ← (← data.getItem "expires_in").toInt
  return (token, expiresIn)

theorem ofReply_of_grant {r : Response} {exc : PyExc} (h : r.grant = .error exc) :
    exc.ofReply = true := by
  rcases bind_eq_error h with hstatus | ⟨-, -, h⟩
  · exact Response.ofReply_of_raiseForStatus hstatus
  rcases bind_eq_error h with hjson | ⟨data, -, h⟩
  · exact Response.ofReply_of_json hjson
  rcases bind_eq_error h with htoken | ⟨token, -, h⟩
  · exact Json.ofReply_of_getItem htoken
  rcases bind_eq_error h with hfield | ⟨field, -, h⟩
  · exact Json.ofReply_of_getItem hfield
  rcases bind_eq_error h with hint | ⟨expiresIn, -, h⟩
  · exact Json.ofReply_of_toInt hint
  · contradiction

/-- The reply is a success whose body is an object with a token and a lifetime. -/
def Response.Grants (r : Response) (token : Json) (expiresIn : ℤ) : Prop :=
  r.isSuccess = true ∧ ∃ fields field, r.body = some (.obj fields) ∧
    fields.lookup "access_token" = some token ∧ fields.lookup "expires_in" = some field ∧
    field.toInt = .ok expiresIn

theorem grant_eq_ok {r : Response} {token : Json} {expiresIn : ℤ} :
    r.grant = .ok (token, expiresIn) ↔ r.Grants token expiresIn := by
  unfold Response.grant Response.Grants
  simp only [bind_eq_ok, Response.raiseForStatus_eq_ok, Response.json_eq_ok, Json.getItem_eq_ok]
  constructor
  · rintro ⟨-, hstatus, data, hdata, token', ⟨fields, rfl, htoken⟩, field,
      ⟨fields', hfields, hfield⟩, expiresIn', hint, hpair⟩
    obtain ⟨rfl, rfl⟩ := Prod.mk.inj (Except.ok.inj hpair)
    obtain rfl := Json.obj.inj hfields
    exact ⟨hstatus, fields, field, hdata, htoken, hfield, hint⟩
  · rintro ⟨hstatus, fields, field, hdata, htoken, hfield, hint⟩
    exact ⟨(), hstatus, _, hdata, token, ⟨fields, rfl, htoken⟩, field, ⟨fields, rfl, hfield⟩,
      expiresIn, hint, rfl⟩

section NotHttpError

variable {exc : PyExc}

theorem not_httpError_of_getItem {key : String} {data : Json} (h : data.getItem key = .error exc) :
    exc.isHttpError = false := by
  unfold Json.getItem at h
  cases data with
  | obj fields =>
    cases hlookup : fields.lookup key with
    | none =>
      simp only [hlookup] at h
      obtain rfl := Except.error.inj h
      rfl
    | some value => simp [hlookup] at h
  | _ =>
    obtain rfl := Except.error.inj h
    rfl

theorem not_httpError_of_toInt {data : Json} (h : data.toInt = .error exc) :
    exc.isHttpError = false := by
  unfold Json.toInt at h
  cases data with
  | str s =>
    cases hliteral : intLiteral? s with
    | none =>
      simp only [hliteral] at h
      obtain rfl := Except.error.inj h
      rfl
    | some z => simp [hliteral] at h
  | _ =>
    cases h
    try rfl

theorem not_httpError_of_json {r : Response} (h : r.json = .error exc) :
    exc.isHttpError = false := by
  unfold Response.json at h
  cases hcontent : r.content with
  | json data => simp [hcontent] at h
  | malformed | tooDeep =>
    simp only [hcontent] at h
    obtain rfl := Except.error.inj h
    rfl

/-- A success that grants nothing fails in a way that is no HTTP error. -/
theorem not_httpError_of_grant {r : Response} (hstatus : r.isSuccess = true)
    (h : r.grant = .error exc) : exc.isHttpError = false := by
  rcases bind_eq_error h with hraised | ⟨-, -, h⟩
  · rw [Response.raiseForStatus, if_pos hstatus] at hraised
    contradiction
  rcases bind_eq_error h with hjson | ⟨data, -, h⟩
  · exact not_httpError_of_json hjson
  rcases bind_eq_error h with htoken | ⟨token, -, h⟩
  · exact not_httpError_of_getItem htoken
  rcases bind_eq_error h with hfield | ⟨field, -, h⟩
  · exact not_httpError_of_getItem hfield
  rcases bind_eq_error h with hint | ⟨expiresIn, -, h⟩
  · exact not_httpError_of_toInt hint
  · contradiction

end NotHttpError

namespace ServiceTokenInternalAuth

variable (auth : ServiceTokenInternalAuth) {α : Type}

/-- The one request that a provider sends. -/
def request : ExchangeRequest := ⟨auth.url, auth.exchangeHeaders, auth.scopes⟩

/-- How long a token is used for: its lifetime less the leeway, and not less than zero. -/
def lifetime (expiresIn : ℤ) : ℤ := max 0 (expiresIn - auth.leeway)

/-- Cache what a reply grants, and go on. -/
def keepThen (next : Except PyExc Json → Prog AuthOp AuthAns α) :
    Except PyExc (Json × ℤ) → Prog AuthOp AuthAns α
  | .error exc => next (.error exc)
  | .ok (token, expiresIn) =>
    .call (.setToken token.orNone) fun _ => .call .monotonic fun now : ℚ =>
      match addSeconds now (auth.lifetime expiresIn) with
      | .error exc => next (.error exc)
      | .ok expiresAt => .call (.setExpiresAt expiresAt) fun _ => next (.ok token)

/-- An exchange followed by what its caller does with the outcome. -/
def exchangeThen (next : Except PyExc Json → Prog AuthOp AuthAns α) : Prog AuthOp AuthAns α :=
  .call (.exchange auth.request) fun r : Except PyExc Response =>
    auth.keepThen next (r.bind Response.grant)

/-- The end of a `headers` call: leave the lock. -/
def finish (outcome : Except PyExc Json) : Prog AuthOp AuthAns (Except PyExc Headers) :=
  .call .lockRelease fun _ => .ret (outcome.map fun token => [(authorizationHeader, .bearer token)])

/-- A `headers` call that has the lock. -/
def underLock : Except PyExc Unit → Prog AuthOp AuthAns (Except PyExc Headers)
  | .error exc => .ret (.error exc)
  | .ok () => .call .getToken fun cached : Option Json =>
      match cached with
      | none => auth.exchangeThen finish
      | some token => .call .monotonic fun now : ℚ => .call .getExpiresAt fun expiresAt : ℚ =>
          if now < expiresAt then finish (.ok token) else auth.exchangeThen finish

/-- An `invalidate` call that has the lock. -/
def dropUnderLock : Except PyExc Unit → Prog AuthOp AuthAns (Except PyExc Bool)
  | .error exc => .ret (.error exc)
  | .ok () => .call (.setToken none) fun _ => .call (.setExpiresAt 0) fun _ =>
      .call .lockRelease fun _ => .ret (.ok true)

variable {auth}

theorem keepThen_bind {β : Type} (next : Except PyExc Json → Prog AuthOp AuthAns α)
    (e : Except PyExc β) (f : β → Except PyExc (Json × ℤ)) :
    auth.keepThen next (e >>= f) = match e with
      | .error exc => next (.error exc)
      | .ok a => auth.keepThen next (f a) := by
  cases e <;> rfl

/-- What `_exchange` does with a reply. -/
theorem run_keep_bind (response : Response)
    (next : Except PyExc Json → Prog AuthOp AuthAns α) :
    (do
      response.raiseForStatus
      let data ← response.json
      let token ← data.getItem "access_token"
      let expiresIn ← (← data.getItem "expires_in").toInt
      Py.perform (AuthOp.setToken token.orNone)
      let now : ℚ ← Py.perform AuthOp.monotonic
      let expiresAt ← addSeconds now (auth.lifetime expiresIn)
      Py.perform (AuthOp.setExpiresAt expiresAt)
      return token : Py AuthOp AuthAns Json).run >>= next =
      auth.keepThen next response.grant := by
  unfold Response.grant
  rw [Py.run_lift_bind, keepThen_bind]
  cases response.raiseForStatus with
  | error exc => rfl
  | ok _ =>
    dsimp only
    rw [Py.run_lift_bind, keepThen_bind]
    cases response.json with
    | error exc => rfl
    | ok data =>
      dsimp only
      rw [Py.run_lift_bind, keepThen_bind]
      cases data.getItem "access_token" with
      | error exc => rfl
      | ok token =>
        dsimp only
        rw [Py.run_lift_bind, keepThen_bind]
        cases data.getItem "expires_in" with
        | error exc => rfl
        | ok field =>
          dsimp only
          rw [Py.run_lift_bind, keepThen_bind]
          cases field.toInt with
          | error exc => rfl
          | ok expiresIn =>
            refine congrArg (Prog.call (AuthOp.setToken _)) (funext fun _ => ?_)
            refine congrArg (Prog.call AuthOp.monotonic) (funext fun now : ℚ => ?_)
            refine (Py.run_lift_bind (addSeconds now (auth.lifetime expiresIn)) _ next).trans ?_
            cases addSeconds now (auth.lifetime expiresIn) <;> rfl

theorem run_exchange_bind (next : Except PyExc Json → Prog AuthOp AuthAns α) :
    auth.exchange.run >>= next = auth.exchangeThen next := by
  refine congrArg (Prog.call (AuthOp.exchange _)) (funext fun r : Except PyExc Response => ?_)
  cases r with
  | error exc => rfl
  | ok response => exact run_keep_bind response next

/-- What a `headers` call does with the outcome of the body of its lock. -/
theorem run_finish_bind (body : Py AuthOp AuthAns Json) :
    ((do
      let outcome : Except PyExc Json ← Py.attempt body
      Py.perform AuthOp.lockRelease
      outcome : Py AuthOp AuthAns Json) >>= fun token =>
        (pure [(authorizationHeader, .bearer token)] : Py AuthOp AuthAns Headers)).run =
      body.run >>= finish := by
  rw [ExceptT.run_bind, Py.run_attempt_bind, Prog.bind_assoc]
  refine Prog.bind_congr fun outcome => ?_
  refine congrArg (Prog.call AuthOp.lockRelease) (funext fun _ => ?_)
  cases outcome <;> rfl

/-- The body of the lock in `_ensure_token`. -/
theorem run_body_bind (next : Except PyExc Json → Prog AuthOp AuthAns α) :
    (do
      let cached : Option Json ← Py.perform AuthOp.getToken
      match cached with
      | none => auth.exchange
      | some token =>
        let now : ℚ ← Py.perform AuthOp.monotonic
        let expiresAt : ℚ ← Py.perform AuthOp.getExpiresAt
        if now < expiresAt then return token else auth.exchange :
      Py AuthOp AuthAns Json).run >>= next =
      .call .getToken fun cached : Option Json =>
        match cached with
        | none => auth.exchangeThen next
        | some token => .call .monotonic fun now : ℚ => .call .getExpiresAt fun expiresAt : ℚ =>
            if now < expiresAt then next (.ok token) else auth.exchangeThen next := by
  refine congrArg (Prog.call AuthOp.getToken) (funext fun cached : Option Json => ?_)
  cases cached with
  | none => exact run_exchange_bind next
  | some token =>
    refine congrArg (Prog.call AuthOp.monotonic) (funext fun now : ℚ => ?_)
    refine congrArg (Prog.call AuthOp.getExpiresAt) (funext fun expiresAt : ℚ => ?_)
    change (if now < expiresAt then pure token else auth.exchange : Py AuthOp AuthAns Json).run >>=
      next = _
    by_cases hlive : now < expiresAt
    · rw [if_pos hlive, if_pos hlive]
      rfl
    · rw [if_neg hlive, if_neg hlive]
      exact run_exchange_bind next

/-- A `headers` call with its awaits written out. -/
theorem run_headers : auth.headers.run = .call .lockAcquire auth.underLock := by
  refine congrArg (Prog.call AuthOp.lockAcquire) (funext fun r : Except PyExc Unit => ?_)
  match r with
  | .error exc => rfl
  | .ok () => exact (run_finish_bind _).trans (run_body_bind finish)

/-- An `invalidate` call with its awaits written out. -/
theorem run_invalidate :
    (ServiceTokenInternalAuth.invalidate).run = .call .lockAcquire dropUnderLock := by
  refine congrArg (Prog.call AuthOp.lockAcquire) (funext fun r : Except PyExc Unit => ?_)
  match r with
  | .error exc => rfl
  | .ok () => rfl

end ServiceTokenInternalAuth

end FastapiM8
