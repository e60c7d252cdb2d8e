import FastapiM8.ApiKey.Runs

/-! The API-key dependencies of a service: the principal behind the presented key, and the role
guards on it. Whatever was served before, a principal comes from the request's own reply. -/
namespace FastapiM8

open ApiKeyIntrospectionClient

def unauthorized : ℕ := 401

def tooManyRequests : ℕ := 429

/-- The one response for every unusable API key. -/
def invalidApiKey : String := "Invalid or expired API key"

/-- Relay the issuer's 429 to the caller, with its `Retry-After` when there is one. -/
def apiKeyQuotaDenial (retryAfter : Option String) : PyExc :=
  let seconds := retryAfter.getD ""
  .httpException tooManyRequests "API key rate limit exceeded"
    (if seconds = "" then [] else [("Retry-After", seconds)])

/-- How `get_current_api_key_principal` ends for the outcome of `introspect`. -/
def principalOutcome : Except PyExc (Option ApiKeyPrincipal) → Except PyExc ApiKeyPrincipal
  | .error (.apiKeyQuotaExceededError retryAfter) => .error (apiKeyQuotaDenial retryAfter)
  | .error (.apiKeyIntrospectionError _) =>
    .error (.httpException unavailable "API key verification unavailable.")
  | .error exc => .error exc
  | .ok none => .error (.httpException unauthorized invalidApiKey)
  | .ok (some principal) => .ok principal

/-- The dependencies of the family, each with the role it requires. -/
inductive ApiKeyDependency where
  | currentPrincipal
  | requireRole (requiredRole : RoleType)
  deriving DecidableEq

/-- A request to a route: its dependency, and the `X-API-Key` header it presents. -/
structure KeyRequest where
  dependency : ApiKeyDependency
  apiKey : Option String
  deriving DecidableEq

namespace ApiKeyIntrospectionClient

variable (client : ApiKeyIntrospectionClient) (sdk : ApiKeySdk)

/-- Resolve the presented API key to its owner's current principal. -/
def getCurrentApiKeyPrincipal (apiKey : Option String) : Py ApiKeyOp ApiKeyAns ApiKeyPrincipal := do
  if apiKey.getD "" = "" then throw (.httpException unauthorized invalidApiKey)
  else
    let outcome : Except PyExc (Option ApiKeyPrincipal) ←
      Py.attempt (client.introspect sdk (apiKey.getD ""))
    principalOutcome outcome

/-- The dependency that `require_api_key_role` returns. -/
def requireApiKeyRole (requiredRole : RoleType) (apiKey : Option String) :
    Py ApiKeyOp ApiKeyAns ApiKeyPrincipal := do
  let principal ← client.getCurrentApiKeyPrincipal sdk apiKey
  if sdk.hasCapability principal requiredRole then return principal
  else throw (.httpException forbidden noPrivileges)

/-- Answer a request. -/
def answer (request : KeyRequest) : Py ApiKeyOp ApiKeyAns ApiKeyPrincipal :=
  match request.dependency with
  | .currentPrincipal => client.getCurrentApiKeyPrincipal sdk request.apiKey
  | .requireRole requiredRole => client.requireApiKeyRole sdk requiredRole request.apiKey

/-- The requests of a service that share its introspection client. -/
def requests : ApiKeyScheduler KeyRequest ApiKeyPrincipal where
  body request := (client.answer sdk request).run
  exec := ApiKeyOp.exec
  decode := ApiKeyOp.decode
  env := ApiKeyState.advance

end ApiKeyIntrospectionClient

/-- The role check of a dependency. -/
def ApiKeyDependency.check (sdk : ApiKeySdk) (principal : ApiKeyPrincipal) :
    ApiKeyDependency → Except PyExc ApiKeyPrincipal
  | .currentPrincipal => .ok principal
  | .requireRole requiredRole =>
    if sdk.hasCapability principal requiredRole then .ok principal
    else .error (.httpException forbidden noPrivileges)

namespace KeyRequest

variable (request : KeyRequest)

/-- The key as it is looked at: an absent one is empty. -/
def key : String := request.apiKey.getD ""

/-- How a request ends for the outcome of its `introspect` call. -/
def conclude (sdk : ApiKeySdk) (outcome : Except PyExc (Option ApiKeyPrincipal)) :
    Except PyExc ApiKeyPrincipal :=
  (principalOutcome outcome).bind fun principal => request.dependency.check sdk principal

end KeyRequest

variable {client : ApiKeyIntrospectionClient} {sdk : ApiKeySdk} {request : KeyRequest}

/-- Without a key the principal dependency denies at once. -/
theorem run_principal_of_noKey {apiKey : Option String} (h : apiKey.getD "" = "") :
    (client.getCurrentApiKeyPrincipal sdk apiKey).run =
      .ret (.error (.httpException unauthorized invalidApiKey)) := by
  rw [getCurrentApiKeyPrincipal, if_pos h]
  rfl

/-- With a key it is an `introspect` call, and a pure function of the outcome. -/
theorem run_principal_of_key {apiKey : Option String} (h : apiKey.getD "" ≠ "") :
    (client.getCurrentApiKeyPrincipal sdk apiKey).run =
      (client.introspect sdk (apiKey.getD "")).run >>= fun outcome =>
        .ret (principalOutcome outcome) := by
  rw [getCurrentApiKeyPrincipal, if_neg h, Py.run_attempt_bind]
  rfl

/-- A role guard checks the principal of the request. -/
theorem run_answer (request : KeyRequest) :
    (client.answer sdk request).run =
      (client.getCurrentApiKeyPrincipal sdk request.apiKey).run >>= fun outcome =>
        .ret (outcome.bind fun principal => request.dependency.check sdk principal) := by
  obtain ⟨dependency, apiKey⟩ := request
  cases dependency with
  | currentPrincipal =>
    have hsame : ∀ outcome : Except PyExc ApiKeyPrincipal,
        (outcome.bind fun principal => .ok principal) = outcome := by
      intro outcome
      cases outcome <;> rfl
    simp only [ApiKeyDependency.check, hsame, Prog.bind_ret]
    rfl
  | requireRole requiredRole =>
    refine Prog.bind_congr fun outcome => ?_
    cases outcome with
    | error exc => rfl
    | ok principal =>
      change (if sdk.hasCapability principal requiredRole then pure principal
        else throw (.httpException forbidden noPrivileges) :
        Py ApiKeyOp ApiKeyAns ApiKeyPrincipal).run = _
      simp only [ApiKeyDependency.check, Except.bind]
      cases sdk.hasCapability principal requiredRole <;> rfl

/-- A request without a key is denied at once. -/
theorem run_answer_of_noKey (h : request.key = "") :
    (client.answer sdk request).run =
      .ret (.error (.httpException unauthorized invalidApiKey)) := by
  rw [run_answer, run_principal_of_noKey h]
  rfl

/-- A request with a key is its `introspect` call, and a pure function of the outcome. -/
theorem run_answer_of_key (h : request.key ≠ "") :
    (client.answer sdk request).run =
      (client.introspect sdk request.key).run >>= fun outcome =>
        .ret (request.conclude sdk outcome) := by
  rw [run_answer, run_principal_of_key h, Prog.bind_assoc]
  rfl

/-- Reading a reply gives its status and its whole body, raises that it is too large, or raises
what the connection did. -/
theorem read_cases (maxResponseBytes : ℕ) (response : StreamedResponse) :
    (∃ exc, response.read maxResponseBytes = .error exc ∧
      (response.broken = some exc ∨ response.closing = some exc)) ∨
    response.read maxResponseBytes = .error (.apiKeyIntrospectionError "response_too_large") ∨
    response.broken = none ∧ response.closing = none ∧
      response.chunks.flatten.length ≤ maxResponseBytes ∧
      response.read maxResponseBytes =
        .ok ⟨response.statusCode, response.chunks.flatten, response.retryAfter⟩ := by
  rw [StreamedResponse.read]
  cases hclosing : response.closing with
  | some exc => exact .inl ⟨exc, rfl, .inr rfl⟩
  | none =>
    rw [StreamedResponse.readChunks_eq _ (Nat.zero_le _), List.nil_append]
    split
    next hfits =>
      cases hbroken : response.broken with
      | some exc => exact .inl ⟨exc, rfl, .inl rfl⟩
      | none => exact .inr (.inr ⟨rfl, rfl, hfits, rfl⟩)
    next => exact .inr (.inl rfl)

/-- The reply of the issuer to the call's own request is a 200, its body is small enough, and
validates to the given response. -/
def Answers (client : ApiKeyIntrospectionClient) (sdk : ApiKeySdk) (apiKey : String)
    (o : ApiKeyOp) (answer : ApiKeyAnswer) (result : ApiKeyIntrospectionResponse) : Prop :=
  ∃ request response, o = .post request ∧ request.apiKey = apiKey ∧
    answer = .response response ∧ response.statusCode = 200 ∧ response.broken = none ∧
    response.closing = none ∧ response.chunks.flatten.length ≤ client.tuning.maxResponseBytes ∧
    sdk.response response.chunks.flatten = some result

/-- The answer is, or contains, an exception. -/
def Delivers (answer : ApiKeyAnswer) (exc : PyExc) : Prop :=
  answer = .raises exc ∨ ∃ response, answer = .response response ∧
    (response.broken = some exc ∨ response.closing = some exc)

/-- The exceptions that `introspect` does not translate, by what it is suspended on. -/
def Untranslated (exc : PyExc) : ApiKeyOp → Prop
  | .semaphoreAcquire _ | .checkpoint => exc ≠ .timeoutError
  | .authHeaders | .post _ => exc.isHttpError = false
  | .authInvalidate => True
  | _ => False

/-- The exceptions that `introspect` documents. -/
def Documented : PyExc → Prop
  | .apiKeyQuotaExceededError _ | .apiKeyIntrospectionError _ => True
  | _ => False

theorem verdict_cases (client : ApiKeyIntrospectionClient) (sdk : ApiKeySdk)
    (reply : IntrospectionReply) :
    (∃ exc, client.verdict sdk reply = .error exc ∧ Documented exc) ∨
    reply.statusCode = 200 ∧
      (sdk.response reply.body = some .inactive ∧ client.verdict sdk reply = .ok none ∨
      ∃ principal, sdk.response reply.body = some (.active client.audienceId principal) ∧
        client.verdict sdk reply = .ok (some principal)) := by
  unfold verdict
  split_ifs with h429 hrejects h500 hok
  · exact .inl ⟨_, rfl, trivial⟩
  · exact .inl ⟨_, rfl, trivial⟩
  · exact .inl ⟨_, rfl, trivial⟩
  · exact .inl ⟨_, rfl, trivial⟩
  · have hstatus : reply.statusCode = 200 := not_not.mp hok
    cases sdk.response reply.body with
    | none => exact .inl ⟨_, rfl, trivial⟩
    | some result =>
      cases result with
      | inactive => exact .inr ⟨hstatus, .inl ⟨rfl, rfl⟩⟩
      | active audienceId principal =>
        by_cases haudience : audienceId ≠ client.audienceId
        · exact .inl ⟨_, if_pos haudience, trivial⟩
        · refine .inr ⟨hstatus, .inr ⟨principal, ?_, if_neg haudience⟩⟩
          rw [not_not.mp haudience]

theorem shed_cases (exc : PyExc) :
    Documented (shed exc) ∨ shed exc = exc ∧ exc ≠ .timeoutError := by
  cases exc with
  | timeoutError => exact .inl trivial
  | _ => exact .inr ⟨rfl, by simp⟩

section Ends

variable {apiKey : String} {s : ApiKeyState} {outcome : Except PyExc (Option ApiKeyPrincipal)}
  {r : Prog ApiKeyOp ApiKeyAns (Except PyExc (Option ApiKeyPrincipal)) × ApiKeyState}

/-- A call that is over after a failed transmission raises a documented exception, or the
failure itself when it is no HTTP error. -/
theorem ends_of_failed {exc : PyExc} (h : client.Follows sdk apiKey s (.failed exc) r)
    (hend : r.1 = .ret outcome) :
    ∃ exc', outcome = .error exc' ∧ (Documented exc' ∨ exc' = exc ∧ exc.isHttpError = false) := by
  cases h with
  | retries exc h k => contradiction
  | unreachable exc h =>
    obtain rfl := Prog.ret.inj hend
    exact ⟨_, rfl, .inl trivial⟩
  | escapes exc h =>
    obtain rfl := Prog.ret.inj hend
    exact ⟨exc, rfl, .inr ⟨rfl, h⟩⟩

/-- A call that is over after a reply ends as the reply says. -/
theorem ends_of_replied {reply : IntrospectionReply}
    (h : client.Follows sdk apiKey s (.replied reply) r) (hend : r.1 = .ret outcome) :
    outcome = client.verdict sdk reply := by
  cases h with
  | rejected reply h k => contradiction
  | answered reply h => exact (Prog.ret.inj hend).symm

/-- What a call raises that did not come to its slot is documented, or was delivered to it. -/
theorem raised_of_shed (exc : PyExc) {o : ApiKeyOp}
    (ho : ∀ exc, exc ≠ .timeoutError → Untranslated exc o) :
    Documented (shed exc) ∨ Delivers (.raises exc) (shed exc) ∧ Untranslated (shed exc) o := by
  rcases shed_cases exc with hdoc | ⟨heq, hne⟩
  · exact .inl hdoc
  · rw [heq]
    exact .inr ⟨.inl rfl, ho exc hne⟩

/-- What a call raises after a failed transmission is documented, or was delivered to it. -/
theorem raised_of_failed {exc : PyExc} {o : ApiKeyOp} {answer : ApiKeyAnswer}
    (ho : ∀ exc, exc.isHttpError = false → Untranslated exc o) (hdelivers : Delivers answer exc)
    (h : client.Follows sdk apiKey s (.failed exc) r) (hend : r.1 = .ret outcome) :
    ∃ exc, outcome = .error exc ∧ (Documented exc ∨ Delivers answer exc ∧ Untranslated exc o) := by
  obtain ⟨exc', rfl, hdoc | ⟨rfl, hhttp⟩⟩ := ends_of_failed h hend
  · exact ⟨exc', rfl, .inl hdoc⟩
  · exact ⟨exc', rfl, .inr ⟨hdelivers, ho exc' hhttp⟩⟩

/-- A call whose request is answered ends as the whole reply says, or as reading it fails. -/
theorem ends_of_response {request : IntrospectionRequest} (hkey : request.apiKey = apiKey)
    (response : StreamedResponse)
    (h : client.Follows sdk apiKey s (client.signal (.post request) (.ok response)) r)
    (hend : r.1 = .ret outcome) :
    (∃ result, Answers client sdk apiKey (.post request) (.response response) result ∧
      (result = .inactive ∧ outcome = .ok none ∨
        ∃ principal, result = .active client.audienceId principal ∧
          outcome = .ok (some principal))) ∨
    ∃ exc, outcome = .error exc ∧ (Documented exc ∨
      Delivers (.response response) exc ∧ Untranslated exc (.post request)) := by
  have hcollect : client.collect (.ok response) =
      response.read client.tuning.maxResponseBytes := rfl
  rcases read_cases client.tuning.maxResponseBytes response with
    ⟨exc, hread, hraised⟩ | hread | ⟨hbroken, hclosing, hfits, hread⟩
  · simp only [signal, hcollect, hread] at h
    exact .inr (raised_of_failed (fun _ hhttp => hhttp) (.inr ⟨response, rfl, hraised⟩) h hend)
  · simp only [signal, hcollect, hread] at h
    obtain ⟨exc, rfl, hdoc | ⟨rfl, -⟩⟩ := ends_of_failed h hend
    · exact .inr ⟨exc, rfl, .inl hdoc⟩
    · exact .inr ⟨_, rfl, .inl trivial⟩
  · simp only [signal, hcollect, hread] at h
    obtain rfl := ends_of_replied h hend
    rcases verdict_cases client sdk
        ⟨response.statusCode, response.chunks.flatten, response.retryAfter⟩ with
      ⟨exc, hverdict, hdoc⟩ | ⟨hstatus, ⟨hbody, hverdict⟩ | ⟨principal, hbody, hverdict⟩⟩
    · exact .inr ⟨exc, hverdict, .inl hdoc⟩
    · exact .inl ⟨.inactive, ⟨request, response, rfl, hkey, rfl, hstatus, hbroken,
        hclosing, hfits, hbody⟩, .inl ⟨rfl, hverdict⟩⟩
    · exact .inl ⟨_, ⟨request, response, rfl, hkey, rfl, hstatus, hbroken, hclosing,
        hfits, hbody⟩, .inr ⟨principal, rfl, hverdict⟩⟩

/-- How a call ends: with what its own reply says, with an exception that `introspect`
documents, or with one that was delivered to it and that it does not translate. -/
theorem ends_of_follows {o : ApiKeyOp} {a : ApiKeyAns o} {answer : ApiKeyAnswer}
    (hawaited : Awaited apiKey o) (ha : o.decode answer = some a)
    (h : client.Follows sdk apiKey s (client.signal o a) r) (hend : r.1 = .ret outcome) :
    (∃ result, Answers client sdk apiKey o answer result ∧
      (result = .inactive ∧ outcome = .ok none ∨
        ∃ principal, result = .active client.audienceId principal ∧
          outcome = .ok (some principal))) ∨
    ∃ exc, outcome = .error exc ∧
      (Documented exc ∨ Delivers answer exc ∧ Untranslated exc o) := by
  cases o with
  | semaphoreAcquire timeout =>
    cases answer with
    | raises exc =>
      obtain rfl := Option.some.inj ha
      cases h with
      | shed exc =>
        obtain rfl := Prog.ret.inj hend
        exact .inr ⟨_, rfl, raised_of_shed exc fun _ hne => hne⟩
    | _ => contradiction
  | checkpoint =>
    cases answer with
    | resumed =>
      obtain rfl := Option.some.inj ha
      cases h
      contradiction
    | raises exc =>
      obtain rfl := Option.some.inj ha
      cases h with
      | abandoned exc =>
        obtain rfl := Prog.ret.inj hend
        exact .inr ⟨_, rfl, raised_of_shed exc fun _ hne => hne⟩
    | _ => contradiction
  | authHeaders =>
    cases answer with
    | headers headers =>
      obtain rfl := Option.some.inj ha
      cases h
      contradiction
    | raises exc =>
      obtain rfl := Option.some.inj ha
      exact .inr (raised_of_failed (fun _ hhttp => hhttp) (.inl rfl) h hend)
    | _ => contradiction
  | authInvalidate =>
    cases answer with
    | invalidated retry =>
      obtain rfl := Option.some.inj ha
      cases h with
      | dropped retry =>
        obtain rfl := Prog.ret.inj hend
        exact .inr ⟨_, rfl, .inl trivial⟩
    | raises exc =>
      obtain rfl := Option.some.inj ha
      cases h with
      | dropFails exc =>
        obtain rfl := Prog.ret.inj hend
        exact .inr ⟨exc, rfl, .inr ⟨.inl rfl, trivial⟩⟩
    | _ => contradiction
  | post request =>
    cases answer with
    | response response =>
      obtain rfl := Option.some.inj ha
      exact ends_of_response hawaited response h hend
    | raises exc =>
      obtain rfl := Option.some.inj ha
      exact .inr (raised_of_failed (fun _ hhttp => hhttp) (.inl rfl) h hend)
    | _ => contradiction
  | _ => exact absurd hawaited id

end Ends

/-- The denials that the dependencies answer with. -/
inductive ApiKeyDenial : PyExc → Prop
  | invalidKey : ApiKeyDenial (.httpException unauthorized invalidApiKey)
  | unverifiable :
      ApiKeyDenial (.httpException unavailable "API key verification unavailable.")
  | quota (retryAfter : Option String) : ApiKeyDenial (apiKeyQuotaDenial retryAfter)
  | forbidden : ApiKeyDenial (.httpException forbidden noPrivileges)

theorem check_cases (sdk : ApiKeySdk) (dependency : ApiKeyDependency)
    (principal : ApiKeyPrincipal) :
    dependency.check sdk principal = .ok principal ∧
      (∀ role, dependency = .requireRole role → sdk.hasCapability principal role = true) ∨
    dependency.check sdk principal = .error (.httpException forbidden noPrivileges) := by
  cases dependency with
  | currentPrincipal => exact .inl ⟨rfl, by simp⟩
  | requireRole role =>
    cases h : sdk.hasCapability principal role with
    | false => exact .inr (by simp [ApiKeyDependency.check, h])
    | true =>
      refine .inl ⟨by simp [ApiKeyDependency.check, h], fun role' heq => ?_⟩
      obtain rfl := ApiKeyDependency.requireRole.inj heq
      exact h

/-- A request returns the principal of its call when that has the required capability; it is
denied otherwise, except that an undocumented exception goes through. -/
theorem conclude_cases (sdk : ApiKeySdk) (request : KeyRequest)
    (outcome : Except PyExc (Option ApiKeyPrincipal)) :
    (∃ principal, outcome = .ok (some principal) ∧
      request.conclude sdk outcome = .ok principal ∧
      ∀ role, request.dependency = .requireRole role → sdk.hasCapability principal role = true) ∨
    ∃ exc, request.conclude sdk outcome = .error exc ∧
      (ApiKeyDenial exc ∨ outcome = .error exc ∧ ¬ Documented exc) := by
  unfold KeyRequest.conclude
  match outcome with
  | .ok none => exact .inr ⟨_, rfl, .inl .invalidKey⟩
  | .ok (some principal) =>
    rcases check_cases sdk request.dependency principal with ⟨hok, hrole⟩ | hdenied
    · exact .inl ⟨principal, rfl, hok, hrole⟩
    · exact .inr ⟨_, hdenied, .inl .forbidden⟩
  | .error exc =>
    cases exc with
    | apiKeyQuotaExceededError retryAfter => exact .inr ⟨_, rfl, .inl (.quota retryAfter)⟩
    | apiKeyIntrospectionError reason => exact .inr ⟨_, rfl, .inl .unverifiable⟩
    | _ => exact .inr ⟨_, rfl, .inr ⟨rfl, id⟩⟩

/-- The guarantee of a request: the segments of its `introspect` call, with the outcome turned
into the answer to the request. -/
def KeyRequestSegment (client : ApiKeyIntrospectionClient) (sdk : ApiKeySdk) (request : KeyRequest)
    (o : ApiKeyOp) (a : ApiKeyAns o) (s : ApiKeyState)
    (r : Prog ApiKeyOp ApiKeyAns (Except PyExc ApiKeyPrincipal) × ApiKeyState) : Prop :=
  request.key ≠ "" ∧ ∃ r', client.IntrospectSegment sdk request.key o a s r' ∧
    r = (r'.1 >>= fun outcome => .ret (request.conclude sdk outcome), r'.2)

theorem obeys_answer (request : KeyRequest) (s : ApiKeyState) :
    Prog.Obeys ApiKeyOp.exec (KeyRequestSegment client sdk request)
      ((client.answer sdk request).run.settle ApiKeyOp.exec s).1 := by
  by_cases hkey : request.key = ""
  · rw [run_answer_of_noKey hkey]
    exact .ret _
  · rw [run_answer_of_key hkey, Prog.settle_bind_ret]
    exact (obeys_introspect request.key s).bind_ret fun o a s r h => ⟨hkey, r, h, rfl⟩

theorem keyRequests_guaranteed {s : ApiKeyState} {w : ApiKeyPool KeyRequest ApiKeyPrincipal}
    {past : List (ApiKeyPool KeyRequest ApiKeyPrincipal × ApiKeyAct KeyRequest)}
    (run : Run (client.requests sdk).step (.idle s) past w) :
    (client.requests sdk).Guaranteed (KeyRequestSegment client sdk) w :=
  run.invariant (Scheduler.guaranteed_step obeys_answer) (Scheduler.guaranteed_idle _ _)

section Concludes

variable {Spec ρ : Type} (client) (sdk) (w : ApiKeyPool Spec ρ) (l : ApiKeyAct Spec) (id : ℕ)
  (apiKey : String)

/-- The step delivers the issuer's answer to the task's own request: a 200 whose body validates
to the given response. -/
def IssuerAnswers (result : ApiKeyIntrospectionResponse) : Prop :=
  ∃ answer o, l = .resume id answer ∧ w.awaits id = some o ∧
    Answers client sdk apiKey o answer result

/-- The exceptions that a call lets through: one that is delivered to it and that no handler
names, or the refusal of its key by the request model. -/
def Escapes (exc : PyExc) : Prop :=
  (∃ answer o, l = .resume id answer ∧ w.awaits id = some o ∧ Delivers answer exc ∧
    Untranslated exc o) ∨
  (∃ spec, l = .spawn id spec) ∧ sdk.request apiKey client.tuning.schemaVersion = false ∧
    exc = .valueError none

/-- What the step that ends a call makes it end with. -/
def Concludes (outcome : Except PyExc (Option ApiKeyPrincipal)) : Prop :=
  (∃ result, IssuerAnswers client sdk w l id apiKey result ∧
    (result = .inactive ∧ outcome = .ok none ∨
      ∃ principal, result = .active client.audienceId principal ∧
        outcome = .ok (some principal))) ∨
  ∃ exc, outcome = .error exc ∧ (Documented exc ∨ Escapes client sdk w l id apiKey exc)

variable {client sdk w l id apiKey} {outcome : Except PyExc (Option ApiKeyPrincipal)}

/-- A call that is over at once was refused by the breaker or by the request model. -/
theorem concludes_of_start {spec : Spec} {s : ApiKeyState} (hl : l = .spawn id spec)
    (h : (client.startIntrospect sdk apiKey s).1 = .ret outcome) :
    Concludes client sdk w l id apiKey outcome := by
  unfold startIntrospect enter admitted at h
  split_ifs at h with hrequest hallowed hslot
  · obtain rfl := Prog.ret.inj h
    exact .inr ⟨_, rfl, .inl trivial⟩
  · obtain rfl := Prog.ret.inj h
    exact .inr ⟨_, rfl, .inr (.inr ⟨⟨spec, hl⟩, by simpa using hrequest, rfl⟩)⟩

/-- A call that an answer ends concludes with what the answer says. -/
theorem concludes_of_segment {answer : ApiKeyAnswer} {o : ApiKeyOp} {a : ApiKeyAns o}
    {s : ApiKeyState}
    {r : Prog ApiKeyOp ApiKeyAns (Except PyExc (Option ApiKeyPrincipal)) × ApiKeyState}
    (hl : l = .resume id answer) (ho : w.awaits id = some o) (ha : o.decode answer = some a)
    (h : client.IntrospectSegment sdk apiKey o a s r) (hend : r.1 = .ret outcome) :
    Concludes client sdk w l id apiKey outcome := by
  rcases ends_of_follows h.1 ha h.2 hend with ⟨result, hanswers, hresult⟩ | ⟨exc, rfl, hexc⟩
  · exact .inl ⟨result, ⟨answer, o, hl, ho, hanswers⟩, hresult⟩
  · refine .inr ⟨exc, rfl, hexc.imp_right ?_⟩
    rintro ⟨hdelivers, huntranslated⟩
    exact .inl ⟨answer, o, hl, ho, hdelivers, huntranslated⟩

end Concludes

/-- A call that takes a free slot is not over. -/
theorem not_ended_of_wake {apiKey : String} {o : ApiKeyOp} {a : ApiKeyAns o} {s s' : ApiKeyState}
    {r : Prog ApiKeyOp ApiKeyAns (Except PyExc (Option ApiKeyPrincipal)) × ApiKeyState}
    {outcome : Except PyExc (Option ApiKeyPrincipal)} (ha : o.exec s = some (a, s'))
    (h : client.IntrospectSegment sdk apiKey o a s' r) : r.1 ≠ .ret outcome := by
  obtain ⟨hawaited, hfollows⟩ := h
  obtain ⟨hgranted, -⟩ := exec_of_awaited client hawaited ha
  rw [hgranted] at hfollows
  cases hfollows
  simp

/-- The step that ends an `introspect` call. -/
theorem introspect_concludes {w w' : IntrospectPool} {l : IntrospectAct} {id : ℕ} {apiKey : String}
    {outcome : Except PyExc (Option ApiKeyPrincipal)}
    (hw : (client.scheduler sdk).Guaranteed (client.IntrospectSegment sdk) w)
    (h : (client.scheduler sdk).step w l = some w') (hruns : l.Runs id)
    (hdone : w'.tasks id = some ⟨apiKey, .ret outcome⟩) :
    Concludes client sdk w l id apiKey outcome := by
  rcases hruns with ⟨spec, rfl⟩ | ⟨answer, rfl⟩ | rfl
  · obtain ⟨-, rfl⟩ := introspect_spawn_iff.mp h
    rw [Pool.park_tasks_self] at hdone
    obtain ⟨rfl, hret⟩ := Thread.mk.inj (Option.some.inj hdone)
    exact concludes_of_start rfl hret
  · obtain ⟨spec, o, k, a, ht, ha, rfl⟩ := Scheduler.step_resume_iff.mp h
    rw [Pool.park_tasks_self] at hdone
    obtain ⟨rfl, hret⟩ := Thread.mk.inj (Option.some.inj hdone)
    exact concludes_of_segment rfl (Pool.awaits_of_tasks ht) ha (hw.segment ht a w.shared) hret
  · obtain ⟨spec, o, k, a, s, ht, ha, rfl⟩ := Scheduler.step_wake_iff.mp h
    rw [Pool.park_tasks_self] at hdone
    obtain ⟨rfl, hret⟩ := Thread.mk.inj (Option.some.inj hdone)
    exact absurd hret (not_ended_of_wake ha (hw.segment ht a s))

/-- The step that ends a request: it has presented no key, or its call concludes. -/
theorem keyRequest_concludes {w w' : ApiKeyPool KeyRequest ApiKeyPrincipal}
    {l : ApiKeyAct KeyRequest} {id : ℕ} {request : KeyRequest} {res : Except PyExc ApiKeyPrincipal}
    (hw : (client.requests sdk).Guaranteed (KeyRequestSegment client sdk) w)
    (h : (client.requests sdk).step w l = some w') (hruns : l.Runs id)
    (hdone : w'.tasks id = some ⟨request, .ret res⟩) :
    res = .error (.httpException unauthorized invalidApiKey) ∨
    request.key ≠ "" ∧ ∃ outcome, res = request.conclude sdk outcome ∧
      Concludes client sdk w l id request.key outcome := by
  rcases hruns with ⟨spec, rfl⟩ | ⟨answer, rfl⟩ | rfl
  · obtain ⟨-, rfl⟩ := Scheduler.step_spawn_iff.mp h
    rw [Pool.park_tasks_self] at hdone
    obtain ⟨rfl, hret⟩ := Thread.mk.inj (Option.some.inj hdone)
    change ((client.answer sdk spec).run.settle ApiKeyOp.exec w.shared).1 = .ret res at hret
    by_cases hkey : spec.key = ""
    · rw [run_answer_of_noKey hkey] at hret
      exact .inl (Prog.ret.inj hret).symm
    · rw [run_answer_of_key hkey, Prog.settle_bind_ret, settle_introspect] at hret
      obtain ⟨outcome, hstart, rfl⟩ := Prog.bind_ret_eq_ret hret
      exact .inr ⟨hkey, outcome, rfl, concludes_of_start rfl hstart⟩
  · obtain ⟨spec, o, k, a, ht, ha, rfl⟩ := Scheduler.step_resume_iff.mp h
    rw [Pool.park_tasks_self] at hdone
    obtain ⟨rfl, hret⟩ := Thread.mk.inj (Option.some.inj hdone)
    obtain ⟨hkey, r, hsegment, hr⟩ := hw.segment ht a w.shared
    rw [hr] at hret
    obtain ⟨outcome, hend, rfl⟩ := Prog.bind_ret_eq_ret hret
    exact .inr ⟨hkey, outcome, rfl,
      concludes_of_segment rfl (Pool.awaits_of_tasks ht) ha hsegment hend⟩
  · obtain ⟨spec, o, k, a, s, ht, ha, rfl⟩ := Scheduler.step_wake_iff.mp h
    rw [Pool.park_tasks_self] at hdone
    obtain ⟨rfl, hret⟩ := Thread.mk.inj (Option.some.inj hdone)
    obtain ⟨-, r, hsegment, hr⟩ := hw.segment ht a s
    rw [hr] at hret
    obtain ⟨outcome, hend, -⟩ := Prog.bind_ret_eq_ret hret
    exact absurd hend (not_ended_of_wake ha hsegment)

/-- Whatever was served before, the step that ends a request either makes it return the
principal of a usable reply to its own key, with the required capability, or makes it raise: a
denial, or an exception that was delivered to it and that no handler names. An `introspect`
call returns `none` only for its own reply that the key is unusable. -/
theorem api_key_fail_closed (client : ApiKeyIntrospectionClient) (sdk : ApiKeySdk)
    (s : ApiKeyState) :
    (∀ past w l w' id request res, Run (client.requests sdk).step (.idle s) past w →
      (client.requests sdk).step w l = some w' → l.Runs id →
      w'.tasks id = some ⟨request, .ret res⟩ →
      (∃ apiKey principal, res = .ok principal ∧ request.apiKey = some apiKey ∧ apiKey ≠ "" ∧
        IssuerAnswers client sdk w l id apiKey (.active client.audienceId principal) ∧
        ∀ role, request.dependency = .requireRole role →
          sdk.hasCapability principal role = true) ∨
      ∃ exc, res = .error exc ∧
        (ApiKeyDenial exc ∨ Escapes client sdk w l id request.key exc)) ∧
    ∀ past w l w' id apiKey, Run (client.scheduler sdk).step (.idle s) past w →
      (client.scheduler sdk).step w l = some w' → l.Runs id →
      w'.tasks id = some ⟨apiKey, .ret (.ok none)⟩ →
      IssuerAnswers client sdk w l id apiKey .inactive := by
  constructor
  · intro past w l w' id request res run h hruns hdone
    rcases keyRequest_concludes (keyRequests_guaranteed run) h hruns hdone with
      rfl | ⟨hkey, outcome, rfl, hconcludes⟩
    · exact .inr ⟨_, rfl, .inl .invalidKey⟩
    rcases conclude_cases sdk request outcome with
      ⟨principal, rfl, hok, hrole⟩ | ⟨exc, hraised, hdenied⟩
    · rcases hconcludes with ⟨result, hreceives, ⟨-, hnone⟩ | ⟨principal', rfl, hsome⟩⟩ |
        ⟨exc, herror, -⟩
      · simp at hnone
      · obtain rfl := Option.some.inj (Except.ok.inj hsome)
        obtain ⟨apiKey, hapiKey⟩ : ∃ apiKey, request.apiKey = some apiKey := by
          cases hapiKey : request.apiKey with
          | none => exact absurd (by simp [KeyRequest.key, hapiKey]) hkey
          | some apiKey => exact ⟨apiKey, rfl⟩
        have heq : request.key = apiKey := by simp [KeyRequest.key, hapiKey]
        rw [heq] at hkey hreceives
        exact .inl ⟨apiKey, principal, hok, hapiKey, hkey, hreceives, hrole⟩
      · contradiction
    · refine .inr ⟨exc, hraised, hdenied.imp_right ?_⟩
      rintro ⟨rfl, hundocumented⟩
      rcases hconcludes with ⟨result, -, ⟨-, hok⟩ | ⟨principal, -, hok⟩⟩ | ⟨exc', herror, hexc⟩
      · contradiction
      · contradiction
      · obtain rfl := Except.error.inj herror
        exact hexc.resolve_left hundocumented
  · intro past w l w' id apiKey run h hruns hdone
    have hw := run.invariant introspects_keep (Scheduler.guaranteed_idle _ _)
    rcases introspect_concludes hw h hruns hdone with
      ⟨result, hreceives, ⟨rfl, -⟩ | ⟨principal, -, hok⟩⟩ | ⟨exc, herror, -⟩
    · exact hreceives
    · simp at hok
    · contradiction

/-- The steps of a task on its way to the issuer. -/
def sentLabels {Spec : Type} (spec : Spec) : List (ApiKeyAct Spec) :=
  [.spawn 0 spec, .resume 0 .resumed,
    .resume 0 (.headers [(internalTokenHeader, .text "secret")])]

def repliesWith {Spec : Type} (body : Bytes) : ApiKeyAct Spec :=
  .resume 0 (.response ⟨200, none, [body], none, none⟩)

def writerKeyRequest : KeyRequest := ⟨.requireRole .writer, some "key"⟩

/-- The service of the strict client, which has served nothing yet. -/
abbrev strictRequests := (strictClient 1).requests apiKeyV1Sdk

abbrev strictCalls := (strictClient 1).scheduler apiKeyV1Sdk

/-- A writer's key passes the writer guard; a call for an unusable key returns `none`. -/
theorem api_key_fail_closed_writer :
    (∃ past w w', Run strictRequests.step ((strictClient 1).start 0) past w ∧
      strictRequests.step w (repliesWith writerBody) = some w' ∧
      w'.result 0 = some (.ok writerPrincipal) ∧
      IssuerAnswers (strictClient 1) apiKeyV1Sdk w (repliesWith writerBody) 0 "key"
        (.active "orders" writerPrincipal)) ∧
    ∃ past w w', Run strictCalls.step ((strictClient 1).start 0) past w ∧
      strictCalls.step w (repliesWith unusableKeyBody) = some w' ∧
      IssuerAnswers (strictClient 1) apiKeyV1Sdk w (repliesWith unusableKeyBody) 0 "key"
        .inactive := by
  have hclosed := api_key_fail_closed (strictClient 1) apiKeyV1Sdk (.init (strictClient 1).tuning 0)
  constructor
  · have heval : ((sentLabels writerKeyRequest).foldlM strictRequests.step
        ((strictClient 1).start 0)).any (fun w => true &&
          (strictRequests.step w (repliesWith writerBody)).any fun w' =>
            decide (w'.result 0 = some (.ok writerPrincipal)) &&
            decide ((w'.tasks 0).map Thread.spec = some writerKeyRequest)) = true := by
      decide +kernel
    obtain ⟨past, w, w', run, -, -, hstep, hdone⟩ := Run.exists_step heval
    simp only [Bool.and_eq_true, decide_eq_true_eq] at hdone
    refine ⟨past, w, w', run, hstep, hdone.1, ?_⟩
    rcases hclosed.1 past w _ w' 0 writerKeyRequest _ run hstep (.inr (.inl ⟨_, rfl⟩))
        (Pool.tasks_of_result hdone.1 hdone.2) with
      ⟨apiKey, principal, hok, hkey, -, hanswers, -⟩ | ⟨exc, herror, -⟩
    · obtain rfl := Except.ok.inj hok
      obtain rfl := Option.some.inj hkey
      exact hanswers
    · cases herror
  · have heval : ((sentLabels "key").foldlM strictCalls.step
        ((strictClient 1).start 0)).any (fun w => true &&
          (strictCalls.step w (repliesWith unusableKeyBody)).any fun w' =>
            decide (w'.result 0 = some (.ok none)) &&
            decide ((w'.tasks 0).map Thread.spec = some "key")) = true := by
      decide +kernel
    obtain ⟨past, w, w', run, -, -, hstep, hdone⟩ := Run.exists_step heval
    simp only [Bool.and_eq_true, decide_eq_true_eq] at hdone
    exact ⟨past, w, w', run, hstep, hclosed.2 past w _ w' 0 "key" run hstep (.inr (.inl ⟨_, rfl⟩))
      (Pool.tasks_of_result hdone.1 hdone.2)⟩

end FastapiM8
