import FastapiM8.ApiKey.Deps
import FastapiM8.InternalAuth.Segments
import FastapiM8.Lib.Monitor

/-! An `introspect` call together with its provider: which of the exceptions that the two HTTP
clients and the replies can raise come out of it, and out of the dependency. -/
namespace FastapiM8

open Prog Monitor ApiKeyIntrospectionClient

/-- What a call does when its provider's coroutines are part of it. -/
abbrev KeyWireOp := ApiKeyOp ⊕ AuthOp

abbrev KeyWireAns : KeyWireOp → Type := Prog.SumAns ApiKeyAns AuthAns

/-- Awaiting the provider runs its coroutine. -/
def ApiKeyOp.wire (provider : InternalAuthProvider) :
    (o : ApiKeyOp) → Prog KeyWireOp KeyWireAns (ApiKeyAns o)
  | .authHeaders => provider.headers.run.inr
  | .authInvalidate => provider.invalidate.run.inr
  | o => Prog.perform (Sum.inl o)

namespace ApiKeyIntrospectionClient

variable (client : ApiKeyIntrospectionClient) (sdk : ApiKeySdk)

/-- An `introspect` call with its provider. -/
def wiredIntrospect (apiKey : String) :
    Prog KeyWireOp KeyWireAns (Except PyExc (Option ApiKeyPrincipal)) :=
  (client.introspect sdk apiKey).run.interp (ApiKeyOp.wire client.auth)

/-- The principal dependency with its provider. -/
def wiredPrincipal (apiKey : Option String) :
    Prog KeyWireOp KeyWireAns (Except PyExc ApiKeyPrincipal) :=
  (client.getCurrentApiKeyPrincipal sdk apiKey).run.interp (ApiKeyOp.wire client.auth)

end ApiKeyIntrospectionClient

/-- The exceptions that `_send` does not translate, and that `introspect` does not document. -/
def Untyped (exc : PyExc) : Prop := exc.isHttpError = false ∧ ¬ Documented exc

/-- The coroutine ended with an untyped exception. -/
def Escaped {α : Type} (outcome : Except PyExc α) : Prop :=
  ∃ exc, outcome = .error exc ∧ Untyped exc

/-- A reply of the exchange endpoint that can be cached: it grants a token, and its lifetime fits
a float. -/
def ServiceTokenInternalAuth.Usable (auth : ServiceTokenInternalAuth) (r : Response) : Prop :=
  ∃ token expiresIn, r.Grants token expiresIn ∧ auth.lifetime expiresIn < floatLimit

/-- The exchange raises what is no HTTP error, or is answered by a success that cannot be
cached. -/
def ServiceTokenInternalAuth.ExchangeMishap (auth : ServiceTokenInternalAuth)
    (r : Except PyExc Response) : Prop :=
  Escaped r ∨ ∃ response, r = .ok response ∧ response.isSuccess = true ∧ ¬ auth.Usable response

/-- What goes wrong with a request of a call in a way that nothing handles. -/
def ApiKeyIntrospectionClient.Mishap (client : ApiKeyIntrospectionClient) :
    (o : KeyWireOp) → KeyWireAns o → Prop
  | .inl (.post _), r => Escaped (client.collect r)
  | .inr (.exchange _), r => ∃ auth, client.auth = .serviceToken auth ∧ auth.ExchangeMishap r
  | _, _ => False

/-- Without a cancellation, waiting for a slot raises nothing but a `TimeoutError`, and coming
to the slot or waiting for the lock raises nothing. -/
def Undisturbed : (o : KeyWireOp) → KeyWireAns o → Prop
  | .inl (.semaphoreAcquire _), a => ∀ exc, a = .error exc → exc = .timeoutError
  | .inl .checkpoint, a => a = .ok ()
  | .inr .lockAcquire, a => a = .ok ()
  | _, _ => True

/-- Watches a provider for mishaps. -/
def exchangeWatch (auth : ServiceTokenInternalAuth) : Monitor AuthOp AuthAns Prop where
  allows
    | .lockAcquire, a => a = .ok ()
    | _, _ => True
  next mishap
    | .exchange _, r => mishap ∨ auth.ExchangeMishap r
    | _, _ => mishap

section Provider

variable {auth : ServiceTokenInternalAuth} {mishap : Prop}

theorem untyped_of_ofReply {exc : PyExc} (hreply : exc.ofReply = true)
    (hhttp : exc.isHttpError = false) : Untyped exc := by
  refine ⟨hhttp, fun hdoc => ?_⟩
  cases exc <;> contradiction

theorem escaped_ok {α : Type} (a : α) : ¬ Escaped (.ok a : Except PyExc α) := by
  rintro ⟨exc, h, -⟩
  contradiction

theorem escaped_error {α : Type} {exc : PyExc} :
    Escaped (.error exc : Except PyExc α) ↔ Untyped exc := by
  constructor
  · rintro ⟨exc', h, huntyped⟩
    obtain rfl := Except.error.inj h
    exact huntyped
  · exact fun h => ⟨exc, rfl, h⟩

theorem escaped_map {α β : Type} {f : α → β} {outcome : Except PyExc α} :
    Escaped (outcome.map f) ↔ Escaped outcome := by
  cases outcome with
  | error exc => exact escaped_error.trans escaped_error.symm
  | ok a => exact iff_of_false (escaped_ok (f a)) (escaped_ok a)

/-- A reply that grants a token meets a mishap when its lifetime does not fit. -/
theorem exchangeMishap_of_grants (auth : ServiceTokenInternalAuth) {r : Response} {token : Json}
    {expiresIn : ℤ}
    (h : r.Grants token expiresIn) :
    auth.ExchangeMishap (.ok r) ↔ ¬ auth.lifetime expiresIn < floatLimit := by
  have husable : auth.Usable r ↔ auth.lifetime expiresIn < floatLimit := by
    constructor
    · rintro ⟨token', expiresIn', hgrants, hfits⟩
      have heq := (grant_eq_ok.mpr hgrants).symm.trans (grant_eq_ok.mpr h)
      obtain ⟨-, rfl⟩ := Prod.mk.inj (Except.ok.inj heq)
      exact hfits
    · exact fun hfits => ⟨token, expiresIn, h, hfits⟩
  constructor
  · rintro (hescaped | ⟨response, hr, -, hunusable⟩)
    · exact absurd hescaped (escaped_ok r)
    · obtain rfl := Except.ok.inj hr
      rwa [← husable]
  · intro hfits
    exact .inr ⟨r, rfl, h.1, husable.not.mpr hfits⟩

/-- A reply that grants nothing meets a mishap when its status is a success. -/
theorem exchangeMishap_of_error {r : Response} {exc : PyExc} (h : r.grant = .error exc) :
    auth.ExchangeMishap (.ok r) ↔ Untyped exc := by
  have hunusable : ¬ auth.Usable r := by
    rintro ⟨token, expiresIn, hgrants, -⟩
    have hok := grant_eq_ok.mpr hgrants
    rw [h] at hok
    contradiction
  cases hstatus : r.isSuccess with
  | true =>
    have huntyped := untyped_of_ofReply (ofReply_of_grant h) (not_httpError_of_grant hstatus h)
    exact iff_of_true (.inr ⟨r, rfl, hstatus, hunusable⟩) huntyped
  | false =>
    refine iff_of_false ?_ ?_
    · rintro (hescaped | ⟨response, hr, hsuccess, -⟩)
      · exact escaped_ok r hescaped
      · obtain rfl := Except.ok.inj hr
        simp [hstatus] at hsuccess
    · have hraise : r.raiseForStatus = .error (.httpStatusError r.statusCode) := by
        simp [Response.raiseForStatus, hstatus]
      have hgrant : r.grant = .error (.httpStatusError r.statusCode) := by
        rw [Response.grant, hraise]
        rfl
      rw [h] at hgrant
      obtain rfl := Except.error.inj hgrant
      rintro ⟨hhttp, -⟩
      contradiction

theorem watches_finish {mishap' : Prop} {outcome : Except PyExc Json}
    (h : mishap' ↔ mishap ∨ Escaped outcome) :
    (exchangeWatch auth).Watches (fun mishap' outcome => mishap' ↔ mishap ∨ Escaped outcome)
      mishap' (ServiceTokenInternalAuth.finish outcome) := by
  refine ⟨trivial, fun _ _ => ?_⟩
  exact h.trans (or_congr_right escaped_map.symm)

theorem watches_exchangeThen :
    (exchangeWatch auth).Watches (fun mishap' outcome => mishap' ↔ mishap ∨ Escaped outcome)
      mishap (auth.exchangeThen ServiceTokenInternalAuth.finish) := by
  refine ⟨trivial, fun r _ => ?_⟩
  change Except PyExc Response at r
  cases r with
  | error exc =>
    refine watches_finish (or_congr_right ?_)
    constructor
    · rintro (hescaped | ⟨response, hr, -⟩)
      · exact escaped_error.mpr (escaped_error.mp hescaped)
      · contradiction
    · exact fun hescaped => .inl (escaped_error.mpr (escaped_error.mp hescaped))
  | ok response =>
    change (exchangeWatch auth).Watches _ (mishap ∨ auth.ExchangeMishap (.ok response))
      (auth.keepThen _ response.grant)
    cases hgrant : response.grant with
    | error exc =>
      refine watches_finish (or_congr_right ?_)
      exact (exchangeMishap_of_error hgrant).trans escaped_error.symm
    | ok granted =>
      obtain ⟨token, expiresIn⟩ := granted
      have hmishap := exchangeMishap_of_grants auth (grant_eq_ok.mp hgrant)
      refine ⟨trivial, fun _ _ => ⟨trivial, fun now _ => ?_⟩⟩
      unfold addSeconds
      by_cases hfits : auth.lifetime expiresIn < floatLimit
      · simp only [if_pos hfits]
        refine ⟨trivial, fun _ _ => watches_finish (or_congr_right ?_)⟩
        exact hmishap.trans (iff_of_false (not_not.mpr hfits) (escaped_ok token))
      · simp only [if_neg hfits]
        refine watches_finish (or_congr_right (hmishap.trans (iff_of_true hfits ?_)))
        exact escaped_error.mpr ⟨rfl, id⟩

/-- A `headers` call ends with an untyped exception exactly when it has met a mishap. -/
theorem watches_headers :
    (exchangeWatch auth).Watches (fun mishap' outcome => mishap' ↔ mishap ∨ Escaped outcome)
      mishap auth.headers.run := by
  rw [ServiceTokenInternalAuth.run_headers]
  refine ⟨trivial, fun granted hgranted => ?_⟩
  obtain rfl : granted = Except.ok () := hgranted
  refine ⟨trivial, fun cached _ => ?_⟩
  change Option Json at cached
  cases cached with
  | none => exact watches_exchangeThen
  | some token =>
    refine ⟨trivial, fun now _ => ⟨trivial, fun expiresAt _ => ?_⟩⟩
    change (exchangeWatch auth).Watches _ mishap (if (now : ℚ) < expiresAt then _ else _)
    split
    · exact watches_finish (by simp [escaped_ok])
    · exact watches_exchangeThen

end Provider

/-- Watches a call with its provider for mishaps. -/
def wireWatch (client : ApiKeyIntrospectionClient) : Monitor KeyWireOp KeyWireAns Prop where
  allows := Undisturbed
  next mishap o a := mishap ∨ client.Mishap o a

/-- The same watch over the call alone: a provider that meets a mishap raises it. -/
def introspectWatch (client : ApiKeyIntrospectionClient) : Monitor ApiKeyOp ApiKeyAns Prop where
  allows
    | .semaphoreAcquire _, a => ∀ exc, a = .error exc → exc = .timeoutError
    | .checkpoint, a => a = .ok ()
    | .authInvalidate, a => ∃ retry, a = .ok retry
    | _, _ => True
  next mishap
    | .authHeaders, r => mishap ∨ Escaped r
    | .post _, r => mishap ∨ Escaped (client.collect r)
    | _, _ => mishap

section Call

variable {client : ApiKeyIntrospectionClient} {sdk : ApiKeySdk} {mishap : Prop}

theorem watches_inr {auth : ServiceTokenInternalAuth} (hauth : client.auth = .serviceToken auth)
    {α : Type} {Q : Prop → α → Prop} {p : Prog AuthOp AuthAns α}
    (h : (exchangeWatch auth).Watches Q mishap p) :
    (wireWatch client).Watches Q mishap (p.inr : Prog KeyWireOp KeyWireAns α) := by
  refine h.interp fun mishap' o _ => ⟨trivial, fun a ha => ?_⟩
  cases o with
  | lockAcquire => exact ⟨ha, or_false _⟩
  | exchange request =>
    have hmishap : (∃ auth', client.auth = .serviceToken auth' ∧ auth'.ExchangeMishap a) =
        auth.ExchangeMishap a := by
      simp [hauth]
    exact ⟨trivial, congrArg (mishap' ∨ ·) hmishap⟩
  | _ => exact ⟨trivial, or_false _⟩

/-- The coroutines of the provider do to the watch what awaiting them does. -/
theorem watches_wire (mishap : Prop) (o : ApiKeyOp) :
    (wireWatch client).Watches (fun mishap' a =>
        (introspectWatch client).allows o a ∧ mishap' = (introspectWatch client).next mishap o a)
      mishap (ApiKeyOp.wire client.auth o) := by
  cases o with
  | authHeaders =>
    change (wireWatch client).Watches (fun mishap' outcome =>
      True ∧ mishap' = (mishap ∨ Escaped outcome)) mishap client.auth.headers.run.inr
    cases hauth : client.auth with
    | static headers =>
      have hnone : (mishap ∨ Escaped (.ok headers)) = mishap := by
        simp [escaped_ok]
      exact ⟨trivial, hnone.symm⟩
    | serviceToken auth =>
      refine watches_inr hauth (watches_headers.mono fun mishap' outcome h => ?_)
      exact ⟨trivial, propext h⟩
  | authInvalidate =>
    change (wireWatch client).Watches (fun mishap' outcome =>
      (∃ retry, outcome = .ok retry) ∧ mishap' = mishap) mishap client.auth.invalidate.run.inr
    cases hauth : client.auth with
    | static headers => exact ⟨⟨false, rfl⟩, rfl⟩
    | serviceToken auth =>
      refine watches_inr hauth ?_
      change (exchangeWatch auth).Watches _ mishap ServiceTokenInternalAuth.invalidate.run
      rw [ServiceTokenInternalAuth.run_invalidate]
      refine ⟨trivial, fun granted hgranted => ?_⟩
      obtain rfl : granted = Except.ok () := hgranted
      exact ⟨trivial, fun _ _ => ⟨trivial, fun _ _ => ⟨trivial, fun _ _ => ⟨⟨true, rfl⟩, rfl⟩⟩⟩⟩
  | semaphoreAcquire timeout => exact ⟨trivial, fun a ha => ⟨ha, or_false _⟩⟩
  | checkpoint => exact ⟨trivial, fun a ha => ⟨ha, or_false _⟩⟩
  | post request => exact ⟨trivial, fun a _ => ⟨trivial, rfl⟩⟩
  | _ => exact ⟨trivial, fun a _ => ⟨trivial, or_false _⟩⟩

/-- The result of a call is typed: a principal, `none`, or one of its two exceptions. -/
def TypedOutcome {α : Type} : Except PyExc α → Prop
  | .ok _ => True
  | .error exc => Documented exc

/-- A call ends untyped exactly when it has met a mishap. -/
abbrev endsTyped (mishap : Prop) (outcome : Except PyExc (Option ApiKeyPrincipal)) : Prop :=
  mishap ↔ ¬ TypedOutcome outcome

theorem typed_of_verdict (client : ApiKeyIntrospectionClient) (sdk : ApiKeySdk)
    (reply : IntrospectionReply) :
    TypedOutcome (client.verdict sdk reply) := by
  rcases verdict_cases client sdk reply with
    ⟨exc, hverdict, hdoc⟩ | ⟨-, ⟨-, hverdict⟩ | ⟨p, -, hverdict⟩⟩
  · rw [hverdict]
    exact hdoc
  · rw [hverdict]
    trivial
  · rw [hverdict]
    trivial

theorem watches_typed {outcome : Except PyExc (Option ApiKeyPrincipal)}
    (h : TypedOutcome outcome) : endsTyped False outcome :=
  iff_of_false id (not_not.mpr h)

/-- The end of a call: nothing goes wrong any more. -/
theorem watches_leave_typed {outcome : Except PyExc IntrospectionReply}
    (h : mishap ↔ Escaped outcome) (hdone : ∀ exc, outcome = .error exc → exc.isHttpError = false) :
    (introspectWatch client).Watches endsTyped mishap (client.leave sdk outcome) := by
  refine ⟨trivial, fun _ _ => ?_⟩
  cases outcome with
  | error exc =>
    have htyped : Escaped (.error exc : Except PyExc IntrospectionReply) ↔
        ¬ TypedOutcome (.error exc : Except PyExc (Option ApiKeyPrincipal)) :=
      escaped_error.trans ⟨fun huntyped => huntyped.2, fun hdoc => ⟨hdone exc rfl, hdoc⟩⟩
    exact h.trans htyped
  | ok reply =>
    have hnone : mishap = False := propext (h.trans (iff_false_intro (escaped_ok reply)))
    rw [hnone]
    by_cases hrejects : reply.Rejects
    · simp only [run_interpret_of_rejects hrejects]
      refine ⟨trivial, fun r hr => ?_⟩
      obtain ⟨retry, rfl⟩ := hr
      exact watches_typed trivial
    · simp only [run_interpret_of_accepts hrejects]
      have htyped := watches_typed (typed_of_verdict client sdk reply)
      rcases replyReport sdk reply with - | - | -
      · exact htyped
      · exact ⟨trivial, fun _ _ => htyped⟩
      · exact ⟨trivial, fun _ _ => htyped⟩

/-- A transmission that failed without a mishap failed with an HTTP error or a documented one. -/
theorem watches_giveUp_typed {exc : PyExc} (h : mishap ↔ Untyped exc) :
    (introspectWatch client).Watches endsTyped mishap (giveUp (client.leave sdk) exc) := by
  unfold giveUp
  cases hhttp : exc.isHttpError with
  | true =>
    have hnone : ¬ Untyped exc := fun huntyped => by simp [huntyped.1] at hhttp
    refine ⟨trivial, fun _ _ => watches_leave_typed ?_ ?_⟩
    · exact h.trans (iff_of_false hnone fun hescaped => (escaped_error.mp hescaped).2 trivial)
    · intro exc' heq
      obtain rfl := Except.error.inj heq
      rfl
  | false =>
    simp only [Bool.false_eq_true, ↓reduceIte]
    refine watches_leave_typed (h.trans escaped_error.symm) fun exc' heq => ?_
    obtain rfl := Except.error.inj heq
    exact hhttp

theorem watches_afterRetry_typed {outcome : Except PyExc IntrospectionReply}
    (h : mishap ↔ Escaped outcome) :
    (introspectWatch client).Watches endsTyped mishap
      (afterRetry (client.leave sdk) outcome) := by
  cases outcome with
  | ok reply => exact watches_leave_typed h fun exc heq => by simp at heq
  | error exc => exact watches_giveUp_typed (h.trans escaped_error)

/-- A transmission meets a mishap exactly when its outcome is untyped. -/
theorem watches_transmitThen_typed {apiKey : String}
    {next : Except PyExc IntrospectionReply →
      Prog ApiKeyOp ApiKeyAns (Except PyExc (Option ApiKeyPrincipal))}
    (hnext : ∀ (mishap : Prop) outcome, (mishap ↔ Escaped outcome) →
      (introspectWatch client).Watches endsTyped mishap (next outcome)) :
    (introspectWatch client).Watches endsTyped False (client.transmitThen apiKey next) := by
  refine ⟨trivial, fun headers _ => ?_⟩
  change Except PyExc Headers at headers
  cases headers with
  | error exc =>
    refine hnext _ _ ?_
    change False ∨ Escaped (.error exc : Except PyExc Headers) ↔ _
    rw [false_or, escaped_error, escaped_error]
  | ok headers =>
    have hnone : (introspectWatch client).next False .authHeaders (.ok headers) = False := by
      change (False ∨ Escaped (.ok headers)) = False
      simp [escaped_ok]
    rw [hnone]
    refine ⟨trivial, fun r _ => hnext _ _ ?_⟩
    change False ∨ Escaped (client.collect r) ↔ _
    rw [false_or]

theorem watches_afterTransmit_typed {apiKey : String} {outcome : Except PyExc IntrospectionReply}
    (h : mishap ↔ Escaped outcome) :
    (introspectWatch client).Watches endsTyped mishap
      (client.afterTransmit apiKey (client.leave sdk) outcome) := by
  cases outcome with
  | ok reply => exact watches_leave_typed h fun exc heq => by simp at heq
  | error exc =>
    cases hconnect : exc.isConnectFailure with
    | false =>
      rw [afterTransmit_of_sent hconnect]
      exact watches_giveUp_typed (h.trans escaped_error)
    | true =>
      have hhttp := PyExc.isHttpError_of_isConnectFailure hconnect
      have hnone : mishap = False := by
        refine propext (h.trans (iff_false_intro fun hescaped => ?_))
        have huntyped := (escaped_error.mp hescaped).1
        simp [hhttp] at huntyped
      rw [afterTransmit_of_connect hconnect, hnone]
      exact watches_transmitThen_typed fun _ _ => watches_afterRetry_typed

/-- A call for a key that the request model accepts. -/
theorem watches_introspect_typed {apiKey : String}
    (hrequest : sdk.request apiKey client.tuning.schemaVersion = true) :
    (introspectWatch client).Watches endsTyped False (client.introspect sdk apiKey).run := by
  rw [run_introspect, if_pos hrequest]
  refine ⟨trivial, fun allowed _ => ?_⟩
  change Bool at allowed
  cases allowed with
  | false => exact watches_typed trivial
  | true =>
    refine ⟨trivial, fun acquired hacquired => ?_⟩
    change Except PyExc Unit at acquired
    cases acquired with
    | error exc =>
      obtain rfl := hacquired exc rfl
      exact watches_typed trivial
    | ok _ =>
      refine ⟨trivial, fun entered hentered => ?_⟩
      obtain rfl : entered = Except.ok () := hentered
      exact watches_transmitThen_typed fun _ _ => watches_afterTransmit_typed

end Call

/-- The answers of the dependency: the principal, 401, 429 or 503. -/
def TypedAnswer : Except PyExc ApiKeyPrincipal → Prop
  | .ok _ => True
  | .error exc => exc = .httpException unauthorized invalidApiKey ∨
      (∃ retryAfter, exc = apiKeyQuotaDenial retryAfter) ∨
      exc = .httpException unavailable "API key verification unavailable."

theorem typedAnswer_of_outcome {outcome : Except PyExc (Option ApiKeyPrincipal)}
    (h : TypedOutcome outcome) : TypedAnswer (principalOutcome outcome) := by
  match outcome with
  | .ok none => exact .inl rfl
  | .ok (some principal) => trivial
  | .error exc =>
    cases exc with
    | apiKeyQuotaExceededError retryAfter => exact .inr (.inl ⟨retryAfter, rfl⟩)
    | apiKeyIntrospectionError reason => exact .inr (.inr rfl)
    | _ => exact absurd h id

theorem principalOutcome_of_untyped {outcome : Except PyExc (Option ApiKeyPrincipal)}
    (h : ¬ TypedOutcome outcome) :
    ∃ exc, ¬ Documented exc ∧ principalOutcome outcome = .error exc := by
  cases outcome with
  | ok principal => exact absurd trivial h
  | error exc =>
    refine ⟨exc, h, ?_⟩
    cases exc with
    | apiKeyQuotaExceededError retryAfter => exact absurd trivial h
    | apiKeyIntrospectionError reason => exact absurd trivial h
    | _ => rfl

section Traces

variable {client : ApiKeyIntrospectionClient} {sdk : ApiKeySdk} {mishap : Prop}
  {tr : List (Event KeyWireOp KeyWireAns)}

/-- The watch remembers every mishap of a trace. -/
theorem after_wireWatch :
    (wireWatch client).after mishap tr ↔ mishap ∨ ∃ e ∈ tr, client.Mishap e.1 e.2 := by
  induction tr generalizing mishap with
  | nil => simp
  | cons e tr ih =>
    rw [after_cons, ih]
    simp [wireWatch, or_assoc]

/-- What a finished program promises beside its watch. -/
theorem ends_of_trace {α : Type} {Q : Prop → α → Prop} {p : Prog KeyWireOp KeyWireAns α} {a : α}
    (hp : (wireWatch client).Watches Q False p) (htr : p.Trace tr (.ret a))
    (hcalm : ∀ e ∈ tr, Undisturbed e.1 e.2) : Q (∃ e ∈ tr, client.Mishap e.1 e.2) a := by
  have hend : Q ((wireWatch client).after False tr) a := (hp.sound htr hcalm).2
  have hafter : (wireWatch client).after False tr = ∃ e ∈ tr, client.Mishap e.1 e.2 := by
    simp [after_wireWatch]
  rwa [hafter] at hend

end Traces

/-- The dependency answers typed without a mishap; with one, an exception escapes. -/
abbrev AnswersTyped (mishap : Prop) (answer : Except PyExc ApiKeyPrincipal) : Prop :=
  (¬ mishap → TypedAnswer answer) ∧ (mishap → ∃ exc, ¬ Documented exc ∧ answer = .error exc)

/-- A call, and with it the principal dependency, ends typed exactly when nothing went wrong
with its requests beyond HTTP errors; otherwise the exception escapes. -/
theorem typed_outcomes_iff (client : ApiKeyIntrospectionClient) (sdk : ApiKeySdk)
    (hrequest : ∀ apiKey, apiKey ≠ "" → sdk.request apiKey client.tuning.schemaVersion = true) :
    (∀ apiKey tr outcome, apiKey ≠ "" →
      (client.wiredIntrospect sdk apiKey).Trace tr (.ret outcome) →
      (∀ e ∈ tr, Undisturbed e.1 e.2) →
      (TypedOutcome outcome ↔ ¬ ∃ e ∈ tr, client.Mishap e.1 e.2)) ∧
    ∀ apiKey tr answer, (client.wiredPrincipal sdk apiKey).Trace tr (.ret answer) →
      (∀ e ∈ tr, Undisturbed e.1 e.2) →
      AnswersTyped (∃ e ∈ tr, client.Mishap e.1 e.2) answer := by
  constructor
  · intro apiKey tr outcome hkey htr hcalm
    have hwired := (watches_introspect_typed (hrequest apiKey hkey)).interp
      fun mishap o _ => watches_wire mishap o
    have hends : endsTyped (∃ e ∈ tr, client.Mishap e.1 e.2) outcome :=
      ends_of_trace hwired htr hcalm
    exact (not_iff_comm.mp hends.symm).symm
  · intro apiKey tr answer htr hcalm
    have hprincipal : (introspectWatch client).Watches AnswersTyped False
        (client.getCurrentApiKeyPrincipal sdk apiKey).run := by
      by_cases hkey : apiKey.getD "" = ""
      · rw [run_principal_of_noKey hkey]
        exact ⟨fun _ => .inl rfl, False.elim⟩
      · rw [run_principal_of_key hkey]
        refine watches_bind.mpr ((watches_introspect_typed (hrequest _ hkey)).mono ?_)
        intro mishap outcome hends
        refine ⟨fun hnone => typedAnswer_of_outcome ?_, fun hmishap => ?_⟩
        · exact not_not.mp (hends.not.mp hnone)
        · exact principalOutcome_of_untyped (hends.mp hmishap)
    exact ends_of_trace (hprincipal.interp fun mishap o _ => watches_wire mishap o) htr hcalm

/-- A client that exchanges its credential. -/
def exchangingClient : ApiKeyIntrospectionClient :=
  { strictClient 1 with
    auth := buildInternalAuth {
      privateApiSecret := some "secret", internalClientId := some "orders"
      serviceTokenExchangeEnabled := true, serviceTokenScopes := none
      serviceTokenRefreshLeewaySeconds := 30
      introspectionUrl := some "http://auth:8000/user/private/v1/jti-status" } }

/-- A call whose exchange gets a reply, up to the end of the exchange. -/
def exchangeTrace (response : Response) : List (Event KeyWireOp KeyWireAns) :=
  [⟨.inl .allowsCall, true⟩, ⟨.inl (.semaphoreAcquire 2), Except.ok ()⟩,
    ⟨.inl .checkpoint, Except.ok ()⟩, ⟨.inr .lockAcquire, Except.ok ()⟩,
    ⟨.inr .getToken, none⟩,
    ⟨.inr (.exchange ⟨"http://auth:8000/user/private/v1/service-token",
      [(internalClientHeader, .text "orders"), (internalTokenHeader, .text "secret")],
      ["introspection"]⟩), Except.ok response⟩,
    ⟨.inr .lockRelease, ()⟩]

/-- An exchange that is answered 503 is a transport failure. -/
theorem typed_outcomes_iff_unavailable :
    ∃ tr, (exchangingClient.wiredIntrospect apiKeyV1Sdk "key").Trace tr
        (.ret (.error (.apiKeyIntrospectionError "transport"))) ∧
      ¬ ∃ e ∈ tr, exchangingClient.Mishap e.1 e.2 := by
  have htr : (exchangingClient.wiredIntrospect apiKeyV1Sdk "key").Trace
      (exchangeTrace ⟨503, .malformed⟩ ++ [⟨.inl .recordFailure, ()⟩, ⟨.inl .semaphoreRelease, ()⟩])
      (.ret (.error (.apiKeyIntrospectionError "transport"))) := by
    exact .perform _ (.perform _ (.perform _ (.perform _ (.perform _ (.perform _ (.perform _
      (.perform _ (.perform _ (.stop _)))))))))
  refine ⟨_, htr, ?_⟩
  refine ((typed_outcomes_iff exchangingClient apiKeyV1Sdk ?_).1 "key" _ _ (by decide) htr ?_).mp
    trivial
  · intro apiKey hkey
    simp [apiKeyV1Sdk, hkey, exchangingClient, strictClient]
  · simp [exchangeTrace, Undisturbed]

/-- An exchange that is answered 200 without a JSON body raises through the call and through
the dependency. -/
theorem untyped_outcome :
    ¬ ∀ (client : ApiKeyIntrospectionClient) (sdk : ApiKeySdk),
      (∀ apiKey, apiKey ≠ "" → sdk.request apiKey client.tuning.schemaVersion = true) →
      ∀ apiKey tr outcome, apiKey ≠ "" →
        (client.wiredIntrospect sdk apiKey).Trace tr (.ret outcome) →
        (∀ e ∈ tr, Undisturbed e.1 e.2) → TypedOutcome outcome := by
  intro h
  have htr : (exchangingClient.wiredIntrospect apiKeyV1Sdk "key").Trace
      (exchangeTrace ⟨200, .malformed⟩ ++ [⟨.inl .semaphoreRelease, ()⟩])
      (.ret (.error (.valueError none))) := by
    exact .perform _ (.perform _ (.perform _ (.perform _ (.perform _ (.perform _ (.perform _
      (.perform _ (.stop _))))))))
  refine h exchangingClient apiKeyV1Sdk ?_ "key" _ _ (by decide) htr ?_
  · intro apiKey hkey
    simp [apiKeyV1Sdk, hkey, exchangingClient, strictClient]
  · simp [exchangeTrace, Undisturbed]

end FastapiM8
