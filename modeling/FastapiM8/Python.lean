import Mathlib.Data.Rat.Defs
import Mathlib.Data.List.DropRight
import FastapiM8.Lib.Monitor

/-! The runtime under the modelled services: exceptions, decoded JSON values, HTTP replies,
and coroutines that may raise. -/
namespace FastapiM8

/-- The transport failures of the HTTP client, by class. -/
inductive TransportError where
  | connectError | readError | writeError | closeError
  | connectTimeout | readTimeout | writeTimeout | poolTimeout
  | proxyError | unsupportedProtocol | decodingError
  | localProtocolError | remoteProtocolError
  deriving DecidableEq, Repr

/-- A raised exception. `cancelledError` is the one that does not derive from `Exception`;
`revocationDecisionError` is a subclass of `revocationCheckError` in the source, and the
latter keeps the exception it was raised from. A message is kept where the services word it.
`other` is an exception of a class that no handler of the services names. -/
inductive PyExc where
  | httpStatusError (statusCode : ℕ)
  | transportError (cls : TransportError)
  | valueError (message : Option String)
  | keyError (key : String)
  | typeError
  | overflowError
  | recursionError
  | timeoutError
  | httpException (statusCode : ℕ) (detail : String) (headers : List (String × String) := [])
  | revocationCheckError (cause : PyExc)
  | revocationDecisionError (reason : String)
  | apiKeyIntrospectionError (reason : String)
  | apiKeyQuotaExceededError (retryAfter : Option String)
  | cancelledError
  | other (cls : String)
  deriving DecidableEq, Repr

/-- Whether `except Exception` catches it. -/
def PyExc.isException : PyExc → Bool
  | .cancelledError => false
  | _ => true

/-- Whether `except httpx.HTTPError` catches it. -/
def PyExc.isHttpError : PyExc → Bool
  | .httpStatusError _ | .transportError _ => true
  | _ => false

/-- Whether `except (httpx.ConnectError, httpx.ConnectTimeout)` catches it. -/
def PyExc.isConnectFailure : PyExc → Bool
  | .transportError .connectError | .transportError .connectTimeout => true
  | _ => false

theorem PyExc.isHttpError_of_isConnectFailure {exc : PyExc} (h : exc.isConnectFailure = true) :
    exc.isHttpError = true := by
  unfold isConnectFailure at h
  split at h <;> first | rfl | contradiction

/-- Two steps fail when the first one does, or the second one on its result. -/
theorem bind_eq_error {α β : Type} {x : Except PyExc α} {f : α → Except PyExc β} {exc : PyExc}
    (h : x >>= f = .error exc) : x = .error exc ∨ ∃ a, x = .ok a ∧ f a = .error exc := by
  cases x with
  | error exc' => exact .inl (congrArg Except.error (Except.error.inj h))
  | ok a => exact .inr ⟨a, rfl, h⟩

theorem bind_eq_ok {α β : Type} {x : Except PyExc α} {f : α → Except PyExc β} {b : β} :
    x >>= f = .ok b ↔ ∃ a, x = .ok a ∧ f a = .ok b := by
  cases x with
  | error exc => simp [bind, Except.bind]
  | ok a => simp [bind, Except.bind]

/-- The exceptions that reading a reply can raise: its status, its body, and its fields. -/
def PyExc.ofReply : PyExc → Bool
  | .httpStatusError _ | .valueError _ | .keyError _ | .typeError | .overflowError
  | .recursionError => true
  | _ => false

/-- What `response.json()` can decode to. -/
inductive Json where
  | null
  | bool (b : Bool)
  | int (z : ℤ)
  | float (q : ℚ)
  | nan
  | infinity
  | str (s : String)
  | arr (items : List Json)
  | obj (fields : List (String × Json))

/-- The code points of the digits zero; the other digits of a script follow its zero. The scripts
are those of Unicode 15, which Python 3.12 and 3.13 carry. -/
def decimalZeros : List ℕ :=
  [0x30, 0x660, 0x6F0, 0x7C0, 0x966, 0x9E6, 0xA66, 0xAE6, 0xB66, 0xBE6, 0xC66, 0xCE6, 0xD66, 0xDE6,
    0xE50, 0xED0, 0xF20, 0x1040, 0x1090, 0x17E0, 0x1810, 0x1946, 0x19D0, 0x1A80, 0x1A90, 0x1B50,
    0x1BB0, 0x1C40, 0x1C50, 0xA620, 0xA8D0, 0xA900, 0xA9D0, 0xA9F0, 0xAA50, 0xABF0, 0xFF10, 0x104A0,
    0x10D30, 0x11066, 0x110F0, 0x11136, 0x111D0, 0x112F0, 0x11450, 0x114D0, 0x11650, 0x116C0,
    0x11730, 0x118E0, 0x11950, 0x11C50, 0x11D50, 0x11DA0, 0x11F50, 0x16A60, 0x16AC0, 0x16B50,
    0x1D7CE, 0x1D7D8, 0x1D7E2, 0x1D7EC, 0x1D7F6, 0x1E140, 0x1E2F0, 0x1E4F0, 0x1E950, 0x1FBF0]

/-- The value of a decimal digit of any script. -/
def decimalDigit? (c : Char) : Option ℕ :=
  (decimalZeros.find? fun first => first ≤ c.toNat && c.toNat < first + 10).map (c.toNat - ·)

/-- The blanks that `int` strips. `str.isspace` also has the separators `U+001C` to `U+001F`. -/
def isIntBlank (c : Char) : Bool :=
  let n := c.toNat
  (9 ≤ n && n ≤ 13) || n = 0x20 || n = 0x85 || n = 0xA0 || n = 0x1680 ||
    (0x2000 ≤ n && n ≤ 0x200A) || n = 0x2028 || n = 0x2029 || n = 0x202F || n = 0x205F || n = 0x3000

/-- Decimal digits, with single underscores allowed between two of them. -/
def intDigits? (afterDigit : Bool) : List Char → Option (List ℕ)
  | [] => if afterDigit then some [] else none
  | c :: cs =>
    match decimalDigit? c with
    | some d => (intDigits? true cs).map (d :: ·)
    | none => if c = '_' && afterDigit then intDigits? false cs else none

/-- `sys.get_int_max_str_digits()` as the interpreter starts with it. -/
def maxStrDigits : ℕ := 4300

/-- The number that a string of digits spells, unless it has too many of them. -/
def intValue? (cs : List Char) : Option ℕ :=
  (intDigits? false cs).bind fun digits =>
    if digits.length ≤ maxStrDigits then some (digits.foldl (fun n d => 10 * n + d) 0) else none

/-- `int(s)`: digits with an optional sign and surrounding blanks. -/
def intLiteral? (s : String) : Option ℤ :=
  match (s.toList.dropWhile isIntBlank).rdropWhile isIntBlank with
  | '-' :: cs => (intValue? cs).map fun n => -(n : ℤ)
  | '+' :: cs => (intValue? cs).map Int.ofNat
  | cs => (intValue? cs).map Int.ofNat

example : intLiteral? "\u00A0-1_\u0662\u06F3 " = some (-123) := by decide

namespace Json

/-- `data[key]` for a string key. -/
def getItem (key : String) : Json → Except PyExc Json
  | .obj fields =>
    match fields.lookup key with
    | some v => .ok v
    | none => .error (.keyError key)
  | _ => .error .typeError

/-- `int(data)`. -/
def toInt : Json → Except PyExc ℤ
  | .int z => .ok z
  | .bool b => .ok (if b then 1 else 0)
  | .float q => .ok (q.num.tdiv q.den)
  | .nan => .error (.valueError none)
  | .infinity => .error .overflowError
  | .str s =>
    match intLiteral? s with
    | some z => .ok z
    | none => .error (.valueError none)
  | _ => .error .typeError

theorem ofReply_of_getItem {key : String} {data : Json} {exc : PyExc}
    (h : data.getItem key = .error exc) : exc.ofReply = true := by
  unfold getItem at h
  split at h
  · split at h
    · contradiction
    · obtain rfl := Except.error.inj h
      rfl
  · obtain rfl := Except.error.inj h
    rfl

theorem ofReply_of_toInt {data : Json} {exc : PyExc} (h : data.toInt = .error exc) :
    exc.ofReply = true := by
  unfold toInt at h
  split at h
  case h_6 =>
    split at h
    · contradiction
    · obtain rfl := Except.error.inj h
      rfl
  all_goals
    cases h
    try rfl

theorem getItem_eq_ok {key : String} {data value : Json} :
    data.getItem key = .ok value ↔
      ∃ fields, data = .obj fields ∧ fields.lookup key = some value := by
  unfold getItem
  cases data with
  | obj fields => cases h : fields.lookup key <;> simp [h]
  | _ => simp

/-- The value as an optional one: `null` is Python's `None`. -/
def orNone : Json → Option Json
  | .null => none
  | data => some data

end Json

/-- The first integer that is too large to become a float: `2 ^ 1024 - 2 ^ 970`. -/
def floatLimit : ℕ := (2 ^ 54 - 1) * (2 ^ 97) ^ 10

example : floatLimit = 2 ^ 1024 - 2 ^ 970 := by decide +kernel

/-- `time.monotonic() + seconds`. -/
def addSeconds (now : ℚ) (seconds : ℤ) : Except PyExc ℚ :=
  if seconds < floatLimit then .ok (now + seconds) else .error .overflowError

theorem addSeconds_of_lt {seconds : ℤ} (h : seconds < floatLimit) (now : ℚ) :
    addSeconds now seconds = .ok (now + seconds) := if_pos h

theorem addSeconds_of_le {seconds : ℤ} (h : floatLimit ≤ seconds) (now : ℚ) :
    addSeconds now seconds = .error .overflowError := if_neg (not_lt.mpr h)

/-- What `response.json()` meets in a body: the JSON value it decodes to, something that is not
JSON, or JSON that nests too deeply for the decoder. -/
inductive Content where
  | json (data : Json)
  | malformed
  | tooDeep

/-- A reply of the HTTP client: its status, and its body as far as `json` can tell it. -/
structure Response where
  statusCode : ℕ
  content : Content

namespace Response

def isSuccess (r : Response) : Bool := 200 ≤ r.statusCode && r.statusCode ≤ 299

/-- Redirects are not followed, so every status outside 2xx is an error. -/
def raiseForStatus (r : Response) : Except PyExc Unit :=
  if r.isSuccess then .ok () else .error (.httpStatusError r.statusCode)

def json (r : Response) : Except PyExc Json :=
  match r.content with
  | .json data => .ok data
  | .malformed => .error (.valueError none)
  | .tooDeep => .error .recursionError

/-- The JSON value of the body, when it decodes to one. -/
def body (r : Response) : Option Json :=
  match r.content with
  | .json data => some data
  | .malformed | .tooDeep => none

/-- The decoder gives up on the body with something else than a `ValueError`. -/
def nestsTooDeep (r : Response) : Bool :=
  match r.content with
  | .tooDeep => true
  | .json _ | .malformed => false

theorem raiseForStatus_eq_ok {r : Response} {u : Unit} :
    r.raiseForStatus = .ok u ↔ r.isSuccess = true := by
  unfold raiseForStatus
  cases r.isSuccess <;> simp

theorem json_eq_ok {r : Response} {data : Json} : r.json = .ok data ↔ r.body = some data := by
  unfold json body
  cases r.content <;> simp

theorem ofReply_of_raiseForStatus {r : Response} {exc : PyExc}
    (h : r.raiseForStatus = .error exc) : exc.ofReply = true := by
  unfold raiseForStatus at h
  split at h
  · contradiction
  · obtain rfl := Except.error.inj h
    rfl

theorem ofReply_of_json {r : Response} {exc : PyExc} (h : r.json = .error exc) :
    exc.ofReply = true := by
  unfold json at h
  cases hcontent : r.content with
  | json data => simp [hcontent] at h
  | malformed | tooDeep =>
    simp only [hcontent] at h
    obtain rfl := Except.error.inj h
    rfl

end Response

/-- A header value: configured text, or the token of an `Authorization: Bearer` header. -/
inductive HeaderValue where
  | text (s : String)
  | bearer (token : Json)

abbrev Headers := List (String × HeaderValue)

/-- A coroutine over an effect signature that returns a value or raises. -/
abbrev Py (Op : Type) (Ans : Op → Type) := ExceptT PyExc (Prog Op Ans)

namespace Py

variable {Op : Type} {Ans : Op → Type} {α : Type}

/-- Perform an operation that cannot raise. -/
def perform (o : Op) : Py Op Ans (Ans o) := ExceptT.lift (Prog.perform o)

/-- Run a `try` body and hand its outcome to the handlers. -/
def attempt (p : Py Op Ans α) : Py Op Ans (Except PyExc α) := ExceptT.lift p.run

/-- Await an operation whose answer may be an exception. -/
def await (o : Op) (answer : Ans o → Except PyExc α) : Py Op Ans α :=
  ExceptT.mk (Prog.call o fun a => .ret (answer a))

variable {β : Type}

/-- The handlers of a `try` see the outcome of its body. -/
theorem run_attempt_bind (p : Py Op Ans α) (f : Except PyExc α → Py Op Ans β) :
    (attempt p >>= f).run = p.run >>= fun outcome => (f outcome).run := by
  rw [ExceptT.run_bind]
  exact Prog.bind_assoc p.run _ _

/-- Synchronous steps that follow each other are one synchronous step. -/
theorem lift_bind (e : Except PyExc α) (f : α → Except PyExc β) :
    ((liftM e : Py Op Ans α) >>= fun a => (liftM (f a) : Py Op Ans β)) = liftM (e.bind f) := by
  cases e <;> rfl

/-- A synchronous step is taken at once. -/
theorem run_lift_bind {γ : Type} (e : Except PyExc α) (f : α → Py Op Ans β)
    (next : Except PyExc β → Prog Op Ans γ) :
    ((liftM e : Py Op Ans α) >>= f).run >>= next = match e with
      | .error exc => next (.error exc)
      | .ok a => (f a).run >>= next := by
  cases e <;> rfl

/-- A synchronous continuation acts on the outcome alone. -/
theorem run_bind_lift (p : Py Op Ans α) (f : α → Except PyExc β) :
    (p >>= fun a => (liftM (f a) : Py Op Ans β)).run = p.run >>= fun outcome =>
      .ret (outcome.bind f) := by
  refine Prog.bind_congr fun outcome => ?_
  cases outcome <;> rfl

/-- A finished trace starts with what is awaited, and ends there when that raises. -/
theorem trace_await_bind_iff {o : Op} {answer : Ans o → Except PyExc α} {f : α → Py Op Ans β}
    {tr : List (Prog.Event Op Ans)} {outcome : Except PyExc β} :
    (await o answer >>= f).run.Trace tr (.ret outcome) ↔
      ∃ a rest, tr = ⟨o, a⟩ :: rest ∧ match answer a with
        | .ok x => (f x).run.Trace rest (.ret outcome)
        | .error exc => rest = [] ∧ outcome = .error exc := by
  refine Prog.trace_call_iff.trans (exists_congr fun a => exists_congr fun rest => ?_)
  refine and_congr_right fun _ => ?_
  change Prog.Trace (ExceptT.bindCont f (answer a)) rest (.ret outcome) ↔ _
  cases answer a with
  | ok x => exact Iff.rfl
  | error exc => exact Prog.trace_ret_iff.trans (and_congr_right fun _ => eq_comm)

/-- A finished trace of two coroutines goes on to the second one unless the first one raises. -/
theorem trace_bind_iff {p : Py Op Ans α} {f : α → Py Op Ans β} {tr : List (Prog.Event Op Ans)}
    {outcome : Except PyExc β} : (p >>= f).run.Trace tr (.ret outcome) ↔
      ∃ first tr₁ tr₂, tr = tr₁ ++ tr₂ ∧ p.run.Trace tr₁ (.ret first) ∧ match first with
        | .ok x => (f x).run.Trace tr₂ (.ret outcome)
        | .error exc => tr₂ = [] ∧ outcome = .error exc := by
  refine Prog.trace_bind_iff.trans (exists_congr fun first => exists_congr fun tr₁ => ?_)
  refine exists_congr fun tr₂ => and_congr_right fun _ => and_congr_right fun _ => ?_
  cases first with
  | ok x => exact Iff.rfl
  | error exc => exact Prog.trace_ret_iff.trans (and_congr_right fun _ => eq_comm)

/-- Under admitted answers the coroutine raises only exceptions that satisfy `P`. -/
def Raises (A : (o : Op) → Ans o → Prop) (P : PyExc → Prop) (p : Py Op Ans α) : Prop :=
  p.run.Ends A fun outcome => ∀ exc, outcome = .error exc → P exc

variable {A : (o : Op) → Ans o → Prop} {P : PyExc → Prop}

theorem raises_pure (a : α) : Raises A P (pure a : Py Op Ans α) := by
  intro exc h
  contradiction

theorem raises_lift {r : Except PyExc α} (h : ∀ exc, r = .error exc → P exc) :
    Raises A P (liftM r : Py Op Ans α) := h

theorem Raises.bind {p : Py Op Ans α} {f : α → Py Op Ans β} (hp : Raises A P p)
    (hf : ∀ a, Raises A P (f a)) : Raises A P (p >>= f) := by
  unfold Raises
  rw [ExceptT.run_bind]
  refine Prog.ends_bind.mpr (Prog.Ends.mono hp fun outcome h => ?_)
  cases outcome with
  | ok a => exact hf a
  | error exc =>
    intro exc' heq
    exact h exc' (congrArg Except.error (Except.error.inj heq))

theorem raises_perform (o : Op) : Raises A P (perform o : Py Op Ans (Ans o)) := by
  intro a _ exc h
  contradiction

theorem raises_await {o : Op} {answer : Ans o → Except PyExc α}
    (h : ∀ a, A o a → ∀ exc, answer a = .error exc → P exc) : Raises A P (await o answer) := h

/-- A handler sees what the body raises, and may raise other exceptions of its own. -/
theorem Raises.attempt_bind {P' : PyExc → Prop} {p : Py Op Ans α} {f : Except PyExc α → Py Op Ans β}
    (hp : Raises A P p) (hok : ∀ a, Raises A P' (f (.ok a)))
    (herror : ∀ exc, P exc → Raises A P' (f (.error exc))) : Raises A P' (attempt p >>= f) := by
  unfold Raises
  rw [run_attempt_bind]
  refine Prog.ends_bind.mpr (Prog.Ends.mono hp fun outcome h => ?_)
  cases outcome with
  | ok a => exact hok a
  | error exc => exact herror exc (h exc rfl)

end Py

end FastapiM8
