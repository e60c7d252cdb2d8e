import FastapiM8.Lib.Lock
import FastapiM8.Python

/-! The compatibility guard: the installed dependencies are checked once in a process, by whichever
of its threads comes first. -/
namespace FastapiM8

def authSdk : String := "auth-sdk-m8"

/-- The required version ranges of each minor release. -/
def compatMatrix : List (String × List (String × String)) :=
  [("1.0", [(authSdk, ">=0.7.0,<0.8.0")]), ("1.1", [(authSdk, ">=0.7.1,<0.8.0")]),
    ("1.2", [(authSdk, ">=1.0.0,<2.0.0")]), ("1.3", [(authSdk, ">=1.1.0,<2.0.0")]),
    ("1.4", [(authSdk, ">=1.2.0,<2.0.0")]), ("1.5", [(authSdk, ">=1.2.1,<2.0.0")]),
    ("1.6", [(authSdk, ">=1.3.0,<2.0.0")]), ("2.0", [(authSdk, ">=1.4.0,<2.0.0")]),
    ("2.1", [(authSdk, ">=1.5.0,<2.0.0")]), ("3.0", [(authSdk, ">=2.0.1,<3.0.0")]),
    ("3.1", [(authSdk, ">=2.1.0,<3.0.0")]), ("3.2", [(authSdk, ">=2.1.0,<3.0.0")]),
    ("3.3", [(authSdk, ">=2.1.1,<3.0.0")]), ("4.0", [(authSdk, ">=3.0.0,<4.0.0")]),
    ("4.1", [(authSdk, ">=3.1.0,<4.0.0")]), ("4.2", [(authSdk, ">=3.1.0,<4.0.0")]),
    ("4.3", [(authSdk, ">=3.1.2,<4.0.0")]), ("4.4", [(authSdk, ">=3.1.3,<4.0.0")]),
    ("4.5", [(authSdk, ">=3.2.1,<4.0.0")]), ("4.6", [(authSdk, ">=3.2.1,<4.0.0")])]

def compatExtras : String := "[config,security,fastapi,observability]"

/-- What the guard raises: a `RuntimeError` of its own, or what the metadata or a specifier
raised. -/
inductive CompatExc where
  | runtimeError (message : String)
  | raised (exc : PyExc)
  deriving DecidableEq

/-- `_COMPAT_STATE`. -/
structure CompatState where
  checked : Bool := false
  authVersion : Option String := none
  deriving DecidableEq

inductive CompatOp where
  | readChecked
  | version (dist : String)
  | update (authVersion : String)
  deriving DecidableEq

abbrev CompatAns : CompatOp → Type
  | .readChecked => Bool
  | .version _ => Except CompatExc String
  | .update _ => Unit

abbrev CompatProg := Prog CompatOp CompatAns (Except CompatExc Unit)

abbrev CompatEvent := Prog.Event CompatOp CompatAns

/-- The release that is guarded, its matrix, and `found in SpecifierSet(spec)`. -/
structure Compat where
  version : String
  matrix : List (String × List (String × String)) := compatMatrix
  contains : String → String → Except PyExc Bool

namespace Compat

variable (compat : Compat)

/-- `".".join(__version__.split(".")[:2])`. -/
def minor : String :=
  String.ofList (['.'].intercalate ((compat.version.toList.splitOn '.').take 2))

def noRow : CompatExc := .runtimeError <|
  "fastapi-m8 " ++ compat.version ++ " has no COMPAT_MATRIX row for minor '" ++ compat.minor ++
  "', so its dependency compatibility cannot be verified. This is a packaging defect in " ++
  "fastapi-m8: the release introducing " ++ compat.minor ++ " must add a '" ++ compat.minor ++
  "' row to fastapi_m8._compat.COMPAT_MATRIX."

def outOfRange (dist spec found : String) : CompatExc := .runtimeError <|
  "fastapi-m8 " ++ compat.version ++ " requires " ++ dist ++ spec ++ " (found " ++ found ++
  "). Run: pip install '" ++ dist ++ compatExtras ++ spec ++ "'"

/-- Look a version up, and go on with it unless the lookup raises. -/
def withVersion (dist : String) (next : String → CompatProg) : CompatProg :=
  .call (.version dist) fun found : Except CompatExc String =>
    match found with
    | .error exc => .ret (.error exc)
    | .ok found => next found

/-- Check the requirements of a row, and then go on. -/
def verify (next : CompatProg) : List (String × String) → CompatProg
  | [] => next
  | (dist, spec) :: reqs =>
    withVersion dist fun found =>
      match compat.contains spec found with
      | .error exc => .ret (.error (.raised exc))
      | .ok false => .ret (.error (compat.outOfRange dist spec found))
      | .ok true => verify next reqs

/-- Record a passed check. -/
def record : CompatProg :=
  withVersion authSdk fun found => .call (.update found) fun _ => .ret (.ok ())

/-- `_assert_compat` under its lock. -/
def body : CompatProg :=
  .call .readChecked fun checked : Bool =>
    if checked then .ret (.ok ())
    else
      match compat.matrix.lookup compat.minor with
      | none => .ret (.error compat.noRow)
      | some reqs => compat.verify record reqs

/-- `md.version` is answered from outside. -/
def exec : (o : CompatOp) → CompatState → Option (Except CompatExc String) →
    Option (CompatAns o × CompatState)
  | .readChecked, s, _ => some (s.checked, s)
  | .version _, s, some found => some (found, s)
  | .version _, _, none => none
  | .update found, _, _ => some ((), ⟨true, some found⟩)

/-- `_assert_compat` in the threads of a process. -/
def guarded : Locked CompatOp CompatAns CompatState (Option (Except CompatExc String))
    (Except CompatExc Unit) where
  body := compat.body
  exec := exec

variable {compat : Compat} {s s' : CompatState} {tr : List CompatEvent}
  {outcome : Except CompatExc Unit} {next : CompatProg}

def asks (dist found : String) : CompatEvent :=
  ⟨.version dist, (.ok found : Except CompatExc String)⟩

/-- Why a call raises: a version that was found is out of its range, or it could not be looked up
or compared. -/
inductive Refuses (compat : Compat) (reqs : List (String × String)) (tr : List CompatEvent) :
    CompatExc → Prop
  | outOfRange (dist spec found : String) (hreq : (dist, spec) ∈ reqs)
      (hfound : asks dist found ∈ tr) (hrange : compat.contains spec found = .ok false) :
      Refuses compat reqs tr (compat.outOfRange dist spec found)
  | incomparable (dist spec found : String) (exc : PyExc) (hreq : (dist, spec) ∈ reqs)
      (hfound : asks dist found ∈ tr) (hrange : compat.contains spec found = .error exc) :
      Refuses compat reqs tr (.raised exc)
  | unknown (dist : String) (exc : CompatExc)
      (hfound : ⟨.version dist, (.error exc : Except CompatExc String)⟩ ∈ tr) :
      Refuses compat reqs tr exc

/-- How a call ends: at once when the check has passed before; with the state as it was when it
raises; and else with a check that has found every requirement in its range. -/
inductive Ends (compat : Compat) (s : CompatState) :
    List CompatEvent → CompatState → Except CompatExc Unit → Prop
  | known (hchecked : s.checked = true) : Ends compat s [⟨.readChecked, true⟩] s (.ok ())
  | noRow (hchecked : s.checked = false) (hrow : compat.matrix.lookup compat.minor = none) :
      Ends compat s [⟨.readChecked, false⟩] s (.error compat.noRow)
  | refused (hchecked : s.checked = false) {reqs : List (String × String)} {tr : List CompatEvent}
      {exc : CompatExc} (hrow : compat.matrix.lookup compat.minor = some reqs)
      (hrefuses : compat.Refuses reqs tr exc) :
      Ends compat s (⟨.readChecked, false⟩ :: tr) s (.error exc)
  | verified (hchecked : s.checked = false) {reqs : List (String × String)} {found : List String}
      {authVersion : String} (hrow : compat.matrix.lookup compat.minor = some reqs)
      (hfound : List.Forall₂ (fun req version => compat.contains req.2 version = .ok true) reqs
        found) :
      Ends compat s (⟨.readChecked, false⟩ ::
          (List.zipWith (fun req version => asks req.1 version) reqs found ++
            [asks authSdk authVersion, ⟨.update authVersion, ()⟩]))
        ⟨true, some authVersion⟩ (.ok ())

theorem Refuses.cons {reqs : List (String × String)} {exc : CompatExc} {req : String × String}
    {e : CompatEvent} (h : compat.Refuses reqs tr exc) :
    compat.Refuses (req :: reqs) (e :: tr) exc := by
  cases h with
  | outOfRange dist spec found hreq hfound hrange =>
    exact .outOfRange dist spec found (List.mem_cons_of_mem _ hreq) (List.mem_cons_of_mem _ hfound)
      hrange
  | incomparable dist spec found exc hreq hfound hrange =>
    exact .incomparable dist spec found exc (List.mem_cons_of_mem _ hreq)
      (List.mem_cons_of_mem _ hfound) hrange
  | unknown dist exc hfound => exact .unknown dist exc (List.mem_cons_of_mem _ hfound)

theorem withVersion_performs {dist : String} {go : String → CompatProg}
    (h : compat.guarded.Performs s (withVersion dist go) tr s' (.ret outcome)) :
    ∃ rest, (∃ exc, tr = [⟨.version dist, (.error exc : Except CompatExc String)⟩] ∧ s' = s ∧
        outcome = .error exc) ∨
      ∃ found, tr = asks dist found :: rest ∧
        compat.guarded.Performs s (go found) rest s' (.ret outcome) := by
  obtain ⟨input, a, s₁, rest, hexec, rfl, hrest⟩ := Locked.performs_call h
  change exec (.version dist) s input = some (a, s₁) at hexec
  cases input with
  | none => contradiction
  | some answer =>
    obtain ⟨rfl, rfl⟩ := Prod.mk.inj (Option.some.inj hexec)
    refine ⟨rest, ?_⟩
    cases answer with
    | error exc =>
      obtain ⟨rfl, rfl, rfl⟩ := Locked.performs_ret hrest
      exact .inl ⟨exc, rfl, rfl, rfl⟩
    | ok found => exact .inr ⟨found, rfl, hrest⟩

/-- The loop over the requirements stops at the first one that is not met. -/
theorem verify_performs {reqs : List (String × String)}
    (h : compat.guarded.Performs s (compat.verify next reqs) tr s' (.ret outcome)) :
    (∃ exc, compat.Refuses reqs tr exc ∧ s' = s ∧ outcome = .error exc) ∨
      ∃ found rest, List.Forall₂ (fun req version => compat.contains req.2 version = .ok true)
          reqs found ∧
        tr = List.zipWith (fun req version => asks req.1 version) reqs found ++ rest ∧
        compat.guarded.Performs s next rest s' (.ret outcome) := by
  induction reqs generalizing tr with
  | nil => exact .inr ⟨[], tr, .nil, rfl, h⟩
  | cons req reqs ih =>
    obtain ⟨dist, spec⟩ := req
    obtain ⟨rest, ⟨exc, rfl, rfl, rfl⟩ | ⟨found, rfl, hrest⟩⟩ := withVersion_performs h
    · exact .inl ⟨exc, .unknown dist exc List.mem_cons_self, rfl, rfl⟩
    · cases hrange : compat.contains spec found with
      | error exc =>
        simp only [hrange] at hrest
        obtain ⟨rfl, rfl, rfl⟩ := Locked.performs_ret hrest
        exact .inl ⟨_, .incomparable dist spec found exc List.mem_cons_self List.mem_cons_self
          hrange, rfl, rfl⟩
      | ok inRange =>
        cases inRange with
        | false =>
          simp only [hrange] at hrest
          obtain ⟨rfl, rfl, rfl⟩ := Locked.performs_ret hrest
          exact .inl ⟨_, .outOfRange dist spec found List.mem_cons_self List.mem_cons_self hrange,
            rfl, rfl⟩
        | true =>
          simp only [hrange] at hrest
          rcases ih hrest with ⟨exc, hrefuses, hs, hexc⟩ | ⟨others, rest', hall, rfl, hnext⟩
          · exact .inl ⟨exc, hrefuses.cons, hs, hexc⟩
          · exact .inr ⟨found :: others, rest', .cons hrange hall, rfl, hnext⟩

theorem ends_of_performs (h : compat.guarded.Performs s compat.body tr s' (.ret outcome)) :
    compat.Ends s tr s' outcome := by
  obtain ⟨input, checked, s₁, rest, hexec, rfl, hrest⟩ := Locked.performs_call h
  obtain ⟨rfl, rfl⟩ := Prod.mk.inj (Option.some.inj hexec)
  cases hchecked : s.checked with
  | true =>
    simp only [hchecked, ↓reduceIte] at hrest
    obtain ⟨rfl, rfl, rfl⟩ := Locked.performs_ret hrest
    exact .known hchecked
  | false =>
    simp only [hchecked, Bool.false_eq_true, ↓reduceIte] at hrest
    cases hrow : compat.matrix.lookup compat.minor with
    | none =>
      simp only [hrow] at hrest
      obtain ⟨rfl, rfl, rfl⟩ := Locked.performs_ret hrest
      exact .noRow hchecked hrow
    | some reqs =>
      simp only [hrow] at hrest
      rcases verify_performs hrest with
        ⟨exc, hrefuses, rfl, rfl⟩ | ⟨found, last, hall, rfl, hrecord⟩
      · exact .refused hchecked hrow hrefuses
      obtain ⟨rest', ⟨exc, rfl, rfl, rfl⟩ | ⟨authVersion, rfl, hupdate⟩⟩ :=
        withVersion_performs hrecord
      · exact .refused hchecked hrow
          (.unknown authSdk exc (List.mem_append_right _ List.mem_cons_self))
      obtain ⟨input', a, s₂, last, hexec', rfl, hend⟩ := Locked.performs_call hupdate
      obtain ⟨rfl, rfl⟩ := Prod.mk.inj (Option.some.inj hexec')
      obtain ⟨rfl, rfl, rfl⟩ := Locked.performs_ret hend
      exact .verified hchecked hrow hall

abbrev CompatSection := Locked.Section CompatOp CompatAns (Except CompatExc Unit)

/-- The call that has verified the row of the release, and recorded the version of the SDK. -/
structure Verifies (compat : Compat) (x : CompatSection) (authVersion : String) : Prop where
  passed : x.result = .ok ()
  checked : ∃ reqs found, compat.matrix.lookup compat.minor = some reqs ∧
    List.Forall₂ (fun req version => compat.contains req.2 version = .ok true) reqs found ∧
    x.trace = ⟨.readChecked, false⟩ ::
      (List.zipWith (fun req version => asks req.1 version) reqs found ++
        [asks authSdk authVersion, ⟨.update authVersion, ()⟩])

/-- The calls in order: they raise until one of them has verified the release, and return at once
from then on. -/
inductive Checked (compat : Compat) : List CompatSection → CompatState → Prop
  | never {log : List CompatSection} (hraised : ∀ x ∈ log, ∃ exc, x.result = .error exc) :
      Checked compat log {}
  | once {after before : List CompatSection} {x : CompatSection} {authVersion : String}
      (hraised : ∀ y ∈ before, ∃ exc, y.result = .error exc) (hx : compat.Verifies x authVersion)
      (hknown : ∀ y ∈ after, y.trace = [⟨.readChecked, true⟩] ∧ y.result = .ok ()) :
      Checked compat (after ++ x :: before) ⟨true, some authVersion⟩

variable {log : List CompatSection}
  {w : LockState CompatOp CompatAns CompatState (Except CompatExc Unit)}

theorem checked_of_serial (h : compat.guarded.Serial {} log s) : compat.Checked log s := by
  induction h with
  | nil => exact .never (by simp)
  | @cons log s s' x before hperforms ih =>
    have hends := ends_of_performs hperforms
    generalize hresult : x.result = outcome at hends
    generalize htrace : x.trace = tr at hends
    cases ih with
    | never hraised =>
      cases hends with
      | known hchecked => contradiction
      | noRow => exact .never (List.forall_mem_cons.mpr ⟨⟨_, hresult⟩, hraised⟩)
      | refused => exact .never (List.forall_mem_cons.mpr ⟨⟨_, hresult⟩, hraised⟩)
      | @verified _ reqs found authVersion hrow hall =>
        have hx : compat.Verifies x authVersion := ⟨hresult, reqs, found, hrow, hall, htrace⟩
        exact @Checked.once compat [] log x authVersion hraised hx (by simp)
    | @once after before x' authVersion hraised hx hknown =>
      cases hends with
      | known hchecked =>
        rw [← List.cons_append]
        exact .once hraised hx (List.forall_mem_cons.mpr ⟨⟨htrace, hresult⟩, hknown⟩)
      | noRow hchecked => contradiction
      | refused hchecked => contradiction
      | verified hchecked => contradiction

/-- Once the check has passed a call does not touch the state, however far it has come. -/
theorem performs_known {p : CompatProg} (hchecked : s.checked = true)
    (h : compat.guarded.Performs s compat.body tr s' p) : s' = s := by
  cases h with
  | stop => rfl
  | @perform _ s₁ _ _ _ input checked _ _ hexec rest =>
    obtain ⟨rfl, rfl⟩ := Prod.mk.inj (Option.some.inj hexec)
    simp only [hchecked, ↓reduceIte] at rest
    cases rest
    rfl

/-- However the threads of a process interleave in `_assert_compat`: their calls raise, and leave
the state as it was, until one of them has looked up every requirement of the release's row and
found it in its range. From then on the state is what this call recorded, also for a reader without
the lock, and every call returns without a lookup. No thread is blocked for good, whatever the calls
before it have raised: each comes to its end by acts of its own and of the thread that holds the
lock. -/
theorem compat_checked_once {past : List (LockState CompatOp CompatAns CompatState
      (Except CompatExc Unit) × LockAct (Option (Except CompatExc String)))}
    (run : Run compat.guarded.step (.init {}) past w) :
    ∃ log s, compat.Checked log s ∧
      log.map Locked.Section.thread = past.filterMap (fun e => e.2.released?) ∧
      (∀ id r, w.threads id = some (.done r) ↔ ∃ x ∈ log, x.thread = id ∧ x.result = r) ∧
      (w.holder = none ∨ s.checked = true → w.data = s) ∧
      ∀ id t, w.threads id = some t → ∃ future w' r, Run compat.guarded.step w future w' ∧
        w'.threads id = some (.done r) ∧
        ∀ x ∈ future, x.2.Continues id ∨ ∃ id', w.holder = some id' ∧ x.2.Continues id' := by
  obtain ⟨log, s, h, hlog⟩ := Locked.serialised_of_run run
  have hexec : ∀ o s, ∃ input r, compat.guarded.exec o s input = some r := by
    intro o s
    cases o with
    | readChecked => exact ⟨none, _, rfl⟩
    | version dist => exact ⟨some (.ok ""), _, rfl⟩
    | update found => exact ⟨none, _, rfl⟩
  refine ⟨log, s, checked_of_serial h.serial, hlog, h.done_iff, ?_, ?_⟩
  · rintro (hfree | hchecked)
    · exact (h.free hfree).1
    · cases hholder : w.holder with
      | none => exact (h.free hholder).1
      | some id =>
        obtain ⟨p, tr, -, hperforms, -⟩ := h.held id hholder
        exact performs_known hchecked hperforms
  · intro id t ht
    exact h.progress hexec ht

/-- The release, with a specifier that admits exactly the floor of its row. -/
def release : Compat where
  version := "4.6.0"
  contains spec found := .ok (spec = ">=3.2.1,<4.0.0" && found = "3.2.1")

example : release.matrix.lookup release.minor = some [(authSdk, ">=3.2.1,<4.0.0")] := by
  decide +kernel

/-- Two threads come, and the first one that takes the lock checks. -/
def releaseChecked : List (LockAct (Option (Except CompatExc String))) :=
  [.enter 0, .enter 1, .acquire 1, .perform 1 none, .perform 1 (some (.ok "3.2.1")),
    .perform 1 (some (.ok "3.2.1")), .perform 1 none, .release 1, .acquire 0, .perform 0 none,
    .release 0]

theorem compat_checked_once_release :
    ∃ past w log s, Run release.guarded.step (.init {}) past w ∧ release.Checked log s ∧
      log.map Locked.Section.thread = [0, 1] := by
  have heval : (releaseChecked.foldlM release.guarded.step (.init {})).any
      (fun w => w.data.checked) = true := by decide +kernel
  obtain ⟨w, hw, -⟩ := (Option.any_eq_true _ _).mp heval
  obtain ⟨past, run, hlabels⟩ := Run.of_foldlM hw
  obtain ⟨log, s, hchecked, hlog, -⟩ := compat_checked_once run
  refine ⟨past, w, log, s, run, hchecked, ?_⟩
  have hmap : past.filterMap (fun e => e.2.released?) =
      (past.map Prod.snd).filterMap LockAct.released? := by
    rw [List.filterMap_map]
    rfl
  rw [hlog, hmap, hlabels]
  rfl

end Compat

end FastapiM8
