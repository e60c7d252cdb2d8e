import FastapiM8.Lib.Program

/-! Traces of free programs, and monitors that watch them. A trace lists the operations that a
program has performed together with their answers; a monitor keeps a ghost state along the
trace, and says which operations may be performed in it. -/

namespace Prog

variable {Op : Type} {Ans : Op → Type} {α β : Type}

/-- An operation that was performed, and its answer. -/
abbrev Event (Op : Type) (Ans : Op → Type) := (o : Op) × Ans o

/-- With the answers of a trace the first program comes to be the second. -/
inductive Trace : Prog Op Ans α → List (Event Op Ans) → Prog Op Ans α → Prop
  | stop (p : Prog Op Ans α) : Trace p [] p
  | perform {o : Op} {k : Ans o → Prog Op Ans α} (a : Ans o) {tr : List (Event Op Ans)}
      {q : Prog Op Ans α} (rest : Trace (k a) tr q) : Trace (.call o k) (⟨o, a⟩ :: tr) q

theorem trace_ret_iff {a b : α} {tr : List (Event Op Ans)} :
    (Prog.ret a : Prog Op Ans α).Trace tr (.ret b) ↔ tr = [] ∧ a = b := by
  constructor
  · intro h
    cases h
    exact ⟨rfl, rfl⟩
  · rintro ⟨rfl, rfl⟩
    exact .stop _

theorem trace_call_iff {o : Op} {k : Ans o → Prog Op Ans α} {b : α} {tr : List (Event Op Ans)} :
    (Prog.call o k).Trace tr (.ret b) ↔
      ∃ a rest, tr = ⟨o, a⟩ :: rest ∧ (k a).Trace rest (.ret b) := by
  constructor
  · intro h
    cases h with
    | perform a rest => exact ⟨a, _, rfl, rest⟩
  · rintro ⟨a, rest, rfl, h⟩
    exact .perform a h

theorem trace_cons_iff {o : Op} {k : Ans o → Prog Op Ans α} {a : Ans o} {b : α}
    {tr : List (Event Op Ans)} :
    (Prog.call o k).Trace (⟨o, a⟩ :: tr) (.ret b) ↔ (k a).Trace tr (.ret b) := by
  constructor
  · intro h
    cases h with
    | perform _ rest => exact rest
  · exact .perform a

/-- A finished trace of two programs in a row is a finished trace of each. -/
theorem trace_bind_iff {p : Prog Op Ans α} {f : α → Prog Op Ans β} {b : β}
    {tr : List (Event Op Ans)} : (p >>= f).Trace tr (.ret b) ↔
      ∃ a tr₁ tr₂, tr = tr₁ ++ tr₂ ∧ p.Trace tr₁ (.ret a) ∧ (f a).Trace tr₂ (.ret b) := by
  induction p generalizing tr with
  | ret a =>
    rw [ret_bind]
    constructor
    · intro h
      exact ⟨a, [], tr, rfl, .stop _, h⟩
    · rintro ⟨a', tr₁, tr₂, rfl, h₁, h₂⟩
      obtain ⟨rfl, rfl⟩ := trace_ret_iff.mp h₁
      exact h₂
  | call o k ih =>
    simp only [call_bind, trace_call_iff, ih]
    constructor
    · rintro ⟨a, rest, rfl, a', tr₁, tr₂, rfl, h₁, h₂⟩
      exact ⟨a', _, tr₂, rfl, ⟨a, tr₁, rfl, h₁⟩, h₂⟩
    · rintro ⟨a', tr₁, tr₂, rfl, ⟨a, rest, rfl, h₁⟩, h₂⟩
      exact ⟨a, _, rfl, a', rest, tr₂, rfl, h₁, h₂⟩

section Advance

variable [DecidableEq Op]

/-- Perform the next operation of a program with the answer of an event. -/
def advance : Prog Op Ans α → Event Op Ans → Option (Prog Op Ans α)
  | .ret _, _ => none
  | .call o k, e => if h : e.1 = o then some (k (h ▸ e.2)) else none

theorem advance_eq_some {p q : Prog Op Ans α} {e : Event Op Ans} :
    p.advance e = some q ↔ ∃ k, p = .call e.1 k ∧ k e.2 = q := by
  obtain ⟨o, a⟩ := e
  cases p with
  | ret r => simp [advance]
  | call o' k =>
    by_cases h : o = o'
    · subst h
      simp [advance]
    · simp only [advance, h, ↓reduceDIte, reduceCtorEq, false_iff, not_exists, not_and]
      intro k' hcall
      exact absurd (Prog.call.inj hcall).1.symm h

/-- A trace goes on with every event that its program can perform. -/
theorem Trace.snoc {p q q' : Prog Op Ans α} {tr : List (Event Op Ans)} {e : Event Op Ans}
    (h : p.Trace tr q) (hq : q.advance e = some q') : p.Trace (tr ++ [e]) q' := by
  induction h with
  | stop p =>
    obtain ⟨k, rfl, rfl⟩ := advance_eq_some.mp hq
    exact .perform e.2 (.stop _)
  | perform a rest ih => exact .perform a (ih hq)

end Advance

end Prog

/-- A ghost state that moves with every answer, the operations that may be performed in it, and
the answers that are taken into account. -/
structure Monitor (Op : Type) (Ans : Op → Type) (γ : Type) where
  admits : γ → Op → Prop := fun _ _ => True
  allows : (o : Op) → Ans o → Prop := fun _ _ => True
  next : γ → (o : Op) → Ans o → γ

namespace Monitor

open Prog

variable {Op : Type} {Ans : Op → Type} {α β γ : Type} (M : Monitor Op Ans γ)

/-- The ghost state after a trace. -/
def after (g : γ) : List (Event Op Ans) → γ
  | [] => g
  | e :: tr => after (M.next g e.1 e.2) tr

/-- Every operation of the trace was admitted when it was performed. -/
def Accepts (g : γ) : List (Event Op Ans) → Prop
  | [] => True
  | e :: tr => M.admits g e.1 ∧ Accepts (M.next g e.1 e.2) tr

/-- Whatever it is answered, as long as that is allowed, the program performs only operations
that are admitted, and ends with a result that satisfies `Q` beside the ghost state. -/
def Watches (Q : γ → α → Prop) : γ → Prog Op Ans α → Prop
  | g, .ret a => Q g a
  | g, .call o k => M.admits g o ∧ ∀ a, M.allows o a → Watches Q (M.next g o a) (k a)

variable {M} {Q : γ → α → Prop} {g : γ}

@[simp] theorem after_nil : M.after g [] = g := rfl

@[simp] theorem after_cons (e : Event Op Ans) (tr : List (Event Op Ans)) :
    M.after g (e :: tr) = M.after (M.next g e.1 e.2) tr := rfl

@[simp] theorem accepts_cons (e : Event Op Ans) (tr : List (Event Op Ans)) :
    M.Accepts g (e :: tr) ↔ M.admits g e.1 ∧ M.Accepts (M.next g e.1 e.2) tr := Iff.rfl

theorem after_append (tr tr' : List (Event Op Ans)) :
    M.after g (tr ++ tr') = M.after (M.after g tr) tr' := by
  induction tr generalizing g with
  | nil => rfl
  | cons e tr ih => simp [ih]

theorem accepts_append (tr tr' : List (Event Op Ans)) :
    M.Accepts g (tr ++ tr') ↔ M.Accepts g tr ∧ M.Accepts (M.after g tr) tr' := by
  induction tr generalizing g with
  | nil => simp [Accepts]
  | cons e tr ih => simp [ih, and_assoc]

theorem Watches.mono {Q' : γ → α → Prop} {p : Prog Op Ans α} (h : M.Watches Q g p)
    (hQ : ∀ g a, Q g a → Q' g a) : M.Watches Q' g p := by
  induction p generalizing g with
  | ret a => exact hQ g a h
  | call o k ih => exact ⟨h.1, fun a ha => ih a (h.2 a ha)⟩

/-- A program that continues is watched over its first part and then over the rest. -/
theorem watches_bind {p : Prog Op Ans α} {f : α → Prog Op Ans β} {R : γ → β → Prop} :
    M.Watches R g (p >>= f) ↔ M.Watches (fun g a => M.Watches R g (f a)) g p := by
  induction p generalizing g with
  | ret a => exact Iff.rfl
  | call o k ih =>
    exact and_congr_right fun _ => forall_congr' fun a => imp_congr_right fun _ => ih a

/-- Replacing the operations of a watched program by programs keeps it watched, when each of
these does to the ghost state what the operation does. -/
theorem Watches.interp {Op' : Type} {Ans' : Op' → Type} {N : Monitor Op' Ans' γ}
    {h : (o : Op) → Prog Op' Ans' (Ans o)} {p : Prog Op Ans α} (hp : M.Watches Q g p)
    (hh : ∀ g o, M.admits g o →
      N.Watches (fun g' a => M.allows o a ∧ g' = M.next g o a) g (h o)) :
    N.Watches Q g (p.interp h) := by
  induction p generalizing g with
  | ret a => exact hp
  | call o k ih =>
    refine watches_bind.mpr ((hh g o hp.1).mono ?_)
    rintro g' a ⟨ha, rfl⟩
    exact ih a (hp.2 a ha)

/-- A watched program performs only what its monitor admits, and stays watched. -/
theorem Watches.sound {p q : Prog Op Ans α} {tr : List (Event Op Ans)} (h : M.Watches Q g p)
    (htr : p.Trace tr q) (hallowed : ∀ e ∈ tr, M.allows e.1 e.2) :
    M.Accepts g tr ∧ M.Watches Q (M.after g tr) q := by
  induction htr generalizing g with
  | stop p => exact ⟨trivial, h⟩
  | perform a rest ih =>
    obtain ⟨ha, hrest⟩ := List.forall_mem_cons.mp hallowed
    obtain ⟨haccepts, hwatches⟩ := ih (h.2 a ha) hrest
    exact ⟨⟨h.1, haccepts⟩, hwatches⟩

/-- The monitor that remembers the trace. -/
def history : Monitor Op Ans (List (Event Op Ans)) where
  next tr o a := tr ++ [⟨o, a⟩]

@[simp] theorem history_next (tr : List (Event Op Ans)) (o : Op) (a : Ans o) :
    history.next tr o a = tr ++ [⟨o, a⟩] := rfl

theorem after_history (tr tr' : List (Event Op Ans)) : history.after tr tr' = tr ++ tr' := by
  induction tr' generalizing tr with
  | nil => simp
  | cons e tr' ih => rw [after_cons, ih, history_next, List.append_assoc, List.singleton_append]

/-- What a program that remembers its trace ends with holds of every finished trace. -/
theorem Watches.of_trace {Q : List (Event Op Ans) → α → Prop} {p : Prog Op Ans α} {a : α}
    {tr : List (Event Op Ans)} (h : history.Watches Q [] p) (htr : p.Trace tr (.ret a)) :
    Q tr a := by
  have hend := (h.sound htr fun _ _ => trivial).2
  rw [after_history, List.nil_append] at hend
  exact hend

theorem Watches.admits {p : Prog Op Ans α} {o : Op} (h : M.Watches Q g p)
    (ho : p.awaits = some o) : M.admits g o := by
  cases p with
  | ret a => contradiction
  | call o' k =>
    obtain rfl := Option.some.inj ho
    exact h.1

end Monitor
