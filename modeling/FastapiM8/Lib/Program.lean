import Mathlib.Tactic

/-! Coroutines as free programs over an effect signature. A program performs operations and
continues with their answers; a handler decides which operations are answered at once and
which suspend the program until its environment answers them. The code between two
suspensions is one atomic segment. -/

/-- A finished program, or an operation together with the rest of the program. -/
inductive Prog (Op : Type) (Ans : Op → Type) (α : Type) : Type where
  | ret (a : α)
  | call (o : Op) (k : Ans o → Prog Op Ans α)

namespace Prog

variable {Op Op' : Type} {Ans : Op → Type} {Ans' : Op' → Type} {α β γ σ : Type}

protected def bind : Prog Op Ans α → (α → Prog Op Ans β) → Prog Op Ans β
  | .ret a, f => f a
  | .call o k, f => .call o fun a => (k a).bind f

instance : Monad (Prog Op Ans) where
  pure := .ret
  bind := Prog.bind

/-- The program that performs one operation and returns its answer. -/
def perform (o : Op) : Prog Op Ans (Ans o) := .call o .ret

/-- Whether the program is finished. -/
def ended : Prog Op Ans α → Bool
  | .ret _ => true
  | .call _ _ => false

/-- The operation that a program performs next. -/
def awaits : Prog Op Ans α → Option Op
  | .ret _ => none
  | .call o _ => some o

@[simp] theorem awaits_ret (a : α) : (Prog.ret a : Prog Op Ans α).awaits = none := rfl

@[simp] theorem awaits_call (o : Op) (k : Ans o → Prog Op Ans α) :
    (Prog.call o k).awaits = some o := rfl

@[simp] theorem pure_def (a : α) : (pure a : Prog Op Ans α) = .ret a := rfl

@[simp] theorem ret_bind (a : α) (f : α → Prog Op Ans β) : Prog.ret a >>= f = f a := rfl

@[simp] theorem call_bind (o : Op) (k : Ans o → Prog Op Ans α) (f : α → Prog Op Ans β) :
    Prog.call o k >>= f = .call o fun a => k a >>= f := rfl

theorem bind_assoc (p : Prog Op Ans α) (f : α → Prog Op Ans β) (g : β → Prog Op Ans γ) :
    p >>= f >>= g = p >>= fun a => f a >>= g := by
  induction p with
  | ret a => rfl
  | call o k ih => exact congrArg (call o) (funext ih)

@[simp] theorem bind_ret (p : Prog Op Ans α) : p >>= Prog.ret = p := by
  induction p with
  | ret a => rfl
  | call o k ih => exact congrArg (call o) (funext ih)

instance : LawfulMonad (Prog Op Ans) :=
  LawfulMonad.mk' (Prog Op Ans) bind_ret ret_bind bind_assoc

theorem bind_congr {p : Prog Op Ans α} {f g : α → Prog Op Ans β} (h : ∀ a, f a = g a) :
    p >>= f = p >>= g := congrArg (p >>= ·) (funext h)

theorem bind_ret_eq_ret {p : Prog Op Ans α} {f : α → β} {b : β}
    (h : (p >>= fun a => Prog.ret (f a)) = .ret b) : ∃ a, p = .ret a ∧ f a = b := by
  cases p with
  | ret a => exact ⟨a, rfl, Prog.ret.inj h⟩
  | call o k => contradiction

/-- Replace every operation by a program over another signature. -/
def interp (h : (o : Op) → Prog Op' Ans' (Ans o)) : Prog Op Ans α → Prog Op' Ans' α
  | .ret a => .ret a
  | .call o k => h o >>= fun a => (k a).interp h

/-- The answers of two signatures side by side. -/
abbrev SumAns (Ans : Op → Type) (Ans' : Op' → Type) : Op ⊕ Op' → Type
  | .inl o => Ans o
  | .inr o => Ans' o

/-- A program over the second of two signatures. -/
def inr (p : Prog Op' Ans' α) : Prog (Op ⊕ Op') (SumAns Ans Ans') α :=
  p.interp fun o => (perform (Sum.inr o) : Prog (Op ⊕ Op') (SumAns Ans Ans') (Ans' o))

/-- Run a program up to its next suspension: operations that the handler answers are
performed at once on the shared state, the first one it leaves open is awaited. -/
def settle (exec : (o : Op) → σ → Option (Ans o × σ)) : Prog Op Ans α → σ → Prog Op Ans α × σ
  | .ret a, s => (.ret a, s)
  | .call o k, s =>
    match exec o s with
    | some (a, s') => (k a).settle exec s'
    | none => (.call o k, s)

variable {exec : (o : Op) → σ → Option (Ans o × σ)}

theorem settle_call_some {o : Op} {k : Ans o → Prog Op Ans α} {s s' : σ} {a : Ans o}
    (h : exec o s = some (a, s')) : (Prog.call o k).settle exec s = (k a).settle exec s' := by
  rw [settle, h]

theorem settle_call_none {o : Op} {k : Ans o → Prog Op Ans α} {s : σ} (h : exec o s = none) :
    (Prog.call o k).settle exec s = (.call o k, s) := by
  rw [settle, h]

/-- A program followed by a pure function of its result settles exactly where it does. -/
theorem settle_bind_ret (p : Prog Op Ans α) (f : α → β) (s : σ) :
    (p >>= fun a => Prog.ret (f a)).settle exec s =
      ((p.settle exec s).1 >>= fun a => Prog.ret (f a), (p.settle exec s).2) := by
  induction p generalizing s with
  | ret a => rfl
  | call o k ih =>
    rw [call_bind]
    cases h : exec o s with
    | none => rw [settle_call_none h, settle_call_none h, call_bind]
    | some r =>
      obtain ⟨a, s'⟩ := r
      rw [settle_call_some h, settle_call_some h]
      exact ih a s'

/-- Every segment that a program may still run obeys `G`, which relates the awaited
operation, its answer and the state at the resumption to what the segment leaves behind. -/
inductive Obeys (exec : (o : Op) → σ → Option (Ans o × σ))
    (G : (o : Op) → Ans o → σ → Prog Op Ans α × σ → Prop) : Prog Op Ans α → Prop
  | ret (a : α) : Obeys exec G (.ret a)
  | call (o : Op) (k : Ans o → Prog Op Ans α)
      (segment : ∀ a s, G o a s ((k a).settle exec s))
      (later : ∀ a s, Obeys exec G ((k a).settle exec s).1) : Obeys exec G (.call o k)

/-- A pure function of the result changes no segment but the result itself. -/
theorem Obeys.bind_ret {G : (o : Op) → Ans o → σ → Prog Op Ans α × σ → Prop}
    {H : (o : Op) → Ans o → σ → Prog Op Ans β × σ → Prop} {p : Prog Op Ans α} {f : α → β}
    (hp : Obeys exec G p)
    (hG : ∀ o a s r, G o a s r → H o a s (r.1 >>= fun a => Prog.ret (f a), r.2)) :
    Obeys exec H (p >>= fun a => Prog.ret (f a)) := by
  induction hp with
  | ret a => exact .ret (f a)
  | call o k segment later ih =>
    refine .call o (fun a => k a >>= fun b => Prog.ret (f b)) (fun a s => ?_) (fun a s => ?_)
    · rw [settle_bind_ret]
      exact hG o a s _ (segment a s)
    · rw [settle_bind_ret]
      exact ih a s

/-- Whenever every operation is answered as `A` admits, the program ends in a result that
satisfies `Q`. -/
def Ends (A : (o : Op) → Ans o → Prop) (Q : α → Prop) : Prog Op Ans α → Prop
  | .ret a => Q a
  | .call o k => ∀ a, A o a → (k a).Ends A Q

variable {A : (o : Op) → Ans o → Prop} {Q : α → Prop}

theorem ends_bind {p : Prog Op Ans α} {f : α → Prog Op Ans β} {R : β → Prop} :
    (p >>= f).Ends A R ↔ p.Ends A fun a => (f a).Ends A R := by
  induction p with
  | ret a => exact Iff.rfl
  | call o k ih => exact forall_congr' fun a => imp_congr_right fun _ => ih a

theorem Ends.mono {p : Prog Op Ans α} {R : α → Prop} (h : p.Ends A Q) (hQR : ∀ a, Q a → R a) :
    p.Ends A R := by
  induction p with
  | ret a => exact hQR a h
  | call o k ih => exact fun a ha => ih a (h a ha)

/-- Run a program to its end. The handler answers what it can, the script delivers the other
answers in turn, each with the state in which the program resumes; the rest of the script is
returned. -/
def play {δ : Type} (exec : (o : Op) → σ → Option (Ans o × σ))
    (deliver : (o : Op) → δ → Option (Ans o × σ)) :
    Prog Op Ans α → σ → List δ → Option (α × σ × List δ)
  | .ret a, s, script => some (a, s, script)
  | .call o k, s, script =>
    match exec o s with
    | some r => (k r.1).play exec deliver r.2 script
    | none => script.head?.bind fun d => (deliver o d).bind fun r =>
        (k r.1).play exec deliver r.2 script.tail

section Play

variable {δ : Type} {exec : (o : Op) → σ → Option (Ans o × σ)}
  {deliver : (o : Op) → δ → Option (Ans o × σ)}

@[simp] theorem play_ret (a : α) (s : σ) (script : List δ) :
    (Prog.ret a : Prog Op Ans α).play exec deliver s script = some (a, s, script) := rfl

theorem play_call_some {o : Op} {k : Ans o → Prog Op Ans α} {s s' : σ} {a : Ans o}
    (h : exec o s = some (a, s')) (script : List δ) :
    (Prog.call o k).play exec deliver s script = (k a).play exec deliver s' script := by
  rw [play, h]

theorem play_call_none {o : Op} {k : Ans o → Prog Op Ans α} {s : σ} {script : List δ}
    {r : α × σ × List δ} (h : exec o s = none) :
    (Prog.call o k).play exec deliver s script = some r ↔
      ∃ d rest a s', script = d :: rest ∧ deliver o d = some (a, s') ∧
        (k a).play exec deliver s' rest = some r := by
  rw [play, h]
  cases script with
  | nil => simp
  | cons d rest => simp [Option.bind_eq_some_iff]

theorem play_bind (p : Prog Op Ans α) (f : α → Prog Op Ans β) (s : σ) (script : List δ) :
    (p >>= f).play exec deliver s script =
      (p.play exec deliver s script).bind fun r => (f r.1).play exec deliver r.2.1 r.2.2 := by
  induction p generalizing s script with
  | ret a => rfl
  | call o k ih =>
    rw [call_bind, play, play]
    cases exec o s with
    | some r => exact ih r.1 r.2 script
    | none => simp only [ih, Option.bind_assoc]

/-- A play under admitted answers ends as the precondition of its program promises. -/
theorem Ends.play {p : Prog Op Ans α} (hp : p.Ends A Q)
    (hexec : ∀ o s a s', exec o s = some (a, s') → A o a) {s s' : σ} {script rest : List δ} {a : α}
    (hscript : ∀ d ∈ script, ∀ o a s, deliver o d = some (a, s) → A o a)
    (h : p.play exec deliver s script = some (a, s', rest)) : Q a := by
  induction p generalizing s script with
  | ret b =>
    obtain rfl : b = a := congrArg Prod.fst (Option.some.inj h)
    exact hp
  | call o k ih =>
    cases he : exec o s with
    | some x =>
      obtain ⟨b, s₁⟩ := x
      rw [play_call_some he] at h
      exact ih b (hp b (hexec o s b s₁ he)) hscript h
    | none =>
      obtain ⟨d, rest', b, s₁, rfl, hd, h⟩ := (play_call_none he).mp h
      refine ih b (hp b (hscript d List.mem_cons_self o b s₁ hd)) ?_ h
      exact fun d' hd' => hscript d' (List.mem_cons_of_mem _ hd')

end Play

end Prog
