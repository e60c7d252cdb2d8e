import FastapiM8.Lib.Course

/-! Linking a client with a service. A linked task runs the calls of its client to the service as
part of itself, on a state that both share. Every run of linked tasks is then one run of the client,
to which the calls are operations answered from outside, and one run of the service, whose calls
are its tasks. -/

namespace Prog

variable {Op Op' : Type} {Ans : Op → Type} {Ans' : Op' → Type} {α β : Type}

theorem inr_call (o : Op') (k : Ans' o → Prog Op' Ans' α) :
    ((Prog.call o k).inr : Prog (Op ⊕ Op') (SumAns Ans Ans') α) =
      .call (.inr o) fun a => (k a).inr := rfl

theorem inr_bind (p : Prog Op' Ans' α) (f : α → Prog Op' Ans' β) :
    ((p >>= f).inr : Prog (Op ⊕ Op') (SumAns Ans Ans') β) = p.inr >>= fun a => (f a).inr := by
  induction p with
  | ret a => rfl
  | call o k ih =>
    rw [call_bind, inr_call, inr_call, call_bind]
    exact congrArg (call (Sum.inr o)) (funext ih)

/-- The event, when it is one of the first signature. -/
def leftEvent : Event (Op ⊕ Op') (SumAns Ans Ans') → Option (Event Op Ans)
  | ⟨.inl o, a⟩ => some ⟨o, a⟩
  | ⟨.inr _, _⟩ => none

/-- The event, when it is one of the second signature. -/
def rightEvent : Event (Op ⊕ Op') (SumAns Ans Ans') → Option (Event Op' Ans')
  | ⟨.inl _, _⟩ => none
  | ⟨.inr o, a⟩ => some ⟨o, a⟩

end Prog

namespace Scheduler

open Prog

section Arrivals

variable {Op : Type} {Ans : Op → Type} {σ Spec Answer Ev ρ : Type}
  (M : Scheduler Op Ans σ Spec Answer Ev ρ)

/-- The answer from outside that a step brings, to whichever task. -/
def arrival (w : Pool Op Ans σ Spec ρ) : Act Spec Answer Ev → Option (Event Op Ans)
  | .resume id answer => M.delivery id w (.resume id answer)
  | _ => none

/-- What a run was answered from outside, in order. -/
def arrivals (past : List (Pool Op Ans σ Spec ρ × Act Spec Answer Ev)) : List (Event Op Ans) :=
  (past.filterMap fun e => M.arrival e.1 e.2).reverse

variable {M} {w : Pool Op Ans σ Spec ρ} {l : Act Spec Answer Ev}
  {past : List (Pool Op Ans σ Spec ρ × Act Spec Answer Ev)}

theorem arrivals_cons : M.arrivals ((w, l) :: past) =
    M.arrivals past ++ (M.arrival w l).toList := by
  unfold arrivals
  cases h : M.arrival w l <;> simp [h]

theorem arrival_resume {id : ℕ} {spec : Spec} {o : Op} {k : Ans o → Prog Op Ans ρ}
    {answer : Answer} {a : Ans o} (ht : w.tasks id = some ⟨spec, .call o k⟩)
    (ha : M.decode o answer = some a) : M.arrival w (.resume id answer) = some ⟨o, a⟩ :=
  delivery_resume ht ha

theorem arrivals_resume {id : ℕ} {spec : Spec} {o : Op} {k : Ans o → Prog Op Ans ρ}
    {answer : Answer} {a : Ans o} (ht : w.tasks id = some ⟨spec, .call o k⟩)
    (ha : M.decode o answer = some a) :
    M.arrivals ((w, .resume id answer) :: past) = M.arrivals past ++ [⟨o, a⟩] := by
  rw [arrivals_cons, arrival_resume ht ha, Option.toList_some]

theorem arrivals_of_quiet (h : ∀ id answer, l ≠ .resume id answer) :
    M.arrivals ((w, l) :: past) = M.arrivals past := by
  rw [arrivals_cons]
  cases l with
  | resume id answer => exact absurd rfl (h id answer)
  | _ => exact List.append_nil _

/-- The step that brought a task to its end. -/
theorem ended_of_run {s : σ} (run : Run M.step (.idle s) past w) {id : ℕ} {spec : Spec} {r : ρ}
    (ht : w.tasks id = some ⟨spec, .ret r⟩) :
    ∃ newer w₁ l₁ older w₂, past = newer ++ (w₁, l₁) :: older ∧ M.step w₁ l₁ = some w₂ ∧
      l₁.Runs id ∧ w₂.tasks id = some ⟨spec, .ret r⟩ := by
  induction run with
  | start => simp [Pool.idle] at ht
  | @next past w l w' run hstep ih =>
    by_cases hl : l.Runs id
    · exact ⟨[], w, l, past, w', rfl, hstep, hl, ht⟩
    · rw [step_tasks hstep hl] at ht
      obtain ⟨newer, w₁, l₁, older, w₂, rfl, hended⟩ := ih ht
      exact ⟨(w, l) :: newer, w₁, l₁, older, w₂, rfl, hended⟩

end Arrivals

variable {Op Op' : Type} {Ans : Op → Type} {Ans' : Op' → Type}
  {σ σ' τ Spec Spec' Answer Answer' AnswerL Ev Ev' EvL ρ ρ' : Type}

/-- How the tasks of a linked scheduler run a client and the calls that it makes to a service.
A call is an operation of the client; it stands for a task of the service, whose result is made
its answer. -/
structure Links (L : Scheduler (Op ⊕ Op') (SumAns Ans Ans') τ Spec AnswerL EvL ρ)
    (M : Scheduler Op Ans σ Spec Answer Ev ρ)
    (N : Scheduler Op' Ans' σ' Spec' Answer' Ev' ρ') where
  fst : τ → σ
  snd : τ → σ'
  link : (o : Op) → Prog (Op ⊕ Op') (SumAns Ans Ans') (Ans o)
  call : (o : Op) → Option (Spec' × (ρ' → Ans o))
  body_eq : ∀ spec, L.body spec = (M.body spec).interp link
  link_own : ∀ o, call o = none → link o = perform (Sum.inl o)
  link_call : ∀ o c reply, call o = some (c, reply) →
    link o = (N.body c).inr >>= fun r => .ret (reply r)
  exec_own : ∀ o t, (L.exec (.inl o) t).map (fun r => (r.1, fst r.2, snd r.2)) =
    (M.exec o (fst t)).map fun r => (r.1, r.2, snd t)
  exec_service : ∀ o t, (L.exec (.inr o) t).map (fun r => (r.1, fst r.2, snd r.2)) =
    (N.exec o (snd t)).map fun r => (r.1, fst t, r.2)
  exec_call : ∀ o c s, call o = some c → M.exec o s = none
  decode_own : ∀ o answer a, L.decode (.inl o) answer = some a →
    ∃ answer', M.decode o answer' = some a
  decode_service : ∀ o answer a, L.decode (.inr o) answer = some a →
    ∃ answer', N.decode o answer' = some a
  decode_reply : ∀ o c reply r, call o = some (c, reply) →
    ∃ answer, M.decode o answer = some (reply r)
  env_own : ∀ t e t', L.env t e = some t' → fst t' = fst t ∨ ∃ e', M.env (fst t) e' = some (fst t')
  env_service : ∀ t e t', L.env t e = some t' →
    snd t' = snd t ∨ ∃ e', N.env (snd t) e' = some (snd t')

namespace Links

variable {L : Scheduler (Op ⊕ Op') (SumAns Ans Ans') τ Spec AnswerL EvL ρ}
  {M : Scheduler Op Ans σ Spec Answer Ev ρ} {N : Scheduler Op' Ans' σ' Spec' Answer' Ev' ρ'}
  (W : L.Links M N)

section Segments

variable {W} {o : Op} {o' : Op'} {t t' : τ}

theorem exec_own_none (h : M.exec o (W.fst t) = none) : L.exec (.inl o) t = none := by
  have heq := W.exec_own o t
  rw [h] at heq
  exact Option.map_eq_none_iff.mp heq

theorem exec_own_some {a : Ans o} {s : σ} (h : M.exec o (W.fst t) = some (a, s)) :
    ∃ t', L.exec (.inl o) t = some (a, t') ∧ W.fst t' = s ∧ W.snd t' = W.snd t := by
  have heq := W.exec_own o t
  rw [h] at heq
  obtain ⟨⟨a', t'⟩, hexec, hr⟩ := Option.map_eq_some_iff.mp heq
  simp only [Prod.mk.injEq] at hr
  obtain ⟨rfl, hfst, hsnd⟩ := hr
  exact ⟨t', hexec, hfst, hsnd⟩

theorem exec_own_of_some {a : Ans o} (h : L.exec (.inl o) t = some (a, t')) :
    M.exec o (W.fst t) = some (a, W.fst t') ∧ W.snd t' = W.snd t := by
  have heq := W.exec_own o t
  rw [h] at heq
  obtain ⟨⟨a', s⟩, hexec, hr⟩ := Option.map_eq_some_iff.mp heq.symm
  simp only [Prod.mk.injEq] at hr
  obtain ⟨rfl, rfl, hsnd⟩ := hr
  exact ⟨hexec, hsnd.symm⟩

theorem exec_service_none (h : N.exec o' (W.snd t) = none) : L.exec (.inr o') t = none := by
  have heq := W.exec_service o' t
  rw [h] at heq
  exact Option.map_eq_none_iff.mp heq

theorem exec_service_some {a : Ans' o'} {s : σ'} (h : N.exec o' (W.snd t) = some (a, s)) :
    ∃ t', L.exec (.inr o') t = some (a, t') ∧ W.fst t' = W.fst t ∧ W.snd t' = s := by
  have heq := W.exec_service o' t
  rw [h] at heq
  obtain ⟨⟨a', t'⟩, hexec, hr⟩ := Option.map_eq_some_iff.mp heq
  simp only [Prod.mk.injEq] at hr
  obtain ⟨rfl, hfst, hsnd⟩ := hr
  exact ⟨t', hexec, hfst, hsnd⟩

theorem exec_service_of_some {a : Ans' o'} (h : L.exec (.inr o') t = some (a, t')) :
    N.exec o' (W.snd t) = some (a, W.snd t') ∧ W.fst t' = W.fst t := by
  have heq := W.exec_service o' t
  rw [h] at heq
  obtain ⟨⟨a', s⟩, hexec, hr⟩ := Option.map_eq_some_iff.mp heq.symm
  simp only [Prod.mk.injEq] at hr
  obtain ⟨rfl, hfst, rfl⟩ := hr
  exact ⟨hexec, hfst.symm⟩

theorem interp_own {k : Ans o → Prog Op Ans ρ} (h : W.call o = none) :
    (Prog.call o k).interp W.link = .call (.inl o) fun a => (k a).interp W.link := by
  show W.link o >>= _ = _
  rw [W.link_own o h]
  rfl

theorem interp_call {k : Ans o → Prog Op Ans ρ} {c : Spec'} {reply : ρ' → Ans o}
    (h : W.call o = some (c, reply)) :
    (Prog.call o k).interp W.link =
      (N.body c).inr >>= fun r => (k (reply r)).interp W.link := by
  show W.link o >>= _ = _
  rw [W.link_call o c reply h, bind_assoc]
  rfl

theorem interp_eq_ret {p : Prog Op Ans ρ} {r : ρ} (hp : ∀ o, p.awaits = some o → W.call o = none)
    (h : p.interp W.link = .ret r) : p = .ret r := by
  cases p with
  | ret r' =>
    obtain rfl := Prog.ret.inj h
    rfl
  | call o k =>
    rw [interp_own (hp o rfl)] at h
    contradiction

/-- A segment of a call, and of its task from there on: either the call goes on to wait, or the
task goes on with its result. -/
theorem settle_service (q : Prog Op' Ans' ρ') (f : ρ' → Prog (Op ⊕ Op') (SumAns Ans Ans') ρ)
    (t : τ) :
    (∃ r t', q.settle N.exec (W.snd t) = (.ret r, W.snd t') ∧ W.fst t' = W.fst t ∧
      (q.inr >>= f).settle L.exec t = (f r).settle L.exec t') ∨
    ∃ o k t', q.settle N.exec (W.snd t) = (.call o k, W.snd t') ∧ W.fst t' = W.fst t ∧
      (q.inr >>= f).settle L.exec t = ((Prog.call o k).inr >>= f, t') := by
  induction q generalizing t with
  | ret r => exact .inl ⟨r, t, rfl, rfl, rfl⟩
  | call o k ih =>
    cases h : N.exec o (W.snd t) with
    | none =>
      refine .inr ⟨o, k, t, settle_call_none h, rfl, ?_⟩
      rw [inr_call, call_bind]
      exact settle_call_none (W.exec_service_none h)
    | some r =>
      obtain ⟨a, s⟩ := r
      obtain ⟨t', hexec, hfst, rfl⟩ := W.exec_service_some h
      rw [settle_call_some h, inr_call, call_bind, settle_call_some hexec, ← hfst]
      exact ih a t'

end Segments

/-- The answers that the service has given to a client. -/
def served (tr : List (Event Op Ans)) : List (Event Op Ans) :=
  tr.filter fun e => (W.call e.1).isSome

/-- The other answers that a client was given. -/
def own (tr : List (Event Op Ans)) : List (Event Op Ans) := tr.filter fun e => (W.call e.1).isNone

/-- The task of the service that makes the next call of a client. -/
def nextCall (id : ℕ) (tr : List (Event Op Ans)) : ℕ := Nat.pair id (W.served tr).length

/-- The task of the service has ended with what makes the answer. -/
def Answers (u : Pool Op' Ans' σ' Spec' ρ') (callId : ℕ) (e : Event Op Ans) : Prop :=
  ∃ c reply r, W.call e.1 = some (c, reply) ∧ u.tasks callId = some ⟨c, .ret r⟩ ∧ e.2 = reply r

/-- A run of the client and a run of the service that belong together: a client is answered by
its own calls, which are made one after the other. The rest of what they are answered is given. -/
structure Joint (t₀ : τ) (owned : ℕ → List (Event Op Ans)) (arrived : List (Event Op' Ans'))
    (pastM : List (Pool Op Ans σ Spec ρ × Act Spec Answer Ev)) (v : Pool Op Ans σ Spec ρ)
    (pastN : List (Pool Op' Ans' σ' Spec' ρ' × Act Spec' Answer' Ev'))
    (u : Pool Op' Ans' σ' Spec' ρ') : Prop where
  client : Run M.step (.idle (W.fst t₀)) pastM v
  service : Run N.step (.idle (W.snd t₀)) pastN u
  answered : ∀ id n e, (W.served (M.deliveries id pastM))[n]? = some e →
    W.Answers u (Nat.pair id n) e
  fresh : ∀ id n, (W.served (M.deliveries id pastM)).length < n → u.tasks (Nat.pair id n) = none
  ordered : ∀ x ∈ pastN, ∀ id n, x.2.Runs (Nat.pair id (n + 1)) →
    ∃ c r, x.1.tasks (Nat.pair id n) = some ⟨c, .ret r⟩
  owned_eq : ∀ id, W.own (M.deliveries id pastM) = owned id
  arrived_eq : N.arrivals pastN = arrived

/-- Where a linked task stands: in its client's own part, or in a call. -/
inductive Stands (u : Pool Op' Ans' σ' Spec' ρ') (callId : ℕ) :
    Option (Thread (Op ⊕ Op') (SumAns Ans Ans') Spec ρ) → Option (Thread Op Ans Spec ρ) → Prop
  | idle (hnew : u.tasks callId = none) : Stands u callId none none
  | own {spec : Spec} {p : Prog Op Ans ρ} (hnew : u.tasks callId = none)
      (hp : ∀ o, p.awaits = some o → W.call o = none) :
      Stands u callId (some ⟨spec, p.interp W.link⟩) (some ⟨spec, p⟩)
  | calling {spec : Spec} {o : Op} {k : Ans o → Prog Op Ans ρ} {c : Spec'} {reply : ρ' → Ans o}
      {o' : Op'} {k' : Ans' o' → Prog Op' Ans' ρ'} (hcall : W.call o = some (c, reply))
      (ht : u.tasks callId = some ⟨c, .call o' k'⟩) :
      Stands u callId
        (some ⟨spec, (Prog.call o' k').inr >>= fun r => (k (reply r)).interp W.link⟩)
        (some ⟨spec, .call o k⟩)

/-- What one task and its calls do is nothing to the others. -/
structure Frame (M : Scheduler Op Ans σ Spec Answer Ev ρ) (id : ℕ)
    (pastM pastM' : List (Pool Op Ans σ Spec ρ × Act Spec Answer Ev))
    (v v' : Pool Op Ans σ Spec ρ) (u u' : Pool Op' Ans' σ' Spec' ρ') : Prop where
  tasks : ∀ id', id' ≠ id → v'.tasks id' = v.tasks id'
  deliveries : ∀ id', id' ≠ id → M.deliveries id' pastM' = M.deliveries id' pastM
  calls : ∀ id', id' ≠ id → ∀ m, u'.tasks (Nat.pair id' m) = u.tasks (Nat.pair id' m)

section Joint

variable {W} {t₀ : τ} {owned : ℕ → List (Event Op Ans)} {arrived : List (Event Op' Ans')}
  {pastM pastM₁ pastM₂ : List (Pool Op Ans σ Spec ρ × Act Spec Answer Ev)}
  {v v' v₁ v₂ : Pool Op Ans σ Spec ρ}
  {pastN : List (Pool Op' Ans' σ' Spec' ρ' × Act Spec' Answer' Ev')}
  {u u' u₁ u₂ : Pool Op' Ans' σ' Spec' ρ'} {id : ℕ}

theorem Frame.refl : Frame M id pastM pastM v v u u :=
  ⟨fun _ _ => rfl, fun _ _ => rfl, fun _ _ _ => rfl⟩

theorem Frame.trans (h : Frame M id pastM pastM₁ v v₁ u u₁)
    (h' : Frame M id pastM₁ pastM₂ v₁ v₂ u₁ u₂) : Frame M id pastM pastM₂ v v₂ u u₂ where
  tasks id' hid := (h'.tasks id' hid).trans (h.tasks id' hid)
  deliveries id' hid := (h'.deliveries id' hid).trans (h.deliveries id' hid)
  calls id' hid n := (h'.calls id' hid n).trans (h.calls id' hid n)

theorem Frame.client {l : Act Spec Answer Ev} (hstep : M.step v l = some v') (hl : l.Runs id) :
    Frame M id pastM ((v, l) :: pastM) v v' u u where
  tasks id' hid := step_tasks hstep fun hruns => hid (hruns.unique hl)
  deliveries id' hid := by
    rcases hl with ⟨spec, rfl⟩ | ⟨answer, rfl⟩ | rfl
    · exact deliveries_of_quiet (by simp)
    · exact deliveries_resume_of_ne hid
    · exact deliveries_of_quiet (by simp)
  calls _ _ _ := rfl

theorem nextCall_ne {id' n : ℕ} {tr : List (Event Op Ans)} (h : id' ≠ id) :
    Nat.pair id' n ≠ W.nextCall id tr := fun heq => h (Nat.pair_eq_pair.mp heq).1

theorem Frame.service {l : Act Spec' Answer' Ev'} (hstep : N.step u l = some u')
    (hruns : ∀ n, l.Runs n → n = W.nextCall id (M.deliveries id pastM)) :
    Frame M id pastM pastM v v u u' where
  tasks _ _ := rfl
  deliveries _ _ := rfl
  calls _ hid _ := step_tasks hstep fun h => W.nextCall_ne hid (hruns _ h)

/-- A step of the client that answers nothing. -/
theorem Joint.quietClient (h : W.Joint t₀ owned arrived pastM v pastN u) {l : Act Spec Answer Ev}
    (hstep : M.step v l = some v') (hl : ∀ id answer, l ≠ .resume id answer) :
    W.Joint t₀ owned arrived ((v, l) :: pastM) v' pastN u where
  client := h.client.next hstep
  service := h.service
  answered id n e he := by
    rw [deliveries_of_quiet hl] at he
    exact h.answered id n e he
  fresh id n hn := by
    rw [deliveries_of_quiet hl] at hn
    exact h.fresh id n hn
  ordered := h.ordered
  owned_eq id := by
    rw [deliveries_of_quiet hl]
    exact h.owned_eq id
  arrived_eq := h.arrived_eq

/-- The client is answered an operation that is no call. -/
theorem Joint.ownAnswer (h : W.Joint t₀ owned arrived pastM v pastN u)
    (owned' : ℕ → List (Event Op Ans)) {spec : Spec} {o : Op} {k : Ans o → Prog Op Ans ρ}
    {a : Ans o} {answer : Answer} (hown : W.call o = none)
    (hv : v.tasks id = some ⟨spec, .call o k⟩) (hanswer : M.decode o answer = some a)
    (hself : owned' id = owned id ++ [⟨o, a⟩])
    (hothers : ∀ id', id' ≠ id → owned' id' = owned id') :
    W.Joint t₀ owned' arrived ((v, .resume id answer) :: pastM)
      (v.park id spec ((k a).settle M.exec v.shared)) pastN u ∧
    W.served (M.deliveries id ((v, .resume id answer) :: pastM)) =
      W.served (M.deliveries id pastM) := by
  have hserved : ∀ id', W.served (M.deliveries id' ((v, .resume id answer) :: pastM)) =
      W.served (M.deliveries id' pastM) := by
    intro id'
    by_cases hid : id' = id
    · subst hid
      rw [deliveries_resume hv hanswer]
      simp [served, List.filter_append, hown]
    · rw [deliveries_resume_of_ne hid]
  refine ⟨⟨h.client.next (step_resume_iff.mpr ⟨spec, o, k, a, hv, hanswer, rfl⟩), h.service,
    ?_, ?_, h.ordered, ?_, h.arrived_eq⟩, hserved id⟩
  · intro id' n e he
    rw [hserved] at he
    exact h.answered id' n e he
  · intro id' n hn
    rw [hserved] at hn
    exact h.fresh id' n hn
  · intro id'
    by_cases hid : id' = id
    · subst hid
      rw [hself, deliveries_resume hv hanswer, ← h.owned_eq id']
      simp [own, List.filter_append, hown]
    · rw [hothers id' hid, deliveries_resume_of_ne hid]
      exact h.owned_eq id'

/-- The client is answered by its call. -/
theorem Joint.returnCall (h : W.Joint t₀ owned arrived pastM v pastN u) {spec : Spec} {o : Op}
    {k : Ans o → Prog Op Ans ρ} {c : Spec'} {reply : ρ' → Ans o} {r : ρ'} {answer : Answer}
    (hcall : W.call o = some (c, reply)) (hv : v.tasks id = some ⟨spec, .call o k⟩)
    (hu : u.tasks (W.nextCall id (M.deliveries id pastM)) = some ⟨c, .ret r⟩)
    (hanswer : M.decode o answer = some (reply r)) :
    W.Joint t₀ owned arrived ((v, .resume id answer) :: pastM)
      (v.park id spec ((k (reply r)).settle M.exec v.shared)) pastN u ∧
    M.deliveries id ((v, .resume id answer) :: pastM) =
      M.deliveries id pastM ++ [⟨o, reply r⟩] := by
  have hself : M.deliveries id ((v, .resume id answer) :: pastM) =
      M.deliveries id pastM ++ [⟨o, reply r⟩] := deliveries_resume hv hanswer
  have hserved : W.served (M.deliveries id pastM ++ [⟨o, reply r⟩]) =
      W.served (M.deliveries id pastM) ++ [⟨o, reply r⟩] := by
    simp [served, List.filter_append, hcall]
  refine ⟨⟨h.client.next (step_resume_iff.mpr ⟨spec, o, k, reply r, hv, hanswer, rfl⟩), h.service,
    ?_, ?_, h.ordered, ?_, h.arrived_eq⟩, hself⟩
  · intro id' n e he
    by_cases hid : id' = id
    · subst hid
      rw [hself, hserved] at he
      rw [List.getElem?_append] at he
      split at he
      next hold => exact h.answered id' n e he
      next hnew =>
        rw [List.getElem?_singleton] at he
        split at he
        next hzero =>
          obtain rfl := Option.some.inj he
          obtain rfl : n = (W.served (M.deliveries id' pastM)).length := by omega
          exact ⟨c, reply, r, hcall, hu, rfl⟩
        next => contradiction
    · rw [deliveries_resume_of_ne hid] at he
      exact h.answered id' n e he
  · intro id' n hn
    by_cases hid : id' = id
    · subst hid
      rw [hself, hserved, List.length_append] at hn
      exact h.fresh id' n (by omega)
    · rw [deliveries_resume_of_ne hid] at hn
      exact h.fresh id' n hn
  · intro id'
    by_cases hid : id' = id
    · subst hid
      rw [hself, ← h.owned_eq id']
      simp [own, List.filter_append, hcall]
    · rw [deliveries_resume_of_ne hid]
      exact h.owned_eq id'

/-- A step of the service that runs no call but the next one of a client. -/
theorem Joint.stepService (h : W.Joint t₀ owned arrived pastM v pastN u)
    {l : Act Spec' Answer' Ev'} (hstep : N.step u l = some u')
    (hruns : ∀ n, l.Runs n → n = W.nextCall id (M.deliveries id pastM)) :
    W.Joint t₀ owned (arrived ++ (N.arrival u l).toList) pastM v ((u, l) :: pastN) u' where
  client := h.client
  service := h.service.next hstep
  answered id' n e he := by
    obtain ⟨c, reply, r, hcall, hu, hreply⟩ := h.answered id' n e he
    exact ⟨c, reply, r, hcall, step_done hstep hu, hreply⟩
  fresh id' n hn := by
    rw [← h.fresh id' n hn]
    refine step_tasks hstep fun hl => ?_
    obtain ⟨rfl, rfl⟩ := Nat.pair_eq_pair.mp (hruns _ hl)
    exact absurd hn (lt_irrefl _)
  ordered := by
    refine List.forall_mem_cons.mpr ⟨fun id' n hl => ?_, h.ordered⟩
    obtain ⟨rfl, hlength⟩ := Nat.pair_eq_pair.mp (hruns _ hl)
    have hended : n < (W.served (M.deliveries id' pastM)).length := by omega
    obtain ⟨c, reply, r, -, hu, -⟩ := h.answered id' n _ (List.getElem?_eq_getElem hended)
    exact ⟨c, r, hu⟩
  owned_eq := h.owned_eq
  arrived_eq := by rw [arrivals_cons, h.arrived_eq]

end Joint

section Follow

variable (t₀ : τ) (owned : ℕ → List (Event Op Ans)) (arrived : List (Event Op' Ans')) (id : ℕ)
  (spec : Spec)

/-- The two runs can go on until the task is where a segment leaves it. -/
def Reaches (pastM : List (Pool Op Ans σ Spec ρ × Act Spec Answer Ev))
    (v : Pool Op Ans σ Spec ρ) (u : Pool Op' Ans' σ' Spec' ρ')
    (r : Prog (Op ⊕ Op') (SumAns Ans Ans') ρ × τ) : Prop :=
  ∃ pastM' v' pastN' u', W.Joint t₀ owned arrived pastM' v' pastN' u' ∧
    Frame M id pastM pastM' v v' u u' ∧ v'.shared = W.fst r.2 ∧ u'.shared = W.snd r.2 ∧
    W.Stands u' (W.nextCall id (M.deliveries id pastM')) (some ⟨spec, r.1⟩) (v'.tasks id)

/-- Wherever the client has settled on a program, the two runs can go on with the linked one. -/
def Advances (p : Prog Op Ans ρ) : Prop :=
  ∀ (pastM : List (Pool Op Ans σ Spec ρ × Act Spec Answer Ev)) (v : Pool Op Ans σ Spec ρ)
    (pastN : List (Pool Op' Ans' σ' Spec' ρ' × Act Spec' Answer' Ev'))
    (u : Pool Op' Ans' σ' Spec' ρ') (t : τ), W.Joint t₀ owned arrived pastM v pastN u →
    v.tasks id = some ⟨spec, (p.settle M.exec (W.fst t)).1⟩ →
    v.shared = (p.settle M.exec (W.fst t)).2 → u.shared = W.snd t →
    u.tasks (W.nextCall id (M.deliveries id pastM)) = none →
    W.Reaches t₀ owned arrived id spec pastM v u ((p.interp W.link).settle L.exec t)

variable {W t₀ owned arrived id spec}
  {pastM pastM' : List (Pool Op Ans σ Spec ρ × Act Spec Answer Ev)} {v v' : Pool Op Ans σ Spec ρ}
  {pastN : List (Pool Op' Ans' σ' Spec' ρ' × Act Spec' Answer' Ev')}
  {u u' : Pool Op' Ans' σ' Spec' ρ'} {t : τ}

theorem Reaches.frame {r : Prog (Op ⊕ Op') (SumAns Ans Ans') ρ × τ}
    (hframe : Frame M id pastM pastM' v v' u u')
    (h : W.Reaches t₀ owned arrived id spec pastM' v' u' r) :
    W.Reaches t₀ owned arrived id spec pastM v u r := by
  obtain ⟨pastM₁, v₁, pastN₁, u₁, hjoint, hrest, hstands⟩ := h
  exact ⟨pastM₁, v₁, pastN₁, u₁, hjoint, hframe.trans hrest, hstands⟩

/-- A call that has settled on the service: it waits there, or the client goes on. -/
theorem Joint.settleCall (h : W.Joint t₀ owned arrived pastM v pastN u) {o : Op}
    {k : Ans o → Prog Op Ans ρ} {c : Spec'} {reply : ρ' → Ans o}
    (hcall : W.call o = some (c, reply))
    (hk : ∀ r, W.Advances t₀ owned arrived id spec (k (reply r))) (q : Prog Op' Ans' ρ')
    (hv : v.tasks id = some ⟨spec, .call o k⟩) (hvshared : v.shared = W.fst t)
    (hu : u.tasks (W.nextCall id (M.deliveries id pastM)) =
      some ⟨c, (q.settle N.exec (W.snd t)).1⟩)
    (hushared : u.shared = (q.settle N.exec (W.snd t)).2) :
    W.Reaches t₀ owned arrived id spec pastM v u
      ((q.inr >>= fun r => (k (reply r)).interp W.link).settle L.exec t) := by
  rcases W.settle_service q (fun r => (k (reply r)).interp W.link) t with
    ⟨r, t', hsettle, hfst, heq⟩ | ⟨o', k', t', hsettle, hfst, heq⟩
  · rw [hsettle] at hu hushared
    rw [heq]
    obtain ⟨answer, hanswer⟩ := W.decode_reply o c reply r hcall
    have hstep : M.step v (.resume id answer) =
        some (v.park id spec ((k (reply r)).settle M.exec v.shared)) :=
      step_resume_iff.mpr ⟨spec, o, k, reply r, hv, hanswer, rfl⟩
    obtain ⟨hjoint, hdeliveries⟩ := h.returnCall hcall hv hu hanswer
    refine Reaches.frame (Frame.client hstep (.inr (.inl ⟨answer, rfl⟩))) ?_
    refine hk r _ _ pastN u t' hjoint ?_ ?_ hushared ?_
    · rw [Pool.park_tasks_self, hvshared, hfst]
    · rw [Pool.park_shared, hvshared, hfst]
    · refine h.fresh id _ ?_
      rw [hdeliveries]
      simp [served, List.filter_append, hcall]
  · rw [hsettle] at hu hushared
    rw [heq]
    refine ⟨pastM, v, pastN, u, h, Frame.refl, hvshared.trans hfst.symm, hushared, ?_⟩
    rw [hv]
    exact .calling hcall hu

/-- Every program of the client can be followed. -/
theorem advances (p : Prog Op Ans ρ) : W.Advances t₀ owned arrived id spec p := by
  induction p with
  | ret r =>
    intro pastM v pastN u t h hv hvshared hushared hnew
    refine ⟨pastM, v, pastN, u, h, Frame.refl, hvshared, hushared, ?_⟩
    rw [hv]
    exact Stands.own (p := .ret r) hnew (by simp)
  | call o k ih =>
    intro pastM v pastN u t h hv hvshared hushared hnew
    cases hcall : W.call o with
    | none =>
      rw [interp_own hcall]
      cases hexec : M.exec o (W.fst t) with
      | none =>
        rw [settle_call_none hexec] at hv hvshared
        rw [settle_call_none (W.exec_own_none hexec)]
        refine ⟨pastM, v, pastN, u, h, Frame.refl, hvshared, hushared, ?_⟩
        rw [hv, ← interp_own hcall]
        refine Stands.own hnew fun o' ho => ?_
        obtain rfl := Option.some.inj ho
        exact hcall
      | some r =>
        obtain ⟨a, s⟩ := r
        obtain ⟨t', hexec', rfl, hsnd⟩ := W.exec_own_some hexec
        rw [settle_call_some hexec] at hv hvshared
        rw [settle_call_some hexec']
        exact ih a pastM v pastN u t' h hv hvshared (hushared.trans hsnd.symm) hnew
    | some call =>
      obtain ⟨c, reply⟩ := call
      rw [settle_call_none (W.exec_call o _ _ hcall)] at hv hvshared
      rw [interp_call hcall]
      have hstep : N.step u (.spawn (W.nextCall id (M.deliveries id pastM)) c) =
          some (u.park _ c ((N.body c).settle N.exec u.shared)) := step_spawn_iff.mpr ⟨hnew, rfl⟩
      have hruns : ∀ n, (Act.spawn (W.nextCall id (M.deliveries id pastM)) c :
          Act Spec' Answer' Ev').Runs n → n = W.nextCall id (M.deliveries id pastM) :=
        fun n hl => hl.unique (.inl ⟨c, rfl⟩)
      have hjoint := h.stepService hstep hruns
      rw [show N.arrival u (.spawn _ c) = none from rfl, Option.toList_none, List.append_nil]
        at hjoint
      refine Reaches.frame (Frame.service hstep hruns) ?_
      refine hjoint.settleCall hcall (fun r => ih (reply r)) (N.body c) hv hvshared ?_ ?_
      · rw [Pool.park_tasks_self, hushared]
      · rw [Pool.park_shared, hushared]

end Follow

section Runs

/-- A linked run, and the two runs that it consists of. -/
structure Splits (t₀ : τ)
    (past : List (Pool (Op ⊕ Op') (SumAns Ans Ans') τ Spec ρ × Act Spec AnswerL EvL))
    (w : Pool (Op ⊕ Op') (SumAns Ans Ans') τ Spec ρ)
    (pastM : List (Pool Op Ans σ Spec ρ × Act Spec Answer Ev)) (v : Pool Op Ans σ Spec ρ)
    (pastN : List (Pool Op' Ans' σ' Spec' ρ' × Act Spec' Answer' Ev'))
    (u : Pool Op' Ans' σ' Spec' ρ') : Prop extends
    W.Joint t₀ (fun id => (L.deliveries id past).filterMap leftEvent)
      ((L.arrivals past).filterMap rightEvent) pastM v pastN u where
  fst_eq : v.shared = W.fst w.shared
  snd_eq : u.shared = W.snd w.shared
  stands : ∀ id, W.Stands u (W.nextCall id (M.deliveries id pastM)) (w.tasks id) (v.tasks id)

variable {W} {t₀ : τ}
  {past : List (Pool (Op ⊕ Op') (SumAns Ans Ans') τ Spec ρ × Act Spec AnswerL EvL)}
  {w w' : Pool (Op ⊕ Op') (SumAns Ans Ans') τ Spec ρ} {l : Act Spec AnswerL EvL}
  {pastM pastM' : List (Pool Op Ans σ Spec ρ × Act Spec Answer Ev)} {v v' : Pool Op Ans σ Spec ρ}
  {pastN : List (Pool Op' Ans' σ' Spec' ρ' × Act Spec' Answer' Ev')}
  {u u' : Pool Op' Ans' σ' Spec' ρ'} {id : ℕ} {spec : Spec}

theorem Stands.congr {callId : ℕ} {a : Option (Thread (Op ⊕ Op') (SumAns Ans Ans') Spec ρ)}
    {b : Option (Thread Op Ans Spec ρ)} (h : W.Stands u callId a b)
    (hu : u'.tasks callId = u.tasks callId) : W.Stands u' callId a b := by
  cases h with
  | idle hnew => exact .idle (hu.trans hnew)
  | own hnew hp => exact .own (hu.trans hnew) hp
  | calling hcall ht => exact .calling hcall (hu.trans ht)

/-- The linked step that leaves one task where the two runs have got to. -/
theorem Splits.park (h : W.Splits t₀ past w pastM v pastN u)
    (hframe : Frame M id pastM pastM' v v' u u') {r : Prog (Op ⊕ Op') (SumAns Ans Ans') ρ × τ}
    (hr : W.Reaches t₀ (fun id => (L.deliveries id ((w, l) :: past)).filterMap leftEvent)
      ((L.arrivals ((w, l) :: past)).filterMap rightEvent) id spec pastM' v' u' r) :
    ∃ pastM' v' pastN' u', W.Splits t₀ ((w, l) :: past) (w.park id spec r) pastM' v' pastN' u' := by
  obtain ⟨pastM₁, v₁, pastN₁, u₁, hjoint, hrest, hfst, hsnd, hstands⟩ := hr.frame hframe
  refine ⟨pastM₁, v₁, pastN₁, u₁, hjoint, hfst, hsnd, fun id' => ?_⟩
  by_cases hid : id' = id
  · subst hid
    rw [Pool.park_tasks_self]
    exact hstands
  · rw [Pool.park_tasks_of_ne _ _ _ hid, hrest.tasks id' hid, hrest.deliveries id' hid]
    exact (h.stands id').congr (hrest.calls id' hid _)

/-- A suspended task waits for an operation of its client, or in a call for one of the service. -/
theorem Stands.of_call {callId : ℕ} {oL : Op ⊕ Op'}
    {kL : SumAns Ans Ans' oL → Prog (Op ⊕ Op') (SumAns Ans Ans') ρ}
    {b : Option (Thread Op Ans Spec ρ)} (h : W.Stands u callId (some ⟨spec, .call oL kL⟩) b) :
    (∃ o k, b = some ⟨spec, .call o k⟩ ∧ W.call o = none ∧ u.tasks callId = none ∧
      Prog.call oL kL = .call (.inl o) fun a => (k a).interp W.link) ∨
    ∃ o k c reply o' k', b = some ⟨spec, .call o k⟩ ∧ W.call o = some (c, reply) ∧
      u.tasks callId = some ⟨c, .call o' k'⟩ ∧
      Prog.call oL kL = .call (.inr o') fun a =>
        (k' a).inr >>= fun r => (k (reply r)).interp W.link := by
  generalize hp : Prog.call oL kL = p at h
  cases h with
  | @own _ q hnew hq =>
    cases q with
    | ret r => contradiction
    | call o k => exact .inl ⟨o, k, rfl, hq o rfl, hnew, interp_own (hq o rfl)⟩
  | calling hcall ht => exact .inr ⟨_, _, _, _, _, _, rfl, hcall, ht, rfl⟩

/-- A task that has ended has ended for its client. -/
theorem Stands.of_ret {callId : ℕ} {r : ρ} {b : Option (Thread Op Ans Spec ρ)}
    (h : W.Stands u callId (some ⟨spec, .ret r⟩) b) : b = some ⟨spec, .ret r⟩ := by
  generalize hp : (Prog.ret r : Prog (Op ⊕ Op') (SumAns Ans Ans') ρ) = p at h
  cases h with
  | own hnew hq => rw [interp_eq_ret hq hp.symm]
  | calling hcall ht => contradiction

theorem Splits.quiet (h : W.Splits t₀ past w pastM v pastN u)
    (hl : ∀ id answer, l ≠ .resume id answer) :
    W.Joint t₀ (fun id => (L.deliveries id ((w, l) :: past)).filterMap leftEvent)
      ((L.arrivals ((w, l) :: past)).filterMap rightEvent) pastM v pastN u := by
  simpa only [deliveries_of_quiet hl, arrivals_of_quiet hl] using h.toJoint

theorem Splits.spawn (h : W.Splits t₀ past w pastM v pastN u)
    (hstep : L.step w (.spawn id spec) = some w') :
    ∃ pastM' v' pastN' u',
      W.Splits t₀ ((w, .spawn id spec) :: past) w' pastM' v' pastN' u' := by
  obtain ⟨hnew, rfl⟩ := step_spawn_iff.mp hstep
  have hquiet := h.quiet (l := .spawn id spec) (by simp)
  have hstands := h.stands id
  rw [hnew] at hstands
  generalize hv : v.tasks id = b at hstands
  cases hstands with
  | idle hcall =>
    have hclient : M.step v (.spawn id spec) =
        some (v.park id spec ((M.body spec).settle M.exec v.shared)) :=
      step_spawn_iff.mpr ⟨hv, rfl⟩
    have hjoint := hquiet.quietClient hclient (by simp)
    refine h.park (Frame.client hclient (.inl ⟨spec, rfl⟩)) ?_
    rw [W.body_eq]
    refine advances (M.body spec) _ _ _ _ _ hjoint ?_ ?_ h.snd_eq ?_
    · rw [Pool.park_tasks_self, h.fst_eq]
    · rw [Pool.park_shared, h.fst_eq]
    · rw [deliveries_of_quiet (by simp)]
      exact hcall

/-- An answer from outside reaches the client or the service. -/
theorem Splits.resume (h : W.Splits t₀ past w pastM v pastN u) {answer : AnswerL}
    (hstep : L.step w (.resume id answer) = some w') :
    ∃ pastM' v' pastN' u',
      W.Splits t₀ ((w, .resume id answer) :: past) w' pastM' v' pastN' u' := by
  obtain ⟨spec, oL, kL, a, ht, ha, rfl⟩ := step_resume_iff.mp hstep
  have hstands := h.stands id
  rw [ht] at hstands
  have hothers : ∀ id', id' ≠ id →
      (L.deliveries id' ((w, .resume id answer) :: past)).filterMap leftEvent =
        (L.deliveries id' past).filterMap leftEvent :=
    fun id' hid => by rw [deliveries_resume_of_ne hid]
  rcases hstands.of_call with ⟨o, k, hv, hown, hnew, heq⟩ |
    ⟨o, k, c, reply, o', k', hv, hcall, hu, heq⟩
  · cases heq
    obtain ⟨answer', hanswer⟩ := W.decode_own o answer a ha
    have hclient : M.step v (.resume id answer') =
        some (v.park id spec ((k a).settle M.exec v.shared)) :=
      step_resume_iff.mpr ⟨spec, o, k, a, hv, hanswer, rfl⟩
    have hself : (L.deliveries id ((w, .resume id answer) :: past)).filterMap leftEvent =
        (L.deliveries id past).filterMap leftEvent ++ [⟨o, a⟩] := by
      rw [deliveries_resume ht ha, List.filterMap_append]
      rfl
    obtain ⟨hjoint, hserved⟩ := h.ownAnswer
      (fun id' => (L.deliveries id' ((w, .resume id answer) :: past)).filterMap leftEvent)
      hown hv hanswer hself hothers
    refine h.park (Frame.client hclient (.inr (.inl ⟨answer', rfl⟩))) ?_
    rw [arrivals_resume ht ha, List.filterMap_append]
    refine advances (k a) _ _ _ _ _ (List.append_nil ((L.arrivals past).filterMap _) ▸ hjoint)
      ?_ ?_ h.snd_eq ?_
    · rw [Pool.park_tasks_self, h.fst_eq]
    · rw [Pool.park_shared, h.fst_eq]
    · rw [nextCall, hserved]
      exact hnew
  · cases heq
    obtain ⟨answer', hanswer⟩ := W.decode_service o' answer a ha
    have hservice : N.step u (.resume (W.nextCall id (M.deliveries id pastM)) answer') =
        some (u.park _ c ((k' a).settle N.exec u.shared)) :=
      step_resume_iff.mpr ⟨c, o', k', a, hu, hanswer, rfl⟩
    have hruns : ∀ n, (Act.resume (W.nextCall id (M.deliveries id pastM)) answer' :
        Act Spec' Answer' Ev').Runs n → n = W.nextCall id (M.deliveries id pastM) :=
      fun n hl => hl.unique (.inr (.inl ⟨answer', rfl⟩))
    have howned : (fun id' =>
        (L.deliveries id' ((w, .resume id answer) :: past)).filterMap leftEvent) =
          fun id' => (L.deliveries id' past).filterMap leftEvent := by
      funext id'
      by_cases hid : id' = id
      · subst hid
        rw [deliveries_resume ht ha, List.filterMap_append]
        exact List.append_nil _
      · exact hothers id' hid
    have harrived : (L.arrivals ((w, .resume id answer) :: past)).filterMap rightEvent =
        (L.arrivals past).filterMap rightEvent ++
          (N.arrival u (.resume (W.nextCall id (M.deliveries id pastM)) answer')).toList := by
      rw [arrivals_resume ht ha, List.filterMap_append, arrival_resume hu hanswer]
      rfl
    refine h.park (Frame.service hservice hruns) ?_
    rw [howned, harrived]
    refine (h.stepService hservice hruns).settleCall hcall (fun r => advances _) (k' a) hv h.fst_eq
      ?_ ?_
    · rw [Pool.park_tasks_self, h.snd_eq]
    · rw [Pool.park_shared, h.snd_eq]

/-- What was not available before is available to the client or to the service. -/
theorem Splits.wake (h : W.Splits t₀ past w pastM v pastN u)
    (hstep : L.step w (.wake id) = some w') :
    ∃ pastM' v' pastN' u', W.Splits t₀ ((w, .wake id) :: past) w' pastM' v' pastN' u' := by
  obtain ⟨spec, oL, kL, a, t', ht, ha, rfl⟩ := step_wake_iff.mp hstep
  have hquiet := h.quiet (l := .wake id) (by simp)
  have hstands := h.stands id
  rw [ht] at hstands
  rcases hstands.of_call with ⟨o, k, hv, hown, hnew, heq⟩ |
    ⟨o, k, c, reply, o', k', hv, hcall, hu, heq⟩
  · cases heq
    obtain ⟨hexec, hsnd⟩ := W.exec_own_of_some ha
    rw [← h.fst_eq] at hexec
    have hclient : M.step v (.wake id) =
        some (v.park id spec ((k a).settle M.exec (W.fst t'))) :=
      step_wake_iff.mpr ⟨spec, o, k, a, W.fst t', hv, hexec, rfl⟩
    refine h.park (Frame.client hclient (.inr (.inr rfl))) ?_
    refine advances (k a) _ _ _ _ _ (hquiet.quietClient hclient (by simp))
      (Pool.park_tasks_self _ _ _ _) rfl (h.snd_eq.trans hsnd.symm) ?_
    rw [deliveries_of_quiet (by simp)]
    exact hnew
  · cases heq
    obtain ⟨hexec, hfst⟩ := W.exec_service_of_some ha
    rw [← h.snd_eq] at hexec
    have hservice : N.step u (.wake (W.nextCall id (M.deliveries id pastM))) =
        some (u.park _ c ((k' a).settle N.exec (W.snd t'))) :=
      step_wake_iff.mpr ⟨c, o', k', a, W.snd t', hu, hexec, rfl⟩
    have hruns : ∀ n, (Act.wake (W.nextCall id (M.deliveries id pastM)) :
        Act Spec' Answer' Ev').Runs n → n = W.nextCall id (M.deliveries id pastM) :=
      fun n hl => hl.unique (.inr (.inr rfl))
    have hjoint := hquiet.stepService hservice hruns
    rw [show N.arrival u (.wake _) = none from rfl, Option.toList_none, List.append_nil] at hjoint
    refine h.park (Frame.service hservice hruns) ?_
    exact hjoint.settleCall hcall (fun r => advances _) (k' a) hv (h.fst_eq.trans hfst.symm)
      (Pool.park_tasks_self _ _ _ _) rfl

theorem Splits.env (h : W.Splits t₀ past w pastM v pastN u) {e : EvL}
    (hstep : L.step w (.env e) = some w') :
    ∃ pastM' v' pastN' u', W.Splits t₀ ((w, .env e) :: past) w' pastM' v' pastN' u' := by
  obtain ⟨t', ht', rfl⟩ := step_env_iff.mp hstep
  have hquiet := h.quiet (l := .env e) (by simp)
  obtain ⟨pastM₁, v₁, hclient, hfst, htasks, hdeliveries⟩ : ∃ pastM₁ v₁,
      W.Joint t₀ _ _ pastM₁ v₁ pastN u ∧ v₁.shared = W.fst t' ∧ v₁.tasks = v.tasks ∧
        ∀ id, M.deliveries id pastM₁ = M.deliveries id pastM := by
    rcases W.env_own w.shared e t' ht' with hsame | ⟨e', he'⟩
    · exact ⟨pastM, v, hquiet, h.fst_eq.trans hsame.symm, rfl, fun id => rfl⟩
    · rw [← h.fst_eq] at he'
      exact ⟨_, _, hquiet.quietClient (step_env_iff.mpr ⟨_, he', rfl⟩) (by simp), rfl, rfl,
        fun id => deliveries_of_quiet (by simp)⟩
  obtain ⟨pastN₁, u₁, hjoint, hsnd, hcalls⟩ : ∃ pastN₁ u₁,
      W.Joint t₀ _ _ pastM₁ v₁ pastN₁ u₁ ∧ u₁.shared = W.snd t' ∧ u₁.tasks = u.tasks := by
    rcases W.env_service w.shared e t' ht' with hsame | ⟨e', he'⟩
    · exact ⟨pastN, u, hclient, h.snd_eq.trans hsame.symm, rfl⟩
    · rw [← h.snd_eq] at he'
      have hruns : ∀ n, (Act.env e' : Act Spec' Answer' Ev').Runs n →
          n = W.nextCall 0 (M.deliveries 0 pastM₁) := by
        rintro n (⟨c, hl⟩ | ⟨answer, hl⟩ | hl) <;> contradiction
      have hservice := hclient.stepService (step_env_iff.mpr ⟨_, he', rfl⟩) hruns
      rw [show N.arrival u (.env e') = none from rfl, Option.toList_none, List.append_nil]
        at hservice
      exact ⟨_, _, hservice, rfl, rfl⟩
  refine ⟨pastM₁, v₁, pastN₁, u₁, hjoint, hfst, hsnd, fun id => ?_⟩
  rw [htasks, hdeliveries]
  exact (h.stands id).congr (by rw [hcalls])

theorem Splits.step (h : W.Splits t₀ past w pastM v pastN u) (hstep : L.step w l = some w') :
    ∃ pastM' v' pastN' u', W.Splits t₀ ((w, l) :: past) w' pastM' v' pastN' u' := by
  cases l with
  | spawn id spec => exact h.spawn hstep
  | resume id answer => exact h.resume hstep
  | wake id => exact h.wake hstep
  | env e => exact h.env hstep

theorem splits_idle : W.Splits t₀ [] (.idle t₀) [] (.idle (W.fst t₀)) [] (.idle (W.snd t₀)) where
  client := .start
  service := .start
  answered id n e he := by simp [deliveries, served] at he
  fresh _ _ _ := rfl
  ordered _ hx := absurd hx List.not_mem_nil
  owned_eq _ := rfl
  arrived_eq := rfl
  fst_eq := rfl
  snd_eq := rfl
  stands _ := .idle rfl

/-- Every linked run consists of a run of the client and a run of the service. -/
theorem splits_of_run (W : L.Links M N) (run : Run L.step (.idle t₀) past w) :
    ∃ pastM v pastN u, W.Splits t₀ past w pastM v pastN u := by
  induction run with
  | start => exact ⟨[], _, [], _, splits_idle⟩
  | next run hstep ih =>
    obtain ⟨pastM, v, pastN, u, h⟩ := ih
    exact h.step hstep

/-- A linked task that waits for an operation of its client is not in a call. -/
theorem Splits.waits_own (h : W.Splits t₀ past w pastM v pastN u) {o : Op}
    (ho : w.awaits id = some (.inl o)) : v.awaits id = some o ∧ W.call o = none := by
  obtain ⟨spec, k, ht⟩ := Pool.awaits_eq_some ho
  have hstands := h.stands id
  rw [ht] at hstands
  rcases hstands.of_call with ⟨o', k', hv, hown, -, heq⟩ | ⟨_, _, _, _, _, _, -, -, -, heq⟩
  · cases heq
    exact ⟨Pool.awaits_of_tasks hv, hown⟩
  · cases heq

/-- A linked task that waits for an operation of the service is in its next call. -/
theorem Splits.waits_service (h : W.Splits t₀ past w pastM v pastN u) {o : Op'}
    (ho : w.awaits id = some (.inr o)) :
    u.awaits (W.nextCall id (M.deliveries id pastM)) = some o := by
  obtain ⟨spec, k, ht⟩ := Pool.awaits_eq_some ho
  have hstands := h.stands id
  rw [ht] at hstands
  rcases hstands.of_call with ⟨_, _, -, -, -, heq⟩ | ⟨_, _, _, _, _, _, -, -, hu, heq⟩
  · cases heq
  · cases heq
    exact Pool.awaits_of_tasks hu

/-- Every call that waits is made by a linked task. -/
theorem Splits.waiting_call (h : W.Splits t₀ past w pastM v pastN u) {callId : ℕ} {o : Op'}
    (ho : u.awaits callId = some o) : ∃ id, w.awaits id = some (.inr o) := by
  obtain ⟨c, k, hu⟩ := Pool.awaits_eq_some ho
  obtain ⟨id, n, rfl⟩ : ∃ id n, Nat.pair id n = callId := ⟨_, _, Nat.pair_unpair callId⟩
  have hnext : n = (W.served (M.deliveries id pastM)).length := by
    rcases lt_trichotomy n (W.served (M.deliveries id pastM)).length with hlt | heq | hgt
    · obtain ⟨_, _, r, -, hended, -⟩ := h.answered id n _ (List.getElem?_eq_getElem hlt)
      rw [hu] at hended
      cases hended
    · exact heq
    · rw [h.fresh id n hgt] at hu
      contradiction
  subst hnext
  have hstands := h.stands id
  rw [nextCall] at hstands
  generalize ht : w.tasks id = a at hstands
  generalize v.tasks id = b at hstands
  refine ⟨id, ?_⟩
  cases hstands with
  | idle hnew =>
    rw [hu] at hnew
    contradiction
  | own hnew hp =>
    rw [hu] at hnew
    contradiction
  | calling hcall hu' =>
    rw [hu] at hu'
    cases hu'
    exact Pool.awaits_of_tasks ht

theorem Splits.finished (h : W.Splits t₀ past w pastM v pastN u) {r : ρ}
    (ht : w.tasks id = some ⟨spec, .ret r⟩) : v.tasks id = some ⟨spec, .ret r⟩ := by
  have hstands := h.stands id
  rw [ht] at hstands
  exact hstands.of_ret

end Runs

section Order

variable {W} {t₀ : τ} {owned : ℕ → List (Event Op Ans)} {arrived : List (Event Op' Ans')}
  {pastM : List (Pool Op Ans σ Spec ρ × Act Spec Answer Ev)} {v : Pool Op Ans σ Spec ρ}
  {pastN : List (Pool Op' Ans' σ' Spec' ρ' × Act Spec' Answer' Ev')}
  {u : Pool Op' Ans' σ' Spec' ρ'} {id : ℕ}

/-- A call that has answered its client has ended. -/
theorem Joint.answered_mem (h : W.Joint t₀ owned arrived pastM v pastN u) {e : Event Op Ans}
    (he : e ∈ M.deliveries id pastM) (hcall : (W.call e.1).isSome = true) :
    ∃ n, W.Answers u (Nat.pair id n) e := by
  have hserved : e ∈ W.served (M.deliveries id pastM) := List.mem_filter.mpr ⟨he, hcall⟩
  obtain ⟨n, hn⟩ := List.mem_iff_getElem?.mp hserved
  exact ⟨n, h.answered id n e hn⟩

/-- When a call has ended, the one before it had ended before the last step of it. -/
theorem ended_in_order {s : σ'} (run : Run N.step (.idle s) pastN u)
    (hordered : ∀ x ∈ pastN, ∀ id n, x.2.Runs (Nat.pair id (n + 1)) →
      ∃ c r, x.1.tasks (Nat.pair id n) = some ⟨c, .ret r⟩)
    {n : ℕ} {c : Spec'} {r : ρ'} (hended : u.tasks (Nat.pair id (n + 1)) = some ⟨c, .ret r⟩) :
    ∃ newer u₁ l₁ older u₂, pastN = newer ++ (u₁, l₁) :: older ∧ N.step u₁ l₁ = some u₂ ∧
      l₁.Runs (Nat.pair id (n + 1)) ∧ u₂.tasks (Nat.pair id (n + 1)) = some ⟨c, .ret r⟩ ∧
      ∃ c' r', u₁.tasks (Nat.pair id n) = some ⟨c', .ret r'⟩ := by
  obtain ⟨newer, u₁, l₁, older, u₂, rfl, hstep, hruns, hlast⟩ := ended_of_run run hended
  exact ⟨newer, u₁, l₁, older, u₂, rfl, hstep, hruns, hlast,
    hordered (u₁, l₁) (by simp) id n hruns⟩

end Order

end Links

end Scheduler
