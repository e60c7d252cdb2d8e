import FastapiM8.App.Startup

/-! The answers of the health endpoint: which callers learn how the checks went, and that what
they are told is one whole evaluation of the checks. -/
namespace FastapiM8

namespace App

variable (app : App)

/-- The act of the probes that an act of the app is, if any. -/
def onHealth (s : AppState) : AppAct → Option HealthAct
  | .health l => some l
  | .request id request =>
    if s.serviceReady = false then none
    else if app.detailPublic then some (.probe id)
    else
      match app.authorize with
      | some authorize => if authorize request then some (.probe id) else none
      | none => none
  | .authorized id (.ok true) => some (.probe id)
  | _ => none

/-- What the probes of an app have done. -/
def probing (past : AppHistory) : HealthConfig.HealthHistory :=
  past.filterMap fun e => (app.onHealth e.1 e.2).map fun l => (e.1.health, l)

/-- The authorizer has given this answer to a request. -/
def Decided (past : AppHistory) (id : ℕ) (request : HealthRequest) (answer : Except PyExc Bool) :
    Prop :=
  match app.authorize with
  | some authorize => .ok (authorize request) = answer
  | none => ∃ s, (s, .authorized id answer) ∈ past

variable {app} {now : ℚ} {past : AppHistory} {s s' : AppState} {l : AppAct} {id : ℕ}
  {e : AppState × AppAct}

theorem probing_cons : app.probing (e :: past) =
    ((app.onHealth e.1 e.2).map fun l => (e.1.health, l)).toList ++ app.probing past := by
  unfold probing
  cases h : app.onHealth e.1 e.2 <;> simp [h]

/-- An act of the probes is an act of the app of its own, or the probe of a call. -/
theorem onHealth_cases {l' : HealthAct} (h : app.onHealth s l = some l') :
    l = .health l' ∨ ∃ id, l' = .probe id := by
  cases l with
  | lifespan e => contradiction
  | request id request =>
    refine .inr ⟨id, ?_⟩
    simp only [onHealth] at h
    split at h
    next => contradiction
    next =>
      split at h
      next => exact (Option.some.inj h).symm
      next =>
        split at h
        next =>
          split at h
          next => exact (Option.some.inj h).symm
          next => contradiction
        next => contradiction
  | authorized id answer =>
    refine .inr ⟨id, ?_⟩
    unfold onHealth at h
    split at h
    next => contradiction
    next => contradiction
    next heq =>
      obtain ⟨rfl, -⟩ := AppAct.authorized.inj heq
      exact (Option.some.inj h).symm
    next => contradiction
  | health l => exact .inl (congrArg AppAct.health (Option.some.inj h))

theorem onHealth_private {request : HealthRequest} (hready : ¬ s.serviceReady = false)
    (hpublic : ¬ app.detailPublic = true) : app.onHealth s (.request id request) =
      app.authorize.bind fun authorize =>
        if authorize request then some (.probe id) else none := by
  refine (if_neg hready).trans ((if_neg hpublic).trans ?_)
  cases app.authorize <;> rfl

theorem gather_health (h : app.gather s id = some s') :
    app.health.step s.health (.probe id) = some s'.health := by
  obtain ⟨h', hstep, rfl⟩ := gather_eq_some h
  rw [settleCall_health]
  exact hstep

theorem decided_health {answer : Except PyExc Bool} (h : app.decided s id answer = some s') :
    (answer = .ok true ∧ app.gather s id = some s') ∨
      (answer ≠ .ok true ∧ s'.health = s.health) := by
  unfold decided at h
  split at h
  next => exact .inl ⟨rfl, h⟩
  next => exact .inr ⟨by simp, Option.some.inj h ▸ rfl⟩
  next => exact .inr ⟨by simp, Option.some.inj h ▸ rfl⟩

/-- A step of an app is one of its probes, or they stay as they are. -/
theorem step_health (h : app.step s l = some s') :
    (∃ l', app.onHealth s l = some l' ∧ app.health.step s.health l' = some s'.health) ∨
      (app.onHealth s l = none ∧ s'.health = s.health) := by
  cases moves_of_step h with
  | lifespan e p hp => exact .inr ⟨rfl, by split <;> rfl⟩
  | request id request hnew hanswer =>
    unfold answer at hanswer
    split at hanswer
    next hready => exact .inr ⟨if_pos hready, Option.some.inj hanswer ▸ rfl⟩
    next hready =>
      split at hanswer
      next hpublic =>
        exact .inl ⟨.probe id, (if_neg hready).trans (if_pos hpublic), gather_health hanswer⟩
      next hpublic =>
        rw [onHealth_private hready hpublic]
        split at hanswer
        next authorize hauthorize =>
          rw [hauthorize, Option.bind_some]
          rcases decided_health hanswer with ⟨hok, hanswer⟩ | ⟨hne, hhealth⟩
          · exact .inl ⟨.probe id, if_pos (Except.ok.inj hok), gather_health hanswer⟩
          · exact .inr ⟨if_neg fun htrue => hne (congrArg Except.ok htrue), hhealth⟩
        next hauthorize => exact .inr ⟨by rw [hauthorize]; rfl, Option.some.inj hanswer ▸ rfl⟩
  | authorized id answer hcall hanswer =>
    rcases decided_health hanswer with ⟨rfl, hanswer⟩ | ⟨hne, hhealth⟩
    · exact .inl ⟨.probe id, rfl, gather_health hanswer⟩
    · refine .inr ⟨?_, hhealth⟩
      unfold onHealth
      split
      next => contradiction
      next => contradiction
      next heq =>
        obtain ⟨-, rfl⟩ := AppAct.authorized.inj heq
        exact absurd rfl hne
      next => rfl
  | check l id h' hid hprobe hcheck =>
    exact .inl ⟨l, rfl, by rw [settleCall_health, hcheck]⟩
  | wait seconds h' hwait => exact .inl ⟨.wait seconds, rfl, hwait⟩

/-- Every run of an app is a run of its probes. -/
theorem run_health (run : Run app.step (app.init now) past s) :
    Run app.health.step (.init now) (app.probing past) s.health := by
  induction run with
  | start => exact .start
  | @next past s l s' run hstep ih =>
    rw [probing_cons]
    rcases step_health hstep with ⟨l', hl, hprobe⟩ | ⟨hl, hhealth⟩
    · simp only [hl]
      exact ih.next hprobe
    · simp only [hl]
      rw [hhealth]
      exact ih

/-- The call was requested while the app was ready, or while it was not. -/
def Arrived (past : AppHistory) (id : ℕ) (request : HealthRequest) (isReady : Bool) : Prop :=
  ∃ s, (s, .request id request) ∈ past ∧ s.serviceReady = isReady

/-- The call was requested once, like this. -/
def OnlyArrival (past : AppHistory) (id : ℕ) (request : HealthRequest) (isReady : Bool) : Prop :=
  ∀ request' isReady', Arrived past id request' isReady' → request' = request ∧ isReady' = isReady

/-- The call may see the detail. -/
def Admitted (app : App) (past : AppHistory) (id : ℕ) (request : HealthRequest) : Prop :=
  Arrived past id request true ∧
    (app.detailPublic = true ∨ app.Decided past id request (.ok true))

/-- The authorizer has ended without admitting the call. -/
def Denied (app : App) (past : AppHistory) (id : ℕ) (request : HealthRequest)
    (answer : Except PyExc Bool) : Prop :=
  Arrived past id request true ∧ app.detailPublic = false ∧ app.Decided past id request answer

/-- How far a call has come, and why. -/
inductive CallOk (app : App) (past : AppHistory) (h : HealthState) (id : ℕ)
    (request : HealthRequest) : HealthCall → Prop
  | early (harrived : Arrived past id request false) (hnone : h.probes id = none) :
      CallOk app past h id request (.responded initializing)
  | authorizing (harrived : Arrived past id request true) (hprivate : app.detailPublic = false)
      (hauthorize : app.authorize = none) (hnone : h.probes id = none) :
      CallOk app past h id request .authorizing
  | refused (hdenied : app.Denied past id request (.ok false)) (hnone : h.probes id = none) :
      CallOk app past h id request (.responded shallow)
  | raised (exc : PyExc) (hdenied : app.Denied past id request (.error exc))
      (hnone : h.probes id = none) : CallOk app past h id request (.raised exc)
  | gathering (g : Gathering) (hadmitted : app.Admitted past id request)
      (hg : h.probes id = some (.gathering g)) : CallOk app past h id request .gathering
  | detailed (g : Gathered) (hadmitted : app.Admitted past id request)
      (hg : h.probes id = some (.returned g)) :
      CallOk app past h id request (.responded (app.detailResponse g))
  | cancelled (hadmitted : app.Admitted past id request) (hg : h.probes id = some .cancelled) :
      CallOk app past h id request .cancelled

structure Answering (app : App) (past : AppHistory) (s : AppState) : Prop where
  unasked : ∀ id, s.calls id = none → s.health.probes id = none ∧
    ∀ request isReady, ¬ Arrived past id request isReady
  asked : ∀ id call, s.calls id = some call → ∃ request isReady,
    app.CallOk past s.health id request call ∧ OnlyArrival past id request isReady

variable {request : HealthRequest} {h h' : HealthState} {call : HealthCall}

theorem Arrived.cons {isReady : Bool} (harrived : Arrived past id request isReady) :
    Arrived (e :: past) id request isReady := by
  obtain ⟨s, hs, hready⟩ := harrived
  exact ⟨s, List.mem_cons_of_mem e hs, hready⟩

theorem arrived_cons {isReady : Bool} (hl : ∀ request, l ≠ .request id request) :
    Arrived ((s, l) :: past) id request isReady ↔ Arrived past id request isReady := by
  constructor
  · rintro ⟨s₁, hs₁, hready⟩
    rcases List.mem_cons.mp hs₁ with heq | hs₁
    · exact absurd (congrArg Prod.snd heq).symm (hl request)
    · exact ⟨s₁, hs₁, hready⟩
  · exact Arrived.cons

theorem OnlyArrival.cons {isReady : Bool} (hone : OnlyArrival past id request isReady)
    (hl : ∀ request, l ≠ .request id request) :
    OnlyArrival ((s, l) :: past) id request isReady :=
  fun request' isReady' harrived => hone request' isReady' ((arrived_cons hl).mp harrived)

theorem Decided.cons {answer : Except PyExc Bool} (hdecided : app.Decided past id request answer) :
    app.Decided (e :: past) id request answer := by
  unfold Decided at *
  split
  next authorize hauthorize => simpa [hauthorize] using hdecided
  next hauthorize =>
    simp only [hauthorize] at hdecided
    obtain ⟨s, hs⟩ := hdecided
    exact ⟨s, List.mem_cons_of_mem e hs⟩

theorem Admitted.cons (hadmitted : app.Admitted past id request) :
    app.Admitted (e :: past) id request :=
  ⟨hadmitted.1.cons, hadmitted.2.imp_right Decided.cons⟩

theorem Denied.cons {answer : Except PyExc Bool} (hdenied : app.Denied past id request answer) :
    app.Denied (e :: past) id request answer :=
  ⟨hdenied.1.cons, hdenied.2.1, hdenied.2.2.cons⟩

theorem CallOk.cons (hok : app.CallOk past h id request call)
    (hprobe : h'.probes id = h.probes id) : app.CallOk (e :: past) h' id request call := by
  cases hok with
  | early harrived hnone => exact .early harrived.cons (hprobe.trans hnone)
  | authorizing harrived hprivate hauthorize hnone =>
    exact .authorizing harrived.cons hprivate hauthorize (hprobe.trans hnone)
  | refused hdenied hnone => exact .refused hdenied.cons (hprobe.trans hnone)
  | raised exc hdenied hnone => exact .raised exc hdenied.cons (hprobe.trans hnone)
  | gathering g hadmitted hg => exact .gathering g hadmitted.cons (hprobe.trans hg)
  | detailed g hadmitted hg => exact .detailed g hadmitted.cons (hprobe.trans hg)
  | cancelled hadmitted hg => exact .cancelled hadmitted.cons (hprobe.trans hg)

/-- A step that moves no call. -/
theorem Answering.stay (hs : app.Answering past s) (hcalls : s'.calls = s.calls)
    (hprobes : s'.health.probes = s.health.probes) (hl : ∀ id request, l ≠ .request id request) :
    app.Answering ((s, l) :: past) s' where
  unasked id hnone := by
    rw [hcalls] at hnone
    rw [hprobes]
    obtain ⟨hprobe, hnew⟩ := hs.unasked id hnone
    exact ⟨hprobe, fun request isReady => (arrived_cons (hl id)).not.mpr (hnew request isReady)⟩
  asked id call hcall := by
    rw [hcalls] at hcall
    obtain ⟨request, isReady, hok, hone⟩ := hs.asked id call hcall
    exact ⟨request, isReady, hok.cons (by rw [hprobes]), hone.cons (hl id)⟩

/-- A step that moves one call. -/
theorem Answering.move {isReady : Bool} (hs : app.Answering past s)
    (hcalls : s'.calls = Function.update s.calls id (some call))
    (hprobes : ∀ id', id' ≠ id → s'.health.probes id' = s.health.probes id')
    (hl : ∀ id', id' ≠ id → ∀ request, l ≠ .request id' request)
    (hok : app.CallOk ((s, l) :: past) s'.health id request call)
    (hone : OnlyArrival ((s, l) :: past) id request isReady) :
    app.Answering ((s, l) :: past) s' where
  unasked id' hnone := by
    have hid : id' ≠ id := by
      rintro rfl
      simp [hcalls] at hnone
    rw [hcalls, Function.update_of_ne hid] at hnone
    obtain ⟨hprobe, hnew⟩ := hs.unasked id' hnone
    refine ⟨(hprobes id' hid).trans hprobe, fun request isReady => ?_⟩
    exact (arrived_cons (hl id' hid)).not.mpr (hnew request isReady)
  asked id' call' hcall := by
    by_cases hid : id' = id
    · subst hid
      rw [hcalls, Function.update_self, Option.some.injEq] at hcall
      exact ⟨request, isReady, hcall ▸ hok, hone⟩
    · rw [hcalls, Function.update_of_ne hid] at hcall
      obtain ⟨request', isReady', hok', hone'⟩ := hs.asked id' call' hcall
      exact ⟨request', isReady', hok'.cons (hprobes id' hid), hone'.cons (hl id' hid)⟩

theorem health_probe_some {config : HealthConfig} {l : HealthAct}
    (hstep : config.step h l = some h') (hid : l.id? = some id) : ∃ p, h'.probes id = some p := by
  rcases health_step_cases hstep with ⟨seconds, -, rfl, -⟩ | ⟨id', p, cache, hid', rfl, -⟩
  · contradiction
  · obtain rfl := Option.some.inj (hid.symm.trans hid')
    exact ⟨p, by simp [HealthState.setProbe]⟩

/-- An admitted call is as far as its probe. -/
theorem settled (hadmitted : app.Admitted past id request) {p : Probe}
    (hp : s.health.probes id = some p) (hraised : p ≠ .raised) :
    ∃ call, (app.settleCall s id).calls = Function.update s.calls id (some call) ∧
      app.CallOk past s.health id request call := by
  unfold settleCall
  rw [hp]
  cases p with
  | gathering g => exact ⟨_, rfl, .gathering g hadmitted hp⟩
  | returned g => exact ⟨_, rfl, .detailed g hadmitted hp⟩
  | raised => contradiction
  | cancelled => exact ⟨_, rfl, .cancelled hadmitted hp⟩

/-- An admitted call goes on with its probe. -/
theorem Answering.probe {isReady : Bool} (hs : app.Answering past s) {l' : HealthAct}
    (hid : l'.id? = some id) (hstep : app.health.step s.health l' = some h')
    (hl : ∀ id', id' ≠ id → ∀ request, l ≠ .request id' request)
    (hadmitted : app.Admitted ((s, l) :: past) id request)
    (hone : OnlyArrival ((s, l) :: past) id request isReady)
    (hraised : ∀ id, h'.probes id ≠ some .raised) :
    app.Answering ((s, l) :: past) (app.settleCall { s with health := h' } id) := by
  obtain ⟨p, hp⟩ := health_probe_some hstep hid
  have hnot : p ≠ .raised := by
    rintro rfl
    exact hraised id hp
  obtain ⟨call, hcalls, hok⟩ :=
    @settled app _ { s with health := h' } id request hadmitted p hp hnot
  refine hs.move hcalls (fun id' hne => ?_) hl ?_ hone
  · rw [settleCall_health]
    refine health_probes_of_ne hstep ?_
    rw [hid]
    exact fun heq => hne (Option.some.inj heq).symm
  · rw [settleCall_health]
    exact hok

theorem Answering.gather {isReady : Bool} (hs : app.Answering past s)
    (hgather : app.gather s id = some s')
    (hl : ∀ id', id' ≠ id → ∀ request, l ≠ .request id' request)
    (hadmitted : app.Admitted ((s, l) :: past) id request)
    (hone : OnlyArrival ((s, l) :: past) id request isReady)
    (hraised : ∀ id, s'.health.probes id ≠ some .raised) : app.Answering ((s, l) :: past) s' := by
  obtain ⟨h', hstep, rfl⟩ := gather_eq_some hgather
  rw [settleCall_health] at hraised
  exact hs.probe rfl hstep hl hadmitted hone hraised

/-- The call goes on as the authorizer has decided. -/
theorem Answering.decided {isReady : Bool} {answer : Except PyExc Bool} (hs : app.Answering past s)
    (hanswer : app.decided s id answer = some s')
    (hl : ∀ id', id' ≠ id → ∀ request, l ≠ .request id' request)
    (hdenied : app.Denied ((s, l) :: past) id request answer) (hnone : s.health.probes id = none)
    (hone : OnlyArrival ((s, l) :: past) id request isReady)
    (hraised : ∀ id, s'.health.probes id ≠ some .raised) : app.Answering ((s, l) :: past) s' := by
  unfold App.decided at hanswer
  split at hanswer
  next => exact hs.gather hanswer hl ⟨hdenied.1, .inr hdenied.2.2⟩ hone hraised
  next =>
    obtain rfl := Option.some.inj hanswer
    exact hs.move rfl (fun _ _ => rfl) hl (.refused hdenied hnone) hone
  next exc =>
    obtain rfl := Option.some.inj hanswer
    exact hs.move rfl (fun _ _ => rfl) hl (.raised exc hdenied hnone) hone

theorem Answering.step (hs : app.Answering past s) (hstep : app.step s l = some s')
    (hraised : ∀ id, s'.health.probes id ≠ some .raised) : app.Answering ((s, l) :: past) s' := by
  cases moves_of_step hstep with
  | lifespan e p hp =>
    refine hs.stay ?_ ?_ (by simp) <;> split <;> rfl
  | request id request hnew hanswer =>
    obtain ⟨hnone, hfirst⟩ := hs.unasked id hnew
    have hone : OnlyArrival ((s, .request id request) :: past) id request s.serviceReady := by
      rintro request' isReady ⟨s₁, hs₁, rfl⟩
      rcases List.mem_cons.mp hs₁ with heq | hs₁
      · obtain ⟨rfl, hl⟩ := Prod.mk.inj heq
        exact ⟨(AppAct.request.inj hl).2, rfl⟩
      · exact absurd ⟨s₁, hs₁, rfl⟩ (hfirst request' s₁.serviceReady)
    have hl : ∀ id', id' ≠ id → ∀ request', AppAct.request id request ≠ .request id' request' := by
      intro id' hne request' heq
      exact hne (AppAct.request.inj heq).1.symm
    unfold answer at hanswer
    split at hanswer
    next hready =>
      obtain rfl := Option.some.inj hanswer
      exact hs.move rfl (fun _ _ => rfl) hl (.early ⟨s, List.mem_cons_self, hready⟩ hnone) hone
    next hready =>
      have harrived : Arrived ((s, .request id request) :: past) id request true :=
        ⟨s, List.mem_cons_self, by simpa using hready⟩
      split at hanswer
      next hpublic => exact hs.gather hanswer hl ⟨harrived, .inl hpublic⟩ hone hraised
      next hpublic =>
        have hprivate : app.detailPublic = false := by simpa using hpublic
        split at hanswer
        next authorize hauthorize =>
          have hdecided : app.Decided ((s, .request id request) :: past) id request
              (.ok (authorize request)) := by simp [Decided, hauthorize]
          exact hs.decided hanswer hl ⟨harrived, hprivate, hdecided⟩ hnone hone hraised
        next hauthorize =>
          obtain rfl := Option.some.inj hanswer
          exact hs.move rfl (fun _ _ => rfl) hl
            (.authorizing harrived hprivate hauthorize hnone) hone
  | authorized id answer hcall hanswer =>
    obtain ⟨request, isReady, hok, hone⟩ := hs.asked id _ hcall
    cases hok with
    | authorizing harrived hprivate hauthorize hnone =>
      have hdecided : app.Decided ((s, .authorized id answer) :: past) id request answer := by
        simp only [Decided, hauthorize]
        exact ⟨s, List.mem_cons_self⟩
      exact hs.decided hanswer (by simp) ⟨harrived.cons, hprivate, hdecided⟩ hnone
        (hone.cons (by simp)) hraised
  | check l id h' hid hprobe hcheck =>
    obtain ⟨g, hg⟩ := health_gathering hcheck hid (hprobe id)
    rw [settleCall_health] at hraised
    cases hcall : s.calls id with
    | none =>
      rw [(hs.unasked id hcall).1] at hg
      contradiction
    | some call =>
      obtain ⟨request, isReady, hok, hone⟩ := hs.asked id call hcall
      have hadmitted : app.Admitted past id request := by
        cases hok with
        | gathering g hadmitted hg => exact hadmitted
        | detailed g hadmitted hg => exact hadmitted
        | cancelled hadmitted hg => exact hadmitted
        | _ => simp_all
      exact hs.probe hid hcheck (by simp) hadmitted.cons (hone.cons (by simp)) hraised
  | wait seconds h' hwait =>
    refine hs.stay rfl ?_ (by simp)
    rcases health_step_cases hwait with ⟨_, -, -, rfl⟩ | ⟨_, _, _, hid, -⟩
    · rfl
    · contradiction

theorem answering_init : app.Answering [] (app.init now) where
  unasked id _ := ⟨rfl, fun request isReady harrived => by simp [Arrived] at harrived⟩
  asked id call hcall := by contradiction

theorem answering_of_run (run : Run app.step (app.init now) past s) : app.Answering past s := by
  induction run with
  | start => exact answering_init
  | @next past s l s' run hstep ih =>
    have hconsistent := HealthConfig.consistent_of_run (run_health (run.next hstep))
    exact ih.step hstep fun id hraised => hconsistent.probes id _ hraised

theorem probing_suffix (newer older : AppHistory) :
    ∃ acts, app.probing (newer ++ older) = acts ++ app.probing older := by
  exact ⟨_, List.filterMap_append⟩

theorem evaluated_append {older : HealthConfig.HealthHistory} {g : Gathered}
    (heval : app.health.Evaluated older id g) (acts : HealthConfig.HealthHistory) :
    app.health.Evaluated (acts ++ older) id g := by
  induction acts with
  | nil => exact heval
  | cons e acts ih => exact ih.cons

theorem mem_probing {h : HealthState} {l' : HealthAct} (hmem : (h, l') ∈ app.probing past) :
    ∃ s l, (s, l) ∈ past ∧ s.health = h ∧ app.onHealth s l = some l' := by
  obtain ⟨⟨s, l⟩, he, hl⟩ := List.mem_filterMap.mp hmem
  obtain ⟨l'', hact, heq⟩ := Option.map_eq_some_iff.mp hl
  obtain ⟨rfl, rfl⟩ := Prod.mk.inj heq
  exact ⟨s, l, he, rfl, hact⟩

/-- The reported evaluation was complete when this call came to its probe: the other call had
joined it before, by less than `cacheTtl`. -/
def Shared (app : App) (past : AppHistory) (prober id : ℕ) (g : Gathered) : Prop :=
  ∃ newer probed l older joined, past = newer ++ (probed, l) :: older ∧
    app.onHealth probed l = some (.probe id) ∧ (joined, .health (.join prober)) ∈ older ∧
    app.health.Evaluated (app.probing older) prober g ∧
    probed.health.now - joined.health.now < app.health.cacheTtl

/-- What a probe has returned is an evaluation of its own or a young shared one. -/
theorem evaluation_of_returned (run : Run app.step (app.init now) past s) {g : Gathered}
    (hg : s.health.probes id = some (.returned g)) :
    ∃ prober, app.health.Evaluated (app.probing past) prober g ∧
      (prober = id ∨ app.Shared past prober id g) := by
  have hconsistent := HealthConfig.consistent_of_run (run_health run)
  rcases hconsistent.probes id _ hg with ⟨h, time, hmem, hcache, hyoung⟩ | ⟨-, heval⟩
  · obtain ⟨probed, l, hprobed, rfl, hact⟩ := mem_probing hmem
    obtain ⟨newer, older, rfl⟩ := List.append_of_mem hprobed
    have hbefore := HealthConfig.consistent_of_run (run_health run.split_cons.1)
    obtain ⟨joined, prober, hjoined, rfl, heval⟩ := hbefore.cache time g hcache
    obtain ⟨s₁, l₁, hs₁, rfl, hact₁⟩ := mem_probing hjoined
    obtain rfl : l₁ = .health (.join prober) := by
      rcases onHealth_cases hact₁ with hl | ⟨id', hprobe⟩
      · exact hl
      · contradiction
    obtain ⟨acts, hacts⟩ := @probing_suffix app (newer ++ [(probed, l)]) older
    rw [List.append_assoc, List.singleton_append] at hacts
    exact ⟨prober, hacts ▸ evaluated_append heval acts,
      .inr ⟨newer, probed, l, older, s₁, rfl, hact, hs₁, heval, hyoung⟩⟩
  · exact ⟨id, heval, .inl rfl⟩

/-- A call that came before the app was ready is told that it is initializing, one that the
authorizer does not let through that the service is up, and for neither a check is run. Every
other answer reports one whole evaluation of the checks, in their order and with the aggregate and
the code that belong to it: the evaluation of its own probe, or one that another probe had
completed when this one began, less than `cacheTtl` before. -/
theorem health_answers (run : Run app.step (app.init now) past s) {response : JSONResponse}
    (hcall : s.calls id = some (.responded response)) :
    ∃ request isReady, Arrived past id request isReady ∧ OnlyArrival past id request isReady ∧
      ((isReady = false ∧ response = initializing ∧ s.health.probes id = none) ∨
      (isReady = true ∧ app.detailPublic = false ∧ app.Decided past id request (.ok false) ∧
        response = shallow ∧ s.health.probes id = none) ∨
      (isReady = true ∧ (app.detailPublic = true ∨ app.Decided past id request (.ok true)) ∧
        ∃ g prober, response = app.detailResponse g ∧
          app.health.Evaluated (app.probing past) prober g ∧
          (prober = id ∨ app.Shared past prober id g))) := by
  obtain ⟨request, isReady, hok, hone⟩ := (answering_of_run run).asked id _ hcall
  cases hok with
  | early harrived hnone =>
    obtain ⟨-, rfl⟩ := hone _ _ harrived
    exact ⟨request, false, harrived, hone, .inl ⟨rfl, rfl, hnone⟩⟩
  | refused hdenied hnone =>
    obtain ⟨harrived, hprivate, hdecided⟩ := hdenied
    obtain ⟨-, rfl⟩ := hone _ _ harrived
    exact ⟨request, true, harrived, hone, .inr (.inl ⟨rfl, hprivate, hdecided, rfl, hnone⟩)⟩
  | detailed g hadmitted hg =>
    obtain ⟨harrived, hadmits⟩ := hadmitted
    obtain ⟨-, rfl⟩ := hone _ _ harrived
    obtain ⟨prober, heval, hshared⟩ := evaluation_of_returned run hg
    exact ⟨request, true, harrived, hone,
      .inr (.inr ⟨rfl, hadmits, g, prober, rfl, heval, hshared⟩)⟩

/-- A request that presents the private API secret. -/
def privateRequest : HealthRequest := ⟨[(internalTokenHeader, "private-secret")]⟩

/-- The service starts, and a caller with the detail credential waits for both checks, another one
with the private API secret does not. -/
def ordersAsked : List AppAct :=
  ordersStarts ++ [.request 0 ⟨[(internalTokenHeader, "health-secret")]⟩, .request 1 privateRequest,
    .health (.begin 0 0), .health (.begin 0 1), .health (.wait (1 / 2)),
    .health (.finish 0 1 .timedOut),
    .health (.finish 0 0 (.returned ⟨"db", .ok, none, none, none⟩)), .health (.join 0)]

/-- The status and the code that a call was told with the detail. -/
def reported (s : AppState) (id : ℕ) : Option (HealthStatus × ℕ) :=
  match s.calls id with
  | some (.responded ⟨.detailed status _ _ _ _ _, code⟩) => some (status, code)
  | _ => none

/-- The code that a call was answered with. -/
def answered (s : AppState) (id : ℕ) : Option ℕ :=
  match s.calls id with
  | some (.responded response) => some response.statusCode
  | _ => none

theorem answered_eq_some {code : ℕ} (h : answered s id = some code) :
    ∃ response, s.calls id = some (.responded response) ∧ response.statusCode = code := by
  unfold answered at h
  split at h
  next response hcall => exact ⟨response, hcall, Option.some.inj h⟩
  next => contradiction

theorem orders_asked : ∃ past s response, Run ordersApp.step (ordersApp.init 0) past s ∧
    past.map Prod.snd = ordersAsked.reverse ∧ s.calls 0 = some (.responded response) ∧
    reported s 0 = some (.fail, 503) ∧ answered s 1 = some 200 := by
  have heval : (ordersAsked.foldlM ordersApp.step (ordersApp.init 0)).any fun s =>
      reported s 0 = some (.fail, 503) && answered s 1 = some 200 := by decide +kernel
  obtain ⟨s, hs, hboth⟩ := (Option.any_eq_true _ _).mp heval
  obtain ⟨hreported, hanswered⟩ := Bool.and_eq_true_iff.mp hboth
  have hreported := of_decide_eq_true hreported
  obtain ⟨past, run, hlabels⟩ := Run.of_foldlM hs
  have hcalls := hreported
  unfold reported at hcalls
  split at hcalls
  next hcall =>
    exact ⟨past, s, _, run, hlabels, hcall, hreported, of_decide_eq_true hanswered⟩
  next => contradiction

theorem health_answers_orders : ∃ past s request isReady,
    Run ordersApp.step (ordersApp.init 0) past s ∧ Arrived past 0 request isReady := by
  obtain ⟨past, s, response, run, -, hcall, -⟩ := orders_asked
  obtain ⟨request, isReady, harrived, -, -⟩ := health_answers run hcall
  exact ⟨past, s, request, isReady, run, harrived⟩

/-- What the SDK documents of its authorizer: without a credential it refuses every request, and
with one it compares the token header. -/
structure ComparesToken (app : App) : Prop where
  unset : ∀ request, app.makeInternalTokenAuthorizer none request = false
  set : ∀ secret request, app.makeInternalTokenAuthorizer (some secret) request = true ↔
    request.headers.lookup internalTokenHeader = some secret

theorem checkCredentialNoReuse_eq_ok {settings : OperationalSettings} :
    checkCredentialNoReuse settings = .ok () ↔ ∀ secret, settings.privateApiSecret = some secret →
      setCredential settings.healthDetailCredential ≠ some secret ∧
      setCredential settings.metricsScrapeCredential ≠ some secret := by
  unfold checkCredentialNoReuse
  cases settings.privateApiSecret with
  | none => simp
  | some priVal =>
    simp only [Option.some.injEq]
    split
    next hhealth => simp [hhealth]
    next hhealth =>
      split
      next hmetrics => simp [hmetrics]
      next hmetrics => simp [hhealth, hmetrics]

theorem noReuse_of_accepted (h : app.validateConfigHealth = .ok ()) :
    checkCredentialNoReuse app.settings = .ok () := by
  unfold validateConfigHealth at h
  obtain ⟨_, -, hcheck⟩ := bind_eq_ok.mp h
  cases hreuse : checkCredentialNoReuse app.settings with
  | ok _ => rfl
  | error error =>
    rw [hreuse] at hcheck
    contradiction

theorem defaultAuthorizer_iff (hsdk : app.ComparesToken) :
    app.defaultAuthorizer request = true ↔
      ∃ cred, setCredential app.settings.healthDetailCredential = some cred ∧
        request.headers.lookup internalTokenHeader = some cred := by
  unfold defaultAuthorizer
  cases setCredential app.settings.healthDetailCredential with
  | none => simp [hsdk.unset]
  | some cred => simp [hsdk.set]

/-- Behind the default authorizer a ready app shows the detail to exactly the callers that present
its detail credential. The private API secret is never this credential: a caller that presents it
is told what anyone is told, and no check is run for it. -/
theorem detail_needs_its_credential (hsdk : app.ComparesToken)
    (hdefault : app.detailAuthorizer = false) (hprivate : app.detailPublic = false)
    (run : Run app.step (app.init now) past s) {response : JSONResponse}
    (hcall : s.calls id = some (.responded response)) (harrived : Arrived past id request true) :
    ((∃ g, response = app.detailResponse g) ↔
      ∃ cred, setCredential app.settings.healthDetailCredential = some cred ∧
        request.headers.lookup internalTokenHeader = some cred) ∧
    ∀ secret, app.settings.privateApiSecret = some secret →
      request.headers.lookup internalTokenHeader = some secret →
      response = shallow ∧ s.health.probes id = none := by
  have hdecided : ∀ answer, app.Decided past id request answer ↔
      .ok (app.defaultAuthorizer request) = answer := by
    intro answer
    simp [Decided, authorize, hdefault]
  obtain ⟨request', isReady, hok, hone⟩ := (answering_of_run run).asked id _ hcall
  obtain ⟨rfl, rfl⟩ := hone _ _ harrived
  -- the app was ready when the call came, so its configuration had been accepted
  obtain ⟨s₁, hs₁, hready⟩ := harrived
  obtain ⟨newer, older, rfl⟩ := List.append_of_mem hs₁
  have haccepted : app.validateConfigHealth = .ok () := by
    have hgated := gated_of_run run.split_cons.1
    have hmem := hgated.ready_iff.mp hready
    cases haccepted : app.validateConfigHealth with
    | ok _ => rfl
    | error exc =>
      have htrace := hgated.trace
      rw [lifespan_of_rejected haccepted] at htrace
      exact absurd hmem (AppLifecycle.trace_ended htrace)
  have hreuse := checkCredentialNoReuse_eq_ok.mp (noReuse_of_accepted haccepted)
  have hown : ∀ secret, app.settings.privateApiSecret = some secret →
      request.headers.lookup internalTokenHeader = some secret →
      app.defaultAuthorizer request = false := by
    intro secret hsecret hpresented
    rw [Bool.eq_false_iff, ne_eq, defaultAuthorizer_iff hsdk]
    rintro ⟨cred, hcred, hlookup⟩
    obtain rfl := Option.some.inj (hlookup.symm.trans hpresented)
    exact (hreuse cred hsecret).1 hcred
  rw [← defaultAuthorizer_iff hsdk]
  cases hok with
  | early hearly hnone =>
    have hfalse := (hone _ _ hearly).2
    contradiction
  | refused hdenied hnone =>
    have hfalse := Except.ok.inj ((hdecided _).mp hdenied.2.2)
    refine ⟨?_, fun secret _ _ => ⟨rfl, hnone⟩⟩
    rw [hfalse]
    simp [shallow, detailResponse]
  | detailed g hadmitted hg =>
    obtain ⟨-, hpublic | hadmits⟩ := hadmitted
    · rw [hprivate] at hpublic
      contradiction
    · have htrue := Except.ok.inj ((hdecided _).mp hadmits)
      refine ⟨iff_of_true ⟨g, rfl⟩ htrue, fun secret hsecret hpresented => ?_⟩
      rw [hown secret hsecret hpresented] at htrue
      contradiction

theorem detail_needs_its_credential_orders :
    ∃ past s request, Run ordersApp.step (ordersApp.init 0) past s ∧ Arrived past 0 request true ∧
      request.headers.lookup internalTokenHeader = some "health-secret" ∧
      Arrived past 1 privateRequest true ∧ s.calls 1 = some (.responded shallow) ∧
      s.health.probes 1 = none := by
  obtain ⟨past, s, response, run, hlabels, hcall, hreported, hanswered⟩ := orders_asked
  have hsdk : ordersApp.ComparesToken := by
    constructor
    · intro request
      rfl
    · intro secret request
      simp [ordersApp]
  -- the caller with the private API secret came when the app was ready
  obtain ⟨response₁, hcall₁, hcode⟩ := answered_eq_some hanswered
  obtain ⟨request₁, isReady₁, hok₁, hone₁⟩ := (answering_of_run run).asked 1 _ hcall₁
  have hlabel : AppAct.request 1 privateRequest ∈ past.map Prod.snd := by
    rw [hlabels]
    simp [ordersAsked]
  obtain ⟨⟨s₁, l₁⟩, hmem, rfl⟩ := List.mem_map.mp hlabel
  obtain ⟨rfl, -⟩ := hone₁ privateRequest s₁.serviceReady ⟨s₁, hmem, rfl⟩
  have harrived₁ : Arrived past 1 privateRequest true := by
    cases hok₁ with
    | early => contradiction
    | refused hdenied => exact hdenied.1
    | detailed g hadmitted => exact hadmitted.1
  obtain ⟨rfl, hnone⟩ := (detail_needs_its_credential hsdk rfl rfl run hcall₁ harrived₁).2
    "private-secret" rfl rfl
  obtain ⟨request, isReady, hok, -⟩ := (answering_of_run run).asked 0 _ hcall
  simp only [reported, hcall] at hreported
  cases hok with
  | early => contradiction
  | refused => contradiction
  | detailed g hadmitted hg =>
    obtain ⟨cred, hcred, hlookup⟩ :=
      (detail_needs_its_credential hsdk rfl rfl run hcall hadmitted.1).1.mp ⟨g, rfl⟩
    obtain rfl := Option.some.inj hcred
    exact ⟨past, s, request, run, hadmitted.1, hlookup, harrived₁, hcall₁, hnone⟩

end App
end FastapiM8
