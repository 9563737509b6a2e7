import HarnessSdk.ChatQuit

/-!
# What a call of the controller returns

A dispatch that has waited returns no event that ends the interactive mode, and an observation returns an outcome only
when it has read that the run is over.
-/

namespace HarnessSdk
namespace Chat

open Transition

/-- The events with which a run is settled. -/
def ChatEvent.isOutcome : ChatEvent → Bool
  | .completed _ | .failed _ | .cancelled | .protocolError _ => true
  | _ => false

/-- An observation has settled the run if it returns its outcome. -/
def Settled (events : List ChatEvent) : Prop := ∃ e rest, events = e :: rest ∧ e.isOutcome

/-- The events that end the interactive mode. -/
def ChatEvent.quits : ChatEvent → Bool
  | .failed _ | .protocolError _ | .timeout .. | .quitRequested _ => true
  | _ => false

def Point.isObserving : Point → Bool
  | .reading .. | .sleeping _ => true
  | _ => false

/-- A call that dispatches waits for something else than an observation, and ends without an event that quits. -/
def Call.Dispatching : Call → Prop
  | .at point => point.isObserving = false
  | .returned events => ∀ e ∈ events, e.quits = false
  | .raised _ => True

/-- An observation that has not settled the run. -/
def Call.Observing : Call → Prop
  | .at point => point.isObserving
  | .returned events => ¬Settled events
  | .raised _ => True

/-- The requests of a session: a dispatch, also of a text. -/
def Request.isDispatch : Request → Bool
  | .dispatch _ | .dispatchText _ => true
  | _ => false

namespace ChatLoop

variable {cfg : ChatConfig} {n : ℕ} {s u : ChatLoop} {α : Type} {P : Call → Prop} {m : Prog (List ChatEvent)}

/-- What a stretch leads to satisfies `P`. -/
def Leads (P : Call → Prop) (m : Prog (List ChatEvent)) (s : ChatLoop) : Prop := P (callOf (m s))

theorem leads_get {k : ChatLoop → Prog (List ChatEvent)} (h : Leads P (k s) s) : Leads P (Run.get >>= k) s := h

theorem leads_modify {f : ChatLoop → ChatLoop} {k : Unit → Prog (List ChatEvent)} (h : Leads P (k ()) (f s)) :
    Leads P (Run.modify f >>= k) s := h

theorem leads_pure {events : List ChatEvent} (h : P (.returned events)) : Leads P (pure events) s := h

theorem leads_raise {e : ChatExn} (h : P (.raised e)) : Leads P (Run.raise e) s := h

theorem leads_suspend {point : Point} (h : P (.at point)) : Leads P (Run.suspend point) s := h

theorem Leads.ite {p : Prop} [Decidable p] {k : Prog (List ChatEvent)} (hm : p → Leads P m s) (hk : ¬p → Leads P k s) :
    Leads P (if p then m else k) s := by
  split
  · exact hm ‹_›
  · exact hk ‹_›

theorem leads_bind {m : Prog α} {k : α → Prog (List ChatEvent)} (hraise : ∀ e, P (.raised e))
    (hpark : ∀ p u, m s = .park p u → P (.at p)) (hk : ∀ a u, m s = .ok a u → Leads P (k a) u) : Leads P (m >>= k) s := by
  unfold Leads
  rw [Run.bind_apply]
  cases hm : m s with
  | ok a u => exact hk a u hm
  | raise e u => exact hraise e
  | park p u => exact hpark p u hm

/-! Dispatches. -/

theorem dispatching_one {e : ChatEvent} (h : e.quits = false) : (Call.returned [e]).Dispatching := by
  intro e' he
  rw [List.mem_singleton.mp he]
  exact h

theorem leads_cancelPending {runId startId : String} {cancelId : Option String} :
    Leads Call.Dispatching (cancelPending runId startId cancelId) s := by
  cases cancelId with
  | none => exact leads_raise trivial
  | some cancelId => exact leads_pure (dispatching_one rfl)

theorem leads_waitForTask {runId startId : String} : Leads Call.Dispatching (waitForTask runId startId) s := by
  refine leads_get (Leads.ite (fun _ => leads_cancelPending) fun _ => ?_)
  split
  · exact leads_raise trivial
  · exact leads_suspend rfl

theorem createCancelTask_parks {ids : FactoryIds} {runId : String} {point : Point} :
    createCancelTask cfg n ids runId s ≠ .park point u := by
  intro h
  unfold createCancelTask at h
  rw [Run.get_bind] at h
  by_cases htask : s.controller.cancelTask.isSome
  · rw [if_pos htask] at h
    exact nomatch h
  · rw [if_neg htask,Run.modify_bind] at h
    cases hrequest : CancelRequest.make runId ids.cancel with
    | none =>
      rw [hrequest] at h
      exact nomatch h
    | some request =>
      rw [hrequest] at h
      exact nomatch h

theorem leads_cancelLocked {ids : FactoryIds} : Leads Call.Dispatching (cancelLocked cfg n ids) s := by
  apply leads_get
  split
  · exact leads_pure (dispatching_one rfl)
  · apply leads_modify
    apply leads_bind fun _ => trivial
    · intro point u hu
      exact absurd hu createCancelTask_parks
    · intro _ u _
      exact leads_waitForTask

theorem leads_submitLocked {ids : FactoryIds} {text : String} : Leads Call.Dispatching (submitLocked n ids text) s := by
  refine leads_get (Leads.ite (fun _ => leads_pure (dispatching_one rfl)) fun _ => ?_)
  split
  · exact leads_raise trivial
  · exact leads_modify (leads_suspend rfl)

theorem leads_locked {ids : FactoryIds} {next : LockNext} : Leads Call.Dispatching (locked cfg n ids next) s := by
  cases next with
  | submit text => exact leads_submitLocked
  | cancel => exact leads_cancelLocked
  | expired task runId startId cancelId => exact leads_modify leads_cancelPending
  | accepted task runId startId cancelId => exact leads_modify (leads_pure (dispatching_one rfl))

/-- A dispatch that goes on. -/
theorem leads_resume {point : Point} {signal : Signal} (h : resumeCall cfg s n point signal = some m)
    (hpoint : point.isObserving = false) : Leads Call.Dispatching m s := by
  cases point with
  | reading | sleeping => cases hpoint
  | locking next =>
    cases signal with
    | acquired ids =>
      simp only [resumeCall,Option.ite_none_right_eq_some] at h
      obtain rfl := Option.some.inj h.2
      exact leads_locked
    | cancelled =>
      obtain rfl := Option.some.inj h
      exact leads_raise trivial
    | ready | snapshots | timeout | raised => cases h
  | starting runId commandId =>
    cases signal with
    | ready =>
      simp only [resumeCall,Option.ite_none_right_eq_some] at h
      obtain rfl := Option.some.inj h.2
      exact leads_modify (leads_pure (by simp [Call.Dispatching,ChatEvent.quits]))
    | raised | cancelled =>
      obtain rfl := Option.some.inj h
      exact leads_modify (leads_raise trivial)
    | acquired | snapshots | timeout => cases h
  | cancelling task runId startId cancelId =>
    cases signal with
    | ready =>
      obtain ⟨result,_,rfl⟩ := Option.map_eq_some_iff.mp h
      cases result with
      | done | timeout => exact leads_suspend rfl
      | raised | cancelled => exact leads_raise trivial
    | timeout =>
      obtain rfl := Option.some.inj h
      exact leads_suspend rfl
    | cancelled =>
      obtain rfl := Option.some.inj h
      exact leads_raise trivial
    | acquired | snapshots | raised => cases h

theorem setSession_quits (c : ChatController) (name : String) : (c.setSession name).1.quits = false := by
  unfold ChatController.setSession
  split
  · rfl
  · split <;> rfl

theorem leads_dispatch {action : ChatAction} (h : action ≠ .quit) : Leads Call.Dispatching (dispatch action) s := by
  cases action with
  | submit text =>
    refine Leads.ite (fun _ => leads_pure ?_) fun _ => leads_suspend rfl
    simp [Call.Dispatching]
  | cancel => exact leads_suspend rfl
  | quit => exact absurd rfl h
  | clear | help => exact leads_pure (dispatching_one rfl)
  | status => exact leads_get (leads_pure (dispatching_one rfl))
  | setSession name => exact leads_get (leads_modify (leads_pure (dispatching_one (setSession_quits _ name))))
  | newSession =>
    refine leads_get (Leads.ite (fun _ => leads_pure (dispatching_one rfl)) fun _ => leads_modify (leads_pure ?_))
    simp [Call.Dispatching,ChatEvent.quits]

theorem leads_dispatchText {text : String} (h : (Request.dispatchText text).isQuit = false) :
    Leads Call.Dispatching (dispatchText text) s := by
  simp only [Request.isQuit,Bool.or_eq_false_iff,decide_eq_false_iff_not] at h
  refine Leads.ite (fun _ => leads_pure (by simp [Call.Dispatching])) fun _ => Leads.ite (fun _ => leads_dispatch (by simp)) fun _ =>
    Leads.ite (fun _ => leads_dispatch (by simp)) fun _ => ?_
  split
  · exact leads_dispatch (by simp)
  · exact leads_dispatch (by simp)
  · exact leads_dispatch (by simp)
  · exact leads_dispatch (by simp)
  · rename_i hcommand hargument
    rcases quit_text hcommand hargument with htext | htext
    · exact absurd htext h.1
    · exact absurd htext h.2
  · exact leads_dispatch (by simp)
  · exact leads_get (leads_pure (dispatching_one rfl))
  · exact leads_dispatch (by simp)
  · exact leads_pure (dispatching_one rfl)

/-- A dispatch that begins: only a `Quit` that finds no run returns an event that quits. -/
theorem leads_begin {request : Request} (h : request.isDispatch) : Leads Call.Dispatching (beginCall request) s ∨
    (s.controller.runId = none ∧ callOf (beginCall request s) = .returned [.quitRequested false]) := by
  cases hquit : request.isQuit with
  | true =>
    rw [beginCall_quit hquit]
    by_cases hidle : s.controller.runId = none
    · right
      have hstate : s.controller.state = .idle := by simp [ChatController.state,hidle]
      refine ⟨hidle,?_⟩
      simp [dispatch,hstate,callOf]
    · left
      have hstate : s.controller.state ≠ .idle := by
        unfold ChatController.state
        rw [if_neg (by simpa using hidle)]
        split <;> simp
      refine leads_get (Leads.ite (fun heq => absurd heq hstate) fun _ => leads_modify (leads_suspend rfl))
  | false =>
    left
    cases request with
    | dispatch action =>
      apply leads_dispatch
      rintro rfl
      cases hquit
    | dispatchText text => exact leads_dispatchText hquit
    | observeOnce | observeUntil => cases h

/-! Observations. -/

theorem observing_one {e : ChatEvent} (h : e.isOutcome = false) : (Call.returned [e]).Observing := by
  rintro ⟨e',rest,heq,houtcome⟩
  obtain ⟨rfl,_⟩ := List.cons.inj heq
  rw [h] at houtcome
  exact nomatch houtcome

theorem leads_observeOnce {polling : Option Polling} : Leads Call.Observing (observeOnce polling) s := by
  apply leads_get
  split
  · exact leads_raise trivial
  · refine Leads.ite (fun _ => leads_modify ?_) fun _ =>
      Leads.ite (fun _ => leads_pure (observing_one rfl)) fun _ => leads_suspend rfl
    split
    · exact leads_raise trivial
    · exact leads_pure (observing_one rfl)

theorem leads_polled {polling : Polling} {events : List ChatEvent} (h : ¬Settled events) :
    Leads Call.Observing (polled polling events) s := by
  unfold polled
  split
  · exact leads_suspend rfl
  · exact leads_pure h

/-- What follows a program that leads to an observation. -/
theorem leads_then_polled {polling : Polling} (h : Leads Call.Observing m s) :
    Leads Call.Observing (m >>= fun events => polled polling events) s := by
  apply leads_bind fun _ => trivial
  · intro point u hu
    rw [Leads,hu] at h
    exact h
  · intro events u hu
    rw [Leads,hu] at h
    exact leads_polled h

theorem leads_pollLoop {polling : Polling} : Leads Call.Observing (pollLoop polling) s :=
  leads_get (Leads.ite (fun _ => leads_then_polled leads_observeOnce) fun _ => leads_pure (observing_one rfl))

theorem leads_observeUntil {deadlineSeconds initialDelay maximumDelay : ℕ} :
    Leads Call.Observing (observeUntil deadlineSeconds initialDelay maximumDelay) s := by
  apply leads_get
  split
  · exact leads_raise trivial
  · exact leads_pollLoop

/-- An observation that goes on does not settle the run, unless it has read that the run is over. -/
theorem leads_observation {point : Point} {signal : Signal} (h : resumeCall cfg s n point signal = some m)
    (hpoint : point.isObserving) : Leads Call.Observing m s ∨ ∃ start cancel terminal events, signal = .snapshots start cancel ∧
      reconcile start (cancel.or s.controller.cancelSnapshot) = some terminal ∧ callOf (m s) = .returned events := by
  cases point with
  | locking | starting | cancelling => cases hpoint
  | reading read runId startId cancelId polling =>
    cases signal with
    | snapshots start cancel =>
      simp only [resumeCall,Option.ite_none_right_eq_some] at h
      obtain rfl := Option.some.inj h.2
      cases hreconcile : reconcile start (cancel.or s.controller.cancelSnapshot) with
      | none =>
        left
        have heq := observed_eq s read runId startId start cancel
        rw [hreconcile] at heq
        have hobserved : Leads Call.Observing (observed read runId startId start cancel) s := by
          rw [Leads,heq]
          exact observing_one rfl
        cases polling with
        | none => exact hobserved
        | some polling => exact leads_then_polled hobserved
      | some terminal =>
        right
        exact ⟨start,cancel,terminal,_,rfl,hreconcile,congrArg callOf (snapshotsRead_settles hreconcile)⟩
    | raised | cancelled =>
      obtain rfl := Option.some.inj h
      exact .inl (leads_raise trivial)
    | acquired | ready | timeout => cases h
  | sleeping polling =>
    left
    cases signal with
    | ready =>
      obtain rfl := Option.some.inj h
      exact leads_pollLoop
    | cancelled =>
      obtain rfl := Option.some.inj h
      exact leads_raise trivial
    | acquired | snapshots | timeout | raised => cases h

/-! Calls and the active run after a stretch. -/

theorem calls_settle (hcalls : (m s).state.calls = s.calls) (k : ℕ) :
    (settleCall n m s).calls k = if k = n then some (callOf (m s)) else s.calls k := by
  rw [settleCall_eq,conclude_calls,hcalls]

theorem calls_begin (request : Request) (k : ℕ) :
    (settleCall n (beginCall request) s).calls k = if k = n then some (callOf (beginCall request s)) else s.calls k := by
  have hquiet : Quiet s (beginCall request s).state := .moves calm_beginCall.moves
  exact calls_settle hquiet.calls k

theorem calls_resume {point : Point} {signal : Signal} (hm : resumeCall cfg s n point signal = some m) (k : ℕ) :
    (settleCall n m s).calls k = if k = n then some (callOf (m s)) else s.calls k :=
  calls_settle (stretch_resume hm).calls k

/-- What a step does with the calls: one begins, one goes on, or all stay as they are. -/
inductive CallStep (cfg : ChatConfig) (s u : ChatLoop) : LoopAction → Prop
  | begins (n : ℕ) (request : Request) (hnone : s.calls n = none)
      (hcalls : ∀ k, u.calls k = if k = n then some (callOf (beginCall request s)) else s.calls k) :
      CallStep cfg s u (.begin n request)
  | resumes (n : ℕ) (signal : Signal) (point : Point) (m : Prog (List ChatEvent)) (hpoint : s.calls n = some (.at point))
      (hm : resumeCall cfg s n point signal = some m)
      (hcalls : ∀ k, u.calls k = if k = n then some (callOf (m s)) else s.calls k) : CallStep cfg s u (.resume n signal)
  | stays {a : LoopAction} (hcalls : u.calls = s.calls) (hresume : ∀ n signal, a ≠ .resume n signal) : CallStep cfg s u a

theorem call_cases {a : LoopAction} (h : step cfg s a = some u) : CallStep cfg s u a := by
  cases a with
  | begin n request =>
    simp only [step,Option.ite_none_right_eq_some,Option.some.injEq] at h
    obtain ⟨hnone,rfl⟩ := h
    exact .begins n request hnone (calls_begin request)
  | resume n signal =>
    simp only [step] at h
    split at h
    · rename_i point hpoint
      obtain ⟨m,hm,rfl⟩ := Option.map_eq_some_iff.mp h
      exact .resumes n signal point m hpoint hm (calls_resume hm)
    · cases h
  | accept n =>
    simp only [step,Option.ite_none_right_eq_some,Option.some.injEq] at h
    obtain ⟨_,rfl⟩ := h
    exact .stays rfl fun _ _ heq => by cases heq
  | invoke k =>
    obtain ⟨t,_,h⟩ := Option.bind_eq_some_iff.mp h
    simp only [Option.ite_none_right_eq_some] at h
    obtain rfl := Option.some.inj h.2
    exact .stays rfl fun _ _ heq => by cases heq
  | finish k result =>
    obtain ⟨t,_,h⟩ := Option.bind_eq_some_iff.mp h
    simp only [Option.ite_none_right_eq_some] at h
    obtain rfl := Option.some.inj h.2
    exact .stays rfl fun _ _ heq => by cases heq
  | callback k =>
    obtain ⟨t,_,h⟩ := Option.bind_eq_some_iff.mp h
    split at h
    · rename_i result _
      obtain rfl := Option.some.inj h
      refine .stays ?_ fun _ _ heq => by cases heq
      unfold superviseCancelTask
      split
      · exact (same_acceptCancel k).calls
      · rfl
    · cases h
  | tick now =>
    simp only [step,Option.ite_none_right_eq_some,Option.some.injEq] at h
    obtain ⟨_,rfl⟩ := h
    exact .stays rfl fun _ _ heq => by cases heq

/-- A run stays active, unless a reading observation settles it. -/
theorem active_step {a : LoopAction} (h : step cfg s a = some u) (hactive : s.active ≠ none) : u.active ≠ none ∨
    ∃ n signal read runId startId cancelId polling events, a = .resume n signal ∧
      s.calls n = some (.at (.reading read runId startId cancelId polling)) ∧ u.calls n = some (.returned events) := by
  cases quit_cases h with
  | plain hplain =>
    left
    rw [hplain.active]
    exact hactive
  | idle n request | noted n request => exact .inl hactive
  | recorded n runId commandId => exact .inl nofun
  | settled n read runId startId cancelId polling start cancel terminal hcall =>
    exact .inr ⟨n,_,read,runId,startId,cancelId,polling,_,rfl,hcall,by rw [conclude_calls,if_pos rfl]⟩

end ChatLoop

end Chat
end HarnessSdk
