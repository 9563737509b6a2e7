import HarnessSdk.ChatController

/-!
# Steps of the chat controller

What a call does between two suspensions is one of a few stretches. Most of them leave the identity of the run and of
its cancellation as they are.
-/

namespace HarnessSdk
namespace Chat

open Run Relation

/-- The task that a dispatch to cancel waits for, and the identity that it will return. -/
structure Held where
  task : ℕ
  runId : String
  startId : String
  cancelId : Option String
  deriving DecidableEq

/-- A dispatch to cancel has taken the lock. -/
def Point.held : Point → Option Held
  | .cancelling task runId startId cancelId | .locking (.expired task runId startId cancelId)
  | .locking (.accepted task runId startId cancelId) => some { task, runId, startId, cancelId }
  | _ => none

def Point.isStarting : Point → Bool
  | .starting .. => true
  | _ => false

def Point.isReading : Point → Bool
  | .reading .. => true
  | _ => false

/-- A call that has not begun, or waits without having taken the lock. -/
def Idle : Option Call → Prop
  | none => True
  | some (.at point) => point.held = none ∧ point.isStarting = false
  | _ => False

/-- The run id, the start command id and the cancel command id that an event carries. -/
def ChatEvent.identity : ChatEvent → Option (String × String × Option String)
  | .pending runId commandId cancelId => some (runId,commandId,cancelId)
  | .cancelPending runId commandId cancelId => some (runId,commandId,some cancelId)
  | _ => none

/-- A call is over and has shown no identity. -/
def Bare : Call → Prop
  | .at _ => False
  | .returned events => ∀ e ∈ events, e.identity = none
  | .raised _ => True

namespace ChatLoop

variable {cfg : ChatConfig} {n : ℕ} {s u v : ChatLoop} {α : Type}

/-- The controller is changed, but neither the run nor its cancellation. -/
structure Quiet (s u : ChatLoop) : Prop where
  rest : u = { s with controller := u.controller }
  runId : u.controller.runId = s.controller.runId
  startCommandId : u.controller.startCommandId = s.controller.startCommandId
  cancelCommandId : u.controller.cancelCommandId = s.controller.cancelCommandId
  cancelTask : u.controller.cancelTask = s.controller.cancelTask
  reported : u.controller.cancelPendingReported → s.controller.cancelPendingReported ∨ s.controller.cancelTask.isSome

theorem Quiet.refl (s : ChatLoop) : Quiet s s := ⟨rfl,rfl,rfl,rfl,rfl,.inl⟩

theorem Quiet.trans (h : Quiet s u) (hh : Quiet u v) : Quiet s v := by
  refine ⟨?_,hh.runId.trans h.runId,hh.startCommandId.trans h.startCommandId,
    hh.cancelCommandId.trans h.cancelCommandId,hh.cancelTask.trans h.cancelTask,fun hv => ?_⟩
  · rw [hh.rest,h.rest]
  · rcases hh.reported hv with hu | hu
    · exact h.reported hu
    · exact .inr (h.cancelTask ▸ hu)

theorem Quiet.moves (h : ReflTransGen Quiet s u) : Quiet s u := by
  induction h with
  | refl => exact .refl s
  | tail _ hm ih => exact ih.trans hm

theorem Quiet.log (h : Quiet s u) : u.log = s.log := by rw [h.rest]
theorem Quiet.lock (h : Quiet s u) : u.lock = s.lock := by rw [h.rest]
theorem Quiet.active (h : Quiet s u) : u.active = s.active := by rw [h.rest]
theorem Quiet.calls (h : Quiet s u) : u.calls = s.calls := by rw [h.rest]
theorem Quiet.tasks (h : Quiet s u) : u.tasks = s.tasks := by rw [h.rest]

theorem quiet_update {f : ChatController → ChatController} (hrun : (f s.controller).runId = s.controller.runId)
    (hstart : (f s.controller).startCommandId = s.controller.startCommandId)
    (hcancel : (f s.controller).cancelCommandId = s.controller.cancelCommandId)
    (htask : (f s.controller).cancelTask = s.controller.cancelTask)
    (hreported : (f s.controller).cancelPendingReported = s.controller.cancelPendingReported) : Quiet s (s.update f) :=
  ⟨rfl,hrun,hstart,hcancel,htask,fun h => .inl (hreported ▸ h)⟩

/-- Where a call waits without having taken the lock; an observation has read the run that is active. -/
def Rests (s : ChatLoop) : Point → Prop
  | .locking (.submit _) | .locking .cancel | .sleeping _ => True
  | .reading run .. => run = s.active
  | _ => False

theorem Rests.idle {point : Point} (h : Rests s point) : Idle (some (.at point)) := by
  cases point with
  | locking next => cases next <;> first | exact ⟨rfl,rfl⟩ | exact h.elim
  | reading | sleeping => exact ⟨rfl,rfl⟩
  | starting | cancelling => exact h.elim

abbrev Calm (m : Prog α) (s : ChatLoop) : Prop := Within Quiet (fun p u => Rests u p) m s

theorem calm_observeOnce {polling : Option Polling} : Calm (observeOnce polling) s := by
  refine within_get ?_
  split
  · exact within_raise
  · refine Within.ite (fun _ => ?_) fun _ => Within.ite (fun _ => within_pure) fun _ => within_suspend rfl
    refine within_modify_bind (.single (quiet_update rfl rfl rfl rfl rfl)) ?_
    split
    · exact within_raise
    · exact within_pure

theorem calm_polled {polling : Polling} {events : List ChatEvent} : Calm (polled polling events) s := by
  unfold polled
  split
  · exact within_suspend trivial
  · exact within_pure

theorem calm_pollLoop {polling : Polling} : Calm (pollLoop polling) s :=
  within_get (Within.ite (fun _ => calm_observeOnce.bind fun _ _ _ _ => calm_polled) fun _ => within_pure)

theorem calm_observeUntil {deadlineSeconds initialDelay maximumDelay : ℕ} :
    Calm (observeUntil deadlineSeconds initialDelay maximumDelay) s := by
  refine within_get ?_
  split
  · exact within_raise
  · exact calm_pollLoop

theorem quiet_setSession (name : String) : Quiet s (s.update fun u => (u.setSession name).2) := by
  by_cases hstate : s.controller.state ≠ .idle
  · simp only [update,ChatController.setSession,if_pos hstate]
    exact .refl s
  · by_cases hblank : Text.isBlank name
    · simp only [update,ChatController.setSession,if_neg hstate,if_pos hblank]
      exact .refl s
    · simp only [update,ChatController.setSession,if_neg hstate,if_neg hblank]
      exact quiet_update (f := fun u => { u with session := _, lastOutcome := "idle" }) rfl rfl rfl rfl rfl

theorem calm_dispatch {action : ChatAction} : Calm (dispatch action) s := by
  cases action with
  | submit text => exact Within.ite (fun _ => within_pure) fun _ => within_suspend trivial
  | cancel => exact within_suspend trivial
  | quit =>
    refine within_get (Within.ite (fun _ => within_pure) fun _ => ?_)
    exact within_modify_bind (.single (quiet_update rfl rfl rfl rfl rfl)) (within_suspend trivial)
  | clear | help => exact within_pure
  | status => exact within_get within_pure
  | setSession name => exact within_get (within_modify_bind (.single (quiet_setSession name)) within_pure)
  | newSession =>
    refine within_get (Within.ite (fun _ => within_pure) fun _ => ?_)
    exact within_modify_bind (.single (quiet_update rfl rfl rfl rfl rfl)) within_pure

theorem calm_dispatchText {text : String} : Calm (dispatchText text) s := by
  refine Within.ite (fun _ => within_pure) fun _ => Within.ite (fun _ => calm_dispatch) fun _ =>
    Within.ite (fun _ => calm_dispatch) fun _ => ?_
  split <;> first | exact calm_dispatch | exact within_pure | exact within_get within_pure

theorem calm_beginCall {request : Request} : Calm (beginCall request) s := by
  cases request with
  | dispatch action => exact calm_dispatch
  | dispatchText text => exact calm_dispatchText
  | observeOnce => exact calm_observeOnce
  | observeUntil => exact calm_observeUntil

/-- The task that cancels the run is created. -/
def addTask (s : ChatLoop) (cfg : ChatConfig) (n : ℕ) (cancelId : String) (request : CancelRequest) : ChatLoop :=
  { s with
    tasks := Function.update s.tasks n (some { run := s.active, request })
    controller := { s.controller with
      cancelCommandId := some cancelId, cancelTask := some n
      cancelDeadline := some (s.now + cfg.cancelReconcileSeconds) } }

/-- A dispatch to cancel has taken the lock and waits, or returns what has been reported. -/
inductive Waits (u : ChatLoop) (runId startId : String) : Call → Prop
  | waits (task : ℕ) (h : u.controller.cancelTask = some task) :
      Waits u runId startId (.at (.cancelling task runId startId u.controller.cancelCommandId))
  | reported (cancelId : String) (h : u.controller.cancelCommandId = some cancelId)
      (hreported : u.controller.cancelPendingReported) :
      Waits u runId startId (.returned [.cancelPending runId startId cancelId])
  | lacks (e : ChatExn) : Waits u runId startId (.raised e)

/-- What a call does from one suspension to the next; a call that begins is given no signal. -/
inductive Stretch (cfg : ChatConfig) (n : ℕ) (s : ChatLoop) : Option Call → Option Signal → ChatLoop → Call → Prop
  | calm {before : Option Call} {signal : Option Signal} {u : ChatLoop} {call : Call} (hbefore : Idle before)
      (h : Quiet s u) (hcall : ∀ point, call = .at point → Rests s point)
      (hcancel : before = some (.at (.locking .cancel)) → Bare call) : Stretch cfg n s before signal u call
  | started (text : String) (ids : FactoryIds) (request : StartRequest) (hfree : s.controller.runId = none)
      (hlock : s.lock = none) : Stretch cfg n s (some (.at (.locking (.submit text))))
        (some (.acquired ids)) { s.observe (.started n request) with lock := some n } (.at (.starting ids.run ids.command))
  | recorded (runId commandId : String) (h : .accepted n ∈ s.log) :
      Stretch cfg n s (some (.at (.starting runId commandId))) (some .ready) (s.recordRun cfg n runId commandId)
        (.returned [.accepted runId commandId,.pending runId commandId none])
  | unlocked {signal : Signal} (runId commandId : String) (hsignal : signal ≠ .ready) (e : ChatExn) :
      Stretch cfg n s (some (.at (.starting runId commandId))) (some signal) s.unlock (.raised e)
  | named {signal : Option Signal} (cancelId : String) (hnone : s.controller.cancelTask = none) (e : ChatExn) :
      Stretch cfg n s (some (.at (.locking .cancel))) signal
        ((s.observe (.locked n s.active)).update fun u => { u with cancelCommandId := some cancelId }) (.raised e)
  | created {signal : Option Signal} {call : Call} (runId startId cancelId : String) (request : CancelRequest)
      (hrun : s.controller.activeIdentity = some (runId,startId)) (hnone : s.controller.cancelTask = none)
      (hrequest : CancelRequest.make runId cancelId = some request)
      (hcall : Waits ((s.observe (.locked n s.active)).addTask cfg n cancelId request) runId startId call) :
      Stretch cfg n s (some (.at (.locking .cancel))) signal
        ((s.observe (.locked n s.active)).addTask cfg n cancelId request) call
  | joined {signal : Option Signal} {call : Call} (runId startId : String) (hrun : s.controller.activeIdentity = some (runId,startId))
      (htask : s.controller.cancelTask.isSome) (hcall : Waits (s.observe (.locked n s.active)) runId startId call) :
      Stretch cfg n s (some (.at (.locking .cancel))) signal (s.observe (.locked n s.active)) call
  | held {point : Point} {signal : Option Signal} {u : ChatLoop} {call : Call} (held : Held) (hpoint : point.held = some held) (h : Quiet s u)
      (hcall : (∃ e, call = .raised e) ∨ (∃ next, call = .at next ∧ next.held = some held) ∨
        ∃ e, call = .returned [e] ∧ e.identity = some (held.runId,held.startId,held.cancelId)) :
      Stretch cfg n s (some (.at point)) signal u call
  | settled {signal : Option Signal} {run : Option ℕ} {runId startId : String} {cancelId : Option String} {polling : Option Polling}
      (start : CommandSnapshot) (cancel : Option CommandSnapshot) (terminal : ChatEvent) (events : List ChatEvent) :
      Stretch cfg n s (some (.at (.reading run runId startId cancelId polling))) signal
        ((s.keepSnapshots start cancel).settleRun run terminal) (.returned events)

/-- A stretch is over: the call waits, or is noted with what it has returned. -/
def conclude (u : ChatLoop) (n : ℕ) (call : Call) : ChatLoop :=
  { u with
    calls := Function.update u.calls n (some call)
    log := match call with | .returned events => .returned n events :: u.log | _ => u.log }

/-- What a stretch leads to. -/
def callOf : Outcome ChatLoop Point ChatExn (List ChatEvent) → Call
  | .ok events _ => .returned events
  | .raise e _ => .raised e
  | .park point _ => .at point

theorem settleCall_eq (n : ℕ) (m : Prog (List ChatEvent)) (s : ChatLoop) :
    settleCall n m s = (m s).state.conclude n (callOf (m s)) := by
  unfold settleCall conclude callOf
  cases m s <;> rfl

theorem Calm.stretch {m : Prog (List ChatEvent)} {before : Option Call} {signal : Option Signal} (h : Calm m s)
    (hbefore : Idle before) (hcancel : before ≠ some (.at (.locking .cancel))) :
    Stretch cfg n s before signal (m s).state (callOf (m s)) := by
  have hquiet : Quiet s (m s).state := .moves h.moves
  refine .calm hbefore hquiet (fun point hpoint => ?_) fun hlocking => absurd hlocking hcancel
  cases hm : m s with
  | ok events u | raise e u => rw [hm] at hpoint; exact nomatch hpoint
  | park p u =>
    rw [hm] at hpoint
    obtain rfl := Call.at.inj hpoint
    have hrests := h.parks p u hm
    have hactive : u.active = s.active := by simpa [hm] using hquiet.active
    unfold Rests at hrests ⊢
    rwa [hactive] at hrests

theorem stretch_submit {ids : FactoryIds} {text : String} (hlock : s.lock = none) :
    Stretch cfg n s (some (.at (.locking (.submit text)))) (some (.acquired ids)) (submitLocked n ids text s).state
      (callOf (submitLocked n ids text s)) := by
  by_cases hrun : s.controller.runId.isSome
  · have heq : submitLocked n ids text s = .ok [.notice "A run is already active"] s := by
      simp only [submitLocked,get_bind,if_pos hrun,pure_apply]
    rw [heq]
    exact .calm ⟨rfl,rfl⟩ (.refl s) nofun nofun
  · cases hmake : StartRequest.make s.controller.session ids.run ids.command text with
    | none =>
      have heq : submitLocked n ids text s = .raise .value s := by
        simp only [submitLocked,get_bind,if_neg hrun,hmake,raise_apply]
      rw [heq]
      exact .calm ⟨rfl,rfl⟩ (.refl s) nofun nofun
    | some request =>
      have heq : submitLocked n ids text s = .park (.starting ids.run ids.command)
          { s.observe (.started n request) with lock := some n } := by
        simp only [submitLocked,get_bind,if_neg hrun,hmake,modify_bind,suspend_apply]
      rw [heq]
      exact .started text ids request (by simpa using hrun) hlock

theorem waits_cancel (runId startId : String) (u : ChatLoop) : (waitForTask runId startId u).state = u ∧
    Waits u runId startId (callOf (waitForTask runId startId u)) := by
  by_cases hreported : u.controller.cancelPendingReported
  · cases hid : u.controller.cancelCommandId with
    | none =>
      simp only [waitForTask,get_bind,if_pos hreported,hid]
      exact ⟨rfl,.lacks _⟩
    | some cancelId =>
      simp only [waitForTask,get_bind,if_pos hreported,hid]
      exact ⟨rfl,.reported cancelId hid hreported⟩
  · cases htask : u.controller.cancelTask with
    | none =>
      simp only [waitForTask,get_bind,if_neg hreported,htask]
      exact ⟨rfl,.lacks _⟩
    | some task =>
      simp only [waitForTask,get_bind,if_neg hreported,htask]
      exact ⟨rfl,.waits task htask⟩

theorem stretch_cancel {ids : FactoryIds} {signal : Option Signal} : Stretch cfg n s (some (.at (.locking .cancel)))
    signal (cancelLocked cfg n ids s).state (callOf (cancelLocked cfg n ids s)) := by
  cases hrun : s.controller.activeIdentity with
  | none =>
    have heq : cancelLocked cfg n ids s = .ok [.notice "No active run"] s := by
      simp only [cancelLocked,get_bind,hrun,pure_apply]
    rw [heq]
    refine .calm ⟨rfl,rfl⟩ (.refl s) nofun fun _ e he => ?_
    obtain rfl := List.mem_singleton.mp he
    rfl
  | some identity =>
    obtain ⟨runId,startId⟩ := identity
    have hlocked : cancelLocked cfg n ids s =
        (do createCancelTask cfg n ids runId; waitForTask runId startId) (s.observe (.locked n s.active)) := by
      simp only [cancelLocked,get_bind,hrun,modify_bind]
    by_cases htask : s.controller.cancelTask.isSome
    · have hcreate : createCancelTask cfg n ids runId (s.observe (.locked n s.active)) =
          .ok () (s.observe (.locked n s.active)) := by
        simp only [createCancelTask,get_bind,observe,if_pos htask,pure_apply]
      obtain ⟨hstate,hwaits⟩ := waits_cancel runId startId (s.observe (.locked n s.active))
      rw [hlocked,bind_eq hcreate,hstate]
      exact .joined runId startId hrun htask hwaits
    · have hnone : s.controller.cancelTask = none := by simpa using htask
      cases hrequest : CancelRequest.make runId ids.cancel with
      | none =>
        have hcreate : createCancelTask cfg n ids runId (s.observe (.locked n s.active)) = .raise .value
            ((s.observe (.locked n s.active)).update fun u => { u with cancelCommandId := some ids.cancel }) := by
          simp only [createCancelTask,get_bind,observe,if_neg htask,modify_bind,hrequest,raise_apply]
        rw [hlocked,bind_apply,hcreate]
        exact .named ids.cancel hnone .value
      | some request =>
        have hcreate : createCancelTask cfg n ids runId (s.observe (.locked n s.active)) = .ok ()
            ((s.observe (.locked n s.active)).addTask cfg n ids.cancel request) := by
          simp only [createCancelTask,get_bind,observe,if_neg htask,modify_bind,hrequest,modify_apply,update,addTask]
        obtain ⟨hstate,hwaits⟩ := waits_cancel runId startId
          ((s.observe (.locked n s.active)).addTask cfg n ids.cancel request)
        rw [hlocked,bind_eq hcreate,hstate]
        exact .created runId startId ids.cancel request hrun hnone hrequest hwaits

theorem quiet_acceptCancel (task : ℕ) : Quiet s (s.acceptCancel task) := by
  unfold acceptCancel
  split
  · exact quiet_update rfl rfl rfl rfl rfl
  · exact .refl s

/-- A dispatch that has taken the lock notes how the cancellation has gone, and returns what it holds. -/
theorem stretch_expired {task : ℕ} {runId startId : String} {cancelId : Option String} {signal : Option Signal} :
    Stretch cfg n s (some (.at (.locking (.expired task runId startId cancelId)))) signal
      (cancelExpired task runId startId cancelId s).state (callOf (cancelExpired task runId startId cancelId s)) := by
  have hquiet : Quiet s (if s.controller.cancelTask = some task then
      s.update fun u => { u with cancelPendingReported := true, cancelDeadline := none } else s) := by
    split
    · rename_i htask
      exact ⟨rfl,rfl,rfl,rfl,rfl,fun _ => .inr (by simp [htask])⟩
    · exact .refl s
  cases cancelId with
  | none => exact .held { task, runId, startId, cancelId := none } rfl hquiet (.inl ⟨_,rfl⟩)
  | some cancelId =>
    exact .held { task, runId, startId, cancelId := some cancelId } rfl hquiet (.inr (.inr ⟨_,rfl,rfl⟩))

theorem stretch_accepted {task : ℕ} {runId startId : String} {cancelId : Option String} {signal : Option Signal} :
    Stretch cfg n s (some (.at (.locking (.accepted task runId startId cancelId)))) signal
      (cancelAccepted task runId startId cancelId s).state (callOf (cancelAccepted task runId startId cancelId s)) :=
  .held { task, runId, startId, cancelId } rfl (quiet_acceptCancel task) (.inr (.inr ⟨_,rfl,rfl⟩))

theorem stretch_locked {ids : FactoryIds} {next : LockNext} (hlock : s.lock = none) :
    Stretch cfg n s (some (.at (.locking next))) (some (.acquired ids)) (locked cfg n ids next s).state
      (callOf (locked cfg n ids next s)) := by
  cases next with
  | submit text => exact stretch_submit hlock
  | cancel => exact stretch_cancel
  | expired task runId startId cancelId => exact stretch_expired
  | accepted task runId startId cancelId => exact stretch_accepted

/-- The event that settles a run carries no identity. -/
theorem reconcile_identity {start : CommandSnapshot} {cancel : Option CommandSnapshot} {e : ChatEvent}
    (h : reconcile start cancel = some e) : e.identity = none := by
  unfold reconcile at h
  dsimp only at h
  repeat' split at h
  all_goals
    first
    | cases h
      rfl
    | cases h

theorem polled_settled {polling : Polling} {terminal : ChatEvent} (h : terminal.identity = none) (events : List ChatEvent) :
    polled polling (terminal :: events) = pure (terminal :: events) := by
  cases terminal with
  | pending => exact nomatch h
  | _ => rfl

theorem stretch_read {run : Option ℕ} {runId startId : String} {cancelId : Option String} {start : CommandSnapshot}
    {cancel : Option CommandSnapshot} {polling : Option Polling} {signal : Option Signal} :
    Stretch cfg n s (some (.at (.reading run runId startId cancelId polling))) signal
      (snapshotsRead run runId startId start cancel polling s).state
      (callOf (snapshotsRead run runId startId start cancel polling s)) := by
  have hkept : Quiet s (s.keepSnapshots start cancel) := quiet_update rfl rfl rfl rfl rfl
  have hobserved := observed_eq s run runId startId start cancel
  cases hresult : reconcile start (cancel.or s.controller.cancelSnapshot) with
  | none =>
    rw [hresult] at hobserved
    cases polling with
    | none =>
      simp only [snapshotsRead,hobserved]
      exact .calm ⟨rfl,rfl⟩ hkept nofun nofun
    | some polling =>
      have hcalm : Calm (polled polling [.pending runId startId s.controller.cancelCommandId]) (s.keepSnapshots start cancel) :=
        calm_polled
      simp only [snapshotsRead,bind_eq hobserved]
      refine .calm ⟨rfl,rfl⟩ (hkept.trans (.moves hcalm.moves)) (fun point hpoint => ?_) nofun
      obtain rfl := Call.at.inj hpoint
      trivial
  | some terminal =>
    rw [hresult] at hobserved
    cases polling with
    | none =>
      simp only [snapshotsRead,hobserved]
      exact .settled start cancel terminal _
    | some polling =>
      have hterminal := reconcile_identity hresult
      by_cases hquit : s.controller.quitAfterSettle
      · simp only [if_pos hquit] at hobserved
        simp only [snapshotsRead,bind_eq hobserved,polled_settled hterminal]
        exact .settled start cancel terminal _
      · simp only [if_neg hquit] at hobserved
        simp only [snapshotsRead,bind_eq hobserved,polled_settled hterminal]
        exact .settled start cancel terminal _

theorem stretch_ended {task : ℕ} {runId startId : String} {cancelId : Option String} {result : TaskResult}
    {signal : Option Signal} : Stretch cfg n s (some (.at (.cancelling task runId startId cancelId))) signal
      (taskEnded task runId startId cancelId result s).state (callOf (taskEnded task runId startId cancelId result s)) := by
  cases result with
  | done | timeout =>
    exact .held { task, runId, startId, cancelId } rfl (.refl s) (.inr (.inl ⟨_,rfl,rfl⟩))
  | raised | cancelled => exact .held { task, runId, startId, cancelId } rfl (.refl s) (.inl ⟨_,rfl⟩)

theorem stretch_cancelled {point : Point} {signal : Option Signal} (hpoint : point.isStarting = false) :
    Stretch cfg n s (some (.at point)) signal s (.raised .cancelled) := by
  cases hheld : point.held with
  | none => exact .calm ⟨hheld,hpoint⟩ (.refl s) nofun fun _ => trivial
  | some held => exact .held held hheld (.refl s) (.inl ⟨_,rfl⟩)

/-- The inversion of `resumeCall`. -/
theorem stretch_resume {point : Point} {signal : Signal} {m : Prog (List ChatEvent)}
    (h : resumeCall cfg s n point signal = some m) :
    Stretch cfg n s (some (.at point)) (some signal) (m s).state (callOf (m s)) := by
  cases point with
  | locking next =>
    cases signal with
    | acquired ids =>
      simp only [resumeCall,Option.ite_none_right_eq_some,Option.some.injEq] at h
      obtain ⟨hlock,rfl⟩ := h
      exact stretch_locked hlock
    | cancelled =>
      obtain rfl := Option.some.inj h
      exact stretch_cancelled rfl
    | ready | snapshots | timeout | raised => exact nomatch h
  | starting runId commandId =>
    cases signal with
    | ready =>
      simp only [resumeCall,Option.ite_none_right_eq_some,Option.some.injEq] at h
      obtain ⟨haccepted,rfl⟩ := h
      exact .recorded runId commandId haccepted
    | raised =>
      obtain rfl := Option.some.inj h
      have hsignal : Signal.raised ≠ .ready := by simp
      exact .unlocked runId commandId hsignal _
    | cancelled =>
      obtain rfl := Option.some.inj h
      have hsignal : Signal.cancelled ≠ .ready := by simp
      exact .unlocked runId commandId hsignal _
    | acquired | snapshots | timeout => exact nomatch h
  | cancelling task runId startId cancelId =>
    cases signal with
    | ready =>
      obtain ⟨result,_,rfl⟩ := Option.map_eq_some_iff.mp h
      exact stretch_ended
    | timeout =>
      obtain rfl := Option.some.inj h
      have hended : Stretch cfg n s (some (.at (.cancelling task runId startId cancelId))) (some .timeout)
          (taskEnded task runId startId cancelId .timeout s).state
          (callOf (taskEnded task runId startId cancelId .timeout s)) := stretch_ended
      exact hended
    | cancelled =>
      obtain rfl := Option.some.inj h
      exact stretch_cancelled rfl
    | acquired | snapshots | raised => exact nomatch h
  | reading run runId startId cancelId polling =>
    cases signal with
    | snapshots start cancel =>
      simp only [resumeCall,Option.ite_none_right_eq_some,Option.some.injEq] at h
      obtain ⟨_,rfl⟩ := h
      exact stretch_read
    | raised =>
      obtain rfl := Option.some.inj h
      exact .calm ⟨rfl,rfl⟩ (.refl s) nofun nofun
    | cancelled =>
      obtain rfl := Option.some.inj h
      exact stretch_cancelled rfl
    | acquired | ready | timeout => exact nomatch h
  | sleeping polling =>
    cases signal with
    | ready =>
      obtain rfl := Option.some.inj h
      exact calm_pollLoop.stretch ⟨rfl,rfl⟩ nofun
    | cancelled =>
      obtain rfl := Option.some.inj h
      exact stretch_cancelled rfl
    | acquired | snapshots | timeout | raised => exact nomatch h

/-- What a task that cancels does, and what time does: the request is sent, the task ends, and its callback runs. -/
inductive Other (s : ChatLoop) : ChatLoop → Prop
  | invoked (k : ℕ) (t : CancelTask) (ht : s.tasks k = some t) (h : t.stage = .created) :
      Other s ((s.setStage k t .invoked).observe (.cancelCalled t.run t.request))
  | stage (k : ℕ) (t : CancelTask) (stage : TaskStage) (ht : s.tasks k = some t) (hstage : stage ≠ .created)
      {u : ChatLoop} (h : Quiet (s.setStage k t stage) u) : Other s u
  | tick (now : ℕ) : Other s { s with now }

/-- The inversion of `step`. -/
theorem step_cases {a : LoopAction} {s' : ChatLoop} (h : step cfg s a = some s') :
    (∃ n signal u call, Stretch cfg n s (s.calls n) signal u call ∧ s' = u.conclude n call ∧
      ∀ given, signal = some given → a = .resume n given) ∨
    (∃ n, a = .accept n ∧ .accepted n ∉ s.log ∧ s' = s.observe (.accepted n)) ∨ Other s s' := by
  cases a with
  | begin n request =>
    simp only [step,Option.ite_none_right_eq_some,Option.some.injEq] at h
    obtain ⟨hnone,rfl⟩ := h
    refine .inl ⟨n,none,_,_,?_,settleCall_eq n _ s,fun given hgiven => by simp at hgiven⟩
    rw [hnone]
    exact calm_beginCall.stretch trivial nofun
  | resume n signal =>
    cases hcall : s.calls n with
    | none => simp [step,hcall] at h
    | some call =>
      cases call with
      | «at» point =>
        simp only [step,hcall] at h
        obtain ⟨m,hm,rfl⟩ := Option.map_eq_some_iff.mp h
        refine .inl ⟨n,some signal,_,_,?_,settleCall_eq n m s,fun given hgiven => ?_⟩
        · rw [hcall]
          exact stretch_resume hm
        · rw [Option.some.inj hgiven]
      | returned events | raised e => simp [step,hcall] at h
  | accept n =>
    simp only [step,Option.ite_none_right_eq_some,Option.some.injEq] at h
    obtain ⟨⟨_,hnew⟩,rfl⟩ := h
    exact .inr (.inl ⟨n,rfl,hnew,rfl⟩)
  | invoke k =>
    obtain ⟨t,ht,h⟩ := Option.bind_eq_some_iff.mp h
    simp only [Option.ite_none_right_eq_some] at h
    obtain ⟨hstage,h⟩ := h
    obtain rfl := Option.some.inj h
    exact .inr (.inr (.invoked k t ht hstage))
  | finish k result =>
    obtain ⟨t,ht,h⟩ := Option.bind_eq_some_iff.mp h
    simp only [Option.ite_none_right_eq_some] at h
    obtain ⟨_,h⟩ := h
    obtain rfl := Option.some.inj h
    have hstage : TaskStage.ended result true ≠ .created := by simp
    exact .inr (.inr (.stage k t _ ht hstage (.refl _)))
  | callback k =>
    obtain ⟨t,ht,h⟩ := Option.bind_eq_some_iff.mp h
    split at h
    · rename_i result _
      obtain rfl := Option.some.inj h
      have hstage : TaskStage.ended result false ≠ .created := by simp
      refine .inr (.inr (.stage k t _ ht hstage ?_))
      unfold superviseCancelTask
      split
      · exact quiet_acceptCancel k
      · exact .refl _
    · exact nomatch h
  | tick now =>
    simp only [step,Option.ite_none_right_eq_some,Option.some.injEq] at h
    obtain ⟨_,rfl⟩ := h
    exact .inr (.inr (.tick now))

end ChatLoop
end Chat
end HarnessSdk
