import HarnessSdk.Service
import HarnessSdk.Coroutine
import HarnessSdk.Transition
import Mathlib.Data.List.Dedup
import Mathlib.Logic.Function.Basic

/-!
# The chat controller

A `ChatController` owns the identity of one durable run. Calls of `dispatch` and `observe_once` are tasks that run
from one suspension to the next: they wait for the lock, for the client, for the task that cancels the run, or for
the time between two polls.
-/

namespace HarnessSdk
namespace Chat

inductive ChatAction
  | submit (text : String)
  | cancel | quit | clear | help | status
  | setSession (name : String)
  | newSession
  deriving DecidableEq, Repr

inductive ChatEvent
  | accepted (runId commandId : String)
  | pending (runId commandId : String) (cancelCommandId : Option String)
  | completed (outputText : String)
  | failed (errorCode : Option String)
  | cancelled
  | timeout (runId commandId : String)
  | cancelPending (runId commandId cancelCommandId : String)
  | protocolError (detail : String)
  | notice (text : String)
  | transcriptCleared
  | sessionChanged (session : String)
  | quitRequested (afterCancel : Bool)
  deriving DecidableEq, Repr

/-- The usage of each of the `COMMANDS`. -/
def commandUsages : List String :=
  ["/help", "/session NAME", "/new", "/cancel", "/quit", "/status", "/clear"]

/-- `_event_name`. -/
def eventName : ChatEvent → String
  | .completed _ => "completed" | .failed _ => "failed" | .cancelled => "cancelled"
  | .protocolError _ => "protocol_error" | _ => "settled"

structure ChatConfig where
  observeDeadlineSeconds : ℕ := 315
  cancelReconcileSeconds : ℕ := 5

/-- The fields of the controller. A task that cancels a run is named by the call that has created it. -/
structure ChatController where
  session : String := "main"
  runId : Option String := none
  startCommandId : Option String := none
  cancelCommandId : Option String := none
  cancelTask : Option ℕ := none
  cancelAccepted : Bool := false
  cancelPendingReported : Bool := false
  startSnapshot : Option CommandSnapshot := none
  cancelSnapshot : Option CommandSnapshot := none
  quitAfterSettle : Bool := false
  runDeadline : Option ℕ := none
  cancelDeadline : Option ℕ := none
  lastOutcome : String := "idle"

inductive ControllerState
  | idle | pending | cancelInFlight
  deriving DecidableEq, Repr

def ControllerState.value : ControllerState → String
  | idle => "idle" | pending => "pending" | cancelInFlight => "cancel_in_flight"

namespace ChatController

def state (s : ChatController) : ControllerState :=
  if s.runId.isNone then .idle else if s.cancelTask.isSome then .cancelInFlight else .pending

/-- `_active_identity`. -/
def activeIdentity (s : ChatController) : Option (String × String) :=
  match s.runId, s.startCommandId with
  | some runId, some startId => some (runId,startId)
  | _, _ => none

/-- `_settle`. -/
def settle (s : ChatController) (event : ChatEvent) : ChatController :=
  { session := s.session, lastOutcome := eventName event }

def statusText (s : ChatController) : String :=
  match s.runId with
  | none => "session=" ++ s.session ++ " state=idle outcome=" ++ s.lastOutcome
  | some runId =>
    let cancel := match s.cancelCommandId with | none => "" | some id => " cancel=" ++ id
    "session=" ++ s.session ++ " state=" ++ s.state.value ++ " run=" ++ runId ++ " command=" ++
      s.startCommandId.getD "None" ++ cancel

/-- `_set_session`. -/
def setSession (s : ChatController) (name : String) : ChatEvent × ChatController :=
  if s.state ≠ .idle then (.notice "Cancel the active run before changing session",s)
  else if Text.isBlank name then (.notice "Session is required",s)
  else
    let session := String.ofList (Text.strip name)
    (.sessionChanged session,{ s with session, lastOutcome := "idle" })

end ChatController

/-- The terminal states that the snapshots tell, without repetition. -/
def terminalStates (snapshots : List CommandSnapshot) : List RunState :=
  ((snapshots.filterMap CommandSnapshot.runState).filter RunState.isTerminal).dedup

/-- The outcomes of a closed command. -/
def CommandOutcome.isClosed : CommandOutcome → Bool
  | completed | failed | cancelled => true
  | _ => false

/-- `_reconcile`. -/
def reconcile (start : CommandSnapshot) (cancel : Option CommandSnapshot) : Option ChatEvent :=
  let snapshots := start :: cancel.toList
  match terminalStates snapshots with
  | state :: [] =>
    match state with
    | .completed =>
      if start.outcome = .completed ∧ start.outputState = .present then
        match start.outputText with
        | some text => some (.completed text)
        | none => some (.protocolError "completed run lacks start output")
      else some (.protocolError "completed run lacks start output")
    | .failed =>
      let given := fun code : Option String => code.filter (· ≠ "")
      some (.failed ((given start.errorCode).or (cancel.bind CommandSnapshot.errorCode)))
    | _ => some .cancelled
  | _ :: _ :: _ => some (.protocolError "conflicting terminal run states")
  | [] =>
    if snapshots.any (·.outcome = .protocolError) then some (.protocolError "backend protocol error")
    else if cancel.isSome ∧ snapshots.all fun s => decide (s.outcome = .cancelled ∧ s.runState = none) then
      some .cancelled
    else if snapshots.any (·.outcome.isClosed) then
      some (.protocolError "closed command lacks authoritative run state")
    else none

/-- What a call waits for the lock for: to submit, to cancel, or to note how the cancellation has gone. -/
inductive LockNext
  | submit (text : String)
  | cancel
  | expired (task : ℕ) (runId startId : String) (cancelId : Option String)
  | accepted (task : ℕ) (runId startId : String) (cancelId : Option String)
  deriving DecidableEq

/-- The loop of `observe_until`. -/
structure Polling where
  runId : String
  commandId : String
  deadline : ℕ
  delay : ℕ
  maximumDelay : ℕ
  deriving DecidableEq

/-- Where a call is suspended. `run` names the submission whose run `observe_once` has found active. -/
inductive Point
  | locking (next : LockNext)
  | starting (runId commandId : String)
  | cancelling (task : ℕ) (runId startId : String) (cancelId : Option String)
  | reading (run : Option ℕ) (runId startId : String) (cancelId : Option String) (polling : Option Polling)
  | sleeping (polling : Polling)
  deriving DecidableEq

inductive ChatExn
  | runtime (message : String)
  | value
  | client
  | cancelled
  deriving DecidableEq

/-- A call is suspended or has come to its end. -/
inductive Call
  | at (point : Point)
  | returned (events : List ChatEvent)
  | raised (e : ChatExn)
  deriving DecidableEq

/-- How the task that cancels a run ends. -/
inductive TaskResult
  | done | raised | timeout | cancelled
  deriving DecidableEq

inductive TaskStage
  | created
  | invoked
  | ended (result : TaskResult) (callback : Bool)
  deriving DecidableEq

/-- A task that cancels the run of the submission `run`; `callback` tells that its callback is still to come. -/
structure CancelTask where
  run : Option ℕ
  request : CancelRequest
  stage : TaskStage := .created
  deriving DecidableEq

/-- What is recorded of a history: `client.start` is called and accepted, a submission and a cancellation have taken
the lock, `client.cancel` is called, a run is settled, and a call returns. -/
inductive Trace
  | started (call : ℕ) (request : StartRequest)
  | accepted (call : ℕ)
  | recorded (call : ℕ) (runId commandId : String)
  | locked (call : ℕ) (run : Option ℕ)
  | cancelCalled (run : Option ℕ) (request : CancelRequest)
  | settled (read cleared : Option ℕ) (event : ChatEvent)
  | returned (call : ℕ) (events : List ChatEvent)
  deriving DecidableEq

/-- The controller with its calls and tasks. `active` names the submission whose run is recorded. -/
structure ChatLoop where
  controller : ChatController := {}
  now : ℕ := 0
  lock : Option ℕ := none
  calls : ℕ → Option Call := fun _ => none
  tasks : ℕ → Option CancelTask := fun _ => none
  active : Option ℕ := none
  log : List Trace := []

/-- The identifiers that the factory gives to a call. -/
structure FactoryIds where
  run : String := ""
  command : String := ""
  cancel : String := ""

/-- A stretch of a call. -/
abbrev Prog (α : Type) := Run ChatLoop Point ChatExn α

namespace ChatLoop

variable (cfg : ChatConfig)

def observe (s : ChatLoop) (t : Trace) : ChatLoop := { s with log := t :: s.log }

def update (s : ChatLoop) (f : ChatController → ChatController) : ChatLoop := { s with controller := f s.controller }

/-! `_submit`. -/

def submit (text : String) : Prog (List ChatEvent) :=
  if Text.isBlank text then pure [] else Run.suspend (.locking (.submit text))

/-- Under the lock, up to the answer of the client. -/
def submitLocked (n : ℕ) (ids : FactoryIds) (text : String) : Prog (List ChatEvent) := do
  let s ← Run.get
  if s.controller.runId.isSome then return [.notice "A run is already active"]
  else
    match StartRequest.make s.controller.session ids.run ids.command text with
    | none => Run.raise .value
    | some request => do
      Run.modify fun s => { s.observe (.started n request) with lock := some n }
      Run.suspend (.starting ids.run ids.command)

/-- The client has accepted the run. -/
def recordRun (s : ChatLoop) (n : ℕ) (runId commandId : String) : ChatLoop :=
  { s.observe (.recorded n runId commandId) with
    controller := { s.controller with
      runId := some runId, startCommandId := some commandId, lastOutcome := "pending"
      runDeadline := some (s.now + cfg.observeDeadlineSeconds) }
    lock := none
    active := some n }

def submitted (n : ℕ) (runId commandId : String) : Prog (List ChatEvent) := do
  Run.modify fun s => s.recordRun cfg n runId commandId
  return [.accepted runId commandId, .pending runId commandId none]

def unlock (s : ChatLoop) : ChatLoop := { s with lock := none }

/-! `_cancel`. -/

def cancel : Prog (List ChatEvent) := Run.suspend (.locking .cancel)

/-- The task that cancels the run, unless there is one. -/
def createCancelTask (n : ℕ) (ids : FactoryIds) (runId : String) : Prog Unit := do
  let s ← Run.get
  if s.controller.cancelTask.isSome then pure ()
  else do
    Run.modify fun s => s.update fun u => { u with cancelCommandId := some ids.cancel }
    match CancelRequest.make runId ids.cancel with
    | none => Run.raise .value
    | some request =>
      Run.modify fun s => { s with
        tasks := Function.update s.tasks n (some { run := s.active, request })
        controller := { s.controller with
          cancelTask := some n, cancelDeadline := some (s.now + cfg.cancelReconcileSeconds) } }

def lacksIdentity {α : Type} : Prog α := Run.raise (.runtime "cancel task lacks command identity")

def cancelPending (runId startId : String) : Option String → Prog (List ChatEvent)
  | none => lacksIdentity
  | some cancelId => pure [.cancelPending runId startId cancelId]

/-- The lock is released; what has been reported is returned again. -/
def waitForTask (runId startId : String) : Prog (List ChatEvent) := do
  let s ← Run.get
  if s.controller.cancelPendingReported then cancelPending runId startId s.controller.cancelCommandId
  else
    match s.controller.cancelTask with
    | none => lacksIdentity
    | some task => Run.suspend (.cancelling task runId startId s.controller.cancelCommandId)

/-- Under the lock, up to the wait for the task. -/
def cancelLocked (n : ℕ) (ids : FactoryIds) : Prog (List ChatEvent) := do
  let s ← Run.get
  match s.controller.activeIdentity with
  | none => return [.notice "No active run"]
  | some (runId,startId) => do
    Run.modify fun s => s.observe (.locked n s.active)
    createCancelTask cfg n ids runId
    waitForTask runId startId

/-- The wait has timed out. -/
def cancelExpired (task : ℕ) (runId startId : String) (cancelId : Option String) : Prog (List ChatEvent) := do
  Run.modify fun s => if s.controller.cancelTask = some task then
    s.update fun u => { u with cancelPendingReported := true, cancelDeadline := none } else s
  cancelPending runId startId cancelId

def acceptCancel (s : ChatLoop) (task : ℕ) : ChatLoop :=
  if s.controller.cancelTask = some task then s.update fun u => { u with cancelAccepted := true } else s

/-- The task has ended well. -/
def cancelAccepted (task : ℕ) (runId startId : String) (cancelId : Option String) : Prog (List ChatEvent) := do
  Run.modify fun s => s.acceptCancel task
  return [.pending runId startId cancelId]

/-! `observe_once` and `observe_until`. -/

/-- The run that is settled is the one that is active now. -/
def settleRun (s : ChatLoop) (read : Option ℕ) (event : ChatEvent) : ChatLoop :=
  { s.observe (.settled read s.active event) with controller := s.controller.settle event, active := none }

def keepSnapshots (s : ChatLoop) (start : CommandSnapshot) (cancel : Option CommandSnapshot) : ChatLoop :=
  s.update fun u => { u with startSnapshot := some start, cancelSnapshot := cancel.or u.cancelSnapshot }

/-- `observe_once` behind `_read_snapshots`. -/
def observed (read : Option ℕ) (runId startId : String) (start : CommandSnapshot) (cancel : Option CommandSnapshot) :
    Prog (List ChatEvent) := do
  Run.modify fun s => s.keepSnapshots start cancel
  let s ← Run.get
  match reconcile start s.controller.cancelSnapshot with
  | some terminal => do
    Run.modify fun s => s.settleRun read terminal
    if s.controller.quitAfterSettle then return [terminal, .quitRequested true] else return [terminal]
  | none => return [.pending runId startId s.controller.cancelCommandId]

/-- Behind the reads `observe_once` settles the run with what the snapshots give, or returns `Pending`. -/
theorem observed_eq (s : ChatLoop) (read : Option ℕ) (runId startId : String) (start : CommandSnapshot)
    (cancel : Option CommandSnapshot) : observed read runId startId start cancel s =
      match reconcile start (cancel.or s.controller.cancelSnapshot) with
      | some terminal => .ok (if s.controller.quitAfterSettle then [terminal,.quitRequested true] else [terminal])
          ((s.keepSnapshots start cancel).settleRun read terminal)
      | none => .ok [.pending runId startId s.controller.cancelCommandId] (s.keepSnapshots start cancel) := by
  cases hresult : reconcile start (cancel.or s.controller.cancelSnapshot) with
  | none => simp only [observed,Run.modify_bind,Run.get_bind,keepSnapshots,update,hresult]; rfl
  | some terminal =>
    simp only [observed,Run.modify_bind,Run.get_bind,keepSnapshots,update,hresult]
    split <;> rfl

/-- `observe_once` up to the answers of the client. -/
def observeOnce (polling : Option Polling) : Prog (List ChatEvent) := do
  let s ← Run.get
  match s.controller.activeIdentity with
  | none => Run.raise (.runtime "no active run")
  | some (runId,startId) =>
    if s.controller.cancelDeadline.any (· ≤ s.now) then do
      Run.modify fun s => s.update fun u => { u with cancelDeadline := none }
      match s.controller.cancelCommandId with
      | none => Run.raise (.runtime "cancel deadline lacks command identity")
      | some cancelId => return [.cancelPending runId startId cancelId]
    else if s.controller.runDeadline.any (· ≤ s.now) then return [.timeout runId startId]
    else
      let cancelId := if s.controller.cancelAccepted then s.controller.cancelCommandId else none
      Run.suspend (.reading s.active runId startId cancelId polling)

/-- What `observe_until` does with the events of `observe_once`. -/
def polled (polling : Polling) (events : List ChatEvent) : Prog (List ChatEvent) :=
  match events.head? with
  | some (.pending ..) => Run.suspend (.sleeping polling)
  | _ => pure events

/-- The `while` loop of `observe_until`. -/
def pollLoop (polling : Polling) : Prog (List ChatEvent) := do
  let s ← Run.get
  if s.now < polling.deadline then do
    let events ← observeOnce (some polling)
    polled polling events
  else return [.timeout polling.runId polling.commandId]

def observeUntil (deadlineSeconds initialDelay maximumDelay : ℕ) : Prog (List ChatEvent) := do
  let s ← Run.get
  match s.controller.activeIdentity with
  | none => Run.raise (.runtime "no active run")
  | some (runId,commandId) =>
    pollLoop { runId, commandId, deadline := s.now + deadlineSeconds, delay := initialDelay, maximumDelay }

/-- The snapshots have been read. -/
def snapshotsRead (read : Option ℕ) (runId startId : String) (start : CommandSnapshot)
    (cancel : Option CommandSnapshot) : Option Polling → Prog (List ChatEvent)
  | none => observed read runId startId start cancel
  | some polling => do
    let events ← observed read runId startId start cancel
    polled polling events

/-- The time between two polls is over. -/
def slept (polling : Polling) : Prog (List ChatEvent) :=
  pollLoop { polling with delay := min polling.maximumDelay (polling.delay * 2) }

/-! `dispatch`. -/

def dispatch : ChatAction → Prog (List ChatEvent)
  | .submit text => submit text
  | .cancel => cancel
  | .quit => do
    let s ← Run.get
    if s.controller.state = .idle then return [.quitRequested false]
    else do
      Run.modify fun s => s.update fun u => { u with quitAfterSettle := true }
      cancel
  | .clear => pure [.transcriptCleared]
  | .help => pure [.notice (String.intercalate " " commandUsages)]
  | .status => do
    let s ← Run.get
    return [.notice s.controller.statusText]
  | .setSession name => do
    let s ← Run.get
    Run.modify fun s => s.update fun u => (u.setSession name).2
    return [(s.controller.setSession name).1]
  | .newSession => do
    let s ← Run.get
    if s.controller.state ≠ .idle then return [.notice "Cancel the active run before /new"]
    else do
      Run.modify fun s => s.update fun u => { u with lastOutcome := "idle" }
      return [.transcriptCleared, .notice "New display context"]

/-- `dispatch_text`, with the text split at its first blank. -/
def dispatchText (text : String) : Prog (List ChatEvent) :=
  let (command,rest) := text.toList.span (· ≠ ' ')
  let argument := String.ofList rest.tail
  if Text.isBlank text then pure []
  else if text = "?" then dispatch .help
  else if !Text.startsWith text "/" then dispatch (.submit text)
  else
    match String.ofList command, argument with
    | "/help", "" => dispatch .help
    | "/status", "" => dispatch .status
    | "/clear", "" => dispatch .clear
    | "/cancel", "" => dispatch .cancel
    | "/quit", "" => dispatch .quit
    | "/new", "" => dispatch .newSession
    | "/session", "" => do
      let s ← Run.get
      return [.notice s.controller.session]
    | "/session", argument => dispatch (.setSession (String.ofList (Text.strip argument)))
    | command, _ => pure [.notice ("Unknown command: " ++ command)]

end ChatLoop

/-- The calls of the public methods. -/
inductive Request
  | dispatch (action : ChatAction)
  | dispatchText (text : String)
  | observeOnce
  | observeUntil (deadlineSeconds initialDelay maximumDelay : ℕ)

/-- What a suspended call is resumed with. -/
inductive Signal
  | acquired (ids : FactoryIds)
  | ready
  | snapshots (start : CommandSnapshot) (cancel : Option CommandSnapshot)
  | timeout
  | raised
  | cancelled

/-- A call begins or goes on, the server accepts a run, a task that cancels goes on, or time passes. -/
inductive LoopAction
  | begin (call : ℕ) (request : Request)
  | resume (call : ℕ) (signal : Signal)
  | accept (call : ℕ)
  | invoke (task : ℕ)
  | finish (task : ℕ) (result : TaskResult)
  | callback (task : ℕ)
  | tick (now : ℕ)

namespace ChatLoop

variable (cfg : ChatConfig)

def beginCall : Request → Prog (List ChatEvent)
  | .dispatch action => dispatch action
  | .dispatchText text => dispatchText text
  | .observeOnce => observeOnce none
  | .observeUntil deadlineSeconds initialDelay maximumDelay => observeUntil deadlineSeconds initialDelay maximumDelay

def locked (n : ℕ) (ids : FactoryIds) : LockNext → Prog (List ChatEvent)
  | .submit text => submitLocked n ids text
  | .cancel => cancelLocked cfg n ids
  | .expired task runId startId cancelId => cancelExpired task runId startId cancelId
  | .accepted task runId startId cancelId => cancelAccepted task runId startId cancelId

/-- `await asyncio.wait_for(asyncio.shield(task), …)` ends with the task. A `TimeoutError` of the task cannot be told
from one of the wait. -/
def taskEnded (task : ℕ) (runId startId : String) (cancelId : Option String) : TaskResult → Prog (List ChatEvent)
  | .done => Run.suspend (.locking (.accepted task runId startId cancelId))
  | .timeout => Run.suspend (.locking (.expired task runId startId cancelId))
  | .raised => Run.raise .client
  | .cancelled => Run.raise .cancelled

def taskResult (s : ChatLoop) (task : ℕ) : Option TaskResult :=
  match (s.tasks task).map CancelTask.stage with
  | some (.ended result _) => some result
  | _ => none

/-- The program that follows a signal. `client.start` returns only when the server has accepted the run, and the
client is asked for the second snapshot exactly when its identifier is known. -/
def resumeCall (s : ChatLoop) (n : ℕ) : Point → Signal → Option (Prog (List ChatEvent))
  | .locking next, .acquired ids => if s.lock = none then some (locked cfg n ids next) else none
  | .starting runId commandId, .ready =>
    if .accepted n ∈ s.log then some (submitted cfg n runId commandId) else none
  | .starting .., .raised => some (do Run.modify unlock; Run.raise .client)
  | .starting .., .cancelled => some (do Run.modify unlock; Run.raise .cancelled)
  | .cancelling task runId startId cancelId, .ready =>
    (s.taskResult task).map (taskEnded task runId startId cancelId)
  | .cancelling task runId startId cancelId, .timeout => some (Run.suspend (.locking (.expired task runId startId cancelId)))
  | .reading run runId startId cancelId polling, .snapshots start cancel =>
    if cancelId.isSome = cancel.isSome then some (snapshotsRead run runId startId start cancel polling) else none
  | .reading .., .raised => some (Run.raise .client)
  | .sleeping polling, .ready => some (slept polling)
  | _, .cancelled => some (Run.raise .cancelled)
  | _, _ => none

/-- Where a stretch ends is where the call is suspended next, or how it has ended. -/
def settleCall (n : ℕ) (m : Prog (List ChatEvent)) (s : ChatLoop) : ChatLoop :=
  match m s with
  | .ok events u => { u.observe (.returned n events) with calls := Function.update u.calls n (some (.returned events)) }
  | .raise e u => { u with calls := Function.update u.calls n (some (.raised e)) }
  | .park point u => { u with calls := Function.update u.calls n (some (.at point)) }

def setStage (s : ChatLoop) (task : ℕ) (t : CancelTask) (stage : TaskStage) : ChatLoop :=
  { s with tasks := Function.update s.tasks task (some { t with stage }) }

/-- `_supervise_cancel_task`. -/
def superviseCancelTask (s : ChatLoop) (task : ℕ) (result : TaskResult) : ChatLoop :=
  if result = .done then s.acceptCancel task else s

def step (s : ChatLoop) : LoopAction → Option ChatLoop
  | .begin n request => if s.calls n = none then some (settleCall n (beginCall request) s) else none
  | .resume n signal =>
    match s.calls n with
    | some (.at point) => (resumeCall cfg s n point signal).map fun m => settleCall n m s
    | _ => none
  | .accept n =>
    if (s.log.any fun t => match t with | .started m _ => m = n | _ => false) ∧ .accepted n ∉ s.log then
      some (s.observe (.accepted n))
    else none
  | .invoke k => do
    let t ← s.tasks k
    if t.stage = .created then return (s.setStage k t .invoked).observe (.cancelCalled t.run t.request) else none
  | .finish k result => do
    let t ← s.tasks k
    if t.stage = .invoked ∨ (t.stage = .created ∧ result = .cancelled) then
      return s.setStage k t (.ended result true)
    else none
  | .callback k => do
    let t ← s.tasks k
    match t.stage with
    | .ended result true => return (s.setStage k t (.ended result false)).superviseCancelTask k result
    | _ => none
  | .tick now => if s.now ≤ now then some { s with now } else none

/-- The constructor refuses a blank session. -/
def Init (s : ChatLoop) : Prop := ∃ session, !Text.isBlank session ∧ s = { controller := { session } }

end ChatLoop
end Chat
end HarnessSdk
