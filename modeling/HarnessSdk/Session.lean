import HarnessSdk.Coroutine
import HarnessSdk.Ports
import HarnessSdk.RelayControl
import HarnessSdk.ToolSchema

/-!
# The state of a managed session

One `Session` holds the fields of `ManagedRealtimeSession` together with the tasks that
run its methods. `Shared` is the part that other sessions of the same recovery state and
the same client can write. The log is a record of what happened; no program reads it.
-/

namespace HarnessSdk

abbrev TaskId := ℕ

/-- The constructor arguments of a session that never change. `eventSize` is the length
of the JSON text of an event that carries no audio. -/
structure SessionConfig (A : Type) where
  adapter : ProviderAdapter A
  initialAdapter : A
  request : RealtimeOpenRequest
  capability : RealtimeCapability
  generation : ℕ
  correlation : String := ""
  hasDispatcher : Bool := true
  clientEvents : Dict String String := ∅
  digest : String → Role → Bool → String
  eventSize : RealtimeEvent → ℕ
  loads : String → Except LoadFailure Json

/-- The recovery record of the external session id, whether the client still counts this
session as its latest, and the client's seen calls. -/
structure Shared where
  state : SessionState := {}
  clientCurrent : Bool := true
  clientSeen : Finset String := ∅

/-- The arguments of `append_message`, `update_instructions` and `out_of_band_response`. -/
inductive ContextRequest
  | appendMessage (text : String) (role : Role) (trigger : Bool) (key : Option String)
  | updateInstructions (text : String) (trigger : Bool)
  | outOfBandResponse (text : String)
  deriving DecidableEq

/-- A product call on the session. -/
inductive Call
  | sendAudio (pcm : Bytes)
  | cancelResponse
  | truncateOutput (itemId : String) (contentIndex audioEndMs : ℤ)
  | submitToolResult (callId output : String)
  | context (request : ContextRequest)
  | close (reason : String)
  deriving DecidableEq

/-- The coroutine that a task runs. -/
inductive TaskKind
  | start
  | receiver
  | call (call : Call)
  | controlledClose (reason : String)
  | attempt (callId output : String)
  | dispatch (call : ToolCallRequested) (invalid : Bool)
  deriving DecidableEq

/-- The local variables of `_inject_context`. -/
structure Injection where
  event : ClientEvent
  trigger : Bool
  key : Option String

/-- Why a frame is handed to `send_text`. -/
inductive Purpose
  | start
  | audio (bytes : ℕ)
  | plain
  | inject (injection : Injection)
  | trigger (injection : Injection)
  | result (callId : String)
  | followup (callId : String)
  | close (reason : String)

/-- The `finally` clauses that stand around a suspension point. -/
inductive Frame
  | plain
  | audio (bytes : ℕ)
  | lock
  | injection (eventId : String)
  deriving DecidableEq

/-- What a task does after `_shutdown_connection`: return, or raise an error that carries
the first failure. -/
inductive After
  | done
  | raise (error : RealtimeError) (frame : Frame)
  deriving DecidableEq

inductive TaskOutcome
  | returned
  | raised (error : Exn)
  deriving DecidableEq

/-- Where a task stands. A task is `running` only inside a step. -/
inductive TaskState
  | created
  | running
  | receiving
  | sending (purpose : Purpose) (event : ClientEvent)
  | awaitingLock (request : ContextRequest)
  | awaitingContextAck (injection : Injection)
  | awaitingToolAck (callId : String)
  | awaitingCloseAck (reason : String)
  | awaitingAttempt (attempt : TaskId) (callId output : String)
  | awaitingClose (task : TaskId)
  | dispatching (call : ToolCallRequested)
  | closingConnection (after : After)
  | joiningReceiver (after : After)
  | finished (outcome : TaskOutcome)

structure Task where
  kind : TaskKind
  state : TaskState
  cancelRequested : Bool := false

structure TerminalState where
  owner : Option (CloseInitiator × CloseDisposition) := none
  closing : Bool := false
  sequenceStarted : Bool := false
  published : Bool := false
  shutdownComplete : Bool := false
  errorCode : Option RealtimeErrorCode := none

/-- The future `_close_ack`. -/
inductive CloseAck
  | pending
  | acknowledged (closed : SessionClosed)
  | cancelled
  deriving DecidableEq

structure ControlledCloseState where
  task : Option TaskId := none
  reason : Option String := none
  ack : Option CloseAck := none
  pendingEventId : Option String := none
  ackTimeouts : ℕ := 0
  ackMismatches : ℕ := 0

/-- The event queue and its two gauges. -/
structure OutputQueue where
  events : List RealtimeEvent := []
  frames : ℕ := 0
  bytes : ℕ := 0

structure InputGauge where
  pendingFrames : ℕ := 0
  pendingBytes : ℕ := 0
  frameCount : ℕ := 0
  byteCount : ℕ := 0

/-- What the session knows about responses, items and content parts. -/
structure ResponseBook where
  responses : Finset String := ∅
  responseOrder : List String := []
  terminalResponses : Finset String := ∅
  cancelledResponses : Finset String := ∅
  items : Finset (String × String) := ∅
  functionCallItems : Finset (String × String × ℕ) := ∅
  completedItems : Finset (String × String) := ∅
  contents : List OutputIdentity := []
  completedContents : List OutputIdentity := []

structure ToolRecord where
  state : ToolCallState := .requested
  output : Option String := none
  /-- `record.ack` is set. -/
  ack : Bool := false
  resultPayload : Option ClientEvent := none
  followupPayload : Option ClientEvent := none
  attempt : Option TaskId := none

structure ToolBook where
  records : Dict String ToolRecord := ∅
  followupWaiting : List String := []

/-- The future that waits for a context acknowledgement. -/
inductive PendingAck
  | waiting
  | acknowledged
  | rejected (error : RealtimeError)
  deriving DecidableEq

structure ContextState where
  pending : Dict String PendingAck := ∅
  ackId : Option String := none
  /-- The owner of `_context_lock` and the tasks queued behind it. -/
  holder : Option TaskId := none
  waiters : List TaskId := []

structure FailureState where
  context : Option RealtimeFailureContext := none
  lastEventType : String := "session.start"
  lastFieldNames : List String := []
  sentEventTypes : Dict String String := ∅

structure Counters where
  late : ℕ := 0
  duplicate : ℕ := 0

/-- What happened, newest first. An event that is put comes with the response book of that moment. -/
inductive Observation
  | put (by_ : TaskId) (event : RealtimeEvent) (book : ResponseBook)
  | drained
  | delivered (event : RealtimeEvent)
  | claimed (by_ : TaskId) (initiator : CloseInitiator) (disposition : CloseDisposition)
  | issued (by_ : TaskId) (purpose : Purpose) (event : ClientEvent)
  | accepted (by_ : TaskId) (purpose : Purpose) (event : ClientEvent)
  | submitReturned (callId output : String)
  | resultAcked (callId : String)
  | dispatched (call : ToolCallRequested)
  | contextAcked (requestId itemId : String)
  | keyClaimed (by_ : TaskId) (key : String)
  | keyConfirmed (key itemId : String)

structure Session (A : Type) where
  adapter : A
  shared : Shared
  terminal : TerminalState := {}
  control : ControlledCloseState := {}
  output : OutputQueue := {}
  input : InputGauge := {}
  book : ResponseBook := {}
  tools : ToolBook := {}
  context : ContextState := {}
  failure : FailureState := {}
  counters : Counters := {}
  ready : Bool := false
  seenEventIds : Finset String := ∅
  receiver : Option TaskId := none
  tasks : List Task := []
  usedIds : Finset String := ∅
  log : List Observation := []

namespace Session

variable {A : Type} (c : SessionConfig A)

def taskState (s : Session A) (t : TaskId) : Option TaskState := (s.tasks[t]?).map Task.state

def taskKind (s : Session A) (t : TaskId) : Option TaskKind := (s.tasks[t]?).map Task.kind

/-- `task.done()`, with its result. -/
def outcome (s : Session A) (t : TaskId) : Option TaskOutcome :=
  match s.taskState t with
  | some (.finished o) => some o
  | _ => none

def setTask (s : Session A) (t : TaskId) (state : TaskState) : Session A :=
  { s with tasks := s.tasks.modify t fun task => { task with state } }

/-- `asyncio.create_task`. -/
def spawn (s : Session A) (kind : TaskKind) : Session A :=
  { s with tasks := s.tasks ++ [{ kind, state := .created }] }

/-- `task.cancel()` for every task of a set. A finished task ignores it. -/
def requestCancel (s : Session A) (p : TaskId → TaskKind → Bool) : Session A :=
  { s with tasks := s.tasks.mapIdx fun t task =>
      match task.state with
      | .finished _ => task
      | _ => { task with cancelRequested := task.cancelRequested || p t task.kind } }

def observe (s : Session A) (o : Observation) : Session A := { s with log := o :: s.log }

/-- `_is_current_generation`. -/
def isCurrent (s : Session A) : Bool :=
  s.shared.clientCurrent && s.shared.state.table.generation == c.generation

/-- The negation of the test in `_require_active`. -/
def isActive (s : Session A) : Bool :=
  s.terminal.owner.isNone && !s.terminal.closing && s.isCurrent c

/-- The newest response that has not finished. -/
def currentResponse (s : Session A) : Option String :=
  s.book.responseOrder.reverse.find? (· ∉ s.book.terminalResponses)

def record (s : Session A) (callId : String) : Option ToolRecord := s.tools.records.get callId

def setRecord (s : Session A) (callId : String) (r : ToolRecord) : Session A :=
  { s with tools := { s.tools with records := s.tools.records.set callId r } }

def late (s : Session A) : Session A :=
  { s with counters := { s.counters with late := s.counters.late + 1 } }

def duplicate (s : Session A) : Session A :=
  { s with counters := { s.counters with duplicate := s.counters.duplicate + 1 } }

/-- `_remember_client_event`. -/
def remember (s : Session A) (event : ClientEvent) : Session A :=
  { s with failure := { s.failure with
      sentEventTypes := s.failure.sentEventTypes.set event.eventId event.type } }

end Session

/-! Failure contexts. -/

/-- The optional arguments of `_capture_failure`. -/
structure FailureArgs where
  event : Option (String × List String) := none
  eventId : Option String := none
  error : Option RealtimeError := none
  relatedEventId : Option String := none
  clientEventType : Option String := none
  controlCode : Option RealtimeErrorCode := none
  messageClass : Option String := none
  retryable : Option Bool := none
  fatal : Option Bool := none
  retryAfterMs : Option ℤ := none

/-- The arguments that stand for a client event. -/
def FailureArgs.ofEvent (event : ClientEvent) : FailureArgs :=
  { event := some (event.type,event.fieldNames), eventId := some event.eventId }

/-- The arguments that stand for an event without an id or other fields. -/
def FailureArgs.ofType (type : String) : FailureArgs := { event := some (type,["type"]) }

/-- The stages whose failed event is one that the session sent. -/
def clientStages : List String :=
  ["provider.send", "context.ack_timeout", "tool.ack_timeout", "close.ack_timeout"]

namespace FailureState

def build (f : FailureState) (generation : ℕ) (stage : String) (args : FailureArgs) :
    RealtimeFailureContext :=
  let eventType := args.event.elim f.lastEventType Prod.fst
  { stage, eventType, generation
    fieldNames := args.event.elim f.lastFieldNames Prod.snd
    validationField := (args.error.bind RealtimeError.validationField).filter fun name =>
      decide (name ∈ safeFailureFields ++
        ["fields", "response.id", "item.id", "item.call_id", "session.id"])
    validationReason := args.error.map fun e =>
      match e.validationReason with
      | some reason => if reason ∈ failureReasons then reason else "validation_failed"
      | none => "validation_failed"
    relatedEventId := args.relatedEventId.orElse fun _ =>
      args.eventId.filter (· ∈ f.sentEventTypes)
    clientEventType := (args.clientEventType.filter (· ≠ "")).orElse fun _ =>
      if args.event.isSome ∧ stage ∈ clientStages then some eventType else none
    controlCode := args.controlCode
    messageClass := args.messageClass
    retryable := args.retryable
    fatal := args.fatal
    retryAfterMs := args.retryAfterMs }

/-- `_capture_failure`: only the first failure is kept. -/
def capture (f : FailureState) (generation : ℕ) (stage : String) (args : FailureArgs) : FailureState :=
  match f.context with
  | some _ => f
  | none => { f with context := some (f.build generation stage args) }

end FailureState

namespace Session

variable {A : Type} (c : SessionConfig A)

def capture (s : Session A) (stage : String) (args : FailureArgs := {}) : Session A :=
  { s with failure := s.failure.capture c.generation stage args }

/-! The event queue. -/

/-- `_event_size`. -/
def eventSize : RealtimeEvent → ℕ
  | .provider (.outputAudio _ data) => data.length
  | event => c.eventSize event

def hasRoom (s : Session A) (event : RealtimeEvent) : Bool :=
  decide (s.output.frames + 1 ≤ c.capability.limits.outputQueueFrames) &&
    decide (s.output.bytes + eventSize c event ≤ c.capability.limits.outputQueueBytes)

/-- `put_nowait` with both gauges. -/
def put (s : Session A) (t : TaskId) (event : RealtimeEvent) : Session A :=
  { s with output := ⟨s.output.events ++ [event],s.output.frames + 1,s.output.bytes + eventSize c event⟩
           log := .put t event s.book :: s.log }

/-- Throw away everything that is queued. -/
def drain (s : Session A) : Session A := { s with output := {}, log := .drained :: s.log }

/-- `_emit_terminal_safe`: only the first event of a terminal sequence may drop the queue
to get in; the later ones are put behind it without a check. -/
def putTerminalSafe (s : Session A) (t : TaskId) (event : RealtimeEvent) : Session A :=
  let s' := { s with terminal := { s.terminal with sequenceStarted := true } }
  if s.terminal.sequenceStarted || s.hasRoom c event then s'.put c t event
  else s'.drain.put c t event

end Session

/-- The argument of `_finish_terminal`. -/
inductive TerminalEvent
  | failed (failed : SessionFailed)
  | closed (closed : SessionClosed)

namespace TerminalEvent

def errorCode : TerminalEvent → Option RealtimeErrorCode
  | failed f => some f.code
  | closed _ => none

/-- The event that is published, with the first failure. -/
def event (failure : Option RealtimeFailureContext) : TerminalEvent → RealtimeEvent
  | failed f => .provider (.sessionFailed { f with failure })
  | closed e => .sessionClosed { e with failure }

end TerminalEvent

namespace Session

variable {A : Type} (c : SessionConfig A)

/-- `_claim_terminal` on a session without an owner. -/
def claim (s : Session A) (t : TaskId) (initiator : CloseInitiator) (disposition : CloseDisposition) :
    Session A :=
  { s with terminal := { s.terminal with owner := some (initiator,disposition) }
           log := .claimed t initiator disposition :: s.log }

/-- `_claim_clean_close_intent` on a session without an owner. -/
def claimClean (s : Session A) (t : TaskId) : Session A :=
  let s := s.claim t .client .clean
  { s with terminal := { s.terminal with closing := true } }

/-- Put the terminal on the queue and end the stream behind it. -/
def putTerminal (s : Session A) (t : TaskId) (event : RealtimeEvent) : Session A :=
  let s := s.putTerminalSafe c t event
  { s with terminal := { s.terminal with published := true } }

/-- `_finish_terminal` on a session without an owner, up to the shutdown. -/
def publish (s : Session A) (t : TaskId) (e : TerminalEvent) (initiator : CloseInitiator)
    (disposition : CloseDisposition) : Session A :=
  let s := s.claim t initiator disposition
  let s := { s with terminal := { s.terminal with errorCode := e.errorCode } }
  let s := match e with
    | .failed _ => s.capture c "adapter.apply"
    | .closed _ => s
  s.putTerminal c t (e.event s.failure.context)

/-- The error of a call on a session that is not active. -/
def closedError (s : Session A) : RealtimeError :=
  { code := .cancelled, message := "session is closed", failure := s.failure.context }

/-- `_shutdown_connection` up to the close of the connection: nobody is left waiting for a
context acknowledgement and the other tool tasks are cancelled. -/
def beginShutdown (s : Session A) (t : TaskId) : Session A :=
  let error : RealtimeError := { code := .cancelled, failure := s.failure.context }
  let s := s.requestCancel fun j kind =>
    match kind with
    | .dispatch .. => decide (j ≠ t)
    | _ => false
  { s with
    terminal := { s.terminal with shutdownComplete := true }
    context := { s.context with pending := s.context.pending.mapValues fun p =>
      match p with
      | .waiting => .rejected error
      | p => p } }

/-- The `finally` clauses of a frame. -/
def cleanup (s : Session A) : Frame → Session A
  | .plain => s
  | .audio bytes =>
    { s with input := { s.input with pendingFrames := s.input.pendingFrames - 1
                                     pendingBytes := s.input.pendingBytes - bytes } }
  | .lock => { s with context := { s.context with holder := none } }
  | .injection eventId =>
    { s with context := { s.context with pending := s.context.pending.erase eventId, holder := none } }

end Session

/-- The `finally` clauses around a send. -/
def Purpose.frame : Purpose → Frame
  | .audio bytes => .audio bytes
  | .inject injection | .trigger injection => .injection injection.event.eventId
  | _ => .plain

/-! Programs of the session's tasks that end in its terminal. -/

/-- A stretch of one of the session's methods. -/
abbrev Prog (A : Type) (α : Type) := Run (Session A) TaskState Exn α

namespace Session

variable {A : Type} (c : SessionConfig A)

def raiseError {α : Type} (code : RealtimeErrorCode) (message : String := code.value) : Prog A α :=
  Run.raise (.realtime { code, message })

/-- Hand a frame to `send_text` and wait for it. -/
def issue (t : TaskId) (purpose : Purpose) (event : ClientEvent) : Prog A Unit := do
  Run.modify fun s => s.observe (.issued t purpose event)
  Run.suspend (.sending purpose event)

/-- `_require_active`. -/
def requireActive : Prog A Unit := do
  let s ← Run.get
  if s.isActive c then pure () else Run.raise (.realtime s.closedError)

/-- `_shutdown_connection`: the first caller closes the connection. -/
def shutdownConnection (t : TaskId) (after : After) : Prog A Unit := do
  let s ← Run.get
  if s.terminal.shutdownComplete then pure ()
  else do
    Run.modify fun s => s.beginShutdown t
    Run.suspend (.closingConnection after)

/-- `_finish_terminal`: only the task that claims the terminal publishes it. -/
def finishTerminal (t : TaskId) (e : TerminalEvent) (initiator : CloseInitiator)
    (disposition : CloseDisposition) (after : After) : Prog A Unit := do
  let s ← Run.get
  if s.terminal.owner.isSome then pure ()
  else do
    Run.modify fun s => s.publish c t e initiator disposition
    shutdownConnection t after

/-- `_fail`. -/
def fail (t : TaskId) (code : RealtimeErrorCode) (retryable : Bool) (after : After) : Prog A Unit :=
  finishTerminal c t (.failed { code, retryable }) .provider (if retryable then .retryable else .fatal)
    after

/-- `await self._fail(..)` and then an error with the first failure. -/
def failAndRaise (t : TaskId) (code : RealtimeErrorCode) (retryable : Bool) (error : RealtimeError)
    (frame : Frame) : Prog A Unit := do
  fail c t code retryable (.raise error frame)
  let s ← Run.get
  Run.raise (.realtime { error with failure := s.failure.context })

/-- The `except` clauses of `_send_runtime_event`. -/
def sendFailed (t : TaskId) (purpose : Purpose) (event : ClientEvent) : Exn → Prog A Unit
  | .cancelled => Run.raise .cancelled
  | .realtime e => do
    Run.modify fun s => s.capture c "provider.send" { FailureArgs.ofEvent event with error := some e }
    failAndRaise c t e.code e.retryable e purpose.frame
  | .exception => do
    Run.modify fun s => s.capture c "provider.send" (FailureArgs.ofEvent event)
    failAndRaise c t .unavailable true
      { code := .unavailable, message := "provider write failed", retryable := true } purpose.frame

def sendTimedOut (t : TaskId) (purpose : Purpose) (event : ClientEvent) : Prog A Unit := do
  Run.modify fun s => s.capture c "provider.send" (FailureArgs.ofEvent event)
  failAndRaise c t .timeout true
    { code := .timeout, message := "provider write timed out", retryable := true } purpose.frame

/-- `_send_runtime_event` up to the suspension in `send_text`. -/
def sendRuntimeEvent (t : TaskId) (purpose : Purpose) (event : ClientEvent) : Prog A Unit := do
  Run.modify fun s => s.remember event
  match c.adapter.encodeClientEvent event with
  | .ok () => issue t purpose event
  | .error e => sendFailed c t purpose event e

end Session
end HarnessSdk
