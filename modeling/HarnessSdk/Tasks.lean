import HarnessSdk.Receive
import HarnessSdk.Transition

/-!
# Tasks and steps of a session

A step starts a product call, resumes one suspended task with what it waited for, hands an
event to the consumer, or lets another session write the shared part. The task runs to its
next suspension. Every step brings a fresh string for the event id that it may need.
-/

namespace HarnessSdk

/-- What a suspended task is resumed with. -/
inductive Signal
  | ready
  | timeout
  | raised (e : Exn)
  | cancelled
  | frame (payload : Payload)
  | eof
  | output (output : Option String)

namespace Session

variable {A : Type} (c : SessionConfig A)

def eventId (fresh : String) : String := "event_" ++ fresh

/-! Product calls up to their first suspension. -/

def sendAudio (t : TaskId) (fresh : String) (pcm : Bytes) : Prog A Unit := do
  requireActive c
  let s ← Run.get
  let limits := c.capability.limits
  if !s.ready then raiseError .busy "session is not ready"
  else if pcm.length = 0 ∨ pcm.length % 2 ≠ 0 then
    raiseError .invalidRequest "PCM must contain whole samples"
  else if pcm.length > limits.inputAudioEventBytes then raiseError .invalidRequest "PCM event is too large"
  else if s.input.pendingFrames + 1 > limits.inputQueueFrames then
    raiseError .busy "input frame queue is full"
  else if s.input.pendingBytes + pcm.length > limits.inputQueueBytes then
    raiseError .busy "input byte queue is full"
  else do
    Run.modify fun s => { s with input := { s.input with
      pendingFrames := s.input.pendingFrames + 1, pendingBytes := s.input.pendingBytes + pcm.length } }
    Run.ensuring (do
        let event ← Run.ofExcept (c.adapter.audioAppend fresh pcm)
        sendRuntimeEvent c t (.audio pcm.length) event)
      fun s => s.cleanup (.audio pcm.length)

def cancelResponse (t : TaskId) (fresh : String) : Prog A Unit := do
  requireActive c
  if !c.capability.features.cancelResponse then raiseError .unsupported
  else do
    let s ← Run.get
    match s.currentResponse with
    | none => pure ()
    | some responseId => do
      Run.modify fun s => { s with book := { s.book with
        cancelledResponses := insert responseId s.book.cancelledResponses } }
      sendRuntimeEvent c t .plain (c.adapter.cancelResponse fresh (some responseId))

def truncateOutput (t : TaskId) (fresh itemId : String) (contentIndex audioEndMs : ℤ) : Prog A Unit := do
  requireActive c
  if !c.capability.features.truncateOutput then raiseError .unsupported
  else do
    let event ← Run.ofExcept (c.adapter.truncateOutput fresh itemId contentIndex audioEndMs)
    sendRuntimeEvent c t .plain event

/-- The attempt of a record that is not done. -/
def liveAttempt (s : Session A) (r : ToolRecord) : Option TaskId :=
  r.attempt.filter fun j => (s.outcome j).isNone

/-- `submit_tool_result` up to the wait for the shared attempt. The record's lock is free
whenever a task runs, so the second `_require_active` sees the state of the first. -/
def submitToolResult (callId output : String) : Prog A Unit := do
  requireActive c
  if !c.capability.features.toolCalling then raiseError .unsupported
  else if output = "" ∨ output.utf8ByteSize > c.capability.limits.toolPayloadBytes then
    raiseError .invalidRequest "invalid tool output"
  else do
    let s ← Run.get
    match s.record callId with
    | none => raiseError .invalidRequest "unknown tool call"
    | some r =>
      if r.output.any (· ≠ output) then raiseError .invalidRequest "tool output changed"
      else
        match s.liveAttempt r with
        | some j => Run.suspend (.awaitingAttempt j callId output)
        | none => do
          let j := s.tasks.length
          Run.modify fun s =>
            (s.spawn (.attempt callId output)).setRecord callId { r with attempt := some j }
          Run.suspend (.awaitingAttempt j callId output)

/-- `_validate_context`. -/
def validateContext (text : String) : Prog A Unit := do
  requireActive c
  let s ← Run.get
  if !s.ready then raiseError .busy "session is not ready"
  else if Text.isBlank text ∨ text.toList.contains (Char.ofNat 0) ∨
      text.utf8ByteSize > c.capability.limits.toolPayloadBytes then
    raiseError .invalidRequest "invalid context text"
  else pure ()

/-- `_inject_context` up to the suspension in `send_text`. -/
def injectContext (t : TaskId) (injection : Injection) : Prog A Unit := do
  requireActive c
  let identity := injection.event.eventId
  Run.modify fun s => { s with context := { s.context with
    pending := s.context.pending.set identity .waiting } }
  Run.ensuring (sendRuntimeEvent c t (.inject injection) injection.event) fun s =>
    { s with context := { s.context with pending := s.context.pending.erase identity } }

/-- Build the event, which changes the adapter's state, and inject it. -/
def injectBuilt (t : TaskId) (trigger : Bool) (key : Option String)
    (build : A → Except Exn (ClientEvent × A)) : Prog A Unit := do
  let s ← Run.get
  let (event,adapter) ← Run.ofExcept (build s.adapter)
  Run.modify fun s => { s with adapter }
  injectContext c t { event, trigger, key }

def injectMessage (t : TaskId) (fresh text : String) (role : Role) (trigger : Bool) (key : Option String) :
    Prog A Unit :=
  injectBuilt c t trigger key fun a => .ok (c.adapter.appendMessage fresh text role a)

/-- The part of a context call that holds `_context_lock`. -/
def contextBody (t : TaskId) (fresh : String) : ContextRequest → Prog A Unit
  | .appendMessage text role trigger none => injectMessage c t fresh text role trigger none
  | .appendMessage text role trigger (some key) => do
    let s ← Run.get
    match s.shared.state.claimMessage key (c.digest text role trigger) with
    | .error e => Run.raise e
    | .ok (some prior,_) =>
      Run.modify fun s => { s with context := { s.context with ackId := some prior } }
    | .ok (none,state) => do
      Run.modify fun s => { s with shared := { s.shared with state }, log := .keyClaimed t key :: s.log }
      injectMessage c t fresh text role trigger (some key)
  | .updateInstructions text trigger =>
    injectBuilt c t trigger none fun a => .ok (c.adapter.updateInstructions fresh text a)
  | .outOfBandResponse text => injectBuilt c t false none (c.adapter.outOfBandResponse fresh text)

def ContextRequest.text : ContextRequest → String
  | .appendMessage text .. | .updateInstructions text _ | .outOfBandResponse text => text

def ContextRequest.validRole : ContextRequest → Bool
  | .appendMessage _ role .. => role != .assistant
  | _ => true

/-- Run the body with the lock, or queue up behind the tasks that wait for it. -/
def contextCall (t : TaskId) (fresh : String) (request : ContextRequest) : Prog A Unit := do
  validateContext c (ContextRequest.text request)
  if !ContextRequest.validRole request then raiseError .invalidRequest "invalid message role"
  else do
    let s ← Run.get
    if s.context.holder.isNone && s.context.waiters.isEmpty then do
      Run.modify fun s => { s with context := { s.context with holder := some t } }
      Run.ensuring (contextBody c t fresh request) fun s => s.cleanup .lock
    else do
      Run.modify fun s => { s with context := { s.context with waiters := s.context.waiters ++ [t] } }
      Run.suspend (.awaitingLock request)

/-- The wait for the close task. -/
def awaitClose (j : TaskId) : Prog A Unit := do
  let s ← Run.get
  match s.outcome j with
  | some .returned => pure ()
  | some (.raised e) => Run.raise e
  | none => Run.suspend (.awaitingClose j)

/-- `close`: the first call starts the close task and fixes its reason. -/
def close (reason : String) : Prog A Unit := do
  let s ← Run.get
  match s.control.task with
  | none => do
    let j := s.tasks.length
    Run.modify fun s =>
      let s := s.spawn (.controlledClose reason)
      { s with control := { s.control with task := some j, reason := some reason } }
    awaitClose j
  | some j =>
    if s.control.reason ≠ some reason then raiseError .invalidRequest "close reason cannot change"
    else awaitClose j

def callProg (t : TaskId) (fresh : String) : Call → Prog A Unit
  | .sendAudio pcm => sendAudio c t fresh pcm
  | .cancelResponse => cancelResponse c t fresh
  | .truncateOutput itemId contentIndex audioEndMs => truncateOutput c t fresh itemId contentIndex audioEndMs
  | .submitToolResult callId output => submitToolResult c callId output
  | .context request => contextCall c t fresh request
  | .close reason => close reason

/-! The tool attempt. -/

/-- The first stage fixes the output and builds the result frame once. -/
def prepareResult (fresh callId output : String) : Prog A Unit := do
  let s ← Run.get
  match s.record callId with
  | none => Run.raise .exception
  | some r =>
    if r.state ≠ .requested then pure ()
    else do
      let event := c.adapter.toolResult fresh callId output
      let r := { r with output := some output, ack := false }
      Run.modify fun s => (s.setRecord callId r).remember event
      Run.ofExcept (c.adapter.encodeClientEvent event)
      Run.modify fun s => s.setRecord callId { r with resultPayload := some event, state := .resultSent }

def requestFollowup (s : Session A) (callId : String) (r : ToolRecord) (event : ClientEvent) : Session A :=
  let s := s.setRecord callId { r with followupPayload := some event, state := .followupRequested }
  if callId ∈ s.tools.followupWaiting then s
  else { s with tools := { s.tools with followupWaiting := s.tools.followupWaiting ++ [callId] } }

/-- The third stage builds the follow-up frame once, after the acknowledgement. -/
def prepareFollowup (fresh callId : String) : Prog A Unit := do
  let s ← Run.get
  match s.record callId with
  | none => Run.raise .exception
  | some r =>
    if r.state ≠ .resultAcked then pure ()
    else do
      let event := c.adapter.followupResponse fresh callId s.adapter
      Run.modify fun s => s.remember event
      Run.ofExcept (c.adapter.encodeClientEvent event)
      Run.modify fun s => s.requestFollowup callId r event

/-- The stages from `RESULT_ACKED` on. -/
def followupStage (t : TaskId) (fresh callId : String) : Prog A Unit := do
  prepareFollowup c fresh callId
  let s ← Run.get
  match s.record callId with
  | none => Run.raise .exception
  | some r =>
    if r.state ≠ .followupRequested then pure ()
    else
      match r.followupPayload with
      | none => Run.raise .exception
      | some event => issue t (.followup callId) event

/-- `_submit_tool_result_attempt` from its first line. -/
def attempt (t : TaskId) (fresh callId output : String) : Prog A Unit := do
  prepareResult c fresh callId output
  let s ← Run.get
  match s.record callId with
  | none => Run.raise .exception
  | some r =>
    if r.state ≠ .resultSent then followupStage c t fresh callId
    else
      match r.resultPayload with
      | none => Run.raise .exception
      | some event => issue t (.result callId) event

/-- The wait for the acknowledgement, once the result frame is accepted. -/
def awaitToolAck (t : TaskId) (fresh callId : String) : Prog A Unit := do
  let s ← Run.get
  match s.record callId with
  | none => Run.raise .exception
  | some r =>
    if r.ack then followupStage c t fresh callId else Run.suspend (.awaitingToolAck callId)

/-- `_record_attempt_failure`: the failure of one attempt is not the session's. -/
def attemptFailure (event : ClientEvent) : RealtimeFailureContext :=
  { stage := "provider.send", eventType := event.type, generation := c.generation
    fieldNames := event.fieldNames, clientEventType := some event.type }

/-- The `except` clauses around the two sends of an attempt. -/
def attemptSendFailed (purpose : Purpose) (event : ClientEvent) (code : RealtimeErrorCode) : Prog A Unit :=
  let message := match purpose with
    | .result _ => "tool result send is ambiguous; retry the same output"
    | _ => "followup response send is ambiguous; retry the same output"
  Run.raise (.realtime { code, message, retryable := true, failure := some (attemptFailure c event) })

def toolAckTimedOut (t : TaskId) (callId : String) : Prog A Unit := do
  let s ← Run.get
  match (s.record callId).bind ToolRecord.resultPayload with
  | none => Run.raise .exception
  | some event => do
    Run.modify fun s => s.capture c "tool.ack_timeout"
      { FailureArgs.ofEvent event with relatedEventId := some event.eventId }
    failAndRaise c t .protocolError false
      { code := .protocolError, message := "ambiguous tool result acknowledgement" } .plain

/-! Dispatch of a tool call. -/

/-- `except RealtimeError` of `_dispatch_tool`. -/
def swallow (m : Prog A Unit) : Prog A Unit := Run.handle m fun
  | .realtime _ => pure ()
  | e => Run.raise e

/-- The JSON text of an object with one `error` member. -/
def errorOutput (name : String) : String := "\x7b\"error\":\"" ++ name ++ "\"\x7d"

/-- `_dispatch_tool` from its first line. -/
def dispatchTool (call : ToolCallRequested) (invalid : Bool) : Prog A Unit := swallow do
  requireActive c
  if invalid then submitToolResult c call.callId (errorOutput "invalid_arguments")
  else do
    Run.modify fun s => s.observe (.dispatched call)
    Run.suspend (.dispatching call)

/-- What is submitted for the dispatcher's answer. -/
def dispatchOutput : Signal → String
  | .output (some output) =>
    if output = "" ∨ output.utf8ByteSize > c.capability.limits.toolPayloadBytes then
      errorOutput "invalid_tool_output"
    else output
  | .output none => errorOutput "invalid_tool_output"
  | .timeout => errorOutput "tool_timeout"
  | _ => errorOutput "tool_failed"

def dispatchAnswered (call : ToolCallRequested) (signal : Signal) : Prog A Unit := swallow do
  requireActive c
  submitToolResult c call.callId (dispatchOutput c signal)

/-- The shared attempt has ended. -/
def attemptEnded (j : TaskId) (callId output : String) : Prog A Unit := do
  let s ← Run.get
  match s.outcome j with
  | some .returned => Run.modify fun s => s.observe (.submitReturned callId output)
  | some (.raised e) => Run.raise e
  | none => Run.raise .exception

/-! The controlled close. -/

/-- `_build_bound_session_close`. -/
def buildBoundSessionClose (fresh reason : String) : Except Exn ClientEvent :=
  if reason ∈ RelayControl.closeReasons then .ok ⟨"ctl_close_" ++ fresh,.sessionClose reason⟩
  else .error (.realtime { code := .invalidRequest, message := "invalid close reason" })

/-- `_controlled_close` up to the suspension in `send_text`. -/
def controlledClose (t : TaskId) (fresh reason : String) : Prog A Unit := do
  let s ← Run.get
  if s.terminal.owner.isSome then pure ()
  else do
    Run.modify fun s => s.claimClean t
    let event ← Run.ofExcept (buildBoundSessionClose fresh reason)
    Run.modify fun s =>
      let s := s.remember event
      { s with control := { s.control with pendingEventId := some event.eventId, ack := some .pending } }
    issue t (.close reason) event

/-- The current response ends locally, in front of the terminal. -/
def settleResponse (s : Session A) (t : TaskId) : Session A :=
  match s.currentResponse with
  | none => s
  | some responseId =>
    (s.putTerminalSafe c t (.provider (.responseFinished
      { responseId, status := .cancelled, isLocal := true }))).addTerminalResponse responseId

/-- The terminal of a controlled close. -/
def closedEvent (s : Session A) (reason : String) (acknowledgement : Option SessionClosed) : RealtimeEvent :=
  match acknowledgement with
  | some closed => .sessionClosed { closed with reason, failure := s.failure.context }
  | none => .sessionClosed
      { reason, initiator := .client, disposition := .clean, failure := s.failure.context }

def cancelCloseAck (s : Session A) : Session A :=
  match s.control.ack with
  | some .pending => { s with control := { s.control with ack := some .cancelled } }
  | _ => s

/-- The end of the stream after the acknowledgement or its absence. -/
def concludeClose (s : Session A) (t : TaskId) (reason : String) (acknowledgement : Option SessionClosed) :
    Session A :=
  let s := s.cancelCloseAck.settleResponse c t
  s.putTerminal c t (s.closedEvent reason acknowledgement)

def finishClose (t : TaskId) (reason : String) (acknowledgement : Option SessionClosed) : Prog A Unit := do
  Run.modify fun s => s.concludeClose c t reason acknowledgement
  shutdownConnection t .done

/-- `_record_close_ack_timeout`. -/
def recordCloseAckTimeout (s : Session A) : Session A :=
  let s := s.capture c "close.ack_timeout" { FailureArgs.ofType "tokenseller.session.close" with
    relatedEventId := s.control.pendingEventId }
  { s with control := { s.control with ackTimeouts := s.control.ackTimeouts + 1 } }

/-- The close frame could not be sent. -/
def closeSendFailed (t : TaskId) (reason : String) (event : ClientEvent) : Prog A Unit := do
  Run.modify fun s => (s.capture c "provider.send"
    { FailureArgs.ofEvent event with relatedEventId := s.control.pendingEventId }).recordCloseAckTimeout c
  finishClose c t reason none

def awaitCloseAck (t : TaskId) (reason : String) : Prog A Unit := do
  let s ← Run.get
  match s.control.ack with
  | some (.acknowledged closed) => finishClose c t reason (some closed)
  | _ => Run.suspend (.awaitingCloseAck reason)

def closeAckTimedOut (t : TaskId) (reason : String) : Prog A Unit := do
  Run.modify (recordCloseAckTimeout c)
  finishClose c t reason none

/-! Context injections after the send. -/

/-- The confirmed key stores the last acknowledged item id of the session. -/
def confirmInjection (injection : Injection) : Prog A Unit := do
  let s ← Run.get
  match injection.key with
  | none => pure ()
  | some key =>
    match s.context.ackId with
    | none => pure ()
    | some itemId => do
      let state ← Run.ofExcept (s.shared.state.confirmMessage key itemId)
      Run.modify fun s => { s with shared := { s.shared with state }
                                   log := .keyConfirmed key itemId :: s.log }

/-- The rest of `_inject_context` once its frame is acknowledged. -/
def contextAcked (t : TaskId) (fresh : String) (injection : Injection) : Prog A Unit := do
  requireActive c
  confirmInjection injection
  let s ← Run.get
  if injection.trigger && injection.event.type != "response.create" then
    sendRuntimeEvent c t (.trigger injection) (c.adapter.followupResponse fresh "" s.adapter)
  else pure ()

/-- `wait_for(acknowledgement)`. -/
def awaitContextAck (t : TaskId) (fresh : String) (injection : Injection) : Prog A Unit := do
  let s ← Run.get
  match s.context.pending.get injection.event.eventId with
  | some .acknowledged => contextAcked c t fresh injection
  | some (.rejected e) => Run.raise (.realtime e)
  | _ => Run.suspend (.awaitingContextAck injection)

def contextTimedOut (t : TaskId) (injection : Injection) : Prog A Unit := do
  Run.modify fun s => s.capture c "context.ack_timeout"
    { FailureArgs.ofEvent injection.event with relatedEventId := some injection.event.eventId }
  failAndRaise c t .timeout false
    { code := .timeout, message := "context acknowledgement timed out" }
    (.injection injection.event.eventId)

/-! Resuming a suspended task. -/

/-- `send_text` has returned. -/
def sent (t : TaskId) (fresh : String) : Purpose → Prog A Unit
  | .start => Run.modify fun s =>
      let j := s.tasks.length
      { s.spawn .receiver with receiver := some j }
  | .audio bytes => Run.modify fun s => { s with input := { s.input with
      frameCount := s.input.frameCount + 1, byteCount := s.input.byteCount + bytes } }
  | .plain | .trigger _ | .followup _ => pure ()
  | .inject injection => awaitContextAck c t fresh injection
  | .result callId => awaitToolAck c t fresh callId
  | .close reason => awaitCloseAck c t reason

/-- `send_text` has raised. -/
def sendRaised (t : TaskId) (event : ClientEvent) (e : Exn) : Purpose → Prog A Unit
  | .result callId => attemptSendFailed c (.result callId) event .unavailable
  | .followup callId => attemptSendFailed c (.followup callId) event .unavailable
  | .close reason => closeSendFailed c t reason event
  | purpose => sendFailed c t purpose event e

/-- `send_text` has not returned in time. -/
def sendExpired (t : TaskId) (event : ClientEvent) : Purpose → Prog A Unit
  | .result callId => attemptSendFailed c (.result callId) event .timeout
  | .followup callId => attemptSendFailed c (.followup callId) event .timeout
  | .close reason => closeSendFailed c t reason event
  | purpose => sendTimedOut c t purpose event

/-- The end of `_shutdown_connection`. -/
def shutdownEnded : After → Prog A Unit
  | .done => pure ()
  | .raise error frame => Run.ensuring ((do
      let s ← Run.get
      Run.raise (.realtime { error with failure := s.failure.context })) : Prog A Unit) fun s =>
        s.cleanup frame

/-- The connection is closed; the receiver is cancelled and waited for, unless it is this task. -/
def joinReceiver (t : TaskId) (after : After) : Prog A Unit := do
  let s ← Run.get
  match s.receiver.filter (· ≠ t) with
  | none => shutdownEnded after
  | some j => do
    Run.modify fun s => s.requestCancel fun i _ => decide (i = j)
    let s ← Run.get
    if (s.outcome j).isSome then shutdownEnded after else Run.suspend (.joiningReceiver after)

/-- The first stretch of a created task. -/
def startProg (t : TaskId) (fresh : String) : TaskKind → Prog A Unit
  | .receiver => loopTest
  | .controlledClose reason => controlledClose t fresh reason
  | .attempt callId output => attempt c t fresh callId output
  | .dispatch call invalid => dispatchTool c call invalid
  | .start | .call _ => pure ()

/-- The product may cancel its own tasks at any suspension, the session only those that it has
asked to end. Close tasks and attempts are shielded. -/
def mayCancel (task : Task) : Bool :=
  match task.kind with
  | .start | .call _ => true
  | .receiver | .dispatch .. => task.cancelRequested
  | .controlledClose _ | .attempt .. => false

/-- `CancelledError` at a suspension point. -/
def cancelledProg (t : TaskId) : TaskState → Prog A Unit
  | .sending purpose _ => Run.ensuring (Run.raise .cancelled) fun s => s.cleanup purpose.frame
  | .awaitingContextAck injection =>
    Run.ensuring (Run.raise .cancelled) fun s => s.cleanup (.injection injection.event.eventId)
  | .awaitingLock _ => do
    Run.modify fun s => { s with context := { s.context with waiters := s.context.waiters.erase t } }
    Run.raise .cancelled
  | .closingConnection (.raise _ frame) =>
    Run.ensuring (Run.raise .cancelled) fun s => s.cleanup frame
  | .joiningReceiver after => shutdownEnded after
  | _ => Run.raise .cancelled

/-- The program of a task that is resumed with a signal it can receive in its state. -/
def resumeProg (s : Session A) (t : TaskId) (fresh : String) (task : Task) :
    TaskState → Signal → Option (Prog A Unit)
  | .finished _, _ | .running, _ => none
  | state, .cancelled => if mayCancel task then some (cancelledProg t state) else none
  | .created, .ready => some (startProg c t fresh task.kind)
  | .receiving, .frame payload => some (receiveFrame c t payload)
  | .receiving, .eof => some (receiveEof c t)
  | .receiving, .raised e => if e = .cancelled then none else some (receiveRaised c t e)
  | .sending purpose event, .ready => some (do
      Run.modify fun s => s.observe (.accepted t purpose event)
      Run.ensuring (sent c t fresh purpose) fun s => s.cleanup purpose.frame)
  | .sending purpose event, .timeout =>
    some (Run.ensuring (sendExpired c t event purpose) fun s => s.cleanup purpose.frame)
  | .sending purpose event, .raised e =>
    if e = .cancelled then none
    else some (Run.ensuring (sendRaised c t event e purpose) fun s => s.cleanup purpose.frame)
  | .awaitingLock request, .ready =>
    if s.context.holder.isNone && s.context.waiters.head? == some t then some (do
      Run.modify fun s => { s with context := { s.context with
        holder := some t, waiters := s.context.waiters.tail } }
      Run.ensuring (contextBody c t fresh request) fun s => s.cleanup .lock)
    else none
  | .awaitingContextAck injection, .ready =>
    match s.context.pending.get injection.event.eventId with
    | some .acknowledged | some (.rejected _) =>
      some (Run.ensuring (awaitContextAck c t fresh injection) fun s =>
        s.cleanup (.injection injection.event.eventId))
    | _ => none
  | .awaitingContextAck injection, .timeout =>
    some (Run.ensuring (contextTimedOut c t injection) fun s =>
      s.cleanup (.injection injection.event.eventId))
  | .awaitingToolAck callId, .ready =>
    if (s.record callId).any ToolRecord.ack then some (followupStage c t fresh callId) else none
  | .awaitingToolAck callId, .timeout => some (toolAckTimedOut c t callId)
  | .awaitingCloseAck reason, .ready =>
    match s.control.ack with
    | some (.acknowledged closed) => some (finishClose c t reason (some closed))
    | _ => none
  | .awaitingCloseAck reason, .timeout => some (closeAckTimedOut c t reason)
  | .awaitingAttempt j callId output, .ready =>
    if (s.outcome j).isSome then
      some (match task.kind with
        | .dispatch .. => swallow (attemptEnded j callId output)
        | _ => attemptEnded j callId output)
    else none
  | .awaitingClose j, .ready => if (s.outcome j).isSome then some (awaitClose j) else none
  | .dispatching call, .output output => some (dispatchAnswered c call (.output output))
  | .dispatching call, .timeout => some (dispatchAnswered c call .timeout)
  | .dispatching call, .raised e => if e = .cancelled then none else some (dispatchAnswered c call (.raised e))
  | .closingConnection after, .ready | .closingConnection after, .timeout => some (joinReceiver t after)
  | .closingConnection after, .raised e => if e = .cancelled then none else some (joinReceiver t after)
  | .joiningReceiver after, .ready =>
    if (s.receiver.bind s.outcome).isSome then some (shutdownEnded after) else none
  | .joiningReceiver after, .timeout => some (shutdownEnded after)
  | _, _ => none

/-- Run a program as a task: what it returns or raises is the task's result. -/
def runTask (t : TaskId) (m : Prog A Unit) (s : Session A) : Session A :=
  match m s with
  | .ok () u => u.setTask t (.finished .returned)
  | .raise e u => u.setTask t (.finished (.raised e))
  | .park p u => u.setTask t p

/-- `events()` takes one event. Events of a superseded session are dropped, but not its terminal. -/
def consume (s : Session A) : Option (Session A) :=
  match s.output.events with
  | [] => none
  | event :: events =>
    let s := { s with output := ⟨events,s.output.frames - 1,s.output.bytes - eventSize c event⟩ }
    some (if !s.isCurrent c && !event.isTerminal then s.late else s.observe (.delivered event))

end Session

/-- The moves of the environment of a session. -/
inductive Action
  | call (call : Call) (fresh : String)
  | resume (task : TaskId) (signal : Signal) (fresh : String)
  | consume
  | interfere (shared : Shared)

namespace Session

variable {A : Type} (c : SessionConfig A)

/-- Two event ids never coincide. -/
def useId (s : Session A) (fresh : String) : Session A := { s with usedIds := insert fresh s.usedIds }

/-- A task gets the processor; a cancellation is delivered once. -/
def wake (s : Session A) (t : TaskId) (signal : Signal) : Session A :=
  { s with tasks := s.tasks.modify t fun task =>
      { task with
        state := .running
        cancelRequested := match signal with
          | .cancelled => false
          | _ => task.cancelRequested } }

def step (s : Session A) : Action → Option (Session A)
  | .call call fresh =>
    if fresh ∈ s.usedIds then none
    else
      let t := s.tasks.length
      let s := { s.useId fresh with tasks := s.tasks ++ [{ kind := .call call, state := .running }] }
      some (runTask t (callProg c t fresh call) s)
  | .resume t signal fresh =>
    if fresh ∈ s.usedIds then none
    else do
      let task ← s.tasks[t]?
      let m ← resumeProg c s t fresh task task.state signal
      some (runTask t m ((s.useId fresh).wake t signal))
  | .consume => s.consume c
  | .interfere shared => some { s with shared }

/-- A session as its constructor leaves it, with the recovery record begun anew. -/
def fresh (shared : Shared) : Session A where
  adapter := c.initialAdapter
  shared := shared
  failure := { sentEventTypes := c.clientEvents }
  tasks := [{ kind := .start, state := .running }]

/-- `start` up to its suspension in `send_text`, after the catalog has been accepted. -/
def startSession (t : TaskId) (fresh : String) : Prog A Unit := do
  let s ← Run.get
  let (event,adapter) ← Run.ofExcept (c.adapter.sessionUpdate fresh c.request s.adapter)
  Run.modify fun s => { s with adapter }
  sendRuntimeEvent c t .start event

/-- The states in which a session begins to run. -/
def Init (s : Session A) : Prop :=
  ∃ shared id, s = runTask 0 (startSession c 0 id) (useId (fresh c shared) id)

/-- The states of all runs, whatever other sessions do to the shared part. -/
abbrev Reachable (s : Session A) : Prop := Transition.Reachable (step c) (Init c) s

end Session
end HarnessSdk
