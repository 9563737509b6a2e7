import HarnessSdk.Session

/-!
# The receive loop

`frameBody` is one round of `_receive_loop` with a frame in hand, `apply` the effect of a
decoded provider event. A stage that answers `false` has failed the session.
-/

namespace HarnessSdk
namespace Session

variable {A : Type} (c : SessionConfig A)

/-- `await self._fail(code, retryable=False); return False`. -/
def refuse (t : TaskId) (code : RealtimeErrorCode := .protocolError) : Prog A Bool := do
  fail c t code false .done
  pure false

/-- `if not p: await self._fail(PROTOCOL_ERROR); return False`. -/
def expect (t : TaskId) (p : Session A → Bool) : Prog A Bool := do
  let s ← Run.get
  if p s then pure true else refuse c t

def update (f : Session A → Session A) : Prog A Bool := do
  Run.modify f
  pure true

/-- `_emit`, and the failure that every caller raises when it returns `False`. -/
def emit (t : TaskId) (event : RealtimeEvent) : Prog A Bool := do
  let s ← Run.get
  if s.hasRoom c event then update fun s => s.put c t event else refuse c t .busy

/-! The stages of `_apply`. -/

/-- Resolve the future that the decoded event rejects. -/
def rejectContext (s : Session A) (requestId : String) : Session A :=
  match s.context.pending.get requestId with
  | some .waiting =>
    { s with context := { s.context with
        pending := s.context.pending.set requestId (.rejected { code := .unsupported }) } }
  | _ => s

/-- Whether the decoded event acknowledges a message under a server item id. -/
def DecodedProviderEvent.ackedItem (d : DecodedProviderEvent) : Option String :=
  if d.sessionAcknowledged || d.introducedResponseId.isSome then none else d.contextAckId

/-- Resolve the future that the decoded event acknowledges. -/
def acknowledgeContext (s : Session A) (d : DecodedProviderEvent) : Session A :=
  match d.contextRequestId.orElse fun _ => d.contextAckId with
  | none => s
  | some requestId =>
    match s.context.pending.get requestId with
    | some .waiting =>
      let context := { s.context with pending := s.context.pending.set requestId .acknowledged }
      match DecodedProviderEvent.ackedItem d with
      | some itemId =>
        { s with context := { context with ackId := some itemId }
                 log := .contextAcked requestId itemId :: s.log }
      | none => { s with context }
    | _ => s

def sessionReady (d : DecodedProviderEvent) : RealtimeEvent :=
  .sessionReady c.generation c.correlation c.capability.inputAudio c.capability.outputAudio
    d.toolsAcknowledged

/-- The first ready event announces the session; before it only acknowledgements may come. -/
def readiness (t : TaskId) (d : DecodedProviderEvent) : Prog A Bool := do
  let s ← Run.get
  if d.providerReady && !s.ready then do
    Run.modify fun s => { s with ready := true }
    emit c t (sessionReady c d)
  else if !s.ready && !d.sessionAcknowledged then refuse c t
  else pure true

/-- At most two live responses, and a new one only over cancelled ones. -/
def admitsResponse (s : Session A) (responseId : String) : Bool :=
  let live := s.book.responses \ s.book.terminalResponses
  decide (responseId ∉ s.book.responses) && decide (responseId ∉ s.book.terminalResponses) &&
    decide (live.card < 2) && decide (live ⊆ s.book.cancelledResponses)

def addResponse (s : Session A) (responseId : String) : Session A :=
  { s with book := { s.book with responses := insert responseId s.book.responses
                                 responseOrder := s.book.responseOrder ++ [responseId] } }

/-- The oldest waiting follow-up takes the new response for its own. -/
def startFollowup (s : Session A) : Session A :=
  match s.tools.followupWaiting with
  | [] => s
  | callId :: waiting =>
    { s with tools := {
        records := match s.tools.records.get callId with
          | some r => s.tools.records.set callId { r with state := .followupStarted }
          | none => s.tools.records
        followupWaiting := waiting } }

def introduceResponse (t : TaskId) : Option String → Prog A Bool
  | none => pure true
  | some responseId => Run.all [
      expect c t fun s => s.admitsResponse responseId,
      update fun s => s.addResponse responseId,
      update startFollowup]

def introduceDetail (t : TaskId) (item : String × String) :
    Option (String × String × ℕ × String) → Prog A Bool
  | none => refuse c t
  | some (responseId,itemId,outputIndex,itemType) => Run.all [
      expect c t fun _ => decide ((responseId,itemId) = item),
      update fun s =>
        if itemType = "function_call" then
          { s with book := { s.book with
              functionCallItems := insert (responseId,itemId,outputIndex) s.book.functionCallItems } }
        else s]

def introduceItem (t : TaskId) (d : DecodedProviderEvent) : Prog A Bool :=
  match d.introducedItem with
  | none => pure true
  | some item => Run.all [
      expect c t fun s => decide (item.1 ∈ s.book.responses),
      expect c t fun s => decide (item ∉ s.book.items),
      update fun s => { s with book := { s.book with items := insert item s.book.items } },
      introduceDetail c t item d.introducedItemDetail]

def introduceContent (t : TaskId) : Option OutputIdentity → Prog A Bool
  | none => pure true
  | some content => Run.all [
      expect c t fun s => decide ((content.responseId,content.itemId) ∈ s.book.items),
      expect c t fun s => decide (content ∉ s.book.contents),
      update fun s => { s with book := { s.book with contents := content :: s.book.contents } }]

/-- The acknowledgement names the call and the output that were sent. -/
def matchesAck (s : Session A) (itemType status callId output : String) : Bool :=
  match s.record callId with
  | some r => decide (r.output = some output) && decide (itemType = "function_call_output") &&
      decide (status = "completed")
  | none => false

def ackResult (s : Session A) (callId : String) : Session A :=
  match s.record callId with
  | some r =>
    if r.state = .resultSent then
      (s.setRecord callId { r with state := .resultAcked, ack := true }).observe (.resultAcked callId)
    else s.duplicate
  | none => s

def acknowledgeTool (t : TaskId) : Option (String × String × String × String × String) → Prog A Bool
  | none => pure true
  | some (_,itemType,status,callId,output) => Run.all [
      expect c t fun s => s.matchesAck itemType status callId output,
      update fun s => s.ackResult callId]

def checkCompleted (t : TaskId) (d : DecodedProviderEvent) : Prog A Bool := Run.all [
  expect c t fun s => d.completedContent.all fun content =>
    decide (content ∈ s.book.contents) && decide (content ∉ s.book.completedContents),
  expect c t fun s => d.completedItem.all fun item =>
    decide (item ∈ s.book.items) && decide (item ∉ s.book.completedItems)]

def complete (d : DecodedProviderEvent) (s : Session A) : Session A :=
  { s with book := { s.book with
      completedContents := d.completedContent.toList ++ s.book.completedContents
      completedItems := d.completedItem.elim s.book.completedItems fun item =>
        insert item s.book.completedItems } }

/-- `_invalid_tool_arguments`. -/
def invalidToolArguments (call : ToolCallRequested) : Bool :=
  if call.argumentsJson.utf8ByteSize > c.capability.limits.toolPayloadBytes then true
  else
    match parseArguments c.loads call.argumentsJson, catalogSchema c.request.tools call.name with
    | some arguments, some schema => !matchesSchema (.obj arguments) schema
    | _, _ => true

def completedSources : List String := ["speech_started", "committed", "transcript"]

/-- A completed transcript of spoken input is forwarded once. -/
def applyTranscript (t : TaskId) (turnId text : String) : Prog A Bool := do
  let s ← Run.get
  let spoken := (s.shared.state.table.lookup turnId).any fun item => decide (item.source ∈ completedSources)
  let forward := emit c t (.provider (.transcriptCompleted turnId text))
  if spoken then
    if turnId ∈ s.shared.state.completedInputs then update duplicate
    else do
      Run.modify fun s => { s with shared := { s.shared with state := { s.shared.state with
        completedInputs := insert turnId s.shared.state.completedInputs } } }
      forward
  else forward

/-- The identity of a tool call event belongs to a live response and a known item. -/
def matchesToolCall (s : Session A) (call : ToolCallRequested)
    (identity : Option (String × String × ℕ × String)) : Bool :=
  match identity with
  | none => false
  | some (responseId,itemId,outputIndex,callId) =>
    decide (responseId = call.responseId) && decide (callId = call.callId) &&
      decide (responseId ∈ s.book.responses) && decide (responseId ∉ s.book.terminalResponses) &&
      decide ((responseId,itemId,outputIndex) ∈ s.book.functionCallItems) &&
      (call.generation == 0 || call.generation == c.generation)

/-- Remember a call in the session, the recovery state and the client, and start its dispatch. A
call with invalid arguments is answered even when there is no dispatcher. -/
def registerTool (s : Session A) (call : ToolCallRequested) : Session A :=
  let invalid := invalidToolArguments c call
  let s := { s with
    tools := { s.tools with records := s.tools.records.set call.callId {} }
    shared := { s.shared with
      state := { s.shared.state with toolCalls := insert call.callId s.shared.state.toolCalls }
      clientSeen := insert call.callId s.shared.clientSeen } }
  if c.hasDispatcher || invalid then s.spawn (.dispatch call invalid) else s

def dispatchRegistered (t : TaskId) (call : ToolCallRequested) : Prog A Bool := do
  let invalid := invalidToolArguments c call
  Run.modify fun s => s.registerTool c call
  if invalid then pure true else emit c t (.provider (.toolCallRequested call))

def applyToolCall (t : TaskId) (identity : Option (String × String × ℕ × String))
    (call : ToolCallRequested) : Prog A Bool :=
  Run.all [
    expect c t fun s => s.matchesToolCall c call identity,
    expect c t fun s => decide (call.callId ∉ s.tools.records),
    do
      let s ← Run.get
      if call.callId ∈ s.shared.state.toolCalls then update duplicate
      else dispatchRegistered c t { call with generation := c.generation }]

/-- Output of a finished or cancelled response and of a completed part is dropped. -/
def applyOutput (t : TaskId) (identity : OutputIdentity) (event : ProviderEvent) : Prog A Bool := do
  let s ← Run.get
  if identity.responseId ∈ s.book.terminalResponses ∨ identity.responseId ∈ s.book.cancelledResponses then
    update late
  else Run.all [
    expect c t fun s => decide (identity.responseId ∈ s.book.responses),
    expect c t fun s => decide (identity ∈ s.book.contents),
    do
      let s ← Run.get
      if identity ∈ s.book.completedContents then update late else emit c t (.provider event)]

/-- An interrupted response that the product has cancelled counts as cancelled. -/
def finishedStatus (s : Session A) (response : ResponseFinished) : ResponseFinished :=
  if response.status = .incomplete ∧ response.responseId ∈ s.book.cancelledResponses then
    { response with status := .cancelled }
  else response

def addTerminalResponse (s : Session A) (responseId : String) : Session A :=
  { s with book := { s.book with terminalResponses := insert responseId s.book.terminalResponses } }

def applyFinished (t : TaskId) (terminalBatch : Bool) (response : ResponseFinished) : Prog A Bool := do
  let s ← Run.get
  let event : RealtimeEvent := .provider (.responseFinished (s.finishedStatus response))
  Run.all [
    expect c t fun s => decide (response.responseId ∈ s.book.responses),
    do
      let s ← Run.get
      if response.responseId ∈ s.book.terminalResponses then update duplicate
      else Run.all [
        update fun s => s.addTerminalResponse response.responseId,
        if terminalBatch then update fun s => s.putTerminalSafe c t event else emit c t event]]

def applyEvent (t : TaskId) (d : DecodedProviderEvent) (terminalBatch : Bool) : ProviderEvent → Prog A Bool
  | .transcriptCompleted turnId text => applyTranscript c t turnId text
  | .toolCallRequested call => applyToolCall c t d.toolCallIdentity call
  | .outputText output text isDelta => applyOutput c t output (.outputText output text isDelta)
  | .outputAudioStarted output => applyOutput c t output (.outputAudioStarted output)
  | .outputAudio output data => applyOutput c t output (.outputAudio output data)
  | .outputAudioCompleted output => applyOutput c t output (.outputAudioCompleted output)
  | .responseFinished response => applyFinished c t terminalBatch response
  | .sessionFailed failed => do
    finishTerminal c t (.failed failed) .provider (if failed.retryable then .retryable else .fatal) .done
    pure false
  | event => emit c t (.provider event)

/-- `any(isinstance(event, SessionFailed) for event in decoded.events)`. -/
def terminalBatch (d : DecodedProviderEvent) : Bool :=
  d.events.any fun event => match event with
    | .sessionFailed _ => true
    | _ => false

def applyEvents (t : TaskId) (d : DecodedProviderEvent) : Prog A Bool :=
  Run.all (d.events.map (applyEvent c t d (terminalBatch d)))

/-- `_apply`. -/
def apply (t : TaskId) (d : DecodedProviderEvent) : Prog A Bool := do
  let s ← Run.get
  if !s.isCurrent c then update late
  else
    match d.rejectedEventId.filter (· ∈ s.context.pending) with
    | some requestId => update fun s => s.rejectContext requestId
    | none => do
      Run.modify fun s => s.acknowledgeContext d
      Run.andThen (readiness c t d) (
        if d.sessionAcknowledged then pure true
        else Run.all [
          introduceResponse c t d.introducedResponseId,
          introduceItem c t d,
          introduceContent c t d.introducedContent,
          acknowledgeTool c t d.toolAckIdentity,
          checkCompleted c t d,
          applyEvents c t d,
          update (complete d)])

/-! One round of the receive loop. -/

/-- `_known_client_reference`. -/
def knownClientReference (s : Session A) (payload : Payload) : Option (String × String) :=
  match strictJsonObject payload with
  | .error _ => none
  | .ok value =>
    (Json.asString (Json.field value "related_event_id")).bind fun related =>
      (s.failure.sentEventTypes.get related).map fun type => (related,type)

/-- A valid acknowledgement of the close that is under way, under its own event id. -/
def isCloseAck (s : Session A) (closed : SessionClosed) : Bool :=
  decide (closed.relatedEventId = s.control.pendingEventId) && decide (closed.initiator = .client) &&
    decide (closed.disposition = .clean)

def acknowledgeClose (s : Session A) (closed : SessionClosed) : Session A :=
  if s.isCloseAck closed then
    match s.control.ack with
    | some .pending => { s with control := { s.control with ack := some (.acknowledged closed) } }
    | _ => s
  else { s with control := { s.control with ackMismatches := s.control.ackMismatches + 1 } }

def failedArgs (failed : SessionFailed) (clientType : Option String) : FailureArgs :=
  { relatedEventId := failed.relatedEventId, clientEventType := clientType
    controlCode := failed.controlCode, messageClass := failed.messageClass
    retryable := some failed.retryable, fatal := failed.fatal, retryAfterMs := failed.retryAfterMs }

def controlFrame (t : TaskId) (control : RelayControl.ControlEvent) : Prog A Bool := do
  let s ← Run.get
  if s.terminal.closing then
    match control with
    | .closed closed => update fun s => s.acknowledgeClose closed
    | _ => update late
  else
    match control with
    | .failed failed => do
      let clientType := failed.relatedEventId.bind s.failure.sentEventTypes.get
      Run.modify fun s => s.capture c "control.terminal" (failedArgs failed clientType)
      finishTerminal c t (.failed { failed with clientEventType := clientType }) .relay
        (if failed.retryable then .retryable else .fatal) .done
      pure false
    | .closed closed => do
      let clientType := s.failure.sentEventTypes.get (closed.relatedEventId.getD "")
      Run.modify fun s => s.capture c "control.closed"
        { relatedEventId := closed.relatedEventId, clientEventType := clientType }
      finishTerminal c t (.closed { closed with clientEventType := clientType }) closed.initiator
        closed.disposition .done
      pure false
    | .expiring remainingMs => emit c t (.sessionExpiring remainingMs)

def decoding (s : Session A) (payload : Payload) : Decoding A :=
  c.adapter.decodeServerEvent payload s.adapter s.shared.state.table

/-- The adapter state and the table that a decoder leaves stay, also when it raises. -/
def afterDecode (s : Session A) (payload : Payload) : Session A :=
  { s with
    adapter := (s.decoding c payload).adapter
    shared := { s.shared with state := { s.shared.state with table := (s.decoding c payload).table } } }

def decode (payload : Payload) : Prog A DecodedProviderEvent := do
  let s ← Run.get
  Run.modify fun s => s.afterDecode c payload
  match (s.decoding c payload).result with
  | .ok d => pure d
  | .error .cancelled => Run.raise .cancelled
  | .error (.realtime e) => do
    Run.modify fun s => s.capture c "adapter.decode" { error := some e }
    Run.raise (.realtime e)
  | .error .exception => do
    Run.modify fun s => s.capture c "adapter.decode"
    Run.raise .exception

def providerFrame (t : TaskId) (payload : Payload) : Prog A Bool := do
  let d ← decode c payload
  let s ← Run.get
  if d.eventId ∈ s.seenEventIds then update duplicate
  else do
    Run.modify fun s => { s with seenEventIds := insert d.eventId s.seenEventIds }
    if ← apply c t d then pure true
    else do
      let s ← Run.get
      pure (s.terminal.closing && !s.terminal.published)

/-- The control plane decodes every frame first. -/
def decodeControl (payload : Payload) : Prog A (Option RelayControl.ControlEvent) := do
  let s ← Run.get
  match RelayControl.decodeRuntimeEvent payload with
  | .ok control => pure control
  | .error (.realtime e) => do
    let reference := s.knownClientReference payload
    Run.modify fun s => s.capture c "control.decode"
      { error := some e, relatedEventId := reference.map Prod.fst
        clientEventType := reference.map Prod.snd }
    Run.raise (.realtime e)
  | .error e => Run.raise e

/-- One round with a frame in hand: `true` goes back to the loop's test. -/
def frameBody (t : TaskId) (payload : Payload) : Prog A Bool := do
  let s ← Run.get
  if !s.isCurrent c && !s.terminal.closing then update late
  else do
    let fields ← Run.ofExcept (safeEventFields payload)
    Run.modify fun s => { s with failure := { s.failure with
      lastEventType := fields.1, lastFieldNames := fields.2 } }
    match ← decodeControl c payload with
    | some control => controlFrame c t control
    | none => do
      let s ← Run.get
      if s.terminal.closing then update late else providerFrame c t payload

/-- The outer `except` clauses of the loop. -/
def receiveError (t : TaskId) (e : Exn) : Prog A Bool := do
  let s ← Run.get
  match e with
  | .cancelled => Run.raise .cancelled
  | .realtime e =>
    if s.terminal.closing then update late
    else do
      fail c t e.code e.retryable .done
      pure false
  | .exception => if s.terminal.closing then update late else refuse c t .internal

/-- `while not self._terminal_published.is_set()`. -/
def loopTest : Prog A Unit := do
  let s ← Run.get
  if s.terminal.published then pure () else Run.suspend .receiving

def roundEnd (t : TaskId) (m : Prog A Bool) : Prog A Unit := do
  if ← Run.handle m (receiveError c t) then loopTest else pure ()

def receiveFrame (t : TaskId) (payload : Payload) : Prog A Unit := roundEnd c t (frameBody c t payload)

/-- `receive_text` has raised. -/
def receiveRaised (t : TaskId) (e : Exn) : Prog A Unit := roundEnd c t do
  let error := match e with
    | .realtime error => some error
    | _ => none
  Run.modify fun s =>
    s.capture c "provider.receive" { FailureArgs.ofType "transport.receive" with error }
  Run.raise e

/-- `receive_text` has returned `None`. -/
def receiveEof (t : TaskId) : Prog A Unit := do
  let s ← Run.get
  if s.terminal.closing then pure ()
  else do
    Run.modify fun s => s.capture c "provider.receive" (FailureArgs.ofType "transport.eof")
    fail c t .unavailable true .done

end Session
end HarnessSdk
