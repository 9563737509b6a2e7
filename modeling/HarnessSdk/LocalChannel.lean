import HarnessSdk.LocalProtocol
import HarnessSdk.Coroutine
import HarnessSdk.Transition
import Mathlib.Algebra.GroupWithZero.Nat
import Mathlib.Algebra.Order.Ring.Rat

/-!
# The local channel controller

`LocalRealtimeChannelController` bridges a product to one session. Its tasks are the loop that receives what the
product sends, the loop that forwards the events of the session, and the timer of a delayed acknowledgement. Each
runs from one suspension to the next; the session, the opener and the channel answer them.
-/

namespace HarnessSdk

/-- The bounds that the constructor takes; it refuses a bound that is not positive. -/
structure LocalConfig where
  ackEveryFrames : ℕ := 16
  inputBatchFrames : ℕ := 1
  ack_pos : 0 < ackEveryFrames := by decide
  batch_pos : 0 < inputBatchFrames := by decide

namespace Local

def outputPcmChunkBytes : ℕ := 262144

/-- What `_cancel_active_response` is followed by. -/
inductive CancelNext
  | raiseBusy | failBusy
  deriving DecidableEq

/-- Who flushes the input batch: a frame with the payloads that are still to be collected, a barge-in, or a stop. -/
inductive FlushNext
  | audio (rest : List Bytes)
  | bargeIn
  | stop (reason : String)
  deriving DecidableEq

/-- Where `_fail` is suspended: in the close of the session, in one of its three sends, or in the close of the
channel. -/
inductive FailPoint
  | session | state | error | closed | channel
  deriving DecidableEq

structure Failing where
  code : RealtimeErrorCode
  retryable : Bool
  point : FailPoint := .session
  deriving DecidableEq

/-- Where `run` is suspended. -/
inductive RunPoint
  | hello
  | receiving
  | connecting (instructions : String)
  | opening
  | flushing (next : FlushNext)
  | acking
  | bargingIn
  | stopping (reason : String)
  | stoppingSession
  | draining
  | cancelActive (next : CancelNext)
  | failing (f : Failing)
  | leavingSession
  | joiningTimer
  | joiningEvents
  | closingSession
  | closingChannel
  | finished
  deriving DecidableEq

/-- Where `_forward_events` is suspended; `more` tells whether it goes on behind `_fail`. -/
inductive EventsPoint
  | next
  | ready
  | active
  | forwarding
  | chunk (size : ℕ) (rest : List Bytes)
  | capacity (pcm : Bytes) (rest : List Bytes)
  | cancelActive (next : CancelNext)
  | failing (f : Failing) (more : Bool)
  | closed
  | closingChannel
  | finished
  deriving DecidableEq

/-- Where `_delayed_input_ack` is suspended. -/
inductive TimerPoint
  | sleeping | sending | cancelActive
  deriving DecidableEq

structure EventTask where
  generation : ℕ
  point : EventsPoint := .next
  cancelRequested : Bool := false

structure AckTimer where
  point : TimerPoint := .sleeping
  cancelRequested : Bool := false

/-- What leaves a trace outside: a payload handed to the channel, a frame that the input window has taken, audio that
the session has accepted, and an event of the session. -/
inductive Observation
  | handed (message : LocalMessage)
  | received (frame : LocalPcmFrame)
  | accepted (pcm : Bytes)
  | took (event : RealtimeEvent)
  deriving DecidableEq, Repr

/-- The flow control of the output, with the time that has been sent as an exact number. -/
structure OutputFlow where
  sequence : ℕ := 0
  acked : ℕ := 0
  ackedBytes : ℕ := 0
  pending : List (ℕ × ℕ) := []
  pendingBytes : ℕ := 0
  sentAudioBytes : ℕ := 0
  sentAudioMs : ℚ := 0
  playedAudioMs : ℤ := 0
  audio : RealtimeAudioFormat := { sampleRate := 24000 }

/-- What the controller knows of the output parts, each set with its entries in order. -/
structure OutputBook where
  active : Option OutputIdentity := none
  completed : Finset OutputIdentity := ∅
  completedOrder : List OutputIdentity := []
  terminal : Finset String := ∅
  terminalOrder : List String := []

/-- The output that an acknowledgement covers leaves the window. -/
def OutputFlow.acknowledge (o : OutputFlow) (highest : ℕ) (position : ℤ) : OutputFlow :=
  if highest ≤ o.acked then { o with playedAudioMs := position }
  else
    let covered := o.pending.takeWhile fun entry => entry.1 ≤ highest
    let size := (covered.map Prod.snd).sum
    { o with
      playedAudioMs := position, acked := highest
      pending := o.pending.drop covered.length
      pendingBytes := o.pendingBytes - size, ackedBytes := o.ackedBytes + size }

/-- A chunk is on its way to the product. -/
def OutputFlow.push (o : OutputFlow) (size : ℕ) : OutputFlow :=
  { o with
    sequence := o.sequence + 1
    pending := o.pending ++ [(o.sequence + 1,size)]
    pendingBytes := o.pendingBytes + size }

/-- The bytes of a second. -/
def OutputFlow.byteRate (o : OutputFlow) : ℕ := 2 * o.audio.sampleRate * o.audio.channels

theorem OutputFlow.byteRate_pos (o : OutputFlow) : 0 < o.byteRate :=
  Nat.mul_pos (Nat.mul_pos (by decide) o.audio.rate_pos) o.audio.channels_pos

/-- The send of a chunk has returned. -/
def OutputFlow.sent (o : OutputFlow) (size : ℕ) : OutputFlow :=
  { o with
    sentAudioBytes := o.sentAudioBytes + size
    sentAudioMs := o.sentAudioMs + size * 1000 / o.byteRate }

/-- `_remember_completed_output`. -/
def OutputBook.rememberCompleted (b : OutputBook) (o : OutputIdentity) : OutputBook :=
  let order := b.completedOrder ++ [o]
  let expired := order.take (order.length - windowFrames)
  { b with completed := insert o b.completed \ expired.toFinset, completedOrder := order.drop expired.length }

/-- `_remember_terminal_response`. -/
def OutputBook.rememberTerminal (b : OutputBook) (id : String) : OutputBook :=
  if id ∈ b.terminal then b
  else
    let order := b.terminalOrder ++ [id]
    let expired := order.take (order.length - windowFrames)
    { b with terminal := insert id b.terminal \ expired.toFinset, terminalOrder := order.drop expired.length }

/-- The output part of a finished response is complete. -/
def OutputBook.finish (b : OutputBook) (id : String) : OutputBook :=
  let b := b.rememberTerminal id
  match b.active with
  | some active => if active.responseId = id then { b with active := none }.rememberCompleted active else b
  | none => b

structure Controller where
  generation : ℕ := 0
  correlation : String := ""
  ready : Bool := false
  started : Bool := false
  requestedStopReason : Option String := none
  terminal : Bool := false
  hasSession : Bool := false
  sessionCurrent : Bool := true
  inputWindow : Option InputWindow := none
  inputBatch : List Bytes := []
  inputSinceAck : ℕ := 0
  output : OutputFlow := {}
  book : OutputBook := {}
  lateFrames : ℕ := 0
  duplicateFrames : ℕ := 0
  receiver : RunPoint := .hello
  events : Option EventTask := none
  timer : Option AckTimer := none
  log : List Observation := []

/-- What a suspended task is resumed with. -/
inductive Signal
  | ready
  | text (payload : Payload)
  | binary (payload : Bytes)
  | event (event : RealtimeEvent)
  | ended
  | timeout
  | raised (e : LocalExn)
  | cancelled

/-- A signal that a task with or without a requested cancellation can receive. -/
def Signal.fits (requested : Bool) : Signal → Bool
  | .cancelled => requested
  | .raised e => !requested && decide (e ≠ .cancelled)
  | _ => !requested

/-- A stretch of a task. -/
abbrev Prog (π α : Type) := Run Controller π LocalExn α

namespace Controller

variable {π : Type} (c : LocalConfig)

def observe (s : Controller) (o : Observation) : Controller := { s with log := o :: s.log }

def late (s : Controller) : Controller := { s with lateFrames := s.lateFrames + 1 }

/-- `_claim_terminal`, whose locks are free whenever a task runs. -/
def claim (s : Controller) : Controller := { s with terminal := true }

def dropSession (s : Controller) : Controller := { s with hasSession := false }

/-- A payload is handed to the channel. -/
def hand (message : LocalMessage) (point : π) : Prog π Unit := do
  Run.modify fun s => s.observe (.handed message)
  Run.suspend point

def protocolError {α : Type} (message : String) : Prog π α :=
  Run.raise (.realtime { code := .protocolError, message })

/-- The error of a payload that the product does not take in time. -/
def writeTimeout : LocalExn := .realtime { code := .busy, message := "local product write timeout" }

/-! `_fail`. -/

def closedReasonForError : RealtimeErrorCode → String
  | .busy => "busy" | .internal => "internal" | .protocolError => "protocol_error"
  | .sessionExpired => "session_expired" | .timeout => "timeout"
  | .forbidden | .rateLimited | .unauthenticated | .unavailable | .billingRejected => "provider_error"
  | .invalidRequest | .unsupported => "protocol_error"
  | .cancelled => "internal"

/-- `_fail` goes on: what it has waited for does not matter. -/
def failResume (wrap : Failing → π) (f : Failing) : Prog π Unit := do
  let s ← Run.get
  match f.point with
  | .session => hand (.callState s.generation "error") (wrap { f with point := .state })
  | .state => hand (.callError s.generation f.code f.retryable) (wrap { f with point := .error })
  | .error => hand (.callClosed s.generation (closedReasonForError f.code)) (wrap { f with point := .closed })
  | .closed => Run.suspend (wrap { f with point := .channel })
  | .channel => pure ()

def fail (wrap : Failing → π) (code : RealtimeErrorCode) (retryable : Bool) : Prog π Unit := do
  let s ← Run.get
  if s.terminal then pure ()
  else do
    Run.modify claim
    if s.hasSession then do
      Run.modify dropSession
      Run.suspend (wrap { code, retryable })
    else failResume wrap { code, retryable }

/-- `_cancel_active_response` up to its suspension. -/
def cancelActive (point : CancelNext → π) (wrap : Failing → π) (next : CancelNext) : Prog π Unit := do
  let s ← Run.get
  if s.hasSession then Run.suspend (point next)
  else match next with
    | .raiseBusy => Run.raise writeTimeout
    | .failBusy => fail wrap .busy false

/-- `_cancel_active_response` has returned. -/
def cancelledActive (wrap : Failing → π) : CancelNext → Prog π Unit
  | .raiseBusy => Run.raise writeTimeout
  | .failBusy => fail wrap .busy false

/-! The end of `run`. -/

def cancelTimer (s : Controller) : Controller :=
  { s with timer := s.timer.map fun t => { t with cancelRequested := true } }

def cancelEvents (s : Controller) : Controller :=
  { s with events := s.events.map fun e => { e with cancelRequested := true } }

def eventsRunning (s : Controller) : Bool := s.events.any fun e => e.point ≠ .finished

def finishSession : Prog RunPoint Unit := do
  let s ← Run.get
  if s.hasSession then do
    Run.modify dropSession
    Run.suspend .closingSession
  else Run.suspend .closingChannel

def finishEvents : Prog RunPoint Unit := do
  let s ← Run.get
  if s.eventsRunning then do
    Run.modify cancelEvents
    Run.suspend .joiningEvents
  else finishSession

/-- The `finally` clause of `run`. -/
def finish : Prog RunPoint Unit := do
  let s ← Run.get
  if s.timer.isSome then do
    Run.modify cancelTimer
    Run.suspend .joiningTimer
  else finishEvents

/-- The `except` clauses of `run`. -/
def runRaised : LocalExn → Prog RunPoint Unit
  | .cancelled => finish
  | .ended => do
    let s ← Run.get
    if s.hasSession then do
      Run.modify dropSession
      Run.suspend .leavingSession
    else finish
  | .realtime e => do
    fail .failing e.code e.retryable
    finish
  | .value => do
    fail .failing .protocolError false
    finish
  | .other => do
    fail .failing .internal false
    finish

/-- The `while` loop of `run` behind the handler of a message. -/
def receiveLoop : Prog RunPoint Unit := do
  let s ← Run.get
  if s.terminal then finish else Run.suspend .receiving

def runBody (m : Prog RunPoint Unit) : Prog RunPoint Unit := Run.handle (do m; receiveLoop) runRaised

/-! The messages of the product. -/

def isCorrelation (correlation : String) : Bool :=
  decide (correlation.length = 31) && Text.startsWith correlation "corr_" &&
    (correlation.toList.drop 5).all fun ch => "0123456789ABCDEFGHJKMNPQRSTVWXYZ".toList.contains ch

/-- `_receive_hello` behind its suspension. -/
def receiveHello (payload : Payload) : Prog RunPoint Unit := do
  let (messageType,value) ← Run.ofExcept (decodeLocalMessage payload)
  if messageType ≠ "local.hello" then protocolError "local.hello required"
  else
    match Json.asInt (Json.field value "generation"), Json.asString (Json.field value "correlation") with
    | some 1, some correlation =>
      if !isCorrelation correlation then protocolError "invalid local.hello"
      else Run.modify fun s => { s with generation := 1, correlation, inputWindow := some { generation := 1 } }
    | _, _ => protocolError "invalid local.hello"

def realtimeFeatures : List String :=
  ["server_turn_detection", "automatic_response", "interruption", "input_transcription", "text_output",
    "audio_output", "cancel_response", "truncate_output", "tool_calling", "resume"]

def startCall (value : Json.Object) : Prog RunPoint Unit := do
  let s ← Run.get
  if s.started then protocolError "duplicate call.start"
  else
    match Json.asString (Json.field value "instructions"), Json.asList (Json.field value "required_features") with
    | some instructions, some rawFeatures =>
      if instructions = "" then protocolError "invalid call.start"
      else
        let features := rawFeatures.filterMap fun item => Json.asString (some item)
        if features.length ≠ rawFeatures.length ∨ !features.all (· ∈ realtimeFeatures) then
          protocolError "invalid required_features"
        else if !decide features.Nodup then protocolError "duplicate required feature"
        else do
          Run.modify fun s => { s with started := true }
          hand (.callState s.generation "connecting") (.connecting instructions)
    | _, _ => protocolError "invalid call.start"

/-- The request for the session is built behind the first message, and refuses blank instructions. -/
def openCall (instructions : String) : Prog RunPoint Unit :=
  if Text.isBlank instructions then Run.raise .value else Run.suspend .opening

def opened (s : Controller) : Controller :=
  { s with hasSession := true, events := some { generation := s.generation } }

/-- `_flush_input_batch` has sent the batch. -/
def flushed (s : Controller) : Controller :=
  { s.observe (.accepted s.inputBatch.flatten) with
    inputBatch := []
    inputSinceAck := s.inputSinceAck + s.inputBatch.length }

/-- `_send_input_ack` with something to acknowledge. -/
def sendInputAck (point : π) : Prog π Unit := do
  let s ← Run.get
  match s.inputWindow with
  | none => Run.raise .other
  | some window =>
    Run.modify fun s => { s with inputSinceAck := 0 }
    hand (.inputAck s.generation window.highestContiguous) point

/-- The acknowledgement behind an input frame. -/
def acknowledge : Prog RunPoint Unit := do
  let s ← Run.get
  if c.ackEveryFrames ≤ s.inputSinceAck then sendInputAck .acking
  else if s.inputSinceAck ≠ 0 ∧ s.timer.isNone then Run.modify fun s => { s with timer := some {} }
  else pure ()

/-- The batch is handed to the session. -/
def sendBatch (next : FlushNext) : Prog RunPoint Unit := do
  let s ← Run.get
  if !s.hasSession then protocolError "call is not active" else Run.suspend (.flushing next)

/-- The payloads that have become contiguous are collected, and every full batch is flushed. -/
def collect : List Bytes → Prog RunPoint Unit
  | [] => acknowledge c
  | pcm :: rest => do
    Run.modify fun s => { s with inputBatch := s.inputBatch ++ [pcm] }
    let s ← Run.get
    if c.inputBatchFrames ≤ s.inputBatch.length then sendBatch (.audio rest) else collect rest

/-- What follows a flush, unless the call has ended meanwhile. -/
def afterFlush (next : FlushNext) : Prog RunPoint Unit := do
  let s ← Run.get
  if s.terminal then pure ()
  else
    match next with
    | .audio rest => collect c rest
    | .bargeIn => Run.suspend .bargingIn
    | .stop reason => hand (.callState s.generation "closing") (.stopping reason)

def flushInputBatch (next : FlushNext) : Prog RunPoint Unit := do
  let s ← Run.get
  if s.inputBatch = [] then afterFlush c next else sendBatch next

def handleInputAudio (payload : Bytes) : Prog RunPoint Unit := do
  let s ← Run.get
  match s.ready && s.hasSession, s.inputWindow with
  | true, some window => do
    let frame ← Run.ofExcept (decodePcmFrame payload)
    if frame.generation ≠ s.generation then Run.modify fun s => (s.observe (.received frame)).late
    else do
      let (ready,window') ← Run.ofExcept (window.accept frame)
      Run.modify fun s => { s.observe (.received frame) with inputWindow := some window' }
      if ready = [] ∧ frame.sequence ≤ max window.highestContiguous window'.highestContiguous then
        Run.modify fun s => { s with duplicateFrames := s.duplicateFrames + 1 }
      else collect c ready
  | _, _ => protocolError "binary before call.ready"

def stopCall (value : Json.Object) : Prog RunPoint Unit := do
  let s ← Run.get
  if !s.started then protocolError "call.start required"
  else
    match Json.asString (Json.field value "reason") with
    | none =>
      -- a list or a dictionary cannot be looked up in the set of reasons
      if Json.hashable (Json.field value "reason") then protocolError "invalid stop reason" else Run.raise .other
    | some reason =>
      if reason ∉ ["client_hangup", "app_shutdown"] then protocolError "invalid stop reason"
      else do
        Run.modify fun s => { s with requestedStopReason := some reason }
        flushInputBatch c (.stop reason)

/-- `_stop_call` waits for the end of the event task. -/
def drain : Prog RunPoint Unit := do
  let s ← Run.get
  if s.eventsRunning then Run.suspend .draining else pure ()

/-- `_stop_call` behind its message closes the session. -/
def stopSession : Prog RunPoint Unit := do
  let s ← Run.get
  if s.hasSession then do
    Run.modify dropSession
    Run.suspend .stoppingSession
  else drain

def handleOutputAck (value : Json.Object) : Prog RunPoint Unit := do
  let s ← Run.get
  if !s.ready then protocolError "call is not active"
  else if !Json.isString (Json.field value "direction") "output" then protocolError "invalid ACK direction"
  else
    match Json.asInt (Json.field value "highest_contiguous_sequence") with
    | none => protocolError "invalid ACK sequence"
    | some highest =>
      let o := s.output
      if highest < 0 then protocolError "invalid ACK sequence"
      else if (o.sequence : ℤ) < highest then protocolError "ACK exceeds sent output"
      else
        let position := if Json.hasField value "played_audio_ms" then Json.asInt (Json.field value "played_audio_ms")
          else some o.playedAudioMs
        let bytes := o.ackedBytes + ((o.pending.filter fun entry => (entry.1 : ℤ) ≤ highest).map Prod.snd).sum
        match position with
        | none => protocolError "invalid playback position"
        | some position =>
          if position < o.playedAudioMs ∨ (bytes * 1000 : ℤ) < position * (2 * o.audio.sampleRate * o.audio.channels) then
            protocolError "invalid playback position"
          else Run.modify fun s => { s with output := OutputFlow.acknowledge s.output highest.toNat position }

/-- `_handle_product_message` for a text. -/
def handleText (payload : Payload) : Prog RunPoint Unit := do
  let (messageType,value) ← Run.ofExcept (decodeLocalMessage payload)
  let s ← Run.get
  if Json.asInt (Json.field value "generation") ≠ some (s.generation : ℤ) then Run.modify late
  else
    match messageType with
    | "call.start" => startCall value
    | "call.stop" => stopCall c value
    | "call.barge_in" =>
      if !s.ready || !s.hasSession then protocolError "call is not active" else flushInputBatch c .bargeIn
    | "call.audio_ack" => handleOutputAck value
    | _ => protocolError "unexpected local message"

/-- The program of `run` that follows a signal. Its `CancelledError` leads into the `finally` clause, which
suppresses another one while it waits for its tasks. -/
def resumeRun (s : Controller) : RunPoint → Signal → Option (Prog RunPoint Unit)
  | .finished, _ => none
  | .joiningTimer, .cancelled => some finishEvents
  | .joiningEvents, .cancelled => some finishSession
  | .closingSession, .cancelled | .closingChannel, .cancelled => some (pure ())
  | _, .cancelled => some finish
  | .hello, .text payload => some (runBody (receiveHello payload))
  | .hello, .binary _ => some (runBody (protocolError "local.hello must be text"))
  | .receiving, .text payload => some (runBody (handleText c payload))
  | .receiving, .binary payload => some (runBody (handleInputAudio c payload))
  | .connecting instructions, .ready => some (runBody (openCall instructions))
  | .opening, .ready => some (runBody (Run.modify opened))
  | .opening, .raised (.realtime e) => some (runBody (fail .failing e.code e.retryable))
  | .flushing next, .ready => some (runBody (do Run.modify flushed; afterFlush c next))
  | .flushing _, .timeout => some (runBody (cancelActive .cancelActive .failing .failBusy))
  | .acking, .ready | .bargingIn, .ready => some (runBody (pure ()))
  | .stopping _, .ready => some (runBody stopSession)
  | .connecting _, .timeout | .acking, .timeout | .stopping _, .timeout =>
    some (runBody (cancelActive .cancelActive .failing .raiseBusy))
  | .stoppingSession, .ready | .stoppingSession, .timeout | .stoppingSession, .raised _ => some (runBody drain)
  | .draining, .ready => if s.eventsRunning then none else some (runBody (pure ()))
  | .draining, .timeout => some (runBody (fail .failing .timeout true))
  | .cancelActive next, .ready | .cancelActive next, .timeout | .cancelActive next, .raised _ =>
    some (runBody (cancelledActive .failing next))
  | .failing f, .ready | .failing f, .timeout | .failing f, .raised _ =>
    some (do failResume .failing f; finish)
  | .leavingSession, .ready | .leavingSession, .timeout | .leavingSession, .raised _ => some finish
  | .joiningTimer, .ready => if s.timer.isSome then none else some finishEvents
  | .joiningEvents, .ready => if s.eventsRunning then none else some finishSession
  | .closingSession, .ready | .closingSession, .timeout | .closingSession, .raised _ =>
    some (Run.suspend .closingChannel)
  | .closingChannel, .ready | .closingChannel, .raised _ => some (pure ())
  | .hello, .raised e | .receiving, .raised e | .connecting _, .raised e | .opening, .raised e
  | .flushing _, .raised e | .acking, .raised e | .bargingIn, .raised e | .stopping _, .raised e =>
    some (runBody (Run.raise e))
  | _, _ => none

/-! The events of the session. -/

def outputIdentity : RealtimeEvent → Option OutputIdentity
  | .provider (.outputAudioStarted o) | .provider (.outputAudio o _) | .provider (.outputAudioCompleted o) => some o
  | _ => none

def closedReason (event : SessionClosed) : String :=
  if event.reason ∈ ["client_hangup", "app_shutdown", "session_expired", "provider_error", "network_error", "timeout",
      "protocol_error", "busy", "internal"] then event.reason
  else if event.disposition = .cleanExpired then "session_expired"
  else
    match event.initiator with
    | .client => "client_hangup" | .network => "network_error" | .provider => "provider_error"
    | .relay => "provider_error" | .shutdown => "app_shutdown" | .timeout => "timeout"

def failEvents (code : RealtimeErrorCode) (retryable more : Bool) : Prog EventsPoint Bool := do
  fail (fun f => .failing f more) code retryable
  return more

/-- `encode_domain_event` and the send of the event. -/
def forward (event : RealtimeEvent) : Prog EventsPoint Bool := do
  let s ← Run.get
  let message ← Run.ofExcept (encodeDomainEvent s.generation event)
  hand message .forwarding
  return true

/-- `_output_generation_current`; without a session there is nothing to ask. -/
def outputGenerationCurrent (s : Controller) (generation : ℕ) : Bool :=
  decide (generation = s.generation) && (!s.hasSession || s.sessionCurrent)

def hasCapacity (s : Controller) (pcm : Bytes) : Bool :=
  decide (s.output.pending.length < windowFrames) && decide (s.output.pendingBytes + pcm.length ≤ windowBytes)

/-- What `wait_for_capacity` waits for. -/
def mayProceed (s : Controller) (generation : ℕ) (pcm : Bytes) : Bool :=
  s.terminal || !s.outputGenerationCurrent generation || s.hasCapacity pcm

/-- `_send_output_chunk` behind the wait for capacity: whether the chunk is on its way. -/
def sendChunk (generation : ℕ) (pcm : Bytes) (rest : List Bytes) : Prog EventsPoint Bool := do
  let s ← Run.get
  if s.terminal || !s.outputGenerationCurrent generation then pure true
  else do
    Run.modify fun s => { s with output := OutputFlow.push s.output pcm.length }
    let s ← Run.get
    let frame : LocalPcmFrame := ⟨.output,s.generation,s.output.sequence,pcm⟩
    let _ ← Run.ofExcept (encodePcmFrame frame)
    hand (.audio frame) (.chunk pcm.length rest)
    return true

/-- The chunks of `_send_output_audio`, until the call has ended. A chunk that is not sent does not stop the others. -/
def sendChunks (generation : ℕ) : List Bytes → Prog EventsPoint Bool
  | [] => pure true
  | pcm :: rest => do
    let s ← Run.get
    if s.hasCapacity pcm || s.mayProceed generation pcm then do
      let _ ← sendChunk generation pcm rest
      let s ← Run.get
      if s.terminal then pure true else sendChunks generation rest
    else Run.suspend (.capacity pcm rest)

def nextChunks (generation : ℕ) (rest : List Bytes) : Prog EventsPoint Bool := do
  let s ← Run.get
  if s.terminal then pure true else sendChunks generation rest

def sendOutputAudio (generation : ℕ) (pcm : Bytes) : Prog EventsPoint Bool := do
  let s ← Run.get
  if !s.outputGenerationCurrent generation then do
    Run.modify late
    return true
  else if pcm = [] ∨ pcm.length % 2 ≠ 0 then failEvents .protocolError false true
  else sendChunks generation (pcm.toChunks outputPcmChunkBytes)

def startOutput (o : OutputIdentity) (event : RealtimeEvent) : Prog EventsPoint Bool := do
  let s ← Run.get
  if o.responseId ∈ s.book.terminal then do
    Run.modify late
    return true
  else if s.book.active.any (· ≠ o) then failEvents .protocolError false false
  else if o ∈ s.book.completed then do
    Run.modify late
    return true
  else do
    Run.modify fun s => { s with book := { s.book with active := some o } }
    forward event

/-- Output for a part: dropped behind its end, and refused when the part is not the active one. -/
def withActive (o : OutputIdentity) (m : Prog EventsPoint Bool) : Prog EventsPoint Bool := do
  let s ← Run.get
  if o.responseId ∈ s.book.terminal ∨ o ∈ s.book.completed then do
    Run.modify late
    return true
  else if s.book.active ≠ some o then failEvents .protocolError false false
  else m

def sessionReady (correlation : String) (inputAudio outputAudio : RealtimeAudioFormat) : Prog EventsPoint Bool := do
  let s ← Run.get
  if s.ready || correlation ≠ s.correlation then failEvents .protocolError false false
  else do
    Run.modify fun s => { s with ready := true, output := { s.output with audio := outputAudio } }
    hand (.callReady s.generation correlation inputAudio outputAudio) .ready
    return true

/-- `SessionClosed` claims the terminal without `_fail`. -/
def sessionClosed (closed : SessionClosed) : Prog EventsPoint Bool := do
  let s ← Run.get
  Run.modify claim
  hand (.callClosed s.generation (s.requestedStopReason.getD (closedReason closed))) .closed
  return false

/-- The body of the `async for` loop: whether it goes on. -/
def handleEvent (generation : ℕ) (event : RealtimeEvent) : Prog EventsPoint Bool := do
  Run.modify fun s => s.observe (.took event)
  let s ← Run.get
  if generation ≠ s.generation then do
    Run.modify late
    return true
  else if s.terminal then return false
  else
    match event with
    | .sessionReady _ correlation inputAudio outputAudio _ => sessionReady correlation inputAudio outputAudio
    | .provider (.outputAudioStarted o) => startOutput o event
    | .provider (.outputAudio o data) => withActive o (sendOutputAudio generation data)
    | .provider (.outputAudioCompleted o) => withActive o (do
        Run.modify fun s => { s with book := OutputBook.rememberCompleted { s.book with active := none } o }
        forward event)
    | .provider (.responseFinished response) => do
      Run.modify fun s => { s with book := OutputBook.finish s.book response.responseId }
      forward event
    | .provider (.sessionFailed failed) => failEvents failed.code failed.retryable false
    | .sessionClosed closed => sessionClosed closed
    | _ => forward event

/-- The stream has come to its end. -/
def streamEnded : Prog EventsPoint Bool := failEvents .internal false false

def eventsRaised : LocalExn → Prog EventsPoint Unit
  | .cancelled => pure ()
  | .realtime e => fail (fun f => .failing f false) e.code e.retryable
  | _ => fail (fun f => .failing f false) .internal false

def eventsLoop (more : Bool) : Prog EventsPoint Unit := if more then Run.suspend .next else pure ()

def eventsBody (m : Prog EventsPoint Bool) : Prog EventsPoint Unit :=
  Run.handle (do let more ← m; eventsLoop more) eventsRaised

/-- The send of a chunk has returned. -/
def chunkSent (s : Controller) (generation size : ℕ) : Controller :=
  if !s.terminal && decide (generation = s.generation) then
    { s with output := s.output.sent size }
  else s

/-- The product has not made room in time. -/
def capacityExpired (generation : ℕ) (rest : List Bytes) : Prog EventsPoint Bool := do
  let s ← Run.get
  if !s.outputGenerationCurrent generation then do
    Run.modify late
    nextChunks generation rest
  else do
    cancelActive .cancelActive (fun f => .failing f true) .failBusy
    return true

/-- The program of `_forward_events` that follows a signal. -/
def resumeEvents (s : Controller) (generation : ℕ) : EventsPoint → Signal → Option (Prog EventsPoint Unit)
  | .finished, _ => none
  | _, .cancelled => some (pure ())
  | .next, .event event => some (eventsBody (handleEvent generation event))
  | .next, .ended => some (eventsBody streamEnded)
  | .ready, .ready => some (eventsBody (do
      let s ← Run.get
      hand (.callState s.generation "active") .active
      return true))
  | .active, .ready | .forwarding, .ready => some (eventsLoop true)
  | .chunk size rest, .ready => some (eventsBody (do
      Run.modify fun s => s.chunkSent generation size
      nextChunks generation rest))
  | .capacity pcm rest, .ready =>
    if s.mayProceed generation pcm then some (eventsBody (do
      let _ ← sendChunk generation pcm rest
      nextChunks generation rest))
    else none
  | .capacity _ rest, .timeout => some (eventsBody (capacityExpired generation rest))
  | .ready, .timeout | .active, .timeout | .forwarding, .timeout | .chunk .., .timeout =>
    some (eventsBody (do
      cancelActive .cancelActive (fun f => .failing f false) .raiseBusy
      return false))
  | .cancelActive next, .ready | .cancelActive next, .timeout | .cancelActive next, .raised _ =>
    some (eventsBody (do
      cancelledActive (fun f => .failing f true) next
      return true))
  | .failing f more, .ready | .failing f more, .timeout | .failing f more, .raised _ =>
    some (do failResume (fun f => .failing f more) f; eventsLoop more)
  | .closed, .ready | .closed, .timeout | .closed, .raised _ => some (Run.suspend .closingChannel)
  | .closingChannel, .ready | .closingChannel, .timeout | .closingChannel, .raised _ => some (pure ())
  | .next, .raised e | .ready, .raised e | .active, .raised e | .forwarding, .raised e | .chunk .., .raised e =>
    some (eventsBody (Run.raise e))
  | _, _ => none

/-! The delayed acknowledgement. -/

def delayedInputAck : Prog TimerPoint Unit := do
  let s ← Run.get
  if s.inputSinceAck = 0 then pure () else sendInputAck .sending

/-- The program of `_delayed_input_ack` that follows a signal; its errors end it. -/
def resumeTimer (s : Controller) : TimerPoint → Signal → Option (Prog TimerPoint Unit)
  | _, .cancelled => some (pure ())
  | .sleeping, .ready => some delayedInputAck
  | .sending, .ready | .sending, .raised _ => some (pure ())
  | .sending, .timeout => some (if s.hasSession then Run.suspend .cancelActive else pure ())
  | .cancelActive, .ready | .cancelActive, .timeout | .cancelActive, .raised _ => some (pure ())
  | _, _ => none

/-! The system. -/

def setEvents (s : Controller) (point : EventsPoint) : Controller :=
  { s with events := s.events.map fun e => { e with point } }

/-- Where a stretch of `run` ends is where `run` is suspended next; its errors end it. -/
def settleRun (m : Prog RunPoint Unit) (s : Controller) : Controller :=
  match m s with
  | .ok _ u | .raise _ u => { u with receiver := .finished }
  | .park point u => { u with receiver := point }

def settleEvents (m : Prog EventsPoint Unit) (s : Controller) : Controller :=
  match m s with
  | .ok _ u | .raise _ u => u.setEvents .finished
  | .park point u => u.setEvents point

def settleTimer (m : Prog TimerPoint Unit) (s : Controller) : Controller :=
  match m s with
  | .ok _ u | .raise _ u => { u with timer := none }
  | .park point u => { u with timer := u.timer.map fun t => { t with point } }

end Controller

/-- A task is resumed, or another session supersedes the session of the call. -/
inductive ChannelAction
  | run (signal : Signal)
  | events (signal : Signal)
  | timer (signal : Signal)
  | supersede

namespace Controller

variable (c : LocalConfig)

def step (s : Controller) : ChannelAction → Option Controller
  | .run signal =>
    match signal with
    | .raised .cancelled => none
    | signal => (resumeRun c s s.receiver signal).map fun m => settleRun m s
  | .events signal => do
    let e ← s.events
    if Signal.fits e.cancelRequested signal then
      let m ← resumeEvents s e.generation e.point signal
      return settleEvents m s
    else none
  | .timer signal => do
    let t ← s.timer
    if Signal.fits t.cancelRequested signal then
      let m ← resumeTimer s t.point signal
      return settleTimer m s
    else none
  | .supersede => some { s with sessionCurrent := false }

def Init (s : Controller) : Prop := s = {}

abbrev Reachable (s : Controller) : Prop := Transition.Reachable (step c) Init s

end Controller
end Local
end HarnessSdk
