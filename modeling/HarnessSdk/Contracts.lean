import HarnessSdk.Json

/-!
# Contracts of the Realtime package

Error codes, errors, limits and the closed union of session events. An adapter can
only build the events of `ProviderEvent`; the session adds `SessionReady`,
`SessionExpiring` and `SessionClosed`.
-/

namespace HarnessSdk

inductive RealtimeErrorCode
  | invalidRequest | unauthenticated | forbidden | unsupported | busy | rateLimited | unavailable
  | timeout | protocolError | sessionExpired | billingRejected | cancelled | internal
  deriving DecidableEq, Repr

namespace RealtimeErrorCode

def value : RealtimeErrorCode → String
  | invalidRequest => "invalid_request" | unauthenticated => "unauthenticated"
  | forbidden => "forbidden" | unsupported => "unsupported" | busy => "busy"
  | rateLimited => "rate_limited" | unavailable => "unavailable" | timeout => "timeout"
  | protocolError => "protocol_error" | sessionExpired => "session_expired"
  | billingRejected => "billing_rejected" | cancelled => "cancelled" | internal => "internal"

def all : List RealtimeErrorCode :=
  [invalidRequest, unauthenticated, forbidden, unsupported, busy, rateLimited, unavailable, timeout,
    protocolError, sessionExpired, billingRejected, cancelled, internal]

def ofValue (s : String) : Option RealtimeErrorCode := all.find? fun c => c.value = s

end RealtimeErrorCode

/-- The first cause of a failure, free of content. -/
structure RealtimeFailureContext where
  stage : String
  eventType : String
  generation : ℕ
  fieldNames : List String := []
  validationField : Option String := none
  validationReason : Option String := none
  relatedEventId : Option String := none
  clientEventType : Option String := none
  controlCode : Option RealtimeErrorCode := none
  messageClass : Option String := none
  retryable : Option Bool := none
  fatal : Option Bool := none
  retryAfterMs : Option ℤ := none
  deriving DecidableEq, Repr

structure RealtimeError where
  code : RealtimeErrorCode
  message : String := code.value
  retryable : Bool := false
  validationField : Option String := none
  validationReason : Option String := none
  failure : Option RealtimeFailureContext := none
  deriving DecidableEq, Repr

/-- What an `await` can raise: a `RealtimeError`, another `Exception` (`ValueError`, `TypeError`, a
transport library's error), or `CancelledError`, which is no `Exception`. -/
inductive Exn
  | realtime (e : RealtimeError)
  | exception
  | cancelled
  deriving DecidableEq, Repr

def safeFailureFields : List String :=
  ["type", "event_id", "related_event_id", "response_id", "item_id", "call_id", "id", "output_index",
    "content_index", "session", "response", "item", "part", "content", "role", "status", "code",
    "retryable", "fatal", "message_class", "retry_after_ms", "transcript", "delta", "audio", "text",
    "instructions", "tools", "arguments", "name", "initiator", "disposition", "active_response",
    "settlement", "remaining_ms", "error", "control_version", "sdk_protocol_version",
    "relay_session_id", "provider", "wire_protocol", "wire_version", "capability",
    "capability_digest", "expires_at_ms", "reason", "usage"]

def failureReasons : List String :=
  ["validation_failed", "missing_identity", "invalid_integer", "invalid_object", "invalid_string",
    "invalid_identity", "invalid_range", "unknown_enum", "non_terminal_error", "field_set",
    "missing_field", "unresolved_item_missing_response_id",
    "suspected_assistant_missing_response_id"]

inductive ResponseStatus
  | completed | cancelled | incomplete | failed
  deriving DecidableEq, Repr

def ResponseStatus.value : ResponseStatus → String
  | completed => "completed" | cancelled => "cancelled"
  | incomplete => "incomplete" | failed => "failed"

inductive CloseInitiator
  | client | provider | relay | network | timeout | shutdown
  deriving DecidableEq, Repr

def CloseInitiator.ofValue : String → Option CloseInitiator
  | "client" => some client | "provider" => some provider | "relay" => some relay
  | "network" => some network | "timeout" => some timeout | "shutdown" => some shutdown
  | _ => none

inductive CloseDisposition
  | clean | retryable | fatal | cleanExpired
  deriving DecidableEq, Repr

def CloseDisposition.ofValue : String → Option CloseDisposition
  | "clean" => some clean | "retryable" => some retryable | "fatal" => some fatal
  | "clean_expired" => some cleanExpired | _ => none

inductive ToolCallState
  | requested | resultSent | resultAcked | followupRequested | followupStarted
  deriving DecidableEq, Repr

/-- The position of a state on the way from `REQUESTED` to `FOLLOWUP_STARTED`. -/
def ToolCallState.rank : ToolCallState → ℕ
  | requested => 0 | resultSent => 1 | resultAcked => 2 | followupRequested => 3
  | followupStarted => 4

inductive Role
  | user | assistant | system
  deriving DecidableEq, Repr

def Role.value : Role → String
  | user => "user" | assistant => "assistant" | system => "system"

def Role.ofValue : String → Option Role
  | "user" => some user | "assistant" => some assistant | "system" => some system | _ => none

theorem inputRate_pos : 0 < 16000 := by decide

theorem outputRate_pos : 0 < 24000 := by decide

/-- A format that is refused when it is built does not exist. -/
structure RealtimeAudioFormat where
  codec : String := "pcm_s16le"
  sampleRate : ℕ := 16000
  channels : ℕ := 1
  codec_raw : codec = "pcm_s16le" := by rfl
  rate_pos : 0 < sampleRate := by first | exact inputRate_pos | exact outputRate_pos | decide
  channels_pos : 0 < channels := by first | exact Nat.one_pos | decide
  deriving DecidableEq, Repr

structure RealtimeFeatureSet where
  serverTurnDetection : Bool := false
  automaticResponse : Bool := false
  interruption : Bool := false
  inputTranscription : Bool := false
  textOutput : Bool := false
  audioOutput : Bool := false
  cancelResponse : Bool := false
  truncateOutput : Bool := false
  toolCalling : Bool := false
  resume : Bool := false
  deriving DecidableEq, Repr

structure RealtimeLimits where
  jsonFrameBytes : ℕ := 1048576
  inputAudioEventBytes : ℕ := 65536
  outputAudioEventBytes : ℕ := 262144
  inputQueueFrames : ℕ := 256
  inputQueueBytes : ℕ := 4194304
  outputQueueFrames : ℕ := 512
  outputQueueBytes : ℕ := 16777216
  toolPayloadBytes : ℕ := 65536
  deriving DecidableEq, Repr

structure RealtimeCapability where
  controlVersion : String
  sdkProtocolVersion : String
  provider : String
  wireProtocol : String
  wireVersion : String
  inputAudio : RealtimeAudioFormat
  outputAudio : RealtimeAudioFormat
  features : RealtimeFeatureSet
  limits : RealtimeLimits := {}
  deriving DecidableEq, Repr

abbrev Bytes := List UInt8

structure ResponseUsage where
  inputTextTokens : ℕ
  inputAudioTokens : ℕ
  outputTextTokens : ℕ
  outputAudioTokens : ℕ
  deriving DecidableEq, Repr

/-- The `(response_id, item_id, output_index, content_index)` that every output event carries. -/
structure OutputIdentity where
  responseId : String
  itemId : String
  outputIndex : ℕ
  contentIndex : ℕ
  deriving DecidableEq, Repr

structure ToolCallRequested where
  responseId : String
  callId : String
  name : String
  argumentsJson : String
  generation : ℕ := 0
  deriving DecidableEq, Repr

structure ResponseFinished where
  responseId : String
  status : ResponseStatus
  usage : Option ResponseUsage := none
  isLocal : Bool := false
  deriving DecidableEq, Repr

structure SessionFailed where
  code : RealtimeErrorCode
  retryable : Bool
  controlCode : Option RealtimeErrorCode := none
  messageClass : Option String := none
  relatedEventId : Option String := none
  clientEventType : Option String := none
  fatal : Option Bool := none
  retryAfterMs : Option ℤ := none
  failure : Option RealtimeFailureContext := none
  deriving DecidableEq, Repr

structure SessionClosed where
  reason : String
  initiator : CloseInitiator
  disposition : CloseDisposition
  activeResponse : String := "none"
  settlement : String := "none"
  relatedEventId : Option String := none
  clientEventType : Option String := none
  failure : Option RealtimeFailureContext := none
  deriving DecidableEq, Repr

/-- The events that the adapters of the package build from provider frames. -/
inductive ProviderEvent
  | speechStarted (turnId : String)
  | speechStopped (turnId : String)
  | transcriptDelta (turnId text : String)
  | transcriptCompleted (turnId text : String)
  | responseStarted (turnId responseId : String)
  | outputText (output : OutputIdentity) (text : String) (isDelta : Bool)
  | outputAudioStarted (output : OutputIdentity)
  | outputAudio (output : OutputIdentity) (data : Bytes)
  | outputAudioCompleted (output : OutputIdentity)
  | toolCallRequested (call : ToolCallRequested)
  | responseFinished (response : ResponseFinished)
  | sessionFailed (failed : SessionFailed)
  deriving DecidableEq, Repr

/-- The closed union of events a product can read from `events()`. -/
inductive RealtimeEvent
  | provider (event : ProviderEvent)
  | sessionReady (generation : ℕ) (correlation : String) (inputAudio outputAudio : RealtimeAudioFormat)
      (toolsAcknowledged : Bool)
  | sessionExpiring (remainingMs : ℕ)
  | sessionClosed (closed : SessionClosed)
  deriving DecidableEq, Repr

/-- `SessionClosed` and `SessionFailed`, the session terminals. -/
def RealtimeEvent.isTerminal : RealtimeEvent → Bool
  | .provider (.sessionFailed _) | .sessionClosed _ => true
  | _ => false

end HarnessSdk
