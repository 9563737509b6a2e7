import HarnessSdk.AdapterShared

/-!
# The Qwen Omni adapter

The wire codec checks the frame and its identity, `decodeServerEvent` gives it a meaning. Injected
messages wait in the order of their frames until the provider has echoed them.
-/

namespace HarnessSdk

deriving instance BEq for Json

/-- An injected message: the item's role and its only text part. -/
structure ContextMessage where
  role : Role
  text : String
  deriving DecidableEq

/-- The fields of `QwenOmniAdapter`. Instructions wait in `contextEvents` without a message. -/
structure QwenOmniAdapter where
  tools : List Json.Object := []
  contextEvents : Dict String (Option ContextMessage) := ∅
  instructionUpdate : Option (String × String) := none
  contextSeenItemIds : Finset String := ∅
  contextSeenEventIds : Finset String := ∅

namespace QwenOmni

/-! The wire codec. -/

def clientEvents : List String :=
  ["session.update", "input_audio_buffer.append", "input_audio_buffer.commit", "input_audio_buffer.clear",
    "response.create", "response.cancel", "conversation.item.create"]

def serverEvents : List String :=
  ["error", "session.updated", "input_audio_buffer.speech_started", "input_audio_buffer.speech_stopped",
    "input_audio_buffer.committed", "conversation.item.created",
    "conversation.item.input_audio_transcription.delta",
    "conversation.item.input_audio_transcription.completed",
    "conversation.item.input_audio_transcription.failed", "response.created", "response.done",
    "response.text.delta", "response.text.done", "response.audio.delta", "response.audio.done",
    "response.audio_transcript.delta", "response.audio_transcript.done",
    "response.function_call_arguments.delta", "response.function_call_arguments.done",
    "response.output_item.added", "response.output_item.done", "response.content_part.added",
    "response.content_part.done"]

def inputAudioLimit : ℕ := 65536
def outputAudioLimit : ℕ := 262144

/-- `event_[A-Za-z0-9_-]{1,120}`. -/
def isEventId (s : String) : Bool :=
  let rest := s.toList.drop 6
  Text.startsWith s "event_" && decide (1 ≤ rest.length ∧ rest.length ≤ 120) &&
    rest.all fun c => Text.isUpper c || Text.isLower c || Text.isDigit c || c == '_' || c == '-'

def checkEventId (eventId : String) : Except Exn Unit :=
  if Text.isBlank eventId then invalidField "event_id" "event_id is required" "missing_identity"
  else if isEventId eventId then .ok ()
  else protocolError "invalid Qwen event_id"

def encodeClientEvent (event : ClientEvent) : Except Exn Unit := do
  checkEventId event.eventId
  if event.type ∉ clientEvents then
    .error (.realtime { code := .invalidRequest, message := "unknown Qwen client event" })
  else
    match event.body with
    | .audioAppend pcm => recheckAudio inputAudioLimit pcm
    | _ => .ok ()

/-- A frame with its type and its event id. -/
structure ServerFrame where
  type : String
  eventId : String
  value : Json.Object

def eventIdentity (value : Json.Object) : Except Exn ServerFrame := do
  let eventId ← requireIdentifier (Json.field value "event_id") "event_id"
  let some type := Json.asString (Json.field value "type") | protocolError "event type/id is required"
  if isEventId eventId then .ok ⟨type,eventId,value⟩ else protocolError "invalid Qwen event_id"

def wireDecode (payload : Payload) : Except Exn ServerFrame := do
  if payload.bytes > 1048576 then protocolError "Qwen frame is too large"
  let frame ← eventIdentity (← strictJsonObject payload)
  if frame.type ∈ serverEvents then .ok frame else protocolError "unknown Qwen server event"

/-! Building client events. -/

def sessionUpdate (fresh : String) (request : RealtimeOpenRequest) (a : QwenOmniAdapter) :
    Except Exn (ClientEvent × QwenOmniAdapter) :=
  .ok (⟨newEventId fresh,.sessionUpdate request.instructions request.tools⟩,{ a with tools := request.tools })

def audioAppend (fresh : String) (pcm : Bytes) : Except Exn ClientEvent := do
  checkAudio inputAudioLimit pcm
  .ok ⟨newEventId fresh,.audioAppend pcm⟩

def cancelResponse (fresh : String) (_responseId : Option String) : ClientEvent :=
  ⟨newEventId fresh,.responseCancel none⟩

def truncateOutput (_fresh _itemId : String) (_contentIndex _audioEndMs : ℤ) : Except Exn ClientEvent :=
  .error (.realtime { code := .unsupported, message := "Qwen does not support truncate" })

def toolResult (fresh callId output : String) : ClientEvent :=
  ⟨newEventId fresh,.functionCallOutput callId output⟩

def followupResponse (fresh _callId : String) (_a : QwenOmniAdapter) : ClientEvent :=
  ⟨newEventId fresh,.responseCreate none false⟩

def appendMessage (fresh text : String) (role : Role) (a : QwenOmniAdapter) : ClientEvent × QwenOmniAdapter :=
  let identity := newEventId fresh
  (⟨identity,.message role text⟩,{ a with contextEvents := a.contextEvents.set identity (some ⟨role,text⟩) })

def updateInstructions (fresh text : String) (a : QwenOmniAdapter) : ClientEvent × QwenOmniAdapter :=
  let identity := newEventId fresh
  (⟨identity,.instructionsUpdate text⟩,
    { a with instructionUpdate := some (identity,text), contextEvents := a.contextEvents.set identity none })

def outOfBandResponse (_fresh _text : String) (_a : QwenOmniAdapter) :
    Except Exn (ClientEvent × QwenOmniAdapter) :=
  .error (.realtime { code := .unsupported, message := "Qwen has no out-of-band response" })

/-! The decoder. -/

abbrev QwenDecoder (α : Type) := Decoder QwenOmniAdapter α

def refused {α : Type} (message : String) : QwenDecoder α :=
  Run.raise (.realtime { code := .protocolError, message })

/-- `self._context_seen_event_ids.add(event_id)`, and then the answer. -/
def seen (d : DecodedProviderEvent) : QwenDecoder DecodedProviderEvent := do
  Run.modify fun s => { s with adapter := { s.adapter with
    contextSeenEventIds := insert d.eventId s.adapter.contextSeenEventIds } }
  pure d

def seeItems (itemIds : Finset String) (s : DecoderState QwenOmniAdapter) : DecoderState QwenOmniAdapter :=
  { s with adapter := { s.adapter with contextSeenItemIds := s.adapter.contextSeenItemIds ∪ itemIds } }

/-- `self._context_events.pop(identity, None)`. -/
def popContext (identity : String) (s : DecoderState QwenOmniAdapter) : DecoderState QwenOmniAdapter :=
  { s with adapter := { s.adapter with contextEvents := s.adapter.contextEvents.erase identity } }

def clearInstructions (s : DecoderState QwenOmniAdapter) : DecoderState QwenOmniAdapter :=
  { s with adapter := { s.adapter with instructionUpdate := none } }

/-- The role that an output item declares, or the one its response stands for. -/
def outputItemRole (nested : Json.Object) (inResponse : Bool) : Except Exn (Option Role) :=
  if Json.hasField nested "role" then
    match (Json.asString (Json.field nested "role")).bind Role.ofValue with
    | some role => .ok (some role)
    | none => invalidField "role" "invalid item role" "unknown_enum"
  else .ok (if inResponse then some .assistant else none)

/-- Output items are registered before anything else; a completed user message ends the decoding. -/
def registerOutputItem (frame : ServerFrame) : QwenDecoder Bool :=
  match Json.asObject (Json.field frame.value "item") with
  | none => pure false
  | some nested =>
    match optionalIdentifier (Json.field nested "id") with
    | none => pure false
    | some nestedId => do
      let inResponse := (optionalIdentifier (Json.field frame.value "response_id")).isSome
      match ← Run.ofExcept (outputItemRole nested inResponse) with
      | some .user =>
        if inResponse && Json.isString (Json.field nested "type") "message" &&
            Json.isString (Json.field nested "status") "completed" then do
          Decoder.register nestedId .user "output_item" true
          pure true
        else pure false
      | some role =>
        if inResponse && frame.type == "response.output_item.added" then do
          Decoder.register nestedId role "output_item" false
          pure false
        else pure false
      | none => pure false

def contentIdentity (value : Json.Object) : Except Exn OutputIdentity := do
  let responseId ← requireIdentifier (Json.field value "response_id") "response_id"
  let itemId ← requireIdentifier (Json.field value "item_id") "item_id"
  let outputIndex ← requireNonnegativeInteger (Json.field value "output_index") "output_index"
  let contentIndex ← requireNonnegativeInteger (Json.field value "content_index") "content_index"
  return ⟨responseId,itemId,outputIndex,contentIndex⟩

/-- The item that a response event without a response belongs to. -/
def userSideItem (frame : ServerFrame) : Except Exn (Option String) := do
  let itemId := optionalIdentifier (Json.field frame.value "item_id")
  if Text.startsWith frame.type "response.output_item." then
    let nestedId := (Json.asObject (Json.field frame.value "item")).bind fun item =>
      optionalIdentifier (Json.field item "id")
    if itemId.isSome ∧ nestedId.isSome ∧ itemId ≠ nestedId then protocolError "conflicting item identity"
    else return itemId.orElse fun _ => nestedId
  else return itemId

def missingResponse {α : Type} (table : RealtimeIdentityTable) (itemId : Option String) : Except Exn α :=
  let assistant := (itemId.bind table.lookup).any fun item => item.role == .assistant
  invalidField "response_id" "response_id is required"
    (if assistant then "suspected_assistant_missing_response_id" else "unresolved_item_missing_response_id")

/-- The key of the text of a transcript event, and whether it is a delta. -/
def transcriptKey : String → Option (String × Bool)
  | "response.audio_transcript.delta" => some ("delta",true)
  | "response.audio_transcript.done" => some ("transcript",false)
  | _ => none

def userSideResponseEvent (frame : ServerFrame) : QwenDecoder DecodedProviderEvent := do
  let itemId ← Run.ofExcept (userSideItem frame)
  let s ← Run.get
  match itemId.filter s.table.isUser with
  | none => Run.ofExcept (missingResponse s.table itemId)
  | some itemId =>
    match transcriptKey frame.type with
    | some (key,isDelta) =>
      if Json.isString (Json.field frame.value key) "" then
        pure { eventId := frame.eventId, userSideTranscriptIgnored := true
               userSideResponseEventIgnored := some frame.type }
      else do
        let text ← Run.ofExcept (requireString (Json.field frame.value key) key)
        let event := if isDelta then .transcriptDelta itemId text else .transcriptCompleted itemId text
        pure { eventId := frame.eventId, events := [event] }
    | none => pure { eventId := frame.eventId, userSideResponseEventIgnored := some frame.type }

/-! Session acknowledgements. -/

def unsupported {α : Type} (message : String) : Except Exn α :=
  .error (.realtime { code := .unsupported, message })

abbrev Signature := List (String × Finset String × Finset String)

/-- The name, the required keys and the properties of one tool of a catalog. -/
def toolSignature (known : Signature) (tool : Json) : Except Exn Signature := do
  let .obj tool := tool | unsupported "Qwen function tool missing"
  if !Json.isString (Json.field tool "type") "function" then unsupported "Qwen function tool missing"
  let .obj function := (Json.field tool "function").getD (.obj tool) | unsupported "Qwen function tool malformed"
  let some name := Json.asString (Json.field function "name") | unsupported "Qwen function identity mismatch"
  let .obj parameters := (Json.field function "parameters").getD (.obj [])
    | unsupported "Qwen function identity mismatch"
  if name = "" ∨ name ∈ known.map Prod.fst then unsupported "Qwen function identity mismatch"
  let .arr required := (Json.field parameters "required").getD (.arr [])
    | unsupported "Qwen function parameters malformed"
  let some required := required.mapM fun key => Json.asString (some key)
    | unsupported "Qwen function parameters malformed"
  let .obj properties := (Json.field parameters "properties").getD (.obj [])
    | unsupported "Qwen function parameters malformed"
  return known ++ [(name,required.toFinset,(Json.names properties).toFinset)]

def toolCatalogSignature : Json → Except Exn Signature
  | .arr tools => tools.foldlM toolSignature []
  | _ => unsupported "Qwen tool catalog is not a list"

def expectedSession : Json.Object :=
  [("modalities",.arr [.str "text",.str "audio"]), ("voice",.str "Tina"),
    ("audio",.obj [("input",.obj [("format",.obj [("type",.str "pcm"), ("sample_rate",.int 16000)])]),
      ("output",.obj [("format",.obj [("type",.str "pcm"), ("sample_rate",.int 24000)])])]),
    ("input_audio_transcription",.obj [("model",.str "qwen3-asr-flash-realtime")])]

def expectedTurnDetection : Json :=
  .obj [("type",.str "semantic_vad"), ("threshold",.float (1 / 2)), ("silence_duration_ms",.int 800),
    ("create_response",.bool true), ("interrupt_response",.bool true)]

def sessionKeys : List String :=
  ["id", "modalities", "instructions", "voice", "audio", "input_audio_transcription", "turn_detection"]

/-- `_validate_session_ack`: whether the provider has rewritten the catalog. -/
def validateSessionAck (tools : List Json.Object) (value : Json.Object) : Except Exn Bool := do
  if !sameNames value ["event_id", "type", "session"] then
    protocolError "Qwen session acknowledgement fields do not match"
  let session ← requireObject (Json.field value "session") "session"
  if !(sessionKeys.all (· ∈ Json.names session) && (Json.names session).all (· ∈ "tools" :: sessionKeys)) then
    protocolError "Qwen session fields do not match"
  let normalized ← (match Json.field session "tools" with
    | none => if tools.isEmpty then .ok false else unsupported "Qwen did not acknowledge tools"
    | some acknowledged => do
      let own := Json.arr (tools.map .obj)
      let left ← toolCatalogSignature acknowledged
      let right ← toolCatalogSignature own
      if left.length = right.length ∧ left.all (· ∈ right) then .ok (acknowledged != own)
      else unsupported "Qwen tool catalog not acknowledged")
  let _ ← requireIdentifier (Json.field session "id") "session.id"
  let _ ← requireString (Json.field session "instructions") "session.instructions"
  if expectedSession.any fun m => !Json.equals (Json.field session m.1) m.2 then
    protocolError "Qwen session configuration mismatch"
  let turnDetection ← requireObject (Json.field session "turn_detection") "session.turn_detection"
  if !Json.equal (.obj turnDetection) expectedTurnDetection then
    protocolError "Qwen turn detection acknowledgement mismatch"
  return normalized

/-- The echo of an instructions update, or the acknowledgement of the session itself. -/
def sessionUpdated (frame : ServerFrame) : QwenDecoder DecodedProviderEvent := do
  let s ← Run.get
  match s.adapter.instructionUpdate with
  | some (identity,expected) => do
    let session ← Run.ofExcept (requireObject (Json.field frame.value "session") "session")
    if (Json.asString (Json.field session "instructions")).any fun text => Text.strip text = Text.strip expected then do
      Run.modify fun s => popContext identity (clearInstructions s)
      seen { eventId := frame.eventId, sessionAcknowledged := true, contextRequestId := some identity }
    else refused "context instructions mismatch"
  | none => do
    let normalized ← Run.ofExcept (validateSessionAck s.adapter.tools frame.value)
    seen { eventId := frame.eventId, providerReady := true, sessionAcknowledged := true
           toolsAcknowledged := !s.adapter.tools.isEmpty, toolCatalogNormalized := normalized }

/-! Spoken input. -/

/-- `_id(value.get("item_id"), "item_id")`. -/
def itemId (frame : ServerFrame) : QwenDecoder String :=
  Run.ofExcept (requireIdentifier (Json.field frame.value "item_id") "item_id")

def committed (frame : ServerFrame) : QwenDecoder DecodedProviderEvent := do
  Decoder.register (← itemId frame) .user "committed" true
  pure { eventId := frame.eventId }

def speechStarted (frame : ServerFrame) : QwenDecoder DecodedProviderEvent := do
  let turnId ← itemId frame
  Decoder.register turnId .user "speech_started" false
  pure { eventId := frame.eventId, events := [.speechStarted turnId] }

def transcriptionDelta (frame : ServerFrame) : QwenDecoder DecodedProviderEvent := do
  let turnId ← itemId frame
  if Json.isString (Json.field frame.value "text") "" then pure { eventId := frame.eventId }
  else do
    let text ← Run.ofExcept (requireString (Json.field frame.value "text") "text")
    pure { eventId := frame.eventId, events := [.transcriptDelta turnId text] }

/-- An empty transcript closes a turn without words. -/
def transcriptionCompleted (frame : ServerFrame) : QwenDecoder DecodedProviderEvent := do
  let turnId ← itemId frame
  Decoder.register turnId .user "transcript" true
  if Json.isString (Json.field frame.value "transcript") "" then pure { eventId := frame.eventId }
  else do
    let text ← Run.ofExcept (requireString (Json.field frame.value "transcript") "transcript")
    pure { eventId := frame.eventId, events := [.transcriptCompleted turnId text] }

/-! Conversation items. -/

def voiceOrigins : List String := ["speech_started", "committed", "input_audio_item", "transcript"]

def isAudioPart (part : Json) : Bool :=
  match part with
  | .obj part => Json.isString (Json.field part "type") "input_audio"
  | _ => false

/-- `_context_text_parts`. -/
def contextTextParts (content : Option Json) : Except Exn (List String) :=
  match Json.asList content with
  | none | some [] => protocolError "context content missing"
  | some parts => parts.mapM fun part =>
    match part with
    | .obj part =>
      match Json.isString (Json.field part "type") "input_text", Json.asString (Json.field part "text") with
      | true, some text => .ok text
      | _, _ => protocolError "context content mismatch"
    | _ => protocolError "context content mismatch"

/-- What an audio item says about its role, unless it is the user's. -/
def roleMismatch (serverId : String) (role : Option Json) : Option (String × String) :=
  let declared := match role with
    | none | some .null => "missing"
    | some (.str raw) => if (Role.ofValue raw).isSome then raw else "invalid"
    | some _ => "invalid"
  if declared = "user" then none else some (serverId,declared)

/-- The first message that is still waiting. -/
def oldestMessage (a : QwenOmniAdapter) : Option (String × ContextMessage) :=
  a.contextEvents.entries.findSome? fun e => e.2.map fun expected => (e.1,expected)

/-- An item of spoken input. -/
def audioItemCreated (eventId serverId : String) (item : Json.Object) (source : String) :
    QwenDecoder DecodedProviderEvent := do
  let s ← Run.get
  if serverId ∈ s.adapter.contextEvents then refused "context message mismatch"
  else do
    Decoder.register serverId .user source (Json.isString (Json.field item "status") "completed")
    Run.modify (seeItems {serverId})
    seen { eventId, itemRoleMetadataMismatch := roleMismatch serverId (Json.field item "role") }

/-- An item that no message waits for. -/
def unrelatedItemCreated (eventId serverId : String) (item : Json.Object) (unrelatedAudio : Bool) :
    QwenDecoder DecodedProviderEvent := do
  let s ← Run.get
  if serverId ∈ s.adapter.contextEvents then refused "unexpected context message"
  else do
    if unrelatedAudio && Json.isString (Json.field item "type") "message" &&
        Json.isString (Json.field item "role") "user" && Json.isString (Json.field item "status") "completed" then
      Decoder.register serverId .user "input_audio_item" true
    else pure ()
    Run.modify (seeItems {serverId})
    seen { eventId }

/-- The item has the shape of the message that waits first, up to its content. -/
def echoShape (item : Json.Object) (role : Role) : Bool :=
  Json.isString (Json.field item "type") "message" && Json.isString (Json.field item "status") "completed" &&
    Json.isString (Json.field item "role") role.value

/-- The echo of the message that waits first. -/
def echoCreated (eventId serverId : String) (item : Json.Object) (requestId : String)
    (expected : ContextMessage) : QwenDecoder DecodedProviderEvent := do
  let s ← Run.get
  if !echoShape item expected.role || (decide (serverId ∈ s.adapter.contextEvents) && serverId != requestId) then
    refused "context message mismatch"
  else do
    let parts ← Run.ofExcept (contextTextParts (Json.field item "content"))
    if parts ≠ [expected.text] then refused "context message mismatch"
    else do
      Run.modify fun s => seeItems {requestId,serverId} (popContext requestId s)
      Run.modify fun s => { s with adapter := { s.adapter with
        contextSeenEventIds := insert eventId s.adapter.contextSeenEventIds } }
      if expected.role ≠ .assistant then
        Decoder.register serverId expected.role "context_ack" true [requestId]
      else pure ()
      pure { eventId, contextAckId := some serverId, contextRequestId := some requestId }

def contextMessageCreated (eventId : String) (item : Json.Object) : QwenDecoder DecodedProviderEvent := do
  let serverId ← Run.ofExcept (requireIdentifier (Json.field item "id") "item.id")
  let content := Json.asList (Json.field item "content")
  let hasInputAudio := content.any (·.any isAudioPart)
  let s ← Run.get
  let known := (s.table.lookup serverId).filter fun known =>
    known.role == .user && known.origin.any (· ∈ voiceOrigins)
  if Json.isString (Json.field item "type") "message" && (hasInputAudio || known.isSome) then
    audioItemCreated eventId serverId item
      (if hasInputAudio then "input_audio_item" else known.elim "input_audio_item" (·.source))
  else if serverId ∈ s.adapter.contextSeenItemIds then seen { eventId }
  else
    let unrelatedAudio := decide (serverId ∉ s.adapter.contextEvents) &&
      content.any fun parts => !parts.isEmpty && parts.all isAudioPart
    match if unrelatedAudio then none else oldestMessage s.adapter with
    | none => unrelatedItemCreated eventId serverId item unrelatedAudio
    | some (requestId,expected) => echoCreated eventId serverId item requestId expected

/-- The identity of a tool result that the provider has taken over. -/
def toolAckIdentity (item : Json.Object) : Except Exn (Option (String × String × String × String × String)) :=
  if Json.isString (Json.field item "type") "function_call_output" then do
    let itemId ← requireIdentifier (Json.field item "id") "item.id"
    let type ← requireString (Json.field item "type") "item.type"
    let status ← requireString (Json.field item "status") "item.status"
    let callId ← requireIdentifier (Json.field item "call_id") "item.call_id"
    let output ← requireString (Json.field item "output") "item.output"
    return some (itemId,type,status,callId,output)
  else .ok none

def itemCreated (frame : ServerFrame) : QwenDecoder DecodedProviderEvent := do
  let item ← Run.ofExcept (requireObject (Json.field frame.value "item") "item")
  let s ← Run.get
  if Json.isString (Json.field item "type") "message" ||
      (optionalIdentifier (Json.field item "id")).any (· ∈ s.adapter.contextEvents) then
    contextMessageCreated frame.eventId item
  else do
    let toolAckIdentity ← Run.ofExcept (toolAckIdentity item)
    seen { eventId := frame.eventId, toolAckIdentity }

/-! Responses. -/

def responseCreated (frame : ServerFrame) : QwenDecoder DecodedProviderEvent := do
  let response ← Run.ofExcept (requireObject (Json.field frame.value "response") "response")
  let responseId ← Run.ofExcept (requireIdentifier (Json.field response "id") "response.id")
  pure { eventId := frame.eventId, events := [.responseStarted ("turn_" ++ responseId) responseId]
         introducedResponseId := some responseId }

/-- The response, the id, the type and the index of an output item. -/
def outputItem (frame : ServerFrame) : Except Exn (String × String × ℕ × String) := do
  let responseId ← requireIdentifier (Json.field frame.value "response_id") "response_id"
  let item ← requireObject (Json.field frame.value "item") "item"
  let itemId ← requireIdentifier (Json.field item "id") "item.id"
  let itemType ← requireString (Json.field item "type") "item.type"
  let outputIndex ← requireNonnegativeInteger (Json.field frame.value "output_index") "output_index"
  return (responseId,itemId,outputIndex,itemType)

def outputItemEvent (frame : ServerFrame) (added : Bool) : QwenDecoder DecodedProviderEvent := do
  let detail ← Run.ofExcept (outputItem frame)
  let item := (detail.1,detail.2.1)
  if added then
    pure { eventId := frame.eventId, introducedItem := some item, introducedItemDetail := some detail }
  else pure { eventId := frame.eventId, completedItem := some item }

def contentPartEvent (frame : ServerFrame) (added : Bool) : QwenDecoder DecodedProviderEvent := do
  let identity ← Run.ofExcept (contentIdentity frame.value)
  let part ← Run.ofExcept (requireObject (Json.field frame.value "part") "part")
  if added then
    let events := if Json.isString (Json.field part "type") "audio" then [.outputAudioStarted identity] else []
    pure { eventId := frame.eventId, events, introducedContent := some identity }
  else pure { eventId := frame.eventId, completedContent := some identity }

def outputText (frame : ServerFrame) (key : String) (isDelta : Bool) : QwenDecoder DecodedProviderEvent := do
  let identity ← Run.ofExcept (contentIdentity frame.value)
  let text ← Run.ofExcept (requireString (Json.field frame.value key) key)
  pure { eventId := frame.eventId, events := [.outputText identity text isDelta] }

def audioDelta (frame : ServerFrame) : QwenDecoder DecodedProviderEvent := do
  let identity ← Run.ofExcept (contentIdentity frame.value)
  let audio ← Run.ofExcept (decodeBase64Pcm (Json.field frame.value "delta") outputAudioLimit)
  pure { eventId := frame.eventId, events := [.outputAudio identity audio] }

def audioDone (frame : ServerFrame) : QwenDecoder DecodedProviderEvent := do
  let identity ← Run.ofExcept (contentIdentity frame.value)
  pure { eventId := frame.eventId, events := [.outputAudioCompleted identity] }

def functionCall (value : Json.Object) : Except Exn (ToolCallRequested × (String × String × ℕ × String)) := do
  let responseId ← requireIdentifier (Json.field value "response_id") "response_id"
  let itemId ← requireIdentifier (Json.field value "item_id") "item_id"
  let outputIndex ← requireNonnegativeInteger (Json.field value "output_index") "output_index"
  let callId ← requireIdentifier (Json.field value "call_id") "call_id"
  let some argumentsJson := Json.asString (Json.field value "arguments")
    | protocolError "arguments must be a string"
  let name ← requireString (Json.field value "name") "name"
  return ({ responseId, callId, name, argumentsJson },(responseId,itemId,outputIndex,callId))

def functionCallDone (frame : ServerFrame) : QwenDecoder DecodedProviderEvent := do
  let (call,identity) ← Run.ofExcept (functionCall frame.value)
  pure { eventId := frame.eventId, events := [.toolCallRequested call], toolCallIdentity := some identity }

/-- Whether `status_details` says that the response was interrupted. An unhashable reason is a
`TypeError`. -/
def interruptedDetails (details : Option Json) : Except Exn Bool :=
  match Json.asObject details with
  | none => .ok false
  | some details =>
    let reason := Json.field details "reason"
    if !Json.hashable reason then .error .exception
    else .ok (Json.isString reason "client_cancelled" || Json.isString reason "turn_detected")

def responseStatus (response : Json.Object) : Except Exn ResponseStatus := do
  match ← requireString (Json.field response "status") "response.status" with
  | "completed" => return .completed
  | "failed" => return .failed
  | "incomplete" =>
    return if ← interruptedDetails (Json.field response "status_details") then .cancelled else .incomplete
  | "cancelled" => return .cancelled
  | _ => protocolError "unknown response status"

def responseDone (frame : ServerFrame) : Except Exn DecodedProviderEvent := do
  let response ← requireObject (Json.field frame.value "response") "response"
  let responseId ← requireIdentifier (Json.field response "id") "response.id"
  let status ← responseStatus response
  let usage ← parseTerminalUsage response "input_tokens_details" "output_tokens_details"
  if status ≠ .failed ∧ status ≠ .cancelled ∧ usage = none then protocolError "terminal usage is required"
  let failed : List ProviderEvent :=
    if status = .failed then [.sessionFailed { code := .protocolError, retryable := false }] else []
  return { eventId := frame.eventId, events := .responseFinished { responseId, status, usage } :: failed }

/-! Provider errors. -/

def forbiddenCodes : List String :=
  ["AccessDenied", "access_denied", "Endpoint.AccessDenied", "AllocationQuota.FreeTierOnly", "Arrearage",
    "CommodityNotPurchased", "PrepaidBillOverdue", "PostpaidBillOverdue"]

def rateLimitedCodes : List String :=
  ["Throttling", "Throttling.RateQuota", "LimitRequests", "limit_requests", "ResourceExhausted",
    "Throttling.BurstRate", "limit_burst_rate", "Throttling.AllocationQuota", "insufficient_quota",
    "Throttling.Concurrency"]

/-- `_map_error`. An unhashable code is a `TypeError`. -/
def mapError (error : Json.Object) : Except Exn (RealtimeErrorCode × Bool) :=
  let code := (Json.asString (Json.field error "code")).getD ""
  if !Json.hashable (Json.field error "code") then .error .exception
  else if code ∈ ["InvalidApiKey", "invalid_api_key"] then .ok (.unauthenticated,false)
  else if code ∈ forbiddenCodes then .ok (.forbidden,false)
  else if code ∈ rateLimitedCodes then .ok (.rateLimited,true)
  else if code = "ModelServingError" then .ok (.unavailable,true)
  else if Json.isString (Json.field error "type") "invalid_request_error" &&
      decide (code ∈ ["invalid_value", "missing_required_parameter", "invalid_event", "audio_format_invalid"]) then
    .ok (.invalidRequest,false)
  else .ok (.protocolError,false)

/-- The pending request that an error is about: the one it names, or the only one when the error says
that a request was invalid. -/
def rejectedRequest (a : QwenOmniAdapter) (error : Json.Object) (code : RealtimeErrorCode) : Option String :=
  match optionalIdentifier (Json.field error "event_id") with
  | some rejected => some rejected
  | none =>
    match a.contextEvents.keys with
    | [only] =>
      if code = .invalidRequest ∨ (Json.asString (Json.field error "code")).getD "" ∈
          ["InvalidParameter", "unsupported", "unsupported_event"] then some only else none
    | _ => none

def providerError (frame : ServerFrame) : QwenDecoder DecodedProviderEvent := do
  let error ← Run.ofExcept (requireObject (Json.field frame.value "error") "error")
  let (code,retryable) ← Run.ofExcept (mapError error)
  let s ← Run.get
  match (rejectedRequest s.adapter error code).filter (· ∈ s.adapter.contextEvents) with
  | some rejected => do
    Run.modify fun s => seeItems {rejected} (popContext rejected s)
    if s.adapter.instructionUpdate.any fun update => update.1 = rejected then Run.modify clearInstructions
    else pure ()
    pure { eventId := frame.eventId, rejectedEventId := some rejected
           events := [.sessionFailed { code := .unsupported, retryable := false }] }
  | none => pure { eventId := frame.eventId, events := [.sessionFailed { code, retryable }] }

/-! The meaning of a frame. -/

def decodeFrame (frame : ServerFrame) : QwenDecoder DecodedProviderEvent :=
  match frame.type with
  | "session.updated" => sessionUpdated frame
  | "input_audio_buffer.committed" => committed frame
  | "input_audio_buffer.speech_started" => speechStarted frame
  | "input_audio_buffer.speech_stopped" => do
    let turnId ← itemId frame
    pure { eventId := frame.eventId, events := [.speechStopped turnId] }
  | "conversation.item.input_audio_transcription.delta" => transcriptionDelta frame
  | "conversation.item.input_audio_transcription.completed" => transcriptionCompleted frame
  | "conversation.item.input_audio_transcription.failed" =>
    pure { eventId := frame.eventId, events := [.sessionFailed { code := .unavailable, retryable := true }] }
  | "response.created" => responseCreated frame
  | "response.output_item.added" => outputItemEvent frame true
  | "response.output_item.done" => outputItemEvent frame false
  | "response.content_part.added" => contentPartEvent frame true
  | "response.content_part.done" => contentPartEvent frame false
  | "response.text.delta" => outputText frame "delta" true
  | "response.text.done" => outputText frame "text" false
  | "response.audio.delta" => audioDelta frame
  | "response.audio.done" => audioDone frame
  | "response.audio_transcript.delta" => outputText frame "delta" true
  | "response.audio_transcript.done" => outputText frame "transcript" false
  | "response.function_call_arguments.done" => functionCallDone frame
  | "conversation.item.created" => itemCreated frame
  | "response.done" => Run.ofExcept (responseDone frame)
  | "error" => providerError frame
  | _ => pure { eventId := frame.eventId }

/-- A response event other than the two that carry their response inside. -/
def isResponseScoped (type : String) : Bool :=
  Text.startsWith type "response." && type != "response.created" && type != "response.done"

def decodeServerFrame (frame : ServerFrame) : QwenDecoder DecodedProviderEvent := do
  let s ← Run.get
  if frame.eventId ∈ s.adapter.contextSeenEventIds then
    pure { eventId := frame.eventId, sessionAcknowledged := frame.type == "session.updated" }
  else do
    let settled ← (if frame.type == "response.output_item.added" || frame.type == "response.output_item.done" then
        registerOutputItem frame
      else pure false)
    if settled then pure { eventId := frame.eventId }
    else if isResponseScoped frame.type && (optionalIdentifier (Json.field frame.value "response_id")).isNone then
      userSideResponseEvent frame
    else decodeFrame frame

def decodeServerEvent (payload : Payload) (a : QwenOmniAdapter) (table : RealtimeIdentityTable) :
    Decoding QwenOmniAdapter :=
  Decoder.decoding (Run.ofExcept (wireDecode payload) >>= decodeServerFrame) a table

end QwenOmni
end HarnessSdk
