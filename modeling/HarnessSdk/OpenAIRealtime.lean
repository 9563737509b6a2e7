import HarnessSdk.QwenOmni

/-!
# The OpenAI Realtime adapter

The adapter of the fixtures reads frames with the helpers that the native adapters share. It has no use
for the identity table of the session: an injected message is echoed under the id it was sent with.
-/

namespace HarnessSdk

/-- The fields of `OpenAIRealtimeAdapter`. Of the requests in `contextEvents` only messages have an item
that the echo is compared with. -/
structure OpenAIRealtimeAdapter where
  tools : List Json.Object := []
  contextEvents : Dict String (Option Json.Object) := ∅
  pendingResponse : Option String := none
  instructionUpdate : Option (String × String) := none
  contextInstructions : Option String := none

namespace OpenAIRealtime

open QwenOmni (ServerFrame contentIdentity functionCall outputItem toolAckIdentity unsupported)

/-! The wire codec. -/

def clientEvents : List String :=
  ["session.update", "input_audio_buffer.append", "input_audio_buffer.commit", "response.create", "response.cancel",
    "conversation.item.create", "conversation.item.truncate"]

def serverEvents : List String :=
  ["error", "session.created", "session.updated", "input_audio_buffer.speech_started",
    "input_audio_buffer.speech_stopped", "input_audio_buffer.committed", "conversation.item.created",
    "conversation.item.input_audio_transcription.completed", "response.created", "response.output_item.added",
    "response.output_item.done", "response.content_part.added", "response.content_part.done",
    "response.output_audio.delta", "response.output_audio.done", "response.output_audio_transcript.delta",
    "response.output_audio_transcript.done", "response.function_call_arguments.delta",
    "response.function_call_arguments.done", "response.done"]

def inputAudioLimit : ℕ := 65536
def outputAudioLimit : ℕ := 262144

def encodeClientEvent (event : ClientEvent) : Except Exn Unit := do
  if Text.isBlank event.eventId then invalidField "event_id" "event_id is required" "missing_identity"
  else if event.type ∉ clientEvents then
    .error (.realtime { code := .invalidRequest, message := "unknown OpenAI client event" })
  else
    match event.body with
    | .audioAppend pcm => recheckAudio inputAudioLimit pcm
    | _ => .ok ()

/-- `_identity`: unlike the other adapter's, any text that is not blank is an event id. -/
def identity (value : Json.Object) : Except Exn ServerFrame := do
  let eventId ← requireIdentifier (Json.field value "event_id") "event_id"
  let some type := Json.asString (Json.field value "type") | protocolError "event type/id is required"
  return ⟨type,eventId,value⟩

/-- Audio is decoded once here, for its errors, and once more for its samples. -/
def wireDecode (payload : Payload) : Except Exn ServerFrame := do
  if payload.bytes > 1048576 then protocolError "OpenAI frame is too large"
  let frame ← identity (← strictJsonObject payload)
  if frame.type ∉ serverEvents then protocolError "unknown OpenAI server event"
  if frame.type = "response.output_audio.delta" then
    let _ ← decodeBase64Pcm (Json.field frame.value "delta") outputAudioLimit
  return frame

/-! Building client events. -/

def sessionUpdate (fresh : String) (request : RealtimeOpenRequest) (a : OpenAIRealtimeAdapter) :
    Except Exn (ClientEvent × OpenAIRealtimeAdapter) :=
  .ok (⟨newEventId fresh,.sessionUpdate request.instructions request.tools⟩,{ a with tools := request.tools })

def audioAppend (fresh : String) (pcm : Bytes) : Except Exn ClientEvent := do
  checkAudio inputAudioLimit pcm
  .ok ⟨newEventId fresh,.audioAppend pcm⟩

def cancelResponse (fresh : String) (responseId : Option String) : ClientEvent :=
  ⟨newEventId fresh,.responseCancel responseId⟩

def truncateOutput (fresh itemId : String) (contentIndex audioEndMs : ℤ) : Except Exn ClientEvent :=
  if contentIndex < 0 ∨ audioEndMs < 0 then .error (.realtime { code := .invalidRequest })
  else .ok ⟨newEventId fresh,.itemTruncate itemId contentIndex audioEndMs⟩

def toolResult (fresh callId output : String) : ClientEvent :=
  ⟨newEventId fresh,.functionCallOutput callId output⟩

/-- The response that is no tool call's carries the instructions of the context. -/
def followupResponse (fresh callId : String) (a : OpenAIRealtimeAdapter) : ClientEvent :=
  ⟨newEventId fresh,.responseCreate (if callId = "" then a.contextInstructions else none) false⟩

/-- The item that `append_message` sends, and expects to be echoed. -/
def messageItem (identity text : String) (role : Role) : Json.Object :=
  [("id",.str identity), ("type",.str "message"), ("role",.str role.value),
    ("content",.arr [.obj [("type",.str "input_text"), ("text",.str text)]])]

def appendMessage (fresh text : String) (role : Role) (a : OpenAIRealtimeAdapter) :
    ClientEvent × OpenAIRealtimeAdapter :=
  let identity := newEventId fresh
  (⟨identity,.message role text⟩,
    { a with contextEvents := a.contextEvents.set identity (some (messageItem identity text role)) })

def updateInstructions (fresh text : String) (a : OpenAIRealtimeAdapter) : ClientEvent × OpenAIRealtimeAdapter :=
  let identity := newEventId fresh
  (⟨identity,.instructionsUpdate text⟩,
    { a with contextEvents := a.contextEvents.set identity none, instructionUpdate := some (identity,text)
             contextInstructions := some text })

def outOfBandResponse (fresh text : String) (a : OpenAIRealtimeAdapter) :
    Except Exn (ClientEvent × OpenAIRealtimeAdapter) :=
  let identity := newEventId fresh
  .ok (⟨identity,.responseCreate (some text) true⟩,
    { a with pendingResponse := some identity, contextEvents := a.contextEvents.set identity none })

/-! The decoder. -/

abbrev OpenAIDecoder (α : Type) := Decoder OpenAIRealtimeAdapter α

def setAdapter (f : OpenAIRealtimeAdapter → OpenAIRealtimeAdapter) : OpenAIDecoder Unit :=
  Run.modify fun s => { s with adapter := f s.adapter }

/-- `self._context_events.pop(identity, None)`. -/
def popContext (identity : String) (a : OpenAIRealtimeAdapter) : OpenAIRealtimeAdapter :=
  { a with contextEvents := a.contextEvents.erase identity }

def expectedFormat : Json := .obj [("type",.str "audio/pcm"), ("rate",.int 24000)]

def expectedInput (updated : Bool) : Json :=
  .obj (("format",expectedFormat) :: if updated then
    [("turn_detection",.obj [("type",.str "semantic_vad"), ("create_response",.bool true),
      ("interrupt_response",.bool true)])] else [])

def expectedOutput : Json := .obj [("format",expectedFormat), ("voice",.str "marin")]

def sessionKeys : List String := ["id", "type", "model", "output_modalities", "audio"]

/-- `_validate_session_ack`. -/
def validateSessionAck (tools : List Json.Object) (value : Json.Object) (updated : Bool) : Except Exn Unit := do
  if !sameNames value ["event_id", "type", "session"] then
    protocolError "OpenAI session acknowledgement fields do not match"
  let session ← requireObject (Json.field value "session") "session"
  if !(sessionKeys.all (· ∈ Json.names session) && (Json.names session).all (· ∈ "tools" :: sessionKeys)) then
    protocolError "OpenAI session fields do not match"
  if updated && !tools.isEmpty && !Json.hasField session "tools" then unsupported "tool catalog not acknowledged"
  if Json.hasField session "tools" && !Json.equals (Json.field session "tools") (.arr (tools.map .obj)) then
    protocolError "tool catalog mismatch"
  let _ ← requireIdentifier (Json.field session "id") "session.id"
  if !(Json.isString (Json.field session "type") "realtime" &&
      Json.isString (Json.field session "model") "gpt-realtime-2.1" &&
      Json.equals (Json.field session "output_modalities") (.arr [.str "audio"])) then
    protocolError "OpenAI session configuration mismatch"
  let audio ← requireObject (Json.field session "audio") "session.audio"
  if !sameNames audio ["input", "output"] then
    protocolError "OpenAI audio acknowledgement fields do not match"
  let inputAudio ← requireObject (Json.field audio "input") "session.audio.input"
  let outputAudio ← requireObject (Json.field audio "output") "session.audio.output"
  if !(Json.equal (.obj inputAudio) (expectedInput updated) && Json.equal (.obj outputAudio) expectedOutput) then
    protocolError "OpenAI audio acknowledgement mismatch"

def sessionAcknowledged (frame : ServerFrame) (updated : Bool) : OpenAIDecoder DecodedProviderEvent := do
  let s ← Run.get
  Run.ofExcept (validateSessionAck s.adapter.tools frame.value updated)
  pure { eventId := frame.eventId, providerReady := updated, sessionAcknowledged := true
         toolsAcknowledged := !s.adapter.tools.isEmpty && updated }

/-- The echo of an instructions update, or else the acknowledgement of the session. -/
def sessionUpdated (frame : ServerFrame) : OpenAIDecoder DecodedProviderEvent := do
  let s ← Run.get
  match s.adapter.instructionUpdate with
  | some (identity,expected) => do
    let session ← Run.ofExcept (requireObject (Json.field frame.value "session") "session")
    if Json.isString (Json.field session "instructions") expected then do
      setAdapter fun a => popContext identity { a with instructionUpdate := none }
      pure { eventId := frame.eventId, sessionAcknowledged := true, contextAckId := some identity }
    else sessionAcknowledged frame true
  | none => sessionAcknowledged frame true

/-- An event about the item that a turn is. -/
def turnEvent (frame : ServerFrame) (event : String → Except Exn ProviderEvent) : Except Exn DecodedProviderEvent := do
  let turnId ← requireIdentifier (Json.field frame.value "item_id") "item_id"
  return { eventId := frame.eventId, events := [← event turnId] }

def transcriptCompleted (frame : ServerFrame) (turnId : String) : Except Exn ProviderEvent := do
  return .transcriptCompleted turnId (← requireString (Json.field frame.value "transcript") "transcript")

/-- The next response is the answer to an out-of-band request that still waits. -/
def responseCreated (frame : ServerFrame) : OpenAIDecoder DecodedProviderEvent := do
  let response ← Run.ofExcept (requireObject (Json.field frame.value "response") "response")
  let responseId ← Run.ofExcept (requireIdentifier (Json.field response "id") "response.id")
  let s ← Run.get
  match s.adapter.pendingResponse with
  | some identity => setAdapter fun a => popContext identity { a with pendingResponse := none }
  | none => pure ()
  pure { eventId := frame.eventId, events := [.responseStarted ("turn_" ++ responseId) responseId]
         introducedResponseId := some responseId, contextAckId := s.adapter.pendingResponse }

def outputItemEvent (frame : ServerFrame) (added : Bool) : Except Exn DecodedProviderEvent := do
  let detail ← outputItem frame
  let item := (detail.1,detail.2.1)
  return if added then
      { eventId := frame.eventId, introducedItem := some item, introducedItemDetail := some detail }
    else { eventId := frame.eventId, completedItem := some item }

def contentPartEvent (frame : ServerFrame) (added : Bool) : Except Exn DecodedProviderEvent := do
  let identity ← contentIdentity frame.value
  let part ← requireObject (Json.field frame.value "part") "part"
  let events := if Json.isString (Json.field part "type") "audio" then [.outputAudioStarted identity] else []
  return if added then { eventId := frame.eventId, events, introducedContent := some identity }
    else { eventId := frame.eventId, completedContent := some identity }

def transcriptText (frame : ServerFrame) (key : String) (isDelta : Bool) : Except Exn DecodedProviderEvent := do
  let identity ← contentIdentity frame.value
  let text ← requireString (Json.field frame.value key) key
  return { eventId := frame.eventId, events := [.outputText identity text isDelta] }

def audioDelta (frame : ServerFrame) : Except Exn DecodedProviderEvent := do
  let identity ← contentIdentity frame.value
  let audio ← decodeBase64Pcm (Json.field frame.value "delta") 262144
  return { eventId := frame.eventId, events := [.outputAudio identity audio] }

def audioDone (frame : ServerFrame) : Except Exn DecodedProviderEvent := do
  let identity ← contentIdentity frame.value
  return { eventId := frame.eventId, events := [.outputAudioCompleted identity] }

def functionCallDone (frame : ServerFrame) : Except Exn DecodedProviderEvent := do
  let (call,identity) ← functionCall frame.value
  return { eventId := frame.eventId, events := [.toolCallRequested call], toolCallIdentity := some identity }

/-- The item is what was sent, and complete. -/
def echoes (item : Json.Object) (expected : Option Json.Object) : Bool :=
  expected.any fun expected => Json.isString (Json.field item "status") "completed" &&
    expected.all fun m => Json.equals (Json.field item m.1) m.2

def itemCreated (frame : ServerFrame) : OpenAIDecoder DecodedProviderEvent := do
  let item ← Run.ofExcept (requireObject (Json.field frame.value "item") "item")
  let s ← Run.get
  match (optionalIdentifier (Json.field item "id")).filter (· ∈ s.adapter.contextEvents) with
  | some identity =>
    if echoes item (s.adapter.contextEvents.get identity).join then do
      setAdapter (popContext identity)
      pure { eventId := frame.eventId, contextAckId := some identity }
    else Run.raise (.realtime { code := .protocolError, message := "context message mismatch" })
  | none => do
    let toolAckIdentity ← Run.ofExcept (toolAckIdentity item)
    pure { eventId := frame.eventId, toolAckIdentity }

def responseStatus (response : Json.Object) : Except Exn ResponseStatus := do
  match ← requireString (Json.field response "status") "response.status" with
  | "completed" => return .completed
  | "cancelled" => return .cancelled
  | "incomplete" => return .incomplete
  | "failed" => return .failed
  | _ => protocolError "unknown response status"

def responseDone (frame : ServerFrame) : Except Exn DecodedProviderEvent := do
  let response ← requireObject (Json.field frame.value "response") "response"
  let responseId ← requireIdentifier (Json.field response "id") "response.id"
  let status ← responseStatus response
  let usage ← parseTerminalUsage response "input_token_details" "output_token_details"
  if status ≠ .failed ∧ usage = none then protocolError "terminal usage is required"
  let failed : List ProviderEvent :=
    if status = .failed then [.sessionFailed { code := .unavailable, retryable := true }] else []
  return { eventId := frame.eventId, events := .responseFinished { responseId, status, usage } :: failed }

/-- `_map_error`. An unhashable code is a `TypeError`. -/
def mapError (error : Json.Object) : Except Exn (RealtimeErrorCode × Bool) :=
  let code := (Json.asString (Json.field error "code")).getD ""
  if code = "invalid_api_key" then .ok (.unauthenticated,false)
  else if code = "permission_denied" then .ok (.forbidden,false)
  else if !Json.hashable (Json.field error "code") then .error .exception
  else if code ∈ ["rate_limit_exceeded", "insufficient_quota"] then .ok (.rateLimited,true)
  else if code = "server_error" then .ok (.unavailable,true)
  else if code = "session_expired" then .ok (.sessionExpired,true)
  else if Json.isString (Json.field error "type") "invalid_request_error" &&
      decide (code ∈ ["invalid_value", "missing_required_parameter", "invalid_event"]) then .ok (.invalidRequest,false)
  else .ok (.protocolError,false)

/-- A pending request is over that the provider has refused. -/
def reject (rejected : String) (a : OpenAIRealtimeAdapter) : OpenAIRealtimeAdapter :=
  let a := popContext rejected a
  let a := if a.pendingResponse = some rejected then { a with pendingResponse := none } else a
  if a.instructionUpdate.any fun update => update.1 = rejected then
    { a with instructionUpdate := none, contextInstructions := none }
  else a

def providerError (frame : ServerFrame) : OpenAIDecoder DecodedProviderEvent := do
  let error ← Run.ofExcept (requireObject (Json.field frame.value "error") "error")
  let s ← Run.get
  match (optionalIdentifier (Json.field error "event_id")).filter (· ∈ s.adapter.contextEvents) with
  | some rejected => do
    setAdapter (reject rejected)
    pure { eventId := frame.eventId, rejectedEventId := some rejected
           events := [.sessionFailed { code := .unsupported, retryable := false }] }
  | none => do
    let (code,retryable) ← Run.ofExcept (mapError error)
    pure { eventId := frame.eventId, events := [.sessionFailed { code, retryable }] }

/-! The meaning of a frame. -/

def decodeServerFrame (frame : ServerFrame) : OpenAIDecoder DecodedProviderEvent :=
  match frame.type with
  | "session.created" => sessionAcknowledged frame false
  | "session.updated" => sessionUpdated frame
  | "input_audio_buffer.committed" => pure { eventId := frame.eventId }
  | "input_audio_buffer.speech_started" => Run.ofExcept (turnEvent frame fun turnId => .ok (.speechStarted turnId))
  | "input_audio_buffer.speech_stopped" => Run.ofExcept (turnEvent frame fun turnId => .ok (.speechStopped turnId))
  | "conversation.item.input_audio_transcription.completed" =>
    Run.ofExcept (turnEvent frame (transcriptCompleted frame))
  | "response.created" => responseCreated frame
  | "response.output_item.added" => Run.ofExcept (outputItemEvent frame true)
  | "response.output_item.done" => Run.ofExcept (outputItemEvent frame false)
  | "response.content_part.added" => Run.ofExcept (contentPartEvent frame true)
  | "response.content_part.done" => Run.ofExcept (contentPartEvent frame false)
  | "response.output_audio_transcript.delta" => Run.ofExcept (transcriptText frame "delta" true)
  | "response.output_audio_transcript.done" => Run.ofExcept (transcriptText frame "transcript" false)
  | "response.output_audio.delta" => Run.ofExcept (audioDelta frame)
  | "response.output_audio.done" => Run.ofExcept (audioDone frame)
  | "response.function_call_arguments.done" => Run.ofExcept (functionCallDone frame)
  | "conversation.item.created" => itemCreated frame
  | "response.done" => Run.ofExcept (responseDone frame)
  | "error" => providerError frame
  | _ => pure { eventId := frame.eventId }

def decodeServerEvent (payload : Payload) (a : OpenAIRealtimeAdapter) (table : RealtimeIdentityTable) :
    Decoding OpenAIRealtimeAdapter :=
  Decoder.decoding (Run.ofExcept (wireDecode payload) >>= decodeServerFrame) a table

/-! The decoder leaves the identity table alone. -/

abbrev Leaves {α : Type} (m : OpenAIDecoder α) (s : DecoderState OpenAIRealtimeAdapter) : Prop :=
  Run.Within (fun u v => v.table = u.table) (fun _ _ => True) m s

section Leaves

variable {frame : ServerFrame} {s : DecoderState OpenAIRealtimeAdapter}

theorem leaves_setAdapter {f : OpenAIRealtimeAdapter → OpenAIRealtimeAdapter} : Leaves (setAdapter f) s :=
  Run.within_modify rfl

theorem leaves_sessionAcknowledged {updated : Bool} : Leaves (sessionAcknowledged frame updated) s := by
  apply Run.within_get
  exact Run.within_ofExcept_bind fun _ _ => Run.within_pure

theorem leaves_sessionUpdated : Leaves (sessionUpdated frame) s := by
  apply Run.within_get
  split
  · apply Run.within_ofExcept_bind
    intro session _
    apply Run.Within.ite
    · exact fun _ => leaves_setAdapter.bind fun _ _ _ _ => Run.within_pure
    · exact fun _ => leaves_sessionAcknowledged
  · exact leaves_sessionAcknowledged

theorem leaves_responseCreated : Leaves (responseCreated frame) s := by
  apply Run.within_ofExcept_bind
  intro response _
  apply Run.within_ofExcept_bind
  intro responseId _
  apply Run.within_get
  dsimp only
  split
  · exact leaves_setAdapter.bind fun _ _ _ _ => Run.within_pure
  · exact Run.within_pure

theorem leaves_itemCreated : Leaves (itemCreated frame) s := by
  apply Run.within_ofExcept_bind
  intro item _
  apply Run.within_get
  split
  · apply Run.Within.ite
    · exact fun _ => leaves_setAdapter.bind fun _ _ _ _ => Run.within_pure
    · exact fun _ => Run.within_raise
  · exact Run.within_ofExcept_bind fun _ _ => Run.within_pure

theorem leaves_providerError : Leaves (providerError frame) s := by
  apply Run.within_ofExcept_bind
  intro error _
  apply Run.within_get
  split
  · exact leaves_setAdapter.bind fun _ _ _ _ => Run.within_pure
  · exact Run.within_ofExcept_bind fun _ _ => Run.within_pure

theorem leaves_decodeServerFrame : Leaves (decodeServerFrame frame) s := by
  unfold decodeServerFrame
  split
  case h_1 => exact leaves_sessionAcknowledged
  case h_2 => exact leaves_sessionUpdated
  case h_7 => exact leaves_responseCreated
  case h_17 => exact leaves_itemCreated
  case h_19 => exact leaves_providerError
  case h_3 | h_20 => exact Run.within_pure
  all_goals exact Run.within_ofExcept

end Leaves

theorem decoding_table (payload : Payload) (a : OpenAIRealtimeAdapter) (table : RealtimeIdentityTable) :
    (decodeServerEvent payload a table).table = table := by
  have hmoves : Leaves (Run.ofExcept (wireDecode payload) >>= decodeServerFrame) ⟨a,table⟩ :=
    Run.within_ofExcept_bind fun frame _ => leaves_decodeServerFrame
  have hkept := moves_keep (I := fun u : DecoderState OpenAIRealtimeAdapter => u.table = table)
    (fun _ _ hm hu => hm.trans hu) hmoves.moves rfl
  unfold decodeServerEvent Decoder.decoding
  split
  · rename_i h
    rw [h] at hkept
    exact hkept
  · rename_i h
    rw [h] at hkept
    exact hkept
  · rename_i p _ _
    exact nomatch p

def adapter : ProviderAdapter OpenAIRealtimeAdapter where
  sessionUpdate := sessionUpdate
  audioAppend := audioAppend
  cancelResponse := cancelResponse
  truncateOutput := truncateOutput
  toolResult := toolResult
  followupResponse := followupResponse
  appendMessage := appendMessage
  updateInstructions := updateInstructions
  outOfBandResponse := outOfBandResponse
  encodeClientEvent := encodeClientEvent
  decodeServerEvent := decodeServerEvent
  toolResult_body _ _ _ := rfl
  decode_generation payload a table := by rw [decoding_table]

end OpenAIRealtime
end HarnessSdk
