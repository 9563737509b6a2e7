import HarnessSdk.Recovery

/-!
# Ports

The text frames of a session are kept as the events they are the encoding of. A
`ProviderAdapter` is the interface of `RealtimeProviderAdapter` over a private state `A`;
the identity table of the logical session is passed to the decoder and given back.
-/

namespace HarnessSdk

structure RealtimeOpenRequest where
  externalSessionId : String
  instructions : String
  tools : List Json.Object := []

inductive ClientEventBody
  | sessionUpdate (instructions : String) (tools : List Json.Object)
  | instructionsUpdate (instructions : String)
  | audioAppend (pcm : Bytes)
  | responseCancel (responseId : Option String)
  | itemTruncate (itemId : String) (contentIndex audioEndMs : ℤ)
  | message (role : Role) (text : String)
  | functionCallOutput (callId output : String)
  | responseCreate (instructions : Option String) (outOfBand : Bool)
  | sessionClose (reason : String)

structure ClientEvent where
  eventId : String
  body : ClientEventBody

namespace ClientEvent

/-- `event["type"]`. -/
def type (event : ClientEvent) : String :=
  match event.body with
  | .sessionUpdate .. | .instructionsUpdate _ => "session.update"
  | .audioAppend _ => "input_audio_buffer.append"
  | .responseCancel _ => "response.cancel"
  | .itemTruncate .. => "conversation.item.truncate"
  | .message .. | .functionCallOutput .. => "conversation.item.create"
  | .responseCreate .. => "response.create"
  | .sessionClose _ => "tokenseller.session.close"

/-- The second component of `_safe_event_fields(event)`. -/
def fieldNames (event : ClientEvent) : List String :=
  match event.body with
  | .sessionUpdate .. | .instructionsUpdate _ => ["event_id", "session", "type"]
  | .audioAppend _ => ["audio", "event_id", "type"]
  | .responseCancel none => ["event_id", "type"]
  | .responseCancel (some _) => ["event_id", "response_id", "type"]
  | .itemTruncate .. => ["content_index", "event_id", "item_id", "type"]
  | .message .. | .functionCallOutput .. => ["event_id", "item", "type"]
  | .responseCreate none _ => ["event_id", "type"]
  | .responseCreate (some _) _ => ["event_id", "response", "type"]
  | .sessionClose _ => ["event_id", "reason", "type"]

end ClientEvent

structure DecodedProviderEvent where
  eventId : String
  events : List ProviderEvent := []
  providerReady : Bool := false
  sessionAcknowledged : Bool := false
  introducedResponseId : Option String := none
  introducedItem : Option (String × String) := none
  introducedItemDetail : Option (String × String × ℕ × String) := none
  introducedContent : Option OutputIdentity := none
  completedItem : Option (String × String) := none
  completedContent : Option OutputIdentity := none
  /-- `(item_id, item_type, status, call_id, output)` -/
  toolAckIdentity : Option (String × String × String × String × String) := none
  toolCallIdentity : Option (String × String × ℕ × String) := none
  toolsAcknowledged : Bool := false
  toolCatalogNormalized : Bool := false
  contextAckId : Option String := none
  rejectedEventId : Option String := none
  contextRequestId : Option String := none
  userSideTranscriptIgnored : Bool := false
  userSideResponseEventIgnored : Option String := none
  itemRoleMetadataMismatch : Option (String × String) := none

/-- The result of a decoder: what it returns or raises, with the adapter state and the
identity table it leaves in either case. -/
structure Decoding (A : Type) where
  result : Except Exn DecodedProviderEvent
  adapter : A
  table : RealtimeIdentityTable

/-- The first argument of every event builder is the fresh part of its event id. -/
structure ProviderAdapter (A : Type) where
  sessionUpdate : String → RealtimeOpenRequest → A → Except Exn (ClientEvent × A)
  audioAppend : String → Bytes → Except Exn ClientEvent
  cancelResponse : String → Option String → ClientEvent
  truncateOutput : String → String → ℤ → ℤ → Except Exn ClientEvent
  toolResult : String → String → String → ClientEvent
  followupResponse : String → String → A → ClientEvent
  appendMessage : String → String → Role → A → ClientEvent × A
  updateInstructions : String → String → A → ClientEvent × A
  outOfBandResponse : String → String → A → Except Exn (ClientEvent × A)
  encodeClientEvent : ClientEvent → Except Exn Unit
  decodeServerEvent : Payload → A → RealtimeIdentityTable → Decoding A
  /-- The result event carries the call id and the output it was built from. -/
  toolResult_body : ∀ fresh callId output,
    (toolResult fresh callId output).body = .functionCallOutput callId output
  /-- The decoder only registers items in the identity table. -/
  decode_generation : ∀ payload a table, (decodeServerEvent payload a table).table.generation = table.generation

end HarnessSdk
