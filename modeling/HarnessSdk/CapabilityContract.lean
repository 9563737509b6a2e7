import HarnessSdk.AdapterShared
import HarnessSdk.CanonicalJson

/-!
# The capability contract

The mint response, its validation and `session.created` are checked against the packaged authority. SHA-256 is a
parameter, and so is the number of times that the interpreter lets a function call itself.
-/

namespace HarnessSdk

mutual

/-- No object has a name twice. -/
def distinctNames : Json → Bool
  | .arr items => distinctItems items
  | .obj members => decide (members.map Prod.fst).Nodup && distinctMembers members
  | _ => true

def distinctItems : List Json → Bool
  | [] => true
  | v :: vs => distinctNames v && distinctItems vs

def distinctMembers : List (String × Json) → Bool
  | [] => true
  | (_,v) :: ms => distinctNames v && distinctMembers ms

end

namespace RelayControl

/-- `capability-manifest.json` of the packaged control protocol. -/
def capabilityAuthority : Json.Object :=
  [("schema",.str "tokenseller.realtime-capability-v1"), ("control_protocol",.str "tokenseller.realtime-control"),
    ("control_version",.str "2026-08-28.3"), ("sdk_protocol_version",.str "simple-harness-realtime/1"),
    ("provider",.str "qwen"), ("wire_protocol",.str "qwen-native"), ("wire_version",.str "2026-08-28.3"),
    ("public_model",.str "qwen3.5-omni-realtime"),
    ("upstream_model",.str "qwen3.5-omni-flash-realtime-2026-03-15"), ("region",.str "cn-beijing"),
    ("voice",.str "Tina"),
    ("audio",.obj
      [("input",.obj [("codec",.str "pcm_s16le"), ("sample_rate",.int 16000), ("channels",.int 1)]),
        ("output",.obj [("codec",.str "pcm_s16le"), ("sample_rate",.int 24000), ("channels",.int 1)])]),
    ("features",.obj
      [("server_turn_detection",.bool true), ("automatic_response",.bool true), ("interruption",.bool true),
        ("input_transcription",.bool true), ("text_output",.bool true), ("audio_output",.bool true),
        ("cancel_response",.bool true), ("truncate_output",.bool false), ("tool_calling",.bool true),
        ("resume",.bool false)]),
    ("limits",.obj
      [("json_frame_bytes",.int 1048576), ("input_audio_event_decoded_bytes",.int 65536),
        ("output_audio_event_decoded_bytes",.int 262144), ("input_queue_frames",.int 256),
        ("input_queue_bytes",.int 4194304), ("output_queue_frames",.int 512), ("output_queue_bytes",.int 16777216),
        ("text_event_bytes",.int 65536), ("text_response_bytes",.int 1048576), ("tool_payload_bytes",.int 65536)]),
    ("provider_cost_revision",.str "dashscope-cn-beijing-qwen35-omni-flash-realtime-2026-08-27"),
    ("wallet_pricing_revision",.str "tokenseller-qwen35-usd-v1"),
    ("wallet_pricing_revision_digest",
      .str "9c18e6b32f6649bcc6fb51dd68209f6a2eda6d1784e80c6fa43413b965ba044f"),
    ("session",.obj
      [("resume",.bool false), ("ephemeral_ttl_ms",.int 60000), ("max_active_turns",.int 1),
        ("max_barge_in_live_turns",.int 2), ("max_pending_successors",.int 1),
        ("clean_close_ack_timeout_ms",.int 5000)])]

/-- The authority with another wallet revision. -/
def withWallet (revision digest : String) : Json.Object :=
  capabilityAuthority.map fun m =>
    if m.1 = "wallet_pricing_revision" then (m.1,.str revision)
    else if m.1 = "wallet_pricing_revision_digest" then (m.1,.str digest)
    else m

/-! The fields that the checks read. -/

inductive RealtimeFeature
  | serverTurnDetection | automaticResponse | interruption | inputTranscription | textOutput | audioOutput
  | cancelResponse | truncateOutput | toolCalling | resume
  deriving DecidableEq, Repr

def supportsFeature (features : RealtimeFeatureSet) : RealtimeFeature → Bool
  | .serverTurnDetection => features.serverTurnDetection
  | .automaticResponse => features.automaticResponse
  | .interruption => features.interruption
  | .inputTranscription => features.inputTranscription
  | .textOutput => features.textOutput
  | .audioOutput => features.audioOutput
  | .cancelResponse => features.cancelResponse
  | .truncateOutput => features.truncateOutput
  | .toolCalling => features.toolCalling
  | .resume => features.resume

structure RealtimeProfile where
  provider : String
  wireProtocol : String
  wireVersion : String
  publicModel : String
  voice : String
  capability : RealtimeCapability

/-- What `validate_minted` reads of a `RealtimeOpenRequest`. -/
structure OpenRequest where
  requiredFeatures : List RealtimeFeature := []
  inputAudio : RealtimeAudioFormat := {}
  outputAudio : RealtimeAudioFormat := { sampleRate := 24000 }

structure MintedRealtimeCredential where
  secret : String
  expiresAtMs : ℕ
  websocketPath : String
  capability : RealtimeCapability
  capabilityDocument : Json.Object
  capabilityDigest : String

def unsupported {α : Type} (message : String) : Except Exn α :=
  .error (.realtime { code := .unsupported, message })

/-- `_object`. -/
def object (value : Option Json) (name : String) : Except Exn Json.Object :=
  match Json.asObject value with
  | some o => .ok o
  | none => protocolError (name ++ " must be an object")

/-- `_DIGEST.fullmatch`. -/
def isDigest (s : String) : Bool :=
  decide (s.length = 64) && s.toList.all fun c => Text.isDigit c || decide ('a' ≤ c ∧ c ≤ 'f')

/-- `_REVISION_ID.fullmatch`. -/
def isRevisionId (s : String) : Bool :=
  match s.toList with
  | [] => false
  | c :: cs => (Text.isLower c || Text.isDigit c) && decide (cs.length ≤ 127) &&
    cs.all fun d => Text.isLower d || Text.isDigit d || d == '.' || d == '_' || d == '-'

/-- `_required_text` of the contracts, which raises `ValueError`. -/
def requiredText (value : String) (maxBytes : ℕ) : Except Exn Unit :=
  if Text.isBlank value ∨ '\x00' ∈ value.toList then .error .exception
  else if maxBytes < (utf8 value.toList).length then .error .exception
  else .ok ()

def audioFormat (value : Json.Object) : Except Exn RealtimeAudioFormat := do
  let codec ← string (Json.field value "codec") "codec"
  let sampleRate ← integer (Json.field value "sample_rate") "sample_rate"
  let channels ← integer (Json.field value "channels") "channels"
  if h : codec = "pcm_s16le" ∧ 0 < sampleRate ∧ 0 < channels then
    .ok { codec, sampleRate, channels, codec_raw := h.1, rate_pos := h.2.1, channels_pos := h.2.2 }
  else .error .exception

def feature (features : Json.Object) (name : String) : Except Exn Bool :=
  match Json.asBool (Json.field features name) with
  | some b => .ok b
  | none => protocolError "invalid feature set"

def featureSet (features : Json.Object) : Except Exn RealtimeFeatureSet := do
  return {
    serverTurnDetection := ← feature features "server_turn_detection"
    automaticResponse := ← feature features "automatic_response"
    interruption := ← feature features "interruption"
    inputTranscription := ← feature features "input_transcription"
    textOutput := ← feature features "text_output"
    audioOutput := ← feature features "audio_output"
    cancelResponse := ← feature features "cancel_response"
    truncateOutput := ← feature features "truncate_output"
    toolCalling := ← feature features "tool_calling"
    resume := ← feature features "resume" }

def realtimeLimits (limits : Json.Object) : Except Exn RealtimeLimits := do
  let jsonFrameBytes ← integer (Json.field limits "json_frame_bytes") "json_frame_bytes"
  let inputAudioEventBytes ←
    integer (Json.field limits "input_audio_event_decoded_bytes") "input_audio_event_decoded_bytes"
  let outputAudioEventBytes ←
    integer (Json.field limits "output_audio_event_decoded_bytes") "output_audio_event_decoded_bytes"
  let inputQueueFrames ← integer (Json.field limits "input_queue_frames") "input_queue_frames"
  let inputQueueBytes ← integer (Json.field limits "input_queue_bytes") "input_queue_bytes"
  let outputQueueFrames ← integer (Json.field limits "output_queue_frames") "output_queue_frames"
  let outputQueueBytes ← integer (Json.field limits "output_queue_bytes") "output_queue_bytes"
  let toolPayloadBytes ← integer (Json.field limits "tool_payload_bytes") "tool_payload_bytes"
  if jsonFrameBytes = 0 ∨ inputAudioEventBytes = 0 ∨ outputAudioEventBytes = 0 ∨ inputQueueFrames = 0 ∨
      inputQueueBytes = 0 ∨ outputQueueFrames = 0 ∨ outputQueueBytes = 0 ∨ toolPayloadBytes = 0 then
    .error .exception
  else
    .ok { jsonFrameBytes, inputAudioEventBytes, outputAudioEventBytes, inputQueueFrames, inputQueueBytes
          outputQueueFrames, outputQueueBytes, toolPayloadBytes }

/-! The three stages. -/

/-- `_validate_capability_authority`. -/
def validateCapabilityAuthority (document : Json.Object) : Except Exn Unit := do
  let walletRevision ← string (Json.field document "wallet_pricing_revision") "wallet_pricing_revision"
  let walletDigest ← string (Json.field document "wallet_pricing_revision_digest") "wallet_pricing_revision_digest"
  if !isRevisionId walletRevision then protocolError "wallet pricing revision is invalid"
  else if !isDigest walletDigest then protocolError "wallet pricing revision digest is invalid"
  else if !Json.equal (.obj document) (.obj (withWallet walletRevision walletDigest)) then
    protocolError "capability does not match packaged authority"
  else .ok ()

/-- The fields of the document that the profile fixes. -/
def checkStatic (document : Json.Object) : List (String × String) → Except Exn Unit
  | [] => .ok ()
  | (key,expected) :: rest =>
    if !Json.isString (Json.field document key) expected then unsupported ("capability " ++ key ++ " mismatch")
    else checkStatic document rest

def parseCapability (document : Json.Object) (profile : RealtimeProfile) : Except Exn RealtimeCapability := do
  validateCapabilityAuthority document
  checkStatic document
    [("control_version",profile.capability.controlVersion),
      ("sdk_protocol_version",profile.capability.sdkProtocolVersion), ("provider",profile.provider),
      ("wire_protocol",profile.wireProtocol), ("wire_version",profile.wireVersion),
      ("public_model",profile.publicModel), ("voice",profile.voice)]
  let audio ← object (Json.field document "audio") "audio"
  let inputAudio ← audioFormat (← object (Json.field audio "input") "audio.input")
  let outputAudio ← audioFormat (← object (Json.field audio "output") "audio.output")
  let features ← featureSet (← object (Json.field document "features") "features")
  let limits ← realtimeLimits (← object (Json.field document "limits") "limits")
  if inputAudio ≠ profile.capability.inputAudio then unsupported "input audio mismatch"
  else if outputAudio ≠ profile.capability.outputAudio then unsupported "output audio mismatch"
  else
    .ok {
      controlVersion := profile.capability.controlVersion
      sdkProtocolVersion := profile.capability.sdkProtocolVersion
      provider := profile.provider, wireProtocol := profile.wireProtocol, wireVersion := profile.wireVersion
      inputAudio, outputAudio, features, limits }

/-- The payload of a mint response: a text, or a dictionary that has been parsed already. -/
inductive MintPayload
  | text (payload : Payload)
  | mapping (value : Json.Object) (distinct : distinctNames (.obj value))

def MintPayload.value : MintPayload → Except Exn Json.Object
  | .text payload => strictJsonObject payload
  | .mapping value _ => .ok value

section Stages

variable (sha256 : Bytes → String) (limit : ℕ)

/-- `capability_digest`: `sha256` gives the hexadecimal digest. -/
def capabilityDigest (value : Json.Object) : Except Exn String := (canonicalJson limit value).map sha256

def parseMintResponse (payload : MintPayload) (profile : RealtimeProfile) :
    Except Exn MintedRealtimeCredential := do
  let value ← payload.value
  exactKeys value ["client_secret", "websocket_path", "capability", "capability_digest"]
  let secret ← object (Json.field value "client_secret") "client_secret"
  exactKeys secret ["value", "expires_at_ms"]
  let document ← object (Json.field value "capability") "capability"
  let digest ← string (Json.field value "capability_digest") "capability_digest"
  if !isDigest digest then protocolError "capability digest mismatch"
  let computed ← capabilityDigest sha256 limit document
  if computed ≠ digest then protocolError "capability digest mismatch"
  let capability ← parseCapability document profile
  let secretValue ← string (Json.field secret "value") "client_secret.value"
  let expiresAtMs ← integer (Json.field secret "expires_at_ms") "expires_at_ms"
  let websocketPath ← string (Json.field value "websocket_path") "websocket_path"
  requiredText secretValue 4096
  requiredText websocketPath 512
  requiredText digest 64
  if expiresAtMs = 0 then .error .exception
  return { secret := secretValue, expiresAtMs, websocketPath, capability, capabilityDocument := document
           capabilityDigest := digest }

def validateMinted (minted : MintedRealtimeCredential) (profile : RealtimeProfile) (request : OpenRequest) :
    Except Exn Unit := do
  let parsed ← parseCapability minted.capabilityDocument profile
  if parsed ≠ minted.capability then protocolError "minted capability mismatch"
  let computed ← capabilityDigest sha256 limit minted.capabilityDocument
  if computed ≠ minted.capabilityDigest then protocolError "capability digest mismatch"
  if !request.requiredFeatures.all (supportsFeature minted.capability.features) then
    unsupported "required feature unavailable"
  if request.inputAudio ≠ minted.capability.inputAudio then unsupported "input audio unavailable"
  if request.outputAudio ≠ minted.capability.outputAudio then unsupported "output audio unavailable"

end Stages

/-- A field that has to be the given text. -/
def matchText (value : Json.Object) (name expected message : String) : Except Exn Unit :=
  if !Json.isString (Json.field value name) expected then protocolError message else .ok ()

def createdKeys : List String :=
  ["type", "event_id", "related_event_id", "control_version", "sdk_protocol_version", "relay_session_id", "provider",
    "wire_protocol", "wire_version", "capability", "capability_digest", "expires_at_ms"]

/-- A first frame of another type. -/
def refuseFirstFrame (payload : Payload) (value : Json.Object) : Except Exn Unit :=
  if Json.isString (Json.field value "type") "tokenseller.error" then do
    match ← decodeRuntimeEvent payload with
    | some (.failed failure) => .error (.realtime { code := failure.code, retryable := failure.retryable })
    | _ => protocolError "session.created required"
  else protocolError "session.created required"

/-- The fields of a `session.created` frame. -/
def validateCreatedFields (value : Json.Object) (credential : MintedRealtimeCredential) (relatedEventId : String) :
    Except Exn Unit := do
  exactKeys value createdKeys
  let _ ← opaqueId (Json.field value "event_id") "event_id"
  let createdRelatedEventId ← opaqueId (Json.field value "related_event_id") "related_event_id"
  let _ ← opaqueId (Json.field value "relay_session_id") "relay_session_id"
  let expected ← opaqueId (some (.str relatedEventId)) "expected related_event_id"
  if createdRelatedEventId ≠ expected then protocolError "session.created related event mismatch"
  matchText value "control_version" credential.capability.controlVersion "control version mismatch"
  matchText value "sdk_protocol_version" credential.capability.sdkProtocolVersion "SDK version mismatch"
  matchText value "provider" credential.capability.provider "provider mismatch"
  matchText value "wire_protocol" credential.capability.wireProtocol "wire protocol mismatch"
  matchText value "wire_version" credential.capability.wireVersion "wire version mismatch"
  let expiresAtMs ← integer (Json.field value "expires_at_ms") "expires_at_ms"
  if expiresAtMs ≠ credential.expiresAtMs then protocolError "expiry mismatch"
  let document ← object (Json.field value "capability") "capability"
  if !Json.equal (.obj document) (.obj credential.capabilityDocument) then
    protocolError "created capability mismatch"
  matchText value "capability_digest" credential.capabilityDigest "created digest mismatch"

def validateSessionCreated (payload : Payload) (credential : MintedRealtimeCredential) (relatedEventId : String) :
    Except Exn Unit := do
  let value ← strictJsonObject payload
  if Json.isString (Json.field value "type") "tokenseller.session.created" then
    validateCreatedFields value credential relatedEventId
  else refuseFirstFrame payload value

end RelayControl
end HarnessSdk
