import HarnessSdk.RelayControl
import HarnessSdk.Ports

/-!
# The local protocol

Between a product and the channel controller run strict JSON messages and binary PCM frames with a header of
24 bytes. Input frames pass a window that puts them into the order of their sequence numbers.
-/

namespace HarnessSdk

inductive AudioDirection
  | input | output
  deriving DecidableEq, Repr

def AudioDirection.value : AudioDirection → ℕ
  | input => 1 | output => 2

def AudioDirection.ofValue : ℕ → Option AudioDirection
  | 1 => some input | 2 => some output | _ => none

structure LocalPcmFrame where
  direction : AudioDirection
  generation : ℕ
  sequence : ℕ
  payload : Bytes
  deriving DecidableEq, Repr

/-- What the tasks of the controller can meet: a `RealtimeError`, the end of the channel (`EOFError`,
`ConnectionError`, `IncompleteReadError`), a `UnicodeError` or `ValueError`, another `Exception`, and
`CancelledError`. -/
inductive LocalExn
  | realtime (e : RealtimeError)
  | ended
  | value
  | other
  | cancelled
  deriving DecidableEq, Repr

def LocalExn.ofExn : Exn → LocalExn
  | .realtime e => .realtime e
  | .exception => .other
  | .cancelled => .cancelled

namespace Local

def protocolError {α : Type} (message : String) : Except LocalExn α :=
  .error (.realtime { code := .protocolError, message })

def invalidRequest {α : Type} (message : String) : Except LocalExn α :=
  .error (.realtime { code := .invalidRequest, message })

def version : String := "2026-08-27.1"

/-! Text messages. -/

/-- `_MESSAGE_FIELDS`. -/
def messageFields : String → Option (List String)
  | "local.auth" => some ["type", "version", "secret"]
  | "local.hello" => some ["type", "version", "generation", "correlation"]
  | "call.start" => some ["type", "generation", "instructions", "required_features"]
  | "call.ready" => some ["type", "generation", "correlation", "input_audio", "output_audio"]
  | "call.barge_in" => some ["type", "generation"]
  | "call.stop" => some ["type", "generation", "reason"]
  | "call.state" => some ["type", "generation", "state"]
  | "call.event" => some ["type", "generation", "event"]
  | "call.audio_ack" => some ["type", "generation", "direction", "highest_contiguous_sequence"]
  | "call.error" => some ["type", "generation", "code", "retryable"]
  | "call.closed" => some ["type", "generation", "reason"]
  | _ => none

def sameFields (value : Json.Object) (allowed : List String) : Bool :=
  (Json.names value).all (· ∈ allowed) && allowed.all (· ∈ Json.names value)

/-- `decode_local_message`: the message with its type. -/
def decodeLocalMessage (payload : Payload) : Except LocalExn (String × Json.Object) :=
  match strictJsonObject payload with
  | .error e => .error (.ofExn e)
  | .ok value =>
    match Json.asString (Json.field value "type") with
    | none => protocolError "unknown local message"
    | some messageType =>
      match messageFields messageType with
      | none => protocolError "unknown local message"
      | some fields =>
        let played := messageType = "call.audio_ack" ∧ Json.hasField value "played_audio_ms"
        let position := Json.asInt (Json.field value "played_audio_ms")
        let allowed := if played then fields ++ ["played_audio_ms"] else fields
        if played ∧ (!Json.isString (Json.field value "direction") "output" || !position.any (0 ≤ ·)) then
          protocolError "invalid playback position"
        else if !sameFields value allowed then protocolError "local fields do not match"
        else if Json.hasField value "generation" && !(Json.asInt (Json.field value "generation")).any (0 < ·) then
          protocolError "invalid generation"
        else if Text.startsWith messageType "local." && !Json.isString (Json.field value "version") version then
          protocolError "local version mismatch"
        else .ok (messageType,value)

/-- The messages that the controller sends. -/
inductive LocalMessage
  | callState (generation : ℕ) (state : String)
  | callReady (generation : ℕ) (correlation : String) (inputAudio outputAudio : RealtimeAudioFormat)
  | callEvent (generation : ℕ) (event : RealtimeEvent)
  | inputAck (generation highestContiguousSequence : ℕ)
  | callError (generation : ℕ) (code : RealtimeErrorCode) (retryable : Bool)
  | callClosed (generation : ℕ) (reason : String)
  | audio (frame : LocalPcmFrame)
  deriving DecidableEq, Repr

def LocalMessage.isClosed : LocalMessage → Bool
  | .callClosed .. => true
  | _ => false

/-- The events that have a `call.event` variant. -/
def isDomainEvent : RealtimeEvent → Bool
  | .provider (.outputAudio ..) | .provider (.sessionFailed _) | .sessionReady .. | .sessionClosed _ => false
  | _ => true

def encodeDomainEvent (generation : ℕ) (event : RealtimeEvent) : Except LocalExn LocalMessage :=
  if generation = 0 then invalidRequest "invalid generation"
  else if isDomainEvent event then .ok (.callEvent generation event)
  else invalidRequest "event is not a local call.event variant"

/-! Binary frames. -/

def pcmMagic : Bytes := [0x53, 0x48, 0x52, 0x54]

/-- A number in network order. -/
def beNat (bytes : Bytes) : ℕ := bytes.foldl (fun n b => n * 256 + b.toNat) 0

def beBytes : ℕ → ℕ → Bytes
  | 0, _ => []
  | k + 1, n => UInt8.ofNat (n / 256 ^ k % 256) :: beBytes k n

def payloadLimit : AudioDirection → ℕ
  | .input => 65536 | .output => 262144

/-- A number that its field of the header cannot hold raises `struct.error`. -/
def encodePcmFrame (frame : LocalPcmFrame) : Except LocalExn Bytes :=
  if frame.generation = 0 ∨ frame.sequence = 0 then invalidRequest "invalid PCM identity"
  else if frame.payload.length = 0 ∨ frame.payload.length % 2 ≠ 0 then invalidRequest "PCM must contain whole samples"
  else if payloadLimit frame.direction < frame.payload.length then invalidRequest "PCM frame is too large"
  else if 256 ^ 4 ≤ frame.generation ∨ 256 ^ 8 ≤ frame.sequence then .error .other
  else .ok (pcmMagic ++ [1,UInt8.ofNat frame.direction.value] ++ beBytes 2 0 ++ beBytes 4 frame.generation ++
    beBytes 8 frame.sequence ++ beBytes 4 frame.payload.length ++ frame.payload)

/-- The fields of the header, `!4sBBHIQI`, and the body. -/
def decodePcmFrame (payload : Bytes) : Except LocalExn LocalPcmFrame :=
  if payload.length < 24 then protocolError "PCM header is truncated"
  else
    let part := fun start size => (payload.drop start).take size
    let generation := beNat (part 8 4)
    let sequence := beNat (part 12 8)
    let size := beNat (part 20 4)
    if part 0 4 ≠ pcmMagic ∨ beNat (part 4 1) ≠ 1 ∨ beNat (part 6 2) ≠ 0 then protocolError "invalid PCM header"
    else
      match AudioDirection.ofValue (beNat (part 5 1)) with
      | none => protocolError "invalid PCM direction"
      | some direction =>
        let body := payload.drop 24
        if size ≠ body.length then protocolError "PCM length mismatch"
        else if generation = 0 ∨ sequence = 0 ∨ body.length = 0 ∨ body.length % 2 ≠ 0 then
          protocolError "invalid PCM frame"
        else if payloadLimit direction < body.length then protocolError "PCM frame is too large"
        else .ok { direction, generation, sequence, payload := body }

theorem decodePcmFrame_ok {payload : Bytes} {frame : LocalPcmFrame} (h : decodePcmFrame payload = .ok frame) :
    0 < frame.generation ∧ 0 < frame.sequence ∧ frame.payload ≠ [] ∧ frame.payload.length % 2 = 0 ∧
      frame.payload.length ≤ payloadLimit frame.direction := by
  unfold decodePcmFrame at h
  dsimp only at h
  split at h
  · exact nomatch h
  · split at h
    · exact nomatch h
    · split at h
      · exact nomatch h
      · split at h
        · exact nomatch h
        · split at h
          · exact nomatch h
          · rename_i hvalid
            split at h
            · exact nomatch h
            · rename_i hlimit
              obtain rfl := Except.ok.inj h
              simp only [not_or,Decidable.not_not] at hvalid
              obtain ⟨hgeneration,hsequence,hbody,heven⟩ := hvalid
              have hne : payload.drop 24 ≠ [] := fun hnil => hbody (List.length_eq_zero_iff.mpr hnil)
              exact ⟨Nat.pos_of_ne_zero hgeneration,Nat.pos_of_ne_zero hsequence,hne,heven,not_lt.mp hlimit⟩

/-! The input window. -/

def windowFrames : ℕ := 64
def windowBytes : ℕ := 1048576

/-- `_InputWindow`. -/
structure InputWindow where
  generation : ℕ
  highestContiguous : ℕ := 0
  pending : Dict ℕ Bytes := ∅
  pendingBytes : ℕ := 0

namespace InputWindow

/-- The `while` loop of `accept`: each round takes one frame out of the pending ones, so their number bounds
the rounds. -/
def drain (w : InputWindow) : ℕ → List Bytes × InputWindow
  | 0 => ([],w)
  | rounds + 1 =>
    match w.pending.get (w.highestContiguous + 1) with
    | none => ([],w)
    | some payload =>
      let w := { w with
        pending := w.pending.erase (w.highestContiguous + 1)
        pendingBytes := w.pendingBytes - payload.length
        highestContiguous := w.highestContiguous + 1 }
      let (ready,w) := drain w rounds
      (payload :: ready,w)

def accept (w : InputWindow) (frame : LocalPcmFrame) : Except LocalExn (List Bytes × InputWindow) :=
  if frame.generation ≠ w.generation then .ok ([],w)
  else if frame.direction ≠ .input then protocolError "wrong PCM direction"
  else if frame.sequence ≤ w.highestContiguous ∨ (w.pending.get frame.sequence).isSome then .ok ([],w)
  else if w.highestContiguous + windowFrames < frame.sequence then protocolError "PCM sequence gap"
  else if windowBytes < w.pendingBytes + frame.payload.length then
    .error (.realtime { code := .busy, message := "input window is full" })
  else
    let w := { w with
      pending := w.pending.set frame.sequence frame.payload
      pendingBytes := w.pendingBytes + frame.payload.length }
    .ok (w.drain w.pending.size)

end InputWindow

end Local
end HarnessSdk
