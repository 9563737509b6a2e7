import HarnessSdk.LocalProtocol
import Mathlib.Tactic.Ring

/-!
# Messages on the wire

The encoder of the local protocol checks the type and the fields of a message. The decoder of the other side checks
its generation and its version too. A frame that the encoder lets through is read back as it was.
-/

namespace HarnessSdk
namespace Local

/-! Text messages. -/

def outputValue (kind : String) (o : OutputIdentity) : Json.Object :=
  [("kind",.str kind), ("response_id",.str o.responseId), ("item_id",.str o.itemId), ("output_index",.int o.outputIndex),
    ("content_index",.int o.contentIndex)]

/-- `_domain_event_value`. -/
def domainEventValue : RealtimeEvent → Option Json.Object
  | .provider (.speechStarted turnId) => some [("kind",.str "SpeechStarted"), ("turn_id",.str turnId)]
  | .provider (.speechStopped turnId) => some [("kind",.str "SpeechStopped"), ("turn_id",.str turnId)]
  | .provider (.transcriptDelta turnId text) =>
    some [("kind",.str "TranscriptDelta"), ("turn_id",.str turnId), ("text",.str text)]
  | .provider (.transcriptCompleted turnId text) =>
    some [("kind",.str "TranscriptCompleted"), ("turn_id",.str turnId), ("text",.str text)]
  | .provider (.responseStarted turnId responseId) =>
    some [("kind",.str "ResponseStarted"), ("turn_id",.str turnId), ("response_id",.str responseId)]
  | .provider (.outputText o text isDelta) =>
    some (outputValue "OutputText" o ++ [("text",.str text), ("is_delta",.bool isDelta)])
  | .provider (.outputAudioStarted o) => some (outputValue "OutputAudioStarted" o)
  | .provider (.outputAudioCompleted o) => some (outputValue "OutputAudioCompleted" o)
  | .provider (.toolCallRequested call) =>
    some [("kind",.str "ToolCallRequested"), ("response_id",.str call.responseId), ("call_id",.str call.callId),
      ("name",.str call.name), ("arguments_json",.str call.argumentsJson)]
  | .provider (.responseFinished response) =>
    some [("kind",.str "ResponseFinished"), ("response_id",.str response.responseId),
      ("status",.str response.status.value), ("local",.bool response.isLocal)]
  | .sessionExpiring remainingMs => some [("kind",.str "SessionExpiring"), ("remaining_ms",.int remainingMs)]
  | _ => none

theorem domainEventValue_isSome (event : RealtimeEvent) : (domainEventValue event).isSome = isDomainEvent event := by
  cases event with
  | provider event => cases event <;> rfl
  | _ => rfl

/-- `_audio_json`. -/
def audioJson (value : RealtimeAudioFormat) : Json.Object :=
  [("codec",.str value.codec), ("sample_rate",.int value.sampleRate), ("channels",.int value.channels)]

namespace LocalMessage

def type : LocalMessage → String
  | .callState .. => "call.state"
  | .callReady .. => "call.ready"
  | .callEvent .. => "call.event"
  | .inputAck .. => "call.audio_ack"
  | .callError .. => "call.error"
  | .callClosed .. => "call.closed"
  | .audio _ => "binary"

def generation : LocalMessage → ℕ
  | .callState generation _ | .callReady generation .. | .callEvent generation _ | .inputAck generation _
  | .callError generation .. | .callClosed generation _ => generation
  | .audio frame => frame.generation

/-- The dictionary of a text message. -/
def value : LocalMessage → Option Json.Object
  | .callState generation state =>
    some [("type",.str "call.state"), ("generation",.int generation), ("state",.str state)]
  | .callReady generation correlation inputAudio outputAudio =>
    some [("type",.str "call.ready"), ("generation",.int generation), ("correlation",.str correlation),
      ("input_audio",.obj (audioJson inputAudio)), ("output_audio",.obj (audioJson outputAudio))]
  | .callEvent generation event =>
    (domainEventValue event).map fun value =>
      [("type",.str "call.event"), ("generation",.int generation), ("event",.obj value)]
  | .inputAck generation highestContiguousSequence =>
    some [("type",.str "call.audio_ack"), ("generation",.int generation), ("direction",.str "input"),
      ("highest_contiguous_sequence",.int highestContiguousSequence)]
  | .callError generation code retryable =>
    some [("type",.str "call.error"), ("generation",.int generation), ("code",.str code.value),
      ("retryable",.bool retryable)]
  | .callClosed generation reason =>
    some [("type",.str "call.closed"), ("generation",.int generation), ("reason",.str reason)]
  | .audio _ => none

end LocalMessage

/-- `encode_local_message`, up to the text that `json.dumps` makes of the dictionary. -/
def encodeLocalMessage (value : Json.Object) : Except LocalExn Json.Object :=
  match Json.asString (Json.field value "type") with
  | none => invalidRequest "unknown local message"
  | some messageType =>
    match messageFields messageType with
    | none => invalidRequest "unknown local message"
    | some fields =>
      let played := messageType = "call.audio_ack" ∧ Json.hasField value "played_audio_ms"
      let position := Json.asInt (Json.field value "played_audio_ms")
      let allowed := if played then fields ++ ["played_audio_ms"] else fields
      if played ∧ (!Json.isString (Json.field value "direction") "output" || !position.any (0 ≤ ·)) then
        invalidRequest "invalid playback position"
      else if !sameFields value allowed then invalidRequest "local fields do not match"
      else .ok value

/-- A text of which `json.loads` makes this dictionary. -/
def IsText (value : Json.Object) (payload : Payload) : Prop := payload.loads = .ok (.obj value)

variable {value sent : Json.Object} {payload : Payload} {messageType : String} {fields : List String}

/-- What both sides ask of the fields of a message. -/
structure FieldsFit (value : Json.Object) (messageType : String) (fields : List String) : Prop where
  position : ¬((messageType = "call.audio_ack" ∧ Json.hasField value "played_audio_ms") ∧
    (!Json.isString (Json.field value "direction") "output" ||
      !(Json.asInt (Json.field value "played_audio_ms")).any (0 ≤ ·)))
  names : sameFields value (if messageType = "call.audio_ack" ∧ Json.hasField value "played_audio_ms" then
    fields ++ ["played_audio_ms"] else fields)

/-- What the decoder asks of a message beyond what the encoder asks. -/
structure Decodable (value : Json.Object) (messageType : String) : Prop where
  generation : Json.hasField value "generation" → (Json.asInt (Json.field value "generation")).any (0 < ·)
  version : Text.startsWith messageType "local." → Json.isString (Json.field value "version") version

/-- A check is passed where it does not raise. -/
theorem check_ok {ε α : Type} {p : Prop} [Decidable p] {e : ε} {x : Except ε α} {a : α} :
    (if p then .error e else x) = .ok a ↔ ¬p ∧ x = .ok a := by
  by_cases h : p <;> simp [h]

theorem encodeLocalMessage_ok_iff : encodeLocalMessage value = .ok sent ↔ sent = value ∧ ∃ messageType fields,
    Json.asString (Json.field value "type") = some messageType ∧ messageFields messageType = some fields ∧
      FieldsFit value messageType fields := by
  unfold encodeLocalMessage invalidRequest
  constructor
  · intro h
    split at h
    · exact nomatch h
    · rename_i messageType htype
      split at h
      · exact nomatch h
      · rename_i fields hfields
        rw [check_ok,check_ok] at h
        obtain ⟨hposition,hnames,hvalue⟩ := h
        exact ⟨(Except.ok.inj hvalue).symm,messageType,fields,htype,hfields,hposition,by simpa using hnames⟩
  · rintro ⟨rfl,messageType,fields,htype,hfields,hfit⟩
    simp only [htype,hfields]
    rw [check_ok,check_ok]
    exact ⟨hfit.position,by simp [hfit.names],rfl⟩

theorem decodeLocalMessage_ok_iff : decodeLocalMessage payload = .ok (messageType,value) ↔
    strictJsonObject payload = .ok value ∧ Json.asString (Json.field value "type") = some messageType ∧
      ∃ fields, messageFields messageType = some fields ∧ FieldsFit value messageType fields ∧
        Decodable value messageType := by
  unfold decodeLocalMessage protocolError
  constructor
  · intro h
    split at h
    · exact nomatch h
    · rename_i object hobject
      split at h
      · exact nomatch h
      · rename_i kind htype
        split at h
        · exact nomatch h
        · rename_i fields hfields
          rw [check_ok,check_ok,check_ok,check_ok] at h
          obtain ⟨hposition,hnames,hgeneration,hversion,hvalue⟩ := h
          obtain ⟨rfl,rfl⟩ := Prod.mk.inj (Except.ok.inj hvalue)
          simp only [Bool.and_eq_true,not_and,Bool.not_eq_true',Bool.not_eq_false] at hgeneration hversion hnames
          exact ⟨hobject,htype,fields,hfields,⟨hposition,hnames⟩,hgeneration,hversion⟩
  · rintro ⟨hobject,htype,fields,hfields,hfit,hdecodable⟩
    simp only [hobject,htype,hfields]
    rw [check_ok,check_ok,check_ok,check_ok]
    refine ⟨hfit.position,by simp [hfit.names],fun hgeneration => ?_,fun hversion => ?_,rfl⟩
    · simp only [Bool.and_eq_true] at hgeneration
      simp [hdecodable.generation hgeneration.1] at hgeneration
    · simp only [Bool.and_eq_true] at hversion
      simp [hdecodable.version hversion.1] at hversion

/-- The decoder accepts what the encoder has let through if and only if its own conditions hold. -/
theorem decode_encoded (hencode : encodeLocalMessage value = .ok value) (hstrict : (Json.obj value).strict = .ok ())
    (htext : IsText value payload) (htype : Json.asString (Json.field value "type") = some messageType) :
    decodeLocalMessage payload = .ok (messageType,value) ↔ Decodable value messageType := by
  have hobject : strictJsonObject payload = .ok value := by
    unfold strictJsonObject
    rw [htext]
    simp only [hstrict]
  obtain ⟨_,_,fields,hsame,hfields,hfit⟩ := encodeLocalMessage_ok_iff.mp hencode
  obtain rfl := Option.some.inj (htype.symm.trans hsame)
  rw [decodeLocalMessage_ok_iff]
  exact ⟨fun ⟨_,_,_,_,_,h⟩ => h,fun h => ⟨hobject,htype,fields,hfields,hfit,h⟩⟩

theorem domainEventValue_strict {event : RealtimeEvent} {value : Json.Object}
    (h : domainEventValue event = some value) : (Json.obj value).strict = .ok () := by
  cases event with
  | provider event =>
    cases event <;> simp only [domainEventValue,Option.some.injEq,reduceCtorEq] at h <;> subst h <;> rfl
  | sessionExpiring =>
    obtain rfl := Option.some.inj h
    rfl
  | sessionReady | sessionClosed => exact nomatch h

namespace LocalMessage

variable {message : LocalMessage}

theorem value_encodes (h : message.value = some value) : encodeLocalMessage value = .ok value := by
  cases message with
  | callEvent generation event =>
    obtain ⟨v,_,rfl⟩ := Option.map_eq_some_iff.mp h
    rfl
  | audio => exact nomatch h
  | _ =>
    obtain rfl := Option.some.inj h
    rfl

theorem value_strict (h : message.value = some value) : (Json.obj value).strict = .ok () := by
  cases message with
  | callEvent generation event =>
    obtain ⟨v,hv,rfl⟩ := Option.map_eq_some_iff.mp h
    have hstrict := domainEventValue_strict hv
    simp only [Json.strict,Json.strictMembers] at hstrict ⊢
    rw [hstrict]
    rfl
  | audio => exact nomatch h
  | _ =>
    obtain rfl := Option.some.inj h
    rfl

theorem value_type (h : message.value = some value) :
    Json.asString (Json.field value "type") = some message.type := by
  cases message with
  | callEvent generation event =>
    obtain ⟨v,_,rfl⟩ := Option.map_eq_some_iff.mp h
    rfl
  | audio => exact nomatch h
  | _ =>
    obtain rfl := Option.some.inj h
    rfl

theorem value_generation (h : message.value = some value) :
    Json.asInt (Json.field value "generation") = some (message.generation : ℤ) := by
  cases message with
  | callEvent generation event =>
    obtain ⟨v,_,rfl⟩ := Option.map_eq_some_iff.mp h
    rfl
  | audio => exact nomatch h
  | _ =>
    obtain rfl := Option.some.inj h
    rfl

/-- A text message is read back if and only if its generation is positive. -/
theorem decodes_iff (h : message.value = some value) (htext : IsText value payload) :
    decodeLocalMessage payload = .ok (message.type,value) ↔ 0 < message.generation := by
  have hfield : Json.hasField value "generation" := by
    cases message with
    | callEvent generation event =>
      obtain ⟨v,_,rfl⟩ := Option.map_eq_some_iff.mp h
      rfl
    | audio => exact nomatch h
    | _ =>
      obtain rfl := Option.some.inj h
      rfl
  have hcontrol : Text.startsWith message.type "local." = false := by
    cases message <;> simp [type,Text.startsWith,List.isPrefixOf]
  rw [decode_encoded (value_encodes h) (value_strict h) htext (value_type h)]
  constructor
  · intro hdecodable
    have hpositive := hdecodable.generation hfield
    rw [value_generation h] at hpositive
    simpa using hpositive
  · intro hpositive
    refine ⟨fun _ => ?_,fun hversion => ?_⟩
    · rw [value_generation h]
      simpa using hpositive
    · simp [hcontrol] at hversion

end LocalMessage

/-! Binary frames. -/

theorem length_beBytes (k n : ℕ) : (beBytes k n).length = k := by
  induction k with
  | zero => rfl
  | succ k ih => simp [beBytes,ih]

theorem beNat_beBytes (k n : ℕ) : beNat (beBytes k n) = n % 256 ^ k := by
  have hfold : ∀ a, (beBytes k n).foldl (fun n b => n * 256 + b.toNat) a = a * 256 ^ k + n % 256 ^ k := by
    induction k with
    | zero => simp [beBytes,Nat.mod_one]
    | succ k ih =>
      intro a
      have hbyte : (UInt8.ofNat (n / 256 ^ k % 256)).toNat = n / 256 ^ k % 256 := by simp
      rw [beBytes,List.foldl_cons,ih,hbyte,Nat.mod_pow_succ]
      ring
  simpa [beNat] using hfold 0

theorem beNat_beBytes_of_lt {k n : ℕ} (h : n < 256 ^ k) : beNat (beBytes k n) = n := by
  rw [beNat_beBytes,Nat.mod_eq_of_lt h]

/-- What the header of an encoded frame says, field by field. -/
structure Framed (frame : LocalPcmFrame) (bytes : Bytes) : Prop where
  length : bytes.length = frame.payload.length + 24
  magic : (bytes.drop 0).take 4 = pcmMagic
  version : (bytes.drop 4).take 1 = [1]
  direction : (bytes.drop 5).take 1 = [UInt8.ofNat frame.direction.value]
  flags : (bytes.drop 6).take 2 = beBytes 2 0
  generation : (bytes.drop 8).take 4 = beBytes 4 frame.generation
  sequence : (bytes.drop 12).take 8 = beBytes 8 frame.sequence
  size : (bytes.drop 20).take 4 = beBytes 4 frame.payload.length
  payload : bytes.drop 24 = frame.payload

theorem encodePcmFrame_ok {frame : LocalPcmFrame} {bytes : Bytes} (h : encodePcmFrame frame = .ok bytes) :
    frame.generation ≠ 0 ∧ frame.sequence ≠ 0 ∧ frame.payload.length ≠ 0 ∧ frame.payload.length % 2 = 0 ∧
      frame.payload.length ≤ payloadLimit frame.direction ∧ frame.generation < 256 ^ 4 ∧ frame.sequence < 256 ^ 8 ∧
      Framed frame bytes := by
  unfold encodePcmFrame invalidRequest at h
  rw [check_ok,check_ok,check_ok,check_ok] at h
  obtain ⟨hidentity,hsamples,hlimit,hfits,hbytes⟩ := h
  obtain rfl := Except.ok.inj hbytes
  simp only [not_or,not_le,not_lt,Decidable.not_not] at hidentity hsamples hlimit hfits
  refine ⟨hidentity.1,hidentity.2,hsamples.1,hsamples.2,hlimit,hfits.1,hfits.2,?_⟩
  exact ⟨by simp [length_beBytes,pcmMagic]; omega,rfl,rfl,rfl,rfl,rfl,rfl,rfl,rfl⟩

/-- A frame is read back as it was. -/
theorem decodePcmFrame_encoded {frame : LocalPcmFrame} {bytes : Bytes} (h : encodePcmFrame frame = .ok bytes) :
    decodePcmFrame bytes = .ok frame := by
  obtain ⟨hgeneration,hsequence,hne,heven,hlimit,hsmall,hshort,hframed⟩ := encodePcmFrame_ok h
  have hsize : frame.payload.length < 256 ^ 4 := by
    have hbound : payloadLimit frame.direction ≤ 262144 := by cases frame.direction <;> decide
    omega
  have hdirection : AudioDirection.ofValue (beNat [UInt8.ofNat frame.direction.value]) = some frame.direction := by
    cases frame.direction <;> rfl
  have hflags : beNat (beBytes 2 0) = 0 := rfl
  have hversion : beNat [1] = 1 := rfl
  unfold decodePcmFrame protocolError
  simp only [hframed.magic,hframed.version,hframed.direction,hframed.flags,hframed.generation,hframed.sequence,
    hframed.size,hframed.payload,beNat_beBytes_of_lt hsmall,beNat_beBytes_of_lt hshort,beNat_beBytes_of_lt hsize,
    hdirection]
  have hlong : ¬bytes.length < 24 := by
    have hlength := hframed.length
    omega
  rw [if_neg hlong,if_neg (by simp [hflags,hversion]),if_neg (by simp),if_neg (by simp [hgeneration,hsequence,hne,heven]),
    if_neg (by omega)]

theorem beNat_cons (b : UInt8) (bytes : Bytes) : beNat (b :: bytes) = b.toNat * 256 ^ bytes.length + beNat bytes := by
  have hfold : ∀ (l : Bytes) (a : ℕ),
      l.foldl (fun n b => n * 256 + b.toNat) a = a * 256 ^ l.length + l.foldl (fun n b => n * 256 + b.toNat) 0 := by
    intro l
    induction l with
    | nil => simp
    | cons d l ih =>
      intro a
      rw [List.foldl_cons,List.foldl_cons,ih,ih (0 * 256 + d.toNat),List.length_cons,pow_succ]
      ring
  unfold beNat
  rw [List.foldl_cons,hfold]
  simp

theorem beNat_lt (bytes : Bytes) : beNat bytes < 256 ^ bytes.length := by
  induction bytes with
  | nil => decide
  | cons b bytes ih =>
    have hb : b.toNat + 1 ≤ 256 := b.toNat_lt
    have htop : (b.toNat + 1) * 256 ^ bytes.length ≤ 256 * 256 ^ bytes.length := Nat.mul_le_mul_right _ hb
    rw [add_mul,one_mul] at htop
    rw [beNat_cons,List.length_cons,pow_succ]
    omega

/-- A number of so many bytes is written as these bytes. -/
theorem beBytes_beNat (bytes : Bytes) : beBytes bytes.length (beNat bytes) = bytes := by
  have hhigh : ∀ a, beBytes bytes.length (a * 256 ^ bytes.length + beNat bytes) = bytes := by
    induction bytes with
    | nil => exact fun _ => rfl
    | cons b bytes ih =>
      intro a
      have hsum : a * 256 ^ (bytes.length + 1) + beNat (b :: bytes) =
          (a * 256 + b.toNat) * 256 ^ bytes.length + beNat bytes := by
        rw [beNat_cons,pow_succ]
        ring
      have hdigit : ((a * 256 + b.toNat) * 256 ^ bytes.length + beNat bytes) / 256 ^ bytes.length = a * 256 + b.toNat := by
        rw [mul_comm,Nat.mul_add_div (Nat.pow_pos (by decide)),Nat.div_eq_of_lt (beNat_lt bytes),add_zero]
      have hbyte : (a * 256 + b.toNat) % 256 = b.toNat := by
        have hb : b.toNat < 256 := b.toNat_lt
        omega
      rw [List.length_cons,hsum,beBytes,ih,hdigit,hbyte,UInt8.ofNat_toNat]
  simpa using hhigh 0

theorem beBytes_part {bytes : Bytes} {start size n : ℕ} (hlength : start + size ≤ bytes.length)
    (h : beNat ((bytes.drop start).take size) = n) : beBytes size n = (bytes.drop start).take size := by
  have hsize : ((bytes.drop start).take size).length = size := by
    rw [List.length_take,List.length_drop]
    omega
  have hpart := beBytes_beNat ((bytes.drop start).take size)
  rwa [hsize,h] at hpart

theorem take_drop_part (bytes : Bytes) (start size : ℕ) :
    (bytes.drop start).take size ++ bytes.drop (start + size) = bytes.drop start := by
  rw [← List.drop_drop,List.take_append_drop]

theorem value_of_ofValue {n : ℕ} {direction : AudioDirection} (h : AudioDirection.ofValue n = some direction) :
    direction.value = n := by
  unfold AudioDirection.ofValue at h
  split at h
  · obtain rfl := Option.some.inj h
    rfl
  · obtain rfl := Option.some.inj h
    rfl
  · exact nomatch h

/-- The bytes that are read as a frame are the bytes that it is written as. -/
theorem encodePcmFrame_decoded {frame : LocalPcmFrame} {bytes : Bytes} (h : decodePcmFrame bytes = .ok frame) :
    encodePcmFrame frame = .ok bytes := by
  unfold decodePcmFrame protocolError at h
  rw [check_ok] at h
  obtain ⟨hlong,h⟩ := h
  rw [check_ok] at h
  obtain ⟨hheader,h⟩ := h
  cases hdirection : AudioDirection.ofValue (beNat ((bytes.drop 5).take 1)) with
  | none =>
    rw [hdirection] at h
    exact nomatch h
  | some direction =>
    rw [hdirection] at h
    dsimp only at h
    rw [check_ok,check_ok,check_ok] at h
    obtain ⟨hsize,hvalid,hlimit,hframe⟩ := h
    obtain rfl := Except.ok.inj hframe
    simp only [not_or,Decidable.not_not] at hheader hsize hvalid
    obtain ⟨hmagic,hversion,hflags⟩ := hheader
    have hlength : 24 ≤ bytes.length := not_lt.mp hlong
    have hpart : ∀ start size, start + size ≤ 24 → (bytes.drop start).take size =
        beBytes size (beNat ((bytes.drop start).take size)) :=
      fun start size hle => (beBytes_part (hle.trans hlength) rfl).symm
    have hone : (bytes.drop 4).take 1 = [1] := by
      rw [hpart 4 1 (by omega),hversion]
      rfl
    have hdir : (bytes.drop 5).take 1 = [UInt8.ofNat direction.value] := by
      rw [hpart 5 1 (by omega),value_of_ofValue hdirection,beBytes,beBytes]
      have hbyte := beNat_lt ((bytes.drop 5).take 1)
      have hle : ((bytes.drop 5).take 1).length ≤ 1 := List.length_take_le _ _
      have hsmall : beNat ((bytes.drop 5).take 1) < 256 := by
        have hpow : 256 ^ ((bytes.drop 5).take 1).length ≤ 256 ^ 1 := Nat.pow_le_pow_right (by omega) hle
        omega
      rw [pow_zero,Nat.div_one,Nat.mod_eq_of_lt hsmall]
    have hbytes : pcmMagic ++ [1,UInt8.ofNat direction.value] ++ beBytes 2 0 ++ beBytes 4 (beNat ((bytes.drop 8).take 4)) ++
        beBytes 8 (beNat ((bytes.drop 12).take 8)) ++ beBytes 4 (bytes.drop 24).length ++ bytes.drop 24 = bytes := by
      rw [← hsize,← hpart 8 4 (by omega),← hpart 12 8 (by omega),← hpart 20 4 (by omega),beBytes_part (by omega) hflags,← hmagic]
      have htwo : [1,UInt8.ofNat direction.value] = (bytes.drop 4).take 1 ++ (bytes.drop 5).take 1 := by
        rw [hone,hdir]
        rfl
      rw [htwo]
      simp only [List.append_assoc]
      rw [take_drop_part bytes 20 4,take_drop_part bytes 12 8,take_drop_part bytes 8 4,take_drop_part bytes 6 2,
        take_drop_part bytes 5 1,take_drop_part bytes 4 1,take_drop_part bytes 0 4,List.drop_zero]
    have hsmall : beNat ((bytes.drop 8).take 4) < 256 ^ 4 := by
      have hbound := beNat_lt ((bytes.drop 8).take 4)
      have hfour : ((bytes.drop 8).take 4).length = 4 := by
        rw [List.length_take,List.length_drop]
        omega
      rwa [hfour] at hbound
    have hshort : beNat ((bytes.drop 12).take 8) < 256 ^ 8 := by
      have hbound := beNat_lt ((bytes.drop 12).take 8)
      have height : ((bytes.drop 12).take 8).length = 8 := by
        rw [List.length_take,List.length_drop]
        omega
      rwa [height] at hbound
    unfold encodePcmFrame invalidRequest
    rw [check_ok,check_ok,check_ok,check_ok]
    refine ⟨?_,?_,hlimit,?_,?_⟩
    · rw [not_or]
      exact ⟨hvalid.1,hvalid.2.1⟩
    · rw [not_or,Decidable.not_not]
      exact ⟨hvalid.2.2.1,hvalid.2.2.2⟩
    · rw [not_or,not_le,not_le]
      exact ⟨hsmall,hshort⟩
    · rw [hbytes]

theorem decodePcmFrame_error {bytes : Bytes} {e : LocalExn} (h : decodePcmFrame bytes = .error e) :
    ∃ error, e = .realtime error := by
  unfold decodePcmFrame protocolError at h
  split at h
  · exact ⟨_,(Except.error.inj h).symm⟩
  dsimp only at h
  split at h
  · exact ⟨_,(Except.error.inj h).symm⟩
  split at h
  · exact ⟨_,(Except.error.inj h).symm⟩
  split at h
  · exact ⟨_,(Except.error.inj h).symm⟩
  split at h
  · exact ⟨_,(Except.error.inj h).symm⟩
  split at h
  · exact ⟨_,(Except.error.inj h).symm⟩
  · exact nomatch h

/-- The encoder and the decoder of binary frames are inverse to each other where they do not raise, and the decoder
raises nothing but a `RealtimeError`. -/
theorem pcm_codec_bijective (frame : LocalPcmFrame) (bytes : Bytes) :
    (encodePcmFrame frame = .ok bytes ↔ decodePcmFrame bytes = .ok frame) ∧
      ∀ e, decodePcmFrame bytes = .error e → ∃ error, e = .realtime error :=
  ⟨⟨decodePcmFrame_encoded,encodePcmFrame_decoded⟩,fun _ => decodePcmFrame_error⟩

end Local
end HarnessSdk
