import HarnessSdk.ServiceConnections

/-!
# Sizes of requests on the wire

A message is limited before it is escaped and a frame after it. A control character takes one byte in the message and six
in the frame, so that a request may be valid and too large for a frame.
-/

namespace HarnessSdk
namespace UnixService

open Chat (StartRequest messageMaxBytes validText)

variable {lib : Library} {requestId token : String}

/-! The size of a text in JSON. -/

/-- How many bytes a character takes between the quotes. -/
def charSize (c : Char) : ℕ :=
  match JsonText.escapes.lookup c with
  | some _ => 2
  | none => if c.toNat < 32 then 6 else c.utf8Size

def escapedSize (s : String) : ℕ := (s.toList.map charSize).sum

theorem length_utf8 (cs : List Char) : (utf8 cs).length = (cs.map Char.utf8Size).sum := by
  unfold utf8
  induction cs with
  | nil => rfl
  | cons c cs ih =>
    rw [List.flatMap_cons,List.length_append,String.length_utf8EncodeChar,ih,List.map_cons,List.sum_cons]

theorem length_utf8_append (cs ds : List Char) : (utf8 (cs ++ ds)).length = (utf8 cs).length + (utf8 ds).length := by
  rw [utf8,List.flatMap_append,List.length_append]
  rfl

theorem length_utf8_cons (c : Char) (cs : List Char) : (utf8 (c :: cs)).length = c.utf8Size + (utf8 cs).length := by
  rw [length_utf8,length_utf8,List.map_cons,List.sum_cons]

/-- A hexadecimal digit below 16 is one byte. -/
theorem utf8Size_hexDigit {n : ℕ} (h : n < 16) : (JsonText.hexDigit n).utf8Size = 1 := by
  have hall : ∀ n < 16, (JsonText.hexDigit n).utf8Size = 1 := by decide
  exact hall n h

theorem length_escape (c : Char) : (utf8 (JsonText.escape c)).length = charSize c := by
  unfold JsonText.escape charSize
  cases hlookup : JsonText.escapes.lookup c with
  | some e =>
    have hsize : ∀ m ∈ JsonText.escapes, m.2.utf8Size = 1 := by decide
    obtain ⟨l,l',hsplit,_⟩ := List.lookup_eq_some_iff.mp hlookup
    have he := hsize (c,e) (by rw [hsplit]; simp)
    simp only [length_utf8_cons,he]
    rfl
  | none =>
    dsimp only
    by_cases hcontrol : c.toNat < 32
    · rw [if_pos hcontrol,if_pos hcontrol]
      have hhigh := utf8Size_hexDigit (n := c.toNat / 16) (by omega)
      have hlow := utf8Size_hexDigit (n := c.toNat % 16) (by omega)
      simp only [length_utf8_cons,hhigh,hlow]
      rfl
    · rw [if_neg hcontrol,if_neg hcontrol,length_utf8_cons]
      rfl

theorem length_quoted (s : String) : (utf8 (JsonText.quoted s)).length = escapedSize s + 2 := by
  have hchars : ∀ cs : List Char, (utf8 (cs.flatMap JsonText.escape)).length = (cs.map charSize).sum := by
    intro cs
    induction cs with
    | nil => rfl
    | cons c cs ih => rw [List.flatMap_cons,length_utf8_append,length_escape,ih,List.map_cons,List.sum_cons]
  have hquote : (utf8 ['"']).length = 1 := rfl
  rw [JsonText.quoted,length_utf8_cons,length_utf8_append,hchars,hquote,escapedSize]
  exact Nat.add_comm 1 _

/-! The size of an object. -/

/-- The bytes of a value with sorted names. -/
def textSize (v : Json) : ℕ := (utf8 (JsonText.text (sortKeys codePoints v))).length

theorem length_textMembers (first : Bool) (ms : Json.Object) : (utf8 (JsonText.textMembers first ms)).length =
    (ms.map fun m => (utf8 (JsonText.quoted m.1)).length + 1 + (utf8 (JsonText.text m.2)).length).sum +
      (if first then ms.length - 1 else ms.length) + 1 := by
  induction ms generalizing first with
  | nil => cases first <;> rfl
  | cons m ms ih =>
    have hrest := ih false
    have hcolon : ':'.utf8Size = 1 := rfl
    have hcomma : (utf8 [',']).length = 1 := rfl
    have hempty : (utf8 []).length = 0 := rfl
    simp only [JsonText.textMembers,length_utf8_append,length_utf8_cons,List.map_cons,List.sum_cons,hrest,hcolon]
    cases first
    · simp only [Bool.false_eq_true,if_false,List.length_cons,hcomma]
      omega
    · simp only [if_true,List.length_cons,Bool.false_eq_true,if_false,hempty]
      omega

/-- The order of the members has no influence on the size. -/
theorem textSize_obj (members : Json.Object) : textSize (.obj members) =
    (members.map fun m => escapedSize m.1 + 3 + textSize m.2).sum + (members.length - 1) + 2 := by
  have hperm := KeySort.sort_perm codePoints (sortKeysMembers codePoints members)
  have hsum := (hperm.map fun m => (utf8 (JsonText.quoted m.1)).length + 1 + (utf8 (JsonText.text m.2)).length).sum_eq
  have hopen : '\x7b'.utf8Size = 1 := rfl
  rw [textSize,sortKeys,JsonText.text,length_utf8_cons,length_textMembers,hsum,hperm.length_eq,sortKeysMembers_eq,
    List.map_map,List.length_map,hopen]
  have hmember : ∀ m : String × Json, (utf8 (JsonText.quoted m.1)).length + 1 +
      (utf8 (JsonText.text (sortKeys codePoints m.2))).length = escapedSize m.1 + 3 + textSize m.2 := by
    intro m
    rw [length_quoted,textSize]
  simp only [Function.comp_def,hmember,if_true]
  omega

theorem textSize_str (s : String) : textSize (.str s) = escapedSize s + 2 := length_quoted s

/-! Requests. -/

/-- What `json.dumps` writes. -/
def Library.WritesText (lib : Library) : Prop := ∀ frame : Json.Object, JsonText.integral (.obj frame) →
  lib.dumps frame = some (utf8 (sortedText frame))

theorem encodeFrame_fits (hlib : lib.WritesText) {frame : Json.Object} (hintegral : JsonText.integral (.obj frame)) :
    encodeFrame lib frame ≠ .error (.service .payloadTooLarge) ↔ textSize (.obj frame) ≤ frameMaxBytes := by
  have hsize : (utf8 (sortedText frame)).length = textSize (.obj frame) := rfl
  unfold encodeFrame
  rw [hlib frame hintegral]
  dsimp only
  rw [hsize]
  by_cases hfits : textSize (.obj frame) ≤ frameMaxBytes
  · rw [if_neg (not_lt.mpr hfits)]
    exact ⟨fun _ => hfits,fun _ => nofun⟩
  · rw [if_pos (not_le.mp hfits)]
    exact ⟨fun h => absurd rfl h,fun h => absurd h hfits⟩

/-- The envelope is 52 bytes around the operation, the payload, the identifier and the capability. -/
theorem textSize_frame (call : ServiceCall) (requestId token : String) : textSize (.obj (call.frame requestId token)) =
    escapedSize requestId + escapedSize call.op + textSize (.obj call.payload) + escapedSize token + 52 := by
  have hnames : escapedSize "request_id" = 10 ∧ escapedSize "op" = 2 ∧ escapedSize "payload" = 7 ∧
      escapedSize "capability" = 10 := by decide
  rw [textSize_obj]
  simp only [ServiceCall.frame,List.map_cons,List.map_nil,List.sum_cons,List.sum_nil,List.length_cons,List.length_nil,
    textSize_str,hnames]
  omega

theorem textSize_start (r : StartRequest) : textSize (.obj (ServiceCall.start r).payload) = escapedSize r.externalSessionId +
    escapedSize r.externalRunId + escapedSize r.externalCommandId + escapedSize r.message + escapedSize r.profileKey + 102 := by
  have hnames : escapedSize "external_session_id" = 19 ∧ escapedSize "external_run_id" = 15 ∧
      escapedSize "external_command_id" = 19 ∧ escapedSize "message" = 7 ∧ escapedSize "profile_key" = 11 := by decide
  rw [textSize_obj]
  simp only [ServiceCall.payload,List.map_cons,List.map_nil,List.sum_cons,List.sum_nil,List.length_cons,List.length_nil,
    textSize_str,hnames]
  omega

theorem textSize_continue (r : ContinueRequest) : textSize (.obj (ServiceCall.continue_ r).payload) =
    escapedSize r.externalSessionId + escapedSize r.externalRunId + escapedSize r.externalCommandId +
      escapedSize r.externalContinuationId + escapedSize r.message + 115 := by
  have hnames : escapedSize "external_session_id" = 19 ∧ escapedSize "external_run_id" = 15 ∧
      escapedSize "external_command_id" = 19 ∧ escapedSize "external_continuation_id" = 24 ∧
      escapedSize "message" = 7 := by decide
  rw [textSize_obj]
  simp only [ServiceCall.payload,List.map_cons,List.map_nil,List.sum_cons,List.sum_nil,List.length_cons,List.length_nil,
    textSize_str,hnames]
  omega

/-- A request fits a frame if and only if its escaped texts do, with the capability and the rest of the envelope. -/
theorem request_fits_iff (hlib : lib.WritesText) (requestId token : String) :
    (∀ r : StartRequest, encodeFrame lib ((ServiceCall.start r).frame requestId token) ≠ .error (.service .payloadTooLarge) ↔
      escapedSize r.externalSessionId + escapedSize r.externalRunId + escapedSize r.externalCommandId +
        escapedSize r.message + escapedSize r.profileKey + escapedSize requestId + escapedSize token + 159 ≤ frameMaxBytes) ∧
    ∀ r : ContinueRequest, encodeFrame lib ((ServiceCall.continue_ r).frame requestId token) ≠
      .error (.service .payloadTooLarge) ↔
      escapedSize r.externalSessionId + escapedSize r.externalRunId + escapedSize r.externalCommandId +
        escapedSize r.externalContinuationId + escapedSize r.message + escapedSize requestId + escapedSize token + 175 ≤
          frameMaxBytes := by
  have hstart : escapedSize "start" = 5 := by decide
  have hcontinue : escapedSize "continue" = 8 := by decide
  constructor
  · intro r
    rw [encodeFrame_fits hlib (ServiceCall.frame_integral _ _ _),textSize_frame,textSize_start,ServiceCall.op,hstart]
    constructor <;> intro h <;> omega
  · intro r
    rw [encodeFrame_fits hlib (ServiceCall.frame_integral _ _ _),textSize_frame,textSize_continue,ServiceCall.op,hcontinue]
    constructor <;> intro h <;> omega

theorem jsonLibrary_writesText (sign : String → String) : (jsonLibrary sign).WritesText := fun _ hintegral => if_pos hintegral

theorem request_fits_written : (jsonLibrary exampleSign).WritesText ∧ ∀ r : StartRequest, encodeFrame (jsonLibrary exampleSign)
    ((ServiceCall.start r).frame "6f1c" "a.b") ≠ .error (.service .payloadTooLarge) ↔ escapedSize r.externalSessionId +
      escapedSize r.externalRunId + escapedSize r.externalCommandId + escapedSize r.message + escapedSize r.profileKey +
        escapedSize "6f1c" + escapedSize "a.b" + 159 ≤ frameMaxBytes :=
  ⟨jsonLibrary_writesText exampleSign,(request_fits_iff (jsonLibrary_writesText exampleSign) "6f1c" "a.b").1⟩

/-! A message of control characters. -/

def controls (n : ℕ) : String := String.ofList (List.replicate n '\x01')

theorem toList_controls (n : ℕ) : (controls n).toList = List.replicate n '\x01' := String.toList_ofList

theorem utf8ByteSize_ofList (cs : List Char) : (String.ofList cs).utf8ByteSize = (utf8 cs).length := by
  rw [String.utf8ByteSize,String.toByteArray_ofList,List.utf8Encode]
  exact List.size_toByteArray

theorem controls_valid (n : ℕ) : validText (controls (n + 1)) (n + 1) := by
  have hsize : (controls (n + 1)).utf8ByteSize = n + 1 := by
    have hone : '\x01'.utf8Size = 1 := rfl
    rw [controls,utf8ByteSize_ofList,length_utf8,List.map_replicate,List.sum_replicate,hone]
    exact mul_one _
  unfold validText
  rw [hsize]
  simp [toList_controls,Text.isBlank,Text.isSpace,List.replicate_succ]

theorem escapedSize_controls (n : ℕ) : escapedSize (controls n) = 6 * n := by
  have hsix : charSize '\x01' = 6 := rfl
  rw [escapedSize,toList_controls,List.map_replicate,List.sum_replicate,hsix]
  exact Nat.mul_comm n 6

/-- A message of the largest size. -/
def controlsRequest : StartRequest where
  externalSessionId := "session"
  externalRunId := "run"
  externalCommandId := "command"
  message := controls messageMaxBytes
  profileKey := "agent.general"
  valid := ⟨by decide,by decide,by decide,controls_valid 262143,by decide⟩

/-- Its message alone takes 1572864 bytes. -/
theorem controls_do_not_fit : ¬ ∀ (server : UnixServiceServer) (grant : Grant) (requestId : String) (r : StartRequest),
    server.lib.WritesText → (∀ s ∈ [grant.principal.deploymentId,grant.principal.householdId,grant.principal.actorId],
      s.utf8ByteSize ≤ 512) → encodeFrame server.lib ((ServiceCall.start r).frame requestId
        (grant.token server.lib server.keyId)) ≠ .error (.service .payloadTooLarge) := by
  intro h
  have hlib : exampleServer.lib.WritesText := jsonLibrary_writesText exampleSign
  have hfits := h exampleServer exampleGrant "6f1c" controlsRequest hlib (by decide)
  have hmessage : escapedSize controlsRequest.message = 6 * (256 * 1024) := escapedSize_controls messageMaxBytes
  rw [encodeFrame_fits hlib (ServiceCall.frame_integral _ _ _),textSize_frame,textSize_start,
    hmessage,frameMaxBytes] at hfits
  omega

end UnixService
end HarnessSdk
