import HarnessSdk.Coroutine
import HarnessSdk.Ports
import HarnessSdk.RelayControl
import HarnessSdk.ToolSchema

/-!
# Helpers of the native adapters

A decoder works on the adapter's own state and on the identity table of the logical session. It
never suspends, and what it has changed stays changed when it raises.
-/

namespace HarnessSdk

structure DecoderState (A : Type) where
  adapter : A
  table : RealtimeIdentityTable

abbrev Decoder (A α : Type) := Run (DecoderState A) Empty Exn α

namespace Decoder

variable {A : Type}

def decoding (m : Decoder A DecodedProviderEvent) (a : A) (table : RealtimeIdentityTable) : Decoding A :=
  match m ⟨a,table⟩ with
  | .ok d s => ⟨.ok d,s.adapter,s.table⟩
  | .raise e s => ⟨.error e,s.adapter,s.table⟩
  | .park p _ => nomatch p

/-- `self.identity_table.register(..)`. -/
def register (itemId : String) (role : Role) (source : String) (confirmed : Bool)
    (aliases : List String := []) : Decoder A Unit := do
  let s ← Run.get
  let (table,_) ← Run.ofExcept (s.table.register itemId role source confirmed aliases)
  Run.modify fun s => { s with table }

end Decoder

/-- A provider contract error that names the field at fault. -/
def invalidField {α : Type*} (name message reason : String) : Except Exn α :=
  .error (.realtime { code := .protocolError, message, validationField := some name
                      validationReason := some reason })

def requireString (value : Option Json) (name : String) : Except Exn String :=
  match (Json.asString value).filter (· ≠ "") with
  | some s => .ok s
  | none => invalidField name (name ++ " is required") "invalid_string"

def optionalIdentifier (value : Option Json) : Option String :=
  (Json.asString value).filter fun s => !Text.isBlank s

def requireIdentifier (value : Option Json) (name : String) : Except Exn String :=
  match optionalIdentifier value with
  | some s => .ok s
  | none => invalidField name (name ++ " is required") "missing_identity"

def requireNonnegativeInteger (value : Option Json) (name : String) : Except Exn ℕ :=
  match (Json.asInt value).filter (0 ≤ ·) with
  | some n => .ok n.toNat
  | none => invalidField name (name ++ " must be an integer") "invalid_integer"

def requireObject (value : Option Json) (name : String) : Except Exn Json.Object :=
  match Json.asObject value with
  | some o => .ok o
  | none => invalidField name (name ++ " must be an object") "invalid_object"

def newEventId (fresh : String) : String := "event_" ++ fresh

/-! Base64, as the strict decoder reads it. -/

def base64Digit (c : Char) : Option ℕ :=
  if Text.isUpper c then some (c.toNat - 65)
  else if Text.isLower c then some (c.toNat - 71)
  else if Text.isDigit c then some (c.toNat + 4)
  else if c = '+' then some 62
  else if c = '/' then some 63
  else none

/-- The bytes of a row of six-bit digits. -/
def base64Bytes : List ℕ → Bytes
  | a :: b :: c :: d :: digits =>
    UInt8.ofNat (a * 4 + b / 16) :: UInt8.ofNat (b % 16 * 16 + c / 4) :: UInt8.ofNat (c % 4 * 64 + d) ::
      base64Bytes digits
  | [a, b, c] => [UInt8.ofNat (a * 4 + b / 16),UInt8.ofNat (b % 16 * 16 + c / 4)]
  | [a, b] => [UInt8.ofNat (a * 4 + b / 16)]
  | _ => []

/-- `base64.b64decode(value, validate=True)`. A group that is full needs no padding, and any is let
through behind it. -/
def base64Decode (value : String) : Option Bytes := do
  let digits ← (value.toList.takeWhile (· ≠ '=')).mapM base64Digit
  let padding := value.toList.drop digits.length
  if !padding.all (· = '=') then none
  else
    match digits.length % 4 with
    | 0 => some (base64Bytes digits)
    | 2 => if padding.length = 2 then some (base64Bytes digits) else none
    | 3 => if padding.length = 1 then some (base64Bytes digits) else none
    | _ => none

def decodeBase64Pcm (value : Option Json) (limit : ℕ) : Except Exn Bytes :=
  match (Json.asString value).filter (· ≠ "") with
  | none => protocolError "audio must be base64"
  | some text =>
    match base64Decode text with
    | none => protocolError "invalid base64 audio"
    | some decoded =>
      if decoded.length = 0 ∨ decoded.length % 2 ≠ 0 then protocolError "PCM must contain whole samples"
      else if decoded.length > limit then protocolError "PCM event is too large"
      else .ok decoded

def parseTerminalUsage (response : Json.Object) (inputDetailsField outputDetailsField : String) :
    Except Exn (Option ResponseUsage) :=
  match Json.field response "usage" with
  | none | some .null => .ok none
  | some raw => do
    let usage ← requireObject (some raw) "usage"
    let inputDetails ← requireObject (Json.field usage inputDetailsField) inputDetailsField
    let outputDetails ← requireObject (Json.field usage outputDetailsField) outputDetailsField
    let inputTokens ← requireNonnegativeInteger (Json.field usage "input_tokens") "input_tokens"
    let outputTokens ← requireNonnegativeInteger (Json.field usage "output_tokens") "output_tokens"
    let totalTokens ← requireNonnegativeInteger (Json.field usage "total_tokens") "total_tokens"
    let inputText ← requireNonnegativeInteger (Json.field inputDetails "text_tokens") "input text tokens"
    let inputAudio ← requireNonnegativeInteger (Json.field inputDetails "audio_tokens") "input audio tokens"
    let outputText ← requireNonnegativeInteger (Json.field outputDetails "text_tokens") "output text tokens"
    let outputAudio ← requireNonnegativeInteger (Json.field outputDetails "audio_tokens") "output audio tokens"
    if inputText + inputAudio ≠ inputTokens then protocolError "input usage total mismatch"
    else if outputText + outputAudio ≠ outputTokens then protocolError "output usage total mismatch"
    else if inputTokens + outputTokens ≠ totalTokens then protocolError "usage total mismatch"
    else .ok (some ⟨inputText,inputAudio,outputText,outputAudio⟩)

/-- The size and sample checks of `encode_audio`. -/
def checkAudio (limit : ℕ) (pcm : Bytes) : Except Exn Unit :=
  if pcm.length = 0 ∨ pcm.length % 2 ≠ 0 then
    .error (.realtime { code := .invalidRequest, message := "PCM must contain whole samples" })
  else if pcm.length > limit then
    .error (.realtime { code := .invalidRequest, message := "PCM event is too large" })
  else .ok ()

/-- What `decode_base64_pcm` says about the text that `encode_audio` has made of these bytes. -/
def recheckAudio (limit : ℕ) (pcm : Bytes) : Except Exn Unit :=
  if pcm.length = 0 then protocolError "audio must be base64"
  else if pcm.length % 2 ≠ 0 then protocolError "PCM must contain whole samples"
  else if pcm.length > limit then protocolError "PCM event is too large"
  else .ok ()

/-! Equality of parsed values, where a boolean is the number zero or one. -/

def Json.numeric : Json → Option Rat
  | .bool b => some (if b then 1 else 0)
  | value => Json.number value

mutual

def Json.equal : Json → Json → Bool
  | .null, right => match right with | .null => true | _ => false
  | .bool b, right => decide (Json.numeric right = some (if b then 1 else 0))
  | .int n, right => decide (Json.numeric right = some (n : Rat))
  | .float q, right => decide (Json.numeric right = some q)
  | .nonfinite _, _ => false
  | .str a, right => match right with | .str b => decide (a = b) | _ => false
  | .arr left, right => match right with | .arr right => Json.equalItems left right | _ => false
  | .obj left, right => match right with
    | .obj right => left.all (fun m => Json.hasField right m.1) &&
      right.all (fun m => Json.hasField left m.1) && Json.equalMembers left right
    | _ => false

def Json.equalItems : List Json → List Json → Bool
  | [], right => right.isEmpty
  | a :: as, right => match right with | b :: bs => Json.equal a b && Json.equalItems as bs | [] => false

def Json.equalMembers : List (String × Json) → Json.Object → Bool
  | [], _ => true
  | (k,v) :: ms, right =>
    (match Json.field right k with | some w => Json.equal v w | none => false) && Json.equalMembers ms right

end

/-- `value == expected`, where an absent member is `None`. -/
def Json.equals (value : Option Json) (expected : Json) : Bool := Json.equal (value.getD .null) expected

end HarnessSdk
