import HarnessSdk.Service
import HarnessSdk.LocalWire
import HarnessSdk.CapabilityLock

/-!
# The wire of the service

A request and a result are turned into objects of JSON by one side and rebuilt by the other. Objects travel in frames
of four bytes for the length and the text of the object.
-/

namespace HarnessSdk

/-- A `StrEnum`: its members with their values. -/
structure StrEnum (α : Type) where
  members : List α
  value : α → String
  complete : ∀ a, a ∈ members
  distinct : (members.map value).Nodup

namespace StrEnum

variable {α : Type} (e : StrEnum α)

/-- The member with this value, as the class is called with it. -/
def ofValue (raw : String) : Option α := e.members.find? fun a => e.value a = raw

theorem ofValue_value (a : α) : e.ofValue (e.value a) = some a := by
  unfold ofValue
  cases h : e.members.find? fun b => e.value b = e.value a with
  | none =>
    have hnone := List.find?_eq_none.mp h a (e.complete a)
    simp at hnone
  | some b =>
    have hvalue : e.value b = e.value a := by simpa using List.find?_some h
    rw [List.inj_on_of_nodup_map e.distinct (e.complete b) (e.complete a) hvalue]

theorem ofValue_eq_some {raw : String} {a : α} (h : e.ofValue raw = some a) : raw = e.value a := by
  unfold ofValue at h
  have hvalue : e.value a = raw := by simpa using List.find?_some h
  exact hvalue.symm

theorem ofValue_isSome (raw : String) : (e.ofValue raw).isSome ↔ ∃ a, raw = e.value a := by
  constructor
  · intro h
    obtain ⟨a,ha⟩ := Option.isSome_iff_exists.mp h
    exact ⟨a,e.ofValue_eq_some ha⟩
  · rintro ⟨a,rfl⟩
    rw [e.ofValue_value]
    rfl

end StrEnum

/-! Fields of objects that are the same up to the order of their members. -/

theorem sortKeys_scalar {κ : String → List ℕ} {x w : Json} (harr : ∀ items, x ≠ .arr items)
    (hobj : ∀ members, x ≠ .obj members) (h : sortKeys κ w = x) : w = x := by
  cases w with
  | arr items => exact absurd h.symm (harr _)
  | obj members => exact absurd h.symm (hobj _)
  | null | bool | int | float | nonfinite | str => exact h

/-- Each name has the same value in both objects, or no value in either. -/
def SameFields (v w : Json.Object) : Prop :=
  ∀ k, (Json.field w k).map (sortKeys codePoints) = (Json.field v k).map (sortKeys codePoints)

theorem field_sorted {ms : Json.Object} (h : (ms.map Prod.fst).Nodup) (k : String) :
    Json.field (KeySort.sort codePoints (sortKeysMembers codePoints ms)) k =
      (Json.field ms k).map (sortKeys codePoints) := by
  have hperm := KeySort.sort_perm codePoints (sortKeysMembers codePoints ms)
  have hnames : ((KeySort.sort codePoints (sortKeysMembers codePoints ms)).map Prod.fst).Perm (ms.map Prod.fst) := by
    rw [← names_sortKeys codePoints ms]
    exact hperm.map _
  cases hfield : Json.field ms k with
  | none =>
    have hk := RelayControl.field_eq_none.mp hfield
    exact RelayControl.field_eq_none.mpr fun hmem => hk (hnames.subset hmem)
  | some x =>
    apply field_of_mem (hnames.nodup_iff.mpr h)
    apply hperm.symm.subset
    rw [sortKeysMembers_eq]
    exact List.mem_map.mpr ⟨(k,x),field_mem hfield,rfl⟩

/-- What is the same JSON value as an object is an object with the same fields. -/
theorem sameFields_of_same {v : Json.Object} {w : Json} (hv : distinctNames (.obj v)) (h : SameJson (.obj v) w) :
    ∃ members, w = .obj members ∧ SameFields v members := by
  have hnodup : (v.map Prod.fst).Nodup := by
    simp only [distinctNames,Bool.and_eq_true,decide_eq_true_eq] at hv
    exact hv.1
  cases w with
  | obj members =>
    have hsorted : KeySort.sort codePoints (sortKeysMembers codePoints members) =
        KeySort.sort codePoints (sortKeysMembers codePoints v) := (Json.obj.inj h).symm
    have hnames : (members.map Prod.fst).Perm (v.map Prod.fst) := by
      have hleft := (KeySort.sort_perm codePoints (sortKeysMembers codePoints members)).map Prod.fst
      have hright := (KeySort.sort_perm codePoints (sortKeysMembers codePoints v)).map Prod.fst
      rw [names_sortKeys] at hleft hright
      rw [hsorted] at hleft
      exact hleft.symm.trans hright
    refine ⟨members,rfl,fun k => ?_⟩
    rw [← field_sorted hnodup,← field_sorted (hnames.nodup_iff.mpr hnodup),hsorted]
  | null | bool | int | float | nonfinite | str | arr => exact nomatch h

namespace SameFields

variable {v w : Json.Object} {k : String}

theorem scalar {x : Json} (h : SameFields v w) (hk : Json.field v k = some x) (harr : ∀ items, x ≠ .arr items)
    (hobj : ∀ members, x ≠ .obj members) : Json.field w k = some x := by
  have hfield := h k
  rw [hk] at hfield
  obtain ⟨y,hy,hsorted⟩ := Option.map_eq_some_iff.mp hfield
  have hx : sortKeys codePoints x = x := by
    cases x with
    | arr items => exact absurd rfl (harr items)
    | obj members => exact absurd rfl (hobj members)
    | null | bool | int | float | nonfinite | str => rfl
  rw [hx] at hsorted
  rw [hy,sortKeys_scalar harr hobj hsorted]

theorem str {s : String} (h : SameFields v w) (hk : Json.field v k = some (.str s)) : Json.field w k = some (.str s) :=
  h.scalar hk nofun nofun

theorem int {n : ℤ} (h : SameFields v w) (hk : Json.field v k = some (.int n)) : Json.field w k = some (.int n) :=
  h.scalar hk nofun nofun

theorem bool {b : Bool} (h : SameFields v w) (hk : Json.field v k = some (.bool b)) : Json.field w k = some (.bool b) :=
  h.scalar hk nofun nofun

theorem null (h : SameFields v w) (hk : Json.field v k = some .null) : Json.field w k = some .null :=
  h.scalar hk nofun nofun

theorem obj {o : Json.Object} (h : SameFields v w) (hk : Json.field v k = some (.obj o)) (ho : distinctNames (.obj o)) :
    ∃ o', Json.field w k = some (.obj o') ∧ SameFields o o' := by
  have hfield := h k
  rw [hk] at hfield
  obtain ⟨y,hy,hsorted⟩ := Option.map_eq_some_iff.mp hfield
  obtain ⟨o',rfl,hsame⟩ := sameFields_of_same ho hsorted.symm
  exact ⟨o',hy,hsame⟩

theorem mem_names (h : SameFields v w) : k ∈ Json.names w ↔ k ∈ Json.names v := by
  rw [← not_iff_not,← RelayControl.field_eq_none,← RelayControl.field_eq_none]
  have hfield := h k
  constructor
  · intro hk
    rw [hk] at hfield
    exact Option.map_eq_none_iff.mp hfield.symm
  · intro hk
    rw [hk] at hfield
    exact Option.map_eq_none_iff.mp hfield

end SameFields

namespace UnixService

open Chat (CommandState CommandKind OutputState RunState CommandOutcome StartRequest CancelRequest CommandReceipt
  CommandSnapshot validText messageMaxBytes)

/-! The closed contracts. -/

inductive ServiceErrorCode
  | invalidRequest | unauthenticated | forbidden | notFound | conflict | payloadTooLarge | unavailable | timeout
  | internal
  deriving DecidableEq, Repr

def serviceErrorCode : StrEnum ServiceErrorCode where
  members := [.invalidRequest, .unauthenticated, .forbidden, .notFound, .conflict, .payloadTooLarge, .unavailable,
    .timeout, .internal]
  value
    | .invalidRequest => "invalid_request" | .unauthenticated => "unauthenticated" | .forbidden => "forbidden"
    | .notFound => "not_found" | .conflict => "conflict" | .payloadTooLarge => "payload_too_large"
    | .unavailable => "unavailable" | .timeout => "timeout" | .internal => "internal"
  complete a := by cases a <;> decide
  distinct := by decide

def commandState : StrEnum CommandState where
  members := [.accepted, .contextCallIntent, .contextReady, .applied, .rejected, .cancelled]
  value
    | .accepted => "accepted" | .contextCallIntent => "context_call_intent" | .contextReady => "context_ready"
    | .applied => "applied" | .rejected => "rejected" | .cancelled => "cancelled"
  complete a := by cases a <;> decide
  distinct := by decide

def commandKind : StrEnum CommandKind where
  members := [.start, .continue_, .cancel]
  value | .start => "start" | .continue_ => "continue" | .cancel => "cancel"
  complete a := by cases a <;> decide
  distinct := by decide

def outputState : StrEnum OutputState where
  members := [.pending, .present, .absent, .unknown]
  value | .pending => "pending" | .present => "present" | .absent => "absent" | .unknown => "unknown"
  complete a := by cases a <;> decide
  distinct := by decide

def runState : StrEnum RunState where
  members := [.created, .admissionPending, .queued, .running, .waiting, .cancelRequested, .completed, .failed,
    .cancelled]
  value
    | .created => "created" | .admissionPending => "admission_pending" | .queued => "queued" | .running => "running"
    | .waiting => "waiting" | .cancelRequested => "cancel_requested" | .completed => "completed"
    | .failed => "failed" | .cancelled => "cancelled"
  complete a := by cases a <;> decide
  distinct := by decide

def commandOutcome : StrEnum CommandOutcome where
  members := [.pending, .completed, .failed, .cancelled, .protocolError]
  value
    | .pending => "pending" | .completed => "completed" | .failed => "failed" | .cancelled => "cancelled"
    | .protocolError => "protocol_error"
  complete a := by cases a <;> decide
  distinct := by decide

structure HealthSnapshot where
  serving : Bool
  detail : String := "ready"
  deriving DecidableEq, Repr

structure ContinueRequest where
  externalSessionId : String
  externalRunId : String
  externalCommandId : String
  externalContinuationId : String
  message : String
  valid : validText externalSessionId 512 ∧ validText externalRunId 512 ∧ validText externalCommandId 512 ∧
    validText externalContinuationId 512 ∧ validText message messageMaxBytes
  deriving DecidableEq

structure GetRequest where
  externalCommandId : String
  valid : validText externalCommandId 512
  deriving DecidableEq

def ContinueRequest.make (sessionId runId commandId continuationId message : String) : Option ContinueRequest :=
  if h : validText sessionId 512 ∧ validText runId 512 ∧ validText commandId 512 ∧ validText continuationId 512 ∧
      validText message messageMaxBytes then
    some ⟨sessionId,runId,commandId,continuationId,message,h⟩
  else none

def GetRequest.make (commandId : String) : Option GetRequest :=
  if h : validText commandId 512 then some ⟨commandId,h⟩ else none

theorem StartRequest.make_self (r : StartRequest) : Chat.StartRequest.make r.externalSessionId r.externalRunId
    r.externalCommandId r.message r.profileKey = some r := dif_pos r.valid

theorem ContinueRequest.make_self (r : ContinueRequest) : make r.externalSessionId r.externalRunId
    r.externalCommandId r.externalContinuationId r.message = some r := dif_pos r.valid

theorem GetRequest.make_self (r : GetRequest) : make r.externalCommandId = some r := dif_pos r.valid

theorem CancelRequest.make_self (r : CancelRequest) : Chat.CancelRequest.make r.externalRunId r.externalCommandId = some r :=
  dif_pos r.valid

/-! Requests. -/

/-- The five methods of the service with what they are asked. -/
inductive ServiceCall
  | health
  | start (request : StartRequest)
  | continue_ (request : ContinueRequest)
  | get (request : GetRequest)
  | cancel (request : CancelRequest)
  deriving DecidableEq

def ServiceCall.op : ServiceCall → String
  | health => "health" | start _ => "start" | continue_ _ => "continue" | get _ => "get" | cancel _ => "cancel"

/-- `_request_json`, and the payloads that `health` and `get` of the client write out. -/
def ServiceCall.payload : ServiceCall → Json.Object
  | health => []
  | start r => [("external_session_id",.str r.externalSessionId), ("external_run_id",.str r.externalRunId),
      ("external_command_id",.str r.externalCommandId), ("message",.str r.message), ("profile_key",.str r.profileKey)]
  | continue_ r => [("external_session_id",.str r.externalSessionId), ("external_run_id",.str r.externalRunId),
      ("external_command_id",.str r.externalCommandId), ("external_continuation_id",.str r.externalContinuationId),
      ("message",.str r.message)]
  | get r => [("external_command_id",.str r.externalCommandId)]
  | cancel r => [("external_run_id",.str r.externalRunId), ("external_command_id",.str r.externalCommandId)]

/-- The object that the client sends in a frame. -/
def ServiceCall.frame (call : ServiceCall) (requestId capability : String) : Json.Object :=
  [("request_id",.str requestId), ("op",.str call.op), ("payload",.obj call.payload), ("capability",.str capability)]

/-- `Request(**payload)` takes these names, of which the optional ones may be missing. -/
def takesFields (payload : Json.Object) (required : List String) (optional : List String := []) : Bool :=
  required.all (· ∈ Json.names payload) && (Json.names payload).all (· ∈ required ++ optional)

def textField (payload : Json.Object) (name : String) : Option String := Json.asString (Json.field payload name)

def startOfPayload (payload : Json.Object) : Option StartRequest := do
  if !takesFields payload ["external_session_id", "external_run_id", "external_command_id", "message"]
    ["profile_key"] then none
  let sessionId ← textField payload "external_session_id"
  let runId ← textField payload "external_run_id"
  let commandId ← textField payload "external_command_id"
  let message ← textField payload "message"
  let profileKey ← if Json.hasField payload "profile_key" then textField payload "profile_key" else some "agent.general"
  Chat.StartRequest.make sessionId runId commandId message profileKey

def continueOfPayload (payload : Json.Object) : Option ContinueRequest := do
  if !takesFields payload ["external_session_id", "external_run_id", "external_command_id",
    "external_continuation_id", "message"] then none
  let sessionId ← textField payload "external_session_id"
  let runId ← textField payload "external_run_id"
  let commandId ← textField payload "external_command_id"
  let continuationId ← textField payload "external_continuation_id"
  let message ← textField payload "message"
  ContinueRequest.make sessionId runId commandId continuationId message

def getOfPayload (payload : Json.Object) : Option GetRequest := do
  if !takesFields payload ["external_command_id"] then none
  GetRequest.make (← textField payload "external_command_id")

def cancelOfPayload (payload : Json.Object) : Option CancelRequest := do
  if !takesFields payload ["external_run_id", "external_command_id"] then none
  let runId ← textField payload "external_run_id"
  let commandId ← textField payload "external_command_id"
  Chat.CancelRequest.make runId commandId

/-- What ends a handler: a `ServiceError`, the end of the connection (`IncompleteReadError` or `ConnectionError`),
`TimeoutError`, `TypeError` or `ValueError`, another exception, or a cancellation. -/
inductive Failure
  | service (code : ServiceErrorCode)
  | connection | timeout | value | other | cancelled
  deriving DecidableEq, Repr

/-- The call that a request names, with its request built from the payload. A payload that does not fit is a
`TypeError` or a `ValueError`. -/
def ServiceCall.read (op : String) (payload : Json.Object) : Except Failure ServiceCall :=
  let built {α : Type} (make : α → ServiceCall) (request : Option α) : Except Failure ServiceCall :=
    match request with
    | some request => .ok (make request)
    | none => .error .value
  match op with
  | "health" => .ok .health
  | "start" => built .start (startOfPayload payload)
  | "continue" => built .continue_ (continueOfPayload payload)
  | "get" => built .get (getOfPayload payload)
  | "cancel" => built .cancel (cancelOfPayload payload)
  | _ => .error (.service .invalidRequest)

theorem ServiceCall.payload_distinct (call : ServiceCall) : distinctNames (.obj call.payload) := by
  cases call <;> simp [distinctNames,distinctMembers,payload]

theorem ServiceCall.payload_integral (call : ServiceCall) : JsonText.integral (.obj call.payload) := by
  cases call <;> simp [JsonText.integral,JsonText.integralMembers,payload]

theorem ServiceCall.frame_distinct (call : ServiceCall) (requestId capability : String) :
    distinctNames (.obj (call.frame requestId capability)) := by
  have hpayload := call.payload_distinct
  simpa [distinctNames,distinctMembers,frame] using hpayload

theorem ServiceCall.frame_integral (call : ServiceCall) (requestId capability : String) :
    JsonText.integral (.obj (call.frame requestId capability)) := by
  have hpayload := call.payload_integral
  simpa [JsonText.integral,JsonText.integralMembers,frame] using hpayload

theorem takesFields_same {v w : Json.Object} {required optional : List String} (h : SameFields v w)
    (hv : takesFields v required optional) : takesFields w required optional := by
  simp only [takesFields,Bool.and_eq_true,List.all_eq_true,decide_eq_true_eq] at hv ⊢
  constructor
  · intro k hk
    exact h.mem_names.mpr (hv.1 k hk)
  · intro k hk
    exact hv.2 k (h.mem_names.mp hk)

theorem textField_same {v w : Json.Object} {name s : String} (h : SameFields v w)
    (hv : Json.field v name = some (.str s)) : textField w name = some s := by
  unfold textField
  rw [h.str hv]
  rfl

/-- A payload is read as the request that it was made from. -/
theorem ServiceCall.read_payload (call : ServiceCall) {payload : Json.Object} (h : SameFields call.payload payload) :
    read call.op payload = .ok call := by
  cases call with
  | health => rfl
  | start r =>
    have hfields : takesFields payload ["external_session_id", "external_run_id", "external_command_id", "message"]
        ["profile_key"] = true := takesFields_same h rfl
    have hprofile : Json.hasField payload "profile_key" = true := by
      rw [RelayControl.hasField_iff,h.mem_names]
      simp [ServiceCall.payload,Json.names]
    have hread : startOfPayload payload = some r := by
      unfold startOfPayload
      rw [hfields,textField_same h rfl,textField_same h rfl,textField_same h rfl,textField_same h rfl,hprofile,
        textField_same h rfl]
      exact StartRequest.make_self r
    simp [read,op,hread]
  | continue_ r =>
    have hfields : takesFields payload ["external_session_id", "external_run_id", "external_command_id",
        "external_continuation_id", "message"] = true := takesFields_same h rfl
    have hread : continueOfPayload payload = some r := by
      unfold continueOfPayload
      rw [hfields,textField_same h rfl,textField_same h rfl,textField_same h rfl,textField_same h rfl,textField_same h rfl]
      exact ContinueRequest.make_self r
    simp [read,op,hread]
  | get r =>
    have hfields : takesFields payload ["external_command_id"] = true := takesFields_same h rfl
    have hread : getOfPayload payload = some r := by
      unfold getOfPayload
      rw [hfields,textField_same h rfl]
      exact GetRequest.make_self r
    simp [read,op,hread]
  | cancel r =>
    have hfields : takesFields payload ["external_run_id", "external_command_id"] = true := takesFields_same h rfl
    have hread : cancelOfPayload payload = some r := by
      unfold cancelOfPayload
      rw [hfields,textField_same h rfl,textField_same h rfl]
      exact CancelRequest.make_self r
    simp [read,op,hread]

/-! Results. -/

/-- What a method of the service returns; `other` is an object of another class. -/
inductive ServiceResult
  | health (snapshot : HealthSnapshot)
  | receipt (receipt : CommandReceipt)
  | snapshot (snapshot : CommandSnapshot)
  | other
  deriving DecidableEq

def receiptJson (r : CommandReceipt) : Json.Object :=
  [("command_id",.str r.commandId), ("run_id",.str r.runId), ("accept_seq",.int r.acceptSeq),
    ("state",.str (commandState.value r.state)), ("version",.int r.version), ("kind",.str (commandKind.value r.kind))]

/-- A text, or `None`. -/
def optionalText (s : Option String) : Json := s.elim .null .str

theorem optionalText_distinct (s : Option String) : distinctNames (optionalText s) := by cases s <;> rfl

theorem optionalText_integral (s : Option String) : JsonText.integral (optionalText s) := by cases s <;> rfl

def snapshotJson (s : CommandSnapshot) : Json.Object :=
  [("receipt",.obj (receiptJson s.receipt)), ("output_state",.str (outputState.value s.outputState)),
    ("output_text",optionalText s.outputText), ("error_code",optionalText s.errorCode),
    ("run_state",optionalText (s.runState.map runState.value)), ("outcome",.str (commandOutcome.value s.outcome))]

/-- `_result_json`. -/
def resultJson : ServiceResult → Except Failure Json.Object
  | .health h => .ok [("serving",.bool h.serving), ("detail",.str h.detail)]
  | .receipt r => .ok (receiptJson r)
  | .snapshot s => .ok (snapshotJson s)
  | .other => .error (.service .internal)

/-- The conversions `str` and `int` of parsed values, on texts and on integers. -/
structure Builtins where
  str : Json → String
  int : Json → Option ℤ
  str_text : ∀ s, str (.str s) = s
  int_integer : ∀ n, int (.int n) = some n

/-- `bool(value)`. -/
def truth : Json → Bool
  | .null => false
  | .bool b => b
  | .int n => n ≠ 0
  | .float q => q ≠ 0
  | .nonfinite _ => true
  | .str s => s ≠ ""
  | .arr items => !items.isEmpty
  | .obj members => !members.isEmpty

/-- `_receipt`. A missing member or a value that the constructors refuse is an exception. -/
def readReceipt (b : Builtins) (value : Json.Object) : Option CommandReceipt := do
  return {
    commandId := b.str (← Json.field value "command_id")
    runId := b.str (← Json.field value "run_id")
    acceptSeq := ← b.int (← Json.field value "accept_seq")
    state := ← commandState.ofValue (b.str (← Json.field value "state"))
    version := ← b.int (← Json.field value "version")
    kind := ← commandKind.ofValue (b.str (← Json.field value "kind")) }

def readHealth (b : Builtins) (value : Json.Object) : Option HealthSnapshot := do
  return { serving := truth (← Json.field value "serving"), detail := b.str (← Json.field value "detail") }

/-- `value.get(name)` where only a text or `None` fits the field. -/
def readOptionalText (value : Json.Object) (name : String) : Option (Option String) :=
  match Json.field value name with
  | none | some .null => some none
  | some (.str s) => some (some s)
  | some _ => none

def readRunState (b : Builtins) (value : Json.Object) : Option (Option RunState) :=
  match Json.field value "run_state" with
  | none | some .null => some none
  | some raw => (runState.ofValue (b.str raw)).map some

/-- `value.get(name) is not None`. -/
def given (value : Json.Object) (name : String) : Bool :=
  match Json.field value name with
  | none | some .null => false
  | some _ => true

/-- The snapshot that `get` of the client makes of a receipt and the other members. `CommandSnapshot` does not look at the
types of its texts, and with another one it is not what it is declared to be. -/
def readSnapshot (b : Builtins) (receipt value : Json.Object) : Option ServiceResult := do
  let receipt ← readReceipt b receipt
  let outputState ← outputState.ofValue (← Json.asString (Json.field value "output_state"))
  let runState ← readRunState b value
  let outcome ← commandOutcome.ofValue (b.str (← Json.field value "outcome"))
  match readOptionalText value "output_text", readOptionalText value "error_code" with
  | some outputText, some errorCode =>
    if h : outputText.isSome = decide (outputState = .present) then
      some (.snapshot { receipt, outputState, outputText, errorCode, runState, outcome, texts := h })
    else none
  | _, _ => if given value "output_text" = decide (outputState = .present) then some .other else none

theorem resultJson_distinct {result : ServiceResult} {value : Json.Object} (h : resultJson result = .ok value) :
    distinctNames (.obj value) := by
  cases result with
  | other => exact nomatch h
  | health | receipt =>
    obtain rfl := Except.ok.inj h
    simp [distinctNames,distinctMembers,receiptJson]
  | snapshot s =>
    obtain rfl := Except.ok.inj h
    simp [distinctNames,distinctMembers,snapshotJson,receiptJson,optionalText_distinct]

theorem resultJson_integral {result : ServiceResult} {value : Json.Object} (h : resultJson result = .ok value) :
    JsonText.integral (.obj value) := by
  cases result with
  | other => exact nomatch h
  | health | receipt =>
    obtain rfl := Except.ok.inj h
    simp [JsonText.integral,JsonText.integralMembers,receiptJson]
  | snapshot s =>
    obtain rfl := Except.ok.inj h
    simp [JsonText.integral,JsonText.integralMembers,snapshotJson,receiptJson,optionalText_integral]

/-- What the client makes of the result of a call. A receipt that is no object is refused with a `ServiceError`; all else
that does not fit is a `KeyError`, a `ValueError` or a `TypeError`. -/
def ServiceCall.readResult (b : Builtins) (call : ServiceCall) (value : Json.Object) : Except Failure ServiceResult :=
  let made (result : Option ServiceResult) : Except Failure ServiceResult := result.elim (.error .other) .ok
  match call with
  | .health => made ((readHealth b value).map .health)
  | .get _ =>
    match Json.field value "receipt" with
    | none => .error .other
    | some receipt =>
      match Json.asObject receipt with
      | none => .error (.service .invalidRequest)
      | some receipt => made (readSnapshot b receipt value)
  | _ => made ((readReceipt b value).map .receipt)

/-- The result is of the class that the method returns. -/
def ServiceCall.Returns : ServiceCall → ServiceResult → Prop
  | .health, .health _ | .get _, .snapshot _ => True
  | .start _, .receipt _ | .continue_ _, .receipt _ | .cancel _, .receipt _ => True
  | _, _ => False

section Results

variable (b : Builtins) {v w : Json.Object}

theorem readReceipt_same (r : CommandReceipt) (h : SameFields (receiptJson r) w) : readReceipt b w = some r := by
  unfold readReceipt
  rw [h.str (k := "command_id") rfl,h.str (k := "run_id") rfl,h.int (k := "accept_seq") rfl,h.str (k := "state") rfl,
    h.int (k := "version") rfl,h.str (k := "kind") rfl]
  simp [b.str_text,b.int_integer,commandState.ofValue_value,commandKind.ofValue_value]

theorem readHealth_same (s : HealthSnapshot) (h : SameFields [("serving",.bool s.serving), ("detail",.str s.detail)] w) :
    readHealth b w = some s := by
  unfold readHealth
  rw [h.bool (k := "serving") rfl,h.str (k := "detail") rfl]
  simp [b.str_text,truth]

theorem readOptionalText_same (name : String) {s : Option String} (h : SameFields v w)
    (hv : Json.field v name = some (optionalText s)) : readOptionalText w name = some s := by
  unfold readOptionalText
  cases s with
  | none => rw [h.null hv]
  | some s => rw [h.str hv]

theorem readSnapshot_same (s : CommandSnapshot) (h : SameFields (snapshotJson s) w) :
    ∃ receipt, Json.field w "receipt" = some (.obj receipt) ∧ readSnapshot b receipt w = some (.snapshot s) := by
  obtain ⟨receipt,hreceipt,hsame⟩ := h.obj (k := "receipt") rfl (by simp [distinctNames,distinctMembers,receiptJson])
  have hrun : readRunState b w = some s.runState := by
    unfold readRunState
    cases hs : s.runState with
    | none => rw [h.null (k := "run_state") (by simp [snapshotJson,Json.field,hs,optionalText])]
    | some state =>
      rw [h.str (k := "run_state") (s := runState.value state) (by simp [snapshotJson,Json.field,hs,optionalText])]
      simp [b.str_text,runState.ofValue_value]
  refine ⟨receipt,hreceipt,?_⟩
  unfold readSnapshot
  rw [h.str (k := "output_state") rfl,readOptionalText_same "output_text" h rfl,
    readOptionalText_same "error_code" h rfl,hrun,h.str (k := "outcome") rfl]
  simp [Json.asString,readReceipt_same b s.receipt hsame,outputState.ofValue_value,b.str_text,
    commandOutcome.ofValue_value,s.texts]

/-- A result is read as what it was. -/
theorem ServiceCall.readResult_json {call : ServiceCall} {result : ServiceResult} (hreturns : call.Returns result)
    (hjson : resultJson result = .ok v) (h : SameFields v w) : call.readResult b w = .ok result := by
  cases result with
  | other => exact nomatch hjson
  | health s =>
    obtain rfl := Except.ok.inj hjson
    cases call with
    | health => simp [readResult,readHealth_same b s h]
    | start _ | continue_ _ | get _ | cancel _ => exact hreturns.elim
  | receipt r =>
    obtain rfl := Except.ok.inj hjson
    cases call with
    | start _ | continue_ _ | cancel _ => simp [readResult,readReceipt_same b r h]
    | health | get _ => exact hreturns.elim
  | snapshot s =>
    obtain rfl := Except.ok.inj hjson
    cases call with
    | get _ =>
      obtain ⟨receipt,hreceipt,hread⟩ := readSnapshot_same b s h
      simp [readResult,hreceipt,Json.asObject,hread]
    | health | start _ | continue_ _ | cancel _ => exact hreturns.elim

end Results

end UnixService
end HarnessSdk
