import HarnessSdk.Contracts
import Mathlib.Data.List.Sort

/-!
# The Relay control plane

Runtime control frames are decoded against a closed grammar; everything whose type
does not start with `tokenseller.` belongs to the provider.
-/

namespace HarnessSdk

def protocolError {α : Type*} (message : String) : Except Exn α :=
  .error (.realtime { code := .protocolError, message })

/-- `strict_json_object`: no repeated keys, no non-finite constants, and an object. -/
def strictJsonObject (payload : Payload) : Except Exn Json.Object :=
  match payload.loads with
  | .error .notJson => protocolError "invalid JSON"
  | .error .tooDeep => .error .exception
  | .ok value =>
    match value.strict, value with
    | .error .constant, _ => protocolError "invalid JSON"
    | .error .duplicateKey, _ => protocolError "duplicate JSON key"
    | .ok (), .obj members => .ok members
    | .ok (), _ => protocolError "event must be an object"

namespace RelayControl

def messageClasses : List String :=
  ["capability_digest_mismatch", "version_mismatch", "invalid_open", "auth_failed", "forbidden",
    "capacity_busy", "rate_limited", "upstream_unavailable", "upstream_protocol_error",
    "session_expired", "billing_rejected", "internal_error"]

def activeResponses : List String := ["none", "completed", "cancelled"]

def settlements : List String := ["none", "settled", "released", "deferred"]

/-- Every error code but `cancelled`, which is local to the SDK. -/
def controlErrorCodes : List String :=
  ["invalid_request", "unauthenticated", "forbidden", "unsupported", "busy", "rate_limited",
    "unavailable", "timeout", "protocol_error", "session_expired", "billing_rejected", "internal"]

/-- What a control frame says to the session. -/
inductive ControlEvent
  | expiring (remainingMs : ℕ)
  | closed (closed : SessionClosed)
  | failed (failed : SessionFailed)

def string (value : Option Json) (name : String) : Except Exn String :=
  match Json.asString value with
  | some s => if s = "" then protocolError (name ++ " is required") else .ok s
  | none => protocolError (name ++ " is required")

def integer (value : Option Json) (name : String) : Except Exn ℕ :=
  match Json.asInt value with
  | some n => if n < 0 then protocolError (name ++ " must be an integer") else .ok n.toNat
  | none => protocolError (name ++ " must be an integer")

def opaqueId (value : Option Json) (name : String) : Except Exn String := do
  let identifier ← string value name
  if Text.isOpaqueId identifier then .ok identifier else protocolError (name ++ " is invalid")

/-- The names of a JSON object, compared as sets. -/
def exactKeys (value : Json.Object) (required : List String) : Except Exn Unit :=
  if (Json.names value).all (· ∈ required) && required.all (· ∈ Json.names value) then .ok ()
  else protocolError "control fields do not match"

def controlFailure {α : Type*} (field reason : String) : Except Exn α :=
  .error (.realtime { code := .protocolError, message := "invalid control frame"
                      validationField := some field, validationReason := some reason })

/-- Every `RealtimeError` inside is replaced by one that names the field. -/
def controlId (value : Json.Object) (name : String) : Except Exn String :=
  match opaqueId (Json.field value name) name with
  | .ok s => .ok s
  | .error _ => controlFailure name "invalid_identity"

def optionalControlId (value : Json.Object) (name : String) : Except Exn (Option String) :=
  if Json.hasField value name then (controlId value name).map some else .ok none

def retryAfter (value : Json.Object) : Except Exn (Option ℤ) :=
  if Json.hasField value "retry_after_ms" then
    match Json.asInt (Json.field value "retry_after_ms") with
    | some n => if 0 ≤ n ∧ n ≤ 3600000 then .ok (some n) else controlFailure "retry_after_ms" "invalid_range"
    | none => controlFailure "retry_after_ms" "invalid_range"
  else .ok none

def errorRequired : List String :=
  ["code", "event_id", "fatal", "message_class", "retryable", "type"]

def decodeError (value : Json.Object) : Except Exn SessionFailed := do
  match errorRequired.find? (· ∉ Json.names value) with
  | some missing => controlFailure missing "missing_field"
  | none => pure ()
  if !(Json.names value).all (· ∈ errorRequired ++ ["related_event_id", "retry_after_ms"]) then
    controlFailure "fields" "field_set"
  let _ ← controlId value "event_id"
  let related ← optionalControlId value "related_event_id"
  let code ← (match Json.asString (Json.field value "code") with
    | some raw =>
      match RealtimeErrorCode.ofValue raw with
      | some code => if raw ∈ controlErrorCodes then .ok code else controlFailure "code" "unknown_enum"
      | none => controlFailure "code" "unknown_enum"
    | none => controlFailure "code" "unknown_enum")
  let some retryable := Json.asBool (Json.field value "retryable")
    | controlFailure "retryable" "invalid_type"
  let some fatal := Json.asBool (Json.field value "fatal") | controlFailure "fatal" "invalid_type"
  if !fatal then controlFailure "fatal" "non_terminal_error"
  let some messageClass := (Json.asString (Json.field value "message_class")).filter (· ∈ messageClasses)
    | controlFailure "message_class" "unknown_enum"
  let retryAfterMs ← retryAfter value
  return { code, retryable, controlCode := some code, messageClass := some messageClass
           relatedEventId := related, fatal := some true, retryAfterMs }

/-- Membership in a frozenset of strings: an unhashable value raises `TypeError`. -/
def memberOf (value : Option Json) (allowed : List String) (message : String) : Except Exn Unit :=
  if !Json.hashable value then .error .exception
  else
    match Json.asString value with
    | some s => if s ∈ allowed then .ok () else protocolError message
    | none => protocolError message

def closedKeys : List String :=
  ["type", "event_id", "related_event_id", "initiator", "disposition", "active_response", "settlement"]

def decodeClosed (value : Json.Object) : Except Exn SessionClosed := do
  exactKeys value closedKeys
  let _ ← opaqueId (Json.field value "event_id") "event_id"
  let related ← opaqueId (Json.field value "related_event_id") "related_event_id"
  let initiator ← string (Json.field value "initiator") "initiator"
  let some initiator := CloseInitiator.ofValue initiator | protocolError "unknown close enum"
  let disposition ← string (Json.field value "disposition") "disposition"
  let some disposition := CloseDisposition.ofValue disposition | protocolError "unknown close enum"
  memberOf (Json.field value "active_response") activeResponses "unknown active response disposition"
  memberOf (Json.field value "settlement") settlements "unknown settlement disposition"
  let activeResponse ← string (Json.field value "active_response") "active_response"
  let settlement ← string (Json.field value "settlement") "settlement"
  return { reason := if disposition = .cleanExpired then "session_expired" else "session_closed"
           initiator, disposition, activeResponse, settlement, relatedEventId := some related }

/-- `decode_runtime_event` of a strict JSON object. -/
def decodeObject (value : Json.Object) : Except Exn (Option ControlEvent) :=
  match Json.asString (Json.field value "type") with
  | none => .ok none
  | some type =>
    if !Text.startsWith type "tokenseller." then .ok none
    else if type = "tokenseller.session.expiring" then do
      exactKeys value ["type", "event_id", "remaining_ms"]
      let _ ← opaqueId (Json.field value "event_id") "event_id"
      return some (.expiring (← integer (Json.field value "remaining_ms") "remaining_ms"))
    else if type = "tokenseller.error" then return some (.failed (← decodeError value))
    else if type = "tokenseller.session.closed" then return some (.closed (← decodeClosed value))
    else protocolError "unknown control event"

def decodeRuntimeEvent (payload : Payload) : Except Exn (Option ControlEvent) := do
  decodeObject (← strictJsonObject payload)

def closeReasons : List String := ["client_hangup", "app_shutdown"]

end RelayControl

/-! The content-free view of a frame that diagnostics and failure contexts keep. -/

/-- `_SECRET_MARKER.search` on a stable word. -/
def hasSecretMarker (kind : String) : Bool :=
  ["sk-", "apikey", "api_key", "api-key", "authorization", "bearer", "cookie", "password", "token"].any
    fun marker => Text.occursIn marker.toList kind.toList

def publicControlTypes : List String :=
  ["tokenseller.error", "tokenseller.session.closed", "tokenseller.session.expiring",
    "tokenseller.session.open", "tokenseller.session.close", "tokenseller.session.created"]

def safeEventType (value : Json.Object) : String :=
  match Json.asString (Json.field value "type") with
  | some kind =>
    if Text.isStableWord kind && (!hasSecretMarker kind || decide (kind ∈ publicControlTypes)) then kind
    else "unknown_provider_event"
  | none => "unknown_provider_event"

def safeFieldNames (value : Json.Object) : List String :=
  ((Json.names value).eraseDups.filter (· ∈ safeFailureFields)).insertionSort (· ≤ ·)

/-- `_safe_event_fields` of a text frame. A document nested too deeply is a `RecursionError`. -/
def safeEventFields (payload : Payload) : Except Exn (String × List String) :=
  match payload.loads with
  | .error .tooDeep => .error .exception
  | .ok (.obj value) => .ok (safeEventType value,safeFieldNames value)
  | _ => .ok ("invalid_provider_event",[])

end HarnessSdk
