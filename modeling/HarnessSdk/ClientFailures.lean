import HarnessSdk.FrameDecoder
import HarnessSdk.ControlGrammar

/-!
# What a call of the client ends with

After the connection has been made the peer may send anything. A call is to end with a value of its class or with a
`ServiceError`; the streams with which it does are those that have the form given here.
-/

namespace HarnessSdk
namespace UnixService

open Chat (CommandState CommandKind OutputState RunState CommandOutcome)
open Transition (Steps)

variable {lib : Library} {b : Builtins} {call : ServiceCall} {requestId : String} {bytes rest : Bytes} {eof : Bool}
variable {value : Json.Object} {outcome : Except Failure ServiceResult} {f : Failure}

/-- A call ends with a value of its class or with a `ServiceError`. -/
def ServiceCall.Settles (call : ServiceCall) (outcome : Except Failure ServiceResult) : Prop :=
  (∃ result, outcome = .ok result ∧ call.Returns result) ∨ ∃ code, outcome = .error (.service code)

/-! The form of objects. -/

/-- The member is there, and its value fits. -/
def Has (value : Json.Object) (name : String) (P : Json → Prop) : Prop := ∃ v, Json.field value name = some v ∧ P v

/-- The member is left out, `null`, or its value fits. -/
def MayHave (value : Json.Object) (name : String) (P : Json → Prop) : Prop :=
  ∀ v, Json.field value name = some v → v = .null ∨ P v

/-- The text of a value is one of an enumeration. -/
def Names {α : Type} (b : Builtins) (e : StrEnum α) (v : Json) : Prop := ∃ a, b.str v = e.value a

def isText (v : Json) : Prop := ∃ s, v = .str s

structure ReceiptForm (b : Builtins) (value : Json.Object) : Prop where
  commandId : Has value "command_id" fun _ => True
  runId : Has value "run_id" fun _ => True
  acceptSeq : Has value "accept_seq" fun v => (b.int v).isSome
  state : Has value "state" (Names b commandState)
  version : Has value "version" fun v => (b.int v).isSome
  kind : Has value "kind" (Names b commandKind)

/-- The members of a snapshot beside its receipt. An output text is there exactly when the state says so. -/
structure SnapshotForm (b : Builtins) (value : Json.Object) : Prop where
  outputState : Has value "output_state" fun v => ∃ state, v = .str (outputState.value state) ∧
    given value "output_text" = decide (state = .present)
  outputText : MayHave value "output_text" isText
  errorCode : MayHave value "error_code" isText
  runState : MayHave value "run_state" (Names b runState)
  outcome : Has value "outcome" (Names b commandOutcome)

/-- The form of the result of a call. A receipt that is no object is refused with a `ServiceError`. -/
def ResultForm (b : Builtins) (call : ServiceCall) (value : Json.Object) : Prop :=
  match call with
  | .health => Has value "serving" (fun _ => True) ∧ Has value "detail" fun _ => True
  | .get _ => Has value "receipt" fun v => ∀ receipt, v = .obj receipt → ReceiptForm b receipt ∧ SnapshotForm b value
  | _ => ReceiptForm b value

/-- The form of a response: an error is one of the codes, and a result that is taken has the form of its call. -/
structure ResponseForm (b : Builtins) (call : ServiceCall) (requestId : String) (response : Json.Object) : Prop where
  error : Json.field response "ok" ≠ some (.bool true) → ∀ raw, Json.field response "error" = some (.str raw) →
    ∃ code, raw = serviceErrorCode.value code
  result : Json.field response "ok" = some (.bool true) → Json.field response "request_id" = some (.str requestId) →
    ∀ value, Json.field response "result" = some (.obj value) → ResultForm b call value

/-! The form of a stream. -/

/-- The stream begins with the frame of an object. -/
def FrameAt (lib : Library) (bytes : Bytes) (object : Json.Object) (rest : Bytes) : Prop :=
  ∃ payload, bytes = framed payload ++ rest ∧ payload.length ≤ frameMaxBytes ∧ lib.loads payload = .ok (.obj object)

/-- A stream does not end before a frame that it begins, and the text of the frame does not exceed the limits of
`json.loads`. -/
structure FrameForm (lib : Library) (bytes : Bytes) (eof : Bool) : Prop where
  whole : eof → 4 ≤ bytes.length ∧ (Local.beNat (bytes.take 4) ≤ frameMaxBytes →
    4 + Local.beNat (bytes.take 4) ≤ bytes.length)
  decodes : ∀ payload rest, bytes = framed payload ++ rest → payload.length ≤ frameMaxBytes →
    lib.loads payload ≠ .error .value ∧ lib.loads payload ≠ .error .other

/-- The client answers the greeting with its request. -/
structure Greets (lib : Library) (call : ServiceCall) (requestId : String) (hello : Json.Object) : Prop where
  type : Json.field hello "type" = some (.str "hello")
  request : ∃ capability request, Json.field hello "capability" = some (.str capability) ∧
    encodeFrame lib (call.frame requestId capability) = .ok request

/-- The greeting and the response have their form, the latter if the client waits for it. -/
structure StreamForm (lib : Library) (b : Builtins) (call : ServiceCall) (requestId : String) (bytes : Bytes) (eof : Bool) :
    Prop where
  greeting : FrameForm lib bytes eof
  response : ∀ hello rest, FrameAt lib bytes hello rest → Greets lib call requestId hello → FrameForm lib rest eof
  answer : ∀ hello rest response rest', FrameAt lib bytes hello rest → Greets lib call requestId hello →
    FrameAt lib rest response rest' → ResponseForm b call requestId response

/-! Results. -/

theorem readReceipt_isSome : (readReceipt b value).isSome ↔ ReceiptForm b value := by
  unfold readReceipt
  simp only [Option.bind_eq_bind,Option.isSome_bind,Option.any_eq_true]
  constructor
  · rintro ⟨_,hcommand,_,hrun,_,hseq,_,hint,_,hstate,state,hknown,_,hversion,_,hint',_,hkind,kind,hknown',_⟩
    exact ⟨⟨_,hcommand,trivial⟩,⟨_,hrun,trivial⟩,⟨_,hseq,Option.isSome_of_eq_some hint⟩,
      ⟨_,hstate,state,commandState.ofValue_eq_some hknown⟩,⟨_,hversion,Option.isSome_of_eq_some hint'⟩,⟨_,hkind,kind,commandKind.ofValue_eq_some hknown'⟩⟩
  · rintro ⟨⟨_,hcommand,_⟩,⟨_,hrun,_⟩,⟨_,hseq,hint⟩,⟨_,hstate,state,hknown⟩,⟨_,hversion,hint'⟩,⟨_,hkind,kind,hknown'⟩⟩
    obtain ⟨n,hn⟩ := Option.isSome_iff_exists.mp hint
    obtain ⟨m,hm⟩ := Option.isSome_iff_exists.mp hint'
    exact ⟨_,hcommand,_,hrun,_,hseq,n,hn,_,hstate,state,by rw [hknown,commandState.ofValue_value],_,hversion,m,hm,_,hkind,kind,
      by rw [hknown',commandKind.ofValue_value],rfl⟩

theorem readHealth_isSome : (readHealth b value).isSome ↔ ResultForm b .health value := by
  unfold readHealth
  simp only [Option.bind_eq_bind,Option.isSome_bind,Option.any_eq_true]
  constructor
  · rintro ⟨_,hserving,_,hdetail,_⟩
    exact ⟨⟨_,hserving,trivial⟩,⟨_,hdetail,trivial⟩⟩
  · rintro ⟨⟨_,hserving,_⟩,⟨_,hdetail,_⟩⟩
    exact ⟨_,hserving,_,hdetail,rfl⟩

theorem readOptionalText_isSome (name : String) : (readOptionalText value name).isSome ↔ MayHave value name isText := by
  unfold readOptionalText MayHave
  cases Json.field value name with
  | none => simp
  | some v => cases v <;> simp [isText]

theorem readOptionalText_given {name : String} {text : Option String} (h : readOptionalText value name = some text) :
    text.isSome = given value name := by
  unfold readOptionalText at h
  unfold given
  cases hfield : Json.field value name with
  | none =>
    rw [hfield] at h
    rw [← Option.some.inj h]
    rfl
  | some v =>
    rw [hfield] at h
    cases v with
    | null | str s =>
      rw [← Option.some.inj h]
      rfl
    | bool | int | float | nonfinite | arr | obj => exact nomatch h

theorem readRunState_isSome : (readRunState b value).isSome ↔ MayHave value "run_state" (Names b runState) := by
  have hknown : ∀ v, ((runState.ofValue (b.str v)).map some).isSome ↔ Names b runState v := by
    intro v
    rw [Option.isSome_map]
    exact runState.ofValue_isSome _
  unfold readRunState MayHave
  cases Json.field value "run_state" with
  | none => simp
  | some v => cases v <;> simp [-Option.isSome_map,hknown]

/-- A snapshot of its class is made of a receipt and members that have their form, and of no others. -/
theorem readSnapshot_snapshot {receipt : Json.Object} :
    (∃ snapshot, readSnapshot b receipt value = some (.snapshot snapshot)) ↔ ReceiptForm b receipt ∧ SnapshotForm b value := by
  rw [← readReceipt_isSome]
  constructor
  · rintro ⟨snapshot,h⟩
    unfold readSnapshot at h
    simp only [Option.bind_eq_bind,Option.bind_eq_some_iff] at h
    obtain ⟨r,hreceipt,raw,hraw,state,hstate,run,hrun,v,houtcome,o,ho,h⟩ := h
    refine ⟨Option.isSome_of_eq_some hreceipt,?_⟩
    cases htext : readOptionalText value "output_text" with
    | none =>
      rw [htext] at h
      dsimp only at h
      split at h <;> cases h
    | some text =>
      cases hcode : readOptionalText value "error_code" with
      | none =>
        rw [htext,hcode] at h
        dsimp only at h
        split at h <;> cases h
      | some errorCode =>
        rw [htext,hcode] at h
        dsimp only at h
        split at h
        next hpresent =>
          rw [readOptionalText_given htext] at hpresent
          exact {
            outputState := ⟨_,Json.asString_eq_some.mp hraw,state,by rw [outputState.ofValue_eq_some hstate],hpresent⟩
            outputText := (readOptionalText_isSome _).mp (Option.isSome_of_eq_some htext)
            errorCode := (readOptionalText_isSome _).mp (Option.isSome_of_eq_some hcode)
            runState := readRunState_isSome.mp (Option.isSome_of_eq_some hrun)
            outcome := ⟨v,houtcome,o,commandOutcome.ofValue_eq_some ho⟩ }
        next => cases h
  · rintro ⟨hreceipt,⟨⟨raw,hraw,state,rfl,hpresent⟩,htext,hcode,hrun,⟨v,houtcome,o,ho⟩⟩⟩
    obtain ⟨r,hr⟩ := Option.isSome_iff_exists.mp hreceipt
    obtain ⟨text,ht⟩ := Option.isSome_iff_exists.mp ((readOptionalText_isSome _).mpr htext)
    obtain ⟨errorCode,hc⟩ := Option.isSome_iff_exists.mp ((readOptionalText_isSome _).mpr hcode)
    obtain ⟨run,hrs⟩ := Option.isSome_iff_exists.mp (readRunState_isSome.mpr hrun)
    have hknown : commandOutcome.ofValue (b.str v) = some o := by rw [ho,commandOutcome.ofValue_value]
    rw [← readOptionalText_given ht] at hpresent
    unfold readSnapshot
    rw [hr,hraw,ht,hc,hrs,houtcome]
    simp [Json.asString,outputState.ofValue_value,hknown,hpresent]

/-- A result that is made, or an exception that is no `ServiceError`. -/
theorem settles_made {made : Option ServiceResult} :
    call.Settles (made.elim (.error .other) .ok) ↔ ∃ result, made = some result ∧ call.Returns result := by
  cases made with
  | none =>
    constructor
    · rintro (⟨_,h,_⟩ | ⟨_,h⟩) <;> exact nomatch h
    · rintro ⟨_,h,_⟩
      exact nomatch h
  | some result =>
    constructor
    · rintro (⟨_,h,hreturns⟩ | ⟨_,h⟩)
      · obtain rfl := Except.ok.inj h
        exact ⟨result,rfl,hreturns⟩
      · exact nomatch h
    · rintro ⟨_,h,hreturns⟩
      obtain rfl := Option.some.inj h
      exact .inl ⟨result,rfl,hreturns⟩

/-- Whatever is made of an option is of the class. -/
theorem made_returns {α : Type} {made : Option α} {make : α → ServiceResult} (h : ∀ a, call.Returns (make a)) :
    (∃ result, made.map make = some result ∧ call.Returns result) ↔ made.isSome := by
  cases made with
  | none => simp
  | some a => simp [h a]

theorem readResult_settles : call.Settles (call.readResult b value) ↔ ResultForm b call value := by
  cases call with
  | health =>
    unfold ServiceCall.readResult
    rw [settles_made,made_returns fun _ => by trivial,readHealth_isSome]
  | start _ | continue_ _ | cancel _ =>
    unfold ServiceCall.readResult
    rw [settles_made,made_returns fun _ => by trivial,readReceipt_isSome]
    rfl
  | get r =>
    unfold ServiceCall.readResult ResultForm Has
    dsimp only
    cases Json.field value "receipt" with
    | none =>
      constructor
      · rintro (⟨_,h,_⟩ | ⟨_,h⟩) <;> exact nomatch h
      · rintro ⟨_,h,_⟩
        exact nomatch h
    | some v =>
      dsimp only
      cases hobject : Json.asObject (some v) with
      | none =>
        constructor
        · intro _
          refine ⟨v,rfl,?_⟩
          rintro receipt rfl
          exact nomatch hobject
        · intro _
          exact .inr ⟨_,rfl⟩
      | some receipt =>
        obtain rfl := Option.some.inj (Json.asObject_eq_some.mp hobject)
        dsimp only
        rw [settles_made]
        have hclass : (∃ result, readSnapshot b receipt value = some result ∧ (ServiceCall.get r).Returns result) ↔
            ∃ snapshot, readSnapshot b receipt value = some (.snapshot snapshot) := by
          constructor
          · rintro ⟨result,hread,hreturns⟩
            cases result with
            | snapshot s => exact ⟨s,hread⟩
            | health | receipt | other => exact hreturns.elim
          · rintro ⟨s,hread⟩
            exact ⟨_,hread,trivial⟩
        rw [hclass,readSnapshot_snapshot]
        constructor
        · intro h
          refine ⟨_,rfl,?_⟩
          rintro receipt' hreceipt
          obtain rfl := Json.obj.inj hreceipt
          exact h
        · rintro ⟨_,hv,h⟩
          exact h receipt (Option.some.inj hv).symm

section Responses

variable {k : Rpc} {response : Json.Object}

theorem settles_service (code : ServiceErrorCode) : call.Settles (.error (.service code)) := .inr ⟨code,rfl⟩

theorem error_settles (hok : Json.field response "ok" ≠ some (.bool true)) : k.call.Settles (k.outcome b response) ↔
    ∀ raw, Json.field response "error" = some (.str raw) → ∃ code, raw = serviceErrorCode.value code := by
  have hnot : Json.asBool (Json.field response "ok") ≠ some true := fun h => hok (Json.asBool_eq_some.mp h)
  unfold Rpc.outcome
  rw [if_pos hnot]
  cases hraw : Json.asString (Json.field response "error") with
  | none =>
    refine iff_of_true (settles_service _) fun raw hfield => ?_
    rw [hfield] at hraw
    exact nomatch hraw
  | some raw =>
    have hfield := Json.asString_eq_some.mp hraw
    have hknown := serviceErrorCode.ofValue_isSome raw
    dsimp only
    constructor
    · intro h raw' hfield'
      obtain rfl := Json.str.inj (Option.some.inj (hfield.symm.trans hfield'))
      apply hknown.mp
      cases hcode : serviceErrorCode.ofValue raw with
      | some code => rfl
      | none =>
        rw [hcode] at h
        rcases h with ⟨_,h,_⟩ | ⟨_,h⟩ <;> exact nomatch h
    · intro h
      obtain ⟨code,hcode⟩ := Option.isSome_iff_exists.mp (hknown.mpr (h raw hfield))
      rw [hcode]
      exact settles_service code

theorem result_settles (hok : Json.field response "ok" = some (.bool true)) : k.call.Settles (k.outcome b response) ↔
    (Json.field response "request_id" = some (.str k.requestId) →
      ∀ value, Json.field response "result" = some (.obj value) → ResultForm b k.call value) := by
  have hnot : ¬ Json.asBool (Json.field response "ok") ≠ some true := not_not.mpr (Json.asBool_eq_some.mpr hok)
  unfold Rpc.outcome
  rw [if_neg hnot]
  by_cases hid : Json.field response "request_id" = some (.str k.requestId)
  · have hmatches : Json.isString (Json.field response "request_id") k.requestId := by
      unfold Json.isString
      exact decide_eq_true (Json.asString_eq_some.mpr hid)
    rw [hmatches,if_neg (by decide)]
    cases hresult : Json.asObject (Json.field response "result") with
    | none =>
      refine iff_of_true (settles_service _) fun _ value hvalue => ?_
      rw [hvalue] at hresult
      exact nomatch hresult
    | some value =>
      have hfield := Json.asObject_eq_some.mp hresult
      dsimp only
      rw [readResult_settles]
      constructor
      · intro h _ value' hvalue
        obtain rfl := Json.obj.inj (Option.some.inj (hfield.symm.trans hvalue))
        exact h
      · intro h
        exact h hid value hfield
  · have hother : Json.isString (Json.field response "request_id") k.requestId = false := by
      unfold Json.isString
      exact decide_eq_false fun h => hid (Json.asString_eq_some.mp h)
    rw [hother,if_pos (by decide)]
    exact iff_of_true (settles_service _) fun h => absurd h hid

/-- A call that gets a response settles if and only if the response has its form. -/
theorem outcome_settles : k.call.Settles (k.outcome b response) ↔ ResponseForm b k.call k.requestId response := by
  by_cases hok : Json.field response "ok" = some (.bool true)
  · rw [result_settles hok]
    exact ⟨fun h => ⟨fun hnot => absurd hok hnot,fun _ => h⟩,fun h => h.result hok⟩
  · rw [error_settles hok]
    exact ⟨fun h => ⟨fun _ => h,fun heq => absurd heq hok⟩,fun h => h.error hok⟩

end Responses

/-! Frames. -/

theorem decodePayload_ok {payload : Bytes} (hsize : payload.length ≤ frameMaxBytes) {object : Json.Object} :
    decodePayload lib payload = .ok object ↔ lib.loads payload = .ok (.obj object) := by
  unfold decodePayload
  rw [if_neg (not_lt.mpr hsize)]
  cases lib.loads payload with
  | error e => cases e <;> simp
  | ok v => cases v <;> simp

/-- What a stream without a whole frame is read to. -/
theorem readFrame_waits (h : readFrame lib bytes false = none) {outcome : Except Failure Json.Object}
    (hread : readFrame lib bytes eof = some (outcome,rest)) : eof = true ∧ outcome = .error .connection := by
  cases eof with
  | false => exact nomatch h.symm.trans hread
  | true =>
    have hended := (readFrame_ended h).symm.trans hread
    exact ⟨rfl,((Prod.mk.inj (Option.some.inj hended)).1).symm⟩

theorem readFrame_none : readFrame lib bytes false = none ↔ ¬ (4 ≤ bytes.length ∧
    (Local.beNat (bytes.take 4) ≤ frameMaxBytes → 4 + Local.beNat (bytes.take 4) ≤ bytes.length)) := by
  unfold readFrame
  dsimp only
  by_cases hheader : bytes.length < 4
  · rw [if_pos hheader]
    exact iff_of_true rfl fun h => absurd h.1 (not_le.mpr hheader)
  rw [if_neg hheader]
  by_cases hsize : frameMaxBytes < Local.beNat (bytes.take 4)
  · rw [if_pos hsize]
    exact iff_of_false nofun fun h => h ⟨not_lt.mp hheader,fun hle => absurd hsize (not_lt.mpr hle)⟩
  rw [if_neg hsize]
  by_cases hshort : bytes.length < 4 + Local.beNat (bytes.take 4)
  · rw [if_pos hshort]
    exact iff_of_true rfl fun h => absurd (h.2 (not_lt.mp hsize)) (not_le.mpr hshort)
  · rw [if_neg hshort]
    exact iff_of_false nofun fun h => h ⟨not_lt.mp hheader,fun _ => not_lt.mp hshort⟩

/-- An object is read exactly from a frame that is there. -/
theorem readFrame_ok {object : Json.Object} : readFrame lib bytes eof = some (.ok object,rest) ↔ FrameAt lib bytes object rest := by
  constructor
  · intro h
    rcases readFrame_cases lib bytes with hnone | ⟨hlength,hsize,_⟩ | ⟨payload,tail,rfl,hsize,_⟩
    · exact nomatch (readFrame_waits hnone h).2
    · rw [readFrame_oversize hlength hsize] at h
      exact nomatch (Prod.mk.inj (Option.some.inj h)).1
    · rw [readFrame_whole hsize] at h
      obtain ⟨hdecode,rfl⟩ := Prod.mk.inj (Option.some.inj h)
      exact ⟨payload,rfl,hsize,(decodePayload_ok hsize).mp hdecode⟩
  · rintro ⟨payload,rfl,hsize,hloads⟩
    rw [readFrame_whole hsize,(decodePayload_ok hsize).mpr hloads]

/-- What `decode_payload` raises. -/
theorem decodePayload_service {payload : Bytes} (hsize : payload.length ≤ frameMaxBytes) :
    (lib.loads payload ≠ .error .value ∧ lib.loads payload ≠ .error .other) ↔
      ∀ f, decodePayload lib payload = .error f → ∃ code, f = .service code := by
  unfold decodePayload
  rw [if_neg (not_lt.mpr hsize)]
  cases lib.loads payload with
  | error e => cases e <;> simp
  | ok v => cases v <;> simp

/-- What is not read is refused with a `ServiceError` exactly if it has the form of a frame. -/
theorem readFrame_error : FrameForm lib bytes eof ↔
    ∀ f rest, readFrame lib bytes eof = some (.error f,rest) → ∃ code, f = .service code := by
  constructor
  · intro hform f rest h
    rcases readFrame_cases lib bytes with hnone | ⟨hlength,hsize,_⟩ | ⟨payload,tail,rfl,hsize,_⟩
    · have heof := (readFrame_waits hnone h).1
      exact absurd (hform.whole heof) (readFrame_none.mp hnone)
    · rw [readFrame_oversize hlength hsize] at h
      obtain ⟨hf,_⟩ := Prod.mk.inj (Option.some.inj h)
      exact ⟨_,(Except.error.inj hf).symm⟩
    · rw [readFrame_whole hsize] at h
      obtain ⟨hdecode,_⟩ := Prod.mk.inj (Option.some.inj h)
      exact (decodePayload_service hsize).mp (hform.decodes payload tail rfl hsize) f hdecode
  · intro h
    constructor
    · intro heof
      by_contra hwhole
      have hended : readFrame lib bytes true = _ := readFrame_ended (readFrame_none.mpr hwhole)
      rw [← heof] at hended
      obtain ⟨code,hcode⟩ := h _ _ hended
      exact nomatch hcode
    · rintro payload rest rfl hsize
      apply (decodePayload_service hsize).mpr
      intro f hdecode
      exact h f rest (by rw [readFrame_whole hsize,hdecode])

theorem FrameAt.append {object : Json.Object} (h : FrameAt lib bytes object rest) (more : Bytes) :
    FrameAt lib (bytes ++ more) object (rest ++ more) := by
  obtain ⟨payload,rfl,hsize,hloads⟩ := h
  exact ⟨payload,List.append_assoc _ _ _,hsize,hloads⟩

namespace Rpc

variable {k k' : Rpc}

/-- A call that has its connection. -/
def connected (call : ServiceCall) (requestId : String) : Rpc := { call, requestId }

/-- Waiting fails with a `TimeoutError` or another `OSError`, if it fails. -/
def FromPeer (_ : Rpc) : Action → Prop
  | .fault f => f ≠ .other
  | _ => True

/-- What leaves the method when the connection has been closed, which may fail in its turn. -/
def leave (closing : Option Fault) (outcome : Except Failure ServiceResult) : Except Failure ServiceResult :=
  closing.elim outcome fun f => .error f.failure

/-- The client makes this of the stream: a frame that is refused, or the outcome of the response. -/
def Answers (lib : Library) (b : Builtins) (call : ServiceCall) (requestId : String) (bytes : Bytes) (eof : Bool)
    (outcome : Except Failure ServiceResult) : Prop :=
  (∃ f rest, readFrame lib bytes eof = some (.error f,rest) ∧ outcome = .error f) ∨
    ∃ hello rest, FrameAt lib bytes hello rest ∧ Greets lib call requestId hello ∧
      ((∃ f rest', readFrame lib rest eof = some (.error f,rest') ∧ outcome = .error f) ∨
        ∃ response rest', FrameAt lib rest response rest' ∧ outcome = (connected call requestId).outcome b response)

/-- More bytes and the end of the stream do not change what has been made of it. -/
theorem Answers.more (h : Answers lib b call requestId bytes false outcome) (more : Bytes) (eof : Bool) :
    Answers lib b call requestId (bytes ++ more) eof outcome := by
  rcases h with ⟨f,rest,hread,rfl⟩ | ⟨hello,rest,hhello,hgreets,h⟩
  · exact .inl ⟨f,_,readFrame_append hread more eof,rfl⟩
  · refine .inr ⟨hello,_,hhello.append more,hgreets,?_⟩
    rcases h with ⟨f,rest',hread,rfl⟩ | ⟨response,rest',hresponse,rfl⟩
    · exact .inl ⟨f,_,readFrame_append hread more eof,rfl⟩
    · exact .inr ⟨response,_,hresponse.append more,rfl⟩

/-- Of a stream that has its form the client makes a value or a `ServiceError`. -/
theorem Answers.settles (h : Answers lib b call requestId bytes eof outcome)
    (hform : StreamForm lib b call requestId bytes eof) : call.Settles outcome := by
  rcases h with ⟨f,rest,hread,rfl⟩ | ⟨hello,rest,hhello,hgreets,h⟩
  · obtain ⟨code,rfl⟩ := readFrame_error.mp hform.greeting f rest hread
    exact settles_service code
  · rcases h with ⟨f,rest',hread,rfl⟩ | ⟨response,rest',hresponse,rfl⟩
    · obtain ⟨code,rfl⟩ := readFrame_error.mp (hform.response hello rest hhello hgreets) f rest' hread
      exact settles_service code
    · exact outcome_settles.mpr (hform.answer hello rest response rest' hhello hgreets hresponse)

/-- All of the stream has come. -/
def heard (call : ServiceCall) (requestId : String) (bytes : Bytes) (eof : Bool) : Rpc :=
  { call, requestId, received := bytes, buffer := bytes, eof }

theorem heard_run : Steps (Rpc.step lib b) FromPeer (connected call requestId) (heard call requestId bytes eof) := by
  have harrived : Steps (Rpc.step lib b) FromPeer (connected call requestId) (heard call requestId bytes false) :=
    Steps.single (a := .arrive bytes) trivial rfl
  cases eof with
  | false => exact harrived
  | true => exact harrived.tail (a := .finish) trivial rfl

/-- The client has read a greeting, has sent its request and waits for the response. -/
def asked (call : ServiceCall) (requestId : String) (bytes : Bytes) (eof : Bool) (rest output : Bytes) : Rpc :=
  { call, requestId, point := .response, received := bytes, buffer := rest, eof, output }

theorem asked_run {hello : Json.Object} (hhello : FrameAt lib bytes hello rest) (hgreets : Greets lib call requestId hello)
    (eof : Bool) : ∃ output, Steps (Rpc.step lib b) FromPeer (connected call requestId)
      (asked call requestId bytes eof rest output) := by
  obtain ⟨capability,request,hcapability,hrequest⟩ := hgreets.request
  have hgreeted : greeted lib hello { heard call requestId bytes eof with buffer := rest } =
      { heard call requestId bytes eof with buffer := rest, output := request, point := .sending } := by
    unfold greeted
    rw [hcapability,hgreets.type]
    dsimp only [Json.asString,heard]
    rw [hrequest]
    rfl
  have hread : (heard call requestId bytes eof).step lib b .read =
      some { heard call requestId bytes eof with buffer := rest, output := request, point := .sending } := by
    dsimp only [step,Rpc.read,heard]
    rw [readFrame_ok.mpr hhello]
    exact congrArg some hgreeted
  have hsent : Steps (Rpc.step lib b) FromPeer (connected call requestId)
      { heard call requestId bytes eof with buffer := rest, output := request, point := .sending } :=
    heard_run.tail (a := .read) trivial hread
  exact ⟨request,hsent.tail (a := .drained) trivial rfl⟩

/-- What the client makes of a stream comes in some run. -/
theorem Answers.run (h : Answers lib b call requestId bytes eof outcome) :
    ∃ k, Steps (Rpc.step lib b) FromPeer (connected call requestId) k ∧ k.received = bytes ∧ k.eof = eof ∧
      k.point = .finished outcome := by
  rcases h with ⟨f,rest,hread,rfl⟩ | ⟨hello,rest,hhello,hgreets,h⟩
  · have hstep : (heard call requestId bytes eof).step lib b .read =
        some { heard call requestId bytes eof with buffer := rest, point := .finished (.error f) } := by
      dsimp only [step,Rpc.read,heard]
      rw [hread]
      rfl
    exact ⟨_,heard_run.tail (a := .read) trivial hstep,rfl,rfl,rfl⟩
  · obtain ⟨output,hasked⟩ := asked_run (b := b) hhello hgreets eof
    rcases h with ⟨f,rest',hread,rfl⟩ | ⟨response,rest',hresponse,rfl⟩
    · have hstep : (asked call requestId bytes eof rest output).step lib b .read =
          some { asked call requestId bytes eof rest' output with point := .finished (.error f) } := by
        dsimp only [step,Rpc.read,asked]
        rw [hread]
        rfl
      exact ⟨_,hasked.tail (a := .read) trivial hstep,rfl,rfl,rfl⟩
    · have hstep : (asked call requestId bytes eof rest output).step lib b .read =
          some { asked call requestId bytes eof rest' output with
            point := .finished ((connected call requestId).outcome b response) } := by
        dsimp only [step,Rpc.read,asked]
        rw [readFrame_ok.mpr hresponse]
        rfl
      exact ⟨_,hasked.tail (a := .read) trivial hstep,rfl,rfl,rfl⟩

end Rpc

end UnixService
end HarnessSdk
