import HarnessSdk.RelayControl

/-!
# The grammar of the control frames

A check decides a property when it passes exactly the values that have it and refuses every other with a protocol
error. The decoder of the control frames decides the grammar as long as no list and no dictionary is looked up in a
set.
-/

namespace HarnessSdk

namespace Json

variable {v : Option Json}

theorem asString_eq_some {s : String} : asString v = some s ↔ v = some (.str s) := by
  constructor
  · intro h
    unfold asString at h
    split at h
    · obtain rfl := Option.some.inj h
      rfl
    · exact nomatch h
  · rintro rfl
    rfl

theorem asInt_eq_some {n : ℤ} : asInt v = some n ↔ v = some (.int n) := by
  constructor
  · intro h
    unfold asInt at h
    split at h
    · obtain rfl := Option.some.inj h
      rfl
    · exact nomatch h
  · rintro rfl
    rfl

theorem asBool_eq_some {b : Bool} : asBool v = some b ↔ v = some (.bool b) := by
  constructor
  · intro h
    unfold asBool at h
    split at h
    · obtain rfl := Option.some.inj h
      rfl
    · exact nomatch h
  · rintro rfl
    rfl

theorem asObject_eq_some {o : Object} : asObject v = some o ↔ v = some (.obj o) := by
  constructor
  · intro h
    unfold asObject at h
    split at h
    · obtain rfl := Option.some.inj h
      rfl
    · exact nomatch h
  · rintro rfl
    rfl

end Json

/-- A protocol error of the package. -/
def Exn.isProtocolError : Exn → Prop
  | .realtime e => e.code = .protocolError
  | _ => False

/-- The values that have the property come out, and everything else is a protocol error. -/
structure Decides {α : Type} (x : Except Exn α) (P : α → Prop) : Prop where
  ok : ∀ a, x = .ok a ↔ P a
  refuses : ∀ e, x = .error e → e.isProtocolError

namespace Decides

variable {α β : Type} {x : Except Exn α} {P P' : α → Prop} {a : α}

theorem pure (a : α) : Decides (.ok a) (a = ·) where
  ok _ := ⟨Except.ok.inj,congrArg Except.ok⟩
  refuses _ h := nomatch h

theorem fail {field reason : Option String} {message : String} (h : ∀ a, ¬P a) :
    Decides (.error (.realtime { code := .protocolError, message := message
                                 validationField := field, validationReason := reason })) P where
  ok a := ⟨fun hh => (nomatch hh),fun hh => absurd hh (h a)⟩
  refuses e he := by
    obtain rfl := Except.error.inj he
    rfl

theorem congr (h : Decides x P) (hP : ∀ a, P a ↔ P' a) : Decides x P' where
  ok a := (h.ok a).trans (hP a)
  refuses := h.refuses

theorem bind {f : α → Except Exn β} {Q : α → β → Prop} (h : Decides x P) (hf : ∀ a, P a → Decides (f a) (Q a)) :
    Decides (x >>= f) fun b => ∃ a, P a ∧ Q a b where
  ok b := by
    cases x with
    | error e =>
      refine ⟨fun hh => (nomatch hh),fun hh => ?_⟩
      obtain ⟨a,ha,_⟩ := hh
      exact nomatch (h.ok a).mpr ha
    | ok a =>
      have ha : P a := (h.ok a).mp rfl
      refine ⟨fun hh => ⟨a,ha,((hf a ha).ok b).mp hh⟩,fun hh => ?_⟩
      obtain ⟨a',ha',hb⟩ := hh
      obtain rfl := Except.ok.inj ((h.ok a').mpr ha')
      exact ((hf a ha).ok b).mpr hb
  refuses e he := by
    cases x with
    | error e' =>
      obtain rfl := Except.error.inj he
      exact h.refuses _ rfl
    | ok a => exact (hf a ((h.ok a).mp rfl)).refuses e he

theorem map (h : Decides x P) (f : α → β) : Decides (x.map f) fun b => ∃ a, P a ∧ f a = b :=
  h.bind (f := fun a => .ok (f a)) fun a _ => pure (f a)

end Decides

namespace RelayControl

variable {value : Json.Object} {v : Option Json} {name : String}

/-! The checks of one field. -/

theorem decides_string : Decides (string v name) fun s => v = some (.str s) ∧ s ≠ "" := by
  unfold string
  split
  · rename_i s hs
    have hv := Json.asString_eq_some.mp hs
    split
    · rename_i hempty
      apply Decides.fail
      rintro t ⟨ht,hne⟩
      rw [hv] at ht
      obtain rfl := Json.str.inj (Option.some.inj ht)
      exact hne hempty
    · rename_i hne
      apply (Decides.pure s).congr
      intro t
      rw [hv]
      constructor
      · rintro rfl
        exact ⟨rfl,hne⟩
      · rintro ⟨ht,_⟩
        exact Json.str.inj (Option.some.inj ht)
  · rename_i hnone
    apply Decides.fail
    rintro t ⟨rfl,_⟩
    exact nomatch hnone

theorem decides_integer : Decides (integer v name) fun n => v = some (.int n) := by
  unfold integer
  split
  · rename_i i hi
    have hv := Json.asInt_eq_some.mp hi
    split
    · rename_i hneg
      apply Decides.fail
      intro n hn
      rw [hv] at hn
      obtain rfl := Json.int.inj (Option.some.inj hn)
      omega
    · rename_i hpos
      apply (Decides.pure i.toNat).congr
      intro n
      rw [hv,Option.some.injEq,Json.int.injEq]
      omega
  · rename_i hnone
    apply Decides.fail
    rintro n rfl
    exact nomatch hnone

theorem ne_empty_of_opaqueId {s : String} (h : Text.isOpaqueId s) : s ≠ "" := by
  rintro rfl
  exact nomatch h

theorem decides_opaqueId : Decides (opaqueId v name) fun s => v = some (.str s) ∧ Text.isOpaqueId s := by
  unfold opaqueId
  have hcheck : ∀ s, v = some (.str s) ∧ s ≠ "" →
      Decides (if Text.isOpaqueId s then .ok s else protocolError (name ++ " is invalid"))
        fun t => s = t ∧ Text.isOpaqueId s := by
    intro s _
    split
    · rename_i hid
      exact (Decides.pure s).congr fun t => ⟨fun h => ⟨h,hid⟩,And.left⟩
    · rename_i hid
      exact Decides.fail fun t h => hid h.2
  apply (decides_string.bind hcheck).congr
  intro t
  constructor
  · rintro ⟨s,⟨hs,_⟩,rfl,hid⟩
    exact ⟨hs,hid⟩
  · rintro ⟨ht,hid⟩
    exact ⟨t,⟨ht,ne_empty_of_opaqueId hid⟩,rfl,hid⟩

/-- The object has the required names, and no other but the optional ones. -/
def Named (value : Json.Object) (required : List String) (optional : List String) : Prop :=
  (∀ name ∈ required, name ∈ Json.names value) ∧ ∀ name ∈ Json.names value, name ∈ required ∨ name ∈ optional

theorem decides_exactKeys {required : List String} :
    Decides (exactKeys value required) fun _ => Named value required [] := by
  unfold exactKeys Named
  split
  · rename_i h
    simp only [Bool.and_eq_true,List.all_eq_true,decide_eq_true_eq] at h
    exact (Decides.pure ()).congr fun _ => ⟨fun _ => ⟨h.2,fun n hn => .inl (h.1 n hn)⟩,fun _ => rfl⟩
  · rename_i h
    simp only [Bool.and_eq_true,List.all_eq_true,decide_eq_true_eq] at h
    apply Decides.fail
    rintro _ ⟨hrequired,hnames⟩
    exact h ⟨fun n hn => (hnames n hn).resolve_right (by simp),hrequired⟩

theorem decides_memberOf {allowed : List String} {message : String} (h : Json.hashable v) :
    Decides (memberOf v allowed message) fun _ => ∃ s ∈ allowed, v = some (.str s) := by
  unfold memberOf
  rw [if_neg (by simp [h])]
  split
  · rename_i s hs
    have hv := Json.asString_eq_some.mp hs
    split
    · rename_i hmem
      exact (Decides.pure ()).congr fun _ => ⟨fun _ => ⟨s,hmem,hv⟩,fun _ => rfl⟩
    · rename_i hmem
      apply Decides.fail
      rintro _ ⟨t,ht,heq⟩
      rw [hv] at heq
      obtain rfl := Json.str.inj (Option.some.inj heq)
      exact hmem ht
  · rename_i hnone
    apply Decides.fail
    rintro _ ⟨t,_,rfl⟩
    exact nomatch hnone

theorem decides_controlId :
    Decides (controlId value name) fun s => Json.field value name = some (.str s) ∧ Text.isOpaqueId s := by
  have hid : Decides (opaqueId (Json.field value name) name)
      fun s => Json.field value name = some (.str s) ∧ Text.isOpaqueId s := decides_opaqueId
  unfold controlId
  split
  · rename_i s hs
    apply (Decides.pure s).congr
    intro t
    rw [← hid.ok,hs,Except.ok.injEq]
  · rename_i e he
    apply Decides.fail
    intro t ht
    rw [← hid.ok,he] at ht
    exact nomatch ht

/-- The field is an opaque identifier, or it is left out. -/
def OptionalId (value : Json.Object) (name : String) : Option String → Prop
  | some s => Json.field value name = some (.str s) ∧ Text.isOpaqueId s
  | none => name ∉ Json.names value

theorem hasField_iff : Json.hasField value name ↔ name ∈ Json.names value := by
  simp [Json.hasField,Json.names]

theorem field_eq_none : Json.field value name = none ↔ name ∉ Json.names value := by
  simp only [Json.field,Json.names,Option.map_eq_none_iff,List.find?_eq_none,List.mem_reverse,decide_eq_true_eq,
    List.mem_map,not_exists,not_and]

theorem decides_optionalControlId : Decides (optionalControlId value name) (OptionalId value name) := by
  unfold optionalControlId
  split
  · rename_i hhas
    apply (decides_controlId.map some).congr
    intro o
    constructor
    · rintro ⟨s,hs,rfl⟩
      exact hs
    · intro ho
      cases o with
      | some s => exact ⟨s,ho,rfl⟩
      | none => exact absurd (hasField_iff.mp hhas) ho
  · rename_i hhas
    rw [hasField_iff] at hhas
    apply (Decides.pure none).congr
    intro o
    constructor
    · rintro rfl
      exact hhas
    · intro ho
      cases o with
      | some s =>
        have hfield : Json.field value name = some (.str s) := ho.1
        rw [field_eq_none.mpr hhas] at hfield
        exact nomatch hfield
      | none => rfl

/-- The field is a number of milliseconds up to an hour, or it is left out. -/
def OptionalDelay (value : Json.Object) : Option ℤ → Prop
  | some n => Json.field value "retry_after_ms" = some (.int n) ∧ 0 ≤ n ∧ n ≤ 3600000
  | none => "retry_after_ms" ∉ Json.names value

theorem decides_retryAfter : Decides (retryAfter value) (OptionalDelay value) := by
  unfold retryAfter
  split
  · rename_i hhas
    rw [hasField_iff] at hhas
    split
    · rename_i n hn
      rw [Json.asInt_eq_some] at hn
      split
      · rename_i hrange
        apply (Decides.pure (some n)).congr
        intro o
        constructor
        · rintro rfl
          exact ⟨hn,hrange⟩
        · intro ho
          cases o with
          | some m =>
            have hm : Json.field value "retry_after_ms" = some (.int m) := ho.1
            rw [hn] at hm
            obtain rfl := Json.int.inj (Option.some.inj hm)
            rfl
          | none => exact absurd hhas ho
      · rename_i hrange
        apply Decides.fail
        intro o ho
        cases o with
        | some m =>
          have hm : Json.field value "retry_after_ms" = some (.int m) := ho.1
          rw [hn] at hm
          obtain rfl := Json.int.inj (Option.some.inj hm)
          exact hrange ho.2
        | none => exact ho hhas
    · rename_i hnone
      apply Decides.fail
      intro o ho
      cases o with
      | some m =>
        rw [Json.asInt_eq_some.mpr ho.1] at hnone
        exact nomatch hnone
      | none => exact ho hhas
  · rename_i hhas
    rw [hasField_iff] at hhas
    apply (Decides.pure none).congr
    intro o
    constructor
    · rintro rfl
      exact hhas
    · intro ho
      cases o with
      | some m =>
        have hm : Json.field value "retry_after_ms" = some (.int m) := ho.1
        rw [field_eq_none.mpr hhas] at hm
        exact nomatch hm
      | none => rfl

/-! The frames. -/

/-- What the frames of the grammar say. -/
inductive Grammar (value : Json.Object) : ControlEvent → Prop
  | expiring {event : String} {remaining : ℕ}
      (names : Named value ["type", "event_id", "remaining_ms"] [])
      (htype : Json.field value "type" = some (.str "tokenseller.session.expiring"))
      (hevent : Json.field value "event_id" = some (.str event) ∧ Text.isOpaqueId event)
      (hremaining : Json.field value "remaining_ms" = some (.int remaining)) :
      Grammar value (.expiring remaining)
  | failed {event raw messageClass : String} {code : RealtimeErrorCode} {retryable : Bool}
      {related : Option String} {retryAfterMs : Option ℤ}
      (names : Named value errorRequired ["related_event_id", "retry_after_ms"])
      (htype : Json.field value "type" = some (.str "tokenseller.error"))
      (hevent : Json.field value "event_id" = some (.str event) ∧ Text.isOpaqueId event)
      (hrelated : OptionalId value "related_event_id" related)
      (hcode : Json.field value "code" = some (.str raw) ∧ RealtimeErrorCode.ofValue raw = some code ∧
        raw ∈ controlErrorCodes)
      (hretryable : Json.field value "retryable" = some (.bool retryable))
      (hfatal : Json.field value "fatal" = some (.bool true))
      (hclass : Json.field value "message_class" = some (.str messageClass) ∧ messageClass ∈ messageClasses)
      (hretry : OptionalDelay value retryAfterMs) :
      Grammar value (.failed { code, retryable, controlCode := some code, messageClass := some messageClass
                               relatedEventId := related, fatal := some true, retryAfterMs })
  | closed {event related rawInitiator rawDisposition activeResponse settlement : String} {initiator : CloseInitiator}
      {disposition : CloseDisposition}
      (names : Named value closedKeys [])
      (htype : Json.field value "type" = some (.str "tokenseller.session.closed"))
      (hevent : Json.field value "event_id" = some (.str event) ∧ Text.isOpaqueId event)
      (hrelated : Json.field value "related_event_id" = some (.str related) ∧ Text.isOpaqueId related)
      (hinitiator : Json.field value "initiator" = some (.str rawInitiator) ∧
        CloseInitiator.ofValue rawInitiator = some initiator)
      (hdisposition : Json.field value "disposition" = some (.str rawDisposition) ∧
        CloseDisposition.ofValue rawDisposition = some disposition)
      (hactive : Json.field value "active_response" = some (.str activeResponse) ∧ activeResponse ∈ activeResponses)
      (hsettlement : Json.field value "settlement" = some (.str settlement) ∧ settlement ∈ settlements) :
      Grammar value (.closed
        { reason := if disposition = .cleanExpired then "session_expired" else "session_closed"
          initiator, disposition, activeResponse, settlement, relatedEventId := some related })

theorem decides_expiring (htype : Json.field value "type" = some (.str "tokenseller.session.expiring")) :
    Decides (do
      exactKeys value ["type", "event_id", "remaining_ms"]
      let _ ← opaqueId (Json.field value "event_id") "event_id"
      return some (ControlEvent.expiring (← integer (Json.field value "remaining_ms") "remaining_ms")))
      fun o => ∃ event, o = some event ∧ Grammar value event := by
  refine (decides_exactKeys.bind fun _ _ => decides_opaqueId.bind fun _ _ => decides_integer.bind fun n _ =>
    Decides.pure (some (ControlEvent.expiring n))).congr fun o => ?_
  constructor
  · rintro ⟨_,hnames,event,hevent,n,hn,rfl⟩
    exact ⟨_,rfl,.expiring hnames htype hevent hn⟩
  · rintro ⟨event,rfl,h⟩
    cases h with
    | expiring hnames _ hevent hn => exact ⟨(),hnames,_,hevent,_,hn,rfl⟩
    | failed _ hother | closed _ hother =>
      rw [htype] at hother
      exact absurd (Json.str.inj (Option.some.inj hother)) (by decide)

/-! The checks of an error frame, each on its own. -/

def requiredFields (value : Json.Object) : Except Exn Unit :=
  match errorRequired.find? (· ∉ Json.names value) with
  | some missing => controlFailure missing "missing_field"
  | none => pure ()

def allowedFields (value : Json.Object) : Except Exn Unit :=
  if !(Json.names value).all (· ∈ errorRequired ++ ["related_event_id", "retry_after_ms"]) then
    controlFailure "fields" "field_set"
  else pure ()

def controlCode (value : Json.Object) : Except Exn RealtimeErrorCode :=
  match Json.asString (Json.field value "code") with
  | some raw =>
    match RealtimeErrorCode.ofValue raw with
    | some code => if raw ∈ controlErrorCodes then .ok code else controlFailure "code" "unknown_enum"
    | none => controlFailure "code" "unknown_enum"
  | none => controlFailure "code" "unknown_enum"

def controlBool (value : Json.Object) (name : String) : Except Exn Bool :=
  match Json.asBool (Json.field value name) with
  | some b => .ok b
  | none => controlFailure name "invalid_type"

def terminal (fatal : Bool) : Except Exn Unit :=
  if !fatal then controlFailure "fatal" "non_terminal_error" else pure ()

def controlClass (value : Json.Object) : Except Exn String :=
  match (Json.asString (Json.field value "message_class")).filter (· ∈ messageClasses) with
  | some messageClass => .ok messageClass
  | none => controlFailure "message_class" "unknown_enum"

theorem decodeError_eq (value : Json.Object) : decodeError value = (do
    requiredFields value
    allowedFields value
    let _ ← controlId value "event_id"
    let related ← optionalControlId value "related_event_id"
    let code ← controlCode value
    let retryable ← controlBool value "retryable"
    let fatal ← controlBool value "fatal"
    terminal fatal
    let messageClass ← controlClass value
    let retryAfterMs ← retryAfter value
    return { code, retryable, controlCode := some code, messageClass := some messageClass
             relatedEventId := related, fatal := some true, retryAfterMs }) := by
  unfold decodeError requiredFields allowedFields controlCode controlBool terminal controlClass
  cases errorRequired.find? fun x => decide (x ∉ Json.names value) with
  | some missing => rfl
  | none =>
    by_cases hallowed : (Json.names value).all fun x => decide (x ∈ errorRequired ++ ["related_event_id", "retry_after_ms"])
    · simp only [hallowed,Bool.not_true,Bool.false_eq_true,if_false,pure_bind]
      refine bind_congr fun _ => bind_congr fun related => bind_congr fun code => ?_
      cases Json.asBool (Json.field value "retryable") with
      | none => rfl
      | some retryable =>
        cases Json.asBool (Json.field value "fatal") with
        | none => rfl
        | some fatal =>
          cases fatal with
          | false => rfl
          | true =>
            cases (Json.asString (Json.field value "message_class")).filter fun x => decide (x ∈ messageClasses) with
            | none => rfl
            | some messageClass => rfl
    · simp only [hallowed]
      rfl

theorem decides_requiredFields : Decides (requiredFields value) fun _ => ∀ name ∈ errorRequired, name ∈ Json.names value := by
  unfold requiredFields
  split
  · rename_i missing hmissing
    apply Decides.fail
    intro _ hall
    have hnot := List.find?_some hmissing
    exact absurd (hall missing (List.mem_of_find?_eq_some hmissing)) (by simpa using hnot)
  · rename_i hnone
    rw [List.find?_eq_none] at hnone
    exact (Decides.pure ()).congr fun _ => ⟨fun _ name hname => by simpa using hnone name hname,fun _ => rfl⟩

theorem decides_allowedFields : Decides (allowedFields value) fun _ =>
    ∀ name ∈ Json.names value, name ∈ errorRequired ∨ name ∈ ["related_event_id", "retry_after_ms"] := by
  unfold allowedFields
  split
  · rename_i h
    apply Decides.fail
    intro _ hall
    simp only [Bool.not_eq_eq_eq_not,Bool.not_true,List.all_eq_false,decide_eq_true_eq,List.mem_append] at h
    obtain ⟨name,hname,hnot⟩ := h
    exact hnot (hall name hname)
  · rename_i h
    simp only [Bool.not_eq_eq_eq_not,Bool.not_true,Bool.not_eq_false,List.all_eq_true,decide_eq_true_eq,
      List.mem_append] at h
    exact (Decides.pure ()).congr fun _ => ⟨fun _ => h,fun _ => rfl⟩

theorem decides_controlCode : Decides (controlCode value) fun code => ∃ raw,
    Json.field value "code" = some (.str raw) ∧ RealtimeErrorCode.ofValue raw = some code ∧ raw ∈ controlErrorCodes := by
  unfold controlCode
  split
  · rename_i raw hraw
    rw [Json.asString_eq_some] at hraw
    have hsame : ∀ raw', Json.field value "code" = some (.str raw') → raw' = raw := by
      intro raw' h
      rw [hraw] at h
      exact (Json.str.inj (Option.some.inj h)).symm
    split
    · rename_i code hcode
      split
      · rename_i hmem
        apply (Decides.pure code).congr
        intro code'
        constructor
        · rintro rfl
          exact ⟨raw,hraw,hcode,hmem⟩
        · rintro ⟨raw',hraw',hcode',_⟩
          rw [hsame raw' hraw',hcode] at hcode'
          exact Option.some.inj hcode'
      · rename_i hmem
        apply Decides.fail
        rintro code' ⟨raw',hraw',_,hmem'⟩
        exact hmem (hsame raw' hraw' ▸ hmem')
    · rename_i hnone
      apply Decides.fail
      rintro code' ⟨raw',hraw',hcode',_⟩
      rw [hsame raw' hraw',hnone] at hcode'
      exact nomatch hcode'
  · rename_i hnone
    apply Decides.fail
    rintro code ⟨raw,hraw,_⟩
    rw [Json.asString_eq_some.mpr hraw] at hnone
    exact nomatch hnone

theorem decides_controlBool : Decides (controlBool value name) fun b => Json.field value name = some (.bool b) := by
  unfold controlBool
  split
  · rename_i b hb
    rw [Json.asBool_eq_some] at hb
    exact (Decides.pure b).congr fun b' => by rw [hb,Option.some.injEq,Json.bool.injEq]
  · rename_i hnone
    apply Decides.fail
    intro b hb
    rw [Json.asBool_eq_some.mpr hb] at hnone
    exact nomatch hnone

theorem decides_terminal {fatal : Bool} : Decides (terminal fatal) fun _ => fatal = true := by
  cases fatal with
  | false => exact Decides.fail fun _ h => nomatch h
  | true => exact (Decides.pure ()).congr fun _ => ⟨fun _ => rfl,fun _ => rfl⟩

theorem decides_controlClass : Decides (controlClass value) fun messageClass =>
    Json.field value "message_class" = some (.str messageClass) ∧ messageClass ∈ messageClasses := by
  have hiff : ∀ messageClass, (Json.asString (Json.field value "message_class")).filter (· ∈ messageClasses) =
      some messageClass ↔
        Json.field value "message_class" = some (.str messageClass) ∧ messageClass ∈ messageClasses := by
    intro messageClass
    rw [Option.filter_eq_some_iff,Json.asString_eq_some,decide_eq_true_eq]
  unfold controlClass
  split
  · rename_i messageClass h
    exact (Decides.pure messageClass).congr fun other => by rw [← hiff,h,Option.some.injEq]
  · rename_i hnone
    apply Decides.fail
    intro messageClass h
    rw [← hiff,hnone] at h
    exact nomatch h

theorem decides_error (htype : Json.field value "type" = some (.str "tokenseller.error")) :
    Decides (decodeError value) fun failed => Grammar value (.failed failed) := by
  rw [decodeError_eq]
  refine (decides_requiredFields.bind fun _ _ => decides_allowedFields.bind fun _ _ => decides_controlId.bind fun _ _ =>
    decides_optionalControlId.bind fun related _ => decides_controlCode.bind fun code _ =>
    decides_controlBool.bind fun retryable _ => decides_controlBool.bind fun fatal _ => decides_terminal.bind fun _ _ =>
    decides_controlClass.bind fun messageClass _ => decides_retryAfter.bind fun retryAfterMs _ => Decides.pure _).congr
    fun failed => ?_
  constructor
  · rintro ⟨_,hrequired,_,hallowed,event,hevent,related,hrelated,code,⟨raw,hcode⟩,retryable,hretryable,fatal,hfatal,_,rfl,
      messageClass,hclass,retryAfterMs,hretry,rfl⟩
    exact .failed ⟨hrequired,hallowed⟩ htype hevent hrelated hcode hretryable hfatal hclass hretry
  · intro h
    cases h with
    | failed names _ hevent hrelated hcode hretryable hfatal hclass hretry =>
      exact ⟨(),names.1,(),names.2,_,hevent,_,hrelated,_,⟨_,hcode⟩,_,hretryable,_,hfatal,(),rfl,_,hclass,_,hretry,rfl⟩

/-! The checks of a close frame. -/

def closeInitiator (raw : String) : Except Exn CloseInitiator :=
  match CloseInitiator.ofValue raw with
  | some initiator => .ok initiator
  | none => protocolError "unknown close enum"

def closeDisposition (raw : String) : Except Exn CloseDisposition :=
  match CloseDisposition.ofValue raw with
  | some disposition => .ok disposition
  | none => protocolError "unknown close enum"

theorem decides_closeInitiator {raw : String} :
    Decides (closeInitiator raw) fun initiator => CloseInitiator.ofValue raw = some initiator := by
  unfold closeInitiator
  split
  · rename_i initiator h
    exact (Decides.pure initiator).congr fun other => by rw [h,Option.some.injEq]
  · rename_i hnone
    apply Decides.fail
    intro initiator h
    rw [hnone] at h
    exact nomatch h

theorem decides_closeDisposition {raw : String} :
    Decides (closeDisposition raw) fun disposition => CloseDisposition.ofValue raw = some disposition := by
  unfold closeDisposition
  split
  · rename_i disposition h
    exact (Decides.pure disposition).congr fun other => by rw [h,Option.some.injEq]
  · rename_i hnone
    apply Decides.fail
    intro disposition h
    rw [hnone] at h
    exact nomatch h

/-- What follows the enumerations of a close frame. -/
def closedTail (value : Json.Object) (related : String) (initiator : CloseInitiator)
    (disposition : CloseDisposition) : Except Exn SessionClosed := do
  memberOf (Json.field value "active_response") activeResponses "unknown active response disposition"
  memberOf (Json.field value "settlement") settlements "unknown settlement disposition"
  let activeResponse ← string (Json.field value "active_response") "active_response"
  let settlement ← string (Json.field value "settlement") "settlement"
  return { reason := if disposition = .cleanExpired then "session_expired" else "session_closed"
           initiator, disposition, activeResponse, settlement, relatedEventId := some related }

theorem decodeClosed_eq (value : Json.Object) : decodeClosed value = (do
    exactKeys value closedKeys
    let _ ← opaqueId (Json.field value "event_id") "event_id"
    let related ← opaqueId (Json.field value "related_event_id") "related_event_id"
    let rawInitiator ← string (Json.field value "initiator") "initiator"
    let initiator ← closeInitiator rawInitiator
    let rawDisposition ← string (Json.field value "disposition") "disposition"
    let disposition ← closeDisposition rawDisposition
    closedTail value related initiator disposition) := by
  unfold decodeClosed closeInitiator closeDisposition
  refine bind_congr fun _ => bind_congr fun _ => bind_congr fun related => bind_congr fun rawInitiator => ?_
  cases CloseInitiator.ofValue rawInitiator with
  | none => rfl
  | some initiator =>
    refine bind_congr fun rawDisposition => ?_
    cases CloseDisposition.ofValue rawDisposition with
    | none => rfl
    | some disposition => rfl

/-- A close frame whose fields are right up to the enumerations. -/
structure ClosedHead (value : Json.Object) (related : String) (initiator : CloseInitiator)
    (disposition : CloseDisposition) : Prop where
  names : Named value closedKeys []
  event : ∃ event, Json.field value "event_id" = some (.str event) ∧ Text.isOpaqueId event
  related : Json.field value "related_event_id" = some (.str related) ∧ Text.isOpaqueId related
  initiator : ∃ raw, Json.field value "initiator" = some (.str raw) ∧ CloseInitiator.ofValue raw = some initiator
  disposition : ∃ raw, Json.field value "disposition" = some (.str raw) ∧
    CloseDisposition.ofValue raw = some disposition

/-- A list or a dictionary stands where `active_response` is looked up, or behind it where `settlement` is. -/
def Unhashable (value : Json.Object) : Prop :=
  Json.hashable (Json.field value "active_response") = false ∨
    (∃ s ∈ activeResponses, Json.field value "active_response" = some (.str s)) ∧
      Json.hashable (Json.field value "settlement") = false

theorem ne_empty_of_initiator {raw : String} {initiator : CloseInitiator}
    (h : CloseInitiator.ofValue raw = some initiator) : raw ≠ "" := by
  rintro rfl
  exact nomatch h

theorem ne_empty_of_disposition {raw : String} {disposition : CloseDisposition}
    (h : CloseDisposition.ofValue raw = some disposition) : raw ≠ "" := by
  rintro rfl
  exact nomatch h

theorem decides_closed (htype : Json.field value "type" = some (.str "tokenseller.session.closed"))
    (hhashable : ∀ related initiator disposition, ClosedHead value related initiator disposition → ¬Unhashable value) :
    Decides (decodeClosed value) fun closed => Grammar value (.closed closed) := by
  rw [decodeClosed_eq]
  have htail : ∀ related initiator disposition, ClosedHead value related initiator disposition →
      Decides (closedTail value related initiator disposition) fun closed => ∃ activeResponse settlement,
        (Json.field value "active_response" = some (.str activeResponse) ∧ activeResponse ∈ activeResponses) ∧
        (Json.field value "settlement" = some (.str settlement) ∧ settlement ∈ settlements) ∧
        closed = { reason := if disposition = .cleanExpired then "session_expired" else "session_closed"
                   initiator, disposition, activeResponse, settlement, relatedEventId := some related } := by
    intro related initiator disposition hhead
    have hsafe := hhashable related initiator disposition hhead
    unfold Unhashable at hsafe
    rw [not_or,Bool.not_eq_false,not_and,Bool.not_eq_false] at hsafe
    refine ((decides_memberOf hsafe.1).bind fun _ hactive => (decides_memberOf (hsafe.2 hactive)).bind fun _ _ =>
      decides_string.bind fun activeResponse _ => decides_string.bind fun settlement _ => Decides.pure _).congr
      fun closed => ?_
    constructor
    · rintro ⟨_,⟨a,ha,hactive⟩,_,⟨b,hb,hsettlement⟩,activeResponse,⟨ha',_⟩,settlement,⟨hb',_⟩,rfl⟩
      rw [hactive] at ha'
      obtain rfl := Json.str.inj (Option.some.inj ha')
      rw [hsettlement] at hb'
      obtain rfl := Json.str.inj (Option.some.inj hb')
      exact ⟨a,b,⟨hactive,ha⟩,⟨hsettlement,hb⟩,rfl⟩
    · rintro ⟨a,b,⟨hactive,ha⟩,⟨hsettlement,hb⟩,rfl⟩
      have hane : a ≠ "" := by
        rintro rfl
        exact absurd ha (by decide)
      have hbne : b ≠ "" := by
        rintro rfl
        exact absurd hb (by decide)
      exact ⟨(),⟨a,ha,hactive⟩,(),⟨b,hb,hsettlement⟩,a,⟨hactive,hane⟩,b,⟨hsettlement,hbne⟩,rfl⟩
  refine (decides_exactKeys.bind fun _ hnames => decides_opaqueId.bind fun event hevent => decides_opaqueId.bind
    fun related hrelated => decides_string.bind fun rawInitiator hi => decides_closeInitiator.bind fun initiator hinitiator =>
    decides_string.bind fun rawDisposition hd => decides_closeDisposition.bind fun disposition hdisposition =>
    htail related initiator disposition
      ⟨hnames,⟨event,hevent⟩,hrelated,⟨rawInitiator,hi.1,hinitiator⟩,⟨rawDisposition,hd.1,hdisposition⟩⟩).congr
    fun closed => ?_
  constructor
  · rintro ⟨_,hnames,event,hevent,related,hrelated,rawInitiator,hi,initiator,hinitiator,rawDisposition,hd,disposition,
      hdisposition,a,b,hactive,hsettlement,rfl⟩
    exact .closed hnames htype hevent hrelated ⟨hi.1,hinitiator⟩ ⟨hd.1,hdisposition⟩ hactive hsettlement
  · intro h
    cases h with
    | closed names _ hevent hrelated hinitiator hdisposition hactive hsettlement =>
      exact ⟨(),names,_,hevent,_,hrelated,_,⟨hinitiator.1,ne_empty_of_initiator hinitiator.2⟩,_,hinitiator.2,_,
        ⟨hdisposition.1,ne_empty_of_disposition hdisposition.2⟩,_,hdisposition.2,_,_,hactive,hsettlement,rfl⟩

/-- Looking up a list or a dictionary raises `TypeError`. -/
theorem decodeClosed_unhashable {related : String} {initiator : CloseInitiator} {disposition : CloseDisposition}
    (hhead : ClosedHead value related initiator disposition) (h : Unhashable value) :
    decodeClosed value = .error .exception := by
  obtain ⟨event,hevent⟩ := hhead.event
  obtain ⟨rawInitiator,hi,hinitiator⟩ := hhead.initiator
  obtain ⟨rawDisposition,hd,hdisposition⟩ := hhead.disposition
  have hinitiatorString : string (Json.field value "initiator") "initiator" = .ok rawInitiator :=
    (decides_string.ok rawInitiator).mpr ⟨hi,ne_empty_of_initiator hinitiator⟩
  have hdispositionString : string (Json.field value "disposition") "disposition" = .ok rawDisposition :=
    (decides_string.ok rawDisposition).mpr ⟨hd,ne_empty_of_disposition hdisposition⟩
  rw [decodeClosed_eq,(decides_exactKeys.ok ()).mpr hhead.names,(decides_opaqueId.ok event).mpr hevent,
    (decides_opaqueId.ok related).mpr hhead.related,hinitiatorString,hdispositionString]
  simp only [bind,Except.bind,(decides_closeInitiator.ok initiator).mpr hinitiator,
    (decides_closeDisposition.ok disposition).mpr hdisposition]
  unfold closedTail
  obtain hactive | ⟨hactive,hsettlement⟩ := h
  · simp [memberOf,hactive,bind,Except.bind]
  · have hfirst : Json.hashable (Json.field value "active_response") := by
      obtain ⟨s,_,hs⟩ := hactive
      rw [hs]
      rfl
    rw [((decides_memberOf hfirst).ok ()).mpr hactive]
    simp [memberOf,hsettlement,bind,Except.bind]

/-- The type of the object is no text that starts with `tokenseller.`. -/
def Foreign (value : Json.Object) : Prop :=
  ∀ type, Json.field value "type" = some (.str type) → Text.startsWith type "tokenseller." = false

/-- A close frame, right up to its enumerations, in which a list or a dictionary is looked up. -/
def Hazard (value : Json.Object) : Prop :=
  Json.field value "type" = some (.str "tokenseller.session.closed") ∧
    (∃ related initiator disposition, ClosedHead value related initiator disposition) ∧ Unhashable value

/-- What the decoder returns for an object: nothing for a foreign one, and what the grammar says for the others. -/
def Reads (value : Json.Object) : Option ControlEvent → Prop
  | none => Foreign value
  | some event => Grammar value event

/-- The type of the frame that says it. -/
def ControlEvent.type : ControlEvent → String
  | .expiring _ => "tokenseller.session.expiring"
  | .failed _ => "tokenseller.error"
  | .closed _ => "tokenseller.session.closed"

theorem Grammar.typed {event : ControlEvent} (h : Grammar value event) :
    Json.field value "type" = some (.str event.type) := by
  cases h with
  | expiring _ htype | failed _ htype | closed _ htype => exact htype

theorem ControlEvent.type_starts (event : ControlEvent) : Text.startsWith event.type "tokenseller." := by
  cases event <;> simp [type,Text.startsWith,List.isPrefixOf]

theorem decides_object (h : ¬Hazard value) : Decides (decodeObject value) (Reads value) := by
  have hforeign : ∀ {x}, Foreign value → x = none → Decides (.ok x) (Reads value) := by
    rintro x hx rfl
    apply (Decides.pure none).congr
    intro o
    cases o with
    | none => exact ⟨fun _ => hx,fun _ => rfl⟩
    | some event =>
      refine ⟨fun hh => (nomatch hh),fun hh => ?_⟩
      have hstarts := event.type_starts
      rw [hx event.type (Grammar.typed hh)] at hstarts
      exact nomatch hstarts
  unfold decodeObject
  split
  · rename_i hnone
    refine hforeign (fun type htype => ?_) rfl
    rw [Json.asString_eq_some.mpr htype] at hnone
    exact nomatch hnone
  · rename_i type htype
    rw [Json.asString_eq_some] at htype
    have hsame : ∀ type', Json.field value "type" = some (.str type') → type' = type := by
      intro type' h'
      rw [htype] at h'
      exact (Json.str.inj (Option.some.inj h')).symm
    split
    · rename_i hother
      refine hforeign (fun type' htype' => ?_) rfl
      rw [hsame type' htype']
      simpa using hother
    · rename_i hcontrol
      have hnotForeign : ¬Foreign value := fun hh => hcontrol (by simp [hh type htype])
      split
      · rename_i hexpiring
        subst hexpiring
        apply (decides_expiring htype).congr
        intro o
        cases o with
        | none => exact ⟨fun ⟨_,hh,_⟩ => (nomatch hh),fun hh => absurd hh hnotForeign⟩
        | some event => exact ⟨fun ⟨_,hh,hg⟩ => Option.some.inj hh ▸ hg,fun hh => ⟨event,rfl,hh⟩⟩
      · rename_i hexpiring
        split
        · rename_i herror
          subst herror
          apply ((decides_error htype).bind fun failed _ => Decides.pure (some (ControlEvent.failed failed))).congr
          intro o
          cases o with
          | none => exact ⟨fun ⟨_,_,hh⟩ => (nomatch hh),fun hh => absurd hh hnotForeign⟩
          | some event =>
            refine ⟨fun ⟨failed,hg,hh⟩ => Option.some.inj hh ▸ hg,fun hh => ?_⟩
            have hkind := hsame event.type (Grammar.typed hh)
            cases event with
            | failed failed => exact ⟨failed,hh,rfl⟩
            | expiring | closed => exact absurd hkind (by simp [ControlEvent.type])
        · rename_i herror
          split
          · rename_i hclosed
            subst hclosed
            have hsafe : ∀ related initiator disposition, ClosedHead value related initiator disposition →
                ¬Unhashable value := fun related initiator disposition hhead hh =>
              h ⟨htype,⟨related,initiator,disposition,hhead⟩,hh⟩
            apply ((decides_closed htype hsafe).bind fun closed _ => Decides.pure (some (ControlEvent.closed closed))).congr
            intro o
            cases o with
            | none => exact ⟨fun ⟨_,_,hh⟩ => (nomatch hh),fun hh => absurd hh hnotForeign⟩
            | some event =>
              refine ⟨fun ⟨closed,hg,hh⟩ => Option.some.inj hh ▸ hg,fun hh => ?_⟩
              have hkind := hsame event.type (Grammar.typed hh)
              cases event with
              | closed closed => exact ⟨closed,hh,rfl⟩
              | expiring | failed => exact absurd hkind (by simp [ControlEvent.type])
          · rename_i hclosed
            apply Decides.fail
            intro o ho
            cases o with
            | none => exact hnotForeign ho
            | some event =>
              have hkind := (hsame event.type (Grammar.typed ho)).symm
              cases event with
              | expiring => exact hexpiring hkind
              | failed => exact herror hkind
              | closed => exact hclosed hkind

/-- The text is one object without the constants that are no numbers of JSON and without repeated keys. -/
def StrictObject (payload : Payload) (value : Json.Object) : Prop :=
  payload.loads = .ok (.obj value) ∧ (Json.obj value).strict = .ok ()

theorem decides_strictJsonObject {payload : Payload} (h : payload.loads ≠ .error .tooDeep) :
    Decides (strictJsonObject payload) (StrictObject payload) := by
  unfold strictJsonObject StrictObject
  cases hloads : payload.loads with
  | error e =>
    cases e with
    | tooDeep => exact absurd hloads h
    | notJson => exact Decides.fail fun _ hh => nomatch hh.1
  | ok v =>
    dsimp only
    cases hstrict : v.strict with
    | error e =>
      have hnot : ∀ members, ¬(Except.ok v = (Except.ok (.obj members) : Except LoadFailure Json) ∧
          (Json.obj members).strict = .ok ()) := by
        rintro members ⟨hv,hm⟩
        obtain rfl := Except.ok.inj hv
        rw [hstrict] at hm
        exact nomatch hm
      cases e with
      | constant => exact Decides.fail hnot
      | duplicateKey => exact Decides.fail hnot
    | ok u =>
      cases v with
      | obj members =>
        apply (Decides.pure members).congr
        intro other
        constructor
        · rintro rfl
          exact ⟨rfl,hstrict⟩
        · rintro ⟨hv,_⟩
          exact Json.obj.inj (Except.ok.inj hv)
      | null | bool | int | float | nonfinite | str | arr => exact Decides.fail fun _ hh => nomatch hh.1

/-- The decoder accepts the grammar, leaves the frames of the provider alone and refuses the rest. -/
structure AcceptsGrammar (payload : Payload) : Prop where
  foreign : decodeRuntimeEvent payload = .ok none ↔ ∃ value, StrictObject payload value ∧ Foreign value
  control : ∀ event, decodeRuntimeEvent payload = .ok (some event) ↔
    ∃ value, StrictObject payload value ∧ Grammar value event
  refuses : ∀ e, decodeRuntimeEvent payload = .error e → e.isProtocolError

theorem decodeRuntimeEvent_strict {payload : Payload} (h : StrictObject payload value) :
    decodeRuntimeEvent payload = decodeObject value := by
  have hne : payload.loads ≠ .error .tooDeep := by
    rw [h.1]
    exact nofun
  unfold decodeRuntimeEvent
  rw [((decides_strictJsonObject hne).ok value).mpr h]
  rfl

theorem decodeObject_hazard (h : Hazard value) : decodeObject value = .error .exception := by
  obtain ⟨htype,⟨related,initiator,disposition,hhead⟩,hunhashable⟩ := h
  unfold decodeObject
  rw [htype]
  simp only [Json.asString]
  rw [if_neg (by decide),if_neg (by decide),if_neg (by decide),if_pos trivial,decodeClosed_unhashable hhead hunhashable]
  rfl

/-- A control frame that comes out of the decoder is one of the grammar. -/
theorem grammar_of_decode {payload : Payload} {event : ControlEvent}
    (h : decodeRuntimeEvent payload = .ok (some event)) : ∃ value, Grammar value event := by
  unfold decodeRuntimeEvent at h
  cases hv : strictJsonObject payload with
  | error e =>
    rw [hv] at h
    exact nomatch h
  | ok value =>
    rw [hv] at h
    have hobject : decodeObject value = .ok (some event) := h
    by_cases hhazard : Hazard value
    · rw [decodeObject_hazard hhazard] at hobject
      exact nomatch hobject
    · exact ⟨value,((decides_object hhazard).ok (some event)).mp hobject⟩

/-- The grammar is accepted exactly if the text is within the nesting limit and nothing unhashable is looked up. -/
theorem accepts_grammar_iff {payload : Payload} : AcceptsGrammar payload ↔
    payload.loads ≠ .error .tooDeep ∧ ∀ value, StrictObject payload value → ¬Hazard value := by
  constructor
  · intro h
    refine ⟨fun hdeep => ?_,fun value hstrict hhazard => ?_⟩
    · have herror : decodeRuntimeEvent payload = .error .exception := by
        unfold decodeRuntimeEvent strictJsonObject
        rw [hdeep]
        rfl
      exact h.refuses _ herror
    · have herror : decodeRuntimeEvent payload = .error .exception := by
        rw [decodeRuntimeEvent_strict hstrict,decodeObject_hazard hhazard]
      exact h.refuses _ herror
  · rintro ⟨hdeep,hsafe⟩
    have hdecides : Decides (decodeRuntimeEvent payload) fun o => ∃ value, StrictObject payload value ∧ Reads value o :=
      (decides_strictJsonObject hdeep).bind fun value hstrict => decides_object (hsafe value hstrict)
    exact ⟨hdecides.ok none,fun event => hdecides.ok (some event),hdecides.refuses⟩

/-- A close frame with a list for `active_response`. -/
def listedClose : Payload where
  bytes := 0
  loads := .ok (.obj [("type",.str "tokenseller.session.closed"),("event_id",.str "event_1"),
    ("related_event_id",.str "event_2"),("initiator",.str "client"),("disposition",.str "clean"),
    ("active_response",.arr []),("settlement",.str "none")])

theorem listed_close_escapes :
    decodeRuntimeEvent listedClose = .error .exception ∧ ¬AcceptsGrammar listedClose := by
  have herror : decodeRuntimeEvent listedClose = .error .exception := by rfl
  exact ⟨herror,fun h => h.refuses _ herror⟩

end RelayControl
end HarnessSdk
