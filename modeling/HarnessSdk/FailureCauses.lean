import HarnessSdk.OpenAIRealtime
import HarnessSdk.ToolRecords

/-!
# First causes

A session captures the context of its first failure and keeps it, and its terminal carries what is captured at that
moment. The constructor of a context checks every field; what a session hands over passes, since the ids and the types
that it refers to are its own or have been checked.
-/

namespace HarnessSdk

/-- `RealtimeFailureContext.__post_init__`. -/
def RealtimeFailureContext.postInit (f : RealtimeFailureContext) : Except String Unit :=
  if [some f.stage,some f.eventType,f.validationReason,f.clientEventType,f.messageClass].any fun value =>
      value.any fun s => !Text.isStableWord s then .error "invalid failure metadata"
  else if f.generation < 1 then .error "invalid failure generation"
  else if f.fieldNames.any (· ∉ safeFailureFields) then .error "invalid failure field names"
  else if f.validationField.any (· ∉ safeFailureFields ++
      ["fields", "response.id", "item.id", "item.call_id", "session.id"]) then .error "invalid validation field"
  else if f.relatedEventId.any (!Text.isOpaqueId ·) then .error "invalid related event identity"
  else if f.retryAfterMs.any fun ms => decide (ms < 0 ∨ 3600000 < ms) then .error "invalid retry interval"
  else .ok ()

/-- The text of `uuid4().hex`. -/
def isUuidHex (s : String) : Bool :=
  decide (s.length = 32) && s.toList.all (· ∈ "0123456789abcdef".toList)

/-- An adapter names its frames by the fresh part it is given. -/
structure ProviderAdapter.NamesFrames {A : Type} (adapter : ProviderAdapter A) : Prop where
  session : ∀ fresh request a ea, adapter.sessionUpdate fresh request a = .ok ea → ea.1.eventId = Session.eventId fresh
  audio : ∀ fresh pcm event, adapter.audioAppend fresh pcm = .ok event → event.eventId = Session.eventId fresh
  cancel : ∀ fresh id, (adapter.cancelResponse fresh id).eventId = Session.eventId fresh
  truncate : ∀ fresh itemId i ms event, adapter.truncateOutput fresh itemId i ms = .ok event →
    event.eventId = Session.eventId fresh
  result : ∀ fresh id output, (adapter.toolResult fresh id output).eventId = Session.eventId fresh
  followup : ∀ fresh id a, (adapter.followupResponse fresh id a).eventId = Session.eventId fresh
  message : ∀ fresh text role a, (adapter.appendMessage fresh text role a).1.eventId = Session.eventId fresh
  instructions : ∀ fresh text a, (adapter.updateInstructions fresh text a).1.eventId = Session.eventId fresh
  outOfBand : ∀ fresh text a ea, adapter.outOfBandResponse fresh text a = .ok ea → ea.1.eventId = Session.eventId fresh

theorem QwenOmni.adapter_namesFrames : QwenOmni.adapter.NamesFrames where
  session _ _ _ _ h := by
    obtain rfl := Except.ok.inj h
    rfl
  audio _ _ _ h := by
    simp only [adapter,audioAppend] at h
    obtain ⟨_,_,h⟩ := except_bind_ok h
    obtain rfl := Except.ok.inj h
    rfl
  cancel _ _ := rfl
  truncate _ _ _ _ _ h := nomatch h
  result _ _ _ := rfl
  followup _ _ _ := rfl
  message _ _ _ _ := rfl
  instructions _ _ _ := rfl
  outOfBand _ _ _ _ h := nomatch h

theorem OpenAIRealtime.adapter_namesFrames : OpenAIRealtime.adapter.NamesFrames where
  session _ _ _ _ h := by
    obtain rfl := Except.ok.inj h
    rfl
  audio _ _ _ h := by
    simp only [adapter,audioAppend] at h
    obtain ⟨_,_,h⟩ := except_bind_ok h
    obtain rfl := Except.ok.inj h
    rfl
  cancel _ _ := rfl
  truncate _ _ _ _ _ h := by
    simp only [adapter,truncateOutput] at h
    split at h
    · exact nomatch h
    · obtain rfl := Except.ok.inj h
      rfl
  result _ _ _ := rfl
  followup _ _ _ := rfl
  message _ _ _ _ := rfl
  instructions _ _ _ := rfl
  outOfBand _ _ _ _ h := by
    obtain rfl := Except.ok.inj h
    rfl

/-! Contexts that are accepted. -/

theorem RealtimeFailureContext.postInit_ok {f : RealtimeFailureContext}
    (hmetadata : ∀ s, some s ∈ [some f.stage,some f.eventType,f.validationReason,f.clientEventType,f.messageClass] →
      Text.isStableWord s)
    (hgeneration : 1 ≤ f.generation) (hnames : ∀ name ∈ f.fieldNames, name ∈ safeFailureFields)
    (hfield : ∀ name, f.validationField = some name → name ∈ safeFailureFields ++
      ["fields", "response.id", "item.id", "item.call_id", "session.id"])
    (hrelated : ∀ id, f.relatedEventId = some id → Text.isOpaqueId id)
    (hretry : ∀ ms, f.retryAfterMs = some ms → 0 ≤ ms ∧ ms ≤ 3600000) : f.postInit = .ok () := by
  unfold postInit
  rw [if_neg,if_neg (by omega),if_neg,if_neg,if_neg,if_neg]
  · cases hms : f.retryAfterMs with
    | none => simp
    | some ms =>
      have hbounds := hretry ms hms
      simp only [Option.any_some,decide_eq_true_eq]
      omega
  · cases hid : f.relatedEventId with
    | none => simp
    | some id => simp [hrelated id hid]
  · cases hname : f.validationField with
    | none => simp
    | some name =>
      simp only [Option.any_some,decide_eq_true_eq,not_not]
      exact hfield name hname
  · simpa using hnames
  · simp only [List.any_eq_true,not_exists,not_and]
    intro value hvalue
    cases value with
    | none => simp
    | some s => simp [hmetadata s hvalue]

theorem failureStages_stable : ∀ stage ∈ Session.failureStages, Text.isStableWord stage := by decide

theorem failureReasons_stable : ∀ reason ∈ failureReasons, Text.isStableWord reason := by decide

theorem messageClasses_stable : ∀ name ∈ RelayControl.messageClasses, Text.isStableWord name := by decide

/-- The characters of an opaque identifier. -/
def isPrintable (ch : Char) : Bool := decide ('!' ≤ ch ∧ ch ≤ '~')

/-- A name of the session followed by a fresh part is printable, and not too long. -/
theorem opaque_of_hex {start fresh : String} (hstart : start.length ≤ 96) (hprintable : start.toList.all isPrintable)
    (h : isUuidHex fresh) : Text.isOpaqueId (start ++ fresh) := by
  simp only [isUuidHex,Bool.and_eq_true,decide_eq_true_eq,List.all_eq_true] at h
  obtain ⟨hlength,hhex⟩ := h
  have hdigits : "0123456789abcdef".toList.all isPrintable := by decide
  have hall : (start ++ fresh).toList.all isPrintable := by
    rw [String.toList_append,List.all_append,hprintable,Bool.true_and,List.all_eq_true]
    exact fun ch hch => List.all_eq_true.mp hdigits ch (hhex ch hch)
  have hbounds : 1 ≤ (start ++ fresh).length ∧ (start ++ fresh).length ≤ 128 := by
    rw [String.length_append]
    omega
  exact Bool.and_eq_true_iff.mpr ⟨decide_eq_true hbounds,hall⟩

namespace Session

open Transition (Steps anyStep)

variable {A : Type} {c : SessionConfig A} {b : Brings} {t : TaskId} {k : TaskKind} {s s' u v : Session A}

/-- What the client hands to the session that it opens. -/
structure OpenedByClient (c : SessionConfig A) : Prop where
  generation : 1 ≤ c.generation
  frames : c.adapter.NamesFrames
  opened : ∃ fresh, isUuidHex fresh ∧
    c.clientEvents = (∅ : Dict String String).set ("ctl_open_" ++ fresh) "tokenseller.session.open"

theorem opaque_eventId {fresh : String} (h : isUuidHex fresh) : Text.isOpaqueId (eventId fresh) :=
  opaque_of_hex (by decide) (by decide) h

theorem Makes.isOpaqueId {fresh : String} {event : ClientEvent} (h : Makes c k fresh event) (hc : OpenedByClient c)
    (hf : isUuidHex fresh) : Text.isOpaqueId event.eventId := by
  have hopaque := opaque_eventId hf
  have hframes := hc.frames
  cases h with
  | session a ea _ h => rwa [hframes.session _ _ _ _ h]
  | audio pcm event _ h => rwa [hframes.audio _ _ _ h]
  | cancel id => rwa [hframes.cancel]
  | truncate itemId i ms event _ h => rwa [hframes.truncate _ _ _ _ _ h]
  | result id output => rwa [hframes.result]
  | followup id a => rwa [hframes.followup]
  | message text role a => rwa [hframes.message]
  | instructions text a => rwa [hframes.instructions]
  | outOfBand text a ea h => rwa [hframes.outOfBand _ _ _ _ h]
  | close reason event _ h =>
    unfold buildBoundSessionClose at h
    split at h
    · obtain rfl := Except.ok.inj h
      exact opaque_of_hex (by decide) (by decide) hf
    · exact nomatch h

/-! The ids and the types that a failure may refer to. -/

structure Named (s : Session A) : Prop where
  sent : ∀ id type, s.failure.sentEventTypes.get id = some type → Text.isOpaqueId id ∧ Text.isStableWord type
  last : Text.isStableWord s.failure.lastEventType ∧ ∀ name ∈ s.failure.lastFieldNames, name ∈ safeFailureFields
  context : ∀ f, s.failure.context = some f → f.postInit = .ok ()
  issued : ∀ j purpose event, .issued j purpose event ∈ s.log → Text.isOpaqueId event.eventId
  payload : ∀ id r event, s.record id = some r → r.resultPayload = some event ∨ r.followupPayload = some event →
    Text.isOpaqueId event.eventId
  closing : ∀ id, s.control.pendingEventId = some id → Text.isOpaqueId id

theorem Refers.isOpaqueId {id : String} (h : s.Refers id) (hs : s.Named) : Text.isOpaqueId id := by
  cases h with
  | printable _ h => exact h
  | sent _ h =>
    obtain ⟨type,htype⟩ := Option.isSome_iff_exists.mp (Dict.mem_iff_isSome.mp h)
    exact (hs.sent id type htype).1
  | issued j purpose event h => exact hs.issued j purpose event h
  | result id r event hr h => exact hs.payload id r event hr (.inl h)
  | closing _ h => exact hs.closing id h

/-- What the session captures is accepted. -/
theorem Captures.accepted {stage : String} {args : FailureArgs} (h : s.Captures stage args) (hs : s.Named) {generation : ℕ}
    (hg : 1 ≤ generation) : (s.failure.build generation stage args).postInit = .ok () := by
  have htype : Text.isStableWord (args.event.elim s.failure.lastEventType Prod.fst) := by
    cases hevent : args.event with
    | none => exact hs.last.1
    | some event => exact (h.event event.1 event.2 hevent).1
  apply RealtimeFailureContext.postInit_ok
  · intro word hword
    simp only [FailureState.build,List.mem_cons,List.not_mem_nil,or_false] at hword
    rcases hword with hword | hword | hword | hword | hword
    · obtain rfl := Option.some.inj hword
      exact failureStages_stable _ h.stage
    · obtain rfl := Option.some.inj hword
      exact htype
    · obtain ⟨e,_,rfl⟩ := Option.map_eq_some_iff.mp hword.symm
      apply failureReasons_stable
      split
      · split
        · assumption
        · decide
      · decide
    · rcases Option.or_eq_some_iff.mp (Option.orElse_eq_or ▸ hword.symm) with hclient | ⟨_,hclient⟩
      · obtain ⟨id,hid⟩ := h.client word (Option.filter_eq_some_iff.mp hclient).1
        exact (hs.sent id word hid).2
      · split at hclient
        · obtain rfl := Option.some.inj hclient
          exact htype
        · exact nomatch hclient
    · exact messageClasses_stable word (h.message word hword.symm)
  · exact hg
  · intro name hname
    simp only [FailureState.build] at hname
    cases hevent : args.event with
    | none =>
      rw [hevent] at hname
      exact hs.last.2 name hname
    | some event =>
      rw [hevent] at hname
      exact (h.event event.1 event.2 hevent).2 name hname
  · intro name hname
    simpa using (Option.filter_eq_some_iff.mp hname).2
  · intro id hid
    simp only [FailureState.build,Option.orElse_eq_or] at hid
    rcases Option.or_eq_some_iff.mp hid with hrelated | ⟨_,hrelated⟩
    · exact (h.related id hrelated).isOpaqueId hs
    · have hmem := (Option.filter_eq_some_iff.mp hrelated).2
      exact (Refers.sent id (by simpa using hmem)).isOpaqueId hs
  · exact fun ms hms => h.retry ms hms

theorem Named.capture (hs : s.Named) {stage : String} {args : FailureArgs} (h : s.Captures stage args)
    (hg : 1 ≤ c.generation) : (s.capture c stage args).Named := by
  have haccepted := h.accepted hs hg
  unfold Session.capture FailureState.capture
  cases hcontext : s.failure.context with
  | some f => exact ⟨hs.sent,hs.last,fun f' hf => hs.context f' (hcontext ▸ hf),hs.issued,hs.payload,hs.closing⟩
  | none =>
    refine ⟨hs.sent,hs.last,fun f hf => ?_,hs.issued,hs.payload,hs.closing⟩
    obtain rfl := Option.some.inj hf
    exact haccepted

/-- A change that leaves alone what a failure may refer to. -/
theorem Named.of_same (hs : s.Named) (hfailure : s'.failure = s.failure) (hclosing : s'.control.pendingEventId = s.control.pendingEventId)
    (hlog : ∀ j purpose event, .issued j purpose event ∈ s'.log → .issued j purpose event ∈ s.log)
    (hpayload : ∀ id r event, s'.record id = some r → r.resultPayload = some event ∨ r.followupPayload = some event →
      Text.isOpaqueId event.eventId) : s'.Named := by
  refine ⟨?_,?_,?_,fun j purpose event h => hs.issued j purpose event (hlog j purpose event h),hpayload,?_⟩
  · rw [hfailure]
    exact hs.sent
  · rw [hfailure]
    exact hs.last
  · rw [hfailure]
    exact hs.context
  · rw [hclosing]
    exact hs.closing

/-! The moves. -/

theorem Move.usedIds (h : Move c b t k s s') : s'.usedIds = s.usedIds := by
  cases h
  case finish => rw [endResponse_frame]
  case publish => rw [publish_frame]
  case conclude => rw [concludeClose_frame]
  case register => rw [registerTool_frame]
  case followup => rw [requestFollowup_frame]
  case introduce => rw [introduce_frame]
  case ackContext => rw [acknowledgeContext_frame]
  all_goals rfl

theorem safeEventFields_safe {payload : Payload} {fields : String × List String} (h : safeEventFields payload = .ok fields) :
    Text.isStableWord fields.1 ∧ ∀ name ∈ fields.2, name ∈ safeFailureFields := by
  unfold safeEventFields at h
  split at h
  · exact nomatch h
  · rename_i value _
    obtain rfl := Except.ok.inj h
    refine ⟨?_,fun name hname => ?_⟩
    · have hunknown : Text.isStableWord "unknown_provider_event" := by decide
      show Text.isStableWord (safeEventType value)
      unfold safeEventType
      split
      · split
        · rename_i hkind
          exact (Bool.and_eq_true_iff.mp hkind).1
        · exact hunknown
      · exact hunknown
    · have hperm := List.perm_insertionSort (· ≤ ·) ((Json.names value).eraseDups.filter (· ∈ safeFailureFields))
      have hmem := hperm.mem_iff.mp hname
      simpa using (List.mem_filter.mp hmem).2
  · obtain rfl := Except.ok.inj h
    exact ⟨by decide,fun _ hname => nomatch hname⟩

theorem publish_failure (e : TerminalEvent) (i : CloseInitiator) (d : CloseDisposition) : (s.publish c t e i d).failure =
    match e with
    | .failed _ => (s.capture c "adapter.apply").failure
    | .closed _ => s.failure := by
  cases e <;> (simp only [publish,putTerminal]; rw [putTerminalSafe_frame]; rfl)

theorem Named.remember (hs : s.Named) {event : ClientEvent} (h : Text.isOpaqueId event.eventId) : (s.remember event).Named := by
  refine ⟨fun id type hid => ?_,hs.last,hs.context,hs.issued,hs.payload,hs.closing⟩
  rw [Session.remember,Dict.get_set] at hid
  split at hid
  · rename_i heq
    obtain rfl := Option.some.inj hid
    exact ⟨heq ▸ h,type_stable event⟩
  · exact hs.sent id type hid

/-- A record is written whose frames are printable. -/
theorem Named.setRecord (hs : s.Named) {i : String} {r : ToolRecord}
    (hrecord : ∀ id', s'.record id' = if id' = i then some r else s.record id')
    (hr : ∀ event, r.resultPayload = some event ∨ r.followupPayload = some event → Text.isOpaqueId event.eventId) :
    ∀ id r event, s'.record id = some r → r.resultPayload = some event ∨ r.followupPayload = some event →
      Text.isOpaqueId event.eventId := by
  intro id' r' event hr' hevent
  rw [hrecord] at hr'
  split at hr'
  · obtain rfl := Option.some.inj hr'
    exact hr event hevent
  · exact hs.payload id' r' event hr' hevent

theorem requestFollowup_records (id id' : String) (r : ToolRecord) (event : ClientEvent) :
    (s.requestFollowup id r event).record id' =
      if id' = id then some { r with followupPayload := some event, state := .followupRequested } else s.record id' := by
  simp only [requestFollowup]
  split <;> simp [record,Session.setRecord,Dict.get_set]

/-- A new response changes the state of one record. -/
theorem introduce_payload (hs : s.Named) (response id : String) (r : ToolRecord) (event : ClientEvent)
    (hr : (s.addResponse response).startFollowup.record id = some r)
    (hevent : r.resultPayload = some event ∨ r.followupPayload = some event) : Text.isOpaqueId event.eventId := by
  simp only [startFollowup,addResponse] at hr
  split at hr
  · exact hs.payload id r event hr hevent
  · rename_i id' waiting _
    cases hrecord : s.tools.records.get id' with
    | none =>
      rw [hrecord] at hr
      exact hs.payload id r event hr hevent
    | some r' =>
      rw [hrecord] at hr
      simp only [record,Dict.get_set] at hr
      split at hr
      · obtain rfl := Option.some.inj hr
        exact hs.payload id' r' event hrecord hevent
      · exact hs.payload id r event hr hevent

theorem issued_cons {o : Observation} {log : List Observation} {j : TaskId} {purpose : Purpose} {event : ClientEvent}
    (h : .issued j purpose event ∈ o :: log) (ho : ∀ j purpose event, o ≠ .issued j purpose event) :
    .issued j purpose event ∈ log := (List.mem_cons.mp h).resolve_left fun heq => ho _ _ _ heq.symm

/-- What is put on the queue adds no frame to the log. -/
theorem issued_append {new log : List Observation} (hnew : ∀ o ∈ new, isStream o) {j : TaskId} {purpose : Purpose}
    {event : ClientEvent} (h : .issued j purpose event ∈ new ++ log) : .issued j purpose event ∈ log := by
  rcases List.mem_append.mp h with h | h
  · exact nomatch hnew _ h
  · exact h

theorem Move.named (h : Move c b t k s s') (hc : OpenedByClient c) (hf : isUuidHex b.fresh) (hs : s.Named) : s'.Named := by
  cases h
  case capture stage args _ ha => exact hs.capture ha hc.generation
  case remember event hm => exact hs.remember (hm.isOpaqueId hc hf)
  case looked payload fields hfields =>
    exact ⟨hs.sent,safeEventFields_safe hfields,hs.context,hs.issued,hs.payload,hs.closing⟩
  case pendClose reason event _ _ hm =>
    refine ⟨hs.sent,hs.last,hs.context,hs.issued,hs.payload,fun id hid => ?_⟩
    obtain rfl := Option.some.inj hid
    exact hm.isOpaqueId hc hf
  case issue purpose event _ hm =>
    refine ⟨hs.sent,hs.last,hs.context,fun j purpose' event' h => ?_,hs.payload,hs.closing⟩
    rcases List.mem_cons.mp h with heq | h
    · obtain ⟨rfl,rfl,rfl⟩ := Observation.issued.inj heq
      obtain hm | ⟨id,r,hr,hevent⟩ := hm
      · exact hm.isOpaqueId hc hf
      · exact hs.payload id r event' hr hevent
    · exact hs.issued j purpose' event' h
  case result id output r event _ _ hr _ _ _ hm =>
    refine hs.of_same rfl rfl (fun _ _ _ h => h) (hs.setRecord (fun _ => setRecord_record id _ _) fun event' hevent => ?_)
    rcases hevent with hevent | hevent
    · obtain rfl := Option.some.inj hevent
      exact hm.isOpaqueId hc hf
    · exact hs.payload id r event' hr (.inr hevent)
  case followup id output r event _ hr _ hm =>
    refine hs.of_same (by rw [requestFollowup_frame]) (by rw [requestFollowup_frame])
      (fun j purpose event' h => by rwa [requestFollowup_frame] at h)
      (hs.setRecord (fun id' => requestFollowup_records id id' r event) fun event' hevent => ?_)
    rcases hevent with hevent | hevent
    · exact hs.payload id r event' hr (.inl hevent)
    · obtain rfl := Option.some.inj hevent
      exact hm.isOpaqueId hc hf
  case output id output r _ _ hr _ =>
    exact hs.of_same rfl rfl (fun _ _ _ h => h) (hs.setRecord (fun _ => setRecord_record id _ _) fun event hevent =>
      hs.payload id r event hr hevent)
  case spawnAttempt id output r _ hr _ _ =>
    refine hs.of_same rfl rfl (fun _ _ _ h => h) (hs.setRecord (i := id)
      (fun id' => setRecord_record (s := s.spawn (.attempt id output)) id id' _) fun event hevent => ?_)
    exact hs.payload id r event hr hevent
  case ackResult id r _ hr _ =>
    refine hs.of_same rfl rfl (fun _ _ _ h => issued_cons h fun _ _ _ heq => by cases heq) (hs.setRecord (i := id)
      (fun id' => setRecord_record id id' _) fun event hevent => ?_)
    exact hs.payload id r event hr hevent
  case register call _ _ _ =>
    refine hs.of_same (by rw [registerTool_frame]) (by rw [registerTool_frame])
      (fun _ _ _ h => by rwa [registerTool_frame] at h) (hs.setRecord (i := call.callId) (r := {}) (fun id' => ?_) (by simp))
    rw [registerTool_frame]
    simp [record,Dict.get_set]
  case introduce response _ _ _ =>
    refine hs.of_same (by rw [introduce_frame]) (by rw [introduce_frame]) (fun _ _ _ h => by rwa [introduce_frame] at h) ?_
    exact introduce_payload hs response
  case finish response batch _ _ _ _ _ =>
    refine hs.of_same (by rw [endResponse_frame]) (by rw [endResponse_frame]) (fun j purpose event h => ?_) ?_
    · obtain ⟨new,hlog,hnew⟩ := endResponse_log (c := c) (t := t) (s := s) response batch
      rw [hlog] at h
      refine issued_append (fun o ho => ?_) (issued_cons h fun _ _ _ heq => by cases heq)
      rw [(hnew o ho).1]
      rfl
    · rw [endResponse_frame]
      exact hs.payload
  case publish e i d _ _ =>
    have hlog : ∀ j purpose event, .issued j purpose event ∈ (s.publish c t e i d).log → .issued j purpose event ∈ s.log := by
      intro j purpose event h
      obtain ⟨new,failure,hlog,hnew,_⟩ := publish_log (c := c) (t := t) (s := s) e i d
      rw [hlog] at h
      refine issued_cons (issued_append (fun o ho => ?_) (issued_cons h fun _ _ _ heq => by cases heq)) fun _ _ _ heq => by cases heq
      rw [(hnew o ho).1]
      rfl
    have hcontrol : (s.publish c t e i d).control.pendingEventId = s.control.pendingEventId := by rw [publish_frame]
    have hpayload : ∀ id r event, (s.publish c t e i d).record id = some r →
        r.resultPayload = some event ∨ r.followupPayload = some event → Text.isOpaqueId event.eventId := by
      rw [publish_frame]
      exact hs.payload
    have hfailure := publish_failure (c := c) (t := t) (s := s) e i d
    cases e with
    | failed failed =>
      have hcaptured : (s.capture c "adapter.apply").Named := hs.capture (captures_error (by decide)) hc.generation
      exact hcaptured.of_same hfailure hcontrol hlog hpayload
    | closed closed => exact hs.of_same hfailure hcontrol hlog hpayload
  case conclude reason ack _ _ _ _ =>
    refine hs.of_same (by rw [concludeClose_frame]) (by rw [concludeClose_frame]) (fun j purpose event h => ?_) ?_
    · obtain ⟨new,u,hlog,hnew,_⟩ := concludeClose_log (c := c) (t := t) (s := s) reason ack
      rw [hlog] at h
      refine issued_append (fun o ho => ?_) (issued_cons h fun _ _ _ heq => by cases heq)
      obtain ⟨rfl,_⟩ | ⟨_,_,rfl,_⟩ := hnew o ho <;> rfl
    · rw [concludeClose_frame]
      exact hs.payload
  case ackContext d _ =>
    refine hs.of_same (by rw [acknowledgeContext_frame]) (by rw [acknowledgeContext_frame]) (fun j purpose event h => ?_) ?_
    · obtain hlog | ⟨_,_,hlog,_⟩ := acknowledgeContext_log (s := s) d
      · rwa [hlog] at h
      · rw [hlog] at h
        exact issued_cons h fun _ _ _ heq => by cases heq
    · rw [acknowledgeContext_frame]
      exact hs.payload
  all_goals
    first
    | exact hs.of_same rfl rfl (fun _ _ _ h => h) hs.payload
    | exact hs.of_same rfl rfl (fun _ _ _ h => issued_cons h fun _ _ _ heq => by cases heq) hs.payload

theorem named_fresh (hc : OpenedByClient c) (shared : Shared) (id : String) : ((fresh c shared).useId id).Named := by
  obtain ⟨part,hpart,hevents⟩ := hc.opened
  have hopen : Text.isOpaqueId ("ctl_open_" ++ part) := opaque_of_hex (by decide) (by decide) hpart
  have hsent : ∀ id type, c.clientEvents.get id = some type → Text.isOpaqueId id ∧ Text.isStableWord type := by
    intro id' type hid
    rw [hevents,Dict.get_set] at hid
    split at hid
    · rename_i heq
      obtain rfl := Option.some.inj hid
      exact ⟨heq ▸ hopen,by decide⟩
    · simp at hid
  have hrecord : ∀ id', ((fresh c shared).useId id).record id' = none := fun id' => rfl
  have hstart : Text.isStableWord "session.start" := by decide
  refine ⟨hsent,⟨hstart,fun _ hname => (by cases hname)⟩,fun f hf => (by cases hf),fun _ _ _ h => (by cases h),
    fun id' r event hr => ?_,fun id' hid => (by cases hid)⟩
  rw [hrecord id'] at hr
  cases hr

theorem Named.wake {a : Action} {m : Prog A Unit} (hs : s.Named) (h : Stretch c s a t k m u) : u.Named := by
  have hframe := h.frame
  refine hs.of_same (by rw [hframe]) (by rw [hframe]) (fun _ _ _ h => by rwa [hframe] at h) ?_
  rw [hframe]
  exact hs.payload

theorem Stretch.usedIds {a : Action} {m : Prog A Unit} (h : Stretch c s a t k m u) :
    (brings c s a).fresh ∈ u.usedIds ∧ ∀ id ∈ s.usedIds, id ∈ u.usedIds := by
  cases h with
  | call call fresh _ =>
    have hfresh : (brings c s (.call call fresh)).fresh = fresh := by cases call <;> rfl
    rw [hfresh]
    exact ⟨Finset.mem_insert_self _ _,fun _ => Finset.mem_insert_of_mem⟩
  | resume t signal fresh task m _ _ _ =>
    rw [brings_fresh]
    exact ⟨Finset.mem_insert_self _ _,fun _ => Finset.mem_insert_of_mem⟩

theorem Named.consume (hs : s.Named) (h : s.consume c = some s') : s'.Named := by
  obtain ⟨output,counters,new,rfl,hnew⟩ := consume_frame h
  refine hs.of_same rfl rfl (fun j purpose event h => ?_) hs.payload
  rcases List.mem_append.mp h with h | h
  · obtain ⟨_,heq⟩ := hnew _ h
    exact nomatch heq
  · exact h

theorem Named.setTask (hs : s.Named) (j : TaskId) (state : TaskState) : (s.setTask j state).Named :=
  hs.of_same rfl rfl (fun _ _ _ h => h) hs.payload

/-- The ids that have been used are fresh parts, and so everything that a failure may refer to is printable. -/
theorem named_invariant (hc : OpenedByClient c) : Invariant c anyStep (fun s => (∀ id ∈ s.usedIds, isUuidHex id) → s.Named)
    fun b _ _ s => b.fresh ∈ s.usedIds ∧ ((∀ id ∈ s.usedIds, isUuidHex id) → s.Named) where
  start shared id := ⟨Finset.mem_insert_self _ _,fun _ => named_fresh hc shared id⟩
  wake _ hs _ hst := ⟨hst.usedIds.1,fun hids => (hs fun id hid => hids id (hst.usedIds.2 id hid)).wake hst⟩
  move _ hm hs := by
    rw [hm.usedIds]
    exact ⟨hs.1,fun hids => hm.named hc (hids _ hs.1) (hs.2 hids)⟩
  park _ _ _ hs _ hids := (hs.2 hids).setTask _ _
  stop _ _ _ hs _ hids := (hs.2 hids).setTask _ _
  consume _ hs h hids := by
    have hused := consume_frame h
    obtain ⟨output,counters,new,rfl,_⟩ := hused
    exact (hs hids).consume h
  interfere _ hs hids := (hs hids).of_same rfl rfl (fun _ _ _ h => h) (hs hids).payload

/-! The first context stays. -/

theorem Move.context_kept (h : Move c b t k s s') {f : RealtimeFailureContext} (hs : s.failure.context = some f) :
    s'.failure.context = some f := by
  cases h
  case capture stage args _ _ => simp only [Session.capture,FailureState.capture,hs]
  case publish e i d _ _ =>
    rw [publish_failure]
    cases e with
    | failed failed => simp only [Session.capture,FailureState.capture,hs]
    | closed closed => exact hs
  case finish => rwa [endResponse_frame]
  case conclude => rwa [concludeClose_frame]
  case register => rwa [registerTool_frame]
  case followup => rwa [requestFollowup_frame]
  case introduce => rwa [introduce_frame]
  case ackContext => rwa [acknowledgeContext_frame]
  all_goals exact hs

theorem step_context (hp : Placed c s) {a : Action} (h : step c s a = some s') {f : RealtimeFailureContext}
    (hs : s.failure.context = some f) : s'.failure.context = some f := by
  obtain ⟨t,k,m,u,hst,rfl⟩ | ⟨_,h⟩ | ⟨shared,_,rfl⟩ := step_cases h
  · have hframe := hst.frame
    have hu : u.failure.context = some f := by
      rw [hframe]
      exact hs
    have hkept : (m u).state.failure.context = some f := moves_keep (I := fun v : Session A => v.failure.context = some f)
      (fun _ _ (hm : Move c _ _ _ _ _) hv => hm.context_kept hv) (hst.moves hp) hu
    exact hkept
  · obtain ⟨output,counters,new,rfl,_⟩ := consume_frame h
    exact hs
  · exact hs

/-! The terminal carries the context of its moment. -/

/-- The failure that a terminal carries. -/
def failureOf : RealtimeEvent → Option (Option RealtimeFailureContext)
  | .provider (.sessionFailed failed) => some failed.failure
  | .sessionClosed closed => some closed.failure
  | _ => none

theorem publish_terminals (e : TerminalEvent) (i : CloseInitiator) (d : CloseDisposition) : ∃ event,
    (s.publish c t e i d).terminals = (t,event) :: s.terminals ∧
      failureOf event = some (s.publish c t e i d).failure.context := by
  have hfailure := publish_failure (c := c) (t := t) (s := s) e i d
  have hput : ∀ u : Session A, u.terminals = s.terminals → u.failure = (s.publish c t e i d).failure →
      ((u.putTerminalSafe c t (e.event u.failure.context)).terminals = (t,e.event u.failure.context) :: s.terminals ∧
        failureOf (e.event u.failure.context) = some (s.publish c t e i d).failure.context) := by
    intro u hu hf
    obtain ⟨new,hlog,hnew⟩ := putTerminalSafe_log (c := c) (t := t) (s := u) (e.event u.failure.context)
    constructor
    · rw [terminals,hlog,List.filterMap_cons_some (b := (t,e.event u.failure.context)) (by simp [terminalOf]),
        filterMap_log fun o ho => by rw [(hnew o ho).1]; rfl]
      exact congrArg _ hu
    · rw [hf]
      cases e <;> rfl
  cases e with
  | failed failed => exact ⟨_,hput _ rfl hfailure.symm⟩
  | closed closed => exact ⟨_,hput _ rfl hfailure.symm⟩

theorem conclude_terminals (reason : String) (ack : Option SessionClosed) : ∃ event,
    (s.concludeClose c t reason ack).terminals = (t,event) :: s.terminals ∧
      failureOf event = some (s.concludeClose c t reason ack).failure.context := by
  obtain ⟨new,hlog,hnew,_⟩ := settleResponse_log (c := c) (t := t) (s := s.cancelCloseAck)
  obtain ⟨new',hlog',hnew'⟩ := putTerminalSafe_log (c := c) (t := t) (s := s.cancelCloseAck.settleResponse c t)
    ((s.cancelCloseAck.settleResponse c t).closedEvent reason ack)
  refine ⟨(s.cancelCloseAck.settleResponse c t).closedEvent reason ack,?_,?_⟩
  · have hsettled : (s.cancelCloseAck.settleResponse c t).terminals = s.terminals := by
      rw [terminals,hlog,cancelCloseAck_log,filterMap_log fun o ho => ?_]
      · rfl
      · obtain ⟨rfl,_⟩ | ⟨_,_,rfl,hterminal⟩ := hnew o ho
        · rfl
        · simp [terminalOf,hterminal]
    simp only [concludeClose,putTerminal]
    rw [terminals,hlog',List.filterMap_cons_some (f := terminalOf)
        (b := (t,(s.cancelCloseAck.settleResponse c t).closedEvent reason ack)) (by simp [terminalOf]),
      filterMap_log fun o ho => by rw [(hnew' o ho).1]; rfl]
    exact congrArg _ hsettled
  · have hcontext : (s.cancelCloseAck.settleResponse c t).failure.context = (s.concludeClose c t reason ack).failure.context := by
      rw [concludeClose_frame,settleResponse_frame,cancelCloseAck_frame]
    rw [← hcontext]
    cases ack <;> rfl

/-- A move that puts a terminal. -/
theorem Move.terminals_carry (h : Move c b t k s s') : s'.terminals = s.terminals ∨
    ∃ event, s'.terminals = (t,event) :: s.terminals ∧ failureOf event = some s'.failure.context := by
  cases h
  case publish e i d _ _ => exact .inr (publish_terminals e i d)
  case conclude reason ack _ _ _ _ => exact .inr (conclude_terminals reason ack)
  case transcribed turnId text _ _ _ _ =>
    exact .inl (terminals_of_log [_] rfl (by simp [terminalOf,RealtimeEvent.isTerminal]))
  case put event _ _ hh _ _ _ => exact .inl (terminals_of_log [_] rfl (by simp [terminalOf,hh]))
  case finish response batch _ _ _ _ _ =>
    obtain ⟨new,hlog,hnew⟩ := endResponse_log (c := c) (t := t) (s := s) response batch
    refine .inl (terminals_of_log (_ :: new) hlog fun o ho => ?_)
    rcases List.mem_cons.mp ho with rfl | ho
    · simp [terminalOf,RealtimeEvent.isTerminal]
    · rw [(hnew o ho).1]
      rfl
  case register => exact .inl (congrArg (List.filterMap terminalOf) (by rw [registerTool_frame]))
  case followup => exact .inl (congrArg (List.filterMap terminalOf) (by rw [requestFollowup_frame]))
  case introduce => exact .inl (congrArg (List.filterMap terminalOf) (by rw [introduce_frame]))
  case ackContext d _ =>
    obtain hlog | ⟨_,_,hlog,_⟩ := acknowledgeContext_log (s := s) d
    · exact .inl (congrArg (List.filterMap terminalOf) hlog)
    · exact .inl (terminals_of_log [_] hlog (by simp [terminalOf]))
  all_goals exact .inl rfl

/-- Behind the terminal that it has put itself a stretch captures nothing. -/
theorem Move.context_stays (h : Move c b t k s s') (hp : s.terminal.published) (hl : b.late = false)
    (ho : s.terminal.owner.isSome) : s'.failure.context = s.failure.context := by
  cases h
  case capture stage args hlate _ =>
    have hcontra := hlate hp
    rw [hl] at hcontra
    exact nomatch hcontra
  case publish e i d howner _ =>
    rw [howner] at ho
    exact nomatch ho
  case finish => rw [endResponse_frame]
  case conclude => rw [concludeClose_frame]
  case register => rw [registerTool_frame]
  case followup => rw [requestFollowup_frame]
  case introduce => rw [introduce_frame]
  case ackContext => rw [acknowledgeContext_frame]
  all_goals rfl

theorem Move.published_kept (h : Move c b t k s s') (hp : s.terminal.published) : s'.terminal.published := by
  cases h.terminalMove with
  | quiet _ _ published => rwa [published]
  | publish _ _ _ _ _ _ published => exact published
  | claimClean _ _ _ _ _ published => rwa [published]
  | conclude _ _ _ _ published => exact published

/-- What a stretch that brings `b` has put: no terminal, or one that carries what is captured. -/
structure Announced (b : Brings) (before : List (TaskId × RealtimeEvent)) (s : Session A) : Prop where
  late : b.late → s.terminal.published
  carries : s.terminals = before ∨ (b.late = false ∧ s.terminal.published ∧
    ∃ t event, s.terminals = (t,event) :: before ∧ failureOf event = some s.failure.context)

theorem Announced.move {before : List (TaskId × RealtimeEvent)} (hr : Running c s t k) (h : Move c b t k s s')
    (hs : Announced b before s) : Announced b before s' := by
  refine ⟨fun hl => h.published_kept (hs.late hl),?_⟩
  have hterminals := h.terminals_carry
  rcases hs.carries with hbefore | ⟨hlate,hpublished,j,event,hput,hcarries⟩
  · obtain hsame | ⟨event,hnew,hcarries⟩ := hterminals
    · exact .inl (hsame.trans hbefore)
    · right
      have hfree : ¬s.terminal.published ∧ s'.terminal.published := by
        cases h.terminalMove with
        | quiet _ _ _ _ _ terminals => simp [terminals] at hnew
        | claimClean _ _ _ _ _ _ _ terminals => simp [terminals] at hnew
        | publish _ _ _ free _ _ published =>
          refine ⟨fun hp => ?_,published⟩
          have howned := hr.owned hp
          rw [free] at howned
          exact nomatch howned
        | conclude _ concluding _ _ published => exact ⟨concluding.2.2,published⟩
      refine ⟨?_,hfree.2,t,event,by rw [hnew,hbefore],hcarries⟩
      cases hl : b.late with
      | false => rfl
      | true => exact absurd (hs.late hl) hfree.1
  · right
    refine ⟨hlate,h.published_kept hpublished,j,event,?_,?_⟩
    · -- the terminal is the only one
      cases h.terminalMove with
      | quiet _ _ _ _ _ terminals => rw [terminals,hput]
      | claimClean _ _ _ _ _ _ _ terminals => rw [terminals,hput]
      | publish _ _ _ free =>
        have howned := hr.owned hpublished
        rw [free] at howned
        exact nomatch howned
      | conclude _ concluding => exact absurd hpublished concluding.2.2
    · rw [h.context_stays hpublished hlate (hr.owned hpublished)]
      exact hcarries

theorem Announced.moves {before : List (TaskId × RealtimeEvent)} (hr : Running c s t k) (h : Moves c b t k s s')
    (hs : Announced b before s) : Announced b before s' := by
  have hboth := moves_keep (I := fun u => Running c u t k ∧ Announced b before u)
    (fun _ _ hm hu => ⟨hm.running hu.1,hu.2.move hu.1 hm⟩) h ⟨hr,hs⟩
  exact hboth.2

/-- The terminal that a session has put since then carries what the session has captured. -/
def Announces (before : List (TaskId × RealtimeEvent)) (s : Session A) : Prop :=
  s.terminals = before ∨ ∃ t event, s.terminals = (t,event) :: before ∧ failureOf event = some s.failure.context

theorem Announced.announces {before : List (TaskId × RealtimeEvent)} (h : Announced b before s) : Announces before s :=
  h.carries.imp_right fun hnew => hnew.2.2

theorem step_announces (hp : Placed c s) {a : Action} (h : step c s a = some s') : Announces s.terminals s' := by
  obtain ⟨t,k,m,u,hst,rfl⟩ | ⟨_,h⟩ | ⟨shared,_,rfl⟩ := step_cases h
  · have hframe := hst.frame
    have hbegin : Announced (brings c s a) s.terminals u := by
      rw [hframe]
      refine ⟨fun hl => ?_,.inl rfl⟩
      rwa [brings_late] at hl
    exact (hbegin.moves (hst.running hp) (hst.moves hp)).announces
  · obtain ⟨output,counters,new,rfl,hnew⟩ := consume_frame h
    refine .inl (terminals_of_log new rfl fun o ho => ?_)
    obtain ⟨event,rfl⟩ := hnew o ho
    rfl
  · exact .inl rfl

theorem init_announces (h : Init c s) : Announces [] s := by
  obtain ⟨shared,id,rfl⟩ := h
  rw [runTask_eq]
  have hbegin : Announced { fresh := id, opens := true } [] ((fresh c shared).useId id) := ⟨fun hl => (nomatch hl),.inl rfl⟩
  exact (hbegin.moves running_fresh does_start.moves).announces

/-- The first failure of a session is captured without an error, stays, and goes with the terminal. -/
theorem first_cause_wins (hc : OpenedByClient c) (h : Reachable c s) (hids : ∀ id ∈ s.usedIds, isUuidHex id) :
    (∀ f, s.failure.context = some f → f.postInit = .ok ()) ∧
    (∀ u, Steps (step c) anyStep s u → ∀ f, s.failure.context = some f → u.failure.context = some f) ∧
    (Init c s → Announces [] s) ∧ ∀ a s', step c s a = some s' → Announces s.terminals s' := by
  have hplaced := placed h
  refine ⟨((named_invariant hc).reachable h hids).context,fun u hu f hf => ?_,init_announces,fun a s' hstep => ?_⟩
  · have hboth := hu.invariant (I := fun u => Placed c u ∧ u.failure.context = some f)
      (fun _ _ _ hI _ hstep => ⟨hI.1.step hstep,step_context hI.1 hstep hI.2⟩) ⟨hplaced,hf⟩
    exact hboth.2
  · exact step_announces hplaced hstep

section

open QwenOmni (sample)

/-- The sample as the client opens it. -/
def openedSample : SessionConfig QwenOmniAdapter :=
  { sample with clientEvents := (∅ : Dict String String).set "ctl_open_0123456789abcdef0123456789abcdef" "tokenseller.session.open" }

theorem openedSample_opened : OpenedByClient openedSample :=
  ⟨by decide,QwenOmni.adapter_namesFrames,"0123456789abcdef0123456789abcdef",by decide,rfl⟩

def openedStart : Session QwenOmniAdapter :=
  runTask 0 (startSession openedSample 0 "00000000000000000000000000000000")
    (useId (fresh openedSample {}) "00000000000000000000000000000000")

/-- The first frame is not sent in time. -/
theorem first_cause_wins_timeout : ∃ s, Reachable openedSample s ∧
    (∃ f, s.failure.context = some f ∧ f.relatedEventId = some "event_00000000000000000000000000000000" ∧ f.postInit = .ok ()) ∧
    ∀ a s', step openedSample s a = some s' → Announces s.terminals s' := by
  have hsample : ∃ s, Transition.exec (step openedSample) openedStart [.resume 0 .timeout "11111111111111111111111111111111"] = some s ∧
      (∀ id ∈ s.usedIds, isUuidHex id) ∧
      ∃ f, s.failure.context = some f ∧ f.relatedEventId = some "event_00000000000000000000000000000000" := by
    refine ⟨_,rfl,by decide,_,rfl,rfl⟩
  obtain ⟨s,hexec,hids,f,hf,hrelated⟩ := hsample
  have hreach : Reachable openedSample s := Transition.exec_reachable _ ⟨_,_,rfl⟩ hexec
  have hwins := first_cause_wins openedSample_opened hreach hids
  exact ⟨s,hreach,⟨f,hf,hrelated,hwins.1 f hf⟩,hwins.2.2.2⟩

end

end Session
end HarnessSdk
