import HarnessSdk.QwenSession

/-!
# The two streams of the Qwen adapter

An item event of a response without the id of a response belongs to the user, or it is refused; one
with the id of a response never says anything about spoken input.
-/

namespace HarnessSdk
namespace QwenOmni

open Run (ends_pure ends_raise ends_get ends_modify_bind ends_ofExcept ends_trivial)

/-- A transcript of spoken input for the item `itemId`. -/
def ProviderEvent.transcribes (itemId : String) : ProviderEvent → Prop
  | .transcriptDelta turnId _ | .transcriptCompleted turnId _ => turnId = itemId
  | _ => False

/-- The decoded event introduces, completes and acknowledges nothing. -/
structure Idle (d : DecodedProviderEvent) : Prop where
  response : d.introducedResponseId = none
  item : d.introducedItem = none ∧ d.introducedItemDetail = none ∧ d.completedItem = none
  content : d.introducedContent = none ∧ d.completedContent = none
  tool : d.toolCallIdentity = none ∧ d.toolAckIdentity = none
  context : d.contextAckId = none ∧ d.contextRequestId = none ∧ d.rejectedEventId = none
  session : d.providerReady = false ∧ d.sessionAcknowledged = false

/-- At most one transcript, for an item that the table knows as the user's. -/
def UserTranscript (table : RealtimeIdentityTable) (events : List ProviderEvent) : Prop :=
  events = [] ∨ ∃ itemId event, table.isUser itemId ∧ ProviderEvent.transcribes itemId event ∧ events = [event]

/-- What an item event without a response may come to. -/
structure UserSide (table : RealtimeIdentityTable) (d : DecodedProviderEvent) : Prop where
  idle : Idle d
  events : UserTranscript table d.events

/-- No event is a transcript of spoken input. -/
def AssistantSide (d : DecodedProviderEvent) : Prop := ∀ event ∈ d.events, ∀ itemId, ¬ProviderEvent.transcribes itemId event

def IsProtocolError (e : Exn) : Prop := ∃ error : RealtimeError, e = .realtime error ∧ error.code = .protocolError

theorem invalidField_protocol {α : Type} {name message reason : String} {e : Exn}
    (h : (invalidField name message reason : Except Exn α) = .error e) : IsProtocolError e := by
  obtain rfl := Except.error.inj h
  exact ⟨_,rfl,rfl⟩

theorem requireString_protocol {value : Option Json} {name : String} {e : Exn} (h : requireString value name = .error e) :
    IsProtocolError e := by
  unfold requireString at h
  split at h
  · simp at h
  · exact invalidField_protocol h

/-! Events without a response. -/

theorem userSideItem_protocol {frame : ServerFrame} {e : Exn} (h : userSideItem frame = .error e) : IsProtocolError e := by
  unfold userSideItem at h
  dsimp only at h
  split at h
  · split at h
    · obtain rfl := Except.error.inj h
      exact ⟨_,rfl,rfl⟩
    · simp [pure,Except.pure] at h
  · simp [pure,Except.pure] at h

theorem outputItemRole_protocol {nested : Json.Object} {inResponse : Bool} {e : Exn}
    (h : outputItemRole nested inResponse = .error e) : IsProtocolError e := by
  unfold outputItemRole at h
  split at h
  · split at h
    · simp at h
    · exact invalidField_protocol h
  · simp at h

variable {frame : ServerFrame} {s : DecoderState QwenOmniAdapter}

/-- Without a response nothing is registered in front of the classification. -/
theorem registerOutputItem_unscoped (h : optionalIdentifier (Json.field frame.value "response_id") = none) :
    Run.Ends (fun settled u => settled = false ∧ u = s) (fun e _ => IsProtocolError e) (registerOutputItem frame) s := by
  unfold registerOutputItem
  split
  · exact ends_pure ⟨rfl,rfl⟩
  · split
    · exact ends_pure ⟨rfl,rfl⟩
    · have hscope : (optionalIdentifier (Json.field frame.value "response_id")).isSome = false := by rw [h]; rfl
      simp only [hscope,Bool.false_and,Bool.false_eq_true,if_false]
      refine ends_ofExcept (fun role _ => ?_) fun e he => outputItemRole_protocol he
      split <;> exact ends_pure ⟨rfl,rfl⟩

theorem userSide_userSideResponseEvent :
    Run.Ends (fun d _ => UserSide s.table d) (fun e _ => IsProtocolError e) (userSideResponseEvent frame) s := by
  have hidle : ∀ ignored notice, UserSide s.table { eventId := frame.eventId, userSideTranscriptIgnored := ignored
                                                    userSideResponseEventIgnored := notice } := by
    intro ignored notice
    exact ⟨by constructor <;> simp,.inl rfl⟩
  refine ends_ofExcept (fun itemId _ => ends_get ?_) fun e he => userSideItem_protocol he
  split
  · cases hm : (missingResponse s.table itemId : Except Exn DecodedProviderEvent) with
    | ok d => simp [missingResponse,invalidField] at hm
    | error e => exact ends_raise (invalidField_protocol hm)
  · rename_i itemId' hitem
    have huser : s.table.isUser itemId' := (Option.filter_eq_some_iff.mp hitem).2
    split
    · rename_i key isDelta _
      refine Run.Ends.ite (fun _ => ends_pure (hidle _ _)) fun _ => ?_
      refine ends_ofExcept (fun text _ => ends_pure ⟨by constructor <;> simp,?_⟩) fun e he => requireString_protocol he
      cases isDelta with
      | true => exact .inr ⟨itemId',.transcriptDelta itemId' text,huser,rfl,rfl⟩
      | false => exact .inr ⟨itemId',.transcriptCompleted itemId' text,huser,rfl,rfl⟩
    · exact ends_pure (hidle _ _)

/-- An item event without a response is refused or belongs to the user. -/
theorem userSide_decodeServerFrame (hscoped : isResponseScoped frame.type)
    (h : optionalIdentifier (Json.field frame.value "response_id") = none) :
    Run.Ends (fun d _ => UserSide s.table d) (fun e _ => IsProtocolError e) (decodeServerFrame frame) s := by
  have hsession : (frame.type == "session.updated") = false := by
    by_contra hne
    have heq : frame.type = "session.updated" := by simpa using hne
    rw [heq] at hscoped
    revert hscoped
    decide
  have hrest : Run.Ends (fun d _ => UserSide s.table d) (fun e _ => IsProtocolError e)
      (if isResponseScoped frame.type && (optionalIdentifier (Json.field frame.value "response_id")).isNone then
        userSideResponseEvent frame else decodeFrame frame) s := by
    rw [hscoped,h]
    exact userSide_userSideResponseEvent
  refine ends_get (Run.Ends.ite (fun _ => ?_) fun _ => ?_)
  · refine ends_pure ⟨?_,.inl rfl⟩
    constructor <;> simp [hsession]
  · refine Run.Ends.bind (P := fun settled u => settled = false ∧ u = s) ?_ ?_
    · exact Run.Ends.ite (fun _ => registerOutputItem_unscoped h) fun _ => ends_pure ⟨rfl,rfl⟩
    · rintro settled u ⟨rfl,rfl⟩
      exact hrest

/-! Events of a response. -/

theorem assistantSide_nil {d : DecodedProviderEvent} (h : d.events = []) : AssistantSide d := by
  intro event hin
  simp [h] at hin

theorem assistantSide_one {d : DecodedProviderEvent} {event : ProviderEvent} (h : d.events = [event])
    (hno : ∀ itemId, ¬ProviderEvent.transcribes itemId event) : AssistantSide d := by
  intro event' hin
  obtain rfl : event' = event := by simpa [h] using hin
  exact hno

abbrev Assists (m : QwenDecoder DecodedProviderEvent) (u : DecoderState QwenOmniAdapter) : Prop :=
  Run.Ends (fun d _ => AssistantSide d) (fun _ _ => True) m u

theorem assists_ofExcept {α : Type} {x : Except Exn α} {m : α → QwenDecoder DecodedProviderEvent}
    (h : ∀ a, x = .ok a → Assists (m a) s) : Assists (Run.ofExcept x >>= m) s :=
  ends_ofExcept h fun _ _ => trivial

theorem assists_outputItemEvent {added : Bool} : Assists (outputItemEvent frame added) s := by
  refine assists_ofExcept fun detail _ => ?_
  cases added with
  | true => exact ends_pure (assistantSide_nil rfl)
  | false => exact ends_pure (assistantSide_nil rfl)

theorem assists_contentPartEvent {added : Bool} : Assists (contentPartEvent frame added) s := by
  refine assists_ofExcept fun identity _ => assists_ofExcept fun part _ => ?_
  cases added with
  | true =>
    refine ends_pure ?_
    by_cases haudio : Json.isString (Json.field part "type") "audio" = true
    · have hevents : (if Json.isString (Json.field part "type") "audio" then [.outputAudioStarted identity] else []) =
          [ProviderEvent.outputAudioStarted identity] := if_pos haudio
      exact assistantSide_one hevents fun _ h => h
    · exact assistantSide_nil (by simp [haudio])
  | false => exact ends_pure (assistantSide_nil rfl)

theorem assists_outputText {key : String} {isDelta : Bool} : Assists (outputText frame key isDelta) s :=
  assists_ofExcept fun _ _ => assists_ofExcept fun _ _ => ends_pure (assistantSide_one rfl fun _ h => h)

theorem responseDone_assists {d : DecodedProviderEvent} (h : responseDone frame = .ok d) : AssistantSide d := by
  unfold responseDone at h
  obtain ⟨response,_,h⟩ := except_bind_ok h
  obtain ⟨responseId,_,h⟩ := except_bind_ok h
  obtain ⟨status,_,h⟩ := except_bind_ok h
  obtain ⟨usage,_,h⟩ := except_bind_ok h
  dsimp only at h
  by_cases husage : status ≠ .failed ∧ status ≠ .cancelled ∧ usage = none
  · rw [if_pos husage] at h
    simp [protocolError,bind,Except.bind] at h
  · rw [if_neg husage] at h
    obtain rfl := Except.ok.inj h
    intro event hin itemId
    by_cases hfailed : status = .failed
    · obtain rfl | rfl : event = .responseFinished { responseId, status, usage } ∨
          event = .sessionFailed { code := .protocolError, retryable := false } := by simpa [hfailed] using hin
      · exact id
      · exact id
    · obtain rfl : event = .responseFinished { responseId, status, usage } := by simpa [hfailed] using hin
      exact id

theorem assists_responseDone : Assists (Run.ofExcept (responseDone frame)) s := by
  cases hd : responseDone frame with
  | error e => exact ends_raise trivial
  | ok d => exact ends_pure (responseDone_assists hd)

/-- A frame whose type is that of a response event. -/
theorem assists_decodeFrame (h : Text.startsWith frame.type "response.") : Assists (decodeFrame frame) s := by
  unfold decodeFrame
  split
  case h_8 => exact assists_ofExcept fun _ _ => assists_ofExcept fun _ _ => ends_pure (assistantSide_one rfl fun _ h => h)
  case h_9 => exact assists_outputItemEvent
  case h_10 => exact assists_outputItemEvent
  case h_11 => exact assists_contentPartEvent
  case h_12 => exact assists_contentPartEvent
  case h_13 => exact assists_outputText
  case h_14 => exact assists_outputText
  case h_15 => exact assists_ofExcept fun _ _ => assists_ofExcept fun _ _ => ends_pure (assistantSide_one rfl fun _ h => h)
  case h_16 => exact assists_ofExcept fun _ _ => ends_pure (assistantSide_one rfl fun _ h => h)
  case h_17 => exact assists_outputText
  case h_18 => exact assists_outputText
  case h_19 => exact assists_ofExcept fun _ _ => ends_pure (assistantSide_one rfl fun _ h => h)
  case h_21 => exact assists_responseDone
  case h_23 => exact ends_pure (assistantSide_nil rfl)
  -- the other types name no response
  all_goals
    rename_i htype
    rw [htype] at h
    exact absurd h (by decide)

theorem assists_decodeServerFrame (htype : Text.startsWith frame.type "response.")
    (h : (optionalIdentifier (Json.field frame.value "response_id")).isSome) : Assists (decodeServerFrame frame) s := by
  have hscope : (optionalIdentifier (Json.field frame.value "response_id")).isNone = false := by
    cases hid : optionalIdentifier (Json.field frame.value "response_id") with
    | none => simp [hid] at h
    | some id => rfl
  refine ends_get (Run.Ends.ite (fun _ => ends_pure (assistantSide_nil rfl)) fun _ => ?_)
  refine Run.Ends.bind (P := fun _ _ => True) ends_trivial fun settled u _ => ?_
  refine Run.Ends.ite (fun _ => ends_pure (assistantSide_nil rfl)) fun _ => ?_
  rw [hscope,Bool.and_false]
  exact assists_decodeFrame htype

/-! Whole frames. -/

theorem decoding_ends {payload : Payload} {a : QwenOmniAdapter} {t : RealtimeIdentityTable}
    {P : DecodedProviderEvent → Prop} {E : Exn → Prop} (hframe : wireDecode payload = .ok frame)
    (h : Run.Ends (fun d _ => P d) (fun e _ => E e) (decodeServerFrame frame) ⟨a,t⟩) :
    (∃ e, (decodeServerEvent payload a t).result = .error e ∧ E e) ∨
      ∃ d, (decodeServerEvent payload a t).result = .ok d ∧ P d := by
  unfold decodeServerEvent Decoder.decoding
  simp only [hframe,Run.ofExcept,Run.pure_bind_apply]
  cases hd : decodeServerFrame frame ⟨a,t⟩ with
  | ok d u => exact .inr ⟨d,rfl,h.ok d u hd⟩
  | raise e u => exact .inl ⟨e,rfl,h.raised e u hd⟩
  | park p => cases p

/-- Whatever the adapter has seen and whatever stands in the table, an item event without a response is a
protocol error or belongs to an item of the user, and an event with a response is no transcript of spoken
input. -/
theorem streams_never_mix (payload : Payload) (a : QwenOmniAdapter) (t : RealtimeIdentityTable)
    (hframe : wireDecode payload = .ok frame) (htype : Text.startsWith frame.type "response.") :
    (isResponseScoped frame.type → optionalIdentifier (Json.field frame.value "response_id") = none →
      (∃ e, (decodeServerEvent payload a t).result = .error e ∧ IsProtocolError e) ∨
        ∃ d, (decodeServerEvent payload a t).result = .ok d ∧ UserSide t d) ∧
    ((optionalIdentifier (Json.field frame.value "response_id")).isSome →
      ∀ d, (decodeServerEvent payload a t).result = .ok d → AssistantSide d) := by
  refine ⟨fun hscoped hid => decoding_ends hframe (userSide_decodeServerFrame (s := ⟨a,t⟩) hscoped hid),fun hid d hd => ?_⟩
  obtain ⟨e,he,_⟩ | ⟨d',hd',hassist⟩ := decoding_ends (E := fun _ => True) (a := a) (t := t) hframe
    (assists_decodeServerFrame htype hid)
  · simp [hd] at he
  · rw [hd] at hd'
    exact (Except.ok.inj hd') ▸ hassist

/-- What the user says while nothing has been said before. -/
def spokenTable : RealtimeIdentityTable :=
  match ({} : RealtimeIdentityTable).register "item" .user "speech_started" false with
  | .ok r => r.1
  | .error _ => {}

def spokenFrame : ServerFrame := ⟨"response.audio_transcript.done","event_1",
  [("type",.str "response.audio_transcript.done"), ("event_id",.str "event_1"), ("item_id",.str "item"),
    ("transcript",.str "Hello.")]⟩

def spokenPayload : Payload :=
  serverFrame "response.audio_transcript.done" "event_1" [("item_id",.str "item"), ("transcript",.str "Hello.")]

/-- A transcript without a response is the user's. -/
theorem streams_never_mix_spoken :
    ((∃ e, (decodeServerEvent spokenPayload {} spokenTable).result = .error e ∧ IsProtocolError e) ∨
      ∃ d, (decodeServerEvent spokenPayload {} spokenTable).result = .ok d ∧ UserSide spokenTable d) ∧
      (match (decodeServerEvent spokenPayload {} spokenTable).result with
        | .ok d => decide (d.events.length = 1)
        | .error _ => false) = true := by
  have hframe : wireDecode spokenPayload = .ok spokenFrame := rfl
  refine ⟨(streams_never_mix spokenPayload {} spokenTable hframe (by decide)).1 (by decide) (by decide),?_⟩
  decide

end QwenOmni
end HarnessSdk
