import HarnessSdk.FailsClosed
import HarnessSdk.OpenAIRealtime

/-!
# What escapes from the provider decoders

A provider frame is decoded, or refused with an error of the package, unless it has the decoder look up a
list or an object in a set, or register an item under an id that the identity table does not take.
-/

namespace HarnessSdk
namespace QwenOmni

variable {P : Prop} {frame : ServerFrame} {s : DecoderState QwenOmniAdapter}

/-! What the adapter reads from a frame. -/

theorem closed_unsupported {α : Type} {message : String} : Closed P (unsupported message : Except Exn α) := closed_realtime

theorem closed_contentIdentity {value : Json.Object} : Closed P (contentIdentity value) := by
  apply closed_requireIdentifier.bind
  intro responseId _
  apply closed_requireIdentifier.bind
  intro itemId _
  apply closed_requireNonnegativeInteger.bind
  intro outputIndex _
  exact closed_requireNonnegativeInteger.bind fun contentIndex _ => closed_pure

theorem closed_outputItem : Closed P (outputItem frame) := by
  apply closed_requireIdentifier.bind
  intro responseId _
  apply closed_requireObject.bind
  intro item _
  apply closed_requireIdentifier.bind
  intro itemId _
  apply closed_requireString.bind
  intro itemType _
  exact closed_requireNonnegativeInteger.bind fun outputIndex _ => closed_pure

theorem closed_functionCall {value : Json.Object} : Closed P (functionCall value) := by
  apply closed_requireIdentifier.bind
  intro responseId _
  apply closed_requireIdentifier.bind
  intro itemId _
  apply closed_requireNonnegativeInteger.bind
  intro outputIndex _
  apply closed_requireIdentifier.bind
  intro callId _
  split
  · exact closed_requireString.bind fun name _ => closed_pure
  · exact closed_protocolError

theorem closed_toolAckIdentity {item : Json.Object} : Closed P (toolAckIdentity item) := by
  apply Closed.ite
  · intro _
    apply closed_requireIdentifier.bind
    intro itemId _
    apply closed_requireString.bind
    intro type _
    apply closed_requireString.bind
    intro status _
    apply closed_requireIdentifier.bind
    intro callId _
    exact closed_requireString.bind fun output _ => closed_pure
  · exact fun _ => closed_ok

theorem closed_outputItemRole {nested : Json.Object} {inResponse : Bool} : Closed P (outputItemRole nested inResponse) := by
  apply Closed.ite
  · intro _
    split
    · exact closed_ok
    · exact closed_invalidField
  · exact fun _ => closed_ok

theorem closed_userSideItem : Closed P (userSideItem frame) := by
  apply Closed.ite
  · exact fun _ => Closed.ite (fun _ => closed_protocolError) fun _ => closed_pure
  · exact fun _ => closed_pure

theorem closed_contextTextParts {content : Option Json} : Closed P (contextTextParts content) := by
  unfold contextTextParts
  split
  · exact closed_protocolError
  · exact closed_protocolError
  · apply Closed.mapM
    intro part
    split
    · split
      · exact closed_ok
      · exact closed_protocolError
    · exact closed_protocolError

theorem closed_toolSignature {known : Signature} {tool : Json} : Closed P (toolSignature known tool) := by
  unfold toolSignature
  split
  · apply closed_guard closed_unsupported
    split
    · split
      · split
        · apply closed_guard closed_unsupported
          split
          · split
            · split
              · exact closed_pure
              · exact closed_unsupported
            · exact closed_unsupported
          · exact closed_unsupported
        · exact closed_unsupported
      · exact closed_unsupported
    · exact closed_unsupported
  · exact closed_unsupported

theorem closed_toolCatalogSignature {tools : Json} : Closed P (toolCatalogSignature tools) := by
  unfold toolCatalogSignature
  split
  · exact Closed.foldlM (fun _ _ => closed_toolSignature) _ _
  · exact closed_unsupported

theorem closed_validateSessionAck {tools : List Json.Object} {value : Json.Object} :
    Closed P (validateSessionAck tools value) := by
  unfold validateSessionAck
  apply closed_guard closed_protocolError
  apply closed_requireObject.bind
  intro session _
  apply closed_guard closed_protocolError
  apply Closed.bind
  · split
    · exact Closed.ite (fun _ => closed_ok) fun _ => closed_unsupported
    · apply closed_toolCatalogSignature.bind
      intro left _
      apply closed_toolCatalogSignature.bind
      intro right _
      exact Closed.ite (fun _ => closed_ok) fun _ => closed_unsupported
  · intro normalized _
    apply closed_requireIdentifier.bind
    intro _ _
    apply closed_requireString.bind
    intro _ _
    apply closed_guard closed_protocolError
    apply closed_requireObject.bind
    intro turnDetection _
    exact closed_guard closed_protocolError closed_pure

theorem closed_eventIdentity {value : Json.Object} : Closed P (eventIdentity value) := by
  apply closed_requireIdentifier.bind
  intro eventId _
  split
  · exact Closed.ite (fun _ => closed_ok) fun _ => closed_protocolError
  · exact closed_protocolError

theorem closed_wireDecode {payload : Payload} (h : payload.loads ≠ .error .tooDeep) : Closed P (wireDecode payload) := by
  unfold wireDecode
  apply closed_guard closed_protocolError
  apply (RelayControl.decides_strictJsonObject h).closed.bind
  intro value _
  apply closed_eventIdentity.bind
  exact fun frame _ => Closed.ite (fun _ => closed_ok) fun _ => closed_protocolError

/-! What escapes. -/

/-- The events that name the item of a turn. -/
def spokenEvents : List String :=
  ["input_audio_buffer.committed", "input_audio_buffer.speech_started",
    "conversation.item.input_audio_transcription.completed"]

/-- The frame has the decoder register an item under the id. -/
inductive RegistersUnder (frame : ServerFrame) (s : DecoderState QwenOmniAdapter) (id : String) : Prop
  | spoken (type : frame.type ∈ spokenEvents) (named : optionalIdentifier (Json.field frame.value "item_id") = some id)
  | output (nested : Json.Object) (role : Role)
      (type : frame.type = "response.output_item.added" ∨ frame.type = "response.output_item.done")
      (holds : Json.asObject (Json.field frame.value "item") = some nested)
      (named : optionalIdentifier (Json.field nested "id") = some id)
      (inResponse : (optionalIdentifier (Json.field frame.value "response_id")).isSome)
      (declared : outputItemRole nested true = .ok (some role))
      (registered : if role = .user then Json.isString (Json.field nested "type") "message" ∧
          Json.isString (Json.field nested "status") "completed"
        else frame.type = "response.output_item.added")
  | audio (item : Json.Object) (type : frame.type = "conversation.item.created")
      (holds : Json.asObject (Json.field frame.value "item") = some item)
      (named : optionalIdentifier (Json.field item "id") = some id) (message : Json.isString (Json.field item "type") "message")
      (spoken : (Json.asList (Json.field item "content")).any (·.any isAudioPart))
  | echo (requestId : String) (expected : ContextMessage) (item : Json.Object)
      (echoes : Echoes frame s id requestId expected item) (role : expected.role ≠ .assistant)

/-- The frame is new and has the decoder look up what cannot be in a set, or register an id that is too long. -/
inductive Hazard (frame : ServerFrame) (s : DecoderState QwenOmniAdapter) : Prop
  | code (error : Json.Object) (type : frame.type = "error")
      (holds : Json.asObject (Json.field frame.value "error") = some error)
      (unhashable : Json.hashable (Json.field error "code") = false)
  | reason (response details : Json.Object) (type : frame.type = "response.done")
      (holds : Json.asObject (Json.field frame.value "response") = some response)
      (named : (optionalIdentifier (Json.field response "id")).isSome)
      (status : Json.isString (Json.field response "status") "incomplete")
      (given : Json.asObject (Json.field response "status_details") = some details)
      (unhashable : Json.hashable (Json.field details "reason") = false)
  | id (id : String) (registers : RegistersUnder frame s id) (long : 512 < id.length)

theorem closed_mapError {error : Json.Object} (hP : Json.hashable (Json.field error "code") = false → P) :
    Closed P (mapError error) := by
  apply Closed.ite
  · intro hhash
    have hhash' : Json.hashable (Json.field error "code") = false := by simpa using hhash
    exact fun _ _ => .inr (hP hhash')
  · intro _
    iterate 5
      apply Closed.ite
      · exact fun _ => closed_ok
      intro _
    exact closed_ok

theorem mapError_escapes {error : Json.Object} (h : Json.hashable (Json.field error "code") = false) :
    mapError error = .error .exception := by
  unfold mapError
  simp [h]

theorem closed_responseStatus {response : Json.Object}
    (hP : ∀ details, Json.isString (Json.field response "status") "incomplete" →
      Json.asObject (Json.field response "status_details") = some details →
      Json.hashable (Json.field details "reason") = false → P) : Closed P (responseStatus response) := by
  apply closed_requireString.bind
  intro status hstatus
  split
  · exact closed_pure
  · exact closed_pure
  · refine Closed.bind ?_ fun _ _ => closed_pure
    have hincomplete : Json.isString (Json.field response "status") "incomplete" := by
      unfold requireString at hstatus
      split at hstatus
      · rename_i text htext
        obtain rfl := Except.ok.inj hstatus
        simpa [Json.isString] using (Option.filter_eq_some_iff.mp htext).1
      · cases hstatus
    unfold interruptedDetails
    split
    · exact closed_ok
    · rename_i details hdetails
      apply Closed.ite
      · intro hhash
        have hhash' : Json.hashable (Json.field details "reason") = false := by simpa using hhash
        exact fun _ _ => .inr (hP details hincomplete hdetails hhash')
      · exact fun _ => closed_ok
  · exact closed_pure
  · exact closed_protocolError

theorem closed_responseDone (hP : Hazard frame s → P) (htype : frame.type = "response.done") :
    Closed P (responseDone frame) := by
  apply closed_requireObject.bind
  intro response hresponse
  apply closed_requireIdentifier.bind
  intro responseId hid
  have hnamed : (optionalIdentifier (Json.field response "id")).isSome := by simp [optionalIdentifier_of_ok hid]
  apply Closed.bind
  · apply closed_responseStatus
    intro details hstatus hdetails hhash
    exact hP (.reason response details htype (asObject_of_ok hresponse) hnamed hstatus hdetails hhash)
  · intro status _
    apply closed_parseTerminalUsage.bind
    intro usage _
    exact closed_guard closed_protocolError closed_pure

/-! The decoder, one lemma a handler. -/

theorem closes_seen {d : DecodedProviderEvent} : Closes P (seen d) s := closes_modify closes_pure

theorem closes_itemId {β : Type} {k : String → QwenDecoder β}
    (h : ∀ id, optionalIdentifier (Json.field frame.value "item_id") = some id → Closes P (k id) s) :
    Closes P (itemId frame >>= k) s :=
  closes_ofExcept closed_requireIdentifier fun id hid => h id (optionalIdentifier_of_ok hid)

/-- What is registered is an identity of the table, or the frame is hazardous. -/
theorem closes_enrol {u : DecoderState QwenOmniAdapter} {id source : String} {role : Role} {confirmed : Bool}
    {aliases : List String} {value : Option Json} (hP : Hazard frame s → P) (hid : optionalIdentifier value = some id)
    (hregisters : RegistersUnder frame s id) (hu : u.table.Named) (haliases : ∀ name ∈ aliases, validIdentity name) :
    Closes P (Decoder.register id role source confirmed aliases) u := by
  by_cases hlong : 512 < id.length
  · have hhazard : P := hP (.id id hregisters hlong)
    exact ⟨fun _ _ _ => trivial,fun _ _ _ => .inr hhazard⟩
  · have hvalid : validIdentity id := (validIdentity_of_identifier hid).mpr (Nat.not_lt.mp hlong)
    exact closes_register hu hvalid haliases

theorem closes_registerOutputItem (ht : s.table.Named) (hP : Hazard frame s → P)
    (htype : frame.type = "response.output_item.added" ∨ frame.type = "response.output_item.done") :
    Closes P (registerOutputItem frame) s := by
  unfold registerOutputItem
  split
  · exact closes_pure
  · rename_i nested hnested
    split
    · exact closes_pure
    · rename_i nestedId hid
      apply closes_ofExcept closed_outputItemRole
      intro role hrole
      split
      · apply Run.Ends.ite
        · intro hmessage
          simp only [Bool.and_eq_true] at hmessage
          obtain ⟨⟨hin,hmessage⟩,hcompleted⟩ := hmessage
          rw [hin] at hrole
          have hregisters : RegistersUnder frame s nestedId :=
            .output nested .user htype hnested hid hin hrole (by simp [hmessage,hcompleted])
          exact (closes_enrol hP hid hregisters ht (by simp)).bind fun _ _ => closes_pure
        · exact fun _ => closes_pure
      · rename_i role hnot
        apply Run.Ends.ite
        · intro hadded
          simp only [Bool.and_eq_true,beq_iff_eq] at hadded
          obtain ⟨hin,hadded⟩ := hadded
          rw [hin] at hrole
          have hother : role ≠ .user := fun hh => hnot (by rw [hh])
          have hregisters : RegistersUnder frame s nestedId :=
            .output nested role htype hnested hid hin hrole (by simp [hother,hadded])
          exact (closes_enrol hP hid hregisters ht (by simp)).bind fun _ _ => closes_pure
        · exact fun _ => closes_pure
      · exact closes_pure

theorem closes_userSideResponseEvent : Closes P (userSideResponseEvent frame) s := by
  apply closes_ofExcept closed_userSideItem
  intro itemId _
  apply closes_get
  split
  · exact closes_result closed_invalidField
  · split
    · apply Run.Ends.ite
      · exact fun _ => closes_pure
      · exact fun _ => closes_ofExcept closed_requireString fun text _ => closes_pure
    · exact closes_pure

theorem closes_sessionUpdated : Closes P (sessionUpdated frame) s := by
  apply closes_get
  split
  · apply closes_ofExcept closed_requireObject
    intro session _
    apply Run.Ends.ite
    · exact fun _ => closes_modify closes_seen
    · exact fun _ => closes_raise
  · exact closes_ofExcept closed_validateSessionAck fun normalized _ => closes_seen

section Spoken

variable (ht : s.table.Named) (hP : Hazard frame s → P)

include ht hP

theorem closes_committed (htype : frame.type = "input_audio_buffer.committed") : Closes P (committed frame) s := by
  apply closes_itemId
  intro id hid
  have hregisters : RegistersUnder frame s id := .spoken (by simp [htype,spokenEvents]) hid
  exact (closes_enrol hP hid hregisters ht (by simp)).bind fun _ _ => closes_pure

theorem closes_speechStarted (htype : frame.type = "input_audio_buffer.speech_started") :
    Closes P (speechStarted frame) s := by
  apply closes_itemId
  intro id hid
  have hregisters : RegistersUnder frame s id := .spoken (by simp [htype,spokenEvents]) hid
  exact (closes_enrol hP hid hregisters ht (by simp)).bind fun _ _ => closes_pure

theorem closes_transcriptionCompleted (htype : frame.type = "conversation.item.input_audio_transcription.completed") :
    Closes P (transcriptionCompleted frame) s := by
  apply closes_itemId
  intro id hid
  have hregisters : RegistersUnder frame s id := .spoken (by simp [htype,spokenEvents]) hid
  apply (closes_enrol hP hid hregisters ht (by simp)).bind
  intro _ u
  apply Run.Ends.ite
  · exact fun _ => closes_pure
  · exact fun _ => closes_ofExcept closed_requireString fun text _ => closes_pure

end Spoken

theorem closes_transcriptionDelta : Closes P (transcriptionDelta frame) s := by
  apply closes_itemId
  intro id _
  apply Run.Ends.ite
  · exact fun _ => closes_pure
  · exact fun _ => closes_ofExcept closed_requireString fun text _ => closes_pure

/-! Conversation items. -/

theorem closes_audioItemCreated {eventId serverId source : String} {item : Json.Object}
    (h : ∀ confirmed, Closes P (Decoder.register serverId .user source confirmed) s) :
    Closes P (audioItemCreated eventId serverId item source) s := by
  apply closes_get
  apply Run.Ends.ite
  · exact fun _ => closes_raise
  · exact fun _ => (h _).bind fun _ _ => closes_modify closes_seen

/-- An item without a message in it registers nothing here: audio items have been told apart before. -/
theorem closes_unrelatedItemCreated {eventId serverId : String} {item : Json.Object} {unrelatedAudio : Bool}
    (h : unrelatedAudio && Json.isString (Json.field item "type") "message" → False) :
    Closes P (unrelatedItemCreated eventId serverId item unrelatedAudio) s := by
  apply closes_get
  apply Run.Ends.ite
  · exact fun _ => closes_raise
  · intro _
    apply Run.Ends.ite
    · intro haudio
      simp only [Bool.and_eq_true] at haudio
      exact absurd (by simp [haudio.1.1]) h
    · exact fun _ => closes_modify closes_seen

theorem closes_echoCreated {eventId serverId requestId : String} {item : Json.Object} {expected : ContextMessage}
    (ht : s.table.Named) (hP : Hazard frame s → P) (hpending : validIdentity requestId)
    (hid : optionalIdentifier (Json.field item "id") = some serverId)
    (hechoes : echoShape item expected.role → contextTextParts (Json.field item "content") = .ok [expected.text] →
      Echoes frame s serverId requestId expected item) :
    Closes P (echoCreated eventId serverId item requestId expected) s := by
  apply closes_get
  apply Run.Ends.ite
  · exact fun _ => closes_raise
  · intro hshape
    simp only [Bool.or_eq_true,not_or,Bool.not_eq_true,Bool.not_eq_false'] at hshape
    apply closes_ofExcept closed_contextTextParts
    intro parts hparts
    apply Run.Ends.ite
    · exact fun _ => closes_raise
    · intro heq
      obtain rfl : parts = [expected.text] := not_not.mp heq
      have hechoed := hechoes hshape.1 hparts
      apply closes_modify
      apply closes_modify
      apply Run.Ends.ite
      · intro hrole
        have hregisters : RegistersUnder frame s serverId := .echo requestId expected item hechoed hrole
        apply Closes.bind
        · apply closes_enrol hP hid hregisters
          · exact ht
          · exact List.forall_mem_singleton.mpr hpending
        · exact fun _ _ => closes_pure
      · exact fun _ => closes_pure

/-- The adapter's pending requests and the names of the table are identities. -/
structure Sound (s : DecoderState QwenOmniAdapter) : Prop where
  pending : ∀ id ∈ s.adapter.contextEvents, validIdentity id
  table : s.table.Named

theorem Sound.oldest (hs : Sound s) {requestId : String} {expected : ContextMessage}
    (h : oldestMessage s.adapter = some (requestId,expected)) : validIdentity requestId := by
  rw [oldestMessage_eq] at h
  exact hs.pending _ (mem_contextEvents_of_pending (List.mem_of_mem_head? h))

/-- Where all parts are audio and there are some, some part is. -/
theorem any_audio_of_all {content : Option (List Json)}
    (h : content.any fun parts => !parts.isEmpty && parts.all isAudioPart) : content.any (·.any isAudioPart) := by
  cases content with
  | none => exact h
  | some parts =>
    simp only [Option.any_some,Bool.and_eq_true] at h
    cases parts with
    | nil => exact absurd h.1 (by simp)
    | cons part parts =>
      have hpart : isAudioPart part := List.all_eq_true.mp h.2 part List.mem_cons_self
      simp [hpart]

theorem closes_contextMessageCreated (hs : Sound s) (hP : Hazard frame s → P) {item : Json.Object}
    (htype : frame.type = "conversation.item.created") (hunseen : frame.eventId ∉ s.adapter.contextSeenEventIds)
    (hitem : Json.asObject (Json.field frame.value "item") = some item) :
    Closes P (contextMessageCreated frame.eventId item) s := by
  apply closes_ofExcept closed_requireIdentifier
  intro serverId hid
  have hnamed := optionalIdentifier_of_ok hid
  apply closes_get
  apply Run.Ends.ite
  · intro hvoice
    simp only [Bool.and_eq_true,Bool.or_eq_true] at hvoice
    obtain ⟨hmessage,haudio | hknown⟩ := hvoice
    · have hregisters : RegistersUnder frame s serverId := .audio item htype hitem hnamed hmessage haudio
      exact closes_audioItemCreated fun _ => closes_enrol hP hnamed hregisters hs.table (by simp)
    · obtain ⟨known,hknown⟩ := Option.isSome_iff_exists.mp hknown
      have hvalid := hs.table.known serverId known (Option.filter_eq_some_iff.mp hknown).1
      exact closes_audioItemCreated fun _ => closes_register hs.table hvalid (by simp)
  · intro hsilent
    apply Run.Ends.ite
    · exact fun _ => closes_seen
    · intro hnew
      dsimp only
      split
      · apply closes_unrelatedItemCreated
        intro haudio
        simp only [Bool.and_eq_true] at haudio
        obtain ⟨⟨-,haudio⟩,hmessage⟩ := haudio
        exact hsilent (by rw [hmessage,any_audio_of_all haudio]; rfl)
      · rename_i requestId expected holdest
        have hwaiting : oldestMessage s.adapter = some (requestId,expected) := by
          split at holdest
          · exact nomatch holdest
          · exact holdest
        apply closes_echoCreated hs.table hP (hs.oldest hwaiting) hnamed
        exact fun hshape hparts => ⟨htype,hunseen,hitem,hnamed,hnew,hwaiting,hshape,hparts⟩

theorem closes_itemCreated (hs : Sound s) (hP : Hazard frame s → P) (htype : frame.type = "conversation.item.created")
    (hunseen : frame.eventId ∉ s.adapter.contextSeenEventIds) : Closes P (itemCreated frame) s := by
  apply closes_ofExcept closed_requireObject
  intro item hitem
  apply closes_get
  apply Run.Ends.ite
  · exact fun _ => closes_contextMessageCreated hs hP htype hunseen (asObject_of_ok hitem)
  · exact fun _ => closes_ofExcept closed_toolAckIdentity fun identity _ => closes_seen

theorem closes_providerError (hP : Hazard frame s → P) (htype : frame.type = "error") :
    Closes P (providerError frame) s := by
  apply closes_ofExcept closed_requireObject
  intro error herror
  apply closes_ofExcept (closed_mapError fun hhash => hP (.code error htype (asObject_of_ok herror) hhash))
  intro code _
  apply closes_get
  split
  · apply closes_modify
    apply Run.Ends.ite
    · exact fun _ => closes_modify closes_pure
    · exact fun _ => closes_pure
  · exact closes_pure

theorem closes_outputItemEvent {added : Bool} : Closes P (outputItemEvent frame added) s := by
  apply closes_ofExcept closed_outputItem
  intro detail _
  apply Run.Ends.ite
  · exact fun _ => closes_pure
  · exact fun _ => closes_pure

theorem closes_contentPartEvent {added : Bool} : Closes P (contentPartEvent frame added) s := by
  apply closes_ofExcept closed_contentIdentity
  intro identity _
  apply closes_ofExcept closed_requireObject
  intro part _
  apply Run.Ends.ite
  · exact fun _ => closes_pure
  · exact fun _ => closes_pure

theorem closes_outputText {key : String} {isDelta : Bool} : Closes P (outputText frame key isDelta) s := by
  apply closes_ofExcept closed_contentIdentity
  intro identity _
  exact closes_ofExcept closed_requireString fun text _ => closes_pure

/-- One case for each type of frame. -/
theorem closes_decodeFrame (hs : Sound s) (hP : Hazard frame s → P)
    (hunseen : frame.eventId ∉ s.adapter.contextSeenEventIds) : Closes P (decodeFrame frame) s := by
  unfold decodeFrame
  split
  · exact closes_sessionUpdated
  · exact closes_committed hs.table hP ‹_›
  · exact closes_speechStarted hs.table hP ‹_›
  · exact closes_itemId fun id _ => closes_pure
  · exact closes_transcriptionDelta
  · exact closes_transcriptionCompleted hs.table hP ‹_›
  · exact closes_pure
  · apply closes_ofExcept closed_requireObject
    intro response _
    exact closes_ofExcept closed_requireIdentifier fun id _ => closes_pure
  · exact closes_outputItemEvent
  · exact closes_outputItemEvent
  · exact closes_contentPartEvent
  · exact closes_contentPartEvent
  · exact closes_outputText
  · exact closes_outputText
  · apply closes_ofExcept closed_contentIdentity
    intro identity _
    exact closes_ofExcept closed_decodeBase64Pcm fun audio _ => closes_pure
  · exact closes_ofExcept closed_contentIdentity fun identity _ => closes_pure
  · exact closes_outputText
  · exact closes_outputText
  · exact closes_ofExcept closed_functionCall fun call _ => closes_pure
  · exact closes_itemCreated hs hP ‹_› hunseen
  · exact closes_result (closed_responseDone hP ‹_›)
  · exact closes_providerError hP ‹_›
  · exact closes_pure

theorem closes_decodeServerFrame (hs : Sound s) (hP : frame.eventId ∉ s.adapter.contextSeenEventIds → Hazard frame s → P) :
    Closes P (decodeServerFrame frame) s := by
  apply closes_get
  apply Run.Ends.ite
  · exact fun _ => closes_pure
  intro hunseen
  have hframe := hP hunseen
  by_cases htype : frame.type = "response.output_item.added" ∨ frame.type = "response.output_item.done"
  · have hregister : Closes P (if frame.type == "response.output_item.added" || frame.type == "response.output_item.done" then
        registerOutputItem frame else pure false) s := by
      rw [if_pos (by simpa using htype)]
      exact closes_registerOutputItem hs.table hframe htype
    apply hregister.bind
    intro settled u
    apply Run.Ends.ite
    · exact fun _ => closes_pure
    · intro _
      apply Run.Ends.ite
      · exact fun _ => closes_userSideResponseEvent
      · intro _
        unfold decodeFrame
        obtain htype | htype := htype
        · rw [htype]
          exact closes_outputItemEvent
        · rw [htype]
          exact closes_outputItemEvent
  · rw [if_neg (by simpa using htype)]
    apply closes_pure_bind
    apply Run.Ends.ite
    · exact fun _ => closes_pure
    · intro _
      apply Run.Ends.ite
      · exact fun _ => closes_userSideResponseEvent
      · exact fun _ => closes_decodeFrame hs hframe hunseen

/-! What is hazardous escapes. -/

theorem escapes_itemId {β : Type} {id : String} {k : String → QwenDecoder β}
    (hid : optionalIdentifier (Json.field frame.value "item_id") = some id) (h : Escapes (k id) s) :
    Escapes (itemId frame >>= k) s := escapes_ofExcept (requireIdentifier_some hid) h

theorem escapes_providerError {error : Json.Object} (herror : Json.asObject (Json.field frame.value "error") = some error)
    (h : Json.hashable (Json.field error "code") = false) : Escapes (providerError frame) s := by
  apply escapes_ofExcept (requireObject_some herror)
  exact (escapes_result (mapError_escapes h)).bind

theorem responseDone_escapes {response details : Json.Object}
    (hresponse : Json.asObject (Json.field frame.value "response") = some response)
    (hnamed : (optionalIdentifier (Json.field response "id")).isSome)
    (hstatus : Json.isString (Json.field response "status") "incomplete")
    (hdetails : Json.asObject (Json.field response "status_details") = some details)
    (h : Json.hashable (Json.field details "reason") = false) : responseDone frame = .error .exception := by
  obtain ⟨id,hid⟩ := Option.isSome_iff_exists.mp hnamed
  have hstring : requireString (Json.field response "status") "response.status" = .ok "incomplete" := by
    have htext : Json.asString (Json.field response "status") = some "incomplete" := by simpa [Json.isString] using hstatus
    unfold requireString
    rw [htext]
    rfl
  have hinterrupted : interruptedDetails (Json.field response "status_details") = .error .exception := by
    unfold interruptedDetails
    rw [hdetails]
    simp [h]
  have hfails : responseStatus response = .error .exception := by
    unfold responseStatus
    rw [hstring]
    show (interruptedDetails (Json.field response "status_details") >>= _) = _
    rw [hinterrupted]
    rfl
  unfold responseDone
  rw [requireObject_some hresponse]
  show (requireIdentifier (Json.field response "id") "response.id" >>= _) = _
  rw [requireIdentifier_some hid]
  show (responseStatus response >>= _) = _
  rw [hfails]
  rfl

/-- An output item is registered before anything else is read. -/
theorem escapes_registerOutputItem {nested : Json.Object} {role : Role} {id : String} (hlong : 512 < id.length)
    (hnested : Json.asObject (Json.field frame.value "item") = some nested)
    (hid : optionalIdentifier (Json.field nested "id") = some id)
    (hin : (optionalIdentifier (Json.field frame.value "response_id")).isSome)
    (hrole : outputItemRole nested true = .ok (some role))
    (h : if role = .user then Json.isString (Json.field nested "type") "message" ∧
        Json.isString (Json.field nested "status") "completed"
      else frame.type = "response.output_item.added") : Escapes (registerOutputItem frame) s := by
  unfold registerOutputItem
  rw [hnested]
  dsimp only
  rw [hid,hin]
  apply escapes_ofExcept hrole
  cases role with
  | user =>
    rw [if_pos rfl] at h
    dsimp only
    rw [if_pos (by simp [h.1,h.2])]
    exact (escapes_register hlong).bind
  | assistant =>
    rw [if_neg nofun] at h
    dsimp only
    rw [if_pos (by simp [h])]
    exact (escapes_register hlong).bind
  | system =>
    rw [if_neg nofun] at h
    dsimp only
    rw [if_pos (by simp [h])]
    exact (escapes_register hlong).bind

theorem notMem_of_long (hs : Sound s) {id : String} (hlong : 512 < id.length) : id ∉ s.adapter.contextEvents := by
  intro hmem
  have hvalid := hs.pending id hmem
  simp only [validIdentity,Bool.and_eq_true,decide_eq_true_eq] at hvalid
  omega

theorem escapes_contextMessageCreated {item : Json.Object} {id eventId : String} (hs : Sound s) (hlong : 512 < id.length)
    (hid : optionalIdentifier (Json.field item "id") = some id) (hmessage : Json.isString (Json.field item "type") "message")
    (h : (Json.asList (Json.field item "content")).any (·.any isAudioPart) ∨
      ∃ requestId expected, Echoes frame s id requestId expected item ∧ expected.role ≠ .assistant) :
    Escapes (contextMessageCreated eventId item) s := by
  have hnew := notMem_of_long hs hlong
  apply escapes_ofExcept (requireIdentifier_some hid)
  apply escapes_get
  by_cases haudio : (Json.asList (Json.field item "content")).any (·.any isAudioPart)
  · rw [if_pos (by simp [hmessage,haudio])]
    apply escapes_get
    rw [if_neg hnew]
    exact (escapes_register hlong).bind
  · obtain ⟨requestId,expected,hechoes,hrole⟩ := h.resolve_left haudio
    have hunknown : s.table.lookup id = none := by
      cases hlookup : s.table.lookup id with
      | none => rfl
      | some known =>
        have hvalid := hs.table.known id known hlookup
        simp only [validIdentity,Bool.and_eq_true,decide_eq_true_eq] at hvalid
        omega
    have hrelated : (Json.asList (Json.field item "content")).any (fun parts => !parts.isEmpty && parts.all isAudioPart) = false := by
      by_contra hall
      exact haudio (any_audio_of_all (by simpa using hall))
    rw [if_neg (by simp [haudio,hunknown]),if_neg hechoes.new]
    dsimp only
    rw [hrelated,Bool.and_false,if_neg (by simp),hechoes.oldest]
    apply escapes_get
    rw [if_neg (by simp [hechoes.shape,hnew])]
    apply escapes_ofExcept hechoes.parts
    rw [if_neg (by simp)]
    apply escapes_modify
    apply escapes_modify
    rw [if_pos hrole]
    exact (escapes_register hlong).bind

theorem escapes_itemCreated {item : Json.Object} {id : String} (hs : Sound s) (hlong : 512 < id.length)
    (hitem : Json.asObject (Json.field frame.value "item") = some item)
    (hid : optionalIdentifier (Json.field item "id") = some id) (hmessage : Json.isString (Json.field item "type") "message")
    (h : (Json.asList (Json.field item "content")).any (·.any isAudioPart) ∨
      ∃ requestId expected, Echoes frame s id requestId expected item ∧ expected.role ≠ .assistant) :
    Escapes (itemCreated frame) s := by
  apply escapes_ofExcept (requireObject_some hitem)
  apply escapes_get
  rw [if_pos (by simp [hmessage])]
  exact escapes_contextMessageCreated hs hlong hid hmessage h

/-- A frame that is new and belongs to no response goes straight to its handler. -/
theorem decodeServerFrame_eq (hunseen : frame.eventId ∉ s.adapter.contextSeenEventIds)
    (htype : isResponseScoped frame.type = false) : decodeServerFrame frame s = decodeFrame frame s := by
  have hitem : ¬(frame.type == "response.output_item.added" || frame.type == "response.output_item.done") = true := by
    intro h
    simp only [Bool.or_eq_true,beq_iff_eq] at h
    obtain h | h := h
    · rw [h] at htype
      exact absurd htype (by decide)
    · rw [h] at htype
      exact absurd htype (by decide)
  unfold decodeServerFrame
  rw [Run.get_bind,if_neg hunseen,if_neg hitem,Run.pure_bind_apply,if_neg (by simp),if_neg (by simp [htype])]

theorem escapes_decodeServerFrame (hs : Sound s) (hunseen : frame.eventId ∉ s.adapter.contextSeenEventIds)
    (h : Hazard frame s) : Escapes (decodeServerFrame frame) s := by
  have hplain : isResponseScoped frame.type = false → Escapes (decodeFrame frame) s →
      Escapes (decodeServerFrame frame) s := by
    rintro htype ⟨u,hu⟩
    exact ⟨u,by rw [decodeServerFrame_eq hunseen htype,hu]⟩
  cases h with
  | code error htype herror hhash =>
    apply hplain (by rw [htype]; decide)
    unfold decodeFrame
    rw [htype]
    exact escapes_providerError herror hhash
  | reason response details htype hresponse hnamed hstatus hdetails hhash =>
    apply hplain (by rw [htype]; decide)
    unfold decodeFrame
    rw [htype]
    exact escapes_result (responseDone_escapes hresponse hnamed hstatus hdetails hhash)
  | id id hregisters hlong =>
    cases hregisters with
    | spoken htype hid =>
      simp only [spokenEvents,List.mem_cons,List.not_mem_nil,or_false] at htype
      obtain htype | htype | htype := htype
      all_goals
        apply hplain (by rw [htype]; decide)
        unfold decodeFrame
        rw [htype]
        apply escapes_itemId hid
        exact (escapes_register hlong).bind
    | output nested role htype hnested hid hin hrole hregistered =>
      unfold decodeServerFrame
      apply escapes_get
      rw [if_neg hunseen,if_pos (by simpa using htype)]
      exact (escapes_registerOutputItem hlong hnested hid hin hrole hregistered).bind
    | audio item htype hitem hid hmessage haudio =>
      apply hplain (by rw [htype]; decide)
      unfold decodeFrame
      rw [htype]
      exact escapes_itemCreated hs hlong hitem hid hmessage (.inl haudio)
    | echo requestId expected item hechoes hrole =>
      have hmessage : Json.isString (Json.field item "type") "message" := by
        have hshape := hechoes.shape
        simp only [echoShape,Bool.and_eq_true] at hshape
        exact hshape.1.1
      apply hplain (by rw [hechoes.type]; decide)
      unfold decodeFrame
      rw [hechoes.type]
      exact escapes_itemCreated hs hlong hechoes.holds hechoes.id hmessage (.inr ⟨requestId,expected,hechoes,hrole⟩)

/-! The reachable states of the adapter. -/

/-- `uuid.uuid4().hex`. -/
def isUuidHex (s : String) : Bool :=
  decide (s.length = 32) && s.toList.all fun c => Text.isDigit c || decide ('a' ≤ c ∧ c ≤ 'f')

/-- What is done with an adapter and the table that it is bound to. Other parts of the session change the table
as well, and a session update may give the adapter a table of its own. -/
inductive AdapterAction
  | sessionUpdate (fresh : String) (request : RealtimeOpenRequest)
  | appendMessage (fresh text : String) (role : Role)
  | updateInstructions (fresh text : String)
  | decode (payload : Payload)
  | table (a : RealtimeIdentityTable.TableAction)
  | bind (table : RealtimeIdentityTable)

def adapterStep (s : DecoderState QwenOmniAdapter) : AdapterAction → Option (DecoderState QwenOmniAdapter)
  | .sessionUpdate fresh request =>
    match sessionUpdate fresh request s.adapter with
    | .ok (_,adapter) => some { s with adapter }
    | .error _ => none
  | .appendMessage fresh text role => some { s with adapter := (appendMessage fresh text role s.adapter).2 }
  | .updateInstructions fresh text => some { s with adapter := (updateInstructions fresh text s.adapter).2 }
  | .decode payload =>
    let decoding := decodeServerEvent payload s.adapter s.table
    some ⟨decoding.adapter,decoding.table⟩
  | .table a => (s.table.step a).map fun table => { s with table }
  | .bind table => some { s with table }

/-- The tables of every history of registrations, generations and restored identities. -/
abbrev TableHistory (table : RealtimeIdentityTable) : Prop :=
  Transition.ReachableWith RealtimeIdentityTable.step Transition.anyStep RealtimeIdentityTable.Fresh table

/-- Event ids are drawn by the host, and only a table with a history is bound. -/
def HostStep (_ : DecoderState QwenOmniAdapter) : AdapterAction → Prop
  | .appendMessage fresh _ _ | .updateInstructions fresh _ => isUuidHex fresh
  | .bind table => TableHistory table
  | _ => True

def NewAdapter (s : DecoderState QwenOmniAdapter) : Prop := s.adapter = {} ∧ TableHistory s.table

abbrev Reachable (s : DecoderState QwenOmniAdapter) : Prop := Transition.ReachableWith adapterStep HostStep NewAdapter s

theorem validIdentity_newEventId {fresh : String} (h : isUuidHex fresh) : validIdentity (newEventId fresh) := by
  simp only [isUuidHex,Bool.and_eq_true,decide_eq_true_eq] at h
  have hlength : (newEventId fresh).length = 38 := by
    rw [newEventId,String.length_append,h.1]
    rfl
  have hblank : Text.isBlank (newEventId fresh) = false := by
    unfold Text.isBlank newEventId
    rw [String.toList_append,List.all_append]
    rfl
  simp [validIdentity,hblank,hlength]

theorem Sound.set (hs : Sound s) {id : String} {expected : Option ContextMessage} (hid : validIdentity id)
    {a : QwenOmniAdapter} (ha : a.contextEvents = s.adapter.contextEvents.set id expected) : Sound { s with adapter := a } := by
  refine ⟨fun id' hid' => ?_,hs.table⟩
  rw [ha,Dict.mem_set] at hid'
  obtain rfl | hid' := hid'
  · exact hid
  · exact hs.pending id' hid'

theorem DecoderMove.sound {eventId : String} {u v : DecoderState QwenOmniAdapter} (h : DecoderMove eventId u v)
    (hu : Sound u) : Sound v := by
  cases h with
  | register _ _ _ _ _ _ _ _ hh => exact ⟨hu.pending,hu.table.register hh⟩
  | see => exact ⟨hu.pending,hu.table⟩
  | seeItems _ => exact ⟨hu.pending,hu.table⟩
  | clear => exact ⟨hu.pending,hu.table⟩
  | pop identity => exact ⟨fun id hid => hu.pending id (Dict.mem_erase.mp hid).1,hu.table⟩

theorem Sound.step {s' : DecoderState QwenOmniAdapter} (hs : Sound s) {a : AdapterAction} (ha : HostStep s a)
    (h : adapterStep s a = some s') : Sound s' := by
  cases a with
  | sessionUpdate fresh request =>
    obtain rfl := Option.some.inj h
    exact ⟨hs.pending,hs.table⟩
  | appendMessage fresh text role =>
    obtain rfl := Option.some.inj h
    exact hs.set (validIdentity_newEventId ha) rfl
  | updateInstructions fresh text =>
    obtain rfl := Option.some.inj h
    exact hs.set (validIdentity_newEventId ha) rfl
  | decode payload =>
    obtain rfl := Option.some.inj h
    obtain ⟨eventId,hmoves⟩ := decoding_moves payload s.adapter s.table
    exact moves_keep (fun _ _ hm hu => hm.sound hu) hmoves hs
  | table a =>
    obtain ⟨table,htable,rfl⟩ := Option.map_eq_some_iff.mp h
    exact ⟨hs.pending,hs.table.step htable⟩
  | bind table =>
    obtain rfl := Option.some.inj h
    exact ⟨hs.pending,RealtimeIdentityTable.named ha⟩

theorem sound (h : Reachable s) : Sound s := by
  apply h.invariant
  · rintro u ⟨hadapter,htable⟩
    refine ⟨fun id hid => ?_,RealtimeIdentityTable.named htable⟩
    rw [hadapter] at hid
    exact absurd hid (Dict.get_eq_none.mp rfl)
  · exact fun _ _ _ hu ha hstep => hu.step ha hstep

/-- The codec lets the frame through, the adapter has not seen its event, and its decoding is hazardous. -/
def Hazardous (payload : Payload) (s : DecoderState QwenOmniAdapter) : Prop :=
  ∃ frame, wireDecode payload = .ok frame ∧ frame.eventId ∉ s.adapter.contextSeenEventIds ∧ Hazard frame s

theorem fails_closed_iff (hs : Sound s) {payload : Payload} (h : payload.loads ≠ .error .tooDeep) :
    (decodeServerEvent payload s.adapter s.table).FailsClosed ↔ ¬Hazardous payload s := by
  apply Decoder.failsClosed_iff
  · exact closed_wireDecode h
  · intro frame
    exact closes_decodeServerFrame hs fun hunseen hhazard => ⟨hunseen,hhazard⟩
  · rintro frame ⟨hunseen,hhazard⟩
    exact escapes_decodeServerFrame hs hunseen hhazard

end QwenOmni

namespace OpenAIRealtime

open QwenOmni (ServerFrame closed_contentIdentity closed_outputItem closed_functionCall closed_toolAckIdentity
  closed_unsupported)

variable {P : Prop} {frame : ServerFrame} {s : DecoderState OpenAIRealtimeAdapter}

theorem closed_identity {value : Json.Object} : Closed P (identity value) := by
  apply closed_requireIdentifier.bind
  intro eventId _
  split
  · exact closed_pure
  · exact closed_protocolError

theorem closed_wireDecode {payload : Payload} (h : payload.loads ≠ .error .tooDeep) : Closed P (wireDecode payload) := by
  unfold wireDecode
  apply closed_guard closed_protocolError
  apply (RelayControl.decides_strictJsonObject h).closed.bind
  intro value _
  apply closed_identity.bind
  intro frame _
  apply closed_guard closed_protocolError
  apply Closed.ite
  · exact fun _ => closed_decodeBase64Pcm.bind fun _ _ => closed_pure
  · exact fun _ => closed_pure

theorem closed_validateSessionAck {tools : List Json.Object} {value : Json.Object} {updated : Bool} :
    Closed P (validateSessionAck tools value updated) := by
  unfold validateSessionAck
  apply closed_guard closed_protocolError
  apply closed_requireObject.bind
  intro session _
  apply closed_guard closed_protocolError
  apply closed_guard closed_unsupported
  apply closed_guard closed_protocolError
  apply closed_requireIdentifier.bind
  intro _ _
  apply closed_guard closed_protocolError
  apply closed_requireObject.bind
  intro audio _
  apply closed_guard closed_protocolError
  apply closed_requireObject.bind
  intro inputAudio _
  apply closed_requireObject.bind
  intro outputAudio _
  exact Closed.ite (fun _ => closed_protocolError) fun _ => closed_pure

/-- The frame refuses no pending request, and the decoder looks up its code, which cannot be in a set. -/
structure Hazard (frame : ServerFrame) (s : DecoderState OpenAIRealtimeAdapter) (error : Json.Object) : Prop where
  type : frame.type = "error"
  holds : Json.asObject (Json.field frame.value "error") = some error
  unhashable : Json.hashable (Json.field error "code") = false
  unasked : ∀ id, optionalIdentifier (Json.field error "event_id") = some id → id ∉ s.adapter.contextEvents

theorem closed_mapError {error : Json.Object} (hP : Json.hashable (Json.field error "code") = false → P) :
    Closed P (mapError error) := by
  apply Closed.ite
  · exact fun _ => closed_ok
  intro _
  apply Closed.ite
  · exact fun _ => closed_ok
  intro _
  apply Closed.ite
  · intro hhash
    have hhash' : Json.hashable (Json.field error "code") = false := by simpa using hhash
    exact fun _ _ => .inr (hP hhash')
  · intro _
    iterate 4
      apply Closed.ite
      · exact fun _ => closed_ok
      intro _
    exact closed_ok

theorem mapError_escapes {error : Json.Object} (h : Json.hashable (Json.field error "code") = false) :
    mapError error = .error .exception := by
  have htext : Json.asString (Json.field error "code") = none := by
    cases hcode : Json.asString (Json.field error "code") with
    | none => rfl
    | some text =>
      rw [Json.asString_eq_some.mp hcode] at h
      exact nomatch h
  unfold mapError
  simp [h,htext]

/-! The decoder, one lemma a handler. -/

theorem closes_sessionAcknowledged {updated : Bool} : Closes P (sessionAcknowledged frame updated) s :=
  closes_get (closes_ofExcept closed_validateSessionAck fun _ _ => closes_pure)

theorem closes_sessionUpdated : Closes P (sessionUpdated frame) s := by
  apply closes_get
  split
  · apply closes_ofExcept closed_requireObject
    intro session _
    apply Run.Ends.ite
    · exact fun _ => closes_modify closes_pure
    · exact fun _ => closes_sessionAcknowledged
  · exact closes_sessionAcknowledged

theorem closed_turnEvent {event : String → Except Exn ProviderEvent} (h : ∀ turnId, Closed P (event turnId)) :
    Closed P (turnEvent frame event) := by
  apply closed_requireIdentifier.bind
  intro turnId _
  exact (h turnId).bind fun _ _ => closed_pure

theorem closes_responseCreated : Closes P (responseCreated frame) s := by
  apply closes_ofExcept closed_requireObject
  intro response _
  apply closes_ofExcept closed_requireIdentifier
  intro responseId _
  apply closes_get
  dsimp only
  split
  · exact closes_modify closes_pure
  · exact closes_pure

theorem closes_itemCreated : Closes P (itemCreated frame) s := by
  apply closes_ofExcept closed_requireObject
  intro item _
  apply closes_get
  split
  · apply Run.Ends.ite
    · exact fun _ => closes_modify closes_pure
    · exact fun _ => closes_raise
  · exact closes_ofExcept closed_toolAckIdentity fun _ _ => closes_pure

theorem closed_outputItemEvent {added : Bool} : Closed P (outputItemEvent frame added) :=
  closed_outputItem.bind fun _ _ => closed_pure

theorem closed_contentPartEvent {added : Bool} : Closed P (contentPartEvent frame added) := by
  apply closed_contentIdentity.bind
  intro identity _
  exact closed_requireObject.bind fun _ _ => closed_pure

theorem closed_transcriptText {key : String} {isDelta : Bool} : Closed P (transcriptText frame key isDelta) := by
  apply closed_contentIdentity.bind
  intro identity _
  exact closed_requireString.bind fun _ _ => closed_pure

theorem closed_responseDone : Closed P (responseDone frame) := by
  apply closed_requireObject.bind
  intro response _
  apply closed_requireIdentifier.bind
  intro responseId _
  apply Closed.bind
  · apply closed_requireString.bind
    intro status _
    split
    · exact closed_pure
    · exact closed_pure
    · exact closed_pure
    · exact closed_pure
    · exact closed_protocolError
  · intro status _
    apply closed_parseTerminalUsage.bind
    intro usage _
    exact closed_guard closed_protocolError closed_pure

/-- The pending request that an error names. -/
theorem asked_eq_none {error : Json.Object} : (optionalIdentifier (Json.field error "event_id")).filter
    (· ∈ s.adapter.contextEvents) = none ↔
      ∀ id, optionalIdentifier (Json.field error "event_id") = some id → id ∉ s.adapter.contextEvents := by
  rw [Option.filter_eq_none_iff]
  simp

theorem closes_providerError (hP : ∀ error, Hazard frame s error → P) (htype : frame.type = "error") :
    Closes P (providerError frame) s := by
  apply closes_ofExcept closed_requireObject
  intro error herror
  apply closes_get
  split
  · exact closes_modify closes_pure
  · rename_i hnone
    have hunasked := asked_eq_none.mp hnone
    apply closes_ofExcept
    · exact closed_mapError fun hhash => hP error ⟨htype,asObject_of_ok herror,hhash,hunasked⟩
    · exact fun _ _ => closes_pure

/-- One case for each type of frame. -/
theorem closes_decodeServerFrame (hP : ∀ error, Hazard frame s error → P) : Closes P (decodeServerFrame frame) s := by
  unfold decodeServerFrame
  split
  · exact closes_sessionAcknowledged
  · exact closes_sessionUpdated
  · exact closes_pure
  · exact closes_result (closed_turnEvent fun _ => closed_ok)
  · exact closes_result (closed_turnEvent fun _ => closed_ok)
  · exact closes_result (closed_turnEvent fun _ => closed_requireString.bind fun _ _ => closed_pure)
  · exact closes_responseCreated
  · exact closes_result closed_outputItemEvent
  · exact closes_result closed_outputItemEvent
  · exact closes_result closed_contentPartEvent
  · exact closes_result closed_contentPartEvent
  · exact closes_result closed_transcriptText
  · exact closes_result closed_transcriptText
  · apply closes_result
    apply closed_contentIdentity.bind
    exact fun _ _ => closed_decodeBase64Pcm.bind fun _ _ => closed_pure
  · exact closes_result (closed_contentIdentity.bind fun _ _ => closed_pure)
  · exact closes_result (closed_functionCall.bind fun _ _ => closed_pure)
  · exact closes_itemCreated
  · exact closes_result closed_responseDone
  · exact closes_providerError hP ‹_›
  · exact closes_pure

theorem escapes_decodeServerFrame {error : Json.Object} (h : Hazard frame s error) :
    Escapes (decodeServerFrame frame) s := by
  unfold decodeServerFrame
  rw [h.type]
  apply escapes_ofExcept (requireObject_some h.holds)
  apply escapes_get
  rw [asked_eq_none.mpr h.unasked]
  exact (escapes_result (mapError_escapes h.unhashable)).bind

/-- The codec lets the frame through, and its decoding is hazardous. -/
def Hazardous (payload : Payload) (s : DecoderState OpenAIRealtimeAdapter) : Prop :=
  ∃ frame, wireDecode payload = .ok frame ∧ ∃ error, Hazard frame s error

theorem fails_closed_iff {payload : Payload} (h : payload.loads ≠ .error .tooDeep) :
    (decodeServerEvent payload s.adapter s.table).FailsClosed ↔ ¬Hazardous payload s := by
  apply Decoder.failsClosed_iff
  · exact closed_wireDecode h
  · intro frame
    exact closes_decodeServerFrame fun error hhazard => ⟨error,hhazard⟩
  · rintro frame ⟨error,hhazard⟩
    exact escapes_decodeServerFrame hhazard

end OpenAIRealtime

/-- Every frame of a provider within the nesting limit is decoded or refused with an error of the package, but
for the hazardous ones. -/
theorem provider_decoding_fails_closed {payload : Payload} (h : payload.loads ≠ .error .tooDeep) :
    (∀ s, QwenOmni.Reachable s →
      ((QwenOmni.decodeServerEvent payload s.adapter s.table).FailsClosed ↔ ¬QwenOmni.Hazardous payload s)) ∧
    ∀ s : DecoderState OpenAIRealtimeAdapter,
      (OpenAIRealtime.decodeServerEvent payload s.adapter s.table).FailsClosed ↔ ¬OpenAIRealtime.Hazardous payload s :=
  ⟨fun _ hs => QwenOmni.fails_closed_iff (QwenOmni.sound hs) h,fun _ => OpenAIRealtime.fails_closed_iff h⟩

/-- An error frame whose code is a list. -/
def listCode : Payload where
  bytes := 57
  loads := .ok (.obj [("type",.str "error"), ("event_id",.str "event_1"), ("error",.obj [("code",.arr [])])])

theorem newAdapter_reachable : QwenOmni.Reachable ⟨{},{ generation := 1 }⟩ :=
  .of_init ⟨rfl,.of_init ⟨1,rfl⟩⟩

theorem provider_decoding_fails_closed_list_code :
    ((QwenOmni.decodeServerEvent listCode {} { generation := 1 }).FailsClosed ↔
      ¬QwenOmni.Hazardous listCode ⟨{},{ generation := 1 }⟩) ∧
    ((OpenAIRealtime.decodeServerEvent listCode {} {}).FailsClosed ↔ ¬OpenAIRealtime.Hazardous listCode ⟨{},{}⟩) := by
  have hdeep : listCode.loads ≠ .error .tooDeep := nofun
  exact ⟨(provider_decoding_fails_closed hdeep).1 _ newAdapter_reachable,(provider_decoding_fails_closed hdeep).2 _⟩

theorem list_code_escapes : listCode.loads ≠ .error .tooDeep ∧ QwenOmni.Reachable ⟨{},{ generation := 1 }⟩ ∧
    ¬(QwenOmni.decodeServerEvent listCode {} { generation := 1 }).FailsClosed ∧
    ¬(OpenAIRealtime.decodeServerEvent listCode {} {}).FailsClosed := by
  have hqwen : (QwenOmni.decodeServerEvent listCode {} { generation := 1 }).result = .error .exception := by rfl
  have hopenAI : (OpenAIRealtime.decodeServerEvent listCode {} {}).result = .error .exception := by rfl
  exact ⟨nofun,newAdapter_reachable,fun h => h _ hqwen,fun h => h _ hopenAI⟩

end HarnessSdk
