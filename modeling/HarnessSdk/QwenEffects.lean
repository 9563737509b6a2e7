import HarnessSdk.QwenOmni

/-!
# What the Qwen decoder does to its state

The adapter and the identity table change in a few ways only: an item is registered, an event or
an item is noted as seen, and a pending request is taken off. Every branch of the decoder is a
sequence of such moves, whether it returns or raises.
-/

namespace HarnessSdk
namespace QwenOmni

open Run (within_pure within_raise within_get within_modify_bind within_ofExcept ends_pure ends_raise ends_get
  ends_modify ends_modify_bind ends_ofExcept ends_trivial pure_apply)

variable {eventId : String} {frame : ServerFrame} {s u : DecoderState QwenOmniAdapter}

/-- The registrations of the decoder: role, source, confirmation and aliases of an item. -/
inductive Registers (t : RealtimeIdentityTable) : String → Role → String → Bool → List String → Prop
  | output (id : String) (role : Role) (h : role ≠ .user) : Registers t id role "output_item" false []
  | userOutput (id : String) : Registers t id .user "output_item" true []
  | committed (id : String) : Registers t id .user "committed" true []
  | speechStarted (id : String) : Registers t id .user "speech_started" false []
  | transcript (id : String) : Registers t id .user "transcript" true []
  | inputAudio (id : String) (confirmed : Bool) : Registers t id .user "input_audio_item" confirmed []
  | voice (id : String) (confirmed : Bool) (known : RealtimeItemIdentity) (h : t.lookup id = some known)
      (hrole : known.role = .user) (horigin : known.origin.any (· ∈ voiceOrigins)) :
      Registers t id .user known.source confirmed []
  | echo (id requestId : String) (role : Role) (h : role ≠ .assistant) :
      Registers t id role "context_ack" true [requestId]

/-- One change that decoding the event `eventId` makes. -/
inductive DecoderMove (eventId : String) (s : DecoderState QwenOmniAdapter) : DecoderState QwenOmniAdapter → Prop
  | register (id : String) (role : Role) (source : String) (confirmed : Bool) (aliases : List String)
      (table : RealtimeIdentityTable) (item : RealtimeItemIdentity)
      (h : Registers s.table id role source confirmed aliases)
      (hh : s.table.register id role source confirmed aliases = .ok (table,item)) :
      DecoderMove eventId s { s with table }
  | see : DecoderMove eventId s { s with adapter := { s.adapter with
      contextSeenEventIds := insert eventId s.adapter.contextSeenEventIds } }
  | seeItems (itemIds : Finset String) : DecoderMove eventId s (seeItems itemIds s)
  | pop (identity : String) : DecoderMove eventId s (popContext identity s)
  | clear : DecoderMove eventId s (clearInstructions s)

/-- From `s` the decoder makes only such changes. -/
abbrev Decodes {α : Type} (eventId : String) (m : QwenDecoder α) (s : DecoderState QwenOmniAdapter) : Prop :=
  Run.Within (DecoderMove eventId) (fun _ _ => True) m s

theorem decodes_ofExcept {α β : Type} {x : Except Exn α} {m : α → QwenDecoder β}
    (h : ∀ a, x = .ok a → Decodes eventId (m a) s) : Decodes eventId (Run.ofExcept x >>= m) s := by
  cases x with
  | error e => exact ⟨.refl,fun p => nomatch p⟩
  | ok a => exact ⟨(h a rfl).moves,fun p => nomatch p⟩

theorem decodes_register {id : String} {role : Role} {source : String} {confirmed : Bool} {aliases : List String}
    (h : Registers s.table id role source confirmed aliases) :
    Decodes eventId (Decoder.register id role source confirmed aliases) s := by
  refine within_get (decodes_ofExcept fun a ha => ?_)
  exact within_modify_bind (.single (.register _ _ _ _ _ _ _ h ha)) within_pure

theorem decodes_seen {d : DecodedProviderEvent} (h : d.eventId = eventId) : Decodes eventId (seen d) s := by
  subst h
  exact within_modify_bind (.single .see) within_pure

theorem decodes_registerOutputItem : Decodes eventId (registerOutputItem frame) s := by
  unfold registerOutputItem
  split
  · exact within_pure
  · split
    · exact within_pure
    · refine decodes_ofExcept fun role hrole => ?_
      split
      · split
        · exact (decodes_register (.userOutput _)).bind fun _ _ _ _ => within_pure
        · exact within_pure
      · rename_i role hnot
        split
        · exact (decodes_register (.output _ role fun hh => hnot (by rw [hh]))).bind fun _ _ _ _ => within_pure
        · exact within_pure
      · exact within_pure

theorem decodes_userSideResponseEvent : Decodes eventId (userSideResponseEvent frame) s := by
  refine decodes_ofExcept fun itemId _ => within_get ?_
  split
  · exact within_ofExcept
  · split
    · split
      · exact within_pure
      · exact decodes_ofExcept fun text _ => within_pure
    · exact within_pure

theorem decodes_sessionUpdated : Decodes frame.eventId (sessionUpdated frame) s := by
  refine within_get ?_
  split
  · refine decodes_ofExcept fun session _ => ?_
    split
    · refine within_modify_bind ?_ (decodes_seen rfl)
      exact (Relation.ReflTransGen.single .clear).tail (.pop _)
    · exact within_raise
  · exact decodes_ofExcept fun normalized _ => decodes_seen rfl

theorem decodes_committed : Decodes frame.eventId (committed frame) s := by
  refine decodes_ofExcept fun id _ => ?_
  exact (decodes_register (.committed id)).bind fun _ _ _ _ => within_pure

theorem decodes_speechStarted : Decodes frame.eventId (speechStarted frame) s := by
  refine decodes_ofExcept fun id _ => ?_
  exact (decodes_register (.speechStarted id)).bind fun _ _ _ _ => within_pure

theorem decodes_transcriptionDelta : Decodes frame.eventId (transcriptionDelta frame) s := by
  refine decodes_ofExcept fun id _ => ?_
  exact Run.Within.ite (fun _ => within_pure) fun _ => decodes_ofExcept fun text _ => within_pure

theorem decodes_transcriptionCompleted : Decodes frame.eventId (transcriptionCompleted frame) s := by
  refine decodes_ofExcept fun id _ => (decodes_register (.transcript id)).bind fun _ _ _ _ => ?_
  exact Run.Within.ite (fun _ => within_pure) fun _ => decodes_ofExcept fun text _ => within_pure

theorem decodes_audioItemCreated {serverId source : String} {item : Json.Object}
    (h : ∀ confirmed, Registers s.table serverId .user source confirmed []) :
    Decodes eventId (audioItemCreated eventId serverId item source) s := by
  refine within_get (Run.Within.ite (fun _ => within_raise) fun _ => ?_)
  refine (decodes_register (h _)).bind fun _ _ _ _ => ?_
  exact within_modify_bind (.single (.seeItems _)) (decodes_seen rfl)

theorem decodes_unrelatedItemCreated {serverId : String} {item : Json.Object} {unrelatedAudio : Bool} :
    Decodes eventId (unrelatedItemCreated eventId serverId item unrelatedAudio) s := by
  have hrest : ∀ u, Decodes eventId (do Run.modify (seeItems {serverId}); seen { eventId }) u :=
    fun u => within_modify_bind (.single (.seeItems _)) (decodes_seen rfl)
  refine within_get (Run.Within.ite (fun _ => within_raise) fun _ => Run.Within.ite (fun _ => ?_) fun _ => hrest s)
  exact (decodes_register (.inputAudio _ true)).bind fun _ u _ _ => hrest u

theorem decodes_echoCreated {serverId requestId : String} {item : Json.Object} {expected : ContextMessage} :
    Decodes eventId (echoCreated eventId serverId item requestId expected) s := by
  refine within_get (Run.Within.ite (fun _ => within_raise) fun _ => decodes_ofExcept fun parts _ => ?_)
  refine Run.Within.ite (fun _ => within_raise) fun _ => ?_
  refine within_modify_bind ((Relation.ReflTransGen.single (.pop requestId)).tail (.seeItems _)) ?_
  refine within_modify_bind (.single .see) (Run.Within.ite (fun hrole => ?_) fun _ => within_pure)
  exact (decodes_register (.echo _ _ _ hrole)).bind fun _ _ _ _ => within_pure

theorem decodes_contextMessageCreated {item : Json.Object} :
    Decodes eventId (contextMessageCreated eventId item) s := by
  refine decodes_ofExcept fun serverId _ => within_get (Run.Within.ite (fun hvoice => ?_) fun _ => ?_)
  · refine decodes_audioItemCreated fun confirmed => ?_
    split
    · exact .inputAudio _ _
    · cases hknown : (s.table.lookup serverId).filter fun known =>
          known.role == .user && known.origin.any (· ∈ voiceOrigins) with
      | none => exact .inputAudio _ _
      | some known =>
        obtain ⟨hlookup,hh⟩ := Option.filter_eq_some_iff.mp hknown
        simp only [Bool.and_eq_true,beq_iff_eq] at hh
        exact .voice serverId confirmed known hlookup hh.1 hh.2
  · refine Run.Within.ite (fun _ => decodes_seen rfl) fun _ => ?_
    dsimp only
    split
    · exact decodes_unrelatedItemCreated
    · exact decodes_echoCreated

theorem decodes_itemCreated : Decodes frame.eventId (itemCreated frame) s := by
  refine decodes_ofExcept fun item _ => within_get (Run.Within.ite (fun _ => ?_) fun _ => ?_)
  · exact decodes_contextMessageCreated
  · exact decodes_ofExcept fun identity _ => decodes_seen rfl

theorem decodes_providerError : Decodes eventId (providerError frame) s := by
  refine decodes_ofExcept fun error _ => decodes_ofExcept fun code _ => within_get ?_
  split
  · refine within_modify_bind ((Relation.ReflTransGen.single (.pop _)).tail (.seeItems _)) ?_
    exact Run.Within.ite (fun _ => within_modify_bind (.single .clear) within_pure) fun _ => within_pure
  · exact within_pure

/-- The rule of the decoder, one case for each type of frame. -/
theorem decodes_decodeFrame : Decodes frame.eventId (decodeFrame frame) s := by
  unfold decodeFrame
  split
  · exact decodes_sessionUpdated
  · exact decodes_committed
  · exact decodes_speechStarted
  · exact decodes_ofExcept fun id _ => within_pure
  · exact decodes_transcriptionDelta
  · exact decodes_transcriptionCompleted
  · exact within_pure
  · exact decodes_ofExcept fun response _ => decodes_ofExcept fun id _ => within_pure
  · exact decodes_ofExcept fun detail _ => within_pure
  · exact decodes_ofExcept fun detail _ => within_pure
  · exact decodes_ofExcept fun identity _ => decodes_ofExcept fun part _ => within_pure
  · exact decodes_ofExcept fun identity _ => decodes_ofExcept fun part _ => within_pure
  · exact decodes_ofExcept fun identity _ => decodes_ofExcept fun text _ => within_pure
  · exact decodes_ofExcept fun identity _ => decodes_ofExcept fun text _ => within_pure
  · exact decodes_ofExcept fun identity _ => decodes_ofExcept fun audio _ => within_pure
  · exact decodes_ofExcept fun identity _ => within_pure
  · exact decodes_ofExcept fun identity _ => decodes_ofExcept fun text _ => within_pure
  · exact decodes_ofExcept fun identity _ => decodes_ofExcept fun text _ => within_pure
  · exact decodes_ofExcept fun call _ => within_pure
  · exact decodes_itemCreated
  · exact within_ofExcept
  · exact decodes_providerError
  · exact within_pure

theorem decodes_decodeServerFrame (frame : ServerFrame) : Decodes frame.eventId (decodeServerFrame frame) s := by
  refine within_get (Run.Within.ite (fun _ => within_pure) fun _ => Run.Within.bind ?_ fun settled u _ _ => ?_)
  · exact Run.Within.ite (fun _ => decodes_registerOutputItem) fun _ => within_pure
  · refine Run.Within.ite (fun _ => within_pure) fun _ => ?_
    exact Run.Within.ite (fun _ => decodes_userSideResponseEvent) fun _ => decodes_decodeFrame

/-! What a decoded event says. -/

/-- The event neither answers a request nor completes spoken input. -/
structure Plain (d : DecodedProviderEvent) : Prop where
  request : d.contextRequestId = none
  ack : d.contextAckId = none
  rejected : d.rejectedEventId = none
  silent : ∀ turnId text, .transcriptCompleted turnId text ∉ d.events

/-- The frame echoes the message `expected` that waits first, under the id `serverId`. -/
structure Echoes (frame : ServerFrame) (s : DecoderState QwenOmniAdapter) (serverId requestId : String)
    (expected : ContextMessage) (item : Json.Object) : Prop where
  type : frame.type = "conversation.item.created"
  unseen : frame.eventId ∉ s.adapter.contextSeenEventIds
  holds : Json.asObject (Json.field frame.value "item") = some item
  id : optionalIdentifier (Json.field item "id") = some serverId
  new : serverId ∉ s.adapter.contextSeenItemIds
  oldest : oldestMessage s.adapter = some (requestId,expected)
  shape : echoShape item expected.role
  parts : contextTextParts (Json.field item "content") = .ok [expected.text]

/-- What the decoder can make of a frame, from the state `s` to the state `u`. -/
inductive Meaning (frame : ServerFrame) (s u : DecoderState QwenOmniAdapter) (d : DecodedProviderEvent) : Prop
  | plain (h : Plain d)
  | transcript (turnId text : String) (h : d.events = [.transcriptCompleted turnId text])
      (request : d.contextRequestId = none) (ack : d.contextAckId = none) (rejected : d.rejectedEventId = none)
      (user : u = s ∧ s.table.isUser turnId ∨
        ∃ item, s.table.register turnId .user "transcript" true = .ok (u.table,item) ∧ u.adapter = s.adapter)
  | instructions (identity expected : String) (h : s.adapter.instructionUpdate = some (identity,expected))
      (request : d.contextRequestId = some identity) (ack : d.contextAckId = none)
      (rejected : d.rejectedEventId = none) (events : d.events = [])
      (after : u.adapter.contextEvents = s.adapter.contextEvents.erase identity)
  | echo (serverId requestId : String) (expected : ContextMessage) (item : Json.Object)
      (h : Echoes frame s serverId requestId expected item)
      (request : d.contextRequestId = some requestId) (ack : d.contextAckId = some serverId)
      (rejected : d.rejectedEventId = none) (events : d.events = [])
      (after : u.adapter.contextEvents = s.adapter.contextEvents.erase requestId)
      (items : serverId ∈ u.adapter.contextSeenItemIds) (event : frame.eventId ∈ u.adapter.contextSeenEventIds)
  | rejected (identity : String) (h : d.rejectedEventId = some identity) (pending : identity ∈ s.adapter.contextEvents)
      (request : d.contextRequestId = none) (ack : d.contextAckId = none)
      (silent : ∀ turnId text, .transcriptCompleted turnId text ∉ d.events)
      (after : u.adapter.contextEvents = s.adapter.contextEvents.erase identity)

/-- What the decoder returns under the id of the frame has a meaning. -/
abbrev Means (frame : ServerFrame) (s : DecoderState QwenOmniAdapter) (m : QwenDecoder DecodedProviderEvent)
    (u : DecoderState QwenOmniAdapter) : Prop :=
  Run.Ends (fun d v => d.eventId = frame.eventId ∧ Meaning frame s v d) (fun _ _ => True) m u

theorem means_pure {d : DecodedProviderEvent} (hid : d.eventId = frame.eventId) (h : Plain d) :
    Means frame s (pure d) u := ends_pure ⟨hid,.plain h⟩

theorem means_ofExcept {α : Type} {x : Except Exn α} {m : α → QwenDecoder DecodedProviderEvent}
    (h : ∀ a, x = .ok a → Means frame s (m a) u) : Means frame s (Run.ofExcept x >>= m) u :=
  ends_ofExcept h fun _ _ => trivial

theorem means_raise {e : Exn} : Means frame s (Run.raise e) u := ends_raise trivial

theorem means_register {id : String} {role : Role} {source : String} {confirmed : Bool} {aliases : List String}
    {m : Unit → QwenDecoder DecodedProviderEvent}
    (h : ∀ table item, u.table.register id role source confirmed aliases = .ok (table,item) →
      Means frame s (m ()) { u with table }) :
    Means frame s (Decoder.register id role source confirmed aliases >>= m) u := by
  refine Run.Ends.bind (P := fun _ v => ∃ table item,
    u.table.register id role source confirmed aliases = .ok (table,item) ∧ v = { u with table })
    (E := fun _ _ => True) ?_ ?_
  · refine ends_get (ends_ofExcept (fun a ha => ?_) fun _ _ => trivial)
    exact ends_modify ⟨a.1,a.2,ha,rfl⟩
  · rintro _ v ⟨table,item,hh,rfl⟩
    exact h table item hh

theorem means_seen {d : DecodedProviderEvent} (hid : d.eventId = frame.eventId) (h : Plain d) :
    Means frame s (seen d) u := ends_modify_bind (means_pure hid h)

theorem means_userSideResponseEvent : Means frame s (userSideResponseEvent frame) s := by
  refine means_ofExcept fun itemId _ => ends_get ?_
  split
  · refine ⟨fun d u hu => ?_,fun _ _ _ => trivial⟩
    simp only [missingResponse,invalidField,Run.ofExcept] at hu
    simp at hu
  · rename_i itemId' hitem
    have huser : s.table.isUser itemId' := (Option.filter_eq_some_iff.mp hitem).2
    split
    · rename_i key isDelta _
      refine Run.Ends.ite (fun _ => means_pure rfl (by constructor <;> simp)) fun _ => means_ofExcept fun text _ => ?_
      cases isDelta with
      | true => exact means_pure rfl (by constructor <;> simp)
      | false => exact ends_pure ⟨rfl,.transcript itemId' text rfl rfl rfl rfl (.inl ⟨rfl,huser⟩)⟩
    · exact means_pure rfl (by constructor <;> simp)

theorem means_sessionUpdated : Means frame s (sessionUpdated frame) s := by
  refine ends_get ?_
  split
  · rename_i identity expected hupdate
    refine means_ofExcept fun session _ => Run.Ends.ite (fun _ => ?_) fun _ => means_raise
    refine ends_modify_bind (ends_modify_bind (ends_pure ⟨rfl,?_⟩))
    exact .instructions identity expected hupdate rfl rfl rfl rfl rfl
  · exact means_ofExcept fun normalized _ => means_seen rfl (by constructor <;> simp)

theorem means_transcriptionCompleted : Means frame s (transcriptionCompleted frame) s := by
  refine means_ofExcept fun id _ => means_register fun table item hregister => ?_
  refine Run.Ends.ite (fun _ => means_pure rfl (by constructor <;> simp)) fun _ => means_ofExcept fun text _ => ?_
  exact ends_pure ⟨rfl,.transcript id text rfl rfl rfl rfl (.inr ⟨item,hregister,rfl⟩)⟩

theorem means_audioItemCreated {serverId source : String} {item : Json.Object} :
    Means frame s (audioItemCreated frame.eventId serverId item source) u := by
  refine ends_get (Run.Ends.ite (fun _ => means_raise) fun _ => means_register fun table item' _ => ?_)
  exact ends_modify_bind (means_seen rfl (by constructor <;> simp))

theorem means_unrelatedItemCreated {serverId : String} {item : Json.Object} {unrelatedAudio : Bool} :
    Means frame s (unrelatedItemCreated frame.eventId serverId item unrelatedAudio) u := by
  have hrest : ∀ v, Means frame s (do Run.modify (seeItems {serverId}); seen { eventId := frame.eventId }) v :=
    fun v => ends_modify_bind (means_seen rfl (by constructor <;> simp))
  refine ends_get (Run.Ends.ite (fun _ => means_raise) fun _ => Run.Ends.ite (fun _ => ?_) fun _ => hrest u)
  exact means_register fun table item' _ => hrest _

theorem means_echoCreated {serverId requestId : String} {item : Json.Object} {expected : ContextMessage}
    (htype : frame.type = "conversation.item.created") (hunseen : frame.eventId ∉ s.adapter.contextSeenEventIds)
    (hitem : Json.asObject (Json.field frame.value "item") = some item)
    (hid : optionalIdentifier (Json.field item "id") = some serverId)
    (hnew : serverId ∉ s.adapter.contextSeenItemIds)
    (holdest : oldestMessage s.adapter = some (requestId,expected)) :
    Means frame s (echoCreated frame.eventId serverId item requestId expected) s := by
  refine ends_get (Run.Ends.ite (fun _ => means_raise) fun hshape => means_ofExcept fun parts hparts => ?_)
  refine Run.Ends.ite (fun _ => means_raise) fun heq => ends_modify_bind (ends_modify_bind ?_)
  obtain rfl : parts = [expected.text] := not_not.mp heq
  have hechoes : Echoes frame s serverId requestId expected item := by
    refine ⟨htype,hunseen,hitem,hid,hnew,holdest,?_,hparts⟩
    simp only [Bool.or_eq_true,not_or,Bool.not_eq_true,Bool.not_eq_false'] at hshape
    exact hshape.1
  have hmeaning : ∀ table, Meaning frame s
      { seeItems {requestId,serverId} (popContext requestId s) with
        adapter := { (seeItems {requestId,serverId} (popContext requestId s)).adapter with
          contextSeenEventIds := insert frame.eventId s.adapter.contextSeenEventIds }
        table }
      { eventId := frame.eventId, contextAckId := some serverId, contextRequestId := some requestId } :=
    fun table => .echo serverId requestId expected item hechoes rfl rfl rfl rfl rfl
      (by simp [seeItems]) (Finset.mem_insert_self _ _)
  refine Run.Ends.ite (fun _ => ?_) fun _ => ends_pure ⟨rfl,hmeaning _⟩
  exact means_register fun table item' _ => ends_pure ⟨rfl,hmeaning table⟩

theorem means_contextMessageCreated {item : Json.Object} (htype : frame.type = "conversation.item.created")
    (hunseen : frame.eventId ∉ s.adapter.contextSeenEventIds)
    (hitem : Json.asObject (Json.field frame.value "item") = some item) :
    Means frame s (contextMessageCreated frame.eventId item) s := by
  refine means_ofExcept fun serverId hid => ends_get (Run.Ends.ite (fun _ => means_audioItemCreated) fun _ => ?_)
  refine Run.Ends.ite (fun _ => means_seen rfl (by constructor <;> simp)) fun hnew => ?_
  dsimp only
  split
  · exact means_unrelatedItemCreated
  · rename_i requestId expected hwaiting
    have holdest : oldestMessage s.adapter = some (requestId,expected) := by
      split at hwaiting
      · simp at hwaiting
      · exact hwaiting
    have hid' : optionalIdentifier (Json.field item "id") = some serverId := by
      unfold requireIdentifier at hid
      split at hid
      · rename_i heq
        rw [heq,Except.ok.inj hid]
      · simp [invalidField] at hid
    exact means_echoCreated htype hunseen hitem hid' hnew holdest

theorem means_itemCreated (htype : frame.type = "conversation.item.created")
    (hunseen : frame.eventId ∉ s.adapter.contextSeenEventIds) : Means frame s (itemCreated frame) s := by
  refine means_ofExcept fun item hitem => ends_get (Run.Ends.ite (fun _ => ?_) fun _ => ?_)
  · refine means_contextMessageCreated htype hunseen ?_
    unfold requireObject at hitem
    split at hitem
    · rename_i heq
      rw [heq,Except.ok.inj hitem]
    · simp [invalidField] at hitem
  · exact means_ofExcept fun identity _ => means_seen rfl (by constructor <;> simp)

theorem means_providerError : Means frame s (providerError frame) s := by
  refine means_ofExcept fun error _ => means_ofExcept fun code _ => ends_get ?_
  split
  · rename_i identity hrejected
    have hpending : identity ∈ s.adapter.contextEvents := by
      simpa using (Option.filter_eq_some_iff.mp hrejected).2
    refine ends_modify_bind (Run.Ends.ite (fun _ => ends_modify_bind (ends_pure ⟨rfl,?_⟩)) fun _ => ends_pure ⟨rfl,?_⟩)
    · exact .rejected identity rfl hpending rfl rfl (by simp) rfl
    · exact .rejected identity rfl hpending rfl rfl (by simp) rfl
  · exact means_pure rfl (by constructor <;> simp)

theorem responseDone_plain {d : DecodedProviderEvent} (h : responseDone frame = .ok d) :
    d.eventId = frame.eventId ∧ Plain d := by
  unfold responseDone at h
  obtain ⟨response,_,h⟩ := except_bind_ok h
  obtain ⟨responseId,_,h⟩ := except_bind_ok h
  obtain ⟨status,_,h⟩ := except_bind_ok h
  obtain ⟨usage,_,h⟩ := except_bind_ok h
  dsimp only at h
  by_cases husage : status ≠ .failed ∧ status ≠ .cancelled ∧ usage = none
  · rw [if_pos husage] at h
    simp [protocolError,bind,Except.bind] at h
  · rw [if_neg husage] at h
    obtain rfl := Except.ok.inj h
    refine ⟨rfl,rfl,rfl,rfl,fun turnId text => ?_⟩
    by_cases hfailed : status = .failed <;> simp [hfailed]

theorem means_responseDone : Means frame s (Run.ofExcept (responseDone frame)) u := by
  cases hd : responseDone frame with
  | error e => exact means_raise
  | ok d => exact means_pure (responseDone_plain hd).1 (responseDone_plain hd).2

/-- A frame that only opens or closes a part of a response is plain. -/
theorem means_outputItemEvent {added : Bool} : Means frame s (outputItemEvent frame added) u := by
  refine means_ofExcept fun detail _ => ?_
  cases added with
  | true => exact means_pure rfl (by constructor <;> simp)
  | false => exact means_pure rfl (by constructor <;> simp)

theorem means_contentPartEvent {added : Bool} : Means frame s (contentPartEvent frame added) u := by
  refine means_ofExcept fun identity _ => means_ofExcept fun part _ => ?_
  cases added with
  | true => exact means_pure rfl (by constructor <;> simp)
  | false => exact means_pure rfl (by constructor <;> simp)

theorem means_outputText {key : String} {isDelta : Bool} : Means frame s (outputText frame key isDelta) u :=
  means_ofExcept fun identity _ => means_ofExcept fun text _ => means_pure rfl (by constructor <;> simp)

theorem means_decodeFrame (hunseen : frame.eventId ∉ s.adapter.contextSeenEventIds) :
    Means frame s (decodeFrame frame) s := by
  unfold decodeFrame
  split
  · exact means_sessionUpdated
  · exact means_ofExcept fun id _ => means_register fun table item _ => means_pure rfl (by constructor <;> simp)
  · exact means_ofExcept fun id _ => means_register fun table item _ => means_pure rfl (by constructor <;> simp)
  · exact means_ofExcept fun id _ => means_pure rfl (by constructor <;> simp)
  · refine means_ofExcept fun id _ => Run.Ends.ite (fun _ => means_pure rfl (by constructor <;> simp)) fun _ => ?_
    exact means_ofExcept fun text _ => means_pure rfl (by constructor <;> simp)
  · exact means_transcriptionCompleted
  · exact means_pure rfl (by constructor <;> simp)
  · exact means_ofExcept fun response _ => means_ofExcept fun id _ => means_pure rfl (by constructor <;> simp)
  · exact means_outputItemEvent
  · exact means_outputItemEvent
  · exact means_contentPartEvent
  · exact means_contentPartEvent
  · exact means_outputText
  · exact means_outputText
  · exact means_ofExcept fun identity _ => means_ofExcept fun audio _ => means_pure rfl (by constructor <;> simp)
  · exact means_ofExcept fun identity _ => means_pure rfl (by constructor <;> simp)
  · exact means_outputText
  · exact means_outputText
  · exact means_ofExcept fun call _ => means_pure rfl (by constructor <;> simp)
  · rename_i htype
    exact means_itemCreated htype hunseen
  · exact means_responseDone
  · exact means_providerError
  · exact means_pure rfl (by constructor <;> simp)

/-- What is left to do for an output item behind its registration is plain. -/
theorem means_registeredItem (h : frame.type = "response.output_item.added" ∨ frame.type = "response.output_item.done") :
    Means frame s (if isResponseScoped frame.type && (optionalIdentifier (Json.field frame.value "response_id")).isNone
      then userSideResponseEvent frame else decodeFrame frame) u := by
  refine Run.Ends.ite (fun _ => ?_) fun _ => ?_
  · refine means_ofExcept fun itemId _ => ends_get ?_
    have hkey : transcriptKey frame.type = none := by
      obtain h | h := h <;> simp [h,transcriptKey]
    rw [hkey]
    split
    · refine ⟨fun d v hv => ?_,fun _ _ _ => trivial⟩
      simp [missingResponse,invalidField,Run.ofExcept] at hv
    · exact means_pure rfl (by constructor <;> simp)
  · obtain h | h := h <;> (simp only [decodeFrame,h]; exact means_outputItemEvent)

/-- Whatever the decoder returns has a meaning. -/
theorem means_decodeServerFrame : Means frame s (decodeServerFrame frame) s := by
  refine ends_get (Run.Ends.ite (fun _ => means_pure rfl (by constructor <;> simp)) fun hunseen => ?_)
  by_cases h : frame.type = "response.output_item.added" ∨ frame.type = "response.output_item.done"
  · refine Run.Ends.bind (P := fun _ _ => True) (E := fun _ _ => True) ends_trivial fun settled u _ => ?_
    exact Run.Ends.ite (fun _ => means_pure rfl (by constructor <;> simp)) fun _ => means_registeredItem h
  · have hno : (frame.type == "response.output_item.added" || frame.type == "response.output_item.done") = false := by
      simpa using h
    rw [hno]
    refine Run.Ends.ite (fun _ => means_userSideResponseEvent) fun _ => means_decodeFrame hunseen

/-! Decoding a payload. -/

theorem decoding_ok {a : QwenOmniAdapter} {t : RealtimeIdentityTable} {payload : Payload} {d : DecodedProviderEvent}
    (h : (decodeServerEvent payload a t).result = .ok d) : ∃ frame, wireDecode payload = .ok frame ∧
      decodeServerFrame frame ⟨a,t⟩ =
        .ok d ⟨(decodeServerEvent payload a t).adapter,(decodeServerEvent payload a t).table⟩ := by
  unfold decodeServerEvent Decoder.decoding at h ⊢
  cases hw : wireDecode payload with
  | error e => simp [hw,Run.ofExcept] at h
  | ok frame =>
    refine ⟨frame,rfl,?_⟩
    simp only [hw,Run.ofExcept,Run.pure_bind_apply] at h ⊢
    cases hd : decodeServerFrame frame ⟨a,t⟩ with
    | ok d' u =>
      simp only [hd,Except.ok.injEq] at h ⊢
      rw [h]
    | raise e u => simp [hd] at h
    | park p => exact nomatch p

/-- What a payload decodes to has a meaning. -/
theorem decoding_means {a : QwenOmniAdapter} {t : RealtimeIdentityTable} {payload : Payload}
    {d : DecodedProviderEvent} (h : (decodeServerEvent payload a t).result = .ok d) :
    ∃ frame, wireDecode payload = .ok frame ∧ d.eventId = frame.eventId ∧ Meaning frame ⟨a,t⟩
      ⟨(decodeServerEvent payload a t).adapter,(decodeServerEvent payload a t).table⟩ d := by
  obtain ⟨frame,hw,hd⟩ := decoding_ok h
  exact ⟨frame,hw,means_decodeServerFrame.ok _ _ hd⟩

/-- Whether it returns or raises, decoding makes only the known changes. -/
theorem decoding_moves (payload : Payload) (a : QwenOmniAdapter) (t : RealtimeIdentityTable) : ∃ eventId,
    Relation.ReflTransGen (DecoderMove eventId) ⟨a,t⟩
      ⟨(decodeServerEvent payload a t).adapter,(decodeServerEvent payload a t).table⟩ := by
  unfold decodeServerEvent Decoder.decoding
  cases hw : wireDecode payload with
  | error e => exact ⟨"",.refl⟩
  | ok frame =>
    refine ⟨frame.eventId,?_⟩
    have hmoves := (decodes_decodeServerFrame frame (s := ⟨a,t⟩)).moves
    simp only [Run.ofExcept,Run.pure_bind_apply]
    cases hd : decodeServerFrame frame ⟨a,t⟩ with
    | ok d u => rwa [hd] at hmoves
    | raise e u => rwa [hd] at hmoves
    | park p => exact nomatch p

theorem decoding_generation (payload : Payload) (a : QwenOmniAdapter) (t : RealtimeIdentityTable) :
    (decodeServerEvent payload a t).table.generation = t.generation := by
  obtain ⟨eventId,hmoves⟩ := decoding_moves payload a t
  refine moves_keep (I := fun u : DecoderState QwenOmniAdapter => u.table.generation = t.generation) ?_ hmoves rfl
  intro u v hmove hu
  cases hmove
  case register hh => exact (RealtimeIdentityTable.register_generation hh).trans hu
  all_goals exact hu

def adapter : ProviderAdapter QwenOmniAdapter where
  sessionUpdate := sessionUpdate
  audioAppend := audioAppend
  cancelResponse := cancelResponse
  truncateOutput := truncateOutput
  toolResult := toolResult
  followupResponse := followupResponse
  appendMessage := appendMessage
  updateInstructions := updateInstructions
  outOfBandResponse := outOfBandResponse
  encodeClientEvent := encodeClientEvent
  decodeServerEvent := decodeServerEvent
  toolResult_body _ _ _ := rfl
  decode_generation := decoding_generation

/-- `QWEN_CAPABILITY`. -/
def capability : RealtimeCapability where
  controlVersion := "2026-08-28.3"
  sdkProtocolVersion := "simple-harness-realtime/1"
  provider := "qwen"
  wireProtocol := "qwen-native"
  wireVersion := "2026-08-28.3"
  inputAudio := { sampleRate := 16000 }
  outputAudio := { sampleRate := 24000 }
  features := {
    serverTurnDetection := true, automaticResponse := true, interruption := true, inputTranscription := true
    textOutput := true, audioOutput := true, cancelResponse := true, toolCalling := true }

end QwenOmni
end HarnessSdk
