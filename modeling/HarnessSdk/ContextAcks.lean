import HarnessSdk.QwenSession

/-!
# Acknowledgements of context messages

The adapter acknowledges the messages that were appended in the order in which they were, each
at most once and each by another item and another event. The table it is bound to may change
under it at any time.
-/

namespace HarnessSdk
namespace QwenOmni

open Transition (exec exec_reachable)
open Run (within_pure within_raise within_get within_modify_bind)

variable {a a' : QwenOmniAdapter}

/-- The adapter and its table, with what was appended, oldest first, and what was acknowledged, newest
first: the request, the item of the provider and the event. -/
structure ContextLog where
  adapter : QwenOmniAdapter := {}
  table : RealtimeIdentityTable := {}
  usedIds : Finset String := ∅
  sent : List (String × ContextMessage) := []
  acks : List (String × String × String) := []

inductive ContextAction
  | appendMessage (fresh text : String) (role : Role)
  | updateInstructions (fresh text : String)
  | sessionUpdate (fresh : String) (request : RealtimeOpenRequest)
  | decode (payload : Payload)
  | rebind (table : RealtimeIdentityTable)

/-- The acknowledgement that a decoded event is. -/
def ackOf : Except Exn DecodedProviderEvent → List (String × String × String)
  | .ok d =>
    match d.contextRequestId, d.contextAckId with
    | some requestId, some serverId => [(requestId,serverId,d.eventId)]
    | _, _ => []
  | .error _ => []

namespace ContextLog

variable {s s' : ContextLog}

def step (s : ContextLog) : ContextAction → Option ContextLog
  | .appendMessage fresh text role =>
    if fresh ∈ s.usedIds then none
    else
      let (event,adapter) := appendMessage fresh text role s.adapter
      some { s with adapter, usedIds := insert fresh s.usedIds, sent := s.sent ++ [(event.eventId,⟨role,text⟩)] }
  | .updateInstructions fresh text =>
    if fresh ∈ s.usedIds then none
    else some { s with adapter := (updateInstructions fresh text s.adapter).2, usedIds := insert fresh s.usedIds }
  | .sessionUpdate fresh request =>
    match sessionUpdate fresh request s.adapter with
    | .ok (_,adapter) => some { s with adapter }
    | .error _ => none
  | .decode payload =>
    let decoding := decodeServerEvent payload s.adapter s.table
    some { s with adapter := decoding.adapter, table := decoding.table, acks := ackOf decoding.result ++ s.acks }
  | .rebind table => some { s with table }

/-- A new adapter on any table. -/
def Init (s : ContextLog) : Prop := ∃ table, s = { table }

abbrev Reachable (s : ContextLog) : Prop := Transition.Reachable step Init s

/-- What was appended and still waits, oldest first. -/
def waiting (s : ContextLog) : List (String × ContextMessage) :=
  s.sent.filter fun e => decide (e.1 ∈ s.adapter.contextEvents)

end ContextLog

/-- What decoding does to the pending requests and the ids that were seen. -/
structure Narrows (a a' : QwenOmniAdapter) : Prop where
  events : ∃ gone : Finset String,
    a'.contextEvents.entries = a.contextEvents.entries.filter fun e => decide (e.1 ∉ gone)
  items : a.contextSeenItemIds ⊆ a'.contextSeenItemIds
  seen : a.contextSeenEventIds ⊆ a'.contextSeenEventIds

theorem Narrows.refl (a : QwenOmniAdapter) : Narrows a a := ⟨⟨∅,by simp⟩,subset_rfl,subset_rfl⟩

theorem Narrows.trans {x y z : QwenOmniAdapter} (h : Narrows x y) (hh : Narrows y z) : Narrows x z := by
  obtain ⟨gone,hgone⟩ := h.events
  obtain ⟨gone',hgone'⟩ := hh.events
  refine ⟨⟨gone ∪ gone',?_⟩,h.items.trans hh.items,h.seen.trans hh.seen⟩
  rw [hgone',hgone,List.filter_filter]
  refine List.filter_congr fun e _ => ?_
  simp [Bool.and_comm]

theorem narrows_erase (identity : String) :
    Narrows a { a with contextEvents := a.contextEvents.erase identity } := by
  refine ⟨⟨{identity},?_⟩,subset_rfl,subset_rfl⟩
  simp [Dict.erase,Entries.erase]

theorem DecoderMove.narrows {eventId : String} {s s' : DecoderState QwenOmniAdapter} (h : DecoderMove eventId s s') :
    Narrows s.adapter s'.adapter := by
  cases h
  case register => exact .refl _
  case see => exact { Narrows.refl s.adapter with seen := Finset.subset_insert _ _ }
  case seeItems => exact { Narrows.refl s.adapter with items := Finset.subset_union_left }
  case pop identity => exact narrows_erase identity
  case clear => exact { Narrows.refl s.adapter with }

theorem decoding_narrows (payload : Payload) (t : RealtimeIdentityTable) :
    Narrows a (decodeServerEvent payload a t).adapter := by
  obtain ⟨eventId,hmoves⟩ := decoding_moves payload a t
  exact moves_keep (I := fun u : DecoderState QwenOmniAdapter => Narrows a u.adapter)
    (fun _ _ hm hu => hu.trans hm.narrows) hmoves (.refl a)

/-- The messages that the adapter still waits for, oldest first. -/
def pendingMessages (a : QwenOmniAdapter) : List (String × ContextMessage) :=
  a.contextEvents.entries.filterMap fun e => e.2.map fun expected => (e.1,expected)

theorem oldestMessage_eq (a : QwenOmniAdapter) : oldestMessage a = (pendingMessages a).head? := by
  rw [pendingMessages,List.head?_filterMap]
  rfl

theorem mem_contextEvents_of_pending {e : String × ContextMessage} (h : e ∈ pendingMessages a) :
    e.1 ∈ a.contextEvents := by
  obtain ⟨entry,hentry,he⟩ := List.mem_filterMap.mp h
  obtain ⟨expected,_,rfl⟩ := Option.map_eq_some_iff.mp he
  exact List.mem_map.mpr ⟨entry,hentry,rfl⟩

theorem mem_contextEvents_narrowed {gone : Finset String}
    (h : a'.contextEvents.entries = a.contextEvents.entries.filter fun e => decide (e.1 ∉ gone)) (id : String) :
    id ∈ a'.contextEvents ↔ id ∈ a.contextEvents ∧ id ∉ gone := by
  change id ∈ a'.contextEvents.entries.map Prod.fst ↔ id ∈ a.contextEvents.entries.map Prod.fst ∧ id ∉ gone
  rw [h]
  simp only [List.mem_map,List.mem_filter,decide_eq_true_eq]
  constructor
  · rintro ⟨e,⟨he,hn⟩,rfl⟩
    exact ⟨⟨e,he,rfl⟩,hn⟩
  · rintro ⟨⟨e,he,rfl⟩,hn⟩
    exact ⟨e,⟨he,hn⟩,rfl⟩

theorem pendingMessages_narrowed {gone : Finset String}
    (h : a'.contextEvents.entries = a.contextEvents.entries.filter fun e => decide (e.1 ∉ gone)) :
    pendingMessages a' = (pendingMessages a).filter fun e => decide (e.1 ∉ gone) := by
  unfold pendingMessages
  rw [h,List.filterMap_filter,List.filter_filterMap]
  refine List.filterMap_congr fun e _ => ?_
  cases e.2 with
  | none => simp
  | some expected => by_cases hg : e.1 ∈ gone <;> simp [hg,Option.filter]

theorem newEventId_inj {x y : String} (h : newEventId x = newEventId y) : x = y := by
  have hh := congrArg String.toList h
  simp only [newEventId,String.toList_append,List.append_cancel_left_eq] at hh
  exact String.toList_injective hh

namespace ContextLog

variable {s s' : ContextLog}

/-- What is pending was appended, in this order; what was acknowledged is pending no more; and what
has acknowledged something was noted as seen. -/
structure Kept (s : ContextLog) : Prop where
  order : pendingMessages s.adapter = s.waiting
  drawn : ∀ id, id ∈ s.adapter.contextEvents ∨ id ∈ s.sent.map Prod.fst ∨ id ∈ s.acks.map Prod.fst →
    ∃ fresh ∈ s.usedIds, id = newEventId fresh
  answered : ∀ ack ∈ s.acks, ack.1 ∉ s.adapter.contextEvents
  requests : (s.acks.map Prod.fst).Nodup
  items : ∀ ack ∈ s.acks, ack.2.1 ∈ s.adapter.contextSeenItemIds
  servers : (s.acks.map fun ack => ack.2.1).Nodup
  seen : ∀ ack ∈ s.acks, ack.2.2 ∈ s.adapter.contextSeenEventIds
  events : (s.acks.map fun ack => ack.2.2).Nodup

theorem kept_init (h : Init s) : Kept s := by
  obtain ⟨table,rfl⟩ := h
  have hempty : (∅ : Dict String (Option ContextMessage)).entries = [] := rfl
  have hnone : ∀ id, id ∉ (∅ : Dict String (Option ContextMessage)) := fun id => Dict.get_eq_none.mp rfl
  constructor <;> simp [pendingMessages,waiting,hempty,hnone]

/-- An id that is drawn now names nothing yet. -/
theorem Kept.unknown (hs : Kept s) {fresh : String} (hf : fresh ∉ s.usedIds) :
    newEventId fresh ∉ s.adapter.contextEvents ∧ newEventId fresh ∉ s.sent.map Prod.fst ∧
      newEventId fresh ∉ s.acks.map Prod.fst := by
  have hno : ∀ id, id ∈ s.adapter.contextEvents ∨ id ∈ s.sent.map Prod.fst ∨ id ∈ s.acks.map Prod.fst →
      id ≠ newEventId fresh := by
    rintro id hid rfl
    obtain ⟨fresh',hused,heq⟩ := hs.drawn _ hid
    rw [newEventId_inj heq] at hf
    exact hf hused
  exact ⟨fun h => hno _ (.inl h) rfl,fun h => hno _ (.inr (.inl h)) rfl,fun h => hno _ (.inr (.inr h)) rfl⟩

/-- A request is added behind all others. -/
theorem Kept.add (hs : Kept s) {fresh : String} {v : Option ContextMessage} {a : QwenOmniAdapter}
    (hf : fresh ∉ s.usedIds)
    (hevents : a.contextEvents = s.adapter.contextEvents.set (newEventId fresh) v)
    (hitems : a.contextSeenItemIds = s.adapter.contextSeenItemIds)
    (hseen : a.contextSeenEventIds = s.adapter.contextSeenEventIds) :
    Kept { s with adapter := a, usedIds := insert fresh s.usedIds
                  sent := s.sent ++ (v.map fun expected => (newEventId fresh,expected)).toList } := by
  obtain ⟨hpending,hsent,hacked⟩ := hs.unknown hf
  have hwaiting : s.sent.filter (fun e => decide (e.1 ∈ a.contextEvents)) = s.waiting := by
    refine List.filter_congr fun e he => ?_
    have hne : e.1 ≠ newEventId fresh := by
      intro heq
      exact hsent (heq ▸ List.mem_map_of_mem he)
    simp [hevents,hne]
  refine ⟨?_,?_,?_,hs.requests,?_,hs.servers,?_,hs.events⟩
  · rw [waiting,List.filter_append,hwaiting,← hs.order]
    unfold pendingMessages
    rw [hevents,Dict.entries_set_of_notMem _ hpending,List.filterMap_append]
    cases v with
    | none => simp
    | some expected => simp
  · rintro id (hid | hid | hid)
    · rw [hevents,Dict.mem_set] at hid
      obtain rfl | hid := hid
      · exact ⟨fresh,Finset.mem_insert_self _ _,rfl⟩
      · obtain ⟨fresh',hused,rfl⟩ := hs.drawn id (.inl hid)
        exact ⟨fresh',Finset.mem_insert_of_mem hused,rfl⟩
    · rw [List.map_append,List.mem_append] at hid
      obtain hid | hid := hid
      · obtain ⟨fresh',hused,rfl⟩ := hs.drawn id (.inr (.inl hid))
        exact ⟨fresh',Finset.mem_insert_of_mem hused,rfl⟩
      · obtain rfl : id = newEventId fresh := by
          cases v <;> simp_all
        exact ⟨fresh,Finset.mem_insert_self _ _,rfl⟩
    · obtain ⟨fresh',hused,rfl⟩ := hs.drawn id (.inr (.inr hid))
      exact ⟨fresh',Finset.mem_insert_of_mem hused,rfl⟩
  · intro ack hack hmem
    rw [hevents,Dict.mem_set] at hmem
    obtain heq | hmem := hmem
    · exact hacked (heq ▸ List.mem_map_of_mem hack)
    · exact hs.answered ack hack hmem
  · rw [hitems]
    exact hs.items
  · rw [hseen]
    exact hs.seen

theorem ackOf_cases (payload : Payload) (a : QwenOmniAdapter) (t : RealtimeIdentityTable) :
    ackOf (decodeServerEvent payload a t).result = [] ∨ ∃ frame serverId requestId expected item,
      Echoes frame ⟨a,t⟩ serverId requestId expected item ∧
      ackOf (decodeServerEvent payload a t).result = [(requestId,serverId,frame.eventId)] ∧
      (decodeServerEvent payload a t).adapter.contextEvents = a.contextEvents.erase requestId ∧
      serverId ∈ (decodeServerEvent payload a t).adapter.contextSeenItemIds ∧
      frame.eventId ∈ (decodeServerEvent payload a t).adapter.contextSeenEventIds := by
  cases hd : (decodeServerEvent payload a t).result with
  | error e => exact .inl rfl
  | ok d =>
    obtain ⟨frame,_,hid,hmeaning⟩ := decoding_means hd
    cases hmeaning with
    | plain h => exact .inl (by simp [ackOf,h.ack,h.request])
    | transcript _ _ _ _ ack _ _ => exact .inl (by simp [ackOf,ack])
    | instructions _ _ _ _ ack _ _ _ => exact .inl (by simp [ackOf,ack])
    | rejected _ _ _ _ ack _ _ => exact .inl (by simp [ackOf,ack])
    | echo serverId requestId expected item h request ack _ _ after items event =>
      refine .inr ⟨frame,serverId,requestId,expected,item,h,?_,after,items,event⟩
      simp only [ackOf,request,ack,hid]

/-- The step lemma of a decoded frame: what it acknowledges was pending, and was not seen before. -/
theorem Kept.decode (hs : Kept s) (payload : Payload) {s' : ContextLog}
    (h : s.step (.decode payload) = some s') : Kept s' := by
  obtain rfl := Option.some.inj h
  have hnarrow := decoding_narrows (a := s.adapter) payload s.table
  obtain ⟨gone,hgone⟩ := hnarrow.events
  have hmem := mem_contextEvents_narrowed hgone
  have horder : pendingMessages (decodeServerEvent payload s.adapter s.table).adapter =
      s.sent.filter fun e => decide (e.1 ∈ (decodeServerEvent payload s.adapter s.table).adapter.contextEvents) := by
    rw [pendingMessages_narrowed hgone,hs.order,waiting,List.filter_filter]
    refine List.filter_congr fun e _ => ?_
    simp [hmem,Bool.and_comm]
  have hold : ∀ ack ∈ s.acks, ack.1 ∉ (decodeServerEvent payload s.adapter s.table).adapter.contextEvents :=
    fun ack hack hin => hs.answered ack hack ((hmem _).mp hin).1
  obtain hnone | ⟨frame,serverId,requestId,expected,item,hecho,hack,hafter,hitem,hevent⟩ :=
    ackOf_cases payload s.adapter s.table
  · simp only [hnone,List.nil_append]
    exact ⟨horder,fun id hid => hs.drawn id (hid.imp_left fun hin => ((hmem _).mp hin).1),hold,hs.requests,
      fun ack h => hnarrow.items (hs.items ack h),hs.servers,fun ack h => hnarrow.seen (hs.seen ack h),hs.events⟩
  · have hpending : requestId ∈ s.adapter.contextEvents := by
      have hhead := hecho.oldest
      rw [oldestMessage_eq] at hhead
      exact mem_contextEvents_of_pending (List.mem_of_mem_head? hhead)
    have hnewServer : serverId ∉ s.acks.map fun ack => ack.2.1 := by
      intro hin
      obtain ⟨ack,hmem,rfl⟩ := List.mem_map.mp hin
      exact hecho.new (hs.items ack hmem)
    have hnewEvent : frame.eventId ∉ s.acks.map fun ack => ack.2.2 := by
      intro hin
      obtain ⟨ack,hmem,heq⟩ := List.mem_map.mp hin
      exact hecho.unseen (heq ▸ hs.seen ack hmem)
    have hnewRequest : requestId ∉ s.acks.map Prod.fst := by
      intro hin
      obtain ⟨ack,hmem,rfl⟩ := List.mem_map.mp hin
      exact hs.answered ack hmem hpending
    simp only [hack,List.singleton_append]
    refine ⟨horder,?_,?_,List.nodup_cons.mpr ⟨hnewRequest,hs.requests⟩,?_,
      List.nodup_cons.mpr ⟨hnewServer,hs.servers⟩,?_,List.nodup_cons.mpr ⟨hnewEvent,hs.events⟩⟩
    · rintro id (hid | hid | hid)
      · exact hs.drawn id (.inl ((hmem _).mp hid).1)
      · exact hs.drawn id (.inr (.inl hid))
      · obtain rfl | hid := List.mem_cons.mp hid
        · exact hs.drawn _ (.inl hpending)
        · exact hs.drawn id (.inr (.inr hid))
    · intro ack hin
      obtain rfl | hin := List.mem_cons.mp hin
      · rw [hafter]
        simp [Dict.mem_erase]
      · exact hold ack hin
    · intro ack hin
      obtain rfl | hin := List.mem_cons.mp hin
      · exact hitem
      · exact hnarrow.items (hs.items ack hin)
    · intro ack hin
      obtain rfl | hin := List.mem_cons.mp hin
      · exact hevent
      · exact hnarrow.seen (hs.seen ack hin)

theorem Kept.step (hs : Kept s) {action : ContextAction} (h : s.step action = some s') : Kept s' := by
  cases action with
  | appendMessage fresh text role =>
    simp only [ContextLog.step,Option.ite_none_left_eq_some] at h
    obtain ⟨hf,h⟩ := h
    obtain rfl := Option.some.inj h
    exact hs.add (v := some ⟨role,text⟩) hf rfl rfl rfl
  | updateInstructions fresh text =>
    simp only [ContextLog.step,Option.ite_none_left_eq_some] at h
    obtain ⟨hf,h⟩ := h
    obtain rfl := Option.some.inj h
    have hadd := hs.add (v := none) (a := (updateInstructions fresh text s.adapter).2) hf rfl rfl rfl
    simpa using hadd
  | sessionUpdate fresh request =>
    obtain rfl := Option.some.inj h
    exact { hs with }
  | decode payload => exact hs.decode payload h
  | rebind table =>
    obtain rfl := Option.some.inj h
    exact { hs with }

theorem kept (h : Reachable s) : Kept s :=
  Transition.ReachableWith.invariant (fun _ => kept_init) (fun _ _ _ hs _ hstep => hs.step hstep) h

end ContextLog

/-! Frames about something else. -/

/-- A created item that is no echo: spoken input, the result of a tool, or something seen before. -/
inductive Foreign (a : QwenOmniAdapter) (t : RealtimeIdentityTable) (frame : ServerFrame) : Prop
  | seenEvent (h : frame.eventId ∈ a.contextSeenEventIds)
  | seenItem (item : Json.Object) (id : String) (h : requireObject (Json.field frame.value "item") "item" = .ok item)
      (hid : requireIdentifier (Json.field item "id") "item.id" = .ok id) (hh : id ∈ a.contextSeenItemIds)
  | audio (item : Json.Object) (h : requireObject (Json.field frame.value "item") "item" = .ok item)
      (hh : (Json.asList (Json.field item "content")).any (·.any isAudioPart))
  | voice (item : Json.Object) (id : String) (known : RealtimeItemIdentity)
      (h : requireObject (Json.field frame.value "item") "item" = .ok item)
      (hid : requireIdentifier (Json.field item "id") "item.id" = .ok id) (hh : t.lookup id = some known)
      (hrole : known.role = .user) (horigin : known.origin.any (· ∈ voiceOrigins))
  | toolOutput (item : Json.Object) (h : requireObject (Json.field frame.value "item") "item" = .ok item)
      (hh : Json.isString (Json.field item "type") "message" = false)

/-- The pending requests stay. -/
abbrev KeepsPending {α : Type} (m : QwenDecoder α) (s : DecoderState QwenOmniAdapter) : Prop :=
  Run.Within (fun s u => u.adapter.contextEvents = s.adapter.contextEvents) (fun _ _ => True) m s


theorem keepsPending_seen {d : DecodedProviderEvent} {s : DecoderState QwenOmniAdapter} : KeepsPending (seen d) s :=
  within_modify_bind (.single rfl) within_pure

theorem keepsPending_register {id : String} {role : Role} {source : String} {confirmed : Bool} {aliases : List String}
    {s : DecoderState QwenOmniAdapter} : KeepsPending (Decoder.register id role source confirmed aliases) s := by
  refine within_get ?_
  cases s.table.register id role source confirmed aliases with
  | error e => exact ⟨.refl,fun p => nomatch p⟩
  | ok a => exact within_modify_bind (.single rfl) within_pure

theorem keepsPending_ofExcept {α β : Type} {x : Except Exn α} {m : α → QwenDecoder β}
    {s : DecoderState QwenOmniAdapter} (h : ∀ a, x = .ok a → KeepsPending (m a) s) :
    KeepsPending (Run.ofExcept x >>= m) s := by
  cases x with
  | error e => exact ⟨.refl,fun p => nomatch p⟩
  | ok a => exact ⟨(h a rfl).moves,fun p => nomatch p⟩

theorem keepsPending_audioItemCreated {eventId serverId source : String} {item : Json.Object}
    {s : DecoderState QwenOmniAdapter} : KeepsPending (audioItemCreated eventId serverId item source) s := by
  refine within_get (Run.Within.ite (fun _ => within_raise) fun _ => ?_)
  refine keepsPending_register.bind fun _ _ _ _ => ?_
  exact within_modify_bind (.single rfl) keepsPending_seen

theorem keepsPending_unrelatedItemCreated {eventId serverId : String} {item : Json.Object} {unrelatedAudio : Bool}
    {s : DecoderState QwenOmniAdapter} :
    KeepsPending (unrelatedItemCreated eventId serverId item unrelatedAudio) s := by
  have hrest : ∀ u, KeepsPending (do Run.modify (seeItems {serverId}); seen { eventId }) u :=
    fun u => within_modify_bind (.single rfl) keepsPending_seen
  refine within_get (Run.Within.ite (fun _ => within_raise) fun _ => Run.Within.ite (fun _ => ?_) fun _ => hrest s)
  exact keepsPending_register.bind fun _ u _ _ => hrest u

/-- An item that is no message is never taken for an echo. -/
theorem keepsPending_echoCreated {eventId serverId requestId : String} {item : Json.Object}
    {expected : ContextMessage} {s : DecoderState QwenOmniAdapter}
    (h : Json.isString (Json.field item "type") "message" = false) :
    KeepsPending (echoCreated eventId serverId item requestId expected) s := by
  have hshape : echoShape item expected.role = false := by simp [echoShape,h]
  exact within_get (Run.Within.ite (fun _ => within_raise) fun hno => absurd (by simp [hshape]) hno)

theorem keepsPending_contextMessageCreated {eventId : String} {item : Json.Object}
    {s : DecoderState QwenOmniAdapter}
    (h : ∀ id, requireIdentifier (Json.field item "id") "item.id" = .ok id →
      Json.isString (Json.field item "type") "message" →
      (Json.asList (Json.field item "content")).any (·.any isAudioPart) ∨ id ∈ s.adapter.contextSeenItemIds ∨
        ((s.table.lookup id).filter fun known =>
          known.role == .user && known.origin.any (· ∈ voiceOrigins)).isSome) :
    KeepsPending (contextMessageCreated eventId item) s := by
  refine keepsPending_ofExcept fun serverId hid => within_get ?_
  refine Run.Within.ite (fun _ => keepsPending_audioItemCreated) fun hnot => ?_
  refine Run.Within.ite (fun _ => keepsPending_seen) fun hnew => ?_
  dsimp only
  split
  · exact keepsPending_unrelatedItemCreated
  · refine keepsPending_echoCreated ?_
    cases hmessage : Json.isString (Json.field item "type") "message" with
    | false => rfl
    | true =>
      obtain haudio | hseen | hvoice := h serverId hid hmessage
      · exact absurd (by simp [hmessage,haudio]) hnot
      · exact absurd hseen hnew
      · exact absurd (by simp only [hmessage,hvoice,Bool.or_true,Bool.and_self]) hnot

theorem keepsPending_itemCreated {frame : ServerFrame} {s : DecoderState QwenOmniAdapter}
    (h : Foreign s.adapter s.table frame) (hunseen : frame.eventId ∉ s.adapter.contextSeenEventIds) :
    KeepsPending (itemCreated frame) s := by
  refine keepsPending_ofExcept fun item hitem => within_get (Run.Within.ite (fun _ => ?_) fun _ => ?_)
  · refine keepsPending_contextMessageCreated fun id hid hmessage => ?_
    cases h with
    | seenEvent h => exact absurd h hunseen
    | seenItem item' id' h hid' hh =>
      obtain rfl := Except.ok.inj (hitem.symm.trans h)
      obtain rfl := Except.ok.inj (hid.symm.trans hid')
      exact .inr (.inl hh)
    | audio item' h hh =>
      obtain rfl := Except.ok.inj (hitem.symm.trans h)
      exact .inl hh
    | voice item' id' known h hid' hh hrole horigin =>
      obtain rfl := Except.ok.inj (hitem.symm.trans h)
      obtain rfl := Except.ok.inj (hid.symm.trans hid')
      exact .inr (.inr (by simp [hh,hrole,horigin]))
    | toolOutput item' h hh =>
      obtain rfl := Except.ok.inj (hitem.symm.trans h)
      rw [hh] at hmessage
      exact nomatch hmessage
  · exact keepsPending_ofExcept fun identity _ => keepsPending_seen

theorem decodeServerFrame_itemCreated {frame : ServerFrame} {s : DecoderState QwenOmniAdapter}
    (htype : frame.type = "conversation.item.created") (hunseen : frame.eventId ∉ s.adapter.contextSeenEventIds) :
    decodeServerFrame frame s = itemCreated frame s := by
  simp only [decodeServerFrame,Run.get_bind,if_neg hunseen,decodeFrame,htype]
  rfl

theorem Foreign.keepsPending {frame : ServerFrame} {s : DecoderState QwenOmniAdapter}
    (h : Foreign s.adapter s.table frame) (htype : frame.type = "conversation.item.created") :
    (decodeServerFrame frame s).state.adapter.contextEvents = s.adapter.contextEvents := by
  by_cases hunseen : frame.eventId ∈ s.adapter.contextSeenEventIds
  · simp [decodeServerFrame,hunseen]
  · rw [decodeServerFrame_itemCreated htype hunseen]
    exact moves_keep (I := fun u : DecoderState QwenOmniAdapter => u.adapter.contextEvents = s.adapter.contextEvents)
      (fun _ _ hm hu => hm.trans hu) (keepsPending_itemCreated h hunseen).moves rfl

theorem decoding_adapter {payload : Payload} {frame : ServerFrame} {t : RealtimeIdentityTable}
    (h : wireDecode payload = .ok frame) :
    (decodeServerEvent payload a t).adapter = (decodeServerFrame frame ⟨a,t⟩).state.adapter := by
  unfold decodeServerEvent Decoder.decoding
  simp only [h,Run.ofExcept,Run.pure_bind_apply]
  cases decodeServerFrame frame ⟨a,t⟩ with
  | ok d u => rfl
  | raise e u => rfl
  | park p => cases p

/-- A frame that the adapter can read is an object whose type the control plane reads too. -/
theorem wireDecode_object {payload : Payload} {frame : ServerFrame} (h : wireDecode payload = .ok frame) :
    ∃ value, payload.loads = .ok (.obj value) ∧ strictJsonObject payload = .ok value ∧
      Json.asString (Json.field value "type") = some frame.type := by
  unfold wireDecode at h
  by_cases hsize : payload.bytes > 1048576
  · simp [hsize,protocolError,bind,Except.bind] at h
  · simp only [hsize,if_false] at h
    obtain ⟨value,hvalue,h⟩ := except_bind_ok h
    obtain ⟨frame',hframe,h⟩ := except_bind_ok h
    have heq : frame' = frame := by
      split at h
      · exact Except.ok.inj h
      · simp [protocolError] at h
    subst heq
    have hloads : payload.loads = .ok (.obj value) := by
      have hstrict := hvalue
      unfold strictJsonObject at hstrict
      split at hstrict
      · simp [protocolError] at hstrict
      · simp at hstrict
      · rename_i loaded hloads
        split at hstrict
        · simp [protocolError] at hstrict
        · simp [protocolError] at hstrict
        · rw [hloads,Except.ok.inj hstrict]
        · simp [protocolError] at hstrict
    refine ⟨value,hloads,hvalue,?_⟩
    unfold eventIdentity at hframe
    obtain ⟨_,_,hframe⟩ := except_bind_ok hframe
    cases htype : Json.asString (Json.field value "type") with
    | none => simp [htype,protocolError] at hframe
    | some type =>
      simp only [htype] at hframe
      split at hframe
      · rw [← Except.ok.inj hframe]
      · simp [protocolError] at hframe

theorem wireDecode_fields {payload : Payload} {frame : ServerFrame} (h : wireDecode payload = .ok frame) :
    ∃ fields, safeEventFields payload = .ok fields := by
  obtain ⟨value,hloads,_⟩ := wireDecode_object h
  exact ⟨_,by rw [safeEventFields,hloads]⟩

theorem wireDecode_control {payload : Payload} {frame : ServerFrame} (h : wireDecode payload = .ok frame)
    (htype : Text.startsWith frame.type "tokenseller." = false) : RelayControl.decodeRuntimeEvent payload = .ok none := by
  obtain ⟨value,_,hstrict,hvalue⟩ := wireDecode_object h
  unfold RelayControl.decodeRuntimeEvent
  rw [hstrict]
  show RelayControl.decodeObject value = _
  simp [RelayControl.decodeObject,hvalue,htype]
/-- The frame is the exact completed echo of the message that was sent as `requestId`: it comes once, for
an item that nothing has named before. -/
structure ExactEcho (a : QwenOmniAdapter) (table : RealtimeIdentityTable) (requestId : String) (expected : ContextMessage)
    (frame : ServerFrame) (item : Json.Object) (serverId : String) : Prop where
  type : frame.type = "conversation.item.created"
  unseen : frame.eventId ∉ a.contextSeenEventIds
  holds : Json.asObject (Json.field frame.value "item") = some item
  id : optionalIdentifier (Json.field item "id") = some serverId
  shape : echoShape item expected.role
  parts : contextTextParts (Json.field item "content") = .ok [expected.text]
  fresh : serverId ∉ a.contextSeenItemIds ∧ serverId ∉ a.contextEvents
  names : ∀ name ∈ [serverId, requestId], validIdentity name ∧ table.lookup name = none

/-- A part with text is no audio. -/
theorem not_audio_of_parts {content : Option Json} {text : String} (h : contextTextParts content = .ok [text]) :
    ∃ part, Json.asList content = some [part] ∧ isAudioPart part = false := by
  unfold contextTextParts at h
  split at h
  · simp [protocolError] at h
  · simp [protocolError] at h
  · rename_i parts _ hparts
    rw [hparts]
    cases parts with
    | nil => exact absurd (Except.ok.inj h) (by simp)
    | cons part parts =>
      rw [List.mapM_cons] at h
      obtain ⟨first,hfirst,h⟩ := except_bind_ok h
      obtain ⟨rest,hrest,h⟩ := except_bind_ok h
      have hnil : rest = [] := (List.cons.inj (Except.ok.inj h)).2
      subst hnil
      have hparts : parts = [] := by
        cases parts with
        | nil => rfl
        | cons part' parts =>
          rw [List.mapM_cons] at hrest
          obtain ⟨_,_,hrest⟩ := except_bind_ok hrest
          obtain ⟨_,_,hrest⟩ := except_bind_ok hrest
          exact absurd (Except.ok.inj hrest) (by simp)
      subst hparts
      refine ⟨part,rfl,?_⟩
      cases part with
      | obj part =>
        have htype : Json.isString (Json.field part "type") "input_text" = true := by
          cases htype : Json.isString (Json.field part "type") "input_text" with
          | true => rfl
          | false => simp [htype,protocolError] at hfirst
        have hstring : Json.asString (Json.field part "type") = some "input_text" := of_decide_eq_true htype
        simp [isAudioPart,Json.isString,hstring]
      | _ => rfl

theorem decoding_echo {a : QwenOmniAdapter} {table : RealtimeIdentityTable} {requestId serverId : String}
    {expected : ContextMessage} {payload : Payload} {frame : ServerFrame} {item : Json.Object}
    (hframe : wireDecode payload = .ok frame) (h : ExactEcho a table requestId expected frame item serverId)
    (hold : oldestMessage a = some (requestId,expected)) : (decodeServerEvent payload a table).result =
      .ok { eventId := frame.eventId, contextAckId := some serverId, contextRequestId := some requestId } := by
  obtain ⟨part,hparts,haudio⟩ := not_audio_of_parts h.parts
  have hmessage : Json.isString (Json.field item "type") "message" = true := by
    have hshape := h.shape
    simp only [echoShape,Bool.and_eq_true] at hshape
    exact hshape.1.1
  obtain ⟨_,hlookup⟩ := h.names serverId List.mem_cons_self
  have hrun : ∃ u, decodeServerFrame frame ⟨a,table⟩ =
      .ok { eventId := frame.eventId, contextAckId := some serverId, contextRequestId := some requestId } u := by
    rw [decodeServerFrame_itemCreated h.type h.unseen]
    have hitem : requireObject (Json.field frame.value "item") "item" = .ok item := by simp [requireObject,h.holds]
    have hid : requireIdentifier (Json.field item "id") "item.id" = .ok serverId := by simp [requireIdentifier,h.id]
    have hcreated : itemCreated frame ⟨a,table⟩ = echoCreated frame.eventId serverId item requestId expected ⟨a,table⟩ := by
      simp [itemCreated,contextMessageCreated,Run.ofExcept,hitem,hid,hmessage,hparts,haudio,hlookup,h.fresh.1,hold]
    rw [hcreated]
    by_cases hrole : expected.role = .assistant
    · have hshape : echoShape item .assistant = true := hrole ▸ h.shape
      simp [echoCreated,Run.ofExcept,hshape,h.fresh.2,h.parts,hrole]
    · obtain ⟨r,hr⟩ := RealtimeIdentityTable.register_new expected.role "context_ack" true none h.names
      simp [echoCreated,Run.ofExcept,h.shape,h.fresh.2,h.parts,hrole,Decoder.register,hr,Run.bind_apply,popContext,seeItems]
  obtain ⟨u,hu⟩ := hrun
  simp only [decodeServerEvent,Decoder.decoding,hframe,Run.ofExcept,Run.pure_bind_apply,hu]

/-! The queue of messages. -/

namespace ContextLog

/-- The frame `frame` acknowledges, in the event `d`, the message that has waited longest. -/
structure AcknowledgesOldest (s : ContextLog) (frame : ServerFrame) (d : DecodedProviderEvent) : Prop where
  type : frame.type = "conversation.item.created"
  oldest : ∃ serverId requestId expected item, d.contextAckId = some serverId ∧
    d.contextRequestId = some requestId ∧ s.waiting.head? = some (requestId,expected) ∧
    Json.asObject (Json.field frame.value "item") = some item ∧
    optionalIdentifier (Json.field item "id") = some serverId ∧ echoShape item expected.role ∧
    contextTextParts (Json.field item "content") = .ok [expected.text]

/-- What the acknowledgement of messages keeps to in every state. -/
structure ExactFifo (s : ContextLog) : Prop where
  oldest : ∀ payload d, (decodeServerEvent payload s.adapter s.table).result = .ok d → d.contextAckId.isSome →
    ∃ frame, wireDecode payload = .ok frame ∧ s.AcknowledgesOldest frame d
  requests : (s.acks.map Prod.fst).Nodup
  items : (s.acks.map fun ack => ack.2.1).Nodup
  events : (s.acks.map fun ack => ack.2.2).Nodup
  foreign : ∀ payload frame, wireDecode payload = .ok frame → frame.type = "conversation.item.created" →
    Foreign s.adapter s.table frame → ∀ s', s.step (.decode payload) = some s' → s'.waiting = s.waiting

/-- Messages are acknowledged first in, first out, each once. -/
theorem context_fifo (h : Reachable s) : s.ExactFifo := by
  have hs := kept h
  refine ⟨fun payload d hd hack => ?_,hs.requests,hs.servers,hs.events,?_⟩
  · obtain ⟨frame,hframe,_,hmeaning⟩ := decoding_means hd
    refine ⟨frame,hframe,?_⟩
    cases hmeaning with
    | plain h => simp [h.ack] at hack
    | transcript _ _ _ _ ack _ _ => simp [ack] at hack
    | instructions _ _ _ _ ack _ _ _ => simp [ack] at hack
    | rejected _ _ _ _ ack _ _ => simp [ack] at hack
    | echo serverId requestId expected item h request ack _ _ _ _ _ =>
      have hhead : s.waiting.head? = some (requestId,expected) := by
        rw [← hs.order,← oldestMessage_eq]
        exact h.oldest
      exact ⟨h.type,serverId,requestId,expected,item,ack,request,hhead,h.holds,h.id,h.shape,h.parts⟩
  · intro payload frame hframe htype hforeign s' hstep
    obtain rfl := Option.some.inj hstep
    have hkeep : (decodeServerEvent payload s.adapter s.table).adapter.contextEvents = s.adapter.contextEvents := by
      rw [decoding_adapter hframe]
      exact hforeign.keepsPending htype
    simp only [waiting,hkeep]

/-- The echo of the message `text` under the id `id` of the provider. -/
def messageEcho (event id text : String) : Payload :=
  serverFrame "conversation.item.created" ("event_" ++ event) [("item",.obj [("id",.str id), ("type",.str "message"),
    ("status",.str "completed"), ("role",.str "user"),
    ("content",.arr [.obj [("type",.str "input_text"), ("text",.str text)]])])]

/-- Of two messages with the same text the first is acknowledged. -/
def echoedFirst : ContextLog :=
  ((exec step {} [.appendMessage "a" "Hello." .user, .appendMessage "b" "Hello." .user,
    .decode (messageEcho "r1" "item" "Hello.")]).getD {})

theorem context_fifo_echoedFirst :
    (echoedFirst.acks = [("event_a","item","event_r1")] ∧ echoedFirst.waiting = [("event_b",⟨.user,"Hello."⟩)]) ∧
      echoedFirst.ExactFifo := by
  have hrun : (exec step ({} : ContextLog) [.appendMessage "a" "Hello." .user, .appendMessage "b" "Hello." .user,
      .decode (messageEcho "r1" "item" "Hello.")]).isSome := by decide
  obtain ⟨s,hs⟩ := Option.isSome_iff_exists.mp hrun
  have heq : echoedFirst = s := by rw [echoedFirst,hs,Option.getD_some]
  refine ⟨by decide,context_fifo ?_⟩
  rw [heq]
  exact exec_reachable _ ⟨{},rfl⟩ hs

end ContextLog

end QwenOmni
end HarnessSdk
