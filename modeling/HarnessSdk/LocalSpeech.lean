import HarnessSdk.LocalResponses
import HarnessSdk.LocalWire

/-!
# The controller speaks its own protocol

Behind `local.hello` the generation of the call is positive, and each message that is handed to the channel is read
back as it was. Without it the generation is zero, and the decoder refuses what `_fail` says.
-/

namespace HarnessSdk
namespace Local

/-- The other side reads a message back: a text as its dictionary, a frame as it was. -/
def Understood : LocalMessage → Prop
  | .audio frame => ∃ bytes, encodePcmFrame frame = .ok bytes ∧ decodePcmFrame bytes = .ok frame
  | message => ∃ value, message.value = some value ∧ encodeLocalMessage value = .ok value ∧
      ∀ payload, IsText value payload → decodeLocalMessage payload = .ok (message.type,value)

theorem understood_text {message : LocalMessage} {value : Json.Object} (h : message.value = some value)
    (hpositive : 0 < message.generation) : Understood message := by
  have hdecodes : ∀ payload, IsText value payload → decodeLocalMessage payload = .ok (message.type,value) :=
    fun payload htext => (LocalMessage.decodes_iff h htext).mpr hpositive
  have hencodes := LocalMessage.value_encodes h
  cases message with
  | audio frame => exact nomatch h
  | _ => exact ⟨value,h,hencodes,hdecodes⟩

theorem understood_audio {frame : LocalPcmFrame} {bytes : Bytes} (h : encodePcmFrame frame = .ok bytes) :
    Understood (.audio frame) := ⟨bytes,h,decodePcmFrame_encoded h⟩

/-- `_receive_hello` accepts this text. -/
def isHello (payload : Payload) : Bool :=
  match decodeLocalMessage payload with
  | .error _ => false
  | .ok (messageType,value) =>
    decide (messageType = "local.hello") && decide (Json.asInt (Json.field value "generation") = some 1) &&
      (Json.asString (Json.field value "correlation")).any Controller.isCorrelation

namespace Controller

open Run Relation

variable {c : LocalConfig} {s s' u v : Controller} {a : ChannelAction} {leave : Prop} {mover : Mover}

/-- `run` waits for `local.hello`, and gets something else than it, the end of the channel or a cancellation. -/
def refusesHello (s : Controller) (a : ChannelAction) : Prop :=
  s.receiver = .hello ∧
    match a with
    | .run (.text payload) => isHello payload = false
    | .run (.binary _) => True
    | .run (.raised e) => e ≠ .ended
    | _ => False

/-! Behind `local.hello`. -/

structure Speaks (s : Controller) : Prop where
  generation : s.generation = 1
  understood : ∀ message ∈ handed s.log, Understood message

theorem Speaks.hand (h : Speaks s) {message : LocalMessage} (hm : Understood message) {t : Controller}
    (hgeneration : t.generation = s.generation) (hlog : handed t.log = message :: handed s.log) : Speaks t := by
  refine ⟨hgeneration.trans h.generation,fun m hmem => ?_⟩
  rw [hlog,List.mem_cons] at hmem
  obtain rfl | hmem := hmem
  · exact hm
  · exact h.understood m hmem

theorem Speaks.say (h : Speaks s) {message : LocalMessage} {value : Json.Object} (hvalue : message.value = some value)
    (hmessage : message.generation = s.generation) {t : Controller} (hgeneration : t.generation = s.generation)
    (hlog : handed t.log = message :: handed s.log) : Speaks t := by
  refine h.hand (understood_text hvalue ?_) hgeneration hlog
  rw [hmessage,h.generation]
  exact Nat.one_pos

theorem Speaks.quiet (h : Speaks s) {t : Controller} (hgeneration : t.generation = s.generation)
    (hlog : handed t.log = handed s.log) : Speaks t :=
  ⟨hgeneration.trans h.generation,fun m hmem => h.understood m (hlog ▸ hmem)⟩

theorem Aside.speaks (h : Aside mover s u) (hs : Speaks s) : Speaks u := by
  cases h with
  | failNow | connecting | closing | ready => exact hs.say rfl rfl rfl rfl
  | audio _ _ frame bytes hencode => exact hs.hand (understood_audio hencode) rfl rfl
  | _ => exact hs.quiet rfl rfl

theorem Move.speaks (h : Move leave mover s u) (hs : Speaks s) : Speaks u := by
  cases h with
  | aside h => exact h.speaks hs
  | hello => exact ⟨rfl,hs.understood⟩
  | ack => exact hs.say rfl rfl rfl rfl
  | _ => exact hs.quiet rfl rfl

theorem FailStep.speaks {f : Failing} {next : Option FailPoint} (h : FailStep f s next u) (hs : Speaks s) :
    Speaks u := by
  cases h with
  | state | error | closed => exact hs.say rfl rfl rfl rfl
  | channel | ended => exact hs

theorem Turn.speaks (h : Turn v u) (hv : Speaks v) : Speaks u := by
  cases h with
  | rest => exact hv
  | forwards event _ _ hdomain =>
    have hsome : (LocalMessage.callEvent v.generation event).value.isSome := by
      simp [LocalMessage.value,domainEventValue_isSome,hdomain]
    obtain ⟨value,hvalue⟩ := Option.isSome_iff_exists.mp hsome
    exact hv.say hvalue rfl rfl rfl
  | fails f next _ hstep => exact hstep.speaks hv
  | active => exact hv.say rfl rfl rfl rfl
  | closes => exact hv.say rfl rfl rfl rfl

theorem Speaks.step (h : Speaks s) (ho : Ordered s) (ha : Controller.step c s a = some s') : Speaks s' := by
  obtain ⟨_,v,u,-,hmoves,hturn,hlog,-,hgeneration,-⟩ := step_turn ho ha
  have hv : Speaks v := moves_keep (I := Speaks) (fun _ _ hm => Move.speaks hm) hmoves h
  have hu := hturn.speaks hv
  exact hu.quiet hgeneration (by rw [hlog])

/-! Before it. -/

/-- Nobody but `run` is there, and nothing has been handed to the channel. -/
structure Silent (s : Controller) : Prop where
  receiver : s.receiver = .hello ∨ s.receiver = .closingChannel ∨ s.receiver = .finished
  session : s.hasSession = false
  events : s.events = none
  timer : s.timer = none
  log : s.log = []

theorem Silent.finish (h : Silent s) : finish s = .park .closingChannel s := by
  simp [Controller.finish,finishEvents,finishSession,eventsRunning,h.timer,h.events,h.session]

/-- The controller that has heard `local.hello`. -/
def greeted (s : Controller) (correlation : String) : Controller :=
  { s with generation := 1, correlation, inputWindow := some { generation := 1 } }

theorem receiveHello_accepts {payload : Payload} (h : isHello payload) :
    ∃ correlation, receiveHello payload s = .ok () (s.greeted correlation) := by
  unfold isHello at h
  unfold receiveHello
  cases hdecode : decodeLocalMessage payload with
  | error e => simp [hdecode] at h
  | ok message =>
    obtain ⟨messageType,value⟩ := message
    simp only [hdecode,Bool.and_eq_true,decide_eq_true_eq,Option.any_eq_true] at h
    obtain ⟨⟨rfl,hgeneration⟩,correlation,hcorrelation,hvalid⟩ := h
    refine ⟨correlation,?_⟩
    simp [Run.ofExcept,hgeneration,hcorrelation,hvalid,greeted]

/-- `run` gives up or hears `local.hello`. -/
theorem Silent.settles (h : Silent s) {m : Prog RunPoint Unit} (hm : m s = .park .closingChannel s ∨ m s = .ok () s) :
    Silent (settleRun m s) := by
  unfold settleRun
  obtain hpark | hok := hm
  · rw [hpark]
    exact ⟨.inr (.inl rfl),h.session,h.events,h.timer,h.log⟩
  · rw [hok]
    exact ⟨.inr (.inr rfl),h.session,h.events,h.timer,h.log⟩

theorem Silent.accepts (h : Silent s) {payload : Payload} (hhello : isHello payload) :
    Speaks (settleRun (runBody (receiveHello payload)) s) := by
  obtain ⟨correlation,hreceive⟩ := receiveHello_accepts (s := s) hhello
  have hgreeted : Silent (s.greeted correlation) := ⟨h.receiver,h.session,h.events,h.timer,h.log⟩
  have hpark : ∃ point, runBody (receiveHello payload) s = .park point (s.greeted correlation) := by
    simp only [runBody,Run.handle,Run.bind_eq hreceive,receiveLoop,get_bind]
    by_cases hterminal : (s.greeted correlation).terminal
    · exact ⟨.closingChannel,by rw [if_pos hterminal,hgreeted.finish]⟩
    · exact ⟨.receiving,by rw [if_neg hterminal]; rfl⟩
  obtain ⟨point,hpark⟩ := hpark
  unfold settleRun
  rw [hpark]
  refine ⟨rfl,fun message hmem => ?_⟩
  have hlog : (s.greeted correlation).log = [] := h.log
  simp [hlog,handed] at hmem

theorem Silent.hello_step (h : Silent s) (hpoint : s.receiver = .hello) {signal : Signal} {m : Prog RunPoint Unit}
    (hheard : ¬refusesHello s (.run signal)) (hm : resumeRun c s .hello signal = some m) :
    Silent (settleRun m s) ∨ Speaks (settleRun m s) := by
  cases signal with
  | cancelled =>
    obtain rfl := Option.some.inj hm
    exact .inl (h.settles (.inl h.finish))
  | text payload =>
    obtain rfl := Option.some.inj hm
    refine .inr (h.accepts ?_)
    by_contra hne
    exact hheard ⟨hpoint,by simpa using hne⟩
  | binary payload => exact absurd ⟨hpoint,trivial⟩ hheard
  | raised e =>
    obtain rfl := Option.some.inj hm
    have hended : e = .ended := by
      by_contra hne
      exact hheard ⟨hpoint,hne⟩
    subst hended
    refine .inl (h.settles (.inl ?_))
    simp [runBody,Run.handle,runRaised,h.session,h.finish]
  | ready | event | ended | timeout => cases hm

theorem Silent.step (h : Silent s) (hheard : ¬refusesHello s a) (ha : Controller.step c s a = some s') :
    Silent s' ∨ Speaks s' := by
  obtain ⟨signal,m,rfl,hm,rfl⟩ | ⟨signal,e,m,rfl,he,hm,rfl⟩ | ⟨signal,t,m,rfl,ht,_,hm,rfl⟩ | ⟨rfl,rfl⟩ := step_cases ha
  · obtain hpoint | hpoint | hpoint := h.receiver
    · rw [hpoint] at hm
      exact h.hello_step hpoint hheard hm
    · refine .inl (h.settles (.inr ?_))
      rw [hpoint] at hm
      cases signal with
      | ready | raised | cancelled =>
        obtain rfl := Option.some.inj hm
        rfl
      | text | binary | event | ended | timeout => exact nomatch hm
    · rw [hpoint] at hm
      exact nomatch hm
  · simp [h.events] at he
  · simp [h.timer] at ht
  · exact .inl ⟨h.receiver,h.session,h.events,h.timer,h.log⟩

/-! The claim. -/

/-- As long as `run` is not refused its `local.hello`, each message that is sent is understood. -/
theorem speaks_own_protocol (h : Transition.ReachableWith (Controller.step c) (fun s a => ¬refusesHello s a) Init s) :
    ∀ message ∈ sent s, Understood message := by
  have hs : Silent s ∨ Speaks s := by
    refine Transition.ReachableWith.invariant_with (J := Ordered) (I := fun s => Silent s ∨ Speaks s)
      (fun s hs => reachable_ordered hs.reachable) (fun s hs => ?_) (fun s a s' ho hI hheard ha => ?_) h
    · obtain rfl : s = {} := hs
      exact .inl ⟨.inl rfl,rfl,rfl,rfl,rfl⟩
    · obtain hsilent | hspeaks := hI
      · exact hsilent.step hheard ha
      · exact .inr (hspeaks.step ho ha)
  intro message hmem
  rw [sent,List.mem_reverse] at hmem
  obtain hsilent | hspeaks := hs
  · simp [hsilent.log,handed] at hmem
  · exact hspeaks.understood message hmem

/-- The steps that refuse no first message. -/
def greetingCheck (s : Controller) : ChannelAction → Bool
  | .run (.text payload) => decide (s.receiver ≠ .hello) || isHello payload
  | _ => decide (s.receiver ≠ .hello)

theorem speaks_own_protocol_hangup : sent (sampleCall {} [.events (.event hangup)]) ≠ [] ∧
    ∀ message ∈ sent (sampleCall {} [.events (.event hangup)]), Understood message := by
  have hok : ∀ s a, greetingCheck s a → ¬refusesHello s a := by
    rintro s a hcheck ⟨hpoint,hrefused⟩
    cases a with
    | run signal =>
      cases signal with
      | text payload => simp [greetingCheck,hpoint,hrefused] at hcheck
      | _ => simp [greetingCheck,hpoint] at hcheck
    | _ => simp [greetingCheck,hpoint] at hcheck
  have hsome : (sent (sampleCall {} [.events (.event hangup)])).length ≠ 0 := by decide
  exact ⟨fun hnil => hsome (by rw [hnil]; rfl),speaks_own_protocol (sampleCall_reachableWith hok (by decide))⟩

/-- The first message of the product is no text. -/
theorem refused_hello_misspoken : ∃ s, Reachable {} s ∧ ∃ message ∈ sent s, ¬Understood message := by
  have hsome : (Transition.exec (Controller.step {}) {} [.run (.binary [])]).isSome := by decide
  obtain ⟨s,hs⟩ := Option.isSome_iff_exists.mp hsome
  have hsent : (Transition.exec (Controller.step {}) {} [.run (.binary [])]).map sent = some [.callState 0 "error"] := by
    decide
  rw [hs] at hsent
  refine ⟨s,Transition.exec_reachable _ rfl hs,.callState 0 "error",?_,?_⟩
  · rw [Option.some.inj hsent]
    exact List.mem_singleton_self _
  · rintro ⟨value,hvalue,_,hdecodes⟩
    have htext : IsText value ⟨0,.ok (.obj value)⟩ := rfl
    have hpositive := (LocalMessage.decodes_iff hvalue htext).mp (hdecodes _ htext)
    exact absurd hpositive (lt_irrefl 0)

end Controller
end Local
end HarnessSdk
