import HarnessSdk.LocalTerminal
import HarnessSdk.ResponseBook

/-!
# The responses that the product sees

`_forward_events` hands an event of the session to the channel in the stretch that has taken it, while the terminal of
the call is free. A response whose start the product has seen ends before `call.closed` when the terminal is not
claimed under it.
-/

namespace HarnessSdk

namespace Session

variable {A : Type} {c : SessionConfig A} {s : Session A}

theorem fifo_invariant : Invariant c Transition.anyStep Fifo fun _ _ _ s => Fifo s where
  start shared id := List.nil_sublist _
  wake _ hs _ hst := by
    have hframe := hst.frame
    exact hs.of_frame (by rw [hframe]) (by rw [hframe])
  move _ hm hs := hm.fifo hs
  park _ _ _ hs _ := hs.of_frame rfl rfl
  stop _ _ _ hs _ := hs.of_frame rfl rfl
  consume _ hs h := hs.consume h
  interfere _ hs := hs.of_frame rfl rfl

/-- The stream yields what was put, in this order. -/
theorem deliveries_sublist (h : Reachable c s) : s.deliveries.Sublist s.puts :=
  (List.sublist_append_right _ _).trans (fifo_invariant.reachable h)

/-- A session can yield these events, in this order. -/
def Streams (events : List RealtimeEvent) : Prop :=
  ∃ (A : Type) (c : SessionConfig A) (s : Session A), Reachable c s ∧ s.deliveries.reverse = events

theorem Streams.ends_once {events : List RealtimeEvent} (h : Streams events) : (events.filterMap finishedOf).Nodup := by
  obtain ⟨A,c,s,hs,rfl⟩ := h
  have hsub : (s.deliveries.filterMap finishedOf).Sublist s.finishes := (deliveries_sublist hs).filterMap _
  rw [List.filterMap_reverse]
  exact List.nodup_reverse.mpr ((response_bookkeeping hs).2.sublist hsub)

end Session

namespace Local

/-- The events that `_forward_events` has taken from the stream, newest first. -/
def taken (log : List Observation) : List RealtimeEvent :=
  log.filterMap fun
    | .took event => some event
    | _ => none

def eventOf : LocalMessage → Option RealtimeEvent
  | .callEvent _ event => some event
  | _ => none

/-- The events that have been handed to the channel, newest first. -/
def forwarded (log : List Observation) : List RealtimeEvent := (handed log).filterMap eventOf

/-- An event is forwarded as soon as it is taken, and not behind `call.closed`. -/
def Reported : List Observation → Prop
  | [] => True
  | .handed (.callEvent _ event) :: log => log.head? = some (.took event) ∧ Unclosed log ∧ Reported log
  | _ :: log => Reported log

theorem Reported.hand {log : List Observation} {message : LocalMessage} (h : Reported log)
    (hmessage : eventOf message = none) : Reported (.handed message :: log) := by
  cases message with
  | callEvent generation event => exact nomatch hmessage
  | _ => exact h

theorem Reported.tail {log : List Observation} {o : Observation} (h : Reported (o :: log)) : Reported log := by
  cases o with
  | handed message =>
    cases message with
    | callEvent generation event => exact h.2.2
    | _ => exact h
  | _ => exact h

/-- The forwarded events have been taken in the same order. -/
theorem Reported.sublist {log : List Observation} (h : Reported log) : (forwarded log).Sublist (taken log) := by
  induction hn : log.length using Nat.strong_induction_on generalizing log with
  | _ n ih =>
    cases log with
    | nil => exact List.Sublist.slnil
    | cons o log =>
      have hrest := ih log.length (by rw [← hn]; simp) h.tail rfl
      cases o with
      | took event => exact hrest.cons event
      | received | accepted => exact hrest
      | handed message =>
        cases message with
        | callEvent generation event =>
          obtain ⟨hhead,_,hlog⟩ := h
          cases log with
          | nil => exact nomatch hhead
          | cons o older =>
            obtain rfl := Option.some.inj hhead
            have holder := ih older.length (by rw [← hn,List.length_cons,List.length_cons]; omega) hlog.tail rfl
            exact holder.cons_cons event
        | _ => exact hrest

/-- Nothing is forwarded behind `call.closed`. -/
theorem Reported.closed {log : List Observation} (h : Reported log) {newer older : List LocalMessage}
    {message : LocalMessage} (hsplit : handed log = newer ++ message :: older) (hclosed : message.isClosed) :
    newer.filterMap eventOf = [] := by
  induction log generalizing newer with
  | nil =>
    have hlen := congrArg List.length hsplit
    simp [handed] at hlen
  | cons o log ih =>
    cases o with
    | took | received | accepted => exact ih h.tail hsplit
    | handed first =>
      have hcons : first :: handed log = newer ++ message :: older := hsplit
      cases newer with
      | nil => rfl
      | cons last newer =>
        obtain ⟨rfl,hrest⟩ := List.cons.inj hcons
        have hnewer := ih h.tail hrest
        cases first with
        | callEvent generation event =>
          have hopen := h.2.1 message (by rw [hrest]; simp)
          simp [hclosed] at hopen
        | _ => exact hnewer

namespace Controller

open Run Relation

variable {c : LocalConfig} {s s' u v : Controller} {a : ChannelAction} {mover : Mover}

/-! The steps of the system, for what is handed to the channel. -/

/-- How a stretch ends behind its moves. -/
inductive Turn (v : Controller) : Controller → Prop
  | rest : Turn v v
  | forwards (event : RealtimeEvent) (h : v.terminal = false) (htook : v.log.head? = some (.took event))
      (hdomain : isDomainEvent event) : Turn v (v.observe (.handed (.callEvent v.generation event)))
  | fails {u : Controller} (f : Failing) (next : Option FailPoint) (hterminal : v.terminal) (h : FailStep f v next u) :
      Turn v u
  | active : Turn v (v.observe (.handed (.callState v.generation "active")))
  | closes (closed : SessionClosed) (reason : String) (h : v.terminal = false) :
      Turn v ((v.observe (.took (.sessionClosed closed))).claim.observe (.handed (.callClosed v.generation reason)))

/-- A stretch is settled: nothing of this changes, unless another session supersedes the session. -/
structure Settled (u s' : Controller) : Prop where
  log : s'.log = u.log
  terminal : s'.terminal = u.terminal
  generation : s'.generation = u.generation
  ready : s'.ready = u.ready
  output : s'.output = u.output
  current : s'.sessionCurrent → u.sessionCurrent

theorem settled_run (u : Controller) (point : RunPoint) : Settled u { u with receiver := point } := ⟨rfl,rfl,rfl,rfl,rfl,id⟩

theorem settled_events (u : Controller) (point : EventsPoint) : Settled u (u.setEvents point) := ⟨rfl,rfl,rfl,rfl,rfl,id⟩

/-- The acknowledgements of the output that an action brings. -/
def heardBy (s : Controller) (a : ChannelAction) : Heard := fun highest position =>
  ∃ payload, a = .run (.text payload) ∧ s.receiver = .receiving ∧ s.asks payload highest position

/-- The acknowledgement or the format that a move takes comes with the action. -/
structure Brings (s : Controller) (a : ChannelAction) (mover : Mover) : Prop where
  heard : ∀ highest position, mover.heard highest position → s.heardBy a highest position
  said : ∀ audio, mover.said audio → ∃ signal, a = .events signal ∧ signal.carries audio

theorem brings_nothing : Brings s a (.events .none) := ⟨fun _ _ => False.elim,fun _ => False.elim⟩

/-- A step makes moves and takes one turn; the rest of it is where the tasks are suspended. -/
theorem step_turn (ho : Ordered s) (h : step c s a = some s') : ∃ mover v u, Brings s a mover ∧
    ReflTransGen (Move True mover) s v ∧ Turn v u ∧ Settled u s' := by
  obtain ⟨signal,m,rfl,hm,rfl⟩ | ⟨signal,e,m,rfl,he,hm,rfl⟩ | ⟨signal,t,m,rfl,ht,_,hm,rfl⟩ | ⟨rfl,rfl⟩ := step_cases h
  · have hinput : WithinInput True (s.heardBy (.run signal)) s m s ∨ ∃ f, s.receiver = .failing f ∧ m = (do failResume .failing f; finish) :=
      (runStretch ho.starting hm).input ho.free (fun _ _ _ _ _ => trivial) fun payload _ _ hsignal hpoint hasks =>
        ⟨payload,by rw [hsignal],hpoint,hasks⟩
    obtain hwithin | ⟨f,hpoint,rfl⟩ := hinput
    · obtain ⟨point,heq,hmoves,_⟩ := run_settles hwithin
      exact ⟨.run _,_,_,⟨fun _ _ => id,fun _ => False.elim⟩,hmoves,.rest,heq ▸ settled_run _ _⟩
    · obtain ⟨next,v,hstep,heq⟩ | hleaving := failing_run f s
      · have hterminal : s.terminal := by
          by_contra hne
          simpa [hpoint,RunPoint.isFailing] using ho.run (by simpa using hne)
        exact ⟨.events .none,s,v,brings_nothing,.refl,.fails f (some next) hterminal hstep,heq ▸ settled_run _ _⟩
      · have hwithin : WithinInput True (s.heardBy (.run signal)) s _ s := hleaving.calm.input
        obtain ⟨point,heq,hmoves,_⟩ := run_settles hwithin
        exact ⟨.run _,_,_,⟨fun _ _ => id,fun _ => False.elim⟩,hmoves,.rest,heq ▸ settled_run _ _⟩
  · have hbrings : Brings s (.events signal) (.events signal.carries) :=
      ⟨fun _ _ => False.elim,fun audio hsaid => ⟨signal,rfl,hsaid⟩⟩
    have hwithin_case : WithinEvents signal.carries s m s → ∃ mover v u, Brings s (.events signal) mover ∧
        ReflTransGen (Move True mover) s v ∧ Turn v u ∧
        Settled u (settleEvents m s) := by
      intro hwithin
      obtain ⟨point,heq,hmoves,_⟩ := events_settle hwithin
      exact ⟨.events _,_,_,hbrings,ReflTransGen.mono (fun _ _ => Move.aside) _ _ hmoves,.rest,heq ▸ settled_events _ _⟩
    have hstretch := eventsStretch hm
    cases hstretch with
    | calm hwithin => exact hwithin_case hwithin
    | forwards event hforwards =>
      obtain ⟨v,hmoves,hfree,htook,hdomain,hpark⟩ := hforwards
      simp only [settleEvents,hpark]
      exact ⟨.events _,v,_,hbrings,ReflTransGen.mono (fun _ _ => Move.aside) _ _ hmoves,.forwards event hfree htook hdomain,settled_events _ _⟩
    | failing f more hpoint =>
      obtain ⟨next,v,hstep,heq⟩ | hwithin := failing_events signal.carries f more s
      · have hterminal : s.terminal := by
          by_contra hne
          simpa [hpoint,EventsPoint.isEnding] using ho.events (by simpa using hne) e he
        exact ⟨.events .none,s,v,brings_nothing,.refl,.fails f (some next) hterminal hstep,heq ▸ settled_events _ _⟩
      · exact hwithin_case hwithin
    | closing hpoint => exact ⟨.events .none,s,s,brings_nothing,.refl,.rest,⟨rfl,rfl,rfl,rfl,rfl,id⟩⟩
    | active hpoint => exact ⟨.events .none,s,_,brings_nothing,.refl,.active,settled_events _ _⟩
    | closed closed hfree reason hpark =>
      simp only [settleEvents,hpark]
      exact ⟨.events .none,s,_,brings_nothing,.refl,.closes closed reason hfree,settled_events _ _⟩
  · obtain ⟨timer,heq,_⟩ := settleTimer_eq m s
    rw [heq]
    obtain hidle | ⟨_,_,_,window,_,hack⟩ := timer_state hm
    · rw [hidle]
      exact ⟨.events .none,s,s,brings_nothing,.refl,.rest,⟨rfl,rfl,rfl,rfl,rfl,id⟩⟩
    · rw [hack]
      exact ⟨.events .none,_,_,brings_nothing,.single (.ack (.inr trivial) window),.rest,⟨rfl,rfl,rfl,rfl,rfl,id⟩⟩
  · exact ⟨.events .none,s,s,brings_nothing,.refl,.rest,⟨rfl,rfl,rfl,rfl,rfl,(by simp)⟩⟩

/-! What has been forwarded. -/

def startedOf : RealtimeEvent → Option String
  | .provider (.responseStarted _ responseId) => some responseId
  | _ => none

/-- Each response whose start has been forwarded has had its end forwarded. -/
def AllEnded (log : List Observation) : Prop :=
  ∀ id ∈ (forwarded log).filterMap startedOf, id ∈ (forwarded log).filterMap Session.finishedOf

instance (log : List Observation) : Decidable (AllEnded log) :=
  inferInstanceAs (Decidable (∀ id ∈ (forwarded log).filterMap startedOf,
    id ∈ (forwarded log).filterMap Session.finishedOf))

/-- The terminal of the call is claimed while a response whose start has been forwarded goes on. -/
def endsEarly (c : LocalConfig) (s : Controller) (a : ChannelAction) : Prop :=
  s.terminal = false ∧ (Controller.step c s a).any Controller.terminal ∧ ¬AllEnded s.log

/-- The log of a call, against its terminal. -/
structure Reports (s : Controller) : Prop where
  free : s.terminal = false → Unclosed s.log
  reported : Reported s.log

theorem Aside.reported (h : Aside mover s u) (hs : Reported s.log) : Reported u.log := by
  cases h with
  | failNow | connecting | closing | ready | audio => exact hs.hand rfl
  | _ => exact hs

theorem Aside.forwarded_eq (h : Aside mover s u) : forwarded u.log = forwarded s.log := by
  cases h <;> rfl

variable {leave : Prop}

theorem Move.reported (h : Move leave mover s u) (hs : Reported s.log) : Reported u.log := by
  cases h with
  | aside h => exact h.reported hs
  | ack => exact hs.hand rfl
  | _ => exact hs

theorem Move.forwarded_eq (h : Move leave mover s u) : forwarded u.log = forwarded s.log := by
  cases h with
  | aside h => exact h.forwarded_eq
  | _ => rfl

theorem Reports.move (h : Move leave mover s u) (hs : Reports s) : Reports u := by
  refine ⟨fun hfree => h.unclosed (hs.free ?_),h.reported hs.reported⟩
  by_contra hne
  have hterminal := h.terminal (by simpa using hne)
  simp [hterminal] at hfree

theorem FailStep.reported {f : Failing} {next : Option FailPoint} (h : FailStep f s next u) (hs : Reported s.log) :
    Reported u.log := by
  cases h with
  | state | error | closed => exact hs.hand rfl
  | channel | ended => exact hs

theorem Reports.turn (h : Turn v u) (hv : Reports v) : Reports u := by
  cases h with
  | rest => exact hv
  | forwards event hfree htook =>
    refine ⟨fun _ => ?_,htook,hv.free hfree,hv.reported⟩
    exact unclosed_handed.mpr ⟨rfl,hv.free hfree⟩
  | fails f next hterminal hstep =>
    refine ⟨fun hfree => ?_,hstep.reported hv.reported⟩
    simp [hstep.along.terminal hterminal] at hfree
  | active => exact ⟨fun hfree => unclosed_handed.mpr ⟨rfl,hv.free hfree⟩,hv.reported⟩
  | closes closed reason hfree => exact ⟨nofun,hv.reported⟩

/-- Only a free call forwards events. -/
theorem Turn.forwarded_eq (h : Turn v u) : forwarded u.log = forwarded v.log ∨ v.terminal = false ∧ u.terminal = false := by
  cases h with
  | forwards event hfree => exact .inr ⟨hfree,hfree⟩
  | fails f next _ hstep =>
    refine .inl ?_
    cases hstep <;> rfl
  | rest | active | closes => exact .inl rfl

theorem reports_moves (h : ReflTransGen (Move leave mover) s v) (hs : Reports s) : Reports v :=
  moves_keep (I := Reports) (fun _ _ hm => Reports.move hm) h hs

theorem forwarded_moves (h : ReflTransGen (Move leave mover) s v) : forwarded v.log = forwarded s.log := by
  induction h with
  | refl => rfl
  | tail _ hm ih => exact hm.forwarded_eq.trans ih

/-- And behind the claim each response has had its end. -/
structure Settles (s : Controller) : Prop extends Reports s where
  ended : s.terminal → AllEnded s.log

theorem Settles.step (h : Settles s) (ho : Ordered s) (hearly : ¬endsEarly c s a)
    (ha : Controller.step c s a = some s') : Settles s' := by
  obtain ⟨_,v,u,-,hmoves,hturn,hlog,hterminal,-⟩ := step_turn ho ha
  have hu := (reports_moves hmoves h.toReports).turn hturn
  refine ⟨⟨fun hfree => ?_,hlog ▸ hu.reported⟩,fun hclaimed => ?_⟩
  · rw [hlog]
    exact hu.free (hterminal ▸ hfree)
  · have hended : AllEnded s.log := by
      by_cases hfree : s.terminal = false
      · by_contra hne
        exact hearly ⟨hfree,by rw [ha]; exact hclaimed,hne⟩
      · exact h.ended (by simpa using hfree)
    have heq : forwarded s'.log = forwarded s.log := by
      obtain hsame | ⟨_,hfree⟩ := hturn.forwarded_eq
      · rw [hlog,hsame,forwarded_moves hmoves]
      · rw [hterminal,hfree] at hclaimed
        exact nomatch hclaimed
    unfold AllEnded at hended ⊢
    rwa [heq]

theorem reachable_settles (h : Transition.ReachableWith (Controller.step c) (fun s a => ¬endsEarly c s a) Init s) :
    Settles s := by
  refine Transition.ReachableWith.invariant_with (J := Ordered) (fun s hs => reachable_ordered hs.reachable)
    (fun s hs => ?_) (fun s a s' ho hI ha hstep => hI.step ho ha hstep) h
  obtain rfl : s = {} := hs
  refine ⟨⟨fun _ => ?_,trivial⟩,nofun⟩
  simp [Unclosed,handed]

/-- The responses whose end is among the messages. -/
def endings (messages : List LocalMessage) : List String := (messages.filterMap eventOf).filterMap Session.finishedOf

/-- As long as the terminal is claimed only when the responses have ended, each response whose start was sent has
exactly one end sent, and before `call.closed`. -/
theorem started_responses_end
    (h : Transition.ReachableWith (Controller.step c) (fun s a => ¬endsEarly c s a) Init s)
    (hstream : Session.Streams (taken s.log).reverse) {before after : List LocalMessage} {generation : ℕ}
    {reason : String} (hclosed : sent s = before ++ .callClosed generation reason :: after) {turnId id : String}
    (hstarted : .callEvent generation (.provider (.responseStarted turnId id)) ∈ sent s) :
    (endings before).count id = 1 ∧ (endings (sent s)).count id = 1 := by
  have hs := reachable_settles h
  have hsplit : handed s.log = after.reverse ++ .callClosed generation reason :: before.reverse := by
    have hreverse := congrArg List.reverse hclosed
    simpa [sent] using hreverse
  have hnone : after.filterMap eventOf = [] := by
    have hnewer := hs.reported.closed hsplit rfl
    simpa [List.filterMap_reverse] using hnewer
  have hterminal : s.terminal := by
    by_contra hfree
    have hopen := hs.free (by simpa using hfree) (.callClosed generation reason) (by rw [hsplit]; simp)
    cases hopen
  have hbefore : endings before = endings (sent s) := by
    have hquiet : eventOf (.callClosed generation reason) = none := rfl
    simp only [endings,hclosed,List.filterMap_append,List.filterMap_cons_none hquiet,hnone,List.append_nil]
  have hsent : endings (sent s) = ((forwarded s.log).filterMap Session.finishedOf).reverse := by
    simp [endings,sent,forwarded,List.filterMap_reverse]
  have hnodup : (endings (sent s)).Nodup := by
    rw [hsent]
    have hsub := hs.reported.sublist.filterMap Session.finishedOf
    have honce := hstream.ends_once
    rw [List.filterMap_reverse] at honce
    exact List.nodup_reverse.mpr ((List.nodup_reverse.mp honce).sublist hsub)
  have hmem : id ∈ endings (sent s) := by
    have hevent : .provider (.responseStarted turnId id) ∈ forwarded s.log :=
      List.mem_filterMap.mpr ⟨_,List.mem_reverse.mp hstarted,rfl⟩
    rw [hsent,List.mem_reverse]
    exact hs.ended hterminal id (List.mem_filterMap.mpr ⟨_,hevent,rfl⟩)
  rw [hbefore,List.count_eq_one_of_mem hnodup hmem]
  exact ⟨rfl,rfl⟩

/-! The session of a sample call. -/

section

open QwenOmni (receive sample sampleOpening)

def callSession : SessionConfig QwenOmniAdapter := { sample with correlation := sampleCorrelation }

def callSessionStart : Session QwenOmniAdapter :=
  Session.runTask 0 (Session.startSession callSession 0 "a")
    (Session.useId (Session.fresh callSession { state := { table := { generation := 1 } } }) "a")

/-- What the session yields behind its opening. -/
def callStream (as : List Action) : List RealtimeEvent :=
  ((Transition.exec (Session.step callSession) callSessionStart (sampleOpening ++ as)).map fun s =>
    s.deliveries.reverse).getD []

theorem callStream_streams {as : List Action}
    (h : (Transition.exec (Session.step callSession) callSessionStart (sampleOpening ++ as)).isSome) :
    Session.Streams (callStream as) := by
  obtain ⟨s,hs⟩ := Option.isSome_iff_exists.mp h
  refine ⟨_,callSession,s,Transition.exec_reachable _ ⟨_,_,rfl⟩ hs,?_⟩
  rw [callStream,hs]
  rfl

/-- A response that the provider ends. -/
def endedResponse : List Action :=
  [receive "response.created" "r1" [("response",.obj [("id",.str "resp")])],
    receive "response.done" "r2" [("response",.obj [("id",.str "resp"), ("status",.str "cancelled")])],
    .consume, .consume, .consume]

/-- A response that the session ends when it is closed. -/
def settledResponse : List Action :=
  [receive "response.created" "r1" [("response",.obj [("id",.str "resp")])], .call (.close "client_hangup") "e",
    .resume 3 .ready "f", .resume 3 .timeout "g", .consume, .consume, .consume]

end

def responseEvent : RealtimeEvent := .provider (.responseStarted "turn_resp" "resp")

/-- The product breaks the protocol, and `_fail` runs up to `call.closed`. -/
def brokenCall : List ChannelAction := [.run (.text startMessage), .run .ready, .run .ready, .run .ready]

/-- The response has ended before the call breaks off. -/
def endedCall : List ChannelAction :=
  [.events (.event responseEvent), .events .ready,
    .events (.event (.provider (.responseFinished { responseId := "resp", status := .cancelled }))), .events .ready] ++
    brokenCall

theorem started_responses_end_cancelled :
    (endings ((sent (sampleCall {} endedCall)).take 7)).count "resp" = 1 ∧
      (endings (sent (sampleCall {} endedCall))).count "resp" = 1 := by
  have hok : ∀ (s : Controller) (a : ChannelAction),
      decide (AllEnded s.log) || !(Controller.step {} s a).any Controller.terminal → ¬endsEarly {} s a := by
    intro s a hcheck hearly
    obtain ⟨_,hclaims,hopen⟩ := hearly
    simp [hclaims,hopen] at hcheck
  have hstream : (taken (sampleCall {} endedCall).log).reverse = callStream endedResponse := by with_unfolding_all decide
  have hclosed : sent (sampleCall {} endedCall) =
      (sent (sampleCall {} endedCall)).take 7 ++ LocalMessage.callClosed 1 "protocol_error" :: [] := by decide
  have hstarted : .callEvent 1 (.provider (.responseStarted "turn_resp" "resp")) ∈ sent (sampleCall {} endedCall) := by
    decide
  refine started_responses_end (sampleCall_reachableWith hok (by decide)) ?_ hclosed hstarted
  rw [hstream]
  exact callStream_streams (by with_unfolding_all decide)

/-- The call breaks off during the response; its end is taken behind the claim. -/
def cutOffCall : List ChannelAction :=
  [.events (.event responseEvent), .events .ready] ++ brokenCall ++
    [.events (.event (.provider (.responseFinished { responseId := "resp", status := .cancelled, isLocal := true })))]

theorem response_cut_off : ∃ s, Reachable {} s ∧ Session.Streams (taken s.log).reverse ∧
    .callEvent 1 responseEvent ∈ sent s ∧ .callClosed 1 "protocol_error" ∈ sent s ∧ endings (sent s) = [] := by
  have hstream : (taken (sampleCall {} cutOffCall).log).reverse = callStream settledResponse := by
    with_unfolding_all decide
  refine ⟨sampleCall {} cutOffCall,sampleCall_reachable (by decide),?_,by decide,by decide,by decide⟩
  rw [hstream]
  exact callStream_streams (by with_unfolding_all decide)

end Controller
end Local
end HarnessSdk
