import HarnessSdk.ContextAcks
import HarnessSdk.KeyClaims

/-!
# Injections in flight

A request stands in the adapter from the moment its event is built. While no call is given up before
the connection has taken its frame, every request that stands there has been transmitted or is on its
way. The echo of a message then finds its own request behind nothing but answered ones, and lets its
call return.
-/

namespace HarnessSdk
namespace Session

open Transition (ReachableWith Steps)
open Run (within_pure within_raise within_get within_suspend within_modify within_modify_bind within_ofExcept)

variable {A : Type} {c : SessionConfig A} {b : Brings} {t : TaskId} {k : TaskKind} {s s' : Session A}

/-- Task `t` hands the frame of the request `id` to the connection. -/
def BeingSent (s : Session A) (t : TaskId) (id : String) : Prop :=
  ∃ kind inj event, s.place t = some (kind,.sending (.inject inj) event) ∧ event.eventId = id

/-- The connection has taken the frame of the request `id`. -/
def Transmitted (s : Session A) (id : String) : Prop :=
  ∃ t inj event, .accepted t (.inject inj) event ∈ s.log ∧ event.eventId = id

/-- The session works with a new Qwen adapter. -/
structure UsesQwen (c : SessionConfig QwenOmniAdapter) : Prop where
  adapter : c.adapter = QwenOmni.adapter
  initial : c.initialAdapter = {}

theorem Transmitted.mono {id : String} (h : s.Transmitted id) (hlog : ∀ o ∈ s.log, o ∈ s'.log) : s'.Transmitted id := by
  obtain ⟨t,inj,event,haccepted,hid⟩ := h
  exact ⟨t,inj,event,hlog _ haccepted,hid⟩

/-- Who hands over an injection holds the lock. -/
theorem BeingSent.holds {id : String} (hs : Placed c s) (h : s.BeingSent t id) :
    s.context.holder = some t ∧ ∃ request state, s.place t = some (.call (.context request),state) := by
  obtain ⟨kind,inj,event,hplace,_⟩ := h
  obtain ⟨⟨hholder,_,request,rfl,_⟩,_⟩ := hs.stands t _ _ hplace
  exact ⟨hholder,request,_,hplace⟩

/-! What the moves of a task do to the adapter. -/

/-- How a move treats the adapter. -/
inductive AdapterMove (c : SessionConfig A) (b : Brings) (k : TaskKind) (s s' : Session A) : Prop
  | quiet (h : s'.adapter = s.adapter)
  | build (h : Built c k b.fresh s.adapter s'.adapter)
  | decode (payload : Payload) (h : b.payload = some payload) (hh : s'.adapter = (s.decoding c payload).adapter)

theorem Move.adapterMove (h : Move c b t k s s') : AdapterMove c b k s s' := by
  cases h
  case build a h => exact .build h
  case decode payload h => exact .decode payload h rfl
  case ackContext => rw [acknowledgeContext_frame]; exact .quiet rfl
  case finish => rw [endResponse_frame]; exact .quiet rfl
  case publish => rw [publish_frame]; exact .quiet rfl
  case conclude => rw [concludeClose_frame]; exact .quiet rfl
  case register => rw [registerTool_frame]; exact .quiet rfl
  case followup => rw [requestFollowup_frame]; exact .quiet rfl
  case introduce => rw [introduce_frame]; exact .quiet rfl
  all_goals exact .quiet rfl

/-- A running task does not make an ended session active again. -/
theorem Move.active (h : Move c b t k s s') (hs : Running c s t k) (ha : s'.isActive c) : s.isActive c := by
  simp only [isActive,Bool.and_eq_true,Option.isNone_iff_eq_none,Bool.not_eq_true'] at ha ⊢
  have howner : s.terminal.owner = none := by
    cases ho : s.terminal.owner with
    | none => rfl
    | some owner =>
      have hlater := h.later.owner (by simp [ho])
      simp [ha.1.1] at hlater
  refine ⟨⟨howner,?_⟩,by rw [← h.isCurrent,ha.2]⟩
  cases hc : s.terminal.closing with
  | false => rfl
  | true => simp [(hs.clean hc).1] at howner

/-! A call whose injection is handed over leaves the adapter alone. -/

/-- From `u` to `v` the adapter stays. -/
structure Calm (u v : Session A) : Prop where
  adapter : v.adapter = u.adapter
  log : ∀ o ∈ u.log, o ∈ v.log

theorem Calm.refl (u : Session A) : Calm u u := ⟨rfl,fun _ h => h⟩

theorem Calm.trans {u v w : Session A} (h : Calm u v) (hh : Calm v w) : Calm u w :=
  ⟨hh.adapter.trans h.adapter,fun o ho => hh.log o (h.log o ho)⟩

theorem calm_of_moves {u v : Session A} (h : Relation.ReflTransGen Calm u v) : Calm u v :=
  moves_keep (I := fun w => Calm u w) (fun _ _ hm hu => hu.trans hm) h (.refl u)

abbrev IsCalm {α : Type} (m : Prog A α) (s : Session A) : Prop := Run.Within Calm (fun _ _ => True) m s

theorem calm_shutdownConnection {after : After} : IsCalm (shutdownConnection t after) s := by
  refine within_get (Run.Within.ite (fun _ => within_pure) fun _ => ?_)
  exact within_modify_bind (.single ⟨rfl,fun _ h => h⟩) (within_suspend trivial)

theorem calm_publish {e : TerminalEvent} {i : CloseInitiator} {d : CloseDisposition} : Calm s (s.publish c t e i d) := by
  obtain ⟨new,failure,hlog,_⟩ := publish_log (c := c) (t := t) (s := s) e i d
  refine ⟨by rw [publish_frame],fun o ho => ?_⟩
  rw [hlog]
  simp [ho]

theorem calm_finishTerminal {e : TerminalEvent} {i : CloseInitiator} {d : CloseDisposition} {after : After} :
    IsCalm (finishTerminal c t e i d after) s := by
  refine within_get (Run.Within.ite (fun _ => within_pure) fun _ => ?_)
  exact within_modify_bind (.single calm_publish) calm_shutdownConnection

theorem calm_failAndRaise {code : RealtimeErrorCode} {retryable : Bool} {error : RealtimeError} {frame : Frame} :
    IsCalm (failAndRaise c t code retryable error frame) s :=
  calm_finishTerminal.bind fun _ _ _ _ => within_get within_raise

theorem calm_capture {stage : String} {args : FailureArgs} : Calm s (s.capture c stage args) := ⟨rfl,fun _ h => h⟩

theorem calm_sendFailed {purpose : Purpose} {event : ClientEvent} {e : Exn} :
    IsCalm (sendFailed c t purpose event e) s := by
  cases e with
  | cancelled => exact within_raise
  | realtime e => exact within_modify_bind (.single calm_capture) calm_failAndRaise
  | exception => exact within_modify_bind (.single calm_capture) calm_failAndRaise

theorem calm_sendTimedOut {purpose : Purpose} {event : ClientEvent} : IsCalm (sendTimedOut c t purpose event) s :=
  within_modify_bind (.single calm_capture) calm_failAndRaise

theorem calm_sendRuntimeEvent {purpose : Purpose} {event : ClientEvent} :
    IsCalm (sendRuntimeEvent c t purpose event) s := by
  refine within_modify_bind (.single ⟨rfl,fun _ h => h⟩) ?_
  split
  · exact within_modify_bind (.single ⟨rfl,fun o h => List.mem_cons_of_mem _ h⟩) (within_suspend trivial)
  · exact calm_sendFailed

theorem calm_cleanup (frame : Frame) : Calm s (s.cleanup frame) := by
  cases frame <;> exact ⟨rfl,fun _ h => h⟩

theorem IsCalm.cleanup {α : Type} {m : Prog A α} {frame : Frame} (h : IsCalm m s) :
    IsCalm (Run.ensuring m fun u => u.cleanup frame) s :=
  h.ensuring fun _ _ => .single (calm_cleanup frame)

theorem calm_confirmInjection {inj : Injection} : IsCalm (confirmInjection inj) s := by
  refine within_get ?_
  split
  · exact within_pure
  · split
    · exact within_pure
    · refine within_ofExcept.bind fun state u hu _ => ?_
      exact within_modify ⟨rfl,fun o h => List.mem_cons_of_mem _ h⟩

theorem calm_contextAcked {fresh : String} {inj : Injection} : IsCalm (contextAcked c t fresh inj) s := by
  refine Run.Within.bind (within_get (Run.Within.ite (fun _ => within_pure) fun _ => within_raise)) fun _ u _ _ => ?_
  refine calm_confirmInjection.bind fun _ v _ _ => within_get ?_
  exact Run.Within.ite (fun _ => calm_sendRuntimeEvent) fun _ => within_pure

theorem calm_awaitContextAck {fresh : String} {inj : Injection} : IsCalm (awaitContextAck c t fresh inj) s := by
  refine within_get ?_
  split
  · exact calm_contextAcked
  · exact within_raise
  · exact within_suspend trivial

theorem calm_shutdownEnded {after : After} : IsCalm (shutdownEnded after) s := by
  cases after with
  | done => exact within_pure
  | raise error frame =>
    have hraise : IsCalm (do
        let s ← Run.get
        Run.raise (.realtime { error with failure := s.failure.context }) : Prog A Unit) s :=
      within_get within_raise
    exact hraise.cleanup

theorem calm_joinReceiver {after : After} : IsCalm (joinReceiver t after) s := by
  refine within_get ?_
  split
  · exact calm_shutdownEnded
  · refine within_modify_bind (.single ⟨rfl,fun _ h => h⟩) (within_get ?_)
    exact Run.Within.ite (fun _ => calm_shutdownEnded) fun _ => within_suspend trivial

theorem calm_cancelled {state : TaskState} : IsCalm (cancelledProg (A := A) t state) s := by
  cases state
  case sending => exact IsCalm.cleanup within_raise
  case awaitingContextAck => exact IsCalm.cleanup within_raise
  case awaitingLock => exact within_modify_bind (.single ⟨rfl,fun _ h => h⟩) within_raise
  case closingConnection after =>
    cases after with
    | done => exact within_raise
    | raise error frame => exact IsCalm.cleanup within_raise
  case joiningReceiver => exact calm_shutdownEnded
  all_goals exact within_raise

/-- A context call that is resumed is calm, unless it gets the lock. -/
theorem calm_resume {request : ContextRequest} {task : Task} {signal : Signal} {fresh : String} {m : Prog A Unit}
    {u : Session A} (hk : task.kind = .call (.context request)) (hat : At c s t task.kind task.state)
    (hlock : (∀ request', task.state ≠ .awaitingLock request') ∨ signal = .cancelled)
    (hm : resumeProg c s t fresh task task.state signal = some m) : IsCalm m u := by
  obtain ⟨kind,state,cancel⟩ := task
  dsimp only at hat hm hk hlock
  subst hk
  unfold resumeProg at hm
  split at hm
  case h_3 =>
    simp only [Option.ite_none_right_eq_some,Option.some.injEq] at hm
    obtain ⟨_,rfl⟩ := hm
    exact calm_cancelled
  case h_8 purpose event =>
    obtain rfl := Option.some.inj hm
    refine within_modify_bind (.single ⟨rfl,fun o h => List.mem_cons_of_mem _ h⟩) (IsCalm.cleanup ?_)
    obtain ⟨hsend,_⟩ := hat
    cases purpose <;> simp only [SendAt,SendsPlain,SendsAudio,TaskKind.call.injEq,reduceCtorEq,exists_false,false_and] at hsend
    · exact calm_awaitContextAck
    · exact within_pure
  case h_9 purpose event =>
    obtain rfl := Option.some.inj hm
    obtain ⟨hsend,_⟩ := hat
    cases purpose <;> simp only [SendAt,SendsPlain,SendsAudio,TaskKind.call.injEq,reduceCtorEq,exists_false,false_and] at hsend
    · exact IsCalm.cleanup calm_sendTimedOut
    · exact IsCalm.cleanup calm_sendTimedOut
  case h_10 purpose event e =>
    simp only [Option.ite_none_left_eq_some,Option.some.injEq] at hm
    obtain ⟨_,rfl⟩ := hm
    obtain ⟨hsend,_⟩ := hat
    cases purpose <;> simp only [SendAt,SendsPlain,SendsAudio,TaskKind.call.injEq,reduceCtorEq,exists_false,false_and] at hsend
    · exact IsCalm.cleanup calm_sendFailed
    · exact IsCalm.cleanup calm_sendFailed
  case h_11 request' =>
    obtain hno | hcancel := hlock
    · exact absurd rfl (hno request')
    · simp at hcancel
  case h_12 inj =>
    split at hm
    · obtain rfl := Option.some.inj hm
      exact IsCalm.cleanup calm_awaitContextAck
    · obtain rfl := Option.some.inj hm
      exact IsCalm.cleanup calm_awaitContextAck
    · simp at hm
  case h_13 inj =>
    obtain rfl := Option.some.inj hm
    exact IsCalm.cleanup (within_modify_bind (.single calm_capture) calm_failAndRaise)
  case h_23 => exact Option.some.inj hm ▸ calm_joinReceiver
  case h_24 => exact Option.some.inj hm ▸ calm_joinReceiver
  case h_25 =>
    simp only [Option.ite_none_left_eq_some,Option.some.injEq] at hm
    exact hm.2 ▸ calm_joinReceiver
  case h_26 =>
    simp only [Option.ite_none_right_eq_some,Option.some.injEq] at hm
    exact hm.2 ▸ calm_shutdownEnded
  case h_27 => exact Option.some.inj hm ▸ calm_shutdownEnded
  case h_1 => simp at hm
  case h_2 => simp at hm
  case h_28 => simp at hm
  -- a context call is in no other state
  all_goals simp [At,SendAt] at hat

theorem publish_owned (e : TerminalEvent) (i : CloseInitiator) (d : CloseDisposition) :
    (s.publish c t e i d).terminal.owner.isSome := by
  rw [publish_frame]
  rfl

theorem finishTerminal_owned {e : TerminalEvent} {i : CloseInitiator} {d : CloseDisposition} {after : After} :
    (finishTerminal c t e i d after s).state.terminal.owner.isSome := by
  unfold finishTerminal
  rw [Run.get_bind]
  split
  · assumption
  · rw [Run.modify_bind]
    have howner := publish_owned (c := c) (t := t) (s := s) e i d
    have hshut : (shutdownConnection (A := A) t after (s.publish c t e i d)).state.terminal.owner =
        (s.publish c t e i d).terminal.owner := by
      unfold shutdownConnection
      rw [Run.get_bind]
      split <;> rfl
    rw [hshut]
    exact howner

theorem failAndRaise_owned {code : RealtimeErrorCode} {retryable : Bool} {error : RealtimeError} {frame : Frame} :
    (failAndRaise c t code retryable error frame s).state.terminal.owner.isSome := by
  have howned : (fail c t code retryable (.raise error frame) s).state.terminal.owner.isSome := finishTerminal_owned
  unfold failAndRaise
  rw [Run.bind_apply]
  cases hfail : fail c t code retryable (.raise error frame) s <;> (rw [hfail] at howned; exact howned)

theorem sendFailed_owned {purpose : Purpose} {event : ClientEvent} {e : Exn} (h : e ≠ .cancelled) :
    (sendFailed c t purpose event e s).state.terminal.owner.isSome := by
  cases e with
  | cancelled => exact absurd rfl h
  | realtime e => exact failAndRaise_owned
  | exception => exact failAndRaise_owned

theorem ensuring_owned {m : Prog A Unit} {f : Session A → Session A} (hf : ∀ u, (f u).terminal = u.terminal)
    (h : (m s).state.terminal.owner.isSome) : (Run.ensuring m f s).state.terminal.owner.isSome := by
  unfold Run.ensuring
  cases hm : m s with
  | park p u => rwa [hm] at h
  | ok x u =>
    rw [hm] at h
    exact (congrArg (fun t => t.owner.isSome) (hf u)).trans h
  | raise e u =>
    rw [hm] at h
    exact (congrArg (fun t => t.owner.isSome) (hf u)).trans h

theorem cleanup_owned {m : Prog A Unit} {frame : Frame} (h : (m s).state.terminal.owner.isSome) :
    (Run.ensuring m (fun u => u.cleanup frame) s).state.terminal.owner.isSome :=
  ensuring_owned (fun u => by cases frame <;> rfl) h

theorem sendRuntimeEvent_owned {purpose : Purpose} {event : ClientEvent} {e : Exn}
    (h : c.adapter.encodeClientEvent event = .error e) (hne : e ≠ .cancelled) :
    (sendRuntimeEvent c t purpose event s).state.terminal.owner.isSome := by
  unfold sendRuntimeEvent
  rw [Run.modify_bind,h]
  exact sendFailed_owned hne

theorem not_active_of_owned (h : s.terminal.owner.isSome) : ¬s.isActive c :=
  not_active_of_over (.inl h)

/-- A call that hands over an injection has handed it over when it goes on, unless it fails the session. -/
theorem sent_transmits {inj : Injection} {event : ClientEvent} {task : Task} {signal : Signal} {fresh : String}
    {m : Prog A Unit} {u : Session A} (hstate : task.state = .sending (.inject inj) event) (hsignal : signal ≠ .cancelled)
    (hm : resumeProg c s t fresh task task.state signal = some m) :
    (m u).state.terminal.owner.isSome ∨ .accepted t (.inject inj) event ∈ (m u).state.log := by
  rw [hstate] at hm
  cases signal
  case cancelled => exact absurd rfl hsignal
  case ready =>
    obtain rfl := Option.some.inj hm
    rw [Run.modify_bind]
    refine .inr ((calm_of_moves (IsCalm.cleanup ?_).moves).log _ List.mem_cons_self)
    exact calm_awaitContextAck
  case timeout =>
    obtain rfl := Option.some.inj hm
    exact .inl (cleanup_owned failAndRaise_owned)
  case raised e =>
    simp only [resumeProg,Option.ite_none_left_eq_some,Option.some.injEq] at hm
    obtain ⟨hne,rfl⟩ := hm
    exact .inl (cleanup_owned (sendFailed_owned hne))
  all_goals simp [resumeProg] at hm

/-! The program under the lock. -/

/-- What a context call has done when it has got the lock: the session has ended, the adapter waits for
what it waited for, or for one more request that is on its way. -/
inductive UnderLock (c : SessionConfig QwenOmniAdapter) (s : Session QwenOmniAdapter)
    (o : Outcome (Session QwenOmniAdapter) TaskState Exn Unit) : Prop
  | ended (h : ¬o.state.isActive c)
  | same (h : o.state.adapter.contextEvents = s.adapter.contextEvents)
  | sent (inj : Injection) (expected : Option ContextMessage) (h : rest o = .sending (.inject inj) inj.event)
      (hh : o.state.adapter.contextEvents = s.adapter.contextEvents.set inj.event.eventId expected)

section Qwen

variable {c : SessionConfig QwenOmniAdapter} {s s' : Session QwenOmniAdapter}

theorem UnderLock.ensuring {m : Prog QwenOmniAdapter Unit} (h : UnderLock c s (m s')) :
    UnderLock c s (Run.ensuring m (fun u => u.cleanup .lock) s') := by
  unfold Run.ensuring
  cases hm : m s' with
  | park p u =>
    rw [hm] at h
    exact h
  | ok x u =>
    rw [hm] at h
    cases h with
    | ended h => exact .ended h
    | same h => exact .same h
    | sent inj expected h => simp [rest] at h
  | raise e u =>
    rw [hm] at h
    cases h with
    | ended h => exact .ended h
    | same h => exact .same h
    | sent inj expected h => simp [rest] at h

theorem UsesQwen.encode_error (hq : UsesQwen c) {event : ClientEvent} {e : Exn}
    (h : c.adapter.encodeClientEvent event = .error e) : e ≠ .cancelled := by
  have hid : QwenOmni.checkEventId event.eventId ≠ .error .cancelled := by
    unfold QwenOmni.checkEventId invalidField protocolError
    split
    · simp
    · split <;> simp
  have haudio : ∀ limit pcm, recheckAudio limit pcm ≠ .error .cancelled := by
    intro limit pcm
    unfold recheckAudio protocolError
    split
    · simp
    · split
      · simp
      · split <;> simp
  rintro rfl
  rw [hq.adapter] at h
  change QwenOmni.encodeClientEvent event = .error .cancelled at h
  unfold QwenOmni.encodeClientEvent at h
  cases hcheck : QwenOmni.checkEventId event.eventId with
  | error e =>
    rw [hcheck] at h
    exact hid (hcheck.trans h)
  | ok =>
    simp only [hcheck,bind,Except.bind] at h
    split at h
    · simp at h
    · split at h
      · exact haudio _ _ h
      · simp at h

theorem underLock_injectContext (hq : UsesQwen c) {inj : Injection} {expected : Option ContextMessage}
    (ha : s'.adapter.contextEvents = s.adapter.contextEvents.set inj.event.eventId expected) :
    UnderLock c s (injectContext c t inj s') := by
  by_cases hactive : s'.isActive c
  · unfold injectContext
    rw [requireActive_bind hactive,Run.modify_bind]
    cases hencode : c.adapter.encodeClientEvent inj.event with
    | ok =>
      unfold Run.ensuring
      rw [sendRuntimeEvent_issues hencode]
      exact .sent inj expected rfl ha
    | error e =>
      have howned : (sendRuntimeEvent c t (.inject inj) inj.event { s' with context := { s'.context with
          pending := s'.context.pending.set inj.event.eventId .waiting } }).state.terminal.owner.isSome :=
        sendRuntimeEvent_owned hencode (hq.encode_error hencode)
      exact .ended (not_active_of_owned (ensuring_owned (fun u => rfl) howned))
  · have hraise : injectContext c t inj s' = .raise (.realtime s'.closedError) s' := by
      simp [injectContext,requireActive,hactive,Run.bind_apply]
    rw [hraise]
    exact .ended hactive

theorem underLock_injectBuilt (hq : UsesQwen c) {trigger : Bool} {key : Option String} (expected : Option ContextMessage)
    {event : ClientEvent} {a : QwenOmniAdapter} {build : QwenOmniAdapter → Except Exn (ClientEvent × QwenOmniAdapter)}
    (hbuild : build s'.adapter = .ok (event,a)) (ha : a.contextEvents = s'.adapter.contextEvents.set event.eventId expected)
    (hadapter : s'.adapter = s.adapter) : UnderLock c s (injectBuilt c t trigger key build s') := by
  have hrun : injectBuilt c t trigger key build s' = injectContext c t ⟨event,trigger,key⟩ { s' with adapter := a } := by
    simp [injectBuilt,hbuild,Run.ofExcept]
  rw [hrun]
  exact underLock_injectContext hq (by rw [ha,hadapter])

theorem underLock_contextBody (hq : UsesQwen c) {fresh : String} {request : ContextRequest}
    (hadapter : s'.adapter = s.adapter) : UnderLock c s (contextBody c t fresh request s') := by
  cases request with
  | appendMessage text role trigger key =>
    have hmessage : ∀ v : Session QwenOmniAdapter, v.adapter = s.adapter →
        UnderLock c s (injectMessage c t fresh text role trigger key v) := by
      intro v hv
      refine underLock_injectBuilt hq (some ⟨role,text⟩) rfl ?_ hv
      rw [hq.adapter]
      rfl
    cases key with
    | none => exact hmessage s' hadapter
    | some key =>
      cases hclaim : s'.shared.state.claimMessage key (c.digest text role trigger) with
      | error e =>
        have hrun : contextBody c t fresh (.appendMessage text role trigger (some key)) s' = .raise e s' := by
          simp [contextBody,hclaim]
        rw [hrun]
        exact .same (by rw [Outcome.state,hadapter])
      | ok claimed =>
        obtain ⟨prior,state⟩ := claimed
        cases prior with
        | some itemId =>
          have hrun : contextBody c t fresh (.appendMessage text role trigger (some key)) s' =
              .ok () { s' with context := { s'.context with ackId := some itemId } } := by
            simp [contextBody,hclaim]
          rw [hrun]
          exact .same (by rw [Outcome.state,hadapter])
        | none =>
          have hrun : contextBody c t fresh (.appendMessage text role trigger (some key)) s' =
              injectMessage c t fresh text role trigger (some key)
                { s' with shared := { s'.shared with state }, log := .keyClaimed t key :: s'.log } := by
            simp [contextBody,hclaim]
          rw [hrun]
          exact hmessage _ hadapter
  | updateInstructions text trigger =>
    show UnderLock c s (injectBuilt c t trigger none (fun a => .ok (c.adapter.updateInstructions fresh text a)) s')
    refine underLock_injectBuilt hq none rfl ?_ hadapter
    rw [hq.adapter]
    rfl
  | outOfBandResponse text =>
    have hrun : ∃ e, contextBody c t fresh (.outOfBandResponse text) s' = .raise e s' := by
      refine ⟨.realtime { code := .unsupported, message := "Qwen has no out-of-band response" },?_⟩
      simp only [contextBody,injectBuilt,Run.get_bind,hq.adapter]
      rfl
    obtain ⟨e,hrun⟩ := hrun
    rw [hrun]
    exact .same (by rw [Outcome.state,hadapter])

/-- A context call up to its first suspension, where it finds the lock free or queues up. -/
theorem contextCall_cases (fresh : String) (request : ContextRequest) :
    (contextCall c t fresh request s = Run.ensuring (contextBody c t fresh request) (fun u => u.cleanup .lock)
        { s with context := { s.context with holder := some t } } ∧ s.context.holder = none) ∨
      ∃ u, (contextCall c t fresh request s).state = u ∧ u.adapter = s.adapter := by
  unfold contextCall
  rw [Run.bind_apply]
  obtain hvalid | ⟨e,hvalid⟩ := validateContext_state (c := c) (s := s) (ContextRequest.text request)
  · rw [hvalid]
    dsimp only
    split
    · exact .inr ⟨_,rfl,rfl⟩
    · rw [Run.get_bind]
      split
      · rename_i hfree
        rw [Bool.and_eq_true,Option.isNone_iff_eq_none] at hfree
        exact .inl ⟨rfl,hfree.1⟩
      · exact .inr ⟨_,rfl,rfl⟩
  · rw [hvalid]
    exact .inr ⟨_,rfl,rfl⟩

/-- The two kinds of stretches of a context call: it gets the lock, or it goes on with what it has sent. -/
inductive ContextStep (s : Session QwenOmniAdapter) (c : SessionConfig QwenOmniAdapter) (a : Action) (t : TaskId)
    (o : Outcome (Session QwenOmniAdapter) TaskState Exn Unit) : Prop
  | locked (h : s.context.holder = none) (hh : UnderLock c s o)
  | calm (h : o.state.adapter = s.adapter) (hh : ∀ id, s.BeingSent t id → (∃ fresh, a = .resume t .cancelled fresh) ∨
      o.state.terminal.owner.isSome ∨ o.state.Transmitted id)

theorem Stretch.contextStep (hq : UsesQwen c) {a : Action} {m : Prog QwenOmniAdapter Unit} {u : Session QwenOmniAdapter}
    {request : ContextRequest} (hst : Stretch c s a t k m u) (hk : k = .call (.context request)) (hp : Placed c s) :
    ContextStep s c a t (m u) := by
  cases hst with
  | call call fresh h =>
    obtain rfl : call = .context request := TaskKind.call.inj hk
    change ContextStep s c _ _ (contextCall c s.tasks.length fresh request _)
    generalize hu : ({ s.useId fresh with tasks := s.tasks ++ [{ kind := .call (.context request), state := .running }] } :
      Session QwenOmniAdapter) = u
    obtain ⟨hrun,hholder⟩ | ⟨v,hv,hadapter⟩ := contextCall_cases (c := c) (t := s.tasks.length)
      fresh request (s := u)
    · subst hu
      rw [hrun]
      refine .locked hholder (UnderLock.ensuring ?_)
      exact underLock_contextBody hq rfl
    · subst hu
      refine .calm (by rw [hv,hadapter]; rfl) fun id ⟨kind,inj,event,hplace,_⟩ => ?_
      exact absurd (place_lt hplace) (lt_irrefl _)
  | resume t signal fresh task m h htask hm =>
    have hplace : s.place t = some (task.kind,task.state) := place_eq_some.mpr ⟨task,htask,rfl⟩
    have hat := hp.stands t _ _ hplace
    by_cases hlock : (∀ request', task.state ≠ .awaitingLock request') ∨ signal = .cancelled
    · refine .calm ((calm_of_moves (calm_resume hk hat hlock hm).moves).adapter) fun id ⟨kind,inj,event,hplace',hid⟩ => ?_
      rw [hplace] at hplace'
      obtain ⟨-,hstate⟩ := Prod.mk.inj (Option.some.inj hplace')
      by_cases hsignal : signal = .cancelled
      · exact .inl ⟨fresh,by rw [hsignal]⟩
      · exact .inr ((sent_transmits hstate hsignal hm).imp_right fun h => ⟨t,inj,event,h,hid⟩)
    · simp only [not_or,not_forall,not_not] at hlock
      obtain ⟨⟨request',hstate⟩,hsignal⟩ := hlock
      rw [hstate] at hm
      cases signal <;> simp only [resumeProg,reduceCtorEq,not_true_eq_false] at hm hsignal
      simp only [Option.ite_none_right_eq_some,Option.some.injEq,Bool.and_eq_true,Option.isNone_iff_eq_none] at hm
      obtain ⟨⟨hholder,_⟩,rfl⟩ := hm
      refine .locked hholder ?_
      rw [Run.modify_bind]
      refine UnderLock.ensuring ?_
      exact underLock_contextBody hq rfl

end Qwen

/-! Every request that the adapter waits for is transmitted or on its way. -/

/-- What the adapter waits for has been transmitted or is being sent. -/
def Accounted (s : Session QwenOmniAdapter) : Prop :=
  ∀ id ∈ s.adapter.contextEvents, s.Transmitted id ∨ ∃ t, s.BeingSent t id

/-- The product gives up a call whose request the adapter waits for before the connection has taken its
frame. -/
def Abandons (s : Session QwenOmniAdapter) : Action → Prop
  | .resume t .cancelled _ => ∃ id, s.BeingSent t id ∧ id ∈ s.adapter.contextEvents
  | _ => False

/-- What other sessions may do to the shared part: a superseded session stays superseded, and a key that
was claimed stays claimed. -/
structure Interferes (c : SessionConfig A) (s : Session A) (shared : Shared) : Prop where
  superseded : ({ s with shared } : Session A).isCurrent c → s.isCurrent c
  keys : ∀ key, ({ s with shared } : Session A).KeyFree key → s.KeyFree key

/-- No injection is abandoned. -/
structure Patient (c : SessionConfig QwenOmniAdapter) (s : Session QwenOmniAdapter) (a : Action) : Prop where
  waits : ¬s.Abandons a
  others : ∀ shared, a = .interfere shared → Interferes c s shared

theorem moves_place (h : Moves c b t k s s') {j : TaskId} {p : TaskKind × TaskState} (hj : s.place j = some p) :
    s'.place j = some p :=
  moves_keep (I := fun u => u.place j = some p) (fun _ _ hm hu => hm.place_kept hu) h hj

/-- The requests that other tasks send stay on their way. -/
theorem BeingSent.stays {a : Action} {m : Prog A Unit} {u : Session A} {j : TaskId} {id : String}
    {state : TaskState} (h : s.BeingSent j id) (hst : Stretch c s a t k m u) (hp : Placed c s) (hj : j ≠ t) :
    ((m u).state.setTask t state).BeingSent j id := by
  obtain ⟨kind,inj,event,hplace,hid⟩ := h
  refine ⟨kind,inj,event,?_,hid⟩
  rw [setTask_place hj]
  exact moves_place (hst.moves hp) ((hst.others hj).trans hplace)

/-- A step that ends in an active session began in one. -/
theorem Stretch.active {a : Action} {m : Prog A Unit} {u : Session A} (hst : Stretch c s a t k m u) (hp : Placed c s)
    (ha : (m u).state.isActive c) : s.isActive c := by
  have hmoves : ((m u).state.isActive c → u.isActive c) ∧ Running c (m u).state t k :=
    moves_keep (I := fun w => (w.isActive c → u.isActive c) ∧ Running c w t k)
      (fun _ _ hm hu => ⟨fun h => hu.1 (hm.active hu.2 h),hm.running hu.2⟩) (hst.moves hp) ⟨id,hst.running hp⟩
  have hu := hmoves.1 ha
  rw [hst.frame] at hu
  exact hu

theorem Stretch.log_kept {a : Action} {m : Prog A Unit} {u : Session A} (hst : Stretch c s a t k m u) (hp : Placed c s) :
    ∀ o ∈ s.log, o ∈ (m u).state.log := by
  have hulog : u.log = s.log := by rw [hst.frame]
  exact fun o ho => moves_log (hst.moves hp) o (by rwa [hulog])

section Qwen

variable {c : SessionConfig QwenOmniAdapter} {s s' u v : Session QwenOmniAdapter}

/-- A move of a task that makes no context call only takes requests away. -/
theorem Move.withdraws (hq : UsesQwen c) (hk : ∀ request, k ≠ .call (.context request)) (h : Move c b t k s s') {id : String}
    (hid : id ∈ s'.adapter.contextEvents) : id ∈ s.adapter.contextEvents := by
  cases h.adapterMove with
  | quiet h => rwa [← h]
  | build hbuilt =>
    have hcontext : s'.adapter.contextEvents = s.adapter.contextEvents ∨ ∃ request, k = .call (.context request) := by
      generalize s'.adapter = a at hbuilt
      cases hbuilt with
      | message text role request hk => exact .inr ⟨request,hk⟩
      | instructions text request hk => exact .inr ⟨request,hk⟩
      | outOfBand text event a' request hk _ => exact .inr ⟨request,hk⟩
      | session event a' _ hsession =>
        rw [hq.adapter] at hsession
        obtain rfl := (Prod.mk.inj (Except.ok.inj hsession)).2
        exact .inl rfl
    rwa [← hcontext.resolve_right fun ⟨request,hrequest⟩ => hk request hrequest]
  | decode payload _ hadapter =>
    rw [hadapter,decoding,hq.adapter] at hid
    obtain ⟨gone,hgone⟩ := (QwenOmni.decoding_narrows payload _).events
    exact ((QwenOmni.mem_contextEvents_narrowed hgone id).mp hid).1

/-- The step of a task that makes no context call. -/
theorem accounted_other (hq : UsesQwen c) {a : Action} {m : Prog QwenOmniAdapter Unit} (hst : Stretch c s a t k m u)
    (hp : Placed c s) (hk : ∀ request, k ≠ .call (.context request)) (hs : Accounted s) (state : TaskState) :
    Accounted ((m u).state.setTask t state) := by
  intro id hid
  have huevents : u.adapter.contextEvents = s.adapter.contextEvents := by rw [hst.frame]
  have hpending : id ∈ s.adapter.contextEvents := by
    rw [← huevents]
    by_contra hnot
    exact moves_keep (I := fun w => id ∉ w.adapter.contextEvents) (fun _ _ hm hw hw' => hw (hm.withdraws hq hk hw'))
      (hst.moves hp) hnot hid
  obtain htransmitted | ⟨j,hj⟩ := hs id hpending
  · exact .inl (htransmitted.mono (hst.log_kept hp))
  · refine .inr ⟨j,hj.stays hst hp ?_⟩
    rintro rfl
    obtain ⟨_,request,state,hplace⟩ := hj.holds hp
    obtain ⟨state',hplace'⟩ := hst.kind_kept hplace
    rw [hst.here] at hplace'
    exact hk request (Prod.mk.inj (Option.some.inj hplace')).1

/-- The step of a context call. -/
theorem accounted_context (hq : UsesQwen c) {a : Action} {m : Prog QwenOmniAdapter Unit} {request : ContextRequest}
    (hst : Stretch c s a t k m u) (hk : k = .call (.context request)) (hp : Placed c s) (hwaits : ¬s.Abandons a)
    (ha : (m u).state.isActive c) (hs : Accounted s) : Accounted ((m u).state.setTask t (rest (m u))) := by
  have hlog := hst.log_kept hp
  have hhere : (m u).state.place t = some (k,.running) := moves_place (hst.moves hp) hst.here
  have hother : ∀ id ∈ s.adapter.contextEvents, (∀ j, s.BeingSent j id → j ≠ t) →
      ((m u).state.setTask t (rest (m u))).Transmitted id ∨
        ∃ j, ((m u).state.setTask t (rest (m u))).BeingSent j id := by
    intro id hid hne
    obtain htransmitted | ⟨j,hj⟩ := hs id hid
    · exact .inl (htransmitted.mono hlog)
    · exact .inr ⟨j,hj.stays hst hp (hne j hj)⟩
  cases hst.contextStep hq hk hp with
  | locked hfree hlock =>
    have hidle : ∀ id j, s.BeingSent j id → j ≠ t := by
      intro id j hj
      have hholder := (hj.holds hp).1
      simp [hfree] at hholder
    cases hlock with
    | ended h => exact absurd ha h
    | same h =>
      intro id hid
      have hid' : id ∈ s.adapter.contextEvents := h ▸ hid
      exact hother id hid' (hidle id)
    | sent inj expected hrest h =>
      intro id hid
      have hid' : id ∈ s.adapter.contextEvents.set inj.event.eventId expected := h ▸ hid
      obtain rfl | hold := Dict.mem_set.mp hid'
      · exact .inr ⟨t,k,inj,inj.event,by rw [setTask_place_self hhere,hrest],rfl⟩
      · exact hother id hold (hidle id)
  | calm hadapter hmine =>
    intro id hid
    have hid' : id ∈ s.adapter.contextEvents := hadapter ▸ hid
    by_cases hsent : s.BeingSent t id
    · obtain ⟨fresh,rfl⟩ | howned | htransmitted := hmine id hsent
      · exact absurd ⟨id,hsent,hid'⟩ hwaits
      · exact absurd ha (not_active_of_owned howned)
      · exact .inl htransmitted
    · refine hother id hid' ?_
      rintro j hj rfl
      exact hsent hj

/-- The step lemma. -/
theorem accounted_step (hq : UsesQwen c) {a : Action} (hp : Placed c s) (hok : Patient c s a)
    (hs : s.isActive c → Accounted s) (h : step c s a = some s') (hactive : s'.isActive c) : Accounted s' := by
  obtain ⟨t,k,m,u,hst,rfl⟩ | ⟨_,hc⟩ | ⟨shared,rfl,rfl⟩ := step_cases h
  · have ha : (m u).state.isActive c := hactive
    by_cases hk : ∃ request, k = .call (.context request)
    · obtain ⟨request,hk⟩ := hk
      exact accounted_context hq hst hk hp hok.waits ha (hs (hst.active hp ha))
    · exact accounted_other hq hst hp (fun request hrequest => hk ⟨request,hrequest⟩) (hs (hst.active hp ha)) _
  · obtain ⟨output,counters,new,rfl,_⟩ := consume_frame hc
    intro id hid
    exact (hs hactive id hid).imp_left fun h => h.mono fun o ho => List.mem_append_right _ ho
  · have hbefore : s.isActive c := by
      simp only [isActive,Bool.and_eq_true] at hactive ⊢
      exact ⟨hactive.1,(hok.others shared rfl).superseded hactive.2⟩
    exact hs hbefore

theorem accounted_init (hq : UsesQwen c) (h : Init c s) : Accounted s := by
  obtain ⟨shared,id,rfl⟩ := h
  intro id' hid
  rw [runTask_eq] at hid
  have hnone : id' ∉ (useId (fresh c shared) id).adapter.contextEvents := by
    change id' ∉ c.initialAdapter.contextEvents
    rw [hq.initial]
    exact Dict.get_eq_none.mp rfl
  exact absurd hid (moves_keep (I := fun w => id' ∉ w.adapter.contextEvents)
    (fun _ _ hm hw hw' => hw (hm.withdraws hq (fun request => TaskKind.noConfusion) hw')) does_start.moves hnone)

/-- The run lemma. -/
theorem accounted (hq : UsesQwen c) (h : ReachableWith (step c) (Patient c) (Init c) s) (hactive : s.isActive c) :
    Accounted s := by
  refine h.invariant_with (J := Placed c) (I := fun s => s.isActive c → Accounted s) (fun _ => placed)
    (fun s₀ hinit _ => ?_) (fun _ _ _ hp hs hok hstep => accounted_step hq hp hok hs hstep) hactive
  exact accounted_init hq hinit

end Qwen

/-! The echo of a message. -/

/-- The acknowledgement of a message under the item `serverId`. -/
def messageAck (eventId serverId requestId : String) : DecodedProviderEvent :=
  { eventId, contextAckId := some serverId, contextRequestId := some requestId }

/-- The message `requestId` is acknowledged as the item `serverId`. -/
def settleMessage (s : Session A) (requestId serverId : String) : Session A :=
  { s with
    context := { s.context with pending := s.context.pending.set requestId .acknowledged, ackId := some serverId }
    log := .contextAcked requestId serverId :: s.log }

theorem apply_messageAck {eventId serverId requestId : String} (hcurrent : s.isCurrent c) (hready : s.ready)
    (hp : s.context.pending.get requestId = some .waiting) :
    apply c t (messageAck eventId serverId requestId) s = .ok true (s.settleMessage requestId serverId) := by
  have hack : s.acknowledgeContext (messageAck eventId serverId requestId) = s.settleMessage requestId serverId := by
    simp [acknowledgeContext,messageAck,hp,DecodedProviderEvent.ackedItem,settleMessage]
  have hready' : (s.settleMessage requestId serverId).ready := hready
  unfold apply
  rw [Run.get_bind]
  simp only [hcurrent,Bool.not_true,Bool.false_eq_true,if_false]
  have hnone : (messageAck eventId serverId requestId).rejectedEventId.filter (· ∈ s.context.pending) = none := rfl
  rw [hnone]
  dsimp only
  rw [Run.modify_bind,hack]
  simp [Run.andThen,Run.all,readiness,hready',messageAck,introduceResponse,introduceItem,introduceContent,
    acknowledgeTool,checkCompleted,expect,applyEvents,update,Run.bind_apply]
  rfl

/-- A round of the receive loop with the echo of a message. -/
theorem receiveFrame_messageAck {payload : Payload} {fields : String × List String} {eventId serverId requestId : String}
    (hcurrent : s.isCurrent c) (hclosing : s.terminal.closing = false) (hpublished : s.terminal.published = false)
    (hready : s.ready) (hfields : safeEventFields payload = .ok fields)
    (hcontrol : RelayControl.decodeRuntimeEvent payload = .ok none)
    (hd : (s.decoding c payload).result = .ok (messageAck eventId serverId requestId)) (hnew : eventId ∉ s.seenEventIds)
    (hp : s.context.pending.get requestId = some .waiting) :
    ∃ failure : FailureState, receiveFrame c t payload s = .park .receiving (settleMessage { s.afterDecode c payload with
      failure, seenEventIds := insert eventId s.seenEventIds } requestId serverId) := by
  let failure : FailureState := { s.failure with lastEventType := fields.1, lastFieldNames := fields.2 }
  let w : Session A := { s.afterDecode c payload with failure, seenEventIds := insert eventId s.seenEventIds }
  have hw : w.isCurrent c := by
    have hgeneration : (s.decoding c payload).table.generation = s.shared.state.table.generation :=
      c.adapter.decode_generation _ _ _
    simp only [isCurrent] at hcurrent ⊢
    simpa only [w,afterDecode,hgeneration] using hcurrent
  have happly : apply c t (messageAck eventId serverId requestId) w = .ok true (w.settleMessage requestId serverId) :=
    apply_messageAck hw hready hp
  have hframe : frameBody c t payload s = .ok true (w.settleMessage requestId serverId) := by
    have hd' : (({ s with failure } : Session A).decoding c payload).result =
        .ok (messageAck eventId serverId requestId) := hd
    have hprovider : providerFrame c t payload { s with failure } = .ok true (w.settleMessage requestId serverId) := by
      have hdecode : decode c payload { s with failure } =
          .ok (messageAck eventId serverId requestId) (({ s with failure } : Session A).afterDecode c payload) := by
        unfold decode
        rw [Run.get_bind,Run.modify_bind,hd']
        rfl
      unfold providerFrame
      rw [Run.bind_apply,hdecode]
      dsimp only
      have hnew' : (messageAck eventId serverId requestId).eventId ∉
          (({ s with failure } : Session A).afterDecode c payload).seenEventIds := hnew
      rw [Run.get_bind,if_neg hnew',Run.modify_bind]
      exact Run.bind_eq happly
    have hcontrol' : decodeControl c payload ({ s with failure } : Session A) = .ok none { s with failure } := by
      unfold decodeControl
      rw [Run.get_bind,hcontrol]
      rfl
    unfold frameBody
    rw [Run.get_bind,hcurrent,hfields]
    simp only [Bool.not_true,Bool.false_and,Bool.false_eq_true,if_false,Run.ofExcept,Run.pure_bind_apply,Run.modify_bind]
    refine (Run.bind_eq hcontrol').trans ?_
    dsimp only
    rw [Run.get_bind]
    simpa only [hclosing,Bool.false_eq_true,if_false] using hprovider
  refine ⟨failure,?_⟩
  unfold receiveFrame roundEnd
  rw [Run.bind_apply]
  have hhandle : Run.handle (frameBody c t payload) (receiveError c t) s = .ok true (w.settleMessage requestId serverId) := by
    simp only [Run.handle,hframe]
  rw [hhandle]
  have hopen : (w.settleMessage requestId serverId).terminal.published = false := hpublished
  simp only [if_true,loopTest,Run.get_bind,hopen,Bool.false_eq_true,if_false,Run.suspend_apply]
  rfl

/-! A call whose message is acknowledged returns. -/

/-- The call `t` is on its way to return: its message is acknowledged, the response is being asked for, or
it has returned. -/
inductive Settling (s : Session A) (t : TaskId) (inj : Injection) : Prop
  | acked (kind : TaskKind) (h : s.place t = some (kind,.sending (.inject inj) inj.event) ∨
        s.place t = some (kind,.awaitingContextAck inj))
      (hp : s.context.pending.get inj.event.eventId = some .acknowledged) (ha : s.context.ackId.isSome)
  | triggering (kind : TaskKind) (event : ClientEvent) (h : s.place t = some (kind,.sending (.trigger inj) event))
  | returned (h : s.outcome t = some .returned)

/-- Nobody disturbs the call `t`: it is not cancelled, its frames are taken by the connection in time, it
goes on while the session is active, and the other sessions take no key back. -/
structure Undisturbed (c : SessionConfig A) (t : TaskId) (s : Session A) (a : Action) : Prop where
  resumed : ∀ signal fresh, a = .resume t signal fresh → signal = .ready ∧ s.isActive c ∧
    c.adapter.encodeClientEvent (c.adapter.followupResponse fresh "" s.adapter) = .ok ()
  keys : KeepsKeys s a

/-- What the answer to the request of the lock's holder leaves behind. -/
structure Answered (s : Session A) (t : TaskId) (id : String) : Prop where
  holder : s.context.holder = some t
  pending : s.context.pending.get id = some .acknowledged
  acked : s.context.ackId.isSome

/-- The answer stays while other tasks move. -/
theorem Answered.move {id : String} {j : TaskId} (hj : t ≠ j) (h : Move c b j k s s') (hs : Answered s t id) :
    Answered s' t id := by
  have hfree : ¬LockFree s j := fun hfree => hj (hfree t hs.holder)
  have hother : s.context.holder ≠ some j := by simp [hs.holder,hj]
  cases h
  case acquire waiters h => exact absurd hs.holder (by simp [h])
  case release h => exact absurd h hfree
  case pend eventId h => exact absurd h hother
  case unpend eventId h => exact absurd h hfree
  case prior itemId h => exact absurd h hother
  case queue waiters => exact ⟨hs.holder,hs.pending,hs.acked⟩
  case rejectContext eventId error h d hd hid =>
    have hne : id ≠ eventId := by
      rintro rfl
      simp [hs.pending] at h
    exact ⟨hs.holder,(Dict.get_set_of_ne _ _ hne).trans hs.pending,hs.acked⟩
  case ackContext d hd =>
    unfold acknowledgeContext
    split
    · exact hs
    · rename_i requestId _
      split
      · rename_i hwaiting
        have hne : id ≠ requestId := by
          rintro rfl
          simp [hs.pending] at hwaiting
        have hpending : (s.context.pending.set requestId .acknowledged).get id = some .acknowledged :=
          (Dict.get_set_of_ne _ _ hne).trans hs.pending
        split
        · exact ⟨hs.holder,hpending,rfl⟩
        · exact ⟨hs.holder,hpending,hs.acked⟩
      · exact hs
  case shutdown h =>
    refine ⟨hs.holder,?_,hs.acked⟩
    simp [beginShutdown,requestCancel,Dict.get_mapValues,hs.pending]
  case finish => rw [endResponse_frame]; exact ⟨hs.holder,hs.pending,hs.acked⟩
  case publish => rw [publish_frame]; exact ⟨hs.holder,hs.pending,hs.acked⟩
  case conclude => rw [concludeClose_frame]; exact ⟨hs.holder,hs.pending,hs.acked⟩
  case register => rw [registerTool_frame]; exact ⟨hs.holder,hs.pending,hs.acked⟩
  case followup => rw [requestFollowup_frame]; exact ⟨hs.holder,hs.pending,hs.acked⟩
  case introduce => rw [introduce_frame]; exact ⟨hs.holder,hs.pending,hs.acked⟩
  all_goals exact ⟨hs.holder,hs.pending,hs.acked⟩

theorem confirmInjection_taken {inj : Injection} (hkey : ∀ key, inj.key = some key → ¬s.KeyFree key) :
    ∃ v, confirmInjection inj s = .ok () v ∧ v.adapter = s.adapter := by
  unfold confirmInjection
  rw [Run.get_bind]
  cases hk : inj.key with
  | none => exact ⟨s,rfl,rfl⟩
  | some key =>
    cases ha : s.context.ackId with
    | none => exact ⟨s,by simp,rfl⟩
    | some itemId =>
      obtain ⟨entry,hentry⟩ := Option.ne_none_iff_exists'.mp (hkey key hk)
      have hconfirm : ∃ state, s.shared.state.confirmMessage key itemId = .ok state := by
        unfold SessionState.confirmMessage
        rw [hentry]
        exact ⟨_,rfl⟩
      obtain ⟨state,hstate⟩ := hconfirm
      refine ⟨{ s with shared := { s.shared with state }, log := .keyConfirmed key itemId :: s.log },?_,rfl⟩
      simp [hstate,Run.ofExcept]

/-- Once its message is acknowledged a call returns or asks for the response. -/
theorem contextAcked_settles {fresh : String} {inj : Injection} (hactive : s.isActive c)
    (hkey : ∀ key, inj.key = some key → ¬s.KeyFree key)
    (hencode : c.adapter.encodeClientEvent (c.adapter.followupResponse fresh "" s.adapter) = .ok ()) :
    (∃ v, contextAcked c t fresh inj s = .ok () v) ∨
      ∃ event v, contextAcked c t fresh inj s = .park (.sending (.trigger inj) event) v := by
  obtain ⟨v,hv,hadapter⟩ := confirmInjection_taken hkey
  unfold contextAcked
  rw [requireActive_bind hactive,Run.bind_eq hv,Run.get_bind]
  split
  · refine .inr ⟨_,_,sendRuntimeEvent_issues ?_⟩
    rw [hadapter]
    exact hencode
  · exact .inl ⟨v,rfl⟩

theorem awaitContextAck_settles {fresh : String} {inj : Injection} {frame : Frame} (hactive : s.isActive c)
    (hp : s.context.pending.get inj.event.eventId = some .acknowledged)
    (hkey : ∀ key, inj.key = some key → ¬s.KeyFree key)
    (hencode : c.adapter.encodeClientEvent (c.adapter.followupResponse fresh "" s.adapter) = .ok ()) :
    rest (Run.ensuring (awaitContextAck c t fresh inj) (fun u => u.cleanup frame) s) = .finished .returned ∨
      ∃ event, rest (Run.ensuring (awaitContextAck c t fresh inj) (fun u => u.cleanup frame) s) =
        .sending (.trigger inj) event := by
  have hrun : awaitContextAck c t fresh inj s = contextAcked c t fresh inj s := by
    unfold awaitContextAck
    rw [Run.get_bind,hp]
  unfold Run.ensuring
  rw [hrun]
  obtain ⟨v,hv⟩ | ⟨event,v,hv⟩ := contextAcked_settles (t := t) hactive hkey hencode
  · rw [hv]
    exact .inl rfl
  · rw [hv]
    exact .inr ⟨event,rfl⟩

/-- The step of the call itself. -/
theorem Settling.resume {inj : Injection} {signal : Signal} {fresh : String} {task : Task} {m : Prog A Unit}
    (hp : Placed c s) (hk : KeysTaken s) (hs : Settling s t inj) (hok : Undisturbed c t s (.resume t signal fresh))
    (htask : s.tasks[t]? = some task) (hm : resumeProg c s t fresh task task.state signal = some m) :
    rest (m ((s.useId fresh).wake t signal)) = .finished .returned ∨
      ∃ event, rest (m ((s.useId fresh).wake t signal)) = .sending (.trigger inj) event := by
  obtain ⟨rfl,hactive,hencode⟩ := hok.resumed signal fresh rfl
  have hplace : s.place t = some (task.kind,task.state) := place_eq_some.mpr ⟨task,htask,rfl⟩
  have hkey : .issued t (.inject inj) inj.event ∈ s.log → ∀ key, inj.key = some key → ¬s.KeyFree key :=
    fun hi key hkey => hk.claimed t key (hk.sent t inj inj.event key hi hkey)
  cases hs with
  | acked kind hstands hack hackId =>
    obtain hstands | hstands := hstands
    · rw [hplace] at hstands
      obtain ⟨hkind,hstate⟩ := Prod.mk.inj (Option.some.inj hstands)
      have hat := hp.stands t _ _ hplace
      rw [hstate] at hat hm
      obtain rfl := Option.some.inj hm
      rw [Run.modify_bind]
      exact awaitContextAck_settles hactive hack (hkey hat.2.1) hencode
    · rw [hplace] at hstands
      obtain ⟨hkind,hstate⟩ := Prod.mk.inj (Option.some.inj hstands)
      have hat := hp.stands t _ _ hplace
      rw [hstate] at hat hm
      simp only [resumeProg,hack,Option.some.injEq] at hm
      subst hm
      exact awaitContextAck_settles hactive hack (hkey hat.2) hencode
  | triggering kind event hstands =>
    rw [hplace] at hstands
    obtain ⟨hkind,hstate⟩ := Prod.mk.inj (Option.some.inj hstands)
    rw [hstate] at hm
    obtain rfl := Option.some.inj hm
    exact .inl rfl
  | returned h =>
    obtain ⟨kind,hstands⟩ := outcome_eq_some.mp h
    rw [hplace] at hstands
    obtain ⟨hkind,hstate⟩ := Prod.mk.inj (Option.some.inj hstands)
    rw [hstate] at hm
    simp [resumeProg] at hm

/-- The step lemma. -/
theorem Settling.step {inj : Injection} {a : Action} (hp : Placed c s) (hk : KeysTaken s) (hs : Settling s t inj)
    (hok : Undisturbed c t s a) (h : step c s a = some s') : Settling s' t inj := by
  obtain ⟨j,k,m,u,hst,rfl⟩ | ⟨_,hc⟩ | ⟨shared,rfl,rfl⟩ := step_cases h
  · by_cases hj : t = j
    · subst hj
      have hhere : (m u).state.place t = some (k,.running) := moves_place (hst.moves hp) hst.here
      have hset : ((m u).state.setTask t (rest (m u))).place t = some (k,rest (m u)) := setTask_place_self hhere
      cases hst with
      | call call fresh h =>
        have hlt : s.tasks.length < s.tasks.length := by
          cases hs with
          | acked kind hstands => exact hstands.elim place_lt place_lt
          | triggering kind event hstands => exact place_lt hstands
          | returned h =>
            obtain ⟨kind,hstands⟩ := outcome_eq_some.mp h
            exact place_lt hstands
        exact absurd hlt (lt_irrefl _)
      | resume t signal fresh task m h htask hm =>
        obtain hrest | ⟨event,hrest⟩ := hs.resume hp hk hok htask hm
        · exact .returned (outcome_eq_some.mpr ⟨task.kind,by rw [hset,hrest]⟩)
        · exact .triggering task.kind event (by rw [hset,hrest])
    · have hkept : ∀ p, s.place t = some p → ((m u).state.setTask j (rest (m u))).place t = some p := by
        intro p hplace
        rw [setTask_place hj]
        exact moves_place (hst.moves hp) ((hst.others hj).trans hplace)
      cases hs with
      | acked kind hstands hack hackId =>
        have hholder : s.context.holder = some t := by
          obtain hstands | hstands := hstands
          · exact (hp.stands t _ _ hstands).1.1
          · exact (hp.stands t _ _ hstands).1.1
        have hu : Answered u t inj.event.eventId := by
          rw [hst.frame]
          exact ⟨hholder,hack,hackId⟩
        have hanswered := moves_keep (I := fun w => Answered w t inj.event.eventId)
          (fun _ _ hm hw => hw.move hj hm) (hst.moves hp) hu
        exact .acked kind (hstands.imp (hkept _) (hkept _)) hanswered.pending hanswered.acked
      | triggering kind event hstands => exact .triggering kind event (hkept _ hstands)
      | returned h =>
        obtain ⟨kind,hstands⟩ := outcome_eq_some.mp h
        exact .returned (outcome_eq_some.mpr ⟨kind,hkept _ hstands⟩)
  · obtain ⟨_,_,new,rfl,_⟩ := consume_frame hc
    cases hs with
    | acked kind hstands hack hackId => exact .acked kind hstands hack hackId
    | triggering kind event hstands => exact .triggering kind event hstands
    | returned h => exact .returned h
  · cases hs with
    | acked kind hstands hack hackId => exact .acked kind hstands hack hackId
    | triggering kind event hstands => exact .triggering kind event hstands
    | returned h => exact .returned h

/-- The call has returned, or it has not ended and can go on. -/
def Returns (c : SessionConfig A) (s : Session A) (t : TaskId) : Prop :=
  s.outcome t = some .returned ∨ (s.outcome t = none ∧ ∀ fresh ∉ s.usedIds, (step c s (.resume t .ready fresh)).isSome)

theorem Settling.returns {inj : Injection} (hs : Settling s t inj) : Returns c s t := by
  have hgoes : ∀ kind state, s.place t = some (kind,state) → (∀ o, state ≠ .finished o) →
      (∀ fresh task, task.state = state → (resumeProg c s t fresh task state .ready).isSome) → Returns c s t := by
    intro kind state hplace hfinished hm
    refine .inr ⟨?_,fun fresh hf => ?_⟩
    · cases ho : s.outcome t with
      | none => rfl
      | some o =>
        obtain ⟨kind',hplace'⟩ := outcome_eq_some.mp ho
        rw [hplace] at hplace'
        exact absurd (Prod.mk.inj (Option.some.inj hplace')).2 (hfinished o)
    · obtain ⟨task,htask,heq⟩ := place_eq_some.mp hplace
      obtain ⟨-,hstate⟩ := Prod.mk.inj heq
      obtain ⟨m,hm⟩ := Option.isSome_iff_exists.mp (hm fresh task hstate)
      simp [Session.step,hf,htask,hstate,hm]
  cases hs with
  | acked kind hstands hack _ =>
    obtain hstands | hstands := hstands
    · exact hgoes _ _ hstands (by simp) fun fresh task _ => rfl
    · exact hgoes _ _ hstands (by simp) fun fresh task _ => by simp [resumeProg,hack]
  | triggering kind event hstands => exact hgoes _ _ hstands (by simp) fun fresh task _ => rfl
  | returned h => exact .inl h

/-- The run lemma. -/
theorem Settling.run {inj : Injection} (hp : Placed c s) (hk : KeysTaken s) (hs : Settling s t inj)
    (h : Steps (Session.step c) (Undisturbed c t) s s') : Returns c s' t := by
  have hrun : Placed c s' ∧ KeysTaken s' ∧ Settling s' t inj := by
    refine h.invariant (I := fun u => Placed c u ∧ KeysTaken u ∧ Settling u t inj) ?_ ⟨hp,hk,hs⟩
    rintro u a v ⟨hp,hk,hs⟩ hok hstep
    exact ⟨hp.step hstep,hk.step hp hok.keys hstep,hs.step hp hk hok hstep⟩
  exact hrun.2.2.returns

section Qwen

variable {c : SessionConfig QwenOmniAdapter} {s s' : Session QwenOmniAdapter}

/-- The call `t` has handed over the message `inj`, and its answer has not come. -/
structure AwaitsEcho (s : Session QwenOmniAdapter) (t : TaskId) (inj : Injection) (expected : ContextMessage) : Prop where
  stands : ∃ kind, s.place t = some (kind,.sending (.inject inj) inj.event) ∨
    s.place t = some (kind,.awaitingContextAck inj)
  pending : s.context.pending.get inj.event.eventId = some .waiting
  waits : s.adapter.contextEvents.get inj.event.eventId = some (some expected)

/-- The exact completed echo of the message `inj` reaches the receive loop of the active session, which
the provider has answered every other message that was transmitted. -/
structure EchoArrives (c : SessionConfig QwenOmniAdapter) (s : Session QwenOmniAdapter) (t : TaskId) (inj : Injection)
    (expected : ContextMessage) (receiver : TaskId) (payload : Payload) (frame : QwenOmni.ServerFrame)
    (item : Json.Object) (serverId : String) : Prop where
  active : s.isActive c
  ready : s.ready
  awaits : AwaitsEcho s t inj expected
  order : ∀ id message, s.adapter.contextEvents.get id = some (some message) → s.Transmitted id →
    id = inj.event.eventId
  receiving : s.place receiver = some (.receiver,.receiving)
  decodes : QwenOmni.wireDecode payload = .ok frame
  new : frame.eventId ∉ s.seenEventIds
  echo : QwenOmni.ExactEcho s.adapter s.shared.state.table inj.event.eventId expected frame item serverId

/-- In the runs whose steps satisfy `ok` the echo of a message leaves the session running and lets the
call return that waits for it. -/
def EchoesReturn (c : SessionConfig QwenOmniAdapter) (ok : Session QwenOmniAdapter → Action → Prop) : Prop :=
  ∀ s, ReachableWith (step c) ok (Init c) s → ∀ t inj expected receiver payload frame item serverId,
    EchoArrives c s t inj expected receiver payload frame item serverId → ∀ fresh ∉ s.usedIds,
      ∃ s', step c s (.resume receiver (.frame payload) fresh) = some s' ∧ s'.terminal = s.terminal ∧
        ∀ s'', Steps (step c) (Undisturbed c t) s' s'' → Returns c s'' t

theorem AwaitsEcho.holds {inj : Injection} {expected : ContextMessage} (hp : Placed c s)
    (h : AwaitsEcho s t inj expected) : s.context.holder = some t := by
  obtain ⟨kind,hstands⟩ := h.stands
  obtain hstands | hstands := hstands
  · exact (hp.stands t _ _ hstands).1.1
  · exact (hp.stands t _ _ hstands).1.1

/-- The message whose echo arrives is the oldest one that the adapter waits for. -/
theorem Accounted.oldest {inj : Injection} {expected : ContextMessage} {receiver : TaskId} {payload : Payload}
    {frame : QwenOmni.ServerFrame} {item : Json.Object} {serverId : String} (hs : Accounted s) (hp : Placed c s)
    (h : EchoArrives c s t inj expected receiver payload frame item serverId) :
    QwenOmni.oldestMessage s.adapter = some (inj.event.eventId,expected) := by
  have hmine : ∀ e ∈ QwenOmni.pendingMessages s.adapter, e = (inj.event.eventId,expected) := by
    intro e he
    have hget : s.adapter.contextEvents.get e.1 = some (some e.2) := by
      obtain ⟨entry,hentry,hmap⟩ := List.mem_filterMap.mp he
      obtain ⟨message,hmessage,rfl⟩ := Option.map_eq_some_iff.mp hmap
      rw [← hmessage]
      exact Dict.get_eq_some_iff.mpr hentry
    have hid : e.1 = inj.event.eventId := by
      obtain htransmitted | ⟨j,hsent⟩ := hs e.1 (QwenOmni.mem_contextEvents_of_pending he)
      · exact h.order _ _ hget htransmitted
      · have hholder := (hsent.holds hp).1
        rw [h.awaits.holds hp] at hholder
        obtain rfl := Option.some.inj hholder
        obtain ⟨kind,inj',event,hplace,hevent⟩ := hsent
        obtain ⟨kind',hstands⟩ := h.awaits.stands
        rw [hplace] at hstands
        simp only [Option.some.injEq,Prod.mk.injEq,TaskState.sending.injEq,Purpose.inject.injEq,reduceCtorEq,and_false,
          or_false] at hstands
        rw [← hevent,hstands.2.2]
    rw [hid,h.awaits.waits] at hget
    exact Prod.ext hid (Option.some.inj (Option.some.inj hget)).symm
  have hin : (inj.event.eventId,expected) ∈ QwenOmni.pendingMessages s.adapter :=
    List.mem_filterMap.mpr ⟨_,Dict.get_eq_some_iff.mp h.awaits.waits,rfl⟩
  rw [QwenOmni.oldestMessage_eq]
  cases hpending : QwenOmni.pendingMessages s.adapter with
  | nil => simp [hpending] at hin
  | cons e es =>
    rw [List.head?_cons,hmine e (by simp [hpending])]

/-- The step of the receive loop that takes the echo. -/
theorem EchoArrives.step {inj : Injection} {expected : ContextMessage} {receiver : TaskId} {payload : Payload}
    {frame : QwenOmni.ServerFrame} {item : Json.Object} {serverId fresh : String} (hq : UsesQwen c) (hp : Placed c s)
    (h : EchoArrives c s t inj expected receiver payload frame item serverId)
    (hold : QwenOmni.oldestMessage s.adapter = some (inj.event.eventId,expected)) (hfresh : fresh ∉ s.usedIds) :
    ∃ s', Session.step c s (.resume receiver (.frame payload) fresh) = some s' ∧ s'.terminal = s.terminal ∧
      Settling s' t inj := by
  obtain ⟨task,htask,heq⟩ := place_eq_some.mp h.receiving
  obtain ⟨-,hstate⟩ := Prod.mk.inj heq
  have hactive := h.active
  simp only [isActive,Bool.and_eq_true,Option.isNone_iff_eq_none,Bool.not_eq_true'] at hactive
  obtain ⟨⟨howner,hclosing⟩,hcurrent⟩ := hactive
  have hpublished : s.terminal.published = false := by
    cases hpub : s.terminal.published with
    | false => rfl
    | true => simpa [howner] using hp.owned hpub
  let u : Session QwenOmniAdapter := (s.useId fresh).wake receiver (.frame payload)
  obtain ⟨fields,hfields⟩ := QwenOmni.wireDecode_fields h.decodes
  have hcontrol : RelayControl.decodeRuntimeEvent payload = .ok none := by
    refine QwenOmni.wireDecode_control h.decodes ?_
    rw [h.echo.type]
    decide
  have hd : (u.decoding c payload).result = .ok (messageAck frame.eventId serverId inj.event.eventId) := by
    rw [decoding,hq.adapter]
    exact QwenOmni.decoding_echo h.decodes h.echo hold
  obtain ⟨failure,hrun⟩ := receiveFrame_messageAck (t := receiver) (s := u) hcurrent hclosing hpublished h.ready hfields
    hcontrol hd h.new h.awaits.pending
  refine ⟨runTask receiver (receiveFrame c receiver payload) u,?_,?_,?_⟩
  · simp [Session.step,hfresh,htask,hstate,resumeProg,u]
  · rw [runTask_eq,hrun]
    rfl
  · rw [runTask_eq,hrun]
    obtain ⟨kind,hstands⟩ := h.awaits.stands
    have hne : t ≠ receiver := by
      rintro rfl
      rw [h.receiving] at hstands
      simp at hstands
    have hkept : ∀ p, s.place t = some p → u.place t = some p := fun p hplace => (wake_place hne).trans hplace
    refine .acked kind ?_ (Dict.get_set_self _ _ _) rfl
    rw [setTask_place hne]
    exact hstands.imp (hkept _) (hkept _)

/-- In the runs in which no call is abandoned before the connection has taken its frame, a message whose
echo arrives lets its call return, and the session runs on. -/
theorem patient_echoes_return (hq : UsesQwen c) : EchoesReturn c (Patient c) := by
  intro s hreach t inj expected receiver payload frame item serverId h fresh hfresh
  have hp : Placed c s := placed hreach
  have hk : KeysTaken s := keysTaken (fun s a ha shared hshared => (ha.others shared hshared).keys) hreach
  obtain ⟨s',hstep,hterminal,hsettling⟩ := h.step hq hp ((accounted hq hreach h.active).oldest hp h) hfresh
  refine ⟨s',hstep,hterminal,fun s'' hsteps => ?_⟩
  have hk' : KeysTaken s' := hk.step hp (fun shared hshared => by simp at hshared) hstep
  exact hsettling.run (hp.step hstep) hk' hsteps

end Qwen
section

open QwenOmni (sample sampleRun sampleRun_reachable sampleRun_reachableWith sampleRun_step)
open QwenOmni.ContextLog (messageEcho)

theorem sample_usesQwen : UsesQwen sample := ⟨rfl,rfl⟩

def appendMessage (text fresh : String) : Action := .call (.context (.appendMessage text .user false none)) fresh

/-- The step cancels no call that sends a frame, and no other session interferes. -/
def patientCheck (s : Session QwenOmniAdapter) (a : Action) : Bool :=
  match a with
  | .resume t .cancelled _ =>
    match s.place t with
    | some (_,.sending ..) => false
    | _ => true
  | .interfere _ => false
  | _ => true

theorem patientCheck_patient (s : Session QwenOmniAdapter) (a : Action) (h : patientCheck s a) : Patient sample s a := by
  refine ⟨fun habandons => ?_,fun shared ha => ?_⟩
  · cases a with
    | resume t signal fresh =>
      cases signal <;> simp only [Abandons] at habandons
      obtain ⟨id,⟨kind,inj,event,hplace,_⟩,_⟩ := habandons
      simp [patientCheck,hplace] at h
    | _ => exact habandons
  · subst ha
    simp [patientCheck] at h

/-- The first message is given up behind its frame and answered, and the second one is on its way. -/
def answeredThenSent : List Action :=
  [appendMessage "First." "e", .resume 2 .ready "f", .resume 2 .cancelled "g",
    .resume 1 (.frame (messageEcho "r1" "item1" "First.")) "h", appendMessage "Hello." "i", .resume 3 .ready "j"]

/-- The first message is given up before the connection has taken its frame. -/
def abandonedThenSent : List Action :=
  [appendMessage "First." "e", .resume 2 .cancelled "f", appendMessage "Hello." "i", .resume 3 .ready "j"]

/-- The item of the echo of the second message. -/
def helloItem : Json.Object := [("id",.str "item2"), ("type",.str "message"), ("status",.str "completed"),
  ("role",.str "user"), ("content",.arr [.obj [("type",.str "input_text"), ("text",.str "Hello.")]])]

def helloFrame : QwenOmni.ServerFrame := ⟨"conversation.item.created","event_r2",
  [("type",.str "conversation.item.created"), ("event_id",.str "event_r2"), ("item",.obj helloItem)]⟩

def helloEcho : Payload := messageEcho "r2" "item2" "Hello."

/-- The requests whose frames the connection has taken. -/
def acceptedIds (s : Session QwenOmniAdapter) : List String :=
  s.log.filterMap fun
    | .accepted _ (.inject _) event => some event.eventId
    | _ => none

theorem Transmitted.mem_acceptedIds {s : Session QwenOmniAdapter} {id : String} (h : s.Transmitted id) :
    id ∈ s.acceptedIds := by
  obtain ⟨t,inj,event,haccepted,hid⟩ := h
  exact List.mem_filterMap.mpr ⟨_,haccepted,by rw [← hid]⟩

/-- The second message waits for its echo, which has not been seen. -/
def awaitsHello (s : Session QwenOmniAdapter) : Bool :=
  s.isActive sample && s.ready &&
    (match s.place 3 with
      | some (_,.awaitingContextAck inj) => decide (inj.event.eventId = "event_i")
      | _ => false) &&
    (match s.place 1 with
      | some (.receiver,.receiving) => true
      | _ => false) &&
    decide (s.context.pending.get "event_i" = some .waiting) &&
    decide (s.adapter.contextEvents.get "event_i" = some (some ⟨.user,"Hello."⟩)) &&
    decide ("event_r2" ∉ s.seenEventIds) && decide ("event_r2" ∉ s.adapter.contextSeenEventIds) &&
    decide ("item2" ∉ s.adapter.contextSeenItemIds) && decide ("item2" ∉ s.adapter.contextEvents) &&
    (["item2", "event_i"].all fun name => validIdentity name && (s.shared.state.table.lookup name).isNone) &&
    s.adapter.contextEvents.entries.all fun e => decide (e.1 ∈ s.acceptedIds → e.1 = "event_i")

theorem awaitsHello_arrives {s : Session QwenOmniAdapter} (h : awaitsHello s) :
    ∃ inj, EchoArrives sample s 3 inj ⟨.user,"Hello."⟩ 1 helloEcho helloFrame helloItem "item2" := by
  simp only [awaitsHello,Bool.and_eq_true,decide_eq_true_eq,List.all_eq_true,Option.isNone_iff_eq_none] at h
  obtain ⟨⟨⟨⟨⟨⟨⟨⟨⟨⟨⟨hactive,hready⟩,hcall⟩,hreceiver⟩,hpending⟩,hwaits⟩,hnew⟩,hunseen⟩,hitem⟩,hother⟩,hnames⟩,hanswered⟩ := h
  have horder : ∀ id message, s.adapter.contextEvents.get id = some (some message) → s.Transmitted id → id = "event_i" :=
    fun id message hget htransmitted => hanswered _ (Dict.get_eq_some_iff.mp hget) htransmitted.mem_acceptedIds
  split at hcall
  · rename_i kind inj hplace
    have hid : inj.event.eventId = "event_i" := of_decide_eq_true hcall
    have hreceiving : s.place 1 = some (.receiver,.receiving) := by
      split at hreceiver
      · assumption
      · simp at hreceiver
    refine ⟨inj,hactive,hready,⟨⟨kind,.inr hplace⟩,by rw [hid,hpending],by rw [hid,hwaits]⟩,by rwa [hid],hreceiving,rfl,hnew,
      ⟨rfl,hunseen,rfl,by decide,by decide,rfl,⟨hitem,hother⟩,?_⟩⟩
    rw [hid]
    exact hnames
  · simp at hcall

theorem patient_echoes_return_answered : ∃ s', step sample (sampleRun answeredThenSent)
    (.resume 1 (.frame helloEcho) "k") = some s' ∧ s'.terminal = (sampleRun answeredThenSent).terminal ∧
      ∀ s'', Steps (step sample) (Undisturbed sample 3) s' s'' → Returns sample s'' 3 := by
  obtain ⟨inj,harrives⟩ := awaitsHello_arrives (s := sampleRun answeredThenSent) (by with_unfolding_all decide)
  exact patient_echoes_return sample_usesQwen _
    (sampleRun_reachableWith patientCheck patientCheck_patient (by with_unfolding_all decide)) _ _ _ _ _ _ _ _ harrives
    "k" (by with_unfolding_all decide)

/-- A message that is given up on its way poisons the session: the echo of the next one fails it. -/
theorem abandoned_message_poisons :
    ¬EchoesReturn sample fun s a => ∀ shared, a = .interfere shared → Interferes sample s shared := by
  intro hreturns
  have hok : ∀ (s : Session QwenOmniAdapter) (a : Action), (match a with | .interfere _ => false | _ => true) = true →
      ∀ shared, a = .interfere shared → Interferes sample s shared := by
    rintro s a h shared rfl
    simp at h
  obtain ⟨inj,harrives⟩ := awaitsHello_arrives (s := sampleRun abandonedThenSent) (by with_unfolding_all decide)
  obtain ⟨s',hstep,hterminal,_⟩ := hreturns _ (sampleRun_reachableWith _ hok (by with_unfolding_all decide))
    _ _ _ _ _ _ _ _ harrives "k" (by with_unfolding_all decide)
  rw [sampleRun_step abandonedThenSent (by with_unfolding_all decide) (by with_unfolding_all decide)] at hstep
  obtain rfl := Option.some.inj hstep
  have howner := congrArg (fun terminal => terminal.owner.isSome) hterminal
  revert howner
  with_unfolding_all decide

end
end Session
end HarnessSdk
