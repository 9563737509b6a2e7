import HarnessSdk.LocalMoves

/-!
# Steps of the controller

What a task does when it is resumed is one of a few stretches, and a step of the system settles one of them.
-/

namespace HarnessSdk
namespace Local
namespace Controller

open Run Relation Mover

variable {π α : Type} {c : LocalConfig} {s s' s₀ u : Controller} {said : Said}

/-! The stretches of `run`. -/

/-- What `run` does when it is resumed: it leaves, goes on with `_fail`, does what does not touch the input, handles a
message of the product, or collects behind a flush. -/
inductive RunStretch (c : LocalConfig) (s : Controller) : Signal → Prog RunPoint Unit → Prop
  | leaving {signal : Signal} {m : Prog RunPoint Unit} (h : WithinLeaving s m s) : RunStretch c s signal m
  | failing {signal : Signal} (f : Failing) (h : s.receiver = .failing f) :
      RunStretch c s signal (do failResume .failing f; finish)
  | calm {signal : Signal} {m : Prog RunPoint Unit} (hstill : s.receiver.isFlushing = false)
      (hstays : s.receiver.isLeaving = false) (h : WithinRun s m s) : RunStretch c s signal m
  | hello (payload : Payload) (h : s.receiver = .hello) : RunStretch c s (.text payload) (runBody (receiveHello payload))
  | text (payload : Payload) (h : s.receiver = .receiving) :
      RunStretch c s (.text payload) (runBody (handleText c payload))
  | binary (payload : Bytes) (h : s.receiver = .receiving) :
      RunStretch c s (.binary payload) (runBody (handleInputAudio c payload))
  | flushed (next : FlushNext) (h : s.receiver = .flushing next) :
      RunStretch c s .ready (runBody (do modify Controller.flushed; afterFlush c next))

theorem within_plainCancel {next : CancelNext} :
    WithinLeaving s (runBody (cancelActive .cancelActive .failing next)) s :=
  within_leavingBody (.refl s) (within_cancelActive (.refl s) (fun h _ _ hv => ⟨.failed h hv,rfl⟩) fun _ => runLeaves_of rfl rfl)
    fun _ => cancelActive_ok

theorem within_cancelledBody {next : CancelNext} : WithinLeaving s (runBody (cancelledActive .failing next)) s :=
  within_leavingBody (.refl s) (within_cancelledActive (.refl s) fun h _ _ hv => ⟨.failed h hv,rfl⟩)
    fun _ => cancelledActive_ok

variable {m : Prog RunPoint Unit}

theorem resumeRun_cancelled {point : RunPoint} (h : resumeRun c s point .cancelled = some m) : WithinLeaving s m s := by
  cases point with
  | finished => exact nomatch h
  | joiningTimer => obtain rfl := Option.some.inj h; exact within_finishEvents
  | joiningEvents => obtain rfl := Option.some.inj h; exact within_finishSession
  | closingSession | closingChannel => obtain rfl := Option.some.inj h; exact within_pure
  | _ => obtain rfl := Option.some.inj h; exact within_finish

theorem resumeRun_timeout {point : RunPoint} (hpoint : s.receiver = point)
    (h : resumeRun c s point .timeout = some m) : RunStretch c s .timeout m := by
  cases point with
  | connecting | acking | stopping | flushing =>
    obtain rfl := Option.some.inj h
    exact .leaving within_plainCancel
  | stoppingSession =>
    obtain rfl := Option.some.inj h
    exact .calm (by rw [hpoint]; rfl) (by rw [hpoint]; rfl) (within_runBody (.refl s) within_drain)
  | draining =>
    obtain rfl := Option.some.inj h
    exact .leaving (within_leavingBody (.refl s) (within_runFail (.refl s)) fun _ => fail_ok)
  | cancelActive =>
    obtain rfl := Option.some.inj h
    exact .leaving within_cancelledBody
  | failing f =>
    obtain rfl := Option.some.inj h
    exact .failing f hpoint
  | leavingSession =>
    obtain rfl := Option.some.inj h
    exact .leaving within_finish
  | closingSession =>
    obtain rfl := Option.some.inj h
    exact .leaving (within_suspend (runLeaves_of rfl rfl))
  | hello | receiving | opening | bargingIn | joiningTimer | joiningEvents | closingChannel | finished =>
    exact nomatch h

theorem resumeRun_raised {point : RunPoint} {e : LocalExn} (hpoint : s.receiver = point)
    (h : resumeRun c s point (.raised e) = some m) : RunStretch c s (.raised e) m := by
  cases point with
  | opening =>
    cases e with
    | realtime e =>
      obtain rfl := Option.some.inj h
      exact .leaving (within_leavingBody (.refl s) (within_runFail (.refl s)) fun _ => fail_ok)
    | ended | value | other | cancelled =>
      obtain rfl := Option.some.inj h
      exact .leaving (within_raisedBody (.refl s))
  | hello | receiving | connecting | flushing | acking | bargingIn | stopping =>
    obtain rfl := Option.some.inj h
    exact .leaving (within_raisedBody (.refl s))
  | stoppingSession =>
    obtain rfl := Option.some.inj h
    exact .calm (by rw [hpoint]; rfl) (by rw [hpoint]; rfl) (within_runBody (.refl s) within_drain)
  | cancelActive =>
    obtain rfl := Option.some.inj h
    exact .leaving within_cancelledBody
  | failing f =>
    obtain rfl := Option.some.inj h
    exact .failing f hpoint
  | leavingSession =>
    obtain rfl := Option.some.inj h
    exact .leaving within_finish
  | closingSession =>
    obtain rfl := Option.some.inj h
    exact .leaving (within_suspend (runLeaves_of rfl rfl))
  | closingChannel =>
    obtain rfl := Option.some.inj h
    exact .leaving within_pure
  | draining | joiningTimer | joiningEvents | finished =>
    exact nomatch h

theorem resumeRun_ready {point : RunPoint} (hpoint : s.receiver = point) (hstart : point.isStarting → s.started ∧ s.events = none)
    (h : resumeRun c s point .ready = some m) : RunStretch c s .ready m := by
  cases point with
  | connecting instructions =>
    obtain rfl := Option.some.inj h
    exact .calm (by rw [hpoint]; rfl) (by rw [hpoint]; rfl) (within_runBody (.refl s) (within_openCall (hstart rfl)))
  | opening =>
    obtain ⟨hstarted,hnone⟩ := hstart rfl
    obtain rfl := Option.some.inj h
    have hne : s.receiver ≠ .hello := by simp [hpoint]
    exact .calm (by rw [hpoint]; rfl) (by rw [hpoint]; rfl)
      (within_runBody (.refl s) (within_modify (.opened hstarted hnone hne)))
  | flushing next =>
    obtain rfl := Option.some.inj h
    exact .flushed next hpoint
  | acking | bargingIn =>
    obtain rfl := Option.some.inj h
    exact .calm (by rw [hpoint]; rfl) (by rw [hpoint]; rfl) (within_runBody (.refl s) within_pure)
  | stopping =>
    obtain rfl := Option.some.inj h
    exact .calm (by rw [hpoint]; rfl) (by rw [hpoint]; rfl) (within_runBody (.refl s) within_stopSession)
  | stoppingSession =>
    obtain rfl := Option.some.inj h
    exact .calm (by rw [hpoint]; rfl) (by rw [hpoint]; rfl) (within_runBody (.refl s) within_drain)
  | draining =>
    simp only [resumeRun,Option.ite_none_left_eq_some,Option.some.injEq] at h
    obtain ⟨-,rfl⟩ := h
    exact .calm (by rw [hpoint]; rfl) (by rw [hpoint]; rfl) (within_runBody (.refl s) within_pure)
  | cancelActive =>
    obtain rfl := Option.some.inj h
    exact .leaving within_cancelledBody
  | failing f =>
    obtain rfl := Option.some.inj h
    exact .failing f hpoint
  | leavingSession =>
    obtain rfl := Option.some.inj h
    exact .leaving within_finish
  | joiningTimer =>
    simp only [resumeRun,Option.ite_none_left_eq_some,Option.some.injEq] at h
    obtain ⟨-,rfl⟩ := h
    exact .leaving within_finishEvents
  | joiningEvents =>
    simp only [resumeRun,Option.ite_none_left_eq_some,Option.some.injEq] at h
    obtain ⟨-,rfl⟩ := h
    exact .leaving within_finishSession
  | closingSession =>
    obtain rfl := Option.some.inj h
    exact .leaving (within_suspend (runLeaves_of rfl rfl))
  | closingChannel =>
    obtain rfl := Option.some.inj h
    exact .leaving within_pure
  | hello | receiving | finished =>
    exact nomatch h

/-- The inversion of `resumeRun`. -/
theorem runStretch {signal : Signal} (hstart : s.receiver.isStarting → s.started ∧ s.events = none)
    (h : resumeRun c s s.receiver signal = some m) : RunStretch c s signal m := by
  generalize hpoint : s.receiver = point at hstart h
  cases signal with
  | ready => exact resumeRun_ready hpoint hstart h
  | timeout => exact resumeRun_timeout hpoint h
  | raised e => exact resumeRun_raised hpoint h
  | cancelled => exact .leaving (resumeRun_cancelled h)
  | text payload =>
    cases point with
    | hello =>
      obtain rfl := Option.some.inj h
      exact .hello payload hpoint
    | receiving =>
      obtain rfl := Option.some.inj h
      exact .text payload hpoint
    | _ =>
      exact nomatch h
  | binary payload =>
    cases point with
    | hello =>
      obtain rfl := Option.some.inj h
      exact .leaving (within_raisedBody (.refl s))
    | receiving =>
      obtain rfl := Option.some.inj h
      exact .binary payload hpoint
    | _ =>
      exact nomatch h
  | event event =>
    cases point <;> exact nomatch h
  | ended =>
    cases point <;> exact nomatch h

/-- Every stretch of `run` makes moves, but for those that go on with `_fail`. -/
theorem RunStretch.input {leave : Prop} {heard : Heard} {signal : Signal} (h : RunStretch c s signal m)
    (hfree : s.receiver.isWaiting → s.started = false → s.terminal = false ∧ s.events = none)
    (hleave : ∀ payload ready, signal = .binary payload → s.receiver = .receiving →
      acksUnflushed c s payload ready → leave)
    (hheard : ∀ payload n p, signal = .text payload → s.receiver = .receiving → s.asks payload n p → heard n p) :
    WithinInput leave heard s m s ∨ ∃ f, s.receiver = .failing f ∧ m = (do failResume .failing f; finish) := by
  cases h with
  | leaving h => exact .inl h.calm.input
  | failing f h => exact .inr ⟨f,h,rfl⟩
  | calm _ _ h => exact .inl h.input
  | hello payload h => exact .inl (within_inputBody (.refl s) (within_receiveHello h))
  | text payload h => exact .inl (within_inputBody (.refl s) (within_handleText (hfree (by rw [h]; rfl))
      fun n p => hheard payload n p rfl h))
  | binary payload h => exact .inl (within_inputBody (.refl s) (within_handleInputAudio fun ready =>
      hleave payload ready rfl h))
  | flushed next h =>
    exact .inl (within_inputBody (.refl s) (within_modify_bind (.single .flushed) within_afterFlush))

/-! The stretches of `_forward_events` and of the timer. -/

/-- What `_forward_events` does when it is resumed: it makes moves, forwards an event, goes on with `_fail` or with the
end of the call, sends the state of a call that is ready, or ends the call. -/
inductive EventsStretch (s : Controller) (point : EventsPoint) : Signal → Prog EventsPoint Unit → Prop
  | calm {signal : Signal} {m : Prog EventsPoint Unit} (h : WithinEvents signal.carries s m s) : EventsStretch s point signal m
  | forwards {m : Prog EventsPoint Unit} (event : RealtimeEvent) (h : Forwards (Signal.carries (.event event)) event m s) :
      EventsStretch s point (.event event) m
  | failing {signal : Signal} (f : Failing) (more : Bool) (h : point = .failing f more) :
      EventsStretch s point signal (do failResume (fun f => .failing f more) f; eventsLoop more)
  | closing {signal : Signal} (h : point = .closed) : EventsStretch s point signal (suspend .closingChannel)
  | active (h : point = .ready) : EventsStretch s point .ready (eventsBody (do
      let s ← get
      hand (.callState s.generation "active") .active
      return true))
  | closed {m : Prog EventsPoint Unit} (closed : SessionClosed) (hfree : s.terminal = false) (reason : String)
      (h : m s = .park .closed
        ((s.observe (.took (.sessionClosed closed))).claim.observe (.handed (.callClosed s.generation reason)))) :
      EventsStretch s point (.event (.sessionClosed closed)) m

section EventsStretch

variable {generation : ℕ} {m : Prog EventsPoint Unit}

theorem within_chunkSent {size : ℕ} {rest : List Bytes} (hsaid : ∀ audio, ¬said audio) : WithinEvents said s₀ (do
    modify fun s => s.chunkSent generation size
    nextChunks generation rest) s := by
  refine within_modify_bind ?_ within_nextChunks
  unfold chunkSent
  split
  · exact .single (.output (.sent feeds_events hsaid size))
  · exact .refl

theorem within_capacityExpired {rest : List Bytes} (hs : Since s₀ s) :
    WithinEvents said s₀ (capacityExpired generation rest) s := by
  refine within_get (Within.ite (fun _ => within_modify_bind (.single .late) within_nextChunks) fun _ => ?_)
  exact (within_cancelActive hs (fun h _ _ hv _ => ⟨h,hv⟩) fun _ => eventsCalm_of rfl).bind fun _ _ _ _ => within_pure

theorem within_expired : WithinEvents said s (eventsBody (do
    cancelActive .cancelActive (fun f => .failing f false) .raiseBusy
    return false)) s :=
  within_eventsBody (.refl s) ((within_cancelActive (.refl s) (fun h _ _ hv _ => ⟨h,hv⟩) fun _ => eventsCalm_of rfl).bind
    fun _ _ _ _ => within_pure)

theorem within_eventsCancelled {next : CancelNext} : WithinEvents said s (eventsBody (do
    cancelledActive (fun f => .failing f true) next
    return true)) s :=
  within_eventsBody (.refl s) ((within_cancelledActive (.refl s) fun h _ _ hv _ => ⟨h,hv⟩).bind fun _ _ _ _ => within_pure)

theorem eventsStretch_event {point : EventsPoint} {event : RealtimeEvent} :
    EventsStretch s point (.event event) (eventsBody (handleEvent generation event)) := by
  by_cases hclosed : ∃ closed, event = .sessionClosed closed
  · obtain ⟨closed,rfl⟩ := hclosed
    obtain hcalm | ⟨hfree,reason,hpark⟩ := handleEvent_sessionClosed s generation closed
    · exact .calm (within_eventsBody (.refl s) hcalm)
    · exact .closed closed hfree reason (by simp [eventsBody,Run.handle,Run.bind_apply,hpark])
  · have hevent : ∀ closed, event ≠ .sessionClosed closed := fun closed h => hclosed ⟨closed,h⟩
    have hmay : MayForward (Signal.carries (.event event)) event s (handleEvent generation event) s := mayForward_handleEvent (.refl s) hevent
    obtain hcalm | ⟨v,hmoves,hfree,htook,hdomain,hpark⟩ := hmay
    · exact .calm (within_eventsBody (.refl s) hcalm)
    · exact .forwards event ⟨v,hmoves,hfree,htook,hdomain,by simp [eventsBody,Run.handle,Run.bind_apply,hpark]⟩

/-- The inversion of `resumeEvents`. -/
theorem eventsStretch {point : EventsPoint} {signal : Signal} (h : resumeEvents s generation point signal = some m) :
    EventsStretch s point signal m := by
  cases signal with
  | cancelled =>
    cases point with
    | finished => exact nomatch h
    | _ =>
      obtain rfl := Option.some.inj h
      exact .calm within_pure
  | event event =>
    cases point with
    | next =>
      obtain rfl := Option.some.inj h
      exact eventsStretch_event
    | _ => exact nomatch h
  | ended =>
    cases point with
    | next =>
      obtain rfl := Option.some.inj h
      exact .calm (within_eventsBody (.refl s) (within_failEvents (.refl s)))
    | _ => exact nomatch h
  | ready =>
    cases point with
    | ready =>
      obtain rfl := Option.some.inj h
      exact .active rfl
    | active | forwarding =>
      obtain rfl := Option.some.inj h
      exact .calm within_eventsLoop
    | chunk size rest =>
      obtain rfl := Option.some.inj h
      exact .calm (within_eventsBody (.refl s) (within_chunkSent fun _ => id))
    | capacity pcm rest =>
      simp only [resumeEvents,Option.ite_none_right_eq_some,Option.some.injEq] at h
      obtain ⟨hproceed,rfl⟩ := h
      exact .calm (within_eventsBody (.refl s) ((within_sendChunk hproceed).bind fun _ _ _ _ => within_nextChunks))
    | cancelActive next =>
      obtain rfl := Option.some.inj h
      exact .calm within_eventsCancelled
    | failing f more =>
      obtain rfl := Option.some.inj h
      exact .failing f more rfl
    | closed =>
      obtain rfl := Option.some.inj h
      exact .closing rfl
    | closingChannel =>
      obtain rfl := Option.some.inj h
      exact .calm within_pure
    | next | finished => exact nomatch h
  | timeout =>
    cases point with
    | ready | active | forwarding | chunk =>
      obtain rfl := Option.some.inj h
      exact .calm within_expired
    | capacity pcm rest =>
      obtain rfl := Option.some.inj h
      exact .calm (within_eventsBody (.refl s) (within_capacityExpired (.refl s)))
    | cancelActive next =>
      obtain rfl := Option.some.inj h
      exact .calm within_eventsCancelled
    | failing f more =>
      obtain rfl := Option.some.inj h
      exact .failing f more rfl
    | closed =>
      obtain rfl := Option.some.inj h
      exact .closing rfl
    | closingChannel =>
      obtain rfl := Option.some.inj h
      exact .calm within_pure
    | next | finished => exact nomatch h
  | raised e =>
    cases point with
    | next | ready | active | forwarding | chunk =>
      obtain rfl := Option.some.inj h
      exact .calm (within_eventsBody (.refl s) within_raise)
    | cancelActive next =>
      obtain rfl := Option.some.inj h
      exact .calm within_eventsCancelled
    | failing f more =>
      obtain rfl := Option.some.inj h
      exact .failing f more rfl
    | closed =>
      obtain rfl := Option.some.inj h
      exact .closing rfl
    | closingChannel =>
      obtain rfl := Option.some.inj h
      exact .calm within_pure
    | capacity | finished => exact nomatch h
  | text payload | binary payload =>
    cases point <;> exact nomatch h

end EventsStretch

/-- What the timer does when it is resumed: it wakes up, or it leaves everything as it is. -/
inductive TimerStretch (s : Controller) (point : TimerPoint) : Signal → Prog TimerPoint Unit → Prop
  | wakes (h : point = .sleeping) : TimerStretch s point .ready delayedInputAck
  | idle {signal : Signal} {m : Prog TimerPoint Unit} (h : (m s).state = s) : TimerStretch s point signal m

theorem timerStretch {point : TimerPoint} {signal : Signal} {m : Prog TimerPoint Unit}
    (h : resumeTimer s point signal = some m) : TimerStretch s point signal m := by
  cases signal with
  | ready =>
    cases point with
    | sleeping =>
      obtain rfl := Option.some.inj h
      exact .wakes rfl
    | sending | cancelActive =>
      obtain rfl := Option.some.inj h
      exact .idle rfl
  | timeout =>
    cases point with
    | sleeping => exact nomatch h
    | sending =>
      obtain rfl := Option.some.inj h
      exact .idle (by split <;> rfl)
    | cancelActive =>
      obtain rfl := Option.some.inj h
      exact .idle rfl
  | cancelled =>
    cases point <;> · obtain rfl := Option.some.inj h; exact .idle rfl
  | raised e =>
    cases point with
    | sleeping => exact nomatch h
    | sending | cancelActive =>
      obtain rfl := Option.some.inj h
      exact .idle rfl
  | text payload | binary payload | event event | ended =>
    cases point <;> exact nomatch h

/-! The steps of the system. -/

theorem settleRun_eq (m : Prog RunPoint Unit) (s : Controller) : ∃ point,
    settleRun m s = { (m s).state with receiver := point } ∧
      ((∃ u, m s = .park point u) ∨ point = .finished ∧ ((∃ u, m s = .ok () u) ∨ ∃ e u, m s = .raise e u)) := by
  unfold settleRun
  cases m s with
  | ok a u => exact ⟨.finished,rfl,.inr ⟨rfl,.inl ⟨u,rfl⟩⟩⟩
  | raise e u => exact ⟨.finished,rfl,.inr ⟨rfl,.inr ⟨e,u,rfl⟩⟩⟩
  | park point u => exact ⟨point,rfl,.inl ⟨u,rfl⟩⟩

theorem settleEvents_eq (m : Prog EventsPoint Unit) (s : Controller) : ∃ point,
    settleEvents m s = (m s).state.setEvents point ∧ ((∃ u, m s = .park point u) ∨ point = .finished) := by
  unfold settleEvents
  cases m s with
  | ok a u | raise e u => exact ⟨.finished,rfl,.inr rfl⟩
  | park point u => exact ⟨point,rfl,.inl ⟨u,rfl⟩⟩

theorem settleTimer_eq (m : Prog TimerPoint Unit) (s : Controller) : ∃ timer,
    settleTimer m s = { (m s).state with timer } ∧
      (timer = none ∨ ∃ point, timer = (m s).state.timer.map fun t => { t with point }) := by
  unfold settleTimer
  cases m s with
  | ok a u | raise e u => exact ⟨none,rfl,.inl rfl⟩
  | park point u => exact ⟨_,rfl,.inr ⟨point,rfl⟩⟩

/-- The inversion of `step`. -/
theorem step_cases {a : ChannelAction} (h : step c s a = some s') :
    (∃ signal m, a = .run signal ∧ resumeRun c s s.receiver signal = some m ∧ s' = settleRun m s) ∨
    (∃ signal e m, a = .events signal ∧ s.events = some e ∧ resumeEvents s e.generation e.point signal = some m ∧
      s' = settleEvents m s) ∨
    (∃ signal t m, a = .timer signal ∧ s.timer = some t ∧ Signal.fits t.cancelRequested signal ∧
      resumeTimer s t.point signal = some m ∧ s' = settleTimer m s) ∨
    a = .supersede ∧ s' = { s with sessionCurrent := false } := by
  cases a with
  | run signal =>
    have hrun : (resumeRun c s s.receiver signal).map (settleRun · s) = some s' := by
      cases signal with
      | raised e =>
        cases e with
        | cancelled => exact nomatch h
        | realtime | ended | value | other => exact h
      | _ => exact h
    obtain ⟨m,hm,rfl⟩ := Option.map_eq_some_iff.mp hrun
    exact .inl ⟨signal,m,rfl,hm,rfl⟩
  | events signal =>
    obtain ⟨e,he,h⟩ := Option.bind_eq_some_iff.mp h
    simp only [Option.ite_none_right_eq_some] at h
    obtain ⟨_,h⟩ := h
    obtain ⟨m,hm,h⟩ := Option.bind_eq_some_iff.mp h
    exact .inr (.inl ⟨signal,e,m,rfl,he,hm,(Option.some.inj h).symm⟩)
  | timer signal =>
    obtain ⟨t,ht,h⟩ := Option.bind_eq_some_iff.mp h
    simp only [Option.ite_none_right_eq_some] at h
    obtain ⟨hfits,h⟩ := h
    obtain ⟨m,hm,h⟩ := Option.bind_eq_some_iff.mp h
    exact .inr (.inr (.inl ⟨signal,t,m,rfl,ht,hfits,hm,(Option.some.inj h).symm⟩))
  | supersede => exact .inr (.inr (.inr ⟨rfl,(Option.some.inj h).symm⟩))

theorem run_settles {leave : Prop} {heard : Heard} {m : Prog RunPoint Unit} (h : WithinInput leave heard s m s) : ∃ point,
    settleRun m s = { (m s).state with receiver := point } ∧ ReflTransGen (Move leave (.run heard)) s (m s).state ∧
      RunFits s point (m s).state := by
  obtain ⟨point,heq,⟨u,hpark⟩ | ⟨rfl,_⟩⟩ := settleRun_eq m s
  · have hfits := h.parks point u hpark
    exact ⟨point,heq,h.moves,by rwa [hpark]⟩
  · exact ⟨.finished,heq,h.moves,.plain rfl⟩

theorem events_settle {m : Prog EventsPoint Unit} (h : WithinEvents said s m s) : ∃ point,
    settleEvents m s = (m s).state.setEvents point ∧ ReflTransGen (Aside (.events said)) s (m s).state ∧
      EventsCalm s point (m s).state := by
  obtain ⟨point,heq,⟨u,hpark⟩ | rfl⟩ := settleEvents_eq m s
  · have hcalm := h.parks point u hpark
    exact ⟨point,heq,h.moves,by rwa [hpark]⟩
  · exact ⟨.finished,heq,h.moves,eventsCalm_of rfl⟩

/-- The timer leaves everything as it is, or sends the acknowledgement that it has waited with. -/
theorem timer_state {signal : Signal} {point : TimerPoint} {m : Prog TimerPoint Unit}
    (h : resumeTimer s point signal = some m) : (m s).state = s ∨
      signal = .ready ∧ point = .sleeping ∧ s.inputSinceAck ≠ 0 ∧ ∃ window, s.inputWindow = some window ∧
        (m s).state = { s with inputSinceAck := 0 }.observe
          (.handed (.inputAck s.generation window.highestContiguous)) := by
  cases timerStretch h with
  | idle hidle => exact .inl hidle
  | wakes hpoint =>
    by_cases hnone : s.inputSinceAck = 0
    · refine .inl ?_
      simp [delayedInputAck,hnone]
    · cases hwindow : s.inputWindow with
      | none =>
        refine .inl ?_
        simp [delayedInputAck,hnone,sendInputAck,hwindow]
      | some window =>
        refine .inr ⟨rfl,hpoint,hnone,window,rfl,?_⟩
        simp [delayedInputAck,hnone,sendInputAck,hwindow,hand,observe]

/-- How `_fail` goes on: with the message that it hands to the channel, and to its next suspension. -/
inductive FailStep (f : Failing) (s : Controller) : Option FailPoint → Controller → Prop
  | state (h : f.point = .session) : FailStep f s (some .state) (s.observe (.handed (.callState s.generation "error")))
  | error (h : f.point = .state) :
      FailStep f s (some .error) (s.observe (.handed (.callError s.generation f.code f.retryable)))
  | closed (h : f.point = .error) (reason : String) :
      FailStep f s (some .closed) (s.observe (.handed (.callClosed s.generation reason)))
  | channel (h : f.point = .closed) : FailStep f s (some .channel) s
  | ended (h : f.point = .channel) : FailStep f s none s

theorem failResume_step (wrap : Failing → π) (f : Failing) (s : Controller) :
    (∃ point v, FailStep f s (some point) v ∧ failResume wrap f s = .park (wrap { f with point }) v) ∨
      FailStep f s none s ∧ failResume wrap f s = .ok () s := by
  cases hpoint : f.point with
  | session => exact .inl ⟨.state,_,.state hpoint,by simp only [failResume,get_bind,hpoint]; rfl⟩
  | state => exact .inl ⟨.error,_,.error hpoint,by simp only [failResume,get_bind,hpoint]; rfl⟩
  | error => exact .inl ⟨.closed,_,.closed hpoint _,by simp only [failResume,get_bind,hpoint]; rfl⟩
  | closed => exact .inl ⟨.channel,_,.channel hpoint,by simp only [failResume,get_bind,hpoint]; rfl⟩
  | channel => exact .inr ⟨.ended hpoint,by simp only [failResume,get_bind,hpoint]; rfl⟩

/-- `run` goes on with `_fail`, or leaves behind it. -/
theorem failing_run (f : Failing) (s : Controller) :
    (∃ next v, FailStep f s (some next) v ∧
      settleRun (do failResume .failing f; finish) s = { v with receiver := .failing { f with point := next } }) ∨
    WithinLeaving s (do failResume .failing f; finish) s := by
  obtain ⟨next,v,hstep,hresume⟩ | ⟨_,hresume⟩ := failResume_step RunPoint.failing f s
  · refine .inl ⟨next,v,hstep,?_⟩
    simp only [settleRun,Run.bind_apply,hresume]
  · have hfinish : WithinLeaving s finish s := within_finish
    have heq : (do failResume .failing f; finish : Prog RunPoint Unit) s = finish s := Run.bind_eq hresume
    exact .inr ⟨by rw [heq]; exact hfinish.moves,fun p u hu => hfinish.parks p u (heq ▸ hu)⟩

/-- `_forward_events` goes on with `_fail`, or goes on behind it. -/
theorem failing_events (said : Said) (f : Failing) (more : Bool) (s : Controller) :
    (∃ next v, FailStep f s (some next) v ∧
      settleEvents (do failResume (fun f => .failing f more) f; eventsLoop more) s =
        v.setEvents (.failing { f with point := next } more)) ∨
    WithinEvents said s (do failResume (fun f => .failing f more) f; eventsLoop more) s := by
  obtain ⟨next,v,hstep,hresume⟩ | ⟨_,hresume⟩ := failResume_step (fun f => EventsPoint.failing f more) f s
  · refine .inl ⟨next,v,hstep,?_⟩
    simp only [settleEvents,Run.bind_apply,hresume]
  · have hloop : WithinEvents said s (eventsLoop more) s := within_eventsLoop
    have heq : (do failResume (fun f => .failing f more) f; eventsLoop more : Prog EventsPoint Unit) s =
        eventsLoop more s := Run.bind_eq hresume
    exact .inr ⟨by rw [heq]; exact hloop.moves,fun p u hu => hloop.parks p u (heq ▸ hu)⟩

end Controller
end Local
end HarnessSdk
