import HarnessSdk.LocalChannel

/-!
# Moves of the controller's tasks

What a task of the controller does between two suspensions is a sequence of moves: `Aside` for the assignments
that leave the input alone, `Move` for all of them.
-/

namespace HarnessSdk
namespace Local

/-- The payloads that a flush still has to collect. -/
def RunPoint.rest : RunPoint → List Bytes
  | .flushing (.audio rest) => rest
  | _ => []

def RunPoint.isFlushing : RunPoint → Bool
  | .flushing _ => true
  | _ => false

theorem RunPoint.rest_still {point : RunPoint} (h : point.isFlushing = false) : point.rest = [] := by
  cases point with
  | flushing => exact nomatch h
  | _ => rfl

def RunPoint.isFailing : RunPoint → Bool
  | .failing _ => true
  | _ => false

/-- `run` waits for the product. -/
def RunPoint.isWaiting : RunPoint → Bool
  | .hello | .receiving => true
  | _ => false

/-- `_start_call` is under way. -/
def RunPoint.isStarting : RunPoint → Bool
  | .connecting _ | .opening => true
  | _ => false

/-- `run` has left the loop that receives, or is about to. -/
def RunPoint.isLeaving : RunPoint → Bool
  | .cancelActive _ | .failing _ | .leavingSession | .joiningTimer | .joiningEvents | .closingSession
  | .closingChannel | .finished => true
  | _ => false

def RunPoint.isPlain (point : RunPoint) : Bool := !point.isFailing && !point.isWaiting && !point.isStarting

/-- `_forward_events` has claimed the terminal. -/
def EventsPoint.isEnding : EventsPoint → Bool
  | .failing .. | .closed | .closingChannel => true
  | _ => false

/-- The acknowledgements of the output, with a number and a position, that a task may take. -/
abbrev Heard := ℕ → ℤ → Prop

def Heard.none : Heard := fun _ _ => False

def Heard.any : Heard := fun _ _ => True

/-- The formats of the output that a session may come with. -/
abbrev Said := RealtimeAudioFormat → Prop

def Said.none : Said := fun _ => False

/-- The task that makes a move: one that may take such an acknowledgement, or `_forward_events`. -/
inductive Mover
  | run (heard : Heard)
  | events (said : Said)

namespace Mover

def feeds : Mover → Prop
  | run _ => False
  | events _ => True

theorem feeds_events {said : Said} : (events said).feeds := trivial

def heard : Mover → Heard
  | run heard => heard
  | events _ => Heard.none

def said : Mover → Said
  | run _ => Said.none
  | events said => said

end Mover

/-- The format that the event of a signal comes with. -/
def Signal.carries : Signal → Said
  | .event (.sessionReady _ _ _ outputAudio _) => fun audio => audio = outputAudio
  | _ => Said.none

/-- The bytes that are acknowledged once everything up to this number is. -/
def OutputFlow.coveredBytes (o : OutputFlow) (highest : ℕ) : ℕ :=
  o.ackedBytes + ((o.pending.filter fun entry => entry.1 ≤ highest).map Prod.snd).sum

namespace Controller

open Run Relation Mover

variable {π α : Type} {c : LocalConfig} {s s' s₀ u : Controller} {mover : Mover} {heard : Heard} {said : Said}

/-- An acknowledgement that is not refused. -/
structure Due (s : Controller) (highest : ℕ) (position : ℤ) : Prop where
  ready : s.ready
  sent : highest ≤ s.output.sequence
  forward : s.output.playedAudioMs ≤ position
  covered : position * s.output.byteRate ≤ s.output.coveredBytes highest * 1000

/-- What becomes of the flow control of the output. -/
inductive FlowMove (mover : Mover) (s : Controller) : OutputFlow → Prop
  | acknowledged {highest : ℕ} {position : ℤ} (h : mover.heard highest position) (hdue : s.Due highest position) :
      FlowMove mover s (s.output.acknowledge highest position)
  | pushed (hfeeds : mover.feeds) (pcm : Bytes) (hroom : s.hasCapacity pcm) : FlowMove mover s (s.output.push pcm.length)
  | sent (hfeeds : mover.feeds) (hsaid : ∀ audio, ¬mover.said audio) (size : ℕ) : FlowMove mover s (s.output.sent size)

theorem acknowledge_sequence {o : OutputFlow} {highest : ℕ} {position : ℤ} :
    (o.acknowledge highest position).sequence = o.sequence := by
  unfold OutputFlow.acknowledge
  split <;> rfl

/-- Only `_forward_events` allocates a number. -/
theorem FlowMove.sequence {output : OutputFlow} (h : FlowMove (.run heard) s output) : output.sequence = s.output.sequence := by
  cases h with
  | acknowledged => exact acknowledge_sequence
  | pushed hfeeds => exact hfeeds.elim
  | sent => rfl

/-- An assignment that leaves the input alone. The terminal of a call is claimed once, and what is handed to the
channel is handed before the claim. -/
inductive Aside (mover : Mover) (s : Controller) : Controller → Prop
  | late : Aside mover s s.late
  | claim (h : s.terminal = false) : Aside mover s s.claim
  | failNow (h : s.terminal = false) : Aside mover s (s.claim.observe (.handed (.callState s.generation "error")))
  | dropSession : Aside mover s s.dropSession
  | cancelTimer : Aside mover s s.cancelTimer
  | cancelEvents : Aside mover s s.cancelEvents
  | connecting (h : s.terminal = false) :
      Aside mover s ({ s with started := true }.observe (.handed (.callState s.generation "connecting")))
  | opened (h : s.started) (hnone : s.events = none) (hpoint : s.receiver ≠ .hello) : Aside mover s s.opened
  | stopReason (reason : String) : Aside mover s { s with requestedStopReason := some reason }
  | closing (h : s.terminal = false) : Aside mover s (s.observe (.handed (.callState s.generation "closing")))
  | ready (hfeeds : mover.feeds) (h : s.terminal = false) (hfresh : s.ready = false) (correlation : String)
      (inputAudio outputAudio : RealtimeAudioFormat) (hsaid : mover.said outputAudio) :
      Aside mover s ({ s with ready := true, output := { s.output with audio := outputAudio } }.observe
        (.handed (.callReady s.generation correlation inputAudio outputAudio)))
  | audio (hfeeds : mover.feeds) (h : s.terminal = false) (frame : LocalPcmFrame) (bytes : Bytes)
      (hencode : encodePcmFrame frame = .ok bytes) : Aside mover s (s.observe (.handed (.audio frame)))
  | output {output : OutputFlow} (h : FlowMove mover s output) : Aside mover s { s with output }
  | book (hfeeds : mover.feeds) (book : OutputBook) : Aside mover s { s with book }
  | took (hfeeds : mover.feeds) (event : RealtimeEvent) : Aside mover s (s.observe (.took event))

theorem Aside.hears {heard' : Heard} (h : Aside (.run heard) s s') (hheard : ∀ n p, heard n p → heard' n p) :
    Aside (.run heard') s s' := by
  cases h with
  | late => exact .late
  | claim h => exact .claim h
  | failNow h => exact .failNow h
  | dropSession => exact .dropSession
  | cancelTimer => exact .cancelTimer
  | cancelEvents => exact .cancelEvents
  | connecting h => exact .connecting h
  | opened h hnone hpoint => exact .opened h hnone hpoint
  | stopReason reason => exact .stopReason reason
  | closing h => exact .closing h
  | ready hfeeds | audio hfeeds | book hfeeds | took hfeeds => exact hfeeds.elim
  | output h =>
    cases h with
    | acknowledged h hdue => exact .output (.acknowledged (hheard _ _ h) hdue)
    | pushed hfeeds | sent hfeeds => exact hfeeds.elim

theorem Aside.terminal (h : Aside mover s s') (hs : s.terminal) : s'.terminal := by
  cases h <;> first | exact hs | rfl

/-- A claim that is found free was free at the start `s₀` of the stretch. -/
def Since (s₀ s : Controller) : Prop := s₀.terminal = true → s.terminal = true

theorem Since.refl (s : Controller) : Since s s := id

theorem Since.free (h : Since s₀ s) (hs : s.terminal = false) : s₀.terminal = false := by
  by_contra hne
  have hs₀ : s₀.terminal = true := by simpa using hne
  simp [h hs₀] at hs

theorem Since.asides (h : Since s₀ s) (hp : ReflTransGen (Aside mover) s s') : Since s₀ s' := by
  induction hp with
  | refl => exact h
  | tail _ hm ih => exact fun hs => hm.terminal (ih hs)

/-- What stands behind a send is not reached in the same stretch. -/
theorem within_park {M : Controller → Controller → Prop} {Q : π → Controller → Prop} {m : Prog π α} {point : π}
    (h : M s u) (hm : m s = .park point u) (hq : Q point u) : Within M Q m s := by
  refine ⟨?_,fun p v hv => ?_⟩
  · rw [hm]
    exact .single h
  · rw [hm] at hv
    obtain ⟨rfl,rfl⟩ := Outcome.park.inj hv
    exact hq

/-! `_fail` and what leads to it. -/

section Fail

variable {wrap : Failing → π} {Q : π → Controller → Prop}

/-- `_fail` claims the terminal and closes the session; without a session it goes on to its first send. -/
theorem fail_free (wrap : Failing → π) (code : RealtimeErrorCode) (retryable : Bool) (h : s.terminal = false) :
    fail wrap code retryable s =
    if s.hasSession then .park (wrap { code, retryable }) s.claim.dropSession
    else .park (wrap { code, retryable, point := .state }) (s.claim.observe (.handed (.callState s.generation "error"))) := by
  by_cases hsession : s.hasSession
  · simp [fail,h,claim,hsession,dropSession]
  · simp [fail,failResume,hand,h,claim,hsession,observe]

theorem fail_claimed (wrap : Failing → π) (code : RealtimeErrorCode) (retryable : Bool) (h : s.terminal) :
    fail wrap code retryable s = .ok () s := by simp [fail,h]

theorem within_fail {code : RealtimeErrorCode} {retryable : Bool} (hs : Since s₀ s)
    (hq : s₀.terminal = false → ∀ f v, v.terminal → Q (wrap f) v) : Within (Aside mover) Q (fail wrap code retryable) s := by
  cases hterminal : s.terminal with
  | true =>
    have hdone := fail_claimed wrap code retryable hterminal
    exact ⟨by rw [hdone]; exact .refl,fun p v hv => by simp [hdone] at hv⟩
  | false =>
    have hpark := hq (hs.free hterminal)
    have hfree := fail_free wrap code retryable hterminal
    by_cases hsession : s.hasSession
    · rw [if_pos hsession] at hfree
      refine ⟨?_,fun p v hv => ?_⟩
      · rw [hfree]
        exact .tail (.single (.claim hterminal)) .dropSession
      · rw [hfree] at hv
        obtain ⟨rfl,rfl⟩ := Outcome.park.inj hv
        exact hpark _ _ rfl
    · rw [if_neg hsession] at hfree
      refine ⟨?_,fun p v hv => ?_⟩
      · rw [hfree]
        exact .single (.failNow hterminal)
      · rw [hfree] at hv
        obtain ⟨rfl,rfl⟩ := Outcome.park.inj hv
        exact hpark _ _ rfl

theorem within_cancelledActive {next : CancelNext} (hs : Since s₀ s) (hq : s₀.terminal = false → ∀ f v, v.terminal → Q (wrap f) v) :
    Within (Aside mover) Q (cancelledActive wrap next) s := by
  cases next with
  | raiseBusy => exact within_raise
  | failBusy => exact within_fail hs hq

theorem within_cancelActive {point : CancelNext → π} {next : CancelNext} (hs : Since s₀ s)
    (hq : s₀.terminal = false → ∀ f v, v.terminal → Q (wrap f) v) (hpoint : ∀ v, Q (point next) v) :
    Within (Aside mover) Q (cancelActive point wrap next) s := by
  refine within_get (Within.ite (fun _ => within_suspend (hpoint _)) fun _ => ?_)
  cases next with
  | raiseBusy => exact within_raise
  | failBusy => exact within_fail hs hq

end Fail

/-- `_fail` returns at once when the terminal has been claimed. -/
theorem fail_ok {wrap : Failing → π} {code : RealtimeErrorCode} {retryable : Bool}
    (h : fail wrap code retryable s = .ok () u) : u.terminal := by
  cases hterminal : s.terminal with
  | true =>
    rw [fail_claimed wrap code retryable hterminal] at h
    obtain ⟨-,rfl⟩ := Outcome.ok.inj h
    exact hterminal
  | false =>
    rw [fail_free wrap code retryable hterminal] at h
    split at h <;> exact nomatch h

theorem cancelledActive_ok {wrap : Failing → π} {next : CancelNext} (h : cancelledActive wrap next s = .ok () u) :
    u.terminal := by
  cases next with
  | raiseBusy => exact nomatch h
  | failBusy => exact fail_ok h

theorem cancelActive_ok {point : CancelNext → π} {wrap : Failing → π} {next : CancelNext}
    (h : cancelActive point wrap next s = .ok () u) : u.terminal := by
  unfold cancelActive at h
  rw [get_bind] at h
  split at h
  · exact nomatch h
  · have hcancelled : cancelledActive wrap next s = .ok () u := by
      cases next <;> exact h
    exact cancelledActive_ok hcancelled

/-! `run`, but for what handles the input. -/

/-- Where a stretch of `run` from `s₀` is suspended: `_fail` has found the terminal free, `run` waits for the product
only while it is free, and the call has been started before it is opened, once. -/
structure RunFits (s₀ : Controller) (point : RunPoint) (u : Controller) : Prop where
  failing : point.isFailing → s₀.terminal = false ∧ u.terminal
  waiting : point.isWaiting → u.terminal = false
  starting : point.isStarting → u.started ∧ u.events = none
  hello : point ≠ .hello

theorem RunFits.plain {point : RunPoint} (h : point.isPlain) : RunFits s₀ point u := by
  simp only [RunPoint.isPlain,Bool.and_eq_true,Bool.not_eq_true'] at h
  obtain ⟨⟨hfailing,hwaiting⟩,hstarting⟩ := h
  refine ⟨by simp [hfailing],by simp [hwaiting],by simp [hstarting],?_⟩
  rintro rfl
  exact nomatch hwaiting

theorem RunFits.failed {f : Failing} (h : s₀.terminal = false) (hu : u.terminal) : RunFits s₀ (.failing f) u :=
  ⟨fun _ => ⟨h,hu⟩,nofun,nofun,nofun⟩

/-- And it does not hold any payload back. -/
def RunCalm (s₀ : Controller) (point : RunPoint) (u : Controller) : Prop := RunFits s₀ point u ∧ point.isFlushing = false

/-- And it does not come back to the loop that receives. -/
def RunLeaves (s₀ : Controller) (point : RunPoint) (u : Controller) : Prop := RunFits s₀ point u ∧ point.isLeaving

theorem runCalm_of {point : RunPoint} (h : point.isPlain) (hr : point.isFlushing = false) : RunCalm s₀ point u := ⟨.plain h,hr⟩

theorem runLeaves_of {point : RunPoint} (h : point.isPlain) (hl : point.isLeaving) : RunLeaves s₀ point u :=
  ⟨.plain h,hl⟩

theorem RunPoint.still_leaving {point : RunPoint} (h : point.isLeaving) : point.isFlushing = false := by
  cases point with
  | flushing next => exact nomatch h
  | _ => rfl

theorem RunPoint.rest_leaving {point : RunPoint} (h : point.isLeaving) : point.rest = [] :=
  RunPoint.rest_still (RunPoint.still_leaving h)

abbrev WithinRun (s₀ : Controller) (m : Prog RunPoint Unit) (s : Controller) : Prop :=
  Within (Aside (.run .none)) (RunCalm s₀) m s

abbrev WithinLeaving (s₀ : Controller) (m : Prog RunPoint Unit) (s : Controller) : Prop :=
  Within (Aside (.run .none)) (RunLeaves s₀) m s

theorem WithinLeaving.calm {m : Prog RunPoint Unit} (h : WithinLeaving s₀ m s) : WithinRun s₀ m s :=
  h.mono (fun _ _ => id) fun _ _ hq => ⟨hq.1,RunPoint.still_leaving hq.2⟩

theorem within_finishSession : WithinLeaving s₀ finishSession s :=
  within_get (Within.ite (fun _ => within_modify_bind (.single .dropSession) (within_suspend (runLeaves_of rfl rfl)))
    fun _ => within_suspend (runLeaves_of rfl rfl))

theorem within_finishEvents : WithinLeaving s₀ finishEvents s :=
  within_get (Within.ite (fun _ => within_modify_bind (.single .cancelEvents) (within_suspend (runLeaves_of rfl rfl)))
    fun _ => within_finishSession)

theorem within_finish : WithinLeaving s₀ finish s :=
  within_get (Within.ite (fun _ => within_modify_bind (.single .cancelTimer) (within_suspend (runLeaves_of rfl rfl)))
    fun _ => within_finishEvents)

theorem within_runFail {code : RealtimeErrorCode} {retryable : Bool} (hs : Since s₀ s) :
    WithinLeaving s₀ (fail .failing code retryable) s := within_fail hs fun h _ _ hv => ⟨.failed h hv,rfl⟩

theorem within_runRaised {e : LocalExn} (hs : Since s₀ s) : WithinLeaving s₀ (runRaised e) s := by
  cases e with
  | cancelled => exact within_finish
  | ended =>
    exact within_get (Within.ite (fun _ => within_modify_bind (.single .dropSession)
      (within_suspend (runLeaves_of rfl rfl))) fun _ => within_finish)
  | realtime e => exact (within_runFail hs).bind fun _ _ _ _ => within_finish
  | value | other => exact (within_runFail hs).bind fun _ _ _ _ => within_finish

theorem within_receiveLoop : WithinRun s₀ receiveLoop s := by
  refine within_get (Within.ite (fun _ => within_finish.calm) fun hgo => within_suspend ⟨?_,rfl⟩)
  exact ⟨nofun,fun _ => by simpa using hgo,nofun,nofun⟩

theorem within_receiveLoop_terminal (h : s.terminal) : WithinLeaving s₀ receiveLoop s :=
  within_get (Within.ite (fun _ => within_finish) fun hgo => absurd h hgo)

theorem within_runBody {m : Prog RunPoint Unit} (hs : Since s₀ s) (hm : WithinRun s₀ m s) : WithinRun s₀ (runBody m) s := by
  refine Within.handle (hm.bind fun _ _ _ _ => within_receiveLoop) fun e u _ hu => ?_
  exact (within_runRaised (hs.asides hu)).calm

/-- A handler that returns only behind the claim does not come back to the loop either. -/
theorem within_leavingBody {m : Prog RunPoint Unit} (hs : Since s₀ s) (hm : WithinLeaving s₀ m s)
    (hok : ∀ u, m s = .ok () u → u.terminal) : WithinLeaving s₀ (runBody m) s := by
  refine Within.handle (hm.bind fun _ u hu _ => within_receiveLoop_terminal (hok u hu)) fun e u _ hu => ?_
  exact within_runRaised (hs.asides hu)

theorem within_raisedBody {e : LocalExn} (hs : Since s₀ s) : WithinLeaving s₀ (runBody (raise e)) s :=
  within_leavingBody hs within_raise fun _ hu => nomatch hu

theorem within_startCall {value : Json.Object} (h : s.started = false → s.terminal = false ∧ s.events = none) :
    WithinRun s₀ (startCall value) s := by
  refine within_get (Within.ite (fun _ => within_raise) fun hstarted => ?_)
  obtain ⟨hfree,hnone⟩ := h (by simpa using hstarted)
  split
  · refine Within.ite (fun _ => within_raise) fun _ => Within.ite (fun _ => within_raise) fun _ =>
      Within.ite (fun _ => within_raise) fun _ => ?_
    exact within_park (.connecting hfree) rfl ⟨⟨nofun,nofun,fun _ => ⟨rfl,hnone⟩,nofun⟩,rfl⟩
  · exact within_raise

theorem within_openCall {instructions : String} (h : s.started ∧ s.events = none) : WithinRun s₀ (openCall instructions) s :=
  Within.ite (fun _ => within_raise) fun _ => within_suspend ⟨⟨nofun,nofun,fun _ => h,nofun⟩,rfl⟩

theorem within_drain : WithinRun s₀ drain s :=
  within_get (Within.ite (fun _ => within_suspend (runCalm_of rfl rfl)) fun _ => within_pure)

theorem within_stopSession : WithinRun s₀ stopSession s :=
  within_get (Within.ite (fun _ => within_modify_bind (.single .dropSession) (within_suspend (runCalm_of rfl rfl)))
    fun _ => within_drain)

/-- The acknowledgement that a message asks for, if it is not refused. -/
def asksFor (s : Controller) (value : Json.Object) : Heard := fun highest position =>
  s.Due highest position ∧ Json.asInt (Json.field value "highest_contiguous_sequence") = some (highest : ℤ) ∧
    (if Json.hasField value "played_audio_ms" then Json.asInt (Json.field value "played_audio_ms")
      else some s.output.playedAudioMs) = some position

theorem within_handleOutputAck {value : Json.Object} :
    Within (Aside (.run (s.asksFor value))) (RunCalm s₀) (handleOutputAck value) s := by
  refine within_get (Within.ite (fun _ => within_raise) fun hready => Within.ite (fun _ => within_raise) fun _ => ?_)
  split
  · exact within_raise
  · rename_i highest hhighest
    refine Within.ite (fun _ => within_raise) fun hpos => Within.ite (fun _ => within_raise) fun hsent => ?_
    dsimp only
    split
    · exact within_raise
    · rename_i position hposition
      refine Within.ite (fun _ => within_raise) fun hbounds => ?_
      have hdue : s.Due highest.toNat position := by
        rw [not_or,not_lt,not_lt] at hbounds
        have hcovered : (s.output.pending.filter fun entry => decide (entry.1 ≤ highest.toNat)) =
            s.output.pending.filter fun entry => decide ((entry.1 : ℤ) ≤ highest) := by
          apply List.filter_congr
          intro entry _
          rw [decide_eq_decide]
          omega
        refine ⟨by simpa using hready,by omega,hbounds.1,?_⟩
        unfold OutputFlow.coveredBytes OutputFlow.byteRate
        rw [hcovered,Int.natCast_add,Int.natCast_mul,Int.natCast_mul]
        exact hbounds.2
      exact within_modify (.output (.acknowledged ⟨hdue,by rw [hhighest,Int.toNat_of_nonneg (not_lt.mp hpos)],hposition⟩ hdue))

/-! `_forward_events`. -/

/-- Where a stretch of `_forward_events` is suspended. -/
def EventsCalm (s₀ : Controller) (point : EventsPoint) (u : Controller) : Prop :=
  point.isEnding → s₀.terminal = false ∧ u.terminal

theorem eventsCalm_of {point : EventsPoint} (h : point.isEnding = false) : EventsCalm s₀ point u :=
  fun hh => by simp [h] at hh

abbrev WithinEvents (said : Said) (s₀ : Controller) (m : Prog EventsPoint α) (s : Controller) : Prop :=
  Within (Aside (.events said)) (EventsCalm s₀) m s

theorem within_eventsFail {code : RealtimeErrorCode} {retryable more : Bool} (hs : Since s₀ s) :
    WithinEvents said s₀ (fail (fun f => .failing f more) code retryable) s := within_fail hs fun h _ _ hv _ => ⟨h,hv⟩

theorem within_failEvents {code : RealtimeErrorCode} {retryable more : Bool} (hs : Since s₀ s) :
    WithinEvents said s₀ (failEvents code retryable more) s := (within_eventsFail hs).bind fun _ _ _ _ => within_pure

theorem isDomainEvent_of_encode {generation : ℕ} {event : RealtimeEvent} {message : LocalMessage}
    (h : encodeDomainEvent generation event = .ok message) : isDomainEvent event ∧ message = .callEvent generation event := by
  unfold encodeDomainEvent at h
  split at h
  · exact nomatch h
  · split at h
    · rename_i hdomain
      exact ⟨hdomain,(Except.ok.inj h).symm⟩
    · exact nomatch h

/-- The stretch ends with the send of the event that it has taken. -/
def Forwards (said : Said) (event : RealtimeEvent) (m : Prog EventsPoint α) (s : Controller) : Prop :=
  ∃ v, ReflTransGen (Aside (.events said)) s v ∧ v.terminal = false ∧ v.log.head? = some (.took event) ∧ isDomainEvent event ∧
    m s = .park .forwarding (v.observe (.handed (.callEvent v.generation event)))

/-- The event is forwarded, or the stretch makes moves only. -/
def MayForward (said : Said) (event : RealtimeEvent) (s₀ : Controller) (m : Prog EventsPoint α) (s : Controller) : Prop :=
  WithinEvents said s₀ m s ∨ Forwards said event m s

section MayForward

variable {event : RealtimeEvent}

theorem MayForward.get_bind {k : Controller → Prog EventsPoint α} (h : MayForward said event s₀ (k s) s) :
    MayForward said event s₀ (get >>= k) s := h.imp within_get id

theorem MayForward.modify_bind {f : Controller → Controller} {k : Unit → Prog EventsPoint α} (hf : Aside (.events said) s (f s))
    (h : MayForward said event s₀ (k ()) (f s)) : MayForward said event s₀ (modify f >>= k) s := by
  refine h.imp (within_modify_bind (.single hf)) ?_
  rintro ⟨v,hmoves,hv⟩
  exact ⟨v,.head hf hmoves,hv⟩

theorem MayForward.ite {p : Prop} [Decidable p] {m n : Prog EventsPoint α} (hm : p → MayForward said event s₀ m s)
    (hn : ¬p → MayForward said event s₀ n s) : MayForward said event s₀ (if p then m else n) s := by
  split
  · exact hm ‹_›
  · exact hn ‹_›

theorem mayForward_forward (h : s.terminal = false) (htook : s.log.head? = some (.took event)) :
    MayForward said event s₀ (forward event) s := by
  cases hencode : encodeDomainEvent s.generation event with
  | error e =>
    have heq : forward event s = .raise e s := by simp [forward,hencode,Run.ofExcept]
    exact .inl ⟨by rw [heq]; exact .refl,fun p u hu => by rw [heq] at hu; exact nomatch hu⟩
  | ok message =>
    obtain ⟨hdomain,rfl⟩ := isDomainEvent_of_encode hencode
    exact .inr ⟨s,.refl,h,htook,hdomain,by simp [forward,hencode,Run.ofExcept,hand,Run.bind_apply]⟩

end MayForward

/-- Behind the wait there is room, unless the call has ended. -/
theorem within_sendChunk {generation : ℕ} {pcm : Bytes} {rest : List Bytes} (h : s.mayProceed generation pcm) :
    WithinEvents said s₀ (sendChunk generation pcm rest) s := by
  refine within_get (Within.ite (fun _ => within_pure) fun hgo => ?_)
  have hterminal : s.terminal = false := by
    simp only [Bool.or_eq_true,not_or,Bool.not_eq_true] at hgo
    exact hgo.1
  have hroom : s.hasCapacity pcm := by
    unfold mayProceed at h
    rw [Bool.or_eq_true] at h
    exact h.resolve_left hgo
  refine within_modify_bind (.single (.output (.pushed feeds_events pcm hroom))) (within_get (within_ofExcept_bind fun bytes hencode => ?_))
  exact within_park (.audio (s := { s with output := OutputFlow.push s.output pcm.length }) feeds_events hterminal _ bytes
    hencode) rfl (eventsCalm_of rfl)

theorem within_sendChunks {generation : ℕ} {chunks : List Bytes} : WithinEvents said s₀ (sendChunks generation chunks) s := by
  induction chunks generalizing s with
  | nil => exact within_pure
  | cons pcm rest ih =>
    refine within_get (Within.ite (fun hgo => ?_) fun _ => within_suspend (eventsCalm_of rfl))
    have hproceed : s.mayProceed generation pcm := by
      unfold mayProceed at hgo ⊢
      simp only [Bool.or_eq_true] at hgo ⊢
      exact hgo.elim .inr id
    exact (within_sendChunk hproceed).bind fun _ _ _ _ => within_get (Within.ite (fun _ => within_pure) fun _ => ih)

theorem within_nextChunks {generation : ℕ} {rest : List Bytes} : WithinEvents said s₀ (nextChunks generation rest) s :=
  within_get (Within.ite (fun _ => within_pure) fun _ => within_sendChunks)

theorem within_late : WithinEvents said s₀ (do modify late; return true) s := within_modify_bind (.single .late) within_pure

theorem within_sendOutputAudio {generation : ℕ} {pcm : Bytes} (hs : Since s₀ s) :
    WithinEvents said s₀ (sendOutputAudio generation pcm) s :=
  within_get (Within.ite (fun _ => within_late) fun _ => Within.ite (fun _ => within_failEvents hs) fun _ =>
    within_sendChunks)

theorem mayForward_startOutput {o : OutputIdentity} {event : RealtimeEvent} (hs : Since s₀ s)
    (h : s.terminal = false) (htook : s.log.head? = some (.took event)) :
    MayForward said event s₀ (startOutput o event) s := by
  refine MayForward.get_bind (MayForward.ite (fun _ => .inl within_late) fun _ =>
    MayForward.ite (fun _ => .inl (within_failEvents hs)) fun _ => MayForward.ite (fun _ => .inl within_late) fun _ => ?_)
  exact MayForward.modify_bind (.book feeds_events _) (mayForward_forward h htook)

theorem mayForward_withActive {o : OutputIdentity} {event : RealtimeEvent} {m : Prog EventsPoint Bool}
    (hs : Since s₀ s) (hm : MayForward said event s₀ m s) : MayForward said event s₀ (withActive o m) s :=
  MayForward.get_bind (MayForward.ite (fun _ => .inl within_late) fun _ =>
    MayForward.ite (fun _ => .inl (within_failEvents hs)) fun _ => hm)

theorem within_sessionReady {correlation : String} {inputAudio outputAudio : RealtimeAudioFormat} (hs : Since s₀ s)
    (h : s.terminal = false) (hsaid : said outputAudio) : WithinEvents said s₀ (sessionReady correlation inputAudio outputAudio) s := by
  refine within_get (Within.ite (fun _ => within_failEvents hs) fun hgo => ?_)
  have hfresh : s.ready = false := by
    simp only [Bool.or_eq_true,not_or,Bool.not_eq_true] at hgo
    exact hgo.1
  exact within_park (.ready feeds_events h hfresh correlation inputAudio outputAudio hsaid) rfl (eventsCalm_of rfl)

/-- But for the end of the session, which the next lemma is about. -/
theorem mayForward_handleEvent {generation : ℕ} {event : RealtimeEvent} (hs : Since s₀ s)
    (hevent : ∀ closed, event ≠ .sessionClosed closed) :
    MayForward (Signal.carries (.event event)) event s₀ (handleEvent generation event) s := by
  refine MayForward.modify_bind (.took feeds_events event) (MayForward.get_bind (MayForward.ite (fun _ => .inl within_late) fun _ =>
    MayForward.ite (fun _ => .inl within_pure) fun hgo => ?_))
  have h : (s.observe (.took event)).terminal = false := by simpa using hgo
  have hs' : Since s₀ (s.observe (.took event)) := hs
  split
  · exact .inl (within_sessionReady hs' h rfl)
  · exact mayForward_startOutput hs' h rfl
  · exact mayForward_withActive hs' (.inl (within_sendOutputAudio hs'))
  · exact mayForward_withActive hs' (MayForward.modify_bind (.book feeds_events _) (mayForward_forward h rfl))
  · exact MayForward.modify_bind (.book feeds_events _) (mayForward_forward h rfl)
  · exact .inl (within_failEvents hs')
  · exact absurd rfl (hevent _)
  · exact mayForward_forward h rfl

/-- The end of the session claims the terminal and ends the call, unless another task has claimed it. -/
theorem handleEvent_sessionClosed (s : Controller) (generation : ℕ) (closed : SessionClosed) :
    WithinEvents said s (handleEvent generation (.sessionClosed closed)) s ∨
      s.terminal = false ∧ ∃ reason, handleEvent generation (.sessionClosed closed) s = .park .closed
        ((s.observe (.took (.sessionClosed closed))).claim.observe (.handed (.callClosed s.generation reason))) := by
  by_cases hgo : generation ≠ s.generation ∨ s.terminal
  · refine .inl (within_modify_bind (.single (.took feeds_events _)) (within_get (Within.ite (fun _ => within_late) fun hsame =>
      Within.ite (fun _ => within_pure) fun hfree => ?_)))
    exact (hgo.elim hsame hfree).elim
  · simp only [not_or,not_not,Bool.not_eq_true] at hgo
    obtain ⟨rfl,hfree⟩ := hgo
    refine .inr ⟨hfree,s.requestedStopReason.getD (closedReason closed),?_⟩
    simp [handleEvent,sessionClosed,observe,hfree,hand,claim,Run.bind_apply]

theorem within_eventsLoop {more : Bool} : WithinEvents said s₀ (eventsLoop more) s :=
  Within.ite (fun _ => within_suspend (eventsCalm_of rfl)) fun _ => within_pure

theorem within_eventsRaised {e : LocalExn} (hs : Since s₀ s) : WithinEvents said s₀ (eventsRaised e) s := by
  cases e with
  | cancelled => exact within_pure
  | realtime | ended | value | other => exact within_eventsFail hs

theorem within_eventsBody {m : Prog EventsPoint Bool} (hs : Since s₀ s) (hm : WithinEvents said s₀ m s) :
    WithinEvents said s₀ (eventsBody m) s := by
  refine Within.handle (hm.bind fun _ _ _ _ => within_eventsLoop) fun e u _ hu => ?_
  exact within_eventsRaised (hs.asides hu)

/-! What handles the input. -/

/-- An assignment of any task. An acknowledgement is handed before the claim or with leave. -/
inductive Move (leave : Prop) (mover : Mover) (s : Controller) : Controller → Prop
  | aside {t : Controller} (h : Aside mover s t) : Move leave mover s t
  | hello (hpoint : s.receiver = .hello) (correlation : String) :
      Move leave mover s { s with generation := 1, correlation, inputWindow := some { generation := 1 } }
  | stale (frame : LocalPcmFrame) : Move leave mover s (s.observe (.received frame)).late
  | take (frame : LocalPcmFrame) (window : InputWindow) :
      Move leave mover s { s.observe (.received frame) with inputWindow := some window }
  | duplicate : Move leave mover s { s with duplicateFrames := s.duplicateFrames + 1 }
  | push (payloads : List Bytes) : Move leave mover s { s with inputBatch := s.inputBatch ++ payloads }
  | flushed : Move leave mover s s.flushed
  | startTimer : Move leave mover s { s with timer := some {} }
  | ack (h : s.terminal = false ∨ leave) (window : InputWindow) :
      Move leave mover s ({ s with inputSinceAck := 0 }.observe (.handed (.inputAck s.generation window.highestContiguous)))

theorem Move.terminal {leave : Prop} (h : Move leave mover s s') (hs : s.terminal) : s'.terminal := by
  cases h with
  | aside h => exact h.terminal hs
  | hello | stale | take | duplicate | push | flushed | startTimer | ack => exact hs

theorem Since.moves {leave : Prop} (h : Since s₀ s) (hp : ReflTransGen (Move leave mover) s s') : Since s₀ s' := by
  induction hp with
  | refl => exact h
  | tail _ hm ih => exact fun hs => hm.terminal (ih hs)

/-- A batch that a list of payloads does not fill keeps them all. -/
theorem collect_unfilled {rest : List Bytes} (h : rest = [] ∨ s.inputBatch.length + rest.length < c.inputBatchFrames) :
    collect c rest s = acknowledge c { s with inputBatch := s.inputBatch ++ rest } := by
  induction rest generalizing s with
  | nil => simp [collect]
  | cons pcm rest ih =>
    have hsize : s.inputBatch.length + (rest.length + 1) < c.inputBatchFrames := by simpa using h
    have hopen : ¬c.inputBatchFrames ≤ (s.inputBatch ++ [pcm]).length := by simp; omega
    have hrest := ih (s := { s with inputBatch := s.inputBatch ++ [pcm] }) (.inr (by simp; omega))
    simp only [collect,modify_bind,get_bind,if_neg hopen,hrest,List.append_assoc,List.singleton_append]

/-- The others are flushed as soon as it is full. -/
theorem collect_full {rest : List Bytes} (hne : rest ≠ [])
    (h : c.inputBatchFrames ≤ s.inputBatch.length + rest.length) : ∃ filling others, filling ≠ [] ∧
      rest = filling ++ others ∧
      collect c rest s = sendBatch (.audio others) { s with inputBatch := s.inputBatch ++ filling } := by
  induction rest generalizing s with
  | nil => exact absurd rfl hne
  | cons pcm rest ih =>
    by_cases hfull : c.inputBatchFrames ≤ (s.inputBatch ++ [pcm]).length
    · refine ⟨[pcm],rest,by simp,rfl,?_⟩
      simp only [collect,modify_bind,get_bind,if_pos hfull]
    · have hopen : rest ≠ [] := by
        rintro rfl
        simp at h hfull
        omega
      obtain ⟨filling,others,hfilling,rfl,hcollect⟩ := ih (s := { s with inputBatch := s.inputBatch ++ [pcm] }) hopen
        (by simp at h ⊢; omega)
      refine ⟨pcm :: filling,others,by simp,rfl,?_⟩
      simp only [collect,modify_bind,get_bind,if_neg hfull,hcollect,List.append_assoc,List.singleton_append]

/-- An input frame that makes the payloads `ready` contiguous is acknowledged without a flush. -/
def acksUnflushed (c : LocalConfig) (s : Controller) (payload : Bytes) (ready : List Bytes) : Prop :=
  s.ready ∧ s.hasSession ∧ c.ackEveryFrames ≤ s.inputSinceAck ∧ ∃ window frame window',
    s.inputWindow = some window ∧ decodePcmFrame payload = .ok frame ∧ frame.generation = s.generation ∧
      window.accept frame = .ok (ready,window') ∧
      (ready = [] → max window.highestContiguous window'.highestContiguous < frame.sequence) ∧
      (ready = [] ∨ s.inputBatch.length + ready.length < c.inputBatchFrames)

section Input

variable {leave : Prop}

abbrev WithinInput (leave : Prop) (heard : Heard) (s₀ : Controller) (m : Prog RunPoint Unit) (s : Controller) : Prop :=
  Within (Move leave (.run heard)) (RunFits s₀) m s

theorem WithinRun.input {m : Prog RunPoint Unit} (h : WithinRun s₀ m s) : WithinInput leave heard s₀ m s :=
  h.mono (fun _ _ hm => .aside (hm.hears fun _ _ => False.elim)) fun _ _ => And.left

theorem within_sendInputAck {Q : π → Controller → Prop} {point : π} (h : s.terminal = false ∨ leave)
    (hq : ∀ v, Q point v) : Within (Move leave (.run heard)) Q (sendInputAck point) s := by
  refine within_get ?_
  split
  · exact within_raise
  · rename_i window _
    exact within_park (.ack h window) rfl (hq _)

theorem within_acknowledge (h : c.ackEveryFrames ≤ s.inputSinceAck → s.terminal = false ∨ leave) :
    WithinInput leave heard s₀ (acknowledge c) s :=
  within_get (Within.ite (fun hdue => within_sendInputAck (h hdue) fun _ => .plain rfl) fun _ =>
    Within.ite (fun _ => within_modify .startTimer) fun _ => within_pure)

theorem within_sendBatch {next : FlushNext} : WithinInput leave heard s₀ (sendBatch next) s :=
  within_get (Within.ite (fun _ => within_raise) fun _ => within_suspend (.plain rfl))

/-- A collection acknowledges only what it has not flushed. -/
theorem within_collect {rest : List Bytes} (h : c.ackEveryFrames ≤ s.inputSinceAck →
    rest = [] ∨ s.inputBatch.length + rest.length < c.inputBatchFrames → s.terminal = false ∨ leave) :
    WithinInput leave heard s₀ (collect c rest) s := by
  by_cases hunfilled : rest = [] ∨ s.inputBatch.length + rest.length < c.inputBatchFrames
  · have hack : WithinInput leave heard s₀ (acknowledge c) { s with inputBatch := s.inputBatch ++ rest } :=
      within_acknowledge fun hdue => h hdue hunfilled
    have heq := collect_unfilled (c := c) hunfilled
    exact ⟨by rw [heq]; exact .head (.push rest) hack.moves,fun p u hu => hack.parks p u (by rwa [heq] at hu)⟩
  · simp only [not_or,not_lt] at hunfilled
    obtain ⟨filling,others,_,rfl,heq⟩ := collect_full hunfilled.1 hunfilled.2
    have hsend : WithinInput leave heard s₀ (sendBatch (.audio others)) { s with inputBatch := s.inputBatch ++ filling } :=
      within_sendBatch
    exact ⟨by rw [heq]; exact .head (.push filling) hsend.moves,fun p u hu => hsend.parks p u (by rwa [heq] at hu)⟩

theorem within_afterFlush {next : FlushNext} : WithinInput leave heard s₀ (afterFlush c next) s := by
  refine within_get (Within.ite (fun _ => within_pure) fun hgo => ?_)
  have h : s.terminal = false := by simpa using hgo
  cases next with
  | audio rest => exact within_collect fun _ _ => .inl h
  | bargeIn => exact within_suspend (.plain rfl)
  | stop reason => exact within_park (.aside (.closing h)) rfl (.plain rfl)

theorem within_flushInputBatch {next : FlushNext} : WithinInput leave heard s₀ (flushInputBatch c next) s :=
  within_get (Within.ite (fun _ => within_afterFlush) fun _ => within_sendBatch)

theorem within_handleInputAudio {payload : Bytes} (h : ∀ ready, acksUnflushed c s payload ready → leave) :
    WithinInput leave heard s₀ (handleInputAudio c payload) s := by
  refine within_get ?_
  split
  · rename_i window hactive hwindow
    refine within_ofExcept_bind fun frame hframe => Within.ite (fun _ => within_modify (.stale frame)) fun hsame => ?_
    refine within_ofExcept_bind fun (ready,window') haccept => ?_
    refine within_modify_bind (.single (.take frame window')) ?_
    refine Within.ite (fun _ => within_modify .duplicate) fun hfresh => within_collect fun hdue hunfilled =>
      .inr (h ready ?_)
    simp only [Bool.and_eq_true] at hactive
    refine ⟨hactive.1,hactive.2,hdue,window,frame,window',hwindow,hframe,by simpa using hsame,haccept,?_,hunfilled⟩
    intro hready
    by_contra hle
    exact hfresh ⟨hready,not_lt.mp hle⟩
  · exact within_raise

theorem within_stopCall {value : Json.Object} : WithinInput leave heard s₀ (stopCall c value) s := by
  refine within_get (Within.ite (fun _ => within_raise) fun _ => ?_)
  split
  · exact Within.ite (fun _ => within_raise) fun _ => within_raise
  · exact Within.ite (fun _ => within_raise) fun _ =>
      within_modify_bind (.single (.aside (.stopReason _))) within_flushInputBatch

/-- The acknowledgement that a text asks for, if it is not refused. -/
def asks (s : Controller) (payload : Payload) : Heard := fun highest position =>
  ∃ value, decodeLocalMessage payload = .ok ("call.audio_ack",value) ∧ s.asksFor value highest position

theorem within_handleText {payload : Payload} (h : s.started = false → s.terminal = false ∧ s.events = none)
    (hheard : ∀ n p, s.asks payload n p → heard n p) : WithinInput leave heard s₀ (handleText c payload) s := by
  refine within_ofExcept_bind fun (messageType,value) hdecode => within_get ?_
  refine Within.ite (fun _ => within_modify (.aside .late)) fun _ => ?_
  split
  · exact (within_startCall h).input
  · exact within_stopCall
  · exact Within.ite (fun _ => within_raise) fun _ => within_flushInputBatch
  · refine within_handleOutputAck.mono (fun _ _ hm => .aside (hm.hears fun n p hasks => ?_)) fun _ _ => And.left
    exact hheard n p ⟨value,hdecode,hasks⟩
  · exact within_raise

theorem within_receiveHello {payload : Payload} (hpoint : s.receiver = .hello) :
    WithinInput leave heard s₀ (receiveHello payload) s := by
  refine within_ofExcept_bind fun (messageType,value) _ => Within.ite (fun _ => within_raise) fun _ => ?_
  split
  · exact Within.ite (fun _ => within_raise) fun _ => within_modify (.hello hpoint _)
  · exact within_raise

theorem within_inputBody {m : Prog RunPoint Unit} (hs : Since s₀ s) (hm : WithinInput leave heard s₀ m s) :
    WithinInput leave heard s₀ (runBody m) s := by
  refine Within.handle (hm.bind fun _ _ _ _ => within_receiveLoop.input) fun e u _ hu => ?_
  exact (within_runRaised (hs.moves hu)).calm.input

end Input

end Controller
end Local
end HarnessSdk
