import HarnessSdk.Placed

/-!
# What the result of a task says

A task that has returned, or raised, has come to one of a few places of its program. For the
close task, a tool attempt, and the calls that wait for them this file says what holds there.
-/

namespace HarnessSdk
namespace Session

open Run

variable {A : Type} {c : SessionConfig A} {b : Brings} {t : TaskId} {k : TaskKind} {s s' : Session A}

/-- A program that parks or raises. -/
abbrev NeverReturns {α : Type} (m : Prog A α) (s : Session A) : Prop :=
  Run.Ends (fun _ _ => False) (fun _ _ => True) m s

theorem NeverReturns.ensuring {α : Type} {m : Prog A α} {f : Session A → Session A}
    {P : α → Session A → Prop} (h : NeverReturns m s) :
    Run.Ends P (fun _ _ => True) (Run.ensuring m f) s :=
  Run.Ends.ensuring h (fun _ _ h => h.elim) fun _ _ _ => trivial

theorem ends_failAndRaise {code : RealtimeErrorCode} {retryable : Bool} {error : RealtimeError}
    {frame : Frame} : NeverReturns (failAndRaise c t code retryable error frame) s :=
  ends_trivial.bind fun _ _ _ => ends_get (ends_raise trivial)

theorem ends_sendFailed {purpose : Purpose} {event : ClientEvent} {e : Exn} :
    NeverReturns (sendFailed c t purpose event e) s := by
  cases e with
  | cancelled => exact ends_raise trivial
  | realtime e => exact ends_modify_bind ends_failAndRaise
  | exception => exact ends_modify_bind ends_failAndRaise

theorem ends_sendTimedOut {purpose : Purpose} {event : ClientEvent} :
    NeverReturns (sendTimedOut c t purpose event) s := ends_modify_bind ends_failAndRaise

theorem ends_sendRuntimeEvent {purpose : Purpose} {event : ClientEvent} :
    NeverReturns (sendRuntimeEvent c t purpose event) s := by
  refine ends_modify_bind ?_
  split
  · exact ends_modify_bind ends_suspend
  · exact ends_sendFailed

theorem ends_cancel {f : Session A → Session A} {P : Unit → Session A → Prop} {E : Exn → Session A → Prop}
    (h : ∀ u, E .cancelled (f u)) : Run.Ends P E (Run.ensuring (Run.raise .cancelled : Prog A Unit) f) s :=
  Run.Ends.ensuring (P := fun _ _ => False) (E := fun e _ => e = .cancelled) (ends_raise rfl)
    (fun _ _ h => h.elim) fun _ u he => he ▸ h u

/-! The close task. -/

def closeReasonError : Exn := .realtime { code := .invalidRequest, message := "invalid close reason" }

/-- The close task claims the terminal before it looks at its reason. -/
def ReasonRefused (s : Session A) (reason : String) (e : Exn) : Prop :=
  e = closeReasonError ∧ reason ∉ RelayControl.closeReasons ∧ s.terminal.owner.isSome

theorem ends_controlledClose {fresh reason : String} : Run.Ends (fun _ u => u = s ∧ s.terminal.owner.isSome)
    (fun e u => u.ReasonRefused reason e) (controlledClose t fresh reason) s := by
  refine ends_get (Run.Ends.ite (fun ho => ends_pure ⟨rfl,ho⟩) fun _ => ends_modify_bind ?_)
  refine ends_ofExcept (fun event _ => ends_modify_bind (ends_modify_bind ends_suspend)) fun e he => ?_
  unfold buildBoundSessionClose at he
  split at he
  · simp at he
  · exact ⟨(Except.error.inj he).symm,‹_›,rfl⟩

theorem ends_shutdownConnection {after : After} :
    Run.Ends (fun _ u => u = s) (fun _ _ => False) (shutdownConnection t after) s :=
  ends_get (Run.Ends.ite (fun _ => ends_pure rfl) fun _ => ends_modify_bind ends_suspend)

/-- The programs of the close task that end the stream. -/
abbrev EndsPublished (m : Prog A Unit) (s : Session A) : Prop :=
  Run.Ends (fun _ u => u.terminal.published) (fun _ _ => False) m s

theorem ends_finishClose {reason : String} {ack : Option SessionClosed} :
    EndsPublished (finishClose c t reason ack) s := by
  refine ends_modify_bind (ends_shutdownConnection.mono (fun _ u hu => ?_) fun _ _ h => h)
  rw [hu]
  rfl

theorem ends_closeSendFailed {reason : String} {event : ClientEvent} :
    EndsPublished (closeSendFailed c t reason event) s := ends_modify_bind ends_finishClose

theorem ends_closeAckTimedOut {reason : String} : EndsPublished (closeAckTimedOut c t reason) s :=
  ends_modify_bind ends_finishClose

theorem ends_awaitCloseAck {reason : String} : EndsPublished (awaitCloseAck c t reason) s := by
  refine ends_get ?_
  split
  · exact ends_finishClose
  · exact ends_suspend

theorem ends_joinReceiver (hp : s.terminal.published) : EndsPublished (joinReceiver t .done) s := by
  refine ends_get ?_
  split
  · exact ends_pure hp
  · exact ends_modify_bind (ends_get (Run.Ends.ite (fun _ => ends_pure hp) fun _ => ends_suspend))

/-- The places of a close task. -/
theorem closeTask_states {reason : String} {state : TaskState} (h : At c s t (.controlledClose reason) state) :
    (state = .created ∧ ¬s.terminal.closing) ∨ (∃ event, state = .sending (.close reason) event) ∨
      state = .awaitingCloseAck reason ∨
      ((state = .closingConnection .done ∨ state = .joiningReceiver .done) ∧ s.terminal.published) ∨
      ∃ o, state = .finished o := by
  cases state
  case created => exact .inl ⟨rfl,h.1 reason rfl⟩
  case sending purpose event =>
    obtain ⟨hsend,_⟩ := h
    cases purpose <;> simp [SendAt,SendsPlain,SendsAudio] at hsend
    exact .inr (.inl ⟨event,by rw [hsend.1]⟩)
  case awaitingCloseAck r =>
    obtain ⟨hk,_⟩ : SendAt c s t (.controlledClose reason) (.close r) := h
    simp only [TaskKind.controlledClose.injEq] at hk
    exact .inr (.inr (.inl (by rw [hk])))
  case closingConnection after =>
    cases after with
    | done => exact .inr (.inr (.inr (.inl ⟨.inl rfl,h.1⟩)))
    | raise error frame => exact h.2.2.1.elim
  case joiningReceiver after =>
    cases after with
    | done => exact .inr (.inr (.inr (.inl ⟨.inr rfl,h.1⟩)))
    | raise error frame => exact h.2.2.1.elim
  case finished o => exact .inr (.inr (.inr (.inr ⟨o,rfl⟩)))
  all_goals simp [At,SendAt] at h

/-- A close task that returns has ended the stream or found it ended. It raises only over its reason. -/
theorem closeTask_ends {reason fresh : String} {task : Task} {signal : Signal} {m : Prog A Unit}
    (hs : Settled s) (hk : task.kind = .controlledClose reason) (hat : At c s t task.kind task.state)
    (hm : resumeProg c s t fresh task task.state signal = some m) :
    Run.Ends (fun _ u => u.terminal.published)
      (fun e u => u.ReasonRefused reason e) m ((s.useId fresh).wake t signal) := by
  obtain ⟨kind,state,cancel⟩ := task
  dsimp only at hk hat hm
  subst hk
  have himp : ∀ {m : Prog A Unit} {u : Session A}, EndsPublished m u → Run.Ends (fun _ u => u.terminal.published)
      (fun e u => u.ReasonRefused reason e) m u :=
    fun h => h.mono (fun _ _ hu => hu) fun _ _ hf => hf.elim
  have hplain : ∀ {m : Prog A Unit} {u : Session A}, EndsPublished m u →
      EndsPublished (Run.ensuring m fun s => s.cleanup .plain) u :=
    fun h => h.ensuring (fun _ _ hu => hu) fun _ _ hf => hf
  obtain ⟨rfl,hc⟩ | ⟨event,rfl⟩ | rfl | ⟨rfl | rfl,hp⟩ | ⟨o,rfl⟩ := closeTask_states hat
  · cases signal <;> simp [resumeProg,mayCancel] at hm
    subst hm
    refine ends_controlledClose.mono (fun _ u hu => ?_) fun _ _ he => he
    obtain ⟨rfl,ho⟩ := hu
    exact (hs.settled ho).resolve_left hc
  · cases signal <;> simp [resumeProg,mayCancel] at hm
    · subst hm
      exact himp (ends_modify_bind (hplain ends_awaitCloseAck))
    · subst hm
      exact himp (hplain ends_closeSendFailed)
    · obtain ⟨_,rfl⟩ := hm
      exact himp (hplain ends_closeSendFailed)
  · cases signal <;> simp [resumeProg,mayCancel] at hm
    · split at hm
      · obtain rfl := Option.some.inj hm
        exact himp ends_finishClose
      · simp at hm
    · subst hm
      exact himp ends_closeAckTimedOut
  · cases signal <;> simp [resumeProg,mayCancel] at hm
    · subst hm
      exact himp (ends_joinReceiver hp)
    · subst hm
      exact himp (ends_joinReceiver hp)
    · obtain ⟨_,rfl⟩ := hm
      exact himp (ends_joinReceiver hp)
  · cases signal <;> simp [resumeProg,mayCancel] at hm
    · obtain ⟨_,rfl⟩ := hm
      exact ends_pure hp
    · subst hm
      exact ends_pure hp
  · simp [resumeProg] at hm

/-! The tool attempt. -/

/-- The record of a call after which an attempt has nothing left to send. -/
def NothingLeft (s : Session A) (id : String) : Prop :=
  ∃ r, s.record id = some r ∧ r.state ≠ .resultAcked ∧ r.state ≠ .followupRequested ∧
    (r.ack ∨ r.state ≠ .requested ∧ r.state ≠ .resultSent)

theorem ends_prepareResult {fresh id output : String} :
    Run.Ends (fun _ u => ∃ r, u.record id = some r ∧ r.state ≠ .requested) (fun _ _ => True)
      (prepareResult c fresh id output) s := by
  refine ends_get ?_
  split
  · exact ends_raise trivial
  · rename_i r hr
    refine Run.Ends.ite (fun hs => ends_pure ⟨r,hr,hs⟩) fun _ => ends_modify_bind ?_
    exact ends_ofExcept (fun _ _ => ends_modify ⟨_,by simp [record,setRecord]; rfl,by simp⟩) fun _ _ => trivial

/-- The follow-up stage returns only over a record that it does not touch. -/
theorem ends_followupStage {fresh id : String} :
    Run.Ends (fun _ u => u.record id = s.record id ∧
      ∃ r, s.record id = some r ∧ r.state ≠ .resultAcked ∧ r.state ≠ .followupRequested) (fun _ _ => True)
      (followupStage c t fresh id) s := by
  have hprepare : Run.Ends (fun _ u => (u = s ∧ ∃ r, s.record id = some r ∧ r.state ≠ .resultAcked) ∨
      ∃ r, u.record id = some r ∧ r.state = .followupRequested) (fun _ _ => True)
      (prepareFollowup c fresh id) s := by
    refine ends_get ?_
    split
    · exact ends_raise trivial
    · rename_i r hr
      refine Run.Ends.ite (fun hs => ends_pure (.inl ⟨rfl,r,hr,hs⟩)) fun _ => ends_modify_bind ?_
      exact ends_ofExcept (fun _ _ => ends_modify (.inr ⟨_,requestFollowup_record _ _ _,rfl⟩)) fun _ _ => trivial
  refine hprepare.bind fun _ u hu => ends_get ?_
  split
  · exact ends_raise trivial
  · rename_i r hr
    refine Run.Ends.ite (fun hs => ends_pure ?_) fun _ => ?_
    · obtain ⟨rfl,r',hr',ha⟩ | ⟨r',hr',hf⟩ := hu
      · rw [hr] at hr'
        obtain rfl := Option.some.inj hr'
        exact ⟨rfl,r,hr,ha,hs⟩
      · rw [hr] at hr'
        obtain rfl := Option.some.inj hr'
        exact absurd hf hs
    · split
      · exact ends_raise trivial
      · exact ends_modify_bind ends_suspend

theorem ends_followupStage_of {fresh id : String}
    (h : ∀ r, s.record id = some r → r.ack ∨ r.state ≠ .requested ∧ r.state ≠ .resultSent) :
    Run.Ends (fun _ u => u.NothingLeft id) (fun _ _ => True) (followupStage c t fresh id) s := by
  refine ends_followupStage.mono (fun _ u hu => ?_) fun _ _ h => h
  obtain ⟨hrec,r,hr,ha,hf⟩ := hu
  exact ⟨r,by rw [hrec,hr],ha,hf,h r hr⟩

theorem ends_attempt {fresh id output : String} :
    Run.Ends (fun _ u => u.NothingLeft id) (fun _ _ => True) (attempt c t fresh id output) s := by
  refine ends_prepareResult.bind fun _ u hu => ends_get ?_
  obtain ⟨r,hr,hq⟩ := hu
  simp only [hr]
  refine Run.Ends.ite (fun hs => ends_followupStage_of fun r' hr' => ?_) fun _ => ?_
  · rw [hr] at hr'
    obtain rfl := Option.some.inj hr'
    exact .inr ⟨hq,hs⟩
  · split
    · exact ends_raise trivial
    · exact ends_modify_bind ends_suspend

theorem ends_awaitToolAck {fresh id : String} :
    Run.Ends (fun _ u => u.NothingLeft id) (fun _ _ => True) (awaitToolAck c t fresh id) s := by
  refine ends_get ?_
  split
  · exact ends_raise trivial
  · rename_i r hr
    refine Run.Ends.ite (fun hack => ends_followupStage_of fun r' hr' => ?_) fun _ => ends_suspend
    rw [hr] at hr'
    obtain rfl := Option.some.inj hr'
    exact .inl hack

theorem ends_toolAckTimedOut {id : String} : NeverReturns (toolAckTimedOut c t id) s := by
  refine ends_get ?_
  split
  · exact ends_raise trivial
  · exact ends_modify_bind ends_failAndRaise

theorem ends_shutdownEnded {error : RealtimeError} {frame : Frame} :
    NeverReturns (shutdownEnded (.raise error frame) : Prog A Unit) s := by
  have h : NeverReturns (do
      let s ← Run.get
      (Run.raise (.realtime { error with failure := s.failure.context }) : Prog A Unit)) s :=
    ends_get (ends_raise trivial)
  exact NeverReturns.ensuring h

theorem ends_joinReceiver_raise {error : RealtimeError} {frame : Frame} :
    NeverReturns (joinReceiver t (.raise error frame) : Prog A Unit) s := by
  refine ends_get ?_
  split
  · exact ends_shutdownEnded
  · exact ends_modify_bind (ends_get (Run.Ends.ite (fun _ => ends_shutdownEnded) fun _ => ends_suspend))

/-- The places of a tool attempt. -/
theorem attempt_states {id output : String} {state : TaskState} (h : At c s t (.attempt id output) state) :
    state = .created ∨ (∃ event, state = .sending (.result id) event) ∨
      (∃ event, state = .sending (.followup id) event) ∨ state = .awaitingToolAck id ∨
      (∃ error frame, state = .closingConnection (.raise error frame) ∨
        state = .joiningReceiver (.raise error frame)) ∨ ∃ o, state = .finished o := by
  cases state
  case created => exact .inl rfl
  case sending purpose event =>
    obtain ⟨hsend,_⟩ := h
    cases purpose <;> simp [SendAt,SendsPlain,SendsAudio] at hsend
    · exact .inr (.inl ⟨event,by rw [hsend]⟩)
    · exact .inr (.inr (.inl ⟨event,by rw [hsend]⟩))
  case awaitingToolAck id' =>
    obtain ⟨_,hk⟩ := h
    simp only [TaskKind.attempt.injEq] at hk
    exact .inr (.inr (.inr (.inl (by rw [hk.1]))))
  case closingConnection after =>
    cases after with
    | done => simp [At,AfterAt] at h
    | raise error frame => exact .inr (.inr (.inr (.inr (.inl ⟨error,frame,.inl rfl⟩))))
  case joiningReceiver after =>
    cases after with
    | done => simp [At,AfterAt] at h
    | raise error frame => exact .inr (.inr (.inr (.inr (.inl ⟨error,frame,.inr rfl⟩))))
  case finished o => exact .inr (.inr (.inr (.inr (.inr ⟨o,rfl⟩))))
  all_goals simp [At,SendAt] at h

/-- An attempt that returns has its follow-up frame accepted or nothing left to send. -/
theorem attempt_ends {id output fresh : String} {task : Task} {signal : Signal} {m : Prog A Unit}
    (htask : s.tasks[t]? = some task) (hk : task.kind = .attempt id output)
    (hat : At c s t task.kind task.state) (hm : resumeProg c s t fresh task task.state signal = some m) :
    Run.Ends (fun _ u => (∃ event, (brings c s (.resume t signal fresh)).accepts = some (.followup id,event)) ∨
      u.NothingLeft id) (fun _ _ => True) m ((s.useId fresh).wake t signal) := by
  obtain ⟨kind,state,cancel⟩ := task
  dsimp only at hk hat hm
  subst hk
  have hdone : ∀ {m : Prog A Unit} {u : Session A} {p : Prop}, Run.Ends (fun _ u => u.NothingLeft id)
      (fun _ _ => True) m u → Run.Ends (fun _ u => p ∨ u.NothingLeft id) (fun _ _ => True) m u :=
    fun h => h.mono (fun _ _ hu => .inr hu) fun _ _ _ => trivial
  have hplain : ∀ {m : Prog A Unit} {u : Session A} {P : Unit → Session A → Prop},
      Run.Ends P (fun _ _ => True) m u →
      Run.Ends P (fun _ _ => True) (Run.ensuring m fun s => s.cleanup .plain) u :=
    fun h => h.ensuring (fun _ _ hu => hu) fun _ _ _ => trivial
  have hnever : ∀ {m : Prog A Unit} {u : Session A} {P : Unit → Session A → Prop}, NeverReturns m u →
      Run.Ends P (fun _ _ => True) m u := fun h => h.mono (fun _ _ hu => hu.elim) fun _ _ _ => trivial
  obtain rfl | ⟨event,rfl⟩ | ⟨event,rfl⟩ | rfl | ⟨error,frame,rfl | rfl⟩ | ⟨o,rfl⟩ := attempt_states hat
  · cases signal <;> simp [resumeProg,mayCancel] at hm
    subst hm
    exact hdone ends_attempt
  · cases signal <;> simp [resumeProg,mayCancel] at hm
    · subst hm
      exact hdone (ends_modify_bind (hplain ends_awaitToolAck))
    · subst hm
      exact hplain (ends_raise trivial)
    · obtain ⟨_,rfl⟩ := hm
      exact hplain (ends_raise trivial)
  · cases signal <;> simp [resumeProg,mayCancel] at hm
    · subst hm
      refine ends_modify_bind (hplain (ends_pure (.inl ⟨event,?_⟩)))
      simp only [brings,htask]
    · subst hm
      exact hplain (ends_raise trivial)
    · obtain ⟨_,rfl⟩ := hm
      exact hplain (ends_raise trivial)
  · cases signal <;> simp [resumeProg,mayCancel] at hm
    · obtain ⟨hack,rfl⟩ := hm
      refine hdone (ends_followupStage_of fun r hr => .inl ?_)
      have hr' : s.record id = some r := hr
      simpa [hr'] using hack
    · subst hm
      exact hnever ends_toolAckTimedOut
  · cases signal <;> simp [resumeProg,mayCancel] at hm
    · subst hm
      exact hnever ends_joinReceiver_raise
    · subst hm
      exact hnever ends_joinReceiver_raise
    · obtain ⟨_,rfl⟩ := hm
      exact hnever ends_joinReceiver_raise
  · cases signal <;> simp [resumeProg,mayCancel] at hm
    · obtain ⟨_,rfl⟩ := hm
      exact hnever ends_shutdownEnded
    · subst hm
      exact hnever ends_shutdownEnded
  · simp [resumeProg] at hm

/-! A close call mirrors the close task. -/

/-- The close task that the session remembers has stopped with `o`, under this reason. -/
def CloseStopped (s : Session A) (reason : String) (o : TaskOutcome) : Prop :=
  ∃ j, s.control.task = some j ∧ s.control.reason = some reason ∧ s.outcome j = some o

/-- What a close call raises: its cancellation, the error of the close task, or a changed reason. -/
def CloseRaised (s : Session A) (reason : String) (e : Exn) : Prop :=
  e = .cancelled ∨ s.CloseStopped reason (.raised e) ∨
    s.control.task.isSome ∧ s.control.reason ≠ some reason

theorem ends_awaitClose {j : TaskId} : Run.Ends (fun _ u => u = s ∧ s.outcome j = some .returned)
    (fun e u => u = s ∧ s.outcome j = some (.raised e)) (awaitClose j) s := by
  refine ends_get ?_
  split
  · exact ends_pure ⟨rfl,‹_›⟩
  · exact ends_raise ⟨rfl,‹_›⟩
  · exact ends_suspend

theorem ends_awaitClose_of {j : TaskId} {reason : String} (hj : s.control.task = some j)
    (hr : s.control.reason = some reason) :
    Run.Ends (fun _ u => u.CloseStopped reason .returned) (fun e u => u.CloseRaised reason e) (awaitClose j) s := by
  refine ends_awaitClose.mono (fun _ u hu => ?_) fun e u hu => ?_
  · obtain ⟨rfl,ho⟩ := hu
    exact ⟨j,hj,hr,ho⟩
  · obtain ⟨rfl,ho⟩ := hu
    exact .inr (.inl ⟨j,hj,hr,ho⟩)

theorem ends_close {reason : String} : Run.Ends (fun _ u => u.CloseStopped reason .returned)
    (fun e u => u.CloseRaised reason e) (close reason) s := by
  refine ends_get ?_
  split
  · exact ends_modify_bind (ends_awaitClose_of rfl rfl)
  · rename_i j hj
    refine Run.Ends.ite (fun hr => ends_raise (.inr (.inr ⟨by simp [hj],hr⟩))) fun hr => ?_
    exact ends_awaitClose_of hj (by simpa using hr)

theorem closeCall_states {reason : String} {state : TaskState} (h : At c s t (.call (.close reason)) state) :
    (∃ j, state = .awaitingClose j ∧ s.control.task = some j ∧ s.control.reason = some reason) ∨
      ∃ o, state = .finished o := by
  cases state
  case awaitingClose j =>
    obtain ⟨hj,r,hk,hr⟩ := h
    simp only [TaskKind.call.injEq,Call.close.injEq] at hk
    exact .inl ⟨j,rfl,hj,by rw [hr,hk]⟩
  case sending purpose event =>
    obtain ⟨hsend,_⟩ := h
    cases purpose <;> simp [SendAt,SendsPlain,SendsAudio] at hsend
  case closingConnection after => cases after <;> simp [At,AfterAt,MayFail] at h
  case joiningReceiver after => cases after <;> simp [At,AfterAt,MayFail] at h
  case finished o => exact .inr ⟨o,rfl⟩
  all_goals simp [At,SendAt] at h

theorem closeCall_ends {reason fresh : String} {task : Task} {signal : Signal} {m : Prog A Unit}
    (hk : task.kind = .call (.close reason)) (hat : At c s t task.kind task.state)
    (hm : resumeProg c s t fresh task task.state signal = some m) :
    Run.Ends (fun _ u => u.CloseStopped reason .returned) (fun e u => u.CloseRaised reason e)
      m ((s.useId fresh).wake t signal) := by
  obtain ⟨kind,state,cancel⟩ := task
  dsimp only at hk hat hm
  subst hk
  obtain ⟨j,rfl,hj,hr⟩ | ⟨o,rfl⟩ := closeCall_states hat
  · cases signal <;> simp [resumeProg,mayCancel] at hm
    · obtain ⟨_,rfl⟩ := hm
      exact ends_awaitClose_of hj hr
    · subst hm
      exact ends_raise (.inl rfl)
  · simp [resumeProg] at hm

/-! A keyed message. -/

/-- The key is confirmed for the payload with this digest. -/
def PriorMessage (s : Session A) (key digest : String) : Prop :=
  ∃ prior state, s.shared.state.claimMessage key digest = .ok (some prior,state)

theorem ends_injectContext {inj : Injection} : NeverReturns (injectContext c t inj) s := by
  refine ends_trivial.bind fun _ _ _ => ends_modify_bind ?_
  exact NeverReturns.ensuring ends_sendRuntimeEvent

theorem ends_injectBuilt {trigger : Bool} {key : Option String} {build : A → Except Exn (ClientEvent × A)} :
    NeverReturns (injectBuilt c t trigger key build) s :=
  ends_get (ends_ofExcept (fun _ _ => ends_modify_bind ends_injectContext) fun _ _ => trivial)

theorem ends_contextBody {fresh text key : String} {role : Role} {trigger : Bool} :
    Run.Ends (fun _ u => u.PriorMessage key (c.digest text role trigger)) (fun _ _ => True)
      (contextBody c t fresh (.appendMessage text role trigger (some key))) s := by
  refine ends_get ?_
  split
  · exact ends_raise trivial
  · rename_i prior state hclaim
    exact ends_modify ⟨prior,state,hclaim⟩
  · refine ends_modify_bind ?_
    exact (show NeverReturns (injectMessage c t fresh text role trigger (some key)) _ from
      ends_injectBuilt).mono (fun _ _ h => h.elim) fun _ _ _ => trivial

theorem ends_contextCall {fresh text key : String} {role : Role} {trigger : Bool} :
    Run.Ends (fun _ u => u.PriorMessage key (c.digest text role trigger)) (fun _ _ => True)
      (contextCall c t fresh (.appendMessage text role trigger (some key))) s := by
  refine ends_trivial.bind fun _ _ _ => Run.Ends.ite (fun _ => ends_raise trivial) fun _ => ends_get ?_
  refine Run.Ends.ite (fun _ => ends_modify_bind ?_) fun _ => ends_modify_bind ends_suspend
  exact ends_contextBody.ensuring (fun _ _ h => h) fun _ _ _ => trivial

theorem contextCall_states {request : ContextRequest} {state : TaskState}
    (h : At c s t (.call (.context request)) state) :
    state = .awaitingLock request ∨ ¬NotInjected s t ∨
      (∃ error frame, state = .closingConnection (.raise error frame) ∨
        state = .joiningReceiver (.raise error frame)) ∨ ∃ o, state = .finished o := by
  cases state
  case awaitingLock request' =>
    obtain ⟨hk,_⟩ := h
    simp only [TaskKind.call.injEq,Call.context.injEq] at hk
    exact .inl (by rw [hk])
  case sending purpose event =>
    obtain ⟨hsend,hi,_⟩ := h
    cases purpose <;> simp [SendAt,SendsPlain,SendsAudio] at hsend
    · exact .inr (.inl fun hn => (hn _ _).1 hi)
    · exact .inr (.inl fun hn => (hn _ _).2 hi)
  case awaitingContextAck inj => exact .inr (.inl fun hn => (hn _ _).1 h.2)
  case closingConnection after =>
    cases after with
    | done => simp [At,AfterAt] at h
    | raise error frame => exact .inr (.inr (.inl ⟨error,frame,.inl rfl⟩))
  case joiningReceiver after =>
    cases after with
    | done => simp [At,AfterAt] at h
    | raise error frame => exact .inr (.inr (.inl ⟨error,frame,.inr rfl⟩))
  case finished o => exact .inr (.inr (.inr ⟨o,rfl⟩))
  all_goals simp [At,SendAt] at h

/-- A keyed message that returns without a frame of its own found its key confirmed. -/
theorem keyedCall_ends {text key fresh : String} {role : Role} {trigger : Bool} {task : Task} {signal : Signal}
    {m : Prog A Unit} (hk : task.kind = .call (.context (.appendMessage text role trigger (some key))))
    (hn : NotInjected s t) (hat : At c s t task.kind task.state)
    (hm : resumeProg c s t fresh task task.state signal = some m) :
    Run.Ends (fun _ u => u.PriorMessage key (c.digest text role trigger)) (fun _ _ => True)
      m ((s.useId fresh).wake t signal) := by
  obtain ⟨kind,state,cancel⟩ := task
  dsimp only at hk hat hm
  subst hk
  have hnever : ∀ {m : Prog A Unit} {u : Session A} {P : Unit → Session A → Prop}, NeverReturns m u →
      Run.Ends P (fun _ _ => True) m u := fun h => h.mono (fun _ _ hu => hu.elim) fun _ _ _ => trivial
  obtain rfl | hi | ⟨error,frame,rfl | rfl⟩ | ⟨o,rfl⟩ := contextCall_states hat
  · cases signal <;> simp [resumeProg,mayCancel] at hm
    · obtain ⟨_,rfl⟩ := hm
      refine ends_modify_bind (Run.Ends.ensuring ends_contextBody (fun _ _ h => h) fun _ _ _ => trivial)
    · subst hm
      exact ends_modify_bind (ends_raise trivial)
  · exact absurd hn hi
  · cases signal <;> simp [resumeProg,mayCancel] at hm
    · subst hm
      exact hnever ends_joinReceiver_raise
    · subst hm
      exact hnever ends_joinReceiver_raise
    · obtain ⟨_,rfl⟩ := hm
      exact hnever ends_joinReceiver_raise
    · subst hm
      exact ends_cancel fun _ => trivial
  · cases signal <;> simp [resumeProg,mayCancel] at hm
    · obtain ⟨_,rfl⟩ := hm
      exact hnever ends_shutdownEnded
    · subst hm
      exact hnever ends_shutdownEnded
    · subst hm
      exact hnever ends_shutdownEnded
  · simp [resumeProg] at hm

/-! Every task. -/

/-- What is known when task `t` of a kind has stopped with an outcome in a step that brings `b`. -/
def EndsAs (c : SessionConfig A) (b : Brings) (t : TaskId) (s : Session A) : TaskKind → TaskOutcome → Prop
  | .controlledClose _, .returned => s.terminal.published
  | .controlledClose reason, .raised e => s.ReasonRefused reason e
  | .attempt id _, .returned => (∃ event, b.accepts = some (.followup id,event)) ∨ s.NothingLeft id
  | .call (.close reason), .returned => s.CloseStopped reason .returned
  | .call (.close reason), .raised e => s.CloseRaised reason e
  | .call (.context (.appendMessage text role trigger (some key))), .returned =>
    ¬NotInjected s t ∨ s.PriorMessage key (c.digest text role trigger)
  | _, _ => True

theorem moves_log (h : Moves c b t k s s') : ∀ o ∈ s.log, o ∈ s'.log := by
  refine moves_keep (I := fun u => ∀ o ∈ s.log, o ∈ u.log) (fun u v hm hu o ho => ?_) h fun _ ho => ho
  obtain ⟨new,hlog,_⟩ := hm.log_grows
  rw [hlog]
  exact List.mem_append_right _ (hu o ho)

theorem notInjected_of_log (h : ∀ o ∈ s.log, o ∈ s'.log) (hn : NotInjected s' t) : NotInjected s t :=
  fun inj event => ⟨fun hi => (hn inj event).1 (h _ hi),fun hi => (hn inj event).2 (h _ hi)⟩

/-- The results of a stretch. -/
theorem Stretch.ends {a : Action} {m : Prog A Unit} {u : Session A} (h : Stretch c s a t k m u)
    (hs : Placed c s) : Run.Ends (fun _ v => EndsAs c (brings c s a) t v k .returned)
      (fun e v => EndsAs c (brings c s a) t v k (.raised e)) m u := by
  have hmoves := h.moves hs
  cases h with
  | call call fresh h =>
    cases call
    case close reason => exact ends_close
    case context request =>
      cases request
      case appendMessage text role trigger key =>
        cases key with
        | none => exact ends_trivial
        | some key => exact ends_contextCall.mono (fun _ _ h => .inr h) fun _ _ _ => trivial
      all_goals exact ends_trivial
    all_goals exact ends_trivial
  | resume t signal fresh task m h htask hm =>
    have hat := hs.stands t _ _ (place_eq_some.mpr ⟨task,htask,rfl⟩)
    rcases hk : task.kind with _ | _ | call | reason | ⟨id,output⟩ | ⟨call,invalid⟩
    case controlledClose => exact closeTask_ends hs.toSettled hk hat hm
    case attempt => exact (attempt_ends htask hk hat hm).mono (fun _ _ h => h) fun _ _ _ => trivial
    case call =>
      cases call
      case close reason => exact closeCall_ends hk hat hm
      case context request =>
        cases request
        case appendMessage text role trigger key =>
          cases key with
          | none => exact ends_trivial
          | some key =>
            by_cases hn : NotInjected s t
            · exact (keyedCall_ends hk hn hat hm).mono (fun _ _ h => .inr h) fun _ _ _ => trivial
            · refine ⟨fun _ v hv => .inl fun hn' => hn (notInjected_of_log (fun o ho => ?_) hn'),fun _ _ _ => trivial⟩
              rw [hv] at hmoves
              exact moves_log hmoves o ho
        all_goals exact ends_trivial
      all_goals exact ends_trivial
    all_goals exact ends_trivial

/-! The invariant rule for sessions. -/

/-- Task `t` of kind `k` has the program `m` to run from `u`, and the step brings `b`. -/
inductive Origin (c : SessionConfig A) : Brings → TaskId → TaskKind → Prog A Unit → Session A → Prop
  | start (shared : Shared) (id : String) :
      Origin c { fresh := id, opens := true } 0 .start (startSession c 0 id) ((fresh c shared).useId id)
  | step {s u : Session A} {a : Action} {t : TaskId} {k : TaskKind} {m : Prog A Unit} (hs : Placed c s)
      (h : Stretch c s a t k m u) : Origin c (brings c s a) t k m u

theorem Origin.running {m : Prog A Unit} (h : Origin c b t k m s) : Running c s t k := by
  cases h with
  | start shared id => exact running_fresh
  | step hs h => exact h.running hs

theorem Origin.does {m : Prog A Unit} (h : Origin c b t k m s) : Does c b t k m s := by
  cases h with
  | start shared id => exact does_start
  | step hs h => exact h.does hs

theorem Origin.ends {m : Prog A Unit} (h : Origin c b t k m s) :
    Run.Ends (fun _ v => EndsAs c b t v k .returned) (fun e v => EndsAs c b t v k (.raised e)) m s := by
  cases h with
  | start shared id => exact ends_trivial
  | step hs h => exact h.ends hs

/-- The program `m` has stopped in `v`, and its task has this outcome. -/
inductive Stopped (m : Prog A Unit) (u v : Session A) : TaskOutcome → Prop
  | returned (h : m u = .ok () v) : Stopped m u v .returned
  | raised (e : Exn) (h : m u = .raise e v) : Stopped m u v (.raised e)

theorem Stopped.ends {m : Prog A Unit} {u v : Session A} {o : TaskOutcome} {Q : Session A → Prop}
    (h : Stopped m u v o) (hm : Run.Ends (fun _ v => Q v) (fun _ v => Q v) m u) : Q v := by
  cases h with
  | returned h => exact hm.ok _ _ h
  | raised e h => exact hm.raised _ _ h

/-- Steps that satisfy `ok` keep `I`; while a task runs in such a step, `K` holds. -/
structure Preserved (c : SessionConfig A) (ok : Session A → Action → Prop) (I : Session A → Prop)
    (K : Brings → TaskId → TaskKind → Session A → Prop) : Prop where
  wake : ∀ {s a t k m u}, Placed c s → I s → ok s a → Stretch c s a t k m u → K (brings c s a) t k u
  move : ∀ {b t k u v}, Running c u t k → Move c b t k u v → K b t k u → K b t k v
  park : ∀ {b t k m u v p}, Origin c b t k m u → m u = .park p v → Running c v t k → K b t k v →
    Parks c b t k p v → I (v.setTask t p)
  stop : ∀ {b t k m u v o}, Origin c b t k m u → Stopped m u v o → Running c v t k → K b t k v →
    EndsAs c b t v k o → I (v.setTask t (.finished o))
  consume : ∀ {s s'}, Placed c s → I s → s.consume c = some s' → I s'
  interfere : ∀ {s shared}, Placed c s → I s → I { s with shared }

/-- What is preserved and holds when a session starts. -/
structure Invariant (c : SessionConfig A) (ok : Session A → Action → Prop) (I : Session A → Prop)
    (K : Brings → TaskId → TaskKind → Session A → Prop) : Prop extends Preserved c ok I K where
  start : ∀ shared id, K { fresh := id, opens := true } 0 .start ((fresh c shared).useId id)

section Rules

variable {ok : Session A → Action → Prop} {I : Session A → Prop}
  {K : Brings → TaskId → TaskKind → Session A → Prop}

theorem Preserved.moves (h : Preserved c ok I K) (hr : Running c s t k) (hm : Moves c b t k s s')
    (hs : K b t k s) : K b t k s' := by
  have hh : Running c s' t k ∧ K b t k s' := by
    refine moves_keep (I := fun u => Running c u t k ∧ K b t k u) ?_ hm ⟨hr,hs⟩
    exact fun u v hmove hu => ⟨hmove.running hu.1,h.move hu.1 hmove hu.2⟩
  exact hh.2

/-- From where a task starts to where it comes to rest. -/
theorem Preserved.rests (h : Preserved c ok I K) {m : Prog A Unit} (ho : Origin c b t k m s)
    (hs : K b t k s) : I ((m s).state.setTask t (rest (m s))) := by
  have hrun := ho.running.moves ho.does.moves
  have hK := h.moves ho.running ho.does.moves hs
  cases hms : m s with
  | ok x v =>
    rw [hms] at hrun hK
    exact h.stop ho (.returned hms) hrun hK (ho.ends.ok x v hms)
  | raise e v =>
    rw [hms] at hrun hK
    exact h.stop ho (.raised e hms) hrun hK (ho.ends.raised e v hms)
  | park p v =>
    rw [hms] at hrun hK
    exact h.park ho hms hrun hK (ho.does.parks p v hms)

theorem Preserved.step (h : Preserved c ok I K) {a : Action} (hp : Placed c s) (hs : I s) (hok : ok s a)
    (hstep : step c s a = some s') : I s' := by
  obtain ⟨t,k,m,u,hst,rfl⟩ | ⟨_,hc⟩ | ⟨shared,_,rfl⟩ := step_cases hstep
  · exact h.rests (.step hp hst) (h.wake hp hs hok hst)
  · exact h.consume hp hs hc
  · exact h.interfere hp hs

theorem Preserved.steps (h : Preserved c ok I K) (hp : Placed c s) (hs : I s)
    (hst : Transition.Steps (Session.step c) ok s s') : I s' := by
  have hh : Placed c s' ∧ I s' := hst.invariant (I := fun s => Placed c s ∧ I s)
    (fun _ _ _ hs hok hstep => ⟨Placed.step hs.1 hstep,h.step hs.1 hs.2 hok hstep⟩) ⟨hp,hs⟩
  exact hh.2

theorem Invariant.init (h : Invariant c ok I K) (hs : Init c s) : I s := by
  obtain ⟨shared,id,rfl⟩ := hs
  rw [runTask_eq]
  exact h.rests (.start shared id) (h.start shared id)

theorem Invariant.reachable (h : Invariant c ok I K)
    (hs : Transition.ReachableWith (Session.step c) ok (Init c) s) : I s := by
  obtain ⟨s₀,hinit,hst⟩ := hs
  exact h.steps (placed_init hinit) (h.init hinit) hst

end Rules

end Session
end HarnessSdk
