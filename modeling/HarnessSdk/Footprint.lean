import HarnessSdk.ControlGrammar
import HarnessSdk.Moves

/-!
# The programs of a session make only moves

For every program there is one lemma: under what is known of its task when it begins, it
makes moves only and suspends only where `Parks` allows. A step then is such a stretch with
the task taken off and put back.
-/

namespace HarnessSdk
namespace Session

open Run

variable {A : Type} {c : SessionConfig A} {b : Brings} {t : TaskId} {k : TaskKind} {s : Session A}

/-! What the state functions leave alone: each equation names the fields that may change. -/

theorem putTerminalSafe_frame (event : RealtimeEvent) : s.putTerminalSafe c t event =
    { s with
      terminal := { s.terminal with sequenceStarted := true }
      output := (s.putTerminalSafe c t event).output
      log := (s.putTerminalSafe c t event).log } := by
  unfold putTerminalSafe
  split <;> rfl

theorem endResponse_frame (response : ResponseFinished) (batch : Bool) : s.endResponse c t response batch =
    { s with
      terminal := { s.terminal with sequenceStarted := (s.endResponse c t response batch).terminal.sequenceStarted }
      book := (s.addTerminalResponse response.responseId).book
      output := (s.endResponse c t response batch).output
      log := (s.endResponse c t response batch).log } := by
  unfold endResponse
  split
  · rw [putTerminalSafe_frame]
    rfl
  · rfl

theorem publish_frame (e : TerminalEvent) (i : CloseInitiator) (d : CloseDisposition) :
    s.publish c t e i d =
    { s with
      terminal := { s.terminal with
        owner := some (i,d), errorCode := e.errorCode, sequenceStarted := true, published := true }
      output := (s.publish c t e i d).output
      failure := (s.publish c t e i d).failure
      log := (s.publish c t e i d).log } := by
  cases e <;> (simp only [publish,putTerminal]; rw [putTerminalSafe_frame]; rfl)

theorem settleResponse_frame : s.settleResponse c t =
    { s with
      terminal := { s.terminal with sequenceStarted := (s.settleResponse c t).terminal.sequenceStarted }
      output := (s.settleResponse c t).output
      book := (s.settleResponse c t).book
      log := (s.settleResponse c t).log } := by
  unfold settleResponse
  split
  · rfl
  · rw [putTerminalSafe_frame]
    rfl

theorem cancelCloseAck_frame :
    s.cancelCloseAck = { s with control := { s.control with ack := s.cancelCloseAck.control.ack } } := by
  unfold cancelCloseAck
  split <;> rfl

theorem concludeClose_frame (reason : String) (ack : Option SessionClosed) : s.concludeClose c t reason ack =
    { s with
      terminal := { s.terminal with sequenceStarted := true, published := true }
      control := { s.control with ack := s.cancelCloseAck.control.ack }
      output := (s.concludeClose c t reason ack).output
      book := (s.concludeClose c t reason ack).book
      log := (s.concludeClose c t reason ack).log } := by
  simp only [concludeClose,putTerminal]
  rw [putTerminalSafe_frame,settleResponse_frame,cancelCloseAck_frame]

theorem concludeClose_book (reason : String) (ack : Option SessionClosed) :
    (s.concludeClose c t reason ack).book = s.book ∨ ∃ id, (s.concludeClose c t reason ack).book =
      { s.book with terminalResponses := insert id s.book.terminalResponses } := by
  simp only [concludeClose,putTerminal]
  rw [putTerminalSafe_frame,settleResponse]
  split
  · exact .inl (by rw [cancelCloseAck_frame])
  · rename_i id _
    refine .inr ⟨id,?_⟩
    simp only [addTerminalResponse]
    rw [putTerminalSafe_frame,cancelCloseAck_frame]

theorem startFollowup_frame : s.startFollowup = { s with tools := s.startFollowup.tools } := by
  unfold startFollowup
  split <;> rfl

theorem introduce_frame (id : String) : (s.addResponse id).startFollowup =
    { s with book := (s.addResponse id).book, tools := s.startFollowup.tools } := by
  simp only [startFollowup,addResponse]
  split <;> rfl

theorem acknowledgeContext_frame (d : DecodedProviderEvent) : s.acknowledgeContext d =
    { s with
      context := { s.context with
        pending := (s.acknowledgeContext d).context.pending
        ackId := (s.acknowledgeContext d).context.ackId }
      log := (s.acknowledgeContext d).log } := by
  unfold acknowledgeContext
  split
  · rfl
  · split
    · split <;> rfl
    · rfl

theorem requestFollowup_frame (id : String) (r : ToolRecord) (event : ClientEvent) :
    s.requestFollowup id r event = { s with tools := (s.requestFollowup id r event).tools } := by
  simp only [requestFollowup]
  split <;> rfl

theorem requestFollowup_record (id : String) (r : ToolRecord) (event : ClientEvent) :
    (s.requestFollowup id r event).record id =
      some { r with followupPayload := some event, state := .followupRequested } := by
  simp only [requestFollowup]
  split <;> simp [record,setRecord]

theorem registerTool_frame (call : ToolCallRequested) : s.registerTool c call =
    { s with
      tools := { s.tools with records := s.tools.records.set call.callId {} }
      shared := { s.shared with
        state := { s.shared.state with toolCalls := insert call.callId s.shared.state.toolCalls }
        clientSeen := insert call.callId s.shared.clientSeen }
      tasks := (s.registerTool c call).tasks } := by
  simp only [registerTool]
  split <;> rfl

/-- A task's own moves never put the lock into other hands. -/
theorem Move.lockFree {s' : Session A} (h : Move c b t k s s') (hs : LockFree s t) : LockFree s' t := by
  intro j hj
  cases h
  case acquire =>
    simp only [Option.some.injEq] at hj
    exact hj.symm
  case release => simp at hj
  case finish => rw [endResponse_frame] at hj; exact hs j hj
  case publish => rw [publish_frame] at hj; exact hs j hj
  case conclude => rw [concludeClose_frame] at hj; exact hs j hj
  case register => rw [registerTool_frame] at hj; exact hs j hj
  case followup => rw [requestFollowup_frame] at hj; exact hs j hj
  case introduce => rw [introduce_frame] at hj; exact hs j hj
  case ackContext => rw [acknowledgeContext_frame] at hj; exact hs j hj
  all_goals exact hs j hj

theorem moves_lockFree {s' : Session A} (h : Moves c b t k s s') (hs : LockFree s t) : LockFree s' t :=
  moves_keep (I := fun s => LockFree s t) (fun _ _ hm => hm.lockFree) h hs

theorem lockFree_of_holder (h : s.context.holder = some t) : LockFree s t := fun j hj => by
  rw [h] at hj
  exact (Option.some.inj hj).symm

/-- From `s` the program makes only moves of its task and suspends where it may. -/
abbrev Does {α : Type} (c : SessionConfig A) (b : Brings) (t : TaskId) (k : TaskKind) (m : Prog A α)
    (s : Session A) : Prop := Run.Within (Move c b t k) (Parks c b t k) m s

theorem requireActive_ok {u : Session A} (h : requireActive c s = .ok () u) : u = s ∧ s.isActive c := by
  unfold requireActive at h
  rw [get_bind] at h
  split at h
  · simp only [pure_apply,Outcome.ok.injEq,true_and] at h
    exact ⟨h.symm,‹_›⟩
  · simp at h

theorem ofExcept_ok {α : Type} {x : Except Exn α} {a : α} {u : Session A}
    (h : (Run.ofExcept x : Prog A α) s = .ok a u) : u = s ∧ x = .ok a := by
  cases x with
  | error e => simp [Run.ofExcept] at h
  | ok a' =>
    simp only [Run.ofExcept,pure_apply,Outcome.ok.injEq] at h
    exact ⟨h.2.symm,by rw [h.1]⟩

theorem does_requireActive : Does c b t k (requireActive c) s :=
  within_get (Within.ite (fun _ => within_pure) fun _ => within_raise)

/-- After the check the program goes on in the same state, which is active. -/
theorem does_active {α : Type} {m : Unit → Prog A α} (h : s.isActive c → Does c b t k (m ()) s) :
    Does c b t k (requireActive c >>= m) s := by
  refine does_requireActive.bind fun a u hu _ => ?_
  obtain ⟨rfl,ha⟩ := requireActive_ok hu
  exact h ha

theorem does_ofExcept {α β : Type} {x : Except Exn α} {m : α → Prog A β}
    (h : ∀ a, x = .ok a → Does c b t k (m a) s) : Does c b t k (Run.ofExcept x >>= m) s := by
  refine within_ofExcept.bind fun a u hu _ => ?_
  obtain ⟨rfl,ha⟩ := ofExcept_ok hu
  exact h a ha

theorem FrameAt.of_holder {s' : Session A} {frame : Frame} (h : FrameAt s t frame)
    (hh : s'.context.holder = s.context.holder) : FrameAt s' t frame := by
  cases frame
  case lock => exact hh.trans h
  case injection => exact hh.trans h
  all_goals trivial

theorem AfterAt.of_holder {s' : Session A} {after : After} (h : AfterAt s t k after)
    (hh : s'.context.holder = s.context.holder) : AfterAt s' t k after := by
  cases after with
  | done => exact h
  | raise error frame => exact ⟨h.1.of_holder hh,h.2⟩

/-! The terminal. -/

theorem does_shutdownConnection {after : After} (hp : s.terminal.published) (ha : AfterAt s t k after) :
    Does c b t k (shutdownConnection t after) s := by
  refine within_get (Within.ite (fun _ => within_pure) fun _ => ?_)
  exact within_modify_bind (.single (.shutdown hp)) (within_suspend ⟨⟨hp,ha.of_holder rfl⟩,trivial⟩)

theorem does_finishTerminal {e : TerminalEvent} {i : CloseInitiator} {d : CloseDisposition} {after : After}
    (he : ∀ closed, e = .closed closed → i = closed.initiator ∧ d = closed.disposition)
    (ha : AfterAt s t k after) : Does c b t k (finishTerminal c t e i d after) s := by
  refine within_get (Within.ite (fun _ => within_pure) fun ho => ?_)
  have howner : s.terminal.owner = none := by simpa using ho
  exact within_modify_bind (.single (.publish e i d howner he))
    (does_shutdownConnection (by rw [publish_frame]) (ha.of_holder (by rw [publish_frame])))

theorem does_fail {code : RealtimeErrorCode} {retryable : Bool} {after : After}
    (ha : AfterAt s t k after) : Does c b t k (fail c t code retryable after) s :=
  does_finishTerminal (fun _ h => by simp at h) ha

theorem does_failAndRaise {code : RealtimeErrorCode} {retryable : Bool} {error : RealtimeError}
    {frame : Frame} (hf : FrameAt s t frame) (hk : MayFail k) (hh : Holds k frame) :
    Does c b t k (failAndRaise c t code retryable error frame) s := by
  have ha : AfterAt s t k (.raise error frame) := ⟨hf,hk,hh⟩
  exact (does_fail ha).bind fun _ _ _ _ => within_get within_raise

theorem count_late : Move c b t k s s.late := .count _ _

theorem count_duplicate : Move c b t k s s.duplicate := .count _ _

theorem type_stable (event : ClientEvent) : Text.isStableWord event.type := by
  obtain ⟨eventId,body⟩ := event
  cases body <;> (simp only [ClientEvent.type]; decide)

theorem fieldNames_safe (event : ClientEvent) : ∀ name ∈ event.fieldNames, name ∈ safeFailureFields := by
  have hall : event.fieldNames.all (· ∈ safeFailureFields) := by
    obtain ⟨eventId,body⟩ := event
    cases body
    case responseCancel id => cases id <;> rfl
    case responseCreate instructions outOfBand => cases instructions <;> rfl
    all_goals rfl
  intro name hname
  simpa using List.all_eq_true.mp hall name hname

/-- A failure that is about a frame of the session. -/
theorem captures_event {stage : String} {args : FailureArgs} (hs : stage ∈ failureStages) (event : ClientEvent)
    (he : args.event = some (event.type,event.fieldNames)) (hr : ∀ id, args.relatedEventId = some id → s.Refers id)
    (hc : args.clientEventType = none) (hm : args.messageClass = none) (hms : args.retryAfterMs = none) :
    s.Captures stage args where
  stage := hs
  event _ _ h := by
    obtain ⟨rfl,rfl⟩ := Prod.mk.inj (Option.some.inj (he.symm.trans h))
    exact ⟨type_stable event,fieldNames_safe event⟩
  related := hr
  client _ h := nomatch hc.symm.trans h
  message _ h := nomatch hm.symm.trans h
  retry _ h := nomatch hms.symm.trans h

/-- A failure that is about an event without an id, or about the last frame of the provider. -/
theorem captures_type {stage type : String} (error : Option RealtimeError) (hs : stage ∈ failureStages)
    (ht : Text.isStableWord type) : s.Captures stage { FailureArgs.ofType type with error } where
  stage := hs
  event _ _ h := by
    obtain ⟨rfl,rfl⟩ := Prod.mk.inj (Option.some.inj h)
    exact ⟨ht,by decide⟩
  related _ h := nomatch h
  client _ h := nomatch h
  message _ h := nomatch h
  retry _ h := nomatch h

theorem captures_error {stage : String} {error : Option RealtimeError} (hs : stage ∈ failureStages) :
    s.Captures stage { error } where
  stage := hs
  event _ _ h := nomatch h
  related _ h := nomatch h
  client _ h := nomatch h
  message _ h := nomatch h
  retry _ h := nomatch h

theorem captures_send {event : ClientEvent} {error : Option RealtimeError} :
    s.Captures "provider.send" { FailureArgs.ofEvent event with error } :=
  captures_event (by decide) event rfl (fun _ h => nomatch h) rfl rfl rfl

theorem mayFail_plain (hk : SendsPlain k) : MayFail k := by
  unfold SendsPlain at hk
  split at hk
  all_goals trivial

theorem mayFail_audio {bytes : ℕ} (hk : SendsAudio k bytes) : MayFail k := by
  obtain ⟨pcm,rfl,_⟩ := hk
  trivial

theorem mayFail_of_sendAt {purpose : Purpose} (h : SendAt c s t k purpose)
    (hp : ∀ reason, purpose ≠ .close reason) : MayFail k := by
  cases purpose
  case start =>
    obtain rfl : k = .start := h
    trivial
  case audio bytes => exact mayFail_audio h
  case plain => exact mayFail_plain h
  case inject inj =>
    obtain ⟨_,_,_,rfl,_⟩ := h
    trivial
  case trigger inj =>
    obtain ⟨_,_,rfl,_⟩ := h
    trivial
  case result id =>
    obtain ⟨output,rfl⟩ := h
    trivial
  case followup id =>
    obtain ⟨output,rfl⟩ := h
    trivial
  case close reason => exact absurd rfl (hp reason)

theorem frameAt_of_sendAt {purpose : Purpose} (h : SendAt c s t k purpose) : FrameAt s t purpose.frame := by
  cases purpose
  case inject inj => exact h.1
  case trigger inj => exact h.1
  all_goals trivial

/-- What a task holds while it waits for a send. -/
theorem holds_of_sendAt {purpose : Purpose} (h : SendAt c s t k purpose) : Holds k purpose.frame := by
  cases purpose
  case audio bytes => exact h
  case start =>
    obtain rfl : k = .start := h
    exact fun _ => nofun
  case plain =>
    rintro pcm rfl
    exact h
  case inject inj =>
    obtain ⟨_,_,_,rfl,_⟩ := h
    exact fun _ => nofun
  case trigger inj =>
    obtain ⟨_,_,rfl,_⟩ := h
    exact fun _ => nofun
  case result id =>
    obtain ⟨output,rfl⟩ := h
    exact fun _ => nofun
  case followup id =>
    obtain ⟨output,rfl⟩ := h
    exact fun _ => nofun
  case close reason =>
    obtain ⟨rfl,_⟩ := h
    exact fun _ => nofun

theorem sendAt_of_issueAt {purpose : Purpose} {event : ClientEvent} (h : IssueAt c b s t k event purpose) :
    SendAt c s t k purpose := by
  cases purpose
  case result id => exact h.2.1
  case followup id => exact h.2.1
  all_goals exact h.1

theorem sendAt_observe {purpose : Purpose} {o : Observation} (h : SendAt c s t k purpose)
    (ho : ∀ inj event, o ≠ .issued t (.trigger inj) event) : SendAt c (s.observe o) t k purpose := by
  cases purpose
  case inject inj =>
    obtain ⟨hh,hn,hr⟩ := h
    refine ⟨hh,fun inj' event => ?_,hr⟩
    simp only [observe,List.mem_cons,not_or]
    exact ⟨(ho inj' event).symm,hn inj' event⟩
  all_goals exact h

theorem does_issue {purpose : Purpose} {event : ClientEvent} (h : IssueAt c b s t k event purpose)
    (hm : Makes c k b.fresh event ∨ ∃ id r, s.record id = some r ∧
      (r.resultPayload = some event ∨ r.followupPayload = some event)) :
    Does c b t k (issue t purpose event) s := by
  refine within_modify_bind (.single (.issue purpose event h hm)) (within_suspend ⟨⟨?_,?_,?_⟩,trivial⟩)
  · by_cases htr : ∃ inj, purpose = .trigger inj
    · obtain ⟨inj,rfl⟩ := htr
      exact ⟨h.1.1,h.1.2⟩
    · refine sendAt_observe (sendAt_of_issueAt h) fun inj event' heq => htr ⟨inj,?_⟩
      simp only [Observation.issued.injEq] at heq
      exact heq.2.1
  · exact List.mem_cons_self
  · rintro inj rfl
    exact h.2.1.symm

theorem does_sendFailed {purpose : Purpose} {event : ClientEvent} {e : Exn} (hl : s.terminal.published → b.late)
    (h : SendAt c s t k purpose) (hk : MayFail k) : Does c b t k (sendFailed c t purpose event e) s := by
  have hf : FrameAt s t purpose.frame := frameAt_of_sendAt h
  have hh : Holds k purpose.frame := holds_of_sendAt h
  cases e with
  | cancelled => exact within_raise
  | realtime e =>
    exact within_modify_bind (.single (.capture _ _ hl captures_send)) (does_failAndRaise (hf.of_holder rfl) hk hh)
  | exception =>
    exact within_modify_bind (.single (.capture _ _ hl captures_send)) (does_failAndRaise (hf.of_holder rfl) hk hh)

theorem does_sendTimedOut {purpose : Purpose} {event : ClientEvent} (hl : s.terminal.published → b.late)
    (h : SendAt c s t k purpose) (hk : MayFail k) : Does c b t k (sendTimedOut c t purpose event) s := by
  have hf : FrameAt s t purpose.frame := frameAt_of_sendAt h
  exact within_modify_bind (.single (.capture _ _ hl captures_send))
    (does_failAndRaise (hf.of_holder rfl) hk (holds_of_sendAt h))

theorem does_sendRuntimeEvent {purpose : Purpose} {event : ClientEvent} (hl : s.terminal.published → b.late)
    (h : IssueAt c b s t k event purpose) (hm : Makes c k b.fresh event) (hk : MayFail k) :
    Does c b t k (sendRuntimeEvent c t purpose event) s := by
  refine within_modify_bind (.single (.remember event hm)) ?_
  have hh : IssueAt c b (s.remember event) t k event purpose := by cases purpose <;> exact h
  split
  · exact does_issue hh (.inl hm)
  · exact does_sendFailed hl (sendAt_of_issueAt hh) hk

/-! Product calls. -/

theorem does_release {α : Type} {m : Prog A α} (h : Does c b t k m s) (hl : LockFree s t) :
    Does c b t k (Run.ensuring m fun s => s.cleanup .lock) s :=
  h.ensuring fun _ hu => .single (.release (moves_lockFree hu hl))

theorem does_injectionCleanup {α : Type} {m : Prog A α} {eventId : String} (h : Does c b t k m s)
    (hf : s.context.holder = some t) :
    Does c b t k (Run.ensuring m fun s => s.cleanup (.injection eventId)) s := by
  refine h.ensuring fun u hu => ?_
  have hl : LockFree u t := moves_lockFree hu (lockFree_of_holder hf)
  exact .trans (.single (.unpend eventId hl)) (.single (.release hl))

/-- The `finally` clauses of every frame are moves of the task that may run them. -/
theorem does_cleanup {α : Type} {m : Prog A α} {frame : Frame} (h : Does c b t k m s)
    (hf : FrameAt s t frame) (hh : Holds k frame) : Does c b t k (Run.ensuring m fun s => s.cleanup frame) s := by
  cases frame with
  | plain => exact h.ensuring fun _ _ => .refl
  | audio bytes => exact h.ensuring fun _ _ => .single (.gauge _ bytes hh)
  | lock => exact does_release h (lockFree_of_holder hf)
  | injection eventId => exact does_injectionCleanup h hf

theorem does_sendAudio {fresh : String} {pcm : Bytes} (hl : s.terminal.published → b.late) (hf : b.fresh = fresh)
    (hk : k = .call (.sendAudio pcm)) : Does c b t k (sendAudio c t fresh pcm) s := by
  subst hf
  have hsends : SendsAudio k pcm.length := ⟨pcm,hk,rfl⟩
  refine does_active fun ha => within_get ?_
  refine Within.ite (fun _ => within_raise) fun _ => Within.ite (fun _ => within_raise) fun _ => ?_
  refine Within.ite (fun _ => within_raise) fun _ => Within.ite (fun _ => within_raise) fun _ => ?_
  refine Within.ite (fun _ => within_raise) fun _ => ?_
  refine within_modify_bind (.single (.gauge _ _ hsends)) (does_cleanup ?_ trivial hsends)
  exact does_ofExcept fun event he =>
    does_sendRuntimeEvent hl ⟨hsends,ha⟩ (.audio pcm event hk he) (mayFail_audio hsends)

theorem does_cancelResponse {fresh : String} (hl : s.terminal.published → b.late) (hf : b.fresh = fresh)
    (hb : b.calls) (hk : k = .call .cancelResponse) : Does c b t k (cancelResponse c t fresh) s := by
  subst hf
  have hsends : SendsPlain k := by
    rw [hk]
    trivial
  refine does_active fun ha => Within.ite (fun _ => within_raise) fun _ => within_get ?_
  split
  · exact within_pure
  · rename_i id hid
    have hmem := List.mem_of_find?_eq_some hid
    have hnt := List.find?_some hid
    have hc : s.terminal.closing = false := by
      simp only [isActive,Bool.and_eq_true,Bool.not_eq_true'] at ha
      exact ha.1.2
    refine within_modify_bind (.single (.book _ (.cancelled id (by simpa using hmem) (by simpa using hnt)) hc))
      (does_sendRuntimeEvent hl ⟨hsends,ha,hb⟩ (.cancel _ hk) (mayFail_plain hsends))

theorem does_truncateOutput {fresh itemId : String} {contentIndex audioEndMs : ℤ}
    (hl : s.terminal.published → b.late) (hf : b.fresh = fresh) (hb : b.calls)
    (hk : k = .call (.truncateOutput itemId contentIndex audioEndMs)) :
    Does c b t k (truncateOutput c t fresh itemId contentIndex audioEndMs) s := by
  subst hf
  have hsends : SendsPlain k := by
    rw [hk]
    trivial
  refine does_active fun ha => Within.ite (fun _ => within_raise) fun _ => does_ofExcept fun event he => ?_
  exact does_sendRuntimeEvent hl ⟨hsends,ha,hb⟩ (.truncate _ _ _ event hk he) (mayFail_plain hsends)

theorem does_submitToolResult {id output : String} (hb : b.submits = some (id,output))
    (hk : k = .call (.submitToolResult id output) ∨ ∃ call invalid, k = .dispatch call invalid ∧ call.callId = id) :
    Does c b t k (submitToolResult c id output) s := by
  refine does_active fun _ => Within.ite (fun _ => within_raise) fun _ => ?_
  refine Within.ite (fun _ => within_raise) fun _ => within_get ?_
  split
  · exact within_raise
  · rename_i r hr
    refine Within.ite (fun _ => within_raise) fun ho => ?_
    have hout : ∀ o, r.output = some o → o = output := by
      intro o hro
      simpa [hro] using ho
    split
    · rename_i j hj
      obtain ⟨hja,hjn⟩ := Option.filter_eq_some_iff.mp hj
      exact within_suspend ⟨hk,hb,r,hr,hja,by simpa using hjn,hout⟩
    · rename_i hlive
      refine within_modify_bind (.single (.spawnAttempt id output r hb hr hlive hout)) (within_suspend ?_)
      refine ⟨hk,hb,{ r with attempt := some s.tasks.length },?_,rfl,?_,hout⟩
      · simp [record,setRecord]
      · simp [outcome,taskState,setRecord,spawn]

theorem does_validateContext {text : String} : Does c b t k (validateContext c text) s :=
  does_active fun _ => within_get (Within.ite (fun _ => within_raise) fun _ =>
    Within.ite (fun _ => within_raise) fun _ => within_pure)

theorem validateContext_ok {text : String} {u : Session A} (h : validateContext c text s = .ok () u) :
    u = s ∧ s.isActive c := by
  obtain ⟨_,v,hv,hh⟩ := bind_ok h
  obtain ⟨rfl,ha⟩ := requireActive_ok hv
  rw [get_bind] at hh
  split at hh
  · simp [raiseError] at hh
  · split at hh
    · simp [raiseError] at hh
    · simp only [pure_apply,Outcome.ok.injEq,true_and] at hh
      exact ⟨hh.symm,ha⟩

theorem does_injectContext {inj : Injection} (hl : s.terminal.published → b.late) (h : SendAt c s t k (.inject inj))
    (hn : NotInjected s t) (hkey : ∀ key, inj.key = some key → .keyClaimed t key ∈ s.log)
    (hm : Makes c k b.fresh inj.event) : Does c b t k (injectContext c t inj) s := by
  refine does_active fun ha => within_modify_bind (.single (.pend _ h.1)) ?_
  refine Within.ensuring (does_sendRuntimeEvent hl ⟨h,rfl,hn,hkey,ha⟩ hm (mayFail_of_sendAt h (by simp))) fun u hu => ?_
  exact .single (.unpend _ (moves_lockFree hu (lockFree_of_holder h.1)))

theorem does_injectBuilt {trigger : Bool} {key : Option String} {build : A → Except Exn (ClientEvent × A)}
    {request : ContextRequest} (hl : s.terminal.published → b.late) (hk : k = .call (.context request))
    (hh : s.context.holder = some t) (hn : NotInjected s t)
    (hkey : ∀ key', key = some key' → .keyClaimed t key' ∈ s.log)
    (hb : ∀ event a, build s.adapter = .ok (event,a) → Built c k b.fresh s.adapter a ∧ Makes c k b.fresh event ∧
      InjectionFits c request { event, trigger, key }) :
    Does c b t k (injectBuilt c t trigger key build) s := by
  refine within_get (does_ofExcept fun ea hea => ?_)
  obtain ⟨hbuilt,hmade,hfits⟩ := hb ea.1 ea.2 hea
  refine within_modify_bind (.single (.build _ hbuilt)) (does_injectContext hl ?_ hn hkey hmade)
  exact ⟨hh,fun inj event => (hn inj event).2,request,hk,hfits⟩

theorem does_contextBody {fresh : String} {request : ContextRequest} (hl : s.terminal.published → b.late)
    (hf : b.fresh = fresh) (hk : k = .call (.context request)) (hh : s.context.holder = some t)
    (hn : NotInjected s t) : Does c b t k (contextBody c t fresh request) s := by
  subst hf
  cases request with
  | appendMessage text role trigger key =>
    have hmessage : ∀ event a, (Except.ok (c.adapter.appendMessage b.fresh text role s.adapter) :
        Except Exn (ClientEvent × A)) = .ok (event,a) → Built c k b.fresh s.adapter a ∧ Makes c k b.fresh event ∧
        InjectionFits c (.appendMessage text role trigger key) { event, trigger, key } := by
      intro event a hea
      simp only [Except.ok.injEq] at hea
      have h₁ : event = (c.adapter.appendMessage b.fresh text role s.adapter).1 := by rw [hea]
      have h₂ : a = (c.adapter.appendMessage b.fresh text role s.adapter).2 := by rw [hea]
      subst h₁ h₂
      exact ⟨.message text role _ hk,.message text role _,rfl,rfl,_,_,rfl⟩
    cases key with
    | none =>
      show Does c b t k (injectMessage c t b.fresh text role trigger none) s
      exact does_injectBuilt hl hk hh hn (fun _ h => by simp at h) hmessage
    | some key =>
      refine within_get ?_
      split
      · exact within_raise
      · exact within_modify (.prior _ hh)
      · rename_i state hclaim
        refine within_modify_bind (.single (.claimKey key text role trigger state hk hh hn hclaim)) ?_
        refine does_injectBuilt hl hk hh ?_ ?_ hmessage
        · intro inj event
          simpa using hn inj event
        · rintro _ ⟨⟩
          exact List.mem_cons_self
  | updateInstructions text trigger =>
    show Does c b t k
      (injectBuilt c t trigger none fun a => .ok (c.adapter.updateInstructions b.fresh text a)) s
    refine does_injectBuilt hl hk hh hn (fun _ h => by simp at h) fun event a hea => ?_
    simp only [Except.ok.injEq] at hea
    have h₁ : event = (c.adapter.updateInstructions b.fresh text s.adapter).1 := by rw [hea]
    have h₂ : a = (c.adapter.updateInstructions b.fresh text s.adapter).2 := by rw [hea]
    subst h₁ h₂
    exact ⟨.instructions text _ hk,.instructions text _,rfl,rfl⟩
  | outOfBandResponse text =>
    show Does c b t k (injectBuilt c t false none (c.adapter.outOfBandResponse b.fresh text)) s
    exact does_injectBuilt hl hk hh hn (fun _ h => by simp at h) fun event a hea =>
      ⟨.outOfBand text event a _ hk hea,.outOfBand text _ (event,a) hea,rfl,rfl⟩

theorem does_contextCall {fresh : String} {request : ContextRequest} (hl : s.terminal.published → b.late)
    (hf : b.fresh = fresh) (hk : k = .call (.context request)) (hn : NotInjected s t) :
    Does c b t k (contextCall c t fresh request) s := by
  refine does_validateContext.bind fun _ u hu _ => ?_
  obtain ⟨rfl,_⟩ := validateContext_ok hu
  refine Within.ite (fun _ => within_raise) fun _ => within_get (Within.ite (fun hfree => ?_) fun _ => ?_)
  · simp only [Bool.and_eq_true,Option.isNone_iff_eq_none] at hfree
    refine within_modify_bind (.single (.acquire _ hfree.1)) (does_release ?_ (lockFree_of_holder rfl))
    exact does_contextBody hl hf hk rfl hn
  · exact within_modify_bind (.single (.queue _)) (within_suspend ⟨⟨hk,hn⟩,trivial⟩)

theorem does_awaitClose {j : TaskId} (h : At c s t k (.awaitingClose j)) :
    Does c b t k (awaitClose j) s := by
  refine within_get ?_
  split
  · exact within_pure
  · exact within_raise
  · exact within_suspend ⟨h,trivial⟩

theorem does_close {reason : String} (hk : k = .call (.close reason)) : Does c b t k (close reason) s := by
  refine within_get ?_
  split
  · rename_i hnone
    refine within_modify_bind (.single (.spawnClose reason hk hnone)) (does_awaitClose ?_)
    exact ⟨rfl,reason,hk,rfl⟩
  · rename_i j hj
    refine Within.ite (fun _ => within_raise) fun hr => does_awaitClose ⟨hj,reason,hk,?_⟩
    simpa using hr

theorem does_callProg {fresh : String} {call : Call} (hl : s.terminal.published → b.late) (hf : b.fresh = fresh)
    (hc : b.calls) (hk : k = .call call) (hn : NotInjected s t)
    (hb : ∀ id output, call = .submitToolResult id output → b.submits = some (id,output)) :
    Does c b t k (callProg c t fresh call) s := by
  cases call with
  | sendAudio pcm => exact does_sendAudio hl hf hk
  | cancelResponse => exact does_cancelResponse hl hf hc hk
  | truncateOutput itemId contentIndex audioEndMs => exact does_truncateOutput hl hf hc hk
  | submitToolResult id output => exact does_submitToolResult (hb id output rfl) (.inl hk)
  | context request => exact does_contextCall hl hf hk hn
  | close reason => exact does_close hk

/-! The tool attempt and the dispatch of a call. -/

theorem does_prepareResult {fresh id output : String} (hf : b.fresh = fresh) (hk : k = .attempt id output)
    (hb : b.starts) : Does c b t k (prepareResult c fresh id output) s := by
  subst hf
  refine within_get ?_
  split
  · exact within_raise
  · rename_i r hr
    refine Within.ite (fun _ => within_pure) fun hreq => ?_
    have hs : r.state = .requested := by simpa using hreq
    have hmade : Makes c k b.fresh (c.adapter.toolResult b.fresh id output) := .result id output hk
    refine within_modify_bind (.trans (.single (.output id output r hk hb hr hs)) (.single (.remember _ hmade))) ?_
    refine does_ofExcept fun _ _ => within_modify ?_
    refine .result id output { r with output := some output, ack := false } _ hk hb ?_ hs rfl
      (c.adapter.toolResult_body _ _ _) hmade
    simp [record,setRecord,remember]

theorem does_prepareFollowup {fresh id output : String} (hf : b.fresh = fresh) (hk : k = .attempt id output) :
    Does c b t k (prepareFollowup c fresh id) s := by
  subst hf
  refine within_get ?_
  split
  · exact within_raise
  · rename_i r hr
    refine Within.ite (fun _ => within_pure) fun hreq => ?_
    have hs : r.state = .resultAcked := by simpa using hreq
    have hmade : Makes c k b.fresh (c.adapter.followupResponse b.fresh id s.adapter) := .followup id _
    refine within_modify_bind (.single (.remember _ hmade)) (does_ofExcept fun _ _ => within_modify ?_)
    exact .followup id output r _ hk hr hs hmade

theorem does_followupStage {fresh id output : String} (hf : b.fresh = fresh) (hk : k = .attempt id output)
    (hb : b.starts ∨ b.acked ∨ ∃ event, b.accepts = some (.result id,event)) :
    Does c b t k (followupStage c t fresh id) s := by
  refine (does_prepareFollowup hf hk).bind fun _ u _ _ => within_get ?_
  split
  · exact within_raise
  · rename_i r hr
    refine Within.ite (fun _ => within_pure) fun hreq => ?_
    have hs : r.state = .followupRequested := by simpa using hreq
    split
    · exact within_raise
    · rename_i event he
      exact does_issue ⟨hb,⟨output,hk⟩,r,hr,hs,he⟩ (.inr ⟨id,r,hr,.inr he⟩)

theorem does_attempt {fresh id output : String} (hf : b.fresh = fresh) (hk : k = .attempt id output)
    (hb : b.starts) : Does c b t k (attempt c t fresh id output) s := by
  refine (does_prepareResult hf hk hb).bind fun _ u _ _ => within_get ?_
  split
  · exact within_raise
  · rename_i r hr
    refine Within.ite (fun _ => does_followupStage hf hk (.inl hb)) fun hreq => ?_
    have hs : r.state = .resultSent := by simpa using hreq
    split
    · exact within_raise
    · rename_i event he
      exact does_issue ⟨hb,⟨output,hk⟩,r,hr,hs,he⟩ (.inr ⟨id,r,hr,.inl he⟩)

theorem does_awaitToolAck {fresh id : String} {event : ClientEvent} (hf : b.fresh = fresh)
    (hk : ∃ output, k = .attempt id output) (hb : b.accepts = some (.result id,event)) : Does c b t k (awaitToolAck c t fresh id) s := by
  obtain ⟨output,hk⟩ := hk
  refine within_get ?_
  split
  · exact within_raise
  · refine Within.ite (fun _ => does_followupStage hf hk (.inr (.inr ⟨event,hb⟩))) fun _ => ?_
    exact within_suspend ⟨⟨output,hk⟩,event,hb⟩

theorem does_toolAckTimedOut {id : String} (hl : s.terminal.published → b.late)
    (hk : ∃ output, k = .attempt id output) : Does c b t k (toolAckTimedOut c t id) s := by
  obtain ⟨output,rfl⟩ := hk
  refine within_get ?_
  split
  · exact within_raise
  · rename_i event hevent
    obtain ⟨r,hr,hpayload⟩ := Option.bind_eq_some_iff.mp hevent
    have hcaptures : s.Captures "tool.ack_timeout"
        { FailureArgs.ofEvent event with relatedEventId := some event.eventId } := by
      refine captures_event (by decide) event rfl ?_ rfl rfl rfl
      rintro _ ⟨⟩
      exact .result id r event hr hpayload
    exact within_modify_bind (.single (.capture _ _ hl hcaptures)) (does_failAndRaise trivial trivial fun _ => nofun)

theorem does_swallow {m : Prog A Unit} (h : Does c b t k m s) : Does c b t k (swallow m) s := by
  refine h.handle fun e u _ _ => ?_
  split
  · exact within_pure
  · exact within_raise

theorem does_dispatchTool {call : ToolCallRequested} {invalid : Bool} (hk : k = .dispatch call invalid)
    (hb : invalid → b.submits = some (call.callId,errorOutput "invalid_arguments")) :
    Does c b t k (dispatchTool c call invalid) s := by
  refine does_swallow (does_active fun ha => Within.ite (fun hi => ?_) fun hi => ?_)
  · exact does_submitToolResult (hb hi) (.inr ⟨call,invalid,hk,rfl⟩)
  · obtain rfl : invalid = false := by simpa using hi
    exact within_modify_bind (.single (.dispatched call hk ha)) (within_suspend ⟨hk,trivial⟩)

theorem does_dispatchAnswered {call : ToolCallRequested} {signal : Signal} (hk : k = .dispatch call false)
    (hb : b.submits = some (call.callId,dispatchOutput c signal)) :
    Does c b t k (dispatchAnswered c call signal) s :=
  does_swallow (does_active fun _ => does_submitToolResult hb (.inr ⟨call,false,hk,rfl⟩))

theorem does_attemptEnded {j : TaskId} {id output : String} (hb : b.ended = some (j,id,output)) :
    Does c b t k (attemptEnded j id output) s := by
  refine within_get ?_
  split
  · rename_i ho
    exact within_modify (.submitReturned j id output hb ho)
  · exact within_raise
  · exact within_raise

/-! The controlled close. -/

theorem buildBoundSessionClose_ok {fresh reason : String} {event : ClientEvent}
    (h : buildBoundSessionClose fresh reason = .ok event) : reason ∈ RelayControl.closeReasons := by
  unfold buildBoundSessionClose at h
  split at h
  · assumption
  · simp at h

theorem does_controlledClose {fresh reason : String} (hf : b.fresh = fresh) (hk : k = .controlledClose reason)
    (hp : s.terminal.published → s.terminal.owner.isSome)
    (hn : s.terminal.owner = none → ∀ j reason event, .issued j (.close reason) event ∉ s.log) :
    Does c b t k (controlledClose t fresh reason) s := by
  subst hf
  refine within_get (Within.ite (fun _ => within_pure) fun ho => ?_)
  have howner : s.terminal.owner = none := by simpa using ho
  have hpub : ¬s.terminal.published := fun h => ho (hp h)
  refine within_modify_bind (.single (.claimClean reason hk howner)) (does_ofExcept fun event he => ?_)
  have hmade : Makes c k b.fresh event := .close reason event hk he
  refine within_modify_bind ?_ (does_issue ⟨⟨hk,rfl,hpub⟩,fun j reason' event' hi => ?_⟩ (.inl hmade))
  rotate_left
  · rcases List.mem_cons.mp hi with hi | hi
    · simp at hi
    · exact hn howner j reason' event' hi
  exact .trans (.single (.remember event hmade)) (.single (.pendClose reason event hk (buildBoundSessionClose_ok he) hmade))

theorem does_finishClose {reason : String} {ack : Option SessionClosed} (h : SendAt c s t k (.close reason))
    (hack : ∀ closed, ack = some closed → s.control.ack = some (.acknowledged closed)) :
    Does c b t k (finishClose c t reason ack) s := by
  obtain ⟨hk,hc,hp⟩ := h
  refine within_modify_bind (.single (.conclude reason ack hk hc hp hack)) ?_
  exact does_shutdownConnection rfl (Or.inr ⟨reason,hk⟩)

theorem moves_closeAckTimeout (hl : s.terminal.published → b.late) : Moves c b t k s (s.recordCloseAckTimeout c) := by
  have hcaptures : s.Captures "close.ack_timeout"
      { FailureArgs.ofType "tokenseller.session.close" with relatedEventId := s.control.pendingEventId } :=
    { captures_type none (by decide) (by decide) with related := fun id h => .closing id h }
  exact .trans (.single (.capture _ _ hl hcaptures)) (.single (.closeCounters _ _))

theorem does_closeSendFailed {reason : String} {event : ClientEvent} (hl : s.terminal.published → b.late)
    (h : SendAt c s t k (.close reason)) : Does c b t k (closeSendFailed c t reason event) s := by
  have hcaptures : s.Captures "provider.send"
      { FailureArgs.ofEvent event with relatedEventId := s.control.pendingEventId } :=
    captures_event (by decide) event rfl (fun id hid => .closing id hid) rfl rfl rfl
  exact within_modify_bind (.trans (.single (.capture _ _ hl hcaptures)) (moves_closeAckTimeout hl))
    (does_finishClose h fun _ h => by simp at h)

theorem does_awaitCloseAck {reason : String} (h : SendAt c s t k (.close reason)) :
    Does c b t k (awaitCloseAck c t reason) s := by
  refine within_get ?_
  split
  · rename_i closed hack
    refine does_finishClose h ?_
    rintro _ ⟨⟩
    exact hack
  · exact within_suspend ⟨h,trivial⟩

theorem does_closeAckTimedOut {reason : String} (hl : s.terminal.published → b.late)
    (h : SendAt c s t k (.close reason)) : Does c b t k (closeAckTimedOut c t reason) s :=
  within_modify_bind (moves_closeAckTimeout hl) (does_finishClose h fun _ h => by simp at h)

/-! Context injections after the send. -/

theorem does_confirmInjection {inj : Injection} (h : SendAt c s t k (.inject inj))
    (hi : .issued t (.inject inj) inj.event ∈ s.log)
    (hp : s.context.pending.get inj.event.eventId = some .acknowledged) :
    Does c b t k (confirmInjection inj) s := by
  unfold confirmInjection
  refine within_get ?_
  dsimp only
  split
  · exact within_pure
  · rename_i key hkey
    split
    · exact within_pure
    · rename_i itemId hack
      refine does_ofExcept fun state hs => within_modify ?_
      exact .confirmKey inj key itemId state h hi hkey hack hp hs

theorem confirmInjection_ok {inj : Injection} {u : Session A} (h : confirmInjection inj s = .ok () u) :
    u.context = s.context ∧ u.terminal = s.terminal ∧ u.isActive c = s.isActive c ∧
      ∀ o, (∀ key itemId, o ≠ .keyConfirmed key itemId) → (o ∈ u.log ↔ o ∈ s.log) := by
  unfold confirmInjection at h
  rw [get_bind] at h
  cases hkey : inj.key with
  | none =>
    simp only [hkey,pure_apply,Outcome.ok.injEq,true_and] at h
    subst h
    exact ⟨rfl,rfl,rfl,fun _ _ => .rfl⟩
  | some key =>
    cases hack : s.context.ackId with
    | none =>
      simp only [hkey,hack,pure_apply,Outcome.ok.injEq,true_and] at h
      subst h
      exact ⟨rfl,rfl,rfl,fun _ _ => .rfl⟩
    | some itemId =>
      simp only [hkey,hack] at h
      obtain ⟨state,v,hv,hu⟩ := bind_ok h
      obtain ⟨rfl,hstate⟩ := ofExcept_ok hv
      simp only [modify_apply,Outcome.ok.injEq,true_and] at hu
      subst hu
      refine ⟨rfl,rfl,?_,fun o ho => ?_⟩
      · simp [isActive,isCurrent,SessionState.confirmMessage_table hstate]
      simp only [List.mem_cons,or_iff_right_iff_imp]
      exact fun heq => absurd heq (ho _ _)

theorem does_contextAcked {fresh : String} {inj : Injection} (hl : s.terminal.published → b.late) (hf : b.fresh = fresh)
    (h : SendAt c s t k (.inject inj)) (hi : .issued t (.inject inj) inj.event ∈ s.log)
    (hp : s.context.pending.get inj.event.eventId = some .acknowledged) :
    Does c b t k (contextAcked c t fresh inj) s := by
  subst hf
  refine does_active fun ha => (does_confirmInjection h hi hp).bind fun _ u hu _ => within_get ?_
  obtain ⟨hctx,hterminal,hactive,hlog⟩ := confirmInjection_ok hu
  have hl' : u.terminal.published → b.late := by
    rw [hterminal]
    exact hl
  refine Within.ite (fun _ => does_sendRuntimeEvent hl' ?_ (.followup _ _) ?_) fun _ => within_pure
  · obtain ⟨hh,hn,hr⟩ := h
    refine ⟨⟨by rw [hctx,hh],hr⟩,fun inj' event => ?_,?_,by rw [hactive,ha]⟩
    · rw [hlog _ (by simp)]
      exact hn inj' event
    · rw [hlog _ (by simp)]
      exact hi
  · obtain ⟨_,_,_,rfl,_⟩ := h
    trivial

theorem does_awaitContextAck {fresh : String} {inj : Injection} (hl : s.terminal.published → b.late)
    (hf : b.fresh = fresh) (h : SendAt c s t k (.inject inj)) (hi : .issued t (.inject inj) inj.event ∈ s.log) :
    Does c b t k (awaitContextAck c t fresh inj) s := by
  refine within_get ?_
  split
  · rename_i hp
    exact does_contextAcked hl hf h hi hp
  · exact within_raise
  · exact within_suspend ⟨⟨h,hi⟩,trivial⟩

theorem does_contextTimedOut {inj : Injection} (hl : s.terminal.published → b.late)
    (h : SendAt c s t k (.inject inj)) (hi : .issued t (.inject inj) inj.event ∈ s.log) :
    Does c b t k (contextTimedOut c t inj) s := by
  have hcaptures : s.Captures "context.ack_timeout"
      { FailureArgs.ofEvent inj.event with relatedEventId := some inj.event.eventId } := by
    refine captures_event (by decide) inj.event rfl ?_ rfl rfl rfl
    rintro _ ⟨⟩
    exact .issued t (.inject inj) inj.event hi
  exact within_modify_bind (.single (.capture _ _ hl hcaptures))
    (does_failAndRaise h.1 (mayFail_of_sendAt h (by simp)) (holds_of_sendAt h))

/-! Resuming after a send and after the shutdown. -/

theorem does_sent {fresh : String} {purpose : Purpose} {event : ClientEvent} (hl : s.terminal.published → b.late)
    (hf : b.fresh = fresh) (h : At c s t k (.sending purpose event)) (hb : b.accepts = some (purpose,event)) : Does c b t k (sent c t fresh purpose) s := by
  cases purpose with
  | start => exact within_modify (.spawnReceiver h.1)
  | audio bytes => exact within_modify (.gauge _ bytes h.1)
  | plain => exact within_pure
  | inject inj =>
    obtain rfl := h.2.2 inj rfl
    exact does_awaitContextAck hl hf h.1 h.2.1
  | trigger inj => exact within_pure
  | result id => exact does_awaitToolAck hf h.1 hb
  | followup id => exact within_pure
  | close reason => exact does_awaitCloseAck h.1

theorem does_sendRaised {purpose : Purpose} {event : ClientEvent} {e : Exn} (hl : s.terminal.published → b.late)
    (h : SendAt c s t k purpose) :
    Does c b t k (sendRaised c t event e purpose) s := by
  cases purpose with
  | result id => exact within_raise
  | followup id => exact within_raise
  | close reason => exact does_closeSendFailed hl h
  | start => exact does_sendFailed hl h (mayFail_of_sendAt h (by simp))
  | audio bytes => exact does_sendFailed hl h (mayFail_of_sendAt h (by simp))
  | plain => exact does_sendFailed hl h (mayFail_of_sendAt h (by simp))
  | inject inj => exact does_sendFailed hl h (mayFail_of_sendAt h (by simp))
  | trigger inj => exact does_sendFailed hl h (mayFail_of_sendAt h (by simp))

theorem does_sendExpired {purpose : Purpose} {event : ClientEvent} (hl : s.terminal.published → b.late)
    (h : SendAt c s t k purpose) :
    Does c b t k (sendExpired c t event purpose) s := by
  cases purpose with
  | result id => exact within_raise
  | followup id => exact within_raise
  | close reason => exact does_closeSendFailed hl h
  | start => exact does_sendTimedOut hl h (mayFail_of_sendAt h (by simp))
  | audio bytes => exact does_sendTimedOut hl h (mayFail_of_sendAt h (by simp))
  | plain => exact does_sendTimedOut hl h (mayFail_of_sendAt h (by simp))
  | inject inj => exact does_sendTimedOut hl h (mayFail_of_sendAt h (by simp))
  | trigger inj => exact does_sendTimedOut hl h (mayFail_of_sendAt h (by simp))

theorem does_shutdownEnded {after : After} (h : AfterAt s t k after) :
    Does c b t k (shutdownEnded after) s := by
  cases after with
  | done => exact within_pure
  | raise error frame =>
    have hm : Does c b t k (do
        let s ← Run.get
        (Run.raise (.realtime { error with failure := s.failure.context }) : Prog A Unit)) s :=
      within_get within_raise
    exact does_cleanup hm h.1 h.2.2

theorem does_joinReceiver {after : After} (hp : s.terminal.published) (h : AfterAt s t k after) :
    Does c b t k (joinReceiver t after) s := by
  refine within_get ?_
  split
  · exact does_shutdownEnded h
  · rename_i j hj
    have hr : s.receiver = some j := (Option.filter_eq_some_iff.mp hj).1
    refine within_modify_bind (.single (.cancelReceiver j hr)) (within_get ?_)
    have ha : AfterAt (s.requestCancel fun i _ => decide (i = j)) t k after := h.of_holder rfl
    exact Within.ite (fun _ => does_shutdownEnded ha) fun _ => within_suspend ⟨⟨hp,ha⟩,trivial⟩

/-! The receive loop. -/

/-- The receiver has ended the session and leaves its loop. -/
theorem does_finishAndStop {e : TerminalEvent} {i : CloseInitiator} {d : CloseDisposition} (hk : k = .receiver)
    (he : ∀ closed, e = .closed closed → i = closed.initiator ∧ d = closed.disposition) :
    Does c b t k (do finishTerminal c t e i d .done; pure false) s := by
  have ha : AfterAt s t k .done := .inl hk
  exact (does_finishTerminal he ha).bind fun _ _ _ _ => within_pure

theorem does_refuse {code : RealtimeErrorCode} (hk : k = .receiver) :
    Does c b t k (refuse c t code) s := does_finishAndStop hk fun _ h => by simp at h

theorem refuse_false {code : RealtimeErrorCode} {v : Bool} {u : Session A}
    (h : refuse c t code s = .ok v u) : v = false := by
  obtain ⟨_,w,_,hw⟩ := bind_ok h
  simp only [pure_apply,Outcome.ok.injEq] at hw
  exact hw.1.symm

theorem does_expect {p : Session A → Bool} (hk : k = .receiver) : Does c b t k (expect c t p) s :=
  within_get (Within.ite (fun _ => within_pure) fun _ => does_refuse hk)

theorem expect_true {p : Session A → Bool} {u : Session A} (h : expect c t p s = .ok true u) :
    u = s ∧ p s := by
  unfold expect at h
  rw [get_bind] at h
  split at h
  · simp only [pure_apply,Outcome.ok.injEq,true_and] at h
    exact ⟨h.symm,‹_›⟩
  · exact absurd (refuse_false h) (by simp)

theorem does_expect_cons {p : Session A → Bool} {ms : List (Prog A Bool)} (hk : k = .receiver)
    (h : p s → Does c b t k (Run.all ms) s) : Does c b t k (Run.all (expect c t p :: ms)) s := by
  refine within_all_cons (does_expect hk) fun u hu _ => ?_
  obtain ⟨rfl,hp⟩ := expect_true hu
  exact h hp

theorem does_update {f : Session A → Session A} (h : Moves c b t k s (f s)) :
    Does c b t k (update f) s := within_modify_bind h within_pure

theorem does_update_cons {f : Session A → Session A} {ms : List (Prog A Bool)} (h : Moves c b t k s (f s))
    (hh : Does c b t k (Run.all ms) (f s)) : Does c b t k (Run.all (update f :: ms)) s := by
  refine within_all_cons (does_update h) fun u hu _ => ?_
  have heq : f s = u := by simpa [update] using hu
  rwa [← heq]

theorem does_single {m : Prog A Bool} (h : Does c b t k m s) : Does c b t k (Run.all [m]) s :=
  within_all_cons h fun _ _ _ => within_all_nil

theorem does_emit {event : RealtimeEvent} (hk : k = .receiver) (hat : s.PutAt event) (hb : MaySpeak b s)
    (he : ¬event.isTerminal)
    (hitem : ∀ o, outputOf event = some o → (o.responseId,o.itemId) ∈ s.book.completedItems → b.reopens)
    (hturn : ∀ turnId text, event = .provider (.transcriptCompleted turnId text) → turnId ∈ b.unspoken) :
    Does c b t k (emit c t event) s := by
  refine within_get (Within.ite (fun hr => ?_) fun _ => does_refuse hk)
  exact does_update (.single (.put event hat hb he hr hitem hturn))

/-- A preparation and the event that goes with it: they are one move, unless the queue is full. -/
theorem does_prepared {event : RealtimeEvent} {f : Session A → Session A} (hk : k = .receiver)
    (hput : (f s).hasRoom c event → Move c b t k s ((f s).put c t event)) (hprep : Moves c b t k s (f s)) :
    Does c b t k (do Run.modify f; emit c t event) s := by
  by_cases hr : (f s).hasRoom c event
  · have heq : (do Run.modify f; emit c t event : Prog A Bool) s = .ok true ((f s).put c t event) := by
      simp [emit,hr,update]
    refine ⟨?_,fun p u hu => ?_⟩
    · rw [heq]
      exact .single (hput hr)
    · rw [heq] at hu
      simp at hu
  · exact within_modify_bind hprep (within_get (Within.ite (fun h => absurd h hr) fun _ => does_refuse hk))

theorem does_prepared_cons {event : RealtimeEvent} {f : Session A → Session A} (hk : k = .receiver)
    (hput : (f s).hasRoom c event → Move c b t k s ((f s).put c t event)) (hprep : Moves c b t k s (f s)) :
    Does c b t k (Run.all [update f,emit c t event]) s := by
  have heq : Run.all [update f,emit c t event] = Run.all [do Run.modify f; emit c t event] := by
    funext u
    simp [Run.all,Run.andThen,update,bind_apply]
  rw [heq]
  exact does_single (does_prepared hk hput hprep)

/-! A stage of the receive loop that answers `true` has not ended the session, and neither completes an
item nor, but for the one that does just this, introduces a part. The identity table stays. -/

abbrev standing (s : Session A) :
    Bool × RealtimeIdentityTable × Finset (String × String) × List OutputIdentity :=
  (s.terminal.published,s.shared.state.table,s.book.completedItems,s.book.contents)

abbrev Stays (m : Prog A Bool) (s : Session A) : Prop :=
  Run.Ends (fun go u => go = true → u.standing = s.standing) (fun _ _ => True) m s

theorem stays_refuse {code : RealtimeErrorCode} : Stays (refuse c t code) s :=
  ends_trivial.bind fun _ _ _ => ends_pure (by simp)

theorem stays_expect {p : Session A → Bool} : Stays (expect c t p) s :=
  ends_get (Run.Ends.ite (fun _ => ends_pure fun _ => rfl) fun _ => stays_refuse)

theorem stays_update {f : Session A → Session A}
    (h : (f s).standing = s.standing) : Stays (update f) s :=
  ends_modify_bind (ends_pure fun _ => h)

theorem stays_emit {event : RealtimeEvent} : Stays (emit c t event) s :=
  ends_get (Run.Ends.ite (fun _ => stays_update rfl) fun _ => stays_refuse)

theorem Stays.trans {m : Prog A Bool} {u : Session A} (h : Stays m u)
    (hu : u.standing = s.standing) :
    Run.Ends (fun go v => go = true → v.standing = s.standing) (fun _ _ => True) m u :=
  h.mono (fun _ _ hv hgo => (hv hgo).trans hu) fun _ _ _ => trivial

theorem stays_all {ms : List (Prog A Bool)} (h : ∀ m ∈ ms, ∀ u, Stays m u) : Stays (Run.all ms) s := by
  induction ms generalizing s with
  | nil => exact ends_pure fun _ => rfl
  | cons m ms ih =>
    refine (h m List.mem_cons_self s).bind fun go u hu => ?_
    cases go with
    | false => exact ends_pure (by simp)
    | true => exact (ih fun m' hm' => h m' (List.mem_cons_of_mem _ hm')).trans (hu rfl)

theorem stays_introduceResponse {id : Option String} : Stays (introduceResponse c t id) s := by
  cases id with
  | none => exact ends_pure fun _ => rfl
  | some id =>
    refine stays_all fun m hm u => ?_
    simp only [List.mem_cons,List.not_mem_nil,or_false] at hm
    rcases hm with rfl | rfl | rfl
    · exact stays_expect
    · exact stays_update rfl
    · exact stays_update (by rw [startFollowup_frame])

theorem stays_introduceDetail {item : String × String} {detail : Option (String × String × ℕ × String)} :
    Stays (introduceDetail c t item detail) s := by
  cases detail with
  | none => exact stays_refuse
  | some detail =>
    refine stays_all fun m hm u => ?_
    simp only [List.mem_cons,List.not_mem_nil,or_false] at hm
    rcases hm with rfl | rfl
    · exact stays_expect
    · exact stays_update (by split <;> rfl)

theorem stays_introduceItem {d : DecodedProviderEvent} : Stays (introduceItem c t d) s := by
  unfold introduceItem
  split
  · exact ends_pure fun _ => rfl
  · refine stays_all fun m hm u => ?_
    simp only [List.mem_cons,List.not_mem_nil,or_false] at hm
    rcases hm with rfl | rfl | rfl | rfl
    · exact stays_expect
    · exact stays_expect
    · exact stays_update rfl
    · exact stays_introduceDetail

/-- What the stage that introduces a part leaves alone. -/
structure Introduced (content : Option OutputIdentity) (s u : Session A) : Prop where
  published : u.terminal.published = s.terminal.published
  table : u.shared.state.table = s.shared.state.table
  completedItems : u.book.completedItems = s.book.completedItems
  contents : ∀ o ∈ u.book.contents, o ∈ s.book.contents ∨ content = some o

theorem introduceContent_true {content : Option OutputIdentity} {u : Session A}
    (h : introduceContent c t content s = .ok true u) : Introduced content s u := by
  cases content with
  | none =>
    obtain rfl : s = u := by simpa [introduceContent] using h
    exact ⟨rfl,rfl,rfl,fun o ho => .inl ho⟩
  | some content =>
    obtain ⟨v,hv,hrest⟩ := all_cons_true h
    obtain ⟨rfl,_⟩ := expect_true hv
    obtain ⟨w,hw,hend⟩ := all_cons_true hrest
    obtain ⟨rfl,_⟩ := expect_true hw
    obtain ⟨x,hx,hlast⟩ := all_cons_true hend
    obtain rfl : x = u := by simpa [Run.all] using hlast
    obtain rfl := (by simpa [update] using hx : _ = x)
    refine ⟨rfl,rfl,rfl,fun o ho => ?_⟩
    obtain rfl | ho := List.mem_cons.mp ho
    · exact .inr rfl
    · exact .inl ho

theorem stays_acknowledgeTool {ack : Option (String × String × String × String × String)} :
    Stays (acknowledgeTool c t ack) s := by
  cases ack with
  | none => exact ends_pure fun _ => rfl
  | some ack =>
    refine stays_all fun m hm u => ?_
    simp only [List.mem_cons,List.not_mem_nil,or_false] at hm
    rcases hm with rfl | rfl
    · exact stays_expect
    · refine stays_update ?_
      unfold ackResult
      split
      · split <;> rfl
      · rfl

theorem stays_checkCompleted {d : DecodedProviderEvent} : Stays (checkCompleted c t d) s := by
  refine stays_all fun m hm u => ?_
  simp only [List.mem_cons,List.not_mem_nil,or_false] at hm
  rcases hm with rfl | rfl
  · exact stays_expect
  · exact stays_expect

theorem stays_applyTranscript {turnId text : String} : Stays (applyTranscript c t turnId text) s := by
  refine ends_get (Run.Ends.ite (fun _ => ?_) fun _ => stays_emit)
  exact Run.Ends.ite (fun _ => stays_update rfl) fun _ => ends_modify_bind (stays_emit.trans rfl)

theorem stays_applyToolCall {identity : Option (String × String × ℕ × String)} {call : ToolCallRequested} :
    Stays (applyToolCall c t identity call) s := by
  refine stays_all fun m hm u => ?_
  simp only [List.mem_cons,List.not_mem_nil,or_false] at hm
  rcases hm with rfl | rfl | rfl
  · exact stays_expect
  · exact stays_expect
  · refine ends_get (Run.Ends.ite (fun _ => stays_update rfl) fun _ => ends_modify_bind ?_)
    have hu : (u.registerTool c { call with generation := c.generation }).standing = u.standing := by
      rw [registerTool_frame]
    exact Run.Ends.ite (fun _ => ends_pure fun _ => hu) fun _ => stays_emit.trans hu

theorem stays_applyOutput {identity : OutputIdentity} {event : ProviderEvent} :
    Stays (applyOutput c t identity event) s := by
  refine ends_get (Run.Ends.ite (fun _ => stays_update rfl) fun _ => stays_all fun m hm u => ?_)
  simp only [List.mem_cons,List.not_mem_nil,or_false] at hm
  rcases hm with rfl | rfl | rfl
  · exact stays_expect
  · exact stays_expect
  · exact ends_get (Run.Ends.ite (fun _ => stays_update rfl) fun _ => stays_emit)

theorem stays_applyFinished {batch : Bool} {response : ResponseFinished} :
    Stays (applyFinished c t batch response) s := by
  refine ends_get (stays_all fun m hm u => ?_)
  simp only [List.mem_cons,List.not_mem_nil,or_false] at hm
  rcases hm with rfl | rfl
  · exact stays_expect
  · refine ends_get (Run.Ends.ite (fun _ => stays_update rfl) fun _ => stays_all fun m hm v => ?_)
    simp only [List.mem_cons,List.not_mem_nil,or_false] at hm
    rcases hm with rfl | rfl
    · exact stays_update rfl
    · exact Run.Ends.ite (fun _ => stays_update (by rw [putTerminalSafe_frame])) fun _ => stays_emit

theorem stays_applyEvent {d : DecodedProviderEvent} {batch : Bool} {event : ProviderEvent} :
    Stays (applyEvent c t d batch event) s := by
  cases event
  case transcriptCompleted => exact stays_applyTranscript
  case toolCallRequested => exact stays_applyToolCall
  case outputText => exact stays_applyOutput
  case outputAudioStarted => exact stays_applyOutput
  case outputAudio => exact stays_applyOutput
  case outputAudioCompleted => exact stays_applyOutput
  case responseFinished => exact stays_applyFinished
  case sessionFailed => exact ends_trivial.bind fun _ _ _ => ends_pure (by simp)
  all_goals exact stays_emit

theorem stays_applyEvents {d : DecodedProviderEvent} : Stays (applyEvents c t d) s := by
  refine stays_all fun m hm u => ?_
  obtain ⟨event,_,rfl⟩ := List.mem_map.mp hm
  exact stays_applyEvent

theorem stays_readiness {d : DecodedProviderEvent} : Stays (readiness c t d) s := by
  refine ends_get (Run.Ends.ite (fun _ => ends_modify_bind (stays_emit.trans rfl)) fun _ => ?_)
  exact Run.Ends.ite (fun _ => stays_refuse) fun _ => ends_pure fun _ => rfl

/-- A book that knows more than another one. -/
structure Knows (book book' : ResponseBook) : Prop where
  responses : book.responses ⊆ book'.responses
  terminal : book.terminalResponses ⊆ book'.terminalResponses
  cancelled : book.cancelledResponses ⊆ book'.cancelledResponses
  items : book.items ⊆ book'.items
  contents : book.contents ⊆ book'.contents
  completedItems : book.completedItems ⊆ book'.completedItems
  completedContents : book.completedContents ⊆ book'.completedContents

theorem Knows.refl (book : ResponseBook) : Knows book book :=
  ⟨subset_rfl,subset_rfl,subset_rfl,subset_rfl,List.Subset.refl _,subset_rfl,List.Subset.refl _⟩

theorem Knows.trans {x y z : ResponseBook} (h : Knows x y) (hh : Knows y z) : Knows x z :=
  ⟨h.responses.trans hh.responses,h.terminal.trans hh.terminal,h.cancelled.trans hh.cancelled,
    h.items.trans hh.items,List.Subset.trans h.contents hh.contents,h.completedItems.trans hh.completedItems,
    List.Subset.trans h.completedContents hh.completedContents⟩

/-- The book only learns. -/
theorem BookMove.knows {book book' : ResponseBook} (h : BookMove book book') : Knows book book' := by
  cases h
  case item => exact { Knows.refl book with items := Finset.subset_insert _ _ }
  case functionCall => exact { Knows.refl book with }
  case content => exact { Knows.refl book with contents := List.subset_cons_self _ _ }
  case finished => exact { Knows.refl book with terminal := Finset.subset_insert _ _ }
  case cancelled => exact { Knows.refl book with cancelled := Finset.subset_insert _ _ }
  case completed content item _ _ =>
    refine { Knows.refl book with completedItems := ?_, completedContents := List.subset_append_right _ _ }
    cases item with
    | none => exact subset_rfl
    | some item => exact Finset.subset_insert _ _

theorem Move.book_grows {s' : Session A} (h : Move c b t k s s') : Knows s.book s'.book := by
  have hterminal : ∀ id, Knows s.book { s.book with terminalResponses := insert id s.book.terminalResponses } :=
    fun id => { Knows.refl s.book with terminal := Finset.subset_insert _ _ }
  cases h
  case book hb _ => exact hb.knows
  case finish => rw [endResponse_frame]; exact hterminal _
  case publish => rw [publish_frame]; exact Knows.refl _
  case conclude reason ack _ _ _ _ =>
    obtain h | ⟨id,h⟩ := concludeClose_book (c := c) (t := t) (s := s) reason ack
    · rw [h]
      exact Knows.refl _
    · rw [h]
      exact hterminal id
  case register => rw [registerTool_frame]; exact Knows.refl _
  case followup => rw [requestFollowup_frame]; exact Knows.refl _
  case introduce =>
    rw [introduce_frame]
    exact { Knows.refl s.book with responses := Finset.subset_insert _ _ }
  case ackContext => rw [acknowledgeContext_frame]; exact Knows.refl _
  all_goals exact Knows.refl _

theorem moves_knows {s' : Session A} (h : Moves c b t k s s') : Knows s.book s'.book :=
  moves_keep (I := fun u => Knows s.book u.book) (fun _ _ hm hu => hu.trans hm.book_grows) h (Knows.refl _)

/-- The receive loop never starts a controlled close. -/
theorem Move.closing_same {s' : Session A} (h : Move c b t k s s') (hk : k = .receiver) :
    s'.terminal.closing = s.terminal.closing := by
  cases h
  case claimClean reason hk' _ => simp [hk] at hk'
  case finish => rw [endResponse_frame]
  case publish => rw [publish_frame]
  case conclude => rw [concludeClose_frame]
  case register => rw [registerTool_frame]
  case followup => rw [requestFollowup_frame]
  case introduce => rw [introduce_frame]
  case ackContext => rw [acknowledgeContext_frame]
  all_goals rfl

theorem moves_closing_same {s' : Session A} (h : Moves c b t k s s') (hk : k = .receiver) :
    s'.terminal.closing = s.terminal.closing :=
  moves_keep (I := fun u => u.terminal.closing = s.terminal.closing)
    (fun _ _ hm hu => (hm.closing_same hk).trans hu) h rfl

theorem audible_of_moves {s' : Session A} (h : Moves c b t k s s') {event : ProviderEvent}
    (hs : audible s'.book event) : audible s.book event := by
  have hgrow : Knows s.book s'.book := moves_knows h
  have hnot : ∀ o : OutputIdentity, o.responseId ∉ s'.book.terminalResponses ∧
      o.responseId ∉ s'.book.cancelledResponses → o.responseId ∉ s.book.terminalResponses ∧
      o.responseId ∉ s.book.cancelledResponses :=
    fun o ho => ⟨fun hh => ho.1 (hgrow.terminal hh),fun hh => ho.2 (hgrow.cancelled hh)⟩
  cases event
  case outputText o text isDelta => simpa [audible] using hnot o (by simpa [audible] using hs)
  case outputAudioStarted o => simpa [audible] using hnot o (by simpa [audible] using hs)
  case outputAudio o data => simpa [audible] using hnot o (by simpa [audible] using hs)
  case outputAudioCompleted o => simpa [audible] using hnot o (by simpa [audible] using hs)
  all_goals exact hs

theorem does_readiness {d : DecodedProviderEvent} (hk : k = .receiver)
    (hb : d.providerReady ∧ s.ready = false → MaySpeak b s) : Does c b t k (readiness c t d) s := by
  refine within_get (Within.ite (fun hr => ?_) fun _ => ?_)
  · have hh : d.providerReady = true ∧ s.ready = false := by simpa using hr
    refine within_modify_bind (.single (.ready hh.2)) (does_emit hk ?_ (hb hh) ?_ ?_ ?_)
    · simp [PutAt,sessionReady,outputOf]
    · simp [sessionReady,RealtimeEvent.isTerminal]
    · simp [sessionReady,outputOf]
    · simp [sessionReady]
  · exact Within.ite (fun _ => does_refuse hk) fun _ => within_pure

theorem does_introduceResponse {id : Option String} (hk : k = .receiver) (hc : s.terminal.closing = false)
    (hb : ∀ responseId, id = some responseId → b.introduces = some responseId) :
    Does c b t k (introduceResponse c t id) s := by
  cases id with
  | none => exact within_pure
  | some id =>
    refine does_expect_cons hk fun ha => ?_
    exact does_single (m := update fun s => (s.addResponse id).startFollowup)
      (does_update (.single (.introduce id (hb id rfl) ha hc)))

theorem does_introduceDetail {item : String × String} {detail : Option (String × String × ℕ × String)}
    (hk : k = .receiver) (hc : s.terminal.closing = false) (hi : item ∈ s.book.items) :
    Does c b t k (introduceDetail c t item detail) s := by
  cases detail with
  | none => exact does_refuse hk
  | some detail =>
    obtain ⟨responseId,itemId,outputIndex,itemType⟩ := detail
    refine does_expect_cons hk fun he => does_single (does_update ?_)
    have heq : (responseId,itemId) = item := by simpa using he
    split
    · exact .single (.book _ (.functionCall _ (by rwa [← heq] at hi)) hc)
    · exact .refl

theorem does_introduceItem {d : DecodedProviderEvent} (hk : k = .receiver) (hc : s.terminal.closing = false) :
    Does c b t k (introduceItem c t d) s := by
  unfold introduceItem
  split
  · exact within_pure
  · rename_i item _
    refine does_expect_cons hk fun hr => does_expect_cons hk fun hn => ?_
    refine does_update_cons (.single (.book _ (.item item (by simpa using hr) (by simpa using hn)) hc)) ?_
    exact does_single (does_introduceDetail hk hc (by simp))

theorem does_introduceContent {content : Option OutputIdentity} (hk : k = .receiver)
    (hc : s.terminal.closing = false) : Does c b t k (introduceContent c t content) s := by
  cases content with
  | none => exact within_pure
  | some content =>
    refine does_expect_cons hk fun hi => does_expect_cons hk fun hn => ?_
    exact does_single (does_update (.single (.book _ (.content content (by simpa using hi) (by simpa using hn)) hc)))

theorem does_ackResult {id : String} (hb : b.ack = some id) : Moves c b t k s (s.ackResult id) := by
  unfold ackResult
  split
  · rename_i r hr
    split
    · exact .single (.ackResult id r hb hr ‹_›)
    · exact .single count_duplicate
  · exact .refl

theorem does_acknowledgeTool {ack : Option (String × String × String × String × String)} (hk : k = .receiver)
    (hb : ∀ identity, ack = some identity → b.ack = some identity.2.2.2.1) :
    Does c b t k (acknowledgeTool c t ack) s := by
  cases ack with
  | none => exact within_pure
  | some ack => exact does_expect_cons hk fun _ => does_single (does_update (does_ackResult (hb ack rfl)))

theorem does_checkCompleted {d : DecodedProviderEvent} (hk : k = .receiver) :
    Does c b t k (checkCompleted c t d) s :=
  does_expect_cons hk fun _ => does_expect_cons hk fun _ => within_all_nil

/-- The part and the item that a decoded event completes are known. -/
def CompletesKnown (d : DecodedProviderEvent) (s : Session A) : Prop :=
  (∀ o, d.completedContent = some o → o ∈ s.book.contents) ∧ ∀ i, d.completedItem = some i → i ∈ s.book.items

theorem does_complete {d : DecodedProviderEvent} (hc : s.terminal.closing = false) (hd : CompletesKnown d s) :
    Does c b t k (update (complete d)) s :=
  does_update (.single (.book _ (.completed d.completedContent d.completedItem hd.1 hd.2) hc))

theorem checkCompleted_true {d : DecodedProviderEvent} {u : Session A} (h : checkCompleted c t d s = .ok true u) :
    CompletesKnown d u := by
  obtain ⟨v,hv,hrest⟩ := all_cons_true h
  obtain ⟨rfl,hcontent⟩ := expect_true hv
  obtain ⟨w,hw,hend⟩ := all_cons_true hrest
  obtain ⟨rfl,hitem⟩ := expect_true hw
  obtain rfl : w = u := by simpa [Run.all] using hend
  refine ⟨fun o ho => ?_,fun i hi => ?_⟩
  · rw [ho] at hcontent
    simp only [Option.all_some,Bool.and_eq_true,decide_eq_true_eq] at hcontent
    exact hcontent.1
  · rw [hi] at hitem
    simp only [Option.all_some,Bool.and_eq_true,decide_eq_true_eq] at hitem
    exact hitem.1

theorem does_applyTranscript {turnId text : String} (hk : k = .receiver) (hb : MaySpeak b s)
    (hun : s.spoken turnId = false → turnId ∈ b.unspoken) :
    Does c b t k (applyTranscript c t turnId text) s := by
  refine within_get (Within.ite (fun hspoken => ?_) fun hno => ?_)
  · refine Within.ite (fun _ => does_update (.single count_duplicate)) fun hn => ?_
    exact does_prepared (f := fun u => u.completeInput turnId) hk
      (fun hr => .transcribed turnId text hb hspoken hn hr) (.single (.completedInput turnId hspoken hn))
  · have hnot : s.spoken turnId = false := by simpa [spoken] using hno
    refine does_emit hk hnot hb (by simp [RealtimeEvent.isTerminal]) (by simp [outputOf]) ?_
    rintro _ _ ⟨⟩
    exact hun hnot

theorem does_applyToolCall {identity : Option (String × String × ℕ × String)} {call : ToolCallRequested}
    (hk : k = .receiver) (hb : MaySpeak b s) : Does c b t k (applyToolCall c t identity call) s := by
  refine does_expect_cons hk fun _ => does_expect_cons hk fun hn => does_single (within_get ?_)
  refine Within.ite (fun _ => does_update (.single count_duplicate)) fun ht => ?_
  refine within_modify_bind (.single (.register _ (by simpa using hn) (by simpa using ht) rfl)) ?_
  refine Within.ite (fun _ => within_pure) fun _ =>
    does_emit hk (by simp [PutAt,outputOf]) ?_ (by simp [RealtimeEvent.isTerminal]) (by simp [outputOf]) (by simp)
  unfold MaySpeak
  rw [registerTool_frame]
  exact hb

theorem does_applyOutput {identity : OutputIdentity} {event : ProviderEvent} (hk : k = .receiver)
    (he : ¬(RealtimeEvent.provider event).isTerminal)
    (hat : OpenPart s.book identity → s.PutAt (.provider event))
    (hid : outputOf (.provider event) = some identity) (hre : reopens none s.book event → b.reopens)
    (hturn : ∀ turnId text, event ≠ .transcriptCompleted turnId text)
    (hb : identity.responseId ∉ s.book.terminalResponses → identity.responseId ∉ s.book.cancelledResponses →
      MaySpeak b s) : Does c b t k (applyOutput c t identity event) s := by
  refine within_get (Within.ite (fun _ => does_update (.single count_late)) fun hn => ?_)
  rw [not_or] at hn
  refine does_expect_cons hk fun hr => does_expect_cons hk fun ho => does_single (within_get ?_)
  refine Within.ite (fun _ => does_update (.single count_late)) fun hnot => ?_
  have hcontent : identity ∈ s.book.contents := by simpa using ho
  refine does_emit hk (hat ⟨by simpa using hr,hn.1,hn.2,hcontent,hnot⟩) (hb hn.1 hn.2) he (fun o heq hitem => hre ?_)
    fun turnId text heq => absurd (RealtimeEvent.provider.inj heq) (hturn turnId text)
  obtain rfl : identity = o := Option.some.inj (hid.symm.trans heq)
  simp [reopens,hid,hitem,hcontent,hnot,hn]

theorem does_applyFinished {batch : Bool} {response : ResponseFinished} (hk : k = .receiver)
    (hb : MaySpeak b s) (hbatch : batch → response.responseId ∈ b.batch) : Does c b t k (applyFinished c t batch response) s := by
  refine within_get (does_expect_cons hk fun hr => does_single (within_get ?_))
  refine Within.ite (fun _ => does_update (.single count_duplicate)) fun hn => ?_
  have hr' : response.responseId ∈ s.book.responses := by simpa using hr
  have hid : (s.finishedStatus response).responseId = response.responseId := by
    unfold finishedStatus
    split <;> rfl
  have hfinish : ∀ safe, (safe = false → s.hasRoom c (.provider (.responseFinished (s.finishedStatus response)))) →
      (safe → response.responseId ∈ b.batch) → Move c b t k s (s.endResponse c t (s.finishedStatus response) safe) :=
    fun safe hroom hsafe => .finish _ safe hb (by rwa [hid]) (by rwa [hid]) hroom (by rwa [hid])
  cases batch with
  | true =>
    have hmove := hfinish true (by simp) hbatch
    rw [endResponse,hid] at hmove
    exact does_single (m := update fun u => (u.addTerminalResponse response.responseId).putTerminalSafe c t _)
      (does_update (.single hmove))
  | false =>
    refine does_prepared_cons hk (fun hroom => ?_) (.single (.book _ (.finished _ hr' hn) hb.2.2))
    have hmove := hfinish false (fun _ => hroom) (by simp)
    rwa [endResponse,hid] at hmove

theorem does_applyEvent {d : DecodedProviderEvent} {batch : Bool} {event : ProviderEvent}
    (hk : k = .receiver) (hb : audible s.book event → MaySpeak b s) (hre : reopens none s.book event → b.reopens)
    (hun : ∀ turnId text, event = .transcriptCompleted turnId text → s.spoken turnId = false → turnId ∈ b.unspoken)
    (hbatch : ∀ response, event = .responseFinished response → batch → response.responseId ∈ b.batch) :
    Does c b t k (applyEvent c t d batch event) s := by
  cases event
  case transcriptCompleted turnId text => exact does_applyTranscript hk (hb rfl) (hun turnId text rfl)
  case toolCallRequested call => exact does_applyToolCall hk (hb rfl)
  case outputText o text isDelta =>
    refine does_applyOutput hk (by simp [RealtimeEvent.isTerminal]) (by simp [PutAt,outputOf]) rfl hre (by simp) fun h hh => hb ?_
    simp [audible,h,hh]
  case outputAudioStarted o =>
    refine does_applyOutput hk (by simp [RealtimeEvent.isTerminal]) (by simp [PutAt,outputOf]) rfl hre (by simp) fun h hh => hb ?_
    simp [audible,h,hh]
  case outputAudio o data =>
    refine does_applyOutput hk (by simp [RealtimeEvent.isTerminal]) (by simp [PutAt,outputOf]) rfl hre (by simp) fun h hh => hb ?_
    simp [audible,h,hh]
  case outputAudioCompleted o =>
    refine does_applyOutput hk (by simp [RealtimeEvent.isTerminal]) (by simp [PutAt,outputOf]) rfl hre (by simp) fun h hh => hb ?_
    simp [audible,h,hh]
  case responseFinished response => exact does_applyFinished hk (hb rfl) (hbatch response rfl)
  case sessionFailed failed =>
    exact does_finishAndStop hk fun _ h => by simp at h
  all_goals
    refine does_emit hk ?_ (hb rfl) ?_ ?_ (by simp)
    · simp [PutAt,outputOf]
    · simp [RealtimeEvent.isTerminal]
    · simp [outputOf]

/-- What reopens an item later did so before, if no item was completed and no part but `introduced` is new. -/
theorem reopens_of_knows {introduced introduced' : Option OutputIdentity} {book book' : ResponseBook}
    {event : ProviderEvent} (hk : Knows book book') (hitems : book'.completedItems = book.completedItems)
    (hcontents : ∀ o, o ∈ book'.contents ∨ introduced' = some o → o ∈ book.contents ∨ introduced = some o)
    (h : reopens introduced' book' event) : reopens introduced book event := by
  unfold reopens at h ⊢
  cases ho : outputOf (.provider event) with
  | none => simp [ho] at h
  | some o =>
    simp only [ho,Option.any_some,Bool.and_eq_true,decide_eq_true_eq] at h ⊢
    obtain ⟨⟨⟨⟨hitem,hcontent⟩,hpart⟩,hterminal⟩,hcancelled⟩ := h
    refine ⟨⟨⟨⟨hitems ▸ hitem,hcontents o hcontent⟩,fun hh => hpart (hk.completedContents hh)⟩,?_⟩,?_⟩
    · exact fun hh => hterminal (hk.terminal hh)
    · exact fun hh => hcancelled (hk.cancelled hh)

theorem does_applyEvents {d : DecodedProviderEvent} (hk : k = .receiver)
    (hb : d.events.any (audible s.book) → b.speaks) (hl : s.terminal.published → b.late)
    (hc : s.terminal.closing = false) (hre : d.events.any (reopens none s.book) → b.reopens)
    (hun : ∀ turnId text, .transcriptCompleted turnId text ∈ d.events → s.spoken turnId = false → turnId ∈ b.unspoken)
    (hbatch : ∀ id ∈ batchFinishes d, id ∈ b.batch) : Does c b t k (applyEvents c t d) s := by
  refine within_all (I := fun u => u.standing = s.standing) rfl fun m hm u hu hstands => ?_
  obtain ⟨event,he,rfl⟩ := List.mem_map.mp hm
  have hsame := hstands
  simp only [standing,Prod.mk.injEq] at hsame
  obtain ⟨hpublished,htable,hitems,hcontents⟩ := hsame
  have hlate : u.terminal.published → b.late := by
    rw [hpublished]
    exact hl
  have hspoken : ∀ turnId, u.spoken turnId = s.spoken turnId := fun turnId => by rw [spoken,htable,spoken]
  refine ⟨does_applyEvent hk (fun ha => ⟨hb ?_,hlate,(moves_closing_same hu hk).trans hc⟩) (fun hr => hre ?_) ?_ ?_,
    fun v hv => (stays_applyEvent.ok true v hv rfl).trans hstands⟩
  · exact List.any_eq_true.mpr ⟨event,he,audible_of_moves hu ha⟩
  · refine List.any_eq_true.mpr ⟨event,he,reopens_of_knows (moves_knows hu) hitems (fun o ho => ?_) hr⟩
    rwa [← hcontents]
  · rintro turnId text rfl hno
    exact hun turnId text he (by rwa [← hspoken])
  · rintro response rfl hterminal
    refine hbatch response.responseId ?_
    rw [batchFinishes,if_pos hterminal]
    exact List.mem_filterMap.mpr ⟨_,he,rfl⟩

/-- One stage of `_apply` and the rest behind it. -/
theorem does_stage {m : Prog A Bool} {ms : List (Prog A Bool)} (hk : k = .receiver)
    (hc : s.terminal.closing = false) (hm : Does c b t k m s)
    (h : ∀ u, m s = .ok true u → Moves c b t k s u → u.terminal.closing = false → Does c b t k (Run.all ms) u) :
    Does c b t k (Run.all (m :: ms)) s :=
  within_all_cons hm fun u hu hsu => h u hu hsu ((moves_closing_same hsu hk).trans hc)

theorem does_stages {d : DecodedProviderEvent} (hk : k = .receiver)
    (hb : d.events.any (audible s.book) → b.speaks) (hl : s.terminal.published → b.late)
    (hc : s.terminal.closing = false)
    (hre : d.events.any (reopens d.introducedContent s.book) → b.reopens)
    (hun : ∀ turnId text, .transcriptCompleted turnId text ∈ d.events → s.spoken turnId = false → turnId ∈ b.unspoken)
    (hack : ∀ identity, d.toolAckIdentity = some identity → b.ack = some identity.2.2.2.1)
    (hintro : ∀ id, d.introducedResponseId = some id → b.introduces = some id)
    (hbatch : ∀ id ∈ batchFinishes d, id ∈ b.batch) :
    Does c b t k (Run.all [introduceResponse c t d.introducedResponseId, introduceItem c t d,
      introduceContent c t d.introducedContent, acknowledgeTool c t d.toolAckIdentity, checkCompleted c t d,
      applyEvents c t d, update (complete d)]) s := by
  refine does_stage hk hc (does_introduceResponse hk hc hintro) fun u₁ ok₁ h₁ c₁ => ?_
  refine does_stage hk c₁ (does_introduceItem hk c₁) fun u₂ ok₂ h₂ c₂ => ?_
  refine does_stage hk c₂ (does_introduceContent hk c₂) fun u₃ ok₃ h₃ c₃ => ?_
  refine does_stage hk c₃ (does_acknowledgeTool hk hack) fun u₄ ok₄ h₄ c₄ => ?_
  refine does_stage hk c₄ (does_checkCompleted hk) fun u₅ ok₅ h₅ c₅ => ?_
  have hmoves : Moves c b t k s u₅ := (h₁.trans h₂).trans ((h₃.trans h₄).trans h₅)
  -- before the events come, at most one part is new
  have hbefore : u₂.standing = s.standing :=
    (stays_introduceItem.ok true u₂ ok₂ rfl).trans (stays_introduceResponse.ok true u₁ ok₁ rfl)
  have hintroduced : Introduced d.introducedContent u₂ u₃ := introduceContent_true ok₃
  have hbehind : u₅.standing = u₃.standing :=
    (stays_checkCompleted.ok true u₅ ok₅ rfl).trans (stays_acknowledgeTool.ok true u₄ ok₄ rfl)
  simp only [standing,Prod.mk.injEq] at hbefore hbehind
  have hl₅ : u₅.terminal.published → b.late := by
    rw [hbehind.1,hintroduced.published,hbefore.1]
    exact hl
  have hspoken : ∀ turnId, u₅.spoken turnId = s.spoken turnId := fun turnId => by
    rw [spoken,hbehind.2.1,hintroduced.table,hbefore.2.1,spoken]
  have hitems : u₅.book.completedItems = s.book.completedItems := by
    rw [hbehind.2.2.1,hintroduced.completedItems,hbefore.2.2.1]
  have hcontents : ∀ o, o ∈ u₅.book.contents ∨ none = some o →
      o ∈ s.book.contents ∨ d.introducedContent = some o := by
    rintro o (ho | ho)
    · rw [← hbefore.2.2.2]
      exact hintroduced.contents o (hbehind.2.2.2 ▸ ho)
    · simp at ho
  refine does_stage hk c₅ (does_applyEvents hk (fun ha => hb ?_) hl₅ c₅ (fun hr => hre ?_) (fun turnId text he hno =>
    hun turnId text he (by rwa [← hspoken])) hbatch) fun u₆ _ h₆ c₆ => ?_
  · obtain ⟨event,he,haud⟩ := List.any_eq_true.mp ha
    exact List.any_eq_true.mpr ⟨event,he,audible_of_moves hmoves haud⟩
  · obtain ⟨event,he,hr⟩ := List.any_eq_true.mp hr
    exact List.any_eq_true.mpr ⟨event,he,reopens_of_knows (moves_knows hmoves) hitems hcontents hr⟩
  · have hknown : CompletesKnown d u₅ := checkCompleted_true ok₅
    refine does_single (does_complete c₆ ⟨fun o ho => ?_,fun i hi => ?_⟩)
    · exact (moves_knows h₆).contents (hknown.1 o ho)
    · exact (moves_knows h₆).items (hknown.2 i hi)

theorem does_apply {d : DecodedProviderEvent} (hk : k = .receiver)
    (hb : (d.providerReady && !s.ready) || d.events.any (audible s.book) → b.speaks)
    (hl : s.terminal.published → b.late) (hc : s.terminal.closing = false)
    (hre : d.events.any (reopens d.introducedContent s.book) → b.reopens)
    (hun : ∀ turnId text, .transcriptCompleted turnId text ∈ d.events → s.spoken turnId = false → turnId ∈ b.unspoken)
    (hack : ∀ identity, d.toolAckIdentity = some identity → b.ack = some identity.2.2.2.1)
    (hintro : ∀ id, d.introducedResponseId = some id → b.introduces = some id)
    (hbatch : ∀ id ∈ batchFinishes d, id ∈ b.batch) (hd : JustDecoded c b s d) :
    Does c b t k (apply c t d) s := by
  refine within_get (Within.ite (fun _ => does_update (.single count_late)) fun _ => ?_)
  split
  · rename_i id hid
    refine does_update ?_
    unfold rejectContext
    split
    · rename_i hw
      exact .single (.rejectContext id _ hw d hd (Option.filter_eq_some_iff.mp hid).1)
    · exact .refl
  · have hmove : Move c b t k s (s.acknowledgeContext d) := .ackContext d hd
    have hready : (s.acknowledgeContext d).ready = s.ready := by rw [acknowledgeContext_frame]
    have hstands : (s.acknowledgeContext d).standing = s.standing := by rw [acknowledgeContext_frame]
    have hlate : (s.acknowledgeContext d).terminal.published → b.late := by
      rw [acknowledgeContext_frame]
      exact hl
    have hclosing : (s.acknowledgeContext d).terminal.closing = false := by
      rw [acknowledgeContext_frame]
      exact hc
    refine within_modify_bind (.single hmove) (Within.andThen
      (does_readiness hk fun hh => ⟨hb ?_,hlate,hclosing⟩) fun u hgo hu => ?_)
    · rw [hready] at hh
      simp [hh.1,hh.2]
    · have hmoves : Moves c b t k s u := (Relation.ReflTransGen.single hmove).trans hu
      have hsame : u.standing = s.standing := (stays_readiness.ok true u hgo rfl).trans hstands
      simp only [standing,Prod.mk.injEq] at hsame
      obtain ⟨hpublished,htable,hitems,hcontents⟩ := hsame
      have hspoken : ∀ turnId, u.spoken turnId = s.spoken turnId := fun turnId => by rw [spoken,htable,spoken]
      have hl' : u.terminal.published → b.late := by
        rw [hpublished]
        exact hl
      have hc' : u.terminal.closing = false := (moves_closing_same hu hk).trans hclosing
      refine Within.ite (fun _ => within_pure) fun _ =>
        does_stages hk (fun ha => hb ?_) hl' hc' (fun hr => hre ?_) ?_ hack hintro hbatch
      · obtain ⟨event,he,haud⟩ := List.any_eq_true.mp ha
        simp only [Bool.or_eq_true]
        exact .inr (List.any_eq_true.mpr ⟨event,he,audible_of_moves hmoves haud⟩)
      · obtain ⟨event,he,hr⟩ := List.any_eq_true.mp hr
        refine List.any_eq_true.mpr ⟨event,he,?_⟩
        exact reopens_of_knows (moves_knows hmoves) hitems (fun o ho => by rwa [← hcontents]) hr
      · intro turnId text he hno
        exact hun turnId text he (by rwa [← hspoken])

theorem does_acknowledgeClose {closed : SessionClosed} (h : s.terminal.closing) :
    Moves c b t k s (s.acknowledgeClose closed) := by
  unfold acknowledgeClose
  split
  · rename_i hv
    split
    · rename_i hp
      exact .single (.closeAck closed h hv hp)
    · exact .refl
  · exact .single (.closeCounters _ _)

theorem captures_failed {failed : SessionFailed}
    (hid : ∀ id, failed.relatedEventId = some id → Text.isOpaqueId id)
    (hmessage : ∀ name, failed.messageClass = some name → name ∈ RelayControl.messageClasses)
    (hretry : ∀ ms, failed.retryAfterMs = some ms → 0 ≤ ms ∧ ms ≤ 3600000) : s.Captures "control.terminal"
      (failedArgs failed (failed.relatedEventId.bind s.failure.sentEventTypes.get)) where
  stage := by decide
  event _ _ h := nomatch h
  related id h := .printable id (hid id h)
  client _ h := by
    obtain ⟨id,_,hget⟩ := Option.bind_eq_some_iff.mp h
    exact ⟨id,hget⟩
  message name h := hmessage name h
  retry ms h := hretry ms h

theorem captures_closed {closed : SessionClosed} (hid : ∀ id, closed.relatedEventId = some id → Text.isOpaqueId id) :
    s.Captures "control.closed" { relatedEventId := closed.relatedEventId
                                  clientEventType := s.failure.sentEventTypes.get (closed.relatedEventId.getD "") } where
  stage := by decide
  event _ _ h := nomatch h
  related id h := .printable id (hid id h)
  client _ h := ⟨_,h⟩
  message _ h := nomatch h
  retry _ h := nomatch h

/-- What the control plane checks in a frame that ends the session. -/
def ControlChecked : RelayControl.ControlEvent → Prop
  | .failed failed => (∀ id, failed.relatedEventId = some id → Text.isOpaqueId id) ∧
      (∀ name, failed.messageClass = some name → name ∈ RelayControl.messageClasses) ∧
      ∀ ms, failed.retryAfterMs = some ms → 0 ≤ ms ∧ ms ≤ 3600000
  | .closed closed => ∀ id, closed.relatedEventId = some id → Text.isOpaqueId id
  | .expiring _ => True

theorem controlChecked_of_decode {payload : Payload} {control : RelayControl.ControlEvent}
    (h : RelayControl.decodeRuntimeEvent payload = .ok (some control)) : ControlChecked control := by
  obtain ⟨value,hgrammar⟩ := RelayControl.grammar_of_decode h
  cases hgrammar with
  | expiring => trivial
  | failed _ _ _ hrelated _ _ _ hclass hretry =>
    refine ⟨fun id hid => ?_,fun name hname => ?_,fun ms hms => ?_⟩
    · dsimp only at hid
      rw [hid] at hrelated
      exact hrelated.2
    · obtain rfl := Option.some.inj hname
      exact hclass.2
    · dsimp only at hms
      rw [hms] at hretry
      exact hretry.2
  | closed _ _ _ hrelated =>
    rintro _ ⟨⟩
    exact hrelated.2

theorem does_controlFrame {control : RelayControl.ControlEvent} (hl : s.terminal.published → b.late)
    (hk : k = .receiver) (hcontrol : ControlChecked control)
    (hb : ∀ ms, control = .expiring ms → s.terminal.closing = false → MaySpeak b s) :
    Does c b t k (controlFrame c t control) s := by
  refine within_get (Within.ite (fun hc => ?_) fun hc => ?_)
  · cases control with
    | closed closed => exact does_update (does_acknowledgeClose hc)
    | failed failed => exact does_update (.single count_late)
    | expiring ms => exact does_update (.single count_late)
  · cases control with
    | failed failed =>
      exact within_modify_bind (.single (.capture _ _ hl (captures_failed hcontrol.1 hcontrol.2.1 hcontrol.2.2)))
        (does_finishAndStop hk fun _ h => by simp at h)
    | closed closed =>
      refine within_modify_bind (.single (.capture _ _ hl (captures_closed hcontrol))) (does_finishAndStop hk ?_)
      rintro _ ⟨⟩
      exact ⟨rfl,rfl⟩
    | expiring ms =>
      exact does_emit hk (by simp [PutAt,outputOf]) (hb ms rfl (by simpa using hc))
        (by simp [RealtimeEvent.isTerminal]) (by simp [outputOf]) (by simp)

theorem does_decode {payload : Payload} (hl : s.terminal.published → b.late) (hb : b.payload = some payload) :
    Does c b t k (decode c payload) s := by
  refine within_get (within_modify_bind (.single (.decode payload hb)) ?_)
  split
  · exact within_pure
  · exact within_raise
  · exact within_modify_bind (.single (.capture _ _ hl (captures_error (by decide)))) within_raise
  · exact within_modify_bind (.single (.capture _ _ hl (captures_error (by decide)))) within_raise

theorem decode_ok {payload : Payload} {d : DecodedProviderEvent} {u : Session A}
    (h : decode c payload s = .ok d u) : u = s.afterDecode c payload ∧ s.decoded c payload = some d := by
  unfold decode at h
  rw [get_bind,modify_bind] at h
  unfold decoded
  cases hr : (s.decoding c payload).result with
  | ok d' =>
    simp only [hr,pure_apply,Outcome.ok.injEq] at h
    obtain ⟨rfl,rfl⟩ := h
    exact ⟨rfl,rfl⟩
  | error e => cases e <;> simp [hr] at h

theorem does_providerFrame {payload : Payload} (hk : k = .receiver) (hb : b.payload = some payload)
    (hspeak : ∀ d, s.decoded c payload = some d → d.eventId ∉ s.seenEventIds →
      (d.providerReady && !s.ready) || d.events.any (audible s.book) → b.speaks)
    (hre : ∀ d, s.decoded c payload = some d → d.eventId ∉ s.seenEventIds →
      d.events.any (reopens d.introducedContent s.book) → b.reopens)
    (hun : ∀ d, s.decoded c payload = some d → d.eventId ∉ s.seenEventIds → ∀ turnId text,
      .transcriptCompleted turnId text ∈ d.events → (s.afterDecode c payload).spoken turnId = false →
      turnId ∈ b.unspoken)
    (hl : s.terminal.published → b.late) (hc : s.terminal.closing = false)
    (hack : ∀ d identity, s.decoded c payload = some d → d.toolAckIdentity = some identity →
      b.ack = some identity.2.2.2.1)
    (hintro : ∀ d id, s.decoded c payload = some d → d.introducedResponseId = some id →
      b.introduces = some id)
    (hbatch : ∀ d, s.decoded c payload = some d → ∀ id ∈ batchFinishes d, id ∈ b.batch) :
    Does c b t k (providerFrame c t payload) s := by
  refine (does_decode hl hb).bind fun d u hu _ => within_get ?_
  obtain ⟨rfl,hd⟩ := decode_ok hu
  refine Within.ite (fun _ => does_update (.single count_duplicate)) fun hseen => ?_
  refine within_modify_bind (.single (.count _ _)) (Within.bind ?_ fun go v _ _ => ?_)
  · exact does_apply hk (hspeak d hd hseen) hl hc (hre d hd hseen) (hun d hd hseen) (fun identity => hack d identity hd)
      (fun id => hintro d id hd) (hbatch d hd) ⟨payload,s,hb,hd,rfl⟩
  · cases go
    · exact within_get within_pure
    · exact within_pure

theorem captures_undecoded {payload : Payload} {error : Option RealtimeError} : s.Captures "control.decode"
    { error, relatedEventId := (s.knownClientReference payload).map Prod.fst
      clientEventType := (s.knownClientReference payload).map Prod.snd } := by
  have hknown : ∀ id type, s.knownClientReference payload = some (id,type) → s.failure.sentEventTypes.get id = some type := by
    intro id type h
    unfold knownClientReference at h
    split at h
    · cases h
    · obtain ⟨related,_,h⟩ := Option.bind_eq_some_iff.mp h
      obtain ⟨type',htype,h⟩ := Option.map_eq_some_iff.mp h
      obtain ⟨rfl,rfl⟩ := Prod.mk.inj h
      exact htype
  refine ⟨by decide,fun _ _ h => (by cases h),fun id h => ?_,fun type h => ?_,fun _ h => (by cases h),fun _ h => (by cases h)⟩
  · obtain ⟨⟨id',type⟩,hreference,rfl⟩ := Option.map_eq_some_iff.mp h
    exact .sent _ (Dict.mem_iff_isSome.mpr (by rw [hknown _ _ hreference]; rfl))
  · obtain ⟨⟨id,type'⟩,hreference,rfl⟩ := Option.map_eq_some_iff.mp h
    exact ⟨id,hknown _ _ hreference⟩

theorem does_decodeControl {payload : Payload} (hl : s.terminal.published → b.late) :
    Does c b t k (decodeControl c payload) s := by
  refine within_get ?_
  split
  · exact within_pure
  · exact within_modify_bind (.single (.capture _ _ hl captures_undecoded)) within_raise
  · exact within_raise

theorem decodeControl_ok {payload : Payload} {control : Option RelayControl.ControlEvent} {u : Session A}
    (h : decodeControl c payload s = .ok control u) :
    u = s ∧ RelayControl.decodeRuntimeEvent payload = .ok control := by
  unfold decodeControl at h
  rw [get_bind] at h
  cases hr : RelayControl.decodeRuntimeEvent payload with
  | ok control' =>
    simp only [hr,pure_apply,Outcome.ok.injEq] at h
    exact ⟨h.2.symm,by rw [h.1]⟩
  | error e => cases e <;> simp [hr] at h

/-- What a frame brings in is what the decoders say of it. -/
structure BringsFrame (c : SessionConfig A) (b : Brings) (s : Session A) (payload : Payload) : Prop where
  frame : b.payload = some payload
  speaks : s.offers c payload → b.speaks
  late : s.terminal.published → b.late
  reopens : s.reopensItem c payload → b.reopens
  unspoken : ∀ turnId ∈ s.unspokenTurns c payload, turnId ∈ b.unspoken
  ack : ∀ d identity, s.decoded c payload = some d → d.toolAckIdentity = some identity →
    b.ack = some identity.2.2.2.1
  introduces : ∀ d id, s.decoded c payload = some d → d.introducedResponseId = some id →
    b.introduces = some id
  batch : ∀ d, s.decoded c payload = some d → ∀ id ∈ batchFinishes d, id ∈ b.batch

theorem does_frameBody {payload : Payload} (hk : k = .receiver) (hb : BringsFrame c b s payload) :
    Does c b t k (frameBody c t payload) s := by
  refine within_get (Within.ite (fun _ => does_update (.single count_late)) fun hcur => ?_)
  have hcurrent : s.terminal.closing = false → s.isCurrent c = true := by
    intro hc
    simpa [hc] using hcur
  refine does_ofExcept fun fields hfields => within_modify_bind (.single (.looked payload fields hfields)) ?_
  refine Within.bind (does_decodeControl hb.late) fun control u hu _ => ?_
  obtain ⟨rfl,hcontrol⟩ := decodeControl_ok hu
  split
  · rename_i control
    refine does_controlFrame (fun h => hb.late h) hk (controlChecked_of_decode hcontrol) fun ms hms hc =>
      ⟨hb.speaks ?_,hb.late,hc⟩
    subst hms
    have hclosing : s.terminal.closing = false := hc
    simp [offers,hcurrent hclosing,hclosing,hcontrol]
  · refine within_get (Within.ite (fun _ => does_update (.single count_late)) fun hc => ?_)
    have hclosing : s.terminal.closing = false := by simpa using hc
    refine does_providerFrame hk hb.frame (fun d hd hseen hh => hb.speaks ?_) (fun d hd hseen hh => hb.reopens ?_)
      (fun d hd hseen turnId text he hno => hb.unspoken turnId ?_) hb.late hclosing hb.ack hb.introduces hb.batch
    · have hd' : s.decoded c payload = some d := hd
      have hseen' : d.eventId ∉ s.seenEventIds := hseen
      simp only [offers,hcurrent hclosing,hclosing,hcontrol,hd']
      simpa [hseen'] using hh
    · have hd' : s.decoded c payload = some d := hd
      have hseen' : d.eventId ∉ s.seenEventIds := hseen
      simp only [reopensItem,hcurrent hclosing,hclosing,hcontrol,hd']
      simpa [hseen'] using hh
    · have hd' : s.decoded c payload = some d := hd
      have hseen' : d.eventId ∉ s.seenEventIds := hseen
      have hno' : (s.afterDecode c payload).spoken turnId = false := hno
      simp only [unspokenTurns,hcurrent hclosing,hclosing,hcontrol,hd',Bool.not_false,Bool.and_self,if_true,
        if_neg hseen']
      exact List.mem_filterMap.mpr ⟨_,he,by simp [hno']⟩

theorem does_receiveError {e : Exn} (hk : k = .receiver) : Does c b t k (receiveError c t e) s := by
  refine within_get ?_
  cases e with
  | cancelled => exact within_raise
  | realtime e =>
    refine Within.ite (fun _ => does_update (.single count_late)) fun _ => ?_
    exact does_finishAndStop hk fun _ h => by simp at h
  | exception => exact Within.ite (fun _ => does_update (.single count_late)) fun _ => does_refuse hk

theorem does_loopTest (hk : k = .receiver) : Does c b t k loopTest s :=
  within_get (Within.ite (fun _ => within_pure) fun hp => within_suspend ⟨hk,by simpa using hp⟩)

theorem does_roundEnd {m : Prog A Bool} (hk : k = .receiver) (h : Does c b t k m s) :
    Does c b t k (roundEnd c t m) s := by
  refine Within.bind (h.handle fun e u _ _ => does_receiveError hk) fun go u _ _ => ?_
  cases go
  · exact within_pure
  · exact does_loopTest hk

theorem does_receiveFrame {payload : Payload} (hk : k = .receiver) (hb : BringsFrame c b s payload) :
    Does c b t k (receiveFrame c t payload) s := does_roundEnd hk (does_frameBody hk hb)

theorem does_receiveRaised {e : Exn} (hl : s.terminal.published → b.late) (hk : k = .receiver) :
    Does c b t k (receiveRaised c t e) s :=
  does_roundEnd hk (within_modify_bind (.single (.capture _ _ hl (captures_type _ (by decide) (by decide)))) within_raise)

theorem does_receiveEof (hl : s.terminal.published → b.late) (hk : k = .receiver) : Does c b t k (receiveEof c t) s := by
  have ha : AfterAt s t k .done := .inl hk
  refine within_get (Within.ite (fun _ => within_pure) fun _ => ?_)
  exact within_modify_bind (.single (.capture _ _ hl (captures_type none (by decide) (by decide))))
    (does_fail (ha.of_holder rfl))

/-! Resuming a task. -/

theorem does_cancelled {state : TaskState} (h : At c s t k state) :
    Does c b t k (cancelledProg t state) s := by
  cases state
  case sending purpose event => exact does_cleanup within_raise (frameAt_of_sendAt h.1) (holds_of_sendAt h.1)
  case awaitingContextAck inj => exact does_injectionCleanup within_raise h.1.1
  case awaitingLock request => exact within_modify_bind (.single (.queue _)) within_raise
  case closingConnection after =>
    cases after with
    | done => exact within_raise
    | raise error frame => exact does_cleanup within_raise h.2.1 h.2.2.2
  case joiningReceiver after => exact does_shutdownEnded h.2
  all_goals exact within_raise

theorem does_startProg {fresh : String} (hf : b.fresh = fresh) (hp : s.terminal.published → s.terminal.owner.isSome)
    (h : At c s t k .created)
    (hb : ∀ call, k = .dispatch call true → b.submits = some (call.callId,errorOutput "invalid_arguments"))
    (ha : ∀ id output, k = .attempt id output → b.starts)
    (hn : s.terminal.owner = none → ∀ j reason event, .issued j (.close reason) event ∉ s.log) :
    Does c b t k (startProg c t fresh k) s := by
  cases k with
  | receiver => exact does_loopTest rfl
  | controlledClose reason => exact does_controlledClose hf rfl hp hn
  | attempt id output => exact does_attempt hf rfl (ha id output rfl)
  | dispatch call invalid =>
    refine does_dispatchTool rfl fun hi => hb call ?_
    rw [hi]
  | start => exact within_pure
  | call call => exact within_pure

/-- What a frame brings into the session that reads it. -/
theorem bringsFrame_of_receiving {task : Task} {payload : Payload} {fresh : String}
    (htask : s.tasks[t]? = some task) (hs : task.state = .receiving) :
    BringsFrame c (brings c s (.resume t (.frame payload) fresh)) ((s.useId fresh).wake t (.frame payload))
      payload := by
  simp only [brings,htask,hs]
  refine ⟨rfl,fun h => h,fun h => h,fun h => h,fun turnId h => h,fun d identity hd hi => ?_,fun d id hd hi => ?_,
    fun d hd id hi => ?_⟩
  · have hd' : s.decoded c payload = some d := hd
    simp [hd',hi]
  · have hd' : s.decoded c payload = some d := hd
    simp [hd',hi]
  · have hd' : s.decoded c payload = some d := hd
    simpa [hd'] using hi

theorem brings_late {a : Action} : (brings c s a).late = s.terminal.published := by
  unfold brings
  split
  · rfl
  · rfl
  · split
    · rfl
    · split
      all_goals try rfl
      split <;> rfl
  · rfl

theorem brings_fresh {signal : Signal} {fresh : String} : (brings c s (.resume t signal fresh)).fresh = fresh := by
  unfold brings
  dsimp only
  split
  · rfl
  · split
    all_goals try rfl
    split <;> rfl

/-- What follows an accepted send. -/
theorem does_accepted {purpose : Purpose} {event : ClientEvent} {fresh : String} (hl : s.terminal.published → b.late)
    (hf : b.fresh = fresh) (hat : At c s t k (.sending purpose event)) (hb : b.accepts = some (purpose,event)) :
    Does c b t k (Run.ensuring (sent c t fresh purpose) fun s => s.cleanup purpose.frame)
      (s.observe (.accepted t purpose event)) := by
  have hsend : SendAt c (s.observe (.accepted t purpose event)) t k purpose := sendAt_observe hat.1 fun _ _ => by simp
  exact does_cleanup (does_sent hl hf ⟨hsend,List.mem_cons_of_mem _ hat.2.1,hat.2.2⟩ hb) (frameAt_of_sendAt hsend)
    (holds_of_sendAt hsend)

/-- A suspended task that is resumed makes moves only. -/
theorem does_resume {task : Task} {signal : Signal} {fresh : String} {m : Prog A Unit}
    (hp : s.terminal.published → s.terminal.owner.isSome)
    (hn : s.terminal.owner = none → ∀ j reason event, .issued j (.close reason) event ∉ s.log) (htask : s.tasks[t]? = some task)
    (hat : At c s t task.kind task.state) (hm : resumeProg c s t fresh task task.state signal = some m) :
    Does c (brings c s (.resume t signal fresh)) t task.kind m ((s.useId fresh).wake t signal) := by
  have hf : (brings c s (.resume t signal fresh)).fresh = fresh := brings_fresh
  have hl : ((s.useId fresh).wake t signal).terminal.published → (brings c s (.resume t signal fresh)).late := by
    rw [brings_late]
    exact id
  obtain ⟨kind,state,cancel⟩ := task
  dsimp only at hat hm ⊢
  unfold resumeProg at hm
  split at hm
  case h_3 state _ _ =>
    -- any state in which the task may be cancelled
    simp only [Option.ite_none_right_eq_some,Option.some.injEq] at hm
    obtain ⟨_,rfl⟩ := hm
    exact does_cancelled hat
  case h_4 =>
    obtain rfl := Option.some.inj hm
    refine does_startProg hf hp hat ?_ ?_ hn
    · rintro call rfl
      simp only [brings,htask]
    · rintro id output rfl
      simp only [brings,htask]
  case h_5 payload =>
    obtain rfl := Option.some.inj hm
    exact does_receiveFrame hat (bringsFrame_of_receiving htask rfl)
  case h_6 =>
    obtain rfl := Option.some.inj hm
    exact does_receiveEof hl hat
  case h_7 e =>
    simp only [Option.ite_none_left_eq_some,Option.some.injEq] at hm
    obtain ⟨_,rfl⟩ := hm
    exact does_receiveRaised hl hat
  case h_8 purpose event =>
    obtain rfl := Option.some.inj hm
    have hb : (brings c s (.resume t .ready fresh)).accepts = some (purpose,event) := by
      simp only [brings,htask]
    have hwoken : At c ((s.useId fresh).wake t .ready) t kind (.sending purpose event) := hat
    exact within_modify_bind (.single (.accept purpose event hb)) (does_accepted hl hf hwoken hb)
  case h_9 purpose event =>
    obtain rfl := Option.some.inj hm
    exact does_cleanup (does_sendExpired hl hat.1) (frameAt_of_sendAt hat.1) (holds_of_sendAt hat.1)
  case h_10 purpose event e =>
    simp only [Option.ite_none_left_eq_some,Option.some.injEq] at hm
    obtain ⟨_,rfl⟩ := hm
    exact does_cleanup (does_sendRaised hl hat.1) (frameAt_of_sendAt hat.1) (holds_of_sendAt hat.1)
  case h_11 request =>
    simp only [Option.ite_none_right_eq_some,Option.some.injEq] at hm
    obtain ⟨hfree,rfl⟩ := hm
    simp only [Bool.and_eq_true,Option.isNone_iff_eq_none] at hfree
    refine within_modify_bind (.single (.acquire _ hfree.1)) (does_release ?_ (lockFree_of_holder rfl))
    exact does_contextBody hl hf hat.1 rfl hat.2
  case h_12 inj =>
    split at hm
    · obtain rfl := Option.some.inj hm
      exact does_injectionCleanup (does_awaitContextAck hl hf hat.1 hat.2) hat.1.1
    · obtain rfl := Option.some.inj hm
      exact does_injectionCleanup (does_awaitContextAck hl hf hat.1 hat.2) hat.1.1
    · simp at hm
  case h_13 inj =>
    obtain rfl := Option.some.inj hm
    exact does_injectionCleanup (does_contextTimedOut hl hat.1 hat.2) hat.1.1
  case h_14 id =>
    simp only [Option.ite_none_right_eq_some,Option.some.injEq] at hm
    obtain ⟨_,rfl⟩ := hm
    obtain ⟨output,hk⟩ := hat
    exact does_followupStage hf hk (.inr (.inl (by simp only [brings,htask])))
  case h_15 id =>
    obtain rfl := Option.some.inj hm
    exact does_toolAckTimedOut hl hat
  case h_16 reason =>
    split at hm
    · rename_i closed hack
      obtain rfl := Option.some.inj hm
      refine does_finishClose hat ?_
      rintro _ ⟨⟩
      exact hack
    · simp at hm
  case h_17 reason =>
    obtain rfl := Option.some.inj hm
    exact does_closeAckTimedOut hl hat
  case h_18 j id output =>
    simp only [Option.ite_none_right_eq_some,Option.some.injEq] at hm
    obtain ⟨_,rfl⟩ := hm
    have hb : (brings c s (.resume t .ready fresh)).ended = some (j,id,output) := by
      simp only [brings,htask]
    split
    · exact does_swallow (does_attemptEnded hb)
    · exact does_attemptEnded hb
  case h_19 j =>
    simp only [Option.ite_none_right_eq_some,Option.some.injEq] at hm
    obtain ⟨_,rfl⟩ := hm
    exact does_awaitClose hat
  case h_20 call output =>
    obtain rfl := Option.some.inj hm
    exact does_dispatchAnswered hat (by simp only [brings,htask])
  case h_21 call =>
    obtain rfl := Option.some.inj hm
    exact does_dispatchAnswered hat (by simp only [brings,htask])
  case h_22 call e =>
    simp only [Option.ite_none_left_eq_some,Option.some.injEq] at hm
    obtain ⟨_,rfl⟩ := hm
    exact does_dispatchAnswered hat (by simp only [brings,htask])
  case h_23 after =>
    obtain rfl := Option.some.inj hm
    exact does_joinReceiver hat.1 hat.2
  case h_24 after =>
    obtain rfl := Option.some.inj hm
    exact does_joinReceiver hat.1 hat.2
  case h_25 after e =>
    simp only [Option.ite_none_left_eq_some,Option.some.injEq] at hm
    obtain ⟨_,rfl⟩ := hm
    exact does_joinReceiver hat.1 hat.2
  case h_26 after =>
    simp only [Option.ite_none_right_eq_some,Option.some.injEq] at hm
    obtain ⟨_,rfl⟩ := hm
    exact does_shutdownEnded hat.2
  case h_27 after =>
    obtain rfl := Option.some.inj hm
    exact does_shutdownEnded hat.2
  all_goals simp at hm

theorem does_startSession {fresh : String} (hl : s.terminal.published → b.late) (hf : b.fresh = fresh) (hb : b.opens)
    (hk : k = .start) : Does c b t k (startSession c t fresh) s := by
  subst hf
  refine within_get (does_ofExcept fun ea hea => ?_)
  refine within_modify_bind (.single (.build _ (.session ea.1 ea.2 hk hea)))
    (does_sendRuntimeEvent hl ⟨hk,hb⟩ (.session s.adapter ea hk hea) ?_)
  rw [hk]
  trivial

end Session
end HarnessSdk
