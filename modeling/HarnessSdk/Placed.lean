import HarnessSdk.Footprint

/-!
# Where the tasks of a reachable session stand

What a move adds to the log and to the task list is said once. From it follows that between
two steps every task stands where `At` allows, which is what a step needs to make moves only.
-/

namespace HarnessSdk
namespace Session

variable {A : Type} {c : SessionConfig A} {b : Brings} {t : TaskId} {k : TaskKind} {s s' : Session A}

/-! What a move writes into the log. -/

/-- The initiator and the disposition that a close event shows. -/
def closedAs : RealtimeEvent → Option (CloseInitiator × CloseDisposition)
  | .sessionClosed closed => some (closed.initiator,closed.disposition)
  | _ => none

/-- The close task is about to end the stream. -/
def Concluding (s : Session A) (k : TaskKind) : Prop :=
  (∃ reason, k = .controlledClose reason) ∧ s.terminal.closing ∧ ¬s.terminal.published

/-- A terminal is put by the task that claims the session, under that claim, or by the close task. -/
def TerminalPut (s s' : Session A) (k : TaskKind) (event : RealtimeEvent) : Prop :=
  (s.terminal.owner = none ∧ ∀ owner, closedAs event = some owner → s'.terminal.owner = some owner) ∨
  (Concluding s k ∧ (closedAs event = some (.client,.clean) ∨ ∃ closed,
    s.control.ack = some (.acknowledged closed) ∧ closedAs event = some (closed.initiator,closed.disposition)))

/-- The conditions under which a move of a running task from `s` to `s'` records an observation. -/
def Logged (c : SessionConfig A) (b : Brings) (t : TaskId) (k : TaskKind) (s s' : Session A) :
    Observation → Prop
  | .put by_ event _ => by_ = t ∧
      if event.isTerminal then TerminalPut s s' k event else MaySpeak b s ∨ Concluding s k
  | .drained => s.terminal.sequenceStarted = false
  | .delivered _ => False
  | .claimed by_ i d => by_ = t ∧ s.terminal.owner = none ∧ s'.terminal.owner = some (i,d)
  | .issued by_ purpose event => by_ = t ∧ IssueAt c b s t k event purpose
  | .accepted by_ purpose event => by_ = t ∧ b.accepts = some (purpose,event)
  | .submitReturned id output => ∃ j, b.ended = some (j,id,output) ∧ s.outcome j = some .returned
  | .resultAcked id => b.ack = some id ∧ (∃ r, s.record id = some r ∧ r.state = .resultSent) ∧
      ∃ r, s'.record id = some r ∧ r.state = .resultAcked
  | .dispatched call => k = .dispatch call false ∧ s.isActive c
  | .contextAcked requestId _ => s.context.pending.get requestId = some .waiting
  | .keyClaimed by_ key => by_ = t ∧ NotInjected s t ∧ ∃ text role trigger state,
      k = .call (.context (.appendMessage text role trigger (some key))) ∧
      s.shared.state.claimMessage key (c.digest text role trigger) = .ok (none,state) ∧ s'.shared.state = state
  | .keyConfirmed key itemId => ∃ inj, SendAt c s t k (.inject inj) ∧
      .issued t (.inject inj) inj.event ∈ s.log ∧ inj.key = some key ∧ s.context.ackId = some itemId ∧
      s.context.pending.get inj.event.eventId = some .acknowledged

/-- Observations of the queue and the terminal, which may come several in one move. -/
def isStream : Observation → Bool
  | .put .. | .drained | .claimed .. => true
  | _ => false

def isTerminalPut : Observation → Bool
  | .put _ event _ => event.isTerminal
  | _ => false

theorem putTerminalSafe_log (event : RealtimeEvent) : ∃ new,
    (s.putTerminalSafe c t event).log = .put t event s.book :: (new ++ s.log) ∧
      ∀ o ∈ new, o = .drained ∧ s.terminal.sequenceStarted = false := by
  unfold putTerminalSafe
  dsimp only
  split
  · exact ⟨[],rfl,by simp⟩
  · rename_i h
    rw [Bool.not_eq_true,Bool.or_eq_false_iff] at h
    exact ⟨[.drained],rfl,by simp [h.1]⟩

theorem putTerminalSafe_queue (event : RealtimeEvent) :
    event ∈ (s.putTerminalSafe c t event).output.events := by
  unfold putTerminalSafe
  dsimp only
  split <;> simp [put]

theorem publish_log (e : TerminalEvent) (i : CloseInitiator) (d : CloseDisposition) : ∃ new failure,
    (s.publish c t e i d).log = .put t (e.event failure) s.book :: (new ++ .claimed t i d :: s.log) ∧
      (∀ o ∈ new, o = .drained ∧ s.terminal.sequenceStarted = false) ∧
      e.event failure ∈ (s.publish c t e i d).output.events := by
  cases e with
  | failed failed =>
    obtain ⟨new,hlog,hnew⟩ := putTerminalSafe_log (c := c) (t := t)
      (s := ({ s.claim t i d with terminal := { (s.claim t i d).terminal with
        errorCode := (TerminalEvent.failed failed).errorCode } } : Session A).capture c "adapter.apply")
      ((TerminalEvent.failed failed).event (((s.claim t i d).capture c "adapter.apply").failure.context))
    exact ⟨new,_,hlog,hnew,putTerminalSafe_queue _⟩
  | closed closed =>
    obtain ⟨new,hlog,hnew⟩ := putTerminalSafe_log (c := c) (t := t)
      (s := ({ s.claim t i d with terminal := { (s.claim t i d).terminal with
        errorCode := (TerminalEvent.closed closed).errorCode } } : Session A))
      ((TerminalEvent.closed closed).event s.failure.context)
    exact ⟨new,_,hlog,hnew,putTerminalSafe_queue _⟩

@[simp] theorem cancelCloseAck_log : s.cancelCloseAck.log = s.log := by rw [cancelCloseAck_frame]

@[simp] theorem cancelCloseAck_terminal : s.cancelCloseAck.terminal = s.terminal := by
  rw [cancelCloseAck_frame]

theorem settleResponse_log : ∃ new, (s.settleResponse c t).log = new ++ s.log ∧
    (∀ o ∈ new, o = .drained ∧ s.terminal.sequenceStarted = false ∨
      ∃ event book, o = .put t event book ∧ event.isTerminal = false) ∧
    ((s.settleResponse c t).terminal.sequenceStarted = false → s.terminal.sequenceStarted = false) := by
  unfold settleResponse
  split
  · exact ⟨[],rfl,by simp,id⟩
  · rename_i id _
    let event : RealtimeEvent :=
      .provider (.responseFinished { responseId := id, status := .cancelled, isLocal := true })
    obtain ⟨new,hlog,hnew⟩ := putTerminalSafe_log (c := c) (t := t) (s := s) event
    refine ⟨.put t event s.book :: new,hlog,?_,fun h => ?_⟩
    · intro o ho
      rcases List.mem_cons.mp ho with rfl | ho
      · exact .inr ⟨event,_,rfl,rfl⟩
      · exact .inl (hnew o ho)
    · simp only [addTerminalResponse] at h
      rw [putTerminalSafe_frame] at h
      simp at h

theorem concludeClose_log (reason : String) (ack : Option SessionClosed) : ∃ new, ∃ u : Session A,
    (s.concludeClose c t reason ack).log = .put t (u.closedEvent reason ack) u.book :: (new ++ s.log) ∧
      (∀ o ∈ new, o = .drained ∧ s.terminal.sequenceStarted = false ∨
        ∃ event book, o = .put t event book ∧ event.isTerminal = false) ∧
      u.closedEvent reason ack ∈ (s.concludeClose c t reason ack).output.events := by
  obtain ⟨new,hlog,hnew,hseq⟩ := settleResponse_log (c := c) (t := t) (s := s.cancelCloseAck)
  obtain ⟨new',hlog',hnew'⟩ := putTerminalSafe_log (c := c) (t := t) (s := s.cancelCloseAck.settleResponse c t)
    ((s.cancelCloseAck.settleResponse c t).closedEvent reason ack)
  simp only [cancelCloseAck_log,cancelCloseAck_terminal] at hlog hnew hseq
  refine ⟨new' ++ new,s.cancelCloseAck.settleResponse c t,?_,?_,putTerminalSafe_queue _⟩
  · simp only [concludeClose,putTerminal]
    rw [hlog',hlog,List.append_assoc]
  · intro o ho
    rcases List.mem_append.mp ho with ho | ho
    · exact .inl ⟨(hnew' o ho).1,hseq (hnew' o ho).2⟩
    · exact hnew o ho

@[simp] theorem event_isTerminal (failure : Option RealtimeFailureContext) (e : TerminalEvent) :
    (e.event failure).isTerminal := by cases e <;> rfl

@[simp] theorem closedEvent_isTerminal (reason : String) (ack : Option SessionClosed) :
    (s.closedEvent reason ack).isTerminal := by cases ack <;> rfl

theorem closedAs_event {failure : Option RealtimeFailureContext} {e : TerminalEvent}
    {owner : CloseInitiator × CloseDisposition} (h : closedAs (e.event failure) = some owner) :
    ∃ closed, e = .closed closed ∧ owner = (closed.initiator,closed.disposition) := by
  cases e with
  | failed failed => simp [TerminalEvent.event,closedAs] at h
  | closed closed => exact ⟨closed,rfl,(Option.some.inj h).symm⟩

theorem acknowledgeContext_log (d : DecodedProviderEvent) : (s.acknowledgeContext d).log = s.log ∨
    ∃ requestId itemId, (s.acknowledgeContext d).log = .contextAcked requestId itemId :: s.log ∧
      s.context.pending.get requestId = some .waiting := by
  unfold acknowledgeContext
  split
  · exact .inl rfl
  · rename_i requestId _
    split
    · split
      · rename_i itemId _
        exact .inr ⟨requestId,itemId,rfl,‹_›⟩
      · exact .inl rfl
    · exact .inl rfl

/-- What a move adds to the log, newest first: a terminal comes last, and an observation that is not of
the stream comes alone. -/
def LogGrows (c : SessionConfig A) (b : Brings) (t : TaskId) (k : TaskKind) (s s' : Session A) : Prop :=
  ∃ new, s'.log = new ++ s.log ∧ (∀ o ∈ new, Logged c b t k s s' o) ∧
    (∀ o ∈ new.tail, isTerminalPut o = false) ∧ ((∀ o ∈ new, isStream o) ∨ ∃ o, new = [o])

theorem logGrows_same (h : s'.log = s.log) : LogGrows c b t k s s' := ⟨[],h,by simp,by simp,.inl (by simp)⟩

theorem logGrows_one {o : Observation} (h : s'.log = o :: s.log) (ho : Logged c b t k s s' o) :
    LogGrows c b t k s s' := ⟨[o],h,by simpa using ho,by simp,.inr ⟨o,rfl⟩⟩

theorem endResponse_log (response : ResponseFinished) (batch : Bool) :
    ∃ new, (s.endResponse c t response batch).log =
        .put t (.provider (.responseFinished response)) (s.addTerminalResponse response.responseId).book ::
          (new ++ s.log) ∧
      ∀ o ∈ new, o = .drained ∧ s.terminal.sequenceStarted = false := by
  unfold endResponse
  split
  · exact putTerminalSafe_log (s := s.addTerminalResponse response.responseId) _
  · exact ⟨[],rfl,by simp⟩

theorem logGrows_finish (response : ResponseFinished) (batch : Bool) (h : MaySpeak b s) :
    LogGrows c b t k s (s.endResponse c t response batch) := by
  obtain ⟨new,hlog,hnew⟩ := endResponse_log (c := c) (t := t) (s := s) response batch
  refine ⟨_ :: new,hlog,fun o ho => ?_,fun o ho => ?_,
    .inl fun o ho => ?_⟩
  · rcases List.mem_cons.mp ho with rfl | ho
    · simp [Logged,h,RealtimeEvent.isTerminal]
    · obtain ⟨rfl,hs⟩ := hnew o ho
      exact hs
  · rw [(hnew o ho).1]
    rfl
  · rcases List.mem_cons.mp ho with rfl | ho
    · rfl
    · rw [(hnew o ho).1]
      rfl

theorem logGrows_publish (e : TerminalEvent) (i : CloseInitiator) (d : CloseDisposition)
    (h : s.terminal.owner = none)
    (hh : ∀ closed, e = .closed closed → i = closed.initiator ∧ d = closed.disposition) :
    LogGrows c b t k s (s.publish c t e i d) := by
  obtain ⟨new,failure,hlog,hnew,_⟩ := publish_log (c := c) (t := t) (s := s) e i d
  have howner : (s.publish c t e i d).terminal.owner = some (i,d) := by rw [publish_frame]
  have hall : ∀ o ∈ new ++ [Observation.claimed t i d], o = .drained ∧ s.terminal.sequenceStarted = false ∨
      o = .claimed t i d := by
    intro o ho
    rcases List.mem_append.mp ho with ho | ho
    · exact .inl (hnew o ho)
    · exact .inr (List.mem_singleton.mp ho)
  refine ⟨.put t (e.event failure) s.book :: (new ++ [Observation.claimed t i d]),by simp [hlog],fun o ho => ?_,fun o ho => ?_,
    .inl fun o ho => ?_⟩
  · rcases List.mem_cons.mp ho with rfl | ho
    · refine ⟨rfl,?_⟩
      rw [if_pos (event_isTerminal failure e)]
      refine .inl ⟨h,fun owner hc => ?_⟩
      obtain ⟨closed,rfl,rfl⟩ := closedAs_event hc
      rw [howner,(hh closed rfl).1,(hh closed rfl).2]
    · obtain ⟨rfl,hs⟩ | rfl := hall o ho
      · exact hs
      · exact ⟨rfl,h,howner⟩
  · obtain ⟨rfl,_⟩ | rfl := hall o ho <;> rfl
  · rcases List.mem_cons.mp ho with rfl | ho
    · rfl
    · obtain ⟨rfl,_⟩ | rfl := hall o ho <;> rfl

theorem logGrows_conclude (reason : String) (ack : Option SessionClosed) (h : Concluding s k)
    (hack : ∀ closed, ack = some closed → s.control.ack = some (.acknowledged closed)) :
    LogGrows c b t k s (s.concludeClose c t reason ack) := by
  obtain ⟨new,u,hlog,hnew,_⟩ := concludeClose_log (c := c) (t := t) (s := s) reason ack
  refine ⟨.put t (u.closedEvent reason ack) u.book :: new,hlog,fun o ho => ?_,fun o ho => ?_,.inl fun o ho => ?_⟩
  · rcases List.mem_cons.mp ho with rfl | ho
    · refine ⟨rfl,?_⟩
      rw [if_pos (closedEvent_isTerminal reason ack)]
      refine .inr ⟨h,?_⟩
      cases ack with
      | none => exact .inl rfl
      | some closed => exact .inr ⟨closed,hack closed rfl,rfl⟩
    · obtain ⟨rfl,hs⟩ | ⟨event,_,rfl,he⟩ := hnew o ho
      · exact hs
      · exact ⟨rfl,by simp [he,h]⟩
  · obtain ⟨rfl,_⟩ | ⟨event,_,rfl,he⟩ := hnew o ho
    · rfl
    · exact he
  · rcases List.mem_cons.mp ho with rfl | ho
    · rfl
    · obtain ⟨rfl,_⟩ | ⟨event,_,rfl,_⟩ := hnew o ho <;> rfl

theorem Move.log_grows (h : Move c b t k s s') : LogGrows c b t k s s' := by
  cases h
  case transcribed turnId text h hs hh hroom => exact logGrows_one rfl ⟨rfl,by simp [h,RealtimeEvent.isTerminal]⟩
  case put event hat h hh hroom _ _ => exact logGrows_one rfl ⟨rfl,by simp [h,hh]⟩
  case finish response batch h hr hh hroom _ => exact logGrows_finish response batch h
  case publish e i d h hh => exact logGrows_publish e i d h hh
  case conclude reason ack hk h hh hack => exact logGrows_conclude reason ack ⟨⟨reason,hk⟩,h,hh⟩ hack
  case claimClean reason hk h => exact logGrows_one rfl ⟨rfl,h,rfl⟩
  case register call h hh hg => exact logGrows_same (by rw [registerTool_frame])
  case followup id output r event hk hr h _ => exact logGrows_same (by rw [requestFollowup_frame])
  case introduce => exact logGrows_same (by rw [introduce_frame])
  case ackResult id r h hr hs =>
    refine logGrows_one rfl ⟨h,⟨r,hr,hs⟩,{ r with state := .resultAcked, ack := true },?_,rfl⟩
    simp [observe,record,setRecord]
  case issue purpose event h _ => exact logGrows_one rfl ⟨rfl,h⟩
  case accept purpose event h => exact logGrows_one rfl ⟨rfl,h⟩
  case submitReturned j id output h hh => exact logGrows_one rfl ⟨j,h,hh⟩
  case dispatched call hk h => exact logGrows_one rfl ⟨hk,h⟩
  case ackContext d _ =>
    obtain h | ⟨requestId,itemId,h,hw⟩ := acknowledgeContext_log (s := s) d
    · exact logGrows_same h
    · exact logGrows_one h hw
  case claimKey key text role trigger state hk h hn hh =>
    exact logGrows_one rfl ⟨rfl,hn,text,role,trigger,state,hk,hh,rfl⟩
  case confirmKey inj key itemId state h hi hkey ha hp hh =>
    exact logGrows_one rfl ⟨inj,h,hi,hkey,ha,hp⟩
  all_goals exact logGrows_same rfl

/-! What a move does to the tasks. -/

/-- The kind and the state of a task. -/
def place (s : Session A) (j : TaskId) : Option (TaskKind × TaskState) :=
  (s.tasks[j]?).map fun task => (task.kind,task.state)

theorem place_eq_some {j : TaskId} {p : TaskKind × TaskState} :
    s.place j = some p ↔ ∃ task, s.tasks[j]? = some task ∧ (task.kind,task.state) = p := by
  simp [place]

theorem place_lt {j : TaskId} {p : TaskKind × TaskState} (h : s.place j = some p) : j < s.tasks.length := by
  obtain ⟨task,ht,_⟩ := place_eq_some.mp h
  exact (List.getElem?_eq_some_iff.mp ht).1

theorem outcome_eq_some {j : TaskId} {o : TaskOutcome} :
    s.outcome j = some o ↔ ∃ kind, s.place j = some (kind,.finished o) := by
  unfold outcome taskState place
  cases s.tasks[j]? with
  | none => simp
  | some task =>
    obtain ⟨kind,state,_⟩ := task
    cases state <;> simp

theorem requestCancel_place {p : TaskId → TaskKind → Bool} (j : TaskId) :
    (s.requestCancel p).place j = s.place j := by
  simp only [requestCancel,place,List.getElem?_mapIdx]
  cases s.tasks[j]? with
  | none => rfl
  | some task =>
    obtain ⟨kind,state,_⟩ := task
    cases state <;> rfl

theorem beginShutdown_place (j : TaskId) : (s.beginShutdown t).place j = s.place j := by
  have hplace : ∀ p, (s.requestCancel p).place j = s.place j := fun _ => requestCancel_place j
  simp only [place,beginShutdown] at hplace ⊢
  exact hplace _

/-- The conditions under which a move of a task of kind `k` from `s` to `s'` creates a task. -/
def Spawned (c : SessionConfig A) (b : Brings) (k : TaskKind) (s s' : Session A) : TaskKind → Prop
  | .receiver => k = .start
  | .controlledClose reason => k = .call (.close reason) ∧ s.control.task = none ∧
      s'.control.task = some s.tasks.length ∧ s'.control.reason = some reason
  | .attempt id output => b.submits = some (id,output) ∧
      ∃ r, s.record id = some r ∧ s.liveAttempt r = none ∧ (∀ o, r.output = some o → o = output) ∧
        s'.tools = { s.tools with records := s.tools.records.set id { r with attempt := some s.tasks.length } }
  | .dispatch call invalid => call.callId ∉ s.tools.records ∧ call.callId ∉ s.shared.state.toolCalls ∧
      call.generation = c.generation ∧ invalid = invalidToolArguments c call ∧ s' = s.registerTool c call
  | .start | .call _ => False

theorem registerTool_tasks (call : ToolCallRequested) :
    ((s.registerTool c call).tasks.length = s.tasks.length ∧ ∀ j, (s.registerTool c call).place j = s.place j) ∨
      (s.registerTool c call).tasks =
        s.tasks ++ [{ kind := .dispatch call (invalidToolArguments c call), state := .created }] := by
  simp only [registerTool]
  split
  · exact .inr rfl
  · exact .inl ⟨rfl,fun _ => rfl⟩

/-- A move leaves every task in its place and creates at most one. -/
theorem Move.tasks_grow (h : Move c b t k s s') :
    (s'.tasks.length = s.tasks.length ∧ ∀ j, s'.place j = s.place j) ∨
      ∃ kind, Spawned c b k s s' kind ∧ s'.tasks = s.tasks ++ [{ kind, state := .created }] := by
  cases h
  case finish => exact .inl ⟨by rw [endResponse_frame],fun _ => by rw [endResponse_frame]; rfl⟩
  case publish => exact .inl ⟨by rw [publish_frame],fun _ => by rw [publish_frame]; rfl⟩
  case conclude => exact .inl ⟨by rw [concludeClose_frame],fun _ => by rw [concludeClose_frame]; rfl⟩
  case followup => exact .inl ⟨by rw [requestFollowup_frame],fun _ => by rw [requestFollowup_frame]; rfl⟩
  case introduce => exact .inl ⟨by rw [introduce_frame],fun _ => by rw [introduce_frame]; rfl⟩
  case ackContext => exact .inl ⟨by rw [acknowledgeContext_frame],fun _ => by rw [acknowledgeContext_frame]; rfl⟩
  case shutdown h => exact .inl ⟨by simp [beginShutdown,requestCancel],fun j => beginShutdown_place j⟩
  case cancelReceiver => exact .inl ⟨by simp [requestCancel],fun j => requestCancel_place j⟩
  case spawnReceiver hk => exact .inr ⟨.receiver,hk,rfl⟩
  case spawnClose reason hk h => exact .inr ⟨.controlledClose reason,⟨hk,h,rfl,rfl⟩,rfl⟩
  case spawnAttempt id output r h hr hlive ho => exact .inr ⟨.attempt id output,⟨h,r,hr,hlive,ho,rfl⟩,rfl⟩
  case register call h hh hg =>
    obtain ⟨htasks,hplace⟩ | htasks := registerTool_tasks (c := c) (s := s) call
    · exact .inl ⟨htasks,hplace⟩
    · exact .inr ⟨.dispatch call (invalidToolArguments c call),⟨h,hh,hg,rfl,rfl⟩,htasks⟩
  all_goals exact .inl ⟨rfl,fun _ => rfl⟩

theorem Move.length_le (h : Move c b t k s s') : s.tasks.length ≤ s'.tasks.length := by
  obtain ⟨hlen,_⟩ | ⟨kind,_,hnew⟩ := h.tasks_grow
  · exact hlen.ge
  · simp [hnew]

theorem Move.place_kept (h : Move c b t k s s') {j : TaskId} {p : TaskKind × TaskState}
    (hp : s.place j = some p) : s'.place j = some p := by
  obtain ⟨_,hplace⟩ | ⟨kind,_,hnew⟩ := h.tasks_grow
  · rw [hplace,hp]
  · rw [place,hnew,List.getElem?_append_left (place_lt hp)]
    exact hp

theorem Move.place_cases (h : Move c b t k s s') {j : TaskId} {p : TaskKind × TaskState}
    (hp : s'.place j = some p) :
    s.place j = some p ∨ j = s.tasks.length ∧ p.2 = .created ∧ Spawned c b k s s' p.1 := by
  obtain ⟨_,hplace⟩ | ⟨kind,hs,hnew⟩ := h.tasks_grow
  · exact .inl (by rwa [← hplace])
  · obtain ⟨task,ht,rfl⟩ := place_eq_some.mp hp
    rw [hnew,List.getElem?_append] at ht
    split at ht
    · exact .inl (place_eq_some.mpr ⟨task,ht,rfl⟩)
    · rename_i hlt
      obtain ⟨hj,rfl⟩ : j - s.tasks.length = 0 ∧ _ = task := by simpa [List.getElem?_singleton] using ht
      exact .inr ⟨Nat.le_antisymm (Nat.sub_eq_zero_iff_le.mp hj) (not_lt.mp hlt),rfl,hs⟩

/-! What a move does to the terminal, the close task and the lock. -/

/-- The terminal changes in three ways: it is claimed and published at once, claimed for a clean close,
or published by the close task. -/
theorem Move.terminal_cases (h : Move c b t k s s') :
    (s'.terminal.owner = s.terminal.owner ∧ s'.terminal.closing = s.terminal.closing ∧
      s'.terminal.published = s.terminal.published) ∨
    (s.terminal.owner = none ∧ s'.terminal.owner.isSome ∧ s'.terminal.closing = s.terminal.closing ∧
      s'.terminal.published) ∨
    ((∃ reason, k = .controlledClose reason) ∧ s.terminal.owner = none ∧
      s'.terminal.owner = some (.client,.clean) ∧ s'.terminal.closing ∧
      s'.terminal.published = s.terminal.published) ∨
    (Concluding s k ∧ s'.terminal.owner = s.terminal.owner ∧ s'.terminal.closing = s.terminal.closing ∧
      s'.terminal.published) := by
  cases h
  case finish => exact .inl (by rw [endResponse_frame]; exact ⟨rfl,rfl,rfl⟩)
  case publish e i d h _ => exact .inr (.inl (by rw [publish_frame]; exact ⟨h,rfl,rfl,rfl⟩))
  case claimClean reason hk h => exact .inr (.inr (.inl ⟨⟨reason,hk⟩,h,rfl,rfl,rfl⟩))
  case conclude reason ack hk h hh _ =>
    exact .inr (.inr (.inr (by rw [concludeClose_frame]; exact ⟨⟨⟨reason,hk⟩,h,hh⟩,rfl,rfl,rfl⟩)))
  case register => exact .inl (by rw [registerTool_frame]; exact ⟨rfl,rfl,rfl⟩)
  case followup => exact .inl (by rw [requestFollowup_frame]; exact ⟨rfl,rfl,rfl⟩)
  case introduce => exact .inl (by rw [introduce_frame]; exact ⟨rfl,rfl,rfl⟩)
  case ackContext => exact .inl (by rw [acknowledgeContext_frame]; exact ⟨rfl,rfl,rfl⟩)
  all_goals exact .inl ⟨rfl,rfl,rfl⟩

theorem Move.control_cases (h : Move c b t k s s') :
    (s'.control.task = s.control.task ∧ s'.control.reason = s.control.reason) ∨
    (s.control.task = none ∧ s'.control.task = some s.tasks.length ∧ ∃ reason,
      s'.control.reason = some reason ∧ s'.place s.tasks.length = some (.controlledClose reason,.created)) := by
  cases h
  case finish => exact .inl (by rw [endResponse_frame]; exact ⟨rfl,rfl⟩)
  case publish => exact .inl (by rw [publish_frame]; exact ⟨rfl,rfl⟩)
  case conclude => exact .inl (by rw [concludeClose_frame]; exact ⟨rfl,rfl⟩)
  case spawnClose reason hk h =>
    exact .inr ⟨h,rfl,reason,rfl,by simp [place,spawn]⟩
  case register => exact .inl (by rw [registerTool_frame]; exact ⟨rfl,rfl⟩)
  case followup => exact .inl (by rw [requestFollowup_frame]; exact ⟨rfl,rfl⟩)
  case introduce => exact .inl (by rw [introduce_frame]; exact ⟨rfl,rfl⟩)
  case ackContext => exact .inl (by rw [acknowledgeContext_frame]; exact ⟨rfl,rfl⟩)
  all_goals exact .inl ⟨rfl,rfl⟩

/-- Nobody takes the lock from another task. -/
theorem Move.holder_kept (h : Move c b t k s s') {j : TaskId} (hj : j ≠ t)
    (hs : s.context.holder = some j) : s'.context.holder = some j := by
  cases h
  case acquire h => simp [h] at hs
  case release h => exact absurd (h j hs) hj
  case finish => rw [endResponse_frame]; exact hs
  case publish => rw [publish_frame]; exact hs
  case conclude => rw [concludeClose_frame]; exact hs
  case register => rw [registerTool_frame]; exact hs
  case followup => rw [requestFollowup_frame]; exact hs
  case introduce => rw [introduce_frame]; exact hs
  case ackContext => rw [acknowledgeContext_frame]; exact hs
  all_goals exact hs

/-! Tasks that do not run. -/

/-- What may change under a suspended task `j` of kind `kind`. -/
structure Keeps (s s' : Session A) (j : TaskId) (kind : TaskKind) : Prop where
  closing : (∃ reason, kind = .controlledClose reason) → s'.terminal.closing = s.terminal.closing ∧
    (s.terminal.closing → s'.terminal.published = s.terminal.published)
  published : s.terminal.published → s'.terminal.published
  control : ∀ i, s.control.task = some i →
    s'.control.task = some i ∧ s'.control.reason = s.control.reason
  holder : s.context.holder = some j → s'.context.holder = some j
  log : ∀ o ∈ s.log, o ∈ s'.log
  mine : ∀ purpose event, .issued j purpose event ∈ s'.log → .issued j purpose event ∈ s.log

theorem Keeps.notTriggered {j : TaskId} {kind : TaskKind} (h : Keeps s s' j kind) (hs : NotTriggered s j) :
    NotTriggered s' j := fun inj event hn => hs inj event (h.mine _ _ hn)

theorem Keeps.sendAt {j : TaskId} {kind : TaskKind} (h : Keeps s s' j kind) {purpose : Purpose}
    (hs : SendAt c s j kind purpose) : SendAt c s' j kind purpose := by
  cases purpose
  case inject inj => exact ⟨h.holder hs.1,h.notTriggered hs.2.1,hs.2.2⟩
  case trigger inj => exact ⟨h.holder hs.1,hs.2⟩
  case close reason =>
    obtain ⟨hk,hc,hp⟩ := hs
    obtain ⟨hclosing,hpublished⟩ := h.closing ⟨reason,hk⟩
    exact ⟨hk,by rw [hclosing,hc],by rwa [hpublished hc]⟩
  all_goals exact hs

theorem Keeps.frameAt {j : TaskId} {kind : TaskKind} (h : Keeps s s' j kind) {frame : Frame}
    (hs : FrameAt s j frame) : FrameAt s' j frame := by
  cases frame
  case lock => exact h.holder hs
  case injection => exact h.holder hs
  all_goals trivial

theorem Keeps.afterAt {j : TaskId} {kind : TaskKind} (h : Keeps s s' j kind) {after : After}
    (hs : AfterAt s j kind after) : AfterAt s' j kind after := by
  cases after with
  | done => exact hs
  | raise error frame => exact ⟨h.frameAt hs.1,hs.2⟩

/-- A suspended task stays in its place while another one runs. -/
theorem Keeps.stays {j : TaskId} {kind : TaskKind} (h : Keeps s s' j kind) {state : TaskState}
    (hs : At c s j kind state) : At c s' j kind state := by
  cases state
  case created =>
    obtain ⟨hc,hh⟩ := hs
    refine ⟨fun reason hk => ?_,hh⟩
    rw [(h.closing ⟨reason,hk⟩).1]
    exact hc reason hk
  case sending purpose event => exact ⟨h.sendAt hs.1,h.log _ hs.2.1,hs.2.2⟩
  case awaitingLock request =>
    exact ⟨hs.1,fun inj event => ⟨fun hn => (hs.2 inj event).1 (h.mine _ _ hn),
      fun hn => (hs.2 inj event).2 (h.mine _ _ hn)⟩⟩
  case awaitingContextAck inj => exact ⟨h.sendAt hs.1,h.log _ hs.2⟩
  case awaitingCloseAck reason =>
    have hsend : SendAt c s j kind (.close reason) := hs
    exact h.sendAt hsend
  case awaitingClose i =>
    obtain ⟨hi,reason,hk,hr⟩ := hs
    obtain ⟨htask,hreason⟩ := h.control i hi
    exact ⟨htask,reason,hk,by rw [hreason,hr]⟩
  case closingConnection after => exact ⟨h.published hs.1,h.afterAt hs.2⟩
  case joiningReceiver after => exact ⟨h.published hs.1,h.afterAt hs.2⟩
  all_goals exact hs

/-! The invariant of a session between and within its steps. -/

/-- Facts about the terminal, the close task and the log that hold at every moment. -/
structure Settled (s : Session A) : Prop where
  owned : s.terminal.published → s.terminal.owner.isSome
  settled : s.terminal.owner.isSome → s.terminal.closing ∨ s.terminal.published
  clean : s.terminal.closing → s.terminal.owner = some (.client,.clean) ∧ s.control.task.isSome
  closer : ∀ j, s.control.task = some j → ∃ reason state,
    s.control.reason = some reason ∧ s.place j = some (.controlledClose reason,state)
  only : ∀ j reason state, s.place j = some (.controlledClose reason,state) → s.control.task = some j
  issued : ∀ j purpose event, .issued j purpose event ∈ s.log → j < s.tasks.length
  unclosed : s.terminal.owner = none → ∀ j reason event, .issued j (.close reason) event ∉ s.log

/-- Between two steps. -/
structure Placed (c : SessionConfig A) (s : Session A) : Prop extends Settled s where
  stands : ∀ j kind state, s.place j = some (kind,state) → At c s j kind state

/-- While task `t` of kind `k` runs. -/
structure Running (c : SessionConfig A) (s : Session A) (t : TaskId) (k : TaskKind) : Prop extends Settled s where
  here : s.place t = some (k,.running)
  others : ∀ j kind state, j ≠ t → s.place j = some (kind,state) → At c s j kind state

theorem Move.keeps (h : Move c b t k s s') (hs : Running c s t k) {j : TaskId} {kind : TaskKind}
    {state : TaskState} (hj : j ≠ t) (hp : s.place j = some (kind,state)) : Keeps s s' j kind := by
  obtain ⟨new,hlog,hnew,_⟩ := h.log_grows
  -- two close tasks would both be the one that the session remembers
  have hclose : ∀ r r', kind = .controlledClose r → k = .controlledClose r' → False := by
    rintro r r' rfl rfl
    exact hj (Option.some.inj ((hs.only _ _ _ hp).symm.trans (hs.only _ _ _ hs.here)))
  refine ⟨?_,?_,fun i hi => ?_,h.holder_kept hj,fun o ho => ?_,fun purpose event ho => ?_⟩
  · rintro ⟨r,hr⟩
    obtain ⟨_,hc,hp'⟩ | ⟨ho,_,hc,hp'⟩ | ⟨⟨r',hr'⟩,_⟩ | ⟨⟨⟨r',hr'⟩,_⟩,_⟩ := h.terminal_cases
    · exact ⟨hc,fun _ => hp'⟩
    · exact ⟨hc,fun hclosing => by simp [(hs.clean hclosing).1] at ho⟩
    · exact (hclose r r' hr hr').elim
    · exact (hclose r r' hr hr').elim
  · intro hpub
    obtain ⟨_,_,hp'⟩ | ⟨_,_,_,hp'⟩ | ⟨_,_,_,_,hp'⟩ | ⟨_,_,_,hp'⟩ := h.terminal_cases
    · rwa [hp']
    · exact hp'
    · rwa [hp']
    · exact hp'
  · obtain ⟨htask,hreason⟩ | ⟨hnone,_⟩ := h.control_cases
    · exact ⟨by rw [htask,hi],hreason⟩
    · simp [hnone] at hi
  · rw [hlog]
    exact List.mem_append_right _ ho
  · rw [hlog] at ho
    obtain ho | ho := List.mem_append.mp ho
    · exact absurd (hnew _ ho).1 hj
    · exact ho

theorem Move.settled (h : Move c b t k s s') (hs : Running c s t k) : Settled s' := by
  obtain ⟨new,hlog,hnew,_⟩ := h.log_grows
  have hk : ∀ reason, k = .controlledClose reason → s.control.task = some t := fun reason hk => by
    have hh := hs.here
    rw [hk] at hh
    exact hs.only _ _ _ hh
  have htask : s.control.task.isSome → s'.control.task.isSome := fun hsome => by
    obtain ⟨ht,_⟩ | ⟨hn,_⟩ := h.control_cases
    · rwa [ht]
    · simp [hn] at hsome
  refine ⟨?_,?_,?_,fun j hj => ?_,fun j reason state hj => ?_,fun j purpose event hj => ?_,
    fun ho j reason event hj => ?_⟩
  · obtain ⟨ho,_,hp⟩ | ⟨_,ho,_⟩ | ⟨_,_,ho,_⟩ | ⟨⟨_,hc,_⟩,ho,_⟩ := h.terminal_cases
    · rw [ho,hp]
      exact hs.owned
    · exact fun _ => ho
    · simp [ho]
    · simp [ho,(hs.clean hc).1]
  · obtain ⟨ho,hc,hp⟩ | ⟨_,_,_,hp⟩ | ⟨_,_,_,hc,_⟩ | ⟨_,_,_,hp⟩ := h.terminal_cases
    · rw [ho,hc,hp]
      exact hs.settled
    · exact fun _ => .inr hp
    · exact fun _ => .inl hc
    · exact fun _ => .inr hp
  · obtain ⟨ho,hc,_⟩ | ⟨hn,_,hc,_⟩ | ⟨⟨reason,hr⟩,_,ho,_⟩ | ⟨_,ho,hc,_⟩ := h.terminal_cases
    · rw [ho,hc]
      exact fun hclosing => ⟨(hs.clean hclosing).1,htask (hs.clean hclosing).2⟩
    · rw [hc]
      exact fun hclosing => by simp [(hs.clean hclosing).1] at hn
    · exact fun _ => ⟨ho,htask (by simp [hk reason hr])⟩
    · rw [ho,hc]
      exact fun hclosing => ⟨(hs.clean hclosing).1,htask (hs.clean hclosing).2⟩
  · obtain ⟨ht,hr⟩ | ⟨_,ht,reason,hr,hp⟩ := h.control_cases
    · rw [ht] at hj
      obtain ⟨reason,state,hreason,hp⟩ := hs.closer j hj
      exact ⟨reason,state,by rw [hr,hreason],h.place_kept hp⟩
    · obtain rfl := Option.some.inj (hj.symm.trans ht)
      exact ⟨reason,_,hr,hp⟩
  · obtain hp | ⟨rfl,_,hspawn⟩ := h.place_cases hj
    · have hold := hs.only j reason state hp
      obtain ⟨ht,_⟩ | ⟨hn,_⟩ := h.control_cases
      · rw [ht,hold]
      · simp [hn] at hold
    · exact hspawn.2.2.1
  · rw [hlog] at hj
    obtain hj | hj := List.mem_append.mp hj
    · obtain rfl := (hnew _ hj).1
      exact (place_lt hs.here).trans_le h.length_le
    · exact (hs.issued j purpose event hj).trans_le h.length_le
  · have hfree : s.terminal.owner = none := by
      obtain ⟨ho',_⟩ | ⟨hn,_⟩ | ⟨_,hn,_⟩ | ⟨_,ho',_⟩ := h.terminal_cases
      · rw [← ho',ho]
      · exact hn
      · exact hn
      · rw [← ho',ho]
    rw [hlog] at hj
    obtain hj | hj := List.mem_append.mp hj
    · obtain ⟨_,⟨_,hc,_⟩,_⟩ := hnew _ hj
      simp [(hs.clean hc).1] at hfree
    · exact hs.unclosed hfree j reason event hj

/-- A move of the running task leaves it running and the other tasks in their places. -/
theorem Move.running (h : Move c b t k s s') (hs : Running c s t k) : Running c s' t k where
  toSettled := h.settled hs
  here := h.place_kept hs.here
  others j kind state hj hp := by
    obtain hold | ⟨rfl,rfl,hspawn⟩ := h.place_cases hp
    · exact (h.keeps hs hj hold).stays (hs.others j kind state hj hold)
    · refine ⟨?_,?_,?_⟩
      · rintro reason rfl
        -- the session had no close task, so it was not closing
        obtain ⟨rfl,hn,_⟩ := hspawn
        have hc : ¬s.terminal.closing := fun hc => by
          have hh := (hs.clean hc).2
          simp [hn] at hh
        obtain ⟨_,hc',_⟩ | ⟨_,_,hc',_⟩ | ⟨⟨_,hk⟩,_⟩ | ⟨⟨⟨_,hk⟩,_⟩,_⟩ := h.terminal_cases
        · rwa [hc']
        · rwa [hc']
        · simp at hk
        · simp at hk
      · rintro rfl
        exact hspawn
      · rintro call rfl
        exact hspawn

theorem Running.moves (hs : Running c s t k) (h : Moves c b t k s s') : Running c s' t k :=
  moves_keep (I := fun s => Running c s t k) (fun _ _ hm hs => hm.running hs) h hs

/-! Steps. -/

/-- In the step `a` of `s`, task `t` of kind `k` runs the program `m` from `u`. -/
inductive Stretch (c : SessionConfig A) (s : Session A) :
    Action → TaskId → TaskKind → Prog A Unit → Session A → Prop
  | call (call : Call) (fresh : String) (h : fresh ∉ s.usedIds) :
      Stretch c s (.call call fresh) s.tasks.length (.call call) (callProg c s.tasks.length fresh call)
        { s.useId fresh with tasks := s.tasks ++ [{ kind := .call call, state := .running }] }
  | resume (t : TaskId) (signal : Signal) (fresh : String) (task : Task) (m : Prog A Unit)
      (h : fresh ∉ s.usedIds) (htask : s.tasks[t]? = some task)
      (hm : resumeProg c s t fresh task task.state signal = some m) :
      Stretch c s (.resume t signal fresh) t task.kind m ((s.useId fresh).wake t signal)

/-- Where a program leaves its task. -/
def rest : Outcome (Session A) TaskState Exn Unit → TaskState
  | .ok _ _ => .finished .returned
  | .raise e _ => .finished (.raised e)
  | .park p _ => p

theorem runTask_eq (m : Prog A Unit) : runTask t m s = (m s).state.setTask t (rest (m s)) := by
  unfold runTask
  cases m s <;> rfl

theorem step_cases {a : Action} (h : step c s a = some s') :
    (∃ t k m u, Stretch c s a t k m u ∧ s' = (m u).state.setTask t (rest (m u))) ∨
      (a = .consume ∧ s.consume c = some s') ∨ ∃ shared, a = .interfere shared ∧ s' = { s with shared } := by
  cases a with
  | call call fresh =>
    simp only [step,Option.ite_none_left_eq_some,Option.some.injEq] at h
    obtain ⟨hf,rfl⟩ := h
    exact .inl ⟨_,_,_,_,.call call fresh hf,runTask_eq _⟩
  | resume t signal fresh =>
    simp only [step,Option.ite_none_left_eq_some] at h
    obtain ⟨hf,h⟩ := h
    obtain ⟨task,htask,h⟩ := Option.bind_eq_some_iff.mp h
    obtain ⟨m,hm,h⟩ := Option.bind_eq_some_iff.mp h
    obtain rfl := Option.some.inj h
    exact .inl ⟨_,_,_,_,.resume t signal fresh task m hf htask hm,runTask_eq _⟩
  | consume => exact .inr (.inl ⟨rfl,h⟩)
  | interfere shared => exact .inr (.inr ⟨shared,rfl,(Option.some.inj h).symm⟩)

theorem consume_frame (h : s.consume c = some s') : ∃ output counters new,
    s' = { s with output, counters, log := new ++ s.log } ∧ ∀ o ∈ new, ∃ event, o = .delivered event := by
  unfold consume at h
  split at h
  · simp at h
  · rename_i event events _
    obtain rfl := Option.some.inj h
    split
    · exact ⟨_,_,[],rfl,by simp⟩
    · exact ⟨_,_,[.delivered event],rfl,by simp⟩

theorem wake_place {signal : Signal} {j : TaskId} (hj : j ≠ t) : (s.wake t signal).place j = s.place j := by
  simp [place,wake,Ne.symm hj]

theorem wake_place_self {signal : Signal} {task : Task} (h : s.tasks[t]? = some task) :
    (s.wake t signal).place t = some (task.kind,.running) := by simp [place,wake,h]

theorem setTask_place {j : TaskId} (hj : j ≠ t) {state : TaskState} :
    (s.setTask t state).place j = s.place j := by
  simp [place,setTask,Ne.symm hj]

theorem setTask_place_self {state state' : TaskState} (h : s.place t = some (k,state')) :
    (s.setTask t state).place t = some (k,state) := by
  obtain ⟨task,htask,heq⟩ := place_eq_some.mp h
  simp only [Prod.mk.injEq] at heq
  simp [place,setTask,htask,heq.1]

/-- A stretch starts in the step's state, but for its own task and the fresh id. -/
theorem Stretch.frame {a : Action} {m : Prog A Unit} {u : Session A} (h : Stretch c s a t k m u) :
    u = { s with tasks := u.tasks, usedIds := u.usedIds } := by cases h <;> rfl

theorem Stretch.here {a : Action} {m : Prog A Unit} {u : Session A} (h : Stretch c s a t k m u) :
    u.place t = some (k,.running) := by
  cases h with
  | call call fresh h => simp [place]
  | resume t signal fresh task m h htask hm => exact wake_place_self htask

theorem Stretch.others {a : Action} {m : Prog A Unit} {u : Session A} (h : Stretch c s a t k m u)
    {j : TaskId} (hj : j ≠ t) : u.place j = s.place j := by
  cases h with
  | call call fresh h =>
    simp only [place]
    rcases lt_or_ge j s.tasks.length with hlt | hge
    · rw [List.getElem?_append_left hlt]
    · have hlt : s.tasks.length < j := lt_of_le_of_ne hge (Ne.symm hj)
      rw [List.getElem?_eq_none hge,List.getElem?_eq_none (by simpa using Nat.succ_le_of_lt hlt)]
  | resume t signal fresh task m h htask hm => exact wake_place hj

theorem Stretch.length_le {a : Action} {m : Prog A Unit} {u : Session A} (h : Stretch c s a t k m u) :
    s.tasks.length ≤ u.tasks.length := by
  cases h with
  | call call fresh h => simp
  | resume t signal fresh task m h htask hm => simp [wake,useId]

/-- The task that runs is a new call or one that had not stopped. -/
theorem Stretch.came {a : Action} {m : Prog A Unit} {u : Session A} (h : Stretch c s a t k m u) :
    (∃ call, k = .call call) ∨ ∃ state, s.place t = some (k,state) ∧ ∀ o, state ≠ .finished o := by
  cases h with
  | call call fresh h => exact .inl ⟨call,rfl⟩
  | resume t signal fresh task m h htask hm =>
    refine .inr ⟨task.state,place_eq_some.mpr ⟨task,htask,rfl⟩,fun o ho => ?_⟩
    rw [ho] at hm
    simp [resumeProg] at hm

/-- Every task keeps its kind when one of them is woken, and only a task that has not stopped is. -/
theorem Stretch.place_kept {a : Action} {m : Prog A Unit} {u : Session A} (h : Stretch c s a t k m u)
    {j : TaskId} {kind : TaskKind} {state : TaskState} (hj : s.place j = some (kind,state)) :
    u.place j = some (kind,state) ∨ j = t ∧ kind = k ∧ (∀ o, state ≠ .finished o) := by
  by_cases hjt : j = t
  · subst hjt
    cases h with
    | call call fresh h => exact absurd (place_lt hj) (lt_irrefl _)
    | resume t signal fresh task m h htask hm =>
      obtain ⟨task',htask',heq⟩ := place_eq_some.mp hj
      rw [htask] at htask'
      obtain rfl := Option.some.inj htask'
      simp only [Prod.mk.injEq] at heq
      refine .inr ⟨rfl,heq.1.symm,fun o ho => ?_⟩
      rw [heq.2,ho] at hm
      simp [resumeProg] at hm
  · exact .inl (by rw [h.others hjt,hj])

theorem Stretch.kind_kept {a : Action} {m : Prog A Unit} {u : Session A} (h : Stretch c s a t k m u)
    {j : TaskId} {kind : TaskKind} {state : TaskState} (hj : s.place j = some (kind,state)) :
    ∃ state', u.place j = some (kind,state') := by
  obtain hkept | ⟨rfl,rfl,_⟩ := h.place_kept hj
  · exact ⟨state,hkept⟩
  · exact ⟨.running,h.here⟩

theorem Stretch.running {a : Action} {m : Prog A Unit} {u : Session A} (h : Stretch c s a t k m u)
    (hs : Placed c s) : Running c u t k := by
  have hframe := h.frame
  refine ⟨⟨?_,?_,?_,fun j hj => ?_,fun j reason state hj => ?_,fun j purpose event hj => ?_,?_⟩,h.here,?_⟩
  · rw [hframe]
    exact hs.owned
  · rw [hframe]
    exact hs.settled
  · rw [hframe]
    exact hs.clean
  · rw [hframe] at hj ⊢
    obtain ⟨reason,state,hr,hp⟩ := hs.closer j hj
    obtain ⟨state',hp'⟩ := h.kind_kept hp
    exact ⟨reason,state',hr,by rwa [hframe] at hp'⟩
  · rw [hframe]
    by_cases hjt : j = t
    · subst hjt
      rw [h.here] at hj
      simp only [Option.some.injEq,Prod.mk.injEq] at hj
      obtain ⟨call,hcall⟩ | ⟨state,hp,_⟩ := h.came
      · simp [hj.1] at hcall
      · exact hs.only j reason state (by rwa [hj.1] at hp)
    · rw [h.others hjt] at hj
      exact hs.only j reason state hj
  · rw [hframe] at hj
    exact (hs.issued j purpose event hj).trans_le h.length_le
  · rw [hframe]
    exact hs.unclosed
  · intro j kind state hj hp
    rw [h.others hj] at hp
    rw [hframe]
    exact hs.stands j kind state hp

/-- Every stretch makes moves only. -/
theorem Stretch.does {a : Action} {m : Prog A Unit} {u : Session A} (h : Stretch c s a t k m u)
    (hs : Placed c s) : Does c (brings c s a) t k m u := by
  cases h with
  | call call fresh h =>
    have hf : (brings c s (.call call fresh)).fresh = fresh := by cases call <;> rfl
    have hl : s.terminal.published → (brings c s (.call call fresh)).late := by
      rw [brings_late]
      exact id
    have hc : (brings c s (.call call fresh)).calls := by cases call <;> rfl
    refine does_callProg hl hf hc rfl (fun inj event => ?_) ?_
    · exact ⟨fun hn => lt_irrefl _ (hs.issued _ _ _ hn),fun hn => lt_irrefl _ (hs.issued _ _ _ hn)⟩
    · rintro id output rfl
      rfl
  | resume t signal fresh task m h htask hm =>
    exact does_resume hs.owned hs.unclosed htask (hs.stands _ _ _ (place_eq_some.mpr ⟨task,htask,rfl⟩)) hm

/-- The running task is put back where it may stand. -/
theorem Running.put_back {state : TaskState} (hs : Running c s t k) (hat : At c s t k state) :
    Placed c (s.setTask t state) := by
  have hplace : ∀ j kind state', (s.setTask t state).place j = some (kind,state') →
      ∃ state'', s.place j = some (kind,state'') := by
    intro j kind state' hj
    by_cases hjt : j = t
    · subst hjt
      rw [setTask_place_self hs.here] at hj
      simp only [Option.some.injEq,Prod.mk.injEq] at hj
      exact ⟨.running,by rw [hs.here,hj.1]⟩
    · rw [setTask_place hjt] at hj
      exact ⟨state',hj⟩
  refine ⟨⟨hs.owned,hs.settled,hs.clean,fun j hj => ?_,fun j reason state' hj => ?_,fun j purpose event hj => ?_,
    hs.unclosed⟩,fun j kind state' hj => ?_⟩
  · obtain ⟨reason,state',hr,hp⟩ := hs.closer j hj
    by_cases hjt : j = t
    · subst hjt
      rw [hs.here] at hp
      simp only [Option.some.injEq,Prod.mk.injEq] at hp
      exact ⟨reason,state,hr,by rw [setTask_place_self hs.here,hp.1]⟩
    · exact ⟨reason,state',hr,by rwa [setTask_place hjt]⟩
  · obtain ⟨state'',hp⟩ := hplace j _ _ hj
    exact hs.only j reason state'' hp
  · simpa [setTask] using hs.issued j purpose event hj
  · by_cases hjt : j = t
    · subst hjt
      rw [setTask_place_self hs.here] at hj
      simp only [Option.some.injEq,Prod.mk.injEq] at hj
      obtain ⟨rfl,rfl⟩ := hj
      exact hat
    · rw [setTask_place hjt] at hj
      exact hs.others j kind state' hjt hj

/-- A stretch ends in the state of its program's outcome, which its moves lead to. -/
theorem Stretch.moves {a : Action} {m : Prog A Unit} {u : Session A} (h : Stretch c s a t k m u)
    (hs : Placed c s) : Moves c (brings c s a) t k u (m u).state := (h.does hs).moves

theorem Stretch.stops {a : Action} {m : Prog A Unit} {u : Session A} (h : Stretch c s a t k m u)
    (hs : Placed c s) : At c (m u).state t k (rest (m u)) := by
  cases hm : m u with
  | ok x v => trivial
  | raise e v => trivial
  | park p v => exact ((h.does hs).parks p v hm).1

/-- What neither runs a task nor touches what `At` reads. -/
theorem Placed.of_frame (hs : Placed c s) (hterminal : s'.terminal = s.terminal)
    (hcontrol : s'.control = s.control) (hholder : s'.context.holder = s.context.holder)
    (htasks : s'.tasks = s.tasks) (hlog : ∀ o ∈ s.log, o ∈ s'.log)
    (hmine : ∀ j purpose event, .issued j purpose event ∈ s'.log → .issued j purpose event ∈ s.log) :
    Placed c s' := by
  have hplace : ∀ j, s'.place j = s.place j := fun j => by simp only [place,htasks]
  refine ⟨⟨?_,?_,?_,?_,?_,fun j purpose event h => ?_,fun ho j reason event h => ?_⟩,fun j kind state h => ?_⟩
  · rw [hterminal]
    exact hs.owned
  · rw [hterminal]
    exact hs.settled
  · rw [hterminal,hcontrol]
    exact hs.clean
  · simp only [hplace,hcontrol]
    exact hs.closer
  · simp only [hplace,hcontrol]
    exact hs.only
  · rw [htasks]
    exact hs.issued j purpose event (hmine j purpose event h)
  · rw [hterminal] at ho
    exact hs.unclosed ho j reason event (hmine j _ event h)
  · rw [hplace] at h
    refine Keeps.stays ⟨fun _ => ?_,?_,fun i hi => ?_,?_,hlog,hmine j⟩ (hs.stands j kind state h)
    · rw [hterminal]
      exact ⟨rfl,fun _ => rfl⟩
    · rw [hterminal]
      exact id
    · rw [hcontrol]
      exact ⟨hi,rfl⟩
    · rw [hholder]
      exact id

theorem Placed.consume (hs : Placed c s) (h : s.consume c = some s') : Placed c s' := by
  obtain ⟨output,counters,new,rfl,hnew⟩ := consume_frame h
  refine hs.of_frame rfl rfl rfl rfl (fun o ho => List.mem_append_right _ ho) fun j purpose event ho => ?_
  obtain ho | ho := List.mem_append.mp ho
  · obtain ⟨event',he⟩ := hnew _ ho
    simp at he
  · exact ho

/-- The step lemma: tasks stand where they may after every step. -/
theorem Placed.step {a : Action} (hs : Placed c s) (h : step c s a = some s') : Placed c s' := by
  obtain ⟨t,k,m,u,hst,rfl⟩ | ⟨_,h⟩ | ⟨shared,_,rfl⟩ := step_cases h
  · exact ((hst.running hs).moves (hst.moves hs)).put_back (hst.stops hs)
  · exact hs.consume h
  · exact hs.of_frame rfl rfl rfl rfl (fun _ => id) fun _ _ _ => id

theorem running_fresh {shared : Shared} {id : String} :
    Running c (useId (fresh c shared) id) 0 .start where
  owned h := by simp [useId,fresh] at h
  settled h := by simp [useId,fresh] at h
  clean h := by simp [useId,fresh] at h
  closer j h := by simp [useId,fresh] at h
  only j reason state h := by
    cases j <;> simp [place,useId,fresh] at h
  issued j purpose event h := by simp [useId,fresh] at h
  unclosed _ j reason event h := by simp [useId,fresh] at h
  here := rfl
  others j kind state hj h := by
    cases j with
    | zero => exact absurd rfl hj
    | succ j => simp [place,useId,fresh] at h

theorem does_start {shared : Shared} {id : String} :
    Does c { fresh := id, opens := true } 0 .start (startSession c 0 id) (useId (fresh c shared) id) :=
  does_startSession (fun h => (nomatch h)) rfl rfl rfl

theorem placed_init (h : Init c s) : Placed c s := by
  obtain ⟨shared,id,rfl⟩ := h
  rw [runTask_eq]
  refine (running_fresh.moves does_start.moves).put_back ?_
  cases hm : startSession c 0 id (useId (fresh c shared) id) with
  | ok x v => trivial
  | raise e v => trivial
  | park p v => exact (does_start.parks p v hm).1

theorem placed_steps {ok : Session A → Action → Prop} (h : Transition.Steps (step c) ok s s')
    (hs : Placed c s) : Placed c s' :=
  h.invariant (fun _ _ _ hs _ hstep => Placed.step hs hstep) hs

/-- The run lemma. -/
theorem placed {ok : Session A → Action → Prop}
    (h : Transition.ReachableWith (step c) ok (Init c) s) : Placed c s :=
  h.invariant (fun _ => placed_init) fun _ _ _ hs _ hstep => Placed.step hs hstep

end Session
end HarnessSdk
