import HarnessSdk.QwenSession
import HarnessSdk.Results

/-!
# Who ends a session

The first task that claims the terminal owns it. Its terminal is the only one that is ever
put on the queue, nothing drains the queue behind it, and a clean close that has been
claimed is the one that is published.
-/

namespace HarnessSdk
namespace Session

open Transition (Steps anyStep)

variable {A : Type} {c : SessionConfig A} {b : Brings} {t : TaskId} {k : TaskKind} {s s' : Session A}

def claimOf : Observation → Option (TaskId × CloseInitiator × CloseDisposition)
  | .claimed by_ i d => some (by_,i,d)
  | _ => none

def terminalOf : Observation → Option (TaskId × RealtimeEvent)
  | .put by_ event _ => if event.isTerminal then some (by_,event) else none
  | _ => none

/-- The claims of the terminal, newest first. -/
def claims (s : Session A) : List (TaskId × CloseInitiator × CloseDisposition) := s.log.filterMap claimOf

/-- The terminals that were put on the queue, newest first, with the tasks that did it. -/
def terminals (s : Session A) : List (TaskId × RealtimeEvent) := s.log.filterMap terminalOf

theorem claims_of_log (new : List Observation) (h : s'.log = new ++ s.log) (hn : ∀ o ∈ new, claimOf o = none) :
    s'.claims = s.claims := by
  rw [claims,h,List.filterMap_append,List.filterMap_eq_nil_iff.mpr hn]
  rfl

theorem terminals_of_log (new : List Observation) (h : s'.log = new ++ s.log)
    (hn : ∀ o ∈ new, terminalOf o = none) : s'.terminals = s.terminals := by
  rw [terminals,h,List.filterMap_append,List.filterMap_eq_nil_iff.mpr hn]
  rfl

/-- What a move does to the terminal, the claims and the terminals on the queue. -/
inductive TerminalMove (t : TaskId) (k : TaskKind) (s s' : Session A) : Prop
  | quiet (owner : s'.terminal.owner = s.terminal.owner) (closing : s'.terminal.closing = s.terminal.closing)
      (published : s'.terminal.published = s.terminal.published)
      (sequence : s.terminal.sequenceStarted → s'.terminal.sequenceStarted)
      (claims : s'.claims = s.claims) (terminals : s'.terminals = s.terminals)
  | publish (i : CloseInitiator) (d : CloseDisposition) (event : RealtimeEvent)
      (free : s.terminal.owner = none) (owner : s'.terminal.owner = some (i,d))
      (closing : s'.terminal.closing = s.terminal.closing) (published : s'.terminal.published)
      (sequence : s'.terminal.sequenceStarted) (claims : s'.claims = (t,i,d) :: s.claims)
      (terminals : s'.terminals = (t,event) :: s.terminals)
      (shows : ∀ owner, closedAs event = some owner → owner = (i,d)) (queued : event ∈ s'.output.events)
  | claimClean (reason : String) (kind : k = .controlledClose reason) (free : s.terminal.owner = none)
      (owner : s'.terminal.owner = some (.client,.clean)) (closing : s'.terminal.closing)
      (published : s'.terminal.published = s.terminal.published)
      (claims : s'.claims = (t,.client,.clean) :: s.claims) (terminals : s'.terminals = s.terminals)
  | conclude (event : RealtimeEvent) (concluding : Concluding s k)
      (owner : s'.terminal.owner = s.terminal.owner) (closing : s'.terminal.closing = s.terminal.closing)
      (published : s'.terminal.published) (sequence : s'.terminal.sequenceStarted)
      (claims : s'.claims = s.claims) (terminals : s'.terminals = (t,event) :: s.terminals)
      (shows : closedAs event = some (.client,.clean) ∨ ∃ closed, s.control.ack = some (.acknowledged closed) ∧
        closedAs event = some (closed.initiator,closed.disposition)) (queued : event ∈ s'.output.events)

theorem filterMap_log {β : Type} {f : Observation → Option β} {new : List Observation}
    (h : ∀ o ∈ new, f o = none) (log : List Observation) : (new ++ log).filterMap f = log.filterMap f := by
  rw [List.filterMap_append,List.filterMap_eq_nil_iff.mpr h,List.nil_append]

theorem terminalMove_publish (e : TerminalEvent) (i : CloseInitiator) (d : CloseDisposition)
    (h : s.terminal.owner = none)
    (hh : ∀ closed, e = .closed closed → i = closed.initiator ∧ d = closed.disposition) :
    TerminalMove t k s (s.publish c t e i d) := by
  obtain ⟨new,failure,hlog,hnew,hqueue⟩ := publish_log (c := c) (t := t) (s := s) e i d
  have hdrained : ∀ o ∈ new, o = .drained := fun o ho => (hnew o ho).1
  refine .publish i d (e.event failure) h ?_ ?_ ?_ ?_ ?_ ?_ (fun owner ho => ?_) hqueue
  · rw [publish_frame]
  · rw [publish_frame]
  · rw [publish_frame]
  · rw [publish_frame]
  · rw [claims,hlog,List.filterMap_cons_none rfl,filterMap_log fun o ho => by rw [hdrained o ho]; rfl]
    rfl
  · rw [terminals,hlog,List.filterMap_cons_some (b := (t,e.event failure)) (by simp [terminalOf]),
      filterMap_log fun o ho => by rw [hdrained o ho]; rfl]
    rfl
  · obtain ⟨closed,rfl,rfl⟩ := closedAs_event ho
    rw [(hh closed rfl).1,(hh closed rfl).2]

theorem terminalMove_conclude (reason : String) (ack : Option SessionClosed) (h : Concluding s k)
    (hack : ∀ closed, ack = some closed → s.control.ack = some (.acknowledged closed)) :
    TerminalMove t k s (s.concludeClose c t reason ack) := by
  obtain ⟨new,u,hlog,hnew,hqueue⟩ := concludeClose_log (c := c) (t := t) (s := s) reason ack
  refine .conclude (u.closedEvent reason ack) h ?_ ?_ ?_ ?_ ?_ ?_ ?_ hqueue
  · rw [concludeClose_frame]
  · rw [concludeClose_frame]
  · rw [concludeClose_frame]
  · rw [concludeClose_frame]
  · rw [claims,hlog,List.filterMap_cons_none rfl,filterMap_log fun o ho => ?_]
    · rfl
    · obtain ⟨rfl,_⟩ | ⟨event,_,rfl,_⟩ := hnew o ho <;> rfl
  · rw [terminals,hlog,List.filterMap_cons_some (b := (t,u.closedEvent reason ack)) (by simp [terminalOf]),
      filterMap_log fun o ho => ?_]
    · rfl
    · obtain ⟨rfl,_⟩ | ⟨event,_,rfl,he⟩ := hnew o ho
      · rfl
      · simp [terminalOf,he]
  · cases ack with
    | none => exact .inl rfl
    | some closed => exact .inr ⟨closed,hack closed rfl,rfl⟩

theorem endResponse_sequence (response : ResponseFinished) (batch : Bool) (h : s.terminal.sequenceStarted) :
    (s.endResponse c t response batch).terminal.sequenceStarted := by
  unfold endResponse
  split
  · rw [putTerminalSafe_frame]
  · exact h

theorem Move.terminalMove (h : Move c b t k s s') : TerminalMove t k s s' := by
  cases h
  case transcribed turnId text h hs hh hroom =>
    exact .quiet rfl rfl rfl id rfl (terminals_of_log [_] rfl (by simp [terminalOf,RealtimeEvent.isTerminal]))
  case put event hat h hh hroom _ _ =>
    exact .quiet rfl rfl rfl id rfl (terminals_of_log [_] rfl (by simp [terminalOf,hh]))
  case finish response batch h hr hh hroom _ =>
    obtain ⟨new,hlog,hnew⟩ := endResponse_log (c := c) (t := t) (s := s) response batch
    let last : Observation :=
      .put t (.provider (.responseFinished response)) (s.addTerminalResponse response.responseId).book
    have hall : ∀ o ∈ last :: new, o = .drained ∨ o = last := by
      intro o ho
      rcases List.mem_cons.mp ho with rfl | ho
      · exact .inr rfl
      · exact .inl (hnew o ho).1
    refine .quiet ?_ ?_ ?_ (fun hq => ?_) (claims_of_log (_ :: new) hlog fun o ho => ?_)
      (terminals_of_log (_ :: new) hlog fun o ho => ?_)
    · rw [endResponse_frame]
    · rw [endResponse_frame]
    · rw [endResponse_frame]
    · exact endResponse_sequence response batch hq
    · obtain rfl | rfl := hall o ho <;> rfl
    · obtain rfl | rfl := hall o ho
      · rfl
      · simp [last,terminalOf,RealtimeEvent.isTerminal]
  case publish e i d h hh => exact terminalMove_publish e i d h hh
  case claimClean reason hk h => exact .claimClean reason hk h rfl rfl rfl rfl rfl
  case conclude reason ack hk h hh hack => exact terminalMove_conclude reason ack ⟨⟨reason,hk⟩,h,hh⟩ hack
  case register call _ _ _ =>
    refine .quiet ?_ ?_ ?_ ?_ ?_ ?_ <;> rw [registerTool_frame]
    exacts [id,rfl,rfl]
  case followup =>
    refine .quiet ?_ ?_ ?_ ?_ ?_ ?_ <;> rw [requestFollowup_frame]
    exacts [id,rfl,rfl]
  case introduce =>
    refine .quiet ?_ ?_ ?_ ?_ ?_ ?_ <;> rw [introduce_frame]
    exacts [id,rfl,rfl]
  case ackContext d _ =>
    have hframe := acknowledgeContext_frame (s := s) d
    have hlog : ∃ new, (s.acknowledgeContext d).log = new ++ s.log ∧ ∀ o ∈ new, ∃ r i, o = .contextAcked r i := by
      obtain h | ⟨requestId,itemId,h,_⟩ := acknowledgeContext_log (s := s) d
      · exact ⟨[],h,by simp⟩
      · exact ⟨[_],h,by simp⟩
    obtain ⟨new,hlog,hnew⟩ := hlog
    refine .quiet ?_ ?_ ?_ ?_ (claims_of_log new hlog fun o ho => ?_) (terminals_of_log new hlog fun o ho => ?_)
    · rw [hframe]
    · rw [hframe]
    · rw [hframe]
    · rw [hframe]
      exact id
    · obtain ⟨r,i,rfl⟩ := hnew o ho
      rfl
    · obtain ⟨r,i,rfl⟩ := hnew o ho
      rfl
  all_goals exact .quiet rfl rfl rfl id rfl rfl

theorem putTerminalSafe_kept {event e : RealtimeEvent} (hq : s.terminal.sequenceStarted)
    (he : e ∈ s.output.events) : e ∈ (s.putTerminalSafe c t event).output.events := by
  unfold putTerminalSafe
  simp [hq,put,he]

theorem endResponse_kept {response : ResponseFinished} {batch : Bool} {e : RealtimeEvent}
    (hq : s.terminal.sequenceStarted) (he : e ∈ s.output.events) :
    e ∈ (s.endResponse c t response batch).output.events := by
  unfold endResponse
  split
  · exact putTerminalSafe_kept hq he
  · simpa [put,addTerminalResponse] using .inl he

/-- Nothing that a task does drains the queue once the terminal is on it. -/
theorem Move.queue_kept (h : Move c b t k s s') (hs : Settled s) (hp : s.terminal.published)
    (hq : s.terminal.sequenceStarted) {e : RealtimeEvent} (he : e ∈ s.output.events) : e ∈ s'.output.events := by
  cases h
  case transcribed => simp [Session.put,completeInput,he]
  case put => simp [Session.put,he]
  case finish => exact endResponse_kept hq he
  case publish _ _ _ h _ =>
    have hh := hs.owned hp
    simp [h] at hh
  case conclude _ _ _ _ hh _ => exact absurd hp hh
  case register => rw [registerTool_frame]; exact he
  case followup => rw [requestFollowup_frame]; exact he
  case introduce => rw [introduce_frame]; exact he
  case ackContext => rw [acknowledgeContext_frame]; exact he
  all_goals exact he

theorem Move.ack_cases (h : Move c b t k s s') {closed : SessionClosed}
    (ha : s'.control.ack = some (.acknowledged closed)) :
    s.control.ack = some (.acknowledged closed) ∨ s.isCloseAck closed := by
  cases h
  case closeAck closed' _ hh _ =>
    obtain rfl : closed' = closed := by simpa using ha
    exact .inr hh
  case pendClose => simp at ha
  case conclude =>
    rw [concludeClose_frame] at ha
    simp only [cancelCloseAck] at ha
    split at ha
    · simp at ha
    · exact .inl ha
  case finish => rw [endResponse_frame] at ha; exact .inl ha
  case publish => rw [publish_frame] at ha; exact .inl ha
  case register => rw [registerTool_frame] at ha; exact .inl ha
  case followup => rw [requestFollowup_frame] at ha; exact .inl ha
  case introduce => rw [introduce_frame] at ha; exact .inl ha
  case ackContext => rw [acknowledgeContext_frame] at ha; exact .inl ha
  all_goals exact .inl ha

/-- The terminal of a session that has one. -/
def Ended (s : Session A) : Prop :=
  ∃ t i d event, s.claims = [(t,i,d)] ∧ s.terminals = [(t,event)] ∧ s.terminal.sequenceStarted ∧
    (∀ owner, closedAs event = some owner → owner = (i,d)) ∧
    (s.terminal.closing → closedAs event = some (.client,.clean)) ∧
    (event ∈ s.output.events ∨ .delivered event ∈ s.log)

/-- The invariant of the terminal. -/
structure TerminalInv (s : Session A) : Prop where
  free : s.terminal.owner = none → s.claims = []
  owned : ∀ i d, s.terminal.owner = some (i,d) →
    ∃ t, s.claims = [(t,i,d)] ∧ (s.terminal.closing → s.control.task = some t)
  unended : ¬s.terminal.published → s.terminals = []
  ended : s.terminal.published → s.Ended
  acked : ∀ closed, s.control.ack = some (.acknowledged closed) →
    closed.initiator = .client ∧ closed.disposition = .clean

theorem TerminalInv.of_frame (h : TerminalInv s) (hterminal : s'.terminal = s.terminal)
    (hcontrol : s'.control = s.control) (houtput : s'.output = s.output) (hlog : s'.log = s.log) :
    TerminalInv s' := by
  have hc : s'.claims = s.claims := by simp only [claims,hlog]
  have ht : s'.terminals = s.terminals := by simp only [terminals,hlog]
  refine ⟨?_,?_,?_,?_,?_⟩
  · rw [hterminal,hc]
    exact h.free
  · rw [hterminal,hc,hcontrol]
    exact h.owned
  · rw [hterminal,ht]
    exact h.unended
  · unfold Ended
    rw [hterminal,hc,ht,houtput,hlog]
    exact h.ended
  · rw [hcontrol]
    exact h.acked

theorem isCloseAck_clean {closed : SessionClosed} (h : s.isCloseAck closed) :
    closed.initiator = .client ∧ closed.disposition = .clean := by
  simp only [isCloseAck,Bool.and_eq_true,decide_eq_true_eq] at h
  exact ⟨h.1.2,h.2⟩

/-- The step lemma of the terminal. -/
theorem TerminalInv.move (hr : Running c s t k) (h : Move c b t k s s') (hs : TerminalInv s) :
    TerminalInv s' := by
  have hacked : ∀ closed, s'.control.ack = some (.acknowledged closed) →
      closed.initiator = .client ∧ closed.disposition = .clean := by
    intro closed ha
    obtain ha | hv := h.ack_cases ha
    · exact hs.acked closed ha
    · exact isCloseAck_clean hv
  have htask : ∀ i, s.control.task = some i → s'.control.task = some i := by
    intro i hi
    obtain ⟨ht,_⟩ | ⟨hn,_⟩ := h.control_cases
    · rw [ht,hi]
    · simp [hn] at hi
  have hlog : ∀ o ∈ s.log, o ∈ s'.log := moves_log (.single h)
  cases h.terminalMove with
  | quiet owner closing published sequence claims terminals =>
    refine ⟨?_,fun i d ho => ?_,?_,fun hp => ?_,hacked⟩
    · rw [owner,claims]
      exact hs.free
    · rw [owner] at ho
      obtain ⟨t',hc,ht⟩ := hs.owned i d ho
      exact ⟨t',by rw [claims,hc],fun hclosing => htask _ (ht (by rwa [closing] at hclosing))⟩
    · rw [published,terminals]
      exact hs.unended
    · rw [published] at hp
      obtain ⟨t',i,d,event,hc,ht,hq,hshow,hclean,hqueue⟩ := hs.ended hp
      refine ⟨t',i,d,event,by rw [claims,hc],by rw [terminals,ht],sequence hq,hshow,?_,?_⟩
      · rwa [closing]
      · exact hqueue.imp (fun he => h.queue_kept hr.toSettled hp hq he) fun hd => hlog _ hd
  | publish i d event free owner closing published sequence claims terminals shows queued =>
    have hn : ¬s.terminal.published := fun hp => by
      have hh := hr.owned hp
      simp [free] at hh
    have hclosing : ¬s.terminal.closing := fun hc => by
      have hh := (hr.clean hc).1
      simp [free] at hh
    refine ⟨fun ho => by simp [owner] at ho,fun i' d' ho => ?_,fun hp => absurd published hp,fun _ => ?_,hacked⟩
    · obtain ⟨rfl,rfl⟩ : i = i' ∧ d = d' := by simpa [owner] using ho
      exact ⟨t,by rw [claims,hs.free free],fun hc => absurd (by rwa [closing] at hc) hclosing⟩
    · refine ⟨t,i,d,event,by rw [claims,hs.free free],by rw [terminals,hs.unended hn],sequence,shows,?_,.inl queued⟩
      exact fun hc => absurd (by rwa [closing] at hc) hclosing
  | claimClean reason kind free owner closing published claims terminals =>
    have hn : ¬s.terminal.published := fun hp => by
      have hh := hr.owned hp
      simp [free] at hh
    have hctl : s.control.task = some t := by
      have hh := hr.here
      rw [kind] at hh
      exact hr.only _ _ _ hh
    refine ⟨fun ho => by simp [owner] at ho,fun i d ho => ?_,fun _ => ?_,fun hp => ?_,hacked⟩
    · obtain ⟨rfl,rfl⟩ : CloseInitiator.client = i ∧ CloseDisposition.clean = d := by simpa [owner] using ho
      exact ⟨t,by rw [claims,hs.free free],fun _ => htask _ hctl⟩
    · rw [terminals,hs.unended hn]
    · exact absurd (by rwa [published] at hp) hn
  | conclude event concluding owner closing published sequence claims terminals shows queued =>
    obtain ⟨⟨reason,hk⟩,hc,hn⟩ := concluding
    have hctl : s.control.task = some t := by
      have hh := hr.here
      rw [hk] at hh
      exact hr.only _ _ _ hh
    obtain ⟨t',hclaims,ht'⟩ := hs.owned _ _ (hr.clean hc).1
    obtain rfl : t = t' := Option.some.inj (hctl.symm.trans (ht' hc))
    have hshow : closedAs event = some (.client,.clean) := by
      obtain hh | ⟨closed,ha,hh⟩ := shows
      · exact hh
      · rw [hh,(hs.acked closed ha).1,(hs.acked closed ha).2]
    refine ⟨?_,fun i d ho => ?_,fun hp => absurd published hp,fun _ => ?_,hacked⟩
    · rw [owner,claims]
      exact hs.free
    · rw [owner] at ho
      obtain ⟨t'',hc',ht''⟩ := hs.owned i d ho
      exact ⟨t'',by rw [claims,hc'],fun hclosing => htask _ (ht'' (by rwa [closing] at hclosing))⟩
    · refine ⟨t,.client,.clean,event,by rw [claims,hclaims],by rw [terminals,hs.unended hn],sequence,?_,
        fun _ => hshow,.inl queued⟩
      intro owner' ho
      rw [hshow] at ho
      exact (Option.some.inj ho).symm

theorem Stretch.terminalInv {a : Action} {m : Prog A Unit} {u : Session A} (h : Stretch c s a t k m u)
    (hs : TerminalInv s) : TerminalInv u := by
  have hframe := h.frame
  exact hs.of_frame (by rw [hframe]) (by rw [hframe]) (by rw [hframe]) (by rw [hframe])

theorem isTerminal_of_terminals {event : RealtimeEvent} (h : (t,event) ∈ s.terminals) : event.isTerminal := by
  obtain ⟨o,_,ho⟩ := List.mem_filterMap.mp h
  cases o
  case put by_ event' _ =>
    simp only [terminalOf,Option.ite_none_right_eq_some,Option.some.injEq,Prod.mk.injEq] at ho
    rw [← ho.2.2]
    exact ho.1
  all_goals simp [terminalOf] at ho

/-- The consumer never drops a terminal, also when the session is superseded. -/
theorem consume_queue (h : s.consume c = some s') {event : RealtimeEvent} (ht : event.isTerminal)
    (he : event ∈ s.output.events) : event ∈ s'.output.events ∨ .delivered event ∈ s'.log := by
  unfold Session.consume at h
  split at h
  · simp at h
  · rename_i first events hq
    obtain rfl := Option.some.inj h
    rw [hq] at he
    rcases List.mem_cons.mp he with rfl | he
    · refine .inr ?_
      simp [ht,observe]
    · refine .inl ?_
      split <;> exact he

theorem TerminalInv.consume (hs : TerminalInv s) (h : s.consume c = some s') : TerminalInv s' := by
  obtain ⟨output,counters,new,heq,hnew⟩ := consume_frame h
  have hlog : s'.log = new ++ s.log := by rw [heq]
  have hclaims : s'.claims = s.claims := claims_of_log new hlog fun o ho => by
    obtain ⟨event,rfl⟩ := hnew o ho
    rfl
  have hterminals : s'.terminals = s.terminals := terminals_of_log new hlog fun o ho => by
    obtain ⟨event,rfl⟩ := hnew o ho
    rfl
  have hterminal : s'.terminal = s.terminal := by rw [heq]
  have hcontrol : s'.control = s.control := by rw [heq]
  refine ⟨?_,?_,?_,fun hp => ?_,?_⟩
  · rw [hterminal,hclaims]
    exact hs.free
  · rw [hterminal,hclaims,hcontrol]
    exact hs.owned
  · rw [hterminal,hterminals]
    exact hs.unended
  · rw [hterminal] at hp
    obtain ⟨t,i,d,event,hc,ht,hq,hshow,hclean,hqueue⟩ := hs.ended hp
    refine ⟨t,i,d,event,by rw [hclaims,hc],by rw [hterminals,ht],by rwa [hterminal],hshow,by rwa [hterminal],?_⟩
    obtain he | hd := hqueue
    · exact consume_queue h (isTerminal_of_terminals (t := t) (by rw [ht]; exact List.mem_singleton_self _)) he
    · rw [hlog]
      exact .inr (List.mem_append_right _ hd)
  · rw [hcontrol]
    exact hs.acked

theorem terminal_invariant : Invariant c anyStep TerminalInv fun _ _ _ s => TerminalInv s where
  start shared id := by
    refine ⟨fun _ => rfl,?_,fun _ => rfl,?_,?_⟩ <;> simp [useId,fresh]
  wake _ hs _ hst := hst.terminalInv hs
  move hr hm hs := TerminalInv.move hr hm hs
  park _ _ _ hs _ := hs.of_frame rfl rfl rfl rfl
  stop _ _ _ hs _ := hs.of_frame rfl rfl rfl rfl
  consume _ hs h := hs.consume h
  interfere _ hs := hs.of_frame rfl rfl rfl rfl

/-- The terminals of a session, against its claims and its queue. -/
structure OneTerminal (s : Session A) : Prop where
  one : s.terminals.length ≤ 1
  /-- The terminal is put by the task with the only claim, and shows it. -/
  first : ∀ t event, (t,event) ∈ s.terminals → ∃ i d, s.claims = [(t,i,d)] ∧
    s.terminal.owner = some (i,d) ∧ ∀ owner, closedAs event = some owner → owner = (i,d)
  kept : ∀ t event, (t,event) ∈ s.terminals → event ∈ s.output.events ∨ .delivered event ∈ s.log

/-- A clean close has been claimed, and only its terminal can be on the queue. -/
structure ClosesCleanly (s : Session A) : Prop where
  owner : s.terminal.owner = some (.client,.clean)
  closing : s.terminal.closing
  terminal : ∀ t event, (t,event) ∈ s.terminals → closedAs event = some (.client,.clean)

theorem TerminalInv.oneTerminal (hs : TerminalInv s) (hp : Settled s) : OneTerminal s := by
  by_cases hpub : s.terminal.published
  · obtain ⟨t,i,d,event,hc,ht,_,hshow,_,hqueue⟩ := hs.ended hpub
    refine ⟨by simp [ht],fun t' event' h => ?_,fun t' event' h => ?_⟩
    · obtain ⟨rfl,rfl⟩ : t' = t ∧ event' = event := by simpa [ht] using h
      refine ⟨i,d,hc,?_,hshow⟩
      obtain ⟨⟨i',d'⟩,ho⟩ := Option.isSome_iff_exists.mp (hp.owned hpub)
      obtain ⟨t'',hc',_⟩ := hs.owned i' d' ho
      rw [hc] at hc'
      obtain ⟨_,rfl,rfl⟩ : t' = t'' ∧ i = i' ∧ d = d' := by simpa using hc'
      exact ho
    · obtain ⟨rfl,rfl⟩ : t' = t ∧ event' = event := by simpa [ht] using h
      exact hqueue
  · have ht := hs.unended hpub
    exact ⟨by simp [ht],fun _ _ h => by simp [ht] at h,fun _ _ h => by simp [ht] at h⟩

theorem TerminalInv.closesCleanly (hs : TerminalInv s) (hp : Settled s) (hc : s.terminal.closing) :
    ClosesCleanly s := by
  refine ⟨(hp.clean hc).1,hc,fun t event h => ?_⟩
  by_cases hpub : s.terminal.published
  · obtain ⟨t',i,d,event',_,ht,_,_,hclean,_⟩ := hs.ended hpub
    obtain ⟨rfl,rfl⟩ : t = t' ∧ event = event' := by simpa [ht] using h
    exact hclean hc
  · simp [hs.unended hpub] at h

theorem Move.closing_kept (h : Move c b t k s s') (hr : Running c s t k) (hc : s.terminal.closing) :
    s'.terminal.closing := by
  cases h.terminalMove with
  | quiet owner closing => rwa [closing]
  | publish i d event free =>
    have hh := (hr.clean hc).1
    simp [free] at hh
  | claimClean reason kind free owner closing => exact closing
  | conclude event concluding owner closing => rwa [closing]

theorem closing_preserved : Preserved c anyStep (fun s => s.terminal.closing)
    fun _ _ _ s => s.terminal.closing where
  wake _ hs _ hst := by
    rw [hst.frame]
    exact hs
  move hr hm hs := hm.closing_kept hr hs
  park _ _ _ hs _ := hs
  stop _ _ _ hs _ := hs
  consume _ hs h := by
    obtain ⟨_,_,_,rfl,_⟩ := consume_frame h
    exact hs
  interfere _ hs := hs

/-- At most one terminal is ever put on the queue, by the task that claimed it and as it claimed it. A
clean close that has been claimed stays claimed, and no other terminal than its own follows. -/
theorem terminal_has_one_owner (h : Reachable c s) : OneTerminal s ∧
    ∀ s', Steps (step c) anyStep s s' → OneTerminal s' ∧ (s.terminal.closing → ClosesCleanly s') := by
  have hp : Placed c s := placed h
  have hs : TerminalInv s := terminal_invariant.reachable h
  refine ⟨hs.oneTerminal hp.toSettled,fun s' hst => ?_⟩
  have hp' : Placed c s' := placed_steps hst hp
  have hs' : TerminalInv s' := terminal_invariant.steps hp hs hst
  exact ⟨hs'.oneTerminal hp'.toSettled,fun hc =>
    hs'.closesCleanly hp'.toSettled (closing_preserved.steps hp hc hst)⟩

/-- A close whose frame cannot be sent in time. -/
def hangup : List Action :=
  [.call (.close "client_hangup") "e", .resume 3 .ready "f", .resume 3 .timeout "g"]

theorem terminal_has_one_owner_hangup : OneTerminal (QwenOmni.sampleRun hangup) ∧
    ∀ s', Steps (step QwenOmni.sample) anyStep (QwenOmni.sampleRun hangup) s' → OneTerminal s' ∧
      ((QwenOmni.sampleRun hangup).terminal.closing → ClosesCleanly s') :=
  terminal_has_one_owner (QwenOmni.sampleRun_reachable (by with_unfolding_all decide))

/-! Nothing comes behind the terminal, unless a frame in the hands of the receive loop carries it. -/

def putOf : Observation → Option RealtimeEvent
  | .put _ event _ => some event
  | _ => none

def deliveryOf : Observation → Option RealtimeEvent
  | .delivered event => some event
  | _ => none

/-- The events that were put on the queue, newest first. -/
def puts (s : Session A) : List RealtimeEvent := s.log.filterMap putOf

/-- The events that the stream has yielded, newest first. -/
def deliveries (s : Session A) : List RealtimeEvent := s.log.filterMap deliveryOf

/-- No event was put behind a terminal and none was yielded behind one. -/
def TerminalLast (s : Session A) : Prop :=
  (∀ event ∈ s.puts.tail, event.isTerminal = false) ∧ ∀ event ∈ s.deliveries.tail, event.isTerminal = false

/-- The step hands the receive loop no frame that carries an event behind the published terminal. -/
def SilentAfterEnd (c : SessionConfig A) (s : Session A) : Action → Prop
  | .resume _ (.frame payload) _ => s.terminal.published → s.offers c payload = false
  | _ => True

/-- The queue is first in, first out: what is queued and what was yielded were put in this order. -/
def Fifo (s : Session A) : Prop := (s.output.events.reverse ++ s.deliveries).Sublist s.puts

theorem fifo_put (h : Fifo s) (event : RealtimeEvent) : Fifo (s.put c t event) := by
  have hd : (s.put c t event).deliveries = s.deliveries := rfl
  have hp : (s.put c t event).puts = event :: s.puts := rfl
  rw [Fifo,hd,hp]
  simpa [put] using h.cons_cons event

theorem fifo_drain (h : Fifo s) : Fifo s.drain := by
  have hd : s.drain.deliveries = s.deliveries := rfl
  have hp : s.drain.puts = s.puts := rfl
  rw [Fifo,hd,hp]
  simpa [drain] using (List.sublist_append_right _ _).trans h

theorem Fifo.of_frame (h : Fifo s) (houtput : s'.output = s.output) (hlog : s'.log = s.log) : Fifo s' := by
  rw [Fifo,deliveries,puts,houtput,hlog]
  exact h

theorem fifo_putTerminalSafe (h : Fifo s) (event : RealtimeEvent) : Fifo (s.putTerminalSafe c t event) := by
  have hs : Fifo ({ s with terminal := { s.terminal with sequenceStarted := true } } : Session A) := h
  unfold putTerminalSafe
  dsimp only
  split
  · exact fifo_put hs event
  · exact fifo_put (fifo_drain hs) event

/-- Observations that are neither puts nor deliveries do not matter. -/
theorem Fifo.observe (h : Fifo s) {o : Observation} (hp : putOf o = none) (hd : deliveryOf o = none) :
    Fifo (s.observe o) := by
  have hd' : (s.observe o).deliveries = s.deliveries := List.filterMap_cons_none hd
  have hp' : (s.observe o).puts = s.puts := List.filterMap_cons_none hp
  rw [Fifo,hd',hp']
  exact h

theorem fifo_publish (h : Fifo s) (e : TerminalEvent) (i : CloseInitiator) (d : CloseDisposition) :
    Fifo (s.publish c t e i d) := by
  have hclaim : Fifo (s.claim t i d) := (h.observe (o := .claimed t i d) rfl rfl).of_frame rfl rfl
  simp only [publish,putTerminal]
  refine (fifo_putTerminalSafe ?_ _).of_frame rfl rfl
  cases e with
  | failed failed => exact hclaim.of_frame rfl rfl
  | closed closed => exact hclaim.of_frame rfl rfl

theorem fifo_settleResponse (h : Fifo s) : Fifo (s.settleResponse c t) := by
  unfold settleResponse
  split
  · exact h
  · exact (fifo_putTerminalSafe h _).of_frame rfl rfl

theorem fifo_concludeClose (h : Fifo s) (reason : String) (ack : Option SessionClosed) :
    Fifo (s.concludeClose c t reason ack) := by
  have hcancel : Fifo s.cancelCloseAck := by
    rw [cancelCloseAck_frame]
    exact h.of_frame rfl rfl
  exact (fifo_putTerminalSafe (fifo_settleResponse hcancel) _).of_frame rfl rfl

theorem fifo_endResponse (h : Fifo s) (response : ResponseFinished) (batch : Bool) :
    Fifo (s.endResponse c t response batch) := by
  have hended : Fifo (s.addTerminalResponse response.responseId) := h.of_frame rfl rfl
  unfold endResponse
  split
  · exact fifo_putTerminalSafe hended _
  · exact fifo_put hended _

theorem Move.fifo (h : Move c b t k s s') (hs : Fifo s) : Fifo s' := by
  cases h
  case transcribed turnId text _ _ _ _ => exact fifo_put (hs.of_frame rfl rfl) _
  case put event _ _ _ _ _ _ => exact fifo_put hs event
  case finish response batch _ _ _ _ _ => exact fifo_endResponse hs response batch
  case publish e i d _ _ => exact fifo_publish hs e i d
  case claimClean reason _ _ => exact (hs.observe (o := .claimed t .client .clean) rfl rfl).of_frame rfl rfl
  case conclude reason ack _ _ _ _ => exact fifo_concludeClose hs reason ack
  case register => rw [registerTool_frame]; exact hs
  case followup => rw [requestFollowup_frame]; exact hs
  case introduce => rw [introduce_frame]; exact hs
  case ackResult id r _ _ _ => exact (hs.observe (o := .resultAcked id) rfl rfl).of_frame rfl rfl
  case issue => exact hs.observe rfl rfl
  case accept => exact hs.observe rfl rfl
  case submitReturned => exact hs.observe rfl rfl
  case dispatched => exact hs.observe rfl rfl
  case ackContext d _ =>
    have houtput : (s.acknowledgeContext d).output = s.output := by rw [acknowledgeContext_frame]
    obtain h | ⟨requestId,itemId,h,_⟩ := acknowledgeContext_log (s := s) d
    · exact hs.of_frame houtput h
    · exact (hs.observe (o := .contextAcked requestId itemId) rfl rfl).of_frame houtput h
  case claimKey key _ _ _ _ _ _ _ _ => exact (hs.observe (o := .keyClaimed t key) rfl rfl).of_frame rfl rfl
  case confirmKey inj key itemId _ _ _ _ _ _ _ =>
    exact (hs.observe (o := .keyConfirmed key itemId) rfl rfl).of_frame rfl rfl
  all_goals exact hs.of_frame rfl rfl

theorem Fifo.consume (hs : Fifo s) (h : s.consume c = some s') : Fifo s' := by
  unfold Session.consume at h
  split at h
  · simp at h
  · rename_i event events hq
    obtain rfl := Option.some.inj h
    unfold Fifo at hs
    rw [hq,List.reverse_cons,List.append_assoc,List.singleton_append] at hs
    split
    · exact ((List.sublist_cons_self event s.deliveries).append_left events.reverse).trans hs
    · exact hs

theorem consume_puts (h : s.consume c = some s') : s'.puts = s.puts := by
  obtain ⟨output,counters,new,rfl,hnew⟩ := consume_frame h
  refine filterMap_log (fun o ho => ?_) s.log
  obtain ⟨event,rfl⟩ := hnew o ho
  rfl

/-- While a task runs in a step that brings `b`. -/
structure LastInv (b : Brings) (s : Session A) : Prop extends TerminalInv s where
  silent : b.speaks → ¬b.late
  last : ∀ event ∈ s.puts.tail, event.isTerminal = false
  fifo : Fifo s

theorem puts_terminal {event : RealtimeEvent} (h : event ∈ s.puts) (ht : event.isTerminal) :
    ∃ t, (t,event) ∈ s.terminals := by
  obtain ⟨o,ho,he⟩ := List.mem_filterMap.mp h
  cases o
  case put by_ event' _ =>
    obtain rfl : event' = event := Option.some.inj he
    exact ⟨by_,List.mem_filterMap.mpr ⟨_,ho,by simp [terminalOf,ht]⟩⟩
  all_goals simp [putOf] at he

theorem LastInv.move (hr : Running c s t k) (h : Move c b t k s s') (hs : LastInv b s) : LastInv b s' := by
  refine ⟨TerminalInv.move hr h hs.toTerminalInv,hs.silent,fun event he => ?_,h.fifo hs.fifo⟩
  obtain ⟨new,hlog,hnew,htail,_⟩ := h.log_grows
  have hputs : s'.puts = new.filterMap putOf ++ s.puts := by
    rw [puts,hlog,List.filterMap_append]
    rfl
  rw [hputs] at he
  by_cases hp : s.terminal.published
  · -- nothing is put any more
    have hnone : new.filterMap putOf = [] := by
      refine List.filterMap_eq_nil_iff.mpr fun o ho => ?_
      have hlogged := hnew o ho
      cases o
      case put by_ event' _ =>
        obtain ⟨_,hput⟩ := hlogged
        have howner := hr.owned hp
        split at hput
        · obtain ⟨hn,_⟩ | ⟨⟨_,_,hn⟩,_⟩ := hput
          · simp [hn] at howner
          · exact absurd hp hn
        · obtain ⟨hspeaks,hlate,_⟩ | ⟨_,_,hn⟩ := hput
          · exact absurd (hlate hp) (hs.silent hspeaks)
          · exact absurd hp hn
      all_goals rfl
    rw [hnone] at he
    exact hs.last event he
  · -- the terminal can only be the newest of the new events
    have hold : ∀ event ∈ s.puts, event.isTerminal = false := by
      intro event he
      by_contra ht
      obtain ⟨t',ht'⟩ := puts_terminal he (by simpa using ht)
      simp [hs.unended hp] at ht'
    have hnew' : ∀ event ∈ new.tail.filterMap putOf, event.isTerminal = false := by
      intro event he
      obtain ⟨o,ho,hput⟩ := List.mem_filterMap.mp he
      have hh := htail o ho
      cases o
      case put by_ event' _ =>
        obtain rfl : event' = event := Option.some.inj hput
        exact hh
      all_goals simp [putOf] at hput
    have hall : event ∈ new.tail.filterMap putOf ++ s.puts := by
      cases new with
      | nil => exact List.mem_of_mem_tail he
      | cons o rest =>
        cases ho : putOf o with
        | none => rw [List.filterMap_cons_none ho] at he; exact List.mem_of_mem_tail he
        | some event' => rw [List.filterMap_cons_some ho] at he; exact he
    exact (List.mem_append.mp hall).elim (hnew' event) (hold event)

theorem Fifo.last (h : Fifo s) (hl : ∀ event ∈ s.puts.tail, event.isTerminal = false) : TerminalLast s := by
  refine ⟨hl,fun event he => hl event ?_⟩
  have hsub : s.deliveries.Sublist s.puts := (List.sublist_append_right _ _).trans h
  exact hsub.tail.subset he

/-- A frame that is silent behind the terminal brings no such event. -/
theorem silent_brings {a : Action} (h : SilentAfterEnd c s a) : (brings c s a).speaks → ¬(brings c s a).late := by
  cases a with
  | call call fresh => cases call <;> simp [brings]
  | resume t signal fresh =>
    unfold brings
    dsimp only
    split
    · simp
    · rename_i task _
      split
      case h_1 payload _ =>
        intro hs hl
        have hspeaks : s.offers c payload = true := hs
        exact absurd (h hl) (by simp [hspeaks])
      case h_5 => split <;> simp
      all_goals simp
  | consume => simp [brings]
  | interfere shared => simp [brings]

theorem last_invariant : Invariant c (SilentAfterEnd c)
    (fun s => LastInv { fresh := "" } s) fun b _ _ s => LastInv b s where
  start shared id := by
    refine ⟨terminal_invariant.start shared id (c := c),by simp,?_,?_⟩
    · simp [puts,useId,fresh]
    · simp [Fifo,useId,fresh,deliveries,puts]
  wake _ hs hok hst := by
    have hframe := hst.frame
    refine ⟨hst.terminalInv hs.toTerminalInv,silent_brings hok,?_,?_⟩
    · rw [hframe]
      exact hs.last
    · rw [hframe]
      exact hs.fifo
  move hr hm hs := LastInv.move hr hm hs
  park _ _ _ hs _ := ⟨hs.toTerminalInv.of_frame rfl rfl rfl rfl,by simp,hs.last,hs.fifo⟩
  stop _ _ _ hs _ := ⟨hs.toTerminalInv.of_frame rfl rfl rfl rfl,by simp,hs.last,hs.fifo⟩
  consume _ hs h := by
    refine ⟨hs.toTerminalInv.consume h,by simp,?_,hs.fifo.consume h⟩
    rw [consume_puts h]
    exact hs.last
  interfere _ hs := ⟨hs.toTerminalInv.of_frame rfl rfl rfl rfl,by simp,hs.last,hs.fifo⟩

/-- In a run whose frames are silent behind the terminal, the terminal is last. -/
theorem terminal_is_last (h : Transition.ReachableWith (step c) (SilentAfterEnd c) (Init c) s) :
    TerminalLast s := by
  have hs := last_invariant.reachable h
  exact hs.fifo.last hs.last

section

open QwenOmni (sample sampleReady sampleRun sampleRun_reachable sampleRun_reachableWith)

/-- A write times out, and its sender closes the connection behind the terminal. -/
def expiredSend : List Action := [.call (.sendAudio [0,0]) "e", .resume 2 .timeout "f"]

theorem terminal_is_last_expired : TerminalLast (sampleRun expiredSend) := by
  refine terminal_is_last (sampleRun_reachableWith (fun s _ => !s.terminal.published) ?_ (by with_unfolding_all decide))
  intro s a hs
  cases a with
  | resume t signal fresh => cases signal <;> simp_all [SilentAfterEnd]
  | _ => trivial

/-- While the sender waits for the connection to close, the receive loop still forwards an expiry notice. -/
def expiryBehindTerminal : List Action := expiredSend ++ [.resume 1 (.frame (QwenOmni.serverFrame
  "tokenseller.session.expiring" "ctl_1" [("remaining_ms",.int 1000)])) "g"]

theorem terminal_not_last : Reachable sample (sampleRun expiryBehindTerminal) ∧
    ¬TerminalLast (sampleRun expiryBehindTerminal) := by
  refine ⟨sampleRun_reachable (by with_unfolding_all decide),?_⟩
  unfold TerminalLast
  with_unfolding_all decide

end

end Session
end HarnessSdk
