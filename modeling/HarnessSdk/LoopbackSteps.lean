import HarnessSdk.LoopbackHost

/-!
# Steps of the loopback host

What a call of the host does from one suspension to the next.
-/

namespace HarnessSdk
namespace Transports
namespace HostLoop

open Run

variable {cfg : HostConfig} {n : ℕ} {s u v : HostLoop} {request : HostRequest} {signal : Option HostSignal}
  {state : HostState}

def startHandler (s : HostLoop) (n : ℕ) : HostLoop :=
  s.update fun host => { host with handlerTasks := host.handlerTasks.insert n }

def finished (s : HostLoop) : HostLoop := (s.update fun host => { host with channels := [], handlerTasks := [] }).setDone

/-- `close` behind the channels. -/
inductive CloseEnd (n : ℕ) (snapshot : Snapshot) (v : HostLoop) : HostLoop → HostState → Prop
  | awaiting : CloseEnd n snapshot v (v.cancelTasks (v.unfinished n snapshot.handlers))
      (.at (.awaitingTasks (snapshot.pendingTasks ++ v.unfinished n snapshot.handlers)))
  | finished (htasks : snapshot.pendingTasks = []) (hhandlers : v.unfinished n snapshot.handlers = []) :
      CloseEnd n snapshot v ((v.cancelTasks []).finished.observe (.closed n)) .returned

/-- `close` behind the pending sockets. -/
inductive CloseRest (n : ℕ) (snapshot : Snapshot) (v : HostLoop) : HostLoop → HostState → Prop
  | channels : CloseRest n snapshot v { v with closers := gather v.closers snapshot.channels }
      (.at (.closingChannels snapshot))
  | rest {u : HostLoop} {state : HostState} (hchannels : snapshot.channels = []) (h : CloseEnd n snapshot v u state) :
      CloseRest n snapshot v u state

/-- What a call does from one suspension to the next. -/
inductive Turn (cfg : HostConfig) (s : HostLoop) (n : ℕ) (request : HostRequest) (signal : Option HostSignal) :
    Option HostPoint → HostLoop → HostState → Prop
  | gateClosed (e : HostExn) (hclosed : s.host.closed) :
      Turn cfg s n request signal none (s.observe (.socketClose n 1001)) (.at (.rejecting false e))
  | gateBusy (e : HostExn) (hrequest : request ≠ .close) (hopen : s.host.closed = false)
      (hfull : cfg.maxConnections ≤ s.host.channels.length + s.host.pending.length) :
      Turn cfg s n request signal none ((s.observe (.busy n s.liveCount)).observe (.socketClose n 1001)) (.at (.rejecting false e))
  | entered (hrequest : request ≠ .close) (hopen : s.host.closed = false) (hroom : s.host.channels.length + s.host.pending.length < cfg.maxConnections) :
      Turn cfg s n request signal none (s.enter n) (.at .receiving)
  | misrouted (code : ℕ) (e : HostExn) (hopen : s.host.closed = false)
      (hroom : s.host.channels.length + s.host.pending.length < cfg.maxConnections) :
      Turn cfg s n request signal none ((s.enter n).observe (.socketClose n code)) (.at (.rejecting true e))
  | rejected (code : ℕ) (e : HostExn) :
      Turn cfg s n request signal (some .receiving) (s.observe (.socketClose n code)) (.at (.rejecting true e))
  | secondBusy (code : ℕ) (e : HostExn) (hopen : s.host.closed = false)
      (hfull : cfg.maxConnections ≤ s.host.channels.length) :
      Turn cfg s n request signal (some .receiving) ((s.observe (.busy n s.liveCount)).observe (.socketClose n code))
        (.at (.rejecting true e))
  | left {point : HostPoint} (e : HostExn) (hpoint : point = .receiving ∨ ∃ behind, point = .rejecting true behind) :
      Turn cfg s n request signal (some point) (s.dropPending n) (.raised e)
  | refused (behind e : HostExn) : Turn cfg s n request signal (some (.rejecting false behind)) s (.raised e)
  | accepted (hopen : s.host.closed = false) (hroom : s.host.channels.length < cfg.maxConnections) :
      Turn cfg s n request signal (some .receiving) ((s.addChannel cfg n).dropPending n) .returned
  | running (hopen : s.host.closed = false) (hroom : s.host.channels.length < cfg.maxConnections) :
      Turn cfg s n request signal (some .receiving) (((s.addChannel cfg n).dropPending n).startHandler n) (.at .handling)
  | handled (behind : Option HostExn) (hfree : s.isFree (.call n)) :
      Turn cfg s n request signal (some .handling) (s.closeFinal n 1000) (.at (.closing behind))
  | discarded {state : HostState} (behind : Option HostExn) (huse : s.useState n .final = some .returned)
      (hstate : ∀ point, state ≠ .at point) : Turn cfg s n request signal (some (.closing behind)) (s.discard n) state
  | unreturned {point : HostPoint} (e : HostExn) (hpoint : point = .refusing ∨ ∃ behind, point = .closing behind) :
      Turn cfg s n request signal (some point) s (.raised e)
  | waits (hrequest : request = .close) (hclosed : s.host.closed) : Turn cfg s n request signal none s (.at .waiting)
  | done {before : Option HostPoint} (hdone : s.host.closeOwner = some n ∨ s.host.closeDone)
      (hbefore : before = none ∧ request = .close ∧ s.host.closed ∨ before = some .waiting) :
      Turn cfg s n request signal before (s.observe (.closed n)) .returned
  | unwaited (e : HostExn) : Turn cfg s n request signal (some .waiting) s (.raised e)
  | rejecting (hopen : s.host.closed = false) : Turn cfg s n request signal none
      { s.claimClose n with rejections := gather s.rejections s.host.pending } (.at (.rejectingPending (s.takeSnapshot n)))
  | nothingPending {u : HostLoop} {state : HostState} (hopen : s.host.closed = false) (hpending : s.host.pending = [])
      (h : CloseRest n (s.takeSnapshot n) (s.claimClose n) u state) : Turn cfg s n request signal none u state
  | pendingRejected {u : HostLoop} {state : HostState} (snapshot : Snapshot)
      (hrejected : ∀ m ∈ snapshot.pending, s.rejections m = some .ended) (h : CloseRest n snapshot s u state) :
      Turn cfg s n request signal (some (.rejectingPending snapshot)) u state
  | channelsClosed {u : HostLoop} {state : HostState} (snapshot : Snapshot)
      (hclosed : ∀ c ∈ snapshot.channels, s.useState c .gathered = some .returned) (h : CloseEnd n snapshot s u state) :
      Turn cfg s n request signal (some (.closingChannels snapshot)) u state
  | tasksOver (tasks : List ℕ) (hover : ∀ t ∈ tasks, s.isOver t) :
      Turn cfg s n request signal (some (.awaitingTasks tasks)) (s.finished.observe (.closed n)) .returned
  | closeRaised {point : HostPoint} (e : HostExn)
      (hpoint : (∃ snapshot, point = .rejectingPending snapshot ∨ point = .closingChannels snapshot) ∨
        ∃ tasks, point = .awaitingTasks tasks)
      (hwhy : signal = some .cancelled ∨ ∃ c, s.useState c .gathered = some (.raised .cancelled)) :
      Turn cfg s n request signal (some point) s.setDone (.raised e)

theorem closeEnd (n : ℕ) (snapshot : Snapshot) (v : HostLoop) :
    CloseEnd n snapshot v (cancelHandlers n snapshot v).state (stateOf (cancelHandlers n snapshot v)) := by
  by_cases hnil : snapshot.pendingTasks ++ v.unfinished n snapshot.handlers = []
  · simp only [cancelHandlers,get_bind,modify_bind,if_pos hnil]
    obtain ⟨htasks,hhandlers⟩ := List.append_eq_nil_iff.mp hnil
    have hend := CloseEnd.finished (v := v) (n := n) htasks hhandlers
    rw [hhandlers]
    exact hend
  · simp only [cancelHandlers,get_bind,modify_bind,if_neg hnil]
    exact .awaiting

theorem closeRest (n : ℕ) (snapshot : Snapshot) (v : HostLoop) :
    CloseRest n snapshot v (closeChannels n snapshot v).state (stateOf (closeChannels n snapshot v)) := by
  by_cases hnil : snapshot.channels = []
  · simp only [closeChannels,if_pos hnil]
    exact .rest hnil (closeEnd n snapshot v)
  · simp only [closeChannels,if_neg hnil,modify_bind]
    exact .channels

theorem turn_close (hrequest : request = .close) : Turn cfg s n request signal none (close n s).state (stateOf (close n s)) := by
  by_cases hclosed : s.host.closed
  · simp only [close,get_bind,if_pos hclosed]
    by_cases hdone : s.host.closeOwner = some n ∨ s.host.closeDone
    · rw [if_pos hdone]
      exact .done hdone (.inl ⟨rfl,hrequest,hclosed⟩)
    · rw [if_neg hdone]
      exact .waits hrequest hclosed
  · have hopen : s.host.closed = false := by simpa using hclosed
    simp only [close,get_bind,if_neg hclosed,modify_bind]
    by_cases hpending : (s.takeSnapshot n).pending = []
    · simp only [rejectPending,if_pos hpending]
      exact .nothingPending hopen hpending (closeRest _ _ _)
    · simp only [rejectPending,if_neg hpending,modify_bind]
      exact .rejecting hopen

theorem turn_accept {admission : Admission} (hrequest : request ≠ .close) :
    Turn cfg s n request signal none (accept cfg n admission s).state (stateOf (accept cfg n admission s)) := by
  by_cases hclosed : s.host.closed
  · simp only [accept,get_bind,if_pos hclosed]
    exact .gateClosed _ hclosed
  · have hopen : s.host.closed = false := by simpa using hclosed
    by_cases hfull : cfg.maxConnections ≤ s.host.channels.length + s.host.pending.length
    · simp only [accept,get_bind,if_neg hclosed,if_pos hfull,modify_bind]
      exact .gateBusy _ hrequest hopen hfull
    · simp only [accept,get_bind,if_neg hclosed,if_neg hfull,modify_bind,handshake]
      have hroom := not_le.mp hfull
      cases routeError cfg admission with
      | none => exact .entered hrequest hopen hroom
      | some code => exact .misrouted 1008 _ hopen hroom

/-- A channel that has just been admitted is not closed. -/
theorem addChannel_open (s : HostLoop) (n : ℕ) : ((s.addChannel cfg n).dropPending n).channelClosed n = false := by
  simp [channelClosed,addChannel,dropPending,setLoop,update]

theorem turn_secondGate (hrequest : request ≠ .close) :
    Turn cfg s n request signal (some .receiving) (secondGate cfg n request s).state (stateOf (secondGate cfg n request s)) := by
  by_cases hclosed : s.host.closed
  · simp only [secondGate,get_bind,if_pos hclosed]
    exact .rejected 1001 _
  · have hopen : s.host.closed = false := by simpa using hclosed
    by_cases hfull : cfg.maxConnections ≤ s.host.channels.length
    · simp only [secondGate,get_bind,if_neg hclosed,if_pos hfull,modify_bind]
      exact .secondBusy 1001 _ hopen hfull
    · have hroom := not_le.mp hfull
      simp only [secondGate,get_bind,if_neg hclosed,if_neg hfull,modify_bind]
      cases request with
      | accept admission => exact .accepted hopen hroom
      | close => exact absurd rfl hrequest
      | run admission =>
        have hrunnable : ¬(((s.addChannel cfg n).dropPending n).host.closed ∨
            ((s.addChannel cfg n).dropPending n).channelClosed n) := by
          rw [addChannel_open]
          simp [addChannel,dropPending,setLoop,update,hopen]
        simp only [HostLoop.accepted,runChannel,get_bind,if_neg hrunnable,modify_bind]
        exact .running hopen hroom

theorem turn_received {first : FirstFrame} (hrequest : request ≠ .close) :
    Turn cfg s n request signal (some .receiving) (received cfg n request first s).state
      (stateOf (received cfg n request first s)) := by
  cases hauth : authMessage cfg.maxFrameBytes first with
  | error e =>
    cases e with
    | admission code =>
      simp only [received,hauth]
      exact .rejected _ _
    | other | cancelled =>
      simp only [received,hauth]
      exact .left _ (.inl rfl)
  | ok auth =>
    simp only [received,hauth]
    by_cases hascii : (!isAscii auth || !isAscii cfg.sharedSecret) = true
    · rw [if_pos hascii]
      exact .left _ (.inl rfl)
    · rw [if_neg hascii]
      by_cases hsecret : auth ≠ cfg.sharedSecret
      · rw [if_pos hsecret]
        exact .rejected _ _
      · rw [if_neg hsecret]
        exact turn_secondGate hrequest

theorem turn_rejected {pending : Bool} (behind e : HostExn) :
    Turn cfg s n request signal (some (.rejecting pending behind)) (HostLoop.rejected n pending e s).state
      (stateOf (HostLoop.rejected n pending e s)) := by
  cases pending with
  | false => exact .refused behind e
  | true => exact .left e (.inr ⟨behind,rfl⟩)

theorem turn_finalClosed {behind : Option HostExn} (huse : s.useState n .final = some .returned) :
    Turn cfg s n request signal (some (.closing behind)) (finalClosed n behind s).state (stateOf (finalClosed n behind s)) := by
  have hstate : ∀ point, stateOf (finalClosed n behind s) ≠ .at point := by
    intro point
    cases behind <;> exact nofun
  have hu : (finalClosed n behind s).state = s.discard n := by cases behind <;> rfl
  rw [hu]
  exact .discarded behind huse hstate

/-- The calls of `accept` and `run` are the ones that receive a frame. -/
def Received (s : HostLoop) : Prop :=
  ∀ n request, s.calls n = some { request, state := .at .receiving } → request ≠ .close

/-- The inversion of `resumeCall`. -/
theorem turn_resume {point : HostPoint} {signal : HostSignal} {m : HostProg Unit}
    (h : resumeCall cfg s n request point signal = some m) (hrequest : point = .receiving → request ≠ .close) :
    Turn cfg s n request (some signal) (some point) (m s).state (stateOf (m s)) := by
  cases point with
  | receiving =>
    cases signal with
    | first frame =>
      obtain rfl := Option.some.inj h
      exact turn_received (hrequest rfl)
    | timeout =>
      obtain rfl := Option.some.inj h
      exact .rejected _ _
    | raised | cancelled =>
      obtain rfl := Option.some.inj h
      exact .left _ (.inl rfl)
    | ready => cases h
  | rejecting pending behind =>
    cases signal with
    | ready | timeout | raised | cancelled =>
      obtain rfl := Option.some.inj h
      exact turn_rejected behind _
    | first => cases h
  | refusing =>
    cases signal with
    | ready =>
      simp only [resumeCall] at h
      split at h
      · obtain rfl := Option.some.inj h
        exact .unreturned _ (.inl rfl)
      · obtain rfl := Option.some.inj h
        exact .unreturned _ (.inl rfl)
      · cases h
    | first | timeout | raised | cancelled => cases h
  | handling =>
    cases signal with
    | ready | raised | cancelled =>
      simp only [resumeCall,Option.ite_none_right_eq_some,Option.some.injEq] at h
      obtain ⟨hfree,rfl⟩ := h
      exact .handled _ hfree
    | first | timeout => cases h
  | closing behind =>
    cases signal with
    | ready =>
      simp only [resumeCall] at h
      split at h
      · rename_i huse
        obtain rfl := Option.some.inj h
        exact turn_finalClosed huse
      · obtain rfl := Option.some.inj h
        exact .unreturned _ (.inr ⟨behind,rfl⟩)
      · cases h
    | first | timeout | raised | cancelled => cases h
  | waiting =>
    cases signal with
    | ready =>
      simp only [resumeCall,Option.ite_none_right_eq_some,Option.some.injEq] at h
      obtain ⟨hdone,rfl⟩ := h
      exact .done (.inr hdone) (.inr rfl)
    | cancelled =>
      obtain rfl := Option.some.inj h
      exact .unwaited _
    | first | timeout | raised => cases h
  | rejectingPending snapshot =>
    cases signal with
    | ready =>
      simp only [resumeCall,Option.ite_none_right_eq_some,Option.some.injEq] at h
      obtain ⟨hrejected,rfl⟩ := h
      simp only [List.all_eq_true,decide_eq_true_eq] at hrejected
      exact .pendingRejected snapshot hrejected (closeRest n snapshot s)
    | cancelled =>
      obtain rfl := Option.some.inj h
      exact .closeRaised _ (.inl ⟨snapshot,.inl rfl⟩) (.inl rfl)
    | first | timeout | raised => cases h
  | closingChannels snapshot =>
    cases signal with
    | ready =>
      simp only [resumeCall,Option.ite_none_right_eq_some,Option.some.injEq] at h
      obtain ⟨hclosed,rfl⟩ := h
      simp only [List.all_eq_true,decide_eq_true_eq] at hclosed
      exact .channelsClosed snapshot hclosed (closeEnd n snapshot s)
    | raised =>
      simp only [resumeCall,Option.ite_none_right_eq_some,Option.some.injEq] at h
      obtain ⟨hraised,rfl⟩ := h
      obtain ⟨c,_,hc⟩ := List.any_eq_true.mp hraised
      exact .closeRaised _ (.inl ⟨snapshot,.inr rfl⟩) (.inr ⟨c,of_decide_eq_true hc⟩)
    | cancelled =>
      obtain rfl := Option.some.inj h
      exact .closeRaised _ (.inl ⟨snapshot,.inr rfl⟩) (.inl rfl)
    | first | timeout => cases h
  | awaitingTasks tasks =>
    cases signal with
    | ready =>
      simp only [resumeCall,Option.ite_none_right_eq_some,Option.some.injEq] at h
      obtain ⟨hover,rfl⟩ := h
      exact .tasksOver tasks (List.all_eq_true.mp hover)
    | cancelled =>
      obtain rfl := Option.some.inj h
      exact .closeRaised _ (.inr ⟨tasks,rfl⟩) (.inl rfl)
    | first | timeout | raised => cases h

/-- A channel is used, or a task that `close` gathers goes on. -/
inductive Other (s : HostLoop) : HostAction → HostLoop → Prop
  | used (c k : ℕ) (task : HostTask) (loop loop' : ChannelLoop ChannelUse HostTask) (action : ChannelAction ChannelUse HostTask)
      (hloop : s.loops c = some loop) (haction : (∃ code, action = .close (.product k) task code) ∨
        action = .receive (.product k) task)
      (htask : s.mayUse task) (h : loop.step loopbackWebSocketRealtimeChannel action = some loop') :
      Other s (.channel c action) { s.setLoop c loop' with uses := (c,k) :: s.uses }
  | goesOn (c : ℕ) (loop loop' : ChannelLoop ChannelUse HostTask) (action : ChannelAction ChannelUse HostTask)
      (hloop : s.loops c = some loop)
      (haction : (∃ session, action = .bindSession session) ∨ ∃ use signal, action = .resume use signal)
      (h : loop.step loopbackWebSocketRealtimeChannel action = some loop') :
      Other s (.channel c action) (s.setLoop c loop')
  | rejecting (m : ℕ) (h : s.rejections m = some .created) :
      Other s (.reject m) ({ s with rejections := Function.update s.rejections m (some .started) }.observe (.socketClose m 1001))
  | rejected (m : ℕ) (h : s.rejections m = some .started) :
      Other s (.reject m) { s with rejections := Function.update s.rejections m (some .ended) }
  | closing (c : ℕ) (loop loop' : ChannelLoop ChannelUse HostTask) (hcreated : s.closers c = some .created)
      (hloop : s.loops c = some loop)
      (h : loop.step loopbackWebSocketRealtimeChannel (.close .gathered (.closer c) (some 1000)) = some loop') :
      Other s (.startCloser c) { s.setLoop c loop' with closers := Function.update s.closers c (some .started) }

theorem other_channel {c : ℕ} {loop : ChannelLoop ChannelUse HostTask} {action : ChannelAction ChannelUse HostTask}
    (hloop : s.loops c = some loop) (h : s.useChannel c loop action = some u) :
    Other s (.channel c action) u := by
  cases action with
  | bindSession session =>
    simp only [useChannel] at h
    obtain ⟨loop',hstep,rfl⟩ := Option.map_eq_some_iff.mp h
    exact .goesOn c loop loop' _ hloop (.inl ⟨session,rfl⟩) hstep
  | resume use signal =>
    simp only [useChannel] at h
    obtain ⟨loop',hstep,rfl⟩ := Option.map_eq_some_iff.mp h
    exact .goesOn c loop loop' _ hloop (.inr ⟨use,signal,rfl⟩) hstep
  | close use task code =>
    cases use with
    | product k =>
      simp only [useChannel,Option.ite_none_right_eq_some] at h
      obtain ⟨htask,h⟩ := h
      obtain ⟨loop',hstep,rfl⟩ := Option.map_eq_some_iff.mp h
      exact .used c k task loop loop' _ hloop (.inl ⟨code,rfl⟩) htask hstep
    | final | gathered => exact nomatch h
  | receive use task =>
    cases use with
    | product k =>
      simp only [useChannel,Option.ite_none_right_eq_some] at h
      obtain ⟨htask,h⟩ := h
      obtain ⟨loop',hstep,rfl⟩ := Option.map_eq_some_iff.mp h
      exact .used c k task loop loop' _ hloop (.inr rfl) htask hstep
    | final | gathered => exact nomatch h

/-- The point of a call that a turn starts from, and the action that makes the turn. -/
inductive Starts (s : HostLoop) (n : ℕ) (request : HostRequest) : HostAction → Option HostSignal → Option HostPoint → Prop
  | begin (h : s.calls n = none) : Starts s n request (.begin n request) none none
  | resume (signal : HostSignal) (point : HostPoint) (h : s.calls n = some { request, state := .at point }) :
      Starts s n request (.resume n signal) (some signal) (some point)

/-- The inversion of `step`. -/
theorem step_cases {a : HostAction} {s' : HostLoop} (h : step cfg s a = some s') (hs : Received s) :
    (∃ n request signal before u state, Starts s n request a signal before ∧ Turn cfg s n request signal before u state ∧
      s' = u.conclude n { request, state }) ∨ Other s a s' := by
  cases a with
  | begin n request =>
    simp only [step,Option.ite_none_right_eq_some,Option.some.injEq] at h
    obtain ⟨hnone,rfl⟩ := h
    refine .inl ⟨n,request,none,none,_,_,.begin hnone,?_,rfl⟩
    cases request with
    | accept admission | run admission => exact turn_accept nofun
    | close => exact turn_close rfl
  | resume n signal =>
    cases hcall : s.calls n with
    | none => simp [step,hcall] at h
    | some call =>
      obtain ⟨request,state⟩ := call
      cases state with
      | «at» point =>
        simp only [step,hcall] at h
        obtain ⟨m,hm,rfl⟩ := Option.map_eq_some_iff.mp h
        refine .inl ⟨n,request,some signal,some point,_,_,.resume signal point hcall,turn_resume hm fun hpoint => ?_,rfl⟩
        subst hpoint
        exact hs n request hcall
      | returned | raised e => simp [step,hcall] at h
  | channel c action =>
    obtain ⟨loop,hloop,hu⟩ := Option.bind_eq_some_iff.mp h
    exact .inr (other_channel hloop hu)
  | reject m =>
    simp only [step] at h
    split at h
    · rename_i hm
      obtain rfl := Option.some.inj h
      exact .inr (.rejecting m hm)
    · rename_i hm
      obtain rfl := Option.some.inj h
      exact .inr (.rejected m hm)
    · exact nomatch h
  | startCloser c =>
    simp only [step] at h
    split at h
    · rename_i loop hcreated hloop
      obtain ⟨loop',hstep,rfl⟩ := Option.map_eq_some_iff.mp h
      exact .inr (.closing c loop loop' hcreated hloop hstep)
    · exact nomatch h

end HostLoop
end Transports
end HarnessSdk
