import HarnessSdk.RealtimeChannel

/-!
# Teardown of a channel

The session of a channel is closed at most once, and never behind the transport. The transport is closed whenever a call
of `close` returns, as long as the closing task is not cancelled while it waits for the session.
-/

namespace HarnessSdk
namespace Transports

set_option linter.unusedSectionVars false

open Run Transition

def ChannelPoint.isClosing : ChannelPoint → Bool
  | closingSession .. | closingTransport _ => true
  | receiving | waiting _ => false

/-- Where a call of `close` is suspended that raises nothing of its own behind it. -/
def ChannelPoint.isPlain : ChannelPoint → Bool
  | receiving => false
  | waiting behind | closingSession _ behind | closingTransport behind => behind.isNone

def CallState.isClosing : CallState → Bool
  | .at point => point.isClosing
  | _ => false

variable {κ τ : Type}

namespace ChannelTrace

def isSessionClose : ChannelTrace κ → Bool
  | sessionClose _ => true
  | _ => false

def isTransportClose : ChannelTrace κ → Bool
  | transportClose _ => true
  | _ => false

def isDeed (t : ChannelTrace κ) : Bool := t.isSessionClose || t.isTransportClose

end ChannelTrace

namespace ChannelLoop

variable [DecidableEq κ] [DecidableEq τ] {kind : ChannelKind} {n : κ} {task : τ} {s s' u : ChannelLoop κ τ}
  {state : CallState}

/-- What a call does from one suspension to the next. -/
inductive Stretch (s : ChannelLoop κ τ) (n : κ) (task : τ) :
    Option ChannelPoint → Option ChannelSignal → ChannelLoop κ τ → CallState → Prop
  | plain {before : Option ChannelPoint} {signal : Option ChannelSignal} {state : CallState}
      (hbefore : before.all fun point => !point.isClosing) (hstate : !state.isClosing) : Stretch s n task before signal s state
  | reentered {before : Option ChannelPoint} {signal : Option ChannelSignal} {state : CallState}
      (hbefore : before.all fun point => !point.isClosing) (hstate : !state.isClosing) :
      Stretch s n task before signal (s.observe (.reentered n)) state
  | returned {before : Option ChannelPoint} {signal : Option ChannelSignal} {state : CallState}
      (hbefore : before.all fun point => !point.isClosing) (hstate : !state.isClosing)
      (hdone : s.channel.closeDone) : Stretch s n task before signal (s.observe (.closed n)) state
  | session {before : Option ChannelPoint} {signal : Option ChannelSignal} (session : ℕ) (code : Option ℕ)
      (behind : Option ChannelExn) (hopen : s.channel.closed = false) :
      Stretch s n task before signal ((s.own task).observe (.sessionClose session)) (.at (.closingSession code behind))
  | transport {before : Option ChannelPoint} {signal : Option ChannelSignal} (code : Option ℕ)
      (behind : Option ChannelExn) (hopen : s.channel.closed = false) :
      Stretch s n task before signal ((s.own task).observe (.transportClose code)) (.at (.closingTransport behind))
  | behind {signal : Option ChannelSignal} (code : Option ℕ) (behind : Option ChannelExn) :
      Stretch s n task (some (.closingSession code behind)) signal (s.observe (.transportClose code))
        (.at (.closingTransport behind))
  | ended {signal : Option ChannelSignal} {state : CallState} (behind : Option ChannelExn) (hstate : !state.isClosing) :
      Stretch s n task (some (.closingTransport behind)) signal (s.setDone.observe (.closed n)) state
  | failed {signal : Option ChannelSignal} (behind : Option ChannelExn) (e : ChannelExn) :
      Stretch s n task (some (.closingTransport behind)) signal s.setDone (.raised e)
  | cancelled (code : Option ℕ) (behind : Option ChannelExn) (e : ChannelExn) :
      Stretch s n task (some (.closingSession code behind)) (some .cancelled) s.setDone (.raised e)

theorem leave_state (t : ChannelTrace κ) (behind : Option ChannelExn) (s : ChannelLoop κ τ) :
    (leave t behind s).state = s.observe t ∧ !(stateOf (leave t behind s)).isClosing := by
  cases behind <;> exact ⟨rfl,rfl⟩

theorem stretch_close {before : Option ChannelPoint} {signal : Option ChannelSignal} {code : Option ℕ}
    {behind : Option ChannelExn} (hbefore : before.all fun point => !point.isClosing) :
    Stretch s n task before signal (close n task code behind s).state (stateOf (close n task code behind s)) := by
  by_cases hclosed : s.channel.closed
  · simp only [close,get_bind,if_pos hclosed]
    by_cases howner : s.channel.closeOwner = some task
    · rw [if_pos howner]
      obtain ⟨hstate,hend⟩ := leave_state (if s.channel.closeDone then .closed n else .reentered n) behind s
      rw [hstate]
      by_cases hdone : s.channel.closeDone
      · rw [if_pos hdone] at hend ⊢
        exact .returned hbefore hend hdone
      · rw [if_neg hdone] at hend ⊢
        exact .reentered hbefore hend
    · rw [if_neg howner]
      by_cases hdone : s.channel.closeDone
      · rw [if_pos hdone]
        obtain ⟨hstate,hend⟩ := leave_state (.closed n) behind s
        rw [hstate]
        exact .returned hbefore hend hdone
      · rw [if_neg hdone]
        exact .plain hbefore rfl
  · have hopen : s.channel.closed = false := by simpa using hclosed
    cases hsession : s.channel.session with
    | none =>
      simp only [close,get_bind,if_neg hclosed,modify_bind,hsession]
      exact .transport code behind hopen
    | some session =>
      simp only [close,get_bind,if_neg hclosed,modify_bind,hsession]
      exact .session session code behind hopen

theorem stretch_received {incoming : Incoming} {signal : Option ChannelSignal} :
    Stretch s n task (some .receiving) signal (received kind n task incoming s).state
      (stateOf (received kind n task incoming s)) := by
  cases hrefuses : kind.refuses s.channel.maxFrameBytes incoming with
  | none =>
    simp only [received,get_bind,hrefuses]
    exact .plain rfl rfl
  | some refusal =>
    simp only [received,get_bind,hrefuses]
    exact stretch_close rfl

theorem stretch_ended {behind : Option ChannelExn} {signal : Option ChannelSignal} (error : Option ChannelExn)
    (after : Option ChannelExn) : Stretch s n task (some (.closingTransport behind)) signal (closeEnded n error after s).state
      (stateOf (closeEnded n error after s)) := by
  cases error with
  | none =>
    simp only [closeEnded,modify_bind]
    obtain ⟨hstate,hend⟩ := leave_state (.closed n) after s.setDone
    rw [hstate]
    exact .ended behind hend
  | some e => exact .failed behind e

/-- The inversion of `resumeCall`. -/
theorem stretch_resume {point : ChannelPoint} {signal : ChannelSignal} {m : ChannelProg κ τ Unit}
    (h : resumeCall kind s n task point signal = some m) :
    Stretch s n task (some point) (some signal) (m s).state (stateOf (m s)) := by
  cases point with
  | receiving =>
    cases signal with
    | incoming incoming =>
      obtain rfl := Option.some.inj h
      exact stretch_received
    | raised | cancelled =>
      obtain rfl := Option.some.inj h
      exact .plain rfl rfl
    | ready | timeout => exact nomatch h
  | waiting behind =>
    cases signal with
    | ready =>
      simp only [resumeCall,Option.ite_none_right_eq_some,Option.some.injEq] at h
      obtain ⟨hdone,rfl⟩ := h
      obtain ⟨hstate,hend⟩ := leave_state (.closed n) behind s
      rw [hstate]
      exact .returned rfl hend hdone
    | cancelled =>
      obtain rfl := Option.some.inj h
      exact .plain rfl rfl
    | incoming | raised | timeout => exact nomatch h
  | closingSession code behind =>
    cases signal with
    | ready | raised | timeout =>
      obtain rfl := Option.some.inj h
      exact .behind code behind
    | cancelled =>
      obtain rfl := Option.some.inj h
      exact .cancelled code behind _
    | incoming => exact nomatch h
  | closingTransport behind =>
    cases signal with
    | ready | raised | timeout | cancelled =>
      obtain rfl := Option.some.inj h
      exact stretch_ended _ _
    | incoming => exact nomatch h

def pointOf : Option (ChannelCall τ) → Option ChannelPoint
  | some { task := _, state := .at point } => some point
  | _ => none

/-- The inversion of `step`. -/
theorem step_cases {a : ChannelAction κ τ} (h : step kind s a = some s') :
    (∃ n task signal u state, Stretch s n task (pointOf (s.calls n)) signal u state ∧
      s' = u.conclude n { task, state } ∧ (∀ given, signal = some given → a = .resume n given) ∧
      (∀ call, s.calls n = some call → call.task = task) ∧
      (signal = none → s.calls n = none ∧ ((∃ code, a = .close n task code) ∨ a = .receive n task))) ∨ ∃ session, s' = s.bindSession session := by
  cases a with
  | bindSession session => exact .inr ⟨session,(Option.some.inj h).symm⟩
  | close n task code =>
    simp only [step,Option.ite_none_right_eq_some,Option.some.injEq] at h
    obtain ⟨hnone,rfl⟩ := h
    refine .inl ⟨n,task,none,_,_,?_,rfl,fun given hgiven => by simp at hgiven,fun call hcall => by simp [hnone] at hcall,
      fun _ => ⟨hnone,.inl ⟨code,rfl⟩⟩⟩
    rw [hnone]
    exact stretch_close rfl
  | receive n task =>
    simp only [step,Option.ite_none_right_eq_some,Option.some.injEq] at h
    obtain ⟨hnone,rfl⟩ := h
    refine .inl ⟨n,task,none,_,_,?_,rfl,fun given hgiven => by simp at hgiven,fun call hcall => by simp [hnone] at hcall,
      fun _ => ⟨hnone,.inr rfl⟩⟩
    rw [hnone]
    by_cases hclosed : s.channel.closed
    · simp only [receive,get_bind,if_pos hclosed]
      exact .plain rfl rfl
    · simp only [receive,get_bind,if_neg hclosed]
      exact .plain rfl rfl
  | resume n signal =>
    cases hcall : s.calls n with
    | none => simp [step,hcall] at h
    | some call =>
      obtain ⟨task,state⟩ := call
      cases state with
      | «at» point =>
        simp only [step,hcall] at h
        obtain ⟨m,hm,rfl⟩ := Option.map_eq_some_iff.mp h
        refine .inl ⟨n,task,some signal,_,_,?_,rfl,fun given hgiven => ?_,fun call hsome => ?_,nofun⟩
        · rw [hcall]
          exact stretch_resume hm
        · rw [Option.some.inj hgiven]
        · rw [hcall] at hsome
          rw [← Option.some.inj hsome]
      | returned | raised e => simp [step,hcall] at h

/-- A channel stays closed. -/
theorem Stretch.closed {before : Option ChannelPoint} {signal : Option ChannelSignal}
    (h : Stretch s n task before signal u state) (hs : s.channel.closed) : u.channel.closed := by
  cases h with
  | session | transport => rfl
  | _ => exact hs

theorem closed_step {a : ChannelAction κ τ} (h : step kind s a = some s') (hs : s.channel.closed) : s'.channel.closed := by
  rcases step_cases h with ⟨n,task,signal,u,state,hstretch,rfl,_,_,_⟩ | ⟨session,rfl⟩
  · exact hstretch.closed hs
  · rw [bindSession,if_pos (.inl hs)]
    exact hs

theorem close_closed (code : Option ℕ) (behind : Option ChannelExn) : (close n task code behind s).state.channel.closed := by
  have hstretch : Stretch s n task none none (close n task code behind s).state (stateOf (close n task code behind s)) :=
    stretch_close rfl
  by_cases hclosed : s.channel.closed
  · exact hstretch.closed hclosed
  · cases hsession : s.channel.session with
    | none =>
      simp only [close,get_bind,if_neg hclosed,modify_bind,hsession]
      rfl
    | some session =>
      simp only [close,get_bind,if_neg hclosed,modify_bind,hsession]
      rfl

/-! The phases of the teardown. -/

def sessionCloses (log : List (ChannelTrace κ)) : ℕ := log.countP ChannelTrace.isSessionClose
def transportCloses (log : List (ChannelTrace κ)) : ℕ := log.countP ChannelTrace.isTransportClose
def deeds (log : List (ChannelTrace κ)) : List (ChannelTrace κ) := log.filter ChannelTrace.isDeed

/-- What a teardown leaves in the log, the newest first. -/
inductive Shape : List (ChannelTrace κ) → Prop
  | nothing : Shape []
  | session (session : ℕ) : Shape [.sessionClose session]
  | transport (code : Option ℕ) : Shape [.transportClose code]
  | both (session : ℕ) (code : Option ℕ) : Shape [.transportClose code,.sessionClose session]

theorem transportCloses_deeds (log : List (ChannelTrace κ)) : transportCloses (deeds log) = transportCloses log := by
  rw [transportCloses,deeds,List.countP_filter,transportCloses]
  congr 1
  funext t
  cases t <;> rfl

theorem sessionCloses_deeds (log : List (ChannelTrace κ)) : sessionCloses (deeds log) = sessionCloses log := by
  rw [sessionCloses,deeds,List.countP_filter,sessionCloses]
  congr 1
  funext t
  cases t <;> rfl

/-- The call closes the session or the transport. -/
def closing (s : ChannelLoop κ τ) (n : κ) : Bool := (pointOf (s.calls n)).any ChannelPoint.isClosing

inductive Phase (s : ChannelLoop κ τ) : Prop
  | fresh (hopen : s.channel.closed = false) (hdone : s.channel.closeDone = false) (hidle : ∀ m, s.closing m = false)
      (hlog : deeds s.log = [])
  | session (n : κ) (code : Option ℕ) (behind : Option ChannelExn) (session : ℕ) (hclosed : s.channel.closed)
      (hdone : s.channel.closeDone = false) (hcall : pointOf (s.calls n) = some (.closingSession code behind))
      (hidle : ∀ m, m ≠ n → s.closing m = false) (hlog : deeds s.log = [.sessionClose session])
  | transport (n : κ) (behind : Option ChannelExn) (hclosed : s.channel.closed) (hdone : s.channel.closeDone = false)
      (hcall : pointOf (s.calls n) = some (.closingTransport behind)) (hidle : ∀ m, m ≠ n → s.closing m = false)
      (hlog : Shape (deeds s.log)) (htransport : transportCloses s.log = 1)
  | done (hclosed : s.channel.closed) (hdone : s.channel.closeDone) (hidle : ∀ m, s.closing m = false)
      (hlog : Shape (deeds s.log))

theorem Phase.shape (h : Phase s) : Shape (deeds s.log) := by
  cases h with
  | fresh _ _ _ hlog => exact hlog ▸ .nothing
  | session _ _ _ session _ _ _ _ hlog => exact hlog ▸ .session session
  | transport _ _ _ _ _ _ hlog | done _ _ _ hlog => exact hlog

theorem closing_of_point {point : ChannelPoint} (h : pointOf (s.calls n) = some point) : s.closing n = point.isClosing := by
  simp [closing,h]

theorem pointOf_conclude (m : κ) : pointOf ((u.conclude n { task, state }).calls m) =
    if m = n then pointOf (some { task, state }) else pointOf (u.calls m) := by
  simp only [conclude,Function.update_apply]
  split <;> rfl

theorem closing_conclude (m : κ) : (u.conclude n { task, state }).closing m =
    if m = n then state.isClosing else u.closing m := by
  rw [closing,pointOf_conclude]
  split
  · cases state <;> rfl
  · rfl

/-- A call that closes nothing leaves the teardown to the others. -/
theorem Phase.keep {before : Option ChannelPoint} (h : Phase s) (hpoint : pointOf (s.calls n) = before)
    (hbefore : before.all fun point => !point.isClosing) (hstate : !state.isClosing) (hchannel : u.channel = s.channel)
    (hcalls : u.calls = s.calls) (hlog : deeds u.log = deeds s.log) : Phase (u.conclude n { task, state }) := by
  have hself : s.closing n = false := by
    rw [closing,hpoint]
    cases before with
    | none => rfl
    | some point => simpa using hbefore
  have hstay : ∀ m, s.closing m = false → (u.conclude n { task, state }).closing m = false := by
    intro m hm
    rw [closing_conclude]
    split
    · simpa using hstate
    · rw [closing,hcalls]
      exact hm
  have hcount : transportCloses u.log = transportCloses s.log := by
    rw [← transportCloses_deeds,hlog,transportCloses_deeds]
  have hother : ∀ m point, point.isClosing → pointOf (s.calls m) = some point →
      pointOf ((u.conclude n { task, state }).calls m) = some point := by
    intro m point hclosing hm
    have hne : m ≠ n := by
      rintro rfl
      rw [closing_of_point hm,hclosing] at hself
      exact nomatch hself
    rw [pointOf_conclude,if_neg hne,hcalls]
    exact hm
  cases h with
  | fresh hopen hdone hidle hnothing =>
    exact .fresh (by rw [← hopen,← hchannel]; rfl) (by rw [← hdone,← hchannel]; rfl) (fun m => hstay m (hidle m))
      (hlog.trans hnothing)
  | session k code behind session hclosed hdone hcall hidle hs =>
    exact .session k code behind session (by rw [← hclosed,← hchannel]; rfl) (by rw [← hdone,← hchannel]; rfl)
      (hother k _ rfl hcall) (fun m hm => hstay m (hidle m hm)) (hlog.trans hs)
  | transport k behind hclosed hdone hcall hidle hs ht =>
    exact .transport k behind (by rw [← hclosed,← hchannel]; rfl) (by rw [← hdone,← hchannel]; rfl)
      (hother k _ rfl hcall) (fun m hm => hstay m (hidle m hm)) (hlog.symm ▸ hs) (hcount.trans ht)
  | done hclosed hdone hidle hs =>
    exact .done (by rw [← hclosed,← hchannel]; rfl) (by rw [← hdone,← hchannel]; rfl) (fun m => hstay m (hidle m))
      (hlog.symm ▸ hs)

/-- The phase in which a call closes something. -/
theorem Phase.closingSession {code : Option ℕ} {behind : Option ChannelExn} (h : Phase s)
    (hpoint : pointOf (s.calls n) = some (.closingSession code behind)) : s.channel.closed ∧
      s.channel.closeDone = false ∧ (∀ m, m ≠ n → s.closing m = false) ∧ ∃ session, deeds s.log = [.sessionClose session] := by
  have hself : s.closing n = true := closing_of_point hpoint
  cases h with
  | fresh _ _ hidle _ | done _ _ hidle _ =>
    rw [hidle n] at hself
    exact nomatch hself
  | session k code' behind' session hclosed hdone hcall hidle hs =>
    by_cases hne : n = k
    · subst hne
      exact ⟨hclosed,hdone,hidle,session,hs⟩
    · rw [hidle n hne] at hself
      exact nomatch hself
  | transport k behind' hclosed hdone hcall hidle =>
    by_cases hne : n = k
    · subst hne
      rw [hpoint] at hcall
      exact nomatch hcall
    · rw [hidle n hne] at hself
      exact nomatch hself

theorem Phase.closingTransport {behind : Option ChannelExn} (h : Phase s)
    (hpoint : pointOf (s.calls n) = some (.closingTransport behind)) : s.channel.closed ∧
      (∀ m, m ≠ n → s.closing m = false) ∧ Shape (deeds s.log) ∧ transportCloses s.log = 1 := by
  have hself : s.closing n = true := closing_of_point hpoint
  cases h with
  | fresh _ _ hidle _ | done _ _ hidle _ =>
    rw [hidle n] at hself
    exact nomatch hself
  | session k code' behind' session hclosed hdone hcall hidle hs =>
    by_cases hne : n = k
    · subst hne
      rw [hpoint] at hcall
      exact nomatch hcall
    · rw [hidle n hne] at hself
      exact nomatch hself
  | transport k behind' hclosed hdone hcall hidle hs ht =>
    by_cases hne : n = k
    · subst hne
      exact ⟨hclosed,hidle,hs,ht⟩
    · rw [hidle n hne] at hself
      exact nomatch hself

theorem Phase.open_ (h : Phase s) (hopen : s.channel.closed = false) :
    s.channel.closeDone = false ∧ (∀ m, s.closing m = false) ∧ deeds s.log = [] := by
  cases h with
  | fresh _ hdone hidle hlog => exact ⟨hdone,hidle,hlog⟩
  | session _ _ _ _ hclosed | transport _ _ hclosed | done hclosed =>
    rw [hopen] at hclosed
    exact nomatch hclosed

theorem phase_stretch {signal : Option ChannelSignal} (h : Stretch s n task (pointOf (s.calls n)) signal u state)
    (hs : Phase s) : Phase (u.conclude n { task, state }) := by
  have hrest : ∀ {v : ChannelLoop κ τ}, v.calls = s.calls → (∀ m, m ≠ n → s.closing m = false) → ∀ m, m ≠ n →
      (v.conclude n { task, state }).closing m = false := by
    intro v hcalls hidle m hm
    rw [closing_conclude,if_neg hm,closing,hcalls]
    exact hidle m hm
  have hself : ∀ {v : ChannelLoop κ τ}, pointOf ((v.conclude n { task, state }).calls n) = pointOf (some { task, state }) := by
    intro v
    rw [pointOf_conclude,if_pos rfl]
  have hquiet : ∀ {v : ChannelLoop κ τ}, v.calls = s.calls → (∀ m, m ≠ n → s.closing m = false) → state.isClosing = false →
      ∀ m, (v.conclude n { task, state }).closing m = false := by
    intro v hcalls hidle hstate m
    by_cases hm : m = n
    · rw [closing_conclude,if_pos hm]
      exact hstate
    · exact hrest hcalls hidle m hm
  generalize hbefore : pointOf (s.calls n) = before at h
  cases h with
  | plain hb hstate => exact hs.keep hbefore hb hstate rfl rfl rfl
  | reentered hb hstate => exact hs.keep hbefore hb hstate rfl rfl rfl
  | returned hb hstate => exact hs.keep hbefore hb hstate rfl rfl rfl
  | session session code behind hopen =>
    obtain ⟨hdone,hidle,hlog⟩ := hs.open_ hopen
    have hdeeds : deeds (.sessionClose session :: s.log) = .sessionClose session :: deeds s.log := rfl
    exact .session n code behind session rfl hdone hself (hrest rfl fun m _ => hidle m) (by rw [hlog] at hdeeds; exact hdeeds)
  | transport code behind hopen =>
    obtain ⟨hdone,hidle,hlog⟩ := hs.open_ hopen
    have hdeeds : deeds (.transportClose code :: s.log) = .transportClose code :: deeds s.log := rfl
    rw [hlog] at hdeeds
    have hcount : transportCloses (.transportClose code :: s.log) = 1 := by
      rw [← transportCloses_deeds,hdeeds]
      rfl
    have hshape : Shape (deeds (.transportClose code :: s.log)) := hdeeds ▸ .transport code
    exact .transport n behind rfl hdone hself (hrest rfl fun m _ => hidle m) hshape hcount
  | behind code behind =>
    obtain ⟨hclosed,hdone,hidle,session,hlog⟩ := hs.closingSession hbefore
    have hdeeds : deeds (.transportClose code :: s.log) = .transportClose code :: deeds s.log := rfl
    rw [hlog] at hdeeds
    have hcount : transportCloses (.transportClose code :: s.log) = 1 := by
      rw [← transportCloses_deeds,hdeeds]
      rfl
    have hshape : Shape (deeds (.transportClose code :: s.log)) := hdeeds ▸ .both session code
    exact .transport n behind hclosed hdone hself (hrest rfl hidle) hshape hcount
  | ended behind hstate =>
    obtain ⟨hclosed,hidle,hshape,_⟩ := hs.closingTransport hbefore
    exact .done hclosed rfl (hquiet rfl hidle (by simpa using hstate)) hshape
  | failed behind e =>
    obtain ⟨hclosed,hidle,hshape,_⟩ := hs.closingTransport hbefore
    exact .done hclosed rfl (hquiet rfl hidle rfl) hshape
  | cancelled code behind e =>
    obtain ⟨hclosed,_,hidle,session,hlog⟩ := hs.closingSession hbefore
    have hshape : Shape (deeds s.log) := hlog ▸ .session session
    exact .done hclosed rfl (hquiet rfl hidle rfl) hshape

theorem phase_bindSession {session : ℕ} (hs : Phase s) : Phase (s.bindSession session) := by
  unfold bindSession
  split
  · exact hs
  · rename_i hfree
    cases hs with
    | fresh hopen hdone hidle hlog => exact .fresh hopen hdone hidle hlog
    | session _ _ _ _ hclosed | transport _ _ hclosed | done hclosed => exact absurd (.inl hclosed) hfree

theorem reachable_phase {ok : ChannelLoop κ τ → ChannelAction κ τ → Prop} (h : ReachableWith (step kind) ok Init s) : Phase s := by
  refine h.invariant (fun s hs => ?_) fun s a s' hs _ hstep => ?_
  · obtain ⟨maxFrameBytes,_,rfl⟩ := hs
    exact .fresh rfl rfl (fun _ => rfl) rfl
  · rcases step_cases hstep with ⟨n,task,signal,u,state,hstretch,rfl,_,_,_⟩ | ⟨session,rfl⟩
    · exact phase_stretch hstretch hs
    · exact phase_bindSession hs

theorem Shape.counts {log : List (ChannelTrace κ)} (h : Shape log) : sessionCloses log ≤ 1 ∧ transportCloses log ≤ 1 := by
  cases h <;> exact ⟨by simp [sessionCloses,List.countP_cons,ChannelTrace.isSessionClose],
    by simp [transportCloses,List.countP_cons,ChannelTrace.isTransportClose]⟩

/-- Nothing of the session is left behind a close of the transport. -/
theorem Shape.session_first {newer older : List (ChannelTrace κ)} {code : Option ℕ}
    (h : Shape (newer ++ .transportClose code :: older)) : sessionCloses newer = 0 := by
  cases newer with
  | nil => rfl
  | cons t newer =>
    generalize hlog : t :: newer ++ .transportClose code :: older = log at h
    cases h with
    | nothing => exact nomatch hlog
    | session | transport =>
      have hlength := congrArg List.length hlog
      simp at hlength
    | both session code' =>
      cases newer with
      | nil => exact nomatch (List.cons.inj (List.cons.inj hlog).2).1
      | cons t' newer =>
        have hlength := congrArg List.length hlog
        simp at hlength

theorem sessionCloses_newer {newer older : List (ChannelTrace κ)} {code : Option ℕ} (h : Shape (deeds s.log))
    (hlog : s.log = newer ++ .transportClose code :: older) : sessionCloses newer = 0 := by
  have hdeeds : deeds s.log = deeds newer ++ .transportClose code :: deeds older := by
    rw [hlog,deeds,List.filter_append]
    rfl
  rw [hdeeds] at h
  rw [← sessionCloses_deeds]
  exact h.session_first

/-! Calls that return. -/

/-- The closing task is not cancelled while it waits for the session. -/
def Uncancelled (s : ChannelLoop κ τ) : ChannelAction κ τ → Prop
  | .resume n .cancelled => ∀ code behind, pointOf (s.calls n) ≠ some (.closingSession code behind)
  | _ => True

/-- Whoever finds the teardown done finds the transport closed. -/
structure Attempted (s : ChannelLoop κ τ) : Prop where
  done : s.channel.closeDone → transportCloses s.log = 1
  returned : ∀ newer older n, s.log = newer ++ .closed n :: older → transportCloses older = 1

theorem returned_cons {log : List (ChannelTrace κ)} {t : ChannelTrace κ}
    (h : ∀ newer older n, log = newer ++ .closed n :: older → transportCloses older = 1)
    (ht : ∀ n, t = .closed n → transportCloses log = 1) (newer older : List (ChannelTrace κ)) (n : κ)
    (hlog : t :: log = newer ++ .closed n :: older) : transportCloses older = 1 := by
  cases newer with
  | nil =>
    obtain ⟨rfl,rfl⟩ := List.cons.inj hlog
    exact ht n rfl
  | cons t' newer => exact h newer older n (List.cons.inj hlog).2

theorem attempted_stretch {signal : Option ChannelSignal}
    (h : Stretch s n task (pointOf (s.calls n)) signal u state) (hphase : Phase s) (hs : Attempted s)
    (huncancelled : signal = some .cancelled → ∀ code behind, pointOf (s.calls n) ≠ some (.closingSession code behind)) :
    Attempted (u.conclude n { task, state }) := by
  have hcons : ∀ t, (∀ n, t = .closed n → transportCloses s.log = 1) → ∀ newer older n,
      t :: s.log = newer ++ .closed n :: older → transportCloses older = 1 := fun t => returned_cons hs.returned
  generalize hbefore : pointOf (s.calls n) = before at h huncancelled
  cases h with
  | plain => exact ⟨hs.done,hs.returned⟩
  | reentered => exact ⟨hs.done,hcons _ nofun⟩
  | returned _ _ hdone => exact ⟨hs.done,hcons _ fun _ _ => hs.done hdone⟩
  | session _ _ _ hopen | transport _ _ hopen =>
    refine ⟨fun hdone => ?_,hcons _ nofun⟩
    have hfalse := (hphase.open_ hopen).1
    exact absurd (show s.channel.closeDone from hdone) (by simp [hfalse])
  | behind =>
    refine ⟨fun hdone => ?_,hcons _ nofun⟩
    have hfalse := (hphase.closingSession hbefore).2.1
    exact absurd (show s.channel.closeDone from hdone) (by simp [hfalse])
  | ended =>
    obtain ⟨_,_,_,hcount⟩ := hphase.closingTransport hbefore
    exact ⟨fun _ => hcount,hcons _ fun _ _ => hcount⟩
  | failed =>
    obtain ⟨_,_,_,hcount⟩ := hphase.closingTransport hbefore
    exact ⟨fun _ => hcount,hs.returned⟩
  | cancelled code behind => exact absurd rfl (huncancelled rfl code behind)

theorem reachable_attempted (h : ReachableWith (step kind) Uncancelled Init s) : Attempted s := by
  refine h.invariant_with (J := Phase) (fun s hr => reachable_phase hr) (fun s hs => ?_) fun s a s' hphase hs ha hstep => ?_
  · obtain ⟨maxFrameBytes,_,rfl⟩ := hs
    exact ⟨nofun,fun newer older n hlog => by simp at hlog⟩
  · rcases step_cases hstep with ⟨n,task,signal,u,state,hstretch,rfl,hsignal,_,_⟩ | ⟨session,rfl⟩
    · refine attempted_stretch hstretch hphase hs fun hcancelled => ?_
      obtain rfl := hsignal _ hcancelled
      exact ha
    · unfold bindSession
      split
      · exact hs
      · exact ⟨hs.done,hs.returned⟩

/-- Of every channel the session is closed at most once and before the transport, the transport is closed at most once,
and a call of `close` that returns, unless it comes from inside the teardown, finds the transport closed; in every
history in which the closing task is not cancelled while it waits for the session. -/
theorem teardown_complete (h : ReachableWith (step kind) Uncancelled Init s) :
    sessionCloses s.log ≤ 1 ∧ transportCloses s.log ≤ 1 ∧
    (∀ newer older code, s.log = newer ++ .transportClose code :: older → sessionCloses newer = 0) ∧
    ∀ newer older n, s.log = newer ++ .closed n :: older → transportCloses older = 1 := by
  have hshape := (reachable_phase h).shape
  obtain ⟨hsessions,htransports⟩ := hshape.counts
  rw [sessionCloses_deeds] at hsessions
  rw [transportCloses_deeds] at htransports
  exact ⟨hsessions,htransports,fun newer older code => sessionCloses_newer hshape,(reachable_attempted h).returned⟩

/-! A call that is not made from inside the teardown. -/

/-- The owner of a teardown that is not done closes something. -/
def Owning (s : ChannelLoop κ τ) : Prop := ∀ t, s.channel.closeOwner = some t → s.channel.closeDone ∨
  ∃ n point, s.calls n = some { task := t, state := .at point } ∧ point.isClosing

theorem Stretch.done {before : Option ChannelPoint} {signal : Option ChannelSignal}
    (h : Stretch s n task before signal u state) (hs : s.channel.closeDone) : u.channel.closeDone := by
  cases h with
  | ended | failed | cancelled => rfl
  | _ => exact hs

/-- A teardown stays done. -/
theorem done_step {a : ChannelAction κ τ} (h : step kind s a = some s') (hs : s.channel.closeDone) :
    s'.channel.closeDone := by
  rcases step_cases h with ⟨n,task,signal,u,state,hstretch,rfl,_,_,_⟩ | ⟨session,rfl⟩
  · exact hstretch.done hs
  · unfold bindSession
    split <;> exact hs

theorem Stretch.calls {before : Option ChannelPoint} {signal : Option ChannelSignal}
    (h : Stretch s n task before signal u state) : u.calls = s.calls := by
  cases h <;> rfl

theorem calls_conclude (call : ChannelCall τ) (m : κ) :
    (u.conclude n call).calls m = if m = n then some call else u.calls m := by
  simp only [conclude,Function.update_apply]

theorem pointOf_eq {call : Option (ChannelCall τ)} {point : ChannelPoint} (h : pointOf call = some point) :
    ∃ task, call = some { task, state := .at point } := by
  cases call with
  | none => exact nomatch h
  | some call =>
    obtain ⟨task,state⟩ := call
    cases state with
    | «at» p =>
      obtain rfl := Option.some.inj h
      exact ⟨task,rfl⟩
    | returned | raised => exact nomatch h

theorem owning_stretch {signal : Option ChannelSignal} (h : Stretch s n task (pointOf (s.calls n)) signal u state)
    (htask : ∀ call, s.calls n = some call → call.task = task) (hs : Owning s) : Owning (u.conclude n { task, state }) := by
  intro t ht
  have hkept : u.channel = s.channel → (∀ point, pointOf (s.calls n) = some point → point.isClosing = false) →
      (u.conclude n { task, state }).channel.closeDone ∨
        ∃ m point, (u.conclude n { task, state }).calls m = some { task := t, state := .at point } ∧ point.isClosing := by
    intro hchannel hidle
    have howner : s.channel.closeOwner = some t := by
      rw [← hchannel]
      exact ht
    rcases hs t howner with hdone | ⟨m,point,hm,hclosing⟩
    · left
      change u.channel.closeDone
      rwa [hchannel]
    · right
      refine ⟨m,point,?_,hclosing⟩
      have hne : m ≠ n := by
        rintro rfl
        have hfalse := hidle point (by rw [hm]; rfl)
        rw [hclosing] at hfalse
        exact nomatch hfalse
      rw [calls_conclude,if_neg hne,h.calls]
      exact hm
  have hnot : ∀ before : Option ChannelPoint, (before.all fun point => !point.isClosing) → ∀ point, before = some point →
      point.isClosing = false := by
    rintro _ hall point rfl
    simpa using hall
  have hself : ∀ state', (u.conclude n { task, state := state' }).calls n = some { task, state := state' } := by
    intro state'
    rw [calls_conclude,if_pos rfl]
  generalize hbefore : pointOf (s.calls n) = before at h hkept
  cases h with
  | plain hb | reentered hb | returned hb => exact hkept rfl (hnot _ hb)
  | session | transport =>
    obtain rfl : task = t := Option.some.inj ht
    exact .inr ⟨n,_,hself _,rfl⟩
  | behind code behind =>
    rcases hs t ht with hdone | ⟨m,point,hm,hclosing⟩
    · exact .inl hdone
    · by_cases hne : m = n
      · subst hne
        obtain rfl : t = task := htask _ hm
        exact .inr ⟨m,_,hself _,rfl⟩
      · refine .inr ⟨m,point,?_,hclosing⟩
        rw [calls_conclude,if_neg hne]
        exact hm
  | ended | failed | cancelled => exact .inl rfl

theorem reachable_owning {ok : ChannelLoop κ τ → ChannelAction κ τ → Prop} (h : ReachableWith (step kind) ok Init s) :
    Owning s := by
  refine h.invariant (fun s hs => ?_) fun s a s' hs _ hstep => ?_
  · obtain ⟨maxFrameBytes,_,rfl⟩ := hs
    exact nofun
  · rcases step_cases hstep with ⟨n,task,signal,u,state,hstretch,rfl,_,htask,_⟩ | ⟨session,rfl⟩
    · exact owning_stretch hstretch htask hs
    · unfold bindSession
      split <;> exact hs

/-- A call of `close` that returns finds the teardown done. -/
inductive Closes (s : ChannelLoop κ τ) (n : κ) (task : τ) : Prop
  | at (point : ChannelPoint) (h : s.calls n = some { task, state := .at point }) (hplain : point.isPlain)
  | returned (h : s.calls n = some { task, state := .returned }) (hdone : s.channel.closeDone)
  | raised (e : ChannelExn) (h : s.calls n = some { task, state := .raised e })

theorem settle_calls (n : κ) (task : τ) (m : ChannelProg κ τ Unit) (s : ChannelLoop κ τ) : (settle n task m s).calls n = some { task, state := stateOf (m s) } :=
  Function.update_self ..

/-- A call of `close` by a task that owns no teardown under way. -/
theorem closes_close (code : Option ℕ) (howner : s.channel.closeOwner = some task → s.channel.closeDone) :
    Closes (settle n task (close n task code none) s) n task := by
  have hcalls := settle_calls n task (close n task code none) s
  by_cases hclosed : s.channel.closed
  · by_cases hmine : s.channel.closeOwner = some task
    · refine .returned (hcalls.trans ?_) ?_
      · simp only [close,get_bind,if_pos hclosed,if_pos hmine]
        rfl
      · simp only [settle,conclude,close,get_bind,if_pos hclosed,if_pos hmine]
        exact howner hmine
    · by_cases hdone : s.channel.closeDone
      · refine .returned (hcalls.trans ?_) ?_
        · simp only [close,get_bind,if_pos hclosed,if_neg hmine,if_pos hdone]
          rfl
        · simp only [settle,conclude,close,get_bind,if_pos hclosed,if_neg hmine,if_pos hdone]
          exact hdone
      · refine .at (.waiting none) (hcalls.trans ?_) rfl
        simp only [close,get_bind,if_pos hclosed,if_neg hmine,if_neg hdone]
        rfl
  · cases hsession : s.channel.session with
    | none =>
      refine .at (.closingTransport none) (hcalls.trans ?_) rfl
      simp only [close,get_bind,if_neg hclosed,modify_bind,hsession]
      rfl
    | some session =>
      refine .at (.closingSession code none) (hcalls.trans ?_) rfl
      simp only [close,get_bind,if_neg hclosed,modify_bind,hsession]
      rfl

theorem closes_ended {error : Option ChannelExn} :
    Closes (settle n task (closeEnded n error none) s) n task := by
  have hcalls := settle_calls n task (closeEnded n error none) s
  cases error with
  | none => exact .returned hcalls rfl
  | some e => exact .raised e hcalls

theorem closes_resume {point : ChannelPoint} {signal : ChannelSignal} {m : ChannelProg κ τ Unit}
    (h : resumeCall kind s n task point signal = some m) (hplain : point.isPlain) : Closes (settle n task m s) n task := by
  have hcalls := settle_calls n task m s
  cases point with
  | receiving => exact nomatch hplain
  | waiting behind =>
    obtain rfl := Option.isNone_iff_eq_none.mp hplain
    cases signal with
    | ready =>
      simp only [resumeCall,Option.ite_none_right_eq_some,Option.some.injEq] at h
      obtain ⟨hdone,rfl⟩ := h
      exact .returned hcalls hdone
    | cancelled =>
      obtain rfl := Option.some.inj h
      exact .raised _ hcalls
    | incoming | raised | timeout => exact nomatch h
  | closingSession code behind =>
    obtain rfl := Option.isNone_iff_eq_none.mp hplain
    cases signal with
    | ready | raised | timeout =>
      obtain rfl := Option.some.inj h
      exact .at (.closingTransport none) hcalls rfl
    | cancelled =>
      obtain rfl := Option.some.inj h
      exact .raised _ hcalls
    | incoming => exact nomatch h
  | closingTransport behind =>
    obtain rfl := Option.isNone_iff_eq_none.mp hplain
    cases signal with
    | ready | raised | timeout | cancelled =>
      obtain rfl := Option.some.inj h
      exact closes_ended
    | incoming => exact nomatch h

/-- A call goes on only when it is resumed. -/
theorem step_other {a : ChannelAction κ τ} (h : step kind s a = some s') (hcall : s.calls n ≠ none)
    (ha : ∀ signal, a ≠ .resume n signal) : s'.calls n = s.calls n := by
  rcases step_cases h with ⟨m,task,signal,u,state,hstretch,rfl,hsignal,_,hbegins⟩ | ⟨session,rfl⟩
  · have hne : n ≠ m := by
      rintro rfl
      cases signal with
      | none => exact hcall (hbegins rfl).1
      | some given => exact ha given (hsignal given rfl)
    rw [calls_conclude,if_neg hne,hstretch.calls]
  · unfold bindSession
    split <;> rfl

/-- A call keeps its task, and a new one has the task that makes it. -/
theorem step_task {a : ChannelAction κ τ} (h : step kind s a = some s') {m : κ} {call : ChannelCall τ}
    (hm : s'.calls m = some call) : (∃ old, s.calls m = some old ∧ old.task = call.task) ∨
      s.calls m = none ∧ ((∃ code, a = .close m call.task code) ∨ a = .receive m call.task) := by
  rcases step_cases h with ⟨n,task,signal,u,state,hstretch,rfl,hsignal,htask,hbegins⟩ | ⟨session,rfl⟩
  · rw [calls_conclude,hstretch.calls] at hm
    split at hm
    · rename_i heq
      subst heq
      obtain rfl := Option.some.inj hm
      cases hold : s.calls m with
      | none =>
        cases signal with
        | none => exact .inr ⟨rfl,(hbegins rfl).2⟩
        | some given =>
          have ha := hsignal given rfl
          subst ha
          simp [step,hold] at h
      | some old => exact .inl ⟨old,rfl,htask old hold⟩
    · exact .inl ⟨call,hm,rfl⟩
  · have hcalls : (s.bindSession session).calls = s.calls := by
      unfold bindSession
      split <;> rfl
    rw [hcalls] at hm
    exact .inl ⟨call,hm,rfl⟩

theorem closes_step {a : ChannelAction κ τ} (h : step kind s a = some s') (hs : Closes s n task) : Closes s' n task := by
  have hsome : s.calls n ≠ none := by
    cases hs with
    | «at» _ hcall | returned hcall | raised _ hcall =>
      rw [hcall]
      exact nofun
  by_cases ha : ∃ signal, a = .resume n signal
  · obtain ⟨signal,rfl⟩ := ha
    cases hs with
    | «at» point hcall hplain =>
      simp only [step,hcall] at h
      obtain ⟨m,hm,rfl⟩ := Option.map_eq_some_iff.mp h
      exact closes_resume hm hplain
    | returned hcall | raised _ hcall => simp [step,hcall] at h
  · have hcalls := step_other h hsome fun signal heq => ha ⟨signal,heq⟩
    cases hs with
    | «at» point hcall hplain => exact .at point (hcalls.trans hcall) hplain
    | returned hcall hdone => exact .returned (hcalls.trans hcall) (done_step h hdone)
    | raised e hcall => exact .raised e (hcalls.trans hcall)

/-- The call has not raised. -/
def Unraised (s : ChannelLoop κ τ) (n : κ) : Prop := ∀ task e, s.calls n ≠ some { task, state := .raised e }

theorem unraised_close (code : Option ℕ) : Unraised (settle n task (close n task code none) s) n := by
  have hstate : ∀ e, stateOf (close n task code none s) ≠ .raised e := by
    intro e
    by_cases hclosed : s.channel.closed
    · simp only [close,get_bind,if_pos hclosed]
      by_cases howner : s.channel.closeOwner = some task
      · rw [if_pos howner]
        exact nofun
      · rw [if_neg howner]
        by_cases hdone : s.channel.closeDone
        · rw [if_pos hdone]
          exact nofun
        · rw [if_neg hdone]
          exact nofun
    · simp only [close,get_bind,if_neg hclosed,modify_bind]
      cases s.channel.session <;> exact nofun
  intro t e hcall
  rw [settle_calls] at hcall
  exact hstate e (congrArg ChannelCall.state (Option.some.inj hcall))

/-- A call of `close` that is not cancelled raises nothing when all failures of the transport are hidden. -/
theorem unraised_step {a : ChannelAction κ τ} (h : step kind s a = some s') (hkind : ∀ failure, kind.suppresses failure)
    (hs : Closes s n task) (hn : Unraised s n) (ha : a ≠ .resume n .cancelled) : Unraised s' n := by
  by_cases hresume : ∃ signal, a = .resume n signal
  · obtain ⟨signal,rfl⟩ := hresume
    cases hs with
    | «at» point hcall hplain =>
      simp only [step,hcall] at h
      obtain ⟨m,hm,rfl⟩ := Option.map_eq_some_iff.mp h
      have hstate : ∀ e, stateOf (m s) ≠ .raised e := by
        intro e
        have hsignal : signal ≠ .cancelled := fun heq => ha (by rw [heq])
        cases point with
        | receiving => exact nomatch hplain
        | waiting behind =>
          obtain rfl := Option.isNone_iff_eq_none.mp hplain
          cases signal with
          | ready =>
            simp only [resumeCall,Option.ite_none_right_eq_some,Option.some.injEq] at hm
            obtain ⟨_,rfl⟩ := hm
            exact nofun
          | cancelled => exact absurd rfl hsignal
          | incoming | raised | timeout => exact nomatch hm
        | closingSession code behind =>
          cases signal with
          | ready | raised | timeout =>
            obtain rfl := Option.some.inj hm
            exact nofun
          | cancelled => exact absurd rfl hsignal
          | incoming => exact nomatch hm
        | closingTransport behind =>
          obtain rfl := Option.isNone_iff_eq_none.mp hplain
          cases signal with
          | ready =>
            obtain rfl := Option.some.inj hm
            exact nofun
          | raised failure =>
            simp only [resumeCall,if_pos (hkind failure)] at hm
            obtain rfl := Option.some.inj hm
            exact nofun
          | timeout =>
            simp only [resumeCall,if_pos (hkind .os)] at hm
            obtain rfl := Option.some.inj hm
            exact nofun
          | cancelled => exact absurd rfl hsignal
          | incoming => exact nomatch hm
      intro t e hcall'
      rw [settle_calls] at hcall'
      exact hstate e (congrArg ChannelCall.state (Option.some.inj hcall'))
    | returned hcall | raised _ hcall => simp [step,hcall] at h
  · have hsome : s.calls n ≠ none := by
      cases hs with
      | «at» _ hcall | returned hcall | raised _ hcall =>
        rw [hcall]
        exact nofun
    intro t e hcall
    rw [step_other h hsome fun signal heq => hresume ⟨signal,heq⟩] at hcall
    exact hn t e hcall

/-! Two tasks close a channel. -/

def closingTwice : List (ChannelAction ℕ ℕ) :=
  [.bindSession 7,.close 0 10 (some 1000),.close 1 11 (some 1000)]

def uncancelledCheck (s : ChannelLoop ℕ ℕ) : ChannelAction ℕ ℕ → Bool
  | .resume n .cancelled => !s.closing n
  | _ => true

theorem uncancelledCheck_uncancelled (s : ChannelLoop ℕ ℕ) (a : ChannelAction ℕ ℕ) (h : uncancelledCheck s a) : Uncancelled s a := by
  cases a with
  | resume n signal =>
    cases signal with
    | cancelled =>
      intro code behind hpoint
      simp [uncancelledCheck,closing_of_point hpoint,ChannelPoint.isClosing] at h
    | _ => trivial
  | _ => trivial

theorem init_default : Init ({} : ChannelLoop κ τ) := ⟨1048576,by decide,rfl⟩

/-- The session times out. -/
theorem teardown_complete_timeout : ∃ s : ChannelLoop ℕ ℕ, ReachableWith (step loopbackWebSocketRealtimeChannel) Uncancelled Init s ∧
    s.log = [.closed 1,.closed 0,.transportClose (some 1000),.sessionClose 7] ∧ sessionCloses s.log ≤ 1 ∧
    transportCloses [.closed 0,.transportClose (some 1000),.sessionClose 7] = 1 := by
  have hexec : ∃ s, exec (guarded (step loopbackWebSocketRealtimeChannel) uncancelledCheck) {} (closingTwice ++
      ([.resume 0 .timeout,.resume 0 .ready,.resume 1 .ready] : List (ChannelAction ℕ ℕ))) = some s ∧
      s.log = [.closed 1,.closed 0,.transportClose (some 1000),.sessionClose 7] := ⟨_,rfl,rfl⟩
  obtain ⟨s,hs,hlog⟩ := hexec
  have hreach := exec_reachableWith _ uncancelledCheck_uncancelled init_default hs
  obtain ⟨hsessions,_,_,hreturned⟩ := teardown_complete hreach
  exact ⟨s,hreach,hlog,hsessions,hreturned [] _ 1 hlog⟩

/-- The closing task is cancelled, and the call that waits for it returns with the transport open. -/
theorem teardown_incomplete : ∃ s : ChannelLoop ℕ ℕ, Reachable (step loopbackWebSocketRealtimeChannel) Init s ∧
    s.log = [.closed 1,.sessionClose 7] := by
  have hexec : ∃ s, exec (step loopbackWebSocketRealtimeChannel) {} (closingTwice ++
      ([.resume 0 .cancelled,.resume 1 .ready] : List (ChannelAction ℕ ℕ))) = some s ∧
      s.log = [.closed 1,.sessionClose 7] := ⟨_,rfl,rfl⟩
  obtain ⟨s,hs,hlog⟩ := hexec
  exact ⟨s,exec_reachable _ init_default hs,hlog⟩

end ChannelLoop
end Transports
end HarnessSdk
