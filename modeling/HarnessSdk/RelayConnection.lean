import HarnessSdk.Contracts
import HarnessSdk.Coroutine
import HarnessSdk.Transition
import Mathlib.Logic.Function.Basic

/-!
# The connection to the relay

Any number of tasks send, receive and close on one socket. `close` holds its lock until the socket's own close has
ended, so that every call of `close` that returns finds it behind itself.
-/

namespace HarnessSdk
namespace Transports

open Run Transition

/-- What is read of `RelayTransportError`; its text is the transport code. -/
structure RelayTransportError where
  transportCode : String
  diagnosticKind : String
  closeCode : Option ℤ := none
  deriving DecidableEq, Repr

namespace RelayTransportError

def code (e : RelayTransportError) : RealtimeErrorCode :=
  match e.transportCode with
  | "unauthenticated" => .unauthenticated
  | "forbidden" => .forbidden
  | "rate_limited" => .rateLimited
  | "timeout" => .timeout
  | "frame_too_large" => .invalidRequest
  | "protocol_error" => .protocolError
  | "transport_closed" => .cancelled
  | _ => .unavailable

def retryable (e : RelayTransportError) : Bool :=
  decide (e.transportCode ∈ ["rate_limited", "timeout", "unavailable"])

/-- Without a diagnostic kind of its own. -/
def ofCode (code : String) : RelayTransportError := ⟨code,"transport." ++ code,none⟩

end RelayTransportError

/-- The close frame of a peer. -/
structure CloseFrame where
  code : Option ℤ := none
  reason : Option String := none
  deriving DecidableEq, Repr

/-- What is read of an exception of the socket. -/
structure SocketException where
  name : String := "ConnectionClosedError"
  timeout : Bool := false
  code : Option ℤ := none
  rcvd : Option CloseFrame := none
  sent : Option CloseFrame := none
  rcvdThenSent : Option Bool := none
  deriving DecidableEq, Repr

namespace SocketException

def closeCode (e : SocketException) : Option ℤ := (e.rcvd.bind CloseFrame.code).or e.code

def closeDirection (e : SocketException) : String :=
  match e.rcvdThenSent with
  | some true => "received"
  | some false => "sent"
  | none =>
    if e.rcvd.isSome && e.sent.isNone then "received"
    else if e.sent.isSome && e.rcvd.isNone then "sent"
    else "unknown"

def isPingTimeout (e : SocketException) : Bool :=
  e.sent.any fun frame => frame.code == some 1011 && frame.reason == some "keepalive ping timeout"

/-- `_closed_classification`: a normal closure is the end of the stream and no error. -/
def closedClassification (e : SocketException) : Option RelayTransportError :=
  if e.closeCode = some 1000 ∨ e.closeCode = some 1001 ∨ e.name = "ConnectionClosedOK" then none
  else
    let direction := e.closeDirection
    let (transportCode,diagnosticKind) :=
      if e.isPingTimeout then ("timeout","transport.receive.ping_timeout." ++ direction)
      else match e.closeCode with
        | some code =>
          if code = 1008 then ("forbidden","transport.receive.close." ++ direction ++ ".1008")
          else if code ∈ ([1006,1011,1012,1013,1014] : List ℤ) then
            ("unavailable","transport.receive.close." ++ direction ++ "." ++ toString code)
          else ("protocol_error","transport.receive.close." ++ direction ++ "." ++ toString code)
        | none => ("protocol_error","transport.receive.close." ++ direction ++ ".unknown")
    some ⟨transportCode,diagnosticKind,e.closeCode⟩

end SocketException

/-- What `recv` of a socket gives. -/
inductive SocketMessage
  | text (payload : String)
  | bytes (data : Bytes)
  | other
  deriving DecidableEq, Repr

def messageBytes (payload : String) : ℕ := payload.utf8ByteSize

variable {κ : Type}

/-- The fields of a connection. The calls of its methods are named by `κ`. -/
structure RelayWebSocketConnection (κ : Type) where
  maxFrameBytes : ℕ
  /-- The close lock, first come first served. -/
  holder : Option κ := none
  waiters : List κ := []
  closed : Bool := false
  deriving DecidableEq, Repr

/-- Where a call is suspended, and what `receive_text` raises behind its `close`. -/
inductive RelayPoint
  | sending
  | receiving
  | awaitingLock (code : ℕ) (reason : String) (behind : Option RelayTransportError)
  | closingSocket (behind : Option RelayTransportError)
  deriving DecidableEq, Repr

inductive RelayExn
  | transport (error : RelayTransportError)
  | cancelled
  deriving DecidableEq, Repr

/-- A call that has ended gives what it returns, a text only for `receive_text`. -/
inductive RelayCall
  | at (point : RelayPoint)
  | returned (payload : Option String)
  | raised (e : RelayExn)
  deriving DecidableEq, Repr

/-- What is recorded of a history: what the socket is asked for and what it gives, the end of its close, and the calls
of `close` that return, those that `receive_text` makes among them. -/
inductive RelayTrace (κ : Type)
  | sent (call : κ) (payload : String)
  | receiving (call : κ)
  | received (call : κ) (payload : String)
  | refused (call : κ)
  | socketClose (call : κ) (code : ℕ) (reason : String)
  | socketClosed (call : κ)
  | closed (call : κ)
  deriving DecidableEq, Repr

structure RelayLoop (κ : Type) where
  connection : RelayWebSocketConnection κ
  calls : κ → Option RelayCall := fun _ => none
  log : List (RelayTrace κ) := []

abbrev RelayProg (κ α : Type) := Run (RelayLoop κ) RelayPoint RelayExn α

/-- What a suspended call is resumed with. -/
inductive RelaySignal
  | ready
  | message (message : SocketMessage)
  | raised (e : SocketException)
  | timeout
  | cancelled
  deriving DecidableEq, Repr

inductive RelayAction (κ : Type)
  | sendText (call : κ) (payload : String)
  | receiveText (call : κ)
  | close (call : κ) (code : ℕ) (reason : String)
  | resume (call : κ) (signal : RelaySignal)
  deriving DecidableEq, Repr

/-- Points that have nothing to do with the close lock. -/
def RelayPoint.isAside : RelayPoint → Bool
  | .sending | .receiving => true
  | _ => false

def RelayCall.isOver : RelayCall → Bool
  | .at _ => false
  | _ => true

/-- The reason that a close frame has room for. -/
def shortReason (reason : String) : String := String.ofList (reason.toList.take 123)

namespace RelayLoop

set_option linter.unusedSectionVars false

def observe (s : RelayLoop κ) (t : RelayTrace κ) : RelayLoop κ := { s with log := t :: s.log }

def setLock (s : RelayLoop κ) (holder : Option κ) (waiters : List κ) : RelayLoop κ :=
  { s with connection := { s.connection with holder, waiters } }

/-- A call takes the lock. -/
def take (n : κ) (s : RelayLoop κ) : RelayLoop κ := s.setLock (some n) s.connection.waiters

def release (s : RelayLoop κ) : RelayLoop κ := s.setLock none s.connection.waiters

def setClosed (s : RelayLoop κ) : RelayLoop κ := { s with connection := { s.connection with closed := true } }

def sendText (n : κ) (payload : String) : RelayProg κ (Option String) := do
  let s ← Run.get
  if s.connection.closed then Run.raise (.transport (.ofCode "transport_closed"))
  else if s.connection.maxFrameBytes < messageBytes payload then Run.raise (.transport (.ofCode "frame_too_large"))
  else do
    Run.modify fun s => s.observe (.sent n payload)
    Run.suspend .sending

def receiveText (n : κ) : RelayProg κ (Option String) := do
  let s ← Run.get
  if s.connection.closed then pure none
  else do
    Run.modify fun s => s.observe (.receiving n)
    Run.suspend .receiving

/-- `close` gives the lock back and is over. -/
def leave (n : κ) (behind : Option RelayTransportError) : RelayProg κ (Option String) := do
  Run.modify fun s => s.release.observe (.closed n)
  match behind with
  | none => pure none
  | some e => Run.raise (.transport e)

/-- The body of `close` under the lock. -/
def closeLocked (n : κ) (code : ℕ) (reason : String) (behind : Option RelayTransportError) :
    RelayProg κ (Option String) := do
  Run.modify fun s => s.take n
  let s ← Run.get
  if s.connection.closed then leave n behind
  else do
    Run.modify fun s => s.setClosed.observe (.socketClose n code (shortReason reason))
    Run.suspend (.closingSocket behind)

/-- The lock goes to nobody past those who wait for it. -/
def close (n : κ) (code : ℕ) (reason : String) (behind : Option RelayTransportError) :
    RelayProg κ (Option String) := do
  let s ← Run.get
  if s.connection.holder.isNone && s.connection.waiters.isEmpty then closeLocked n code reason behind
  else do
    Run.modify fun s => s.setLock s.connection.holder (s.connection.waiters ++ [n])
    Run.suspend (.awaitingLock code reason behind)

/-- The socket's close has ended, or has been given up. -/
def socketClosed (n : κ) (behind : Option RelayTransportError) : RelayProg κ (Option String) := do
  Run.modify fun s => s.observe (.socketClosed n)
  leave n behind

/-- `receive_text` refuses a message, closes, and raises. -/
def refuse (n : κ) (code : ℕ) (error : RelayTransportError) : RelayProg κ (Option String) := do
  Run.modify fun s => s.observe (.refused n)
  close n code "" (some error)

/-- A message has been received. -/
def received (n : κ) : SocketMessage → RelayProg κ (Option String)
  | .bytes _ => refuse n 1003 ⟨"protocol_error","transport.receive.binary",none⟩
  | .other => Run.raise (.transport ⟨"protocol_error","transport.receive.invalid_type",none⟩)
  | .text payload => do
    let s ← Run.get
    if s.connection.maxFrameBytes < messageBytes payload then
      refuse n 1009 ⟨"frame_too_large","transport.receive.frame_too_large",none⟩
    else do
      Run.modify fun s => s.observe (.received n payload)
      pure (some payload)

def receiveRaised (e : SocketException) : RelayProg κ (Option String) :=
  if e.timeout then Run.raise (.transport ⟨"timeout","transport.receive.timeout",none⟩)
  else match e.closedClassification with
    | none => pure none
    | some error => Run.raise (.transport error)

variable [DecidableEq κ]

/-- The program that follows a signal. -/
def resumeCall (s : RelayLoop κ) (n : κ) : RelayPoint → RelaySignal → Option (RelayProg κ (Option String))
  | .sending, .ready => some (pure none)
  | .sending, .timeout => some (Run.raise (.transport ⟨"timeout","transport.send.timeout",none⟩))
  | .sending, .raised e =>
    some (Run.raise (.transport (if e.timeout then ⟨"timeout","transport.send.timeout",none⟩
      else ⟨"unavailable","transport.send.unavailable",none⟩)))
  | .receiving, .message message => some (received n message)
  | .receiving, .raised e => some (receiveRaised e)
  | .awaitingLock code reason behind, .ready =>
    if s.connection.holder.isNone && s.connection.waiters.head? == some n then some (do
      Run.modify fun s => s.setLock s.connection.holder s.connection.waiters.tail
      closeLocked n code reason behind)
    else none
  | .awaitingLock .., .cancelled => some (do
      Run.modify fun s => s.setLock s.connection.holder (s.connection.waiters.erase n)
      Run.raise .cancelled)
  | .closingSocket behind, .ready | .closingSocket behind, .raised _ | .closingSocket behind, .timeout =>
    some (socketClosed n behind)
  | .closingSocket _, .cancelled => some (do
      Run.modify fun s => (s.observe (.socketClosed n)).release
      Run.raise .cancelled)
  | .sending, .cancelled | .receiving, .cancelled => some (Run.raise .cancelled)
  | _, _ => none

/-- Where a stretch of a call leads. -/
def restOf : Outcome (RelayLoop κ) RelayPoint RelayExn (Option String) → RelayCall
  | .ok payload _ => .returned payload
  | .raise e _ => .raised e
  | .park point _ => .at point

def settle (n : κ) (m : RelayProg κ (Option String)) (s : RelayLoop κ) : RelayLoop κ :=
  { (m s).state with calls := Function.update (m s).state.calls n (some (restOf (m s))) }

def step (s : RelayLoop κ) : RelayAction κ → Option (RelayLoop κ)
  | .sendText n payload => if s.calls n = none then some (settle n (sendText n payload) s) else none
  | .receiveText n => if s.calls n = none then some (settle n (receiveText n) s) else none
  | .close n code reason => if s.calls n = none then some (settle n (close n code reason none) s) else none
  | .resume n signal =>
    match s.calls n with
    | some (.at point) => (resumeCall s n point signal).map fun m => settle n m s
    | _ => none

/-- A connection as its constructor leaves it. -/
def Init (s : RelayLoop κ) : Prop := ∃ maxFrameBytes, s = { connection := { maxFrameBytes } }

/-! What a call does from one suspension to the next. -/

/-- A call comes to `close`: it is one, or it is a `receive_text` that has refused a message. -/
inductive Comes (s : RelayLoop κ) (n : κ) : Option RelayPoint → RelayLoop κ → Prop
  | new : Comes s n none s
  | refused : Comes s n (some .receiving) (s.observe (.refused n))

/-- A call gets the lock, which nobody waits for or for which it has waited longest. -/
inductive Gets (s : RelayLoop κ) (n : κ) : Option RelayPoint → RelayLoop κ → Prop
  | free {before : Option RelayPoint} {v : RelayLoop κ} (hv : Comes s n before v) (hholder : s.connection.holder = none)
      (hwaiters : s.connection.waiters = []) : Gets s n before v
  | next (code : ℕ) (reason : String) (behind : Option RelayTransportError) (hholder : s.connection.holder = none)
      (hhead : s.connection.waiters.head? = some n) :
      Gets s n (some (.awaitingLock code reason behind)) (s.setLock none s.connection.waiters.tail)

/-- The inversion of a step: from the point `before` the call comes to the state `u`, and to rest. -/
inductive Stretch (s : RelayLoop κ) (n : κ) : Option RelayPoint → RelayLoop κ → RelayCall → Prop
  | rests {before : Option RelayPoint} {state : RelayCall} (hbefore : before.all RelayPoint.isAside)
      (hstate : state.isOver) : Stretch s n before s state
  | sent (payload : String) (hopen : s.connection.closed = false)
      (hsize : messageBytes payload ≤ s.connection.maxFrameBytes) :
      Stretch s n none (s.observe (.sent n payload)) (.at .sending)
  | receiving (hopen : s.connection.closed = false) : Stretch s n none (s.observe (.receiving n)) (.at .receiving)
  | received (payload : String) (hsize : messageBytes payload ≤ s.connection.maxFrameBytes) :
      Stretch s n (some .receiving) (s.observe (.received n payload)) (.returned (some payload))
  | queued {before : Option RelayPoint} {v : RelayLoop κ} (hv : Comes s n before v)
      (hbusy : s.connection.holder.isSome ∨ s.connection.waiters ≠ []) (code : ℕ) (reason : String)
      (behind : Option RelayTransportError) :
      Stretch s n before (v.setLock v.connection.holder (v.connection.waiters ++ [n]))
        (.at (.awaitingLock code reason behind))
  | found {before : Option RelayPoint} {v : RelayLoop κ} {state : RelayCall} (hv : Gets s n before v)
      (hclosed : s.connection.closed) (hstate : state.isOver) :
      Stretch s n before ((v.take n).release.observe (.closed n)) state
  | begun {before : Option RelayPoint} {v : RelayLoop κ} (hv : Gets s n before v)
      (hopen : s.connection.closed = false) (code : ℕ) (reason : String) (behind : Option RelayTransportError) :
      Stretch s n before ((v.take n).setClosed.observe (.socketClose n code (shortReason reason)))
        (.at (.closingSocket behind))
  | ended {state : RelayCall} (behind : Option RelayTransportError) (hstate : state.isOver) :
      Stretch s n (some (.closingSocket behind)) ((s.observe (.socketClosed n)).release.observe (.closed n)) state
  | givenUp (behind : Option RelayTransportError) :
      Stretch s n (some (.closingSocket behind)) (s.observe (.socketClosed n)).release (.raised .cancelled)
  | withdrawn (code : ℕ) (reason : String) (behind : Option RelayTransportError) :
      Stretch s n (some (.awaitingLock code reason behind))
        (s.setLock s.connection.holder (s.connection.waiters.erase n)) (.raised .cancelled)

variable {n : κ} {s s' u v : RelayLoop κ} {before : Option RelayPoint} {state : RelayCall}

theorem leave_state (behind : Option RelayTransportError) (s : RelayLoop κ) :
    (leave n behind s).state = s.release.observe (.closed n) ∧ (restOf (leave n behind s)).isOver := by
  cases behind <;> exact ⟨rfl,rfl⟩

theorem Gets.closed (h : Gets s n before v) : v.connection.closed = s.connection.closed := by
  cases h with
  | free hv => cases hv <;> rfl
  | next => rfl

theorem stretch_closeLocked (hv : Gets s n before v) (code : ℕ) (reason : String)
    (behind : Option RelayTransportError) :
    Stretch s n before (closeLocked n code reason behind v).state (restOf (closeLocked n code reason behind v)) := by
  by_cases hclosed : (v.take n).connection.closed
  · have hfound : closeLocked n code reason behind v = leave n behind (v.take n) := by
      simp only [closeLocked,modify_bind,get_bind,if_pos hclosed]
    obtain ⟨hstate,hover⟩ := leave_state behind (v.take n)
    rw [hfound,hstate]
    exact .found hv (hv.closed ▸ hclosed) hover
  · have hbegun : closeLocked n code reason behind v =
        .park (.closingSocket behind) ((v.take n).setClosed.observe (.socketClose n code (shortReason reason))) := by
      simp only [closeLocked,modify_bind,get_bind,if_neg hclosed]
      rfl
    have hopen : (v.take n).connection.closed = false := by simpa using hclosed
    rw [hbegun]
    exact .begun hv (hv.closed.symm.trans hopen) code reason behind

theorem stretch_close (hv : Comes s n before v) (code : ℕ) (reason : String) (behind : Option RelayTransportError) :
    Stretch s n before (close n code reason behind v).state (restOf (close n code reason behind v)) := by
  have hsame : v.connection = s.connection := by cases hv <;> rfl
  by_cases hfree : v.connection.holder.isNone && v.connection.waiters.isEmpty
  · have hgets : Gets s n before v := by
      rw [hsame] at hfree
      simp only [Bool.and_eq_true,Option.isNone_iff_eq_none,List.isEmpty_iff] at hfree
      exact .free hv hfree.1 hfree.2
    have hclose : close n code reason behind v = closeLocked n code reason behind v := by
      simp only [close,get_bind,if_pos hfree]
    rw [hclose]
    exact stretch_closeLocked hgets code reason behind
  · have hclose : close n code reason behind v =
        .park (.awaitingLock code reason behind) (v.setLock v.connection.holder (v.connection.waiters ++ [n])) := by
      simp only [close,get_bind,if_neg hfree]
      rfl
    rw [hclose]
    refine .queued hv ?_ code reason behind
    rw [← hsame]
    cases hh : v.connection.holder with
    | some m => exact .inl rfl
    | none => exact .inr fun hw => hfree (by rw [hh,hw]; rfl)

theorem stretch_received (message : SocketMessage) : Stretch s n (some .receiving) (received n message s).state
    (restOf (received n message s)) := by
  cases message with
  | bytes data => exact stretch_close .refused _ _ _
  | other => exact .rests rfl rfl
  | text payload =>
    by_cases hsize : s.connection.maxFrameBytes < messageBytes payload
    · have hrefuse : received n (.text payload) s = refuse n 1009 ⟨"frame_too_large",
          "transport.receive.frame_too_large",none⟩ s := by
        simp only [received,get_bind,if_pos hsize]
      rw [hrefuse]
      exact stretch_close .refused _ _ _
    · have haccept : received n (.text payload) s = .ok (some payload) (s.observe (.received n payload)) := by
        simp only [received,get_bind,if_neg hsize]
        rfl
      rw [haccept]
      exact .received payload (Nat.le_of_not_lt hsize)

theorem stretch_receiveRaised (e : SocketException) : Stretch s n (some .receiving) (receiveRaised e s).state
    (restOf (receiveRaised e s)) := by
  unfold receiveRaised
  by_cases htimeout : e.timeout
  · rw [if_pos htimeout]
    exact .rests rfl rfl
  · rw [if_neg htimeout]
    cases e.closedClassification with
    | none => exact .rests rfl rfl
    | some error => exact .rests rfl rfl

/-- The inversion of `resumeCall`. -/
theorem stretch_resume {point : RelayPoint} {signal : RelaySignal} {m : RelayProg κ (Option String)}
    (h : resumeCall s n point signal = some m) : Stretch s n (some point) (m s).state (restOf (m s)) := by
  cases point with
  | sending =>
    cases signal with
    | ready | timeout | raised | cancelled =>
      obtain rfl := Option.some.inj h
      exact .rests rfl rfl
    | message => simp [resumeCall] at h
  | receiving =>
    cases signal with
    | message message =>
      obtain rfl := Option.some.inj h
      exact stretch_received message
    | raised e =>
      obtain rfl := Option.some.inj h
      exact stretch_receiveRaised e
    | cancelled =>
      obtain rfl := Option.some.inj h
      exact .rests rfl rfl
    | ready | timeout => simp [resumeCall] at h
  | awaitingLock code reason behind =>
    cases signal with
    | ready =>
      simp only [resumeCall,Option.ite_none_right_eq_some,Option.some.injEq,Bool.and_eq_true,beq_iff_eq,
        Option.isNone_iff_eq_none] at h
      obtain ⟨⟨hholder,hhead⟩,rfl⟩ := h
      simp only [modify_bind,hholder]
      exact stretch_closeLocked (.next code reason behind hholder hhead) code reason behind
    | cancelled =>
      obtain rfl := Option.some.inj h
      exact .withdrawn code reason behind
    | message | raised | timeout => simp [resumeCall] at h
  | closingSocket behind =>
    cases signal with
    | ready | raised | timeout =>
      obtain rfl := Option.some.inj h
      obtain ⟨hstate,hover⟩ := leave_state behind (s.observe (.socketClosed n))
      simp only [socketClosed,modify_bind]
      rw [hstate]
      exact .ended behind hover
    | cancelled =>
      obtain rfl := Option.some.inj h
      exact .givenUp behind
    | message => simp [resumeCall] at h

def pointOf : Option RelayCall → Option RelayPoint
  | some (.at point) => some point
  | _ => none

theorem stretch_sendText (payload : String) :
    Stretch s n none (sendText n payload s).state (restOf (sendText n payload s)) := by
  by_cases hclosed : s.connection.closed
  · simp only [sendText,get_bind,if_pos hclosed]
    exact .rests rfl rfl
  · by_cases hsize : s.connection.maxFrameBytes < messageBytes payload
    · simp only [sendText,get_bind,if_neg hclosed,if_pos hsize]
      exact .rests rfl rfl
    · simp only [sendText,get_bind,if_neg hclosed,if_neg hsize,modify_bind]
      exact .sent payload (by simpa using hclosed) (Nat.le_of_not_lt hsize)

theorem stretch_receiveText : Stretch s n none (receiveText n s).state (restOf (receiveText n s)) := by
  by_cases hclosed : s.connection.closed
  · simp only [receiveText,get_bind,if_pos hclosed]
    exact .rests rfl rfl
  · simp only [receiveText,get_bind,if_neg hclosed,modify_bind]
    exact .receiving (by simpa using hclosed)

/-- The inversion of `step`. -/
theorem step_cases {a : RelayAction κ} (h : step s a = some s') : ∃ n u state,
    Stretch s n (pointOf (s.calls n)) u state ∧ s' = { u with calls := Function.update s.calls n (some state) } := by
  have hcalls : ∀ {n u state before}, Stretch s n before u state → u.calls = s.calls := by
    intro n u state before h
    cases h with
    | queued hv => cases hv <;> rfl
    | found hv =>
      cases hv with
      | free hv => cases hv <;> rfl
      | next => rfl
    | begun hv =>
      cases hv with
      | free hv => cases hv <;> rfl
      | next => rfl
    | _ => rfl
  have hsettle : ∀ {n} {m : RelayProg κ (Option String)},
      Stretch s n (pointOf (s.calls n)) (m s).state (restOf (m s)) → s' = settle n m s → ∃ n u state,
        Stretch s n (pointOf (s.calls n)) u state ∧ s' = { u with calls := Function.update s.calls n (some state) } := by
    intro n m hstretch hs
    refine ⟨n,_,_,hstretch,?_⟩
    rw [hs,settle,hcalls hstretch]
  cases a with
  | sendText n payload =>
    simp only [step,Option.ite_none_right_eq_some,Option.some.injEq] at h
    obtain ⟨hnone,hs⟩ := h
    exact hsettle (by rw [hnone]; exact stretch_sendText payload) hs.symm
  | receiveText n =>
    simp only [step,Option.ite_none_right_eq_some,Option.some.injEq] at h
    obtain ⟨hnone,hs⟩ := h
    exact hsettle (by rw [hnone]; exact stretch_receiveText) hs.symm
  | close n code reason =>
    simp only [step,Option.ite_none_right_eq_some,Option.some.injEq] at h
    obtain ⟨hnone,hs⟩ := h
    exact hsettle (by rw [hnone]; exact stretch_close .new code reason none) hs.symm
  | resume n signal =>
    cases hcall : s.calls n with
    | none => simp [step,hcall] at h
    | some call =>
      cases call with
      | «at» point =>
        simp only [step,hcall] at h
        obtain ⟨m,hm,hs⟩ := Option.map_eq_some_iff.mp h
        exact hsettle (by rw [hcall]; exact stretch_resume hm) hs.symm
      | returned | raised => simp [step,hcall] at h

/-! The lock. -/

/-- The lock and the calls agree, and nobody is at the lock of a connection that is not closed. -/
structure Locked (s : RelayLoop κ) : Prop where
  holder : ∀ n, s.connection.holder = some n ↔ ∃ behind, s.calls n = some (.at (.closingSocket behind))
  waiters : ∀ n, n ∈ s.connection.waiters ↔
    ∃ code reason behind, s.calls n = some (.at (.awaitingLock code reason behind))
  nodup : s.connection.waiters.Nodup
  busy : s.connection.holder.isSome ∨ s.connection.waiters ≠ [] → s.connection.closed

/-- The calls but one are as they were. -/
theorem Locked.of_update (hs : Locked s) {u : RelayLoop κ} {state : RelayCall}
    (hholder : ∀ j, j ≠ n → (u.connection.holder = some j ↔ s.connection.holder = some j))
    (hwaiters : ∀ j, j ≠ n → (j ∈ u.connection.waiters ↔ j ∈ s.connection.waiters))
    (hheld : u.connection.holder = some n ↔ ∃ behind, state = .at (.closingSocket behind))
    (hwaits : n ∈ u.connection.waiters ↔ ∃ code reason behind, state = .at (.awaitingLock code reason behind))
    (hnodup : u.connection.waiters.Nodup)
    (hbusy : u.connection.holder.isSome ∨ u.connection.waiters ≠ [] → u.connection.closed) :
    Locked { u with calls := Function.update s.calls n (some state) } := by
  refine ⟨fun j => ?_,fun j => ?_,hnodup,hbusy⟩
  · by_cases hj : j = n
    · subst hj
      simpa using hheld
    · simpa [Function.update_of_ne hj] using (hholder j hj).trans (hs.holder j)
  · by_cases hj : j = n
    · subst hj
      simpa using hwaits
    · simpa [Function.update_of_ne hj] using (hwaiters j hj).trans (hs.waiters j)

/-- A call that stands somewhere else is not at the lock. -/
theorem Locked.away (hs : Locked s) (h : (pointOf (s.calls n)).all RelayPoint.isAside) :
    s.connection.holder ≠ some n ∧ n ∉ s.connection.waiters := by
  refine ⟨fun hholder => ?_,fun hwaits => ?_⟩
  · obtain ⟨behind,hcall⟩ := (hs.holder n).mp hholder
    simp [hcall,pointOf,RelayPoint.isAside] at h
  · obtain ⟨code,reason,behind,hcall⟩ := (hs.waiters n).mp hwaits
    simp [hcall,pointOf,RelayPoint.isAside] at h

theorem call_of_point {point : RelayPoint} (h : pointOf (s.calls n) = some point) : s.calls n = some (.at point) := by
  cases hcall : s.calls n with
  | none => simp [hcall,pointOf] at h
  | some call => cases call <;> simp_all [pointOf]

theorem Locked.closing (hs : Locked s) {behind : Option RelayTransportError}
    (h : pointOf (s.calls n) = some (.closingSocket behind)) :
    s.connection.holder = some n ∧ n ∉ s.connection.waiters ∧ s.connection.closed := by
  have hcall := call_of_point h
  have hholder := (hs.holder n).mpr ⟨behind,hcall⟩
  refine ⟨hholder,fun hwaits => ?_,hs.busy (.inl (by rw [hholder]; rfl))⟩
  obtain ⟨code,reason,behind',hcall'⟩ := (hs.waiters n).mp hwaits
  simp [hcall] at hcall'

theorem Locked.waiting (hs : Locked s) {code : ℕ} {reason : String} {behind : Option RelayTransportError}
    (h : pointOf (s.calls n) = some (.awaitingLock code reason behind)) :
    s.connection.holder ≠ some n ∧ n ∈ s.connection.waiters ∧ s.connection.closed := by
  have hcall := call_of_point h
  have hwaits := (hs.waiters n).mpr ⟨code,reason,behind,hcall⟩
  refine ⟨fun hholder => ?_,hwaits,hs.busy (.inr (List.ne_nil_of_mem hwaits))⟩
  obtain ⟨behind',hcall'⟩ := (hs.holder n).mp hholder
  simp [hcall] at hcall'

theorem Comes.same (h : Comes s n before v) : v.connection = s.connection := by cases h <;> rfl

theorem Comes.aside (h : Comes s n before v) : before.all RelayPoint.isAside := by cases h <;> rfl

/-- What a call finds that gets the lock. -/
theorem Gets.finds (h : Gets s n (pointOf (s.calls n)) v) (hs : Locked s) :
    s.connection.holder = none ∧ (∀ j, j ≠ n → (j ∈ v.connection.waiters ↔ j ∈ s.connection.waiters)) ∧
      n ∉ v.connection.waiters ∧ v.connection.waiters.Nodup := by
  generalize hbefore : pointOf (s.calls n) = before at h
  cases h with
  | free hv hholder hwaiters =>
    rw [hv.same,hwaiters]
    exact ⟨hholder,fun _ _ => Iff.rfl,List.not_mem_nil,List.nodup_nil⟩
  | next code reason behind hholder hhead =>
    obtain ⟨rest,hrest⟩ : ∃ rest, s.connection.waiters = n :: rest := by
      cases hw : s.connection.waiters with
      | nil => simp [hw] at hhead
      | cons m rest =>
        obtain rfl : m = n := by simpa [hw] using hhead
        exact ⟨rest,rfl⟩
    have hnodup := hs.nodup
    rw [hrest,List.nodup_cons] at hnodup
    refine ⟨hholder,fun j hj => ?_,?_,?_⟩
    · simp [setLock,hrest,hj]
    · simpa [setLock,hrest] using hnodup.1
    · simpa [setLock,hrest] using hnodup.2

theorem not_at_of_over (hstate : state.isOver) (point : RelayPoint) : state ≠ .at point := by
  rintro rfl
  simp [RelayCall.isOver] at hstate

/-- A call that stays away from the lock. -/
theorem Locked.aside (hs : Locked s) (h : (pointOf (s.calls n)).all RelayPoint.isAside)
    (hsame : u.connection = s.connection) (hstate : ∀ point, state = .at point → point.isAside) :
    Locked { u with calls := Function.update s.calls n (some state) } := by
  obtain ⟨hholder,hwaits⟩ := hs.away h
  rw [← hsame] at hholder hwaits
  refine hs.of_update (by simp [hsame]) (by simp [hsame]) ⟨fun hh => absurd hh hholder,?_⟩
    ⟨fun hh => absurd hh hwaits,?_⟩ (hsame ▸ hs.nodup) (by rw [hsame]; exact hs.busy)
  · rintro ⟨behind,rfl⟩
    simp [RelayPoint.isAside] at hstate
  · rintro ⟨code,reason,behind,rfl⟩
    simp [RelayPoint.isAside] at hstate

theorem Stretch.locked (h : Stretch s n (pointOf (s.calls n)) u state) (hs : Locked s) :
    Locked { u with calls := Function.update s.calls n (some state) } := by
  generalize hbefore : pointOf (s.calls n) = before at h
  cases h with
  | rests hfree hover =>
    exact hs.aside (hbefore ▸ hfree) rfl fun point hpoint => absurd hpoint (not_at_of_over hover point)
  | sent | receiving => exact hs.aside (by rw [hbefore]; rfl) rfl fun point hpoint => by cases hpoint; rfl
  | received => exact hs.aside (by rw [hbefore]; rfl) rfl fun point hpoint => by simp at hpoint
  | queued hv hbusy code reason behind =>
    obtain ⟨hholder,hwaits⟩ := hs.away (hbefore ▸ hv.aside)
    have hsame := hv.same
    refine hs.of_update ?_ ?_ ?_ ?_ ?_ ?_
    · simp [setLock,hsame]
    · intro j hj
      simp [setLock,hsame,hj]
    · simp [setLock,hsame,hholder]
    · simp [setLock]
    · simp only [setLock,hsame]
      exact List.nodup_append.mpr ⟨hs.nodup,by simp,fun m hm j hj => by
        rintro rfl
        exact hwaits (by simpa using List.mem_singleton.mp hj ▸ hm)⟩
    · simp only [setLock,hsame]
      exact fun _ => hs.busy hbusy
  | found hv hclosed hover =>
    obtain ⟨hnone,hothers,hwaits,hnodup⟩ := (hbefore ▸ hv : Gets s n (pointOf (s.calls n)) _).finds hs
    refine hs.of_update ?_ hothers ?_ ?_ hnodup ?_
    · simp [release,setLock,observe,hnone]
    · simp [release,setLock,observe,not_at_of_over hover]
    · simp [release,setLock,observe,take,hwaits,not_at_of_over hover]
    · exact fun _ => hv.closed.trans hclosed
  | begun hv hopen code reason behind =>
    obtain ⟨hnone,hothers,hwaits,hnodup⟩ := (hbefore ▸ hv : Gets s n (pointOf (s.calls n)) _).finds hs
    refine hs.of_update ?_ hothers ?_ ?_ hnodup fun _ => rfl
    · intro j hj
      simp [take,setLock,observe,setClosed,hnone,hj.symm]
    · simp [take,setLock,observe,setClosed]
    · simp [take,setLock,observe,setClosed,hwaits]
  | ended behind hover =>
    obtain ⟨hholder,hwaits,hclosed⟩ := hs.closing hbefore
    refine hs.of_update ?_ (fun _ _ => Iff.rfl) ?_ ?_ hs.nodup fun _ => hclosed
    · intro j hj
      simp [release,setLock,observe,hholder,hj.symm]
    · simp [release,setLock,observe,not_at_of_over hover]
    · simp [release,setLock,observe,hwaits,not_at_of_over hover]
  | givenUp behind =>
    obtain ⟨hholder,hwaits,hclosed⟩ := hs.closing hbefore
    refine hs.of_update ?_ (fun _ _ => Iff.rfl) ?_ ?_ hs.nodup fun _ => hclosed
    · intro j hj
      simp [release,setLock,observe,hholder,hj.symm]
    · simp [release,setLock,observe]
    · simp [release,setLock,observe,hwaits]
  | withdrawn code reason behind =>
    obtain ⟨hholder,hwaits,hclosed⟩ := hs.waiting hbefore
    refine hs.of_update (fun _ _ => Iff.rfl) ?_ ?_ ?_ (hs.nodup.erase n) fun _ => hclosed
    · intro j hj
      exact List.mem_erase_of_ne hj
    · simp [setLock,hholder]
    · simp [setLock,hs.nodup.mem_erase_iff]

/-! The history of the socket. -/

def isSocketClose : RelayTrace κ → Bool
  | .socketClose .. => true
  | _ => false

/-- The socket is asked for something other than its close. -/
def isHanded : RelayTrace κ → Bool
  | .sent .. | .receiving _ => true
  | _ => false

/-- The socket is open, its close is under way, or it has ended. -/
inductive SocketPhase
  | opened | closing | ended
  deriving DecidableEq, Repr

def phase (s : RelayLoop κ) : SocketPhase :=
  if s.connection.closed then if s.connection.holder.isSome then .closing else .ended else .opened

/-- The histories that lead to a phase, the newest first. -/
inductive History : SocketPhase → List (RelayTrace κ) → Prop
  | start : History .opened []
  | handed {log : List (RelayTrace κ)} (t : RelayTrace κ) (ht : isHanded t) (h : History .opened log) :
      History .opened (t :: log)
  | given {p : SocketPhase} {log : List (RelayTrace κ)} (n : κ) (payload : String) (h : History p log) :
      History p (.received n payload :: log)
  | refused {p : SocketPhase} {log : List (RelayTrace κ)} (n : κ) (h : History p log) : History p (.refused n :: log)
  | socketClose {log : List (RelayTrace κ)} (n : κ) (code : ℕ) (reason : String) (h : History .opened log) :
      History .closing (.socketClose n code reason :: log)
  | socketClosed {log : List (RelayTrace κ)} (n : κ) (h : History .closing log) :
      History .ended (.socketClosed n :: log)
  | closed {log : List (RelayTrace κ)} (n : κ) (h : History .ended log) : History .ended (.closed n :: log)

variable {p : SocketPhase} {log later earlier : List (RelayTrace κ)}

theorem History.closes (h : History p log) : log.countP isSocketClose = if p = .opened then 0 else 1 := by
  induction h with
  | start => rfl
  | handed t ht _ ih =>
    rw [List.countP_cons_of_neg (by cases t <;> simp_all [isHanded,isSocketClose]),ih]
  | given n payload _ ih => rw [List.countP_cons_of_neg (by simp [isSocketClose]),ih]
  | refused n _ ih => rw [List.countP_cons_of_neg (by simp [isSocketClose]),ih]
  | socketClose n code reason _ ih =>
    rw [List.countP_cons_of_pos (by simp [isSocketClose]),ih]
    rfl
  | socketClosed n _ ih =>
    rw [List.countP_cons_of_neg (by simp [isSocketClose]),ih]
    rfl
  | closed n _ ih => rw [List.countP_cons_of_neg (by simp [isSocketClose]),ih]

theorem History.suffix (h : History p (later ++ earlier)) : ∃ q, History q earlier := by
  induction later generalizing p with
  | nil => exact ⟨p,h⟩
  | cons t later ih =>
    cases h with
    | handed _ _ h | given _ _ h | refused _ h | socketClose _ _ _ h | socketClosed _ h | closed _ h => exact ih h

theorem History.silent {n : κ} {code : ℕ} {reason : String}
    (h : History p (later ++ .socketClose n code reason :: earlier)) : ∀ t ∈ later, isHanded t = false := by
  induction later generalizing p with
  | nil => simp
  | cons t later ih =>
    have hrest : ∀ {q}, History q (later ++ .socketClose n code reason :: earlier) → q ≠ .opened := by
      intro q hq hopen
      have hcount := hq.closes
      rw [if_pos hopen,List.countP_eq_zero] at hcount
      exact hcount (.socketClose n code reason) (List.mem_append_right _ (List.mem_cons_self ..)) rfl
    intro t' ht'
    obtain rfl | hold := List.mem_cons.mp ht'
    · cases h with
      | handed _ ht h => exact absurd rfl (hrest h)
      | _ => rfl
    · cases h with
      | handed _ _ h | given _ _ h | refused _ h | socketClose _ _ _ h | socketClosed _ h | closed _ h =>
        exact ih h t' hold

theorem History.ended (h : History p log) (hp : p = .ended) : ∃ n, .socketClosed n ∈ log := by
  induction h with
  | start => simp at hp
  | handed t ht _ ih => simp at hp
  | given n payload _ ih | refused n _ ih =>
    obtain ⟨m,hm⟩ := ih hp
    exact ⟨m,List.mem_cons_of_mem _ hm⟩
  | socketClose n code reason _ ih => simp at hp
  | socketClosed n _ ih => exact ⟨n,List.mem_cons_self ..⟩
  | closed n _ ih =>
    obtain ⟨m,hm⟩ := ih rfl
    exact ⟨m,List.mem_cons_of_mem _ hm⟩

theorem phase_opened (h : s.connection.closed = false) : s.phase = .opened := by simp [phase,h]

theorem phase_closing (h : s.connection.closed) (hh : s.connection.holder.isSome) : s.phase = .closing := by
  rw [phase,if_pos h,if_pos hh]

theorem phase_ended (h : s.connection.closed) (hh : s.connection.holder = none) : s.phase = .ended := by
  simp [phase,h,hh]

theorem Comes.history (h : Comes s n before v) (hs : History p s.log) : History p v.log := by
  cases h with
  | new => exact hs
  | refused => exact .refused n hs

theorem Gets.history (h : Gets s n before v) (hs : History p s.log) : History p v.log := by
  cases h with
  | free hv => exact hv.history hs
  | next => exact hs

theorem Stretch.history (h : Stretch s n (pointOf (s.calls n)) u state) (hl : Locked s) (hs : History s.phase s.log) :
    History u.phase u.log := by
  generalize hbefore : pointOf (s.calls n) = before at h
  cases h with
  | rests => exact hs
  | sent payload hopen =>
    have hphase : (s.observe (.sent n payload)).phase = .opened := phase_opened hopen
    rw [hphase]
    exact .handed _ rfl (phase_opened hopen ▸ hs)
  | receiving hopen =>
    have hphase : (s.observe (.receiving n)).phase = .opened := phase_opened hopen
    rw [hphase]
    exact .handed _ rfl (phase_opened hopen ▸ hs)
  | received payload hsize => exact .given n payload hs
  | @queued _ v hv hbusy code reason behind =>
    have hphase : (v.setLock v.connection.holder (v.connection.waiters ++ [n])).phase = s.phase := by
      simp [phase,setLock,hv.same]
    rw [hphase]
    exact hv.history hs
  | @found _ v _ hv hclosed hover =>
    obtain ⟨hnone,_⟩ := (hbefore ▸ hv : Gets s n (pointOf (s.calls n)) _).finds hl
    have hphase : ((v.take n).release.observe (.closed n)).phase = .ended :=
      phase_ended (hv.closed.trans hclosed) rfl
    rw [hphase]
    exact .closed n (hv.history (phase_ended hclosed hnone ▸ hs))
  | @begun _ v hv hopen code reason behind =>
    have hphase : ((v.take n).setClosed.observe (.socketClose n code (shortReason reason))).phase = .closing :=
      phase_closing rfl rfl
    rw [hphase]
    exact .socketClose n code _ (hv.history (phase_opened hopen ▸ hs))
  | ended behind hover =>
    obtain ⟨hholder,_,hclosed⟩ := hl.closing hbefore
    have hold : History .closing s.log := phase_closing hclosed (by rw [hholder]; rfl) ▸ hs
    have hphase : ((s.observe (.socketClosed n)).release.observe (.closed n)).phase = .ended :=
      phase_ended hclosed rfl
    rw [hphase]
    exact .closed n (.socketClosed n hold)
  | givenUp behind =>
    obtain ⟨hholder,_,hclosed⟩ := hl.closing hbefore
    have hold : History .closing s.log := phase_closing hclosed (by rw [hholder]; rfl) ▸ hs
    have hphase : (s.observe (.socketClosed n)).release.phase = .ended := phase_ended hclosed rfl
    rw [hphase]
    exact .socketClosed n hold
  | withdrawn => exact hs

/-- What the log says of the messages and of the close. -/
structure Told (s : RelayLoop κ) : Prop where
  sent : ∀ n payload, .sent n payload ∈ s.log → messageBytes payload ≤ s.connection.maxFrameBytes
  received : ∀ n payload, .received n payload ∈ s.log → messageBytes payload ≤ s.connection.maxFrameBytes
  refused : ∀ n, .refused n ∈ s.log → s.connection.closed
  reasons : ∀ n code reason, .socketClose n code reason ∈ s.log → reason.length ≤ 123

theorem Told.of_log (hs : Told s) (hmax : u.connection.maxFrameBytes = s.connection.maxFrameBytes)
    (hclosed : s.connection.closed → u.connection.closed) (new : List (RelayTrace κ)) (hlog : u.log = new ++ s.log)
    (hsent : ∀ n payload, .sent n payload ∈ new ∨ .received n payload ∈ new →
      messageBytes payload ≤ s.connection.maxFrameBytes)
    (hrefused : ∀ n, .refused n ∈ new → u.connection.closed)
    (hreasons : ∀ n code reason, .socketClose n code reason ∈ new → reason.length ≤ 123) : Told u := by
  refine ⟨fun n payload h => ?_,fun n payload h => ?_,fun n h => ?_,fun n code reason h => ?_⟩ <;>
    rw [hlog,List.mem_append] at h
  · rw [hmax]
    exact h.elim (fun h => hsent n payload (.inl h)) (hs.sent n payload)
  · rw [hmax]
    exact h.elim (fun h => hsent n payload (.inr h)) (hs.received n payload)
  · exact h.elim (hrefused n) fun h => hclosed (hs.refused n h)
  · exact h.elim (hreasons n code reason) (hs.reasons n code reason)

theorem shortReason_length (reason : String) : (shortReason reason).length ≤ 123 := by
  rw [shortReason,String.length_ofList,List.length_take]
  exact Nat.min_le_left ..

/-- Whoever comes to `close` has refused a message at most. -/
theorem Comes.told (h : Comes s n before v) : ∃ new, v.log = new ++ s.log ∧
    (∀ m payload, .sent m payload ∉ new ∧ .received m payload ∉ new) ∧
      ∀ m code reason, .socketClose m code reason ∉ new := by
  cases h with
  | new => exact ⟨[],rfl,by simp,by simp⟩
  | refused => exact ⟨[.refused n],rfl,by simp,by simp⟩

theorem Gets.told (h : Gets s n before v) : v.connection.maxFrameBytes = s.connection.maxFrameBytes ∧
    ∃ new, v.log = new ++ s.log ∧ (∀ m payload, .sent m payload ∉ new ∧ .received m payload ∉ new) ∧
      ∀ m code reason, .socketClose m code reason ∉ new := by
  cases h with
  | free hv => exact ⟨by rw [hv.same],hv.told⟩
  | next => exact ⟨rfl,[],rfl,by simp,by simp⟩

theorem Stretch.told (h : Stretch s n (pointOf (s.calls n)) u state) (hl : Locked s) (hs : Told s) : Told u := by
  generalize hbefore : pointOf (s.calls n) = before at h
  cases h with
  | rests => exact hs
  | sent payload hopen hsize => exact hs.of_log rfl id [.sent n payload] rfl (by simp [hsize]) (by simp) (by simp)
  | receiving => exact hs.of_log rfl id [.receiving n] rfl (by simp) (by simp) (by simp)
  | received payload hsize => exact hs.of_log rfl id [.received n payload] rfl (by simp [hsize]) (by simp) (by simp)
  | queued hv hbusy code reason behind =>
    obtain ⟨new,hlog,hmessages,hcloses⟩ := hv.told
    have hclosed := (congrArg RelayWebSocketConnection.closed hv.same).trans (hl.busy hbusy)
    exact hs.of_log (by rw [← hv.same]; rfl) (fun _ => hclosed) new hlog
      (by simp [hmessages]) (fun _ _ => hclosed) (by simp [hcloses])
  | found hv hclosed hover =>
    obtain ⟨hmax,new,hlog,hmessages,hcloses⟩ := hv.told
    have hstays := hv.closed.trans hclosed
    exact hs.of_log hmax (fun _ => hstays) (.closed n :: new) (by rw [List.cons_append,← hlog]; rfl)
      (by simp [hmessages]) (fun _ _ => hstays) (by simp [hcloses])
  | begun hv hopen code reason behind =>
    obtain ⟨hmax,new,hlog,hmessages,hcloses⟩ := hv.told
    refine hs.of_log hmax (fun _ => rfl) (.socketClose n code (shortReason reason) :: new)
      (by rw [List.cons_append,← hlog]; rfl) (by simp [hmessages]) (fun _ _ => rfl) ?_
    intro m code' reason' h
    obtain ⟨_,_,rfl⟩ : m = n ∧ code' = code ∧ reason' = shortReason reason := by simpa [hcloses] using h
    exact shortReason_length reason
  | ended => exact hs.of_log rfl id [.closed n,.socketClosed n] rfl (by simp) (by simp) (by simp)
  | givenUp => exact hs.of_log rfl id [.socketClosed n] rfl (by simp) (by simp) (by simp)
  | withdrawn => exact hs.of_log rfl id [] rfl (by simp) (by simp) (by simp)

/-! Whole runs. -/

structure Sound (s : RelayLoop κ) : Prop extends Locked s, Told s where
  history : History s.phase s.log

theorem sound_init (h : Init s) : Sound s := by
  obtain ⟨maxFrameBytes,rfl⟩ := h
  refine ⟨⟨?_,?_,List.nodup_nil,?_⟩,⟨?_,?_,?_,?_⟩,.start⟩ <;> simp

theorem Sound.step {a : RelayAction κ} (hs : Sound s) (h : step s a = some s') : Sound s' := by
  obtain ⟨n,u,state,hstretch,rfl⟩ := step_cases h
  have htold := hstretch.told hs.toLocked hs.toTold
  exact ⟨hstretch.locked hs.toLocked,⟨htold.sent,htold.received,htold.refused,htold.reasons⟩,
    hstretch.history hs.toLocked hs.history⟩

/-- Who waits for the lock is behind the socket's close, or behind a call that can go on and leaves the queue. -/
def NoDeadlock (s : RelayLoop κ) : Prop := s.connection.waiters ≠ [] →
  (∃ m behind, s.calls m = some (.at (.closingSocket behind))) ∨
    ∃ m s', s.connection.waiters.head? = some m ∧ step s (.resume m .ready) = some s' ∧
      s'.connection.waiters = s.connection.waiters.tail

/-- What holds of the socket and of the calls of a connection. -/
structure Orderly (s : RelayLoop κ) : Prop where
  once : s.log.countP isSocketClose ≤ 1
  silent : ∀ later n code reason earlier, s.log = later ++ .socketClose n code reason :: earlier →
    ∀ t ∈ later, isHanded t = false
  ended : ∀ later n earlier, s.log = later ++ .closed n :: earlier → ∃ m, .socketClosed m ∈ earlier
  told : Told s
  alive : NoDeadlock s

theorem Sound.alive (hs : Sound s) : NoDeadlock s := by
  intro hwaits
  cases hholder : s.connection.holder with
  | some m =>
    obtain ⟨behind,hcall⟩ := (hs.holder m).mp hholder
    exact .inl ⟨m,behind,hcall⟩
  | none =>
    obtain ⟨m,rest,hrest⟩ := List.exists_cons_of_ne_nil hwaits
    obtain ⟨code,reason,behind,hcall⟩ := (hs.waiters m).mp (by rw [hrest]; exact List.mem_cons_self ..)
    have hclosed := hs.busy (.inr hwaits)
    have hresume : resumeCall s m (.awaitingLock code reason behind) .ready = some (do
        Run.modify fun s => s.setLock s.connection.holder s.connection.waiters.tail
        closeLocked m code reason behind) := by
      simp [resumeCall,hholder,hrest]
    refine .inr ⟨m,_,by rw [hrest]; rfl,by rw [RelayLoop.step,hcall]; exact congrArg (Option.map _) hresume,?_⟩
    have htaken : ((s.setLock s.connection.holder s.connection.waiters.tail).take m).connection.closed := hclosed
    simp only [settle,modify_bind,closeLocked,get_bind,if_pos htaken,(leave_state ..).1]
    rfl

/-- Whatever calls, timeouts, failures and cancellations interleave: the socket is closed at most once, nothing is handed
to it behind that, a call of `close` returns only behind the end of the socket's close, every text fits the bound, a
refused message closes the connection, and a call that waits for the lock is never stuck. -/
theorem relay_connection_orderly (h : Reachable step Init s) : Orderly s := by
  have hs : Sound s := h.invariant (fun _ => sound_init) fun _ _ _ hs _ hstep => hs.step hstep
  refine ⟨?_,fun later n code reason earlier hlog => ?_,fun later n earlier hlog => ?_,hs.toTold,hs.alive⟩
  · rw [hs.history.closes]
    split <;> simp
  · exact History.silent (hlog ▸ hs.history)
  · obtain ⟨q,hq⟩ := History.suffix (hlog ▸ hs.history)
    cases hq with
    | handed _ ht => simp [isHanded] at ht
    | closed _ hq => exact hq.ended rfl

/-- A binary message is refused while another task closes the connection. -/
def binaryWhileClosing : List (RelayAction ℕ) :=
  [.sendText 0 "hello", .receiveText 1, .close 2 1000 "bye", .resume 1 (.message (.bytes [0])), .resume 0 .ready,
    .resume 2 .timeout, .resume 1 .ready]

theorem relay_connection_orderly_binary : ∃ s,
    exec step { connection := { maxFrameBytes := 8 } } binaryWhileClosing = some s ∧ Orderly s ∧
      s.calls 1 = some (.raised (.transport ⟨"protocol_error","transport.receive.binary",none⟩)) := by
  have hs : exec step { connection := { maxFrameBytes := 8 } } binaryWhileClosing = some _ := rfl
  exact ⟨_,hs,relay_connection_orderly (exec_reachable step ⟨8,rfl⟩ hs),rfl⟩

end RelayLoop
end Transports
end HarnessSdk
