import HarnessSdk.Coroutine
import HarnessSdk.Transition
import Mathlib.Logic.Function.Basic

/-!
# Channels of the local transports

A channel closes its session first, and its transport behind it. One call of `close` owns the teardown; the other ones
wait for its end, and one that the owner makes from inside returns at once.
-/

namespace HarnessSdk
namespace Transports

open Transition

/-- `ConnectionError` and `OSError`, among them `TimeoutError`, and any other `Exception`. -/
inductive Failure
  | os | other
  deriving DecidableEq, Repr

inductive ChannelExn
  | runtime (message : String)
  | admission (code : String)
  | value (message : String)
  | transport (failure : Failure)
  | cancelled
  deriving DecidableEq, Repr

/-- What a channel receives: a frame of a size, or something that is neither text nor bytes. -/
inductive Incoming
  | frame (size : ℕ)
  | unsupported
  deriving DecidableEq, Repr

/-- A frame is refused: the channel is closed with a code, and an error is raised behind it. -/
structure Refusal where
  code : Option ℕ
  error : ChannelExn
  deriving DecidableEq, Repr

/-- What the channels differ in: the frames that `receive` refuses, and the failures of the transport that `close`
hides. -/
structure ChannelKind where
  refuses : ℕ → Incoming → Option Refusal
  suppresses : Failure → Bool

def loopbackWebSocketRealtimeChannel : ChannelKind where
  refuses maxFrameBytes
    | .unsupported => some { code := some 1003, error := .admission "unsupported_frame" }
    | .frame size =>
      if maxFrameBytes < size then some { code := some 1009, error := .admission "frame_too_large" } else none
  suppresses _ := true

/-- The length of a frame is read from its header. -/
def unixRealtimeChannel : ChannelKind where
  refuses maxFrameBytes
    | .unsupported => none
    | .frame size =>
      if maxFrameBytes < size then some { code := none, error := .value "frame exceeds configured bound" } else none
  suppresses failure := failure = .os

variable {κ τ : Type}

/-- The fields of a channel. Sessions are numbered, and `τ` are the tasks. -/
structure RealtimeChannel (τ : Type) where
  maxFrameBytes : ℕ := 1048576
  session : Option ℕ := none
  closed : Bool := false
  closeOwner : Option τ := none
  closeDone : Bool := false
  deriving DecidableEq, Repr

/-- Where a call is suspended, and what `receive` raises behind its `close`. -/
inductive ChannelPoint
  | receiving
  | waiting (behind : Option ChannelExn)
  | closingSession (code : Option ℕ) (behind : Option ChannelExn)
  | closingTransport (behind : Option ChannelExn)
  deriving DecidableEq, Repr

inductive CallState
  | at (point : ChannelPoint)
  | returned
  | raised (e : ChannelExn)
  deriving DecidableEq, Repr

/-- A call of `close` or `receive`, and the task that makes it. -/
structure ChannelCall (τ : Type) where
  task : τ
  state : CallState
  deriving DecidableEq, Repr

/-- What is recorded of a history: the session and the transport are closed, and a call of `close` returns, the last
one from inside the teardown. -/
inductive ChannelTrace (κ : Type)
  | sessionClose (session : ℕ)
  | transportClose (code : Option ℕ)
  | closed (call : κ)
  | reentered (call : κ)
  deriving DecidableEq, Repr

/-- A channel with the calls of its methods, which are named by `κ`. -/
structure ChannelLoop (κ τ : Type) where
  channel : RealtimeChannel τ := {}
  calls : κ → Option (ChannelCall τ) := fun _ => none
  log : List (ChannelTrace κ) := []

abbrev ChannelProg (κ τ α : Type) := Run (ChannelLoop κ τ) ChannelPoint ChannelExn α

namespace ChannelLoop

def observe (s : ChannelLoop κ τ) (t : ChannelTrace κ) : ChannelLoop κ τ := { s with log := t :: s.log }

/-- The task takes the teardown, and the session with it. -/
def own (s : ChannelLoop κ τ) (task : τ) : ChannelLoop κ τ :=
  { s with channel := { s.channel with closed := true, closeOwner := some task, session := none } }

def setDone (s : ChannelLoop κ τ) : ChannelLoop κ τ := { s with channel := { s.channel with closeDone := true } }

/-- A call of `close` is over. -/
def leave (t : ChannelTrace κ) (behind : Option ChannelExn) : ChannelProg κ τ Unit := do
  Run.modify fun s => s.observe t
  match behind with
  | none => pure ()
  | some e => Run.raise e

def closeTransport (code : Option ℕ) (behind : Option ChannelExn) : ChannelProg κ τ Unit := do
  Run.modify fun s => s.observe (.transportClose code)
  Run.suspend (.closingTransport behind)

/-- Nothing is awaited under the lock, so that it is free whenever it is taken. The owner is inside its own teardown as
long as that is not done. -/
def close [DecidableEq τ] (n : κ) (task : τ) (code : Option ℕ) (behind : Option ChannelExn) : ChannelProg κ τ Unit := do
  let s ← Run.get
  if s.channel.closed then
    if s.channel.closeOwner = some task then leave (if s.channel.closeDone then .closed n else .reentered n) behind
    else if s.channel.closeDone then leave (.closed n) behind
    else Run.suspend (.waiting behind)
  else do
    Run.modify fun s => s.own task
    match s.channel.session with
    | some session => do
      Run.modify fun s => s.observe (.sessionClose session)
      Run.suspend (.closingSession code behind)
    | none => closeTransport code behind

/-- The `finally` of `close`. -/
def closeEnded (n : κ) (error : Option ChannelExn) (behind : Option ChannelExn) : ChannelProg κ τ Unit := do
  Run.modify setDone
  match error with
  | none => leave (.closed n) behind
  | some e => Run.raise e

def receive : ChannelProg κ τ Unit := do
  let s ← Run.get
  if s.channel.closed then Run.raise (.runtime "channel is closed") else Run.suspend .receiving

variable (kind : ChannelKind) [DecidableEq κ] [DecidableEq τ]

/-- Something has been received. -/
def received (n : κ) (task : τ) (incoming : Incoming) : ChannelProg κ τ Unit := do
  let s ← Run.get
  match kind.refuses s.channel.maxFrameBytes incoming with
  | none => pure ()
  | some refusal => close n task refusal.code (some refusal.error)

end ChannelLoop

/-- What a suspended call is resumed with. -/
inductive ChannelSignal
  | ready
  | incoming (incoming : Incoming)
  | raised (failure : Failure)
  | timeout
  | cancelled
  deriving DecidableEq, Repr

/-- A session is bound, a call begins, or a call goes on. -/
inductive ChannelAction (κ τ : Type)
  | bindSession (session : ℕ)
  | close (call : κ) (task : τ) (code : Option ℕ)
  | receive (call : κ) (task : τ)
  | resume (call : κ) (signal : ChannelSignal)
  deriving DecidableEq, Repr

namespace ChannelLoop

variable (kind : ChannelKind) [DecidableEq κ] [DecidableEq τ]

/-- The program that follows a signal. A failure or a timeout of the session is hidden; a timeout of the transport is
an `OSError`. -/
def resumeCall (s : ChannelLoop κ τ) (n : κ) (task : τ) : ChannelPoint → ChannelSignal → Option (ChannelProg κ τ Unit)
  | .receiving, .incoming incoming => some (received kind n task incoming)
  | .receiving, .raised failure => some (Run.raise (.transport failure))
  | .waiting behind, .ready => if s.channel.closeDone then some (leave (.closed n) behind) else none
  | .closingSession code behind, .ready => some (closeTransport code behind)
  | .closingSession code behind, .raised _ => some (closeTransport code behind)
  | .closingSession code behind, .timeout => some (closeTransport code behind)
  | .closingSession .., .cancelled => some (closeEnded n (some .cancelled) none)
  | .closingTransport behind, .ready => some (closeEnded n none behind)
  | .closingTransport behind, .raised failure =>
    some (closeEnded n (if kind.suppresses failure then none else some (.transport failure)) behind)
  | .closingTransport behind, .timeout =>
    some (closeEnded n (if kind.suppresses .os then none else some (.transport .os)) behind)
  | .closingTransport _, .cancelled => some (closeEnded n (some .cancelled) none)
  | _, .cancelled => some (Run.raise .cancelled)
  | _, _ => none

/-- Where a stretch of a call leads. -/
def stateOf : Outcome (ChannelLoop κ τ) ChannelPoint ChannelExn Unit → CallState
  | .ok _ _ => .returned
  | .raise e _ => .raised e
  | .park point _ => .at point

def conclude (u : ChannelLoop κ τ) (n : κ) (call : ChannelCall τ) : ChannelLoop κ τ :=
  { u with calls := Function.update u.calls n (some call) }

def settle (n : κ) (task : τ) (m : ChannelProg κ τ Unit) (s : ChannelLoop κ τ) : ChannelLoop κ τ :=
  (m s).state.conclude n { task, state := stateOf (m s) }

/-- `bind_session` raises for a channel that is closed, or has a session. -/
def bindSession (s : ChannelLoop κ τ) (session : ℕ) : ChannelLoop κ τ :=
  if s.channel.closed ∨ s.channel.session.isSome then s
  else { s with channel := { s.channel with session := some session } }

def step (s : ChannelLoop κ τ) : ChannelAction κ τ → Option (ChannelLoop κ τ)
  | .bindSession session => some (s.bindSession session)
  | .close n task code => if s.calls n = none then some (settle n task (close n task code none) s) else none
  | .receive n task => if s.calls n = none then some (settle n task receive s) else none
  | .resume n signal =>
    match s.calls n with
    | some { task, state := .at point } => (resumeCall kind s n task point signal).map fun m => settle n task m s
    | _ => none

/-- The constructor refuses bounds that are not positive. -/
def Init (s : ChannelLoop κ τ) : Prop := ∃ maxFrameBytes, 0 < maxFrameBytes ∧ s = { channel := { maxFrameBytes } }

end ChannelLoop
end Transports
end HarnessSdk
