import HarnessSdk.Coroutine
import HarnessSdk.Transition
import Mathlib.Logic.Function.Basic
import Mathlib.Data.List.Basic

/-!
# The Unix host

`start` creates the listening server and its socket path, and `close` takes over the server that is stored at that
moment. Calls of `start`, `close` and `_handle` are tasks.
-/

namespace HarnessSdk
namespace Transports

open Transition

/-- The exceptions by their classes, with the texts that the host gives them. -/
inductive UnixExn
  | runtime (message : String)
  | value (message : String)
  | fileExists (message : String)
  | fileNotFound
  | permission (message : String)
  | os
  | cancelled
  deriving DecidableEq, Repr

/-- What is found at the socket path: the socket of a server, which is named by the call that has created it, or
something else. -/
inductive PathEntry
  | socket (call : ℕ)
  | other (isSocket : Bool)
  deriving DecidableEq, Repr

def PathEntry.isSocket : PathEntry → Bool
  | socket _ => true
  | other isSocket => isSocket

structure UnixConfig where
  ownerUid : ℕ
  maxConnections : ℕ := 4
  /-- The length of the path in bytes. -/
  pathLength : ℕ

/-- The fields of the host. Channels and handlers are named by the call of `_handle`. -/
structure UnixRealtimeHost where
  server : Option ℕ := none
  channels : List ℕ := []
  handlerTasks : List ℕ := []
  accepting : Bool := false
  shutdown : Bool := false
  closeOwner : Option ℕ := none
  closeDone : Bool := false
  deriving DecidableEq, Repr

/-- A call with what it meets: the parent directory and the creation of the socket, the task that closes, and the peer
of a connection, unless it cannot be told. -/
inductive UnixRequest
  | start (parent : Option UnixExn) (binds : Bool)
  | close (task : ℕ)
  | handle (peer : Option ℕ)
  deriving DecidableEq, Repr

/-- A call of `start` or `_handle` is a task of its own. -/
def UnixRequest.task (n : ℕ) : UnixRequest → ℕ
  | close task => task
  | _ => n

/-- Where a call is suspended, and what `start` raises behind its `close`. -/
inductive UnixPoint
  | creating
  | waiting (behind : Option UnixExn)
  | closingServer (behind : Option UnixExn)
  | yielding (behind : Option UnixExn)
  | closingChannels (handlers : List ℕ) (behind : Option UnixExn)
  | awaitingHandlers (tasks : List ℕ) (behind : Option UnixExn)
  | handling
  | closingChannel (behind : Option UnixExn)
  | leaving (behind : Option UnixExn)
  deriving DecidableEq, Repr

inductive UnixState
  | at (point : UnixPoint)
  | returned
  | raised (e : UnixExn)
  deriving DecidableEq, Repr

structure UnixCall where
  request : UnixRequest
  state : UnixState
  deriving DecidableEq, Repr

def UnixCall.isOver (call : UnixCall) : Bool :=
  match call.state with
  | .at _ => false
  | _ => true

/-- What is recorded of a history: a server is created, and it is closed. -/
inductive UnixTrace
  | created (call : ℕ)
  | serverClosed (call : ℕ)
  deriving DecidableEq, Repr

structure UnixLoop where
  host : UnixRealtimeHost := {}
  calls : ℕ → Option UnixCall := fun _ => none
  path : Option PathEntry := none
  log : List UnixTrace := []

abbrev UnixProg (α : Type) := Run UnixLoop UnixPoint UnixExn α

namespace UnixLoop

def observe (s : UnixLoop) (t : UnixTrace) : UnixLoop := { s with log := t :: s.log }

def update (s : UnixLoop) (f : UnixRealtimeHost → UnixRealtimeHost) : UnixLoop := { s with host := f s.host }

def isOver (s : UnixLoop) (n : ℕ) : Bool := (s.calls n).any UnixCall.isOver

/-! `close`. -/

def setDone (s : UnixLoop) : UnixLoop := s.update fun host => { host with closeDone := true }

def leave : Option UnixExn → UnixProg Unit
  | none => pure ()
  | some e => Run.raise e

/-- The task takes the shutdown, and the server with it. -/
def claim (s : UnixLoop) (task : ℕ) : UnixLoop :=
  s.update fun host => { host with shutdown := true, closeOwner := some task, server := none, accepting := false }

def close (task : ℕ) (behind : Option UnixExn) : UnixProg Unit := do
  let s ← Run.get
  if s.host.shutdown then
    if s.host.closeOwner = some task ∨ s.host.closeDone then leave behind else Run.suspend (.waiting behind)
  else do
    Run.modify fun s => s.claim task
    match s.host.server with
    | some server => do
      Run.modify fun s => s.observe (.serverClosed server)
      Run.suspend (.closingServer behind)
    | none => Run.suspend (.yielding behind)

/-- Raise out of the `try` of `close`. -/
def closeRaised (e : UnixExn) : UnixProg Unit := do
  Run.modify setDone
  Run.raise e

def unlink (s : UnixLoop) : UnixLoop := if s.path.any PathEntry.isSocket then { s with path := none } else s

/-- The end of `close`, which raises when the path cannot be told or removed. -/
def removePath (removable : Bool) (behind : Option UnixExn) : UnixProg Unit :=
  if removable then do
    Run.modify fun s => s.unlink.setDone
    leave behind
  else closeRaised .os

def unfinished (s : UnixLoop) (task : ℕ) (tasks : List ℕ) : List ℕ := tasks.filter fun t => t ≠ task ∧ !s.isOver t

def cancelHandlers (task : ℕ) (handlers : List ℕ) (removable : Bool) (behind : Option UnixExn) : UnixProg Unit := do
  let s ← Run.get
  if s.unfinished task handlers = [] then removePath removable behind
  else Run.suspend (.awaitingHandlers (s.unfinished task handlers) behind)

/-- The handlers and the channels are taken behind the server. -/
def closeChannels (task : ℕ) (removable : Bool) (behind : Option UnixExn) : UnixProg Unit := do
  let s ← Run.get
  if s.host.channels = [] then cancelHandlers task s.host.handlerTasks removable behind
  else Run.suspend (.closingChannels s.host.handlerTasks behind)

/-! `start`. -/

def create (s : UnixLoop) (n : ℕ) : UnixLoop := { s.observe (.created n) with path := some (.socket n) }

variable (cfg : UnixConfig)

/-- The server listens before its creation suspends. -/
def start (n : ℕ) (parent : Option UnixExn) (binds : Bool) : UnixProg Unit := do
  let s ← Run.get
  if s.host.server.isSome then pure ()
  else if s.host.shutdown then Run.raise (.runtime "host is closed")
  else
    match parent with
    | some e => Run.raise e
    | none =>
      if 103 < cfg.pathLength then Run.raise (.value "AF_UNIX socket path is too long")
      else if s.path.isSome then Run.raise (.fileExists "refusing to replace an existing socket path")
      else if !binds then Run.raise .os
      else do
        Run.modify fun s => s.create n
        Run.suspend .creating

def store (s : UnixLoop) (n : ℕ) : UnixLoop := s.update fun host => { host with server := some n }

/-- The server has been created. `chmod` and `lstat` raise when there is no path. -/
def created (n : ℕ) (secures ownerOnly : Bool) : UnixProg Unit := do
  Run.modify fun s => s.store n
  let s ← Run.get
  if s.path = none then Run.raise .fileNotFound
  else if !secures then Run.raise .os
  else if !ownerOnly then close n (some (.permission "created socket is not owner-only"))
  else if s.host.shutdown then close n (some (.runtime "host is closed"))
  else Run.modify fun s => s.update fun host => { host with accepting := true }

/-! `_handle`. -/

def handle (n : ℕ) (peer : Option ℕ) : UnixProg Unit := do
  Run.modify fun s => s.update fun host => { host with handlerTasks := host.handlerTasks.insert n }
  let s ← Run.get
  if !s.host.accepting ∨ peer ≠ some cfg.ownerUid ∨ cfg.maxConnections ≤ s.host.channels.length then
    Run.suspend (.leaving none)
  else do
    Run.modify fun s => s.update fun host => { host with channels := host.channels.insert n }
    Run.suspend .handling

/-- The end of `_handle`. -/
def discard (s : UnixLoop) (n : ℕ) : UnixLoop :=
  s.update fun host => { host with channels := host.channels.erase n, handlerTasks := host.handlerTasks.erase n }

def handled (n : ℕ) (behind : Option UnixExn) : UnixProg Unit := do
  Run.modify fun s => s.discard n
  leave behind

end UnixLoop

/-- What a suspended call is resumed with. -/
inductive UnixSignal
  | created (secures ownerOnly : Bool)
  | ready (removable : Bool)
  | raised
  | timeout
  | cancelled
  deriving DecidableEq, Repr

inductive UnixAction
  | begin (call : ℕ) (request : UnixRequest)
  | resume (call : ℕ) (signal : UnixSignal)
  deriving DecidableEq, Repr

namespace UnixLoop

variable (cfg : UnixConfig)

def beginCall (n : ℕ) : UnixRequest → UnixProg Unit
  | .start parent binds => start cfg n parent binds
  | .close task => close task none
  | .handle peer => handle cfg n peer

/-- The program that follows a signal. A failure and a timeout of the server are hidden, and the failures of handlers
and of the writer too. A channel that fails to close is not discarded. -/
def resumeCall (s : UnixLoop) (n task : ℕ) : UnixPoint → UnixSignal → Option (UnixProg Unit)
  | .creating, .created secures ownerOnly => some (created n secures ownerOnly)
  | .creating, .cancelled => some (Run.raise .cancelled)
  | .waiting behind, .ready _ => if s.host.closeDone then some (leave behind) else none
  | .waiting _, .cancelled => some (Run.raise .cancelled)
  | .closingServer behind, .ready _ => some (Run.suspend (.yielding behind))
  | .closingServer behind, .raised => some (Run.suspend (.yielding behind))
  | .closingServer behind, .timeout => some (Run.suspend (.yielding behind))
  | .closingServer _, .cancelled => some (closeRaised .cancelled)
  | .yielding behind, .ready removable => some (closeChannels task removable behind)
  | .yielding _, .cancelled => some (closeRaised .cancelled)
  | .closingChannels handlers behind, .ready removable => some (cancelHandlers task handlers removable behind)
  | .closingChannels .., .raised => some (closeRaised .os)
  | .closingChannels .., .cancelled => some (closeRaised .cancelled)
  | .awaitingHandlers tasks behind, .ready removable => if tasks.all s.isOver then some (removePath removable behind) else none
  | .awaitingHandlers .., .cancelled => some (closeRaised .cancelled)
  | .handling, .ready _ => some (Run.suspend (.closingChannel none))
  | .handling, .raised => some (Run.suspend (.closingChannel none))
  | .handling, .cancelled => some (Run.suspend (.closingChannel (some .cancelled)))
  | .closingChannel behind, .ready _ => some (handled n behind)
  | .closingChannel _, .raised => some (Run.raise .os)
  | .closingChannel _, .cancelled => some (Run.raise .cancelled)
  | .leaving behind, .ready _ => some (handled n behind)
  | .leaving behind, .raised => some (handled n behind)
  | .leaving behind, .timeout => some (handled n behind)
  | .leaving _, .cancelled => some (Run.raise .cancelled)
  | _, _ => none

def stateOf : Outcome UnixLoop UnixPoint UnixExn Unit → UnixState
  | .ok _ _ => .returned
  | .raise e _ => .raised e
  | .park point _ => .at point

def conclude (u : UnixLoop) (n : ℕ) (call : UnixCall) : UnixLoop := { u with calls := Function.update u.calls n (some call) }

/-- Where a stretch ends is where the call is suspended next, or how it has ended. -/
def settle (n : ℕ) (request : UnixRequest) (m : UnixProg Unit) (s : UnixLoop) : UnixLoop :=
  (m s).state.conclude n { request, state := stateOf (m s) }

/-- The owner of a shutdown is inside it as long as it is not done. -/
def isInside (s : UnixLoop) : UnixRequest → Bool
  | .close task => s.host.closeOwner = some task && !s.host.closeDone
  | _ => false

def step (s : UnixLoop) : UnixAction → Option UnixLoop
  | .begin n request =>
    if s.calls n = none ∧ !s.isInside request then some (settle n request (beginCall cfg n request) s) else none
  | .resume n signal =>
    match s.calls n with
    | some { request, state := .at point } => (resumeCall s n (request.task n) point signal).map fun m => settle n request m s
    | _ => none

/-- Anything but a server of the host may be found at the path. -/
def Init (s : UnixLoop) : Prop := ∃ path, (∀ n, path ≠ some (.socket n)) ∧ s = { path }

end UnixLoop
end Transports
end HarnessSdk
