import HarnessSdk.RealtimeChannel
import HarnessSdk.LocalProtocol

/-!
# The loopback host

The host counts a socket among the pending ones while it shakes hands, and among the channels once it is admitted. A
call of `accept`, `run` or `close` is a task, and so are the coroutines that `close` gathers.
-/

namespace HarnessSdk

mutual

/-- `_unique_object` raises for no object of the value. -/
def Json.uniqueKeys : Json → Bool
  | .arr items => Json.uniqueItems items
  | .obj members => Json.uniqueMembers members && decide (members.map Prod.fst).Nodup
  | _ => true

def Json.uniqueItems : List Json → Bool
  | [] => true
  | v :: vs => Json.uniqueKeys v && Json.uniqueItems vs

def Json.uniqueMembers : List (String × Json) → Bool
  | [] => true
  | (_,v) :: ms => Json.uniqueKeys v && Json.uniqueMembers ms

end

namespace Transports

def localRealtimePath : String := "/ws/realtime-voice"
def localRealtimeVersion : String := "2026-08-27.1"

/-- A `LocalAdmissionError`, another `Exception`, or `CancelledError`. -/
inductive HostExn
  | admission (code : String)
  | other
  | cancelled
  deriving DecidableEq, Repr

/-- The first frame of a socket. -/
inductive FirstFrame
  | text (payload : Payload)
  | binary

/-- `_auth_message`. A `RecursionError` of the parser is not caught. -/
def authMessage (maxFrameBytes : ℕ) : FirstFrame → Except HostExn String
  | .binary => .error (.admission "auth_must_be_text")
  | .text payload =>
    if maxFrameBytes < payload.bytes then .error (.admission "frame_too_large")
    else
      match payload.loads with
      | .error .tooDeep => .error .other
      | .error .notJson => .error (.admission "invalid_auth")
      | .ok value =>
        match if value.uniqueKeys then Json.asObject (some value) else none with
        | none => .error (.admission "invalid_auth")
        | some value =>
          if !Local.sameFields value ["type","version","secret"] then .error (.admission "invalid_auth")
          else if !Json.isString (Json.field value "type") "local.auth" ||
            !Json.isString (Json.field value "version") localRealtimeVersion then .error (.admission "invalid_auth")
          else
            match Json.asString (Json.field value "secret") with
            | none => .error (.admission "invalid_auth")
            | some secret => .ok secret

/-- The arguments of the constructor, which raises `ValueError` for other ones. `isLoopback` is what `ipaddress` says of
an address. -/
structure HostConfig where
  sharedSecret : String
  allowedOrigins : List String
  isLoopback : String → Bool
  maxFrameBytes : ℕ := 1048576
  maxConnections : ℕ := 4
  valid : sharedSecret ≠ "" ∧ allowedOrigins ≠ [] ∧ 0 < maxFrameBytes ∧ 0 < maxConnections

/-- The fields of the host. A socket, its channel and the task that accepts it are named by the call. -/
structure LoopbackWebSocketRealtimeHost where
  channels : List ℕ := []
  pending : List ℕ := []
  handlerTasks : List ℕ := []
  closed : Bool := false
  closeOwner : Option ℕ := none
  closeDone : Bool := false
  deriving DecidableEq, Repr

structure Admission where
  path : String
  origin : Option String
  peerHost : String
  deriving DecidableEq, Repr

inductive HostRequest
  | accept (admission : Admission)
  | run (admission : Admission)
  | close
  deriving DecidableEq, Repr

/-- What `close` has found, and the pending tasks that it has cancelled. -/
structure Snapshot where
  channels : List ℕ
  pending : List ℕ
  handlers : List ℕ
  pendingTasks : List ℕ
  deriving DecidableEq, Repr

/-- Where a call is suspended. While a socket is rejected, `pending` tells whether it has passed the first gate. -/
inductive HostPoint
  | receiving
  | rejecting (pending : Bool) (behind : HostExn)
  | refusing
  | handling
  | closing (behind : Option HostExn)
  | waiting
  | rejectingPending (snapshot : Snapshot)
  | closingChannels (snapshot : Snapshot)
  | awaitingTasks (tasks : List ℕ)
  deriving DecidableEq, Repr

inductive HostState
  | at (point : HostPoint)
  | returned
  | raised (e : HostExn)
  deriving DecidableEq, Repr

structure HostCall where
  request : HostRequest
  state : HostState
  deriving DecidableEq, Repr

def HostCall.isOver (call : HostCall) : Bool :=
  match call.state with
  | .at _ => false
  | _ => true

/-- A task that `close` gathers. -/
inductive Gathered
  | created | started | ended
  deriving DecidableEq, Repr

/-- Who closes a channel: a call of the host, a task that `close` gathers for the channel, or another task. -/
inductive HostTask
  | call (n : ℕ)
  | closer (channel : ℕ)
  | other (t : ℕ)
  deriving DecidableEq, Repr

/-- The calls of the methods of a channel: the last one of `run`, the one that `close` gathers, and those of the
product. -/
inductive ChannelUse
  | final
  | gathered
  | product (k : ℕ)
  deriving DecidableEq, Repr

/-- What is recorded of a history. A call that finds no room records how many sockets were pending or open then. -/
inductive HostTrace
  | busy (call count : ℕ)
  | socketClose (call code : ℕ)
  | snapshot (snapshot : Snapshot)
  | closed (call : ℕ)
  deriving DecidableEq, Repr

/-- The host with its calls, the channels that it has ever admitted, the tasks that `close` gathers, the calls that the
product makes of a channel, and the tasks that `close` has cancelled. -/
structure HostLoop where
  host : LoopbackWebSocketRealtimeHost := {}
  calls : ℕ → Option HostCall := fun _ => none
  loops : ℕ → Option (ChannelLoop ChannelUse HostTask) := fun _ => none
  admitted : List ℕ := []
  rejections : ℕ → Option Gathered := fun _ => none
  closers : ℕ → Option Gathered := fun _ => none
  uses : List (ℕ × ℕ) := []
  cancelled : List ℕ := []
  log : List HostTrace := []

abbrev HostProg (α : Type) := Run HostLoop HostPoint HostExn α

namespace HostLoop

def observe (s : HostLoop) (t : HostTrace) : HostLoop := { s with log := t :: s.log }

def update (s : HostLoop) (f : LoopbackWebSocketRealtimeHost → LoopbackWebSocketRealtimeHost) : HostLoop :=
  { s with host := f s.host }

def setLoop (s : HostLoop) (c : ℕ) (loop : ChannelLoop ChannelUse HostTask) : HostLoop :=
  { s with loops := Function.update s.loops c (some loop) }

def channelClosed (s : HostLoop) (c : ℕ) : Bool := (s.loops c).any fun loop => loop.channel.closed

/-- The admitted channels that are not closed. -/
def openChannels (s : HostLoop) : List ℕ := s.admitted.filter fun c => !s.channelClosed c

/-- The pending handshakes and the channels that are not closed. -/
def liveCount (s : HostLoop) : ℕ := s.host.pending.length + s.openChannels.length

def isOver (s : HostLoop) (n : ℕ) : Bool := (s.calls n).any HostCall.isOver

/-! `accept`. -/

/-- `_reject`, and what is raised behind it. -/
def reject (n code : ℕ) (pending : Bool) (behind : HostExn) : HostProg Unit := do
  Run.modify fun s => s.observe (.socketClose n code)
  Run.suspend (.rejecting pending behind)

def enter (s : HostLoop) (n : ℕ) : HostLoop := s.update fun host => { host with pending := host.pending.insert n }

/-- The `finally` of `accept`. -/
def dropPending (s : HostLoop) (n : ℕ) : HostLoop := s.update fun host => { host with pending := host.pending.erase n }

variable (cfg : HostConfig)

/-- A new channel for the socket. -/
def addChannel (s : HostLoop) (n : ℕ) : HostLoop :=
  { (s.update fun host => { host with channels := host.channels.insert n }).setLoop n
      { channel := { maxFrameBytes := cfg.maxFrameBytes } } with
    admitted := n :: s.admitted }

/-- What is wrong with the route. -/
def routeError (admission : Admission) : Option String :=
  if admission.path ≠ localRealtimePath then some "wrong_path"
  else if !cfg.isLoopback admission.peerHost then some "non_loopback_peer"
  else if !admission.origin.any (· ∈ cfg.allowedOrigins) then some "wrong_origin"
  else none

def handshake (n : ℕ) (admission : Admission) : HostProg Unit :=
  match routeError cfg admission with
  | some code => reject n 1008 true (.admission code)
  | none => Run.suspend .receiving

/-- Up to the first gate and the handshake. -/
def accept (n : ℕ) (admission : Admission) : HostProg Unit := do
  let s ← Run.get
  if s.host.closed then reject n 1001 false (.admission "host_closed")
  else if cfg.maxConnections ≤ s.host.channels.length + s.host.pending.length then do
    Run.modify fun s => s.observe (.busy n s.liveCount)
    reject n 1001 false (.admission "capacity_busy")
  else do
    Run.modify fun s => s.enter n
    handshake cfg n admission

/-- The call of `close` that ends `run`. -/
def closeFinal (s : HostLoop) (n code : ℕ) : HostLoop :=
  match s.loops n with
  | none => s
  | some loop => s.setLoop n (ChannelLoop.settle .final (.call n) (ChannelLoop.close .final (.call n) (some code) none) loop)

/-- `run` behind `accept`. -/
def runChannel (n : ℕ) : HostProg Unit := do
  let s ← Run.get
  if s.host.closed ∨ s.channelClosed n then do
    Run.modify fun s => s.closeFinal n 1001
    Run.suspend .refusing
  else do
    Run.modify fun s => s.update fun host => { host with handlerTasks := host.handlerTasks.insert n }
    Run.suspend .handling

/-- The channel is returned. -/
def accepted (n : ℕ) : HostRequest → HostProg Unit
  | .run _ => runChannel n
  | _ => pure ()

/-- The second gate. -/
def secondGate (n : ℕ) (request : HostRequest) : HostProg Unit := do
  let s ← Run.get
  if s.host.closed then reject n 1001 true (.admission "host_closed")
  else if cfg.maxConnections ≤ s.host.channels.length then do
    Run.modify fun s => s.observe (.busy n s.liveCount)
    reject n 1001 true (.admission "capacity_busy")
  else do
    Run.modify fun s => (s.addChannel cfg n).dropPending n
    accepted n request

def isAscii (text : String) : Bool := text.toList.all fun c => decide (c.toNat < 128)

/-- Raise out of the `try` of `accept`. -/
def leaveHandshake (n : ℕ) (e : HostExn) : HostProg Unit := do
  Run.modify fun s => s.dropPending n
  Run.raise e

/-- The first frame has come. `compare_digest` raises `TypeError` for texts that are not ASCII. -/
def received (n : ℕ) (request : HostRequest) (first : FirstFrame) : HostProg Unit :=
  match authMessage cfg.maxFrameBytes first with
  | .error (.admission code) => reject n (if code = "frame_too_large" then 1009 else 1008) true (.admission code)
  | .error e => leaveHandshake n e
  | .ok auth =>
    if !isAscii auth || !isAscii cfg.sharedSecret then leaveHandshake n .other
    else if auth ≠ cfg.sharedSecret then reject n 1008 true (.admission "auth_failed")
    else secondGate cfg n request

/-- The socket has been rejected. -/
def rejected (n : ℕ) (pending : Bool) (behind : HostExn) : HostProg Unit :=
  if pending then leaveHandshake n behind else Run.raise behind

/-! `run`. -/

/-- The handler has come to its end. -/
def handled (n : ℕ) (behind : Option HostExn) : HostProg Unit := do
  Run.modify fun s => s.closeFinal n 1000
  Run.suspend (.closing behind)

def discard (s : HostLoop) (n : ℕ) : HostLoop :=
  s.update fun host => { host with channels := host.channels.erase n, handlerTasks := host.handlerTasks.erase n }

def raiseBehind : Option HostExn → HostProg Unit
  | none => pure ()
  | some e => Run.raise e

/-- The last call of `close` is over. -/
def finalClosed (n : ℕ) (behind : Option HostExn) : HostProg Unit := do
  Run.modify fun s => s.discard n
  raiseBehind behind

/-! `close`. -/

def setDone (s : HostLoop) : HostLoop := s.update fun host => { host with closeDone := true }

def closeReturned (n : ℕ) : HostProg Unit := Run.modify fun s => s.observe (.closed n)

/-- Raise out of the `try` of `close`. -/
def closeRaised (e : HostExn) : HostProg Unit := do
  Run.modify setDone
  Run.raise e

def finishClose (n : ℕ) : HostProg Unit := do
  Run.modify fun s => (s.update fun host => { host with channels := [], handlerTasks := [] }).setDone
  closeReturned n

def unfinished (s : HostLoop) (n : ℕ) (tasks : List ℕ) : List ℕ := tasks.filter fun t => t ≠ n ∧ !s.isOver t

def cancelTasks (s : HostLoop) (tasks : List ℕ) : HostLoop := { s with cancelled := tasks ++ s.cancelled }

def cancelHandlers (n : ℕ) (snapshot : Snapshot) : HostProg Unit := do
  let s ← Run.get
  let active := s.unfinished n snapshot.handlers
  Run.modify fun s => s.cancelTasks active
  if snapshot.pendingTasks ++ active = [] then finishClose n
  else Run.suspend (.awaitingTasks (snapshot.pendingTasks ++ active))

/-- `asyncio.gather` makes a task of each coroutine. -/
def gather (tasks : ℕ → Option Gathered) (names : List ℕ) : ℕ → Option Gathered :=
  fun n => if n ∈ names then some .created else tasks n

def closeChannels (n : ℕ) (snapshot : Snapshot) : HostProg Unit :=
  if snapshot.channels = [] then cancelHandlers n snapshot
  else do
    Run.modify fun s => { s with closers := gather s.closers snapshot.channels }
    Run.suspend (.closingChannels snapshot)

def takeSnapshot (s : HostLoop) (n : ℕ) : Snapshot where
  channels := s.host.channels
  pending := s.host.pending
  handlers := s.host.handlerTasks
  pendingTasks := s.unfinished n s.host.pending

/-- The task takes the shutdown, and cancels the pending tasks. -/
def claimClose (s : HostLoop) (n : ℕ) : HostLoop :=
  ((s.update fun host => { host with closed := true, closeOwner := some n, pending := [] }).cancelTasks
    (s.unfinished n s.host.pending)).observe (.snapshot (s.takeSnapshot n))

def rejectPending (n : ℕ) (snapshot : Snapshot) : HostProg Unit :=
  if snapshot.pending = [] then closeChannels n snapshot
  else do
    Run.modify fun s => { s with rejections := gather s.rejections snapshot.pending }
    Run.suspend (.rejectingPending snapshot)

def close (n : ℕ) : HostProg Unit := do
  let s ← Run.get
  if s.host.closed then
    if s.host.closeOwner = some n ∨ s.host.closeDone then closeReturned n else Run.suspend .waiting
  else do
    Run.modify fun s => s.claimClose n
    rejectPending n (s.takeSnapshot n)

end HostLoop

/-- What a suspended call is resumed with. -/
inductive HostSignal
  | first (frame : FirstFrame)
  | ready
  | timeout
  | raised
  | cancelled

/-- A call begins or goes on, a channel is used, or a task that `close` gathers goes on. -/
inductive HostAction
  | begin (call : ℕ) (request : HostRequest)
  | resume (call : ℕ) (signal : HostSignal)
  | channel (channel : ℕ) (action : ChannelAction ChannelUse HostTask)
  | reject (call : ℕ)
  | startCloser (channel : ℕ)

namespace HostLoop

variable (cfg : HostConfig)

def beginCall (n : ℕ) : HostRequest → HostProg Unit
  | .accept admission | .run admission => accept cfg n admission
  | .close => close n

/-- The state of a call of a channel. -/
def useState (s : HostLoop) (c : ℕ) (use : ChannelUse) : Option CallState :=
  ((s.loops c).bind fun loop => loop.calls use).map ChannelCall.state

def useOver (s : HostLoop) (c : ℕ) (use : ChannelUse) : Bool :=
  (s.useState c use).any fun state => match state with | .at _ => false | _ => true

/-- No call that the task has made of a channel is under way. -/
def isFree (s : HostLoop) (task : HostTask) : Bool :=
  s.uses.all fun (c,k) => s.useOver c (.product k) ||
    !((s.loops c).bind fun loop => loop.calls (.product k)).any fun call => call.task = task

/-- The program that follows a signal. The handler ends behind all that its task has called. -/
def resumeCall (s : HostLoop) (n : ℕ) (request : HostRequest) : HostPoint → HostSignal → Option (HostProg Unit)
  | .receiving, .first frame => some (received cfg n request frame)
  | .receiving, .timeout => some (reject n 1008 true (.admission "auth_timeout"))
  | .receiving, .raised => some (leaveHandshake n .other)
  | .receiving, .cancelled => some (leaveHandshake n .cancelled)
  | .rejecting pending _, .cancelled => some (rejected n pending .cancelled)
  | .rejecting pending behind, .ready => some (rejected n pending behind)
  | .rejecting pending behind, .timeout => some (rejected n pending behind)
  | .rejecting pending behind, .raised => some (rejected n pending behind)
  | .refusing, .ready =>
    match s.useState n .final with
    | some .returned => some (Run.raise (.admission "host_closed"))
    | some (.raised _) => some (Run.raise .cancelled)
    | _ => none
  | .handling, .ready => if s.isFree (.call n) then some (handled n none) else none
  | .handling, .raised => if s.isFree (.call n) then some (handled n (some .other)) else none
  | .handling, .cancelled => if s.isFree (.call n) then some (handled n (some .cancelled)) else none
  | .closing behind, .ready =>
    match s.useState n .final with
    | some .returned => some (finalClosed n behind)
    | some (.raised _) => some (Run.raise .cancelled)
    | _ => none
  | .waiting, .ready => if s.host.closeDone then some (closeReturned n) else none
  | .waiting, .cancelled => some (Run.raise .cancelled)
  | .rejectingPending snapshot, .ready =>
    if snapshot.pending.all fun m => decide (s.rejections m = some .ended) then some (closeChannels n snapshot) else none
  | .closingChannels snapshot, .ready =>
    if snapshot.channels.all fun c => decide (s.useState c .gathered = some .returned) then some (cancelHandlers n snapshot)
    else none
  | .closingChannels snapshot, .raised =>
    if snapshot.channels.any fun c => decide (s.useState c .gathered = some (.raised .cancelled)) then
      some (closeRaised .cancelled)
    else none
  | .awaitingTasks tasks, .ready => if tasks.all s.isOver then some (finishClose n) else none
  | .rejectingPending _, .cancelled => some (closeRaised .cancelled)
  | .closingChannels _, .cancelled => some (closeRaised .cancelled)
  | .awaitingTasks _, .cancelled => some (closeRaised .cancelled)
  | _, _ => none

def stateOf : Outcome HostLoop HostPoint HostExn Unit → HostState
  | .ok _ _ => .returned
  | .raise e _ => .raised e
  | .park point _ => .at point

def conclude (u : HostLoop) (n : ℕ) (call : HostCall) : HostLoop :=
  { u with calls := Function.update u.calls n (some call) }

/-- Where a stretch ends is where the call is suspended next, or how it has ended. -/
def settle (n : ℕ) (request : HostRequest) (m : HostProg Unit) (s : HostLoop) : HostLoop :=
  (m s).state.conclude n { request, state := stateOf (m s) }

/-- Code of the product runs in a handler, or in a task of its own. -/
def mayUse (s : HostLoop) : HostTask → Bool
  | .call n => (s.calls n).any fun call => call.state = .at .handling
  | .other _ => true
  | .closer _ => false

/-- The product binds a session or calls a method, and calls go on. -/
def useChannel (s : HostLoop) (c : ℕ) (loop : ChannelLoop ChannelUse HostTask) :
    ChannelAction ChannelUse HostTask → Option HostLoop
  | .close (.product k) task code =>
    if s.mayUse task then (loop.step loopbackWebSocketRealtimeChannel (.close (.product k) task code)).map fun loop =>
      { s.setLoop c loop with uses := (c,k) :: s.uses }
    else none
  | .receive (.product k) task =>
    if s.mayUse task then (loop.step loopbackWebSocketRealtimeChannel (.receive (.product k) task)).map fun loop =>
      { s.setLoop c loop with uses := (c,k) :: s.uses }
    else none
  | .bindSession session => (loop.step loopbackWebSocketRealtimeChannel (.bindSession session)).map (s.setLoop c)
  | .resume use signal => (loop.step loopbackWebSocketRealtimeChannel (.resume use signal)).map (s.setLoop c)
  | _ => none

def step (s : HostLoop) : HostAction → Option HostLoop
  | .begin n request => if s.calls n = none then some (settle n request (beginCall cfg n request) s) else none
  | .resume n signal =>
    match s.calls n with
    | some { request, state := .at point } => (resumeCall cfg s n request point signal).map fun m => settle n request m s
    | _ => none
  | .channel c action => (s.loops c).bind fun loop => s.useChannel c loop action
  | .reject n =>
    match s.rejections n with
    | some .created =>
      some ({ s with rejections := Function.update s.rejections n (some .started) }.observe (.socketClose n 1001))
    | some .started => some { s with rejections := Function.update s.rejections n (some .ended) }
    | _ => none
  | .startCloser c =>
    match s.closers c, s.loops c with
    | some .created, some loop =>
      (loop.step loopbackWebSocketRealtimeChannel (.close .gathered (.closer c) (some 1000))).map fun loop =>
        { s.setLoop c loop with closers := Function.update s.closers c (some .started) }
    | _, _ => none

def Init (s : HostLoop) : Prop := s = {}

end HostLoop
end Transports
end HarnessSdk
