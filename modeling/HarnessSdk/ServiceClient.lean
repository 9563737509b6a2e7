import HarnessSdk.ServiceAuthority

/-!
# The client of the Unix service

A call opens a connection of its own, waits for the greeting, sends one request and waits for the response. An exchange is
such a call with the handler of its connection and the bytes between them.
-/

namespace HarnessSdk
namespace UnixService

open Local (beNat)

/-- `read_frame`: the bytes of a whole frame are taken off the buffer. Nothing comes of it while there are fewer bytes,
unless the end has been reached (`IncompleteReadError`). -/
def readFrame (lib : Library) (buffer : Bytes) (eof : Bool) : Option (Except Failure Json.Object × Bytes) :=
  let short := if eof then some (.error .connection,[]) else none
  if buffer.length < 4 then short
  else
    let size := beNat (buffer.take 4)
    if size > frameMaxBytes then some (.error (.service .payloadTooLarge),buffer.drop 4)
    else if buffer.length < 4 + size then short
    else some (decodePayload lib ((buffer.drop 4).take size),buffer.drop (4 + size))

/-- What a wait of the client fails with: `TimeoutError`, another `OSError`, or another exception. -/
inductive Fault
  | timeout | os | other
  deriving DecidableEq, Repr

/-- The `except` branches of `_rpc`. -/
def Fault.failure : Fault → Failure
  | timeout => .service .timeout
  | os => .service .unavailable
  | other => .other

/-- Where the client waits: for the greeting, for the write buffer to drain, or for the response. -/
inductive ClientPoint
  | greeting | sending | response | finished (outcome : Except Failure ServiceResult)

/-- A call of a method of the client on its connection, with the identifier of its request: what has come from the server
and how much of it has not been read, and what has been written. -/
structure Rpc where
  call : ServiceCall
  requestId : String
  point : ClientPoint := .greeting
  received : Bytes := []
  buffer : Bytes := []
  eof : Bool := false
  output : Bytes := []

namespace Rpc

variable (lib : Library) (b : Builtins)

def greeted (hello : Json.Object) (k : Rpc) : Rpc :=
  match Json.asString (Json.field hello "capability") with
  | none => { k with point := .finished (.error (.service .unauthenticated)) }
  | some capability =>
    if !Json.isString (Json.field hello "type") "hello" then { k with point := .finished (.error (.service .unauthenticated)) }
    else
      match encodeFrame lib (k.call.frame k.requestId capability) with
      | .error f => { k with point := .finished (.error f) }
      | .ok bytes => { k with output := k.output ++ bytes, point := .sending }

/-- What the client makes of a response: a result, or the exception that it raises. -/
def outcome (response : Json.Object) (k : Rpc) : Except Failure ServiceResult :=
  if Json.asBool (Json.field response "ok") ≠ some true then
    match Json.asString (Json.field response "error") with
    | none => .error (.service .internal)
    | some raw =>
      match serviceErrorCode.ofValue raw with
      | none => .error .value
      | some code => .error (.service code)
  else if !Json.isString (Json.field response "request_id") k.requestId then .error (.service .invalidRequest)
  else
    match Json.asObject (Json.field response "result") with
    | none => .error (.service .invalidRequest)
    | some value => k.call.readResult b value

def read (k : Rpc) : Option Rpc :=
  match k.point with
  | .greeting =>
    (readFrame lib k.buffer k.eof).map fun (frame,buffer) =>
      match frame with
      | .error f => { k with buffer, point := .finished (.error f) }
      | .ok hello => greeted lib hello { k with buffer }
  | .response =>
    (readFrame lib k.buffer k.eof).map fun (frame,buffer) =>
      match frame with
      | .error f => { k with buffer, point := .finished (.error f) }
      | .ok response => { k with buffer, point := .finished (k.outcome b response) }
  | _ => none

/-- What happens to the call: bytes of the server or their end, and the steps of the client, of which each may fail. -/
inductive Action
  | arrive (bytes : Bytes)
  | finish
  | read
  | drained
  | fault (f : Fault)

def step (k : Rpc) : Action → Option Rpc
  | .arrive bytes => if k.eof then none else some { k with received := k.received ++ bytes, buffer := k.buffer ++ bytes }
  | .finish => some { k with eof := true }
  | .read => k.read lib b
  | .drained => match k.point with | .sending => some { k with point := .response } | _ => none
  | .fault f => match k.point with | .finished _ => none | _ => some { k with point := .finished (.error f.failure) }

end Rpc

/-- A call and the handler of its connection. -/
structure Exchange where
  rpc : Rpc
  conn : Conn

namespace Exchange

variable (server : UnixServiceServer) (b : Builtins)

/-- A step of either side, some more bytes on their way to either side, or the end of what one side has sent: the client
hangs up after its call, and the server after its handler. -/
inductive Action
  | client (a : Rpc.Action)
  | server (a : Conn.Action)
  | toServer (count : ℕ)
  | toClient (count : ℕ)
  | hangUp
  | dropped

def step (x : Exchange) : Action → Option Exchange
  | .client a =>
    match a with
    | .arrive _ | .finish => none
    | a => (x.rpc.step server.lib b a).map fun rpc => { x with rpc }
  | .server a =>
    match a with
    | .arrive _ | .finish => none
    | a => (x.conn.step server a).map fun conn => { x with conn }
  | .toServer count =>
    let sent := x.rpc.output.drop x.conn.received.length
    if 0 < count ∧ count ≤ sent.length then
      (x.conn.step server (.arrive (sent.take count))).map fun conn => { x with conn }
    else none
  | .toClient count =>
    let sent := x.conn.output.drop x.rpc.received.length
    if 0 < count ∧ count ≤ sent.length then
      (x.rpc.step server.lib b (.arrive (sent.take count))).map fun rpc => { x with rpc }
    else none
  | .hangUp =>
    match x.rpc.point with
    | .finished _ => if x.conn.eof then none else (x.conn.step server .finish).map fun conn => { x with conn }
    | _ => none
  | .dropped =>
    if x.conn.point = .finished ∧ x.rpc.received.length = x.conn.output.length ∧ !x.rpc.eof then
      (x.rpc.step server.lib b .finish).map fun rpc => { x with rpc }
    else none

end Exchange

end UnixService
end HarnessSdk
