import HarnessSdk.ServiceWire
import HarnessSdk.Transition
import Mathlib.Logic.Function.Basic

/-!
# The Unix service

Each connection has a handler, which greets its peer with a capability that is bound to the connection, and then reads
one request after the other. All connections share the key of one authority, and a peer sends whatever it likes.
-/

namespace HarnessSdk
namespace UnixService

open Local (beBytes beNat)

/-- What `json.loads` raises: `UnicodeDecodeError` or `JSONDecodeError`, another `ValueError`, or another exception. -/
inductive LoadsFailure
  | notJson | value | other
  deriving DecidableEq, Repr

/-- The library functions behind frames and capabilities: `json.dumps` of a frame, which fails with a `TypeError` or a
`ValueError`, and `json.loads`; the claims of a capability as text and back; and the MAC of a text under the key. -/
structure Library where
  dumps : Json.Object → Option Bytes
  loads : Bytes → Except LoadsFailure Json
  claimsText : Json.Object → String
  readClaims : String → Except LoadsFailure Json
  sign : String → String

/-! Frames. -/

def frameMaxBytes : ℕ := 1024 * 1024

def encodeFrame (lib : Library) (value : Json.Object) : Except Failure Bytes :=
  match lib.dumps value with
  | none => .error (.service .invalidRequest)
  | some payload =>
    if payload.length > frameMaxBytes then .error (.service .payloadTooLarge)
    else .ok (beBytes 4 payload.length ++ payload)

def decodePayload (lib : Library) (payload : Bytes) : Except Failure Json.Object :=
  if payload.length > frameMaxBytes then .error (.service .payloadTooLarge)
  else
    match lib.loads payload with
    | .ok (.obj value) => .ok value
    | .ok _ | .error .notJson => .error (.service .invalidRequest)
    | .error .value => .error .value
    | .error .other => .error .other

/-! Capabilities. -/

structure Principal where
  deploymentId : String
  householdId : String
  actorId : String
  valid : ∀ s ∈ [deploymentId, householdId, actorId], !Text.isBlank s && !s.toList.contains (Char.ofNat 0)
  deriving DecidableEq

def Principal.make (deploymentId householdId actorId : String) : Option Principal :=
  if h : ∀ s ∈ [deploymentId, householdId, actorId], !Text.isBlank s && !s.toList.contains (Char.ofNat 0) then
    some ⟨deploymentId,householdId,actorId,h⟩
  else none

theorem Principal.make_self (p : Principal) : make p.deploymentId p.householdId p.actorId = some p := dif_pos p.valid

structure AuthenticatedContext where
  principal : Principal
  channelBinding : String
  nonce : Json

/-- What the handler of a connection has found out about its peer, and the capability that it has issued. -/
structure Grant where
  uid : ℤ
  principal : Principal
  binding : String
  nonce : String
  issuedMs : ℤ

def ttlMs : ℤ := 300 * 1000

/-- The claims that `issue` signs. -/
def Grant.claims (keyId : String) (g : Grant) : Json.Object :=
  [("v",.int 1), ("kid",.str keyId), ("deployment_id",.str g.principal.deploymentId),
    ("household_id",.str g.principal.householdId), ("actor_id",.str g.principal.actorId), ("binding",.str g.binding),
    ("nonce",.str g.nonce), ("iat_ms",.int g.issuedMs), ("exp_ms",.int (g.issuedMs + ttlMs))]

/-- The token of a capability. -/
def tokenOf (claims mac : String) : String := claims ++ "." ++ mac

def Grant.token (lib : Library) (keyId : String) (g : Grant) : String :=
  tokenOf (lib.claimsText (g.claims keyId)) (lib.sign (lib.claimsText (g.claims keyId)))

/-- `Capability.parse`: the claims and the MAC. -/
def parseCapability (token : String) : Option (String × String) :=
  let claims := token.toList.takeWhile (· ≠ '.')
  match token.toList.dropWhile (· ≠ '.') with
  | [] => none
  | _ :: mac => if claims.isEmpty ∨ mac.length ≠ 64 then none else some (String.ofList claims,String.ofList mac)

/-- `hmac.compare_digest`, which takes ASCII texts only. -/
def compareDigest (a b : String) : Option Bool :=
  if (a.toList ++ b.toList).all fun c => c.toNat < 128 then some (a = b) else none

/-- How a number compares with an integer. `NaN` is neither before nor after it, and what is no number cannot be
compared. -/
def compareInt (n : ℤ) : Json → Option (Option Ordering)
  | .nonfinite .nan => some none
  | .nonfinite (.infinity negative) | .nonfinite (.overflow negative) => some (some (if negative then .lt else .gt))
  | v => (Json.numeric v).map fun q => some (if q < (n : Rat) then .lt else if (n : Rat) < q then .gt else .eq)

/-- What `verify` makes of the claims behind a MAC. All that is missing or of the wrong type is unauthenticated. -/
def checkClaims (keyId : String) (claims : Json) (binding : String) (nowMs : ℤ) : Except Failure AuthenticatedContext :=
  let checked : Option (Except Failure AuthenticatedContext) := do
    let claims ← Json.asObject (some claims)
    if !(Json.equals (Json.field claims "v") (.int 1) && Json.isString (Json.field claims "kid") keyId) then none
    let issued ← (Json.field claims "iat_ms").bind (compareInt nowMs)
    let expires ← (Json.field claims "exp_ms").bind (compareInt nowMs)
    if issued = some .gt ∨ expires = some .lt then none
    let channelBinding ← Json.asString (Json.field claims "binding")
    if ← compareDigest channelBinding binding then do
      let deploymentId ← Json.asString (Json.field claims "deployment_id")
      let householdId ← Json.asString (Json.field claims "household_id")
      let actorId ← Json.asString (Json.field claims "actor_id")
      let principal ← Principal.make deploymentId householdId actorId
      let nonce ← Json.field claims "nonce"
      some (.ok { principal, channelBinding, nonce })
    else some (.error (.service .forbidden))
  checked.getD (.error (.service .unauthenticated))

/-- `ContextAuthority.verify`. -/
def verify (lib : Library) (keyId token binding : String) (nowMs : ℤ) : Except Failure AuthenticatedContext :=
  match parseCapability token with
  | none => .error (.service .unauthenticated)
  | some (claims,mac) =>
    match compareDigest mac (lib.sign claims) with
    | none => .error .value
    | some false => .error (.service .unauthenticated)
    | some true =>
      match lib.readClaims claims with
      | .error .other => .error .other
      | .error _ => .error (.service .unauthenticated)
      | .ok claims => checkClaims keyId claims binding nowMs

/-! The handler of a connection. -/

/-- What the handler writes. -/
inductive Sent
  | hello (binding capability : String)
  | response (requestId : String) (result : Json.Object)
  | error (code : ServiceErrorCode)

def Sent.json : Sent → Json.Object
  | hello binding capability => [("type",.str "hello"), ("binding",.str binding), ("capability",.str capability)]
  | response requestId result => [("ok",.bool true), ("request_id",.str requestId), ("result",.obj result)]
  | error code => [("ok",.bool false), ("error",.str (serviceErrorCode.value code))]

/-- A request that has been verified and read: its token and the time of its verification, the text of its frame, and
the method that is called, which is given a context unless it is `health`. -/
structure Invocation where
  payload : Bytes
  token : String
  nowMs : ℤ
  requestId : String
  call : ServiceCall
  context : Option AuthenticatedContext

/-- Where the handler waits: for its first step, for the write buffer to drain, for the header or the rest of a frame,
for the service, or for the connection to close. -/
inductive Point
  | accepted | greeting | header | body (size : ℕ) | serving (requestId : String) | replying | failing | closing | finished
  deriving DecidableEq

/-- What the first stretch of the handler meets: the answers of the peer's socket and of `principal_for_uid`, the random
texts, and the clock. -/
structure Greeting where
  uid : Except Failure ℤ
  principal : Except Failure Principal
  binding : String
  nonce : String
  nowMs : ℤ

/-- A connection: what has come from the peer and how much of it has not been read, and what has been written. -/
structure Conn where
  point : Point := .accepted
  met : Option Greeting := none
  grant : Option Grant := none
  received : Bytes := []
  buffer : Bytes := []
  eof : Bool := false
  written : List Sent := []
  output : Bytes := []
  invocations : List Invocation := []

/-- The server: its owner and the authority that it shares with all its handlers. -/
structure UnixServiceServer where
  lib : Library
  ownerUid : ℤ
  keyId : String

/-- The error that the handler answers a failure with, if any. -/
def Failure.answer : Failure → Option ServiceErrorCode
  | .service code => some code
  | .timeout => some .timeout
  | .value => some .invalidRequest
  | .other => some .internal
  | .connection | .cancelled => none

namespace Conn

variable (server : UnixServiceServer)

def write (frame : Sent) (next : Point) (c : Conn) : Except Failure Conn :=
  (encodeFrame server.lib frame.json).map fun bytes =>
    { c with written := c.written ++ [frame], output := c.output ++ bytes, point := next }

/-- The `except` branches of `_handle`. -/
def fail (f : Failure) (c : Conn) : Conn :=
  match f.answer with
  | none => { c with point := .closing }
  | some code =>
    match c.write server (.error code) .failing with
    | .ok c => c
    | .error _ => { c with point := .closing }

def send (frame : Sent) (next : Point) (c : Conn) : Conn :=
  match c.write server frame next with
  | .ok c => c
  | .error f => c.fail server f

/-- The head of the loop. -/
def again (c : Conn) : Conn :=
  if c.eof ∧ c.buffer = [] then { c with point := .closing } else { c with point := .header }

def greet (g : Greeting) (c : Conn) : Conn :=
  let c := { c with met := some g }
  match g.uid, g.principal with
  | .error f, _ => c.fail server f
  | .ok uid, principal =>
    if uid ≠ server.ownerUid then c.fail server (.service .forbidden)
    else
      match principal with
      | .error f => c.fail server f
      | .ok principal =>
        let grant : Grant := { uid, principal, binding := g.binding, nonce := g.nonce, issuedMs := g.nowMs }
        send server (.hello g.binding (grant.token server.lib server.keyId)) .greeting { c with grant := some grant }

/-- `_dispatch`, up to the call of the service. -/
def dispatch (request : Json.Object) (payload : Bytes) (token : String) (nowMs : ℤ) (context : AuthenticatedContext)
    (c : Conn) : Conn :=
  match Json.asString (Json.field request "request_id"), Json.asString (Json.field request "op"),
    Json.asObject (Json.field request "payload") with
  | some requestId, some op, some arguments =>
    match ServiceCall.read op arguments with
    | .error f => c.fail server f
    | .ok call =>
      let context := if call = .health then none else some context
      { c with point := .serving requestId
               invocations := c.invocations ++ [{ payload, token, nowMs, requestId, call, context }] }
  | _, _, _ => c.fail server (.service .invalidRequest)

/-- What the handler does with a whole frame. -/
def handle (grant : Grant) (payload : Bytes) (nowMs : ℤ) (c : Conn) : Conn :=
  match decodePayload server.lib payload with
  | .error f => c.fail server f
  | .ok request =>
    match Json.asString (Json.field request "capability") with
    | none => c.fail server (.service .unauthenticated)
    | some token =>
      match verify server.lib server.keyId token grant.binding nowMs with
      | .error f => c.fail server f
      | .ok context =>
        if context.principal ≠ grant.principal then c.fail server (.service .forbidden)
        else c.dispatch server request payload token nowMs context

/-- A read of the stream that has its bytes, or can get no more. -/
def read (nowMs : ℤ) (c : Conn) : Option Conn :=
  match c.point, c.grant with
  | .header, _ =>
    if 4 ≤ c.buffer.length then
      let size := beNat (c.buffer.take 4)
      let c := { c with buffer := c.buffer.drop 4 }
      if size > frameMaxBytes then some (c.fail server (.service .payloadTooLarge))
      else some { c with point := .body size }
    else if c.eof then some (c.fail server .connection) else none
  | .body size, some grant =>
    if size ≤ c.buffer.length then
      some (handle server grant (c.buffer.take size) nowMs { c with buffer := c.buffer.drop size })
    else if c.eof then some (c.fail server .connection) else none
  | _, _ => none

/-- The service is done with the call. -/
def reply (requestId : String) (outcome : Except Failure ServiceResult) (c : Conn) : Conn :=
  match outcome with
  | .error f => c.fail server f
  | .ok result =>
    match resultJson result with
    | .error f => c.fail server f
    | .ok value => c.send server (.response requestId value) .replying

/-- What happens on a connection: bytes of the peer or their end, and the steps of the handler. A wait may be broken
off by a failure of any kind. -/
inductive Action
  | arrive (bytes : Bytes)
  | finish
  | greet (g : Greeting)
  | drained (outcome : Except Failure Unit)
  | read (nowMs : ℤ)
  | interrupt (f : Failure)
  | served (outcome : Except Failure ServiceResult)
  | closed

def step (c : Conn) : Action → Option Conn
  | .arrive bytes => if c.eof then none else some { c with received := c.received ++ bytes, buffer := c.buffer ++ bytes }
  | .finish => some { c with eof := true }
  | .greet g => if c.point = .accepted then some (c.greet server g) else none
  | .drained outcome =>
    match c.point, outcome with
    | .greeting, .ok () | .replying, .ok () => some c.again
    | .greeting, .error f | .replying, .error f => some (c.fail server f)
    | .failing, _ => some { c with point := .closing }
    | _, _ => none
  | .read nowMs => c.read server nowMs
  | .interrupt f =>
    match c.point with
    | .header | .body _ => some (c.fail server f)
    | _ => none
  | .served outcome =>
    match c.point with
    | .serving requestId => some (c.reply server requestId outcome)
    | _ => none
  | .closed => if c.point = .closing then some { c with point := .finished } else none

end Conn

/-! The server and its connections. -/

abbrev Connections := ℕ → Conn

def Connections.step (server : UnixServiceServer) (w : Connections) (a : ℕ × Conn.Action) : Option Connections :=
  ((w a.1).step server a.2).map (Function.update w a.1)

def Connections.Init (w : Connections) : Prop := w = fun _ => {}

end UnixService
end HarnessSdk
