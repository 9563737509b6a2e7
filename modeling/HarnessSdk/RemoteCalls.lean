import HarnessSdk.ServiceClient
import HarnessSdk.ServiceConnections
import HarnessSdk.Inevitability

/-!
# Remote calls

As long as nothing fails on the way, a call of the client comes to one call of the service with the same request, and to
the result or the error that the service answers with, in whatever pieces the bytes arrive.
-/

namespace HarnessSdk
namespace UnixService

open Local (beBytes beNat length_beBytes)
open Transition (Next Steps Inevitable inevitable_of_measure)

/-! Reading a frame. -/

section Reading

variable {lib : Library} {payload buffer : Bytes} {eof : Bool}

theorem length_framed (payload : Bytes) : (framed payload).length = 4 + payload.length := by
  rw [framed,List.length_append,length_beBytes]

theorem framed_size (hsize : payload.length ≤ frameMaxBytes) : beNat (beBytes 4 payload.length) = payload.length := by
  apply Local.beNat_beBytes_of_lt
  unfold frameMaxBytes at hsize
  omega

theorem readFrame_framed (hsize : payload.length ≤ frameMaxBytes) :
    readFrame lib (framed payload) eof = some (decodePayload lib payload,[]) := by
  have hlength := length_framed payload
  have htake : (framed payload).take 4 = beBytes 4 payload.length := List.take_left' (length_beBytes _ _)
  have hdrop : (framed payload).drop 4 = payload := List.drop_left' (length_beBytes _ _)
  have hrest : (framed payload).drop (4 + payload.length) = [] := by
    rw [← hlength,List.drop_length]
  unfold readFrame
  dsimp only
  rw [htake,framed_size hsize,if_neg (by omega),if_neg (by omega),if_neg (by omega),hdrop,hrest,List.take_length]

/-- Nothing comes of a part of a frame. -/
theorem readFrame_short (hsize : payload.length ≤ frameMaxBytes) (hpre : buffer <+: framed payload)
    (hshort : buffer.length < (framed payload).length) : readFrame lib buffer false = none := by
  rw [length_framed] at hshort
  unfold readFrame
  dsimp only
  by_cases hheader : buffer.length < 4
  · rw [if_pos hheader]
    rfl
  · have htake : buffer.take 4 = beBytes 4 payload.length := by
      obtain ⟨rest,hrest⟩ := hpre
      have hfour : (framed payload).take 4 = beBytes 4 payload.length := List.take_left' (length_beBytes _ _)
      rw [← hfour,← hrest,List.take_append_of_le_length (by omega)]
    rw [if_neg hheader,htake,framed_size hsize,if_neg (by omega),if_pos hshort]
    rfl

end Reading

/-! The three frames of a call. -/

/-- The frame that the handler writes for an answer of the service. -/
def replyTo (requestId : String) : Except ServiceErrorCode ServiceResult → Sent
  | .error code => .error code
  | .ok result =>
    match resultJson result with
    | .error _ => .error .internal
    | .ok value => .response requestId value

/-- Frames and claims are read as what was written, and capabilities are texts of a MAC. -/
structure Library.Faithful (lib : Library) : Prop where
  frames : lib.ReadsFrames
  claims : lib.ReadsClaims
  signs : lib.Signs

/-- A call on which nothing fails: the peer is the owner and has a principal, the service answers with a result of the class
that the method returns or with an error, and the three frames can be written. -/
structure Occasion (server : UnixServiceServer) where
  call : ServiceCall
  requestId : String
  greeting : Greeting
  principal : Principal
  answer : Except ServiceErrorCode ServiceResult
  hello : Bytes
  request : Bytes
  reply : Bytes
  uid_owner : greeting.uid = .ok server.ownerUid
  principal_found : greeting.principal = .ok principal
  binding_ascii : ∀ d ∈ greeting.binding.toList, d.toNat < 128
  returns : ∀ result, answer = .ok result → call.Returns result
  hello_text : server.lib.dumps ((greeting.grant server principal).hello server).json = some hello
  request_text : server.lib.dumps (call.frame requestId ((greeting.grant server principal).token server.lib server.keyId)) =
    some request
  reply_text : server.lib.dumps (replyTo requestId answer).json = some reply
  hello_size : hello.length ≤ frameMaxBytes
  request_size : request.length ≤ frameMaxBytes
  reply_size : reply.length ≤ frameMaxBytes

section Frames

variable {server : UnixServiceServer} {lib : Library} {payload : Bytes} {c : Conn} {k : Rpc} {b : Builtins}

theorem decode_frame {frame : Json.Object} (hreads : lib.ReadsFrames) (hdistinct : distinctNames (.obj frame))
    (hintegral : JsonText.integral (.obj frame)) (htext : lib.dumps frame = some payload)
    (hsize : payload.length ≤ frameMaxBytes) :
    ∃ members, decodePayload lib payload = .ok members ∧ SameFields frame members := by
  obtain ⟨value,hload,hsame⟩ := hreads frame payload hdistinct hintegral htext
  obtain ⟨members,rfl,hfields⟩ := sameFields_of_same hdistinct hsame
  refine ⟨members,?_,hfields⟩
  unfold decodePayload
  rw [if_neg (not_lt.mpr hsize),hload]

theorem hello_distinct (grant : Grant) : distinctNames (.obj (grant.hello server).json) := by
  simp [distinctNames,distinctMembers,Grant.hello,Sent.json]

theorem hello_integral (grant : Grant) : JsonText.integral (.obj (grant.hello server).json) := by
  simp [JsonText.integral,JsonText.integralMembers,Grant.hello,Sent.json]

theorem reply_distinct (requestId : String) (answer : Except ServiceErrorCode ServiceResult) :
    distinctNames (.obj (replyTo requestId answer).json) := by
  unfold replyTo
  cases answer with
  | error code => simp [distinctNames,distinctMembers,Sent.json]
  | ok result =>
    dsimp only
    cases hjson : resultJson result with
    | error f => simp [distinctNames,distinctMembers,Sent.json]
    | ok value =>
      have hvalue := resultJson_distinct hjson
      simpa [distinctNames,distinctMembers,Sent.json] using hvalue

theorem reply_integral (requestId : String) (answer : Except ServiceErrorCode ServiceResult) :
    JsonText.integral (.obj (replyTo requestId answer).json) := by
  unfold replyTo
  cases answer with
  | error code => simp [JsonText.integral,JsonText.integralMembers,Sent.json]
  | ok result =>
    dsimp only
    cases hjson : resultJson result with
    | error f => simp [JsonText.integral,JsonText.integralMembers,Sent.json]
    | ok value =>
      have hvalue := resultJson_integral hjson
      simpa [JsonText.integral,JsonText.integralMembers,Sent.json] using hvalue

/-- The client takes the greeting and sends its request with the capability in it. -/
theorem greeted_ok {grant : Grant} {members : Json.Object} {bytes : Bytes} (hfields : SameFields (grant.hello server).json members)
    (hrequest : encodeFrame lib (k.call.frame k.requestId (grant.token server.lib server.keyId)) = .ok bytes) :
    k.greeted lib members = { k with output := k.output ++ bytes, point := .sending } := by
  have htoken := hfields.str (k := "capability") (s := grant.token server.lib server.keyId) rfl
  have htype := hfields.str (k := "type") (s := "hello") rfl
  have hhello : Json.isString (Json.field members "type") "hello" = true := by
    rw [htype]
    rfl
  unfold Rpc.greeted
  rw [htoken]
  dsimp only [Json.asString]
  rw [hhello,hrequest]
  rfl

theorem not_returns_other (call : ServiceCall) : ¬ call.Returns .other := by cases call <;> exact id

/-- The client makes the answer of the service of the reply. -/
theorem outcome_reply {answer : Except ServiceErrorCode ServiceResult} {members : Json.Object}
    (hreturns : ∀ result, answer = .ok result → k.call.Returns result)
    (hfields : SameFields (replyTo k.requestId answer).json members) : k.outcome b members = answer.mapError .service := by
  cases answer with
  | error code =>
    have hok := hfields.bool (k := "ok") (b := false) rfl
    have herror := hfields.str (k := "error") (s := serviceErrorCode.value code) rfl
    unfold Rpc.outcome
    rw [hok,herror]
    simp [Json.asBool,Json.asString,serviceErrorCode.ofValue_value,Except.mapError]
  | ok result =>
    have hresult := hreturns result rfl
    unfold replyTo at hfields
    dsimp only at hfields
    cases hjson : resultJson result with
    | error f =>
      cases result with
      | other => exact absurd hresult (not_returns_other k.call)
      | health | receipt | snapshot => cases hjson
    | ok value =>
      rw [hjson] at hfields
      have hok := hfields.bool (k := "ok") (b := true) rfl
      have hid := hfields.str (k := "request_id") (s := k.requestId) rfl
      obtain ⟨value',hvalue,hsame⟩ := hfields.obj (k := "result") rfl (resultJson_distinct hjson)
      unfold Rpc.outcome
      rw [hok,hid,hvalue]
      simp [Json.asBool,Json.asObject,Json.isString,Json.asString,ServiceCall.readResult_json b hresult hjson hsame,
        Except.mapError]

/-- The handler writes the reply and waits for the buffer to drain. -/
theorem reply_ok {requestId : String} {answer : Except ServiceErrorCode ServiceResult} {bytes : Bytes}
    (h : encodeFrame server.lib (replyTo requestId answer).json = .ok bytes) :
    ∃ point, (point = .replying ∨ point = .failing) ∧ c.reply server requestId (answer.mapError .service) =
      { c with written := c.written ++ [replyTo requestId answer], output := c.output ++ bytes, point } := by
  have hfail : ∀ code, replyTo requestId answer = .error code → c.fail server (.service code) =
      { c with written := c.written ++ [replyTo requestId answer], output := c.output ++ bytes, point := .failing } := by
    intro code hcode
    rw [hcode] at h ⊢
    unfold Conn.fail Conn.write
    simp only [Failure.answer,h]
    rfl
  cases answer with
  | error code => exact ⟨.failing,.inr rfl,hfail code rfl⟩
  | ok result =>
    cases hjson : resultJson result with
    | error f =>
      cases result with
      | other =>
        obtain rfl := Except.error.inj hjson
        exact ⟨.failing,.inr rfl,hfail _ rfl⟩
      | health | receipt | snapshot => exact nomatch hjson
    | ok value =>
      have hreply : replyTo requestId (.ok result) = .response requestId value := by
        unfold replyTo
        dsimp only
        rw [hjson]
      rw [hreply] at h ⊢
      refine ⟨.replying,.inl rfl,?_⟩
      unfold Conn.reply
      simp only [Except.mapError,hjson]
      exact send_ok h

end Frames

/-! The stages of a call. -/

namespace Occasion

variable {server : UnixServiceServer} (o : Occasion server)

def grant : Grant := o.greeting.grant server o.principal

/-- What the client is to return or to raise. -/
def expected : Except Failure ServiceResult := o.answer.mapError .service

def start : Exchange where
  rpc := { call := o.call, requestId := o.requestId }
  conn := {}

/-- No wait fails or lasts until the capability has expired, and the service gives its answer. -/
def Calm (_ : Exchange) : Exchange.Action → Prop
  | .server (.greet g) => g = o.greeting
  | .server (.drained outcome) => outcome = .ok ()
  | .server (.read nowMs) => o.greeting.nowMs ≤ nowMs ∧ nowMs ≤ o.greeting.nowMs + ttlMs
  | .server (.interrupt _) => False
  | .server (.served outcome) => outcome = o.expected
  | .client (.fault _) => False
  | _ => True

/-- The service has been called once, with the request of the client. -/
def Called (c : Conn) : Prop := ∃ inv : Invocation, inv.call = o.call ∧ c.invocations = [inv]

def Done (x : Exchange) : Prop := x.rpc.point = .finished o.expected ∧ o.Called x.conn

/-- How far the handler has come. -/
inductive Serves (c : Conn) : Prop
  | fresh (point : c.point = .accepted) (output : c.output = []) (invocations : c.invocations = [])
    (buffer : c.buffer = c.received) (eof : c.eof = false)
  | ready (point : c.point = .greeting ∨ c.point = .header) (grant : c.grant = some o.grant) (output : c.output = framed o.hello)
    (invocations : c.invocations = []) (buffer : c.buffer = c.received) (eof : c.eof = false)
  | reading (point : c.point = .body o.request.length) (grant : c.grant = some o.grant) (output : c.output = framed o.hello)
    (invocations : c.invocations = []) (received : c.received = beBytes 4 o.request.length ++ c.buffer) (eof : c.eof = false)
  | serving (point : c.point = .serving o.requestId) (output : c.output = framed o.hello) (called : o.Called c)
    (received : c.received = framed o.request) (buffer : c.buffer = []) (eof : c.eof = false)
  | replied (point : c.point = .replying ∨ c.point = .header ∨ c.point.ended)
    (output : c.output = framed o.hello ++ framed o.reply) (called : o.Called c)
    (received : c.received = framed o.request) (buffer : c.buffer = [])

/-- How far the client has come. -/
inductive Asks (k : Rpc) : Prop
  | waiting (point : k.point = .greeting) (output : k.output = []) (buffer : k.buffer = k.received) (eof : k.eof = false)
  | asked (point : k.point = .sending ∨ k.point = .response) (output : k.output = framed o.request)
    (received : k.received = framed o.hello ++ k.buffer) (eof : k.eof → k.buffer = framed o.reply)
  | answered (point : k.point = .finished o.expected) (output : k.output = framed o.request)

/-- What holds all along. -/
structure Going (x : Exchange) : Prop where
  call : x.rpc.call = o.call ∧ x.rpc.requestId = o.requestId
  rpc : o.Asks x.rpc
  conn : o.Serves x.conn
  sent : x.conn.received <+: x.rpc.output
  delivered : x.rpc.received <+: x.conn.output
  ended : ∀ outcome, x.rpc.point = .finished outcome → x.conn.output = framed o.hello ++ framed o.reply

/-- How much there is left to do on the side of the server. -/
def connRank (c : Conn) : ℕ :=
  match c.point with
  | .accepted => 9
  | .greeting => 8
  | .header => if c.invocations.isEmpty then 7 else 3
  | .body _ => 6
  | .serving _ => 5
  | .replying | .failing => 4
  | .closing => 2
  | .finished => 1

def rpcRank (k : Rpc) : ℕ :=
  (match k.point with | .greeting => 3 | .sending => 2 | .response => 1 | .finished _ => 0) + if k.eof then 0 else 1

/-- What is left to do, and how many bytes are still to arrive. -/
def left (x : Exchange) : ℕ :=
  connRank x.conn + rpcRank x.rpc + ((framed o.request).length - x.conn.received.length) +
    ((framed o.hello ++ framed o.reply).length - x.rpc.received.length)

/-! The handler. -/

theorem Called.ne_nil {c : Conn} (h : o.Called c) : c.invocations.isEmpty = false := by
  obtain ⟨inv,_,hinvocations⟩ := h
  rw [hinvocations]
  rfl

theorem framed_ne_nil (payload : Bytes) : framed payload ≠ [] := by
  intro hnil
  have hlength := length_framed payload
  rw [hnil,List.length_nil] at hlength
  omega

theorem hello_frame : encodeFrame server.lib (o.grant.hello server).json = .ok (framed o.hello) :=
  encodeFrame_ok o.hello_text o.hello_size

theorem request_frame : encodeFrame server.lib (o.call.frame o.requestId (o.grant.token server.lib server.keyId)) =
    .ok (framed o.request) := encodeFrame_ok o.request_text o.request_size

theorem reply_frame : encodeFrame server.lib (replyTo o.requestId o.answer).json = .ok (framed o.reply) :=
  encodeFrame_ok o.reply_text o.reply_size

variable {o} {c c' : Conn}

/-- What a step of the handler comes to. -/
structure Advances (o : Occasion server) (c c' : Conn) : Prop where
  serves : o.Serves c'
  lower : connRank c' < connRank c
  received : c'.received = c.received
  output : c.output <+: c'.output

theorem fresh_step {a : Conn.Action} (ha : (∀ bytes, a ≠ .arrive bytes) ∧ a ≠ .finish)
    (hcalm : ∀ g, a = .greet g → g = o.greeting) (hpoint : c.point = .accepted) (houtput : c.output = [])
    (hinvocations : c.invocations = []) (hbuffer : c.buffer = c.received) (heof : c.eof = false)
    (hstep : c.step server a = some c') : o.Advances c c' := by
  have hrank : connRank c = 9 := by
    unfold connRank
    rw [hpoint]
  cases a with
  | greet g =>
    obtain rfl := hcalm g rfl
    simp only [Conn.step,hpoint,if_true] at hstep
    rw [greet_ok o.uid_owner o.principal_found o.hello_frame] at hstep
    obtain rfl := Option.some.inj hstep
    refine ⟨.ready (.inl rfl) rfl ?_ hinvocations hbuffer heof,?_,rfl,?_⟩
    · show c.output ++ _ = _
      rw [houtput,List.nil_append]
    · rw [hrank]
      show 8 < 9
      omega
    · exact List.prefix_append _ _
  | arrive bytes => exact absurd rfl (ha.1 bytes)
  | finish => exact absurd rfl ha.2
  | drained | read | interrupt | served | closed =>
    simp [Conn.step,Conn.read,hpoint] at hstep

/-- The peer of the occasion has the capability of its connection, and it is accepted. -/
theorem verified (hlib : server.lib.Faithful) {nowMs : ℤ} (hafter : o.greeting.nowMs ≤ nowMs)
    (hbefore : nowMs ≤ o.greeting.nowMs + ttlMs) :
    ∃ context, verify server.lib server.keyId (o.grant.token server.lib server.keyId) o.grant.binding nowMs = .ok context ∧
      context.principal = o.grant.principal :=
  Grant.verified hlib.claims hlib.signs o.binding_ascii hafter hbefore

theorem ready_step {a : Conn.Action} (ha : (∀ bytes, a ≠ .arrive bytes) ∧ a ≠ .finish)
    (hcalm : ∀ outcome, a = .drained outcome → outcome = .ok ()) (hinterrupt : ∀ f, a ≠ .interrupt f)
    (hpoint : c.point = .greeting ∨ c.point = .header)
    (hgrant : c.grant = some o.grant) (houtput : c.output = framed o.hello) (hinvocations : c.invocations = [])
    (hbuffer : c.buffer = c.received) (heof : c.eof = false) (hpre : c.received <+: framed o.request)
    (hstep : c.step server a = some c') : o.Advances c c' := by
  have hheader : connRank { c with point := .header } = 7 := by
    unfold connRank
    rw [hinvocations]
    rfl
  rcases hpoint with hpoint | hpoint
  · have hrank : connRank c = 8 := by
      unfold connRank
      rw [hpoint]
    cases a with
    | drained outcome =>
      obtain rfl := hcalm outcome rfl
      simp only [Conn.step,hpoint] at hstep
      have hagain : c.again = { c with point := .header } := by
        unfold Conn.again
        rw [if_neg]
        rw [heof]
        simp
      rw [hagain] at hstep
      obtain rfl := Option.some.inj hstep
      refine ⟨.ready (.inr rfl) hgrant houtput hinvocations hbuffer heof,?_,rfl,List.prefix_refl _⟩
      rw [hheader,hrank]
      omega
    | arrive bytes => exact absurd rfl (ha.1 bytes)
    | finish => exact absurd rfl ha.2
    | greet | read | interrupt | served | closed =>
      simp [Conn.step,Conn.read,hpoint] at hstep
  · have hrank : connRank c = 7 := by
      unfold connRank
      rw [hpoint,hinvocations]
      rfl
    cases a with
    | read nowMs =>
      by_cases hlength : 4 ≤ c.buffer.length
      · have hsplit : c.buffer = beBytes 4 o.request.length ++ c.buffer.drop 4 := by
          have htake : c.buffer.take 4 = beBytes 4 o.request.length := by
            obtain ⟨rest,hrest⟩ := hpre
            have hfour : (framed o.request).take 4 = beBytes 4 o.request.length := List.take_left' (length_beBytes _ _)
            rw [← hfour,← hrest,hbuffer,List.take_append_of_le_length (hbuffer ▸ hlength)]
          rw [← htake,List.take_append_drop]
        have hread : c.read server nowMs = some { c with buffer := c.buffer.drop 4, point := .body o.request.length } :=
          read_header_ok hpoint hsplit o.request_size
        obtain rfl := Option.some.inj (hread.symm.trans hstep)
        refine ⟨.reading rfl hgrant houtput hinvocations (hbuffer ▸ hsplit) heof,?_,rfl,List.prefix_refl _⟩
        rw [hrank]
        show 6 < 7
        omega
      · simp [Conn.step,Conn.read,hpoint,if_neg hlength,heof] at hstep
    | interrupt f => exact absurd rfl (hinterrupt f)
    | arrive bytes => exact absurd rfl (ha.1 bytes)
    | finish => exact absurd rfl ha.2
    | greet | drained | served | closed => simp [Conn.step,hpoint] at hstep

theorem reading_step (hlib : server.lib.Faithful) {a : Conn.Action} (ha : (∀ bytes, a ≠ .arrive bytes) ∧ a ≠ .finish)
    (hcalm : ∀ nowMs, a = .read nowMs → o.greeting.nowMs ≤ nowMs ∧ nowMs ≤ o.greeting.nowMs + ttlMs)
    (hinterrupt : ∀ f, a ≠ .interrupt f) (hpoint : c.point = .body o.request.length)
    (hgrant : c.grant = some o.grant) (houtput : c.output = framed o.hello) (hinvocations : c.invocations = [])
    (hreceived : c.received = beBytes 4 o.request.length ++ c.buffer) (heof : c.eof = false)
    (hpre : c.received <+: framed o.request) (hstep : c.step server a = some c') : o.Advances c c' := by
  have hrank : connRank c = 6 := by
    unfold connRank
    rw [hpoint]
  cases a with
  | read nowMs =>
    obtain ⟨hafter,hbefore⟩ := hcalm nowMs rfl
    have hbuffer : c.buffer <+: o.request := by
      rw [hreceived] at hpre
      exact (List.prefix_append_right_inj _).mp hpre
    by_cases hlength : o.request.length ≤ c.buffer.length
    · have hwhole : c.buffer = o.request := hbuffer.eq_of_length (le_antisymm hbuffer.length_le hlength)
      obtain ⟨value,hload,hsame⟩ := hlib.frames _ _ (ServiceCall.frame_distinct _ _ _) (ServiceCall.frame_integral _ _ _)
        o.request_text
      obtain ⟨inv,hcall,hhandle⟩ := handle_frame (c := { c with buffer := [] }) o.request_size hload hsame
        (verified hlib hafter hbefore)
      have hread : c.read server nowMs = some ({ c with buffer := [] }.handle server o.grant o.request nowMs) :=
        read_body_ok hpoint hgrant (by rw [hwhole,List.append_nil])
      obtain rfl := Option.some.inj ((hread.trans (congrArg some hhandle)).symm.trans hstep)
      refine ⟨.serving rfl houtput ⟨inv,hcall,?_⟩ ?_ rfl heof,?_,rfl,List.prefix_refl _⟩
      · show c.invocations ++ [inv] = _
        rw [hinvocations,List.nil_append]
      · show c.received = _
        rw [hreceived,hwhole]
        rfl
      · rw [hrank]
        show 5 < 6
        omega
    · simp [Conn.step,Conn.read,hpoint,hgrant,if_neg hlength,heof] at hstep
  | interrupt f => exact absurd rfl (hinterrupt f)
  | arrive bytes => exact absurd rfl (ha.1 bytes)
  | finish => exact absurd rfl ha.2
  | greet | drained | served | closed => simp [Conn.step,hpoint] at hstep

theorem serving_step {a : Conn.Action} (ha : (∀ bytes, a ≠ .arrive bytes) ∧ a ≠ .finish)
    (hcalm : ∀ outcome, a = .served outcome → outcome = o.expected) (hpoint : c.point = .serving o.requestId)
    (houtput : c.output = framed o.hello) (hcalled : o.Called c) (hreceived : c.received = framed o.request)
    (hbuffer : c.buffer = []) (hstep : c.step server a = some c') : o.Advances c c' := by
  have hrank : connRank c = 5 := by
    unfold connRank
    rw [hpoint]
  cases a with
  | served outcome =>
    obtain rfl := hcalm outcome rfl
    simp only [Conn.step,hpoint] at hstep
    obtain ⟨point,hnext,hreply⟩ := reply_ok (c := c) o.reply_frame
    rw [Occasion.expected,hreply] at hstep
    obtain rfl := Option.some.inj hstep
    have hpoint' : point = .replying ∨ point = .header ∨ point.ended := by
      rcases hnext with rfl | rfl
      · exact .inl rfl
      · exact .inr (.inr rfl)
    refine ⟨.replied hpoint' ?_ hcalled hreceived hbuffer,?_,rfl,List.prefix_append _ _⟩
    · show c.output ++ _ = _
      rw [houtput]
    · rw [hrank]
      rcases hnext with rfl | rfl
      · show 4 < 5
        omega
      · show 4 < 5
        omega
  | arrive bytes => exact absurd rfl (ha.1 bytes)
  | finish => exact absurd rfl ha.2
  | greet | drained | read | interrupt | closed => simp [Conn.step,Conn.read,hpoint] at hstep

theorem replied_step {a : Conn.Action} (ha : (∀ bytes, a ≠ .arrive bytes) ∧ a ≠ .finish)
    (hcalm : ∀ outcome, a = .drained outcome → outcome = .ok ()) (hinterrupt : ∀ f, a ≠ .interrupt f)
    (hpoint : c.point = .replying ∨ c.point = .header ∨ c.point.ended)
    (houtput : c.output = framed o.hello ++ framed o.reply) (hcalled : o.Called c) (hreceived : c.received = framed o.request)
    (hbuffer : c.buffer = []) (hstep : c.step server a = some c') : o.Advances c c' := by
  have hmoved : ∀ point, point = .header ∨ point.ended → connRank { c with point } < connRank c →
      o.Advances c { c with point } := by
    intro point hended hlower
    exact ⟨.replied (.inr hended) houtput hcalled hreceived hbuffer,hlower,rfl,List.prefix_refl _⟩
  have hheader : connRank { c with point := .header } = 3 := by
    unfold connRank
    dsimp only
    rw [hcalled.ne_nil]
    rfl
  obtain ⟨point,met,grant,received,buffer,eof,written,output,invocations⟩ := c
  obtain rfl : buffer = [] := hbuffer
  cases a with
  | arrive bytes => exact absurd rfl (ha.1 bytes)
  | finish => exact absurd rfl ha.2
  | interrupt f => exact absurd rfl (hinterrupt f)
  | drained outcome =>
    obtain rfl := hcalm outcome rfl
    cases point with
    | replying =>
      obtain rfl := Option.some.inj hstep
      unfold Conn.again
      split
      · exact hmoved .closing (.inr rfl) (show 2 < 4 by omega)
      · apply hmoved .header (.inl rfl)
        rw [hheader]
        show 3 < 4
        omega
    | failing =>
      obtain rfl := Option.some.inj hstep
      exact hmoved .closing (.inr rfl) (show 2 < 4 by omega)
    | greeting => simp [Point.ended] at hpoint
    | accepted | header | body | serving | closing | finished => exact nomatch hstep
  | read nowMs =>
    cases point with
    | header =>
      cases eof with
      | false => exact nomatch hstep
      | true =>
        obtain rfl := Option.some.inj hstep
        apply hmoved .closing (.inr rfl)
        rw [hheader]
        show 2 < 3
        omega
    | body => simp [Point.ended] at hpoint
    | accepted | greeting | serving | replying | failing | closing | finished => exact nomatch hstep
  | closed =>
    cases point with
    | closing =>
      obtain rfl := Option.some.inj hstep
      exact hmoved .finished (.inr rfl) (show 1 < 2 by omega)
    | accepted | greeting | header | body | serving | replying | failing | finished => exact nomatch hstep
  | greet g =>
    cases point with
    | accepted => simp [Point.ended] at hpoint
    | greeting | header | body | serving | replying | failing | closing | finished => exact nomatch hstep
  | served outcome =>
    cases point with
    | serving => simp [Point.ended] at hpoint
    | accepted | greeting | header | body | replying | failing | closing | finished => exact nomatch hstep

theorem serves_step (hlib : server.lib.Faithful) {x : Exchange} {a : Conn.Action} (h : o.Serves c)
    (hpre : c.received <+: framed o.request) (ha : (∀ bytes, a ≠ .arrive bytes) ∧ a ≠ .finish)
    (hcalm : o.Calm x (.server a)) (hstep : c.step server a = some c') : o.Advances c c' := by
  have hinterrupt : ∀ f, a ≠ .interrupt f := by
    rintro f rfl
    exact hcalm
  have hdrained : ∀ outcome, a = .drained outcome → outcome = .ok () := by
    rintro outcome rfl
    exact hcalm
  cases h with
  | fresh hpoint houtput hinvocations hbuffer heof =>
    apply fresh_step ha ?_ hpoint houtput hinvocations hbuffer heof hstep
    rintro g rfl
    exact hcalm
  | ready hpoint hgrant houtput hinvocations hbuffer heof =>
    exact ready_step ha hdrained hinterrupt hpoint hgrant houtput hinvocations hbuffer heof hpre hstep
  | reading hpoint hgrant houtput hinvocations hreceived heof =>
    apply reading_step hlib ha ?_ hinterrupt hpoint hgrant houtput hinvocations hreceived heof hpre hstep
    rintro nowMs rfl
    exact hcalm
  | serving hpoint houtput hcalled hreceived hbuffer heof =>
    apply serving_step ha ?_ hpoint houtput hcalled hreceived hbuffer hstep
    rintro outcome rfl
    exact hcalm
  | replied hpoint houtput hcalled hreceived hbuffer =>
    exact replied_step ha hdrained hinterrupt hpoint houtput hcalled hreceived hbuffer hstep

/-- What the handler has written is no more than the greeting and the reply. -/
theorem Serves.output_prefix (h : o.Serves c) : c.output <+: framed o.hello ++ framed o.reply := by
  cases h with
  | fresh _ houtput =>
    rw [houtput]
    exact List.nil_prefix
  | ready _ _ houtput | reading _ _ houtput | serving _ houtput =>
    rw [houtput]
    exact List.prefix_append _ _
  | replied _ houtput => rw [houtput]

/-- All of it is written after the call. -/
theorem Serves.replied_of_output (h : o.Serves c) (houtput : c.output = framed o.hello ++ framed o.reply) :
    (c.point = .replying ∨ c.point = .header ∨ c.point.ended) ∧ o.Called c ∧ c.received = framed o.request ∧ c.buffer = [] := by
  have hreply := framed_ne_nil o.reply
  cases h with
  | fresh _ hnil =>
    rw [hnil] at houtput
    exact absurd (List.append_eq_nil_iff.mp houtput.symm).2 hreply
  | ready _ _ hhello | reading _ _ hhello | serving _ hhello =>
    rw [hhello] at houtput
    exact absurd (List.self_eq_append_right.mp houtput) hreply
  | replied hpoint _ hcalled hreceived hbuffer => exact ⟨hpoint,hcalled,hreceived,hbuffer⟩

theorem Serves.arrived (h : o.Serves c) {bytes : Bytes} (hpre : c.received ++ bytes <+: framed o.request) :
    o.Serves { c with received := c.received ++ bytes, buffer := c.buffer ++ bytes } := by
  have hnone : c.received = framed o.request → bytes = [] := by
    intro hwhole
    have hlength := hpre.length_le
    rw [hwhole,List.length_append] at hlength
    apply List.eq_nil_of_length_eq_zero
    omega
  cases h with
  | fresh hpoint houtput hinvocations hbuffer heof =>
    refine .fresh hpoint houtput hinvocations ?_ heof
    show c.buffer ++ bytes = c.received ++ bytes
    rw [hbuffer]
  | ready hpoint hgrant houtput hinvocations hbuffer heof =>
    refine .ready hpoint hgrant houtput hinvocations ?_ heof
    show c.buffer ++ bytes = c.received ++ bytes
    rw [hbuffer]
  | reading hpoint hgrant houtput hinvocations hreceived heof =>
    refine .reading hpoint hgrant houtput hinvocations ?_ heof
    show c.received ++ bytes = _ ++ (c.buffer ++ bytes)
    rw [hreceived,List.append_assoc]
  | serving hpoint houtput hcalled hreceived hbuffer heof =>
    obtain rfl := hnone hreceived
    exact .serving hpoint houtput hcalled ((List.append_nil _).trans hreceived) ((List.append_nil _).trans hbuffer) heof
  | replied hpoint houtput hcalled hreceived hbuffer =>
    obtain rfl := hnone hreceived
    exact .replied hpoint houtput hcalled ((List.append_nil _).trans hreceived) ((List.append_nil _).trans hbuffer)

/-! The client. -/

variable {k k' : Rpc} {b : Builtins}

/-- What a step of the client comes to. -/
structure Follows (o : Occasion server) (k k' : Rpc) : Prop where
  call : k'.call = k.call ∧ k'.requestId = k.requestId
  asks : o.Asks k'
  lower : rpcRank k' < rpcRank k
  received : k'.received = k.received
  output : k.output <+: k'.output
  ended : ∀ outcome, k'.point = .finished outcome → k.received = framed o.hello ++ framed o.reply

theorem waiting_step (hlib : server.lib.Faithful) {a : Rpc.Action} (ha : (∀ bytes, a ≠ .arrive bytes) ∧ a ≠ .finish)
    (hfault : ∀ f, a ≠ .fault f) (hcall : k.call = o.call ∧ k.requestId = o.requestId) (hpoint : k.point = .greeting)
    (houtput : k.output = []) (hbuffer : k.buffer = k.received) (heof : k.eof = false)
    (hpre : k.received <+: framed o.hello) (hstep : k.step server.lib b a = some k') : o.Follows k k' := by
  cases a with
  | arrive bytes => exact absurd rfl (ha.1 bytes)
  | finish => exact absurd rfl ha.2
  | fault f => exact absurd rfl (hfault f)
  | drained => simp [Rpc.step,hpoint] at hstep
  | read =>
    simp only [Rpc.step,Rpc.read,hpoint] at hstep
    by_cases hlength : k.received.length < (framed o.hello).length
    · have hnone : readFrame server.lib k.buffer k.eof = none := by
        rw [hbuffer,heof]
        exact readFrame_short o.hello_size hpre hlength
      rw [hnone] at hstep
      exact nomatch hstep
    · have hwhole : k.received = framed o.hello := hpre.eq_of_length_le (not_lt.mp hlength)
      obtain ⟨members,hdecode,hfields⟩ := decode_frame hlib.frames (hello_distinct _) (hello_integral _) o.hello_text o.hello_size
      have hsome : readFrame server.lib k.buffer k.eof = some (.ok members,[]) := by
        rw [hbuffer,hwhole,readFrame_framed o.hello_size,hdecode]
      rw [hsome] at hstep
      have hframe : encodeFrame server.lib (k.call.frame k.requestId (o.grant.token server.lib server.keyId)) =
          .ok (framed o.request) := by
        rw [hcall.1,hcall.2]
        exact o.request_frame
      have hgreeted := greeted_ok (k := { k with buffer := [], point := .greeting }) hfields hframe
      obtain rfl := Option.some.inj ((congrArg some hgreeted).symm.trans hstep)
      refine ⟨⟨rfl,rfl⟩,.asked (.inl rfl) ?_ ?_ ?_,?_,rfl,List.prefix_append _ _,fun outcome hover => nomatch hover⟩
      · show k.output ++ _ = _
        rw [houtput,List.nil_append]
      · show k.received = _ ++ []
        rw [hwhole,List.append_nil]
      · intro hend
        rw [show k.eof = true from hend] at heof
        exact nomatch heof
      · unfold rpcRank
        rw [hpoint]
        dsimp only
        omega

theorem asked_step (hlib : server.lib.Faithful) {a : Rpc.Action} (ha : (∀ bytes, a ≠ .arrive bytes) ∧ a ≠ .finish)
    (hfault : ∀ f, a ≠ .fault f) (hcall : k.call = o.call ∧ k.requestId = o.requestId)
    (hpoint : k.point = .sending ∨ k.point = .response) (houtput : k.output = framed o.request)
    (hreceived : k.received = framed o.hello ++ k.buffer) (heof : k.eof → k.buffer = framed o.reply)
    (hpre : k.received <+: framed o.hello ++ framed o.reply) (hstep : k.step server.lib b a = some k') : o.Follows k k' := by
  cases a with
  | arrive bytes => exact absurd rfl (ha.1 bytes)
  | finish => exact absurd rfl ha.2
  | fault f => exact absurd rfl (hfault f)
  | drained =>
    rcases hpoint with hpoint | hpoint
    · simp only [Rpc.step,hpoint] at hstep
      obtain rfl := Option.some.inj hstep
      refine ⟨⟨rfl,rfl⟩,.asked (.inr rfl) houtput hreceived heof,?_,rfl,List.prefix_refl _,fun outcome hover => nomatch hover⟩
      unfold rpcRank
      rw [hpoint]
      dsimp only
      omega
    · simp [Rpc.step,hpoint] at hstep
  | read =>
    rcases hpoint with hpoint | hpoint
    · simp [Rpc.step,Rpc.read,hpoint] at hstep
    · have hbuffer : k.buffer <+: framed o.reply := by
        rw [hreceived] at hpre
        exact (List.prefix_append_right_inj _).mp hpre
      simp only [Rpc.step,Rpc.read,hpoint] at hstep
      by_cases hlength : k.buffer.length < (framed o.reply).length
      · have hopen : k.eof = false := by
          cases hend : k.eof with
          | false => rfl
          | true =>
            rw [heof hend] at hlength
            omega
        rw [hopen,readFrame_short o.reply_size hbuffer hlength] at hstep
        exact nomatch hstep
      · have hwhole : k.buffer = framed o.reply := hbuffer.eq_of_length_le (not_lt.mp hlength)
        obtain ⟨members,hdecode,hfields⟩ := decode_frame hlib.frames (reply_distinct _ _) (reply_integral _ _) o.reply_text
          o.reply_size
        have hreturns : ∀ result, o.answer = .ok result → k.call.Returns result := by
          rw [hcall.1]
          exact o.returns
        have houtcome : k.outcome b members = o.expected := by
          apply outcome_reply hreturns
          rw [hcall.2]
          exact hfields
        rw [hwhole,readFrame_framed o.reply_size,hdecode] at hstep
        simp only [Option.map_some,houtcome] at hstep
        obtain rfl := Option.some.inj hstep
        refine ⟨⟨rfl,rfl⟩,.answered rfl houtput,?_,rfl,List.prefix_refl _,fun _ _ => ?_⟩
        · unfold rpcRank
          rw [hpoint]
          dsimp only
          omega
        · rw [hreceived,hwhole]

theorem asks_step (hlib : server.lib.Faithful) {x : Exchange} {a : Rpc.Action} (h : o.Asks k)
    (hcall : k.call = o.call ∧ k.requestId = o.requestId) (hwaiting : k.output = [] → k.received <+: framed o.hello)
    (hpre : k.received <+: framed o.hello ++ framed o.reply) (ha : (∀ bytes, a ≠ .arrive bytes) ∧ a ≠ .finish)
    (hcalm : o.Calm x (.client a)) (hstep : k.step server.lib b a = some k') : o.Follows k k' := by
  have hfault : ∀ f, a ≠ .fault f := by
    rintro f rfl
    exact hcalm
  cases h with
  | waiting hpoint houtput hbuffer heof =>
    exact waiting_step hlib ha hfault hcall hpoint houtput hbuffer heof (hwaiting houtput) hstep
  | asked hpoint houtput hreceived heof =>
    exact asked_step hlib ha hfault hcall hpoint houtput hreceived heof hpre hstep
  | answered hpoint houtput =>
    cases a with
    | arrive bytes => exact absurd rfl (ha.1 bytes)
    | finish => exact absurd rfl ha.2
    | read | drained | fault => simp [Rpc.step,Rpc.read,hpoint] at hstep

theorem Asks.output_prefix (h : o.Asks k) : k.output <+: framed o.request := by
  cases h with
  | waiting _ houtput =>
    rw [houtput]
    exact List.nil_prefix
  | asked _ houtput | answered _ houtput => rw [houtput]

theorem Asks.arrived (h : o.Asks k) (hopen : k.eof = false) (bytes : Bytes) :
    o.Asks { k with received := k.received ++ bytes, buffer := k.buffer ++ bytes } := by
  cases h with
  | waiting hpoint houtput hbuffer heof =>
    refine .waiting hpoint houtput ?_ heof
    show k.buffer ++ bytes = k.received ++ bytes
    rw [hbuffer]
  | asked hpoint houtput hreceived heof =>
    refine .asked hpoint houtput ?_ fun hend => ?_
    · show k.received ++ bytes = _ ++ (k.buffer ++ bytes)
      rw [hreceived,List.append_assoc]
    · rw [show k.eof = true from hend] at hopen
      exact nomatch hopen
  | answered hpoint houtput => exact .answered hpoint houtput

/-! Both sides. -/

variable {x y : Exchange}

theorem Going.received_prefix (h : o.Going x) : x.conn.received <+: framed o.request := h.sent.trans h.rpc.output_prefix

/-- The handler has answered if the client has come to an end, and not before it has asked. -/
theorem Going.waiting (h : o.Going x) (houtput : x.rpc.output = []) : x.rpc.received <+: framed o.hello := by
  have hnil : x.conn.received = [] := by
    have hsent := h.sent
    rw [houtput] at hsent
    exact List.prefix_nil.mp hsent
  have hdelivered := h.delivered
  have hrequest := framed_ne_nil o.request
  cases h.conn with
  | fresh _ hnone =>
    rw [hnone] at hdelivered
    rw [List.prefix_nil.mp hdelivered]
    exact List.nil_prefix
  | ready _ _ hhello | reading _ _ hhello =>
    rwa [hhello] at hdelivered
  | serving _ _ _ hreceived | replied _ _ _ hreceived =>
    exact absurd (hreceived.symm.trans hnil) hrequest

theorem going_start : o.Going o.start where
  call := ⟨rfl,rfl⟩
  rpc := .waiting rfl rfl rfl rfl
  conn := .fresh rfl rfl rfl rfl rfl
  sent := List.prefix_refl _
  delivered := List.prefix_refl _
  ended _ hover := nomatch hover

/-- An exchange that goes on, with less left to do. -/
structure Lowers (o : Occasion server) (x y : Exchange) : Prop where
  going : o.Going y
  lower : (∀ outcome, x.rpc.point ≠ .finished outcome) → o.left y < o.left x

theorem take_drop_prefix {α : Type} {l m : List α} (h : l <+: m) (n : ℕ) : l ++ (m.drop l.length).take n <+: m := by
  obtain ⟨rest,rfl⟩ := h
  rw [List.drop_left]
  exact (List.prefix_append_right_inj l).mpr (List.take_prefix n rest)

theorem server_step (hlib : server.lib.Faithful) {a : Conn.Action} (h : o.Going x)
    (ha : (∀ bytes, a ≠ .arrive bytes) ∧ a ≠ .finish) (hcalm : o.Calm x (.server a))
    (hstep : x.conn.step server a = some c') : o.Lowers x { x with conn := c' } := by
  obtain ⟨hserves,hlower,hreceived,houtput⟩ := serves_step hlib h.conn h.received_prefix ha hcalm hstep
  refine ⟨⟨h.call,h.rpc,hserves,?_,h.delivered.trans houtput,fun outcome hover => ?_⟩,fun _ => ?_⟩
  · show c'.received <+: _
    rw [hreceived]
    exact h.sent
  · have hwhole := h.ended outcome hover
    apply hserves.output_prefix.eq_of_length_le
    rw [← hwhole]
    exact houtput.length_le
  · unfold left
    dsimp only
    rw [hreceived]
    omega

theorem client_step (hlib : server.lib.Faithful) {a : Rpc.Action} (h : o.Going x)
    (ha : (∀ bytes, a ≠ .arrive bytes) ∧ a ≠ .finish) (hcalm : o.Calm x (.client a))
    (hstep : x.rpc.step server.lib b a = some k') : o.Lowers x { x with rpc := k' } := by
  have hpre := h.delivered.trans h.conn.output_prefix
  obtain ⟨hcall,hasks,hlower,hreceived,houtput,hover⟩ := asks_step hlib h.rpc h.call h.waiting hpre ha hcalm hstep
  refine ⟨⟨⟨hcall.1.trans h.call.1,hcall.2.trans h.call.2⟩,hasks,h.conn,h.sent.trans houtput,?_,fun outcome hend => ?_⟩,fun _ => ?_⟩
  · show k'.received <+: _
    rw [hreceived]
    exact h.delivered
  · have hwhole := hover outcome hend
    apply h.conn.output_prefix.eq_of_length_le
    rw [← hwhole]
    exact h.delivered.length_le
  · unfold left
    dsimp only
    rw [hreceived]
    omega

theorem toServer_step {count : ℕ} (h : o.Going x) (hcount : 0 < count)
    (hle : count ≤ (x.rpc.output.drop x.conn.received.length).length)
    (hstep : x.conn.step server (.arrive ((x.rpc.output.drop x.conn.received.length).take count)) = some c') :
    o.Lowers x { x with conn := c' } := by
  have hpre := take_drop_prefix h.sent count
  have hrequest := hpre.trans h.rpc.output_prefix
  simp only [Conn.step] at hstep
  split at hstep
  next => cases hstep
  next =>
    obtain rfl := Option.some.inj hstep
    refine ⟨⟨h.call,h.rpc,h.conn.arrived hrequest,hpre,h.delivered,h.ended⟩,fun _ => ?_⟩
    have hgrown : (x.conn.received ++ (x.rpc.output.drop x.conn.received.length).take count).length =
        x.conn.received.length + count := by
      rw [List.length_append,List.length_take_of_le hle]
    have hmore := hrequest.length_le
    rw [hgrown] at hmore
    have hrank : connRank { x.conn with
        received := x.conn.received ++ (x.rpc.output.drop x.conn.received.length).take count
        buffer := x.conn.buffer ++ (x.rpc.output.drop x.conn.received.length).take count } = connRank x.conn := rfl
    unfold left
    dsimp only
    rw [hrank,hgrown]
    omega

theorem toClient_step {count : ℕ} (h : o.Going x) (hcount : 0 < count)
    (hle : count ≤ (x.conn.output.drop x.rpc.received.length).length)
    (hstep : x.rpc.step server.lib b (.arrive ((x.conn.output.drop x.rpc.received.length).take count)) = some k') :
    o.Lowers x { x with rpc := k' } := by
  have hpre := take_drop_prefix h.delivered count
  simp only [Rpc.step] at hstep
  split at hstep
  next => exact nomatch hstep
  next hopen =>
    obtain rfl := Option.some.inj hstep
    have hasks := h.rpc.arrived (Bool.eq_false_iff.mpr hopen) ((x.conn.output.drop x.rpc.received.length).take count)
    refine ⟨⟨h.call,hasks,h.conn,h.sent,hpre,h.ended⟩,fun _ => ?_⟩
    have hgrown : (x.rpc.received ++ (x.conn.output.drop x.rpc.received.length).take count).length =
        x.rpc.received.length + count := by
      rw [List.length_append,List.length_take_of_le hle]
    have hmore := (hpre.trans h.conn.output_prefix).length_le
    rw [hgrown] at hmore
    have hrank : rpcRank { x.rpc with
        received := x.rpc.received ++ (x.conn.output.drop x.rpc.received.length).take count
        buffer := x.rpc.buffer ++ (x.conn.output.drop x.rpc.received.length).take count } = rpcRank x.rpc := rfl
    unfold left
    dsimp only
    rw [hrank,hgrown]
    omega

theorem hangUp_step (h : o.Going x) {outcome : Except Failure ServiceResult} (hover : x.rpc.point = .finished outcome) :
    o.Lowers x { x with conn := { x.conn with eof := true } } := by
  obtain ⟨hpoint,hcalled,hreceived,hbuffer⟩ := h.conn.replied_of_output (h.ended outcome hover)
  refine ⟨⟨h.call,h.rpc,.replied hpoint (h.ended outcome hover) hcalled hreceived hbuffer,h.sent,h.delivered,h.ended⟩,?_⟩
  intro hopen
  exact absurd hover (hopen outcome)

theorem dropped_step (h : o.Going x) (hpoint : x.conn.point = .finished) (hlength : x.rpc.received.length = x.conn.output.length)
    (hopen : x.rpc.eof = false) : o.Lowers x { x with rpc := { x.rpc with eof := true } } := by
  have hwhole : x.rpc.received = x.conn.output := h.delivered.eq_of_length hlength
  have hreplied : x.conn.output = framed o.hello ++ framed o.reply ∧ x.conn.received = framed o.request := by
    cases h.conn with
    | fresh hfresh => exact nomatch hfresh.symm.trans hpoint
    | ready hready =>
      rcases hready with hready | hready
      · exact nomatch hready.symm.trans hpoint
      · exact nomatch hready.symm.trans hpoint
    | reading hreading => exact nomatch hreading.symm.trans hpoint
    | serving hserving => exact nomatch hserving.symm.trans hpoint
    | replied _ houtput _ hreceived => exact ⟨houtput,hreceived⟩
  have hasks : o.Asks { x.rpc with eof := true } := by
    cases h.rpc with
    | waiting _ houtput =>
      have hsent := h.sent
      rw [houtput,hreplied.2] at hsent
      exact absurd (List.prefix_nil.mp hsent) (framed_ne_nil o.request)
    | asked hpoint houtput hreceived _ =>
      refine .asked hpoint houtput hreceived fun _ => ?_
      rw [hwhole,hreplied.1] at hreceived
      exact (List.append_cancel_left hreceived).symm
    | answered hpoint houtput => exact .answered hpoint houtput
  refine ⟨⟨h.call,hasks,h.conn,h.sent,h.delivered,h.ended⟩,fun _ => ?_⟩
  unfold left rpcRank
  dsimp only
  rw [hopen]
  simp

theorem exchange_step (hlib : server.lib.Faithful) {a : Exchange.Action} (h : o.Going x) (hcalm : o.Calm x a)
    (hstep : x.step server b a = some y) : o.Lowers x y := by
  cases a with
  | client a =>
    cases a with
    | arrive | finish => exact nomatch hstep
    | read | drained | fault =>
      obtain ⟨k',hk,rfl⟩ := Option.map_eq_some_iff.mp hstep
      refine client_step hlib h ?_ hcalm hk
      exact ⟨nofun,nofun⟩
  | server a =>
    cases a with
    | arrive | finish => exact nomatch hstep
    | greet | drained | read | interrupt | served | closed =>
      obtain ⟨c',hc,rfl⟩ := Option.map_eq_some_iff.mp hstep
      refine server_step hlib h ?_ hcalm hc
      exact ⟨nofun,nofun⟩
  | toServer count =>
    simp only [Exchange.step] at hstep
    split at hstep
    next hcount =>
      obtain ⟨c',hc,rfl⟩ := Option.map_eq_some_iff.mp hstep
      exact toServer_step h hcount.1 hcount.2 hc
    next => exact nomatch hstep
  | toClient count =>
    simp only [Exchange.step] at hstep
    split at hstep
    next hcount =>
      obtain ⟨k',hk,rfl⟩ := Option.map_eq_some_iff.mp hstep
      exact toClient_step h hcount.1 hcount.2 hk
    next => exact nomatch hstep
  | hangUp =>
    simp only [Exchange.step] at hstep
    split at hstep
    next outcome hover =>
      split at hstep
      · exact nomatch hstep
      · obtain ⟨c',hc,rfl⟩ := Option.map_eq_some_iff.mp hstep
        obtain rfl := Option.some.inj hc
        exact hangUp_step h hover
    next => exact nomatch hstep
  | dropped =>
    simp only [Exchange.step] at hstep
    split at hstep
    next hcond =>
      obtain ⟨k',hk,rfl⟩ := Option.map_eq_some_iff.mp hstep
      obtain rfl := Option.some.inj hk
      exact dropped_step h hcond.1 hcond.2.1 (by simpa using hcond.2.2)
    next => exact nomatch hstep

/-! Something can be done until the client comes to an end. -/

theorem next_of_isSome {a : Exchange.Action} (hcalm : o.Calm x a) (h : (x.step server b a).isSome) :
    ∃ y, Next (Exchange.step server b) o.Calm x y := by
  obtain ⟨y,hy⟩ := Option.isSome_iff_exists.mp h
  exact ⟨y,a,hcalm,hy⟩

theorem next_toServer (h : x.conn.received.length < x.rpc.output.length) (hopen : x.conn.eof = false) :
    ∃ y, Next (Exchange.step server b) o.Calm x y := by
  apply next_of_isSome (a := .toServer 1) trivial
  have hle : 1 ≤ (x.rpc.output.drop x.conn.received.length).length := by
    rw [List.length_drop]
    omega
  simp only [Exchange.step]
  rw [if_pos ⟨Nat.one_pos,hle⟩]
  simp only [Conn.step,hopen]
  rfl

theorem next_toClient (h : x.rpc.received.length < x.conn.output.length) (hopen : x.rpc.eof = false) :
    ∃ y, Next (Exchange.step server b) o.Calm x y := by
  apply next_of_isSome (a := .toClient 1) trivial
  have hle : 1 ≤ (x.conn.output.drop x.rpc.received.length).length := by
    rw [List.length_drop]
    omega
  simp only [Exchange.step]
  rw [if_pos ⟨Nat.one_pos,hle⟩]
  simp only [Rpc.step,hopen]
  rfl

theorem next_read {payload : Bytes} (hpoint : x.rpc.point = .greeting ∨ x.rpc.point = .response)
    (hbuffer : x.rpc.buffer = framed payload) (hsize : payload.length ≤ frameMaxBytes) :
    ∃ y, Next (Exchange.step server b) o.Calm x y := by
  have hread : ∃ k', x.rpc.read server.lib b = some k' := by
    unfold Rpc.read
    rcases hpoint with hpoint | hpoint
    · rw [hpoint]
      dsimp only
      rw [hbuffer,readFrame_framed hsize]
      exact ⟨_,rfl⟩
    · rw [hpoint]
      dsimp only
      rw [hbuffer,readFrame_framed hsize]
      exact ⟨_,rfl⟩
  obtain ⟨k',hk⟩ := hread
  apply next_of_isSome (a := .client .read) trivial
  simp only [Exchange.step,Rpc.step]
  rw [hk]
  rfl

theorem next_server {a : Conn.Action} (hstep : x.conn.step server a = some c') (hcalm : o.Calm x (.server a))
    (ha : (∀ bytes, a ≠ .arrive bytes) ∧ a ≠ .finish) : ∃ y, Next (Exchange.step server b) o.Calm x y := by
  refine ⟨{ x with conn := c' },.server a,hcalm,?_⟩
  cases a with
  | arrive bytes => exact absurd rfl (ha.1 bytes)
  | finish => exact absurd rfl ha.2
  | greet | drained | read | interrupt | served | closed =>
    simp only [Exchange.step,hstep,Option.map_some]

/-- The client can go on, or it waits for the handler. -/
theorem next_client (h : o.Going x) (hopen : ∀ outcome, x.rpc.point ≠ .finished outcome) (hgreeted : x.conn.output ≠ []) :
    (∃ y, Next (Exchange.step server b) o.Calm x y) ∨ x.rpc.output = framed o.request ∧ x.conn.output = framed o.hello := by
  have hhello : framed o.hello <+: x.conn.output := by
    cases h.conn with
    | fresh _ houtput => exact absurd houtput hgreeted
    | ready _ _ houtput | reading _ _ houtput | serving _ houtput => rw [houtput]
    | replied _ houtput =>
      rw [houtput]
      exact List.prefix_append _ _
  cases h.rpc with
  | waiting hpoint houtput hbuffer heof =>
    have hpre := h.waiting houtput
    by_cases hlength : x.rpc.received.length < (framed o.hello).length
    · exact .inl (next_toClient (hlength.trans_le hhello.length_le) heof)
    · have hwhole : x.rpc.received = framed o.hello := hpre.eq_of_length_le (not_lt.mp hlength)
      exact .inl (next_read (.inl hpoint) (hbuffer.trans hwhole) o.hello_size)
  | asked hpoint houtput hreceived heof =>
    rcases hpoint with hpoint | hpoint
    · refine .inl ⟨{ x with rpc := { x.rpc with point := .response } },.client .drained,trivial,?_⟩
      simp only [Exchange.step,Rpc.step,hpoint,Option.map_some]
    · by_cases hreplied : x.conn.output = framed o.hello ++ framed o.reply
      · have hpre : x.rpc.buffer <+: framed o.reply := by
          have hdelivered := h.delivered
          rw [hreceived,hreplied] at hdelivered
          exact (List.prefix_append_right_inj _).mp hdelivered
        by_cases hlength : x.rpc.buffer.length < (framed o.reply).length
        · have hend : x.rpc.eof = false := by
            cases hend : x.rpc.eof with
            | false => rfl
            | true =>
              rw [heof hend] at hlength
              omega
          refine .inl (next_toClient ?_ hend)
          rw [hreceived,hreplied,List.length_append,List.length_append]
          omega
        · have hwhole : x.rpc.buffer = framed o.reply := hpre.eq_of_length_le (not_lt.mp hlength)
          exact .inl (next_read (.inr hpoint) hwhole o.reply_size)
      · refine .inr ⟨houtput,?_⟩
        cases h.conn with
        | fresh _ hnone => exact absurd hnone hgreeted
        | ready _ _ hhello | reading _ _ hhello | serving _ hhello => exact hhello
        | replied _ hboth => exact absurd hboth hreplied
  | answered hpoint => exact absurd hpoint (hopen _)

theorem next_exchange (h : o.Going x) (hopen : ∀ outcome, x.rpc.point ≠ .finished outcome) :
    ∃ y, Next (Exchange.step server b) o.Calm x y := by
  have hnow : o.greeting.nowMs ≤ o.greeting.nowMs ∧ o.greeting.nowMs ≤ o.greeting.nowMs + ttlMs :=
    ⟨le_refl _,Int.le_add_of_nonneg_right (by decide)⟩
  cases h.conn with
  | fresh hpoint =>
    have hstep : x.conn.step server (.greet o.greeting) = some (x.conn.greet server o.greeting) := by
      simp only [Conn.step,hpoint,if_true]
    exact next_server hstep rfl ⟨(by simp),(by simp)⟩
  | ready hpoint hgrant houtput hinvocations hbuffer heof =>
    rcases hpoint with hpoint | hpoint
    · have hstep : x.conn.step server (.drained (.ok ())) = some x.conn.again := by
        simp only [Conn.step,hpoint]
      exact next_server hstep rfl ⟨(by simp),(by simp)⟩
    · have hgreeted : x.conn.output ≠ [] := by
        rw [houtput]
        exact framed_ne_nil _
      rcases next_client (b := b) h hopen hgreeted with hnext | ⟨hrequest,_⟩
      · exact hnext
      · by_cases hlength : x.conn.received.length < x.rpc.output.length
        · exact next_toServer hlength heof
        · have hwhole : x.conn.received = x.rpc.output := h.sent.eq_of_length_le (not_lt.mp hlength)
          have hstep : x.conn.step server (.read o.greeting.nowMs) = some _ :=
            read_header_ok hpoint (hbuffer.trans (hwhole.trans hrequest)) o.request_size
          exact next_server hstep hnow ⟨(by simp),(by simp)⟩
  | reading hpoint hgrant houtput hinvocations hreceived heof =>
    have hgreeted : x.conn.output ≠ [] := by
      rw [houtput]
      exact framed_ne_nil _
    rcases next_client (b := b) h hopen hgreeted with hnext | ⟨hrequest,_⟩
    · exact hnext
    · by_cases hlength : x.conn.received.length < x.rpc.output.length
      · exact next_toServer hlength heof
      · have hwhole : x.conn.received = x.rpc.output := h.sent.eq_of_length_le (not_lt.mp hlength)
        have hbuffer : x.conn.buffer = o.request ++ [] := by
          rw [hreceived,hrequest,framed] at hwhole
          rw [List.append_cancel_left hwhole,List.append_nil]
        have hstep : x.conn.step server (.read o.greeting.nowMs) = some _ := read_body_ok hpoint hgrant hbuffer
        exact next_server hstep hnow ⟨(by simp),(by simp)⟩
  | serving hpoint =>
    have hstep : x.conn.step server (.served o.expected) = some (x.conn.reply server o.requestId o.expected) := by
      simp only [Conn.step,hpoint]
    exact next_server hstep rfl ⟨(by simp),(by simp)⟩
  | replied _ houtput =>
    have hgreeted : x.conn.output ≠ [] := by
      rw [houtput]
      intro hnil
      exact framed_ne_nil _ (List.append_eq_nil_iff.mp hnil).1
    rcases next_client (b := b) h hopen hgreeted with hnext | ⟨_,hhello⟩
    · exact hnext
    · rw [houtput] at hhello
      exact absurd (List.append_right_eq_self.mp hhello) (framed_ne_nil _)

/-- A client that has come to an end has the answer of the service, which has been called once. -/
theorem Going.done (h : o.Going x) {outcome : Except Failure ServiceResult} (hover : x.rpc.point = .finished outcome) :
    o.Done x := by
  have houtput := h.ended outcome hover
  refine ⟨?_,(h.conn.replied_of_output houtput).2.1⟩
  cases h.rpc with
  | waiting hpoint => exact nomatch hpoint.symm.trans hover
  | asked hpoint =>
    rcases hpoint with hpoint | hpoint
    · exact nomatch hpoint.symm.trans hover
    · exact nomatch hpoint.symm.trans hover
  | answered hpoint => exact hpoint

/-- The service has been called once at most, and if the client has come to an end, it has the answer. -/
def Once (x : Exchange) : Prop :=
  (x.conn.invocations = [] ∨ o.Called x.conn) ∧ ∀ outcome, x.rpc.point = .finished outcome → o.Done x

theorem Going.once (h : o.Going x) : o.Once x := by
  refine ⟨?_,fun outcome hover => h.done hover⟩
  cases h.conn with
  | fresh _ _ hinvocations => exact .inl hinvocations
  | ready _ _ _ hinvocations | reading _ _ _ hinvocations => exact .inl hinvocations
  | serving _ _ hcalled | replied _ _ hcalled => exact .inr hcalled

end Occasion

/-- A remote call is a local call: in every run the client comes to the answer of the service to the same request, and at no
time has the service been called twice. -/
theorem remote_call (hlib : server.lib.Faithful) (b : Builtins) (o : Occasion server) :
    Inevitable (Exchange.step server b) o.Calm o.Done o.start ∧
      ∀ x, Steps (Exchange.step server b) o.Calm o.start x → o.Once x := by
  constructor
  · apply inevitable_of_measure (I := o.Going) o.left ?_ ?_ Occasion.going_start
    · intro x h hdone
      exact Occasion.next_exchange h fun outcome hover => hdone (h.done hover)
    · rintro x y h hdone ⟨a,hcalm,hstep⟩
      obtain ⟨hgoing,hlower⟩ := Occasion.exchange_step hlib h hcalm hstep
      exact ⟨hgoing,hlower fun outcome hover => hdone (h.done hover)⟩
  · intro x hrun
    have hgoing := hrun.invariant (I := o.Going) (fun x a y h hcalm hstep => (Occasion.exchange_step hlib h hcalm hstep).going)
      Occasion.going_start
    exact hgoing.once

/-! The health of the service. -/

section Example

noncomputable def exampleOccasion : Occasion exampleServer where
  call := .health
  requestId := "6f1c"
  greeting := exampleGreeting
  principal := examplePrincipal
  answer := .ok (.health { serving := true })
  hello := utf8 (sortedText (exampleGrant.hello exampleServer).json)
  request := utf8 (sortedText (ServiceCall.health.frame "6f1c" (exampleGrant.token exampleServer.lib exampleServer.keyId)))
  reply := utf8 (sortedText (Sent.response "6f1c" [("serving",.bool true), ("detail",.str "ready")]).json)
  uid_owner := rfl
  principal_found := rfl
  binding_ascii := ascii_of_all rfl (by decide)
  returns := by
    intro result hresult
    obtain rfl := Except.ok.inj hresult
    trivial
  hello_text := jsonLibrary_dumps (hello_integral exampleGrant)
  request_text := jsonLibrary_dumps (ServiceCall.frame_integral _ _ _)
  reply_text := jsonLibrary_dumps (reply_integral _ _)
  hello_size := by
    have hbinding : exampleGrant.binding.length ≤ 1000 := by decide
    have htoken := exampleToken_length.trans (show 3300 ≤ 10000 by omega)
    exact (length_utf8_le _).trans (hello_fits hbinding htoken)
  request_size := by
    have htoken := exampleToken_length.trans (show 3300 ≤ 10000 by omega)
    exact (length_utf8_le _).trans (health_fits (by decide) htoken)
  reply_size := by
    apply (length_utf8_le _).trans
    decide

/-- `str` and `int` of a text and of an integer. -/
def exampleBuiltins : Builtins where
  str | .str s => s | _ => ""
  int | .int n => some n | _ => none
  str_text _ := rfl
  int_integer _ := rfl

theorem remote_call_health : Inevitable (Exchange.step exampleServer exampleBuiltins) exampleOccasion.Calm exampleOccasion.Done
    exampleOccasion.start ∧ ∀ x, Steps (Exchange.step exampleServer exampleBuiltins) exampleOccasion.Calm exampleOccasion.start x →
      exampleOccasion.Once x :=
  remote_call ⟨jsonLibrary_frames,jsonLibrary_claims,jsonLibrary_signs exampleSign_digits⟩ exampleBuiltins exampleOccasion

end Example

end UnixService
end HarnessSdk
