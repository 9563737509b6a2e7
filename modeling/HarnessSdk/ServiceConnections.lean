import HarnessSdk.ServiceLibrary
import Mathlib.Data.List.Forall2

/-!
# The connections of the service

A connection accounts for all that has come and gone on it: whole request frames, each with the capability of the
connection, and a greeting, the replies in the order of the requests, and at most one error at the end.
-/

namespace HarnessSdk
namespace UnixService

open Local (beBytes beNat length_beBytes)
open Transition (ReachableWith Steps anyStep)

variable {server : UnixServiceServer} {c c' : Conn}

/-! Frames. -/

theorem beBytes_mul_add (k a n : ℕ) : beBytes k (a * 256 ^ k + n) = beBytes k n := by
  induction k generalizing a with
  | zero => rfl
  | succ k ih =>
    have hsplit : a * 256 ^ (k + 1) + n = a * 256 * 256 ^ k + n := by rw [pow_succ]; ring
    have hdigit : (a * 256 * 256 ^ k + n) / 256 ^ k % 256 = n / 256 ^ k % 256 := by
      rw [add_comm,Nat.add_mul_div_right _ _ (Nat.pow_pos (by decide)),Nat.add_mul_mod_self_right]
    rw [hsplit,beBytes,beBytes,hdigit,ih]

theorem beNat_cons (b : UInt8) (l : Bytes) : beNat (b :: l) = b.toNat * 256 ^ l.length + beNat l := by
  have hfold : ∀ (l : Bytes) (a : ℕ), l.foldl (fun n b => n * 256 + b.toNat) a = a * 256 ^ l.length + beNat l := by
    intro l
    induction l with
    | nil => intro a; simp [beNat]
    | cons d l ih =>
      intro a
      have hone : beNat (d :: l) = (0 * 256 + d.toNat) * 256 ^ l.length + beNat l := ih _
      rw [List.foldl_cons,ih,hone,List.length_cons]
      ring
  simpa [beNat] using hfold l b.toNat

/-- A header of four bytes is the one of the size that is read off it. -/
theorem beBytes_beNat (l : Bytes) : beBytes l.length (beNat l) = l := by
  induction l with
  | nil => rfl
  | cons b l ih =>
    have hlt : beNat l < 256 ^ l.length := by
      rw [← ih,Local.beNat_beBytes,length_beBytes]
      exact Nat.mod_lt _ (Nat.pow_pos (by decide))
    have hdigit : (b.toNat * 256 ^ l.length + beNat l) / 256 ^ l.length % 256 = b.toNat := by
      rw [add_comm,Nat.add_mul_div_right _ _ (Nat.pow_pos (by decide)),Nat.div_eq_of_lt hlt,Nat.zero_add]
      exact Nat.mod_eq_of_lt b.toNat_lt
    rw [List.length_cons,beNat_cons,beBytes,hdigit,beBytes_mul_add,ih,UInt8.ofNat_toNat]

/-- The frames of these payloads. -/
def framesOf (payloads : List Bytes) : Bytes := payloads.flatMap framed

theorem framesOf_concat (payloads : List Bytes) (payload : Bytes) :
    framesOf (payloads ++ [payload]) = framesOf payloads ++ framed payload := by
  simp [framesOf]

/-! What a connection accounts for. -/

/-- The request that is in the payload of an invocation. -/
structure Invocation.Requests (lib : Library) (inv : Invocation) (request : Json.Object) : Prop where
  frame : decodePayload lib inv.payload = .ok request
  token : Json.asString (Json.field request "capability") = some inv.token
  requestId : Json.asString (Json.field request "request_id") = some inv.requestId
  call : ∃ op arguments, Json.asString (Json.field request "op") = some op ∧
    Json.asObject (Json.field request "payload") = some arguments ∧ ServiceCall.read op arguments = .ok inv.call

/-- The peer of the connection is the owner, and the principal is the one that was found for its uid. -/
structure Grant.IssuedTo (server : UnixServiceServer) (grant : Grant) (g : Greeting) : Prop where
  uid : g.uid = .ok grant.uid
  owner : grant.uid = server.ownerUid
  principal : g.principal = .ok grant.principal
  binding : g.binding = grant.binding

/-- A call with the token of this grant, which has not expired, and with its principal. -/
structure Grant.Authorises (server : UnixServiceServer) (grant : Grant) (inv : Invocation) : Prop where
  request : ∃ request, inv.Requests server.lib request
  own : inv.token = grant.token server.lib server.keyId
  unexpired : grant.issuedMs ≤ inv.nowMs ∧ inv.nowMs ≤ grant.issuedMs + ttlMs
  verified : ∃ context, verify server.lib server.keyId inv.token grant.binding inv.nowMs = .ok context ∧
    context.principal = grant.principal ∧ inv.context = if inv.call = .health then none else some context

/-- The frame is the reply to the invocation. -/
def Replies (inv : Invocation) (frame : Sent) : Prop := ∃ result, frame = .response inv.requestId result

/-- The connection has received the frames of its invocations and then `rest`, and it has sent a greeting, a reply to
each invocation that is answered, and a failure. -/
structure Account (server : UnixServiceServer) (c : Conn) (rest : Bytes) (answered pending : List Invocation)
    (greeting failure : List Sent) : Prop where
  received : c.received = framesOf (c.invocations.map Invocation.payload) ++ rest
  invocations : c.invocations = answered ++ pending
  written : ∃ replies, List.Forall₂ Replies answered replies ∧ c.written = greeting ++ replies ++ failure
  output : ∃ frames, List.Forall₂ (fun frame bytes => encodeFrame server.lib frame.json = .ok bytes) c.written frames ∧
    c.output = frames.flatten
  waiting : pending.length ≤ 1
  failure : failure = [] ∨ ∃ code, failure = [.error code]
  greeting : greeting = [] ∧ c.invocations = [] ∨ ∃ grant, c.grant = some grant ∧ greeting = [grant.hello server]
  granted : ∀ grant, c.grant = some grant → ∃ g, c.met = some g ∧ grant.IssuedTo server g
  authorised : ∀ inv ∈ c.invocations, ∃ grant, c.grant = some grant ∧ grant.Authorises server inv

/-- The handler is on its way out. -/
def Point.ended : Point → Bool
  | .failing | .closing | .finished => true
  | _ => false

/-- The connection has been greeted and nothing has failed. -/
def Live (server : UnixServiceServer) (c : Conn) (rest : Bytes) (answered pending : List Invocation) : Prop :=
  ∃ grant, c.grant = some grant ∧ Account server c rest answered pending [grant.hello server] []

/-- The account of a connection, by the point at which its handler waits. -/
def Sound (server : UnixServiceServer) (c : Conn) : Prop :=
  match c.point with
  | .accepted => c.grant = none ∧ Account server c c.buffer [] [] [] []
  | .greeting | .header | .replying => Live server c c.buffer c.invocations []
  | .body size => Live server c (beBytes 4 size ++ c.buffer) c.invocations []
  | .serving requestId => ∃ answered inv, inv.requestId = requestId ∧ Live server c c.buffer answered [inv]
  | .failing | .closing | .finished =>
    ∃ rest answered pending greeting failure, Account server c rest answered pending greeting failure

section Accounts

variable {rest : Bytes} {answered pending : List Invocation} {greeting failure : List Sent}

theorem Account.moved (h : Account server c rest answered pending greeting failure) (point : Point) (buffer : Bytes)
    (eof : Bool) : Account server { c with point, buffer, eof } rest answered pending greeting failure :=
  ⟨h.received,h.invocations,h.written,h.output,h.waiting,h.failure,h.greeting,h.granted,h.authorised⟩

theorem Account.arrived (h : Account server c rest answered pending greeting failure) (bytes buffer : Bytes) :
    Account server { c with received := c.received ++ bytes, buffer } (rest ++ bytes) answered pending greeting failure := by
  refine ⟨?_,h.invocations,h.written,h.output,h.waiting,h.failure,h.greeting,h.granted,h.authorised⟩
  show c.received ++ bytes = _
  rw [h.received,List.append_assoc]

theorem Account.sound (h : Account server c rest answered pending greeting failure) (hended : c.point.ended) :
    Sound server c := by
  unfold Sound
  cases hpoint : c.point with
  | failing | closing | finished => exact ⟨rest,answered,pending,greeting,failure,h⟩
  | accepted | greeting | header | body | serving | replying =>
    rw [hpoint] at hended
    exact nomatch hended

theorem Sound.account (h : Sound server c) :
    ∃ rest answered pending greeting failure, Account server c rest answered pending greeting failure := by
  unfold Sound at h
  cases hpoint : c.point with
  | accepted =>
    rw [hpoint] at h
    exact ⟨_,_,_,_,_,h.2⟩
  | greeting | header | replying | body =>
    rw [hpoint] at h
    obtain ⟨grant,_,h⟩ := h
    exact ⟨_,_,_,_,_,h⟩
  | serving =>
    rw [hpoint] at h
    obtain ⟨_,_,_,grant,_,h⟩ := h
    exact ⟨_,_,_,_,_,h⟩
  | failing | closing | finished =>
    rw [hpoint] at h
    exact h

/-! Frames that are written. -/

theorem write_ok {frame : Sent} {next : Point} (h : c.write server frame next = .ok c') :
    ∃ bytes, encodeFrame server.lib frame.json = .ok bytes ∧
      c' = { c with written := c.written ++ [frame], output := c.output ++ bytes, point := next } := by
  unfold Conn.write at h
  cases hencode : encodeFrame server.lib frame.json with
  | error f =>
    rw [hencode] at h
    exact nomatch h
  | ok bytes =>
    rw [hencode] at h
    exact ⟨bytes,rfl,(Except.ok.inj h).symm⟩

theorem Account.output_append {frame : Sent} {bytes : Bytes}
    (h : Account server c rest answered pending greeting failure) (hencode : encodeFrame server.lib frame.json = .ok bytes) :
    ∃ frames, List.Forall₂ (fun frame bytes => encodeFrame server.lib frame.json = .ok bytes) (c.written ++ [frame]) frames ∧
      c.output ++ bytes = frames.flatten := by
  obtain ⟨frames,hframes,houtput⟩ := h.output
  refine ⟨frames ++ [bytes],List.rel_append hframes (.cons hencode .nil),?_⟩
  rw [houtput]
  simp

/-- An error ends the account. -/
theorem Account.fail (h : Account server c rest answered pending greeting []) (f : Failure) : Sound server (c.fail server f) := by
  have hclosing : Sound server { c with point := .closing } := (h.moved .closing c.buffer c.eof).sound rfl
  unfold Conn.fail
  cases f.answer with
  | none => exact hclosing
  | some code =>
    dsimp only
    cases hwrite : c.write server (.error code) .failing with
    | error e => exact hclosing
    | ok d =>
      obtain ⟨bytes,hencode,rfl⟩ := write_ok hwrite
      obtain ⟨replies,hreplies,hwritten⟩ := h.written
      refine Account.sound (?_ : Account server _ rest answered pending greeting [.error code]) rfl
      refine ⟨h.received,h.invocations,⟨replies,hreplies,?_⟩,h.output_append hencode,h.waiting,.inr ⟨code,rfl⟩,h.greeting,
        h.granted,h.authorised⟩
      show c.written ++ [_] = _
      rw [hwritten,List.append_nil]

theorem Account.send {frame : Sent} {next : Point} (h : Account server c rest answered pending greeting [])
    (hnext : ∀ d, c.write server frame next = .ok d → Sound server d) : Sound server (c.send server frame next) := by
  unfold Conn.send
  cases hwrite : c.write server frame next with
  | error f => exact h.fail f
  | ok d => exact hnext d hwrite

theorem Live.fail (h : Live server c rest answered pending) (f : Failure) : Sound server (c.fail server f) := by
  obtain ⟨grant,_,h⟩ := h
  exact h.fail f

theorem Live.moved (h : Live server c rest answered pending) (point : Point) (buffer : Bytes) (eof : Bool) :
    Live server { c with point, buffer, eof } rest answered pending := by
  obtain ⟨grant,hgrant,h⟩ := h
  exact ⟨grant,hgrant,h.moved point buffer eof⟩

end Accounts

/-! The steps of a handler. -/

theorem greet_sound (hgrant : c.grant = none) (h : Account server c c.buffer [] [] [] []) (g : Greeting) :
    Sound server (c.greet server g) := by
  have hmet : Account server { c with met := some g } c.buffer [] [] [] [] := by
    refine ⟨h.received,h.invocations,h.written,h.output,h.waiting,h.failure,h.greeting,?_,h.authorised⟩
    intro grant hsome
    rw [show c.grant = some grant from hsome] at hgrant
    exact nomatch hgrant
  unfold Conn.greet
  cases huid : g.uid with
  | error f => exact hmet.fail f
  | ok uid =>
    dsimp only
    by_cases howner : uid ≠ server.ownerUid
    · rw [if_pos howner]
      exact hmet.fail _
    · rw [if_neg howner]
      cases hprincipal : g.principal with
      | error f => exact hmet.fail f
      | ok principal =>
        dsimp only
        have hissued : ∀ grant, some (Grant.mk uid principal g.binding g.nonce g.nowMs) = some grant →
            ∃ g', some g = some g' ∧ grant.IssuedTo server g' := by
          intro grant hsome
          obtain rfl := Option.some.inj hsome
          exact ⟨g,rfl,huid,not_not.mp howner,hprincipal,rfl⟩
        have hnil : c.invocations = [] := h.invocations
        have hgranted : Account server { c with met := some g, grant := some ⟨uid,principal,g.binding,g.nonce,g.nowMs⟩ }
            c.buffer [] [] [] [] := by
          refine ⟨h.received,h.invocations,h.written,h.output,h.waiting,h.failure,.inl ⟨rfl,hnil⟩,hissued,?_⟩
          intro inv hinv
          rw [show c.invocations = [] from hnil] at hinv
          exact nomatch hinv
        refine hgranted.send fun d hwrite => ?_
        obtain ⟨bytes,hencode,rfl⟩ := write_ok hwrite
        obtain ⟨replies,hreplies,hwritten⟩ := hgranted.written
        obtain rfl := List.forall₂_nil_left_iff.mp hreplies
        refine ⟨_,rfl,hgranted.received,?_,⟨[],?_,?_⟩,hgranted.output_append hencode,by simp,.inl rfl,.inr ⟨_,rfl,rfl⟩,
          hissued,hgranted.authorised⟩
        · simp
        · show List.Forall₂ _ c.invocations []
          rw [hnil]
          exact .nil
        · show c.written ++ _ = _
          rw [hwritten]
          rfl

theorem again_sound (h : Live server c c.buffer c.invocations []) : Sound server c.again := by
  unfold Conn.again
  split
  · obtain ⟨grant,_,h⟩ := h
    exact (h.moved .closing c.buffer c.eof).sound rfl
  · exact h.moved .header c.buffer c.eof

theorem reply_sound {requestId : String} {answered : List Invocation} {inv : Invocation} (hinv : inv.requestId = requestId)
    (h : Live server c c.buffer answered [inv]) (outcome : Except Failure ServiceResult) :
    Sound server (c.reply server requestId outcome) := by
  unfold Conn.reply
  cases outcome with
  | error f => exact h.fail f
  | ok result =>
    dsimp only
    cases hjson : resultJson result with
    | error f => exact h.fail f
    | ok value =>
      obtain ⟨grant,hgrant,h⟩ := h
      refine h.send fun d hwrite => ?_
      obtain ⟨bytes,hencode,rfl⟩ := write_ok hwrite
      obtain ⟨replies,hreplies,hwritten⟩ := h.written
      have hanswered : List.Forall₂ Replies c.invocations (replies ++ [Sent.response requestId value]) := by
        rw [h.invocations]
        exact List.rel_append hreplies (.cons ⟨value,by rw [hinv]⟩ .nil)
      refine ⟨grant,hgrant,h.received,?_,⟨_,hanswered,?_⟩,h.output_append hencode,by simp,.inl rfl,.inr ⟨grant,hgrant,rfl⟩,
        h.granted,h.authorised⟩
      · simp
      · show c.written ++ _ = _
        rw [hwritten]
        simp

/-- Every token that verifies in this frame is the one of the connection, and it has not expired. -/
def Owns (server : UnixServiceServer) (grant : Grant) (payload : Bytes) (nowMs : ℤ) : Prop :=
  ∀ request token context, decodePayload server.lib payload = .ok request →
    Json.asString (Json.field request "capability") = some token →
    verify server.lib server.keyId token grant.binding nowMs = .ok context →
    token = grant.token server.lib server.keyId ∧ grant.issuedMs ≤ nowMs ∧ nowMs ≤ grant.issuedMs + ttlMs

theorem handle_sound {grant : Grant} {payload : Bytes} {nowMs : ℤ} (hgrant : c.grant = some grant)
    (h : Live server c (framed payload ++ c.buffer) c.invocations [])
    (howns : Owns server grant payload nowMs) : Sound server (c.handle server grant payload nowMs) := by
  unfold Conn.handle
  cases hdecode : decodePayload server.lib payload with
  | error f => exact h.fail f
  | ok request =>
    dsimp only
    cases htoken : Json.asString (Json.field request "capability") with
    | none => exact h.fail _
    | some token =>
      dsimp only
      cases hverify : verify server.lib server.keyId token grant.binding nowMs with
      | error f => exact h.fail f
      | ok context =>
        dsimp only
        by_cases hprincipal : context.principal ≠ grant.principal
        · rw [if_pos hprincipal]
          exact h.fail _
        · rw [if_neg hprincipal]
          unfold Conn.dispatch
          split
          next requestId op arguments hid hop harguments =>
            cases hread : ServiceCall.read op arguments with
            | error f => exact h.fail f
            | ok call =>
              dsimp only
              obtain ⟨hown,hunexpired⟩ := howns request token context hdecode htoken hverify
              obtain ⟨grant',hgrant',h⟩ := h
              obtain rfl := Option.some.inj (hgrant.symm.trans hgrant')
              refine ⟨c.invocations,_,rfl,grant,hgrant,?_,rfl,?_,h.output,by simp,.inl rfl,.inr ⟨grant,hgrant,rfl⟩,
                h.granted,?_⟩
              · show c.received = _
                rw [List.map_append,List.map_singleton,framesOf_concat,h.received]
                simp
              · exact h.written
              · intro inv hinv
                rcases List.mem_append.mp hinv with hinv | hinv
                · exact h.authorised inv hinv
                · obtain rfl := List.mem_singleton.mp hinv
                  exact ⟨grant,hgrant,⟨request,hdecode,htoken,hid,op,arguments,hop,harguments,hread⟩,hown,hunexpired,
                    context,hverify,not_not.mp hprincipal,rfl⟩
          next => exact h.fail _

theorem read_sound {nowMs : ℤ} (h : Sound server c)
    (howns : ∀ size grant, c.point = .body size → c.grant = some grant → size ≤ c.buffer.length →
      Owns server grant (c.buffer.take size) nowMs) (hread : c.read server nowMs = some c') : Sound server c' := by
  unfold Sound at h
  unfold Conn.read at hread
  split at hread
  next hpoint =>
    rw [hpoint] at h
    split at hread
    next hlength =>
      have hheader : beBytes 4 (beNat (c.buffer.take 4)) = c.buffer.take 4 := by
        have htake := beBytes_beNat (c.buffer.take 4)
        rwa [List.length_take_of_le hlength] at htake
      dsimp only at hread
      split at hread
      · obtain rfl := Option.some.inj hread
        obtain ⟨grant,_,h⟩ := h
        exact (h.moved c.point (c.buffer.drop 4) c.eof).fail _
      · obtain rfl := Option.some.inj hread
        show Live server _ (beBytes 4 _ ++ c.buffer.drop 4) c.invocations []
        rw [hheader,List.take_append_drop]
        exact h.moved _ _ _
    next =>
      split at hread
      · obtain rfl := Option.some.inj hread
        exact h.fail _
      · exact nomatch hread
  next size grant hpoint hgrant =>
    rw [hpoint] at h
    split at hread
    next hlength =>
      obtain rfl := Option.some.inj hread
      apply handle_sound
      · exact hgrant
      · show Live server _ (framed (c.buffer.take size) ++ c.buffer.drop size) _ _
        rw [framed,List.length_take_of_le hlength,List.append_assoc,List.take_append_drop]
        exact h.moved _ _ _
      · exact howns size grant hpoint hgrant hlength
    next =>
      split at hread
      · obtain rfl := Option.some.inj hread
        exact h.fail _
      · exact nomatch hread
  next => exact nomatch hread

theorem Sound.arrived (h : Sound server c) (bytes : Bytes) :
    Sound server { c with received := c.received ++ bytes, buffer := c.buffer ++ bytes } := by
  obtain ⟨point,_,_,_,buffer,_,_,_,_⟩ := c
  cases point with
  | accepted => exact ⟨h.1,h.2.arrived bytes _⟩
  | greeting | header | replying =>
    obtain ⟨grant,hgrant,h⟩ := h
    exact ⟨grant,hgrant,h.arrived bytes _⟩
  | body size =>
    obtain ⟨grant,hgrant,h⟩ := h
    have harrived := h.arrived bytes (buffer ++ bytes)
    rw [List.append_assoc] at harrived
    exact ⟨grant,hgrant,harrived⟩
  | serving requestId =>
    obtain ⟨answered,inv,hinv,grant,hgrant,h⟩ := h
    exact ⟨answered,inv,hinv,grant,hgrant,h.arrived bytes _⟩
  | failing | closing | finished =>
    obtain ⟨rest,answered,pending,greeting,failure,h⟩ := h
    exact ⟨_,_,_,_,_,h.arrived bytes _⟩

theorem Sound.finished (h : Sound server c) : Sound server { c with eof := true } := by
  obtain ⟨point,_,_,_,_,_,_,_,_⟩ := c
  cases point with
  | accepted => exact ⟨h.1,h.2.moved _ _ _⟩
  | greeting | header | replying | body => exact h.moved _ _ _
  | serving requestId =>
    obtain ⟨answered,inv,hinv,h⟩ := h
    exact ⟨answered,inv,hinv,h.moved _ _ _⟩
  | failing | closing | finished =>
    obtain ⟨rest,answered,pending,greeting,failure,h⟩ := h
    exact ⟨_,_,_,_,_,h.moved _ _ _⟩

theorem step_sound {a : Conn.Action} (h : Sound server c)
    (howns : ∀ nowMs, a = .read nowMs → ∀ size grant, c.point = .body size → c.grant = some grant →
      size ≤ c.buffer.length → Owns server grant (c.buffer.take size) nowMs) (hstep : c.step server a = some c') :
    Sound server c' := by
  cases a with
  | arrive bytes =>
    simp only [Conn.step] at hstep
    split at hstep
    next => exact nomatch hstep
    next =>
      obtain rfl := Option.some.inj hstep
      exact h.arrived bytes
  | finish =>
    obtain rfl := Option.some.inj hstep
    exact h.finished
  | greet g =>
    simp only [Conn.step] at hstep
    split at hstep
    next hpoint =>
      obtain rfl := Option.some.inj hstep
      unfold Sound at h
      rw [hpoint] at h
      exact greet_sound h.1 h.2 g
    next => exact nomatch hstep
  | drained outcome =>
    simp only [Conn.step] at hstep
    unfold Sound at h
    split at hstep
    next hpoint =>
      obtain rfl := Option.some.inj hstep
      rw [hpoint] at h
      exact again_sound h
    next hpoint =>
      obtain rfl := Option.some.inj hstep
      rw [hpoint] at h
      exact again_sound h
    next f hpoint =>
      obtain rfl := Option.some.inj hstep
      rw [hpoint] at h
      exact h.fail f
    next f hpoint =>
      obtain rfl := Option.some.inj hstep
      rw [hpoint] at h
      exact h.fail f
    next hpoint =>
      obtain rfl := Option.some.inj hstep
      rw [hpoint] at h
      obtain ⟨rest,answered,pending,greeting,failure,h⟩ := h
      exact (h.moved .closing c.buffer c.eof).sound rfl
    next => exact nomatch hstep
  | read nowMs => exact read_sound h (howns nowMs rfl) hstep
  | interrupt f =>
    simp only [Conn.step] at hstep
    unfold Sound at h
    split at hstep
    next hpoint =>
      obtain rfl := Option.some.inj hstep
      rw [hpoint] at h
      exact h.fail f
    next size hpoint =>
      obtain rfl := Option.some.inj hstep
      rw [hpoint] at h
      exact h.fail f
    next => exact nomatch hstep
  | served outcome =>
    simp only [Conn.step] at hstep
    unfold Sound at h
    split at hstep
    next requestId hpoint =>
      obtain rfl := Option.some.inj hstep
      rw [hpoint] at h
      obtain ⟨answered,inv,hinv,h⟩ := h
      exact reply_sound hinv h outcome
    next => exact nomatch hstep
  | closed =>
    simp only [Conn.step] at hstep
    split at hstep
    next hpoint =>
      obtain rfl := Option.some.inj hstep
      obtain ⟨_,_,_,_,_,h⟩ := h.account
      exact (h.moved .finished c.buffer c.eof).sound rfl
    next => exact nomatch hstep

/-! After a failure nothing is written or dispatched any more. -/

theorem replies_error {answered : List Invocation} {replies : List Sent} {code : ServiceErrorCode}
    (h : List.Forall₂ Replies answered replies) : Sent.error code ∉ replies := by
  induction h with
  | nil => exact List.not_mem_nil
  | cons hreply _ ih =>
    obtain ⟨result,rfl⟩ := hreply
    simpa using ih

theorem Account.error {rest : Bytes} {answered pending : List Invocation} {greeting : List Sent} {code : ServiceErrorCode}
    (h : Account server c rest answered pending greeting []) : Sent.error code ∉ c.written := by
  obtain ⟨replies,hreplies,hwritten⟩ := h.written
  have hgreeting : Sent.error code ∉ greeting := by
    obtain ⟨rfl,_⟩ | ⟨grant,_,rfl⟩ := h.greeting
    · exact List.not_mem_nil
    · simp [Grant.hello]
  rw [hwritten,List.append_nil,List.mem_append,not_or]
  exact ⟨hgreeting,replies_error hreplies⟩

theorem Sound.ended {code : ServiceErrorCode} (h : Sound server c) (herror : Sent.error code ∈ c.written) : c.point.ended := by
  obtain ⟨point,_,_,_,_,_,_,_,_⟩ := c
  cases point with
  | accepted => exact absurd herror h.2.error
  | greeting | header | replying | body =>
    obtain ⟨_,_,h⟩ := h
    exact absurd herror h.error
  | serving =>
    obtain ⟨_,_,_,_,_,h⟩ := h
    exact absurd herror h.error
  | failing | closing | finished => rfl

theorem ended_step {a : Conn.Action} (hended : c.point.ended) (hstep : c.step server a = some c') :
    c'.point.ended ∧ c'.invocations = c.invocations ∧ c'.written = c.written := by
  obtain ⟨point,_,_,_,_,eof,_,_,_⟩ := c
  cases a with
  | arrive bytes =>
    cases eof with
    | false =>
      obtain rfl := Option.some.inj hstep
      exact ⟨hended,rfl,rfl⟩
    | true => exact nomatch hstep
  | finish =>
    obtain rfl := Option.some.inj hstep
    exact ⟨hended,rfl,rfl⟩
  | greet | read | interrupt | served =>
    cases point with
    | failing | closing | finished => exact nomatch hstep
    | accepted | greeting | header | body | serving | replying => exact nomatch hended
  | drained outcome =>
    cases point with
    | failing =>
      obtain rfl := Option.some.inj hstep
      exact ⟨rfl,rfl,rfl⟩
    | closing | finished => exact nomatch hstep
    | accepted | greeting | header | body | serving | replying => exact nomatch hended
  | closed =>
    cases point with
    | closing =>
      obtain rfl := Option.some.inj hstep
      exact ⟨rfl,rfl,rfl⟩
    | failing | finished => exact nomatch hstep
    | accepted | greeting | header | body | serving | replying => exact nomatch hended

/-! Only the greeting grants anything. -/

theorem write_grant {frame : Sent} {next : Point} (h : c.write server frame next = .ok c') : c'.grant = c.grant := by
  obtain ⟨_,_,rfl⟩ := write_ok h
  rfl

@[simp] theorem fail_grant (f : Failure) : (c.fail server f).grant = c.grant := by
  unfold Conn.fail
  cases f.answer with
  | none => rfl
  | some code =>
    dsimp only
    cases hwrite : c.write server (.error code) .failing with
    | error e => rfl
    | ok d => exact write_grant hwrite

@[simp] theorem send_grant (frame : Sent) (next : Point) : (c.send server frame next).grant = c.grant := by
  unfold Conn.send
  cases hwrite : c.write server frame next with
  | error f => exact fail_grant f
  | ok d => exact write_grant hwrite

@[simp] theorem again_grant : c.again.grant = c.grant := by
  unfold Conn.again
  split <;> rfl

@[simp] theorem reply_grant (requestId : String) (outcome : Except Failure ServiceResult) :
    (c.reply server requestId outcome).grant = c.grant := by
  unfold Conn.reply
  cases outcome with
  | error f => exact fail_grant f
  | ok result =>
    dsimp only
    cases resultJson result with
    | error f => exact fail_grant f
    | ok value => exact send_grant _ _

@[simp] theorem handle_grant (grant : Grant) (payload : Bytes) (nowMs : ℤ) :
    (c.handle server grant payload nowMs).grant = c.grant := by
  unfold Conn.handle Conn.dispatch
  repeat' split
  all_goals first | exact fail_grant _ | rfl

theorem read_grant {nowMs : ℤ} (h : c.read server nowMs = some c') : c'.grant = c.grant := by
  unfold Conn.read at h
  split at h
  next =>
    dsimp only at h
    split at h
    · split at h
      · obtain rfl := Option.some.inj h
        exact fail_grant _
      · obtain rfl := Option.some.inj h
        rfl
    · split at h
      · obtain rfl := Option.some.inj h
        exact fail_grant _
      · exact nomatch h
  next =>
    split at h
    · obtain rfl := Option.some.inj h
      exact handle_grant _ _ _
    · split at h
      · obtain rfl := Option.some.inj h
        exact fail_grant _
      · exact nomatch h
  next => exact nomatch h

theorem greet_grant {g : Greeting} {grant : Grant} (h : (c.greet server g).grant = some grant) :
    c.grant = some grant ∨ grant.binding = g.binding := by
  unfold Conn.greet at h
  dsimp only at h
  split at h
  · rw [fail_grant] at h
    exact .inl h
  · split at h
    · rw [fail_grant] at h
      exact .inl h
    · split at h
      · rw [fail_grant] at h
        exact .inl h
      · rw [send_grant] at h
        exact .inr (by rw [← Option.some.inj h])

/-- A grant that a step leads to was there before, or it has the binding of this greeting. -/
theorem step_grant {a : Conn.Action} {grant : Grant} (hstep : c.step server a = some c') (h : c'.grant = some grant) :
    c.grant = some grant ∨ ∃ g, a = .greet g ∧ grant.binding = g.binding := by
  cases a with
  | greet g =>
    simp only [Conn.step,Option.ite_none_right_eq_some] at hstep
    obtain rfl := Option.some.inj hstep.2
    exact (greet_grant h).imp_right fun hbinding => ⟨g,rfl,hbinding⟩
  | read nowMs =>
    rw [← read_grant hstep]
    exact .inl h
  | arrive | finish | drained | interrupt | served | closed =>
    simp only [Conn.step] at hstep
    repeat' split at hstep
    all_goals first | (obtain rfl := Option.some.inj hstep; exact .inl (by simpa using h)) | exact nomatch hstep

/-! All connections. -/

/-- A connection is recognised by its binding. -/
def Distinct (w : Connections) : Prop := ∀ i j grant grant', (w i).grant = some grant → (w j).grant = some grant' →
  grant.binding = grant'.binding → i = j

/-- No one but the authority makes a MAC: behind a token in this frame whose MAC verifies are the claims of a
connection. -/
def Unforged (server : UnixServiceServer) (w : Connections) (payload : Bytes) : Prop :=
  ∀ request token claims, decodePayload server.lib payload = .ok request →
    Json.asString (Json.field request "capability") = some token →
    parseCapability token = some (claims,server.lib.sign claims) →
    ∃ j grant, (w j).grant = some grant ∧ claims = server.lib.claimsText (grant.claims server.keyId)

/-- A new binding differs from all others, and no frame holds a forged MAC. -/
def Honest (server : UnixServiceServer) (w : Connections) (a : ℕ × Conn.Action) : Prop :=
  match a.2 with
  | .greet g => ∀ j grant, (w j).grant = some grant → grant.binding ≠ g.binding
  | .read _ => ∀ size, (w a.1).point = .body size → size ≤ (w a.1).buffer.length →
    Unforged server w ((w a.1).buffer.take size)
  | _ => True

/-- A token that verifies on a connection is the one that was issued on it. -/
theorem Distinct.owns {w : Connections} {i : ℕ} {grant : Grant} {payload : Bytes} {nowMs : ℤ} (hreads : server.lib.ReadsClaims)
    (hdistinct : Distinct w) (hgrant : (w i).grant = some grant) (hunforged : Unforged server w payload) :
    Owns server grant payload nowMs := by
  intro request token context hdecode htoken hverify
  obtain ⟨claims,value,heq,hparse,hread,hcheck⟩ := verify_ok hverify
  obtain ⟨j,grant',hgrant',rfl⟩ := hunforged request token claims hdecode htoken hparse
  obtain ⟨value',hread',hsame⟩ := hreads (grant'.claims server.keyId) issuedClaims_distinct issuedClaims_integral
  obtain rfl := Except.ok.inj (hread.symm.trans hread')
  obtain ⟨hbinding,hafter,hbefore⟩ := Grant.accepted hsame hcheck
  obtain rfl := hdistinct j i grant' grant hgrant' hgrant hbinding
  obtain rfl := Option.some.inj (hgrant'.symm.trans hgrant)
  exact ⟨heq,hafter,hbefore⟩

theorem step_connections {w w' : Connections} {a : ℕ × Conn.Action} (h : Connections.step server w a = some w') :
    ∃ c, (w a.1).step server a.2 = some c ∧ w' = Function.update w a.1 c := by
  obtain ⟨c,hc,rfl⟩ := Option.map_eq_some_iff.mp h
  exact ⟨c,hc,rfl⟩

theorem step_distinct {w w' : Connections} {a : ℕ × Conn.Action} (h : Distinct w) (hhonest : Honest server w a)
    (hstep : Connections.step server w a = some w') : Distinct w' := by
  obtain ⟨c,hc,rfl⟩ := step_connections hstep
  have hnew : ∀ grant, c.grant = some grant → (w a.1).grant = some grant ∨
      ∀ j grant', (w j).grant = some grant' → grant'.binding ≠ grant.binding := by
    intro grant hgrant
    rcases step_grant hc hgrant with hold | ⟨g,ha,hbinding⟩
    · exact .inl hold
    · right
      intro j grant' hgrant'
      have hfresh : ∀ j grant, (w j).grant = some grant → grant.binding ≠ g.binding := by
        unfold Honest at hhonest
        rwa [ha] at hhonest
      rw [hbinding]
      exact hfresh j grant' hgrant'
  intro i j grant grant' hi hj hbinding
  by_cases hia : i = a.1 <;> by_cases hja : j = a.1
  · rw [hia,hja]
  · subst hia
    rw [Function.update_self] at hi
    rw [Function.update_of_ne hja] at hj
    rcases hnew grant hi with hold | hfresh
    · exact h _ _ _ _ hold hj hbinding
    · exact absurd hbinding.symm (hfresh j grant' hj)
  · subst hja
    rw [Function.update_of_ne hia] at hi
    rw [Function.update_self] at hj
    rcases hnew grant' hj with hold | hfresh
    · exact h _ _ _ _ hi hold hbinding
    · exact absurd hbinding (hfresh i grant hi)
  · rw [Function.update_of_ne hia] at hi
    rw [Function.update_of_ne hja] at hj
    exact h _ _ _ _ hi hj hbinding

theorem connections_sound (hreads : server.lib.ReadsClaims) {w : Connections}
    (hw : ReachableWith (Connections.step server) (Honest server) Connections.Init w) :
    Distinct w ∧ ∀ i, Sound server (w i) := by
  refine hw.invariant (I := fun w => Distinct w ∧ ∀ i, Sound server (w i)) ?_ ?_
  · rintro w rfl
    refine ⟨fun i j grant grant' hi => (nomatch hi),fun i => ?_⟩
    refine ⟨rfl,rfl,rfl,⟨[],.nil,rfl⟩,⟨[],.nil,rfl⟩,by simp,.inl rfl,.inl ⟨rfl,rfl⟩,?_,?_⟩
    · intro grant hgrant
      exact nomatch hgrant
    · intro inv hinv
      exact nomatch hinv
  · rintro w a w' ⟨hdistinct,hsound⟩ hhonest hstep
    refine ⟨step_distinct hdistinct hhonest hstep,fun i => ?_⟩
    obtain ⟨c,hc,rfl⟩ := step_connections hstep
    by_cases hi : i = a.1
    · subst hi
      rw [Function.update_self]
      apply step_sound (hsound a.1) ?_ hc
      intro nowMs ha size grant hpoint hgrant hlength
      unfold Honest at hhonest
      rw [ha] at hhonest
      exact hdistinct.owns hreads hgrant (hhonest size hpoint hlength)
    · rw [Function.update_of_ne hi]
      exact hsound i

theorem ended_steps {ok : Connections → ℕ × Conn.Action → Prop} {w w' : Connections} {i : ℕ} (hended : (w i).point.ended)
    (h : Steps (Connections.step server) ok w w') :
    (w' i).invocations = (w i).invocations ∧ (w' i).written = (w i).written := by
  have hall := h.invariant (I := fun w' => (w' i).point.ended ∧ (w' i).invocations = (w i).invocations ∧
    (w' i).written = (w i).written) ?_ ⟨hended,rfl,rfl⟩
  · exact hall.2
  · rintro v a v' ⟨hpoint,hinvocations,hwritten⟩ _ hstep
    obtain ⟨c,hc,rfl⟩ := step_connections hstep
    by_cases hi : i = a.1
    · subst hi
      rw [Function.update_self]
      obtain ⟨hpoint',hinvocations',hwritten'⟩ := ended_step hpoint hc
      exact ⟨hpoint',hinvocations'.trans hinvocations,hwritten'.trans hwritten⟩
    · rw [Function.update_of_ne hi]
      exact ⟨hpoint,hinvocations,hwritten⟩

/-- The authority of a call is the one of its connection, and the handler writes a greeting, the replies and one error
at most, after which nothing is called and nothing is written. -/
theorem authority_bound (hreads : server.lib.ReadsClaims) {w : Connections}
    (hw : ReachableWith (Connections.step server) (Honest server) Connections.Init w) (i : ℕ) :
    (∃ rest answered pending greeting failure, Account server (w i) rest answered pending greeting failure) ∧
      ∀ code, Sent.error code ∈ (w i).written → ∀ w', Steps (Connections.step server) anyStep w w' →
        (w' i).invocations = (w i).invocations ∧ (w' i).written = (w i).written := by
  have hsound := (connections_sound hreads hw).2 i
  refine ⟨hsound.account,fun code herror w' hrun => ?_⟩
  exact ended_steps (hsound.ended herror) hrun

/-! A connection on which the health of the service is asked for. -/

def examplePrincipal : Principal := ⟨"deploy","home","alice",by decide⟩

def exampleGreeting : Greeting where
  uid := .ok 501
  principal := .ok examplePrincipal
  binding := "aaaaaaaaaaaaaaaaaaaaaaaaaaaaaaaaaaaaaaaaaaaaaaaaaaaaaaaaaaaaaaaa"
  nonce := "bbbbbbbbbbbbbbbbbbbbbbbbbbbbbbbb"
  nowMs := 1700000000000

def exampleKeyId : String := "f08bc66fa5bac327bf0156636aad1203"

def exampleClaims : Json.Object :=
  (Grant.mk 501 examplePrincipal exampleGreeting.binding exampleGreeting.nonce exampleGreeting.nowMs).claims exampleKeyId

/-- The MAC of the claims of the example. -/
def exampleSign (claims : String) : String :=
  if claims = String.ofList (b64 (utf8 (sortedText exampleClaims))) then
    "e418f5146ba462d52da1800ee871b1c5afced4e70b59935634535c9ea404f48f"
  else "0000000000000000000000000000000000000000000000000000000000000000"

theorem exampleSign_digits (claims : String) :
    (exampleSign claims).length = 64 ∧ ∀ d ∈ (exampleSign claims).toList, d.toNat < 128 := by
  unfold exampleSign
  by_cases h : claims = String.ofList (b64 (utf8 (sortedText exampleClaims)))
  · rw [if_pos h,← String.length_toList]
    refine ⟨?_,ascii_of_all rfl (by decide)⟩
    rw [Text.toList_eq rfl]
    decide
  · rw [if_neg h,← String.length_toList]
    refine ⟨?_,ascii_of_all rfl (by decide)⟩
    rw [Text.toList_eq rfl]
    decide

noncomputable def exampleServer : UnixServiceServer := ⟨jsonLibrary exampleSign,501,exampleKeyId⟩

def exampleGrant : Grant := ⟨501,examplePrincipal,exampleGreeting.binding,exampleGreeting.nonce,exampleGreeting.nowMs⟩

theorem exampleClaims_length : (sortedText (exampleGrant.claims exampleKeyId)).length ≤ 400 := by decide +kernel

theorem exampleToken_length : (exampleGrant.token exampleServer.lib exampleServer.keyId).length ≤ 3300 := by
  have htoken := length_token_le exampleSign exampleKeyId exampleGrant fun claims => (exampleSign_digits claims).1
  have hclaims := exampleClaims_length
  show (exampleGrant.token (jsonLibrary exampleSign) exampleKeyId).length ≤ 3300
  omega

theorem exampleHello_fits : ∃ payload, exampleServer.lib.dumps (exampleGrant.hello exampleServer).json = some payload ∧
    payload.length ≤ frameMaxBytes := by
  apply jsonLibrary_frame
  · rfl
  · have hbinding : exampleGrant.binding.length ≤ 1000 := by decide
    have htoken := exampleToken_length.trans (show 3300 ≤ 10000 by omega)
    exact hello_fits hbinding htoken

/-- Nothing happens on the other connections. -/
def only (c : Conn) : Connections := Function.update (fun _ => {}) 0 c

theorem only_step {a : Conn.Action} (h : c.step server a = some c') :
    Connections.step server (only c) (0,a) = some (only c') := by
  unfold Connections.step only
  rw [Function.update_self,h,Option.map_some,Function.update_idem]

theorem exampleRequest_fits : ∃ payload, exampleServer.lib.dumps (ServiceCall.health.frame "6f1c"
    (exampleGrant.token exampleServer.lib exampleServer.keyId)) = some payload ∧ payload.length ≤ frameMaxBytes := by
  apply jsonLibrary_frame (ServiceCall.frame_integral _ _ _)
  have htoken := exampleToken_length.trans (show 3300 ≤ 10000 by omega)
  exact health_fits (by decide) htoken

theorem exampleVerified : ∃ context, verify exampleServer.lib exampleServer.keyId
    (exampleGrant.token exampleServer.lib exampleServer.keyId) exampleGrant.binding exampleGreeting.nowMs = .ok context ∧
      context.principal = exampleGrant.principal := by
  apply Grant.verified jsonLibrary_claims (jsonLibrary_signs exampleSign_digits)
  · exact ascii_of_all rfl (by decide)
  · exact le_refl _
  · exact Int.le_add_of_nonneg_right (by decide)

/-- Behind the token of the example are the claims of its grant. -/
theorem exampleUnforged {payload : Bytes} {value : Json} {w : Connections} (hload : exampleServer.lib.loads payload = .ok value)
    (hsame : SameJson (.obj (ServiceCall.health.frame "6f1c" (exampleGrant.token exampleServer.lib exampleServer.keyId)))
      value) (hgrant : (w 0).grant = some exampleGrant) : Unforged exampleServer w payload := by
  intro request token claims hdecode htoken hparse
  obtain ⟨members,rfl,hfields⟩ := sameFields_of_same (ServiceCall.frame_distinct _ _ _) hsame
  have hrequest : request = members := by
    unfold decodePayload at hdecode
    split at hdecode
    · exact nomatch hdecode
    · rw [hload] at hdecode
      exact (Except.ok.inj hdecode).symm
  rw [hrequest,hfields.str (k := "capability") rfl] at htoken
  obtain rfl := Option.some.inj htoken
  obtain ⟨hclaims,hdot⟩ := (jsonLibrary_signs exampleSign_digits).claims (exampleGrant.claims exampleServer.keyId)
  obtain ⟨hlength,_⟩ := (jsonLibrary_signs exampleSign_digits).mac
    (exampleServer.lib.claimsText (exampleGrant.claims exampleServer.keyId))
  have hown := (parseCapability_token hclaims hdot hlength).symm.trans hparse
  exact ⟨0,exampleGrant,hgrant,(Prod.mk.inj (Option.some.inj hown)).1.symm⟩

theorem example_run : ∃ w, ReachableWith (Connections.step exampleServer) (Honest exampleServer) Connections.Init w ∧
    (w 0).invocations.map Invocation.call = [.health] := by
  obtain ⟨hello,hhello,hhelloSize⟩ := exampleHello_fits
  obtain ⟨payload,hpayload,hsize⟩ := exampleRequest_fits
  obtain ⟨value,hload,hsame⟩ := jsonLibrary_frames _ payload (ServiceCall.frame_distinct _ _ _)
    (ServiceCall.frame_integral _ _ _) hpayload
  let c₁ : Conn := { point := .greeting, met := some exampleGreeting, grant := some exampleGrant,
                     written := [exampleGrant.hello exampleServer], output := framed hello }
  let c₂ : Conn := { c₁ with point := .header, received := framed payload, buffer := framed payload }
  let c₃ : Conn := { c₂ with point := .body payload.length, buffer := payload }
  obtain ⟨inv,hcall,hhandle⟩ : ∃ inv : Invocation, inv.call = .health ∧
      { c₃ with buffer := [] }.handle exampleServer exampleGrant payload exampleGreeting.nowMs =
        { c₃ with point := .serving "6f1c", buffer := [], invocations := [inv] } :=
    handle_frame hsize hload hsame exampleVerified
  let c₄ : Conn := { c₃ with point := .serving "6f1c", buffer := [], invocations := [inv] }
  have hinit : only {} = fun _ => {} := Function.update_eq_self 0 _
  have h₀ : ReachableWith (Connections.step exampleServer) (Honest exampleServer) Connections.Init (only {}) := .of_init hinit
  have h₁ : ReachableWith (Connections.step exampleServer) (Honest exampleServer) Connections.Init (only c₁) := by
    have hgreet : ({} : Conn).greet exampleServer exampleGreeting = c₁ := greet_ok rfl rfl (encodeFrame_ok hhello hhelloSize)
    refine h₀.tail (a := (0,.greet exampleGreeting)) ?_ (only_step (congrArg some hgreet))
    intro j grant hnone
    rw [hinit] at hnone
    exact nomatch hnone
  have h₂ : ReachableWith (Connections.step exampleServer) (Honest exampleServer) Connections.Init (only c₂) := by
    have hstep : Connections.step exampleServer (only c₁) (0,.drained (.ok ())) = some (only { c₁ with point := .header }) :=
      only_step rfl
    have hdrained := h₁.tail (by trivial) hstep
    exact hdrained.tail (a := (0,.arrive (framed payload))) (by trivial) (only_step rfl)
  have h₃ : ReachableWith (Connections.step exampleServer) (Honest exampleServer) Connections.Init (only c₃) := by
    have hread : c₂.read exampleServer exampleGreeting.nowMs = some c₃ := read_header_ok rfl rfl hsize
    refine h₂.tail (a := (0,.read exampleGreeting.nowMs)) ?_ (only_step hread)
    intro size hpoint
    exact nomatch hpoint
  have h₄ : ReachableWith (Connections.step exampleServer) (Honest exampleServer) Connections.Init (only c₄) := by
    have hread : c₃.read exampleServer exampleGreeting.nowMs = some c₄ := by
      rw [read_body_ok rfl rfl (List.append_nil payload).symm,hhandle]
    refine h₃.tail (a := (0,.read exampleGreeting.nowMs)) ?_ (only_step hread)
    intro size hpoint hle
    obtain rfl := Point.body.inj hpoint
    have htake : c₃.buffer.take payload.length = payload := List.take_length
    have hunforged := exampleUnforged (w := only c₃) hload hsame rfl
    rw [← htake] at hunforged
    exact hunforged
  exact ⟨only c₄,h₄,by rw [← hcall]; rfl⟩

/-- The authority of this one call is the one of its connection. -/
theorem authority_bound_health : ∃ w, (w 0).invocations.map Invocation.call = [.health] ∧
    ((∃ rest answered pending greeting failure, Account exampleServer (w 0) rest answered pending greeting failure) ∧
      ∀ code, Sent.error code ∈ (w 0).written → ∀ w', Steps (Connections.step exampleServer) anyStep w w' →
        (w' 0).invocations = (w 0).invocations ∧ (w' 0).written = (w 0).written) := by
  obtain ⟨w,hw,hcalls⟩ := example_run
  exact ⟨w,hcalls,authority_bound jsonLibrary_claims hw 0⟩

end UnixService
end HarnessSdk
