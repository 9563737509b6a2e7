import HarnessSdk.ServiceServer

/-!
# The authority of a connection

A method of the service is only called for a request that carries the capability of its own connection: the claims
behind a MAC that verifies were signed for some connection, and they name its binding.
-/

namespace HarnessSdk
namespace UnixService

open Local (beBytes beNat length_beBytes)
open Transition (ReachableWith Steps)

variable {server : UnixServiceServer} {c c' : Conn}

/-! Capabilities. -/

theorem dropWhile_head {α : Type} {p : α → Bool} {l rest : List α} {a : α} (h : l.dropWhile p = a :: rest) :
    p a = false := by
  induction l with
  | nil => exact nomatch h
  | cons b l ih =>
    by_cases hb : p b
    · rw [List.dropWhile_cons_of_pos hb] at h
      exact ih h
    · rw [List.dropWhile_cons_of_neg hb] at h
      rw [← (List.cons.inj h).1]
      simpa using hb

/-- A token that is parsed is its claims, a dot and its MAC. -/
theorem parseCapability_eq {token claims mac : String} (h : parseCapability token = some (claims,mac)) :
    token = tokenOf claims mac := by
  unfold parseCapability at h
  cases hdrop : token.toList.dropWhile (· ≠ '.') with
  | nil =>
    rw [hdrop] at h
    exact nomatch h
  | cons d rest =>
    have hdot : d = '.' := by simpa using dropWhile_head hdrop
    rw [hdrop] at h
    dsimp only at h
    split at h
    · exact nomatch h
    · obtain ⟨hclaims,hmac⟩ := Prod.mk.inj (Option.some.inj h)
      apply String.toList_injective
      have hsplit := List.takeWhile_append_dropWhile (p := (· ≠ '.')) (l := token.toList)
      rw [hdrop,hdot] at hsplit
      rw [← hsplit,tokenOf,← hclaims,← hmac]
      simp only [String.toList_append,String.toList_ofList,List.append_assoc]
      rfl

theorem parseCapability_token {claims mac : String} (hclaims : claims ≠ "") (hdot : '.' ∉ claims.toList)
    (hmac : mac.length = 64) : parseCapability (tokenOf claims mac) = some (claims,mac) := by
  have hlist : (tokenOf claims mac).toList = claims.toList ++ '.' :: mac.toList := by
    rw [tokenOf,String.toList_append,String.toList_append,List.append_assoc]
    rfl
  have hall : ∀ d ∈ claims.toList, decide (d ≠ '.') = true := by
    intro d hd
    rw [decide_eq_true_eq]
    rintro rfl
    exact hdot hd
  have htake : (tokenOf claims mac).toList.takeWhile (· ≠ '.') = claims.toList := by
    rw [hlist,List.takeWhile_append_of_pos hall,List.takeWhile_cons_of_neg (by simp),List.append_nil]
  have hdrop : (tokenOf claims mac).toList.dropWhile (· ≠ '.') = '.' :: mac.toList := by
    rw [hlist,List.dropWhile_append_of_pos hall,List.dropWhile_cons_of_neg (by simp)]
  have hsome : claims.toList ≠ [] := by
    intro hnil
    exact hclaims (String.toList_injective hnil)
  have hlength : mac.toList.length = 64 := by
    rw [String.length_toList]
    exact hmac
  unfold parseCapability
  rw [htake,hdrop]
  dsimp only
  rw [if_neg (by simp only [List.isEmpty_iff,hsome,hlength,not_true,ne_eq,or_self,not_false_eq_true])]
  simp

theorem compareInt_int (n m : ℤ) : compareInt n (.int m) = some (some (if m < n then Ordering.lt else if n < m then .gt else .eq)) := by
  simp only [compareInt,Json.numeric,Json.number,Option.map_some,Rat.intCast_lt_intCast]

theorem Principal.make_eq {deploymentId householdId actorId : String} {p : Principal}
    (h : make deploymentId householdId actorId = some p) :
    deploymentId = p.deploymentId ∧ householdId = p.householdId ∧ actorId = p.actorId := by
  unfold make at h
  split at h
  · obtain rfl := Option.some.inj h
    exact ⟨rfl,rfl,rfl⟩
  · exact nomatch h

/-- Both texts are ASCII and equal. -/
theorem compareDigest_true {a b : String} (h : compareDigest a b = some true) : a = b := by
  unfold compareDigest at h
  split at h
  · simpa using h
  · exact nomatch h

/-- What the claims say when they are accepted. -/
structure Accepts (keyId : String) (claims : Json.Object) (binding : String) (nowMs : ℤ) (context : AuthenticatedContext) :
    Prop where
  version : Json.equals (Json.field claims "v") (.int 1)
  key : Json.field claims "kid" = some (.str keyId)
  times : ∃ issued expires, (Json.field claims "iat_ms").bind (compareInt nowMs) = some issued ∧
    (Json.field claims "exp_ms").bind (compareInt nowMs) = some expires ∧ issued ≠ some .gt ∧ expires ≠ some .lt
  channel : Json.field claims "binding" = some (.str binding)
  ascii : compareDigest binding binding = some true
  principal : Json.field claims "deployment_id" = some (.str context.principal.deploymentId) ∧
    Json.field claims "household_id" = some (.str context.principal.householdId) ∧
    Json.field claims "actor_id" = some (.str context.principal.actorId)
  nonce : Json.field claims "nonce" = some context.nonce
  bound : context.channelBinding = binding

theorem checkClaims_ok {keyId binding : String} {claims : Json} {nowMs : ℤ} {context : AuthenticatedContext}
    (h : checkClaims keyId claims binding nowMs = .ok context) :
    ∃ members, claims = .obj members ∧ Accepts keyId members binding nowMs context := by
  have hsome : ∀ {o : Option (Except Failure AuthenticatedContext)},
      o.getD (.error (.service .unauthenticated)) = .ok context → o = some (.ok context) := by
    intro o ho
    cases o with
    | none => exact nomatch ho
    | some x => rw [← ho]; rfl
  have h := hsome h
  obtain ⟨members,hmembers,h⟩ := Option.bind_eq_some_iff.mp h
  have hclaims : claims = .obj members := by
    cases claims with
    | obj members' => rw [Option.some.inj hmembers]
    | null | bool | int | float | nonfinite | str | arr => exact nomatch hmembers
  split at h
  · exact nomatch h
  rename_i hheader
  obtain ⟨issued,hissued,h⟩ := Option.bind_eq_some_iff.mp h
  obtain ⟨expires,hexpires,h⟩ := Option.bind_eq_some_iff.mp h
  split at h
  · exact nomatch h
  rename_i htimes
  obtain ⟨channel,hchannel,h⟩ := Option.bind_eq_some_iff.mp h
  obtain ⟨same,hsame,h⟩ := Option.bind_eq_some_iff.mp h
  cases same with
  | false => exact nomatch Option.some.inj h
  | true =>
    obtain ⟨deploymentId,hdeployment,h⟩ := Option.bind_eq_some_iff.mp h
    obtain ⟨householdId,hhousehold,h⟩ := Option.bind_eq_some_iff.mp h
    obtain ⟨actorId,hactor,h⟩ := Option.bind_eq_some_iff.mp h
    obtain ⟨principal,hprincipal,h⟩ := Option.bind_eq_some_iff.mp h
    obtain ⟨nonce,hnonce,h⟩ := Option.bind_eq_some_iff.mp h
    obtain rfl := Except.ok.inj (Option.some.inj h)
    obtain ⟨rfl,rfl,rfl⟩ := Principal.make_eq hprincipal
    obtain rfl := compareDigest_true hsame
    simp only [Bool.not_eq_true',Bool.not_eq_false,Bool.and_eq_true] at hheader
    have hkid : Json.asString (Json.field members "kid") = some keyId := of_decide_eq_true hheader.2
    refine ⟨members,hclaims,hheader.1,Json.asString_eq_some.mp hkid,⟨issued,expires,hissued,hexpires,?_,?_⟩,
      Json.asString_eq_some.mp hchannel,hsame,⟨Json.asString_eq_some.mp hdeployment,Json.asString_eq_some.mp hhousehold,
      Json.asString_eq_some.mp hactor⟩,hnonce,rfl⟩
    · exact fun hgt => htimes (.inl hgt)
    · exact fun hlt => htimes (.inr hlt)

/-- A token that is verified has the MAC of its claims, and the claims are accepted. -/
theorem verify_ok {lib : Library} {keyId token binding : String} {nowMs : ℤ} {context : AuthenticatedContext}
    (h : verify lib keyId token binding nowMs = .ok context) : ∃ claims value, token = tokenOf claims (lib.sign claims) ∧
      parseCapability token = some (claims,lib.sign claims) ∧ lib.readClaims claims = .ok value ∧
      checkClaims keyId value binding nowMs = .ok context := by
  unfold verify at h
  cases hparse : parseCapability token with
  | none =>
    rw [hparse] at h
    exact nomatch h
  | some parts =>
    obtain ⟨claims,mac⟩ := parts
    rw [hparse] at h
    dsimp only at h
    cases hcompare : compareDigest mac (lib.sign claims) with
    | none =>
      rw [hcompare] at h
      exact nomatch h
    | some same =>
      rw [hcompare] at h
      cases same with
      | false => exact nomatch h
      | true =>
        have hmac := compareDigest_true hcompare
        dsimp only at h
        cases hread : lib.readClaims claims with
        | error e =>
          rw [hread] at h
          cases e with
          | notJson | value | other => exact nomatch h
        | ok value =>
          rw [hread] at h
          have heq := parseCapability_eq hparse
          rw [hmac] at heq
          exact ⟨claims,value,heq,by rw [hmac],hread,h⟩

/-- The claims of a capability are read as what was written. -/
def Library.ReadsClaims (lib : Library) : Prop := ∀ claims : Json.Object, distinctNames (.obj claims) →
  JsonText.integral (.obj claims) → ∃ value, lib.readClaims (lib.claimsText claims) = .ok value ∧ SameJson (.obj claims) value

/-- A frame is read as what was written. -/
def Library.ReadsFrames (lib : Library) : Prop := ∀ (frame : Json.Object) (payload : Bytes), distinctNames (.obj frame) →
  JsonText.integral (.obj frame) → lib.dumps frame = some payload →
  ∃ value, lib.loads payload = .ok value ∧ SameJson (.obj frame) value

/-- The claims of a capability that is valid from one time to another. -/
def issuedClaims (keyId : String) (principal : Principal) (binding nonce : String) (issuedMs expiresMs : ℤ) : Json.Object :=
  [("v",.int 1), ("kid",.str keyId), ("deployment_id",.str principal.deploymentId), ("household_id",.str principal.householdId),
    ("actor_id",.str principal.actorId), ("binding",.str binding), ("nonce",.str nonce), ("iat_ms",.int issuedMs),
    ("exp_ms",.int expiresMs)]

section Issued

variable {keyId binding nonce : String} {principal : Principal} {issuedMs expiresMs : ℤ}

theorem Grant.claims_eq (keyId : String) (g : Grant) :
    g.claims keyId = issuedClaims keyId g.principal g.binding g.nonce g.issuedMs (g.issuedMs + ttlMs) := rfl

theorem issuedClaims_distinct : distinctNames (.obj (issuedClaims keyId principal binding nonce issuedMs expiresMs)) := by
  simp [distinctNames,distinctMembers,issuedClaims]

theorem issuedClaims_integral : JsonText.integral (.obj (issuedClaims keyId principal binding nonce issuedMs expiresMs)) := by
  simp [JsonText.integral,JsonText.integralMembers,issuedClaims]

end Issued

/-- The claims of a capability that are accepted name its binding, at a time at which it is valid. -/
theorem Grant.accepted {g : Grant} {keyId binding : String} {nowMs : ℤ} {context : AuthenticatedContext} {value : Json}
    (hsame : SameJson (.obj (g.claims keyId)) value) (h : checkClaims keyId value binding nowMs = .ok context) :
    g.binding = binding ∧ g.issuedMs ≤ nowMs ∧ nowMs ≤ g.issuedMs + ttlMs := by
  obtain ⟨members,rfl,hfields⟩ := sameFields_of_same issuedClaims_distinct hsame
  obtain ⟨members',hmembers,haccepts⟩ := checkClaims_ok h
  obtain rfl := Json.obj.inj hmembers
  obtain ⟨issued,expires,hissued,hexpires,hafter,hbefore⟩ := haccepts.times
  rw [hfields.int (k := "iat_ms") (n := g.issuedMs) rfl,Option.bind_some,compareInt_int] at hissued
  rw [hfields.int (k := "exp_ms") (n := g.issuedMs + ttlMs) rfl,Option.bind_some,compareInt_int] at hexpires
  have hbinding := haccepts.channel
  rw [hfields.str (k := "binding") (s := g.binding) rfl] at hbinding
  obtain rfl := Option.some.inj hissued
  obtain rfl := Option.some.inj hexpires
  refine ⟨Json.str.inj (Option.some.inj hbinding),not_lt.mp fun hlt => ?_,not_lt.mp fun hlt => ?_⟩
  · exact hafter (by rw [if_neg (by omega),if_pos hlt])
  · exact hbefore (by rw [if_pos hlt])

theorem compareDigest_self {s : String} (h : ∀ d ∈ s.toList, d.toNat < 128) : compareDigest s s = some true := by
  unfold compareDigest
  rw [if_pos]
  · simp
  · rw [List.all_append,Bool.and_self,List.all_eq_true]
    intro d hd
    exact decide_eq_true (h d hd)

theorem ascii_of_all {s : String} {cs : List Char} (hs : s = String.ofList cs)
    (h : cs.all fun d => decide (d.toNat < 128)) : ∀ d ∈ s.toList, d.toNat < 128 := by
  rw [Text.toList_eq hs]
  exact fun d hd => of_decide_eq_true (List.all_eq_true.mp h d hd)

/-- The claims of a capability are accepted for its binding while it is valid. -/
theorem checkClaims_issued {keyId binding nonce : String} {principal : Principal} {issuedMs expiresMs nowMs : ℤ} {value : Json}
    (hsame : SameJson (.obj (issuedClaims keyId principal binding nonce issuedMs expiresMs)) value)
    (hbinding : ∀ d ∈ binding.toList, d.toNat < 128) (hafter : issuedMs ≤ nowMs) (hbefore : nowMs ≤ expiresMs) :
    checkClaims keyId value binding nowMs = .ok { principal, channelBinding := binding, nonce := .str nonce } := by
  obtain ⟨members,rfl,hfields⟩ := sameFields_of_same issuedClaims_distinct hsame
  have htimes : ¬ (some (if issuedMs < nowMs then Ordering.lt else if nowMs < issuedMs then .gt else .eq) = some .gt ∨
      some (if expiresMs < nowMs then Ordering.lt else if nowMs < expiresMs then .gt else .eq) = some .lt) := by
    rw [if_neg (not_lt.mpr hbefore),if_neg (not_lt.mpr hafter)]
    split <;> split <;> simp
  have hv := hfields.int (k := "v") (n := 1) rfl
  have hkid := hfields.str (k := "kid") (s := keyId) rfl
  have hissued := hfields.int (k := "iat_ms") (n := issuedMs) rfl
  have hexpires := hfields.int (k := "exp_ms") (n := expiresMs) rfl
  have hchannel := hfields.str (k := "binding") (s := binding) rfl
  have hdeployment := hfields.str (k := "deployment_id") (s := principal.deploymentId) rfl
  have hhousehold := hfields.str (k := "household_id") (s := principal.householdId) rfl
  have hactor := hfields.str (k := "actor_id") (s := principal.actorId) rfl
  have hnonce := hfields.str (k := "nonce") (s := nonce) rfl
  have hone : Json.equals (Json.field members "v") (.int 1) = true := by
    rw [hv]
    simp [Json.equals,Json.equal,Json.numeric,Json.number]
  have hkey : Json.isString (Json.field members "kid") keyId = true := by
    rw [hkid]
    simp [Json.isString,Json.asString]
  simp only [checkClaims,Json.asObject,hone,hkey,hissued,hexpires,hchannel,hdeployment,hhousehold,hactor,hnonce,Option.bind_some,
    Option.bind_eq_bind,compareInt_int,Json.asString,Bool.and_self,Bool.not_true,Bool.false_eq_true,if_false,
    if_neg htimes,compareDigest_self hbinding,if_true,Principal.make_self,Option.getD_some]

/-- Claims are written without a dot, and a MAC is a text of hexadecimal digits. -/
structure Library.Signs (lib : Library) : Prop where
  claims : ∀ claims, lib.claimsText claims ≠ "" ∧ '.' ∉ (lib.claimsText claims).toList
  mac : ∀ claims, (lib.sign claims).length = 64 ∧ ∀ d ∈ (lib.sign claims).toList, d.toNat < 128

/-- A capability is accepted for its binding while it is valid. -/
theorem verify_issued {lib : Library} (hreads : lib.ReadsClaims) (hsigns : lib.Signs) {keyId binding nonce claims : String}
    {principal : Principal} {issuedMs expiresMs nowMs : ℤ} (hbinding : ∀ d ∈ binding.toList, d.toNat < 128)
    (hafter : issuedMs ≤ nowMs) (hbefore : nowMs ≤ expiresMs)
    (hclaims : claims = lib.claimsText (issuedClaims keyId principal binding nonce issuedMs expiresMs)) :
    verify lib keyId (tokenOf claims (lib.sign claims)) binding nowMs =
      .ok { principal, channelBinding := binding, nonce := .str nonce } := by
  obtain ⟨hne,hdot⟩ := hsigns.claims (issuedClaims keyId principal binding nonce issuedMs expiresMs)
  rw [← hclaims] at hne hdot
  obtain ⟨hlength,hascii⟩ := hsigns.mac claims
  obtain ⟨value,hread,hsame⟩ := hreads _ issuedClaims_distinct issuedClaims_integral
  rw [← hclaims] at hread
  unfold verify
  rw [parseCapability_token hne hdot hlength]
  dsimp only
  rw [compareDigest_self hascii]
  dsimp only
  rw [hread]
  exact checkClaims_issued hsame hbinding hafter hbefore

theorem Grant.verified {lib : Library} (hreads : lib.ReadsClaims) (hsigns : lib.Signs) {g : Grant} {keyId : String} {nowMs : ℤ}
    (hbinding : ∀ d ∈ g.binding.toList, d.toNat < 128) (hafter : g.issuedMs ≤ nowMs) (hbefore : nowMs ≤ g.issuedMs + ttlMs) :
    ∃ context, verify lib keyId (g.token lib keyId) g.binding nowMs = .ok context ∧ context.principal = g.principal :=
  ⟨_,verify_issued hreads hsigns hbinding hafter hbefore (congrArg lib.claimsText (g.claims_eq keyId)),rfl⟩

/-- The request of a client that has the capability of its connection is dispatched. -/
theorem handle_frame {grant : Grant} {payload : Bytes} {nowMs : ℤ} {call : ServiceCall} {requestId : String} {value : Json}
    (hsize : payload.length ≤ frameMaxBytes) (hload : server.lib.loads payload = .ok value)
    (hsame : SameJson (.obj (call.frame requestId (grant.token server.lib server.keyId))) value)
    (hverified : ∃ context, verify server.lib server.keyId (grant.token server.lib server.keyId) grant.binding nowMs =
      .ok context ∧ context.principal = grant.principal) :
    ∃ inv : Invocation, inv.call = call ∧ c.handle server grant payload nowMs =
      { c with point := .serving requestId, invocations := c.invocations ++ [inv] } := by
  obtain ⟨members,rfl,hfields⟩ := sameFields_of_same (call.frame_distinct _ _) hsame
  obtain ⟨arguments,harguments,hsameArguments⟩ := hfields.obj (k := "payload") rfl call.payload_distinct
  obtain ⟨context,hverify,hprincipal⟩ := hverified
  have hdecode : decodePayload server.lib payload = .ok members := by
    unfold decodePayload
    rw [if_neg (not_lt.mpr hsize),hload]
  have hid := hfields.str (k := "request_id") (s := requestId) rfl
  have hop := hfields.str (k := "op") (s := call.op) rfl
  have htoken := hfields.str (k := "capability") (s := grant.token server.lib server.keyId) rfl
  have hread := call.read_payload hsameArguments
  refine ⟨⟨payload,grant.token server.lib server.keyId,nowMs,requestId,call,if call = .health then none else some context⟩,
    rfl,?_⟩
  unfold Conn.handle Conn.dispatch
  rw [hdecode]
  dsimp only
  rw [htoken]
  dsimp only [Json.asString]
  rw [hverify]
  dsimp only
  rw [if_neg (not_not.mpr hprincipal),hid,hop,harguments]
  dsimp only [Json.asObject]
  rw [hread]

/-! A handler that nothing goes wrong with. -/

def Grant.hello (server : UnixServiceServer) (grant : Grant) : Sent :=
  .hello grant.binding (grant.token server.lib server.keyId)

/-- What is issued to a peer that is the owner. -/
def Greeting.grant (server : UnixServiceServer) (principal : Principal) (g : Greeting) : Grant where
  uid := server.ownerUid
  principal := principal
  binding := g.binding
  nonce := g.nonce
  issuedMs := g.nowMs

/-- The frame of a payload. -/
def framed (payload : Bytes) : Bytes := beBytes 4 payload.length ++ payload

theorem encodeFrame_ok {lib : Library} {value : Json.Object} {payload : Bytes} (hdumps : lib.dumps value = some payload)
    (hsize : payload.length ≤ frameMaxBytes) : encodeFrame lib value = .ok (framed payload) := by
  unfold encodeFrame
  rw [hdumps]
  dsimp only
  rw [if_neg (not_lt.mpr hsize)]
  rfl

theorem send_ok {frame : Sent} {next : Point} {bytes : Bytes} (h : encodeFrame server.lib frame.json = .ok bytes) :
    c.send server frame next =
      { c with written := c.written ++ [frame], output := c.output ++ bytes, point := next } := by
  unfold Conn.send Conn.write
  rw [h]
  rfl

theorem greet_ok {g : Greeting} {principal : Principal} {bytes : Bytes} (huid : g.uid = .ok server.ownerUid)
    (hprincipal : g.principal = .ok principal)
    (hhello : encodeFrame server.lib ((g.grant server principal).hello server).json = .ok bytes) :
    c.greet server g =
      { c with
        met := some g
        grant := some (g.grant server principal)
        point := .greeting
        written := c.written ++ [(g.grant server principal).hello server]
        output := c.output ++ bytes } := by
  unfold Conn.greet
  rw [huid,hprincipal]
  dsimp only
  rw [if_neg (not_not.mpr rfl)]
  exact send_ok hhello

theorem read_header_ok {size : ℕ} {rest : Bytes} {nowMs : ℤ} (hpoint : c.point = .header) (hbuffer : c.buffer = beBytes 4 size ++ rest)
    (hsize : size ≤ frameMaxBytes) : c.read server nowMs = some { c with buffer := rest, point := .body size } := by
  have hnat : beNat (beBytes 4 size) = size := by
    apply Local.beNat_beBytes_of_lt
    unfold frameMaxBytes at hsize
    omega
  have htake : c.buffer.take 4 = beBytes 4 size := by
    rw [hbuffer]
    exact List.take_left' (length_beBytes 4 size)
  have hdrop : c.buffer.drop 4 = rest := by
    rw [hbuffer]
    exact List.drop_left' (length_beBytes 4 size)
  have hlength : 4 ≤ c.buffer.length := by
    rw [hbuffer,List.length_append,length_beBytes]
    omega
  unfold Conn.read
  split
  next =>
    rw [if_pos hlength]
    dsimp only
    rw [htake,hdrop,hnat,if_neg (not_lt.mpr hsize)]
  next hbody _ => exact nomatch hpoint.symm.trans hbody
  next hheader _ => exact absurd hpoint (by simpa using hheader)

theorem read_body_ok {grant : Grant} {payload rest : Bytes} {nowMs : ℤ} (hpoint : c.point = .body payload.length)
    (hgrant : c.grant = some grant) (hbuffer : c.buffer = payload ++ rest) :
    c.read server nowMs = some ({ c with buffer := rest }.handle server grant payload nowMs) := by
  have hlength : payload.length ≤ c.buffer.length := by
    rw [hbuffer,List.length_append]
    omega
  unfold Conn.read
  split
  next hheader => exact nomatch hpoint.symm.trans hheader
  next size grant' hbody hgrant' =>
    obtain rfl := Point.body.inj (hpoint.symm.trans hbody)
    obtain rfl := Option.some.inj (hgrant.symm.trans hgrant')
    rw [if_pos hlength,hbuffer,List.take_left,List.drop_left]
  next hneither => exact absurd hgrant (hneither _ grant hpoint)

end UnixService
end HarnessSdk
