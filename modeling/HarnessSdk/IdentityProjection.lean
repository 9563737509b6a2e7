import HarnessSdk.ServiceServer
import HarnessSdk.LocalWire
import HarnessSdk.JsonText

/-!
# The projection of identities

The identifiers that the service hands to the Harness are keyed hashes of a namespace, a kind, a principal and an
external identifier. Each field is written behind its length, so that the bytes under the hash tell the fields.
-/

namespace HarnessSdk
namespace UnixService

open Local (beNat beBytes length_beBytes beNat_beBytes_of_lt)
open Chat (StartRequest CancelRequest)

/-! Fields. -/

/-- What the projection raises: a `ValueError`, or the `OverflowError` of `to_bytes`. -/
inductive ProjectionError
  | value (message : String)
  | overflow
  deriving DecidableEq, Repr

/-- `_field`. -/
def field (value : String) : Except ProjectionError Bytes :=
  let encoded := utf8 value.toList
  if encoded.length < 256 ^ 4 then .ok (beBytes 4 encoded.length ++ encoded) else .error .overflow

/-- `Principal.canonical`. -/
def Principal.canonical (p : Principal) : Except ProjectionError Bytes := do
  let deployment ← field p.deploymentId
  let household ← field p.householdId
  let actor ← field p.actorId
  return deployment ++ household ++ actor

/-- The bytes under the hash. -/
def projectionPayload (nameSpace kind : String) (p : Principal) (externalId : String) : Except ProjectionError Bytes := do
  let nameSpaceField ← field nameSpace
  let kindField ← field kind
  let canonical ← p.canonical
  let externalField ← field externalId
  return utf8 "simple-harness-service-id-v1\x00".toList ++ nameSpaceField ++ kindField ++ canonical ++ externalField

/-- The field is shorter than 2^32 bytes. -/
def Short (value : String) : Prop := (utf8 value.toList).length < 2 ^ 32

/-- A field is told from what follows it. -/
theorem field_append_inj {s t : String} {bs cs rest rest' : Bytes} (hs : field s = .ok bs) (ht : field t = .ok cs)
    (h : bs ++ rest = cs ++ rest') : s = t ∧ rest = rest' := by
  unfold field at hs ht
  dsimp only at hs ht
  split at hs
  · rename_i hshort
    split at ht
    · rename_i hshort'
      obtain rfl := Except.ok.inj hs
      obtain rfl := Except.ok.inj ht
      rw [List.append_assoc,List.append_assoc] at h
      obtain ⟨hlength,hbytes⟩ := List.append_inj h (by rw [length_beBytes,length_beBytes])
      have hsame := congrArg beNat hlength
      rw [beNat_beBytes_of_lt hshort,beNat_beBytes_of_lt hshort'] at hsame
      obtain ⟨hencoded,hrest⟩ := List.append_inj hbytes hsame
      exact ⟨String.toList_injective (utf8_injective hencoded),hrest⟩
    · exact nomatch ht
  · exact nomatch hs

theorem field_short {s : String} (h : Short s) : ∃ bs, field s = .ok bs :=
  ⟨_,if_pos (show (utf8 s.toList).length < 256 ^ 4 from h)⟩

theorem canonical_ok {p : Principal} {bs : Bytes} (h : p.canonical = .ok bs) : ∃ deployment household actor,
    field p.deploymentId = .ok deployment ∧ field p.householdId = .ok household ∧ field p.actorId = .ok actor ∧
      bs = deployment ++ household ++ actor := by
  obtain ⟨deployment,hdeployment,h⟩ := except_bind_ok h
  obtain ⟨household,hhousehold,h⟩ := except_bind_ok h
  obtain ⟨actor,hactor,h⟩ := except_bind_ok h
  exact ⟨deployment,household,actor,hdeployment,hhousehold,hactor,(Except.ok.inj h).symm⟩

theorem canonical_append_inj {p q : Principal} {bs cs rest rest' : Bytes} (hp : p.canonical = .ok bs)
    (hq : q.canonical = .ok cs) (h : bs ++ rest = cs ++ rest') : p = q ∧ rest = rest' := by
  obtain ⟨deployment,household,actor,hdeployment,hhousehold,hactor,rfl⟩ := canonical_ok hp
  obtain ⟨deployment',household',actor',hdeployment',hhousehold',hactor',rfl⟩ := canonical_ok hq
  simp only [List.append_assoc] at h
  obtain ⟨hd,h⟩ := field_append_inj hdeployment hdeployment' h
  obtain ⟨hh,h⟩ := field_append_inj hhousehold hhousehold' h
  obtain ⟨ha,h⟩ := field_append_inj hactor hactor' h
  refine ⟨?_,h⟩
  cases p
  cases q
  subst hd hh ha
  rfl

theorem payload_ok {nameSpace kind externalId : String} {p : Principal} {bs : Bytes}
    (h : projectionPayload nameSpace kind p externalId = .ok bs) : ∃ nameSpaceField kindField canonical externalField,
      field nameSpace = .ok nameSpaceField ∧ field kind = .ok kindField ∧ p.canonical = .ok canonical ∧
      field externalId = .ok externalField ∧
      bs = utf8 "simple-harness-service-id-v1\x00".toList ++ nameSpaceField ++ kindField ++ canonical ++ externalField := by
  obtain ⟨nameSpaceField,hnameSpace,h⟩ := except_bind_ok h
  obtain ⟨kindField,hkind,h⟩ := except_bind_ok h
  obtain ⟨canonical,hcanonical,h⟩ := except_bind_ok h
  obtain ⟨externalField,hexternal,h⟩ := except_bind_ok h
  exact ⟨nameSpaceField,kindField,canonical,externalField,hnameSpace,hkind,hcanonical,hexternal,(Except.ok.inj h).symm⟩

/-- The bytes under the hash tell the namespace, the kind, the principal and the external identifier. -/
theorem payload_inj {nameSpace nameSpace' kind kind' externalId externalId' : String} {p p' : Principal} {bs : Bytes}
    (h : projectionPayload nameSpace kind p externalId = .ok bs)
    (h' : projectionPayload nameSpace' kind' p' externalId' = .ok bs) :
    nameSpace = nameSpace' ∧ kind = kind' ∧ p = p' ∧ externalId = externalId' := by
  obtain ⟨nameSpaceField,kindField,canonical,externalField,hnameSpace,hkind,hcanonical,hexternal,rfl⟩ := payload_ok h
  obtain ⟨nameSpaceField',kindField',canonical',externalField',hnameSpace',hkind',hcanonical',hexternal',hbytes⟩ :=
    payload_ok h'
  simp only [List.append_assoc] at hbytes
  obtain ⟨hns,hbytes⟩ := field_append_inj hnameSpace hnameSpace' (List.append_cancel_left hbytes)
  obtain ⟨hk,hbytes⟩ := field_append_inj hkind hkind' hbytes
  obtain ⟨hp,hbytes⟩ := canonical_append_inj hcanonical hcanonical' hbytes
  have hend : externalField ++ [] = externalField' ++ [] := congrArg (· ++ []) hbytes
  exact ⟨hns,hk,hp,(field_append_inj hexternal hexternal' hend).1⟩

theorem payload_short {nameSpace kind externalId : String} {p : Principal} (hnameSpace : Short nameSpace) (hkind : Short kind)
    (hp : ∀ s ∈ [p.deploymentId,p.householdId,p.actorId], Short s) (hexternal : Short externalId) :
    ∃ bs, projectionPayload nameSpace kind p externalId = .ok bs := by
  obtain ⟨nameSpaceField,hnameSpace⟩ := field_short hnameSpace
  obtain ⟨kindField,hkind⟩ := field_short hkind
  obtain ⟨deployment,hdeployment⟩ := field_short (hp p.deploymentId (by simp))
  obtain ⟨household,hhousehold⟩ := field_short (hp p.householdId (by simp))
  obtain ⟨actor,hactor⟩ := field_short (hp p.actorId (by simp))
  obtain ⟨externalField,hexternal⟩ := field_short hexternal
  simp only [projectionPayload,Principal.canonical,hnameSpace,hkind,hdeployment,hhousehold,hactor,hexternal,except_ok_bind]
  exact ⟨_,rfl⟩

/-! Identifiers. -/

/-- `bytes.hex`. -/
def hex (bytes : Bytes) : List Char :=
  bytes.flatMap fun b => [JsonText.hexDigit (b.toNat / 16), JsonText.hexDigit (b.toNat % 16)]

theorem hexDigit_inj {m n : ℕ} (hm : m < 16) (hn : n < 16) (h : JsonText.hexDigit m = JsonText.hexDigit n) : m = n := by
  have hall : ∀ m < 16, ∀ n < 16, JsonText.hexDigit m = JsonText.hexDigit n → m = n := by decide
  exact hall m hm n hn h

theorem hexDigit_ne {n : ℕ} (h : n < 16) : JsonText.hexDigit n ≠ '_' := by
  have hall : ∀ n < 16, JsonText.hexDigit n ≠ '_' := by decide
  exact hall n h

theorem hex_injective : Function.Injective hex := by
  intro bs cs h
  induction bs generalizing cs with
  | nil =>
    cases cs with
    | nil => rfl
    | cons c cs => exact nomatch h
  | cons b bs ih =>
    cases cs with
    | nil => exact nomatch h
    | cons c cs =>
      obtain ⟨hhigh,h⟩ := List.cons.inj h
      obtain ⟨hlow,h⟩ := List.cons.inj h
      have hb : b.toNat < 256 := b.toNat_lt
      have hc : c.toNat < 256 := c.toNat_lt
      have hdiv := hexDigit_inj (by omega) (by omega) hhigh
      have hmod := hexDigit_inj (by omega) (by omega) hlow
      have hsame : b = c := UInt8.toNat_inj.mp (by omega)
      rw [hsame,ih h]

theorem hex_noSeparator (bytes : Bytes) : '_' ∉ hex bytes := by
  intro h
  obtain ⟨b,_,hb⟩ := List.mem_flatMap.mp h
  have hlt : b.toNat < 256 := b.toNat_lt
  rcases List.mem_cons.mp hb with heq | hb
  · exact hexDigit_ne (by omega) heq.symm
  · exact hexDigit_ne (by omega) (List.mem_singleton.mp hb).symm

/-- A list is told by its last separator. -/
theorem separator_inj {c : Char} {xs xs' ys ys' : List Char} (hy : c ∉ ys) (hy' : c ∉ ys')
    (h : xs ++ c :: ys = xs' ++ c :: ys') : xs = xs' ∧ ys = ys' := by
  rcases List.append_eq_append_iff.mp h with ⟨zs,hx,hz⟩ | ⟨zs,hx,hz⟩
  · cases zs with
    | nil =>
      obtain ⟨_,hrest⟩ := List.cons.inj hz
      exact ⟨by simpa using hx.symm,hrest⟩
    | cons z zs =>
      obtain ⟨_,hrest⟩ := List.cons.inj hz
      exact absurd (by rw [hrest]; simp) hy
  · cases zs with
    | nil =>
      obtain ⟨_,hrest⟩ := List.cons.inj hz
      exact ⟨by simpa using hx,hrest.symm⟩
    | cons z zs =>
      obtain ⟨_,hrest⟩ := List.cons.inj hz
      exact absurd (by rw [hrest]; simp) hy'

/-- `hmac.new(key, payload, hashlib.sha256).digest()` and `hashlib.sha256(payload).digest()`. -/
structure Hashes where
  hmacSha256 : Bytes → Bytes → Bytes
  sha256 : Bytes → Bytes

/-- `IdentityProjector`. -/
structure IdentityProjector where
  key : Bytes
  nameSpace : String
  valid : 32 ≤ key.length ∧ !Text.isBlank nameSpace

namespace IdentityProjector

variable (lib : Hashes) (c : IdentityProjector)

def keyId : String := String.ofList ((hex (lib.sha256 (utf8 "svc-projection-key-id-v1\x00".toList ++ c.key))).take 32)

def project (kind : String) (p : Principal) (externalId : String) : Except ProjectionError String :=
  if kind = "" ∨ externalId = "" then .error (.value "projection kind and external ID are required")
  else do
    let payload ← projectionPayload c.nameSpace kind p externalId
    return "svc_" ++ kind ++ "_" ++ String.ofList (hex (lib.hmacSha256 c.key payload))

variable {lib c}

/-- Two projections with one key give the same identifier only for the same namespace, kind, principal and external
identifier. -/
theorem project_inj {c c' : IdentityProjector} {kind kind' externalId externalId' id : String} {p p' : Principal}
    (hinj : Function.Injective (lib.hmacSha256 c.key)) (hkey : c'.key = c.key) (h : c.project lib kind p externalId = .ok id)
    (h' : c'.project lib kind' p' externalId' = .ok id) :
    c.nameSpace = c'.nameSpace ∧ kind = kind' ∧ p = p' ∧ externalId = externalId' := by
  unfold project at h h'
  split at h
  · exact nomatch h
  split at h'
  · exact nomatch h'
  obtain ⟨payload,hpayload,h⟩ := except_bind_ok h
  obtain ⟨payload',hpayload',h'⟩ := except_bind_ok h'
  obtain rfl := Except.ok.inj h
  have hid := congrArg String.toList (Except.ok.inj h')
  simp only [String.toList_append,String.toList_ofList,List.append_assoc] at hid
  have hcut := List.append_cancel_left hid
  obtain ⟨_,hhex⟩ := separator_inj (hex_noSeparator _) (hex_noSeparator _) hcut
  rw [hkey] at hhex
  have hsame : payload' = payload := hinj (hex_injective hhex)
  subst hsame
  exact payload_inj hpayload hpayload'

end IdentityProjector

/-! The service. -/

/-- `AgentIdentity`. -/
structure AgentIdentity where
  deploymentId : String
  householdId : String
  actorId : String
  sessionId : String

/-- `StartCommandIntent` with its conversation, whose text is the message. -/
structure StartCommandIntent where
  nameSpace : String
  keyId : String
  commandId : String
  runId : String
  requestId : String
  turnId : String
  identity : AgentIdentity
  message : String
  profileKey : String

structure ContinueCommandIntent where
  nameSpace : String
  keyId : String
  commandId : String
  runId : String
  continuationId : String
  turnId : String
  message : String

structure CancelCommandIntent where
  nameSpace : String
  keyId : String
  commandId : String
  runId : String

/-- What the service asks the adapter for. -/
inductive Submission
  | health
  | start (intent : StartCommandIntent)
  | continue_ (intent : ContinueCommandIntent)
  | get (commandId : String)
  | cancel (intent : CancelCommandIntent)

/-- `HarnessService`. The intents of the Harness may refuse what they are made of, with a `CommandError` that is mapped to
the code of a `ServiceError`. -/
structure HarnessService where
  projector : IdentityProjector
  startError : StartCommandIntent → Option ServiceErrorCode
  continueError : ContinueCommandIntent → Option ServiceErrorCode

/-- Why a method does not come to ask the adapter. -/
inductive ServeError
  | projection (e : ProjectionError)
  | service (code : ServiceErrorCode)
  deriving DecidableEq, Repr

namespace HarnessService

variable (lib : Hashes) (service : HarnessService)

/-- `_id`. -/
def id (kind : String) (p : Principal) (externalId : String) : Except ServeError String :=
  (service.projector.project lib kind p externalId).mapError .projection

/-- An intent that has been made, or the error that it raises. -/
def checked {α : Type} (error : α → Option ServiceErrorCode) (submit : α → Submission) (intent : α) :
    Except ServeError Submission :=
  match error intent with
  | none => .ok (submit intent)
  | some code => .error (.service code)

def start (p : Principal) (r : StartRequest) : Except ServeError Submission := do
  let sessionId ← service.id lib "session" p r.externalSessionId
  let runId ← service.id lib "run" p r.externalRunId
  let commandId ← service.id lib "command" p r.externalCommandId
  let turnId ← service.id lib "turn" p r.externalCommandId
  let requestId ← service.id lib "request" p r.externalCommandId
  checked service.startError .start
    { nameSpace := service.projector.nameSpace, keyId := service.projector.keyId lib, commandId, runId, requestId, turnId
      identity := { deploymentId := p.deploymentId, householdId := p.householdId, actorId := p.actorId, sessionId }
      message := r.message, profileKey := r.profileKey }

def continue_ (p : Principal) (r : ContinueRequest) : Except ServeError Submission := do
  let commandId ← service.id lib "command" p r.externalCommandId
  let runId ← service.id lib "run" p r.externalRunId
  let continuationId ← service.id lib "continuation" p r.externalContinuationId
  let turnId ← service.id lib "turn" p r.externalCommandId
  checked service.continueError .continue_
    { nameSpace := service.projector.nameSpace, keyId := service.projector.keyId lib, commandId, runId, continuationId, turnId
      message := r.message }

def get (p : Principal) (r : GetRequest) : Except ServeError Submission := do
  return .get (← service.id lib "command" p r.externalCommandId)

def cancel (p : Principal) (r : CancelRequest) : Except ServeError Submission := do
  let commandId ← service.id lib "command" p r.externalCommandId
  let runId ← service.id lib "run" p r.externalRunId
  return .cancel { nameSpace := service.projector.nameSpace, keyId := service.projector.keyId lib, commandId, runId }

/-- The five methods. -/
def serve (p : Principal) : ServiceCall → Except ServeError Submission
  | .health => .ok .health
  | .start r => service.start lib p r
  | .continue_ r => service.continue_ lib p r
  | .get r => service.get lib p r
  | .cancel r => service.cancel lib p r

end HarnessService

/-- The projected identifiers that the adapter is handed. -/
def Submission.ids : Submission → List String
  | health => []
  | start i => [i.identity.sessionId,i.runId,i.commandId,i.turnId,i.requestId]
  | continue_ i => [i.commandId,i.runId,i.continuationId,i.turnId]
  | get commandId => [commandId]
  | cancel i => [i.commandId,i.runId]

/-- What they stand for: their kinds and the external identifiers of the request. -/
def ServiceCall.sources : ServiceCall → List (String × String)
  | health => []
  | start r => [("session",r.externalSessionId), ("run",r.externalRunId), ("command",r.externalCommandId),
      ("turn",r.externalCommandId), ("request",r.externalCommandId)]
  | continue_ r => [("command",r.externalCommandId), ("run",r.externalRunId),
      ("continuation",r.externalContinuationId), ("turn",r.externalCommandId)]
  | get r => [("command",r.externalCommandId)]
  | cancel r => [("command",r.externalCommandId), ("run",r.externalRunId)]

section Service

variable {lib : Hashes} {service service' : HarnessService} {p p' : Principal} {call call' : ServiceCall}
  {submission submission' : Submission}

/-- The identifier is the projection of its source. -/
def Projects (lib : Hashes) (service : HarnessService) (p : Principal) (source : String × String) (id : String) : Prop :=
  service.projector.project lib source.1 p source.2 = .ok id

theorem projects_id {kind externalId id : String} (h : service.id lib kind p externalId = .ok id) :
    Projects lib service p (kind,externalId) id := by
  unfold HarnessService.id at h
  cases hproject : service.projector.project lib kind p externalId with
  | error e =>
    rw [hproject] at h
    exact nomatch h
  | ok id' =>
    rw [hproject] at h
    obtain rfl := Except.ok.inj h
    exact hproject

theorem checked_ok {α : Type} {error : α → Option ServiceErrorCode} {submit : α → Submission} {intent : α}
    (h : HarnessService.checked error submit intent = .ok submission) : submission = submit intent := by
  unfold HarnessService.checked at h
  split at h
  · exact (Except.ok.inj h).symm
  · exact nomatch h

/-- A method hands over the projections of the identifiers of its request. -/
theorem serve_projects (h : service.serve lib p call = .ok submission) :
    List.Forall₂ (Projects lib service p) call.sources submission.ids := by
  cases call with
  | health =>
    obtain rfl := Except.ok.inj h
    exact .nil
  | start r =>
    obtain ⟨sessionId,hsession,h⟩ := except_bind_ok h
    obtain ⟨runId,hrun,h⟩ := except_bind_ok h
    obtain ⟨commandId,hcommand,h⟩ := except_bind_ok h
    obtain ⟨turnId,hturn,h⟩ := except_bind_ok h
    obtain ⟨requestId,hrequest,h⟩ := except_bind_ok h
    obtain rfl := checked_ok h
    exact .cons (projects_id hsession) (.cons (projects_id hrun) (.cons (projects_id hcommand)
      (.cons (projects_id hturn) (.cons (projects_id hrequest) .nil))))
  | continue_ r =>
    obtain ⟨commandId,hcommand,h⟩ := except_bind_ok h
    obtain ⟨runId,hrun,h⟩ := except_bind_ok h
    obtain ⟨continuationId,hcontinuation,h⟩ := except_bind_ok h
    obtain ⟨turnId,hturn,h⟩ := except_bind_ok h
    obtain rfl := checked_ok h
    exact .cons (projects_id hcommand) (.cons (projects_id hrun) (.cons (projects_id hcontinuation)
      (.cons (projects_id hturn) .nil)))
  | get r =>
    obtain ⟨commandId,hcommand,h⟩ := except_bind_ok h
    obtain rfl := Except.ok.inj h
    exact .cons (projects_id hcommand) .nil
  | cancel r =>
    obtain ⟨commandId,hcommand,h⟩ := except_bind_ok h
    obtain ⟨runId,hrun,h⟩ := except_bind_ok h
    obtain rfl := Except.ok.inj h
    exact .cons (projects_id hcommand) (.cons (projects_id hrun) .nil)

theorem zip_projects {sources : List (String × String)} {ids : List String}
    (h : List.Forall₂ (Projects lib service p) sources ids) : ∀ n ∈ sources.zip ids, Projects lib service p n.1 n.2 := by
  induction h with
  | nil => exact nofun
  | cons hhead _ ih =>
    intro n hn
    rcases List.mem_cons.mp hn with rfl | hn
    · exact hhead
    · exact ih n hn

/-- The bytes under the hash are the same only for the same namespace, kind, principal and external identifier. Under an
injective keyed hash, two calls whose principals, kinds or external identifiers differ never share an identifier. -/
theorem ids_isolate (lib : Hashes) (service service' : HarnessService) (hkey : service'.projector.key = service.projector.key)
    (hinj : Function.Injective (lib.hmacSha256 service.projector.key)) :
    (∀ nameSpace nameSpace' kind kind' p p' externalId externalId',
      (∀ s ∈ [nameSpace,kind,p.deploymentId,p.householdId,p.actorId,externalId], Short s) →
      (∀ s ∈ [nameSpace',kind',p'.deploymentId,p'.householdId,p'.actorId,externalId'], Short s) →
      projectionPayload nameSpace kind p externalId = projectionPayload nameSpace' kind' p' externalId' →
      nameSpace = nameSpace' ∧ kind = kind' ∧ p = p' ∧ externalId = externalId') ∧
    ∀ p p' call call' submission submission', service.serve lib p call = .ok submission →
      service'.serve lib p' call' = .ok submission' →
      ∀ n ∈ call.sources.zip submission.ids, ∀ n' ∈ call'.sources.zip submission'.ids,
        (service.projector.nameSpace,p,n.1) ≠ (service'.projector.nameSpace,p',n'.1) → n.2 ≠ n'.2 := by
  constructor
  · intro nameSpace nameSpace' kind kind' p p' externalId externalId' hshort _ h
    obtain ⟨bs,hbs⟩ := payload_short (hshort nameSpace (by simp)) (hshort kind (by simp))
      (fun s hs => hshort s (by simp only [List.mem_cons,List.not_mem_nil,or_false] at hs ⊢; tauto)) (hshort externalId (by simp))
    exact payload_inj hbs (h ▸ hbs)
  · intro p p' call call' submission submission' hserve hserve' n hn n' hn' hne hid
    have hproject := zip_projects (serve_projects hserve) n hn
    have hproject' := zip_projects (serve_projects hserve') n' hn'
    rw [Projects,← hid] at hproject'
    obtain ⟨hnameSpace,hkind,hprincipal,hexternal⟩ := IdentityProjector.project_inj hinj hkey hproject hproject'
    apply hne
    rw [hnameSpace,hprincipal,Prod.ext hkind hexternal]

end Service

/-! Two people of one household. -/

def alice : Principal := ⟨"d","h","alice",by decide⟩

def bob : Principal := ⟨"d","h","bob",by decide⟩

/-- The bytes under the hash for the command `c` of a person. -/
def commandPayload (p : Principal) : Bytes := (projectionPayload "consumer.example" "command" p "c").toOption.getD []

/-- The digests of HMAC-SHA256 under a key of 32 letters `p`. -/
def aliceDigest : Bytes :=
  [191,96,68,109,116,71,132,49,150,6,6,6,249,17,210,66,174,203,27,89,71,155,29,179,123,176,146,144,87,94,92,112]

def bobDigest : Bytes :=
  [85,182,22,24,16,51,77,14,100,251,0,61,213,130,13,28,183,165,27,49,131,203,189,159,73,254,234,122,219,0,14,106]

/-- The keyed hash on what the two people send, and an injective function elsewhere. -/
def exampleHmac (message : Bytes) : Bytes :=
  if message = commandPayload alice then aliceDigest
  else if message = commandPayload bob then bobDigest
  else List.replicate 33 0 ++ message

theorem exampleHmac_cases (message : Bytes) : message = commandPayload alice ∧ exampleHmac message = aliceDigest ∨
    message = commandPayload bob ∧ exampleHmac message = bobDigest ∨
    exampleHmac message = List.replicate 33 0 ++ message := by
  unfold exampleHmac
  split
  · exact .inl ⟨‹_›,rfl⟩
  · split
    · exact .inr (.inl ⟨‹_›,rfl⟩)
    · exact .inr (.inr rfl)

theorem exampleHmac_injective : Function.Injective exampleHmac := by
  have hlong : ∀ message : Bytes, 32 < (List.replicate 33 (0 : UInt8) ++ message).length := by
    intro message
    rw [List.length_append,List.length_replicate]
    omega
  have halice : ∀ message : Bytes, aliceDigest ≠ List.replicate 33 0 ++ message := fun message heq =>
    absurd (hlong message) (by rw [← heq]; decide)
  have hbob : ∀ message : Bytes, bobDigest ≠ List.replicate 33 0 ++ message := fun message heq =>
    absurd (hlong message) (by rw [← heq]; decide)
  have hdigests : aliceDigest ≠ bobDigest := by decide
  intro m n h
  obtain ⟨hm,hdigest⟩ | ⟨hm,hdigest⟩ | hdigest := exampleHmac_cases m <;>
    obtain ⟨hn,hdigest'⟩ | ⟨hn,hdigest'⟩ | hdigest' := exampleHmac_cases n <;> rw [hdigest,hdigest'] at h
  · rw [hm,hn]
  · exact absurd h hdigests
  · exact absurd h (halice n)
  · exact absurd h.symm hdigests
  · rw [hm,hn]
  · exact absurd h (hbob n)
  · exact absurd h.symm (halice m)
  · exact absurd h.symm (hbob m)
  · exact List.append_cancel_left h

def exampleHashes : Hashes where
  hmacSha256 _ message := exampleHmac message
  sha256 message := message

def exampleService : HarnessService where
  projector := { key := List.replicate 32 112, nameSpace := "consumer.example", valid := by decide }
  startError _ := none
  continueError _ := none

def exampleGet : GetRequest := ⟨"c",by decide⟩

theorem serve_get {p : Principal} (hp : ∀ s ∈ [p.deploymentId,p.householdId,p.actorId], Short s) :
    ∃ id, exampleService.serve exampleHashes p (.get exampleGet) = .ok (.get id) := by
  obtain ⟨bs,hbs⟩ : ∃ bs, projectionPayload "consumer.example" "command" p "c" = .ok bs :=
    payload_short (by unfold Short; decide) (by unfold Short; decide) hp (by unfold Short; decide)
  refine ⟨"svc_" ++ "command" ++ "_" ++ String.ofList (hex (exampleHmac bs)),?_⟩
  have hproject : exampleService.projector.project exampleHashes "command" p "c" =
      .ok ("svc_" ++ "command" ++ "_" ++ String.ofList (hex (exampleHmac bs))) := by
    unfold IdentityProjector.project
    rw [if_neg (by decide)]
    show (projectionPayload "consumer.example" "command" p "c" >>= _) = _
    rw [hbs]
    rfl
  show (HarnessService.id exampleHashes exampleService "command" p "c" >>= _) = _
  rw [HarnessService.id,hproject]
  rfl

/-- The command `c` of Alice and the command `c` of Bob have different identifiers. -/
theorem ids_isolate_people : ∃ aliceId bobId, exampleService.serve exampleHashes alice (.get exampleGet) = .ok (.get aliceId) ∧
    exampleService.serve exampleHashes bob (.get exampleGet) = .ok (.get bobId) ∧ aliceId ≠ bobId := by
  obtain ⟨aliceId,halice⟩ := serve_get (p := alice) (by unfold Short; decide)
  obtain ⟨bobId,hbob⟩ := serve_get (p := bob) (by unfold Short; decide)
  refine ⟨aliceId,bobId,halice,hbob,?_⟩
  have hpeople : alice ≠ bob := by decide
  exact (ids_isolate exampleHashes exampleService exampleService rfl exampleHmac_injective).2 alice bob (.get exampleGet)
    (.get exampleGet) _ _ halice hbob (("command","c"),aliceId) (.head _) (("command","c"),bobId) (.head _) fun h =>
      hpeople (Prod.mk.inj (Prod.mk.inj h).2).1

end UnixService
end HarnessSdk
