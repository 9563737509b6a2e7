import HarnessSdk.SnapshotFidelity
import HarnessSdk.Tasks
import Mathlib.Algebra.Order.Ring.Rat

/-!
# Clients and the sessions that they open

A fleet is a family of clients over a family of recovery states. In the world of a fleet the calls of
`open` run from one suspension to the next, between the steps of the sessions that they have made. A
session sees of the world what its `Shared` part holds.
-/

namespace HarnessSdk

structure MintedRealtimeCredential where
  capability : RealtimeCapability
  capabilityDocument : Json
  capabilityDigest : String

/-- What a client uses of its control codec while it opens a session. The frame that opens the session
needs no more of it than its event id. -/
structure ControlCodec where
  validateMinted : MintedRealtimeCredential → RealtimeOpenRequest → Except Exn Unit
  validateSessionCreated : Payload → MintedRealtimeCredential → String → Except Exn Unit

/-- The constructor arguments of a client. The two checks are those of `open` before the mint and of
`start` against the minted limits: tool catalog, features and audio formats. `operationKind` is the
`diagnostic_kind` that an error carries, with its fallback. -/
structure ClientConfig (A : Type) where
  adapter : ProviderAdapter A
  initialAdapter : A
  control : ControlCodec
  checkRequest : RealtimeOpenRequest → Except Exn Unit
  checkStart : RealtimeCapability → RealtimeOpenRequest → Except Exn Unit
  operationKind : Exn → String
  toolDispatchTimeout : ℚ := 30
  hasDispatcher : Bool := true
  digest : String → Role → Bool → String
  eventSize : RealtimeEvent → ℕ
  loads : String → Except LoadFailure Json

structure ClientState where
  generation : ℕ := 0
  seenToolCalls : Dict String (Finset String) := ∅
  usedCorrelations : Finset String := ∅

/-- The clients, and the recovery state that each of them was given. -/
structure Fleet (A : Type) where
  config : ℕ → ClientConfig A
  recovery : ℕ → ℕ

/-- Where a call of `open` stands. -/
inductive OpenPhase
  | minting
  | connecting (credential : MintedRealtimeCredential)
  | sendingOpen (credential : MintedRealtimeCredential) (openEventId : String)
  | receivingCreated (credential : MintedRealtimeCredential) (openEventId : String)
  | starting (session : ℕ)
  | closing (error : Exn)
  | returned (session : ℕ)
  | raised (error : Exn)

/-- A call of `open`: `connected` once `connect` has returned, `closed` once `open` has called `close`
on the connection, with the `session` that it has made of it. -/
structure Opening where
  client : ℕ
  request : RealtimeOpenRequest
  correlation : String
  phase : OpenPhase := .minting
  connected : Bool := false
  closed : Bool := false
  session : Option ℕ := none

/-- A session with the client that made it. -/
structure OpenedSession (A : Type) where
  client : ℕ
  config : SessionConfig A
  session : Session A

/-- What a suspended `open` is resumed with. -/
inductive OpenAnswer
  | minted (credential : MintedRealtimeCredential)
  | connected
  | sent
  | received (payload : Payload)
  | eof
  | finished
  | timeout
  | raised (e : Exn)
  | cancelled

structure World (A : Type) where
  clients : ℕ → ClientState := fun _ => {}
  recoveries : ℕ → RealtimeRecoveryState
  openings : List Opening := []
  sessions : List (OpenedSession A) := []

inductive WorldAction
  | open (client : ℕ) (request : RealtimeOpenRequest) (candidates : List String)
  | openWith (client : ℕ) (request : RealtimeOpenRequest) (correlation : String)
  | answer (opening : ℕ) (answer : OpenAnswer) (fresh : String)
  | session (session : ℕ) (action : Action)

/-- `_CORRELATION.fullmatch`. -/
def isCorrelation (correlation : String) : Bool :=
  decide (correlation.length = 31) && Text.startsWith correlation "corr_" &&
    (correlation.toList.drop 5).all fun ch => "0123456789ABCDEFGHJKMNPQRSTVWXYZ".toList.contains ch

namespace OpenedSession

def ext {A : Type} (e : OpenedSession A) : String := e.config.request.externalSessionId

end OpenedSession

namespace World

variable {A : Type} (F : Fleet A)

/-! The parts of the world that belong to a client. -/

def setClient (w : World A) (k : ℕ) (cl : ClientState) : World A :=
  { w with clients := Function.update w.clients k cl }

/-- The recovery record of an external session id as a client sees it. -/
def state (w : World A) (k : ℕ) (ext : String) : SessionState := (w.recoveries (F.recovery k)).session ext

def setState (w : World A) (k : ℕ) (ext : String) (s : SessionState) : World A :=
  { w with recoveries := Function.update w.recoveries (F.recovery k) ((w.recoveries (F.recovery k)).update ext s) }

/-- `_seen_tool_calls` of a client for an external session id. -/
def seen (w : World A) (k : ℕ) (ext : String) : Finset String := ((w.clients k).seenToolCalls.get ext).getD ∅

def setSeen (w : World A) (k : ℕ) (ext : String) (seen : Finset String) : World A :=
  w.setClient k { w.clients k with seenToolCalls := (w.clients k).seenToolCalls.set ext seen }

/-- `identity_table` creates the record of an unknown session. -/
def touch (w : World A) (k : ℕ) (ext : String) : World A := w.setState F k ext (w.state F k ext)

section Parts

variable (w : World A) (k k' : ℕ) (ext ext' : String)

@[simp] theorem clients_setClient (cl : ClientState) :
    (w.setClient k cl).clients k' = if k' = k then cl else w.clients k' := Function.update_apply _ _ _ _

@[simp] theorem clients_setState (s : SessionState) : (w.setState F k ext s).clients = w.clients := rfl

@[simp] theorem sessions_setClient (cl : ClientState) : (w.setClient k cl).sessions = w.sessions := rfl

@[simp] theorem sessions_setState (s : SessionState) : (w.setState F k ext s).sessions = w.sessions := rfl

@[simp] theorem state_setClient (cl : ClientState) : (w.setClient k cl).state F k' ext' = w.state F k' ext' := rfl

@[simp] theorem state_setState (s : SessionState) : (w.setState F k ext s).state F k' ext' =
    if F.recovery k' = F.recovery k ∧ ext' = ext then s else w.state F k' ext' := by
  unfold state setState
  by_cases hk : F.recovery k' = F.recovery k <;> simp [hk]

@[simp] theorem state_touch : (w.touch F k ext).state F k' ext' = w.state F k' ext' := by
  rw [touch,state_setState]
  by_cases h : F.recovery k' = F.recovery k ∧ ext' = ext
  · rw [if_pos h,state,state,h.1,h.2]
  · rw [if_neg h]

theorem seen_setSeen (seen : Finset String) :
    (w.setSeen k ext seen).seen k' ext' = if k' = k ∧ ext' = ext then seen else w.seen k' ext' := by
  unfold setSeen World.seen
  by_cases hk : k' = k
  · by_cases hext : ext' = ext <;> simp [hk,hext,Dict.get_set]
  · simp [hk]

end Parts

/-! The sessions. -/

/-- What a session sees of the world. -/
def shared (w : World A) (e : OpenedSession A) : Shared where
  state := w.state F e.client e.ext
  clientCurrent := decide ((w.clients e.client).generation = e.config.generation)
  clientSeen := w.seen e.client e.ext

/-- The session as it runs in the world. -/
def view (w : World A) (e : OpenedSession A) : Session A := { e.session with shared := w.shared F e }

/-- `is_current_generation`. -/
def isCurrent (w : World A) (e : OpenedSession A) : Bool := (w.view F e).isCurrent e.config

/-- Put a session back with what it has written to the shared part. -/
def put (w : World A) (i : ℕ) (e : OpenedSession A) (s : Session A) : World A :=
  let w := (w.setState F e.client e.ext s.shared.state).setSeen e.client e.ext s.shared.clientSeen
  { w with sessions := w.sessions.set i { e with session := s } }

section Put

variable (w : World A) (i : ℕ) (e : OpenedSession A) (s : Session A) (k : ℕ) (ext : String)

theorem put_sessions : (w.put F i e s).sessions = w.sessions.set i { e with session := s } := rfl

theorem put_openings : (w.put F i e s).openings = w.openings := rfl

theorem put_generation : ((w.put F i e s).clients k).generation = (w.clients k).generation := by
  simp only [put,setSeen,clients_setClient,clients_setState]
  split
  · rename_i hk
    rw [hk]
  · rfl

theorem put_state : (w.put F i e s).state F k ext =
    if F.recovery k = F.recovery e.client ∧ ext = e.ext then s.shared.state else w.state F k ext :=
  state_setState F w e.client k e.ext ext s.shared.state

theorem put_seen : (w.put F i e s).seen k ext =
    if k = e.client ∧ ext = e.ext then s.shared.clientSeen else w.seen k ext :=
  seen_setSeen (w.setState F e.client e.ext s.shared.state) e.client k e.ext ext s.shared.clientSeen

end Put

/-- One step of a session in the world. -/
def drive (w : World A) (i : ℕ) (a : Action) : Option (World A) := do
  let e ← w.sessions[i]?
  let s ← Session.step e.config (w.view F e) a
  return w.put F i e s

/-! The calls of `open`. -/

def setOpening (w : World A) (j : ℕ) (o : Opening) : World A := { w with openings := w.openings.set j o }

def setPhase (w : World A) (j : ℕ) (o : Opening) (phase : OpenPhase) : World A := w.setOpening j { o with phase }

/-- The generation that a failure before the session is reported for. -/
def nextGeneration (w : World A) (o : Opening) : ℕ :=
  max ((w.clients o.client).generation + 1) ((w.state F o.client o.request.externalSessionId).table.generation + 1)

/-- The failure context of an error that brings none. -/
def openFailure (w : World A) (o : Opening) (kind : String) : RealtimeFailureContext :=
  { stage := "open.failure", eventType := kind, generation := w.nextGeneration F o }

/-- The `except` clause of `_open_reserved`, which lets a cancellation through. -/
def raise (w : World A) (j : ℕ) (o : Opening) (error : Exn) : World A :=
  match error with
  | .cancelled => w.setPhase j o (.raised .cancelled)
  | .exception => (w.touch F o.client o.request.externalSessionId).setPhase j o (.raised .exception)
  | .realtime e =>
    match e.failure with
    | some _ => w.setPhase j o (.raised (.realtime e))
    | none =>
      let failure := w.openFailure F o ((F.config o.client).operationKind (.realtime e))
      (w.touch F o.client o.request.externalSessionId).setPhase j o (.raised (.realtime { e with failure := some failure }))

/-- The `except` clauses around the handshake, up to the suspension in `close`. -/
def close (w : World A) (j : ℕ) (o : Opening) (error : Exn) : World A :=
  w.setOpening j { o with phase := .closing error, closed := true }

def openTimeout : Exn := .realtime { code := .timeout, retryable := true }

/-- The error of a `session.created` that is refused, with its failure context. -/
def createdFailure (w : World A) (o : Opening) (payload : Payload) (openEventId : String) (e : RealtimeError) : Exn :=
  match safeEventFields payload with
  | .error e => e
  | .ok (eventType,fieldNames) =>
    let control := match RelayControl.decodeRuntimeEvent payload with
      | .ok (some (.failed failed)) => some failed
      | _ => none
    let failure : RealtimeFailureContext := {
      stage := "control.open", eventType, fieldNames, generation := w.nextGeneration F o
      validationField := some ((e.validationField.filter (· ∈ fieldNames)).getD "fields")
      validationReason := some ((e.validationReason.filter (· ∈ failureReasons)).getD "validation_failed")
      relatedEventId := (control.map SessionFailed.relatedEventId).getD (some openEventId)
      clientEventType := some "tokenseller.session.open"
      controlCode := control.bind SessionFailed.controlCode
      messageClass := control.bind SessionFailed.messageClass
      retryable := control.map SessionFailed.retryable
      fatal := control.bind SessionFailed.fatal }
    .realtime { e with failure := some failure }

/-- The handshake has been refused: reading the generation creates the record of the session. -/
def refuse (w : World A) (j : ℕ) (o : Opening) (payload : Payload) (openEventId : String) : Exn → World A
  | .realtime e => (w.touch F o.client o.request.externalSessionId).close j o (w.createdFailure F o payload openEventId e)
  | e => w.close j o e

def sessionConfig (o : Opening) (credential : MintedRealtimeCredential) (openEventId : String) (generation : ℕ) :
    SessionConfig A :=
  let cc := F.config o.client
  { adapter := cc.adapter, initialAdapter := cc.initialAdapter, request := o.request, capability := credential.capability
    generation, correlation := o.correlation, hasDispatcher := cc.hasDispatcher
    clientEvents := (∅ : Dict String String).set openEventId "tokenseller.session.open"
    digest := cc.digest, eventSize := cc.eventSize, loads := cc.loads }

def setGeneration (w : World A) (k generation : ℕ) : World A := w.setClient k { w.clients k with generation }

/-- The constructor of the session as far as it writes to the recovery state. -/
def beginSession (w : World A) (o : Opening) (generation : ℕ) : ℕ × World A :=
  let ext := o.request.externalSessionId
  let (generation,s) := (w.state F o.client ext).beginSession generation
  (generation,w.setState F o.client ext { s with toolCalls := s.toolCalls ∪ w.seen o.client ext })

/-- A session as its constructor leaves it, and its `start` up to the first suspension. -/
def started (w : World A) (o : Opening) (c : SessionConfig A) (fresh : String) : OpenedSession A :=
  let e : OpenedSession A := ⟨o.client,c,Session.fresh c {}⟩
  let s := Session.useId (Session.fresh c (w.shared F e)) fresh
  { e with session := Session.runTask 0 (Session.startSession c 0 fresh) s }

/-- The session is made and started. The client has taken the next generation before, and takes over the one
that the session was given. -/
def openSession (w : World A) (j : ℕ) (o : Opening) (credential : MintedRealtimeCredential) (openEventId fresh : String) :
    World A :=
  let w := w.setGeneration o.client ((w.clients o.client).generation + 1)
  let (generation,w) := w.beginSession F o (w.clients o.client).generation
  if (F.config o.client).toolDispatchTimeout ≤ 0 then w.close j o .exception
  else
    let w := w.setGeneration o.client generation
    match (F.config o.client).checkStart credential.capability o.request with
    | .error e => w.close j o e
    | .ok () =>
      let e := w.started F o (sessionConfig F o credential openEventId generation) fresh
      let i := w.sessions.length
      { w with sessions := w.sessions ++ [e] }.setOpening j { o with phase := .starting i, session := some i }

/-- The result of the `start` of a session. -/
def startOutcome (w : World A) (i : ℕ) : Option TaskOutcome := (w.sessions[i]?).bind fun e => e.session.outcome 0

/-- `start` has come to its end. -/
def startEnded (w : World A) (j : ℕ) (o : Opening) (i : ℕ) : TaskOutcome → World A
  | .returned => w.setPhase j o (.returned i)
  | .raised .cancelled => w.setPhase j o (.raised .cancelled)
  | .raised e => w.close j o e

/-- `start` has been interrupted by the end of its time. -/
def startExpired (w : World A) (j : ℕ) (o : Opening) (i : ℕ) : TaskOutcome → World A
  | .raised .cancelled => w.close j o openTimeout
  | outcome => w.startEnded j o i outcome

/-- `CancelledError` in a suspended `start`. -/
def interrupt (w : World A) (i : ℕ) (fresh : String) : Option (World A × TaskOutcome) := do
  let w ← w.drive F i (.resume 0 .cancelled fresh)
  return (w,← w.startOutcome i)

/-- Resume a call of `open` with an answer that it can receive where it stands. -/
def resume (w : World A) (j : ℕ) (o : Opening) (fresh : String) : OpenPhase → OpenAnswer → Option (World A)
  | .minting, .minted credential =>
    match (F.config o.client).control.validateMinted credential o.request with
    | .ok () => some (w.setPhase j o (.connecting credential))
    | .error e => some (w.raise F j o e)
  | .minting, .raised e => if e = .cancelled then none else some (w.raise F j o e)
  | .minting, .cancelled => some (w.setPhase j o (.raised .cancelled))
  | .connecting credential, .connected =>
    some (w.setOpening j { o with phase := .sendingOpen credential ("ctl_open_" ++ fresh), connected := true })
  | .connecting _, .timeout => some (w.raise F j o openTimeout)
  | .connecting _, .raised e => if e = .cancelled then none else some (w.raise F j o e)
  | .connecting _, .cancelled => some (w.setPhase j o (.raised .cancelled))
  | .sendingOpen credential openEventId, .sent => some (w.setPhase j o (.receivingCreated credential openEventId))
  | .receivingCreated credential openEventId, .received payload =>
    match (F.config o.client).control.validateSessionCreated payload credential openEventId with
    | .ok () => some (w.openSession F j o credential openEventId fresh)
    | .error e => some (w.refuse F j o payload openEventId e)
  | .receivingCreated .., .eof => some (w.close j o (.realtime { code := .unavailable, retryable := true }))
  | .sendingOpen .., .timeout | .receivingCreated .., .timeout => some (w.close j o openTimeout)
  | .sendingOpen .., .raised e | .receivingCreated .., .raised e => if e = .cancelled then none else some (w.close j o e)
  | .sendingOpen .., .cancelled | .receivingCreated .., .cancelled => some (w.setPhase j o (.raised .cancelled))
  | .starting i, .finished => (w.startOutcome i).map (w.startEnded j o i)
  | .starting i, .timeout => (w.interrupt F i fresh).map fun r => r.1.startExpired j o i r.2
  | .starting i, .cancelled => (w.interrupt F i fresh).map fun r => r.1.startEnded j o i r.2
  | .closing e, .finished | .closing e, .timeout => some (w.raise F j o e)
  | .closing e, .raised e' => if e' = .cancelled then none else some (w.raise F j o e)
  | .closing _, .cancelled => some (w.setPhase j o (.raised .cancelled))
  | _, _ => none

/-- `_open_reserved` up to its suspension in `mint`. -/
def openReserved (w : World A) (k : ℕ) (request : RealtimeOpenRequest) (correlation : String) : World A :=
  let w := w.setClient k { w.clients k with usedCorrelations := insert correlation (w.clients k).usedCorrelations }
  let o : Opening := { client := k, request, correlation }
  let j := w.openings.length
  let w := { w with openings := w.openings ++ [o] }
  match (F.config k).checkRequest request with
  | .ok () => w
  | .error e => w.raise F j o e

/-- An `open` that has no correlation ends before it does anything. -/
def refuseOpen (w : World A) (k : ℕ) (request : RealtimeOpenRequest) (correlation : String) (e : RealtimeError) :
    World A :=
  { w with openings := w.openings ++ [{ client := k, request, correlation, phase := .raised (.realtime e) }] }

/-- Up to four correlations are drawn, and the first that is new is taken. -/
def open_ (w : World A) (k : ℕ) (request : RealtimeOpenRequest) (candidates : List String) : World A :=
  match (candidates.take 4).find? (· ∉ (w.clients k).usedCorrelations) with
  | some correlation => w.openReserved F k request correlation
  | none => w.refuseOpen k request ""
      { code := .internal, message := "unable to allocate an opaque correlation", retryable := true }

/-- `_open_with_correlation`. -/
def openWithCorrelation (w : World A) (k : ℕ) (request : RealtimeOpenRequest) (correlation : String) : World A :=
  if !isCorrelation correlation then
    w.refuseOpen k request correlation
      { code := .invalidRequest, message := "correlation must match the SDK opaque format" }
  else if correlation ∈ (w.clients k).usedCorrelations then
    w.refuseOpen k request correlation { code := .invalidRequest, message := "correlation has already been used" }
  else w.openReserved F k request correlation

/-- The product, the provider and the clock drive a session; its `start` belongs to `open`, and what other sessions
write it sees by itself. -/
def mayDrive : Action → Bool
  | .interfere _ | .resume 0 .cancelled _ => false
  | _ => true

/-- A request is built by its constructor, which refuses the session ids that no recovery state takes. -/
def step (w : World A) : WorldAction → Option (World A)
  | .open k request candidates =>
    if validIdentity request.externalSessionId then some (w.open_ F k request candidates) else none
  | .openWith k request correlation =>
    if validIdentity request.externalSessionId then some (w.openWithCorrelation F k request correlation) else none
  | .answer j answer fresh => do
    let o ← w.openings[j]?
    w.resume F j o fresh o.phase answer
  | .session i action => if mayDrive action then w.drive F i action else none

/-- The clients are new; a recovery state is new or comes from a snapshot. -/
def Init (w : World A) : Prop :=
  ∃ recoveries, (∀ r, RealtimeRecoveryState.Begun (recoveries r)) ∧ w = { recoveries }

abbrev Reachable (w : World A) : Prop := Transition.Reachable (step F) Init w

end World
end HarnessSdk
