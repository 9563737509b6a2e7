import HarnessSdk.Tasks

/-!
# Moves of a running task

Everything a task does between two suspensions is a sequence of `Move`s. Each constructor
is one assignment of the source with the conditions under which the code performs it, so an
invariant has to be checked once for each of them and not for each path of the programs.
-/

namespace HarnessSdk
namespace Session

variable {A : Type}

/-- What a step brings into the session from outside: the fresh part of its event ids, the
frame in hand, what it says, whether it has output for an open part of a completed item, the turns that
it completes and that are no spoken input and the responses that it ends together with the session,
whether the step comes behind the terminal and whether it is a call of the product, whether the session opens, an attempt starts or has its
acknowledgement, the tool output that is submitted, the send that was accepted and the attempt that has ended. -/
structure Brings where
  fresh : String
  payload : Option Payload := none
  speaks : Bool := false
  late : Bool := false
  calls : Bool := false
  reopens : Bool := false
  ack : Option String := none
  introduces : Option String := none
  unspoken : List String := []
  batch : List String := []
  opens : Bool := false
  starts : Bool := false
  acked : Bool := false
  submits : Option (String × String) := none
  accepts : Option (Purpose × ClientEvent) := none
  ended : Option (TaskId × String × String) := none

/-- An event that can reach the product although the session has an owner: no failure, and no output
of a finished or cancelled response. -/
def audible (book : ResponseBook) : ProviderEvent → Bool
  | .sessionFailed _ => false
  | .outputText o .. | .outputAudioStarted o | .outputAudio o _ | .outputAudioCompleted o =>
    decide (o.responseId ∉ book.terminalResponses) && decide (o.responseId ∉ book.cancelledResponses)
  | _ => true

/-- The part of a response that an output event belongs to. -/
def outputOf : RealtimeEvent → Option OutputIdentity
  | .provider (.outputText o ..) | .provider (.outputAudioStarted o) | .provider (.outputAudio o _)
  | .provider (.outputAudioCompleted o) => some o
  | _ => none

/-- Output for a part that is open, known or just `introduced`, although its item is completed. -/
def reopens (introduced : Option OutputIdentity) (book : ResponseBook) (event : ProviderEvent) : Bool :=
  (outputOf (.provider event)).any fun o =>
    decide ((o.responseId,o.itemId) ∈ book.completedItems) &&
    decide (o ∈ book.contents ∨ introduced = some o) && decide (o ∉ book.completedContents) &&
    decide (o.responseId ∉ book.terminalResponses) && decide (o.responseId ∉ book.cancelledResponses)

/-- The provider event that the frame decodes to. -/
def decoded (c : SessionConfig A) (s : Session A) (payload : Payload) : Option DecodedProviderEvent :=
  (s.decoding c payload).result.toOption

/-- Whether a frame in the hands of the receive loop carries an event for the product: an expiry
notice, or a new provider event that makes the session ready or holds an audible event. -/
def offers (c : SessionConfig A) (s : Session A) (payload : Payload) : Bool :=
  s.isCurrent c && !s.terminal.closing &&
  match RelayControl.decodeRuntimeEvent payload with
  | .ok (some (.expiring _)) => true
  | .ok none =>
    match s.decoded c payload with
    | some d => decide (d.eventId ∉ s.seenEventIds) &&
        ((d.providerReady && !s.ready) || d.events.any (audible s.book))
    | none => false
  | _ => false

/-- Whether a frame in the hands of the receive loop is a new provider event with output for an open part
of a completed item. -/
def reopensItem (c : SessionConfig A) (s : Session A) (payload : Payload) : Bool :=
  s.isCurrent c && !s.terminal.closing &&
  match RelayControl.decodeRuntimeEvent payload, s.decoded c payload with
  | .ok none, some d => decide (d.eventId ∉ s.seenEventIds) && d.events.any (reopens d.introducedContent s.book)
  | _, _ => false

/-- An item that the identity table knows as spoken input. -/
def spoken (s : Session A) (turnId : String) : Bool :=
  (s.shared.state.table.lookup turnId).any fun item => decide (item.source ∈ completedSources)

/-- The turns that the frame in the hands of the receive loop completes as a new provider event, and that
the identity table does not know as spoken input behind the decoder. -/
def unspokenTurns (c : SessionConfig A) (s : Session A) (payload : Payload) : List String :=
  if s.isCurrent c && !s.terminal.closing then
    match RelayControl.decodeRuntimeEvent payload, s.decoded c payload with
    | .ok none, some d =>
      if d.eventId ∈ s.seenEventIds then []
      else d.events.filterMap fun event =>
        match event with
        | .transcriptCompleted turnId _ => if (s.afterDecode c payload).spoken turnId then none else some turnId
        | _ => none
    | _, _ => []
  else []

/-- The responses that a terminal batch ends. -/
def batchFinishes (d : DecodedProviderEvent) : List String :=
  if terminalBatch d then
    d.events.filterMap fun event => match event with
      | .responseFinished response => some response.responseId
      | _ => none
  else []

/-- What a step brings in. -/
def brings (c : SessionConfig A) (s : Session A) (a : Action) : Brings :=
  let late := s.terminal.published
  match a with
  | .call (.submitToolResult id output) fresh => { fresh, late, calls := true, submits := some (id,output) }
  | .call _ fresh => { fresh, late, calls := true }
  | .resume t signal fresh =>
    match s.tasks[t]? with
    | none => { fresh, late }
    | some task =>
      match task.state, signal with
      | .receiving, .frame payload =>
        let d := s.decoded c payload
        { fresh, late, payload := some payload, speaks := s.offers c payload
          reopens := s.reopensItem c payload
          ack := (d.bind DecodedProviderEvent.toolAckIdentity).map fun identity => identity.2.2.2.1
          introduces := d.bind DecodedProviderEvent.introducedResponseId
          unspoken := s.unspokenTurns c payload, batch := d.elim [] batchFinishes }
      | .sending purpose event, .ready => { fresh, late, accepts := some (purpose,event) }
      | .awaitingAttempt j id output, .ready => { fresh, late, ended := some (j,id,output) }
      | .awaitingToolAck _, .ready => { fresh, late, acked := true }
      | .created, .ready =>
        match task.kind with
        | .dispatch call true => { fresh, late, submits := some (call.callId,errorOutput "invalid_arguments") }
        | .attempt .. => { fresh, late, starts := true }
        | _ => { fresh, late }
      | .dispatching call, signal => { fresh, late, submits := some (call.callId,dispatchOutput c signal) }
      | _, _ => { fresh, late }
  | _ => { fresh := "", late }

/-- The frame in hand may put an event: a stretch that has published the terminal itself puts nothing
behind it. -/
def MaySpeak (b : Brings) (s : Session A) : Prop :=
  b.speaks ∧ (s.terminal.published → b.late) ∧ s.terminal.closing = false

/-- A part that the session knows and that neither it nor its response has ended. -/
structure OpenPart (book : ResponseBook) (o : OutputIdentity) : Prop where
  response : o.responseId ∈ book.responses
  unfinished : o.responseId ∉ book.terminalResponses
  uncancelled : o.responseId ∉ book.cancelledResponses
  content : o ∈ book.contents
  incomplete : o ∉ book.completedContents

/-- When an event is put that leaves no other trace in the session. -/
def PutAt (s : Session A) : RealtimeEvent → Prop
  | .provider (.responseFinished _) => False
  | .provider (.transcriptCompleted turnId _) => s.spoken turnId = false
  | event => ∀ o, outputOf event = some o → OpenPart s.book o

/-- A response ends: it is finished and its last event is put, in a terminal batch before all others. -/
def endResponse (c : SessionConfig A) (s : Session A) (t : TaskId) (response : ResponseFinished) (batch : Bool) :
    Session A :=
  if batch then (s.addTerminalResponse response.responseId).putTerminalSafe c t (.provider (.responseFinished response))
  else (s.addTerminalResponse response.responseId).put c t (.provider (.responseFinished response))

/-- Spoken input is complete. -/
def completeInput (s : Session A) (turnId : String) : Session A :=
  { s with shared := { s.shared with state := { s.shared.state with
      completedInputs := insert turnId s.shared.state.completedInputs } } }

/-- No other task holds the context lock. -/
def LockFree (s : Session A) (t : TaskId) : Prop := ∀ j, s.context.holder = some j → j = t

/-- The event builders that change the state of the adapter, with the kinds of tasks that use them. -/
inductive Built (c : SessionConfig A) (k : TaskKind) (fresh : String) (a : A) : A → Prop
  | message (text : String) (role : Role) (request : ContextRequest) (hk : k = .call (.context request)) :
      Built c k fresh a (c.adapter.appendMessage fresh text role a).2
  | instructions (text : String) (request : ContextRequest) (hk : k = .call (.context request)) :
      Built c k fresh a (c.adapter.updateInstructions fresh text a).2
  | outOfBand (text : String) (event : ClientEvent) (a' : A) (request : ContextRequest)
      (hk : k = .call (.context request)) (h : c.adapter.outOfBandResponse fresh text a = .ok (event,a')) :
      Built c k fresh a a'
  | session (event : ClientEvent) (a' : A) (hk : k = .start)
      (h : c.adapter.sessionUpdate fresh c.request a = .ok (event,a')) : Built c k fresh a a'

/-- The event is what the adapter has just made of the frame in hand. -/
def JustDecoded (c : SessionConfig A) (b : Brings) (s : Session A) (d : DecodedProviderEvent) : Prop :=
  ∃ payload, ∃ u : Session A, b.payload = some payload ∧ u.decoded c payload = some d ∧
    s.adapter = (u.decoding c payload).adapter

/-- The assignments to the response book, but for a new response. -/
inductive BookMove (book : ResponseBook) : ResponseBook → Prop
  | item (item : String × String) (h : item.1 ∈ book.responses) (hh : item ∉ book.items) :
      BookMove book { book with items := insert item book.items }
  | functionCall (item : String × String × ℕ) (h : (item.1,item.2.1) ∈ book.items) :
      BookMove book { book with functionCallItems := insert item book.functionCallItems }
  | content (content : OutputIdentity) (h : (content.responseId,content.itemId) ∈ book.items)
      (hh : content ∉ book.contents) : BookMove book { book with contents := content :: book.contents }
  | finished (id : String) (h : id ∈ book.responses) (hh : id ∉ book.terminalResponses) :
      BookMove book { book with terminalResponses := insert id book.terminalResponses }
  | cancelled (id : String) (h : id ∈ book.responseOrder) (hh : id ∉ book.terminalResponses) :
      BookMove book { book with cancelledResponses := insert id book.cancelledResponses }
  | completed (content : Option OutputIdentity) (item : Option (String × String))
      (h : ∀ o, content = some o → o ∈ book.contents) (hh : ∀ i, item = some i → i ∈ book.items) :
      BookMove book { book with
        completedContents := content.toList ++ book.completedContents
        completedItems := item.elim book.completedItems fun item => insert item book.completedItems }

/-- An injection is the one that a context call asks for. -/
def InjectionFits (c : SessionConfig A) : ContextRequest → Injection → Prop
  | .appendMessage text role trigger key, inj => inj.key = key ∧ inj.trigger = trigger ∧
      ∃ fresh a, inj.event = (c.adapter.appendMessage fresh text role a).1
  | .updateInstructions _ trigger, inj => inj.key = none ∧ inj.trigger = trigger
  | .outOfBandResponse _, inj => inj.key = none ∧ inj.trigger = false

/-- A task whose context call has sent neither its frame nor the response trigger. -/
def NotInjected (s : Session A) (t : TaskId) : Prop :=
  ∀ inj event, .issued t (.inject inj) event ∉ s.log ∧ .issued t (.trigger inj) event ∉ s.log

def NotTriggered (s : Session A) (t : TaskId) : Prop :=
  ∀ inj event, .issued t (.trigger inj) event ∉ s.log

/-- The calls that send one frame and wait for nothing else. -/
def SendsPlain : TaskKind → Prop
  | .call .cancelResponse | .call (.truncateOutput ..) => True
  | _ => False

/-- The call that sends this much audio. -/
def SendsAudio (k : TaskKind) (bytes : ℕ) : Prop := ∃ pcm, k = .call (.sendAudio pcm) ∧ pcm.length = bytes

/-- The kinds of tasks that raise the failure of a session. -/
def MayFail : TaskKind → Prop
  | .controlledClose _ | .call (.close _) => False
  | _ => True

/-- What is known of a task of a kind that waits for a send. -/
def SendAt (c : SessionConfig A) (s : Session A) (t : TaskId) (k : TaskKind) : Purpose → Prop
  | .start => k = .start
  | .audio bytes => SendsAudio k bytes
  | .plain => SendsPlain k
  | .inject inj => s.context.holder = some t ∧ NotTriggered s t ∧
      ∃ request, k = .call (.context request) ∧ InjectionFits c request inj
  | .trigger inj => s.context.holder = some t ∧
      ∃ request, k = .call (.context request) ∧ InjectionFits c request inj
  | .result id | .followup id => ∃ output, k = .attempt id output
  | .close reason => k = .controlledClose reason ∧ s.terminal.closing ∧ ¬s.terminal.published

/-- The `finally` clauses of a frame release nothing that another task holds. -/
def FrameAt (s : Session A) (t : TaskId) : Frame → Prop
  | .lock | .injection _ => s.context.holder = some t
  | _ => True

/-- A call that sends audio, and no other task, has a reservation to release. -/
def Holds (k : TaskKind) : Frame → Prop
  | .audio bytes => SendsAudio k bytes
  | _ => ∀ pcm, k ≠ .call (.sendAudio pcm)

def AfterAt (s : Session A) (t : TaskId) (k : TaskKind) : After → Prop
  | .done => k = .receiver ∨ ∃ reason, k = .controlledClose reason
  | .raise _ frame => FrameAt s t frame ∧ MayFail k ∧ Holds k frame

/-- What is known of a task of a kind in a state. -/
def At (c : SessionConfig A) (s : Session A) (t : TaskId) (k : TaskKind) : TaskState → Prop
  | .created => (∀ reason, k = .controlledClose reason → ¬s.terminal.closing) ∧ k ≠ .start ∧
      ∀ call, k ≠ .call call
  | .running => False
  | .receiving => k = .receiver
  | .sending purpose event => SendAt c s t k purpose ∧ .issued t purpose event ∈ s.log ∧
      ∀ inj, purpose = .inject inj → event = inj.event
  | .awaitingLock request => k = .call (.context request) ∧ NotInjected s t
  | .awaitingContextAck inj => SendAt c s t k (.inject inj) ∧ .issued t (.inject inj) inj.event ∈ s.log
  | .awaitingToolAck id => ∃ output, k = .attempt id output
  | .awaitingCloseAck reason => SendAt c s t k (.close reason)
  | .awaitingAttempt _ id output => k = .call (.submitToolResult id output) ∨
      ∃ call invalid, k = .dispatch call invalid ∧ call.callId = id
  | .awaitingClose j => s.control.task = some j ∧
      ∃ reason, k = .call (.close reason) ∧ s.control.reason = some reason
  | .dispatching call => k = .dispatch call false
  | .closingConnection after | .joiningReceiver after => s.terminal.published ∧ AfterAt s t k after
  | .finished _ => True

/-- The conditions under which a frame is handed to `send_text`. -/
def IssueAt (c : SessionConfig A) (b : Brings) (s : Session A) (t : TaskId) (k : TaskKind)
    (event : ClientEvent) : Purpose → Prop
  | .start => k = .start ∧ b.opens
  | .audio bytes => SendsAudio k bytes ∧ s.isActive c
  | .plain => SendsPlain k ∧ s.isActive c ∧ b.calls
  | .inject inj => SendAt c s t k (.inject inj) ∧ inj.event = event ∧ NotInjected s t ∧
      (∀ key, inj.key = some key → .keyClaimed t key ∈ s.log) ∧ s.isActive c
  | .trigger inj => SendAt c s t k (.trigger inj) ∧ NotTriggered s t ∧
      .issued t (.inject inj) inj.event ∈ s.log ∧ s.isActive c
  | .result id => b.starts ∧ (∃ output, k = .attempt id output) ∧
      ∃ r, s.record id = some r ∧ r.state = .resultSent ∧ r.resultPayload = some event
  | .followup id => (b.starts ∨ b.acked ∨ ∃ event', b.accepts = some (.result id,event')) ∧
      (∃ output, k = .attempt id output) ∧
      ∃ r, s.record id = some r ∧ r.state = .followupRequested ∧ r.followupPayload = some event
  | .close reason => SendAt c s t k (.close reason) ∧
      ∀ j reason' event', .issued j (.close reason') event' ∉ s.log

/-- The frames that the builders make with a fresh part for the event id, with the kinds of tasks that use them. -/
inductive Makes (c : SessionConfig A) (k : TaskKind) (fresh : String) : ClientEvent → Prop
  | session (a : A) (ea : ClientEvent × A) (hk : k = .start) (h : c.adapter.sessionUpdate fresh c.request a = .ok ea) :
      Makes c k fresh ea.1
  | audio (pcm : Bytes) (event : ClientEvent) (hk : k = .call (.sendAudio pcm))
      (h : c.adapter.audioAppend fresh pcm = .ok event) : Makes c k fresh event
  | cancel (id : Option String) (hk : k = .call .cancelResponse) : Makes c k fresh (c.adapter.cancelResponse fresh id)
  | truncate (itemId : String) (contentIndex audioEndMs : ℤ) (event : ClientEvent)
      (hk : k = .call (.truncateOutput itemId contentIndex audioEndMs))
      (h : c.adapter.truncateOutput fresh itemId contentIndex audioEndMs = .ok event) : Makes c k fresh event
  | result (id output : String) (hk : k = .attempt id output) : Makes c k fresh (c.adapter.toolResult fresh id output)
  | followup (id : String) (a : A) : Makes c k fresh (c.adapter.followupResponse fresh id a)
  | message (text : String) (role : Role) (a : A) : Makes c k fresh (c.adapter.appendMessage fresh text role a).1
  | instructions (text : String) (a : A) : Makes c k fresh (c.adapter.updateInstructions fresh text a).1
  | outOfBand (text : String) (a : A) (ea : ClientEvent × A) (h : c.adapter.outOfBandResponse fresh text a = .ok ea) :
      Makes c k fresh ea.1
  | close (reason : String) (event : ClientEvent) (hk : k = .controlledClose reason)
      (h : buildBoundSessionClose fresh reason = .ok event) : Makes c k fresh event

/-- The ids that a failure may refer to: a printable one, or that of a frame of the session. -/
inductive Refers (s : Session A) : String → Prop
  | printable (id : String) (h : Text.isOpaqueId id) : Refers s id
  | sent (id : String) (h : id ∈ s.failure.sentEventTypes) : Refers s id
  | issued (j : TaskId) (purpose : Purpose) (event : ClientEvent) (h : .issued j purpose event ∈ s.log) :
      Refers s event.eventId
  | result (id : String) (r : ToolRecord) (event : ClientEvent) (hr : s.record id = some r)
      (h : r.resultPayload = some event) : Refers s event.eventId
  | closing (id : String) (h : s.control.pendingEventId = some id) : Refers s id

/-- The stages at which a failure is captured. -/
def failureStages : List String :=
  ["provider.send", "provider.receive", "context.ack_timeout", "tool.ack_timeout", "close.ack_timeout",
    "control.decode", "control.terminal", "control.closed", "adapter.decode", "adapter.apply"]

/-- What the call sites of `_capture_failure` hand over. -/
structure Captures (s : Session A) (stage : String) (args : FailureArgs) : Prop where
  stage : stage ∈ failureStages
  event : ∀ type names, args.event = some (type,names) →
    Text.isStableWord type ∧ ∀ name ∈ names, name ∈ safeFailureFields
  related : ∀ id, args.relatedEventId = some id → s.Refers id
  client : ∀ type, args.clientEventType = some type → ∃ id, s.failure.sentEventTypes.get id = some type
  message : ∀ name, args.messageClass = some name → name ∈ RelayControl.messageClasses
  retry : ∀ ms, args.retryAfterMs = some ms → 0 ≤ ms ∧ ms ≤ 3600000

/-- One assignment of a running task `t` of kind `k`. -/
inductive Move (c : SessionConfig A) (b : Brings) (t : TaskId) (k : TaskKind) (s : Session A) :
    Session A → Prop
  | count (counters : Counters) (seen : Finset String) : Move c b t k s { s with counters, seenEventIds := seen }
  | gauge (input : InputGauge) (bytes : ℕ) (hk : SendsAudio k bytes) : Move c b t k s { s with input }
  | capture (stage : String) (args : FailureArgs) (h : s.terminal.published → b.late) (ha : s.Captures stage args) :
      Move c b t k s (s.capture c stage args)
  | remember (event : ClientEvent) (h : Makes c k b.fresh event) : Move c b t k s (s.remember event)
  | looked (payload : Payload) (fields : String × List String) (h : safeEventFields payload = .ok fields) :
      Move c b t k s { s with failure := { s.failure with lastEventType := fields.1, lastFieldNames := fields.2 } }
  | book (book : ResponseBook) (h : BookMove s.book book) (hc : s.terminal.closing = false) :
      Move c b t k s { s with book }
  | ready (h : s.ready = false) : Move c b t k s { s with ready := true }
  | build (a : A) (h : Built c k b.fresh s.adapter a) : Move c b t k s { s with adapter := a }
  | decode (payload : Payload) (h : b.payload = some payload) : Move c b t k s (s.afterDecode c payload)
  | completedInput (turnId : String) (h : s.spoken turnId) (hh : turnId ∉ s.shared.state.completedInputs) :
      Move c b t k s (s.completeInput turnId)
  | transcribed (turnId text : String) (h : MaySpeak b s) (hs : s.spoken turnId)
      (hh : turnId ∉ s.shared.state.completedInputs)
      (hroom : s.hasRoom c (.provider (.transcriptCompleted turnId text))) :
      Move c b t k s ((s.completeInput turnId).put c t (.provider (.transcriptCompleted turnId text)))
  | put (event : RealtimeEvent) (hat : s.PutAt event) (h : MaySpeak b s) (hh : ¬event.isTerminal)
      (hroom : s.hasRoom c event)
      (hitem : ∀ o, outputOf event = some o → (o.responseId,o.itemId) ∈ s.book.completedItems → b.reopens)
      (hturn : ∀ turnId text, event = .provider (.transcriptCompleted turnId text) → turnId ∈ b.unspoken) :
      Move c b t k s (s.put c t event)
  | finish (response : ResponseFinished) (batch : Bool) (h : MaySpeak b s)
      (hr : response.responseId ∈ s.book.responses) (hh : response.responseId ∉ s.book.terminalResponses)
      (hroom : batch = false → s.hasRoom c (.provider (.responseFinished response)))
      (hbatch : batch → response.responseId ∈ b.batch) :
      Move c b t k s (s.endResponse c t response batch)
  | publish (e : TerminalEvent) (i : CloseInitiator) (d : CloseDisposition) (h : s.terminal.owner = none)
      (hh : ∀ closed, e = .closed closed → i = closed.initiator ∧ d = closed.disposition) :
      Move c b t k s (s.publish c t e i d)
  | shutdown (h : s.terminal.published) : Move c b t k s (s.beginShutdown t)
  | cancelReceiver (j : TaskId) (h : s.receiver = some j) :
      Move c b t k s (s.requestCancel fun i _ => decide (i = j))
  | claimClean (reason : String) (hk : k = .controlledClose reason) (h : s.terminal.owner = none) :
      Move c b t k s (s.claimClean t)
  | pendClose (reason : String) (event : ClientEvent) (hk : k = .controlledClose reason)
      (h : reason ∈ RelayControl.closeReasons) (hm : Makes c k b.fresh event) :
      Move c b t k s { s with control := { s.control with
        pendingEventId := some event.eventId, ack := some .pending } }
  | closeCounters (timeouts mismatches : ℕ) :
      Move c b t k s { s with control := { s.control with ackTimeouts := timeouts, ackMismatches := mismatches } }
  | closeAck (closed : SessionClosed) (h : s.terminal.closing) (hh : s.isCloseAck closed)
      (hp : s.control.ack = some .pending) :
      Move c b t k s { s with control := { s.control with ack := some (.acknowledged closed) } }
  | conclude (reason : String) (ack : Option SessionClosed) (hk : k = .controlledClose reason)
      (h : s.terminal.closing) (hh : ¬s.terminal.published)
      (hack : ∀ closed, ack = some closed → s.control.ack = some (.acknowledged closed)) :
      Move c b t k s (s.concludeClose c t reason ack)
  | spawnReceiver (hk : k = .start) :
      Move c b t k s { s.spawn .receiver with receiver := some s.tasks.length }
  | spawnClose (reason : String) (hk : k = .call (.close reason)) (h : s.control.task = none) :
      Move c b t k s { s.spawn (.controlledClose reason) with
        control := { s.control with task := some s.tasks.length, reason := some reason } }
  | spawnAttempt (id output : String) (r : ToolRecord) (h : b.submits = some (id,output))
      (hr : s.record id = some r) (hlive : s.liveAttempt r = none) (ho : ∀ o, r.output = some o → o = output) :
      Move c b t k s ((s.spawn (.attempt id output)).setRecord id { r with attempt := some s.tasks.length })
  | register (call : ToolCallRequested) (h : call.callId ∉ s.tools.records)
      (hh : call.callId ∉ s.shared.state.toolCalls) (hg : call.generation = c.generation) :
      Move c b t k s (s.registerTool c call)
  | output (id output : String) (r : ToolRecord) (hk : k = .attempt id output) (hb : b.starts)
      (hr : s.record id = some r) (h : r.state = .requested) :
      Move c b t k s (s.setRecord id { r with output := some output, ack := false })
  | result (id output : String) (r : ToolRecord) (event : ClientEvent) (hk : k = .attempt id output)
      (hb : b.starts) (hr : s.record id = some r) (h : r.state = .requested) (ho : r.output = some output)
      (he : event.body = .functionCallOutput id output) (hm : Makes c k b.fresh event) :
      Move c b t k s (s.setRecord id { r with resultPayload := some event, state := .resultSent })
  | ackResult (id : String) (r : ToolRecord) (h : b.ack = some id) (hr : s.record id = some r)
      (hs : r.state = .resultSent) :
      Move c b t k s ((s.setRecord id { r with state := .resultAcked, ack := true }).observe (.resultAcked id))
  | followup (id output : String) (r : ToolRecord) (event : ClientEvent) (hk : k = .attempt id output)
      (hr : s.record id = some r) (h : r.state = .resultAcked) (hm : Makes c k b.fresh event) :
      Move c b t k s (s.requestFollowup id r event)
  | introduce (id : String) (h : b.introduces = some id) (ha : s.admitsResponse id)
      (hc : s.terminal.closing = false) :
      Move c b t k s (s.addResponse id).startFollowup
  | issue (purpose : Purpose) (event : ClientEvent) (h : IssueAt c b s t k event purpose)
      (hm : Makes c k b.fresh event ∨ ∃ id r, s.record id = some r ∧
        (r.resultPayload = some event ∨ r.followupPayload = some event)) :
      Move c b t k s (s.observe (.issued t purpose event))
  | accept (purpose : Purpose) (event : ClientEvent) (h : b.accepts = some (purpose,event)) :
      Move c b t k s (s.observe (.accepted t purpose event))
  | submitReturned (j : TaskId) (id output : String) (h : b.ended = some (j,id,output))
      (hh : s.outcome j = some .returned) : Move c b t k s (s.observe (.submitReturned id output))
  | dispatched (call : ToolCallRequested) (hk : k = .dispatch call false) (h : s.isActive c) :
      Move c b t k s (s.observe (.dispatched call))
  | acquire (waiters : List TaskId) (h : s.context.holder = none) :
      Move c b t k s { s with context := { s.context with holder := some t, waiters } }
  | queue (waiters : List TaskId) : Move c b t k s { s with context := { s.context with waiters } }
  | release (h : LockFree s t) : Move c b t k s { s with context := { s.context with holder := none } }
  | pend (eventId : String) (h : s.context.holder = some t) :
      Move c b t k s { s with context := { s.context with
        pending := s.context.pending.set eventId .waiting } }
  | unpend (eventId : String) (h : LockFree s t) :
      Move c b t k s { s with context := { s.context with pending := s.context.pending.erase eventId } }
  | rejectContext (eventId : String) (error : RealtimeError)
      (h : s.context.pending.get eventId = some .waiting) (d : DecodedProviderEvent) (hd : JustDecoded c b s d)
      (hid : d.rejectedEventId = some eventId) :
      Move c b t k s { s with context := { s.context with
        pending := s.context.pending.set eventId (.rejected error) } }
  | ackContext (d : DecodedProviderEvent) (hd : JustDecoded c b s d) : Move c b t k s (s.acknowledgeContext d)
  | prior (itemId : String) (h : s.context.holder = some t) :
      Move c b t k s { s with context := { s.context with ackId := some itemId } }
  | claimKey (key text : String) (role : Role) (trigger : Bool) (state : SessionState)
      (hk : k = .call (.context (.appendMessage text role trigger (some key))))
      (h : s.context.holder = some t) (hn : NotInjected s t)
      (hh : s.shared.state.claimMessage key (c.digest text role trigger) = .ok (none,state)) :
      Move c b t k s { s with shared := { s.shared with state }, log := .keyClaimed t key :: s.log }
  | confirmKey (inj : Injection) (key itemId : String) (state : SessionState)
      (h : SendAt c s t k (.inject inj)) (hi : .issued t (.inject inj) inj.event ∈ s.log)
      (hkey : inj.key = some key) (ha : s.context.ackId = some itemId)
      (hp : s.context.pending.get inj.event.eventId = some .acknowledged)
      (hh : s.shared.state.confirmMessage key itemId = .ok state) :
      Move c b t k s { s with shared := { s.shared with state }, log := .keyConfirmed key itemId :: s.log }

/-- The moves of a stretch. -/
abbrev Moves (c : SessionConfig A) (b : Brings) (t : TaskId) (k : TaskKind) : Session A → Session A → Prop :=
  Relation.ReflTransGen (Move c b t k)

/-- Where a stretch may suspend. -/
def Parks (c : SessionConfig A) (b : Brings) (t : TaskId) (k : TaskKind) (p : TaskState) (s : Session A) :
    Prop :=
  At c s t k p ∧
  match p with
  | .awaitingAttempt j id output => b.submits = some (id,output) ∧
      ∃ r, s.record id = some r ∧ r.attempt = some j ∧ s.outcome j = none ∧
        ∀ o, r.output = some o → o = output
  | .awaitingToolAck id => ∃ event, b.accepts = some (.result id,event)
  | .receiving => s.terminal.published = false
  | .finished _ | .created => False
  | _ => True

end Session
end HarnessSdk
