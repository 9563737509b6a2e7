import HarnessSdk.Coroutine
import HarnessSdk.FlatMessages
import HarnessSdk.ServiceWire
import HarnessSdk.Transition

/-!
# The command line

`ask`, `status` and `cancel` with the polling of a command, and the cancellation that an interrupt submits. Times are in
milliseconds.
-/

namespace HarnessSdk
namespace Cli

open Run Transition
open Chat (CommandOutcome CommandSnapshot StartRequest CancelRequest)
open UnixService (ServiceErrorCode)

def observeDeadline : ℕ := 315000
def cancelReconcile : ℕ := 5000
def pollInitial : ℕ := 100
def pollMax : ℕ := 1000

inductive ExitCode
  | ok | usage | protocol | timeout | failed | cancelled
  deriving DecidableEq, Repr

def ExitCode.value : ExitCode → ℕ
  | ok => 0 | usage => 2 | protocol => 3 | timeout => 4 | failed => 5 | cancelled => 6

/-- What `run` is asked for. The chat is a component of its own. -/
inductive CliCommand
  | ask (message session : String)
  | status (commandId : String)
  | cancel (runId : String)
  deriving DecidableEq, Repr

/-- What a call of the client raises. -/
inductive ClientFailure
  | service (code : ServiceErrorCode)
  | other
  deriving DecidableEq, Repr

inductive CliExn
  | client (failure : ClientFailure)
  | value
  | runtime (message : String)
  | cancelled
  deriving DecidableEq, Repr

/-- The variables of `_observe`; it does not cancel on an interrupt when it is part of `_cancel_and_reconcile`. -/
structure Watch where
  runId : String
  commandId : String
  deadline : ℕ
  delay : ℕ
  reconciles : Bool
  deriving DecidableEq, Repr

/-- Where a task is suspended. -/
inductive CliPoint
  | created (runId commandId : String)
  | starting (runId commandId : String)
  | fetching
  | getting (watch : Watch)
  | sleeping (watch : Watch) (wakeAt : ℕ)
  | cancelling (runId commandId : String)
  | shielding
  deriving DecidableEq, Repr

inductive CliState
  | at (point : CliPoint)
  | returned (code : ExitCode)
  | raised (e : CliExn)
  deriving DecidableEq, Repr

/-- What is recorded of a history: the calls of the client, what they gave, and the two outputs. -/
inductive CliTrace
  | started (request : StartRequest)
  | got (commandId : String)
  | cancelled (request : CancelRequest)
  | answered (snapshot : CommandSnapshot)
  | refused (code : ServiceErrorCode)
  | printed (text : String)
  | printedJson (value : Json.Object)
  | reported (text : String)

/-- The engine with its task and the one that it shields. -/
structure CliEngine where
  now : ℕ := 0
  command : Option CliCommand := none
  main : Option CliState := none
  shield : Option CliState := none
  log : List CliTrace := []

abbrev Prog (α : Type) := Run CliEngine CliPoint CliExn α

inductive CliTask
  | main | shield
  deriving DecidableEq, Repr

/-- What a suspended task is resumed with. A cancellation brings the random part of an identifier. -/
inductive CliSignal
  | ready
  | snapshot (snapshot : CommandSnapshot)
  | raised (failure : ClientFailure)
  | cancelled (token : String)
  deriving DecidableEq

inductive Action
  | begin (command : CliCommand) (runToken commandToken : String)
  | resume (task : CliTask) (signal : CliSignal)
  | tick (now : ℕ)
  deriving DecidableEq

namespace CliEngine

def observe (s : CliEngine) (t : CliTrace) : CliEngine := { s with log := t :: s.log }

def record (t : CliTrace) : Prog Unit := Run.modify fun s => s.observe t

/-- `_snapshot_json`. -/
def snapshotJson (s : CommandSnapshot) : Json.Object :=
  [("command_id",.str s.receipt.commandId),("run_id",.str s.receipt.runId),
    ("state",.str (UnixService.commandState.value s.receipt.state)),
    ("kind",.str (UnixService.commandKind.value s.receipt.kind)),
    ("output_state",.str (UnixService.outputState.value s.outputState)),
    ("output_text",UnixService.optionalText s.outputText),("error_code",UnixService.optionalText s.errorCode),
    ("run_state",UnixService.optionalText (s.runState.map UnixService.runState.value)),
    ("outcome",.str (UnixService.commandOutcome.value s.outcome))]

def emitOutcome (snapshot : CommandSnapshot) (emitOutput : Bool) : Prog ExitCode :=
  match snapshot.outcome with
  | .completed => do
    match snapshot.outputText.filter fun _ => emitOutput with
    | some text => record (.printed text)
    | none => pure ()
    pure .ok
  | .failed => do
    record (.reported "failed")
    pure .failed
  | .cancelled => do
    record (.reported "cancelled")
    pure .cancelled
  | .protocolError => do
    record (.reported "protocol_error")
    pure .protocol
  | .pending => Run.raise (.runtime "pending outcome cannot be emitted")

/-- What stands behind `_observe`. -/
def observed (w : Watch) (code : ExitCode) : Prog ExitCode := do
  if w.reconciles && code == .timeout then
    record (.reported ("cancel pending run_id=" ++ w.runId ++ " command_id=" ++ w.commandId))
  pure code

/-- The test of the loop of `_observe`, and its next call of the client. -/
def look (w : Watch) : Prog ExitCode := do
  let s ← Run.get
  if s.now < w.deadline then do
    record (.got w.commandId)
    Run.suspend (.getting w)
  else do
    record (.reported ("timeout run_id=" ++ w.runId ++ " command_id=" ++ w.commandId))
    observed w .timeout

def watch (runId commandId : String) (seconds : ℕ) (reconciles : Bool) : Prog ExitCode := do
  let s ← Run.get
  look { runId, commandId, deadline := s.now + seconds, delay := pollInitial, reconciles }

def answered (w : Watch) (snapshot : CommandSnapshot) : Prog ExitCode := do
  record (.answered snapshot)
  let s ← Run.get
  if snapshot.outcome ≠ .pending then do
    let code ← emitOutcome snapshot true
    observed w code
  else Run.suspend (.sleeping w (s.now + w.delay))

def slept (w : Watch) : Prog ExitCode := look { w with delay := min pollMax (w.delay * 2) }

def accepted (runId commandId : String) (seconds : ℕ) (reconciles : Bool) : Prog ExitCode := do
  record (.reported ("accepted run_id=" ++ runId ++ " command_id=" ++ commandId))
  watch runId commandId seconds reconciles

def ask (message session runToken commandToken : String) : Prog ExitCode :=
  let runId := "run-" ++ runToken
  let commandId := "command-" ++ commandToken
  if Text.isBlank message then pure .usage
  else match StartRequest.make session runId commandId message with
    | none => Run.raise .value
    | some request => do
      record (.started request)
      Run.suspend (.starting runId commandId)

def cancelAndReconcile (runId commandId : String) : Prog ExitCode :=
  match CancelRequest.make runId commandId with
  | none => Run.raise .value
  | some request => do
    record (.cancelled request)
    Run.suspend (.cancelling runId commandId)

def begin_ (command : CliCommand) (runToken commandToken : String) : Prog ExitCode :=
  match command with
  | .ask message session => ask message session runToken commandToken
  | .status commandId => do
    record (.got commandId)
    Run.suspend .fetching
  | .cancel runId => cancelAndReconcile runId ("cancel-" ++ commandToken)

/-- `CancelledError` in `_observe`: a task of its own submits the cancellation. -/
def interrupted (w : Watch) (token : String) : Prog ExitCode :=
  if w.reconciles then Run.raise .cancelled
  else do
    Run.modify fun s => { s with shield := some (.at (.created w.runId ("cancel-" ++ token))) }
    Run.suspend .shielding

/-- The program that follows a signal. A sleep is over no earlier than it says. -/
def resumeTask (s : CliEngine) : CliPoint → CliSignal → Option (Prog ExitCode)
  | .created runId commandId, .ready => some (cancelAndReconcile runId commandId)
  | .starting runId commandId, .ready => some (accepted runId commandId observeDeadline false)
  | .fetching, .snapshot snapshot => some (do
      record (.answered snapshot)
      record (.printedJson (snapshotJson snapshot))
      emitOutcome snapshot false)
  | .getting w, .snapshot snapshot => some (answered w snapshot)
  | .sleeping w wakeAt, .ready => if wakeAt ≤ s.now then some (slept w) else none
  | .cancelling runId commandId, .ready => some (accepted runId commandId cancelReconcile true)
  | .shielding, .ready =>
    match s.shield with
    | some (.returned _) => some (Run.raise .cancelled)
    | some (.raised e) => some (Run.raise e)
    | _ => none
  | .starting .., .raised failure | .fetching, .raised failure | .getting _, .raised failure
  | .cancelling .., .raised failure => some (Run.raise (.client failure))
  | .getting w, .cancelled token | .sleeping w _, .cancelled token => some (interrupted w token)
  | _, .cancelled _ => some (Run.raise .cancelled)
  | _, _ => none

/-- The handlers of `run`. -/
def handled (m : Prog ExitCode) : Prog ExitCode :=
  Run.handle m fun e =>
    match e with
    | .client (.service code) => do
      record (.refused code)
      record (.reported (UnixService.serviceErrorCode.value code))
      pure (if code = .timeout then .timeout else .protocol)
    | e => Run.raise e

/-- Where a stretch of a task leads. -/
def restOf : Outcome CliEngine CliPoint CliExn ExitCode → CliState
  | .ok code _ => .returned code
  | .raise e _ => .raised e
  | .park point _ => .at point

def settleMain (m : Prog ExitCode) (s : CliEngine) : CliEngine :=
  { (handled m s).state with main := some (restOf (handled m s)) }

def settleShield (m : Prog ExitCode) (s : CliEngine) : CliEngine := { (m s).state with shield := some (restOf (m s)) }

/-- The shielded task is cancelled only by the end of the event loop. -/
def mayCancel (s : CliEngine) : CliSignal → Bool
  | .cancelled _ => match s.main with
    | some (.at _) => false
    | _ => true
  | _ => true

def step (s : CliEngine) : Action → Option CliEngine
  | .begin command runToken commandToken =>
    if s.main = none then some (settleMain (begin_ command runToken commandToken) { s with command := some command })
    else none
  | .resume .main signal =>
    match s.main with
    | some (.at point) => (s.resumeTask point signal).map fun m => settleMain m s
    | _ => none
  | .resume .shield signal =>
    match s.shield with
    | some (.at point) =>
      if s.mayCancel signal then (s.resumeTask point signal).map fun m => settleShield m s else none
    | _ => none
  | .tick now => if s.now ≤ now then some { s with now } else none

def Init (s : CliEngine) : Prop := ∃ now, s = { now }

/-! What a stretch of a task leaves. -/

def append (s : CliEngine) (new : List CliTrace) : CliEngine := { s with log := new ++ s.log }

def isOutput : CliTrace → Bool
  | .printed _ | .printedJson _ | .reported _ => true
  | _ => false

/-- The exit code of a closed outcome. -/
def codeOf : CommandOutcome → Option ExitCode
  | .completed => some .ok
  | .failed => some .failed
  | .cancelled => some .cancelled
  | .protocolError => some .protocol
  | .pending => none

def CliState.isOver : CliState → Bool
  | .at _ => false
  | _ => true

/-- The texts that an outcome may print. -/
def Prints (snapshot : CommandSnapshot) (out : List CliTrace) : Prop :=
  (∀ t ∈ out, isOutput t) ∧
    ∀ text, .printed text ∈ out → snapshot.outcome = .completed ∧ snapshot.outputText = some text

variable {s s' : CliEngine} {w : Watch} {snapshot : CommandSnapshot}

theorem emitOutcome_closed (emitOutput : Bool) (h : snapshot.outcome ≠ .pending) :
    ∃ code out, codeOf snapshot.outcome = some code ∧ Prints snapshot out ∧
      emitOutcome snapshot emitOutput s = .ok code (s.append out) := by
  unfold emitOutcome
  cases ho : snapshot.outcome with
  | pending => exact absurd ho h
  | completed =>
    cases ht : snapshot.outputText.filter fun _ => emitOutput with
    | none => exact ⟨.ok,[],rfl,⟨by simp,by simp⟩,rfl⟩
    | some text =>
      have htext : snapshot.outputText = some text := (Option.filter_eq_some_iff.mp ht).1
      exact ⟨.ok,[.printed text],rfl,⟨by simp [isOutput],by simp [ho,htext]⟩,rfl⟩
  | failed => exact ⟨.failed,[.reported "failed"],rfl,⟨by simp [isOutput],by simp⟩,rfl⟩
  | cancelled => exact ⟨.cancelled,[.reported "cancelled"],rfl,⟨by simp [isOutput],by simp⟩,rfl⟩
  | protocolError => exact ⟨.protocol,[.reported "protocol_error"],rfl,⟨by simp [isOutput],by simp⟩,rfl⟩

theorem emitOutcome_pending {emitOutput : Bool} (h : snapshot.outcome = .pending) :
    emitOutcome snapshot emitOutput s = .raise (.runtime "pending outcome cannot be emitted") s := by
  simp only [emitOutcome,h,Run.raise_apply]

/-- Texts for the user that print no output of a command. -/
def Reports (out : List CliTrace) : Prop := ∀ t ∈ out, ∃ text, t = .reported text

theorem observed_ends (code : ExitCode) : ∃ out, Reports out ∧ observed w code s = .ok code (s.append out) := by
  unfold observed
  by_cases h : (w.reconciles && code == .timeout) = true
  · simp only [if_pos h]
    exact ⟨[.reported _],by simp [Reports],rfl⟩
  · simp only [if_neg h]
    exact ⟨[],by simp [Reports],rfl⟩

theorem look_ends : (s.now < w.deadline ∧ look w s = .park (.getting w) (s.append [.got w.commandId])) ∨
    ∃ out, Reports out ∧ look w s = .ok .timeout (s.append out) := by
  by_cases h : s.now < w.deadline
  · refine .inl ⟨h,?_⟩
    simp only [look,get_bind,if_pos h]
    rfl
  · obtain ⟨out,hout,hobserved⟩ := observed_ends (s := s.observe (.reported
      ("timeout run_id=" ++ w.runId ++ " command_id=" ++ w.commandId))) (w := w) .timeout
    refine .inr ⟨out ++ [CliTrace.reported ("timeout run_id=" ++ w.runId ++ " command_id=" ++ w.commandId)],?_,?_⟩
    · intro t ht
      obtain ht | ht := List.mem_append.mp ht
      · exact hout t ht
      · exact ⟨_,List.mem_singleton.mp ht⟩
    · simp only [look,get_bind,if_neg h,record,modify_bind]
      rw [hobserved]
      simp [append,observe]

theorem answered_closed (h : snapshot.outcome ≠ .pending) : ∃ code out, codeOf snapshot.outcome = some code ∧
    Prints snapshot out ∧ answered w snapshot s = .ok code (s.append (out ++ [.answered snapshot])) := by
  obtain ⟨code,out,hcode,⟨hout,hprinted⟩,hemit⟩ :=
    emitOutcome_closed (s := s.observe (.answered snapshot)) true h
  obtain ⟨out',hreports,hobserved⟩ :=
    observed_ends (s := (s.observe (.answered snapshot)).append out) (w := w) code
  refine ⟨code,out' ++ out,hcode,⟨fun t ht => ?_,fun text ht => ?_⟩,?_⟩
  · obtain ht | ht := List.mem_append.mp ht
    · obtain ⟨text,rfl⟩ := hreports t ht
      rfl
    · exact hout t ht
  · obtain ht | ht := List.mem_append.mp ht
    · obtain ⟨text',ht'⟩ := hreports _ ht
      simp at ht'
    · exact hprinted text ht
  · simp only [answered,record,modify_bind,get_bind,if_pos h]
    rw [bind_eq hemit,hobserved]
    simp [append,observe]

theorem answered_pending (h : snapshot.outcome = .pending) : answered w snapshot s =
    .park (.sleeping w (s.now + w.delay)) (s.append [.answered snapshot]) := by
  simp only [answered,record,modify_bind,get_bind,h,ne_eq,not_true,if_false]
  rfl

/-- A stretch of a task at a point: what it records, and where it leads. -/
inductive Turn (s : CliEngine) : CliPoint → List CliTrace → CliState → Prop
  | submits {runId commandId : String} (request : CancelRequest) (h : request.externalRunId = runId) :
      Turn s (.created runId commandId) [.cancelled request] (.at (.cancelling runId commandId))
  | watches {point : CliPoint} (runId commandId text : String) (reconciles : Bool)
      (h : point = if reconciles then .cancelling runId commandId else .starting runId commandId) :
      Turn s point [.got commandId,.reported text] (.at (.getting ⟨runId,commandId,
        s.now + (if reconciles then cancelReconcile else observeDeadline),pollInitial,reconciles⟩))
  | polls (w : Watch) (wakeAt : ℕ) (hwake : wakeAt ≤ s.now) (hnow : s.now < w.deadline) :
      Turn s (.sleeping w wakeAt) [.got w.commandId] (.at (.getting { w with delay := min pollMax (w.delay * 2) }))
  | expires (w : Watch) (wakeAt : ℕ) (out : List CliTrace) (hout : Reports out) :
      Turn s (.sleeping w wakeAt) out (.returned .timeout)
  | pends (w : Watch) (snapshot : CommandSnapshot) (h : snapshot.outcome = .pending) :
      Turn s (.getting w) [.answered snapshot] (.at (.sleeping w (s.now + w.delay)))
  | closes {point : CliPoint} (snapshot : CommandSnapshot) (code : ExitCode) (out : List CliTrace)
      (hpoint : point = .fetching ∨ ∃ w, point = .getting w) (hcode : codeOf snapshot.outcome = some code)
      (hout : Prints snapshot out) : Turn s point (out ++ [.answered snapshot]) (.returned code)
  | stuck (snapshot : CommandSnapshot) (h : snapshot.outcome = .pending) :
      Turn s .fetching [.printedJson (snapshotJson snapshot),.answered snapshot]
        (.raised (.runtime "pending outcome cannot be emitted"))
  | raises (point : CliPoint) (e : CliExn) (h : ∀ message, e ≠ .runtime message) (hpoint : point ≠ .shielding) :
      Turn s point [] (.raised e)

theorem accepted_eq (runId commandId : String) {seconds : ℕ} (reconciles : Bool) (h : 0 < seconds) :
    accepted runId commandId seconds reconciles s =
      .park (.getting ⟨runId,commandId,s.now + seconds,pollInitial,reconciles⟩) (s.append [.got commandId,
        .reported ("accepted run_id=" ++ runId ++ " command_id=" ++ commandId)]) := by
  have hnow : s.now < s.now + seconds := Nat.lt_add_of_pos_right h
  simp only [accepted,watch,look,record,modify_bind,get_bind,observe,if_pos hnow]
  rfl

/-- What a stretch leaves is a turn. -/
def Turns (s : CliEngine) (point : CliPoint) (m : Prog ExitCode) : Prop :=
  ∃ new, Turn s point new (restOf (m s)) ∧ (m s).state = s.append new

theorem turns_cancelAndReconcile (runId commandId : String) :
    Turns s (.created runId commandId) (cancelAndReconcile runId commandId) := by
  unfold cancelAndReconcile
  cases hmake : CancelRequest.make runId commandId with
  | none => exact ⟨[],.raises _ .value (by simp) (by simp),rfl⟩
  | some request => exact ⟨[.cancelled request],.submits request (CancelRequest.make_eq hmake).1,rfl⟩

theorem turns_answered (w : Watch) (snapshot : CommandSnapshot) :
    Turns s (.getting w) (answered w snapshot) := by
  by_cases h : snapshot.outcome = .pending
  · refine ⟨[.answered snapshot],?_,?_⟩ <;> rw [answered_pending h]
    · exact .pends w snapshot h
    · rfl
  · obtain ⟨code,out,hcode,hout,heq⟩ := answered_closed (s := s) (w := w) h
    refine ⟨out ++ [CliTrace.answered snapshot],?_,?_⟩ <;> rw [heq]
    · exact .closes snapshot code out (.inr ⟨w,rfl⟩) hcode hout
    · rfl

theorem turns_slept (w : Watch) {wakeAt : ℕ} (hwake : wakeAt ≤ s.now) : Turns s (.sleeping w wakeAt) (slept w) := by
  obtain ⟨hnow,heq⟩ | ⟨out,hout,heq⟩ := look_ends (s := s) (w := { w with delay := min pollMax (w.delay * 2) })
  · refine ⟨[.got w.commandId],?_,?_⟩ <;> rw [slept,heq]
    · exact .polls w wakeAt hwake hnow
    · rfl
  · refine ⟨out,?_,?_⟩ <;> rw [slept,heq]
    · exact .expires w wakeAt out hout
    · rfl

theorem turns_fetched (snapshot : CommandSnapshot) : Turns s .fetching (do
    record (.answered snapshot)
    record (.printedJson (snapshotJson snapshot))
    emitOutcome snapshot false) := by
  simp only [Turns,record,modify_bind]
  by_cases h : snapshot.outcome = .pending
  · refine ⟨[.printedJson (snapshotJson snapshot),.answered snapshot],?_,?_⟩ <;> rw [emitOutcome_pending h]
    · exact .stuck snapshot h
    · rfl
  · obtain ⟨code,out,hcode,⟨hout,hprinted⟩,heq⟩ := emitOutcome_closed
      (s := (s.observe (.answered snapshot)).observe (.printedJson (snapshotJson snapshot))) false h
    refine ⟨(out ++ [CliTrace.printedJson (snapshotJson snapshot)]) ++ [CliTrace.answered snapshot],?_,?_⟩ <;> rw [heq]
    · refine .closes snapshot code _ (.inl rfl) hcode ⟨fun t ht => ?_,fun text ht => ?_⟩
      · obtain ht | ht := List.mem_append.mp ht
        · exact hout t ht
        · rw [List.mem_singleton.mp ht]
          rfl
      · exact hprinted text (by simpa using ht)
    · simp [append,observe]

/-- An interrupt that starts a task, and the end of that task, are no turns; all else is. -/
theorem turns_resume {point : CliPoint} {signal : CliSignal} {m : Prog ExitCode}
    (h : s.resumeTask point signal = some m) (hpoint : point ≠ .shielding)
    (hinterrupt : ∀ w token, (point = .getting w ∨ ∃ wakeAt, point = .sleeping w wakeAt) → signal = .cancelled token →
      w.reconciles) : Turns s point m := by
  have hraise : ∀ {e : CliExn}, (∀ message, e ≠ .runtime message) → Turns s point (Run.raise e) := fun he =>
    ⟨[],.raises point _ he hpoint,rfl⟩
  cases point with
  | created runId commandId =>
    cases signal with
    | ready =>
      obtain rfl := Option.some.inj h
      exact turns_cancelAndReconcile runId commandId
    | cancelled token =>
      obtain rfl := Option.some.inj h
      exact hraise (by simp)
    | snapshot | raised => simp [resumeTask] at h
  | starting runId commandId =>
    cases signal with
    | ready =>
      obtain rfl := Option.some.inj h
      refine ⟨_,?_,by rw [accepted_eq _ _ _ (by decide)]; rfl⟩
      rw [accepted_eq _ _ _ (by decide)]
      exact .watches runId commandId _ false rfl
    | raised | cancelled =>
      obtain rfl := Option.some.inj h
      exact hraise (by simp)
    | snapshot => simp [resumeTask] at h
  | fetching =>
    cases signal with
    | snapshot snapshot =>
      obtain rfl := Option.some.inj h
      exact turns_fetched snapshot
    | raised | cancelled =>
      obtain rfl := Option.some.inj h
      exact hraise (by simp)
    | ready => simp [resumeTask] at h
  | getting w =>
    cases signal with
    | snapshot snapshot =>
      obtain rfl := Option.some.inj h
      exact turns_answered w snapshot
    | raised failure =>
      obtain rfl := Option.some.inj h
      exact hraise (by simp)
    | cancelled token =>
      obtain rfl := Option.some.inj h
      rw [interrupted,if_pos (hinterrupt w token (.inl rfl) rfl)]
      exact hraise (by simp)
    | ready => simp [resumeTask] at h
  | sleeping w wakeAt =>
    cases signal with
    | ready =>
      simp only [resumeTask,Option.ite_none_right_eq_some,Option.some.injEq] at h
      obtain ⟨hwake,rfl⟩ := h
      exact turns_slept w hwake
    | cancelled token =>
      obtain rfl := Option.some.inj h
      rw [interrupted,if_pos (hinterrupt w token (.inr ⟨wakeAt,rfl⟩) rfl)]
      exact hraise (by simp)
    | snapshot | raised => simp [resumeTask] at h
  | cancelling runId commandId =>
    cases signal with
    | ready =>
      obtain rfl := Option.some.inj h
      refine ⟨_,?_,by rw [accepted_eq _ _ _ (by decide)]; rfl⟩
      rw [accepted_eq _ _ _ (by decide)]
      exact .watches runId commandId _ true rfl
    | raised | cancelled =>
      obtain rfl := Option.some.inj h
      exact hraise (by simp)
    | snapshot => simp [resumeTask] at h
  | shielding => exact absurd rfl hpoint

/-! What one step does. -/

/-- The handlers of `run` at the end of its body. -/
def caught : CliState → List CliTrace × CliState
  | .raised (.client (.service code)) =>
    ([.reported (UnixService.serviceErrorCode.value code),.refused code],
      .returned (if code = .timeout then .timeout else .protocol))
  | state => ([],state)

theorem settleMain_eq (m : Prog ExitCode) : settleMain m s =
    { (m s).state.append (caught (restOf (m s))).1 with main := some (caught (restOf (m s))).2 } := by
  unfold settleMain handled Run.handle
  cases hm : m s with
  | ok code t => rfl
  | park point t => rfl
  | raise e t =>
    cases e with
    | client failure => cases failure <;> rfl
    | value | runtime | cancelled => rfl

/-- The start of `run`. -/
inductive Begins (command : CliCommand) : List CliTrace → CliState → Prop
  | asks (message session runId commandId : String) (request : StartRequest) (h : command = .ask message session)
      (hrun : request.externalRunId = runId) : Begins command [.started request] (.at (.starting runId commandId))
  | reads (commandId : String) (h : command = .status commandId) :
      Begins command [.got commandId] (.at .fetching)
  | cancels (runId commandId : String) (request : CancelRequest) (h : command = .cancel runId)
      (hrun : request.externalRunId = runId) :
      Begins command [.cancelled request] (.at (.cancelling runId commandId))
  | refuses : Begins command [] (.returned .usage)
  | fails : Begins command [] (.raised .value)

theorem begins (command : CliCommand) (runToken commandToken : String) :
    ∃ new state, Begins command new state ∧ settleMain (begin_ command runToken commandToken) s =
      { s.append new with main := some state } := by
  rw [settleMain_eq]
  cases command with
  | ask message session =>
    simp only [begin_,ask]
    by_cases hblank : Text.isBlank message
    · simp only [if_pos hblank]
      exact ⟨[],_,.refuses,rfl⟩
    · simp only [if_neg hblank]
      cases hmake : StartRequest.make session ("run-" ++ runToken) ("command-" ++ commandToken) message with
      | none => exact ⟨[],_,.fails,rfl⟩
      | some request =>
        have hrun : request.externalRunId = "run-" ++ runToken := by
          simp only [StartRequest.make,Option.dite_none_right_eq_some,Option.some.injEq] at hmake
          obtain ⟨_,rfl⟩ := hmake
          rfl
        exact ⟨_,_,.asks message session _ _ request rfl hrun,rfl⟩
  | status commandId => exact ⟨_,_,.reads commandId rfl,rfl⟩
  | cancel runId =>
    simp only [begin_,cancelAndReconcile]
    cases hmake : CancelRequest.make runId ("cancel-" ++ commandToken) with
    | none => exact ⟨[],_,.fails,rfl⟩
    | some request => exact ⟨_,_,.cancels runId _ request rfl (CancelRequest.make_eq hmake).1,rfl⟩

/-- Where the shielded task may be. -/
def Reconciling : CliPoint → Prop
  | .created .. | .cancelling .. => True
  | .getting w | .sleeping w _ => w.reconciles
  | .starting .. | .fetching | .shielding => False

inductive Moves (s : CliEngine) : CliEngine → Prop
  | begins (command : CliCommand) (new : List CliTrace) (state : CliState) (h : s.main = none)
      (hbegins : Begins command new state) :
      Moves s { s.append new with command := some command, main := some state }
  | turns (point : CliPoint) (new : List CliTrace) (state : CliState) (h : s.main = some (.at point))
      (hturn : Turn s point new state) :
      Moves s { s.append ((caught state).1 ++ new) with main := some (caught state).2 }
  | interrupts (point : CliPoint) (w : Watch) (token : String) (h : s.main = some (.at point))
      (hpoint : point = .getting w ∨ ∃ wakeAt, point = .sleeping w wakeAt) (hw : w.reconciles = false) :
      Moves s { s with main := some (.at .shielding), shield := some (.at (.created w.runId ("cancel-" ++ token))) }
  | unshields (e : CliExn) (h : s.main = some (.at .shielding)) (hover : e = .cancelled ∨ s.shield = some (.raised e)) :
      Moves s { s.append (caught (.raised e)).1 with main := some (caught (.raised e)).2 }
  | shieldTurns (point : CliPoint) (new : List CliTrace) (state : CliState) (h : s.shield = some (.at point))
      (hturn : Turn s point new state) : Moves s { s.append new with shield := some state }
  | ticks (now : ℕ) (h : s.now ≤ now) : Moves s { s with now }

theorem moves_main {point : CliPoint} {signal : CliSignal} {m : Prog ExitCode} (hmain : s.main = some (.at point))
    (h : s.resumeTask point signal = some m) : Moves s (settleMain m s) := by
  by_cases hpoint : point = .shielding
  · subst hpoint
    have hraise : ∃ e, m = Run.raise e ∧ (e = .cancelled ∨ s.shield = some (.raised e)) := by
      cases signal with
      | ready =>
        simp only [resumeTask] at h
        cases hshield : s.shield with
        | none => simp [hshield] at h
        | some state =>
          cases state with
          | «at» => simp [hshield] at h
          | returned code =>
            obtain rfl : Run.raise .cancelled = m := by simpa [hshield] using h
            exact ⟨_,rfl,.inl rfl⟩
          | raised e =>
            obtain rfl : Run.raise e = m := by simpa [hshield] using h
            exact ⟨e,rfl,.inr rfl⟩
      | cancelled token =>
        obtain rfl := Option.some.inj h
        exact ⟨_,rfl,.inl rfl⟩
      | snapshot | raised => simp [resumeTask] at h
    obtain ⟨e,rfl,hover⟩ := hraise
    rw [settleMain_eq]
    exact .unshields e hmain hover
  · by_cases hinterrupt : ∃ w token, (point = .getting w ∨ ∃ wakeAt, point = .sleeping w wakeAt) ∧
        signal = .cancelled token ∧ w.reconciles = false
    · obtain ⟨w,token,hat,rfl,hw⟩ := hinterrupt
      have hm : m = interrupted w token := by
        obtain rfl | ⟨wakeAt,rfl⟩ := hat <;> exact (Option.some.inj h).symm
      have hsettle : settleMain m s = { s with main := some (.at .shielding), shield := some (.at (.created w.runId
          ("cancel-" ++ token))) } := by
        rw [hm,interrupted,hw]
        rfl
      rw [hsettle]
      exact .interrupts point w token hmain hat hw
    · obtain ⟨new,hturn,hstate⟩ := turns_resume h hpoint fun w token hat hsignal => by
        by_contra hw
        exact hinterrupt ⟨w,token,hat,hsignal,by simpa using hw⟩
      have hsettle := settleMain_eq (s := s) m
      rw [hstate] at hsettle
      rw [hsettle]
      have happend : (s.append new).append (caught (restOf (m s))).1 = s.append ((caught (restOf (m s))).1 ++ new) := by
        simp [append]
      rw [happend]
      exact .turns point new _ hmain hturn

theorem moves_shield {point : CliPoint} {signal : CliSignal} {m : Prog ExitCode} (hshield : s.shield = some (.at point))
    (hpoint : Reconciling point) (h : s.resumeTask point signal = some m) : Moves s (settleShield m s) := by
  obtain ⟨new,hturn,hstate⟩ := turns_resume h (fun heq => by simp [heq,Reconciling] at hpoint)
    fun w token hat hsignal => by obtain rfl | ⟨wakeAt,rfl⟩ := hat <;> exact hpoint
  rw [settleShield,hstate]
  exact .shieldTurns point new _ hshield hturn

theorem step_moves {a : Action} (hs : ∀ point, s.shield = some (.at point) → Reconciling point)
    (h : step s a = some s') : Moves s s' := by
  cases a with
  | begin command runToken commandToken =>
    simp only [step,Option.ite_none_right_eq_some,Option.some.injEq] at h
    obtain ⟨hmain,rfl⟩ := h
    obtain ⟨new,state,hbegins,heq⟩ := begins (s := { s with command := some command }) command runToken commandToken
    rw [heq]
    exact .begins command new state hmain hbegins
  | resume task signal =>
    cases task with
    | main =>
      simp only [step] at h
      split at h
      · rename_i point hmain
        obtain ⟨m,hm,rfl⟩ := Option.map_eq_some_iff.mp h
        exact moves_main hmain hm
      · exact absurd h (by simp)
    | shield =>
      simp only [step] at h
      split at h
      · rename_i point hshield
        obtain ⟨_,h⟩ := Option.ite_none_right_eq_some.mp h
        obtain ⟨m,hm,rfl⟩ := Option.map_eq_some_iff.mp h
        exact moves_shield hshield (hs point hshield) hm
      · exact absurd h (by simp)
  | tick now =>
    simp only [step,Option.ite_none_right_eq_some,Option.some.injEq] at h
    obtain ⟨hnow,rfl⟩ := h
    exact .ticks now hnow

/-! How often the client is called. -/

def isStart : CliTrace → Bool
  | .started _ => true
  | _ => false

def isCancel : CliTrace → Bool
  | .cancelled _ => true
  | _ => false

def isGet : CliTrace → Bool
  | .got _ => true
  | _ => false

/-- How often a command is read before the deadline. -/
def observedGets (reconciles : Bool) : ℕ := if reconciles then 8 else 318

/-- An interrupt of `ask` adds the reads that reconcile it. -/
def getsFrom (reconciles : Bool) : ℕ := if reconciles then observedGets true else observedGets false + observedGets true

def cancelsFrom (reconciles : Bool) : ℕ := if reconciles then 0 else 1

def startsOf : Option CliCommand → ℕ
  | some (.ask ..) => 1
  | _ => 0

def cancelsOf : Option CliCommand → ℕ
  | some (.ask ..) | some (.cancel _) => 1
  | _ => 0

def getsOf : Option CliCommand → ℕ
  | some (.ask ..) => getsFrom false
  | some (.status _) => 1
  | some (.cancel _) => getsFrom true
  | none => 0

def observeSpan (reconciles : Bool) : ℕ := if reconciles then cancelReconcile else observeDeadline

def delayAt (k : ℕ) : ℕ := min pollMax (pollInitial * 2 ^ k)

/-- How long the first sleeps take. -/
def sleptBy : ℕ → ℕ
  | 0 => 0
  | k + 1 => sleptBy k + delayAt k

theorem delayAt_succ (k : ℕ) : delayAt (k + 1) = min pollMax (delayAt k * 2) := by
  simp only [delayAt,pollMax,pollInitial,pow_succ]
  omega

theorem sleptBy_late (j : ℕ) : sleptBy (4 + j) = 1500 + 1000 * j := by
  induction j with
  | zero => rfl
  | succ j ih =>
    have hpow : 1 ≤ 2 ^ j := Nat.one_le_two_pow
    have hdelay : delayAt (4 + j) = 1000 := by
      rw [delayAt,pow_add]
      simp only [pollMax,pollInitial]
      omega
    rw [← Nat.add_assoc,sleptBy,ih,hdelay]
    ring

theorem polls_within {reconciles : Bool} {k : ℕ} (h : sleptBy k < observeSpan reconciles) :
    k < observedGets reconciles := by
  by_contra hk
  have hfour : 4 ≤ k := by
    cases reconciles <;> simp [observedGets] at hk <;> omega
  obtain ⟨j,rfl⟩ := Nat.exists_eq_add_of_le hfour
  rw [sleptBy_late] at h
  cases reconciles <;> simp [observedGets,observeSpan,observeDeadline,cancelReconcile] at hk h <;> omega

/-- A watch that has read its command `k + 1` times, and slept between. -/
structure Watched (now : ℕ) (w : Watch) (k : ℕ) : Prop where
  delay : w.delay = delayAt k
  slept : w.deadline + sleptBy k ≤ now + observeSpan w.reconciles
  read : k < observedGets w.reconciles

/-- How often a task at a point may still read a command, and submit a cancellation. -/
inductive Left (now : ℕ) : CliPoint → ℕ → ℕ → Prop
  | created (runId commandId : String) : Left now (.created runId commandId) (getsFrom true) 1
  | starting (runId commandId : String) : Left now (.starting runId commandId) (getsFrom false) 1
  | fetching : Left now .fetching 0 0
  | getting (w : Watch) (k gets cancels : ℕ) (h : Watched now w k)
      (hgets : gets + (k + 1) = getsFrom w.reconciles) (hcancels : cancels = cancelsFrom w.reconciles) :
      Left now (.getting w) gets cancels
  | sleeping (w : Watch) (wakeAt k gets cancels : ℕ) (h : Watched now w k)
      (hwake : w.deadline + sleptBy (k + 1) ≤ wakeAt + observeSpan w.reconciles)
      (hgets : gets + (k + 1) = getsFrom w.reconciles) (hcancels : cancels = cancelsFrom w.reconciles) :
      Left now (.sleeping w wakeAt) gets cancels
  | cancelling (runId commandId : String) : Left now (.cancelling runId commandId) (getsFrom true) 0
  | shielding : Left now .shielding 0 0

theorem Left.later {now now' : ℕ} {point : CliPoint} {gets cancels : ℕ} (hnow : now ≤ now')
    (h : Left now point gets cancels) : Left now' point gets cancels := by
  cases h with
  | created => exact .created ..
  | starting => exact .starting ..
  | fetching => exact .fetching
  | getting w k gets cancels h hgets hcancels =>
    exact .getting w k gets cancels ⟨h.delay,by have := h.slept; omega,h.read⟩ hgets hcancels
  | sleeping w wakeAt k gets cancels h hwake hgets hcancels =>
    exact .sleeping w wakeAt k gets cancels ⟨h.delay,by have := h.slept; omega,h.read⟩ hwake hgets hcancels
  | cancelling => exact .cancelling ..
  | shielding => exact .shielding

theorem counts_output {out : List CliTrace} (h : ∀ t ∈ out, isOutput t) :
    out.countP isGet = 0 ∧ out.countP isCancel = 0 ∧ out.countP isStart = 0 := by
  refine ⟨?_,?_,?_⟩ <;> refine List.countP_eq_zero.mpr fun t ht => ?_
  all_goals
    have hout := h t ht
    revert hout
    cases t <;> simp [isOutput,isGet,isCancel,isStart]

theorem Reports.output {out : List CliTrace} (h : Reports out) : ∀ t ∈ out, isOutput t := by
  intro t ht
  obtain ⟨text,rfl⟩ := h t ht
  rfl

/-- What a turn calls, and what may follow it, is within what was left. -/
theorem Turn.left {point : CliPoint} {new : List CliTrace} {state : CliState} {gets cancels : ℕ}
    (h : Turn s point new state) (hleft : Left s.now point gets cancels) : ∃ gets' cancels',
      (∀ q, state = .at q → Left s.now q gets' cancels') ∧ new.countP isGet + gets' ≤ gets ∧
        new.countP isCancel + cancels' ≤ cancels ∧ new.countP isStart = 0 := by
  cases h with
  | submits request h =>
    cases hleft with
    | created =>
      refine ⟨getsFrom true,0,fun q hq => ?_,by simp [isGet],by simp [isCancel],by simp [isStart]⟩
      obtain rfl := CliState.at.inj hq
      exact .cancelling ..
  | watches runId commandId text reconciles hpoint =>
    have hread : 0 < observedGets reconciles := by cases reconciles <;> decide
    have hone : getsFrom reconciles - 1 + 1 = getsFrom reconciles := by cases reconciles <;> decide
    have hfirst : Left s.now (.getting ⟨runId,commandId,s.now + observeSpan reconciles,pollInitial,reconciles⟩)
        (getsFrom reconciles - 1) (cancelsFrom reconciles) := .getting _ 0 _ _ ⟨rfl,le_rfl,hread⟩ hone rfl
    have hallowed : gets = getsFrom reconciles ∧ cancels = cancelsFrom reconciles := by
      cases reconciles with
      | true =>
        subst hpoint
        cases hleft
        exact ⟨rfl,rfl⟩
      | false =>
        subst hpoint
        cases hleft
        exact ⟨rfl,rfl⟩
    obtain ⟨rfl,rfl⟩ := hallowed
    refine ⟨getsFrom reconciles - 1,cancelsFrom reconciles,fun q hq => ?_,?_,?_,?_⟩
    · obtain rfl := CliState.at.inj hq
      exact hfirst
    · simp only [List.countP_cons,List.countP_nil,isGet]
      exact le_of_eq ((Nat.add_comm ..).trans hone)
    · simp [isCancel]
    · simp [isStart]
  | polls w wakeAt hwake hnow =>
    cases hleft with
    | sleeping _ _ k _ _ hw hslept hgets hcancels =>
      have hread : k + 1 < observedGets w.reconciles := polls_within (by omega)
      have hmore : observedGets w.reconciles ≤ getsFrom w.reconciles := by cases w.reconciles <;> decide
      refine ⟨gets - 1,cancels,fun q hq => ?_,?_,by simp [isCancel],by simp [isStart]⟩
      · obtain rfl := CliState.at.inj hq
        refine .getting _ (k + 1) _ _ ⟨?_,?_,hread⟩ ?_ hcancels
        · rw [delayAt_succ,hw.delay]
        · change w.deadline + sleptBy (k + 1) ≤ s.now + observeSpan w.reconciles
          omega
        · change gets - 1 + (k + 1 + 1) = getsFrom w.reconciles
          omega
      · simp only [List.countP_cons,List.countP_nil,isGet,if_true]
        omega
  | expires w wakeAt out hout =>
    obtain ⟨hg,hc,hs⟩ := counts_output hout.output
    exact ⟨0,0,by simp,by omega,by omega,hs⟩
  | pends w snapshot h =>
    cases hleft with
    | getting _ k _ _ hw hgets hcancels =>
      refine ⟨gets,cancels,fun q hq => ?_,by simp [isGet],by simp [isCancel],by simp [isStart]⟩
      obtain rfl := CliState.at.inj hq
      refine .sleeping w _ k gets cancels hw ?_ hgets hcancels
      rw [sleptBy,hw.delay]
      have hslept := hw.slept
      omega
  | closes snapshot code out hpoint hcode hout =>
    obtain ⟨hg,hc,hs⟩ := counts_output hout.1
    refine ⟨0,0,by simp,?_,?_,?_⟩ <;> rw [List.countP_append] <;> simp [hg,hc,hs,isGet,isCancel,isStart]
  | stuck snapshot h => exact ⟨0,0,by simp,by simp [isGet],by simp [isCancel],by simp [isStart]⟩
  | raises point e => exact ⟨0,0,by simp,by simp,by simp,by simp⟩

/-- The shielded task runs only behind an interrupt. -/
structure Sheltered (s : CliEngine) : Prop where
  reconciles : ∀ point, s.shield = some (.at point) → Reconciling point
  quiet : ∀ message, s.shield ≠ some (.raised (.runtime message))
  behind : ∀ point, s.shield = some (.at point) → s.main = some (.at .shielding) ∨ ∃ e, s.main = some (.raised e)
  fresh : s.main = none → s.log = [] ∧ s.shield = none

variable {point q : CliPoint} {new : List CliTrace} {state : CliState}

theorem Turn.unshielded (h : Turn s point new state) : point ≠ .shielding := by
  cases h with
  | watches _ _ _ reconciles hpoint => cases reconciles <;> simp [hpoint]
  | closes snapshot code out hpoint => obtain rfl | ⟨w,rfl⟩ := hpoint <;> simp
  | raises point e _ hpoint => exact hpoint
  | _ => simp

theorem Turn.reconciling (h : Turn s point new state) (hpoint : Reconciling point) :
    (∀ q, state = .at q → Reconciling q) ∧ ∀ message, state ≠ .raised (.runtime message) := by
  cases h with
  | watches _ _ _ reconciles heq =>
    cases reconciles with
    | true => simp [Reconciling]
    | false => simp [heq,Reconciling] at hpoint
  | stuck => exact absurd hpoint (by simp [Reconciling])
  | raises _ e h => simpa using h
  | polls | pends => simpa [Reconciling] using hpoint
  | _ => simp [Reconciling]

theorem caught_at (h : (caught state).2 = .at q) : state = .at q := by
  unfold caught at h
  split at h
  · simp at h
  · exact h

theorem Sheltered.move (hs : Sheltered s) (h : Moves s s') : Sheltered s' := by
  cases h with
  | begins command new state h hbegins =>
    have hshield := (hs.fresh h).2
    exact ⟨hs.reconciles,hs.quiet,fun point hpoint => by simp [append,hshield] at hpoint,by simp⟩
  | turns point new state h hturn =>
    refine ⟨hs.reconciles,hs.quiet,fun q hq => ?_,by simp⟩
    obtain hmain | ⟨e,hmain⟩ := hs.behind q hq
    · rw [h] at hmain
      exact absurd (by simpa using hmain) hturn.unshielded
    · rw [h] at hmain
      simp at hmain
  | interrupts point w token h hpoint hw =>
    exact ⟨by simp [Reconciling],by simp,by simp,by simp⟩
  | unshields e h hover =>
    refine ⟨hs.reconciles,hs.quiet,fun q hq => ?_,by simp⟩
    obtain rfl | hraised := hover
    · exact .inr ⟨.cancelled,rfl⟩
    · have hshield : s.shield = some (.at q) := hq
      simp [hraised] at hshield
  | shieldTurns point new state h hturn =>
    obtain ⟨hat,hquiet⟩ := hturn.reconciling (hs.reconciles point h)
    refine ⟨by simpa using hat,by simpa using hquiet,fun _ _ => hs.behind point h,fun hmain => ?_⟩
    have hnone := (hs.fresh hmain).2
    simp [h] at hnone
  | ticks now h => exact ⟨hs.reconciles,hs.quiet,hs.behind,hs.fresh⟩

/-- The calls of the client so far and those that are left are within what the command allows. -/
structure Budgeted (s : CliEngine) : Prop where
  starts : s.log.countP isStart ≤ startsOf s.command
  calls : ∃ gets cancels gets' cancels', (∀ q, s.main = some (.at q) → Left s.now q gets cancels) ∧
    (∀ q, s.shield = some (.at q) → Left s.now q gets' cancels') ∧
      s.log.countP isGet + gets + gets' ≤ getsOf s.command ∧
        s.log.countP isCancel + cancels + cancels' ≤ cancelsOf s.command

theorem Begins.left {command : CliCommand} (h : Begins command new state) : ∃ gets cancels,
    (∀ now q, state = .at q → Left now q gets cancels) ∧ new.countP isGet + gets ≤ getsOf (some command) ∧
      new.countP isCancel + cancels ≤ cancelsOf (some command) ∧ new.countP isStart ≤ startsOf (some command) := by
  cases h with
  | asks message session runId commandId request h =>
    subst h
    refine ⟨getsFrom false,1,fun now q hq => ?_,by simp [isGet,getsOf],by simp [isCancel,cancelsOf],
      by simp [isStart,startsOf]⟩
    obtain rfl := CliState.at.inj hq
    exact .starting ..
  | reads commandId h =>
    subst h
    refine ⟨0,0,fun now q hq => ?_,by simp [isGet,getsOf],by simp [isCancel],by simp [isStart]⟩
    obtain rfl := CliState.at.inj hq
    exact .fetching
  | cancels runId commandId request h =>
    subst h
    refine ⟨getsFrom true,0,fun now q hq => ?_,by simp [isGet,getsOf],by simp [isCancel,cancelsOf],by simp [isStart]⟩
    obtain rfl := CliState.at.inj hq
    exact .cancelling ..
  | refuses | fails => exact ⟨0,0,by simp,by simp,by simp,by simp⟩

theorem counts_caught (state : CliState) : (caught state).1.countP isGet = 0 ∧ (caught state).1.countP isCancel = 0 ∧
    (caught state).1.countP isStart = 0 := by
  unfold caught
  split <;> simp [isGet,isCancel,isStart]

/-- A watch that is interrupted leaves enough for its reconciliation. -/
theorem Left.interrupted {gets cancels : ℕ} (h : Left s.now point gets cancels)
    (hpoint : point = .getting w ∨ ∃ wakeAt, point = .sleeping w wakeAt) (hw : w.reconciles = false) :
    getsFrom true ≤ gets ∧ cancels = 1 := by
  have henough : ∀ k, k < observedGets w.reconciles → gets + (k + 1) = getsFrom w.reconciles →
      getsFrom true ≤ gets := by
    intro k hk hgets
    rw [hw] at hk hgets
    simp [observedGets,getsFrom] at hk hgets ⊢
    omega
  obtain rfl | ⟨wakeAt,rfl⟩ := hpoint
  · cases h with
    | getting _ k _ _ h hgets hcancels => exact ⟨henough k h.read hgets,by rw [hcancels,hw]; rfl⟩
  · cases h with
    | sleeping _ _ k _ _ h _ hgets hcancels => exact ⟨henough k h.read hgets,by rw [hcancels,hw]; rfl⟩

theorem Budgeted.move (hs : Budgeted s) (hsheltered : Sheltered s) (h : Moves s s') : Budgeted s' := by
  obtain ⟨gets,cancels,gets',cancels',hmain,hshield,hg,hc⟩ := hs.calls
  cases h with
  | begins command new state h hbegins =>
    obtain ⟨hlog,hnone⟩ := hsheltered.fresh h
    obtain ⟨g,c,hleft,hgs,hcs,hss⟩ := hbegins.left
    refine ⟨?_,g,c,0,0,fun q hq => hleft s.now q (Option.some.inj hq),fun q hq => ?_,?_,?_⟩
    · simpa [append,hlog] using hss
    · simp [append,hnone] at hq
    · simpa [append,hlog] using hgs
    · simpa [append,hlog] using hcs
  | turns point new state h hturn =>
    obtain ⟨g,c,hleft,hgs,hcs,hss⟩ := hturn.left (hmain point h)
    obtain ⟨hg0,hc0,hs0⟩ := counts_caught state
    have hstarts := hs.starts
    refine ⟨?_,g,c,gets',cancels',fun q hq => hleft q (caught_at (Option.some.inj hq)),hshield,?_,?_⟩ <;>
      simp only [append,List.countP_append] <;> omega
  | interrupts point w token h hpoint hw =>
    obtain ⟨henough,hone⟩ := (hmain point h).interrupted hpoint hw
    refine ⟨hs.starts,0,0,getsFrom true,1,fun q hq => ?_,fun q hq => ?_,?_,?_⟩
    · obtain rfl : CliPoint.shielding = q := by simpa using hq
      exact .shielding
    · obtain rfl := CliState.at.inj (Option.some.inj hq)
      exact .created ..
    · change s.log.countP isGet + 0 + getsFrom true ≤ getsOf s.command
      omega
    · change s.log.countP isCancel + 0 + 1 ≤ cancelsOf s.command
      omega
  | unshields e h hover =>
    obtain ⟨hg0,hc0,hs0⟩ := counts_caught (.raised e)
    have hstarts := hs.starts
    refine ⟨?_,0,0,gets',cancels',fun q hq => ?_,hshield,?_,?_⟩
    · simp only [append,List.countP_append]
      omega
    · exact absurd (caught_at (Option.some.inj hq)) (by simp)
    · simp only [append,List.countP_append]
      omega
    · simp only [append,List.countP_append]
      omega
  | shieldTurns point new state h hturn =>
    obtain ⟨g,c,hleft,hgs,hcs,hss⟩ := hturn.left (hshield point h)
    have hstarts := hs.starts
    refine ⟨?_,gets,cancels,g,c,hmain,fun q hq => hleft q (Option.some.inj hq),?_,?_⟩ <;>
      simp only [append,List.countP_append] <;> omega
  | ticks now h =>
    exact ⟨hs.starts,gets,cancels,gets',cancels',fun q hq => (hmain q hq).later h,
      fun q hq => (hshield q hq).later h,hg,hc⟩

/-- The calls of the client keep to what the command allows. -/
structure Bounded (s : CliEngine) : Prop where
  starts : s.log.countP isStart ≤ startsOf s.command
  cancels : s.log.countP isCancel ≤ cancelsOf s.command
  gets : s.log.countP isGet ≤ getsOf s.command

theorem reachable_sheltered (h : Reachable step Init s) : Sheltered s :=
  h.invariant (by rintro s ⟨now,rfl⟩; exact ⟨by simp,by simp,by simp,by simp⟩) fun _ _ _ hs _ hstep =>
    hs.move (step_moves hs.reconciles hstep)

/-- However long the client answers that a command is pending, and whenever the run is interrupted: at most one request
is started and at most one is cancelled, and a command is read a bounded number of times. -/
theorem cli_run_bounded (h : Reachable step Init s) : Bounded s := by
  have hs : Budgeted s := by
    refine ReachableWith.invariant_with (fun _ => reachable_sheltered) ?_ (fun s a s' hsheltered hs _ hstep =>
      hs.move hsheltered (step_moves hsheltered.reconciles hstep)) h
    rintro s ⟨now,rfl⟩
    exact ⟨by simp,0,0,0,0,by simp,by simp,by simp,by simp⟩
  obtain ⟨gets,cancels,gets',cancels',_,_,hg,hc⟩ := hs.calls
  exact ⟨hs.starts,by omega,by omega⟩

/-- A request is accepted and found pending. -/
def asking : List Action :=
  [.begin (.ask "hello" "main") "1" "1",.resume .main .ready,.resume .main (.snapshot Chat.FlatChatUI.pendingSnapshot)]

/-- The user interrupts while the engine sleeps. -/
theorem cli_run_bounded_interrupt : ∃ s,
    exec step {} (asking ++ [.resume .main (.cancelled "2"),.resume .shield .ready,.resume .shield .ready]) = some s ∧
      s.log.countP isCancel = 1 ∧ Bounded s := by
  have hsample : (exec step {} (asking ++ ([.resume .main (.cancelled "2"),.resume .shield .ready,
      .resume .shield .ready] : List Action))).map (fun s => s.log.countP isCancel) = some 1 := by
    decide
  obtain ⟨s,hexec,hcount⟩ := Option.map_eq_some_iff.mp hsample
  exact ⟨s,hexec,hcount,cli_run_bounded (exec_reachable step ⟨0,rfl⟩ hexec)⟩

/-! What the run returns and prints. -/

def isAnswer : CliTrace → Bool
  | .answered _ | .refused _ => true
  | _ => false

/-- The exit code that the newest answer calls for. -/
def exitOf (log : List CliTrace) : ExitCode :=
  match log.find? isAnswer with
  | some (.answered snapshot) => (codeOf snapshot.outcome).getD .timeout
  | some (.refused code) => if code = .timeout then .timeout else .protocol
  | _ => .usage

theorem exitOf_output {out log : List CliTrace} (h : ∀ t ∈ out, isOutput t) : exitOf (out ++ log) = exitOf log := by
  have hnone : out.find? isAnswer = none := by
    refine List.find?_eq_none.mpr fun t ht => ?_
    have houtput := h t ht
    cases t <;> simp_all [isOutput,isAnswer]
  simp only [exitOf,List.find?_append,hnone,Option.none_or]

theorem exitOf_answered (snapshot : CommandSnapshot) (log : List CliTrace) :
    exitOf (.answered snapshot :: log) = (codeOf snapshot.outcome).getD .timeout := rfl

theorem codeOf_pending (h : snapshot.outcome = .pending) : (codeOf snapshot.outcome).getD .timeout = .timeout := by
  rw [h]
  rfl

/-- The run that a task is about. -/
def runOf : CliPoint → Option String
  | .created runId _ | .starting runId _ | .cancelling runId _ => some runId
  | .getting w | .sleeping w _ => some w.runId
  | .fetching | .shielding => none

/-- The run that the command names, or that it started. -/
def IsRun (s : CliEngine) (runId : String) : Prop :=
  s.command = some (.cancel runId) ∨ ∃ request, .started request ∈ s.log ∧ request.externalRunId = runId

theorem Turn.runOf (h : Turn s point new state) : (∀ q, state = .at q → runOf q = runOf point) ∧
    ∀ request, .cancelled request ∈ new → runOf point = some request.externalRunId := by
  cases h with
  | submits request h => simp [CliEngine.runOf,h]
  | watches _ _ _ reconciles hpoint => cases reconciles <;> simp [hpoint,CliEngine.runOf]
  | polls | pends | stuck | raises => simp [CliEngine.runOf]
  | expires w wakeAt out hout =>
    refine ⟨by simp,fun request hrequest => ?_⟩
    obtain ⟨text,htext⟩ := hout _ hrequest
    simp at htext
  | closes snapshot code out _ _ hout =>
    refine ⟨by simp,fun request hrequest => ?_⟩
    obtain hrequest | hrequest := List.mem_append.mp hrequest
    · exact absurd (hout.1 _ hrequest) (by simp [isOutput])
    · simp at hrequest

theorem Turn.printed (h : Turn s point new state) {text : String} (htext : .printed text ∈ new) :
    ∃ snapshot, .answered snapshot ∈ new ∧ snapshot.outcome = .completed ∧ snapshot.outputText = some text := by
  cases h with
  | expires w wakeAt out hout =>
    obtain ⟨text',htext'⟩ := hout _ htext
    simp at htext'
  | closes snapshot code out _ _ hout =>
    have hout := hout.2 text (by simpa using htext)
    exact ⟨snapshot,by simp,hout⟩
  | _ => simp at htext

/-- The exit code of a turn, and that a task sleeps behind a command that is pending. -/
theorem Turn.exit (h : Turn s point new state)
    (hsleep : ∀ w wakeAt, point = .sleeping w wakeAt → exitOf s.log = .timeout) :
    (∀ code, state = .returned code → code = exitOf (new ++ s.log)) ∧
      ∀ w wakeAt, state = .at (.sleeping w wakeAt) → exitOf (new ++ s.log) = .timeout := by
  cases h with
  | expires w wakeAt out hout =>
    refine ⟨fun code hcode => ?_,by simp⟩
    rw [exitOf_output hout.output,hsleep w wakeAt rfl]
    exact (CliState.returned.inj hcode).symm
  | pends w snapshot h => exact ⟨by simp,fun _ _ _ => codeOf_pending h⟩
  | closes snapshot code out _ hcode hout =>
    refine ⟨fun code' hcode' => ?_,by simp⟩
    rw [List.append_assoc,exitOf_output hout.1,List.singleton_append,exitOf_answered,hcode]
    exact (CliState.returned.inj hcode').symm
  | _ => simp

theorem Turn.runtime {message : String} (h : Turn s point new (.raised (.runtime message))) : point = .fetching ∧
    ∃ snapshot, snapshot.outcome = .pending ∧ .printedJson (snapshotJson snapshot) ∈ new := by
  cases h with
  | stuck snapshot h => exact ⟨rfl,snapshot,h,by simp⟩
  | raises _ _ h => exact absurd rfl (h message)

/-- What a run prints as an output, and what it cancels. -/
structure Honest (s : CliEngine) : Prop where
  printed : ∀ text, .printed text ∈ s.log → ∃ snapshot, .answered snapshot ∈ s.log ∧ snapshot.outcome = .completed ∧
    snapshot.outputText = some text
  cancels : ∀ request, .cancelled request ∈ s.log → s.IsRun request.externalRunId

/-- What a run tells its caller. -/
structure Told (s : CliEngine) : Prop extends Honest s where
  exit : ∀ code, s.main = some (.returned code) → code = exitOf s.log
  runtime : ∀ message, s.main = some (.raised (.runtime message)) → ∃ commandId snapshot,
    s.command = some (.status commandId) ∧ snapshot.outcome = .pending ∧ .printedJson (snapshotJson snapshot) ∈ s.log

/-- `Told`, with what the tasks have still to tell. -/
structure Telling (s : CliEngine) : Prop extends Told s where
  sleeping : ∀ w wakeAt, s.main = some (.at (.sleeping w wakeAt)) → exitOf s.log = .timeout
  fetching : s.main = some (.at .fetching) → ∃ commandId, s.command = some (.status commandId)
  mains : ∀ q, s.main = some (.at q) → ∀ runId, runOf q = some runId → s.IsRun runId
  shields : ∀ q, s.shield = some (.at q) → ∀ runId, runOf q = some runId → s.IsRun runId

theorem IsRun.grow {runId : String} (h : s.IsRun runId) (hcommand : s'.command = s.command)
    (hlog : s'.log = new ++ s.log) : s'.IsRun runId := by
  obtain h | ⟨request,hrequest,hrun⟩ := h
  · exact .inl (hcommand.trans h)
  · exact .inr ⟨request,by rw [hlog]; exact List.mem_append_right _ hrequest,hrun⟩

theorem Honest.grow (hs : Honest s) (hcommand : s'.command = s.command) (hlog : s'.log = new ++ s.log)
    (hprinted : ∀ text, .printed text ∈ new → ∃ snapshot, .answered snapshot ∈ new ∧ snapshot.outcome = .completed ∧
      snapshot.outputText = some text)
    (hcancels : ∀ request, .cancelled request ∈ new → s.IsRun request.externalRunId) : Honest s' := by
  refine ⟨fun text htext => ?_,fun request hrequest => ?_⟩
  · rw [hlog] at htext ⊢
    obtain htext | htext := List.mem_append.mp htext
    · obtain ⟨snapshot,hanswered,hout⟩ := hprinted text htext
      exact ⟨snapshot,List.mem_append_left _ hanswered,hout⟩
    · obtain ⟨snapshot,hanswered,hout⟩ := hs.printed text htext
      exact ⟨snapshot,List.mem_append_right _ hanswered,hout⟩
  · rw [hlog] at hrequest
    obtain hrequest | hrequest := List.mem_append.mp hrequest
    · exact (hcancels request hrequest).grow hcommand hlog
    · exact (hs.cancels request hrequest).grow hcommand hlog

/-- A turn of a task that is about a run of the command prints and cancels as it should. -/
theorem Honest.turn (hs : Honest s) (h : Turn s point new state) (told : List CliTrace)
    (htold : ∀ t ∈ told, (∃ text, t = .reported text) ∨ ∃ code, t = .refused code)
    (hrun : ∀ runId, CliEngine.runOf point = some runId → s.IsRun runId) (hcommand : s'.command = s.command)
    (hlog : s'.log = (told ++ new) ++ s.log) : Honest s' := by
  refine hs.grow hcommand hlog (fun text htext => ?_) fun request hrequest => ?_
  · obtain htext | htext := List.mem_append.mp htext
    · obtain ⟨_,h⟩ | ⟨_,h⟩ := htold _ htext <;> simp at h
    · obtain ⟨snapshot,hanswered,hout⟩ := h.printed htext
      exact ⟨snapshot,List.mem_append_right _ hanswered,hout⟩
  · obtain hrequest | hrequest := List.mem_append.mp hrequest
    · obtain ⟨_,h⟩ | ⟨_,h⟩ := htold _ hrequest <;> simp at h
    · exact hrun _ (h.runOf.2 request hrequest)

theorem caught_told (state : CliState) :
    ∀ t ∈ (caught state).1, (∃ text, t = .reported text) ∨ ∃ code, t = .refused code := by
  unfold caught
  split <;> simp

theorem caught_returned {code : ExitCode} (h : (caught state).2 = .returned code) :
    (state = .returned code ∧ (caught state).1 = []) ∨ ∀ log, code = exitOf ((caught state).1 ++ log) := by
  unfold caught at h ⊢
  split at h
  · exact .inr fun log => (CliState.returned.inj h).symm
  · exact .inl ⟨h,rfl⟩

theorem caught_runtime {message : String} (h : (caught state).2 = .raised (.runtime message)) :
    state = .raised (.runtime message) := by
  unfold caught at h
  split at h
  · simp at h
  · exact h

theorem caught_sleeping {wakeAt : ℕ} (h : (caught state).2 = .at (.sleeping w wakeAt)) : (caught state).1 = [] := by
  rw [caught_at h]
  rfl

theorem Turn.unfetched (h : Turn s point new state) : state ≠ .at .fetching := by
  cases h <;> simp

theorem Begins.telling {command : CliCommand} (h : Begins command new state) (hlog : s.log = [])
    (hshield : s.shield = none) : Telling { s.append new with command := some command, main := some state } := by
  cases h with
  | asks message session runId commandId request h hrun =>
    refine ⟨⟨⟨?_,?_⟩,?_,?_⟩,?_,?_,?_,?_⟩ <;> simp [hshield,append,hlog,IsRun,runOf,hrun]
  | reads commandId h =>
    refine ⟨⟨⟨?_,?_⟩,?_,?_⟩,?_,?_,?_,?_⟩ <;> simp [hshield,append,hlog,runOf,h]
  | cancels runId commandId request h hrun =>
    refine ⟨⟨⟨?_,?_⟩,?_,?_⟩,?_,?_,?_,?_⟩ <;> simp [hshield,append,hlog,IsRun,runOf,hrun,h]
  | refuses =>
    refine ⟨⟨⟨?_,?_⟩,?_,?_⟩,?_,?_,?_,?_⟩ <;> simp [hshield,append,hlog,exitOf]
  | fails =>
    refine ⟨⟨⟨?_,?_⟩,?_,?_⟩,?_,?_,?_,?_⟩ <;> simp [hshield,append,hlog]

theorem Telling.move (hs : Telling s) (hsheltered : Sheltered s) (h : Moves s s') : Telling s' := by
  cases h with
  | begins command new state h hbegins =>
    obtain ⟨hlog,hshield⟩ := hsheltered.fresh h
    exact hbegins.telling hlog hshield
  | turns point new state h hturn =>
    obtain ⟨hreturned,hsleeps⟩ := hturn.exit fun w wakeAt hpoint => hs.sleeping w wakeAt (hpoint ▸ h)
    refine ⟨⟨hs.turn hturn _ (caught_told state) (hs.mains point h) rfl rfl,fun code hcode => ?_,
      fun message hmessage => ?_⟩,fun w wakeAt hwake => ?_,fun hfetching => ?_,fun q hq runId hrun => ?_,
      fun q hq runId hrun => ?_⟩
    · change code = exitOf ((caught state).1 ++ new ++ s.log)
      obtain ⟨hstate,htold⟩ | hcaught := caught_returned (Option.some.inj hcode)
      · rw [htold]
        exact hreturned code hstate
      · rw [List.append_assoc]
        exact hcaught _
    · obtain rfl := caught_runtime (Option.some.inj hmessage)
      obtain ⟨rfl,snapshot,hpending,hjson⟩ := hturn.runtime
      obtain ⟨commandId,hcommand⟩ := hs.fetching h
      exact ⟨commandId,snapshot,hcommand,hpending,List.mem_append_left _ (List.mem_append_right _ hjson)⟩
    · change exitOf ((caught state).1 ++ new ++ s.log) = .timeout
      rw [caught_sleeping (Option.some.inj hwake)]
      exact hsleeps w wakeAt (caught_at (Option.some.inj hwake))
    · exact absurd (caught_at (Option.some.inj hfetching)) hturn.unfetched
    · rw [hturn.runOf.1 q (caught_at (Option.some.inj hq))] at hrun
      exact (hs.mains point h runId hrun).grow rfl rfl
    · exact (hs.shields q hq runId hrun).grow rfl rfl
  | interrupts point w token h hpoint hw =>
    refine ⟨⟨⟨hs.printed,hs.cancels⟩,by simp,by simp⟩,by simp,by simp,by simp [runOf],fun q hq runId hrun => ?_⟩
    obtain rfl := CliState.at.inj (Option.some.inj hq)
    refine hs.mains point h runId ?_
    obtain rfl | ⟨wakeAt,rfl⟩ := hpoint <;> exact hrun
  | unshields e h hover =>
    have hat : ∀ q, (caught (.raised e)).2 ≠ .at q := fun q hq => by simpa using caught_at hq
    refine ⟨⟨hs.toHonest.grow rfl rfl (fun text htext => ?_) fun request hrequest => ?_,fun code hcode => ?_,
      fun message hmessage => ?_⟩,fun w wakeAt hwake => absurd (Option.some.inj hwake) (hat _),fun hfetching =>
      absurd (Option.some.inj hfetching) (hat _),fun q hq => absurd (Option.some.inj hq) (hat _),
      fun q hq runId hrun => (hs.shields q hq runId hrun).grow rfl rfl⟩
    · obtain ⟨_,h⟩ | ⟨_,h⟩ := caught_told _ _ htext <;> simp at h
    · obtain ⟨_,h⟩ | ⟨_,h⟩ := caught_told _ _ hrequest <;> simp at h
    · obtain ⟨hstate,_⟩ | hcaught := caught_returned (Option.some.inj hcode)
      · simp at hstate
      · exact hcaught _
    · obtain rfl := CliState.raised.inj (caught_runtime (Option.some.inj hmessage))
      obtain hcancelled | hraised := hover
      · simp at hcancelled
      · exact absurd hraised (hsheltered.quiet message)
  | shieldTurns point new state h hturn =>
    -- The main task waits for this one, or has raised what it has to raise.
    have hmain : ∀ code, s.main ≠ some (.returned code) := by
      intro code hcode
      obtain hbehind | ⟨e,hbehind⟩ := hsheltered.behind point h <;> simp [hcode] at hbehind
    have hat : ∀ q, s.main = some (.at q) → q = .shielding := by
      intro q hq
      obtain hbehind | ⟨e,hbehind⟩ := hsheltered.behind point h
      · simpa [hq] using hbehind
      · simp [hq] at hbehind
    refine ⟨⟨hs.turn hturn [] (by simp) (hs.shields point h) rfl rfl,fun code hcode =>
      absurd hcode (hmain code),fun message hmessage => ?_⟩,fun w wakeAt hwake => absurd (hat _ hwake) (by simp),
      fun hfetching => absurd (hat _ hfetching) (by simp),fun q hq runId hrun =>
      (hs.mains q hq runId hrun).grow rfl rfl,fun q hq runId hrun => ?_⟩
    · obtain ⟨commandId,snapshot,hcommand,hpending,hjson⟩ := hs.runtime message hmessage
      exact ⟨commandId,snapshot,hcommand,hpending,List.mem_append_right _ hjson⟩
    · rw [hturn.runOf.1 q (Option.some.inj hq)] at hrun
      exact (hs.shields point h runId hrun).grow rfl rfl
  | ticks now h =>
    exact ⟨⟨⟨hs.printed,hs.cancels⟩,hs.exit,hs.runtime⟩,hs.sleeping,hs.fetching,hs.mains,hs.shields⟩

end CliEngine
end Cli
end HarnessSdk
