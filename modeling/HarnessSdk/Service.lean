import HarnessSdk.Json

/-!
# The service

A command of the Harness and the run that it belongs to are read one after the other, and classified together into
the snapshot that a client is given.
-/

namespace HarnessSdk
namespace Chat

inductive CommandState
  | accepted | contextCallIntent | contextReady | applied | rejected | cancelled
  deriving DecidableEq, Repr

inductive CommandKind
  | start | continue_ | cancel
  deriving DecidableEq, Repr

inductive OutputState
  | pending | present | absent | unknown
  deriving DecidableEq, Repr

inductive RunState
  | created | admissionPending | queued | running | waiting | cancelRequested | completed | failed | cancelled
  deriving DecidableEq, Repr

inductive CommandOutcome
  | pending | completed | failed | cancelled | protocolError
  deriving DecidableEq, Repr

/-- The states `COMPLETED`, `FAILED` and `CANCELLED`. -/
def RunState.isTerminal : RunState → Bool
  | completed | failed | cancelled => true
  | _ => false

/-- The states of a command that has not been applied yet. -/
def CommandState.isOpen : CommandState → Bool
  | accepted | contextCallIntent | contextReady => true
  | _ => false

def messageMaxBytes : ℕ := 256 * 1024

/-- `_text` accepts a value. -/
def validText (value : String) (maxBytes : ℕ) : Bool :=
  !Text.isBlank value && !value.toList.contains (Char.ofNat 0) && decide (value.utf8ByteSize ≤ maxBytes)

structure StartRequest where
  externalSessionId : String
  externalRunId : String
  externalCommandId : String
  message : String
  profileKey : String
  valid : validText externalSessionId 512 ∧ validText externalRunId 512 ∧ validText externalCommandId 512 ∧
    validText message messageMaxBytes ∧ validText profileKey 512
  deriving DecidableEq

structure CancelRequest where
  externalRunId : String
  externalCommandId : String
  valid : validText externalRunId 512 ∧ validText externalCommandId 512
  deriving DecidableEq

/-- The constructor, which raises `ValueError` for texts that are not valid. -/
def StartRequest.make (sessionId runId commandId message : String) (profileKey : String := "agent.general") :
    Option StartRequest :=
  if h : validText sessionId 512 ∧ validText runId 512 ∧ validText commandId 512 ∧
      validText message messageMaxBytes ∧ validText profileKey 512 then
    some ⟨sessionId,runId,commandId,message,profileKey,h⟩
  else none

def CancelRequest.make (runId commandId : String) : Option CancelRequest :=
  if h : validText runId 512 ∧ validText commandId 512 then some ⟨runId,commandId,h⟩ else none

theorem CancelRequest.make_eq {runId commandId : String} {request : CancelRequest}
    (h : make runId commandId = some request) :
    request.externalRunId = runId ∧ request.externalCommandId = commandId := by
  unfold make at h
  split at h
  · obtain rfl := Option.some.inj h
    exact ⟨rfl,rfl⟩
  · exact nomatch h

structure CommandReceipt where
  commandId : String
  runId : String
  acceptSeq : ℤ
  state : CommandState
  version : ℤ
  kind : CommandKind
  deriving DecidableEq, Repr

/-- A snapshot has a text exactly when its output is present. -/
structure CommandSnapshot where
  receipt : CommandReceipt
  outputState : OutputState
  outputText : Option String := none
  errorCode : Option String := none
  runState : Option RunState := none
  outcome : CommandOutcome := .pending
  texts : outputText.isSome = decide (outputState = .present)
  deriving DecidableEq, Repr

/-- The output of a command: its `memory_text`, and the content of its message when that is a text. -/
structure HarnessOutput where
  memoryText : Option String
  content : Option String
  deriving DecidableEq, Repr

/-- What the Harness knows of a command. -/
structure HarnessCommandSnapshot where
  receipt : CommandReceipt
  outputState : OutputState
  output : Option HarnessOutput := none
  errorCode : Option String := none
  deriving DecidableEq, Repr

def HarnessCommandSnapshot.outputText (s : HarnessCommandSnapshot) : Option String :=
  s.output.bind fun output => output.memoryText.or output.content

/-- `_closed_outcome`. -/
def closedOutcome (commandState : CommandState) (outputState : OutputState) (runState : Option RunState)
    (commandKind : CommandKind) : CommandOutcome :=
  if commandState.isOpen then .pending
  else
    match outputState with
    | .unknown => .protocolError
    | .present => if runState = some .completed then .completed else .protocolError
    | .pending => if runState.any RunState.isTerminal then .protocolError else .pending
    | .absent =>
      if commandKind = .cancel ∧ commandState = .applied ∧ runState = none then .cancelled
      else if (commandKind = .start ∨ commandKind = .continue_) ∧ commandState = .applied ∧ runState = none then
        .protocolError
      else if runState = some .failed ∨ commandState = .rejected then .failed
      else if runState = some .cancelled ∨ commandState = .cancelled then .cancelled
      else if runState = some .completed then .completed
      else .pending

/-- `HarnessAdapter.get_command` with the command and the run that it has read. The constructor of the snapshot
raises `ValueError` when the text does not fit the state of the output. -/
def getCommand (snapshot : HarnessCommandSnapshot) (run : Option RunState) : Option CommandSnapshot :=
  if h : snapshot.outputText.isSome = decide (snapshot.outputState = .present) then
    some {
      receipt := snapshot.receipt
      outputState := snapshot.outputState
      outputText := snapshot.outputText
      errorCode := snapshot.errorCode
      runState := run
      outcome := closedOutcome snapshot.receipt.state snapshot.outputState run snapshot.receipt.kind
      texts := h }
  else none

/-- A snapshot that is built tells what has been read. -/
theorem getCommand_eq {snapshot : HarnessCommandSnapshot} {run : Option RunState} {s : CommandSnapshot}
    (h : getCommand snapshot run = some s) : s.outputState = snapshot.outputState ∧
      s.outputText = snapshot.outputText ∧ s.runState = run ∧
      s.outcome = closedOutcome snapshot.receipt.state snapshot.outputState run snapshot.receipt.kind ∧
      s.outputText.isSome = decide (s.outputState = .present) := by
  unfold getCommand at h
  split at h
  · rename_i htexts
    obtain rfl := Option.some.inj h
    exact ⟨rfl,rfl,rfl,rfl,htexts⟩
  · exact nomatch h

/-! The start command of a run that has completed. -/

def receiptOf (kind : CommandKind) : CommandReceipt :=
  { commandId := "command", runId := "run", acceptSeq := 1, state := .applied, version := 1, kind }

def completedSnapshot : CommandSnapshot :=
  { receipt := receiptOf .start, outputState := .present, outputText := some "answer", runState := some .completed
    outcome := .completed, texts := rfl }

end Chat
end HarnessSdk
