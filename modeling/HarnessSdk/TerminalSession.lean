import HarnessSdk.ChatQuit

/-!
# The interactive mode of the terminal

A session waits for the prompt and for the observation of the active run, shows what an observation returns, and
dispatches what the prompt returns. When the prompt raises, the session cancels the run or quits, cleans up, and may be
followed by another one. Times are in tenths of a second.
-/

namespace HarnessSdk
namespace Chat

/-- How the prompt ends: with a text, with Ctrl-C (`KeyboardInterrupt`), or with the end of input (`EOFError`). -/
inductive PromptResult
  | text (text : String)
  | interrupt
  | eof
  deriving DecidableEq

/-- What comes after the cleanup of a session. -/
inductive SessionEnd
  | restart | stop | raise
  deriving DecidableEq

/-- Where the session is suspended: in `_wait_for_activity`, in `run_in_terminal` with the events of an observation, in
`dispatch_text`, in the dispatch of an `except` block, or in the `gather` of the `finally` block. -/
inductive UiPoint
  | waiting
  | showing (call : ℕ) (events : List ChatEvent)
  | handling (call : ℕ)
  | interrupting (call : ℕ)
  | closing (next : SessionEnd)
  | ended (next : SessionEnd)
  deriving DecidableEq

/-- The user interface with its controller, the prompt task with its result, and the observation task, which is a call of
the controller. `observations` are all calls that have been made for it, and `shown` is what has been emitted. -/
structure TerminalChatUI where
  loop : ChatLoop := {}
  quit : Bool := false
  exitCode : ℕ := 0
  lastIdleInterrupt : ℕ := 0
  prompt : Option (Option PromptResult) := none
  observe : Option ℕ := none
  point : UiPoint := .closing .restart
  nextCall : ℕ := 0
  observations : List ℕ := []
  shown : List (ℕ × List ChatEvent) := []

namespace TerminalChatUI

variable (cfg : ChatConfig)

/-! `_emit_events`. -/

def emitEvent (u : TerminalChatUI) : ChatEvent → TerminalChatUI
  | .failed _ => { u with exitCode := 5, quit := true }
  | .protocolError _ => { u with exitCode := 3, quit := true }
  | .timeout .. => { u with exitCode := 4, quit := true }
  | .quitRequested afterCancel => { u with exitCode := if afterCancel then 6 else u.exitCode, quit := true }
  | _ => u

def emitEvents (u : TerminalChatUI) (call : ℕ) (events : List ChatEvent) : TerminalChatUI :=
  events.foldl emitEvent { u with shown := u.shown ++ [(call,events)] }

/-! Parts of `_run_interactive_session`. -/

/-- The session awaits a method of the controller, which runs up to its first suspension. -/
def await (u : TerminalChatUI) (request : Request) : TerminalChatUI :=
  { u with
    loop := ChatLoop.settleCall u.nextCall (ChatLoop.beginCall request) u.loop
    nextCall := u.nextCall + 1 }

/-- A task is cancelled, unless it has come to its end or has not begun. -/
def cancelCall (u : TerminalChatUI) (call : ℕ) : TerminalChatUI :=
  { u with loop := (ChatLoop.step cfg u.loop (.resume call .cancelled)).getD u.loop }

/-- The `finally` block: the tasks are cancelled, and what they have returned is dropped. -/
def leave (u : TerminalChatUI) (next : SessionEnd) : TerminalChatUI :=
  { (match u.observe with | some call => u.cancelCall cfg call | none => u) with
    prompt := none, observe := none, point := .closing next }

/-- The head of the `while` loop: the tasks that are missing are created. -/
def turn (u : TerminalChatUI) : TerminalChatUI :=
  if u.quit then u.leave cfg .stop
  else
    let u := { u with prompt := some (u.prompt.getD none), point := .waiting }
    if u.loop.controller.state ≠ .idle ∧ u.observe = none then
      { u with observe := some u.nextCall, observations := u.nextCall :: u.observations, nextCall := u.nextCall + 1 }
    else u

/-- `except KeyboardInterrupt`. -/
def interrupted (u : TerminalChatUI) : TerminalChatUI :=
  if u.loop.controller.state ≠ .idle then { u.await (.dispatch .cancel) with point := .interrupting u.nextCall }
  else if u.loop.now ≤ u.lastIdleInterrupt + 20 then { u with quit := true }.leave cfg .stop
  else { u with lastIdleInterrupt := u.loop.now }.leave cfg .restart

/-- `except EOFError`. -/
def inputEnded (u : TerminalChatUI) : TerminalChatUI :=
  if u.loop.controller.state ≠ .idle then { u.await (.dispatch .quit) with point := .interrupting u.nextCall }
  else { u with quit := true }.leave cfg .stop

/-- A call has raised. What the client raises may be an `EOFError` (`IncompleteReadError`). -/
def failed (u : TerminalChatUI) (eof : Bool) : TerminalChatUI :=
  if eof then u.inputEnded cfg else u.leave cfg .raise

/-- `_handle_ready_text`. -/
def handleReadyText (u : TerminalChatUI) (text : String) : TerminalChatUI :=
  if u.quit then u.turn cfg else { u.await (.dispatchText text) with point := .handling u.nextCall }

/-- How the observation has ended, if it has. -/
def observed (u : TerminalChatUI) : Option (ℕ × Except ChatExn (List ChatEvent)) :=
  u.observe.bind fun call =>
    match u.loop.calls call with
    | some (.returned events) => some (call,.ok events)
    | some (.raised e) => some (call,.error e)
    | _ => none

/-- `_wait_for_activity` and what follows. The events of an observation are dropped if the result of the prompt raises. -/
def wake (u : TerminalChatUI) (eof : Bool) : Option TerminalChatUI :=
  match u.observed, u.prompt.join with
  | some (_,.error _), _ => some (u.failed cfg eof)
  | none, none => none
  | some (call,.ok events), none => some { u with point := .showing call events }
  | _, some .interrupt => some (u.interrupted cfg)
  | _, some .eof => some (u.inputEnded cfg)
  | some (call,.ok events), some (.text text) =>
    some ({ u.emitEvents call events with observe := none, prompt := none }.handleReadyText cfg text)
  | none, some (.text text) => some ({ u with prompt := none }.handleReadyText cfg text)

/-- The dispatch that the session awaits has come to its end. -/
def resumed (u : TerminalChatUI) (eof : Bool) : Option TerminalChatUI :=
  match u.point with
  | .handling call =>
    match u.loop.calls call with
    | some (.returned events) => some ((u.emitEvents call events).turn cfg)
    | some (.raised _) => some (u.failed cfg eof)
    | _ => none
  | .interrupting call =>
    match u.loop.calls call with
    | some (.returned events) =>
      let u := u.emitEvents call events
      some (u.leave cfg (if u.quit then .stop else .restart))
    | some (.raised _) => some (u.leave cfg .raise)
    | _ => none
  | _ => none

/-- The session is cancelled where it is suspended, and with it the dispatch that it awaits. -/
def abandon (u : TerminalChatUI) : Option TerminalChatUI :=
  match u.point with
  | .waiting | .showing .. => some (u.leave cfg .raise)
  | .handling call | .interrupting call =>
    (ChatLoop.step cfg u.loop (.resume call .cancelled)).map fun loop => { u with loop }.leave cfg .raise
  | .closing _ | .ended _ => none

/-- The steps of the controller that others take: the observation task begins, calls that are suspended go on, and so do
the client and the tasks that cancel. -/
def Permits (u : TerminalChatUI) : LoopAction → Prop
  | .begin call (.observeUntil deadlineSeconds initialDelay maximumDelay) =>
    u.observe = some call ∧ deadlineSeconds = 3150 ∧ initialDelay = 1 ∧ maximumDelay = 10
  | .begin .. | .resume _ .cancelled => False
  | _ => True

instance (u : TerminalChatUI) (a : LoopAction) : Decidable (u.Permits a) := by
  unfold Permits
  split <;> infer_instance

inductive Action
  | loop (a : LoopAction)
  | prompt (result : PromptResult)
  | wake (eof : Bool)
  | shown
  | resumed (eof : Bool)
  | closed
  | abandon

def step (u : TerminalChatUI) : Action → Option TerminalChatUI
  | .loop a => if u.Permits a then (ChatLoop.step cfg u.loop a).map fun loop => { u with loop } else none
  | .prompt result => if u.prompt = some none then some { u with prompt := some (some result) } else none
  | .wake eof => if u.point = .waiting then u.wake cfg eof else none
  | .shown =>
    match u.point with
    | .showing call events => some ({ u.emitEvents call events with observe := none }.turn cfg)
    | _ => none
  | .resumed eof => u.resumed cfg eof
  | .closed =>
    match u.point with
    | .closing .restart => some (if u.quit then { u with point := .ended .stop } else u.turn cfg)
    | .closing next => some { u with point := .ended next }
    | _ => none
  | .abandon => u.abandon cfg

/-- `_run_interactive` with a new controller. -/
def Init (u : TerminalChatUI) : Prop := ∃ loop, ChatLoop.Init loop ∧ u = { loop }

end TerminalChatUI
end Chat
end HarnessSdk
