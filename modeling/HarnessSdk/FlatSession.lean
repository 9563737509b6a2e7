import HarnessSdk.ChatQuit
import HarnessSdk.TextRendering

/-!
# The flat mode of the terminal

A task reads lines into a queue. With no run active the session waits for a line; while a run is active it takes the lines
that are there before each observation, and waits for a line behind it. Times are in tenths of a second.
-/

namespace HarnessSdk
namespace Chat

open TextRendering (sanitizeUntrustedText)

/-- Where `_run_flat` is suspended: in `lines.get` with no run active, in a dispatch, in `observe_once`, or in the wait
between two polls. -/
inductive FlatPoint
  | reading
  | handling (call : ℕ)
  | observing (call : ℕ)
  | waiting (deadline : ℕ)
  | ended (raised : Bool)
  deriving DecidableEq

/-- A line that has been handed to the controller, with the call that dispatches it. `active` tells that there was a run. -/
structure HandedLine where
  line : String
  call : ℕ
  active : Bool
  deriving DecidableEq

/-- The user interface with its controller and the queue of its reader. `arrived` are all lines that have been read, and
`handed` those that have been handed to the controller. -/
structure FlatChatUI where
  loop : ChatLoop := {}
  quit : Bool := false
  exitCode : ℕ := 0
  pollDelay : ℕ := 1
  lines : List String := []
  eof : Bool := false
  buffered : List String := []
  point : FlatPoint := .reading
  nextCall : ℕ := 0
  written : List (List Char) := []
  arrived : List String := []
  handed : List HandedLine := []

/-- `line.rstrip("\r\n")`. -/
@[irreducible] def rstripLine (line : String) : String :=
  String.ofList (line.toList.reverse.dropWhile fun c => c = '\r' ∨ c = '\n').reverse

/-- What `_emit_flat_events` writes for an event. -/
def flatText : ChatEvent → Option (List Char)
  | .accepted .. => some "Working…".toList
  | .pending .. | .quitRequested _ => none
  | .completed outputText => some (sanitizeUntrustedText outputText.toList)
  | .notice text => some (sanitizeUntrustedText text.toList)
  | .sessionChanged session => some ("Session: ".toList ++ sanitizeUntrustedText session.toList)
  | .transcriptCleared => some "Display cleared".toList
  | .cancelled => some "Cancelled".toList
  | .cancelPending runId _ cancelCommandId =>
    some ("Cancel pending run=" ++ runId ++ " command=" ++ cancelCommandId).toList
  | .failed _ => some "Failed".toList
  | .protocolError _ => some "Protocol error".toList
  | .timeout runId commandId => some ("Timeout run=" ++ runId ++ " command=" ++ commandId).toList

namespace FlatChatUI

variable (cfg : ChatConfig)

/-! `_emit_flat_events`. -/

def emitFlatEvent (u : FlatChatUI) (e : ChatEvent) : FlatChatUI :=
  let u := { u with written := u.written ++ (flatText e).toList }
  match e with
  | .failed _ => { u with exitCode := 5, quit := true }
  | .protocolError _ => { u with exitCode := 3, quit := true }
  | .timeout .. => { u with exitCode := 4, quit := true }
  | .quitRequested afterCancel => { u with exitCode := if afterCancel then 6 else u.exitCode, quit := true }
  | _ => u

def emitFlatEvents (u : FlatChatUI) (events : List ChatEvent) : FlatChatUI := events.foldl emitFlatEvent u

/-! Parts of `_run_flat`. -/

/-- The session awaits a method of the controller, which runs up to its first suspension. -/
def await (u : FlatChatUI) (request : Request) : FlatChatUI :=
  { u with
    loop := ChatLoop.settleCall u.nextCall (ChatLoop.beginCall request) u.loop
    nextCall := u.nextCall + 1 }

/-- `_handle_flat_text` for a line without its end. -/
def handleFlatText (u : FlatChatUI) (line : String) : FlatChatUI :=
  { u.await (.dispatchText (rstripLine line)) with
    point := .handling u.nextCall
    handed := u.handed ++ [{ line, call := u.nextCall, active := u.loop.controller.state ≠ .idle }] }

def dispatchQuit (u : FlatChatUI) : FlatChatUI :=
  { u.await (.dispatch .quit) with point := .handling u.nextCall }

def observeOnce (u : FlatChatUI) : FlatChatUI :=
  { u.await .observeOnce with point := .observing u.nextCall }

/-- A line is taken with no run active. -/
def takeLine (u : FlatChatUI) (line : String) : FlatChatUI :=
  if line = "" then { u with point := .ended false } else u.handleFlatText line

/-- The loop with a run active, up to its next suspension: lines that are no commands are put aside. -/
def activeTurn (u : FlatChatUI) : List String → FlatChatUI
  | [] => { u with lines := [] }.observeOnce
  | line :: lines =>
    if line = "" then { u with lines }.dispatchQuit
    else if Text.startsWith (rstripLine line) "/" then { u with lines }.handleFlatText line
    else activeTurn { u with buffered := u.buffered ++ [line] } lines

/-- The head of the `while` loop. -/
def turn (u : FlatChatUI) : FlatChatUI :=
  if u.quit then { u with point := .ended false }
  else if u.loop.controller.state = .idle then
    match u.buffered with
    | line :: buffered => { u with buffered }.takeLine line
    | [] => { u with point := .reading }
  else u.activeTurn u.lines

/-- What the session awaits has come to its end. -/
def resumed (u : FlatChatUI) : Option FlatChatUI :=
  match u.point with
  | .handling call =>
    match u.loop.calls call with
    | some (.returned events) => some (u.emitFlatEvents events).turn
    | some (.raised _) => some { u with point := .ended true }
    | _ => none
  | .observing call =>
    match u.loop.calls call with
    | some (.returned events) =>
      let u := u.emitFlatEvents events
      match events.head? with
      | some (.pending ..) => some { u with point := .waiting (u.loop.now + u.pollDelay) }
      | _ => some { u with pollDelay := 1 }.turn
    | some (.raised _) => some { u with point := .ended true }
    | _ => none
  | _ => none

/-- `lines.get` returns to the wait between two polls. -/
def answer (u : FlatChatUI) (line : String) : FlatChatUI :=
  if line = "" then u.dispatchQuit else u.handleFlatText line

/-- The session is cancelled where it is suspended, and with it the call that it awaits. -/
def abandon (u : FlatChatUI) : Option FlatChatUI :=
  match u.point with
  | .reading | .waiting _ => some { u with point := .ended true }
  | .handling call | .observing call =>
    (ChatLoop.step cfg u.loop (.resume call .cancelled)).map fun loop => { u with loop, point := .ended true }
  | .ended _ => none

/-- The steps of the controller that others take. -/
def permits : LoopAction → Bool
  | .begin .. | .resume _ .cancelled => false
  | _ => true

inductive Action
  | loop (a : LoopAction)
  | read (line : String)
  | take
  | resumed
  | takeWaiting
  | expired
  | abandon

def step (u : FlatChatUI) : Action → Option FlatChatUI
  | .loop a => if permits a then (ChatLoop.step cfg u.loop a).map fun loop => { u with loop } else none
  | .read line =>
    match u.point with
    | .ended _ => none
    | _ =>
      if u.eof then none
      else some { u with lines := u.lines ++ [line], eof := line = "", arrived := u.arrived ++ [line] }
  | .take =>
    match u.point, u.lines with
    | .reading, line :: lines => some ({ u with lines }.takeLine line)
    | _, _ => none
  | .resumed => u.resumed
  | .takeWaiting =>
    match u.point, u.lines with
    | .waiting _, line :: lines => some ({ u with lines }.answer line)
    | _, _ => none
  | .expired =>
    match u.point with
    | .waiting deadline =>
      if deadline ≤ u.loop.now then some { u with pollDelay := min 10 (u.pollDelay * 2) }.turn else none
    | _ => none
  | .abandon => u.abandon cfg

/-- `_run_flat` with a new controller. -/
def Init (u : FlatChatUI) : Prop := ∃ loop, ChatLoop.Init loop ∧ u = { loop }

end FlatChatUI
end Chat
end HarnessSdk
