import HarnessSdk.QwenEffects
import HarnessSdk.Tasks

/-!
# Sessions with the Qwen adapter

What a client hands to the session that it opens, the frames of the provider, and a short session
that the examples of the other modules go through.
-/

namespace HarnessSdk
namespace QwenOmni

open Session (runTask startSession fresh useId step)
open Transition (ReachableWith exec guarded exec_append exec_guarded exec_reachable exec_reachableWith exec_steps)

/-- The configuration of a session with the Qwen adapter and its packaged capability. -/
def config (request : RealtimeOpenRequest) (generation : ℕ) (hasDispatcher : Bool)
    (digest : String → Role → Bool → String) (eventSize : RealtimeEvent → ℕ)
    (loads : String → Except LoadFailure Json) : SessionConfig QwenOmniAdapter :=
  { adapter, initialAdapter := {}, request, capability, generation, hasDispatcher, digest, eventSize, loads }

/-- A frame of the provider. -/
def serverFrame (type eventId : String) (members : Json.Object) : Payload :=
  ⟨256,.ok (.obj (("type",.str type) :: ("event_id",.str eventId) :: members))⟩

/-!
A session with one tool. What its runs do is decided with every definition unfolded: the threshold of `turn_detection` is a
rational, and the arithmetic of the rationals is irreducible.
-/

def sampleTool : Json.Object :=
  [("type",.str "function"), ("name",.str "lookup"), ("parameters",.obj [("type",.str "object")])]

def sampleRequest : RealtimeOpenRequest where
  externalSessionId := "session"
  instructions := "Be brief."
  tools := [sampleTool]

def sample : SessionConfig QwenOmniAdapter :=
  config sampleRequest 1 false (fun text role trigger => text ++ role.value ++ toString trigger) (fun _ => 64)
    fun text => if text = "\x7b\x7d" then .ok (.obj []) else .error .notJson

def sampleStart : Session QwenOmniAdapter :=
  runTask 0 (startSession sample 0 "a") (useId (fresh sample { state := { table := { generation := 1 } } }) "a")

theorem sampleStart_init : Session.Init sample sampleStart := ⟨_,_,rfl⟩

def sampleAck : Payload :=
  serverFrame "session.updated" "event_ack" [("session",.obj (expectedSession ++
    [("id",.str "server"), ("instructions",.str "Be brief."), ("turn_detection",expectedTurnDetection),
      ("tools",.arr [.obj sampleTool])]))]

/-- Bring the session up to its readiness. -/
def sampleOpening : List Action :=
  [.resume 0 .ready "b", .resume 1 .ready "c", .resume 1 (.frame sampleAck) "d"]

def sampleReady : Session QwenOmniAdapter :=
  (exec (step sample) sampleStart sampleOpening).get (by decide +kernel)

theorem sampleReady_reachable : Session.Reachable sample sampleReady :=
  exec_reachable _ sampleStart_init (Option.some_get _).symm

/-- The ready session behind a row of actions. -/
def sampleRun (as : List Action) : Session QwenOmniAdapter :=
  (exec (step sample) sampleReady as).getD sampleReady

/-- The ready session accepts the actions. -/
abbrev Accepts (as : List Action) : Prop := (exec (step sample) sampleReady as).isSome

theorem sampleRun_eq {as : List Action} (h : Accepts as) : exec (step sample) sampleReady as = some (sampleRun as) := by
  obtain ⟨s,hs⟩ := Option.isSome_iff_exists.mp h
  rw [sampleRun,hs,Option.getD_some]

theorem sampleRun_reachable {as : List Action} (h : Accepts as) : Session.Reachable sample (sampleRun as) :=
  sampleReady_reachable.steps (exec_steps _ (sampleRun_eq h))

/-- A run whose steps pass a check is a run under the condition that the check decides. -/
theorem sampleRun_reachableWith {as : List Action} (check : Session QwenOmniAdapter → Action → Bool)
    {ok : Session QwenOmniAdapter → Action → Prop} (hok : ∀ s a, check s a → ok s a)
    (h : (exec (guarded (step sample) check) sampleStart (sampleOpening ++ as)).isSome) :
    ReachableWith (step sample) ok (Session.Init sample) (sampleRun as) := by
  obtain ⟨s,hs⟩ := Option.isSome_iff_exists.mp h
  have hready : exec (step sample) sampleStart sampleOpening = some sampleReady := (Option.some_get _).symm
  have hrun : exec (step sample) sampleReady as = some s := by
    have hall := exec_guarded (step sample) hs
    rwa [exec_append,hready,Option.bind_some] at hall
  have heq : sampleRun as = s := by rw [sampleRun,hrun,Option.getD_some]
  rw [heq]
  exact exec_reachableWith _ hok sampleStart_init hs

theorem sampleRun_exec {as bs : List Action} (h : Accepts as) (hh : Accepts (as ++ bs)) :
    exec (step sample) (sampleRun as) bs = some (sampleRun (as ++ bs)) := by
  have happend := exec_append (step sample) sampleReady as bs
  rw [sampleRun_eq h,Option.bind_some] at happend
  rw [← happend]
  exact sampleRun_eq hh

theorem sampleRun_step (as : List Action) {a : Action} (h : Accepts as) (hh : Accepts (as ++ [a])) :
    step sample (sampleRun as) a = some (sampleRun (as ++ [a])) := by
  simpa [exec] using sampleRun_exec h hh

/-- A frame of the provider for the receive loop of the sample session. -/
def receive (type id : String) (members : Json.Object) : Action :=
  .resume 1 (.frame (serverFrame type ("event_" ++ id) members)) id

/-- The provider calls the tool. -/
def toolCall : List Action :=
  [receive "response.created" "r1" [("response",.obj [("id",.str "resp")])],
    receive "response.output_item.added" "r2" [("response_id",.str "resp"), ("output_index",.int 0),
      ("item",.obj [("id",.str "item"), ("type",.str "function_call")])],
    receive "response.function_call_arguments.done" "r3" [("response_id",.str "resp"), ("item_id",.str "item"),
      ("output_index",.int 0), ("call_id",.str "call"), ("name",.str "lookup"), ("arguments",.str "\x7b\x7d")]]

/-- The provider acknowledges a result. -/
def resultEcho (id output : String) : Action :=
  receive "conversation.item.created" id [("item",.obj [("id",.str ("ack_" ++ id)),
    ("type",.str "function_call_output"), ("status",.str "completed"), ("call_id",.str "call"), ("output",.str output)])]

/-- The result of the tool call is submitted and makes its round trip. -/
def submittedOnce : List Action := toolCall ++
  [.call (.submitToolResult "call" "one") "e", .resume 3 .ready "f", .resume 3 .ready "g", resultEcho "h" "one",
    .resume 3 .ready "i", .resume 3 .ready "j", .resume 2 .ready "k"]

end QwenOmni
end HarnessSdk
