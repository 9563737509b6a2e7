import HarnessSdk.Exclusive
import HarnessSdk.KeyClaims
import HarnessSdk.QwenSession
import HarnessSdk.ToolRecords

/-!
# Dispatched tool calls

A tool call is registered once, and its dispatch is a task of its own. The task hands the call over in its first
stretch, when the session is still active, and in no later one.
-/

namespace HarnessSdk
namespace Session

open Transition (anyStep)
open Run (within_pure within_raise within_get within_suspend within_modify_bind within_ofExcept_bind)

variable {A : Type} {c : SessionConfig A} {b : Brings} {t : TaskId} {k : TaskKind} {s s' : Session A}

/-- The calls that were handed to the dispatcher, newest first. -/
def dispatches (s : Session A) : List ToolCallRequested :=
  s.log.filterMap fun o => match o with
    | .dispatched call => some call
    | _ => none

/-- The ids of the calls that were handed over. -/
def dispatchedIds (s : Session A) : List String := s.dispatches.map ToolCallRequested.callId

theorem dispatches_of_log (h : s'.log = s.log) : s'.dispatches = s.dispatches := by
  rw [dispatches,h,dispatches]

theorem dispatches_append {new : List Observation} (h : s'.log = new ++ s.log)
    (hnew : ∀ call, .dispatched call ∉ new) : s'.dispatches = s.dispatches := by
  rw [dispatches,h,List.filterMap_append,List.filterMap_eq_nil_iff.mpr,List.nil_append,dispatches]
  intro o ho
  cases o with
  | dispatched call => exact absurd ho (hnew call)
  | _ => rfl

@[simp] theorem dispatches_dispatched (call : ToolCallRequested) :
    (s.observe (.dispatched call)).dispatches = call :: s.dispatches := rfl

theorem mem_dispatches {call : ToolCallRequested} : call ∈ s.dispatches ↔ .dispatched call ∈ s.log := by
  unfold dispatches
  rw [List.mem_filterMap]
  constructor
  · rintro ⟨o,ho,heq⟩
    cases o with
    | dispatched call' => exact Option.some.inj heq ▸ ho
    | _ => cases heq
  · exact fun h => ⟨_,h,rfl⟩

/-- Only the task of a dispatch hands a call over. -/
theorem moves_dispatches (h : Moves c b t k s s') (hk : ∀ call, k ≠ .dispatch call false) :
    s'.dispatches = s.dispatches := by
  refine moves_keep (I := fun u => u.dispatches = s.dispatches) (fun u v hm hu => ?_) h rfl
  obtain ⟨new,hlog,hnew,_⟩ := hm.log_grows
  rw [dispatches_append hlog fun call hcall => hk call (hnew _ hcall).1,hu]

/-! The programs of a dispatch. -/

theorem dispatchTool_cases (call : ToolCallRequested) :
    (s.isActive c ∧ dispatchTool c call false s = .park (.dispatching call) (s.observe (.dispatched call))) ∨
      dispatchTool c call false s = .ok () s := by
  by_cases hactive : s.isActive c
  · refine .inl ⟨hactive,?_⟩
    unfold dispatchTool swallow Run.handle
    rw [requireActive_bind hactive]
    rfl
  · refine .inr ?_
    simp [dispatchTool,swallow,Run.handle,requireActive,Run.bind_apply,hactive]

theorem swallow_log {m : Prog A Unit} (h : (m s).state.log = s.log) : (swallow m s).state.log = s.log := by
  unfold swallow Run.handle
  cases hm : m s with
  | ok x u => simpa [hm] using h
  | park p u => simpa [hm] using h
  | raise e u =>
    rw [hm] at h
    cases e <;> exact h

theorem submitToolResult_log (id output : String) : (submitToolResult c id output s).state.log = s.log := by
  by_cases hactive : s.isActive c
  · unfold submitToolResult
    rw [requireActive_bind hactive]
    split
    · rfl
    · split
      · rfl
      · rw [Run.get_bind]
        cases s.record id with
        | none => rfl
        | some r =>
          dsimp only
          split
          · rfl
          · cases s.liveAttempt r <;> rfl
  · simp [submitToolResult,requireActive,Run.bind_apply,hactive]

theorem dispatchAnswered_log (call : ToolCallRequested) (signal : Signal) :
    (dispatchAnswered c call signal s).state.log = s.log := by
  refine swallow_log ?_
  by_cases hactive : s.isActive c
  · rw [requireActive_bind hactive]
    exact submitToolResult_log _ _
  · simp [requireActive,Run.bind_apply,hactive]

theorem attemptEnded_dispatches (j : TaskId) (id output : String) :
    (swallow (attemptEnded j id output) s).state.dispatches = s.dispatches := by
  unfold swallow Run.handle attemptEnded
  rw [Run.get_bind]
  cases s.outcome j with
  | none => rfl
  | some o =>
    cases o with
    | returned => rfl
    | raised e => cases e <;> rfl

/-- Where the task of a dispatch can stand. -/
theorem dispatch_states {call : ToolCallRequested} {invalid : Bool} {state : TaskState}
    (h : At c s t (.dispatch call invalid) state) : state = .created ∨ state = .dispatching call ∨
      (∃ j id output, state = .awaitingAttempt j id output) ∨
      (∃ error frame, state = .closingConnection (.raise error frame) ∨ state = .joiningReceiver (.raise error frame)) ∨
      ∃ o, state = .finished o := by
  cases state with
  | created => exact .inl rfl
  | running => exact h.elim
  | receiving => cases h
  | sending purpose event =>
    cases purpose with
    | start => cases h.1
    | audio bytes =>
      obtain ⟨pcm,hk,_⟩ := h.1
      cases hk
    | plain => exact h.1.elim
    | inject inj =>
      obtain ⟨_,_,_,hk,_⟩ := h.1
      cases hk
    | trigger inj =>
      obtain ⟨_,_,hk,_⟩ := h.1
      cases hk
    | result id =>
      obtain ⟨_,hk⟩ := h.1
      cases hk
    | followup id =>
      obtain ⟨_,hk⟩ := h.1
      cases hk
    | close reason => cases h.1.1
  | awaitingLock request => cases h.1
  | awaitingContextAck inj =>
    obtain ⟨_,_,_,hk,_⟩ := h.1
    cases hk
  | awaitingToolAck id =>
    obtain ⟨_,hk⟩ := h
    cases hk
  | awaitingCloseAck reason => cases h.1
  | awaitingAttempt j id output => exact .inr (.inr (.inl ⟨j,id,output,rfl⟩))
  | awaitingClose j =>
    obtain ⟨_,_,hk,_⟩ := h
    cases hk
  | dispatching call' =>
    cases h
    exact .inr (.inl rfl)
  | closingConnection after =>
    cases after with
    | done =>
      obtain hk | ⟨_,hk⟩ := h.2 <;> cases hk
    | raise error frame => exact .inr (.inr (.inr (.inl ⟨error,frame,.inl rfl⟩)))
  | joiningReceiver after =>
    cases after with
    | done =>
      obtain hk | ⟨_,hk⟩ := h.2 <;> cases hk
    | raise error frame => exact .inr (.inr (.inr (.inl ⟨error,frame,.inr rfl⟩)))
  | finished o => exact .inr (.inr (.inr (.inr ⟨o,rfl⟩)))

/-- A dispatch that is resumed hands its call over in its first stretch, or none. -/
theorem resume_dispatches {call : ToolCallRequested} {fresh : String} {task : Task} {signal : Signal} {m : Prog A Unit}
    (hk : task.kind = .dispatch call false) (hat : At c s t task.kind task.state)
    (hm : resumeProg c s t fresh task task.state signal = some m) {u : Session A} (hu : u.isActive c = s.isActive c)
    (hlog : u.log = s.log) :
    (task.state = .created ∧ s.isActive c ∧ m u = .park (.dispatching call) (u.observe (.dispatched call))) ∨
      (m u).state.dispatches = s.dispatches := by
  obtain ⟨kind,state,cancel⟩ := task
  dsimp only at hk hat hm ⊢
  subst hk
  have hsame : ∀ {m : Prog A Unit}, (m u).state.log = u.log → (m u).state.dispatches = s.dispatches :=
    fun h => dispatches_of_log (h.trans hlog)
  obtain rfl | rfl | ⟨j,id,output,rfl⟩ | ⟨error,frame,rfl | rfl⟩ | ⟨o,rfl⟩ := dispatch_states hat
  · cases signal <;> simp [resumeProg] at hm
    · subst hm
      obtain ⟨hactive,hpark⟩ | hok := dispatchTool_cases (c := c) (s := u) call
      · exact .inl ⟨rfl,hu ▸ hactive,hpark⟩
      · refine .inr (hsame ?_)
        rw [startProg,hok]
        rfl
    · obtain ⟨_,rfl⟩ := hm
      exact .inr (hsame rfl)
  · cases signal <;> simp [resumeProg] at hm
    · subst hm
      exact .inr (hsame (dispatchAnswered_log _ _))
    · obtain ⟨_,rfl⟩ := hm
      exact .inr (hsame (dispatchAnswered_log _ _))
    · obtain ⟨_,rfl⟩ := hm
      exact .inr (hsame rfl)
    · subst hm
      exact .inr (hsame (dispatchAnswered_log _ _))
  · cases signal <;> simp [resumeProg] at hm
    · obtain ⟨_,rfl⟩ := hm
      exact .inr ((attemptEnded_dispatches _ _ _).trans (dispatches_of_log hlog))
    · obtain ⟨_,rfl⟩ := hm
      exact .inr (hsame rfl)
  · cases signal <;> simp [resumeProg] at hm
    · subst hm
      exact .inr (hsame joinReceiver_log)
    · subst hm
      exact .inr (hsame joinReceiver_log)
    · obtain ⟨_,rfl⟩ := hm
      exact .inr (hsame joinReceiver_log)
    · obtain ⟨_,rfl⟩ := hm
      exact .inr (hsame (ensuring_log (m := (Run.raise .cancelled : Prog A Unit)) (cleanup_log frame)))
  · cases signal <;> simp [resumeProg] at hm
    · obtain ⟨_,rfl⟩ := hm
      exact .inr (hsame shutdownEnded_log)
    · subst hm
      exact .inr (hsame shutdownEnded_log)
    · obtain ⟨_,rfl⟩ := hm
      exact .inr (hsame shutdownEnded_log)
  · simp [resumeProg] at hm

/-- A step hands over at most one call: that of a dispatch that has not run, on an active session. -/
theorem step_dispatches (hp : Placed c s) {a : Action} (h : step c s a = some s') :
    s'.dispatches = s.dispatches ∨ ∃ t call, s'.dispatches = call :: s.dispatches ∧ s.isActive c ∧
      s.place t = some (.dispatch call false,.created) ∧ s'.place t = some (.dispatch call false,.dispatching call) := by
  obtain ⟨t,k,m,u,hst,rfl⟩ | ⟨_,hc⟩ | ⟨shared,_,rfl⟩ := step_cases h
  · have hulog : u.log = s.log := by rw [hst.frame]
    by_cases hk : ∃ call, k = .dispatch call false
    · obtain ⟨call,hcall⟩ := hk
      cases hst with
      | call call' fresh hfresh => cases hcall
      | resume t signal fresh task m hfresh htask hm =>
        have hplace := place_eq_some.mpr ⟨task,htask,rfl⟩
        obtain ⟨hcreated,hactive,hpark⟩ | hsame := resume_dispatches (u := (s.useId fresh).wake t signal) hcall
          (hp.stands _ _ _ hplace) hm rfl rfl
        · rw [hcall,hcreated] at hplace
          refine .inr ⟨t,call,?_,hactive,hplace,?_⟩
          · rw [hpark]
            rfl
          · rw [hpark]
            have hwoken : ((s.useId fresh).wake t signal).place t = some (task.kind,.running) := wake_place_self htask
            rw [hcall] at hwoken
            exact setTask_place_self hwoken
        · exact .inl hsame
    · refine .inl ?_
      have hmoves := moves_dispatches (hst.moves hp) fun call hcall => hk ⟨call,hcall⟩
      exact hmoves.trans (dispatches_of_log hulog)
  · obtain ⟨_,_,new,rfl,hnew⟩ := consume_frame hc
    refine .inl (dispatches_append rfl fun call hcall => ?_)
    obtain ⟨event,he⟩ := hnew _ hcall
    cases he
  · exact .inl rfl

/-! The tasks of the dispatches. -/

theorem Move.record_kept (h : Move c b t k s s') {id : String} (hid : id ∈ s.tools.records) : id ∈ s'.tools.records := by
  by_contra hno
  have hnone : s'.record id = none := Dict.get_eq_none.mpr hno
  have hsome : s.record id ≠ none := fun h => Dict.get_eq_none.mp h hid
  obtain hsame | ⟨hnew,_⟩ | ⟨_,_,_,hr,_⟩ := h.recordStep id
  · exact hsome (hsame ▸ hnone)
  · exact hsome hnew
  · rw [hr] at hnone
    cases hnone

/-- Every dispatch is that of a registered call, with what the catalog says of it, and no call has two. -/
structure DispatchTasks (c : SessionConfig A) (s : Session A) : Prop where
  registered : ∀ j call invalid state, s.place j = some (.dispatch call invalid,state) →
    call.callId ∈ s.tools.records ∧ call.generation = c.generation ∧ invalid = invalidToolArguments c call
  unique : ∀ j j' call call' invalid invalid' state state', s.place j = some (.dispatch call invalid,state) →
    s.place j' = some (.dispatch call' invalid',state') → call.callId = call'.callId → j = j'

theorem DispatchTasks.move (h : Move c b t k s s') (hs : DispatchTasks c s) : DispatchTasks c s' := by
  have hnew : ∀ {call invalid}, Spawned c b k s s' (.dispatch call invalid) → call.callId ∉ s.tools.records ∧
      call.callId ∈ s'.tools.records ∧ call.generation = c.generation ∧ invalid = invalidToolArguments c call := by
    rintro call invalid ⟨hno,_,hg,hinvalid,rfl⟩
    refine ⟨hno,?_,hg,hinvalid⟩
    rw [registerTool_frame]
    exact Dict.mem_set.mpr (.inl rfl)
  refine ⟨fun j call invalid state hj => ?_,fun j j' call call' invalid invalid' state state' hj hj' hid => ?_⟩
  · obtain hold | ⟨_,_,hspawned⟩ := h.place_cases hj
    · obtain ⟨hin,hrest⟩ := hs.registered j call invalid state hold
      exact ⟨h.record_kept hin,hrest⟩
    · exact (hnew hspawned).2
  · obtain hold | ⟨hlen,_,hspawned⟩ := h.place_cases hj
    · obtain hold' | ⟨_,_,hspawned'⟩ := h.place_cases hj'
      · exact hs.unique _ _ _ _ _ _ _ _ hold hold' hid
      · exact absurd (hid ▸ (hs.registered _ _ _ _ hold).1) (hnew hspawned').1
    · obtain hold' | ⟨hlen',_,_⟩ := h.place_cases hj'
      · exact absurd (hid ▸ (hs.registered _ _ _ _ hold').1) (hnew hspawned).1
      · exact hlen.trans hlen'.symm

theorem DispatchTasks.of_places (hs : DispatchTasks c s) (hrecords : s'.tools = s.tools)
    (hback : ∀ j call invalid state, s'.place j = some (.dispatch call invalid,state) →
      ∃ state', s.place j = some (.dispatch call invalid,state')) : DispatchTasks c s' := by
  refine ⟨fun j call invalid state hj => ?_,fun j j' call call' invalid invalid' state state' hj hj' hid => ?_⟩
  · obtain ⟨state',hplace⟩ := hback _ _ _ _ hj
    rw [hrecords]
    exact hs.registered _ _ _ _ hplace
  · obtain ⟨_,hplace⟩ := hback _ _ _ _ hj
    obtain ⟨_,hplace'⟩ := hback _ _ _ _ hj'
    exact hs.unique _ _ _ _ _ _ _ _ hplace hplace' hid

theorem Stretch.dispatch_back {a : Action} {m : Prog A Unit} {u : Session A} (h : Stretch c s a t k m u) {j : TaskId}
    {call : ToolCallRequested} {invalid : Bool} {state : TaskState}
    (hj : u.place j = some (.dispatch call invalid,state)) :
    ∃ state', s.place j = some (.dispatch call invalid,state') := by
  by_cases hjt : j = t
  · subst hjt
    rw [h.here] at hj
    obtain ⟨rfl,_⟩ := Prod.mk.inj (Option.some.inj hj)
    obtain ⟨_,hcall⟩ | ⟨state',hplace,_⟩ := h.came
    · cases hcall
    · exact ⟨state',hplace⟩
  · exact ⟨state,by rw [← h.others hjt,hj]⟩

theorem Running.dispatch_back (hr : Running c s t k) {p : TaskState} {j : TaskId} {call : ToolCallRequested}
    {invalid : Bool} {state : TaskState} (hj : (s.setTask t p).place j = some (.dispatch call invalid,state)) :
    ∃ state', s.place j = some (.dispatch call invalid,state') := by
  obtain ⟨rfl,rfl,_⟩ | hold := hr.setTask_cases hj
  · exact ⟨.running,hr.here⟩
  · exact ⟨state,hold⟩

theorem dispatchTasks_invariant : Invariant c anyStep (DispatchTasks c) fun _ _ _ s => DispatchTasks c s where
  start shared id := by
    refine ⟨fun j call invalid state hj => ?_,fun j j' call call' invalid invalid' state state' hj => ?_⟩
    · cases (fresh_place hj).1
    · cases (fresh_place hj).1
  wake _ hs _ hst := hs.of_places (by rw [hst.frame]) fun _ _ _ _ => hst.dispatch_back
  move _ hm hs := hs.move hm
  park _ _ hr hs _ := hs.of_places rfl fun _ _ _ _ => hr.dispatch_back
  stop _ _ hr hs _ := hs.of_places rfl fun _ _ _ _ => hr.dispatch_back
  consume _ hs h := by
    obtain ⟨_,_,_,rfl,_⟩ := consume_frame h
    exact hs.of_places rfl fun _ _ _ state hj => ⟨state,hj⟩
  interfere _ hs := hs.of_places rfl fun _ _ _ state hj => ⟨state,hj⟩

/-- A task that has begun to run is not created again. -/
theorem step_begun (hp : Placed c s) {a : Action} (h : step c s a = some s') {j : TaskId} {kind : TaskKind}
    {state : TaskState} (hj : s.place j = some (kind,state)) (hstate : state ≠ .created) :
    ∃ state', s'.place j = some (kind,state') ∧ state' ≠ .created := by
  obtain ⟨t,k,m,u,hst,rfl⟩ | ⟨_,hc⟩ | ⟨shared,_,rfl⟩ := step_cases h
  · have hrun := (hst.running hp).moves (hst.moves hp)
    have hkept : ∀ {j p}, u.place j = some p → (m u).state.place j = some p := by
      intro j p hj
      exact moves_keep (I := fun v => v.place j = some p) (fun _ _ hm hv => hm.place_kept hv) (hst.moves hp) hj
    by_cases hjt : j = t
    · subst hjt
      obtain ⟨state',hj'⟩ := hst.kind_kept hj
      rw [hst.here] at hj'
      obtain ⟨rfl,_⟩ := Prod.mk.inj (Option.some.inj hj')
      refine ⟨rest (m u),setTask_place_self hrun.here,fun hrest => ?_⟩
      cases hm : m u with
      | ok x v =>
        rw [hm] at hrest
        cases hrest
      | raise e v =>
        rw [hm] at hrest
        cases hrest
      | park p v =>
        rw [hm] at hrest
        obtain rfl : p = .created := hrest
        exact ((hst.does hp).parks _ v hm).2
    · refine ⟨state,?_,hstate⟩
      rw [setTask_place hjt]
      exact hkept ((hst.others hjt).trans hj)
  · obtain ⟨_,_,_,rfl,_⟩ := consume_frame hc
    exact ⟨state,hj,hstate⟩
  · exact ⟨state,hj,hstate⟩

/-! At most one dispatch of a call. -/

structure DispatchedOnce (s : Session A) : Prop where
  begun : ∀ call ∈ s.dispatches, ∃ j state, s.place j = some (.dispatch call false,state) ∧ state ≠ .created
  once : s.dispatchedIds.Nodup

theorem DispatchedOnce.step (hp : Placed c s) (ht : DispatchTasks c s) (hs : DispatchedOnce s) {a : Action}
    (h : step c s a = some s') : DispatchedOnce s' := by
  have hbegun : ∀ call ∈ s.dispatches, ∃ j state, s'.place j = some (.dispatch call false,state) ∧ state ≠ .created := by
    intro call hcall
    obtain ⟨j,state,hj,hstate⟩ := hs.begun call hcall
    exact ⟨j,step_begun hp h hj hstate⟩
  obtain hsame | ⟨t,call,hnew,_,hcreated,hplace⟩ := step_dispatches hp h
  · refine ⟨hsame ▸ hbegun,?_⟩
    rw [dispatchedIds,hsame]
    exact hs.once
  · refine ⟨fun call' hcall' => ?_,?_⟩
    · rw [hnew] at hcall'
      obtain rfl | hold := List.mem_cons.mp hcall'
      · exact ⟨t,_,hplace,by simp⟩
      · exact hbegun call' hold
    · rw [dispatchedIds,hnew,List.map_cons,List.nodup_cons]
      refine ⟨fun hin => ?_,hs.once⟩
      obtain ⟨call',hcall',hid⟩ := List.mem_map.mp hin
      obtain ⟨j,state,hj,hstate⟩ := hs.begun call' hcall'
      obtain rfl := ht.unique _ _ _ _ _ _ _ _ hj hcreated hid
      rw [hcreated] at hj
      obtain ⟨_,rfl⟩ := Prod.mk.inj (Option.some.inj hj)
      exact hstate rfl

theorem dispatchedOnce (h : Reachable c s) : DispatchedOnce s := by
  refine h.invariant_with (J := fun s => Placed c s ∧ DispatchTasks c s)
    (fun _ h => ⟨placed h,dispatchTasks_invariant.reachable h⟩) ?_ fun _ _ _ hp hs _ hstep => hs.step hp.1 hp.2 hstep
  rintro _ ⟨shared,id,rfl⟩
  have hnone : (runTask 0 (startSession c 0 id) (useId (fresh c shared) id)).dispatches = [] := by
    rw [runTask_eq]
    refine (moves_dispatches does_start.moves (by simp)).trans ?_
    rfl
  exact ⟨by simp [hnone],by simp [dispatchedIds,hnone]⟩

/-- A dispatched call is registered, belongs to the session and satisfies the schema of its tool. -/
theorem dispatched_valid (h : Reachable c s) {call : ToolCallRequested} (hcall : .dispatched call ∈ s.log) :
    call.callId ∈ s.tools.records ∧ call.generation = c.generation ∧ invalidToolArguments c call = false := by
  obtain ⟨j,state,hj,_⟩ := (dispatchedOnce h).begun call (mem_dispatches.mpr hcall)
  obtain ⟨hin,hg,hinvalid⟩ := (dispatchTasks_invariant.reachable h).registered _ _ _ _ hj
  exact ⟨hin,hg,hinvalid.symm⟩

/-- A step hands at most one call to the dispatcher: one of the session's own, registered, with arguments that the schema
of its tool admits, never handed over before, and while the session is active. -/
theorem dispatch_admitted (h : Reachable c s) {a : Action} (hstep : step c s a = some s') :
    s'.dispatches = s.dispatches ∨ ∃ call, s'.dispatches = call :: s.dispatches ∧ s.isActive c ∧
      call.callId ∉ s.dispatchedIds ∧ call.callId ∈ s'.tools.records ∧
      call.generation = c.generation ∧ invalidToolArguments c call = false := by
  obtain hsame | ⟨_,call,hnew,hactive,_⟩ := step_dispatches (placed h) hstep
  · exact .inl hsame
  · have hreach : Reachable c s' := h.tail trivial hstep
    have honce := (dispatchedOnce hreach).once
    rw [dispatchedIds,hnew,List.map_cons,List.nodup_cons] at honce
    have hlog : .dispatched call ∈ s'.log := mem_dispatches.mp (by simp [hnew])
    exact .inr ⟨call,hnew,hactive,honce.1,dispatched_valid hreach hlog⟩

section Sample

open QwenOmni (sample sampleOpening toolCall)

/-- The sample session of a host with a dispatcher. -/
def hosted : SessionConfig QwenOmniAdapter := { sample with hasDispatcher := true }

def hostedStart : Session QwenOmniAdapter :=
  runTask 0 (startSession hosted 0 "a") (useId (fresh hosted { state := { table := { generation := 1 } } }) "a")

def hostedRun (as : List Action) : Session QwenOmniAdapter :=
  (Transition.exec (step hosted) hostedStart as).getD hostedStart

theorem hostedRun_reachable {as : List Action} (h : (Transition.exec (step hosted) hostedStart as).isSome) :
    Reachable hosted (hostedRun as) := by
  have hinit : Init hosted hostedStart := ⟨_,_,rfl⟩
  obtain ⟨s,hs⟩ := Option.isSome_iff_exists.mp h
  rw [hostedRun,hs,Option.getD_some]
  exact Transition.exec_reachable _ hinit hs

/-- The provider has called the tool, and the task of the dispatch is there. -/
def called : Session QwenOmniAdapter := hostedRun (sampleOpening ++ toolCall)

theorem dispatch_admitted_call : ∃ s' call, step hosted called (.resume 2 .ready "x") = some s' ∧
    s'.dispatches = [call] ∧ called.isActive hosted ∧ call.callId ∈ s'.tools.records ∧
    invalidToolArguments hosted call = false := by
  have hsome : (step hosted called (.resume 2 .ready "x")).isSome := by with_unfolding_all decide
  obtain ⟨s',hs'⟩ := Option.isSome_iff_exists.mp hsome
  have hnone : called.dispatches.length = 0 := by with_unfolding_all decide
  have hone : ((step hosted called (.resume 2 .ready "x")).map fun s => s.dispatches.length) = some 1 := by
    with_unfolding_all decide
  rw [hs',Option.map_some,Option.some.injEq] at hone
  have hreach : Reachable hosted called := hostedRun_reachable (by with_unfolding_all decide)
  obtain hsame | ⟨call,hnew,hactive,_,hin,_,hvalid⟩ := dispatch_admitted hreach hs'
  · rw [hsame,hnone] at hone
    cases hone
  · rw [List.length_eq_zero_iff.mp hnone] at hnew
    exact ⟨s',call,hs',hnew,hactive,hin,hvalid⟩

end Sample

/-! What is registered. -/

/-- The calls that the session knows. -/
def knownCalls (s : Session A) : Finset String := s.tools.records.keys.toFinset

theorem mem_knownCalls {id : String} : id ∈ s.knownCalls ↔ id ∈ s.tools.records := by
  rw [knownCalls,List.mem_toFinset]
  exact Iff.rfl

theorem knownCalls_of_records (h : ∀ id, s'.record id = none ↔ s.record id = none) : s'.knownCalls = s.knownCalls := by
  ext id
  rw [mem_knownCalls,mem_knownCalls,← not_iff_not]
  exact Dict.get_eq_none.symm.trans ((h id).trans Dict.get_eq_none)

theorem knownCalls_setRecord {id : String} (r : ToolRecord) (h : s.record id ≠ none) :
    (s.setRecord id r).knownCalls = s.knownCalls := by
  refine knownCalls_of_records fun id' => ?_
  rw [setRecord_record]
  split
  · rename_i heq
    simp [heq,h]
  · exact Iff.rfl

theorem claimMessage_toolCalls {state state' : SessionState} {key digest : String} {prior : Option String}
    (h : state.claimMessage key digest = .ok (prior,state')) : state'.toolCalls = state.toolCalls := by
  unfold SessionState.claimMessage at h
  obtain ⟨_,_,h⟩ := except_bind_ok h
  split at h
  · split at h
    · cases h
    · split at h <;> cases h
      rfl
  · cases h
    rfl

theorem confirmMessage_toolCalls {state state' : SessionState} {key itemId : String}
    (h : state.confirmMessage key itemId = .ok state') : state'.toolCalls = state.toolCalls := by
  unfold SessionState.confirmMessage at h
  split at h <;> cases h
  rfl

/-- Only a new call of the provider is registered, with the session and with the recovery record. -/
theorem Move.takes_calls (h : Move c b t k s s') :
    Takes (s.shared.state.toolCalls : Set String) s'.shared.state.toolCalls s.knownCalls.val s'.knownCalls.val := by
  have hsame : s'.shared.state.toolCalls = s.shared.state.toolCalls → s'.knownCalls = s.knownCalls →
      Takes (s.shared.state.toolCalls : Set String) s'.shared.state.toolCalls s.knownCalls.val s'.knownCalls.val := by
    intro hcalls hknown
    rw [hcalls,hknown]
    exact .refl _ _
  have hsome : ∀ {id r}, s.record id = some r → s.record id ≠ none := by
    intro id r hr
    simp [hr]
  cases h
  case finish => exact hsame (by rw [endResponse_frame]) (by rw [endResponse_frame]; rfl)
  case publish => exact hsame (by rw [publish_frame]) (by rw [publish_frame]; rfl)
  case conclude => exact hsame (by rw [concludeClose_frame]) (by rw [concludeClose_frame]; rfl)
  case ackContext => exact hsame (by rw [acknowledgeContext_frame]) (by rw [acknowledgeContext_frame]; rfl)
  case register call hnew hh _ =>
    rw [registerTool_frame]
    have hknown : call.callId ∉ s.knownCalls := fun hin => hnew (mem_knownCalls.mp hin)
    refine ⟨by simp,{call.callId},?_,Multiset.nodup_singleton _,by simpa using hh⟩
    rw [Multiset.singleton_add,← Finset.insert_val_of_notMem hknown]
    congr 1
    ext id
    simp [mem_knownCalls]
  case spawnAttempt id output r h hr hlive ho => exact hsame rfl (knownCalls_setRecord (s := s.spawn _) _ (hsome hr))
  case output id output r hk hb hr h => exact hsame rfl (knownCalls_setRecord _ (hsome hr))
  case result id output r event hk hb hr h ho he _ => exact hsame rfl (knownCalls_setRecord _ (hsome hr))
  case ackResult id r h hr hs => exact hsame rfl (knownCalls_setRecord _ (hsome hr))
  case followup id output r event hk hr h _ =>
    refine hsame (by rw [requestFollowup_frame]) (knownCalls_of_records fun id' => ?_)
    simp only [requestFollowup]
    split <;>
    · simp only [record,setRecord,Dict.get_set]
      split
      · rename_i heq
        have hget : s.tools.records.get id = some r := hr
        simp [heq,hget]
      · exact Iff.rfl
  case introduce response h ha _ =>
    refine hsame (by rw [introduce_frame]) (knownCalls_of_records fun id => ?_)
    simp only [startFollowup,addResponse]
    split
    · exact Iff.rfl
    · rename_i id' waiting _
      cases hr : s.tools.records.get id' with
      | none => simp [record]
      | some r =>
        simp only [record,Dict.get_set]
        split
        · rename_i heq
          simp [heq,hr]
        · exact Iff.rfl
  case claimKey key text role trigger state hk hh hn hclaim => exact hsame (claimMessage_toolCalls hclaim) rfl
  case confirmKey inj key itemId state _ _ _ _ _ hconfirm => exact hsame (confirmMessage_toolCalls hconfirm) rfl
  all_goals exact hsame rfl rfl

theorem moves_take_calls (h : Moves c b t k s s') :
    Takes (s.shared.state.toolCalls : Set String) s'.shared.state.toolCalls s.knownCalls.val s'.knownCalls.val := by
  induction h with
  | refl => exact .refl _ _
  | tail _ hm ih => exact ih.trans hm.takes_calls

/-! A session that starts knows no call. -/

abbrev KeepsTools {α : Type} (m : Prog A α) (s : Session A) : Prop :=
  Run.Within (fun u v => v.tools = u.tools) (fun _ _ => True) m s

theorem keepsTools_failAndRaise {code : RealtimeErrorCode} {retryable : Bool} {error : RealtimeError} {frame : Frame} :
    KeepsTools (failAndRaise c t code retryable error frame) s := by
  have hshutdown : ∀ u : Session A, KeepsTools (shutdownConnection t (.raise error frame)) u := by
    refine fun _ => within_get (Run.Within.ite (fun _ => within_pure) fun _ => ?_)
    exact within_modify_bind (.single rfl) (within_suspend trivial)
  have hfail : KeepsTools (fail c t code retryable (.raise error frame)) s := by
    refine within_get (Run.Within.ite (fun _ => within_pure) fun _ => ?_)
    exact within_modify_bind (.single (by rw [publish_frame])) (hshutdown _)
  exact hfail.bind fun _ _ _ _ => within_get within_raise

theorem keepsTools_sendRuntimeEvent {purpose : Purpose} {event : ClientEvent} :
    KeepsTools (sendRuntimeEvent c t purpose event) s := by
  refine within_modify_bind (.single rfl) ?_
  split
  · exact within_modify_bind (.single rfl) (within_suspend trivial)
  · rename_i e _
    cases e with
    | cancelled => exact within_raise
    | realtime e => exact within_modify_bind (.single rfl) keepsTools_failAndRaise
    | exception => exact within_modify_bind (.single rfl) keepsTools_failAndRaise

theorem started_knownCalls (shared : Shared) (id : String) :
    (runTask 0 (startSession c 0 id) (useId (fresh c shared) id)).knownCalls = ∅ := by
  have hwithin : KeepsTools (startSession c 0 id) (useId (fresh c shared) id) :=
    within_get (within_ofExcept_bind fun _ _ => within_modify_bind (.single rfl) keepsTools_sendRuntimeEvent)
  have htools : (startSession c 0 id (useId (fresh c shared) id)).state.tools = (fresh c shared).tools :=
    moves_keep (I := fun u => u.tools = (fresh c shared).tools) (fun _ _ hm hu => hm.trans hu) hwithin.1 rfl
  rw [runTask_eq]
  change ((startSession c 0 id (useId (fresh c shared) id)).state.tools.records.keys).toFinset = ∅
  rw [htools]
  rfl

end Session
end HarnessSdk
