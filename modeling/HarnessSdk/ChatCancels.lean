import HarnessSdk.ChatRuns

/-!
# One cancellation for each run

The task that cancels a run is created under the lock and kept until the run is settled, and a dispatch returns the
identity that it has found under the lock.
-/

namespace HarnessSdk
namespace Chat

/-- A call that has not taken the lock to cancel. -/
def Unlocked : Option Call → Prop
  | none => True
  | some (.at point) => point.held = none
  | _ => False

theorem Idle.unlocked {before : Option Call} (h : Idle before) : Unlocked before := by
  cases before with
  | none => trivial
  | some call =>
    cases call with
    | «at» point => exact h.1
    | returned | raised => exact h.elim

namespace ChatLoop

open Transition

variable {cfg : ChatConfig} {n k m : ℕ} {s s' u v : ChatLoop} {call : Call}

/-- What is recorded stays recorded, and a task keeps its run and its request. -/
structure Grows (s u : ChatLoop) : Prop where
  log : ∀ t ∈ s.log, t ∈ u.log
  tasks : ∀ k t, s.tasks k = some t → ∃ t', u.tasks k = some t' ∧ t'.run = t.run ∧ t'.request = t.request

theorem Grows.of_tasks (hlog : ∀ t ∈ s.log, t ∈ u.log) (htasks : u.tasks = s.tasks) : Grows s u :=
  ⟨hlog,fun _ t ht => ⟨t,htasks ▸ ht,rfl,rfl⟩⟩

theorem grows_conclude (n : ℕ) (call : Call) : Grows u (u.conclude n call) :=
  .of_tasks (fun _ => mem_conclude_of n call) rfl

theorem Grows.trans (h : Grows s u) (hh : Grows u v) : Grows s v := by
  refine ⟨fun t ht => hh.log t (h.log t ht),fun k t ht => ?_⟩
  obtain ⟨t',ht',hrun,hrequest⟩ := h.tasks k t ht
  obtain ⟨t'',ht'',hrun',hrequest'⟩ := hh.tasks k t' ht'
  exact ⟨t'',ht'',hrun'.trans hrun,hrequest'.trans hrequest⟩

/-- The request that cancels the run of a submission. -/
def CancelOf (s : ChatLoop) (m : ℕ) (request : CancelRequest) : Prop :=
  ∃ k t, s.tasks k = some t ∧ t.run = some m ∧ t.request = request

/-- The identity of a recorded run and of its cancellation. -/
def Carries (s : ChatLoop) (run : Option ℕ) (runId startId : String) (cancelId : Option String) : Prop :=
  ∃ m request, run = some m ∧ .recorded m runId startId ∈ s.log ∧ s.CancelOf m request ∧
    request.externalRunId = runId ∧ cancelId = some request.externalCommandId

theorem Grows.cancelOf {request : CancelRequest} (h : Grows s u) (hs : s.CancelOf m request) : u.CancelOf m request := by
  obtain ⟨k,t,ht,hrun,hrequest⟩ := hs
  obtain ⟨t',ht',hrun',hrequest'⟩ := h.tasks k t ht
  exact ⟨k,t',ht',hrun'.trans hrun,hrequest'.trans hrequest⟩

theorem Grows.carries {run : Option ℕ} {runId startId : String} {cancelId : Option String} (h : Grows s u)
    (hs : s.Carries run runId startId cancelId) : u.Carries run runId startId cancelId := by
  obtain ⟨m,request,rfl,hrecorded,hcancel,hid,hcommand⟩ := hs
  exact ⟨m,request,rfl,h.log _ hrecorded,h.cancelOf hcancel,hid,hcommand⟩

/-- Which calls have left which traces. -/
structure Ledger (s : ChatLoop) : Prop where
  returned : ∀ n events, .returned n events ∈ s.log → s.calls n = some (.returned events)
  recorded : ∀ n runId commandId, .recorded n runId commandId ∈ s.log → ∃ events, s.calls n = some (.returned events)
  once : ∀ n runId commandId runId' commandId', .recorded n runId commandId ∈ s.log →
    .recorded n runId' commandId' ∈ s.log → runId = runId' ∧ commandId = commandId'
  unlocked : ∀ n, Unlocked (s.calls n) → s.tasks n = none ∧ ∀ run, .locked n run ∉ s.log

/-- A call is not over while it makes a stretch. -/
theorem Stretch.going {before : Option Call} {signal : Option Signal} (h : Stretch cfg n s before signal u call) :
    ∀ events, before ≠ some (.returned events) := by
  rintro events rfl
  cases h with
  | calm hidle => exact hidle

theorem Stretch.records {before : Option Call} {signal : Option Signal} (h : Stretch cfg n s before signal u call)
    {k : ℕ} {runId commandId : String} (ht : .recorded k runId commandId ∈ (u.conclude n call).log) :
    .recorded k runId commandId ∈ s.log ∨ k = n ∧ (∃ events, call = .returned events) ∧
      before = some (.at (.starting runId commandId)) := by
  rcases mem_conclude.mp ht with ⟨events,_,heq⟩ | hin
  · exact nomatch heq
  · clear ht
    cases h with
    | calm _ hquiet _ | held _ _ hquiet _ => exact .inl (hquiet.log ▸ hin)
    | unlocked => exact .inl hin
    | recorded r c =>
      rcases List.mem_cons.mp hin with heq | hold
      · obtain ⟨rfl,rfl,rfl⟩ := Trace.recorded.inj heq
        exact .inr ⟨rfl,⟨_,rfl⟩,rfl⟩
      · exact .inl hold
    | started | named | created | joined | settled =>
      rcases List.mem_cons.mp hin with heq | hold
      · exact nomatch heq
      · exact .inl hold

theorem Stretch.returns {before : Option Call} {signal : Option Signal} (h : Stretch cfg n s before signal u call)
    {k : ℕ} {events : List ChatEvent} (ht : .returned k events ∈ u.log) : .returned k events ∈ s.log := by
  cases h with
  | calm _ hquiet _ | held _ _ hquiet _ => exact hquiet.log ▸ ht
  | unlocked => exact ht
  | started | recorded | named | created | joined | settled =>
    rcases List.mem_cons.mp ht with heq | hold
    · exact nomatch heq
    · exact hold

theorem Stretch.locks {before : Option Call} {signal : Option Signal} (h : Stretch cfg n s before signal u call)
    {k : ℕ} {run : Option ℕ} (ht : .locked k run ∈ (u.conclude n call).log) :
    .locked k run ∈ s.log ∨ k = n ∧ run = s.active ∧ before = some (.at (.locking .cancel)) ∧ ¬Unlocked (some call) := by
  rcases mem_conclude.mp ht with ⟨events,_,heq⟩ | hin
  · exact nomatch heq
  · clear ht
    have hwaits : ∀ runId startId, Waits u runId startId call → ¬Unlocked (some call) := by
      intro runId startId hw hun
      cases hw with
      | waits => exact nomatch hun
      | reported | lacks => exact hun
    cases h with
    | calm _ hquiet _ | held _ _ hquiet _ => exact .inl (hquiet.log ▸ hin)
    | unlocked => exact .inl hin
    | started | recorded | settled =>
      rcases List.mem_cons.mp hin with heq | hold
      · exact nomatch heq
      · exact .inl hold
    | named =>
      rcases List.mem_cons.mp hin with heq | hold
      · obtain ⟨rfl,rfl⟩ := Trace.locked.inj heq
        exact .inr ⟨rfl,rfl,rfl,id⟩
      · exact .inl hold
    | created _ _ _ _ _ _ _ hcall | joined _ _ _ _ hcall =>
      rcases List.mem_cons.mp hin with heq | hold
      · obtain ⟨rfl,rfl⟩ := Trace.locked.inj heq
        exact .inr ⟨rfl,rfl,rfl,hwaits _ _ hcall⟩
      · exact .inl hold

/-- Only a dispatch to cancel that has just taken the lock creates a task. -/
theorem Stretch.tasks {before : Option Call} {signal : Option Signal} (h : Stretch cfg n s before signal u call) :
    u.tasks = s.tasks ∨ before = some (.at (.locking .cancel)) ∧ ¬Unlocked (some call) ∧
      ∃ t, u.tasks = Function.update s.tasks n (some t) := by
  cases h with
  | calm _ hquiet _ | held _ _ hquiet _ => exact .inl hquiet.tasks
  | created _ _ _ _ _ _ _ hcall =>
    refine .inr ⟨rfl,fun hun => ?_,_,rfl⟩
    cases hcall with
    | waits => exact nomatch hun
    | reported | lacks => exact hun
  | started | recorded | unlocked | named | joined | settled => exact .inl rfl

/-- A call that has the lock keeps what it holds, and no other call comes to hold anything without the lock. -/
theorem Stretch.unlocks {before : Option Call} {signal : Option Signal} (h : Stretch cfg n s before signal u call)
    (hcall : Unlocked (some call)) : Unlocked before := by
  cases h with
  | calm hidle => exact hidle.unlocked
  | held _ _ _ hheld =>
    rcases hheld with ⟨e,rfl⟩ | ⟨next,rfl,hnext⟩ | ⟨e,rfl,_⟩
    · exact hcall.elim
    · have hnone : next.held = none := hcall
      rw [hnext] at hnone
      exact nomatch hnone
    · exact hcall.elim
  | started | recorded | unlocked | named | created | joined | settled => rfl

theorem ledger_stretch {signal : Option Signal} (h : Stretch cfg n s (s.calls n) signal u call) (hs : Ledger s) :
    Ledger (u.conclude n call) := by
  have hother : ∀ k, k ≠ n → (u.conclude n call).calls k = s.calls k := by
    intro k hne
    rw [conclude_calls,if_neg hne,h.calls]
  have hself : (u.conclude n call).calls n = some call := by rw [conclude_calls,if_pos rfl]
  have hstarting : ∀ r c, s.calls n = some (.at (.starting r c)) → ∀ r' c', .recorded n r' c' ∉ s.log := by
    intro r c hbefore r' c' ht
    obtain ⟨events,hcall⟩ := hs.recorded n r' c' ht
    rw [hbefore] at hcall
    exact nomatch hcall
  refine ⟨fun k events ht => ?_,fun k runId commandId ht => ?_,fun k r c r' c' ht ht' => ?_,fun k hun => ?_⟩
  · rcases mem_conclude.mp ht with ⟨events',rfl,heq⟩ | hin
    · obtain ⟨rfl,rfl⟩ := Trace.returned.inj heq
      exact hself
    · have hcall := hs.returned k events (h.returns hin)
      by_cases hne : k = n
      · subst hne
        exact absurd hcall (h.going events)
      · exact (hother k hne).trans hcall
  · rcases h.records ht with hold | ⟨rfl,⟨events,rfl⟩,_⟩
    · obtain ⟨events,hcall⟩ := hs.recorded k runId commandId hold
      by_cases hne : k = n
      · subst hne
        exact absurd hcall (h.going events)
      · exact ⟨events,(hother k hne).trans hcall⟩
    · exact ⟨events,hself⟩
  · rcases h.records ht with hold | ⟨rfl,_,hbefore⟩
    · rcases h.records ht' with hold' | ⟨rfl,_,hbefore⟩
      · exact hs.once k r c r' c' hold hold'
      · exact absurd hold (hstarting r' c' hbefore r c)
    · rcases h.records ht' with hold' | ⟨_,_,hbefore'⟩
      · exact absurd hold' (hstarting r c hbefore r' c')
      · rw [hbefore] at hbefore'
        obtain ⟨rfl,rfl⟩ := Point.starting.inj (Call.at.inj (Option.some.inj hbefore'))
        exact ⟨rfl,rfl⟩
  · by_cases hne : k = n
    · subst hne
      rw [hself] at hun
      obtain ⟨hnone,hlocked⟩ := hs.unlocked k (h.unlocks hun)
      refine ⟨?_,fun run ht => ?_⟩
      · rcases h.tasks with htasks | ⟨_,hnot,_⟩
        · rwa [conclude_tasks,htasks]
        · exact absurd hun hnot
      · rcases h.locks ht with hold | ⟨_,_,_,hnot⟩
        · exact hlocked run hold
        · exact hnot hun
    · rw [hother k hne] at hun
      obtain ⟨hnone,hlocked⟩ := hs.unlocked k hun
      refine ⟨?_,fun run ht => ?_⟩
      · rcases h.tasks with htasks | ⟨_,_,t,htasks⟩
        · rwa [conclude_tasks,htasks]
        · rw [conclude_tasks,htasks,Function.update_of_ne hne]
          exact hnone
      · rcases h.locks ht with hold | ⟨rfl,_⟩
        · exact hlocked run hold
        · exact hne rfl

theorem Other.tasks_none (h : Other s u) : u.tasks k = none ↔ s.tasks k = none := by
  have hstage : ∀ j t stage, s.tasks j = some t → ((s.setStage j t stage).tasks k = none ↔ s.tasks k = none) := by
    intro j t stage hj
    by_cases hne : k = j
    · subst hne
      simp [setStage,hj]
    · simp [setStage,Function.update_of_ne hne]
  cases h with
  | invoked j t ht => exact hstage j t _ ht
  | stage j t stage ht _ hquiet =>
    rw [hquiet.tasks]
    exact hstage j t stage ht
  | tick => exact Iff.rfl

theorem Other.trace (h : Other s u) {t : Trace} (ht : t ∈ u.log) : t ∈ s.log ∨ ∃ run request, t = .cancelCalled run request := by
  cases h with
  | invoked _ t =>
    rcases List.mem_cons.mp ht with heq | hold
    · exact .inr ⟨_,_,heq⟩
    · exact .inl hold
  | stage _ _ _ _ _ hquiet => exact .inl (hquiet.log ▸ ht)
  | tick => exact .inl ht

theorem ledger_other (h : Other s u) (hs : Ledger s) : Ledger u := by
  have hrecorded : ∀ k r c, .recorded k r c ∈ u.log → .recorded k r c ∈ s.log := by
    intro k r c ht
    rcases h.trace ht with hold | ⟨_,_,heq⟩
    · exact hold
    · exact nomatch heq
  refine ⟨fun k events ht => ?_,fun k r c ht => ?_,fun k r c r' c' ht ht' => ?_,fun k hun => ?_⟩
  · rcases h.trace ht with hold | ⟨_,_,heq⟩
    · rw [h.calls]
      exact hs.returned k events hold
    · exact nomatch heq
  · rw [h.calls]
    exact hs.recorded k r c (hrecorded k r c ht)
  · exact hs.once k r c r' c' (hrecorded k r c ht) (hrecorded k r' c' ht')
  · rw [h.calls] at hun
    obtain ⟨hnone,hlocked⟩ := hs.unlocked k hun
    refine ⟨h.tasks_none.mpr hnone,fun run ht => ?_⟩
    rcases h.trace ht with hold | ⟨_,_,heq⟩
    · exact hlocked run hold
    · exact nomatch heq

theorem ledger_accept (hs : Ledger s) : Ledger (s.observe (.accepted n)) := by
  have hold : ∀ t, t ∈ (s.observe (.accepted n)).log → t = .accepted n ∨ t ∈ s.log := fun t => List.mem_cons.mp
  have hrecorded : ∀ k r c, .recorded k r c ∈ (s.observe (.accepted n)).log → .recorded k r c ∈ s.log := by
    intro k r c ht
    rcases hold _ ht with heq | ht
    · exact nomatch heq
    · exact ht
  refine ⟨fun k events ht => ?_,fun k r c ht => hs.recorded k r c (hrecorded k r c ht),
    fun k r c r' c' ht ht' => hs.once k r c r' c' (hrecorded k r c ht) (hrecorded k r' c' ht'),fun k hun => ?_⟩
  · rcases hold _ ht with heq | ht
    · exact nomatch heq
    · exact hs.returned k events ht
  · obtain ⟨hnone,hlocked⟩ := hs.unlocked k hun
    refine ⟨hnone,fun run ht => ?_⟩
    rcases hold _ ht with heq | ht
    · exact nomatch heq
    · exact hlocked run ht

theorem reachable_ledger {ok : ChatLoop → LoopAction → Prop} (h : ReachableWith (step cfg) ok Init s) : Ledger s := by
  refine h.invariant (fun s hs => ?_) fun s a s' hs _ hstep => ?_
  · obtain ⟨session,_,rfl⟩ := hs
    exact ⟨nofun,nofun,nofun,fun _ _ => ⟨rfl,nofun⟩⟩
  · rcases step_cases hstep with ⟨n,signal,u,call,hstretch,rfl,_⟩ | ⟨n,_,_,rfl⟩ | hother
    · exact ledger_stretch hstretch hs
    · exact ledger_accept hs
    · exact ledger_other hother hs

/-! The task that cancels the run. -/

/-- The task of the controller cancels the recorded run, and a run has one task at most. -/
structure Tasked (s : ChatLoop) : Prop where
  current : ∀ k, s.controller.cancelTask = some k → ∃ m t, s.active = some m ∧ s.tasks k = some t ∧ t.run = some m ∧
    s.controller.cancelCommandId = some t.request.externalCommandId
  reported : s.controller.cancelPendingReported → s.controller.cancelTask.isSome
  tasks : ∀ k t, s.tasks k = some t → ∃ m startId, t.run = some m ∧
    .recorded m t.request.externalRunId startId ∈ s.log ∧ (s.active = some m → s.controller.cancelTask = some k)
  unique : ∀ k k' t t', s.tasks k = some t → s.tasks k' = some t' → t.run = t'.run → k = k'

/-- A change that leaves the recorded run and its task as they are. -/
theorem Tasked.keep (h : Tasked s) (hgrows : Grows s u) (hnone : ∀ k, u.tasks k = none ↔ s.tasks k = none)
    (htask : u.controller.cancelTask = s.controller.cancelTask)
    (hid : s.controller.cancelTask.isSome → u.controller.cancelCommandId = s.controller.cancelCommandId)
    (hreported : u.controller.cancelPendingReported → s.controller.cancelPendingReported ∨ s.controller.cancelTask.isSome)
    (hactive : u.active = s.active) : Tasked u := by
  have hback : ∀ k t', u.tasks k = some t' → ∃ t, s.tasks k = some t ∧ t'.run = t.run ∧ t'.request = t.request := by
    intro k t' ht'
    cases ht : s.tasks k with
    | none =>
      rw [(hnone k).mpr ht] at ht'
      exact nomatch ht'
    | some t =>
      obtain ⟨t'',ht'',hrun,hrequest⟩ := hgrows.tasks k t ht
      rw [ht'] at ht''
      obtain rfl := Option.some.inj ht''
      exact ⟨t,rfl,hrun,hrequest⟩
  refine ⟨fun k hk => ?_,fun hu => ?_,fun k t' ht' => ?_,fun k k' t t' ht ht' hruns => ?_⟩
  · rw [htask] at hk
    obtain ⟨m,t,hm,ht,hrun,hcommand⟩ := h.current k hk
    obtain ⟨t',ht',hrun',hrequest⟩ := hgrows.tasks k t ht
    refine ⟨m,t',hactive.trans hm,ht',hrun'.trans hrun,?_⟩
    rw [hid (by rw [hk]; rfl),hcommand,hrequest]
  · rw [htask]
    rcases hreported hu with hs | hs
    · exact h.reported hs
    · exact hs
  · obtain ⟨t,ht,hrun,hrequest⟩ := hback k t' ht'
    obtain ⟨m,startId,hm,hrecorded,hown⟩ := h.tasks k t ht
    refine ⟨m,startId,hrun.trans hm,hrequest ▸ hgrows.log _ hrecorded,fun hu => ?_⟩
    rw [htask]
    exact hown (hactive ▸ hu)
  · obtain ⟨v,hv,hrun,_⟩ := hback k t ht
    obtain ⟨v',hv',hrun',_⟩ := hback k' t' ht'
    rw [hrun,hrun'] at hruns
    exact h.unique k k' v v' hv hv' hruns

theorem Tasked.quiet (h : Tasked s) (hquiet : Quiet s u) : Tasked u :=
  h.keep (.of_tasks (fun _ ht => hquiet.log ▸ ht) hquiet.tasks) (fun k => by rw [hquiet.tasks]) hquiet.cancelTask
    (fun _ => hquiet.cancelCommandId) hquiet.reported hquiet.active

theorem Tasked.conclude (h : Tasked u) (n : ℕ) (call : Call) : Tasked (u.conclude n call) :=
  h.keep (grows_conclude n call) (fun _ => Iff.rfl) rfl (fun _ => rfl) .inl rfl

theorem Tasked.observe (h : Tasked s) (t : Trace) : Tasked (s.observe t) :=
  h.keep (.of_tasks (fun _ => List.mem_cons_of_mem _) rfl) (fun _ => Iff.rfl) rfl (fun _ => rfl) .inl rfl

/-- The recorded run gets its task. -/
theorem tasked_created (hs : Tasked s) (howned : Owned s) (hfresh : s.tasks n = none)
    (hnone : s.controller.cancelTask = none) {runId startId cancelId : String} {request : CancelRequest}
    (hrun : s.controller.activeIdentity = some (runId,startId)) (hrequest : CancelRequest.make runId cancelId = some request) :
    Tasked (s.addTask cfg n cancelId request) := by
  obtain ⟨hid,hstart⟩ := activeIdentity_eq hrun
  obtain ⟨hexternal,hcommand⟩ := CancelRequest.make_eq hrequest
  obtain ⟨m,hactive⟩ : ∃ m, s.active = some m := by
    cases hactive : s.active with
    | none =>
      rw [howned.idle hactive] at hid
      cases hid
    | some m => exact ⟨m,rfl⟩
  obtain ⟨runId',startId',hid',_,hrecorded⟩ := howned.owner m hactive
  obtain rfl : runId = runId' := Option.some.inj (hid.symm.trans hid')
  have hself : (s.addTask cfg n cancelId request).tasks n = some { run := s.active, request } := by simp [addTask]
  have hother : ∀ k, k ≠ n → (s.addTask cfg n cancelId request).tasks k = s.tasks k := fun k hne =>
    Function.update_of_ne hne _ _
  -- an older task of the same run would be the task of the controller
  have hold : ∀ k t, s.tasks k = some t → t.run ≠ s.active := by
    intro k t ht hsame
    obtain ⟨j,_,hj,_,hown⟩ := hs.tasks k t ht
    rw [hown (hsame.symm.trans hj)] at hnone
    cases hnone
  refine ⟨fun k hk => ?_,fun _ => rfl,fun k t ht => ?_,fun k k' t t' ht ht' hruns => ?_⟩
  · obtain rfl : n = k := Option.some.inj hk
    exact ⟨m,_,hactive,hself,hactive,by rw [hcommand]; rfl⟩
  · by_cases hne : k = n
    · subst hne
      rw [hself] at ht
      obtain rfl := Option.some.inj ht
      exact ⟨m,startId',hactive,hexternal ▸ hrecorded,fun _ => rfl⟩
    · rw [hother k hne] at ht
      obtain ⟨j,startId'',hj,hrecorded',_⟩ := hs.tasks k t ht
      refine ⟨j,startId'',hj,hrecorded',fun hu => ?_⟩
      exact absurd (hj.trans (Eq.symm hu)) (hold k t ht)
  · by_cases hne : k = n
    · subst hne
      rw [hself] at ht
      obtain rfl := Option.some.inj ht
      by_cases hne' : k' = k
      · exact hne'.symm
      · rw [hother k' hne'] at ht'
        exact absurd hruns.symm (hold k' t' ht')
    · rw [hother k hne] at ht
      by_cases hne' : k' = n
      · subst hne'
        rw [hself] at ht'
        obtain rfl := Option.some.inj ht'
        exact absurd hruns (hold k t ht)
      · rw [hother k' hne'] at ht'
        exact hs.unique k k' t t' ht ht' hruns

theorem tasked_stretch {signal : Option Signal} (h : Stretch cfg n s (s.calls n) signal u call) (howned : Owned s)
    (hledger : Ledger s) (hs : Tasked s) : Tasked (u.conclude n call) := by
  generalize hbefore : s.calls n = before at h
  apply Tasked.conclude
  cases h with
  | calm _ hquiet _ | held _ _ hquiet _ => exact hs.quiet hquiet
  | started | unlocked =>
    exact hs.keep (.of_tasks (fun _ ht => by first | exact ht | exact .tail _ ht) rfl) (fun _ => Iff.rfl) rfl
      (fun _ => rfl) .inl rfl
  | joined => exact hs.observe _
  | named cancelId hnone =>
    refine hs.keep (.of_tasks (fun _ => List.mem_cons_of_mem _) rfl) (fun _ => Iff.rfl) rfl (fun hsome => ?_) .inl rfl
    rw [hnone] at hsome
    exact nomatch hsome
  | created runId startId cancelId request hrun hnone hrequest =>
    have hfresh : s.tasks n = none := (hledger.unlocked n (hbefore ▸ rfl)).1
    have howned' : Owned (s.observe (.locked n s.active)) :=
      howned.keep rfl rfl rfl (fun _ => List.mem_cons_of_mem _) howned.starting
    exact tasked_created (hs.observe _) howned' hfresh hnone hrun hrequest
  | recorded runId commandId =>
    have hnone : s.controller.cancelTask = none := by
      cases htask : s.controller.cancelTask with
      | none => rfl
      | some k =>
        obtain ⟨m,_,hm,_⟩ := hs.current k htask
        rw [(howned.starting n _ _ hbefore).2] at hm
        exact nomatch hm
    have hnew : ∀ r c, .recorded n r c ∉ s.log := by
      intro r c ht
      obtain ⟨events,hcall⟩ := hledger.recorded n r c ht
      rw [hbefore] at hcall
      exact nomatch hcall
    refine ⟨fun k hk => ?_,hs.reported,fun k t ht => ?_,hs.unique⟩
    · rw [show s.controller.cancelTask = some k from hk] at hnone
      exact nomatch hnone
    · obtain ⟨m,startId,hm,hrecorded,_⟩ := hs.tasks k t ht
      refine ⟨m,startId,hm,List.mem_cons_of_mem _ hrecorded,fun hu => ?_⟩
      obtain rfl : n = m := Option.some.inj hu
      exact absurd hrecorded (hnew _ _)
  | settled =>
    refine ⟨nofun,nofun,fun k t ht => ?_,hs.unique⟩
    obtain ⟨m,startId,hm,hrecorded,_⟩ := hs.tasks k t ht
    exact ⟨m,startId,hm,List.mem_cons_of_mem _ hrecorded,nofun⟩

theorem grows_stage {t : CancelTask} {stage : TaskStage} (ht : s.tasks k = some t) : Grows s (s.setStage k t stage) := by
  refine ⟨fun _ => id,fun j t' ht' => ?_⟩
  by_cases hne : j = k
  · subst hne
    rw [ht] at ht'
    obtain rfl := Option.some.inj ht'
    exact ⟨{ t with stage },by simp [setStage],rfl,rfl⟩
  · exact ⟨t',by simp [setStage,Function.update_of_ne hne,ht'],rfl,rfl⟩

theorem Other.grows (h : Other s u) : Grows s u := by
  cases h with
  | invoked k t ht =>
    exact (grows_stage ht).trans (.of_tasks (fun _ => List.mem_cons_of_mem _) rfl)
  | stage k t stage ht _ hquiet =>
    exact (grows_stage ht).trans (.of_tasks (fun _ h => hquiet.log ▸ h) hquiet.tasks)
  | tick => exact .of_tasks (fun _ => id) rfl

theorem tasked_other (h : Other s u) (hs : Tasked s) : Tasked u := by
  have hcontroller : u.controller.cancelTask = s.controller.cancelTask ∧
      u.controller.cancelCommandId = s.controller.cancelCommandId ∧
      (u.controller.cancelPendingReported → s.controller.cancelPendingReported ∨ s.controller.cancelTask.isSome) := by
    cases h with
    | stage _ _ _ _ _ hquiet => exact ⟨hquiet.cancelTask,hquiet.cancelCommandId,hquiet.reported⟩
    | _ => exact ⟨rfl,rfl,.inl⟩
  obtain ⟨htask,hid,hreported⟩ := hcontroller
  exact hs.keep h.grows (fun _ => h.tasks_none) htask (fun _ => hid) hreported h.active

theorem reachable_tasked {ok : ChatLoop → LoopAction → Prop} (h : ReachableWith (step cfg) ok Init s) : Tasked s := by
  refine h.invariant_with (J := fun s => Owned s ∧ Ledger s) (fun s hr => ⟨reachable_owned hr,reachable_ledger hr⟩)
    (fun s hs => ?_) fun s a s' hj hs _ hstep => ?_
  · obtain ⟨session,_,rfl⟩ := hs
    exact ⟨nofun,nofun,nofun,fun _ _ _ _ h => absurd h (by simp)⟩
  · obtain ⟨howned,hledger⟩ := hj
    rcases step_cases hstep with ⟨n,signal,u,call,hstretch,rfl,_⟩ | ⟨n,_,_,rfl⟩ | hother
    · exact tasked_stretch hstretch howned hledger hs
    · exact hs.observe _
    · exact tasked_other hother hs

/-! The identity that is returned. -/

/-- A call holds an identity that it will return, or has returned it. -/
inductive Bears : Call → String → String → Option String → Prop
  | held (point : Point) (held : Held) (h : point.held = some held) :
      Bears (.at point) held.runId held.startId held.cancelId
  | returned (events : List ChatEvent) (e : ChatEvent) (he : e ∈ events) {runId startId : String}
      {cancelId : Option String} (hid : e.identity = some (runId,startId,cancelId)) :
      Bears (.returned events) runId startId cancelId

/-- The identity is the one of the run that was active when the call took the lock. -/
def Identified (s : ChatLoop) : Prop := ∀ n run call runId startId cancelId, .locked n run ∈ s.log →
  s.calls n = some call → Bears call runId startId cancelId → s.Carries run runId startId cancelId

theorem Waits.carries {runId startId r st : String} {c : Option String} (h : Waits u runId startId call)
    (hv : v.controller = u.controller) (howned : Owned v) (hledger : Ledger v) (htasked : Tasked v)
    (hrun : u.controller.activeIdentity = some (runId,startId)) (hbears : Bears call r st c) :
    v.Carries v.active r st c := by
  have htask : ∀ k, u.controller.cancelTask = some k → v.Carries v.active runId startId u.controller.cancelCommandId := by
    rw [← hv] at hrun ⊢
    obtain ⟨hid,hstart⟩ := activeIdentity_eq hrun
    intro k hk
    obtain ⟨m,t,hm,ht,htrun,hcommand⟩ := htasked.current k hk
    obtain ⟨runId',startId',hid',hstart',hrecorded⟩ := howned.owner m hm
    obtain rfl : runId = runId' := Option.some.inj (hid.symm.trans hid')
    obtain rfl : startId = startId' := Option.some.inj (hstart.symm.trans hstart')
    obtain ⟨m',startId'',hm',hrequest,_⟩ := htasked.tasks k t ht
    obtain rfl : m = m' := Option.some.inj (htrun.symm.trans hm')
    have hexternal := (hledger.once m _ _ _ _ hrequest hrecorded).1
    exact ⟨m,t.request,hm,hrecorded,⟨k,t,ht,htrun,rfl⟩,hexternal,hcommand⟩
  cases h with
  | waits task h =>
    cases hbears with
    | held _ held hheld =>
      obtain rfl := Option.some.inj hheld
      exact htask task h
  | reported cancelId h hreported =>
    cases hbears with
    | returned _ e he hid =>
      obtain rfl := List.mem_singleton.mp he
      obtain ⟨rfl,rfl,rfl⟩ : runId = r ∧ startId = st ∧ some cancelId = c := by simpa [ChatEvent.identity] using hid
      have hsome : u.controller.cancelTask.isSome := by
        rw [← hv] at hreported ⊢
        exact htasked.reported hreported
      obtain ⟨k,hk⟩ := Option.isSome_iff_exists.mp hsome
      exact h ▸ htask k hk
  | lacks => exact nomatch hbears

theorem locked_conclude {run : Option ℕ} (h : .locked k run ∈ (u.conclude n call).log) : .locked k run ∈ u.log := by
  rcases mem_conclude.mp h with ⟨events,_,heq⟩ | hin
  · exact nomatch heq
  · exact hin

/-- A new lock is the one of the call, and is taken while the run is active. -/
theorem locked_observe {run : Option ℕ} (h : .locked n run ∈ (s.observe (.locked n s.active)).log)
    (hnew : .locked n run ∉ s.log) : run = s.active := by
  rcases List.mem_cons.mp h with heq | hold
  · exact (Trace.locked.inj heq).2
  · exact absurd hold hnew

theorem Stretch.grows {signal : Option Signal} (h : Stretch cfg n s (s.calls n) signal u call) (hs : Ledger s) :
    Grows s (u.conclude n call) := by
  refine ⟨fun t ht => mem_conclude_of n call (h.log ht),fun k t ht => ?_⟩
  rw [conclude_tasks]
  rcases h.tasks with htasks | ⟨hbefore,_,t',htasks⟩
  · exact ⟨t,htasks ▸ ht,rfl,rfl⟩
  · have hfresh : s.tasks n = none := (hs.unlocked n (by rw [hbefore]; rfl)).1
    have hne : k ≠ n := by
      rintro rfl
      rw [hfresh] at ht
      exact nomatch ht
    exact ⟨t,by rw [htasks,Function.update_of_ne hne,ht],rfl,rfl⟩

theorem identified_stretch {signal : Option Signal} (h : Stretch cfg n s (s.calls n) signal u call) (hledger : Ledger s)
    (howned' : Owned (u.conclude n call)) (hledger' : Ledger (u.conclude n call)) (htasked' : Tasked (u.conclude n call))
    (hs : Identified s) : Identified (u.conclude n call) := by
  have hgrows := h.grows hledger
  have hcalls := h.calls
  intro k run call' r st c hlocked hcall hbears
  by_cases hne : k = n
  · subst hne
    rw [conclude_calls,if_pos rfl] at hcall
    obtain rfl := Option.some.inj hcall
    have hin := locked_conclude hlocked
    have hnew : Unlocked (s.calls k) → .locked k run ∉ s.log := fun hun => (hledger.unlocked k hun).2 run
    generalize hbefore : s.calls k = before at h hnew
    cases h with
    | calm hidle hquiet => exact absurd (hquiet.log ▸ hin) (hnew hidle.unlocked)
    | recorded | settled =>
      rcases List.mem_cons.mp hin with heq | hold
      · exact nomatch heq
      · exact absurd hold (hnew rfl)
    | started =>
      cases hbears with
      | held _ _ hheld => exact nomatch hheld
    | unlocked | named => exact nomatch hbears
    | created runId startId cancelId request hrun _ _ hwaits =>
      obtain rfl := locked_observe hin (hnew rfl)
      exact hwaits.carries rfl howned' hledger' htasked' hrun hbears
    | joined runId startId hrun _ hwaits =>
      obtain rfl := locked_observe hin (hnew rfl)
      exact hwaits.carries rfl howned' hledger' htasked' hrun hbears
    | held held hpoint hquiet hheld =>
      have hold : .locked k run ∈ s.log := hquiet.log ▸ hin
      have hcarries := hs k run _ _ _ _ hold hbefore (.held _ held hpoint)
      refine hgrows.carries ?_
      rcases hheld with ⟨e,rfl⟩ | ⟨next,rfl,hnext⟩ | ⟨e,rfl,hid⟩
      · exact nomatch hbears
      · cases hbears with
        | held _ held' hheld' =>
          rw [hnext] at hheld'
          obtain rfl := Option.some.inj hheld'
          exact hcarries
      · cases hbears with
        | returned _ e' he' hid' =>
          obtain rfl := List.mem_singleton.mp he'
          rw [hid] at hid'
          obtain ⟨rfl,rfl,rfl⟩ : held.runId = r ∧ held.startId = st ∧ held.cancelId = c := by simpa using hid'
          exact hcarries
  · rw [conclude_calls,if_neg hne,hcalls] at hcall
    rcases h.locks hlocked with hold | ⟨rfl,_⟩
    · exact hgrows.carries (hs k run call' r st c hold hcall hbears)
    · exact absurd rfl hne

theorem Identified.grows (h : Identified s) (hgrows : Grows s u) (hcalls : u.calls = s.calls)
    (hlocked : ∀ k run, .locked k run ∈ u.log → .locked k run ∈ s.log) : Identified u := by
  intro k run call runId startId cancelId hin hcall hbears
  rw [hcalls] at hcall
  exact hgrows.carries (h k run call runId startId cancelId (hlocked k run hin) hcall hbears)

theorem reachable_identified {ok : ChatLoop → LoopAction → Prop} (h : ReachableWith (step cfg) ok Init s) :
    Identified s := by
  refine h.invariant_with (J := fun s => Owned s ∧ Ledger s ∧ Tasked s)
    (fun s hr => ⟨reachable_owned hr,reachable_ledger hr,reachable_tasked hr⟩) (fun s hs => ?_)
    fun s a s' hj hs _ hstep => ?_
  · obtain ⟨session,_,rfl⟩ := hs
    exact fun _ _ _ _ _ _ hlocked => nomatch hlocked
  · obtain ⟨howned,hledger,htasked⟩ := hj
    rcases step_cases hstep with ⟨n,signal,u,call,hstretch,rfl,_⟩ | ⟨n,_,_,rfl⟩ | hother
    · have howned' := owned_stretch hstretch howned
      have hledger' := ledger_stretch hstretch hledger
      have htasked' := tasked_stretch hstretch howned hledger htasked
      exact identified_stretch hstretch hledger howned' hledger' htasked' hs
    · refine hs.grows (.of_tasks (fun _ => List.mem_cons_of_mem _) rfl) rfl fun k run hin => ?_
      rcases List.mem_cons.mp hin with heq | hold
      · exact nomatch heq
      · exact hold
    · refine hs.grows hother.grows hother.calls fun k run hin => ?_
      rcases hother.trace hin with hold | ⟨_,_,heq⟩
      · exact hold
      · exact nomatch heq

/-! The calls of `client.cancel`. -/

def cancelCalls (log : List Trace) : List (Option ℕ × CancelRequest) :=
  log.filterMap fun t => match t with | .cancelCalled run request => some (run,request) | _ => none

/-- Each request comes from the task of its run, which has gone on. -/
structure Submitted (s : ChatLoop) : Prop where
  nodup : ((cancelCalls s.log).map Prod.fst).Nodup
  task : ∀ run request, (run,request) ∈ cancelCalls s.log →
    ∃ k t, s.tasks k = some t ∧ t.run = run ∧ t.request = request ∧ t.stage ≠ .created

theorem Submitted.keep (h : Submitted s) (hcalls : cancelCalls u.log = cancelCalls s.log)
    (htasks : ∀ k t, s.tasks k = some t → t.stage ≠ .created →
      ∃ t', u.tasks k = some t' ∧ t'.run = t.run ∧ t'.request = t.request ∧ t'.stage ≠ .created) : Submitted u := by
  refine ⟨?_,fun run request hin => ?_⟩
  · rw [hcalls]
    exact h.nodup
  · rw [hcalls] at hin
    obtain ⟨k,t,ht,hrun,hrequest,hstage⟩ := h.task run request hin
    obtain ⟨t',ht',hrun',hrequest',hstage'⟩ := htasks k t ht hstage
    exact ⟨k,t',ht',hrun'.trans hrun,hrequest'.trans hrequest,hstage'⟩

theorem Stretch.cancels {before : Option Call} {signal : Option Signal} (h : Stretch cfg n s before signal u call) :
    cancelCalls (u.conclude n call).log = cancelCalls s.log := by
  have hu : cancelCalls u.log = cancelCalls s.log := by
    cases h with
    | calm _ hquiet _ | held _ _ hquiet _ => rw [hquiet.log]
    | _ => rfl
  rw [← hu]
  cases call <;> rfl

theorem submitted_stretch {signal : Option Signal} (h : Stretch cfg n s (s.calls n) signal u call) (hledger : Ledger s)
    (hs : Submitted s) : Submitted (u.conclude n call) := by
  refine hs.keep h.cancels fun k t ht hstage => ⟨t,?_,rfl,rfl,hstage⟩
  rw [conclude_tasks]
  rcases h.tasks with htasks | ⟨hbefore,_,t',htasks⟩
  · rw [htasks,ht]
  · have hfresh : s.tasks n = none := (hledger.unlocked n (by rw [hbefore]; rfl)).1
    have hne : k ≠ n := by
      rintro rfl
      rw [hfresh] at ht
      exact nomatch ht
    rw [htasks,Function.update_of_ne hne,ht]

theorem stage_kept {t : CancelTask} {stage : TaskStage} (ht : s.tasks k = some t) (hstage : stage ≠ .created) (j : ℕ)
    (t₀ : CancelTask) (ht₀ : s.tasks j = some t₀) (hold : t₀.stage ≠ .created) :
    ∃ t', (s.setStage k t stage).tasks j = some t' ∧ t'.run = t₀.run ∧ t'.request = t₀.request ∧ t'.stage ≠ .created := by
  by_cases hne : j = k
  · subst hne
    rw [ht] at ht₀
    obtain rfl := Option.some.inj ht₀
    exact ⟨{ t with stage },by simp [setStage],rfl,rfl,hstage⟩
  · exact ⟨t₀,by simp [setStage,Function.update_of_ne hne,ht₀],rfl,rfl,hold⟩

/-- The request of a task is submitted when the task starts, and no other task has submitted one for its run. -/
theorem submitted_invoked {t : CancelTask} (ht : s.tasks k = some t) (hcreated : t.stage = .created) (htasked : Tasked s)
    (hs : Submitted s) : Submitted ((s.setStage k t .invoked).observe (.cancelCalled t.run t.request)) := by
  have hstage : TaskStage.invoked ≠ .created := by simp
  have hnew : t.run ∉ (cancelCalls s.log).map Prod.fst := by
    intro hin
    obtain ⟨⟨run,request⟩,hcalled,hrun⟩ := List.mem_map.mp hin
    obtain ⟨k',t',ht',hrun',_,hgone⟩ := hs.task run request hcalled
    obtain rfl : k' = k := htasked.unique k' k t' t ht' ht (hrun'.trans hrun)
    rw [ht] at ht'
    obtain rfl := Option.some.inj ht'
    exact hgone hcreated
  refine ⟨List.nodup_cons.mpr ⟨hnew,hs.nodup⟩,fun run request hin => ?_⟩
  rcases List.mem_cons.mp hin with heq | hold
  · obtain ⟨rfl,rfl⟩ := Prod.mk.inj heq
    exact ⟨k,{ t with stage := .invoked },by simp [setStage,observe],rfl,rfl,hstage⟩
  · obtain ⟨k',t',ht',hrun',hrequest',hgone⟩ := hs.task run request hold
    obtain ⟨t'',ht'',hrun'',hrequest'',hgone''⟩ := stage_kept ht hstage k' t' ht' hgone
    exact ⟨k',t'',ht'',hrun''.trans hrun',hrequest''.trans hrequest',hgone''⟩

theorem submitted_other (h : Other s u) (htasked : Tasked s) (hs : Submitted s) : Submitted u := by
  cases h with
  | invoked k t ht hcreated => exact submitted_invoked ht hcreated htasked hs
  | stage k t stage ht hstage hquiet =>
    refine hs.keep (by rw [hquiet.log]; rfl) ?_
    rw [hquiet.tasks]
    exact stage_kept ht hstage
  | tick => exact hs.keep rfl fun k t ht hold => ⟨t,ht,rfl,rfl,hold⟩

theorem reachable_submitted {ok : ChatLoop → LoopAction → Prop} (h : ReachableWith (step cfg) ok Init s) :
    Submitted s := by
  refine h.invariant_with (J := fun s => Ledger s ∧ Tasked s) (fun s hr => ⟨reachable_ledger hr,reachable_tasked hr⟩)
    (fun s hs => ?_) fun s a s' hj hs _ hstep => ?_
  · obtain ⟨session,_,rfl⟩ := hs
    exact ⟨List.nodup_nil,nofun⟩
  · obtain ⟨hledger,htasked⟩ := hj
    rcases step_cases hstep with ⟨n,signal,u,call,hstretch,rfl,_⟩ | ⟨n,_,_,rfl⟩ | hother
    · exact submitted_stretch hstretch hledger hs
    · exact hs.keep rfl fun k t ht hold => ⟨t,ht,rfl,rfl,hold⟩
    · exact submitted_other hother htasked hs

/-! Dispatches to cancel. -/

/-- A dispatch to cancel still waits for the lock, has taken it, or has come to its end without an identity. -/
def Dispatched (s : ChatLoop) (n : ℕ) : Prop :=
  s.calls n = some (.at (.locking .cancel)) ∨ (∃ run, .locked n run ∈ s.log) ∨ ∃ call, s.calls n = some call ∧ Bare call

theorem dispatched_self {signal : Option Signal} (h : Stretch cfg n s (s.calls n) signal u call) (hs : Dispatched s n) :
    Dispatched (u.conclude n call) n := by
  have hself : (u.conclude n call).calls n = some call := by rw [conclude_calls,if_pos rfl]
  rcases hs with hlocking | ⟨run,hlocked⟩ | ⟨call',hcall,hbare⟩
  · rw [hlocking] at h
    cases h with
    | calm _ _ _ hcancel => exact .inr (.inr ⟨call,hself,hcancel rfl⟩)
    | named | created | joined => exact .inr (.inl ⟨s.active,mem_conclude_of n _ (.head _)⟩)
    | held _ hpoint => exact nomatch hpoint
  · exact .inr (.inl ⟨run,mem_conclude_of n call (h.log hlocked)⟩)
  · rw [hcall] at h
    cases call' with
    | «at» => exact hbare.elim
    | returned | raised =>
      cases h with
      | calm hidle => exact hidle.elim

theorem dispatched_step {a : LoopAction} (hs : Dispatched s n) (hstep : step cfg s a = some s') : Dispatched s' n := by
  have hkeep : ∀ {v : ChatLoop}, v.calls n = s.calls n → (∀ t ∈ s.log, t ∈ v.log) → Dispatched v n := by
    intro v hcalls hlog
    unfold Dispatched
    rw [hcalls]
    exact hs.imp_right (Or.imp_left fun ⟨run,hlocked⟩ => ⟨run,hlog _ hlocked⟩)
  rcases step_cases hstep with ⟨k,signal,u,call,hstretch,rfl,_⟩ | ⟨k,_,_,rfl⟩ | hother
  · by_cases hne : n = k
    · subst hne
      exact dispatched_self hstretch hs
    · refine hkeep ?_ fun t ht => mem_conclude_of k call (hstretch.log ht)
      rw [conclude_calls,if_neg hne,hstretch.calls]
  · exact hkeep rfl fun _ => List.mem_cons_of_mem _
  · exact hkeep (by rw [hother.calls]) fun _ => hother.log

/-- A dispatch that returns an identity has taken the lock. -/
theorem locked_of_identity {events : List ChatEvent} {e : ChatEvent} (h : Dispatched s n)
    (hcall : s.calls n = some (.returned events)) (he : e ∈ events) (hid : e.identity ≠ none) :
    ∃ run, .locked n run ∈ s.log := by
  rcases h with hlocking | hlocked | ⟨call,hsome,hbare⟩
  · rw [hlocking] at hcall
    exact nomatch hcall
  · exact hlocked
  · rw [hcall] at hsome
    obtain rfl := Option.some.inj hsome
    exact absurd (hbare e he) hid

theorem cancelOf_unique {request request' : CancelRequest} (h : Tasked s) (hs : s.CancelOf m request)
    (hs' : s.CancelOf m request') : request = request' := by
  obtain ⟨k,t,ht,hrun,rfl⟩ := hs
  obtain ⟨k',t',ht',hrun',rfl⟩ := hs'
  obtain rfl := h.unique k k' t t' ht ht' (hrun.trans hrun'.symm)
  rw [ht] at ht'
  obtain rfl := Option.some.inj ht'
  rfl

/-- For each run `client.cancel` is called at most once, with the request of the run, and what a dispatch to cancel
returns carries the identity of the run that was active when it took the lock, and of the only cancellation of that
run. -/
theorem cancel_submitted_once (h : Reachable (step cfg) Init s) :
    ((cancelCalls s.log).map Prod.fst).Nodup ∧
    (∀ run request, (run,request) ∈ cancelCalls s.log → ∃ m startId, run = some m ∧
      .recorded m request.externalRunId startId ∈ s.log ∧ s.CancelOf m request) ∧
    (∀ m request request', s.CancelOf m request → s.CancelOf m request' → request = request') ∧
    (∀ m runId startId runId' startId', .recorded m runId startId ∈ s.log → .recorded m runId' startId' ∈ s.log →
      runId = runId' ∧ startId = startId') ∧
    ∀ s' n events e runId startId cancelId, Steps (step cfg) anyStep s s' → s.calls n = some (.at (.locking .cancel)) →
      .returned n events ∈ s'.log → e ∈ events → e.identity = some (runId,startId,cancelId) →
      ∃ run, .locked n run ∈ s'.log ∧ s'.Carries run runId startId cancelId := by
  have hledger := reachable_ledger h
  have htasked := reachable_tasked h
  have hsubmitted := reachable_submitted h
  refine ⟨hsubmitted.nodup,fun run request hin => ?_,fun m request request' => cancelOf_unique htasked,hledger.once,?_⟩
  · obtain ⟨k,t,ht,rfl,rfl,_⟩ := hsubmitted.task run request hin
    obtain ⟨m,startId,hm,hrecorded,_⟩ := htasked.tasks k t ht
    exact ⟨m,startId,hm,hrecorded,k,t,ht,hm,rfl⟩
  · intro s' n events e runId startId cancelId hsteps hlocking hreturned he hid
    have hreach := h.steps hsteps
    have hcall := (reachable_ledger hreach).returned n events hreturned
    have hdispatched : Dispatched s' n :=
      hsteps.invariant (I := fun s => Dispatched s n) (fun _ _ _ hs _ hstep => dispatched_step hs hstep) (.inl hlocking)
    obtain ⟨run,hlocked⟩ := locked_of_identity hdispatched hcall he (by rw [hid]; simp)
    exact ⟨run,hlocked,reachable_identified hreach n run _ _ _ _ hlocked hcall (.returned events e he hid)⟩

/-- Two dispatches wait for the lock to cancel the run of call 0. -/
def cancelling : List LoopAction :=
  submitting 0 ++ [.resume 0 .ready,.begin 1 (.dispatch .cancel),.begin 2 (.dispatch .quit)]

/-- The first times out behind the request, the second waits for its end. -/
def cancelled : List LoopAction :=
  [.resume 1 (.acquired { cancel := "cancel" }),.invoke 1,.resume 2 (.acquired {}),.resume 1 .timeout,
    .resume 1 (.acquired {}),.finish 1 .done,.resume 2 .ready,.resume 2 (.acquired {})]

theorem cancel_submitted_once_timeout : ∃ s s', Reachable (step {}) Init s ∧ Steps (step {}) anyStep s s' ∧
    (cancelCalls s'.log).map Prod.fst = [some 0] ∧ ((cancelCalls s'.log).map Prod.fst).Nodup ∧
    .returned 1 [.cancelPending "run" "command" "cancel"] ∈ s'.log ∧
    ∃ run, .locked 1 run ∈ s'.log ∧ s'.Carries run "run" "command" (some "cancel") := by
  have hsample : ∃ s s', exec (step {}) {} cancelling = some s ∧ exec (step {}) s cancelled = some s' ∧
      s.calls 1 = some (.at (.locking .cancel)) ∧ (cancelCalls s'.log).map Prod.fst = [some 0] ∧
      .returned 1 [.cancelPending "run" "command" "cancel"] ∈ s'.log := ⟨_,_,rfl,rfl,rfl,rfl,.tail _ (.head _)⟩
  obtain ⟨s,s',hs,hs',hlocking,hcalls,hreturned⟩ := hsample
  have hreach := exec_reachable (step {}) init_default hs
  have hsteps := exec_steps (step {}) hs'
  obtain ⟨hnodup,_⟩ := cancel_submitted_once (hreach.steps hsteps)
  obtain ⟨_,_,_,_,hcarries⟩ := cancel_submitted_once hreach
  exact ⟨s,s',hreach,hsteps,hcalls,hnodup,hreturned,
    hcarries s' 1 _ _ _ _ _ hsteps hlocking hreturned (.head _) rfl⟩

end ChatLoop
end Chat
end HarnessSdk
