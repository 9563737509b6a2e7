import HarnessSdk.ChatCancels
import Mathlib.Data.List.TakeDrop

/-!
# Quitting the chat

A `Quit` that finds no run is answered at once, without the lock. One that finds a run leaves a note, and the
observation that settles the run answers it.
-/

namespace HarnessSdk
namespace Chat

open Transition Relation

/-- A `Quit`, also as the text of the command. -/
def Request.isQuit : Request → Bool
  | .dispatch .quit => true
  | .dispatchText text => text = "/quit" || text = "/quit "
  | _ => false

/-- An observation that has read the run `m` returns a `QuitRequested` behind a cancellation. -/
def quitAnswer (m : ℕ) : Trace → List Trace → ℕ
  | .returned _ events, .settled (some read) _ _ :: _ => if read = m ∧ .quitRequested true ∈ events then 1 else 0
  | _, _ => 0

/-- How many observations of the run `m` have returned a `QuitRequested` behind a cancellation. -/
def quitAnswers (m : ℕ) : List Trace → ℕ
  | [] => 0
  | t :: log => quitAnswers m log + quitAnswer m t log

namespace ChatLoop

/-- Nothing that asks the user interface to quit is returned. -/
def Silent (events : List ChatEvent) : Prop := ∀ b, .quitRequested b ∉ events

/-- The note of a `Quit`, the run and the answers are left as they are. -/
structure Same (s u : ChatLoop) : Prop where
  flag : u.controller.quitAfterSettle = s.controller.quitAfterSettle
  active : u.active = s.active
  calls : u.calls = s.calls
  answers : ∀ m, quitAnswers m u.log = quitAnswers m s.log

theorem Same.refl (s : ChatLoop) : Same s s := ⟨rfl,rfl,rfl,fun _ => rfl⟩

theorem Same.trans {s u v : ChatLoop} (h : Same s u) (hh : Same u v) : Same s v :=
  ⟨hh.flag.trans h.flag,hh.active.trans h.active,hh.calls.trans h.calls,fun m => (hh.answers m).trans (h.answers m)⟩

/-- A program that leaves them as they are, with `Q` of what it returns. -/
structure Tame {α : Type} (Q : α → Prop) (m : Prog α) (s : ChatLoop) : Prop where
  same : Same s (m s).state
  value : ∀ a u, m s = .ok a u → Q a

variable {cfg : ChatConfig} {n k : ℕ} {s s' u : ChatLoop} {α β : Type} {Q : α → Prop} {R : β → Prop}

theorem tame_pure {a : α} (h : Q a) : Tame Q (pure a) s := by
  refine ⟨.refl s,fun b u hu => ?_⟩
  obtain ⟨rfl,-⟩ := Outcome.ok.inj hu
  exact h

theorem tame_raise {e : ChatExn} : Tame Q (Run.raise e) s := ⟨.refl s,fun a u hu => by simp at hu⟩

theorem tame_suspend {p : Point} : Tame Q (Run.suspend p) s := ⟨.refl s,fun a u hu => by simp at hu⟩

theorem tame_get {k : ChatLoop → Prog β} (h : Tame R (k s) s) : Tame R (Run.get >>= k) s := ⟨h.same,h.value⟩

theorem tame_modify {f : ChatLoop → ChatLoop} {k : Unit → Prog β} (hf : Same s (f s)) (h : Tame R (k ()) (f s)) :
    Tame R (Run.modify f >>= k) s := ⟨hf.trans h.same,h.value⟩

theorem Tame.ite {p : Prop} [Decidable p] {m k : Prog α} (hm : p → Tame Q m s) (hk : ¬p → Tame Q k s) :
    Tame Q (if p then m else k) s := by
  split
  · exact hm ‹_›
  · exact hk ‹_›

theorem Tame.bind {m : Prog α} {k : α → Prog β} (hm : Tame Q m s) (hk : ∀ a u, Q a → Tame R (k a) u) :
    Tame R (m >>= k) s := by
  have hsame := hm.same
  cases h : m s with
  | ok a u =>
    have hu := hk a u (hm.value a u h)
    rw [h] at hsame
    refine ⟨?_,fun b v hv => hu.value b v ?_⟩
    · rw [Run.bind_apply,h]
      exact hsame.trans hu.same
    · rwa [Run.bind_apply,h] at hv
  | raise e u =>
    rw [h] at hsame
    refine ⟨?_,fun b v hv => ?_⟩
    · rw [Run.bind_apply,h]
      exact hsame
    · simp [Run.bind_apply,h] at hv
  | park p u =>
    rw [h] at hsame
    refine ⟨?_,fun b v hv => ?_⟩
    · rw [Run.bind_apply,h]
      exact hsame
    · simp [Run.bind_apply,h] at hv

/-- An event that is no `QuitRequested`. -/
theorem silent_nil : Silent [] := nofun

theorem Silent.cons {e : ChatEvent} {events : List ChatEvent} (h : Silent events) (he : ∀ b, e ≠ .quitRequested b) :
    Silent (e :: events) := by
  intro b hb
  rcases List.mem_cons.mp hb with heq | hb
  · exact he b heq.symm
  · exact h b hb

theorem silent_one {e : ChatEvent} (he : ∀ b, e ≠ .quitRequested b) : Silent [e] := silent_nil.cons he

theorem tame_cancelPending {runId startId : String} {cancelId : Option String} :
    Tame Silent (cancelPending runId startId cancelId) s := by
  cases cancelId with
  | none => exact tame_raise
  | some cancelId => exact tame_pure (silent_one nofun)

theorem tame_waitForTask {runId startId : String} : Tame Silent (waitForTask runId startId) s := by
  refine tame_get (Tame.ite (fun _ => tame_cancelPending) fun _ => ?_)
  split
  · exact tame_raise
  · exact tame_suspend

theorem tame_createCancelTask {ids : FactoryIds} {runId : String} :
    Tame (fun _ => True) (createCancelTask cfg n ids runId) s := by
  refine tame_get (Tame.ite (fun _ => tame_pure trivial) fun _ => tame_modify ⟨rfl,rfl,rfl,fun _ => rfl⟩ ?_)
  split
  · exact tame_raise
  · exact ⟨⟨rfl,rfl,rfl,fun _ => rfl⟩,fun _ _ _ => trivial⟩

theorem tame_cancelLocked {ids : FactoryIds} : Tame Silent (cancelLocked cfg n ids) s := by
  apply tame_get
  split
  · exact tame_pure (silent_one nofun)
  · refine tame_modify ⟨rfl,rfl,rfl,fun _ => rfl⟩ ?_
    exact tame_createCancelTask.bind fun _ _ _ => tame_waitForTask

theorem tame_submitLocked {ids : FactoryIds} {text : String} : Tame Silent (submitLocked n ids text) s := by
  refine tame_get (Tame.ite (fun _ => tame_pure (silent_one nofun)) fun _ => ?_)
  split
  · exact tame_raise
  · exact tame_modify ⟨rfl,rfl,rfl,fun _ => rfl⟩ tame_suspend

theorem same_acceptCancel (task : ℕ) : Same s (s.acceptCancel task) := by
  unfold acceptCancel
  split
  · exact ⟨rfl,rfl,rfl,fun _ => rfl⟩
  · exact .refl s

theorem tame_cancelAccepted {task : ℕ} {runId startId : String} {cancelId : Option String} :
    Tame Silent (cancelAccepted task runId startId cancelId) s :=
  tame_modify (same_acceptCancel task) (tame_pure (silent_one nofun))

theorem tame_cancelExpired {task : ℕ} {runId startId : String} {cancelId : Option String} :
    Tame Silent (cancelExpired task runId startId cancelId) s := by
  refine tame_modify ?_ tame_cancelPending
  split
  · exact ⟨rfl,rfl,rfl,fun _ => rfl⟩
  · exact .refl s

theorem tame_locked {ids : FactoryIds} {next : LockNext} : Tame Silent (locked cfg n ids next) s := by
  cases next with
  | submit text => exact tame_submitLocked
  | cancel => exact tame_cancelLocked
  | expired task runId startId cancelId => exact tame_cancelExpired
  | accepted task runId startId cancelId => exact tame_cancelAccepted

theorem tame_observeOnce {polling : Option Polling} : Tame Silent (observeOnce polling) s := by
  apply tame_get
  split
  · exact tame_raise
  · refine Tame.ite (fun _ => tame_modify ⟨rfl,rfl,rfl,fun _ => rfl⟩ ?_) fun _ =>
      Tame.ite (fun _ => tame_pure (silent_one nofun)) fun _ => tame_suspend
    split
    · exact tame_raise
    · exact tame_pure (silent_one nofun)

theorem tame_polled {polling : Polling} {events : List ChatEvent} (h : Silent events) :
    Tame Silent (polled polling events) s := by
  unfold polled
  split
  · exact tame_suspend
  · exact tame_pure h

theorem tame_pollLoop {polling : Polling} : Tame Silent (pollLoop polling) s :=
  tame_get (Tame.ite (fun _ => tame_observeOnce.bind fun _ _ h => tame_polled h) fun _ => tame_pure (silent_one nofun))

theorem tame_observeUntil {deadlineSeconds initialDelay maximumDelay : ℕ} :
    Tame Silent (observeUntil deadlineSeconds initialDelay maximumDelay) s := by
  apply tame_get
  split
  · exact tame_raise
  · exact tame_pollLoop

theorem same_setSession (name : String) : Same s (s.update fun u => (u.setSession name).2) := by
  refine ⟨?_,rfl,rfl,fun _ => rfl⟩
  unfold update ChatController.setSession
  dsimp only
  split
  · rfl
  · split <;> rfl

theorem silent_setSession (c : ChatController) (name : String) : Silent [(c.setSession name).1] := by
  unfold ChatController.setSession
  split
  · exact silent_one nofun
  · split <;> exact silent_one nofun

theorem tame_dispatch {action : ChatAction} (h : action ≠ .quit) : Tame Silent (dispatch action) s := by
  cases action with
  | submit text => exact Tame.ite (fun _ => tame_pure silent_nil) fun _ => tame_suspend
  | cancel => exact tame_suspend
  | quit => exact absurd rfl h
  | clear | help => exact tame_pure (silent_one nofun)
  | status => exact tame_get (tame_pure (silent_one nofun))
  | setSession name => exact tame_get (tame_modify (same_setSession name) (tame_pure (silent_setSession _ name)))
  | newSession =>
    refine tame_get (Tame.ite (fun _ => tame_pure (silent_one nofun)) fun _ => ?_)
    have hnotice : Silent [.notice "New display context"] := silent_one nofun
    exact tame_modify ⟨rfl,rfl,rfl,fun _ => rfl⟩ (tame_pure (hnotice.cons nofun))

/-- A text whose first word is `/quit`, with nothing behind the first blank. -/
theorem quit_text {text : String} (hcommand : String.ofList (text.toList.span (· ≠ ' ')).1 = "/quit")
    (hargument : String.ofList (text.toList.span (· ≠ ' ')).2.tail = "") : text = "/quit" ∨ text = "/quit " := by
  have hcommand := congrArg String.toList hcommand
  have hargument := congrArg String.toList hargument
  rw [String.toList_ofList,List.span_eq_takeWhile_dropWhile] at hcommand hargument
  dsimp only at hcommand hargument
  have htext := List.takeWhile_append_dropWhile (p := fun c => decide (c ≠ ' ')) (l := text.toList)
  rw [hcommand] at htext
  cases hrest : text.toList.dropWhile fun c => decide (c ≠ ' ') with
  | nil =>
    rw [hrest,List.append_nil] at htext
    exact .inl (String.toList_inj.mp htext.symm)
  | cons c rest =>
    have hblank : c = ' ' := by
      have hhead := List.head?_dropWhile_not (fun c => decide (c ≠ ' ')) text.toList
      rw [hrest] at hhead
      simpa using hhead
    have hnil : rest = [] := by
      rw [hrest] at hargument
      simpa using hargument
    rw [hrest,hblank,hnil] at htext
    exact .inr (String.toList_inj.mp htext.symm)

theorem tame_dispatchText {text : String} (h : (Request.dispatchText text).isQuit = false) :
    Tame Silent (dispatchText text) s := by
  simp only [Request.isQuit,Bool.or_eq_false_iff,decide_eq_false_iff_not] at h
  refine Tame.ite (fun _ => tame_pure silent_nil) fun _ => Tame.ite (fun _ => tame_dispatch nofun) fun _ =>
    Tame.ite (fun _ => tame_dispatch nofun) fun _ => ?_
  split
  · exact tame_dispatch nofun
  · exact tame_dispatch nofun
  · exact tame_dispatch nofun
  · exact tame_dispatch nofun
  · rename_i hcommand hargument
    rcases quit_text hcommand hargument with htext | htext
    · exact absurd htext h.1
    · exact absurd htext h.2
  · exact tame_dispatch nofun
  · exact tame_get (tame_pure (silent_one nofun))
  · exact tame_dispatch nofun
  · exact tame_pure (silent_one nofun)

theorem tame_beginCall {request : Request} (h : request.isQuit = false) : Tame Silent (beginCall request) s := by
  cases request with
  | dispatch action =>
    refine tame_dispatch ?_
    rintro rfl
    exact nomatch h
  | dispatchText text => exact tame_dispatchText h
  | observeOnce => exact tame_observeOnce
  | observeUntil deadlineSeconds initialDelay maximumDelay => exact tame_observeUntil

theorem beginCall_quit {request : Request} (h : request.isQuit) : beginCall request = dispatch .quit := by
  cases request with
  | dispatch action =>
    cases action with
    | quit => rfl
    | _ => exact nomatch h
  | dispatchText text =>
    simp only [Request.isQuit,Bool.or_eq_true,decide_eq_true_eq] at h
    rcases h with rfl | rfl
    · rfl
    · rfl
  | observeOnce | observeUntil => exact nomatch h

theorem tame_taskEnded {task : ℕ} {runId startId : String} {cancelId : Option String} {result : TaskResult} :
    Tame Silent (taskEnded task runId startId cancelId result) s := by
  cases result with
  | done | timeout => exact tame_suspend
  | raised | cancelled => exact tame_raise

/-- The observation that has found the run still open. -/
theorem tame_snapshotsRead {read : Option ℕ} {runId startId : String} {start : CommandSnapshot}
    {cancel : Option CommandSnapshot} {polling : Option Polling}
    (h : reconcile start (cancel.or s.controller.cancelSnapshot) = none) :
    Tame Silent (snapshotsRead read runId startId start cancel polling) s := by
  have hobserved : Tame Silent (observed read runId startId start cancel) s := by
    have heq := observed_eq s read runId startId start cancel
    rw [h] at heq
    refine ⟨?_,fun events u hu => ?_⟩
    · rw [heq]
      exact ⟨rfl,rfl,rfl,fun _ => rfl⟩
    · rw [heq] at hu
      obtain ⟨rfl,-⟩ := Outcome.ok.inj hu
      exact silent_one nofun
  cases polling with
  | none => exact hobserved
  | some polling => exact hobserved.bind fun _ _ hevents => tame_polled hevents

/-- The observation that settles the run. -/
theorem snapshotsRead_settles {read : Option ℕ} {runId startId : String} {start : CommandSnapshot}
    {cancel : Option CommandSnapshot} {polling : Option Polling} {terminal : ChatEvent}
    (h : reconcile start (cancel.or s.controller.cancelSnapshot) = some terminal) :
    snapshotsRead read runId startId start cancel polling s =
      .ok (if s.controller.quitAfterSettle then [terminal,.quitRequested true] else [terminal])
        ((s.keepSnapshots start cancel).settleRun read terminal) := by
  have heq := observed_eq s read runId startId start cancel
  rw [h] at heq
  cases polling with
  | none => exact heq
  | some polling =>
    show (observed read runId startId start cancel >>= fun events => polled polling events) s = _
    rw [Run.bind_eq heq]
    split
    · rw [polled_settled (reconcile_identity h)]
      rfl
    · rw [polled_settled (reconcile_identity h)]
      rfl

/-! What a step has to do with a `Quit`. -/

/-- `Quit` is neither noted nor answered, and no run is recorded or settled. -/
structure Plain (s s' : ChatLoop) : Prop where
  flag : s'.controller.quitAfterSettle = s.controller.quitAfterSettle
  active : s'.active = s.active
  answers : ∀ m, quitAnswers m s'.log = quitAnswers m s.log
  silent : ∀ k events, s'.calls k = some (.returned events) → s.calls k = some (.returned events) ∨ Silent events

/-- `Quit` is answered or noted, a run is recorded or settled, or nothing of it is touched. -/
inductive QuitStep (cfg : ChatConfig) (s : ChatLoop) : LoopAction → ChatLoop → Prop
  | plain {a : LoopAction} {s' : ChatLoop} (h : Plain s s') : QuitStep cfg s a s'
  | idle (n : ℕ) (request : Request) (hquit : request.isQuit) (hidle : s.controller.runId = none) :
      QuitStep cfg s (.begin n request) (s.conclude n (.returned [.quitRequested false]))
  | noted (n : ℕ) (request : Request) (hquit : request.isQuit) (hrun : s.controller.runId ≠ none) :
      QuitStep cfg s (.begin n request)
        ((s.update fun u => { u with quitAfterSettle := true }).conclude n (.at (.locking .cancel)))
  | recorded (n : ℕ) (runId commandId : String) (hcall : s.calls n = some (.at (.starting runId commandId))) :
      QuitStep cfg s (.resume n .ready) ((s.recordRun cfg n runId commandId).conclude n
        (.returned [.accepted runId commandId,.pending runId commandId none]))
  | settled (n : ℕ) (read : Option ℕ) (runId startId : String) (cancelId : Option String) (polling : Option Polling)
      (start : CommandSnapshot) (cancel : Option CommandSnapshot) (terminal : ChatEvent)
      (hcall : s.calls n = some (.at (.reading read runId startId cancelId polling)))
      (hreconcile : reconcile start (cancel.or s.controller.cancelSnapshot) = some terminal) :
      QuitStep cfg s (.resume n (.snapshots start cancel))
        (((s.keepSnapshots start cancel).settleRun read terminal).conclude n
          (.returned (if s.controller.quitAfterSettle then [terminal,.quitRequested true] else [terminal])))

/-- A call that returns nothing that quits adds no answer. -/
theorem answers_conclude (m : ℕ) {call : Call} (h : ∀ events, call = .returned events → .quitRequested true ∉ events) :
    quitAnswers m (u.conclude n call).log = quitAnswers m u.log := by
  cases call with
  | «at» | raised => rfl
  | returned events =>
    have hsilent := h events rfl
    show quitAnswers m u.log + quitAnswer m (.returned n events) u.log = quitAnswers m u.log
    unfold quitAnswer
    split
    · rename_i events' read _ _ _ heq _
      obtain ⟨-,rfl⟩ := Trace.returned.inj heq
      rw [if_neg fun hboth => hsilent hboth.2]
      rfl
    · rfl

theorem Tame.plain {m : Prog (List ChatEvent)} (h : Tame Silent m s) (n : ℕ) : Plain s (settleCall n m s) := by
  rw [settleCall_eq]
  have hsilent : ∀ events, callOf (m s) = .returned events → Silent events := by
    intro events hcall
    unfold callOf at hcall
    split at hcall
    · rename_i hm
      obtain rfl := Call.returned.inj hcall
      exact h.value _ _ hm
    · exact nomatch hcall
    · exact nomatch hcall
  refine ⟨h.same.flag,h.same.active,fun k => ?_,fun k events hk => ?_⟩
  · rw [answers_conclude k fun events hcall => hsilent events hcall true]
    exact h.same.answers k
  · rw [conclude_calls] at hk
    by_cases hkn : k = n
    · rw [if_pos hkn] at hk
      exact .inr (hsilent events (Option.some.inj hk))
    · rw [if_neg hkn,h.same.calls] at hk
      exact .inl hk

theorem Same.plain (h : Same s s') : Plain s s' := by
  refine ⟨h.flag,h.active,h.answers,fun k events hk => ?_⟩
  rw [h.calls] at hk
  exact .inl hk

theorem quit_begin {request : Request} : QuitStep cfg s (.begin n request) (settleCall n (beginCall request) s) := by
  cases hquit : request.isQuit with
  | false => exact .plain ((tame_beginCall hquit).plain n)
  | true =>
    rw [beginCall_quit hquit]
    cases hrun : s.controller.runId with
    | none =>
      have hidle : dispatch .quit s = .ok [.quitRequested false] s := by
        simp [dispatch,ChatController.state,hrun]
      rw [settleCall_eq,hidle]
      exact .idle n request hquit hrun
    | some runId =>
      have hstate : s.controller.state ≠ .idle := by
        unfold ChatController.state
        rw [hrun]
        simp only [Option.isNone_some,Bool.false_eq_true,if_false]
        split <;> exact nofun
      have hnoted : dispatch .quit s =
          .park (.locking .cancel) (s.update fun u => { u with quitAfterSettle := true }) := by
        simp [dispatch,hstate,cancel]
      rw [settleCall_eq,hnoted]
      exact .noted n request hquit (by rw [hrun]; exact nofun)

theorem tame_resume {point : Point} {signal : Signal} {m : Prog (List ChatEvent)}
    (h : resumeCall cfg s n point signal = some m) (hstart : point.isStarting = false) (hread : point.isReading = false) :
    Tame Silent m s := by
  cases point with
  | starting => cases hstart
  | reading => cases hread
  | locking next =>
    cases signal with
    | acquired ids =>
      simp only [resumeCall,Option.ite_none_right_eq_some] at h
      obtain rfl := Option.some.inj h.2
      exact tame_locked
    | cancelled =>
      obtain rfl := Option.some.inj h
      exact tame_raise
    | ready | snapshots | timeout | raised => cases h
  | cancelling task runId startId cancelId =>
    cases signal with
    | ready =>
      obtain ⟨result,_,rfl⟩ := Option.map_eq_some_iff.mp h
      exact tame_taskEnded
    | timeout =>
      obtain rfl := Option.some.inj h
      exact tame_suspend
    | cancelled =>
      obtain rfl := Option.some.inj h
      exact tame_raise
    | acquired | snapshots | raised => cases h
  | sleeping polling =>
    cases signal with
    | ready =>
      obtain rfl := Option.some.inj h
      exact tame_pollLoop
    | cancelled =>
      obtain rfl := Option.some.inj h
      exact tame_raise
    | acquired | snapshots | timeout | raised => cases h

theorem quit_starting {runId commandId : String} {signal : Signal} {m : Prog (List ChatEvent)}
    (hcall : s.calls n = some (.at (.starting runId commandId)))
    (h : resumeCall cfg s n (.starting runId commandId) signal = some m) :
    QuitStep cfg s (.resume n signal) (settleCall n m s) := by
  have hunlock : Same s s.unlock := ⟨rfl,rfl,rfl,fun _ => rfl⟩
  cases signal with
  | ready =>
    simp only [resumeCall,Option.ite_none_right_eq_some] at h
    obtain rfl := Option.some.inj h.2
    exact .recorded n runId commandId hcall
  | raised =>
    obtain rfl := Option.some.inj h
    exact .plain (Tame.plain (tame_modify hunlock tame_raise) n)
  | cancelled =>
    obtain rfl := Option.some.inj h
    exact .plain (Tame.plain (tame_modify hunlock tame_raise) n)
  | acquired | snapshots | timeout => cases h

theorem quit_reading {read : Option ℕ} {runId startId : String} {cancelId : Option String} {polling : Option Polling}
    {signal : Signal} {m : Prog (List ChatEvent)}
    (hcall : s.calls n = some (.at (.reading read runId startId cancelId polling)))
    (h : resumeCall cfg s n (.reading read runId startId cancelId polling) signal = some m) :
    QuitStep cfg s (.resume n signal) (settleCall n m s) := by
  cases signal with
  | snapshots start cancel =>
    simp only [resumeCall,Option.ite_none_right_eq_some] at h
    obtain rfl := Option.some.inj h.2
    cases hreconcile : reconcile start (cancel.or s.controller.cancelSnapshot) with
    | none => exact .plain ((tame_snapshotsRead hreconcile).plain n)
    | some terminal =>
      rw [settleCall_eq,snapshotsRead_settles hreconcile]
      exact .settled n read runId startId cancelId polling start cancel terminal hcall hreconcile
  | raised =>
    obtain rfl := Option.some.inj h
    exact .plain (tame_raise.plain n)
  | cancelled =>
    obtain rfl := Option.some.inj h
    exact .plain (tame_raise.plain n)
  | acquired | ready | timeout => cases h

/-- The inversion of `step` by what it has to do with a `Quit`. -/
theorem quit_cases {a : LoopAction} (h : step cfg s a = some s') : QuitStep cfg s a s' := by
  cases a with
  | begin n request =>
    simp only [step,Option.ite_none_right_eq_some,Option.some.injEq] at h
    obtain ⟨_,rfl⟩ := h
    exact quit_begin
  | resume n signal =>
    simp only [step] at h
    split at h
    · rename_i point hcall
      obtain ⟨m,hm,rfl⟩ := Option.map_eq_some_iff.mp h
      cases hstart : point.isStarting with
      | true =>
        cases point with
        | starting runId commandId => exact quit_starting hcall hm
        | _ => cases hstart
      | false =>
        cases hread : point.isReading with
        | true =>
          cases point with
          | reading => exact quit_reading hcall hm
          | _ => cases hread
        | false => exact .plain ((tame_resume hm hstart hread).plain n)
    · cases h
  | accept n =>
    simp only [step,Option.ite_none_right_eq_some,Option.some.injEq] at h
    obtain ⟨_,rfl⟩ := h
    exact .plain (Same.plain ⟨rfl,rfl,rfl,fun _ => rfl⟩)
  | invoke k =>
    obtain ⟨t,_,h⟩ := Option.bind_eq_some_iff.mp h
    simp only [Option.ite_none_right_eq_some] at h
    obtain rfl := Option.some.inj h.2
    exact .plain (Same.plain ⟨rfl,rfl,rfl,fun _ => rfl⟩)
  | finish k result =>
    obtain ⟨t,_,h⟩ := Option.bind_eq_some_iff.mp h
    simp only [Option.ite_none_right_eq_some] at h
    obtain rfl := Option.some.inj h.2
    exact .plain (Same.plain ⟨rfl,rfl,rfl,fun _ => rfl⟩)
  | callback k =>
    obtain ⟨t,_,h⟩ := Option.bind_eq_some_iff.mp h
    split at h
    · rename_i result _
      obtain rfl := Option.some.inj h
      refine .plain (Same.plain ?_)
      have hstage : Same s (s.setStage k t (.ended result false)) := ⟨rfl,rfl,rfl,fun _ => rfl⟩
      unfold superviseCancelTask
      split
      · exact hstage.trans (same_acceptCancel k)
      · exact hstage
    · cases h
  | tick now =>
    simp only [step,Option.ite_none_right_eq_some,Option.some.injEq] at h
    obtain ⟨_,rfl⟩ := h
    exact .plain (Same.plain ⟨rfl,rfl,rfl,fun _ => rfl⟩)

/-! The note of a `Quit` and its answer. -/

theorem reconcile_quit {start : CommandSnapshot} {cancel : Option CommandSnapshot} {e : ChatEvent}
    (h : reconcile start cancel = some e) (b : Bool) : e ≠ .quitRequested b := by
  rintro rfl
  unfold reconcile at h
  dsimp only at h
  repeat' split at h
  all_goals exact nomatch h

theorem log_step {a : LoopAction} (h : step cfg s a = some s') {t : Trace} (ht : t ∈ s.log) : t ∈ s'.log := by
  rcases step_cases h with ⟨n,signal,u,call,hstretch,rfl,_⟩ | ⟨n,_,_,rfl⟩ | hother
  · exact mem_conclude_of n call (hstretch.log ht)
  · exact List.mem_cons_of_mem _ ht
  · exact hother.log ht

/-- What a settlement adds to the answers. -/
theorem answers_settled (m n : ℕ) (read : Option ℕ) (terminal : ChatEvent) (events : List ChatEvent)
    (start : CommandSnapshot) (cancel : Option CommandSnapshot) :
    quitAnswers m (((s.keepSnapshots start cancel).settleRun read terminal).conclude n (.returned events)).log =
      quitAnswers m s.log + if read = some m ∧ .quitRequested true ∈ events then 1 else 0 := by
  cases read with
  | none => rfl
  | some r =>
    show quitAnswers m s.log + (if r = m ∧ .quitRequested true ∈ events then 1 else 0) = _
    simp only [Option.some.injEq]

/-- A note is left for a run, and only observations of runs that have been recorded are under way or answer. -/
structure Noted (s : ChatLoop) : Prop where
  flagged : s.controller.quitAfterSettle → s.active ≠ none
  reading : ∀ k r runId startId cancelId polling, s.calls k = some (.at (.reading (some r) runId startId cancelId polling)) →
    ∃ runId commandId, .recorded r runId commandId ∈ s.log
  answered : ∀ r, quitAnswers r s.log ≠ 0 → (∃ runId commandId, .recorded r runId commandId ∈ s.log) ∧ s.active ≠ some r

theorem noted_reading {a : LoopAction} (hs : Noted s) (howned : Owned s) (h : step cfg s a = some s') {r : ℕ}
    {runId startId : String} {cancelId : Option String} {polling : Option Polling}
    (hk : s'.calls k = some (.at (.reading (some r) runId startId cancelId polling))) :
    ∃ runId commandId, .recorded r runId commandId ∈ s'.log := by
  have hold : s.calls k = some (.at (.reading (some r) runId startId cancelId polling)) ∨ s.active = some r := by
    rcases step_cases h with ⟨n,signal,u,call,hstretch,rfl,_⟩ | ⟨n,_,_,rfl⟩ | hother
    · rcases point_conclude hk with ⟨rfl,hcall⟩ | ⟨_,hk⟩
      · exact .inr (hstretch.reading hcall).symm
      · rw [hstretch.calls] at hk
        exact .inl hk
    · exact .inl hk
    · rw [hother.calls] at hk
      exact .inl hk
  have hrecorded : ∃ runId commandId, .recorded r runId commandId ∈ s.log := by
    rcases hold with hreading | hactive
    · exact hs.reading k r runId startId cancelId polling hreading
    · obtain ⟨runId,startId,_,_,hrecorded⟩ := howned.owner r hactive
      exact ⟨runId,startId,hrecorded⟩
  obtain ⟨runId,commandId,ht⟩ := hrecorded
  exact ⟨runId,commandId,log_step h ht⟩

theorem quiet_false : ∀ events, Call.returned [.quitRequested false] = .returned events → .quitRequested true ∉ events := by
  intro events hcall
  obtain rfl := Call.returned.inj hcall
  simp

/-- A run that is about to be recorded has not been recorded. -/
theorem starting_unrecorded (hledger : Ledger s) {runId commandId : String}
    (hcall : s.calls n = some (.at (.starting runId commandId))) {r : ℕ}
    (hr : ∃ runId commandId, .recorded r runId commandId ∈ s.log) : n ≠ r := by
  rintro rfl
  obtain ⟨runId',commandId',ht⟩ := hr
  obtain ⟨events,hreturned⟩ := hledger.recorded n runId' commandId' ht
  rw [hcall] at hreturned
  exact nomatch hreturned

theorem answers_recorded (m n : ℕ) (runId commandId : String) : quitAnswers m ((s.recordRun cfg n runId commandId).conclude n
    (.returned [.accepted runId commandId,.pending runId commandId none])).log = quitAnswers m s.log := by
  refine answers_conclude m fun events hcall => ?_
  obtain rfl := Call.returned.inj hcall
  simp

theorem noted_step {a : LoopAction} (hs : Noted s) (howned : Owned s) (hledger : Ledger s) (h : step cfg s a = some s') :
    Noted s' := by
  have hgrows : ∀ r, (∃ runId commandId, .recorded r runId commandId ∈ s.log) →
      ∃ runId commandId, .recorded r runId commandId ∈ s'.log :=
    fun r ⟨runId,commandId,ht⟩ => ⟨runId,commandId,log_step h ht⟩
  have hreading : ∀ k r runId startId cancelId polling,
      s'.calls k = some (.at (.reading (some r) runId startId cancelId polling)) →
      ∃ runId commandId, .recorded r runId commandId ∈ s'.log := by
    intro k r runId startId cancelId polling hk
    exact noted_reading hs howned h hk
  have hkept : ∀ r, quitAnswers r s.log ≠ 0 → ∃ runId commandId, .recorded r runId commandId ∈ s'.log :=
    fun r hr => hgrows r (hs.answered r hr).1
  cases quit_cases h with
  | plain hplain =>
    refine ⟨fun hflag => ?_,hreading,fun r hr => ?_⟩
    · rw [hplain.flag] at hflag
      rw [hplain.active]
      exact hs.flagged hflag
    · rw [hplain.answers] at hr
      rw [hplain.active]
      exact ⟨hkept r hr,(hs.answered r hr).2⟩
  | idle n request hquit hidle =>
    refine ⟨hs.flagged,hreading,fun r hr => ?_⟩
    rw [answers_conclude r quiet_false] at hr
    exact ⟨hkept r hr,(hs.answered r hr).2⟩
  | noted n request hquit hrun =>
    refine ⟨fun _ hnone => hrun (howned.idle hnone),hreading,fun r hr => ?_⟩
    exact ⟨hkept r hr,(hs.answered r hr).2⟩
  | recorded n runId commandId hcall =>
    refine ⟨fun _ => nofun,hreading,fun r hr => ?_⟩
    rw [answers_recorded] at hr
    refine ⟨hkept r hr,fun hactive => ?_⟩
    exact starting_unrecorded hledger hcall (hs.answered r hr).1 (Option.some.inj hactive)
  | settled n read runId startId cancelId polling start cancel terminal hcall hreconcile =>
    refine ⟨nofun,hreading,fun r hr => ⟨?_,nofun⟩⟩
    rw [answers_settled] at hr
    by_cases hread : read = some r
    · rw [hread] at hcall
      exact hgrows r (hs.reading n r runId startId cancelId polling hcall)
    · rw [if_neg fun hboth => hread hboth.1] at hr
      exact hkept r hr

theorem reachable_noted {ok : ChatLoop → LoopAction → Prop} (h : ReachableWith (step cfg) ok Init s) : Noted s := by
  refine h.invariant_with (J := fun s => Owned s ∧ Ledger s) (fun s hr => ⟨reachable_owned hr,reachable_ledger hr⟩)
    (fun s hs => ?_) fun s a s' hj hs _ hstep => noted_step hs hj.1 hj.2 hstep
  obtain ⟨session,_,rfl⟩ := hs
  exact ⟨nofun,nofun,fun r hr => absurd rfl hr⟩

/-- An observation that has read one run does not settle another. -/
def OwnRun (s : ChatLoop) : LoopAction → Prop
  | .resume n (.snapshots start cancel) => ∀ read runId startId cancelId polling,
      s.calls n = some (.at (.reading read runId startId cancelId polling)) →
        reconcile start (cancel.or s.controller.cancelSnapshot) = none ∨ s.active = none ∨ s.active = read
  | _ => True

/-- No start is under way. -/
def Unstarted (s : ChatLoop) : Prop := ∀ k runId commandId, s.calls k ≠ some (.at (.starting runId commandId))

/-- A `Quit` comes while no start is under way. -/
def QuitAlone (s : ChatLoop) : LoopAction → Prop
  | .begin _ request => request.isQuit → s.Unstarted
  | _ => True

/-- Each step is as the three conditions ask. -/
def Orderly (s : ChatLoop) (a : LoopAction) : Prop := Unambiguous s a ∧ OwnRun s a ∧ QuitAlone s a

/-- The run `m`, for which a `Quit` has come, is active and noted, or its settlement has answered once. -/
def Awaited (m : ℕ) (s : ChatLoop) : Prop :=
  (s.active = some m ∧ s.controller.quitAfterSettle ∧ quitAnswers m s.log = 0) ∨
    (s.active ≠ some m ∧ quitAnswers m s.log = 1 ∧ ∃ runId commandId, .recorded m runId commandId ∈ s.log)

theorem awaited_step {m : ℕ} {a : LoopAction} (hs : Awaited m s) (hnoted : Noted s) (howned : Owned s) (hledger : Ledger s)
    (hown : OwnRun s a) (h : step cfg s a = some s') : Awaited m s' := by
  have hgrows : (∃ runId commandId, .recorded m runId commandId ∈ s.log) →
      ∃ runId commandId, .recorded m runId commandId ∈ s'.log :=
    fun ⟨runId,commandId,ht⟩ => ⟨runId,commandId,log_step h ht⟩
  cases quit_cases h with
  | plain hplain =>
    unfold Awaited
    rw [hplain.flag,hplain.active,hplain.answers]
    exact hs.imp_right fun ⟨hne,hone,hrecorded⟩ => ⟨hne,hone,hgrows hrecorded⟩
  | idle n request hquit hidle =>
    unfold Awaited
    rw [answers_conclude m quiet_false]
    exact hs.imp_right fun ⟨hne,hone,hrecorded⟩ => ⟨hne,hone,hgrows hrecorded⟩
  | noted n request hquit hrun =>
    rcases hs with ⟨hactive,_,hzero⟩ | ⟨hne,hone,hrecorded⟩
    · exact .inl ⟨hactive,rfl,hzero⟩
    · exact .inr ⟨hne,hone,hgrows hrecorded⟩
  | recorded n runId commandId hcall =>
    have hnone := (howned.starting n runId commandId hcall).2
    rcases hs with ⟨hactive,_⟩ | ⟨_,hone,hrecorded⟩
    · rw [hnone] at hactive
      exact nomatch hactive
    · have hne := starting_unrecorded hledger hcall hrecorded
      refine .inr ⟨fun hactive => hne (Option.some.inj hactive),?_,hgrows hrecorded⟩
      rw [answers_recorded]
      exact hone
  | settled n read runId startId cancelId polling start cancel terminal hcall hreconcile =>
    have hread : s.active = none ∨ s.active = read := by
      rcases hown read runId startId cancelId polling hcall with hopen | hread
      · rw [hreconcile] at hopen
        exact nomatch hopen
      · exact hread
    rcases hs with ⟨hactive,hflag,hzero⟩ | ⟨hne,hone,hrecorded⟩
    · rw [hactive] at hread
      rcases hread with hread | hread
      · exact nomatch hread
      · obtain ⟨runId,startId,_,_,hrecorded⟩ := howned.owner m hactive
        refine .inr ⟨nofun,?_,hgrows ⟨runId,startId,hrecorded⟩⟩
        rw [answers_settled,hzero,if_pos hflag,if_pos ⟨hread.symm,by simp⟩]
    · refine .inr ⟨nofun,?_,hgrows hrecorded⟩
      rw [answers_settled,hone,if_neg]
      rintro ⟨hm,hquit⟩
      cases hflag : s.controller.quitAfterSettle with
      | true =>
        have hsome := hnoted.flagged hflag
        rcases hread with hread | hread
        · exact hsome hread
        · exact hne (hread.trans hm)
      | false =>
        rw [hflag] at hquit
        have hterminal : .quitRequested true = terminal := by simpa using hquit
        exact reconcile_quit hreconcile true hterminal.symm

/-! What is left behind a `Quit`. -/

theorem Unstarted.conclude (h : s.Unstarted) (hcalls : u.calls = s.calls) (n : ℕ) (events : List ChatEvent) :
    (u.conclude n (.returned events)).Unstarted := by
  intro k runId commandId hk
  rcases point_conclude hk with ⟨_,hcall⟩ | ⟨_,hk⟩
  · exact nomatch hcall
  · rw [hcalls] at hk
    exact h k runId commandId hk

/-- While a run is recorded no start is under way. -/
theorem Owned.unstarted (h : Owned s) (hactive : s.active ≠ none) : s.Unstarted := by
  intro k runId commandId hk
  exact hactive (h.starting k runId commandId hk).2

theorem Known.closed (h : Known s) (hactive : s.active = none) (hstart : s.Unstarted) : s.openRuns = [] := by
  apply List.eq_nil_iff_forall_not_mem.mpr
  intro m hm
  obtain ⟨haccepted,hopen⟩ := mem_openRuns.mp hm
  rcases h.known m haccepted with ⟨runId,commandId,hcall⟩ | hrun | hsettled
  · exact hstart m runId commandId hcall
  · rw [hactive] at hrun
    exact nomatch hrun
  · exact hopen hsettled

/-- Where an observation settles its own run only, the run that it has read is the one that it clears. -/
theorem own_active {signal : Option Signal} {a : LoopAction} {call : Call}
    (hstretch : Stretch cfg n s (s.calls n) signal u call) (h : step cfg s a = some (u.conclude n call)) (hown : OwnRun s a)
    {read : Option ℕ} {runId startId : String} {cancelId : Option String} {polling : Option Polling}
    (hcall : s.calls n = some (.at (.reading read runId startId cancelId polling))) :
    u.active = s.active ∨ s.active = none ∨ s.active = read := by
  have hcalls : ∀ k, k ≠ n → (u.conclude n call).calls k = s.calls k := by
    intro k hk
    rw [conclude_calls,if_neg hk,hstretch.calls]
  have hactive : (u.conclude n call).active = u.active := rfl
  generalize u.conclude n call = s' at h hcalls hactive
  cases quit_cases h with
  | plain hplain => exact .inl (hactive.symm.trans hplain.active)
  | idle | noted => exact .inl hactive.symm
  | recorded k runId' commandId' hstarting =>
    have hkn : k = n := by
      by_contra hkn
      have hk := hcalls k hkn
      rw [conclude_calls,if_pos rfl,hstarting] at hk
      exact nomatch hk
    rw [hkn,hcall] at hstarting
    exact nomatch hstarting
  | settled k read' runId' startId' cancelId' polling' start cancel terminal hreading hreconcile =>
    have hkn : k = n := by
      by_contra hkn
      have hk := hcalls k hkn
      rw [conclude_calls,if_pos rfl,hreading] at hk
      exact nomatch hk
    rw [hkn] at hown
    rcases hown read runId startId cancelId polling hcall with hopen | hread
    · rw [hreconcile] at hopen
      exact nomatch hopen
    · exact .inr hread

theorem orderly_known (h : ReachableWith (step cfg) Orderly Init s) : Known s := by
  refine h.invariant_with (J := Owned) (fun s hr => reachable_owned hr) (fun s hs => ?_) fun s a s' howned hs ha hstep => ?_
  · obtain ⟨session,_,rfl⟩ := hs
    exact ⟨List.nodup_nil,nofun⟩
  · obtain ⟨hfails,hown,_⟩ := ha
    rcases step_cases hstep with ⟨n,signal,u,call,hstretch,rfl,hsignal⟩ | ⟨n,rfl,hnew,rfl⟩ | hother
    · refine known_stretch hstretch howned hs (fun _ _ _ _ _ hcall => own_active hstretch hstep hown hcall)
        fun runId commandId given hgiven hne hcall => ?_
      obtain rfl := hsignal given hgiven
      unfold Unambiguous at hfails
      cases given with
      | ready => exact absurd rfl hne
      | _ => exact hfails runId commandId hcall
    · obtain ⟨runId,commandId,hcall⟩ := hfails
      exact known_accept hs hnew hcall
    · exact known_other hother hs

/-- A `QuitRequested` finds no run and no start, and a `Quit` for a run is answered by its settlement, once. -/
structure QuitsClean (cfg : ChatConfig) (ok : ChatLoop → LoopAction → Prop) (s : ChatLoop) : Prop where
  clean : ∀ a s' k events b, ok s a → step cfg s a = some s' → s'.calls k = some (.returned events) →
    s.calls k ≠ some (.returned events) → .quitRequested b ∈ events →
      s'.controller.runId = none ∧ s'.openRuns = [] ∧ s'.Unstarted
  once : ∀ m n request u t, s.active = some m → request.isQuit → step cfg s (.begin n request) = some u →
    Steps (step cfg) ok u t → quitAnswers m t.log = if t.active = some m then 0 else 1

theorem quit_clean (h : ReachableWith (step cfg) Orderly Init s) {a : LoopAction} (ha : Orderly s a)
    (hstep : step cfg s a = some s') {events : List ChatEvent} {b : Bool} (hk : s'.calls k = some (.returned events))
    (hnew : s.calls k ≠ some (.returned events)) (hquit : .quitRequested b ∈ events) :
    s'.controller.runId = none ∧ s'.openRuns = [] ∧ s'.Unstarted := by
  have howned := reachable_owned h
  have hnoted := reachable_noted h
  have hknown := orderly_known (h.tail ha hstep)
  have hclosed : s'.active = none → s'.Unstarted → s'.controller.runId = none ∧ s'.openRuns = [] ∧ s'.Unstarted :=
    fun hactive hstart => ⟨(reachable_owned (h.tail ha hstep)).idle hactive,hknown.closed hactive hstart,hstart⟩
  cases quit_cases hstep with
  | plain hplain =>
    rcases hplain.silent k events hk with hold | hsilent
    · exact absurd hold hnew
    · exact absurd hquit (hsilent b)
  | idle n request hrequest hidle => exact hclosed (howned.free hidle) ((ha.2.2 hrequest).conclude rfl n _)
  | noted n request hrequest hrun =>
    rw [conclude_calls] at hk
    split at hk
    · exact nomatch hk
    · exact absurd hk hnew
  | recorded n runId commandId hcall =>
    rw [conclude_calls] at hk
    split at hk
    · obtain rfl := Call.returned.inj (Option.some.inj hk)
      simp at hquit
    · exact absurd hk hnew
  | settled n read runId startId cancelId polling start cancel terminal hcall hreconcile =>
    rw [conclude_calls] at hk
    split at hk
    · have hevents := Call.returned.inj (Option.some.inj hk)
      by_cases hflag : s.controller.quitAfterSettle = true
      · exact hclosed rfl ((howned.unstarted (hnoted.flagged hflag)).conclude rfl n _)
      · rw [if_neg hflag] at hevents
        obtain rfl := hevents
        have hterminal : .quitRequested b = terminal := by simpa using hquit
        exact absurd hterminal.symm (reconcile_quit hreconcile b)
    · exact absurd hk hnew

/-- With the `Quit` the run that is active is awaited. -/
theorem awaited_begin (h : Reachable (step cfg) Init s) {m : ℕ} (hactive : s.active = some m) {request : Request}
    (hquit : request.isQuit) (hstep : step cfg s (.begin n request) = some u) : Awaited m u := by
  obtain ⟨runId,_,hrun,_⟩ := (reachable_owned h).owner m hactive
  have hzero : quitAnswers m s.log = 0 := by
    by_contra hne
    exact ((reachable_noted h).answered m hne).2 hactive
  simp only [step,Option.ite_none_right_eq_some,Option.some.injEq] at hstep
  obtain ⟨_,rfl⟩ := hstep
  rw [beginCall_quit hquit,settleCall_eq]
  have hstate : s.controller.state ≠ .idle := by
    unfold ChatController.state
    rw [hrun]
    simp only [Option.isNone_some,Bool.false_eq_true,if_false]
    split <;> simp
  have hnoted : dispatch .quit s = .park (.locking .cancel) (s.update fun u => { u with quitAfterSettle := true }) := by
    simp [dispatch,hstate,cancel]
  rw [hnoted]
  exact .inl ⟨hactive,rfl,hzero⟩

/-- A `Quit` leaves no run behind, in every history in which it comes while no start is under way and no observation
that has read one run settles another. -/
theorem quit_leaves_no_run (h : ReachableWith (step cfg) Orderly Init s) : QuitsClean cfg Orderly s := by
  refine ⟨fun a s' k events b ha hstep hk hnew hquit => quit_clean h ha hstep hk hnew hquit,
    fun m n request u t hactive hquit hstep hsteps => ?_⟩
  have hbegin := awaited_begin h.reachable hactive hquit hstep
  have hreach : Reachable (step cfg) Init u := h.reachable.tail trivial hstep
  have hawaited : Reachable (step cfg) Init t ∧ Awaited m t := by
    refine hsteps.invariant (I := fun t => Reachable (step cfg) Init t ∧ Awaited m t) (fun t a t' hI ha ht => ?_) ⟨hreach,hbegin⟩
    obtain ⟨hr,hawaited⟩ := hI
    exact ⟨hr.tail trivial ht,
      awaited_step hawaited (reachable_noted hr) (reachable_owned hr) (reachable_ledger hr) ha.2.1 ht⟩
  rcases hawaited.2 with ⟨hactive,_,hzero⟩ | ⟨hne,hone,_⟩
  · rw [if_pos hactive,hzero]
  · rw [if_neg hne,hone]

/-- The steps with no `Quit`, no start that fails, and no observation of another run. -/
def orderlyCheck (s : ChatLoop) : LoopAction → Bool
  | .begin _ request => !request.isQuit
  | .accept n => isUnder s n
  | .resume n (.snapshots ..) =>
    match s.calls n with
    | some (.at (.reading read ..)) => s.active = read
    | _ => false
  | .resume _ .ready => true
  | .resume n _ => !isUnder s n
  | _ => true

theorem orderlyCheck_orderly (s : ChatLoop) (a : LoopAction) (h : orderlyCheck s a) : Orderly s a := by
  cases a with
  | begin n request =>
    refine ⟨trivial,trivial,fun hquit => ?_⟩
    simp [orderlyCheck,hquit] at h
  | accept n => exact ⟨(soundCheck_sound s (.accept n) h).1,trivial,trivial⟩
  | resume n signal =>
    cases signal with
    | ready => exact ⟨trivial,trivial,trivial⟩
    | snapshots start cancel =>
      simp only [orderlyCheck] at h
      split at h
      · rename_i read runId startId cancelId polling hcall
        refine ⟨fun runId' commandId' hstarting => ?_,fun read' _ _ _ _ hreading => ?_,trivial⟩
        · rw [hcall] at hstarting
          exact nomatch hstarting
        · rw [hcall] at hreading
          obtain ⟨rfl,-⟩ := Point.reading.inj (Call.at.inj (Option.some.inj hreading))
          exact .inr (.inr (by simpa using h))
      · exact nomatch h
    | acquired | timeout | raised | cancelled => exact ⟨(soundCheck_sound s (.resume n _) h).1,trivial,trivial⟩
  | invoke | finish | callback | tick => exact ⟨trivial,trivial,trivial⟩

/-- The cancellation times out, and the observation that finds the run completed answers the `Quit`. -/
theorem quit_leaves_no_run_timeout : ∃ s u t, step {} s (.begin 1 (.dispatch .quit)) = some u ∧
    Steps (step {}) Orderly u t ∧ quitAnswers 0 t.log = 1 ∧ QuitsClean {} Orderly s := by
  have hsample : ∃ s u t, exec (guarded (step {}) orderlyCheck) {} (submitting 0 ++
        [LoopAction.resume 0 .ready]) = some s ∧
      step {} s (.begin 1 (.dispatch .quit)) = some u ∧
      exec (guarded (step {}) orderlyCheck) u [.resume 1 (.acquired { cancel := "cancel" }),.resume 1 .timeout,
        .begin 2 .observeOnce,answered 2] = some t ∧ s.active = some 0 ∧ t.active = none := ⟨_,_,_,rfl,rfl,rfl,rfl,rfl⟩
  obtain ⟨s,u,t,hs,hu,ht,hactive,hnone⟩ := hsample
  have hsteps : Steps (step {}) Orderly u t := guarded_steps (step {}) orderlyCheck_orderly (exec_steps _ ht)
  have hclean := quit_leaves_no_run (exec_reachableWith (step {}) orderlyCheck_orderly init_default hs)
  refine ⟨s,u,t,hu,hsteps,?_,hclean⟩
  rw [hclean.once 0 1 (.dispatch .quit) u t hactive rfl hu hsteps,hnone]
  rfl

/-- While the start of a run is under way the controller is idle, and a `Quit` is answered at once. -/
theorem quit_leaves_start : ¬∀ s, ReachableWith (step {}) Unambiguous Init s → QuitsClean {} Unambiguous s := by
  intro h
  have hclean := h startingLoop (startingLoop_reachable.mono fun _ _ => And.left)
  have hunstarted := (hclean.clean (.begin 1 (.dispatch .quit)) _ 1 [.quitRequested false] false trivial rfl rfl nofun
    (by simp)).2.2
  exact hunstarted 0 "run" "command" rfl

end ChatLoop
end Chat
end HarnessSdk
