import HarnessSdk.ChatReturns
import HarnessSdk.FlatSession

/-!
# Messages in the flat mode

A line that is no command is handed to the controller, or it is put aside while a run is active. No message is lost as long
as none is taken in the wait between two polls.
-/

namespace HarnessSdk
namespace Chat

open Transition

/-- A line that is not blank and no command. -/
def isMessage (line : String) : Bool :=
  let text := rstripLine line
  !Text.isBlank text && !Text.startsWith text "/" && decide (text ≠ "?")

theorem isMessage_iff {line : String} : isMessage line ↔ Text.isBlank (rstripLine line) = false ∧
    Text.startsWith (rstripLine line) "/" = false ∧ rstripLine line ≠ "?" := by
  simp [isMessage,and_assoc]

theorem isMessage_empty : isMessage "" = false := by with_unfolding_all decide

theorem isMessage_command {line : String} (h : Text.startsWith (rstripLine line) "/") : isMessage line = false := by
  simp [isMessage,h]

/-- A call that does not wait to submit a text. -/
def Call.Unsubmitting (call : Call) : Prop := ∀ waiting, call ≠ .at (.locking (.submit waiting))

/-- What the snapshots tell of a run that is over is an outcome. -/
theorem reconcile_isOutcome {start : CommandSnapshot} {cancel : Option CommandSnapshot} {e : ChatEvent}
    (h : reconcile start cancel = some e) : e.isOutcome := by
  unfold reconcile at h
  simp only at h
  repeat' split at h
  all_goals first
    | obtain rfl := Option.some.inj h; rfl
    | exact nomatch h

namespace ChatLoop

variable {cfg : ChatConfig} {n : ℕ} {s s' : ChatLoop} {text : String}

/-! The call that dispatches a message. -/

/-- A message waits for the lock with its whole text. -/
theorem dispatchText_message (hblank : Text.isBlank text = false) (hcommand : Text.startsWith text "/" = false)
    (hhelp : text ≠ "?") : dispatchText text s = .park (.locking (.submit text)) s := by
  simp [dispatchText,hblank,hcommand,hhelp,dispatch,submit]

theorem leads_unsubmitting {action : ChatAction} (h : ∀ text, action ≠ .submit text) :
    Leads Call.Unsubmitting (dispatch action) s := by
  cases action with
  | submit text => exact absurd rfl (h text)
  | cancel => exact leads_suspend nofun
  | quit =>
    exact leads_get (Leads.ite (fun _ => leads_pure nofun) fun _ => leads_modify (leads_suspend nofun))
  | clear | help => exact leads_pure nofun
  | status => exact leads_get (leads_pure nofun)
  | setSession name => exact leads_get (leads_modify (leads_pure nofun))
  | newSession => exact leads_get (Leads.ite (fun _ => leads_pure nofun) fun _ => leads_modify (leads_pure nofun))

/-- Only a message comes to wait for the lock to be submitted. -/
theorem dispatchText_submits {waiting : String} (h : callOf (dispatchText text s) = .at (.locking (.submit waiting))) :
    Text.isBlank text = false ∧ Text.startsWith text "/" = false ∧ text ≠ "?" := by
  by_contra hother
  have hleads : Leads Call.Unsubmitting (dispatchText text) s := by
    refine Leads.ite (fun _ => leads_pure nofun) fun hblank => Leads.ite (fun _ => leads_unsubmitting nofun) fun hhelp =>
      Leads.ite (fun hcommand => ?_) fun _ => ?_
    · exact absurd ⟨by simpa using hblank,by simpa using hcommand,hhelp⟩ hother
    · split
      · exact leads_unsubmitting nofun
      · exact leads_unsubmitting nofun
      · exact leads_unsubmitting nofun
      · exact leads_unsubmitting nofun
      · exact leads_unsubmitting nofun
      · exact leads_unsubmitting nofun
      · exact leads_get (leads_pure nofun)
      · exact leads_unsubmitting nofun
      · exact leads_pure nofun
  exact hleads waiting h

theorem leads_cancelPendingUnsubmitting {runId startId : String} {cancelId : Option String} :
    Leads Call.Unsubmitting (cancelPending runId startId cancelId) s := by
  cases cancelId with
  | none => exact leads_raise nofun
  | some cancelId => exact leads_pure nofun

theorem leads_lockedUnsubmitting {ids : FactoryIds} {next : LockNext} :
    Leads Call.Unsubmitting (locked cfg n ids next) s := by
  cases next with
  | submit text =>
    refine leads_get (Leads.ite (fun _ => leads_pure nofun) fun _ => ?_)
    split
    · exact leads_raise nofun
    · exact leads_modify (leads_suspend nofun)
  | cancel =>
    apply leads_get
    split
    · exact leads_pure nofun
    · refine leads_modify (leads_bind (fun _ => nofun) ?_ fun _ u _ => ?_)
      · intro _ _ hpark
        exact absurd hpark createCancelTask_parks
      refine leads_get (Leads.ite (fun _ => leads_cancelPendingUnsubmitting) fun _ => ?_)
      split
      · exact leads_raise nofun
      · exact leads_suspend nofun
  | expired => exact leads_modify leads_cancelPendingUnsubmitting
  | accepted => exact leads_modify (leads_pure nofun)

/-- A call that submits a text: it waits for the lock or for the client, or the run has been accepted, or it has raised. -/
inductive Submits (s : ChatLoop) (n : ℕ) (text : String) : Prop
  | waits (h : s.calls n = some (.at (.locking (.submit text))))
  | starts (runId commandId : String) (h : s.calls n = some (.at (.starting runId commandId))) (request : StartRequest)
      (hstarted : .started n request ∈ s.log) (hmessage : request.message = text)
  | accepted (runId commandId : String)
      (h : s.calls n = some (.returned [.accepted runId commandId,.pending runId commandId none])) (request : StartRequest) (hstarted : .started n request ∈ s.log) (hmessage : request.message = text)
  | raised (e : ChatExn) (h : s.calls n = some (.raised e))

theorem Submits.known (h : Submits s n text) : s.calls n ≠ none := by
  intro hnone
  cases h with
  | waits h | starts _ _ h | accepted _ _ h | raised _ h => exact nomatch h.symm.trans hnone

theorem Submits.keep (h : Submits s n text) (hcall : s'.calls n = s.calls n) (hlog : ∀ t ∈ s.log, t ∈ s'.log) :
    Submits s' n text := by
  cases h with
  | waits h => exact .waits (hcall.trans h)
  | starts runId commandId h request hstarted hmessage =>
    exact .starts runId commandId (hcall.trans h) request (hlog _ hstarted) hmessage
  | accepted runId commandId h request hstarted hmessage =>
    exact .accepted runId commandId (hcall.trans h) request (hlog _ hstarted) hmessage
  | raised e h => exact .raised e (hcall.trans h)

theorem make_message {session runId commandId : String} {request : StartRequest}
    (h : StartRequest.make session runId commandId text = some request) : request.message = text := by
  unfold StartRequest.make at h
  split at h
  · obtain rfl := Option.some.inj h
    rfl
  · exact nomatch h

/-- A submission that has the lock, while no run is active, calls the client or raises. -/
theorem submits_locked {ids : FactoryIds} (hfree : s.controller.runId = none) :
    Submits (settleCall n (submitLocked n ids text) s) n text := by
  cases hmake : StartRequest.make s.controller.session ids.run ids.command text with
  | none =>
    have heq : submitLocked n ids text s = .raise .value s := by simp [submitLocked,hfree,hmake]
    refine .raised .value ?_
    rw [settleCall_eq,heq,conclude_calls,if_pos rfl]
    rfl
  | some request =>
    have heq : submitLocked n ids text s =
        .park (.starting ids.run ids.command) { s.observe (.started n request) with lock := some n } := by
      simp [submitLocked,hfree,hmake]
    refine .starts ids.run ids.command ?_ request ?_ (make_message hmake)
    · rw [settleCall_eq,heq,conclude_calls,if_pos rfl]
      rfl
    · rw [settleCall_eq,heq]
      exact mem_conclude_of _ _ (.head _)

/-- A submission goes on: with the lock and no run active it is never refused. -/
theorem Submits.step {a : LoopAction} (h : Submits s n text) (hstep : step cfg s a = some s')
    (hfree : s.calls n = some (.at (.locking (.submit text))) → s.controller.runId = none) : Submits s' n text := by
  have hlog : ∀ t ∈ s.log, t ∈ s'.log := fun _ => log_step hstep
  cases call_cases hstep with
  | begins k request hnone hcalls =>
    have hne : n ≠ k := by
      rintro rfl
      exact h.known hnone
    exact h.keep (by rw [hcalls,if_neg hne]) hlog
  | stays hcalls => exact h.keep (by rw [hcalls]) hlog
  | resumes k signal point m hpoint hm hcalls =>
    by_cases hne : n = k
    · subst hne
      have hself : s'.calls n = some (callOf (m s)) := by rw [hcalls,if_pos rfl]
      cases h with
      | waits hcall =>
        obtain rfl := Call.at.inj (Option.some.inj (hcall.symm.trans hpoint))
        cases signal with
        | acquired ids =>
          simp only [ChatLoop.step,hpoint,hm,Option.map_some,Option.some.injEq] at hstep
          simp only [resumeCall,Option.ite_none_right_eq_some] at hm
          obtain rfl := Option.some.inj hm.2
          rw [← hstep]
          exact submits_locked (hfree hcall)
        | cancelled =>
          obtain rfl := Option.some.inj hm
          exact .raised .cancelled hself
        | ready | snapshots | timeout | raised => cases hm
      | starts runId commandId hcall request hstarted hmessage =>
        obtain rfl := Call.at.inj (Option.some.inj (hcall.symm.trans hpoint))
        cases signal with
        | ready =>
          simp only [resumeCall,Option.ite_none_right_eq_some] at hm
          obtain rfl := Option.some.inj hm.2
          exact .accepted runId commandId hself request (hlog _ hstarted) hmessage
        | raised =>
          obtain rfl := Option.some.inj hm
          exact .raised .client hself
        | cancelled =>
          obtain rfl := Option.some.inj hm
          exact .raised .cancelled hself
        | acquired | snapshots | timeout => cases hm
      | accepted _ _ hcall | raised _ hcall => cases hcall.symm.trans hpoint
    · exact h.keep (by rw [hcalls,if_neg hne]) hlog

/-- A call that goes on does not come back to the wait for the lock with a text. -/
theorem resume_unsubmitting {point : Point} {signal : Signal} {m : Prog (List ChatEvent)}
    (h : resumeCall cfg s n point signal = some m) : Leads Call.Unsubmitting m s := by
  by_cases hobserving : point.isObserving
  · rcases leads_observation h hobserving with hleads | ⟨_,_,_,events,_,_,hreturned⟩
    · intro waiting hcall
      rw [Leads,hcall] at hleads
      cases hleads
    · intro waiting hcall
      cases hreturned.symm.trans hcall
  · cases signal with
    | acquired ids =>
      cases point with
      | locking next =>
        simp only [resumeCall,Option.ite_none_right_eq_some] at h
        obtain rfl := Option.some.inj h.2
        exact leads_lockedUnsubmitting
      | starting | cancelling | reading | sleeping => cases h
    | ready =>
      cases point with
      | starting runId commandId =>
        simp only [resumeCall,Option.ite_none_right_eq_some] at h
        obtain rfl := Option.some.inj h.2
        exact leads_modify (leads_pure fun _ h => by cases h)
      | cancelling task runId startId cancelId =>
        obtain ⟨result,_,rfl⟩ := Option.map_eq_some_iff.mp h
        cases result with
        | done | timeout => exact leads_suspend fun _ h => by cases h
        | raised | cancelled => exact leads_raise fun _ h => by cases h
      | locking => cases h
      | reading | sleeping => exact absurd rfl hobserving
    | timeout =>
      cases point with
      | cancelling task runId startId cancelId =>
        obtain rfl := Option.some.inj h
        exact leads_suspend fun _ h => by cases h
      | locking | starting => cases h
      | reading | sleeping => exact absurd rfl hobserving
    | raised =>
      cases point with
      | starting runId commandId =>
        obtain rfl := Option.some.inj h
        exact leads_modify (leads_raise fun _ h => by cases h)
      | locking | cancelling => cases h
      | reading | sleeping => exact absurd rfl hobserving
    | snapshots =>
      cases point with
      | locking | starting | cancelling => cases h
      | reading | sleeping => exact absurd rfl hobserving
    | cancelled =>
      cases point with
      | starting runId commandId =>
        obtain rfl := Option.some.inj h
        exact leads_modify (leads_raise fun _ h => by cases h)
      | locking | cancelling =>
        obtain rfl := Option.some.inj h
        exact leads_raise fun _ h => by cases h
      | reading | sleeping => exact absurd rfl hobserving

/-- A call that is cancelled raises. -/
theorem resume_cancelled {point : Point} {m : Prog (List ChatEvent)} (h : resumeCall cfg s n point .cancelled = some m) :
    callOf (m s) = .raised .cancelled := by
  cases point <;> obtain rfl := Option.some.inj h <;> rfl

/-! The active run. -/

/-- Without a start that goes on, no run becomes active. -/
theorem free_step {a : LoopAction} (hstep : step cfg s a = some s') (hfree : s.active = none)
    (hstarting : ∀ k runId commandId, s.calls k ≠ some (.at (.starting runId commandId))) : s'.active = none := by
  cases quit_cases hstep with
  | plain hplain => rw [hplain.active,hfree]
  | idle | noted => exact hfree
  | recorded k runId commandId hcall => exact absurd hcall (hstarting k runId commandId)
  | settled => rfl

/-- A run stays active, unless an observation settles it and returns so. -/
theorem active_settled {a : LoopAction} (hstep : step cfg s a = some s') (hactive : s.active ≠ none) :
    s'.active ≠ none ∨ ∃ k point events, s.calls k = some (.at point) ∧ s'.calls k = some (.returned events) ∧ Settled events := by
  cases quit_cases hstep with
  | plain hplain =>
    left
    rw [hplain.active]
    exact hactive
  | idle | noted => exact .inl hactive
  | recorded => exact .inl nofun
  | settled k read runId startId cancelId polling start cancel terminal hcall hreconcile =>
    have houtcome := reconcile_isOutcome hreconcile
    refine .inr ⟨k,_,_,hcall,by rw [conclude_calls,if_pos rfl],?_⟩
    split
    · exact ⟨terminal,_,rfl,houtcome⟩
    · exact ⟨terminal,_,rfl,houtcome⟩

/-- Without a call that begins, only the calls that are suspended change. -/
theorem calls_step {a : LoopAction} (hstep : step cfg s a = some s') (hbegin : ∀ k request, a ≠ .begin k request)
    {k : ℕ} (hidle : ∀ point, s.calls k ≠ some (.at point)) : s'.calls k = s.calls k := by
  cases call_cases hstep with
  | begins n request => exact absurd rfl (hbegin n request)
  | resumes n signal point m hpoint hm hcalls =>
    have hne : k ≠ n := by
      rintro rfl
      exact hidle point hpoint
    rw [hcalls,if_neg hne]
  | stays hcalls => rw [hcalls]

end ChatLoop

namespace FlatChatUI

open ChatLoop (settleCall beginCall callOf Leads Owned Submits)

variable {cfg : ChatConfig} {u u' : FlatChatUI} {n : ℕ} {line : String} {lines held : List String}
  {events : List ChatEvent} {request : Request}

/-! The condition on the steps. -/

/-- No message is taken in the wait between two polls. -/
def Undisturbed (u : FlatChatUI) : Action → Prop
  | .takeWaiting => ∀ line ∈ u.lines.head?, isMessage line = false
  | _ => True

/-! Invariants. -/

/-- The messages that have arrived are those that have been handed to the controller, and behind them those of the lines
that are held, in this order. -/
def Ordered (u : FlatChatUI) (held : List String) : Prop :=
  u.arrived.filter isMessage = (u.handed.map HandedLine.line ++ held).filter isMessage

/-- No call is under way. -/
def Rests (u : FlatChatUI) : Prop := ∀ n point, u.loop.calls n ≠ some (.at point)

/-- The calls of the session. A message has been handed to the controller with no run active, and is submitted. -/
structure Core (cfg : ChatConfig) (u : FlatChatUI) : Prop where
  loop : Reachable (ChatLoop.step cfg) ChatLoop.Init u.loop
  fresh : ∀ n, u.nextCall ≤ n → u.loop.calls n = none
  handed : ∀ h ∈ u.handed, isMessage h.line → h.active = false ∧ Submits u.loop h.call (rstripLine h.line)
  nonempty : "" ∉ u.buffered

/-- What holds at the point of the session. -/
def Placed (u : FlatChatUI) : Prop :=
  match u.point with
  | .reading => u.loop.active = none ∧ u.buffered = []
  | .handling n => ∀ text, u.loop.calls n = some (.at (.locking (.submit text))) → u.loop.active = none
  | .observing n => (∀ point, u.loop.calls n = some (.at point) → point.isObserving) ∧
      (u.loop.active ≠ none ∨ ∃ events, u.loop.calls n = some (.returned events) ∧ Settled events)
  | .waiting _ => u.loop.active ≠ none
  | .ended _ => True

structure Sound (cfg : ChatConfig) (u : FlatChatUI) : Prop where
  core : u.Core cfg
  ordered : u.Ordered (u.buffered ++ u.lines)
  alone : ∀ n point, u.loop.calls n = some (.at point) → u.point = .handling n ∨ u.point = .observing n
  placed : u.Placed

theorem Core.owned (h : u.Core cfg) : Owned u.loop := ChatLoop.reachable_owned h.loop

theorem state_idle_iff : u.loop.controller.state = .idle ↔ u.loop.controller.runId = none := by
  unfold ChatController.state
  split
  · simp_all
  · split <;> simp_all

/-- The session has no run exactly if none is active. -/
theorem Core.idle_iff (h : u.Core cfg) : u.loop.controller.runId = none ↔ u.loop.active = none :=
  ⟨h.owned.free,h.owned.idle⟩

theorem Ordered.skip (h : u.Ordered (line :: held)) (hline : isMessage line = false) : u.Ordered held := by
  rw [Ordered,h]
  simp [List.filter_append,hline]

/-! What the session begins. -/

theorem await_step (h : u.Core cfg) :
    ChatLoop.step cfg u.loop (.begin u.nextCall request) = some (u.await request).loop := if_pos (h.fresh _ (Nat.le_refl _))

theorem await_calls (k : ℕ) : (u.await request).loop.calls k =
    if k = u.nextCall then some (callOf (beginCall request u.loop)) else u.loop.calls k := ChatLoop.calls_begin request k

theorem await_self : (u.await request).loop.calls u.nextCall = some (callOf (beginCall request u.loop)) := by
  rw [await_calls,if_pos rfl]

theorem core_await (h : u.Core cfg) (hrests : u.Rests) : (u.await request).Core cfg := by
  have hstep : ChatLoop.step cfg u.loop (.begin u.nextCall request) = some (u.await request).loop := await_step h
  refine ⟨h.loop.tail trivial hstep,fun n hn => ?_,fun l hl hmessage => ?_,h.nonempty⟩
  · have hlt : u.nextCall < n := hn
    rw [await_calls,if_neg (Nat.ne_of_gt hlt)]
    exact h.fresh n (Nat.le_of_lt hlt)
  · obtain ⟨hidle,hsubmits⟩ := h.handed l hl hmessage
    exact ⟨hidle,hsubmits.step hstep fun hlocking => absurd hlocking (hrests _ _)⟩

/-- The call that the session awaits is the only one that is under way. -/
theorem await_alone (hrests : u.Rests) {point : Point} (h : (u.await request).loop.calls n = some (.at point)) :
    n = u.nextCall := by
  by_contra hne
  rw [await_calls,if_neg hne] at h
  exact hrests n point h

theorem await_free (h : u.Core cfg) (hrests : u.Rests) (hfree : u.loop.active = none) :
    (u.await request).loop.active = none := by
  refine ChatLoop.free_step (await_step h) hfree fun k runId commandId => ?_
  exact hrests k _

/-- A line is handed to the controller; a message only with no run active. -/
theorem sound_handleFlatText (h : u.Core cfg) (hrests : u.Rests) (hfree : isMessage line → u.loop.active = none)
    (hordered : u.Ordered (line :: (u.buffered ++ u.lines))) : (u.handleFlatText line).Sound cfg := by
  have hcore : (u.await (.dispatchText (rstripLine line))).Core cfg := core_await h hrests
  have hhanded : ∀ l ∈ (u.handleFlatText line).handed, isMessage l.line →
      l.active = false ∧ Submits (u.await (.dispatchText (rstripLine line))).loop l.call (rstripLine l.line) := by
    intro l hl hmessage
    rcases List.mem_append.mp hl with hl | hl
    · exact hcore.handed l hl hmessage
    · obtain rfl := List.mem_singleton.mp hl
      obtain ⟨hblank,hcommand,hhelp⟩ := isMessage_iff.mp hmessage
      have hstate : u.loop.controller.state = .idle := state_idle_iff.mpr (h.idle_iff.mpr (hfree hmessage))
      have hpark := ChatLoop.dispatchText_message (s := u.loop) hblank hcommand hhelp
      have hcall : callOf (beginCall (.dispatchText (rstripLine line)) u.loop) = .at (.locking (.submit (rstripLine line))) :=
        congrArg callOf hpark
      refine ⟨by simp [hstate],.waits ?_⟩
      rw [await_self,hcall]
  refine ⟨⟨hcore.loop,hcore.fresh,hhanded,hcore.nonempty⟩,?_,fun n point hpoint => ?_,fun text htext => ?_⟩
  · show u.arrived.filter isMessage = _
    rw [hordered]
    simp [handleFlatText,await]
  · exact .inl (congrArg FlatPoint.handling (await_alone hrests hpoint).symm)
  · have hcall := Option.some.inj (await_self.symm.trans htext)
    have hmessage : isMessage line := isMessage_iff.mpr (ChatLoop.dispatchText_submits hcall)
    exact await_free h hrests (hfree hmessage)

theorem sound_dispatchQuit (h : u.Core cfg) (hrests : u.Rests) (hordered : u.Ordered (u.buffered ++ u.lines)) :
    u.dispatchQuit.Sound cfg := by
  have hcore : (u.await (.dispatch .quit)).Core cfg := core_await h hrests
  refine ⟨⟨hcore.loop,hcore.fresh,hcore.handed,hcore.nonempty⟩,hordered,fun n point hpoint => ?_,fun text htext => ?_⟩
  · exact .inl (congrArg FlatPoint.handling (await_alone hrests hpoint).symm)
  · have hleads : Leads Call.Unsubmitting (ChatLoop.dispatch .quit) u.loop := ChatLoop.leads_unsubmitting nofun
    exact absurd (Option.some.inj (await_self.symm.trans htext)) (hleads text)

theorem sound_observeOnce (h : u.Core cfg) (hrests : u.Rests) (hactive : u.loop.active ≠ none)
    (hordered : u.Ordered (u.buffered ++ u.lines)) : u.observeOnce.Sound cfg := by
  have hcore : (u.await .observeOnce).Core cfg := core_await h hrests
  refine ⟨⟨hcore.loop,hcore.fresh,hcore.handed,hcore.nonempty⟩,hordered,fun n point hpoint => ?_,
    fun point hpoint => ?_,.inl ?_⟩
  · exact .inr (congrArg FlatPoint.observing (await_alone hrests hpoint).symm)
  · have hleads : Leads Call.Observing (ChatLoop.observeOnce none) u.loop := ChatLoop.leads_observeOnce
    have hcall := Option.some.inj (await_self.symm.trans hpoint)
    rw [Leads,show callOf (ChatLoop.observeOnce none u.loop) = .at point from hcall] at hleads
    exact hleads
  · have hstep : ChatLoop.step cfg u.loop (.begin u.nextCall .observeOnce) = some (u.await .observeOnce).loop := await_step h
    rcases ChatLoop.active_settled hstep hactive with hafter | ⟨k,point,_,hpoint,_⟩
    · exact hafter
    · exact absurd hpoint (hrests k point)

/-- The lines are put aside up to the first one that is not. -/
theorem sound_activeTurn (h : u.Core cfg) (hrests : u.Rests) (hactive : u.loop.active ≠ none)
    (hordered : u.Ordered (u.buffered ++ lines)) : (u.activeTurn lines).Sound cfg := by
  induction lines generalizing u with
  | nil => exact sound_observeOnce ⟨h.loop,h.fresh,h.handed,h.nonempty⟩ hrests hactive hordered
  | cons line lines ih =>
    have hskip : isMessage line = false → u.Ordered (u.buffered ++ lines) := by
      intro hline
      rw [Ordered,hordered]
      simp [List.filter_append,hline]
    unfold activeTurn
    split
    · rename_i hempty
      have hline : isMessage line = false := hempty ▸ isMessage_empty
      exact sound_dispatchQuit ⟨h.loop,h.fresh,h.handed,h.nonempty⟩ hrests (hskip hline)
    · rename_i hempty
      split
      · rename_i hcommand
        have hline := isMessage_command hcommand
        refine sound_handleFlatText (u := { u with lines }) ⟨h.loop,h.fresh,h.handed,h.nonempty⟩ hrests ?_ ?_
        · intro hmessage
          rw [hline] at hmessage
          exact nomatch hmessage
        · show u.arrived.filter isMessage = _
          rw [hskip hline]
          simp [List.filter_append,hline]
      · refine ih (u := { u with buffered := u.buffered ++ [line] }) ⟨h.loop,h.fresh,h.handed,?_⟩ hrests hactive ?_
        · simp only [List.mem_append,List.mem_singleton,not_or]
          exact ⟨h.nonempty,fun heq => hempty heq.symm⟩
        · show u.arrived.filter isMessage = _
          rw [hordered]
          simp

theorem sound_takeLine (h : u.Core cfg) (hrests : u.Rests) (hfree : u.loop.active = none)
    (hordered : u.Ordered (line :: (u.buffered ++ u.lines))) : (u.takeLine line).Sound cfg := by
  unfold takeLine
  split
  · rename_i hempty
    have hskip := hordered.skip (hempty ▸ isMessage_empty)
    exact ⟨⟨h.loop,h.fresh,h.handed,h.nonempty⟩,hskip,fun n point hpoint => absurd hpoint (hrests n point),trivial⟩
  · exact sound_handleFlatText h hrests (fun _ => hfree) hordered

theorem sound_turn (h : u.Core cfg) (hrests : u.Rests) (hordered : u.Ordered (u.buffered ++ u.lines)) :
    u.turn.Sound cfg := by
  have halone : ∀ (p : FlatPoint) n point, u.loop.calls n = some (.at point) → p = .handling n ∨ p = .observing n :=
    fun p n point hpoint => absurd hpoint (hrests n point)
  unfold turn
  split
  · exact ⟨⟨h.loop,h.fresh,h.handed,h.nonempty⟩,hordered,halone _,trivial⟩
  · split
    · rename_i hidle
      have hfree : u.loop.active = none := h.idle_iff.mp (state_idle_iff.mp hidle)
      split
      · rename_i line buffered heq
        have hnonempty := h.nonempty
        rw [heq] at hnonempty hordered
        have hcore : { u with buffered }.Core cfg :=
          ⟨h.loop,h.fresh,h.handed,fun hmem => hnonempty (List.mem_cons_of_mem _ hmem)⟩
        exact sound_takeLine hcore hrests hfree hordered
      · rename_i heq
        exact ⟨⟨h.loop,h.fresh,h.handed,h.nonempty⟩,hordered,halone _,hfree,heq⟩
    · rename_i hstate
      refine sound_activeTurn h hrests (fun hnone => hstate ?_) hordered
      exact state_idle_iff.mpr (h.idle_iff.mpr hnone)

/-! What the session awaits. -/

/-- The events change the exit code and what has been written, and may end the session. -/
theorem emitFlatEvents_eq (u : FlatChatUI) (events : List ChatEvent) : ∃ quit exitCode written,
    u.emitFlatEvents events = { u with quit, exitCode, written } := by
  induction events generalizing u with
  | nil => exact ⟨u.quit,u.exitCode,u.written,rfl⟩
  | cons e events ih =>
    obtain ⟨quit,exitCode,written,heq⟩ := ih (u.emitFlatEvent e)
    refine ⟨quit,exitCode,written,?_⟩
    unfold emitFlatEvents at heq ⊢
    rw [List.foldl_cons,heq]
    cases e <;> rfl

/-- When the call that the session awaits is over, no call is under way. -/
theorem Sound.rests (h : u.Sound cfg) (hpoint : u.point = .handling n ∨ u.point = .observing n)
    (hover : ∀ point, u.loop.calls n ≠ some (.at point)) : u.Rests := by
  intro k point hk
  have hsame : k = n := by
    rcases h.alone k point hk with heq | heq <;> rcases hpoint with hpoint | hpoint <;>
      simpa using heq.symm.trans hpoint
  exact hover point (hsame ▸ hk)

/-- A session that awaits nothing has no call under way. -/
theorem Sound.rests_of (h : u.Sound cfg) (hhandling : ∀ n, u.point ≠ .handling n)
    (hobserving : ∀ n, u.point ≠ .observing n) : u.Rests := by
  intro n point hpoint
  rcases h.alone n point hpoint with heq | heq
  · exact hhandling n heq
  · exact hobserving n heq

theorem sound_ended (h : u.Sound cfg) (hrests : u.Rests) (raised : Bool) : { u with point := .ended raised }.Sound cfg :=
  ⟨⟨h.core.loop,h.core.fresh,h.core.handed,h.core.nonempty⟩,h.ordered,
    fun n point hpoint => absurd hpoint (hrests n point),trivial⟩

theorem sound_resumed (h : u.Sound cfg) (hresumed : u.resumed = some u') : u'.Sound cfg := by
  have hplaced := h.placed
  unfold resumed at hresumed
  split at hresumed
  · rename_i n hpoint
    split at hresumed
    · rename_i events hcall
      obtain rfl := Option.some.inj hresumed
      have hrests := h.rests (.inl hpoint) fun point => by rw [hcall]; exact nofun
      obtain ⟨quit,exitCode,written,heq⟩ := emitFlatEvents_eq u events
      rw [heq]
      exact sound_turn ⟨h.core.loop,h.core.fresh,h.core.handed,h.core.nonempty⟩ hrests h.ordered
    · rename_i e hcall
      obtain rfl := Option.some.inj hresumed
      exact sound_ended h (h.rests (.inl hpoint) fun point => by rw [hcall]; exact nofun) true
    · exact nomatch hresumed
  · rename_i n hpoint
    rw [Placed,hpoint] at hplaced
    split at hresumed
    · rename_i events hcall
      have hrests := h.rests (.inr hpoint) fun point => by rw [hcall]; exact nofun
      obtain ⟨quit,exitCode,written,heq⟩ := emitFlatEvents_eq u events
      simp only [heq] at hresumed
      split at hresumed
      · -- a run that is pending is active
        rename_i runId commandId cancelId hpending
        obtain rfl := Option.some.inj hresumed
        have hactive : u.loop.active ≠ none := by
          rcases hplaced.2 with hactive | ⟨events',hcall',e,rest,rfl,houtcome⟩
          · exact hactive
          · obtain rfl := Call.returned.inj (Option.some.inj (hcall'.symm.trans hcall))
            obtain rfl := Option.some.inj hpending
            exact nomatch houtcome
        exact ⟨⟨h.core.loop,h.core.fresh,h.core.handed,h.core.nonempty⟩,h.ordered,
          fun n point hpoint => absurd hpoint (hrests n point),hactive⟩
      · obtain rfl := Option.some.inj hresumed
        exact sound_turn ⟨h.core.loop,h.core.fresh,h.core.handed,h.core.nonempty⟩ hrests h.ordered
    · rename_i e hcall
      obtain rfl := Option.some.inj hresumed
      exact sound_ended h (h.rests (.inr hpoint) fun point => by rw [hcall]; exact nofun) true
    · exact nomatch hresumed
  · exact nomatch hresumed

/-! A step of the controller. -/

/-- The call of a message that waits for the lock waits with no run active. -/
theorem Sound.locking (h : u.Sound cfg) {text : String} (hcall : u.loop.calls n = some (.at (.locking (.submit text)))) :
    u.loop.active = none := by
  have hplaced := h.placed
  rcases h.alone n _ hcall with hpoint | hpoint
  · rw [Placed,hpoint] at hplaced
    exact hplaced text hcall
  · rw [Placed,hpoint] at hplaced
    exact nomatch hplaced.1 _ hcall

theorem core_loop (h : u.Sound cfg) {a : LoopAction} {loop : ChatLoop} (hbegin : ∀ k request, a ≠ .begin k request)
    (hstep : ChatLoop.step cfg u.loop a = some loop) : { u with loop }.Core cfg := by
  refine ⟨h.core.loop.tail trivial hstep,fun n hn => ?_,fun l hl hmessage => ?_,h.core.nonempty⟩
  · have hfresh := h.core.fresh n hn
    have hsame := ChatLoop.calls_step hstep hbegin (k := n) fun point => by rw [hfresh]; exact nofun
    exact hsame.trans hfresh
  · obtain ⟨hidle,hsubmits⟩ := h.core.handed l hl hmessage
    exact ⟨hidle,hsubmits.step hstep fun hlocking => h.core.owned.idle (h.locking hlocking)⟩

theorem alone_loop (h : u.Sound cfg) {a : LoopAction} {loop : ChatLoop} (hbegin : ∀ k request, a ≠ .begin k request)
    (hstep : ChatLoop.step cfg u.loop a = some loop) {point : Point} (hpoint : loop.calls n = some (.at point)) :
    u.point = .handling n ∨ u.point = .observing n := by
  by_cases hbefore : ∃ before, u.loop.calls n = some (.at before)
  · obtain ⟨before,hbefore⟩ := hbefore
    exact h.alone n before hbefore
  · have hsame := ChatLoop.calls_step hstep hbegin (k := n) fun before hcall => hbefore ⟨before,hcall⟩
    exact absurd ⟨point,hsame.symm.trans hpoint⟩ hbefore

theorem placed_loop (h : u.Sound cfg) {a : LoopAction} {loop : ChatLoop} (hbegin : ∀ k request, a ≠ .begin k request)
    (hstep : ChatLoop.step cfg u.loop a = some loop) : { u with loop }.Placed := by
  have hplaced := h.placed
  unfold Placed at hplaced ⊢
  cases hpoint : u.point with
  | reading =>
    rw [hpoint] at hplaced
    refine ⟨ChatLoop.free_step hstep hplaced.1 fun k runId commandId hcall => ?_,hplaced.2⟩
    exact h.rests_of (by simp [hpoint]) (by simp [hpoint]) k _ hcall
  | handling n =>
    intro text htext
    -- a call that waits to submit a text has waited before
    have hbefore : u.loop.calls n = some (.at (.locking (.submit text))) := by
      cases ChatLoop.call_cases hstep with
      | begins k request => exact absurd rfl (hbegin k request)
      | resumes k signal point m hcall hm hcalls =>
        have htext' := htext
        rw [hcalls] at htext'
        split at htext'
        · exact absurd (Option.some.inj htext') (ChatLoop.resume_unsubmitting hm text)
        · exact htext'
      | stays hcalls => exact hcalls ▸ htext
    refine ChatLoop.free_step hstep (h.locking hbefore) fun k runId commandId hcall => ?_
    rcases h.alone k _ hcall with heq | heq
    · obtain rfl := FlatPoint.handling.inj (heq.symm.trans hpoint)
      cases hcall.symm.trans hbefore
    · cases heq.symm.trans hpoint
  | observing n =>
    rw [hpoint] at hplaced
    obtain ⟨hobserving,hactive⟩ := hplaced
    refine ⟨fun point hcall => ?_,?_⟩
    · cases ChatLoop.call_cases hstep with
      | begins k request => exact absurd rfl (hbegin k request)
      | resumes k signal point' m hcall' hm hcalls =>
        have hafter := hcall
        rw [hcalls] at hafter
        split at hafter
        · rename_i heq
          subst heq
          rcases ChatLoop.leads_observation hm (hobserving point' hcall') with hleads | ⟨_,_,_,_,_,_,hreturned⟩
          · rw [Leads,Option.some.inj hafter] at hleads
            exact hleads
          · cases hreturned.symm.trans (Option.some.inj hafter)
        · exact hobserving point hafter
      | stays hcalls => exact hobserving point (hcalls ▸ hcall)
    · rcases hactive with hactive | ⟨events,hcall,hsettled⟩
      · rcases ChatLoop.active_settled hstep hactive with hafter | ⟨k,point,events,hcall,hreturned,hsettled⟩
        · exact .inl hafter
        · rcases h.alone k point hcall with heq | heq
          · cases heq.symm.trans hpoint
          · obtain rfl := FlatPoint.observing.inj (heq.symm.trans hpoint)
            exact .inr ⟨events,hreturned,hsettled⟩
      · have hsame := ChatLoop.calls_step hstep hbegin (k := n) fun point => by rw [hcall]; simp
        exact .inr ⟨events,hsame.trans hcall,hsettled⟩
  | waiting deadline =>
    rw [hpoint] at hplaced
    rcases ChatLoop.active_settled hstep hplaced with hafter | ⟨k,point,_,hcall,_⟩
    · exact hafter
    · exact absurd hcall (h.rests_of (by simp [hpoint]) (by simp [hpoint]) k point)
  | ended => trivial

theorem sound_loop (h : u.Sound cfg) {a : LoopAction} {loop : ChatLoop} (hpermits : permits a)
    (hstep : ChatLoop.step cfg u.loop a = some loop) : { u with loop }.Sound cfg := by
  have hbegin : ∀ k request, a ≠ .begin k request := by
    rintro k request rfl
    exact nomatch hpermits
  exact ⟨core_loop h hbegin hstep,h.ordered,fun n point hpoint => alone_loop (u := u) h hbegin hstep hpoint,
    placed_loop h hbegin hstep⟩

theorem sound_abandon (h : u.Sound cfg) (habandon : u.abandon cfg = some u') : u'.Sound cfg := by
  have hcancel : ∀ n loop, u.point = .handling n ∨ u.point = .observing n →
      ChatLoop.step cfg u.loop (.resume n .cancelled) = some loop →
      ({ u with loop, point := .ended true } : FlatChatUI).Sound cfg := by
    intro n loop hpoint hstep
    have hbegin : ∀ k request, LoopAction.resume n .cancelled ≠ .begin k request := nofun
    have hcore := core_loop h hbegin hstep
    refine ⟨⟨hcore.loop,hcore.fresh,hcore.handed,hcore.nonempty⟩,h.ordered,fun k point hcall => ?_,trivial⟩
    have hbefore := alone_loop h hbegin hstep hcall
    have hsame : k = n := by
      rcases hbefore with heq | heq <;> rcases hpoint with hpoint | hpoint <;> simpa using heq.symm.trans hpoint
    subst hsame
    cases ChatLoop.call_cases hstep with
    | resumes _ _ point' m _ hm hcalls =>
      rw [hcalls,if_pos rfl,ChatLoop.resume_cancelled hm] at hcall
      exact nomatch hcall
    | stays _ hresume => exact absurd rfl (hresume _ _)
  unfold abandon at habandon
  split at habandon
  · rename_i hpoint
    obtain rfl := Option.some.inj habandon
    exact sound_ended h (h.rests_of (by simp [hpoint]) (by simp [hpoint])) true
  · rename_i deadline hpoint
    obtain rfl := Option.some.inj habandon
    exact sound_ended h (h.rests_of (by simp [hpoint]) (by simp [hpoint])) true
  · rename_i n hpoint
    obtain ⟨loop,hstep,rfl⟩ := Option.map_eq_some_iff.mp habandon
    exact hcancel n loop (.inl hpoint) hstep
  · rename_i n hpoint
    obtain ⟨loop,hstep,rfl⟩ := Option.map_eq_some_iff.mp habandon
    exact hcancel n loop (.inr hpoint) hstep
  · exact nomatch habandon

/-! Steps and runs. -/

theorem Core.of_eq (h : u.Core cfg) (hloop : u'.loop = u.loop) (hnext : u'.nextCall = u.nextCall)
    (hhanded : u'.handed = u.handed) (hbuffered : u'.buffered = u.buffered) : u'.Core cfg := by
  refine ⟨hloop ▸ h.loop,fun n hn => ?_,fun l hl hmessage => ?_,hbuffered ▸ h.nonempty⟩
  · rw [hloop]
    exact h.fresh n (hnext ▸ hn)
  · rw [hloop]
    exact h.handed l (hhanded ▸ hl) hmessage

/-- A line arrives. -/
theorem sound_read (h : u.Sound cfg) :
    { u with lines := u.lines ++ [line], eof := line = "", arrived := u.arrived ++ [line] }.Sound cfg := by
  refine ⟨h.core.of_eq rfl rfl rfl rfl,?_,h.alone,h.placed⟩
  show (u.arrived ++ [line]).filter isMessage = _
  rw [List.filter_append,h.ordered]
  simp [List.filter_append]

theorem sound_step (h : u.Sound cfg) {a : Action} (hundisturbed : u.Undisturbed a) (hstep : u.step cfg a = some u') :
    u'.Sound cfg := by
  have hplaced := h.placed
  have hordered := h.ordered
  cases a with
  | loop a =>
    simp only [step,Option.ite_none_right_eq_some] at hstep
    obtain ⟨hpermits,hstep⟩ := hstep
    obtain ⟨loop,hloop,rfl⟩ := Option.map_eq_some_iff.mp hstep
    exact sound_loop h hpermits hloop
  | read line =>
    simp only [step] at hstep
    split at hstep
    · exact nomatch hstep
    · simp only [Option.ite_none_left_eq_some] at hstep
      obtain rfl := Option.some.inj hstep.2
      exact sound_read h
  | take =>
    simp only [step] at hstep
    split at hstep
    · rename_i line lines hpoint hlines
      obtain rfl := Option.some.inj hstep
      rw [Placed,hpoint] at hplaced
      have hrests := h.rests_of (by simp [hpoint]) (by simp [hpoint])
      refine sound_takeLine (h.core.of_eq rfl rfl rfl rfl) hrests hplaced.1 ?_
      rw [hplaced.2,hlines] at hordered
      show u.Ordered (line :: (u.buffered ++ lines))
      rw [hplaced.2]
      exact hordered
    · exact nomatch hstep
  | resumed => exact sound_resumed h hstep
  | takeWaiting =>
    simp only [step] at hstep
    split at hstep
    · rename_i deadline line lines hpoint hlines
      obtain rfl := Option.some.inj hstep
      have hline : isMessage line = false := hundisturbed line (by simp [hlines])
      have hrests := h.rests_of (by simp [hpoint]) (by simp [hpoint])
      have hcore : { u with lines }.Core cfg := h.core.of_eq rfl rfl rfl rfl
      have hskip : u.Ordered (u.buffered ++ lines) := by
        rw [Ordered,hordered,hlines]
        simp [List.filter_append,hline]
      unfold answer
      split
      · exact sound_dispatchQuit hcore hrests hskip
      · refine sound_handleFlatText hcore hrests (fun hmessage => ?_) ?_
        · rw [hline] at hmessage
          exact nomatch hmessage
        · show u.arrived.filter isMessage = _
          rw [hskip]
          simp [List.filter_append,hline]
    · exact nomatch hstep
  | expired =>
    simp only [step] at hstep
    split at hstep
    · rename_i deadline hpoint
      simp only [Option.ite_none_right_eq_some] at hstep
      obtain rfl := Option.some.inj hstep.2
      exact sound_turn (h.core.of_eq rfl rfl rfl rfl) (h.rests_of (by simp [hpoint]) (by simp [hpoint])) hordered
    · exact nomatch hstep
  | abandon => exact sound_abandon h hstep

theorem init_sound (h : Init u) : u.Sound cfg := by
  obtain ⟨loop,hloop,rfl⟩ := h
  have hcalls : ∀ n, loop.calls n = none := by
    obtain ⟨session,_,rfl⟩ := hloop
    exact fun _ => rfl
  have hactive : loop.active = none := by
    obtain ⟨session,_,rfl⟩ := hloop
    rfl
  refine ⟨⟨.of_init hloop,fun n _ => hcalls n,nofun,nofun⟩,rfl,fun n point hpoint => ?_,hactive,rfl⟩
  exact nomatch (hcalls n).symm.trans hpoint

theorem reachable_sound (h : ReachableWith (step cfg) Undisturbed Init u) : u.Sound cfg :=
  h.invariant (fun _ => init_sound) fun _ _ _ hs ha hstep => sound_step hs ha hstep

/-! No message is lost. -/

/-- With no run active the session ends because it has to quit, or it hands over the first line that it has put aside, or
it waits for a line. -/
def HandsOver (u u' : FlatChatUI) : Prop :=
  (u'.quit ∧ u'.point = .ended false) ∨
    match u.buffered with
    | [] => u'.point = .reading
    | line :: buffered => u'.buffered = buffered ∧ u'.handed = u.handed ++ [{ line, call := u.nextCall, active := false }]

/-- No message is lost. Those that have arrived have been handed to the controller in this order, each with no run active, and
are submitted, or they are held: while a run is active, up to the end of the call that the session awaits, which is followed
by the next hand-over. -/
structure Kept (cfg : ChatConfig) (u : FlatChatUI) : Prop where
  order : u.arrived.filter isMessage = (u.handed.map HandedLine.line ++ (u.buffered ++ u.lines)).filter isMessage
  submitted : ∀ h ∈ u.handed, isMessage h.line → h.active = false ∧ Submits u.loop h.call (rstripLine h.line)
  held : u.point = .reading ∨ (∃ deadline, u.point = .waiting deadline) →
    u.buffered = [] ∨ u.loop.controller.runId ≠ none
  goes : ∀ n events, u.point = .handling n ∨ u.point = .observing n → u.loop.calls n = some (.returned events) →
    ∃ u', u.step cfg .resumed = some u' ∧ (u.loop.controller.runId = none → u.HandsOver u')

theorem turn_handsOver (hnonempty : "" ∉ u.buffered) (hidle : u.loop.controller.runId = none) : u.HandsOver u.turn := by
  unfold HandsOver turn
  split
  · exact .inl ⟨‹_›,rfl⟩
  · have hstate : u.loop.controller.state = .idle := state_idle_iff.mpr hidle
    right
    rw [if_pos hstate]
    cases hbuffered : u.buffered with
    | nil => rfl
    | cons line buffered =>
      have hline : line ≠ "" := by
        rintro rfl
        rw [hbuffered] at hnonempty
        exact hnonempty (.head _)
      simp only [takeLine,if_neg hline]
      refine ⟨rfl,?_⟩
      simp [handleFlatText,hstate]

/-- The events of a call do not matter to what is handed over next. -/
theorem emit_handsOver (hnonempty : "" ∉ u.buffered) (hidle : u.loop.controller.runId = none) (pollDelay : ℕ) :
    u.HandsOver { u.emitFlatEvents events with pollDelay }.turn := by
  obtain ⟨quit,exitCode,written,heq⟩ := emitFlatEvents_eq u events
  rw [heq]
  exact turn_handsOver (u := { u with quit, exitCode, written, pollDelay }) hnonempty hidle

theorem Sound.goes (h : u.Sound cfg) (hpoint : u.point = .handling n ∨ u.point = .observing n)
    (hcall : u.loop.calls n = some (.returned events)) :
    ∃ u', u.resumed = some u' ∧ (u.loop.controller.runId = none → u.HandsOver u') := by
  have hplaced := h.placed
  rcases hpoint with hpoint | hpoint
  · refine ⟨(u.emitFlatEvents events).turn,by rw [resumed,hpoint]; simp only [hcall],fun hidle => ?_⟩
    exact emit_handsOver h.core.nonempty hidle _
  · rw [Placed,hpoint] at hplaced
    rw [resumed,hpoint]
    simp only [hcall]
    split
    · rename_i runId commandId cancelId hpending
      refine ⟨_,rfl,fun hidle => ?_⟩
      rcases hplaced.2 with hactive | ⟨events',hcall',e,rest,rfl,houtcome⟩
      · exact absurd (h.core.idle_iff.mp hidle) hactive
      · obtain rfl := Call.returned.inj (Option.some.inj (hcall'.symm.trans hcall))
        obtain rfl := Option.some.inj hpending
        exact nomatch houtcome
    · exact ⟨_,rfl,fun hidle => emit_handsOver h.core.nonempty hidle 1⟩

theorem init_default : Init {} := ⟨{},ChatLoop.init_default,rfl⟩

/-- The first line is submitted, up to the answer of the client. -/
def submitting : List Action :=
  [.read "hello\n",.take,.loop (.resume 0 (.acquired { run := "run", command := "command" })),.loop (.accept 0)]

/-- The poll has found that the run goes on. -/
def pendingSnapshot : CommandSnapshot :=
  { completedSnapshot with outputState := .pending, outputText := none, runState := none, outcome := .pending, texts := rfl }

end FlatChatUI
end Chat
end HarnessSdk
