import HarnessSdk.ChatReturns
import HarnessSdk.TerminalSession

/-!
# Outcomes in the interactive mode

An observation that settles the run returns its outcome once, and nobody can fetch it again. The session shows it exactly
once if it never leaves its loop while an outcome waits to be shown.
-/

namespace HarnessSdk
namespace Chat

open Transition

namespace TerminalChatUI

open ChatLoop (settleCall beginCall callOf Leads Owned)

variable {cfg : ChatConfig} {u u' : TerminalChatUI} {n k : ℕ} {events : List ChatEvent}

/-- What has been shown of a call. -/
def shownOf (u : TerminalChatUI) (n : ℕ) : List (ℕ × List ChatEvent) := u.shown.filter fun e => e.1 = n

/-- An observation has settled the run, and the session has not taken what it has returned. -/
def HasOutcome (u : TerminalChatUI) : Prop :=
  ∃ n events, u.observe = some n ∧ u.loop.calls n = some (.returned events) ∧ Settled events

/-! The condition on the steps. -/

/-- The session does not leave its loop while an outcome waits to be shown, and no outcome comes while it has left it. -/
def Timely (u : TerminalChatUI) : Action → Prop
  | .wake _ => u.HasOutcome → u.prompt ≠ some (some .interrupt) ∧ u.prompt ≠ some (some .eof)
  | .resumed _ => u.HasOutcome → ∀ n e, u.point = .handling n → u.loop.calls n ≠ some (.raised e)
  | .abandon => ¬u.HasOutcome
  | .loop (.resume k (.snapshots start cancel)) => u.observe = some k → (∃ n, u.point = .interrupting n) →
      reconcile start (cancel.or u.loop.controller.cancelSnapshot) = none
  | _ => True

/-! Invariants. -/

/-- The observation that the session holds. While it is under way the run is active. -/
structure Held (u : TerminalChatUI) (n : ℕ) : Prop where
  made : n ∈ u.observations
  unshown : u.shownOf n = []
  observing : ∀ point, u.loop.calls n = some (.at point) → point.isObserving
  active : (∀ events, u.loop.calls n ≠ some (.returned events)) → (∀ e, u.loop.calls n ≠ some (.raised e)) →
    u.loop.active ≠ none

/-- An observation that the session no longer holds: it is over, or will never begin, and its outcome has been shown. -/
structure Gone (u : TerminalChatUI) (n : ℕ) : Prop where
  stopped : ∀ point, u.loop.calls n ≠ some (.at point)
  shown : ∀ events, u.loop.calls n = some (.returned events) → Settled events → u.shownOf n = [(n,events)]

/-- The calls of the session and what has been shown of them. -/
structure Core (cfg : ChatConfig) (u : TerminalChatUI) : Prop where
  loop : Reachable (ChatLoop.step cfg) ChatLoop.Init u.loop
  fresh : ∀ n, u.nextCall ≤ n → u.loop.calls n = none ∧ n ∉ u.observations ∧ u.shownOf n = []
  dispatch : ∀ n point, n ∉ u.observations → u.loop.calls n = some (.at point) → point.isObserving = false
  gone : ∀ n ∈ u.observations, u.observe ≠ some n → u.Gone n
  held : ∀ n, u.observe = some n → u.Held n

/-- What holds at the point of the session. -/
def Placed (u : TerminalChatUI) : Prop :=
  match u.point with
  | .waiting => u.quit = false
  | .showing n events => u.quit = false ∧ u.observe = some n ∧ u.loop.calls n = some (.returned events)
  | .handling n => u.quit = false ∧ n ∉ u.observations ∧ n < u.nextCall ∧
      ∀ events, u.loop.calls n = some (.returned events) → (∃ e ∈ events, e.quits) → u.observe = none
  | .interrupting n => n ∉ u.observations ∧ n < u.nextCall ∧ ¬u.HasOutcome
  | .closing _ | .ended _ => u.observe = none

structure Sound (cfg : ChatConfig) (u : TerminalChatUI) : Prop where
  core : u.Core cfg
  placed : u.Placed

/-! A step of the controller. -/

/-- Of the calls only an observation begins by itself. -/
def Lets (u : TerminalChatUI) (a : LoopAction) : Prop :=
  ∀ n request, a = .begin n request → u.observe = some n ∧ ∃ d i m, request = .observeUntil d i m

theorem lets_of_permits {a : LoopAction} (h : u.Permits a) : u.Lets a := by
  rintro n request rfl
  cases request with
  | observeUntil d i m => exact ⟨h.1,d,i,m,rfl⟩
  | dispatch | dispatchText | observeOnce => exact h.elim

theorem core_step {a : LoopAction} {loop : ChatLoop} (h : u.Core cfg) (hlets : u.Lets a)
    (hstep : ChatLoop.step cfg u.loop a = some loop) : { u with loop }.Core cfg := by
  have hreachable : Reachable (ChatLoop.step cfg) ChatLoop.Init loop := h.loop.tail trivial hstep
  cases ChatLoop.call_cases hstep with
  | begins n request hnone hcalls =>
    obtain ⟨hobserve,d,i,m,rfl⟩ := hlets n request rfl
    have hheld := h.held n hobserve
    have hother : ∀ k, k ≠ n → loop.calls k = u.loop.calls k := fun k hk => by rw [hcalls,if_neg hk]
    have hself : loop.calls n = some (callOf (beginCall (.observeUntil d i m) u.loop)) := by rw [hcalls,if_pos rfl]
    have hleads : Leads Call.Observing (beginCall (.observeUntil d i m)) u.loop := ChatLoop.leads_observeUntil
    have hactive : loop.active ≠ none := by
      have hbefore := hheld.active (fun events => by rw [hnone]; simp) fun e => by rw [hnone]; simp
      rcases ChatLoop.active_step hstep hbefore with hafter | ⟨_,_,_,_,_,_,_,_,heq,_⟩
      · exact hafter
      · cases heq
    refine ⟨hreachable,fun k hk => ?_,fun k point hk hpoint => ?_,fun k hk hnot => ?_,fun k hk => ?_⟩
    · have hfresh := h.fresh k hk
      have hne : k ≠ n := fun heq => hfresh.2.1 (heq ▸ hheld.made)
      exact ⟨(hother k hne).trans hfresh.1,hfresh.2⟩
    · have hne : k ≠ n := fun heq => hk (heq ▸ hheld.made)
      rw [hother k hne] at hpoint
      exact h.dispatch k point hk hpoint
    · have hne : k ≠ n := fun heq => hnot (heq ▸ hobserve)
      have hgone := h.gone k hk hnot
      refine ⟨fun point => ?_,fun events => ?_⟩
      · show loop.calls k ≠ _
        rw [hother k hne]
        exact hgone.stopped point
      · show loop.calls k = _ → _
        rw [hother k hne]
        exact hgone.shown events
    · obtain rfl : n = k := Option.some.inj (hobserve.symm.trans hk)
      refine ⟨hheld.made,hheld.unshown,fun point hpoint => ?_,fun _ _ => hactive⟩
      have heq := Option.some.inj (hself.symm.trans hpoint)
      rw [Leads,heq] at hleads
      exact hleads
  | resumes n signal point m hpoint hm hcalls =>
    have hother : ∀ k, k ≠ n → loop.calls k = u.loop.calls k := fun k hk => by rw [hcalls,if_neg hk]
    have hself : loop.calls n = some (callOf (m u.loop)) := by rw [hcalls,if_pos rfl]
    refine ⟨hreachable,fun k hk => ?_,fun k point' hk hpoint' => ?_,fun k hk hnot => ?_,fun k hk => ?_⟩
    · have hfresh := h.fresh k hk
      have hne : k ≠ n := by
        rintro rfl
        cases hpoint.symm.trans hfresh.1
      exact ⟨(hother k hne).trans hfresh.1,hfresh.2⟩
    · by_cases heq : k = n
      · subst heq
        have hleads := ChatLoop.leads_resume hm (h.dispatch k point hk hpoint)
        rw [Leads,Option.some.inj (hself.symm.trans hpoint')] at hleads
        exact hleads
      · rw [hother k heq] at hpoint'
        exact h.dispatch k point' hk hpoint'
    · have hgone := h.gone k hk hnot
      have hne : k ≠ n := fun heq => hgone.stopped point (heq ▸ hpoint)
      refine ⟨fun point => ?_,fun events => ?_⟩
      · show loop.calls k ≠ _
        rw [hother k hne]
        exact hgone.stopped point
      · show loop.calls k = _ → _
        rw [hother k hne]
        exact hgone.shown events
    · have hheld := h.held k hk
      refine ⟨hheld.made,hheld.unshown,fun point' hpoint' => ?_,fun hreturned hraised => ?_⟩
      · by_cases heq : k = n
        · subst heq
          rcases ChatLoop.leads_observation hm (hheld.observing point hpoint) with hleads | ⟨_,_,_,_,_,_,hreturned⟩
          · rw [Leads,Option.some.inj (hself.symm.trans hpoint')] at hleads
            exact hleads
          · rw [hreturned] at hself
            cases hself.symm.trans hpoint'
        · rw [hother k heq] at hpoint'
          exact hheld.observing point' hpoint'
      · have hbefore : u.loop.active ≠ none := by
          by_cases heq : k = n
          · subst heq
            apply hheld.active
            · intro events hevents
              cases hpoint.symm.trans hevents
            · intro e he
              cases hpoint.symm.trans he
          · rw [hother k heq] at hreturned hraised
            exact hheld.active hreturned hraised
        rcases ChatLoop.active_step hstep hbefore with hafter | ⟨j,_,_,_,_,_,_,events,heq,hreading,hj⟩
        · exact hafter
        · obtain ⟨rfl,_⟩ := LoopAction.resume.inj heq
          have hpart : n ∈ u.observations := by
            by_contra hnot
            cases h.dispatch n _ hnot hreading
          by_cases hnk : u.observe = some n
          · obtain rfl := Option.some.inj (hnk.symm.trans hk)
            exact absurd hj (hreturned events)
          · exact absurd hreading ((h.gone n hpart hnk).stopped _)
  | stays hcalls hresume =>
    refine ⟨hreachable,fun k hk => ?_,fun k point hk hpoint => ?_,fun k hk hnot => ?_,fun k hk => ?_⟩
    · have hfresh := h.fresh k hk
      rw [← hcalls] at hfresh
      exact hfresh
    · rw [hcalls] at hpoint
      exact h.dispatch k point hk hpoint
    · have hgone := h.gone k hk hnot
      refine ⟨fun point => ?_,fun events => ?_⟩
      · show loop.calls k ≠ _
        rw [hcalls]
        exact hgone.stopped point
      · show loop.calls k = _ → _
        rw [hcalls]
        exact hgone.shown events
    · have hheld := h.held k hk
      refine ⟨hheld.made,hheld.unshown,fun point hpoint => ?_,fun hreturned hraised => ?_⟩
      · rw [hcalls] at hpoint
        exact hheld.observing point hpoint
      · rw [hcalls] at hreturned hraised
        rcases ChatLoop.active_step hstep (hheld.active hreturned hraised) with hafter | ⟨_,_,_,_,_,_,_,_,heq,_⟩
        · exact hafter
        · exact absurd heq (hresume _ _)

/-! The steps of a session. -/

theorem Gone.of_eq (h : u.Gone n) (hloop : u'.loop = u.loop) (hshown : u'.shownOf n = u.shownOf n) : u'.Gone n := by
  refine ⟨fun point => ?_,fun events hcall hsettled => ?_⟩
  · rw [hloop]
    exact h.stopped point
  · rw [hloop] at hcall
    rw [hshown]
    exact h.shown events hcall hsettled

theorem Held.of_eq (h : u.Held n) (hloop : u'.loop = u.loop) (hshown : u'.shownOf n = u.shownOf n)
    (hmade : n ∈ u'.observations) : u'.Held n := by
  refine ⟨hmade,hshown.trans h.unshown,fun point hpoint => ?_,fun hreturned hraised => ?_⟩
  · rw [hloop] at hpoint
    exact h.observing point hpoint
  · rw [hloop] at hreturned hraised ⊢
    exact h.active hreturned hraised

/-- What is not about the calls does not matter. -/
theorem Core.of_eq (h : u.Core cfg) (hloop : u'.loop = u.loop) (hnext : u.nextCall ≤ u'.nextCall)
    (hmade : u'.observations = u.observations) (hobserve : u'.observe = u.observe) (hshown : u'.shown = u.shown) :
    u'.Core cfg := by
  have hshownOf : ∀ n, u'.shownOf n = u.shownOf n := fun n => by rw [shownOf,shownOf,hshown]
  refine ⟨hloop ▸ h.loop,fun n hn => ?_,fun n point hn hpoint => ?_,fun n hn hnot => ?_,fun n hn => ?_⟩
  · rw [hloop,hmade,hshownOf]
    exact h.fresh n (Nat.le_trans hnext hn)
  · rw [hmade] at hn
    rw [hloop] at hpoint
    exact h.dispatch n point hn hpoint
  · rw [hmade] at hn
    rw [hobserve] at hnot
    exact (h.gone n hn hnot).of_eq hloop (hshownOf n)
  · rw [hobserve] at hn
    have hheld := h.held n hn
    exact hheld.of_eq hloop (hshownOf n) (hmade ▸ hheld.made)

/-- The session lets an observation go that is over and has been shown. -/
theorem Core.release (h : u.Core cfg) (hgone : ∀ n, u.observe = some n → u.Gone n) : { u with observe := none }.Core cfg := by
  refine ⟨h.loop,h.fresh,h.dispatch,fun n hn _ => ?_,fun n hn => nomatch hn⟩
  by_cases hobserve : u.observe = some n
  · exact (hgone n hobserve).of_eq rfl rfl
  · exact (h.gone n hn hobserve).of_eq rfl rfl

/-- A dispatch begins. -/
theorem core_await {request : Request} (h : u.Core cfg) (hrequest : request.isDispatch) : (u.await request).Core cfg := by
  have hfree := (h.fresh u.nextCall (Nat.le_refl _)).1
  have hstep : ChatLoop.step cfg u.loop (.begin u.nextCall request) = some (u.await request).loop := if_pos hfree
  have hcalls : ∀ k, (u.await request).loop.calls k =
      if k = u.nextCall then some (callOf (beginCall request u.loop)) else u.loop.calls k := ChatLoop.calls_begin request
  have hother : ∀ k, k ≠ u.nextCall → (u.await request).loop.calls k = u.loop.calls k := fun k hk => by rw [hcalls,if_neg hk]
  have hpart : ∀ n ∈ u.observations, n ≠ u.nextCall := by
    rintro n hn rfl
    exact (h.fresh _ (Nat.le_refl _)).2.1 hn
  refine ⟨h.loop.tail trivial hstep,fun n hn => ?_,fun n point hn hpoint => ?_,fun n hn hnot => ?_,fun n hn => ?_⟩
  · have hlt : u.nextCall < n := hn
    rw [hother n (Nat.ne_of_gt hlt)]
    exact h.fresh n (Nat.le_of_lt hlt)
  · by_cases heq : n = u.nextCall
    · rw [hcalls,if_pos heq] at hpoint
      rcases ChatLoop.leads_begin (s := u.loop) hrequest with hleads | ⟨_,hreturned⟩
      · rw [Leads,Option.some.inj hpoint] at hleads
        exact hleads
      · rw [hreturned] at hpoint
        cases hpoint
    · rw [hother n heq] at hpoint
      exact h.dispatch n point hn hpoint
  · have hgone := h.gone n hn hnot
    have heq := hother n (hpart n hn)
    refine ⟨fun point => ?_,fun events hcall => ?_⟩
    · rw [heq]
      exact hgone.stopped point
    · rw [heq] at hcall
      exact hgone.shown events hcall
  · have hheld := h.held n hn
    have heq := hother n (hpart n hheld.made)
    refine ⟨hheld.made,hheld.unshown,fun point hpoint => ?_,fun hreturned hraised => ?_⟩
    · rw [heq] at hpoint
      exact hheld.observing point hpoint
    · rw [heq] at hreturned hraised
      rcases ChatLoop.active_step hstep (hheld.active hreturned hraised) with hafter | ⟨_,_,_,_,_,_,_,_,hno,_⟩
      · exact hafter
      · cases hno

/-- What is shown is the events, and some of them end the interactive mode. -/
theorem emitEvents_eq (u : TerminalChatUI) (n : ℕ) (events : List ChatEvent) : ∃ code, u.emitEvents n events =
    { u with shown := u.shown ++ [(n,events)], quit := u.quit || events.any ChatEvent.quits, exitCode := code } := by
  have hfold : ∀ v : TerminalChatUI, ∃ code, events.foldl emitEvent v =
      { v with quit := v.quit || events.any ChatEvent.quits, exitCode := code } := by
    induction events with
    | nil => exact fun v => ⟨v.exitCode,by simp⟩
    | cons e events ih =>
      intro v
      obtain ⟨code,heq⟩ := ih (emitEvent v e)
      refine ⟨code,?_⟩
      rw [List.foldl_cons,heq]
      cases e <;> simp [emitEvent,ChatEvent.quits]
  exact hfold _

theorem shownOf_emit (u : TerminalChatUI) (n k : ℕ) (events : List ChatEvent) :
    (u.emitEvents n events).shownOf k = u.shownOf k ++ if n = k then [(n,events)] else [] := by
  obtain ⟨code,heq⟩ := emitEvents_eq u n events
  rw [heq]
  unfold shownOf
  rw [List.filter_append]
  by_cases hn : n = k <;> simp [hn]

/-- The events of a dispatch are shown. -/
theorem core_emit (h : u.Core cfg) (hn : n ∉ u.observations) (hlt : n < u.nextCall) : (u.emitEvents n events).Core cfg := by
  have hshown := fun k => shownOf_emit u n k events
  obtain ⟨code,heq⟩ := emitEvents_eq u n events
  rw [heq] at hshown ⊢
  have hother : ∀ k, k ≠ n → ({ u with
      shown := u.shown ++ [(n,events)], quit := u.quit || events.any ChatEvent.quits, exitCode := code } :
      TerminalChatUI).shownOf k = u.shownOf k := fun k hk => by rw [hshown,if_neg hk.symm,List.append_nil]
  refine ⟨h.loop,fun k hk => ?_,h.dispatch,fun k hk hnot => ?_,fun k hk => ?_⟩
  · obtain ⟨hcall,hmade,hnone⟩ := h.fresh k hk
    have hne : k ≠ n := Nat.ne_of_gt (Nat.lt_of_lt_of_le hlt hk)
    exact ⟨hcall,hmade,(hother k hne).trans hnone⟩
  · have hne : k ≠ n := fun heq => hn (heq ▸ hk)
    exact (h.gone k hk hnot).of_eq rfl (hother k hne)
  · have hheld := h.held k hk
    have hne : k ≠ n := fun heq => hn (heq ▸ hheld.made)
    exact hheld.of_eq rfl (hother k hne) hheld.made

/-- The events of the observation are shown, and the session lets it go. -/
theorem core_emitObserved (h : u.Core cfg) (hobserve : u.observe = some n) (hcall : u.loop.calls n = some (.returned events)) :
    { u.emitEvents n events with observe := none }.Core cfg := by
  have hshown := fun k => shownOf_emit u n k events
  obtain ⟨code,heq⟩ := emitEvents_eq u n events
  rw [heq] at hshown ⊢
  have hheld := h.held n hobserve
  refine ⟨h.loop,fun k hk => ?_,h.dispatch,fun k hk _ => ?_,fun k hk => nomatch hk⟩
  · obtain ⟨hfree,hmade,hnone⟩ := h.fresh k hk
    have hne : n ≠ k := by
      rintro rfl
      exact hmade hheld.made
    exact ⟨hfree,hmade,(hshown k).trans (by rw [if_neg hne,List.append_nil,hnone])⟩
  · by_cases hne : n = k
    · subst hne
      refine ⟨fun point hpoint => ?_,fun events' hcall' _ => ?_⟩
      · exact nomatch hcall.symm.trans hpoint
      · obtain rfl : events = events' := Call.returned.inj (Option.some.inj (hcall.symm.trans hcall'))
        refine (hshown n).trans ?_
        rw [hheld.unshown,if_pos rfl]
        rfl
    · have hgone := h.gone k hk (by rw [hobserve]; exact fun heq => hne (Option.some.inj heq))
      exact hgone.of_eq rfl ((hshown k).trans (by rw [if_neg hne,List.append_nil]))

/-! The session leaves its loop. -/

theorem core_cancelCall (h : u.Core cfg) (k : ℕ) : (u.cancelCall cfg k).Core cfg := by
  unfold cancelCall
  cases hstep : ChatLoop.step cfg u.loop (.resume k .cancelled) with
  | none => exact h.of_eq rfl (Nat.le_refl _) rfl rfl rfl
  | some loop => exact core_step (a := .resume k .cancelled) h (fun _ _ heq => nomatch heq) hstep

/-- An observation that is cancelled is over, and one that has settled the run is shown already. -/
theorem gone_cancelCall (h : u.Held n) (hobserve : u.observe = some n) (hquiet : ¬u.HasOutcome) :
    (u.cancelCall cfg n).Gone n := by
  have hself : (∀ point, (u.cancelCall cfg n).loop.calls n ≠ some (.at point)) ∧
      ∀ events, (u.cancelCall cfg n).loop.calls n = some (.returned events) → u.loop.calls n = some (.returned events) := by
    unfold cancelCall
    cases hstep : ChatLoop.step cfg u.loop (.resume n .cancelled) with
    | some loop =>
      cases ChatLoop.call_cases hstep with
      | resumes _ _ point m hpoint hm hcalls =>
        have hraise : ∃ e, loop.calls n = some (.raised e) := by
          rw [hcalls,if_pos rfl]
          have hobserving := h.observing point hpoint
          cases point with
          | reading | sleeping =>
            obtain rfl := Option.some.inj hm
            exact ⟨.cancelled,rfl⟩
          | locking | starting | cancelling => cases hobserving
        obtain ⟨e,he⟩ := hraise
        exact ⟨fun _ hpoint => (by cases he.symm.trans hpoint),fun _ hevents => (by cases he.symm.trans hevents)⟩
      | stays _ hno => exact absurd rfl (hno n .cancelled)
    | none =>
      refine ⟨fun point hpoint => ?_,fun events hevents => hevents⟩
      have hobserving := h.observing point hpoint
      have hpoint' : u.loop.calls n = some (.at point) := hpoint
      simp only [ChatLoop.step,hpoint'] at hstep
      cases point with
      | reading | sleeping => cases hstep
      | locking | starting | cancelling => cases hobserving
  refine ⟨hself.1,fun events hcall hsettled => ?_⟩
  exact absurd ⟨n,events,hobserve,hself.2 events hcall,hsettled⟩ hquiet

theorem sound_leave (h : u.Core cfg) (hquiet : ¬u.HasOutcome) (next : SessionEnd) : (u.leave cfg next).Sound cfg := by
  refine ⟨?_,rfl⟩
  unfold leave
  cases hobserve : u.observe with
  | none => exact h.of_eq rfl (Nat.le_refl _) rfl hobserve.symm rfl
  | some n =>
    have hgone : ∀ k, (u.cancelCall cfg n).observe = some k → (u.cancelCall cfg n).Gone k := by
      intro k hk
      obtain rfl : n = k := Option.some.inj (hobserve.symm.trans hk)
      exact gone_cancelCall (h.held n hobserve) hobserve hquiet
    exact ((core_cancelCall h n).release hgone).of_eq rfl (Nat.le_refl _) rfl rfl rfl

theorem not_hasOutcome_of_none (h : u.observe = none) : ¬u.HasOutcome := by
  rintro ⟨n,_,hn,_⟩
  exact nomatch h.symm.trans hn

/-- The session goes on with its loop. -/
theorem sound_turn (h : u.Core cfg) (hquiet : u.quit → ¬u.HasOutcome) : (u.turn cfg).Sound cfg := by
  unfold turn
  by_cases hquit : u.quit
  · rw [if_pos hquit]
    exact sound_leave h (hquiet hquit) .stop
  · rw [if_neg hquit]
    have hgoes : u.quit = false := by simpa using hquit
    simp only
    split
    · rename_i hcreate
      obtain ⟨hstate,hnone⟩ := hcreate
      refine ⟨?_,hgoes⟩
      have hactive : u.loop.active ≠ none := by
        intro hactive
        have hrun := (ChatLoop.reachable_owned h.loop).idle hactive
        exact hstate (by simp [ChatController.state,hrun])
      obtain ⟨hfree,hpart,hunshown⟩ := h.fresh u.nextCall (Nat.le_refl _)
      refine ⟨h.loop,fun n hn => ?_,fun n point hn hpoint => ?_,fun n hn hnot => ?_,fun n hn => ?_⟩
      · have hlt : u.nextCall < n := hn
        obtain ⟨hcall,hmade,hshown⟩ := h.fresh n (Nat.le_of_lt hlt)
        refine ⟨hcall,fun hmem => ?_,hshown⟩
        rcases List.mem_cons.mp hmem with heq | hmem
        · omega
        · exact hmade hmem
      · exact h.dispatch n point (fun hmem => hn (List.mem_cons_of_mem _ hmem)) hpoint
      · have hne : u.nextCall ≠ n := fun heq => hnot (congrArg some heq)
        rcases List.mem_cons.mp hn with heq | hmem
        · exact absurd heq.symm hne
        · exact (h.gone n hmem (by rw [hnone]; simp)).of_eq rfl rfl
      · obtain rfl : u.nextCall = n := Option.some.inj hn
        refine ⟨.head _,hunshown,fun point hpoint => ?_,fun _ _ => hactive⟩
        cases hfree.symm.trans hpoint
    · exact ⟨h.of_eq rfl (Nat.le_refl _) rfl rfl rfl,hgoes⟩

/-- A dispatch that begins leaves the observation as it is. -/
theorem await_calls (h : u.Core cfg) (request : Request) (hn : n ∈ u.observations) :
    (u.await request).loop.calls n = u.loop.calls n := by
  have hne : n ≠ u.nextCall := by
    rintro rfl
    exact (h.fresh _ (Nat.le_refl _)).2.1 hn
  exact (ChatLoop.calls_begin request n).trans (if_neg hne)

/-- The dispatch of an `except` block. -/
theorem sound_interrupting (h : u.Core cfg) (hquiet : ¬u.HasOutcome) {request : Request} (hrequest : request.isDispatch) :
    { u.await request with point := .interrupting u.nextCall }.Sound cfg := by
  refine ⟨(core_await h hrequest).of_eq rfl (Nat.le_refl _) rfl rfl rfl,?_⟩
  refine ⟨(h.fresh _ (Nat.le_refl _)).2.1,Nat.lt_succ_self _,?_⟩
  rintro ⟨n,events,hn,hcall,hsettled⟩
  have hsame := await_calls h request (h.held n hn).made
  exact hquiet ⟨n,events,hn,hsame.symm.trans hcall,hsettled⟩

theorem sound_interrupted (h : u.Core cfg) (hquiet : ¬u.HasOutcome) : (u.interrupted cfg).Sound cfg := by
  unfold interrupted
  split
  · exact sound_interrupting h hquiet rfl
  · split
    · exact sound_leave (u := { u with quit := true }) (h.of_eq rfl (Nat.le_refl _) rfl rfl rfl) hquiet .stop
    · exact sound_leave (u := { u with lastIdleInterrupt := u.loop.now }) (h.of_eq rfl (Nat.le_refl _) rfl rfl rfl) hquiet
        .restart

theorem sound_inputEnded (h : u.Core cfg) (hquiet : ¬u.HasOutcome) : (u.inputEnded cfg).Sound cfg := by
  unfold inputEnded
  split
  · exact sound_interrupting h hquiet rfl
  · exact sound_leave (u := { u with quit := true }) (h.of_eq rfl (Nat.le_refl _) rfl rfl rfl) hquiet .stop

theorem sound_failed (h : u.Core cfg) (hquiet : ¬u.HasOutcome) (eof : Bool) : (u.failed cfg eof).Sound cfg := by
  unfold failed
  split
  · exact sound_inputEnded h hquiet
  · exact sound_leave h hquiet .raise

/-! What has ended. -/

theorem observed_some {result : Except ChatExn (List ChatEvent)} (h : u.observed = some (n,result)) : u.observe = some n ∧
    u.loop.calls n = some (match result with | .ok events => .returned events | .error e => .raised e) := by
  obtain ⟨k,hk,h⟩ := Option.bind_eq_some_iff.mp h
  split at h
  · rename_i hcall
    obtain ⟨rfl,rfl⟩ := Prod.mk.inj (Option.some.inj h)
    exact ⟨hk,hcall⟩
  · rename_i hcall
    obtain ⟨rfl,rfl⟩ := Prod.mk.inj (Option.some.inj h)
    exact ⟨hk,hcall⟩
  · exact nomatch h

theorem observed_none (h : u.observed = none) (hn : u.observe = some n) :
    (∀ events, u.loop.calls n ≠ some (.returned events)) ∧ ∀ e, u.loop.calls n ≠ some (.raised e) := by
  constructor
  · intro events hcall
    simp [observed,hn,hcall] at h
  · intro e hcall
    simp [observed,hn,hcall] at h

theorem not_hasOutcome_of_pending (h : u.observed = none) : ¬u.HasOutcome := by
  rintro ⟨n,events,hn,hcall,_⟩
  exact (observed_none h hn).1 events hcall

/-- A text is dispatched: only a session without a run takes it for a `Quit`. -/
theorem sound_handleReadyText (h : u.Core cfg) (hpending : u.observed = none) (text : String) :
    (u.handleReadyText cfg text).Sound cfg := by
  unfold handleReadyText
  by_cases hquit : u.quit
  · rw [if_pos hquit]
    exact sound_turn h fun _ => not_hasOutcome_of_pending hpending
  · rw [if_neg hquit]
    have hgoes : u.quit = false := by simpa using hquit
    refine ⟨(core_await h rfl).of_eq rfl (Nat.le_refl _) rfl rfl rfl,?_⟩
    refine ⟨hgoes,(h.fresh _ (Nat.le_refl _)).2.1,Nat.lt_succ_self _,fun events hcall hquits => ?_⟩
    obtain ⟨e,he,hquits⟩ := hquits
    have hself := (ChatLoop.calls_begin (n := u.nextCall) (s := u.loop) (.dispatchText text) u.nextCall).trans (if_pos rfl)
    have heq := Option.some.inj (hself.symm.trans hcall)
    have hdispatch : (Request.dispatchText text).isDispatch := rfl
    rcases ChatLoop.leads_begin (s := u.loop) hdispatch with hleads | ⟨hrun,_⟩
    · rw [Leads,heq] at hleads
      rw [hleads e he] at hquits
      cases hquits
    · have hactive := (ChatLoop.reachable_owned h.loop).free hrun
      show u.observe = none
      cases hobserve : u.observe with
      | none => rfl
      | some n =>
        obtain ⟨hreturned,hraised⟩ := observed_none hpending hobserve
        exact absurd hactive ((h.held n hobserve).active hreturned hraised)

/-! One lemma for each step of the session. -/

theorem not_hasOutcome_of_raised {e : ChatExn} (hobserve : u.observe = some n) (hcall : u.loop.calls n = some (.raised e)) :
    ¬u.HasOutcome := by
  rintro ⟨k,events,hk,hreturned,_⟩
  obtain rfl : n = k := Option.some.inj (hobserve.symm.trans hk)
  exact nomatch hcall.symm.trans hreturned

theorem sound_wake (h : u.Core cfg) (hgoes : u.quit = false) {eof : Bool} (htimely : u.Timely (.wake eof))
    (hwake : u.wake cfg eof = some u') : u'.Sound cfg := by
  have hprompt : ∀ r, u.prompt.join = some r → u.prompt = some (some r) := fun r hr => Option.join_eq_some_iff.mp hr
  simp only [wake] at hwake
  cases hobserved : u.observed with
  | none =>
    rw [hobserved] at hwake
    have hquiet := not_hasOutcome_of_pending hobserved
    cases hjoin : u.prompt.join with
    | none =>
      rw [hjoin] at hwake
      exact nomatch hwake
    | some r =>
      rw [hjoin] at hwake
      cases r with
      | text text =>
        obtain rfl := Option.some.inj hwake
        exact sound_handleReadyText (u := { u with prompt := none }) (h.of_eq rfl (Nat.le_refl _) rfl rfl rfl) hobserved text
      | interrupt =>
        obtain rfl := Option.some.inj hwake
        exact sound_interrupted h hquiet
      | eof =>
        obtain rfl := Option.some.inj hwake
        exact sound_inputEnded h hquiet
  | some entry =>
    obtain ⟨n,result⟩ := entry
    obtain ⟨hobserve,hcall⟩ := observed_some hobserved
    rw [hobserved] at hwake
    cases result with
    | error e =>
      obtain rfl := Option.some.inj hwake
      exact sound_failed h (not_hasOutcome_of_raised hobserve hcall) eof
    | ok events =>
      cases hjoin : u.prompt.join with
      | none =>
        rw [hjoin] at hwake
        obtain rfl := Option.some.inj hwake
        exact ⟨h.of_eq rfl (Nat.le_refl _) rfl rfl rfl,hgoes,hobserve,hcall⟩
      | some r =>
        rw [hjoin] at hwake
        cases r with
        | text text =>
          obtain rfl := Option.some.inj hwake
          have hcore : { u.emitEvents n events with observe := none, prompt := none }.Core cfg :=
            (core_emitObserved h hobserve hcall).of_eq rfl (Nat.le_refl _) rfl rfl rfl
          exact sound_handleReadyText hcore rfl text
        | interrupt =>
          obtain rfl := Option.some.inj hwake
          exact sound_interrupted h fun hhas => (htimely hhas).1 (hprompt _ hjoin)
        | eof =>
          obtain rfl := Option.some.inj hwake
          exact sound_inputEnded h fun hhas => (htimely hhas).2 (hprompt _ hjoin)

theorem sound_shown (h : u.Core cfg) (hobserve : u.observe = some n) (hcall : u.loop.calls n = some (.returned events)) :
    ({ u.emitEvents n events with observe := none }.turn cfg).Sound cfg :=
  sound_turn (core_emitObserved h hobserve hcall) fun _ => not_hasOutcome_of_none rfl

theorem hasOutcome_emit : (u.emitEvents n events).HasOutcome ↔ u.HasOutcome := by
  obtain ⟨code,heq⟩ := emitEvents_eq u n events
  rw [heq]
  rfl

theorem sound_resumed (h : u.Sound cfg) {eof : Bool} (htimely : u.Timely (.resumed eof))
    (hresumed : u.resumed cfg eof = some u') : u'.Sound cfg := by
  have hplaced := h.placed
  unfold resumed at hresumed
  split at hresumed
  · rename_i n hpoint
    rw [Placed,hpoint] at hplaced
    obtain ⟨hgoes,hpart,hlt,hquits⟩ := hplaced
    split at hresumed
    · rename_i events hcall
      obtain rfl := Option.some.inj hresumed
      refine sound_turn (core_emit h.core hpart hlt) fun hquit => ?_
      rw [hasOutcome_emit]
      obtain ⟨code,heq⟩ := emitEvents_eq u n events
      rw [heq] at hquit
      have hany : ∃ e ∈ events, e.quits := by simpa [hgoes] using hquit
      exact not_hasOutcome_of_none (hquits events hcall hany)
    · rename_i e hcall
      obtain rfl := Option.some.inj hresumed
      exact sound_failed h.core (fun hhas => htimely hhas n e hpoint hcall) eof
    · exact nomatch hresumed
  · rename_i n hpoint
    rw [Placed,hpoint] at hplaced
    obtain ⟨hpart,hlt,hquiet⟩ := hplaced
    split at hresumed
    · rename_i events hcall
      obtain rfl := Option.some.inj hresumed
      exact sound_leave (core_emit h.core hpart hlt) (hasOutcome_emit.not.mpr hquiet) _
    · obtain rfl := Option.some.inj hresumed
      exact sound_leave h.core hquiet .raise
    · exact nomatch hresumed
  · exact nomatch hresumed

/-- A call other than that of the step keeps its result. -/
theorem returned_before {a : LoopAction} {loop : ChatLoop} (hstep : ChatLoop.step cfg u.loop a = some loop)
    (hcall : loop.calls n = some (.returned events)) : u.loop.calls n = some (.returned events) ∨
      (∃ request, a = .begin n request ∧ callOf (beginCall request u.loop) = .returned events) ∨
      ∃ signal point m, a = .resume n signal ∧ u.loop.calls n = some (.at point) ∧
        ChatLoop.resumeCall cfg u.loop n point signal = some m ∧ callOf (m u.loop) = .returned events := by
  cases ChatLoop.call_cases hstep with
  | begins k request hnone hcalls =>
    rw [hcalls] at hcall
    split at hcall
    · rename_i heq
      subst heq
      exact .inr (.inl ⟨request,rfl,Option.some.inj hcall⟩)
    · exact .inl hcall
  | resumes k signal point m hpoint hm hcalls =>
    rw [hcalls] at hcall
    split at hcall
    · rename_i heq
      subst heq
      exact .inr (.inr ⟨signal,point,m,rfl,hpoint,hm,Option.some.inj hcall⟩)
    · exact .inl hcall
  | stays hcalls => exact .inl (hcalls ▸ hcall)

/-- A call that has returned is over. -/
theorem returned_after {a : LoopAction} {loop : ChatLoop} (hstep : ChatLoop.step cfg u.loop a = some loop)
    (hcall : u.loop.calls n = some (.returned events)) : loop.calls n = some (.returned events) := by
  cases ChatLoop.call_cases hstep with
  | begins k request hnone hcalls =>
    have hne : n ≠ k := by
      rintro rfl
      exact nomatch hcall.symm.trans hnone
    rw [hcalls,if_neg hne,hcall]
  | resumes k signal point m hpoint hm hcalls =>
    have hne : n ≠ k := by
      rintro rfl
      exact nomatch hcall.symm.trans hpoint
    rw [hcalls,if_neg hne,hcall]
  | stays hcalls => rw [hcalls,hcall]

theorem sound_loop (h : u.Sound cfg) {a : LoopAction} {loop : ChatLoop} (hpermits : u.Permits a)
    (htimely : u.Timely (.loop a)) (hstep : ChatLoop.step cfg u.loop a = some loop) : { u with loop }.Sound cfg := by
  have hlets := lets_of_permits hpermits
  refine ⟨core_step h.core hlets hstep,?_⟩
  have hplaced := h.placed
  unfold Placed at hplaced ⊢
  cases hpoint : u.point with
  | waiting | closing | ended =>
    rw [hpoint] at hplaced
    exact hplaced
  | showing n events =>
    rw [hpoint] at hplaced
    obtain ⟨hgoes,hobserve,hcall⟩ := hplaced
    exact ⟨hgoes,hobserve,returned_after hstep hcall⟩
  | handling n =>
    rw [hpoint] at hplaced
    obtain ⟨hgoes,hpart,hlt,hquits⟩ := hplaced
    refine ⟨hgoes,hpart,hlt,fun events hcall hany => ?_⟩
    rcases returned_before hstep hcall with hbefore | ⟨request,rfl,_⟩ | ⟨signal,point,m,_,hbefore,hm,hreturned⟩
    · exact hquits events hbefore hany
    · obtain ⟨hobserve,_⟩ := hlets n request rfl
      exact absurd (h.core.held n hobserve).made hpart
    · -- the dispatch has waited, and so it returns no event that quits
      have hleads := ChatLoop.leads_resume hm (h.core.dispatch n point hpart hbefore)
      rw [Leads,hreturned] at hleads
      obtain ⟨e,he,hquit⟩ := hany
      rw [hleads e he] at hquit
      cases hquit
  | interrupting n =>
    rw [hpoint] at hplaced
    obtain ⟨hpart,hlt,hquiet⟩ := hplaced
    refine ⟨hpart,hlt,?_⟩
    rintro ⟨k,events,hobserve,hcall,hsettled⟩
    have hheld := h.core.held k hobserve
    rcases returned_before hstep hcall with hbefore | ⟨request,rfl,hreturned⟩ | ⟨signal,point,m,rfl,hbefore,hm,hreturned⟩
    · exact hquiet ⟨k,events,hobserve,hbefore,hsettled⟩
    · obtain ⟨_,d,i,l,rfl⟩ := hlets k request rfl
      have hleads : Leads Call.Observing (beginCall (.observeUntil d i l)) u.loop := ChatLoop.leads_observeUntil
      rw [Leads,hreturned] at hleads
      exact hleads hsettled
    · rcases ChatLoop.leads_observation hm (hheld.observing point hbefore) with
        hleads | ⟨start,cancel,terminal,_,rfl,hreconcile,_⟩
      · rw [Leads,hreturned] at hleads
        exact hleads hsettled
      · cases hreconcile.symm.trans (htimely hobserve ⟨n,hpoint⟩)

theorem sound_abandon (h : u.Sound cfg) (hquiet : ¬u.HasOutcome) (habandon : u.abandon cfg = some u') : u'.Sound cfg := by
  have hcancel : ∀ n, n ∉ u.observations → ∀ loop, ChatLoop.step cfg u.loop (.resume n .cancelled) = some loop →
      ({ u with loop }.leave cfg .raise).Sound cfg := by
    intro n hpart loop hstep
    refine sound_leave (core_step (a := .resume n .cancelled) h.core (fun _ _ heq => nomatch heq) hstep) ?_ .raise
    rintro ⟨k,events,hobserve,hcall,hsettled⟩
    rcases returned_before hstep hcall with hbefore | ⟨_,heq,_⟩ | ⟨_,_,_,heq,_⟩
    · exact hquiet ⟨k,events,hobserve,hbefore,hsettled⟩
    · exact nomatch heq
    · obtain ⟨rfl,_⟩ := LoopAction.resume.inj heq
      exact hpart (h.core.held n hobserve).made
  have hplaced := h.placed
  unfold abandon at habandon
  split at habandon
  · obtain rfl := Option.some.inj habandon
    exact sound_leave h.core hquiet .raise
  · obtain rfl := Option.some.inj habandon
    exact sound_leave h.core hquiet .raise
  · rename_i n hpoint
    rw [Placed,hpoint] at hplaced
    obtain ⟨loop,hstep,rfl⟩ := Option.map_eq_some_iff.mp habandon
    exact hcancel n hplaced.2.1 loop hstep
  · rename_i n hpoint
    rw [Placed,hpoint] at hplaced
    obtain ⟨loop,hstep,rfl⟩ := Option.map_eq_some_iff.mp habandon
    exact hcancel n hplaced.1 loop hstep
  · exact nomatch habandon
  · exact nomatch habandon

theorem sound_step (h : u.Sound cfg) {a : Action} (htimely : u.Timely a) (hstep : u.step cfg a = some u') : u'.Sound cfg := by
  have hplaced := h.placed
  cases a with
  | loop a =>
    simp only [step,Option.ite_none_right_eq_some] at hstep
    obtain ⟨hpermits,hstep⟩ := hstep
    obtain ⟨loop,hloop,rfl⟩ := Option.map_eq_some_iff.mp hstep
    exact sound_loop h hpermits htimely hloop
  | prompt result =>
    simp only [step,Option.ite_none_right_eq_some] at hstep
    obtain rfl := Option.some.inj hstep.2
    exact ⟨h.core.of_eq rfl (Nat.le_refl _) rfl rfl rfl,hplaced⟩
  | wake eof =>
    simp only [step,Option.ite_none_right_eq_some] at hstep
    rw [Placed,hstep.1] at hplaced
    exact sound_wake h.core hplaced htimely hstep.2
  | shown =>
    simp only [step] at hstep
    split at hstep
    · rename_i n events hpoint
      rw [Placed,hpoint] at hplaced
      obtain rfl := Option.some.inj hstep
      exact sound_shown h.core hplaced.2.1 hplaced.2.2
    · exact nomatch hstep
  | resumed eof => exact sound_resumed h htimely hstep
  | closed =>
    simp only [step] at hstep
    split at hstep
    · rename_i hpoint
      rw [Placed,hpoint] at hplaced
      obtain rfl := Option.some.inj hstep
      split
      · exact ⟨h.core.of_eq rfl (Nat.le_refl _) rfl rfl rfl,hplaced⟩
      · exact sound_turn h.core fun _ => not_hasOutcome_of_none hplaced
    · rename_i hpoint
      rw [Placed,hpoint] at hplaced
      obtain rfl := Option.some.inj hstep
      exact ⟨h.core.of_eq rfl (Nat.le_refl _) rfl rfl rfl,hplaced⟩
    · exact nomatch hstep
  | abandon => exact sound_abandon h htimely hstep

theorem init_sound (h : Init u) : u.Sound cfg := by
  obtain ⟨loop,hloop,rfl⟩ := h
  have hcalls : ∀ n, loop.calls n = none := by
    obtain ⟨session,_,rfl⟩ := hloop
    exact fun _ => rfl
  refine ⟨⟨.of_init hloop,fun n _ => ⟨hcalls n,List.not_mem_nil,rfl⟩,fun n point _ hpoint => ?_,nofun,nofun⟩,rfl⟩
  exact nomatch (hcalls n).symm.trans hpoint

theorem reachable_sound (h : ReachableWith (step cfg) Timely Init u) : u.Sound cfg :=
  h.invariant (fun _ => init_sound) fun _ _ _ hs ha hstep => sound_step hs ha hstep

/-! Every outcome is shown. -/

theorem leave_shownOf (next : SessionEnd) : (u.leave cfg next).shownOf n = u.shownOf n := by
  unfold leave
  cases u.observe <;> rfl

theorem turn_shownOf : (u.turn cfg).shownOf n = u.shownOf n := by
  unfold turn
  split
  · exact leave_shownOf .stop
  · simp only
    split <;> rfl

theorem handleReadyText_shownOf (text : String) : (u.handleReadyText cfg text).shownOf n = u.shownOf n := by
  unfold handleReadyText
  split
  · exact turn_shownOf
  · rfl

theorem turn_waiting (h : u.quit = false) : (u.turn cfg).point = .waiting := by
  unfold turn
  rw [if_neg (by simp [h])]
  simp only
  split <;> rfl

theorem observed_returned (hobserve : u.observe = some n) (hcall : u.loop.calls n = some (.returned events)) :
    u.observed = some (n,.ok events) := by
  rw [observed,hobserve]
  simp [hcall]

/-- The session holds an outcome that it has not shown, and shows it next. A dispatch of a text comes to its end first. -/
structure ToBeShown (cfg : ChatConfig) (u : TerminalChatUI) (n : ℕ) (events : List ChatEvent) : Prop where
  held : u.observe = some n
  unshown : u.shownOf n = []
  staged : u.point = .waiting ∨ u.point = .showing n events ∨ ∃ k, u.point = .handling k
  wakes : u.point = .waiting → ∀ eof, ∃ u', u.step cfg (.wake eof) = some u' ∧
    (u.Timely (.wake eof) → u'.shownOf n = [(n,events)] ∨ u'.point = .showing n events)
  shows : u.point = .showing n events → ∃ u', u.step cfg .shown = some u' ∧ u'.shownOf n = [(n,events)]
  handled : (∃ k, u.point = .handling k) → ∀ eof u', u.Timely (.resumed eof) → u.step cfg (.resumed eof) = some u' →
    u'.point = .waiting

theorem shownOf_emitObserved (h : u.shownOf n = []) : (u.emitEvents n events).shownOf n = [(n,events)] := by
  rw [shownOf_emit,h,if_pos rfl,List.nil_append]

/-- The session wakes up with an outcome. -/
theorem outcome_wakes (hunshown : u.shownOf n = []) (hobserve : u.observe = some n)
    (hcall : u.loop.calls n = some (.returned events)) (hsettled : Settled events) (eof : Bool) :
    ∃ u', u.wake cfg eof = some u' ∧
      (u.Timely (.wake eof) → u'.shownOf n = [(n,events)] ∨ u'.point = .showing n events) := by
  have hobserved := observed_returned hobserve hcall
  have hhas : u.HasOutcome := ⟨n,events,hobserve,hcall,hsettled⟩
  unfold wake
  rw [hobserved]
  cases hjoin : u.prompt.join with
  | none => exact ⟨_,rfl,fun _ => .inr rfl⟩
  | some r =>
    have hprompt : u.prompt = some (some r) := Option.join_eq_some_iff.mp hjoin
    cases r with
    | text text =>
      refine ⟨_,rfl,fun _ => .inl ?_⟩
      rw [handleReadyText_shownOf]
      exact shownOf_emitObserved hunshown
    | interrupt => exact ⟨_,rfl,fun htimely => absurd hprompt (htimely hhas).1⟩
    | eof => exact ⟨_,rfl,fun htimely => absurd hprompt (htimely hhas).2⟩

theorem Sound.toBeShown (h : u.Sound cfg) (hobserve : u.observe = some n)
    (hcall : u.loop.calls n = some (.returned events)) (hsettled : Settled events) : u.ToBeShown cfg n events := by
  have hhas : u.HasOutcome := ⟨n,events,hobserve,hcall,hsettled⟩
  have hunshown := (h.core.held n hobserve).unshown
  have hplaced := h.placed
  refine ⟨hobserve,hunshown,?_,fun hpoint eof => ?_,fun hpoint => ?_,?_⟩
  · unfold Placed at hplaced
    split at hplaced
    · exact .inl ‹_›
    · rename_i k events' hpoint
      obtain rfl : k = n := Option.some.inj (hplaced.2.1.symm.trans hobserve)
      obtain rfl := Call.returned.inj (Option.some.inj (hplaced.2.2.symm.trans hcall))
      exact .inr (.inl hpoint)
    · exact .inr (.inr ⟨_,‹_›⟩)
    · exact absurd hhas hplaced.2.2
    · exact absurd hhas (not_hasOutcome_of_none hplaced)
    · exact absurd hhas (not_hasOutcome_of_none hplaced)
  · rw [step,if_pos hpoint]
    exact outcome_wakes hunshown hobserve hcall hsettled eof
  · refine ⟨({ u.emitEvents n events with observe := none }).turn cfg,by rw [step,hpoint],?_⟩
    rw [turn_shownOf]
    exact shownOf_emitObserved hunshown
  · rintro ⟨k,hpoint⟩ eof u' htimely hstep
    rw [Placed,hpoint] at hplaced
    obtain ⟨hgoes,_,_,hquits⟩ := hplaced
    simp only [step,resumed,hpoint] at hstep
    split at hstep
    · rename_i events' hreturned
      obtain rfl := Option.some.inj hstep
      apply turn_waiting
      obtain ⟨code,heq⟩ := emitEvents_eq u k events'
      rw [heq]
      by_contra hquit
      have hany : ∃ e ∈ events', e.quits := by simpa [hgoes] using hquit
      exact nomatch hobserve.symm.trans (hquits events' hreturned hany)
    · rename_i e hraised
      exact absurd hraised (htimely hhas k e hpoint)
    · exact nomatch hstep

/-- In a run whose steps are all timely, what an observation returns when it settles the run is shown exactly once. -/
theorem outcomes_shown (h : ReachableWith (step cfg) Timely Init u) (hmade : n ∈ u.observations)
    (hcall : u.loop.calls n = some (.returned events)) (hsettled : Settled events) :
    u.shownOf n = [(n,events)] ∨ u.ToBeShown cfg n events := by
  have hsound := reachable_sound h
  by_cases hobserve : u.observe = some n
  · exact .inr (hsound.toBeShown hobserve hcall hsettled)
  · exact .inl ((hsound.core.gone n hmade hobserve).shown events hcall hsettled)

/-! A run up to the observation. -/

def observing : List Action :=
  [.closed,.prompt (.text "hello"),.wake false,.loop (.resume 0 (.acquired { run := "run", command := "command" })),
    .loop (.accept 0),.loop (.resume 0 .ready),.resumed false,.loop (.begin 1 (.observeUntil 3150 1 10))]

theorem init_default : Init {} := ⟨{},ChatLoop.init_default,rfl⟩

/-- The steps that are timely whatever the observation has returned. -/
def timelyCheck (u : TerminalChatUI) : Action → Bool
  | .wake _ => u.prompt ≠ some (some .interrupt) ∧ u.prompt ≠ some (some .eof)
  | .loop (.resume _ (.snapshots ..)) => u.point = .waiting
  | .resumed _ =>
    match u.point with
    | .handling n => match u.loop.calls n with | some (.raised _) => false | _ => true
    | _ => true
  | .abandon => false
  | _ => true

theorem timelyCheck_timely (u : TerminalChatUI) (a : Action) (h : timelyCheck u a) : u.Timely a := by
  cases a with
  | wake eof => exact fun _ => by simpa [timelyCheck] using h
  | resumed eof =>
    intro _ n e hpoint hcall
    simp [timelyCheck,hpoint,hcall] at h
  | abandon => exact nomatch h
  | loop a =>
    cases a with
    | resume k signal =>
      cases signal with
      | snapshots start cancel =>
        rintro _ ⟨n,hpoint⟩
        simp [timelyCheck,hpoint] at h
      | _ => trivial
    | _ => trivial
  | _ => trivial

theorem outcomes_shown_completed : ∃ u, ReachableWith (step {}) Timely Init u ∧ 1 ∈ u.observations ∧
    (u.shownOf 1 = [(1,[.completed "answer"])] ∨ u.ToBeShown {} 1 [.completed "answer"]) := by
  have hsample : ∃ u, exec (guarded (step {}) timelyCheck) {}
      (observing ++ ([.loop (ChatLoop.answered 1),.wake false,.shown] : List Action)) = some u ∧ 1 ∈ u.observations ∧
      u.loop.calls 1 = some (.returned [.completed "answer"]) := ⟨_,rfl,.head _,rfl⟩
  obtain ⟨u,hexec,hmade,hcall⟩ := hsample
  have hreach := exec_reachableWith (step {}) timelyCheck_timely init_default hexec
  exact ⟨u,hreach,hmade,outcomes_shown hreach hmade hcall ⟨_,_,rfl,rfl⟩⟩

/-- The input ends while the observation completes: the session leaves without the outcome. -/
theorem outcome_dropped : ¬∀ u n events, Reachable (step {}) Init u → n ∈ u.observations →
    u.loop.calls n = some (.returned events) → Settled events → u.point = .ended .stop → u.shownOf n = [(n,events)] := by
  intro h
  have hsample : ∃ u, exec (step {}) {}
      (observing ++ ([.prompt .eof,.loop (ChatLoop.answered 1),.wake false,.closed] : List Action)) = some u ∧
      1 ∈ u.observations ∧ u.loop.calls 1 = some (.returned [.completed "answer"]) ∧ u.point = .ended .stop ∧
      u.shownOf 1 = [] := ⟨_,rfl,.head _,rfl,rfl,rfl⟩
  obtain ⟨u,hexec,hmade,hcall,hended,hnone⟩ := hsample
  have hshown := h u 1 _ (exec_reachable (step {}) init_default hexec) hmade hcall ⟨_,_,rfl,rfl⟩ hended
  rw [hnone] at hshown
  exact nomatch hshown

end TerminalChatUI
end Chat
end HarnessSdk
