import HarnessSdk.QwenSession
import HarnessSdk.TerminalOwner

/-!
# The reason of a controlled close

The close task claims the terminal before the control codec looks at the reason. So a bad
reason is refused only after the session has been closed for good, unless another close is
already under way.
-/

namespace HarnessSdk
namespace Session

open Transition (Steps anyStep exec)

variable {A : Type} {c : SessionConfig A} {b : Brings} {t : TaskId} {k : TaskKind} {s s' : Session A}

/-- What the results of close tasks and close calls say at any later time. -/
def Reported (s : Session A) : TaskKind → TaskOutcome → Prop
  | .controlledClose _, .returned => s.terminal.published
  | .controlledClose reason, .raised e => s.ReasonRefused reason e
  | .call (.close _), .returned => s.terminal.published
  | .call (.close reason), .raised e => s.CloseRaised reason e
  | _, _ => True

/-- The invariant of the controlled close. -/
def CloseInv (s : Session A) : Prop := ∀ j kind o, s.place j = some (kind,.finished o) → s.Reported kind o

theorem kind_setTask {j : TaskId} {kind : TaskKind} {state' : TaskState} (hr : Running c s j k)
    (hs : ∃ state, s.place t = some (kind,state)) : ∃ state, (s.setTask j state').place t = some (kind,state) := by
  obtain ⟨state,hp⟩ := hs
  by_cases hj : t = j
  · subst hj
    rw [hr.here] at hp
    simp only [Option.some.injEq,Prod.mk.injEq] at hp
    exact ⟨state',by rw [setTask_place_self hr.here,hp.1]⟩
  · exact ⟨state,by rw [setTask_place hj]; exact hp⟩

/-- A task keeps its kind. -/
theorem kind_kept {kind : TaskKind} : Preserved c anyStep (fun s => ∃ state, s.place t = some (kind,state))
    fun _ _ _ s => ∃ state, s.place t = some (kind,state) where
  wake _ hs _ hst := by
    obtain ⟨state,hp⟩ := hs
    exact hst.kind_kept hp
  move _ hm hs := by
    obtain ⟨state,hp⟩ := hs
    exact ⟨state,hm.place_kept hp⟩
  park _ _ hr hs _ := kind_setTask hr hs
  stop _ _ hr hs _ := kind_setTask hr hs
  consume _ hs h := by
    obtain ⟨_,_,_,rfl,_⟩ := consume_frame h
    exact hs
  interfere _ hs := hs

/-- What only grows: a later state keeps the ends of tasks, the terminal and the close task. -/
structure Later (s s' : Session A) : Prop where
  published : s.terminal.published → s'.terminal.published
  owner : s.terminal.owner.isSome → s'.terminal.owner.isSome
  control : ∀ i, s.control.task = some i →
    s'.control.task = some i ∧ s'.control.reason = s.control.reason
  stopped : ∀ j kind o, s.place j = some (kind,.finished o) → s'.place j = some (kind,.finished o)

theorem Later.refl : Later s s := ⟨id,id,fun _ hi => ⟨hi,rfl⟩,fun _ _ _ h => h⟩

theorem Later.trans {s'' : Session A} (h : Later s s') (hh : Later s' s'') : Later s s'' where
  published hp := hh.published (h.published hp)
  owner ho := hh.owner (h.owner ho)
  control i hi := by
    obtain ⟨hi',hr⟩ := h.control i hi
    obtain ⟨hi'',hr'⟩ := hh.control i hi'
    exact ⟨hi'',hr'.trans hr⟩
  stopped j kind o hp := hh.stopped j kind o (h.stopped j kind o hp)

theorem Later.closeStopped (h : Later s s') {reason : String} {o : TaskOutcome}
    (hs : s.CloseStopped reason o) : s'.CloseStopped reason o := by
  obtain ⟨j,hj,hr,ho⟩ := hs
  obtain ⟨hj',hr'⟩ := h.control j hj
  obtain ⟨kind,hp⟩ := outcome_eq_some.mp ho
  exact ⟨j,hj',by rw [hr',hr],outcome_eq_some.mpr ⟨kind,h.stopped j kind o hp⟩⟩

theorem Later.closeRaised (h : Later s s') {reason : String} {e : Exn} (hs : s.CloseRaised reason e) :
    s'.CloseRaised reason e := by
  obtain he | hstop | ⟨htask,hr⟩ := hs
  · exact .inl he
  · exact .inr (.inl (h.closeStopped hstop))
  · obtain ⟨i,hi⟩ := Option.isSome_iff_exists.mp htask
    obtain ⟨hi',hr'⟩ := h.control i hi
    exact .inr (.inr ⟨by simp [hi'],by rwa [hr']⟩)

theorem Later.reported (h : Later s s') {kind : TaskKind} {o : TaskOutcome} (hs : s.Reported kind o) :
    s'.Reported kind o := by
  rcases kind with _ | _ | call | reason | ⟨id,output⟩ | ⟨call,invalid⟩
  case controlledClose =>
    cases o with
    | returned => exact h.published hs
    | raised e => exact ⟨hs.1,hs.2.1,h.owner hs.2.2⟩
  case call =>
    cases call
    case close reason =>
      cases o with
      | returned => exact h.published hs
      | raised e => exact h.closeRaised hs
    all_goals trivial
  all_goals trivial

theorem Move.later (h : Move c b t k s s') : Later s s' where
  published hp := by
    obtain ⟨_,_,hp'⟩ | ⟨_,_,_,hp'⟩ | ⟨_,_,_,_,hp'⟩ | ⟨_,_,_,hp'⟩ := h.terminal_cases
    · rwa [hp']
    · exact hp'
    · rwa [hp']
    · exact hp'
  owner ho := by
    obtain ⟨ho',_⟩ | ⟨_,ho',_⟩ | ⟨_,_,ho',_⟩ | ⟨_,ho',_⟩ := h.terminal_cases
    · rwa [ho']
    · exact ho'
    · simp [ho']
    · rwa [ho']
  control i hi := by
    obtain ⟨ht,hr⟩ | ⟨hn,_⟩ := h.control_cases
    · exact ⟨by rw [ht,hi],hr⟩
    · simp [hn] at hi
  stopped j kind o hp := h.place_kept hp

theorem Stretch.later {a : Action} {m : Prog A Unit} {u : Session A} (h : Stretch c s a t k m u) :
    Later s u := by
  have hframe := h.frame
  refine ⟨?_,?_,fun i hi => ?_,fun j kind o hp => ?_⟩
  · rw [hframe]
    exact id
  · rw [hframe]
    exact id
  · rw [hframe]
    exact ⟨hi,rfl⟩
  · exact (h.place_kept hp).resolve_right fun hh => hh.2.2 o rfl

theorem Running.later_setTask (hr : Running c s t k) {state : TaskState} : Later s (s.setTask t state) where
  published := id
  owner := id
  control i hi := ⟨hi,rfl⟩
  stopped j kind o hp := by
    rw [setTask_place ?_]
    · exact hp
    · rintro rfl
      rw [hr.here] at hp
      simp at hp

theorem CloseInv.put_back {state : TaskState} (hr : Running c s t k) (hs : CloseInv s)
    (ht : ∀ o, state = .finished o → s.Reported k o) : CloseInv (s.setTask t state) := by
  intro j kind o hp
  refine hr.later_setTask.reported ?_
  by_cases hj : j = t
  · subst hj
    rw [setTask_place_self hr.here] at hp
    simp only [Option.some.injEq,Prod.mk.injEq] at hp
    obtain ⟨rfl,rfl⟩ := hp
    exact ht o rfl
  · rw [setTask_place hj] at hp
    exact hs j kind o hp

/-- A close call that returns has waited for the close task, which has ended the stream. -/
theorem CloseInv.returned (hs : CloseInv s) (hp : Settled s) {reason : String}
    (h : s.CloseStopped reason .returned) : s.terminal.published := by
  obtain ⟨j,hj,_,ho⟩ := h
  obtain ⟨reason',state,_,hplace⟩ := hp.closer j hj
  obtain ⟨kind,hk⟩ := outcome_eq_some.mp ho
  rw [hplace] at hk
  simp only [Option.some.injEq,Prod.mk.injEq] at hk
  rw [hk.2] at hplace
  exact hs j _ _ hplace

/-- In some run from `s`, task `t` stops with `o` in the step that leads to `s'`. -/
def StopsIn (c : SessionConfig A) (s : Session A) (t : TaskId) (o : TaskOutcome) (s' : Session A) : Prop :=
  (s' = s ∧ s.outcome t = some o) ∨ ∃ u a, Steps (step c) anyStep s u ∧ u.outcome t = none ∧
    step c u a = some s' ∧ s'.outcome t = some o

theorem StopsIn.reachable {o : TaskOutcome} (h : StopsIn c s t o s') :
    Steps (step c) anyStep s s' ∧ s'.outcome t = some o := by
  obtain ⟨rfl,ho⟩ | ⟨u,a,hst,_,hstep,ho⟩ := h
  · exact ⟨Steps.refl _,ho⟩
  · exact ⟨hst.tail trivial hstep,ho⟩

/-- The state in which a call begins. -/
def begins (s : Session A) (call : Call) (fresh : String) : Session A :=
  { s.useId fresh with tasks := s.tasks ++ [{ kind := .call call, state := .running }] }

theorem outcome_of_place {kind : TaskKind} {o : TaskOutcome} (h : s.place t = some (kind,.finished o)) :
    s.outcome t = some o := outcome_eq_some.mpr ⟨kind,h⟩

theorem outcome_none_of_place {kind : TaskKind} {state : TaskState} (h : s.place t = some (kind,state))
    (hs : ∀ o, state ≠ .finished o) : s.outcome t = none := by
  cases hout : s.outcome t with
  | none => rfl
  | some o =>
    obtain ⟨kind',hk⟩ := outcome_eq_some.mp hout
    rw [h] at hk
    simp only [Option.some.injEq,Prod.mk.injEq] at hk
    exact absurd hk.2 (hs o)

section

open QwenOmni (sample sampleReady sampleReady_reachable sampleRun sampleRun_step)

end

end Session
end HarnessSdk
