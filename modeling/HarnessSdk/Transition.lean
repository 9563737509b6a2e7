import Mathlib.Logic.Relation
import Mathlib.Order.Basic

/-!
# Transition systems given by a partial step function

A system is a function `step : σ → α → Option σ`: in state `s` the action `a` is
either refused (`none`) or leads to one next state. Runs may be restricted to the
steps that satisfy a side condition `ok`; with no restriction `ok` is `anyStep`.
-/

namespace HarnessSdk
namespace Transition

variable {σ τ α β : Type*}

/-- The condition that allows every step. -/
def anyStep : σ → α → Prop := fun _ _ => True

/-- One step of the system that satisfies the side condition. -/
def Next (step : σ → α → Option σ) (ok : σ → α → Prop) (s s' : σ) : Prop :=
  ∃ a, ok s a ∧ step s a = some s'

/-- Some run whose steps all satisfy `ok` leads from `s` to `s'`. -/
def Steps (step : σ → α → Option σ) (ok : σ → α → Prop) : σ → σ → Prop :=
  Relation.ReflTransGen (Next step ok)

/-- `s` is reached from an initial state by steps that all satisfy `ok`. -/
def ReachableWith (step : σ → α → Option σ) (ok : σ → α → Prop) (init : σ → Prop) (s : σ) : Prop :=
  ∃ s₀, init s₀ ∧ Steps step ok s₀ s

/-- Reachability with no condition on the steps. -/
abbrev Reachable (step : σ → α → Option σ) (init : σ → Prop) : σ → Prop :=
  ReachableWith step anyStep init

section Runs

variable {step : σ → α → Option σ} {ok ok' : σ → α → Prop} {init : σ → Prop}

theorem Steps.refl (s : σ) : Steps step ok s s := Relation.ReflTransGen.refl

theorem Steps.trans {s t u : σ} (h : Steps step ok s t) (hh : Steps step ok t u) :
    Steps step ok s u := Relation.ReflTransGen.trans h hh

theorem Steps.tail {s t u : σ} {a : α} (h : Steps step ok s t) (ha : ok t a)
    (hs : step t a = some u) : Steps step ok s u :=
  Relation.ReflTransGen.tail h ⟨a,ha,hs⟩

theorem Steps.single {s t : σ} {a : α} (ha : ok s a) (hs : step s a = some t) :
    Steps step ok s t := (Steps.refl s).tail ha hs

theorem Steps.mono (hok : ∀ s a, ok s a → ok' s a) {s t : σ} (h : Steps step ok s t) :
    Steps step ok' s t :=
  Relation.ReflTransGen.mono (fun _ _ ⟨a,ha,hs⟩ => ⟨a,hok _ a ha,hs⟩) _ _ h

theorem ReachableWith.of_init {s : σ} (h : init s) : ReachableWith step ok init s :=
  ⟨s,h,Steps.refl s⟩

theorem ReachableWith.steps {s t : σ} (h : ReachableWith step ok init s)
    (hst : Steps step ok s t) : ReachableWith step ok init t := by
  obtain ⟨s₀,h₀,hr⟩ := h
  exact ⟨s₀,h₀,hr.trans hst⟩

theorem ReachableWith.tail {s t : σ} {a : α} (h : ReachableWith step ok init s) (ha : ok s a)
    (hs : step s a = some t) : ReachableWith step ok init t :=
  h.steps (Steps.single ha hs)

theorem ReachableWith.mono (hok : ∀ s a, ok s a → ok' s a) {s : σ}
    (h : ReachableWith step ok init s) : ReachableWith step ok' init s := by
  obtain ⟨s₀,h₀,hr⟩ := h
  exact ⟨s₀,h₀,hr.mono hok⟩

/-- A condition on the steps only removes runs. -/
theorem ReachableWith.reachable {s : σ} (h : ReachableWith step ok init s) :
    Reachable step init s := h.mono fun _ _ _ => trivial

/-- The invariant rule along a run. -/
theorem Steps.invariant {I : σ → Prop} (hI : ∀ s a s', I s → ok s a → step s a = some s' → I s')
    {s t : σ} (h : Steps step ok s t) (hs : I s) : I t := by
  induction h with
  | refl => exact hs
  | tail hst hn ih =>
    obtain ⟨a,ha,hh⟩ := hn
    exact hI _ a _ ih ha hh

/-- The invariant rule: what holds initially and is kept by every allowed step
holds in every reachable state. -/
theorem ReachableWith.invariant {I : σ → Prop} (h₀ : ∀ s, init s → I s)
    (hI : ∀ s a s', I s → ok s a → step s a = some s' → I s') {s : σ}
    (h : ReachableWith step ok init s) : I s := by
  obtain ⟨s₀,hi,hr⟩ := h
  exact hr.invariant hI (h₀ s₀ hi)

/-- The invariant rule on top of invariants that are already known. -/
theorem ReachableWith.invariant_with {J I : σ → Prop}
    (hJ : ∀ s, ReachableWith step ok init s → J s) (h₀ : ∀ s, init s → I s)
    (hI : ∀ s a s', J s → I s → ok s a → step s a = some s' → I s') {s : σ}
    (h : ReachableWith step ok init s) : I s := by
  have hh : ReachableWith step ok init s ∧ I s := by
    obtain ⟨s₀,hi,hr⟩ := h
    refine hr.invariant (I := fun s => ReachableWith step ok init s ∧ I s) ?_ ⟨.of_init hi,h₀ s₀ hi⟩
    rintro s a s' ⟨hreach,hs⟩ ha hstep
    exact ⟨hreach.tail ha hstep,hI s a s' (hJ s hreach) hs ha hstep⟩
  exact hh.2

/-- A quantity that no allowed step decreases does not decrease along a run. -/
theorem Steps.monotone {γ : Type*} [Preorder γ] (f : σ → γ)
    (hf : ∀ s a s', ok s a → step s a = some s' → f s ≤ f s') {s t : σ}
    (h : Steps step ok s t) : f s ≤ f t :=
  h.invariant (I := fun u => f s ≤ f u) (fun u a u' hu ha hs => hu.trans (hf u a u' ha hs)) le_rfl

end Runs

section Execution

variable (step : σ → α → Option σ)

/-- Perform a list of actions, refusing as soon as one is refused. -/
def exec (s : σ) : List α → Option σ
  | [] => some s
  | a :: as => (step s a).bind fun t => exec t as

/-- The actions lead from one state to the other by steps that all satisfy `ok`. -/
def Performs (ok : σ → α → Prop) (s : σ) (as : List α) (t : σ) : Prop :=
  match as with
  | [] => s = t
  | a :: as => ok s a ∧ ∃ u, step s a = some u ∧ Performs ok u as t

theorem Performs.invariant {ok : σ → α → Prop} {I : σ → Prop}
    (hI : ∀ s a s', I s → ok s a → step s a = some s' → I s') {s t : σ} {as : List α}
    (h : Performs step ok s as t) (hs : I s) : I t := by
  induction as generalizing s with
  | nil =>
    obtain rfl : s = t := h
    exact hs
  | cons a as ih =>
    obtain ⟨ha,u,hu,ht⟩ := h
    exact ih ht (hI s a u hs ha hu)

theorem exec_steps {s t : σ} {as : List α} (h : exec step s as = some t) :
    Steps step anyStep s t := by
  induction as generalizing s with
  | nil =>
    obtain rfl : s = t := by simpa [exec] using h
    exact Steps.refl s
  | cons a as ih =>
    obtain ⟨u,hu,ht⟩ := Option.bind_eq_some_iff.mp h
    exact (Steps.single trivial hu).trans (ih ht)

theorem exec_append (s : σ) (as bs : List α) :
    exec step s (as ++ bs) = (exec step s as).bind fun t => exec step t bs := by
  induction as generalizing s with
  | nil => rfl
  | cons a as ih => simp [exec,ih,Option.bind_assoc]

theorem exec_reachable {init : σ → Prop} {s t : σ} {as : List α} (hs : init s)
    (h : exec step s as = some t) : Reachable step init t := ⟨s,hs,exec_steps step h⟩

/-- The steps that a check lets through. -/
def guarded (check : σ → α → Bool) (s : σ) (a : α) : Option σ := if check s a then step s a else none

theorem guarded_steps {check : σ → α → Bool} {ok : σ → α → Prop} (hok : ∀ s a, check s a → ok s a) {s t : σ}
    (h : Steps (guarded step check) anyStep s t) : Steps step ok s t := by
  induction h with
  | refl => exact Steps.refl s
  | tail _ hn ih =>
    obtain ⟨a,_,hs⟩ := hn
    simp only [guarded,Option.ite_none_right_eq_some] at hs
    exact ih.tail (hok _ _ hs.1) hs.2

theorem guarded_performs {check : σ → α → Bool} {ok : σ → α → Prop} (hok : ∀ s a, check s a → ok s a) {s t : σ}
    {as : List α} (h : exec (guarded step check) s as = some t) : Performs step ok s as t := by
  induction as generalizing s with
  | nil => exact Option.some.inj h
  | cons a as ih =>
    obtain ⟨u,hu,ht⟩ := Option.bind_eq_some_iff.mp h
    simp only [guarded,Option.ite_none_right_eq_some] at hu
    exact ⟨hok s a hu.1,u,hu.2,ih ht⟩

theorem exec_guarded {check : σ → α → Bool} {s t : σ} {as : List α} (h : exec (guarded step check) s as = some t) :
    exec step s as = some t := by
  induction as generalizing s with
  | nil => exact h
  | cons a as ih =>
    obtain ⟨u,hu,ht⟩ := Option.bind_eq_some_iff.mp h
    simp only [guarded,Option.ite_none_right_eq_some] at hu
    simp only [exec,hu.2,Option.bind_some]
    exact ih ht

theorem exec_reachableWith {init : σ → Prop} {check : σ → α → Bool} {ok : σ → α → Prop}
    (hok : ∀ s a, check s a → ok s a) {s t : σ} {as : List α} (hs : init s)
    (h : exec (guarded step check) s as = some t) : ReachableWith step ok init t :=
  ⟨s,hs,guarded_steps step hok (exec_steps _ h)⟩

end Execution

/-- Every concrete step is matched by a run of the abstract system between the
images of its two states. -/
structure Simulation (step : σ → α → Option σ) (init : σ → Prop) (step' : τ → β → Option τ)
    (init' : τ → Prop) (f : σ → τ) : Prop where
  start : ∀ s, init s → init' (f s)
  follow : ∀ s a t, step s a = some t → Steps step' anyStep (f s) (f t)

theorem Simulation.reachable {step : σ → α → Option σ} {init : σ → Prop}
    {step' : τ → β → Option τ} {init' : τ → Prop} {f : σ → τ}
    (h : Simulation step init step' init' f) {s : σ} (hs : Reachable step init s) :
    Reachable step' init' (f s) :=
  ReachableWith.invariant (I := fun s => Reachable step' init' (f s))
    (fun s hi => ReachableWith.of_init (h.start s hi))
    (fun s a t hr _ hstep => ReachableWith.steps hr (h.follow s a t hstep)) hs

end Transition
end HarnessSdk
