import HarnessSdk.Transition

/-!
# What every run comes to

A property is inevitable in a state if it holds there, or if some step can be taken and it is inevitable after every step
that can: no run stops without it, and none goes on for ever without it.
-/

namespace HarnessSdk
namespace Transition

variable {σ α : Type*}

inductive Inevitable (step : σ → α → Option σ) (ok : σ → α → Prop) (P : σ → Prop) : σ → Prop
  | now {s : σ} (h : P s) : Inevitable step ok P s
  | next {s : σ} (hsome : ∃ t, Next step ok s t) (hall : ∀ t, Next step ok s t → Inevitable step ok P t) :
    Inevitable step ok P s

section Measures

variable {step : σ → α → Option σ} {ok : σ → α → Prop} {P I : σ → Prop}

/-- The rule of a measure: as long as the property does not hold, there is a step, and every step keeps the invariant and
lowers the measure. -/
theorem inevitable_of_measure (f : σ → ℕ) (hsome : ∀ s, I s → ¬ P s → ∃ t, Next step ok s t)
    (hlower : ∀ s t, I s → ¬ P s → Next step ok s t → I t ∧ f t < f s) {s : σ} (h : I s) : Inevitable step ok P s := by
  induction hn : f s using Nat.strongRecOn generalizing s with
  | ind n ih =>
    by_cases hP : P s
    · exact .now hP
    · apply Inevitable.next (hsome s h hP)
      intro t hnext
      obtain ⟨hI,hlt⟩ := hlower s t h hP hnext
      exact ih (f t) (hn ▸ hlt) hI rfl

end Measures

section Rules

variable {step : σ → α → Option σ} {ok : σ → α → Prop} {P Q : σ → Prop} {s : σ}

/-- What is inevitable after something inevitable is inevitable. -/
theorem Inevitable.bind (h : Inevitable step ok P s) (hPQ : ∀ t, P t → Inevitable step ok Q t) : Inevitable step ok Q s := by
  induction h with
  | now h => exact hPQ _ h
  | next hsome _ ih => exact .next hsome ih

/-- Every run takes the same step. -/
theorem Inevitable.only {t : σ} (hsome : ∃ a, ok s a) (hstep : ∀ a, step s a = some t) (h : Inevitable step ok P t) :
    Inevitable step ok P s := by
  obtain ⟨a,ha⟩ := hsome
  refine .next ⟨t,a,ha,hstep a⟩ ?_
  rintro t' ⟨a',_,hstep'⟩
  rw [hstep a'] at hstep'
  rw [← Option.some.inj hstep']
  exact h

end Rules

end Transition
end HarnessSdk
