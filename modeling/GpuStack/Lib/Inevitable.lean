import Mathlib

/-!
# Lib/Inevitable — a goal that every run reaches

`Inevitably step goal s` says that every run from `s` gets to the goal and none gets stuck before it.  A
number that every step lowers, with a step to take wherever the goal is not reached, gives it
(`of_measure`); and it gives a run to the goal (`exists_run`).
-/

universe u

variable {σ : Type u} {step : σ → σ → Prop} {goal : σ → Prop} {s : σ}

/-- Every run reaches the goal. -/
inductive Inevitably (step : σ → σ → Prop) (goal : σ → Prop) : σ → Prop
  | done (s : σ) (h : goal s) : Inevitably step goal s
  | next (s s' : σ) (hstep : step s s') (h : ∀ s', step s s' → Inevitably step goal s') :
      Inevitably step goal s

namespace Inevitably

theorem exists_run (h : Inevitably step goal s) : ∃ s', Relation.ReflTransGen step s s' ∧ goal s' := by
  induction h with
  | done s h => exact ⟨s, .refl, h⟩
  | next s s' hstep h ih =>
    obtain ⟨s'', hrun, hgoal⟩ := ih s' hstep
    exact ⟨s'', .head hstep hrun, hgoal⟩

/-- **A goal nothing can go on without**: short of it there is a step, and every step keeps `inv` and
lowers `rank`. -/
theorem of_measure (inv : σ → Prop) (rank : σ → ℕ)
    (hprogress : ∀ s, inv s → ¬ goal s → ∃ s', step s s')
    (hstep : ∀ s s', inv s → ¬ goal s → step s s' → inv s' ∧ rank s' < rank s) (hs : inv s) :
    Inevitably step goal s := by
  induction hn : rank s using Nat.strong_induction_on generalizing s with
  | _ n ih =>
    by_cases hgoal : goal s
    · exact .done s hgoal
    · obtain ⟨s', hs'⟩ := hprogress s hs hgoal
      refine .next s s' hs' fun s'' hs'' => ?_
      obtain ⟨hinv, hlt⟩ := hstep s s'' hs hgoal hs''
      exact ih (rank s'') (hn ▸ hlt) hinv rfl

end Inevitably
