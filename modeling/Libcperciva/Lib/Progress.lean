import Mathlib.Tactic.Common

/-!
# Goals that are reached on every path

A machine takes one step for each input.  A goal is inevitable in a state if
every sequence of allowed inputs leads to it, with no input that the machine
is stuck at before.
-/

namespace Libcperciva.Lib.Progress

variable {σ ι : Type*}

/-- Every path of allowed inputs leads to the goal. -/
inductive Inevitable (step : σ → ι → Option σ) (allowed : σ → ι → Prop)
    (goal : σ → Prop) : σ → Prop where
  | reached {s : σ} (isGoal : goal s) : Inevitable step allowed goal s
  | moves {s : σ} (notStuck : ∀ i, allowed s i → step s i ≠ none)
      (next : ∀ i after, allowed s i → step s i = some after →
        Inevitable step allowed goal after) :
      Inevitable step allowed goal s

variable {step : σ → ι → Option σ} {allowed : σ → ι → Prop}
  {goal : σ → Prop}

/--
A goal is inevitable if every step from a waiting state reaches it, or leads
to a waiting state of a lower rank.
-/
theorem inevitable_of_rank (waiting : σ → Prop) (rank : σ → Nat)
    (step_waiting : ∀ s i, waiting s → allowed s i →
      ∃ after, step s i = some after ∧
        (goal after ∨ waiting after ∧ rank after < rank s))
    {s : σ} (isWaiting : waiting s) : Inevitable step allowed goal s := by
  induction ranks : rank s using Nat.strongRecOn generalizing s with
  | ind n lower =>
      subst ranks
      refine Inevitable.moves ?_ ?_
      · intro i isAllowed stuck
        obtain ⟨after, result, _⟩ := step_waiting s i isWaiting isAllowed
        rw [stuck] at result
        exact Option.some_ne_none after result.symm
      · intro i after isAllowed result
        obtain ⟨after', result', isGoal | ⟨stillWaiting, less⟩⟩ :=
          step_waiting s i isWaiting isAllowed
        · obtain rfl := Option.some.inj (result.symm.trans result')
          exact Inevitable.reached isGoal
        · obtain rfl := Option.some.inj (result.symm.trans result')
          exact lower _ less stillWaiting rfl

end Libcperciva.Lib.Progress
