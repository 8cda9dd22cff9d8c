import Mathlib.Data.List.Induction

namespace Freja.Runs

section

variable (step : σ → ι → σ) (condition : σ → ι → Prop)

-- Every input meets a condition on the state it comes to.
def Along : σ → List ι → Prop
  | _,[] => True
  | state,input :: rest => condition state input ∧ Along (step state input) rest

instance along_decidable [∀ state input, Decidable (condition state input)] :
    (state : σ) → (inputs : List ι) → Decidable (Along step condition state inputs)
  | _,[] => .isTrue trivial
  | state,input :: rest => @instDecidableAnd _ _ _ (along_decidable (step state input) rest)

end

variable {step : σ → ι → σ} {condition : σ → ι → Prop} {invariant : σ → Prop}

-- What holds at the start and is kept under the condition holds all along.
theorem along_invariant (kept : ∀ state input, invariant state → condition state input → invariant (step state input))
    (start : invariant state) (along : Along step condition state inputs) : invariant (inputs.foldl step state) := by
  induction inputs generalizing state with
  | nil => exact start
  | cons input rest ih => exact ih (kept state input start along.1) along.2

theorem run_invariant (kept : ∀ state input, invariant state → invariant (step state input)) (start : invariant state)
    (inputs : List ι) : invariant (inputs.foldl step state) := by
  induction inputs generalizing state with
  | nil => exact start
  | cons input rest ih => exact ih (kept state input start)

end Freja.Runs
