import Mathlib.Data.List.Basic

namespace Freja.Recognizer

-- What one element of the input does to a recognizer.
inductive Move (σ : Type u) where
  | more (state : σ)
  | accept
  | reject

-- What is left to hold after a move.
def Move.Leaves (later : σ → Prop) (accepted : Prop) : Move σ → Prop
  | .more next => later next
  | .accept => accepted
  | .reject => False

variable {σ : Type u} {α : Type v} (step : σ → α → Move σ)

-- The input is accepted with its last element, not before.
def Accepts : σ → List α → Prop
  | _,[] => False
  | state,element :: rest => (step state element).Leaves (fun next => Accepts next rest) (rest = [])

-- The input is neither accepted nor rejected and leads to a goal.
def Leads (goal : σ → Prop) : σ → List α → Prop
  | state,[] => goal state
  | state,element :: rest => (step state element).Leaves (fun next => Leads goal next rest) False

variable {step} {valid : σ → Prop} {language : σ → List α → Prop}

-- The accepted inputs are those of any family of languages that the recognizer
-- takes apart element by element.
theorem accepts_iff (keeps : ∀ state element next, valid state → step state element = .more next → valid next)
    (proper : ∀ state, valid state → ¬ language state [])
    (unfolds : ∀ state element rest, valid state → (language state (element :: rest) ↔
      (step state element).Leaves (fun next => language next rest) (rest = [])))
    (state : σ) (input : List α) (start : valid state) : Accepts step state input ↔ language state input := by
  induction input generalizing state with
  | nil => exact ⟨fun no => no.elim,fun ended => proper state start ended⟩
  | cons element rest ih =>
      rw [unfolds state element rest start,Accepts]
      cases moved : step state element with
      | more next => exact ih next (keeps state element next start moved)
      | accept | reject => exact Iff.rfl

theorem leads_iff (goal : σ → Prop)
    (keeps : ∀ state element next, valid state → step state element = .more next → valid next)
    (ends : ∀ state, valid state → (language state [] ↔ goal state))
    (unfolds : ∀ state element rest, valid state → (language state (element :: rest) ↔
      (step state element).Leaves (fun next => language next rest) False))
    (state : σ) (input : List α) (start : valid state) : Leads step goal state input ↔ language state input := by
  induction input generalizing state with
  | nil => exact (ends state start).symm
  | cons element rest ih =>
      rw [unfolds state element rest start,Leads]
      cases moved : step state element with
      | more next => exact ih next (keeps state element next start moved)
      | accept | reject => exact Iff.rfl

end Freja.Recognizer
