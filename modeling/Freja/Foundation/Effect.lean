import Mathlib.Data.List.Basic

namespace Freja.Effect

-- What a program does from a state: its answer or its error, each together with
-- the state it leaves behind.
def Ensures (program : EStateM ε σ α) (state : σ) (answer : α → σ → Prop) (broken : ε → σ → Prop) : Prop :=
  match program.run state with
  | .ok value after => answer value after
  | .error error after => broken error after

variable {program : EStateM ε σ α} {next : α → EStateM ε σ β} {state after : σ}

theorem run_bind_ok (done : program.run state = .ok first middle) : (program >>= next).run state = (next first).run middle := by
  change EStateM.bind program next state = _
  change program state = _ at done
  unfold EStateM.bind
  rw [done]
  rfl

theorem run_bind_error (stopped : program.run state = .error error middle) :
    (program >>= next).run state = .error error middle := by
  change EStateM.bind program next state = _
  change program state = _ at stopped
  unfold EStateM.bind
  rw [stopped]

theorem bind_ok : (program >>= next).run state = .ok value after ↔
    ∃ first middle, program.run state = .ok first middle ∧ (next first).run middle = .ok value after := by
  change (match program.run state with
    | .ok first middle => (next first).run middle
    | .error error middle => .error error middle) = _ ↔ _
  cases program.run state with
  | ok first middle =>
      constructor
      · exact fun done => ⟨first,middle,rfl,done⟩
      · rintro ⟨_,_,same,done⟩
        cases same
        exact done
  | error => exact ⟨nofun,fun ⟨_,_,same,_⟩ => by cases same⟩

theorem ensures_bind (steps : Ensures program state (fun value middle => Ensures (next value) middle answer broken) broken) :
    Ensures (program >>= next) state answer broken := by
  unfold Ensures at steps ⊢
  change (match (match program.run state with
    | .ok first middle => (next first).run middle
    | .error error middle => .error error middle) with
    | .ok value after => answer value after
    | .error error after => broken error after)
  revert steps
  cases program.run state with
  | ok | error => exact id

theorem ensures_pure (holds : answer value state) : Ensures (pure value : EStateM ε σ α) state answer broken := holds

theorem ensures_throw (holds : broken error state) :
    Ensures (throw error : EStateM ε σ α) state answer broken := holds

theorem ensures_any (program : EStateM ε σ α) (state : σ) :
    Ensures program state (fun _ _ => True) (fun _ _ => True) := by
  unfold Ensures
  split <;> trivial

theorem ensures_weaken (steps : Ensures program state answer broken)
    (onAnswer : ∀ value after, answer value after → wider value after)
    (onError : ∀ error after, broken error after → widerBroken error after) :
    Ensures program state wider widerBroken := by
  unfold Ensures at steps ⊢
  revert steps
  cases program.run state with
  | ok value after => exact onAnswer value after
  | error error after => exact onError error after

theorem ensures_then (steps : Ensures program state between broken)
    (continues : ∀ value middle, between value middle → Ensures (next value) middle answer broken) :
    Ensures (program >>= next) state answer broken :=
  ensures_bind (ensures_weaken steps continues (fun _ _ stopped => stopped))

theorem ensures_foldlM {step : β → ι → EStateM ε σ β} {invariant : β → σ → Prop} {items : List ι}
    (steps : ∀ value state item, invariant value state → Ensures (step value item) state invariant broken)
    (start : invariant value state) : Ensures (items.foldlM step value) state invariant broken := by
  induction items generalizing value state with
  | nil => exact ensures_pure start
  | cons item rest ih =>
      rw [List.foldlM_cons]
      refine ensures_then (steps value state item start) ?_
      intro next after kept
      exact ih kept

-- An error of the attempted program becomes an answer.
def attempt {ε σ α : Type u} (program : EStateM ε σ α) : EStateM ε σ (Except ε α) := fun state =>
  match program.run state with
  | .ok value after => .ok (.ok value) after
  | .error error after => .ok (.error error) after

theorem attempt_run {ε σ α : Type u} (program : EStateM ε σ α) (state : σ) :
    (attempt program).run state = match program.run state with
      | .ok value after => .ok (.ok value) after
      | .error error after => .ok (.error error) after := rfl

theorem ensures_attempt {ε σ α : Type u} {program : EStateM ε σ α} {state : σ} {answer : α → σ → Prop}
    {broken : ε → σ → Prop} (steps : Ensures program state answer broken) :
    Ensures (attempt program) state
      (fun result after => match result with
        | .ok value => answer value after
        | .error error => broken error after)
      (fun _ _ => False) := by
  unfold Ensures at steps ⊢
  rw [attempt_run]
  revert steps
  cases program.run state with
  | ok | error => exact id

-- Two facts about one run that cannot fail hold of one outcome.
theorem ensures_meet (steps : Ensures program state answer broken)
    (total : Ensures program state other (fun _ _ => False)) :
    ∃ value after, answer value after ∧ other value after := by
  unfold Ensures at steps total
  revert steps total
  cases program.run state with
  | ok value after => exact fun first second => ⟨value,after,first,second⟩
  | error => exact fun _ no => no.elim

theorem ensures_total (total : Ensures program state answer (fun _ _ => False)) :
    ∃ value after, program.run state = .ok value after ∧ answer value after := by
  unfold Ensures at total
  revert total
  cases program.run state with
  | ok value after => exact fun holds => ⟨value,after,rfl,holds⟩
  | error => exact fun no => no.elim

theorem ensures_answer (steps : Ensures program state answer broken) (done : program.run state = .ok value after) :
    answer value after := by
  unfold Ensures at steps
  rwa [done] at steps

theorem ensures_broken (steps : Ensures program state answer broken) (stopped : program.run state = .error error after) :
    broken error after := by
  unfold Ensures at steps
  rwa [stopped] at steps

theorem ensures_ok (done : program.run state = .ok value after) (holds : answer value after) :
    Ensures program state answer broken := by
  unfold Ensures
  rw [done]
  exact holds

theorem ensures_error (stopped : program.run state = .error error after) (holds : broken error after) :
    Ensures program state answer broken := by
  unfold Ensures
  rw [stopped]
  exact holds

def stateOf : EStateM.Result ε σ α → σ
  | .ok _ after => after
  | .error _ after => after

-- What holds behind a program, to whatever end it comes.
abbrev Leaves (program : EStateM ε σ α) (state : σ) (property : σ → Prop) : Prop :=
  Ensures program state (fun _ after => property after) (fun _ after => property after)

theorem ensures_state {property : σ → Prop} (steps : Leaves program state property) :
    property (stateOf (program.run state)) := by
  unfold Leaves Ensures at steps
  revert steps
  cases program.run state with
  | ok | error => exact id

theorem mapError_ok {outcome : Except ε α} {change : ε → δ} : outcome.mapError change = .ok value ↔ outcome = .ok value := by
  cases outcome with
  | error => exact ⟨nofun,nofun⟩
  | ok => exact ⟨fun same => by cases same; rfl,fun same => by cases same; rfl⟩

-- From here on runs are followed by the rules above, not by evaluation.
attribute [irreducible] Ensures

def answerOf : EStateM.Result ε σ α → Option α
  | .ok value _ => some value
  | .error _ _ => none

theorem answerOf_ok {result : EStateM.Result ε σ α} (answered : answerOf result = some value) :
    ∃ after, result = .ok value after := by
  cases result with
  | ok found after =>
      cases answered
      exact ⟨after,rfl⟩
  | error => cases answered

theorem answerOf_run {result : EStateM.Result ε σ α} (answered : (answerOf result).isSome = true) (other : α) :
    result = .ok ((answerOf result).getD other) (stateOf result) := by
  cases result with
  | ok => rfl
  | error => cases answered

theorem answerOf_done {result : EStateM.Result ε σ Unit} (answered : (answerOf result).isSome = true) :
    result = .ok () (stateOf result) := by
  cases result with
  | ok => rfl
  | error => cases answered

theorem answerOf_map {result : EStateM.Result ε σ α} (answered : (answerOf result).map view = some seen) :
    ∃ value after, result = .ok value after ∧ view value = seen := by
  cases result with
  | ok found after => exact ⟨found,after,rfl,Option.some.inj answered⟩
  | error => cases answered

end Freja.Effect
