import Freja.Foundation.Effect

namespace Freja.Effect

theorem except_bind_ok {first : Except ε α} {next : α → Except ε β} (done : first >>= next = .ok value) :
    ∃ middle, first = .ok middle ∧ next middle = .ok value := by
  cases first with
  | error => cases done
  | ok middle => exact ⟨middle,rfl,done⟩

theorem except_bind_iff {first : Except ε α} {next : α → Except ε β} :
    first >>= next = .ok result ↔ ∃ value, first = .ok value ∧ next value = .ok result := by
  refine ⟨except_bind_ok,?_⟩
  rintro ⟨value,same,done⟩
  rw [same]
  exact done

-- Two outcomes side by side: the same error, or related values.
inductive Parallel (values : α → β → Prop) : Except ε α → Except ε β → Prop
  | failed (error : ε) : Parallel values (.error error) (.error error)
  | done (same : values value other) : Parallel values (.ok value) (.ok other)

namespace Parallel

variable {values : α → β → Prop} {left : Except ε α} {right : Except ε β}

theorem bind {next : α → Except ε γ} {nextRight : β → Except ε δ} {later : γ → δ → Prop}
    (start : Parallel values left right)
    (rest : ∀ value other, values value other → Parallel later (next value) (nextRight other)) :
    Parallel later (left >>= next) (right >>= nextRight) := by
  cases start with
  | failed error => exact .failed error
  | done same => exact rest _ _ same

theorem map {change : α → γ} {changeRight : β → δ} {later : γ → δ → Prop} (start : Parallel values left right)
    (keeps : ∀ value other, values value other → later (change value) (changeRight other)) :
    Parallel later (left.map change) (right.map changeRight) := by
  cases start with
  | failed error => exact .failed error
  | done same => exact .done (keeps _ _ same)

theorem mapError (start : Parallel values left right) (change : ε → ζ) :
    Parallel values (left.mapError change) (right.mapError change) := by
  cases start with
  | failed error => exact .failed (change error)
  | done same => exact .done same

theorem same (outcome : Except ε α) : Parallel Eq outcome outcome := by
  cases outcome with
  | error error => exact .failed error
  | ok => exact .done rfl

end Parallel

-- Two runs side by side: from related states both end alike, in related states.
def Together (left : EStateM ε σ α) (right : EStateM ε σ β) (states : σ → σ → Prop) (values : α → β → Prop) : Prop :=
  ∀ first second, states first second →
    match left.run first,right.run second with
    | .ok value after,.ok other behind => values value other ∧ states after behind
    | .error _ after,.error _ behind => states after behind
    | _,_ => False

variable {left : EStateM ε σ α} {right : EStateM ε σ β} {states : σ → σ → Prop} {values : α → β → Prop}

theorem together_pure (same : values value other) :
    Together (pure value : EStateM ε σ α) (pure other : EStateM ε σ β) states values := by
  intro first second related
  exact ⟨same,related⟩

theorem together_throw (error other : ε) :
    Together (throw error : EStateM ε σ α) (throw other : EStateM ε σ β) states values := by
  intro first second related
  exact related

theorem together_ofExcept {first : Except ε α} {second : Except ε β} (parallel : Parallel values first second) :
    Together (MonadExcept.ofExcept first : EStateM ε σ α) (MonadExcept.ofExcept second) states values := by
  cases parallel with
  | failed error => exact together_throw error error
  | done same => exact together_pure same

theorem together_get : Together (get : EStateM ε σ σ) get states states := fun _ _ related => ⟨related,related⟩

theorem together_modify {change other : σ → σ} (keeps : ∀ first second, states first second →
    states (change first) (other second)) :
    Together (modify change : EStateM ε σ PUnit) (modify other) states (fun _ _ => True) :=
  fun first second related => ⟨trivial,keeps first second related⟩

theorem together_weaken {wider : α → β → Prop} (steps : Together left right states values)
    (weaker : ∀ value other, values value other → wider value other) : Together left right states wider := by
  intro first second related
  have ended := steps first second related
  revert ended
  cases left.run first <;> cases right.run second
  · exact fun ended => ⟨weaker _ _ ended.1,ended.2⟩
  · exact False.elim
  · exact False.elim
  · exact id

theorem together_bind {next : α → EStateM ε σ γ} {nextRight : β → EStateM ε σ δ} {later : γ → δ → Prop}
    (start : Together left right states values)
    (rest : ∀ value other, values value other → Together (next value) (nextRight other) states later) :
    Together (left >>= next) (right >>= nextRight) states later := by
  intro first second related
  have begun := start first second related
  cases done : left.run first with
  | ok value middle =>
      cases doneToo : right.run second with
      | ok other between =>
          rw [done,doneToo] at begun
          rw [run_bind_ok done,run_bind_ok doneToo]
          exact rest value other begun.1 middle between begun.2
      | error =>
          rw [done,doneToo] at begun
          exact begun.elim
  | error error =>
      cases doneToo : right.run second with
      | ok =>
          rw [done,doneToo] at begun
          exact begun.elim
      | error =>
          rw [done,doneToo] at begun
          rw [run_bind_error done,run_bind_error doneToo]
          exact begun

theorem together_states (steps : Together left right states values) (related : states first second) :
    states (stateOf (left.run first)) (stateOf (right.run second)) := by
  have ended := steps first second related
  revert ended
  cases left.run first <;> cases right.run second
  · exact And.right
  · exact False.elim
  · exact False.elim
  · exact id

-- A step that only the first run takes, and that cannot fail.
theorem together_left {program : EStateM ε σ γ} {next : γ → EStateM ε σ α}
    (quiet : ∀ first second, states first second → ∃ value after, program.run first = .ok value after ∧ states after second)
    (rest : ∀ value, Together (next value) right states values) :
    Together (program >>= next) right states values := by
  intro first second related
  obtain ⟨value,after,done,still⟩ := quiet first second related
  rw [run_bind_ok done]
  exact rest value after second still

theorem together_answers {view : α → Option γ} {viewRight : β → Option γ} (steps : Together left right states values)
    (same : ∀ value other, values value other → view value = viewRight other) (related : states first second) :
    (answerOf (left.run first)).bind view = (answerOf (right.run second)).bind viewRight := by
  have ended := steps first second related
  revert ended
  cases left.run first <;> cases right.run second
  · exact fun ended => same _ _ ended.1
  · exact False.elim
  · exact False.elim
  · exact fun _ => rfl

end Freja.Effect
