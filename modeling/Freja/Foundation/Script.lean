import Freja.Foundation.Effect

namespace Freja.Effect

-- What a program says and how it ends when nothing interrupts it.
structure Script (ω ε α : Type) where
  events : List ω
  outcome : Except ε α

namespace Script

def bind (script : Script ω ε α) (next : α → Script ω ε β) : Script ω ε β :=
  match script.outcome with
  | .ok value => ⟨script.events ++ (next value).events,(next value).outcome⟩
  | .error error => ⟨script.events,.error error⟩

instance : Monad (Script ω ε) where
  pure value := ⟨[],.ok value⟩
  bind := bind

instance : MonadExceptOf ε (Script ω ε) where
  throw error := ⟨[],.error error⟩
  tryCatch script handler :=
    match script.outcome with
    | .ok _ => script
    | .error error => ⟨script.events ++ (handler error).events,(handler error).outcome⟩

def say (event : ω) : Script ω ε Unit := ⟨[event],.ok ()⟩

def ofExcept (outcome : Except ε α) : Script ω ε α := ⟨[],outcome⟩

variable {script : Script ω ε α} {next : α → Script ω ε β}

theorem bind_outcome_ok (answered : script.outcome = .ok value) :
    script >>= next = ⟨script.events ++ (next value).events,(next value).outcome⟩ := by
  change bind script next = _
  unfold bind
  rw [answered]

theorem bind_outcome_error (stopped : script.outcome = .error error) :
    script >>= next = ⟨script.events,.error error⟩ := by
  change bind script next = _
  unfold bind
  rw [stopped]

@[simp] theorem say_bind (event : ω) (next : Unit → Script ω ε β) :
    say event >>= next = ⟨event :: (next ()).events,(next ()).outcome⟩ := rfl

@[simp] theorem pure_events (value : α) : (pure value : Script ω ε α).events = [] := rfl

@[simp] theorem pure_outcome (value : α) : (pure value : Script ω ε α).outcome = .ok value := rfl

@[simp] theorem throw_events (error : ε) : (throw error : Script ω ε α).events = [] := rfl

@[simp] theorem throw_outcome (error : ε) : (throw error : Script ω ε α).outcome = .error error := rfl

end Script

-- How a state moves while events are said, and how it is left when a program is
-- cut off among them.
structure Emission (σ ω ε : Type) where
  said : σ → List ω → σ → Prop
  cut : σ → List ω → ε → σ → Prop
  nothing : ∀ state, said state [] state
  further : ∀ {state early middle late after}, said state early middle → said middle late after →
    said state (early ++ late) after
  cutEarly : ∀ {state early error after} late, cut state early error after → cut state (early ++ late) error after
  cutLater : ∀ {state early middle late error after}, said state early middle → cut middle late error after →
    cut state (early ++ late) error after

def Follows (emission : Emission σ ω ε) (program : EStateM ε σ α) (state : σ) (script : Script ω ε α) : Prop :=
  Ensures program state
    (fun value after => script.outcome = .ok value ∧ emission.said state script.events after)
    (fun error after => (script.outcome = .error error ∧ emission.said state script.events after) ∨
      emission.cut state script.events error after)

variable {emission : Emission σ ω ε} {program : EStateM ε σ α} {next : α → EStateM ε σ β} {state : σ}
  {script : Script ω ε α} {later : α → Script ω ε β}

theorem follows_pure (value : α) : Follows emission (pure value) state (pure value) :=
  ensures_pure ⟨rfl,emission.nothing state⟩

theorem follows_throw (error : ε) : Follows emission (throw error : EStateM ε σ α) state (throw error) :=
  ensures_throw (.inl ⟨rfl,emission.nothing state⟩)

theorem follows_quiet (done : program.run state = .ok value after) (silent : emission.said state [] after) :
    Follows emission program state (pure value) :=
  ensures_ok done ⟨rfl,silent⟩

theorem follows_bind (first : Follows emission program state script)
    (rest : ∀ value middle, script.outcome = .ok value → Follows emission (next value) middle (later value)) :
    Follows emission (program >>= next) state (script >>= later) := by
  refine ensures_bind (ensures_weaken first ?_ ?_)
  · intro value middle reached
    obtain ⟨answered,early⟩ := reached
    rw [Script.bind_outcome_ok answered]
    refine ensures_weaken (rest value middle answered) ?_ ?_
    · intro last after done
      exact ⟨done.1,emission.further early done.2⟩
    · intro error after stopped
      rcases stopped with ⟨ended,late⟩ | lost
      · exact .inl ⟨ended,emission.further early late⟩
      · exact .inr (emission.cutLater early lost)
  · intro error after stopped
    cases answered : script.outcome with
    | ok =>
        rw [Script.bind_outcome_ok answered]
        rcases stopped with ⟨ended,_⟩ | lost
        · rw [answered] at ended
          cases ended
        · exact .inr (emission.cutEarly _ lost)
    | error =>
        rw [Script.bind_outcome_error answered]
        rcases stopped with ⟨ended,early⟩ | lost
        · rw [answered] at ended
          cases ended
          exact .inl ⟨rfl,early⟩
        · exact .inr lost

theorem follows_then {final : Except ε β} (first : Follows emission program state ⟨early,.ok value⟩)
    (rest : ∀ middle, Follows emission (next value) middle ⟨late,final⟩) :
    Follows emission (program >>= next) state ⟨early ++ late,final⟩ := by
  refine (follows_bind first ?_ : Follows _ _ _ ((⟨early,.ok value⟩ : Script ω ε α) >>= fun _ => ⟨late,final⟩))
  intro answer middle answered
  cases answered
  exact rest middle

theorem follows_ofExcept (outcome : Except ε α) :
    Follows emission (MonadExcept.ofExcept outcome : EStateM ε σ α) state (.ofExcept outcome) := by
  cases outcome with
  | ok => exact ensures_ok rfl ⟨rfl,emission.nothing state⟩
  | error => exact ensures_error rfl (.inl ⟨rfl,emission.nothing state⟩)

end Freja.Effect
