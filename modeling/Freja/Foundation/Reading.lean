import Freja.Foundation.Effect
import Mathlib.Data.Vector.Basic

namespace Freja.Effect

-- A program that reads from the front of an input. It succeeds exactly on the
-- inputs that start with a text of the grammar, takes that text and no more, and
-- answers the value the text stands for.
structure Reads (input : σ → List β) (program : EStateM ε σ α) (grammar : List β → α → Prop) : Prop where
  sound : ∀ {state value after}, program.run state = .ok value after →
    ∃ taken, input state = taken ++ input after ∧ grammar taken value
  complete : ∀ {state taken rest value}, input state = taken ++ rest → grammar taken value →
    ∃ after, program.run state = .ok value after ∧ input after = rest

variable {input : σ → List β} {program : EStateM ε σ α} {grammar wider : List β → α → Prop}

-- One text after another.
def Sequence (first : List β → α → Prop) (second : α → List β → γ → Prop) (taken : List β) (value : γ) : Prop :=
  ∃ early late middle, taken = early ++ late ∧ first early middle ∧ second middle late value

theorem reads_pure (value : α) : Reads input (pure value : EStateM ε σ α) (fun taken answer => taken = [] ∧ answer = value) := by
  constructor
  · intro state answer after done
    cases done
    exact ⟨[],rfl,rfl,rfl⟩
  · intro state taken rest answer split wanted
    obtain ⟨empty,same⟩ := wanted
    rw [empty] at split
    rw [same]
    exact ⟨state,rfl,split⟩

theorem reads_throw (error : ε) : Reads input (throw error : EStateM ε σ α) (fun _ _ => False) := by
  constructor
  · intro state answer after done
    cases done
  · intro state taken rest answer split wanted
    exact wanted.elim

theorem reads_modify {change : σ → σ} (same : ∀ state, input (change state) = input state) :
    Reads input (modify change : EStateM ε σ PUnit) (fun taken _ => taken = []) := by
  constructor
  · intro state answer after done
    cases done
    exact ⟨[],(same state).symm,rfl⟩
  · intro state taken rest answer split wanted
    rw [wanted] at split
    exact ⟨change state,rfl,(same state).trans split⟩

theorem reads_bind {next : α → EStateM ε σ γ} {later : α → List β → γ → Prop} (first : Reads input program grammar)
    (rest : ∀ value, Reads input (next value) (later value)) :
    Reads input (program >>= next) (Sequence grammar later) := by
  constructor
  · intro state value after done
    obtain ⟨answer,middle,begun,ended⟩ := bind_ok.mp done
    obtain ⟨early,split,wanted⟩ := first.sound begun
    obtain ⟨late,splitLater,wantedLater⟩ := (rest answer).sound ended
    refine ⟨early ++ late,?_,early,late,answer,rfl,wanted,wantedLater⟩
    rw [split,splitLater,List.append_assoc]
  · intro state taken remaining value split wanted
    obtain ⟨early,late,answer,parts,begins,ends⟩ := wanted
    rw [parts,List.append_assoc] at split
    obtain ⟨middle,begun,there⟩ := first.complete split begins
    obtain ⟨after,ended,left⟩ := (rest answer).complete there ends
    exact ⟨after,bind_ok.mpr ⟨answer,middle,begun,ended⟩,left⟩

theorem reads_iff (reads : Reads input program grammar) (same : ∀ taken value, grammar taken value ↔ wider taken value) :
    Reads input program wider := by
  constructor
  · intro state value after done
    obtain ⟨taken,split,wanted⟩ := reads.sound done
    exact ⟨taken,split,(same taken value).mp wanted⟩
  · intro state taken rest value split wanted
    exact reads.complete split ((same taken value).mpr wanted)

theorem reads_ofExcept (outcome : Except ε α) :
    Reads input (MonadExcept.ofExcept outcome : EStateM ε σ α) (fun taken value => taken = [] ∧ outcome = .ok value) := by
  cases outcome with
  | ok value =>
      apply reads_iff (reads_pure value)
      intro taken answer
      simp [eq_comm]
  | error error =>
      apply reads_iff (reads_throw error)
      intro taken answer
      simp

-- The next so many items, or an error when there are fewer.
def takeExact (input : σ → List β) (advance : σ → List β → σ) (count : Nat) (missing : ε) : EStateM ε σ (Vector β count) :=
  fun state =>
    if enough : count ≤ (input state).length then
      .ok ⟨((input state).take count).toArray,by simp [enough]⟩ (advance state ((input state).drop count))
    else .error missing (advance state [])

theorem reads_takeExact {advance : σ → List β → σ} (moves : ∀ state rest, input (advance state rest) = rest) (count : Nat)
    (missing : ε) :
    Reads input (takeExact input advance count missing) (fun taken (value : Vector β count) => taken = value.toList) := by
  constructor
  · intro state value after done
    change takeExact input advance count missing state = _ at done
    unfold takeExact at done
    split at done
    · cases done
      refine ⟨(input state).take count,?_,rfl⟩
      rw [moves,List.take_append_drop]
    · cases done
  · intro state taken rest value split wanted
    have length : taken.length = count := by rw [wanted]; simp
    have enough : count ≤ (input state).length := by rw [split,List.length_append]; omega
    refine ⟨advance state rest,?_,moves state rest⟩
    change takeExact input advance count missing state = _
    unfold takeExact
    rw [dif_pos enough]
    have first : (input state).take count = value.toList := by
      rw [split,List.take_left' length,wanted]
    have last : (input state).drop count = rest := by rw [split,List.drop_left' length]
    congr 1
    · apply Vector.toList_inj.mp
      simpa using first
    · rw [last]

theorem reads_ite {condition : Prop} [Decidable condition] {other : EStateM ε σ α} (yes : Reads input program grammar)
    (no : Reads input other wider) :
    Reads input (if condition then program else other)
      (fun taken value => (condition ∧ grammar taken value) ∨ (¬ condition ∧ wider taken value)) := by
  by_cases holds : condition
  · rw [if_pos holds]
    apply reads_iff yes
    intro taken value
    simp [holds]
  · rw [if_neg holds]
    apply reads_iff no
    intro taken value
    simp [holds]

theorem sequence_silent {second : PUnit → List β → γ → Prop} {taken : List β} {value : γ} :
    Sequence (fun early (_ : PUnit) => early = []) second taken value ↔ second PUnit.unit taken value := by
  constructor
  · intro parts
    obtain ⟨early,late,middle,split,empty,rest⟩ := parts
    rw [split,empty]
    exact rest
  · intro rest
    exact ⟨[],taken,PUnit.unit,rfl,rfl,rest⟩

theorem sequence_exact {count : Nat} {second : Vector β count → List β → γ → Prop} {taken : List β} {value : γ} :
    Sequence (fun early (answer : Vector β count) => early = answer.toList) second taken value ↔
      ∃ (first : Vector β count) (late : List β), taken = first.toList ++ late ∧ second first late value := by
  constructor
  · intro parts
    obtain ⟨early,late,middle,split,same,rest⟩ := parts
    exact ⟨middle,late,by rw [split,same],rest⟩
  · intro parts
    obtain ⟨first,late,split,rest⟩ := parts
    exact ⟨first.toList,late,first,split,rfl,rest⟩

theorem exists_vector (items : List β) (length : items.length = count) :
    ∃ vector : Vector β count, vector.toList = items := ⟨⟨items.toArray,by simpa using length⟩,rfl⟩

theorem vector_one (items : Vector β 1) : items.toList = [items.get 0] := by
  obtain ⟨⟨items⟩,length⟩ := items
  match items,length with
  | [_],_ => rfl

theorem vector_two (items : Vector β 2) : items.toList = [items.get 0,items.get 1] := by
  obtain ⟨⟨items⟩,length⟩ := items
  match items,length with
  | [_,_],_ => rfl

theorem vector_four (items : Vector β 4) : items.toList = [items.get 0,items.get 1,items.get 2,items.get 3] := by
  obtain ⟨⟨items⟩,length⟩ := items
  match items,length with
  | [_,_,_,_],_ => rfl

-- However a program ends, it leaves one part of the state as it was.
def Frames (view : σ → τ) (program : EStateM ε σ α) : Prop := ∀ state, view (stateOf (program.run state)) = view state

variable {view : σ → τ}

theorem frames_pure (value : α) : Frames view (pure value : EStateM ε σ α) := fun _ => rfl

theorem frames_throw (error : ε) : Frames view (throw error : EStateM ε σ α) := fun _ => rfl

theorem frames_modify {change : σ → σ} (same : ∀ state, view (change state) = view state) :
    Frames view (modify change : EStateM ε σ PUnit) := same

theorem frames_ofExcept (outcome : Except ε α) : Frames view (MonadExcept.ofExcept outcome : EStateM ε σ α) := by
  cases outcome with
  | ok value => exact frames_pure value
  | error error => exact frames_throw error

theorem frames_takeExact {advance : σ → List β → σ} (same : ∀ state rest, view (advance state rest) = view state)
    (count : Nat) (missing : ε) : Frames view (takeExact input advance count missing) := by
  intro state
  change view (stateOf (takeExact input advance count missing state)) = _
  unfold takeExact
  split <;> exact same _ _

theorem frames_bind {next : α → EStateM ε σ γ} (first : Frames view program) (rest : ∀ value, Frames view (next value)) :
    Frames view (program >>= next) := by
  intro state
  have begun := first state
  cases done : program.run state with
  | ok value middle =>
      rw [done] at begun
      rw [run_bind_ok done,rest value middle]
      exact begun
  | error =>
      rw [done] at begun
      rw [run_bind_error done]
      exact begun

theorem frames_ite {condition : Prop} [Decidable condition] {other : EStateM ε σ α} (yes : Frames view program)
    (no : Frames view other) : Frames view (if condition then program else other) := by
  split
  · exact yes
  · exact no

end Freja.Effect
