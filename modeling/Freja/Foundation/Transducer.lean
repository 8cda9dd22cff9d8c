import Mathlib.Data.List.Basic
import Mathlib.Data.List.Induction

namespace Freja.Transducer

-- A transducer answers a piece of input with its next state and the outputs of
-- that piece. Nothing is assumed about how pieces relate to one another.
variable {σ : Type u} {α : Type v} {ω : Type w}

def andThen (feed : σ → List α → σ × List ω) (before : σ × List ω) (piece : List α) : σ × List ω :=
  let later := feed before.1 piece
  (later.1,before.2 ++ later.2)

def feedChunks (feed : σ → List α → σ × List ω) (state : σ) (chunks : List (List α)) : σ × List ω :=
  chunks.foldl (andThen feed) (state,[])

theorem feedChunks_snoc (feed : σ → List α → σ × List ω) (state : σ) (chunks : List (List α)) (chunk : List α) :
    feedChunks feed state (chunks ++ [chunk]) = andThen feed (feedChunks feed state chunks) chunk := by
  simp [feedChunks]

structure Bytewise (feed : σ → List α → σ × List ω) : Prop where
  silent : ∀ state, feed state [] = (state,[])
  peel : ∀ state first rest, feed state (first :: rest) = andThen feed (feed state [first]) rest

variable {feed : σ → List α → σ × List ω}

-- An invariant of the state, of the outputs so far and of everything fed so far.
theorem feedChunks_invariant (holds : σ → List ω → List α → Prop) (initial : holds state [] [])
    (step : ∀ state outputs seen chunk, holds state outputs seen →
      holds (feed state chunk).1 (outputs ++ (feed state chunk).2) (seen ++ chunk))
    (chunks : List (List α)) :
    holds (feedChunks feed state chunks).1 (feedChunks feed state chunks).2 chunks.flatten := by
  suffices carried : ∀ (before : σ × List ω) (seen : List α), holds before.1 before.2 seen →
      holds (chunks.foldl (andThen feed) before).1 (chunks.foldl (andThen feed) before).2 (seen ++ chunks.flatten) by
    exact carried (state,[]) [] initial
  induction chunks with
  | nil =>
      intro before seen start
      simpa using start
  | cons chunk rest ih =>
      intro before seen start
      have next := ih (andThen feed before chunk) (seen ++ chunk) (step _ _ _ chunk start)
      rwa [List.append_assoc] at next

namespace Bytewise

theorem append (bytewise : Bytewise feed) (state : σ) (early late : List α) :
    feed state (early ++ late) = andThen feed (feed state early) late := by
  induction early generalizing state with
  | nil => simp [bytewise.silent,andThen]
  | cons first rest ih =>
      rw [List.cons_append,bytewise.peel,bytewise.peel state first rest]
      simp only [andThen,ih,List.append_assoc]

theorem foldl_chunks (bytewise : Bytewise feed) (state : σ) (early : List α) (chunks : List (List α)) :
    chunks.foldl (andThen feed) (feed state early) = feed state (early ++ chunks.flatten) := by
  induction chunks generalizing early with
  | nil => simp
  | cons chunk rest ih =>
      rw [List.foldl_cons,← bytewise.append,ih,List.flatten_cons,List.append_assoc]

theorem chunks (bytewise : Bytewise feed) (state : σ) (chunks : List (List α)) :
    feedChunks feed state chunks = feed state chunks.flatten := by
  have whole := bytewise.foldl_chunks state [] chunks
  rwa [bytewise.silent,List.nil_append] at whole

theorem invariant (bytewise : Bytewise feed) (holds : σ → List ω → List α → Prop) (initial : holds state [] [])
    (step : ∀ state outputs seen element, holds state outputs seen →
      holds (feed state [element]).1 (outputs ++ (feed state [element]).2) (seen ++ [element]))
    (input : List α) : holds (feed state input).1 (feed state input).2 input := by
  induction input using List.reverseRecOn with
  | nil =>
      rw [bytewise.silent]
      exact initial
  | append_singleton seen element ih =>
      rw [bytewise.append]
      exact step _ _ _ element ih

end Bytewise

-- A machine that takes its inputs one at a time.
variable {machine : σ → α → σ × List ω}

def emitting (machine : σ → α → σ × List ω) (before : σ × List ω) (input : α) : σ × List ω :=
  let later := machine before.1 input
  (later.1,before.2 ++ later.2)

def feedEach (machine : σ → α → σ × List ω) (state : σ) (inputs : List α) : σ × List ω :=
  inputs.foldl (emitting machine) (state,[])

theorem feedEach_snoc (machine : σ → α → σ × List ω) (state : σ) (inputs : List α) (input : α) :
    feedEach machine state (inputs ++ [input]) = emitting machine (feedEach machine state inputs) input := by
  simp [feedEach]

theorem feedEach_append (machine : σ → α → σ × List ω) (state : σ) (early late : List α) :
    feedEach machine state (early ++ late) =
      ((feedEach machine (feedEach machine state early).1 late).1,
        (feedEach machine state early).2 ++ (feedEach machine (feedEach machine state early).1 late).2) := by
  induction late using List.reverseRecOn with
  | nil => simp [feedEach]
  | append_singleton seen input ih =>
      rw [← List.append_assoc,feedEach_snoc,ih,feedEach_snoc]
      simp only [emitting,List.append_assoc]

theorem feedEach_invariant (holds : σ → List ω → List α → Prop) (initial : holds state [] [])
    (step : ∀ state outputs seen input, holds state outputs seen →
      holds (machine state input).1 (outputs ++ (machine state input).2) (seen ++ [input]))
    (inputs : List α) : holds (feedEach machine state inputs).1 (feedEach machine state inputs).2 inputs := by
  induction inputs using List.reverseRecOn with
  | nil => exact initial
  | append_singleton seen input ih =>
      rw [feedEach_snoc]
      exact step _ _ _ input ih

end Freja.Transducer
