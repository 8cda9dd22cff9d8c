import Mathlib.Data.List.TakeWhile

namespace Freja

-- What a buffered reader still hands out, one filled buffer after the other: an empty
-- buffer is the end of the input.
structure Buffered (α : Type u) where
  pieces : List (List α)
  filled : ∀ piece ∈ pieces, piece ≠ []

namespace Buffered

variable {α : Type u}

def contents (reader : Buffered α) : List α := reader.pieces.flatten

-- What is left when a count of items has been taken from the first piece.
def consume (count : Nat) (piece : List α) (rest : List (List α)) : List (List α) :=
  if count < piece.length then piece.drop count :: rest else rest

theorem consume_flatten (count : Nat) (piece : List α) (rest : List (List α)) :
    (consume count piece rest).flatten = piece.drop count ++ rest.flatten := by
  unfold consume
  split
  · rfl
  · rename_i all
    rw [List.drop_of_length_le (Nat.le_of_not_lt all),List.nil_append]

theorem consume_filled {piece : List α} {rest : List (List α)} (filled : ∀ other ∈ rest, other ≠ []) (count : Nat) :
    ∀ other ∈ consume count piece rest, other ≠ [] := by
  unfold consume
  split
  · rename_i more
    intro other member
    rcases List.mem_cons.mp member with rfl | later
    · intro none
      have short := congrArg List.length none
      rw [List.length_drop,List.length_nil] at short
      omega
    · exact filled other later
  · exact filled

section Separated

variable [DecidableEq α]

-- An input up to and with the first separator, or all of it where there is none.
def through (separator : α) (input : List α) : List α :=
  input.take ((input.takeWhile (· != separator)).length + 1)

-- The loop that reads up to a separator from a reader cut off at a limit: one buffer
-- after the other is searched, appended and consumed.
def readPieces (separator : α) (limit : Nat) : List (List α) → List α × List (List α)
  | [] => ([],[])
  | piece :: rest =>
      let available := piece.take limit
      let before := available.takeWhile (· != separator)
      if before.length < available.length then
        (available.take (before.length + 1),consume (before.length + 1) piece rest)
      else if limit < piece.length then (available,consume limit piece rest)
      else
        let later := readPieces separator (limit - piece.length) rest
        (piece ++ later.1,later.2)

theorem differs {separator : α} {input : List α} (free : separator ∉ input) :
    ∀ item ∈ input, (item != separator) = true := by
  intro item member
  exact bne_iff_ne.mpr (fun same => free (same ▸ member))

theorem takeWhile_free {separator : α} {input : List α} (free : separator ∉ input) :
    input.takeWhile (· != separator) = input := by
  rw [List.takeWhile_eq_self_iff]
  exact differs free

theorem free_of_takeWhile {separator : α} {input : List α}
    (whole : ¬ (input.takeWhile (· != separator)).length < input.length) : separator ∉ input := by
  intro member
  have same : input.takeWhile (· != separator) = input :=
    (List.takeWhile_prefix _).eq_of_length_le (Nat.le_of_not_lt whole)
  have passes := List.takeWhile_eq_self_iff.mp same separator member
  exact bne_iff_ne.mp passes rfl

theorem through_free {separator : α} {input : List α} (free : separator ∉ input) : through separator input = input := by
  unfold through
  rw [takeWhile_free free]
  exact List.take_of_length_le (Nat.le_succ _)

theorem through_found {separator : α} {first : List α} (free : separator ∉ first) (rest : List α) :
    through separator (first ++ separator :: rest) = first ++ [separator] := by
  have stops : (first ++ separator :: rest).takeWhile (· != separator) = first := by
    rw [List.takeWhile_append_of_pos (differs free),List.takeWhile_cons_of_neg (by simp),List.append_nil]
  unfold through
  rw [stops,List.take_append,List.take_of_length_le (Nat.le_succ _)]
  simp

theorem through_append_free {separator : α} {first : List α} (free : separator ∉ first) (second : List α) :
    through separator (first ++ second) = first ++ through separator second := by
  unfold through
  rw [List.takeWhile_append_of_pos (differs free),List.length_append,Nat.add_assoc,List.take_length_add_append]

theorem split_found {separator : α} {input : List α} (member : separator ∈ input) :
    ∃ first rest, input = first ++ separator :: rest ∧ separator ∉ first ∧
      (input.takeWhile (· != separator)) = first := by
  obtain ⟨first,rest,same,free⟩ := List.eq_append_cons_of_mem member
  refine ⟨first,rest,same,free,?_⟩
  rw [same,List.takeWhile_append_of_pos (differs free),List.takeWhile_cons_of_neg (by simp),List.append_nil]

-- However the input is cut into buffers, the same is read and the same is left.
theorem readPieces_through (separator : α) (limit : Nat) (pieces : List (List α)) :
    (readPieces separator limit pieces).1 = through separator (pieces.flatten.take limit) ∧
      (readPieces separator limit pieces).2.flatten =
        pieces.flatten.drop (through separator (pieces.flatten.take limit)).length := by
  induction pieces generalizing limit with
  | nil => simp [readPieces,through]
  | cons piece rest ih =>
      rw [List.flatten_cons,List.take_append]
      unfold readPieces
      dsimp only
      split
      · rename_i found
        have inside : separator ∈ piece.take limit := by
          by_contra free
          rw [takeWhile_free free] at found
          exact Nat.lt_irrefl _ found
        obtain ⟨first,after,same,free,before⟩ := split_found inside
        have short : first.length + 1 ≤ piece.length := by
          have sizes := congrArg List.length same
          rw [List.length_take,List.length_append,List.length_cons] at sizes
          omega
        have read : through separator (piece.take limit ++ rest.flatten.take (limit - piece.length)) =
            first ++ [separator] := by
          rw [same,List.append_assoc,List.cons_append]
          exact through_found free _
        rw [read,before]
        constructor
        · rw [same,List.take_append,List.take_of_length_le (Nat.le_succ _)]
          simp
        · rw [consume_flatten,List.length_append,List.length_singleton,List.drop_append_of_le_length short]
      · rename_i whole
        have free := free_of_takeWhile whole
        rw [through_append_free free]
        split
        · rename_i cut
          have none : limit - piece.length = 0 := by omega
          rw [none,List.take_zero,through_free List.not_mem_nil,List.append_nil]
          refine ⟨rfl,?_⟩
          rw [consume_flatten,List.length_take,Nat.min_eq_left (Nat.le_of_lt cut),
            List.drop_append_of_le_length (Nat.le_of_lt cut)]
        · rename_i fits
          have all : piece.take limit = piece := List.take_of_length_le (Nat.le_of_not_lt fits)
          obtain ⟨read,left⟩ := ih (limit - piece.length)
          rw [all]
          refine ⟨by rw [read],?_⟩
          rw [left,List.length_append,List.drop_length_add_append]

theorem readPieces_filled (separator : α) (limit : Nat) {pieces : List (List α)} (filled : ∀ piece ∈ pieces, piece ≠ []) :
    ∀ piece ∈ (readPieces separator limit pieces).2, piece ≠ [] := by
  induction pieces generalizing limit with
  | nil => exact filled
  | cons piece rest ih =>
      have later : ∀ other ∈ rest, other ≠ [] := fun other member => filled other (List.mem_cons_of_mem _ member)
      unfold readPieces
      dsimp only
      split
      · exact consume_filled later _
      · split
        · exact consume_filled later _
        · exact ih (limit - piece.length) later

def readUntil (separator : α) (limit : Nat) (reader : Buffered α) : List α × Buffered α :=
  ((readPieces separator limit reader.pieces).1,
    ⟨(readPieces separator limit reader.pieces).2,readPieces_filled separator limit reader.filled⟩)

theorem readUntil_read (separator : α) (limit : Nat) (reader : Buffered α) :
    (reader.readUntil separator limit).1 = through separator (reader.contents.take limit) :=
  (readPieces_through separator limit reader.pieces).1

theorem readUntil_left (separator : α) (limit : Nat) (reader : Buffered α) :
    (reader.readUntil separator limit).2.contents =
      reader.contents.drop (reader.readUntil separator limit).1.length := by
  rw [readUntil_read]
  exact (readPieces_through separator limit reader.pieces).2

end Separated

end Buffered

end Freja
