import Mathlib.Data.List.Infix

namespace Freja.Pieces

variable {α : Type u}

-- What has been put together of a stream from pieces with their offsets, and whether a
-- piece came that does not go on where it ends.
structure Received (α : Type u) where
  items : List α
  gap : Bool

def Received.empty : Received α := ⟨[],false⟩

def Received.add (received : Received α) (offset : Nat) (items : List α) : Received α :=
  if offset = received.items.length then {received with items := received.items ++ items}
  else {received with gap := true}

variable {received : Received α} {offset position : Nat} {items stream : List α}

-- Pieces of a stream, in any order and however many are missing, make a beginning of it.
theorem add_prefix (whole : received.items <+: stream) (piece : items <+: stream.drop offset) :
    (received.add offset items).items <+: stream := by
  unfold Received.add
  split
  · rename_i next
    obtain ⟨rest,rfl⟩ := whole
    rw [next,List.drop_left] at piece
    exact List.prefix_append_right_inj _ |>.mpr piece
  · exact whole

theorem add_gap (missing : received.gap = true) : (received.add offset items).gap = true := by
  unfold Received.add
  split
  · exact missing
  · rfl

-- Where the piece at a position is missing, nothing gets beyond the position,
theorem add_below (short : received.items.length ≤ position)
    (outside : offset + items.length ≤ position ∨ position < offset) :
    (received.add offset items).items.length ≤ position := by
  unfold Received.add
  split
  · rename_i next
    rw [List.length_append]
    omega
  · exact short

-- and a piece from beyond it shows the gap.
theorem add_beyond (short : received.items.length ≤ position) (beyond : position < offset) :
    (received.add offset items).gap = true := by
  unfold Received.add
  rw [if_neg (by omega)]

end Freja.Pieces
