import Mathlib.Data.List.Nodup
import Mathlib.Data.List.Range
import Mathlib.Data.List.Perm.Basic

namespace Freja.Occurrence

section Occurs

variable {α : Type u}

-- The needle occupies the haystack from the offset on.
def OccursAt (haystack needle : List α) (offset : Nat) : Prop :=
  offset + needle.length ≤ haystack.length ∧ (haystack.drop offset).take needle.length = needle

theorem occursAt_append_left {seen : List α} {needle : List α} {offset : Nat} (added : List α)
    (inside : offset + needle.length ≤ seen.length) :
    OccursAt (seen ++ added) needle offset ↔ OccursAt seen needle offset := by
  unfold OccursAt
  rw [List.drop_append_of_le_length (by omega),List.take_append_of_le_length (by rw [List.length_drop]; omega)]
  simp only [List.length_append,and_congr_left_iff]
  omega

theorem occursAt_drop {haystack : List α} {needle : List α} (dropped offset : Nat) (inside : dropped ≤ haystack.length) :
    OccursAt (haystack.drop dropped) needle offset ↔ OccursAt haystack needle (dropped + offset) := by
  unfold OccursAt
  rw [List.drop_drop,List.length_drop]
  refine and_congr ?_ Iff.rfl
  omega

def keepLast (count : Nat) (items : List α) : List α := items.drop (items.length - count)

theorem keepLast_length (count : Nat) (items : List α) : (keepLast count items).length = min items.length count := by
  rw [keepLast,List.length_drop]
  omega

theorem keepLast_append (count : Nat) (seen added : List α) :
    keepLast count (keepLast count seen ++ added) = keepLast count (seen ++ added) := by
  unfold keepLast
  have inside : seen.length - count ≤ seen.length := by omega
  rw [← List.drop_append_of_le_length inside,List.drop_drop]
  congr 1
  simp only [List.length_drop,List.length_append]
  omega

end Occurs

variable {α : Type u} [DecidableEq α]

instance (haystack needle : List α) (offset : Nat) : Decidable (OccursAt haystack needle offset) :=
  inferInstanceAs (Decidable (_ ∧ _))

def windows (haystack : List α) (size : Nat) : List (List α) :=
  (List.range (haystack.length + 1 - size)).map (fun offset => (haystack.drop offset).take size)

def matchOffsets (haystack needle : List α) : List Nat :=
  (windows haystack needle.length).zipIdx.filterMap (fun window => if window.1 = needle then some window.2 else none)

theorem zipIdx_map_range (value : Nat → β) (count : Nat) :
    ((List.range count).map value).zipIdx = (List.range count).map (fun index => (value index,index)) := by
  apply List.ext_getElem
  · simp
  · intro index _ _
    simp

variable (haystack seen added needle : List α)

theorem matchOffsets_filter :
    matchOffsets haystack needle = (List.range (haystack.length + 1 - needle.length)).filter
      (fun offset => (haystack.drop offset).take needle.length = needle) := by
  unfold matchOffsets windows
  rw [zipIdx_map_range,List.filterMap_map,← List.filterMap_eq_filter]
  apply List.filterMap_congr
  intro offset _
  simp [Option.guard]

theorem mem_matchOffsets (offset : Nat) :
    offset ∈ matchOffsets haystack needle ↔ OccursAt haystack needle offset := by
  rw [matchOffsets_filter,List.mem_filter,List.mem_range,decide_eq_true_eq,OccursAt]
  refine and_congr ?_ Iff.rfl
  omega

theorem matchOffsets_nodup : (matchOffsets haystack needle).Nodup := by
  rw [matchOffsets_filter]
  exact List.nodup_range.filter _

-- What is new about the offsets once more items have arrived: the occurrences
-- that end past everything seen before.
def freshOffsets (seen added needle : List α) : List Nat :=
  (matchOffsets (seen ++ added) needle).filter (fun offset => seen.length < offset + needle.length)

theorem mem_freshOffsets {seen added needle : List α} {offset : Nat} :
    offset ∈ freshOffsets seen added needle ↔
      OccursAt (seen ++ added) needle offset ∧ seen.length < offset + needle.length := by
  simp [freshOffsets,mem_matchOffsets]

theorem freshOffsets_nodup : (freshOffsets seen added needle).Nodup :=
  (matchOffsets_nodup _ _).filter _

theorem matchOffsets_append :
    (matchOffsets (seen ++ added) needle).Perm (matchOffsets seen needle ++ freshOffsets seen added needle) := by
  have separate : (matchOffsets seen needle ++ freshOffsets seen added needle).Nodup := by
    refine List.Nodup.append (matchOffsets_nodup _ _) (freshOffsets_nodup _ _ _) ?_
    intro offset old fresh
    have ended := ((mem_matchOffsets _ _ _).mp old).1
    have passed := (mem_freshOffsets.mp fresh).2
    omega
  rw [List.perm_ext_iff_of_nodup (matchOffsets_nodup _ _) separate]
  intro offset
  rw [List.mem_append,mem_freshOffsets,mem_matchOffsets,mem_matchOffsets]
  by_cases inside : offset + needle.length ≤ seen.length
  · rw [occursAt_append_left added inside]
    exact ⟨.inl,fun either => either.resolve_right (fun fresh => by omega)⟩
  · constructor
    · exact fun occurs => .inr ⟨occurs,by omega⟩
    · rintro (old | fresh)
      · exact absurd old.1 inside
      · exact fresh.1

-- A carry of all but one item of the longest needle finds every fresh
-- occurrence, whichever needle of at most that length is searched.
theorem freshOffsets_carry (count : Nat) (seen added needle : List α) (enough : needle.length ≤ count + 1) :
    let carry := keepLast count seen
    (((matchOffsets (carry ++ added) needle).filter (fun offset => carry.length < offset + needle.length)).map
      (fun offset => seen.length - carry.length + offset)).Perm (freshOffsets seen added needle) := by
  intro carry
  have kept : carry.length = min seen.length count := keepLast_length count seen
  have base : seen.length - carry.length = seen.length - count := by omega
  have shorter : seen.length - count ≤ seen.length := by omega
  have moved : carry ++ added = (seen ++ added).drop (seen.length - count) :=
    (List.drop_append_of_le_length shorter).symm
  have within : seen.length - count ≤ (seen ++ added).length := by
    rw [List.length_append]
    omega
  have mapped : ((freshOffsets carry added needle).map (fun offset => seen.length - carry.length + offset)).Nodup :=
    (freshOffsets_nodup _ _ _).map (fun _ _ same => Nat.add_left_cancel same)
  rw [← freshOffsets,List.perm_ext_iff_of_nodup mapped (freshOffsets_nodup _ _ _)]
  intro offset
  simp only [List.mem_map,mem_freshOffsets]
  rw [moved,base]
  constructor
  · rintro ⟨local_,⟨occurs,passed⟩,rfl⟩
    exact ⟨(occursAt_drop _ _ within).mp occurs,by omega⟩
  · rintro ⟨occurs,passed⟩
    have shifted : seen.length - count + (offset - (seen.length - count)) = offset := by omega
    refine ⟨offset - (seen.length - count),⟨(occursAt_drop _ _ within).mpr ?_,by omega⟩,shifted⟩
    rwa [shifted]

end Freja.Occurrence
