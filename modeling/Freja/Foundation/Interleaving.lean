import Mathlib.Data.List.Pairwise

namespace Freja.Interleaving

-- All orders in which the items of several sequences can come out one after
-- another, each sequence keeping its own order.
inductive Interleaves : List (List α) → List α → Prop where
  | done : (∀ list ∈ lists, list = []) → Interleaves lists []
  | next : Interleaves (before ++ list :: after) whole → Interleaves (before ++ (item :: list) :: after) (item :: whole)

theorem Interleaves.ahead {before after : List (List α)} (interleaves : Interleaves (before ++ list :: after) whole)
    (front : List α) : Interleaves (before ++ (front ++ list) :: after) (front ++ whole) := by
  induction front with
  | nil => exact interleaves
  | cons item rest ih => exact .next ih

-- Two sequences in turns: the start of each, then what is left of each.
theorem Interleaves.turns (first second : List α) (count : Nat) : Interleaves [[],first,second]
    (first.take count ++ (second.take count ++ (first.drop count ++ second.drop count))) := by
  have none : Interleaves ([[],[]] ++ [] :: []) ([] : List α) := .done (by simp)
  have last := none.ahead (second.drop count)
  rw [List.append_nil] at last
  have left := @Interleaves.ahead _ [] _ [[]] [second.drop count] last (first.drop count)
  rw [List.append_nil] at left
  have other := @Interleaves.ahead _ _ _ [[],first.drop count] [] left (second.take count)
  rw [List.take_append_drop] at other
  have whole := @Interleaves.ahead _ _ _ [[]] [second] other (first.take count)
  rwa [List.take_append_drop] at whole

theorem Interleaves.member {lists : List (List α)} (interleaves : Interleaves lists whole) (member : item ∈ whole) :
    ∃ list ∈ lists, item ∈ list := by
  induction interleaves with
  | done => cases member
  | next _ ih =>
      rename_i before list after whole first _
      rcases List.mem_cons.mp member with same | later
      · exact ⟨first :: list,by simp,by simp [same]⟩
      · obtain ⟨found,listed,inside⟩ := ih later
        rcases List.mem_append.mp listed with early | late
        · exact ⟨found,List.mem_append_left _ early,inside⟩
        · rcases List.mem_cons.mp late with same | other
          · subst same
            exact ⟨first :: found,by simp,List.mem_cons_of_mem _ inside⟩
          · exact ⟨found,by simp [other],inside⟩

theorem Interleaves.filterMap {lists : List (List α)} (interleaves : Interleaves lists whole) (pick : α → Option β) :
    Interleaves (lists.map (·.filterMap pick)) (whole.filterMap pick) := by
  induction interleaves with
  | done empty =>
      refine .done ?_
      intro list member
      obtain ⟨origin,listed,same⟩ := List.mem_map.mp member
      rw [← same,empty origin listed]
      rfl
  | next _ ih =>
      rename_i before list after whole item _
      rw [List.map_append,List.map_cons] at ih ⊢
      cases picked : pick item with
      | none =>
          rw [List.filterMap_cons_none picked,List.filterMap_cons_none picked]
          exact ih
      | some value =>
          rw [List.filterMap_cons_some picked,List.filterMap_cons_some picked]
          exact .next ih

theorem Interleaves.alone {lists : List (List α)} (interleaves : Interleaves lists whole)
    (single : lists.Pairwise (fun first second => first = [] ∨ second = [])) : whole = lists.flatten := by
  induction interleaves with
  | done empty => exact (List.flatten_eq_nil_iff.mpr empty).symm
  | next _ ih =>
      rename_i before list after whole item _
      rw [List.pairwise_append,List.pairwise_cons] at single
      obtain ⟨early,⟨late,others⟩,across⟩ := single
      have quietBefore : ∀ other ∈ before, other = [] := by
        intro other member
        exact (across other member (item :: list) List.mem_cons_self).resolve_right nofun
      have quietAfter : ∀ other ∈ after, other = [] := by
        intro other member
        exact (late other member).resolve_left nofun
      have rest := ih (List.pairwise_append.mpr ⟨early,List.pairwise_cons.mpr
        ⟨fun other member => .inr (quietAfter other member),others⟩,
        fun first member _ _ => .inl (quietBefore first member)⟩)
      rw [rest]
      simp [List.flatten_eq_nil_iff.mpr quietBefore,List.flatten_eq_nil_iff.mpr quietAfter]

end Freja.Interleaving
