import Mathlib.Data.List.Infix
import Mathlib.Data.List.TakeDrop

namespace Freja.Splitting

variable {α : Type u}

-- Pieces with one mark between any two of them.
structure Separated (mark : α) (pieces : List (List α)) (whole : List α) : Prop where
  joined : [mark].intercalate pieces = whole
  present : pieces ≠ []
  free : ∀ piece ∈ pieces, mark ∉ piece

theorem splitOn_free [BEq α] [LawfulBEq α] (mark : α) (whole : List α) :
    ∀ piece ∈ whole.splitOn mark, mark ∉ piece := by
  induction whole with
  | nil => simp [List.splitOn_nil]
  | cons first rest ih =>
      intro piece member
      rw [List.splitOn_cons_eq_if_modifyHead] at member
      split at member
      · rcases List.mem_cons.mp member with rfl | later
        · exact List.not_mem_nil
        · exact ih piece later
      · rename_i different
        cases pieces : rest.splitOn mark with
        | nil => exact absurd pieces (List.splitOn_ne_nil mark rest)
        | cons head =>
            rw [pieces] at member ih
            rcases List.mem_cons.mp member with rfl | later
            · intro here
              rcases List.mem_cons.mp here with same | inside
              · exact different (by simp [same])
              · exact ih head List.mem_cons_self inside
            · exact ih piece (List.mem_cons_of_mem _ later)

theorem splitOn_separated [BEq α] [LawfulBEq α] {mark : α} {whole : List α} {pieces : List (List α)} :
    whole.splitOn mark = pieces ↔ Separated mark pieces whole := by
  constructor
  · rintro rfl
    exact ⟨List.intercalate_splitOn mark,List.splitOn_ne_nil mark whole,splitOn_free mark whole⟩
  · rintro ⟨rfl,present,free⟩
    exact List.splitOn_intercalate mark free present

theorem Separated.mem {mark : α} {pieces : List (List α)} {whole piece : List α} {element : α}
    (separated : Separated mark pieces whole) (member : piece ∈ pieces) (inside : element ∈ piece) :
    element ∈ whole := by
  rw [← separated.joined]
  clear separated
  induction pieces with
  | nil => cases member
  | cons first rest ih =>
      cases rest with
      | nil =>
          rw [List.intercalate_singleton]
          rwa [List.mem_singleton.mp member] at inside
      | cons =>
          rw [List.intercalate_cons_cons]
          rcases List.mem_cons.mp member with rfl | later
          · exact List.mem_append_left _ (List.mem_append_left _ inside)
          · exact List.mem_append_right _ (ih later)

theorem Separated.element {mark : α} {pieces : List (List α)} {whole : List α} {element : α}
    (separated : Separated mark pieces whole) (member : element ∈ whole) :
    element = mark ∨ ∃ piece ∈ pieces, element ∈ piece := by
  rw [← separated.joined] at member
  clear separated
  induction pieces with
  | nil => simp [List.intercalate] at member
  | cons first rest ih =>
      cases rest with
      | nil =>
          rw [List.intercalate_singleton] at member
          exact .inr ⟨first,List.mem_singleton_self first,member⟩
      | cons =>
          rw [List.intercalate_cons_cons,List.mem_append,List.mem_append,List.mem_singleton] at member
          rcases member with (here | same) | later
          · exact .inr ⟨first,List.mem_cons_self,here⟩
          · exact .inl same
          · rcases ih later with same | ⟨piece,inside,found⟩
            · exact .inl same
            · exact .inr ⟨piece,List.mem_cons_of_mem _ inside,found⟩

-- A list of pieces ends with the pieces of another list when that one is the whole
-- of it or what follows a mark.
theorem splitOn_suffix [BEq α] [LawfulBEq α] {mark : α} {part whole : List α} :
    part.splitOn mark <:+ whole.splitOn mark ↔
      whole = part ∨ ∃ front, whole = front ++ mark :: part := by
  constructor
  · intro ending
    obtain ⟨extra,pieces⟩ := ending
    by_cases none : extra = []
    · left
      subst none
      have joined := congrArg [mark].intercalate pieces
      rw [List.nil_append,List.intercalate_splitOn,List.intercalate_splitOn] at joined
      exact joined.symm
    · right
      refine ⟨[mark].intercalate extra,?_⟩
      have free : ∀ piece ∈ extra, mark ∉ piece := by
        intro piece member
        apply splitOn_free mark whole
        rw [← pieces]
        exact List.mem_append_left _ member
      have again : ([mark].intercalate extra ++ mark :: part).splitOn mark = whole.splitOn mark := by
        rw [List.splitOn_append_cons_self,List.splitOn_intercalate mark free none,pieces]
      have joined := congrArg [mark].intercalate again
      rw [List.intercalate_splitOn,List.intercalate_splitOn] at joined
      exact joined.symm
  · rintro (rfl | ⟨front,rfl⟩)
    · exact List.suffix_rfl
    · rw [List.splitOn_append_cons_self]
      exact List.suffix_append _ _

-- What stands before and after the last mark.
def rsplitOnce [BEq α] (mark : α) (whole : List α) : Option (List α × List α) :=
  if whole.contains mark then
    some ((whole.reverse.dropWhile (· != mark)).tail.reverse,(whole.reverse.takeWhile (· != mark)).reverse)
  else none

theorem rsplitOnce_join [BEq α] [LawfulBEq α] (mark : α) (front back : List α) (free : mark ∉ back) :
    rsplitOnce mark (front ++ mark :: back) = some (front,back) := by
  have other : ∀ element ∈ back.reverse, (element != mark) = true := by
    intro element member
    rw [bne_iff_ne]
    intro same
    exact free (same ▸ List.mem_reverse.mp member)
  have present : (front ++ mark :: back).contains mark = true := by simp
  have turned : (front ++ mark :: back).reverse = back.reverse ++ mark :: front.reverse := by simp
  unfold rsplitOnce
  rw [if_pos present,turned,List.dropWhile_append_of_pos other,List.takeWhile_append_of_pos other]
  simp

theorem rsplitOnce_some [BEq α] [LawfulBEq α] {mark : α} {whole front back : List α}
    (found : rsplitOnce mark whole = some (front,back)) : whole = front ++ mark :: back ∧ mark ∉ back := by
  have present : mark ∈ whole := by
    unfold rsplitOnce at found
    split at found
    · rename_i present
      simpa using present
    · cases found
  obtain ⟨after,before,turned,free⟩ := List.eq_append_cons_of_mem (List.mem_reverse.mpr present)
  have split : whole = before.reverse ++ mark :: after.reverse := by
    rw [← List.reverse_reverse whole,turned]
    simp
  rw [split,rsplitOnce_join mark _ _ (fun inside => free (List.mem_reverse.mp inside))] at found
  cases found
  exact ⟨split,fun inside => free (List.mem_reverse.mp inside)⟩

-- What is left of a list without the blanks on both sides.
structure Trimmed (blank : α → Bool) (outer inner : List α) : Prop where
  around : ∃ before after, outer = before ++ inner ++ after ∧ (∀ element ∈ before, blank element = true) ∧
    ∀ element ∈ after, blank element = true
  first : ∀ element, inner.head? = some element → blank element = false
  last : ∀ element, inner.getLast? = some element → blank element = false

def trim (blank : α → Bool) (outer : List α) : List α :=
  ((outer.dropWhile blank).reverse.dropWhile blank).reverse

theorem dropWhile_head (blank : α → Bool) (outer : List α) (element : α)
    (first : (outer.dropWhile blank).head? = some element) : blank element = false := by
  have kept := List.head?_dropWhile_not blank outer
  rw [first] at kept
  simpa using kept

theorem dropWhile_blanks (blank : α → Bool) (blanks : ∀ element ∈ before, blank element = true) (rest : List α)
    (first : ∀ element, rest.head? = some element → blank element = false) :
    (before ++ rest).dropWhile blank = rest := by
  rw [List.dropWhile_append_of_pos blanks]
  cases rest with
  | nil => rfl
  | cons head => exact List.dropWhile_cons_of_neg (by simp [first head rfl])

theorem takeWhile_stops (wanted : α → Bool) (before rest : List α) (all : ∀ element ∈ before, wanted element = true)
    (stop : ∀ element, rest.head? = some element → wanted element = false) :
    (before ++ rest).takeWhile wanted = before ∧ (before ++ rest).dropWhile wanted = rest := by
  have after := dropWhile_blanks wanted all rest stop
  have whole : (before ++ rest).takeWhile wanted ++ (before ++ rest).dropWhile wanted = before ++ rest :=
    List.takeWhile_append_dropWhile
  rw [after] at whole
  exact ⟨List.append_cancel_right whole,after⟩

theorem trim_trimmed (blank : α → Bool) (outer : List α) : Trimmed blank outer (trim blank outer) := by
  refine ⟨⟨outer.takeWhile blank,(outer.dropWhile blank).reverse.takeWhile blank |>.reverse,?_,?_,?_⟩,?_,?_⟩
  · rw [trim,List.append_assoc,← List.reverse_append,List.takeWhile_append_dropWhile,List.reverse_reverse,
      List.takeWhile_append_dropWhile]
  · intro element member
    exact List.all_eq_true.mp List.all_takeWhile element member
  · intro element member
    exact List.all_eq_true.mp List.all_takeWhile element (List.mem_reverse.mp member)
  · intro element found
    -- The first element that is kept is the first of what is left after the
    -- blanks in front.
    have kept : trim blank outer <+: outer.dropWhile blank := by
      rw [trim,← List.reverse_suffix,List.reverse_reverse]
      exact List.dropWhile_suffix blank
    obtain ⟨rest,whole⟩ := kept
    apply dropWhile_head blank outer
    rw [← whole]
    cases inner : trim blank outer with
    | nil => simp [inner] at found
    | cons => simpa [inner] using found
  · intro element found
    rw [trim,List.getLast?_reverse] at found
    exact dropWhile_head blank _ element found

theorem Trimmed.trim_eq {blank : α → Bool} {outer inner : List α} (trimmed : Trimmed blank outer inner) :
    trim blank outer = inner := by
  obtain ⟨⟨before,after,rfl,front,back⟩,first,last⟩ := trimmed
  unfold trim
  by_cases empty : inner = []
  · subst empty
    have none : (before ++ after).dropWhile blank = [] := by
      have trailing := dropWhile_blanks blank back [] (fun _ absent => by cases absent)
      rw [List.append_nil] at trailing
      rw [List.dropWhile_append_of_pos front,trailing]
    simp [none]
  · have ahead : ∀ element, (inner ++ after).head? = some element → blank element = false := by
      intro element found
      cases inner with
      | nil => exact absurd rfl empty
      | cons => exact first element found
    rw [List.append_assoc,dropWhile_blanks blank front _ ahead,List.reverse_append]
    rw [dropWhile_blanks blank (fun element member => back element (List.mem_reverse.mp member))]
    · exact List.reverse_reverse inner
    · intro element found
      rw [List.head?_reverse] at found
      exact last element found

theorem trim_iff {blank : α → Bool} {outer inner : List α} : trim blank outer = inner ↔ Trimmed blank outer inner :=
  ⟨fun same => same ▸ trim_trimmed blank outer,Trimmed.trim_eq⟩

-- No beginning of the list ends with the terminator.
def Unended (terminator whole : List α) : Prop := ∀ start, start <+: whole → ¬ terminator <:+ start

-- The list ends with the terminator, and no shorter beginning of it does.
structure EndsFirst (terminator whole : List α) : Prop where
  ended : terminator <:+ whole
  shortest : ∀ start, start <+: whole → terminator <:+ start → start = whole

variable {terminator : List α}

theorem unended_nil (some : terminator ≠ []) : Unended terminator [] := by
  intro start beginning ended
  rw [List.prefix_nil.mp beginning] at ended
  exact some (List.suffix_nil.mp ended)

theorem Unended.snoc (unended : Unended terminator whole) (still : ¬ terminator <:+ whole ++ [element]) :
    Unended terminator (whole ++ [element]) := by
  intro start beginning
  rcases List.prefix_concat_iff.mp beginning with rfl | shorter
  · exact still
  · exact unended start shorter

theorem Unended.ends (unended : Unended terminator whole) (now : terminator <:+ whole ++ [element]) :
    EndsFirst terminator (whole ++ [element]) := by
  refine ⟨now,?_⟩
  intro start beginning ended
  rcases List.prefix_concat_iff.mp beginning with same | shorter
  · exact same
  · exact absurd ended (unended start shorter)

theorem EndsFirst.unique (one : EndsFirst terminator first) (other : EndsFirst terminator second)
    (same : first ++ early = second ++ late) : first = second ∧ early = late := by
  have equal : first = second := by
    rcases List.prefix_or_prefix_of_prefix ⟨early,rfl⟩ ⟨late,same.symm⟩ with shorter | longer
    · exact other.shortest first shorter one.ended
    · exact (one.shortest second longer other.ended).symm
  subst equal
  exact ⟨rfl,List.append_cancel_left same⟩

theorem EndsFirst.beyond (line : EndsFirst terminator first) (unended : Unended terminator second)
    (same : first ++ early = second ++ late) : second.length < first.length := by
  by_contra short
  have inside : first <+: second :=
    List.prefix_of_prefix_length_le ⟨early,rfl⟩ ⟨late,same.symm⟩ (Nat.le_of_not_lt short)
  exact unended first inside line.ended

end Freja.Splitting
