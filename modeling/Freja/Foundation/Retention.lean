import Mathlib.Data.List.DropRight
import Mathlib.Data.List.Nodup

namespace Freja.Retention

variable {items : List α}

-- A queue that gives up its oldest item for a new one once it is full.
def pushBounded (maximum : Nat) (queue : List α) (value : α) : List α :=
  (if queue.length = maximum then queue.drop 1 else queue) ++ [value]

theorem pushBounded_recent {queue history : List α} (room : 0 < maximum) (recent : queue = history.rtake maximum)
    (value : α) : pushBounded maximum queue value = (history ++ [value]).rtake maximum := by
  have same : (history ++ [value]).rtake maximum = history.rtake (maximum - 1) ++ [value] := by
    obtain ⟨less,rfl⟩ := Nat.exists_eq_add_of_lt room
    rw [Nat.zero_add,List.rtake_concat_succ,Nat.add_sub_cancel]
  rw [same,recent]
  unfold pushBounded List.rtake
  congr 1
  rw [List.length_drop]
  split
  · rw [List.drop_drop]
    congr 1
    omega
  · congr 1
    omega

-- Where a cursor goes when an item is taken out.
def afterErase (removed cursor : Nat) : Nat := if cursor > removed then cursor - 1 else cursor

theorem getElem?_afterErase (apart : cursor ≠ removed) :
    (items.eraseIdx removed)[afterErase removed cursor]? = items[cursor]? := by
  rw [List.getElem?_eraseIdx]
  unfold afterErase
  split
  · rename_i later
    rw [if_neg (by omega),Nat.sub_add_cancel (by omega)]
  · rename_i earlier
    rw [if_pos (by omega)]

theorem not_mem_eraseIdx (distinct : items.Nodup) (stands : items[removed]? = some item) :
    item ∉ items.eraseIdx removed := by
  intro present
  obtain ⟨index,found⟩ := List.mem_iff_getElem?.mp present
  obtain ⟨inside,_⟩ := List.getElem?_eq_some_iff.mp stands
  rw [List.getElem?_eraseIdx] at found
  split at found
  · rename_i before
    have same := (List.getElem?_inj inside distinct).mp (stands.trans found.symm)
    omega
  · rename_i after
    have same := (List.getElem?_inj inside distinct).mp (stands.trans found.symm)
    omega

-- A cursor stands on an item, or at the start of a list without any.
def Inside (cursor count : Nat) : Prop := cursor ≤ count - 1

theorem inside_of_lt (inside : cursor < count) : Inside cursor count := Nat.le_sub_one_of_lt inside

theorem inside_back (inside : Inside cursor count) : Inside (cursor - 1) count := Nat.le_trans (Nat.sub_le _ _) inside

theorem inside_grow (inside : Inside cursor count) : Inside cursor (count + 1) :=
  Nat.le_trans inside (Nat.sub_le_sub_right (Nat.le_succ _) _)

theorem inside_afterErase (inside : Inside cursor count) : Inside (afterErase removed cursor) count := by
  unfold Inside afterErase at *
  split <;> omega

theorem findIdx?_place {test : α → Bool} (found : items.findIdx? test = some place) :
    ∃ item, items[place]? = some item ∧ test item = true ∧ item ∈ items := by
  obtain ⟨inside,passes,_⟩ := List.findIdx?_eq_some_iff_getElem.mp found
  exact ⟨items[place],List.getElem?_eq_getElem inside,passes,List.getElem_mem inside⟩

theorem findIdx?_missing {test : α → Bool} (none : items.findIdx? test = none) : ∀ item ∈ items, test item = false :=
  List.findIdx?_eq_none_iff.mp none

-- Items told apart by a key.
section Keyed

variable {key : α → κ}

theorem map_modify {change : α → α} {change' : κ → κ} (alike : ∀ item, key (change item) = change' (key item)) (place : Nat) :
    (items.modify place change).map key = (items.map key).modify place change' := by
  induction items generalizing place with
  | nil => simp
  | cons item rest ih =>
      cases place with
      | zero => simp [alike]
      | succ => simp [ih]

theorem nodup_modify {change : α → α} (kept : ∀ item, key (change item) = key item) (place : Nat) :
    (items.modify place change).map key = items.map key := by
  have same : ∀ item, key (change item) = id (key item) := kept
  rw [map_modify same,List.modify_id]

theorem place_unique {place other : Nat} (distinct : (items.map key).Nodup) (first : items[place]? = some item)
    (second : items[other]? = some another) (same : key item = key another) : place = other := by
  obtain ⟨inside,_⟩ := List.getElem?_eq_some_iff.mp first
  have equal : (items.map key)[place]? = (items.map key)[other]? := by
    simp [first,second,same]
  exact (List.getElem?_inj (by simpa using inside) distinct).mp equal

theorem mem_modify {change : α → α} {place : Nat} (distinct : (items.map key).Nodup) (stands : items[place]? = some item)
    (member : other ∈ items.modify place change) : other = change item ∨ other ∈ items ∧ key other ≠ key item := by
  obtain ⟨index,found⟩ := List.mem_iff_getElem?.mp member
  rw [List.getElem?_modify] at found
  by_cases same : place = index
  · subst index
    simp [stands] at found
    exact .inl found.symm
  · simp [same] at found
    refine .inr ⟨List.mem_of_getElem? found,?_⟩
    intro alike
    exact same (place_unique distinct stands found alike.symm)

end Keyed

end Freja.Retention
