import Mathlib.Data.List.Dedup

namespace Freja.Recency

variable {κ : Type u} [DecidableEq κ]

-- A queue with one key moved to its end.
def touch (queue : List κ) (key : κ) : List κ := queue.filter (· != key) ++ [key]

-- The most recently used of the keys in a history of uses, each once, the latest last:
-- as many as there is room for.
def newest (capacity : Nat) (history : List κ) : List κ :=
  history.dedup.drop (history.dedup.length - capacity)

theorem filter_absent {queue : List κ} (absent : key ∉ queue) : queue.filter (· != key) = queue := by
  rw [List.filter_eq_self]
  intro other member
  exact bne_iff_ne.mpr (fun same => absent (same ▸ member))

theorem mem_touch {queue : List κ} : other ∈ touch queue key ↔ other = key ∨ other ∈ queue := by
  by_cases same : other = key
  · simp [touch,same]
  · simp [touch,same]

theorem dedup_concat (history : List κ) (key : κ) : (history ++ [key]).dedup = touch history.dedup key := by
  induction history with
  | nil => rfl
  | cons first rest ih =>
      rw [List.cons_append]
      by_cases again : first ∈ rest
      · rw [List.dedup_cons_of_mem again,List.dedup_cons_of_mem (List.mem_append_left _ again),ih]
      · rw [List.dedup_cons_of_notMem again]
        by_cases same : first = key
        · subst same
          rw [List.dedup_cons_of_mem (by simp),ih]
          simp [touch]
        · rw [List.dedup_cons_of_notMem (by simp [again,same]),ih]
          simp [touch,same]

theorem newest_length (capacity : Nat) (history : List κ) :
    (newest capacity history).length = min capacity history.dedup.length := by
  rw [newest,List.length_drop]
  omega

theorem newest_nodup (capacity : Nat) (history : List κ) : (newest capacity history).Nodup :=
  (List.nodup_dedup history).sublist (List.drop_sublist _ _)

theorem forgotten (capacity : Nat) (history : List κ) :
    ∃ older, history.dedup = older ++ newest capacity history ∧
      ((newest capacity history).length < capacity → older = []) := by
  refine ⟨history.dedup.take (history.dedup.length - capacity),(List.take_append_drop _ _).symm,?_⟩
  intro room
  rw [newest_length] at room
  have none : history.dedup.length - capacity = 0 := by omega
  rw [none,List.take_zero]

theorem newest_hit {capacity : Nat} {history : List κ} (hit : key ∈ newest capacity history) :
    newest capacity (history ++ [key]) = touch (newest capacity history) key := by
  obtain ⟨older,split,_⟩ := forgotten capacity history
  have nodup := List.nodup_dedup history
  have size := newest_length capacity history
  rw [split] at nodup
  have absent : key ∉ older := fun member => List.disjoint_of_nodup_append nodup member hit
  have moved : (history ++ [key]).dedup = older ++ touch (newest capacity history) key := by
    rw [dedup_concat,split,touch,List.filter_append,filter_absent absent,List.append_assoc]
    rfl
  have same : (touch (newest capacity history) key).length = (newest capacity history).length := by
    have erased : (newest capacity history).filter (· != key) = (newest capacity history).erase key :=
      ((newest_nodup capacity history).erase_eq_filter key).symm
    have positive := List.length_pos_of_mem hit
    rw [touch,erased,List.length_append,List.length_erase_of_mem hit,List.length_singleton]
    omega
  rw [newest,moved,List.length_append,same]
  have cut : older.length + (newest capacity history).length - capacity = older.length := by
    have whole := congrArg List.length split
    rw [List.length_append] at whole
    have some := List.length_pos_of_mem hit
    omega
  rw [cut,List.drop_left]

-- A use of another key adds it, and the oldest of the newest keys makes room for it
-- where there is none.
theorem newest_miss {capacity : Nat} {history : List κ} (miss : key ∉ newest capacity history) :
    newest capacity (history ++ [key]) =
      if capacity = 0 then []
      else if (newest capacity history).length = capacity then (newest capacity history).tail ++ [key]
      else newest capacity history ++ [key] := by
  obtain ⟨older,split,room⟩ := forgotten capacity history
  have size := newest_length capacity history
  have moved : (history ++ [key]).dedup = older.filter (· != key) ++ (newest capacity history ++ [key]) := by
    rw [dedup_concat,split,touch,List.filter_append,filter_absent miss,List.append_assoc]
  rw [newest,moved]
  split
  · rename_i none
    rw [none]
    exact List.drop_of_length_le (by omega)
  · rename_i some
    split
    · rename_i full
      have cut : (older.filter (· != key) ++ (newest capacity history ++ [key])).length - capacity =
          (older.filter (· != key)).length + 1 := by
        rw [List.length_append,List.length_append,full,List.length_singleton]
        omega
      obtain ⟨oldest,others,cons⟩ := List.exists_cons_of_length_pos (by omega : 0 < (newest capacity history).length)
      rw [cut,List.drop_length_add_append,cons]
      rfl
    · rename_i short
      have none := room (by omega)
      rw [none]
      have cut : (newest capacity history ++ [key]).length - capacity = 0 := by
        rw [List.length_append,List.length_singleton]
        omega
      change (newest capacity history ++ [key]).drop ((newest capacity history ++ [key]).length - capacity) = _
      rw [cut,List.drop_zero]

end Freja.Recency
