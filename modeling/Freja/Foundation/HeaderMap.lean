import Freja.Foundation.Bytes
import Mathlib.Data.List.Forall2
import Mathlib.Data.List.Nodup

namespace Freja

-- Values grouped by name, in the order in which the names first appeared.
structure HeaderMap where
  entries : List (String × List (List UInt8))
  distinct : (entries.map Prod.fst).Nodup
  deriving DecidableEq, Repr

namespace HeaderMap

def empty : HeaderMap := ⟨[],List.nodup_nil⟩

def getAll (headers : HeaderMap) (name : String) : List (List UInt8) := (headers.entries.lookup name).getD []

def containsKey (headers : HeaderMap) (name : String) : Bool := headers.entries.any (·.1 == name)

def pairs (headers : HeaderMap) : List (String × List UInt8) :=
  headers.entries.flatMap (fun entry => entry.2.map (fun value => (entry.1,value)))

def remove (headers : HeaderMap) (name : String) : HeaderMap :=
  ⟨headers.entries.filter (·.1 != name),headers.distinct.sublist (List.filter_sublist.map _)⟩

def adjust (change : List (List UInt8) → List (List UInt8)) (name : String)
    (entry : String × List (List UInt8)) : String × List (List UInt8) :=
  if entry.1 = name then (entry.1,change entry.2) else entry

theorem adjust_names (change : List (List UInt8) → List (List UInt8)) (name : String)
    (entries : List (String × List (List UInt8))) :
    (entries.map (adjust change name)).map Prod.fst = entries.map Prod.fst := by
  rw [List.map_map]
  refine List.map_congr_left (fun entry _ => ?_)
  simp only [Function.comp_apply,adjust]
  split <;> rfl

variable (headers : HeaderMap)

theorem containsKey_names (name : String) :
    headers.containsKey name = true ↔ name ∈ headers.entries.map Prod.fst := by
  simp only [containsKey,List.any_eq_true,beq_iff_eq,List.mem_map]

-- A present name keeps its place; a new one goes to the end.
def update (headers : HeaderMap) (name : String) (value : List UInt8)
    (change : List (List UInt8) → List (List UInt8)) : HeaderMap :=
  if present : headers.containsKey name then
    ⟨headers.entries.map (adjust change name),by rw [adjust_names]; exact headers.distinct⟩
  else
    ⟨headers.entries ++ [(name,[value])],by
      rw [List.map_append]
      refine List.nodup_append.mpr ⟨headers.distinct,List.nodup_singleton _,?_⟩
      intro held member other single same
      have new : other = name := List.mem_singleton.mp single
      exact present ((containsKey_names headers name).mpr (new ▸ same ▸ member))⟩

def insert (headers : HeaderMap) (name : String) (value : List UInt8) : HeaderMap :=
  headers.update name value (fun _ => [value])

def append (headers : HeaderMap) (name : String) (value : List UInt8) : HeaderMap :=
  headers.update name value (fun values => values ++ [value])

theorem pairs_values (name : String) :
    (headers.pairs.filter (fun pair => pair.1 = name)).map Prod.snd = headers.getAll name := by
  obtain ⟨entries,distinct⟩ := headers
  unfold pairs getAll
  dsimp only
  induction entries with
  | nil => rfl
  | cons entry rest ih =>
      obtain ⟨fresh,others⟩ := List.nodup_cons.mp distinct
      rw [List.flatMap_cons,List.filter_append,List.map_append,ih others]
      by_cases here : entry.1 = name
      · have missing : rest.lookup name = none := by
          rw [List.lookup_eq_none_iff]
          intro other member
          have apart : name ≠ other.1 := fun same => fresh (List.mem_map.mpr ⟨other,member,(here.trans same).symm⟩)
          simpa using apart
        have found : (entry :: rest).lookup name = some entry.2 := by
          rw [← here]
          exact List.lookup_cons_self
        rw [missing,found]
        simp [here,List.filter_map,Function.comp_def]
      · have skipped : (entry :: rest).lookup name = rest.lookup name := by
          rw [List.lookup_cons,beq_eq_false_iff_ne.mpr (fun same => here same.symm)]
        rw [skipped]
        simp [here]

theorem containsKey_remove (name other : String) :
    (headers.remove name).containsKey other = true ↔ headers.containsKey other = true ∧ other ≠ name := by
  simp only [containsKey,remove,List.any_filter,List.any_eq_true,Bool.and_eq_true,bne_iff_ne,beq_iff_eq]
  constructor
  · intro found
    obtain ⟨entry,member,stays,here⟩ := found
    exact ⟨⟨entry,member,here⟩,here ▸ stays⟩
  · intro found
    obtain ⟨⟨entry,member,here⟩,stays⟩ := found
    exact ⟨entry,member,here ▸ stays,here⟩

theorem containsKey_removeAll (names : List String) (headers : HeaderMap) (other : String) :
    (names.foldl remove headers).containsKey other = true ↔ headers.containsKey other = true ∧ other ∉ names := by
  induction names generalizing headers with
  | nil => simp
  | cons name rest ih =>
      rw [List.foldl_cons,ih,containsKey_remove,and_assoc,List.mem_cons,not_or]

theorem containsKey_update (name other : String) (value : List UInt8) (change : List (List UInt8) → List (List UInt8)) :
    (headers.update name value change).containsKey other = true ↔ headers.containsKey other = true ∨ other = name := by
  rw [containsKey_names,containsKey_names]
  unfold update
  split
  · rename_i present
    rw [adjust_names]
    refine ⟨.inl,?_⟩
    intro either
    exact either.elim id (fun same => same ▸ (containsKey_names headers name).mp present)
  · rw [List.map_append,List.mem_append]
    exact or_congr_right List.mem_singleton

theorem lookup_none (name : String) :
    headers.entries.lookup name = none ↔ headers.containsKey name = false := by
  rw [List.lookup_eq_none_iff]
  unfold containsKey
  rw [List.any_eq_false]
  refine forall₂_congr (fun entry _ => ?_)
  rw [bne_iff_ne,beq_iff_eq]
  exact ne_comm

theorem getAll_missing {headers : HeaderMap} (missing : headers.containsKey name = false) : headers.getAll name = [] := by
  unfold getAll
  rw [(lookup_none headers name).mpr missing]
  rfl

theorem getAll_remove_self (name : String) : (headers.remove name).getAll name = [] := by
  apply getAll_missing
  rw [Bool.eq_false_iff]
  intro present
  exact ((containsKey_remove headers name name).mp present).2 rfl

theorem getAll_remove_of_ne (apart : other ≠ name) :
    (headers.remove name).getAll other = headers.getAll other := by
  obtain ⟨entries,distinct⟩ := headers
  unfold remove getAll
  dsimp only
  clear distinct
  induction entries with
  | nil => rfl
  | cons entry rest ih =>
      rw [List.filter_cons]
      split
      · rw [List.lookup_cons,List.lookup_cons]
        split
        · rfl
        · exact ih
      · rename_i gone
        have here : entry.1 = name := by simpa using gone
        rw [List.lookup_cons,beq_eq_false_iff_ne.mpr (here ▸ apart)]
        exact ih

theorem lookup_adjust (change : List (List UInt8) → List (List UInt8)) (name other : String)
    (entries : List (String × List (List UInt8))) :
    (entries.map (adjust change name)).lookup other =
      if other = name then (entries.lookup other).map change else entries.lookup other := by
  induction entries with
  | nil => simp
  | cons entry rest ih =>
      rw [List.map_cons,List.lookup_cons,List.lookup_cons]
      by_cases here : other = entry.1
      · by_cases named : entry.1 = name
        · simp [adjust,here,named]
        · simp [adjust,here,named]
      · have elsewhere : (other == (adjust change name entry).1) = false := by
          unfold adjust
          split <;> exact beq_eq_false_iff_ne.mpr here
        rw [elsewhere,beq_eq_false_iff_ne.mpr here]
        exact ih

theorem getAll_update_of_ne (value : List UInt8) (change : List (List UInt8) → List (List UInt8))
    (apart : other ≠ name) :
    (headers.update name value change).getAll other = headers.getAll other := by
  unfold update getAll
  split
  · rw [lookup_adjust,if_neg apart]
  · rw [List.lookup_append,List.lookup_cons,beq_eq_false_iff_ne.mpr apart]
    simp

theorem getAll_update_self (name : String) (value : List UInt8) (change : List (List UInt8) → List (List UInt8))
    (fresh : change [] = [value]) :
    (headers.update name value change).getAll name = change (headers.getAll name) := by
  by_cases present : headers.containsKey name = true
  · unfold update getAll
    rw [dif_pos present,lookup_adjust,if_pos rfl]
    cases found : headers.entries.lookup name with
    | some => rfl
    | none =>
        rw [(lookup_none headers name).mp found] at present
        cases present
  · have missing := Bool.eq_false_iff.mpr present
    rw [getAll_missing missing,fresh]
    unfold update getAll
    rw [dif_neg present,List.lookup_append,(lookup_none headers name).mpr missing,Option.none_or,List.lookup_cons_self]
    rfl

theorem getAll_insert_self (name : String) (value : List UInt8) :
    (headers.insert name value).getAll name = [value] := getAll_update_self headers name value _ rfl

theorem getAll_insert_of_ne (value : List UInt8) (apart : other ≠ name) :
    (headers.insert name value).getAll other = headers.getAll other := getAll_update_of_ne headers value _ apart

theorem getAll_append_self (name : String) (value : List UInt8) :
    (headers.append name value).getAll name = headers.getAll name ++ [value] :=
  getAll_update_self headers name value _ rfl

theorem getAll_append_of_ne (value : List UInt8) (apart : other ≠ name) :
    (headers.append name value).getAll other = headers.getAll other := getAll_update_of_ne headers value _ apart

theorem entries_inj {left right : HeaderMap} (same : left.entries = right.entries) : left = right := by
  obtain ⟨first,_⟩ := left
  obtain ⟨second,_⟩ := right
  cases same
  rfl

def appendPair (headers : HeaderMap) (pair : String × List UInt8) : HeaderMap := headers.append pair.1 pair.2

theorem append_new (value : List UInt8) (fresh : name ∉ headers.entries.map Prod.fst) :
    (headers.append name value).entries = headers.entries ++ [(name,[value])] := by
  have missing : ¬ headers.containsKey name = true := mt (containsKey_names headers name).mp fresh
  simp [append,update,missing]

theorem append_last {headers : HeaderMap} (value : List UInt8) (last : headers.entries = front ++ [(name,held)]) :
    (headers.append name value).entries = front ++ [(name,held ++ [value])] := by
  have present : headers.containsKey name = true := by
    rw [containsKey_names,last]
    simp
  have apart : ∀ entry ∈ front, entry.1 ≠ name := by
    intro entry member same
    have distinct := headers.distinct
    rw [last,List.map_append,List.nodup_append] at distinct
    exact distinct.2.2 entry.1 (List.mem_map_of_mem member) name (by simp) same
  have kept : front.map (adjust (fun values => values ++ [value]) name) = front := by
    conv_rhs => rw [← List.map_id front]
    exact List.map_congr_left (fun entry member => if_neg (apart entry member))
  simp [append,update,present,last,kept,adjust]

theorem appendPairs_last (values : List (List UInt8)) {headers : HeaderMap}
    (last : headers.entries = front ++ [(name,held)]) :
    ((values.map (fun value => (name,value))).foldl appendPair headers).entries = front ++ [(name,held ++ values)] := by
  induction values generalizing headers held with
  | nil => simpa using last
  | cons value rest ih => simpa [List.append_assoc,appendPair] using ih (append_last value last)

theorem appendPairs (entries : List (String × List (List UInt8))) (headers : HeaderMap)
    (distinct : ((headers.entries ++ entries).map Prod.fst).Nodup) (filled : ∀ entry ∈ entries, entry.2 ≠ []) :
    ((entries.flatMap (fun entry => entry.2.map (fun value => (entry.1,value)))).foldl appendPair headers).entries =
      headers.entries ++ entries := by
  induction entries generalizing headers with
  | nil => simp
  | cons entry rest ih =>
      obtain ⟨name,values⟩ := entry
      obtain ⟨some_there,others⟩ := List.forall_mem_cons.mp filled
      obtain ⟨first,more,rfl⟩ := List.exists_cons_of_ne_nil some_there
      have fresh : name ∉ headers.entries.map Prod.fst := by
        intro member
        rw [List.map_append,List.nodup_append] at distinct
        exact distinct.2.2 name member name (by simp) rfl
      have grown := appendPairs_last more (append_new headers first fresh)
      have later := ih ((more.map (fun value => (name,value))).foldl appendPair (headers.append name first))
        (by rw [grown]; simpa using distinct) others
      rw [grown] at later
      simpa [appendPair] using later

theorem pairs_rebuild (filled : ∀ entry ∈ headers.entries, entry.2 ≠ []) :
    headers.pairs.foldl appendPair .empty = headers :=
  entries_inj (appendPairs headers.entries .empty headers.distinct filled)

-- One entry in two maps; only the values under a hidden name may differ.
def SameEntry (hidden : String → Bool) (left right : String × List (List UInt8)) : Prop :=
  left.1 = right.1 ∧ (left.2 = right.2 ∨ hidden left.1 = true)

-- Two maps with the same names in the same places.
def Agree (hidden : String → Bool) (left right : HeaderMap) : Prop :=
  List.Forall₂ (SameEntry hidden) left.entries right.entries

namespace Agree

variable {hidden : String → Bool} {left right : HeaderMap}

theorem lookup (agree : Agree hidden left right) (name : String) :
    (left.entries.lookup name = none ∧ right.entries.lookup name = none) ∨
      ∃ values others, left.entries.lookup name = some values ∧ right.entries.lookup name = some others ∧
        (values = others ∨ hidden name = true) := by
  unfold Agree at agree
  generalize left.entries = first at agree ⊢
  generalize right.entries = second at agree ⊢
  induction agree with
  | nil => exact .inl ⟨rfl,rfl⟩
  | @cons entry other _ _ same _ ih =>
      by_cases here : name = entry.1
      · refine .inr ⟨entry.2,other.2,?_,?_,?_⟩
        · rw [here]
          exact List.lookup_cons_self
        · rw [here,same.1]
          exact List.lookup_cons_self
        · rw [here]
          exact same.2
      · have elsewhere : ¬ name = other.1 := same.1 ▸ here
        rw [List.lookup_cons,List.lookup_cons,beq_eq_false_iff_ne.mpr here,beq_eq_false_iff_ne.mpr elsewhere]
        exact ih

theorem getAll (agree : Agree hidden left right) (shown : hidden name = false) : left.getAll name = right.getAll name := by
  unfold HeaderMap.getAll
  rcases agree.lookup name with ⟨first,second⟩ | ⟨values,others,first,second,same⟩
  · rw [first,second]
  · rw [first,second,same.resolve_right (by simp [shown])]

theorem containsKey (agree : Agree hidden left right) (name : String) : left.containsKey name = right.containsKey name := by
  unfold Agree at agree
  unfold HeaderMap.containsKey
  generalize left.entries = first at agree ⊢
  generalize right.entries = second at agree ⊢
  induction agree with
  | nil => rfl
  | cons same _ ih => rw [List.any_cons,List.any_cons,same.1,ih]

theorem remove (agree : Agree hidden left right) (name : String) : Agree hidden (left.remove name) (right.remove name) := by
  unfold Agree at agree ⊢
  change List.Forall₂ _ (left.entries.filter (·.1 != name)) (right.entries.filter (·.1 != name))
  generalize left.entries = first at agree ⊢
  generalize right.entries = second at agree ⊢
  induction agree with
  | nil => exact .nil
  | @cons entry other _ _ same _ ih =>
      by_cases gone : entry.1 = name
      · have goneToo : other.1 = name := same.1 ▸ gone
        simpa [gone,goneToo] using ih
      · have stays : ¬ other.1 = name := same.1 ▸ gone
        simpa [gone,stays] using And.intro same ih

theorem update (agree : Agree hidden left right) (name : String) (value : List UInt8)
    (change : List (List UInt8) → List (List UInt8)) :
    Agree hidden (left.update name value change) (right.update name value change) := by
  have both := agree.containsKey name
  unfold Agree at agree ⊢
  unfold HeaderMap.update
  by_cases present : left.containsKey name = true
  · rw [dif_pos present,dif_pos (both ▸ present)]
    refine List.forall₂_map_left_iff.mpr (List.forall₂_map_right_iff.mpr (agree.imp ?_))
    intro entry other same
    unfold adjust
    by_cases here : entry.1 = name
    · rw [if_pos here,if_pos (same.1 ▸ here)]
      exact ⟨same.1,same.2.imp (congrArg change) id⟩
    · rw [if_neg here,if_neg (same.1 ▸ here)]
      exact same
  · rw [dif_neg present,dif_neg (both ▸ present)]
    exact List.rel_append agree (.cons ⟨rfl,.inl rfl⟩ .nil)

end Agree

-- Names are lower case, and each of them holds at least one value.
structure Proper (headers : HeaderMap) : Prop where
  lower : ∀ entry ∈ headers.entries, Bytes.lowercase entry.1 = entry.1
  filled : ∀ entry ∈ headers.entries, entry.2 ≠ []

namespace Proper

variable {headers : HeaderMap}

theorem remove (proper : Proper headers) (name : String) : Proper (headers.remove name) :=
  ⟨fun entry member => proper.lower entry (List.mem_filter.mp member).1,
    fun entry member => proper.filled entry (List.mem_filter.mp member).1⟩

theorem update (proper : Proper headers) (name : String) (value : List UInt8)
    (change : List (List UInt8) → List (List UInt8)) (lower : Bytes.lowercase name = name)
    (filled : ∀ values, change values ≠ []) : Proper (headers.update name value change) := by
  have origin (entry : String × List (List UInt8)) (member : entry ∈ (headers.update name value change).entries) :
      (entry.1 = name ∧ entry.2 ≠ []) ∨ entry ∈ headers.entries := by
    unfold HeaderMap.update at member
    split at member
    · obtain ⟨source,listed,rfl⟩ := List.mem_map.mp member
      unfold adjust
      by_cases here : source.1 = name
      · rw [if_pos here]
        exact .inl ⟨here,filled _⟩
      · rw [if_neg here]
        exact .inr listed
    · rcases List.mem_append.mp member with old | new
      · exact .inr old
      · rw [List.mem_singleton.mp new]
        exact .inl ⟨rfl,List.cons_ne_nil _ _⟩
  constructor
  · intro entry member
    rcases origin entry member with ⟨named,_⟩ | old
    · rw [named]
      exact lower
    · exact proper.lower entry old
  · intro entry member
    rcases origin entry member with ⟨_,some_there⟩ | old
    · exact some_there
    · exact proper.filled entry old

theorem insert (proper : Proper headers) (name : String) (value : List UInt8) (lower : Bytes.lowercase name = name) :
    Proper (headers.insert name value) :=
  proper.update name value _ lower (fun _ => List.cons_ne_nil _ _)

theorem append (proper : Proper headers) (name : String) (value : List UInt8) (lower : Bytes.lowercase name = name) :
    Proper (headers.append name value) :=
  proper.update name value _ lower (fun _ => List.append_ne_nil_of_right_ne_nil _ (List.cons_ne_nil _ _))

theorem lookup (proper : Proper headers) (name : String) (values : List (List UInt8))
    (found : headers.entries.lookup name = some values) : values ≠ [] ∧ Bytes.lowercase name = name := by
  obtain ⟨before,after,split,_⟩ := List.lookup_eq_some_iff.mp found
  have member : (name,values) ∈ headers.entries := by
    rw [split]
    exact List.mem_append_right _ List.mem_cons_self
  exact ⟨proper.filled _ member,proper.lower _ member⟩

theorem getAll_eq_nil (proper : Proper headers) (name : String) :
    headers.getAll name = [] ↔ headers.entries.lookup name = none := by
  unfold getAll
  cases found : headers.entries.lookup name with
  | none => simp
  | some values => simpa using (proper.lookup name values found).1

end Proper

end HeaderMap

end Freja
