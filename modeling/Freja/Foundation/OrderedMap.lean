import Mathlib.Data.String.Basic
import Mathlib.Order.Defs.LinearOrder

namespace Freja

-- A finite map kept in strictly increasing key order, so that equal maps are
-- equal lists and iteration has one order.
structure OrderedMap (κ : Type u) [LinearOrder κ] (α : Type v) where
  entries : List (κ × α)
  sorted : entries.Pairwise (fun a b => a.1 < b.1)
  deriving DecidableEq, Repr

namespace OrderedMap

variable {κ : Type u} [LinearOrder κ] {α : Type v} {β : Type w}

def empty : OrderedMap κ α := ⟨[],List.Pairwise.nil⟩

def get? (map : OrderedMap κ α) (key : κ) : Option α := map.entries.lookup key

def upsertEntries (key : κ) (update : Option α → α) : List (κ × α) → List (κ × α)
  | [] => [(key,update none)]
  | entry :: rest =>
      if key < entry.1 then (key,update none) :: entry :: rest
      else if key = entry.1 then (key,update (some entry.2)) :: rest
      else entry :: upsertEntries key update rest

theorem upsertEntries_keys (key : κ) (update : Option α → α) (entries : List (κ × α)) (entry : κ × α)
    (member : entry ∈ upsertEntries key update entries) : entry.1 = key ∨ entry ∈ entries := by
  induction entries with
  | nil =>
      rw [upsertEntries,List.mem_singleton] at member
      exact .inl (member ▸ rfl)
  | cons first rest ih =>
      unfold upsertEntries at member
      split at member
      · rcases List.mem_cons.mp member with rfl | old
        · exact .inl rfl
        · exact .inr old
      · split at member
        · rcases List.mem_cons.mp member with rfl | old
          · exact .inl rfl
          · exact .inr (List.mem_cons_of_mem _ old)
        · rcases List.mem_cons.mp member with rfl | old
          · exact .inr List.mem_cons_self
          · exact (ih old).imp id (List.mem_cons_of_mem _)

theorem upsertEntries_sorted (key : κ) (update : Option α → α) (entries : List (κ × α))
    (sorted : entries.Pairwise (fun a b => a.1 < b.1)) :
    (upsertEntries key update entries).Pairwise (fun a b => a.1 < b.1) := by
  induction entries with
  | nil => exact List.pairwise_singleton _ _
  | cons first rest ih =>
      obtain ⟨least,tail⟩ := List.pairwise_cons.mp sorted
      unfold upsertEntries
      split
      · rename_i before
        refine List.pairwise_cons.mpr ⟨fun entry member => ?_,sorted⟩
        rcases List.mem_cons.mp member with rfl | old
        · exact before
        · exact before.trans (least entry old)
      · rename_i notBefore
        split
        · rename_i same
          exact List.pairwise_cons.mpr ⟨fun entry member => same ▸ least entry member,tail⟩
        · rename_i different
          refine List.pairwise_cons.mpr ⟨fun entry member => ?_,ih tail⟩
          rcases upsertEntries_keys key update rest entry member with same | old
          · rw [same]
            exact lt_of_le_of_ne (not_lt.mp notBefore) (Ne.symm different)
          · exact least entry old

def upsert (map : OrderedMap κ α) (key : κ) (update : Option α → α) : OrderedMap κ α :=
  ⟨upsertEntries key update map.entries,upsertEntries_sorted key update map.entries map.sorted⟩

def mapValues (change : κ → α → β) (map : OrderedMap κ α) : OrderedMap κ β :=
  ⟨map.entries.map (fun entry => (entry.1,change entry.1 entry.2)),
   List.pairwise_map.mpr map.sorted⟩

@[ext] theorem ext {a b : OrderedMap κ α} (same : a.entries = b.entries) : a = b := by
  cases a
  cases b
  cases same
  rfl

theorem lookup_mapValues (change : κ → α → β) (entries : List (κ × α)) (key : κ) :
    (entries.map (fun entry => (entry.1,change entry.1 entry.2))).lookup key = (entries.lookup key).map (change key) := by
  induction entries with
  | nil => rfl
  | cons first rest ih =>
      obtain ⟨name,value⟩ := first
      simp only [List.map_cons,List.lookup_cons]
      cases same : key == name with
      | true => rw [eq_of_beq same]; rfl
      | false => exact ih

@[simp] theorem get?_mapValues (change : κ → α → β) (map : OrderedMap κ α) (key : κ) :
    (map.mapValues change).get? key = (map.get? key).map (change key) :=
  lookup_mapValues change map.entries key

theorem lookup_here (entry : κ × α) (rest : List (κ × α)) : (entry :: rest).lookup entry.1 = some entry.2 :=
  List.lookup_cons_self

theorem lookup_there (entry : κ × α) (rest : List (κ × α)) (other : key ≠ entry.1) :
    (entry :: rest).lookup key = rest.lookup key := by
  rw [List.lookup_cons,beq_eq_false_iff_ne.mpr other]

theorem lookup_below {key : κ} {entries : List (κ × α)} (below : ∀ entry ∈ entries, key < entry.1) :
    entries.lookup key = none := by
  rw [List.lookup_eq_none_iff]
  intro entry member
  simpa using (below entry member).ne

theorem lookup_upsertEntries (key other : κ) (update : Option α → α) (entries : List (κ × α))
    (sorted : entries.Pairwise (fun a b => a.1 < b.1)) :
    (upsertEntries key update entries).lookup other =
      if other = key then some (update (entries.lookup key)) else entries.lookup other := by
  induction entries with
  | nil =>
      by_cases same : other = key
      · rw [if_pos same,same]
        exact lookup_here (key,update none) []
      · rw [if_neg same]
        exact lookup_there (key,update none) [] same
  | cons first rest ih =>
      obtain ⟨least,tail⟩ := List.pairwise_cons.mp sorted
      unfold upsertEntries
      by_cases before : key < first.1
      · -- A key before the first one is not in the list.
        have missing : (first :: rest).lookup key = none := by
          apply lookup_below
          intro entry member
          rcases List.mem_cons.mp member with rfl | later
          · exact before
          · exact before.trans (least entry later)
        rw [if_pos before,missing]
        by_cases same : other = key
        · rw [if_pos same,same]
          exact lookup_here (key,update none) _
        · rw [if_neg same]
          exact lookup_there (key,update none) _ same
      · rw [if_neg before]
        by_cases here : key = first.1
        · rw [if_pos here]
          by_cases same : other = key
          · rw [if_pos same,same,here,lookup_here]
            exact lookup_here (first.1,update (some first.2)) rest
          · rw [if_neg same,lookup_there first rest (here ▸ same)]
            exact lookup_there (key,update (some first.2)) rest same
        · rw [if_neg here,lookup_there first rest here]
          by_cases first_one : other = first.1
          · have different : ¬ other = key := fun same => here (same ▸ first_one)
            rw [if_neg different,first_one,lookup_here,lookup_here]
          · rw [lookup_there first _ first_one,lookup_there first _ first_one]
            exact ih tail

theorem get?_upsert (map : OrderedMap κ α) (key other : κ) (update : Option α → α) :
    (map.upsert key update).get? other = if other = key then some (update (map.get? key)) else map.get? other :=
  lookup_upsertEntries key other update map.entries map.sorted

theorem first_least (sorted : (first :: rest : List (κ × α)).Pairwise (fun a b => a.1 < b.1))
    (found : (first :: rest).lookup key = some value) : first.1 ≤ key := by
  by_contra above
  have below := not_le.mp above
  rw [lookup_below] at found
  · cases found
  · intro entry member
    rcases List.mem_cons.mp member with rfl | later
    · exact below
    · exact below.trans ((List.pairwise_cons.mp sorted).1 entry later)

theorem entries_unique (first second : List (κ × α)) (sortedFirst : first.Pairwise (fun a b => a.1 < b.1))
    (sortedSecond : second.Pairwise (fun a b => a.1 < b.1)) (same : ∀ key, first.lookup key = second.lookup key) :
    first = second := by
  induction first generalizing second with
  | nil =>
      cases second with
      | nil => rfl
      | cons entry =>
          have found := same entry.1
          rw [lookup_here] at found
          cases found
  | cons entry rest ih =>
      obtain ⟨least,tail⟩ := List.pairwise_cons.mp sortedFirst
      cases second with
      | nil =>
          have found := same entry.1
          rw [lookup_here] at found
          cases found
      | cons other others =>
          obtain ⟨leastOther,tailOther⟩ := List.pairwise_cons.mp sortedSecond
          have key : entry.1 = other.1 := by
            apply le_antisymm
            · exact first_least sortedFirst ((same other.1).trans (lookup_here other others))
            · exact first_least sortedSecond ((same entry.1).symm.trans (lookup_here entry rest))
          have value : entry.2 = other.2 := by
            have found := same entry.1
            rw [lookup_here,key,lookup_here] at found
            exact Option.some.inj found
          have tails : rest = others := by
            apply ih others tail tailOther
            intro name
            by_cases head : name = entry.1
            · rw [head,lookup_below least,lookup_below (key ▸ leastOther)]
            · have found := same name
              rwa [lookup_there _ _ head,lookup_there _ _ (key ▸ head)] at found
          rw [tails,Prod.ext key value]

theorem ext_get? {first second : OrderedMap κ α} (same : ∀ key, first.get? key = second.get? key) : first = second :=
  ext (entries_unique first.entries second.entries first.sorted second.sorted same)

-- Values collected under their keys, those of one key in their order.
def gather (entries : List (κ × List α)) (map : OrderedMap κ (List α)) : OrderedMap κ (List α) :=
  entries.foldl (fun map entry => map.upsert entry.1 (fun present => present.getD [] ++ entry.2)) map

-- What a list of entries holds for a key.
def collected (key : κ) (entries : List (κ × List α)) : List (List α) :=
  (entries.filter (fun entry => entry.1 = key)).map Prod.snd

@[simp] theorem collected_here (entry : κ × List α) (rest : List (κ × List α)) :
    collected entry.1 (entry :: rest) = entry.2 :: collected entry.1 rest := by
  simp [collected]

theorem collected_there (entry : κ × List α) (rest : List (κ × List α)) (other : entry.1 ≠ key) :
    collected key (entry :: rest) = collected key rest := by
  simp [collected,other]

theorem collected_sorted (entries : List (κ × List α)) (sorted : entries.Pairwise (fun a b => a.1 < b.1)) (key : κ) :
    collected key entries = (entries.lookup key).toList := by
  induction entries with
  | nil => rfl
  | cons entry rest ih =>
      obtain ⟨least,tail⟩ := List.pairwise_cons.mp sorted
      by_cases here : entry.1 = key
      · subst here
        rw [collected_here,ih tail,lookup_here,lookup_below least]
        rfl
      · rw [collected_there entry rest here,ih tail,lookup_there entry rest (Ne.symm here)]

theorem get?_gather (entries : List (κ × List α)) (map : OrderedMap κ (List α)) (key : κ) :
    (gather entries map).get? key =
      if collected key entries = [] then map.get? key
      else some ((map.get? key).getD [] ++ (collected key entries).flatten) := by
  induction entries generalizing map with
  | nil => rfl
  | cons entry rest ih =>
      change (gather rest _).get? key = _
      rw [ih,get?_upsert]
      by_cases here : entry.1 = key
      · subst here
        rw [collected_here,if_pos rfl,if_neg (List.cons_ne_nil _ _),List.flatten_cons,← List.append_assoc]
        split
        · rename_i last
          rw [last,List.flatten_nil,List.append_nil]
        · rfl
      · have other : ¬ key = entry.1 := fun same => here same.symm
        rw [collected_there entry rest here,if_neg other]

theorem gather_entries (map : OrderedMap κ (List α)) : gather map.entries empty = map := by
  apply ext_get?
  intro key
  rw [get?_gather,collected_sorted map.entries map.sorted]
  change _ = map.entries.lookup key
  cases map.entries.lookup key with
  | none => rfl
  | some => simp [empty,get?]

theorem gather_keys (keep : κ → Prop) (entries : List (κ × List α)) (map : OrderedMap κ (List α))
    (new : ∀ entry ∈ entries, keep entry.1) (old : ∀ entry ∈ map.entries, keep entry.1) :
    ∀ entry ∈ (gather entries map).entries, keep entry.1 := by
  induction entries generalizing map with
  | nil => exact old
  | cons entry rest ih =>
      apply ih _ (fun other member => new other (List.mem_cons_of_mem _ member))
      intro other member
      rcases upsertEntries_keys _ _ _ other member with same | kept
      · rw [same]
        exact new entry List.mem_cons_self
      · exact old other kept

-- Entries taken one after the other; a later one of a key replaces an earlier one.
def insertAll (entries : List (κ × α)) (map : OrderedMap κ α) : OrderedMap κ α :=
  entries.foldl (fun map entry => map.upsert entry.1 (fun _ => entry.2)) map

theorem get?_insertAll (entries : List (κ × α)) (sorted : entries.Pairwise (fun a b => a.1 < b.1))
    (map : OrderedMap κ α) (key : κ) : (insertAll entries map).get? key = (entries.lookup key).or (map.get? key) := by
  induction entries generalizing map with
  | nil => rfl
  | cons entry rest ih =>
      obtain ⟨least,tail⟩ := List.pairwise_cons.mp sorted
      change (insertAll rest _).get? key = _
      rw [ih tail,get?_upsert]
      by_cases here : key = entry.1
      · subst here
        rw [if_pos rfl,lookup_here,lookup_below least]
        rfl
      · rw [if_neg here,lookup_there entry rest here]

theorem insertAll_entries (map : OrderedMap κ α) : insertAll map.entries empty = map := by
  apply ext_get?
  intro key
  rw [get?_insertAll map.entries map.sorted]
  exact Option.or_none

end OrderedMap

end Freja
