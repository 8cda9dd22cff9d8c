import Freja.Domain.Endpoint
import Mathlib

namespace Freja.Domain
open Bytes Splitting

def labels (name : String) : List (List Char) := name.toList.splitOn '.'

-- A letter after lowering, or a digit.
def LetterOrDigit (character : Char) : Prop :=
  ('a' ≤ character ∧ character ≤ 'z') ∨ ('0' ≤ character ∧ character ≤ '9')

structure DnsLabel (label : List Char) : Prop where
  size : 1 ≤ label.length ∧ label.length ≤ 63
  written : ∀ character ∈ label, LetterOrDigit character ∨ character = '-'
  inner : label.head? ≠ some '-' ∧ label.getLast? ≠ some '-'

structure DnsName (text : String) : Prop where
  bytes : 1 ≤ text.utf8ByteSize ∧ text.utf8ByteSize ≤ 253
  dotted : ∃ parts, Separated '.' parts text.toList ∧ ∀ label ∈ parts, DnsLabel label

theorem lowered_small {character : Char} (low : character.toLower = character) : character.isUpper = false := by
  by_contra upper
  have capital : character.val ≥ 'A'.val ∧ character.val ≤ 'Z'.val := by
    simpa [Char.isUpper] using upper
  have shifted : character.toLower = ⟨character.val + 32,_⟩ := dif_pos capital
  rw [low] at shifted
  have moved : character.val = character.val + 32 := congrArg Char.val shifted
  simp at moved

theorem lowered_letter {character : Char} (low : character.toLower = character) :
    isLabelCharacter character = true ↔ LetterOrDigit character ∨ character = '-' := by
  have small := lowered_small low
  unfold isLabelCharacter LetterOrDigit Char.isAlphanum Char.isAlpha
  rw [small]
  simp only [Bool.false_or,Bool.or_eq_true,beq_iff_eq]
  apply or_congr
  · apply or_congr
    · simp [Char.isLower,Char.le_def]
    · simp [Char.isDigit,Char.le_def]
  · exact Iff.rfl

theorem labelCharacter_size {character : Char} (valid : isLabelCharacter character = true) :
    character.utf8Size = 1 := by
  rw [Char.utf8Size_eq_one_iff]
  unfold isLabelCharacter Char.isAlphanum Char.isAlpha Char.isUpper Char.isLower Char.isDigit at valid
  simp only [Bool.or_eq_true,Bool.and_eq_true,decide_eq_true_eq,beq_iff_eq,UInt32.le_iff_toNat_le,ge_iff_le] at valid ⊢
  rcases valid with ((upper | lower) | digit) | hyphen
  · exact Nat.le_trans upper.2 (by decide)
  · exact Nat.le_trans lower.2 (by decide)
  · exact Nat.le_trans digit.2 (by decide)
  · subst hyphen
    decide

theorem utf8ByteSize_single (label : List Char) (single : ∀ character ∈ label, character.utf8Size = 1) :
    (String.ofList label).utf8ByteSize = label.length := by
  rw [String.utf8ByteSize_ofList]
  induction label with
  | nil => rfl
  | cons character rest ih =>
      have tail := ih (fun other member => single other (List.mem_cons_of_mem _ member))
      rw [String.utf8Len_cons,tail,single character List.mem_cons_self,List.length_cons]

theorem find_invalid {label : List Char} :
    label.find? (fun character => !isLabelCharacter character) = none ↔
      ∀ character ∈ label, isLabelCharacter character = true := by
  simp [List.find?_eq_none]

theorem checkLabel_ok {label : List Char} (low : ∀ character ∈ label, character.toLower = character) :
    checkLabel label = .ok () ↔ DnsLabel label := by
  have sized (valid : ∀ character ∈ label, isLabelCharacter character = true) :
      (String.ofList label).utf8ByteSize = label.length :=
    utf8ByteSize_single label (fun character member => labelCharacter_size (valid character member))
  have letters : (∀ character ∈ label, isLabelCharacter character = true) ↔
      ∀ character ∈ label, LetterOrDigit character ∨ character = '-' :=
    forall₂_congr (fun character member => lowered_letter (low character member))
  constructor
  · intro accepted
    unfold checkLabel at accepted
    split at accepted
    · cases accepted
    · rename_i present
      split at accepted
      · cases accepted
      · rename_i short
        split at accepted
        · cases accepted
        · rename_i inside
          split at accepted
          · cases accepted
          · rename_i found
            have valid := find_invalid.mp found
            rw [sized valid] at short
            simp only [Bool.or_eq_true,beq_iff_eq,not_or] at inside
            have nonempty : 0 < label.length := List.length_pos_iff.mpr (by simpa using present)
            exact ⟨⟨nonempty,Nat.le_of_not_lt short⟩,letters.mp valid,inside⟩
  · intro shape
    have valid := letters.mpr shape.written
    have present := List.length_pos_iff.mp shape.size.1
    have short : ¬ label.length > maximumDnsLabelBytes := Nat.not_lt.mpr shape.size.2
    unfold checkLabel
    rw [if_neg (by simpa using present),sized valid,if_neg short,if_neg (by simpa using shape.inner),
      find_invalid.mpr valid]

theorem forM_ok {check : α → Except ε Unit} {items : List α} :
    items.forM check = .ok () ↔ ∀ item ∈ items, check item = .ok () := by
  induction items with
  | nil => exact ⟨fun _ item member => absurd member List.not_mem_nil,fun _ => rfl⟩
  | cons item rest ih =>
      rw [List.forall_mem_cons,← ih]
      change (check item).bind (fun _ => rest.forM check) = .ok () ↔ _
      cases check item with
      | error => exact ⟨(fun failed => by cases failed),(fun both => by cases both.1)⟩
      | ok => exact ⟨fun later => ⟨rfl,later⟩,fun both => both.2⟩

theorem checkHostName_ok {text : String} (low : lowercase text = text) :
    checkHostName text = .ok () ↔ DnsName text := by
  have lowered : ∀ character ∈ text.toList, character.toLower = character := by
    intro character member
    have mapped : text.toList.map Char.toLower = text.toList.map id := by
      have lists := congrArg String.toList low
      rwa [lowercase,String.toList_ofList,← List.map_id text.toList,List.map_map] at lists
    exact List.map_inj_left.mp mapped character member
  have parts : ∀ label ∈ labels text, (checkLabel label = .ok () ↔ DnsLabel label) := by
    intro label member
    apply checkLabel_ok
    intro character inside
    exact lowered character (Separated.mem (splitOn_separated.mp rfl) member inside)
  have checked : (labels text).forM checkLabel = .ok () ↔ ∀ label ∈ labels text, DnsLabel label := by
    rw [forM_ok]
    exact forall₂_congr parts
  constructor
  · intro accepted
    unfold checkHostName at accepted
    split at accepted
    · cases accepted
    · rename_i present
      split at accepted
      · cases accepted
      · rename_i short
        have some : text.utf8ByteSize ≠ 0 := by
          simpa [String.isEmpty_iff_utf8ByteSize_eq_zero] using present
        exact ⟨⟨Nat.pos_of_ne_zero some,Nat.le_of_not_lt short⟩,labels text,splitOn_separated.mp rfl,checked.mp accepted⟩
  · rintro ⟨⟨some,short⟩,pieces,separated,valid⟩
    have same : labels text = pieces := splitOn_separated.mpr separated
    have present : ¬ text.isEmpty = true := by
      rw [String.isEmpty_iff_utf8ByteSize_eq_zero]
      omega
    have bounded : ¬ text.utf8ByteSize > maximumDnsNameBytes := Nat.not_lt.mpr short
    unfold checkHostName
    rw [if_neg present,if_neg bounded]
    exact checked.mpr (same ▸ valid)

theorem HostName.new_ok {value : String} {host : HostName} :
    HostName.new value = .ok host ↔ host.text = lowercase (stripRootDot value) := by
  unfold HostName.new
  dsimp only
  split
  · rename_i accepted
    constructor
    · intro built
      cases built
      rfl
    · intro same
      cases host with
      | mk =>
          subst same
          rfl
  · rename_i error failed
    refine ⟨(fun built => by cases built),?_⟩
    intro same
    have valid := host.valid
    rw [same,failed] at valid
    cases valid

theorem HostName.new_accepts {value : String} :
    (∃ host, HostName.new value = .ok host) ↔ DnsName (lowercase (stripRootDot value)) := by
  rw [← checkHostName_ok (lowercase_lowercase _)]
  constructor
  · intro built
    obtain ⟨host,built⟩ := built
    rw [← new_ok.mp built]
    exact host.valid
  · intro valid
    exact ⟨⟨_,lowercase_lowercase _,valid⟩,new_ok.mpr rfl⟩

-- A label is never empty, so a name that was accepted has no dot at its end.
theorem HostName.rootless (host : HostName) : stripRootDot host.text = host.text := by
  unfold stripRootDot
  apply if_neg
  intro dotted
  obtain ⟨front,whole⟩ := List.getLast?_eq_some_iff.mp dotted
  obtain ⟨pieces,separated,valid⟩ := ((checkHostName_ok host.lower).mp host.valid).dotted
  have split : pieces = front.splitOn '.' ++ [[]] := by
    rw [← splitOn_separated.mpr separated,whole,List.splitOn_append_cons_self,List.splitOn_nil]
  have empty : DnsLabel [] := valid [] (by simp [split])
  exact absurd empty.size.1 (by decide)

theorem HostName.characters (host : HostName) :
    ∀ character ∈ host.text.toList, LetterOrDigit character ∨ character = '-' ∨ character = '.' := by
  intro character member
  obtain ⟨pieces,separated,valid⟩ := ((checkHostName_ok host.lower).mp host.valid).dotted
  rcases separated.element member with dot | ⟨label,inside,found⟩
  · exact .inr (.inr dot)
  · rcases (valid label inside).written character found with letter | hyphen
    · exact .inl letter
    · exact .inr (.inl hyphen)

theorem HostName.new_text (host : HostName) : HostName.new host.text = .ok host := by
  rw [new_ok,host.rootless,host.lower]

end Freja.Domain
