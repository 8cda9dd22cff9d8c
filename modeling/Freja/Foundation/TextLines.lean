import Freja.Foundation.Bytes

namespace Freja.TextLines
open Bytes

-- A line without one mark at its end.
def chomp [DecidableEq α] (mark : α) (line : List α) : List α :=
  if line.getLast? = some mark then line.dropLast else line

theorem chomp_length [DecidableEq α] (mark : α) (line : List α) : line.length ≤ (chomp mark line).length + 1 := by
  unfold chomp
  split
  · rw [List.length_dropLast]
    omega
  · exact Nat.le_succ _

-- The lines that a newline ends, without the newline and one carriage return before it,
-- and what follows the last newline where there is something.
def textLines (text : List Char) : List (List Char) :=
  let pieces := text.splitOn '\n'
  pieces.dropLast.map (chomp '\r') ++ pieces.getLast?.toList.filter (· ≠ [])

def lines (text : String) : List String := (textLines text.toList).map String.ofList

theorem splitOn_unbroken [BEq α] [LawfulBEq α] {separator : α} {whole : List α} (free : separator ∉ whole) :
    whole.splitOn separator = [whole] := by
  have joined : ([separator].intercalate [whole]).splitOn separator = [whole] :=
    List.splitOn_intercalate separator (by simpa using free) (by simp)
  rwa [List.intercalate_singleton] at joined

theorem textLines_nil : textLines [] = [] := by decide

theorem textLines_last {text : List Char} (some : text ≠ []) (free : '\n' ∉ text) : textLines text = [text] := by
  unfold textLines
  rw [splitOn_unbroken free]
  simp [some]

theorem textLines_line {first : List Char} (free : '\n' ∉ first) (rest : List Char) :
    textLines (first ++ '\n' :: rest) = chomp '\r' first :: textLines rest := by
  unfold textLines
  rw [List.splitOn_append_cons_self,splitOn_unbroken free]
  cases pieces : rest.splitOn '\n' with
  | nil => exact absurd pieces (List.splitOn_ne_nil _ _)
  | cons => simp

def encode (text : List Char) : List UInt8 := text.flatMap String.utf8EncodeChar

theorem encode_append (first second : List Char) : encode (first ++ second) = encode first ++ encode second :=
  List.flatMap_append

theorem encode_cons (character : Char) (rest : List Char) :
    encode (character :: rest) = String.utf8EncodeChar character ++ encode rest := List.flatMap_cons

theorem utf8_ofList (text : List Char) : utf8 (String.ofList text) = encode text := by
  rw [utf8,String.toList_ofList,encode]

theorem encode_valid (text : List Char) : (encode text).toByteArray.validateUTF8 = true :=
  ByteArray.validateUTF8_eq_true_iff.mpr ByteArray.isValidUTF8_utf8Encode

theorem encodeChar_low {character : Char} {byte : UInt8} (member : byte ∈ String.utf8EncodeChar character)
    (low : byte.toNat < 128) : String.utf8EncodeChar character = [byte] ∧ character.toNat = byte.toNat := by
  have small : character.val.toNat < 1114112 := by
    have valid := character.valid
    simp only [UInt32.isValidChar,Nat.isValidChar] at valid
    omega
  unfold String.utf8EncodeChar at member ⊢
  simp only at member ⊢
  split at member
  · rename_i one
    have same := List.mem_singleton.mp member
    rw [if_pos one,same]
    refine ⟨rfl,?_⟩
    rw [UInt8.toNat_ofNat']
    change character.val.toNat = _
    omega
  · split at member
    · simp only [List.mem_cons,List.not_mem_nil,or_false] at member
      rcases member with rfl | rfl <;> rw [UInt8.toNat_ofNat'] at low <;> omega
    · split at member
      · simp only [List.mem_cons,List.not_mem_nil,or_false] at member
        rcases member with rfl | rfl | rfl <;> rw [UInt8.toNat_ofNat'] at low <;> omega
      · simp only [List.mem_cons,List.not_mem_nil,or_false] at member
        rcases member with rfl | rfl | rfl | rfl <;> rw [UInt8.toNat_ofNat'] at low <;> omega

theorem encode_free {text : List Char} (free : '\n' ∉ text) : 10 ∉ encode text := by
  intro member
  obtain ⟨character,inside,produced⟩ := List.mem_flatMap.mp member
  have code := (encodeChar_low produced (by decide)).2
  have same : character = '\n' := Char.toNat_inj.mp code
  exact free (same ▸ inside)

theorem encode_chomp (line : List Char) : encode (chomp '\r' line) = chomp 13 (encode line) := by
  rcases List.eq_nil_or_concat' line with rfl | ⟨front,last,rfl⟩
  · rfl
  · have single : encode [last] = String.utf8EncodeChar last := by
      rw [encode_cons]
      exact List.append_nil _
    have some : String.utf8EncodeChar last ≠ [] := by
      apply List.ne_nil_of_length_pos
      rw [String.length_utf8EncodeChar]
      exact last.utf8Size_pos
    unfold chomp
    rw [encode_append,single,List.getLast?_append_of_ne_nil _ some]
    by_cases marked : last = '\r'
    · subst marked
      rw [if_pos (by simp),if_pos (by decide),List.dropLast_concat]
      have byte : String.utf8EncodeChar '\r' = [13] := by decide
      rw [byte,List.dropLast_concat]
    · have other : (String.utf8EncodeChar last).getLast? ≠ Option.some 13 := by
        intro ends
        have code := (encodeChar_low (List.mem_of_getLast? ends) (by decide)).2
        exact marked (Char.toNat_inj.mp code)
      rw [if_neg (by simpa using marked),if_neg other,encode_append,single]

end Freja.TextLines
