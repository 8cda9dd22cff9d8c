import Freja.Foundation.TextLines

namespace Freja.Utf8
open Bytes TextLines

-- The text at the front of some bytes, as far as it goes, and what follows it.
def decode (bytes : List UInt8) : List Char × List UInt8 :=
  match bytes with
  | [] => ([],[])
  | first :: rest =>
      match (first :: rest).toByteArray.utf8DecodeChar? 0 with
      | none => ([],first :: rest)
      | some character =>
          let (text,left) := decode (rest.drop (character.utf8Size - 1))
          (character :: text,left)
termination_by bytes.length
decreasing_by
  simp only [List.length_cons,List.length_drop]
  omega

-- The text, or how many bytes at the front are text.
def fromUtf8 (bytes : List UInt8) : Except Nat String :=
  match decode bytes with
  | (text,[]) => .ok (String.ofList text)
  | (text,_) => .error (encode text).length

theorem read_encodeChar (character : Char) :
    ∃ first more, String.utf8EncodeChar character = first :: more ∧ ∀ rest,
      (first :: (more ++ rest)).toByteArray.utf8DecodeChar? 0 = some character ∧
      (more ++ rest).drop (character.utf8Size - 1) = rest := by
  have size := String.length_utf8EncodeChar character
  have positive := character.utf8Size_pos
  obtain ⟨first,more,encoded⟩ := List.exists_cons_of_length_pos (size ▸ positive)
  refine ⟨first,more,encoded,fun rest => ⟨?_,?_⟩⟩
  · rw [← List.cons_append,← encoded,List.toByteArray_append]
    exact ByteArray.utf8DecodeChar?_utf8EncodeChar_append
  · rw [encoded,List.length_cons] at size
    rw [← size,Nat.add_sub_cancel,List.drop_left]

theorem decode_encodeChar (character : Char) (rest : List UInt8) :
    decode (String.utf8EncodeChar character ++ rest) = (character :: (decode rest).1,(decode rest).2) := by
  obtain ⟨first,more,encoded,reads⟩ := read_encodeChar character
  rw [encoded,List.cons_append,decode,(reads rest).1]
  simp only [(reads rest).2]

theorem decode_encode (text : List Char) (rest : List UInt8) :
    decode (encode text ++ rest) = (text ++ (decode rest).1,(decode rest).2) := by
  induction text with
  | nil => rfl
  | cons character more ih => simp [encode_cons,decode_encodeChar,ih]

theorem read_some {bytes : List UInt8} {character : Char} (read : bytes.toByteArray.utf8DecodeChar? 0 = some character) :
    bytes = String.utf8EncodeChar character ++ bytes.drop character.utf8Size := by
  have front := String.toByteArray_utf8EncodeChar_of_utf8DecodeChar?_eq_some read
  have taken : String.utf8EncodeChar character = bytes.take character.utf8Size := by
    have same := congrArg (fun array : ByteArray => array.data.toList) front
    simpa using same
  rw [taken,List.take_append_drop]

theorem decode_parts (bytes : List UInt8) : bytes = encode (decode bytes).1 ++ (decode bytes).2 := by
  fun_induction decode bytes with
  | case1 => rfl
  | case2 => rfl
  | case3 first rest character read text left deeper ih =>
      have parts := read_some read
      obtain ⟨size,same⟩ := Nat.exists_eq_add_one.mpr character.utf8Size_pos
      rw [same,List.drop_succ_cons] at parts
      rw [same,Nat.add_sub_cancel] at ih deeper
      rw [deeper] at ih
      rw [parts,encode_cons,List.append_assoc,← ih]

theorem take_decoded (bytes : List UInt8) : bytes.take (encode (decode bytes).1).length = encode (decode bytes).1 :=
  (congrArg (List.take _) (decode_parts bytes)).trans List.take_left

theorem decode_longest {text : List Char} {bytes : List UInt8} (front : encode text <+: bytes) :
    text <+: (decode bytes).1 := by
  obtain ⟨rest,rfl⟩ := front
  rw [decode_encode]
  exact List.prefix_append _ _

theorem fromUtf8_cases (bytes : List UInt8) :
    (fromUtf8 bytes = .ok (String.ofList (decode bytes).1) ∧ (decode bytes).2 = []) ∨
      fromUtf8 bytes = .error (encode (decode bytes).1).length ∧ (decode bytes).2 ≠ [] := by
  unfold fromUtf8
  rcases decode bytes with ⟨text,_ | _⟩
  · exact .inl ⟨rfl,rfl⟩
  · exact .inr ⟨rfl,List.cons_ne_nil _ _⟩

theorem fromUtf8_encode (text : List Char) : fromUtf8 (encode text) = .ok (String.ofList text) := by
  have whole := decode_encode text []
  rw [List.append_nil,decode,List.append_nil] at whole
  rw [fromUtf8,whole]

def isContinuation (byte : UInt8) : Bool := 0x80 ≤ byte && byte ≤ 0xbf

def secondAllowed (first second : UInt8) : Bool :=
  (first == 0xe0 && 0xa0 ≤ second && second ≤ 0xbf) || (0xe1 ≤ first && first ≤ 0xec && isContinuation second) ||
  (first == 0xed && 0x80 ≤ second && second ≤ 0x9f) || (0xee ≤ first && first ≤ 0xef && isContinuation second) ||
  (first == 0xf0 && 0x90 ≤ second && second ≤ 0xbf) || (0xf1 ≤ first && first ≤ 0xf3 && isContinuation second) ||
  (first == 0xf4 && 0x80 ≤ second && second ≤ 0x8f)

-- One replacement character stands for the longest start of a well-formed
-- sequence. The count is of the bytes after the first.
def illFormedRest (first : UInt8) : List UInt8 → Nat
  | [] => 0
  | [second] => if secondAllowed first second then 1 else 0
  | second :: third :: _ =>
      if secondAllowed first second then (if 0xf0 ≤ first && isContinuation third then 2 else 1) else 0

def decodeLossy (bytes : List UInt8) : List Char :=
  match bytes with
  | [] => []
  | first :: rest =>
      match (first :: rest).toByteArray.utf8DecodeChar? 0 with
      | some character => character :: decodeLossy (rest.drop (character.utf8Size - 1))
      | none => Char.ofNat 0xfffd :: decodeLossy (rest.drop (illFormedRest first rest))
termination_by bytes.length
decreasing_by
  all_goals simp only [List.length_cons,List.length_drop]; omega

theorem decodeLossy_encodeChar (character : Char) (rest : List UInt8) :
    decodeLossy (String.utf8EncodeChar character ++ rest) = character :: decodeLossy rest := by
  obtain ⟨first,more,encoded,reads⟩ := read_encodeChar character
  rw [encoded,List.cons_append,decodeLossy,(reads rest).1]
  simp only [(reads rest).2]

theorem decodeLossy_utf8 (text : String) : decodeLossy (utf8 text) = text.toList := by
  unfold utf8
  induction text.toList with
  | nil => simp [decodeLossy]
  | cons character rest ih => rw [List.flatMap_cons,decodeLossy_encodeChar,ih]

end Freja.Utf8
