import Freja.Foundation.Utf8

namespace Freja.FormUrlencoded
open Bytes

def replacePlus (byte : UInt8) : UInt8 := if byte = 43 then 32 else byte

def percentDecode : List UInt8 → List UInt8
  | byte :: high :: low :: rest =>
      if byte = 37 then
        match hexValue? high,hexValue? low with
        | some first,some second => UInt8.ofNat (16 * first + second) :: percentDecode rest
        | _,_ => byte :: percentDecode (high :: low :: rest)
      else byte :: percentDecode (high :: low :: rest)
  | [first,second] => [first,second]
  | [byte] => [byte]
  | [] => []

def decode (bytes : List UInt8) : String := String.ofList (Utf8.decodeLossy (percentDecode (bytes.map replacePlus)))

def parsePiece (piece : List UInt8) : String × String :=
  (decode (piece.takeWhile (· != 61)),decode ((piece.dropWhile (· != 61)).drop 1))

def parse (input : List UInt8) : List (String × String) :=
  ((input.splitOn 38).filter (!·.isEmpty)).map parsePiece

def unreserved (byte : UInt8) : Bool :=
  byte == 42 || byte == 45 || byte == 46 || byte == 95 || isAlphanumeric byte

def upperHex (digit : Nat) : UInt8 := UInt8.ofNat (if digit < 10 then 48 + digit else 55 + digit)

def encodeByte (byte : UInt8) : List UInt8 :=
  if unreserved byte then [byte]
  else if byte = 32 then [43]
  else [37,upperHex (byte.toNat / 16),upperHex (byte.toNat % 16)]

def encode (text : String) : List UInt8 := (utf8 text).flatMap encodeByte

def encodePair (pair : String × String) : List UInt8 := encode pair.1 ++ 61 :: encode pair.2

def serialize (pairs : List (String × String)) : List UInt8 := [38].intercalate (pairs.map encodePair)

theorem percentDecode_plain (plain : byte ≠ 37) (rest : List UInt8) :
    percentDecode (byte :: rest) = byte :: percentDecode rest := by
  match rest with
  | [] => rfl
  | [_] => rfl
  | _ :: _ :: _ => rw [percentDecode,if_neg plain]

theorem upperHex_value : ∀ digit < 16,
    hexValue? (upperHex digit) = some digit ∧ replacePlus (upperHex digit) = upperHex digit := by
  decide

theorem percentDecode_encodeByte (byte : UInt8) (rest : List UInt8) :
    percentDecode ((encodeByte byte ++ rest).map replacePlus) = byte :: percentDecode (rest.map replacePlus) := by
  unfold encodeByte
  split
  · rename_i kept
    have notPlus : byte ≠ 43 := by
      intro same
      subst same
      exact absurd kept (by decide)
    have notPercent : byte ≠ 37 := by
      intro same
      subst same
      exact absurd kept (by decide)
    rw [List.singleton_append,List.map_cons,replacePlus,if_neg notPlus,percentDecode_plain notPercent]
  · split
    · rename_i space
      subst space
      exact percentDecode_plain (by decide) _
    · have small := byte.toNat_lt
      obtain ⟨high,first⟩ := upperHex_value (byte.toNat / 16) (by omega)
      obtain ⟨low,second⟩ := upperHex_value (byte.toNat % 16) (by omega)
      have joined : UInt8.ofNat (16 * (byte.toNat / 16) + byte.toNat % 16) = byte := by
        rw [Nat.div_add_mod,UInt8.ofNat_toNat]
      have percent : replacePlus 37 = 37 := rfl
      simp only [List.cons_append,List.nil_append,List.map_cons,percent,first,second,percentDecode,if_pos,high,low,
        joined]

theorem decode_encode (text : String) : decode (encode text) = text := by
  have bytes (input : List UInt8) : percentDecode ((input.flatMap encodeByte).map replacePlus) = input := by
    induction input with
    | nil => rfl
    | cons byte rest ih => rw [List.flatMap_cons,percentDecode_encodeByte,ih]
  rw [decode,encode,bytes,Utf8.decodeLossy_utf8,String.ofList_toList]

-- Encoded text is plain ASCII without the separators.
theorem encode_plain (member : byte ∈ encode text) : byte.toNat < 128 ∧ byte ≠ 38 ∧ byte ≠ 61 := by
  obtain ⟨source,_,produced⟩ := List.mem_flatMap.mp member
  have plain : ∀ code < 256, unreserved (UInt8.ofNat code) = true →
      (UInt8.ofNat code).toNat < 128 ∧ UInt8.ofNat code ≠ 38 ∧ UInt8.ofNat code ≠ 61 := by decide +kernel
  have digits : ∀ digit < 16, (upperHex digit).toNat < 128 ∧ upperHex digit ≠ 38 ∧ upperHex digit ≠ 61 := by decide
  have small := source.toNat_lt
  unfold encodeByte at produced
  split at produced
  · rename_i kept
    rw [List.mem_singleton.mp produced,← source.ofNat_toNat]
    exact plain source.toNat small (by rwa [UInt8.ofNat_toNat])
  · split at produced
    · rw [List.mem_singleton.mp produced]
      decide
    · simp only [List.mem_cons,List.not_mem_nil,or_false] at produced
      rcases produced with rfl | rfl | rfl
      · decide
      · exact digits _ (by omega)
      · exact digits _ (by omega)

theorem parsePiece_encodePair (pair : String × String) : parsePiece (encodePair pair) = pair := by
  have name : ∀ byte ∈ encode pair.1, (byte != 61) = true := fun byte member =>
    bne_iff_ne.mpr (encode_plain member).2.2
  unfold parsePiece encodePair
  rw [List.takeWhile_append_of_pos name,List.dropWhile_append_of_pos name,List.takeWhile_cons_of_neg (by decide),
    List.dropWhile_cons_of_neg (by decide),List.append_nil,List.drop_one,List.tail_cons,decode_encode,decode_encode]

theorem parse_serialize (pairs : List (String × String)) : parse (serialize pairs) = pairs := by
  cases pairs with
  | nil => rfl
  | cons first rest =>
      have apart : ∀ piece ∈ (first :: rest).map encodePair, 38 ∉ piece := by
        intro piece member inside
        obtain ⟨pair,_,rfl⟩ := List.mem_map.mp member
        rcases List.mem_append.mp inside with name | other
        · exact (encode_plain name).2.1 rfl
        · rcases List.mem_cons.mp other with equals | value
          · exact absurd equals (by decide)
          · exact (encode_plain value).2.1 rfl
      have nonempty : ∀ piece ∈ (first :: rest).map encodePair, (!piece.isEmpty) = true := by
        intro piece member
        obtain ⟨pair,_,rfl⟩ := List.mem_map.mp member
        simp [encodePair]
      have pieces : parsePiece ∘ encodePair = id := funext parsePiece_encodePair
      rw [parse,serialize,List.splitOn_intercalate 38 apart (by simp),List.filter_eq_self.mpr nonempty,List.map_map,pieces,
        List.map_id]

theorem serialize_ascii (pairs : List (String × String)) (byte : UInt8) (member : byte ∈ serialize pairs) :
    byte.toNat < 128 := by
  induction pairs with
  | nil => cases member
  | cons pair rest ih =>
      have one : ∀ byte ∈ encodePair pair, byte.toNat < 128 := by
        intro byte member
        rcases List.mem_append.mp member with name | other
        · exact (encode_plain name).1
        · rcases List.mem_cons.mp other with rfl | value
          · decide
          · exact (encode_plain value).1
      cases rest with
      | nil =>
          rw [serialize,List.map_singleton,List.intercalate_singleton] at member
          exact one byte member
      | cons =>
          rw [serialize,List.map_cons,List.intercalate_cons_of_ne_nil (by simp)] at member
          rcases List.mem_append.mp member with first | later
          · rcases List.mem_append.mp first with first | mark
            · exact one byte first
            · rw [List.mem_singleton.mp mark]
              decide
          · exact ih later

end Freja.FormUrlencoded
