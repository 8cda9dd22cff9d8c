import Freja.Foundation.Bytes
import Freja.Foundation.Json

namespace Freja.Json

-- The bytes that characters take when they are written.
def encodedLength (characters : List Char) : Nat := (characters.flatMap String.utf8EncodeChar).length

theorem encodedLength_nil : encodedLength [] = 0 := rfl

theorem encodedLength_append (first second : List Char) :
    encodedLength (first ++ second) = encodedLength first + encodedLength second := by
  simp [encodedLength]

theorem encodedLength_cons (character : Char) (rest : List Char) :
    encodedLength (character :: rest) = character.utf8Size + encodedLength rest := by
  simp [encodedLength]

theorem bytes_encoded (json : Json) : json.bytes.length = encodedLength json.render := rfl

theorem digitChar_single : ∀ digit < 16, (Nat.digitChar digit).utf8Size = 1 := by decide

theorem escape_length (character : Char) : encodedLength (escape character) ≤ 6 := by
  unfold escape shortEscape?
  split
  · rename_i short escaped
    split at escaped
    all_goals first
      | (cases escaped; decide)
      | cases escaped
  · split
    · rename_i control
      have high := digitChar_single (character.toNat / 16) (by omega)
      have low := digitChar_single (character.toNat % 16) (by omega)
      have lead : encodedLength ['\\','u','0','0'] = 4 := by decide
      have whole := encodedLength_append ['\\','u','0','0']
        [Nat.digitChar (character.toNat / 16),Nat.digitChar (character.toNat % 16)]
      simp only [lead,encodedLength_cons,encodedLength_nil,high,low] at whole
      exact Nat.le_of_eq whole
    · have size := character.utf8Size_le_four
      rw [encodedLength_cons,encodedLength_nil]
      omega

theorem quote_length (text : String) : encodedLength (quote text) ≤ 6 * text.toList.length + 2 := by
  have inner : encodedLength (text.toList.flatMap escape) ≤ 6 * text.toList.length := by
    induction text.toList with
    | nil => exact Nat.le_refl _
    | cons character =>
        have one := escape_length character
        rw [List.flatMap_cons,encodedLength_append,List.length_cons]
        omega
  have mark : ('"' : Char).utf8Size = 1 := by decide
  rw [quote,encodedLength_append,encodedLength_cons,encodedLength_cons,encodedLength_nil,mark]
  omega

-- What a value holds: the characters of its texts, the digits of its numbers, and one
-- for each value and each field.
mutual

def content : Json → Nat
  | .null => 1
  | .bool _ => 1
  | .number value => (Nat.toDigits 10 value).length + 1
  | .string text => text.toList.length + 1
  | .array items => itemsContent items + 1
  | .object fields => fieldsContent fields + 1

def itemsContent : List Json → Nat
  | [] => 0
  | item :: rest => content item + itemsContent rest

def fieldsContent : List (String × Json) → Nat
  | [] => 0
  | (name,value) :: rest => name.toList.length + 1 + content value + fieldsContent rest

end

theorem digits_length (value : Nat) : encodedLength (Nat.toDigits 10 value) = (Nat.toDigits 10 value).length := by
  have digits : ∀ digit ∈ Nat.toDigits 10 value, digit.isDigit = true := fun _ member =>
    Nat.isDigit_of_mem_toDigits (by decide) (by decide) member
  generalize Nat.toDigits 10 value = written at digits
  induction written with
  | nil => rfl
  | cons digit rest ih =>
      have single : digit.utf8Size = 1 := by
        have known := digits digit List.mem_cons_self
        unfold Char.isDigit at known
        simp only [ge_iff_le,Bool.and_eq_true,decide_eq_true_eq] at known
        have small : digit.val.toNat ≤ 57 := UInt32.le_iff_toNat_le.mp known.2
        rw [Char.utf8Size,if_pos]
        exact UInt32.le_iff_toNat_le.mpr (Nat.le_trans small (by decide))
      rw [encodedLength_cons,single,ih (fun later member => digits later (List.mem_cons_of_mem _ member)),List.length_cons]
      omega

-- By recursion over the value; the separator of an item is counted with the item before.
mutual

theorem render_content (json : Json) : encodedLength json.render + 1 ≤ 6 * json.content := by
  cases json with
  | null => decide
  | bool value => cases value <;> decide
  | number =>
      rw [render,digits_length,content]
      omega
  | string text =>
      have quoted := quote_length text
      rw [render,content]
      omega
  | array items =>
      have inner := renderItems_content [] items
      rw [render,encodedLength_cons,content]
      rw [encodedLength_nil] at inner
      have mark : ('[' : Char).utf8Size = 1 := by decide
      omega
  | object fields =>
      have inner := renderFields_content [] fields
      rw [render,encodedLength_cons,content]
      rw [encodedLength_nil] at inner
      have mark : ('{' : Char).utf8Size = 1 := by decide
      omega

theorem renderItems_content (mark : List Char) (items : List Json) :
    encodedLength (renderItems mark items) ≤ encodedLength mark + 6 * itemsContent items + 1 := by
  cases items with
  | nil =>
      have mark : encodedLength [']'] = 1 := by decide
      rw [renderItems,mark]
      omega
  | cons item rest =>
      have first := render_content item
      have later := renderItems_content [','] rest
      have comma : encodedLength [','] = 1 := by decide
      rw [renderItems,encodedLength_append,encodedLength_append,itemsContent]
      omega

theorem renderFields_content (mark : List Char) (fields : List (String × Json)) :
    encodedLength (renderFields mark fields) ≤ encodedLength mark + 6 * fieldsContent fields + 1 := by
  cases fields with
  | nil =>
      have mark : encodedLength ['}'] = 1 := by decide
      rw [renderFields,mark]
      omega
  | cons field rest =>
      obtain ⟨name,value⟩ := field
      have first := render_content value
      have named := quote_length name
      have later := renderFields_content [','] rest
      have comma : encodedLength [','] = 1 := by decide
      have colon : (':' : Char).utf8Size = 1 := by decide
      simp only [renderFields,encodedLength_append,encodedLength_cons,fieldsContent]
      omega

end

theorem bytes_content (json : Json) : json.bytes.length ≤ 6 * json.content := by
  have rendered := render_content json
  rw [bytes_encoded]
  omega

-- What the fields of an object take, each with its separators.
def fieldsLength : List (String × Json) → Nat
  | [] => 0
  | (name,value) :: rest => encodedLength (quote name) + value.bytes.length + 2 + fieldsLength rest

theorem fieldsLength_append (first second : List (String × Json)) :
    fieldsLength (first ++ second) = fieldsLength first + fieldsLength second := by
  induction first with
  | nil => simp [fieldsLength]
  | cons field rest ih =>
      simp only [List.cons_append,fieldsLength,ih]
      omega

theorem renderFields_length (fields : List (String × Json)) :
    encodedLength (renderFields [','] fields) = fieldsLength fields + 1 := by
  induction fields with
  | nil => decide
  | cons field rest ih =>
      obtain ⟨name,value⟩ := field
      have comma : (',' : Char).utf8Size = 1 := by decide
      have colon : (':' : Char).utf8Size = 1 := by decide
      simp only [renderFields,encodedLength_append,encodedLength_cons,encodedLength_nil,fieldsLength,bytes_encoded,ih]
      omega

theorem object_length (field : String × Json) (rest : List (String × Json)) :
    (Json.object (field :: rest)).bytes.length = fieldsLength (field :: rest) + 1 := by
  obtain ⟨name,value⟩ := field
  have brace : ('{' : Char).utf8Size = 1 := by decide
  have colon : (':' : Char).utf8Size = 1 := by decide
  have later := renderFields_length rest
  simp only [bytes_encoded,render,renderFields,encodedLength_append,encodedLength_cons,encodedLength_nil,fieldsLength]
  omega

theorem string_length (text : String) : (Json.string text).bytes.length ≤ 6 * text.toList.length + 2 := quote_length text

theorem number_length (bounded : value < 10 ^ digits) (some : 0 < digits) : (Json.number value).bytes.length ≤ digits := by
  rw [bytes_encoded,render,digits_length]
  exact (Nat.length_toDigits_le_iff (by decide) some).mpr bounded

theorem hex_length (bytes : List UInt8) :
    (Json.string (Bytes.hexEncode bytes)).bytes.length = 2 * bytes.length + 2 := by
  have plain : ∀ digit < 16, encodedLength (escape (Nat.digitChar digit)) = 1 := by decide
  have inner : encodedLength ((Bytes.hexEncode bytes).toList.flatMap escape) = 2 * bytes.length := by
    rw [Bytes.hexEncode,String.toList_ofList]
    induction bytes with
    | nil => rfl
    | cons byte rest ih =>
        have small := byte.toNat_lt
        have high := plain (byte.toNat / 16) (by omega)
        have low := plain (byte.toNat % 16) (by omega)
        simp only [List.flatMap_cons,List.cons_append,List.nil_append,encodedLength_append,high,low,ih,List.length_cons]
        omega
  have mark : ('"' : Char).utf8Size = 1 := by decide
  rw [bytes_encoded,render,quote,encodedLength_append,encodedLength_cons,encodedLength_cons,encodedLength_nil,mark,inner]
  omega

end Freja.Json
