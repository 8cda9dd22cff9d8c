import Freja.Foundation.TextLines
import Mathlib.Data.List.Infix
import Mathlib.Data.Nat.Digits.Defs
import Mathlib.Data.Bool.AllAny

namespace Freja

inductive Json where
  | null
  | bool (value : Bool)
  | number (value : Nat)
  | string (text : String)
  | array (items : List Json)
  | object (fields : List (String × Json))

namespace Json

def shortEscape? (character : Char) : Option Char :=
  match character.toNat with
  | 8 => some 'b'
  | 9 => some 't'
  | 10 => some 'n'
  | 12 => some 'f'
  | 13 => some 'r'
  | 34 => some '"'
  | 92 => some '\\'
  | _ => none

def escape (character : Char) : List Char :=
  match shortEscape? character with
  | some short => ['\\',short]
  | none =>
      if character.toNat < 32 then
        ['\\','u','0','0',Nat.digitChar (character.toNat / 16),Nat.digitChar (character.toNat % 16)]
      else [character]

def quote (text : String) : List Char := '"' :: text.toList.flatMap escape ++ ['"']

-- Compact output: fields in order, no blanks. The separator precedes every item
-- but the first.
mutual

def render : Json → List Char
  | .null => "null".toList
  | .bool true => "true".toList
  | .bool false => "false".toList
  | .number value => Nat.toDigits 10 value
  | .string text => quote text
  | .array items => '[' :: renderItems [] items
  | .object fields => '{' :: renderFields [] fields

def renderItems (mark : List Char) : List Json → List Char
  | [] => [']']
  | item :: rest => mark ++ render item ++ renderItems [','] rest

def renderFields (mark : List Char) : List (String × Json) → List Char
  | [] => ['}']
  | (name,value) :: rest => mark ++ quote name ++ ':' :: render value ++ renderFields [','] rest

end

def bytes (json : Json) : List UInt8 := json.render.flatMap String.utf8EncodeChar

-- Reading an escaped character back shows that no escape begins another.
def hexDigit (digit : Char) : Nat := if digit.isDigit then digit.toNat - 48 else digit.toNat - 87

def longEscape? : Char → Option Char
  | 'b' => some (Char.ofNat 8)
  | 't' => some (Char.ofNat 9)
  | 'n' => some (Char.ofNat 10)
  | 'f' => some (Char.ofNat 12)
  | 'r' => some (Char.ofNat 13)
  | '"' => some '"'
  | '\\' => some '\\'
  | _ => none

def unescape : List Char → Option (Char × List Char)
  | '\\' :: 'u' :: '0' :: '0' :: high :: low :: rest =>
      some (Char.ofNat (16 * hexDigit high + hexDigit low),rest)
  | '\\' :: short :: rest => (longEscape? short).map (fun character => (character,rest))
  | character :: rest => some (character,rest)
  | [] => none

theorem ofNat_eq {character : Char} (same : character.toNat = code) : character = Char.ofNat code := by
  rw [← same,Char.ofNat_toNat]

theorem hexDigit_control : ∀ code < 32,
    16 * hexDigit (Nat.digitChar (code / 16)) + hexDigit (Nat.digitChar (code % 16)) = code := by
  decide

theorem unescape_escape (character : Char) (rest : List Char) :
    unescape (escape character ++ rest) = some (character,rest) := by
  unfold escape shortEscape?
  split
  · rename_i short escaped
    split at escaped
    all_goals first
      | (rename_i code; cases escaped; rw [ofNat_eq code]; rfl)
      | cases escaped
  · rename_i plain
    split
    · rename_i control
      have code := hexDigit_control character.toNat control
      simp only [List.cons_append,List.nil_append,unescape,code,Char.ofNat_toNat]
    · have unslashed : character ≠ '\\' := by
        rintro rfl
        cases plain
      simp [unescape,unslashed]

theorem escapes_unambiguous (first second left right : List Char)
    (same : first.flatMap escape ++ '"' :: left = second.flatMap escape ++ '"' :: right) :
    first = second ∧ left = right := by
  have closing (rest : List Char) : unescape ('"' :: rest) = some ('"',rest) := by simp [unescape]
  have quoted (character : Char) (rest more : List Char) : '"' :: rest ≠ escape character ++ more := by
    intro equal
    have read := unescape_escape character more
    rw [← equal,closing] at read
    cases read
    cases equal
  induction first generalizing second with
  | nil =>
      cases second with
      | nil => exact ⟨rfl,(List.cons.inj same).2⟩
      | cons character =>
          rw [List.flatMap_cons,List.append_assoc] at same
          exact absurd same (quoted character left _)
  | cons character rest ih =>
      cases second with
      | nil =>
          rw [List.flatMap_cons,List.append_assoc] at same
          exact absurd same.symm (quoted character right _)
      | cons other more =>
          rw [List.flatMap_cons,List.flatMap_cons,List.append_assoc,List.append_assoc] at same
          have read := unescape_escape character (rest.flatMap escape ++ '"' :: left)
          rw [same,unescape_escape] at read
          obtain ⟨rfl,later⟩ := Prod.mk.inj (Option.some.inj read)
          obtain ⟨rfl,rests⟩ := ih more later.symm
          exact ⟨rfl,rests⟩

theorem quote_unambiguous (first second : String) (left right : List Char)
    (same : quote first ++ left = quote second ++ right) : first = second ∧ left = right := by
  unfold quote at same
  simp only [List.cons_append,List.append_assoc,List.nil_append] at same
  obtain ⟨texts,rests⟩ := escapes_unambiguous _ _ left right (List.cons.inj same).2
  exact ⟨String.toList_inj.mp texts,rests⟩

-- What follows a number does not continue it.
def Stops (rest : List Char) : Prop := ∀ character, rest.head? = some character → character.isDigit = false

theorem takeWhile_digits (value : Nat) (stops : Stops rest) :
    (Nat.toDigits 10 value ++ rest).takeWhile Char.isDigit = Nat.toDigits 10 value := by
  have digits : ∀ digit ∈ Nat.toDigits 10 value, digit.isDigit = true := fun _ member =>
    Nat.isDigit_of_mem_toDigits (by decide) (by decide) member
  rw [List.takeWhile_append_of_pos digits]
  cases rest with
  | nil => simp
  | cons next more => rw [List.takeWhile_cons_of_neg (by simp [stops next rfl]),List.append_nil]

theorem digits_unambiguous (first second : Nat) (stopsLeft : Stops left) (stopsRight : Stops right)
    (same : Nat.toDigits 10 first ++ left = Nat.toDigits 10 second ++ right) : first = second ∧ left = right := by
  have digits := congrArg (List.takeWhile Char.isDigit) same
  rw [takeWhile_digits first stopsLeft,takeWhile_digits second stopsRight] at digits
  refine ⟨?_,?_⟩
  · have values := congrArg (fun text => Nat.ofDigitChars 10 text 0) digits
    simpa only [Nat.ofDigitChars_ten_toDigits] using values
  · rw [digits] at same
    exact List.append_cancel_left same

theorem renderItems_stops (items : List Json) (rest : List Char) : Stops (renderItems [','] items ++ rest) := by
  intro character head
  cases items with
  | nil | cons => cases head; rfl

theorem renderFields_stops (fields : List (String × Json)) (rest : List Char) :
    Stops (renderFields [','] fields ++ rest) := by
  intro character head
  cases fields with
  | nil | cons => cases head; rfl

-- The first character of a rendering tells which kind of value it is.
def kind : Json → Nat
  | .null => 0
  | .bool _ => 1
  | .number _ => 2
  | .string _ => 3
  | .array _ => 4
  | .object _ => 5

def kindOf (character : Char) : Nat :=
  if character.isDigit then 2
  else if character = 'n' then 0
  else if character = 't' ∨ character = 'f' then 1
  else if character = '"' then 3
  else if character = '[' then 4
  else if character = '{' then 5
  else 6

theorem render_kind (json : Json) : ∃ first rest, json.render = first :: rest ∧ kindOf first = json.kind := by
  cases json with
  | bool value => cases value <;> exact ⟨_,_,rfl,rfl⟩
  | number value =>
      obtain ⟨first,rest,same⟩ := List.exists_cons_of_ne_nil (Nat.toDigits_ne_nil (n := value) (b := 10))
      refine ⟨first,rest,same,?_⟩
      have digit : first.isDigit = true := Nat.isDigit_of_mem_toDigits (by decide) (by decide)
        (same ▸ List.mem_cons_self)
      rw [kindOf,if_pos digit,kind]
  | _ => exact ⟨_,_,rfl,rfl⟩

theorem kind_lt (json : Json) : json.kind < 6 := by
  cases json <;> simp [kind]

theorem kind_eq (same : render first ++ left = render second ++ right) : first.kind = second.kind := by
  obtain ⟨start,_,rendered,kinds⟩ := render_kind first
  obtain ⟨other,_,again,others⟩ := render_kind second
  rw [rendered,again] at same
  rw [← kinds,← others,(List.cons.inj same).1]

theorem close_ne_render (json : Json) (mark : List Char) (blank : mark = [] ∨ mark = [','])
    (left right : List Char) : ']' :: left ≠ mark ++ (json.render ++ right) := by
  intro same
  rcases blank with rfl | rfl
  · obtain ⟨first,rest,rendered,kinds⟩ := render_kind json
    rw [rendered] at same
    have bracket : kindOf ']' = json.kind := by rw [← kinds,(List.cons.inj same).1]
    have small := kind_lt json
    rw [← bracket] at small
    exact absurd small (by decide)
  · exact absurd (List.cons.inj same).1 (by decide)

theorem close_ne_quote (name : String) (mark : List Char) (blank : mark = [] ∨ mark = [','])
    (left right : List Char) : '}' :: left ≠ mark ++ (quote name ++ right) := by
  intro same
  rcases blank with rfl | rfl
  · exact absurd (List.cons.inj same).1 (by decide)
  · exact absurd (List.cons.inj same).1 (by decide)

-- By recursion over the first value, one case for each kind.
mutual

theorem render_unambiguous (first second : Json) (left right : List Char) (stopsLeft : Stops left)
    (stopsRight : Stops right) (same : render first ++ left = render second ++ right) :
    first = second ∧ left = right := by
  have kinds := kind_eq same
  cases first with
  | null =>
      cases second with
      | null => exact ⟨rfl,List.append_cancel_left same⟩
      | _ => cases kinds
  | bool truth =>
      cases second with
      | bool value =>
          cases truth <;> cases value
          all_goals first
            | exact ⟨rfl,List.append_cancel_left same⟩
            | exact absurd (List.cons.inj same).1 (by decide)
      | _ => cases kinds
  | number value =>
      cases second with
      | number other =>
          obtain ⟨rfl,rests⟩ := digits_unambiguous value other stopsLeft stopsRight same
          exact ⟨rfl,rests⟩
      | _ => cases kinds
  | string text =>
      cases second with
      | string other =>
          obtain ⟨rfl,rests⟩ := quote_unambiguous text other left right same
          exact ⟨rfl,rests⟩
      | _ => cases kinds
  | array items =>
      cases second with
      | array others =>
          obtain ⟨rfl,rests⟩ := renderItems_unambiguous [] items others left right (.inl rfl) (List.cons.inj same).2
          exact ⟨rfl,rests⟩
      | _ => cases kinds
  | object fields =>
      cases second with
      | object others =>
          obtain ⟨rfl,rests⟩ := renderFields_unambiguous [] fields others left right (.inl rfl) (List.cons.inj same).2
          exact ⟨rfl,rests⟩
      | _ => cases kinds

theorem renderItems_unambiguous (mark : List Char) (items others : List Json) (left right : List Char)
    (blank : mark = [] ∨ mark = [','])
    (same : renderItems mark items ++ left = renderItems mark others ++ right) :
    items = others ∧ left = right := by
  cases items with
  | nil =>
      cases others with
      | nil => exact ⟨rfl,List.append_cancel_left same⟩
      | cons other =>
          simp only [renderItems,List.append_assoc] at same
          exact absurd same (close_ne_render other mark blank left _)
  | cons item rest =>
      cases others with
      | nil =>
          simp only [renderItems,List.append_assoc] at same
          exact absurd same.symm (close_ne_render item mark blank right _)
      | cons other more =>
          simp only [renderItems,List.append_assoc] at same
          obtain ⟨rfl,later⟩ := render_unambiguous item other _ _ (renderItems_stops rest left)
            (renderItems_stops more right) (List.append_cancel_left same)
          obtain ⟨rfl,rests⟩ := renderItems_unambiguous [','] rest more left right (.inr rfl) later
          exact ⟨rfl,rests⟩

theorem renderFields_unambiguous (mark : List Char) (fields others : List (String × Json))
    (left right : List Char) (blank : mark = [] ∨ mark = [','])
    (same : renderFields mark fields ++ left = renderFields mark others ++ right) :
    fields = others ∧ left = right := by
  cases fields with
  | nil =>
      cases others with
      | nil => exact ⟨rfl,List.append_cancel_left same⟩
      | cons other =>
          simp only [renderFields,List.append_assoc] at same
          exact absurd same (close_ne_quote other.1 mark blank left _)
  | cons field rest =>
      cases others with
      | nil =>
          simp only [renderFields,List.append_assoc] at same
          exact absurd same.symm (close_ne_quote field.1 mark blank right _)
      | cons other more =>
          obtain ⟨name,value⟩ := field
          obtain ⟨label,content⟩ := other
          simp only [renderFields,List.append_assoc] at same
          obtain ⟨rfl,after⟩ := quote_unambiguous name label _ _ (List.append_cancel_left same)
          simp only [List.cons_append] at after
          obtain ⟨rfl,later⟩ := render_unambiguous value content _ _ (renderFields_stops rest left)
            (renderFields_stops more right) (List.cons.inj after).2
          obtain ⟨rfl,rests⟩ := renderFields_unambiguous [','] rest more left right (.inr rfl) later
          exact ⟨rfl,rests⟩

end

theorem stops_nil : Stops [] := by
  intro character head
  cases head

theorem encode_injective (first second : List Char)
    (same : first.flatMap String.utf8EncodeChar = second.flatMap String.utf8EncodeChar) : first = second := by
  have texts : String.ofList first = String.ofList second := by
    rw [← String.toByteArray_inj]
    exact congrArg List.toByteArray same
  exact String.ofList_inj.mp texts

theorem bytes_injective (same : bytes first = bytes second) : first = second := by
  have texts := encode_injective _ _ same
  refine (render_unambiguous first second [] [] stops_nil stops_nil ?_).1
  rw [texts]

-- No control character survives rendering, so a rendering is one line of text.
def Printable (characters : List Char) : Prop := ∀ character ∈ characters, 32 ≤ character.toNat

theorem printable_all (all : characters.all (fun character => decide (32 ≤ character.toNat)) = true) :
    Printable characters := List.all_iff_forall_prop.mp all

theorem printable_append (first : Printable left) (second : Printable right) : Printable (left ++ right) := by
  intro character member
  rcases List.mem_append.mp member with inLeft | inRight
  · exact first character inLeft
  · exact second character inRight

theorem printable_cons (first : 32 ≤ character.toNat) (rest : Printable characters) :
    Printable (character :: characters) := by
  intro candidate member
  rcases List.mem_cons.mp member with rfl | later
  · exact first
  · exact rest candidate later

theorem digitChar_printable : ∀ digit < 16, 32 ≤ (Nat.digitChar digit).toNat := by decide

theorem printable_escape (character : Char) : Printable (escape character) := by
  unfold escape shortEscape?
  split
  · rename_i short escaped
    split at escaped
    all_goals first
      | (cases escaped; exact printable_all (by decide))
      | cases escaped
  · split
    · rename_i control
      have high := digitChar_printable (character.toNat / 16) (by omega)
      have low := digitChar_printable (character.toNat % 16) (by omega)
      have lead : Printable ['\\','u','0','0'] := printable_all (by decide)
      exact printable_append lead (printable_cons high (printable_cons low (printable_all rfl)))
    · rename_i plain
      exact printable_cons (by omega) (printable_all rfl)

theorem printable_quote (text : String) : Printable (quote text) := by
  have inner : Printable (text.toList.flatMap escape) := by
    intro character member
    obtain ⟨source,_,produced⟩ := List.mem_flatMap.mp member
    exact printable_escape source character produced
  exact printable_append (printable_cons (by decide) inner) (printable_all (by decide))

mutual

theorem printable_render (json : Json) : Printable json.render := by
  cases json with
  | null => exact printable_all (by decide)
  | bool value => cases value <;> exact printable_all (by decide)
  | number =>
      intro digit member
      have isDigit := Nat.isDigit_of_mem_toDigits (by decide) (by decide) member
      simp only [Char.isDigit,Bool.and_eq_true,decide_eq_true_eq,ge_iff_le,UInt32.le_iff_toNat_le] at isDigit
      have least : 48 ≤ digit.toNat := isDigit.1
      omega
  | string text => exact printable_quote text
  | array items => exact printable_cons (by decide) (printable_renderItems [] items (printable_all (by decide)))
  | object fields => exact printable_cons (by decide) (printable_renderFields [] fields (printable_all (by decide)))

theorem printable_renderItems (mark : List Char) (items : List Json) (blank : Printable mark) :
    Printable (renderItems mark items) := by
  cases items with
  | nil => exact printable_all rfl
  | cons item rest =>
      exact printable_append (printable_append blank (printable_render item))
        (printable_renderItems [','] rest (printable_all (by decide)))

theorem printable_renderFields (mark : List Char) (fields : List (String × Json)) (blank : Printable mark) :
    Printable (renderFields mark fields) := by
  cases fields with
  | nil => exact printable_all rfl
  | cons field rest =>
      obtain ⟨name,value⟩ := field
      have later := printable_renderFields [','] rest (printable_all (by decide))
      exact printable_append (printable_append (printable_append blank (printable_quote name))
        (printable_cons (by decide) (printable_render value))) later

end

theorem bytes_printable (json : Json) (byte : UInt8) (member : byte ∈ json.bytes) : 32 ≤ byte.toNat := by
  obtain ⟨character,inside,produced⟩ := List.mem_flatMap.mp member
  have printable := printable_render json character inside
  by_contra control
  have code := (TextLines.encodeChar_low produced (by omega)).2
  omega

theorem bytes_valid (json : Json) : json.bytes.toByteArray.validateUTF8 = true :=
  ByteArray.validateUTF8_eq_true_iff.mpr ByteArray.isValidUTF8_utf8Encode

end Json

end Freja
