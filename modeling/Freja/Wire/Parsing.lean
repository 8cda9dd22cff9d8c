import Freja.Wire.Grammar
import Mathlib.Data.Nat.Digits.Lemmas

namespace Freja.Framing
open Bytes Splitting Grammar

theorem ascii_crlf : ascii "\r\n" = crlf := by decide

theorem ascii_blankLine : ascii "\r\n\r\n" = blankLine := by decide

theorem ascii_cr : ascii "\r" = [13] := by decide

theorem foldl_ofDigits (base : Nat) (digits : List Nat) :
    digits.foldl (fun value digit => value * base + digit) 0 = Nat.ofDigits base digits.reverse := by
  induction digits using List.reverseRecOn with
  | nil => rfl
  | append_singleton digits digit ih =>
      rw [List.foldl_append,List.reverse_append,List.reverse_singleton,List.singleton_append,Nat.ofDigits_cons,← ih]
      simp only [List.foldl_cons,List.foldl_nil]
      ring

theorem decimalDigits_iff : List.Forall₂ DecimalDigit text digits ↔
    (∀ byte ∈ text, isDigit byte = true) ∧ digits = text.map (fun byte => byte.toNat - 48) := by
  induction text generalizing digits with
  | nil => simp
  | cons byte rest ih =>
      constructor
      · intro related
        obtain ⟨digit,others,here,later,rfl⟩ := List.forall₂_cons_left_iff.mp related
        obtain ⟨valid,rfl⟩ := ih.mp later
        cases here with
        | digit low high =>
            refine ⟨?_,rfl⟩
            intro other member
            rcases List.mem_cons.mp member with rfl | inside
            · simp [isDigit,low,high]
            · exact valid other inside
      · rintro ⟨valid,rfl⟩
        have first := valid byte List.mem_cons_self
        simp only [isDigit,Bool.and_eq_true,decide_eq_true_eq] at first
        exact .cons (.digit first.1 first.2) (ih.mpr ⟨fun other member => valid other (List.mem_cons_of_mem _ member),rfl⟩)

theorem parseDecimal_iff : parseDecimal? maximum text = some value ↔
    text ≠ [] ∧ (∃ digits, List.Forall₂ DecimalDigit text digits ∧ value = Nat.ofDigits 10 digits.reverse) ∧
      value ≤ maximum := by
  have read : text.foldl (fun value digit => value * 10 + (digit.toNat - 48)) 0 =
      Nat.ofDigits 10 (text.map (fun byte => byte.toNat - 48)).reverse := by
    rw [← foldl_ofDigits,List.foldl_map]
  simp only [decimalDigits_iff,parseDecimal?,read]
  by_cases empty : text = []
  · simp [empty]
  · by_cases valid : text.all isDigit = true
    · have all := List.all_eq_true.mp valid
      simp only [List.isEmpty_iff,empty,valid,Bool.not_true,Bool.or_false,if_false]
      constructor
      · intro found
        split at found
        · cases found
          exact ⟨empty,⟨_,⟨all,rfl⟩,rfl⟩,by assumption⟩
        · cases found
      · rintro ⟨_,⟨_,⟨_,rfl⟩,rfl⟩,fits⟩
        rw [if_pos fits]
    · have some : ¬ ∀ byte ∈ text, isDigit byte = true := fun all => valid (List.all_eq_true.mpr all)
      simp [valid,some]

theorem numeral_decimal : parseDecimal? u64Max text = some value ↔ Numeral DecimalDigit 10 text value := by
  rw [parseDecimal_iff]
  exact ⟨fun ⟨present,digits,fits⟩ => ⟨present,digits,fits⟩,fun ⟨present,digits,fits⟩ => ⟨present,digits,fits⟩⟩

theorem hexDigit_iff : HexDigit byte value ↔ hexValue? byte = some value := by
  unfold hexValue? isDigit
  constructor
  · intro digit
    cases digit with
    | decimal low high => simp [low,high]
    | lower low high =>
        have beyond : ¬ byte ≤ 57 := by
          simp only [UInt8.le_iff_toNat_le] at low ⊢
          simp at low ⊢
          omega
        simp [low,high,beyond]
    | upper low high =>
        have beyond : ¬ byte ≤ 57 := by
          simp only [UInt8.le_iff_toNat_le] at low ⊢
          simp at low ⊢
          omega
        have below : ¬ 97 ≤ byte := by
          simp only [UInt8.le_iff_toNat_le] at high ⊢
          simp at high ⊢
          omega
        simp [low,high,beyond,below]
  · intro read
    split at read
    · rename_i decimal
      simp only [Bool.and_eq_true,decide_eq_true_eq] at decimal
      cases read
      exact .decimal decimal.1 decimal.2
    · split at read
      · rename_i lower
        simp only [Bool.and_eq_true,decide_eq_true_eq] at lower
        cases read
        exact .lower lower.1 lower.2
      · split at read
        · rename_i upper
          simp only [Bool.and_eq_true,decide_eq_true_eq] at upper
          cases read
          exact .upper upper.1 upper.2
        · cases read

theorem foldl_grows (digits : List Nat) (start : Nat) :
    start ≤ digits.foldl (fun value digit => value * 16 + digit) start := by
  induction digits generalizing start with
  | nil => exact Nat.le_refl start
  | cons digit rest ih =>
      have later := ih (start * 16 + digit)
      rw [List.foldl_cons]
      omega

-- The checked digits stop exactly where the number no longer fits: later digits
-- only make it larger.
theorem chunkDigits_iff (text : List UInt8) (start : Nat) (fits : start ≤ u64Max) :
    text.foldlM parseChunkDigit start = .ok value ↔
      ∃ digits, List.Forall₂ HexDigit text digits ∧
        value = digits.foldl (fun value digit => value * 16 + digit) start ∧ value ≤ u64Max := by
  induction text generalizing start with
  | nil =>
      simp only [List.foldlM_nil,List.forall₂_nil_left_iff]
      constructor
      · intro same
        cases same
        exact ⟨[],rfl,rfl,fits⟩
      · rintro ⟨_,rfl,rfl,_⟩
        rfl
  | cons byte rest ih =>
      rw [List.foldlM_cons]
      cases read : hexValue? byte with
      | none =>
          simp only [parseChunkDigit,read]
          constructor
          · intro failed
            cases failed
          · rintro ⟨_,related,_⟩
            obtain ⟨digit,_,here,_⟩ := List.forall₂_cons_left_iff.mp related
            rw [hexDigit_iff.mp here] at read
            cases read
      | some numeric =>
          have split : (∃ digits, List.Forall₂ HexDigit (byte :: rest) digits ∧
                value = digits.foldl (fun value digit => value * 16 + digit) start ∧ value ≤ u64Max) ↔
              ∃ digits, List.Forall₂ HexDigit rest digits ∧
                value = digits.foldl (fun value digit => value * 16 + digit) (start * 16 + numeric) ∧ value ≤ u64Max := by
            constructor
            · rintro ⟨_,related,same,small⟩
              obtain ⟨digit,others,here,later,rfl⟩ := List.forall₂_cons_left_iff.mp related
              rw [hexDigit_iff,read] at here
              cases here
              exact ⟨others,later,same,small⟩
            · rintro ⟨others,later,same,small⟩
              exact ⟨numeric :: others,.cons (hexDigit_iff.mpr read) later,same,small⟩
          rw [split]
          by_cases overflow : start * 16 + numeric > u64Max
          · have failed : parseChunkDigit start byte = .error .chunkSizeOverflow := by
              simp only [parseChunkDigit,read,hexRadix,overflow,if_true]
              split <;> rfl
            rw [failed]
            constructor
            · intro stopped
              cases stopped
            · rintro ⟨digits,_,rfl,small⟩
              have grown := foldl_grows digits (start * 16 + numeric)
              omega
          · have exact_ : parseChunkDigit start byte = .ok (start * 16 + numeric) := by
              have low : ¬ start * 16 > u64Max := by omega
              simp only [parseChunkDigit,read,hexRadix,low,overflow,if_false]
            rw [exact_]
            exact ih (start * 16 + numeric) (by omega)

theorem takeWhile_before (separator : UInt8) (free : separator ∉ before)
    (rest : List UInt8) (stops : rest = [] ∨ rest.head? = some separator) :
    (before ++ rest).takeWhile (· != separator) = before := by
  have kept : ∀ byte ∈ before, (byte != separator) = true := by
    intro byte member
    simp only [bne_iff_ne,ne_eq]
    rintro rfl
    exact free member
  rw [List.takeWhile_append_of_pos kept]
  rcases stops with rfl | first
  · simp
  · cases rest with
    | nil => simp
    | cons =>
        cases first
        simp

theorem hexDigits_all (related : List.Forall₂ HexDigit digits numbers) :
    ∀ digit ∈ digits, (hexValue? digit).isSome = true := by
  induction related with
  | nil => exact List.forall_mem_nil _
  | cons here _ ih =>
      intro digit member
      rcases List.mem_cons.mp member with rfl | later
      · rw [hexDigit_iff.mp here]
        rfl
      · exact ih digit later

theorem parseChunkSize_iff : parseChunkSize text = .ok size ↔
    ∃ digits rest, text = digits ++ rest ∧ (rest = [] ∨ rest.head? = some 59) ∧ Numeral HexDigit 16 digits size := by
  have value (digits : List UInt8) : digits.foldlM parseChunkDigit 0 = .ok size ↔
      ∃ numbers, List.Forall₂ HexDigit digits numbers ∧ size = Nat.ofDigits 16 numbers.reverse ∧ size ≤ u64Max := by
    rw [chunkDigits_iff digits 0 (Nat.zero_le _)]
    simp only [foldl_ofDigits]
  unfold parseChunkSize
  constructor
  · intro read
    simp only at read
    split at read
    · cases read
    · rename_i valid
      rw [Bool.not_eq_true,Bool.or_eq_false_iff,List.isEmpty_eq_false_iff] at valid
      obtain ⟨numbers,related,same,fits⟩ := (value _).mp read
      refine ⟨text.takeWhile (· != 59),text.dropWhile (· != 59),List.takeWhile_append_dropWhile.symm,?_,
        valid.1,⟨numbers,related,same⟩,fits⟩
      cases rest : text.dropWhile (· != 59) with
      | nil => exact .inl rfl
      | cons byte =>
          have stopped := dropWhile_head (· != 59) text byte (by rw [rest]; rfl)
          exact .inr (by simpa using stopped)
  · rintro ⟨digits,rest,rfl,stops,present,⟨numbers,related,same⟩,fits⟩
    have all := hexDigits_all related
    have free : 59 ∉ digits := by
      intro member
      have wrong := all 59 member
      revert wrong
      decide
    rw [takeWhile_before 59 free rest stops]
    have valid : (digits.isEmpty || !digits.all (fun digit => (hexValue? digit).isSome)) = false := by
      rw [Bool.or_eq_false_iff,List.isEmpty_eq_false_iff,List.all_eq_true.mpr all]
      exact ⟨present,rfl⟩
    simp only [valid]
    exact (value digits).mpr ⟨numbers,related,same,fits⟩

theorem stripSuffix_iff : stripSuffix? bytes suffix = some rest ↔ bytes = rest ++ suffix := by
  unfold stripSuffix?
  constructor
  · intro stripped
    split at stripped
    · rename_i ended
      cases stripped
      obtain ⟨rest,rfl⟩ := List.isSuffixOf_iff_suffix.mp ended
      simp
    · cases stripped
  · rintro rfl
    have ended : suffix.isSuffixOf (rest ++ suffix) = true := List.isSuffixOf_iff_suffix.mpr (List.suffix_append rest suffix)
    rw [if_pos ended]
    simp

theorem trimCr_iff : trimCr raw = line ↔ WithoutCr raw line := by
  unfold trimCr
  rw [ascii_cr]
  cases stripped : stripSuffix? raw [13] with
  | some rest =>
      rw [stripSuffix_iff] at stripped
      subst stripped
      constructor
      · rintro rfl
        exact .stripped rest
      · intro without
        generalize whole : rest ++ [13] = raw at without
        cases without with
        | stripped => exact List.append_cancel_right whole
        | bare plain =>
            rw [← whole,List.getLast?_append] at plain
            exact absurd rfl plain
  | none =>
      have plain : raw.getLast? ≠ some 13 := by
        intro last
        obtain ⟨rest,rfl⟩ := List.getLast?_eq_some_iff.mp last
        rw [stripSuffix_iff.mpr rfl] at stripped
        cases stripped
      constructor
      · rintro rfl
        exact .bare plain
      · intro without
        cases without with
        | stripped => exact absurd (by simp) plain
        | bare => rfl

theorem takeWhile_cut (separator : UInt8) (line : List UInt8) :
    line.takeWhile (· != separator) = line ∨ ∃ after, line = line.takeWhile (· != separator) ++ separator :: after := by
  have whole := List.takeWhile_append_dropWhile (p := (· != separator)) (l := line)
  cases rest : line.dropWhile (· != separator) with
  | nil =>
      rw [rest,List.append_nil] at whole
      exact .inl whole
  | cons byte others =>
      have stopped := dropWhile_head (· != separator) line byte (by rw [rest]; rfl)
      have same : byte = separator := by simpa using stopped
      rw [rest,same] at whole
      exact .inr ⟨others,whole.symm⟩

theorem token_free {name : List UInt8} (token : ∀ byte ∈ name, isTokenByte byte = true) : 58 ∉ name := by
  intro member
  have wrong := token 58 member
  revert wrong
  decide

theorem splitHeader_iff : splitHeader line = some field ↔ HeaderLine line field := by
  obtain ⟨name,value⟩ := field
  unfold splitHeader
  constructor
  · intro split
    simp only at split
    split at split
    · cases split
    · rename_i separated
      split at split
      · cases split
      · rename_i valid
        cases split
        rw [Bool.not_eq_true,Bool.or_eq_false_iff,List.isEmpty_eq_false_iff,Bool.not_eq_false',List.all_eq_true] at valid
        refine ⟨valid.1,valid.2,_,?_,trim_iff.mp rfl⟩
        rcases takeWhile_cut 58 line with whole | ⟨after,whole⟩
        · exact absurd (congrArg List.length whole) separated
        · generalize line.takeWhile (· != 58) = name at whole ⊢
          rw [whole]
          simp
  · rintro ⟨named,token,padded,rfl,trimmed⟩
    have kept : (name ++ 58 :: padded).takeWhile (· != 58) = name :=
      takeWhile_before 58 (token_free token) _ (.inr rfl)
    have valid : (name.isEmpty || !name.all isTokenByte) = false := by
      rw [Bool.or_eq_false_iff,List.isEmpty_eq_false_iff,List.all_eq_true.mpr token]
      exact ⟨named,rfl⟩
    simp only [kept,valid]
    rw [if_neg (by simp),if_neg Bool.false_ne_true,List.drop_append]
    simp only [List.drop_of_length_le (Nat.le_succ name.length),List.nil_append,Nat.add_sub_cancel_left,List.drop_succ_cons,
      List.drop_zero]
    rw [show trimOws padded = value from trim_iff.mpr trimmed]

def RawField (raw : List UInt8) (field : Field) : Prop := ∃ line, WithoutCr raw line ∧ HeaderLine line field

theorem rawField_iff : splitHeader (trimCr raw) = some field ↔ RawField raw field := by
  rw [splitHeader_iff]
  constructor
  · intro header
    exact ⟨trimCr raw,trimCr_iff.mp rfl,header⟩
  · rintro ⟨line,without,header⟩
    rw [trimCr_iff.mpr without]
    exact header

def collected (start : HeadFields) (fields : List Field) : HeadFields :=
  ⟨start.contentLengths ++ valuesOf "content-length" fields,start.transferEncodings ++ valuesOf "transfer-encoding" fields⟩

theorem names_differ (length : eqIgnoreAsciiCase name (ascii "content-length") = true) :
    eqIgnoreAsciiCase name (ascii "transfer-encoding") = false := by
  unfold eqIgnoreAsciiCase at length ⊢
  rw [beq_iff_eq] at length
  rw [length]
  decide

theorem readHeaderLine_iff (start : HeadFields) (raw : List UInt8) :
    readHeaderLine start raw = .ok after ↔ ∃ field, RawField raw field ∧ after = collected start [field] := by
  unfold readHeaderLine
  cases split : splitHeader (trimCr raw) with
  | none =>
      constructor
      · intro failed
        cases failed
      · rintro ⟨field,header,_⟩
        rw [rawField_iff.mpr header] at split
        cases split
  | some field =>
      have header := rawField_iff.mp split
      have only : (∃ other, RawField raw other ∧ after = collected start [other]) ↔ after = collected start [field] := by
        constructor
        · rintro ⟨other,same,rfl⟩
          rw [rawField_iff.mpr same] at split
          cases split
          rfl
        · rintro rfl
          exact ⟨field,header,rfl⟩
      rw [only]
      dsimp only
      by_cases length : eqIgnoreAsciiCase field.1 (ascii "content-length") = true
      · have other := names_differ length
        simp [collected,valuesOf,length,other,eq_comm]
      · by_cases coding : eqIgnoreAsciiCase field.1 (ascii "transfer-encoding") = true
        · simp [collected,valuesOf,length,coding,eq_comm]
        · simp [collected,valuesOf,length,coding,eq_comm]

theorem collected_cons (start : HeadFields) (field : Field) (fields : List Field) :
    collected (collected start [field]) fields = collected start (field :: fields) := by
  have split (name : String) : valuesOf name (field :: fields) = valuesOf name [field] ++ valuesOf name fields := by
    simp only [valuesOf,← List.map_append,← List.filter_append,List.singleton_append]
  simp only [collected,split,List.append_assoc]

theorem readHeaderLines_iff (lines : List (List UInt8)) (start : HeadFields) :
    lines.foldlM readHeaderLine start = .ok after ↔
      ∃ fields, List.Forall₂ RawField lines fields ∧ after = collected start fields := by
  induction lines generalizing start with
  | nil =>
      rw [List.foldlM_nil]
      constructor
      · intro same
        cases same
        exact ⟨[],.nil,by simp [collected,valuesOf]⟩
      · rintro ⟨fields,related,rfl⟩
        cases related
        simp [collected,valuesOf,pure,Except.pure]
  | cons raw rest ih =>
      rw [List.foldlM_cons]
      cases read : readHeaderLine start raw with
      | error =>
          constructor
          · intro failed
            cases failed
          · rintro ⟨_,related,_⟩
            obtain ⟨field,_,here,_⟩ := List.forall₂_cons_left_iff.mp related
            rw [(readHeaderLine_iff start raw).mpr ⟨field,here,rfl⟩] at read
            cases read
      | ok =>
          obtain ⟨field,here,rfl⟩ := (readHeaderLine_iff start raw).mp read
          change rest.foldlM readHeaderLine (collected start [field]) = .ok after ↔ _
          rw [ih]
          constructor
          · rintro ⟨fields,related,rfl⟩
            exact ⟨field :: fields,.cons here related,collected_cons start field fields⟩
          · rintro ⟨_,related,rfl⟩
            obtain ⟨other,fields,first,later,rfl⟩ := List.forall₂_cons_left_iff.mp related
            have same : other = field := by
              have one := rawField_iff.mpr first
              rw [rawField_iff.mpr here] at one
              exact (Option.some.inj one).symm
            subst same
            exact ⟨fields,later,(collected_cons start other fields).symm⟩

theorem forall₂_map_iff (f : α → β) (relation : α → β → Prop) (exact_ : ∀ a b, f a = b ↔ relation a b)
    (inputs : List α) (outputs : List β) : inputs.map f = outputs ↔ List.Forall₂ relation inputs outputs := by
  induction inputs generalizing outputs with
  | nil =>
      rw [List.map_nil,List.forall₂_nil_left_iff]
      exact eq_comm
  | cons input rest ih =>
      rw [List.forall₂_cons_left_iff,List.map_cons]
      constructor
      · rintro rfl
        exact ⟨f input,rest.map f,(exact_ _ _).mp rfl,(ih _).mp rfl,rfl⟩
      · rintro ⟨output,others,here,later,rfl⟩
        rw [(exact_ _ _).mpr here,(ih _).mpr later]

theorem elements_iff : (values.flatMap (·.splitOn 44)).map trimOws = elements ↔ Elements values elements := by
  have pieces := forall₂_map_iff (fun value : List UInt8 => value.splitOn 44) (fun value parts => Separated 44 parts value)
    (fun _ _ => splitOn_separated)
  have trimmed := forall₂_map_iff trimOws (Trimmed isOws) (fun _ _ => trim_iff)
  rw [trimmed,List.flatMap]
  constructor
  · intro related
    exact ⟨_,(pieces values _).mp rfl,related⟩
  · rintro ⟨parts,split,related⟩
    rw [(pieces values parts).mpr split]
    exact related

theorem elements_present (present : values ≠ []) (split : Elements values elements) : elements ≠ [] := by
  obtain ⟨pieces,separated,trimmed⟩ := split
  rintro rfl
  rw [List.forall₂_nil_right_iff,List.flatten_eq_nil_iff] at trimmed
  cases separated with
  | nil => exact present rfl
  | cons here _ => exact here.present (trimmed _ List.mem_cons_self)

theorem parseTransferEncoding_iff : parseTransferEncoding values = .ok chunked ↔ TransferCoding values chunked := by
  unfold parseTransferEncoding
  by_cases empty : values = []
  · subst empty
    constructor
    · intro read
      cases read
      exact .absent
    · intro coding
      cases coding with
      | absent => rfl
      | chunked present => exact absurd rfl present
  · have present : values.isEmpty = false := List.isEmpty_eq_false_iff.mpr empty
    rw [present,if_neg Bool.false_ne_true]
    dsimp only
    constructor
    · intro read
      split at read
      · rename_i token single
        split at read
        · rename_i coding
          cases read
          exact .chunked empty (elements_iff.mp rfl) single coding
        · cases read
      · cases read
    · intro coding
      cases coding with
      | absent => exact absurd rfl empty
      | chunked _ split single coding =>
          rw [elements_iff.mpr split,single]
          exact if_pos coding

theorem readContentLength_iff (expected : Option Nat) (value : List UInt8) :
    readContentLength expected value = .ok after ↔
      ∃ length, Numeral DecimalDigit 10 value length ∧ (expected = none ∨ expected = some length) ∧ after = some length := by
  unfold readContentLength
  by_cases digits : (value.isEmpty || !value.all isDigit) = true
  · rw [if_pos digits]
    constructor
    · intro failed
      cases failed
    · rintro ⟨length,numeral,_⟩
      have read := numeral_decimal.mpr numeral
      rw [parseDecimal?,if_pos digits] at read
      cases read
  · rw [if_neg digits]
    cases read : parseDecimal? u64Max value with
    | none =>
        constructor
        · intro failed
          cases failed
        · rintro ⟨length,numeral,_⟩
          rw [numeral_decimal.mpr numeral] at read
          cases read
    | some parsed =>
        have numeral := numeral_decimal.mp read
        have only (length : Nat) (other : Numeral DecimalDigit 10 value length) : length = parsed := by
          have again := numeral_decimal.mpr other
          rw [read] at again
          exact (Option.some.inj again).symm
        dsimp only
        cases expected with
        | none =>
            constructor
            · intro same
              cases same
              exact ⟨parsed,numeral,.inl rfl,rfl⟩
            · rintro ⟨length,other,_,rfl⟩
              rw [only length other]
              rfl
        | some earlier =>
            by_cases same : earlier = parsed
            · subst same
              constructor
              · intro agreed
                simp at agreed
                exact ⟨earlier,numeral,.inr rfl,agreed.symm⟩
              · rintro ⟨length,other,_,rfl⟩
                rw [only length other]
                simp
            · constructor
              · intro failed
                simp [same] at failed
              · rintro ⟨length,other,kept | kept,_⟩
                · cases kept
                · cases kept
                  exact absurd (only _ other) same

theorem readContentLengths_iff (elements : List (List UInt8)) (expected : Option Nat) :
    elements.foldlM readContentLength expected = .ok after ↔
      (elements = [] ∧ after = expected) ∨
        elements ≠ [] ∧ ∃ length, (expected = none ∨ expected = some length) ∧
          (∀ element ∈ elements, Numeral DecimalDigit 10 element length) ∧ after = some length := by
  induction elements generalizing expected with
  | nil =>
      rw [List.foldlM_nil]
      constructor
      · intro same
        cases same
        exact .inl ⟨rfl,rfl⟩
      · rintro (⟨_,rfl⟩ | ⟨absent,_⟩)
        · rfl
        · exact absurd rfl absent
  | cons element rest ih =>
      rw [List.foldlM_cons]
      cases read : readContentLength expected element with
      | error =>
          constructor
          · intro failed
            cases failed
          · rintro (⟨absent,_⟩ | ⟨_,length,kept,all,_⟩)
            · cases absent
            · rw [(readContentLength_iff expected element).mpr ⟨length,all element List.mem_cons_self,kept,rfl⟩] at read
              cases read
      | ok =>
          obtain ⟨length,numeral,kept,rfl⟩ := (readContentLength_iff expected element).mp read
          change rest.foldlM readContentLength (some length) = .ok after ↔ _
          rw [ih]
          constructor
          · rintro (⟨rfl,rfl⟩ | ⟨_,other,same,all,rfl⟩)
            · refine .inr ⟨List.cons_ne_nil _ _,length,kept,?_,rfl⟩
              intro only member
              rw [List.mem_singleton.mp member]
              exact numeral
            · rcases same with none | same
              · cases none
              · cases same
                refine .inr ⟨List.cons_ne_nil _ _,length,kept,?_,rfl⟩
                intro one member
                rcases List.mem_cons.mp member with rfl | later
                · exact numeral
                · exact all one later
          · rintro (⟨absent,_⟩ | ⟨_,other,_,all,rfl⟩)
            · cases absent
            · have same : other = length := by
                have first := numeral_decimal.mpr (all element List.mem_cons_self)
                rw [numeral_decimal.mpr numeral] at first
                exact (Option.some.inj first).symm
              subst same
              by_cases done : rest = []
              · exact .inl ⟨done,rfl⟩
              · exact .inr ⟨done,other,.inr rfl,fun one member => all one (List.mem_cons_of_mem _ member),rfl⟩

theorem parseContentLength_iff : parseContentLength values = .ok length ↔ ContentLength values length := by
  unfold parseContentLength
  rw [readContentLengths_iff]
  by_cases empty : values = []
  · subst empty
    constructor
    · rintro (⟨_,rfl⟩ | ⟨absent,_⟩)
      · exact .absent
      · exact absurd rfl absent
    · intro content
      cases content with
      | absent => exact .inl ⟨rfl,rfl⟩
      | agreed present => exact absurd rfl present
  · have split : Elements values ((values.flatMap (·.splitOn 44)).map trimOws) := elements_iff.mp rfl
    constructor
    · rintro (⟨none,_⟩ | ⟨_,number,_,all,rfl⟩)
      · exact absurd none (elements_present empty split)
      · exact .agreed empty split all
    · intro content
      cases content with
      | absent => exact absurd rfl empty
      | @agreed _ elements number present other same =>
          rw [elements_iff.mpr other]
          exact .inr ⟨elements_present present other,number,.inl rfl,same,rfl⟩

theorem numeral_status (digits : List UInt8) (three : digits.length = 3) :
    parseDecimal? 65535 digits = some status ↔ Numeral DecimalDigit 10 digits status := by
  rw [← numeral_decimal,parseDecimal_iff,parseDecimal_iff]
  have small (read : ∃ numbers, List.Forall₂ DecimalDigit digits numbers ∧ status = Nat.ofDigits 10 numbers.reverse) :
      status < 1000 := by
    obtain ⟨numbers,related,rfl⟩ := read
    obtain ⟨valid,rfl⟩ := decimalDigits_iff.mp related
    have below : ∀ number ∈ (digits.map (fun byte => byte.toNat - 48)).reverse, number < 10 := by
      intro number member
      obtain ⟨byte,inside,rfl⟩ := List.mem_map.mp (List.mem_reverse.mp member)
      have digit := valid byte inside
      simp only [isDigit,Bool.and_eq_true,decide_eq_true_eq,UInt8.le_iff_toNat_le] at digit
      have high : byte.toNat ≤ 57 := digit.2
      omega
    have bound := Nat.ofDigits_lt_base_pow_length (by omega) below
    rw [List.length_reverse,List.length_map,three] at bound
    exact bound
  constructor
  · rintro ⟨present,read,_⟩
    have low := small read
    exact ⟨present,read,by unfold u64Max; omega⟩
  · rintro ⟨present,read,_⟩
    have low := small read
    exact ⟨present,read,by omega⟩

theorem parseStatus_iff : parseStatus start = .ok status ↔ StatusLine start status := by
  unfold parseStatus
  constructor
  · intro read
    split at read
    · rename_i version digits rest pieces
      split at read
      · cases read
      · rename_i valid
        simp only [Bool.or_eq_true,Bool.not_eq_true',bne_iff_ne,ne_eq,not_or,Bool.not_eq_false] at valid
        obtain ⟨⟨spoken,three⟩,_⟩ := valid
        split at read
        · rename_i value parsed
          cases read
          refine ⟨version,digits,rest,splitOn_separated.mp pieces,?_,by simpa using three,?_⟩
          · simpa using spoken
          · exact (numeral_status digits (by simpa using three)).mp parsed
        · cases read
    · cases read
  · rintro ⟨version,digits,rest,separated,spoken,three,numeral⟩
    rw [splitOn_separated.mpr separated]
    have decimal := (numeral_status digits three).mpr numeral
    have valid : digits.all isDigit = true := by
      obtain ⟨_,⟨numbers,related,_⟩,_⟩ := numeral
      exact List.all_eq_true.mpr (decimalDigits_iff.mp related).1
    have known : (version == ascii "HTTP/1.0" || version == ascii "HTTP/1.1") = true := by
      rw [Bool.or_eq_true,beq_iff_eq,beq_iff_eq]
      exact spoken
    simp [known,three,valid,decimal]

theorem hasNoBody_iff (context : ResponseContext) (status : Nat) :
    hasNoBody context status = true ↔ Bodiless context status := by
  simp only [hasNoBody,isInformational,Bodiless,Bool.or_eq_true,Bool.and_eq_true,decide_eq_true_eq,bne_iff_ne,
    List.contains_eq_mem,List.mem_cons,List.not_mem_nil,or_false]
  simp only [informationalStatusStart,successStatusStart,redirectionStatusStart,switchingProtocolsStatus,noContentStatus,
    resetContentStatus,notModifiedStatus]
  constructor
  · rintro (((asked | ⟨informational,_⟩) | listed) | ⟨⟨tunnel,low⟩,high⟩)
    · exact .inl asked
    · exact .inr (.inl informational)
    · rcases listed with rfl | rfl | rfl | rfl <;> omega
    · exact .inr (.inr (.inr (.inr (.inr ⟨tunnel,low,high⟩))))
  · rintro (asked | ⟨low,high⟩ | rfl | rfl | rfl | ⟨tunnel,low,high⟩)
    · exact .inl (.inl (.inl asked))
    · by_cases switching : status = 101
      · exact .inl (.inr (.inl switching))
      · exact .inl (.inl (.inr ⟨⟨low,high⟩,switching⟩))
    · exact .inl (.inr (.inr (.inl rfl)))
    · exact .inl (.inr (.inr (.inr (.inl rfl))))
    · exact .inl (.inr (.inr (.inr (.inr rfl))))
    · exact .inr ⟨⟨tunnel,low⟩,high⟩

theorem isInformational_eq (status : Nat) :
    isInformational status = decide (100 ≤ status ∧ status < 200 ∧ status ≠ 101) := by
  rw [Bool.eq_iff_iff]
  simp only [isInformational,Bool.and_eq_true,decide_eq_true_eq,bne_iff_ne,and_assoc]
  exact Iff.rfl

def frame (start : List UInt8) (role : MessageRole) (chunked : Bool) (contentLength : Option Nat) :
    Except WireFramingError BodyFraming := do
  let bodiless ← match role with
    | .request => pure Option.none
    | .response context => do
        let status ← parseStatus start
        pure (if hasNoBody context status then some (isInformational status) else Option.none)
  match bodiless,chunked,contentLength,role with
  | some informational,_,_,_ => pure (.none informational)
  | none,true,_,_ => pure .chunked
  | none,false,some length,_ => pure (.fixed length)
  | none,false,none,.request => pure (.none false)
  | none,false,none,.response _ => pure .closeDelimited

theorem frame_request (start : List UInt8) : frame start .request chunked length = .ok framing ↔
    Framed start .request chunked length framing := by
  have allowed : MayHaveBody start .request := trivial
  constructor
  · intro framed
    cases chunked with
    | true =>
        cases framed
        exact .chunked allowed
    | false =>
        cases length with
        | none =>
            cases framed
            exact .plain
        | some =>
            cases framed
            exact .fixed allowed
  · intro framed
    cases framed <;> rfl

theorem frame_response (start : List UInt8) (context : ResponseContext) :
    frame start (.response context) chunked length = .ok framing ↔
      Framed start (.response context) chunked length framing := by
  have only (status other : Nat) (one : StatusLine start status) (two : StatusLine start other) : status = other := by
    have same := parseStatus_iff.mpr one
    rw [parseStatus_iff.mpr two] at same
    exact (Except.ok.inj same).symm
  unfold frame
  cases read : parseStatus start with
  | error =>
      constructor
      · intro failed
        cases failed
      · intro framed
        have spoken : ∃ status, StatusLine start status := by
          cases framed with
          | bodiless spoken _ => exact ⟨_,spoken⟩
          | chunked allowed | fixed allowed | closeDelimited allowed =>
              obtain ⟨status,spoken,_⟩ := allowed
              exact ⟨status,spoken⟩
        obtain ⟨status,spoken⟩ := spoken
        rw [parseStatus_iff.mpr spoken] at read
        cases read
  | ok status =>
      have spoken := parseStatus_iff.mp read
      by_cases forbidden : Bodiless context status
      · have empty := (hasNoBody_iff context status).mpr forbidden
        simp only [bind,Except.bind,pure,Except.pure,empty,if_true]
        constructor
        · intro framed
          cases framed
          rw [isInformational_eq]
          exact .bodiless spoken forbidden
        · intro framed
          cases framed with
          | bodiless again _ =>
              rw [only _ _ again spoken,isInformational_eq]
          | chunked allowed | fixed allowed | closeDelimited allowed =>
              obtain ⟨other,again,free⟩ := allowed
              rw [only _ _ again spoken] at free
              exact absurd forbidden free
      · have full : hasNoBody context status = false :=
          Bool.eq_false_iff.mpr (fun empty => forbidden ((hasNoBody_iff context status).mp empty))
        have allowed : MayHaveBody start (.response context) := ⟨status,spoken,forbidden⟩
        simp only [bind,Except.bind,pure,Except.pure,full]
        constructor
        · intro framed
          cases chunked with
          | true =>
              cases framed
              exact .chunked allowed
          | false =>
              cases length with
              | none =>
                  cases framed
                  exact .closeDelimited allowed
              | some =>
                  cases framed
                  exact .fixed allowed
        · intro framed
          cases framed with
          | bodiless again empty =>
              rw [only _ _ again spoken] at empty
              exact absurd empty forbidden
          | chunked | fixed | closeDelimited => rfl

theorem frame_iff : frame start role chunked length = .ok framing ↔ Framed start role chunked length framing := by
  cases role with
  | request => exact frame_request start
  | response context => exact frame_response start context

-- The head from its lines on.
def readHead (rawStart : List UInt8) (rawLines : List (List UInt8)) (role : MessageRole) :
    Except WireFramingError BodyFraming := do
  if (trimCr rawStart).isEmpty then throw .invalidStartLine
  let fields ← rawLines.foldlM readHeaderLine ⟨[],[]⟩
  if !fields.contentLengths.isEmpty && !fields.transferEncodings.isEmpty then throw .transferEncodingWithContentLength
  let chunked ← parseTransferEncoding fields.transferEncodings
  let contentLength ← parseContentLength fields.contentLengths
  frame (trimCr rawStart) role chunked contentLength

theorem parseHead_lines (content : List UInt8) (role : MessageRole) (split : content.splitOn 10 = rawStart :: rawLines) :
    parseHead (content ++ blankLine) role = readHead rawStart rawLines role := by
  unfold parseHead
  rw [ascii_blankLine,stripSuffix_iff.mpr rfl]
  dsimp only
  rw [split]
  rfl

theorem readHead_iff (rawStart : List UInt8) (rawLines : List (List UInt8)) (role : MessageRole) :
    readHead rawStart rawLines role = .ok framing ↔
      ∃ start fields chunked length, WithoutCr rawStart start ∧ start ≠ [] ∧ List.Forall₂ RawField rawLines fields ∧
        (valuesOf "content-length" fields = [] ∨ valuesOf "transfer-encoding" fields = []) ∧
        TransferCoding (valuesOf "transfer-encoding" fields) chunked ∧
        ContentLength (valuesOf "content-length" fields) length ∧ Framed start role chunked length framing := by
  have gathered (fields : List Field) : collected ⟨[],[]⟩ fields =
      ⟨valuesOf "content-length" fields,valuesOf "transfer-encoding" fields⟩ := rfl
  unfold readHead
  constructor
  · intro read
    simp only [bind,Except.bind,throw,throwThe,MonadExceptOf.throw] at read
    split at read
    · cases read
    · rename_i nonempty
      cases lines : rawLines.foldlM readHeaderLine ⟨[],[]⟩ with
      | error =>
          rw [lines] at read
          cases read
      | ok fields =>
          rw [lines] at read
          obtain ⟨found,related,rfl⟩ := (readHeaderLines_iff rawLines ⟨[],[]⟩).mp lines
          rw [gathered] at read
          dsimp only at read
          split at read
          · cases read
          · rename_i exclusive
            cases coding : parseTransferEncoding (valuesOf "transfer-encoding" found) with
            | error =>
                rw [coding] at read
                cases read
            | ok chunked =>
                cases lengths : parseContentLength (valuesOf "content-length" found) with
                | error =>
                    rw [coding,lengths] at read
                    cases read
                | ok length =>
                    rw [coding,lengths] at read
                    refine ⟨trimCr rawStart,found,chunked,length,trimCr_iff.mp rfl,?_,related,?_,
                      parseTransferEncoding_iff.mp coding,parseContentLength_iff.mp lengths,frame_iff.mp read⟩
                    · simpa using nonempty
                    · rw [Bool.and_eq_true,not_and_or] at exclusive
                      simpa using exclusive
  · rintro ⟨start,fields,chunked,length,without,nonempty,related,exclusive,coding,lengths,framed⟩
    have lines := (readHeaderLines_iff rawLines ⟨[],[]⟩).mpr ⟨fields,related,rfl⟩
    have present : start.isEmpty = false := List.isEmpty_eq_false_iff.mpr nonempty
    have apart : (!(valuesOf "content-length" fields).isEmpty && !(valuesOf "transfer-encoding" fields).isEmpty) = false := by
      rcases exclusive with none | none <;> simp [none]
    rw [trimCr_iff.mpr without,lines,gathered,present]
    simp only [bind,Except.bind,apart,parseTransferEncoding_iff.mpr coding,parseContentLength_iff.mpr lengths]
    exact frame_iff.mpr framed

theorem parseHead_iff : parseHead (content ++ blankLine) role = .ok framing ↔ HeadContent role content framing := by
  cases split : content.splitOn 10 with
  | nil => exact absurd split (List.splitOn_ne_nil 10 content)
  | cons rawStart rawLines =>
      rw [parseHead_lines content role split,readHead_iff]
      constructor
      · rintro ⟨start,fields,chunked,length,rest⟩
        exact ⟨rawStart,rawLines,start,fields,chunked,length,splitOn_separated.mp split,rest⟩
      · rintro ⟨otherStart,otherLines,start,fields,chunked,length,separated,rest⟩
        have same := splitOn_separated.mpr separated
        rw [split] at same
        cases same
        exact ⟨start,fields,chunked,length,rest⟩

end Freja.Framing
