import Freja.Proxy.Headers
import Freja.Wire.Parsing

namespace Freja.Proxy
open Bytes Framing Framing.Grammar Splitting Headers

-- Bytes that a header value may hold.
def isValueByte (byte : UInt8) : Bool := byte == 9 || (32 ≤ byte && byte != 127)

-- A header line as it is sent, with the blanks around its value.
structure SentLine where
  name : List UInt8
  value : List UInt8
  key : String
  named : headerName? name = some key
  legal : ∀ byte ∈ value, isValueByte byte = true

def SentLine.text (line : SentLine) : List UInt8 := line.name ++ 58 :: line.value

def SentLine.field (line : SentLine) : Grammar.Field := (line.name,trimOws line.value)

structure SentHead where
  start : List UInt8
  lines : List SentLine
  present : start ≠ []
  plain : 10 ∉ start ∧ 13 ∉ start

def SentHead.bytes (head : SentHead) : List UInt8 :=
  crlf.intercalate (head.start :: head.lines.map SentLine.text) ++ blankLine

-- The header map of the data plane: values without the blanks around them.
def headersOf (lines : List SentLine) : HeaderMap :=
  lines.foldl (fun headers line => headers.append line.key (trimOws line.value)) .empty

inductive SameKind : HeaderError → WireFramingError → Prop
  | both : SameKind .transferEncodingWithContentLength .transferEncodingWithContentLength
  | coding : SameKind .unsupportedTransferEncoding .unsupportedTransferEncoding
  | length : SameKind .invalidContentLength .invalidContentLength
  | conflict : SameKind .conflictingContentLength .conflictingContentLength

inductive FramedAlike (values : α → β → Prop) : Except HeaderError α → Except WireFramingError β → Prop
  | accepted (same : values value other) : FramedAlike values (.ok value) (.ok other)
  | rejected (same : SameKind error fault) : FramedAlike values (.error error) (.error fault)

theorem FramedAlike.bind {values : α → β → Prop} {later : γ → δ → Prop} {left : Except HeaderError α}
    {right : Except WireFramingError β} {next : α → Except HeaderError γ} {other : β → Except WireFramingError δ}
    (start : FramedAlike values left right) (rest : ∀ one two, values one two → FramedAlike later (next one) (other two)) :
    FramedAlike later (left >>= next) (right >>= other) := by
  cases start with
  | accepted same => exact rest _ _ same
  | rejected same => exact .rejected same

theorem value_whitespace (legal : isValueByte byte = true) : isAsciiWhitespace byte = isOws byte := by
  have other (control : UInt8) (illegal : isValueByte control = false) : (byte == control) = false := by
    rw [beq_eq_false_iff_ne]
    intro same
    rw [same,illegal] at legal
    cases legal
  unfold isAsciiWhitespace isOws
  rw [other 10 (by decide),other 12 (by decide),other 13 (by decide)]
  simp only [Bool.or_false]

theorem dropWhile_agree {left right : α → Bool} (items : List α) (same : ∀ item ∈ items, left item = right item) :
    items.dropWhile left = items.dropWhile right := by
  induction items with
  | nil => rfl
  | cons item rest ih =>
      have later := ih (fun other member => same other (List.mem_cons_of_mem _ member))
      rw [List.dropWhile_cons,List.dropWhile_cons,same item List.mem_cons_self,later]

theorem trim_legal {value : List UInt8} (legal : ∀ byte ∈ value, isValueByte byte = true) :
    trimAscii value = trimOws value := by
  have first := dropWhile_agree value (fun byte member => value_whitespace (legal byte member))
  unfold trimAscii trimOws
  rw [first]
  congr 1
  apply dropWhile_agree
  intro byte member
  apply value_whitespace
  exact legal byte ((List.dropWhile_suffix isOws).subset (List.mem_reverse.mp member))

theorem trimOws_legal {value : List UInt8} (legal : ∀ byte ∈ value, isValueByte byte = true) :
    ∀ byte ∈ trimOws value, isValueByte byte = true := by
  intro byte member
  obtain ⟨before,after,whole,_⟩ := (trim_trimmed isOws value).around
  apply legal
  rw [whole]
  exact List.mem_append_left _ (List.mem_append_right _ member)

-- The values of a name, as both sides find them.
def valuesFor (name : String) (lines : List SentLine) : List (List UInt8) :=
  (lines.filter (fun line => line.key = name)).map (fun line => trimOws line.value)

theorem valuesFor_legal {name : String} {lines : List SentLine} :
    ∀ value ∈ valuesFor name lines, ∀ byte ∈ value, isValueByte byte = true := by
  intro value member
  obtain ⟨line,_,rfl⟩ := List.mem_map.mp member
  exact trimOws_legal line.legal

theorem elements_legal {values : List (List UInt8)} (legal : ∀ value ∈ values, ∀ byte ∈ value, isValueByte byte = true) :
    (values.flatMap (·.splitOn 44)).map trimAscii = (values.flatMap (·.splitOn 44)).map trimOws := by
  apply List.map_congr_left
  intro piece member
  obtain ⟨value,given,inside⟩ := List.mem_flatMap.mp member
  apply trim_legal
  intro byte found
  exact legal value given byte (Separated.mem (splitOn_separated.mp rfl) inside found)

variable (lines : List SentLine) (headers : HeaderMap)

theorem headersOf_append (name : String) :
    (lines.foldl (fun headers line => headers.append line.key (trimOws line.value)) headers).getAll name =
        headers.getAll name ++ valuesFor name lines ∧
      ((lines.foldl (fun headers line => headers.append line.key (trimOws line.value)) headers).containsKey name = true ↔
        headers.containsKey name = true ∨ valuesFor name lines ≠ []) := by
  induction lines generalizing headers with
  | nil => simp [valuesFor]
  | cons line rest ih =>
      obtain ⟨values,present⟩ := ih (headers.append line.key (trimOws line.value))
      rw [List.foldl_cons,values,present]
      have grown := headers.containsKey_update line.key name (trimOws line.value) (fun values => values ++ [trimOws line.value])
      by_cases here : line.key = name
      · have split : valuesFor name (line :: rest) = trimOws line.value :: valuesFor name rest := by
          simp [valuesFor,here]
        subst here
        rw [split,HeaderMap.getAll_append_self,List.append_assoc,List.singleton_append]
        exact ⟨rfl,iff_of_true (.inl (grown.mpr (.inr rfl))) (.inr (List.cons_ne_nil _ _))⟩
      · have split : valuesFor name (line :: rest) = valuesFor name rest := by
          simp [valuesFor,here]
        rw [split,HeaderMap.getAll_append_of_ne headers _ (fun same => here same.symm)]
        refine ⟨rfl,or_congr_left ?_⟩
        rw [HeaderMap.append,grown]
        exact or_iff_left (fun same => here same.symm)

theorem headersOf_getAll (name : String) : (headersOf lines).getAll name = valuesFor name lines :=
  (headersOf_append lines .empty name).1

theorem headersOf_contains (name : String) :
    (headersOf lines).containsKey name = !(valuesFor name lines).isEmpty := by
  have present := (headersOf_append lines .empty name).2
  rw [Bool.eq_iff_iff,Bool.not_eq_true',List.isEmpty_eq_false_iff]
  refine present.trans (or_iff_right ?_)
  intro never
  cases never

def byteChar (byte : UInt8) : Char := Char.ofNat byte.toNat

theorem ofNat_small : ∀ code < 256, (Char.ofNat code).toUInt8.toNat = code := by decide +kernel

theorem byteChar_byte (byte : UInt8) : (byteChar byte).toUInt8 = byte :=
  UInt8.toNat_inj.mp (ofNat_small byte.toNat byte.toNat_lt)

theorem headerName_some (named : headerName? name = some key) :
    name ≠ [] ∧ (∀ byte ∈ name, isTokenByte byte = true) ∧ key.toList = (name.map toLower).map byteChar := by
  unfold headerName? at named
  split at named
  · cases named
  · rename_i valid
    cases named
    simp only [Bool.or_eq_true,List.isEmpty_iff,decide_eq_true_eq,Bool.not_eq_true',not_or,Bool.not_eq_false,
      List.all_eq_true] at valid
    refine ⟨valid.1.1,valid.2,?_⟩
    rw [String.toList_ofList,List.map_map]
    rfl

theorem key_iff (named : headerName? name = some key) (low : (ascii text).map toLower = ascii text)
    (plain : (ascii text).map byteChar = text.toList) :
    eqIgnoreAsciiCase name (ascii text) = true ↔ key = text := by
  obtain ⟨_,_,written⟩ := headerName_some named
  unfold eqIgnoreAsciiCase
  rw [beq_iff_eq,low,← String.toList_inj,written]
  constructor
  · intro same
    rw [same,plain]
  · intro same
    have bytes := congrArg (List.map Char.toUInt8) same
    have back : Char.toUInt8 ∘ byteChar = id := funext byteChar_byte
    rwa [List.map_map,back,List.map_id] at bytes

theorem valuesOf_fields (low : (ascii text).map toLower = ascii text)
    (plain : (ascii text).map byteChar = text.toList) :
    Grammar.valuesOf text (lines.map SentLine.field) = valuesFor text lines := by
  unfold Grammar.valuesOf valuesFor
  rw [List.filter_map,List.map_map]
  congr 1
  apply List.filter_congr
  intro line _
  rw [Bool.eq_iff_iff,decide_eq_true_eq]
  exact key_iff line.named low plain

theorem valuesOf_lengths :
    Grammar.valuesOf "content-length" (lines.map SentLine.field) = valuesFor "content-length" lines :=
  valuesOf_fields lines (by decide) (by decide)

theorem valuesOf_codings :
    Grammar.valuesOf "transfer-encoding" (lines.map SentLine.field) = valuesFor "transfer-encoding" lines :=
  valuesOf_fields lines (by decide) (by decide)

-- Every line but the last keeps the CR of the line end that cut it.
def withCr : List (List UInt8) → List (List UInt8)
  | [] => []
  | [last] => [last]
  | line :: rest => (line ++ [13]) :: withCr rest

theorem withCr_joined (lines : List (List UInt8)) : crlf.intercalate lines = [10].intercalate (withCr lines) := by
  induction lines with
  | nil => rfl
  | cons line rest ih =>
      cases rest with
      | nil => rfl
      | cons next others =>
          have some : withCr (next :: others) ≠ [] := by
            cases others with
            | nil => exact List.cons_ne_nil _ _
            | cons _ _ => exact List.cons_ne_nil _ _
          have step : withCr (line :: next :: others) = (line ++ [13]) :: withCr (next :: others) := rfl
          rw [List.intercalate_cons_cons,ih,step,List.intercalate_cons_of_ne_nil some]
          simp [crlf]

theorem withCr_related {relation : List UInt8 → β → Prop} (lines : List (List UInt8)) (fields : List β)
    (plain : List.Forall₂ relation lines fields) (cut : List.Forall₂ (fun line => relation (line ++ [13])) lines fields) :
    List.Forall₂ relation (withCr lines) fields := by
  induction plain with
  | nil => exact .nil
  | @cons line field rest others here later ih =>
      cases rest with
      | nil => exact .cons here later
      | cons =>
          cases cut with
          | cons first then_ => exact .cons first (ih then_)

theorem withCr_free (lines : List (List UInt8)) (free : ∀ line ∈ lines, 10 ∉ line) : ∀ line ∈ withCr lines, 10 ∉ line := by
  induction lines with
  | nil => exact free
  | cons line rest ih =>
      cases rest with
      | nil => exact free
      | cons =>
          intro other member
          rcases List.mem_cons.mp member with rfl | later
          · rw [List.mem_append,not_or]
            exact ⟨free line List.mem_cons_self,by decide⟩
          · exact ih (fun one inside => free one (List.mem_cons_of_mem _ inside)) other later

theorem SentLine.rawField (line : SentLine) : RawField line.text line.field ∧ RawField (line.text ++ [13]) line.field := by
  obtain ⟨present,token,_⟩ := headerName_some line.named
  have header : HeaderLine line.text line.field := ⟨present,token,line.value,rfl,trim_trimmed isOws line.value⟩
  refine ⟨⟨line.text,.bare ?_,header⟩,⟨line.text,.stripped line.text,header⟩⟩
  intro ended
  have last := List.mem_of_getLast? ended
  rcases List.mem_append.mp last with inside | rest
  · exact absurd (token 13 inside) (by decide)
  · rcases List.mem_cons.mp rest with colon | inside
    · exact absurd colon (by decide)
    · exact absurd (line.legal 13 inside) (by decide)

theorem SentLine.newlineless (line : SentLine) : 10 ∉ line.text := by
  obtain ⟨_,token,_⟩ := headerName_some line.named
  intro member
  rcases List.mem_append.mp member with inside | rest
  · exact absurd (token 10 inside) (by decide)
  · rcases List.mem_cons.mp rest with colon | inside
    · exact absurd colon (by decide)
    · exact absurd (line.legal 10 inside) (by decide)

theorem withCr_cons (line : List UInt8) (rest : List (List UInt8)) :
    ∃ first, withCr (line :: rest) = first :: withCr rest ∧ (first = line ∨ first = line ++ [13]) := by
  cases rest with
  | nil => exact ⟨line,rfl,.inl rfl⟩
  | cons => exact ⟨line ++ [13],rfl,.inr rfl⟩

theorem SentHead.read (head : SentHead) : ∃ rawStart rawLines, trimCr rawStart = head.start ∧
    rawLines.foldlM readHeaderLine ⟨[],[]⟩ =
      .ok ⟨valuesFor "content-length" head.lines,valuesFor "transfer-encoding" head.lines⟩ ∧
    parseHead head.bytes .request = readHead rawStart rawLines .request := by
  obtain ⟨rawStart,cut,start⟩ := withCr_cons head.start (head.lines.map SentLine.text)
  refine ⟨rawStart,withCr (head.lines.map SentLine.text),?_,?_,?_⟩
  · rcases start with rfl | rfl
    · exact trimCr_iff.mpr (.bare (fun ended => head.plain.2 (List.mem_of_getLast? ended)))
    · exact trimCr_iff.mpr (.stripped head.start)
  · rw [readHeaderLines_iff]
    refine ⟨head.lines.map SentLine.field,?_,?_⟩
    · apply withCr_related
      · rw [List.forall₂_map_left_iff,List.forall₂_map_right_iff,List.forall₂_same]
        exact fun line _ => line.rawField.1
      · rw [List.forall₂_map_left_iff,List.forall₂_map_right_iff,List.forall₂_same]
        exact fun line _ => line.rawField.2
    · rw [collected,valuesOf_lengths,valuesOf_codings]
      rfl
  · apply parseHead_lines
    rw [withCr_joined,cut]
    apply List.splitOn_intercalate
    · rw [← cut]
      apply withCr_free
      intro line member
      rcases List.mem_cons.mp member with rfl | later
      · exact head.plain.1
      · obtain ⟨sent,_,rfl⟩ := List.mem_map.mp later
        exact sent.newlineless
    · exact List.cons_ne_nil _ _

theorem transferEncoding_alike (values : List (List UInt8)) (present : values ≠ [])
    (same : listed headers "transfer-encoding" = (values.flatMap (·.splitOn 44)).map trimOws) :
    FramedAlike (fun _ _ => True) (validateTransferEncoding headers) (parseTransferEncoding values) := by
  unfold validateTransferEncoding parseTransferEncoding
  rw [same,if_neg (by simpa using present)]
  dsimp only
  generalize ((values.flatMap (·.splitOn 44)).map trimOws).filter (!·.isEmpty) = tokens
  cases tokens with
  | nil => exact .rejected .coding
  | cons token rest =>
      cases rest with
      | cons => exact .rejected .coding
      | nil =>
          dsimp only
          by_cases chunked : eqIgnoreAsciiCase token (ascii "chunked") = true
          · rw [if_pos chunked,if_pos chunked]
            exact .accepted trivial
          · rw [if_neg chunked,if_neg chunked]
            exact .rejected .coding

theorem readContentLength_alike (expected : Option Nat) (value : List UInt8) :
    FramedAlike Eq (Headers.readContentLength expected value) (Framing.readContentLength expected value) := by
  unfold Headers.readContentLength Framing.readContentLength
  split
  · exact .rejected .length
  · cases parseDecimal? u64Max value with
    | none => exact .rejected .length
    | some =>
        dsimp only
        split
        · exact .rejected .conflict
        · exact .accepted rfl

theorem contentLengths_alike (elements : List (List UInt8)) (expected : Option Nat) :
    FramedAlike Eq (elements.foldlM Headers.readContentLength expected) (elements.foldlM Framing.readContentLength expected) := by
  induction elements generalizing expected with
  | nil => exact .accepted rfl
  | cons element rest ih =>
      rw [List.foldlM_cons,List.foldlM_cons]
      apply (readContentLength_alike expected element).bind
      intro one two same
      subst same
      exact ih one

theorem contentLength_alike (values : List (List UInt8))
    (same : listed headers "content-length" = (values.flatMap (·.splitOn 44)).map trimOws) :
    FramedAlike (fun _ _ => True) (validateContentLength headers) (parseContentLength values) := by
  unfold validateContentLength parseContentLength
  rw [same]
  have read := contentLengths_alike ((values.flatMap (·.splitOn 44)).map trimOws) none
  generalize ((values.flatMap (·.splitOn 44)).map trimOws).foldlM Headers.readContentLength none = left at read ⊢
  generalize ((values.flatMap (·.splitOn 44)).map trimOws).foldlM Framing.readContentLength none = right at read ⊢
  cases read with
  | accepted => exact .accepted trivial
  | rejected same => exact .rejected same

theorem listed_elements (name : String) :
    listed (headersOf lines) name = ((valuesFor name lines).flatMap (·.splitOn 44)).map trimOws := by
  unfold listed
  rw [headersOf_getAll]
  exact elements_legal valuesFor_legal

theorem validate_alike (head : SentHead) (maximum : Nat) (budget : headerSize (headersOf head.lines) ≤ maximum) :
    FramedAlike (fun _ _ => True) (validate (headersOf head.lines) maximum) (parseHead head.bytes .request) := by
  obtain ⟨rawStart,rawLines,start,fields,parsed⟩ := head.read
  have present : (trimCr rawStart).isEmpty = false := by
    rw [start,List.isEmpty_eq_false_iff]
    exact head.present
  have framed (chunked : Bool) (length : Option Nat) :
      FramedAlike (fun _ _ => True) (.ok () : Except HeaderError Unit) (frame (trimCr rawStart) .request chunked length) := by
    cases chunked with
    | true => exact .accepted trivial
    | false =>
        cases length with
        | none | some => exact .accepted trivial
  rw [parsed]
  unfold validate readHead
  rw [fields,present,if_neg (Nat.not_lt.mpr budget),headersOf_contains,headersOf_contains]
  have codings := fun some => transferEncoding_alike (headersOf head.lines)
    (valuesFor "transfer-encoding" head.lines) some (listed_elements head.lines "transfer-encoding")
  have lengths := contentLength_alike (headersOf head.lines) (valuesFor "content-length" head.lines)
    (listed_elements head.lines "content-length")
  cases coded : valuesFor "transfer-encoding" head.lines with
  | nil =>
      cases measured : valuesFor "content-length" head.lines with
      | nil => exact framed false none
      | cons length =>
          rw [measured] at lengths
          have both := lengths.bind (fun _ length _ => framed false length)
          have last (checked : Except HeaderError Unit) : (checked >>= fun _ => .ok ()) = checked := by
            cases checked <;> rfl
          rw [last] at both
          exact both
  | cons =>
      cases measured : valuesFor "content-length" head.lines with
      | cons => exact .rejected .both
      | nil =>
          have present : valuesFor "transfer-encoding" head.lines ≠ [] := by
            rw [coded]
            exact List.cons_ne_nil _ _
          have both := (codings present).bind (fun _ chunked _ => framed chunked none)
          rw [coded] at both
          exact both

theorem framing_agrees (head : SentHead) (maximum : Nat) (budget : headerSize (headersOf head.lines) ≤ maximum) :
    (validate (headersOf head.lines) maximum = .ok () ↔ ∃ framing, parseHead head.bytes .request = .ok framing) ∧
      ∀ error fault, validate (headersOf head.lines) maximum = .error error →
        parseHead head.bytes .request = .error fault → SameKind error fault := by
  have alike := validate_alike head maximum budget
  generalize validate (headersOf head.lines) maximum = validated at alike
  generalize parseHead head.bytes .request = parsed at alike
  cases alike with
  | accepted _ => exact ⟨⟨fun _ => ⟨_,rfl⟩,fun _ => rfl⟩,(fun _ _ failed => by cases failed)⟩
  | rejected same =>
      refine ⟨⟨(fun accepted => by cases accepted),?_⟩,?_⟩
      · intro accepted
        obtain ⟨framing,accepted⟩ := accepted
        cases accepted
      · intro error fault first second
        cases first
        cases second
        exact same

theorem repeatedName : headerName? (ascii "Content-Length") = some "content-length" := by decide +kernel

theorem repeatedValue : ∀ byte ∈ ascii " 5,\t05 ", isValueByte byte = true := by
  have all : (ascii " 5,\t05 ").all isValueByte = true := by decide +kernel
  exact List.all_eq_true.mp all

theorem repeatedStart : ascii "GET / HTTP/1.1" ≠ [] ∧ 10 ∉ ascii "GET / HTTP/1.1" ∧ 13 ∉ ascii "GET / HTTP/1.1" := by
  decide +kernel

def repeatedLengths : SentHead where
  start := ascii "GET / HTTP/1.1"
  lines := [⟨ascii "Content-Length",ascii " 5,\t05 ","content-length",repeatedName,repeatedValue⟩]
  present := repeatedStart.1
  plain := repeatedStart.2

theorem repeatedLengths_agree :
    validate (headersOf repeatedLengths.lines) 1024 = .ok () ∧
      ∃ framing, parseHead repeatedLengths.bytes .request = .ok framing := by
  have small : headerSize (headersOf repeatedLengths.lines) ≤ 1024 := by decide +kernel
  have valid : validate (headersOf repeatedLengths.lines) 1024 = .ok () := by decide +kernel
  exact ⟨valid,(framing_agrees repeatedLengths 1024 small).1.mp valid⟩

end Freja.Proxy
