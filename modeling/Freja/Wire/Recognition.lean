import Freja.Foundation.Recognizer
import Freja.Wire.Accounting
import Freja.Wire.Parsing

namespace Freja.Framing
open Bytes Splitting Grammar Recognizer Transducer

theorem head_iff (ends : EndsFirst blankLine head) (fits : head.length ≤ maximum) :
    Head role maximum head framing ↔ parseHead head role = .ok framing := by
  obtain ⟨content,rfl⟩ := ends.ended
  rw [parseHead_iff]
  constructor
  · rintro ⟨_,_,other,same,content⟩
    rw [List.append_cancel_right same]
    exact content
  · intro content
    exact ⟨ends,fits,_,rfl,content⟩

theorem message_at (ends : EndsFirst blankLine head) (fits : head.length ≤ maximum) (rest : List UInt8) :
    Message role maximum (head ++ rest) ↔ ∃ framing, parseHead head role = .ok framing ∧ Body maximum framing rest := by
  constructor
  · rintro ⟨other,body,framing,same,valid,follows⟩
    obtain ⟨rfl,rfl⟩ := ends.unique valid.ends same
    exact ⟨framing,(head_iff ends fits).mp valid,follows⟩
  · rintro ⟨framing,read,follows⟩
    exact ⟨head,rest,framing,rfl,(head_iff ends fits).mpr read,follows⟩

theorem closeDelimited_at (ends : EndsFirst blankLine head) (fits : head.length ≤ maximum) (rest : List UInt8) :
    CloseDelimited role maximum (head ++ rest) ↔ parseHead head role = .ok .closeDelimited := by
  constructor
  · rintro ⟨other,body,same,valid⟩
    obtain ⟨rfl,rfl⟩ := ends.unique valid.ends same
    exact (head_iff ends fits).mp valid
  · intro read
    exact ⟨head,rest,rfl,(head_iff ends fits).mpr read⟩

theorem sizeLine_iff (ends : EndsFirst crlf line) (fits : line.length ≤ maximum) :
    SizeLine maximum line size ↔ parseChunkSize (line.take (line.length - 2)) = .ok size := by
  obtain ⟨text,rfl⟩ := ends.ended
  have cut : (text ++ crlf).take ((text ++ crlf).length - 2) = text := by simp [crlf]
  rw [cut,parseChunkSize_iff]
  constructor
  · rintro ⟨_,_,digits,rest,same,stops,numeral⟩
    exact ⟨digits,rest,List.append_cancel_right same,stops,numeral⟩
  · rintro ⟨digits,rest,rfl,stops,numeral⟩
    exact ⟨ends,fits,digits,rest,rfl,stops,numeral⟩

-- What may follow a size line.
def AfterSize (maximum size : Nat) (rest : List UInt8) : Prop :=
  (size = 0 ∧ Trailers rest ∧ min rest.length u64Max ≤ maximum) ∨
    size ≠ 0 ∧ ∃ data more, rest = data ++ (crlf ++ more) ∧ data.length = size ∧ Chunked maximum more

theorem chunked_at (ends : EndsFirst crlf line) (fits : line.length ≤ maximum) (rest : List UInt8) :
    Chunked maximum (line ++ rest) ↔
      ∃ size, parseChunkSize (line.take (line.length - 2)) = .ok size ∧ AfterSize maximum size rest := by
  constructor
  · intro chunked
    generalize whole : line ++ rest = body at chunked
    cases chunked with
    | last size trailers short =>
        obtain ⟨rfl,rfl⟩ := ends.unique size.ends whole
        exact ⟨0,(sizeLine_iff ends fits).mp size,.inl ⟨rfl,trailers,short⟩⟩
    | @chunk _ data more size present later =>
        obtain ⟨rfl,rfl⟩ := ends.unique size.ends whole
        have some : data.length ≠ 0 := fun none => present (List.length_eq_zero_iff.mp none)
        exact ⟨data.length,(sizeLine_iff ends fits).mp size,.inr ⟨some,data,more,rfl,rfl,later⟩⟩
  · rintro ⟨size,read,⟨rfl,trailers,short⟩ | ⟨some,data,more,rfl,rfl,later⟩⟩
    · exact .last ((sizeLine_iff ends fits).mpr read) trailers short
    · refine .chunk ((sizeLine_iff ends fits).mpr read) ?_ later
      rintro rfl
      exact some rfl

theorem headerLine_present (header : HeaderLine line field) : line ≠ [] := by
  obtain ⟨named,_,padded,rfl,_⟩ := header
  intro empty
  exact named (List.append_eq_nil_iff.mp empty).1

theorem trailers_at (ends : EndsFirst crlf (line ++ crlf)) (rest : List UInt8) :
    Trailers (line ++ crlf ++ rest) ↔
      (line = [] ∧ rest = []) ∨ (line ≠ [] ∧ validHeaderLine line = true ∧ Trailers rest) := by
  have valid : validHeaderLine line = true ↔ ∃ field, HeaderLine line field := by
    simp only [validHeaderLine,Option.isSome_iff_exists,splitHeader_iff]
  rw [valid]
  constructor
  · intro trailers
    generalize whole : line ++ crlf ++ rest = body at trailers
    cases trailers with
    | blank =>
        -- The line ends with the blank line, so it is no shorter.
        have last : (crlf : List UInt8) ++ [] = line ++ crlf ++ rest := by
          rw [whole]
          exact List.append_nil _
        have blank : EndsFirst crlf (crlf : List UInt8) := ⟨List.suffix_rfl,fun start beginning ended => by
          exact beginning.eq_of_length_le ended.length_le⟩
        obtain ⟨same,none⟩ := blank.unique ends last
        have empty : line = [] := by
          have lengths := congrArg List.length same
          rw [List.length_append] at lengths
          exact List.length_eq_zero_iff.mp (by omega)
        exact .inl ⟨empty,none.symm⟩
    | field other header later =>
        obtain ⟨same,rfl⟩ := ends.unique other whole
        have equal := List.append_cancel_right same
        subst equal
        exact .inr ⟨headerLine_present header,⟨_,header⟩,later⟩
  · rintro (⟨rfl,rfl⟩ | ⟨_,⟨field,header⟩,later⟩)
    · exact .blank
    · exact .field ends header later

theorem crlf_present : (crlf : List UInt8) ≠ [] := List.cons_ne_nil _ _

theorem blankLine_present : (blankLine : List UInt8) ≠ [] := List.cons_ne_nil _ _

-- The line that a state gathers has not ended yet.
def State.Gathers (head : List UInt8) : State → Prop
  | .head => Unended blankLine head
  | .chunkSize line => Unended crlf line
  | .trailers line _ => Unended crlf line
  | _ => True

-- A verdict keeps a line only until it ends.
def Verdict.Gathers (head : List UInt8) : Verdict → Prop
  | .more state => state.Gathers head
  | _ => True

namespace Verdict

theorem ofFraming_gathers (head : List UInt8) (outcome : Except WireFramingError BodyFraming) :
    (ofFraming outcome).Gathers head := by
  cases outcome with
  | error => trivial
  | ok framing =>
      cases framing with
      | fixed =>
          simp only [ofFraming]
          split <;> trivial
      | chunked => exact unended_nil crlf_present
      | none | closeDelimited => trivial

theorem ofHead_gathers (role : MessageRole) (maximum : Nat) (byte : UInt8) (unended : Unended blankLine head) :
    (ofHead role maximum (head ++ [byte])).Gathers (head ++ [byte]) := by
  unfold ofHead
  split
  · trivial
  · split
    · exact ofFraming_gathers _ _
    · rename_i still
      rw [ascii_blankLine,List.isSuffixOf_iff_suffix] at still
      exact unended.snoc still

theorem ofSizeLine_gathers (maximum : Nat) (byte : UInt8) (unended : Unended crlf line) (head : List UInt8) :
    (ofSizeLine maximum (line ++ [byte])).Gathers head := by
  unfold ofSizeLine
  split
  · trivial
  · split
    · cases parseChunkSize ((line ++ [byte]).take ((line ++ [byte]).length - 2)) with
      | error => trivial
      | ok =>
          simp only [ofSize]
          split
          · trivial
          · exact unended_nil crlf_present
    · rename_i still
      rw [ascii_crlf,List.isSuffixOf_iff_suffix] at still
      exact unended.snoc still

theorem ofTrailer_gathers (maximum observed : Nat) (byte : UInt8) (unended : Unended crlf line) (head : List UInt8) :
    (ofTrailer maximum (line ++ [byte]) observed).Gathers head := by
  unfold ofTrailer
  split
  · trivial
  · split
    · split
      · trivial
      · split
        · exact unended_nil crlf_present
        · trivial
    · rename_i still
      rw [ascii_crlf,List.isSuffixOf_iff_suffix] at still
      exact unended.snoc still

theorem ofTerminator_gathers (matched : Nat) (byte : UInt8) (head : List UInt8) : (ofTerminator matched byte).Gathers head := by
  unfold ofTerminator
  by_cases wrong : byte ≠ (if matched = 0 then 13 else 10)
  · rw [if_pos wrong]
    trivial
  · rw [if_neg wrong]
    split
    · trivial
    · exact unended_nil crlf_present

theorem counted_gathers (remaining : Nat) (waiting : (left : Nat) → left ≠ 0 → State) (finished : Verdict)
    (waits : ∀ left more, (waiting left more).Gathers head) (finishes : finished.Gathers head) :
    (counted remaining waiting finished).Gathers head := by
  unfold counted
  split
  · exact waits _ _
  · exact finishes

end Verdict

namespace Http1Framer

variable {framer : Http1Framer}

def taken (framer : Http1Framer) (byte : UInt8) (state : State) : Http1Framer := {framer.heard byte with state := state}

def moveTo (framer : Http1Framer) (byte : UInt8) : Verdict → Move Http1Framer
  | .more state => .more (framer.taken byte state)
  | .done _ => .accept
  | .broken _ => .reject

def move (framer : Http1Framer) (byte : UInt8) : Move Http1Framer := framer.moveTo byte (framer.verdict byte)

-- What completes the message a framer is in.
def Completes (framer : Http1Framer) (rest : List UInt8) : Prop :=
  match framer.state with
  | .head => Message framer.role framer.maximumHeadBytes (framer.head ++ rest)
  | .fixedBody remaining _ _ => rest.length = remaining
  | .chunkSize line => Chunked framer.maximumHeadBytes (line ++ rest)
  | .chunkData remaining _ =>
      ∃ data more, rest = data ++ (crlf ++ more) ∧ data.length = remaining ∧ Chunked framer.maximumHeadBytes more
  | .chunkDataTerminator matched =>
      ∃ more, rest = (if matched = 0 then crlf else [10]) ++ more ∧ Chunked framer.maximumHeadBytes more
  | .trailers line observed => Trailers (line ++ rest) ∧ saturatingAdd observed rest.length ≤ framer.maximumHeadBytes
  | .closeDelimited | .failed => False

def Gathering (framer : Http1Framer) : Prop := framer.state.Gathers framer.head

-- The move of each state on its own.
def Unfolds (framer : Http1Framer) (byte : UInt8) (rest : List UInt8) : Prop :=
  framer.Completes (byte :: rest) ↔ (framer.move byte).Leaves (fun next => next.Completes rest) (rest = [])

theorem unfolds_counted (remaining : Nat) (pending : remaining ≠ 0) (waiting : (left : Nat) → left ≠ 0 → State)
    (finished : Verdict) (decision : framer.verdict byte = .counted remaining waiting finished)
    (due : Nat → List UInt8 → Prop)
    (here : framer.Completes (byte :: rest) ↔ due remaining (byte :: rest))
    (peel : ∀ left, due (left + 1) (byte :: rest) ↔ due left rest)
    (later : ∀ left more, (framer.taken byte (waiting left more)).Completes rest ↔ due left rest)
    (last : due 0 rest ↔ (framer.moveTo byte finished).Leaves (fun next => next.Completes rest) (rest = [])) :
    framer.Unfolds byte rest := by
  unfold Unfolds move
  rw [here,decision]
  obtain _ | left := remaining
  · exact absurd rfl pending
  rw [peel left]
  unfold Verdict.counted
  by_cases more : left ≠ 0
  · rw [dif_pos (show left + 1 - 1 ≠ 0 from more)]
    exact (later left more).symm
  · have none : left = 0 := not_not.mp more
    subst none
    rw [dif_neg (by decide),last]

theorem unfolds_fixedBody (remaining : Nat) (pending : remaining ≠ 0) (informational : Bool)
    (here : framer.state = .fixedBody remaining pending informational) (byte : UInt8) (rest : List UInt8) :
    framer.Unfolds byte rest := by
  refine unfolds_counted remaining pending (fun left more => .fixedBody left more informational) (.done informational)
    (by simp only [verdict,here]) (fun left rest => rest.length = left) (by simp only [Completes,here]) ?_ ?_ ?_
  · intro left
    simp
  · intro left more
    exact Iff.rfl
  · exact List.length_eq_zero_iff

theorem unfolds_chunkData (remaining : Nat) (pending : remaining ≠ 0) (here : framer.state = .chunkData remaining pending)
    (byte : UInt8) (rest : List UInt8) : framer.Unfolds byte rest := by
  refine unfolds_counted remaining pending .chunkData (.more (.chunkDataTerminator 0)) (by simp only [verdict,here])
    (fun left rest => ∃ data more, rest = data ++ (crlf ++ more) ∧ data.length = left ∧ Chunked framer.maximumHeadBytes more)
    (by simp only [Completes,here]) ?_ ?_ ?_
  · intro left
    constructor
    · intro split
      obtain ⟨data,more,same,length,chunked⟩ := split
      cases data with
      | nil => cases length
      | cons first others =>
          cases same
          exact ⟨others,more,rfl,Nat.succ.inj length,chunked⟩
    · intro split
      obtain ⟨data,more,rfl,length,chunked⟩ := split
      exact ⟨byte :: data,more,rfl,by rw [List.length_cons,length],chunked⟩
  · intro left more
    exact Iff.rfl
  · constructor
    · intro split
      obtain ⟨data,more,rfl,length,chunked⟩ := split
      rw [List.length_eq_zero_iff.mp length]
      exact ⟨more,rfl,chunked⟩
    · intro split
      obtain ⟨more,rfl,chunked⟩ := split
      exact ⟨[],more,rfl,rfl,chunked⟩

theorem unfolds_terminator (matched : Nat) (here : framer.state = .chunkDataTerminator matched) (byte : UInt8)
    (rest : List UInt8) : framer.Unfolds byte rest := by
  have whole : framer.Completes (byte :: rest) ↔ ∃ more, byte :: rest = (if matched = 0 then crlf else [10]) ++ more ∧
      Chunked framer.maximumHeadBytes more := by simp only [Completes,here]
  have decision : framer.verdict byte = .ofTerminator matched byte := by simp only [verdict,here]
  unfold Unfolds move
  rw [whole,decision]
  unfold Verdict.ofTerminator
  by_cases first : matched = 0
  · rw [if_pos first,if_pos first,if_pos first]
    by_cases expected : byte = 13
    · rw [if_neg (not_not.mpr expected)]
      change _ ↔ ∃ more, rest = [10] ++ more ∧ Chunked framer.maximumHeadBytes more
      simp [crlf,expected]
    · rw [if_pos expected]
      refine ⟨?_,False.elim⟩
      intro split
      obtain ⟨more,same,_⟩ := split
      exact expected (List.cons.inj same).1
  · rw [if_neg first,if_neg first,if_neg first]
    by_cases expected : byte = 10
    · rw [if_neg (not_not.mpr expected)]
      change _ ↔ Chunked framer.maximumHeadBytes ([] ++ rest)
      simp [expected]
    · rw [if_pos expected]
      refine ⟨?_,False.elim⟩
      intro split
      obtain ⟨more,same,_⟩ := split
      exact expected (List.cons.inj same).1

theorem taken_head (here : framer.state = .head) (byte : UInt8) (state : State) :
    (framer.taken byte state).head = framer.head ++ [byte] := by
  rw [taken,heard_head here]

theorem body_move (framer : Http1Framer) (byte : UInt8) (framing : BodyFraming) (rest : List UInt8) :
    Body framer.maximumHeadBytes framing rest ↔
      (framer.moveTo byte (.ofFraming (.ok framing))).Leaves (fun next => next.Completes rest) (rest = []) := by
  cases framing with
  | none => exact Iff.rfl
  | fixed length =>
      by_cases pending : length ≠ 0
      · simp only [Verdict.ofFraming,dif_pos pending]
        exact Iff.rfl
      · simp only [Verdict.ofFraming,dif_neg pending,Body]
        rw [not_not.mp pending]
        exact List.length_eq_zero_iff
  | chunked | closeDelimited => exact Iff.rfl

-- The move of a head, for any language whose words begin with one.
theorem leaves_head (here : framer.state = .head) (unended : Unended blankLine framer.head) (byte : UInt8)
    (rest : List UInt8) (language : List UInt8 → Prop) (after : BodyFraming → Prop) (later : Http1Framer → Prop)
    (accepted : Prop)
    (begins : ∀ whole, language whole → ∃ head body framing, whole = head ++ body ∧
      Head framer.role framer.maximumHeadBytes head framing)
    (ended : ∀ head, EndsFirst blankLine head → head.length ≤ framer.maximumHeadBytes →
      (language (head ++ rest) ↔ ∃ framing, parseHead head framer.role = .ok framing ∧ after framing))
    (body : ∀ framing, after framing ↔ (framer.moveTo byte (.ofFraming (.ok framing))).Leaves later accepted)
    (still : later (framer.taken byte .head) ↔ language ((framer.taken byte .head).head ++ rest)) :
    language (framer.head ++ byte :: rest) ↔ (framer.move byte).Leaves later accepted := by
  have decision : framer.verdict byte = .ofHead framer.role framer.maximumHeadBytes (framer.head ++ [byte]) := by
    simp only [verdict,here]
  have whole : framer.head ++ byte :: rest = (framer.head ++ [byte]) ++ rest := by simp
  unfold move
  rw [decision]
  unfold Verdict.ofHead
  by_cases large : (framer.head ++ [byte]).length > framer.maximumHeadBytes
  · rw [if_pos large]
    refine ⟨?_,False.elim⟩
    intro word
    obtain ⟨head,_,_,same,valid⟩ := begins _ word
    have longer := valid.ends.beyond unended same.symm
    have fits := valid.fits
    rw [List.length_append,List.length_singleton] at large
    omega
  · rw [if_neg large,ascii_blankLine,whole]
    by_cases now : blankLine.isSuffixOf (framer.head ++ [byte]) = true
    · have ends := unended.ends (List.isSuffixOf_iff_suffix.mp now)
      rw [if_pos now,ended _ ends (Nat.le_of_not_lt large)]
      cases read : parseHead (framer.head ++ [byte]) framer.role with
      | error =>
          simp only [reduceCtorEq,false_and,exists_false]
          exact Iff.rfl
      | ok framing =>
          simp only [Except.ok.injEq,exists_eq_left']
          exact body framing
    · rw [if_neg now,← taken_head here byte .head]
      exact still.symm

theorem unfolds_head (here : framer.state = .head) (unended : Unended blankLine framer.head) (byte : UInt8)
    (rest : List UInt8) : framer.Unfolds byte rest := by
  have whole : framer.Completes (byte :: rest) ↔
      Message framer.role framer.maximumHeadBytes (framer.head ++ byte :: rest) := by simp only [Completes,here]
  unfold Unfolds
  rw [whole]
  refine leaves_head here unended byte rest _ (fun framing => Body framer.maximumHeadBytes framing rest) _ _ ?_ ?_
    (fun framing => body_move framer byte framing rest) Iff.rfl
  · intro message word
    obtain ⟨head,body,framing,same,valid,_⟩ := word
    exact ⟨head,body,framing,same,valid⟩
  · intro head ends fits
    exact message_at ends fits rest

theorem unfolds_chunkSize (line : List UInt8) (here : framer.state = .chunkSize line) (unended : Unended crlf line)
    (byte : UInt8) (rest : List UInt8) : framer.Unfolds byte rest := by
  have decision : framer.verdict byte = .ofSizeLine framer.maximumHeadBytes (line ++ [byte]) := by
    simp only [verdict,here]
  have whole : framer.Completes (byte :: rest) ↔ Chunked framer.maximumHeadBytes ((line ++ [byte]) ++ rest) := by
    simp only [Completes,here,List.append_assoc,List.singleton_append]
  unfold Unfolds move
  rw [whole,decision]
  unfold Verdict.ofSizeLine
  by_cases large : (line ++ [byte]).length > framer.maximumHeadBytes
  · rw [if_pos large]
    refine ⟨?_,False.elim⟩
    intro chunked
    have first : ∃ start size later, SizeLine framer.maximumHeadBytes start size ∧ start ++ later = line ++ (byte :: rest) := by
      rw [List.append_assoc] at chunked
      generalize body : line ++ ([byte] ++ rest) = whole at chunked
      cases chunked with
      | last size _ _ | chunk size _ _ => exact ⟨_,_,_,size,body.symm⟩
    obtain ⟨start,size,later,valid,same⟩ := first
    have longer := valid.ends.beyond unended same
    have fits := valid.fits
    rw [List.length_append,List.length_singleton] at large
    omega
  · rw [if_neg large,ascii_crlf]
    by_cases ended : crlf.isSuffixOf (line ++ [byte]) = true
    · have ends := unended.ends (List.isSuffixOf_iff_suffix.mp ended)
      rw [if_pos ended,chunked_at ends (Nat.le_of_not_lt large)]
      cases read : parseChunkSize ((line ++ [byte]).take ((line ++ [byte]).length - 2)) with
      | error =>
          simp only [reduceCtorEq,false_and,exists_false]
          exact Iff.rfl
      | ok size =>
          simp only [Except.ok.injEq,exists_eq_left']
          unfold AfterSize Verdict.ofSize
          by_cases pending : size ≠ 0
          · simp only [pending,false_and,false_or,ne_eq,not_false_eq_true,true_and]
            exact Iff.rfl
          · have zero : size = 0 := not_not.mp pending
            simp only [zero,ne_eq,not_true_eq_false,dite_false,true_and,false_and,or_false]
            change _ ↔ Trailers ([] ++ rest) ∧ saturatingAdd 0 rest.length ≤ framer.maximumHeadBytes
            rw [List.nil_append,saturatingAdd,Nat.zero_add]
    · rw [if_neg ended]
      exact Iff.rfl

theorem unfolds_trailers (line : List UInt8) (observed : Nat) (here : framer.state = .trailers line observed)
    (unended : Unended crlf line) (byte : UInt8) (rest : List UInt8) : framer.Unfolds byte rest := by
  have decision : framer.verdict byte =
      .ofTrailer framer.maximumHeadBytes (line ++ [byte]) (saturatingAdd observed 1) := by simp only [verdict,here]
  have count : saturatingAdd observed (byte :: rest).length = saturatingAdd (saturatingAdd observed 1) rest.length := by
    rw [saturatingAdd_assoc,List.length_cons,Nat.add_comm rest.length]
  have whole : framer.Completes (byte :: rest) ↔ Trailers ((line ++ [byte]) ++ rest) ∧
      saturatingAdd (saturatingAdd observed 1) rest.length ≤ framer.maximumHeadBytes := by
    simp only [Completes,here,List.append_assoc,List.singleton_append,count]
  have grows : saturatingAdd observed 1 ≤ saturatingAdd (saturatingAdd observed 1) rest.length := by
    unfold saturatingAdd
    omega
  unfold Unfolds move
  rw [whole,decision]
  unfold Verdict.ofTrailer
  by_cases large : saturatingAdd observed 1 > framer.maximumHeadBytes
  · rw [if_pos large]
    refine ⟨?_,False.elim⟩
    intro trailers
    have short := trailers.2
    omega
  · rw [if_neg large,ascii_crlf]
    by_cases ended : crlf.isSuffixOf (line ++ [byte]) = true
    · have ends := unended.ends (List.isSuffixOf_iff_suffix.mp ended)
      rw [if_pos ended]
      obtain ⟨text,same⟩ := ends.ended
      rw [← same] at ends ⊢
      have cut : (text ++ crlf).take ((text ++ crlf).length - 2) = text := by simp [crlf]
      have blank : (text ++ crlf).length = 2 ↔ text = [] := by simp [crlf]
      rw [trailers_at ends,cut]
      by_cases empty : text = []
      · rw [if_pos (blank.mpr empty)]
        constructor
        · intro trailers
          rcases trailers.1 with ⟨_,done⟩ | ⟨some,_⟩
          · exact done
          · exact absurd empty some
        · intro done
          refine ⟨.inl ⟨empty,done⟩,?_⟩
          rw [done]
          unfold saturatingAdd at large ⊢
          simp only [List.length_nil]
          omega
      · rw [if_neg (fun two => empty (blank.mp two))]
        by_cases valid : validHeaderLine text = true
        · rw [if_pos valid]
          simp only [empty,false_and,ne_eq,not_false_eq_true,valid,true_and,false_or]
          exact Iff.rfl
        · rw [if_neg valid]
          simp only [empty,false_and,valid,Bool.false_eq_true,and_false,or_false]
          exact Iff.rfl
    · rw [if_neg ended]
      exact Iff.rfl

theorem unfolds_of_gathering (gathering : framer.Gathering) (byte : UInt8) (rest : List UInt8) :
    framer.Unfolds byte rest := by
  cases here : framer.state with
  | head => exact unfolds_head here (by simpa only [Gathering,State.Gathers,here] using gathering) byte rest
  | fixedBody remaining pending informational => exact unfolds_fixedBody remaining pending informational here byte rest
  | chunkSize line => exact unfolds_chunkSize line here (by simpa only [Gathering,State.Gathers,here] using gathering) byte rest
  | chunkData remaining pending => exact unfolds_chunkData remaining pending here byte rest
  | chunkDataTerminator matched => exact unfolds_terminator matched here byte rest
  | trailers line observed =>
      exact unfolds_trailers line observed here (by simpa only [Gathering,State.Gathers,here] using gathering) byte rest
  | closeDelimited | failed => simp [Unfolds,move,moveTo,Move.Leaves,Completes,verdict,here,taken]

theorem not_completes_nil (gathering : framer.Gathering) : ¬ framer.Completes [] := by
  intro completes
  cases here : framer.state with
  | head =>
      simp only [Gathering,State.Gathers,Completes,here,List.append_nil] at gathering completes
      obtain ⟨head,body,_,same,valid,_⟩ := completes
      exact gathering head ⟨body,same.symm⟩ valid.ends.ended
  | fixedBody remaining pending =>
      simp only [Completes,here] at completes
      exact pending completes.symm
  | chunkSize =>
      simp only [Gathering,State.Gathers,Completes,here,List.append_nil] at gathering completes
      cases completes with
      | last size _ _ | chunk size _ _ => exact gathering _ (List.prefix_append _ _) size.ends.ended
  | chunkData =>
      simp only [Completes,here] at completes
      obtain ⟨data,more,same,_⟩ := completes
      simp [crlf] at same
  | chunkDataTerminator =>
      simp only [Completes,here] at completes
      obtain ⟨more,same,_⟩ := completes
      split at same <;> simp [crlf] at same
  | trailers =>
      simp only [Gathering,State.Gathers,Completes,here,List.append_nil] at gathering completes
      cases completes.1 with
      | blank => exact gathering _ List.prefix_rfl List.suffix_rfl
      | field ends _ _ => exact gathering _ (List.prefix_append _ _) ends.ended
  | closeDelimited | failed => simp only [Completes,here] at completes

theorem verdict_gathers (gathering : framer.Gathering) (byte : UInt8) :
    (framer.verdict byte).Gathers (framer.heard byte).head := by
  unfold Gathering at gathering
  cases here : framer.state with
  | head =>
      rw [here] at gathering
      simp only [verdict,here,heard_head here]
      exact Verdict.ofHead_gathers _ _ byte gathering
  | fixedBody =>
      simp only [verdict,here]
      exact Verdict.counted_gathers _ _ _ (fun _ _ => trivial) trivial
  | chunkSize =>
      rw [here] at gathering
      simp only [verdict,here]
      exact Verdict.ofSizeLine_gathers _ byte gathering _
  | chunkData =>
      simp only [verdict,here]
      exact Verdict.counted_gathers _ _ _ (fun _ _ => trivial) trivial
  | chunkDataTerminator matched =>
      simp only [verdict,here]
      exact Verdict.ofTerminator_gathers matched byte _
  | trailers =>
      rw [here] at gathering
      simp only [verdict,here]
      exact Verdict.ofTrailer_gathers _ _ byte gathering _
  | closeDelimited | failed =>
      simp only [verdict,here]
      trivial

theorem move_gathering (framer : Http1Framer) (byte : UInt8) (next : Http1Framer) (gathering : framer.Gathering)
    (moved : framer.move byte = .more next) : next.Gathering := by
  have kept := verdict_gathers gathering byte
  unfold move at moved
  cases decision : framer.verdict byte with
  | more =>
      rw [decision] at moved kept
      cases moved
      exact kept
  | done | broken =>
      rw [decision] at moved
      cases moved

theorem accepts_completes (gathering : framer.Gathering) (input : List UInt8) :
    Accepts move framer input ↔ framer.Completes input :=
  accepts_iff move_gathering (fun _ gathering => not_completes_nil gathering)
    (fun _ byte rest gathering => unfolds_of_gathering gathering byte rest) framer input gathering

theorem not_accepts_failed (failed : framer.state = .failed) (input : List UInt8) : ¬ Accepts move framer input := by
  induction input generalizing framer with
  | nil => exact id
  | cons byte rest ih =>
      have moved : framer.move byte = .more (framer.taken byte .failed) := by simp only [move,verdict,failed,moveTo]
      rw [Accepts,moved]
      exact ih rfl

theorem steps_failed (failed : framer.state = .failed) (input : List UInt8) : framer.steps input = (framer,[]) := by
  rw [← push_steps,push_failed failed]

theorem steps_more {next : State} (alive : framer.state ≠ .failed) (decision : framer.verdict byte = .more next)
    (rest : List UInt8) : framer.steps (byte :: rest) =
      (((framer.taken byte next).steps rest).1,framer.started ++ ((framer.taken byte next).steps rest).2) := by
  simp only [steps,step,if_neg alive,decision,settle,List.append_nil]
  rfl

theorem steps_done (alive : framer.state ≠ .failed) (decision : framer.verdict byte = .done informational)
    (rest : List UInt8) :
    let heard := framer.heard byte
    framer.steps (byte :: rest) = ((heard.reset.steps rest).1,framer.started ++
      .complete framer.sequence ⟨heard.retained,heard.observed,heard.truncated,informational⟩ :: (heard.reset.steps rest).2) := by
  simp only [steps,step,if_neg alive,decision,settle,complete,List.append_assoc,List.singleton_append]
  rfl

theorem steps_broken (alive : framer.state ≠ .failed) (decision : framer.verdict byte = .broken error)
    (rest : List UInt8) :
    framer.steps (byte :: rest) =
      ({framer.heard byte with state := .failed},framer.started ++ [.failed framer.sequence error]) := by
  simp only [steps,step,if_neg alive,decision,settle,fail]
  rw [steps_failed rfl,List.append_nil]
  rfl

theorem steps_fresh (inactive : framer.active = false) (alive : framer.state ≠ .failed) (byte : UInt8)
    (rest : List UInt8) : (framer.steps (byte :: rest)).2 ≠ [] := by
  have announced : framer.started = [.started framer.sequence] := by simp only [started,inactive]; rfl
  simp only [steps,step,if_neg alive,announced]
  simp

theorem accepts_events (framer : Http1Framer) (input : List UInt8) :
    Accepts move framer input ↔
      ∃ message, (framer.steps input).2 = framer.started ++ [.complete framer.sequence message] := by
  induction input generalizing framer with
  | nil =>
      constructor
      · exact False.elim
      · intro said
        obtain ⟨message,events⟩ := said
        simp [steps] at events
  | cons byte rest ih =>
      by_cases failed : framer.state = .failed
      · rw [steps_failed failed]
        constructor
        · exact fun accepted => absurd accepted (not_accepts_failed failed _)
        · intro said
          obtain ⟨message,events⟩ := said
          simp at events
      · rw [Accepts]
        cases decision : framer.verdict byte with
        | more state =>
            have moved : framer.move byte = .more (framer.taken byte state) := by simp only [move,decision,moveTo]
            rw [moved,steps_more failed decision]
            simp only [List.append_cancel_left_eq]
            exact ih (framer.taken byte state)
        | done informational =>
            have moved : framer.move byte = .accept := by simp only [move,decision,moveTo]
            rw [moved,steps_done failed decision]
            simp only [List.append_cancel_left_eq,List.cons.injEq,FramerEvent.complete.injEq,true_and]
            constructor
            · intro done
              rw [show rest = [] from done]
              exact ⟨_,rfl,rfl⟩
            · intro said
              obtain ⟨_,_,silent⟩ := said
              cases rest with
              | nil => rfl
              | cons next later => exact absurd silent (steps_fresh rfl State.noConfusion next later)
        | broken =>
            have moved : framer.move byte = .reject := by simp only [move,decision,moveTo]
            rw [moved,steps_broken failed decision]
            constructor
            · exact False.elim
            · intro said
              obtain ⟨message,events⟩ := said
              simp at events

-- What leads a framer into a body that only the end of the stream ends.
def Closing (framer : Http1Framer) (rest : List UInt8) : Prop :=
  match framer.state with
  | .head => CloseDelimited framer.role framer.maximumHeadBytes (framer.head ++ rest)
  | .closeDelimited => True
  | _ => False

def UnfoldsClosing (framer : Http1Framer) (byte : UInt8) (rest : List UInt8) : Prop :=
  framer.Closing (byte :: rest) ↔ (framer.move byte).Leaves (fun next => next.Closing rest) False

theorem closing_head (here : framer.state = .head) (unended : Unended blankLine framer.head) (byte : UInt8)
    (rest : List UInt8) : framer.UnfoldsClosing byte rest := by
  have whole : framer.Closing (byte :: rest) ↔
      CloseDelimited framer.role framer.maximumHeadBytes (framer.head ++ byte :: rest) := by simp only [Closing,here]
  unfold UnfoldsClosing
  rw [whole]
  refine leaves_head here unended byte rest _ (fun framing => framing = .closeDelimited) _ _ ?_ ?_ ?_ Iff.rfl
  · intro message word
    obtain ⟨head,body,same,valid⟩ := word
    exact ⟨head,body,_,same,valid⟩
  · intro head ends fits
    rw [closeDelimited_at ends fits]
    exact ⟨fun read => ⟨_,read,rfl⟩,fun ⟨_,read,same⟩ => same ▸ read⟩
  · intro framing
    cases framing with
    | fixed length =>
        simp only [Verdict.ofFraming,reduceCtorEq,false_iff]
        by_cases pending : length ≠ 0
        · rw [dif_pos pending]
          exact id
        · rw [dif_neg pending]
          exact id
    | closeDelimited => exact ⟨fun _ => trivial,fun _ => rfl⟩
    | none | chunked =>
        simp only [reduceCtorEq]
        exact Iff.rfl

-- A body is never followed by a head or an open end within one message.
def Inner : Verdict → Prop
  | .more next => next ≠ .head ∧ next ≠ .closeDelimited
  | _ => True

theorem inner_counted (remaining : Nat) (waiting : (left : Nat) → left ≠ 0 → State) (finished : Verdict)
    (waits : ∀ left more, waiting left more ≠ .head ∧ waiting left more ≠ .closeDelimited) (finishes : Inner finished) :
    Inner (.counted remaining waiting finished) := by
  unfold Verdict.counted
  split
  · exact waits _ _
  · exact finishes

theorem inner_verdict (body : framer.state ≠ .head ∧ framer.state ≠ .closeDelimited) (byte : UInt8) :
    Inner (framer.verdict byte) := by
  unfold verdict
  cases here : framer.state with
  | head => exact absurd here body.1
  | closeDelimited => exact absurd here body.2
  | failed => exact ⟨State.noConfusion,State.noConfusion⟩
  | fixedBody =>
      exact inner_counted _ _ _ (fun _ _ => ⟨State.noConfusion,State.noConfusion⟩) trivial
  | chunkData =>
      exact inner_counted _ _ _ (fun _ _ => ⟨State.noConfusion,State.noConfusion⟩) ⟨State.noConfusion,State.noConfusion⟩
  | chunkSize line =>
      simp only [Verdict.ofSizeLine]
      split
      · trivial
      · split
        · cases parseChunkSize ((line ++ [byte]).take ((line ++ [byte]).length - 2)) with
          | error => trivial
          | ok =>
              simp only [Verdict.ofSize]
              split <;> exact ⟨State.noConfusion,State.noConfusion⟩
        · exact ⟨State.noConfusion,State.noConfusion⟩
  | chunkDataTerminator matched =>
      by_cases wrong : byte ≠ (if matched = 0 then 13 else 10)
      · simp only [Verdict.ofTerminator,if_pos wrong]
        trivial
      · simp only [Verdict.ofTerminator,if_neg wrong]
        split <;> exact ⟨State.noConfusion,State.noConfusion⟩
  | trailers =>
      simp only [Verdict.ofTrailer]
      split
      · trivial
      · split
        · split
          · trivial
          · split
            · exact ⟨State.noConfusion,State.noConfusion⟩
            · trivial
        · exact ⟨State.noConfusion,State.noConfusion⟩

theorem not_closing (body : framer.state ≠ .head ∧ framer.state ≠ .closeDelimited) (rest : List UInt8) :
    ¬ framer.Closing rest := by
  unfold Closing
  cases here : framer.state with
  | head => exact absurd here body.1
  | closeDelimited => exact absurd here body.2
  | _ => exact id

theorem closing_of_gathering (gathering : framer.Gathering) (byte : UInt8) (rest : List UInt8) :
    framer.UnfoldsClosing byte rest := by
  by_cases start : framer.state = .head
  · exact closing_head start (by simpa only [Gathering,State.Gathers,start] using gathering) byte rest
  · by_cases tail : framer.state = .closeDelimited
    · simp only [UnfoldsClosing,Closing,move,verdict,tail,moveTo]
      exact Iff.rfl
    · have inner := inner_verdict ⟨start,tail⟩ byte
      have none := not_closing ⟨start,tail⟩ (byte :: rest)
      unfold UnfoldsClosing move
      refine ⟨fun closing => absurd closing none,?_⟩
      intro left
      cases decision : framer.verdict byte with
      | more next =>
          rw [decision] at left inner
          have wrong : ¬ (framer.taken byte next).Closing rest := by
            apply not_closing
            exact inner
          exact absurd left wrong
      | done | broken =>
          rw [decision] at left
          exact left.elim

theorem closing_nil (gathering : framer.Gathering) : framer.Closing [] ↔ framer.state = .closeDelimited := by
  by_cases start : framer.state = .head
  · simp only [Gathering,State.Gathers,Closing,start,List.append_nil] at gathering ⊢
    refine ⟨?_,fun no => by cases no⟩
    intro closing
    obtain ⟨head,body,same,valid⟩ := closing
    exact absurd valid.ends.ended (gathering head ⟨body,same.symm⟩)
  · by_cases tail : framer.state = .closeDelimited
    · simp only [Closing,tail]
    · exact ⟨fun closing => absurd closing (not_closing ⟨start,tail⟩ []),fun here => absurd here tail⟩

theorem leads_closing (gathering : framer.Gathering) (input : List UInt8) :
    Leads move (fun framer => framer.state = .closeDelimited) framer input ↔ framer.Closing input :=
  leads_iff _ move_gathering (fun _ gathering => closing_nil gathering)
    (fun _ byte rest gathering => closing_of_gathering gathering byte rest) framer input gathering

theorem leads_events (framer : Http1Framer) (input : List UInt8) :
    Leads move (fun framer => framer.state = .closeDelimited) framer input ↔
      (framer.steps input).1.state = .closeDelimited ∧ completed (framer.steps input).2 = [] := by
  induction input generalizing framer with
  | nil => exact ⟨fun here => ⟨here,rfl⟩,fun here => here.1⟩
  | cons byte rest ih =>
      rw [Leads]
      by_cases failed : framer.state = .failed
      · have moved : framer.move byte = .more (framer.taken byte .failed) := by simp only [move,verdict,failed,moveTo]
        rw [moved,steps_failed failed]
        have later := ih (framer.taken byte .failed)
        rw [steps_failed rfl] at later
        refine later.trans ⟨fun here => ?_,fun here => ?_⟩
        · cases here.1
        · rw [failed] at here
          cases here.1
      · cases decision : framer.verdict byte with
        | more next =>
            have moved : framer.move byte = .more (framer.taken byte next) := by simp only [move,decision,moveTo]
            rw [moved,steps_more failed decision,completed_append,completed_started,List.nil_append]
            exact ih (framer.taken byte next)
        | done =>
            have moved : framer.move byte = .accept := by simp only [move,decision,moveTo]
            rw [moved,steps_done failed decision,completed_append]
            refine ⟨False.elim,?_⟩
            intro here
            simp [completed,FramerEvent.message?] at here
        | broken =>
            have moved : framer.move byte = .reject := by simp only [move,decision,moveTo]
            rw [moved,steps_broken failed decision]
            refine ⟨False.elim,?_⟩
            intro here
            cases here.1

theorem eof_complete (framer : Http1Framer) :
    (∃ sequence message, framer.eof.2 = [.complete sequence message]) ↔ framer.state = .closeDelimited := by
  unfold eof
  cases here : framer.state with
  | head =>
      dsimp only
      split <;> simp [fail]
  | closeDelimited => exact ⟨fun _ => rfl,fun _ => ⟨_,_,rfl⟩⟩
  | fixedBody | chunkSize | chunkData | chunkDataTerminator | trailers | failed => simp [fail]

-- A framer between two messages.
structure Fresh (framer : Http1Framer) : Prop where
  start : framer.state = .head
  inactive : framer.active = false
  empty : framer.head = []

theorem Fresh.gathering (fresh : Fresh framer) : framer.Gathering := by
  unfold Gathering
  rw [fresh.start,fresh.empty]
  exact unended_nil blankLine_present

theorem accepts_fresh (accepted : Accepts move framer input) : Fresh (framer.steps input).1 := by
  induction input generalizing framer with
  | nil => exact accepted.elim
  | cons byte rest ih =>
      by_cases failed : framer.state = .failed
      · exact absurd accepted (not_accepts_failed failed _)
      · rw [Accepts] at accepted
        cases decision : framer.verdict byte with
        | more =>
            simp only [move,decision,moveTo] at accepted
            rw [steps_more failed decision]
            exact ih accepted
        | done =>
            simp only [move,decision,moveTo] at accepted
            rw [steps_done failed decision,show rest = [] from accepted]
            exact ⟨rfl,rfl,rfl⟩
        | broken =>
            simp only [move,decision,moveTo] at accepted
            exact accepted.elim

theorem recognizes_grammar (framer : Http1Framer) (fresh : Fresh framer) (message suffix : List UInt8) :
    let pushed := framer.push message
    let emitted := ∃ wire, pushed.2 = [.started framer.sequence,.complete framer.sequence wire]
    (emitted ↔ Message framer.role framer.maximumHeadBytes message) ∧
    (emitted → Fresh pushed.1) ∧
    (framer.push (message ++ suffix)).2 = pushed.2 ++ (pushed.1.push suffix).2 ∧
    (CloseDelimited framer.role framer.maximumHeadBytes message ↔
      completed pushed.2 = [] ∧ ∃ sequence wire, pushed.1.eof.2 = [.complete sequence wire]) := by
  intro pushed emitted
  have run : pushed = framer.steps message := push_steps framer message
  have announced : framer.started = [.started framer.sequence] := by
    simp only [started,fresh.inactive]
    rfl
  have accepted : emitted ↔ Accepts move framer message := by
    rw [accepts_events,announced,← run]
    exact Iff.rfl
  refine ⟨?_,?_,?_,?_⟩
  · rw [accepted,accepts_completes fresh.gathering]
    simp only [Completes,fresh.start,fresh.empty,List.nil_append]
  · intro done
    rw [run]
    exact accepts_fresh (accepted.mp done)
  · exact congrArg Prod.snd (push_bytewise.append framer message suffix)
  · have closing : framer.Closing message ↔ CloseDelimited framer.role framer.maximumHeadBytes message := by
      simp only [Closing,fresh.start,fresh.empty,List.nil_append]
    rw [← closing,← leads_closing fresh.gathering,leads_events,eof_complete,← run]
    exact and_comm

-- A chunked request of one chunk with an extension, and a trailer.
theorem recognizes_grammar_chunked :
    let framer := new .request 40 64
    let message := ascii "P\r\nTransfer-Encoding: chunked\r\n\r\n" ++ ascii "2;x\r\nok\r\n0\r\nA: b\r\n\r\n"
    Fresh framer ∧ (∃ wire, (framer.push message).2 = [.started 0,.complete 0 wire]) ∧
      Message .request 40 message := by
  intro framer message
  have fresh : Fresh framer := ⟨rfl,rfl,rfl⟩
  have emitted : ∃ wire, (framer.push message).2 = [.started 0,.complete 0 wire] := by
    rw [push_steps]
    exact ⟨⟨message,53,false,false⟩,by decide +kernel⟩
  exact ⟨fresh,emitted,(recognizes_grammar framer fresh message []).1.mp emitted⟩

end Http1Framer

end Freja.Framing
