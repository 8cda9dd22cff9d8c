import Freja.Foundation.Buffered
import Freja.Foundation.TextLines
import Freja.Replay.Audit

namespace Freja.Replay
open Bytes TextLines

-- The bytes of a line without its newline and one carriage return before it.
def popLineEnding (bytes : List UInt8) : List UInt8 :=
  if bytes.getLast? = some 10 then chomp 13 bytes.dropLast else bytes

def readBufferedReplayLine (maximumBytes : Nat) (reader : Buffered UInt8) :
    Except ReplayError (Option (List UInt8 × Buffered UInt8)) :=
  let maximumWithLineEnding := saturatingAdd maximumBytes 2
  let limited := reader.readUntil 10 maximumWithLineEnding
  if limited.1.length = 0 then .ok none
  else
    let bytes := popLineEnding limited.1
    if bytes.length > maximumBytes then .error (.lineTooLong maximumBytes)
    else if !bytes.toByteArray.validateUTF8 then .error .notUtf8
    else .ok (some (bytes,limited.2))

theorem popLineEnding_line (content : List UInt8) : popLineEnding (content ++ [10]) = chomp 13 content := by
  unfold popLineEnding
  rw [List.getLast?_concat,if_pos rfl,List.dropLast_concat]

theorem popLineEnding_free {content : List UInt8} (free : 10 ∉ content) : popLineEnding content = content := by
  unfold popLineEnding
  exact if_neg (fun ends => free (List.mem_of_getLast? ends))

theorem readUntilNewline_through (maximumBytes : Nat) (input : List UInt8) :
    readUntilNewline maximumBytes input =
      (popLineEnding (Buffered.through 10 (input.take (saturatingAdd maximumBytes 2))),
        (Buffered.through 10 (input.take (saturatingAdd maximumBytes 2))).length) := by
  unfold readUntilNewline
  by_cases found : 10 ∈ input.take (saturatingAdd maximumBytes 2)
  · obtain ⟨first,rest,same,free,before⟩ := Buffered.split_found found
    dsimp only
    rw [before,same,Buffered.through_found free,popLineEnding_line,if_pos (by simp)]
    simp [chomp]
  · dsimp only
    rw [Buffered.takeWhile_free found,Buffered.through_free found,popLineEnding_free found,
      if_neg (Nat.lt_irrefl _)]

theorem readBufferedReplayLine_contents (maximumBytes : Nat) (reader : Buffered UInt8) :
    (readBufferedReplayLine maximumBytes reader).map (Option.map (Prod.map id Buffered.contents)) =
      readBoundedReplayLine maximumBytes reader.contents := by
  unfold readBufferedReplayLine readBoundedReplayLine
  rw [readUntilNewline_through]
  dsimp only
  rw [← Buffered.readUntil_read]
  split
  · rfl
  · split
    · rfl
    · split
      · rfl
      · change Except.ok (some (_,_)) = _
        rw [Buffered.readUntil_left]
        rfl

theorem readBufferedReplayLine_some {maximumBytes : Nat} {reader rest : Buffered UInt8} {line : List UInt8}
    (read : readBufferedReplayLine maximumBytes reader = .ok (some (line,rest))) :
    readBoundedReplayLine maximumBytes reader.contents = .ok (some (line,rest.contents)) := by
  rw [← readBufferedReplayLine_contents,read]
  rfl

-- Lines are asked for until there is none left or one is refused.
def readReplayLines (maximumBytes : Nat) (reader : Buffered UInt8) : List (List UInt8) × Option ReplayError :=
  match _read : readBufferedReplayLine maximumBytes reader with
  | .error error => ([],some error)
  | .ok none => ([],none)
  | .ok (some (line,rest)) =>
      let later := readReplayLines maximumBytes rest
      (line :: later.1,later.2)
termination_by reader.contents.length
decreasing_by exact readBoundedReplayLine_shorter _ _ _ _ (readBufferedReplayLine_some _read)

-- The limit or the input is small enough for the two bytes of a line ending to be
-- added to the limit. No longer line fits the memory it is read into.
def FullyCounted (maximumBytes : Nat) (input : List UInt8) : Prop :=
  maximumBytes + 2 ≤ u64Max ∨ input.length ≤ u64Max

theorem readBounded_empty (maximumBytes : Nat) : readBoundedReplayLine maximumBytes [] = .ok none := by
  unfold readBoundedReplayLine
  rw [readUntilNewline_through]
  simp [Buffered.through]

theorem readBounded_of_through (maximumBytes : Nat) (input bytes : List UInt8) (some : bytes ≠ [])
    (read : Buffered.through 10 (input.take (saturatingAdd maximumBytes 2)) = bytes)
    (valid : (popLineEnding bytes).toByteArray.validateUTF8 = true) :
    readBoundedReplayLine maximumBytes input =
      if (popLineEnding bytes).length > maximumBytes then .error (.lineTooLong maximumBytes)
      else .ok (Option.some (popLineEnding bytes,input.drop bytes.length)) := by
  have counted : bytes.length ≠ 0 := fun none => some (List.length_eq_zero_iff.mp none)
  unfold readBoundedReplayLine
  rw [readUntilNewline_through,read]
  dsimp only
  rw [if_neg counted,valid]
  rfl

theorem readBounded_long {maximumBytes : Nat} {input : List UInt8} (fits : maximumBytes + 2 ≤ u64Max)
    (long : maximumBytes + 2 ≤ input.length) (free : 10 ∉ input.take (maximumBytes + 2)) :
    readBoundedReplayLine maximumBytes input = .error (.lineTooLong maximumBytes) := by
  have size : (input.take (maximumBytes + 2)).length = maximumBytes + 2 := by
    rw [List.length_take,Nat.min_eq_left long]
  unfold readBoundedReplayLine
  rw [readUntilNewline_through,saturatingAdd_exact fits,Buffered.through_free free,popLineEnding_free free]
  dsimp only
  rw [size,if_neg (Nat.succ_ne_zero _),if_pos (by omega)]

theorem readBounded_line {maximumBytes : Nat} {content rest : List UInt8} (free : 10 ∉ content)
    (valid : (chomp 13 content).toByteArray.validateUTF8 = true)
    (counted : FullyCounted maximumBytes (content ++ 10 :: rest)) :
    readBoundedReplayLine maximumBytes (content ++ 10 :: rest) =
      if (chomp 13 content).length > maximumBytes then .error (.lineTooLong maximumBytes)
      else .ok (some (chomp 13 content,rest)) := by
  by_cases reached : content.length < saturatingAdd maximumBytes 2
  · obtain ⟨more,room⟩ := Nat.exists_eq_add_of_lt reached
    have limited : (content ++ 10 :: rest).take (saturatingAdd maximumBytes 2) = content ++ 10 :: rest.take more := by
      rw [room,Nat.add_assoc,List.take_append,List.take_of_length_le (by omega),Nat.add_sub_cancel_left,
        List.take_succ_cons]
    have read := readBounded_of_through maximumBytes (content ++ 10 :: rest) (content ++ [10]) (by simp)
      (by rw [limited,Buffered.through_found free]) (by rw [popLineEnding_line]; exact valid)
    rw [read,popLineEnding_line]
    simp
  · -- The newline is out of reach, so the line is longer than the limit.
    have fits : maximumBytes + 2 ≤ u64Max := by
      rcases counted with small | short
      · exact small
      · unfold saturatingAdd at reached
        rw [List.length_append,List.length_cons] at short
        omega
    rw [saturatingAdd_exact fits] at reached
    have cut : (content ++ 10 :: rest).take (maximumBytes + 2) = content.take (maximumBytes + 2) :=
      List.take_append_of_le_length (by omega)
    have beyond := chomp_length (13 : UInt8) content
    rw [if_pos (by omega)]
    apply readBounded_long fits
    · rw [List.length_append]
      omega
    · rw [cut]
      exact fun member => free (List.mem_of_mem_take member)

theorem readBounded_last {maximumBytes : Nat} {content : List UInt8} (some : content ≠ []) (free : 10 ∉ content)
    (valid : content.toByteArray.validateUTF8 = true) (counted : FullyCounted maximumBytes content) :
    readBoundedReplayLine maximumBytes content =
      if content.length > maximumBytes then .error (.lineTooLong maximumBytes)
      else .ok (Option.some (content,[])) := by
  by_cases reached : content.length ≤ saturatingAdd maximumBytes 2
  · have read := readBounded_of_through maximumBytes content content some
      (by rw [List.take_of_length_le reached,Buffered.through_free free])
      (by rw [popLineEnding_free free]; exact valid)
    rw [read,popLineEnding_free free,List.drop_length]
  · have fits : maximumBytes + 2 ≤ u64Max := by
      rcases counted with small | short
      · exact small
      · unfold saturatingAdd at reached
        omega
    rw [saturatingAdd_exact fits] at reached
    rw [if_pos (by omega)]
    exact readBounded_long fits (by omega) (fun member => free (List.mem_of_mem_take member))

theorem readReplayLines_none {maximumBytes : Nat} {reader : Buffered UInt8}
    (read : readBoundedReplayLine maximumBytes reader.contents = .ok none) :
    readReplayLines maximumBytes reader = ([],none) := by
  rw [← readBufferedReplayLine_contents] at read
  unfold readReplayLines
  split
  · rename_i failed
    rw [failed] at read
    cases read
  · rfl
  · rename_i found
    rw [found] at read
    cases read

theorem readReplayLines_error {maximumBytes : Nat} {reader : Buffered UInt8}
    (read : readBoundedReplayLine maximumBytes reader.contents = .error error) :
    readReplayLines maximumBytes reader = ([],some error) := by
  rw [← readBufferedReplayLine_contents] at read
  unfold readReplayLines
  split
  · rename_i failed
    rw [failed] at read
    cases read
    rfl
  · rename_i ended
    rw [ended] at read
    cases read
  · rename_i found
    rw [found] at read
    cases read

theorem readReplayLines_some {maximumBytes : Nat} {reader : Buffered UInt8} {line left : List UInt8}
    (read : readBoundedReplayLine maximumBytes reader.contents = .ok (some (line,left))) :
    ∃ rest : Buffered UInt8, rest.contents = left ∧
      readReplayLines maximumBytes reader =
        (line :: (readReplayLines maximumBytes rest).1,(readReplayLines maximumBytes rest).2) := by
  rw [← readBufferedReplayLine_contents] at read
  rw [readReplayLines.eq_def maximumBytes reader]
  split
  · rename_i failed
    rw [failed] at read
    cases read
  · rename_i ended
    rw [ended] at read
    cases read
  · rename_i found
    rw [found] at read
    cases read
    exact ⟨_,rfl,rfl⟩

-- What the calls return for given lines: those up to the first that is too long, and
-- the error for that one.
def yielded (maximumBytes : Nat) (contents : List (List UInt8)) : List (List UInt8) × Option ReplayError :=
  (contents.takeWhile (·.length ≤ maximumBytes),
    if ∀ line ∈ contents, line.length ≤ maximumBytes then none else some (.lineTooLong maximumBytes))

theorem yielded_short {line : List UInt8} (short : line.length ≤ maximumBytes) (others : List (List UInt8)) :
    yielded maximumBytes (line :: others) = (line :: (yielded maximumBytes others).1,(yielded maximumBytes others).2) := by
  simp [yielded,short]

theorem yielded_long {line : List UInt8} (long : line.length > maximumBytes) (others : List (List UInt8)) :
    yielded maximumBytes (line :: others) = ([],some (.lineTooLong maximumBytes)) := by
  have past : ¬ line.length ≤ maximumBytes := Nat.not_le.mpr long
  simp [yielded,past]

-- One call deals with one line; the calls on the rest deal with the other lines.
theorem readReplayLines_step {maximumBytes : Nat} {reader : Buffered UInt8} {line : List UInt8} (left : List UInt8)
    (read : readBoundedReplayLine maximumBytes reader.contents =
      if line.length > maximumBytes then .error (.lineTooLong maximumBytes) else .ok (some (line,left)))
    (later : ∀ rest : Buffered UInt8, rest.contents = left →
      readReplayLines maximumBytes rest = yielded maximumBytes others) :
    readReplayLines maximumBytes reader = yielded maximumBytes (line :: others) := by
  by_cases long : line.length > maximumBytes
  · rw [if_pos long] at read
    rw [readReplayLines_error read,yielded_long long]
  · rw [if_neg long] at read
    obtain ⟨rest,same,reading⟩ := readReplayLines_some read
    rw [reading,later rest same,yielded_short (Nat.le_of_not_lt long)]

theorem FullyCounted.rest {content others : List UInt8} (counted : FullyCounted maximumBytes (content ++ 10 :: others)) :
    FullyCounted maximumBytes others := by
  rcases counted with small | short
  · exact .inl small
  · rw [List.length_append,List.length_cons] at short
    exact .inr (by omega)

theorem readReplayLines_text (maximumBytes : Nat) (text : List Char) (reader : Buffered UInt8)
    (holds : reader.contents = encode text) (counted : FullyCounted maximumBytes (encode text)) :
    readReplayLines maximumBytes reader = yielded maximumBytes ((textLines text).map encode) := by
  -- The induction is on the length of the text: a line that a newline ends leaves a
  -- shorter text behind it.
  induction size : text.length using Nat.strongRecOn generalizing text reader with
  | ind length ih =>
      by_cases broken : '\n' ∈ text
      · obtain ⟨first,rest,rfl,free⟩ := List.eq_append_cons_of_mem broken
        have bytes : encode (first ++ '\n' :: rest) = encode first ++ 10 :: encode rest := by
          rw [encode_append,encode_cons]
          rfl
        have valid : (chomp 13 (encode first)).toByteArray.validateUTF8 = true := by
          rw [← encode_chomp]
          exact encode_valid _
        rw [bytes] at holds counted
        rw [textLines_line free,List.map_cons]
        apply readReplayLines_step (encode rest)
        · rw [holds,encode_chomp]
          exact readBounded_line (encode_free free) valid counted
        · intro after same
          refine ih rest.length ?_ rest after same counted.rest rfl
          rw [← size,List.length_append,List.length_cons]
          omega
      · by_cases none : text = []
        · subst none
          rw [textLines_nil]
          refine readReplayLines_none ?_
          rw [holds]
          exact readBounded_empty maximumBytes
        · rw [textLines_last none broken]
          have some : encode text ≠ [] := by
            obtain ⟨character,more,rfl⟩ := List.exists_cons_of_ne_nil none
            rw [encode_cons]
            apply List.append_ne_nil_of_left_ne_nil
            apply List.ne_nil_of_length_pos
            rw [String.length_utf8EncodeChar]
            exact character.utf8Size_pos
          apply readReplayLines_step []
          · rw [holds]
            exact readBounded_last some (encode_free broken) (encode_valid text) counted
          · intro after ended
            refine readReplayLines_none ?_
            rw [ended]
            exact readBounded_empty maximumBytes

-- The calls return the lines of a text, in their order and whole, up to the first that is
-- longer than the limit, however the text is cut into buffers.
theorem replay_reader_yields_lines (maximumBytes : Nat) (text : String) (reader : Buffered UInt8)
    (holds : reader.contents = utf8 text)
    (counted : maximumBytes + 2 ≤ u64Max ∨ (utf8 text).length ≤ u64Max) :
    readReplayLines maximumBytes reader =
      (((lines text).map utf8).takeWhile (·.length ≤ maximumBytes),
        if ∀ line ∈ lines text, (utf8 line).length ≤ maximumBytes then none
        else some (.lineTooLong maximumBytes)) := by
  have bytes : (lines text).map utf8 = (textLines text.toList).map encode := by
    rw [lines,List.map_map]
    exact List.map_congr_left (fun line _ => utf8_ofList line)
  have all : (∀ line ∈ lines text, (utf8 line).length ≤ maximumBytes) ↔
      ∀ line ∈ (textLines text.toList).map encode, line.length ≤ maximumBytes := by
    rw [← bytes]
    simp
  rw [readReplayLines_text maximumBytes text.toList reader holds counted,bytes]
  simp only [all]
  rfl

def cutInput : Buffered UInt8 := ⟨[[97,13],[10,98,13,99],[10,10,100]],by decide⟩

theorem cut_input_lines :
    cutInput.contents = utf8 "a\r\nb\rc\n\nd" ∧ readReplayLines 2 cutInput = ([[97]],some (.lineTooLong 2)) := by
  have holds : cutInput.contents = utf8 "a\r\nb\rc\n\nd" := by decide
  refine ⟨holds,?_⟩
  rw [replay_reader_yields_lines 2 "a\r\nb\rc\n\nd" cutInput holds (.inl (by decide))]
  decide

end Freja.Replay
