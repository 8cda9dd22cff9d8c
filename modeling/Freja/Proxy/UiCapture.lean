import Freja.Foundation.Bytes
import Mathlib.Data.List.Infix

namespace Freja.Proxy
open Bytes

-- What an inspector counts of one direction for the observers.
structure UiCounters where
  observed : Nat
  retained : Nat
  reported : Bool
  deriving DecidableEq, Repr

def UiCounters.new : UiCounters := ⟨0,0,false⟩

structure BodyPrefix where
  bytes : List UInt8
  offset : Nat
  observedBytes : Nat
  truncated : Bool
  deriving DecidableEq, Repr

-- The settings give the bytes that an observer retains of a direction.
def publishUiPrefix (settings : Option Nat) (counters : UiCounters) (bytes : List UInt8) :
    UiCounters × Option BodyPrefix :=
  let offset := counters.observed
  let observed := saturatingAdd offset bytes.length
  match settings with
  | none => ({counters with observed := observed},none)
  | some contentBytes =>
      let retained := min (contentBytes - counters.retained) bytes.length
      let truncated := decide (retained < bytes.length)
      let counted := {counters with observed := observed,retained := counters.retained + retained}
      if retained = 0 ∧ (truncated = false ∨ counters.reported = true) then (counted,none)
      else ({counted with reported := counters.reported || truncated},
        some ⟨bytes.take retained,offset,observed,truncated⟩)

-- The events for the chunks that an inspector is given one after the other.
def published (settings : Option Nat) (counters : UiCounters) : List (List UInt8) → List BodyPrefix
  | [] => []
  | chunk :: rest =>
      let step := publishUiPrefix settings counters chunk
      step.2.toList ++ published settings step.1 rest

-- What the counters are after a stream, however it was cut.
def UiCounters.after (contentBytes : Nat) (stream : List UInt8) : UiCounters :=
  ⟨min stream.length u64Max,min contentBytes stream.length,decide (contentBytes < stream.length)⟩

-- The event for a chunk that follows a stream.
def chunkEvent (contentBytes : Nat) (stream chunk : List UInt8) : Option BodyPrefix :=
  if chunk = [] ∨ contentBytes < stream.length then none
  else some ⟨chunk.take (contentBytes - stream.length),min stream.length u64Max,
    min (stream ++ chunk).length u64Max,decide (contentBytes < (stream ++ chunk).length)⟩

variable (contentBytes : Nat) (stream : List UInt8)

theorem UiCounters.after_nothing : UiCounters.after contentBytes [] = .new := by
  simp [UiCounters.new,UiCounters.after]

theorem publishUiPrefix_after (chunk : List UInt8) :
    publishUiPrefix (some contentBytes) (.after contentBytes stream) chunk =
      (.after contentBytes (stream ++ chunk),chunkEvent contentBytes stream chunk) := by
  have observed : saturatingAdd (min stream.length u64Max) chunk.length = min (stream ++ chunk).length u64Max := by
    unfold saturatingAdd
    rw [List.length_append]
    omega
  have retained : min contentBytes stream.length +
      min (contentBytes - min contentBytes stream.length) chunk.length =
      min contentBytes (stream ++ chunk).length := by
    rw [List.length_append]
    omega
  unfold publishUiPrefix UiCounters.after chunkEvent
  dsimp only
  rw [observed,retained]
  rw [List.length_append] at retained ⊢
  by_cases quiet : chunk = [] ∨ contentBytes < stream.length
  · rw [if_pos quiet,if_pos]
    · congr 2
      rcases quiet with rfl | past
      · rfl
      · simp only [decide_eq_decide]
        omega
    · rcases quiet with rfl | past
      · simp
      · refine ⟨by omega,.inr ?_⟩
        simpa using past
  · have some : chunk ≠ [] := fun none => quiet (.inl none)
    have within : stream.length ≤ contentBytes := Nat.le_of_not_lt (fun past => quiet (.inr past))
    have positive := List.length_pos_iff.mpr some
    have part : min (contentBytes - min contentBytes stream.length) chunk.length =
        min (contentBytes - stream.length) chunk.length := by omega
    have taken : chunk.take (min (contentBytes - stream.length) chunk.length) =
        chunk.take (contentBytes - stream.length) := by
      rw [← List.take_take,List.take_length]
    have cut : decide (min (contentBytes - stream.length) chunk.length < chunk.length) =
        decide (contentBytes < stream.length + chunk.length) := by
      rw [decide_eq_decide]
      omega
    have unreported : decide (contentBytes < stream.length) = false := decide_eq_false (by omega)
    rw [if_neg quiet,part,taken,cut,unreported,if_neg]
    · rfl
    · rintro ⟨nothing,whole | reported⟩
      · have short : ¬ contentBytes < stream.length + chunk.length := of_decide_eq_false whole
        omega
      · cases reported

theorem published_cons (chunk : List UInt8) (rest : List (List UInt8)) :
    published (some contentBytes) (.after contentBytes stream) (chunk :: rest) =
      (chunkEvent contentBytes stream chunk).toList ++
        published (some contentBytes) (.after contentBytes (stream ++ chunk)) rest := by
  rw [published,publishUiPrefix_after]

theorem published_append (early late : List (List UInt8)) :
    published (some contentBytes) (.after contentBytes stream) (early ++ late) =
      published (some contentBytes) (.after contentBytes stream) early ++
        published (some contentBytes) (.after contentBytes (stream ++ early.flatten)) late := by
  induction early generalizing stream with
  | nil => simp [published]
  | cons chunk rest ih =>
      rw [List.cons_append,published_cons,published_cons,ih,List.append_assoc,List.flatten_cons,List.append_assoc]

theorem published_past {contentBytes : Nat} {stream : List UInt8} (past : contentBytes < stream.length)
    (chunks : List (List UInt8)) : published (some contentBytes) (.after contentBytes stream) chunks = [] := by
  induction chunks generalizing stream with
  | nil => rfl
  | cons chunk rest ih =>
      have later : contentBytes < (stream ++ chunk).length := by
        rw [List.length_append]
        omega
      have quiet : chunkEvent contentBytes stream chunk = none := if_pos (.inr past)
      rw [published_cons,quiet,ih later]
      rfl

-- An event carries bytes of the stream from its offset on.
structure Places (stream : List UInt8) (least : Nat) (event : BodyPrefix) : Prop where
  least : least ≤ event.offset
  piece : event.bytes <+: stream.drop event.offset

theorem chunkEvent_places {contentBytes : Nat} (bounded : contentBytes ≤ u64Max) {stream chunk : List UInt8}
    (told : chunkEvent contentBytes stream chunk = some event) (rest : List UInt8) :
    event.offset = stream.length ∧ event.bytes <+: chunk ∧
      Places (stream ++ chunk ++ rest) stream.length event := by
  unfold chunkEvent at told
  split at told
  · cases told
  · rename_i loud
    cases told
    have within : stream.length ≤ contentBytes := Nat.le_of_not_lt (fun past => loud (.inr past))
    have offset : min stream.length u64Max = stream.length := by omega
    have part : chunk.take (contentBytes - stream.length) <+: chunk := List.take_prefix _ _
    refine ⟨offset,part,Nat.le_of_eq offset.symm,?_⟩
    change _ <+: (stream ++ chunk ++ rest).drop (min stream.length u64Max)
    rw [offset,List.append_assoc,List.drop_left]
    exact part.trans (List.prefix_append _ _)

theorem published_places {contentBytes : Nat} (bounded : contentBytes ≤ u64Max) (stream : List UInt8)
    (chunks : List (List UInt8)) :
    ∀ event ∈ published (some contentBytes) (.after contentBytes stream) chunks,
      Places (stream ++ chunks.flatten) stream.length event := by
  induction chunks generalizing stream with
  | nil =>
      intro event member
      cases member
  | cons chunk rest ih =>
      intro event member
      rw [published_cons,List.mem_append,Option.mem_toList] at member
      rw [List.flatten_cons,← List.append_assoc]
      rcases member with here | later
      · exact (chunkEvent_places bounded here rest.flatten).2.2
      · obtain ⟨least,piece⟩ := ih (stream ++ chunk) event later
        rw [List.length_append] at least
        exact ⟨by omega,piece⟩

theorem published_ordered {contentBytes : Nat} (bounded : contentBytes ≤ u64Max) (stream : List UInt8)
    (chunks : List (List UInt8)) :
    (published (some contentBytes) (.after contentBytes stream) chunks).Pairwise
      (fun first second => first.offset + first.bytes.length ≤ second.offset) := by
  induction chunks generalizing stream with
  | nil => exact .nil
  | cons chunk rest ih =>
      rw [published_cons]
      cases told : chunkEvent contentBytes stream chunk with
      | none => exact ih (stream ++ chunk)
      | some =>
          refine List.pairwise_cons.mpr ⟨?_,ih (stream ++ chunk)⟩
          intro later member
          obtain ⟨offset,part,_⟩ := chunkEvent_places bounded told []
          have beyond := (published_places bounded (stream ++ chunk) rest later member).least
          have short := part.length_le
          rw [List.length_append] at beyond
          omega

-- The parts of the data frames that the body pump gives to its inspector: what is left
-- of its own budget.
def inspectedParts (maximumInspectedBytes inspectedBytes : Nat) : List (List UInt8) → List (List UInt8)
  | [] => []
  | data :: rest =>
      let inspectCount := min (maximumInspectedBytes - inspectedBytes) data.length
      if inspectCount > 0 then
        data.take inspectCount :: inspectedParts maximumInspectedBytes (inspectedBytes + inspectCount) rest
      else inspectedParts maximumInspectedBytes inspectedBytes rest

theorem inspectedParts_flatten (budget spent : Nat) (frames : List (List UInt8)) :
    (inspectedParts budget spent frames).flatten = frames.flatten.take (budget - spent) := by
  induction frames generalizing spent with
  | nil => simp [inspectedParts]
  | cons data rest ih =>
      unfold inspectedParts
      dsimp only
      rw [List.flatten_cons,List.take_append]
      split
      · rename_i some
        have left : budget - (spent + min (budget - spent) data.length) = budget - spent - data.length := by omega
        rw [List.flatten_cons,ih,left,← List.take_take,List.take_length]
      · rename_i none
        rw [ih]
        by_cases spentAll : budget - spent = 0
        · rw [spentAll,Nat.zero_sub]
          simp
        · have empty : data = [] := List.eq_nil_of_length_eq_zero (by omega)
          rw [empty]
          simp

theorem published_inspectedParts {budget spent : Nat} {frames : List (List UInt8)}
    (fits : spent + frames.flatten.length ≤ budget) :
    published (some contentBytes) (.after contentBytes stream) (inspectedParts budget spent frames) =
      published (some contentBytes) (.after contentBytes stream) frames := by
  induction frames generalizing spent stream with
  | nil => rfl
  | cons data rest ih =>
      rw [List.flatten_cons,List.length_append] at fits
      have whole : min (budget - spent) data.length = data.length := by omega
      unfold inspectedParts
      dsimp only
      rw [whole,List.take_length,published_cons]
      split
      · rw [published_cons,ih _ (by omega)]
      · rename_i nothing
        have empty : data = [] := List.eq_nil_of_length_eq_zero (by omega)
        have quiet : chunkEvent contentBytes stream [] = none := if_pos (.inl rfl)
        rw [empty,quiet,List.append_nil]
        exact ih stream (by omega)

-- More bytes come after the chunk with which the limit is passed.
def Overrun (contentBytes : Nat) (chunks : List (List UInt8)) : Prop :=
  ∃ early late, chunks = early ++ late ∧ contentBytes < early.flatten.length ∧ late.flatten ≠ []

theorem crossing {contentBytes : Nat} {chunks : List (List UInt8)} (past : contentBytes < chunks.flatten.length) :
    ∃ early chunk late, chunks = early ++ chunk :: late ∧ early.flatten.length ≤ contentBytes ∧
      contentBytes < (early.flatten ++ chunk).length := by
  induction chunks using List.reverseRecOn with
  | nil => simp at past
  | append_singleton early chunk ih =>
      by_cases sooner : contentBytes < early.flatten.length
      · obtain ⟨first,crossed,rest,rfl,within,beyond⟩ := ih sooner
        exact ⟨first,crossed,rest ++ [chunk],by simp,within,beyond⟩
      · refine ⟨early,chunk,[],rfl,Nat.le_of_not_lt sooner,?_⟩
        simpa using past

theorem crossing_overrun {contentBytes : Nat} {early late : List (List UInt8)} {chunk : List UInt8}
    (within : early.flatten.length ≤ contentBytes) (beyond : contentBytes < (early.flatten ++ chunk).length) :
    Overrun contentBytes (early ++ chunk :: late) ↔ late.flatten ≠ [] := by
  constructor
  · rintro ⟨first,rest,split,passed,more⟩
    -- The first part goes beyond the limit, so it has the chunk in it.
    rcases List.append_eq_append_iff.mp split.symm with ⟨tail,same,_⟩ | ⟨tail,same,left⟩
    · have short : first.flatten.length ≤ early.flatten.length := by
        rw [same,List.flatten_append,List.length_append]
        omega
      omega
    · cases tail with
      | nil =>
          rw [List.append_nil] at same
          rw [same] at passed
          omega
      | cons =>
          rw [List.cons_append,List.cons.injEq] at left
          rw [left.2,List.flatten_append]
          exact List.append_ne_nil_of_right_ne_nil _ more
  · intro more
    refine ⟨early ++ [chunk],late,by simp,?_,more⟩
    simpa using beyond

end Freja.Proxy
