import Freja.Wire.Control
import Mathlib.Data.List.Forall2

namespace Freja.Framing
open Bytes Transducer

def FramerEvent.message? : FramerEvent → Option WireMessage
  | .complete _ message => some message
  | _ => none

def completed (events : List FramerEvent) : List WireMessage := events.filterMap FramerEvent.message?

-- A message that stands for a part of the stream.
structure Covers (limit : Nat) (part : List UInt8) (message : WireMessage) : Prop where
  observed : message.observedBytes = min part.length u64Max
  bytes : message.bytes = part.take limit
  truncated : message.truncated = decide (limit < part.length)

-- A framer in the middle of a part.
structure Gathers (framer : Http1Framer) (part : List UInt8) : Prop where
  observed : framer.observed = min part.length u64Max
  retained : framer.retained = part.take framer.maximumCaptureBytes
  truncated : framer.truncated = decide (framer.maximumCaptureBytes < part.length)

-- The stream is the parts of the completed messages and the part in progress;
-- a failed framer leaves the rest of it unread.
structure Accounted (limit : Nat) (framer : Http1Framer) (events : List FramerEvent) (stream : List UInt8) : Prop where
  limited : framer.maximumCaptureBytes = limit
  cut : ∃ parts current rest, stream = parts.flatten ++ current ++ rest ∧
    List.Forall₂ (Covers limit) parts (completed events) ∧ Gathers framer current ∧
    (framer.state ≠ .failed → rest = [])

namespace Http1Framer

variable {framer : Http1Framer}

theorem heard_gathers (gathers : Gathers framer part) (byte : UInt8) : Gathers (framer.heard byte) (part ++ [byte]) := by
  obtain ⟨observed,retained,truncated⟩ := gathers
  have kept : framer.retained.length = min framer.maximumCaptureBytes part.length := by rw [retained,List.length_take]
  refine ⟨?_,?_,?_⟩
  · change saturatingAdd framer.observed 1 = _
    rw [observed,List.length_append,List.length_singleton]
    unfold saturatingAdd
    omega
  · change framer.retained ++ [byte].take (min (framer.maximumCaptureBytes - framer.retained.length) 1) =
      (part ++ [byte]).take framer.maximumCaptureBytes
    rw [List.take_append,retained,List.length_take]
    congr 1
    by_cases room : part.length < framer.maximumCaptureBytes
    · have count : min (framer.maximumCaptureBytes - min framer.maximumCaptureBytes part.length) 1 = 1 := by omega
      rw [count,List.take_of_length_le (by simp),List.take_of_length_le (by simp; omega)]
    · have count : min (framer.maximumCaptureBytes - min framer.maximumCaptureBytes part.length) 1 = 0 := by omega
      have full : framer.maximumCaptureBytes - part.length = 0 := by omega
      rw [count,full]
  · change (framer.truncated || decide (min (framer.maximumCaptureBytes - framer.retained.length) 1 < 1)) = _
    rw [truncated,kept,Bool.eq_iff_iff]
    change _ ↔ decide (framer.maximumCaptureBytes < (part ++ [byte]).length) = true
    simp only [Bool.or_eq_true,decide_eq_true_eq,List.length_append,List.length_singleton]
    omega

theorem completed_started (framer : Http1Framer) : completed framer.started = [] := by
  unfold started
  split <;> rfl

theorem completed_append (early late : List FramerEvent) : completed (early ++ late) = completed early ++ completed late :=
  List.filterMap_append

theorem reset_gathers (framer : Http1Framer) : Gathers framer.reset [] := ⟨by simp [reset],by simp [reset],by simp [reset]⟩

-- What a part comes to when its framer gives a verdict on it.
theorem settle_accounted (accounted : Accounted limit framer events stream) (alive : framer.state ≠ .failed)
    (verdict : Verdict) :
    Accounted limit (framer.settle verdict).1 (events ++ (framer.settle verdict).2) stream := by
  obtain ⟨limited,parts,current,rest,same,covers,gathers,whole⟩ := accounted
  have read := whole alive
  subst read
  cases verdict with
  | more state =>
      refine ⟨limited,parts,current,[],same,?_,⟨gathers.observed,gathers.retained,gathers.truncated⟩,fun _ => rfl⟩
      have silent : completed (framer.settle (.more state)).2 = [] := rfl
      rw [completed_append,silent,List.append_nil]
      exact covers
  | broken error =>
      refine ⟨limited,parts,current,[],same,?_,⟨gathers.observed,gathers.retained,gathers.truncated⟩,fun _ => rfl⟩
      have silent : completed (framer.settle (.broken error)).2 = [] := rfl
      rw [completed_append,silent,List.append_nil]
      exact covers
  | done informational =>
      have message : Covers limit current ⟨framer.retained,framer.observed,framer.truncated,informational⟩ :=
        ⟨gathers.observed,limited ▸ gathers.retained,limited ▸ gathers.truncated⟩
      refine ⟨limited,parts ++ [current],[],[],?_,?_,reset_gathers framer,fun _ => rfl⟩
      · simpa using same
      · rw [completed_append]
        exact List.rel_append covers (.cons message .nil)

theorem heard_accounted (accounted : Accounted limit framer events stream) (alive : framer.state ≠ .failed)
    (byte : UInt8) : Accounted limit (framer.heard byte) (events ++ framer.started) (stream ++ [byte]) := by
  obtain ⟨limited,parts,current,rest,same,covers,gathers,whole⟩ := accounted
  have read := whole alive
  subst read
  refine ⟨limited,parts,current ++ [byte],[],?_,?_,heard_gathers gathers byte,fun _ => rfl⟩
  · simp [same]
  · rw [completed_append,completed_started,List.append_nil]
    exact covers

theorem push_accounted (accounted : Accounted limit framer events stream) (byte : UInt8) :
    Accounted limit (framer.push [byte]).1 (events ++ (framer.push [byte]).2) (stream ++ [byte]) := by
  by_cases failed : framer.state = .failed
  · obtain ⟨limited,parts,current,rest,same,covers,gathers,_⟩ := accounted
    rw [push_failed failed,List.append_nil]
    refine ⟨limited,parts,current,rest ++ [byte],?_,covers,gathers,fun alive => absurd failed alive⟩
    simp [same]
  · have taken := heard_accounted accounted failed byte
    rw [push_single failed,← List.append_assoc]
    exact settle_accounted taken failed _

theorem new_accounted (role : MessageRole) (maximumHeadBytes maximumCaptureBytes : Nat) :
    Accounted maximumCaptureBytes (new role maximumHeadBytes maximumCaptureBytes) [] [] := by
  refine ⟨rfl,[],[],[],rfl,.nil,⟨?_,?_,?_⟩,fun _ => rfl⟩ <;> simp [new]

theorem stream_parts (role : MessageRole) (maximumHeadBytes maximumCaptureBytes : Nat) (stream : List UInt8) :
    let pushed := (new role maximumHeadBytes maximumCaptureBytes).push stream
    Accounted maximumCaptureBytes pushed.1 pushed.2 stream :=
  push_bytewise.invariant (Accounted maximumCaptureBytes) (new_accounted role maximumHeadBytes maximumCaptureBytes)
    (fun _ _ _ byte accounted => push_accounted accounted byte) stream

theorem eof_accounted (accounted : Accounted limit framer events stream) :
    Accounted limit framer.eof.1 (events ++ framer.eof.2) stream := by
  have finished (alive : framer.state ≠ .failed) : Accounted limit (framer.complete false).1
      (events ++ (framer.complete false).2) stream := settle_accounted accounted alive (.done false)
  have stopped (alive : framer.state ≠ .failed) : Accounted limit (framer.fail .unexpectedEof).1
      (events ++ (framer.fail .unexpectedEof).2) stream := settle_accounted accounted alive (.broken .unexpectedEof)
  unfold eof
  cases here : framer.state with
  | head =>
      dsimp only
      split
      · exact stopped (by rw [here]; exact State.noConfusion)
      · simpa using accounted
  | closeDelimited => exact finished (by rw [here]; exact State.noConfusion)
  | failed => simpa using accounted
  | fixedBody | chunkSize | chunkData | chunkDataTerminator | trailers =>
      exact stopped (by rw [here]; exact State.noConfusion)

end Http1Framer

def observedTotal : List WireMessage → Nat
  | [] => 0
  | message :: rest => message.observedBytes + observedTotal rest

-- The messages lie one after another on the stream, each with the bytes that
-- fit the capture limit.
def Tiles (limit : Nat) (stream : List UInt8) (messages : List WireMessage) : Prop :=
  ∀ k message, messages[k]? = some message →
    let start := observedTotal (messages.take k)
    start + message.observedBytes ≤ stream.length ∧
      message.bytes = (stream.drop start).take (min message.observedBytes limit) ∧
      (message.truncated = true ↔ limit < message.observedBytes)

theorem tiles_parts (covers : List.Forall₂ (Covers limit) parts messages) (rest : List UInt8)
    (short : (parts.flatten ++ rest).length ≤ u64Max) :
    observedTotal messages = parts.flatten.length ∧ Tiles limit (parts.flatten ++ rest) messages := by
  induction covers with
  | nil =>
      refine ⟨rfl,?_⟩
      intro k message found
      simp at found
  | @cons part message parts messages cover covers ih =>
      have fits : part.length ≤ u64Max := by
        simp only [List.flatten_cons,List.length_append] at short
        omega
      obtain ⟨sum,tiles⟩ := ih (by simp only [List.flatten_cons,List.length_append] at short ⊢; omega)
      have observed : message.observedBytes = part.length := by
        rw [cover.observed]
        omega
      refine ⟨by simp [observedTotal,observed,sum],?_⟩
      intro k found here
      cases k with
      | zero =>
          cases here
          refine ⟨?_,?_,?_⟩
          · simp [observedTotal,observed]
          · simp only [List.take_zero,observedTotal,List.drop_zero,observed,cover.bytes,List.flatten_cons,
              List.append_assoc]
            rw [List.take_append_of_le_length (Nat.min_le_left _ _),List.take_eq_take_iff]
            omega
          · rw [cover.truncated,observed,decide_eq_true_eq]
      | succ k =>
          obtain ⟨inside,bytes,truncated⟩ := tiles k found here
          refine ⟨?_,?_,truncated⟩
          · simp only [List.take_succ_cons,observedTotal,observed,List.flatten_cons,List.length_append] at inside ⊢
            omega
          · simp only [List.take_succ_cons,observedTotal,observed,List.flatten_cons,List.append_assoc]
            rw [← List.drop_drop,List.drop_left]
            exact bytes

theorem Accounted.tiles (accounted : Accounted limit framer events stream) (short : stream.length ≤ u64Max) :
    Tiles limit stream (completed events) ∧
      (framer.state ≠ .failed →
        observedTotal (completed events) + framer.observed = stream.length) := by
  obtain ⟨_,parts,current,rest,same,covers,gathers,whole⟩ := accounted
  rw [List.append_assoc] at same
  subst same
  obtain ⟨sum,tiles⟩ := tiles_parts covers (current ++ rest) short
  refine ⟨tiles,?_⟩
  intro alive
  rw [whole alive] at short ⊢
  rw [sum,gathers.observed]
  simp only [List.length_append,List.length_nil] at short ⊢
  omega

theorem stream_accounted (role : MessageRole) (maximumHeadBytes maximumCaptureBytes : Nat) (pushes : List (List UInt8))
    (short : pushes.flatten.length ≤ u64Max) :
    let framer := Http1Framer.new role maximumHeadBytes maximumCaptureBytes
    let pushed := feedChunks Http1Framer.push framer pushes
    let ended := framer.observe pushes
    (Tiles maximumCaptureBytes pushes.flatten (completed pushed.2) ∧
      (pushed.1.state ≠ .failed →
        observedTotal (completed pushed.2) + pushed.1.observed = pushes.flatten.length)) ∧
    (Tiles maximumCaptureBytes pushes.flatten (completed ended.2) ∧
      (ended.1.state ≠ .failed →
        observedTotal (completed ended.2) + ended.1.observed = pushes.flatten.length)) := by
  intro framer pushed ended
  have whole : pushed = framer.push pushes.flatten := Http1Framer.push_bytewise.chunks framer pushes
  have accounted : Accounted maximumCaptureBytes pushed.1 pushed.2 pushes.flatten := by
    rw [whole]
    exact Http1Framer.stream_parts role maximumHeadBytes maximumCaptureBytes pushes.flatten
  exact ⟨accounted.tiles short,(Http1Framer.eof_accounted accounted).tiles short⟩

-- Two pushes that hold one whole request and the first byte of the next.
theorem stream_accounted_pipelined :
    let pushes : List (List UInt8) := [[97,13,10],[13,10,98]]
    let framer := Http1Framer.new .request 16 4
    let pushed := feedChunks Http1Framer.push framer pushes
    completed pushed.2 = [⟨[97,13,10,13],5,true,false⟩] ∧ pushed.1.observed = 1 ∧ pushed.1.state ≠ .failed ∧
      Tiles 4 pushes.flatten (completed pushed.2) ∧
      observedTotal (completed pushed.2) + pushed.1.observed = pushes.flatten.length := by
  intro pushes framer pushed
  have run : pushed = framer.steps pushes.flatten :=
    (Http1Framer.push_bytewise.chunks framer pushes).trans (Http1Framer.push_steps framer pushes.flatten)
  have seen : completed (framer.steps pushes.flatten).2 = [⟨[97,13,10,13],5,true,false⟩] ∧
      (framer.steps pushes.flatten).1.observed = 1 ∧ (framer.steps pushes.flatten).1.state ≠ .failed := by
    decide +kernel
  rw [← run] at seen
  obtain ⟨messages,observed,alive⟩ := seen
  obtain ⟨⟨tiles,sum⟩,_⟩ := stream_accounted .request 16 4 pushes (by decide)
  exact ⟨messages,observed,alive,tiles,sum alive⟩

end Freja.Framing
