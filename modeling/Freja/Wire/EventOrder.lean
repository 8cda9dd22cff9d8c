import Freja.Wire.Correlation

namespace Freja.Framing
open Bytes Transducer

-- What the events so far say of the message after them: between two messages,
-- within one, or at the end after a failure.
inductive Progress where
  | between (count : Nat)
  | within (count : Nat)
  | ended
  deriving DecidableEq, Repr

section

variable (number : Nat → Nat)

def Progress.next : Progress → FramerEvent → Option Progress
  | .between count,.started sequence => if sequence = number count then some (.within count) else none
  | .within count,.complete sequence _ => if sequence = number count then some (.between (count + 1)) else none
  | .within count,.failed sequence _ => if sequence = number count then some .ended else none
  | _,_ => none

def follow : Progress → List FramerEvent → Option Progress
  | progress,[] => some progress
  | progress,event :: rest => (progress.next number event).bind (follow · rest)

-- The events tell of one message after the other, the k-th of them under the number of k.
def progress (events : List FramerEvent) : Option Progress := follow number (.between 0) events

theorem follow_append (start : Progress) (early late : List FramerEvent) :
    follow number start (early ++ late) = (follow number start early).bind (follow number · late) := by
  induction early generalizing start with
  | nil => rfl
  | cons event rest ih =>
      rw [List.cons_append,follow,follow]
      cases start.next number event with
      | none => rfl
      | some after => exact ih after

end

-- The number of a message is a count that saturates.
def numberOf (count : Nat) : Nat := min count u64Max

theorem numberOf_succ (count : Nat) : saturatingAdd (numberOf count) 1 = numberOf (count + 1) := by
  unfold saturatingAdd numberOf
  omega

namespace Http1Framer

variable {framer : Http1Framer}

-- The framer stands where its events say.
def Stands (framer : Http1Framer) : Progress → Prop
  | .between count => framer.state = .head ∧ framer.active = false ∧ framer.sequence = numberOf count
  | .within count => framer.state ≠ .failed ∧ framer.active = true ∧ framer.sequence = numberOf count
  | .ended => framer.state = .failed

def Told (framer : Http1Framer) (events : List FramerEvent) : Prop :=
  ∃ now, progress numberOf events = some now ∧ framer.Stands now

theorem new_told (role : MessageRole) (maximumHeadBytes maximumCaptureBytes : Nat) :
    Told (new role maximumHeadBytes maximumCaptureBytes) [] :=
  ⟨.between 0,rfl,rfl,rfl,rfl⟩

theorem heard_told (told : framer.Told events) (alive : framer.state ≠ .failed) (byte : UInt8) :
    ∃ count, progress numberOf (events ++ framer.started) = some (.within count) ∧
      (framer.heard byte).Stands (.within count) := by
  obtain ⟨now,reached,stands⟩ := told
  unfold progress at reached ⊢
  rw [follow_append,reached]
  cases now with
  | between count =>
      obtain ⟨_,inactive,sequence⟩ := stands
      refine ⟨count,?_,alive,rfl,sequence⟩
      simp [started,inactive,follow,Progress.next,sequence]
  | within count =>
      obtain ⟨_,active,sequence⟩ := stands
      refine ⟨count,?_,alive,rfl,sequence⟩
      simp [started,active,follow]
  | ended => exact absurd stands alive

theorem settle_told (within : progress numberOf events = some (.within count)) (stands : framer.Stands (.within count))
    (verdict : Verdict) (sound : verdict ≠ .more .failed) :
    (framer.settle verdict).1.Told (events ++ (framer.settle verdict).2) := by
  obtain ⟨_,active,sequence⟩ := stands
  unfold Told progress at *
  rw [follow_append,within]
  cases verdict with
  | more state =>
      refine ⟨.within count,rfl,?_,active,sequence⟩
      intro failed
      change state = .failed at failed
      exact sound (by rw [failed])
  | done =>
      refine ⟨.between (count + 1),?_,rfl,rfl,?_⟩
      · simp [settle,complete,follow,Progress.next,sequence]
      · change saturatingAdd framer.sequence 1 = _
        rw [sequence,numberOf_succ]
  | broken =>
      refine ⟨.ended,?_,rfl⟩
      simp [settle,fail,follow,Progress.next,sequence]

theorem verdict_spoken (alive : framer.state ≠ .failed) (byte : UInt8) : framer.verdict byte ≠ .more .failed := by
  unfold verdict
  cases here : framer.state with
  | head =>
      simp only [Verdict.ofHead]
      split
      · simp
      · split
        · unfold Verdict.ofFraming
          split <;> try split
          all_goals simp
        · simp
  | fixedBody =>
      simp only [Verdict.counted]
      split <;> simp
  | chunkSize =>
      simp only [Verdict.ofSizeLine]
      split
      · simp
      · split
        · unfold Verdict.ofSize
          split <;> try split
          all_goals simp
        · simp
  | chunkData =>
      simp only [Verdict.counted]
      split <;> simp
  | chunkDataTerminator =>
      simp only [Verdict.ofTerminator]
      split <;> try split
      all_goals simp
  | trailers =>
      simp only [Verdict.ofTrailer]
      split
      · simp
      · split
        · split
          · simp
          · split <;> simp
        · simp
  | closeDelimited => simp
  | failed => exact absurd here alive

theorem push_told (told : framer.Told events) (byte : UInt8) :
    (framer.push [byte]).1.Told (events ++ (framer.push [byte]).2) := by
  by_cases failed : framer.state = .failed
  · rw [push_failed failed,List.append_nil]
    exact told
  · obtain ⟨count,within,stands⟩ := heard_told told failed byte
    rw [push_single failed,← List.append_assoc]
    exact settle_told within stands _ (verdict_spoken failed byte)

theorem stream_told (role : MessageRole) (maximumHeadBytes maximumCaptureBytes : Nat) (stream : List UInt8) :
    ((new role maximumHeadBytes maximumCaptureBytes).push stream).1.Told
      ((new role maximumHeadBytes maximumCaptureBytes).push stream).2 :=
  push_bytewise.invariant (fun framer events _ => framer.Told events) (new_told role maximumHeadBytes maximumCaptureBytes)
    (fun _ _ _ byte told => push_told told byte) stream

theorem eof_told (told : framer.Told events) :
    framer.eof.1.Told (events ++ framer.eof.2) ∧
      (framer.eof.2 ≠ [] ↔ ∃ count, progress numberOf events = some (.within count)) := by
  obtain ⟨now,reached,stands⟩ := told
  rw [reached]
  cases now with
  | between =>
      obtain ⟨head,inactive,_⟩ := id stands
      have silent : framer.eof = (framer,[]) := by simp [eof,head,inactive]
      rw [silent,List.append_nil]
      refine ⟨⟨_,reached,stands⟩,?_⟩
      simp
  | ended =>
      have failed : framer.state = .failed := stands
      have silent : framer.eof = (framer,[]) := by simp [eof,failed]
      rw [silent,List.append_nil]
      refine ⟨⟨_,reached,stands⟩,?_⟩
      simp
  | within count =>
      obtain ⟨alive,active,_⟩ := id stands
      have ended : ∃ verdict, verdict ≠ .more .failed ∧ framer.eof = framer.settle verdict ∧ framer.eof.2 ≠ [] := by
        by_cases closing : framer.state = .closeDelimited
        · refine ⟨.done false,by simp,?_⟩
          simp [eof,closing,settle,complete]
        · refine ⟨.broken .unexpectedEof,by simp,?_⟩
          unfold eof
          cases here : framer.state with
          | closeDelimited => exact absurd here closing
          | failed => exact absurd here alive
          | _ => simp [active,settle,fail]
      obtain ⟨verdict,sound,same,spoken⟩ := ended
      refine ⟨?_,iff_of_true spoken ⟨count,rfl⟩⟩
      rw [same]
      exact settle_told reached stands verdict sound

theorem discard_silent (framer : Http1Framer) (input : List UInt8) :
    framer.discard.push input = (framer.discard,[]) ∧ framer.discard.eof = (framer.discard,[]) :=
  ⟨push_failed rfl input,rfl⟩

end Http1Framer

namespace State

-- The line that is being gathered.
def line : State → List UInt8
  | .chunkSize line => line
  | .trailers line _ => line
  | _ => []

-- The state in the middle of a pass, when the byte is in the line and not yet judged.
def hears (byte : UInt8) : State → State
  | .chunkSize line => .chunkSize (line ++ [byte])
  | .trailers line observed => .trailers (line ++ [byte]) (saturatingAdd observed 1)
  | state => state

def Fits (maximum : Nat) : State → Prop
  | .chunkSize line => line.length ≤ maximum
  | .trailers line observed => line.length ≤ observed ∧ observed ≤ maximum
  | _ => True

theorem Fits.line_length {state : State} (fits : state.Fits maximum) : state.line.length ≤ maximum := by
  cases state with
  | chunkSize => exact fits
  | trailers => exact Nat.le_trans fits.1 fits.2
  | _ => exact Nat.zero_le _

theorem hears_line (byte : UInt8) (state : State) : (state.hears byte).line.length ≤ state.line.length + 1 := by
  cases state <;> simp [hears,line]

end State

namespace Verdict

theorem ofSizeLine_fits (more : ofSizeLine maximum line = .more state) : state.Fits maximum := by
  unfold ofSizeLine at more
  split at more
  · cases more
  · rename_i fits
    split at more
    · unfold ofSize at more
      split at more
      · split at more
        all_goals
          cases more
          simp [State.Fits]
      · cases more
    · cases more
      exact Nat.le_of_not_lt fits

theorem ofTrailer_fits (short : line.length ≤ observed) (more : ofTrailer maximum line observed = .more state) :
    state.Fits maximum := by
  unfold ofTrailer at more
  split at more
  · cases more
  · rename_i fits
    have within := Nat.le_of_not_lt fits
    split at more
    · split at more
      · cases more
      · split at more
        · cases more
          exact ⟨Nat.zero_le _,within⟩
        · cases more
    · cases more
      exact ⟨short,within⟩

theorem ofFraming_fits (more : ofFraming outcome = .more state) : state.Fits maximum := by
  unfold ofFraming at more
  split at more <;> try split at more
  all_goals
    cases more
  all_goals simp [State.Fits]

end Verdict

namespace Http1Framer

variable {framer : Http1Framer}

-- What the buffers hold at most, at any moment.
structure Bounded (framer : Http1Framer) : Prop where
  head : framer.head.length ≤ framer.maximumHeadBytes + 1
  line : framer.state.line.length ≤ framer.maximumHeadBytes + 1
  retained : framer.retained.length ≤ framer.maximumCaptureBytes

-- Between two passes a living framer has room for one more byte.
structure Roomy (framer : Http1Framer) : Prop where
  head : framer.head.length ≤ framer.maximumHeadBytes + 1
  living : framer.state ≠ .failed → framer.head.length ≤ framer.maximumHeadBytes
  fits : framer.state.Fits framer.maximumHeadBytes
  retained : framer.retained.length ≤ framer.maximumCaptureBytes

def during (framer : Http1Framer) (byte : UInt8) : Http1Framer :=
  {framer.heard byte with state := framer.state.hears byte}

theorem Roomy.bounded (roomy : Roomy framer) : Bounded framer :=
  ⟨roomy.head,Nat.le_succ_of_le roomy.fits.line_length,roomy.retained⟩

theorem heard_retained (retained : framer.retained.length ≤ framer.maximumCaptureBytes) (byte : UInt8) :
    (framer.heard byte).retained.length ≤ framer.maximumCaptureBytes := by
  simp only [heard,appendBytes,activate,List.length_append,List.length_take]
  omega

theorem heard_head_length (living : framer.head.length ≤ framer.maximumHeadBytes) (byte : UInt8) :
    (framer.heard byte).head.length ≤ framer.maximumHeadBytes + 1 := by
  simp only [heard]
  split
  · rw [List.length_append]
    exact Nat.succ_le_succ living
  · exact Nat.le_succ_of_le living

theorem Roomy.during (roomy : Roomy framer) (alive : framer.state ≠ .failed) (byte : UInt8) :
    Bounded (framer.during byte) := by
  refine ⟨heard_head_length (roomy.living alive) byte,?_,heard_retained roomy.retained byte⟩
  have longer := State.hears_line byte framer.state
  have short := roomy.fits.line_length
  change (framer.state.hears byte).line.length ≤ framer.maximumHeadBytes + 1
  omega

theorem verdict_fits (small : framer.maximumHeadBytes < u64Max) (fits : framer.state.Fits framer.maximumHeadBytes)
    {next : State} (more : framer.verdict byte = .more next) : next.Fits framer.maximumHeadBytes := by
  unfold verdict at more
  cases here : framer.state with
  | head =>
      simp only [here,Verdict.ofHead] at more
      split at more
      · cases more
      · split at more
        · exact Verdict.ofFraming_fits more
        · cases more
          trivial
  | fixedBody =>
      simp only [here,Verdict.counted] at more
      split at more <;> cases more
      trivial
  | chunkSize =>
      simp only [here] at more
      exact Verdict.ofSizeLine_fits more
  | chunkData =>
      simp only [here,Verdict.counted] at more
      split at more
      all_goals
        cases more
        trivial
  | chunkDataTerminator =>
      simp only [here,Verdict.ofTerminator] at more
      split at more <;> try split at more
      all_goals
        cases more
      all_goals simp [State.Fits]
  | trailers line =>
      simp only [here] at more
      rw [here] at fits
      obtain ⟨short,within⟩ := fits
      refine Verdict.ofTrailer_fits ?_ more
      -- The count has not saturated, so it still bounds the line.
      unfold saturatingAdd
      rw [List.length_append,List.length_singleton]
      omega
  | closeDelimited | failed =>
      simp only [here] at more
      cases more
      trivial

theorem verdict_head (living : framer.head.length ≤ framer.maximumHeadBytes) {next : State}
    (more : framer.verdict byte = .more next) : (framer.heard byte).head.length ≤ framer.maximumHeadBytes := by
  by_cases here : framer.state = .head
  · simp only [verdict,here,Verdict.ofHead] at more
    split at more
    · cases more
    · rename_i fits
      simp only [heard,here,if_true]
      exact Nat.le_of_not_lt fits
  · simp only [heard,here,if_false]
    exact living

theorem push_roomy (small : framer.maximumHeadBytes < u64Max) (roomy : Roomy framer) (byte : UInt8) :
    Roomy (framer.push [byte]).1 := by
  by_cases failed : framer.state = .failed
  · rw [push_failed failed]
    exact roomy
  · have living := roomy.living failed
    have retained := heard_retained roomy.retained byte
    rw [push_single failed]
    cases decision : framer.verdict byte with
    | more =>
        have head := verdict_head living decision
        exact ⟨Nat.le_succ_of_le head,fun _ => head,verdict_fits small roomy.fits decision,retained⟩
    | done => exact ⟨Nat.zero_le _,fun _ => Nat.zero_le _,trivial,Nat.zero_le _⟩
    | broken => exact ⟨heard_head_length living byte,fun alive => absurd rfl alive,trivial,retained⟩

theorem push_limits (framer : Http1Framer) (byte : UInt8) :
    (framer.push [byte]).1.maximumHeadBytes = framer.maximumHeadBytes := by
  by_cases failed : framer.state = .failed
  · rw [push_failed failed]
  · rw [push_single failed]
    cases framer.verdict byte <;> rfl

theorem new_roomy (role : MessageRole) (maximumHeadBytes maximumCaptureBytes : Nat) :
    Roomy (new role maximumHeadBytes maximumCaptureBytes) :=
  ⟨Nat.zero_le _,fun _ => Nat.zero_le _,trivial,Nat.zero_le _⟩

theorem stream_roomy (role : MessageRole) (headLimit captureLimit : Nat) (small : headLimit < u64Max)
    (stream : List UInt8) : Roomy ((new role headLimit captureLimit).push stream).1 := by
  have kept : ((new role headLimit captureLimit).push stream).1.maximumHeadBytes = headLimit ∧
      Roomy ((new role headLimit captureLimit).push stream).1 :=
    push_bytewise.invariant (fun framer (_ : List FramerEvent) _ => framer.maximumHeadBytes = headLimit ∧ Roomy framer)
      ⟨rfl,new_roomy role headLimit captureLimit⟩
      (fun framer _ _ byte held => ⟨(push_limits framer byte).trans held.1,push_roomy (held.1 ▸ small) held.2 byte⟩) stream
  exact kept.2

theorem eof_bounded (bounded : Bounded framer) : Bounded framer.eof.1 := by
  have stopped : Bounded (framer.fail .unexpectedEof).1 := ⟨bounded.head,Nat.zero_le _,bounded.retained⟩
  unfold eof
  cases framer.state with
  | head =>
      dsimp only
      split
      · exact stopped
      · exact bounded
  | closeDelimited => exact ⟨Nat.zero_le _,Nat.zero_le _,Nat.zero_le _⟩
  | failed => exact bounded
  | _ => exact stopped

theorem framer_events_orderly (role : MessageRole) (headLimit captureLimit : Nat) (pushes : List (List UInt8)) :
    let framer := new role headLimit captureLimit
    let pushed := feedChunks push framer pushes
    (∃ now, progress numberOf pushed.2 = some now) ∧
      (∃ last, progress numberOf (pushed.2 ++ pushed.1.eof.2) = some last) ∧
      (pushed.1.eof.2 ≠ [] ↔ ∃ count, progress numberOf pushed.2 = some (.within count)) ∧
      (∀ later, pushed.1.discard.push later = (pushed.1.discard,[]) ∧ pushed.1.discard.eof.2 = []) ∧
      (headLimit < u64Max →
        (∀ before byte after, pushes.flatten = before ++ byte :: after → (framer.push before).1.state ≠ .failed →
          ((framer.push before).1.during byte).Bounded) ∧
        (∀ before after, pushes.flatten = before ++ after → (framer.push before).1.Bounded) ∧
        pushed.1.eof.1.Bounded ∧ pushed.1.discard.Bounded) := by
  intro framer pushed
  have whole : pushed = framer.push pushes.flatten := push_bytewise.chunks framer pushes
  have told : pushed.1.Told pushed.2 := by
    rw [whole]
    exact stream_told role headLimit captureLimit pushes.flatten
  obtain ⟨⟨last,reached,_⟩,ends⟩ := eof_told told
  obtain ⟨now,before,_⟩ := told
  refine ⟨⟨now,before⟩,⟨last,reached⟩,ends,fun later => ?_,fun small => ⟨?_,?_,?_,?_⟩⟩
  · exact ⟨(discard_silent pushed.1 later).1,by rw [(discard_silent pushed.1 later).2]⟩
  · intro before byte after _ alive
    exact (stream_roomy role headLimit captureLimit small before).during alive byte
  · intro before after _
    exact (stream_roomy role headLimit captureLimit small before).bounded
  · rw [whole]
    exact eof_bounded (stream_roomy role headLimit captureLimit small pushes.flatten).bounded
  · exact ⟨Nat.zero_le _,Nat.zero_le _,Nat.zero_le _⟩

-- Two requests, the second cut off by the end of the stream.
theorem cut_request_orderly :
    let framer := new .request 16 2
    let pushed := feedChunks push framer [ascii "a\r\n",ascii "\r\nb"]
    pushed.1.eof.2 ≠ [] ∧ progress numberOf (pushed.2 ++ pushed.1.eof.2) = some .ended ∧ pushed.1.Bounded := by
  intro framer pushed
  obtain ⟨_,_,ends,_,bounds⟩ := framer_events_orderly .request 16 2 [ascii "a\r\n",ascii "\r\nb"]
  have whole : pushed = framer.steps (ascii "a\r\n\r\nb") :=
    (push_bytewise.chunks framer _).trans (push_steps framer _)
  have within : progress numberOf pushed.2 = some (.within 1) := by
    rw [whole]
    decide +kernel
  have ended : progress numberOf (pushed.2 ++ pushed.1.eof.2) = some .ended := by
    rw [whole]
    decide +kernel
  have small : 16 < u64Max := by decide
  have bounded := (bounds small).2.1 _ [] (List.append_nil _).symm
  rw [← push_bytewise.chunks] at bounded
  exact ⟨ends.mpr ⟨1,within⟩,ended,bounded⟩

-- Counts that saturate: so many short requests one after the other.
def manyEvents : Nat → List FramerEvent
  | 0 => []
  | count + 1 => manyEvents count ++
      [.started (numberOf count),.complete (numberOf count) (Capture.shortMessage 97)]

theorem many_pushed (count : Nat) :
    feedChunks push (Capture.numbered 0) (List.replicate count (Capture.shortRequest 97)) =
      (Capture.numbered (numberOf count),manyEvents count) := by
  induction count with
  | zero => rfl
  | succ count ih =>
      rw [List.replicate_succ',feedChunks_snoc,ih,andThen,Capture.push_short _ 97 (.inl rfl),numberOf_succ]
      rfl

theorem many_numbered (count : Nat) (countable : count ≤ u64Max + 1) :
    progress id (manyEvents count) = some (.between count) := by
  induction count with
  | zero => rfl
  | succ count ih =>
      have exactly : numberOf count = count := Nat.min_eq_left (Nat.le_of_succ_le_succ countable)
      have before := ih (Nat.le_of_succ_le countable)
      unfold progress at before ⊢
      rw [manyEvents,follow_append,before,exactly]
      simp [follow,Progress.next]

theorem many_unnumbered (last : Nat) (most : last = u64Max) : progress id (manyEvents (last + 1 + 1)) = none := by
  have before := many_numbered (last + 1) (by omega)
  have again : numberOf (last + 1) = last := by
    unfold numberOf
    omega
  have other : last ≠ last + 1 := Nat.ne_of_lt (Nat.lt_succ_self _)
  unfold progress at before ⊢
  rw [manyEvents,follow_append,before,again]
  simp only [Option.bind_some,follow,Progress.next,id_eq,if_neg other,Option.bind_none]

def unendedHead : List UInt8 := ascii "a\r\ntransfer-encoding:chunked\r\n\r\n0\r\n"

theorem trailer_grows (unlimited : framer.maximumHeadBytes = u64Max) (line : List UInt8) (observed : Nat)
    (here : framer.state = .trailers line observed) (count : Nat) :
    ∃ total, (framer.push (List.replicate count 97)).1.state = .trailers (line ++ List.replicate count 97) total := by
  suffices kept : (framer.push (List.replicate count 97)).1.maximumHeadBytes = u64Max ∧
      ∃ total, (framer.push (List.replicate count 97)).1.state = .trailers (line ++ List.replicate count 97) total from
    kept.2
  induction count with
  | zero =>
      rw [List.replicate_zero,push_nil,List.append_nil]
      exact ⟨unlimited,observed,here⟩
  | succ count ih =>
      obtain ⟨limit,total,there⟩ := ih
      rw [List.replicate_succ',push_bytewise.append,andThen]
      generalize framer.push (List.replicate count 97) = before at limit there ⊢
      refine ⟨(push_limits before.1 97).trans limit,saturatingAdd total 1,?_⟩
      have alive : before.1.state ≠ .failed := by rw [there]; exact State.noConfusion
      have below : ¬ saturatingAdd total 1 > u64Max := by
        unfold saturatingAdd
        omega
      have open_ : ¬ (ascii "\r\n").isSuffixOf (line ++ List.replicate count 97 ++ [97]) = true := by
        rw [List.isSuffixOf_iff_suffix]
        intro ended
        have reversed := List.reverse_prefix.mpr ended
        rw [List.reverse_append] at reversed
        have first := (List.cons_prefix_cons.mp reversed).1
        exact absurd first (by decide)
      have decision : before.1.verdict 97 =
          .more (.trailers (line ++ List.replicate count 97 ++ [97]) (saturatingAdd total 1)) := by
        simp only [verdict,there,limit,Verdict.ofTrailer]
        rw [if_neg below,if_neg open_]
      rw [push_single alive,decision,List.append_assoc]
      rfl

theorem counts_saturate :
    (∃ pushes, progress id (feedChunks push (new .request 16 16) pushes).2 = none) ∧
    ∃ stream, ((new .request u64Max 0).push stream).1.state.line.length > u64Max + 1 := by
  obtain ⟨last,most⟩ : ∃ last, last = u64Max := ⟨_,rfl⟩
  constructor
  · refine ⟨List.replicate (last + 1 + 1) (Capture.shortRequest 97),?_⟩
    have pushed := many_pushed (last + 1 + 1)
    have fresh : Capture.numbered 0 = new .request 16 16 := rfl
    rw [fresh] at pushed
    rw [pushed]
    exact many_unnumbered last most
  · have opened : ((new .request u64Max 0).push unendedHead).1.maximumHeadBytes = u64Max ∧
        ((new .request u64Max 0).push unendedHead).1.state = .trailers [] 0 := by
      rw [push_steps]
      decide +kernel
    obtain ⟨total,grown⟩ := trailer_grows opened.1 [] 0 opened.2 (last + 2)
    refine ⟨unendedHead ++ List.replicate (last + 2) 97,?_⟩
    rw [push_bytewise.append,andThen]
    simp only [grown,State.line,List.nil_append,List.length_replicate]
    omega

end Http1Framer

end Freja.Framing
