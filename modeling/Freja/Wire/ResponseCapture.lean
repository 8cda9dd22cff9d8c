import Freja.Domain.Decision
import Freja.Wire.Capture

namespace Freja.Capture
open Bytes Transducer Domain Framing

-- What becomes of one transaction's capture.
structure WireCapture where
  sessionId : SessionId
  transactionId : TransactionId
  direction : Direction
  outcome : Except String (List UInt8 × Nat × Bool)

structure ResponseCapture where
  framer : Http1Framer
  sessionId : SessionId
  transactionId : TransactionId
  maximumCaptureBytes : Nat
  retained : List UInt8
  observed : Nat
  truncated : Bool
  terminal : Bool

def responseEndedBeforeCompletion : String := "HTTP/1 response capture ended before message completion"

namespace ResponseCapture

def new (sessionId : SessionId) (transactionId : TransactionId) (maximumHeadBytes maximumContentBytes : Nat)
    (context : ResponseContext) : ResponseCapture :=
  let maximumCaptureBytes := saturatingAdd maximumHeadBytes maximumContentBytes
  {framer := Http1Framer.new (.response context) maximumHeadBytes maximumCaptureBytes
   sessionId := sessionId,transactionId := transactionId,maximumCaptureBytes := maximumCaptureBytes
   retained := [],observed := 0,truncated := false,terminal := false}

def append (capture : ResponseCapture) (message : WireMessage) : ResponseCapture :=
  let remaining := capture.maximumCaptureBytes - capture.retained.length
  let count := min remaining message.bytes.length
  {capture with
    observed := saturatingAdd capture.observed message.observedBytes
    retained := capture.retained ++ message.bytes.take count
    truncated := capture.truncated || (message.truncated || decide (count < message.bytes.length))}

def publication (capture : ResponseCapture) (outcome : Except String (List UInt8 × Nat × Bool)) : WireCapture :=
  ⟨capture.sessionId,capture.transactionId,.httpResponseBody,outcome⟩

def applyEvent (capture : ResponseCapture) : FramerEvent → ResponseCapture × List WireCapture
  | .started _ => (capture,[])
  | .complete _ message =>
      let capture := capture.append message
      if message.informational then (capture,[])
      else ({capture with retained := [],terminal := true},
        [capture.publication (.ok (capture.retained,capture.observed,capture.truncated))])
  | .failed _ error => ({capture with terminal := true},[capture.publication (.error (errorText error))])

def applyEvents : ResponseCapture → List FramerEvent → ResponseCapture × List WireCapture := feedEach applyEvent

def withFramer (capture : ResponseCapture) (framer : Http1Framer) : ResponseCapture := {capture with framer := framer}

def observe (capture : ResponseCapture) (bytes : List UInt8) (eof : Bool) : ResponseCapture × List WireCapture :=
  if capture.terminal then (capture,[])
  else
    let heard := RequestCaptureState.hear capture.framer bytes eof
    (capture.withFramer heard.1).applyEvents heard.2

def abort (capture : ResponseCapture) : ResponseCapture × List WireCapture :=
  if capture.terminal then (capture,[])
  else ({capture with terminal := true},[capture.publication (.error responseEndedBeforeCompletion)])

-- One read of the adapter; reading nothing is the end of the stream.
def read (capture : ResponseCapture) (bytes : List UInt8) : ResponseCapture × List WireCapture :=
  capture.observe bytes bytes.isEmpty

end ResponseCapture

-- The connection is dropped in the end, with or without having read the end of
-- the stream before.
inductive Ending where
  | endOfStream
  | dropped
  deriving DecidableEq, Repr

def Ending.reads : Ending → List (List UInt8)
  | .endOfStream => [[]]
  | .dropped => []

def publications (capture : ResponseCapture) (chunks : List (List UInt8)) (ending : Ending) : List WireCapture :=
  let final := feedEach ResponseCapture.read capture (chunks ++ ending.reads)
  final.2 ++ final.1.abort.2

-- An event after which the capture has nothing more to wait for.
def settles : FramerEvent → Bool
  | .started _ => false
  | .complete _ message => !message.informational
  | .failed _ _ => true

namespace ResponseCapture

theorem applyEvents_snoc (capture : ResponseCapture) (events : List FramerEvent) (event : FramerEvent) :
    capture.applyEvents (events ++ [event]) = emitting applyEvent (capture.applyEvents events) event :=
  feedEach_snoc applyEvent capture events event

theorem applyEvents_append (capture : ResponseCapture) (early late : List FramerEvent) :
    capture.applyEvents (early ++ late) =
      (((capture.applyEvents early).1.applyEvents late).1,
        (capture.applyEvents early).2 ++ ((capture.applyEvents early).1.applyEvents late).2) :=
  feedEach_append applyEvent capture early late

theorem applyEvent_framer (capture : ResponseCapture) (framer : Http1Framer) (event : FramerEvent) :
    (capture.withFramer framer).applyEvent event =
      ((capture.applyEvent event).1.withFramer framer,(capture.applyEvent event).2) := by
  cases event with
  | started | failed => rfl
  | complete _ message =>
      obtain ⟨bytes,observed,truncated,informational⟩ := message
      cases informational <;> rfl

theorem applyEvents_framer (capture : ResponseCapture) (framer : Http1Framer) (events : List FramerEvent) :
    (capture.withFramer framer).applyEvents events =
      ((capture.applyEvents events).1.withFramer framer,(capture.applyEvents events).2) := by
  induction events using List.reverseRecOn with
  | nil => rfl
  | append_singleton seen event ih =>
      rw [applyEvents_snoc,applyEvents_snoc,ih]
      unfold emitting
      rw [applyEvent_framer]

theorem applyEvent_settles (capture : ResponseCapture) (event : FramerEvent) :
    (capture.applyEvent event).1.terminal = (capture.terminal || settles event) ∧
      (capture.applyEvent event).2.length = (if settles event then 1 else 0) := by
  cases event with
  | started _ => exact ⟨(Bool.or_false _).symm,rfl⟩
  | failed _ => exact ⟨(Bool.or_true _).symm,rfl⟩
  | complete _ message =>
      obtain ⟨bytes,observed,truncated,informational⟩ := message
      cases informational with
      | true => exact ⟨(Bool.or_false _).symm,rfl⟩
      | false => exact ⟨(Bool.or_true _).symm,rfl⟩

theorem applyEvents_settles (capture : ResponseCapture) (events : List FramerEvent) :
    (capture.applyEvents events).1.terminal = (capture.terminal || events.any settles) ∧
      (capture.applyEvents events).2.length = events.countP settles := by
  induction events using List.reverseRecOn with
  | nil => exact ⟨(Bool.or_false _).symm,rfl⟩
  | append_singleton seen event ih =>
      obtain ⟨terminal,published⟩ := applyEvent_settles (capture.applyEvents seen).1 event
      rw [applyEvents_snoc]
      unfold emitting
      constructor
      · simp [terminal,ih.1,Bool.or_assoc]
      · rw [List.length_append,ih.2,published,List.countP_append,List.countP_singleton]

theorem read_terminal (capture : ResponseCapture) (ended : capture.terminal = true) (chunk : List UInt8) :
    capture.read chunk = (capture,[]) := by
  unfold read observe
  rw [if_pos ended]

theorem read_chunk (capture : ResponseCapture) (waiting : capture.terminal = false) (filled : chunk ≠ []) :
    capture.read chunk =
      ((capture.applyEvents (capture.framer.push chunk).2).1.withFramer (capture.framer.push chunk).1,
        (capture.applyEvents (capture.framer.push chunk).2).2) := by
  have data : chunk.isEmpty = false := by simpa using filled
  rw [← applyEvents_framer]
  unfold read observe RequestCaptureState.hear
  simp [waiting,data]

-- What a capture has become of the bytes so far, if the framer has settled at
-- most once in them; the reads after that are ignored and would settle nothing.
structure Followed (start : ResponseCapture) (stream : List UInt8) (capture : ResponseCapture)
    (published : List WireCapture) : Prop where
  terminal : capture.terminal = (start.framer.push stream).2.any settles
  published : published = (start.applyEvents (start.framer.push stream).2).2
  waiting : capture.terminal = false →
    capture = (start.applyEvents (start.framer.push stream).2).1.withFramer (start.framer.push stream).1

theorem followed_read {start : ResponseCapture} (fresh : start.terminal = false)
    (followed : Followed start stream capture published) (filled : chunk ≠ [])
    (once : (start.framer.push (stream ++ chunk)).2.countP settles ≤ 1) :
    Followed start (stream ++ chunk) (capture.read chunk).1 (published ++ (capture.read chunk).2) := by
  have pushed : start.framer.push (stream ++ chunk) =
      (((start.framer.push stream).1.push chunk).1,
        (start.framer.push stream).2 ++ ((start.framer.push stream).1.push chunk).2) :=
    Http1Framer.push_bytewise.append start.framer stream chunk
  rw [pushed,List.countP_append] at once
  have settled := applyEvents_settles start (start.framer.push stream).2
  have later := applyEvents_settles (start.applyEvents (start.framer.push stream).2).1
    ((start.framer.push stream).1.push chunk).2
  cases ended : capture.terminal with
  | true =>
      rw [read_terminal capture ended,List.append_nil]
      have already := followed.terminal.symm.trans ended
      have some_there : 0 < (start.framer.push stream).2.countP settles := by
        rw [List.countP_pos_iff]
        exact List.any_eq_true.mp already
      refine ⟨?_,?_,?_⟩
      · rw [pushed,List.any_append,already]
        exact ended
      · rw [pushed,applyEvents_append,followed.published]
        have silent : ((start.applyEvents (start.framer.push stream).2).1.applyEvents
            ((start.framer.push stream).1.push chunk).2).2 = [] := by
          apply List.length_eq_zero_iff.mp
          rw [later.2]
          omega
        rw [silent,List.append_nil]
      · intro waiting
        cases ended.symm.trans waiting
  | false =>
      have same := followed.waiting ended
      have reading : capture.framer = (start.framer.push stream).1 := by
        rw [same]
        rfl
      have applied : capture.applyEvents ((start.framer.push stream).1.push chunk).2 =
          (((start.applyEvents (start.framer.push stream).2).1.applyEvents
              ((start.framer.push stream).1.push chunk).2).1.withFramer (start.framer.push stream).1,
            ((start.applyEvents (start.framer.push stream).2).1.applyEvents
              ((start.framer.push stream).1.push chunk).2).2) := by
        rw [← applyEvents_framer,← same]
      rw [read_chunk capture ended filled,reading,applied]
      refine ⟨?_,?_,?_⟩
      · rw [pushed,List.any_append]
        change ResponseCapture.terminal (applyEvents _ _).1 = _
        rw [later.1,settled.1,fresh,Bool.false_or]
      · rw [pushed,applyEvents_append,followed.published]
      · intro _
        rw [pushed,applyEvents_append]
        rfl

theorem followed_reads {start : ResponseCapture} (fresh : start.terminal = false) (chunks : List (List UInt8))
    (filled : ∀ chunk ∈ chunks, chunk ≠ []) (once : (start.framer.push chunks.flatten).2.countP settles ≤ 1) :
    Followed start chunks.flatten (feedEach read start chunks).1 (feedEach read start chunks).2 := by
  induction chunks using List.reverseRecOn with
  | nil =>
      rw [List.flatten_nil]
      refine ⟨?_,?_,?_⟩
      · rw [Http1Framer.push_nil]
        exact fresh
      · rw [Http1Framer.push_nil]
        rfl
      · rw [Http1Framer.push_nil]
        exact fun _ => rfl
  | append_singleton seen chunk ih =>
      have flat : (seen ++ [chunk]).flatten = seen.flatten ++ chunk := by simp
      rw [flat] at once ⊢
      have earlier : (start.framer.push seen.flatten).2.countP settles ≤ 1 := by
        have pushed := congrArg Prod.snd (Http1Framer.push_bytewise.append start.framer seen.flatten chunk)
        rw [pushed] at once
        simp only [andThen,List.countP_append] at once
        omega
      have before := ih (fun other member => filled other (List.mem_append_left _ member)) earlier
      rw [feedEach_snoc]
      exact followed_read fresh before (filled chunk (by simp)) once

theorem eof_settles (framer : Http1Framer) :
    framer.eof.2 = [] ∨ ∃ event, framer.eof.2 = [event] ∧ settles event = true := by
  unfold Http1Framer.eof
  split
  · split
    · exact .inr ⟨_,rfl,rfl⟩
    · exact .inl rfl
  · exact .inr ⟨_,rfl,rfl⟩
  · exact .inl rfl
  · exact .inr ⟨_,rfl,rfl⟩

-- What is published once the reads are over.
def closing (capture : ResponseCapture) (ending : Ending) : List WireCapture :=
  let final := feedEach read capture ending.reads
  final.2 ++ final.1.abort.2

theorem closing_terminal (capture : ResponseCapture) (ended : capture.terminal = true) (ending : Ending) :
    capture.closing ending = [] := by
  have quiet : capture.abort = (capture,[]) := by
    unfold abort
    rw [if_pos ended]
  cases ending with
  | dropped => exact congrArg Prod.snd quiet
  | endOfStream =>
      change ([] ++ (capture.read []).2) ++ (capture.read []).1.abort.2 = []
      rw [read_terminal capture ended,quiet]
      rfl

theorem abort_waiting (capture : ResponseCapture) (waiting : capture.terminal = false) :
    capture.abort.2 = [capture.publication (.error responseEndedBeforeCompletion)] := by
  unfold abort
  rw [waiting]
  rfl

theorem closing_once (capture : ResponseCapture) (waiting : capture.terminal = false) (ending : Ending) :
    ∃ outcome, capture.closing ending = [outcome] := by
  cases ending with
  | dropped => exact ⟨_,abort_waiting capture waiting⟩
  | endOfStream =>
      change ∃ outcome, ([] ++ (capture.read []).2) ++ (capture.read []).1.abort.2 = [outcome]
      have heard : capture.read [] =
          ((capture.applyEvents capture.framer.eof.2).1.withFramer capture.framer.eof.1,
            (capture.applyEvents capture.framer.eof.2).2) := by
        rw [← applyEvents_framer]
        unfold read observe RequestCaptureState.hear
        simp [waiting,Http1Framer.push_nil]
      obtain ⟨terminal,published⟩ := applyEvents_settles capture capture.framer.eof.2
      rw [heard,List.nil_append]
      rcases eof_settles capture.framer with silent | ⟨event,only,settled⟩
      · rw [silent] at terminal ⊢
        exact ⟨_,abort_waiting _ waiting⟩
      · have told : (capture.applyEvents capture.framer.eof.2).2.length = 1 := by
          rw [published,only,List.countP_singleton,if_pos settled]
        obtain ⟨outcome,same⟩ := List.length_eq_one_iff.mp told
        have ended : ((capture.applyEvents capture.framer.eof.2).1.withFramer capture.framer.eof.1).terminal = true := by
          change ResponseCapture.terminal (applyEvents _ _).1 = true
          rw [terminal,only,List.any_cons,settled,Bool.true_or,Bool.or_true]
        refine ⟨outcome,?_⟩
        rw [same]
        unfold abort
        rw [if_pos ended]
        rfl

end ResponseCapture

theorem publications_eq (capture : ResponseCapture) (chunks : List (List UInt8)) (ending : Ending) :
    publications capture chunks ending = (feedEach ResponseCapture.read capture chunks).2 ++
      (feedEach ResponseCapture.read capture chunks).1.closing ending := by
  unfold publications ResponseCapture.closing
  rw [feedEach_append]
  simp only [List.append_assoc]

theorem publications_once {start : ResponseCapture} (fresh : start.terminal = false) (stream : List UInt8)
    (once : (start.framer.push stream).2.countP settles ≤ 1) (ending : Ending) :
    ∃ outcome, ∀ chunks : List (List UInt8), (∀ chunk ∈ chunks, chunk ≠ []) → chunks.flatten = stream →
      publications start chunks ending = [outcome] := by
  have applied := ResponseCapture.applyEvents_settles start (start.framer.push stream).2
  cases settled : (start.framer.push stream).2.any settles with
  | true =>
      -- The stream settles the capture, and what follows is ignored.
      have some_there : 0 < (start.framer.push stream).2.countP settles := by
        rw [List.countP_pos_iff]
        exact List.any_eq_true.mp settled
      have told : (start.applyEvents (start.framer.push stream).2).2.length = 1 := by
        rw [applied.2]
        omega
      obtain ⟨outcome,same⟩ := List.length_eq_one_iff.mp told
      refine ⟨outcome,?_⟩
      intro chunks filled whole
      subst whole
      have followed := ResponseCapture.followed_reads fresh chunks filled once
      rw [publications_eq,ResponseCapture.closing_terminal _ (followed.terminal.trans settled),List.append_nil,
        followed.published,same]
  | false =>
      -- Nothing is settled before the stream is over.
      have none_there : (start.framer.push stream).2.countP settles = 0 := by
        rw [List.countP_eq_zero]
        intro event member settles
        rw [List.any_eq_false] at settled
        exact settled event member settles
      have waiting : ((start.applyEvents (start.framer.push stream).2).1.withFramer
          (start.framer.push stream).1).terminal = false := by
        change ResponseCapture.terminal (ResponseCapture.applyEvents _ _).1 = false
        rw [applied.1,fresh,settled,Bool.or_false]
      obtain ⟨outcome,closed⟩ := ResponseCapture.closing_once _ waiting ending
      refine ⟨outcome,?_⟩
      intro chunks filled whole
      subst whole
      have followed := ResponseCapture.followed_reads fresh chunks filled once
      have silent : (start.applyEvents (start.framer.push chunks.flatten).2).2 = [] := by
        apply List.length_eq_zero_iff.mp
        rw [applied.2,none_there]
      rw [publications_eq,followed.waiting (followed.terminal.trans settled),closed,followed.published,silent]
      rfl

-- A capture has one outcome, the same for every segmentation, exactly when the
-- framer settles at most once in the whole stream. The capture only looks whether it
-- is done before a read, so one read may settle it several times.
theorem one_outcome_iff (sessionId : SessionId) (transactionId : TransactionId)
    (maximumHeadBytes maximumContentBytes : Nat) (context : ResponseContext) (stream : List UInt8) (ending : Ending) :
    let start := ResponseCapture.new sessionId transactionId maximumHeadBytes maximumContentBytes context
    (∃ outcome, ∀ chunks : List (List UInt8), (∀ chunk ∈ chunks, chunk ≠ []) → chunks.flatten = stream →
      publications start chunks ending = [outcome]) ↔
      ((Http1Framer.new (.response context) maximumHeadBytes
        (saturatingAdd maximumHeadBytes maximumContentBytes)).push stream).2.countP settles ≤ 1 := by
  intro start
  constructor
  · intro determined
    obtain ⟨outcome,same⟩ := determined
    by_cases empty : stream = []
    · rw [empty,Http1Framer.push_nil]
      exact Nat.zero_le 1
    · have whole := same [stream] (by simpa using empty) (by simp)
      have read : feedEach ResponseCapture.read start [stream] = start.read stream := by
        simp [feedEach,emitting]
      rw [publications_eq,read,ResponseCapture.read_chunk start rfl empty] at whole
      have length := congrArg List.length whole
      rw [List.length_append,(ResponseCapture.applyEvents_settles start _).2,List.length_singleton] at length
      change (start.framer.push stream).2.countP settles ≤ 1
      omega
  · intro once
    exact publications_once rfl stream once ending

def twoResponses : List UInt8 := ascii "HTTP/1.1 204 No Content\r\n\r\nHTTP/1.1 204 No Content\r\n\r\n"

-- Two responses in one read are captured twice, in two reads once.
theorem two_responses_captured_twice :
    let start := ResponseCapture.new ⟨1⟩ ⟨2⟩ 64 64 ⟨false,false⟩
    (publications start [twoResponses] .endOfStream).length = 2 ∧
      (publications start [twoResponses.take 27,twoResponses.drop 27] .endOfStream).length = 1 := by
  decide +kernel

end Freja.Capture
