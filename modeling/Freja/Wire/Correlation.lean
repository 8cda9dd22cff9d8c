import Freja.Wire.Capture
import Mathlib.Data.List.Nodup

namespace Freja.Capture
open Bytes Transducer Domain Framing

-- How far the framer has come: the messages it has told, and what it makes of
-- the one after them.
inductive Stage where
  | idle
  | pending
  | broken (error : WireFramingError)

structure Progress where
  messages : List WireMessage
  stage : Stage

def Stage.fates : Stage → List (Option CaptureResult)
  | .idle => []
  | .pending => [none]
  | .broken error => [some (.error (errorText error))]

-- The result of each started message, where there is one.
def Progress.fates (progress : Progress) : List (Option CaptureResult) :=
  progress.messages.map (fun message => some (.ok message)) ++ progress.stage.fates

inductive Advance : Progress → FramerEvent → Progress → Prop where
  | started : Advance ⟨messages,.idle⟩ (.started (min messages.length u64Max)) ⟨messages,.pending⟩
  | complete : Advance ⟨messages,.pending⟩ (.complete (min messages.length u64Max) message) ⟨messages ++ [message],.idle⟩
  | failed : Advance ⟨messages,.pending⟩ (.failed (min messages.length u64Max) error) ⟨messages,.broken error⟩

inductive Advances : Progress → List FramerEvent → Progress → Prop where
  | nil : Advances progress [] progress
  | snoc : Advances progress events middle → Advance middle event next → Advances progress (events ++ [event]) next

theorem Advance.single (advance : Advance progress event next) : Advances progress [event] next := .snoc .nil advance

theorem Advances.append (early : Advances progress first middle) (late : Advances middle second next) :
    Advances progress (first ++ second) next := by
  induction late with
  | nil => simpa using early
  | snoc _ advance ih =>
      rw [← List.append_assoc]
      exact .snoc ih advance

theorem Advances.messages (advances : Advances progress events next) :
    next.messages = progress.messages ++ completed events := by
  induction advances with
  | nil => simp [completed]
  | snoc _ advance ih =>
      rw [Http1Framer.completed_append,← List.append_assoc,← ih]
      cases advance <;> simp [completed,FramerEvent.message?]

theorem startedCount_append (early late : List FramerEvent) :
    startedCount (early ++ late) = startedCount early + startedCount late := List.countP_append

theorem Advances.count (advances : Advances progress events next) :
    next.fates.length = progress.fates.length + startedCount events := by
  induction advances with
  | nil => simp [startedCount]
  | snoc _ advance ih =>
      rw [startedCount_append,← Nat.add_assoc,← ih]
      cases advance <;> simp [Progress.fates,Stage.fates,startedCount,isStarted]

-- A framer that is where its events say it is.
structure InStep (framer : Http1Framer) (progress : Progress) : Prop where
  numbered : framer.sequence = min progress.messages.length u64Max
  idle : progress.stage = .idle → framer.active = false ∧ framer.state = .head
  pending : progress.stage = .pending → framer.active = true
  broken : ∀ error, progress.stage = .broken error → framer.state = .failed

namespace InStep

variable {framer : Http1Framer}

theorem settle (inStep : InStep framer ⟨messages,.pending⟩) (verdict : Verdict) :
    ∃ next, Advances ⟨messages,.pending⟩ (framer.settle verdict).2 next ∧ InStep (framer.settle verdict).1 next := by
  have numbered : framer.sequence = min messages.length u64Max := inStep.numbered
  cases verdict with
  | more => exact ⟨_,.nil,⟨numbered,nofun,inStep.pending,nofun⟩⟩
  | broken error =>
      refine ⟨⟨messages,.broken error⟩,?_,⟨numbered,nofun,nofun,fun _ _ => rfl⟩⟩
      change Advances _ [.failed framer.sequence error] _
      rw [numbered]
      exact Advance.failed.single
  | done informational =>
      refine ⟨⟨messages ++ [⟨framer.retained,framer.observed,framer.truncated,informational⟩],.idle⟩,?_,
        ⟨?_,fun _ => ⟨rfl,rfl⟩,nofun,nofun⟩⟩
      · change Advances _ [.complete framer.sequence _] _
        rw [numbered]
        exact Advance.complete.single
      · change saturatingAdd framer.sequence 1 = _
        rw [numbered,List.length_append,List.length_singleton]
        unfold saturatingAdd
        omega

theorem heard (inStep : InStep framer progress) (alive : framer.state ≠ .failed) (byte : UInt8) :
    Advances progress framer.started ⟨progress.messages,.pending⟩ ∧
      InStep (framer.heard byte) ⟨progress.messages,.pending⟩ := by
  refine ⟨?_,⟨inStep.numbered,nofun,fun _ => rfl,nofun⟩⟩
  obtain ⟨messages,stage⟩ := progress
  unfold Http1Framer.started
  cases stage with
  | idle =>
      rw [(inStep.idle rfl).1,inStep.numbered]
      exact Advance.started.single
  | pending =>
      rw [inStep.pending rfl]
      exact .nil
  | broken error => exact absurd (inStep.broken error rfl) alive

theorem push (inStep : InStep framer progress) (bytes : List UInt8) :
    ∃ next, Advances progress (framer.push bytes).2 next ∧ InStep (framer.push bytes).1 next := by
  refine Http1Framer.push_bytewise.invariant
    (fun framer events _ => ∃ next, Advances progress events next ∧ InStep framer next) ⟨progress,.nil,inStep⟩ ?_ bytes
  intro framer events _ byte reached
  obtain ⟨middle,advances,inStep⟩ := reached
  by_cases failed : framer.state = .failed
  · rw [Http1Framer.push_failed failed,List.append_nil]
    exact ⟨middle,advances,inStep⟩
  · obtain ⟨begun,heard⟩ := inStep.heard failed byte
    obtain ⟨next,settled,after⟩ := heard.settle (framer.verdict byte)
    rw [Http1Framer.push_single failed]
    exact ⟨next,advances.append (begun.append settled),after⟩

theorem eof (inStep : InStep framer progress) :
    ∃ next, Advances progress framer.eof.2 next ∧ InStep framer.eof.1 next := by
  obtain ⟨messages,stage⟩ := progress
  unfold Http1Framer.eof
  cases stage with
  | idle =>
      obtain ⟨inactive,head⟩ := inStep.idle rfl
      rw [head,inactive]
      exact ⟨_,.nil,inStep⟩
  | broken error =>
      rw [inStep.broken error rfl]
      exact ⟨_,.nil,inStep⟩
  | pending =>
      have stopped := inStep.settle (.broken .unexpectedEof)
      cases framer.state with
      | head =>
          dsimp only
          rw [inStep.pending rfl]
          exact stopped
      | closeDelimited => exact inStep.settle (.done false)
      | failed => exact ⟨_,.nil,inStep⟩
      | _ => exact stopped

theorem hear (inStep : InStep framer progress) (bytes : List UInt8) (ended : Bool) :
    ∃ next, Advances progress (RequestCaptureState.hear framer bytes ended).2 next ∧
      InStep (RequestCaptureState.hear framer bytes ended).1 next := by
  obtain ⟨middle,pushed,inStep⟩ := inStep.push bytes
  cases ended with
  | false => exact ⟨middle,pushed,inStep⟩
  | true =>
      obtain ⟨next,finished,after⟩ := inStep.eof
      exact ⟨next,pushed.append finished,after⟩

end InStep

-- The record of a message that waits for its transaction.
def waitingRecord (fates : List (Option CaptureResult)) (number : Nat) : RequestRecord := ⟨number,none,fates[number]?.join⟩

def waiting (fates : List (Option CaptureResult)) (first count : Nat) : List RequestRecord :=
  (List.range' first count).map (waitingRecord fates)

theorem waiting_getElem? (fates : List (Option CaptureResult)) (first count index : Nat) :
    (waiting fates first count)[index]? = if index < count then some (waitingRecord fates (first + index)) else none := by
  unfold waiting
  by_cases inside : index < count
  · simp [inside]
  · simp [inside]

theorem waiting_congr (agree : ∀ number, first ≤ number → number < first + count → fates[number]? = later[number]?) :
    waiting fates first count = waiting later first count := by
  apply List.map_congr_left
  intro number member
  obtain ⟨low,high⟩ := List.mem_range'_1.mp member
  simp only [waitingRecord,agree number low high]

theorem waiting_snoc (fates : List (Option CaptureResult)) (first count : Nat) :
    waiting fates first (count + 1) = waiting fates first count ++ [waitingRecord fates (first + count)] := by
  simp [waiting,List.range'_1_concat]

theorem waiting_cons (fates : List (Option CaptureResult)) (first count : Nat) :
    waiting fates first (count + 1) = waitingRecord fates first :: waiting fates (first + 1) count := by
  simp [waiting,List.range'_succ]

-- What has been told so far, one capture for each owner in their order.
structure Answered (told : List BoundCapture) (owners : List TransactionId) (messages : List WireMessage) : Prop where
  order : told.map BoundCapture.transactionId = owners
  right : ∀ (k : Nat) owner message, told[k]? = some (.complete owner message) → messages[k]? = some message

theorem Answered.length (answered : Answered told owners messages) : told.length = owners.length := by
  rw [← answered.order,List.length_map]

theorem Answered.grow (answered : Answered told owners messages) (kept : messages <+: later) :
    Answered told owners later := by
  obtain ⟨more,rfl⟩ := kept
  refine ⟨answered.order,?_⟩
  intro k owner message found
  have here := answered.right k owner message found
  rw [List.getElem?_append_left (List.getElem?_eq_some_iff.mp here).1]
  exact here

theorem Answered.snoc (answered : Answered told owners messages) (owner : TransactionId) (result : Option CaptureResult)
    (own : ∀ message, result = some (.ok message) → messages[owners.length]? = some message) :
    Answered (told ++ [boundCapture owner result]) (owners ++ [owner]) messages := by
  have same : (boundCapture owner result).transactionId = owner := by
    unfold boundCapture
    split <;> rfl
  refine ⟨by simp [answered.order,same],?_⟩
  intro k other message found
  by_cases earlier : k < told.length
  · rw [List.getElem?_append_left earlier] at found
    exact answered.right k other message found
  · rw [List.getElem?_append_right (by omega),List.getElem?_singleton] at found
    split at found
    · rename_i last
      have position : k = owners.length := by
        rw [← answered.length]
        omega
      rw [position]
      apply own
      injection found with found
      unfold boundCapture at found
      split at found
      · injection found with _ found
        rw [found]
      · cases found
      · cases found
    · cases found

theorem Answered.failed (answered : Answered told owners messages) (owner : TransactionId) (reason : String) :
    Answered (told ++ [.failed owner reason]) (owners ++ [owner]) messages :=
  answered.snoc owner (some (.error reason)) nofun

-- The queue between the framer and the HTTP service. Records wait for their
-- transaction until the dropped tail begins; the one record that can wait for
-- its result is that of the message in progress.
inductive Correlated (progress : Progress) (owners : List TransactionId) (told : List BoundCapture)
    (state : RequestCaptureState) : Prop where
  | free (count : Nat) : state.records = waiting progress.fates owners.length count →
      owners.length + count + state.droppedTail = progress.fates.length → Answered told owners progress.messages →
      Correlated progress owners told state
  | attached (earlier : List TransactionId) (owner : TransactionId) : owners = earlier ++ [owner] →
      progress.stage = .pending → earlier.length = progress.messages.length →
      state.records = [⟨progress.messages.length,some owner,none⟩] → state.droppedTail = 0 →
      Answered told earlier progress.messages → Correlated progress owners told state

namespace RequestCaptureState

theorem setResult_waiting {state : RequestCaptureState} {sequence : Nat} (queue : state.records = waiting fates first count)
    (result : CaptureResult) (sets : later[sequence]? = some (some result))
    (agree : ∀ number, number ≠ sequence → fates[number]? = later[number]?) :
    state.setResult sequence result = ({state with records := waiting later first count},[]) := by
  have changed (number : Nat) (same : number = sequence) :
      {waitingRecord fates number with result := some result} = waitingRecord later number := by
    simp only [waitingRecord,same,sets,Option.join_some]
  have kept (number : Nat) (other : number ≠ sequence) : waitingRecord fates number = waitingRecord later number := by
    simp only [waitingRecord,agree number other]
  by_cases inside : first ≤ sequence ∧ sequence < first + count
  · have found : state.records.findIdx? (fun record => record.sequence == sequence) = some (sequence - first) := by
      rw [queue,List.findIdx?_eq_some_iff_getElem]
      refine ⟨by simp only [waiting,List.length_map,List.length_range']; omega,?_,?_⟩
      · simp only [waiting,List.getElem_map,List.getElem_range',waitingRecord,beq_iff_eq]
        omega
      · intro index early
        simp only [waiting,List.getElem_map,List.getElem_range',waitingRecord,beq_iff_eq]
        omega
    have moved : state.records.modify (sequence - first) ({· with result := some result}) = waiting later first count := by
      apply List.ext_getElem?
      intro index
      rw [List.getElem?_modify,queue,waiting_getElem?,waiting_getElem?]
      by_cases short : index < count
      · rw [if_pos short,if_pos short,Option.map_eq_map,Option.map_some]
        by_cases hit : sequence - first = index
        · rw [if_pos hit,changed (first + index) (by omega)]
        · rw [if_neg hit,kept (first + index) (by omega)]
      · rw [if_neg short,if_neg short]
        rfl
    have unbound : (waiting later first count)[sequence - first]?.any (·.transactionId.isSome) = false := by
      rw [waiting_getElem?,if_pos (by omega)]
      rfl
    simp only [setResult,found,moved,unbound,Bool.false_eq_true,if_false]
  · have missing : state.records.findIdx? (fun record => record.sequence == sequence) = none := by
      rw [queue,List.findIdx?_eq_none_iff]
      intro record member
      obtain ⟨number,within,rfl⟩ := List.mem_map.mp member
      have range := List.mem_range'_1.mp within
      simp only [waitingRecord,beq_eq_false_iff_ne]
      omega
    have same : waiting later first count = state.records := by
      rw [queue]
      refine (waiting_congr ?_).symm
      intro number low high
      apply agree
      omega
    simp only [setResult,missing,same]

theorem setResult_attached {state : RequestCaptureState} {sequence : Nat} (queue : state.records = [⟨sequence,some owner,none⟩])
    (result : CaptureResult) :
    state.setResult sequence result = ({state with records := []},[boundCapture owner (some result)]) := by
  simp [setResult,queue,release,boundRecord]

theorem bind_first {state : RequestCaptureState} {sequence : Nat} (queue : state.records = ⟨sequence,none,result⟩ :: rest)
    (owner : TransactionId) :
    state.bind owner = if result.isSome then ({state with records := rest},[boundCapture owner result])
      else ({state with records := ⟨sequence,some owner,result⟩ :: rest},[]) := by
  have found : state.records.findIdx? (·.transactionId.isNone) = some 0 := by
    rw [queue,List.findIdx?_cons]
    rfl
  simp only [bind,found]
  simp [queue,release,boundRecord]

theorem bind_dropped {state : RequestCaptureState} (empty : state.records = []) (dropped : state.droppedTail > 0)
    (owner : TransactionId) :
    state.bind owner =
      ({state with droppedTail := state.droppedTail - 1},[.failed owner correlationLimitExceeded]) := by
  simp [bind,empty,dropped]

end RequestCaptureState

namespace Progress

variable {progress : Progress}

theorem fates_length : progress.fates.length = progress.messages.length + progress.stage.fates.length := by
  simp [fates]

theorem fates_told (told : number < progress.messages.length) :
    progress.fates[number]? = progress.messages[number]?.map (fun message => some (.ok message)) := by
  unfold fates
  rw [List.getElem?_append_left (by simpa using told),List.getElem?_map]

theorem fates_rest (past : progress.messages.length ≤ number) :
    progress.fates[number]? = progress.stage.fates[number - progress.messages.length]? := by
  unfold fates
  rw [List.getElem?_append_right (by simpa using past),List.length_map]

theorem stage_fates_ok (stage : Stage) (index : Nat) (message : WireMessage) :
    stage.fates[index]?.join ≠ some (.ok message) := by
  cases stage <;> cases index <;> simp [Stage.fates]

theorem fates_ok (number : Nat) (message : WireMessage) (found : progress.fates[number]?.join = some (.ok message)) :
    progress.messages[number]? = some message := by
  by_cases told : number < progress.messages.length
  · rw [fates_told told,List.getElem?_eq_getElem told] at found
    rw [List.getElem?_eq_getElem told]
    simpa using found
  · rw [fates_rest (by omega)] at found
    exact absurd found (stage_fates_ok _ _ _)

theorem fates_none (inside : number < progress.fates.length) (unknown : progress.fates[number]?.join = none) :
    progress.stage = .pending ∧ number = progress.messages.length := by
  by_cases told : number < progress.messages.length
  · rw [fates_told told,List.getElem?_eq_getElem told] at unknown
    cases unknown
  · rw [fates_rest (by omega)] at unknown
    rw [fates_length] at inside
    cases stage : progress.stage with
    | idle =>
        simp only [stage,Stage.fates,List.length_nil] at inside
        omega
    | pending =>
        simp only [stage,Stage.fates,List.length_singleton] at inside
        exact ⟨rfl,by omega⟩
    | broken =>
        simp only [stage,Stage.fates,List.length_singleton] at inside
        have first : number - progress.messages.length = 0 := by omega
        simp [stage,first,Stage.fates] at unknown

end Progress

namespace Correlated

variable {state : RequestCaptureState}

theorem started (correlated : Correlated ⟨messages,.idle⟩ owners told state) (few : messages.length < u64Max) :
    Correlated ⟨messages,.pending⟩ owners (told ++ (state.applyEvent (.started (min messages.length u64Max))).2)
      (state.applyEvent (.started (min messages.length u64Max))).1 := by
  cases correlated with
  | attached earlier owner split pending => cases pending
  | free count queue total answered =>
      have agree (number : Nat) (inside : number < messages.length) :
          (Progress.fates ⟨messages,.idle⟩)[number]? = (Progress.fates ⟨messages,.pending⟩)[number]? := by
        rw [Progress.fates_told inside,Progress.fates_told inside]
      rw [Progress.fates_length] at total
      change _ = messages.length + 0 at total
      have same : waiting (Progress.fates ⟨messages,.idle⟩) owners.length count =
          waiting (Progress.fates ⟨messages,.pending⟩) owners.length count := by
        apply waiting_congr
        intro number _ high
        exact agree number (by omega)
      unfold RequestCaptureState.applyEvent
      dsimp only
      split
      · refine .free count (queue.trans same) ?_ (by simpa using answered)
        rw [Progress.fates_length,saturatingAdd_exact (by omega)]
        change _ = messages.length + 1
        dsimp only
        omega
      · rename_i room
        have whole : state.droppedTail = 0 := by omega
        refine .free (count + 1) ?_ ?_ (by simpa using answered)
        · have last : owners.length + count = messages.length := by omega
          rw [waiting_snoc,← same,← queue,last,Nat.min_eq_left (by omega)]
          simp [waitingRecord,Progress.fates,Stage.fates]
        · rw [Progress.fates_length]
          change _ = messages.length + 1
          dsimp only
          omega

theorem finish (correlated : Correlated ⟨messages,.pending⟩ owners told state) (few : messages.length < u64Max)
    (result : CaptureResult) (next : Progress)
    (same : next.fates = messages.map (fun message => some (.ok message)) ++ [some result])
    (kept : messages <+: next.messages) :
    Correlated next owners (told ++ (state.setResult (min messages.length u64Max) result).2)
      (state.setResult (min messages.length u64Max) result).1 := by
  have sets : next.fates[messages.length]? = some (some result) := by
    rw [same,List.getElem?_append_right (by simp)]
    simp
  have long : next.fates.length = messages.length + 1 := by simp [same]
  rw [Nat.min_eq_left (by omega)]
  cases correlated with
  | free count queue total answered =>
      have agree (number : Nat) (other : number ≠ messages.length) :
          (Progress.fates ⟨messages,.pending⟩)[number]? = next.fates[number]? := by
        rw [same]
        by_cases earlier : number < messages.length
        · rw [Progress.fates_told earlier,List.getElem?_append_left (by simpa using earlier),List.getElem?_map]
        · have beyond : messages.length + 1 ≤ number := by omega
          rw [List.getElem?_eq_none (by simpa [Progress.fates,Stage.fates] using beyond),
            List.getElem?_eq_none (by simpa using beyond)]
      rw [RequestCaptureState.setResult_waiting queue result sets agree]
      refine .free count rfl ?_ (by simpa using answered.grow kept)
      rw [Progress.fates_length] at total
      change _ = messages.length + 1 at total
      dsimp only
      omega
  | attached earlier owner split pending position queue whole answered =>
      rw [RequestCaptureState.setResult_attached queue]
      refine .free 0 rfl ?_ ?_
      · rw [split,List.length_append,position,whole,long]
        rfl
      · rw [split]
        refine (answered.grow kept).snoc owner _ ?_
        intro message done
        rw [position]
        apply Progress.fates_ok
        rw [sets,← done]
        rfl

theorem advance (correlated : Correlated progress owners told state) (advance : Advance progress event next)
    (few : next.fates.length ≤ u64Max) :
    Correlated next owners (told ++ (state.applyEvent event).2) (state.applyEvent event).1 := by
  rw [Progress.fates_length] at few
  cases advance with
  | started => exact correlated.started few
  | @complete messages message =>
      simp only [List.length_append,List.length_singleton] at few
      refine correlated.finish (by omega) (.ok message) _ ?_ (List.prefix_append _ _)
      simp [Progress.fates,Stage.fates]
  | failed => exact correlated.finish few (.error _) _ rfl (List.prefix_refl _)

theorem bind (correlated : Correlated progress owners told state) (due : owners.length < progress.fates.length)
    (owner : TransactionId) :
    Correlated progress (owners ++ [owner]) (told ++ (state.bind owner).2) (state.bind owner).1 := by
  cases correlated with
  | attached earlier last split pending position =>
      rw [Progress.fates_length,pending,split,List.length_append,position] at due
      exact absurd due (Nat.lt_irrefl _)
  | free count queue total answered =>
      cases count with
      | zero =>
          -- Every message that waits has been dropped from the queue.
          have empty : state.records = [] := queue
          have dropped : state.droppedTail > 0 := by omega
          rw [RequestCaptureState.bind_dropped empty dropped]
          refine .free 0 empty ?_ (answered.failed owner _)
          rw [List.length_append,List.length_singleton]
          dsimp only
          omega
      | succ count =>
          rw [waiting_cons,waitingRecord] at queue
          rw [RequestCaptureState.bind_first queue]
          cases fate : progress.fates[owners.length]?.join with
          | some result =>
              have present : (some result).isSome = true := rfl
              rw [if_pos present]
              refine .free count ?_ ?_ ?_
              · rw [List.length_append,List.length_singleton]
              · rw [List.length_append,List.length_singleton]
                dsimp only
                omega
              · apply answered.snoc
                intro message done
                apply Progress.fates_ok
                rw [fate,done]
          | none =>
              have absent : ¬ (none : Option CaptureResult).isSome = true := Bool.false_ne_true
              rw [if_neg absent]
              obtain ⟨pending,position⟩ := Progress.fates_none due fate
              rw [Progress.fates_length,pending] at total
              change _ = progress.messages.length + 1 at total
              have last : count = 0 := by omega
              subst last
              refine .attached owners owner rfl pending position ?_ ?_ (by simpa using answered)
              · rw [← position]
                rfl
              · dsimp only
                omega

theorem abort (correlated : Correlated progress owners told state) :
    Answered (told ++ state.abort.2) owners progress.messages := by
  cases correlated with
  | free count queue total answered =>
      have silent : state.abort.2 = [] := by
        simp only [RequestCaptureState.abort,queue,List.filterMap_eq_nil_iff]
        intro record member
        obtain ⟨number,_,rfl⟩ := List.mem_map.mp member
        rfl
      rw [silent,List.append_nil]
      exact answered
  | attached earlier owner split pending position queue whole answered =>
      have ended : state.abort.2 = [.failed owner endedBeforeCompletion] := by
        simp [RequestCaptureState.abort,queue]
      rw [ended,split]
      exact answered.failed owner _

theorem reframe (correlated : Correlated progress owners told state) (framer : Http1Framer) (eof : Bool) :
    Correlated progress owners told {state with framer := framer,eof := eof} := by
  cases correlated with
  | free count queue total answered => exact .free count queue total answered
  | attached earlier owner split pending position queue whole answered =>
      exact .attached earlier owner split pending position queue whole answered

theorem applyEvents (correlated : Correlated progress owners told state) (advances : Advances progress events next)
    (few : next.fates.length ≤ u64Max) :
    Correlated next owners (told ++ (state.applyEvents events).2) (state.applyEvents events).1 := by
  induction advances with
  | nil => simpa [RequestCaptureState.applyEvents,feedEach] using correlated
  | @snoc events middle event next advances advance ih =>
      have grown := advance.single.count
      have before := ih (by omega)
      unfold RequestCaptureState.applyEvents at before ⊢
      rw [feedEach_snoc,emitting,← List.append_assoc]
      exact before.advance advance few

end Correlated

-- A step of the queue leaves the framer and the flags as they were.
def Requeued (state next : RequestCaptureState) : Prop :=
  ∃ records droppedTail, next = {state with records := records,droppedTail := droppedTail}

namespace Requeued

theorem refl (state : RequestCaptureState) : Requeued state state := ⟨_,_,rfl⟩

theorem trans (early : Requeued state middle) (late : Requeued middle next) : Requeued state next := by
  obtain ⟨_,_,rfl⟩ := early
  obtain ⟨_,_,rfl⟩ := late
  exact ⟨_,_,rfl⟩

theorem setResult (state : RequestCaptureState) (sequence : Nat) (result : CaptureResult) :
    Requeued state (state.setResult sequence result).1 := by
  unfold RequestCaptureState.setResult
  split
  · exact refl state
  · dsimp only
    split <;> exact ⟨_,_,rfl⟩

theorem applyEvent (state : RequestCaptureState) (event : FramerEvent) : Requeued state (state.applyEvent event).1 := by
  cases event with
  | started =>
      unfold RequestCaptureState.applyEvent
      dsimp only
      split <;> exact ⟨_,_,rfl⟩
  | complete sequence | failed sequence => exact setResult state sequence _

theorem bind (state : RequestCaptureState) (owner : TransactionId) : Requeued state (state.bind owner).1 := by
  unfold RequestCaptureState.bind
  split
  · dsimp only
    split <;> exact ⟨_,_,rfl⟩
  · split
    · exact ⟨_,_,rfl⟩
    · exact refl state

theorem applyEvents (state : RequestCaptureState) (events : List FramerEvent) :
    Requeued state (state.applyEvents events).1 :=
  feedEach_invariant (fun next _ _ => Requeued state next) (refl state)
    (fun _ _ _ event reached => reached.trans (applyEvent _ event)) events

end Requeued

-- The capacity holds whatever the framer tells and whoever binds.
structure Held (limit : Nat) (state : RequestCaptureState) : Prop where
  capacity : state.maximumRecords = limit
  records : state.records.length ≤ limit

namespace Held

variable {state : RequestCaptureState}

theorem of_shorter (held : Held limit state) (requeued : Requeued state next)
    (shorter : next.records.length ≤ state.records.length) : Held limit next := by
  obtain ⟨records,droppedTail,rfl⟩ := requeued
  exact ⟨held.capacity,Nat.le_trans shorter held.records⟩

theorem setResult_shorter (state : RequestCaptureState) (sequence : Nat) (result : CaptureResult) :
    (state.setResult sequence result).1.records.length ≤ state.records.length := by
  unfold RequestCaptureState.setResult
  split
  · exact Nat.le_refl _
  · dsimp only
    split
    · exact Nat.le_trans (List.length_eraseIdx_le _ _) (by simp)
    · simp

theorem bind_shorter (state : RequestCaptureState) (owner : TransactionId) :
    (state.bind owner).1.records.length ≤ state.records.length := by
  unfold RequestCaptureState.bind
  split
  · dsimp only
    split
    · exact Nat.le_trans (List.length_eraseIdx_le _ _) (by simp)
    · simp
  · split <;> exact Nat.le_refl _

theorem applyEvent (held : Held limit state) (event : FramerEvent) : Held limit (state.applyEvent event).1 := by
  cases event with
  | started sequence =>
      unfold RequestCaptureState.applyEvent
      dsimp only
      split
      · exact ⟨held.capacity,held.records⟩
      · rename_i room
        have below := held.records
        rw [held.capacity] at room
        refine ⟨held.capacity,?_⟩
        simp only [List.length_append,List.length_singleton]
        omega
  | complete sequence | failed sequence =>
      exact held.of_shorter (Requeued.setResult state sequence _) (setResult_shorter state sequence _)

theorem applyEvents (held : Held limit state) (events : List FramerEvent) : Held limit (state.applyEvents events).1 :=
  feedEach_invariant (fun next _ _ => Held limit next) held (fun _ _ _ event reached => reached.applyEvent event) events

theorem perform (held : Held limit state) (action : Action) : Held limit (perform state action).1 := by
  cases action with
  | bind owner => exact held.of_shorter (Requeued.bind state owner) (bind_shorter state owner)
  | observe bytes eof =>
      change Held limit (state.observe bytes eof).1
      unfold RequestCaptureState.observe
      split
      · exact held
      · have again : Held limit {state with framer := (RequestCaptureState.hear state.framer bytes eof).1,eof := eof} :=
          ⟨held.capacity,held.records⟩
        exact again.applyEvents _

theorem run (held : Held limit state) (actions : List Action) : Held limit (run state actions).1 :=
  feedEach_invariant (fun next _ _ => Held limit next) held (fun _ _ _ action reached => reached.perform action) actions

end Held

@[simp] theorem bound_observe (actions : List Action) (bytes : List UInt8) (eof : Bool) :
    bound (actions ++ [.observe bytes eof]) = bound actions :=
  List.filterMap_append.trans (List.append_nil _)

@[simp] theorem bound_bind (actions : List Action) (owner : TransactionId) :
    bound (actions ++ [.bind owner]) = bound actions ++ [owner] := List.filterMap_append

theorem watch_snoc (framer : Http1Framer) (actions : List Action) (action : Action) :
    watch framer (actions ++ [action]) = emitting Watch.next (watch framer actions) action :=
  feedEach_snoc _ _ _ _

@[simp] theorem watch_bind (framer : Http1Framer) (actions : List Action) (owner : TransactionId) :
    watch framer (actions ++ [.bind owner]) = watch framer actions := by
  rw [watch_snoc,emitting]
  exact Prod.ext rfl (List.append_nil _)

namespace Timely

variable {framer : Http1Framer}

theorem init (timely : Timely framer (actions ++ late)) : Timely framer actions := by
  intro before owner after split
  apply timely before owner (after ++ late)
  rw [split,List.append_assoc,List.cons_append]

theorem last (timely : Timely framer (actions ++ [.bind owner])) :
    (bound actions).length < startedCount (watchedEvents framer actions) := timely actions owner [] rfl

theorem snoc (timely : Timely framer actions) (action : Action)
    (due : ∀ owner, action = .bind owner → (bound actions).length < startedCount (watchedEvents framer actions)) :
    Timely framer (actions ++ [action]) := by
  intro before owner after split
  cases after using List.reverseRecOn with
  | nil =>
      obtain ⟨rfl,same⟩ := List.append_inj' split rfl
      exact due owner (List.cons.inj same).1
  | append_singleton after =>
      rw [← List.cons_append,← List.append_assoc] at split
      exact timely before owner after (List.append_inj' split rfl).1

end Timely

-- The capture state of a connection beside its framer alone.
structure Tracks (framer : Http1Framer) (actions : List Action) (state : RequestCaptureState)
    (told : List BoundCapture) (progress : Progress) : Prop where
  enabled : state.enabled = true
  watched : state.framer = (watch framer actions).1.framer
  ended : state.eof = (watch framer actions).1.ended
  advances : Advances ⟨[],.idle⟩ (watchedEvents framer actions) progress
  inStep : InStep state.framer progress
  correlated : Correlated progress (bound actions) told state

namespace Tracks

variable {framer : Http1Framer}

theorem count (tracks : Tracks framer actions state told progress) :
    progress.fates.length = startedCount (watchedEvents framer actions) := by
  rw [tracks.advances.count]
  exact Nat.zero_add _

theorem observe (tracks : Tracks framer actions state told progress) (bytes : List UInt8) (eof : Bool)
    (few : startedCount (watchedEvents framer (actions ++ [.observe bytes eof])) ≤ u64Max) :
    ∃ next, Tracks framer (actions ++ [.observe bytes eof]) (state.observe bytes eof).1
      (told ++ (state.observe bytes eof).2) next := by
  have snoc := watch_snoc framer actions (.observe bytes eof)
  unfold watchedEvents at few
  cases ended : state.eof with
  | true =>
      have deaf : state.observe bytes eof = (state,[]) := by simp [RequestCaptureState.observe,ended]
      have silent : watch framer (actions ++ [.observe bytes eof]) = watch framer actions := by
        rw [snoc]
        simp [emitting,Watch.next,← tracks.ended,ended]
      rw [deaf,List.append_nil]
      refine ⟨progress,tracks.enabled,?_,?_,?_,tracks.inStep,?_⟩
      · rw [silent]
        exact tracks.watched
      · rw [silent]
        exact tracks.ended
      · rw [watchedEvents,silent]
        exact tracks.advances
      · rw [bound_observe]
        exact tracks.correlated
  | false =>
      obtain ⟨next,advances,inStep⟩ := tracks.inStep.hear bytes eof
      have unended : (watch framer actions).1.ended = false := tracks.ended ▸ ended
      have heard : watch framer (actions ++ [.observe bytes eof]) =
          (⟨(RequestCaptureState.hear state.framer bytes eof).1,eof⟩,
            watchedEvents framer actions ++ (RequestCaptureState.hear state.framer bytes eof).2) := by
        rw [snoc,tracks.watched]
        simp [emitting,Watch.next,unended,watchedEvents]
      have whole := tracks.advances.append advances
      have listens : state.observe bytes eof = RequestCaptureState.applyEvents
          {state with framer := (RequestCaptureState.hear state.framer bytes eof).1,eof := eof}
          (RequestCaptureState.hear state.framer bytes eof).2 := by
        simp [RequestCaptureState.observe,ended,tracks.enabled]
      have correlated := (tracks.correlated.reframe (RequestCaptureState.hear state.framer bytes eof).1 eof).applyEvents
        advances (by rw [whole.count]; rw [heard] at few; simpa [Progress.fates,Stage.fates] using few)
      obtain ⟨records,droppedTail,same⟩ := Requeued.applyEvents
        {state with framer := (RequestCaptureState.hear state.framer bytes eof).1,eof := eof}
        (RequestCaptureState.hear state.framer bytes eof).2
      rw [← listens] at same correlated
      refine ⟨next,?_,?_,?_,?_,?_,?_⟩
      · rw [same]
        exact tracks.enabled
      · rw [same,heard]
      · rw [same,heard]
      · rw [watchedEvents,heard]
        exact whole
      · rw [same]
        exact inStep
      · rw [bound_observe]
        exact correlated

theorem bind (tracks : Tracks framer actions state told progress) (owner : TransactionId)
    (timely : Timely framer (actions ++ [.bind owner])) :
    Tracks framer (actions ++ [.bind owner]) (state.bind owner).1 (told ++ (state.bind owner).2) progress := by
  have due := timely.last
  rw [← tracks.count] at due
  have correlated := tracks.correlated.bind due owner
  obtain ⟨records,droppedTail,same⟩ := Requeued.bind state owner
  refine ⟨?_,?_,?_,?_,?_,?_⟩
  · rw [same]
    exact tracks.enabled
  · rw [same,watch_bind]
    exact tracks.watched
  · rw [same,watch_bind]
    exact tracks.ended
  · rw [watchedEvents,watch_bind]
    exact tracks.advances
  · rw [same]
    exact tracks.inStep
  · rw [bound_bind]
    exact correlated

end Tracks

theorem new_tracks (maximumHeadBytes maximumContentBytes maximumRecords : Nat) (nonzero : maximumRecords ≠ 0) :
    let start := RequestCaptureState.new maximumHeadBytes maximumContentBytes maximumRecords nonzero
    Tracks start.framer [] start [] ⟨[],.idle⟩ := by
  intro start
  exact ⟨rfl,rfl,rfl,.nil,⟨rfl,fun _ => ⟨rfl,rfl⟩,nofun,nofun⟩,.free 0 rfl rfl ⟨rfl,nofun⟩⟩

theorem run_tracks (tracks : Tracks framer [] start [] ⟨[],.idle⟩) (actions : List Action)
    (timely : Timely framer actions) (few : startedCount (watchedEvents framer actions) ≤ u64Max) :
    ∃ progress, Tracks framer actions (run start actions).1 (run start actions).2 progress := by
  refine feedEach_invariant (fun state told seen => Timely framer seen → startedCount (watchedEvents framer seen) ≤ u64Max →
    ∃ progress, Tracks framer seen state told progress) (fun _ _ => ⟨_,tracks⟩) ?_ actions timely few
  intro state told seen action before timely few
  have grown : startedCount (watchedEvents framer seen) ≤ startedCount (watchedEvents framer (seen ++ [action])) := by
    simp only [watchedEvents,watch_snoc,emitting,startedCount_append]
    omega
  obtain ⟨progress,tracks⟩ := before timely.init (by omega)
  cases action with
  | observe bytes eof => exact tracks.observe bytes eof few
  | bind owner => exact ⟨progress,tracks.bind owner timely⟩

theorem captures_answered (maximumHeadBytes maximumContentBytes maximumRecords : Nat) (nonzero : maximumRecords ≠ 0)
    (actions : List Action) :
    let start := RequestCaptureState.new maximumHeadBytes maximumContentBytes maximumRecords nonzero
    let events := watchedEvents start.framer actions
    Timely start.framer actions → startedCount events ≤ u64Max →
      Answered (captures start actions) (bound actions) (completed events) := by
  intro start events timely few
  obtain ⟨progress,tracks⟩ := run_tracks
    (new_tracks maximumHeadBytes maximumContentBytes maximumRecords nonzero) actions timely few
  have told : progress.messages = completed events := tracks.advances.messages
  rw [← told]
  exact tracks.correlated.abort

theorem filter_single {α : Type u} {β : Type v} [DecidableEq β] {items : List α} (key : α → β) (distinct : (items.map key).Nodup)
    (k : Nat) (item : α) (found : items[k]? = some item) : items.filter (fun other => key other = key item) = [item] := by
  induction items generalizing k with
  | nil => simp at found
  | cons first rest ih =>
      obtain ⟨fresh,distinct⟩ := List.nodup_cons.mp distinct
      cases k with
      | zero =>
          cases found
          have none_left : rest.filter (fun other => key other = key item) = [] := by
            rw [List.filter_eq_nil_iff]
            intro other member same
            exact fresh (List.mem_map.mpr ⟨other,member,of_decide_eq_true same⟩)
          simp [none_left]
      | succ k =>
          have other : key first ≠ key item := by
            intro same
            exact fresh (List.mem_map.mpr ⟨item,List.mem_of_getElem? found,same.symm⟩)
          rw [List.filter_cons_of_neg (by simpa using other)]
          exact ih distinct k found

theorem Answered.single (answered : Answered told owners messages) (distinct : owners.Nodup)
    (k : Nat) (owner : TransactionId) (found : owners[k]? = some owner) :
    ∃ capture, told.filter (fun capture => capture.transactionId = owner) = [capture] ∧ told[k]? = some capture := by
  rw [← answered.order,List.getElem?_map,Option.map_eq_some_iff] at found
  obtain ⟨capture,here,rfl⟩ := found
  refine ⟨capture,?_,here⟩
  rw [← answered.order] at distinct
  exact filter_single BoundCapture.transactionId distinct k capture here

theorem captures_attributed (maximumHeadBytes maximumContentBytes maximumRecords : Nat) (nonzero : maximumRecords ≠ 0)
    (actions : List Action) :
    let start := RequestCaptureState.new maximumHeadBytes maximumContentBytes maximumRecords nonzero
    let events := watchedEvents start.framer actions
    Timely start.framer actions → (bound actions).Nodup → startedCount events ≤ u64Max →
      (∀ (k : Nat) owner, (bound actions)[k]? = some owner →
        ∃ capture, (captures start actions).filter (fun capture => capture.transactionId = owner) = [capture] ∧
          ((∃ message, capture = .complete owner message ∧ (completed events)[k]? = some message) ∨
            ∃ reason, capture = .failed owner reason)) ∧
      -- At no time: not between two actions, nor after any of the events that one read brings.
      (∀ before after, actions = before ++ after → ∀ framer eof heard,
        (RequestCaptureState.applyEvents {(run start before).1 with framer := framer,eof := eof} heard).1.records.length ≤
          maximumRecords) := by
  intro start events timely distinct few
  have answered : Answered (captures start actions) (bound actions) (completed events) :=
    captures_answered maximumHeadBytes maximumContentBytes maximumRecords nonzero actions timely few
  refine ⟨?_,?_⟩
  · intro k owner found
    obtain ⟨capture,single,here⟩ := answered.single distinct k owner found
    have mine : capture.transactionId = owner := by
      have member : capture ∈ (captures start actions).filter (fun capture => capture.transactionId = owner) := by
        rw [single]
        exact List.mem_singleton_self capture
      simpa using (List.mem_filter.mp member).2
    refine ⟨capture,single,?_⟩
    cases capture with
    | complete other message =>
        cases mine
        exact .inl ⟨message,rfl,answered.right k _ message here⟩
    | failed other reason =>
        cases mine
        exact .inr ⟨reason,rfl⟩
  · intro before after _ framer eof heard
    have empty : Held maximumRecords start := ⟨rfl,Nat.zero_le _⟩
    have reached := empty.run before
    have held : Held maximumRecords {(run start before).1 with framer := framer,eof := eof} :=
      ⟨reached.capacity,reached.records⟩
    exact (held.applyEvents heard).records

def shortRequest (letter : UInt8) : List UInt8 := [letter,13,10,13,10]

def shortMessage (letter : UInt8) : WireMessage := ⟨shortRequest letter,5,false,false⟩

def numbered (sequence : Nat) : Http1Framer := {Http1Framer.new .request 16 16 with sequence := sequence}

def between (sequence : Nat) : RequestCaptureState :=
  {RequestCaptureState.new 16 0 2 (Nat.succ_ne_zero 1) with framer := numbered sequence}

theorem push_short (sequence : Nat) (letter : UInt8) (plain : letter = 97 ∨ letter = 98) :
    (numbered sequence).push (shortRequest letter) =
      (numbered (saturatingAdd sequence 1),[.started sequence,.complete sequence (shortMessage letter)]) := by
  have first : Verdict.ofHead .request 16 [letter] = .more .head := by rcases plain with rfl | rfl <;> decide +kernel
  have second : Verdict.ofHead .request 16 [letter,13] = .more .head := by rcases plain with rfl | rfl <;> decide +kernel
  have third : Verdict.ofHead .request 16 [letter,13,10] = .more .head := by
    rcases plain with rfl | rfl <;> decide +kernel
  have fourth : Verdict.ofHead .request 16 [letter,13,10,13] = .more .head := by
    rcases plain with rfl | rfl <;> decide +kernel
  have last : Verdict.ofHead .request 16 [letter,13,10,13,10] = .done false := by
    rcases plain with rfl | rfl <;> decide +kernel
  rw [Http1Framer.push_steps]
  simp [shortRequest,Http1Framer.steps,Http1Framer.step,numbered,Http1Framer.verdict,Http1Framer.heard,
    Http1Framer.activate,Http1Framer.new,Http1Framer.appendBytes,Http1Framer.settle,Http1Framer.started,first,second,
    third,fourth,last,Http1Framer.complete,Http1Framer.reset,shortMessage]
  decide

-- Two pipelined requests, bound after both have arrived.
theorem captures_attributed_pipelined :
    let start := RequestCaptureState.new 16 0 2 (Nat.succ_ne_zero 1)
    let actions : List Action := [.observe (shortRequest 97) false,.observe (shortRequest 98) false,.bind ⟨0⟩,.bind ⟨1⟩]
    let events := watchedEvents start.framer actions
    Timely start.framer actions ∧ (bound actions).Nodup ∧ startedCount events ≤ u64Max ∧
      ∃ capture, (captures start actions).filter (fun capture => capture.transactionId = ⟨1⟩) = [capture] ∧
        ((∃ message, capture = .complete ⟨1⟩ message ∧ (completed events)[1]? = some message) ∨
          ∃ reason, capture = .failed ⟨1⟩ reason) := by
  intro start actions events
  have both : watch start.framer ([.observe (shortRequest 97) false] ++ [.observe (shortRequest 98) false]) =
      (⟨numbered 2,false⟩,[.started 0,.complete 0 (shortMessage 97),.started 1,.complete 1 (shortMessage 98)]) := by
    have first := push_short 0 97 (.inl rfl)
    have second := push_short 1 98 (.inr rfl)
    change feedEach Watch.next ⟨numbered 0,false⟩ _ = _
    simp [feedEach,emitting,Watch.next,RequestCaptureState.hear,first,second,saturatingAdd,u64Max]
  have nothing : Timely start.framer [] := fun before owner after split => by simp at split
  have arrived : Timely start.framer ([.observe (shortRequest 97) false] ++ [.observe (shortRequest 98) false]) :=
    (nothing.snoc _ (fun _ other => Action.noConfusion other)).snoc _ (fun _ other => Action.noConfusion other)
  have timely : Timely start.framer actions := by
    refine (arrived.snoc (.bind ⟨0⟩) ?_).snoc (.bind ⟨1⟩) ?_
    · intro owner _
      rw [watchedEvents,both]
      decide
    · intro owner _
      rw [watchedEvents,watch_bind,both]
      decide
  have distinct : (bound actions).Nodup := by decide
  have few : startedCount events ≤ u64Max := by
    change startedCount (watchedEvents start.framer
      ([.observe (shortRequest 97) false] ++ [.observe (shortRequest 98) false] ++ [.bind ⟨0⟩] ++ [.bind ⟨1⟩])) ≤ u64Max
    rw [watchedEvents,watch_bind,watch_bind,both]
    decide
  exact ⟨timely,distinct,few,
    (captures_attributed 16 0 2 (Nat.succ_ne_zero 1) actions timely distinct few).1 1 ⟨1⟩ rfl⟩

-- Sequence numbers saturate: from the last number on, messages share it, and
-- the result of a later one lands on the earliest record that still waits.
-- So many requests, each bound before the next one arrives.
def crowd : Nat → List Action
  | 0 => []
  | count + 1 => crowd count ++ [.observe (shortRequest 97) false] ++ [.bind ⟨count⟩]

theorem next_number (count : Nat) : saturatingAdd (min count u64Max) 1 = min (count + 1) u64Max := by
  unfold saturatingAdd
  omega

theorem crowd_watched (count : Nat) :
    ∃ events, watch (numbered 0) (crowd count) = (⟨numbered (min count u64Max),false⟩,events) ∧
      completed events = List.replicate count (shortMessage 97) ∧ startedCount events = count := by
  induction count with
  | zero => exact ⟨[],rfl,rfl,rfl⟩
  | succ count ih =>
      obtain ⟨events,same,messages,started⟩ := ih
      refine ⟨events ++ [.started (min count u64Max),.complete (min count u64Max) (shortMessage 97)],?_,?_,?_⟩
      · rw [crowd,watch_bind,watch_snoc,same]
        simp [emitting,Watch.next,RequestCaptureState.hear,push_short _ 97 (.inl rfl),next_number]
      · rw [Http1Framer.completed_append,messages,List.replicate_succ']
        rfl
      · rw [startedCount_append,started]
        rfl

theorem between_observe (sequence : Nat) :
    (between sequence).observe (shortRequest 97) false =
      ({between (saturatingAdd sequence 1) with records := [⟨sequence,none,some (.ok (shortMessage 97))⟩]},[]) := by
  have heard := push_short sequence 97 (.inl rfl)
  simp [RequestCaptureState.observe,RequestCaptureState.hear,between,heard,RequestCaptureState.new,
    RequestCaptureState.applyEvents,feedEach,emitting,RequestCaptureState.applyEvent,RequestCaptureState.setResult,
    List.findIdx?_cons]

theorem crowd_run (count : Nat) : run (between 0) (crowd count) =
    (between (min count u64Max),(List.range count).map (fun k => .complete ⟨k⟩ (shortMessage 97))) := by
  induction count with
  | zero => rfl
  | succ count ih =>
      unfold run at ih ⊢
      rw [crowd,feedEach_snoc,feedEach_snoc,ih,List.range_succ,List.map_append]
      simp only [emitting,perform,between_observe,next_number]
      rw [RequestCaptureState.bind_first rfl]
      simp [boundCapture,between,RequestCaptureState.new]

theorem crowd_bound (count : Nat) : bound (crowd count) = (List.range count).map TransactionId.mk := by
  induction count with
  | zero => rfl
  | succ count ih =>
      rw [crowd,bound_bind,bound_observe,ih,List.range_succ,List.map_append]
      rfl

theorem crowd_heard (count : Nat) :
    ∃ events, watch (numbered 0) (crowd count ++ [.observe (shortRequest 97) false]) =
        (⟨numbered (min (count + 1) u64Max),false⟩,events) ∧
      completed events = List.replicate (count + 1) (shortMessage 97) ∧ startedCount events = count + 1 := by
  obtain ⟨events,same,messages,started⟩ := crowd_watched (count + 1)
  rw [crowd,watch_bind] at same
  exact ⟨events,same,messages,started⟩

theorem crowd_timely (count : Nat) : Timely (numbered 0) (crowd count) := by
  induction count with
  | zero =>
      intro before owner after split
      simp [crowd] at split
  | succ count ih =>
      have waits : Timely (numbered 0) (crowd count ++ [.observe (shortRequest 97) false]) :=
        ih.snoc _ (fun _ other => Action.noConfusion other)
      refine waits.snoc _ ?_
      intro owner _
      obtain ⟨events,same,_,started⟩ := crowd_heard count
      rw [watchedEvents,same,started,bound_observe,crowd_bound]
      simp

def overcrowded (count : Nat) : List Action :=
  crowd count ++ [.observe (shortRequest 97) false] ++ [.observe (shortRequest 98) false] ++ [.bind ⟨count⟩]

theorem overcrowded_watched (count : Nat) :
    (completed (watchedEvents (numbered 0) (overcrowded count)))[count]? = some (shortMessage 97) := by
  obtain ⟨events,same,messages,_⟩ := crowd_heard count
  unfold overcrowded watchedEvents
  rw [watch_bind,watch_snoc,same,emitting]
  dsimp only
  rw [Http1Framer.completed_append,messages,List.getElem?_append_left (by simp)]
  simp

theorem overcrowded_timely (count : Nat) : Timely (numbered 0) (overcrowded count) := by
  have waits : Timely (numbered 0) (crowd count ++ [.observe (shortRequest 97) false]) :=
    (crowd_timely count).snoc _ (fun _ other => Action.noConfusion other)
  have more : Timely (numbered 0) (crowd count ++ [.observe (shortRequest 97) false] ++ [.observe (shortRequest 98) false]) :=
    waits.snoc _ (fun _ other => Action.noConfusion other)
  refine more.snoc _ ?_
  intro owner _
  obtain ⟨events,same,_,started⟩ := crowd_heard count
  rw [watchedEvents,watch_snoc,same,emitting,startedCount_append,started,bound_observe,bound_observe,crowd_bound]
  simp only [List.length_map,List.length_range]
  omega

theorem overcrowded_bound (count : Nat) : bound (overcrowded count) = (List.range (count + 1)).map TransactionId.mk := by
  unfold overcrowded
  rw [bound_bind,bound_observe,bound_observe,crowd_bound,List.range_succ,List.map_append]
  rfl

-- Two records of one number: the result of the second lands on the first.
theorem shared_observe (sequence : Nat) (result : Option CaptureResult) :
    RequestCaptureState.observe {between sequence with records := [⟨sequence,none,result⟩]} (shortRequest 98) false =
      ({between (saturatingAdd sequence 1) with
        records := [⟨sequence,none,some (.ok (shortMessage 98))⟩,⟨sequence,none,none⟩]},[]) := by
  have heard := push_short sequence 98 (.inr rfl)
  simp [RequestCaptureState.observe,RequestCaptureState.hear,between,heard,RequestCaptureState.new,
    RequestCaptureState.applyEvents,feedEach,emitting,RequestCaptureState.applyEvent,RequestCaptureState.setResult,
    List.findIdx?_cons]

theorem overcrowded_captures (count : Nat) (saturated : u64Max ≤ count) :
    (captures (between 0) (overcrowded count))[count]? = some (.complete ⟨count⟩ (shortMessage 98)) := by
  have last : min count u64Max = u64Max := by omega
  have still : saturatingAdd u64Max 1 = u64Max := by
    unfold saturatingAdd
    omega
  have told : (run (between 0) (overcrowded count)).2 =
      (List.range count).map (fun k => .complete ⟨k⟩ (shortMessage 97)) ++ [.complete ⟨count⟩ (shortMessage 98)] := by
    have before := crowd_run count
    unfold run overcrowded at *
    rw [feedEach_snoc,feedEach_snoc,feedEach_snoc,before,last]
    simp only [emitting,perform,between_observe,still,shared_observe]
    rw [RequestCaptureState.bind_first rfl]
    simp [boundCapture]
  unfold captures
  dsimp only
  rw [told,List.append_assoc,List.getElem?_append_right (by simp)]
  simp

theorem capture_numbers_saturate :
    let start := RequestCaptureState.new 16 0 2 (Nat.succ_ne_zero 1)
    let actions := overcrowded u64Max
    Timely start.framer actions ∧ (bound actions).Nodup ∧ (bound actions)[u64Max]? = some ⟨u64Max⟩ ∧
      .complete ⟨u64Max⟩ (shortMessage 98) ∈ captures start actions ∧
      (completed (watchedEvents start.framer actions))[u64Max]? = some (shortMessage 97) ∧
      shortMessage 98 ≠ shortMessage 97 := by
  intro start actions
  have owners := overcrowded_bound u64Max
  refine ⟨overcrowded_timely u64Max,?_,?_,?_,overcrowded_watched u64Max,by decide⟩
  · rw [owners]
    exact List.Nodup.map (fun _ _ same => congrArg TransactionId.uuid same) List.nodup_range
  · rw [owners,List.getElem?_map,List.getElem?_range (Nat.lt_succ_self u64Max)]
    rfl
  · exact List.mem_of_getElem? (overcrowded_captures u64Max (Nat.le_refl u64Max))

end Freja.Capture
