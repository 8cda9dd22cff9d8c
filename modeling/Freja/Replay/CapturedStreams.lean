import Freja.Config.Limits
import Freja.Foundation.Interleaving
import Freja.Proxy.CaptureTrail
import Freja.Replay.Verification

namespace Freja.Replay
open Domain Policy Audit Bytes Effect Transducer Interleaving Proxy

def streamKey (piece : CapturedPrefix) : ReplayStreamKey :=
  ⟨piece.sessionId,piece.transactionId,piece.direction,piece.protocol⟩

-- The bytes that one captured piece brings to a stream.
def chunkOn (key : ReplayStreamKey) (piece : CapturedPrefix) : Option (List UInt8) :=
  if streamKey piece = key then hexDecode piece.bytesHex else none

def chunksOn (key : ReplayStreamKey) (records : List AuditRecord) : List (List UInt8) :=
  records.filterMap (fun record => record.captured.bind (chunkOn key))

-- The captured-prefix decisions of a stream, told by the records they name.
def ofStream (key : ReplayStreamKey) (records : List AuditRecord) (decision : ReplayDecision) : Bool :=
  decision.source == "captured-prefix" &&
    ((records.find? (fun record => record.sequence == decision.sourceSequence)).bind AuditRecord.captured).map streamKey
      == some key

def decisionsOn (key : ReplayStreamKey) (records : List AuditRecord) (emitted : List ReplayDecision) : List Decision :=
  (emitted.filter (ofStream key records)).map (·.decision)

variable (setup : ReplaySetup)

-- The records that were replayed, with everything they emitted and left behind.
inductive Replays : List AuditRecord → List ReplayDecision → (ReplayStreamKey → Option StreamScanner) → Prop where
  | nothing : Replays [] [] (fun _ => none)
  | record : Replays records emitted scanners → setup.replayRecord record scanners = .ok replayed →
      Replays (records ++ [record]) (emitted ++ replayed.emitted) replayed.scanners

theorem replayLines_replays (input : List UInt8) (state final : ReplayState)
    (replays : Replays setup state.records state.emitted state.scanners)
    (replayed : setup.replayLines key state input = .ok final) :
    Replays setup final.records final.emitted final.scanners := by
  refine replayLines_keeps setup (fun state => Replays setup state.records state.emitted state.scanners) ?_ replays replayed
  intro state line after replays replayed
  obtain ⟨record,chain,outcome,_,told,rfl⟩ := replayLine_ok setup replayed
  exact replays.record told

-- What one record makes the replay say.
inductive Said (record : AuditRecord) (scanners : ReplayStreamKey → Option StreamScanner) : Replayed → Prop where
  | other : record.captured = none → (∀ decision ∈ emitted, decision.sourceSequence = record.sequence) →
      Said record scanners ⟨emitted,scanners⟩
  | capture : record.captured = some piece → hexDecode piece.bytesHex = some bytes →
      scanner = (scanners (streamKey piece)).getD (setup.compiled.inspection.scanner piece.direction) →
      Said record scanners
        ⟨(scanner.inspect setup.crypto.sha256 bytes).2.map (fun finding => emitReplayDecision record "captured-prefix"
            (setup.compiled.inspection.evaluate finding piece.protocol)),
          Function.update scanners (streamKey piece) (some (scanner.inspect setup.crypto.sha256 bytes).1)⟩

theorem replayRecord_tells (replayed : setup.replayRecord record scanners = .ok done) :
    Said setup record scanners done := by
  unfold ReplaySetup.replayRecord at replayed
  split at replayed
  · rename_i facts event
    cases replayed
    refine .other (congrArg (capturedPrefix _ _) event) ?_
    intro decision member
    obtain ⟨_,_,same⟩ := List.mem_map.mp member
    rw [← same]
    rfl
  · rename_i direction protocol bytesHex event
    have captured : record.captured = some ⟨record.sessionId,record.transactionId,direction,protocol,bytesHex⟩ :=
      congrArg (capturedPrefix _ _) event
    unfold ReplaySetup.replayCapture at replayed
    split at replayed
    · cases replayed
    · rename_i bytes decoded
      split at replayed
      · cases replayed
      · cases replayed
        exact .capture captured decoded rfl
  · rename_i facts capture
    cases replayed
    refine .other ?_ (fun _ no => nomatch no)
    unfold AuditRecord.captured capturedPrefix
    split
    · rename_i direction protocol bytesHex event
      exact absurd event (capture direction protocol bytesHex)
    · rfl

theorem chunksOn_snoc (key : ReplayStreamKey) (records : List AuditRecord) (record : AuditRecord) :
    chunksOn key (records ++ [record]) = chunksOn key records ++ (record.captured.bind (chunkOn key)).toList := by
  unfold chunksOn
  rw [List.filterMap_append]
  cases chunk : record.captured.bind (chunkOn key) with
  | none | some => simp [chunk]

theorem decisionsOn_snoc {records : List AuditRecord} {emitted added : List ReplayDecision}
    (fresh : record.sequence ∉ records.map (·.sequence))
    (named : ∀ decision ∈ emitted, decision.sourceSequence ∈ records.map (·.sequence))
    (own : ∀ decision ∈ added, decision.sourceSequence = record.sequence) (key : ReplayStreamKey) :
    decisionsOn key (records ++ [record]) (emitted ++ added) = decisionsOn key records emitted ++
      (added.filter (fun decision => decision.source == "captured-prefix" &&
        record.captured.map streamKey == some key)).map (·.decision) := by
  have old : ∀ decision ∈ emitted, ofStream key (records ++ [record]) decision = ofStream key records decision := by
    intro decision member
    obtain ⟨origin,listed,same⟩ := List.mem_map.mp (named decision member)
    have found : (records.find? (fun record => record.sequence == decision.sourceSequence)).isSome = true :=
      List.find?_isSome.mpr ⟨origin,listed,by simp [same]⟩
    obtain ⟨first,known⟩ := Option.isSome_iff_exists.mp found
    unfold ofStream
    rw [List.find?_append,known,Option.some_or]
  have new : ∀ decision ∈ added, ofStream key (records ++ [record]) decision =
      (decision.source == "captured-prefix" && record.captured.map streamKey == some key) := by
    intro decision member
    have missing : records.find? (fun record => record.sequence == decision.sourceSequence) = none := by
      rw [List.find?_eq_none]
      intro candidate listed same
      refine fresh (List.mem_map.mpr ⟨candidate,listed,?_⟩)
      rw [← own decision member]
      exact eq_of_beq same
    unfold ofStream
    rw [List.find?_append,missing,Option.none_or,List.find?_singleton,own decision member,beq_self_eq_true,if_pos rfl,
      Option.bind_some]
  unfold decisionsOn
  rw [List.filter_append,List.map_append,List.filter_congr old,List.filter_congr new]

-- How far the scanning of each stream has got: as far as a scanner that is fed
-- the pieces of that stream alone.
structure Scanned (records : List AuditRecord) (emitted : List ReplayDecision)
    (scanners : ReplayStreamKey → Option StreamScanner) : Prop where
  named : ∀ decision ∈ emitted, decision.sourceSequence ∈ records.map (·.sequence)
  tracks : ∀ key, (scanners key).getD (setup.compiled.inspection.scanner key.direction) =
    (feedChunks (StreamScanner.inspect setup.crypto.sha256) (setup.compiled.inspection.scanner key.direction)
      (chunksOn key records)).1
  emits : ∀ key, decisionsOn key records emitted =
    (feedChunks (StreamScanner.inspect setup.crypto.sha256) (setup.compiled.inspection.scanner key.direction)
      (chunksOn key records)).2.map (fun finding => setup.compiled.inspection.evaluate finding key.protocol)

theorem Scanned.further {record : AuditRecord} (scanned : Scanned setup records emitted scanners)
    (fresh : record.sequence ∉ records.map (·.sequence)) (said : Said setup record scanners replayed) :
    Scanned setup (records ++ [record]) (emitted ++ replayed.emitted) replayed.scanners := by
  have own : ∀ decision ∈ replayed.emitted, decision.sourceSequence = record.sequence := by
    cases said with
    | other _ own => exact own
    | capture _ _ _ =>
        intro decision member
        obtain ⟨_,_,same⟩ := List.mem_map.mp member
        rw [← same]
        rfl
  refine ⟨?_,?_,?_⟩
  · intro decision member
    rw [List.map_append]
    rcases List.mem_append.mp member with earlier | later
    · exact List.mem_append_left _ (scanned.named decision earlier)
    · rw [own decision later]
      exact List.mem_append_right _ (by simp)
  · intro key
    rw [chunksOn_snoc]
    cases said with
    | other uncaptured =>
        rw [uncaptured]
        simpa using scanned.tracks key
    | capture captured decoded same =>
        rename_i piece bytes scanner
        dsimp only
        rw [captured,Option.bind_some]
        unfold chunkOn
        by_cases here : streamKey piece = key
        · subst here
          have before : (feedChunks _ _ _).1 = scanner := (scanned.tracks (streamKey piece)).symm.trans same.symm
          rw [if_pos rfl,decoded,Option.toList_some,feedChunks_snoc,Function.update_self,Option.getD_some]
          unfold andThen
          rw [before]
        · rw [if_neg here,Option.toList_none,List.append_nil,Function.update_of_ne (Ne.symm here)]
          exact scanned.tracks key
  · intro key
    rw [decisionsOn_snoc fresh scanned.named own,chunksOn_snoc,scanned.emits key]
    cases said with
    | other uncaptured =>
        rw [uncaptured]
        simp
    | capture captured decoded same =>
        rename_i piece bytes scanner
        dsimp only
        rw [captured,Option.bind_some]
        unfold chunkOn
        by_cases here : streamKey piece = key
        · subst here
          have before : (feedChunks _ _ _).1 = scanner := (scanned.tracks (streamKey piece)).symm.trans same.symm
          rw [if_pos rfl,decoded,Option.toList_some,feedChunks_snoc]
          unfold andThen
          rw [before,List.map_append]
          congr 1
          simp [emitReplayDecision,List.filter_map,Function.comp_def,streamKey]
        · rw [if_neg here]
          simp [here]

theorem Replays.scanned (replays : Replays setup records emitted scanners)
    (unique : (records.map (·.sequence)).Nodup) : Scanned setup records emitted scanners := by
  induction replays with
  | nothing => exact ⟨nofun,fun _ => rfl,fun _ => rfl⟩
  | record _ outcome ih =>
      rw [List.map_append,List.nodup_append] at unique
      obtain ⟨earlier,_,apart⟩ := unique
      refine (ih earlier).further setup ?_ (replayRecord_tells setup outcome)
      intro repeated
      exact apart _ repeated _ (by simp) rfl

theorem replayRecord_accepts (record : AuditRecord) (scanners : ReplayStreamKey → Option StreamScanner)
    (fits : ∀ piece, record.captured = some piece →
      ∃ bytes, hexDecode piece.bytesHex = some bytes ∧ bytes.length ≤ setup.compiled.bodyPrefixBytes) :
    ∃ done, setup.replayRecord record scanners = .ok done := by
  unfold ReplaySetup.replayRecord
  split
  · exact ⟨_,rfl⟩
  · rename_i direction protocol bytesHex event
    have captured : record.captured = some ⟨record.sessionId,record.transactionId,direction,protocol,bytesHex⟩ :=
      congrArg (capturedPrefix _ _) event
    obtain ⟨bytes,decoded,short⟩ := fits _ captured
    unfold ReplaySetup.replayCapture
    rw [show hexDecode bytesHex = some bytes from decoded]
    dsimp only
    rw [if_neg (Nat.not_lt.mpr short)]
    exact ⟨_,rfl⟩
  · exact ⟨_,rfl⟩

section Flows

variable {maximum : Nat}

def flowKey (flow : CapturedFlow maximum) (direction : Direction) : ReplayStreamKey :=
  ⟨flow.flow.sessionId,flow.flow.transactionId,direction,flow.protocol⟩

-- Two inspectors never watch the same stream.
def Apart (first second : CapturedFlow maximum) : Prop :=
  ∀ direction, flowKey first direction = flowKey second direction →
    first.stream direction = [] ∨ second.stream direction = []

def partOf (key : ReplayStreamKey) (flow : CapturedFlow maximum) : List UInt8 :=
  if flowKey flow key.direction = key then flow.stream key.direction else []

def streamOf (flows : List (CapturedFlow maximum)) (key : ReplayStreamKey) : List UInt8 := flows.flatMap (partOf key)

theorem partOf_apart {first second : CapturedFlow maximum} (apart : Apart first second) (key : ReplayStreamKey) :
    partOf key first = [] ∨ partOf key second = [] := by
  unfold partOf
  by_cases here : flowKey first key.direction = key
  · by_cases there : flowKey second key.direction = key
    · rw [if_pos here,if_pos there]
      exact apart key.direction (here.trans there.symm)
    · rw [if_neg there]
      exact .inr rfl
  · rw [if_neg here]
    exact .inl rfl

def envelopeChunk (key : ReplayStreamKey) (envelope : AuditEnvelope) : Option (List UInt8) :=
  envelope.captured.bind (chunkOn key)

theorem chunkOn_piece (flow : CapturedFlow maximum) (key : ReplayStreamKey) (direction : Direction)
    (bytes : List UInt8) :
    chunkOn key ⟨flow.flow.sessionId,flow.flow.transactionId,direction,flow.protocol,hexEncode bytes⟩ =
      if flowKey flow direction = key then some bytes else none := by
  unfold chunkOn
  rw [hexDecode_hexEncode]
  rfl

theorem flow_chunks (flow : CapturedFlow maximum) (key : ReplayStreamKey) :
    (flow.published.filterMap (envelopeChunk key)).flatten = (partOf key flow).take maximum ∧
      (partOf key flow = [] → flow.published.filterMap (envelopeChunk key) = []) := by
  obtain ⟨_,pieces,held,filled,streams⟩ := flow.pieces
  have chunks : flow.published.filterMap (envelopeChunk key) = (flow.published.filterMap AuditEnvelope.captured).filterMap
      (chunkOn key) := List.filterMap_filterMap.symm
  rw [chunks,held,List.filterMap_map]
  unfold partOf
  by_cases here : flowKey flow key.direction = key
  · have picked : pieces.filterMap (chunkOn key ∘ fun piece =>
        ⟨flow.flow.sessionId,flow.flow.transactionId,piece.1,flow.protocol,hexEncode piece.2⟩) =
        (pieces.filter (fun piece => piece.1 == key.direction)).map (·.2) := by
      rw [← List.filterMap_eq_map,List.filterMap_filter]
      refine List.filterMap_congr ?_
      intro piece _
      change chunkOn key _ = _
      rw [chunkOn_piece]
      by_cases direction : piece.1 = key.direction
      · rw [direction,if_pos here,beq_self_eq_true,if_pos rfl]
        rfl
      · have elsewhere : flowKey flow piece.1 ≠ key := fun keys => direction (congrArg ReplayStreamKey.direction keys)
        rw [if_neg elsewhere,if_neg (by simpa using direction)]
    rw [if_pos here,picked]
    have stream := streams key.direction
    unfold Arrivals.stream at stream
    refine ⟨?_,?_⟩
    · rw [← stream,List.flatMap_def]
    · intro empty
      rw [empty,List.take_nil,List.flatMap_eq_nil_iff] at stream
      rw [List.map_eq_nil_iff,List.eq_nil_iff_forall_not_mem]
      intro piece member
      exact (filled piece (List.mem_of_mem_filter member)).1 (stream piece member)
  · have none_there : pieces.filterMap (chunkOn key ∘ fun piece =>
        ⟨flow.flow.sessionId,flow.flow.transactionId,piece.1,flow.protocol,hexEncode piece.2⟩) = [] := by
      rw [List.filterMap_eq_nil_iff]
      intro piece _
      change chunkOn key _ = _
      rw [chunkOn_piece,if_neg]
      intro keys
      refine here ?_
      rw [← keys]
      rfl
    rw [if_neg here,none_there]
    exact ⟨by simp,fun _ => rfl⟩

theorem take_alone {lists : List (List α)} (single : lists.Pairwise (fun first second => first = [] ∨ second = []))
    (count : Nat) : (lists.map (·.take count)).flatten = lists.flatten.take count := by
  induction lists with
  | nil => simp
  | cons first rest ih =>
      obtain ⟨others,later⟩ := List.pairwise_cons.mp single
      rw [List.map_cons,List.flatten_cons,List.flatten_cons,ih later]
      by_cases empty : first = []
      · simp [empty]
      · have quiet : rest.flatten = [] :=
          List.flatten_eq_nil_iff.mpr (fun other member => (others other member).resolve_left empty)
        rw [quiet,List.take_nil,List.append_nil,List.append_nil]

theorem flows_chunks (flows : List (CapturedFlow maximum)) (key : ReplayStreamKey) :
    ((flows.map CapturedFlow.published).map (·.filterMap (envelopeChunk key))).flatten.flatten =
      ((flows.map (partOf key)).map (·.take maximum)).flatten := by
  induction flows with
  | nil => rfl
  | cons flow rest ih =>
      simp only [List.map_cons,List.flatten_cons,List.flatten_append]
      rw [ih,(flow_chunks flow key).1]

-- What the events of a log, in whatever order the tasks got to publish them, hold
-- of one stream.
theorem interleaved_chunks {flows : List (CapturedFlow maximum)} (apart : flows.Pairwise Apart)
    (uncaptured : ∀ envelope ∈ others, envelope.captured = none)
    (interleaved : Interleaves (others :: flows.map CapturedFlow.published) envelopes) (key : ReplayStreamKey) :
    (envelopes.filterMap (envelopeChunk key)).flatten = (streamOf flows key).take maximum := by
  have quiet : others.filterMap (envelopeChunk key) = [] := by
    rw [List.filterMap_eq_nil_iff]
    intro envelope member
    unfold envelopeChunk
    rw [uncaptured envelope member]
    rfl
  have single : ((others :: flows.map CapturedFlow.published).map (·.filterMap (envelopeChunk key))).Pairwise
      (fun first second => first = [] ∨ second = []) := by
    rw [List.map_cons,quiet,List.pairwise_cons,List.map_map,List.pairwise_map]
    refine ⟨fun _ _ => .inl rfl,apart.imp ?_⟩
    intro first second separate
    exact (partOf_apart separate key).imp (flow_chunks first key).2 (flow_chunks second key).2
  have parts : (flows.map (partOf key)).Pairwise (fun first second => first = [] ∨ second = []) := by
    rw [List.pairwise_map]
    exact apart.imp (fun separate => partOf_apart separate key)
  rw [(interleaved.filterMap (envelopeChunk key)).alone single,List.map_cons,quiet,List.flatten_cons,List.nil_append]
  unfold streamOf
  rw [List.flatMap_def,← take_alone parts,flows_chunks]

theorem interleaved_pieces {flows : List (CapturedFlow maximum)}
    (uncaptured : ∀ envelope ∈ others, envelope.captured = none)
    (interleaved : Interleaves (others :: flows.map CapturedFlow.published) envelopes)
    (member : piece ∈ envelopes.filterMap AuditEnvelope.captured) :
    ∃ bytes, hexDecode piece.bytesHex = some bytes ∧ bytes.length ≤ maximum := by
  obtain ⟨envelope,listed,captured⟩ := List.mem_filterMap.mp member
  obtain ⟨list,origin,inside⟩ := interleaved.member listed
  rcases List.mem_cons.mp origin with same | published
  · rw [uncaptured envelope (same ▸ inside)] at captured
    cases captured
  · obtain ⟨flow,_,same⟩ := List.mem_map.mp published
    obtain ⟨_,pieces,held,filled,_⟩ := flow.pieces
    have here : piece ∈ flow.published.filterMap AuditEnvelope.captured :=
      List.mem_filterMap.mpr ⟨envelope,same ▸ inside,captured⟩
    rw [held] at here
    obtain ⟨arrival,taken,same⟩ := List.mem_map.mp here
    rw [← same]
    exact ⟨arrival.2,hexDecode_hexEncode arrival.2,(filled arrival taken).2⟩

end Flows

-- What is asked of reading a line back: the line of what was read is the same line,
-- and the identifiers, texts in the line, are those that were written.
def Rereads (parse : List UInt8 → Option AuditRecord) (record : AuditRecord) : Prop :=
  ∃ again, parse record.json.bytes = some again ∧ again.json.bytes = record.json.bytes ∧
    again.sessionId = record.sessionId ∧ again.transactionId = record.transactionId

theorem reread_captured {parse : List UInt8 → Option AuditRecord} {records parsed : List AuditRecord}
    (rereads : ∀ record ∈ records, Rereads parse record)
    (pairs : List.Forall₂ (fun record again => parse record.json.bytes = some again) records parsed) :
    parsed.filterMap AuditRecord.captured = records.filterMap AuditRecord.captured ∧
      parsed.map (·.sequence) = records.map (·.sequence) := by
  induction pairs with
  | nil => exact ⟨rfl,rfl⟩
  | cons read _ ih =>
      rename_i record again records parsed _
      obtain ⟨other,found,same,session,transaction⟩ := rereads record List.mem_cons_self
      rw [read] at found
      cases found
      have line := AuditRecord.bytes_sameLine same
      obtain ⟨captured,sequences⟩ := ih (fun later member => rereads later (List.mem_cons_of_mem _ member))
      have piece : again.captured = record.captured := by
        unfold AuditRecord.captured
        rw [session,transaction]
        exact captured_json line.event _ _
      refine ⟨?_,?_⟩
      · rw [List.filterMap_cons,List.filterMap_cons,piece,captured]
      · rw [List.map_cons,List.map_cons,sequences,line.sequence]

-- However the records of the flows mingle in the log, replaying it gives for each
-- stream one decision for each occurrence of a pattern in the captured bytes.
theorem captured_prefixes_replayed (sink : SinkSetup) (schedule : Option CheckpointSchedule) {limits : Config.Limits}
    (validated : Config.CapturePolicy.tryFrom raw limits.bodyPrefixBytes = .ok (.upTo maximum))
    (flows : List (CapturedFlow maximum.get)) (apart : flows.Pairwise Apart) (others : List AuditEnvelope)
    (plain : ∀ envelope ∈ others, SinkSetup.Ordinary envelope ∧ envelope.captured = none)
    (interleaved : Interleaves (others :: flows.map CapturedFlow.published) envelopes)
    (written : (sink.drainJsonlWithCheckpoints schedule envelopes).run .new = .ok () drained)
    (short : ∀ record ∈ drained.sink.records, record.json.bytes.length ≤ maximumReplayLineBytes)
    (replay : ReplaySetup) (crypto : replay.crypto = sink.crypto)
    (configured : replay.compiled.bodyPrefixBytes = limits.bodyPrefixBytes.get) (key : Option (Vector UInt8 32))
    (trusted : ∀ plan ∈ schedule, ∀ expected ∈ key, plan.signer.verifyingKey = expected)
    (signs : ∀ plan ∈ schedule, sink.crypto.validKey plan.signer.verifyingKey = true ∧ ∀ message,
      sink.crypto.verifyStrict plan.signer.verifyingKey message (plan.signer.sign message) = true)
    (rereads : ∀ record ∈ drained.sink.records, Rereads replay.parse record) :
    ∃ final, replay.replayLines key .new drained.sink.received = .ok final ∧
      ∀ stream, (decisionsOn stream final.records final.emitted).Perm
        ((occurrenceFindings replay.crypto.sha256 replay.compiled.inspection stream.direction
          ((streamOf flows stream).take maximum.get)).map
            (fun finding => replay.compiled.inspection.evaluate finding stream.protocol)) := by
  obtain ⟨within,small⟩ := Config.CapturePolicy.tryFrom_upTo validated
  have uncaptured : ∀ envelope ∈ others, envelope.captured = none := fun envelope member => (plain envelope member).2
  have ordinary : ∀ envelope ∈ envelopes, SinkSetup.Ordinary envelope := by
    intro envelope member
    obtain ⟨list,origin,inside⟩ := interleaved.member member
    rcases List.mem_cons.mp origin with same | published
    · exact (plain envelope (same ▸ inside)).1
    · obtain ⟨flow,_,same⟩ := List.mem_map.mp published
      exact flow.pieces.1 envelope (same ▸ inside)
  have holds := ensures_answer (SinkSetup.drain_holds envelopes SinkSetup.Holds.new) written
  have kept := ensures_answer (SinkSetup.drain_kept (DrainKept.new sink.crypto schedule True) envelopes
    (fun _ => ordinary)) written
  have reparses : ∀ record ∈ drained.sink.records, ∃ again,
      replay.parse record.json.bytes = some again ∧ again.json.bytes = record.json.bytes := by
    intro record member
    obtain ⟨again,read,same,_⟩ := rereads record member
    exact ⟨again,read,same⟩
  obtain ⟨parsed,total,_,pairs,verified⟩ := segment_verified kept trusted signs reparses
  obtain ⟨captured,sequences⟩ := reread_captured rereads pairs
  have pieces : parsed.filterMap AuditRecord.captured = envelopes.filterMap AuditEnvelope.captured :=
    captured.trans holds.captured
  rw [holds.lines]
  rw [← crypto] at verified
  rcases replayLines_outcome replay key .new verified pairs with ⟨final,ran,_,records⟩ | ⟨error,_,refused⟩
  · have same : final.records = parsed := records
    have unique : (final.records.map (·.sequence)).Nodup := by
      rw [same,sequences]
      refine List.Nodup.of_map AuditSequence.value ?_
      rw [List.map_map]
      exact kept.sink.chained.numbered ▸ List.nodup_range'
    have scanned := (replayLines_replays replay _ _ _ .nothing ran).scanned replay unique
    refine ⟨final,ran,?_⟩
    intro stream
    have chunks : (chunksOn stream final.records).flatten = (streamOf flows stream).take maximum.get := by
      have gathered : chunksOn stream final.records = envelopes.filterMap (envelopeChunk stream) := by
        unfold chunksOn envelopeChunk
        rw [same,← List.filterMap_filterMap,← List.filterMap_filterMap,pieces]
      rw [gathered]
      exact interleaved_chunks apart uncaptured interleaved stream
    have fits : (chunksOn stream final.records).flatten.length ≤ u64Max := by
      rw [chunks,List.length_take]
      omega
    have found := (StreamScanner.scan_run replay.crypto.sha256 replay.compiled.inspection stream.direction _ fits).2
    rw [chunks] at found
    rw [scanned.emits stream]
    exact found.map _
  · cases refused with
    | line member long => exact absurd (short _ member) (Nat.not_le.mpr long)
    | capture member failed =>
        rename_i again scanners
        obtain ⟨done,accepted⟩ := replayRecord_accepts replay again scanners (by
          intro piece taken
          have listed : piece ∈ parsed.filterMap AuditRecord.captured := List.mem_filterMap.mpr ⟨again,member,taken⟩
          rw [pieces] at listed
          obtain ⟨bytes,decoded,length⟩ := interleaved_pieces uncaptured interleaved listed
          exact ⟨bytes,decoded,by rw [configured]; omega⟩)
        rw [accepted] at failed
        cases failed

def watchedBound : Config.NonZero := .ofUInt32 8

def watchedLimits : Config.Limits := .uniform 64

def watchedEnvironment : Environment := {reloadedEnvironment 0 with capturePrefixBytes := some watchedBound.get}

def watchedSnapshot : PolicySnapshot := {reloadedSnapshot .streaming with inspection := .empty .initial}

def watchedStart (later : Bool) : FlowInspector :=
  .ofSnapshot watchedSnapshot ⟨⟨1⟩,some ⟨later.toNat⟩⟩ .http 64

def watchedArrivals : Arrivals := [(.httpRequestBody,ascii "ab"),(.httpRequestBody,ascii "a")]

def watchedRun (later : Bool) : EStateM.Result ProxyError ServiceState FlowInspector :=
  ((watchedStart later).inspectAll watchedEnvironment watchedArrivals).run idleState

theorem watchedRun_done : ∀ later, (answerOf (watchedRun later)).isSome = true := by decide +kernel

theorem watchedRun_ok (later : Bool) :
    watchedRun later = .ok ((answerOf (watchedRun later)).getD (watchedStart later)) (stateOf (watchedRun later)) :=
  answerOf_run (watchedRun_done later) (watchedStart later)

def watchedFlow (later : Bool) : CapturedFlow watchedBound.get :=
  {env := watchedEnvironment,bounded := rfl,decision := watchedSnapshot,flow := ⟨⟨1⟩,some ⟨later.toNat⟩⟩
   protocol := .http,maximumInspectedBytes := 64,arrivals := watchedArrivals
   last := (answerOf (watchedRun later)).getD (watchedStart later)
   after := stateOf (watchedRun later),ran := watchedRun_ok later}

def watchedSink : SinkSetup := ⟨⟨fun _ => StreamScanner.abaDigest,fun _ => true,fun _ _ _ => true⟩,noUrls,.new [],.reliable⟩

def watchedFlows : List (CapturedFlow watchedBound.get) := [watchedFlow false,watchedFlow true]

-- A record of each flow in turn.
def inTurns (first second : List AuditEnvelope) : List AuditEnvelope :=
  first.take 1 ++ (second.take 1 ++ (first.drop 1 ++ second.drop 1))

def watchedEnvelopes : List AuditEnvelope := inTurns (watchedFlow false).published (watchedFlow true).published

theorem watchedEnvelopes_interleave : Interleaves ([] :: watchedFlows.map CapturedFlow.published) watchedEnvelopes :=
  Interleaves.turns (watchedFlow false).published (watchedFlow true).published 1

def watchedDrain : EStateM.Result AuditError Drain Unit :=
  (watchedSink.drainJsonlWithCheckpoints none watchedEnvelopes).run .new

-- Reads a line back by comparing it with the lines of the log.
def watchedParse (bytes : List UInt8) : Option AuditRecord :=
  (stateOf watchedDrain).sink.records.find? (fun record => record.json.bytes == bytes)

def watchedReplay : ReplaySetup :=
  ⟨watchedSink.crypto,watchedParse,
    ⟨(reloadedSnapshot .streaming).policy,(reloadedSnapshot .streaming).destinationGuard,StreamScanner.abaProgram,
      watchedLimits.bodyPrefixBytes.get⟩⟩

def watchedStream (later : Bool) : ReplayStreamKey := ⟨⟨1⟩,some ⟨later.toNat⟩,.httpRequestBody,.http⟩

theorem watchedReplay_parse : watchedReplay.parse = watchedParse := by
  simp only [watchedReplay]

theorem watchedReplay_rereads :
    ∀ record ∈ (stateOf watchedDrain).sink.records, Rereads watchedReplay.parse record := by
  rw [watchedReplay_parse]
  have owned : (stateOf watchedDrain).sink.records.all (fun record => (stateOf watchedDrain).sink.records.all (fun again =>
      decide (again.json.bytes = record.json.bytes → again.sessionId = record.sessionId ∧
        again.transactionId = record.transactionId))) = true := by
    decide +kernel
  generalize records : (stateOf watchedDrain).sink.records = log at owned
  intro record member
  have found : (log.find? (fun other => other.json.bytes == record.json.bytes)).isSome = true :=
    List.find?_isSome.mpr ⟨record,member,beq_self_eq_true _⟩
  obtain ⟨again,read⟩ := Option.isSome_iff_exists.mp found
  have same : (again.json.bytes == record.json.bytes) = true :=
    List.find?_some (p := fun other : AuditRecord => other.json.bytes == record.json.bytes) read
  have own := List.all_iff_forall_prop.mp (List.all_eq_true.mp owned record member) again (List.mem_of_find?_eq_some read)
  refine ⟨again,?_,eq_of_beq same,own (eq_of_beq same)⟩
  unfold watchedParse
  rw [records]
  exact read

theorem watchedDrain_written : watchedDrain = .ok () (stateOf watchedDrain) := answerOf_done (by decide +kernel)

theorem watchedDrain_short :
    ∀ record ∈ (stateOf watchedDrain).sink.records, record.json.bytes.length ≤ maximumReplayLineBytes := by
  refine List.all_iff_forall_prop.mp ?_
  decide +kernel

def abaDecision : Decision :=
  StreamScanner.abaProgram.evaluate (occurrenceFinding (fun _ => StreamScanner.abaDigest) .httpRequestBody
    StreamScanner.abaPattern 0) .http

theorem watchedStreams_calls : ∀ later,
    (occurrenceFindings watchedReplay.crypto.sha256 watchedReplay.compiled.inspection .httpRequestBody
      ((streamOf watchedFlows (watchedStream later)).take watchedBound.get)).map
      (fun finding => watchedReplay.compiled.inspection.evaluate finding .http) = [abaDecision] := by
  decide +kernel

theorem watchedFlows_apart : watchedFlows.Pairwise Apart := by
  refine List.pairwise_pair.mpr ?_
  intro direction same
  cases same

-- A pattern cut by two records is found once in each flow.
theorem cut_pattern_replayed :
    ∃ final, watchedReplay.replayLines none .new (stateOf watchedDrain).sink.received = .ok final ∧
      ∀ later, (decisionsOn (watchedStream later) final.records final.emitted).Perm [abaDecision] := by
  have validated : Config.CapturePolicy.tryFrom (.upTo 8) watchedLimits.bodyPrefixBytes = .ok (.upTo watchedBound) := by
    decide
  obtain ⟨final,ran,emits⟩ := captured_prefixes_replayed watchedSink none validated watchedFlows watchedFlows_apart []
    (fun _ member => absurd member List.not_mem_nil) watchedEnvelopes_interleave watchedDrain_written watchedDrain_short
    watchedReplay rfl rfl none (fun plan planned => absurd planned (Option.not_mem_none plan))
    (fun plan planned => absurd planned (Option.not_mem_none plan)) watchedReplay_rereads
  refine ⟨final,ran,?_⟩
  intro later
  rw [← watchedStreams_calls later]
  exact emits (watchedStream later)

end Freja.Replay
