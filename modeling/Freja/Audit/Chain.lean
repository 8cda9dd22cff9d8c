import Freja.Audit.Sink

namespace Freja.Audit
open Domain Bytes Effect

def recordChain : HashChain AuditRecord RecordHash := ⟨AuditRecord.recordHash,fun record => record.previousHash⟩

-- What a segment promises: links from the first record on, positions counted
-- from one, and every hash that of its record.
structure Chained (crypto : Crypto) (records : List AuditRecord) : Prop where
  linked : recordChain.Linked none records
  numbered : records.map (fun record => record.sequence.value) = List.range' 1 records.length
  hashed : ∀ record ∈ records, crypto.verifiesHash record = true

namespace Chained

theorem empty (crypto : Crypto) : Chained crypto [] := by
  refine ⟨trivial,rfl,?_⟩
  intro record member
  cases member

theorem append (chained : Chained crypto records) (link : record.previousHash = recordChain.tip none records)
    (number : record.sequence.value = records.length + 1) (hash : crypto.verifiesHash record = true) :
    Chained crypto (records ++ [record]) := by
  refine ⟨(recordChain.linked_last none records record).mpr ⟨chained.linked,link⟩,?_,?_⟩
  · rw [List.map_append,chained.numbered,List.length_append,List.length_singleton,List.range'_1_concat,
      List.map_singleton,number,Nat.add_comm]
  · intro candidate member
    rcases List.mem_append.mp member with old | new
    · exact chained.hashed candidate old
    · rw [List.mem_singleton.mp new]
      exact hash

theorem take (chained : Chained crypto records) (count : Nat) : Chained crypto (records.take count) := by
  have parts := List.take_append_drop count records
  refine ⟨?_,?_,fun record member => chained.hashed record (List.mem_of_mem_take member)⟩
  · have linked := chained.linked
    rw [← parts] at linked
    exact ((recordChain.linked_append none _ _).mp linked).1
  · have numbers := chained.numbered
    have split : List.range' 1 (records.take count).length ++
        List.range' (1 + (records.take count).length) (records.drop count).length = List.range' 1 records.length := by
      rw [List.range'_append_1,← List.length_append,parts]
    rw [← split,← parts,List.map_append,parts] at numbers
    exact (List.append_inj numbers (by rw [List.length_map,List.length_range'])).1

theorem init (chained : Chained crypto (records ++ [record])) : Chained crypto records := by
  have initial := chained.take records.length
  rwa [List.take_left] at initial

theorem last_number (chained : Chained crypto (records ++ [record])) : record.sequence.value = records.length + 1 := by
  have numbers := chained.numbered
  rw [List.map_append,chained.init.numbered,List.length_append,List.length_singleton,List.range'_1_concat,
    List.map_singleton] at numbers
  have last := (List.cons.inj (List.append_cancel_left numbers)).1
  omega

end Chained

-- A checkpoint stands right behind the record it was signed for.
def Covered (schedule : Option CheckpointSchedule) (records : List AuditRecord) : Prop :=
  ∀ before record after checkpoint, records = before ++ record :: after → record.event = .signedCheckpoint checkpoint →
    ∃ plan ∈ schedule, ∃ earlier last, before = earlier ++ [last] ∧
      checkpoint = plan.signer.signCheckpoint last.sequence last.recordHash

theorem split_last {records before after : List AuditRecord} (same : records ++ [last] = before ++ record :: after) :
    (records = before ∧ last = record ∧ after = []) ∨ ∃ rest, records = before ++ record :: rest := by
  rcases List.eq_nil_or_concat' after with rfl | ⟨rest,final,rfl⟩
  · obtain ⟨heads,tails⟩ := List.append_inj' same rfl
    exact .inl ⟨heads,(List.cons.inj tails).1,rfl⟩
  · rw [← List.cons_append,← List.append_assoc] at same
    exact .inr ⟨rest,(List.append_inj' same rfl).1⟩

theorem Covered.append (covered : Covered schedule records)
    (fresh : ∀ checkpoint, record.event = .signedCheckpoint checkpoint →
      ∃ plan ∈ schedule, ∃ earlier last, records = earlier ++ [last] ∧
        checkpoint = plan.signer.signCheckpoint last.sequence last.recordHash) :
    Covered schedule (records ++ [record]) := by
  intro before candidate after checkpoint same event
  rcases split_last same with ⟨rfl,rfl,_⟩ | ⟨rest,old⟩
  · exact fresh checkpoint event
  · exact covered before candidate rest checkpoint old event

theorem Covered.init (covered : Covered schedule (records ++ [record])) : Covered schedule records := by
  intro before candidate after checkpoint same event
  refine covered before candidate (after ++ [record]) checkpoint ?_ event
  rw [same,List.append_assoc,List.cons_append]

structure SinkKept (crypto : Crypto) (sink : JsonlAuditSink) : Prop where
  chained : Chained crypto sink.records
  tip : recordChain.tip none sink.records = sink.previousHash
  next : ∀ sequence, sink.nextSequence = some sequence ↔ sequence.value = sink.records.length + 1
  current : ∀ record ∈ sink.records, record.schemaVersion = .current

theorem SinkKept.new (crypto : Crypto) : SinkKept crypto .new := by
  refine ⟨.empty crypto,rfl,?_,?_⟩
  · intro sequence
    refine ⟨fun same => ?_,fun same => ?_⟩
    · cases same
      rfl
    · exact congrArg some (AuditSequence.ext same.symm)
  · intro record member
    cases member

namespace SinkSetup

variable {setup : SinkSetup}

-- A call either appends its record or leaves the position and the link alone.
theorem writeEvent_cases (context : AuditContext) (event : AuditEvent) (sink : JsonlAuditSink) :
    Ensures (setup.writeEvent context event) sink
      (fun record after => ∃ sequence, sink.nextSequence = some sequence ∧
        record = setup.record sink sequence context event ∧ after = appended sink sequence record)
      (fun _ after => after.records = sink.records ∧ after.previousHash = sink.previousHash ∧
        after.nextSequence = sink.nextSequence) := by
  cases poisoned : sink.poisoned with
  | true =>
      apply ensures_error
      · simp only [EStateM.run,writeEvent,poisoned]
        rfl
      · exact ⟨rfl,rfl,rfl⟩
  | false =>
      cases next : sink.nextSequence with
      | none =>
          apply ensures_error
          · simp only [EStateM.run,writeEvent,poisoned,next]
            rfl
          · exact ⟨rfl,rfl,next⟩
      | some sequence =>
          cases outcome : setup.writer.writeAll sink.writes with
          | some =>
              apply ensures_error
              · simp only [EStateM.run,writeEvent,poisoned,next,outcome]
                rfl
              · exact ⟨rfl,rfl,rfl⟩
          | none =>
              apply ensures_ok
              · simp only [EStateM.run,writeEvent,poisoned,next,outcome]
                rfl
              · exact ⟨sequence,rfl,rfl,rfl⟩

theorem flush_cases (sink : JsonlAuditSink) :
    Ensures setup.flush sink (fun _ after => after = {sink with flushes := sink.flushes + 1})
      (fun _ after => after.records = sink.records ∧ after.previousHash = sink.previousHash ∧
        after.nextSequence = sink.nextSequence) := by
  cases poisoned : sink.poisoned with
  | true =>
      apply ensures_error
      · simp only [EStateM.run,flush,poisoned]
        rfl
      · exact ⟨rfl,rfl,rfl⟩
  | false =>
      cases outcome : setup.writer.flush sink.flushes with
      | true =>
          apply ensures_ok
          · simp only [EStateM.run,flush,outcome,poisoned]
            rfl
          · rfl
      | false =>
          apply ensures_error
          · simp only [EStateM.run,flush,poisoned,outcome]
            rfl
          · exact ⟨rfl,rfl,rfl⟩

theorem appended_kept {sequence : AuditSequence} (kept : SinkKept setup.crypto sink) (next : sink.nextSequence = some sequence) :
    SinkKept setup.crypto (appended sink sequence (setup.record sink sequence context event)) := by
  have number := (kept.next sequence).mp next
  refine ⟨?_,?_,?_,?_⟩
  · exact kept.chained.append kept.tip.symm number (beq_self_eq_true _)
  · rw [appended,HashChain.tip_append]
    rfl
  · intro following
    rw [appended,AuditSequence.checkedNext_exact,List.length_append,List.length_singleton,number]
  · intro record member
    rcases List.mem_append.mp member with old | new
    · exact kept.current record old
    · rw [List.mem_singleton.mp new]
      rfl

end SinkSetup

theorem SinkKept.frame (kept : SinkKept crypto sink) (records : after.records = sink.records)
    (link : after.previousHash = sink.previousHash) (next : after.nextSequence = sink.nextSequence) :
    SinkKept crypto after := by
  refine ⟨?_,?_,?_,?_⟩
  · rw [records]
    exact kept.chained
  · rw [records,link]
    exact kept.tip
  · rw [records,next]
    exact kept.next
  · rw [records]
    exact kept.current

theorem ensures_onSink {program : EStateM AuditError JsonlAuditSink α} {drain : Drain}
    (steps : Ensures program drain.sink answer broken) :
    Ensures (onSink program) drain (fun value after => ∃ sink, after = {drain with sink := sink} ∧ answer value sink)
      (fun error after => ∃ sink, after = {drain with sink := sink} ∧ broken error sink) := by
  cases outcome : program drain.sink with
  | ok value sink =>
      apply ensures_ok
      · simp only [EStateM.run,onSink,outcome]
        rfl
      · exact ⟨sink,rfl,ensures_answer steps outcome⟩
  | error error sink =>
      apply ensures_error
      · simp only [EStateM.run,onSink,outcome]
        rfl
      · exact ⟨sink,rfl,ensures_broken steps outcome⟩

theorem onSink_total {program : EStateM AuditError JsonlAuditSink α} {drain : Drain}
    (steps : Ensures program drain.sink answer (fun _ _ => False)) :
    Ensures (onSink program) drain (fun value after => answer value after.sink) (fun _ _ => False) := by
  refine ensures_weaken (ensures_onSink steps) ?_ ?_
  · intro value after done
    obtain ⟨sink,rfl,holds⟩ := done
    exact holds
  · intro error after stopped
    obtain ⟨_,_,no⟩ := stopped
    exact no

-- What holds of the worker between any two of its calls, whatever its writer
-- does. Where the checkpoints stand is known only if no other event is one.
structure DrainKept (crypto : Crypto) (schedule : Option CheckpointSchedule) (plain : Prop) (drain : Drain) : Prop where
  sink : SinkKept crypto drain.sink
  covered : plain → Covered schedule drain.sink.records
  signed : ∀ checkpoint ∈ drain.signed, ∃ record ∈ drain.sink.records,
    checkpoint.coversSequence = record.sequence ∧ checkpoint.recordHash = record.recordHash

theorem DrainKept.new (crypto : Crypto) (schedule : Option CheckpointSchedule) (plain : Prop) :
    DrainKept crypto schedule plain .new := by
  refine ⟨.new crypto,?_,?_⟩
  · intro _ before record after checkpoint same event
    exact absurd same (by simp [Drain.new,JsonlAuditSink.new])
  · intro checkpoint member
    cases member

theorem DrainKept.frame (kept : DrainKept crypto schedule plain drain) (sink : JsonlAuditSink)
    (records : sink.records = drain.sink.records) (link : sink.previousHash = drain.sink.previousHash)
    (next : sink.nextSequence = drain.sink.nextSequence) : DrainKept crypto schedule plain {drain with sink := sink} := by
  refine ⟨kept.sink.frame records link next,?_,?_⟩
  · rw [records]
    exact kept.covered
  · rw [records]
    exact kept.signed

namespace SinkSetup

variable {setup : SinkSetup} {schedule : Option CheckpointSchedule} {drain : Drain} {record : AuditRecord}
  {plain : Prop}

theorem write_kept (kept : DrainKept setup.crypto schedule plain drain) (context : AuditContext) (event : AuditEvent)
    (placed : plain → ∀ checkpoint, event = .signedCheckpoint checkpoint → ∃ plan ∈ schedule, ∃ earlier last,
      drain.sink.records = earlier ++ [last] ∧ checkpoint = plan.signer.signCheckpoint last.sequence last.recordHash) :
    Ensures (onSink (setup.writeEvent context event)) drain
      (fun record after => DrainKept setup.crypto schedule plain after ∧ after.sink.records = drain.sink.records ++ [record])
      (fun _ after => DrainKept setup.crypto schedule plain after) := by
  refine ensures_weaken (ensures_onSink (writeEvent_cases context event drain.sink)) ?_ ?_
  · intro record after written
    obtain ⟨sink,rfl,sequence,next,rfl,rfl⟩ := written
    refine ⟨⟨appended_kept kept.sink next,?_,?_⟩,rfl⟩
    · intro holds
      refine (kept.covered holds).append ?_
      intro checkpoint stored
      exact placed holds checkpoint (Redactor.redactEvent_ordinary _ _ stored)
    · intro checkpoint member
      obtain ⟨record,old,covers⟩ := kept.signed checkpoint member
      exact ⟨record,List.mem_append_left _ old,covers⟩
  · intro error after stopped
    obtain ⟨sink,rfl,records,link,next⟩ := stopped
    exact kept.frame sink records link next

theorem flush_kept (kept : DrainKept setup.crypto schedule plain drain) :
    Ensures (onSink setup.flush) drain
      (fun _ after => DrainKept setup.crypto schedule plain after ∧ after.sink.records = drain.sink.records)
      (fun _ after => DrainKept setup.crypto schedule plain after) := by
  refine ensures_weaken (ensures_onSink (flush_cases drain.sink)) ?_ ?_
  · intro _ after flushed
    obtain ⟨sink,rfl,rfl⟩ := flushed
    exact ⟨kept.frame _ rfl rfl rfl,rfl⟩
  · intro error after stopped
    obtain ⟨sink,rfl,records,link,next⟩ := stopped
    exact kept.frame sink records link next

theorem signCheckpoint_kept (kept : DrainKept setup.crypto schedule plain drain) (signer : CheckpointSigner)
    (member : record ∈ drain.sink.records) :
    Ensures (signCheckpoint signer record) drain
      (fun checkpoint after => checkpoint = signer.signCheckpoint record.sequence record.recordHash ∧
        DrainKept setup.crypto schedule plain after ∧ after.sink = drain.sink)
      (fun _ after => DrainKept setup.crypto schedule plain after) := by
  apply ensures_ok
  · rfl
  · refine ⟨rfl,⟨kept.sink,kept.covered,?_⟩,rfl⟩
    intro checkpoint signed
    rcases List.mem_append.mp signed with old | new
    · exact kept.signed checkpoint old
    · rw [List.mem_singleton.mp new]
      exact ⟨record,member,rfl,rfl⟩

theorem writeCheckpoint_kept (kept : DrainKept setup.crypto schedule plain drain) (plan : CheckpointSchedule)
    (planned : plan ∈ schedule) (context : AuditContext) (earlier : List AuditRecord)
    (last : drain.sink.records = earlier ++ [record]) :
    Leaves (setup.writeCheckpoint plan context record) drain (DrainKept setup.crypto schedule plain) := by
  have member : record ∈ drain.sink.records := by rw [last]; exact List.mem_append_right _ List.mem_cons_self
  refine ensures_then (signCheckpoint_kept kept plan.signer member) ?_
  intro checkpoint middle signed
  obtain ⟨rfl,keptMiddle,same⟩ := signed
  refine ensures_then (write_kept keptMiddle context _ ?_) ?_
  · intro _ checkpoint stored
    cases stored
    exact ⟨plan,planned,earlier,record,by rw [same,last],rfl⟩
  · intro _ written writtenKept
    exact ensures_weaken (flush_kept writtenKept.1) (fun _ _ flushed => flushed.1) (fun _ _ stopped => stopped)

def Ordinary (envelope : AuditEnvelope) : Prop := ∀ checkpoint, envelope.event ≠ .signedCheckpoint checkpoint

theorem drainOne_kept (kept : DrainKept setup.crypto schedule plain drain) (envelope : AuditEnvelope)
    (ordinary : plain → Ordinary envelope) :
    Leaves (setup.drainOne schedule envelope) drain (DrainKept setup.crypto schedule plain) := by
  refine ensures_then (write_kept kept envelope.context envelope.event
    (fun holds checkpoint same => absurd same (ordinary holds checkpoint))) ?_
  intro record written writtenKept
  obtain ⟨keptWritten,records⟩ := writtenKept
  have counted : Ensures countEvent written
      (fun _ after => DrainKept setup.crypto schedule plain after ∧ after.sink = written.sink)
      (fun _ after => DrainKept setup.crypto schedule plain after) := by
    apply ensures_ok
    · rfl
    · exact ⟨⟨keptWritten.sink,keptWritten.covered,keptWritten.signed⟩,rfl⟩
  refine ensures_then counted ?_
  intro ordinaryEvents counting countingKept
  refine ensures_then (flush_kept countingKept.1) ?_
  intro _ flushed flushedKept
  have last : flushed.sink.records = drain.sink.records ++ [record] := by
    rw [flushedKept.2,countingKept.2,records]
  cases schedule with
  | none => exact ensures_pure flushedKept.1
  | some plan =>
      simp only
      split
      · exact writeCheckpoint_kept flushedKept.1 plan rfl envelope.context _ last
      · exact ensures_pure flushedKept.1

theorem drain_kept (kept : DrainKept setup.crypto schedule plain drain) (envelopes : List AuditEnvelope)
    (ordinary : plain → ∀ envelope ∈ envelopes, Ordinary envelope) :
    Leaves (setup.drainJsonlWithCheckpoints schedule envelopes) drain (DrainKept setup.crypto schedule plain) := by
  induction envelopes generalizing drain with
  | nil => exact ensures_pure kept
  | cons envelope rest ih =>
      refine ensures_then (drainOne_kept kept envelope (fun holds => ordinary holds envelope List.mem_cons_self)) ?_
      intro _ middle keptMiddle
      exact ih keptMiddle (fun holds later member => ordinary holds later (List.mem_cons_of_mem _ member))

-- One event through the worker, for what only the sink has a part in.
theorem drainOne_ensures (holds : JsonlAuditSink → Prop) {broken : AuditError → Drain → Prop} (envelope : AuditEnvelope)
    (write : Ensures (onSink (setup.writeEvent envelope.context envelope.event)) drain (fun _ after => holds after.sink) broken)
    (check : ∀ (before : Drain) checkpoint, holds before.sink →
      Ensures (onSink (setup.writeEvent envelope.context (.signedCheckpoint checkpoint))) before
        (fun _ after => holds after.sink) broken)
    (flush : ∀ before : Drain, holds before.sink →
      Ensures (onSink setup.flush) before (fun _ after => holds after.sink) broken) :
    Ensures (setup.drainOne schedule envelope) drain (fun _ after => holds after.sink) broken := by
  refine ensures_then write ?_
  intro record written held
  have counted : Ensures countEvent written (fun _ after => after.sink = written.sink) broken := ensures_ok rfl rfl
  refine ensures_then counted ?_
  intro ordinaryEvents counting same
  refine ensures_then (flush counting (same ▸ held)) ?_
  intro _ flushed ready
  cases schedule with
  | none => exact ensures_pure ready
  | some plan =>
      simp only
      split
      · have signing : Ensures (signCheckpoint plan.signer record) flushed (fun _ after => after.sink = flushed.sink) broken :=
          ensures_ok rfl rfl
        refine ensures_then signing ?_
        intro checkpoint signed unchanged
        exact ensures_then (check signed checkpoint (unchanged ▸ ready)) (fun _ => flush)
      · exact ensures_pure ready

-- A sink that has met no failure holds the lines of its records and nothing else.
structure Live (crypto : Crypto) (sink : JsonlAuditSink) : Prop where
  kept : SinkKept crypto sink
  clean : sink.poisoned = false
  lines : sink.received = sink.records.flatMap line

theorem Live.new (crypto : Crypto) : Live crypto .new := ⟨.new crypto,rfl,rfl⟩

section Reliable

variable (reliable : setup.writer = .reliable)

include reliable

theorem writeEvent_reliable (live : Live setup.crypto sink) (room : sink.records.length + 1 ≤ u64Max)
    (context : AuditContext) (event : AuditEvent) :
    Ensures (setup.writeEvent context event) sink
      (fun record after => Live setup.crypto after ∧ after.records = sink.records ++ [record]) (fun _ _ => False) := by
  have next := (live.kept.next ⟨sink.records.length + 1,Nat.succ_pos _,room⟩).mpr rfl
  have took : setup.writer.writeAll sink.writes = none := by rw [reliable]; rfl
  apply ensures_ok
  · simp only [EStateM.run,writeEvent,live.clean,next,took]
    rfl
  · refine ⟨⟨appended_kept live.kept next,live.clean,?_⟩,rfl⟩
    rw [appended,List.flatMap_append,List.flatMap_singleton,live.lines]

theorem flush_reliable (live : Live setup.crypto sink) :
    Ensures setup.flush sink (fun _ after => Live setup.crypto after ∧ after.records = sink.records)
      (fun _ _ => False) := by
  have flushed : setup.writer.flush sink.flushes = true := by rw [reliable]; rfl
  apply ensures_ok
  · simp only [EStateM.run,flush,live.clean,flushed]
    rfl
  · exact ⟨⟨live.kept.frame rfl rfl rfl,rfl,live.lines⟩,rfl⟩

theorem drainOne_reliable (live : Live setup.crypto drain.sink) (room : drain.sink.records.length + 2 ≤ u64Max)
    (envelope : AuditEnvelope) :
    Ensures (setup.drainOne schedule envelope) drain
      (fun _ after => Live setup.crypto after.sink ∧ drain.sink.records.length + 1 ≤ after.sink.records.length ∧
        after.sink.records.length ≤ drain.sink.records.length + 2)
      (fun _ _ => False) := by
  refine ensures_then (onSink_total (writeEvent_reliable reliable live (by omega) envelope.context
    envelope.event)) ?_
  intro record written facts
  obtain ⟨liveWritten,records⟩ := facts
  have counted : Ensures countEvent written (fun _ after => after.sink = written.sink) (fun _ _ => False) := by
    apply ensures_ok
    · rfl
    · rfl
  refine ensures_then counted ?_
  intro ordinaryEvents counting same
  refine ensures_then (onSink_total (flush_reliable reliable (same ▸ liveWritten))) ?_
  intro _ flushed facts
  obtain ⟨liveFlushed,flushedRecords⟩ := facts
  have length : flushed.sink.records.length = drain.sink.records.length + 1 := by
    rw [flushedRecords,same,records,List.length_append,List.length_singleton]
  have done : Live setup.crypto flushed.sink ∧ drain.sink.records.length + 1 ≤ flushed.sink.records.length ∧
      flushed.sink.records.length ≤ drain.sink.records.length + 2 := ⟨liveFlushed,by omega,by omega⟩
  cases schedule with
  | none => exact ensures_pure done
  | some plan =>
      simp only
      split
      · have signing : Ensures (signCheckpoint plan.signer record) flushed (fun _ after => after.sink = flushed.sink)
            (fun _ _ => False) := by
          apply ensures_ok
          · rfl
          · rfl
        refine ensures_then signing ?_
        intro checkpoint signed signedSame
        have signedLength : signed.sink.records.length + 1 ≤ u64Max := by rw [signedSame,length]; omega
        refine ensures_then (onSink_total (writeEvent_reliable reliable (signedSame ▸ liveFlushed) signedLength _ _)) ?_
        intro stored after facts
        obtain ⟨liveAfter,afterRecords⟩ := facts
        refine ensures_weaken (onSink_total (flush_reliable reliable liveAfter)) ?_ (fun _ _ no => no)
        intro _ final facts
        have total : final.sink.records.length = drain.sink.records.length + 2 := by
          rw [facts.2,afterRecords,signedSame,List.length_append,List.length_singleton,length]
        exact ⟨facts.1,by omega,by omega⟩
      · exact ensures_pure done

theorem drain_reliable (live : Live setup.crypto drain.sink) (envelopes : List AuditEnvelope)
    (room : drain.sink.records.length + 2 * envelopes.length ≤ u64Max) :
    Ensures (setup.drainJsonlWithCheckpoints schedule envelopes) drain
      (fun _ after => Live setup.crypto after.sink ∧
        drain.sink.records.length + envelopes.length ≤ after.sink.records.length ∧
        after.sink.records.length ≤ drain.sink.records.length + 2 * envelopes.length)
      (fun _ _ => False) := by
  induction envelopes generalizing drain with
  | nil => exact ensures_pure ⟨live,Nat.le_refl _,Nat.le_refl _⟩
  | cons envelope rest ih =>
      rw [List.length_cons] at room
      refine ensures_then (drainOne_reliable reliable live (by omega) envelope) ?_
      intro _ middle facts
      obtain ⟨liveMiddle,least,most⟩ := facts
      refine ensures_weaken (ih liveMiddle (by omega)) ?_ (fun _ _ no => no)
      intro _ after total
      rw [List.length_cons]
      exact ⟨total.1,by omega,by omega⟩

end Reliable

end SinkSetup

end Freja.Audit
