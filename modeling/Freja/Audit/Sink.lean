import Freja.Audit.Record
import Freja.Audit.Redaction
import Freja.Foundation.Effect
import Freja.Foundation.HashChain

namespace Freja.Audit
open Domain Bytes Effect

inductive AuditError where
  | write
  | sinkPoisoned
  | sequenceExhausted
  deriving DecidableEq, Repr

-- The calls on the writer are numbered. A write that fails may have taken some
-- of its bytes.
structure Writer where
  writeAll : Nat → Option Nat
  flush : Nat → Bool

def Writer.reliable : Writer := ⟨fun _ => none,fun _ => true⟩

-- The writer holds what it received; the records it took completely are kept
-- beside it.
structure JsonlAuditSink where
  received : List UInt8
  records : List AuditRecord
  writes : Nat
  flushes : Nat
  nextSequence : Option AuditSequence
  previousHash : Option RecordHash
  poisoned : Bool

def JsonlAuditSink.new : JsonlAuditSink := ⟨[],[],0,0,some .first,none,false⟩

def line (record : AuditRecord) : List UInt8 := record.json.bytes ++ [10]

-- What the sink is built with.
structure SinkSetup where
  crypto : Crypto
  urls : UrlCrate
  redactor : Redactor
  writer : Writer

namespace SinkSetup

variable (setup : SinkSetup)

def unsigned (sink : JsonlAuditSink) (sequence : AuditSequence) (context : AuditContext) (event : AuditEvent) :
    UnsignedAuditRecord :=
  ⟨.current,sequence,context.occurredAt,context.sessionId,context.transactionId,context.policyGeneration,
    setup.redactor.redactEvent setup.urls event,sink.previousHash⟩

def record (sink : JsonlAuditSink) (sequence : AuditSequence) (context : AuditContext) (event : AuditEvent) :
    AuditRecord :=
  ⟨setup.unsigned sink sequence context event,setup.crypto.digest (setup.unsigned sink sequence context event)⟩

def appended (sink : JsonlAuditSink) (sequence : AuditSequence) (record : AuditRecord) : JsonlAuditSink :=
  {sink with
    received := sink.received ++ line record
    records := sink.records ++ [record]
    writes := sink.writes + 1
    previousHash := some record.recordHash
    nextSequence := sequence.checkedNext}

def writeEvent (context : AuditContext) (event : AuditEvent) : EStateM AuditError JsonlAuditSink AuditRecord :=
  fun sink =>
    if sink.poisoned then .error .sinkPoisoned sink
    else
      match sink.nextSequence with
      | none => .error .sequenceExhausted sink
      | some sequence =>
          let record := setup.record sink sequence context event
          match setup.writer.writeAll sink.writes with
          | some taken =>
              .error .write {sink with
                received := sink.received ++ (line record).take taken
                writes := sink.writes + 1
                poisoned := true}
          | none => .ok record (appended sink sequence record)

def flush : EStateM AuditError JsonlAuditSink Unit := fun sink =>
  if sink.poisoned then .error .sinkPoisoned sink
  else
    let after := {sink with flushes := sink.flushes + 1}
    if setup.writer.flush sink.flushes then .ok () after else .error .write after

end SinkSetup

-- The worker's own variables, and the checkpoints it had signed so far.
structure Drain where
  sink : JsonlAuditSink
  ordinaryEvents : Nat
  signed : List SignedCheckpoint

def Drain.new : Drain := ⟨.new,0,[]⟩

def onSink (program : EStateM AuditError JsonlAuditSink α) : EStateM AuditError Drain α := fun drain =>
  match program drain.sink with
  | .ok value sink => .ok value {drain with sink := sink}
  | .error error sink => .error error {drain with sink := sink}

def countEvent : EStateM AuditError Drain Nat := fun drain =>
  let ordinaryEvents := saturatingAdd drain.ordinaryEvents 1
  .ok ordinaryEvents {drain with ordinaryEvents := ordinaryEvents}

def signCheckpoint (signer : CheckpointSigner) (record : AuditRecord) : EStateM AuditError Drain SignedCheckpoint :=
  fun drain =>
    let checkpoint := signer.signCheckpoint record.sequence record.recordHash
    .ok checkpoint {drain with signed := drain.signed ++ [checkpoint]}

namespace SinkSetup

variable (setup : SinkSetup) (schedule : Option CheckpointSchedule)

def writeCheckpoint (plan : CheckpointSchedule) (context : AuditContext) (record : AuditRecord) :
    EStateM AuditError Drain Unit := do
  let checkpoint ← signCheckpoint plan.signer record
  let _ ← onSink (setup.writeEvent context (.signedCheckpoint checkpoint))
  onSink setup.flush

def drainOne (envelope : AuditEnvelope) : EStateM AuditError Drain Unit := do
  let record ← onSink (setup.writeEvent envelope.context envelope.event)
  let ordinaryEvents ← countEvent
  onSink setup.flush
  match schedule with
  | none => pure ()
  | some plan =>
      if ordinaryEvents % plan.interval = 0 then setup.writeCheckpoint plan envelope.context record else pure ()

def drainJsonlWithCheckpoints : List AuditEnvelope → EStateM AuditError Drain Unit
  | [] => pure ()
  | envelope :: rest => do
      setup.drainOne schedule envelope
      drainJsonlWithCheckpoints rest

end SinkSetup

end Freja.Audit
