import Freja.Audit.Chain

namespace Freja.Audit
open Domain Effect

-- One captured piece of a stream, as an event and the record of that event hold it.
structure CapturedPrefix where
  sessionId : SessionId
  transactionId : Option TransactionId
  direction : Direction
  protocol : Protocol
  bytesHex : String
  deriving DecidableEq, Repr

def capturedPrefix (sessionId : SessionId) (transactionId : Option TransactionId) : AuditEvent → Option CapturedPrefix
  | .payloadPrefixCaptured direction protocol bytesHex => some ⟨sessionId,transactionId,direction,protocol,bytesHex⟩
  | _ => none

def AuditEnvelope.captured (envelope : AuditEnvelope) : Option CapturedPrefix :=
  capturedPrefix envelope.context.sessionId envelope.context.transactionId envelope.event

def AuditRecord.captured (record : AuditRecord) : Option CapturedPrefix :=
  capturedPrefix record.sessionId record.transactionId record.event

theorem redactEvent_captured (redactor : Redactor) (urls : UrlCrate) (sessionId : SessionId)
    (transactionId : Option TransactionId) (event : AuditEvent) :
    capturedPrefix sessionId transactionId (redactor.redactEvent urls event) =
      capturedPrefix sessionId transactionId event := by
  unfold Redactor.redactEvent
  split
  all_goals rfl

theorem Direction.text_injective : Function.Injective Direction.text := by
  intro first second same
  cases first <;> cases second <;> first | rfl | exact absurd same (by decide)

theorem Protocol.text_injective : Function.Injective Protocol.text := by
  intro first second same
  cases first <;> cases second <;> first | rfl | exact absurd same (by decide)

theorem capturedPrefix_none {event : AuditEvent} (sessionId : SessionId) (transactionId : Option TransactionId) :
    capturedPrefix sessionId transactionId event = none ↔ event.eventType ≠ "payload-prefix-captured" := by
  cases event <;> simp [capturedPrefix,AuditEvent.eventType]

theorem capturedPrefix_event {event : AuditEvent} (captured : capturedPrefix sessionId transactionId event = some piece) :
    event = .payloadPrefixCaptured piece.direction piece.protocol piece.bytesHex := by
  cases event with
  | payloadPrefixCaptured =>
      cases captured
      rfl
  | _ => cases captured

theorem captured_json {first second : AuditEvent} (same : first.json = second.json) (sessionId : SessionId)
    (transactionId : Option TransactionId) :
    capturedPrefix sessionId transactionId first = capturedPrefix sessionId transactionId second := by
  simp only [AuditEvent.json,Json.object.injEq,List.cons.injEq,Prod.mk.injEq,Json.string.injEq,true_and,and_true] at same
  obtain ⟨types,contents⟩ := same
  by_cases capture : first.eventType = "payload-prefix-captured"
  · cases first with
    | payloadPrefixCaptured =>
        cases second with
        | payloadPrefixCaptured =>
            simp only [AuditEvent.fields,List.cons.injEq,Prod.mk.injEq,Json.string.injEq,true_and,and_true] at contents
            obtain ⟨directions,protocols,texts⟩ := contents
            rw [Direction.text_injective directions,Protocol.text_injective protocols,texts]
        | _ => exact absurd types (by simp only [AuditEvent.eventType]; decide)
    | _ => exact absurd capture (by simp only [AuditEvent.eventType]; decide)
  · have other : second.eventType ≠ "payload-prefix-captured" := by
      rw [← types]
      exact capture
    rw [(capturedPrefix_none sessionId transactionId).mpr capture,(capturedPrefix_none sessionId transactionId).mpr other]

namespace SinkSetup

variable {setup : SinkSetup} {schedule : Option CheckpointSchedule}

-- A sink that took everything holds the lines of its records, and in them the
-- captured pieces of the events in their order.
structure Holds (pieces : List CapturedPrefix) (sink : JsonlAuditSink) : Prop where
  lines : sink.received = sink.records.flatMap line
  captured : sink.records.filterMap AuditRecord.captured = pieces

theorem Holds.new : Holds [] .new := ⟨rfl,rfl⟩

theorem writeEvent_holds (context : AuditContext) (event : AuditEvent) {drain : Drain}
    (holds : Holds pieces drain.sink) :
    Ensures (onSink (setup.writeEvent context event)) drain
      (fun _ after => Holds (pieces ++ (capturedPrefix context.sessionId context.transactionId event).toList) after.sink)
      (fun _ _ => True) := by
  refine ensures_weaken (ensures_onSink (writeEvent_cases context event drain.sink)) ?_ (fun _ _ _ => trivial)
  intro record after done
  obtain ⟨sink,rfl,sequence,_,rfl,rfl⟩ := done
  have single : AuditRecord.captured (setup.record drain.sink sequence context event) =
      capturedPrefix context.sessionId context.transactionId event :=
    redactEvent_captured setup.redactor setup.urls _ _ event
  refine ⟨?_,?_⟩
  · change drain.sink.received ++ _ = (drain.sink.records ++ [_]).flatMap line
    rw [holds.lines,List.flatMap_append,List.flatMap_singleton]
  · change List.filterMap AuditRecord.captured (drain.sink.records ++ [_]) = _
    rw [List.filterMap_append,holds.captured]
    cases capture : capturedPrefix context.sessionId context.transactionId event with
    | none | some => simp [single,capture]

theorem flush_holds {drain : Drain} (holds : Holds pieces drain.sink) :
    Ensures (onSink setup.flush) drain (fun _ after => Holds pieces after.sink) (fun _ _ => True) := by
  refine ensures_weaken (ensures_onSink (flush_cases drain.sink)) ?_ (fun _ _ _ => trivial)
  intro _ after done
  obtain ⟨sink,rfl,rfl⟩ := done
  exact ⟨holds.lines,holds.captured⟩

theorem drainOne_holds (envelope : AuditEnvelope) {drain : Drain} (holds : Holds pieces drain.sink) :
    Ensures (setup.drainOne schedule envelope) drain
      (fun _ after => Holds (pieces ++ envelope.captured.toList) after.sink) (fun _ _ => True) := by
  refine drainOne_ensures (Holds _) envelope (writeEvent_holds envelope.context envelope.event holds) ?_
    (fun _ => flush_holds)
  intro before checkpoint held
  refine ensures_weaken (writeEvent_holds envelope.context (.signedCheckpoint checkpoint) held) ?_ (fun _ _ _ => trivial)
  intro _ after written
  rwa [show capturedPrefix _ _ (.signedCheckpoint checkpoint) = none from rfl,Option.toList_none,List.append_nil] at written

theorem drain_holds (envelopes : List AuditEnvelope) {drain : Drain} (holds : Holds pieces drain.sink) :
    Ensures (setup.drainJsonlWithCheckpoints schedule envelopes) drain
      (fun _ after => Holds (pieces ++ envelopes.filterMap AuditEnvelope.captured) after.sink) (fun _ _ => True) := by
  induction envelopes generalizing pieces drain with
  | nil =>
      refine ensures_pure ?_
      rw [List.filterMap_nil,List.append_nil]
      exact holds
  | cons envelope rest ih =>
      refine ensures_then (drainOne_holds envelope holds) ?_
      intro _ middle held
      refine ensures_weaken (ih held) ?_ (fun _ _ _ => trivial)
      intro _ after done
      rw [List.append_assoc] at done
      cases capture : envelope.captured with
      | none =>
          rw [List.filterMap_cons_none capture]
          rwa [capture,Option.toList_none,List.nil_append] at done
      | some =>
          rw [List.filterMap_cons_some capture]
          rwa [capture,Option.toList_some,List.singleton_append] at done

end SinkSetup

end Freja.Audit
