import Freja.Audit.Chain
import Freja.Foundation.Transducer

namespace Freja.Audit
open Domain Bytes Effect Transducer

-- Which records the JSON library encodes, asked once for the hashed and once for the
-- stored form.
structure Serializer where
  unsigned : UnsignedAuditRecord → Bool
  record : AuditRecord → Bool

def Serializer.total : Serializer := ⟨fun _ => true,fun _ => true⟩

inductive SinkError where
  | serialize
  | write
  | sinkPoisoned
  | sequenceExhausted
  deriving DecidableEq, Repr

def SinkError.ofAudit : AuditError → SinkError
  | .write => .write
  | .sinkPoisoned => .sinkPoisoned
  | .sequenceExhausted => .sequenceExhausted

def relabel : EStateM.Result AuditError JsonlAuditSink α → EStateM.Result SinkError JsonlAuditSink α
  | .ok value sink => .ok value sink
  | .error error sink => .error (.ofAudit error) sink

inductive SinkCall where
  | writeEvent (context : AuditContext) (event : AuditEvent)
  | flush
  deriving DecidableEq, Repr

namespace SinkSetup

variable (setup : SinkSetup) (serializer : Serializer)

def encodes (sink : JsonlAuditSink) (context : AuditContext) (event : AuditEvent) (sequence : AuditSequence) : Bool :=
  serializer.unsigned (setup.unsigned sink sequence context event) &&
    serializer.record (setup.record sink sequence context event)

-- The same call where the encoding may fail: nothing has been written by then.
def writeEncoded (context : AuditContext) (event : AuditEvent) : EStateM SinkError JsonlAuditSink AuditRecord :=
  fun sink =>
    if !sink.poisoned && !sink.nextSequence.all (setup.encodes serializer sink context event) then .error .serialize sink
    else relabel (setup.writeEvent context event sink)

def outcome : EStateM.Result SinkError JsonlAuditSink α → JsonlAuditSink × Option SinkError
  | .ok _ sink => (sink,none)
  | .error error sink => (sink,some error)

def call (sink : JsonlAuditSink) : SinkCall → JsonlAuditSink × Option SinkError
  | .writeEvent context event => outcome (setup.writeEncoded serializer context event sink)
  | .flush => outcome (relabel (setup.flush sink))

def answer (sink : JsonlAuditSink) (request : SinkCall) : JsonlAuditSink × List (Option SinkError) :=
  ((setup.call serializer sink request).1,[(setup.call serializer sink request).2])

def calls (sink : JsonlAuditSink) (requests : List SinkCall) : JsonlAuditSink × List (Option SinkError) :=
  feedEach (setup.answer serializer) sink requests

variable {setup serializer}

theorem writeEncoded_total (context : AuditContext) (event : AuditEvent) (sink : JsonlAuditSink) :
    setup.writeEncoded .total context event sink = relabel (setup.writeEvent context event sink) := by
  have all : sink.nextSequence.all (setup.encodes .total sink context event) = true := by
    cases sink.nextSequence <;> rfl
  unfold writeEncoded
  rw [all,Bool.not_true,Bool.and_false]
  rfl

end SinkSetup

-- All that one call can do. The record of a broken write would have been the next one.
inductive Called (setup : SinkSetup) (sink : JsonlAuditSink) : SinkCall → JsonlAuditSink → Option SinkError → Prop
  | poisoned : sink.poisoned = true → Called setup sink request sink (some .sinkPoisoned)
  | exhausted : sink.poisoned = false → sink.nextSequence = none →
      Called setup sink (.writeEvent context event) sink (some .sequenceExhausted)
  | unencoded : sink.poisoned = false → Called setup sink (.writeEvent context event) sink (some .serialize)
  | broken {sequence : AuditSequence} : sink.poisoned = false → sink.nextSequence = some sequence →
      Called setup sink (.writeEvent context event)
        {sink with
          received := sink.received ++ (line (setup.record sink sequence context event)).take taken
          writes := sink.writes + 1
          poisoned := true} (some .write)
  | written {sequence : AuditSequence} : sink.poisoned = false → sink.nextSequence = some sequence →
      Called setup sink (.writeEvent context event)
        (SinkSetup.appended sink sequence (setup.record sink sequence context event)) none
  | flushed : sink.poisoned = false → Called setup sink .flush {sink with flushes := sink.flushes + 1} none
  | unflushed : sink.poisoned = false →
      Called setup sink .flush {sink with flushes := sink.flushes + 1} (some .write)

theorem call_called (setup : SinkSetup) (serializer : Serializer) (sink : JsonlAuditSink) (request : SinkCall) :
    Called setup sink request (setup.call serializer sink request).1 (setup.call serializer sink request).2 := by
  cases healthy : sink.poisoned with
  | true =>
      cases request with
      | writeEvent =>
          simp only [SinkSetup.call,SinkSetup.writeEncoded,SinkSetup.writeEvent,healthy,if_true]
          exact .poisoned healthy
      | flush =>
          simp only [SinkSetup.call,SinkSetup.flush,healthy,if_true,relabel,SinkError.ofAudit,SinkSetup.outcome]
          exact .poisoned healthy
  | false =>
      have open_ : ¬ sink.poisoned = true := by simp [healthy]
      cases request with
      | flush =>
          simp only [SinkSetup.call,SinkSetup.flush,if_neg open_]
          split
          · exact .flushed healthy
          · exact .unflushed healthy
      | writeEvent context event =>
          simp only [SinkSetup.call,SinkSetup.writeEncoded,SinkSetup.writeEvent,if_neg open_]
          split
          · exact .unencoded healthy
          · split
            · rename_i next
              exact .exhausted healthy next
            · rename_i next
              split
              · exact .broken healthy next
              · exact .written healthy next

-- What the writer has received: the lines of a chain, and the start of one more line
-- where a write broke.
structure Received (crypto : Crypto) (sink : JsonlAuditSink) (rest : List UInt8) : Prop where
  bytes : sink.received = (sink.records.map line).flatten ++ rest
  cut : rest = [] ∨ sink.poisoned = true ∧ ∃ record, Chained crypto (sink.records ++ [record]) ∧ rest <+: line record

structure Sound (crypto : Crypto) (sink : JsonlAuditSink) : Prop where
  kept : SinkKept crypto sink
  received : ∃ rest, Received crypto sink rest

theorem new_sound (crypto : Crypto) : Sound crypto .new := ⟨.new crypto,[],rfl,.inl rfl⟩

theorem Sound.healthy (sound : Sound crypto sink) (healthy : sink.poisoned = false) :
    sink.received = (sink.records.map line).flatten := by
  obtain ⟨rest,bytes,none | ⟨poisoned,_⟩⟩ := sound.received
  · rw [bytes,none,List.append_nil]
  · rw [healthy] at poisoned
    cases poisoned

theorem called_sound (sound : Sound setup.crypto sink) (done : Called setup sink request after result) :
    Sound setup.crypto after := by
  cases done with
  | poisoned | exhausted | unencoded => exact sound
  | flushed healthy | unflushed healthy =>
      refine ⟨sound.kept.frame rfl rfl rfl,[],?_,.inl rfl⟩
      simpa using sound.healthy healthy
  | @broken context event taken sequence healthy next =>
      have after : SinkKept setup.crypto (SinkSetup.appended sink sequence (setup.record sink sequence context event)) :=
        SinkSetup.appended_kept sound.kept next
      have chained := after.chained
      refine ⟨sound.kept.frame rfl rfl rfl,_,?_,.inr ⟨rfl,_,chained,List.take_prefix taken _⟩⟩
      rw [← sound.healthy healthy]
  | @written context event sequence healthy next =>
      refine ⟨SinkSetup.appended_kept sound.kept next,[],?_,.inl rfl⟩
      simp [SinkSetup.appended,sound.healthy healthy]

theorem calls_sound (setup : SinkSetup) (serializer : Serializer) (requests : List SinkCall) :
    Sound setup.crypto (setup.calls serializer .new requests).1 :=
  feedEach_invariant (fun sink (_ : List (Option SinkError)) _ => Sound setup.crypto sink) (new_sound setup.crypto)
    (fun sink _ _ request sound => called_sound sound (call_called setup serializer sink request)) requests

theorem calls_poisoned (setup : SinkSetup) (serializer : Serializer) (poisoned : sink.poisoned = true)
    (requests : List SinkCall) :
    setup.calls serializer sink requests = (sink,requests.map (fun _ => some .sinkPoisoned)) := by
  unfold SinkSetup.calls
  induction requests using List.reverseRecOn with
  | nil => rfl
  | append_singleton before request ih =>
      rw [feedEach_snoc,ih,emitting,SinkSetup.answer]
      have done := call_called setup serializer sink request
      cases result : setup.call serializer sink request with
      | mk =>
          rw [result] at done
          have open_ (healthy : sink.poisoned = false) : False := by
            rw [poisoned] at healthy
            cases healthy
          cases done with
          | poisoned => simp
          | exhausted healthy | unencoded healthy | broken healthy | written healthy | flushed healthy | unflushed healthy =>
              exact (open_ healthy).elim

theorem Chained.distinct (chained : Chained crypto records) :
    (records.map (fun record => record.sequence.value)).Nodup := by
  rw [chained.numbered]
  exact List.nodup_range'

theorem sink_keeps_chain (setup : SinkSetup) (serializer : Serializer) (requests : List SinkCall) :
    (∃ rest, (setup.calls serializer .new requests).1.received =
        ((setup.calls serializer .new requests).1.records.map line).flatten ++ rest ∧
      Chained setup.crypto (setup.calls serializer .new requests).1.records ∧
      (rest = [] ∨ ∃ record, rest <+: line record ∧
        Chained setup.crypto ((setup.calls serializer .new requests).1.records ++ [record]) ∧
        (((setup.calls serializer .new requests).1.records ++ [record]).map
          (fun record => record.sequence.value)).Nodup)) ∧
    ((setup.calls serializer .new requests).1.records.map (fun record => record.sequence.value)).Nodup ∧
    (∀ context event later,
      (setup.call serializer (setup.calls serializer .new requests).1 (.writeEvent context event)).2 = some .write →
      setup.calls serializer .new (requests ++ .writeEvent context event :: later) =
        ((setup.call serializer (setup.calls serializer .new requests).1 (.writeEvent context event)).1,
          (setup.calls serializer .new requests).2 ++ some .write :: later.map (fun _ => some .sinkPoisoned))) ∧
    ∀ request, (setup.call serializer (setup.calls serializer .new requests).1 request).2 = some .serialize ∨
        (setup.call serializer (setup.calls serializer .new requests).1 request).2 = some .sequenceExhausted →
      (setup.call serializer (setup.calls serializer .new requests).1 request).1 =
        (setup.calls serializer .new requests).1 := by
  have sound := calls_sound setup serializer requests
  refine ⟨?_,sound.kept.chained.distinct,?_,?_⟩
  · obtain ⟨rest,bytes,none | ⟨_,record,chained,start⟩⟩ := sound.received
    · exact ⟨rest,bytes,sound.kept.chained,.inl none⟩
    · exact ⟨rest,bytes,sound.kept.chained,.inr ⟨record,start,chained,chained.distinct⟩⟩
  · intro context event later failed
    generalize reached : setup.calls serializer .new requests = before at failed ⊢
    have poisoned : (setup.call serializer before.1 (.writeEvent context event)).1.poisoned = true := by
      have done := call_called setup serializer before.1 (.writeEvent context event)
      rw [failed] at done
      generalize (setup.call serializer before.1 (.writeEvent context event)).1 = after at done
      cases done
      rfl
    have rest := calls_poisoned setup serializer poisoned later
    unfold SinkSetup.calls at reached rest ⊢
    have once : requests ++ .writeEvent context event :: later = (requests ++ [.writeEvent context event]) ++ later := by
      simp
    rw [once,feedEach_append,feedEach_snoc,reached,emitting,SinkSetup.answer]
    dsimp only
    rw [rest,failed]
    simp
  · intro request rejected
    generalize (setup.calls serializer .new requests).1 = before at rejected ⊢
    have done := call_called setup serializer before request
    generalize (setup.call serializer before request).1 = after at done ⊢
    generalize (setup.call serializer before request).2 = result at done rejected
    cases done with
    | poisoned | exhausted | unencoded => rfl
    | broken | written | flushed | unflushed => simp at rejected

-- A writer that breaks in the middle of its first line.
def breaking : SinkSetup :=
  ⟨⟨fun _ => Vector.replicate 32 0,fun _ => true,fun _ _ _ => true⟩,noUrls,.new [],⟨fun _ => some 3,fun _ => true⟩⟩

def brokenCall : SinkCall := .writeEvent ⟨1,⟨1⟩,none,.initial⟩ (.proxyAuthentication .rejected)

theorem breaking_poisons :
    (breaking.calls .total .new [.flush,brokenCall,.flush,brokenCall]).2 =
      [none,some .write,some .sinkPoisoned,some .sinkPoisoned] := by
  have failed := (sink_keeps_chain breaking .total [.flush]).2.2.1 ⟨1,⟨1⟩,none,.initial⟩
    (.proxyAuthentication .rejected) [.flush,brokenCall] rfl
  exact congrArg Prod.snd failed

end Freja.Audit
