import Freja.Foundation.JsonSize
import Freja.Proxy.Headers
import Freja.Replay.CapturedStreams

namespace Freja.Config

-- What the data plane is set up with for captures.
def CapturePolicy.prefixBytes : CapturePolicy → Option Nat
  | .metadataOnly => none
  | .upTo maxBytes => some maxBytes.get

end Freja.Config

namespace Freja.Replay
open Domain Policy Audit Proxy Effect Bytes

-- An event with captured bytes holds no more of them than the limit.
def WithinCapture (limit : Option Nat) (envelope : AuditEnvelope) : Prop :=
  ∀ piece, envelope.captured = some piece →
    ∃ maximum bytes, limit = some maximum ∧ piece.bytesHex = hexEncode bytes ∧ bytes.length ≤ maximum

theorem uncaptured_within (uncaptured : envelope.captured = none) : WithinCapture limit envelope := by
  intro piece captured
  rw [uncaptured] at captured
  cases captured

section Inspecting

-- All events put forward so far are within the capture limit.
def AllWithin (env : Environment) (state : ServiceState) : Prop :=
  ∀ envelope ∈ state.attempted, WithinCapture env.capturePrefixBytes envelope

variable {env : Environment} {state : ServiceState} (kept : AllWithin env state)
include kept

theorem publish_keeps (within : WithinCapture env.capturePrefixBytes envelope) :
    Leaves (publish env envelope) state (AllWithin env) := by
  have attempted : ∀ after : ServiceState, after.attempted = state.attempted ++ [envelope] → AllWithin env after := by
    intro after same other member
    rw [same] at member
    rcases List.mem_append.mp member with old | new
    · exact kept other old
    · rw [List.mem_singleton.mp new]
      exact within
  exact ensures_weaken (publish_attempts envelope state) (fun _ => attempted)
    (fun _ after failed => attempted after failed.1)

theorem publishEvent_keeps (flow : Flow) (event : AuditEvent)
    (within : ∀ context, WithinCapture env.capturePrefixBytes ⟨context,event⟩) :
    Leaves (publishEvent env flow event) state (AllWithin env) := by
  have context : Leaves (auditContext env flow) state (AllWithin env) := ensures_ok rfl kept
  refine ensures_then context ?_
  intro context loaded held
  exact publish_keeps held (within context)

variable (inspector : FlowInspector)

theorem judge_keeps (context : AuditContext) (findings : List Finding) :
    Leaves (inspector.judge env context findings) state (AllWithin env) := by
  induction findings generalizing state with
  | nil => exact ensures_pure kept
  | cons finding rest ih =>
      unfold FlowInspector.judge
      refine ensures_then (publish_keeps kept (uncaptured_within rfl)) ?_
      intro _ detected first
      refine ensures_then (publish_keeps first (uncaptured_within rfl)) ?_
      intro _ observed second
      refine ensures_then (publish_keeps second (uncaptured_within rfl)) ?_
      intro _ evaluated third
      split
      · exact ih third
      · refine ensures_then (publishEvent_keeps third inspector.flow (.actionExecuted _)
          (fun _ => uncaptured_within rfl)) ?_
        intro _ recorded last
        exact ensures_pure last

theorem capture_keeps (direction : Direction) (bytes : List UInt8) :
    Leaves (inspector.capture env direction bytes) state (AllWithin env) := by
  unfold FlowInspector.capture
  split
  · exact ensures_pure kept
  · rename_i maximum limited
    dsimp only
    split
    · exact ensures_pure kept
    · refine ensures_then (publishEvent_keeps kept inspector.flow (.payloadPrefixCaptured _ _ _) ?_) ?_
      · intro context piece captured
        cases captured
        refine ⟨maximum,_,limited,rfl,?_⟩
        rw [List.length_take]
        omega
      · intro _ after held
        exact ensures_pure held

theorem permits_keeps (direction : Direction) (bytes : List UInt8) :
    Leaves (inspector.permits env direction bytes) state (AllWithin env) := by
  refine ensures_then (capture_keeps kept inspector direction bytes) ?_
  intro captor after held
  split
  · exact ensures_pure held
  · have context : Leaves (auditContext env captor.flow) after (AllWithin env) := ensures_ok rfl held
    refine ensures_then context ?_
    intro context started also
    refine ensures_then (judge_keeps also _ context _) ?_
    intro verdict judged still
    exact ensures_pure still

theorem inspectAll_keeps (arrivals : Arrivals) :
    Leaves (inspector.inspectAll env arrivals) state (AllWithin env) := by
  induction arrivals generalizing inspector state with
  | nil => exact ensures_pure kept
  | cons arrival rest ih =>
      refine ensures_then (permits_keeps kept inspector arrival.1 arrival.2) ?_
      intro result permitted held
      exact ih held result.2

end Inspecting

section Writing

-- A record is of one of the events, or a checkpoint behind one.
def Recorded (setup : SinkSetup) (envelopes : List AuditEnvelope) (record : AuditRecord) : Prop :=
  ∃ envelope ∈ envelopes, record.occurredAt = envelope.context.occurredAt ∧
    (record.event = setup.redactor.redactEvent setup.urls envelope.event ∨
      ∃ checkpoint, record.event = .signedCheckpoint checkpoint)

def AllRecorded (setup : SinkSetup) (envelopes : List AuditEnvelope) (sink : JsonlAuditSink) : Prop :=
  ∀ record ∈ sink.records, Recorded setup envelopes record

variable {setup : SinkSetup} {schedule : Option CheckpointSchedule} {envelopes : List AuditEnvelope} {drain : Drain}
  (recorded : AllRecorded setup envelopes drain.sink)
include recorded

theorem writeEvent_recorded (context : AuditContext) (event : AuditEvent)
    (origin : ∀ record : AuditRecord, record.occurredAt = context.occurredAt →
      record.event = setup.redactor.redactEvent setup.urls event → Recorded setup envelopes record) :
    Leaves (onSink (setup.writeEvent context event)) drain (AllRecorded setup envelopes ·.sink) := by
  refine ensures_weaken (ensures_onSink (SinkSetup.writeEvent_cases context event drain.sink)) ?_ ?_
  · intro record after written
    obtain ⟨sink,rfl,sequence,_,rfl,rfl⟩ := written
    intro record member
    rcases List.mem_append.mp member with old | new
    · exact recorded record old
    · rw [List.mem_singleton.mp new]
      exact origin _ rfl rfl
  · intro error after stopped
    obtain ⟨sink,rfl,records,_⟩ := stopped
    exact fun record member => recorded record (records ▸ member)

theorem flush_recorded : Leaves (onSink setup.flush) drain (AllRecorded setup envelopes ·.sink) := by
  refine ensures_weaken (ensures_onSink (SinkSetup.flush_cases drain.sink)) ?_ ?_
  · intro _ after done
    obtain ⟨sink,rfl,rfl⟩ := done
    exact recorded
  · intro error after stopped
    obtain ⟨sink,rfl,records,_⟩ := stopped
    exact fun record member => recorded record (records ▸ member)

theorem drainOne_recorded (member : envelope ∈ envelopes) :
    Leaves (setup.drainOne schedule envelope) drain (AllRecorded setup envelopes ·.sink) := by
  refine SinkSetup.drainOne_ensures (AllRecorded setup envelopes) envelope
    (writeEvent_recorded recorded _ _ (fun _ time event => ⟨envelope,member,time,.inl event⟩)) ?_ (fun _ => flush_recorded)
  intro before checkpoint held
  exact writeEvent_recorded held _ _ (fun _ time event => ⟨envelope,member,time,.inr ⟨checkpoint,event⟩⟩)

theorem drain_recorded (rest : List AuditEnvelope) (within : ∀ envelope ∈ rest, envelope ∈ envelopes) :
    Leaves (setup.drainJsonlWithCheckpoints schedule rest) drain (AllRecorded setup envelopes ·.sink) := by
  induction rest generalizing drain with
  | nil => exact ensures_pure recorded
  | cons envelope rest ih =>
      refine ensures_then (drainOne_recorded recorded (within envelope List.mem_cons_self)) ?_
      intro _ after held
      exact ih held (fun later member => within later (List.mem_cons_of_mem _ member))

end Writing

section Lengths

open Json

theorem hexEncode_toList (bytes : List UInt8) : (hexEncode bytes).toList.length = 2 * bytes.length := by
  rw [hexEncode,String.toList_ofList]
  induction bytes with
  | nil => rfl
  | cons byte rest ih =>
      simp only [List.flatMap_cons,List.length_append,List.length_cons,List.length_nil,ih]
      omega

theorem uuid_length (uuid : Nat) : (Json.string (uuidText uuid)).bytes.length ≤ 218 := by
  have digits := hexEncode_toList (bigEndian 16 uuid)
  rw [length_bigEndian] at digits
  have text : (uuidText uuid).toList.length = 36 := by
    unfold uuidText
    rw [String.toList_ofList]
    simp only [List.length_append,List.length_cons,List.length_take,List.length_drop,digits]
    omega
  have bound := string_length (uuidText uuid)
  omega

theorem hash_length (hash : RecordHash) : (hashJson hash).bytes.length = 66 := by
  have bound := hex_length hash.toList
  rw [Vector.length_toList] at bound
  exact bound

theorem counter_length (fits : value ≤ u64Max) : (Json.number value).bytes.length ≤ 20 :=
  number_length (Nat.lt_of_le_of_lt fits (by decide)) (by decide)

theorem present_length (name : String) (encode : α → Json) (value : Option α)
    (bound : ∀ value, (encode value).bytes.length ≤ most) :
    fieldsLength (present name encode value) ≤ encodedLength (quote name) + 2 + most := by
  cases value with
  | none => exact Nat.zero_le _
  | some value =>
      have text := bound value
      simp only [present,fieldsLength]
      omega

theorem record_length (record : AuditRecord) (timely : record.occurredAt ≤ u64Max) :
    record.json.bytes.length ≤ record.event.json.bytes.length + 1024 := by
  have version : (Json.number record.schemaVersion.value.toNat).bytes.length ≤ 5 :=
    number_length (Nat.lt_of_lt_of_le record.schemaVersion.value.toNat_lt (by decide)) (by decide)
  have sequence := counter_length record.sequence.fits
  have time := counter_length timely
  have session : record.sessionId.json.bytes.length ≤ 218 := uuid_length record.sessionId.uuid
  have generation := counter_length record.policyGeneration.fits
  have hash := hash_length record.recordHash
  have transaction := present_length "transaction_id" TransactionId.json record.transactionId
    (fun transactionId => uuid_length transactionId.uuid)
  have previous := present_length "previous_hash" hashJson record.previousHash (fun link => (hash_length link).le)
  have names : encodedLength (quote "schema_version") = 16 ∧ encodedLength (quote "sequence") = 10 ∧
      encodedLength (quote "occurred_at") = 13 ∧ encodedLength (quote "session_id") = 12 ∧
      encodedLength (quote "transaction_id") = 16 ∧ encodedLength (quote "previous_hash") = 15 ∧
      encodedLength (quote "policy_generation") = 19 ∧ encodedLength (quote "event") = 7 ∧
      encodedLength (quote "record_hash") = 13 := by decide
  unfold AuditRecord.json
  rw [List.cons_append,List.cons_append,List.cons_append,List.cons_append,object_length]
  simp only [List.nil_append,List.append_assoc,List.cons_append,fieldsLength,fieldsLength_append]
  omega

theorem captured_length (direction : Direction) (protocol : Protocol) (bytes : List UInt8) :
    2 * bytes.length ≤ (AuditEvent.payloadPrefixCaptured direction protocol (hexEncode bytes)).json.bytes.length ∧
      (AuditEvent.payloadPrefixCaptured direction protocol (hexEncode bytes)).json.bytes.length ≤
        2 * bytes.length + 256 := by
  have way : (Json.string direction.text).bytes.length ≤ 20 := by cases direction <;> decide
  have kind : (Json.string protocol.text).bytes.length ≤ 20 := by cases protocol <;> decide
  have data := hex_length bytes
  have type : (Json.string "payload-prefix-captured").bytes.length = 25 := by decide
  have names : encodedLength (quote "event_type") = 12 ∧ encodedLength (quote "event") = 7 ∧
      encodedLength (quote "direction") = 11 ∧ encodedLength (quote "protocol") = 10 ∧
      encodedLength (quote "bytes_hex") = 11 := by decide
  unfold AuditEvent.json AuditEvent.eventType AuditEvent.fields
  simp only [object_length,fieldsLength,type,data]
  omega

theorem checkpoint_length (checkpoint : SignedCheckpoint) :
    (AuditEvent.signedCheckpoint checkpoint).json.bytes.length ≤ 1024 := by
  have covers := counter_length checkpoint.coversSequence.fits
  have hash := hex_length checkpoint.recordHash.toList
  have key := hex_length checkpoint.publicKey.toList
  have signature := hex_length checkpoint.signature.toList
  rw [Vector.length_toList] at hash key signature
  have type : (Json.string "signed-checkpoint").bytes.length = 19 := by decide
  have names : encodedLength (quote "event_type") = 12 ∧ encodedLength (quote "event") = 7 ∧
      encodedLength (quote "checkpoint") = 12 ∧ encodedLength (quote "covers_sequence") = 17 ∧
      encodedLength (quote "record_hash") = 13 ∧ encodedLength (quote "public_key_hex") = 16 ∧
      encodedLength (quote "signature_hex") = 15 := by decide
  unfold AuditEvent.json AuditEvent.eventType AuditEvent.fields SignedCheckpoint.json Json.hex
  simp only [object_length,fieldsLength,type,hash,key,signature]
  omega

end Lengths

-- A flow that is inspected under a capture policy, to whatever end it comes.
structure InspectedFlow (policy : Config.CapturePolicy) where
  env : Environment
  configured : env.capturePrefixBytes = policy.prefixBytes
  decision : PolicySnapshot
  flow : Flow
  protocol : Protocol
  maximumInspectedBytes : Nat
  arrivals : Arrivals

def InspectedFlow.published (inspected : InspectedFlow policy) : List AuditEnvelope :=
  (stateOf ((FlowInspector.inspectAll inspected.env (.ofSnapshot inspected.decision inspected.flow
    inspected.protocol inspected.maximumInspectedBytes) inspected.arrivals).run idleState)).attempted

-- Payload bytes are put forward by inspected flows only.
def PutForward (policy : Config.CapturePolicy) (envelope : AuditEnvelope) : Prop :=
  envelope.captured = none ∨ ∃ inspected : InspectedFlow policy, envelope ∈ inspected.published

theorem putForward_within (origin : PutForward policy envelope) : WithinCapture policy.prefixBytes envelope := by
  rcases origin with uncaptured | ⟨inspected,member⟩
  · exact uncaptured_within uncaptured
  · have captures := ensures_state (inspectAll_keeps
      (fun _ none => absurd none List.not_mem_nil : AllWithin inspected.env idleState) (FlowInspector.ofSnapshot
      inspected.decision inspected.flow inspected.protocol inspected.maximumInspectedBytes) inspected.arrivals)
    rw [← inspected.configured]
    exact captures envelope member

theorem prefixBytes_within {limits : Config.Limits}
    (validated : Config.CapturePolicy.tryFrom raw limits.bodyPrefixBytes = .ok policy)
    (limited : policy.prefixBytes = some maximum) : maximum ≤ limits.bodyPrefixBytes.get := by
  cases policy with
  | metadataOnly => cases limited
  | upTo =>
      cases limited
      exact (Config.CapturePolicy.tryFrom_upTo validated).1

def largestCapture : Nat := 8 * 1024 * 1024 - 1024

def lightContent : Nat := 2 * 1024 * 1024

-- Captures are not configured too long, and an event without captured bytes is, with
-- its secrets redacted, of moderate content.
structure Modest (setup : SinkSetup) (policy : Config.CapturePolicy) (envelope : AuditEnvelope) : Prop where
  timely : envelope.context.occurredAt ≤ u64Max
  capture : ∀ maximum, policy.prefixBytes = some maximum → maximum ≤ largestCapture
  light : envelope.captured = none → (setup.redactor.redactEvent setup.urls envelope.event).json.content ≤ lightContent

theorem modest_event (within : WithinCapture policy.prefixBytes envelope) (modest : Modest setup policy envelope) :
    (setup.redactor.redactEvent setup.urls envelope.event).json.bytes.length + 1024 ≤ maximumReplayLineBytes := by
  have bounds : 2 * largestCapture + 256 + 1024 ≤ maximumReplayLineBytes ∧ 6 * lightContent + 1024 ≤ maximumReplayLineBytes := by
    decide
  cases captured : envelope.captured with
  | none =>
      have light := modest.light captured
      have size := Json.bytes_content (setup.redactor.redactEvent setup.urls envelope.event).json
      omega
  | some piece =>
      obtain ⟨maximum,bytes,limited,hex,short⟩ := within piece captured
      have small := modest.capture maximum limited
      have size := (captured_length piece.direction piece.protocol bytes).2
      rw [capturedPrefix_event captured,hex]
      change (AuditEvent.payloadPrefixCaptured piece.direction piece.protocol (hexEncode bytes)).json.bytes.length + 1024 ≤ _
      omega

theorem modest_record (within : ∀ envelope ∈ envelopes, WithinCapture policy.prefixBytes envelope)
    (modest : ∀ envelope ∈ envelopes, Modest setup policy envelope) (recorded : Recorded setup envelopes record) :
    record.json.bytes.length ≤ maximumReplayLineBytes := by
  obtain ⟨envelope,member,time,origin⟩ := recorded
  have timely : record.occurredAt ≤ u64Max := time ▸ (modest envelope member).timely
  have around := record_length record timely
  rcases origin with event | ⟨checkpoint,event⟩
  · have inner := modest_event (within envelope member) (modest envelope member)
    rw [event] at around
    omega
  · have inner := checkpoint_length checkpoint
    have room : 2048 ≤ maximumReplayLineBytes := by decide
    rw [event] at around
    omega

theorem recorded_piece {policy : Config.CapturePolicy}
    (within : ∀ envelope ∈ envelopes, WithinCapture policy.prefixBytes envelope) (recorded : Recorded setup envelopes record)
    (captured : capturedPrefix sessionId transactionId record.event = some piece) :
    ∃ maximum bytes, policy.prefixBytes = some maximum ∧ hexDecode piece.bytesHex = some bytes ∧
      bytes.length ≤ maximum := by
  obtain ⟨envelope,member,_,origin⟩ := recorded
  rcases origin with event | ⟨checkpoint,event⟩
  · rw [event,redactEvent_captured] at captured
    obtain ⟨maximum,bytes,limited,hex,short⟩ := within envelope member ⟨_,_,piece.direction,piece.protocol,piece.bytesHex⟩
      (congrArg (capturedPrefix _ _) (capturedPrefix_event captured))
    refine ⟨maximum,bytes,limited,?_,short⟩
    rw [show piece.bytesHex = _ from hex]
    exact hexDecode_hexEncode bytes
  · rw [event] at captured
    cases captured

theorem written_lines_replayable (setup : SinkSetup) (schedule : Option CheckpointSchedule) {limits : Config.Limits}
    (validated : Config.CapturePolicy.tryFrom raw limits.bodyPrefixBytes = .ok policy) (envelopes : List AuditEnvelope)
    (origins : ∀ envelope ∈ envelopes, PutForward policy envelope) :
    (∀ record ∈ (stateOf ((setup.drainJsonlWithCheckpoints schedule envelopes).run .new)).sink.records,
      ∀ again : AuditRecord, again.json.bytes = record.json.bytes →
        ∀ replay : ReplaySetup, replay.compiled.bodyPrefixBytes = limits.bodyPrefixBytes.get →
          ∀ scanners, ∃ done, replay.replayRecord again scanners = .ok done) ∧
      ((∀ envelope ∈ envelopes, Modest setup policy envelope) →
        ∀ record ∈ (stateOf ((setup.drainJsonlWithCheckpoints schedule envelopes).run .new)).sink.records,
          ∀ rest, readBoundedReplayLine maximumReplayLineBytes (line record ++ rest) =
            .ok (some (record.json.bytes,rest))) := by
  have within : ∀ envelope ∈ envelopes, WithinCapture policy.prefixBytes envelope :=
    fun envelope member => putForward_within (origins envelope member)
  have recorded : AllRecorded setup envelopes (stateOf ((setup.drainJsonlWithCheckpoints schedule envelopes).run .new)).sink :=
    ensures_state (drain_recorded (fun _ none => absurd none List.not_mem_nil) envelopes (fun _ member => member))
  refine ⟨?_,?_⟩
  · intro record member again same replay configured scanners
    refine replayRecord_accepts replay again scanners ?_
    intro piece captured
    have line := AuditRecord.bytes_sameLine same
    have origin : capturedPrefix again.sessionId again.transactionId record.event = some piece :=
      (captured_json line.event _ _).symm.trans captured
    obtain ⟨maximum,bytes,limited,decoded,short⟩ := recorded_piece within (recorded record member) origin
    have bound := prefixBytes_within validated limited
    exact ⟨bytes,decoded,by omega⟩
  · intro modest record member rest
    have short := modest_record within modest (recorded record member)
    have reading := read_line record.json.bytes rest record.json.bytes_printable record.json.bytes_valid
    rw [if_neg (Nat.not_lt.mpr short)] at reading
    rw [line,List.append_assoc]
    exact reading

theorem watched_configured :
    watchedEnvironment.capturePrefixBytes = (Config.CapturePolicy.upTo watchedBound).prefixBytes := rfl

def watchedInspection : InspectedFlow (.upTo watchedBound) :=
  ⟨watchedEnvironment,watched_configured,watchedSnapshot,⟨⟨1⟩,some ⟨2⟩⟩,.http,64,watchedArrivals⟩

theorem watchedInspection_modest : ∀ envelope ∈ watchedInspection.published,
    Modest watchedSink (.upTo watchedBound) envelope := by
  have checked : watchedInspection.published.all (fun envelope => decide (envelope.context.occurredAt ≤ u64Max ∧
      (watchedSink.redactor.redactEvent watchedSink.urls envelope.event).json.content ≤ lightContent)) = true := by
    decide +kernel
  intro envelope member
  obtain ⟨timely,light⟩ := List.all_iff_forall_prop.mp checked envelope member
  refine ⟨timely,?_,fun _ => light⟩
  intro maximum limited
  cases limited
  decide

theorem watched_lines_replayable :
    Config.CapturePolicy.tryFrom (.upTo 8) watchedLimits.bodyPrefixBytes = .ok (.upTo watchedBound) ∧
      (∀ record ∈ (stateOf ((watchedSink.drainJsonlWithCheckpoints none watchedInspection.published).run .new)).sink.records,
        ∀ scanners, ∃ done, watchedReplay.replayRecord record scanners = .ok done) ∧
      ∀ record ∈ (stateOf ((watchedSink.drainJsonlWithCheckpoints none watchedInspection.published).run .new)).sink.records,
        ∀ rest, readBoundedReplayLine maximumReplayLineBytes (line record ++ rest) = .ok (some (record.json.bytes,rest)) := by
  have validated : Config.CapturePolicy.tryFrom (.upTo 8) watchedLimits.bodyPrefixBytes = .ok (.upTo watchedBound) := by
    decide
  obtain ⟨checks,reads⟩ := written_lines_replayable watchedSink none validated watchedInspection.published
    (fun _ member => .inr ⟨watchedInspection,member⟩)
  exact ⟨validated,fun record member scanners => checks record member record rfl watchedReplay rfl scanners,
    reads watchedInspection_modest⟩

def wideRoom : Config.NonZero := .ofUInt32 16777216

def wideLimits : Config.Limits := .uniform 16777216

def wideBody : List UInt8 := List.replicate wideRoom.get 97

theorem wideBody_length : wideBody.length = wideRoom.get := List.length_replicate

theorem wideBody_filled : wideBody ≠ [] := by
  intro empty
  have none := wideBody_length
  rw [empty] at none
  exact absurd none (by decide)

-- A body that is inspected in one piece.
def wideInspection : InspectedFlow (.upTo wideRoom) :=
  ⟨{reloadedEnvironment 0 with capturePrefixBytes := some wideRoom.get},rfl,reloadedSnapshot .preflight,⟨⟨1⟩,some ⟨2⟩⟩,
    .http,wideRoom.get,[(.httpRequestBody,wideBody)]⟩

theorem wide_channel : Reliable wideInspection.env := .inr (fun _ => nofun)

theorem inspected_captures (inspected : InspectedFlow policy) (reliable : Reliable inspected.env)
    (limited : policy.prefixBytes = some maximum) (single : inspected.arrivals = [(direction,bytes)])
    (filled : bytes ≠ []) (fits : bytes.length ≤ maximum) :
    ∃ envelope ∈ inspected.published,
      envelope.event = .payloadPrefixCaptured direction inspected.protocol (hexEncode bytes) := by
  let inspector := FlowInspector.ofSnapshot inspected.decision inspected.flow inspected.protocol
    inspected.maximumInspectedBytes
  have total : Ensures (inspector.permits inspected.env direction bytes) idleState (fun _ _ => True) (fun _ _ => False) :=
    ensures_weaken (FlowInspector.permits_exact inspector direction bytes idleState) (fun _ _ _ => trivial)
      (fun _ _ lost => lost.1 reliable)
  obtain ⟨result,after,ran,_⟩ := ensures_total total
  obtain ⟨_,sent,attempted,_,held⟩ := ensures_answer (FlowInspector.permits_adds inspected.env
    (inspected.configured.trans limited) inspector direction bytes idleState) ran
  have published : inspected.published = sent := by
    unfold InspectedFlow.published
    rw [single]
    change (stateOf ((inspector.permits inspected.env direction bytes >>= _).run idleState)).attempted = sent
    rw [run_bind_ok ran]
    exact attempted
  have whole : inspector.taking maximum direction bytes = bytes := List.take_of_length_le fits
  rw [FlowInspector.capturing,whole,if_neg filled] at held
  have kept : ∃ envelope ∈ sent, envelope.captured = some (inspector.piece (direction,bytes)) := by
    rw [← List.mem_filterMap,held]
    exact List.mem_singleton_self _
  obtain ⟨envelope,member,captured⟩ := kept
  exact ⟨envelope,published ▸ member,capturedPrefix_event captured⟩

theorem event_length (record : AuditRecord) : record.event.json.bytes.length ≤ record.json.bytes.length := by
  unfold AuditRecord.json
  rw [List.cons_append,List.cons_append,List.cons_append,List.cons_append,Json.object_length]
  simp only [List.nil_append,List.append_assoc,List.cons_append,Json.fieldsLength,Json.fieldsLength_append]
  omega

-- The line of an event's record is longer than the reader takes.
def LineRefused (envelope : AuditEnvelope) : Prop :=
  ∃ record ∈ (stateOf ((watchedSink.drainJsonlWithCheckpoints none [envelope]).run .new)).sink.records,
    readBoundedReplayLine maximumReplayLineBytes (line record) = .error (.lineTooLong maximumReplayLineBytes)

theorem long_line_refused
    (long : maximumReplayLineBytes <
      (watchedSink.redactor.redactEvent watchedSink.urls envelope.event).json.bytes.length) :
    LineRefused envelope := by
  have inside := event_length (watchedSink.record .new .first envelope.context envelope.event)
  have whole : maximumReplayLineBytes <
      (watchedSink.record .new .first envelope.context envelope.event).json.bytes.length := Nat.lt_of_lt_of_le long inside
  have reading := read_line (watchedSink.record .new .first envelope.context envelope.event).json.bytes []
    (Json.bytes_printable _) (Json.bytes_valid _)
  rw [if_pos whole] at reading
  exact ⟨_,List.mem_singleton_self _,reading⟩

-- Marks that take one byte in a header and two in JSON.
def quotes (count : Nat) : String := String.ofList (List.replicate count '"')

theorem quotes_bytes (count : Nat) : (utf8 (quotes count)).length = count := by
  have mark : ('"' : Char).utf8Size = 1 := by decide
  simp [utf8,quotes,List.length_flatMap,List.map_replicate,mark]

theorem quotes_json (count : Nat) : 2 * count ≤ (Json.string (quotes count)).bytes.length := by
  have mark : ((Json.escape '"').map Char.utf8Size).sum = 2 := by decide
  have inner : Json.encodedLength ((List.replicate count '"').flatMap Json.escape) = count * 2 := by
    simp [Json.encodedLength,List.flatMap_assoc,List.length_flatMap,List.map_replicate,mark]
  rw [Json.bytes_encoded,Json.render,Json.quote,quotes,String.toList_ofList,Json.encodedLength_append,
    Json.encodedLength_cons,inner]
  omega

-- A head with one long value.
def wideHeaders (text : String) : HeaderMap := HeaderMap.empty.append "x-wide" (utf8 text)

theorem wideHeaders_entries (text : String) : (wideHeaders text).entries = [("x-wide",[utf8 text])] := rfl

theorem wideHeaders_accepted (within : (utf8 text).length + 10 ≤ maximum) (small : maximum ≤ u64Max) :
    Headers.validate (wideHeaders text) maximum = .ok () := by
  have size : Headers.headerSize (wideHeaders text) = (utf8 text).length + 10 := by
    have name : (utf8 "x-wide").length = 6 := by decide
    simp only [Headers.headerSize,HeaderMap.pairs,wideHeaders_entries,List.flatMap_cons,List.flatMap_nil,List.map_cons,
      List.map_nil,List.append_nil,List.foldl_cons,List.foldl_nil,name,saturatingAdd]
    omega
  have none : (wideHeaders text).containsKey "transfer-encoding" = false ∧
      (wideHeaders text).containsKey "content-length" = false := ⟨rfl,rfl⟩
  simp [Headers.validate,size,none,Nat.not_lt.mpr within]
  rfl

theorem wideHeaders_audited (text : String) :
    (Headers.auditHeaders (wideHeaders text)).entries = [("x-wide",[text])] := by
  change [("x-wide",[String.ofList (Utf8.decodeLossy (utf8 text))])] = _
  rw [Utf8.decodeLossy_utf8,String.ofList_toList]

-- The record of the request shows the value as it came.
theorem observed_length (text : String) :
    (Json.string text).bytes.length ≤ (watchedSink.redactor.redactEvent watchedSink.urls
      (.httpRequestObserved "GET" "/a" (Headers.auditHeaders (wideHeaders text)))).json.bytes.length := by
  have value : (Json.string text).bytes.length ≤ (Json.array [.string text]).bytes.length := by
    simp only [Json.bytes_encoded,Json.render,Json.renderItems,List.nil_append,Json.encodedLength_cons,
      Json.encodedLength_append]
    omega
  have target : watchedSink.redactor.redactTarget watchedSink.urls "/a" = "/a" := by decide +kernel
  have plain : isSecretHeader "x-wide" = false := by decide +kernel
  have headers : (Redactor.redactHeaders (Headers.auditHeaders (wideHeaders text))).entries = [("x-wide",[text])] := by
    simp [Redactor.redactHeaders,OrderedMap.mapValues,wideHeaders_audited,plain]
  simp only [Redactor.redactEvent,AuditEvent.json,AuditEvent.fields,target,AuditHeaders.json,headers,List.map_cons,
    List.map_nil,Json.object_length,Json.fieldsLength]
  omega

def wideRequest (context : AuditContext) : AuditEnvelope :=
  ⟨context,.httpRequestObserved "GET" "/a" (Headers.auditHeaders (wideHeaders (quotes 10000000)))⟩

-- A body that is captured whole, and without any capture a head within its limit.
theorem wide_lines_refused :
    Config.CapturePolicy.tryFrom (.upTo 16777216) wideLimits.bodyPrefixBytes = .ok (.upTo wideRoom) ∧
      (∃ envelope, PutForward (.upTo wideRoom) envelope ∧ LineRefused envelope) ∧
      Headers.validate (wideHeaders (quotes 10000000)) wideLimits.headerBytes.get = .ok () ∧
      ∀ context, PutForward .metadataOnly (wideRequest context) ∧ LineRefused (wideRequest context) := by
  have limit : maximumReplayLineBytes = 16777216 := by decide
  refine ⟨by decide,?_,?_,?_⟩
  · have room : wideRoom.get = 16777216 := by decide
    obtain ⟨envelope,member,event⟩ := inspected_captures wideInspection wide_channel rfl rfl wideBody_filled
      (Nat.le_of_eq wideBody_length)
    have least := (captured_length .httpRequestBody .http wideBody).1
    rw [wideBody_length,room] at least
    refine ⟨envelope,.inr ⟨wideInspection,member⟩,long_line_refused ?_⟩
    rw [event,limit]
    exact Nat.lt_of_lt_of_le (by decide) least
  · have room : wideLimits.headerBytes.get = 16777216 := by decide
    have size := quotes_bytes 10000000
    exact wideHeaders_accepted (by omega) (by rw [room]; decide)
  · intro context
    have least := quotes_json 10000000
    have inside := observed_length (quotes 10000000)
    refine ⟨.inl rfl,long_line_refused (Nat.lt_of_lt_of_le ?_ inside)⟩
    omega

end Freja.Replay
