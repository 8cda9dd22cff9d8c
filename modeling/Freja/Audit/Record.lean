import Freja.Audit.Encoding

namespace Freja.Audit
open Domain Bytes

structure AuditSchemaVersion where
  value : UInt16
  deriving DecidableEq, Repr

namespace AuditSchemaVersion

def v1 : AuditSchemaVersion := ⟨1⟩

def v2 : AuditSchemaVersion := ⟨2⟩

def current : AuditSchemaVersion := v2

def isSupported (version : AuditSchemaVersion) : Bool := version == v1 || version == v2

end AuditSchemaVersion

structure UnsignedAuditRecord where
  schemaVersion : AuditSchemaVersion
  sequence : AuditSequence
  occurredAt : UnixMillis
  sessionId : SessionId
  transactionId : Option TransactionId
  policyGeneration : PolicyGeneration
  event : AuditEvent
  previousHash : Option RecordHash
  deriving DecidableEq, Repr

structure AuditRecord extends UnsignedAuditRecord where
  recordHash : RecordHash
  deriving DecidableEq, Repr

def hashJson (hash : RecordHash) : Json := Json.hex hash.toList

-- The hashed form writes an absent value as null, the stored form leaves it out.
def UnsignedAuditRecord.json (record : UnsignedAuditRecord) : Json :=
  .object [("schema_version",.number record.schemaVersion.value.toNat),
    ("sequence",.number record.sequence.value),
    ("occurred_at",.number record.occurredAt),
    ("session_id",record.sessionId.json),
    ("transaction_id",Json.optional TransactionId.json record.transactionId),
    ("policy_generation",.number record.policyGeneration.value),
    ("event",record.event.json),
    ("previous_hash",Json.optional hashJson record.previousHash)]

def present (name : String) (encode : α → Json) : Option α → List (String × Json)
  | some value => [(name,encode value)]
  | none => []

def AuditRecord.json (record : AuditRecord) : Json :=
  .object ([("schema_version",.number record.schemaVersion.value.toNat),
    ("sequence",.number record.sequence.value),
    ("occurred_at",.number record.occurredAt),
    ("session_id",record.sessionId.json)] ++
    present "transaction_id" TransactionId.json record.transactionId ++
    [("policy_generation",.number record.policyGeneration.value),("event",record.event.json)] ++
    present "previous_hash" hashJson record.previousHash ++
    [("record_hash",hashJson record.recordHash)])

-- Hashing and strict signature verification, which the record layer only calls.
structure Crypto where
  sha256 : List UInt8 → Digest
  validKey : Vector UInt8 32 → Bool
  verifyStrict : Vector UInt8 32 → List UInt8 → Vector UInt8 64 → Bool

namespace Crypto

variable (crypto : Crypto)

def digest (record : UnsignedAuditRecord) : RecordHash := crypto.sha256 record.json.bytes

def verifiesHash (record : AuditRecord) : Bool := crypto.digest record.toUnsignedAuditRecord == record.recordHash

end Crypto

def checkpointMessage (sequence : AuditSequence) (recordHash : RecordHash) : List UInt8 :=
  ascii "freja-audit-checkpoint-v1" ++ [0] ++ bigEndian 8 sequence.value ++ recordHash.toList

def Crypto.verifies (crypto : Crypto) (checkpoint : SignedCheckpoint) : Bool :=
  crypto.validKey checkpoint.publicKey &&
    crypto.verifyStrict checkpoint.publicKey
      (checkpointMessage checkpoint.coversSequence checkpoint.recordHash) checkpoint.signature

structure CheckpointSigner where
  verifyingKey : Vector UInt8 32
  sign : List UInt8 → Vector UInt8 64

def CheckpointSigner.signCheckpoint (signer : CheckpointSigner) (sequence : AuditSequence)
    (recordHash : RecordHash) : SignedCheckpoint :=
  ⟨sequence,recordHash,signer.verifyingKey,signer.sign (checkpointMessage sequence recordHash)⟩

structure CheckpointSchedule where
  signer : CheckpointSigner
  interval : Nat
  nonzero : 0 < interval

theorem checkpointMessage_injective (same : checkpointMessage first covered = checkpointMessage second other) :
    first = second ∧ covered = other := by
  unfold checkpointMessage at same
  obtain ⟨heads,hashes⟩ := List.append_inj same (by simp)
  have numbers := List.append_cancel_left heads
  have fits (sequence : AuditSequence) : sequence.value < capacity 8 := Nat.lt_of_le_of_lt sequence.fits (by decide)
  exact ⟨AuditSequence.ext (bigEndian_injective 8 _ _ (fits first) (fits second) numbers),Vector.toList_inj.mp hashes⟩

theorem hexJson_injective {first second : Vector UInt8 n} (same : Json.hex first.toList = Json.hex second.toList) :
    first = second :=
  Vector.toList_inj.mp (hexEncode_injective (Json.string.inj same))

theorem SignedCheckpoint.json_injective {first second : SignedCheckpoint} (same : first.json = second.json) :
    first = second := by
  cases first
  cases second
  simp only [SignedCheckpoint.json,Json.object.injEq,List.cons.injEq,Prod.mk.injEq,Json.number.injEq,true_and,
    and_true] at same
  obtain ⟨sequences,hashes,keys,signatures⟩ := same
  cases AuditSequence.ext sequences
  cases hexJson_injective hashes
  cases hexJson_injective keys
  cases hexJson_injective signatures
  rfl

theorem event_json_checkpoint {event : AuditEvent} (same : event.json = (AuditEvent.signedCheckpoint checkpoint).json) :
    event = .signedCheckpoint checkpoint := by
  unfold AuditEvent.json at same
  simp only [Json.object.injEq,List.cons.injEq,Prod.mk.injEq,Json.string.injEq,true_and,and_true] at same
  obtain ⟨types,contents⟩ := same
  cases event with
  | signedCheckpoint =>
      simp only [AuditEvent.fields,List.cons.injEq,Prod.mk.injEq,true_and,and_true] at contents
      rw [SignedCheckpoint.json_injective contents]
  | _ => exact absurd types (by simp only [AuditEvent.eventType]; decide)

theorem present_unambiguous {encode : α → Json} (first second : Option α)
    (same : present name encode first ++ rest = present name encode second ++ more)
    (left : rest.head?.map Prod.fst ≠ some name) (right : more.head?.map Prod.fst ≠ some name) :
    first.map encode = second.map encode ∧ rest = more := by
  cases first with
  | none =>
      cases second with
      | none => exact ⟨rfl,same⟩
      | some => exact absurd (congrArg (fun fields => fields.head?.map Prod.fst) same) left
  | some =>
      cases second with
      | none => exact absurd (congrArg (fun fields => fields.head?.map Prod.fst) same).symm right
      | some =>
          obtain ⟨heads,tails⟩ := List.cons.inj same
          exact ⟨congrArg some (Prod.mk.inj heads).2,tails⟩

theorem optional_map (encode : α → Json) (value : Option α) :
    Json.optional encode value = (value.map encode).getD .null := by
  cases value <;> rfl

theorem hashJson_injective : Function.Injective hashJson := fun _ _ same => hexJson_injective same

-- What a stored line determines: the hashed form of the record and everything
-- that is checked against its neighbours.
structure SameLine (first second : AuditRecord) : Prop where
  unsigned : first.toUnsignedAuditRecord.json = second.toUnsignedAuditRecord.json
  schemaVersion : first.schemaVersion = second.schemaVersion
  sequence : first.sequence = second.sequence
  event : first.event.json = second.event.json
  previousHash : first.previousHash = second.previousHash
  recordHash : first.recordHash = second.recordHash

theorem sameLine {first second : AuditRecord} (same : first.json = second.json) : SameLine first second := by
  unfold AuditRecord.json at same
  simp only [Json.object.injEq,List.cons_append,List.nil_append,List.append_assoc,List.cons.injEq,Prod.mk.injEq,
    true_and,Json.number.injEq] at same
  obtain ⟨versions,sequences,times,sessions,rest⟩ := same
  obtain ⟨transactions,later⟩ := present_unambiguous first.transactionId second.transactionId rest
    (by simp) (by simp)
  simp only [List.cons.injEq,Prod.mk.injEq,true_and,Json.number.injEq] at later
  obtain ⟨generations,events,tail⟩ := later
  obtain ⟨links,hashes⟩ := present_unambiguous first.previousHash second.previousHash tail
    (by simp) (by simp)
  simp only [List.cons.injEq,Prod.mk.injEq,true_and,and_true] at hashes
  refine ⟨?_,?_,AuditSequence.ext sequences,events,Option.map_injective hashJson_injective links,
    hashJson_injective hashes⟩
  · simp only [UnsignedAuditRecord.json,optional_map,versions,sequences,times,sessions,transactions,generations,
      events,links]
  · rw [AuditSchemaVersion.mk.injEq,← UInt16.toNat_inj]
    exact versions

theorem optional_injective {encode : α → Json} (proper : ∀ value, encode value ≠ .null) {first second : Option α}
    (same : Json.optional encode first = Json.optional encode second) : first.map encode = second.map encode := by
  cases first with
  | none =>
      cases second with
      | none => rfl
      | some value => exact absurd same.symm (proper value)
  | some value =>
      cases second with
      | none => exact absurd same (proper value)
      | some => exact congrArg some same

theorem present_map (encode : α → Json) (value : Option α) :
    present name encode value = ((value.map encode).map (Prod.mk name)).toList := by
  cases value <;> rfl

-- The hashed form and the hash are all there is in a stored line.
theorem AuditRecord.json_determined {first second : AuditRecord}
    (unsigned : first.toUnsignedAuditRecord.json = second.toUnsignedAuditRecord.json)
    (hashes : first.recordHash = second.recordHash) : first.json = second.json := by
  simp only [UnsignedAuditRecord.json,Json.object.injEq,List.cons.injEq,Prod.mk.injEq,true_and,and_true,
    Json.number.injEq] at unsigned
  obtain ⟨versions,sequences,times,sessions,transactions,generations,events,links⟩ := unsigned
  have transaction := optional_injective (fun _ => Json.noConfusion) transactions
  have link := optional_injective (fun _ => Json.noConfusion) links
  simp only [AuditRecord.json,present_map,versions,sequences,times,sessions,transaction,generations,events,link,hashes]

theorem AuditRecord.bytes_sameLine {first second : AuditRecord} (same : first.json.bytes = second.json.bytes) :
    SameLine first second :=
  sameLine (Json.bytes_injective same)

end Freja.Audit
