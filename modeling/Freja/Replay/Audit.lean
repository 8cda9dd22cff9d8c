import Freja.Audit.Record
import Freja.Policy.Guard
import Freja.Policy.Inspection

namespace Freja.Replay
open Domain Policy Audit Bytes

inductive ReplayError where
  | keyNotHexadecimal
  | keyLength
  | lineTooLong (maximumBytes : Nat)
  | notUtf8
  | invalidJson (lineNumber : Nat)
  | unsupportedSchema (version : AuditSchemaVersion) (lineNumber : Nat)
  | repeatInVersionOne (lineNumber : Nat)
  | integrity (lineNumber : Nat)
  | checkpoint (lineNumber : Nat)
  | invalidCapture (sequence : Nat)
  | captureTooLong (sequence : Nat)
  | missingCheckpoint
  deriving DecidableEq, Repr

def ReplayError.message : ReplayError → String
  | .keyNotHexadecimal => "checkpoint public key is not hexadecimal"
  | .keyLength => "checkpoint public key must contain exactly 32 bytes"
  | .lineTooLong maximumBytes => "audit line exceeds the " ++ toString maximumBytes ++ "-byte replay limit"
  | .notUtf8 => "audit input is not UTF-8"
  | .invalidJson lineNumber => "invalid audit JSON at line " ++ toString lineNumber
  | .unsupportedSchema version lineNumber =>
      "unsupported audit schema version " ++ toString version.value ++ " at line " ++ toString lineNumber
  | .repeatInVersionOne lineNumber =>
      "audit schema version 1 cannot contain an HTTP repeat event at line " ++ toString lineNumber
  | .integrity lineNumber => "audit integrity verification failed at line " ++ toString lineNumber
  | .checkpoint lineNumber => "audit checkpoint verification failed at line " ++ toString lineNumber
  | .invalidCapture sequence => "invalid captured bytes at sequence " ++ toString sequence
  | .captureTooLong sequence =>
      "captured bytes at sequence " ++ toString sequence ++ " exceed the configured replay body-prefix limit"
  | .missingCheckpoint => "audit segment contains no checkpoint from the required public key"

-- Whether the error says that the segment is not what a sink wrote.
def ReplayError.isIntegrity : ReplayError → Bool
  | .notUtf8 | .invalidJson _ | .unsupportedSchema _ _ | .repeatInVersionOne _ | .integrity _ | .checkpoint _ => true
  | _ => false

structure CompiledConfig where
  policy : AclPolicy
  destinationGuard : DestinationGuard
  inspection : InspectionProgram
  bodyPrefixBytes : Nat

-- Reading a record from its line is left to the JSON library.
structure ReplaySetup where
  crypto : Crypto
  parse : List UInt8 → Option AuditRecord
  compiled : CompiledConfig

def parseCheckpointPublicKey (value : String) : Except ReplayError (Vector UInt8 32) :=
  match hexDecode value with
  | none => .error .keyNotHexadecimal
  | some decoded =>
      if fits : decoded.toArray.size = 32 then .ok ⟨decoded.toArray,fits⟩ else .error .keyLength

def validateReplaySchema (version : AuditSchemaVersion) (lineNumber : Nat) : Except ReplayError Unit :=
  if version.isSupported then .ok () else .error (.unsupportedSchema version lineNumber)

def isRepeat : AuditEvent → Bool
  | .httpRepeatStarted _ _ => true
  | _ => false

def validateReplayEventSchema (version : AuditSchemaVersion) (event : AuditEvent) (lineNumber : Nat) :
    Except ReplayError Unit :=
  if version == .v1 && isRepeat event then .error (.repeatInVersionOne lineNumber) else .ok ()

structure ChainState where
  expectedSequence : Nat
  previousHash : Option RecordHash
  verifiedCheckpoints : Nat
  deriving DecidableEq, Repr

def ChainState.new : ChainState := ⟨1,none,0⟩

section Checks

variable (crypto : Crypto) (expectedKey : Option (Vector UInt8 32))

def coversChain (chain : ChainState) (checkpoint : SignedCheckpoint) : Bool :=
  chain.previousHash.any fun hash =>
    checkpoint.coversSequence.value == chain.expectedSequence - 1 && checkpoint.recordHash == hash

def checkCheckpoint (lineNumber : Nat) (chain : ChainState) : AuditEvent → Except ReplayError Nat
  | .signedCheckpoint checkpoint =>
      let keyMatches := expectedKey.all fun expected => checkpoint.publicKey == expected
      if !crypto.verifies checkpoint || !keyMatches || !coversChain chain checkpoint then .error (.checkpoint lineNumber)
      else .ok (saturatingAdd chain.verifiedCheckpoints 1)
  | _ => .ok chain.verifiedCheckpoints

def checkRecord (lineNumber : Nat) (chain : ChainState) (record : AuditRecord) : Except ReplayError ChainState := do
  validateReplaySchema record.schemaVersion lineNumber
  validateReplayEventSchema record.schemaVersion record.event lineNumber
  if record.sequence.value != chain.expectedSequence || record.previousHash != chain.previousHash ||
      !crypto.verifiesHash record then throw (.integrity lineNumber)
  let verifiedCheckpoints ← checkCheckpoint crypto expectedKey lineNumber chain record.event
  return ⟨saturatingAdd chain.expectedSequence 1,some record.recordHash,verifiedCheckpoints⟩

def checkRecords (lineNumber : Nat) (chain : ChainState) : List AuditRecord → Except ReplayError ChainState
  | [] => .ok chain
  | record :: rest => do
      let after ← checkRecord crypto expectedKey (saturatingAdd lineNumber 1) chain record
      checkRecords (saturatingAdd lineNumber 1) after rest

end Checks

structure ReplayStreamKey where
  sessionId : SessionId
  transactionId : Option TransactionId
  direction : Direction
  protocol : Protocol
  deriving DecidableEq, Repr

structure ReplayDecision where
  sourceSequence : AuditSequence
  sessionId : SessionId
  transactionId : Option TransactionId
  source : String
  decision : Decision
  deriving DecidableEq, Repr

def emitReplayDecision (record : AuditRecord) (source : String) (decision : Decision) : ReplayDecision :=
  ⟨record.sequence,record.sessionId,record.transactionId,source,decision⟩

def replayFacts (compiled : CompiledConfig) : ReplayFacts → List Decision
  | .requested facts => [compiled.policy.evaluate (.requested facts)]
  | .resolved facts =>
      (compiled.destinationGuard.evaluate compiled.policy.generation facts).toList ++
        [compiled.policy.evaluate (.resolved facts)]
  | .httpRequest facts => [compiled.policy.evaluate (.httpRequest facts)]
  | .httpResponse facts => [compiled.policy.evaluate (.httpResponse facts)]
  | .finding finding protocol => [compiled.inspection.evaluate finding protocol]

-- The records read so far are kept beside the variables of the loop.
structure ReplayState where
  chain : ChainState
  records : List AuditRecord
  decisions : Nat
  emitted : List ReplayDecision
  scanners : ReplayStreamKey → Option StreamScanner
  lineNumber : Nat

def ReplayState.new : ReplayState := ⟨.new,[],0,[],fun _ => none,0⟩

structure Replayed where
  emitted : List ReplayDecision
  scanners : ReplayStreamKey → Option StreamScanner

namespace ReplaySetup

variable (setup : ReplaySetup)

def replayCapture (record : AuditRecord) (scanners : ReplayStreamKey → Option StreamScanner) (direction : Direction)
    (protocol : Protocol) (bytesHex : String) : Except ReplayError Replayed :=
  match hexDecode bytesHex with
  | none => .error (.invalidCapture record.sequence.value)
  | some bytes =>
      if bytes.length > setup.compiled.bodyPrefixBytes then .error (.captureTooLong record.sequence.value)
      else
        let key : ReplayStreamKey := ⟨record.sessionId,record.transactionId,direction,protocol⟩
        let scanner := (scanners key).getD (setup.compiled.inspection.scanner direction)
        let (after,findings) := scanner.inspect setup.crypto.sha256 bytes
        .ok ⟨findings.map fun finding =>
            emitReplayDecision record "captured-prefix" (setup.compiled.inspection.evaluate finding protocol),
          Function.update scanners key (some after)⟩

def replayRecord (record : AuditRecord) (scanners : ReplayStreamKey → Option StreamScanner) :
    Except ReplayError Replayed :=
  match record.event with
  | .replayFactsObserved facts =>
      .ok ⟨(replayFacts setup.compiled facts).map (emitReplayDecision record "recorded-facts"),scanners⟩
  | .payloadPrefixCaptured direction protocol bytesHex =>
      setup.replayCapture record scanners direction protocol bytesHex
  | _ => .ok ⟨[],scanners⟩

def replayLine (expectedKey : Option (Vector UInt8 32)) (state : ReplayState) (line : List UInt8) :
    Except ReplayError ReplayState := do
  let lineNumber := saturatingAdd state.lineNumber 1
  let record ← (setup.parse line).elim (.error (.invalidJson lineNumber)) .ok
  let chain ← checkRecord setup.crypto expectedKey lineNumber state.chain record
  let replayed ← setup.replayRecord record state.scanners
  return ⟨chain,state.records ++ [record],saturatingAdd state.decisions replayed.emitted.length,
    state.emitted ++ replayed.emitted,replayed.scanners,lineNumber⟩

end ReplaySetup

def maximumReplayLineBytes : Nat := 16 * 1024 * 1024

-- The bytes of one line without its newline and one carriage return before it,
-- and how many bytes were read for it.
def readUntilNewline (maximumBytes : Nat) (input : List UInt8) : List UInt8 × Nat :=
  let limited := input.take (saturatingAdd maximumBytes 2)
  let content := limited.takeWhile (· != 10)
  if content.length < limited.length then
    (if content.getLast? == some 13 then content.dropLast else content,content.length + 1)
  else (content,content.length)

def readBoundedReplayLine (maximumBytes : Nat) (input : List UInt8) :
    Except ReplayError (Option (List UInt8 × List UInt8)) :=
  let (bytes,count) := readUntilNewline maximumBytes input
  if count = 0 then .ok none
  else if bytes.length > maximumBytes then .error (.lineTooLong maximumBytes)
  else if !bytes.toByteArray.validateUTF8 then .error .notUtf8
  else .ok (some (bytes,input.drop count))

theorem readBoundedReplayLine_shorter (maximumBytes : Nat) (input line rest : List UInt8)
    (read : readBoundedReplayLine maximumBytes input = .ok (some (line,rest))) : rest.length < input.length := by
  have empty : input = [] → (readUntilNewline maximumBytes input).2 = 0 := by
    intro none
    rw [none]
    simp [readUntilNewline]
  unfold readBoundedReplayLine at read
  revert empty read
  cases readUntilNewline maximumBytes input with
  | mk bytes count =>
      intro read empty
      simp only at empty read
      split at read
      · cases read
      · rename_i positive
        split at read
        · cases read
        · split at read
          · cases read
          · simp only [Except.ok.injEq,Option.some.injEq,Prod.mk.injEq] at read
            have some := List.length_pos_iff.mpr (fun none => positive (empty none))
            rw [← read.2,List.length_drop]
            omega

namespace ReplaySetup

variable (setup : ReplaySetup)

def replayLines (expectedKey : Option (Vector UInt8 32)) (state : ReplayState) (input : List UInt8) :
    Except ReplayError ReplayState :=
  match _read : readBoundedReplayLine maximumReplayLineBytes input with
  | .error error => .error error
  | .ok none => .ok state
  | .ok (some (line,rest)) =>
      match setup.replayLine expectedKey state line with
      | .error error => .error error
      | .ok after => replayLines expectedKey after rest
termination_by input.length
decreasing_by exact readBoundedReplayLine_shorter _ _ _ _ _read

def replayAudit (checkpointPublicKey : Option String) (input : List UInt8) : Except ReplayError ReplayState := do
  let expectedKey ← checkpointPublicKey.elim (.ok none) fun value => (parseCheckpointPublicKey value).map some
  let state ← setup.replayLines expectedKey .new input
  if expectedKey.isSome && state.chain.verifiedCheckpoints == 0 then throw .missingCheckpoint
  return state

end ReplaySetup

end Freja.Replay
