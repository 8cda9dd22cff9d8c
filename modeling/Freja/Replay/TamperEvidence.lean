import Freja.Replay.Verification

namespace Freja.Replay
open Domain Audit Bytes Effect

variable {crypto : Crypto} {key : Option (Vector UInt8 32)}

-- No two different hashed texts of the two lists share a digest. What a record is in
-- memory is not asked: an address and a host name that reads like it have one text.
def Distinct (crypto : Crypto) (first second : List AuditRecord) : Prop :=
  ∀ a ∈ first, ∀ b ∈ second,
    crypto.sha256 a.toUnsignedAuditRecord.json.bytes = crypto.sha256 b.toUnsignedAuditRecord.json.bytes →
      a.toUnsignedAuditRecord.json.bytes = b.toUnsignedAuditRecord.json.bytes

theorem record_unique {a b : AuditRecord} (hashA : crypto.verifiesHash a = true) (hashB : crypto.verifiesHash b = true)
    (inFirst : a ∈ first) (inSecond : b ∈ second) (distinct : Distinct crypto first second)
    (same : a.recordHash = b.recordHash) : a.json = b.json := by
  have digests : crypto.digest a.toUnsignedAuditRecord = crypto.digest b.toUnsignedAuditRecord :=
    (eq_of_beq hashA).trans (same.trans (eq_of_beq hashB).symm)
  exact AuditRecord.json_determined (Json.bytes_injective (distinct a inFirst b inSecond digests)) same

theorem tip_last (start : Option RecordHash) (records : List AuditRecord) :
    recordChain.tip start records = (records.getLast?.map AuditRecord.recordHash).or start := by
  rcases List.eq_nil_or_concat' records with rfl | ⟨rest,last,rfl⟩
  · cases start <;> rfl
  · rw [HashChain.tip_append,List.getLast?_append]
    rfl

theorem chains_unique (linkedFirst : recordChain.Linked none first) (linkedSecond : recordChain.Linked none second)
    (hashedFirst : ∀ record ∈ first, crypto.verifiesHash record = true)
    (hashedSecond : ∀ record ∈ second, crypto.verifiesHash record = true)
    (tips : recordChain.tip none first = recordChain.tip none second) (distinct : Distinct crypto first second) :
    first.map AuditRecord.json = second.map AuditRecord.json := by
  refine recordChain.linked_unique first second AuditRecord.json ?_ linkedFirst linkedSecond tips ?_
  · intro a b same
    exact (sameLine same).previousHash
  · intro a inFirst b inSecond same
    exact record_unique (hashedFirst a inFirst) (hashedSecond b inSecond) inFirst inSecond distinct same

theorem chained_at (chained : Chained crypto records) (member : record ∈ records) :
    ∃ earlier rest, records = (earlier ++ [record]) ++ rest ∧ record.sequence.value = (earlier ++ [record]).length ∧
      Chained crypto (earlier ++ [record]) := by
  obtain ⟨earlier,rest,rfl⟩ := List.mem_iff_append.mp member
  have whole : earlier ++ record :: rest = (earlier ++ [record]) ++ rest := by simp
  have start : Chained crypto (earlier ++ [record]) := by
    have taken := chained.take (earlier ++ [record]).length
    rwa [whole,List.take_left] at taken
  refine ⟨earlier,rest,whole,?_,start⟩
  rw [start.last_number,List.length_append,List.length_singleton]

-- What an accepted checkpoint says about the records before it.
theorem checkpoint_covers (verified : Verified crypto key .new before middle) (passes : Passes crypto key middle record final)
    (event : record.event = .signedCheckpoint checkpoint) (chained : Chained crypto original)
    (signed : ∃ source ∈ original, checkpoint.coversSequence = source.sequence ∧ checkpoint.recordHash = source.recordHash)
    (distinct : Distinct crypto before original) :
    checkpoint.coversSequence.value = before.length ∧
      (original.take before.length).map AuditRecord.json = before.map AuditRecord.json := by
  obtain ⟨linked,tip,hashed⟩ := verified.linked
  obtain ⟨source,member,sequences,hashes⟩ := signed
  obtain ⟨earlier,rest,whole,number,start⟩ := chained_at chained member
  obtain ⟨_,_,covers⟩ := passes.checkpoint checkpoint event
  have covered : middle.previousHash = some checkpoint.recordHash := by
    unfold coversChain at covers
    cases previous : middle.previousHash with
    | none => simp [previous] at covers
    | some =>
        simp only [previous,Option.any_some,Bool.and_eq_true,beq_iff_eq] at covers
        rw [covers.2]
  have same : before.map AuditRecord.json = (earlier ++ [source]).map AuditRecord.json := by
    refine chains_unique linked start.linked hashed start.hashed ?_ ?_
    · rw [HashChain.tip_append]
      change recordChain.tip none before = some source.recordHash
      rw [← hashes,← covered]
      exact tip
    · intro a inBefore b inOriginal
      exact distinct a inBefore b (whole ▸ List.mem_append_left _ inOriginal)
  have lengths : before.length = (earlier ++ [source]).length := by simpa using congrArg List.length same
  exact ⟨by rw [sequences,number,lengths],by rw [whole,lengths,List.take_left,same]⟩

-- The last checkpoint covers all records before it, and they read as the first of the original.
def CoversOriginal (original records : List AuditRecord) : Prop :=
  ∃ before record after checkpoint, records = before ++ record :: after ∧
    record.event = .signedCheckpoint checkpoint ∧
    (∀ later ∈ after, ∀ other, later.event ≠ .signedCheckpoint other) ∧
    checkpoint.coversSequence.value = before.length ∧
    (original.take before.length).map AuditRecord.json = before.map AuditRecord.json

theorem chain_tamper_evident :
    (∀ (crypto : Crypto) (firstKey secondKey : Option (Vector UInt8 32)) (first second : List AuditRecord)
      (firstChain secondChain : ChainState),
      checkRecords crypto firstKey 0 .new first = .ok firstChain →
      checkRecords crypto secondKey 0 .new second = .ok secondChain →
      first.getLast?.map AuditRecord.recordHash = second.getLast?.map AuditRecord.recordHash →
      Distinct crypto first second → first.map AuditRecord.json = second.map AuditRecord.json) ∧
    (∀ (setup : SinkSetup) (schedule : Option CheckpointSchedule) (envelopes : List AuditEnvelope) (drained : Drain)
      (replay : ReplaySetup) (keyText : String) (key : Vector UInt8 32) (input : List UInt8) (replayed : ReplayState),
      stateOf ((setup.drainJsonlWithCheckpoints schedule envelopes).run .new) = drained →
      replay.crypto = setup.crypto →
      parseCheckpointPublicKey keyText = .ok key →
      (∀ sequence hash signature, setup.crypto.verifyStrict key (checkpointMessage sequence hash) signature = true →
        ∃ signed ∈ drained.signed,
          checkpointMessage sequence hash = checkpointMessage signed.coversSequence signed.recordHash) →
      replay.replayAudit (some keyText) input = .ok replayed →
      Distinct setup.crypto replayed.records drained.sink.records →
      CoversOriginal drained.sink.records replayed.records) := by
  refine ⟨?_,?_⟩
  · intro crypto firstKey secondKey first second firstChain secondChain passedFirst passedSecond hashes distinct
    obtain ⟨linkedFirst,_,hashedFirst⟩ := ((checkRecords_ok _ _ _ _ _ _).mp passedFirst).linked
    obtain ⟨linkedSecond,_,hashedSecond⟩ := ((checkRecords_ok _ _ _ _ _ _).mp passedSecond).linked
    refine chains_unique linkedFirst linkedSecond hashedFirst hashedSecond ?_ distinct
    rw [tip_last,tip_last,hashes]
  · intro setup schedule envelopes drained replay keyText key input replayed ran sameCrypto readKey unforged accepted distinct
    have keeps : Ensures (setup.drainJsonlWithCheckpoints schedule envelopes) .new _ _ :=
      SinkSetup.drain_kept (DrainKept.new setup.crypto schedule False) envelopes (fun no => no.elim)
    have kept : DrainKept setup.crypto schedule False drained := ran ▸ ensures_state keeps
    obtain ⟨verified,found⟩ := replayAudit_verified replay input replayed readKey accepted
    rw [sameCrypto] at verified
    obtain ⟨before,record,after,checkpoint,whole,event,last⟩ := verified.last_checkpoint found
    rw [whole] at verified
    obtain ⟨middle,earlier,later⟩ := verified.split
    cases later with
    | cons passes _ =>
        have checks := passes.checkpoint checkpoint event
        have genuine : setup.crypto.verifyStrict key
            (checkpointMessage checkpoint.coversSequence checkpoint.recordHash) checkpoint.signature = true := by
          have both := Bool.and_eq_true_iff.mp checks.1
          rw [← checks.2.1 key rfl]
          exact both.2
        obtain ⟨signed,member,message⟩ := unforged _ _ _ genuine
        obtain ⟨sequences,hashes⟩ := checkpointMessage_injective message
        obtain ⟨source,stored,sourceSequence,sourceHash⟩ := kept.signed signed member
        refine ⟨before,record,after,checkpoint,whole,event,last,checkpoint_covers earlier passes event kept.sink.chained
          ⟨source,stored,sequences.trans sourceSequence,hashes.trans sourceHash⟩ ?_⟩
        intro a inBefore b inOriginal
        exact distinct a (whole ▸ List.mem_append_left _ inBefore) b inOriginal

theorem parseCheckpointPublicKey_hex (key : Vector UInt8 32) :
    parseCheckpointPublicKey (hexEncode key.toList) = .ok key := by
  unfold parseCheckpointPublicKey
  rw [hexDecode_hexEncode]
  simp only [Vector.toArray_toList]
  exact dif_pos key.size_toArray

theorem replayAudit_accepts (setup : ReplaySetup) {pinned : Vector UInt8 32}
    (readKey : parseCheckpointPublicKey text = .ok pinned) (done : setup.replayLines (some pinned) .new input = .ok after)
    (found : after.chain.verifiedCheckpoints ≠ 0) : setup.replayAudit (some text) input = .ok after := by
  have some : (after.chain.verifiedCheckpoints == 0) = false := beq_eq_false_iff_ne.mpr found
  unfold ReplaySetup.replayAudit
  simp only [Option.elim_some,readKey,Except.map,bind,Except.bind,done,some,Bool.and_false]
  rfl

-- The sample segment under a key that has signed its one checkpoint and nothing else.
def pinnedVerify (key : Vector UInt8 32) (message : List UInt8) (signature : Vector UInt8 64) : Bool :=
  key == sampleKey && message == checkpointMessage .first connectionDigest && signature == sampleSignature

def pinnedSetup : SinkSetup := sampleSetup pinnedVerify

def pinnedDrain : Drain := stateOf (sampleRun pinnedSetup)

def pinnedReplay : ReplaySetup :=
  ⟨pinnedSetup.crypto,sampleParse pinnedSetup,
    ⟨⟨.initial,[],.allow,rfl⟩,.new ⟨.protect,.protect,.protect,.protect⟩,.empty .initial,0⟩⟩

def sampleCovered : SignedCheckpoint := ⟨.first,connectionDigest,sampleKey,sampleSignature⟩

def connectionRecord : AuditRecord :=
  ⟨⟨.current,.first,1,⟨302240678275694148452353⟩,none,.initial,
    .connectionAccepted "127.0.0.1:40000" "127.0.0.1:8080",none⟩,connectionDigest⟩

def checkpointRecord : AuditRecord :=
  ⟨⟨.current,⟨2,by decide,by decide⟩,1,⟨302240678275694148452353⟩,none,.initial,.signedCheckpoint sampleCovered,
    some connectionDigest⟩,checkpointDigest⟩

theorem pinnedDrain_contents :
    pinnedDrain.sink.records = [connectionRecord,checkpointRecord] ∧ pinnedDrain.signed = [sampleCovered] := by
  decide +kernel

theorem pinned_lines : ∀ record ∈ [connectionRecord,checkpointRecord],
    record.json.bytes.length ≤ maximumReplayLineBytes := by
  decide +kernel

theorem pinned_live : pinnedDrain.sink.received = pinnedDrain.sink.records.flatMap line := by
  have total : Ensures (pinnedSetup.drainJsonlWithCheckpoints (some samplePlan) [sampleEnvelope]) .new _ _ :=
    SinkSetup.drain_reliable rfl (SinkSetup.Live.new pinnedSetup.crypto) [sampleEnvelope] (by decide)
  obtain ⟨_,after,ran,live,_⟩ := ensures_total total
  have same : pinnedDrain = after := by
    unfold pinnedDrain sampleRun
    rw [ran]
    rfl
  rw [same]
  exact live.lines

theorem pinned_passes : ∃ final, final.verifiedCheckpoints ≠ 0 ∧
    Verified pinnedSetup.crypto (some sampleKey) .new [connectionRecord,checkpointRecord] final := by
  have counted : (checkRecords pinnedSetup.crypto (some sampleKey) 0 .new [connectionRecord,checkpointRecord]).map
      ChainState.verifiedCheckpoints = .ok 1 := by decide +kernel
  cases checked : checkRecords pinnedSetup.crypto (some sampleKey) 0 .new [connectionRecord,checkpointRecord] with
  | error =>
      rw [checked] at counted
      cases counted
  | ok final =>
      rw [checked] at counted
      injection counted with one
      exact ⟨final,one ▸ one_ne_zero,(checkRecords_ok _ _ _ _ _ _).mp checked⟩

theorem sampleParse_members (setup : SinkSetup)
    (pairs : List.Forall₂ (fun (record : AuditRecord) again => sampleParse setup record.json.bytes = some again)
      records parsed) : ∀ again ∈ parsed, again ∈ (stateOf (sampleRun setup)).sink.records := by
  induction pairs with
  | nil =>
      intro again member
      cases member
  | cons read _ ih =>
      intro again member
      rcases List.mem_cons.mp member with rfl | later
      · exact List.mem_of_find?_eq_some read
      · exact ih again later

theorem pinned_replay (found : final.verifiedCheckpoints ≠ 0)
    (passed : Verified pinnedSetup.crypto (some sampleKey) .new [connectionRecord,checkpointRecord] final) :
    ∃ replayed, pinnedReplay.replayAudit (some (hexEncode sampleKey.toList)) pinnedDrain.sink.received = .ok replayed ∧
      (∀ record ∈ replayed.records, record ∈ pinnedDrain.sink.records) ∧
      Verified pinnedSetup.crypto (some sampleKey) .new replayed.records final := by
  have records := pinnedDrain_contents.1
  have verified := records ▸ passed
  obtain ⟨parsed,_,lines,pairs⟩ := reread (sampleParse pinnedSetup) pinnedDrain.sink.records
    (sampleParse_reads pinnedSetup)
  have members : ∀ again ∈ parsed, again ∈ pinnedDrain.sink.records := sampleParse_members pinnedSetup pairs
  rcases replayLines_outcome pinnedReplay (some sampleKey) .new (verified.sameLines lines) pairs with
    ⟨after,done,chain,read⟩ | ⟨error,_,refused⟩
  · refine ⟨after,?_,?_,?_⟩
    · rw [pinned_live]
      exact replayAudit_accepts pinnedReplay (parseCheckpointPublicKey_hex sampleKey) done (chain ▸ found)
    · rw [read]
      exact members
    · rw [read]
      exact verified.sameLines lines
  · cases refused with
    | line member long =>
        rw [records] at member
        exact absurd (pinned_lines _ member) (Nat.not_le.mpr long)
    | capture member failed =>
        have stored := members _ member
        rw [records] at stored
        simp only [List.mem_cons,List.not_mem_nil,or_false] at stored
        rcases stored with rfl | rfl <;> cases failed

theorem pinned_distinct (first second : List AuditRecord) (inFirst : ∀ record ∈ first, record ∈ pinnedDrain.sink.records)
    (inSecond : ∀ record ∈ second, record ∈ pinnedDrain.sink.records) : Distinct pinnedSetup.crypto first second := by
  have hashes : ∀ a ∈ [connectionRecord,checkpointRecord], ∀ b ∈ [connectionRecord,checkpointRecord],
      a.recordHash = b.recordHash → a = b := by decide +kernel
  have hashed : ∀ a ∈ [connectionRecord,checkpointRecord], pinnedSetup.crypto.verifiesHash a = true := by
    decide +kernel
  rw [pinnedDrain_contents.1] at inFirst inSecond
  intro a memberA b memberB same
  have first := eq_of_beq (hashed a (inFirst a memberA))
  have second := eq_of_beq (hashed b (inSecond b memberB))
  rw [hashes a (inFirst a memberA) b (inSecond b memberB) (first.symm.trans (same.trans second))]

theorem chain_tamper_evident_sample :
    ∃ replayed, pinnedReplay.replayAudit (some (hexEncode sampleKey.toList)) pinnedDrain.sink.received = .ok replayed ∧
      replayed.records.map AuditRecord.json = [connectionRecord,checkpointRecord].map AuditRecord.json ∧
      CoversOriginal pinnedDrain.sink.records replayed.records := by
  obtain ⟨final,found,original⟩ := pinned_passes
  obtain ⟨replayed,accepted,members,verified⟩ := pinned_replay found original
  have stored : ∀ record ∈ [connectionRecord,checkpointRecord], record ∈ pinnedDrain.sink.records := by
    rw [pinnedDrain_contents.1]
    exact fun _ member => member
  refine ⟨replayed,accepted,?_,?_⟩
  · refine chain_tamper_evident.1 pinnedSetup.crypto (some sampleKey) (some sampleKey) _ _ _ _
      ((checkRecords_ok _ _ _ _ _ _).mpr verified) ((checkRecords_ok _ _ _ _ _ _).mpr original) ?_
      (pinned_distinct _ _ members stored)
    have tips := verified.linked.2.1.trans original.linked.2.1.symm
    change recordChain.tip none _ = recordChain.tip none _ at tips
    rwa [tip_last,tip_last,Option.or_none,Option.or_none] at tips
  · refine chain_tamper_evident.2 pinnedSetup (some samplePlan) [sampleEnvelope] pinnedDrain pinnedReplay _ sampleKey _
      replayed rfl rfl (parseCheckpointPublicKey_hex sampleKey) ?_ accepted
      (pinned_distinct _ _ members (fun _ member => member))
    intro sequence hash signature genuine
    change pinnedVerify sampleKey (checkpointMessage sequence hash) signature = true at genuine
    simp only [pinnedVerify,Bool.and_eq_true,beq_iff_eq] at genuine
    rw [pinnedDrain_contents.2]
    exact ⟨sampleCovered,List.mem_singleton_self _,genuine.1.2⟩

end Freja.Replay
