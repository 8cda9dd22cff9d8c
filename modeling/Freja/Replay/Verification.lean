import Freja.Audit.Chain
import Freja.Replay.LineReader

namespace Freja.Replay
open Domain Audit Bytes Effect

def counted (chain : ChainState) : AuditEvent → Nat
  | .signedCheckpoint _ => saturatingAdd chain.verifiedCheckpoints 1
  | _ => chain.verifiedCheckpoints

-- Everything one line is checked for. The line number only names the place of an
-- error.
structure Passes (crypto : Crypto) (key : Option (Vector UInt8 32)) (chain : ChainState) (record : AuditRecord)
    (after : ChainState) : Prop where
  supported : record.schemaVersion.isSupported = true
  schema : (record.schemaVersion == .v1 && isRepeat record.event) = false
  sequence : record.sequence.value = chain.expectedSequence
  link : record.previousHash = chain.previousHash
  hash : crypto.verifiesHash record = true
  checkpoint : ∀ checkpoint, record.event = .signedCheckpoint checkpoint → crypto.verifies checkpoint = true ∧
    (∀ expected ∈ key, checkpoint.publicKey = expected) ∧ coversChain chain checkpoint = true
  next : after = ⟨saturatingAdd chain.expectedSequence 1,some record.recordHash,counted chain record.event⟩

variable (crypto : Crypto) (key : Option (Vector UInt8 32))

variable (lineNumber : Nat) (setup : ReplaySetup)

theorem checkCheckpoint_ok (chain : ChainState) (event : AuditEvent) (total : Nat) :
    checkCheckpoint crypto key lineNumber chain event = .ok total ↔
      (∀ checkpoint, event = .signedCheckpoint checkpoint → crypto.verifies checkpoint = true ∧
        (∀ expected ∈ key, checkpoint.publicKey = expected) ∧ coversChain chain checkpoint = true) ∧
      counted chain event = total := by
  cases event with
  | signedCheckpoint checkpoint =>
      simp only [checkCheckpoint,counted,AuditEvent.signedCheckpoint.injEq,forall_eq']
      cases verifies : crypto.verifies checkpoint with
      | false => simp
      | true =>
          cases covers : coversChain chain checkpoint with
          | false => simp
          | true =>
              cases key with
              | none => simp
              | some expected =>
                  by_cases same : checkpoint.publicKey = expected
                  · simp [same]
                  · simp [same]
  | _ => simp [checkCheckpoint,counted]

theorem checkRecord_ok (chain : ChainState) (record : AuditRecord) (after : ChainState) :
    checkRecord crypto key lineNumber chain record = .ok after ↔ Passes crypto key chain record after := by
  unfold checkRecord validateReplaySchema validateReplayEventSchema
  cases supported : record.schemaVersion.isSupported with
  | false =>
      refine ⟨fun checked => ?_,fun passes => ?_⟩
      · simp [bind,Except.bind] at checked
      · rw [passes.supported] at supported
        cases supported
  | true =>
      cases schema : record.schemaVersion == .v1 && isRepeat record.event with
      | true =>
          refine ⟨fun checked => ?_,fun passes => ?_⟩
          · simp [bind,Except.bind] at checked
          · rw [passes.schema] at schema
            cases schema
      | false =>
          cases broken : record.sequence.value != chain.expectedSequence ||
              record.previousHash != chain.previousHash || !crypto.verifiesHash record with
          | true =>
              refine ⟨fun checked => ?_,fun passes => ?_⟩
              · simp [bind,Except.bind,throw,throwThe,MonadExceptOf.throw] at checked
              · simp [passes.sequence,passes.link,passes.hash] at broken
          | false =>
              simp only [Bool.or_eq_false_iff,bne_eq_false_iff_eq,Bool.not_eq_false'] at broken
              obtain ⟨⟨sequence,link⟩,hash⟩ := broken
              cases outcome : checkCheckpoint crypto key lineNumber chain record.event with
              | error =>
                  refine ⟨fun checked => ?_,fun passes => ?_⟩
                  · simp [bind,Except.bind] at checked
                  · rw [(checkCheckpoint_ok crypto key lineNumber chain record.event _).mpr ⟨passes.checkpoint,rfl⟩] at outcome
                    cases outcome
              | ok total =>
                  obtain ⟨covers,rfl⟩ := (checkCheckpoint_ok crypto key lineNumber chain record.event total).mp outcome
                  refine ⟨fun checked => ?_,fun passes => ?_⟩
                  · simp [bind,Except.bind,pure,Except.pure] at checked
                    exact ⟨supported,schema,sequence,link,hash,covers,checked.symm⟩
                  · rw [passes.next]
                    simp [bind,Except.bind,pure,Except.pure]

-- A run of the checks over a list of records, one step for each.
inductive Verified : ChainState → List AuditRecord → ChainState → Prop where
  | nil : Verified chain [] chain
  | cons : Passes crypto key chain record after → Verified after rest final → Verified chain (record :: rest) final

theorem checkRecords_ok (chain : ChainState) (records : List AuditRecord) (final : ChainState) :
    checkRecords crypto key lineNumber chain records = .ok final ↔ Verified crypto key chain records final := by
  induction records generalizing lineNumber chain with
  | nil =>
      refine ⟨fun checked => ?_,fun verified => ?_⟩
      · cases checked
        exact .nil
      · cases verified
        rfl
  | cons record rest ih =>
      unfold checkRecords
      refine ⟨fun checked => ?_,fun verified => ?_⟩
      · cases outcome : checkRecord crypto key (saturatingAdd lineNumber 1) chain record with
        | error => simp [outcome,bind,Except.bind] at checked
        | ok =>
            simp only [outcome,bind,Except.bind] at checked
            exact .cons ((checkRecord_ok crypto key _ _ _ _).mp outcome) ((ih _ _).mp checked)
      · cases verified with
        | cons passes later =>
            simp only [(checkRecord_ok crypto key _ _ _ _).mpr passes,bind,Except.bind]
            exact (ih _ _).mpr later

variable {crypto key}

namespace Verified

theorem append (first : Verified crypto key chain records middle) (second : Verified crypto key middle more final) :
    Verified crypto key chain (records ++ more) final := by
  induction first with
  | nil => exact second
  | cons passes _ ih => exact .cons passes (ih second)

theorem split (verified : Verified crypto key chain (records ++ more) final) :
    ∃ middle, Verified crypto key chain records middle ∧ Verified crypto key middle more final := by
  induction records generalizing chain with
  | nil => exact ⟨chain,.nil,verified⟩
  | cons record rest ih =>
      cases verified with
      | cons passes later =>
          obtain ⟨middle,first,second⟩ := ih later
          exact ⟨middle,.cons passes first,second⟩

theorem last (verified : Verified crypto key chain (records ++ [record]) final) :
    ∃ middle, Verified crypto key chain records middle ∧ Passes crypto key middle record final := by
  obtain ⟨middle,first,second⟩ := verified.split
  cases second with
  | cons passes done =>
      cases done
      exact ⟨middle,first,passes⟩

end Verified

theorem isRepeat_eventType (event : AuditEvent) : isRepeat event = (event.eventType == "http-repeat-started") := by
  cases event <;> rfl

theorem eventType_json {first second : AuditEvent} (same : first.json = second.json) :
    first.eventType = second.eventType := by
  simp only [AuditEvent.json,Json.object.injEq,List.cons.injEq,Prod.mk.injEq,Json.string.injEq,true_and] at same
  exact same.1

theorem counted_eventType (chain : ChainState) (event : AuditEvent) :
    counted chain event = if event.eventType == "signed-checkpoint" then saturatingAdd chain.verifiedCheckpoints 1
      else chain.verifiedCheckpoints := by
  cases event <;> rfl

theorem Passes.sameLine (same : SameLine first second) (passes : Passes crypto key chain first after) :
    Passes crypto key chain second after := by
  have types := eventType_json same.event
  refine ⟨?_,?_,?_,?_,?_,?_,?_⟩
  · rw [← same.schemaVersion]
    exact passes.supported
  · rw [← same.schemaVersion,isRepeat_eventType,← types,← isRepeat_eventType]
    exact passes.schema
  · rw [← same.sequence]
    exact passes.sequence
  · rw [← same.previousHash]
    exact passes.link
  · have hash := passes.hash
    unfold Crypto.verifiesHash Crypto.digest at hash ⊢
    rw [← same.unsigned,← same.recordHash]
    exact hash
  · intro checkpoint event
    refine passes.checkpoint checkpoint (event_json_checkpoint ?_)
    rw [same.event,event]
  · rw [passes.next,same.recordHash,counted_eventType,counted_eventType,types]

theorem Verified.sameLines (verified : Verified crypto key chain records final)
    (same : List.Forall₂ SameLine records others) : Verified crypto key chain others final := by
  induction same generalizing chain with
  | nil => exact verified
  | cons line _ ih =>
      cases verified with
      | cons passes later => exact .cons (passes.sameLine line) (ih later)

theorem Verified.linked (verified : Verified crypto key chain records final) :
    recordChain.Linked chain.previousHash records ∧ recordChain.tip chain.previousHash records = final.previousHash ∧
      ∀ record ∈ records, crypto.verifiesHash record = true := by
  induction verified with
  | nil => exact ⟨trivial,rfl,by intro record member; cases member⟩
  | cons passes _ ih =>
      rw [passes.next] at ih
      obtain ⟨linked,tip,hashed⟩ := ih
      refine ⟨⟨passes.link,linked⟩,tip,?_⟩
      intro candidate member
      rcases List.mem_cons.mp member with rfl | later
      · exact passes.hash
      · exact hashed candidate later

-- The checks pass on every chain of current records whose checkpoints verify and
-- were signed for the record before them.
theorem chained_verified (chained : Chained crypto records) (current : ∀ record ∈ records, record.schemaVersion = .current)
    (covered : Covered schedule records)
    (genuine : ∀ record ∈ records, ∀ checkpoint, record.event = .signedCheckpoint checkpoint →
      crypto.verifies checkpoint = true)
    (trusted : ∀ plan ∈ schedule, ∀ expected ∈ key, plan.signer.verifyingKey = expected) :
    ∃ total, Verified crypto key .new records ⟨saturatingAdd records.length 1,recordChain.tip none records,total⟩ := by
  induction records using List.reverseRecOn with
  | nil => exact ⟨0,.nil⟩
  | append_singleton records record ih =>
      have earlier (candidate : AuditRecord) (member : candidate ∈ records) : candidate.schemaVersion = .current :=
        current candidate (List.mem_append_left _ member)
      obtain ⟨total,verified⟩ := ih chained.init earlier covered.init
        (fun candidate member => genuine candidate (List.mem_append_left _ member))
      have version := current record (List.mem_append_right _ List.mem_cons_self)
      have number : record.sequence.value = records.length + 1 := chained.last_number
      -- Positions are numbers of a u64, so only the position after the last may saturate.
      have room : saturatingAdd records.length 1 = records.length + 1 := by
        have fits := record.sequence.fits
        exact saturatingAdd_exact (number ▸ fits)
      rw [room] at verified
      have link := ((recordChain.linked_last none records record).mp chained.linked).2
      have passes : Passes crypto key ⟨records.length + 1,recordChain.tip none records,total⟩ record
          ⟨saturatingAdd (records.length + 1) 1,some record.recordHash,
            counted ⟨records.length + 1,recordChain.tip none records,total⟩ record.event⟩ := by
        refine ⟨?_,?_,number,link,chained.hashed record (List.mem_append_right _ List.mem_cons_self),?_,rfl⟩
        · rw [version]
          rfl
        · rw [version]
          rfl
        · intro checkpoint event
          obtain ⟨plan,planned,before,last,same,rfl⟩ := covered records record [] checkpoint rfl event
          refine ⟨genuine record (List.mem_append_right _ List.mem_cons_self) _ event,trusted plan planned,?_⟩
          subst same
          have position : last.sequence.value = before.length + 1 := chained.init.last_number
          simp [coversChain,CheckpointSigner.signCheckpoint,position,recordChain,HashChain.tip]
      refine ⟨counted ⟨records.length + 1,recordChain.tip none records,total⟩ record.event,?_⟩
      rw [List.length_append,List.length_singleton,HashChain.tip_append]
      exact verified.append (.cons passes .nil)

theorem read_line (content rest : List UInt8) (plain : ∀ byte ∈ content, 32 ≤ byte.toNat)
    (valid : content.toByteArray.validateUTF8 = true) :
    readBoundedReplayLine maximumReplayLineBytes (content ++ 10 :: rest) =
      if content.length > maximumReplayLineBytes then .error (.lineTooLong maximumReplayLineBytes)
      else .ok (some (content,rest)) := by
  have unbroken : 10 ∉ content := fun member => absurd (plain 10 member) (by decide)
  have unreturned : TextLines.chomp 13 content = content := by
    unfold TextLines.chomp
    exact if_neg (fun last => absurd (plain 13 (List.mem_of_getLast? last)) (by decide))
  have small : maximumReplayLineBytes + 2 ≤ u64Max := by decide
  rw [readBounded_line unbroken (unreturned.symm ▸ valid) (.inl small),unreturned]

theorem replayRecord_error (failed : setup.replayRecord record scanners = .error error) :
    error.isIntegrity = false := by
  unfold ReplaySetup.replayRecord at failed
  split at failed
  · cases failed
  · unfold ReplaySetup.replayCapture at failed
    split at failed
    · cases failed
      rfl
    · split at failed
      · cases failed
        rfl
      · cases failed
  · cases failed

theorem replayLines_line (state : ReplayState) (content rest : List UInt8)
    (read : readBoundedReplayLine maximumReplayLineBytes input = .ok (some (content,rest))) :
    setup.replayLines key state input =
      match setup.replayLine key state content with
      | .error error => .error error
      | .ok after => setup.replayLines key after rest := by
  rw [ReplaySetup.replayLines]
  split
  · rename_i error stopped
    rw [read] at stopped
    cases stopped
  · rename_i ended
    rw [read] at ended
    cases ended
  · rename_i found
    rw [read] at found
    cases found
    rfl

theorem replayLines_stopped (state : ReplayState)
    (read : readBoundedReplayLine maximumReplayLineBytes input = .error error) :
    setup.replayLines key state input = .error error := by
  rw [ReplaySetup.replayLines]
  split
  · rename_i other stopped
    rw [read] at stopped
    cases stopped
    rfl
  · rename_i ended
    rw [read] at ended
    cases ended
  · rename_i found
    rw [read] at found
    cases found

-- Why a segment whose records pass may still not be replayed to its end.
inductive Refused (setup : ReplaySetup) (records parsed : List AuditRecord) : ReplayError → Prop where
  | line : record ∈ records → record.json.bytes.length > maximumReplayLineBytes →
      Refused setup records parsed (.lineTooLong maximumReplayLineBytes)
  | capture : again ∈ parsed → setup.replayRecord again scanners = .error error → Refused setup records parsed error

theorem Refused.later (refused : Refused setup records parsed error) :
    Refused setup (record :: records) (again :: parsed) error := by
  cases refused with
  | line member long => exact .line (List.mem_cons_of_mem _ member) long
  | capture member failed => exact .capture (List.mem_cons_of_mem _ member) failed

theorem Refused.notIntegrity (refused : Refused setup records parsed error) : error.isIntegrity = false := by
  cases refused with
  | line => rfl
  | capture _ failed => exact replayRecord_error setup failed

theorem replayLines_outcome (key : Option (Vector UInt8 32)) (state : ReplayState)
    (verified : Verified setup.crypto key state.chain parsed final)
    (reads : List.Forall₂ (fun record again => setup.parse record.json.bytes = some again) records parsed) :
    (∃ after, setup.replayLines key state (records.flatMap line) = .ok after ∧ after.chain = final ∧
      after.records = state.records ++ parsed) ∨
    (∃ error, setup.replayLines key state (records.flatMap line) = .error error ∧
      Refused setup records parsed error) := by
  induction reads generalizing state with
  | nil =>
      cases verified
      refine .inl ⟨state,?_,rfl,(List.append_nil _).symm⟩
      rw [ReplaySetup.replayLines]
      rfl
  | cons read _ ih =>
      rename_i record again records parsed _
      cases verified with
      | cons passes later =>
          rename_i chain
          have input : (record :: records).flatMap line = record.json.bytes ++ 10 :: records.flatMap line := by
            simp [line]
          have reading := read_line record.json.bytes (records.flatMap line) record.json.bytes_printable
            record.json.bytes_valid
          rw [input]
          by_cases long : record.json.bytes.length > maximumReplayLineBytes
          · rw [if_pos long] at reading
            exact .inr ⟨_,replayLines_stopped setup state reading,.line List.mem_cons_self long⟩
          · rw [if_neg long] at reading
            have checked := (checkRecord_ok setup.crypto key (saturatingAdd state.lineNumber 1) _ _ _).mpr passes
            rw [replayLines_line setup state _ _ reading]
            cases outcome : setup.replayRecord again state.scanners with
            | error error =>
                have stopped : setup.replayLine key state record.json.bytes = .error error := by
                  simp [ReplaySetup.replayLine,read,checked,outcome,bind,Except.bind]
                rw [stopped]
                exact .inr ⟨error,rfl,.capture List.mem_cons_self outcome⟩
            | ok replayed =>
                have done : setup.replayLine key state record.json.bytes =
                    .ok ⟨chain,state.records ++ [again],saturatingAdd state.decisions replayed.emitted.length,
                      state.emitted ++ replayed.emitted,replayed.scanners,saturatingAdd state.lineNumber 1⟩ := by
                  simp [ReplaySetup.replayLine,read,checked,outcome,bind,Except.bind,pure,Except.pure]
                rw [done]
                rcases ih ⟨chain,_,_,_,_,_⟩ later with ⟨after,ran,chains,records⟩ | ⟨error,ran,refused⟩
                · exact .inl ⟨after,ran,chains,by rw [records,List.append_assoc,List.singleton_append]⟩
                · exact .inr ⟨error,ran,refused.later⟩

theorem reread (parse : List UInt8 → Option AuditRecord) (records : List AuditRecord)
    (reparses : ∀ record ∈ records, ∃ again, parse record.json.bytes = some again ∧ again.json.bytes = record.json.bytes) :
    ∃ parsed, records.mapM (fun record => parse record.json.bytes) = some parsed ∧
      List.Forall₂ SameLine records parsed ∧
      List.Forall₂ (fun record again => parse record.json.bytes = some again) records parsed := by
  induction records with
  | nil => exact ⟨[],rfl,.nil,.nil⟩
  | cons record rest ih =>
      obtain ⟨again,read,same⟩ := reparses record List.mem_cons_self
      obtain ⟨parsed,reads,lines,pairs⟩ := ih (fun later member => reparses later (List.mem_cons_of_mem _ member))
      refine ⟨again :: parsed,?_,.cons (AuditRecord.bytes_sameLine same.symm) lines,.cons read pairs⟩
      rw [List.mapM_cons,read,reads]
      rfl

theorem segment_verified (kept : DrainKept crypto schedule True drained)
    (trusted : ∀ plan ∈ schedule, ∀ expected ∈ key, plan.signer.verifyingKey = expected)
    (signs : ∀ plan ∈ schedule, crypto.validKey plan.signer.verifyingKey = true ∧ ∀ message,
      crypto.verifyStrict plan.signer.verifyingKey message (plan.signer.sign message) = true)
    {parse : List UInt8 → Option AuditRecord}
    (reparses : ∀ record ∈ drained.sink.records, ∃ again,
      parse record.json.bytes = some again ∧ again.json.bytes = record.json.bytes) :
    ∃ parsed total, drained.sink.records.mapM (fun record => parse record.json.bytes) = some parsed ∧
      List.Forall₂ (fun record again => parse record.json.bytes = some again) drained.sink.records parsed ∧
      Verified crypto key .new parsed
        ⟨saturatingAdd drained.sink.records.length 1,recordChain.tip none drained.sink.records,total⟩ := by
  obtain ⟨parsed,read,lines,pairs⟩ := reread parse drained.sink.records reparses
  have genuine : ∀ record ∈ drained.sink.records, ∀ checkpoint, record.event = .signedCheckpoint checkpoint →
      crypto.verifies checkpoint = true := by
    intro record member checkpoint event
    obtain ⟨before,after,whole⟩ := List.mem_iff_append.mp member
    obtain ⟨plan,planned,_,last,_,rfl⟩ := kept.covered trivial before record after checkpoint whole event
    obtain ⟨valid,verifies⟩ := signs plan planned
    exact Bool.and_eq_true_iff.mpr ⟨valid,verifies _⟩
  obtain ⟨total,passed⟩ := chained_verified kept.sink.chained kept.sink.current (kept.covered trivial) genuine trusted
  exact ⟨parsed,total,read,pairs,passed.sameLines lines⟩

theorem drain_verifies (setup : SinkSetup) (reliable : setup.writer = .reliable) (schedule : Option CheckpointSchedule)
    (envelopes : List AuditEnvelope) (ordinary : ∀ envelope ∈ envelopes, SinkSetup.Ordinary envelope)
    (few : envelopes.length < 9223372036854775808) (key : Option (Vector UInt8 32))
    (trusted : ∀ plan ∈ schedule, ∀ expected ∈ key, plan.signer.verifyingKey = expected)
    (signs : ∀ plan ∈ schedule, setup.crypto.validKey plan.signer.verifyingKey = true ∧ ∀ message,
      setup.crypto.verifyStrict plan.signer.verifyingKey message (plan.signer.sign message) = true)
    (parse : List UInt8 → Option AuditRecord)
    (reparses : ∀ drained, (setup.drainJsonlWithCheckpoints schedule envelopes).run .new = .ok () drained →
      ∀ record ∈ drained.sink.records, ∃ again,
        parse record.json.bytes = some again ∧ again.json.bytes = record.json.bytes) :
    ∃ drained parsed final, (setup.drainJsonlWithCheckpoints schedule envelopes).run .new = .ok () drained ∧
      drained.sink.received = drained.sink.records.flatMap line ∧
      envelopes.length ≤ drained.sink.records.length ∧
      drained.sink.records.mapM (fun record => parse record.json.bytes) = some parsed ∧
      checkRecords setup.crypto key 0 .new parsed = .ok final ∧
      final.expectedSequence = drained.sink.records.length + 1 ∧
      ∀ replay : ReplaySetup, replay.crypto = setup.crypto → replay.parse = parse → ∀ error,
        replay.replayLines key .new drained.sink.received = .error error → error.isIntegrity = false := by
  have room : Drain.new.sink.records.length + 2 * envelopes.length ≤ u64Max := by
    change 0 + 2 * envelopes.length ≤ 0xffffffffffffffff
    omega
  have total : Ensures (setup.drainJsonlWithCheckpoints schedule envelopes) .new _ _ :=
    SinkSetup.drain_reliable reliable (SinkSetup.Live.new setup.crypto) envelopes room
  have keeps : Ensures (setup.drainJsonlWithCheckpoints schedule envelopes) .new _ _ :=
    SinkSetup.drain_kept (DrainKept.new setup.crypto schedule True) envelopes (fun _ => ordinary)
  obtain ⟨_,drained,ran,live,least,most⟩ := ensures_total total
  have kept := ensures_answer keeps ran
  have short : drained.sink.records.length + 1 ≤ u64Max := by
    change drained.sink.records.length ≤ 0 + 2 * envelopes.length at most
    change drained.sink.records.length + 1 ≤ 0xffffffffffffffff
    omega
  obtain ⟨parsed,total,read,pairs,verified⟩ := segment_verified kept trusted signs (reparses drained ran)
  rw [saturatingAdd_exact short] at verified
  have checked := (checkRecords_ok setup.crypto key 0 .new parsed _).mpr verified
  refine ⟨drained,parsed,_,ran,live.lines,by simpa [Drain.new,JsonlAuditSink.new] using least,read,checked,rfl,?_⟩
  intro replay crypto parser error failed
  rw [← crypto] at verified
  rw [← parser] at pairs
  rw [live.lines] at failed
  rcases replayLines_outcome replay key .new verified pairs with ⟨after,done,_⟩ | ⟨other,stopped,refused⟩
  · rw [done] at failed
    cases failed
  · rw [stopped] at failed
    cases failed
    exact refused.notIntegrity

-- A segment of one accepted connection with a checkpoint behind it. The digests
-- are those of the two canonical records, the key and the signature those of an
-- Ed25519 seed of thirty-two sevens.
def connectionDigest : Digest :=
  #v[43,218,122,42,211,188,177,41,56,210,59,132,249,1,95,181,90,210,59,128,45,139,22,11,
    76,206,43,110,245,104,18,85]

def checkpointDigest : Digest :=
  #v[10,113,43,46,8,122,107,169,162,117,89,171,5,17,232,120,152,36,195,11,254,204,153,223,
    65,131,15,248,120,88,12,99]

def sampleKey : Vector UInt8 32 :=
  #v[234,74,108,99,226,156,82,10,190,245,80,123,19,46,197,249,149,71,118,174,190,190,123,146,
    66,30,234,105,20,70,210,44]

def sampleSignature : Vector UInt8 64 :=
  #v[11,104,83,217,241,61,110,93,146,99,132,173,61,132,163,235,193,32,138,105,101,84,255,237,
    181,51,165,12,75,155,116,254,73,231,187,7,226,243,73,215,87,253,28,247,84,135,236,8,
    134,173,74,103,210,84,61,168,228,49,209,86,183,109,148,0]

def sampleSigner : CheckpointSigner := ⟨sampleKey,fun _ => sampleSignature⟩

-- The two canonical texts first differ in the digit of their sequence.
def sampleDigest (bytes : List UInt8) : Digest :=
  if (bytes.drop 31).head? = some 49 then connectionDigest else checkpointDigest

def sampleEnvelope : AuditEnvelope :=
  ⟨⟨1,⟨302240678275694148452353⟩,none,.initial⟩,.connectionAccepted "127.0.0.1:40000" "127.0.0.1:8080"⟩

def samplePlan : CheckpointSchedule := ⟨sampleSigner,1,Nat.zero_lt_one⟩

def sampleSetup (verifyStrict : Vector UInt8 32 → List UInt8 → Vector UInt8 64 → Bool) : SinkSetup :=
  ⟨⟨sampleDigest,fun _ => true,verifyStrict⟩,noUrls,.new [],.reliable⟩

def sampleRun (setup : SinkSetup) : EStateM.Result AuditError Drain Unit :=
  (setup.drainJsonlWithCheckpoints (some samplePlan) [sampleEnvelope]).run .new

-- Reads a line back by comparing it with the lines of the segment.
def sampleParse (setup : SinkSetup) (bytes : List UInt8) : Option AuditRecord :=
  (stateOf (sampleRun setup)).sink.records.find? (fun record => record.json.bytes == bytes)

theorem sampleParse_reads (setup : SinkSetup) (record : AuditRecord)
    (member : record ∈ (stateOf (sampleRun setup)).sink.records) :
    ∃ again, sampleParse setup record.json.bytes = some again ∧ again.json.bytes = record.json.bytes := by
  have found : (sampleParse setup record.json.bytes).isSome = true :=
    List.find?_isSome.mpr ⟨record,member,beq_self_eq_true _⟩
  obtain ⟨again,read⟩ := Option.isSome_iff_exists.mp found
  unfold sampleParse at read
  have same := List.find?_some read
  exact ⟨again,read,eq_of_beq same⟩

def sampleVerify (key : Vector UInt8 32) (_ : List UInt8) (signature : Vector UInt8 64) : Bool :=
  key == sampleKey && signature == sampleSignature

theorem drain_verifies_sample :
    ∃ drained parsed final, sampleRun (sampleSetup sampleVerify) = .ok () drained ∧
      drained.sink.received = drained.sink.records.flatMap line ∧
      1 ≤ drained.sink.records.length ∧
      drained.sink.records.mapM (fun record => sampleParse (sampleSetup sampleVerify) record.json.bytes) = some parsed ∧
      checkRecords (sampleSetup sampleVerify).crypto (some sampleKey) 0 .new parsed = .ok final ∧
      final.expectedSequence = drained.sink.records.length + 1 ∧
      ∀ replay : ReplaySetup, replay.crypto = (sampleSetup sampleVerify).crypto →
        replay.parse = sampleParse (sampleSetup sampleVerify) → ∀ error,
        replay.replayLines (some sampleKey) .new drained.sink.received = .error error → error.isIntegrity = false := by
  refine drain_verifies (sampleSetup sampleVerify) rfl (some samplePlan) [sampleEnvelope] ?_ (by decide) (some sampleKey)
    ?_ ?_ (sampleParse (sampleSetup sampleVerify)) ?_
  · intro envelope member checkpoint same
    rw [List.mem_singleton.mp member] at same
    cases same
  · intro plan planned expected pinned
    cases planned
    cases pinned
    rfl
  · intro plan planned
    cases planned
    refine ⟨rfl,fun message => ?_⟩
    change sampleVerify sampleKey message sampleSignature = true
    simp [sampleVerify]
  · intro drained ran record member
    refine sampleParse_reads (sampleSetup sampleVerify) record ?_
    unfold sampleRun
    rw [ran]
    exact member

theorem replayLine_ok {line : List UInt8} (replayed : setup.replayLine key state line = .ok after) :
    ∃ record chain outcome, checkRecord setup.crypto key (saturatingAdd state.lineNumber 1) state.chain record = .ok chain ∧
      setup.replayRecord record state.scanners = .ok outcome ∧
      after = ⟨chain,state.records ++ [record],saturatingAdd state.decisions outcome.emitted.length,
        state.emitted ++ outcome.emitted,outcome.scanners,saturatingAdd state.lineNumber 1⟩ := by
  unfold ReplaySetup.replayLine at replayed
  cases read : setup.parse line with
  | none => simp [read,bind,Except.bind] at replayed
  | some record =>
      cases checked : checkRecord setup.crypto key (saturatingAdd state.lineNumber 1) state.chain record with
      | error => simp [read,checked,bind,Except.bind] at replayed
      | ok chain =>
          cases outcome : setup.replayRecord record state.scanners with
          | error => simp [read,checked,outcome,bind,Except.bind] at replayed
          | ok =>
              simp only [read,checked,outcome,Option.elim_some,bind,Except.bind,pure,Except.pure,
                Except.ok.injEq] at replayed
              exact ⟨record,chain,_,checked,outcome,replayed.symm⟩

theorem replayLines_keeps (invariant : ReplayState → Prop)
    (steps : ∀ state line after, invariant state → setup.replayLine key state line = .ok after → invariant after)
    (start : invariant state) (replayed : setup.replayLines key state input = .ok final) : invariant final := by
  fun_induction ReplaySetup.replayLines setup key state input with
  | case1 => cases replayed
  | case2 =>
      cases replayed
      exact start
  | case3 => cases replayed
  | case4 state input line rest read after done ih => exact ih (steps state line after start done) replayed

theorem replayLines_verified (input : List UInt8) (state final : ReplayState)
    (verified : Verified setup.crypto key .new state.records state.chain)
    (replayed : setup.replayLines key state input = .ok final) :
    Verified setup.crypto key .new final.records final.chain := by
  refine replayLines_keeps setup (fun state => Verified setup.crypto key .new state.records state.chain) ?_ verified replayed
  intro state line after verified replayed
  obtain ⟨record,chain,outcome,checked,_,rfl⟩ := replayLine_ok setup replayed
  exact verified.append (.cons ((checkRecord_ok setup.crypto key _ _ _ _).mp checked) .nil)

theorem replayAudit_verified (input : List UInt8) (final : ReplayState)
    (readKey : parseCheckpointPublicKey keyText = .ok expected)
    (replayed : setup.replayAudit (some keyText) input = .ok final) :
    Verified setup.crypto (some expected) .new final.records final.chain ∧ final.chain.verifiedCheckpoints ≠ 0 := by
  unfold ReplaySetup.replayAudit at replayed
  simp only [Option.elim_some,readKey,Except.map,bind,Except.bind] at replayed
  cases outcome : setup.replayLines (some expected) .new input with
  | error => simp [outcome] at replayed
  | ok state =>
      have verified := replayLines_verified setup input .new state .nil outcome
      by_cases none : state.chain.verifiedCheckpoints = 0
      · simp [outcome,none,throw,throwThe,MonadExceptOf.throw] at replayed
      · simp [outcome,none,pure,Except.pure] at replayed
        subst replayed
        exact ⟨verified,none⟩

theorem Verified.last_checkpoint (verified : Verified crypto key .new records final)
    (found : final.verifiedCheckpoints ≠ 0) :
    ∃ before record after checkpoint, records = before ++ record :: after ∧ record.event = .signedCheckpoint checkpoint ∧
      ∀ later ∈ after, ∀ other, later.event ≠ .signedCheckpoint other := by
  induction records using List.reverseRecOn generalizing final with
  | nil =>
      cases verified
      exact absurd rfl found
  | append_singleton records record ih =>
      obtain ⟨middle,first,passes⟩ := verified.last
      rw [passes.next] at found
      by_cases covers : ∃ checkpoint, record.event = .signedCheckpoint checkpoint
      · obtain ⟨checkpoint,event⟩ := covers
        refine ⟨records,record,[],checkpoint,rfl,event,?_⟩
        intro later member
        cases member
      · have ordinary : ∀ other, record.event ≠ .signedCheckpoint other := fun other same => covers ⟨other,same⟩
        have total : counted middle record.event = middle.verifiedCheckpoints := by
          unfold counted
          split
          · rename_i checkpoint event
            exact absurd event (ordinary checkpoint)
          · rfl
        obtain ⟨before,candidate,after,checkpoint,same,event,rest⟩ := ih first (total ▸ found)
        refine ⟨before,candidate,after ++ [record],checkpoint,by rw [same,List.append_assoc,List.cons_append],event,?_⟩
        intro later member
        rcases List.mem_append.mp member with old | new
        · exact rest later old
        · rw [List.mem_singleton.mp new]
          exact ordinary

end Freja.Replay
