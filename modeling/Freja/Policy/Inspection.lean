import Freja.Policy.Acl
import Freja.Foundation.Transducer

namespace Freja.Policy
open Domain Bytes Occurrence Transducer

inductive InspectionError where
  | emptyPattern (detectorId : DetectorId)
  | emptyDirections (detectorId : DetectorId)
  | duplicateDetector (detectorId : DetectorId)
  | unsupportedDetour (detectorId : DetectorId)
  deriving DecidableEq, Repr

structure InspectionPattern where
  detectorId : DetectorId
  ruleId : RuleId
  bytes : List UInt8
  severity : Severity
  confidence : Confidence
  directions : List Direction
  action : RuleAction
  tags : List String
  nonempty : bytes ≠ []
  directed : directions ≠ []
  final : action.isDetour = false
  deriving DecidableEq, Repr

def InspectionPattern.new (detectorId : DetectorId) (ruleId : RuleId) (bytes : List UInt8) (severity : Severity)
    (confidence : Confidence) (directions : List Direction) (action : RuleAction) (tags : List String) :
    Except InspectionError InspectionPattern :=
  if empty : bytes = [] then .error (.emptyPattern detectorId)
  else if undirected : directions = [] then .error (.emptyDirections detectorId)
  else if detour : action.isDetour = true then .error (.unsupportedDetour detectorId)
  else .ok ⟨detectorId,ruleId,bytes,severity,confidence,directions,action,tags,empty,undirected,
    Bool.eq_false_iff.mpr detour⟩

def InspectionPattern.appliesTo (pattern : InspectionPattern) (direction : Direction) : Bool :=
  pattern.directions.contains direction

def maximumPatternBytes (patterns : List InspectionPattern) : Nat :=
  patterns.foldl (fun maximum pattern => max maximum pattern.bytes.length) 0

def checkDetectors (seen : List DetectorId) : List InspectionPattern → Except InspectionError Unit
  | [] => .ok ()
  | pattern :: rest =>
      if pattern.detectorId ∈ seen then .error (.duplicateDetector pattern.detectorId)
      else checkDetectors (pattern.detectorId :: seen) rest

structure InspectionProgram where
  generation : PolicyGeneration
  patterns : List InspectionPattern
  maximumPatternBytes : Nat
  checked : checkDetectors [] patterns = .ok ()
  longest : maximumPatternBytes = Policy.maximumPatternBytes patterns
  deriving DecidableEq, Repr

namespace InspectionProgram

def new (generation : PolicyGeneration) (patterns : List InspectionPattern) : Except InspectionError InspectionProgram :=
  match checked : checkDetectors [] patterns with
  | .ok () => .ok ⟨generation,patterns,Policy.maximumPatternBytes patterns,checked,rfl⟩
  | .error error => .error error

def empty (generation : PolicyGeneration) : InspectionProgram := ⟨generation,[],0,rfl,rfl⟩

def streamingAction (protocol : Protocol) : RuleAction → EnforcementAction
  | .deny =>
      match protocol with
      | .http => .httpReject .forbidden
      | .tcp => .tcpClose ⟨.graceful⟩
  | .allow | .detour _ => .allow

def evaluate (program : InspectionProgram) (finding : Finding) (protocol : Protocol) : Decision :=
  let selected := program.patterns.find? (fun pattern => pattern.detectorId == finding.detectorId)
  let action := (selected.map (·.action)).getD .allow
  .new (streamingAction protocol action) program.generation .streaming (selected.map (·.ruleId))
    [⟨"detector-finding",finding.detectorId.text⟩]

end InspectionProgram

structure StreamScanner where
  program : InspectionProgram
  direction : Direction
  carry : List UInt8
  processedBytes : Nat
  deriving DecidableEq, Repr

def InspectionProgram.scanner (program : InspectionProgram) (direction : Direction) : StreamScanner :=
  ⟨program,direction,[],0⟩

section Scanning

-- The SHA-256 digest of a pattern only labels its findings.
variable (sha256 : List UInt8 → Digest)

def finding (pattern : InspectionPattern) (direction : Direction) (baseOffset start stop : Nat) : Finding :=
  {detectorId := pattern.detectorId,severity := pattern.severity,confidence := pattern.confidence
   direction := direction
   byteRange := ByteRange.new (saturatingAdd baseOffset start) (saturatingAdd baseOffset stop)
   evidenceHash := sha256 pattern.bytes,tags := pattern.tags}

namespace StreamScanner

def patternFindings (scanner : StreamScanner) (searchable : List UInt8) (pattern : InspectionPattern) : List Finding :=
  let carryLen := scanner.carry.length
  let baseOffset := scanner.processedBytes - carryLen
  ((matchOffsets searchable pattern.bytes).filter (fun start => carryLen < start + pattern.bytes.length)).map
    (fun start => finding sha256 pattern scanner.direction baseOffset start (start + pattern.bytes.length))

def inspect (scanner : StreamScanner) (bytes : List UInt8) : StreamScanner × List Finding :=
  if bytes.isEmpty || scanner.program.maximumPatternBytes == 0 then
    ({scanner with processedBytes := saturatingAdd scanner.processedBytes bytes.length},[])
  else
    let searchable := scanner.carry ++ bytes
    let applying := scanner.program.patterns.filter (·.appliesTo scanner.direction)
    ({scanner with
      processedBytes := saturatingAdd scanner.processedBytes bytes.length
      carry := keepLast (scanner.program.maximumPatternBytes - 1) searchable},
     applying.flatMap (scanner.patternFindings sha256 searchable))

end StreamScanner

-- The findings a stream calls for: one for each place where a pattern that
-- applies to the direction occupies the stream, with the place's absolute range.
def occurrenceFinding (direction : Direction) (pattern : InspectionPattern) (start : Nat) : Finding :=
  {detectorId := pattern.detectorId,severity := pattern.severity,confidence := pattern.confidence
   direction := direction
   byteRange := some ⟨start,start + pattern.bytes.length,
     Nat.lt_add_of_pos_right (List.length_pos_of_ne_nil pattern.nonempty)⟩
   evidenceHash := sha256 pattern.bytes,tags := pattern.tags}

def occurrenceStarts (stream : List UInt8) (pattern : InspectionPattern) : List Nat :=
  (List.range stream.length).filter (fun start => OccursAt stream pattern.bytes start)

def InspectionProgram.applying (program : InspectionProgram) (direction : Direction) : List InspectionPattern :=
  program.patterns.filter (·.appliesTo direction)

def occurrenceFindings (program : InspectionProgram) (direction : Direction) (stream : List UInt8) : List Finding :=
  (program.applying direction).flatMap
    (fun pattern => (occurrenceStarts stream pattern).map (occurrenceFinding sha256 direction pattern))

end Scanning

theorem occurrenceStarts_perm (stream : List UInt8) (pattern : InspectionPattern) :
    (occurrenceStarts stream pattern).Perm (matchOffsets stream pattern.bytes) := by
  have unique : (occurrenceStarts stream pattern).Nodup := List.nodup_range.filter _
  rw [List.perm_ext_iff_of_nodup unique (matchOffsets_nodup _ _)]
  intro start
  rw [mem_matchOffsets,occurrenceStarts,List.mem_filter,List.mem_range,decide_eq_true_eq,and_iff_right_iff_imp]
  intro occurs
  have inside := occurs.1
  have positive := List.length_pos_of_ne_nil pattern.nonempty
  omega

theorem maximumPatternBytes_bound (patterns : List InspectionPattern) :
    ∀ pattern ∈ patterns, pattern.bytes.length ≤ maximumPatternBytes patterns := by
  suffices folded : ∀ start, start ≤ patterns.foldl (fun most pattern => max most pattern.bytes.length) start ∧
      ∀ pattern ∈ patterns, pattern.bytes.length ≤
        patterns.foldl (fun most pattern => max most pattern.bytes.length) start from (folded 0).2
  induction patterns with
  | nil => exact fun start => ⟨Nat.le_refl start,List.forall_mem_nil _⟩
  | cons first rest ih =>
      intro start
      obtain ⟨most,others⟩ := ih (max start first.bytes.length)
      refine ⟨(Nat.le_max_left _ _).trans most,fun pattern member => ?_⟩
      rcases List.mem_cons.mp member with rfl | later
      · exact (Nat.le_max_right _ _).trans most
      · exact others pattern later

namespace InspectionProgram

theorem bounded {program : InspectionProgram} (member : pattern ∈ program.patterns) :
    pattern.bytes.length ≤ program.maximumPatternBytes := by
  rw [program.longest]
  exact maximumPatternBytes_bound program.patterns pattern member

theorem idle {program : InspectionProgram} (none : program.maximumPatternBytes = 0) : program.patterns = [] := by
  rw [List.eq_nil_iff_forall_not_mem]
  intro pattern member
  have short := program.bounded member
  have positive := List.length_pos_of_ne_nil pattern.nonempty
  omega

end InspectionProgram

namespace StreamScanner

variable (sha256 : List UInt8 → Digest) {program : InspectionProgram} {direction : Direction}

-- What a scanner remembers of the stream it has been fed: the bytes in which an
-- occurrence can still be open and, while it fits a u64, how long it was.
structure Carries (program : InspectionProgram) (direction : Direction) (scanner : StreamScanner)
    (seen : List UInt8) : Prop where
  running : scanner.program = program
  facing : scanner.direction = direction
  carry : scanner.carry = keepLast (program.maximumPatternBytes - 1) seen

structure Tracks (program : InspectionProgram) (direction : Direction) (scanner : StreamScanner)
    (seen : List UInt8) : Prop extends Carries program direction scanner seen where
  processed : scanner.processedBytes = seen.length

theorem scanner_carries : Carries program direction (program.scanner direction) [] :=
  ⟨rfl,rfl,by simp [InspectionProgram.scanner,keepLast]⟩

theorem scanner_tracks : Tracks program direction (program.scanner direction) [] := ⟨scanner_carries,rfl⟩

theorem inspect_carries (carries : Carries program direction scanner seen) (bytes : List UInt8) :
    Carries program direction (scanner.inspect sha256 bytes).1 (seen ++ bytes) := by
  obtain ⟨rfl,rfl,carry⟩ := carries
  unfold inspect
  split
  · rename_i quiet
    refine ⟨rfl,rfl,?_⟩
    rw [Bool.or_eq_true,List.isEmpty_iff,beq_iff_eq] at quiet
    rcases quiet with rfl | none
    · rw [List.append_nil]
      exact carry
    · rw [carry,none]
      simp [keepLast]
  · refine ⟨rfl,rfl,?_⟩
    change keepLast _ (scanner.carry ++ bytes) = _
    rw [carry,keepLast_append]

theorem inspect_tracks (tracks : Tracks program direction scanner seen) (bytes : List UInt8)
    (fits : (seen ++ bytes).length ≤ u64Max) :
    Tracks program direction (scanner.inspect sha256 bytes).1 (seen ++ bytes) := by
  refine ⟨inspect_carries sha256 tracks.toCarries bytes,?_⟩
  rw [List.length_append] at fits ⊢
  have counted : saturatingAdd scanner.processedBytes bytes.length = seen.length + bytes.length := by
    rw [tracks.processed,saturatingAdd_exact fits]
  unfold inspect
  split <;> simp only [counted]

def freshFindings (program : InspectionProgram) (direction : Direction) (seen bytes : List UInt8) : List Finding :=
  (program.applying direction).flatMap
    (fun pattern => (freshOffsets seen bytes pattern.bytes).map (occurrenceFinding sha256 direction pattern))

-- Each pattern reports the occurrences that end inside the new bytes, whatever
-- part of them the carry still holds.
theorem patternFindings_fresh (tracks : Tracks program direction scanner seen) (bytes : List UInt8)
    (fits : (seen ++ bytes).length ≤ u64Max) (member : pattern ∈ program.applying direction) :
    (scanner.patternFindings sha256 (scanner.carry ++ bytes) pattern).Perm
      ((freshOffsets seen bytes pattern.bytes).map (occurrenceFinding sha256 direction pattern)) := by
  obtain ⟨⟨rfl,rfl,carry⟩,processed⟩ := tracks
  have short := InspectionProgram.bounded (List.mem_of_mem_filter member)
  have positive := List.length_pos_of_ne_nil pattern.nonempty
  have fresh := freshOffsets_carry (scanner.program.maximumPatternBytes - 1) seen bytes pattern.bytes (by omega)
  rw [← carry] at fresh
  refine List.Perm.trans ?_ (fresh.map (occurrenceFinding sha256 scanner.direction pattern))
  rw [List.map_map]
  refine List.Perm.of_eq (List.map_congr_left fun start found => ?_)
  have occurs := (mem_matchOffsets _ _ _).mp (List.mem_of_mem_filter found)
  have inside := occurs.1
  have kept : scanner.carry.length ≤ seen.length := by
    rw [carry,keepLast_length]
    omega
  rw [List.length_append] at inside fits
  have first : saturatingAdd (scanner.processedBytes - scanner.carry.length) start =
      seen.length - scanner.carry.length + start := by
    rw [processed,saturatingAdd_exact (by omega)]
  have last : saturatingAdd (scanner.processedBytes - scanner.carry.length) (start + pattern.bytes.length) =
      seen.length - scanner.carry.length + start + pattern.bytes.length := by
    rw [processed,saturatingAdd_exact (by omega),Nat.add_assoc]
  simp only [finding,occurrenceFinding,Function.comp_apply,first,last,ByteRange.new]
  rw [dif_pos (by omega)]

theorem freshFindings_nil (program : InspectionProgram) (direction : Direction) (seen : List UInt8) :
    freshFindings sha256 program direction seen [] = [] := by
  rw [freshFindings,List.flatMap_eq_nil_iff]
  intro pattern _
  rw [List.map_eq_nil_iff,List.eq_nil_iff_forall_not_mem]
  intro start fresh
  obtain ⟨occurs,passed⟩ := mem_freshOffsets.mp fresh
  have inside := occurs.1
  rw [List.append_nil] at inside
  omega

theorem inspect_findings (tracks : Tracks program direction scanner seen) (bytes : List UInt8)
    (fits : (seen ++ bytes).length ≤ u64Max) :
    (scanner.inspect sha256 bytes).2.Perm (freshFindings sha256 program direction seen bytes) := by
  unfold inspect
  split
  · rename_i quiet
    rw [Bool.or_eq_true,List.isEmpty_iff,beq_iff_eq,tracks.running] at quiet
    rcases quiet with rfl | none
    · rw [freshFindings_nil]
    · simp [freshFindings,InspectionProgram.applying,InspectionProgram.idle none]
  · have same : scanner.program.patterns.filter (·.appliesTo scanner.direction) = program.applying direction := by
      rw [tracks.running,tracks.facing,InspectionProgram.applying]
    change List.Perm (List.flatMap _ (scanner.program.patterns.filter _)) _
    rw [same]
    exact List.Perm.flatMap_left _ (fun pattern member => patternFindings_fresh sha256 tracks bytes fits member)

theorem occurrenceFindings_append (program : InspectionProgram) (direction : Direction) (seen bytes : List UInt8) :
    (occurrenceFindings sha256 program direction (seen ++ bytes)).Perm
      (occurrenceFindings sha256 program direction seen ++ freshFindings sha256 program direction seen bytes) := by
  unfold occurrenceFindings freshFindings
  refine List.Perm.trans ?_ (List.flatMap_append_perm _ _ _).symm
  refine List.Perm.flatMap_left _ fun pattern _ => ?_
  rw [← List.map_append]
  refine List.Perm.map _ ?_
  refine (occurrenceStarts_perm _ _).trans ((matchOffsets_append seen bytes pattern.bytes).trans ?_)
  exact (occurrenceStarts_perm seen pattern).symm.append_right _

-- One call keeps the scanner in step with the stream and completes the findings.
theorem scan_run (program : InspectionProgram) (direction : Direction) (chunks : List (List UInt8))
    (fits : chunks.flatten.length ≤ u64Max) :
    let run := feedChunks (inspect sha256) (program.scanner direction) chunks
    Tracks program direction run.1 chunks.flatten ∧
      run.2.Perm (occurrenceFindings sha256 program direction chunks.flatten) := by
  refine feedChunks_invariant (fun scanner findings seen => seen.length ≤ u64Max →
    Tracks program direction scanner seen ∧ findings.Perm (occurrenceFindings sha256 program direction seen))
    ?_ ?_ chunks fits
  · intro _
    refine ⟨scanner_tracks,?_⟩
    simp [occurrenceFindings,occurrenceStarts]
  · intro scanner findings seen chunk earlier fits
    obtain ⟨tracks,found⟩ := earlier (by rw [List.length_append] at fits; omega)
    refine ⟨inspect_tracks sha256 tracks chunk fits,?_⟩
    refine List.Perm.trans ?_ (occurrenceFindings_append sha256 program direction seen chunk).symm
    exact found.append (inspect_findings sha256 tracks chunk fits)

theorem scan_exact (program : InspectionProgram) (direction : Direction) (chunks : List (List UInt8))
    (fits : chunks.flatten.length < 2^64) :
    let run := feedChunks (inspect sha256) (program.scanner direction) chunks
    run.2.Perm (occurrenceFindings sha256 program direction chunks.flatten) ∧
      (∀ other : List (List UInt8), other.flatten = chunks.flatten →
        (feedChunks (inspect sha256) (program.scanner direction) other).2.Perm run.2) ∧
      run.1.carry.length ≤ program.maximumPatternBytes - 1 := by
  have small (stream : List UInt8) (short : stream.length < 2^64) : stream.length ≤ u64Max := by
    unfold u64Max
    omega
  obtain ⟨tracks,found⟩ := scan_run sha256 program direction chunks (small _ fits)
  refine ⟨found,fun other same => ?_,?_⟩
  · have again := (scan_run sha256 program direction other (small _ (same ▸ fits))).2
    rw [same] at again
    exact again.trans found.symm
  · rw [tracks.carry,keepLast_length]
    omega

theorem inspect_detectors (carries : Carries program direction scanner seen) (bytes : List UInt8) (detectorId : DetectorId) :
    (∃ found ∈ (scanner.inspect sha256 bytes).2, found.detectorId = detectorId) ↔
      ∃ pattern ∈ program.applying direction, pattern.detectorId = detectorId ∧
        ∃ start, start ∈ freshOffsets seen bytes pattern.bytes := by
  obtain ⟨rfl,rfl,carry⟩ := carries
  have reported (pattern : InspectionPattern) (member : pattern ∈ scanner.program.applying scanner.direction) :
      (∃ start, start ∈ freshOffsets seen bytes pattern.bytes) ↔
        ∃ found, found ∈ scanner.patternFindings sha256 (scanner.carry ++ bytes) pattern := by
    have short := InspectionProgram.bounded (List.mem_of_mem_filter member)
    have positive := List.length_pos_of_ne_nil pattern.nonempty
    have fresh := freshOffsets_carry (scanner.program.maximumPatternBytes - 1) seen bytes pattern.bytes (by omega)
    rw [← carry] at fresh
    unfold patternFindings
    constructor
    · rintro ⟨start,member⟩
      obtain ⟨place,placed,_⟩ := List.mem_map.mp (fresh.mem_iff.mpr member)
      exact ⟨_,List.mem_map_of_mem placed⟩
    · rintro ⟨found,member⟩
      obtain ⟨place,placed,_⟩ := List.mem_map.mp member
      exact ⟨_,fresh.mem_iff.mp (List.mem_map_of_mem placed)⟩
  unfold inspect
  split
  · rename_i quiet
    constructor
    · intro found
      obtain ⟨_,nothing,_⟩ := found
      cases nothing
    · intro applying
      obtain ⟨pattern,member,_,start,fresh⟩ := applying
      rw [Bool.or_eq_true,List.isEmpty_iff,beq_iff_eq] at quiet
      rcases quiet with rfl | idle
      · obtain ⟨occurs,passed⟩ := mem_freshOffsets.mp fresh
        have inside := occurs.1
        rw [List.append_nil] at inside
        omega
      · rw [InspectionProgram.applying,InspectionProgram.idle idle] at member
        cases member
  · constructor
    · rintro ⟨found,member,same⟩
      obtain ⟨pattern,applies,listed⟩ := List.mem_flatMap.mp member
      have detected : found.detectorId = pattern.detectorId := by
        obtain ⟨_,_,made⟩ := List.mem_map.mp listed
        rw [← made]
        rfl
      exact ⟨pattern,applies,detected.symm.trans same,(reported pattern applies).mpr ⟨found,listed⟩⟩
    · rintro ⟨pattern,applies,same,fresh⟩
      obtain ⟨found,listed⟩ := (reported pattern applies).mp fresh
      refine ⟨found,List.mem_flatMap.mpr ⟨pattern,applies,listed⟩,?_⟩
      obtain ⟨_,_,made⟩ := List.mem_map.mp listed
      rw [← made]
      exact same

end StreamScanner

theorem checkDetectors_unique (seen : List DetectorId) (patterns : List InspectionPattern)
    (checked : checkDetectors seen patterns = .ok ()) :
    (patterns.map (·.detectorId)).Nodup ∧ ∀ pattern ∈ patterns, pattern.detectorId ∉ seen := by
  induction patterns generalizing seen with
  | nil => exact ⟨List.nodup_nil,List.forall_mem_nil _⟩
  | cons first rest ih =>
      unfold checkDetectors at checked
      split at checked
      · cases checked
      · rename_i fresh
        obtain ⟨unique,unseen⟩ := ih (first.detectorId :: seen) checked
        constructor
        · refine List.nodup_cons.mpr ⟨?_,unique⟩
          intro repeated
          obtain ⟨pattern,member,same⟩ := List.mem_map.mp repeated
          exact unseen pattern member (same ▸ List.mem_cons_self)
        · intro pattern member
          rcases List.mem_cons.mp member with rfl | later
          · exact fresh
          · exact fun old => unseen pattern later (List.mem_cons_of_mem _ old)

theorem find_unique (patterns : List InspectionPattern) (unique : (patterns.map (·.detectorId)).Nodup)
    (member : pattern ∈ patterns) :
    patterns.find? (fun other => other.detectorId == pattern.detectorId) = some pattern := by
  induction patterns with
  | nil => cases member
  | cons first rest ih =>
      rw [List.map_cons,List.nodup_cons] at unique
      rcases List.mem_cons.mp member with rfl | later
      · simp
      · have different : (first.detectorId == pattern.detectorId) = false := by
          refine beq_eq_false_iff_ne.mpr fun same => unique.1 ?_
          exact same ▸ List.mem_map_of_mem later
        rw [List.find?_cons,different]
        exact ih unique.2 later

namespace InspectionProgram

theorem evaluate_allows {program : InspectionProgram} (member : pattern ∈ program.patterns)
    (detected : found.detectorId = pattern.detectorId) (protocol : Protocol) :
    (program.evaluate found protocol).action = .allow ↔ pattern.action ≠ .deny := by
  have selected := find_unique program.patterns (checkDetectors_unique [] program.patterns program.checked).1 member
  rw [← detected] at selected
  simp only [evaluate,Decision.new,selected,Option.map_some,Option.getD_some]
  cases pattern.action <;> cases protocol <;> simp [streamingAction]

-- Some pattern that denies occurs in the bytes of this direction.
def DenyIn (program : InspectionProgram) (direction : Direction) (bytes : List UInt8) : Prop :=
  ∃ pattern ∈ program.applying direction, pattern.action = .deny ∧ ∃ start, OccursAt bytes pattern.bytes start

theorem denyIn_mono {program : InspectionProgram} {direction : Direction} {bytes more : List UInt8}
    (within : bytes <+: more) (denied : DenyIn program direction bytes) : DenyIn program direction more := by
  obtain ⟨rest,rfl⟩ := within
  obtain ⟨pattern,applies,denies,start,occurs⟩ := denied
  exact ⟨pattern,applies,denies,start,(occursAt_append_left rest occurs.1).mpr occurs⟩

theorem denyIn_of_barred {program : InspectionProgram} {direction : Direction} {bytes : List UInt8}
    (barred : ∀ byte, DenyIn program direction [byte]) (some : bytes ≠ []) : DenyIn program direction bytes := by
  obtain ⟨first,rest,rfl⟩ := List.exists_cons_of_ne_nil some
  exact denyIn_mono ⟨rest,rfl⟩ (barred first)

theorem not_denyIn_nil (program : InspectionProgram) (direction : Direction) : ¬ DenyIn program direction [] := by
  rintro ⟨pattern,_,_,start,occurs⟩
  have inside := occurs.1
  have positive := List.length_pos_of_ne_nil pattern.nonempty
  rw [List.length_nil] at inside
  omega

end InspectionProgram

namespace StreamScanner

variable (sha256 : List UInt8 → Digest) {program : InspectionProgram} {direction : Direction}

theorem inspect_denies (carries : Carries program direction scanner seen) (clean : ¬ program.DenyIn direction seen)
    (bytes : List UInt8) (protocol : Protocol) :
    (∃ found ∈ (scanner.inspect sha256 bytes).2, (program.evaluate found protocol).action ≠ .allow) ↔
      program.DenyIn direction (seen ++ bytes) := by
  have detectors := inspect_detectors sha256 carries bytes
  constructor
  · rintro ⟨found,member,refused⟩
    obtain ⟨pattern,applies,same,start,fresh⟩ := (detectors found.detectorId).mp ⟨found,member,rfl⟩
    have allows := InspectionProgram.evaluate_allows (List.mem_of_mem_filter applies) same.symm protocol
    exact ⟨pattern,applies,not_not.mp (mt allows.mpr refused),start,(mem_freshOffsets.mp fresh).1⟩
  · rintro ⟨pattern,applies,denies,start,occurs⟩
    have passed : seen.length < start + pattern.bytes.length := by
      by_contra inside
      exact clean ⟨pattern,applies,denies,start,(occursAt_append_left bytes (by omega)).mp occurs⟩
    obtain ⟨found,member,same⟩ :=
      (detectors pattern.detectorId).mpr ⟨pattern,applies,rfl,start,mem_freshOffsets.mpr ⟨occurs,passed⟩⟩
    have allows := InspectionProgram.evaluate_allows (List.mem_of_mem_filter applies) same protocol
    exact ⟨found,member,fun allowed => allows.mp allowed denies⟩

def abaDigest : Digest :=
  #v[225,36,173,204,225,251,47,136,225,234,121,156,61,8,32,132,
    94,211,67,230,199,57,229,65,49,252,179,165,110,75,193,189]

def abaPattern : InspectionPattern :=
  {detectorId := ⟨"magic",by decide⟩,ruleId := ⟨"block-magic",by decide⟩,bytes := ascii "aba"
   severity := .high,confidence := .confirmed,directions := [.httpRequestBody],action := .deny,tags := []
   nonempty := by decide,directed := by decide,final := rfl}

def abaProgram : InspectionProgram := ⟨.initial,[abaPattern],3,by decide,by decide⟩

-- Two overlapping occurrences, each cut by a chunk boundary.
theorem scan_exact_overlapping :
    let chunks := [ascii "ab",[],ascii "ab",ascii "a"]
    chunks.flatten.length < 2^64 ∧
      (feedChunks (inspect fun _ => abaDigest) (abaProgram.scanner .httpRequestBody) chunks).2.Perm
        [occurrenceFinding (fun _ => abaDigest) .httpRequestBody abaPattern 0,
         occurrenceFinding (fun _ => abaDigest) .httpRequestBody abaPattern 2] :=
  ⟨by decide,(scan_exact (fun _ => abaDigest) abaProgram .httpRequestBody [ascii "ab",[],ascii "ab",ascii "a"]
    (by decide)).1⟩

end StreamScanner

end Freja.Policy
