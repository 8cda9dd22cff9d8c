import Freja.Foundation.Utf8
import Freja.Policy.Acl

namespace Freja.Policy
open Domain Bytes TextLines

def maximumAclEvidenceRules : Nat := 64

inductive AclRuleResult where
  | matched
  | didNotMatch
  | unavailableAtThisStage
  | notEvaluatedAfterFirstMatch
deriving DecidableEq, Repr

structure AclEvaluation where
  rules : List AclRule
  defaultAction : RuleAction
  results : Vector AclRuleResult maximumAclEvidenceRules
  evaluated : Nat
  didNotMatch : Nat
  unavailable : Nat
  selected : Option Nat

namespace AclEvaluation

def new (rules : List AclRule) (defaultAction : RuleAction) : AclEvaluation where
  rules := rules
  defaultAction := defaultAction
  results := Vector.replicate maximumAclEvidenceRules .notEvaluatedAfterFirstMatch
  evaluated := 0
  didNotMatch := 0
  unavailable := 0
  selected := none

-- Beyond the last slot a result is only counted.
def record (evaluation : AclEvaluation) (result : AclRuleResult) : AclEvaluation :=
  let placed := {evaluation with results := evaluation.results.setIfInBounds evaluation.evaluated result}
  let counted :=
    match result with
    | .matched => {placed with selected := some placed.evaluated}
    | .didNotMatch => {placed with didNotMatch := placed.didNotMatch + 1}
    | .unavailableAtThisStage => {placed with unavailable := placed.unavailable + 1}
    | .notEvaluatedAfterFirstMatch => placed
  {counted with evaluated := counted.evaluated + 1}

def selectedRule (evaluation : AclEvaluation) : Option AclRule :=
  evaluation.selected.bind (fun index => evaluation.rules[index]?)

end AclEvaluation

def AclPolicy.defaultDecision (policy : AclPolicy) (facts : PolicyFacts) : Decision :=
  decision policy.generation facts policy.defaultAction none
    [⟨"default-action",defaultActionText policy.defaultAction⟩]

def AclPolicy.evaluateRules (policy : AclPolicy) (facts : PolicyFacts) (evaluation : AclEvaluation) :
    List AclRule → Decision × AclEvaluation
  | [] => (policy.defaultDecision facts,evaluation)
  | rule :: rest =>
      match evaluateExpression facts rule.matcher with
      | .matched reasons =>
          (decision policy.generation facts rule.action (some rule.id) reasons,evaluation.record .matched)
      | .didNotMatch => policy.evaluateRules facts (evaluation.record .didNotMatch) rest
      | .unavailable => policy.evaluateRules facts (evaluation.record .unavailableAtThisStage) rest

def AclPolicy.evaluateWithDefinition (policy : AclPolicy) (facts : PolicyFacts) : Decision × AclEvaluation :=
  policy.evaluateRules facts (.new policy.rules policy.defaultAction) policy.rules

def ExpressionResult.asResult : ExpressionResult → AclRuleResult
  | .matched _ => .matched
  | .didNotMatch => .didNotMatch
  | .unavailable => .unavailableAtThisStage

def AclRule.result (facts : PolicyFacts) (rule : AclRule) : AclRuleResult :=
  (evaluateExpression facts rule.matcher).asResult

-- What has been recorded of the rules that were evaluated.
structure AclEvaluation.Records (facts : PolicyFacts) (seen : List AclRule) (evaluation : AclEvaluation) : Prop where
  evaluated : evaluation.evaluated = seen.length
  counted : seen.length = evaluation.didNotMatch + evaluation.unavailable + evaluation.selected.toList.length
  slots : ∀ slot < maximumAclEvidenceRules,
    evaluation.results[slot]? = some (seen[slot]?.elim .notEvaluatedAfterFirstMatch (AclRule.result facts))

-- How the loop ends over the rules that are left.
inductive AclPolicy.Ended (policy : AclPolicy) (facts : PolicyFacts) (seen : List AclRule) :
    List AclRule → Decision × AclEvaluation → Prop where
  | byDefault (records : evaluation.Records facts (seen ++ rest)) (open_ : evaluation.selected = none)
      (unmatched : ∀ rule ∈ rest, rule.result facts ≠ .matched) :
      policy.Ended facts seen rest (policy.defaultDecision facts,evaluation)
  | byRule (before : List AclRule) (rule : AclRule) (found : evaluateExpression facts rule.matcher = .matched reasons)
      (records : evaluation.Records facts (seen ++ before ++ [rule]))
      (selected : evaluation.selected = some (seen ++ before).length)
      (unmatched : ∀ earlier ∈ before, earlier.result facts ≠ .matched) :
      policy.Ended facts seen (before ++ rule :: after)
        (decision policy.generation facts rule.action (some rule.id) reasons,evaluation)

variable {facts : PolicyFacts} {seen : List AclRule} {evaluation : AclEvaluation} {policy : AclPolicy}

namespace AclEvaluation

theorem new_records (rules : List AclRule) (defaultAction : RuleAction) :
    (new rules defaultAction).Records facts [] := by
  refine ⟨rfl,rfl,?_⟩
  intro slot within
  simp [new,within]

theorem record_results (result : AclRuleResult) :
    (evaluation.record result).results = evaluation.results.setIfInBounds evaluation.evaluated result := by
  cases result <;> rfl

theorem record_evaluated (result : AclRuleResult) :
    (evaluation.record result).evaluated = evaluation.evaluated + 1 := by
  cases result <;> rfl

theorem record_slots (records : evaluation.Records facts seen) (rule : AclRule) :
    ∀ slot < maximumAclEvidenceRules, (evaluation.record (rule.result facts)).results[slot]? =
      some ((seen ++ [rule])[slot]?.elim .notEvaluatedAfterFirstMatch (AclRule.result facts)) := by
  intro slot within
  rw [record_results,records.evaluated,Vector.getElem?_setIfInBounds]
  split
  · rename_i here
    subst here
    simp [within]
  · rename_i elsewhere
    rw [records.slots slot within,List.getElem?_append]
    split
    · rfl
    · rename_i later
      rw [List.getElem?_eq_none (by omega),List.getElem?_eq_none (by simp; omega)]

theorem record_records (records : evaluation.Records facts seen) (open_ : evaluation.selected = none) (rule : AclRule) :
    (evaluation.record (rule.result facts)).Records facts (seen ++ [rule]) := by
  refine ⟨?_,?_,record_slots records rule⟩
  · rw [record_evaluated,records.evaluated,List.length_append]
    rfl
  · have counted := records.counted
    rw [List.length_append,List.length_singleton,counted,open_]
    unfold AclRule.result
    cases evaluateExpression facts rule.matcher <;> simp [record,ExpressionResult.asResult,open_] <;> omega

@[simp] theorem record_rules (result : AclRuleResult) : (evaluation.record result).rules = evaluation.rules := by
  cases result <;> rfl

end AclEvaluation

theorem AclPolicy.Ended.earlier {rule : AclRule} {rest : List AclRule} {outcome : Decision × AclEvaluation}
    (ended : policy.Ended facts (seen ++ [rule]) rest outcome) (unmatched : rule.result facts ≠ .matched) :
    policy.Ended facts seen (rule :: rest) outcome := by
  cases ended with
  | byDefault records open_ others =>
      rw [List.append_assoc] at records
      exact .byDefault records open_ (List.forall_mem_cons.mpr ⟨unmatched,others⟩)
  | byRule before last found records selected others =>
      rw [List.append_assoc seen] at records selected
      exact .byRule (rule :: before) last found records selected (List.forall_mem_cons.mpr ⟨unmatched,others⟩)

theorem AclPolicy.evaluateRules_ended (rest : List AclRule) (records : evaluation.Records facts seen)
    (open_ : evaluation.selected = none) :
    policy.Ended facts seen rest (policy.evaluateRules facts evaluation rest) := by
  induction rest generalizing seen evaluation with
  | nil => exact .byDefault (by rwa [List.append_nil]) open_ (List.forall_mem_nil _)
  | cons rule rest ih =>
      have next := evaluation.record_records records open_ rule
      unfold AclPolicy.evaluateRules
      cases found : evaluateExpression facts rule.matcher with
      | matched reasons =>
          have result : rule.result facts = .matched := by rw [AclRule.result,found]; rfl
          rw [result] at next
          refine .byRule [] rule found (by rwa [List.append_nil]) ?_ (List.forall_mem_nil _)
          rw [List.append_nil,← records.evaluated]
          rfl
      | didNotMatch =>
          have result : rule.result facts = .didNotMatch := by rw [AclRule.result,found]; rfl
          rw [result] at next
          exact (ih next open_).earlier (by rw [result]; decide)
      | unavailable =>
          have result : rule.result facts = .unavailableAtThisStage := by rw [AclRule.result,found]; rfl
          rw [result] at next
          exact (ih next open_).earlier (by rw [result]; decide)

theorem AclPolicy.evaluateRules_rules (rest : List AclRule) :
    (policy.evaluateRules facts evaluation rest).2.rules = evaluation.rules := by
  induction rest generalizing evaluation with
  | nil => rfl
  | cons rule rest ih =>
      unfold AclPolicy.evaluateRules
      split <;> simp [ih]

theorem AclPolicy.evaluateWithDefinition_decision (policy : AclPolicy) (facts : PolicyFacts) :
    (policy.evaluateWithDefinition facts).1 = policy.evaluate facts := by
  unfold AclPolicy.evaluateWithDefinition AclPolicy.evaluate
  generalize AclEvaluation.new policy.rules policy.defaultAction = evaluation
  induction policy.rules generalizing evaluation with
  | nil => rfl
  | cons rule rest ih =>
      unfold AclPolicy.evaluateRules firstMatch
      cases evaluateExpression facts rule.matcher with
      | matched => rfl
      | didNotMatch | unavailable => exact ih _

-- The evidence tells what the evaluation did, whichever way it ended.
structure AclPolicy.Accounted (policy : AclPolicy) (facts : PolicyFacts) (decided : Decision)
    (evidence : AclEvaluation) : Prop where
  counts : evidence.evaluated = evidence.didNotMatch + evidence.unavailable + if evidence.selected.isSome then 1 else 0
  first : evidence.selected = policy.rules.findIdx? (fun rule => rule.result facts = .matched)
  named : decided.trace.matchedRule = evidence.selectedRule.map AclRule.id
  fallback : evidence.selected = none ↔ decided = policy.defaultDecision facts
  reached : evidence.evaluated = evidence.selected.elim policy.rules.length (· + 1)
  outcomes : ∀ slot : Fin maximumAclEvidenceRules, evidence.results[slot] =
    (policy.rules.take evidence.evaluated)[slot.val]?.elim .notEvaluatedAfterFirstMatch (AclRule.result facts)

theorem AclEvaluation.Records.counts (records : evaluation.Records facts seen) : evaluation.evaluated =
    evaluation.didNotMatch + evaluation.unavailable + if evaluation.selected.isSome then 1 else 0 := by
  have counted := records.counted
  rw [records.evaluated,counted]
  cases evaluation.selected <;> rfl

theorem AclEvaluation.Records.outcome (records : evaluation.Records facts seen) (slot : Fin maximumAclEvidenceRules) :
    evaluation.results[slot] = seen[slot.val]?.elim .notEvaluatedAfterFirstMatch (AclRule.result facts) := by
  have told := records.slots slot.val slot.isLt
  rw [Vector.getElem?_eq_getElem slot.isLt] at told
  exact Option.some.inj told

theorem AclPolicy.Ended.accounted {decided : Decision} (ended : policy.Ended facts [] policy.rules (decided,evaluation))
    (listed : evaluation.rules = policy.rules) : policy.Accounted facts decided evaluation := by
  generalize rules : policy.rules = whole at ended
  cases ended with
  | byDefault records open_ unmatched =>
      refine ⟨records.counts,?_,?_,⟨fun _ => rfl,fun _ => open_⟩,?_,?_⟩
      · rw [open_,rules,eq_comm,List.findIdx?_eq_none_iff]
        simpa using unmatched
      · rw [AclEvaluation.selectedRule,open_]
        rfl
      · rw [records.evaluated,open_,rules]
        rfl
      · intro slot
        rw [records.evaluated,rules,List.nil_append,List.take_length,records.outcome]
        rfl
  | byRule before rule found records selected unmatched =>
      have matched : rule.result facts = .matched := by rw [AclRule.result,found]; rfl
      refine ⟨records.counts,?_,?_,⟨?_,?_⟩,?_,?_⟩
      · have none : before.findIdx? (fun rule => decide (rule.result facts = .matched)) = Option.none := by
          rw [List.findIdx?_eq_none_iff]
          simpa using unmatched
        rw [selected,rules,List.findIdx?_append,none]
        simp [List.findIdx?_cons,matched]
      · rw [AclEvaluation.selectedRule,selected,listed,rules]
        simp [decision,Decision.new]
      · intro none
        rw [selected] at none
        cases none
      · intro same
        cases congrArg (fun decision => decision.trace.matchedRule) same
      · rw [records.evaluated,selected,List.length_append]
        rfl
      · intro slot
        have reached : policy.rules.take evaluation.evaluated = [] ++ before ++ [rule] := by
          rw [records.evaluated,rules]
          simp [List.take_append]
        rw [reached,records.outcome]

-- Every access list, of any length, and all facts.
theorem rule_evidence_accounts (policy : AclPolicy) (facts : PolicyFacts) :
    (policy.evaluateWithDefinition facts).1 = policy.evaluate facts ∧
      policy.Accounted facts (policy.evaluateWithDefinition facts).1 (policy.evaluateWithDefinition facts).2 := by
  refine ⟨policy.evaluateWithDefinition_decision facts,?_⟩
  have fresh : (AclEvaluation.new _ _).Records facts [] := AclEvaluation.new_records policy.rules policy.defaultAction
  exact (AclPolicy.evaluateRules_ended policy.rules fresh rfl).accounted (AclPolicy.evaluateRules_rules policy.rules)

def maximumDefinitionBytes : Nat := 16 * 1024

inductive WriteError where
  | other (text : String)
  | writeZero
deriving DecidableEq, Repr

structure LimitedWriter where
  retained : List UInt8

namespace LimitedWriter

def limitError : WriteError := .other "definition retention limit"

def write (writer : LimitedWriter) (bytes : List UInt8) : Except WriteError Nat × LimitedWriter :=
  let remaining := maximumDefinitionBytes - writer.retained.length
  let retained := min bytes.length remaining
  let extended : LimitedWriter := ⟨writer.retained ++ bytes.take retained⟩
  if retained < bytes.length then (.error limitError,extended) else (.ok retained,extended)

-- What the standard library makes of single writes.
def writeAll (writer : LimitedWriter) (bytes : List UInt8) : Except WriteError Unit × LimitedWriter :=
  match bytes with
  | [] => (.ok (),writer)
  | first :: rest =>
      match writer.write (first :: rest) with
      | (.error error,after) => (.error error,after)
      | (.ok 0,after) => (.error .writeZero,after)
      | (.ok (count + 1),after) => after.writeAll (rest.drop count)
termination_by bytes.length
decreasing_by
  simp only [List.length_cons,List.length_drop]
  omega

-- The serializer stops at the first error of its writer.
def writePieces (writer : LimitedWriter) : List (List UInt8) → Except WriteError Unit × LimitedWriter
  | [] => (.ok (),writer)
  | piece :: rest =>
      match writer.writeAll piece with
      | (.error error,after) => (.error error,after)
      | (.ok (),after) => after.writePieces rest

end LimitedWriter

-- The JSON text of a value, and the pieces in which the serializer writes it.
structure Serialized where
  text : String
  pieces : List (List UInt8)
  whole : pieces.flatten = utf8 text

structure DefinitionText where
  text : String
  incomplete : Bool

def DefinitionText.capture (value : Serialized) : DefinitionText :=
  let (written,writer) := LimitedWriter.writePieces ⟨[]⟩ value.pieces
  let incomplete := match written with
    | .ok () => false
    | .error _ => true
  let length := match Utf8.fromUtf8 writer.retained with
    | .ok text => (utf8 text).length
    | .error validUpTo => validUpTo
  let text := match Utf8.fromUtf8 (writer.retained.take length) with
    | .ok text => text
    | .error _ => ""
  ⟨text,incomplete⟩

namespace LimitedWriter

variable {writer : LimitedWriter}

theorem write_fits {bytes : List UInt8} (fits : writer.retained.length + bytes.length ≤ maximumDefinitionBytes) :
    writer.write bytes = (.ok bytes.length,⟨writer.retained ++ bytes⟩) := by
  have all : min bytes.length (maximumDefinitionBytes - writer.retained.length) = bytes.length := by omega
  simp [write,all]

theorem write_full {bytes : List UInt8} (within : writer.retained.length ≤ maximumDefinitionBytes)
    (full : maximumDefinitionBytes < writer.retained.length + bytes.length) :
    writer.write bytes = (.error limitError,⟨(writer.retained ++ bytes).take maximumDefinitionBytes⟩) := by
  have part : min bytes.length (maximumDefinitionBytes - writer.retained.length) =
      maximumDefinitionBytes - writer.retained.length := by omega
  have short : maximumDefinitionBytes - writer.retained.length < bytes.length := by omega
  simp only [write,part,if_pos short]
  rw [List.take_append,List.take_of_length_le within]

-- However the bytes are cut into writes, the writer keeps the first of them up to its limit.
structure Wrote (writer : LimitedWriter) (bytes : List UInt8) (outcome : Except WriteError Unit × LimitedWriter) : Prop where
  kept : outcome.2.retained = (writer.retained ++ bytes).take maximumDefinitionBytes
  failed : outcome.1 = .ok () ↔ writer.retained.length + bytes.length ≤ maximumDefinitionBytes

theorem writeAll_wrote (within : writer.retained.length ≤ maximumDefinitionBytes) (bytes : List UInt8) :
    writer.Wrote bytes (writer.writeAll bytes) := by
  cases bytes with
  | nil => exact ⟨by simp [writeAll,within],by simp [writeAll,within]⟩
  | cons first rest =>
      rcases Nat.lt_or_ge maximumDefinitionBytes (writer.retained.length + (first :: rest).length) with full | fits
      · rw [writeAll,write_full within full]
        refine ⟨rfl,?_⟩
        simpa using full
      · rw [writeAll,write_fits fits]
        refine ⟨?_,?_⟩
        · simpa [writeAll] using fits
        · simpa [writeAll] using fits

theorem writePieces_wrote (within : writer.retained.length ≤ maximumDefinitionBytes) (pieces : List (List UInt8)) :
    writer.Wrote pieces.flatten (writer.writePieces pieces) := by
  induction pieces generalizing writer with
  | nil => exact ⟨by simp [writePieces,within],by simp [writePieces,within]⟩
  | cons piece rest ih =>
      obtain ⟨kept,failed⟩ := writeAll_wrote within piece
      unfold writePieces
      rcases written : writer.writeAll piece with ⟨error | _,after⟩ <;> rw [written] at kept failed
      · have full : maximumDefinitionBytes ≤ (writer.retained ++ piece).length := by
          have short := mt failed.mpr (by simp)
          rw [List.length_append]
          omega
        refine ⟨?_,?_⟩
        · rw [List.flatten_cons,← List.append_assoc,List.take_append_of_le_length full]
          exact kept
        · have short := mt failed.mpr (by simp)
          simp only [List.flatten_cons,List.length_append,reduceCtorEq,false_iff]
          omega
      · have fits := failed.mp rfl
        rw [List.take_of_length_le (by simpa using fits)] at kept
        have later := @ih after (by rw [kept]; simpa using fits)
        refine ⟨?_,?_⟩
        · rw [later.kept,kept,List.flatten_cons,List.append_assoc]
        · rw [later.failed,kept,List.flatten_cons,List.length_append,List.length_append,Nat.add_assoc]

end LimitedWriter

theorem DefinitionText.capture_text (value : Serialized) : (capture value).text =
    String.ofList (Utf8.decode ((utf8 value.text).take maximumDefinitionBytes)).1 := by
  have kept := (@LimitedWriter.writePieces_wrote ⟨[]⟩ (Nat.zero_le _) value.pieces).kept
  rw [value.whole,List.nil_append] at kept
  unfold capture
  generalize LimitedWriter.writePieces ⟨[]⟩ value.pieces = outcome at kept
  obtain ⟨_,writer⟩ := outcome
  dsimp only at kept ⊢
  have length : (match Utf8.fromUtf8 writer.retained with
      | .ok text => (utf8 text).length
      | .error validUpTo => validUpTo) = (encode (Utf8.decode writer.retained).1).length := by
    rcases Utf8.fromUtf8_cases writer.retained with ⟨read,_⟩ | ⟨stopped,_⟩
    · rw [read]
      exact congrArg List.length (utf8_ofList _)
    · rw [stopped]
  rw [length,Utf8.take_decoded,Utf8.fromUtf8_encode,kept]

theorem DefinitionText.capture_incomplete (value : Serialized) :
    (capture value).incomplete = true ↔ maximumDefinitionBytes < (utf8 value.text).length := by
  have failed := (@LimitedWriter.writePieces_wrote ⟨[]⟩ (Nat.zero_le _) value.pieces).failed
  rw [value.whole,List.length_nil,Nat.zero_add] at failed
  unfold capture
  generalize LimitedWriter.writePieces ⟨[]⟩ value.pieces = outcome at failed
  rcases outcome with ⟨_ | _,writer⟩
  · simpa using failed
  · simpa using failed

-- Every value, however its JSON text is cut into writes.
theorem definition_text_bounded_prefix (value : Serialized) :
    utf8 (DefinitionText.capture value).text <+: utf8 value.text ∧
      (utf8 (DefinitionText.capture value).text).length ≤ maximumDefinitionBytes ∧
      (∀ other : String, utf8 other <+: utf8 value.text → (utf8 other).length ≤ maximumDefinitionBytes →
        utf8 other <+: utf8 (DefinitionText.capture value).text) ∧
      ((DefinitionText.capture value).incomplete = true ↔ maximumDefinitionBytes < (utf8 value.text).length) := by
  have inside : utf8 (DefinitionText.capture value).text <+: (utf8 value.text).take maximumDefinitionBytes := by
    rw [DefinitionText.capture_text,utf8_ofList]
    exact ⟨_,(Utf8.decode_parts _).symm⟩
  refine ⟨inside.trans (List.take_prefix _ _),?_,?_,DefinitionText.capture_incomplete value⟩
  · exact inside.length_le.trans (List.length_take_le _ _)
  · intro other front short
    have within : utf8 other <+: (utf8 value.text).take maximumDefinitionBytes :=
      List.prefix_take_iff.mpr ⟨front,short⟩
    rw [DefinitionText.capture_text,utf8_ofList]
    exact (Utf8.decode_longest within).flatMap _

theorem letters_bytes (count : Nat) : utf8 (String.ofList (List.replicate count 'a')) = List.replicate count 97 := by
  rw [utf8_ofList]
  induction count with
  | zero => rfl
  | succ count ih => exact congrArg (97 :: ·) ih

theorem letters_whole (first second : Nat) :
    [List.replicate first 97,List.replicate second 97].flatten =
      utf8 (String.ofList (List.replicate (first + second) 'a')) := by
  rw [letters_bytes,List.flatten_cons,List.flatten_singleton,List.replicate_append_replicate]

-- A text of one byte too many, and the limit falls into its second piece.
theorem definition_text_bounded_prefix_cut :
    (DefinitionText.capture ⟨_,_,letters_whole 10000 6385⟩).incomplete = true ∧
      (utf8 (DefinitionText.capture ⟨_,_,letters_whole 10000 6385⟩).text).length = maximumDefinitionBytes := by
  have bounded := definition_text_bounded_prefix ⟨_,_,letters_whole 10000 6385⟩
  have size : 10000 + 6385 = maximumDefinitionBytes + 1 := by decide
  have front : utf8 (String.ofList (List.replicate maximumDefinitionBytes 'a')) <+:
      utf8 (String.ofList (List.replicate (10000 + 6385) 'a')) := by
    rw [letters_bytes,letters_bytes,size,List.replicate_succ']
    exact List.prefix_append _ _
  have length := (bounded.2.2.1 _ front (by rw [letters_bytes,List.length_replicate])).length_le
  rw [letters_bytes,List.length_replicate] at length
  refine ⟨bounded.2.2.2.mpr ?_,Nat.le_antisymm bounded.2.1 length⟩
  rw [letters_bytes,List.length_replicate,size]
  exact Nat.lt_succ_self _

end Freja.Policy
