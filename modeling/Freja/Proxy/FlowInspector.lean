import Freja.Proxy.Services
import Mathlib.Logic.Function.Basic

namespace Freja.Proxy
open Domain Policy Audit Effect Bytes

-- The scanners keep their snapshot for the life of the flow. What each of them
-- has been given so far is recorded next to them, and they agree with it.
structure FlowInspector where
  decision : PolicySnapshot
  flow : Flow
  protocol : Protocol
  mode : InspectionMode
  scanners : Direction → StreamScanner
  captured : Direction → Nat
  maximumInspectedBytes : Nat
  inspected : Direction → Nat
  fed : Direction → List UInt8
  carried : ∀ direction, StreamScanner.Carries decision.inspection direction (scanners direction) (fed direction)

variable (env : Environment)

namespace FlowInspector

def ofSnapshot (decision : PolicySnapshot) (flow : Flow) (protocol : Protocol) (maximumInspectedBytes : Nat) :
    FlowInspector :=
  {decision := decision,flow := flow,protocol := protocol,mode := decision.inspectionMode
   scanners := fun direction => decision.inspection.scanner direction
   captured := fun _ => 0,maximumInspectedBytes := maximumInspectedBytes,inspected := fun _ => 0
   fed := fun _ => [],carried := fun _ => StreamScanner.scanner_carries}

def new (flow : Flow) (protocol : Protocol) (maximumInspectedBytes : Nat) : Task FlowInspector := do
  let decision ← decisionSnapshot env
  return ofSnapshot decision flow protocol maximumInspectedBytes

def usesPreflight (inspector : FlowInspector) : Bool := inspector.mode == .preflight

def capture (inspector : FlowInspector) (direction : Direction) (bytes : List UInt8) : Task FlowInspector :=
  match env.capturePrefixBytes with
  | none => return inspector
  | some maximum => do
      let count := min (maximum - inspector.captured direction) bytes.length
      if count = 0 then return inspector
      else
        publishEvent env inspector.flow
          (.payloadPrefixCaptured direction inspector.protocol (hexEncode (bytes.take count)))
        return {inspector with
          captured := Function.update inspector.captured direction (inspector.captured direction + count)}

-- The bytes of a chunk that still fall into the direction's budget.
def share (inspector : FlowInspector) (direction : Direction) (bytes : List UInt8) : List UInt8 :=
  bytes.take (inspector.maximumInspectedBytes - inspector.inspected direction)

def spent (inspector : FlowInspector) (direction : Direction) (bytes : List UInt8) : Nat :=
  if inspector.usesPreflight then inspector.maximumInspectedBytes
  else inspector.inspected direction + (inspector.share direction bytes).length

def scan (inspector : FlowInspector) (direction : Direction) (bytes : List UInt8) : FlowInspector × List Finding :=
  let part := inspector.share direction bytes
  let scanned := (inspector.scanners direction).inspect env.sha256 part
  ({inspector with
    inspected := Function.update inspector.inspected direction (inspector.spent direction bytes)
    scanners := Function.update inspector.scanners direction scanned.1
    fed := Function.update inspector.fed direction (inspector.fed direction ++ part)
    carried := by
      intro other
      by_cases same : other = direction
      · subst same
        simp only [Function.update_self]
        exact StreamScanner.inspect_carries env.sha256 (inspector.carried other) part
      · simp only [Function.update_of_ne same]
        exact inspector.carried other},scanned.2)

def judge (inspector : FlowInspector) (context : AuditContext) : List Finding → Task Bool
  | [] => return true
  | finding :: rest => do
      publish env ⟨context,.findingDetected finding⟩
      publish env ⟨context,.replayFactsObserved (.finding finding inspector.protocol)⟩
      let decision := inspector.decision.inspection.evaluate finding inspector.protocol
      publishInspectionDecision env context decision
      if inspector.decision.permits decision then judge inspector context rest
      else
        recordAction env inspector.flow decision
        return false

def permits (inspector : FlowInspector) (direction : Direction) (bytes : List UInt8) : Task (Bool × FlowInspector) := do
  let inspector ← inspector.capture env direction bytes
  if (inspector.share direction bytes).isEmpty then return (true,inspector)
  else
    let (next,findings) := inspector.scan env direction bytes
    let context ← auditContext env inspector.flow
    let verdict ← next.judge env context findings
    return (verdict,next)

structure BodyTransform where
  bytes : List UInt8
  replaced : Bool
  deriving DecidableEq, Repr

def runHook (run : Nat → Except HookRunError α × Nat) : Task (Except HookRunError α) := fun state =>
  .ok (run state.hookCalls).1 {state with hookCalls := (run state.hookCalls).2}

def publishHookOutcome (context : AuditContext) (stage : AuditHookStage) (succeeded : Bool) : Task Unit :=
  publish env ⟨context,.hookExecuted stage (if succeeded then .completed else .failed)⟩

def applyBodyHook (inspector : FlowInspector) (stage : AuditHookStage)
    (run : Nat → Except HookRunError BodyMutationPlan × Nat) (bytes : List UInt8) (maximumReplacementBytes : Nat)
    (decodedReplacementAllowed : Bool) : Task BodyTransform := do
  let result ← runHook run
  let context ← auditContext env inspector.flow
  publishHookOutcome env context stage result.toBool
  match result with
  | .error error => throw (.hook error)
  | .ok plan =>
      let replaced := plan != .keep
      if replaced && !decodedReplacementAllowed then throw (.hookMutation .encodedBodyReplacement)
      else
        match applyBodyMutation bytes plan maximumReplacementBytes with
        | .error error => throw (.hookMutation error)
        | .ok output => return ⟨output,replaced⟩

def transformHttpBody (inspector : FlowInspector) (direction : Direction) (bytes : List UInt8)
    (maximumReplacementBytes : Nat) (decodedReplacementAllowed : Bool) : Task BodyTransform :=
  if env.hooks.mode = .disabled then return ⟨bytes,false⟩
  else
    match direction with
    | .httpRequestBody => inspector.applyBodyHook env .httpRequestBody (env.hooks.requestBody bytes)
        bytes maximumReplacementBytes decodedReplacementAllowed
    | .httpResponseBody => inspector.applyBodyHook env .httpResponseBody (env.hooks.responseBody bytes)
        bytes maximumReplacementBytes decodedReplacementAllowed
    | .clientToUpstream | .upstreamToClient => return ⟨bytes,false⟩

def applyChunkHook (context : AuditContext) (stage : AuditHookStage)
    (run : Nat → Except HookRunError ChunkMutationPlan × Nat) : Task ChunkMutationPlan := do
  let result ← runHook run
  publishHookOutcome env context stage result.toBool
  match result with
  | .error error => throw (.hook error)
  | .ok plan => return plan

def runTcpHook (context : AuditContext) (direction : Direction) (bytes : List UInt8) : Task ChunkMutationPlan :=
  if env.hooks.mode = .disabled then return .keep
  else
    match direction with
    | .clientToUpstream => applyChunkHook env context .tcpClientChunk (env.hooks.tcpClientChunk bytes)
    | .upstreamToClient =>
        applyChunkHook env context .tcpUpstreamChunk (env.hooks.tcpUpstreamChunk bytes)
    | .httpRequestBody | .httpResponseBody => return .keep

def transformTcpChunk (inspector : FlowInspector) (direction : Direction) (bytes : List UInt8)
    (maximumReplacementBytes : Nat) : Task (Option (List UInt8)) := do
  let context ← auditContext env inspector.flow
  match ← runTcpHook env context direction bytes with
  | .keep => return some bytes
  | .replace replacement =>
      if replacement.length > maximumReplacementBytes then
        throw (.hookMutation (.bodyTooLarge replacement.length maximumReplacementBytes))
      else return some replacement
  | .drop => return none

-- What a call of permits leaves behind, whatever it answers.
structure Advances (inspector : FlowInspector) (direction : Direction) (bytes : List UInt8)
    (next : FlowInspector) : Prop where
  decision : next.decision = inspector.decision
  mode : next.mode = inspector.mode
  budget : next.maximumInspectedBytes = inspector.maximumInspectedBytes
  fed : next.fed = Function.update inspector.fed direction (inspector.fed direction ++ inspector.share direction bytes)
  others : ∀ other, other ≠ direction → next.inspected other = inspector.inspected other
  streaming : inspector.mode = .streaming →
    next.inspected direction = inspector.inspected direction + (inspector.share direction bytes).length
  preflight : inspector.mode = .preflight → inspector.share direction bytes ≠ [] →
    next.inspected direction = inspector.maximumInspectedBytes

variable (inspector : FlowInspector) (direction : Direction) (bytes : List UInt8) (state : ServiceState)

variable {env}

theorem capture_spec :
    Ensures (inspector.capture env direction bytes) state
      (fun next _ => ∃ captured, next = {inspector with captured := captured})
      (fun error _ => Unaudited env error) := by
  unfold capture
  split
  · exact ensures_pure ⟨inspector.captured,rfl⟩
  · dsimp only
    split
    · exact ensures_pure ⟨inspector.captured,rfl⟩
    · refine ensures_then (publishEvent_heard inspector.flow _ state) ?_
      intro _ after _
      exact ensures_pure ⟨_,rfl⟩

theorem judge_spec (context : AuditContext) (findings : List Finding) (state : ServiceState) :
    Ensures (inspector.judge env context findings) state
      (fun verdict _ => verdict = findings.all (fun finding =>
        inspector.decision.permits (inspector.decision.inspection.evaluate finding inspector.protocol)))
      (fun error _ => Unaudited env error) := by
  induction findings generalizing state with
  | nil => exact ensures_pure rfl
  | cons finding rest ih =>
      unfold judge
      refine ensures_then (publish_heard _ state) ?_
      intro _ detected _
      refine ensures_then (publish_heard _ detected) ?_
      intro _ observed _
      refine ensures_then (publish_heard _ observed) ?_
      intro _ evaluated _
      split
      · rename_i permitted
        refine ensures_weaken (ih evaluated) ?_ (fun _ _ lost => lost)
        intro verdict _ same
        rw [same,List.all_cons,permitted,Bool.true_and]
      · rename_i refused
        refine ensures_then (publishEvent_heard inspector.flow _ evaluated) ?_
        intro _ _ _
        refine ensures_pure ?_
        rw [List.all_cons,Bool.eq_false_iff.mpr refused,Bool.false_and]

theorem scan_advances :
    Advances inspector direction bytes (inspector.scan env direction bytes).1 where
  decision := rfl
  mode := rfl
  budget := rfl
  fed := rfl
  others := fun other different => Function.update_of_ne different _ _
  streaming := by
    intro streaming
    have unheld : inspector.usesPreflight = false := by simp [usesPreflight,streaming]
    simp [scan,spent,unheld]
  preflight := by
    intro preflight _
    have held : inspector.usesPreflight = true := by simp [usesPreflight,preflight]
    simp [scan,spent,held]

theorem idle_advances (unshared : inspector.share direction bytes = []) :
    Advances inspector direction bytes inspector where
  decision := rfl
  mode := rfl
  budget := rfl
  fed := by rw [unshared,List.append_nil,Function.update_eq_self]
  others := fun _ _ => rfl
  streaming := fun _ => by rw [unshared,List.length_nil,Nat.add_zero]
  preflight := fun _ shared => absurd unshared shared

-- In enforce mode the findings of a chunk are all permitted exactly while no
-- denied pattern has occurred in what the scanner was fed.
theorem scan_refuses (enforced : inspector.decision.enforcement = .enforce)
    (clean : ¬ inspector.decision.inspection.DenyIn direction (inspector.fed direction)) :
    ((inspector.scan env direction bytes).2.all (fun finding =>
      inspector.decision.permits (inspector.decision.inspection.evaluate finding inspector.protocol))) = false ↔
      inspector.decision.inspection.DenyIn direction
        (inspector.fed direction ++ inspector.share direction bytes) := by
  rw [← StreamScanner.inspect_denies env.sha256 (inspector.carried direction) clean _ inspector.protocol,
    List.all_eq_false]
  simp only [PolicySnapshot.permits,enforced]
  constructor
  · intro refused
    obtain ⟨found,member,denied⟩ := refused
    refine ⟨found,member,?_⟩
    intro allowed
    exact denied (by rw [allowed]; rfl)
  · intro refused
    obtain ⟨found,member,denied⟩ := refused
    refine ⟨found,member,?_⟩
    intro permitted
    rcases Bool.or_eq_true_iff.mp permitted with observing | allowed
    · cases observing
    · exact denied (beq_iff_eq.mp allowed)

def Judged (inspector : FlowInspector) (direction : Direction) (bytes : List UInt8) (verdict : Bool) : Prop :=
  inspector.decision.enforcement = .enforce →
    ¬ inspector.decision.inspection.DenyIn direction (inspector.fed direction) →
    (verdict = false ↔ inspector.decision.inspection.DenyIn direction
      (inspector.fed direction ++ inspector.share direction bytes))

theorem permits_exact :
    Ensures (inspector.permits env direction bytes) state
      (fun result _ => Judged inspector direction bytes result.1 ∧ Advances inspector direction bytes result.2)
      (fun error _ => Unaudited env error) := by
  refine ensures_then (capture_spec inspector direction bytes state) ?_
  intro captor captured held
  obtain ⟨captures,rfl⟩ := held
  by_cases unshared : (inspector.share direction bytes).isEmpty
  · rw [show FlowInspector.share {inspector with captured := captures} direction bytes
      = inspector.share direction bytes from rfl,if_pos unshared]
    have empty : inspector.share direction bytes = [] := List.isEmpty_iff.mp unshared
    refine ensures_pure ⟨?_,?_⟩
    · intro _ clean
      rw [empty,List.append_nil]
      exact iff_of_false Bool.noConfusion clean
    · exact {idle_advances inspector direction bytes empty with}
  · rw [show FlowInspector.share {inspector with captured := captures} direction bytes
      = inspector.share direction bytes from rfl,if_neg unshared]
    refine ensures_then (ensures_weaken (auditContext_quiet inspector.flow captured)
      (fun _ _ quiet => quiet) (fun _ _ no => no.elim)) ?_
    intro context started _
    refine ensures_then (judge_spec _ context _ started) ?_
    intro verdict judged same
    refine ensures_pure ⟨?_,?_⟩
    · intro enforced clean
      rw [same]
      exact scan_refuses inspector direction bytes enforced clean
    · exact {@scan_advances env inspector direction bytes with}

theorem transformHttpBody_disabled (disabled : env.hooks.mode = .disabled) (direction : Direction)
    (bytes : List UInt8) (maximum : Nat) (allowed : Bool) :
    inspector.transformHttpBody env direction bytes maximum allowed = pure ⟨bytes,false⟩ := by
  unfold transformHttpBody
  rw [if_pos disabled]

theorem transformTcpChunk_disabled (disabled : env.hooks.mode = .disabled) (direction : Direction)
    (bytes : List UInt8) (maximum : Nat) (state : ServiceState) :
    Ensures (inspector.transformTcpChunk env direction bytes maximum) state
      (fun output _ => output = some bytes) (fun _ _ => False) := by
  unfold transformTcpChunk runTcpHook
  simp only [if_pos disabled]
  exact ensures_ok rfl rfl

end FlowInspector

end Freja.Proxy
