import Freja.Proxy.HttpPolicy

namespace Freja.Proxy
open Domain Policy Audit Effect Bytes

variable (env : Environment)

namespace FlowInspector

def captureScript (inspector : FlowInspector) (direction : Direction) (bytes : List UInt8) : AuditScript FlowInspector :=
  match env.capturePrefixBytes with
  | none => return inspector
  | some maximum => do
      let count := min (maximum - inspector.captured direction) bytes.length
      if count = 0 then return inspector
      else
        .say (.payloadPrefixCaptured direction inspector.protocol (hexEncode (bytes.take count)))
        return {inspector with
          captured := Function.update inspector.captured direction (inspector.captured direction + count)}

def judgeScript (inspector : FlowInspector) : List Finding → AuditScript Bool
  | [] => return true
  | finding :: rest => do
      .say (.findingDetected finding)
      .say (.replayFactsObserved (.finding finding inspector.protocol))
      let decision := inspector.decision.inspection.evaluate finding inspector.protocol
      .say (.inspectionEvaluated decision)
      if inspector.decision.permits decision then judgeScript inspector rest
      else
        .say (.actionExecuted decision)
        return false

def permitsScript (inspector : FlowInspector) (direction : Direction) (bytes : List UInt8) :
    AuditScript (Bool × FlowInspector) := do
  let inspector ← inspector.captureScript env direction bytes
  if (inspector.share direction bytes).isEmpty then return (true,inspector)
  else
    let (next,findings) := inspector.scan env direction bytes
    let verdict ← next.judgeScript findings
    return (verdict,next)

variable {env}

theorem capture_follows (inspector : FlowInspector) (direction : Direction) (bytes : List UInt8) (state : ServiceState) :
    Follows (auditing env) (inspector.capture env direction bytes) state
      (inspector.captureScript env direction bytes) := by
  unfold capture captureScript
  cases env.capturePrefixBytes with
  | none => exact follows_pure inspector
  | some =>
      dsimp only
      split
      · exact follows_pure inspector
      · refine follows_bind (publishEvent_follows inspector.flow (.payloadPrefixCaptured _ _ _) trivial state) ?_
        intro _ published _
        exact follows_pure _

theorem judge_follows (inspector : FlowInspector) (context : AuditContext) (findings : List Finding)
    (state : ServiceState) :
    Follows (auditing env) (inspector.judge env context findings) state
      (inspector.judgeScript findings) := by
  induction findings generalizing state with
  | nil => exact follows_pure true
  | cons finding rest ih =>
      unfold judge judgeScript
      refine follows_bind (publish_follows ⟨context,.findingDetected finding⟩ state trivial) ?_
      intro _ detected _
      refine follows_bind (publish_follows ⟨context,.replayFactsObserved _⟩ detected trivial) ?_
      intro _ observed _
      dsimp only
      refine follows_bind (publish_follows ⟨{context with policyGeneration := _},.inspectionEvaluated _⟩
        observed rfl) ?_
      intro _ evaluated _
      split
      · exact ih evaluated
      · refine follows_bind (recordAction_follows inspector.flow _ evaluated) ?_
        intro _ recorded _
        exact follows_pure false

theorem permits_follows (inspector : FlowInspector) (direction : Direction) (bytes : List UInt8) (state : ServiceState) :
    Follows (auditing env) (inspector.permits env direction bytes) state
      (inspector.permitsScript env direction bytes) := by
  refine follows_bind (capture_follows inspector direction bytes state) ?_
  intro captor captured _
  split
  · exact follows_pure _
  · have judges (context : AuditContext) (state : ServiceState) :=
      follows_bind (@judge_follows env (captor.scan env direction bytes).1 context
        (captor.scan env direction bytes).2 state)
        (fun verdict _ _ => follows_pure (verdict,(captor.scan env direction bytes).1))
    exact follows_bind (auditContext_follows captor.flow captured)
      (fun context started _ => judges context started)

end FlowInspector

end Freja.Proxy
