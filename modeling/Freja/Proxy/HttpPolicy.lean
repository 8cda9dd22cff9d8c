import Freja.Proxy.Authorization
import Freja.Proxy.BodyPump

namespace Freja.Proxy
open Domain Policy Audit Effect Bytes

namespace Headers

def isSecretHeader (name : String) : Bool := ["authorization","proxy-authorization","cookie","set-cookie"].contains name

def addPolicyValue (values : OrderedMap String (List (List UInt8))) (header : String × List UInt8) :
    OrderedMap String (List (List UInt8)) :=
  let value := if isSecretHeader header.1 then ascii "[REDACTED]" else header.2
  values.upsert header.1 (fun present => present.getD [] ++ [value])

def policyHeaders (headers : HeaderMap) : SanitizedHeaders :=
  .new (headers.pairs.foldl addPolicyValue .empty).entries

end Headers

structure HttpPolicyRequest where
  requested : RequestedTargetFacts
  method : String
  path : String
  headers : HeaderMap
  deriving DecidableEq, Repr

def HttpPolicyRequest.facts (request : HttpPolicyRequest) (address : SocketAddr) : HttpRequestFacts :=
  .new ⟨request.requested,address.ip⟩ request.method request.path (Headers.policyHeaders request.headers)

structure HttpPolicyResponse where
  requested : RequestedTargetFacts
  selectedAddress : SocketAddr
  status : HttpStatusCode
  headers : HeaderMap
  deriving DecidableEq, Repr

def HttpPolicyResponse.facts (response : HttpPolicyResponse) : HttpResponseFacts :=
  ⟨⟨response.requested,response.selectedAddress.ip⟩,response.status,Headers.policyHeaders response.headers⟩

def forbidden : Refusal := ⟨403,"forbidden\n"⟩

variable (env : Environment)

-- The loop over the resolved addresses; `observe` publishes the facts and the
-- decision of one of them.
def evaluateEach (snapshot : PolicySnapshot) (request : HttpPolicyRequest)
    (observe : HttpRequestFacts → Decision → Task Unit) : List SocketAddr → Option Decision → Task (Option Decision)
  | [],firstDenial => return firstDenial
  | address :: rest,firstDenial => do
      let decision := snapshot.policy.evaluate (.httpRequest (request.facts address))
      observe (request.facts address) decision
      evaluateEach snapshot request observe rest (rememberDenial snapshot decision firstDenial)

def observeRequest (flow : Flow) (facts : HttpRequestFacts) (decision : Decision) : Task Unit := do
  publishReplayFacts env flow (.httpRequest facts)
  publishDecision env flow decision

def evaluateHttpPolicy (flow : Flow) (request : HttpPolicyRequest) (addresses : List SocketAddr) :
    Task (Option Refusal) := do
  let snapshot ← decisionSnapshot env
  let firstDenial ← evaluateEach snapshot request (observeRequest env flow) addresses none
  match firstDenial with
  | none => return none
  | some decision =>
      recordAction env flow decision
      return some forbidden

def evaluateHttpResponsePolicy (flow : Flow) (response : HttpPolicyResponse) : Task Bool := do
  let snapshot ← decisionSnapshot env
  publishReplayFacts env flow (.httpResponse response.facts)
  let decision := snapshot.policy.evaluate (.httpResponse response.facts)
  publishDecision env flow decision
  if snapshot.permits decision then return true
  else
    recordAction env flow decision
    return false

def connectPortRule : RuleId := ⟨"connect-port-allowlist",by decide⟩

def connectPortDenial (port : Port) (snapshot : PolicySnapshot) : Decision :=
  .new (.httpReject .forbidden) snapshot.policy.generation .httpRequest (some connectPortRule)
    [⟨"connect-port-allowlist",toString port.value⟩]

-- What CONNECT does before it authorizes its target.
def checkConnectPort (flow : Flow) (connectPorts : List Port) (port : Port) : Task (Option Refusal) :=
  if connectPorts.contains port then return none
  else do
    let snapshot ← decisionSnapshot env
    let decision := connectPortDenial port snapshot
    publishDecision env flow decision
    if snapshot.permits decision then return none
    else
      recordAction env flow decision
      return some forbidden

namespace Repeat

inductive RepeatFailureCategory where
  | invalidRequest
  | policyDenied
  | dns
  | connect
  | tls
  | upstream
  | inspection
  | audit
  | shutdown
  | internal
  deriving DecidableEq, Repr

def publishDecisionIn (context : AuditContext) (decision : Decision) : Task Unit :=
  publish env ⟨{context with policyGeneration := decision.trace.policyGeneration},.aclEvaluated decision⟩

-- A repeated request reads one context for the facts and their decision.
def observeFacts (flow : Flow) (facts : ReplayFacts) (decision : Decision) : Task Unit := do
  let context ← auditContext env flow
  publish env ⟨context,.replayFactsObserved facts⟩
  publishDecisionIn env context decision

def evaluateRequestPolicy (flow : Flow) (request : HttpPolicyRequest) (addresses : List SocketAddr) :
    Task (Except RepeatFailureCategory Unit) := do
  let snapshot ← decisionSnapshot env
  let firstDenial ←
    evaluateEach snapshot request (fun facts => observeFacts env flow (.httpRequest facts)) addresses none
  match firstDenial with
  | none => return .ok ()
  | some decision =>
      recordAction env flow decision
      return .error .policyDenied

def evaluateResponsePolicy (flow : Flow) (response : HttpPolicyResponse) : Task (Except RepeatFailureCategory Unit) := do
  let snapshot ← decisionSnapshot env
  let decision := snapshot.policy.evaluate (.httpResponse response.facts)
  observeFacts env flow (.httpResponse response.facts) decision
  if snapshot.permits decision then return .ok ()
  else
    recordAction env flow decision
    return .error .policyDenied

end Repeat

def requestDecisions (snapshot : PolicySnapshot) (request : HttpPolicyRequest) (addresses : List SocketAddr) :
    List Decision :=
  addresses.map (fun address => snapshot.policy.evaluate (.httpRequest (request.facts address)))

def requestTrail (snapshot : PolicySnapshot) (request : HttpPolicyRequest) (addresses : List SocketAddr) :
    List AuditEvent :=
  addresses.flatMap (fun address => [.replayFactsObserved (.httpRequest (request.facts address)),
    .aclEvaluated (snapshot.policy.evaluate (.httpRequest (request.facts address)))])

-- The action taken on a denial, if there is one.
def actionTrail (denial : Option Decision) : List AuditEvent := denial.toList.map .actionExecuted

variable (flow : Flow) (request : HttpPolicyRequest) (addresses : List SocketAddr) (state : ServiceState)

variable {env}

theorem observeRequest_follows (facts : HttpRequestFacts) (decision : Decision) (state : ServiceState) :
    Follows (auditing env) (observeRequest env flow facts decision) state
      ⟨[.replayFactsObserved (.httpRequest facts),.aclEvaluated decision],.ok ()⟩ := by
  have observes := @publishReplayFacts_follows env flow (.httpRequest facts) state
  exact follows_bind observes (fun _ observed _ => publishDecision_follows flow decision observed)

theorem auditContext_follows :
    Follows (auditing env) (auditContext env flow) state
      (pure ⟨env.now state.clockReads,flow.sessionId,flow.transactionId,
        (env.live state.loads).policy.generation⟩) := by
  exact follows_quiet rfl (.nothing (Nat.le_succ _) rfl rfl)

theorem Repeat.observeFacts_follows (facts : ReplayFacts) (decision : Decision) (state : ServiceState) :
    Follows (auditing env) (Repeat.observeFacts env flow facts decision) state
      ⟨[.replayFactsObserved facts,.aclEvaluated decision],.ok ()⟩ := by
  have decides (context : AuditContext) (state : ServiceState) :
      Follows (auditing env) (Repeat.publishDecisionIn env context decision) state
        (.say (.aclEvaluated decision)) := publish_follows _ state rfl
  have observes (context : AuditContext) (state : ServiceState) :=
    follows_bind (publish_follows ⟨context,.replayFactsObserved facts⟩ state trivial)
      (fun _ observed _ => decides context observed)
  exact follows_bind (auditContext_follows flow state) (fun context started _ => observes context started)

theorem evaluateEach_follows (snapshot : PolicySnapshot) (request : HttpPolicyRequest)
    (observe : HttpRequestFacts → Decision → Task Unit)
    (observes : ∀ facts decision state, Follows (auditing env) (observe facts decision) state
      ⟨[.replayFactsObserved (.httpRequest facts),.aclEvaluated decision],.ok ()⟩)
    (addresses : List SocketAddr) (firstDenial : Option Decision) (state : ServiceState) :
    Follows (auditing env) (evaluateEach snapshot request observe addresses firstDenial) state
      ⟨requestTrail snapshot request addresses,
        .ok (firstDenial.or (firstRefused snapshot (requestDecisions snapshot request addresses)))⟩ := by
  induction addresses generalizing firstDenial state with
  | nil => cases firstDenial <;> exact follows_pure _
  | cons address rest ih =>
      have split : requestDecisions snapshot request (address :: rest) =
          [snapshot.policy.evaluate (.httpRequest (request.facts address))] ++ requestDecisions snapshot request rest := rfl
      rw [split,firstRefused_append,← Option.or_assoc,← rememberDenial_find]
      exact follows_bind (observes (request.facts address) _ state) (fun _ observed _ => ih _ observed)

def requestDenial (snapshot : PolicySnapshot) (request : HttpPolicyRequest) (addresses : List SocketAddr) :
    Option Decision :=
  firstRefused snapshot (requestDecisions snapshot request addresses)

theorem refuse_follows (denial : Option Decision) (clear refused : α) (state : ServiceState) :
    Follows (auditing env)
      (match denial with
        | none => pure clear
        | some decision => do
            recordAction env flow decision
            pure refused) state
      ⟨actionTrail denial,.ok (denial.elim clear (fun _ => refused))⟩ := by
  cases denial with
  | none => exact follows_pure clear
  | some decision =>
      exact follows_bind (recordAction_follows flow decision state) (fun _ _ _ => follows_pure refused)

theorem evaluateHttpPolicy_follows :
    let snapshot := env.live state.loads
    Follows (auditing env) (evaluateHttpPolicy env flow request addresses) state
      ⟨requestTrail snapshot request addresses ++ actionTrail (requestDenial snapshot request addresses),
        .ok ((requestDenial snapshot request addresses).elim none (fun _ => some forbidden))⟩ := by
  intro snapshot
  have evaluates (snapshot : PolicySnapshot) (state : ServiceState) :=
    follows_bind (@evaluateEach_follows env snapshot request _ (@observeRequest_follows env flow) addresses
      none state) (fun denial checked _ => @refuse_follows env flow _ denial none (some forbidden) checked)
  exact follows_bind (decisionSnapshot_follows state) (fun snapshot loaded _ => evaluates snapshot loaded)

theorem Repeat.evaluateRequestPolicy_follows :
    let snapshot := env.live state.loads
    Follows (auditing env) (Repeat.evaluateRequestPolicy env flow request addresses) state
      ⟨requestTrail snapshot request addresses ++ actionTrail (requestDenial snapshot request addresses),
        .ok ((requestDenial snapshot request addresses).elim (.ok ()) (fun _ => .error .policyDenied))⟩ := by
  intro snapshot
  have observes (facts : HttpRequestFacts) (decision : Decision) (state : ServiceState) :=
    @Repeat.observeFacts_follows env flow (.httpRequest facts) decision state
  have evaluates (snapshot : PolicySnapshot) (state : ServiceState) :=
    follows_bind (evaluateEach_follows snapshot request _ observes addresses none state)
      (fun denial checked _ => refuse_follows flow denial
        (.ok () : Except Repeat.RepeatFailureCategory Unit) (.error .policyDenied) checked)
  exact follows_bind (decisionSnapshot_follows state) (fun snapshot loaded _ => evaluates snapshot loaded)

-- The denial of one decision that is not permitted.
def denialOf (snapshot : PolicySnapshot) (decision : Decision) : Option Decision :=
  if snapshot.permits decision then none else some decision

theorem judge_follows (snapshot : PolicySnapshot) (flow : Flow) (decision : Decision) (clear refused : α)
    (state : ServiceState) :
    Follows (auditing env)
      (if snapshot.permits decision then pure clear
        else do
          recordAction env flow decision
          pure refused) state
      ⟨actionTrail (denialOf snapshot decision),.ok ((denialOf snapshot decision).elim clear (fun _ => refused))⟩ := by
  unfold denialOf
  cases snapshot.permits decision with
  | true => exact follows_pure clear
  | false =>
      exact follows_bind (recordAction_follows flow decision state) (fun _ _ _ => follows_pure refused)

def responseTrail (facts : HttpResponseFacts) (decision : Decision) : List AuditEvent :=
  [.replayFactsObserved (.httpResponse facts),.aclEvaluated decision]

theorem evaluateHttpResponsePolicy_follows (response : HttpPolicyResponse) (state : ServiceState) :
    let snapshot := env.live state.loads
    let decision := snapshot.policy.evaluate (.httpResponse response.facts)
    Follows (auditing env) (evaluateHttpResponsePolicy env flow response) state
      ⟨responseTrail response.facts decision ++ actionTrail (denialOf snapshot decision),
        .ok ((denialOf snapshot decision).elim true (fun _ => false))⟩ := by
  intro snapshot decision
  have decides (snapshot : PolicySnapshot) (decision : Decision) (state : ServiceState) :=
    follows_bind (@publishDecision_follows env flow decision state)
      (fun _ decided _ => @judge_follows env _ snapshot flow decision true false decided)
  have observes (snapshot : PolicySnapshot) (state : ServiceState) :=
    follows_bind (publishReplayFacts_follows flow (.httpResponse response.facts) state)
      (fun _ observed _ => decides snapshot (snapshot.policy.evaluate (.httpResponse response.facts)) observed)
  exact follows_bind (decisionSnapshot_follows state) (fun snapshot loaded _ => observes snapshot loaded)

theorem Repeat.evaluateResponsePolicy_follows (response : HttpPolicyResponse) (state : ServiceState) :
    let snapshot := env.live state.loads
    let decision := snapshot.policy.evaluate (.httpResponse response.facts)
    Follows (auditing env) (Repeat.evaluateResponsePolicy env flow response) state
      ⟨responseTrail response.facts decision ++ actionTrail (denialOf snapshot decision),
        .ok ((denialOf snapshot decision).elim (.ok ()) (fun _ => .error .policyDenied))⟩ := by
  intro snapshot decision
  have observes (snapshot : PolicySnapshot) (state : ServiceState) :=
    follows_bind (@Repeat.observeFacts_follows env flow (.httpResponse response.facts)
      (snapshot.policy.evaluate (.httpResponse response.facts)) state)
      (fun _ observed _ => @judge_follows env _ snapshot flow
        (snapshot.policy.evaluate (.httpResponse response.facts)) (.ok () : Except Repeat.RepeatFailureCategory Unit)
        (.error .policyDenied) observed)
  exact follows_bind (decisionSnapshot_follows state) (fun snapshot loaded _ => observes snapshot loaded)

theorem checkConnectPort_follows (connectPorts : List Port) (port : Port) (state : ServiceState) :
    let snapshot := env.live state.loads
    let decision := connectPortDenial port snapshot
    Follows (auditing env) (checkConnectPort env flow connectPorts port) state
      (if connectPorts.contains port then pure none
        else ⟨.aclEvaluated decision :: actionTrail (denialOf snapshot decision),
          .ok ((denialOf snapshot decision).elim none (fun _ => some forbidden))⟩) := by
  intro snapshot decision
  unfold checkConnectPort
  cases connectPorts.contains port with
  | true => exact follows_pure none
  | false =>
      have decides (snapshot : PolicySnapshot) (state : ServiceState) :=
        follows_bind (@publishDecision_follows env flow (connectPortDenial port snapshot) state)
          (fun _ decided _ => @judge_follows env _ snapshot flow (connectPortDenial port snapshot) none
            (some forbidden) decided)
      exact follows_bind (decisionSnapshot_follows state) (fun snapshot loaded _ => decides snapshot loaded)

end Freja.Proxy
