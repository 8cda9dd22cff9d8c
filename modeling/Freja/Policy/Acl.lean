import Freja.Domain.Flow
import Freja.Foundation.Occurrence

namespace Freja.Policy
open Domain Bytes IpAddress Occurrence

structure PortRange where
  start : Port
  stop : Port
  ordered : start.value ≤ stop.value
  deriving DecidableEq, Repr

def PortRange.contains (range : PortRange) (port : Port) : Bool :=
  range.start.value ≤ port.value && port.value ≤ range.stop.value

inductive HostPattern where
  | exact (name : HostName)
  | suffix (name : HostName)
  deriving DecidableEq, Repr

def HostPattern.matchesTarget (pattern : HostPattern) : TargetHost → Bool
  | .ip _ => false
  | .name candidate =>
      match pattern with
      | .exact expected => candidate == expected
      | .suffix ending =>
          candidate == ending ||
            (ending.text.toList.isSuffixOf candidate.text.toList &&
              (candidate.text.toList.take (candidate.text.length - ending.text.length)).getLast? == some '.')

structure HttpHeaderMatcher where
  name : String
  valueContains : Option String
  deriving DecidableEq, Repr

inductive MatchExpression where
  | all (expressions : List MatchExpression)
  | any (expressions : List MatchExpression)
  | not (expression : MatchExpression)
  | sourceIp (network : IpNet)
  | destinationIp (network : IpNet)
  | destinationHost (pattern : HostPattern)
  | destinationPort (range : PortRange)
  | protocol (protocol : Protocol)
  | httpMethod (methods : List String)
  | httpPathPrefix (start : String)
  | httpHeader (matcher : HttpHeaderMatcher)
  deriving Repr

inductive RuleAction where
  | allow
  | deny
  | detour (destination : UpstreamEndpoint)
  deriving DecidableEq, Repr

structure AclRule where
  id : RuleId
  matcher : MatchExpression
  action : RuleAction
  deriving Repr

inductive PolicyError where
  | duplicateRule (ruleId : RuleId)
  | emptyBooleanExpression (ruleId : RuleId) (operator : String)
  | invalidDetourRule (ruleId : RuleId)
  | invalidDefaultDetour
  deriving DecidableEq, Repr

inductive PolicyFacts where
  | requested (facts : RequestedTargetFacts)
  | resolved (facts : ResolvedTargetFacts)
  | httpRequest (facts : HttpRequestFacts)
  | httpResponse (facts : HttpResponseFacts)
  deriving DecidableEq, Repr

namespace PolicyFacts

def stage : PolicyFacts → PolicyStage
  | .requested _ => .requestedDestination
  | .resolved _ => .resolvedDestination
  | .httpRequest _ => .httpRequest
  | .httpResponse _ => .httpResponse

def target : PolicyFacts → RequestedTargetFacts
  | .requested facts => facts
  | .resolved facts => facts.requested
  | .httpRequest facts => facts.target.requested
  | .httpResponse facts => facts.target.requested

def resolvedIp : PolicyFacts → Option IpAddr
  | .requested _ => none
  | .resolved facts => some facts.resolvedIp
  | .httpRequest facts => some facts.target.resolvedIp
  | .httpResponse facts => some facts.target.resolvedIp

def http : PolicyFacts → Option HttpRequestFacts
  | .httpRequest facts => some facts
  | _ => none

def httpHeaders : PolicyFacts → Option SanitizedHeaders
  | .httpRequest facts => some facts.headers
  | .httpResponse facts => some facts.headers
  | _ => none

end PolicyFacts

mutual
def isRequestedStageExpression : MatchExpression → Bool
  | .all expressions | .any expressions => areRequestedStageExpressions expressions
  | .not expression => isRequestedStageExpression expression
  | .destinationIp _ | .httpMethod _ | .httpPathPrefix _ | .httpHeader _ => false
  | .sourceIp _ | .destinationHost _ | .destinationPort _ | .protocol _ => true

def areRequestedStageExpressions : List MatchExpression → Bool
  | [] => true
  | expression :: rest => isRequestedStageExpression expression && areRequestedStageExpressions rest
end

mutual
def requiresTcp : MatchExpression → Bool
  | .protocol .tcp => true
  | .all expressions => someRequireTcp expressions
  | .any expressions => !expressions.isEmpty && allRequireTcp expressions
  | _ => false

def someRequireTcp : List MatchExpression → Bool
  | [] => false
  | expression :: rest => requiresTcp expression || someRequireTcp rest

def allRequireTcp : List MatchExpression → Bool
  | [] => true
  | expression :: rest => requiresTcp expression && allRequireTcp rest
end

mutual
def validateExpression (ruleId : RuleId) : MatchExpression → Except PolicyError Unit
  | .all expressions =>
      if expressions.isEmpty then .error (.emptyBooleanExpression ruleId "all") else validateExpressions ruleId expressions
  | .any expressions =>
      if expressions.isEmpty then .error (.emptyBooleanExpression ruleId "any") else validateExpressions ruleId expressions
  | .not expression => validateExpression ruleId expression
  | _ => .ok ()

def validateExpressions (ruleId : RuleId) : List MatchExpression → Except PolicyError Unit
  | [] => .ok ()
  | expression :: rest =>
      match validateExpression ruleId expression with
      | .ok () => validateExpressions ruleId rest
      | .error error => .error error
end

def RuleAction.isDetour : RuleAction → Bool
  | .detour _ => true
  | _ => false

def checkRule (rule : AclRule) : Except PolicyError Unit := do
  validateExpression rule.id rule.matcher
  if rule.action.isDetour && (!isRequestedStageExpression rule.matcher || !requiresTcp rule.matcher) then
    throw (.invalidDetourRule rule.id)

def checkRules (seen : List RuleId) : List AclRule → Except PolicyError Unit
  | [] => .ok ()
  | rule :: rest => do
      if rule.id ∈ seen then throw (.duplicateRule rule.id)
      checkRule rule
      checkRules (rule.id :: seen) rest

def checkPolicy (rules : List AclRule) (defaultAction : RuleAction) : Except PolicyError Unit := do
  checkRules [] rules
  if defaultAction.isDetour then throw .invalidDefaultDetour

structure AclPolicy where
  generation : PolicyGeneration
  rules : List AclRule
  defaultAction : RuleAction
  checked : checkPolicy rules defaultAction = .ok ()

def AclPolicy.new (generation : PolicyGeneration) (rules : List AclRule) (defaultAction : RuleAction) :
    Except PolicyError AclPolicy :=
  match checked : checkPolicy rules defaultAction with
  | .ok () => .ok ⟨generation,rules,defaultAction,checked⟩
  | .error error => .error error

inductive ExpressionResult where
  | matched (reasons : List MatchReason)
  | didNotMatch
  | unavailable
  deriving DecidableEq, Repr

def leaf (observed : Bool) (criterion value : String) : ExpressionResult :=
  if observed then .matched [⟨criterion,value⟩] else .didNotMatch

def protocolText : Protocol → String
  | .tcp => "tcp"
  | .http => "http"

def eqIgnoreCase (a b : String) : Bool := lowercase a == lowercase b

def containsBytes (value needle : List UInt8) : Bool := (windows value needle.length).any (· == needle)

def evaluateHttpHeader (matcher : HttpHeaderMatcher) (facts : PolicyFacts) : ExpressionResult :=
  match facts.httpHeaders with
  | none => .unavailable
  | some headers =>
      match headers.values matcher.name with
      | none => .didNotMatch
      | some values =>
          let valueMatches := matcher.valueContains.all (fun needle =>
            (utf8 needle).isEmpty || values.any (fun value => containsBytes value (utf8 needle)))
          leaf valueMatches "http-header" (lowercase matcher.name)

mutual
def evaluateExpression (facts : PolicyFacts) : MatchExpression → ExpressionResult
  | .all expressions => evaluateAll facts [] false expressions
  | .any expressions => evaluateAny facts false expressions
  | .not expression =>
      match evaluateExpression facts expression with
      | .matched _ => .didNotMatch
      | .didNotMatch => .matched [⟨"not","nested expression did not match"⟩]
      | .unavailable => .unavailable
  | .sourceIp network => leaf (network.contains facts.target.sourceIp) "source-ip" (format facts.target.sourceIp)
  | .destinationIp network =>
      match facts.resolvedIp with
      | none => .unavailable
      | some address => leaf (network.contains address) "destination-ip" (format address)
  | .destinationHost pattern =>
      leaf (pattern.matchesTarget facts.target.requestedHost) "destination-host" facts.target.requestedHost.asHostText
  | .destinationPort range =>
      leaf (range.contains facts.target.destinationPort) "destination-port" (toString facts.target.destinationPort.value)
  | .protocol protocol => leaf (protocol == facts.target.protocol) "protocol" (protocolText facts.target.protocol)
  | .httpMethod methods =>
      match facts.http with
      | none => .unavailable
      | some http => leaf (methods.any (eqIgnoreCase · http.method)) "http-method" http.method
  | .httpPathPrefix start =>
      match facts.http with
      | none => .unavailable
      | some http => leaf (startsWith http.path start) "http-path" http.path
  | .httpHeader matcher => evaluateHttpHeader matcher facts

def evaluateAll (facts : PolicyFacts) (reasons : List MatchReason) (unavailable : Bool) :
    List MatchExpression → ExpressionResult
  | [] => if unavailable then .unavailable else .matched reasons
  | expression :: rest =>
      match evaluateExpression facts expression with
      | .matched nested => evaluateAll facts (reasons ++ nested) unavailable rest
      | .didNotMatch => .didNotMatch
      | .unavailable => evaluateAll facts reasons true rest

def evaluateAny (facts : PolicyFacts) (unavailable : Bool) : List MatchExpression → ExpressionResult
  | [] => if unavailable then .unavailable else .didNotMatch
  | expression :: rest =>
      match evaluateExpression facts expression with
      | .matched reasons => .matched reasons
      | .didNotMatch => evaluateAny facts unavailable rest
      | .unavailable => evaluateAny facts true rest
end

def firstMatch (facts : PolicyFacts) : List AclRule → Option (AclRule × List MatchReason)
  | [] => none
  | rule :: rest =>
      match evaluateExpression facts rule.matcher with
      | .matched reasons => some (rule,reasons)
      | _ => firstMatch facts rest

def enforcementAction (protocol : Protocol) : RuleAction → EnforcementAction
  | .allow => .allow
  | .deny =>
      match protocol with
      | .http => .httpReject .forbidden
      | .tcp => .tcpClose ⟨.graceful⟩
  | .detour destination =>
      match protocol with
      | .tcp => .tcpDetour ⟨destination⟩
      | .http => .httpReject .forbidden

def decision (generation : PolicyGeneration) (facts : PolicyFacts) (ruleAction : RuleAction)
    (matchedRule : Option RuleId) (matchReasons : List MatchReason) : Decision :=
  .new (enforcementAction facts.target.protocol ruleAction) generation facts.stage matchedRule matchReasons

-- A checked policy never has a detour for its default action.
def defaultActionText : RuleAction → String
  | .allow => "allow"
  | .deny => "deny"
  | .detour _ => "detour"

def AclPolicy.evaluate (policy : AclPolicy) (facts : PolicyFacts) : Decision :=
  match firstMatch facts policy.rules with
  | some (rule,reasons) => decision policy.generation facts rule.action (some rule.id) reasons
  | none =>
      decision policy.generation facts policy.defaultAction none
        [⟨"default-action",defaultActionText policy.defaultAction⟩]

theorem checkPolicy_allow : checkPolicy [] .allow = .ok () := rfl

theorem checkPolicy_default (rules : List AclRule) (defaultAction : RuleAction)
    (checked : checkPolicy rules defaultAction = .ok ()) : defaultAction.isDetour = false := by
  unfold checkPolicy at checked
  cases outcome : checkRules [] rules with
  | error => simp [outcome,bind,Except.bind] at checked
  | ok =>
      cases detour : defaultAction.isDetour with
      | false => rfl
      | true => simp [outcome,detour,bind,Except.bind,throw,throwThe,MonadExceptOf.throw] at checked

theorem firstMatch_parts (facts : PolicyFacts) (rules : List AclRule) (rule : AclRule) (reasons : List MatchReason)
    (found : firstMatch facts rules = some (rule,reasons)) :
    rule ∈ rules ∧ evaluateExpression facts rule.matcher = .matched reasons := by
  induction rules with
  | nil => cases found
  | cons first rest ih =>
      unfold firstMatch at found
      split at found
      · rename_i outcome
        cases found
        exact ⟨List.mem_cons_self,outcome⟩
      · obtain ⟨member,matched⟩ := ih found
        exact ⟨List.mem_cons_of_mem _ member,matched⟩

theorem enforcementAction_detour (protocol : Protocol) (action : RuleAction) (detour : TcpDetour)
    (selected : enforcementAction protocol action = .tcpDetour detour) : action = .detour detour.destination := by
  cases action with
  | allow => cases selected
  | deny => cases protocol <;> cases selected
  | detour =>
      cases protocol with
      | http => cases selected
      | tcp =>
          cases selected
          rfl

@[simp] theorem AclPolicy.evaluate_stage (policy : AclPolicy) (facts : PolicyFacts) :
    (policy.evaluate facts).trace.evaluatedStage = facts.stage := by
  unfold AclPolicy.evaluate
  split <;> rfl

theorem AclPolicy.evaluate_detour (policy : AclPolicy) (facts : PolicyFacts) (detour : TcpDetour)
    (selected : (policy.evaluate facts).action = .tcpDetour detour) :
    ∃ rule ∈ policy.rules, ∃ reasons, evaluateExpression facts rule.matcher = .matched reasons ∧
      rule.action = .detour detour.destination := by
  unfold AclPolicy.evaluate at selected
  split at selected
  · rename_i rule reasons found
    obtain ⟨member,matched⟩ := firstMatch_parts facts policy.rules rule reasons found
    exact ⟨rule,member,reasons,matched,enforcementAction_detour _ _ _ selected⟩
  · have default := checkPolicy_default policy.rules policy.defaultAction policy.checked
    rw [enforcementAction_detour _ _ _ selected] at default
    cases default

end Freja.Policy
