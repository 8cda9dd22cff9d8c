import Freja.Domain.Endpoint
import Freja.Domain.Identity

namespace Freja.Domain
open Bytes

inductive Protocol where
  | tcp
  | http
  deriving DecidableEq, Repr

inductive EnforcementMode where
  | observe
  | enforce
  deriving DecidableEq, Repr

inductive HookMode where
  | disabled
  | automatic
  | interactive
  deriving DecidableEq, Repr

inductive Direction where
  | clientToUpstream
  | upstreamToClient
  | httpRequestBody
  | httpResponseBody
  deriving DecidableEq, Repr

inductive InspectionMode where
  | preflight
  | streaming
  deriving DecidableEq, Repr

inductive Severity where
  | informational
  | low
  | medium
  | high
  | critical
  deriving DecidableEq, Repr

inductive Confidence where
  | heuristic
  | probable
  | confirmed
  deriving DecidableEq, Repr

inductive PolicyStage where
  | requestedDestination
  | resolvedDestination
  | httpRequest
  | httpResponse
  | streaming
  deriving DecidableEq, Repr

structure MatchReason where
  criterion : String
  observed : String
  deriving DecidableEq, Repr

inductive HttpReject where
  | forbidden
  | unavailableForLegalReasons
  | proxyAuthenticationRequired
  deriving DecidableEq, Repr

inductive TcpCloseMode where
  | graceful
  | reset
  deriving DecidableEq, Repr

structure TcpClose where
  mode : TcpCloseMode
  deriving DecidableEq, Repr

structure TcpDetour where
  destination : UpstreamEndpoint
  deriving DecidableEq, Repr

inductive EnforcementAction where
  | allow
  | httpReject (reject : HttpReject)
  | tcpClose (close : TcpClose)
  | tcpDetour (detour : TcpDetour)
  deriving DecidableEq, Repr

def EnforcementAction.isDetour : EnforcementAction → Bool
  | .tcpDetour _ => true
  | _ => false

inductive EnforcementActionKind where
  | allow
  | httpReject
  | tcpClose
  | tcpDetour
  deriving DecidableEq, Repr

def EnforcementAction.kind : EnforcementAction → EnforcementActionKind
  | .allow => .allow
  | .httpReject _ => .httpReject
  | .tcpClose _ => .tcpClose
  | .tcpDetour _ => .tcpDetour

structure DecisionTrace where
  policyGeneration : PolicyGeneration
  evaluatedStage : PolicyStage
  matchedRule : Option RuleId
  matchReasons : List MatchReason
  finalAction : EnforcementActionKind
  deriving DecidableEq, Repr

structure Decision where
  action : EnforcementAction
  trace : DecisionTrace
  consistent : trace.finalAction = action.kind
  deriving DecidableEq, Repr

def Decision.new (action : EnforcementAction) (policyGeneration : PolicyGeneration) (evaluatedStage : PolicyStage)
    (matchedRule : Option RuleId) (matchReasons : List MatchReason) : Decision :=
  ⟨action,⟨policyGeneration,evaluatedStage,matchedRule,matchReasons,action.kind⟩,rfl⟩

abbrev Digest := Vector UInt8 32

structure ByteRange where
  start : Nat
  stop : Nat
  nonempty : start < stop
  deriving DecidableEq, Repr

def ByteRange.new (start stop : Nat) : Option ByteRange :=
  if nonempty : start < stop then some ⟨start,stop,nonempty⟩ else none

structure Finding where
  detectorId : DetectorId
  severity : Severity
  confidence : Confidence
  direction : Direction
  byteRange : Option ByteRange
  evidenceHash : Digest
  tags : List String
  deriving DecidableEq, Repr

end Freja.Domain
