import Freja.Domain.Flow

namespace Freja.Audit
open Domain IpAddress

inductive AuthenticationOutcome where
  | accepted
  | rejected
  deriving DecidableEq, Repr

inductive AuditHookStage where
  | httpRequestHead
  | httpRequestBody
  | httpResponseHead
  | httpResponseBody
  | tcpClientChunk
  | tcpUpstreamChunk
  deriving DecidableEq, Repr

inductive HookOutcome where
  | completed
  | failed
  deriving DecidableEq, Repr

inductive ManualModificationAction where
  | continue
  | reject
  | editHeaders
  | replaceBody
  | modifyRequest
  | cancelModification
  | failed
  deriving DecidableEq, Repr

inductive FlowOutcome where
  | completed
  | idleTimeout
  | shutdown
  | inspectionBlocked
  | policyDenied
  | detourLoop
  | dnsFailure
  | dnsTimeout
  | connectFailure
  | connectTimeout
  | relayFailure
  | auditFailure
  | hookFailure
  | runtimeFailure
  | authenticationFailed
  | socksProtocolError
  | connectionLimit
  | httpError
  | tunnelFailure
  | tlsClientRejected
  | tlsClientTimeout
  | tlsUpstreamRejected
  | tlsAlpnRejected
  | tlsUpstreamTimeout
  | repeatInvalidRequest
  | repeatPolicyDenied
  | repeatDnsFailed
  | repeatConnectFailed
  | repeatTlsFailed
  | repeatUpstreamFailed
  | repeatInspectionFailed
  | repeatAuditFailed
  | repeatShutdown
  | repeatInternalFailure
  deriving DecidableEq, Repr

inductive AuditFailurePolicy where
  | failOpen
  | failClosed
  deriving DecidableEq, Repr

abbrev UnixMillis := Nat

abbrev RecordHash := Digest

structure SignedCheckpoint where
  coversSequence : AuditSequence
  recordHash : RecordHash
  publicKey : Vector UInt8 32
  signature : Vector UInt8 64
  deriving DecidableEq, Repr

abbrev AuditHeaders := OrderedMap String (List String)

inductive AuditEvent where
  | connectionAccepted (client listener : String)
  | targetResolved (requestedHost : String) (resolvedAddresses : List IpAddr)
  | aclEvaluated (decision : Decision)
  | httpRequestObserved (method target : String) (headers : AuditHeaders)
  | httpResponseObserved (status : HttpStatusCode) (headers : AuditHeaders)
  | proxyAuthentication (outcome : AuthenticationOutcome)
  | signedCheckpoint (checkpoint : SignedCheckpoint)
  | findingDetected (finding : Finding)
  | inspectionEvaluated (decision : Decision)
  | replayFactsObserved (facts : ReplayFacts)
  | payloadPrefixCaptured (direction : Direction) (protocol : Protocol) (bytesHex : String)
  | hookExecuted (stage : AuditHookStage) (outcome : HookOutcome)
  | manualModification (action : ManualModificationAction)
  | httpRepeatStarted (sourceSessionId : SessionId) (sourceTransactionId : TransactionId)
  | tlsCertificateGenerated (hostname : String) (cacheHit : Bool)
  | tlsInterceptionEstablished (hostname : String) (alpn : Option String)
  | actionExecuted (decision : Decision)
  | tunnelClosed (clientToUpstreamBytes upstreamToClientBytes : Nat) (outcome : FlowOutcome)
  | flowClosed (clientToUpstreamBytes upstreamToClientBytes : Nat) (outcome : FlowOutcome)
  deriving DecidableEq, Repr

structure AuditContext where
  occurredAt : UnixMillis
  sessionId : SessionId
  transactionId : Option TransactionId
  policyGeneration : PolicyGeneration
  deriving DecidableEq, Repr

structure AuditEnvelope where
  context : AuditContext
  event : AuditEvent
  deriving DecidableEq, Repr

inductive PublishError where
  | channelClosed
  | capacityExhausted
  deriving DecidableEq, Repr

end Freja.Audit
