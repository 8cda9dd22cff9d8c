import Freja.Audit.Event
import Freja.Foundation.Json

namespace Freja

namespace Json

def optional (encode : α → Json) : Option α → Json
  | some value => encode value
  | none => .null

def byteArray (bytes : List UInt8) : Json := .array (bytes.map fun byte => .number byte.toNat)

def hex (bytes : List UInt8) : Json := .string (Bytes.hexEncode bytes)

end Json

namespace Domain
open IpAddress

def addressJson (ip : IpAddr) : Json := .string (format ip)

-- The host is written without a tag: an address and a name are both one text.
def TargetHost.json (host : TargetHost) : Json := .string host.asHostText

def UpstreamEndpoint.json (endpoint : UpstreamEndpoint) : Json :=
  .object [("host",endpoint.host.json),("port",.number endpoint.port.value)]

def uuidText (uuid : Nat) : String :=
  let digits := (Bytes.hexEncode (Bytes.bigEndian 16 uuid)).toList
  String.ofList (digits.take 8 ++ '-' :: (digits.drop 8).take 4 ++ '-' :: (digits.drop 12).take 4 ++
    '-' :: (digits.drop 16).take 4 ++ '-' :: digits.drop 20)

def SessionId.json (session : SessionId) : Json := .string (uuidText session.uuid)

def TransactionId.json (transaction : TransactionId) : Json := .string (uuidText transaction.uuid)

def Protocol.text : Protocol → String
  | .tcp => "tcp"
  | .http => "http"

def Direction.text : Direction → String
  | .clientToUpstream => "client-to-upstream"
  | .upstreamToClient => "upstream-to-client"
  | .httpRequestBody => "http-request-body"
  | .httpResponseBody => "http-response-body"

def Severity.text : Severity → String
  | .informational => "informational"
  | .low => "low"
  | .medium => "medium"
  | .high => "high"
  | .critical => "critical"

def Confidence.text : Confidence → String
  | .heuristic => "heuristic"
  | .probable => "probable"
  | .confirmed => "confirmed"

def PolicyStage.text : PolicyStage → String
  | .requestedDestination => "requested-destination"
  | .resolvedDestination => "resolved-destination"
  | .httpRequest => "http-request"
  | .httpResponse => "http-response"
  | .streaming => "streaming"

def HttpReject.text : HttpReject → String
  | .forbidden => "forbidden"
  | .unavailableForLegalReasons => "unavailable-for-legal-reasons"
  | .proxyAuthenticationRequired => "proxy-authentication-required"

def TcpCloseMode.text : TcpCloseMode → String
  | .graceful => "graceful"
  | .reset => "reset"

def EnforcementActionKind.text : EnforcementActionKind → String
  | .allow => "allow"
  | .httpReject => "http-reject"
  | .tcpClose => "tcp-close"
  | .tcpDetour => "tcp-detour"

def EnforcementAction.details : EnforcementAction → List (String × Json)
  | .allow => []
  | .httpReject reject => [("details",.string reject.text)]
  | .tcpClose close => [("details",.object [("mode",.string close.mode.text)])]
  | .tcpDetour detour => [("details",.object [("destination",detour.destination.json)])]

def EnforcementAction.json (action : EnforcementAction) : Json :=
  .object (("kind",.string action.kind.text) :: action.details)

def MatchReason.json (reason : MatchReason) : Json :=
  .object [("criterion",.string reason.criterion),("observed",.string reason.observed)]

def DecisionTrace.json (trace : DecisionTrace) : Json :=
  .object [("policy_generation",.number trace.policyGeneration.value),
    ("evaluated_stage",.string trace.evaluatedStage.text),
    ("matched_rule",Json.optional (fun rule => .string rule.text) trace.matchedRule),
    ("match_reasons",.array (trace.matchReasons.map MatchReason.json)),
    ("final_action",.string trace.finalAction.text)]

def Decision.json (decision : Decision) : Json :=
  .object [("action",decision.action.json),("trace",decision.trace.json)]

def ByteRange.json (range : ByteRange) : Json := .array [.number range.start,.number range.stop]

def Finding.json (finding : Finding) : Json :=
  .object [("detector_id",.string finding.detectorId.text),
    ("severity",.string finding.severity.text),
    ("confidence",.string finding.confidence.text),
    ("direction",.string finding.direction.text),
    ("byte_range",Json.optional ByteRange.json finding.byteRange),
    ("evidence_hash",Json.byteArray finding.evidenceHash.toList),
    ("tags",.array (finding.tags.map .string))]

def RequestedTargetFacts.json (facts : RequestedTargetFacts) : Json :=
  .object [("source_ip",addressJson facts.sourceIp),
    ("requested_host",facts.requestedHost.json),
    ("destination_port",.number facts.destinationPort.value),
    ("protocol",.string facts.protocol.text)]

def ResolvedTargetFacts.json (facts : ResolvedTargetFacts) : Json :=
  .object [("requested",facts.requested.json),("resolved_ip",addressJson facts.resolvedIp)]

def SanitizedHeaders.json (headers : SanitizedHeaders) : Json :=
  .object (headers.fields.entries.map fun entry => (entry.1,.array (entry.2.map Json.byteArray)))

def HttpRequestFacts.json (facts : HttpRequestFacts) : Json :=
  .object [("target",facts.target.json),
    ("method",.string facts.method),
    ("path",.string facts.path),
    ("headers",facts.headers.json)]

def HttpResponseFacts.json (facts : HttpResponseFacts) : Json :=
  .object [("target",facts.target.json),
    ("status",.number facts.status.value),
    ("headers",facts.headers.json)]

def ReplayFacts.stage : ReplayFacts → String
  | .requested _ => "requested"
  | .resolved _ => "resolved"
  | .httpRequest _ => "http-request"
  | .httpResponse _ => "http-response"
  | .finding _ _ => "finding"

def ReplayFacts.content : ReplayFacts → Json
  | .requested facts => facts.json
  | .resolved facts => facts.json
  | .httpRequest facts => facts.json
  | .httpResponse facts => facts.json
  | .finding detected protocol => .object [("finding",detected.json),("protocol",.string protocol.text)]

def ReplayFacts.json (facts : ReplayFacts) : Json :=
  .object [("stage",.string facts.stage),("facts",facts.content)]

end Domain

namespace Audit
open Domain

def AuthenticationOutcome.text : AuthenticationOutcome → String
  | .accepted => "accepted"
  | .rejected => "rejected"

def AuditHookStage.text : AuditHookStage → String
  | .httpRequestHead => "http-request-head"
  | .httpRequestBody => "http-request-body"
  | .httpResponseHead => "http-response-head"
  | .httpResponseBody => "http-response-body"
  | .tcpClientChunk => "tcp-client-chunk"
  | .tcpUpstreamChunk => "tcp-upstream-chunk"

def HookOutcome.text : HookOutcome → String
  | .completed => "completed"
  | .failed => "failed"

def ManualModificationAction.text : ManualModificationAction → String
  | .continue => "continue"
  | .reject => "reject"
  | .editHeaders => "edit-headers"
  | .replaceBody => "replace-body"
  | .modifyRequest => "modify-request"
  | .cancelModification => "cancel-modification"
  | .failed => "failed"

def FlowOutcome.text : FlowOutcome → String
  | .completed => "completed"
  | .idleTimeout => "idle-timeout"
  | .shutdown => "shutdown"
  | .inspectionBlocked => "inspection-blocked"
  | .policyDenied => "policy-denied"
  | .detourLoop => "detour-loop"
  | .dnsFailure => "dns-failure"
  | .dnsTimeout => "dns-timeout"
  | .connectFailure => "connect-failure"
  | .connectTimeout => "connect-timeout"
  | .relayFailure => "relay-failure"
  | .auditFailure => "audit-failure"
  | .hookFailure => "hook-failure"
  | .runtimeFailure => "runtime-failure"
  | .authenticationFailed => "authentication-failed"
  | .socksProtocolError => "socks-protocol-error"
  | .connectionLimit => "connection-limit"
  | .httpError => "http-error"
  | .tunnelFailure => "tunnel-failure"
  | .tlsClientRejected => "tls-client-rejected"
  | .tlsClientTimeout => "tls-client-timeout"
  | .tlsUpstreamRejected => "tls-upstream-rejected"
  | .tlsAlpnRejected => "tls-alpn-rejected"
  | .tlsUpstreamTimeout => "tls-upstream-timeout"
  | .repeatInvalidRequest => "repeat-invalid-request"
  | .repeatPolicyDenied => "repeat-policy-denied"
  | .repeatDnsFailed => "repeat-dns-failed"
  | .repeatConnectFailed => "repeat-connect-failed"
  | .repeatTlsFailed => "repeat-tls-failed"
  | .repeatUpstreamFailed => "repeat-upstream-failed"
  | .repeatInspectionFailed => "repeat-inspection-failed"
  | .repeatAuditFailed => "repeat-audit-failed"
  | .repeatShutdown => "repeat-shutdown"
  | .repeatInternalFailure => "repeat-internal-failure"

def AuditHeaders.json (headers : AuditHeaders) : Json :=
  .object (headers.entries.map fun entry => (entry.1,.array (entry.2.map .string)))

def SignedCheckpoint.json (checkpoint : SignedCheckpoint) : Json :=
  .object [("covers_sequence",.number checkpoint.coversSequence.value),
    ("record_hash",Json.hex checkpoint.recordHash.toList),
    ("public_key_hex",Json.hex checkpoint.publicKey.toList),
    ("signature_hex",Json.hex checkpoint.signature.toList)]

def AuditEvent.eventType : AuditEvent → String
  | .connectionAccepted _ _ => "connection-accepted"
  | .targetResolved _ _ => "target-resolved"
  | .aclEvaluated _ => "acl-evaluated"
  | .httpRequestObserved _ _ _ => "http-request-observed"
  | .httpResponseObserved _ _ => "http-response-observed"
  | .proxyAuthentication _ => "proxy-authentication"
  | .signedCheckpoint _ => "signed-checkpoint"
  | .findingDetected _ => "finding-detected"
  | .inspectionEvaluated _ => "inspection-evaluated"
  | .replayFactsObserved _ => "replay-facts-observed"
  | .payloadPrefixCaptured _ _ _ => "payload-prefix-captured"
  | .hookExecuted _ _ => "hook-executed"
  | .manualModification _ => "manual-modification"
  | .httpRepeatStarted _ _ => "http-repeat-started"
  | .tlsCertificateGenerated _ _ => "tls-certificate-generated"
  | .tlsInterceptionEstablished _ _ => "tls-interception-established"
  | .actionExecuted _ => "action-executed"
  | .tunnelClosed _ _ _ => "tunnel-closed"
  | .flowClosed _ _ _ => "flow-closed"

def closed (clientToUpstreamBytes upstreamToClientBytes : Nat) (outcome : FlowOutcome) : List (String × Json) :=
  [("client_to_upstream_bytes",.number clientToUpstreamBytes),
    ("upstream_to_client_bytes",.number upstreamToClientBytes),
    ("outcome",.string outcome.text)]

def AuditEvent.fields : AuditEvent → List (String × Json)
  | .connectionAccepted client listener => [("client",.string client),("listener",.string listener)]
  | .targetResolved requestedHost resolvedAddresses =>
      [("requested_host",.string requestedHost),("resolved_addresses",.array (resolvedAddresses.map addressJson))]
  | .aclEvaluated decision => [("decision",decision.json)]
  | .httpRequestObserved method target headers =>
      [("method",.string method),("target",.string target),("headers",AuditHeaders.json headers)]
  | .httpResponseObserved status headers => [("status",.number status.value),("headers",AuditHeaders.json headers)]
  | .proxyAuthentication outcome => [("outcome",.string outcome.text)]
  | .signedCheckpoint checkpoint => [("checkpoint",checkpoint.json)]
  | .findingDetected finding => [("finding",finding.json)]
  | .inspectionEvaluated decision => [("decision",decision.json)]
  | .replayFactsObserved facts => [("facts",facts.json)]
  | .payloadPrefixCaptured direction protocol bytesHex =>
      [("direction",.string direction.text),("protocol",.string protocol.text),("bytes_hex",.string bytesHex)]
  | .hookExecuted stage outcome => [("stage",.string stage.text),("outcome",.string outcome.text)]
  | .manualModification action => [("action",.string action.text)]
  | .httpRepeatStarted sourceSessionId sourceTransactionId =>
      [("source_session_id",sourceSessionId.json),("source_transaction_id",sourceTransactionId.json)]
  | .tlsCertificateGenerated hostname cacheHit => [("hostname",.string hostname),("cache_hit",.bool cacheHit)]
  | .tlsInterceptionEstablished hostname alpn =>
      [("hostname",.string hostname),("alpn",Json.optional .string alpn)]
  | .actionExecuted decision => [("decision",decision.json)]
  | .tunnelClosed clientToUpstreamBytes upstreamToClientBytes outcome =>
      closed clientToUpstreamBytes upstreamToClientBytes outcome
  | .flowClosed clientToUpstreamBytes upstreamToClientBytes outcome =>
      closed clientToUpstreamBytes upstreamToClientBytes outcome

def AuditEvent.json (event : AuditEvent) : Json :=
  .object [("event_type",.string event.eventType),("event",.object event.fields)]

end Audit

end Freja
