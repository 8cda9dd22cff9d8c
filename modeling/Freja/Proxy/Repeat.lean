import Freja.Proxy.Forwarding

namespace Freja.Proxy.Repeat
open Domain Policy Audit Effect Bytes IpAddress

structure RepeatRequest where
  sourceIp : IpAddr
  request : HttpRequest
  body : List UInt8

structure TlsInterceptor where
  shouldIntercept : TargetHost → Bool
  connectUpstream : SocketAddr → TargetHost → Handshake

-- How an attempt ends: in a category of its own, without reaching the upstream
-- server, or with a request on its way.
inductive Attempt where
  | failed (category : RepeatFailureCategory)
  | unreached (error : UpstreamError)
  | sent (target : ForwardTarget) (address : SocketAddr) (request : UpstreamRequest)
  deriving DecidableEq

variable (env : Environment) (crate : HttpCrate) (requestHead : RequestHeadHooks) (network : Network)
  (tls : Option TlsInterceptor) (flow : Flow) (limits : HttpLimits)

def invalid : Except RepeatFailureCategory α := .error .invalidRequest

def orInvalid (outcome : Except ε α) : Except RepeatFailureCategory α :=
  outcome.mapError (fun _ => .invalidRequest)

def regenerateHost (headers : HeaderMap) (authority : String) : Except RepeatFailureCategory HeaderMap :=
  match Headers.regenerateHost headers authority with
  | some hosted => .ok hosted
  | none => invalid

def acceptScheme (scheme : ForwardScheme) (host : TargetHost) : Except RepeatFailureCategory Unit :=
  if scheme = .https && tls.all (fun interceptor => !interceptor.shouldIntercept host) then .error .tls else .ok ()

structure Screened where
  target : ForwardTarget
  scheme : ForwardScheme
  originUri : String
  headers : HeaderMap

-- The checks that need nothing but the request.
def screen (command : RepeatRequest) : Except RepeatFailureCategory Screened := do
  let request := command.request
  if request.version ≠ .http11 || request.method = "CONNECT" || command.body.length > limits.bodyPrefixBytes then invalid
  else
    orInvalid (Headers.validate request.headers limits.headerBytes)
    let (target,scheme) ← orInvalid (ForwardTarget.fromRepeat crate request.uri.toUriParts)
    acceptScheme tls scheme target.host
    match target.originUri with
    | none => invalid
    | some originUri =>
        let stripped ← orInvalid (Headers.stripHopByHop request.headers)
        let headers ← regenerateHost stripped target.authority
        return ⟨target,scheme,originUri,headers⟩

-- One inspector both judges the body and hands it to the hooks.
def prepareRequestBody (bytes : List UInt8) (headers : HeaderMap) :
    Task (Except RepeatFailureCategory (HeaderMap × List Sent)) := do
  let inspection ← FlowInspector.new env flow .http limits.bodyPrefixBytes
  let (verdict,next) ← inspection.permits env .httpRequestBody bytes
  if verdict then
    let transformed ← next.transformHttpBody env .httpRequestBody bytes limits.bodyPrefixBytes true
    return .ok (HttpService.normalizeTransformed headers transformed,
      [⟨.ok (.data transformed.bytes),bytes,next.fed .httpRequestBody⟩])
  else return .error .inspection

def sendOn (target : ForwardTarget) (address : SocketAddr) (request : UpstreamRequest) : Attempt :=
  match network.handshake address with
  | .ready => .sent target address request
  | .failed => .unreached .upstreamHttp
  | .timedOut => .failed .upstream

def send (scheme : ForwardScheme) (target : ForwardTarget) (address : SocketAddr) (request : UpstreamRequest) : Attempt :=
  match scheme with
  | .http => sendOn network target address request
  | .https =>
      match tls with
      | none => .failed .tls
      | some interceptor =>
          match interceptor.connectUpstream address target.host with
          | .ready => sendOn network target address request
          | .failed => .unreached .tls
          | .timedOut => .failed .tls

-- What follows once a connection to the upstream server is there.
def dispatch (command : RepeatRequest) (screened : Screened) (address : SocketAddr) : Task Attempt := do
  let hooked ← runRequestHeadHooks env requestHead flow
    ⟨command.request.method,screened.originUri,screened.headers⟩
  match regenerateHost hooked screened.target.authority with
  | .error category => return .failed category
  | .ok headers => do
      match ← prepareRequestBody env flow limits command.body headers with
      | .error category => return .failed category
      | .ok (framed,sent) =>
          return send network tls screened.scheme screened.target address
            ⟨command.request.method,screened.originUri,.http11,framed,sent,.preflight⟩

def requestedTarget (command : RepeatRequest) (target : ForwardTarget) : RequestedTargetFacts :=
  ⟨command.sourceIp,target.host,target.port,.http⟩

def perform (command : RepeatRequest) : Task Attempt :=
  match screen crate tls limits command with
  | .error category => return .failed category
  | .ok screened => do
      let requested := requestedTarget command screened.target
      let addresses ← authorizeAndResolve env flow requested
      match ← evaluateRequestPolicy env flow
          ⟨requested,command.request.method,screened.originUri,screened.headers⟩ addresses with
      | .error category => return .failed category
      | .ok () =>
          match connectAny network none addresses with
          | .error error => return .unreached error
          | .ok address => dispatch env requestHead network tls flow limits command screened address

end Freja.Proxy.Repeat
