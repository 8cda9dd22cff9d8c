import Freja.Policy.Mutation
import Freja.Proxy.Admission

namespace Freja.Proxy
open Domain Policy Audit Effect Bytes IpAddress

inductive Dialed where
  | connected
  | failed
  | timedOut
  | shutdown
  deriving DecidableEq, Repr

inductive Handshake where
  | ready
  | failed
  | timedOut
  deriving DecidableEq, Repr

-- The network as a request meets it on its way to the upstream server.
structure Network where
  dial : SocketAddr → Dialed
  handshake : SocketAddr → Handshake

inductive UpstreamError where
  | connectFailed (target : SocketAddr)
  | connectTimedOut (target : SocketAddr)
  | noResolvedAddresses (host : String)
  | shutdown
  | upstreamHttp
  | upstreamResponseTimedOut
  | tls
  deriving DecidableEq, Repr

def connectAny (network : Network) (lastError : Option UpstreamError) :
    List SocketAddr → Except UpstreamError SocketAddr
  | [] => .error (lastError.getD (.noResolvedAddresses "<empty address set>"))
  | address :: rest =>
      match network.dial address with
      | .connected => .ok address
      | .failed => connectAny network (some (.connectFailed address)) rest
      | .timedOut => connectAny network (some (.connectTimedOut address)) rest
      | .shutdown => .error .shutdown

def establishHttpSender (network : Network) (address : SocketAddr) : Except UpstreamError Unit :=
  match network.handshake address with
  | .ready => .ok ()
  | .failed => .error .upstreamHttp
  | .timedOut => .error .upstreamResponseTimedOut

-- How a request body is taken: held back as a whole, shown to the operator, or
-- passed on as it comes.
inductive BodyWay where
  | preflight
  | interactive
  | streaming
  deriving DecidableEq, Repr

structure UpstreamRequest where
  method : String
  uri : String
  version : HttpVersion
  headers : HeaderMap
  body : List Sent
  way : BodyWay
  deriving DecidableEq

def UpstreamRequest.bytes (request : UpstreamRequest) : List UInt8 := request.body.flatMap Sent.bytes

inductive Forwarded where
  | refused (refusal : Refusal)
  | unreached (error : UpstreamError)
  | sent (target : ForwardTarget) (address : SocketAddr) (request : UpstreamRequest)
  deriving DecidableEq

inductive InterceptedProtocol where
  | http1
  | http2
  deriving DecidableEq, Repr

def InterceptedProtocol.httpVersion : InterceptedProtocol → HttpVersion
  | .http1 => .http11
  | .http2 => .http2

def interceptedUpstreamUri (protocol : InterceptedProtocol) (authority pathAndQuery : String) : String :=
  match protocol with
  | .http1 => pathAndQuery
  | .http2 => "https://" ++ authority ++ pathAndQuery

-- Where a request comes in, with what lies beyond it.
inductive Route where
  | listener (network : Network)
  | tunnel (target : ForwardTarget) (selectedAddress : SocketAddr) (protocol : InterceptedProtocol)
      (canonicalUri : String → Option String)

variable (env : Environment) (crate : HttpCrate) (requestHead : RequestHeadHooks) (listener : Listener)
  (service : HttpService)

-- The way the next body goes: preparing it reads the mode of the same snapshot.
def wayAt (state : ServiceState) : BodyWay :=
  if env.hooks.mode = .interactive then .interactive
  else
    match (env.live state.loads).inspectionMode with
    | .preflight => .preflight
    | .streaming => .streaming

def bodyWay : Task BodyWay := fun state => .ok (wayAt env state) state

-- What both kinds of forwarding do once the request has passed its policy.
def prepareUpstream (target : ForwardTarget) (parts : RequestParts) (invalid : String) (repeatUri : Option String)
    (body : List Arrival) : Task (Except Refusal UpstreamRequest) := do
  let hooked ← runRequestHeadHooks env requestHead service.flow ⟨parts.method,parts.uri,parts.headers⟩
  match Headers.regenerateHost hooked target.authority with
  | none => return .error (badRequest invalid)
  | some headers => do
      let way ← bodyWay env
      match ← service.prepareRequestBody env {parts with headers := headers} repeatUri body with
      | .refused refusal => return .error refusal
      | .forwarded framed sent => return .ok ⟨parts.method,parts.uri,parts.version,framed,sent,way⟩

def sendUpstreamRequest (network : Network) (target : ForwardTarget) (address : SocketAddr)
    (request : UpstreamRequest) : Forwarded :=
  match establishHttpSender network address with
  | .error error => .unreached error
  | .ok () => .sent target address request

def forwardParts (request : HttpRequest) (target : ForwardTarget) (headers : HeaderMap) : RequestParts :=
  ⟨request.method,target.originUri.getD request.uri.text,.http11,headers⟩

-- From the policy on, the rest of a plain forwarding.
def forwardPermitted (network : Network) (request : HttpRequest) (body : List Arrival) (target : ForwardTarget)
    (headers : HeaderMap) (addresses : List SocketAddr) : Task Forwarded :=
  match connectAny network none addresses with
  | .error error => return .unreached error
  | .ok address => do
      match ← prepareUpstream env requestHead service target (forwardParts request target headers)
          "invalid target authority" (some request.uri.text) body with
      | .error refusal => return .refused refusal
      | .ok upstream => return sendUpstreamRequest network target address upstream

def forwardUpstream (network : Network) (request : HttpRequest) (body : List Arrival) : Task Forwarded :=
  match screenForward crate service request with
  | .error refusal => return .refused refusal
  | .ok (target,headers) => do
      let requested := requestedTarget listener target
      let addresses ← authorizeAndResolve env service.flow requested
      match ← evaluateHttpPolicy env service.flow ⟨requested,request.method,target.policyPath,headers⟩ addresses with
      | some refusal => return .refused refusal
      | none => forwardPermitted env requestHead service network request body target headers addresses

-- The sender of the tunnel is there already.
def forwardInterceptedUpstream (target : ForwardTarget) (selectedAddress : SocketAddr) (protocol : InterceptedProtocol)
    (canonicalUri : String → Option String) (request : HttpRequest) (body : List Arrival) : Task Forwarded :=
  match screenIntercepted crate service target request with
  | .error refusal => return .refused refusal
  | .ok headers => do
      let pathAndQuery := request.uri.pathAndQuery
      let parts := ⟨request.method,interceptedUpstreamUri protocol target.authority pathAndQuery,protocol.httpVersion,headers⟩
      match ← evaluateHttpPolicy env service.flow
          ⟨requestedTarget listener target,request.method,pathAndQuery,headers⟩ [selectedAddress] with
      | some refusal => return .refused refusal
      | none => do
          match ← prepareUpstream env requestHead service target parts "invalid CONNECT authority"
              (canonicalUri pathAndQuery) body with
          | .error refusal => return .refused refusal
          | .ok upstream => return .sent target selectedAddress upstream

def Route.forward (request : HttpRequest) (body : List Arrival) : Route → Task Forwarded
  | .listener network => forwardUpstream env crate requestHead listener service network request body
  | .tunnel target selectedAddress protocol canonicalUri =>
      forwardInterceptedUpstream env crate requestHead listener service target selectedAddress protocol
        canonicalUri request body

-- The target that a request is for.
def Route.target (request : HttpRequest) : Route → Except TargetError ForwardTarget
  | .listener _ => ForwardTarget.fromAbsolute crate request.uri.toUriParts
  | .tunnel target _ _ _ => .ok target

end Freja.Proxy
