import Freja.Proxy.Headers
import Freja.Proxy.Target

namespace Freja.Proxy
open Domain Policy Audit Effect Bytes IpAddress

structure HttpRequest where
  method : String
  uri : Uri
  version : HttpVersion
  headers : HeaderMap
  proper : headers.Proper

structure HttpRequestHead where
  method : String
  uri : String
  headers : HeaderMap
  deriving DecidableEq, Repr

-- The hooks of a request head: their answer and the number of calls after it.
abbrev RequestHeadHooks := Nat → HttpRequestHead → Except HookRunError HeadMutationPlan × Nat

def HttpRequest.head (request : HttpRequest) : HttpRequestHead :=
  ⟨request.method,request.uri.text,request.headers⟩

structure Listener where
  peer : IpAddr
  authentication : Option Digest
  connectPorts : List Port

-- Where a request comes in: at the listener, or inside an intercepted tunnel.
inductive Entry where
  | listener
  | tunnel (target : ForwardTarget) (selectedAddress : SocketAddr)

variable (env : Environment) (crate : HttpCrate) (requestHead : RequestHeadHooks) (listener : Listener)
  (service : HttpService)

def authenticateProxyRequest (headers : HeaderMap) (credentialHash : Digest) : Bool :=
  match headers.getAll "proxy-authorization" with
  | [value] =>
      match value.dropWhile (· != 32) with
      | [] => false
      | _ :: encoded =>
          value.all Headers.isVisibleAscii && eqIgnoreAsciiCase (value.takeWhile (· != 32)) (ascii "basic") &&
            !encoded.isEmpty && (crate.base64 encoded).any (fun credential => crate.sha256 credential == credentialHash)
  | _ => false

def auditRequest (flow : Flow) (request : HttpRequest) : Task Unit :=
  publishEvent env flow
    (.httpRequestObserved request.method request.uri.text (Headers.auditHeaders request.headers))

def isAuthenticated (headers : HeaderMap) : Bool :=
  match listener.authentication with
  | none => true
  | some credentialHash => authenticateProxyRequest crate headers credentialHash

def auditAuthentication (flow : Flow) (authenticated : Bool) : Task Unit :=
  match listener.authentication with
  | none => return ()
  | some _ => publishEvent env flow (.proxyAuthentication (if authenticated then .accepted else .rejected))

def proxyAuthenticationRequired : Refusal := ⟨407,"proxy authentication required\n"⟩

def badRequest (text : String) : Refusal := ⟨400,text⟩

def validateHead (limits : HttpLimits) (headers : HeaderMap) : Except Refusal Unit :=
  (Headers.validate headers limits.headerBytes).mapError (fun error => badRequest error.text)

-- The head that is passed on: no hop-by-hop fields, and a host field of the proxy's own.
def forwardedHead (headers : HeaderMap) (authority invalid : String) : Except Refusal HeaderMap :=
  match Headers.stripHopByHop headers with
  | .error error => .error (badRequest error.text)
  | .ok stripped =>
      match Headers.regenerateHost stripped authority with
      | none => .error (badRequest invalid)
      | some regenerated => .ok regenerated

def screenForward (request : HttpRequest) : Except Refusal (ForwardTarget × HeaderMap) := do
  validateHead service.limits request.headers
  let target ← (ForwardTarget.fromAbsolute crate request.uri.toUriParts).mapError (fun error => badRequest error.text)
  let headers ← forwardedHead request.headers target.authority "invalid target authority"
  return (target,headers)

def screenIntercepted (target : ForwardTarget) (request : HttpRequest) : Except Refusal HeaderMap :=
  if request.method = "CONNECT" then .error ⟨405,"nested CONNECT is not supported\n"⟩
  else do
    validateHead service.limits request.headers
    let headers ← forwardedHead request.headers target.authority "invalid CONNECT authority"
    if crate.upstreamUri request.uri.pathAndQuery then return headers
    else throw (badRequest "invalid intercepted request target")

def requestedTarget (target : ForwardTarget) : RequestedTargetFacts :=
  ⟨listener.peer,target.host,target.port,.http⟩

def ForwardTarget.policyPath (target : ForwardTarget) : String := target.originUri.getD "/"

def applyMutation (mutated : Except MutationError HeaderMap) : Task HeaderMap :=
  MonadExcept.ofExcept (mutated.mapError ProxyError.hookMutation)

-- The hooks see the head as it stands, and their plan is applied to it.
def runRequestHeadHooks (flow : Flow) (head : HttpRequestHead) : Task HeaderMap :=
  if env.hooks.mode = .disabled then return head.headers
  else do
    let result ← FlowInspector.runHook (fun calls => requestHead calls head)
    let context ← auditContext env flow
    FlowInspector.publishHookOutcome env context .httpRequestHead result.isOk
    let plan ← MonadExcept.ofExcept (result.mapError ProxyError.hook)
    applyMutation (applyHeadMutation head.headers plan)

def applyRequestHeadHooks (request : HttpRequest) : Task HeaderMap :=
  runRequestHeadHooks env requestHead service.flow request.head

def applyConnectDecision (headers : HeaderMap) : Option InteractiveDecision → Task HeaderMap
  | some (.editHeaders plan) => applyMutation (applyHeadMutation headers plan)
  | some (.replaceBody replacement) =>
      applyMutation ((applyBodyMutation [] (.replace replacement) 0).map (fun _ => headers))
  | some (.modifyRequest plan) => applyMutation ((applyHttpMutation headers [] plan.head plan.body 0).map Prod.fst)
  | some .reject => throw .interactiveRejected
  | some .continue | some .cancelModification | none => return headers

def connectSnapshot (request : HttpRequest) (headers : HeaderMap) : HttpRequestSnapshot :=
  {method := request.method,uri := request.uri.text,version := request.version,headers := headers,body := []
   maximumHeadBytes := service.limits.headerBytes,maximumBodyBytes := 0}

def pauseConnectRequest (request : HttpRequest) (headers : HeaderMap) : Task HeaderMap :=
  if env.hooks.mode = .interactive then do
    let context ← auditContext env service.flow
    let decision ← HttpService.interactiveHttpRequest env context (connectSnapshot service request headers)
    applyConnectDecision headers decision
  else return headers

-- Each of the three ends where the request has passed its policy.
def forward (request : HttpRequest) : Task (Option Refusal) :=
  match screenForward crate service request with
  | .error refusal => return some refusal
  | .ok (target,headers) => do
      let requested := requestedTarget listener target
      let addresses ← authorizeAndResolve env service.flow requested
      evaluateHttpPolicy env service.flow ⟨requested,request.method,target.policyPath,headers⟩ addresses

def forwardIntercepted (target : ForwardTarget) (selectedAddress : SocketAddr) (request : HttpRequest) :
    Task (Option Refusal) :=
  match screenIntercepted crate service target request with
  | .error refusal => return some refusal
  | .ok headers =>
      evaluateHttpPolicy env service.flow
        ⟨requestedTarget listener target,request.method,request.uri.pathAndQuery,headers⟩ [selectedAddress]

def evaluateConnect (target : ForwardTarget) (headers : HeaderMap) : Task (Option Refusal) := do
  match ← checkConnectPort env service.flow listener.connectPorts target.port with
  | some refusal => return some refusal
  | none =>
      let requested := requestedTarget listener target
      let addresses ← authorizeAndResolve env service.flow requested
      evaluateHttpPolicy env service.flow ⟨requested,"CONNECT",target.authority,headers⟩ addresses

def connect (request : HttpRequest) : Task (Option Refusal) :=
  match validateHead service.limits request.headers with
  | .error refusal => return some refusal
  | .ok () => do
      let hooked ← applyRequestHeadHooks env requestHead service request
      let headers ← pauseConnectRequest env service request hooked
      match ForwardTarget.fromConnect crate request.uri.toUriParts with
      | .error error => return some (badRequest error.text)
      | .ok target => evaluateConnect env listener service target headers

def handle (request : HttpRequest) : Task (Option Refusal) := do
  auditRequest env service.flow request
  let authenticated := isAuthenticated crate listener request.headers
  auditAuthentication env listener service.flow authenticated
  if authenticated then
    if request.method = "CONNECT" then connect env crate requestHead listener service request
    else forward env crate listener service request
  else return some proxyAuthenticationRequired

def handleIntercepted (target : ForwardTarget) (selectedAddress : SocketAddr) (request : HttpRequest) :
    Task (Option Refusal) := do
  auditRequest env service.flow request
  forwardIntercepted env crate listener service target selectedAddress request

def Entry.handle (request : HttpRequest) : Entry → Task (Option Refusal)
  | .listener => Proxy.handle env crate requestHead listener service request
  | .tunnel target selectedAddress =>
      handleIntercepted env crate listener service target selectedAddress request

-- Whether a request gets as far as the access rules.
def Entry.reachesPolicy (request : HttpRequest) : Entry → Bool
  | .listener =>
      isAuthenticated crate listener request.headers &&
        if request.method = "CONNECT" then (validateHead service.limits request.headers).isOk
        else (screenForward crate service request).isOk
  | .tunnel target _ => (screenIntercepted crate service target request).isOk

-- The text that the access rules compare with a path.
def Entry.policyPath (request : HttpRequest) : Entry → String
  | .listener => if request.method = "CONNECT" then request.uri.authority.getD "" else request.uri.pathAndQuery
  | .tunnel _ _ => request.uri.pathAndQuery

theorem screenForward_ok (done : screenForward crate service request = .ok (target,headers)) :
    ForwardTarget.fromAbsolute crate request.uri.toUriParts = .ok target ∧
      forwardedHead request.headers target.authority "invalid target authority" = .ok headers := by
  obtain ⟨_,_,done⟩ := except_bind_ok done
  obtain ⟨found,targeted,done⟩ := except_bind_ok done
  obtain ⟨forwarded,passed,done⟩ := except_bind_ok done
  cases done
  exact ⟨mapError_ok.mp targeted,passed⟩

theorem screenIntercepted_ok (done : screenIntercepted crate service target request = .ok headers) :
    forwardedHead request.headers target.authority "invalid CONNECT authority" = .ok headers := by
  unfold screenIntercepted at done
  split at done
  · cases done
  · obtain ⟨_,_,done⟩ := except_bind_ok done
    obtain ⟨forwarded,passed,done⟩ := except_bind_ok done
    split at done
    · cases done
      exact passed
    · cases done

end Freja.Proxy
