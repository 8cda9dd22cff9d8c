import Freja.Proxy.FlowInspector

namespace Freja.Proxy
open Domain Policy Audit Effect Bytes Occurrence

inductive BodyError where
  | hyper
  | readTimedOut
  | inspection (error : ProxyError)
  | inspectionBlocked
  deriving DecidableEq, Repr

inductive Frame where
  | data (bytes : List UInt8)
  | trailers
  deriving DecidableEq, Repr

abbrev BodyFrame := Except BodyError Frame

inductive BodyEvent where
  | data (bytes : List UInt8)
  | trailers
  | failed
  | timedOut
  | shutdown
  deriving DecidableEq, Repr

-- What the body source does next, and whether the frame sent on account of it
-- reaches the receiver. A body that ends has no further arrivals.
structure Arrival where
  event : BodyEvent
  delivered : Bool
  deriving DecidableEq, Repr

-- A frame handed on, with the body bytes read by then and the bytes that had
-- been through the scanner.
structure Sent where
  frame : BodyFrame
  consumed : List UInt8
  fed : List UInt8
  deriving DecidableEq

def Sent.bytes (sent : Sent) : List UInt8 :=
  match sent.frame with
  | .ok (.data bytes) => bytes
  | _ => []

structure HttpLimits where
  headerBytes : Nat
  bodyPrefixBytes : Nat
  deriving DecidableEq, Repr

structure BodyPumpConfig where
  direction : Direction
  maximumInspectedBytes : Nat
  decodedReplacementAllowed : Bool
  bodyMayChange : Bool
  deriving DecidableEq, Repr

inductive CollectError where
  | hyper
  | readTimedOut
  | limitExceeded (observed maximum : Nat)
  deriving DecidableEq, Repr

def CollectError.text : CollectError → String
  | .hyper => "HTTP body stream failed during preflight"
  | .readTimedOut => "HTTP body frame read timed out"
  | .limitExceeded observed maximum =>
      "HTTP body preflight bytes " ++ toString observed ++ " exceed configured limit " ++ toString maximum

-- Collecting does not watch the shutdown signal.
def collectBounded (maximum : Nat) (bytes : List UInt8) : List Arrival → Except CollectError (List UInt8)
  | [] => .ok bytes
  | arrival :: rest =>
      match arrival.event with
      | .timedOut => .error .readTimedOut
      | .failed => .error .hyper
      | .trailers | .shutdown => collectBounded maximum bytes rest
      | .data data =>
          let observed := bytes.length + data.length
          if observed > maximum then .error (.limitExceeded observed maximum)
          else collectBounded maximum (bytes ++ data) rest

variable (env : Environment)

def sendBodyFrame (arrival : Arrival) (sent : Sent) : List Sent := if arrival.delivered then [sent] else []

def inspectFrame (config : BodyPumpConfig) (inspection : FlowInspector) (inspectedBytes : Nat) (data : List UInt8) :
    Task (Except BodyError (FlowInspector × Nat)) := do
  let inspectCount := min (config.maximumInspectedBytes - inspectedBytes) data.length
  if inspectCount = 0 then return .ok (inspection,inspectedBytes)
  else
    match ← attempt (inspection.permits env config.direction (data.take inspectCount)) with
    | .ok (true,next) => return .ok (next,inspectedBytes + inspectCount)
    | .ok (false,_) => return .error .inspectionBlocked
    | .error error => return .error (.inspection error)

def transformFrame (config : BodyPumpConfig) (inspection : FlowInspector) (data : List UInt8) :
    Task (Except BodyError (List UInt8)) := do
  match ← attempt (inspection.transformHttpBody env config.direction data config.maximumInspectedBytes
      config.decodedReplacementAllowed) with
  | .ok transformed => return .ok transformed.bytes
  | .error error => return .error (.inspection error)

def pumpInspectedBody (config : BodyPumpConfig) (inspection : FlowInspector) (inspectedBytes : Nat)
    (consumed : List UInt8) : List Arrival → Task (List Sent)
  | [] => return []
  | arrival :: rest =>
      let send (frame : BodyFrame) (read : List UInt8) (passed : FlowInspector) :=
        sendBodyFrame arrival ⟨frame,read,passed.fed config.direction⟩
      match arrival.event with
      | .shutdown => return []
      | .timedOut => return send (.error .readTimedOut) consumed inspection
      | .failed => return send (.error .hyper) consumed inspection
      | .trailers =>
          if config.bodyMayChange then pumpInspectedBody config inspection inspectedBytes consumed rest
          else if arrival.delivered then do
            let later ← pumpInspectedBody config inspection inspectedBytes consumed rest
            return send (.ok .trailers) consumed inspection ++ later
          else return []
      | .data data => do
          match ← inspectFrame env config inspection inspectedBytes data with
          | .error error => return send (.error error) (consumed ++ data) inspection
          | .ok (next,inspected) =>
              match ← transformFrame env config next data with
              | .error error => return send (.error error) (consumed ++ data) next
              | .ok output =>
                  if arrival.delivered then do
                    let later ← pumpInspectedBody config next inspected (consumed ++ data) rest
                    return send (.ok (.data output)) (consumed ++ data) next ++ later
                  else return []

structure Refusal where
  status : Nat
  text : String
  deriving DecidableEq, Repr

inductive Prepared where
  | refused (refusal : Refusal)
  | forwarded (headers : HeaderMap) (sent : List Sent)
  deriving DecidableEq

def blockPage : Refusal :=
  ⟨403,"<!doctype html><title>Blocked by Freja</title><h1>Request blocked</h1>\n"⟩

structure RequestParts where
  method : String
  uri : String
  version : HttpVersion
  headers : HeaderMap
  deriving DecidableEq, Repr

structure HttpService where
  flow : Flow
  limits : HttpLimits

namespace HttpService

-- The verdict, and what the scanner was given to reach it.
def inspectPreflight (service : HttpService) (direction : Direction) (bytes : List UInt8) :
    Task (Bool × List UInt8) := do
  let inspection ← FlowInspector.new env service.flow .http service.limits.bodyPrefixBytes
  let (verdict,next) ← inspection.permits env direction bytes
  return (verdict,next.fed direction)

def transformPreflightBody (service : HttpService) (direction : Direction) (bytes : List UInt8) :
    Task FlowInspector.BodyTransform := do
  let inspection ← FlowInspector.new env service.flow .http service.limits.bodyPrefixBytes
  inspection.transformHttpBody env direction bytes service.limits.bodyPrefixBytes true

def startStreamingInspection (service : HttpService) (direction : Direction) (decodedReplacementAllowed : Bool)
    (bodyMayChange : Bool) (body : List Arrival) : Task (List Sent) := do
  let inspection ← FlowInspector.new env service.flow .http service.limits.bodyPrefixBytes
  pumpInspectedBody env ⟨direction,service.limits.bodyPrefixBytes,decodedReplacementAllowed,bodyMayChange⟩
    inspection 0 [] body

def removeBodyLengthForStreamingHooks (headers : HeaderMap) (bodyMayChange : Bool) : HeaderMap :=
  if bodyMayChange then (headers.remove "content-length").remove "transfer-encoding" else headers

def normalizeTransformed (headers : HeaderMap) (transformed : FlowInspector.BodyTransform) : HeaderMap :=
  setContentLength (if transformed.replaced then normalizeReplacedBodyHeaders headers else headers)
    transformed.bytes.length

-- The part of a preflight that follows the collection of the body.
def preflightBody (service : HttpService) (direction : Direction) (headers : HeaderMap) (bytes : List UInt8) :
    Task Prepared := do
  let (verdict,fed) ← service.inspectPreflight env direction bytes
  if verdict then
    let transformed ← service.transformPreflightBody env direction bytes
    return .forwarded (normalizeTransformed headers transformed) [⟨.ok (.data transformed.bytes),bytes,fed⟩]
  else return .refused blockPage

def streamedBody (service : HttpService) (direction : Direction) (headers : HeaderMap) (bodyMayChange : Bool)
    (refusal : Refusal) (body : List Arrival) : Task Prepared := do
  let decodedReplacementAllowed := !headers.containsKey "content-encoding"
  if bodyMayChange && !decodedReplacementAllowed then return .refused refusal
  else
    let normalized := if bodyMayChange then normalizeReplacedBodyHeaders headers else headers
    let sent ← service.startStreamingInspection env direction decodedReplacementAllowed bodyMayChange body
    return .forwarded (removeBodyLengthForStreamingHooks normalized bodyMayChange) sent

-- The mode is read from the live snapshot; the inspector loads its own later.
def bodyByMode (service : HttpService) (direction : Direction) (headers : HeaderMap) (bodyMayChange : Bool)
    (uncollected : CollectError → Refusal) (encoded : Refusal) (body : List Arrival) : Task Prepared := do
  match ← inspectionMode env with
  | .preflight =>
      match collectBounded service.limits.bodyPrefixBytes [] body with
      | .error error => return .refused (uncollected error)
      | .ok bytes => service.preflightBody env direction headers bytes
  | .streaming => service.streamedBody env direction headers bodyMayChange encoded body

def requestCollectRefusal (limit : String) : CollectError → Refusal
  | .limitExceeded _ _ => ⟨413,"request body exceeds " ++ limit ++ " limit\n"⟩
  | .hyper => ⟨400,"request body stream failed\n"⟩
  | .readTimedOut => ⟨408,"request body read timed out\n"⟩

def responseCollectRefusal : CollectError → Refusal
  | .readTimedOut => ⟨504,"upstream body read timed out\n"⟩
  | error => ⟨502,error.text⟩

def manualAction : Except InterceptError InteractiveDecision → ManualModificationAction
  | .ok .continue => .continue
  | .ok .reject => .reject
  | .ok (.editHeaders _) => .editHeaders
  | .ok (.replaceBody _) => .replaceBody
  | .ok (.modifyRequest _) => .modifyRequest
  | .ok .cancelModification => .cancelModification
  | .error _ => .failed

def interactiveHttpRequest (context : AuditContext) (request : HttpRequestSnapshot) :
    Task (Option InteractiveDecision) :=
  if env.hooks.mode = .interactive then
    match env.interactive with
    | none => throw (.interactive .channelClosed)
    | some broker => do
        let calls := (← get).hookCalls
        modify (fun state => {state with hookCalls := calls + 1})
        let result := broker calls request
        publish env ⟨context,.manualModification (manualAction result)⟩
        match result with
        | .ok decision => return some decision
        | .error error => throw (.interactive error)
  else return none

def applyDecision (limits : HttpLimits) (headers : HeaderMap) (body : List UInt8) :
    Option InteractiveDecision → Except ProxyError (HeaderMap × List UInt8)
  | some (.editHeaders plan) =>
      (applyHeadMutation headers plan).mapError ProxyError.hookMutation |>.map (fun edited => (edited,body))
  | some (.replaceBody replacement) =>
      (applyBodyMutation body (.replace replacement) limits.bodyPrefixBytes).mapError ProxyError.hookMutation
        |>.map (fun output => (normalizeReplacedBodyHeaders headers,output))
  | some (.modifyRequest plan) =>
      (applyHttpMutation headers body plan.head plan.body limits.bodyPrefixBytes).mapError ProxyError.hookMutation
  | some .reject => .error .interactiveRejected
  | some .continue | some .cancelModification | none => .ok (headers,body)

def prepareInteractiveRequest (service : HttpService) (parts : RequestParts) (interactiveUri : Option String)
    (body : List Arrival) : Task Prepared :=
  match collectBounded service.limits.bodyPrefixBytes [] body with
  | .error error => return .refused (requestCollectRefusal "interactive" error)
  | .ok original => do
      let (verdict,fed) ← service.inspectPreflight env .httpRequestBody original
      if verdict then
        let transformed ← service.transformPreflightBody env .httpRequestBody original
        let headers := if transformed.replaced then normalizeReplacedBodyHeaders parts.headers else parts.headers
        let context ← auditContext env service.flow
        let decision ← interactiveHttpRequest env context
          {method := parts.method,uri := interactiveUri.getD parts.uri,version := parts.version,headers := headers
           body := transformed.bytes,maximumHeadBytes := service.limits.headerBytes
           maximumBodyBytes := service.limits.bodyPrefixBytes}
        match applyDecision service.limits headers transformed.bytes decision with
        | .error error => throw error
        | .ok (edited,output) =>
            return .forwarded (setContentLength edited output.length) [⟨.ok (.data output),original,fed⟩]
      else return .refused blockPage

def prepareRequestBody (service : HttpService) (parts : RequestParts) (interactiveUri : Option String)
    (body : List Arrival) : Task Prepared :=
  if env.hooks.mode = .interactive then service.prepareInteractiveRequest env parts interactiveUri body
  else
    service.bodyByMode env .httpRequestBody parts.headers env.hooks.mayMutateRequestBody
      (requestCollectRefusal "preflight") ⟨422,"content-encoded body hooks require preflight mode\n"⟩ body

def isInformational (status : Nat) : Bool := 100 ≤ status && status < 200

def responseHasNoContent (requestMethod : String) (status : Nat) : Bool :=
  requestMethod == "HEAD" || isInformational status || [204,205,304].contains status

def normalizeNoContentHeaders (status : Nat) (headers : HeaderMap) : HeaderMap :=
  let headers := (headers.remove "transfer-encoding").remove "trailer"
  if isInformational status || status == 204 then headers.remove "content-length"
  else if status == 205 then setContentLength headers 0
  else headers

-- From the point where the response head has passed its policy and its hooks.
def finishResponseBody (service : HttpService) (requestMethod : String) (status : Nat) (headers : HeaderMap)
    (body : List Arrival) : Task Prepared :=
  if responseHasNoContent requestMethod status then
    return .forwarded (normalizeNoContentHeaders status headers) []
  else
    service.bodyByMode env .httpResponseBody headers env.hooks.mayMutateResponseBody
      responseCollectRefusal ⟨502,"content-encoded response hooks require preflight mode\n"⟩ body

end HttpService

inductive BodySide where
  | request
  | response
  deriving DecidableEq, Repr

def BodySide.direction : BodySide → Direction
  | .request => .httpRequestBody
  | .response => .httpResponseBody

structure Exchange where
  parts : RequestParts
  interactiveUri : Option String
  status : Nat
  responseHeaders : HeaderMap
  deriving DecidableEq, Repr

-- The two bodies of an exchange go through handlers of their own.
def HttpService.deliverBody (service : HttpService) (exchange : Exchange) (side : BodySide) (body : List Arrival) :
    Task Prepared :=
  match side with
  | .request => service.prepareRequestBody env exchange.parts exchange.interactiveUri body
  | .response =>
      service.finishResponseBody env exchange.parts.method exchange.status exchange.responseHeaders body

end Freja.Proxy
