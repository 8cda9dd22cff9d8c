import Freja.Domain.Decision
import Freja.Foundation.HeaderMap

namespace Freja.Policy
open Domain Bytes

inductive HookRunError where
  | failed (message : String)
  | timedOut
  deriving DecidableEq, Repr

inductive HookFailurePolicy where
  | failOpen
  | failClosed
  deriving DecidableEq, Repr

inductive HeaderMutation where
  | set (name : String) (value : List UInt8)
  | append (name : String) (value : List UInt8)
  | remove (name : String)
  deriving DecidableEq, Repr

structure HeadMutationPlan where
  headers : List HeaderMutation
  deriving DecidableEq, Repr

inductive BodyMutationPlan where
  | keep
  | replace (body : List UInt8)
  deriving DecidableEq, Repr

inductive ChunkMutationPlan where
  | keep
  | replace (chunk : List UInt8)
  | drop
  deriving DecidableEq, Repr

structure HttpRequestMutationPlan where
  head : HeadMutationPlan
  body : BodyMutationPlan
  deriving DecidableEq, Repr

-- The registered hooks are code of the embedder. A call may answer differently
-- from an earlier one on the same bytes, so calls are numbered.
abbrev Hook (α : Type) := Nat → List UInt8 → Except HookRunError α

structure HookRegistry where
  requestBody : List (Hook BodyMutationPlan)
  responseBody : List (Hook BodyMutationPlan)
  tcpClient : List (Hook ChunkMutationPlan)
  tcpUpstream : List (Hook ChunkMutationPlan)

structure HookRunner where
  mode : HookMode
  registry : HookRegistry
  failurePolicy : HookFailurePolicy

namespace HookRunner

def invoke (runner : HookRunner) (answer : Except HookRunError α) : Except HookRunError (Option α) :=
  match answer with
  | .ok value => .ok (some value)
  | .error error => if runner.failurePolicy = .failOpen then .ok none else .error error

-- Runs one stage's hooks in order; the plan of the last one that answered wins.
def combine (runner : HookRunner) (input : List UInt8) (mutation : α) (calls : Nat) :
    List (Hook α) → Except HookRunError α × Nat
  | [] => (.ok mutation,calls)
  | hook :: rest =>
      match runner.invoke (hook calls input) with
      | .error error => (.error error,calls + 1)
      | .ok (some plan) => runner.combine input plan (calls + 1) rest
      | .ok none => runner.combine input mutation (calls + 1) rest

def run (runner : HookRunner) (hooks : List (Hook α)) (keep : α) (input : List UInt8) (calls : Nat) :
    Except HookRunError α × Nat :=
  if runner.mode = .disabled then (.ok keep,calls) else runner.combine input keep calls hooks

def requestBody (runner : HookRunner) (input : List UInt8) (calls : Nat) :=
  runner.run runner.registry.requestBody .keep input calls

def responseBody (runner : HookRunner) (input : List UInt8) (calls : Nat) :=
  runner.run runner.registry.responseBody .keep input calls

def tcpClientChunk (runner : HookRunner) (input : List UInt8) (calls : Nat) :=
  runner.run runner.registry.tcpClient .keep input calls

def tcpUpstreamChunk (runner : HookRunner) (input : List UInt8) (calls : Nat) :=
  runner.run runner.registry.tcpUpstream .keep input calls

def mayMutateRequestBody (runner : HookRunner) : Bool :=
  runner.mode == .interactive || (runner.mode == .automatic && !runner.registry.requestBody.isEmpty)

def mayMutateResponseBody (runner : HookRunner) : Bool :=
  runner.mode != .disabled && !runner.registry.responseBody.isEmpty

end HookRunner

inductive MutationError where
  | protectedHeader (name : String)
  | bodyTooLarge (actual maximum : Nat)
  | encodedBodyReplacement
  deriving DecidableEq, Repr

def applyBodyMutation (body : List UInt8) (plan : BodyMutationPlan) (maximumReplacementBytes : Nat) :
    Except MutationError (List UInt8) :=
  match plan with
  | .keep => .ok body
  | .replace replacement =>
      if replacement.length > maximumReplacementBytes then
        .error (.bodyTooLarge replacement.length maximumReplacementBytes)
      else .ok replacement

def normalizeReplacedBodyHeaders (headers : HeaderMap) : HeaderMap :=
  ["content-encoding","content-range","etag","content-md5","digest"].foldl HeaderMap.remove headers

def protectedHeaders : List String :=
  ["connection","host","keep-alive","proxy-authenticate","proxy-authorization","proxy-connection",
   "content-length","te","trailer","transfer-encoding","upgrade"]

def validateMutableHeader (name : String) : Except MutationError Unit :=
  if name ∈ protectedHeaders then .error (.protectedHeader name) else .ok ()

def HeaderMutation.name : HeaderMutation → String
  | .set name _ | .append name _ | .remove name => name

def HeaderMutation.apply (headers : HeaderMap) : HeaderMutation → HeaderMap
  | .set name value => headers.insert name value
  | .append name value => headers.append name value
  | .remove name => headers.remove name

def applyHeadMutation (headers : HeaderMap) (head : HeadMutationPlan) : Except MutationError HeaderMap :=
  head.headers.foldlM (fun headers mutation => do
    validateMutableHeader mutation.name
    return mutation.apply headers) headers

def setContentLength (headers : HeaderMap) (length : Nat) : HeaderMap :=
  ((headers.remove "transfer-encoding").remove "trailer").insert "content-length" (utf8 (toString length))

def applyHttpMutation (headers : HeaderMap) (body : List UInt8) (head : HeadMutationPlan)
    (bodyPlan : BodyMutationPlan) (maximumReplacementBytes : Nat) :
    Except MutationError (HeaderMap × List UInt8) := do
  let headers ← applyHeadMutation headers head
  let output ← applyBodyMutation body bodyPlan maximumReplacementBytes
  let headers := match bodyPlan with
    | .keep => headers
    | .replace _ => normalizeReplacedBodyHeaders headers
  return (setContentLength headers output.length,output)

inductive HttpVersion where
  | http09
  | http10
  | http11
  | http2
  | http3
  deriving DecidableEq, Repr

structure HttpRequestSnapshot where
  method : String
  uri : String
  version : HttpVersion
  headers : HeaderMap
  body : List UInt8
  maximumHeadBytes : Nat
  maximumBodyBytes : Nat
  deriving DecidableEq, Repr

inductive InteractiveDecision where
  | continue
  | reject
  | editHeaders (plan : HeadMutationPlan)
  | replaceBody (replacement : List UInt8)
  | modifyRequest (plan : HttpRequestMutationPlan)
  | cancelModification
  deriving DecidableEq, Repr

inductive InterceptError where
  | saturated
  | channelClosed
  | timedOut
  | responderDropped
  deriving DecidableEq, Repr

end Freja.Policy
