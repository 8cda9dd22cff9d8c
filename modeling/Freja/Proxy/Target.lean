import Freja.Audit.SecretQueries
import Freja.Foundation.Relational

namespace Freja.Proxy
open Domain Audit Effect IpAddress

structure UriParts where
  scheme : Option String
  authority : Option String
  path : String
  query : Option String
  deriving DecidableEq, Repr

namespace UriParts

def hasPath (uri : UriParts) : Bool := uri.path != "" || uri.query.isSome || uri.scheme.isSome

def pathText (uri : UriParts) : String :=
  if uri.hasPath then if uri.path = "" then "/" else uri.path else ""

def front (uri : UriParts) : String :=
  (uri.scheme.map (· ++ "://")).getD "" ++ uri.authority.getD "" ++ uri.pathText

def text (uri : UriParts) : String := withQuery uri.front uri.query

-- An authority alone has no path; a path that was left out reads as the root.
def pathAndQuery (uri : UriParts) : String :=
  if uri.scheme.isSome || uri.authority.isNone then
    if uri.path = "" && uri.query.isNone then "/" else withQuery uri.path uri.query
  else "/"

end UriParts

-- A request target that was parsed: its parts can be told apart in its text.
structure Uri extends UriParts where
  split : Split toUriParts.front query

theorem Uri.splitPath (uri : Uri) : Split uri.path uri.query := by
  refine ⟨?_,uri.split.visible⟩
  intro character member
  apply uri.split.plain
  have given : uri.path ≠ "" := by
    intro empty
    rw [empty] at member
    cases member
  have shown : uri.pathText = uri.path := by
    unfold UriParts.pathText UriParts.hasPath
    simp [given]
  unfold UriParts.front
  rw [shown,String.toList_append]
  exact List.mem_append_right _ member

inductive ForwardScheme where
  | http
  | https
  deriving DecidableEq, Repr

inductive TargetError where
  | unsupportedScheme
  | missingAuthority
  | userInfoNotAllowed
  | connectNotAuthorityForm
  | missingConnectPort
  | endpoint (error : EndpointError)
  | originUri
  deriving DecidableEq, Repr

def TargetError.text : TargetError → String
  | .unsupportedScheme => "plain forwarding requires an http absolute-form target"
  | .missingAuthority => "request target has no authority"
  | .userInfoNotAllowed => "request-target user information is not allowed"
  | .connectNotAuthorityForm => "CONNECT target must use authority-form"
  | .missingConnectPort => "CONNECT authority must include an explicit port"
  | .endpoint _ => "request target contains an invalid endpoint"
  | .originUri => "request target has an invalid path/query"

-- What the libraries read from an authority and from a credential, and whether
-- they can write the target of an intercepted request.
structure HttpCrate where
  host : String → String
  portU16 : String → Option Nat
  parseIp : String → Option IpAddr
  base64 : List UInt8 → Option (List UInt8)
  sha256 : List UInt8 → Digest
  upstreamUri : String → Bool

def plainCrate : HttpCrate where
  host := id
  portU16 := fun _ => none
  parseIp := fun _ => none
  base64 := fun _ => none
  sha256 := fun _ => Vector.replicate 32 0
  upstreamUri := fun _ => true

structure ForwardTarget where
  host : TargetHost
  port : Port
  authority : String
  originUri : Option String
  deriving DecidableEq, Repr

def rejectUserinfo (authority : String) : Except TargetError Unit :=
  if authority.toList.contains '@' then .error .userInfoNotAllowed else .ok ()

-- What follows an authority begins with a slash or with the mark of a query, and
-- the latter is no target by itself.
def parseOrigin (pathAndQuery : String) : Except TargetError String :=
  if pathAndQuery.toList.head? = some '/' then .ok pathAndQuery else .error .originUri

def ForwardScheme.parse : Option String → Except TargetError ForwardScheme
  | some "http" => .ok .http
  | some "https" => .ok .https
  | _ => .error .unsupportedScheme

def ForwardScheme.defaultPort : ForwardScheme → Port
  | .http => ⟨80,Port.http⟩
  | .https => ⟨443,Port.https⟩

def requireAuthority : Option String → Except TargetError String
  | some authority => (rejectUserinfo authority).map (fun _ => authority)
  | none => .error .missingAuthority

namespace ForwardTarget

variable (crate : HttpCrate)

def parseHost (authority : String) : Except TargetError TargetHost :=
  (TargetHost.parse crate.parseIp (crate.host authority)).mapError .endpoint

def parsePort (authority : String) (absent : Except TargetError Port) : Except TargetError Port :=
  match crate.portU16 authority with
  | some port => (Port.new port).mapError .endpoint
  | none => absent

def fromRepeat (uri : UriParts) : Except TargetError (ForwardTarget × ForwardScheme) := do
  let scheme ← ForwardScheme.parse uri.scheme
  let authority ← requireAuthority uri.authority
  let host ← parseHost crate authority
  let port ← parsePort crate authority (.ok scheme.defaultPort)
  let origin ← parseOrigin uri.pathAndQuery
  return (⟨host,port,authority,some origin⟩,scheme)

def fromAbsolute (uri : UriParts) : Except TargetError ForwardTarget := do
  let (target,scheme) ← fromRepeat crate uri
  if scheme = .http then return target else throw .unsupportedScheme

-- The port is looked for before the host is read, and checked after it.
def fromConnect (uri : UriParts) : Except TargetError ForwardTarget := do
  if uri.scheme.isSome then throw .connectNotAuthorityForm
  let authority ← requireAuthority uri.authority
  if (crate.portU16 authority).isNone then throw .missingConnectPort
  let host ← parseHost crate authority
  let port ← parsePort crate authority (.error .missingConnectPort)
  return ⟨host,port,authority,none⟩

theorem fromRepeat_ok (done : fromRepeat crate uri = .ok (target,scheme)) :
    ForwardScheme.parse uri.scheme = .ok scheme ∧ requireAuthority uri.authority = .ok target.authority ∧
      parseHost crate target.authority = .ok target.host ∧
      parsePort crate target.authority (.ok scheme.defaultPort) = .ok target.port ∧
      target.originUri = some uri.pathAndQuery := by
  obtain ⟨parsed,schemed,done⟩ := except_bind_ok done
  obtain ⟨authority,required,done⟩ := except_bind_ok done
  obtain ⟨host,named,done⟩ := except_bind_ok done
  obtain ⟨port,numbered,done⟩ := except_bind_ok done
  obtain ⟨origin,written,done⟩ := except_bind_ok done
  cases done
  refine ⟨schemed,required,named,numbered,?_⟩
  unfold parseOrigin at written
  split at written
  · cases written
    rfl
  · cases written

theorem fromAbsolute_repeat (done : fromAbsolute crate uri = .ok target) : fromRepeat crate uri = .ok (target,.http) := by
  obtain ⟨⟨found,scheme⟩,repeated,checked⟩ := except_bind_ok done
  dsimp only at checked
  split at checked
  · rename_i plain
    cases checked
    rw [repeated,plain]
  · cases checked

theorem fromAbsolute_ok (done : fromAbsolute crate uri = .ok target) :
    uri.scheme = some "http" ∧ requireAuthority uri.authority = .ok target.authority ∧
      parseHost crate target.authority = .ok target.host ∧
      parsePort crate target.authority (.ok ForwardScheme.http.defaultPort) = .ok target.port ∧
      target.originUri = some uri.pathAndQuery := by
  obtain ⟨schemed,rest⟩ := fromRepeat_ok crate (fromAbsolute_repeat crate done)
  refine ⟨?_,rest⟩
  unfold ForwardScheme.parse at schemed
  split at schemed
  · assumption
  · cases schemed
  · cases schemed

theorem fromConnect_ok (done : fromConnect crate uri = .ok target) :
    requireAuthority uri.authority = .ok target.authority ∧ parseHost crate target.authority = .ok target.host ∧
      parsePort crate target.authority (.error .missingConnectPort) = .ok target.port := by
  unfold fromConnect at done
  split at done
  · cases done
  · obtain ⟨authority,required,done⟩ := except_bind_ok done
    dsimp only at done
    split at done
    · cases done
    · obtain ⟨host,named,done⟩ := except_bind_ok done
      obtain ⟨port,numbered,done⟩ := except_bind_ok done
      cases done
      exact ⟨required,named,numbered⟩

end ForwardTarget

end Freja.Proxy
