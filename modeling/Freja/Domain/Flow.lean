import Freja.Domain.Decision
import Freja.Foundation.OrderedMap

namespace Freja.Domain
open Bytes IpAddress

structure RequestedTargetFacts where
  sourceIp : IpAddr
  requestedHost : TargetHost
  destinationPort : Port
  protocol : Protocol
  deriving DecidableEq, Repr

structure ResolvedTargetFacts where
  requested : RequestedTargetFacts
  resolvedIp : IpAddr
  deriving DecidableEq, Repr

-- Header names are lower case and each name holds its values in order.
structure SanitizedHeaders where
  fields : OrderedMap String (List (List UInt8))
  deriving DecidableEq, Repr

namespace SanitizedHeaders

def add (fields : OrderedMap String (List (List UInt8))) (header : String × List (List UInt8)) :
    OrderedMap String (List (List UInt8)) :=
  fields.upsert (lowercase header.1) (fun present => present.getD [] ++ header.2)

def new (headers : List (String × List (List UInt8))) : SanitizedHeaders :=
  ⟨headers.foldl add .empty⟩

def values (headers : SanitizedHeaders) (name : String) : Option (List (List UInt8)) :=
  headers.fields.get? (lowercase name)

end SanitizedHeaders

structure HttpRequestFacts where
  target : ResolvedTargetFacts
  method : String
  path : String
  headers : SanitizedHeaders
  deriving DecidableEq, Repr

def HttpRequestFacts.new (target : ResolvedTargetFacts) (method path : String) (headers : SanitizedHeaders) :
    HttpRequestFacts :=
  ⟨target,uppercase method,path,headers⟩

structure HttpStatusCode where
  value : Nat
  threeDigits : 100 ≤ value ∧ value ≤ 999
  deriving DecidableEq, Repr

structure HttpResponseFacts where
  target : ResolvedTargetFacts
  status : HttpStatusCode
  headers : SanitizedHeaders
  deriving DecidableEq, Repr

inductive ReplayFacts where
  | requested (facts : RequestedTargetFacts)
  | resolved (facts : ResolvedTargetFacts)
  | httpRequest (facts : HttpRequestFacts)
  | httpResponse (facts : HttpResponseFacts)
  | finding (finding : Finding) (protocol : Protocol)
  deriving DecidableEq, Repr

end Freja.Domain
