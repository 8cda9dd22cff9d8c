import Freja.Foundation.Bytes
import Freja.Foundation.IpAddress
import Freja.Foundation.Splitting

namespace Freja.Domain
open Bytes IpAddress Splitting

def maximumDnsNameBytes : Nat := 253
def maximumDnsLabelBytes : Nat := 63

inductive EndpointError where
  | emptyHost
  | hostTooLong
  | emptyLabel
  | labelTooLong (label : String)
  | invalidHostCharacter (character : Char)
  | invalidLabelBoundary (label : String)
  | zeroPort
  | missingPort
  | invalidPort (value : String)
  deriving DecidableEq, Repr

def isLabelCharacter (character : Char) : Bool := character.isAlphanum || character == '-'

def checkLabel (label : List Char) : Except EndpointError Unit :=
  if label.isEmpty then .error .emptyLabel
  else if (String.ofList label).utf8ByteSize > maximumDnsLabelBytes then .error (.labelTooLong (String.ofList label))
  else if label.head? == some '-' || label.getLast? == some '-' then
    .error (.invalidLabelBoundary (String.ofList label))
  else
    match label.find? (fun character => !isLabelCharacter character) with
    | some character => .error (.invalidHostCharacter character)
    | none => .ok ()

def checkHostName (normalized : String) : Except EndpointError Unit :=
  if normalized.isEmpty then .error .emptyHost
  else if normalized.utf8ByteSize > maximumDnsNameBytes then .error .hostTooLong
  else (normalized.toList.splitOn '.').forM checkLabel

-- A host name is kept in its normalized form: lower case, one root dot removed.
structure HostName where
  text : String
  lower : lowercase text = text
  valid : checkHostName text = .ok ()
  deriving DecidableEq, Repr

def stripRootDot (value : String) : String :=
  if value.toList.getLast? = some '.' then String.ofList value.toList.dropLast else value

def HostName.new (value : String) : Except EndpointError HostName :=
  let normalized := lowercase (stripRootDot value)
  match outcome : checkHostName normalized with
  | .ok () => .ok ⟨normalized,lowercase_lowercase _,outcome⟩
  | .error error => .error error

inductive TargetHost where
  | ip (address : IpAddr)
  | name (name : HostName)
  deriving DecidableEq, Repr

def TargetHost.asHostText : TargetHost → String
  | .ip address => format address
  | .name host => host.text

-- An address literal may stand in brackets.
def stripBrackets (value : String) : String :=
  match value.toList with
  | '[' :: rest => if rest.getLast? = some ']' then String.ofList rest.dropLast else value
  | _ => value

-- `parseIp` is the address parser of the standard library.
def TargetHost.parse (parseIp : String → Option IpAddr) (value : String) : Except EndpointError TargetHost :=
  match parseIp (stripBrackets value) with
  | some address => .ok (.ip address)
  | none => (HostName.new value).map .name

structure Port where
  value : Nat
  range : 0 < value ∧ value ≤ 65535
  deriving DecidableEq, Repr

theorem Port.https : 0 < 443 ∧ 443 ≤ 65535 := by decide

theorem Port.http : 0 < 80 ∧ 80 ≤ 65535 := by decide

def Port.new (value : Nat) : Except EndpointError Port :=
  if range : 0 < value ∧ value ≤ 65535 then .ok ⟨value,range⟩ else .error .zeroPort

structure UpstreamEndpoint where
  host : TargetHost
  port : Port
  deriving DecidableEq, Repr

-- The readers of the standard library for an address and for a socket address.
structure StdNet where
  parseIp : String → Option IpAddr
  parseSocket : String → Option (IpAddr × Nat)

-- A plus sign may stand before the digits.
def parseU16 (text : List Char) : Option Nat :=
  let digits := if text.head? = some '+' then text.tail else text
  if digits.isEmpty || !digits.all Char.isDigit then none
  else if Nat.ofDigitChars 10 digits 0 ≤ 65535 then some (Nat.ofDigitChars 10 digits 0)
  else none

def UpstreamEndpoint.fromStr (std : StdNet) (value : String) : Except EndpointError UpstreamEndpoint :=
  match std.parseSocket value with
  | some (address,port) => (Port.new port).map (fun port => ⟨.ip address,port⟩)
  | none =>
      match rsplitOnce ':' value.toList with
      | none => .error .missingPort
      | some (host,port) =>
          match parseU16 port with
          | none => .error (.invalidPort (String.ofList port))
          | some number => do
              let host ← TargetHost.parse std.parseIp (String.ofList host)
              let port ← Port.new number
              return ⟨host,port⟩

def Port.text (port : Port) : String := String.ofList (Nat.toDigits 10 port.value)

def UpstreamEndpoint.text (endpoint : UpstreamEndpoint) : String :=
  match endpoint.host with
  | .ip (.v6 segments eight) => "[" ++ format (.v6 segments eight) ++ "]:" ++ endpoint.port.text
  | host => host.asHostText ++ ":" ++ endpoint.port.text

structure SocketAddr where
  ip : IpAddr
  port : Port
  deriving DecidableEq, Repr

end Freja.Domain
