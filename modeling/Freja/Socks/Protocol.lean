import Freja.Foundation.FormUrlencoded
import Freja.Foundation.Reading
import Freja.Proxy.Services

namespace Freja.Socks
open Domain Audit Effect Bytes IpAddress

def socksVersion : UInt8 := 5
def authVersion : UInt8 := 1
def authNone : UInt8 := 0
def authUsernamePassword : UInt8 := 2
def authUnacceptable : UInt8 := 0xff
def authSuccess : UInt8 := 0
def authFailure : UInt8 := 1
def socksCommandConnect : UInt8 := 1
def socksReserved : UInt8 := 0
def addressTypeIpv4 : UInt8 := 1
def addressTypeDomain : UInt8 := 3
def addressTypeIpv6 : UInt8 := 4

inductive SocksReply where
  | succeeded
  | generalFailure
  | connectionNotAllowed
  | hostUnreachable
  | connectionRefused
  | ttlExpired
  | commandNotSupported
  | addressTypeNotSupported
  deriving DecidableEq, Repr

def SocksReply.code : SocksReply → UInt8
  | .succeeded => 0
  | .generalFailure => 1
  | .connectionNotAllowed => 2
  | .hostUnreachable => 4
  | .connectionRefused => 5
  | .ttlExpired => 6
  | .commandNotSupported => 7
  | .addressTypeNotSupported => 8

inductive SocksError where
  | io (stage : String)
  | unsupportedVersion
  | noAcceptableAuthentication
  | authenticationFailed
  | unsupportedCommand
  | unsupportedAddressType
  | malformedRequest
  | invalidDomainEncoding
  | invalidTarget (error : EndpointError)
  deriving DecidableEq, Repr

def SocksError.text : SocksError → String
  | .io stage => "SOCKS5 " ++ stage ++ " I/O failed"
  | .unsupportedVersion => "unsupported SOCKS version"
  | .noAcceptableAuthentication => "client offered no acceptable SOCKS5 authentication method"
  | .authenticationFailed => "SOCKS5 authentication failed"
  | .unsupportedCommand => "unsupported SOCKS5 command"
  | .unsupportedAddressType => "unsupported SOCKS5 address type"
  | .malformedRequest => "malformed SOCKS5 request"
  | .invalidDomainEncoding => "SOCKS5 domain is not valid UTF-8"
  | .invalidTarget _ => "SOCKS5 target is invalid"

inductive ConnectError where
  | timedOut
  | failed
  | unresolved
  | shutdown
  deriving DecidableEq, Repr

inductive SessionError where
  | socks (error : SocksError)
  | denied (error : Proxy.ProxyError)
  | unconnected (error : ConnectError)
  deriving DecidableEq, Repr

-- A session with its client: what the client still sends until it closes, what
-- it was answered, which authentications were audited, and the target that was
-- handed to the destination authorization.
structure Session where
  input : List UInt8
  written : List UInt8
  audited : List AuthenticationOutcome
  authorizing : Option RequestedTargetFacts
  deriving DecidableEq, Repr

def Session.start (stream : List UInt8) : Session := ⟨stream,[],[],none⟩

abbrev SocksTask := EStateM SessionError Session

def readExact (count : Nat) (stage : String) : SocksTask (Vector UInt8 count) :=
  takeExact Session.input (fun session rest => {session with input := rest}) count (.socks (.io stage))

def writeAll (bytes : List UInt8) : SocksTask Unit :=
  modify (fun session => {session with written := session.written ++ bytes})

def publishAuthentication (authenticated : Bool) : SocksTask Unit :=
  modify (fun session =>
    {session with audited := session.audited ++ [if authenticated then .accepted else .rejected]})

def fail (error : SocksError) : SocksTask α := throw (.socks error)

-- A reply without a bound address names the unspecified one.
def sendReply (status : SocksReply) (bound : Option (IpAddr × Nat)) : SocksTask Unit :=
  let (address,port) := bound.getD (.v4 0 0 0 0,0)
  let addressType := match address with
    | .v4 _ _ _ _ => addressTypeIpv4
    | .v6 _ _ => addressTypeIpv6
  writeAll ([socksVersion,status.code,socksReserved,addressType] ++ address.octets ++ bigEndian 2 port)

def constantTimeEqual (left right : List UInt8) : Bool :=
  left.length == right.length &&
    (left.zip right).foldl (fun difference pair => difference ||| (pair.1 ^^^ pair.2)) 0 == 0

variable (sha256 : List UInt8 → Digest) (parseIp : String → Option IpAddr)

def authenticateUsernamePassword (expected : Digest) : SocksTask Bool := do
  let header ← readExact 2 "authentication username"
  if header.get 0 != authVersion || header.get 1 == 0 then return false
  else
    let username ← readExact (header.get 1).toNat "authentication username"
    let passwordLength ← readExact 1 "authentication password length"
    if passwordLength.get 0 == 0 then return false
    else
      let password ← readExact (passwordLength.get 0).toNat "authentication password"
      return constantTimeEqual (sha256 (username.toList ++ 58 :: password.toList)).toList expected.toList

def desiredMethod (authentication : Option Digest) : UInt8 :=
  if authentication.isSome then authUsernamePassword else authNone

-- The outcome of a username and password is audited and answered either way.
def settleAuthentication (authenticated : Bool) : SocksTask Unit := do
  publishAuthentication authenticated
  writeAll [authVersion,if authenticated then authSuccess else authFailure]
  if authenticated then return () else fail .authenticationFailed

def negotiateAuthentication (authentication : Option Digest) : SocksTask Unit := do
  let greeting ← readExact 2 "greeting"
  if greeting.get 0 != socksVersion then fail .unsupportedVersion
  else
    let methods ← readExact (greeting.get 1).toNat "authentication methods"
    if !methods.toList.contains (desiredMethod authentication) then
      writeAll [socksVersion,authUnacceptable]
      fail .noAcceptableAuthentication
    else
      writeAll [socksVersion,desiredMethod authentication]
      match authentication with
      | none => return ()
      | some expected =>
          let authenticated ← authenticateUsernamePassword sha256 expected
          settleAuthentication authenticated

-- Strict decoding: what is written back is what was read.
def fromUtf8 (bytes : List UInt8) : Option String :=
  let text := String.ofList (Utf8.decodeLossy bytes)
  if utf8 text = bytes then some text else none

def parseDomain (name : List UInt8) : Except SessionError TargetHost :=
  match fromUtf8 name with
  | none => .error (.socks .invalidDomainEncoding)
  | some text => (TargetHost.parse parseIp text).mapError (fun error => .socks (.invalidTarget error))

def readHost (addressType : UInt8) : SocksTask TargetHost :=
  if addressType = addressTypeIpv4 then do
    let octets ← readExact 4 "IPv4 address"
    return .ip (.v4 (octets.get 0) (octets.get 1) (octets.get 2) (octets.get 3))
  else if addressType = addressTypeDomain then do
    let length ← readExact 1 "domain length"
    if length.get 0 == 0 then fail .malformedRequest
    else
      let name ← readExact (length.get 0).toNat "domain"
      MonadExcept.ofExcept (parseDomain parseIp name.toList)
  else if addressType = addressTypeIpv6 then do
    let octets ← readExact 16 "IPv6 address"
    return .ip (.ofOctets16 octets)
  else do
    sendReply .addressTypeNotSupported none
    fail .unsupportedAddressType

def readPort : SocksTask Port := do
  let port ← readExact 2 "destination port"
  MonadExcept.ofExcept ((Port.new ((port.get 0).toNat * 256 + (port.get 1).toNat)).mapError
    (fun error => .socks (.invalidTarget error)))

def readRequest : SocksTask (TargetHost × Port) := do
  let header ← readExact 4 "request header"
  if header.get 0 != socksVersion || header.get 2 != socksReserved then fail .malformedRequest
  else if header.get 1 != socksCommandConnect then
    sendReply .commandNotSupported none
    fail .unsupportedCommand
  else
    let host ← readHost parseIp (header.get 3)
    let port ← readPort
    return (host,port)

def replyForProxyError : ConnectError → SocksReply
  | .timedOut => .ttlExpired
  | .failed => .connectionRefused
  | .unresolved => .hostUnreachable
  | .shutdown => .generalFailure

-- What becomes of the target lies with the policy and the network; the answer is
-- the input with which the relay starts.
def openRelay (authorizeAndResolve : RequestedTargetFacts → Except Proxy.ProxyError (List SocketAddr))
    (connectAny : List SocketAddr → Except ConnectError (Option (IpAddr × Nat))) (requested : RequestedTargetFacts) :
    SocksTask (List UInt8) :=
  match authorizeAndResolve requested with
  | .error error => do
      sendReply .connectionNotAllowed none
      throw (.denied error)
  | .ok addresses =>
      match connectAny addresses with
      | .error error => do
          sendReply (replyForProxyError error) none
          throw (.unconnected error)
      | .ok bound => do
          sendReply .succeeded bound
          return (← get).input

def runSocksSession (authentication : Option Digest) (peer : IpAddr)
    (authorizeAndResolve : RequestedTargetFacts → Except Proxy.ProxyError (List SocketAddr))
    (connectAny : List SocketAddr → Except ConnectError (Option (IpAddr × Nat))) : SocksTask (List UInt8) := do
  negotiateAuthentication sha256 authentication
  let (host,port) ← readRequest parseIp
  let requested : RequestedTargetFacts := ⟨peer,host,port,.tcp⟩
  modify (fun session => {session with authorizing := some requested})
  openRelay authorizeAndResolve connectAny requested

end Freja.Socks
