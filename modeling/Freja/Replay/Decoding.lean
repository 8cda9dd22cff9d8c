import Freja.Audit.Record
import Freja.Domain.HostText
import Freja.Proxy.Headers

namespace Freja

namespace Json

def field? (name : String) : Json → Option Json
  | .object fields => fields.lookup name
  | _ => none

def text? : Json → Option String
  | .string text => some text
  | _ => none

def number? : Json → Option Nat
  | .number value => some value
  | _ => none

def readAll (read : α → Option β) : List α → Option (List β)
  | [] => some []
  | item :: rest => (read item).bind fun value => (readAll read rest).map (value :: ·)

def items? (read : Json → Option α) : Json → Option (List α)
  | .array items => readAll read items
  | _ => none

def byte? (json : Json) : Option UInt8 :=
  json.number?.bind fun value => if value < 256 then some (UInt8.ofNat value) else none

theorem readAll_map (write : α → β) (read : β → Option γ) (again : α → γ)
    (back : ∀ item, read (write item) = some (again item)) (items : List α) :
    readAll read (items.map write) = some (items.map again) := by
  induction items with
  | nil => rfl
  | cons item rest ih =>
      simp only [List.map_cons,readAll,back,ih,Option.bind_some,Option.map_some]

theorem byteArray_read (bytes : List UInt8) : items? byte? (byteArray bytes) = some bytes := by
  have one (byte : UInt8) : byte? (.number byte.toNat) = some (id byte) := by
    simp [byte?,number?,byte.toNat_lt]
  have all := readAll_map (fun byte : UInt8 => Json.number byte.toNat) byte? id one bytes
  rwa [List.map_id] at all

end Json

namespace Domain
open IpAddress Json

def HttpStatusCode.ofJson (json : Json) : Option HttpStatusCode :=
  json.number?.bind fun value => if valid : 100 ≤ value ∧ value ≤ 999 then some ⟨value,valid⟩ else none

def Port.ofJson (json : Json) : Option Port := json.number?.bind fun value => (Port.new value).toOption

def Protocol.ofText : String → Option Protocol
  | "tcp" => some .tcp
  | "http" => some .http
  | _ => none

-- The values of a name are lists of byte values. Names written twice replace one another,
-- and all are put in lower case again.
def SanitizedHeaders.ofJson : Json → Option SanitizedHeaders
  | .object fields =>
      (readAll (fun field => (items? (items? byte?) field.2).map (field.1,·)) fields).map fun entries =>
        .new (OrderedMap.insertAll entries .empty).entries
  | _ => none

section

variable (parseIp : String → Option IpAddr)

def addressOfJson (json : Json) : Option IpAddr := json.text?.bind parseIp

def RequestedTargetFacts.ofJson (json : Json) : Option RequestedTargetFacts := do
  let sourceIp ← (json.field? "source_ip").bind (addressOfJson parseIp)
  let requestedHost ← (json.field? "requested_host").bind (TargetHost.ofJson parseIp)
  let destinationPort ← (json.field? "destination_port").bind Port.ofJson
  let protocol ← ((json.field? "protocol").bind text?).bind Protocol.ofText
  return ⟨sourceIp,requestedHost,destinationPort,protocol⟩

def ResolvedTargetFacts.ofJson (json : Json) : Option ResolvedTargetFacts := do
  let requested ← (json.field? "requested").bind (RequestedTargetFacts.ofJson parseIp)
  let resolvedIp ← (json.field? "resolved_ip").bind (addressOfJson parseIp)
  return ⟨requested,resolvedIp⟩

def HttpRequestFacts.ofJson (json : Json) : Option HttpRequestFacts := do
  let target ← (json.field? "target").bind (ResolvedTargetFacts.ofJson parseIp)
  let method ← (json.field? "method").bind text?
  let path ← (json.field? "path").bind text?
  let headers ← (json.field? "headers").bind SanitizedHeaders.ofJson
  return ⟨target,method,path,headers⟩

def HttpResponseFacts.ofJson (json : Json) : Option HttpResponseFacts := do
  let target ← (json.field? "target").bind (ResolvedTargetFacts.ofJson parseIp)
  let status ← (json.field? "status").bind HttpStatusCode.ofJson
  let headers ← (json.field? "headers").bind SanitizedHeaders.ofJson
  return ⟨target,status,headers⟩

-- A host as it comes back from its text.
def TargetHost.reread : TargetHost → TargetHost
  | .ip address => .ip address
  | .name host =>
      match parseIp host.text with
      | some address => .ip address
      | none => .name host

def RequestedTargetFacts.reread (facts : RequestedTargetFacts) : RequestedTargetFacts :=
  {facts with requestedHost := facts.requestedHost.reread parseIp}

def ResolvedTargetFacts.reread (facts : ResolvedTargetFacts) : ResolvedTargetFacts :=
  {facts with requested := facts.requested.reread parseIp}

end

theorem HttpStatusCode.ofJson_number (status : HttpStatusCode) : ofJson (.number status.value) = some status :=
  dif_pos status.threeDigits

theorem Port.ofJson_number (port : Port) : Port.ofJson (.number port.value) = some port := by
  unfold Port.ofJson number?
  rw [Option.bind_some,port.new_value]
  rfl

theorem Protocol.ofText_text (protocol : Protocol) : ofText protocol.text = some protocol := by
  cases protocol <;> rfl

theorem SanitizedHeaders.ofJson_json (headers : SanitizedHeaders) :
    ofJson headers.json = some (.new headers.fields.entries) := by
  have values (values : List (List UInt8)) : items? (items? byte?) (.array (values.map byteArray)) = some values := by
    have all := readAll_map byteArray (items? byte?) id byteArray_read values
    rwa [List.map_id] at all
  have entries := readAll_map (fun entry : String × List (List UInt8) => (entry.1,Json.array (entry.2.map byteArray)))
    (fun field => (items? (items? byte?) field.2).map (field.1,·)) id (fun entry => by simp [values])
    headers.fields.entries
  rw [List.map_id] at entries
  unfold ofJson SanitizedHeaders.json
  dsimp only
  rw [entries,Option.map_some,OrderedMap.insertAll_entries]

section

variable {std : StdNet} (documented : std.Documented)

include documented

theorem address_read (ip : IpAddr) : addressOfJson std.parseIp (addressJson ip) = some ip :=
  documented.address ip

theorem TargetHost.ofJson_json (host : TargetHost) :
    TargetHost.ofJson std.parseIp host.json = some (host.reread std.parseIp) := by
  cases host with
  | ip address =>
      unfold TargetHost.ofJson TargetHost.json TargetHost.asHostText
      dsimp only
      rw [documented.address]
      rfl
  | name host =>
      unfold TargetHost.ofJson TargetHost.json TargetHost.asHostText TargetHost.reread
      dsimp only
      rw [host.new_text]
      cases std.parseIp host.text <;> rfl

theorem RequestedTargetFacts.ofJson_json (facts : RequestedTargetFacts) :
    ofJson std.parseIp facts.json = some (facts.reread std.parseIp) := by
  simp [ofJson,json,field?,text?,List.lookup,address_read documented,TargetHost.ofJson_json documented,
    Port.ofJson_number,Protocol.ofText_text,reread]

theorem ResolvedTargetFacts.ofJson_json (facts : ResolvedTargetFacts) :
    ofJson std.parseIp facts.json = some (facts.reread std.parseIp) := by
  simp [ofJson,json,field?,List.lookup,address_read documented,RequestedTargetFacts.ofJson_json documented,reread]

theorem HttpRequestFacts.ofJson_json (facts : HttpRequestFacts) :
    ofJson std.parseIp facts.json =
      some ⟨facts.target.reread std.parseIp,facts.method,facts.path,.new facts.headers.fields.entries⟩ := by
  simp [ofJson,json,field?,text?,List.lookup,ResolvedTargetFacts.ofJson_json documented,SanitizedHeaders.ofJson_json]

theorem HttpResponseFacts.ofJson_json (facts : HttpResponseFacts) :
    ofJson std.parseIp facts.json =
      some ⟨facts.target.reread std.parseIp,facts.status,.new facts.headers.fields.entries⟩ := by
  simp [ofJson,json,field?,List.lookup,ResolvedTargetFacts.ofJson_json documented,SanitizedHeaders.ofJson_json,
    HttpStatusCode.ofJson_number]

end

end Domain

end Freja
