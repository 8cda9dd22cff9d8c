import Freja.Audit.Event
import Freja.Foundation.FormUrlencoded

namespace Freja.Audit
open Domain Bytes

-- The URL crate as far as it is called: what it makes of the text before the
-- query, and the percent-encoding its parser applies to a query.
structure UrlCrate where
  Front : Type
  parseFront : String → Option Front
  username : Front → String
  password : Front → Option String
  setUsername : Front → String → Option Front
  setPassword : Front → Option String → Option Front
  normalizeQuery : List UInt8 → List UInt8
  write : Front → Option (List UInt8) → Option String → String

-- Splits at the first separator, which belongs to neither part.
def splitOnce (separator : Char) (text : String) : Option (String × String) :=
  match text.toList.dropWhile (· != separator) with
  | [] => none
  | _ :: after => some (String.ofList (text.toList.takeWhile (· != separator)),String.ofList after)

namespace UrlCrate

variable (urls : UrlCrate)

structure Url where
  front : urls.Front
  query : Option (List UInt8)
  fragment : Option String

def parse (text : String) : Option urls.Url :=
  let (rest,fragment) := ((splitOnce '#' text).map fun (left,right) => (left,some right)).getD (text,none)
  let (front,query) := ((splitOnce '?' rest).map fun (left,right) => (left,some right)).getD (rest,none)
  (urls.parseFront front).map fun parsed => ⟨parsed,query.map fun text => urls.normalizeQuery (utf8 text),fragment⟩

def queryPairs (url : urls.Url) : List (String × String) := FormUrlencoded.parse (url.query.getD [])

def text (url : urls.Url) : String := urls.write url.front url.query url.fragment

end UrlCrate

-- Refuses every text, as the URL crate does those without a scheme.
def noUrls : UrlCrate :=
  {Front := Unit,parseFront := fun _ => none,username := fun _ => "",password := fun _ => none,
    setUsername := fun _ _ => none,setPassword := fun _ _ => none,normalizeQuery := id,write := fun _ _ _ => ""}

structure Redactor where
  queryParameters : List String
  lower : ∀ name ∈ queryParameters, lowercase name = name

def redacted : String := "[REDACTED]"

def isSecretHeader (name : String) : Bool :=
  ["authorization","proxy-authorization","cookie","set-cookie"].contains (lowercase name)

namespace Redactor

def new (parameters : List String) : Redactor :=
  ⟨parameters.map lowercase,by
    intro name member
    obtain ⟨given,_,rfl⟩ := List.mem_map.mp member
    exact lowercase_lowercase given⟩

variable (redactor : Redactor) (urls : UrlCrate)

def isSecretParameter (name : String) : Bool := redactor.queryParameters.contains (lowercase name)

def redactPair (pair : String × String) : String × String :=
  (pair.1,if redactor.isSecretParameter pair.1 then redacted else pair.2)

def redactHeaders (headers : AuditHeaders) : AuditHeaders :=
  headers.mapValues fun name values => if isSecretHeader name then [redacted] else values

def redactQuery (query : List UInt8) : List UInt8 :=
  FormUrlencoded.serialize ((FormUrlencoded.parse query).map redactor.redactPair)

-- A serialized query is plain ASCII.
def queryText (query : List UInt8) : String := String.ofList (query.map fun byte => Char.ofNat byte.toNat)

def redactOriginForm (target : String) : String :=
  let (withoutFragment,fragment) := ((splitOnce '#' target).map fun (left,right) => (left,some right)).getD (target,none)
  match splitOnce '?' withoutFragment with
  | none => target
  | some (path,rawQuery) =>
      let query := queryText (redactor.redactQuery (utf8 rawQuery))
      match fragment with
      | none => path ++ "?" ++ query
      | some fragment => path ++ "?" ++ query ++ "#" ++ fragment

def hideUserinfo (front : urls.Front) : Option urls.Front :=
  (urls.setUsername front redacted).bind fun hidden => urls.setPassword hidden none

def redactUrl (target : String) (url : urls.Url) : String :=
  let hasUserinfo := urls.username url.front != "" || (urls.password url.front).isSome
  match if hasUserinfo then hideUserinfo urls url.front else some url.front with
  | none => "[REDACTED URL WITH USERINFO]"
  | some front =>
      let pairs := urls.queryPairs url
      if pairs.isEmpty && !hasUserinfo then target
      else if pairs.isEmpty then urls.text ⟨front,url.query,url.fragment⟩
      else urls.text ⟨front,some (FormUrlencoded.serialize (pairs.map redactor.redactPair)),url.fragment⟩

def redactTarget (target : String) : String :=
  match urls.parse target with
  | some url => redactor.redactUrl urls target url
  | none => redactor.redactOriginForm target

def redactSanitizedHeaders (headers : SanitizedHeaders) : SanitizedHeaders :=
  SanitizedHeaders.new (headers.fields.entries.map fun entry =>
    (entry.1,if isSecretHeader entry.1 then [ascii redacted] else entry.2))

def redactEvent : AuditEvent → AuditEvent
  | .httpRequestObserved method target headers =>
      .httpRequestObserved method (redactor.redactTarget urls target) (redactHeaders headers)
  | .httpResponseObserved status headers => .httpResponseObserved status (redactHeaders headers)
  | .replayFactsObserved (.httpRequest facts) =>
      .replayFactsObserved (.httpRequest (.new facts.target facts.method (redactor.redactTarget urls facts.path)
        (redactSanitizedHeaders facts.headers)))
  | .replayFactsObserved (.httpResponse facts) =>
      .replayFactsObserved (.httpResponse ⟨facts.target,facts.status,redactSanitizedHeaders facts.headers⟩)
  | event => event

theorem redactEvent_ordinary {event : AuditEvent} (same : redactor.redactEvent urls event = .signedCheckpoint checkpoint) :
    event = .signedCheckpoint checkpoint := by
  unfold redactEvent at same
  split at same
  all_goals first
    | exact same
    | cases same

end Redactor

end Freja.Audit
