import Freja.Audit.UserInformation
import Freja.Proxy.SecretRequests
import Freja.Replay.Audit
import Freja.Replay.Decoding

namespace Freja.Replay
open Domain Policy Audit Proxy Bytes Json IpAddress Effect

-- What the rules are evaluated on offline. The facts of a finding are for the inspection
-- rules and are not read here.
def policyFactsOfJson (parseIp : String → Option IpAddr) (json : Json) : Option PolicyFacts := do
  let stage ← (json.field? "stage").bind text?
  let facts ← json.field? "facts"
  match stage with
  | "requested" => (RequestedTargetFacts.ofJson parseIp facts).map .requested
  | "resolved" => (ResolvedTargetFacts.ofJson parseIp facts).map .resolved
  | "http-request" => (HttpRequestFacts.ofJson parseIp facts).map .httpRequest
  | "http-response" => (HttpResponseFacts.ofJson parseIp facts).map .httpResponse
  | _ => none

def recordedFacts (parseIp : String → Option IpAddr) (record : Json) : Option PolicyFacts :=
  (((record.field? "event").bind (field? "event")).bind (field? "facts")).bind (policyFactsOfJson parseIp)

structure SameVerdict (live replayed : Decision) : Prop where
  rule : live.trace.matchedRule = replayed.trace.matchedRule
  action : live.action = replayed.action

-- The path of a request as the policy sees it: what follows the authority of a target, or
-- the authority that CONNECT names.
inductive RecordedPath : String → Option String → Prop
  | origin (split : Split front query) (start : front.toList.head? = some '/' ∨ front = "*" ∨ front = "") :
      RecordedPath front query
  | authority (plain : ∀ character ∈ front.toList, character ≠ '?' ∧ character ≠ '#' ∧ character ≠ '@') :
      RecordedPath front none

-- What the URL standard says of texts without a base: those that begin with a slash, the
-- asterisk and the empty text are relative, and user information stands before an at sign.
structure UrlCrate.Absolute (urls : UrlCrate) : Prop where
  relative : ∀ front : String, front.toList.head? = some '/' ∨ front = "*" ∨ front = "" → urls.parseFront front = none
  userless : ∀ (front : String) parsed, '@' ∉ front.toList → urls.parseFront front = some parsed →
    ¬ urls.HasUserinfo parsed

def NamesNoSecret (redactor : Redactor) (query : Option String) : Prop :=
  ∀ text, query = some text → ∀ pair ∈ FormUrlencoded.parse (utf8 text), redactor.isSecretParameter pair.1 = false

-- A query in the very form in which the form serializer writes parameters.
def SerializedQuery (query : Option String) : Prop :=
  ∀ text, query = some text → ∃ pairs, utf8 text = FormUrlencoded.serialize pairs

-- A host name that does not read as an address.
def PlainHost (parseIp : String → Option IpAddr) (host : TargetHost) : Prop :=
  ∀ name, host = .name name → parseIp name.text = none

theorem recordedFacts_json (parseIp : String → Option IpAddr) (record : AuditRecord)
    (event : record.event = .replayFactsObserved facts) :
    recordedFacts parseIp record.json = policyFactsOfJson parseIp facts.json := by
  have found : record.json.field? "event" = some record.event.json := by
    unfold AuditRecord.json
    cases record.transactionId <;> cases record.previousHash <;> rfl
  unfold recordedFacts
  rw [found,event]
  rfl

theorem forwarded_recorded (crate : HttpCrate) (uri : Uri)
    (done : ForwardTarget.fromRepeat crate uri.toUriParts = .ok (target,scheme)) :
    ∃ front query, uri.pathAndQuery = withQuery front query ∧ RecordedPath front query := by
  obtain ⟨_,_,done⟩ := except_bind_ok done
  obtain ⟨_,_,done⟩ := except_bind_ok done
  obtain ⟨_,_,done⟩ := except_bind_ok done
  obtain ⟨_,_,done⟩ := except_bind_ok done
  obtain ⟨_,written,_⟩ := except_bind_ok done
  have slash : uri.pathAndQuery.toList.head? = some '/' := by
    unfold parseOrigin at written
    split at written
    · assumption
    · cases written
  by_cases root : uri.pathAndQuery = "/"
  · refine ⟨"/",none,root,.origin ⟨?_,?_⟩ (.inl rfl)⟩
    · refine List.all_iff_forall_prop.mp ?_
      decide +kernel
    · intro text none
      cases none
  · have whole : uri.pathAndQuery = withQuery uri.path uri.query := by
      unfold UriParts.pathAndQuery at root ⊢
      split
      · split
        · rename_i outer inner
          exact absurd (by rw [if_pos outer,if_pos inner]) root
        · rfl
      · rename_i outer
        exact absurd (by rw [if_neg outer]) root
    refine ⟨uri.path,uri.query,whole,.origin uri.splitPath ?_⟩
    rw [whole] at slash
    by_cases empty : uri.path = ""
    · exact .inr (.inr empty)
    · left
      cases query : uri.query with
      | none =>
          rw [query] at slash
          exact slash
      | some =>
          rw [query] at slash
          simp only [withQuery,String.toList_append,List.append_assoc] at slash
          rwa [List.head?_append_of_ne_nil _ (by simpa using empty)] at slash

theorem connect_recorded (crate : HttpCrate) (uri : Uri)
    (done : ForwardTarget.fromConnect crate uri.toUriParts = .ok target) : RecordedPath target.authority none := by
  have required := (ForwardTarget.fromConnect_ok crate done).1
  unfold requireAuthority at required
  split at required
  · rename_i authority given
    unfold rejectUserinfo at required
    split at required
    · cases required
    · rename_i userless
      cases required
      refine .authority (fun character member => ?_)
      have inside : character ∈ uri.front.toList := by
        unfold UriParts.front
        rw [given]
        simp [member]
      obtain ⟨question,fragment⟩ := uri.split.plain character inside
      refine ⟨question,fragment,?_⟩
      intro same
      subst same
      exact userless (by simpa using member)
  · cases required

section Rewriting

theorem utf8_queryText (bytes : List UInt8) (ascii : ∀ byte ∈ bytes, byte.toNat < 128) :
    utf8 (Redactor.queryText bytes) = bytes := by
  have one : ∀ code < 128, String.utf8EncodeChar (Char.ofNat code) = [UInt8.ofNat code] := by decide
  unfold utf8 Redactor.queryText
  rw [String.toList_ofList]
  induction bytes with
  | nil => rfl
  | cons byte rest ih =>
      have here := one byte.toNat (ascii byte List.mem_cons_self)
      have later := ih (fun other member => ascii other (List.mem_cons_of_mem _ member))
      rw [List.map_cons,List.flatMap_cons,here,later,UInt8.ofNat_toNat]
      rfl

variable (redactor : Redactor) (urls : UrlCrate)

def rewritten (text : String) : String := Redactor.queryText (redactor.redactQuery (utf8 text))

theorem redactQuery_open (open_ : NamesNoSecret redactor (some text)) :
    redactor.redactQuery (utf8 text) = FormUrlencoded.serialize (FormUrlencoded.parse (utf8 text)) := by
  have kept : (FormUrlencoded.parse (utf8 text)).map redactor.redactPair = FormUrlencoded.parse (utf8 text) := by
    conv_rhs => rw [← List.map_id (FormUrlencoded.parse (utf8 text))]
    apply List.map_congr_left
    intro pair member
    simp [Redactor.redactPair,open_ text rfl pair member]
  rw [Redactor.redactQuery,kept]

theorem rewritten_eq (open_ : NamesNoSecret redactor (some text)) :
    rewritten redactor text = text ↔ ∃ pairs, utf8 text = FormUrlencoded.serialize pairs := by
  have bytes : utf8 (rewritten redactor text) = FormUrlencoded.serialize (FormUrlencoded.parse (utf8 text)) := by
    unfold rewritten
    rw [redactQuery_open redactor open_]
    exact utf8_queryText _ (FormUrlencoded.serialize_ascii _)
  constructor
  · intro same
    rw [same] at bytes
    exact ⟨_,bytes⟩
  · rintro ⟨pairs,written⟩
    apply utf8_injective
    rw [bytes,written,FormUrlencoded.parse_serialize]

theorem redactTarget_recorded (absolute : UrlCrate.Absolute urls) (path : RecordedPath front query) :
    redactor.redactTarget urls (withQuery front query) = withQuery front (query.map (rewritten redactor)) := by
  cases path with
  | origin split start =>
      unfold Redactor.redactTarget
      rw [urls.parse_split split,absolute.relative front start]
      exact redactor.redactOriginForm_split split
  | authority plain =>
      have split : Split front none :=
        ⟨fun character member => ⟨(plain character member).1,(plain character member).2.1⟩,(fun _ none => by cases none)⟩
      unfold Redactor.redactTarget
      rw [urls.parse_split split]
      cases parsed : urls.parseFront front with
      | none => exact redactor.redactOriginForm_split split
      | some found =>
          have userless := absolute.userless front found (fun member => (plain '@' member).2.2 rfl) parsed
          have hidden : (urls.username found != "" || (urls.password found).isSome) = false := by
            simpa [UrlCrate.HasUserinfo] using userless
          have absent : (urls.queryPairs ⟨found,none,none⟩).isEmpty = true := rfl
          simp only [Option.map_some,Option.map_none,Redactor.redactUrl,hidden,absent,Bool.false_eq_true,if_false,
            Bool.not_false,Bool.and_self,if_true]

theorem withQuery_inj (front : String) (left right : Option String) (shape : left.isSome = right.isSome) :
    withQuery front left = withQuery front right ↔ left = right := by
  refine ⟨fun same => ?_,fun same => by rw [same]⟩
  cases left with
  | none =>
      cases right with
      | none => rfl
      | some => cases shape
  | some =>
      cases right with
      | none => cases shape
      | some =>
          have lists := congrArg String.toList same
          simp only [withQuery,String.toList_append] at lists
          rw [String.toList_injective (List.append_cancel_left lists)]

theorem rewritten_path (front : String) (open_ : NamesNoSecret redactor query) :
    withQuery front (query.map (rewritten redactor)) = withQuery front query ↔ SerializedQuery query := by
  rw [withQuery_inj front _ _ (by rw [Option.isSome_map])]
  cases query with
  | none =>
      refine ⟨fun _ text absent => ?_,fun _ => rfl⟩
      cases absent
  | some text =>
      rw [Option.map_some,Option.some.injEq,rewritten_eq redactor open_]
      refine ⟨fun found other same => ?_,fun all => all text rfl⟩
      cases same
      exact found

end Rewriting

section Headers

theorem new_gather (headers : List (String × List (List UInt8))) : (SanitizedHeaders.new headers).fields =
    OrderedMap.gather (headers.map (fun header => (lowercase header.1,header.2))) .empty := by
  unfold OrderedMap.gather
  rw [List.foldl_map]
  rfl

theorem new_entries (headers : List (String × List (List UInt8))) :
    SanitizedHeaders.new (SanitizedHeaders.new headers).fields.entries = .new headers := by
  apply Headers.sanitized_entries
  rw [new_gather]
  apply OrderedMap.gather_keys (fun name => lowercase name = name)
  · intro entry member
    obtain ⟨header,_,rfl⟩ := List.mem_map.mp member
    exact lowercase_lowercase header.1
  · intro entry member
    cases member

theorem redacted_judged {headers : HeaderMap} (proper : headers.Proper) (name : String) (test : List UInt8 → Bool) :
    ((Redactor.redactSanitizedHeaders (Headers.policyHeaders headers)).values name).map (·.any test) =
      ((Headers.policyHeaders headers).values name).map (·.any test) := by
  unfold SanitizedHeaders.values
  rw [Headers.redactSanitizedHeaders_get? proper,Headers.policyHeaders_get? proper]
  cases found : headers.entries.lookup (lowercase name) with
  | none => simp only [Option.map_none]
  | some values =>
      simp only [Option.map_some]
      by_cases secret : Audit.isSecretHeader (lowercase name) = true
      · have filled := (proper.lookup _ _ found).1
        have live : Headers.policyValue (lowercase name) = fun _ => ascii redacted := by
          funext value
          rw [Headers.secret_lower (lowercase_lowercase name)] at secret
          simp [Headers.policyValue,secret,redacted]
        rw [if_pos secret,live,SameHead.any_constant test _ values filled]
        simp
      · rw [if_neg secret]

end Headers

section Rules

def onlyRule : RuleId := ⟨"only-rule",by decide⟩

-- The rule sets that tell two paths and two hosts apart.
def onlyPath (start : String) : AclPolicy := ⟨.initial,[⟨onlyRule,.httpPathPrefix start,.deny⟩],.allow,rfl⟩

def onlyHost (name : HostName) : AclPolicy := ⟨.initial,[⟨onlyRule,.destinationHost (.exact name),.deny⟩],.allow,rfl⟩

theorem onlyPath_matched (start : String) (facts : HttpRequestFacts) :
    ((onlyPath start).evaluate (.httpRequest facts)).trace.matchedRule =
      if startsWith facts.path start then some onlyRule else none := by
  simp only [AclPolicy.evaluate,onlyPath,firstMatch,evaluateExpression,PolicyFacts.http,leaf]
  by_cases here : startsWith facts.path start = true
  · rw [if_pos here,if_pos here]
    rfl
  · rw [if_neg here,if_neg here]
    rfl

theorem onlyHost_matched (name : HostName) (facts : PolicyFacts) :
    ((onlyHost name).evaluate facts).trace.matchedRule =
      if facts.target.requestedHost = .name name then some onlyRule else none := by
  have matched : (HostPattern.exact name).matchesTarget facts.target.requestedHost = true ↔
      facts.target.requestedHost = .name name := by
    cases facts.target.requestedHost with
    | ip | name => simp [HostPattern.matchesTarget]
  simp only [AclPolicy.evaluate,onlyHost,firstMatch,evaluateExpression,leaf]
  by_cases here : facts.target.requestedHost = .name name
  · rw [if_pos (matched.mpr here),if_pos here]
    rfl
  · rw [if_neg (fun found => here (matched.mp found)),if_neg here]
    rfl

theorem startsWith_refl (text : String) : startsWith text text = true := by
  simp [startsWith]

theorem startsWith_antisymm (forward : startsWith left right = true) (backward : startsWith right left = true) :
    left = right := by
  unfold startsWith at forward backward
  rw [List.isPrefixOf_iff_prefix] at forward backward
  exact String.toList_injective (backward.eq_of_length_le forward.length_le)

theorem path_agrees {live replayed : HttpRequestFacts}
    (all : ∀ policy : AclPolicy, SameVerdict (policy.evaluate (.httpRequest live)) (policy.evaluate (.httpRequest replayed))) :
    replayed.path = live.path := by
  have seen (start : String) : startsWith live.path start = startsWith replayed.path start := by
    have rule := (all (onlyPath start)).rule
    rw [onlyPath_matched,onlyPath_matched] at rule
    rw [Bool.eq_iff_iff]
    constructor
    · intro here
      by_contra missing
      rw [if_pos here,if_neg missing] at rule
      cases rule
    · intro here
      by_contra missing
      rw [if_neg missing,if_pos here] at rule
      cases rule
  apply startsWith_antisymm
  · rw [← seen]
    exact startsWith_refl _
  · rw [seen]
    exact startsWith_refl _

theorem host_agrees {live replayed : PolicyFacts} (all : ∀ policy : AclPolicy,
      SameVerdict (policy.evaluate live) (policy.evaluate replayed)) (named : live.target.requestedHost = .name name) :
    replayed.target.requestedHost = .name name := by
  have rule := (all (onlyHost name)).rule
  rw [onlyHost_matched,onlyHost_matched,if_pos named] at rule
  by_contra other
  rw [if_neg other] at rule
  cases rule

end Rules

theorem reread_plain {parseIp : String → Option IpAddr} {host : TargetHost} :
    PlainHost parseIp host ↔ ∀ name, host = .name name → host.reread parseIp = .name name := by
  cases host with
  | ip => exact ⟨(fun _ name same => by cases same),(fun _ name same => by cases same)⟩
  | name host =>
      refine ⟨fun plain name same => ?_,fun all name same => ?_⟩
      · cases same
        simp only [TargetHost.reread,plain host rfl]
      · cases same
        have back := all host rfl
        unfold TargetHost.reread at back
        cases read : parseIp host.text with
        | none => rfl
        | some =>
            simp only [read] at back
            cases back

theorem PlainHost.kept {parseIp : String → Option IpAddr} {facts : RequestedTargetFacts}
    (plain : PlainHost parseIp facts.requestedHost) : facts.reread parseIp = facts := by
  obtain ⟨source,host,port,protocol⟩ := facts
  cases host with
  | ip => rfl
  | name host =>
      have back := reread_plain.mp plain host rfl
      unfold RequestedTargetFacts.reread
      rw [back]

section Replaying

variable {std : StdNet} (documented : std.Documented) (redactor : Redactor) (urls : UrlCrate)

-- What the record of a request gives back: the host as it reads, the path as it was
-- written, and the headers.
def replayedRequest (parseIp : String → Option IpAddr) (request : HttpPolicyRequest) (address : SocketAddr) :
    HttpRequestFacts :=
  ⟨⟨request.requested.reread parseIp,address.ip⟩,uppercase request.method,redactor.redactTarget urls request.path,
    Redactor.redactSanitizedHeaders (Headers.policyHeaders request.headers)⟩

def replayedResponse (parseIp : String → Option IpAddr) (response : HttpPolicyResponse) : HttpResponseFacts :=
  ⟨⟨response.requested.reread parseIp,response.selectedAddress.ip⟩,response.status,
    Redactor.redactSanitizedHeaders (Headers.policyHeaders response.headers)⟩

include documented

theorem recordedFacts_request (request : HttpPolicyRequest) (address : SocketAddr) (record : AuditRecord)
    (event : record.event = redactor.redactEvent urls (.replayFactsObserved (.httpRequest (request.facts address)))) :
    recordedFacts std.parseIp record.json =
      some (.httpRequest (replayedRequest redactor urls std.parseIp request address)) := by
  rw [recordedFacts_json std.parseIp record event]
  have read := HttpRequestFacts.ofJson_json documented
    (.new ⟨request.requested,address.ip⟩ (uppercase request.method) (redactor.redactTarget urls request.path)
      (Redactor.redactSanitizedHeaders (Headers.policyHeaders request.headers)))
  change (HttpRequestFacts.ofJson std.parseIp _).map PolicyFacts.httpRequest = _
  refine (congrArg (Option.map PolicyFacts.httpRequest) read).trans ?_
  simp only [HttpRequestFacts.new,uppercase_uppercase,Redactor.redactSanitizedHeaders,new_entries,Option.map_some]
  rfl

theorem recordedFacts_response (response : HttpPolicyResponse) (record : AuditRecord)
    (event : record.event = redactor.redactEvent urls (.replayFactsObserved (.httpResponse response.facts))) :
    recordedFacts std.parseIp record.json = some (.httpResponse (replayedResponse std.parseIp response)) := by
  rw [recordedFacts_json std.parseIp record event]
  have read := HttpResponseFacts.ofJson_json documented
    ⟨⟨response.requested,response.selectedAddress.ip⟩,response.status,
      Redactor.redactSanitizedHeaders (Headers.policyHeaders response.headers)⟩
  change (HttpResponseFacts.ofJson std.parseIp _).map PolicyFacts.httpResponse = _
  refine (congrArg (Option.map PolicyFacts.httpResponse) read).trans ?_
  simp only [Redactor.redactSanitizedHeaders,new_entries,Option.map_some]
  rfl

omit documented

theorem request_indistinct (request : HttpPolicyRequest) (address : SocketAddr) (proper : request.headers.Proper)
    (plain : PlainHost std.parseIp request.requested.requestedHost) :
    Indistinct (.httpRequest (request.facts address))
      (.httpRequest (replayedRequest redactor urls std.parseIp request address)) := by
  refine ⟨rfl,?_,rfl,rfl,fun name test => ?_⟩
  · exact plain.kept.symm
  · exact congrArg some (redacted_judged proper name test).symm

theorem response_indistinct (response : HttpPolicyResponse) (proper : response.headers.Proper)
    (plain : PlainHost std.parseIp response.requested.requestedHost) :
    Indistinct (.httpResponse response.facts) (.httpResponse (replayedResponse std.parseIp response)) := by
  refine ⟨rfl,?_,rfl,rfl,fun name test => ?_⟩
  · exact plain.kept.symm
  · exact congrArg some (redacted_judged proper name test).symm

end Replaying

theorem SameVerdict.of_eq (same : live = replayed) : SameVerdict live replayed := by
  subst same
  exact ⟨rfl,rfl⟩

theorem offline_decisions_agree (std : StdNet) (documented : std.Documented) (urls : UrlCrate)
    (absolute : UrlCrate.Absolute urls) (redactor : Redactor) (record : AuditRecord) :
    (∀ (request : HttpPolicyRequest) (address : SocketAddr) front query, request.headers.Proper →
      request.path = withQuery front query → RecordedPath front query → NamesNoSecret redactor query →
      record.event = redactor.redactEvent urls (.replayFactsObserved (.httpRequest (request.facts address))) →
      ∃ facts, recordedFacts std.parseIp record.json = some facts ∧
        ((∀ policy : AclPolicy,
            SameVerdict (policy.evaluate (.httpRequest (request.facts address))) (policy.evaluate facts)) ↔
          SerializedQuery query ∧ PlainHost std.parseIp request.requested.requestedHost)) ∧
      ∀ response : HttpPolicyResponse, response.headers.Proper →
        record.event = redactor.redactEvent urls (.replayFactsObserved (.httpResponse response.facts)) →
        ∃ facts, recordedFacts std.parseIp record.json = some facts ∧
          ((∀ policy : AclPolicy, SameVerdict (policy.evaluate (.httpResponse response.facts)) (policy.evaluate facts)) ↔
            PlainHost std.parseIp response.requested.requestedHost) := by
  constructor
  · intro request address front query proper path recorded open_ event
    refine ⟨_,recordedFacts_request documented redactor urls request address record event,?_⟩
    have written : redactor.redactTarget urls request.path = withQuery front (query.map (rewritten redactor)) := by
      rw [path]
      exact redactTarget_recorded redactor urls absolute recorded
    constructor
    · intro all
      refine ⟨(rewritten_path redactor front open_).mp ?_,reread_plain.mpr fun name named => host_agrees all named⟩
      rw [← written,← path]
      exact path_agrees all
    · rintro ⟨serialized,plain⟩ policy
      have same := request_indistinct redactor urls request address proper plain
      refine .of_eq (same.evaluate policy (.inl (congrArg some ?_)))
      change request.path = redactor.redactTarget urls request.path
      rw [written,(rewritten_path redactor front open_).mpr serialized,path]
  · intro response proper event
    refine ⟨_,recordedFacts_response documented redactor urls response record event,?_⟩
    constructor
    · intro all
      exact reread_plain.mpr fun name named => host_agrees all named
    · intro plain policy
      have same := response_indistinct response proper plain
      exact .of_eq (same.evaluate policy (.inl rfl))

theorem noUrls_absolute : UrlCrate.Absolute noUrls :=
  ⟨fun _ _ => rfl,(fun _ _ _ found => by cases found)⟩

def hideToken : Redactor := .new ["token"]

def webServer : SocketAddr := ⟨.v4 192 0 2 1,⟨80,Port.http⟩⟩

def searched (host : HostName) (path : String) : HttpPolicyRequest :=
  ⟨⟨.v4 10 0 0 1,.name host,⟨80,Port.http⟩,.http⟩,"GET",path,.empty⟩

def answered (host : HostName) : HttpPolicyResponse :=
  ⟨⟨.v4 10 0 0 1,.name host,⟨80,Port.http⟩,.http⟩,webServer,⟨200,by decide⟩,.empty⟩

def onRecord (facts : ReplayFacts) : AuditRecord :=
  ⟨⟨.v2,.first,1,⟨1⟩,none,.initial,hideToken.redactEvent noUrls (.replayFactsObserved facts),none⟩,
    Vector.replicate 32 0⟩

theorem no_headers_proper : HeaderMap.empty.Proper := by
  constructor
  all_goals
    intro entry member
    cases member

theorem serialized_search_agrees :
    ∃ facts, recordedFacts readStd.parseIp
        (onRecord (.httpRequest ((searched plainName "/find?q=a+b").facts webServer))).json = some facts ∧
      ∀ policy : AclPolicy, SameVerdict
        (policy.evaluate (.httpRequest ((searched plainName "/find?q=a+b").facts webServer)))
        (policy.evaluate facts) := by
  have requests := (offline_decisions_agree readStd readStd_documented noUrls noUrls_absolute hideToken
    (onRecord (.httpRequest ((searched plainName "/find?q=a+b").facts webServer)))).1
  have split : Split "/find" (some "q=a+b") := by
    refine ⟨List.all_iff_forall_prop.mp (by decide +kernel),?_⟩
    intro text same
    cases same
    exact List.all_iff_forall_prop.mp (by decide +kernel)
  have open_ : NamesNoSecret hideToken (some "q=a+b") := by
    intro text same
    cases same
    decide +kernel
  have serialized : SerializedQuery (some "q=a+b") := by
    intro text same
    cases same
    exact ⟨[("q","a b")],by decide⟩
  have plain : PlainHost readStd.parseIp (.name plainName) := by
    intro name same
    cases same
    decide +kernel
  obtain ⟨facts,read,agree⟩ := requests (searched plainName "/find?q=a+b") webServer "/find" (some "q=a+b")
    no_headers_proper (by decide) (.origin split (.inl (by decide))) open_ rfl
  exact ⟨facts,read,agree.mpr ⟨serialized,plain⟩⟩

-- A rule on the path loses an encoded blank, and one on the host a name that reads as an address.
theorem rewritten_facts_decide_otherwise :
    (∃ facts, recordedFacts readStd.parseIp
        (onRecord (.httpRequest ((searched plainName "/find?q=a%20b").facts webServer))).json = some facts ∧
      ((onlyPath "/find?q=a%20b").evaluate
        (.httpRequest ((searched plainName "/find?q=a%20b").facts webServer))).trace.matchedRule = some onlyRule ∧
      ((onlyPath "/find?q=a%20b").evaluate facts).trace.matchedRule = none) ∧
    ∃ facts, recordedFacts readStd.parseIp (onRecord (.httpResponse (answered numericName).facts)).json = some facts ∧
      ((onlyHost numericName).evaluate (.httpResponse (answered numericName).facts)).trace.matchedRule = some onlyRule ∧
      ((onlyHost numericName).evaluate facts).trace.matchedRule = none := by
  refine ⟨⟨_,recordedFacts_request readStd_documented hideToken noUrls _ _ _ rfl,?_,?_⟩,
    ⟨_,recordedFacts_response readStd_documented hideToken noUrls _ _ rfl,?_,?_⟩⟩
  · decide +kernel
  · decide +kernel
  · decide +kernel
  · decide +kernel

end Freja.Replay
