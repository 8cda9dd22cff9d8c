import Freja.Audit.HttpUrls
import Freja.Proxy.Noninterference
import Mathlib.Data.Bool.AllAny

namespace Freja.Proxy
open Domain Policy Audit Effect Bytes IpAddress

-- The rule and the action of an evaluation.
def selection : AuditEvent → Option (Option RuleId × EnforcementAction)
  | .aclEvaluated decision => some (decision.trace.matchedRule,decision.action)
  | _ => none

def selections (envelopes : List AuditEnvelope) : List (Option RuleId × EnforcementAction) :=
  envelopes.filterMap (fun envelope => selection envelope.event)

theorem selections_events (envelopes : List AuditEnvelope) :
    selections envelopes = (envelopes.map AuditEnvelope.event).filterMap selection := by
  unfold selections
  rw [List.filterMap_map]
  rfl

-- One rule that every path satisfies.
def anyPathRule : AclRule := ⟨⟨"any-path",by decide⟩,.httpPathPrefix "",.allow⟩

def anyPathSnapshot : PolicySnapshot :=
  {detourEnvironment.live 0 with policy := ⟨.initial,[anyPathRule],.allow,rfl⟩,enforcement := .observe}

def anyPathEnvironment : Environment := {watchedEnvironment with live := fun _ => anyPathSnapshot}

theorem anyPath_decision (facts : HttpRequestFacts) :
    anyPathSnapshot.policy.evaluate (.httpRequest facts) =
      .new .allow .initial .httpRequest (some anyPathRule.id) [⟨"http-path",facts.path⟩] := by
  have everywhere : startsWith facts.path "" = true := rfl
  unfold AclPolicy.evaluate
  simp only [anyPathSnapshot,firstMatch,anyPathRule,evaluateExpression,PolicyFacts.http,leaf,everywhere,if_true]
  rfl

theorem anyPath_published {program : Task α} {state : ServiceState}
    (follows : Follows (auditing anyPathEnvironment) program state ⟨events,.ok value⟩) :
    ∃ sent, sent.map AuditEnvelope.event = events ∧
      (stateOf (program.run state)).attempted = state.attempted ++ sent ∧
      (stateOf (program.run state)).delivered = state.delivered ++ sent := by
  unfold Follows Ensures at follows
  revert follows
  cases program.run state with
  | ok =>
      intro published
      obtain ⟨_,sent,said,sends,heard⟩ := published
      exact ⟨sent,said,sends.attempted,(heard rfl).1⟩
  | error =>
      intro stopped
      rcases stopped with ⟨ended,_⟩ | ⟨_,_,_,_,_,_,_,⟨_,closed⟩,_⟩
      · cases ended
      · cases closed

theorem anyPath_lets : LetsThrough anyPathSnapshot := .observed rfl

theorem anyPath_evaluates (flow : Flow) (request : HttpPolicyRequest) (addresses : List SocketAddr)
    (state : ServiceState) :
    Follows (auditing anyPathEnvironment) (evaluateHttpPolicy anyPathEnvironment flow request addresses) state
      ⟨requestTrail anyPathSnapshot request addresses,.ok none⟩ := by
  have follows := @evaluateHttpPolicy_follows anyPathEnvironment flow request addresses state
  have clear : requestDenial anyPathSnapshot request addresses = none := by
    apply firstRefused_none
    intro decision member
    obtain ⟨address,_,rfl⟩ := List.mem_map.mp member
    exact anyPath_lets.facts _
  change Follows _ _ _ ⟨requestTrail anyPathSnapshot request addresses ++
    actionTrail (requestDenial anyPathSnapshot request addresses),
    .ok ((requestDenial anyPathSnapshot request addresses).elim none (fun _ => some forbidden))⟩ at follows
  simpa [clear,actionTrail] using follows

theorem anyPath_resolves (requested : RequestedTargetFacts) :
    ∃ addresses, addresses ≠ [] ∧ resolve anyPathEnvironment requested = .ok addresses := by
  have some_there : ∀ address, (collectSet [address]).isEmpty = false := by
    intro address
    cases found : collectSet [address] with
    | nil =>
        have member := (mem_collectSet [address] address).mpr List.mem_cons_self
        rw [found] at member
        cases member
    | cons => rfl
  have answered : ∃ address, candidates anyPathEnvironment requested = .ok [address] := by
    unfold candidates
    cases requested.requestedHost with
    | ip | name => exact ⟨_,rfl⟩
  obtain ⟨address,found⟩ := answered
  refine ⟨collectSet [address],?_,?_⟩
  · intro empty
    have there := some_there address
    rw [empty] at there
    cases there
  · unfold resolve
    rw [found]
    simp only [some_there,Bool.false_eq_true,if_false]

theorem anyPath_authorizes (flow : Flow) (requested : RequestedTargetFacts) (state : ServiceState)
    (resolved : resolve anyPathEnvironment requested = .ok addresses) :
    Follows (auditing anyPathEnvironment) (authorizeAndResolve anyPathEnvironment flow requested) state
      ⟨(authorizationScript anyPathEnvironment anyPathSnapshot requested).events,.ok addresses⟩ := by
  have follows := @authorizeAndResolve_follows anyPathEnvironment flow requested state
  obtain ⟨answered,_⟩ := @authorizationScript_undisturbed anyPathEnvironment anyPathSnapshot requested anyPath_lets
    (fun addresses _ => refusal_observed rfl requested addresses)
  rw [resolved] at answered
  rw [← answered]
  exact follows

variable (crate : HttpCrate) (requestHead : RequestHeadHooks) (listener : Listener) (service : HttpService)

def observedRequest (request : HttpRequest) : AuditEvent :=
  .httpRequestObserved request.method request.uri.text (Headers.auditHeaders request.headers)

theorem anyPath_audits (flow : Flow) (request : HttpRequest) (state : ServiceState) :
    Follows (auditing anyPathEnvironment) (auditRequest anyPathEnvironment flow request) state
      ⟨[observedRequest request],.ok ()⟩ :=
  publishEvent_follows flow (observedRequest request) trivial state

def authenticationTrail (authenticated : Bool) : List AuditEvent :=
  match listener.authentication with
  | none => []
  | some _ => [.proxyAuthentication (if authenticated then .accepted else .rejected)]

theorem anyPath_authenticates (flow : Flow) (authenticated : Bool) (state : ServiceState) :
    Follows (auditing anyPathEnvironment) (auditAuthentication anyPathEnvironment listener flow authenticated) state
      ⟨authenticationTrail listener authenticated,.ok ()⟩ := by
  unfold auditAuthentication authenticationTrail
  cases listener.authentication with
  | none => exact follows_pure ()
  | some _ => exact publishEvent_follows flow (.proxyAuthentication _) trivial state

theorem authenticationTrail_unselected (authenticated : Bool) :
    (authenticationTrail listener authenticated).filterMap selection = [] := by
  unfold authenticationTrail
  split <;> rfl

-- How a request is handled there: what comes before its evaluation selects the
-- same for every request with that target.
structure Handled (entry : Entry) (request : HttpRequest) (state : ServiceState) (requested : RequestedTargetFacts)
    (addresses : List SocketAddr) (before : List (Option RuleId × EnforcementAction)) : Prop where
  follows : ∃ early headers, early.filterMap selection = before ∧
    Follows (auditing anyPathEnvironment) (entry.handle anyPathEnvironment crate requestHead listener service request) state
      ⟨early ++ requestTrail anyPathSnapshot ⟨requested,request.method,entry.policyPath request,headers⟩ addresses,
        .ok none⟩

theorem forward_handled (plain : request.method ≠ "CONNECT")
    (authentic : isAuthenticated crate listener request.headers = true)
    (screened : screenForward crate service request = .ok (target,headers)) (state : ServiceState)
    (resolved : resolve anyPathEnvironment (requestedTarget listener target) = .ok addresses) :
    Handled crate requestHead listener service .listener request state (requestedTarget listener target) addresses
      ((authorizationScript anyPathEnvironment anyPathSnapshot (requestedTarget listener target)).events.filterMap
        selection) := by
  have path : target.policyPath = Entry.listener.policyPath request := by
    rw [screenForward_path crate service screened]
    simp [Entry.policyPath,plain]
  obtain ⟨authorized,said⟩ : ∃ events, events =
    (authorizationScript anyPathEnvironment anyPathSnapshot (requestedTarget listener target)).events := ⟨_,rfl⟩
  obtain ⟨trail,judged⟩ : ∃ events, events = requestTrail anyPathSnapshot
    ⟨requestedTarget listener target,request.method,Entry.listener.policyPath request,headers⟩ addresses := ⟨_,rfl⟩
  have forwards (middle : ServiceState) : Follows (auditing anyPathEnvironment)
      (afterAudit anyPathEnvironment crate requestHead listener service request) middle ⟨authorized ++ trail,.ok none⟩ := by
    unfold afterAudit forward
    rw [said,judged]
    simp only [authentic,plain,screened,if_true,if_false,path]
    exact follows_then (anyPath_authorizes service.flow _ middle resolved)
      (fun later => anyPath_evaluates service.flow _ addresses later)
  have whole : Follows (auditing anyPathEnvironment)
      (Entry.listener.handle anyPathEnvironment crate requestHead listener service request) state
      ⟨[observedRequest request] ++ (authenticationTrail listener (isAuthenticated crate listener request.headers) ++
        (authorized ++ trail)),.ok none⟩ := by
    apply follows_then (anyPath_audits service.flow request state)
    intro middle
    exact follows_then (anyPath_authenticates listener service.flow _ middle) forwards
  rw [← List.append_assoc,← List.append_assoc] at whole
  rw [← said]
  rw [judged] at whole
  refine ⟨_,headers,?_,whole⟩
  rw [List.filterMap_append,List.filterMap_append,authenticationTrail_unselected]
  rfl

theorem forwardIntercepted_handled (screened : screenIntercepted crate service target request = .ok headers)
    (selectedAddress : SocketAddr) (state : ServiceState) :
    Handled crate requestHead listener service (.tunnel target selectedAddress) request state
      (requestedTarget listener target) [selectedAddress] [] := by
  have forwards (middle : ServiceState) : Follows (auditing anyPathEnvironment)
      (forwardIntercepted anyPathEnvironment crate listener service target selectedAddress request) middle
        ⟨requestTrail anyPathSnapshot ⟨requestedTarget listener target,request.method,request.uri.pathAndQuery,headers⟩
          [selectedAddress],.ok none⟩ := by
    unfold forwardIntercepted
    rw [screened]
    exact anyPath_evaluates service.flow _ [selectedAddress] middle
  exact ⟨_,headers,rfl,follows_then (anyPath_audits service.flow request state) (fun middle => forwards middle)⟩

theorem anyPath_selections (request : HttpPolicyRequest) (addresses : List SocketAddr) :
    (requestTrail anyPathSnapshot request addresses).filterMap selection =
      addresses.map (fun _ => (some anyPathRule.id,EnforcementAction.allow)) := by
  induction addresses with
  | nil => rfl
  | cons address rest ih =>
      change _ :: (requestTrail anyPathSnapshot request rest).filterMap selection = _
      rw [ih,anyPath_decision]
      rfl

theorem anyPath_last (request : HttpPolicyRequest) (some_there : addresses ≠ []) :
    ∃ early, requestTrail anyPathSnapshot request addresses = early ++ [.aclEvaluated
      (.new .allow .initial .httpRequest (some anyPathRule.id) [⟨"http-path",request.path⟩])] := by
  obtain ⟨first,last,split⟩ := (List.eq_nil_or_concat addresses).resolve_left some_there
  refine ⟨requestTrail anyPathSnapshot request first ++
    [.replayFactsObserved (.httpRequest (request.facts last))],?_⟩
  rw [split,List.concat_eq_append,requestTrail,List.flatMap_append,List.flatMap_singleton,anyPath_decision]
  simp only [requestTrail,List.append_assoc]
  rfl

variable {crate requestHead listener service} {left right : HttpRequest} {entry : Entry}

theorem Handled.selected (first : Handled crate requestHead listener service entry left state requested addresses before)
    (second : Handled crate requestHead listener service entry right state requested addresses before) :
    selections (stateOf ((entry.handle anyPathEnvironment crate requestHead listener service left).run state)).attempted =
      selections (stateOf ((entry.handle anyPathEnvironment crate requestHead listener service right).run state)).attempted := by
  obtain ⟨early,headers,begun,follows⟩ := first.follows
  obtain ⟨earlyToo,others,begunToo,followsToo⟩ := second.follows
  obtain ⟨sent,said,tried,_⟩ := anyPath_published follows
  obtain ⟨sentToo,saidToo,triedToo,_⟩ := anyPath_published followsToo
  rw [selections_events,selections_events,tried,triedToo,List.map_append,List.map_append,said,saidToo]
  simp only [List.filterMap_append,begun,begunToo,anyPath_selections]

theorem requestRecords_snoc (redactor : Redactor) (urls : UrlCrate) (front : List AuditEnvelope) (envelope : AuditEnvelope)
    (record : isRequestRecord envelope.event = true) :
    requestRecords redactor urls (front ++ [envelope]) = requestRecords redactor urls front ++
      [(envelope.context.policyGeneration,redactor.redactEvent urls envelope.event)] := by
  unfold requestRecords
  rw [List.filter_append,List.map_append]
  simp [record]

theorem Handled.revealed (handled : Handled crate requestHead listener service entry request state requested addresses before)
    (some_there : addresses ≠ []) (redactor : Redactor) (urls : UrlCrate) :
    ∃ front generation, requestRecords redactor urls
      (stateOf ((entry.handle anyPathEnvironment crate requestHead listener service request).run state)).delivered =
        front ++ [(generation,.aclEvaluated (.new .allow .initial .httpRequest (some anyPathRule.id)
          [⟨"http-path",entry.policyPath request⟩]))] := by
  obtain ⟨early,headers,_,follows⟩ := handled.follows
  obtain ⟨sent,said,_,delivered⟩ := anyPath_published follows
  obtain ⟨trail,last⟩ := anyPath_last ⟨requested,request.method,entry.policyPath request,headers⟩ some_there
  rw [last,← List.append_assoc] at said
  obtain ⟨front,ending,split,_,final⟩ := List.map_eq_append_iff.mp said
  obtain ⟨envelope,single,event⟩ := List.map_eq_singleton_iff.mp final
  rw [delivered,split,single,← List.append_assoc,requestRecords_snoc _ _ _ _ (by rw [event]; rfl),event]
  exact ⟨_,_,rfl⟩

theorem handled_pair (agree : left.Agree redactor right)
    (reached : entry.reachesPolicy crate listener service left = true)
    (reachedToo : entry.reachesPolicy crate listener service right = true)
    (apart : entry.policyPath left ≠ entry.policyPath right) (state : ServiceState) :
    ∃ requested addresses before, addresses ≠ [] ∧
      Handled crate requestHead listener service entry left state requested addresses before ∧
      Handled crate requestHead listener service entry right state requested addresses before := by
  cases entry with
  | listener =>
      unfold Entry.reachesPolicy at reached reachedToo
      obtain ⟨authentic,passed⟩ := Bool.and_eq_true_iff.mp reached
      obtain ⟨authenticToo,passedToo⟩ := Bool.and_eq_true_iff.mp reachedToo
      by_cases tunnel : left.method = "CONNECT"
      · have tunnelToo : right.method = "CONNECT" := agree.method ▸ tunnel
        simp [Entry.policyPath,tunnel,tunnelToo,agree.authority] at apart
      · have elsewhere : ¬ right.method = "CONNECT" := agree.method ▸ tunnel
        simp only [tunnel,elsewhere,if_false] at passed passedToo
        cases screened : screenForward crate service left with
        | error => simp [screened,Except.isOk,Except.toBool] at passed
        | ok first =>
            cases screenedToo : screenForward crate service right with
            | error => simp [screenedToo,Except.isOk,Except.toBool] at passedToo
            | ok =>
                have same := (screenForward_same crate listener service agree screened screenedToo).1
                obtain ⟨addresses,some_there,resolved⟩ := anyPath_resolves (requestedTarget listener first.1)
                have handled := forward_handled crate requestHead listener service tunnel authentic screened state resolved
                rw [same] at resolved handled
                have handledToo := forward_handled crate requestHead listener service elsewhere authenticToo screenedToo
                  state resolved
                exact ⟨_,addresses,_,some_there,handled,handledToo⟩
  | tunnel target selectedAddress =>
      unfold Entry.reachesPolicy at reached reachedToo
      cases screened : screenIntercepted crate service target left with
      | error => simp [screened,Except.isOk,Except.toBool] at reached
      | ok =>
          cases screenedToo : screenIntercepted crate service target right with
          | error => simp [screenedToo,Except.isOk,Except.toBool] at reachedToo
          | ok =>
              exact ⟨_,[selectedAddress],[],List.cons_ne_nil _ _,
                forwardIntercepted_handled crate requestHead listener service screened selectedAddress state,
                forwardIntercepted_handled crate requestHead listener service screenedToo selectedAddress state⟩

variable (env : Environment) (crate requestHead listener service) (entry : Entry) (state : ServiceState)

-- The rules choose the same for both requests at every stage: both or neither
-- get to be evaluated, and the evaluations agree in rule and action.
structure SameSelections (left right : HttpRequest) : Prop where
  reached : entry.reachesPolicy crate listener service left = entry.reachesPolicy crate listener service right
  chosen :
    selections (stateOf ((entry.handle env crate requestHead listener service left).run state)).attempted =
      selections (stateOf ((entry.handle env crate requestHead listener service right).run state)).attempted

-- The persisted records of the two runs are equal.
def SameLog (redactor : Redactor) (urls : UrlCrate) (left right : HttpRequest) : Prop :=
  requestRecords redactor urls
      (stateOf ((entry.handle env crate requestHead listener service left).run state)).delivered =
    requestRecords redactor urls
      (stateOf ((entry.handle env crate requestHead listener service right).run state)).delivered

theorem apart_revealed (agree : left.Agree redactor right)
    (reached : entry.reachesPolicy crate listener service left = true)
    (reachedToo : entry.reachesPolicy crate listener service right = true)
    (apart : entry.policyPath left ≠ entry.policyPath right) (urls : UrlCrate) :
    SameSelections crate requestHead listener service anyPathEnvironment entry state left right ∧
      ¬ SameLog crate requestHead listener service anyPathEnvironment entry state redactor urls left right := by
  obtain ⟨requested,addresses,before,some_there,first,second⟩ := handled_pair agree reached reachedToo apart state
  refine ⟨⟨reached.trans reachedToo.symm,first.selected second⟩,?_⟩
  intro same
  obtain ⟨_,_,shown⟩ := first.revealed some_there redactor urls
  obtain ⟨_,_,shownToo⟩ := second.revealed some_there redactor urls
  unfold SameLog at same
  rw [shown,shownToo] at same
  have last := (List.append_inj' same rfl).2
  simp only [List.cons.injEq,Prod.mk.injEq,AuditEvent.aclEvaluated.injEq,Decision.new,Decision.mk.injEq,
    DecisionTrace.mk.injEq,MatchReason.mk.injEq,and_true,true_and] at last
  exact apart last.2

-- Two requests that the redactor makes one leave the same log behind, whatever
-- the rules are, exactly if the path the rules read is one text; for rules that
-- do not ask for a path, or cannot tell these two, they always do.
theorem secrets_unlogged_iff (keeps : UrlCrate.KeepsQueries urls) (agree : left.Agree redactor right) (entry : Entry) :
    let evenhanded (env : Environment) (requestHead : RequestHeadHooks) :=
      env.hooks.mode ≠ .disabled → left.method = "CONNECT" → Evenhanded env requestHead service left right
    ((∀ env requestHead state, evenhanded env requestHead →
        SameSelections crate requestHead listener service env entry state left right →
          SameLog crate requestHead listener service env entry state redactor urls left right) ↔
      (entry.reachesPolicy crate listener service left = true →
        entry.reachesPolicy crate listener service right = true → entry.policyPath left = entry.policyPath right)) ∧
    ∀ env requestHead state, evenhanded env requestHead →
      SameSelections crate requestHead listener service env entry state left right →
        (∀ load, (env.live load).policy.pathFree) ∨ Untold env (entry.policyPath left) (entry.policyPath right) →
          SameLog crate requestHead listener service env entry state redactor urls left right := by
  intro evenhanded
  have logged (env : Environment) (requestHead : RequestHeadHooks) (state : ServiceState)
      (fair : evenhanded env requestHead)
      (reached : entry.reachesPolicy crate listener service left = entry.reachesPolicy crate listener service right)
      (judged : entry.reachesPolicy crate listener service left = true →
        Untold env (entry.policyPath left) (entry.policyPath right)) :
      SameLog crate requestHead listener service env entry state redactor urls left right := by
    have together := handle_together crate requestHead listener service keeps agree entry fair reached judged
    exact requestRecords_same redactor urls (together_states together (.same redactor urls state)).delivered
  refine ⟨⟨?_,?_⟩,?_⟩
  · intro unseen reached reachedToo
    apply Classical.byContradiction
    intro apart
    let deaf : RequestHeadHooks := fun calls _ => (.ok ⟨[]⟩,calls)
    obtain ⟨selected,seen⟩ := apart_revealed crate deaf listener service entry idleState agree reached reachedToo apart urls
    exact seen (unseen anyPathEnvironment deaf idleState (fun enabled => absurd rfl enabled) selected)
  · intro same env requestHead state fair selected
    apply logged env requestHead state fair selected.reached
    intro reached
    rw [same reached (selected.reached ▸ reached)]
    exact fun _ _ => rfl
  · intro env requestHead state fair selected told
    exact logged env requestHead state fair selected.reached (fun _ => told.elim (pathFree_untold · _ _) id)

def openListener : Listener := ⟨.v4 192 0 2 1,none,[]⟩

def plainService : HttpService := ⟨⟨⟨1⟩,some ⟨1⟩⟩,⟨65536,65536⟩⟩

def tokenRedactor : Redactor := .new ["token"]

theorem apiFront_plain (query : Option String) :
    ∀ character ∈ (UriParts.front ⟨some "http",some "api.test","/a",query⟩).toList, character ≠ '?' ∧ character ≠ '#' := by
  have front : UriParts.front ⟨some "http",some "api.test","/a",query⟩ = "http://api.test/a" := rfl
  rw [front]
  refine List.all_iff_forall_prop.mp ?_
  decide +kernel

def apiUri (query : Option String)
    (visible : ∀ text, query = some text → ∀ character ∈ text.toList, Visible character ∧ character ≠ '#') : Uri :=
  {scheme := some "http",authority := some "api.test",path := "/a",query := query
   split := ⟨apiFront_plain query,visible⟩}

def apiRequest (uri : Uri) (headers : HeaderMap) (proper : headers.Proper) : HttpRequest :=
  ⟨"GET",uri,.http11,headers,proper⟩

theorem empty_proper : HeaderMap.empty.Proper := by
  constructor
  all_goals
    intro entry member
    cases member

theorem firstToken_visible (text : String) (same : some "token=one" = some text) :
    ∀ character ∈ text.toList, Visible character ∧ character ≠ '#' := by
  cases same
  refine List.all_iff_forall_prop.mp ?_
  decide +kernel

theorem secondToken_visible (text : String) (same : some "token=two" = some text) :
    ∀ character ∈ text.toList, Visible character ∧ character ≠ '#' := by
  cases same
  refine List.all_iff_forall_prop.mp ?_
  decide +kernel

def firstToken : HttpRequest := apiRequest (apiUri (some "token=one") firstToken_visible) .empty empty_proper

def secondToken : HttpRequest := apiRequest (apiUri (some "token=two") secondToken_visible) .empty empty_proper

theorem tokens_agree : firstToken.Agree tokenRedactor secondToken := by
  refine ⟨rfl,rfl,rfl,rfl,rfl,.present ?_,.nil⟩
  have one : (utf8 "token=one").splitOn 38 = [utf8 "token=one"] := by decide +kernel
  have two : (utf8 "token=two").splitOn 38 = [utf8 "token=two"] := by decide +kernel
  unfold QueriesAgree
  rw [one,two]
  refine .cons (.inr ⟨?_,?_,?_,?_⟩) .nil
  all_goals decide +kernel

-- Two plain requests that differ in the value of a configured secret parameter:
-- the rule chooses the same for both, and the persisted decision quotes the secret.
theorem token_logged :
    httpUrls.KeepsQueries ∧ firstToken.Agree tokenRedactor secondToken ∧
      anyPathEnvironment.hooks.mode = .disabled ∧
      SameSelections plainCrate (fun calls _ => (.ok ⟨[]⟩,calls)) openListener plainService anyPathEnvironment .listener
        idleState firstToken secondToken ∧
      ¬ SameLog plainCrate (fun calls _ => (.ok ⟨[]⟩,calls)) openListener plainService anyPathEnvironment .listener
        idleState tokenRedactor httpUrls firstToken secondToken := by
  have reached : Entry.listener.reachesPolicy plainCrate openListener plainService firstToken = true := by decide +kernel
  have reachedToo : Entry.listener.reachesPolicy plainCrate openListener plainService secondToken = true := by
    decide +kernel
  have apart : Entry.listener.policyPath firstToken ≠ Entry.listener.policyPath secondToken := by decide +kernel
  exact ⟨httpUrls_keeps,tokens_agree,rfl,apart_revealed _ _ _ _ _ _ tokens_agree reached reachedToo apart _⟩

theorem cookie_proper (value : List UInt8) :
    HeaderMap.Proper ⟨[("cookie",[value])],List.nodup_singleton _⟩ := by
  constructor
  · intro entry member
    rw [List.mem_singleton.mp member]
    exact (by decide : lowercase "cookie" = "cookie")
  · intro entry member
    rw [List.mem_singleton.mp member]
    exact List.cons_ne_nil _ _

def cookieRequest (value : List UInt8) : HttpRequest :=
  apiRequest (apiUri none nofun) ⟨[("cookie",[value])],List.nodup_singleton _⟩ (cookie_proper value)

theorem cookies_agree : (cookieRequest [1]).Agree tokenRedactor (cookieRequest [2]) :=
  ⟨rfl,rfl,rfl,rfl,rfl,.absent,.cons ⟨rfl,.inr (by decide)⟩ .nil⟩

-- A cookie stays out of the log under every policy.
theorem cookie_unlogged :
    (cookieRequest [1]).Agree tokenRedactor (cookieRequest [2]) ∧ ∀ env requestHead state,
      SameSelections plainCrate requestHead openListener plainService env .listener state (cookieRequest [1])
        (cookieRequest [2]) →
      SameLog plainCrate requestHead openListener plainService env .listener state tokenRedactor httpUrls
        (cookieRequest [1]) (cookieRequest [2]) :=
  ⟨cookies_agree,fun env requestHead state => (secrets_unlogged_iff plainCrate openListener plainService httpUrls_keeps
    cookies_agree .listener).1.mpr (fun _ _ => rfl) env requestHead state (fun _ tunnel => absurd tunnel (by decide))⟩

end Freja.Proxy
