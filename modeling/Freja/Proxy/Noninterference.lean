import Freja.Proxy.ObserveMode
import Freja.Proxy.SecretRequests

namespace Freja.Proxy
open Domain Policy Audit Effect Bytes

-- Header names are lower case by their type in the source.
def HeadMutationPlan.Named (plan : HeadMutationPlan) : Prop :=
  ∀ mutation ∈ plan.headers, lowercase mutation.name = mutation.name

def InteractiveDecision.Named : InteractiveDecision → Prop
  | .editHeaders plan => HeadMutationPlan.Named plan
  | .modifyRequest plan => HeadMutationPlan.Named plan.head
  | _ => True

namespace SameHead

variable {left right : HeaderMap}

theorem stripped (same : SameHead left right) :
    Parallel SameHead (Headers.stripHopByHop left) (Headers.stripHopByHop right) := by
  have listed : Headers.listed left "connection" = Headers.listed right "connection" := by
    unfold Headers.listed
    rw [same.agree.getAll (by decide)]
  unfold Headers.stripHopByHop
  rw [listed]
  split
  · exact .failed _
  · exact .done (same.removeAll _)

theorem forwarded (same : SameHead left right) (authority invalid : String) :
    Parallel SameHead (forwardedHead left authority invalid) (forwardedHead right authority invalid) := by
  have strips := same.stripped
  unfold forwardedHead
  generalize Headers.stripHopByHop left = first at strips ⊢
  generalize Headers.stripHopByHop right = second at strips ⊢
  cases strips with
  | failed => exact .failed _
  | done stripped =>
      unfold Headers.regenerateHost
      by_cases writable : Headers.isHeaderText authority = true
      · simp only [writable,if_true]
        exact .done (stripped.insert "host" _ (by decide))
      · simp only [writable]
        exact .failed _

theorem applied (same : SameHead left right) (mutation : HeaderMutation) (named : lowercase mutation.name = mutation.name) :
    SameHead (mutation.apply left) (mutation.apply right) := by
  cases mutation with
  | set name value => exact same.insert name value named
  | append name value => exact same.append name value named
  | remove name => exact same.remove name

theorem mutated (same : SameHead left right) (plan : HeadMutationPlan) (named : HeadMutationPlan.Named plan) :
    Parallel SameHead (applyHeadMutation left plan) (applyHeadMutation right plan) := by
  obtain ⟨mutations⟩ := plan
  unfold applyHeadMutation
  induction mutations generalizing left right with
  | nil => exact .done same
  | cons mutation rest ih =>
      have others : HeadMutationPlan.Named ⟨rest⟩ := fun other member => named other (List.mem_cons_of_mem _ member)
      rw [List.foldlM_cons,List.foldlM_cons]
      refine Parallel.bind ?_ (fun first second both => ih both others)
      apply Parallel.bind (.same (validateMutableHeader mutation.name))
      intro _ _ _
      exact .done (same.applied mutation (named mutation List.mem_cons_self))

theorem lengthSet (same : SameHead left right) (length : Nat) :
    SameHead (setContentLength left length) (setContentLength right length) :=
  ((same.remove _).remove _).insert "content-length" _ (by decide)

theorem rewritten (same : SameHead left right) (plan : HttpRequestMutationPlan) (named : HeadMutationPlan.Named plan.head) :
    Parallel SameHead ((applyHttpMutation left [] plan.head plan.body 0).map Prod.fst)
      ((applyHttpMutation right [] plan.head plan.body 0).map Prod.fst) := by
  have whole : Parallel (fun first second => SameHead first.1 second.1)
      (applyHttpMutation left [] plan.head plan.body 0) (applyHttpMutation right [] plan.head plan.body 0) := by
    unfold applyHttpMutation
    refine Parallel.bind (same.mutated plan.head named) (fun first second both => ?_)
    refine Parallel.bind (.same (applyBodyMutation [] plan.body 0)) (fun output other equal => ?_)
    cases equal
    apply Parallel.done
    cases plan.body with
    | keep => exact both.lengthSet _
    | replace => exact (both.removeAll _).lengthSet _
  exact whole.map (fun _ _ both => both)

end SameHead

variable (env : Environment) (crate : HttpCrate) (requestHead : RequestHeadHooks) (listener : Listener)
  (service : HttpService)

-- The embedder's hooks and the operator take no notice of what the redactor
-- hides when they are asked about the head of a CONNECT request.
structure Evenhanded (left right : HttpRequest) : Prop where
  hooks : ∀ calls, requestHead calls left.head = requestHead calls right.head
  hooksNamed : ∀ calls plan, (requestHead calls left.head).1 = .ok plan → HeadMutationPlan.Named plan
  operator : ∀ broker, env.interactive = some broker → ∀ calls first second, SameHead first second →
    broker calls (connectSnapshot service left first) = broker calls (connectSnapshot service right second)
  operatorNamed : ∀ broker, env.interactive = some broker → ∀ calls headers decision,
    broker calls (connectSnapshot service left headers) = .ok decision → InteractiveDecision.Named decision

variable {redactor : Redactor} {urls : UrlCrate} {left right : HttpRequest}

theorem runHook_together (run other : Nat → Except HookRunError α × Nat) (same : ∀ calls, run calls = other calls) :
    Together (FlowInspector.runHook run) (FlowInspector.runHook other) (SameRecords redactor urls)
      (fun result second => result = second ∧ ∃ calls, result = (run calls).1) := by
  intro first second related
  refine ⟨⟨?_,first.hookCalls,rfl⟩,related.loads,related.clockReads,?_,related.attempted,related.delivered⟩
  · rw [related.hookCalls,same]
  · change (run first.hookCalls).2 = (other second.hookCalls).2
    rw [related.hookCalls,same]

theorem applyMutation_together {first second : Except MutationError HeaderMap} (parallel : Parallel SameHead first second) :
    Together (applyMutation first) (applyMutation second) (SameRecords redactor urls) SameHead :=
  together_ofExcept (parallel.mapError _)

variable {env}

theorem applyRequestHeadHooks_together (agree : left.Agree redactor right)
    (evenhanded : env.hooks.mode ≠ .disabled → Evenhanded env requestHead service left right) :
    Together (applyRequestHeadHooks env requestHead service left)
      (applyRequestHeadHooks env requestHead service right) (SameRecords redactor urls) SameHead := by
  unfold applyRequestHeadHooks runRequestHeadHooks
  by_cases disabled : env.hooks.mode = .disabled
  · simp only [disabled,if_true]
    exact together_pure agree.head
  · simp only [disabled,if_false]
    have fair := evenhanded disabled
    apply together_bind (runHook_together _ _ fair.hooks)
    intro result other answered
    obtain ⟨equal,calls,asked⟩ := answered
    rw [← equal]
    apply together_bind (auditContext_alike service.flow)
    intro context same read
    rw [← read]
    apply together_bind (publish_alike (.same redactor urls _))
    intro _ _ _
    cases answer : result with
    | error => exact together_throw _ _
    | ok plan =>
        have named := fair.hooksNamed calls plan (by rw [← asked,answer])
        exact applyMutation_together (agree.head.mutated plan named)

theorem applyConnectDecision_together (same : SameHead first second) (decision : Option InteractiveDecision)
    (named : ∀ given, decision = some given → InteractiveDecision.Named given) :
    Together (applyConnectDecision first decision) (applyConnectDecision second decision)
      (SameRecords redactor urls) SameHead := by
  cases decision with
  | none => exact together_pure same
  | some given =>
      have lower := named given rfl
      cases given with
      | «continue» | cancelModification => exact together_pure same
      | reject => exact together_throw _ _
      | editHeaders plan => exact applyMutation_together (same.mutated plan lower)
      | replaceBody replacement =>
          apply applyMutation_together
          exact (Parallel.same (applyBodyMutation [] (.replace replacement) 0)).map (fun _ _ _ => same)
      | modifyRequest plan => exact applyMutation_together (same.rewritten plan lower)

theorem interactiveHttpRequest_together (context : AuditContext) (snapshot other : HttpRequestSnapshot)
    (same : ∀ broker, env.interactive = some broker → ∀ calls, broker calls snapshot = broker calls other) :
    Together (HttpService.interactiveHttpRequest env context snapshot)
      (HttpService.interactiveHttpRequest env context other) (SameRecords redactor urls)
      (fun decision second => decision = second ∧ ∀ given, decision = some given →
        ∃ broker calls, env.interactive = some broker ∧ broker calls snapshot = .ok given) := by
  unfold HttpService.interactiveHttpRequest
  by_cases interactive : env.hooks.mode = .interactive
  · simp only [interactive,if_true]
    cases asked : env.interactive with
    | none => exact together_throw _ _
    | some broker =>
        apply together_bind together_get
        intro first second related
        rw [← related.hookCalls]
        apply together_bind (together_modify (fun one two both => ⟨both.loads,both.clockReads,rfl,both.attempted,
          both.delivered⟩))
        intro _ _ _
        rw [← same broker asked]
        apply together_bind (publish_alike (.same redactor urls _))
        intro _ _ _
        cases answer : broker first.hookCalls snapshot with
        | error => exact together_throw _ _
        | ok =>
            apply together_pure
            refine ⟨rfl,?_⟩
            intro given answered
            cases answered
            exact ⟨broker,first.hookCalls,rfl,answer⟩
  · simp only [interactive,if_false]
    apply together_pure
    exact ⟨rfl,fun given none => by cases none⟩

theorem pauseConnectRequest_together (same : SameHead first second)
    (evenhanded : env.hooks.mode ≠ .disabled → Evenhanded env requestHead service left right) :
    Together (pauseConnectRequest env service left first) (pauseConnectRequest env service right second)
      (SameRecords redactor urls) SameHead := by
  unfold pauseConnectRequest
  by_cases interactive : env.hooks.mode = .interactive
  · have fair := evenhanded (by rw [interactive]; exact nofun)
    simp only [interactive,if_true]
    apply together_bind (auditContext_alike service.flow)
    intro context other read
    rw [← read]
    apply together_bind (interactiveHttpRequest_together context _ _
      (fun broker asked calls => fair.operator broker asked calls first second same))
    intro decision other answered
    obtain ⟨equal,origin⟩ := answered
    rw [← equal]
    apply applyConnectDecision_together same
    intro given asked
    obtain ⟨broker,calls,asks,answer⟩ := origin given asked
    exact fair.operatorNamed broker asks calls first given answer
  · simp only [interactive,if_false]
    exact together_pure same

-- No policy that a run can load tells the two paths apart.
def Untold (env : Environment) (path other : String) : Prop :=
  ∀ load (facts : HttpRequestFacts), (env.live load).policy.evaluate (.httpRequest {facts with path := path}) =
    (env.live load).policy.evaluate (.httpRequest {facts with path := other})

theorem pathFree_untold (free : ∀ load, (env.live load).policy.pathFree) (path other : String) : Untold env path other := by
  intro load facts
  refine Indistinct.evaluate ?_ _ (.inr (free load))
  exact ⟨rfl,rfl,rfl,rfl,fun _ _ => rfl⟩

theorem sameFacts (requested : RequestedTargetFacts) (method : String) (same : SameHead first second)
    (shown : redactor.redactTarget urls path = redactor.redactTarget urls other)
    (judged : Untold env path other) :
    SameFacts env redactor urls ⟨requested,method,path,first⟩ ⟨requested,method,other,second⟩ := by
  constructor
  · intro address
    simp only [HttpPolicyRequest.facts,HttpRequestFacts.new,Redactor.redactEvent,shown,same.replayed]
  · intro load address
    refine (judged load (HttpPolicyRequest.facts ⟨requested,method,path,first⟩ address)).trans ?_
    refine Indistinct.evaluate ?_ _ (.inl rfl)
    exact ⟨rfl,rfl,rfl,rfl,fun name test => congrArg some (same.judged name test)⟩

theorem forwardedHead_same (same : SameHead first second)
    (passed : forwardedHead first authority invalid = .ok headers)
    (passedToo : forwardedHead second authority invalid = .ok others) : SameHead headers others := by
  have parallel := same.forwarded authority invalid
  rw [passed,passedToo] at parallel
  cases parallel with
  | done both => exact both

-- The target does not depend on the query, and neither do the checks of the head.
theorem screenForward_same (agree : left.Agree redactor right)
    (screened : screenForward crate service left = .ok (target,headers))
    (screenedToo : screenForward crate service right = .ok (other,others)) :
    requestedTarget listener target = requestedTarget listener other ∧ SameHead headers others := by
  obtain ⟨parsed,passed⟩ := screenForward_ok crate service screened
  obtain ⟨parsedToo,passedToo⟩ := screenForward_ok crate service screenedToo
  obtain ⟨_,required,named,numbered,_⟩ := ForwardTarget.fromAbsolute_ok crate parsed
  obtain ⟨_,requiredToo,namedToo,numberedToo,_⟩ := ForwardTarget.fromAbsolute_ok crate parsedToo
  rw [agree.authority,requiredToo] at required
  have authority : other.authority = target.authority := Except.ok.inj required
  rw [authority] at namedToo numberedToo passedToo
  have host : target.host = other.host := Except.ok.inj (named.symm.trans namedToo)
  have port : target.port = other.port := Except.ok.inj (numbered.symm.trans numberedToo)
  refine ⟨?_,forwardedHead_same agree.head passed passedToo⟩
  unfold requestedTarget
  rw [host,port]

theorem screenForward_path (screened : screenForward crate service request = .ok (target,headers)) :
    target.policyPath = request.uri.pathAndQuery := by
  have origin := (ForwardTarget.fromAbsolute_ok crate (screenForward_ok crate service screened).1).2.2.2.2
  rw [ForwardTarget.policyPath,origin]
  rfl

theorem forward_together (keeps : UrlCrate.KeepsQueries urls) (agree : left.Agree redactor right)
    (screened : screenForward crate service left = .ok (target,headers))
    (screenedToo : screenForward crate service right = .ok (other,others))
    (judged : Untold env left.uri.pathAndQuery right.uri.pathAndQuery) :
    Alike redactor urls (forward env crate listener service left)
      (forward env crate listener service right) := by
  obtain ⟨sameTarget,same⟩ := screenForward_same crate listener service agree screened screenedToo
  unfold forward
  rw [screened,screenedToo]
  dsimp only
  rw [← sameTarget,← agree.method,screenForward_path crate service screened,screenForward_path crate service screenedToo]
  apply alike_bind (authorizeAndResolve_alike service.flow _)
  intro addresses
  exact evaluateHttpPolicy_alike
    (sameFacts _ _ same (agree.pathAndQuery keeps) judged) service.flow addresses

theorem forwardIntercepted_together (keeps : UrlCrate.KeepsQueries urls) (agree : left.Agree redactor right)
    (screened : screenIntercepted crate service target left = .ok headers)
    (screenedToo : screenIntercepted crate service target right = .ok others)
    (judged : Untold env left.uri.pathAndQuery right.uri.pathAndQuery)
    (selectedAddress : SocketAddr) :
    Alike redactor urls (forwardIntercepted env crate listener service target selectedAddress left)
      (forwardIntercepted env crate listener service target selectedAddress right) := by
  have same := forwardedHead_same agree.head (screenIntercepted_ok crate service screened)
    (screenIntercepted_ok crate service screenedToo)
  unfold forwardIntercepted
  rw [screened,screenedToo]
  dsimp only
  rw [← agree.method]
  exact evaluateHttpPolicy_alike
    (sameFacts _ _ same (agree.pathAndQuery keeps) judged) service.flow [selectedAddress]

theorem evaluateConnect_alike (same : SameHead headers others) (target : ForwardTarget) :
    Alike redactor urls (evaluateConnect env listener service target headers)
      (evaluateConnect env listener service target others) := by
  apply alike_bind (checkConnectPort_alike service.flow listener.connectPorts target.port)
  intro refused
  cases refused with
  | some => exact alike_pure _
  | none =>
      apply alike_bind (authorizeAndResolve_alike service.flow _)
      intro addresses
      exact evaluateHttpPolicy_alike (sameFacts _ _ same rfl (fun _ _ => rfl)) service.flow addresses

theorem connect_together (agree : left.Agree redactor right)
    (evenhanded : env.hooks.mode ≠ .disabled → Evenhanded env requestHead service left right)
    (valid : validateHead service.limits left.headers = .ok ())
    (validToo : validateHead service.limits right.headers = .ok ()) :
    Alike redactor urls (connect env crate requestHead listener service left)
      (connect env crate requestHead listener service right) := by
  have target : ForwardTarget.fromConnect crate left.uri.toUriParts =
      ForwardTarget.fromConnect crate right.uri.toUriParts := by
    unfold ForwardTarget.fromConnect
    rw [agree.scheme,agree.authority]
  unfold connect
  rw [valid,validToo,target]
  dsimp only
  apply together_bind (applyRequestHeadHooks_together requestHead service agree evenhanded)
  intro hooked other same
  apply together_bind (pauseConnectRequest_together requestHead service same evenhanded)
  intro headers others both
  split
  · exact alike_pure _
  · exact evaluateConnect_alike listener service both _

theorem auditRequest_alike (keeps : UrlCrate.KeepsQueries urls) (agree : left.Agree redactor right) (flow : Flow) :
    Alike redactor urls (auditRequest env flow left) (auditRequest env flow right) := by
  apply publishWith_alike
  left
  simp only [Redactor.redactEvent,agree.method,agree.target keeps,agree.head.audited]

theorem auditAuthentication_alike (flow : Flow) (first second : Bool) :
    Alike redactor urls (auditAuthentication env listener flow first)
      (auditAuthentication env listener flow second) := by
  unfold auditAuthentication
  split
  · exact alike_pure ()
  · exact publishWith_alike flow _ _ id (.inr ⟨rfl,rfl⟩)

variable (env)

-- What is left of a request at the listener once it has been audited.
def afterAudit (request : HttpRequest) : Task (Option Refusal) :=
  if isAuthenticated crate listener request.headers then
    if request.method = "CONNECT" then connect env crate requestHead listener service request
    else forward env crate listener service request
  else return some proxyAuthenticationRequired

variable {env}

theorem afterAudit_refused (early : Entry.listener.reachesPolicy crate listener service request = false) :
    ∃ refusal, afterAudit env crate requestHead listener service request = pure (some refusal) := by
  unfold Entry.reachesPolicy at early
  unfold afterAudit
  cases authentic : isAuthenticated crate listener request.headers with
  | false => exact ⟨_,rfl⟩
  | true =>
      simp only [authentic,Bool.true_and] at early
      simp only [if_true]
      by_cases tunnel : request.method = "CONNECT"
      · simp only [tunnel,if_true] at early ⊢
        unfold connect
        cases valid : validateHead service.limits request.headers with
        | error refusal => exact ⟨refusal,rfl⟩
        | ok => simp [valid,Except.isOk,Except.toBool] at early
      · simp only [tunnel,if_false] at early ⊢
        unfold forward
        cases screened : screenForward crate service request with
        | error refusal => exact ⟨refusal,rfl⟩
        | ok => simp [screened,Except.isOk,Except.toBool] at early

theorem afterAudit_together (keeps : UrlCrate.KeepsQueries urls) (agree : left.Agree redactor right)
    (evenhanded : env.hooks.mode ≠ .disabled → left.method = "CONNECT" → Evenhanded env requestHead service left right)
    (reached : Entry.listener.reachesPolicy crate listener service left = true)
    (reachedToo : Entry.listener.reachesPolicy crate listener service right = true)
    (judged : Untold env (Entry.listener.policyPath left) (Entry.listener.policyPath right)) :
    Alike redactor urls (afterAudit env crate requestHead listener service left)
      (afterAudit env crate requestHead listener service right) := by
  unfold Entry.reachesPolicy at reached reachedToo
  unfold Entry.policyPath at judged
  unfold afterAudit
  obtain ⟨authentic,passed⟩ := Bool.and_eq_true_iff.mp reached
  obtain ⟨authenticToo,passedToo⟩ := Bool.and_eq_true_iff.mp reachedToo
  simp only [authentic,authenticToo,if_true]
  by_cases tunnel : left.method = "CONNECT"
  · have tunnelToo : right.method = "CONNECT" := agree.method ▸ tunnel
    simp only [tunnel,tunnelToo,if_true] at passed passedToo ⊢
    cases valid : validateHead service.limits left.headers with
    | error => simp [valid,Except.isOk,Except.toBool] at passed
    | ok =>
        cases validToo : validateHead service.limits right.headers with
        | error => simp [validToo,Except.isOk,Except.toBool] at passedToo
        | ok =>
            exact connect_together crate requestHead listener service agree (fun enabled => evenhanded enabled tunnel)
              valid validToo
  · have elsewhere : ¬ right.method = "CONNECT" := agree.method ▸ tunnel
    simp only [tunnel,elsewhere,if_false] at passed passedToo judged ⊢
    cases screened : screenForward crate service left with
    | error => simp [screened,Except.isOk,Except.toBool] at passed
    | ok =>
        cases screenedToo : screenForward crate service right with
        | error => simp [screenedToo,Except.isOk,Except.toBool] at passedToo
        | ok =>
            exact forward_together crate listener service keeps agree screened screenedToo judged

-- Two requests that the redactor makes one are audited alike as far as they go,
-- if both or neither of them gets to the rules and no rule can tell their paths.
theorem handle_together (keeps : UrlCrate.KeepsQueries urls) (agree : left.Agree redactor right) (entry : Entry)
    (evenhanded : env.hooks.mode ≠ .disabled → left.method = "CONNECT" → Evenhanded env requestHead service left right)
    (reached : entry.reachesPolicy crate listener service left = entry.reachesPolicy crate listener service right)
    (judged : entry.reachesPolicy crate listener service left = true →
      Untold env (entry.policyPath left) (entry.policyPath right)) :
    Together (entry.handle env crate requestHead listener service left)
      (entry.handle env crate requestHead listener service right) (SameRecords redactor urls)
      (fun _ _ => True) := by
  have audited := @auditRequest_alike env _ _ _ _ keeps agree service.flow
  cases entry with
  | listener =>
      apply together_bind audited
      intro _ _ _
      apply together_bind (auditAuthentication_alike listener service.flow _ _)
      intro _ _ _
      change Together (afterAudit env crate requestHead listener service left)
        (afterAudit env crate requestHead listener service right) _ _
      cases stops : Entry.listener.reachesPolicy crate listener service right with
      | true =>
          rw [stops] at reached
          exact together_weaken (afterAudit_together crate requestHead listener service keeps agree evenhanded
            reached stops (judged reached)) (fun _ _ _ => trivial)
      | false =>
          rw [stops] at reached
          obtain ⟨_,refused⟩ := afterAudit_refused crate requestHead listener service reached
          obtain ⟨_,refusedToo⟩ := afterAudit_refused crate requestHead listener service stops
          rw [refused,refusedToo]
          exact together_pure trivial
  | tunnel target selectedAddress =>
      apply together_bind audited
      intro _ _ _
      simp only [Entry.reachesPolicy] at reached judged
      cases screened : screenIntercepted crate service target left with
      | error =>
          cases screenedToo : screenIntercepted crate service target right with
          | error =>
              unfold forwardIntercepted
              rw [screened,screenedToo]
              exact together_pure trivial
          | ok => simp [screened,screenedToo,Except.isOk,Except.toBool] at reached
      | ok =>
          cases screenedToo : screenIntercepted crate service target right with
          | error => simp [screened,screenedToo,Except.isOk,Except.toBool] at reached
          | ok =>
              have same := judged (by rw [screened]; rfl)
              exact together_weaken (forwardIntercepted_together crate listener service keeps agree screened
                screenedToo same selectedAddress) (fun _ _ _ => trivial)

end Freja.Proxy
