import Freja.Proxy.Enforcement
import Freja.Proxy.Repeat
import Freja.Proxy.RequestFraming
import Freja.Proxy.Synchrony

namespace Freja.Proxy
open Domain Policy Audit Effect Bytes

-- What matters of a request once it is on its way.
structure Dispatched where
  method : String
  uri : String
  headers : HeaderMap
  body : List UInt8
  deriving DecidableEq, Repr

def UpstreamRequest.dispatched (request : UpstreamRequest) : Dispatched :=
  ⟨request.method,request.uri,request.headers,request.bytes⟩

def Forwarded.dispatched : Forwarded → Option Dispatched
  | .sent _ _ request => some request.dispatched
  | .refused _ | .unreached _ => none

def Repeat.Attempt.dispatched : Repeat.Attempt → Option Dispatched
  | .sent _ _ request => some request.dispatched
  | .failed _ | .unreached _ => none

variable {env : Environment} {snapshot : PolicySnapshot}

-- Two runs from which hooks and the audit channel expect the same to follow: hooks
-- answer by the number of earlier calls, the channel by that of earlier events.
structure Aligned (env : Environment) (first second : ServiceState) : Prop where
  hookCalls : first.hookCalls = second.hookCalls
  channel : ∀ later, env.channel (first.attempted.length + later) =
    env.channel (second.attempted.length + later)

theorem Aligned.said (aligned : Aligned env first second) (envelope other : AuditEnvelope)
    (hookCalls : after.hookCalls = behind.hookCalls) (attempted : after.attempted = first.attempted ++ [envelope])
    (attemptedToo : behind.attempted = second.attempted ++ [other]) : Aligned env after behind := by
  refine ⟨hookCalls,?_⟩
  intro later
  rw [attempted,attemptedToo,List.length_append,List.length_append,List.length_singleton,List.length_singleton,
    Nat.add_assoc,Nat.add_assoc]
  exact aligned.channel (1 + later)

theorem publish_aligned (envelope other : AuditEnvelope) :
    Together (publish env envelope) (publish env other) (Aligned env) Eq := by
  intro first second aligned
  have sends := aligned.channel 0
  rw [Nat.add_zero,Nat.add_zero] at sends
  unfold EStateM.run publish
  rw [sends]
  cases publisherAnswer env.failurePolicy (env.channel second.attempted.length) with
  | ok => exact ⟨rfl,aligned.said envelope other aligned.hookCalls rfl rfl⟩
  | error =>
      by_cases lenient : env.failurePolicy = .failOpen
      · simp only [lenient,if_true]
        exact ⟨trivial,aligned.said envelope other aligned.hookCalls rfl rfl⟩
      · simp only [lenient,if_false]
        exact aligned.said envelope other aligned.hookCalls rfl rfl

theorem auditContext_aligned (flow other : Flow) :
    Together (auditContext env flow) (auditContext env other) (Aligned env) (fun _ _ => True) :=
  fun _ _ aligned => ⟨trivial,aligned.hookCalls,aligned.channel⟩

theorem runHook_aligned (run : Nat → Except HookRunError α × Nat) :
    Together (FlowInspector.runHook run) (FlowInspector.runHook run) (Aligned env) Eq := by
  intro first second aligned
  refine ⟨?_,?_,aligned.channel⟩
  · rw [aligned.hookCalls]
  · exact congrArg (fun calls => (run calls).2) aligned.hookCalls

theorem publishWith_aligned (flow other : Flow) (event : AuditEvent) (adjust : AuditContext → AuditContext) :
    Together (publishWith env flow event adjust) (publishWith env other event adjust)
      (Aligned env) Eq := by
  apply together_bind (auditContext_aligned flow other)
  intro context another _
  exact publish_aligned _ _

theorem runRequestHeadHooks_aligned (requestHead : RequestHeadHooks) (flow other : Flow) (head : HttpRequestHead) :
    Together (runRequestHeadHooks env requestHead flow head)
      (runRequestHeadHooks env requestHead other head) (Aligned env) Eq := by
  unfold runRequestHeadHooks
  split
  · exact together_pure rfl
  · apply together_eq (runHook_aligned _)
    intro result
    apply together_bind (auditContext_aligned flow other)
    intro context another _
    apply together_eq (publish_aligned _ _)
    intro _
    apply together_eq (together_ofExcept (.same _))
    intro plan
    exact together_ofExcept (.same _)

theorem observe_aligned (flow other : Flow) (facts : HttpRequestFacts) (decision : Decision) :
    Together (observeRequest env flow facts decision)
      (Repeat.observeFacts env other (.httpRequest facts) decision) (Aligned env) Eq := by
  unfold observeRequest publishReplayFacts publishEvent publishWith Repeat.observeFacts
  rw [bind_assoc]
  apply together_bind (auditContext_aligned flow other)
  intro context another _
  apply together_eq (publish_aligned _ _)
  intro _
  apply together_left
  · intro first second aligned
    exact ⟨_,_,rfl,aligned.hookCalls,aligned.channel⟩
  · intro again
    exact publish_aligned _ _

theorem evaluateEach_aligned (flow other : Flow) (request : HttpPolicyRequest) (addresses : List SocketAddr)
    (firstDenial : Option Decision) :
    Together (evaluateEach snapshot request (observeRequest env flow) addresses firstDenial)
      (evaluateEach snapshot request (fun facts => Repeat.observeFacts env other (.httpRequest facts)) addresses
        firstDenial) (Aligned env) Eq := by
  induction addresses generalizing firstDenial with
  | nil => exact together_pure rfl
  | cons address rest ih => exact together_eq (observe_aligned flow other _ _) (fun _ => ih _)

namespace FlowInspector

def under (inspector : FlowInspector) (flow : Flow) : FlowInspector := {inspector with flow := flow}

variable (inspector : FlowInspector) (other : Flow) (direction : Direction) (bytes : List UInt8)

@[simp] theorem under_captured (flow : Flow) :
    (inspector.under flow).captured = inspector.captured := rfl

theorem capture_aligned :
    Together (inspector.capture env direction bytes) ((inspector.under other).capture env direction bytes)
      (Aligned env) (fun next same => same = next.under other) := by
  unfold capture
  split
  · exact together_pure rfl
  · dsimp only [under_captured]
    split
    · exact together_pure rfl
    · apply together_eq (publishWith_aligned inspector.flow other _ id)
      intro _
      exact together_pure rfl

theorem judge_aligned (context another : AuditContext) (findings : List Finding) :
    Together (inspector.judge env context findings) ((inspector.under other).judge env another findings)
      (Aligned env) Eq := by
  induction findings with
  | nil => exact together_pure rfl
  | cons finding rest ih =>
      unfold judge
      apply together_eq (publish_aligned _ _)
      intro _
      apply together_eq (publish_aligned _ _)
      intro _
      apply together_eq (publish_aligned _ _)
      intro _
      change Together _ (if inspector.decision.permits
        (inspector.decision.inspection.evaluate finding inspector.protocol) = true then _ else _) _ _
      split
      · exact ih
      · apply together_eq (publishWith_aligned inspector.flow other _ id)
        intro _
        exact together_pure rfl

theorem permits_aligned :
    Together (inspector.permits env direction bytes) ((inspector.under other).permits env direction bytes)
      (Aligned env) (fun answer same => same = (answer.1,answer.2.under other)) := by
  apply together_bind (capture_aligned inspector other direction bytes)
  intro captor same equal
  rw [equal]
  change Together _ (if (captor.share direction bytes).isEmpty = true then _ else _) _ _
  split
  · exact together_pure rfl
  · apply together_bind (auditContext_aligned captor.flow other)
    intro context another _
    apply together_eq (judge_aligned (captor.scan env direction bytes).1 other context another _)
    intro verdict
    exact together_pure rfl

theorem transformHttpBody_aligned (another : FlowInspector) (direction : Direction) (bytes : List UInt8)
    (maximum : Nat) (decoded : Bool) :
    Together (inspector.transformHttpBody env direction bytes maximum decoded)
      (another.transformHttpBody env direction bytes maximum decoded) (Aligned env) Eq := by
  have applies (stage : AuditHookStage) (run : Nat → Except HookRunError BodyMutationPlan × Nat) :
      Together (inspector.applyBodyHook env stage run bytes maximum decoded)
        (another.applyBodyHook env stage run bytes maximum decoded) (Aligned env) Eq := by
    apply together_eq (runHook_aligned run)
    intro result
    apply together_bind (auditContext_aligned inspector.flow another.flow)
    intro context other _
    apply together_eq (publish_aligned _ _)
    intro _
    cases result with
    | error => exact together_throw _ _
    | ok =>
        dsimp only
        split
        · exact together_throw _ _
        · split
          · exact together_throw _ _
          · exact together_pure rfl
  unfold transformHttpBody
  split
  · exact together_pure rfl
  · cases direction with
    | httpRequestBody | httpResponseBody => exact applies _ _
    | clientToUpstream | upstreamToClient => exact together_pure rfl

end FlowInspector

-- Both runs see one snapshot, however often they load it.
section Snapshot

variable (settled : ∀ load, env.live load = snapshot)
include settled

theorem synchronous_aligned (flow other : Flow) : Synchronous env (Aligned env) flow other where
  snapshots := by
    intro first second aligned
    exact ⟨⟨(settled _).trans (settled _).symm,first.loads,rfl⟩,aligned.hookCalls,aligned.channel⟩
  publishes := publishWith_aligned flow other

theorem evaluate_aligned (flow other : Flow) (request : HttpPolicyRequest) (addresses : List SocketAddr) :
    Together (evaluateHttpPolicy env flow request addresses)
      (Repeat.evaluateRequestPolicy env other request addresses) (Aligned env)
      (fun refusal verdict => (refusal = some forbidden ∧ verdict = .error .policyDenied) ∨
        (refusal = none ∧ verdict = .ok ())) := by
  apply together_bind (synchronous_aligned settled flow other).snapshots
  intro loaded same agreed
  obtain ⟨equal,load,found⟩ := agreed
  rw [← equal,found,settled]
  apply together_eq (evaluateEach_aligned flow other request addresses none)
  intro firstDenial
  cases firstDenial with
  | none => exact together_pure (.inr ⟨rfl,rfl⟩)
  | some decision =>
      apply together_eq ((synchronous_aligned settled flow other).recordAction decision)
      intro _
      exact together_pure (.inl ⟨rfl,rfl⟩)

theorem inspectorNew_aligned (flow other : Flow) (maximum : Nat) :
    Together (FlowInspector.new env flow .http maximum) (FlowInspector.new env other .http maximum)
      (Aligned env) (fun inspector same => inspector.flow = flow ∧ same = inspector.under other) := by
  apply together_bind (synchronous_aligned settled flow other).snapshots
  intro loaded same agreed
  rw [← agreed.1]
  exact together_pure ⟨rfl,rfl⟩

-- The live run makes a second inspector for the hooks.
theorem preflightBody_aligned (service : HttpService) (other : Flow) (headers : HeaderMap) (bytes : List UInt8) :
    Together (service.preflightBody env .httpRequestBody headers bytes)
      (Repeat.prepareRequestBody env other service.limits bytes headers) (Aligned env)
      (fun prepared outcome => (∃ refusal category, prepared = .refused refusal ∧ outcome = .error category) ∨
        ∃ framed sent, prepared = .forwarded framed sent ∧ outcome = .ok (framed,sent)) := by
  unfold HttpService.preflightBody HttpService.inspectPreflight HttpService.transformPreflightBody
    Repeat.prepareRequestBody
  rw [bind_assoc]
  apply together_bind (inspectorNew_aligned settled service.flow other service.limits.bodyPrefixBytes)
  intro inspector same made
  rw [made.2,bind_assoc]
  apply together_bind (inspector.permits_aligned other .httpRequestBody bytes)
  intro answer another judged
  rw [judged]
  obtain ⟨verdict,next⟩ := answer
  cases verdict with
  | false => exact together_pure (.inl ⟨_,_,rfl,rfl⟩)
  | true =>
      change Together ((FlowInspector.new env service.flow .http service.limits.bodyPrefixBytes >>= _) >>= _) _ _ _
      rw [bind_assoc]
      apply together_left
      · intro first second aligned
        exact ⟨_,_,rfl,aligned.hookCalls,aligned.channel⟩
      · intro fresh
        apply together_eq (fresh.transformHttpBody_aligned (next.under other) .httpRequestBody bytes _ true)
        intro transformed
        exact together_pure (.inr ⟨_,_,rfl,rfl⟩)

end Snapshot

-- A body that arrives in some pieces, and all of it.
structure Arrives (body : List Arrival) (bytes : List UInt8) : Prop where
  intact : ∀ arrival ∈ body, arrival.event ≠ .failed ∧ arrival.event ≠ .timedOut
  whole : body.flatMap Arrival.bytes = bytes

theorem collectBounded_arrives (intact : ∀ arrival ∈ body, arrival.event ≠ .failed ∧ arrival.event ≠ .timedOut)
    (held : List UInt8) (fits : held.length ≤ maximum) :
    (collectBounded maximum held body).toOption =
      if (held ++ body.flatMap Arrival.bytes).length ≤ maximum then some (held ++ body.flatMap Arrival.bytes) else none := by
  induction body generalizing held with
  | nil =>
      rw [List.flatMap_nil,List.append_nil,if_pos fits]
      rfl
  | cons arrival rest ih =>
      obtain ⟨here,later⟩ := List.forall_mem_cons.mp intact
      rw [List.flatMap_cons]
      unfold collectBounded
      cases arrived : arrival.event with
      | timedOut => exact absurd arrived here.2
      | failed => exact absurd arrived here.1
      | trailers | shutdown =>
          have nothing : arrival.bytes = [] := by rw [Arrival.bytes,arrived]
          rw [nothing,List.nil_append]
          exact ih later held fits
      | data data =>
          have all : arrival.bytes = data := by rw [Arrival.bytes,arrived]
          rw [all,← List.append_assoc]
          dsimp only
          split
          · rename_i past
            have beyond : ¬ (held ++ data ++ rest.flatMap Arrival.bytes).length ≤ maximum := by
              rw [List.length_append,List.length_append]
              omega
            rw [if_neg beyond]
            rfl
          · rename_i within
            exact ih later (held ++ data) (by rw [List.length_append]; omega)

theorem fromRepeat_http (http : uri.scheme = some "http") (done : ForwardTarget.fromRepeat crate uri = .ok (target,scheme)) :
    scheme = .http ∧ target.originUri.isSome = true := by
  obtain ⟨parsed,schemed,done⟩ := except_bind_ok done
  obtain ⟨authority,_,done⟩ := except_bind_ok done
  obtain ⟨host,_,done⟩ := except_bind_ok done
  obtain ⟨port,_,done⟩ := except_bind_ok done
  obtain ⟨origin,_,done⟩ := except_bind_ok done
  cases done
  rw [http] at schemed
  cases schemed
  exact ⟨rfl,rfl⟩

def SameScreening (live : Except Refusal (ForwardTarget × HeaderMap))
    (again : Except Repeat.RepeatFailureCategory Repeat.Screened) : Prop :=
  (∃ refusal category, live = .error refusal ∧ again = .error category) ∨
    ∃ target headers origin, target.originUri = some origin ∧ live = .ok (target,headers) ∧
      again = .ok ⟨target,.http,origin,headers⟩

theorem screen_same (crate : HttpCrate) (tls : Option Repeat.TlsInterceptor) (service : HttpService)
    (command : Repeat.RepeatRequest) (version : command.request.version = .http11)
    (method : command.request.method ≠ "CONNECT") (http : command.request.uri.scheme = some "http")
    (fits : command.body.length ≤ service.limits.bodyPrefixBytes) :
    SameScreening (screenForward crate service command.request) (Repeat.screen crate tls service.limits command) := by
  unfold screenForward Repeat.screen validateHead
  have admitted : (decide (command.request.version ≠ .http11) || decide (command.request.method = "CONNECT") ||
      decide (command.body.length > service.limits.bodyPrefixBytes)) = false := by
    simp [version,method,fits]
  dsimp only
  rw [if_neg (by rw [admitted]; exact Bool.false_ne_true)]
  cases Headers.validate command.request.headers service.limits.headerBytes with
  | error => exact .inl ⟨_,_,rfl,rfl⟩
  | ok _ =>
      unfold ForwardTarget.fromAbsolute
      cases parsed : ForwardTarget.fromRepeat crate command.request.uri.toUriParts with
      | error => exact .inl ⟨_,_,rfl,rfl⟩
      | ok found =>
          obtain ⟨target,scheme⟩ := found
          obtain ⟨plain,rooted⟩ := fromRepeat_http http parsed
          obtain ⟨origin,written⟩ := Option.isSome_iff_exists.mp rooted
          subst plain
          have accepted : Repeat.acceptScheme tls .http target.host = .ok () := if_neg (by simp)
          change SameScreening (forwardedHead command.request.headers target.authority _ >>= _)
            (Repeat.acceptScheme tls .http target.host >>= _)
          simp only [bind,Except.bind,Repeat.orInvalid,Except.mapError,accepted,written]
          unfold forwardedHead Repeat.regenerateHost
          cases Headers.stripHopByHop command.request.headers with
          | error => exact .inl ⟨_,_,rfl,rfl⟩
          | ok stripped =>
              dsimp only
              cases Headers.regenerateHost stripped target.authority with
              | none => exact .inl ⟨_,_,rfl,rfl⟩
              | some hosted => exact .inr ⟨target,hosted,origin,written,rfl,rfl⟩

section Dispatch

variable (settled : ∀ load, env.live load = snapshot) (preflight : snapshot.inspectionMode = .preflight)
  (automatic : env.hooks.mode ≠ .interactive) (requestHead : RequestHeadHooks) (network : Network)
  (tls : Option Repeat.TlsInterceptor) (service : HttpService) (flow : Flow)
include settled preflight automatic

theorem prepareRequestBody_preflight (parts : RequestParts) (interactiveUri : Option String) (body : List Arrival)
    (state : ServiceState) :
    (∀ error, collectBounded service.limits.bodyPrefixBytes [] body = .error error →
      (service.prepareRequestBody env parts interactiveUri body).run state =
        .ok (.refused (HttpService.requestCollectRefusal "preflight" error)) {state with loads := state.loads + 1}) ∧
    (∀ bytes, collectBounded service.limits.bodyPrefixBytes [] body = .ok bytes →
      (service.prepareRequestBody env parts interactiveUri body).run state =
        (service.preflightBody env .httpRequestBody parts.headers bytes).run
          {state with loads := state.loads + 1}) := by
  have reads : (inspectionMode env).run state = .ok .preflight {state with loads := state.loads + 1} := by
    rw [← preflight,← settled state.loads]
    rfl
  unfold HttpService.prepareRequestBody HttpService.bodyByMode
  rw [if_neg automatic,run_bind_ok reads]
  constructor
  · intro error uncollected
    rw [uncollected]
    rfl
  · intro bytes collected
    rw [collected]

theorem prepareRequestBody_aligned (parts : RequestParts) (interactiveUri : Option String)
    (collected : collectBounded service.limits.bodyPrefixBytes [] body = .ok bytes) :
    Together (service.prepareRequestBody env parts interactiveUri body)
      (Repeat.prepareRequestBody env flow service.limits bytes parts.headers) (Aligned env)
      (fun prepared outcome => (∃ refusal category, prepared = .refused refusal ∧ outcome = .error category) ∨
        ∃ framed sent, prepared = .forwarded framed sent ∧ outcome = .ok (framed,sent)) := by
  intro first second aligned
  rw [(prepareRequestBody_preflight settled preflight automatic service parts interactiveUri body first).2 bytes collected]
  exact preflightBody_aligned settled service flow parts.headers bytes _ second ⟨aligned.hookCalls,aligned.channel⟩

theorem forwardPermitted_aligned (command : Repeat.RepeatRequest) (target : ForwardTarget) (headers : HeaderMap)
    (rooted : target.originUri = some origin) (addresses : List SocketAddr)
    (connected : connectAny network none addresses = .ok address)
    (collected : collectBounded service.limits.bodyPrefixBytes [] body = .ok command.body) :
    Together (forwardPermitted env requestHead service network command.request body target headers addresses)
      (Repeat.dispatch env requestHead network tls flow service.limits command ⟨target,.http,origin,headers⟩ address)
      (Aligned env) (fun forwarded attempt => forwarded.dispatched = attempt.dispatched) := by
  unfold forwardPermitted forwardParts prepareUpstream Repeat.dispatch
  rw [connected,rooted]
  dsimp only [Option.getD_some]
  rw [bind_assoc]
  apply together_eq (runRequestHeadHooks_aligned requestHead service.flow flow _)
  intro hooked
  unfold Repeat.regenerateHost
  cases Headers.regenerateHost hooked target.authority with
  | none => exact together_pure rfl
  | some =>
      dsimp only
      rw [bind_assoc]
      apply together_left
      · intro first second aligned
        exact ⟨_,_,rfl,aligned⟩
      · intro way
        rw [bind_assoc]
        apply together_bind (prepareRequestBody_aligned settled preflight automatic service flow _ _ collected)
        intro prepared outcome same
        rcases same with ⟨refusal,category,refused,failed⟩ | ⟨framed,sent,passed,done⟩
        · rw [refused,failed]
          exact together_pure rfl
        · rw [passed,done]
          refine together_pure ?_
          unfold sendUpstreamRequest establishHttpSender Repeat.send Repeat.sendOn
          cases network.handshake address <;> rfl

theorem prepareUpstream_refuses (target : ForwardTarget) (parts : RequestParts) (invalid : String)
    (repeatUri : Option String) (uncollected : collectBounded service.limits.bodyPrefixBytes [] body = .error error)
    (state : ServiceState) :
    Ensures (prepareUpstream env requestHead service target parts invalid repeatUri body) state
      (fun outcome _ => ∃ refusal, outcome = .error refusal) (fun _ _ => True) := by
  refine ensures_then (ensures_any _ state) ?_
  intro hooked after _
  split
  · exact ensures_pure ⟨_,rfl⟩
  · rename_i hosted _
    refine ensures_then (ensures_any _ after) ?_
    intro way looked _
    have refuses := (prepareRequestBody_preflight settled preflight automatic service {parts with headers := hosted}
      repeatUri body looked).1 error uncollected
    exact ensures_bind (ensures_ok refuses (ensures_pure ⟨_,rfl⟩))

theorem forwardUpstream_unsent (crate : HttpCrate) (listener : Listener) (request : HttpRequest)
    (uncollected : collectBounded service.limits.bodyPrefixBytes [] body = .error error) (state : ServiceState) :
    Ensures (forwardUpstream env crate requestHead listener service network request body) state
      (fun forwarded _ => forwarded.dispatched = none) (fun _ _ => True) := by
  unfold forwardUpstream
  split
  · exact ensures_pure rfl
  · refine ensures_then (ensures_any _ state) ?_
    intro addresses resolved _
    refine ensures_then (ensures_any _ resolved) ?_
    intro verdict judged _
    cases verdict with
    | some => exact ensures_pure rfl
    | none =>
        unfold forwardPermitted
        dsimp only
        split
        · exact ensures_pure rfl
        · refine ensures_then (prepareUpstream_refuses settled preflight automatic requestHead service _ _ _ _ uncollected
            judged) ?_
          intro outcome refused known
          obtain ⟨refusal,same⟩ := known
          rw [same]
          exact ensures_pure rfl

theorem forwardUpstream_aligned (crate : HttpCrate) (listener : Listener) (command : Repeat.RepeatRequest)
    (peer : listener.peer = command.sourceIp)
    (screening : SameScreening (screenForward crate service command.request)
      (Repeat.screen crate tls service.limits command))
    (collected : collectBounded service.limits.bodyPrefixBytes [] body = .ok command.body) :
    Together (forwardUpstream env crate requestHead listener service network command.request body)
      (Repeat.perform env crate requestHead network tls flow service.limits command)
      (Aligned env) (fun forwarded attempt => forwarded.dispatched = attempt.dispatched) := by
  unfold forwardUpstream Repeat.perform
  rcases screening with ⟨refusal,category,refused,failed⟩ | ⟨target,headers,origin,rooted,passed,accepted⟩
  · rw [refused,failed]
    exact together_pure rfl
  · rw [passed,accepted]
    have facts : requestedTarget listener target = Repeat.requestedTarget command target := by
      unfold requestedTarget Repeat.requestedTarget
      rw [peer]
    have path : target.policyPath = origin := by
      unfold ForwardTarget.policyPath
      rw [rooted]
      rfl
    dsimp only
    rw [facts,path]
    apply together_eq ((synchronous_aligned settled service.flow flow).authorizeAndResolve _)
    intro addresses
    apply together_bind (evaluate_aligned settled service.flow flow _ addresses)
    intro refusal verdict same
    rcases same with ⟨refused,denied⟩ | ⟨permitted,clear⟩
    · rw [refused,denied]
      exact together_pure rfl
    · rw [permitted,clear]
      cases connected : connectAny network none addresses with
      | error =>
          unfold forwardPermitted
          rw [connected]
          exact together_pure rfl
      | ok =>
          exact forwardPermitted_aligned settled preflight automatic requestHead network tls service flow command target
            headers rooted addresses connected collected

end Dispatch

-- The part of a request that leaves the proxy, if any does.
def dispatchedLive (run : EStateM.Result ProxyError ServiceState Forwarded) : Option Dispatched :=
  (answerOf run).bind Forwarded.dispatched

def dispatchedAgain (run : EStateM.Result ProxyError ServiceState Repeat.Attempt) : Option Dispatched :=
  (answerOf run).bind Repeat.Attempt.dispatched

theorem repeated_like_live (settled : ∀ load, env.live load = snapshot)
    (preflight : snapshot.inspectionMode = .preflight) (automatic : env.hooks.mode ≠ .interactive)
    (crate : HttpCrate) (requestHead : RequestHeadHooks) (network : Network) (tls : Option Repeat.TlsInterceptor)
    (listener : Listener) (service : HttpService) (flow : Flow) (command : Repeat.RepeatRequest) (body : List Arrival)
    (version : command.request.version = .http11) (method : command.request.method ≠ "CONNECT")
    (http : command.request.uri.scheme = some "http") (peer : listener.peer = command.sourceIp)
    (arrives : Arrives body command.body) (state other : ServiceState) (aligned : Aligned env state other) :
    dispatchedLive
        ((forwardUpstream env crate requestHead listener service network command.request body).run state) =
      dispatchedAgain
        ((Repeat.perform env crate requestHead network tls flow service.limits command).run other) := by
  have collects := collectBounded_arrives arrives.intact [] (Nat.zero_le service.limits.bodyPrefixBytes)
  rw [List.nil_append,arrives.whole] at collects
  by_cases fits : command.body.length ≤ service.limits.bodyPrefixBytes
  · rw [if_pos fits] at collects
    have collected : collectBounded service.limits.bodyPrefixBytes [] body = .ok command.body := by
      cases outcome : collectBounded service.limits.bodyPrefixBytes [] body with
      | error =>
          rw [outcome] at collects
          cases collects
      | ok =>
          rw [outcome] at collects
          cases collects
          rfl
    have screening := screen_same crate tls service command version method http fits
    exact together_answers (forwardUpstream_aligned settled preflight automatic requestHead network tls service flow crate
      listener command peer screening collected) (fun _ _ same => same) aligned
  · rw [if_neg fits] at collects
    have refused : Repeat.screen crate tls service.limits command = .error .invalidRequest := by
      unfold Repeat.screen
      dsimp only
      rw [if_pos (by simpa using .inr (Nat.lt_of_not_le fits))]
      rfl
    have unsent : dispatchedAgain
        ((Repeat.perform env crate requestHead network tls flow service.limits command).run other) = none := by
      unfold Repeat.perform
      rw [refused]
      rfl
    rw [unsent]
    cases outcome : collectBounded service.limits.bodyPrefixBytes [] body with
    | ok =>
        rw [outcome] at collects
        cases collects
    | error error =>
        have nothing := forwardUpstream_unsent settled preflight automatic requestHead network service crate listener
          command.request outcome state
        unfold dispatchedLive
        cases ran : (forwardUpstream env crate requestHead listener service network command.request body).run
            state with
        | error error after => rfl
        | ok forwarded after =>
            have last := ensures_answer nothing ran
            exact last

def repeatedCommand : Repeat.RepeatRequest := ⟨.v4 192 0 2 1,nominatingRequest,ascii "abcd"⟩

theorem repeatedBody_arrives :
    Arrives [⟨.data (ascii "ab"),true⟩,⟨.data (ascii "cd"),true⟩] (ascii "abcd") := by
  refine ⟨?_,by decide⟩
  intro arrival member
  rcases List.mem_cons.mp member with first | later
  · rw [first]
    exact ⟨(fun never => by cases never),(fun never => by cases never)⟩
  · rw [List.mem_singleton.mp later]
    exact ⟨(fun never => by cases never),(fun never => by cases never)⟩

-- A request with a hooked head leaves the repeat executor as it leaves the proxy.
theorem nominated_field_repeated :
    dispatchedAgain ((Repeat.perform hookedEnvironment directCrate tracingHooks reachable none ⟨⟨3⟩,some ⟨4⟩⟩
        smallService.limits repeatedCommand).run idleState) = some framedUpstream.dispatched ∧
      dispatchedLive nominatingRun = some framedUpstream.dispatched := by
  have sent : dispatchedAgain ((Repeat.perform hookedEnvironment directCrate tracingHooks reachable none ⟨⟨3⟩,some ⟨4⟩⟩
      smallService.limits repeatedCommand).run idleState) = some framedUpstream.dispatched := by
    decide +kernel
  have settled : ∀ load, hookedEnvironment.live load = reloadedSnapshot .preflight := fun _ => rfl
  refine ⟨sent,?_⟩
  rw [← sent]
  exact repeated_like_live settled rfl (by decide) directCrate tracingHooks reachable none ⟨.v4 192 0 2 1,none,[]⟩
    smallService ⟨⟨3⟩,some ⟨4⟩⟩ repeatedCommand _ rfl (by decide) rfl rfl repeatedBody_arrives idleState idleState
    ⟨rfl,fun _ => rfl⟩

end Freja.Proxy
