import Freja.Proxy.BodyInspection
import Freja.Proxy.Forwarding
import Mathlib.Data.Bool.AllAny

namespace Freja.Proxy
open Domain Policy Audit Effect Bytes

-- The names that the client's connection fields ask the proxy to drop.
def Headers.nominated (headers : HeaderMap) : Option (List String) :=
  ((listed headers "connection").filter (!·.isEmpty)).mapM headerName?

theorem Headers.stripHopByHop_ok (done : stripHopByHop headers = .ok stripped) :
    ∃ named, nominated headers = some named ∧ stripped = (named ++ hopByHop).foldl HeaderMap.remove headers := by
  unfold stripHopByHop at done
  split at done
  · cases done
  · rename_i named found
    cases done
    exact ⟨named,found,rfl⟩

-- What is gone from a head, up to the names that the plans may add again.
structure Cleared (named : List String) (plans : List HeadMutationPlan) (headers : HeaderMap) : Prop where
  hopByHop : ∀ name ∈ Headers.hopByHop, headers.containsKey name = false
  nominated : ∀ name ∈ named, name ≠ "host" → name ≠ "content-length" → headers.containsKey name = true →
    ∃ plan ∈ plans, plan.Adds name

theorem hopByHop_protected : ∀ name ∈ Headers.hopByHop, name ∈ protectedHeaders ∧ name ≠ "host" ∧
    name ≠ "content-length" := by
  decide

namespace Cleared

theorem stripped (headers : HeaderMap) : Cleared named [] ((named ++ Headers.hopByHop).foldl HeaderMap.remove headers) where
  hopByHop := by
    intro name member
    rw [Bool.eq_false_iff]
    intro there
    exact ((HeaderMap.containsKey_removeAll _ headers name).mp there).2 (List.mem_append_right _ member)
  nominated := by
    intro name member _ _ there
    exact absurd (List.mem_append_left _ member) ((HeaderMap.containsKey_removeAll _ headers name).mp there).2

theorem rewritten (cleared : Cleared named plans before) (rewrites : Rewrites more before after) :
    Cleared named (plans ++ more) after where
  hopByHop := by
    intro name member
    obtain ⟨guarded,_,unlength⟩ := hopByHop_protected name member
    rw [Bool.eq_false_iff]
    intro there
    rcases rewrites.present name there with length | early | ⟨free,_⟩
    · exact unlength length
    · rw [cleared.hopByHop name member] at early
      cases early
    · exact free guarded
  nominated := by
    intro name member unhost unlength there
    rcases rewrites.present name there with length | early | ⟨_,plan,listed,adds⟩
    · exact absurd length unlength
    · obtain ⟨plan,listed,adds⟩ := cleared.nominated name member unhost unlength early
      exact ⟨plan,List.mem_append_left _ listed,adds⟩
    · exact ⟨plan,List.mem_append_right _ listed,adds⟩

theorem regenerated (cleared : Cleared named plans headers)
    (done : Headers.regenerateHost headers authority = some hosted) :
    Cleared named plans hosted ∧ hosted.getAll "host" = [utf8 authority] := by
  unfold Headers.regenerateHost at done
  split at done
  · cases done
    have before (name : String) (unhost : name ≠ "host")
        (there : (headers.insert "host" (utf8 authority)).containsKey name = true) : headers.containsKey name = true :=
      ((headers.containsKey_update "host" name _ _).mp there).resolve_right unhost
    refine ⟨⟨?_,?_⟩,headers.getAll_insert_self "host" _⟩
    · intro name member
      rw [Bool.eq_false_iff]
      intro there
      have early := before name (hopByHop_protected name member).2.1 there
      rw [cleared.hopByHop name member] at early
      cases early
    · intro name member unhost unlength there
      exact cleared.nominated name member unhost unlength (before name unhost there)
  · cases done

end Cleared

theorem forwardedHead_cleared (done : forwardedHead headers authority invalid = .ok forwarded) :
    ∃ named, Headers.nominated headers = some named ∧ Cleared named [] forwarded := by
  unfold forwardedHead at done
  split at done
  · cases done
  · rename_i bare strips
    obtain ⟨named,nominated,result⟩ := Headers.stripHopByHop_ok strips
    split at done
    · cases done
    · rename_i hosted hosts
      cases done
      have cleared : Cleared named [] bare := result ▸ Cleared.stripped headers
      exact ⟨named,nominated,(cleared.regenerated hosts).1⟩

variable (env : Environment) (crate : HttpCrate) (requestHead : RequestHeadHooks) (listener : Listener)
  (service : HttpService)

-- A plan for the head of a request: from the hooks, or from the operator, who may be
-- shown another text for its target.
inductive Proposed (method uri : String) (shown : Option String) (plan : HeadMutationPlan) : Prop
  | hook (calls : Nat) (head : HttpRequestHead) (enabled : env.hooks.mode ≠ .disabled)
      (mine : head.method = method ∧ head.uri = uri) (answered : (requestHead calls head).1 = .ok plan)
  | operator (broker : Nat → HttpRequestSnapshot → Except InterceptError InteractiveDecision) (calls : Nat)
      (snapshot : HttpRequestSnapshot) (decision : InteractiveDecision) (paused : env.hooks.mode = .interactive)
      (attended : env.interactive = some broker) (mine : snapshot.method = method ∧ snapshot.uri = shown.getD uri)
      (answered : broker calls snapshot = .ok decision) (edits : decision.headPlan = some plan)

theorem runRequestHeadHooks_rewrites (flow : Flow) (head : HttpRequestHead) (shown : Option String) (state : ServiceState) :
    Ensures (runRequestHeadHooks env requestHead flow head) state
      (fun hooked _ => ∃ plans, (∀ plan ∈ plans, Proposed env requestHead head.method head.uri shown plan) ∧
        Rewrites plans head.headers hooked)
      (fun _ _ => True) := by
  unfold runRequestHeadHooks
  split
  · exact ensures_pure ⟨[],(fun _ member => absurd member List.not_mem_nil),.same _⟩
  · rename_i enabled
    have asks : Ensures (FlowInspector.runHook (fun calls => requestHead calls head)) state
        (fun result _ => result = (requestHead state.hookCalls head).1) (fun _ _ => True) := ensures_ok rfl rfl
    refine ensures_then asks ?_
    intro result asked answered
    refine ensures_then (ensures_any _ asked) ?_
    intro context dated _
    refine ensures_then (ensures_any _ dated) ?_
    intro _ told _
    cases result with
    | error => exact ensures_throw trivial
    | ok plan =>
        refine ensures_bind (ensures_pure ?_)
        cases mutated : applyHeadMutation head.headers plan with
        | error => exact ensures_throw trivial
        | ok =>
            refine ensures_pure ⟨[plan],?_,.applyHeadMutation mutated⟩
            intro other member
            rw [List.mem_singleton.mp member]
            exact .hook state.hookCalls head enabled ⟨rfl,rfl⟩ answered.symm

namespace HttpService

theorem interactiveHttpRequest_asks (context : AuditContext) (request : HttpRequestSnapshot) (state : ServiceState)
    (seen : request.uri = shown.getD uri) :
    Ensures (interactiveHttpRequest env context request) state
      (fun decision _ => ∀ plan ∈ (decision.bind InteractiveDecision.headPlan).toList,
        Proposed env requestHead request.method uri shown plan)
      (fun _ _ => True) := by
  unfold interactiveHttpRequest
  split
  · rename_i paused
    cases attended : env.interactive with
    | none => exact ensures_throw trivial
    | some broker =>
        refine ensures_then (ensures_any _ state) ?_
        intro counted read _
        refine ensures_then (ensures_any _ read) ?_
        intro _ called _
        refine ensures_then (ensures_any _ called) ?_
        intro _ told _
        cases answered : broker counted.hookCalls request with
        | error => exact ensures_throw trivial
        | ok decision =>
            refine ensures_pure ?_
            intro plan member
            have edits : decision.headPlan = some plan := Option.mem_toList.mp member
            exact .operator broker counted.hookCalls request decision paused attended ⟨rfl,seen⟩ answered edits
  · exact ensures_pure (fun _ member => absurd member List.not_mem_nil)

theorem applyDecision_rewrites {budget : HttpLimits} {decision : Option InteractiveDecision}
    (done : applyDecision budget headers body decision = .ok (edited,output)) :
    Rewrites (decision.bind InteractiveDecision.headPlan).toList headers edited := by
  unfold applyDecision at done
  split at done
  · rename_i plan
    cases mutated : applyHeadMutation headers plan with
    | error =>
        rw [mutated] at done
        cases done
    | ok =>
        rw [mutated] at done
        cases done
        exact .applyHeadMutation mutated
  · rename_i replacement
    cases replaced : applyBodyMutation body (.replace replacement) budget.bodyPrefixBytes with
    | error =>
        rw [replaced] at done
        cases done
    | ok =>
        rw [replaced] at done
        cases done
        exact .normalizeReplacedBodyHeaders headers
  · exact .applyHttpMutation (mapError_ok.mp done)
  · cases done
  all_goals
    cases done
    exact .same headers

end HttpService

-- A body that was held back goes out with its own length and nothing but proposed
-- changes to the head.
def Prepared.Framed (proposed : HeadMutationPlan → Prop) (before : HeaderMap) : Prepared → Prop
  | .refused _ => True
  | .forwarded headers sent => ∃ plans, (∀ plan ∈ plans, proposed plan) ∧ Rewrites plans before headers ∧
      headers.getAll "content-length" = [utf8 (toString (sent.flatMap Sent.bytes).length)]

namespace HttpService

theorem normalizeTransformed_rewrites (headers : HeaderMap) (transformed : FlowInspector.BodyTransform) :
    Rewrites [] headers (normalizeTransformed headers transformed) := by
  unfold normalizeTransformed
  split
  · exact (Rewrites.normalizeReplacedBodyHeaders headers).trans (.setContentLength _ _)
  · exact .setContentLength headers _

theorem preflightBody_framed (proposed : HeadMutationPlan → Prop) (direction : Direction) (headers : HeaderMap)
    (bytes : List UInt8) (state : ServiceState) :
    Ensures (service.preflightBody env direction headers bytes) state
      (fun prepared _ => prepared.Framed proposed headers) (fun _ _ => True) := by
  refine ensures_then (ensures_any _ state) ?_
  intro result inspected _
  obtain ⟨verdict,fed⟩ := result
  cases verdict with
  | false => exact ensures_pure trivial
  | true =>
      refine ensures_then (ensures_any _ inspected) ?_
      intro transformed changed _
      refine ensures_pure ⟨[],(fun _ member => absurd member List.not_mem_nil),normalizeTransformed_rewrites headers _,?_⟩
      have whole : ([⟨.ok (.data transformed.bytes),bytes,fed⟩] : List Sent).flatMap Sent.bytes = transformed.bytes :=
        List.append_nil _
      rw [whole]
      exact setContentLength_length _ _

theorem prepareInteractiveRequest_framed (parts : RequestParts) (interactiveUri : Option String) (body : List Arrival)
    (state : ServiceState) :
    Ensures (service.prepareInteractiveRequest env parts interactiveUri body) state
      (fun prepared _ => prepared.Framed (Proposed env requestHead parts.method parts.uri interactiveUri) parts.headers)
      (fun _ _ => True) := by
  unfold prepareInteractiveRequest
  split
  · exact ensures_pure trivial
  · rename_i original _
    refine ensures_then (ensures_any _ state) ?_
    intro result inspected _
    obtain ⟨verdict,fed⟩ := result
    cases verdict with
    | false => exact ensures_pure trivial
    | true =>
        refine ensures_then (ensures_any _ inspected) ?_
        intro transformed changed _
        refine ensures_then (ensures_any _ changed) ?_
        intro context dated _
        refine ensures_then (interactiveHttpRequest_asks env requestHead context _ dated rfl) ?_
        intro decision decided proposed
        have normal : Rewrites [] parts.headers
            (if transformed.replaced then normalizeReplacedBodyHeaders parts.headers else parts.headers) := by
          split
          · exact .normalizeReplacedBodyHeaders _
          · exact .same _
        cases applied : applyDecision service.limits
            (if transformed.replaced then normalizeReplacedBodyHeaders parts.headers else parts.headers)
            transformed.bytes decision with
        | error error => exact ensures_throw trivial
        | ok outcome =>
            obtain ⟨edited,output⟩ := outcome
            have rewrites := normal.trans ((applyDecision_rewrites applied).trans (.setContentLength edited output.length))
            rw [List.append_nil] at rewrites
            refine ensures_pure ⟨_,proposed,rewrites,?_⟩
            have whole : ([⟨.ok (.data output),original,fed⟩] : List Sent).flatMap Sent.bytes = output :=
              List.append_nil _
            rw [whole]
            exact setContentLength_length _ _

theorem prepareRequestBody_framed (parts : RequestParts) (interactiveUri : Option String) (body : List Arrival)
    (state : ServiceState) (bounded : wayAt env state ≠ .streaming) :
    Ensures (service.prepareRequestBody env parts interactiveUri body) state
      (fun prepared _ => prepared.Framed (Proposed env requestHead parts.method parts.uri interactiveUri) parts.headers)
      (fun _ _ => True) := by
  unfold prepareRequestBody
  split
  · exact prepareInteractiveRequest_framed env requestHead service parts interactiveUri body state
  · rename_i automatic
    have held : (env.live state.loads).inspectionMode = .preflight := by
      unfold wayAt at bounded
      rw [if_neg automatic] at bounded
      cases mode : (env.live state.loads).inspectionMode with
      | preflight => rfl
      | streaming =>
          rw [mode] at bounded
          exact absurd rfl bounded
    have reads : Ensures (inspectionMode env) state (fun mode _ => mode = .preflight) (fun _ _ => True) :=
      ensures_ok rfl held
    refine ensures_then reads ?_
    intro mode loaded same
    subst same
    dsimp only
    split
    · exact ensures_pure trivial
    · exact preflightBody_framed env service _ .httpRequestBody parts.headers _ loaded

end HttpService

-- One length and one host, no field that belongs to the client's connection, and
-- of the fields that the client named only what a plan put back.
structure Framed (authority : String) (named : List String) (plans : List HeadMutationPlan) (request : UpstreamRequest) :
    Prop extends Cleared named plans request.headers where
  contentLength : request.headers.getAll "content-length" = [utf8 (toString request.bytes.length)]
  host : request.headers.getAll "host" = [utf8 authority]

theorem prepareUpstream_framed (target : ForwardTarget) (parts : RequestParts) (invalid : String)
    (repeatUri : Option String) (body : List Arrival) (state : ServiceState) (cleared : Cleared named [] parts.headers) :
    Ensures (prepareUpstream env requestHead service target parts invalid repeatUri body) state
      (fun outcome _ => ∀ upstream, outcome = .ok upstream → upstream.way ≠ .streaming →
        ∃ plans, (∀ plan ∈ plans, Proposed env requestHead parts.method upstream.uri repeatUri plan) ∧
          Framed target.authority named plans upstream)
      (fun _ _ => True) := by
  refine ensures_then (runRequestHeadHooks_rewrites env requestHead service.flow _ repeatUri state) ?_
  intro hooked after known
  obtain ⟨plans,proposed,rewrites⟩ := known
  have still := cleared.rewritten rewrites
  split
  · exact ensures_pure (fun _ never => by cases never)
  · rename_i headers hosts
    obtain ⟨clear,host⟩ := still.regenerated hosts
    have looks : Ensures (bodyWay env) after (fun way same => way = wayAt env same) (fun _ _ => True) :=
      ensures_ok rfl rfl
    refine ensures_then looks ?_
    intro way looked seen
    by_cases streams : way = .streaming
    · refine ensures_then (ensures_any _ looked) ?_
      intro prepared _ _
      cases prepared with
      | refused => exact ensures_pure (fun _ never => by cases never)
      | forwarded =>
          refine ensures_pure ?_
          intro upstream same bounded
          cases same
          exact absurd streams bounded
    · refine ensures_then (HttpService.prepareRequestBody_framed env requestHead service
        {parts with headers := headers} repeatUri body looked (seen ▸ streams)) ?_
      intro prepared _ framing
      cases prepared with
      | refused => exact ensures_pure (fun _ never => by cases never)
      | forwarded =>
          obtain ⟨more,alsoProposed,further,contentLength⟩ := framing
          refine ensures_pure ?_
          intro upstream same _
          cases same
          refine ⟨plans ++ more,?_,clear.rewritten further,contentLength,further.host.trans host⟩
          intro plan member
          exact (List.mem_append.mp member).elim (proposed plan) (alsoProposed plan)

theorem sendUpstreamRequest_sent (sends : sendUpstreamRequest network found chosen ready = .sent target address upstream) :
    found = target ∧ ready = upstream := by
  unfold sendUpstreamRequest at sends
  split at sends
  · cases sends
  · cases sends
    exact ⟨rfl,rfl⟩

theorem forwardPermitted_framed (network : Network) (request : HttpRequest) (body : List Arrival) (found : ForwardTarget)
    (headers : HeaderMap) (addresses : List SocketAddr) (state : ServiceState) (cleared : Cleared named [] headers)
    (forwarded : (forwardPermitted env requestHead service network request body found headers addresses).run state =
      .ok (.sent target address upstream) after)
    (bounded : upstream.way ≠ .streaming) :
    found = target ∧ ∃ plans,
      (∀ plan ∈ plans, Proposed env requestHead request.method upstream.uri (some request.uri.text) plan) ∧
      Framed target.authority named plans upstream := by
  unfold forwardPermitted at forwarded
  split at forwarded
  · cases forwarded
  · obtain ⟨outcome,prepared,prepares,forwarded⟩ := bind_ok.mp forwarded
    cases outcome with
    | error => cases forwarded
    | ok ready =>
        have framed := ensures_answer (prepareUpstream_framed env requestHead service found
          (forwardParts request found headers) _ _ body state cleared) prepares ready rfl
        injection forwarded with sends
        obtain ⟨mine,whole⟩ := sendUpstreamRequest_sent sends
        subst mine whole
        exact ⟨rfl,framed bounded⟩

-- What the operator is shown instead of the target that goes out.
def Route.shownUri (request : HttpRequest) : Route → Option String
  | .listener _ => some request.uri.text
  | .tunnel _ _ _ canonicalUri => canonicalUri request.uri.pathAndQuery

-- However a request comes in, if its body is held back then what goes out is
-- framed and routed by the proxy alone.
theorem bounded_request_framed (route : Route) (request : HttpRequest) (body : List Arrival) (state : ServiceState)
    (forwarded : (route.forward env crate requestHead listener service request body).run state =
      .ok (.sent target address upstream) after)
    (bounded : upstream.way ≠ .streaming) :
    route.target crate request = .ok target ∧ ∃ named plans, Headers.nominated request.headers = some named ∧
      (∀ plan ∈ plans, Proposed env requestHead request.method upstream.uri (route.shownUri request) plan) ∧
      Framed target.authority named plans upstream := by
  cases route with
  | listener network =>
      unfold Route.forward forwardUpstream at forwarded
      dsimp only at forwarded
      split at forwarded
      · cases forwarded
      · rename_i found headers screened
        obtain ⟨targeted,passed⟩ := screenForward_ok crate service screened
        obtain ⟨named,nominated,cleared⟩ := forwardedHead_cleared passed
        obtain ⟨addresses,resolved,_,forwarded⟩ := bind_ok.mp forwarded
        obtain ⟨verdict,judged,_,forwarded⟩ := bind_ok.mp forwarded
        cases verdict with
        | some => cases forwarded
        | none =>
            obtain ⟨same,plans,proposed,framed⟩ := forwardPermitted_framed env requestHead service network
              request body found headers addresses judged cleared forwarded bounded
            subst same
            exact ⟨targeted,named,plans,nominated,proposed,framed⟩
  | tunnel through selectedAddress protocol canonicalUri =>
      unfold Route.forward forwardInterceptedUpstream at forwarded
      dsimp only at forwarded
      split at forwarded
      · cases forwarded
      · rename_i headers screened
        obtain ⟨named,nominated,cleared⟩ := forwardedHead_cleared (screenIntercepted_ok crate service screened)
        obtain ⟨verdict,judged,_,forwarded⟩ := bind_ok.mp forwarded
        cases verdict with
        | some => cases forwarded
        | none =>
            obtain ⟨outcome,prepared,prepares,forwarded⟩ := bind_ok.mp forwarded
            cases outcome with
            | error => cases forwarded
            | ok ready =>
                have framed := ensures_answer (prepareUpstream_framed env requestHead service through
                  ⟨request.method,_,_,headers⟩ _ _ body judged cleared) prepares ready rfl
                cases forwarded
                obtain ⟨plans,proposed,framed⟩ := framed bounded
                exact ⟨rfl,named,plans,nominated,proposed,framed⟩

def directCrate : HttpCrate :=
  {plainCrate with parseIp := fun text => if text = "203.0.113.7" then some (.v4 203 0 113 7) else none}

theorem directFront_plain : ∀ character ∈ (UriParts.front ⟨some "http",some "203.0.113.7","/a",none⟩).toList,
    character ≠ '?' ∧ character ≠ '#' := by
  refine List.all_iff_forall_prop.mp ?_
  decide +kernel

theorem no_query (text : String) (same : none = some text) :
    ∀ character ∈ text.toList, Visible character ∧ character ≠ '#' := by
  cases same

def directUri : Uri :=
  {scheme := some "http",authority := some "203.0.113.7",path := "/a",query := none,split := ⟨directFront_plain,no_query⟩}

def nominatingEntries : List (String × List (List UInt8)) :=
  [("host",[ascii "other.test"]),("connection",[ascii "x-trace, close"]),("x-trace",[ascii "a"]),("te",[ascii "trailers"]),
   ("content-length",[ascii "9"])]

theorem nominatingEntries_distinct : (nominatingEntries.map Prod.fst).Nodup := by decide

def nominatingHead : HeaderMap := ⟨nominatingEntries,nominatingEntries_distinct⟩

theorem nominatingHead_proper : nominatingHead.Proper where
  lower := by
    refine List.all_iff_forall_prop.mp ?_
    decide +kernel
  filled := by
    have filled : nominatingEntries.all (fun entry => !entry.2.isEmpty) = true := by decide +kernel
    intro entry member empty
    have there := List.all_eq_true.mp filled entry member
    rw [empty] at there
    cases there

def nominatingRequest : HttpRequest := ⟨"POST",directUri,.http11,nominatingHead,nominatingHead_proper⟩

def reachable : Network := ⟨fun _ => .connected,fun _ => .ready⟩

-- A hook that puts the named field back.
def tracingHooks : RequestHeadHooks := fun calls _ => (.ok ⟨[.set "x-trace" (ascii "b")]⟩,calls + 1)

def hookedEnvironment : Environment := {reloadedEnvironment 0 with hooks := ⟨.automatic,⟨[],[],[],[]⟩,.failClosed⟩}

def nominatingRun : EStateM.Result ProxyError ServiceState Forwarded :=
  ((Route.listener reachable).forward hookedEnvironment directCrate tracingHooks ⟨.v4 192 0 2 1,none,[]⟩ smallService
    nominatingRequest [⟨.data (ascii "ab"),true⟩,⟨.data (ascii "cd"),true⟩]).run idleState

def directTarget : ForwardTarget := ⟨.ip (.v4 203 0 113 7),⟨80,Port.http⟩,"203.0.113.7",some "/a"⟩

def directAddress : SocketAddr := ⟨.v4 203 0 113 7,⟨80,Port.http⟩⟩

def framedEntries : List (String × List (List UInt8)) :=
  [("host",[ascii "203.0.113.7"]),("content-length",[ascii "4"]),("x-trace",[ascii "b"])]

theorem framedEntries_distinct : (framedEntries.map Prod.fst).Nodup := by decide

def framedUpstream : UpstreamRequest :=
  ⟨"POST","/a",.http11,⟨framedEntries,framedEntries_distinct⟩,[⟨.ok (.data (ascii "abcd")),ascii "abcd",ascii "abcd"⟩],
    .preflight⟩

-- The named field goes, and comes back with the value of the hook.
theorem nominated_field_framed : answerOf nominatingRun = some (.sent directTarget directAddress framedUpstream) ∧
    ∃ named plans, Headers.nominated nominatingHead = some named ∧
      (∀ plan ∈ plans, Proposed hookedEnvironment tracingHooks "POST" "/a" (some directUri.text) plan) ∧
      Framed "203.0.113.7" named plans framedUpstream := by
  have answered : answerOf nominatingRun = some (.sent directTarget directAddress framedUpstream) := by decide +kernel
  obtain ⟨after,ran⟩ := answerOf_ok answered
  have held : framedUpstream.way ≠ .streaming := by decide
  exact ⟨answered,(bounded_request_framed hookedEnvironment directCrate tracingHooks ⟨.v4 192 0 2 1,none,[]⟩ smallService
    (.listener reachable) nominatingRequest _ idleState ran held).2⟩

end Freja.Proxy
