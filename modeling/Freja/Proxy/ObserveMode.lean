import Freja.Proxy.InspectionTrail

namespace Freja.Proxy
open Domain Policy Audit Effect Bytes

variable (env : Environment)

def Inactive (events : List AuditEvent) : Prop := ∀ decision, .actionExecuted decision ∉ events

-- A run that ends as `outcome` says, unless auditing fails, and that publishes
-- no executed action either way.
def Undisturbed (program : Task α) (state : ServiceState) (view : α → β) (outcome : Except ProxyError β) : Prop :=
  let unacted (after : ServiceState) :=
    ∃ sent, after.attempted = state.attempted ++ sent ∧ Inactive (sent.map AuditEnvelope.event)
  Ensures program state (fun value after => outcome = .ok (view value) ∧ unacted after)
    (fun error after => (outcome = .error error ∨ Unaudited env error) ∧ unacted after)

theorem Inactive.append (early : Inactive first) (late : Inactive second) : Inactive (first ++ second) := by
  intro decision member
  rcases List.mem_append.mp member with before | behind
  · exact early decision before
  · exact late decision behind

theorem Inactive.left (whole : Inactive (first ++ second)) : Inactive first :=
  fun decision member => whole decision (List.mem_append_left _ member)

variable {env}

theorem undisturbed_of_script {program : Task α} {script : AuditScript α}
    (follows : Follows (auditing env) program state script) (view : α → β)
    (inactive : Inactive script.events) : Undisturbed env program state view (script.outcome.map view) := by
  refine ensures_weaken follows ?_ ?_
  · intro value after done
    obtain ⟨answered,sent,events,sends,_⟩ := done
    exact ⟨by rw [answered]; rfl,sent,sends.attempted,events ▸ inactive⟩
  · intro error after stopped
    rcases stopped with ⟨ended,sent,events,sends,_⟩ | ⟨sent,lost,rest,events,sends,_,strict,⟨send,closed⟩,audit⟩
    · exact ⟨.inl (by rw [ended]; rfl),sent,sends.attempted,events ▸ inactive⟩
    · refine ⟨.inr ⟨?_,_,audit⟩,sent ++ [lost],sends.attempted,?_⟩
      · intro reliable
        rcases reliable with lenient | opened
        · rw [strict] at lenient
          cases lenient
        · exact opened send closed
      · rw [events] at inactive
        have start : sent.map AuditEnvelope.event ++ lost.event :: rest =
            (sent ++ [lost]).map AuditEnvelope.event ++ rest := by simp
        rw [start] at inactive
        exact inactive.left

theorem requestedTrail_inactive (snapshot : PolicySnapshot) (target : RequestedTargetFacts) :
    Inactive (requestedTrail snapshot target) := by
  intro decision member
  simp [requestedTrail] at member

theorem resolutionTrail_inactive (snapshot : PolicySnapshot) (selected : RequestedTargetFacts)
    (addresses : List SocketAddr) : Inactive (resolutionTrail snapshot selected addresses) := by
  intro decision member
  simp [resolutionTrail,addressTrail] at member

theorem requestTrail_inactive (snapshot : PolicySnapshot) (request : HttpPolicyRequest) (addresses : List SocketAddr) :
    Inactive (requestTrail snapshot request addresses) := by
  intro decision member
  simp [requestTrail] at member

theorem responseTrail_inactive (facts : HttpResponseFacts) (decision : Decision) :
    Inactive (responseTrail facts decision) := by
  intro other member
  simp [responseTrail] at member

-- Nothing the policy or the inspection program decides is refused.
structure LetsThrough (snapshot : PolicySnapshot) : Prop where
  facts : ∀ facts, snapshot.permits (snapshot.policy.evaluate facts) = true
  findings : ∀ finding protocol, snapshot.permits (snapshot.inspection.evaluate finding protocol) = true

-- The policy without a rule, the program without a pattern.
structure Unrestricted (snapshot : PolicySnapshot) : Prop where
  rules : snapshot.policy.rules = []
  default : snapshot.policy.defaultAction = .allow
  patterns : snapshot.inspection.patterns = []

def Unguarded (snapshot : PolicySnapshot) (target : RequestedTargetFacts) (addresses : List SocketAddr) : Prop :=
  ∀ address ∈ addresses, snapshot.destinationGuard.evaluate snapshot.policy.generation ⟨target,address.ip⟩ = none

theorem permits_observed (observed : snapshot.enforcement = .observe) (decision : Decision) :
    PolicySnapshot.permits snapshot decision = true := by
  simp [PolicySnapshot.permits,observed]

theorem LetsThrough.observed (observed : snapshot.enforcement = .observe) : LetsThrough snapshot :=
  ⟨fun _ => permits_observed observed _,fun _ _ => permits_observed observed _⟩

theorem Unrestricted.letsThrough (unrestricted : Unrestricted snapshot) : LetsThrough snapshot := by
  constructor
  · intro facts
    have action : (snapshot.policy.evaluate facts).action = .allow := by
      rw [AclPolicy.evaluate_action,AclPolicy.selectedAction,unrestricted.rules]
      simp [firstMatch,unrestricted.default,enforcementAction]
    simp [PolicySnapshot.permits,action]
  · intro finding protocol
    have action : (snapshot.inspection.evaluate finding protocol).action = .allow := by
      simp [InspectionProgram.evaluate,unrestricted.patterns,InspectionProgram.streamingAction,Decision.new]
    simp [PolicySnapshot.permits,action]

theorem firstRefused_none (snapshot : PolicySnapshot) (decisions : List Decision)
    (permitted : ∀ decision ∈ decisions, snapshot.permits decision = true) : firstRefused snapshot decisions = none := by
  refine List.find?_eq_none.mpr ?_
  intro decision member
  simp [permitted decision member]

theorem refusal_observed (observed : snapshot.enforcement = .observe) (target : RequestedTargetFacts)
    (addresses : List SocketAddr) : refusal snapshot target addresses = none :=
  firstRefused_none snapshot _ (fun decision _ => permits_observed observed decision)

theorem refusal_unguarded (lets : LetsThrough snapshot) (unguarded : Unguarded snapshot target addresses) :
    refusal snapshot target addresses = none := by
  apply firstRefused_none
  intro decision member
  obtain ⟨address,listed,decided⟩ := List.mem_flatMap.mp member
  rw [addressDecisions,unguarded address listed] at decided
  rw [List.mem_singleton.mp decided]
  exact lets.facts _

theorem authorizationScript_undisturbed (snapshot : PolicySnapshot) (requested : RequestedTargetFacts)
    (lets : LetsThrough snapshot)
    (clear : ∀ addresses, resolve env requested = .ok addresses → refusal snapshot requested addresses = none) :
    (authorizationScript env snapshot requested).outcome = resolve env requested ∧
      Inactive (authorizationScript env snapshot requested).events := by
  have permitted := lets.facts (.requested requested)
  have first : requestedScript snapshot requested = ⟨requestedTrail snapshot requested,.ok requested⟩ := by
    rcases passScript_cases snapshot requested (secondPassScript snapshot) with ⟨_,cleared⟩ | ⟨refused,_⟩
    · exact cleared
    · rw [permitted] at refused
      cases refused
  unfold authorizationScript
  rw [first,Script.bind_outcome_ok rfl]
  cases resolved : resolve env requested with
  | error =>
      rw [Script.bind_outcome_error rfl]
      refine ⟨rfl,?_⟩
      exact (requestedTrail_inactive snapshot requested).append (fun _ member => by cases member)
  | ok addresses =>
      rw [Script.bind_outcome_ok rfl,Script.say_bind,resolvedScript_eq snapshot requested addresses permitted,
        clear addresses resolved,Script.bind_outcome_ok rfl]
      refine ⟨rfl,(requestedTrail_inactive snapshot requested).append ?_⟩
      have said := resolutionTrail_inactive snapshot requested addresses
      simpa [resolutionTrail,Script.ofExcept] using said

theorem authorize_undisturbed (flow : Flow) (requested : RequestedTargetFacts) (state : ServiceState)
    (lets : LetsThrough (env.live state.loads))
    (clear : ∀ addresses, resolve env requested = .ok addresses →
      refusal (env.live state.loads) requested addresses = none) :
    Undisturbed env (authorizeAndResolve env flow requested) state id (resolve env requested) := by
  have follows := @authorizeAndResolve_follows env flow requested state
  obtain ⟨answered,inactive⟩ := authorizationScript_undisturbed _ requested lets clear
  rw [← answered]
  simpa [Except.map_id] using undisturbed_of_script follows id inactive

theorem httpPolicy_undisturbed (flow : Flow) (request : HttpPolicyRequest) (addresses : List SocketAddr)
    (state : ServiceState) (lets : LetsThrough (env.live state.loads)) :
    Undisturbed env (evaluateHttpPolicy env flow request addresses) state id (.ok none) := by
  have follows := @evaluateHttpPolicy_follows env flow request addresses state
  have clear : requestDenial (env.live state.loads) request addresses = none := by
    apply firstRefused_none
    intro decision member
    obtain ⟨address,_,rfl⟩ := List.mem_map.mp member
    exact lets.facts _
  simp only [clear] at follows
  exact undisturbed_of_script follows id
    ((requestTrail_inactive _ request addresses).append (fun _ member => by cases member))

theorem httpResponsePolicy_undisturbed (flow : Flow) (response : HttpPolicyResponse) (state : ServiceState)
    (lets : LetsThrough (env.live state.loads)) :
    Undisturbed env (evaluateHttpResponsePolicy env flow response) state id (.ok true) := by
  have follows := @evaluateHttpResponsePolicy_follows env flow response state
  simp only [denialOf,lets.facts,if_true] at follows
  exact undisturbed_of_script follows id
    ((responseTrail_inactive response.facts _).append (fun _ member => by cases member))

namespace FlowInspector

variable (inspector : FlowInspector) (direction : Direction) (bytes : List UInt8)

theorem judgeScript_undisturbed (findings : List Finding) (lets : LetsThrough inspector.decision) :
    (inspector.judgeScript findings).outcome = .ok true ∧ Inactive (inspector.judgeScript findings).events := by
  induction findings with
  | nil => exact ⟨rfl,fun _ member => by cases member⟩
  | cons finding rest ih =>
      unfold judgeScript
      simp only [lets.findings,if_true,Script.say_bind]
      refine ⟨ih.1,?_⟩
      intro decision member
      simp only [List.mem_cons,reduceCtorEq,false_or] at member
      exact ih.2 decision member

theorem captureScript_undisturbed :
    ∃ captured, (inspector.captureScript env direction bytes).outcome =
        .ok {inspector with captured := captured} ∧
      Inactive (inspector.captureScript env direction bytes).events := by
  unfold captureScript
  cases env.capturePrefixBytes with
  | none => exact ⟨inspector.captured,rfl,fun _ member => by cases member⟩
  | some =>
      dsimp only
      split
      · exact ⟨inspector.captured,rfl,fun _ member => by cases member⟩
      · refine ⟨_,rfl,?_⟩
        intro decision member
        simp at member

theorem permitsScript_undisturbed (lets : LetsThrough inspector.decision) :
    (inspector.permitsScript env direction bytes).outcome.map Prod.fst = .ok true ∧
      Inactive (inspector.permitsScript env direction bytes).events := by
  obtain ⟨captured,answered,inactive⟩ := captureScript_undisturbed inspector direction bytes
  unfold permitsScript
  rw [Script.bind_outcome_ok answered]
  split
  · exact ⟨rfl,inactive.append (fun _ member => by cases member)⟩
  · -- A scan keeps the snapshot the inspector was made with.
    have same : (FlowInspector.scan env {inspector with captured := captured} direction bytes).1.decision =
      inspector.decision := rfl
    cases scanned : FlowInspector.scan env {inspector with captured := captured} direction bytes with
    | mk next findings =>
        rw [scanned] at same
        obtain ⟨verdict,quiet⟩ := judgeScript_undisturbed next findings (same ▸ lets)
        dsimp only
        rw [Script.bind_outcome_ok verdict]
        exact ⟨rfl,inactive.append (quiet.append (fun _ member => by cases member))⟩

theorem permits_undisturbed (state : ServiceState) (lets : LetsThrough inspector.decision) :
    Undisturbed env (inspector.permits env direction bytes) state Prod.fst (.ok true) := by
  have follows := @permits_follows env inspector direction bytes state
  obtain ⟨answered,inactive⟩ := permitsScript_undisturbed inspector direction bytes lets
  rw [← answered]
  exact undisturbed_of_script follows Prod.fst inactive

end FlowInspector

variable (env)

-- What an observing snapshot answers is what an unrestricted one answers, as
-- long as the destination guard of the latter has nothing to say.
theorem observe_changes_nothing (reference : Environment) (state other : ServiceState)
    (sameResolver : reference.lookupHost = env.lookupHost)
    (observed : (env.live state.loads).enforcement = .observe)
    (unrestricted : Unrestricted (reference.live other.loads)) (flow : Flow) :
    (∀ requested,
      Undisturbed env (authorizeAndResolve env flow requested) state id (resolve env requested) ∧
      ((∀ addresses, resolve env requested = .ok addresses →
          Unguarded (reference.live other.loads) requested addresses) →
        Undisturbed reference (authorizeAndResolve reference flow requested) other id (resolve env requested))) ∧
    (∀ request addresses,
      Undisturbed env (evaluateHttpPolicy env flow request addresses) state id (.ok none) ∧
      Undisturbed reference (evaluateHttpPolicy reference flow request addresses) other id (.ok none)) ∧
    (∀ response,
      Undisturbed env (evaluateHttpResponsePolicy env flow response) state id (.ok true) ∧
      Undisturbed reference (evaluateHttpResponsePolicy reference flow response) other id (.ok true)) ∧
    ∀ inspector direction bytes,
      (inspector.decision.enforcement = .observe →
        Undisturbed env (FlowInspector.permits env inspector direction bytes) state Prod.fst (.ok true)) ∧
      (Unrestricted inspector.decision →
        Undisturbed reference (FlowInspector.permits reference inspector direction bytes) other Prod.fst (.ok true)) := by
  have lets := LetsThrough.observed observed
  have letsReference := unrestricted.letsThrough
  have sameAnswers (requested : RequestedTargetFacts) : resolve reference requested = resolve env requested := by
    simp only [resolve,candidates,lookupAnswer,sameResolver]
  refine ⟨?_,?_,?_,?_⟩
  · intro requested
    refine ⟨authorize_undisturbed flow requested state lets
      (fun addresses _ => refusal_observed observed requested addresses),?_⟩
    intro unguarded
    rw [← sameAnswers]
    apply authorize_undisturbed flow requested other letsReference
    intro addresses resolved
    rw [sameAnswers] at resolved
    exact refusal_unguarded letsReference (unguarded addresses resolved)
  · intro request addresses
    exact ⟨httpPolicy_undisturbed flow request addresses state lets,
      httpPolicy_undisturbed flow request addresses other letsReference⟩
  · intro response
    exact ⟨httpResponsePolicy_undisturbed flow response state lets,
      httpResponsePolicy_undisturbed flow response other letsReference⟩
  · intro inspector direction bytes
    exact ⟨fun watching => FlowInspector.permits_undisturbed inspector direction bytes state (.observed watching),
      fun free => FlowInspector.permits_undisturbed inspector direction bytes other free.letsThrough⟩

def watchedEnvironment : Environment :=
  {detourEnvironment with
    live := fun load => {detourEnvironment.live load with enforcement := .observe}
    lookupHost := fun _ port => .answered [⟨.v4 192 0 2 10,port⟩]}

def unrestrictedEnvironment : Environment :=
  {watchedEnvironment with
    live := fun load => {detourEnvironment.live load with policy := ⟨.initial,[],.allow,checkPolicy_allow⟩}}

-- The detour that is only observed leaves the target its own address.
theorem observe_changes_nothing_detour :
    let address : SocketAddr := ⟨.v4 192 0 2 10,detourRequest.destinationPort⟩
    let inspector (snapshot : PolicySnapshot) := FlowInspector.ofSnapshot snapshot ⟨⟨1⟩,none⟩ .tcp 16
    (watchedEnvironment.live idleState.loads).enforcement = .observe ∧
      Undisturbed watchedEnvironment (authorizeAndResolve watchedEnvironment ⟨⟨1⟩,none⟩ detourRequest) idleState id
        (.ok [address]) ∧
      Undisturbed unrestrictedEnvironment (authorizeAndResolve unrestrictedEnvironment ⟨⟨1⟩,none⟩ detourRequest) idleState
        id (.ok [address]) ∧
      Undisturbed watchedEnvironment ((inspector (watchedEnvironment.live 0)).permits watchedEnvironment
        .clientToUpstream [1]) idleState Prod.fst (.ok true) ∧
      Undisturbed unrestrictedEnvironment ((inspector (unrestrictedEnvironment.live 0)).permits unrestrictedEnvironment
        .clientToUpstream [1]) idleState Prod.fst (.ok true) := by
  intro address inspector
  have unrestricted : Unrestricted (unrestrictedEnvironment.live 0) := ⟨rfl,rfl,rfl⟩
  have resolved : resolve watchedEnvironment detourRequest = .ok [address] := by decide +kernel
  obtain ⟨authorized,_,_,inspected⟩ := observe_changes_nothing watchedEnvironment unrestrictedEnvironment idleState
    idleState rfl rfl unrestricted ⟨⟨1⟩,none⟩
  obtain ⟨watched,free⟩ := authorized detourRequest
  rw [resolved] at watched free
  refine ⟨rfl,watched,free ?_,(inspected _ _ _).1 rfl,(inspected _ _ _).2 unrestricted⟩
  intro addresses answered other member
  cases answered
  rw [List.mem_singleton.mp member]
  decide +kernel

end Freja.Proxy
