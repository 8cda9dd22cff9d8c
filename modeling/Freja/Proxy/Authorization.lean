import Freja.Proxy.AuditTrail

namespace Freja.Proxy
open Domain Policy Audit Effect IpAddress

abbrev AuditScript := Script AuditEvent ProxyError

-- One pass over a requested target; `follow` says what comes of a detour.
def passScript (snapshot : PolicySnapshot) (selected : RequestedTargetFacts)
    (follow : RequestedTargetFacts → AuditScript RequestedTargetFacts) : AuditScript RequestedTargetFacts := do
  .say (.replayFactsObserved (.requested selected))
  let decision := snapshot.policy.evaluate (.requested selected)
  .say (.aclEvaluated decision)
  if snapshot.permits decision then return selected
  else
    .say (.actionExecuted decision)
    match decision.action with
    | .tcpDetour detour => follow (detourTo selected detour.destination)
    | _ => throw (.policyDenied decision)

def secondPassScript (snapshot : PolicySnapshot) (target : RequestedTargetFacts) : AuditScript RequestedTargetFacts :=
  passScript snapshot target (fun _ => throw (.detourLoop (snapshot.policy.evaluate (.requested target))))

def requestedScript (snapshot : PolicySnapshot) (requested : RequestedTargetFacts) : AuditScript RequestedTargetFacts :=
  passScript snapshot requested (secondPassScript snapshot)

def guardScript (snapshot : PolicySnapshot) (resolved : ResolvedTargetFacts) (firstDenial : Option Decision) :
    AuditScript (Option Decision) :=
  match snapshot.destinationGuard.evaluate snapshot.policy.generation resolved with
  | none => return firstDenial
  | some decision => do
      .say (.aclEvaluated decision)
      return rememberDenial snapshot decision firstDenial

def addressesScript (snapshot : PolicySnapshot) (selected : RequestedTargetFacts) :
    List SocketAddr → Option Decision → AuditScript (Option Decision)
  | [],firstDenial => return firstDenial
  | address :: rest,firstDenial => do
      let resolved : ResolvedTargetFacts := ⟨selected,address.ip⟩
      .say (.replayFactsObserved (.resolved resolved))
      let guarded ← guardScript snapshot resolved firstDenial
      let decision := snapshot.policy.evaluate (.resolved resolved)
      .say (.aclEvaluated decision)
      if decision.action.isDetour && !snapshot.permits decision then
        .say (.actionExecuted decision)
        throw (.detourLoop decision)
      else addressesScript snapshot selected rest (rememberDenial snapshot decision guarded)

def resolvedScript (snapshot : PolicySnapshot) (selected : RequestedTargetFacts) (addresses : List SocketAddr) :
    AuditScript Unit := do
  let firstDenial ← addressesScript snapshot selected addresses none
  match firstDenial with
  | none => return ()
  | some decision =>
      .say (.actionExecuted decision)
      throw (.policyDenied decision)

variable (env : Environment)

def authorizationScript (snapshot : PolicySnapshot) (requested : RequestedTargetFacts) : AuditScript (List SocketAddr) := do
  let selected ← requestedScript snapshot requested
  let addresses ← .ofExcept (resolve env selected)
  .say (.targetResolved selected.requestedHost.asHostText (addresses.map (·.ip)))
  resolvedScript snapshot selected addresses
  return addresses

variable (snapshot : PolicySnapshot) (flow : Flow) (requested : RequestedTargetFacts)

variable {env}

theorem authorizeLoop_follows (selected : RequestedTargetFacts) (detoured : Bool)
    (follow : RequestedTargetFacts → AuditScript RequestedTargetFacts) (state : ServiceState)
    (last : detoured = true → ∀ target, follow target = throw (.detourLoop (snapshot.policy.evaluate (.requested selected))))
    (once : detoured = false → ∀ target state,
      Follows (auditing env) (authorizeLoop env snapshot flow target true) state (follow target)) :
    Follows (auditing env) (authorizeLoop env snapshot flow selected detoured) state
      (passScript snapshot selected follow) := by
  rw [authorizeLoop]
  unfold passScript
  refine follows_bind (publishReplayFacts_follows flow _ state) ?_
  intro _ observed _
  refine follows_bind (publishDecision_follows flow _ observed) ?_
  intro _ evaluated _
  cases permitted : snapshot.permits (snapshot.policy.evaluate (.requested selected)) with
  | true =>
      simp only [if_true]
      split <;> exact follows_pure selected
  | false =>
      simp only [Bool.false_eq_true,if_false]
      cases (snapshot.policy.evaluate (.requested selected)).action with
      | tcpDetour =>
          refine follows_bind (recordAction_follows flow _ evaluated) ?_
          intro _ recorded _
          by_cases again : detoured = true
          · simp only [again,dite_true,last again]
            exact follows_throw _
          · simp only [again]
            exact once (by simpa using again) _ recorded
      | allow | httpReject _ | tcpClose _ =>
          refine follows_bind (recordAction_follows flow _ evaluated) ?_
          intro _ recorded _
          exact follows_throw _

theorem authorizeRequestedTarget_follows (state : ServiceState) :
    Follows (auditing env) (authorizeRequestedTarget env snapshot flow requested) state
      (requestedScript snapshot requested) := by
  refine authorizeLoop_follows snapshot flow requested false _ state (fun no => by cases no) ?_
  intro _ target state
  exact authorizeLoop_follows snapshot flow target true _ state (fun _ _ => rfl) (fun no => by cases no)

theorem evaluateGuard_follows (resolved : ResolvedTargetFacts) (firstDenial : Option Decision) (state : ServiceState) :
    Follows (auditing env) (evaluateGuard env snapshot flow resolved firstDenial) state
      (guardScript snapshot resolved firstDenial) := by
  unfold evaluateGuard guardScript
  cases snapshot.destinationGuard.evaluate snapshot.policy.generation resolved with
  | none => exact follows_pure firstDenial
  | some =>
      refine follows_bind (publishDecision_follows flow _ state) ?_
      intro _ published _
      exact follows_pure _

theorem authorizeAddresses_follows (selected : RequestedTargetFacts) (addresses : List SocketAddr)
    (firstDenial : Option Decision) (state : ServiceState) :
    Follows (auditing env) (authorizeAddresses env snapshot flow selected addresses firstDenial) state
      (addressesScript snapshot selected addresses firstDenial) := by
  induction addresses generalizing firstDenial state with
  | nil => exact follows_pure firstDenial
  | cons address rest ih =>
      unfold authorizeAddresses addressesScript
      refine follows_bind (publishReplayFacts_follows flow _ state) ?_
      intro _ observed _
      refine follows_bind (evaluateGuard_follows snapshot flow _ firstDenial observed) ?_
      intro guarded checked _
      refine follows_bind (publishDecision_follows flow _ checked) ?_
      intro _ evaluated _
      split
      · refine follows_bind (recordAction_follows flow _ evaluated) ?_
        intro _ recorded _
        exact follows_throw _
      · exact ih _ evaluated

theorem authorizeResolvedTargets_follows (selected : RequestedTargetFacts) (addresses : List SocketAddr)
    (state : ServiceState) :
    Follows (auditing env) (authorizeResolvedTargets env snapshot flow selected addresses) state
      (resolvedScript snapshot selected addresses) := by
  refine follows_bind (authorizeAddresses_follows snapshot flow selected addresses none state) ?_
  intro firstDenial checked _
  cases firstDenial with
  | none => exact follows_pure ()
  | some =>
      refine follows_bind (recordAction_follows flow _ checked) ?_
      intro _ recorded _
      exact follows_throw _

theorem decisionSnapshot_follows (state : ServiceState) :
    Follows (auditing env) (decisionSnapshot env) state (pure (env.live state.loads)) := by
  exact follows_quiet rfl (.nothing (Nat.le_succ _) rfl rfl)

theorem authorizeAndResolve_follows (state : ServiceState) :
    Follows (auditing env) (authorizeAndResolve env flow requested) state
      (authorizationScript env (env.live state.loads) requested) := by
  refine (follows_bind (decisionSnapshot_follows state) ?_ :
    Follows _ _ _ (pure (env.live state.loads) >>= fun snapshot =>
      authorizationScript env snapshot requested))
  intro snapshot loaded _
  refine follows_bind (authorizeRequestedTarget_follows snapshot flow requested loaded) ?_
  intro selected authorized _
  refine follows_bind (follows_ofExcept (resolve env selected)) ?_
  intro addresses resolved _
  refine follows_bind (publishEvent_follows flow (.targetResolved _ _) trivial resolved) ?_
  intro _ announced _
  refine follows_bind (authorizeResolvedTargets_follows snapshot flow selected addresses announced) ?_
  intro _ checked _
  exact follows_pure addresses

-- The decisions of one resolved address, in the order of their evaluation.
def addressDecisions (snapshot : PolicySnapshot) (selected : RequestedTargetFacts) (address : SocketAddr) : List Decision :=
  (snapshot.destinationGuard.evaluate snapshot.policy.generation ⟨selected,address.ip⟩).toList ++
    [snapshot.policy.evaluate (.resolved ⟨selected,address.ip⟩)]

def addressTrail (snapshot : PolicySnapshot) (selected : RequestedTargetFacts) (address : SocketAddr) : List AuditEvent :=
  .replayFactsObserved (.resolved ⟨selected,address.ip⟩) :: (addressDecisions snapshot selected address).map .aclEvaluated

def requestedTrail (snapshot : PolicySnapshot) (target : RequestedTargetFacts) : List AuditEvent :=
  [.replayFactsObserved (.requested target),.aclEvaluated (snapshot.policy.evaluate (.requested target))]

def firstRefused (snapshot : PolicySnapshot) (decisions : List Decision) : Option Decision :=
  decisions.find? (fun decision => !snapshot.permits decision)

theorem firstRefused_append (early late : List Decision) :
    firstRefused snapshot (early ++ late) = (firstRefused snapshot early).or (firstRefused snapshot late) :=
  List.find?_append

theorem rememberDenial_find (decision : Decision) (firstDenial : Option Decision) :
    rememberDenial snapshot decision firstDenial = firstDenial.or (firstRefused snapshot [decision]) := by
  unfold rememberDenial firstRefused
  cases firstDenial <;> cases permitted : snapshot.permits decision <;> simp [permitted]

theorem enforcementAction_isDetour (protocol : Protocol) (action : RuleAction)
    (detours : (enforcementAction protocol action).isDetour = true) : action.isDetour = true := by
  cases action with
  | detour => rfl
  | allow => cases detours
  | deny => cases protocol <;> cases detours

theorem enforcementAction_allow (protocol : Protocol) (action : RuleAction)
    (allowed : enforcementAction protocol action = .allow) : action = .allow := by
  cases action with
  | allow => rfl
  | deny | detour => cases protocol <;> cases allowed

theorem late_selected (enforced : snapshot.enforcement = .enforce) (selected : RequestedTargetFacts)
    (address : IpAddr) (permitted : snapshot.permits (snapshot.policy.evaluate (.requested selected)) = true) :
    (snapshot.policy.selectedAction (.resolved ⟨selected,address⟩)).isDetour = false := by
  rw [enforced_permits snapshot enforced,AclPolicy.evaluate_action] at permitted
  have allowed := enforcementAction_allow _ _ permitted
  cases late : (snapshot.policy.selectedAction (.resolved ⟨selected,address⟩)).isDetour with
  | false => rfl
  | true =>
      rw [snapshot.policy.detour_earlier (.resolved ⟨selected,address⟩) late] at allowed
      rw [allowed] at late
      cases late

theorem late_detour_permitted (selected : RequestedTargetFacts) (address : IpAddr)
    (permitted : snapshot.permits (snapshot.policy.evaluate (.requested selected)) = true) :
    ((snapshot.policy.evaluate (.resolved ⟨selected,address⟩)).action.isDetour &&
      !snapshot.permits (snapshot.policy.evaluate (.resolved ⟨selected,address⟩))) = false := by
  rw [Bool.and_eq_false_imp]
  intro detours
  cases mode : snapshot.enforcement with
  | observe => simp [PolicySnapshot.permits,mode]
  | enforce =>
      rw [AclPolicy.evaluate_action] at detours
      have none := late_selected snapshot mode selected address permitted
      rw [enforcementAction_isDetour _ _ detours] at none
      cases none

theorem guardScript_eq (resolved : ResolvedTargetFacts) (firstDenial : Option Decision) :
    let spoken := (snapshot.destinationGuard.evaluate snapshot.policy.generation resolved).toList
    guardScript snapshot resolved firstDenial =
      ⟨spoken.map .aclEvaluated,.ok (firstDenial.or (firstRefused snapshot spoken))⟩ := by
  unfold guardScript
  cases snapshot.destinationGuard.evaluate snapshot.policy.generation resolved with
  | none => cases firstDenial <;> rfl
  | some =>
      simp only [Option.toList_some,← rememberDenial_find]
      rfl

theorem addressesScript_eq (selected : RequestedTargetFacts) (addresses : List SocketAddr)
    (firstDenial : Option Decision)
    (permitted : snapshot.permits (snapshot.policy.evaluate (.requested selected)) = true) :
    addressesScript snapshot selected addresses firstDenial =
      ⟨addresses.flatMap (addressTrail snapshot selected),
        .ok (firstDenial.or (firstRefused snapshot (addresses.flatMap (addressDecisions snapshot selected))))⟩ := by
  induction addresses generalizing firstDenial with
  | nil => cases firstDenial <;> rfl
  | cons address rest ih =>
      unfold addressesScript
      simp only [guardScript_eq,late_detour_permitted snapshot selected address.ip permitted,Bool.false_eq_true,if_false,
        ih,rememberDenial_find]
      rw [Script.say_bind,Script.bind_outcome_ok rfl,List.flatMap_cons,List.flatMap_cons,firstRefused_append]
      congr 1
      · simp [addressTrail,addressDecisions]
      · rw [addressDecisions,firstRefused_append,← Option.or_assoc,← Option.or_assoc]
        rfl

-- How a target comes to be evaluated: it was asked for, or a detour led there.
inductive Reaches (snapshot : PolicySnapshot) (requested : RequestedTargetFacts) :
    RequestedTargetFacts → List AuditEvent → Prop
  | direct : Reaches snapshot requested requested []
  | detour (detour : TcpDetour) (action : (snapshot.policy.evaluate (.requested requested)).action = .tcpDetour detour)
      (followed : snapshot.permits (snapshot.policy.evaluate (.requested requested)) = false) :
      Reaches snapshot requested (detourTo requested detour.destination)
        (requestedTrail snapshot requested ++ [.actionExecuted (snapshot.policy.evaluate (.requested requested))])

theorem passScript_cases (selected : RequestedTargetFacts)
    (follow : RequestedTargetFacts → AuditScript RequestedTargetFacts) :
    let decision := snapshot.policy.evaluate (.requested selected)
    (snapshot.permits decision = true ∧
      passScript snapshot selected follow = ⟨requestedTrail snapshot selected,.ok selected⟩) ∨
    (snapshot.permits decision = false ∧
      ((∃ detour, decision.action = .tcpDetour detour ∧ passScript snapshot selected follow =
          ⟨requestedTrail snapshot selected ++ [.actionExecuted decision] ++
              (follow (detourTo selected detour.destination)).events,
            (follow (detourTo selected detour.destination)).outcome⟩) ∨
        passScript snapshot selected follow =
          ⟨requestedTrail snapshot selected ++ [.actionExecuted decision],.error (.policyDenied decision)⟩)) := by
  intro decision
  unfold passScript
  cases permitted : snapshot.permits decision with
  | true =>
      refine .inl ⟨rfl,?_⟩
      simp only [decision] at permitted
      simp only [permitted,if_true]
      rfl
  | false =>
      refine .inr ⟨rfl,?_⟩
      simp only [decision] at permitted
      simp only [permitted,Bool.false_eq_true,if_false]
      cases action : decision.action with
      | tcpDetour detour =>
          exact .inl ⟨detour,rfl,rfl⟩
      | allow | httpReject _ | tcpClose _ => exact .inr rfl

inductive RequestedOutcome (snapshot : PolicySnapshot) (requested : RequestedTargetFacts) :
    AuditScript RequestedTargetFacts → Prop
  | cleared (reached : Reaches snapshot requested target before)
      (permitted : snapshot.permits (snapshot.policy.evaluate (.requested target)) = true) :
      RequestedOutcome snapshot requested ⟨before ++ requestedTrail snapshot target,.ok target⟩
  | denied (reached : Reaches snapshot requested target before)
      (refused : snapshot.permits (snapshot.policy.evaluate (.requested target)) = false) :
      RequestedOutcome snapshot requested
        ⟨before ++ requestedTrail snapshot target ++ [.actionExecuted (snapshot.policy.evaluate (.requested target))],
          .error (.policyDenied (snapshot.policy.evaluate (.requested target)))⟩
  | looped (reached : Reaches snapshot requested target before)
      (refused : snapshot.permits (snapshot.policy.evaluate (.requested target)) = false) :
      RequestedOutcome snapshot requested
        ⟨before ++ requestedTrail snapshot target ++ [.actionExecuted (snapshot.policy.evaluate (.requested target))],
          .error (.detourLoop (snapshot.policy.evaluate (.requested target)))⟩

theorem requestedScript_outcome :
    RequestedOutcome snapshot requested (requestedScript snapshot requested) := by
  unfold requestedScript
  rcases passScript_cases snapshot requested (secondPassScript snapshot) with
    ⟨permitted,first⟩ | ⟨refused,⟨detour,action,first⟩ | first⟩
  · rw [first]
    exact .cleared .direct permitted
  · have reached := Reaches.detour detour action refused
    rw [first]
    unfold secondPassScript
    rcases passScript_cases snapshot (detourTo requested detour.destination)
        (fun _ => throw (.detourLoop (snapshot.policy.evaluate (.requested (detourTo requested detour.destination))))) with
      ⟨permitted,second⟩ | ⟨refusedAgain,⟨_,_,second⟩ | second⟩
    · rw [second]
      exact .cleared reached permitted
    · rw [second,← List.append_assoc,← List.append_assoc]
      simp only [Script.throw_events,Script.throw_outcome,List.append_nil]
      exact .looped reached refusedAgain
    · rw [second,← List.append_assoc]
      exact .denied reached refusedAgain
  · rw [first]
    exact .denied .direct refused

theorem resolve_error (failed : resolve env requested = .error error) (decision : Decision) :
    error ≠ .policyDenied decision := by
  unfold resolve at failed
  cases answers : candidates env requested with
  | ok =>
      simp only [answers] at failed
      split at failed
      · cases failed
        exact ProxyError.noConfusion
      · cases failed
  | error =>
      simp only [answers] at failed
      cases failed
      unfold candidates at answers
      cases host : requested.requestedHost with
      | ip => simp [host] at answers
      | name =>
          simp only [host,lookupAnswer] at answers
          split at answers <;> cases answers <;> exact ProxyError.noConfusion

-- Everything the authorization of a cleared target says after its resolution.
def resolutionTrail (snapshot : PolicySnapshot) (selected : RequestedTargetFacts) (addresses : List SocketAddr) :
    List AuditEvent :=
  .targetResolved selected.requestedHost.asHostText (addresses.map (·.ip)) ::
    addresses.flatMap (addressTrail snapshot selected)

def refusal (snapshot : PolicySnapshot) (selected : RequestedTargetFacts) (addresses : List SocketAddr) :
    Option Decision :=
  firstRefused snapshot (addresses.flatMap (addressDecisions snapshot selected))

theorem resolvedScript_eq (selected : RequestedTargetFacts) (addresses : List SocketAddr)
    (permitted : snapshot.permits (snapshot.policy.evaluate (.requested selected)) = true) :
    resolvedScript snapshot selected addresses =
      ⟨addresses.flatMap (addressTrail snapshot selected) ++
          (refusal snapshot selected addresses).toList.map .actionExecuted,
        match refusal snapshot selected addresses with
        | none => .ok ()
        | some decision => .error (.policyDenied decision)⟩ := by
  unfold resolvedScript
  rw [addressesScript_eq snapshot selected addresses none permitted,Script.bind_outcome_ok rfl]
  unfold refusal
  cases firstRefused snapshot (addresses.flatMap (addressDecisions snapshot selected)) <;> rfl

variable (env)

inductive AuthorizationOutcome (snapshot : PolicySnapshot) (requested : RequestedTargetFacts) :
    AuditScript (List SocketAddr) → Prop
  | answered (reached : Reaches snapshot requested selected before)
      (permitted : snapshot.permits (snapshot.policy.evaluate (.requested selected)) = true)
      (resolved : resolve env selected = .ok addresses) (clear : refusal snapshot selected addresses = none) :
      AuthorizationOutcome snapshot requested
        ⟨before ++ requestedTrail snapshot selected ++ resolutionTrail snapshot selected addresses,.ok addresses⟩
  | deniedRequest (reached : Reaches snapshot requested selected before)
      (refused : snapshot.permits (snapshot.policy.evaluate (.requested selected)) = false) :
      AuthorizationOutcome snapshot requested
        ⟨before ++ requestedTrail snapshot selected ++ [.actionExecuted (snapshot.policy.evaluate (.requested selected))],
          .error (.policyDenied (snapshot.policy.evaluate (.requested selected)))⟩
  | deniedAddress (reached : Reaches snapshot requested selected before)
      (permitted : snapshot.permits (snapshot.policy.evaluate (.requested selected)) = true)
      (resolved : resolve env selected = .ok addresses)
      (refused : refusal snapshot selected addresses = some denial) :
      AuthorizationOutcome snapshot requested
        ⟨before ++ requestedTrail snapshot selected ++ resolutionTrail snapshot selected addresses ++
          [.actionExecuted denial],.error (.policyDenied denial)⟩
  | failed (events : List AuditEvent) (other : ∀ decision, error ≠ .policyDenied decision) :
      AuthorizationOutcome snapshot requested ⟨events,.error error⟩

variable {env}

theorem authorizationScript_outcome :
    AuthorizationOutcome env snapshot requested (authorizationScript env snapshot requested) := by
  have shape := requestedScript_outcome snapshot requested
  unfold authorizationScript
  generalize requestedScript snapshot requested = script at shape ⊢
  cases shape with
  | denied reached refused => exact .deniedRequest reached refused
  | looped => exact .failed _ (fun decision => ProxyError.noConfusion)
  | @cleared target before reached permitted =>
      rw [Script.bind_outcome_ok rfl]
      cases resolved : resolve env target with
      | error =>
          rw [Script.bind_outcome_error rfl]
          exact .failed _ (resolve_error target resolved)
      | ok addresses =>
          rw [Script.bind_outcome_ok rfl,Script.say_bind,resolvedScript_eq snapshot target addresses permitted]
          cases refused : refusal snapshot target addresses with
          | none =>
              have whole := AuthorizationOutcome.answered reached permitted resolved refused
              simpa [resolutionTrail,Script.bind_outcome_ok,Script.ofExcept] using whole
          | some =>
              have whole := AuthorizationOutcome.deniedAddress reached permitted resolved refused
              simpa [resolutionTrail,Script.bind_outcome_error,Script.ofExcept] using whole

theorem authorized_permits (selected : RequestedTargetFacts) (state middle : ServiceState)
    (authorized : (authorizeRequestedTarget env snapshot flow requested).run state = .ok selected middle) :
    snapshot.permits (snapshot.policy.evaluate (.requested selected)) = true := by
  obtain ⟨answered,_⟩ := ensures_answer (authorizeRequestedTarget_follows snapshot flow requested state) authorized
  have shape := requestedScript_outcome snapshot requested
  generalize requestedScript snapshot requested = script at shape answered
  cases shape with
  | cleared reached permitted =>
      cases answered
      exact permitted
  | denied | looped => cases answered

variable (env)

theorem late_detour_unreachable (snapshot : PolicySnapshot) (enforced : snapshot.enforcement = .enforce) (flow : Flow)
    (requested selected : RequestedTargetFacts) (state middle : ServiceState)
    (authorized : (authorizeRequestedTarget env snapshot flow requested).run state = .ok selected middle) :
    (∀ address rule reasons,
      firstMatch (.resolved ⟨selected,address⟩) snapshot.policy.rules = some (rule,reasons) →
        rule.action.isDetour = false) ∧
    (∀ address, (snapshot.policy.evaluate (.resolved ⟨selected,address⟩)).action.isDetour = false) ∧
    ∀ addresses start error after,
      (authorizeResolvedTargets env snapshot flow selected addresses).run start = .error error after →
        (∃ denial, error = .policyDenied denial) ∨ error = .audit .channelClosed := by
  have permitted := authorized_permits snapshot flow requested selected state middle authorized
  refine ⟨?_,?_,?_⟩
  · intro address rule reasons found
    have late := late_selected snapshot enforced selected address permitted
    simpa [AclPolicy.selectedAction,found] using late
  · intro address
    have late := late_selected snapshot enforced selected address permitted
    rw [AclPolicy.evaluate_action]
    cases detours : (enforcementAction _ (snapshot.policy.selectedAction (.resolved ⟨selected,address⟩))).isDetour with
    | false => rfl
    | true =>
        rw [enforcementAction_isDetour _ _ detours] at late
        cases late
  · intro addresses start error after stopped
    have follows := @authorizeResolvedTargets_follows env snapshot flow selected addresses start
    rw [resolvedScript_eq snapshot selected addresses permitted] at follows
    rcases ensures_broken follows stopped with ⟨ended,_⟩ | cut
    · cases refused : refusal snapshot selected addresses with
      | none =>
          rw [refused] at ended
          cases ended
      | some denial =>
          rw [refused] at ended
          cases ended
          exact .inl ⟨denial,rfl⟩
    · obtain ⟨_,_,_,_,_,_,_,_,audit⟩ := cut
      exact .inr audit

-- The detour is followed once, and its destination meets no further one.
theorem late_detour_unreachable_detoured :
    let snapshot := detourEnvironment.live 0
    ∃ middle, snapshot.enforcement = .enforce ∧
      (authorizeRequestedTarget detourEnvironment snapshot ⟨⟨1⟩,none⟩ detourRequest).run idleState =
        .ok (detourTo detourRequest ⟨.ip (.v4 203 0 113 7),⟨8443,by decide⟩⟩) middle ∧
      ∀ address, (snapshot.policy.evaluate
        (.resolved ⟨detourTo detourRequest ⟨.ip (.v4 203 0 113 7),⟨8443,by decide⟩⟩,address⟩)).action.isDetour = false := by
  intro snapshot
  have answered : answerOf ((authorizeRequestedTarget detourEnvironment snapshot ⟨⟨1⟩,none⟩ detourRequest).run idleState) =
      some (detourTo detourRequest ⟨.ip (.v4 203 0 113 7),⟨8443,by decide⟩⟩) := by decide +kernel
  obtain ⟨middle,done⟩ := answerOf_ok answered
  exact ⟨middle,rfl,done,(late_detour_unreachable detourEnvironment snapshot rfl _ _ _ _ _ done).2.1⟩

theorem authorization_audited (strict : env.failurePolicy = .failClosed) (flow : Flow)
    (requested : RequestedTargetFacts) (state : ServiceState) :
    let snapshot := env.live state.loads
    let outcome := (authorizeAndResolve env flow requested).run state
    let accepted (after : ServiceState) (events : List AuditEvent) :=
      ∃ sent, after.delivered = state.delivered ++ sent ∧ sent.map AuditEnvelope.event = events
    (∀ addresses after, outcome = .ok addresses after →
      ∃ selected before, Reaches snapshot requested selected before ∧ resolve env selected = .ok addresses ∧
        accepted after
          (before ++ requestedTrail snapshot selected ++ resolutionTrail snapshot selected addresses)) ∧
    (∀ denial after, outcome = .error (.policyDenied denial) after →
      ∃ selected before, Reaches snapshot requested selected before ∧
        ((denial = snapshot.policy.evaluate (.requested selected) ∧ snapshot.permits denial = false ∧
            accepted after (before ++ requestedTrail snapshot selected ++ [.actionExecuted denial])) ∨
          ∃ addresses, snapshot.permits (snapshot.policy.evaluate (.requested selected)) = true ∧
            resolve env selected = .ok addresses ∧ refusal snapshot selected addresses = some denial ∧
            accepted after (before ++ requestedTrail snapshot selected ++
              resolutionTrail snapshot selected addresses ++ [.actionExecuted denial]))) ∧
    (∀ send, state.attempted.length ≤ send → send < (stateOf outcome).attempted.length →
      env.channel send = .closed → ∃ after, outcome = .error (.audit .channelClosed) after) := by
  intro snapshot outcome accepted
  have follows := @authorizeAndResolve_follows env flow requested state
  have shape := @authorizationScript_outcome env snapshot requested
  change Follows _ _ _ (authorizationScript env snapshot requested) at follows
  generalize authorizationScript env snapshot requested = script at follows shape
  have heard (after : ServiceState) (published : Published env state script.events after) :
      accepted after script.events := by
    obtain ⟨sent,events,_,delivered⟩ := published
    exact ⟨sent,(delivered strict).1,events⟩
  refine ⟨?_,?_,?_⟩
  · intro addresses after answered
    obtain ⟨ended,published⟩ := ensures_answer follows answered
    have said := heard after published
    cases shape with
    | answered reached permitted resolved =>
        cases ended
        exact ⟨_,_,reached,resolved,said⟩
    | deniedRequest | deniedAddress | failed => cases ended
  · intro denial after stopped
    rcases ensures_broken follows stopped with ⟨ended,published⟩ | cut
    · have said := heard after published
      cases shape with
      | answered => cases ended
      | deniedRequest reached refused =>
          cases ended
          exact ⟨_,_,reached,.inl ⟨rfl,refused,said⟩⟩
      | deniedAddress reached permitted resolved refused =>
          cases ended
          exact ⟨_,_,reached,.inr ⟨_,permitted,resolved,refused,said⟩⟩
      | failed events other =>
          cases ended
          exact absurd rfl (other denial)
    · obtain ⟨_,_,_,_,_,_,_,_,audit⟩ := cut
      cases audit
  · intro send least most closed
    cases ended : outcome with
    | ok =>
        obtain ⟨_,_,_,_,delivered⟩ := ensures_answer follows ended
        rw [ended] at most
        exact absurd closed ((delivered strict).2 send least most)
    | error error after =>
        rcases ensures_broken follows ended with ⟨_,_,_,_,delivered⟩ | cut
        · rw [ended] at most
          exact absurd closed ((delivered strict).2 send least most)
        · obtain ⟨_,_,_,_,_,_,_,_,audit⟩ := cut
          exact ⟨after,by rw [audit]⟩

theorem authorization_audited_detoured :
    let snapshot := detourEnvironment.live idleState.loads
    ∃ after selected before, detourEnvironment.failurePolicy = .failClosed ∧
      (authorizeAndResolve detourEnvironment ⟨⟨1⟩,none⟩ detourRequest).run idleState =
        .ok [⟨.v4 203 0 113 7,⟨8443,by decide⟩⟩] after ∧
      Reaches snapshot detourRequest selected before ∧
      ∃ sent, after.delivered = idleState.delivered ++ sent ∧ sent.map AuditEnvelope.event =
        before ++ requestedTrail snapshot selected ++
          resolutionTrail snapshot selected [⟨.v4 203 0 113 7,⟨8443,by decide⟩⟩] := by
  intro snapshot
  have answered : answerOf ((authorizeAndResolve detourEnvironment ⟨⟨1⟩,none⟩ detourRequest).run idleState) =
      some [⟨.v4 203 0 113 7,⟨8443,by decide⟩⟩] := by decide +kernel
  obtain ⟨after,done⟩ := answerOf_ok answered
  obtain ⟨selected,before,reached,_,accepted⟩ :=
    (authorization_audited detourEnvironment rfl ⟨⟨1⟩,none⟩ detourRequest idleState).1 _ _ done
  exact ⟨after,selected,before,rfl,done,reached,accepted⟩

end Freja.Proxy
