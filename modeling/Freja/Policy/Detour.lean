import Freja.Policy.Verdict

namespace Freja.Policy
open Domain Kleene

-- The action of the rule that decides, or the default action.
def AclPolicy.selectedAction (policy : AclPolicy) (facts : PolicyFacts) : RuleAction :=
  match firstMatch facts policy.rules with
  | some (rule,_) => rule.action
  | none => policy.defaultAction

theorem AclPolicy.evaluate_action (policy : AclPolicy) (facts : PolicyFacts) :
    (policy.evaluate facts).action = enforcementAction facts.target.protocol (policy.selectedAction facts) := by
  unfold AclPolicy.evaluate AclPolicy.selectedAction
  cases firstMatch facts policy.rules <;> rfl

theorem matched_verdict (matched : evaluateExpression facts expression = .matched reasons) :
    (evaluateExpression facts expression).verdict = .yes := by
  rw [matched]
  rfl

theorem verdict_matched (yes : (evaluateExpression facts expression).verdict = .yes) :
    ∃ reasons, evaluateExpression facts expression = .matched reasons := by
  cases outcome : evaluateExpression facts expression with
  | matched reasons => exact ⟨reasons,rfl⟩
  | didNotMatch | unavailable => simp [outcome,ExpressionResult.verdict] at yes

-- An expression that requires TCP matches nothing else.
mutual
theorem requiresTcp_sound (facts : PolicyFacts) (expression : MatchExpression) (requires : requiresTcp expression = true)
    (yes : strongKleene (leafTruth facts) expression = .yes) : facts.target.protocol = .tcp := by
  cases expression with
  | all expressions =>
      rw [requiresTcp] at requires
      rw [strongKleene] at yes
      exact someRequireTcp_sound facts expressions requires yes
  | any expressions =>
      rw [requiresTcp,Bool.and_eq_true] at requires
      rw [strongKleene] at yes
      exact allRequireTcp_sound facts expressions requires.2 yes
  | protocol protocol =>
      cases protocol with
      | http => simp [requiresTcp] at requires
      | tcp =>
          simp only [strongKleene,leafTruth] at yes
          cases spoken : facts.target.protocol with
          | tcp => rfl
          | http =>
              rw [spoken] at yes
              cases yes
  | _ => simp [requiresTcp] at requires

theorem someRequireTcp_sound (facts : PolicyFacts) (expressions : List MatchExpression)
    (requires : someRequireTcp expressions = true)
    (yes : Truth.conj (strongKleenes (leafTruth facts) expressions) = .yes) : facts.target.protocol = .tcp := by
  cases expressions with
  | nil => simp [someRequireTcp] at requires
  | cons expression rest =>
      rw [someRequireTcp,Bool.or_eq_true] at requires
      rw [strongKleenes] at yes
      obtain ⟨first,others⟩ := Truth.and_yes_iff.mp yes
      rcases requires with here | later
      · exact requiresTcp_sound facts expression here first
      · exact someRequireTcp_sound facts rest later others

theorem allRequireTcp_sound (facts : PolicyFacts) (expressions : List MatchExpression)
    (requires : allRequireTcp expressions = true)
    (yes : Truth.disj (strongKleenes (leafTruth facts) expressions) = .yes) : facts.target.protocol = .tcp := by
  cases expressions with
  | nil => simp [strongKleenes,Truth.disj] at yes
  | cons expression rest =>
      rw [allRequireTcp,Bool.and_eq_true] at requires
      rw [strongKleenes] at yes
      rcases Truth.or_yes_iff.mp yes with first | others
      · exact requiresTcp_sound facts expression requires.1 first
      · exact allRequireTcp_sound facts rest requires.2 others
end

-- An expression over the requested target alone is definite at every stage.
mutual
theorem requestedStage_definite (facts : PolicyFacts) (expression : MatchExpression)
    (early : isRequestedStageExpression expression = true) :
    strongKleene (leafTruth facts) expression ≠ .unknown := by
  cases expression with
  | all expressions =>
      rw [isRequestedStageExpression] at early
      rw [strongKleene]
      exact (requestedStages_definite facts expressions early).1
  | any expressions =>
      rw [isRequestedStageExpression] at early
      rw [strongKleene]
      exact (requestedStages_definite facts expressions early).2
  | not expression =>
      rw [isRequestedStageExpression] at early
      rw [strongKleene]
      exact Truth.not_definite (requestedStage_definite facts expression early)
  | destinationIp _ | httpMethod _ | httpPathPrefix _ | httpHeader _ => simp [isRequestedStageExpression] at early
  | sourceIp _ | destinationHost _ | destinationPort _ | protocol _ =>
      simp only [strongKleene]
      exact Truth.ofBool_definite _

theorem requestedStages_definite (facts : PolicyFacts) (expressions : List MatchExpression)
    (early : areRequestedStageExpressions expressions = true) :
    Truth.conj (strongKleenes (leafTruth facts) expressions) ≠ .unknown ∧
      Truth.disj (strongKleenes (leafTruth facts) expressions) ≠ .unknown := by
  cases expressions with
  | nil => exact ⟨Truth.noConfusion,Truth.noConfusion⟩
  | cons expression rest =>
      rw [areRequestedStageExpressions,Bool.and_eq_true] at early
      have first := requestedStage_definite facts expression early.1
      obtain ⟨all,any⟩ := requestedStages_definite facts rest early.2
      rw [strongKleenes]
      exact ⟨Truth.and_definite first all,Truth.or_definite first any⟩
end

theorem checkRule_detour (checked : checkRule rule = .ok ()) (detours : rule.action.isDetour = true) :
    isRequestedStageExpression rule.matcher = true ∧ requiresTcp rule.matcher = true := by
  unfold checkRule at checked
  cases valid : validateExpression rule.id rule.matcher with
  | error => simp [valid,bind,Except.bind] at checked
  | ok =>
      cases early : isRequestedStageExpression rule.matcher <;> cases tcp : requiresTcp rule.matcher <;>
        simp [valid,detours,early,tcp,bind,Except.bind,throw,throwThe,MonadExceptOf.throw] at checked ⊢

theorem checkRules_member (checked : checkRules seen rules = .ok ()) (member : rule ∈ rules) :
    checkRule rule = .ok () := by
  induction rules generalizing seen with
  | nil => cases member
  | cons first rest ih =>
      unfold checkRules at checked
      by_cases repeated : first.id ∈ seen
      · simp [repeated,bind,Except.bind,throw,throwThe,MonadExceptOf.throw] at checked
      · cases outcome : checkRule first with
        | error => simp [repeated,outcome,bind,Except.bind] at checked
        | ok =>
            simp only [repeated,outcome,bind,Except.bind,if_false] at checked
            rcases List.mem_cons.mp member with rfl | later
            · exact outcome
            · exact ih checked later

theorem AclPolicy.detour_rule (policy : AclPolicy) (member : rule ∈ policy.rules) (detours : rule.action.isDetour = true) :
    isRequestedStageExpression rule.matcher = true ∧ requiresTcp rule.matcher = true := by
  have checked := policy.checked
  unfold checkPolicy at checked
  cases outcome : checkRules [] policy.rules with
  | error => simp [outcome,bind,Except.bind] at checked
  | ok => exact checkRule_detour (checkRules_member outcome member) detours

-- The first match of a rule over the requested target alone was already the
-- first match before: an earlier rule that matched then still matches.
theorem firstMatch_earlier (extended : Extends less more) (rules : List AclRule)
    (early : isRequestedStageExpression rule.matcher = true) (found : firstMatch more rules = some (rule,reasons)) :
    ∃ others, firstMatch less rules = some (rule,others) := by
  induction rules with
  | nil => cases found
  | cons first rest ih =>
      unfold firstMatch at found
      cases before : evaluateExpression less first.matcher with
      | matched others =>
          have definite : (evaluateExpression less first.matcher).verdict ≠ .unknown := by
            rw [before]
            exact Truth.noConfusion
          have same := evaluateExpression_definite extended first.matcher definite
          rw [matched_verdict before] at same
          obtain ⟨again,now⟩ := verdict_matched same
          simp only [now] at found
          cases found
          exact ⟨others,by simp [firstMatch,before]⟩
      | didNotMatch | unavailable =>
          cases now : evaluateExpression more first.matcher with
          | didNotMatch | unavailable =>
              simp only [now] at found
              obtain ⟨others,earlier⟩ := ih found
              exact ⟨others,by simp [firstMatch,before,earlier]⟩
          | matched =>
              simp only [now] at found
              cases found
              have definite : (evaluateExpression less rule.matcher).verdict ≠ .unknown := by
                rw [evaluateExpression_verdict]
                exact requestedStage_definite less rule.matcher early
              have same := evaluateExpression_definite extended rule.matcher definite
              rw [matched_verdict now,before] at same
              cases same

theorem AclPolicy.selected_detour (policy : AclPolicy) (facts : PolicyFacts)
    (detours : (policy.selectedAction facts).isDetour = true) :
    ∃ rule reasons, firstMatch facts policy.rules = some (rule,reasons) ∧ rule.action = policy.selectedAction facts ∧
      isRequestedStageExpression rule.matcher = true ∧ facts.target.protocol = .tcp := by
  unfold AclPolicy.selectedAction at detours ⊢
  cases found : firstMatch facts policy.rules with
  | none =>
      simp only [found] at detours
      rw [checkPolicy_default policy.rules policy.defaultAction policy.checked] at detours
      cases detours
  | some selected =>
      obtain ⟨rule,reasons⟩ := selected
      simp only [found] at detours
      obtain ⟨member,matched⟩ := firstMatch_parts facts policy.rules rule reasons found
      obtain ⟨early,requires⟩ := policy.detour_rule member detours
      have yes := matched_verdict matched
      rw [evaluateExpression_verdict] at yes
      exact ⟨rule,reasons,rfl,rfl,early,requiresTcp_sound facts rule.matcher requires yes⟩

theorem AclPolicy.detour_earlier (policy : AclPolicy) (extended : Extends less more)
    (detours : (policy.selectedAction more).isDetour = true) : policy.selectedAction less = policy.selectedAction more := by
  obtain ⟨rule,reasons,found,action,early,_⟩ := policy.selected_detour more detours
  obtain ⟨others,before⟩ := firstMatch_earlier extended policy.rules early found
  rw [← action]
  simp [AclPolicy.selectedAction,before]

theorem AclPolicy.detours_only_tcp (policy : AclPolicy) (facts : PolicyFacts) :
    (policy.evaluate facts).action = enforcementAction facts.target.protocol (policy.selectedAction facts) ∧
    (facts.target.protocol = .http →
      (∀ rule reasons, firstMatch facts policy.rules = some (rule,reasons) → rule.action.isDetour = false) ∧
        policy.defaultAction.isDetour = false ∧ (policy.selectedAction facts).isDetour = false) ∧
    (∀ detour, (policy.evaluate facts).action = .tcpDetour detour → facts.target.protocol = .tcp) := by
  have selected (http : facts.target.protocol = .http) : (policy.selectedAction facts).isDetour = false := by
    cases detours : (policy.selectedAction facts).isDetour with
    | false => rfl
    | true =>
        obtain ⟨_,_,_,_,_,tcp⟩ := policy.selected_detour facts detours
        rw [http] at tcp
        cases tcp
  refine ⟨policy.evaluate_action facts,?_,?_⟩
  · intro http
    refine ⟨?_,checkPolicy_default policy.rules policy.defaultAction policy.checked,selected http⟩
    intro rule reasons found
    have action := selected http
    simpa [AclPolicy.selectedAction,found] using action
  · intro detour action
    rw [policy.evaluate_action] at action
    have same := enforcementAction_detour _ _ _ action
    obtain ⟨_,_,_,_,_,tcp⟩ := policy.selected_detour facts (by rw [same]; rfl)
    exact tcp

def redirectPolicy : AclPolicy :=
  ⟨.initial,
    [{id := ⟨"redirect-web",by decide⟩
      matcher := .any [.all [.destinationPort ⟨⟨80,by decide⟩,⟨443,Port.https⟩,by decide⟩,.protocol .tcp],.protocol .tcp]
      action := .detour ⟨.ip (.v4 203 0 113 9),⟨8080,by decide⟩⟩}],.deny,by decide⟩

def redirectTarget (protocol : Protocol) : RequestedTargetFacts :=
  ⟨.v4 192 0 2 1,.ip (.v4 203 0 113 5),⟨443,Port.https⟩,protocol⟩

theorem redirect_detours_only_tcp :
    (redirectPolicy.selectedAction (.requested (redirectTarget .http))).isDetour = false ∧
      (redirectPolicy.evaluate (.requested (redirectTarget .tcp))).action.isDetour = true ∧
      (redirectTarget .tcp).protocol = .tcp := by
  refine ⟨((redirectPolicy.detours_only_tcp (.requested (redirectTarget .http))).2.1 rfl).2.2,by decide,?_⟩
  exact (redirectPolicy.detours_only_tcp (.requested (redirectTarget .tcp))).2.2
    ⟨.ip (.v4 203 0 113 9),⟨8080,by decide⟩⟩ (by decide)

end Freja.Policy
