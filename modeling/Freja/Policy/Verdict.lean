import Freja.Foundation.Kleene
import Freja.Policy.Acl

namespace Freja.Policy
open Domain Bytes IpAddress Kleene

def ExpressionResult.verdict : ExpressionResult → Truth
  | .matched _ => .yes
  | .didNotMatch => .no
  | .unavailable => .unknown

-- What a single criterion says about the facts: nothing before the fact it tests
-- is there.
def leafTruth (facts : PolicyFacts) : MatchExpression → Truth
  | .sourceIp network => .ofBool (network.contains facts.target.sourceIp)
  | .destinationIp network => .known facts.resolvedIp network.contains
  | .destinationHost pattern => .ofBool (pattern.matchesTarget facts.target.requestedHost)
  | .destinationPort range => .ofBool (range.contains facts.target.destinationPort)
  | .protocol protocol => .ofBool (protocol == facts.target.protocol)
  | .httpMethod methods => .known facts.http (fun http => methods.any (eqIgnoreCase · http.method))
  | .httpPathPrefix start => .known facts.http (fun http => startsWith http.path start)
  | .httpHeader matcher =>
      .known facts.httpHeaders (fun headers => (headers.values matcher.name).any (fun values =>
        matcher.valueContains.all (fun needle =>
          (utf8 needle).isEmpty || values.any (fun value => containsBytes value (utf8 needle)))))
  | .all _ | .any _ | .not _ => .unknown

-- The strong Kleene value of an expression over a valuation of its leaves.
mutual
def strongKleene (truth : MatchExpression → Truth) : MatchExpression → Truth
  | .all expressions => .conj (strongKleenes truth expressions)
  | .any expressions => .disj (strongKleenes truth expressions)
  | .not expression => (strongKleene truth expression).not
  | criterion => truth criterion

def strongKleenes (truth : MatchExpression → Truth) : List MatchExpression → List Truth
  | [] => []
  | expression :: rest => strongKleene truth expression :: strongKleenes truth rest
end

theorem strongKleenes_map (truth : MatchExpression → Truth) (expressions : List MatchExpression) :
    strongKleenes truth expressions = expressions.map (strongKleene truth) := by
  induction expressions with
  | nil => rfl
  | cons expression rest ih => rw [strongKleenes,ih,List.map_cons]

@[simp] theorem leaf_verdict (observed : Bool) (criterion value : String) :
    (leaf observed criterion value).verdict = .ofBool observed := by
  cases observed <;> rfl

theorem evaluateHttpHeader_verdict (facts : PolicyFacts) (matcher : HttpHeaderMatcher) :
    (evaluateHttpHeader matcher facts).verdict = leafTruth facts (.httpHeader matcher) := by
  unfold evaluateHttpHeader leafTruth
  cases facts.httpHeaders with
  | none => rfl
  | some headers =>
      cases found : headers.values matcher.name with
      | none => simp [Truth.known,found,ExpressionResult.verdict,Truth.ofBool]
      | some => simp [Truth.known,found]

-- The flag of the loops stands for an unavailable child seen before.
mutual
theorem evaluateExpression_verdict (facts : PolicyFacts) (expression : MatchExpression) :
    (evaluateExpression facts expression).verdict = strongKleene (leafTruth facts) expression := by
  cases expression with
  | all =>
      rw [evaluateExpression,evaluateAll_verdict,strongKleene]
      exact Truth.yes_and _
  | any =>
      rw [evaluateExpression,evaluateAny_verdict,strongKleene]
      exact Truth.no_or _
  | not expression =>
      have inner := evaluateExpression_verdict facts expression
      rw [evaluateExpression,strongKleene,← inner]
      cases evaluateExpression facts expression <;> rfl
  | destinationIp =>
      simp only [evaluateExpression,strongKleene,leafTruth]
      cases facts.resolvedIp with
      | none => rfl
      | some => exact leaf_verdict _ _ _
  | httpMethod | httpPathPrefix =>
      simp only [evaluateExpression,strongKleene,leafTruth]
      cases facts.http with
      | none => rfl
      | some => exact leaf_verdict _ _ _
  | httpHeader matcher =>
      simp only [evaluateExpression,strongKleene]
      exact evaluateHttpHeader_verdict facts matcher
  | sourceIp _ | destinationHost _ | destinationPort _ | protocol _ =>
      simp only [evaluateExpression,strongKleene]
      exact leaf_verdict _ _ _

theorem evaluateAll_verdict (facts : PolicyFacts) (reasons : List MatchReason) (unavailable : Bool)
    (expressions : List MatchExpression) :
    (evaluateAll facts reasons unavailable expressions).verdict =
      (if unavailable then Truth.unknown else .yes).and (.conj (strongKleenes (leafTruth facts) expressions)) := by
  cases expressions with
  | nil => cases unavailable <;> rfl
  | cons expression rest =>
      have first := evaluateExpression_verdict facts expression
      rw [evaluateAll,strongKleenes,Truth.conj,List.foldr_cons,← first,← Truth.conj,← Truth.and_assoc]
      cases outcome : evaluateExpression facts expression with
      | matched nested =>
          rw [evaluateAll_verdict facts (reasons ++ nested) unavailable rest]
          cases unavailable <;> rfl
      | didNotMatch => simp [ExpressionResult.verdict]
      | unavailable =>
          rw [evaluateAll_verdict facts reasons true rest]
          cases unavailable <;> rfl

theorem evaluateAny_verdict (facts : PolicyFacts) (unavailable : Bool) (expressions : List MatchExpression) :
    (evaluateAny facts unavailable expressions).verdict =
      (if unavailable then Truth.unknown else .no).or (.disj (strongKleenes (leafTruth facts) expressions)) := by
  cases expressions with
  | nil => cases unavailable <;> rfl
  | cons expression rest =>
      have first := evaluateExpression_verdict facts expression
      rw [evaluateAny,strongKleenes,Truth.disj,List.foldr_cons,← first,← Truth.disj,← Truth.or_assoc]
      cases outcome : evaluateExpression facts expression with
      | matched => simp [ExpressionResult.verdict]
      | didNotMatch =>
          rw [evaluateAny_verdict facts unavailable rest]
          cases unavailable <;> rfl
      | unavailable =>
          rw [evaluateAny_verdict facts true rest]
          cases unavailable <;> rfl
end

-- Two expressions that differ in the order of the children of their nodes.
inductive Reordered : MatchExpression → MatchExpression → Prop
  | all (same : first.Perm second) : Reordered (.all first) (.all second)
  | any (same : first.Perm second) : Reordered (.any first) (.any second)
  | insideAll (inner : Reordered child other) : Reordered (.all (before ++ child :: after)) (.all (before ++ other :: after))
  | insideAny (inner : Reordered child other) : Reordered (.any (before ++ child :: after)) (.any (before ++ other :: after))
  | insideNot (inner : Reordered child other) : Reordered (.not child) (.not other)
  | trans (left : Reordered first second) (right : Reordered second third) : Reordered first third

theorem strongKleene_reordered (truth : MatchExpression → Truth) (reordered : Reordered first second) :
    strongKleene truth first = strongKleene truth second := by
  induction reordered with
  | all same =>
      rw [strongKleene,strongKleene,strongKleenes_map,strongKleenes_map]
      exact Truth.conj_perm (same.map _)
  | any same =>
      rw [strongKleene,strongKleene,strongKleenes_map,strongKleenes_map]
      exact Truth.disj_perm (same.map _)
  | insideAll inner ih | insideAny inner ih =>
      rw [strongKleene,strongKleene,strongKleenes_map,strongKleenes_map]
      simp only [List.map_append,List.map_cons,ih]
  | insideNot inner ih => rw [strongKleene,strongKleene,ih]
  | trans left right first second => rw [first,second]

-- Knowing more about the leaves never takes back what an expression says.
mutual
theorem strongKleene_below (grows : ∀ criterion, Truth.Below (less criterion) (more criterion))
    (expression : MatchExpression) : Truth.Below (strongKleene less expression) (strongKleene more expression) := by
  cases expression with
  | all expressions =>
      rw [strongKleene,strongKleene]
      exact conj_below grows expressions
  | any expressions =>
      rw [strongKleene,strongKleene]
      exact disj_below grows expressions
  | not expression =>
      rw [strongKleene,strongKleene]
      exact (strongKleene_below grows expression).not
  | _ =>
      simp only [strongKleene]
      exact grows _

theorem conj_below (grows : ∀ criterion, Truth.Below (less criterion) (more criterion))
    (expressions : List MatchExpression) :
    Truth.Below (.conj (strongKleenes less expressions)) (.conj (strongKleenes more expressions)) := by
  cases expressions with
  | nil => exact .refl _
  | cons expression rest =>
      rw [strongKleenes,strongKleenes]
      exact (strongKleene_below grows expression).and (conj_below grows rest)

theorem disj_below (grows : ∀ criterion, Truth.Below (less criterion) (more criterion))
    (expressions : List MatchExpression) :
    Truth.Below (.disj (strongKleenes less expressions)) (.disj (strongKleenes more expressions)) := by
  cases expressions with
  | nil => exact .refl _
  | cons expression rest =>
      rw [strongKleenes,strongKleenes]
      exact (strongKleene_below grows expression).or (disj_below grows rest)
end

-- The facts of a later stage about the same target.
inductive Extends : PolicyFacts → PolicyFacts → Prop
  | resolved (facts : ResolvedTargetFacts) : Extends (.requested facts.requested) (.resolved facts)
  | requestedHttpRequest (facts : HttpRequestFacts) : Extends (.requested facts.target.requested) (.httpRequest facts)
  | requestedHttpResponse (facts : HttpResponseFacts) : Extends (.requested facts.target.requested) (.httpResponse facts)
  | httpRequest (facts : HttpRequestFacts) : Extends (.resolved facts.target) (.httpRequest facts)
  | httpResponse (facts : HttpResponseFacts) : Extends (.resolved facts.target) (.httpResponse facts)

structure Grows (less more : PolicyFacts) : Prop where
  target : less.target = more.target
  resolvedIp : less.resolvedIp = none ∨ less.resolvedIp = more.resolvedIp
  http : less.http = none ∨ less.http = more.http
  httpHeaders : less.httpHeaders = none ∨ less.httpHeaders = more.httpHeaders

theorem Extends.grows (extended : Extends less more) : Grows less more := by
  cases extended with
  | resolved | requestedHttpRequest | requestedHttpResponse => exact ⟨rfl,.inl rfl,.inl rfl,.inl rfl⟩
  | httpRequest | httpResponse => exact ⟨rfl,.inr rfl,.inl rfl,.inl rfl⟩

theorem Grows.leafTruth (grows : Grows less more) (criterion : MatchExpression) :
    Truth.Below (leafTruth less criterion) (leafTruth more criterion) := by
  cases criterion with
  | destinationIp => exact .known grows.resolvedIp _
  | httpMethod | httpPathPrefix => exact .known grows.http _
  | httpHeader => exact .known grows.httpHeaders _
  | all _ | any _ | not _ => exact .refl _
  | sourceIp _ | destinationHost _ | destinationPort _ | protocol _ =>
      simp only [Policy.leafTruth,grows.target]
      exact .refl _

theorem evaluateExpression_definite (extended : Extends less more) (expression : MatchExpression)
    (definite : (evaluateExpression less expression).verdict ≠ .unknown) :
    (evaluateExpression more expression).verdict = (evaluateExpression less expression).verdict := by
  rw [evaluateExpression_verdict] at definite ⊢
  rw [evaluateExpression_verdict]
  exact (strongKleene_below extended.grows.leafTruth expression).definite definite

theorem expressions_strong_kleene (expression : MatchExpression) :
    (∀ facts, (evaluateExpression facts expression).verdict = strongKleene (leafTruth facts) expression) ∧
    (∀ other, Reordered expression other → ∀ facts,
      (evaluateExpression facts other).verdict = (evaluateExpression facts expression).verdict) ∧
    (∀ less more, Extends less more → (evaluateExpression less expression).verdict ≠ .unknown →
      (evaluateExpression more expression).verdict = (evaluateExpression less expression).verdict) := by
  refine ⟨fun facts => evaluateExpression_verdict facts expression,?_,?_⟩
  · intro other reordered facts
    rw [evaluateExpression_verdict,evaluateExpression_verdict,strongKleene_reordered _ reordered]
  · intro less more extended definite
    exact evaluateExpression_definite extended expression definite

def privateOrTcp : MatchExpression := .any [.destinationIp ⟨.v4 10 0 0 0,8,by decide⟩,.protocol .tcp]

def tcpRequest : RequestedTargetFacts := ⟨.v4 192 0 2 1,.ip (.v4 203 0 113 5),⟨443,Port.https⟩,.tcp⟩

theorem privateOrTcp_strong_kleene :
    (evaluateExpression (.requested tcpRequest) (.any [.protocol .tcp,.destinationIp ⟨.v4 10 0 0 0,8,by decide⟩])).verdict =
        .yes ∧
      (evaluateExpression (.resolved ⟨tcpRequest,.v4 203 0 113 5⟩) privateOrTcp).verdict = .yes := by
  have definite : (evaluateExpression (.requested tcpRequest) privateOrTcp).verdict = .yes := by decide
  refine ⟨?_,?_⟩
  · rw [(expressions_strong_kleene privateOrTcp).2.1 _ (.any (List.Perm.swap _ _ _)) _]
    exact definite
  · rw [(expressions_strong_kleene privateOrTcp).2.2 _ _ (.resolved ⟨tcpRequest,.v4 203 0 113 5⟩)
      (by rw [definite]; exact Truth.noConfusion)]
    exact definite

end Freja.Policy
