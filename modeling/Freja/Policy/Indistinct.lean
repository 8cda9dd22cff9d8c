import Freja.Policy.Acl

namespace Freja.Policy
open Domain Bytes IpAddress

-- Facts that no criterion but the path can tell apart. A header criterion asks
-- whether a name is there and whether one of its values passes a test.
structure Indistinct (left right : PolicyFacts) : Prop where
  stage : left.stage = right.stage
  target : left.target = right.target
  resolvedIp : left.resolvedIp = right.resolvedIp
  method : left.http.map HttpRequestFacts.method = right.http.map HttpRequestFacts.method
  headers : ∀ name (test : List UInt8 → Bool),
    left.httpHeaders.map (fun headers => (headers.values name).map (·.any test)) =
      right.httpHeaders.map (fun headers => (headers.values name).map (·.any test))

def SamePath (left right : PolicyFacts) : Prop :=
  left.http.map HttpRequestFacts.path = right.http.map HttpRequestFacts.path

mutual
def pathFree : MatchExpression → Bool
  | .all expressions | .any expressions => arePathFree expressions
  | .not expression => pathFree expression
  | .httpPathPrefix _ => false
  | _ => true

def arePathFree : List MatchExpression → Bool
  | [] => true
  | expression :: rest => pathFree expression && arePathFree rest
end

def AclPolicy.pathFree (policy : AclPolicy) : Prop := ∀ rule ∈ policy.rules, Policy.pathFree rule.matcher = true

theorem map_agree {α β : Type} {first second : Option α} {view : α → β} (same : first.map view = second.map view) :
    (first = none ∧ second = none) ∨ ∃ one other, first = some one ∧ second = some other ∧ view one = view other := by
  cases first with
  | none =>
      cases second with
      | none => exact .inl ⟨rfl,rfl⟩
      | some => cases same
  | some one =>
      cases second with
      | none => cases same
      | some other => exact .inr ⟨one,other,rfl,rfl,Option.some.inj same⟩

namespace Indistinct

variable {left right : PolicyFacts}

theorem evaluateHttpHeader (same : Indistinct left right) (matcher : HttpHeaderMatcher) :
    Policy.evaluateHttpHeader matcher left = Policy.evaluateHttpHeader matcher right := by
  have asked := same.headers matcher.name
  unfold Policy.evaluateHttpHeader
  rcases map_agree (asked (fun _ => true)) with ⟨first,second⟩ | ⟨headers,others,first,second,named⟩
  · rw [first,second]
  · simp only [first,second,Option.map_some,Option.some.injEq] at asked ⊢
    rcases map_agree named with ⟨missing,missingToo⟩ | ⟨values,more,found,foundToo,_⟩
    · rw [missing,missingToo]
    · simp only [found,foundToo,Option.map_some,Option.some.injEq] at asked ⊢
      simp only [asked]

mutual
theorem evaluateExpression (same : Indistinct left right) (expression : MatchExpression)
    (path : SamePath left right ∨ pathFree expression = true) :
    Policy.evaluateExpression left expression = Policy.evaluateExpression right expression := by
  cases expression with
  | all expressions =>
      rw [Policy.evaluateExpression,Policy.evaluateExpression]
      exact evaluateAll same [] false expressions path
  | any expressions =>
      rw [Policy.evaluateExpression,Policy.evaluateExpression]
      exact evaluateAny same false expressions path
  | not expression =>
      rw [Policy.evaluateExpression,Policy.evaluateExpression,evaluateExpression same expression path]
  | destinationIp => rw [Policy.evaluateExpression,Policy.evaluateExpression,same.resolvedIp]
  | httpMethod =>
      rw [Policy.evaluateExpression,Policy.evaluateExpression]
      rcases map_agree same.method with ⟨first,second⟩ | ⟨http,other,first,second,method⟩
      · rw [first,second]
      · rw [first,second]
        dsimp only
        rw [method]
  | httpPathPrefix =>
      have samePath := path.resolve_right (by simp [pathFree])
      rw [Policy.evaluateExpression,Policy.evaluateExpression]
      rcases map_agree samePath with ⟨first,second⟩ | ⟨http,other,first,second,text⟩
      · rw [first,second]
      · rw [first,second]
        dsimp only
        rw [text]
  | httpHeader matcher =>
      rw [Policy.evaluateExpression,Policy.evaluateExpression]
      exact same.evaluateHttpHeader matcher
  | sourceIp _ | destinationHost _ | destinationPort _ | protocol _ =>
      rw [Policy.evaluateExpression,Policy.evaluateExpression,same.target]

theorem evaluateAll (same : Indistinct left right) (reasons : List MatchReason) (unavailable : Bool)
    (expressions : List MatchExpression) (path : SamePath left right ∨ arePathFree expressions = true) :
    Policy.evaluateAll left reasons unavailable expressions = Policy.evaluateAll right reasons unavailable expressions := by
  cases expressions with
  | nil => rw [Policy.evaluateAll,Policy.evaluateAll]
  | cons expression rest =>
      have first := path.imp id (fun free => (Bool.and_eq_true_iff.mp free).1)
      have others := path.imp id (fun free => (Bool.and_eq_true_iff.mp free).2)
      rw [Policy.evaluateAll,Policy.evaluateAll,evaluateExpression same expression first]
      split
      · exact evaluateAll same _ unavailable rest others
      · rfl
      · exact evaluateAll same reasons true rest others

theorem evaluateAny (same : Indistinct left right) (unavailable : Bool) (expressions : List MatchExpression)
    (path : SamePath left right ∨ arePathFree expressions = true) :
    Policy.evaluateAny left unavailable expressions = Policy.evaluateAny right unavailable expressions := by
  cases expressions with
  | nil => rw [Policy.evaluateAny,Policy.evaluateAny]
  | cons expression rest =>
      have first := path.imp id (fun free => (Bool.and_eq_true_iff.mp free).1)
      have others := path.imp id (fun free => (Bool.and_eq_true_iff.mp free).2)
      rw [Policy.evaluateAny,Policy.evaluateAny,evaluateExpression same expression first]
      split
      · rfl
      · exact evaluateAny same unavailable rest others
      · exact evaluateAny same true rest others
end

theorem firstMatch (same : Indistinct left right) (rules : List AclRule)
    (path : SamePath left right ∨ ∀ rule ∈ rules, pathFree rule.matcher = true) :
    Policy.firstMatch left rules = Policy.firstMatch right rules := by
  induction rules with
  | nil => rfl
  | cons rule rest ih =>
      have first := path.imp id (fun free => free rule List.mem_cons_self)
      have others := path.imp id (fun free other member => free other (List.mem_cons_of_mem _ member))
      rw [Policy.firstMatch,Policy.firstMatch,same.evaluateExpression rule.matcher first,ih others]

theorem evaluate (same : Indistinct left right) (policy : AclPolicy) (path : SamePath left right ∨ policy.pathFree) :
    policy.evaluate left = policy.evaluate right := by
  unfold AclPolicy.evaluate decision
  rw [same.firstMatch policy.rules path,same.stage,same.target]

end Indistinct

end Freja.Policy
