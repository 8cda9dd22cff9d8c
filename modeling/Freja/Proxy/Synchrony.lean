import Freja.Foundation.Relational
import Freja.Proxy.HttpPolicy

namespace Freja.Proxy
open Domain Policy Audit Effect

variable (env : Environment) {states : ServiceState → ServiceState → Prop} {flow other : Flow}

-- Two runs, each under its own flow, whose states are related: loads of the shared
-- snapshot agree, and the publication of an event fails in both or in none.
structure Synchronous (states : ServiceState → ServiceState → Prop) (flow other : Flow) : Prop where
  snapshots : Together (decisionSnapshot env) (decisionSnapshot env) states
    (fun snapshot same => snapshot = same ∧ ∃ load, snapshot = env.live load)
  publishes : ∀ event adjust, Together (publishWith env flow event adjust)
    (publishWith env other event adjust) states Eq

theorem together_eq {left right : Task α} {next : α → Task β} {nextRight : α → Task γ} {values : β → γ → Prop}
    (start : Together left right states Eq) (rest : ∀ value, Together (next value) (nextRight value) states values) :
    Together (left >>= next) (right >>= nextRight) states values := by
  apply together_bind start
  intro value same equal
  rw [← equal]
  exact rest value

namespace Synchronous

variable {env} (synchronous : Synchronous env states flow other)
include synchronous

theorem publishEvent (event : AuditEvent) :
    Together (Proxy.publishEvent env flow event) (Proxy.publishEvent env other event) states Eq :=
  synchronous.publishes event id

theorem publishDecision (decision : Decision) :
    Together (Proxy.publishDecision env flow decision) (Proxy.publishDecision env other decision)
      states Eq :=
  synchronous.publishes _ _

theorem recordAction (decision : Decision) :
    Together (Proxy.recordAction env flow decision) (Proxy.recordAction env other decision) states Eq :=
  synchronous.publishEvent (.actionExecuted decision)

variable (snapshot : PolicySnapshot) (selected : RequestedTargetFacts)

-- One pass over a target, if the pass that may follow it keeps together.
theorem authorizeLoop_step (detoured : Bool)
    (again : detoured = false → ∀ target, Together (authorizeLoop env snapshot flow target true)
      (authorizeLoop env snapshot other target true) states Eq) :
    Together (authorizeLoop env snapshot flow selected detoured)
      (authorizeLoop env snapshot other selected detoured) states Eq := by
  rw [authorizeLoop.eq_def env snapshot flow,authorizeLoop.eq_def env snapshot other]
  apply together_eq (synchronous.publishEvent _)
  intro _
  apply together_eq (synchronous.publishDecision _)
  intro _
  cases snapshot.permits (snapshot.policy.evaluate (.requested selected)) with
  | true =>
      simp only [if_true]
      split <;> exact together_pure rfl
  | false =>
      simp only [Bool.false_eq_true,if_false]
      split
      · apply together_eq (synchronous.recordAction _)
        intro _
        by_cases before : detoured = true
        · simp only [before,dite_true]
          exact together_throw _ _
        · simp only [before]
          exact again (by simpa using before) _
      · apply together_eq (synchronous.recordAction _)
        intro _
        exact together_throw _ _

theorem authorizeRequestedTarget (requested : RequestedTargetFacts) :
    Together (Proxy.authorizeRequestedTarget env snapshot flow requested)
      (Proxy.authorizeRequestedTarget env snapshot other requested) states Eq := by
  apply synchronous.authorizeLoop_step
  intro _ target
  apply synchronous.authorizeLoop_step
  intro first
  cases first

theorem evaluateGuard (resolved : ResolvedTargetFacts) (firstDenial : Option Decision) :
    Together (Proxy.evaluateGuard env snapshot flow resolved firstDenial)
      (Proxy.evaluateGuard env snapshot other resolved firstDenial) states Eq := by
  unfold Proxy.evaluateGuard
  split
  · exact together_pure rfl
  · apply together_eq (synchronous.publishDecision _)
    intro _
    exact together_pure rfl

theorem authorizeAddresses (addresses : List SocketAddr) (firstDenial : Option Decision) :
    Together (Proxy.authorizeAddresses env snapshot flow selected addresses firstDenial)
      (Proxy.authorizeAddresses env snapshot other selected addresses firstDenial) states Eq := by
  induction addresses generalizing firstDenial with
  | nil => exact together_pure rfl
  | cons address rest ih =>
      unfold Proxy.authorizeAddresses
      apply together_eq (synchronous.publishEvent _)
      intro _
      apply together_eq (synchronous.evaluateGuard snapshot _ firstDenial)
      intro guarded
      apply together_eq (synchronous.publishDecision _)
      intro _
      split
      · apply together_eq (synchronous.recordAction _)
        intro _
        exact together_throw _ _
      · exact ih _

theorem authorizeResolvedTargets (addresses : List SocketAddr) :
    Together (Proxy.authorizeResolvedTargets env snapshot flow selected addresses)
      (Proxy.authorizeResolvedTargets env snapshot other selected addresses) states Eq := by
  apply together_eq (synchronous.authorizeAddresses snapshot selected addresses none)
  intro firstDenial
  cases firstDenial with
  | none => exact together_pure rfl
  | some decision =>
      apply together_eq (synchronous.recordAction decision)
      intro _
      exact together_throw _ _

theorem authorizeAndResolve (requested : RequestedTargetFacts) :
    Together (Proxy.authorizeAndResolve env flow requested)
      (Proxy.authorizeAndResolve env other requested) states Eq := by
  apply together_bind synchronous.snapshots
  intro snapshot same agreed
  rw [← agreed.1]
  apply together_eq (synchronous.authorizeRequestedTarget snapshot requested)
  intro selected
  apply together_eq (together_ofExcept (.same (resolve env selected)))
  intro addresses
  apply together_eq (synchronous.publishEvent _)
  intro _
  apply together_eq (synchronous.authorizeResolvedTargets snapshot selected addresses)
  intro _
  exact together_pure rfl

end Synchronous

end Freja.Proxy
