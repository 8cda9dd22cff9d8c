import Freja.Audit.Event
import Freja.Foundation.Effect
import Freja.Policy.Guard
import Freja.Policy.Hook
import Freja.Policy.Inspection

namespace Freja.Proxy
open Domain Policy Audit Effect IpAddress

structure PolicySnapshot where
  policy : AclPolicy
  destinationGuard : DestinationGuard
  enforcement : EnforcementMode
  inspectionMode : InspectionMode
  inspection : InspectionProgram

def PolicySnapshot.permits (snapshot : PolicySnapshot) (decision : Decision) : Bool :=
  snapshot.enforcement == .observe || decision.action == .allow

inductive ChannelState where
  | ready
  | full
  | closed
  deriving DecidableEq, Repr

inductive Lookup where
  | answered (addresses : List SocketAddr)
  | failed
  | timedOut
  | shutdown
  deriving DecidableEq, Repr

-- Everything a connection task does not decide itself. A reload may happen
-- before any load of the shared snapshot, so the loads are numbered and each
-- sees its own snapshot; clock readings, audit sends and the calls of hooks and
-- of the operator are numbered likewise.
structure Environment where
  live : Nat → PolicySnapshot
  now : Nat → UnixMillis
  channel : Nat → ChannelState
  failurePolicy : AuditFailurePolicy
  lookupHost : HostName → Port → Lookup
  sha256 : List UInt8 → Digest
  capturePrefixBytes : Option Nat
  hooks : HookRunner
  interactive : Option (Nat → HttpRequestSnapshot → Except InterceptError InteractiveDecision)

structure ServiceState where
  loads : Nat
  clockReads : Nat
  hookCalls : Nat
  attempted : List AuditEnvelope
  delivered : List AuditEnvelope
  deriving DecidableEq, Repr

def idleState : ServiceState := ⟨0,0,0,[],[]⟩

inductive ProxyError where
  | dns (host : String)
  | dnsTimedOut (host : String)
  | noResolvedAddresses (host : String)
  | policyDenied (decision : Decision)
  | detourLoop (decision : Decision)
  | audit (error : PublishError)
  | hook (error : HookRunError)
  | hookMutation (error : MutationError)
  | interactive (error : InterceptError)
  | interactiveRejected
  | relayRead (direction : String)
  | relayWrite (direction : String)
  | shutdown
  deriving DecidableEq, Repr

abbrev Task := EStateM ProxyError ServiceState

variable (env : Environment)

def decisionSnapshot : Task PolicySnapshot := fun state =>
  .ok (env.live state.loads) {state with loads := state.loads + 1}

def currentPolicy : Task AclPolicy := fun state =>
  .ok (env.live state.loads).policy {state with loads := state.loads + 1}

def inspectionMode : Task InspectionMode := fun state =>
  .ok (env.live state.loads).inspectionMode {state with loads := state.loads + 1}

def unixMillisNow : Task UnixMillis := fun state =>
  .ok (env.now state.clockReads) {state with clockReads := state.clockReads + 1}

def publisherAnswer (policy : AuditFailurePolicy) (channel : ChannelState) : Except PublishError Unit :=
  match policy,channel with
  | .failClosed,.closed => .error .channelClosed
  | .failClosed,_ => .ok ()
  | .failOpen,.full => .error .capacityExhausted
  | .failOpen,.closed => .error .channelClosed
  | .failOpen,.ready => .ok ()

-- A fail-closed sender waits while the channel is full; a fail-open one drops
-- the event and goes on.
def publish (envelope : AuditEnvelope) : Task Unit := fun state =>
  let tried := {state with attempted := state.attempted ++ [envelope]}
  match publisherAnswer env.failurePolicy (env.channel state.attempted.length) with
  | .ok () => .ok () {tried with delivered := state.delivered ++ [envelope]}
  | .error error =>
      if env.failurePolicy = .failOpen then .ok () tried else .error (.audit error) tried

structure Flow where
  sessionId : SessionId
  transactionId : Option TransactionId
  deriving DecidableEq, Repr

def auditContext (flow : Flow) : Task AuditContext := do
  let occurredAt ← unixMillisNow env
  let policy ← currentPolicy env
  return ⟨occurredAt,flow.sessionId,flow.transactionId,policy.generation⟩

def publishWith (flow : Flow) (event : AuditEvent) (adjust : AuditContext → AuditContext) : Task Unit := do
  let context ← auditContext env flow
  publish env ⟨adjust context,event⟩

def publishEvent (flow : Flow) (event : AuditEvent) : Task Unit := publishWith env flow event id

def publishReplayFacts (flow : Flow) (facts : ReplayFacts) : Task Unit :=
  publishEvent env flow (.replayFactsObserved facts)

-- Decisions are published under the generation that made them.
def publishUnder (flow : Flow) (decision : Decision) (event : AuditEvent) : Task Unit :=
  publishWith env flow event (fun context => {context with policyGeneration := decision.trace.policyGeneration})

def publishDecision (flow : Flow) (decision : Decision) : Task Unit :=
  publishUnder env flow decision (.aclEvaluated decision)

def publishInspectionDecision (context : AuditContext) (decision : Decision) : Task Unit :=
  publish env
    ⟨{context with policyGeneration := decision.trace.policyGeneration},.inspectionEvaluated decision⟩

def recordAction (flow : Flow) (decision : Decision) : Task Unit :=
  publishEvent env flow (.actionExecuted decision)

-- The one thing a publication does to a task besides its clock and snapshot
-- readings: it puts one event forward, and may fail only because of the channel.
structure Emits (state after : ServiceState) (event : AuditEvent) : Prop where
  appended : ∃ context, after.attempted = state.attempted ++ [⟨context,event⟩]

-- Auditing cannot fail when events may be dropped or the channel stays open.
def Reliable : Prop := env.failurePolicy = .failOpen ∨ ∀ send, env.channel send ≠ .closed

def Unaudited (error : ProxyError) : Prop := ¬ Reliable env ∧ ∃ reason, error = .audit reason

variable {env}

theorem publish_attempts (envelope : AuditEnvelope) (state : ServiceState) :
    Ensures (publish env envelope) state (fun _ after => after.attempted = state.attempted ++ [envelope])
      (fun error after => after.attempted = state.attempted ++ [envelope] ∧ Unaudited env error) := by
  unfold Ensures EStateM.run publish
  cases answered : publisherAnswer env.failurePolicy (env.channel state.attempted.length) with
  | ok => rfl
  | error reason =>
      by_cases lenient : env.failurePolicy = .failOpen
      · simp only [lenient,if_true]
      · simp only [lenient,if_false]
        refine ⟨trivial,?_,reason,rfl⟩
        intro reliable
        rcases reliable with opened | opened
        · exact lenient opened
        · cases strict : env.failurePolicy with
          | failOpen => exact lenient strict
          | failClosed =>
              cases sent : env.channel state.attempted.length with
              | closed => exact opened _ sent
              | ready | full => rw [strict,sent] at answered; cases answered

theorem publish_heard (envelope : AuditEnvelope) (state : ServiceState) :
    Ensures (publish env envelope) state (fun _ _ => True) (fun error _ => Unaudited env error) :=
  ensures_weaken (publish_attempts envelope state) (fun _ _ _ => trivial) (fun _ _ failed => failed.2)

theorem auditContext_quiet (flow : Flow) (state : ServiceState) :
    Ensures (auditContext env flow) state (fun _ after => after.attempted = state.attempted)
      (fun _ _ => False) := ensures_ok rfl rfl

theorem publishWith_emits (flow : Flow) (event : AuditEvent) (adjust : AuditContext → AuditContext)
    (state : ServiceState) :
    Ensures (publishWith env flow event adjust) state (fun _ after => Emits state after event)
      (fun error after => Emits state after event ∧ ∃ reason, error = .audit reason) := by
  refine ensures_bind (ensures_weaken (auditContext_quiet flow state) ?_ (fun _ _ no => no.elim))
  intro context middle same
  refine ensures_weaken (publish_attempts _ middle) ?_ ?_
  · intro _ after attempted
    exact ⟨_,same ▸ attempted⟩
  · rintro _ after ⟨attempted,_,reason⟩
    exact ⟨⟨_,same ▸ attempted⟩,reason⟩

theorem publishEvent_heard (flow : Flow) (event : AuditEvent) (state : ServiceState) :
    Ensures (publishEvent env flow event) state (fun _ _ => True)
      (fun error _ => Unaudited env error) := by
  refine ensures_bind (ensures_weaken (auditContext_quiet flow state) ?_ (fun _ _ no => no.elim))
  intro context middle _
  exact publish_heard _ middle

end Freja.Proxy
