import Freja.Foundation.Script
import Freja.Policy.Detour
import Freja.Proxy.Destination

namespace Freja.Proxy
open Domain Policy Audit Effect IpAddress

variable (env : Environment)

-- Which generation an envelope names: that of its decision, or for an executed
-- action the one live at a load of the shared snapshot since `first`.
def Stamped (first last : Nat) (envelope : AuditEnvelope) : Prop :=
  match envelope.event with
  | .aclEvaluated decision | .inspectionEvaluated decision =>
      envelope.context.policyGeneration = decision.trace.policyGeneration
  | .actionExecuted _ =>
      ∃ load, first ≤ load ∧ load < last ∧
        envelope.context.policyGeneration = (env.live load).policy.generation
  | _ => True

variable {env}

theorem Stamped.widen (stamped : Stamped env first last envelope) (earlier : start ≤ first)
    (later : last ≤ stop) : Stamped env start stop envelope := by
  unfold Stamped at stamped ⊢
  split at stamped
  · exact stamped
  · exact stamped
  · obtain ⟨load,least,most,live⟩ := stamped
    exact ⟨load,by omega,by omega,live⟩
  · trivial

variable (env)

-- What a task has put forward between two states.
structure Sends (state : ServiceState) (sent : List AuditEnvelope) (after : ServiceState) : Prop where
  loads : state.loads ≤ after.loads
  attempted : after.attempted = state.attempted ++ sent
  stamped : ∀ envelope ∈ sent, Stamped env state.loads after.loads envelope

variable {env}

theorem Sends.append (first : Sends env state early middle) (second : Sends env middle late after) :
    Sends env state (early ++ late) after where
  loads := Nat.le_trans first.loads second.loads
  attempted := by rw [second.attempted,first.attempted,List.append_assoc]
  stamped := by
    intro envelope member
    rcases List.mem_append.mp member with before | behind
    · exact (first.stamped envelope before).widen (Nat.le_refl _) second.loads
    · exact (second.stamped envelope behind).widen first.loads (Nat.le_refl _)

variable (env)

-- All events got through.
def Published (state : ServiceState) (events : List AuditEvent) (after : ServiceState) : Prop :=
  ∃ sent, sent.map AuditEnvelope.event = events ∧ Sends env state sent after ∧
    (env.failurePolicy = .failClosed → after.delivered = state.delivered ++ sent ∧
      ∀ send, state.attempted.length ≤ send → send < after.attempted.length → env.channel send ≠ .closed)

-- The channel turned out to be closed at one of the events.
def Interrupted (state : ServiceState) (events : List AuditEvent) (error : ProxyError) (after : ServiceState) : Prop :=
  ∃ sent lost rest, events = sent.map AuditEnvelope.event ++ lost.event :: rest ∧
    Sends env state (sent ++ [lost]) after ∧ after.delivered = state.delivered ++ sent ∧
    env.failurePolicy = .failClosed ∧ (∃ send, env.channel send = .closed) ∧
    error = .audit .channelClosed

variable {env}

theorem Published.nothing {state after : ServiceState} (loads : state.loads ≤ after.loads)
    (attempted : after.attempted = state.attempted) (delivered : after.delivered = state.delivered) :
    Published env state [] after := by
  refine ⟨[],rfl,⟨loads,by rw [attempted,List.append_nil],fun _ none => absurd none List.not_mem_nil⟩,?_⟩
  intro _
  refine ⟨by rw [delivered,List.append_nil],?_⟩
  intro send least most
  rw [attempted] at most
  omega

theorem Published.further (first : Published env state early middle)
    (second : Published env middle late after) : Published env state (early ++ late) after := by
  obtain ⟨before,beforeEvents,beforeSent,beforeHeard⟩ := first
  obtain ⟨behind,behindEvents,behindSent,behindHeard⟩ := second
  refine ⟨before ++ behind,?_,beforeSent.append behindSent,?_⟩
  · rw [List.map_append,beforeEvents,behindEvents]
  · intro strict
    obtain ⟨taken,opened⟩ := beforeHeard strict
    obtain ⟨takenLater,openedLater⟩ := behindHeard strict
    refine ⟨by rw [takenLater,taken,List.append_assoc],?_⟩
    intro send least most
    by_cases early : send < middle.attempted.length
    · exact opened send least early
    · exact openedLater send (by omega) most

theorem Interrupted.early (late : List AuditEvent) (cut : Interrupted env state events error after) :
    Interrupted env state (events ++ late) error after := by
  obtain ⟨sent,lost,rest,same,sends,delivered,closed⟩ := cut
  refine ⟨sent,lost,rest ++ late,?_,sends,delivered,closed⟩
  rw [same,List.append_assoc,List.cons_append]

theorem Interrupted.later (first : Published env state said middle)
    (cut : Interrupted env middle late error after) : Interrupted env state (said ++ late) error after := by
  obtain ⟨before,beforeEvents,beforeSent,beforeHeard⟩ := first
  obtain ⟨sent,lost,rest,same,sends,delivered,strict,closed⟩ := cut
  refine ⟨before ++ sent,lost,rest,?_,?_,?_,strict,closed⟩
  · rw [same,List.map_append,beforeEvents,List.append_assoc]
  · rw [List.append_assoc]
    exact beforeSent.append sends
  · rw [delivered,(beforeHeard strict).1,List.append_assoc]

variable (env)

def auditing : Emission ServiceState AuditEvent ProxyError where
  said := Published env
  cut := Interrupted env
  nothing := fun _ => .nothing (Nat.le_refl _) rfl rfl
  further := Published.further
  cutEarly := Interrupted.early
  cutLater := Interrupted.later

variable {env}

theorem publish_sends (envelope : AuditEnvelope) (start state : ServiceState) (loads : start.loads ≤ state.loads)
    (attempted : state.attempted = start.attempted) (delivered : state.delivered = start.delivered)
    (stamped : Stamped env start.loads state.loads envelope) :
    Ensures (publish env envelope) state (fun _ after => Published env start [envelope.event] after)
      (fun error after => Interrupted env start [envelope.event] error after) := by
  have sends (accepted : List AuditEnvelope) : Sends env start [envelope]
      {state with attempted := state.attempted ++ [envelope],delivered := accepted} :=
    ⟨loads,by rw [← attempted],fun other member => List.mem_singleton.mp member ▸ stamped⟩
  cases answered : publisherAnswer env.failurePolicy (env.channel state.attempted.length) with
  | ok _ =>
      refine ensures_ok (by simp only [EStateM.run,publish,answered]; rfl) ⟨[envelope],rfl,sends _,?_⟩
      intro strict
      refine ⟨by rw [← delivered],?_⟩
      intro send least most closed
      have here : send = state.attempted.length := by
        simp only [List.length_append,List.length_singleton] at most
        rw [← attempted] at least
        omega
      rw [strict,← here,closed] at answered
      cases answered
  | error =>
      by_cases lenient : env.failurePolicy = .failOpen
      · refine ensures_ok (by simp only [EStateM.run,publish,answered]; rw [if_pos lenient]) ⟨[envelope],rfl,sends _,?_⟩
        intro strict
        rw [lenient] at strict
        cases strict
      · have strict : env.failurePolicy = .failClosed := by
          cases policy : env.failurePolicy with
          | failOpen => exact absurd policy lenient
          | failClosed => rfl
        rw [strict] at answered
        cases sent : env.channel state.attempted.length with
        | ready | full =>
            rw [sent] at answered
            cases answered
        | closed =>
            rw [sent] at answered
            cases answered
            refine ensures_error (by simp only [EStateM.run,publish,strict,sent,publisherAnswer]; rfl)
              ⟨[],envelope,[],rfl,sends _,?_,strict,⟨_,sent⟩,rfl⟩
            rw [List.append_nil]
            exact delivered

theorem publish_follows (envelope : AuditEnvelope) (state : ServiceState)
    (stamped : Stamped env state.loads state.loads envelope) :
    Follows (auditing env) (publish env envelope) state (.say envelope.event) :=
  ensures_weaken (publish_sends envelope state state (Nat.le_refl _) rfl rfl stamped)
    (fun _ _ published => ⟨rfl,published⟩) (fun _ _ interrupted => .inr interrupted)

theorem publishWith_follows (flow : Flow) (event : AuditEvent) (adjust : AuditContext → AuditContext)
    (state : ServiceState)
    (stamped : ∀ context, context.policyGeneration = (env.live state.loads).policy.generation →
      Stamped env state.loads (state.loads + 1) ⟨adjust context,event⟩) :
    Follows (auditing env) (publishWith env flow event adjust) state (.say event) := by
  refine ensures_bind (ensures_ok rfl ?_)
  refine ensures_weaken (publish_sends _ state _ (Nat.le_succ _) rfl rfl (stamped _ rfl)) ?_ ?_
  · intro _ after published
    exact ⟨rfl,published⟩
  · intro error after interrupted
    exact .inr interrupted

-- An event without a decision may be published under any generation.
def Undecided : AuditEvent → Prop
  | .aclEvaluated _ | .inspectionEvaluated _ | .actionExecuted _ => False
  | _ => True

theorem Undecided.stamped (undecided : Undecided event) (context : AuditContext) (first last : Nat) :
    Stamped env first last ⟨context,event⟩ := by
  cases event with
  | aclEvaluated _ | inspectionEvaluated _ | actionExecuted _ => exact undecided.elim
  | _ => trivial

theorem publishEvent_follows (flow : Flow) (event : AuditEvent) (undecided : Undecided event) (state : ServiceState) :
    Follows (auditing env) (publishEvent env flow event) state (.say event) :=
  publishWith_follows flow event id state (fun context _ => undecided.stamped context _ _)

theorem publishReplayFacts_follows (flow : Flow) (facts : ReplayFacts) (state : ServiceState) :
    Follows (auditing env) (publishReplayFacts env flow facts) state
      (.say (.replayFactsObserved facts)) :=
  publishEvent_follows flow (.replayFactsObserved facts) trivial state

theorem publishDecision_follows (flow : Flow) (decision : Decision) (state : ServiceState) :
    Follows (auditing env) (publishDecision env flow decision) state (.say (.aclEvaluated decision)) :=
  publishWith_follows flow _ _ state (fun _ _ => rfl)

theorem recordAction_follows (flow : Flow) (decision : Decision) (state : ServiceState) :
    Follows (auditing env) (recordAction env flow decision) state (.say (.actionExecuted decision)) :=
  publishWith_follows flow _ id state
    (fun _ live => ⟨state.loads,Nat.le_refl _,Nat.lt_succ_self _,live⟩)

end Freja.Proxy
