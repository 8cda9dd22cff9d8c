import Freja.Audit.Redaction
import Freja.Proxy.Synchrony

namespace Freja.Proxy
open Domain Policy Audit Effect

-- The records that tell what was asked for and what the access rules made of it.
def isRequestRecord : AuditEvent → Bool
  | .httpRequestObserved _ _ _ | .replayFactsObserved _ | .aclEvaluated _ | .actionExecuted _ => true
  | _ => false

variable (redactor : Redactor) (urls : UrlCrate)

theorem isRequestRecord_redactEvent (event : AuditEvent) :
    isRequestRecord (redactor.redactEvent urls event) = isRequestRecord event := by
  cases event with
  | replayFactsObserved facts => cases facts <;> rfl
  | _ => rfl

-- What such a record holds once it is redacted, without identifiers and time.
def requestRecords (envelopes : List AuditEnvelope) : List (PolicyGeneration × AuditEvent) :=
  (envelopes.filter (fun envelope => isRequestRecord envelope.event)).map
    (fun envelope => (envelope.context.policyGeneration,redactor.redactEvent urls envelope.event))

structure SameRecord (left right : AuditEnvelope) : Prop where
  context : left.context = right.context
  event : redactor.redactEvent urls left.event = redactor.redactEvent urls right.event ∨
    (isRequestRecord left.event = false ∧ isRequestRecord right.event = false)

theorem SameRecord.same (envelope : AuditEnvelope) : SameRecord redactor urls envelope envelope := ⟨rfl,.inl rfl⟩

theorem requestRecords_same (same : List.Forall₂ (SameRecord redactor urls) left right) :
    requestRecords redactor urls left = requestRecords redactor urls right := by
  unfold requestRecords
  induction same with
  | nil => rfl
  | @cons envelope other _ _ same _ ih =>
      rcases same.event with shown | ⟨unseen,unseenToo⟩
      · have both : isRequestRecord envelope.event = isRequestRecord other.event := by
          rw [← isRequestRecord_redactEvent redactor urls envelope.event,shown,isRequestRecord_redactEvent]
        cases seen : isRequestRecord other.event with
        | true =>
            rw [seen] at both
            simp only [List.filter_cons,both,seen,if_true,List.map_cons,same.context,shown,ih]
        | false =>
            rw [seen] at both
            simpa only [List.filter_cons,both,seen,Bool.false_eq_true,if_false] using ih
      · simpa only [List.filter_cons,unseen,unseenToo,Bool.false_eq_true,if_false] using ih

-- Two runs that have read the same number of times and put alike records forward.
structure SameRecords (first second : ServiceState) : Prop where
  loads : first.loads = second.loads
  clockReads : first.clockReads = second.clockReads
  hookCalls : first.hookCalls = second.hookCalls
  attempted : List.Forall₂ (SameRecord redactor urls) first.attempted second.attempted
  delivered : List.Forall₂ (SameRecord redactor urls) first.delivered second.delivered

theorem SameRecords.same (state : ServiceState) : SameRecords redactor urls state state := by
  have all (envelopes : List AuditEnvelope) : List.Forall₂ (SameRecord redactor urls) envelopes envelopes :=
    List.forall₂_same.mpr (fun envelope _ => .same redactor urls envelope)
  exact ⟨rfl,rfl,rfl,all _,all _⟩

variable (env : Environment)

-- Both runs take their steps together and agree on what a step answers.
def Alike (left right : Task α) : Prop := Together left right (SameRecords redactor urls) Eq

variable {redactor urls}

variable {env}

theorem decisionSnapshot_together :
    Together (decisionSnapshot env) (decisionSnapshot env) (SameRecords redactor urls)
      (fun snapshot other => snapshot = other ∧ ∃ load, snapshot = env.live load) := by
  intro first second same
  refine ⟨⟨by rw [same.loads],first.loads,rfl⟩,?_,same.clockReads,same.hookCalls,same.attempted,same.delivered⟩
  exact congrArg (· + 1) same.loads

variable (flow : Flow)

theorem auditContext_alike :
    Alike redactor urls (auditContext env flow) (auditContext env flow) := by
  intro first second same
  refine ⟨?_,?_,?_,same.hookCalls,same.attempted,same.delivered⟩
  · rw [same.loads,same.clockReads]
  · exact congrArg (· + 1) same.loads
  · exact congrArg (· + 1) same.clockReads

theorem publish_alike (same : SameRecord redactor urls envelope other) :
    Alike redactor urls (publish env envelope) (publish env other) := by
  intro first second related
  have sends : first.attempted.length = second.attempted.length := related.attempted.length_eq
  have tried : List.Forall₂ (SameRecord redactor urls) (first.attempted ++ [envelope]) (second.attempted ++ [other]) :=
    List.rel_append related.attempted (.cons same .nil)
  have taken : List.Forall₂ (SameRecord redactor urls) (first.delivered ++ [envelope]) (second.delivered ++ [other]) :=
    List.rel_append related.delivered (.cons same .nil)
  unfold EStateM.run publish
  rw [sends]
  cases publisherAnswer env.failurePolicy (env.channel second.attempted.length) with
  | ok => exact ⟨rfl,related.loads,related.clockReads,related.hookCalls,tried,taken⟩
  | error =>
      by_cases lenient : env.failurePolicy = .failOpen
      · simp only [lenient,if_true]
        exact ⟨trivial,related.loads,related.clockReads,related.hookCalls,tried,related.delivered⟩
      · simp only [lenient,if_false]
        exact ⟨related.loads,related.clockReads,related.hookCalls,tried,related.delivered⟩

theorem alike_bind {left right : Task α} {next nextRight : α → Task β} (start : Alike redactor urls left right)
    (rest : ∀ value, Alike redactor urls (next value) (nextRight value)) :
    Alike redactor urls (left >>= next) (right >>= nextRight) := by
  apply together_bind start
  intro value other same
  rw [← same]
  exact rest value

theorem alike_pure (value : α) : Alike redactor urls (pure value : Task α) (pure value) := together_pure rfl

theorem publishWith_alike (event other : AuditEvent) (adjust : AuditContext → AuditContext)
    (same : redactor.redactEvent urls event = redactor.redactEvent urls other ∨
      (isRequestRecord event = false ∧ isRequestRecord other = false)) :
    Alike redactor urls (publishWith env flow event adjust) (publishWith env flow other adjust) := by
  apply alike_bind (auditContext_alike flow)
  intro context
  exact publish_alike ⟨rfl,same⟩

theorem publishEvent_alike (event : AuditEvent) :
    Alike redactor urls (publishEvent env flow event) (publishEvent env flow event) :=
  publishWith_alike flow event event id (.inl rfl)

theorem publishDecision_alike (decision : Decision) :
    Alike redactor urls (publishDecision env flow decision) (publishDecision env flow decision) :=
  publishWith_alike flow _ _ _ (.inl rfl)

theorem recordAction_alike (decision : Decision) :
    Alike redactor urls (recordAction env flow decision) (recordAction env flow decision) :=
  publishEvent_alike flow (.actionExecuted decision)

theorem synchronous_alike : Synchronous env (SameRecords redactor urls) flow flow :=
  ⟨decisionSnapshot_together,fun event adjust => publishWith_alike flow event event adjust (.inl rfl)⟩

theorem authorizeAndResolve_alike (requested : RequestedTargetFacts) :
    Alike redactor urls (authorizeAndResolve env flow requested)
      (authorizeAndResolve env flow requested) :=
  (synchronous_alike flow).authorizeAndResolve requested

variable (env)

-- Requests whose facts are redacted to the same and judged the same.
structure SameFacts (redactor : Redactor) (urls : UrlCrate) (left right : HttpPolicyRequest) : Prop where
  redacted : ∀ address, redactor.redactEvent urls (.replayFactsObserved (.httpRequest (left.facts address))) =
    redactor.redactEvent urls (.replayFactsObserved (.httpRequest (right.facts address)))
  judged : ∀ load address, (env.live load).policy.evaluate (.httpRequest (left.facts address)) =
    (env.live load).policy.evaluate (.httpRequest (right.facts address))

variable {env}

theorem evaluateEach_alike (same : SameFacts env redactor urls left right) (load : Nat) (flow : Flow)
    (addresses : List SocketAddr) (firstDenial : Option Decision) :
    Alike redactor urls
      (evaluateEach (env.live load) left (observeRequest env flow) addresses firstDenial)
      (evaluateEach (env.live load) right (observeRequest env flow) addresses firstDenial) := by
  induction addresses generalizing firstDenial with
  | nil => exact alike_pure firstDenial
  | cons address rest ih =>
      unfold evaluateEach
      rw [same.judged load address]
      refine alike_bind ?_ (fun _ => ih _)
      apply alike_bind
      · exact publishWith_alike flow _ _ id (.inl (same.redacted address))
      · intro _
        exact publishDecision_alike flow _

theorem evaluateHttpPolicy_alike (same : SameFacts env redactor urls left right) (flow : Flow)
    (addresses : List SocketAddr) :
    Alike redactor urls (evaluateHttpPolicy env flow left addresses)
      (evaluateHttpPolicy env flow right addresses) := by
  apply together_bind (decisionSnapshot_together)
  intro snapshot other loaded
  obtain ⟨equal,load,live⟩ := loaded
  rw [← equal,live]
  apply alike_bind (evaluateEach_alike same load flow addresses none)
  intro firstDenial
  cases firstDenial with
  | none => exact alike_pure none
  | some decision =>
      apply alike_bind (recordAction_alike flow decision)
      intro _
      exact alike_pure _

theorem checkConnectPort_alike (connectPorts : List Port) (port : Port) :
    Alike redactor urls (checkConnectPort env flow connectPorts port)
      (checkConnectPort env flow connectPorts port) := by
  unfold checkConnectPort
  split
  · exact alike_pure none
  · apply together_bind (decisionSnapshot_together)
    intro snapshot other same
    rw [← same.1]
    apply alike_bind (publishDecision_alike flow _)
    intro _
    split
    · exact alike_pure none
    · apply alike_bind (recordAction_alike flow _)
      intro _
      exact alike_pure _

end Freja.Proxy
