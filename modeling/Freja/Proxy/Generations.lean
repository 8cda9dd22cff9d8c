import Freja.Proxy.InspectionTrail

namespace Freja.Proxy
open Domain Policy Audit Effect Bytes

-- Every record that carries a decision names the generation that made it.
def Attributed (envelope : AuditEnvelope) : Prop :=
  match envelope.event with
  | .aclEvaluated decision | .inspectionEvaluated decision | .actionExecuted decision =>
      envelope.context.policyGeneration = decision.trace.policyGeneration
  | _ => True

-- The executed actions among the events were decided under one generation.
def ActedUnder (generation : PolicyGeneration) (events : List AuditEvent) : Prop :=
  ∀ decision, .actionExecuted decision ∈ events → decision.trace.policyGeneration = generation

variable {generation : PolicyGeneration}

theorem ActedUnder.nil : ActedUnder generation [] := by
  intro decision member
  cases member

theorem ActedUnder.append (early : ActedUnder generation first) (late : ActedUnder generation second) :
    ActedUnder generation (first ++ second) := by
  intro decision member
  rcases List.mem_append.mp member with before | behind
  · exact early decision before
  · exact late decision behind

theorem ActedUnder.said (other : ∀ decision, event ≠ .actionExecuted decision) : ActedUnder generation [event] := by
  intro decision member
  exact absurd (List.mem_singleton.mp member).symm (other decision)

theorem ActedUnder.acted (denial : Decision) (decided : denial.trace.policyGeneration = generation) :
    ActedUnder generation [.actionExecuted denial] := by
  intro decision member
  cases List.mem_singleton.mp member
  exact decided

theorem ActedUnder.bind {script : AuditScript α} {next : α → AuditScript β} (first : ActedUnder generation script.events)
    (rest : ∀ value, script.outcome = .ok value → ActedUnder generation (next value).events) :
    ActedUnder generation (script >>= next).events := by
  cases answered : script.outcome with
  | ok value =>
      rw [Script.bind_outcome_ok answered]
      exact first.append (rest value answered)
  | error =>
      rw [Script.bind_outcome_error answered]
      exact first

theorem ActedUnder.say {next : Unit → AuditScript β} (other : ∀ decision, event ≠ .actionExecuted decision)
    (rest : ActedUnder generation (next ()).events) : ActedUnder generation (Script.say event >>= next).events :=
  .bind (.said other) (fun _ _ => rest)

theorem ActedUnder.act {next : Unit → AuditScript β} (denial : Decision)
    (decided : denial.trace.policyGeneration = generation) (rest : ActedUnder generation (next ()).events) :
    ActedUnder generation (Script.say (.actionExecuted denial) >>= next).events :=
  .bind (.acted denial decided) (fun _ _ => rest)

theorem evaluate_generation (policy : AclPolicy) (facts : PolicyFacts) :
    (policy.evaluate facts).trace.policyGeneration = policy.generation := by
  unfold AclPolicy.evaluate
  cases firstMatch facts policy.rules <;> rfl

theorem guard_generation (guard : DestinationGuard) (facts : ResolvedTargetFacts) (denial : Decision)
    (denied : guard.evaluate generation facts = some denial) : denial.trace.policyGeneration = generation := by
  obtain ⟨rule,addressClass,rfl⟩ := guard.evaluate_parts generation facts denial denied
  rfl

section Policy

variable (snapshot : PolicySnapshot)

theorem passScript_acts (selected : RequestedTargetFacts) (follow : RequestedTargetFacts → AuditScript RequestedTargetFacts)
    (later : ∀ target, ActedUnder snapshot.policy.generation (follow target).events) :
    ActedUnder snapshot.policy.generation (passScript snapshot selected follow).events := by
  unfold passScript
  apply ActedUnder.say (fun _ => AuditEvent.noConfusion)
  apply ActedUnder.say (fun _ => AuditEvent.noConfusion)
  split
  · exact .nil
  · apply ActedUnder.act _ (evaluate_generation _ _)
    split
    · exact later _
    · exact .nil

theorem requestedScript_acts (requested : RequestedTargetFacts) :
    ActedUnder snapshot.policy.generation (requestedScript snapshot requested).events := by
  apply passScript_acts
  intro target
  apply passScript_acts
  intro _
  exact .nil

-- A denial remembered on the way was decided under the same generation.
def Remembered (firstDenial : Option Decision) : Prop :=
  ∀ denial, firstDenial = some denial → denial.trace.policyGeneration = snapshot.policy.generation

theorem rememberDenial_remembered (remembered : Remembered snapshot firstDenial)
    (decided : denial.trace.policyGeneration = snapshot.policy.generation) :
    Remembered snapshot (rememberDenial snapshot denial firstDenial) := by
  intro first found
  unfold rememberDenial at found
  split at found
  · cases found
    exact decided
  · exact remembered first found

theorem guardScript_acts (resolved : ResolvedTargetFacts) (remembered : Remembered snapshot firstDenial) :
    ActedUnder snapshot.policy.generation (guardScript snapshot resolved firstDenial).events ∧
      ∀ denial, (guardScript snapshot resolved firstDenial).outcome = .ok denial → Remembered snapshot denial := by
  unfold guardScript
  cases spoken : snapshot.destinationGuard.evaluate snapshot.policy.generation resolved with
  | none =>
      refine ⟨.nil,?_⟩
      intro denial same
      cases same
      exact remembered
  | some =>
      refine ⟨.said (fun _ => AuditEvent.noConfusion),?_⟩
      intro denial same
      cases same
      exact rememberDenial_remembered snapshot remembered (guard_generation _ _ _ spoken)

theorem addressesScript_acts (selected : RequestedTargetFacts) (addresses : List SocketAddr)
    (remembered : Remembered snapshot firstDenial) :
    ActedUnder snapshot.policy.generation (addressesScript snapshot selected addresses firstDenial).events ∧
      ∀ denial, (addressesScript snapshot selected addresses firstDenial).outcome = .ok denial →
        Remembered snapshot denial := by
  induction addresses generalizing firstDenial with
  | nil =>
      refine ⟨.nil,?_⟩
      intro denial same
      cases same
      exact remembered
  | cons address rest ih =>
      obtain ⟨quiet,kept⟩ := guardScript_acts snapshot ⟨selected,address.ip⟩ remembered
      have decided := evaluate_generation snapshot.policy (.resolved ⟨selected,address.ip⟩)
      have later (guarded : Option Decision) (fine : Remembered snapshot guarded) :=
        ih (rememberDenial_remembered snapshot fine decided)
      unfold addressesScript
      constructor
      · apply ActedUnder.say (fun _ => AuditEvent.noConfusion)
        refine .bind quiet ?_
        intro guarded answered
        apply ActedUnder.say (fun _ => AuditEvent.noConfusion)
        split
        · exact .act _ decided .nil
        · exact (later guarded (kept guarded answered)).1
      · intro denial ended
        rw [Script.say_bind] at ended
        cases answered : (guardScript snapshot ⟨selected,address.ip⟩ firstDenial).outcome with
        | error =>
            rw [Script.bind_outcome_error answered] at ended
            cases ended
        | ok guarded =>
            rw [Script.bind_outcome_ok answered,Script.say_bind] at ended
            split at ended
            · cases ended
            · exact (later guarded (kept guarded answered)).2 denial ended

theorem authorizationScript_acts (env : Environment) (requested : RequestedTargetFacts) :
    ActedUnder snapshot.policy.generation (authorizationScript env snapshot requested).events := by
  refine .bind (requestedScript_acts snapshot requested) ?_
  intro selected _
  refine .bind .nil ?_
  intro addresses _
  apply ActedUnder.say (fun _ => AuditEvent.noConfusion)
  have fresh : Remembered snapshot none := by
    intro denial found
    cases found
  obtain ⟨quiet,kept⟩ := addressesScript_acts snapshot selected addresses fresh
  refine .bind ?_ (fun _ _ => .nil)
  refine .bind quiet ?_
  intro firstDenial answered
  cases firstDenial with
  | none => exact .nil
  | some denial => exact .act denial (kept _ answered denial rfl) .nil

theorem actionTrail_acts (denied : ∀ denial, found = some denial → denial.trace.policyGeneration = generation) :
    ActedUnder generation (actionTrail found) := by
  cases found with
  | none => exact .nil
  | some denial => exact .acted denial (denied denial rfl)

theorem requestTrail_acts (request : HttpPolicyRequest) (addresses : List SocketAddr) :
    ActedUnder snapshot.policy.generation
      (requestTrail snapshot request addresses ++ actionTrail (requestDenial snapshot request addresses)) := by
  refine .append ?_ (actionTrail_acts ?_)
  · intro decision member
    simp [requestTrail] at member
  · intro denial found
    obtain ⟨address,_,rfl⟩ := List.mem_map.mp (List.mem_of_find?_eq_some found)
    exact evaluate_generation _ _

theorem denialOf_acts (decision : Decision) (decided : decision.trace.policyGeneration = generation) :
    ActedUnder generation (actionTrail (denialOf snapshot decision)) := by
  apply actionTrail_acts
  intro denial found
  unfold denialOf at found
  split at found
  · cases found
  · cases found
    exact decided

theorem responseTrail_acts (facts : HttpResponseFacts) :
    let decision := snapshot.policy.evaluate (.httpResponse facts)
    ActedUnder snapshot.policy.generation (responseTrail facts decision ++ actionTrail (denialOf snapshot decision)) := by
  intro decision
  refine .append ?_ (denialOf_acts snapshot _ (evaluate_generation _ _))
  intro other member
  simp [responseTrail] at member

theorem connectPort_acts (port : Port) :
    let decision := connectPortDenial port snapshot
    ActedUnder snapshot.policy.generation (.aclEvaluated decision :: actionTrail (denialOf snapshot decision)) := by
  intro decision
  exact ActedUnder.append (.said (fun _ => AuditEvent.noConfusion)) (denialOf_acts snapshot _ rfl)

end Policy

namespace FlowInspector

variable (inspector : FlowInspector)

theorem judgeScript_acts (findings : List Finding) :
    ActedUnder inspector.decision.inspection.generation (inspector.judgeScript findings).events := by
  induction findings with
  | nil => exact .nil
  | cons finding rest ih =>
      unfold judgeScript
      apply ActedUnder.say (fun _ => AuditEvent.noConfusion)
      apply ActedUnder.say (fun _ => AuditEvent.noConfusion)
      apply ActedUnder.say (fun _ => AuditEvent.noConfusion)
      split
      · exact ih
      · exact .act _ rfl .nil

theorem captureScript_acts (env : Environment) (direction : Direction) (bytes : List UInt8) :
    ActedUnder inspector.decision.inspection.generation (inspector.captureScript env direction bytes).events ∧
      ∀ captor, (inspector.captureScript env direction bytes).outcome = .ok captor →
        captor.decision = inspector.decision := by
  unfold captureScript
  cases env.capturePrefixBytes with
  | none =>
      refine ⟨.nil,?_⟩
      intro captor same
      cases same
      rfl
  | some =>
      dsimp only
      split
      · refine ⟨.nil,?_⟩
        intro captor same
        cases same
        rfl
      · refine ⟨.said (fun _ => AuditEvent.noConfusion),?_⟩
        intro captor same
        cases same
        rfl

theorem permitsScript_acts (env : Environment) (direction : Direction) (bytes : List UInt8) :
    ActedUnder inspector.decision.inspection.generation (inspector.permitsScript env direction bytes).events := by
  obtain ⟨quiet,kept⟩ := captureScript_acts inspector env direction bytes
  refine .bind quiet ?_
  intro captor answered
  rw [← kept captor answered]
  split
  · exact .nil
  · exact .bind (judgeScript_acts (captor.scan env direction bytes).1 _) (fun _ _ => .nil)

end FlowInspector

-- What a flow does that evaluates a policy or inspects bytes. An inspector keeps
-- the snapshot of its flow.
inductive Operation where
  | authorizeAndResolve (flow : Flow) (requested : RequestedTargetFacts)
  | evaluateHttpPolicy (flow : Flow) (request : HttpPolicyRequest) (addresses : List SocketAddr)
  | evaluateHttpResponsePolicy (flow : Flow) (response : HttpPolicyResponse)
  | checkConnectPort (flow : Flow) (connectPorts : List Port) (port : Port)
  | repeatRequestPolicy (flow : Flow) (request : HttpPolicyRequest) (addresses : List SocketAddr)
  | repeatResponsePolicy (flow : Flow) (response : HttpPolicyResponse)
  | permits (inspector : FlowInspector) (direction : Direction) (bytes : List UInt8)

def Operation.perform (env : Environment) (state : ServiceState) : Operation → ServiceState
  | .authorizeAndResolve flow requested => stateOf ((Proxy.authorizeAndResolve env flow requested).run state)
  | .evaluateHttpPolicy flow request addresses =>
      stateOf ((Proxy.evaluateHttpPolicy env flow request addresses).run state)
  | .evaluateHttpResponsePolicy flow response =>
      stateOf ((Proxy.evaluateHttpResponsePolicy env flow response).run state)
  | .checkConnectPort flow connectPorts port =>
      stateOf ((Proxy.checkConnectPort env flow connectPorts port).run state)
  | .repeatRequestPolicy flow request addresses =>
      stateOf ((Repeat.evaluateRequestPolicy env flow request addresses).run state)
  | .repeatResponsePolicy flow response =>
      stateOf ((Repeat.evaluateResponsePolicy env flow response).run state)
  | .permits inspector direction bytes => stateOf ((inspector.permits env direction bytes).run state)

-- An operation together with the snapshots its loads see: reloads may fall
-- between any two of them.
structure Move where
  operation : Operation
  live : Nat → PolicySnapshot

def reloading (env : Environment) (live : Nat → PolicySnapshot) (state : ServiceState) : Environment :=
  {env with live := fun load => live (load - state.loads)}

def Move.perform (env : Environment) (state : ServiceState) (move : Move) : ServiceState :=
  move.operation.perform (reloading env move.live state) state

def runMoves (env : Environment) (moves : List Move) (state : ServiceState) : ServiceState :=
  moves.foldl (Move.perform env) state

-- The generation under which an operation decides.
def Move.decider (move : Move) : PolicyGeneration :=
  match move.operation with
  | .permits inspector _ _ => inspector.decision.inspection.generation
  | _ => (move.live 0).policy.generation

-- No load of the operation sees another generation.
def Move.Steady (move : Move) : Prop := ∀ load, (move.live load).policy.generation = move.decider

-- What an operation puts forward, read against what it decides under.
structure Spoken (env : Environment) (decider : PolicyGeneration) (state after : ServiceState) : Prop where
  sends : ∃ sent, Sends env state sent after ∧ ActedUnder decider (sent.map AuditEnvelope.event)

theorem spoken_of_follows {env : Environment} {program : Task α} {script : AuditScript α}
    (follows : Follows (auditing env) program state script) (acts : ActedUnder decider script.events) :
    Spoken env decider state (stateOf (program.run state)) := by
  apply ensures_state
  refine ensures_weaken follows ?_ ?_
  · intro value after done
    obtain ⟨_,sent,events,sends,_⟩ := done
    exact ⟨sent,sends,events ▸ acts⟩
  · intro error after stopped
    rcases stopped with ⟨_,sent,events,sends,_⟩ | ⟨sent,lost,rest,events,sends,_⟩
    · exact ⟨sent,sends,events ▸ acts⟩
    · refine ⟨sent ++ [lost],sends,?_⟩
      intro decision member
      apply acts decision
      rw [events]
      simp only [List.map_append,List.map_cons,List.map_nil,List.mem_append,List.mem_singleton] at member
      simp only [List.mem_append,List.mem_cons]
      tauto

theorem move_spoken (env : Environment) (state : ServiceState) (move : Move) :
    Spoken (reloading env move.live state) move.decider state (move.perform env state) := by
  obtain ⟨operation,live⟩ := move
  have first : (reloading env live state).live state.loads = live 0 := by
    simp [reloading]
  cases operation with
  | authorizeAndResolve flow requested =>
      have follows := @authorizeAndResolve_follows (reloading env live state) flow requested state
      rw [first] at follows
      exact spoken_of_follows follows (authorizationScript_acts (live 0) _ requested)
  | evaluateHttpPolicy flow request addresses =>
      have follows := @evaluateHttpPolicy_follows (reloading env live state) flow request addresses state
      rw [first] at follows
      exact spoken_of_follows follows (requestTrail_acts (live 0) request addresses)
  | evaluateHttpResponsePolicy flow response =>
      have follows := @evaluateHttpResponsePolicy_follows (reloading env live state) flow response state
      rw [first] at follows
      exact spoken_of_follows follows (responseTrail_acts (live 0) response.facts)
  | checkConnectPort flow connectPorts port =>
      have follows := @checkConnectPort_follows (reloading env live state) flow connectPorts port state
      rw [first] at follows
      refine spoken_of_follows follows ?_
      split
      · exact .nil
      · exact connectPort_acts (live 0) port
  | repeatRequestPolicy flow request addresses =>
      have follows := @Repeat.evaluateRequestPolicy_follows (reloading env live state) flow request addresses state
      rw [first] at follows
      exact spoken_of_follows follows (requestTrail_acts (live 0) request addresses)
  | repeatResponsePolicy flow response =>
      have follows := @Repeat.evaluateResponsePolicy_follows (reloading env live state) flow response state
      rw [first] at follows
      exact spoken_of_follows follows (responseTrail_acts (live 0) response.facts)
  | permits inspector direction bytes =>
      exact spoken_of_follows
        (FlowInspector.permits_follows inspector direction bytes state)
        (FlowInspector.permitsScript_acts inspector _ direction bytes)

theorem Stamped.attributed (stamped : Stamped env first last envelope)
    (acted : ∀ decision load, envelope.event = .actionExecuted decision → first ≤ load →
      (env.live load).policy.generation = decision.trace.policyGeneration) : Attributed envelope := by
  obtain ⟨context,event⟩ := envelope
  cases event with
  | aclEvaluated | inspectionEvaluated => exact stamped
  | actionExecuted decision =>
      obtain ⟨load,least,_,live⟩ := stamped
      exact live.trans (acted decision load rfl least)
  | _ => trivial

theorem Spoken.attributed (spoken : Spoken env decider state after)
    (start : ∀ envelope ∈ state.attempted, Attributed envelope)
    (steady : ∀ load, state.loads ≤ load → (env.live load).policy.generation = decider) :
    ∀ envelope ∈ after.attempted, Attributed envelope := by
  obtain ⟨sent,sends,acts⟩ := spoken
  intro envelope member
  rw [sends.attempted] at member
  rcases List.mem_append.mp member with before | fresh
  · exact start envelope before
  · apply (sends.stamped envelope fresh).attributed
    intro decision load event least
    exact (steady load least).trans (acts decision (event ▸ List.mem_map_of_mem fresh)).symm

theorem Spoken.evaluated (spoken : Spoken env decider state after)
    (start : ∀ envelope ∈ state.attempted, (∀ decision, envelope.event ≠ .actionExecuted decision) → Attributed envelope) :
    ∀ envelope ∈ after.attempted, (∀ decision, envelope.event ≠ .actionExecuted decision) → Attributed envelope := by
  obtain ⟨sent,sends,_⟩ := spoken
  intro envelope member other
  rw [sends.attempted] at member
  rcases List.mem_append.mp member with before | fresh
  · exact start envelope before other
  · apply (sends.stamped envelope fresh).attributed
    intro decision load event
    exact absurd event (other decision)

theorem runMoves_evaluated (env : Environment) (moves : List Move) (state : ServiceState)
    (start : ∀ envelope ∈ state.attempted, (∀ decision, envelope.event ≠ .actionExecuted decision) → Attributed envelope) :
    ∀ envelope ∈ (runMoves env moves state).attempted,
      (∀ decision, envelope.event ≠ .actionExecuted decision) → Attributed envelope := by
  induction moves generalizing state with
  | nil => exact start
  | cons move rest ih => exact ih _ ((move_spoken env state move).evaluated start)

theorem runMoves_attributed (env : Environment) (moves : List Move) (state : ServiceState)
    (steady : ∀ move ∈ moves, move.Steady) (start : ∀ envelope ∈ state.attempted, Attributed envelope) :
    ∀ envelope ∈ (runMoves env moves state).attempted, Attributed envelope := by
  induction moves generalizing state with
  | nil => exact start
  | cons move rest ih =>
      refine ih _ (fun later member => steady later (List.mem_cons_of_mem _ member)) ?_
      exact (move_spoken env state move).attributed start
        (fun load _ => steady move List.mem_cons_self (load - state.loads))

theorem generations_attributed (env : Environment) (moves : List Move) :
    (∀ envelope ∈ (runMoves env moves idleState).attempted,
      (∀ decision, envelope.event ≠ .actionExecuted decision) → Attributed envelope) ∧
    ((∀ move ∈ moves, move.Steady) →
      ∀ envelope ∈ (runMoves env moves idleState).attempted, Attributed envelope) := by
  constructor
  · exact runMoves_evaluated env moves idleState (fun _ member => by cases member)
  · intro steady
    exact runMoves_attributed env moves idleState steady (fun _ member => by cases member)

theorem two_fits : 2 ≤ u64Max := by decide

def secondGeneration : PolicyGeneration := ⟨2,Nat.zero_lt_two,two_fits⟩

def denyingSnapshot (generation : PolicyGeneration) : PolicySnapshot :=
  {detourEnvironment.live 0 with policy := ⟨generation,[],.deny,rfl⟩}

def deniedMove (live : Nat → PolicySnapshot) : Move := ⟨.authorizeAndResolve ⟨⟨1⟩,none⟩ detourRequest,live⟩

-- A denial recorded while its policy is still in force.
theorem generations_attributed_denial :
    (deniedMove (fun _ => denyingSnapshot .initial)).Steady ∧
      ∀ envelope ∈ (runMoves detourEnvironment [deniedMove (fun _ => denyingSnapshot .initial)] idleState).attempted,
        Attributed envelope := by
  have steady : (deniedMove (fun _ => denyingSnapshot .initial)).Steady := fun _ => rfl
  refine ⟨steady,(generations_attributed detourEnvironment _).2 ?_⟩
  intro move member
  rw [List.mem_singleton.mp member]
  exact steady

-- The reload falls between the evaluation of the policy and the record of the
-- action: the denial of the first generation is recorded under the second.
theorem denial_recorded_under_reload :
    let live := fun load => if load < 3 then denyingSnapshot .initial else denyingSnapshot secondGeneration
    ∃ envelope ∈ (runMoves detourEnvironment [deniedMove live] idleState).attempted,
      envelope.event = .actionExecuted ((denyingSnapshot .initial).policy.evaluate (.requested detourRequest)) ∧
        envelope.context.policyGeneration = secondGeneration ∧ ¬ Attributed envelope := by
  intro live
  have recorded : ((runMoves detourEnvironment [deniedMove live] idleState).attempted.find?
      (fun envelope => envelope.context.policyGeneration = secondGeneration)) =
      some ⟨⟨2,⟨1⟩,none,secondGeneration⟩,
        .actionExecuted ((denyingSnapshot .initial).policy.evaluate (.requested detourRequest))⟩ := by decide +kernel
  refine ⟨_,List.mem_of_find?_eq_some recorded,rfl,rfl,?_⟩
  unfold Attributed
  decide +kernel

end Freja.Proxy
