import Freja.Audit.CapturedPrefix
import Freja.Proxy.BodyInspection

namespace Freja.Proxy
open Domain Policy Audit Effect Bytes

-- What arrives at an inspector, chunk by chunk and in any order of the directions.
abbrev Arrivals := List (Direction × List UInt8)

def Arrivals.stream (arrivals : Arrivals) (direction : Direction) : List UInt8 :=
  (arrivals.filter (fun arrival => arrival.1 == direction)).flatMap (·.2)

theorem Arrivals.stream_cons (arrival : Direction × List UInt8) (rest : Arrivals) (direction : Direction) :
    Arrivals.stream (arrival :: rest) direction =
      if arrival.1 = direction then arrival.2 ++ Arrivals.stream rest direction
      else Arrivals.stream rest direction := by
  unfold Arrivals.stream
  by_cases here : arrival.1 = direction
  · simp [here]
  · simp [here]

theorem Arrivals.stream_append (early late : Arrivals) (direction : Direction) :
    Arrivals.stream (early ++ late) direction = Arrivals.stream early direction ++ Arrivals.stream late direction := by
  unfold Arrivals.stream
  rw [List.filter_append,List.flatMap_append]

variable (env : Environment)

def FlowInspector.inspectAll (inspector : FlowInspector) : Arrivals → Task FlowInspector
  | [] => return inspector
  | (direction,bytes) :: rest => do
      let (_,next) ← inspector.permits env direction bytes
      next.inspectAll rest

def FlowInspector.piece (inspector : FlowInspector) (arrival : Direction × List UInt8) : CapturedPrefix :=
  ⟨inspector.flow.sessionId,inspector.flow.transactionId,arrival.1,inspector.protocol,hexEncode arrival.2⟩

-- What a task has put forward between two states: no checkpoint, and these pieces.
def Adds (state : ServiceState) (pieces : List CapturedPrefix) (after : ServiceState) : Prop :=
  ∃ sent, after.attempted = state.attempted ++ sent ∧ (∀ envelope ∈ sent, SinkSetup.Ordinary envelope) ∧
    sent.filterMap AuditEnvelope.captured = pieces

theorem Adds.nothing {state after : ServiceState} (same : after.attempted = state.attempted) : Adds state [] after := by
  refine ⟨[],?_,?_,rfl⟩
  · rw [same,List.append_nil]
  · intro envelope member
    cases member

theorem Adds.further (first : Adds state early middle) (second : Adds middle late after) :
    Adds state (early ++ late) after := by
  obtain ⟨before,attempted,ordinary,rfl⟩ := first
  obtain ⟨behind,attemptedLater,ordinaryLater,rfl⟩ := second
  refine ⟨before ++ behind,by rw [attemptedLater,attempted,List.append_assoc],?_,List.filterMap_append⟩
  intro envelope member
  rcases List.mem_append.mp member with old | new
  · exact ordinary envelope old
  · exact ordinaryLater envelope new

theorem publish_adds (envelope : AuditEnvelope) (ordinary : SinkSetup.Ordinary envelope) (state : ServiceState) :
    Ensures (publish env envelope) state (fun _ after => Adds state envelope.captured.toList after)
      (fun _ _ => True) := by
  have attempted : ∀ after : ServiceState, after.attempted = state.attempted ++ [envelope] →
      Adds state envelope.captured.toList after := by
    intro after same
    refine ⟨[envelope],same,?_,?_⟩
    · intro other member
      rw [List.mem_singleton.mp member]
      exact ordinary
    · cases capture : envelope.captured with
      | none | some => simp [capture]
  exact ensures_weaken (publish_attempts envelope state) (fun _ => attempted) (fun _ _ _ => trivial)

theorem publishEvent_adds (flow : Flow) (event : AuditEvent) (ordinary : ∀ checkpoint, event ≠ .signedCheckpoint checkpoint)
    (state : ServiceState) :
    Ensures (publishEvent env flow event) state
      (fun _ after => Adds state (capturedPrefix flow.sessionId flow.transactionId event).toList after)
      (fun _ _ => True) := by
  have context : Ensures (auditContext env flow) state
      (fun context after => after.attempted = state.attempted ∧ context.sessionId = flow.sessionId ∧
        context.transactionId = flow.transactionId) (fun _ _ => True) := ensures_ok rfl ⟨rfl,rfl,rfl⟩
  refine ensures_then context ?_
  intro context loaded known
  obtain ⟨attempted,session,transaction⟩ := known
  refine ensures_weaken (publish_adds env ⟨context,event⟩ ordinary loaded) ?_ (fun _ _ _ => trivial)
  intro _ after adds
  rw [← session,← transaction]
  exact (Adds.nothing attempted).further adds

namespace FlowInspector

theorem judge_adds (inspector : FlowInspector) (context : AuditContext) (findings : List Finding)
    (state : ServiceState) :
    Ensures (inspector.judge env context findings) state (fun _ after => Adds state [] after)
      (fun _ _ => True) := by
  induction findings generalizing state with
  | nil => exact ensures_pure (Adds.nothing rfl)
  | cons finding rest ih =>
      unfold judge
      refine ensures_then (publish_adds env ⟨context,.findingDetected finding⟩ (fun _ same => by cases same) state) ?_
      intro _ detected first
      refine ensures_then (publish_adds env ⟨context,.replayFactsObserved _⟩ (fun _ same => by cases same) detected) ?_
      intro _ observed second
      refine ensures_then (publish_adds env ⟨_,.inspectionEvaluated _⟩ (fun _ same => by cases same) observed) ?_
      intro _ evaluated third
      have quiet : Adds state [] evaluated := (first.further second).further third
      split
      · refine ensures_weaken (ih evaluated) ?_ (fun _ _ _ => trivial)
        intro _ after more
        exact quiet.further more
      · refine ensures_then (publishEvent_adds env inspector.flow (.actionExecuted _) (fun _ same => by cases same) evaluated) ?_
        intro _ recorded last
        exact ensures_pure (quiet.further last)

-- What one arrival adds to the captured pieces.
def taking (maximum : Nat) (inspector : FlowInspector) (direction : Direction) (bytes : List UInt8) : List UInt8 :=
  bytes.take (maximum - inspector.captured direction)

def capturing (maximum : Nat) (inspector : FlowInspector) (direction : Direction) (bytes : List UInt8) : Arrivals :=
  if inspector.taking maximum direction bytes = [] then [] else [(direction,inspector.taking maximum direction bytes)]

theorem capturing_stream (maximum : Nat) (inspector : FlowInspector) (direction other : Direction)
    (bytes : List UInt8) : Arrivals.stream (inspector.capturing maximum direction bytes) other =
      if direction = other then inspector.taking maximum direction bytes else [] := by
  unfold capturing
  split
  · rename_i nothing
    rw [nothing,ite_self]
    rfl
  · rw [Arrivals.stream_cons]
    split <;> simp [Arrivals.stream]

theorem capturing_filled (maximum : Nat) (inspector : FlowInspector) (direction : Direction) (bytes : List UInt8) :
    ∀ piece ∈ inspector.capturing maximum direction bytes, piece.2 ≠ [] := by
  intro piece member
  unfold capturing at member
  split at member
  · cases member
  · rename_i filled
    rw [List.mem_singleton.mp member]
    exact filled

theorem capturing_short (maximum : Nat) (inspector : FlowInspector) (direction : Direction) (bytes : List UInt8) :
    ∀ piece ∈ inspector.capturing maximum direction bytes, piece.2.length ≤ maximum := by
  intro piece member
  unfold capturing at member
  split at member
  · cases member
  · rw [List.mem_singleton.mp member]
    unfold taking
    rw [List.length_take]
    omega

structure CapturedMore (maximum : Nat) (inspector : FlowInspector) (direction : Direction) (bytes : List UInt8)
    (next : FlowInspector) : Prop where
  flow : next.flow = inspector.flow
  protocol : next.protocol = inspector.protocol
  captured : next.captured = Function.update inspector.captured direction
    (inspector.captured direction + (inspector.taking maximum direction bytes).length)

theorem capture_adds (bounded : env.capturePrefixBytes = some maximum) (inspector : FlowInspector)
    (direction : Direction) (bytes : List UInt8) (state : ServiceState) :
    Ensures (inspector.capture env direction bytes) state
      (fun next after => CapturedMore maximum inspector direction bytes next ∧
        Adds state ((inspector.capturing maximum direction bytes).map inspector.piece) after)
      (fun _ _ => True) := by
  have cut : bytes.take (min (maximum - inspector.captured direction) bytes.length) =
      inspector.taking maximum direction bytes := by
    unfold taking
    rw [List.take_eq_take_iff]
    omega
  have count : (inspector.taking maximum direction bytes).length =
      min (maximum - inspector.captured direction) bytes.length := by
    unfold taking
    rw [List.length_take]
  unfold capture capturing
  rw [bounded]
  dsimp only
  rw [cut,← count]
  split
  · rename_i empty
    have nothing := List.length_eq_zero_iff.mp empty
    rw [if_pos nothing]
    refine ensures_pure ⟨⟨rfl,rfl,?_⟩,Adds.nothing rfl⟩
    rw [nothing,List.length_nil,Nat.add_zero,Function.update_eq_self]
  · rename_i filled
    rw [if_neg (fun empty => filled (by rw [empty]; rfl))]
    refine ensures_then (publishEvent_adds env inspector.flow (.payloadPrefixCaptured _ _ _)
      (fun _ same => by cases same) state) ?_
    intro _ after adds
    exact ensures_pure ⟨⟨rfl,rfl,rfl⟩,adds⟩

theorem permits_adds (bounded : env.capturePrefixBytes = some maximum) (inspector : FlowInspector)
    (direction : Direction) (bytes : List UInt8) (state : ServiceState) :
    Ensures (inspector.permits env direction bytes) state
      (fun result after => CapturedMore maximum inspector direction bytes result.2 ∧
        Adds state ((inspector.capturing maximum direction bytes).map inspector.piece) after)
      (fun _ _ => True) := by
  refine ensures_then (capture_adds env bounded inspector direction bytes state) ?_
  intro captor captured known
  obtain ⟨more,adds⟩ := known
  split
  · exact ensures_pure ⟨more,adds⟩
  · have context : Ensures (auditContext env captor.flow) captured
        (fun _ after => after.attempted = captured.attempted) (fun _ _ => True) := ensures_ok rfl rfl
    refine ensures_then context ?_
    intro context started same
    refine ensures_then (judge_adds env _ context _ started) ?_
    intro verdict judged quiet
    refine ensures_pure ⟨⟨more.flow,more.protocol,more.captured⟩,?_⟩
    have all := adds.further ((Adds.nothing same).further quiet)
    rwa [List.append_nil,List.append_nil] at all

-- Together the pieces of a direction are the first bytes of its stream.
theorem inspectAll_adds (bounded : env.capturePrefixBytes = some maximum) (inspector : FlowInspector)
    (seen : Direction → List UInt8)
    (counted : ∀ direction, inspector.captured direction = min maximum (seen direction).length) (arrivals : Arrivals)
    (state : ServiceState) :
    Ensures (inspector.inspectAll env arrivals) state
      (fun _ after => ∃ pieces : Arrivals,
        Adds state (pieces.map inspector.piece) after ∧
        (∀ piece ∈ pieces, piece.2 ≠ [] ∧ piece.2.length ≤ maximum) ∧
        ∀ direction, (seen direction).take maximum ++ Arrivals.stream pieces direction =
          (seen direction ++ Arrivals.stream arrivals direction).take maximum)
      (fun _ _ => True) := by
  induction arrivals generalizing inspector seen state with
  | nil =>
      refine ensures_pure ⟨[],Adds.nothing rfl,nofun,?_⟩
      intro direction
      simp [Arrivals.stream]
  | cons arrival rest ih =>
      obtain ⟨direction,bytes⟩ := arrival
      refine ensures_then (permits_adds env bounded inspector direction bytes state) ?_
      intro result permitted known
      obtain ⟨verdict,next⟩ := result
      obtain ⟨more,adds⟩ := known
      have window := take_window maximum (seen direction) bytes
      have taken : inspector.taking maximum direction bytes = bytes.take (maximum - min maximum (seen direction).length) := by
        unfold taking
        rw [counted]
      refine ensures_weaken (ih next (Function.update seen direction (seen direction ++ bytes)) ?_ permitted) ?_
        (fun _ _ _ => trivial)
      · intro other
        rw [more.captured]
        by_cases same : other = direction
        · subst same
          rw [Function.update_self,Function.update_self,taken,counted,List.length_take,List.length_append]
          omega
        · rw [Function.update_of_ne same,Function.update_of_ne same,counted]
      · intro _ after later
        obtain ⟨others,held,short,streams⟩ := later
        have same : next.piece = inspector.piece := by
          funext arrival
          unfold piece
          rw [more.flow,more.protocol]
        refine ⟨inspector.capturing maximum direction bytes ++ others,?_,?_,?_⟩
        · rw [same] at held
          rw [List.map_append]
          exact adds.further held
        · intro piece member
          rcases List.mem_append.mp member with first | second
          · exact ⟨capturing_filled maximum inspector direction bytes piece first,
              capturing_short maximum inspector direction bytes piece first⟩
          · exact short piece second
        · intro other
          have later := streams other
          rw [Arrivals.stream_append,capturing_stream,Arrivals.stream_cons]
          by_cases here : direction = other
          · subst here
            rw [Function.update_self] at later
            rw [if_pos rfl,if_pos rfl,← List.append_assoc,taken,← window,later,List.append_assoc]
          · rw [Function.update_of_ne (Ne.symm here)] at later
            rw [if_neg here,if_neg here,List.nil_append]
            exact later

end FlowInspector

-- A flow that was inspected and whose captures are bounded, from its start to any
-- point of its life.
structure CapturedFlow (maximum : Nat) where
  env : Environment
  bounded : env.capturePrefixBytes = some maximum
  decision : PolicySnapshot
  flow : Flow
  protocol : Protocol
  maximumInspectedBytes : Nat
  arrivals : Arrivals
  last : FlowInspector
  after : ServiceState
  ran : (FlowInspector.inspectAll env (.ofSnapshot decision flow protocol maximumInspectedBytes) arrivals).run
    idleState = .ok last after

namespace CapturedFlow

def published (captured : CapturedFlow maximum) : List AuditEnvelope := captured.after.attempted

def stream (captured : CapturedFlow maximum) (direction : Direction) : List UInt8 :=
  Arrivals.stream captured.arrivals direction

theorem pieces (captured : CapturedFlow maximum) :
    (∀ envelope ∈ captured.published, SinkSetup.Ordinary envelope) ∧
    ∃ pieces : Arrivals,
      captured.published.filterMap AuditEnvelope.captured = pieces.map (fun piece =>
        ⟨captured.flow.sessionId,captured.flow.transactionId,piece.1,captured.protocol,hexEncode piece.2⟩) ∧
      (∀ piece ∈ pieces, piece.2 ≠ [] ∧ piece.2.length ≤ maximum) ∧
      ∀ direction, Arrivals.stream pieces direction = (captured.stream direction).take maximum := by
  have counted : ∀ direction, (FlowInspector.ofSnapshot captured.decision captured.flow captured.protocol
      captured.maximumInspectedBytes).captured direction = min maximum ([] : List UInt8).length :=
    fun _ => (Nat.min_zero _).symm
  obtain ⟨pieces,⟨sent,attempted,ordinary,held⟩,short,streams⟩ := ensures_answer (FlowInspector.inspectAll_adds
    captured.env captured.bounded _ (fun _ => []) counted captured.arrivals idleState) captured.ran
  have all : captured.published = sent := attempted
  rw [all]
  refine ⟨ordinary,pieces,held,short,?_⟩
  intro direction
  have whole := streams direction
  rwa [List.take_nil,List.nil_append,List.nil_append] at whole

end CapturedFlow

end Freja.Proxy
