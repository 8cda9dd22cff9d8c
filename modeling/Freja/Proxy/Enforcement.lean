import Freja.Proxy.BodyInspection
import Freja.Proxy.Relay

namespace Freja.Proxy
open Domain Policy Audit Effect Bytes Occurrence

variable (env : Environment)

-- One direction of a flow after its stream has been read to its end or blocked.
structure ExactlyEnforced (program : InspectionProgram) (direction : Direction) (budget : Nat)
    (stream : List UInt8) (blocked : Prop) (forwarded : List UInt8) : Prop where
  denied : blocked ↔ program.DenyIn direction (stream.take budget)
  within : forwarded <+: stream
  whole : ¬ blocked → forwarded = stream
  short : blocked → ∀ pattern ∈ program.applying direction, pattern.action = .deny →
    ∀ start, OccursAt (stream.take budget) pattern.bytes start → forwarded.length < start + pattern.bytes.length

theorem denied_beyond {program : InspectionProgram} {direction : Direction} {budget : Nat}
    {stream forwarded : List UInt8} (within : forwarded <+: stream)
    (clean : ¬ program.DenyIn direction (forwarded.take budget)) (applies : pattern ∈ program.applying direction)
    (denies : pattern.action = .deny) (occurs : OccursAt (stream.take budget) pattern.bytes start) :
    forwarded.length < start + pattern.bytes.length := by
  obtain ⟨rest,rfl⟩ := within
  by_contra inside
  have fits := occurs.1
  rw [take_window] at occurs
  rw [List.length_take] at fits
  refine clean ⟨pattern,applies,denies,start,(occursAt_append_left _ ?_).mp occurs⟩
  rw [List.length_take]
  omega

theorem exactlyEnforced_blocked {program : InspectionProgram} {direction : Direction} {budget : Nat}
    {stream forwarded : List UInt8} (blocked : Prop) (happened : blocked)
    (denied : program.DenyIn direction (stream.take budget)) (within : forwarded <+: stream)
    (clean : ¬ program.DenyIn direction (forwarded.take budget)) :
    ExactlyEnforced program direction budget stream blocked forwarded where
  denied := iff_of_true happened denied
  within := within
  whole := fun not => absurd happened not
  short := fun _ _ applies denies _ occurs => denied_beyond within clean applies denies occurs

theorem exactlyEnforced_passed {program : InspectionProgram} {direction : Direction} {budget : Nat}
    {stream : List UInt8} (blocked : Prop) (never : ¬ blocked)
    (clean : ¬ program.DenyIn direction (stream.take budget)) :
    ExactlyEnforced program direction budget stream blocked stream where
  denied := iff_of_false never clean
  within := List.prefix_refl stream
  whole := fun _ => rfl
  short := fun happened => absurd happened never

section Bodies

variable {snapshot : PolicySnapshot} {config : BodyPumpConfig} {inspection : FlowInspector}

def Arrival.bytes (arrival : Arrival) : List UInt8 :=
  match arrival.event with
  | .data bytes => bytes
  | _ => []

-- A body read to its end: nothing but frames, each of them delivered.
def ReadToEnd (body : List Arrival) : Prop :=
  ∀ arrival ∈ body, arrival.delivered = true ∧
    (arrival.event = .trailers ∨ ∃ bytes, arrival.event = .data bytes)

def BodyBlocked (sent : List Sent) : Prop := ∃ entry ∈ sent, entry.frame = .error .inspectionBlocked

-- What the pump has done with the rest of a body, given what it had read before.
inductive Pumped (program : InspectionProgram) (direction : Direction) (budget : Nat) (consumed : List UInt8)
    (stream : List UInt8) (sent : List Sent) : Prop where
  | passed (through : sent.flatMap Sent.bytes = stream) (unblocked : ¬ BodyBlocked sent)
      (clean : ¬ program.DenyIn direction ((consumed ++ stream).take budget))
  | stopped (within : sent.flatMap Sent.bytes <+: stream) (blocked : BodyBlocked sent)
      (denied : program.DenyIn direction ((consumed ++ stream).take budget))
      (clean : ¬ program.DenyIn direction ((consumed ++ sent.flatMap Sent.bytes).take budget))

theorem Pumped.cons {program : InspectionProgram} {direction : Direction} {budget : Nat}
    {consumed stream : List UInt8} {later : List Sent} (sent : Sent) (forwarded : sent.frame ≠ .error .inspectionBlocked)
    (pumped : Pumped program direction budget (consumed ++ sent.bytes) stream later) :
    Pumped program direction budget consumed (sent.bytes ++ stream) (sent :: later) := by
  have blocks : BodyBlocked (sent :: later) ↔ BodyBlocked later := by
    simp only [BodyBlocked,List.mem_cons,exists_eq_or_imp,forwarded,false_or]
  cases pumped with
  | passed through unblocked =>
      refine .passed ?_ (mt blocks.mp unblocked) ?_
      · rw [List.flatMap_cons,through]
      · rwa [← List.append_assoc]
  | stopped within blocked =>
      refine .stopped ?_ (blocks.mpr blocked) ?_ ?_
      · rw [List.flatMap_cons]
        exact (List.prefix_append_right_inj _).mpr within
      · rwa [← List.append_assoc]
      · rwa [List.flatMap_cons,← List.append_assoc]

theorem pump_enforces (reliable : Reliable env) (disabled : env.hooks.mode = .disabled)
    (watched : Watched snapshot config inspection inspectedBytes consumed) (body : List Arrival)
    (read : ReadToEnd body) (state : ServiceState) :
    Ensures (pumpInspectedBody env config inspection inspectedBytes consumed body) state
      (fun sent _ => Pumped snapshot.inspection config.direction config.maximumInspectedBytes consumed
        (body.flatMap Arrival.bytes) sent) (fun _ _ => False) := by
  induction body generalizing inspection inspectedBytes consumed state with
  | nil =>
      refine ensures_pure (.passed rfl ?_ ?_)
      · intro blocked
        obtain ⟨_,member,_⟩ := blocked
        cases member
      · rw [List.flatMap_nil,List.append_nil]
        exact watched.clean
  | cons arrival rest ih =>
      have others : ReadToEnd rest := fun other member => read other (List.mem_cons_of_mem _ member)
      obtain ⟨delivered,event⟩ := read arrival List.mem_cons_self
      unfold pumpInspectedBody sendBodyFrame
      rw [List.flatMap_cons,delivered]
      rcases event with trailers | ⟨data,arrived⟩
      · have none : arrival.bytes = [] := by rw [Arrival.bytes,trailers]
        rw [trailers,none]
        dsimp only
        split
        · exact ih watched others state
        · rw [if_pos rfl]
          refine ensures_then (ih watched others state) ?_
          intro later after pumped
          refine ensures_pure (Pumped.cons ⟨.ok .trailers,_,_⟩ (by intro blocked; cases blocked) ?_)
          rw [show Sent.bytes ⟨.ok .trailers,_,_⟩ = [] from rfl,List.append_nil]
          exact pumped
      · have all : arrival.bytes = data := by rw [Arrival.bytes,arrived]
        rw [arrived,all]
        refine ensures_then (inspectFrame_checks watched data state) ?_
        intro result inspected checked
        cases result with
        | error =>
            rcases checked with ⟨same,denied⟩ | ⟨cause,_,unaudited⟩
            · subst same
              refine ensures_pure (.stopped List.nil_prefix ⟨_,List.mem_cons_self,rfl⟩ ?_ ?_)
              · refine InspectionProgram.denyIn_mono ?_ denied
                rw [← List.append_assoc,take_window _ (consumed ++ data)]
                exact List.prefix_append _ _
              · simpa [Sent.bytes] using watched.clean
            · exact absurd reliable unaudited.1
        | ok passed =>
            obtain ⟨next,count⟩ := passed
            refine ensures_then (transformFrame_disabled disabled data inspected) ?_
            intro output transformed same
            subst same
            dsimp only
            rw [if_pos rfl]
            refine ensures_then (ih checked others transformed) ?_
            intro later after pumped
            exact ensures_pure (Pumped.cons ⟨.ok (.data data),_,_⟩ (by intro blocked; cases blocked) pumped)

theorem Pumped.exactly (pumped : Pumped program direction budget [] stream sent) :
    ExactlyEnforced program direction budget stream (BodyBlocked sent) (sent.flatMap Sent.bytes) := by
  cases pumped with
  | passed through unblocked clean =>
      rw [through]
      exact exactlyEnforced_passed _ unblocked clean
  | stopped within blocked denied clean => exact exactlyEnforced_blocked _ blocked denied within clean

-- The handlers of both bodies, while the modes do not change.
theorem deliverBody_enforces (service : HttpService) (exchange : Exchange) (side : BodySide) (body : List Arrival)
    (state : ServiceState) (reliable : Reliable env) (disabled : env.hooks.mode = .disabled)
    (fixed : ∀ load, (env.live load).enforcement = .enforce ∧
      (env.live load).inspectionMode = .streaming)
    (content : side = .response → HttpService.responseHasNoContent exchange.parts.method exchange.status = false)
    (read : ReadToEnd body) :
    Ensures (service.deliverBody env exchange side body) state
      (fun prepared _ => ∃ headers sent, prepared = .forwarded headers sent ∧
        ExactlyEnforced (env.live (state.loads + 1)).inspection side.direction service.limits.bodyPrefixBytes
          (body.flatMap Arrival.bytes) (BodyBlocked sent) (sent.flatMap Sent.bytes))
      (fun _ _ => False) := by
  have streams : ∀ headers uncollected encoded,
      Ensures (service.bodyByMode env side.direction headers false uncollected encoded body) state
        (fun prepared _ => ∃ headers sent, prepared = .forwarded headers sent ∧
          ExactlyEnforced (env.live (state.loads + 1)).inspection side.direction
            service.limits.bodyPrefixBytes (body.flatMap Arrival.bytes) (BodyBlocked sent) (sent.flatMap Sent.bytes))
        (fun _ _ => False) := by
    intro headers uncollected encoded
    refine ensures_then (HttpService.mode_read state) ?_
    intro mode loaded read
    obtain ⟨rfl,later⟩ := read
    rw [(fixed _).2,← later]
    dsimp only
    have pumps : Ensures (service.startStreamingInspection env side.direction
        (!headers.containsKey "content-encoding") false body) loaded
        (fun sent _ => Pumped (env.live loaded.loads).inspection side.direction
          service.limits.bodyPrefixBytes [] (body.flatMap Arrival.bytes) sent) (fun _ _ => False) := by
      refine ensures_then (HttpService.fresh service loaded) ?_
      intro inspection started same
      subst same
      exact pump_enforces env reliable disabled
        (HttpService.fresh_watched service loaded _ (fixed _).1 (.inl (fixed _).2)) body read started
    refine ensures_then pumps ?_
    intro sent after pumped
    exact ensures_pure ⟨_,sent,rfl,pumped.exactly⟩
  cases side with
  | request =>
      have quiet : env.hooks.mayMutateRequestBody = false := by
        simp [HookRunner.mayMutateRequestBody,disabled]
      unfold HttpService.deliverBody HttpService.prepareRequestBody
      dsimp only
      rw [if_neg (by rw [disabled]; intro same; cases same),quiet]
      exact streams _ _ _
  | response =>
      have quiet : env.hooks.mayMutateResponseBody = false := by
        simp [HookRunner.mayMutateResponseBody,disabled]
      unfold HttpService.deliverBody HttpService.finishResponseBody
      dsimp only
      rw [if_neg (by rw [content rfl]; exact Bool.false_ne_true),quiet]
      exact streams _ _ _

end Bodies

section Tunnels

variable {snapshot : PolicySnapshot} {limit : Nat} {streams : RelaySide → List UInt8}

theorem RelaySide.direction_ne {side other : RelaySide} (different : other ≠ side) :
    other.direction ≠ side.direction := by
  cases side <;> cases other <;> first | exact absurd rfl different | exact nofun

-- The inspector has been given the first bytes read in each direction.
structure Tracked (snapshot : PolicySnapshot) (limit : Nat) (taken : RelaySide → List UInt8)
    (inspector : FlowInspector) : Prop where
  decision : inspector.decision = snapshot
  streaming : inspector.mode = .streaming
  budget : inspector.maximumInspectedBytes = limit
  inspected : ∀ side, inspector.inspected side.direction = min limit (taken side).length
  fed : ∀ side, inspector.fed side.direction = (taken side).take limit

theorem Tracked.window (tracked : Tracked snapshot limit taken inspector) (side : RelaySide) (bytes : List UInt8) :
    inspector.fed side.direction ++ inspector.share side.direction bytes = (taken side ++ bytes).take limit := by
  unfold FlowInspector.share
  rw [tracked.fed,tracked.inspected,tracked.budget,take_window]

theorem Tracked.advances (tracked : Tracked snapshot limit taken inspector) {side : RelaySide} {bytes : List UInt8}
    (advances : FlowInspector.Advances inspector side.direction bytes next) :
    Tracked snapshot limit (Function.update taken side (taken side ++ bytes)) next := by
  refine ⟨advances.decision.trans tracked.decision,advances.mode.trans tracked.streaming,
    advances.budget.trans tracked.budget,?_,?_⟩
  · intro other
    by_cases same : other = side
    · subst same
      have shared : (inspector.share other.direction bytes).length =
          min (limit - min limit (taken other).length) bytes.length := by
        unfold FlowInspector.share
        rw [List.length_take,tracked.inspected,tracked.budget]
      rw [advances.streaming tracked.streaming,shared,tracked.inspected,Function.update_self,List.length_append]
      omega
    · rw [advances.others _ (RelaySide.direction_ne same),Function.update_of_ne same,tracked.inspected]
  · intro other
    rw [advances.fed]
    by_cases same : other = side
    · subst same
      rw [Function.update_self,Function.update_self,tracked.window]
    · rw [Function.update_of_ne (RelaySide.direction_ne same),Function.update_of_ne same,tracked.fed]

-- What holds of one direction of a relay that inspects as it reads: all that was
-- read has been written on and is clean, as long as the relay runs and for good once
-- the direction is closed; a blocked direction keeps back what it was blocked for.
structure LaneKept (program : InspectionProgram) (direction : Direction) (limit : Nat) (stream : List UInt8)
    (running blocked : Prop) (lane : RelayLane) : Prop where
  split : stream = lane.taken ++ lane.unread
  released : lane.preflight = .released
  closed : lane.opened = false → lane.unread = []
  passed : running ∨ lane.opened = false →
    lane.written = lane.taken ∧ ¬ program.DenyIn direction (lane.taken.take limit)
  stopped : blocked → lane.opened = true ∧ program.DenyIn direction (lane.taken.take limit) ∧
    lane.written <+: lane.taken ∧ ¬ program.DenyIn direction (lane.written.take limit)

theorem LaneKept.weaken (kept : LaneKept program direction limit stream running blocked lane)
    (runs : still → running) (blocks : now → blocked) :
    LaneKept program direction limit stream still now lane :=
  {kept with
    passed := fun either => kept.passed (either.imp_left runs)
    stopped := fun happened => kept.stopped (blocks happened)}

structure Relayed (snapshot : PolicySnapshot) (limit : Nat) (streams : RelaySide → List UInt8)
    (state : RelayState) : Prop where
  lanes : ∀ side, LaneKept snapshot.inspection side.direction limit (streams side) (state.ended = none)
    (state.blocked = some side) (state.lanes side)
  tracked : state.ended = none → ∃ inspector, state.inspection = some inspector ∧
    Tracked snapshot limit (fun side => (state.lanes side).taken) inspector
  unblocked : state.ended = none → state.blocked = none

theorem Relayed.finish (relayed : Relayed snapshot limit streams state)
    (outcome : Except ProxyError RelayTermination) : Relayed snapshot limit streams (state.finish outcome) where
  lanes := fun side => (relayed.lanes side).weaken nofun id
  tracked := nofun
  unblocked := nofun

theorem Relayed.settle (relayed : Relayed snapshot limit streams state) :
    Relayed snapshot limit streams state.settle := by
  unfold RelayState.settle
  split
  · exact relayed.finish _
  · exact relayed

theorem processChunk_judges (disabled : env.hooks.mode = .disabled)
    (enforced : snapshot.enforcement = .enforce) (tracked : Tracked snapshot limit taken inspector)
    (side : RelaySide) (clean : ¬ snapshot.inspection.DenyIn side.direction ((taken side).take limit))
    (bytes : List UInt8) (state : ServiceState) :
    Ensures (processChunk env (some inspector) side.direction bytes limit) state
      (fun result _ => ∃ next, result.2 = some next ∧
        Tracked snapshot limit (Function.update taken side (taken side ++ bytes)) next ∧
        ((result.1 = .blocked ∧ snapshot.inspection.DenyIn side.direction ((taken side ++ bytes).take limit)) ∨
          (result.1 = .forward bytes ∧
            ¬ snapshot.inspection.DenyIn side.direction ((taken side ++ bytes).take limit))))
      (fun _ _ => True) := by
  refine ensures_then (ensures_weaken (FlowInspector.permits_exact inspector side.direction bytes state)
    (fun _ _ known => known) (fun _ _ _ => trivial)) ?_
  intro answer permitted known
  obtain ⟨verdict,next⟩ := answer
  obtain ⟨judged,advances⟩ := known
  have exact := judged (by rw [tracked.decision]; exact enforced) (by rw [tracked.decision,tracked.fed]; exact clean)
  rw [tracked.window,tracked.decision] at exact
  cases verdict with
  | false => exact ensures_pure ⟨next,rfl,tracked.advances advances,.inl ⟨rfl,exact.mp rfl⟩⟩
  | true =>
      dsimp only
      rw [if_pos rfl]
      refine ensures_then (ensures_weaken (FlowInspector.transformTcpChunk_disabled next disabled
        side.direction bytes limit permitted) (fun _ _ same => same) (fun _ _ no => no.elim)) ?_
      intro output transformed same
      subst same
      refine ensures_pure ⟨next,rfl,tracked.advances advances,.inr ⟨rfl,?_⟩⟩
      intro denied
      cases exact.mpr denied

-- The lane from which some bytes have just been read.
def RelayLane.taking (lane : RelayLane) (input : List UInt8) : RelayLane :=
  {lane with unread := lane.unread.drop input.length,taken := lane.taken ++ input,preflight := .released}

theorem setLane_taken (state : RelayState) (side : RelaySide) (lane : RelayLane) :
    (fun other => ((state.setLane side lane).lanes other).taken) =
      Function.update (fun other => (state.lanes other).taken) side lane.taken := by
  funext other
  by_cases same : other = side
  · subst same
    simp [RelayState.setLane]
  · simp [RelayState.setLane,Function.update_of_ne same]

theorem Relayed.replace (relayed : Relayed snapshot limit streams state) {next : RelayState} (side : RelaySide)
    (lane : RelayLane) (lanes : next.lanes = Function.update state.lanes side lane)
    (runs : next.ended = none → state.ended = none)
    (blocks : ∀ other, other ≠ side → next.blocked = some other → state.blocked = some other)
    (kept : LaneKept snapshot.inspection side.direction limit (streams side) (next.ended = none)
      (next.blocked = some side) lane)
    (tracked : next.ended = none → ∃ inspector, next.inspection = some inspector ∧
      Tracked snapshot limit (fun side => (next.lanes side).taken) inspector)
    (unblocked : next.ended = none → next.blocked = none) : Relayed snapshot limit streams next where
  lanes := by
    intro other
    rw [lanes]
    by_cases same : other = side
    · subst same
      rw [Function.update_self]
      exact kept
    · rw [Function.update_of_ne same]
      exact (relayed.lanes other).weaken runs (blocks other same)
  tracked := tracked
  unblocked := unblocked

theorem LaneKept.interrupted (split : stream = lane.taken ++ lane.unread) (released : lane.preflight = .released)
    (opened : lane.opened = true) (stops : ¬ running) (never : ¬ blocked) :
    LaneKept program direction limit stream running blocked lane where
  split := split
  released := released
  closed := fun shut => (nomatch opened.symm.trans shut)
  passed := fun either => either.elim (fun runs => absurd runs stops) (fun shut => (nomatch opened.symm.trans shut))
  stopped := fun happened => absurd happened never

theorem wrote_all (state : RelayState) (side : RelaySide) (lane : RelayLane) (bytes : List UInt8) :
    (state.setLane side lane).wrote side .written bytes = state.setLane side
      {lane with written := lane.written ++ bytes,count := saturatingAdd lane.count bytes.length} := by
  simp [RelayState.wrote,RelayState.setLane,writeWithControls]

theorem wrote_some (state : RelayState) (side : RelaySide) (lane : RelayLane) (bytes : List UInt8)
    (interrupted : write ≠ .written) :
    ∃ count outcome, outcome ≠ .ok .completed ∧ (state.setLane side lane).wrote side write bytes =
      (state.setLane side {lane with written := lane.written ++ bytes.take count}).finish outcome := by
  cases write with
  | written => exact absurd rfl interrupted
  | idleTimeout count =>
      refine ⟨count,.ok .idleTimeout,nofun,?_⟩
      simp [RelayState.wrote,RelayState.setLane,writeWithControls]
  | shutdown count =>
      refine ⟨count,.ok .shutdown,nofun,?_⟩
      simp [RelayState.wrote,RelayState.setLane,writeWithControls]
  | failed count =>
      refine ⟨count,.error (.relayWrite side.label),nofun,?_⟩
      simp [RelayState.wrote,RelayState.setLane,writeWithControls]

theorem forwardChunk_relays (disabled : env.hooks.mode = .disabled)
    (enforced : snapshot.enforcement = .enforce) {state : RelayState} (relayed : Relayed snapshot limit streams state)
    (running : state.ended = none) (side : RelaySide) (opened : (state.lanes side).opened = true)
    (front : (state.lanes side).unread = input ++ (state.lanes side).unread.drop input.length)
    (write : WriteOutcome) (services : ServiceState) :
    Ensures (forwardChunk env limit (state.setLane side ((state.lanes side).taking input)) side input write)
      services (fun next _ => Relayed snapshot limit streams next) (fun _ _ => False) := by
  have kept := relayed.lanes side
  have unblocked := relayed.unblocked running
  have passed := kept.passed (.inl running)
  obtain ⟨inspector,held,tracked⟩ := relayed.tracked running
  have split : streams side = ((state.lanes side).taking input).taken ++ ((state.lanes side).taking input).unread := by
    simp only [RelayLane.taking]
    rw [List.append_assoc,← front]
    exact kept.split
  unfold forwardChunk
  rw [show (state.setLane side ((state.lanes side).taking input)).inspection = some inspector from held]
  refine ensures_then (ensures_attempt (processChunk_judges env disabled enforced tracked side passed.2 input
    services)) ?_
  intro result after known
  have quiet : ¬ state.blocked = some side := by
    rw [unblocked]
    exact nofun
  cases result with
  | error =>
      refine ensures_pure (relayed.replace side _ rfl nofun (fun _ _ same => same) ?_ nofun nofun)
      exact LaneKept.interrupted split rfl opened nofun quiet
  | ok answer =>
      obtain ⟨process,inspection⟩ := answer
      obtain ⟨next,same,advanced,outcome⟩ := known
      cases same
      rcases outcome with ⟨same,denied⟩ | ⟨same,clean⟩
      · cases same
        refine ensures_pure (relayed.replace side _ rfl nofun ?_ ?_ nofun nofun)
        · intro other different same
          exact absurd (Option.some.inj same).symm different
        · refine ⟨split,rfl,fun shut => (nomatch opened.symm.trans shut),?_,?_⟩
          · exact fun either => either.elim nofun (fun shut => (nomatch opened.symm.trans shut))
          · intro _
            refine ⟨opened,denied,?_,?_⟩
            · exact passed.1 ▸ List.prefix_append _ _
            · exact passed.1 ▸ passed.2
      · cases same
        refine ensures_pure ?_
        by_cases complete : write = .written
        · subst complete
          change Relayed snapshot limit streams (({state with inspection := some next} : RelayState).setLane side
            ((state.lanes side).taking input) |>.wrote side .written input)
          rw [wrote_all]
          refine relayed.replace side _ rfl id (fun _ _ same => same) ?_ ?_ (fun _ => unblocked)
          · refine ⟨split,rfl,fun shut => (nomatch opened.symm.trans shut),?_,fun blocked => absurd blocked quiet⟩
            intro _
            exact ⟨congrArg (· ++ input) passed.1,clean⟩
          · intro _
            refine ⟨next,rfl,?_⟩
            rw [setLane_taken]
            exact advanced
        · change Relayed snapshot limit streams (({state with inspection := some next} : RelayState).setLane side
            ((state.lanes side).taking input) |>.wrote side write input)
          obtain ⟨count,outcome,_,same⟩ := wrote_some {state with inspection := some next} side
            ((state.lanes side).taking input) input complete
          rw [same]
          refine relayed.replace side _ rfl nofun (fun _ _ same => same) ?_ nofun nofun
          exact LaneKept.interrupted split rfl opened nofun quiet

theorem relayRead_relays (disabled : env.hooks.mode = .disabled)
    (enforced : snapshot.enforcement = .enforce) {state : RelayState} (relayed : Relayed snapshot limit streams state)
    (running : state.ended = none) (side : RelaySide) (opened : (state.lanes side).opened = true) (available : Nat)
    (write : WriteOutcome) (closes : Bool) (services : ServiceState) :
    Ensures (relayRead env limit state side available write closes) services
      (fun next _ => Relayed snapshot limit streams next) (fun _ _ => False) := by
  have kept := relayed.lanes side
  refine relayRead_rule env ?_ ?_
  · intro nothing
    have room : 0 < (state.lanes side).preflight.readSize relayReadBufferBytes limit := by
      rw [kept.released]
      exact (by decide : 0 < relayReadBufferBytes)
    have shut : Relayed snapshot limit streams (state.setLane side {state.lanes side with opened := false}) := by
      refine relayed.replace side _ rfl id (fun _ _ same => same) ?_ ?_ relayed.unblocked
      · refine {kept with
          closed := fun _ => RelayLane.input_empty room nothing
          passed := fun _ => kept.passed (.inl running)
          stopped := ?_}
        intro blocked
        exact absurd ((relayed.unblocked running).symm.trans blocked) nofun
      · intro runs
        obtain ⟨inspector,held,tracked⟩ := relayed.tracked runs
        refine ⟨inspector,held,?_⟩
        rw [setLane_taken,Function.update_eq_self]
        exact tracked
    have still : state.setLane side {state.lanes side with preflight := .released} = state := by
      rw [← kept.released]
      unfold RelayState.setLane
      rw [Function.update_eq_self]
    have silent : (state.lanes side).preflight.rest = none := by
      rw [kept.released]
      rfl
    rw [still,silent]
    refine ensures_pure ?_
    rw [running,if_neg (by exact nofun)]
    unfold RelayState.shut
    dsimp only
    split
    · exact shut
    · exact shut.finish _
  · intro _
    have pushed : ∀ input, (state.lanes side).preflight.push input limit = (some input,.released) := by
      rw [kept.released]
      exact fun _ => rfl
    unfold RelayLane.reading
    rw [pushed]
    exact forwardChunk_relays env disabled enforced relayed running side opened
      (RelayLane.input_front limit available _) write services

theorem relayStep_relays (disabled : env.hooks.mode = .disabled) (enforced : snapshot.enforcement = .enforce)
    {state : RelayState} (relayed : Relayed snapshot limit streams state) (event : RelayEvent)
    (services : ServiceState) :
    Ensures (relayStep env limit state event) services
      (fun next _ => Relayed snapshot limit streams next) (fun _ _ => False) := by
  refine relayStep_rule env relayed (fun _ outcome _ => relayed.finish outcome) ?_ ?_
  · intro _ side write bytes _ waiting
    cases (relayed.lanes side).released.symm.trans waiting
  · intro running side available write closes _ opened
    refine ensures_weaken (relayRead_relays env disabled enforced relayed running side opened available write
      closes services) ?_ (fun _ _ no => no)
    exact fun _ _ kept => kept.settle

theorem relay_relays (disabled : env.hooks.mode = .disabled) (enforced : snapshot.enforcement = .enforce)
    {state : RelayState} (relayed : Relayed snapshot limit streams state) (events : List RelayEvent)
    (services : ServiceState) :
    Ensures (relay env limit state events) services
      (fun next _ => Relayed snapshot limit streams next) (fun _ _ => False) :=
  ensures_foldlM (fun _ after event kept => relayStep_relays env disabled enforced kept event after) relayed

theorem start_relayed (flow : Flow) (streaming : snapshot.inspectionMode = .streaming) :
    Relayed snapshot limit streams (.start streams (some (.ofSnapshot snapshot flow .tcp limit))) where
  lanes := by
    intro side
    refine ⟨rfl,?_,nofun,?_,nofun⟩
    · simp [RelayState.start,PreflightBuffer.new,FlowInspector.usesPreflight,FlowInspector.ofSnapshot,streaming]
    · intro _
      refine ⟨rfl,?_⟩
      rw [show (RelayLane.taken _ : List UInt8) = [] from rfl,List.take_nil]
      exact InspectionProgram.not_denyIn_nil _ _
  tracked := by
    intro _
    refine ⟨_,rfl,rfl,streaming,rfl,?_,?_⟩
    · exact fun _ => (Nat.min_zero _).symm
    · exact fun _ => List.take_nil.symm
  unblocked := fun _ => rfl

theorem Relayed.exactly (relayed : Relayed snapshot limit streams state) (side : RelaySide)
    (through : (state.lanes side).opened = false ∨ state.blocked = some side) :
    ExactlyEnforced snapshot.inspection side.direction limit (streams side) (state.blocked = some side)
      (state.lanes side).written := by
  have kept := relayed.lanes side
  by_cases blocked : state.blocked = some side
  · obtain ⟨_,denied,within,clean⟩ := kept.stopped blocked
    refine exactlyEnforced_blocked _ blocked ?_ ?_ clean
    · refine InspectionProgram.denyIn_mono ?_ denied
      rw [kept.split,take_window]
      exact List.prefix_append _ _
    · rw [kept.split]
      exact within.trans (List.prefix_append _ _)
  · have closed := through.resolve_right blocked
    obtain ⟨written,clean⟩ := kept.passed (.inr closed)
    have whole : streams side = (state.lanes side).taken := by
      rw [kept.split,kept.closed closed,List.append_nil]
    rw [← whole] at written clean
    rw [written]
    exact exactlyEnforced_passed _ blocked clean

end Tunnels

-- Streaming enforcement over every chunking: for the bodies of an exchange and for
-- the directions of a tunnel.
theorem streaming_enforcement_exact (reliable : Reliable env) (disabled : env.hooks.mode = .disabled)
    (fixed : ∀ load, (env.live load).enforcement = .enforce ∧
      (env.live load).inspectionMode = .streaming) (state : ServiceState) :
    (∀ (service : HttpService) (exchange : Exchange) (side : BodySide) (body : List Arrival),
      (side = .response → HttpService.responseHasNoContent exchange.parts.method exchange.status = false) →
      ReadToEnd body →
      Ensures (service.deliverBody env exchange side body) state
        (fun prepared _ => ∃ headers sent, prepared = .forwarded headers sent ∧
          ExactlyEnforced (env.live (state.loads + 1)).inspection side.direction
            service.limits.bodyPrefixBytes (body.flatMap Arrival.bytes) (BodyBlocked sent) (sent.flatMap Sent.bytes))
        (fun _ _ => False)) ∧
    (∀ (flow : Flow) (limit : Nat) (streams : RelaySide → List UInt8) (events : List RelayEvent),
      Ensures (runTunnel env flow limit streams events) state
        (fun relayed _ => ∀ side, (relayed.lanes side).opened = false ∨ relayed.blocked = some side →
          ExactlyEnforced (env.live state.loads).inspection side.direction limit (streams side)
            (relayed.blocked = some side) (relayed.lanes side).written)
        (fun _ _ => False)) := by
  constructor
  · intro service exchange side body content read
    exact deliverBody_enforces env service exchange side body state reliable disabled fixed content read
  · intro flow limit streams events
    have start : Ensures (FlowInspector.new env flow .tcp limit) state
        (fun inspection _ => inspection = .ofSnapshot (env.live state.loads) flow .tcp limit)
        (fun _ _ => False) := ensures_ok rfl rfl
    refine ensures_then start ?_
    intro inspection loaded same
    subst same
    refine ensures_weaken (relay_relays env disabled (fixed _).1 (start_relayed flow (fixed _).2) events loaded)
      ?_ (fun _ _ no => no)
    intro next after relayed side through
    exact relayed.exactly side through

def streamingEnvironment : Environment :=
  {reloadedEnvironment 0 with live := fun _ => reloadedSnapshot .streaming}

def tunnelStreams : RelaySide → List UInt8
  | .client => ascii "aba"
  | .upstream => ascii "ok"

def tunnelEvents : List RelayEvent :=
  [.read .client 1 .written true,.read .upstream 4 .written true,.read .client 4 .written true,
   .read .upstream 0 .written true,.read .client 0 .written true]

def cutSent : List Sent :=
  [⟨.ok (.data (ascii "ab")),ascii "ab",ascii "ab"⟩,⟨.error .inspectionBlocked,ascii "aba",ascii "ab"⟩]

-- The pattern cut over two frames is blocked with its first part forwarded; a tunnel
-- to which no pattern applies is passed whole.
theorem streaming_enforcement_exact_cut :
    (∃ after, (smallService.deliverBody streamingEnvironment plainExchange .request cutBody).run idleState =
        .ok (.forwarded .empty cutSent) after) ∧
      BodyBlocked cutSent ∧
      ExactlyEnforced StreamScanner.abaProgram .httpRequestBody 64 (cutBody.flatMap Arrival.bytes)
        (BodyBlocked cutSent) (cutSent.flatMap Sent.bytes) ∧
      ∃ relayed after, (runTunnel streamingEnvironment ⟨⟨1⟩,none⟩ 64 tunnelStreams tunnelEvents).run idleState =
        .ok relayed after ∧ (relayed.lanes .client).opened = false ∧
        ExactlyEnforced StreamScanner.abaProgram .clientToUpstream 64 (tunnelStreams .client)
          (relayed.blocked = some .client) (relayed.lanes .client).written := by
  obtain ⟨bodies,tunnels⟩ := streaming_enforcement_exact streamingEnvironment (.inr (fun _ => nofun)) rfl
    (fun _ => ⟨rfl,rfl⟩) idleState
  have answered : answerOf ((smallService.deliverBody streamingEnvironment plainExchange .request cutBody).run
      idleState) = some (.forwarded .empty cutSent) := by decide +kernel
  obtain ⟨after,done⟩ := answerOf_ok answered
  have read : ReadToEnd cutBody := by simp [ReadToEnd,cutBody]
  obtain ⟨headers,sent,same,exactly⟩ := ensures_answer (bodies smallService plainExchange .request cutBody nofun read) done
  have forwarded : cutSent = sent := (Prepared.forwarded.inj same).2
  subst forwarded
  have blocked : ⟨.error .inspectionBlocked,ascii "aba",ascii "ab"⟩ ∈ cutSent := by decide
  refine ⟨⟨after,done⟩,⟨_,blocked,rfl⟩,exactly,?_⟩
  have shut : (answerOf ((runTunnel streamingEnvironment ⟨⟨1⟩,none⟩ 64 tunnelStreams tunnelEvents).run idleState)).map
      (fun relayed => (relayed.lanes .client).opened) = some false := by decide +kernel
  obtain ⟨relayed,final,ran,closed⟩ := answerOf_map shut
  have passed := ensures_answer (tunnels ⟨⟨1⟩,none⟩ 64 tunnelStreams tunnelEvents) ran
  exact ⟨relayed,final,ran,closed,passed .client (.inl closed)⟩

end Freja.Proxy
