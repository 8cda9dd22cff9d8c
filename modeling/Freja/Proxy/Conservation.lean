import Freja.Proxy.Enforcement

namespace Freja.Policy

-- A plan that leaves a chunk as it is.
def ChunkMutationPlan.Leaves (bytes : List UInt8) (plan : ChunkMutationPlan) : Prop :=
  plan = .keep ∨ plan = .replace bytes

def HookRunner.LeavesChunks (runner : HookRunner) : Prop :=
  ∀ bytes calls plan,
    (runner.tcpClientChunk bytes calls).1 = .ok plan ∨ (runner.tcpUpstreamChunk bytes calls).1 = .ok plan →
      plan.Leaves bytes

end Freja.Policy

namespace Freja.Proxy
open Domain Policy Audit Effect Bytes

variable (env : Environment) {limit : Nat} {streams : RelaySide → List UInt8}

-- One direction of a relay: what was read and not yet written is held back, and
-- less of it than the preflight may hold, so that there is room for the next read.
structure LaneConserves (limit : Nat) (stream : List UInt8) (running : Prop) (lane : RelayLane) : Prop where
  split : stream = lane.taken ++ lane.unread
  written : lane.written <+: lane.taken
  closed : lane.opened = false → lane.unread = [] ∧ lane.written = lane.taken ∧ lane.preflight = .released
  held : running → lane.taken = lane.written ++ lane.preflight.release
  room : running → ∀ bytes armed, lane.preflight = .pending bytes armed → bytes.length < limit
  counted : running ∨ lane.opened = false → lane.count = min lane.written.length u64Max

-- A direction with a chunk in hand.
structure LaneLoaded (stream : List UInt8) (bytes : List UInt8) (lane : RelayLane) : Prop where
  split : stream = lane.taken ++ lane.unread
  opened : lane.opened = true
  released : lane.preflight = .released
  chunk : lane.taken = lane.written ++ bytes
  counted : lane.count = min lane.written.length u64Max

theorem LaneConserves.weaken (conserves : LaneConserves limit stream running lane) (runs : still → running) :
    LaneConserves limit stream still lane :=
  {conserves with
    held := fun now => conserves.held (runs now)
    room := fun now => conserves.room (runs now)
    counted := fun either => conserves.counted (either.imp_left runs)}

theorem LaneConserves.readSize_positive (conserves : LaneConserves limit stream running lane) (runs : running) :
    0 < lane.preflight.readSize relayReadBufferBytes limit := by
  have buffer : 0 < relayReadBufferBytes := by decide
  cases waiting : lane.preflight with
  | released => exact buffer
  | pending bytes armed =>
      have room := conserves.room runs bytes armed waiting
      unfold PreflightBuffer.readSize
      dsimp only
      omega

theorem LaneLoaded.forwarded (loaded : LaneLoaded stream bytes lane) :
    LaneConserves limit stream running
      {lane with written := lane.written ++ bytes,count := saturatingAdd lane.count bytes.length} where
  split := loaded.split
  written := ⟨[],(List.append_nil _).trans loaded.chunk.symm⟩
  closed := fun shut => (nomatch loaded.opened.symm.trans shut)
  held := by
    intro _
    dsimp only
    rw [loaded.released,loaded.chunk]
    exact (List.append_nil _).symm
  room := by
    intro _ held armed waiting
    cases loaded.released.symm.trans waiting
  counted := by
    intro _
    dsimp only
    rw [loaded.counted,List.length_append]
    unfold saturatingAdd
    omega

theorem LaneLoaded.interrupted (loaded : LaneLoaded stream bytes lane) (stops : ¬ running) (count : Nat) :
    LaneConserves limit stream running {lane with written := lane.written ++ bytes.take count} where
  split := loaded.split
  written := by
    rw [loaded.chunk]
    exact (List.prefix_append_right_inj _).mpr (List.take_prefix _ _)
  closed := fun shut => (nomatch loaded.opened.symm.trans shut)
  held := fun runs => absurd runs stops
  room := fun runs => absurd runs stops
  counted := by
    intro either
    rcases either with runs | shut
    · exact absurd runs stops
    · cases loaded.opened.symm.trans shut

structure Conserves (limit : Nat) (streams : RelaySide → List UInt8) (state : RelayState) : Prop where
  lanes : ∀ side, LaneConserves limit (streams side) (state.ended = none) (state.lanes side)
  completed : state.ended = some (.ok .completed) → ∀ side, (state.lanes side).opened = false

theorem Conserves.replace (conserves : Conserves limit streams state) {next : RelayState} {side : RelaySide}
    (lane : RelayLane) (lanes : next.lanes = Function.update state.lanes side lane)
    (runs : next.ended = none → state.ended = none) (unfinished : next.ended ≠ some (.ok .completed))
    (kept : LaneConserves limit (streams side) (next.ended = none) lane) : Conserves limit streams next where
  lanes := by
    intro other
    rw [lanes]
    by_cases same : other = side
    · subst same
      rw [Function.update_self]
      exact kept
    · rw [Function.update_of_ne same]
      exact (conserves.lanes other).weaken runs
  completed := fun ended => absurd ended unfinished

theorem Conserves.finish (conserves : Conserves limit streams state) {outcome : Except ProxyError RelayTermination}
    (unfinished : outcome ≠ .ok .completed) : Conserves limit streams (state.finish outcome) where
  lanes := fun side => (conserves.lanes side).weaken nofun
  completed := fun ended => absurd (Option.some.inj ended) unfinished

theorem Conserves.settle (conserves : Conserves limit streams state) : Conserves limit streams state.settle := by
  unfold RelayState.settle
  split
  · rename_i both
    simp only [Bool.and_eq_true,Bool.not_eq_true'] at both
    refine ⟨fun side => (conserves.lanes side).weaken nofun,?_⟩
    intro _ side
    cases side with
    | client => exact both.1.2
    | upstream => exact both.2
  · exact conserves

theorem runTcpHook_leaves (leaves : env.hooks.LeavesChunks) (context : AuditContext) (direction : Direction)
    (bytes : List UInt8) (services : ServiceState) :
    Ensures (FlowInspector.runTcpHook env context direction bytes) services
      (fun plan _ => plan.Leaves bytes) (fun _ _ => True) := by
  have applied : ∀ stage (run : Nat → Except HookRunError ChunkMutationPlan × Nat),
      (∀ calls plan, (run calls).1 = .ok plan → plan.Leaves bytes) →
      Ensures (FlowInspector.applyChunkHook env context stage run) services
        (fun plan _ => plan.Leaves bytes) (fun _ _ => True) := by
    intro stage run answers
    have ran : Ensures (FlowInspector.runHook run) services (fun result _ => result = (run services.hookCalls).1)
        (fun _ _ => True) := ensures_ok rfl rfl
    refine ensures_then ran ?_
    intro result called same
    refine ensures_then (ensures_any _ called) ?_
    intro _ published _
    cases result with
    | error => exact ensures_throw trivial
    | ok plan => exact ensures_pure (answers _ plan same.symm)
  unfold FlowInspector.runTcpHook
  split
  · exact ensures_pure (.inl rfl)
  · cases direction with
    | clientToUpstream => exact applied _ _ (fun calls plan answered => leaves bytes calls plan (.inl answered))
    | upstreamToClient => exact applied _ _ (fun calls plan answered => leaves bytes calls plan (.inr answered))
    | httpRequestBody | httpResponseBody => exact ensures_pure (.inl rfl)

theorem transformTcpChunk_leaves (leaves : env.hooks.LeavesChunks) (inspector : FlowInspector)
    (direction : Direction) (bytes : List UInt8) (maximum : Nat) (services : ServiceState) :
    Ensures (inspector.transformTcpChunk env direction bytes maximum) services
      (fun output _ => output = some bytes) (fun _ _ => True) := by
  refine ensures_then (ensures_any _ services) ?_
  intro context started _
  refine ensures_then (runTcpHook_leaves env leaves context direction bytes started) ?_
  intro plan hooked kept
  rcases kept with same | same
  · subst same
    exact ensures_pure rfl
  · subst same
    dsimp only
    split
    · exact ensures_throw trivial
    · exact ensures_pure rfl

theorem processChunk_leaves (leaves : env.hooks.LeavesChunks) (inspection : Option FlowInspector)
    (direction : Direction) (bytes : List UInt8) (maximum : Nat) (services : ServiceState) :
    Ensures (processChunk env inspection direction bytes maximum) services
      (fun result _ => result.1 = .blocked ∨ result.1 = .forward bytes) (fun _ _ => True) := by
  cases inspection with
  | none => exact ensures_pure (.inr rfl)
  | some inspector =>
      refine ensures_then (ensures_any _ services) ?_
      intro answer permitted _
      obtain ⟨verdict,next⟩ := answer
      cases verdict with
      | false => exact ensures_pure (.inl rfl)
      | true =>
          dsimp only
          rw [if_pos rfl]
          refine ensures_then (transformTcpChunk_leaves env leaves next direction bytes maximum permitted) ?_
          intro output transformed same
          subst same
          exact ensures_pure (.inr rfl)

-- Forwarding moves bytes of one direction on and changes nothing else of it.
def Moved (lane after : RelayLane) : Prop := ∃ written count, after = {lane with written := written,count := count}

theorem forwardChunk_conserves (leaves : env.hooks.LeavesChunks) {state : RelayState}
    (conserves : Conserves limit streams state) (side : RelaySide) (lane : RelayLane)
    (loaded : LaneLoaded (streams side) bytes lane) (runs : state.ended = none) (write : WriteOutcome)
    (services : ServiceState) :
    Ensures (forwardChunk env limit (state.setLane side lane) side bytes write) services
      (fun next _ => Conserves limit streams next ∧ Moved lane (next.lanes side)) (fun _ _ => False) := by
  have running : state.ended ≠ some (.ok .completed) := by
    rw [runs]
    exact nofun
  have untouched : ∀ next : RelayState, next.lanes = Function.update state.lanes side lane → next.ended ≠ none →
      next.ended ≠ some (.ok .completed) → Conserves limit streams next ∧ Moved lane (next.lanes side) := by
    intro next lanes ended unfinished
    have kept : LaneConserves limit (streams side) (next.ended = none) _ := loaded.interrupted ended 0
    rw [List.take_zero,List.append_nil] at kept
    refine ⟨conserves.replace lane lanes (fun now => absurd now ended) unfinished kept,lane.written,lane.count,?_⟩
    rw [lanes,Function.update_self]
  unfold forwardChunk
  refine ensures_then (ensures_attempt (processChunk_leaves env leaves _ _ bytes limit services)) ?_
  intro result processed known
  cases result with
  | error => exact ensures_pure (untouched _ rfl nofun nofun)
  | ok answer =>
      obtain ⟨process,inspection⟩ := answer
      rcases known with same | same
      · cases same
        exact ensures_pure (untouched _ rfl nofun nofun)
      · cases same
        refine ensures_pure ?_
        change Conserves limit streams (({state with inspection := inspection} : RelayState).setLane side lane
            |>.wrote side write bytes) ∧
          Moved lane ((({state with inspection := inspection} : RelayState).setLane side lane
            |>.wrote side write bytes).lanes side)
        by_cases complete : write = .written
        · subst complete
          rw [wrote_all]
          exact ⟨conserves.replace _ rfl (fun _ => runs) running loaded.forwarded,_,_,Function.update_self _ _ _⟩
        · obtain ⟨count,outcome,unfinished,same⟩ := wrote_some {state with inspection := inspection} side lane bytes
            complete
          rw [same]
          exact ⟨conserves.replace _ rfl nofun (mt Option.some.inj unfinished) (loaded.interrupted nofun count),_,_,
            Function.update_self _ _ _⟩

theorem shut_conserves {state : RelayState} (conserves : Conserves limit streams state) (runs : state.ended = none)
    (side : RelaySide) (done : (state.lanes side).unread = []) (released : (state.lanes side).preflight = .released)
    (closes : Bool) : Conserves limit streams (state.shut side closes) := by
  have lane := conserves.lanes side
  have all : (state.lanes side).written = (state.lanes side).taken := by
    rw [lane.held runs,released]
    exact (List.append_nil _).symm
  have shut : Conserves limit streams (state.setLane side {state.lanes side with opened := false}) :=
    conserves.replace _ rfl id (by change state.ended ≠ _; rw [runs]; exact nofun)
      {lane with closed := fun _ => ⟨done,all,released⟩,counted := fun _ => lane.counted (.inl runs)}
  unfold RelayState.shut
  dsimp only
  split
  · exact shut
  · exact shut.finish nofun

theorem push_conserves (conserves : LaneConserves limit stream running lane) (runs : running)
    (opened : lane.opened = true) (front : lane.unread = input ++ lane.unread.drop input.length) :
    let pushed := lane.preflight.push input limit
    let next := {lane with
      unread := lane.unread.drop input.length,taken := lane.taken ++ input,preflight := pushed.2}
    (pushed.1 = none → LaneConserves limit stream running next) ∧
      ∀ chunk, pushed.1 = some chunk → LaneLoaded stream chunk next := by
  have held := conserves.held runs
  have counted := conserves.counted (.inl runs)
  have split : stream = lane.taken ++ input ++ lane.unread.drop input.length := by
    rw [List.append_assoc,← front]
    exact conserves.split
  unfold PreflightBuffer.push
  cases waiting : lane.preflight with
  | released =>
      refine ⟨(fun never => by cases never),?_⟩
      intro chunk same
      cases same
      refine ⟨split,opened,rfl,?_,counted⟩
      rw [waiting] at held
      dsimp only
      rw [held]
      simp [PreflightBuffer.release]
  | pending bytes =>
      have all : lane.taken ++ input = lane.written ++ (bytes ++ input) := by
        rw [held,waiting,List.append_assoc]
        rfl
      by_cases short : (bytes ++ input).length < limit
      · simp only [if_pos short]
        refine ⟨?_,fun _ never => by cases never⟩
        intro _
        refine ⟨split,?_,fun shut => Bool.noConfusion (opened.symm.trans shut),fun _ => all,?_,fun _ => counted⟩
        · exact conserves.written.trans (List.prefix_append _ _)
        · intro _ _ _ same
          cases same
          exact short
      · simp only [if_neg short]
        refine ⟨(fun never => by cases never),?_⟩
        intro chunk same
        cases same
        exact ⟨split,opened,rfl,all,counted⟩

theorem relayRead_conserves (leaves : env.hooks.LeavesChunks) {state : RelayState}
    (conserves : Conserves limit streams state) (runs : state.ended = none) (side : RelaySide)
    (opened : (state.lanes side).opened = true) (available : Nat) (write : WriteOutcome) (closes : Bool)
    (services : ServiceState) :
    Ensures (relayRead env limit state side available write closes) services
      (fun next _ => Conserves limit streams next) (fun _ _ => False) := by
  have lane := conserves.lanes side
  have unended : ¬ state.ended.isSome = true := by
    rw [runs]
    exact nofun
  have unfinished : state.ended ≠ some (.ok .completed) := by
    rw [runs]
    exact nofun
  refine relayRead_rule env ?_ ?_
  · intro nothing
    have ended := RelayLane.input_empty (lane.readSize_positive runs) nothing
    have loaded : LaneLoaded (streams side) (state.lanes side).preflight.release
        {state.lanes side with preflight := .released} :=
      ⟨lane.split,opened,rfl,lane.held runs,lane.counted (.inl runs)⟩
    -- What was held back goes out first.
    unfold PreflightBuffer.rest
    split
    · rename_i empty
      have all := lane.held runs
      rw [List.isEmpty_iff.mp empty] at all
      have flushed : Conserves limit streams (state.setLane side {state.lanes side with preflight := .released}) :=
        conserves.replace _ rfl id unfinished
          {lane with
            closed := fun shut => (nomatch opened.symm.trans shut)
            held := fun _ => all
            room := fun _ _ _ same => (nomatch same)}
      refine ensures_pure ?_
      change Conserves limit streams (if state.ended.isSome then _ else _)
      rw [if_neg unended]
      refine shut_conserves flushed runs side ?_ ?_ closes
      · simpa [RelayState.setLane] using ended
      · simp [RelayState.setLane]
    · refine ensures_weaken (forwardChunk_conserves env leaves conserves side _ loaded runs write services) ?_
        (fun _ _ no => no)
      intro next flushed known
      obtain ⟨kept,written,count,moved⟩ := known
      split
      · exact kept
      · rename_i running
        refine shut_conserves kept (Option.not_isSome_iff_eq_none.mp running) side ?_ ?_ closes
        · rw [moved]
          exact ended
        · rw [moved]
  · intro something
    obtain ⟨waits,passes⟩ := push_conserves lane runs opened (RelayLane.input_front limit available _)
    unfold handOn
    split
    · rename_i same
      exact ensures_pure (conserves.replace _ rfl id unfinished (waits same))
    · rename_i chunk same
      refine ensures_weaken (forwardChunk_conserves env leaves conserves side _ (passes chunk same) runs write
        services) ?_ (fun _ _ no => no)
      exact fun _ _ known => known.1

theorem relayStep_conserves (leaves : env.hooks.LeavesChunks) {state : RelayState}
    (conserves : Conserves limit streams state) (event : RelayEvent) (services : ServiceState) :
    Ensures (relayStep env limit state event) services
      (fun next _ => Conserves limit streams next) (fun _ _ => False) := by
  refine relayStep_rule env conserves (fun _ _ unfinished => conserves.finish unfinished) ?_ ?_
  · intro runs side write bytes _ waiting
    have lane := conserves.lanes side
    have held := lane.held runs
    rw [waiting] at held
    have opened : (state.lanes side).opened = true := by
      by_contra shut
      cases waiting.symm.trans (lane.closed (Bool.eq_false_iff.mpr shut)).2.2
    have loaded : LaneLoaded (streams side) bytes {state.lanes side with preflight := .released} :=
      ⟨lane.split,opened,rfl,held,lane.counted (.inl runs)⟩
    refine ensures_weaken (forwardChunk_conserves env leaves conserves side _ loaded runs write services)
      ?_ (fun _ _ no => no)
    exact fun _ _ known => known.1
  · intro runs side available write closes _ opened
    refine ensures_weaken (relayRead_conserves env leaves conserves runs side opened available write closes
      services) ?_ (fun _ _ no => no)
    exact fun _ _ kept => kept.settle

theorem relay_conserving (leaves : env.hooks.LeavesChunks) {state : RelayState}
    (conserves : Conserves limit streams state) (events : List RelayEvent) (services : ServiceState) :
    Ensures (relay env limit state events) services
      (fun next _ => Conserves limit streams next) (fun _ _ => False) :=
  ensures_foldlM (fun _ after event kept => relayStep_conserves env leaves kept event after) conserves

theorem start_conserves (inspection : Option FlowInspector)
    (sized : inspection.any FlowInspector.usesPreflight = true → 0 < limit) :
    Conserves limit streams (.start streams inspection) := by
  refine ⟨?_,nofun⟩
  intro side
  refine ⟨rfl,List.nil_prefix,nofun,?_,?_,fun _ => rfl⟩
  · intro _
    unfold RelayState.start PreflightBuffer.new
    split <;> rfl
  · intro _ bytes armed waiting
    unfold RelayState.start PreflightBuffer.new at waiting
    dsimp only at waiting
    split at waiting
    · rename_i held
      cases waiting
      exact sized held
    · cases waiting

-- What a relay writes is what it reads, as long as hooks leave the chunks alone: a
-- read has always room for some byte, so that only the end of a stream closes a direction.
theorem relay_conserves_bytes (leaves : env.hooks.LeavesChunks) (inspection : Option FlowInspector)
    (sized : inspection.any FlowInspector.usesPreflight = true → 0 < limit) (events : List RelayEvent)
    (services : ServiceState) :
    Ensures (relay env limit (.start streams inspection) events) services
      (fun state _ =>
        (∀ side, (state.lanes side).written <+: (state.lanes side).taken ∧
          streams side = (state.lanes side).taken ++ (state.lanes side).unread ∧
          (state.ended = none → 0 < (state.lanes side).preflight.readSize relayReadBufferBytes limit) ∧
          ((state.lanes side).opened = false → (state.lanes side).taken = streams side)) ∧
        (state.ended = some (.ok .completed) → ∀ side, (state.lanes side).written = (state.lanes side).taken ∧
          (state.lanes side).taken = streams side ∧
          (state.lanes side).count = min (state.lanes side).written.length u64Max))
      (fun _ _ => False) := by
  refine ensures_weaken (relay_conserving env leaves (start_conserves inspection sized) events services) ?_
    (fun _ _ no => no)
  intro state _ conserves
  have whole : ∀ side, (state.lanes side).opened = false → (state.lanes side).taken = streams side := by
    intro side shut
    have lane := conserves.lanes side
    rw [lane.split,(lane.closed shut).1,List.append_nil]
  refine ⟨?_,?_⟩
  · intro side
    have lane := conserves.lanes side
    exact ⟨lane.written,lane.split,lane.readSize_positive,whole side⟩
  · intro completed side
    have lane := conserves.lanes side
    have shut := conserves.completed completed side
    exact ⟨(lane.closed shut).2.1,whole side shut,lane.counted (.inr shut)⟩

def preflightTunnel : Option FlowInspector := some (.ofSnapshot (reloadedSnapshot .preflight) ⟨⟨1⟩,none⟩ .tcp 4)

def oneWayStreams : RelaySide → List UInt8
  | .client => ascii "abcdef"
  | .upstream => []

def oneWayEvents : List RelayEvent :=
  [.read .client 2 .written true,.read .client 9 .written true,.read .upstream 0 .written true,
    .read .client 1 .written true,.read .client 0 .written true]

theorem oneWay_conserves_bytes :
    streamingEnvironment.hooks.LeavesChunks ∧ preflightTunnel.any FlowInspector.usesPreflight = true ∧
      ∃ state after, (relay streamingEnvironment 4 (.start oneWayStreams preflightTunnel) oneWayEvents).run idleState =
        .ok state after ∧ state.ended = some (.ok .completed) ∧
        (state.lanes .client).written = (state.lanes .client).taken ∧ (state.lanes .client).taken = ascii "abcdef" := by
  have leaves : streamingEnvironment.hooks.LeavesChunks := by
    intro bytes calls plan answered
    rcases answered with same | same
    · cases same
      exact .inl rfl
    · cases same
      exact .inl rfl
  have conserves := @relay_conserves_bytes streamingEnvironment 4 oneWayStreams leaves preflightTunnel
    (fun _ => by decide) oneWayEvents idleState
  have ran : (answerOf ((relay streamingEnvironment 4 (.start oneWayStreams preflightTunnel) oneWayEvents).run
      idleState)).map (fun state => decide (state.ended = some (.ok .completed))) = some true := by decide +kernel
  obtain ⟨state,after,done,ended⟩ := answerOf_map ran
  have completed := of_decide_eq_true ended
  have passed := (ensures_answer conserves done).2 completed .client
  exact ⟨leaves,rfl,state,after,done,completed,passed.1,passed.2.1⟩

end Freja.Proxy
