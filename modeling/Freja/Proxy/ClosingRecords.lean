import Freja.Proxy.Enforcement
import Freja.Socks.Protocol

namespace Freja.Proxy
open Domain Policy Audit Effect Bytes IpAddress

structure RelayStats where
  clientToUpstreamBytes : Nat
  upstreamToClientBytes : Nat
  deriving DecidableEq, Repr

def RelayStats.zero : RelayStats := ⟨0,0⟩

structure RelayResult where
  stats : RelayStats
  termination : RelayTermination
  deriving DecidableEq, Repr

def RelayState.stats (state : RelayState) : RelayStats := ⟨(state.lanes .client).count,(state.lanes .upstream).count⟩

-- What a relay that has ended returns; an error takes no counts along.
def RelayState.result (state : RelayState) : Option (Except ProxyError RelayResult) :=
  state.ended.map (fun outcome => outcome.map (fun termination => ⟨state.stats,termination⟩))

def relayOutcome : RelayTermination → FlowOutcome
  | .completed => .completed
  | .idleTimeout => .idleTimeout
  | .shutdown => .shutdown
  | .inspectionBlocked => .inspectionBlocked

def tunnelErrorOutcome : ProxyError → FlowOutcome
  | .relayRead _ => .relayFailure
  | .relayWrite _ => .relayFailure
  | .shutdown => .shutdown
  | _ => .tunnelFailure

def errorOutcome : ProxyError → FlowOutcome
  | .policyDenied _ => .policyDenied
  | .detourLoop _ => .detourLoop
  | .dns _ => .dnsFailure
  | .noResolvedAddresses _ => .dnsFailure
  | .dnsTimedOut _ => .dnsTimeout
  | .shutdown => .shutdown
  | _ => .runtimeFailure

def sessionErrorOutcome : Socks.SessionError → FlowOutcome
  | .socks .authenticationFailed => .authenticationFailed
  | .socks _ => .socksProtocolError
  | .denied error => errorOutcome error
  | .unconnected .timedOut => .connectTimeout
  | .unconnected .failed => .connectFailure
  | .unconnected .unresolved => .dnsFailure
  | .unconnected .shutdown => .shutdown

def closing (failed : ProxyError → FlowOutcome) : Except ProxyError RelayResult → RelayStats × FlowOutcome
  | .ok relay => (relay.stats,relayOutcome relay.termination)
  | .error error => (.zero,failed error)

variable (env : Environment)

-- A relay and its closing record, of which tunnels and sessions have one each; a
-- relay that has not ended yet has none.
def relayAndClose (failed : ProxyError → FlowOutcome) (record : Nat → Nat → FlowOutcome → AuditEvent) (flow : Flow)
    (limit : Nat) (streams : RelaySide → List UInt8) (events : List RelayEvent) :
    Task (Option (Except ProxyError RelayResult)) := do
  let state ← runTunnel env flow limit streams events
  match state.result with
  | none => return none
  | some result =>
      let closed := closing failed result
      publishEvent env flow (record closed.1.clientToUpstreamBytes closed.1.upstreamToClientBytes closed.2)
      return some result

-- A connection that is not upgraded leaves no closing record.
def serveTunnel (upgraded : Except ProxyError Unit) (flow : Flow) (limit : Nat) (streams : RelaySide → List UInt8)
    (events : List RelayEvent) : Task (Option (Except ProxyError RelayResult)) := do
  MonadExcept.ofExcept upgraded
  relayAndClose env tunnelErrorOutcome .tunnelClosed flow limit streams events

def sessionStreams (client upstream : List UInt8) : RelaySide → List UInt8
  | .client => client
  | .upstream => upstream

-- A session's configuration, and what becomes of its target.
structure SessionContext where
  sha256 : List UInt8 → Digest
  parseIp : String → Option IpAddr
  authentication : Option Digest
  peer : IpAddr
  peerText : String
  listenerText : String
  authorizeAndResolve : RequestedTargetFacts → Except ProxyError (List SocketAddr)
  connectAny : List SocketAddr → Except Socks.ConnectError (Option (IpAddr × Nat))

def SessionContext.handshake (context : SessionContext) (stream : List UInt8) :
    EStateM.Result Socks.SessionError Socks.Session (List UInt8) :=
  (Socks.runSocksSession context.sha256 context.parseIp context.authentication context.peer
    context.authorizeAndResolve context.connectAny).run (.start stream)

def serveSession (context : SessionContext) (sessionId : SessionId) (limit : Nat) (stream upstream : List UInt8)
    (events : List RelayEvent) : Task (Option (Except ProxyError RelayResult)) := do
  publishEvent env ⟨sessionId,none⟩ (.connectionAccepted context.peerText context.listenerText)
  match context.handshake stream with
  | .error error _ => do
      publishEvent env ⟨sessionId,none⟩
        (.flowClosed RelayStats.zero.clientToUpstreamBytes RelayStats.zero.upstreamToClientBytes
          (sessionErrorOutcome error))
      return none
  | .ok input _ =>
      relayAndClose env errorOutcome .flowClosed ⟨sessionId,none⟩ limit (sessionStreams input upstream) events

-- A relay together with the bytes of the chunks whose write has completed, which
-- the relay does not keep itself.
structure Ledger where
  state : RelayState
  completed : RelaySide → List UInt8

def RelayEvent.completes : RelayEvent → Bool
  | .preflightElapsed _ write => write == .written
  | .read _ _ write _ => write == .written
  | _ => false

def Ledger.enter (ledger : Ledger) (event : RelayEvent) (next : RelayState) : Ledger where
  state := next
  completed := fun side =>
    if event.completes then
      ledger.completed side ++ (next.lanes side).written.drop (ledger.state.lanes side).written.length
    else ledger.completed side

def ledgerStep (limit : Nat) (ledger : Ledger) (event : RelayEvent) : Task Ledger := do
  let next ← relayStep env limit ledger.state event
  return ledger.enter event next

def relayLedger (limit : Nat) (ledger : Ledger) (events : List RelayEvent) : Task Ledger :=
  events.foldlM (ledgerStep env limit) ledger

def openLedger (flow : Flow) (limit : Nat) (streams : RelaySide → List UInt8) (events : List RelayEvent) :
    Task Ledger := do
  let inspection ← FlowInspector.new env flow .tcp limit
  relayLedger env limit ⟨.start streams (some inspection),fun _ => []⟩ events

-- What one step does to a direction: a completed write is counted, an interrupted
-- one is not.
def Grows (completes : Bool) (lane after : RelayLane) : Prop :=
  ∃ bytes, after.written = lane.written ++ bytes ∧
    (completes = true ∧ after.count = saturatingAdd lane.count bytes.length ∨
      after.count = lane.count ∧ (completes = true → bytes = []))

theorem Grows.still (written : after.written = lane.written) (count : after.count = lane.count) :
    Grows completes lane after := ⟨[],by rw [written,List.append_nil],.inr ⟨count,fun _ => rfl⟩⟩

theorem Grows.from (grows : Grows completes middle after) (written : middle.written = lane.written)
    (count : middle.count = lane.count) : Grows completes lane after := by
  obtain ⟨bytes,appended,counted⟩ := grows
  rw [written] at appended
  rw [count] at counted
  exact ⟨bytes,appended,counted⟩

theorem Grows.then (grows : Grows completes lane middle) (written : after.written = middle.written)
    (count : after.count = middle.count) : Grows completes lane after := by
  obtain ⟨bytes,appended,counted⟩ := grows
  rw [← written] at appended
  rw [← count] at counted
  exact ⟨bytes,appended,counted⟩

variable (limit : Nat) (state : RelayState) (flow : Flow) (side : RelaySide) (write : WriteOutcome)

theorem setLane_lane (other : RelaySide) (lane : RelayLane) :
    (state.setLane side lane).lanes other = if other = side then lane else state.lanes other := by
  by_cases same : other = side
  · subst same
    simp [RelayState.setLane]
  · simp [RelayState.setLane,same]

theorem setLane_still (lane : RelayLane) (written : lane.written = (state.lanes side).written)
    (count : lane.count = (state.lanes side).count) (other : RelaySide) :
    ((state.setLane side lane).lanes other).written = (state.lanes other).written ∧
      ((state.setLane side lane).lanes other).count = (state.lanes other).count := by
  rw [setLane_lane]
  by_cases same : other = side
  · subst same
    rw [if_pos rfl]
    exact ⟨written,count⟩
  · rw [if_neg same]
    exact ⟨rfl,rfl⟩

theorem wrote_grows (bytes : List UInt8) (other : RelaySide) :
    Grows (write == .written) (state.lanes other) ((state.wrote side write bytes).lanes other) := by
  have same : state.setLane side (state.lanes side) = state := by
    simp [RelayState.setLane]
  by_cases completed : write = .written
  · subst completed
    have wrote := wrote_all state side (state.lanes side) bytes
    rw [same] at wrote
    rw [wrote,setLane_lane]
    split
    · rename_i here
      subst here
      exact ⟨bytes,rfl,.inl ⟨rfl,rfl⟩⟩
    · exact .still rfl rfl
  · obtain ⟨count,outcome,_,wrote⟩ := wrote_some state side (state.lanes side) bytes completed
    rw [same] at wrote
    rw [wrote]
    change Grows _ _ ((state.setLane side _).lanes other)
    rw [setLane_lane]
    split
    · rename_i here
      subst here
      refine ⟨bytes.take count,rfl,.inr ⟨rfl,?_⟩⟩
      intro complete
      exact absurd (beq_iff_eq.mp complete) completed
    · exact .still rfl rfl

variable {env}

theorem forwardChunk_grows (bytes : List UInt8) (write : WriteOutcome) (services : ServiceState) :
    Ensures (forwardChunk env limit state side bytes write) services
      (fun next _ => ∀ other, Grows (write == .written) (state.lanes other) (next.lanes other))
      (fun _ _ => False) := by
  unfold forwardChunk
  refine ensures_then (ensures_attempt (ensures_any _ _)) ?_
  intro processed after _
  match processed with
  | .error _ => exact ensures_pure (fun _ => .still rfl rfl)
  | .ok (.blocked,_) => exact ensures_pure (fun _ => .still rfl rfl)
  | .ok (.dropped,_) => exact ensures_pure (fun _ => .still rfl rfl)
  | .ok (.forward output,inspection) =>
      refine ensures_pure ?_
      intro other
      exact wrote_grows {state with inspection := inspection} side write output other

theorem relayRead_grows (available : Nat) (write : WriteOutcome) (closes : Bool) (services : ServiceState) :
    Ensures (relayRead env limit state side available write closes) services
      (fun next _ => ∀ other, Grows (write == .written) (state.lanes other) (next.lanes other))
      (fun _ _ => False) := by
  have held : ∀ lane chunk, lane.written = (state.lanes side).written → lane.count = (state.lanes side).count →
      Ensures (handOn env limit (state.setLane side lane) side chunk write) services
        (fun next _ => ∀ other, Grows (write == .written) (state.lanes other) (next.lanes other))
        (fun _ _ => False) := by
    intro lane chunk written count
    have still := setLane_still state side lane written count
    cases chunk with
    | none => exact ensures_pure (fun other => .still (still other).1 (still other).2)
    | some bytes =>
        refine ensures_weaken (forwardChunk_grows limit _ side bytes write services) ?_ (fun _ _ no => no)
        exact fun _ _ grows other => (grows other).from (still other).1 (still other).2
  refine relayRead_rule env ?_ (fun _ => held _ _ rfl rfl)
  intro _
  refine ensures_weaken (held _ _ rfl rfl) ?_ (fun _ _ no => no)
  intro next _ grows other
  split
  · exact grows other
  · -- Passing the end of the stream on counts nothing.
    have kept := setLane_still next side {next.lanes side with opened := false} rfl rfl other
    unfold RelayState.shut
    dsimp only
    split
    · exact (grows other).then kept.1 kept.2
    · exact (grows other).then kept.1 kept.2

theorem settle_lanes : state.settle.lanes = state.lanes := by
  unfold RelayState.settle
  split <;> rfl

theorem relayStep_grows (event : RelayEvent) (services : ServiceState) :
    Ensures (relayStep env limit state event) services
      (fun next _ => ∀ side, Grows event.completes (state.lanes side) (next.lanes side)) (fun _ _ => False) := by
  refine relayStep_rule env (fun _ => .still rfl rfl) (fun _ _ _ _ => .still rfl rfl) ?_ ?_
  · rintro _ side write bytes rfl _
    have released := setLane_still state side {state.lanes side with preflight := .released} rfl rfl
    refine ensures_weaken (forwardChunk_grows limit _ side _ write services) ?_ (fun _ _ no => no)
    exact fun _ _ grows other => (grows other).from (released other).1 (released other).2
  · rintro _ side available write closes rfl _
    refine ensures_weaken (relayRead_grows limit state side available write closes services) ?_
      (fun _ _ no => no)
    intro next _ grows
    rw [settle_lanes]
    exact grows

-- The relay's counts are those of the completed writes, up to where they saturate.
def Counted (ledger : Ledger) : Prop :=
  ∀ side, (ledger.state.lanes side).count = min (ledger.completed side).length u64Max

theorem enter_counted {ledger : Ledger} {event : RelayEvent} {next : RelayState} (counted : Counted ledger)
    (grows : ∀ side, Grows event.completes (ledger.state.lanes side) (next.lanes side)) :
    Counted (ledger.enter event next) := by
  intro side
  have before := counted side
  obtain ⟨bytes,appended,counts⟩ := grows side
  have put : (next.lanes side).written.drop (ledger.state.lanes side).written.length = bytes := by
    rw [appended,List.drop_left]
  change (next.lanes side).count = min (List.length (if event.completes then
    ledger.completed side ++ (next.lanes side).written.drop (ledger.state.lanes side).written.length
      else ledger.completed side)) u64Max
  rw [put]
  rcases counts with ⟨completes,count⟩ | ⟨count,nothing⟩
  · rw [if_pos completes,count,before,List.length_append]
    unfold saturatingAdd
    omega
  · rw [count,before]
    split
    · rename_i completes
      rw [nothing completes,List.append_nil]
    · rfl

theorem ledgerStep_counted {ledger : Ledger} (counted : Counted ledger) (event : RelayEvent) (services : ServiceState) :
    Ensures (ledgerStep env limit ledger event) services (fun next _ => Counted next) (fun _ _ => False) := by
  refine ensures_then (relayStep_grows limit ledger.state event services) ?_
  intro next after grows
  exact ensures_pure (enter_counted counted grows)

theorem relayLedger_counted {ledger : Ledger} (counted : Counted ledger) (events : List RelayEvent)
    (services : ServiceState) :
    Ensures (relayLedger env limit ledger events) services (fun final _ => Counted final)
      (fun _ _ => False) :=
  ensures_foldlM (fun _ after event kept => ledgerStep_counted limit kept event after) counted

-- Keeping the ledger changes nothing in the run of the relay.
theorem relayLedger_relays {ledger final : Ledger} {events : List RelayEvent} {services after : ServiceState}
    (kept : (relayLedger env limit ledger events).run services = .ok final after) :
    (relay env limit ledger.state events).run services = .ok final.state after := by
  induction events generalizing ledger services with
  | nil =>
      cases kept
      rfl
  | cons event rest ih =>
      unfold relayLedger at kept
      rw [List.foldlM_cons,bind_ok] at kept
      obtain ⟨middle,between,stepped,continued⟩ := kept
      unfold ledgerStep at stepped
      rw [bind_ok] at stepped
      obtain ⟨next,_,moved,entered⟩ := stepped
      cases entered
      unfold relay
      rw [List.foldlM_cons,run_bind_ok moved]
      exact ih continued

theorem openLedger_counted (limit : Nat) (streams : RelaySide → List UInt8) (events : List RelayEvent)
    (services : ServiceState) :
    ∃ ledger after, (openLedger env flow limit streams events).run services = .ok ledger after ∧
      (runTunnel env flow limit streams events).run services = .ok ledger.state after ∧ Counted ledger := by
  have started : (FlowInspector.new env flow .tcp limit).run services =
      .ok (.ofSnapshot (env.live services.loads) flow .tcp limit) {services with loads := services.loads + 1} :=
    rfl
  have fresh : Counted ⟨.start streams (some (.ofSnapshot (env.live services.loads) flow .tcp limit)),
      fun _ => []⟩ := by
    intro side
    simp [RelayState.start]
  obtain ⟨ledger,after,kept,counted⟩ := ensures_total (relayLedger_counted limit fresh events
    {services with loads := services.loads + 1})
  refine ⟨ledger,after,?_,?_,counted⟩
  · unfold openLedger
    rw [run_bind_ok started]
    exact kept
  · unfold runTunnel
    rw [run_bind_ok started]
    exact relayLedger_relays limit kept

-- When a closing record can tell what was relayed: the relay did not end with an
-- error, or had completed no write when it did, and a count of 64 bits holds the totals.
structure Reportable (ledger : Ledger) : Prop where
  kept : (∃ termination, ledger.state.ended = some (.ok termination)) ∨ ∀ side, ledger.completed side = []
  countable : ∀ side, (ledger.completed side).length ≤ u64Max

def RelayStats.Tells (stats : RelayStats) (completed : RelaySide → List UInt8) : Prop :=
  stats.clientToUpstreamBytes = (completed .client).length ∧ stats.upstreamToClientBytes = (completed .upstream).length

theorem stats_tell {ledger : Ledger} (counted : Counted ledger) :
    ledger.state.stats.Tells ledger.completed ↔ ∀ side, (ledger.completed side).length ≤ u64Max := by
  have client := counted .client
  have upstream := counted .upstream
  change ((ledger.state.lanes .client).count = _ ∧ (ledger.state.lanes .upstream).count = _) ↔ _
  rw [client,upstream]
  constructor
  · rintro ⟨sent,received⟩ side
    cases side with
    | client | upstream => omega
  · intro countable
    exact ⟨Nat.min_eq_left (countable .client),Nat.min_eq_left (countable .upstream)⟩

theorem zero_tells (completed : RelaySide → List UInt8) :
    RelayStats.zero.Tells completed ↔ ∀ side, completed side = [] := by
  constructor
  · rintro ⟨sent,received⟩ side
    cases side with
    | client => exact List.eq_nil_of_length_eq_zero sent.symm
    | upstream => exact List.eq_nil_of_length_eq_zero received.symm
  · intro nothing
    unfold RelayStats.Tells
    rw [nothing .client,nothing .upstream]
    exact ⟨rfl,rfl⟩

theorem closing_tells {ledger : Ledger} (counted : Counted ledger) (failed : ProxyError → FlowOutcome)
    (returned : ledger.state.result = some result) :
    (closing failed result).1.Tells ledger.completed ↔ Reportable ledger := by
  unfold RelayState.result at returned
  obtain ⟨outcome,ended,same⟩ := Option.map_eq_some_iff.mp returned
  cases outcome with
  | ok termination =>
      cases same
      change ledger.state.stats.Tells ledger.completed ↔ _
      rw [stats_tell counted]
      exact ⟨fun countable => ⟨.inl ⟨termination,ended⟩,countable⟩,fun reportable => reportable.countable⟩
  | error =>
      cases same
      change RelayStats.zero.Tells ledger.completed ↔ _
      rw [zero_tells]
      constructor
      · intro nothing
        refine ⟨.inr nothing,?_⟩
        intro side
        rw [nothing side]
        exact Nat.zero_le _
      · rintro ⟨kept,_⟩
        rcases kept with ⟨termination,finished⟩ | nothing
        · rw [ended] at finished
          cases finished
        · exact nothing

-- The run put one closing record forward, which tells what was relayed exactly if
-- it can.
def Reported (record : Nat → Nat → FlowOutcome → AuditEvent) (after final : ServiceState) (ledger : Ledger) : Prop :=
  ∃ stats outcome, Emits after final (record stats.clientToUpstreamBytes stats.upstreamToClientBytes outcome) ∧
    (RelayStats.Tells stats ledger.completed ↔ Reportable ledger)

theorem stateOf_emits (event : AuditEvent) (value : α) (services : ServiceState) :
    Emits services (stateOf ((publishEvent env flow event >>= fun _ => (pure value : Task α)).run services))
      event := by
  have published : Leaves (publishEvent env flow event >>= fun _ => (pure value : Task α)) services
    (fun after => Emits services after event) := by
    refine ensures_bind (ensures_weaken (publishWith_emits flow event id services) ?_ ?_)
    · intro _ after emits
      exact ensures_pure emits
    · exact fun _ _ emits => emits.1
  exact ensures_state published

theorem relayAndClose_reports (failed : ProxyError → FlowOutcome) (record : Nat → Nat → FlowOutcome → AuditEvent)
    (flow : Flow) (limit : Nat) (streams : RelaySide → List UInt8) (events : List RelayEvent)
    (services : ServiceState) :
    ∃ ledger after, (openLedger env flow limit streams events).run services = .ok ledger after ∧
      (runTunnel env flow limit streams events).run services = .ok ledger.state after ∧
      (ledger.state.ended.isSome = true → Reported record after
        (stateOf ((relayAndClose env failed record flow limit streams events).run services)) ledger) := by
  obtain ⟨ledger,after,kept,ran,counted⟩ := openLedger_counted flow limit streams events services
  refine ⟨ledger,after,kept,ran,?_⟩
  intro ended
  obtain ⟨result,returned⟩ : ∃ result, ledger.state.result = some result := by
    obtain ⟨outcome,finished⟩ := Option.isSome_iff_exists.mp ended
    unfold RelayState.result
    rw [finished]
    exact ⟨_,rfl⟩
  refine ⟨(closing failed result).1,(closing failed result).2,?_,closing_tells counted failed returned⟩
  unfold relayAndClose
  rw [run_bind_ok ran,returned]
  exact stateOf_emits flow _ _ after

variable (env)

-- The closing records of tunnels and of sessions tell, per direction, what was
-- written on completely, exactly if the relay did not fail after a completed write.
-- A session that fails before its relay has relayed nothing, and says so.
theorem closing_records_report :
    (∀ (flow : Flow) (limit : Nat) (streams : RelaySide → List UInt8) (events : List RelayEvent)
        (services : ServiceState), ∃ ledger after,
      (openLedger env flow limit streams events).run services = .ok ledger after ∧
        (runTunnel env flow limit streams events).run services = .ok ledger.state after ∧
        (ledger.state.ended.isSome = true → Reported .tunnelClosed after
          (stateOf ((serveTunnel env (.ok ()) flow limit streams events).run services)) ledger)) ∧
    (∀ (context : SessionContext) (sessionId : SessionId) (limit : Nat) (stream upstream : List UInt8)
        (events : List RelayEvent) (services accepted : ServiceState),
      (publishEvent env ⟨sessionId,none⟩
        (.connectionAccepted context.peerText context.listenerText)).run services = .ok () accepted →
      (∀ error session, context.handshake stream = .error error session → Emits accepted
        (stateOf ((serveSession env context sessionId limit stream upstream events).run services))
        (.flowClosed 0 0 (sessionErrorOutcome error))) ∧
      ∀ input session, context.handshake stream = .ok input session → ∃ ledger after,
        (openLedger env ⟨sessionId,none⟩ limit (sessionStreams input upstream) events).run accepted =
          .ok ledger after ∧
        (runTunnel env ⟨sessionId,none⟩ limit (sessionStreams input upstream) events).run accepted =
          .ok ledger.state after ∧
        (ledger.state.ended.isSome = true → Reported .flowClosed after
          (stateOf ((serveSession env context sessionId limit stream upstream events).run services))
          ledger)) := by
  constructor
  · intro flow limit streams events services
    exact relayAndClose_reports tunnelErrorOutcome .tunnelClosed flow limit streams events services
  · intro context sessionId limit stream upstream events services accepted announced
    unfold serveSession
    rw [run_bind_ok announced]
    constructor
    · intro error session failed
      rw [failed]
      exact stateOf_emits ⟨sessionId,none⟩ _ _ accepted
    · intro input session shaken
      rw [shaken]
      exact relayAndClose_reports errorOutcome .flowClosed ⟨sessionId,none⟩ limit
        (sessionStreams input upstream) events accepted

def brokenStreams : RelaySide → List UInt8
  | .client => ascii "xyz"
  | .upstream => []

def brokenEvents : List RelayEvent := [.read .client 7 .written true,.readFailed .upstream]

def brokenFlow : Flow := ⟨⟨1⟩,some ⟨4⟩⟩

-- Three bytes have reached the upstream when reading from it fails; the record
-- says that none did.
theorem broken_tunnel_reports_nothing :
    (answerOf ((openLedger streamingEnvironment brokenFlow 64 brokenStreams brokenEvents).run idleState)).map
        (fun ledger => (ledger.completed .client,decide (ledger.state.ended = some (.error (.relayRead "upstream-to-client"))))) =
      some (ascii "xyz",true) ∧
    (stateOf ((serveTunnel streamingEnvironment (.ok ()) brokenFlow 64 brokenStreams brokenEvents).run
        idleState)).attempted.getLast?.map AuditEnvelope.event = some (.tunnelClosed 0 0 .relayFailure) := by
  constructor
  · decide +kernel
  · decide +kernel

def idleEvents : List RelayEvent := [.read .client 7 .written true,.idleTimeout]

def openContext : SessionContext where
  sha256 := fun _ => Vector.replicate 32 0
  parseIp := fun _ => none
  authentication := none
  peer := .v4 127 0 0 1
  peerText := "127.0.0.1:50000"
  listenerText := "127.0.0.1:1080"
  authorizeAndResolve := fun _ => .ok []
  connectAny := fun _ => .ok none

-- A greeting without authentication, a request for a v4 address, and the bytes to
-- be relayed.
def sessionStream : List UInt8 := [5,1,0,5,1,0,1,10,0,0,1,0,80] ++ ascii "xyz"

theorem sessionStream_shaken : (answerOf (openContext.handshake sessionStream)) = some (ascii "xyz") := by
  decide +kernel

theorem session_announced : (answerOf ((publishEvent streamingEnvironment ⟨⟨1⟩,none⟩
    (.connectionAccepted openContext.peerText openContext.listenerText)).run idleState)).isSome = true := by
  decide +kernel

theorem idle_tunnel_reports :
    (∃ ledger after, (openLedger streamingEnvironment brokenFlow 64 brokenStreams idleEvents).run idleState =
        .ok ledger after ∧ ledger.state.ended = some (.ok .idleTimeout) ∧
      Reported .tunnelClosed after (stateOf ((serveTunnel streamingEnvironment (.ok ()) brokenFlow 64 brokenStreams
        idleEvents).run idleState)) ledger) ∧
    ∃ accepted session ledger after, openContext.handshake sessionStream = .ok (ascii "xyz") session ∧
      (openLedger streamingEnvironment ⟨⟨1⟩,none⟩ 64 (sessionStreams (ascii "xyz") []) idleEvents).run accepted =
        .ok ledger after := by
  have reports := closing_records_report streamingEnvironment
  have ran : (answerOf ((openLedger streamingEnvironment brokenFlow 64 brokenStreams idleEvents).run idleState)).map
      (fun ledger => decide (ledger.state.ended = some (.ok .idleTimeout))) = some true := by decide +kernel
  obtain ⟨found,final,done,idle⟩ := answerOf_map ran
  have ended := of_decide_eq_true idle
  constructor
  · obtain ⟨ledger,after,kept,_,reported⟩ := reports.1 brokenFlow 64 brokenStreams idleEvents idleState
    rw [done] at kept
    cases kept
    refine ⟨found,final,done,ended,reported ?_⟩
    rw [ended]
    rfl
  · obtain ⟨session,shaken⟩ := answerOf_ok sessionStream_shaken
    have announced := answerOf_done session_announced
    obtain ⟨_,relayed⟩ := reports.2 openContext ⟨1⟩ 64 sessionStream [] idleEvents idleState _ announced
    obtain ⟨ledger,after,kept,_,_⟩ := relayed (ascii "xyz") session shaken
    exact ⟨_,session,ledger,after,shaken,kept⟩

end Freja.Proxy
