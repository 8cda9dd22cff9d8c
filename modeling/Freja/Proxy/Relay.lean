import Freja.Proxy.FlowInspector

namespace Freja.Proxy
open Domain Policy Audit Effect Bytes Occurrence

inductive RelaySide where
  | client
  | upstream
  deriving DecidableEq, Repr

namespace RelaySide

-- The direction in which bytes read on a side travel.
def direction : RelaySide → Direction
  | .client => .clientToUpstream
  | .upstream => .upstreamToClient

def label : RelaySide → String
  | .client => "client-to-upstream"
  | .upstream => "upstream-to-client"

end RelaySide

def relayReadBufferBytes : Nat := 16 * 1024

inductive RelayTermination where
  | completed
  | idleTimeout
  | shutdown
  | inspectionBlocked
  deriving DecidableEq, Repr

inductive PreflightBuffer where
  | pending (bytes : List UInt8) (armed : Bool)
  | released
  deriving DecidableEq, Repr

namespace PreflightBuffer

def new (enabled : Bool) : PreflightBuffer := if enabled then .pending [] false else .released

def readSize (buffer : PreflightBuffer) (bufferSize maximum : Nat) : Nat :=
  match buffer with
  | .pending bytes _ => min (maximum - bytes.length) bufferSize
  | .released => bufferSize

def release : PreflightBuffer → List UInt8
  | .pending bytes _ => bytes
  | .released => []

-- What is passed on at once, and the buffer afterwards.
def push (buffer : PreflightBuffer) (input : List UInt8) (maximum : Nat) : Option (List UInt8) × PreflightBuffer :=
  match buffer with
  | .released => (some input,.released)
  | .pending bytes _ =>
      if (bytes ++ input).length < maximum then (none,.pending (bytes ++ input) true)
      else (some (bytes ++ input),.released)

end PreflightBuffer

-- How a write ends; one that does not complete may have put out some bytes.
inductive WriteOutcome where
  | written
  | idleTimeout (count : Nat)
  | shutdown (count : Nat)
  | failed (count : Nat)
  deriving DecidableEq, Repr

-- What the select loop wakes up for. A read hands over some of the available
-- bytes of the peer's stream, and nothing once the stream has ended; `closes`
-- says whether passing the end on succeeds.
inductive RelayEvent where
  | shutdown
  | idleTimeout
  | preflightElapsed (side : RelaySide) (write : WriteOutcome)
  | readFailed (side : RelaySide)
  | read (side : RelaySide) (available : Nat) (write : WriteOutcome) (closes : Bool)
  deriving DecidableEq, Repr

-- One direction: what its peer has still to send, what was read of it, what was
-- written on, and the count reported for it.
structure RelayLane where
  unread : List UInt8
  taken : List UInt8
  opened : Bool
  preflight : PreflightBuffer
  written : List UInt8
  count : Nat
  deriving DecidableEq, Repr

structure RelayState where
  lanes : RelaySide → RelayLane
  inspection : Option FlowInspector
  ended : Option (Except ProxyError RelayTermination)
  blocked : Option RelaySide

namespace RelayState

def setLane (state : RelayState) (side : RelaySide) (lane : RelayLane) : RelayState :=
  {state with lanes := Function.update state.lanes side lane}

def finish (state : RelayState) (outcome : Except ProxyError RelayTermination) : RelayState :=
  {state with ended := some outcome}

-- The check at the head of the loop.
def settle (state : RelayState) : RelayState :=
  if state.ended.isNone && !(state.lanes .client).opened && !(state.lanes .upstream).opened then
    state.finish (.ok .completed)
  else state

def start (streams : RelaySide → List UInt8) (inspection : Option FlowInspector) : RelayState :=
  {lanes := fun side =>
     {unread := streams side,taken := [],opened := true
      preflight := .new (inspection.any FlowInspector.usesPreflight),written := [],count := 0}
   inspection := inspection,ended := none,blocked := none}

end RelayState

inductive ChunkProcess where
  | blocked
  | dropped
  | forward (bytes : List UInt8)
  deriving DecidableEq, Repr

variable (env : Environment)

def processChunk (inspection : Option FlowInspector) (direction : Direction) (bytes : List UInt8)
    (maximumReplacementBytes : Nat) : Task (ChunkProcess × Option FlowInspector) :=
  match inspection with
  | none => return (.forward bytes,none)
  | some inspector => do
      let (permitted,next) ← inspector.permits env direction bytes
      if permitted then
        match ← next.transformTcpChunk env direction bytes maximumReplacementBytes with
        | some output => return (.forward output,some next)
        | none => return (.dropped,some next)
      else return (.blocked,some next)

def writeWithControls (write : WriteOutcome) (label : String) (bytes : List UInt8) :
    List UInt8 × Option (Except ProxyError RelayTermination) :=
  match write with
  | .written => (bytes,none)
  | .idleTimeout count => (bytes.take count,some (.ok .idleTimeout))
  | .shutdown count => (bytes.take count,some (.ok .shutdown))
  | .failed count => (bytes.take count,some (.error (.relayWrite label)))

def RelayState.wrote (state : RelayState) (side : RelaySide) (write : WriteOutcome) (bytes : List UInt8) : RelayState :=
  let lane := state.lanes side
  let out := writeWithControls write side.label bytes
  match out.2 with
  | none => state.setLane side
      {lane with written := lane.written ++ out.1,count := saturatingAdd lane.count bytes.length}
  | some outcome => (state.setLane side {lane with written := lane.written ++ out.1}).finish outcome

def forwardChunk (limit : Nat) (state : RelayState) (side : RelaySide) (bytes : List UInt8) (write : WriteOutcome) :
    Task RelayState := do
  match ← attempt (processChunk env state.inspection side.direction bytes limit) with
  | .error error => return state.finish (.error error)
  | .ok (.blocked,next) =>
      return {state with inspection := next,ended := some (.ok .inspectionBlocked),blocked := some side}
  | .ok (.dropped,next) => return {state with inspection := next}
  | .ok (.forward output,next) => return RelayState.wrote {state with inspection := next} side write output

def relayRead (limit : Nat) (state : RelayState) (side : RelaySide) (available : Nat) (write : WriteOutcome)
    (closes : Bool) : Task RelayState := do
  let lane := state.lanes side
  let size := lane.preflight.readSize relayReadBufferBytes limit
  let input := lane.unread.take (min (available + 1) size)
  if input.isEmpty then
    let held := lane.preflight.release
    let state := state.setLane side {lane with preflight := .released}
    let state ← if held.isEmpty then pure state else forwardChunk env limit state side held write
    if state.ended.isSome then return state
    else
      let state := state.setLane side {state.lanes side with opened := false}
      return if closes then state else state.finish (.error (.relayWrite (side.label ++ "-shutdown")))
  else
    let pushed := lane.preflight.push input limit
    let state := state.setLane side
      {lane with unread := lane.unread.drop input.length,taken := lane.taken ++ input,preflight := pushed.2}
    match pushed.1 with
    | none => return state
    | some chunk => forwardChunk env limit state side chunk write

def relayStep (limit : Nat) (state : RelayState) (event : RelayEvent) : Task RelayState :=
  if state.ended.isSome then return state
  else
    match event with
    | .shutdown => return state.finish (.ok .shutdown)
    | .idleTimeout => return state.finish (.ok .idleTimeout)
    | .preflightElapsed side write =>
        match (state.lanes side).preflight with
        | .pending bytes true =>
            forwardChunk env limit
              (state.setLane side {state.lanes side with preflight := .released}) side bytes write
        | _ => return state
    | .readFailed side =>
        if (state.lanes side).opened then return state.finish (.error (.relayRead side.label)) else return state
    | .read side available write closes => do
        if (state.lanes side).opened then
          let state ← relayRead env limit state side available write closes
          return state.settle
        else return state

def relay (limit : Nat) (state : RelayState) (events : List RelayEvent) : Task RelayState :=
  events.foldlM (relayStep env limit) state

-- Passing the end of a stream on.
def RelayState.shut (state : RelayState) (side : RelaySide) (closes : Bool) : RelayState :=
  let shut := state.setLane side {state.lanes side with opened := false}
  if closes then shut else shut.finish (.error (.relayWrite (side.label ++ "-shutdown")))

def handOn (limit : Nat) (state : RelayState) (side : RelaySide) (chunk : Option (List UInt8)) (write : WriteOutcome) :
    Task RelayState :=
  match chunk with
  | none => return state
  | some bytes => forwardChunk env limit state side bytes write

def RelayLane.input (limit available : Nat) (lane : RelayLane) : List UInt8 :=
  lane.unread.take (min (available + 1) (lane.preflight.readSize relayReadBufferBytes limit))

theorem RelayLane.input_front (limit available : Nat) (lane : RelayLane) :
    lane.unread = lane.input limit available ++ lane.unread.drop (lane.input limit available).length := by
  unfold RelayLane.input
  rw [List.length_take,← List.drop_eq_drop_min]
  exact (List.take_append_drop _ _).symm

theorem RelayLane.input_empty {lane : RelayLane} (room : 0 < lane.preflight.readSize relayReadBufferBytes limit)
    (nothing : lane.input limit available = []) : lane.unread = [] := by
  rcases List.take_eq_nil_iff.mp nothing with none | done
  · omega
  · exact done

-- What a lane has when input was read from it, and the chunk that goes on.
def RelayLane.reading (limit : Nat) (lane : RelayLane) (input : List UInt8) : RelayLane :=
  {lane with
    unread := lane.unread.drop input.length,taken := lane.taken ++ input,preflight := (lane.preflight.push input limit).2}

def PreflightBuffer.rest (buffer : PreflightBuffer) : Option (List UInt8) :=
  if buffer.release.isEmpty then none else some buffer.release

section Rules

variable {limit : Nat} {state : RelayState} {services : ServiceState} {answer : RelayState → ServiceState → Prop}
  {broken : ProxyError → ServiceState → Prop}

theorem shut_rule {next : RelayState} {side : RelaySide} {closes : Bool}
    (told : answer (if next.ended.isSome then next else next.shut side closes) services) :
    Ensures (if next.ended.isSome then (pure next : Task RelayState) else pure (next.shut side closes)) services answer
      broken := by
  split at told
  · rename_i stopped
    rw [if_pos stopped]
    exact ensures_pure told
  · rename_i running
    rw [if_neg running]
    exact ensures_pure told

-- A read ends a stream, and passes on what was held back before its end, or it gives input.
theorem relayRead_rule {side : RelaySide} {available : Nat} {write : WriteOutcome} {closes : Bool}
    (ends : (state.lanes side).input limit available = [] →
      Ensures (handOn env limit (state.setLane side {state.lanes side with preflight := .released}) side
        (state.lanes side).preflight.rest write) services
        (fun next after => answer (if next.ended.isSome then next else next.shut side closes) after) broken)
    (reads : (state.lanes side).input limit available ≠ [] →
      Ensures (handOn env limit
        (state.setLane side ((state.lanes side).reading limit ((state.lanes side).input limit available))) side
        ((state.lanes side).preflight.push ((state.lanes side).input limit available) limit).1 write)
        services answer broken) :
    Ensures (relayRead env limit state side available write closes) services answer broken := by
  unfold relayRead
  dsimp only
  split
  · rename_i nothing
    have ended := ends (List.isEmpty_iff.mp nothing)
    unfold PreflightBuffer.rest at ended
    split
    · rename_i empty
      rw [if_pos empty] at ended
      refine ensures_then ended ?_
      exact fun _ _ told => shut_rule told
    · rename_i held
      rw [if_neg held] at ended
      refine ensures_then ended ?_
      exact fun _ _ told => shut_rule told
  · rename_i something
    have read := reads (fun nothing => something (List.isEmpty_iff.mpr nothing))
    unfold handOn at read
    split
    · rename_i held
      unfold RelayLane.input at read
      rw [held] at read
      exact read
    · rename_i chunk whole
      unfold RelayLane.input at read
      rw [whole] at read
      exact read

theorem relayStep_rule {event : RelayEvent} (stays : answer state services)
    (finishes : state.ended = none → ∀ outcome, outcome ≠ .ok .completed → answer (state.finish outcome) services)
    (elapses : state.ended = none → ∀ side write bytes, event = .preflightElapsed side write →
      (state.lanes side).preflight = .pending bytes true →
      Ensures (forwardChunk env limit (state.setLane side {state.lanes side with preflight := .released}) side
        bytes write) services answer broken)
    (reads : state.ended = none → ∀ side available write closes, event = .read side available write closes →
      (state.lanes side).opened = true →
      Ensures (relayRead env limit state side available write closes) services
        (fun next after => answer next.settle after) broken) :
    Ensures (relayStep env limit state event) services answer broken := by
  unfold relayStep
  split
  · exact ensures_pure stays
  · rename_i unended
    have running : state.ended = none := Option.not_isSome_iff_eq_none.mp unended
    cases event with
    | shutdown | idleTimeout => exact ensures_pure (finishes running _ nofun)
    | preflightElapsed side write =>
        dsimp only
        split
        · rename_i bytes waiting
          exact elapses running side write bytes rfl waiting
        · exact ensures_pure stays
    | readFailed =>
        dsimp only
        split
        · exact ensures_pure (finishes running _ nofun)
        · exact ensures_pure stays
    | read side available write closes =>
        dsimp only
        split
        · rename_i opened
          refine ensures_then (reads running side available write closes rfl opened) ?_
          intro next after kept
          exact ensures_pure kept
        · exact ensures_pure stays

end Rules

-- A tunnel inspects up to the same limit to which its preflight buffers.
def runTunnel (flow : Flow) (limit : Nat) (streams : RelaySide → List UInt8) (events : List RelayEvent) :
    Task RelayState := do
  let inspection ← FlowInspector.new env flow .tcp limit
  relay env limit (.start streams (some inspection)) events

end Freja.Proxy
