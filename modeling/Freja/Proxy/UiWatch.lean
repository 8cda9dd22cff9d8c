import Freja.Proxy.BodyPump
import Freja.Proxy.UiCapture

namespace Freja.Proxy
open Domain Policy Audit Effect Bytes

-- A run of the body pump with the data frames it read and the parts of them that it
-- gave to its inspector.
structure PumpTrace where
  sent : List Sent
  read : List (List UInt8)
  handed : List (List UInt8)

variable (env : Environment)

def watchBody (config : BodyPumpConfig) (inspection : FlowInspector) (inspectedBytes : Nat)
    (consumed : List UInt8) : List Arrival → Task PumpTrace
  | [] => return ⟨[],[],[]⟩
  | arrival :: rest =>
      let send (frame : BodyFrame) (read : List UInt8) (passed : FlowInspector) :=
        sendBodyFrame arrival ⟨frame,read,passed.fed config.direction⟩
      match arrival.event with
      | .shutdown => return ⟨[],[],[]⟩
      | .timedOut => return ⟨send (.error .readTimedOut) consumed inspection,[],[]⟩
      | .failed => return ⟨send (.error .hyper) consumed inspection,[],[]⟩
      | .trailers =>
          if config.bodyMayChange then watchBody config inspection inspectedBytes consumed rest
          else if arrival.delivered then do
            let later ← watchBody config inspection inspectedBytes consumed rest
            return {later with sent := send (.ok .trailers) consumed inspection ++ later.sent}
          else return ⟨[],[],[]⟩
      | .data data => do
          let handed := inspectedParts config.maximumInspectedBytes inspectedBytes [data]
          match ← inspectFrame env config inspection inspectedBytes data with
          | .error error => return ⟨send (.error error) (consumed ++ data) inspection,[data],handed⟩
          | .ok (next,inspected) =>
              match ← transformFrame env config next data with
              | .error error => return ⟨send (.error error) (consumed ++ data) next,[data],handed⟩
              | .ok output =>
                  if arrival.delivered then do
                    let later ← watchBody config next inspected (consumed ++ data) rest
                    return ⟨send (.ok (.data output)) (consumed ++ data) next ++ later.sent,data :: later.read,
                      handed ++ later.handed⟩
                  else return ⟨[],[data],handed⟩

variable (config : BodyPumpConfig) (inspection : FlowInspector) (inspectedBytes : Nat) (data : List UInt8)
  (body : List Arrival)

-- Watching does not change what the pump does.
theorem watchBody_sent (consumed : List UInt8) (body : List Arrival) :
    (watchBody env config inspection inspectedBytes consumed body >>= fun trace => pure trace.sent) =
      pumpInspectedBody env config inspection inspectedBytes consumed body := by
  induction body generalizing inspection inspectedBytes consumed with
  | nil => rfl
  | cons arrival rest ih =>
      unfold watchBody pumpInspectedBody
      cases arrival.event with
      | shutdown | timedOut | failed => rfl
      | trailers =>
          dsimp only
          split
          · exact ih inspection inspectedBytes consumed
          · split
            · rw [← ih,bind_assoc,bind_assoc]
              rfl
            · rfl
      | data data =>
          dsimp only
          rw [bind_assoc]
          congr 1
          funext inspected
          cases inspected with
          | error => rfl
          | ok passed =>
              obtain ⟨next,count⟩ := passed
              dsimp only
              rw [bind_assoc]
              congr 1
              funext transformed
              cases transformed with
              | error => rfl
              | ok =>
                  dsimp only
                  split
                  · rw [← ih,bind_assoc,bind_assoc]
                    rfl
                  · rfl

theorem inspectFrame_count (services : ServiceState) :
    Ensures (inspectFrame env config inspection inspectedBytes data) services
      (fun outcome _ => ∀ passed, outcome = .ok passed →
        passed.2 = inspectedBytes + min (config.maximumInspectedBytes - inspectedBytes) data.length)
      (fun _ _ => True) := by
  unfold inspectFrame
  dsimp only
  split
  · rename_i none
    refine ensures_pure ?_
    intro passed same
    cases same
    omega
  · refine ensures_then (ensures_any _ _) ?_
    intro outcome after _
    split
    · refine ensures_pure ?_
      intro passed same
      cases same
      rfl
    · exact ensures_pure (fun _ same => nomatch same)
    · exact ensures_pure (fun _ same => nomatch same)

theorem inspectedParts_cons (budget : Nat) (rest : List (List UInt8)) :
    inspectedParts budget inspectedBytes (data :: rest) = inspectedParts budget inspectedBytes [data] ++
      inspectedParts budget (inspectedBytes + min (budget - inspectedBytes) data.length) rest := by
  simp only [inspectedParts]
  split
  · rfl
  · rename_i none
    rw [Nat.eq_zero_of_not_pos none]
    rfl

theorem watchBody_handed (consumed : List UInt8) (body : List Arrival) (services : ServiceState) :
    Ensures (watchBody env config inspection inspectedBytes consumed body) services
      (fun trace _ => trace.handed = inspectedParts config.maximumInspectedBytes inspectedBytes trace.read)
      (fun _ _ => True) := by
  induction body generalizing inspection inspectedBytes consumed services with
  | nil => exact ensures_pure rfl
  | cons arrival rest ih =>
      unfold watchBody
      cases arrival.event with
      | shutdown | timedOut | failed => exact ensures_pure rfl
      | trailers =>
          dsimp only
          split
          · exact ih inspection inspectedBytes consumed services
          · split
            · refine ensures_then (ih inspection inspectedBytes consumed services) ?_
              intro later after parts
              exact ensures_pure parts
            · exact ensures_pure rfl
      | data data =>
          dsimp only
          refine ensures_then (inspectFrame_count env config inspection inspectedBytes data services) ?_
          intro inspected after counted
          cases inspected with
          | error => exact ensures_pure rfl
          | ok passed =>
              obtain ⟨next,count⟩ := passed
              have spent : count = inspectedBytes + min (config.maximumInspectedBytes - inspectedBytes) data.length :=
                counted (next,count) rfl
              refine ensures_then (ensures_any _ _) ?_
              intro transformed later _
              cases transformed with
              | error => exact ensures_pure rfl
              | ok output =>
                  dsimp only
                  split
                  · refine ensures_then (ih next count (consumed ++ data) later) ?_
                    intro trace _ parts
                    refine ensures_pure ?_
                    change inspectedParts config.maximumInspectedBytes inspectedBytes [data] ++ trace.handed = _
                    rw [inspectedParts_cons _ data _ trace.read,parts,spent]
                  · exact ensures_pure rfl

-- How the bytes of one direction come to an inspector: frame by frame through the body
-- pump, collected by a preflight, or in the chunks that a tunnel passes on.
inductive BodySource where
  | streamed (maximumInspectedBytes : Nat) (frames : List (List UInt8))
  | collected (bytes : List UInt8)
  | tunnelled (chunks : List (List UInt8))
  deriving DecidableEq, Repr

namespace BodySource

def frames : BodySource → List (List UInt8)
  | .streamed _ frames => frames
  | .collected bytes => [bytes]
  | .tunnelled chunks => chunks

def bytes (source : BodySource) : List UInt8 := source.frames.flatten

def handed : BodySource → List (List UInt8)
  | .streamed maximumInspectedBytes frames => inspectedParts maximumInspectedBytes 0 frames
  | .collected bytes => [bytes]
  | .tunnelled chunks => chunks

-- Only the body pump has a budget for what it inspects.
def WithinBudget : BodySource → Prop
  | .streamed maximumInspectedBytes frames => frames.flatten.length ≤ maximumInspectedBytes
  | .collected _ | .tunnelled _ => True

theorem handed_prefix (source : BodySource) : source.handed.flatten <+: source.bytes := by
  cases source with
  | streamed maximumInspectedBytes frames =>
      change (inspectedParts maximumInspectedBytes 0 frames).flatten <+: frames.flatten
      rw [inspectedParts_flatten]
      exact List.take_prefix _ _
  | collected | tunnelled => exact List.prefix_rfl

theorem published_handed (contentBytes : Nat) {source : BodySource} (within : source.WithinBudget) :
    published (some contentBytes) .new source.handed = published (some contentBytes) .new source.frames := by
  cases source with
  | streamed maximumInspectedBytes frames =>
      have fits : 0 + frames.flatten.length ≤ maximumInspectedBytes := by
        rw [Nat.zero_add]
        exact within
      rw [← UiCounters.after_nothing contentBytes]
      exact published_inspectedParts contentBytes [] fits
  | collected | tunnelled => rfl

theorem handed_short {source : BodySource} (beyond : ¬ source.WithinBudget) :
    source.handed.flatten.length < source.bytes.length := by
  cases source with
  | streamed maximumInspectedBytes frames =>
      change (inspectedParts maximumInspectedBytes 0 frames).flatten.length < frames.flatten.length
      have more : ¬ frames.flatten.length ≤ maximumInspectedBytes := beyond
      rw [inspectedParts_flatten,List.length_take]
      omega
  | collected | tunnelled => exact absurd trivial beyond

end BodySource

theorem watchBody_source (services : ServiceState) :
    Ensures (watchBody env config inspection 0 [] body) services
      (fun trace _ => trace.handed = (BodySource.streamed config.maximumInspectedBytes trace.read).handed)
      (fun _ _ => True) :=
  watchBody_handed env config inspection 0 [] body services

end Freja.Proxy
