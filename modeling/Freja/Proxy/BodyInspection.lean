import Freja.Proxy.BodyPump

namespace Freja.Proxy
open Domain Policy Audit Effect Bytes Occurrence

variable (env : Environment)

theorem take_window (budget : Nat) (consumed data : List UInt8) :
    (consumed ++ data).take budget = consumed.take budget ++ data.take (budget - min budget consumed.length) := by
  rw [List.take_append]
  congr 2
  omega

-- When the inspector keeps the pump's count: it counts frame by frame, the budget
-- is a single byte, or no byte ever gets past it.
def Paced (mode : InspectionMode) (program : InspectionProgram) (direction : Direction) (budget : Nat) : Prop :=
  mode = .streaming ∨ budget ≤ 1 ∨ ∀ byte, program.DenyIn direction [byte]

-- Pump and inspector count alike: the inspector has been given the first bytes
-- of the body, and nothing in them is denied.
structure Watched (snapshot : PolicySnapshot) (config : BodyPumpConfig) (inspection : FlowInspector)
    (inspectedBytes : Nat) (consumed : List UInt8) : Prop where
  decision : inspection.decision = snapshot
  enforced : snapshot.enforcement = .enforce
  paced : Paced inspection.mode snapshot.inspection config.direction config.maximumInspectedBytes
  budget : inspection.maximumInspectedBytes = config.maximumInspectedBytes
  counted : inspectedBytes = min config.maximumInspectedBytes consumed.length
  inspected : inspection.inspected config.direction = inspectedBytes
  fed : inspection.fed config.direction = consumed.take config.maximumInspectedBytes
  clean : ¬ snapshot.inspection.DenyIn config.direction (consumed.take config.maximumInspectedBytes)

variable {snapshot : PolicySnapshot} {config : BodyPumpConfig} {inspection next : FlowInspector}

theorem Watched.share (watched : Watched snapshot config inspection inspectedBytes consumed) (data : List UInt8) :
    inspection.share config.direction (data.take (min (config.maximumInspectedBytes - inspectedBytes) data.length)) =
      data.take (min (config.maximumInspectedBytes - inspectedBytes) data.length) := by
  unfold FlowInspector.share
  rw [watched.inspected,watched.budget]
  refine List.take_of_length_le ?_
  rw [List.length_take]
  omega

theorem Watched.window (watched : Watched snapshot config inspection inspectedBytes consumed) (data : List UInt8) :
    (consumed ++ data).take config.maximumInspectedBytes = inspection.fed config.direction ++
      data.take (min (config.maximumInspectedBytes - inspectedBytes) data.length) := by
  rw [watched.fed,take_window,← watched.counted]
  exact congrArg (consumed.take config.maximumInspectedBytes ++ ·) List.take_eq_take_min

theorem Watched.idle (watched : Watched snapshot config inspection inspectedBytes consumed)
    (nothing : min (config.maximumInspectedBytes - inspectedBytes) data.length = 0) :
    Watched snapshot config inspection inspectedBytes (consumed ++ data) := by
  have same : (consumed ++ data).take config.maximumInspectedBytes = consumed.take config.maximumInspectedBytes := by
    rw [watched.window data,nothing,List.take_zero,List.append_nil,watched.fed]
  refine {watched with counted := ?_,fed := ?_,clean := ?_}
  · have counted := watched.counted
    rw [List.length_append]
    omega
  · rw [same]; exact watched.fed
  · rw [same]; exact watched.clean

theorem Watched.passes (watched : Watched snapshot config inspection inspectedBytes consumed)
    (count : Nat) (counts : count = min (config.maximumInspectedBytes - inspectedBytes) data.length)
    (some : count ≠ 0) (advances : FlowInspector.Advances inspection config.direction (data.take count) next)
    (clean : ¬ snapshot.inspection.DenyIn config.direction ((consumed ++ data).take config.maximumInspectedBytes)) :
    Watched snapshot config next (inspectedBytes + count) (consumed ++ data) := by
  have shared := watched.share data
  rw [← counts] at shared
  have length : (data.take count).length = count := by rw [List.length_take]; omega
  have counted := watched.counted
  have inspected : next.inspected config.direction = inspectedBytes + count := by
    cases paced : inspection.mode with
    | streaming => rw [advances.streaming paced,shared,length,watched.inspected]
    | preflight =>
        have taken : data.take count ≠ [] := List.ne_nil_of_length_pos (by omega)
        rcases watched.paced with streaming | tight | barred
        · rw [paced] at streaming
          cases streaming
        · -- The budget is one byte, and this frame holds it.
          rw [advances.preflight paced (by rw [shared]; exact taken),watched.budget]
          omega
        · have window := watched.window data
          rw [← counts] at window
          exact absurd (InspectionProgram.denyIn_of_barred barred
            (by rw [window]; exact List.append_ne_nil_of_right_ne_nil _ taken)) clean
  refine ⟨advances.decision.trans watched.decision,watched.enforced,?_,advances.budget.trans watched.budget,?_,
    inspected,?_,clean⟩
  · rw [advances.mode]; exact watched.paced
  · rw [List.length_append]; omega
  · rw [advances.fed,Function.update_self,shared,watched.window data,counts]

def FrameChecked (snapshot : PolicySnapshot) (config : BodyPumpConfig) (consumed : List UInt8) :
    Except BodyError (FlowInspector × Nat) → Prop
  | .ok (next,inspected) => Watched snapshot config next inspected consumed
  | .error error =>
      (error = .inspectionBlocked ∧
        snapshot.inspection.DenyIn config.direction (consumed.take config.maximumInspectedBytes)) ∨
      ∃ cause, error = .inspection cause ∧ Unaudited env cause

variable {env}

theorem inspectFrame_checks (watched : Watched snapshot config inspection inspectedBytes consumed)
    (data : List UInt8) (state : ServiceState) :
    Ensures (inspectFrame env config inspection inspectedBytes data) state
      (fun result _ => FrameChecked env snapshot config (consumed ++ data) result) (fun _ _ => False) := by
  unfold inspectFrame
  dsimp only
  split
  · rename_i nothing
    exact ensures_pure (watched.idle nothing)
  · rename_i something
    refine ensures_then (ensures_attempt (FlowInspector.permits_exact inspection config.direction _ state)) ?_
    intro result after known
    cases result with
    | error cause => exact ensures_pure (.inr ⟨cause,rfl,known⟩)
    | ok answer =>
        obtain ⟨verdict,next⟩ := answer
        obtain ⟨judged,advances⟩ := known
        have exact := judged (by rw [watched.decision]; exact watched.enforced)
          (by rw [watched.decision,watched.fed]; exact watched.clean)
        rw [watched.share data,← watched.window data,watched.decision] at exact
        cases verdict with
        | false => exact ensures_pure (.inl ⟨rfl,exact.mp rfl⟩)
        | true =>
            refine ensures_pure (watched.passes _ rfl something advances ?_)
            intro denied
            cases exact.mpr denied

variable (env)

-- What is known of every frame handed on: data goes out after the scanner has been
-- given all of the body up to it within the budget, and a denied pattern in that
-- part ends the body.
structure InFull (program : InspectionProgram) (direction : Direction) (budget : Nat) (sent : Sent) : Prop where
  fed : ∀ bytes, sent.frame = .ok (.data bytes) → sent.fed = sent.consumed.take budget
  blocked : program.DenyIn direction (sent.consumed.take budget) →
    sent.frame = .error .inspectionBlocked ∨
      ∃ cause, sent.frame = .error (.inspection cause) ∧ Unaudited env cause

variable {env}

theorem Watched.in_full (watched : Watched snapshot config inspection inspectedBytes consumed) (frame : BodyFrame) :
    InFull env snapshot.inspection config.direction config.maximumInspectedBytes
      ⟨frame,consumed,inspection.fed config.direction⟩ :=
  ⟨fun _ _ => watched.fed,fun denied => absurd denied watched.clean⟩

theorem sendBodyFrame_in_full (arrival : Arrival)
    (inFull : InFull env program direction budget sent) :
    ∀ entry ∈ sendBodyFrame arrival sent, InFull env program direction budget entry := by
  intro entry member
  unfold sendBodyFrame at member
  split at member
  · have same : entry = sent := List.mem_singleton.mp member
    exact same ▸ inFull
  · cases member

theorem transformFrame_answers (config : BodyPumpConfig) (inspection : FlowInspector) (data : List UInt8)
    (state : ServiceState) :
    Ensures (transformFrame env config inspection data) state (fun _ _ => True) (fun _ _ => False) := by
  refine ensures_then (ensures_weaken (ensures_attempt (ensures_any _ state)) (fun _ _ _ => trivial)
    (fun _ _ no => no)) ?_
  intro result after _
  cases result with
  | ok | error => exact ensures_pure trivial

theorem pump_in_full (watched : Watched snapshot config inspection inspectedBytes consumed) (body : List Arrival)
    (state : ServiceState) :
    Ensures (pumpInspectedBody env config inspection inspectedBytes consumed body) state
      (fun sent _ => ∀ entry ∈ sent,
        InFull env snapshot.inspection config.direction config.maximumInspectedBytes entry)
      (fun _ _ => False) := by
  induction body generalizing inspection inspectedBytes consumed state with
  | nil => exact ensures_pure (List.forall_mem_nil _)
  | cons arrival rest ih =>
      unfold pumpInspectedBody
      cases arrived : arrival.event with
      | shutdown => exact ensures_pure (List.forall_mem_nil _)
      | timedOut | failed => exact ensures_pure (sendBodyFrame_in_full arrival (watched.in_full _))
      | trailers =>
          dsimp only
          split
          · exact ih watched state
          · split
            · refine ensures_then (ih watched state) ?_
              intro later after inFull
              refine ensures_pure ?_
              intro entry member
              rcases List.mem_append.mp member with now | afterwards
              · exact sendBodyFrame_in_full arrival (watched.in_full _) entry now
              · exact inFull entry afterwards
            · exact ensures_pure (List.forall_mem_nil _)
      | data data =>
          refine ensures_then (inspectFrame_checks watched data state) ?_
          intro result inspected checked
          cases result with
          | error error =>
              refine ensures_pure (sendBodyFrame_in_full arrival ⟨fun _ same => (nomatch same),?_⟩)
              intro _
              rcases checked with ⟨same,_⟩ | ⟨cause,same,unaudited⟩
              · exact .inl (congrArg Except.error same)
              · exact .inr ⟨cause,congrArg Except.error same,unaudited⟩
          | ok passed =>
              obtain ⟨next,count⟩ := passed
              refine ensures_then (transformFrame_answers config next data inspected) ?_
              intro output transformed _
              cases output with
              | error =>
                  exact ensures_pure (sendBodyFrame_in_full arrival (Watched.in_full checked _))
              | ok =>
                  dsimp only
                  split
                  · refine ensures_then (ih checked transformed) ?_
                    intro later after inFull
                    refine ensures_pure ?_
                    intro entry member
                    rcases List.mem_append.mp member with now | afterwards
                    · exact sendBodyFrame_in_full arrival (Watched.in_full checked _) entry now
                    · exact inFull entry afterwards
                  · exact ensures_pure (List.forall_mem_nil _)

theorem collectBounded_fits (maximum : Nat) (body : List Arrival) (fits : bytes.length ≤ maximum)
    (collected : collectBounded maximum bytes body = .ok whole) : whole.length ≤ maximum := by
  induction body generalizing bytes with
  | nil =>
      cases collected
      exact fits
  | cons arrival rest ih =>
      unfold collectBounded at collected
      cases arrived : arrival.event with
      | timedOut | failed => simp only [arrived] at collected; cases collected
      | trailers | shutdown => simp only [arrived] at collected; exact ih fits collected
      | data data =>
          simp only [arrived] at collected
          split at collected
          · cases collected
          · rename_i within
            exact ih (by rw [List.length_append]; omega) collected

variable (env)

def Prepared.AllInFull (program : InspectionProgram) (direction : Direction) (budget : Nat) : Prepared → Prop
  | .refused _ => True
  | .forwarded _ sent => ∀ entry ∈ sent, InFull env program direction budget entry

namespace HttpService

variable (service : HttpService) (state : ServiceState)

variable {env}

theorem fresh : Ensures (FlowInspector.new env service.flow .http service.limits.bodyPrefixBytes) state
    (fun inspection _ => inspection = .ofSnapshot (env.live state.loads) service.flow .http
      service.limits.bodyPrefixBytes) broken := ensures_ok rfl rfl

theorem mode_read : Ensures (inspectionMode env) state
    (fun mode after => mode = (env.live state.loads).inspectionMode ∧ after.loads = state.loads + 1) broken :=
  ensures_ok rfl ⟨rfl,rfl⟩

variable (direction : Direction) (headers : HeaderMap) (bodyMayChange : Bool)

theorem inspectPreflight_whole (bytes : List UInt8) (enforced : (env.live state.loads).enforcement = .enforce)
    (fits : bytes.length ≤ service.limits.bodyPrefixBytes) :
    Ensures (service.inspectPreflight env direction bytes) state
      (fun result _ => result.2 = bytes ∧
        (result.1 = true → ¬ (env.live state.loads).inspection.DenyIn direction bytes))
      (fun _ _ => True) := by
  let snapshot := env.live state.loads
  refine ensures_then (fresh service state) ?_
  intro inspection loaded same
  subst same
  refine ensures_then (ensures_weaken (FlowInspector.permits_exact _ direction bytes loaded)
    (fun _ _ known => known) (fun _ _ _ => trivial)) ?_
  intro answer after known
  obtain ⟨judged,advances⟩ := known
  have shared : FlowInspector.share (.ofSnapshot snapshot service.flow .http service.limits.bodyPrefixBytes)
      direction bytes = bytes := List.take_of_length_le fits
  refine ensures_pure ⟨?_,?_⟩
  · change answer.2.fed direction = bytes
    rw [advances.fed,Function.update_self,shared]
    rfl
  · intro passed denied
    have exact := (judged enforced (InspectionProgram.not_denyIn_nil _ _)).mpr (by rw [shared]; exact denied)
    rw [show answer.1 = true from passed] at exact
    cases exact

theorem preflightBody_in_full (bytes : List UInt8) (enforced : (env.live state.loads).enforcement = .enforce)
    (fits : bytes.length ≤ service.limits.bodyPrefixBytes) :
    Ensures (service.preflightBody env direction headers bytes) state
      (fun prepared _ => prepared.AllInFull env (env.live state.loads).inspection direction
        service.limits.bodyPrefixBytes) (fun _ _ => True) := by
  refine ensures_then (inspectPreflight_whole service state direction bytes enforced fits) ?_
  intro result inspected known
  obtain ⟨verdict,fed⟩ := result
  obtain ⟨whole,clean⟩ := known
  cases verdict with
  | false => exact ensures_pure trivial
  | true =>
      refine ensures_then (ensures_any _ inspected) ?_
      intro transformed after _
      refine ensures_pure (List.forall_mem_singleton.mpr ⟨?_,?_⟩)
      · intro _ _
        exact whole.trans (List.take_of_length_le fits).symm
      · intro denied
        rw [List.take_of_length_le fits] at denied
        exact absurd denied (clean rfl)

theorem prepareInteractiveRequest_in_full (parts : RequestParts) (interactiveUri : Option String) (body : List Arrival)
    (enforced : (env.live state.loads).enforcement = .enforce) :
    Ensures (service.prepareInteractiveRequest env parts interactiveUri body) state
      (fun prepared _ => prepared.AllInFull env (env.live state.loads).inspection .httpRequestBody
        service.limits.bodyPrefixBytes) (fun _ _ => True) := by
  unfold prepareInteractiveRequest
  cases collected : collectBounded service.limits.bodyPrefixBytes [] body with
  | error => exact ensures_pure trivial
  | ok original =>
      have fits := collectBounded_fits _ body (Nat.zero_le _) collected
      refine ensures_then (inspectPreflight_whole service state .httpRequestBody original enforced fits) ?_
      intro result inspected known
      obtain ⟨verdict,fed⟩ := result
      obtain ⟨whole,clean⟩ := known
      cases verdict with
      | false => exact ensures_pure trivial
      | true =>
          refine ensures_then (ensures_any _ inspected) ?_
          intro transformed changed _
          refine ensures_then (ensures_any _ changed) ?_
          intro context contexts _
          refine ensures_then (ensures_any _ contexts) ?_
          intro decision decided _
          cases applyDecision service.limits _ transformed.bytes decision with
          | error => exact ensures_throw trivial
          | ok =>
              refine ensures_pure (List.forall_mem_singleton.mpr ⟨?_,?_⟩)
              · intro _ _
                exact whole.trans (List.take_of_length_le fits).symm
              · intro denied
                rw [List.take_of_length_le fits] at denied
                exact absurd denied (clean rfl)

theorem fresh_watched (config : BodyPumpConfig) (enforced : (env.live state.loads).enforcement = .enforce)
    (paced : Paced (env.live state.loads).inspectionMode (env.live state.loads).inspection
      config.direction config.maximumInspectedBytes) :
    Watched (env.live state.loads) config
      (.ofSnapshot (env.live state.loads) service.flow .http config.maximumInspectedBytes) 0 [] where
  decision := rfl
  enforced := enforced
  paced := paced
  budget := rfl
  counted := (Nat.min_zero _).symm
  inspected := rfl
  fed := List.take_nil.symm
  clean := by
    rw [List.take_nil]
    exact InspectionProgram.not_denyIn_nil _ _

theorem startStreamingInspection_in_full (decodedReplacementAllowed bodyMayChange : Bool) (body : List Arrival)
    (enforced : (env.live state.loads).enforcement = .enforce)
    (paced : Paced (env.live state.loads).inspectionMode (env.live state.loads).inspection direction
      service.limits.bodyPrefixBytes) :
    Ensures (service.startStreamingInspection env direction decodedReplacementAllowed bodyMayChange body) state
      (fun sent _ => ∀ entry ∈ sent, InFull env (env.live state.loads).inspection direction
        service.limits.bodyPrefixBytes entry) (fun _ _ => True) := by
  refine ensures_then (fresh service state) ?_
  intro inspection loaded same
  subst same
  refine ensures_weaken (pump_in_full ?_ body loaded) (fun _ _ inFull => inFull) (fun _ _ no => no.elim)
  exact fresh_watched service state _ enforced paced

theorem streamedBody_in_full (encoded : Refusal) (body : List Arrival)
    (enforced : (env.live state.loads).enforcement = .enforce)
    (paced : Paced (env.live state.loads).inspectionMode (env.live state.loads).inspection direction
      service.limits.bodyPrefixBytes) :
    Ensures (service.streamedBody env direction headers bodyMayChange encoded body) state
      (fun prepared _ => prepared.AllInFull env (env.live state.loads).inspection direction
        service.limits.bodyPrefixBytes) (fun _ _ => True) := by
  unfold streamedBody
  dsimp only
  split
  · exact ensures_pure trivial
  · refine ensures_then (startStreamingInspection_in_full service state _ _ _ body enforced paced) ?_
    intro sent after inFull
    exact ensures_pure inFull

theorem bodyByMode_in_full (uncollected : CollectError → Refusal) (encoded : Refusal) (body : List Arrival)
    (enforced : ∀ load, (env.live load).enforcement = .enforce)
    (steady : (env.live state.loads).inspectionMode = .preflight ∨ Paced (env.live (state.loads + 1)).inspectionMode
      (env.live (state.loads + 1)).inspection direction service.limits.bodyPrefixBytes) :
    Ensures (service.bodyByMode env direction headers bodyMayChange uncollected encoded body) state
      (fun prepared _ => prepared.AllInFull env (env.live (state.loads + 1)).inspection direction
        service.limits.bodyPrefixBytes) (fun _ _ => True) := by
  refine ensures_then (mode_read state) ?_
  intro mode loaded read
  obtain ⟨rfl,later⟩ := read
  rw [← later] at steady ⊢
  cases mode : (env.live state.loads).inspectionMode with
  | preflight =>
      dsimp only
      cases collected : collectBounded service.limits.bodyPrefixBytes [] body with
      | error => exact ensures_pure trivial
      | ok bytes =>
          have fits := collectBounded_fits _ body (Nat.zero_le _) collected
          exact preflightBody_in_full service loaded direction headers bytes (enforced _) fits
  | streaming =>
      have paced := steady.resolve_left (by rw [mode]; exact nofun)
      exact streamedBody_in_full service loaded direction headers bodyMayChange encoded body (enforced _) paced

end HttpService

variable {env}

theorem inspectFrame_passes (reliable : Reliable env) (enforced : inspection.decision.enforcement = .enforce)
    (inspectedBytes : Nat) (data : List UInt8)
    (before : ¬ inspection.decision.inspection.DenyIn config.direction (inspection.fed config.direction))
    (clean : ¬ inspection.decision.inspection.DenyIn config.direction (inspection.fed config.direction ++
      inspection.share config.direction (data.take (min (config.maximumInspectedBytes - inspectedBytes) data.length))))
    (some : min (config.maximumInspectedBytes - inspectedBytes) data.length ≠ 0) (state : ServiceState) :
    Ensures (inspectFrame env config inspection inspectedBytes data) state
      (fun result _ => ∃ next,
        result = .ok (next,inspectedBytes + min (config.maximumInspectedBytes - inspectedBytes) data.length) ∧
        FlowInspector.Advances inspection config.direction
          (data.take (min (config.maximumInspectedBytes - inspectedBytes) data.length)) next)
      (fun _ _ => False) := by
  unfold inspectFrame
  dsimp only
  rw [if_neg some]
  refine ensures_then (ensures_attempt (FlowInspector.permits_exact inspection config.direction _ state)) ?_
  intro result after known
  cases result with
  | error => exact absurd reliable known.1
  | ok answer =>
      obtain ⟨verdict,next⟩ := answer
      obtain ⟨judged,advances⟩ := known
      cases verdict with
      | false => exact absurd ((judged enforced before).mp rfl) clean
      | true => exact ensures_pure ⟨next,rfl,advances⟩

theorem transformFrame_disabled (disabled : env.hooks.mode = .disabled) (data : List UInt8)
    (state : ServiceState) :
    Ensures (transformFrame env config inspection data) state (fun result _ => result = .ok data)
      (fun _ _ => False) := by
  unfold transformFrame
  rw [FlowInspector.transformHttpBody_disabled inspection disabled]
  exact ensures_ok rfl rfl

-- The pump counts on after the inspector has put its whole budget on one frame.
theorem pump_skips (reliable : Reliable env) (disabled : env.hooks.mode = .disabled)
    (flow : Flow) (enforced : snapshot.enforcement = .enforce) (held : snapshot.inspectionMode = .preflight)
    (wide : 2 ≤ config.maximumInspectedBytes)
    (clean : ¬ snapshot.inspection.DenyIn config.direction [byte]) (other : UInt8) (state : ServiceState) :
    Ensures (pumpInspectedBody env config
        (.ofSnapshot snapshot flow .http config.maximumInspectedBytes) 0 []
        [⟨.data [byte],true⟩,⟨.data [other],true⟩]) state
      (fun sent _ => ⟨.ok (.data [other]),[byte,other],[byte]⟩ ∈ sent) (fun _ _ => False) := by
  have one : min (config.maximumInspectedBytes - 0) [byte].length = 1 := by
    rw [List.length_singleton]; omega
  have two : min (config.maximumInspectedBytes - 1) [other].length = 1 := by
    rw [List.length_singleton]; omega
  have shared : FlowInspector.share (.ofSnapshot snapshot flow .http config.maximumInspectedBytes) config.direction
      [byte] = [byte] := List.take_of_length_le (by change 1 ≤ config.maximumInspectedBytes; omega)
  unfold pumpInspectedBody
  refine ensures_then (inspectFrame_passes reliable enforced 0 [byte]
    (InspectionProgram.not_denyIn_nil _ _) (by rw [one,show [byte].take 1 = [byte] from rfl,shared]; exact clean)
    (by rw [one]; exact one_ne_zero) state) ?_
  intro result inspected known
  obtain ⟨next,rfl,advances⟩ := known
  rw [one] at advances ⊢
  have fed : next.fed config.direction = [byte] := by
    rw [advances.fed,Function.update_self]
    exact shared
  have spent : next.inspected config.direction = next.maximumInspectedBytes := by
    rw [advances.budget]
    exact advances.preflight held (by rw [show [byte].take 1 = [byte] from rfl,shared]; exact List.cons_ne_nil _ _)
  have none : ∀ bytes, next.share config.direction bytes = [] := by
    intro bytes
    unfold FlowInspector.share
    rw [spent,Nat.sub_self,List.take_zero]
  refine ensures_then (transformFrame_disabled disabled [byte] inspected) ?_
  intro output transformed same
  subst same
  dsimp only
  rw [if_pos rfl]
  have later : Ensures (pumpInspectedBody env config next (0 + 1) ([] ++ [byte]) [⟨.data [other],true⟩])
      transformed (fun sent _ => ⟨.ok (.data [other]),[byte,other],[byte]⟩ ∈ sent) (fun _ _ => False) := by
    unfold pumpInspectedBody
    have clear : ¬ next.decision.inspection.DenyIn config.direction (next.fed config.direction) := by
      rw [advances.decision,fed]; exact clean
    refine ensures_then (inspectFrame_passes reliable (by rw [advances.decision]; exact enforced) (0 + 1)
      [other] clear (by rw [none,List.append_nil]; exact clear) (by rw [two]; exact one_ne_zero) transformed) ?_
    intro result again known
    obtain ⟨final,rfl,advanced⟩ := known
    have still : final.fed config.direction = [byte] := by
      rw [advanced.fed,Function.update_self,none,List.append_nil,fed]
    refine ensures_then (transformFrame_disabled disabled [other] again) ?_
    intro output done same
    subst same
    dsimp only
    rw [if_pos rfl,still]
    exact ensures_pure (List.mem_append_left _ List.mem_cons_self)
  refine ensures_then later ?_
  intro sent after member
  exact ensures_pure (List.mem_append_right _ member)

variable (env)

-- The condition on what is live at the handler's two loads: the inspector paces
-- itself like the handler that started it.
def Steady (service : HttpService) (side : BodySide) (state : ServiceState) : Prop :=
  (side = .request ∧ env.hooks.mode = .interactive) ∨
    (env.live state.loads).inspectionMode = .preflight ∨
    Paced (env.live (state.loads + 1)).inspectionMode (env.live (state.loads + 1)).inspection
      side.direction service.limits.bodyPrefixBytes

def DeliveredInFull (service : HttpService) (exchange : Exchange) (side : BodySide) (body : List Arrival)
    (state : ServiceState) : Prop :=
  Ensures (service.deliverBody env exchange side body) state
    (fun prepared _ => ∃ load, prepared.AllInFull env (env.live load).inspection side.direction
      service.limits.bodyPrefixBytes) (fun _ _ => True)

variable {env}

theorem deliverBody_steady (service : HttpService) (side : BodySide) (state : ServiceState)
    (enforced : ∀ load, (env.live load).enforcement = .enforce) (steady : Steady env service side state)
    (exchange : Exchange) (body : List Arrival) : DeliveredInFull env service exchange side body state := by
  cases side with
  | request =>
      unfold DeliveredInFull HttpService.deliverBody HttpService.prepareRequestBody
      dsimp only
      split
      · refine ensures_weaken (HttpService.prepareInteractiveRequest_in_full service state _ _ body
          (enforced _)) ?_ (fun _ _ _ => trivial)
        exact fun _ _ inFull => ⟨_,inFull⟩
      · rename_i direct
        have modes := steady.resolve_left (fun interactive => direct interactive.2)
        refine ensures_weaken (HttpService.bodyByMode_in_full service state _ _ _ _ _ body enforced modes) ?_
          (fun _ _ _ => trivial)
        exact fun _ _ inFull => ⟨_,inFull⟩
  | response =>
      unfold DeliveredInFull HttpService.deliverBody HttpService.finishResponseBody
      dsimp only
      split
      · exact ensures_pure ⟨0,List.forall_mem_nil _⟩
      · have modes := steady.resolve_left (fun interactive => (nomatch interactive.1))
        refine ensures_weaken (HttpService.bodyByMode_in_full service state _ _ _ _ _ body enforced modes) ?_
          (fun _ _ _ => trivial)
        exact fun _ _ inFull => ⟨_,inFull⟩

theorem bodyByMode_skips (service : HttpService) (state : ServiceState) (reliable : Reliable env)
    (disabled : env.hooks.mode = .disabled) (direction : Direction) (uncollected : CollectError → Refusal)
    (encoded : Refusal) (enforced : ∀ load, (env.live load).enforcement = .enforce)
    (handler : (env.live state.loads).inspectionMode = .streaming)
    (inspector : (env.live (state.loads + 1)).inspectionMode = .preflight)
    (wide : 2 ≤ service.limits.bodyPrefixBytes)
    (clean : ¬ (env.live (state.loads + 1)).inspection.DenyIn direction [byte]) (other : UInt8) :
    Ensures (service.bodyByMode env direction .empty false uncollected encoded
        [⟨.data [byte],true⟩,⟨.data [other],true⟩]) state
      (fun prepared _ => ∃ headers sent, prepared = .forwarded headers sent ∧
        ⟨.ok (.data [other]),[byte,other],[byte]⟩ ∈ sent) (fun _ _ => False) := by
  refine ensures_then (HttpService.mode_read state) ?_
  intro mode loaded read
  obtain ⟨rfl,later⟩ := read
  rw [← later] at inspector clean
  rw [handler]
  dsimp only
  have skipped : Ensures (service.startStreamingInspection env direction true false
      [⟨.data [byte],true⟩,⟨.data [other],true⟩]) loaded
      (fun sent _ => ⟨.ok (.data [other]),[byte,other],[byte]⟩ ∈ sent) (fun _ _ => False) := by
    refine ensures_then (HttpService.fresh service loaded) ?_
    intro inspection started same
    subst same
    exact pump_skips reliable disabled service.flow (enforced _) inspector wide clean other started
  refine ensures_then skipped ?_
  intro sent after member
  exact ensures_pure ⟨_,_,rfl,member⟩

theorem deliverBody_skips (service : HttpService) (side : BodySide) (state : ServiceState)
    (reliable : Reliable env) (disabled : env.hooks.mode = .disabled)
    (enforced : ∀ load, (env.live load).enforcement = .enforce)
    (unsteady : ¬ Steady env service side state) :
    ∃ exchange body, ¬ DeliveredInFull env service exchange side body state := by
  unfold Steady Paced at unsteady
  simp only [not_or,not_forall,not_le] at unsteady
  obtain ⟨_,handler,inspector,wide,byte,clean⟩ := unsteady
  have handler : (env.live state.loads).inspectionMode = .streaming := by
    cases mode : (env.live state.loads).inspectionMode with
    | streaming => rfl
    | preflight => exact absurd mode handler
  have inspector : (env.live (state.loads + 1)).inspectionMode = .preflight := by
    cases mode : (env.live (state.loads + 1)).inspectionMode with
    | preflight => rfl
    | streaming => exact absurd mode inspector
  have skips := fun uncollected encoded => bodyByMode_skips service state reliable disabled side.direction
    uncollected encoded enforced handler inspector wide clean 0
  refine ⟨⟨⟨"GET","/",.http11,.empty⟩,none,200,.empty⟩,[⟨.data [byte],true⟩,⟨.data [0],true⟩],?_⟩
  intro inFull
  have skipped : Ensures (service.deliverBody env ⟨⟨"GET","/",.http11,.empty⟩,none,200,.empty⟩ side
      [⟨.data [byte],true⟩,⟨.data [0],true⟩]) state
      (fun prepared _ => ∃ headers sent, prepared = .forwarded headers sent ∧
        ⟨.ok (.data [0]),[byte,0],[byte]⟩ ∈ sent) (fun _ _ => False) := by
    cases side with
    | request =>
        have quiet : env.hooks.mayMutateRequestBody = false := by
          simp [HookRunner.mayMutateRequestBody,disabled]
        unfold HttpService.deliverBody HttpService.prepareRequestBody
        dsimp only
        rw [if_neg (by rw [disabled]; intro same; cases same),quiet]
        exact skips _ _
    | response =>
        have quiet : env.hooks.mayMutateResponseBody = false := by
          simp [HookRunner.mayMutateResponseBody,disabled]
        unfold HttpService.deliverBody HttpService.finishResponseBody
        dsimp only
        rw [if_neg (by decide),quiet]
        exact skips _ _
  obtain ⟨prepared,after,⟨load,all⟩,headers,sent,rfl,member⟩ := ensures_meet inFull skipped
  have fed : [byte] = [byte,0].take service.limits.bodyPrefixBytes := (all _ member).fed [0] rfl
  rw [List.take_of_length_le (show [byte,0].length ≤ _ from wide)] at fed
  cases fed

variable (env)

-- Every placement of reloads around an exchange: the body is inspected in full
-- whenever the two loads agree on the pacing, and, with hooks off and auditing that
-- cannot fail, only then.
theorem deliverBody_inspects_in_full (service : HttpService) (side : BodySide) (state : ServiceState)
    (enforced : ∀ load, (env.live load).enforcement = .enforce) :
    (Steady env service side state →
      ∀ exchange body, DeliveredInFull env service exchange side body state) ∧
    (Reliable env → env.hooks.mode = .disabled →
      (∀ exchange body, DeliveredInFull env service exchange side body state) →
      Steady env service side state) := by
  constructor
  · intro steady
    exact deliverBody_steady service side state enforced steady
  · intro reliable disabled delivered
    by_contra unsteady
    obtain ⟨exchange,body,skipped⟩ := deliverBody_skips service side state reliable disabled enforced unsteady
    exact skipped (delivered exchange body)

def reloadedSnapshot (mode : InspectionMode) : PolicySnapshot :=
  {policy := ⟨.initial,[],.allow,by decide⟩,destinationGuard := .new ⟨.protect,.protect,.protect,.protect⟩
   enforcement := .enforce,inspectionMode := mode,inspection := StreamScanner.abaProgram}

-- The mode goes from streaming to preflight before the load of the given number.
def reloadedEnvironment (reload : Nat) : Environment :=
  {live := fun load => reloadedSnapshot (if load < reload then .streaming else .preflight)
   now := fun reading => reading,channel := fun _ => .ready,failurePolicy := .failClosed
   lookupHost := fun _ _ => .failed,sha256 := fun _ => StreamScanner.abaDigest,capturePrefixBytes := none
   hooks := ⟨.disabled,⟨[],[],[],[]⟩,.failClosed⟩,interactive := none}

def smallService : HttpService := ⟨⟨⟨1⟩,some ⟨2⟩⟩,⟨8192,64⟩⟩

def plainExchange : Exchange := ⟨⟨"POST","/",.http11,.empty⟩,none,200,.empty⟩

def cutBody : List Arrival := [⟨.data (ascii "ab"),true⟩,⟨.data (ascii "a"),true⟩]

-- With the reload after both loads the denied pattern ends the body.
theorem deliverBody_inspects_in_full_steady :
    (∀ load, ((reloadedEnvironment 2).live load).enforcement = .enforce) ∧
      DeliveredInFull (reloadedEnvironment 2) smallService plainExchange .request cutBody idleState ∧
      answerOf ((smallService.deliverBody (reloadedEnvironment 2) plainExchange .request cutBody).run idleState) =
        some (.forwarded .empty [⟨.ok (.data (ascii "ab")),ascii "ab",ascii "ab"⟩,
          ⟨.error .inspectionBlocked,ascii "aba",ascii "ab"⟩]) :=
  ⟨fun _ => rfl,
   (deliverBody_inspects_in_full (reloadedEnvironment 2) smallService .request idleState (fun _ => rfl)).1
     (.inr (.inr (.inl rfl))) plainExchange cutBody,by decide +kernel⟩

-- A reload between the handler's load and the inspector's lets the pattern out.
theorem reload_between_loads_forwards_denied :
    answerOf ((smallService.deliverBody (reloadedEnvironment 1) plainExchange .request cutBody).run idleState) =
        some (.forwarded .empty [⟨.ok (.data (ascii "ab")),ascii "ab",ascii "ab"⟩,
          ⟨.ok (.data (ascii "a")),ascii "aba",ascii "ab"⟩]) ∧
      StreamScanner.abaProgram.DenyIn .httpRequestBody (ascii "aba") ∧
      ¬ DeliveredInFull (reloadedEnvironment 1) smallService plainExchange .request cutBody idleState := by
  have answered : answerOf ((smallService.deliverBody (reloadedEnvironment 1) plainExchange .request cutBody).run
      idleState) = some (.forwarded .empty [⟨.ok (.data (ascii "ab")),ascii "ab",ascii "ab"⟩,
        ⟨.ok (.data (ascii "a")),ascii "aba",ascii "ab"⟩]) := by decide +kernel
  refine ⟨answered,?_,?_⟩
  · exact ⟨StreamScanner.abaPattern,by decide,rfl,0,by decide⟩
  · intro delivered
    obtain ⟨after,done⟩ := answerOf_ok answered
    obtain ⟨load,all⟩ := ensures_answer delivered done
    have fed : ascii "ab" = (ascii "aba").take 64 :=
      (all ⟨.ok (.data (ascii "a")),ascii "aba",ascii "ab"⟩ (by decide)).fed (ascii "a") rfl
    exact absurd fed (by decide)

end Freja.Proxy
