import Freja.Proxy.Services
import Mathlib.Data.List.Dedup
import Mathlib.Data.List.Sort

namespace Freja.Proxy
open Domain Policy Audit Effect IpAddress

-- The order of socket addresses: IPv4 before IPv6, then address, then port.
def addressKey (address : SocketAddr) : Nat :=
  (address.ip.width * 2^128 + address.ip.toNat) * 65536 + address.port.value

def collectSet (addresses : List SocketAddr) : List SocketAddr :=
  addresses.dedup.insertionSort (fun a b => addressKey a ≤ addressKey b)

variable (env : Environment)

def lookupAnswer (host : HostName) (port : Port) : Except ProxyError (List SocketAddr) :=
  match env.lookupHost host port with
  | .answered addresses => .ok addresses
  | .failed => .error (.dns host.text)
  | .timedOut => .error (.dnsTimedOut host.text)
  | .shutdown => .error .shutdown

def candidates (requested : RequestedTargetFacts) : Except ProxyError (List SocketAddr) :=
  match requested.requestedHost with
  | .ip address => .ok [⟨address,requested.destinationPort⟩]
  | .name host => lookupAnswer env host requested.destinationPort

def resolve (requested : RequestedTargetFacts) : Except ProxyError (List SocketAddr) :=
  match candidates env requested with
  | .error error => .error error
  | .ok found =>
      let addresses := collectSet found
      if addresses.isEmpty then .error (.noResolvedAddresses requested.requestedHost.asHostText) else .ok addresses

def detourTo (selected : RequestedTargetFacts) (destination : UpstreamEndpoint) : RequestedTargetFacts :=
  {selected with requestedHost := destination.host,destinationPort := destination.port}

def authorizeLoop (snapshot : PolicySnapshot) (flow : Flow) (selected : RequestedTargetFacts) (detoured : Bool) :
    Task RequestedTargetFacts := do
  publishReplayFacts env flow (.requested selected)
  let decision := snapshot.policy.evaluate (.requested selected)
  publishDecision env flow decision
  match decision.action with
  | .tcpDetour detour =>
      if snapshot.permits decision then return selected
      else
        recordAction env flow decision
        if _ : detoured = true then throw (.detourLoop decision)
        else authorizeLoop snapshot flow (detourTo selected detour.destination) true
  | _ =>
      if snapshot.permits decision then return selected
      else
        recordAction env flow decision
        throw (.policyDenied decision)
termination_by if detoured then 0 else 1
decreasing_by simp_all

def authorizeRequestedTarget (snapshot : PolicySnapshot) (flow : Flow) (requested : RequestedTargetFacts) :
    Task RequestedTargetFacts :=
  authorizeLoop env snapshot flow requested false

def rememberDenial (snapshot : PolicySnapshot) (decision : Decision) (firstDenial : Option Decision) : Option Decision :=
  if !snapshot.permits decision && firstDenial.isNone then some decision else firstDenial

def evaluateGuard (snapshot : PolicySnapshot) (flow : Flow) (resolved : ResolvedTargetFacts)
    (firstDenial : Option Decision) : Task (Option Decision) :=
  match snapshot.destinationGuard.evaluate snapshot.policy.generation resolved with
  | none => return firstDenial
  | some decision => do
      publishDecision env flow decision
      return rememberDenial snapshot decision firstDenial

def authorizeAddresses (snapshot : PolicySnapshot) (flow : Flow) (selected : RequestedTargetFacts) :
    List SocketAddr → Option Decision → Task (Option Decision)
  | [],firstDenial => return firstDenial
  | address :: rest,firstDenial => do
      let resolved : ResolvedTargetFacts := ⟨selected,address.ip⟩
      publishReplayFacts env flow (.resolved resolved)
      let guarded ← evaluateGuard env snapshot flow resolved firstDenial
      let decision := snapshot.policy.evaluate (.resolved resolved)
      publishDecision env flow decision
      if decision.action.isDetour && !snapshot.permits decision then
        recordAction env flow decision
        throw (.detourLoop decision)
      else authorizeAddresses snapshot flow selected rest (rememberDenial snapshot decision guarded)

def authorizeResolvedTargets (snapshot : PolicySnapshot) (flow : Flow) (selected : RequestedTargetFacts)
    (addresses : List SocketAddr) : Task Unit := do
  let firstDenial ← authorizeAddresses env snapshot flow selected addresses none
  match firstDenial with
  | none => return ()
  | some decision =>
      recordAction env flow decision
      throw (.policyDenied decision)

def authorizeAndResolve (flow : Flow) (requested : RequestedTargetFacts) : Task (List SocketAddr) := do
  let snapshot ← decisionSnapshot env
  let selected ← authorizeRequestedTarget env snapshot flow requested
  let addresses ← MonadExcept.ofExcept (resolve env selected)
  publishEvent env flow (.targetResolved selected.requestedHost.asHostText (addresses.map (·.ip)))
  authorizeResolvedTargets env snapshot flow selected addresses
  return addresses

-- Each evaluation of a requested target puts exactly one such event forward.
def isRequestedEvaluation : AuditEvent → Bool
  | .aclEvaluated decision => decision.trace.evaluatedStage == .requestedDestination
  | _ => false

def requestedEvaluations (state : ServiceState) : Nat :=
  state.attempted.countP (fun envelope => isRequestedEvaluation envelope.event)

theorem Emits.evaluations (emitted : Emits state after event) :
    requestedEvaluations after = requestedEvaluations state + (isRequestedEvaluation event).toNat := by
  obtain ⟨context,appended⟩ := emitted.appended
  unfold requestedEvaluations
  rw [appended,List.countP_append,List.countP_singleton]
  cases isRequestedEvaluation event <;> rfl

theorem Emits.silent (emitted : Emits state after event) (quiet : isRequestedEvaluation event = false) :
    requestedEvaluations after = requestedEvaluations state := by
  rw [emitted.evaluations,quiet]
  rfl

variable {env}

theorem publishWith_silent (flow : Flow) (event : AuditEvent) (adjust : AuditContext → AuditContext)
    (quiet : isRequestedEvaluation event = false) (state : ServiceState) :
    Leaves (publishWith env flow event adjust) state
      (fun after => requestedEvaluations after = requestedEvaluations state) :=
  ensures_weaken (publishWith_emits flow event adjust state) (fun _ _ emitted => emitted.silent quiet)
    (fun _ _ failed => failed.1.silent quiet)

-- The target a request ends up with: its own, or where one matching detour rule
-- sends it, with the client and the protocol kept.
inductive Selects (policy : AclPolicy) (requested : RequestedTargetFacts) : RequestedTargetFacts → Prop
  | direct : Selects policy requested requested
  | detour (rule : AclRule) (reasons : List MatchReason) (destination : UpstreamEndpoint) (member : rule ∈ policy.rules)
      (matched : evaluateExpression (.requested requested) rule.matcher = .matched reasons)
      (action : rule.action = .detour destination) : Selects policy requested (detourTo requested destination)

def passes (detoured : Bool) : Nat := if detoured then 1 else 2

theorem authorizeLoop_spec (snapshot : PolicySnapshot) (flow : Flow) (selected : RequestedTargetFacts) (detoured : Bool)
    (state : ServiceState) :
    Ensures (authorizeLoop env snapshot flow selected detoured) state
      (fun target after => snapshot.permits (snapshot.policy.evaluate (.requested target)) = true ∧
        (target = selected ∨ detoured = false ∧ Selects snapshot.policy selected target) ∧
        requestedEvaluations after ≤ requestedEvaluations state + passes detoured)
      (fun _ after => requestedEvaluations after ≤ requestedEvaluations state + passes detoured) := by
  have least : 1 ≤ passes detoured := by cases detoured <;> decide
  rw [authorizeLoop]
  refine ensures_bind (ensures_weaken (publishWith_silent _ _ _ rfl state) ?_ (fun _ _ same => by omega))
  intro _ observed before
  refine ensures_bind (ensures_weaken (publishWith_emits _ _ _ observed) ?_ ?_)
  case refine_2 =>
    rintro _ after ⟨emitted,_⟩
    have once := Bool.toNat_le (isRequestedEvaluation (.aclEvaluated (snapshot.policy.evaluate (.requested selected))))
    rw [emitted.evaluations]
    omega
  intro _ evaluated emitted
  have counted : requestedEvaluations evaluated = requestedEvaluations state + 1 := by
    rw [emitted.evaluations,before]
    simp [isRequestedEvaluation,PolicyFacts.stage]
  split
  · rename_i detour action
    split
    · rename_i permitted
      exact ensures_pure ⟨permitted,.inl rfl,by omega⟩
    · refine ensures_bind (ensures_weaken (publishWith_silent _ _ _ rfl evaluated) ?_
        (fun _ _ same => by omega))
      intro _ recorded kept
      split
      · exact ensures_throw (by omega)
      · rename_i once
        have fresh : detoured = false := by simpa using once
        subst fresh
        obtain ⟨rule,member,reasons,matched,detours⟩ := snapshot.policy.evaluate_detour _ _ action
        have later := authorizeLoop_spec snapshot flow (detourTo selected detour.destination) true recorded
        simp only [passes,if_true,Bool.false_eq_true,if_false] at later ⊢
        refine ensures_weaken later ?_ (fun _ _ bound => by omega)
        rintro target after ⟨permitted,same | ⟨no,_⟩,bound⟩
        · subst same
          exact ⟨permitted,.inr ⟨trivial,.detour rule reasons _ member matched detours⟩,by omega⟩
        · cases no
  · split
    · rename_i permitted
      exact ensures_pure ⟨permitted,.inl rfl,by omega⟩
    · refine ensures_bind (ensures_weaken (publishWith_silent _ _ _ rfl evaluated) ?_
        (fun _ _ same => by omega))
      intro _ recorded kept
      exact ensures_throw (by omega)
termination_by if detoured then 0 else 1
decreasing_by simp_all

theorem rememberDenial_none (snapshot : PolicySnapshot) (decision : Decision) (firstDenial : Option Decision) :
    rememberDenial snapshot decision firstDenial = none ↔ snapshot.permits decision = true ∧ firstDenial = none := by
  unfold rememberDenial
  cases snapshot.permits decision <;> cases firstDenial <;> simp

def GuardPermits (snapshot : PolicySnapshot) (resolved : ResolvedTargetFacts) : Prop :=
  ∀ decision, snapshot.destinationGuard.evaluate snapshot.policy.generation resolved = some decision →
    snapshot.permits decision = true

def AddressPermitted (snapshot : PolicySnapshot) (resolved : ResolvedTargetFacts) : Prop :=
  GuardPermits snapshot resolved ∧ snapshot.permits (snapshot.policy.evaluate (.resolved resolved)) = true

theorem evaluateGuard_spec (snapshot : PolicySnapshot) (flow : Flow) (resolved : ResolvedTargetFacts)
    (firstDenial : Option Decision) (state : ServiceState) :
    Ensures (evaluateGuard env snapshot flow resolved firstDenial) state
      (fun denial after => (denial = none → firstDenial = none ∧ GuardPermits snapshot resolved) ∧
        requestedEvaluations after = requestedEvaluations state)
      (fun _ after => requestedEvaluations after = requestedEvaluations state) := by
  unfold evaluateGuard GuardPermits
  cases outcome : snapshot.destinationGuard.evaluate snapshot.policy.generation resolved with
  | none => exact ensures_pure ⟨fun clear => ⟨clear,nofun⟩,rfl⟩
  | some decision =>
      have stage := snapshot.destinationGuard.evaluate_stage _ _ _ outcome
      refine ensures_bind (ensures_weaken (publishWith_silent _ _ _ (by simp [isRequestedEvaluation,stage]) state)
        ?_ (fun _ _ same => same))
      intro _ after same
      refine ensures_pure ⟨fun clear => ?_,same⟩
      obtain ⟨permitted,earlier⟩ := (rememberDenial_none snapshot decision firstDenial).mp clear
      exact ⟨earlier,fun other found => Option.some.inj found ▸ permitted⟩

theorem authorizeAddresses_spec (snapshot : PolicySnapshot) (flow : Flow) (selected : RequestedTargetFacts)
    (addresses : List SocketAddr) (firstDenial : Option Decision) (state : ServiceState) :
    Ensures (authorizeAddresses env snapshot flow selected addresses firstDenial) state
      (fun denial after => (denial = none → firstDenial = none ∧
          ∀ address ∈ addresses, AddressPermitted snapshot ⟨selected,address.ip⟩) ∧
        requestedEvaluations after = requestedEvaluations state)
      (fun _ after => requestedEvaluations after = requestedEvaluations state) := by
  induction addresses generalizing firstDenial state with
  | nil => exact ensures_pure ⟨fun clear => ⟨clear,nofun⟩,rfl⟩
  | cons address rest ih =>
      rw [authorizeAddresses]
      refine ensures_bind (ensures_weaken (publishWith_silent _ _ _ rfl state) ?_ (fun _ _ same => same))
      intro _ observed first
      refine ensures_bind (ensures_weaken (evaluateGuard_spec snapshot flow _ firstDenial observed) ?_
        (fun _ _ same => by omega))
      rintro guarded checked ⟨cleared,second⟩
      refine ensures_bind (ensures_weaken (publishWith_silent _ _ _
        (by simp [isRequestedEvaluation,PolicyFacts.stage]) checked) ?_ (fun _ _ same => by omega))
      intro _ evaluated third
      split
      · refine ensures_bind (ensures_weaken (publishWith_silent _ _ _ rfl evaluated) ?_
          (fun _ _ same => by omega))
        intro _ recorded fourth
        exact ensures_throw (by omega)
      · refine ensures_weaken (ih _ evaluated) ?_ (fun _ _ same => by omega)
        rintro denial after ⟨rest_,same⟩
        refine ⟨fun clear => ?_,by omega⟩
        obtain ⟨kept,others⟩ := rest_ clear
        obtain ⟨permitted,guardClear⟩ := (rememberDenial_none _ _ _).mp kept
        obtain ⟨earlier,guardPermits⟩ := cleared guardClear
        refine ⟨earlier,fun other member => ?_⟩
        rcases List.mem_cons.mp member with rfl | later
        · exact ⟨guardPermits,permitted⟩
        · exact others other later

theorem authorizeResolvedTargets_spec (snapshot : PolicySnapshot) (flow : Flow) (selected : RequestedTargetFacts)
    (addresses : List SocketAddr) (state : ServiceState) :
    Ensures (authorizeResolvedTargets env snapshot flow selected addresses) state
      (fun _ after => (∀ address ∈ addresses, AddressPermitted snapshot ⟨selected,address.ip⟩) ∧
        requestedEvaluations after = requestedEvaluations state)
      (fun _ after => requestedEvaluations after = requestedEvaluations state) := by
  refine ensures_bind (ensures_weaken (authorizeAddresses_spec snapshot flow selected addresses none state) ?_
    (fun _ _ same => same))
  rintro denial checked ⟨cleared,same⟩
  cases denial with
  | none => exact ensures_pure ⟨(cleared rfl).2,same⟩
  | some =>
      refine ensures_bind (ensures_weaken (publishWith_silent _ _ _ rfl checked) ?_
        (fun _ _ still => by omega))
      intro _ recorded still
      exact ensures_throw (by omega)

theorem mem_collectSet (addresses : List SocketAddr) (address : SocketAddr) :
    address ∈ collectSet addresses ↔ address ∈ addresses := by
  rw [collectSet,List.mem_insertionSort,List.mem_dedup]

theorem resolve_parts (requested : RequestedTargetFacts) (addresses : List SocketAddr)
    (resolved : resolve env requested = .ok addresses) :
    ∃ found, candidates env requested = .ok found ∧ ∀ address, address ∈ addresses ↔ address ∈ found := by
  unfold resolve at resolved
  cases answers : candidates env requested with
  | error => simp [answers] at resolved
  | ok found =>
      simp only [answers] at resolved
      split at resolved
      · cases resolved
      · cases resolved
        exact ⟨found,rfl,mem_collectSet found⟩

theorem ofExcept_spec (outcome : Except ProxyError α) (state : ServiceState) :
    Ensures (MonadExcept.ofExcept outcome : Task α) state (fun value after => outcome = .ok value ∧ after = state)
      (fun _ after => after = state) := by
  cases outcome with
  | ok => exact ensures_ok rfl ⟨rfl,rfl⟩
  | error => exact ensures_error rfl rfl

theorem authorizeAndResolve_bounded (flow : Flow) (requested : RequestedTargetFacts) (state : ServiceState) :
    Leaves (authorizeAndResolve env flow requested) state
      (fun after => requestedEvaluations after ≤ requestedEvaluations state + 2) := by
  let start := {state with loads := state.loads + 1}
  refine ensures_bind (ensures_ok rfl ?_)
  change Ensures (authorizeRequestedTarget env (env.live state.loads) flow requested >>= _) start _ _
  refine ensures_then (authorizeLoop_spec (env.live state.loads) flow requested false start) ?_
  rintro selected middle ⟨_,_,bound⟩
  change requestedEvaluations middle ≤ requestedEvaluations state + 2 at bound
  refine ensures_bind (ensures_weaken (ofExcept_spec (resolve env selected) middle) ?_ ?_)
  case refine_2 =>
    rintro _ after rfl
    exact bound
  rintro addresses _ ⟨_,rfl⟩
  refine ensures_bind (ensures_weaken (publishWith_silent _ _ _ rfl _) ?_ (fun _ _ same => by omega))
  intro _ announced same
  refine ensures_bind (ensures_weaken (authorizeResolvedTargets_spec _ flow selected addresses announced) ?_
    (fun _ _ kept => by omega))
  rintro _ after ⟨_,kept⟩
  exact ensures_pure (by omega)

theorem authorizeAndResolve_parts (flow : Flow) (requested : RequestedTargetFacts) (state after : ServiceState)
    (addresses : List SocketAddr)
    (answered : (authorizeAndResolve env flow requested).run state = .ok addresses after) :
    let snapshot := env.live state.loads
    ∃ selected middle,
      (authorizeRequestedTarget env snapshot flow requested).run {state with loads := state.loads + 1} =
        .ok selected middle ∧
      resolve env selected = .ok addresses ∧
      ∀ address ∈ addresses, AddressPermitted snapshot ⟨selected,address.ip⟩ := by
  obtain ⟨snapshot,start,loaded,rest⟩ := bind_ok.mp answered
  cases loaded
  obtain ⟨selected,middle,authorized,rest⟩ := bind_ok.mp rest
  obtain ⟨found,kept,resolved,rest⟩ := bind_ok.mp rest
  obtain ⟨sound,_⟩ := ensures_answer (ofExcept_spec (resolve env selected) middle) resolved
  obtain ⟨_,announced,_,rest⟩ := bind_ok.mp rest
  obtain ⟨_,checked,permitted,rest⟩ := bind_ok.mp rest
  cases rest
  exact ⟨selected,middle,authorized,sound,
    (ensures_answer (authorizeResolvedTargets_spec _ flow selected addresses announced) permitted).1⟩

theorem enforced_permits (snapshot : PolicySnapshot) (enforced : snapshot.enforcement = .enforce) (decision : Decision) :
    snapshot.permits decision = true ↔ decision.action = .allow := by
  simp [PolicySnapshot.permits,enforced]

theorem enforced_address (snapshot : PolicySnapshot) (enforced : snapshot.enforcement = .enforce)
    (resolved : ResolvedTargetFacts) :
    AddressPermitted snapshot resolved ↔
      snapshot.destinationGuard.evaluate snapshot.policy.generation resolved = none ∧
        (snapshot.policy.evaluate (.resolved resolved)).action = .allow := by
  unfold AddressPermitted GuardPermits
  simp only [enforced_permits snapshot enforced]
  refine and_congr ?_ Iff.rfl
  cases outcome : snapshot.destinationGuard.evaluate snapshot.policy.generation resolved with
  | none => exact ⟨fun _ => rfl,fun _ => nofun⟩
  | some decision =>
      have denies := snapshot.destinationGuard.evaluate_denies _ _ _ outcome
      exact ⟨fun allowed => absurd (allowed decision rfl) denies,nofun⟩

variable (env)

theorem authorizeAndResolve_sound (flow : Flow) (requested : RequestedTargetFacts) (state : ServiceState)
    (enforced : (env.live state.loads).enforcement = .enforce) :
    let snapshot := env.live state.loads
    let start := {state with loads := state.loads + 1}
    let outcome := (authorizeAndResolve env flow requested).run state
    let allowed (selected : RequestedTargetFacts) (address : SocketAddr) :=
      snapshot.destinationGuard.evaluate snapshot.policy.generation ⟨selected,address.ip⟩ = none ∧
        (snapshot.policy.evaluate (.resolved ⟨selected,address.ip⟩)).action = .allow
    (∀ addresses after, outcome = .ok addresses after →
      ∃ selected found, Selects snapshot.policy requested selected ∧
        (snapshot.policy.evaluate (.requested selected)).action = .allow ∧
        candidates env selected = .ok found ∧ (∀ address, address ∈ addresses ↔ address ∈ found) ∧
        ∀ address ∈ addresses, allowed selected address) ∧
    (∀ selected middle addresses,
      (authorizeRequestedTarget env snapshot flow requested).run start = .ok selected middle →
      resolve env selected = .ok addresses → (∃ address ∈ addresses, ¬ allowed selected address) →
      ∃ error after, outcome = .error error after) ∧
    Leaves (authorizeAndResolve env flow requested) state
      (fun after => requestedEvaluations after ≤ requestedEvaluations state + 2) := by
  intro snapshot start outcome allowed
  have steps (addresses : List SocketAddr) (after : ServiceState) (answered : outcome = .ok addresses after) :=
    authorizeAndResolve_parts flow requested state after addresses answered
  refine ⟨?_,?_,authorizeAndResolve_bounded flow requested state⟩
  · intro addresses after answered
    obtain ⟨selected,middle,authorized,resolved,permitted⟩ := steps addresses after answered
    obtain ⟨cleared,choice,_⟩ :=
      ensures_answer (authorizeLoop_spec snapshot flow requested false start) authorized
    obtain ⟨found,answers,members⟩ := resolve_parts selected addresses resolved
    refine ⟨selected,found,?_,(enforced_permits snapshot enforced _).mp cleared,answers,members,?_⟩
    · rcases choice with rfl | ⟨_,selects⟩
      · exact .direct
      · exact selects
    · exact fun address member => (enforced_address snapshot enforced _).mp (permitted address member)
  · rintro selected middle addresses authorized resolved ⟨address,member,denied⟩
    cases done : outcome with
    | error error after => exact ⟨error,after,rfl⟩
    | ok returned after =>
        obtain ⟨same,other,again,answers,permitted⟩ := steps returned after done
        cases authorized.symm.trans again
        cases resolved.symm.trans answers
        exact absurd ((enforced_address snapshot enforced _).mp (permitted address member)) denied

def detourHost : HostName := ⟨"api.test",by decide,by decide⟩

def detourRule : AclRule :=
  {id := ⟨"detour-api",by decide⟩
   matcher := .all [.protocol .tcp,.destinationHost (.exact detourHost)]
   action := .detour ⟨.ip (.v4 203 0 113 7),⟨8443,by decide⟩⟩}

def detourEnvironment : Environment :=
  {live := fun _ =>
     {policy := ⟨.initial,[detourRule],.allow,by decide⟩
      destinationGuard := .new ⟨.protect,.protect,.protect,.protect⟩
      enforcement := .enforce,inspectionMode := .streaming,inspection := .empty .initial}
   now := fun reading => reading,channel := fun _ => .ready,failurePolicy := .failClosed
   lookupHost := fun _ _ => .failed,sha256 := fun _ => Vector.replicate 32 0,capturePrefixBytes := none
   hooks := ⟨.disabled,⟨[],[],[],[]⟩,.failClosed⟩,interactive := none}

def detourRequest : RequestedTargetFacts :=
  ⟨.v4 192 0 2 1,.name detourHost,⟨443,Port.https⟩,.tcp⟩

-- A detoured request is answered with the address of the detour's destination.
theorem authorizeAndResolve_sound_detour :
    let snapshot := detourEnvironment.live idleState.loads
    let address : SocketAddr := ⟨.v4 203 0 113 7,⟨8443,by decide⟩⟩
    snapshot.enforcement = .enforce ∧
      ∃ after selected, (authorizeAndResolve detourEnvironment ⟨⟨1⟩,none⟩ detourRequest).run idleState = .ok [address] after ∧
        Selects snapshot.policy detourRequest selected ∧
        (snapshot.policy.evaluate (.requested selected)).action = .allow ∧
        (snapshot.policy.evaluate (.resolved ⟨selected,address.ip⟩)).action = .allow := by
  intro snapshot address
  have answered : answerOf ((authorizeAndResolve detourEnvironment ⟨⟨1⟩,none⟩ detourRequest).run idleState) =
      some [address] := by decide +kernel
  obtain ⟨after,done⟩ := answerOf_ok answered
  obtain ⟨selected,_,selects,cleared,_,_,permitted⟩ :=
    (authorizeAndResolve_sound detourEnvironment ⟨⟨1⟩,none⟩ detourRequest idleState rfl).1 _ _ done
  exact ⟨rfl,after,selected,done,selects,cleared,(permitted address List.mem_cons_self).2⟩

end Freja.Proxy
