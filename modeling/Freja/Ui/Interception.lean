import Freja.Ui.Sessions
import Freja.Ui.UneditedRequest

namespace Freja.Ui
open Domain Policy Proxy Retention Runs

-- The broker and the loop that answers it: the requests on their way, and the
-- responders that are awaited, each with its permit.
structure Interception where
  tui : TuiState
  channel : List InterceptRequest
  waiting : List Nat
  nextResponder : Nat

-- A request is paused, its flow goes on with an answer or without one; the rest is the loop's.
inductive InterceptionStep where
  | pause (context : InterceptContext) (request : HttpRequestSnapshot)
  | resume (responder : Nat)
  | giveUp (responder : Nat)
  | take
  | event (event : UiEvent)
  | result (result : RepeatResult)
  | refresh (droppedEvents : Nat)
  | press (typed : EditorMode × List UInt8) (executor : Option SendOutcome) (key : KeyEvent)

namespace Interception

variable (libs : Libraries) (limits : Config.Limits)

def maximumItemsPerRow : Config.NonZero := .ofUInt32 256

def start : Interception := ⟨.start limits.uiRetainedRows maximumItemsPerRow,[],[],0⟩

-- A permit first, then a place in the channel; the permit goes back if there is none.
def interceptHttpRequest (system : Interception) (context : InterceptContext) (request : HttpRequestSnapshot) :
    Except InterceptError Interception :=
  if limits.pausedFlows.get ≤ system.waiting.length then .error .saturated
  else if limits.uiEventCapacity.get ≤ system.channel.length then .error .saturated
  else .ok {system with
    channel := system.channel ++ [⟨context,request,system.nextResponder⟩]
    waiting := system.waiting ++ [system.nextResponder]
    nextResponder := system.nextResponder + 1}

def release (system : Interception) (responder : Nat) : Interception :=
  {system with waiting := system.waiting.erase responder}

def answered (system : Interception) (responder : Nat) : Bool :=
  system.tui.answers.any (fun answer => answer.1.responder = responder)

-- What a step is for the loop.
def input (system : Interception) : InterceptionStep → Option TuiInput
  | .take => system.channel.head?.map .intercept
  | .event event => some (.event event)
  | .result result => some (.result result)
  | .refresh droppedEvents => some (.refresh droppedEvents)
  | .press typed executor key => some (.key ⟨typed,executor,fun responder => responder ∈ system.waiting⟩ key)
  | _ => none

def advance (system : Interception) (input : Option TuiInput) : TuiState :=
  input.elim system.tui (system.tui.step libs)

def step (system : Interception) (step : InterceptionStep) : Interception :=
  match step with
  | .pause context request =>
      match system.interceptHttpRequest limits context request with
      | .ok paused => paused
      | .error _ => system
  | .resume responder => if system.answered responder then system.release responder else system
  | .giveUp responder => system.release responder
  | .take => {system with tui := system.advance libs (system.input .take),channel := system.channel.tail}
  | other => {system with tui := system.advance libs (system.input other)}

def run (system : Interception) (steps : List InterceptionStep) : Interception :=
  steps.foldl (step libs limits) system

-- The requests that are held, each with its whole body.
def retained (system : Interception) : List InterceptRequest := system.channel ++ system.tui.pending

end Interception

-- One turn of the loop: all that has arrived is taken in, then one key.
def turn (events : List UiEvent) (arrivals : Nat) (results : List RepeatResult) (droppedEvents : Nat)
    (pressed : List InterceptionStep) : List InterceptionStep :=
  events.map .event ++ List.replicate arrivals .take ++ results.map .result ++ .refresh droppedEvents :: pressed

-- What a key leaves of the requests that wait.
structure Pruned (before after : TuiState) : Prop where
  pending : after.pending.Sublist before.pending
  paused : after.model.pausedTransactions = before.model.pausedTransactions

theorem respond_pruned (state : TuiState) (outside : Outside) (index : Nat) (request : InterceptRequest)
    (decision : InteractiveDecision) : Pruned state (state.respond outside index request decision).1 := by
  refine ⟨?_,?_⟩
  · rw [respond_pending]
    exact List.eraseIdx_sublist _ _
  · rw [respond_model]

theorem modifyWorkspace_paused (model : TuiModel) (source : TransactionId) (change : RepeatWorkspace → RepeatWorkspace) :
    (model.modifyWorkspace source change).pausedTransactions = model.pausedTransactions := by
  unfold TuiModel.modifyWorkspace
  split <;> rfl

theorem keyed_pruned (keyed : Keyed httparse outside code state next) : Pruned state next := by
  have whole : state.pending.Sublist state.pending := List.Sublist.refl _
  cases keyed with
  | unchanged | moved | picked | typed | discarded | openedRequest | openedRepeat => exact ⟨whole,rfl⟩
  | responded closed chosen decision => exact respond_pruned state outside _ _ decision
  | revisited =>
      obtain ⟨pending,paused⟩ := respond_pruned (state.selectWorkspace _) outside _ _ .continue
      exact ⟨pending,paused⟩
  | created =>
      obtain ⟨pending,paused⟩ := respond_pruned (state.addWorkspace _) outside _ _ .continue
      exact ⟨pending,paused⟩
  | sent => exact ⟨whole,rfl⟩
  | deleted =>
      refine ⟨whole,?_⟩
      unfold TuiState.onModel TuiModel.deleteSelectedRepeat
      dsimp only
      split <;> rfl
  | submitted opened target accepted chosen =>
      rename_i index request submission
      obtain ⟨model,either,done⟩ := submitEdited_chosen outside target chosen submission
      rw [done]
      refine ⟨(respond_pruned state outside index request submission.decision).pending,?_⟩
      rcases either with rfl | rfl <;> rfl
  | saved | savedAndSent => exact ⟨whole,modifyWorkspace_paused state.model _ _⟩

theorem key_pruned (libs : Libraries) (state : TuiState) (outside : Outside) (key : KeyEvent) :
    Pruned state (state.step libs (.key outside key)) := by
  obtain ⟨pending,paused⟩ := keyed_pruned (TuiState.step_key libs state outside key)
  exact ⟨pending,paused⟩

namespace Interception

variable {libs : Libraries} {limits : Config.Limits} {system : Interception}

-- All that a step does to the requests that are held: one more is paused, or they are
-- passed on and forgotten.
inductive Holds (limits : Config.Limits) (system : Interception) : InterceptionStep → Interception → Prop where
  | paused (permit : system.waiting.length < limits.pausedFlows.get)
      (held : next.retained.Perm (⟨context,request,system.nextResponder⟩ :: system.retained))
      (count : next.nextResponder = system.nextResponder + 1) : Holds limits system (.pause context request) next
  | fewer (held : next.retained.Subperm system.retained) (count : next.nextResponder = system.nextResponder) :
      Holds limits system taken next

theorem interceptHttpRequest_ok (accepted : system.interceptHttpRequest limits context request = .ok next) :
    system.waiting.length < limits.pausedFlows.get ∧ next = {system with
      channel := system.channel ++ [⟨context,request,system.nextResponder⟩]
      waiting := system.waiting ++ [system.nextResponder]
      nextResponder := system.nextResponder + 1} := by
  unfold interceptHttpRequest at accepted
  split at accepted
  · cases accepted
  · rename_i permit
    split at accepted
    · cases accepted
    · cases accepted
      exact ⟨Nat.lt_of_not_le permit,rfl⟩

theorem pending_holds {next : Interception} (channel : next.channel = system.channel)
    (kept : next.tui.pending.Sublist system.tui.pending) (count : next.nextResponder = system.nextResponder) :
    Holds limits system taken next := by
  refine .fewer (List.Sublist.subperm ?_) count
  rw [retained,channel]
  exact (List.Sublist.refl system.channel).append kept

theorem take_holds (libs : Libraries) : Holds limits system .take (system.step libs limits .take) := by
  refine .fewer ?_ rfl
  cases arrived : system.channel with
  | nil => simp [step,advance,input,retained,arrived,List.Subperm.refl]
  | cons request rest =>
      have moved : (rest ++ (system.tui.pending ++ [request])).Perm (request :: (rest ++ system.tui.pending)) := by
        rw [← List.append_assoc]
        exact List.perm_append_singleton request (rest ++ system.tui.pending)
      simpa [step,advance,input,retained,arrived,TuiState.step,TuiState.drainIntercept] using moved.subperm

theorem step_holds (libs : Libraries) (system : Interception) (step : InterceptionStep) :
    Holds limits system step (system.step libs limits step) := by
  have same : system.tui.pending.Sublist system.tui.pending := List.Sublist.refl _
  cases step with
  | pause context request =>
      simp only [Interception.step]
      cases outcome : system.interceptHttpRequest limits context request with
      | error => exact pending_holds rfl same rfl
      | ok =>
          obtain ⟨permit,rfl⟩ := interceptHttpRequest_ok outcome
          refine .paused permit ?_ rfl
          simp only [retained,List.append_assoc,List.singleton_append]
          exact List.perm_middle
  | resume =>
      simp only [Interception.step]
      split <;> exact pending_holds rfl same rfl
  | giveUp => exact pending_holds rfl same rfl
  | take => exact take_holds libs
  | event | result | refresh => exact pending_holds rfl same rfl
  | press typed executor key => exact pending_holds rfl (key_pruned libs system.tui _ key).pending rfl

-- Whenever a request is paused, the flow of every request that is still held waits for its answer.
def Awaited (system : Interception) : InterceptionStep → Prop
  | .pause _ _ => ∀ request ∈ system.retained, request.responder ∈ system.waiting
  | _ => True

structure Held (limits : Config.Limits) (system : Interception) : Prop where
  distinct : (system.retained.map InterceptRequest.responder).Nodup
  known : ∀ request ∈ system.retained, request.responder < system.nextResponder
  bounded : system.retained.length ≤ limits.pausedFlows.get

theorem step_held (libs : Libraries) (system : Interception) (step : InterceptionStep) (held : Held limits system)
    (awaited : Awaited system step) : Held limits (system.step libs limits step) := by
  have holds : Holds limits system step (system.step libs limits step) := step_holds libs system step
  cases holds with
  | paused permit arrived count =>
      refine ⟨?_,?_,?_⟩
      · have fresh : system.nextResponder ∉ system.retained.map InterceptRequest.responder := by
          intro member
          obtain ⟨request,present,same⟩ := List.mem_map.mp member
          exact absurd (held.known request present) (by omega)
        rw [(arrived.map InterceptRequest.responder).nodup_iff]
        exact List.nodup_cons.mpr ⟨fresh,held.distinct⟩
      · intro request member
        rw [count]
        rcases List.mem_cons.mp (arrived.mem_iff.mp member) with rfl | present
        · exact Nat.lt_succ_self _
        · exact Nat.lt_succ_of_lt (held.known request present)
      · -- distinct responders that are all awaited are no more than the permits
        have within : system.retained.map InterceptRequest.responder ⊆ system.waiting := by
          intro responder member
          obtain ⟨request,present,rfl⟩ := List.mem_map.mp member
          exact awaited request present
        have few := (List.subperm_of_subset held.distinct within).length_le
        rw [List.length_map] at few
        rw [arrived.length_eq,List.length_cons]
        omega
  | fewer arrived count =>
      refine ⟨?_,?_,Nat.le_trans arrived.length_le held.bounded⟩
      · obtain ⟨kept,same,part⟩ := arrived
        rw [← (same.map InterceptRequest.responder).nodup_iff]
        exact held.distinct.sublist (part.map InterceptRequest.responder)
      · intro request member
        rw [count]
        exact held.known request (arrived.subset member)

theorem start_held (limits : Config.Limits) : Held limits (start limits) :=
  ⟨List.nodup_nil,fun _ member => absurd member List.not_mem_nil,Nat.zero_le _⟩

theorem pending_bounded (libs : Libraries) (limits : Config.Limits) (steps : List InterceptionStep)
    (awaited : Along (step libs limits) Awaited (start limits) steps) :
    ((start limits).run libs limits steps).tui.pending.length ≤ limits.pausedFlows.get := by
  have held : Held limits ((start limits).run libs limits steps) :=
    along_invariant (step_held libs) (start_held limits) awaited
  have bounded := held.bounded
  rw [retained,List.length_append] at bounded
  omega

def singleLimits : Config.Limits := .uniform 1

def plainLibraries : Libraries := ⟨readRequest,fun _ => false,fun _ => none⟩

def pausing (transaction : Nat) : InterceptionStep := .pause ⟨⟨transaction⟩,⟨transaction⟩,.v4 127 0 0 1⟩ (bareSnapshot 64)

def pairLimits : Config.Limits := .uniform 2

-- The second request is paused while the first waits for its answer.
def bothWaiting : List InterceptionStep := pausing 1 :: turn [] 1 [] 0 [] ++ pausing 2 :: turn [] 1 [] 0 []

instance (system : Interception) : (step : InterceptionStep) → Decidable (Awaited system step)
  | .pause _ _ => inferInstanceAs (Decidable (∀ request ∈ system.retained, request.responder ∈ system.waiting))
  | .resume _ | .giveUp _ | .take | .event _ | .result _ | .refresh _ | .press _ _ _ => isTrue trivial

theorem awaited_request_bounded :
    Along (step plainLibraries pairLimits) Awaited (start pairLimits) bothWaiting ∧
      ((start pairLimits).run plainLibraries pairLimits bothWaiting).tui.pending.length ≤ pairLimits.pausedFlows.get := by
  have awaited : Along (step plainLibraries pairLimits) Awaited (start pairLimits) bothWaiting := by decide +kernel
  exact ⟨awaited,pending_bounded plainLibraries pairLimits _ awaited⟩

-- Nobody presses a key: the flow of the first request gives up and frees its permit, the
-- loop keeps the request and takes the second.
def expiring : List InterceptionStep :=
  pausing 1 :: turn [] 1 [] 0 [] ++ [.giveUp 0,pausing 2] ++ turn [] 1 [] 0 []

theorem expired_requests_exceed :
    ¬ ((start singleLimits).run plainLibraries singleLimits expiring).tui.pending.length ≤ singleLimits.pausedFlows.get := by
  decide +kernel

end Interception

end Freja.Ui
