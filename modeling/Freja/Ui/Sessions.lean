import Freja.Foundation.Runs
import Freja.Ui.Rows
import Mathlib.Data.List.Perm.Subperm

namespace Freja.Ui
open Domain Policy Proxy Retention Runs

inductive UiPublishOutcome where
  | published
  | droppedFull
  deriving DecidableEq, Repr

-- Publication never waits: a full queue drops the event.
def tryPublish (capacity : Config.NonZero) (queue : List UiEvent) (event : UiEvent) : List UiEvent × UiPublishOutcome :=
  if queue.length < capacity.get then (queue ++ [event],.published) else (queue,.droppedFull)

-- The sessions that are known after an event is announced.
def sessionsAfter (known : List SessionId) : UiEvent → List SessionId
  | .flowOpened sessionId _ _ => if sessionId ∈ known then known else known ++ [sessionId]
  | .flowClosed sessionId _ _ => known.filter (fun other => other ≠ sessionId)
  | _ => known

-- The consumer with its queue, and the connections that are open in the data plane.
structure UiDelivery where
  model : TuiModel
  queue : List UiEvent
  connections : List SessionId
  droppedEvents : Nat

inductive DeliveryStep where
  | publish (event : UiEvent)
  | take

namespace UiDelivery

def start (maxRows maxItems : Config.NonZero) : UiDelivery :=
  ⟨.fromLimits maxRows maxItems,[],[],0⟩

variable (canonicalReason : Nat → Option String) (capacity : Config.NonZero)

def step (state : UiDelivery) : DeliveryStep → UiDelivery
  | .publish event =>
      let delivered := tryPublish capacity state.queue event
      {state with
        queue := delivered.1
        connections := sessionsAfter state.connections event
        droppedEvents := if delivered.2 = .published then state.droppedEvents else state.droppedEvents + 1}
  | .take =>
      match state.queue with
      | [] => state
      | event :: rest => {state with model := state.model.apply canonicalReason event,queue := rest}

def run (state : UiDelivery) (steps : List DeliveryStep) : UiDelivery := steps.foldl (step canonicalReason capacity) state

end UiDelivery

namespace TuiModel

def sessionIds (model : TuiModel) : List SessionId := model.sessions.map SessionMetadata.sessionId

theorem ensured_sessions (ensured : Ensured model evictable key result) : result.1.sessions = model.sessions := by
  cases ensured <;> rfl

theorem onRow_sessions (ensured : Ensured model evictable key result) (use : TuiModel → Nat → TuiModel)
    (kept : ∀ model index, (use model index).sessions = model.sessions) : (onRow result use).sessions = model.sessions := by
  have same := ensured_sessions ensured
  obtain ⟨next,place⟩ := result
  cases place with
  | none => exact same
  | some index => exact (kept next index).trans same

theorem updateSession_sessions (model : TuiModel) (sessionId : SessionId) (client target : String) :
    (model.updateSession sessionId client target).sessionIds =
      sessionsAfter model.sessionIds (.flowOpened sessionId client target) := by
  unfold updateSession sessionIds
  simp only [sessionsAfter]
  cases found : model.sessions.findIdx? (fun metadata => metadata.sessionId = sessionId) with
  | some index =>
      obtain ⟨metadata,_,its,member⟩ := findIdx?_place found
      have known : sessionId ∈ model.sessions.map SessionMetadata.sessionId := by
        rw [← of_decide_eq_true its]
        exact List.mem_map_of_mem member
      have kept : ∀ metadata : SessionMetadata,
          ({metadata with client := client,target := target} : SessionMetadata).sessionId = metadata.sessionId :=
        fun metadata => rfl
      rw [if_pos known]
      exact nodup_modify kept index
  | none =>
      have unknown : sessionId ∉ model.sessions.map SessionMetadata.sessionId := by
        intro member
        obtain ⟨metadata,member,its⟩ := List.mem_map.mp member
        have other := findIdx?_missing found metadata member
        simp [its] at other
      rw [if_neg unknown]
      simp

theorem closeSession_sessions (model : TuiModel) (sessionId : SessionId)
    (clientToUpstreamBytes upstreamToClientBytes : Nat) :
    (model.closeSession sessionId clientToUpstreamBytes upstreamToClientBytes).sessionIds =
      model.sessionIds.filter (fun other => other ≠ sessionId) := by
  have filtered : ∀ closed : TuiModel, closed.sessions = model.sessions →
      (closed.sessions.filter (fun metadata => metadata.sessionId ≠ sessionId)).map SessionMetadata.sessionId =
        model.sessionIds.filter (fun other => other ≠ sessionId) := by
    intro closed same
    rw [same,sessionIds,List.filter_map]
    rfl
  unfold closeSession
  split
  · exact filtered _ rfl
  · exact filtered _ (onRow_sessions (ensureRow_ensured model _ sessionId none .tcp) (fun model index =>
      model.modifyRow index (fun row => row.close clientToUpstreamBytes upstreamToClientBytes)) (fun _ _ => rfl))

theorem apply_sessions (canonicalReason : Nat → Option String) (model : TuiModel) (event : UiEvent) :
    (model.apply canonicalReason event).sessionIds = sessionsAfter model.sessionIds event := by
  have correlated := ensureCorrelatedRow_ensured model
  have http := fun sessionId transactionId => ensureRow_ensured model (fun row => row.closed && model.notPaused row)
    sessionId (some transactionId) .http
  have kept : ∀ {after : TuiModel}, after.sessions = model.sessions → after.sessionIds = model.sessionIds :=
    fun same => congrArg (List.map SessionMetadata.sessionId) same
  have counted : ∀ (model : TuiModel) truncated, (model.countTruncation truncated).sessions = model.sessions := by
    intro model truncated
    unfold countTruncation
    split <;> rfl
  cases event with
  | operationalLog => rfl
  | flowOpened sessionId client target => exact updateSession_sessions model sessionId client target
  | flowClosed sessionId clientToUpstreamBytes upstreamToClientBytes =>
      exact closeSession_sessions model sessionId clientToUpstreamBytes upstreamToClientBytes
  | httpObserved sessionId transactionId | httpResponseObserved sessionId transactionId =>
      exact kept (onRow_sessions (http sessionId transactionId) _ (fun _ _ => rfl))
  | decisionMade sessionId transactionId =>
      refine kept (onRow_sessions (correlated sessionId transactionId) _ ?_)
      intro model index
      unfold recordEvaluation
      dsimp only
      split <;> rfl
  | findingDetected sessionId transactionId =>
      exact kept (onRow_sessions (correlated sessionId transactionId) _ (fun _ _ => rfl))
  | bodyPrefix sessionId transactionId direction bytes offset observedBytes truncated =>
      exact kept (onRow_sessions (correlated sessionId transactionId) _ (fun _ _ => counted _ truncated))
  | wireCaptured sessionId transactionId direction bytes observedBytes truncated =>
      exact kept (onRow_sessions (http sessionId transactionId) _ (fun _ _ => counted _ truncated))
  | wireCaptureFailed sessionId transactionId | wireCaptureUnavailable sessionId transactionId =>
      exact kept (onRow_sessions (http sessionId transactionId) _ (fun _ _ => rfl))

end TuiModel

theorem sessionsAfter_mono (less : known ⊆ more) (event : UiEvent) : sessionsAfter known event ⊆ sessionsAfter more event := by
  intro session member
  cases event with
  | flowOpened sessionId client target =>
      have either : session ∈ known ∨ session = sessionId := by
        simp only [sessionsAfter] at member
        split at member
        · exact .inl member
        · simpa using member
      simp only [sessionsAfter]
      split
      · rename_i present
        rcases either with old | rfl
        · exact less old
        · exact present
      · rcases either with old | rfl
        · exact List.mem_append_left _ (less old)
        · simp
  | flowClosed =>
      simp only [sessionsAfter,List.mem_filter] at member ⊢
      exact ⟨less member.1,member.2⟩
  | _ => exact less member

theorem sessionsAfter_nodup (distinct : known.Nodup) (event : UiEvent) : (sessionsAfter known event).Nodup := by
  cases event with
  | flowOpened sessionId client target =>
      simp only [sessionsAfter]
      split
      · exact distinct
      · rename_i new
        rw [List.nodup_append]
        refine ⟨distinct,by simp,?_⟩
        intro one member other alone same
        rw [List.mem_singleton] at alone
        rw [same,alone] at member
        exact new member
  | flowClosed => exact distinct.filter _
  | _ => exact distinct

-- Sessions whose end is announced in a queue.
def closedIn : List UiEvent → List SessionId
  | [] => []
  | .flowClosed sessionId _ _ :: rest => sessionId :: closedIn rest
  | _ :: rest => closedIn rest

theorem closedIn_length (queue : List UiEvent) : (closedIn queue).length ≤ queue.length := by
  induction queue with
  | nil => exact Nat.le_refl 0
  | cons event =>
      cases event <;> simp only [closedIn,List.length_cons] <;> omega

theorem known_until_closed (queue : List UiEvent) (member : session ∈ known) :
    session ∈ queue.foldl sessionsAfter known ∨ session ∈ closedIn queue := by
  induction queue generalizing known with
  | nil => exact .inl member
  | cons event rest ih =>
      cases event with
      | flowClosed sessionId clientToUpstreamBytes upstreamToClientBytes =>
          by_cases same : session = sessionId
          · subst session
            exact .inr (by simp [closedIn])
          · have kept : session ∈ sessionsAfter known (.flowClosed sessionId clientToUpstreamBytes upstreamToClientBytes) := by
              simp [sessionsAfter,member,same]
            rcases ih kept with later | later
            · exact .inl later
            · exact .inr (by simp [closedIn,later])
      | flowOpened sessionId client target =>
          have kept : session ∈ sessionsAfter known (.flowOpened sessionId client target) := by
            simp only [sessionsAfter]
            split
            · exact member
            · exact List.mem_append_left _ member
          exact ih kept
      | _ => exact ih member

-- What the queue still holds back leads to the connections that are open.
structure Tracked (capacity : Config.NonZero) (state : UiDelivery) : Prop where
  distinct : state.model.sessionIds.Nodup
  held : state.queue.length ≤ capacity.get
  led : state.queue.foldl sessionsAfter state.model.sessionIds ⊆ state.connections

-- The end of a connection is announced while the queue has room.
def EndDelivered (capacity : Config.NonZero) (state : UiDelivery) (step : DeliveryStep) : Prop :=
  ∀ sessionId clientToUpstreamBytes upstreamToClientBytes,
    step = .publish (.flowClosed sessionId clientToUpstreamBytes upstreamToClientBytes) →
      state.queue.length < capacity.get

section Delivery

variable {canonicalReason : Nat → Option String} {capacity : Config.NonZero}

theorem tracked_start (maxRows maxItems : Config.NonZero) :
    Tracked capacity (.start maxRows maxItems) :=
  ⟨List.nodup_nil,Nat.zero_le _,List.Subset.refl _⟩

theorem step_tracked (tracked : Tracked capacity state) (delivered : EndDelivered capacity state step) :
    Tracked capacity (state.step canonicalReason capacity step) := by
  cases step with
  | publish event =>
      unfold UiDelivery.step tryPublish
      dsimp only
      split
      · rename_i room
        refine ⟨tracked.distinct,?_,?_⟩
        · simpa using room
        · change (state.queue ++ [event]).foldl sessionsAfter state.model.sessionIds ⊆ _
          rw [List.foldl_concat]
          exact sessionsAfter_mono tracked.led event
      · rename_i full
        refine ⟨tracked.distinct,tracked.held,List.Subset.trans tracked.led ?_⟩
        intro session open'
        cases event with
        | flowOpened =>
            simp only [sessionsAfter]
            split
            · exact open'
            · exact List.mem_append_left _ open'
        | flowClosed =>
            exact absurd (delivered _ _ _ rfl) full
        | _ => exact open'
  | take =>
      unfold UiDelivery.step
      cases queued : state.queue with
      | nil => exact tracked
      | cons event =>
          have held := tracked.held
          have led := tracked.led
          rw [queued] at held led
          refine ⟨?_,Nat.le_of_succ_le held,?_⟩
          · rw [TuiModel.apply_sessions]
            exact sessionsAfter_nodup tracked.distinct event
          · rw [TuiModel.apply_sessions]
            exact led

theorem tracked_bounded (tracked : Tracked capacity state) :
    state.model.sessions.length ≤ state.connections.length + capacity.get := by
  have covered : state.model.sessionIds ⊆ state.connections ++ closedIn state.queue := by
    intro session member
    rw [List.mem_append]
    rcases known_until_closed state.queue member with later | ending
    · exact .inl (tracked.led later)
    · exact .inr ending
  have length := (List.subperm_of_subset tracked.distinct covered).length_le
  rw [TuiModel.sessionIds,List.length_map,List.length_append] at length
  have closing := closedIn_length state.queue
  have held := tracked.held
  omega

end Delivery

-- As long as the end of each connection finds room in the queue.
theorem sessions_bounded_by_connections (canonicalReason : Nat → Option String)
    (capacity maxRows maxItems : Config.NonZero) (steps : List DeliveryStep)
    (delivered : Along (UiDelivery.step canonicalReason capacity) (EndDelivered capacity)
      (.start maxRows maxItems) steps) :
    ((UiDelivery.start maxRows maxItems).run canonicalReason capacity steps).model.sessions.length ≤
      ((UiDelivery.start maxRows maxItems).run canonicalReason capacity steps).connections.length +
        capacity.get := by
  have tracked : Tracked capacity ((UiDelivery.start maxRows maxItems).run canonicalReason capacity steps) :=
    along_invariant (fun _ _ => step_tracked) (tracked_start maxRows maxItems) delivered
  exact tracked_bounded tracked

def single : Config.NonZero := .ofUInt32 1

def opening (session : Nat) : UiEvent := .flowOpened ⟨session⟩ "127.0.0.1:40000" "example.test:443"

def ending (session : Nat) : UiEvent := .flowClosed ⟨session⟩ 0 0

theorem timely_ending_bounded :
    Along (UiDelivery.step (fun _ => none) single) (EndDelivered single) (.start single single)
        [.publish (opening 0),.take,.publish (ending 0)] ∧
      ((UiDelivery.start single single).run (fun _ => none) single
        [.publish (opening 0),.take,.publish (ending 0)]).model.sessions.length ≤
        ((UiDelivery.start single single).run (fun _ => none) single
          [.publish (opening 0),.take,.publish (ending 0)]).connections.length + single.get := by
  have delivered : Along (UiDelivery.step (fun _ => none) single) (EndDelivered single) (.start single single)
      [.publish (opening 0),.take,.publish (ending 0)] := by
    refine ⟨?_,?_,fun _ _ _ _ => Nat.one_pos,trivial⟩ <;> nofun
  exact ⟨delivered,sessions_bounded_by_connections (fun _ => none) single single single _ delivered⟩

-- Connections that are over before their start was taken from the queue.
def missedEnding (session : Nat) : List DeliveryStep := [.publish (opening session),.publish (ending session),.take]

def missedEndings (count : Nat) : List DeliveryStep := (List.range count).flatMap missedEnding

theorem missedEnding_known (canonicalReason : Nat → Option String) {state : UiDelivery} (idle : state.queue = [])
    (closed : state.connections = []) (new : ⟨session⟩ ∉ state.model.sessionIds) :
    (state.run canonicalReason single (missedEnding session)).queue = [] ∧
      (state.run canonicalReason single (missedEnding session)).connections = [] ∧
      (state.run canonicalReason single (missedEnding session)).model.sessionIds =
        state.model.sessionIds ++ [⟨session⟩] := by
  have room : 0 < single.get := Nat.one_pos
  have full : ¬ 1 < single.get := Nat.lt_irrefl 1
  have applied := TuiModel.apply_sessions canonicalReason state.model (opening session)
  simp only [opening,sessionsAfter,if_neg new] at applied
  refine ⟨?_,?_,?_⟩
  · simp [UiDelivery.run,missedEnding,UiDelivery.step,tryPublish,idle,room,full]
  · simp [UiDelivery.run,missedEnding,UiDelivery.step,tryPublish,idle,closed,room,full,opening,ending,sessionsAfter]
  · simpa [UiDelivery.run,missedEnding,UiDelivery.step,tryPublish,idle,room,full,opening] using applied

theorem missedEndings_known (canonicalReason : Nat → Option String) (count : Nat) :
    ((UiDelivery.start single single).run canonicalReason single (missedEndings count)).queue = [] ∧
      ((UiDelivery.start single single).run canonicalReason single (missedEndings count)).connections = [] ∧
      ((UiDelivery.start single single).run canonicalReason single (missedEndings count)).model.sessionIds =
        (List.range count).map SessionId.mk := by
  induction count with
  | zero => exact ⟨rfl,rfl,rfl⟩
  | succ count ih =>
      obtain ⟨idle,closed,known⟩ := ih
      have new : ⟨count⟩ ∉
          ((UiDelivery.start single single).run canonicalReason single (missedEndings count)).model.sessionIds := by
        rw [known]
        simp
      have more : missedEndings (count + 1) = missedEndings count ++ missedEnding count := by
        simp [missedEndings,List.range_succ]
      have next := missedEnding_known canonicalReason idle closed new
      rw [known] at next
      unfold UiDelivery.run at next ⊢
      rw [more,List.foldl_append,List.range_succ,List.map_append]
      exact next

-- Session metadata grows with the connections there ever were while none is open.
theorem missed_endings_unbounded :
    ¬ ∃ bound : Config.NonZero → Config.NonZero → Config.NonZero → Nat → Nat,
      ∀ canonicalReason capacity maxRows maxItems steps,
        ((UiDelivery.start maxRows maxItems).run canonicalReason capacity steps).model.sessions.length ≤
          bound capacity maxRows maxItems
            ((UiDelivery.start maxRows maxItems).run canonicalReason capacity steps).connections.length := by
  intro bounded
  obtain ⟨bound,holds⟩ := bounded
  obtain ⟨_,closed,known⟩ := missedEndings_known (fun _ => none) (bound single single single 0 + 1)
  have count := holds (fun _ => none) single single single (missedEndings (bound single single single 0 + 1))
  have length := congrArg List.length known
  rw [TuiModel.sessionIds,List.length_map,List.length_map,List.length_range] at length
  rw [closed,length,List.length_nil] at count
  omega

end Freja.Ui
