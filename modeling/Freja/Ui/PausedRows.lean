import Freja.Ui.Interception

namespace Freja.Ui
open Domain Policy Proxy Retention Runs

def InterceptRequest.key (request : InterceptRequest) : RowKey := (request.context.sessionId,some request.transactionId)

-- A request can have a row: its own is there, the list is not full, or some row is of
-- no paused transaction.
def Roomy (model : TuiModel) (request : InterceptRequest) : Prop :=
  request.key ∈ model.keys ∨ model.rows.length ≠ model.maximumRows.get ∨
    ∃ row ∈ model.rows, ∀ transactionId, row.transactionId = some transactionId →
      transactionId ∉ model.pausedTransactions ∧ transactionId ≠ request.transactionId

instance (model : TuiModel) (request : InterceptRequest) : Decidable (Roomy model request) :=
  inferInstanceAs (Decidable (_ ∨ _ ∨ ∃ row ∈ model.rows, ∀ transactionId ∈ row.transactionId,
    transactionId ∉ model.pausedTransactions ∧ transactionId ≠ request.transactionId))

variable (model : TuiModel) (libs : Libraries)

theorem pauseTransaction_mem (transactionId other : TransactionId) :
    other ∈ (model.pauseTransaction transactionId).pausedTransactions ↔
      other ∈ model.pausedTransactions ∨ other = transactionId := by
  unfold TuiModel.pauseTransaction
  split
  · rename_i marked
    have known : transactionId ∈ model.pausedTransactions := List.elem_iff.mp marked
    constructor
    · exact .inl
    · rintro (member | rfl)
      · exact member
      · exact known
  · simp

theorem pauseTransaction_rows (transactionId : TransactionId) :
    (model.pauseTransaction transactionId).rows = model.rows := by
  unfold TuiModel.pauseTransaction
  split <;> rfl

theorem pauseTransaction_notPaused (transactionId : TransactionId) (row : TrafficRow) :
    (model.pauseTransaction transactionId).notPaused row = true ↔
      ∀ other, row.transactionId = some other → other ∉ model.pausedTransactions ∧ other ≠ transactionId := by
  unfold TuiModel.notPaused TuiModel.transactionIsPaused
  cases row.transactionId with
  | none => simp
  | some => simp [pauseTransaction_mem]

theorem onRow_keys (result : TuiModel × Option Nat) (use : TuiModel → Nat → TuiModel)
    (kept : ∀ model index, (use model index).keys = model.keys) : (TuiModel.onRow result use).keys = result.1.keys := by
  obtain ⟨next,place⟩ := result
  cases place with
  | none => rfl
  | some index => exact kept next index

theorem intercept_row (request : InterceptRequest) :
    request.key ∈ (model.applyInterceptRequest request).keys ↔ Roomy model request := by
  have ensured := ensureRow_ensured (model.pauseTransaction request.transactionId)
    (model.pauseTransaction request.transactionId).notPaused request.context.sessionId (some request.transactionId) .http
  have rows := pauseTransaction_rows model request.transactionId
  have keys : (model.pauseTransaction request.transactionId).keys = model.keys := by
    rw [TuiModel.keys,rows]
    rfl
  have limit := (pauseTransaction_framed model request.transactionId).maximumRows
  have placed : (model.applyInterceptRequest request).keys =
      ((model.pauseTransaction request.transactionId).ensurePausedHttpRow request.context.sessionId
        request.transactionId).1.keys := by
    refine onRow_keys _ _ ?_
    intro model index
    exact (modifyRow_touched model index (fun row => rfl : ∀ row, (TuiModel.showSnapshot request.request row).key = row.key)).keys
  rw [placed]
  change request.key ∈ (TuiModel.ensureRow _ _ _ _ _).1.keys ↔ _
  generalize TuiModel.ensureRow _ _ _ _ _ = result at ensured
  unfold Roomy
  cases ensured with
  | found place its =>
      have present : request.key ∈ model.keys := by
        rw [← keys]
        exact List.mem_map.mpr ⟨_,List.mem_of_getElem? place,its⟩
      simp only [keys,present,true_or]
  | refused missing full kept =>
      rw [keys] at missing ⊢
      rw [rows,limit] at full
      have none : ¬ ∃ row ∈ model.rows, ∀ transactionId, row.transactionId = some transactionId →
          transactionId ∉ model.pausedTransactions ∧ transactionId ≠ request.transactionId := by
        rintro ⟨row,member,free⟩
        rw [rows] at kept
        have held := kept row member
        rw [(pauseTransaction_notPaused model request.transactionId row).mpr free] at held
        cases held
      simp only [InterceptRequest.key,missing,full,ne_eq,not_true_eq_false,none,or_self]
  | replaced missing full place allowed new =>
      rw [rows] at place
      have roomy := (pauseTransaction_notPaused model request.transactionId _).mp allowed
      refine iff_of_true ?_ (.inr (.inr ⟨_,List.mem_of_getElem? place,roomy⟩))
      exact List.mem_map.mpr ⟨_,List.mem_append_right _ (List.mem_singleton_self _),congrArg RowRecord.key new⟩
  | added missing room new =>
      rw [rows,limit] at room
      refine iff_of_true ?_ (.inr (.inl room))
      exact List.mem_map.mpr ⟨_,List.mem_append_right _ (List.mem_singleton_self _),congrArg RowRecord.key new⟩

-- Every request that waits is marked as paused.
def Marked (tui : TuiState) : Prop := ∀ request ∈ tui.pending, request.transactionId ∈ tui.model.pausedTransactions

theorem modifyWorkspace_keys (source : TransactionId) (change : RepeatWorkspace → RepeatWorkspace) :
    (model.modifyWorkspace source change).keys = model.keys :=
  (modifyWorkspace_alike model source change).1.keys

theorem drainIntercept_mem (member : other ∈ (TuiState.drainIntercept state request).pending) :
    other ∈ state.pending ∨ other = request := by
  simpa [TuiState.drainIntercept] using member

theorem intercept_marks (request : InterceptRequest) (other : TransactionId) :
    other ∈ (model.applyInterceptRequest request).pausedTransactions ↔
      other ∈ model.pausedTransactions ∨ other = request.transactionId := by
  rw [(handled_retains (intercept_handled model request)).paused]
  exact pauseTransaction_mem model request.transactionId other

theorem input_marked (marked : Marked state) (input : TuiInput) :
    Marked (state.step libs input) := by
  cases input with
  | event event =>
      intro request member
      change request.transactionId ∈ (state.model.apply libs.canonicalReason event).pausedTransactions
      rw [(handled_retains (apply_handled libs.canonicalReason state.model event)).paused]
      exact marked request member
  | intercept request =>
      intro other member
      refine (intercept_marks state.model request other.transactionId).mpr ?_
      rcases drainIntercept_mem member with before | rfl
      · exact .inl (marked other before)
      · exact .inr rfl
  | result =>
      intro request member
      change request.transactionId ∈ (state.model.modifyWorkspace _ _).pausedTransactions
      rw [modifyWorkspace_paused]
      exact marked request member
  | refresh =>
      intro request member
      exact List.mem_map_of_mem member
  | key outside key =>
      obtain ⟨pending,paused⟩ := key_pruned libs state outside key
      intro request member
      rw [paused]
      exact marked request (pending.subset member)

theorem input_retains (state : TuiState) (input : TuiInput)
    (present : (sessionId,some transactionId) ∈ state.model.keys)
    (paused : transactionId ∈ state.model.pausedTransactions) :
    (sessionId,some transactionId) ∈ (state.step libs input).model.keys := by
  cases input with
  | event event =>
      exact (handled_retains (apply_handled libs.canonicalReason state.model event)).rows _ _ present paused
  | intercept request =>
      refine (handled_retains (intercept_handled state.model request)).rows _ _ ?_ ?_
      · rw [TuiModel.keys,pauseTransaction_rows]
        exact present
      · exact (pauseTransaction_mem state.model request.transactionId _).mpr (.inl paused)
  | result =>
      change _ ∈ (state.model.modifyWorkspace _ _).keys
      rw [modifyWorkspace_keys]
      exact present
  | refresh => exact present
  | key outside key =>
      have keys : (state.step libs (.key outside key)).model.keys = state.model.keys :=
        (keyed_alike (TuiState.step_key libs state outside key)).1.keys
      rw [keys]
      exact present

theorem step_pending (member : request ∈ (TuiState.step libs state input).pending) :
    request ∈ state.pending ∨ input = .intercept request := by
  cases input with
  | event => exact .inl member
  | intercept =>
      rcases drainIntercept_mem member with before | rfl
      · exact .inl before
      · exact .inr rfl
  | result | refresh => exact .inl member
  | key outside key => exact .inl ((key_pruned libs state outside key).pending.subset member)

-- Every request that waits is marked and has its row.
structure Operable (tui : TuiState) : Prop where
  marked : Marked tui
  rowed : ∀ request ∈ tui.pending, request.key ∈ tui.model.keys

theorem input_operable (operable : Operable state) (input : TuiInput)
    (roomy : ∀ request, input = .intercept request → Roomy state.model request) :
    Operable (state.step libs input) := by
  refine ⟨input_marked libs operable.marked input,?_⟩
  intro request member
  rcases step_pending libs member with before | rfl
  · exact input_retains libs state input (operable.rowed request before) (operable.marked request before)
  · exact (intercept_row state.model request).mpr (roomy request rfl)

namespace Interception

-- Whenever a request is taken from the channel, there is room for its row.
def Placeable (system : Interception) : InterceptionStep → Prop
  | .take => ∀ request, system.channel.head? = some request → Roomy system.tui.model request
  | _ => True

instance (system : Interception) : (step : InterceptionStep) → Decidable (Placeable system step)
  | .take => inferInstanceAs (Decidable (∀ request ∈ system.channel.head?, Roomy system.tui.model request))
  | .pause _ _ | .resume _ | .giveUp _ | .event _ | .result _ | .refresh _ | .press _ _ _ => isTrue trivial

variable (libs : Libraries) (limits : Config.Limits)

theorem step_tui (system : Interception) (step : InterceptionStep) :
    (system.step libs limits step).tui = system.advance libs (system.input step) := by
  cases step with
  | pause context request =>
      simp only [Interception.step]
      cases outcome : system.interceptHttpRequest limits context request with
      | error => rfl
      | ok =>
          obtain ⟨_,rfl⟩ := interceptHttpRequest_ok outcome
          rfl
  | resume =>
      simp only [Interception.step]
      split <;> rfl
  | giveUp | take | event | result | refresh | press => rfl

theorem input_intercept {step : InterceptionStep} (arrives : input system step = some (.intercept request)) :
    step = .take ∧ system.channel.head? = some request := by
  cases step with
  | take =>
      cases arrived : system.channel.head? with
      | none => simp [input,arrived] at arrives
      | some =>
          simp only [input,arrived,Option.map_some,Option.some.injEq,TuiInput.intercept.injEq] at arrives
          exact ⟨rfl,congrArg some arrives⟩
  | pause | resume | giveUp | event | result | refresh | press => cases arrives

def AllOperable (system : Interception) : Prop := Operable system.tui

theorem step_operable (system : Interception) (step : InterceptionStep) (operable : system.AllOperable)
    (placeable : Placeable system step) :
    (system.step libs limits step).AllOperable := by
  rw [AllOperable,step_tui]
  cases arrives : system.input step with
  | none => exact operable
  | some seen =>
      refine input_operable libs operable seen ?_
      rintro request rfl
      obtain ⟨rfl,arrived⟩ := input_intercept arrives
      exact placeable request arrived

theorem start_operable : (start limits).AllOperable :=
  ⟨fun _ member => absurd member List.not_mem_nil,fun _ member => absurd member List.not_mem_nil⟩

theorem take_row (system : Interception) (arrived : system.channel.head? = some request) :
    request.key ∈ (system.step libs limits .take).tui.model.keys ↔ Roomy system.tui.model request := by
  rw [← intercept_row]
  simp [step,advance,input,arrived,TuiState.step,TuiState.drainIntercept]

theorem paused_requests_have_rows (libs : Libraries) (limits : Config.Limits) :
    (∀ steps, Along (step libs limits) Placeable (start limits) steps →
      ∀ request ∈ ((start limits).run libs limits steps).tui.pending,
        request.key ∈ ((start limits).run libs limits steps).tui.model.keys) ∧
      ∀ (system : Interception) request, system.channel.head? = some request →
        (request.key ∈ (system.step libs limits .take).tui.model.keys ↔ Roomy system.tui.model request) := by
  refine ⟨?_,fun system request arrived => take_row libs limits system arrived⟩
  intro steps placeable
  have operable : ((start limits).run libs limits steps).AllOperable :=
    along_invariant (step_operable libs limits) (start_operable limits) placeable
  exact operable.rowed

-- The first request is answered, and the next turn takes the mark off its row before the
-- second comes.
def evicting : List InterceptionStep :=
  pausing 1 :: turn [] 1 [] 0 [.press (.normal,[]) none ⟨.char 'c',false,false⟩] ++ .resume 0 :: turn [] 0 [] 0 [] ++
    [pausing 2]

-- The list is full, and the row of the first makes way.
theorem roomy_request_has_row :
    ((start singleLimits).run plainLibraries singleLimits evicting).tui.model.rows.length =
        singleLimits.uiRetainedRows.get ∧
      Along (step plainLibraries singleLimits) Placeable (start singleLimits) (evicting ++ [.take]) ∧
      ∀ request ∈ ((start singleLimits).run plainLibraries singleLimits (evicting ++ [.take])).tui.pending,
        request.key ∈ ((start singleLimits).run plainLibraries singleLimits (evicting ++ [.take])).tui.model.keys := by
  have placeable : Along (step plainLibraries singleLimits) Placeable (start singleLimits) (evicting ++ [.take]) := by
    decide +kernel
  exact ⟨by decide +kernel,placeable,(paused_requests_have_rows plainLibraries singleLimits).1 _ placeable⟩

-- The first request is answered and its flow goes on before the second comes, but the
-- loop marks paused transactions only after it has taken what arrived.
def hurried : List InterceptionStep :=
  pausing 1 :: turn [] 1 [] 0 [.press (.normal,[]) none ⟨.char 'c',false,false⟩] ++ [.resume 0,pausing 2] ++ turn [] 1 [] 0 []

theorem hurried_request_has_no_row :
    ∃ request ∈ ((start singleLimits).run plainLibraries singleLimits hurried).tui.pending,
      request.key ∉ ((start singleLimits).run plainLibraries singleLimits hurried).tui.model.keys ∧
      request.responder ∈ ((start singleLimits).run plainLibraries singleLimits hurried).waiting := by
  decide +kernel

end Interception

end Freja.Ui
