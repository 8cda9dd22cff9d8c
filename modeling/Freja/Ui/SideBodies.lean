import Freja.Foundation.Pieces
import Freja.Foundation.Runs
import Freja.Proxy.UiCapture
import Freja.Ui.Rows

namespace Freja.Ui
open Domain Policy Proxy Retention

-- What a side shows of a body.
structure ShownBody where
  received : Pieces.Received UInt8
  observed : Nat
  truncated : Bool

namespace ShownBody

def empty : ShownBody := ⟨.empty,0,false⟩

def append (shown : ShownBody) (event : BodyPrefix) : ShownBody :=
  ⟨shown.received.add event.offset event.bytes,max shown.observed event.observedBytes,
    shown.truncated || event.truncated⟩

def hear (shown : ShownBody) (event : Option BodyPrefix) : ShownBody := event.elim shown shown.append

end ShownBody

def SideSnapshot.shown (side : SideSnapshot) : ShownBody :=
  ⟨⟨side.body,side.bodyIncomplete⟩,side.observedBodyBytes,side.bodyTruncated⟩

theorem shown_appendBody (side : SideSnapshot) (event : BodyPrefix) :
    (side.appendBody event.offset event.bytes event.observedBytes event.truncated).shown = side.shown.append event := by
  unfold SideSnapshot.appendBody SideSnapshot.shown ShownBody.append Pieces.Received.add
  dsimp only
  split <;> rfl

def sideOf : Direction → SelectedSide
  | .clientToUpstream | .httpRequestBody => .request
  | .upstreamToClient | .httpResponseBody => .response

def TrafficRow.side (row : TrafficRow) : SelectedSide → SideSnapshot
  | .request => row.request
  | .response => row.response

theorem side_modifySide (row : TrafficRow) (direction : Direction) (change : SideSnapshot → SideSnapshot)
    (side : SelectedSide) :
    (row.modifySide direction change).side side =
      if sideOf direction = side then change (row.side side) else row.side side := by
  cases direction <;> cases side <;> rfl

def uiEvent (key : RowKey) (direction : Direction) (event : BodyPrefix) : UiEvent :=
  .bodyPrefix key.1 key.2 direction event.bytes event.offset event.observedBytes event.truncated

-- The body event that an input brings for one side of a row.
def heardOn (key : RowKey) (side : SelectedSide) : TuiInput → Option BodyPrefix
  | .event (.bodyPrefix sessionId transactionId direction bytes offset observedBytes truncated) =>
      if (sessionId,transactionId) = key ∧ sideOf direction = side then
        some ⟨bytes,offset,observedBytes,truncated⟩
      else none
  | _ => none

namespace TuiModel

def rowAt (model : TuiModel) (key : RowKey) : Option TrafficRow := model.rows.find? (fun row => row.key = key)

def shownAt (model : TuiModel) (key : RowKey) (side : SelectedSide) : ShownBody :=
  ((model.rowAt key).map (fun row => (row.side side).shown)).getD .empty

theorem rowAt_member {model : TuiModel} (distinct : model.keys.Nodup) (member : row ∈ model.rows) :
    model.rowAt row.key = some row := by
  obtain ⟨before,after,split⟩ := List.append_of_mem member
  unfold keys at distinct
  rw [split,List.map_append,List.map_cons,List.nodup_append] at distinct
  have others : ∀ other ∈ before, ¬ (decide (other.key = row.key)) = true := by
    intro other inside same
    exact distinct.2.2 other.key (List.mem_map_of_mem inside) row.key List.mem_cons_self (of_decide_eq_true same)
  unfold rowAt
  rw [split,List.find?_append,List.find?_eq_none.mpr others]
  simp

theorem shownAt_member {model : TuiModel} (distinct : model.keys.Nodup) (member : row ∈ model.rows)
    (side : SelectedSide) : model.shownAt row.key side = (row.side side).shown := by
  rw [shownAt,rowAt_member distinct member]
  rfl

theorem shownAt_absent {model : TuiModel} (absent : key ∉ model.keys) (side : SelectedSide) :
    model.shownAt key side = .empty := by
  have none : model.rowAt key = none := by
    refine List.find?_eq_none.mpr ?_
    intro row member its
    exact absent (of_decide_eq_true its ▸ List.mem_map_of_mem member)
  rw [shownAt,none]
  rfl

end TuiModel

-- The rows are those of another model, or show nothing yet under a new key.
def Grown (before after : TuiModel) : Prop :=
  ∀ row ∈ after.rows, row ∈ before.rows ∨ row.key ∉ before.keys ∧ ∀ side, (row.side side).shown = .empty

variable (model : TuiModel) (libs : Libraries) (start : TuiState) (inputs : List TuiInput) (key : RowKey)
  (direction : Direction) (side : SelectedSide)

theorem grown_refl : Grown model model := fun _ member => .inl member

theorem ensureRow_grown (evictable : TrafficRow → Bool) (sessionId : SessionId) (transactionId : Option TransactionId)
    (kind : TrafficKind) :
    Grown model (model.ensureRow evictable sessionId transactionId kind).1 := by
  have fresh : ∀ (metadata : Option (String × String)) (side : SelectedSide),
      ((emptyRow sessionId transactionId kind metadata).side side).shown = .empty := by
    intro metadata side
    cases side <;> rfl
  unfold TuiModel.ensureRow
  cases found : model.rows.findIdx? (fun row => row.key = (sessionId,transactionId)) with
  | some => exact grown_refl model
  | none =>
      have missing := keys_missing found
      dsimp only
      split
      · split
        · exact grown_refl model
        · intro row member
          rcases List.mem_append.mp member with old | new
          · exact .inl (List.mem_of_mem_eraseIdx old)
          · rw [List.mem_singleton.mp new]
            exact .inr ⟨missing,fresh _⟩
      · intro row member
        rcases List.mem_append.mp member with old | new
        · exact .inl old
        · rw [List.mem_singleton.mp new]
          exact .inr ⟨missing,fresh _⟩

-- A change to a row that leaves its key and its bodies alone.
structure Quiet (change : TrafficRow → TrafficRow) : Prop where
  key : ∀ row, (change row).key = row.key
  shown : ∀ row side, ((change row).side side).shown = (row.side side).shown

-- What an input does to the bodies: a row goes on from what its key showed before.
def Follows (input : TuiInput) (before after : TuiModel) : Prop :=
  ∀ row ∈ after.rows, ∀ side, (row.side side).shown = (before.shownAt row.key side).hear (heardOn row.key side input)

theorem mem_modified {rows : List α} {change : α → α} (member : item ∈ rows.modify index change) :
    (∃ place, place ≠ index ∧ rows[place]? = some item) ∨ ∃ old, rows[index]? = some old ∧ item = change old := by
  obtain ⟨place,found⟩ := List.mem_iff_getElem?.mp member
  rw [List.getElem?_modify] at found
  split at found
  · rename_i here
    subst here
    cases old : rows[index]? with
    | none => simp [old] at found
    | some value =>
        rw [old] at found
        exact .inr ⟨value,rfl,(Option.some.inj found).symm⟩
  · rename_i other
    exact .inl ⟨place,fun same => other same.symm,by simpa using found⟩

section Inputs

variable {model grown after : TuiModel} {input : TuiInput} (distinct : model.keys.Nodup)

include distinct

theorem grown_shown (growth : Grown model grown) (member : row ∈ grown.rows) (side : SelectedSide) :
    (row.side side).shown = model.shownAt row.key side := by
  rcases growth row member with old | ⟨new,empty⟩
  · exact (TuiModel.shownAt_member distinct old side).symm
  · rw [empty side,TuiModel.shownAt_absent new]

theorem grown_follows (growth : Grown model grown) (rows : after.rows = grown.rows)
    (silent : ∀ key side, heardOn key side input = none) : Follows input model after := by
  intro row member side
  rw [rows] at member
  rw [silent,grown_shown distinct growth member side]
  rfl

theorem quiet_follows (growth : Grown model grown) {change : TrafficRow → TrafficRow} (quiet : Quiet change)
    (from_rows : ∀ row ∈ after.rows, row ∈ grown.rows ∨ ∃ old ∈ grown.rows, row = change old)
    (silent : ∀ key side, heardOn key side input = none) : Follows input model after := by
  intro row member side
  rw [silent]
  rcases from_rows row member with same | ⟨old,inside,rfl⟩
  · exact grown_shown distinct growth same side
  · rw [quiet.shown,quiet.key]
    exact grown_shown distinct growth inside side

theorem modified_follows (growth : Grown model grown) {change : TrafficRow → TrafficRow} (quiet : Quiet change)
    (rows : after.rows = grown.rows.modify index change) (silent : ∀ key side, heardOn key side input = none) :
    Follows input model after := by
  refine quiet_follows distinct growth quiet ?_ silent
  intro row member
  rw [rows] at member
  rcases mem_modified member with ⟨_,_,same⟩ | ⟨old,place,changed⟩
  · exact .inl (List.mem_of_getElem? same)
  · exact .inr ⟨old,List.mem_of_getElem? place,changed⟩

theorem onRow_follows {result : TuiModel × Option Nat} (growth : Grown model result.1) (use : TuiModel → Nat → TuiModel)
    (quiet : ∀ model index, ∃ change, Quiet change ∧ (use model index).rows = model.rows.modify index change)
    (silent : ∀ key side, heardOn key side input = none) : Follows input model (TuiModel.onRow result use) := by
  obtain ⟨next,place⟩ := result
  cases place with
  | none => exact grown_follows distinct growth rfl silent
  | some index =>
      obtain ⟨change,still,rows⟩ := quiet next index
      exact modified_follows distinct growth still rows silent

end Inputs

theorem quiet_modifySide {change : SideSnapshot → SideSnapshot} (same : ∀ side, (change side).shown = side.shown) :
    Quiet (fun row => row.modifySide direction change) := by
  refine ⟨fun row => by cases direction <;> rfl,?_⟩
  intro row side
  rw [side_modifySide]
  split
  · exact same _
  · rfl

theorem quiet_observed (target startLine : String) (headers : List (String × List UInt8)) :
    Quiet (TuiModel.observeRequest target startLine headers) := by
  refine ⟨fun row => rfl,?_⟩
  intro row side
  cases side <;> rfl

theorem quiet_answered (startLine : String) (headers : List (String × List UInt8)) :
    Quiet (TuiModel.observeResponse startLine headers) := by
  refine ⟨fun row => rfl,?_⟩
  intro row side
  cases side <;> rfl

theorem quiet_beside {change : TrafficRow → TrafficRow} (key : ∀ row, (change row).key = row.key)
    (request : ∀ row, (change row).request = row.request) (response : ∀ row, (change row).response = row.response) :
    Quiet change := by
  refine ⟨key,?_⟩
  intro row side
  cases side with
  | request => exact congrArg SideSnapshot.shown (request row)
  | response => exact congrArg SideSnapshot.shown (response row)

theorem heardOn_bodyPrefix (event : BodyPrefix) (direction : Direction) (place : RowKey) :
    heardOn key side (.event (uiEvent place direction event)) =
      if place = key ∧ sideOf direction = side then some event else none := rfl

theorem countTruncation_rows (truncated : Bool) :
    (model.countTruncation truncated).rows = model.rows := by
  unfold TuiModel.countTruncation
  split <;> rfl

section Events

variable {maxRows maxItems : Config.NonZero} {history : History} {model : TuiModel}

theorem bodyPrefix_follows (canonicalReason : Nat → Option String)
    (consistent : Consistent maxRows maxItems history model) (key : RowKey) (direction : Direction)
    (event : BodyPrefix) :
    Follows (.event (uiEvent key direction event)) model (model.apply canonicalReason (uiEvent key direction event)) := by
  have ensured := ensureCorrelatedRow_ensured model key.1 key.2
  have growth : Grown model (model.ensureCorrelatedRow key.1 key.2).1 := by
    unfold TuiModel.ensureCorrelatedRow
    split <;> exact ensureRow_grown model _ _ _ _
  have placed := ensured_consistent consistent ensured
  intro row member side
  change row ∈ (TuiModel.onRow (model.ensureCorrelatedRow key.1 key.2) _).rows at member
  rw [heardOn_bodyPrefix]
  revert ensured growth placed member
  rcases model.ensureCorrelatedRow key.1 key.2 with ⟨next,place⟩
  intro ensured growth placed member
  cases place with
  | none =>
      obtain ⟨same,missing⟩ := ensured_refused ensured
      have inside : row ∈ model.rows := same ▸ member
      have other : ¬ (key = row.key ∧ sideOf direction = side) :=
        fun both => missing (both.1 ▸ List.mem_map_of_mem inside)
      rw [if_neg other,TuiModel.shownAt_member consistent.distinct inside]
      rfl
  | some index =>
      change row ∈ (TuiModel.countTruncation _ _).rows at member
      rw [countTruncation_rows] at member
      obtain ⟨record,stands,its⟩ := ensured_place ensured
      have keyed : next.keys[index]? = some key := by
        rw [TuiModel.keys_records,List.getElem?_map,stands]
        exact congrArg some its
      rcases mem_modified member with ⟨elsewhere,apart,found⟩ | ⟨old,found,rfl⟩
      · have other : ¬ (key = row.key ∧ sideOf direction = side) := by
          rintro ⟨same,_⟩
          have again : next.keys[elsewhere]? = some key := by
            rw [TuiModel.keys,List.getElem?_map,found,same]
            rfl
          obtain ⟨inside,_⟩ := List.getElem?_eq_some_iff.mp again
          exact apart (List.getElem?_inj inside placed.distinct |>.mp (again.trans keyed.symm))
        rw [if_neg other,grown_shown consistent.distinct growth (List.mem_of_getElem? found)]
        rfl
      · have same : old.key = key := by
          rw [TuiModel.keys,List.getElem?_map,found] at keyed
          exact Option.some.inj keyed
        have kept : ∀ change, (old.modifySide direction change).key = old.key := fun change => by cases direction <;> rfl
        rw [side_modifySide,kept,same]
        have before := grown_shown consistent.distinct growth (List.mem_of_getElem? found) side
        rw [same] at before
        by_cases here : sideOf direction = side
        · rw [if_pos here,if_pos ⟨rfl,here⟩,← before]
          exact shown_appendBody _ event
        · rw [if_neg here,if_neg (fun both => here both.2),← before]
          rfl

theorem apply_follows (canonicalReason : Nat → Option String)
    (consistent : Consistent maxRows maxItems history model) (event : UiEvent) :
    Follows (.event event) model (model.apply canonicalReason event) := by
  have distinct := consistent.distinct
  have http : ∀ sessionId transactionId, Grown model (model.ensureHttpRow sessionId transactionId).1 :=
    fun sessionId transactionId => ensureRow_grown model _ sessionId (some transactionId) .http
  have correlated : ∀ sessionId transactionId, Grown model (model.ensureCorrelatedRow sessionId transactionId).1 := by
    intro sessionId transactionId
    unfold TuiModel.ensureCorrelatedRow
    split <;> exact ensureRow_grown model _ _ _ _
  cases event with
  | operationalLog => exact grown_follows distinct (grown_refl model) rfl (fun _ _ => rfl)
  | flowOpened =>
      intro row member side
      obtain ⟨old,inside,rfl⟩ := List.mem_map.mp member
      have shown := TuiModel.shownAt_member distinct inside side
      split <;> cases side <;> exact shown.symm
  | httpObserved sessionId transactionId =>
      exact onRow_follows distinct (http sessionId transactionId) _
        (fun _ _ => ⟨_,quiet_observed _ _ _,rfl⟩) (fun _ _ => rfl)
  | httpResponseObserved sessionId transactionId =>
      exact onRow_follows distinct (http sessionId transactionId) _
        (fun _ _ => ⟨_,quiet_answered _ _,rfl⟩) (fun _ _ => rfl)
  | decisionMade sessionId transactionId trace target =>
      refine onRow_follows distinct (correlated sessionId transactionId) _ ?_ (fun _ _ => rfl)
      intro next index
      unfold TuiModel.recordEvaluation
      dsimp only
      split
      · exact ⟨_,by exact quiet_beside (fun _ => rfl) (fun _ => rfl) (fun _ => rfl),rfl⟩
      · exact ⟨id,quiet_beside (fun _ => rfl) (fun _ => rfl) (fun _ => rfl),(List.modify_id _ _).symm⟩
  | findingDetected sessionId transactionId =>
      exact onRow_follows distinct (correlated sessionId transactionId) _
        (fun _ _ => ⟨_,by exact quiet_beside (fun _ => rfl) (fun _ => rfl) (fun _ => rfl),rfl⟩) (fun _ _ => rfl)
  | bodyPrefix sessionId transactionId direction bytes offset observedBytes truncated =>
      exact bodyPrefix_follows canonicalReason consistent (sessionId,transactionId) direction
        ⟨bytes,offset,observedBytes,truncated⟩
  | wireCaptured sessionId transactionId direction =>
      exact onRow_follows distinct (http sessionId transactionId) _
        (fun _ _ => ⟨_,by exact quiet_modifySide direction (fun _ => rfl),countTruncation_rows _ _⟩) (fun _ _ => rfl)
  | wireCaptureFailed sessionId transactionId direction | wireCaptureUnavailable sessionId transactionId direction =>
      exact onRow_follows distinct (http sessionId transactionId) _
        (fun _ _ => ⟨_,by exact quiet_modifySide direction (fun _ => rfl),rfl⟩) (fun _ _ => rfl)
  | flowClosed sessionId clientToUpstreamBytes upstreamToClientBytes =>
      have closes : Quiet (fun row => row.close clientToUpstreamBytes upstreamToClientBytes) :=
        quiet_beside (fun _ => rfl) (fun _ => rfl) (fun _ => rfl)
      change Follows _ model (model.closeSession sessionId clientToUpstreamBytes upstreamToClientBytes)
      unfold TuiModel.closeSession
      split
      · intro row member side
        obtain ⟨old,inside,rfl⟩ := List.mem_map.mp member
        have shown := TuiModel.shownAt_member distinct inside side
        split <;> cases side <;> exact shown.symm
      · have ensured := ensureRow_grown model (fun row => row.closed && model.notPaused row) sessionId none .tcp
        exact onRow_follows distinct ensured (fun next index =>
          next.modifyRow index (fun row => row.close clientToUpstreamBytes upstreamToClientBytes))
          (fun _ _ => ⟨_,closes,rfl⟩) (fun _ _ => rfl)

end Events

theorem keyed_rows (keyed : Keyed httparse outside code state next) (none : state.pending = []) :
    next.model.rows = state.model.rows ∧ next.pending = [] := by
  have unselected : ∀ found, state.selectedPending ≠ some found := by
    intro found chosen
    unfold TuiState.selectedPending at chosen
    rw [none] at chosen
    cases selected : state.model.selectedTransactionId with
    | none | some => simp [selected] at chosen
  cases keyed with
  | unchanged | moved | picked | typed | discarded => exact ⟨rfl,none⟩
  | openedRequest closed chosen => exact absurd chosen (unselected _)
  | openedRepeat => exact ⟨rfl,none⟩
  | responded closed chosen | revisited closed chosen | created closed chosen => exact absurd chosen (unselected _)
  | sent => exact ⟨rfl,none⟩
  | deleted =>
      unfold TuiState.onModel TuiModel.deleteSelectedRepeat
      dsimp only
      split <;> exact ⟨rfl,none⟩
  | submitted opened target accepted chosen => exact absurd chosen (unselected _)
  | saved | savedAndSent =>
      refine ⟨?_,none⟩
      unfold TuiState.saveDraft TuiState.onModel TuiModel.applyRepeatEdit TuiModel.modifyWorkspace
      dsimp only
      split <;> rfl

-- Hooks that are not interactive never hand a request to the loop.
def Uninterrupted (inputs : List TuiInput) : Prop := ∀ request, TuiInput.intercept request ∉ inputs

theorem step_follows {state : TuiState} (consistent : Consistent maxRows maxItems history state.model)
    (none : state.pending = []) (input : TuiInput) (observed : ∀ request, input ≠ .intercept request) :
    Follows input state.model (state.step libs input).model ∧ (state.step libs input).pending = [] := by
  have distinct := consistent.distinct
  cases input with
  | event event => exact ⟨apply_follows libs.canonicalReason consistent event,none⟩
  | intercept request => exact absurd rfl (observed request)
  | result =>
      refine ⟨grown_follows distinct (grown_refl _) ?_ (fun _ _ => rfl),none⟩
      unfold TuiState.step TuiState.onModel TuiModel.applyRepeatResult TuiModel.modifyWorkspace
      dsimp only
      split <;> rfl
  | refresh => exact ⟨grown_follows distinct (grown_refl _) rfl (fun _ _ => rfl),none⟩
  | key outside key =>
      obtain ⟨rows,pending⟩ := keyed_rows (TuiState.step_key libs state outside key) none
      exact ⟨grown_follows distinct (grown_refl _) rows (fun _ _ => rfl),pending⟩

-- The body events that came for a side since its row was made.
abbrev BodyHistory := RowKey → SelectedSide → List BodyPrefix

def BodyHistory.hear (history : BodyHistory) (model : TuiModel) (input : TuiInput) : BodyHistory := fun key side =>
  (if key ∈ model.keys then history key side else []) ++ (heardOn key side input).toList

def hearStep (libs : Libraries) (heard : TuiState × BodyHistory) (input : TuiInput) : TuiState × BodyHistory :=
  (heard.1.step libs input,heard.2.hear heard.1.model input)

def hearRun (libs : Libraries) (start : TuiState) (inputs : List TuiInput) : TuiState × BodyHistory :=
  inputs.foldl (hearStep libs) (start,fun _ _ => [])

theorem hearRun_state :
    (hearRun libs start inputs).1 = start.run libs inputs := by
  induction inputs using List.reverseRecOn with
  | nil => rfl
  | append_singleton inputs input ih =>
      unfold hearRun at ih ⊢
      rw [List.foldl_concat,TuiState.run_concat,← ih]
      rfl

theorem hearRun_concat (input : TuiInput) :
    (hearRun libs start (inputs ++ [input])).2 =
      (hearRun libs start inputs).2.hear (start.run libs inputs).model input := by
  rw [← hearRun_state]
  unfold hearRun
  rw [List.foldl_concat]
  rfl

-- In every run without interruptions a side shows the events of its history put together.
theorem hearRun_shown (maxRows maxItems : Config.NonZero) (inputs : List TuiInput)
    (observed : Uninterrupted inputs) :
    ((TuiState.start maxRows maxItems).run libs inputs).pending = [] ∧
      ∀ row ∈ ((TuiState.start maxRows maxItems).run libs inputs).model.rows, ∀ side,
        (row.side side).shown = ((hearRun libs (.start maxRows maxItems) inputs).2 row.key side).foldl
          ShownBody.append .empty := by
  induction inputs using List.reverseRecOn with
  | nil =>
      refine ⟨rfl,?_⟩
      intro row member
      cases member
  | append_singleton inputs input ih =>
      obtain ⟨pending,shown⟩ := ih (fun request member => observed request (List.mem_append_left _ member))
      have consistent := observeRun_consistent libs maxRows maxItems inputs
      rw [observeRun_state] at consistent
      have arrives : ∀ request, input ≠ .intercept request := by
        rintro request rfl
        exact observed request (List.mem_append_right _ (List.mem_singleton_self _))
      obtain ⟨follows,still⟩ := step_follows libs consistent pending input arrives
      rw [TuiState.run_concat]
      refine ⟨still,?_⟩
      intro row member side
      rw [follows row member side,hearRun_concat,BodyHistory.hear,List.foldl_append]
      have base : ((TuiState.start maxRows maxItems).run libs inputs).model.shownAt row.key side =
          (if row.key ∈ ((TuiState.start maxRows maxItems).run libs inputs).model.keys then
            (hearRun libs (.start maxRows maxItems) inputs).2 row.key side else []).foldl
              ShownBody.append .empty := by
        split
        · rename_i present
          obtain ⟨old,inside,same⟩ := List.mem_map.mp present
          rw [← same,TuiModel.shownAt_member consistent.distinct inside,shown old inside side]
        · rename_i absent
          exact TuiModel.shownAt_absent absent side
      rw [base]
      cases heardOn row.key side input <;> rfl

theorem hearRun_heard : ∀ event ∈ (hearRun libs start inputs).2 key side,
      event ∈ inputs.filterMap (heardOn key side) := by
  induction inputs using List.reverseRecOn with
  | nil =>
      intro event member
      cases member
  | append_singleton inputs input ih =>
      intro event member
      rw [hearRun_concat,BodyHistory.hear,List.mem_append,Option.mem_toList] at member
      rw [List.filterMap_append,List.mem_append]
      rcases member with old | new
      · split at old
        · exact .inl (ih event old)
        · cases old
      · exact .inr (List.mem_filterMap.mpr ⟨input,List.mem_singleton_self input,new⟩)

-- The row of a key stays, and is there for each of its events.
def StaysFor (libs : Libraries) (key : RowKey) (side : SelectedSide) (state : TuiState) (input : TuiInput) : Prop :=
  key ∈ state.model.keys ∨ (heardOn key side input).isSome → key ∈ (state.step libs input).model.keys

theorem retained_history (inputs : List TuiInput) {heard : TuiState × BodyHistory}
    (fresh : key ∉ heard.1.model.keys → heard.2 key side = [])
    (retained : Runs.Along (TuiState.step libs) (StaysFor libs key side) heard.1 inputs) :
    (inputs.foldl (hearStep libs) heard).2 key side =
      heard.2 key side ++ inputs.filterMap (heardOn key side) := by
  induction inputs generalizing heard with
  | nil => simp
  | cons input rest ih =>
      obtain ⟨stays,later⟩ := retained
      have next : (hearStep libs heard input).2 key side = heard.2 key side ++ (heardOn key side input).toList := by
        change (if key ∈ heard.1.model.keys then heard.2 key side else []) ++ _ = _
        split
        · rfl
        · rename_i absent
          rw [fresh absent]
      have renewed : key ∉ (hearStep libs heard input).1.model.keys → (hearStep libs heard input).2 key side = [] := by
        intro absent
        have unheard : heardOn key side input = none :=
          Option.isNone_iff_eq_none.mp (by simpa using fun some => absent (stays (.inr some)))
        have before : key ∉ heard.1.model.keys := fun present => absent (stays (.inl present))
        rw [next,fresh before,unheard]
        rfl
      rw [List.foldl_cons,ih renewed later,next,List.append_assoc]
      cases told : heardOn key side input <;> simp [told]

theorem hearRun_retained (retained : Runs.Along (TuiState.step libs) (StaysFor libs key side) start inputs) :
    (hearRun libs start inputs).2 key side = inputs.filterMap (heardOn key side) :=
  retained_history libs key side inputs (fun _ => rfl) retained

end Freja.Ui
