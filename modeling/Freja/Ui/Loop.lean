import Freja.Ui.Input

namespace Freja.Ui
open Domain Policy Proxy Retention

-- What a model holds apart from how it is shown.
def TuiModel.data (model : TuiModel) : TuiModel :=
  {TuiModel.fromLimits model.maximumRows model.maximumItemsPerRow with
    nextEvaluationId := model.nextEvaluationId
    rows := model.rows
    sessions := model.sessions
    operationalLogs := model.operationalLogs
    selected := model.selected
    pausedTransactions := model.pausedTransactions
    editor := model.editor
    editorTarget := model.editorTarget
    repeatWorkspaces := model.repeatWorkspaces
    repeatSelected := model.repeatSelected}

namespace TuiState

def data (state : TuiState) : TuiState := {state with model := state.model.data}

def select (state : TuiState) (index : Nat) : TuiState := state.onModel (fun model => {model with selected := index})

def selectWorkspace (state : TuiState) (index : Nat) : TuiState :=
  state.onModel (fun model => {model with repeatSelected := index})

def withEditor (state : TuiState) (opened : OpenEditor) (target : EditorTarget) : TuiState :=
  state.onModel (fun model => {model with editor := some opened,editorTarget := some target})

def addWorkspace (state : TuiState) (request : InterceptRequest) : TuiState :=
  state.onModel (fun model => {model with
    repeatWorkspaces := model.repeatWorkspaces ++ [request.workspace]
    repeatSelected := model.repeatWorkspaces.length})

def send (state : TuiState) (command : RepeatCommand) : TuiState :=
  {state with model := state.model.markSelectedRepeatInFlight,commands := state.commands ++ [command]}

def saveDraft (state : TuiState) (source : TransactionId) (submission : RequestEditSubmission) : TuiState :=
  state.onModel (fun model => model.applyRepeatEdit source submission.headerMap submission.body)

end TuiState

open TuiState

-- All that a key can do to what the loop holds.
inductive Keyed (httparse : Httparse) (outside : Outside) (code : KeyCode) : TuiState → TuiState → Prop where
  | unchanged : Keyed httparse outside code state state
  | moved (closed : state.model.editor = none)
      (inside : Inside state.model.selected state.model.rows.length → Inside index state.model.rows.length) :
      Keyed httparse outside code state (state.select index)
  | picked (closed : state.model.editor = none)
      (inside : Inside state.model.repeatSelected state.model.repeatWorkspaces.length →
        Inside index state.model.repeatWorkspaces.length) :
      Keyed httparse outside code state (state.selectWorkspace index)
  | typed (opened : state.model.editor = some before) (after : OpenEditor) :
      Keyed httparse outside code state (state.onModel (fun model => {model with editor := some after}))
  | discarded (opened : state.model.editor = some before) : Keyed httparse outside code state state.closeEditor
  | openedRequest (closed : state.model.editor = none) (chosen : state.selectedPending = some (index,request))
      (opened : OpenEditor) : Keyed httparse outside code state (state.withEditor opened .interactive)
  | openedRepeat (closed : state.model.editor = none)
      (chosen : state.model.repeatWorkspaces[state.model.repeatSelected]? = some workspace) (opened : OpenEditor) :
      Keyed httparse outside code state (state.withEditor opened (.repeat workspace.source.transactionId))
  | responded (closed : state.model.editor = none) (chosen : state.selectedPending = some (index,request))
      (decision : InteractiveDecision) : Keyed httparse outside code state (state.respond outside index request decision).1
  | revisited (closed : state.model.editor = none) (chosen : state.selectedPending = some (index,request))
      (kept : state.model.repeatWorkspaces.findIdx?
        (fun workspace => workspace.source.transactionId = request.transactionId) = some place) :
      Keyed httparse outside code state ((state.selectWorkspace place).respond outside index request .continue).1
  | created (closed : state.model.editor = none) (chosen : state.selectedPending = some (index,request))
      (new : state.model.repeatWorkspaces.findIdx?
        (fun workspace => workspace.source.transactionId = request.transactionId) = none)
      (room : state.model.repeatWorkspaces.length < state.model.maximumRows.get) :
      Keyed httparse outside code state ((state.addWorkspace request).respond outside index request .continue).1
  | sent (closed : state.model.editor = none) (chosen : state.model.selectedRepeatRequest = some command) :
      Keyed httparse outside code state (state.send command)
  | deleted (closed : state.model.editor = none)
      (chosen : state.model.repeatWorkspaces[state.model.repeatSelected]? = some workspace)
      (idle : workspace.inFlight = false) (pressed : code = .char 'd') :
      Keyed httparse outside code state (state.onModel (fun model => model.deleteSelectedRepeat.1))
  | submitted (opened : state.model.editor = some before) (target : state.model.editorTarget = some .interactive)
      (accepted : before.editor.submission httparse = .ok submission)
      (chosen : state.selectedPending = some (index,request)) :
      Keyed httparse outside code state (state.submitEdited outside submission).closeEditor
  | saved (opened : state.model.editor = some before) (target : state.model.editorTarget = some (.repeat source))
      (accepted : before.editor.submission httparse = .ok submission) :
      Keyed httparse outside code state (state.saveDraft source submission).closeEditor
  | savedAndSent (opened : state.model.editor = some before)
      (target : state.model.editorTarget = some (.repeat source))
      (accepted : before.editor.submission httparse = .ok submission)
      (chosen : (state.saveDraft source submission).model.selectedRepeatRequest = some command) :
      Keyed httparse outside code state ((state.saveDraft source submission).send command).closeEditor

namespace TuiModel

variable (model : TuiModel)

theorem closeRuleDetail_data : model.closeRuleDetail.data = model.data := by
  unfold closeRuleDetail
  split <;> rfl

theorem handleDetailKey_data (detail : RuleDetail) (code : KeyCode) :
    (model.handleDetailKey detail code).data = model.data := by
  unfold handleDetailKey
  split
  all_goals first | exact closeRuleDetail_data model | rfl

theorem selectEvaluation_data (next : Bool) : (model.selectEvaluation next).data = model.data := by
  unfold selectEvaluation
  split
  · rfl
  · dsimp only
    split <;> rfl

theorem openRuleDetail_data : model.openRuleDetail.data = model.data := by
  unfold openRuleDetail
  split
  · rfl
  · split <;> rfl

theorem handleEvidenceKey_data {model : TuiModel} (handled : model.handleEvidenceKey code = some shown) :
    shown.data = model.data := by
  unfold handleEvidenceKey at handled
  split at handled
  · rw [← Option.some.inj handled,selectEvaluation_data]
  · rw [← Option.some.inj handled,selectEvaluation_data]
  · rw [← Option.some.inj handled,openRuleDetail_data]
  · rw [← Option.some.inj handled]
    rfl
  · cases handled

theorem scroll_data (down : Bool) (amount : Nat) : (model.scroll down amount).data = model.data := by
  unfold scroll
  split
  · rfl
  · dsimp only
    split <;> rfl

theorem focusNext_data : model.focusNext.data = model.data := by
  unfold focusNext
  split <;> rfl

theorem focusPrevious_data : model.focusPrevious.data = model.data := by
  unfold focusPrevious
  split <;> rfl

theorem cycleLayout_data : model.cycleLayout.data = model.data := by
  unfold cycleLayout
  split <;> rfl

theorem handleControlKey_data (code : KeyCode) : (model.handleControlKey code).data = model.data := by
  unfold handleControlKey
  split
  all_goals first | exact focusPrevious_data model | exact focusNext_data model | rfl

theorem modifyWorkspace_data (source : TransactionId) (change : RepeatWorkspace → RepeatWorkspace) :
    (model.modifyWorkspace source change).data = model.data.modifyWorkspace source change := by
  have same : model.data.repeatWorkspaces = model.repeatWorkspaces := rfl
  unfold modifyWorkspace
  rw [same]
  cases model.repeatWorkspaces.findIdx? (fun workspace => workspace.source.transactionId = source) <;> rfl

theorem deleteSelectedRepeat_data :
    (model.deleteSelectedRepeat.1).data = model.data.deleteSelectedRepeat.1 := by
  have same : model.data.repeatWorkspaces[model.data.repeatSelected]? = model.repeatWorkspaces[model.repeatSelected]? :=
    rfl
  unfold deleteSelectedRepeat
  rw [same]
  split <;> rfl

end TuiModel

section Keys

variable {httparse : Httparse} {absoluteHttp : String → Bool} {outside : Outside} {code : KeyCode} {state : TuiState}

theorem keyed_shown {model : TuiModel} (shown : model.data = state.model.data) :
    Keyed httparse outside code state.data ({state with model := model} : TuiState).data := by
  have same : ({state with model := model} : TuiState).data = state.data := by
    unfold TuiState.data
    rw [shown]
  rw [same]
  exact .unchanged

theorem selectPrevious_keyed (closed : state.data.model.editor = none) :
    Keyed httparse outside code state.data (state.onModel TuiModel.selectPrevious).data := by
  unfold TuiState.onModel TuiModel.selectPrevious
  split
  · have picked : Keyed httparse outside code state.data (state.data.selectWorkspace (state.model.repeatSelected - 1)) :=
      .picked closed inside_back
    exact picked
  · have moved : Keyed httparse outside code state.data (state.data.select (state.model.selected - 1)) :=
      .moved closed inside_back
    dsimp only
    split <;> exact moved

theorem selectNext_keyed (closed : state.data.model.editor = none) :
    Keyed httparse outside code state.data (state.onModel TuiModel.selectNext).data := by
  unfold TuiState.onModel TuiModel.selectNext
  split
  · split
    · rename_i inside
      have picked : Keyed httparse outside code state.data (state.data.selectWorkspace (state.model.repeatSelected + 1)) :=
        .picked closed (fun _ => inside_of_lt inside)
      exact picked
    · exact .unchanged
  · split
    · rename_i inside
      have moved : Keyed httparse outside code state.data (state.data.select (state.model.selected + 1)) :=
        .moved closed (fun _ => inside_of_lt inside)
      dsimp only
      split <;> exact moved
    · exact .unchanged

theorem navigate_keyed (closed : state.data.model.editor = none) (down : Bool) :
    Keyed httparse outside code state.data (state.onModel (fun model =>
      if model.listFocused then (if down then model.selectNext else model.selectPrevious) else model.scroll down 1)).data := by
  unfold TuiState.onModel
  dsimp only
  split
  · cases down with
    | true => exact selectNext_keyed closed
    | false => exact selectPrevious_keyed closed
  · exact keyed_shown (TuiModel.scroll_data _ _ _)

theorem handleExpandedKey_keyed (closed : state.data.model.editor = none) (code : KeyCode) :
    Keyed httparse outside code state.data (state.onModel (fun model => model.handleExpandedKey code)).data := by
  unfold TuiState.onModel TuiModel.handleExpandedKey
  split
  · exact navigate_keyed closed false
  · exact navigate_keyed closed false
  · exact navigate_keyed closed true
  · exact navigate_keyed closed true
  · exact keyed_shown (TuiModel.scroll_data _ _ _)
  · exact keyed_shown (TuiModel.scroll_data _ _ _)
  · exact .unchanged
  · exact .unchanged
  · exact .unchanged
  · exact .unchanged

theorem respond_data (index : Nat) (request : InterceptRequest) (decision : InteractiveDecision) :
    (state.respond outside index request decision).1.data = (state.data.respond outside index request decision).1 := by
  unfold TuiState.respond
  dsimp only
  split <;> rfl

theorem respondSelected_keyed (closed : state.data.model.editor = none) (decision : InteractiveDecision) :
    Keyed httparse outside code state.data (state.respondSelected outside decision).1.data := by
  unfold TuiState.respondSelected
  cases chosen : state.selectedPending with
  | none => exact .unchanged
  | some found =>
      have shown : state.data.selectedPending = some (found.1,found.2) := chosen
      simp only
      rw [respond_data]
      exact .responded closed shown decision

theorem editorOpened_keyed (target : EditorTarget) (insertMode : Bool) (editor : RequestEditor)
    (step : ∀ opened : OpenEditor, Keyed httparse outside code state.data (state.data.withEditor opened target)) :
    Keyed httparse outside code state.data (state.editorOpened insertMode
      (.ok {state.model with editor := some ⟨editor,.normal⟩,editorTarget := some target})).data := by
  unfold TuiState.editorOpened
  cases insertMode with
  | true => exact step ⟨editor,.insert⟩
  | false => exact step ⟨editor,.normal⟩

theorem openRequestEditor_keyed (closed : state.data.model.editor = none) (insertMode : Bool) :
    Keyed httparse outside code state.data (state.openRequestEditor insertMode).data := by
  unfold TuiState.openRequestEditor TuiModel.openRequestEditor
  cases chosen : state.selectedPending with
  | none => exact .unchanged
  | some found =>
      have shown : state.data.selectedPending = some (found.1,found.2) := chosen
      cases opened : RequestEditor.new found.2.request with
      | error =>
          simp only [opened]
          exact .unchanged
      | ok editor =>
          simp only [opened]
          exact editorOpened_keyed .interactive insertMode editor (fun opened => .openedRequest closed shown opened)

theorem enterInsertMode_data {model : TuiModel} (closed : model.editor = none) :
    (enterInsertMode model).data = model.data := by
  unfold enterInsertMode TuiModel.data
  rw [closed]
  rfl

theorem openRepeatEditor_keyed (closed : state.data.model.editor = none) (insertMode : Bool) :
    Keyed httparse outside code state.data (state.openRepeatEditor insertMode).data := by
  unfold TuiState.openRepeatEditor TuiModel.openRepeatEditor
  cases chosen : state.model.repeatWorkspaces[state.model.repeatSelected]? with
  | none =>
      unfold TuiState.editorOpened
      cases insertMode with
      | true => exact keyed_shown (enterInsertMode_data closed)
      | false => exact .unchanged
  | some workspace =>
      have shown : state.data.model.repeatWorkspaces[state.data.model.repeatSelected]? = some workspace := chosen
      cases opened : RequestEditor.new workspace.request with
      | error =>
          simp only [opened]
          exact .unchanged
      | ok editor =>
          simp only [opened]
          exact editorOpened_keyed (.repeat workspace.source.transactionId) insertMode editor
            (fun opened => .openedRepeat closed shown opened)

theorem createRepeatWorkspace_cases (absoluteHttp : String → Bool) (model : TuiModel) (request : InterceptRequest) :
    (∃ place, model.repeatWorkspaces.findIdx?
        (fun workspace => workspace.source.transactionId = request.transactionId) = some place ∧
      model.createRepeatWorkspace absoluteHttp request = ({model with repeatSelected := place}.showRepeat,true)) ∨
    (∃ text, model.createRepeatWorkspace absoluteHttp request = (model.setInputNotice text,false)) ∨
    model.repeatWorkspaces.findIdx? (fun workspace => workspace.source.transactionId = request.transactionId) = none ∧
      model.repeatWorkspaces.length < model.maximumRows.get ∧
      model.createRepeatWorkspace absoluteHttp request = ({model with
        repeatWorkspaces := model.repeatWorkspaces ++ [request.workspace]
        repeatSelected := model.repeatWorkspaces.length}.showRepeat,true) := by
  unfold TuiModel.createRepeatWorkspace
  cases found : model.repeatWorkspaces.findIdx? (fun workspace => workspace.source.transactionId = request.transactionId) with
  | some place => exact .inl ⟨place,rfl,rfl⟩
  | none =>
      dsimp only
      split
      · exact .inr (.inl ⟨_,rfl⟩)
      · rename_i room
        split
        · exact .inr (.inl ⟨_,rfl⟩)
        · cases editable : RequestEditor.new request.request with
          | error => exact .inr (.inl ⟨_,rfl⟩)
          | ok =>
              refine .inr (.inr ⟨rfl,Nat.lt_of_not_ge room,?_⟩)
              simp

theorem continueOriginal_data (index : Nat) (request : InterceptRequest) :
    (state.continueOriginal outside index request).data = (state.data.respond outside index request .continue).1 := by
  rw [← respond_data]
  unfold continueOriginal
  split
  · rename_i answered
    rw [answered]
  · rename_i expired
    rw [expired]
    rfl

theorem createRepeatWorkspace_keyed (closed : state.data.model.editor = none) :
    Keyed httparse outside code state.data (state.createRepeatWorkspace absoluteHttp outside).data := by
  unfold TuiState.createRepeatWorkspace
  split
  · exact .unchanged
  · split
    · exact .unchanged
    · cases chosen : state.selectedPending with
      | none => exact .unchanged
      | some found =>
          have shown : state.data.selectedPending = some (found.1,found.2) := chosen
          rcases createRepeatWorkspace_cases absoluteHttp state.model found.2 with
            ⟨place,kept,done⟩ | ⟨text,done⟩ | ⟨new,room,done⟩
          · simp only [done]
            rw [continueOriginal_data]
            exact .revisited closed shown kept
          · simp only [done]
            exact .unchanged
          · simp only [done]
            rw [continueOriginal_data]
            exact .created closed shown new room

theorem sendRepeat_cases (outside : Outside) (state : TuiState) :
    (∃ command, state.model.selectedRepeatRequest = some command ∧ state.sendRepeat outside = state.send command) ∨
    ∃ text, state.sendRepeat outside = state.notice text := by
  unfold TuiState.sendRepeat
  cases outside.executor with
  | none => exact .inr ⟨_,rfl⟩
  | some outcome =>
      cases chosen : state.model.selectedRepeatRequest with
      | none => exact .inr ⟨_,rfl⟩
      | some command =>
          cases outcome with
          | sent => exact .inl ⟨command,rfl,rfl⟩
          | full | closed => exact .inr ⟨_,rfl⟩

theorem sendRepeat_keyed (closed : state.data.model.editor = none) :
    Keyed httparse outside code state.data (state.sendRepeat outside).data := by
  rcases sendRepeat_cases outside state with ⟨command,chosen,done⟩ | ⟨text,done⟩
  · rw [done]
    exact .sent closed chosen
  · rw [done]
    exact .unchanged

theorem delete_data : (state.onModel (fun model => model.deleteSelectedRepeat.1)).data =
    state.data.onModel (fun model => model.deleteSelectedRepeat.1) := by
  unfold onModel TuiState.data
  rw [TuiModel.deleteSelectedRepeat_data]

theorem deleteRepeat_keyed (closed : state.data.model.editor = none) (pressed : code = .char 'd') :
    Keyed httparse outside code state.data state.deleteRepeat.data := by
  unfold TuiState.deleteRepeat
  cases chosen : state.model.repeatWorkspaces[state.model.repeatSelected]? with
  | none =>
      have refused : state.model.deleteSelectedRepeat = (state.model,false) := by
        unfold TuiModel.deleteSelectedRepeat
        rw [chosen]
        rfl
      rw [refused]
      exact .unchanged
  | some workspace =>
      cases flying : workspace.inFlight with
      | true =>
          have refused : state.model.deleteSelectedRepeat = (state.model,false) := by
            unfold TuiModel.deleteSelectedRepeat
            rw [chosen,Option.all_some,flying]
            rfl
          rw [refused]
          exact .unchanged
      | false =>
          have shown : state.data.model.repeatWorkspaces[state.data.model.repeatSelected]? = some workspace := chosen
          have step : Keyed httparse outside code state.data _ := .deleted closed shown flying pressed
          have done : state.model.deleteSelectedRepeat = (state.model.deleteSelectedRepeat.1,true) := by
            unfold TuiModel.deleteSelectedRepeat
            rw [chosen,Option.all_some,flying]
            rfl
          rw [← delete_data] at step
          rw [done]
          exact step

theorem saveDraft_data (source : TransactionId) (submission : RequestEditSubmission) :
    (state.saveDraft source submission).data = state.data.saveDraft source submission := by
  unfold TuiState.saveDraft TuiState.onModel TuiState.data TuiModel.applyRepeatEdit
  rw [TuiModel.modifyWorkspace_data]

theorem submitEdited_data (outside : Outside) (target : state.model.editorTarget = some .interactive)
    (submission : RequestEditSubmission) :
    (state.submitEdited outside submission).data = state.data.submitEdited outside submission := by
  have same : state.data.model.editorTarget = some .interactive := target
  have pending : state.data.selectedPending = state.selectedPending := rfl
  unfold TuiState.submitEdited TuiState.respondSelected
  rw [target,same,pending]
  cases state.selectedPending with
  | none => rfl
  | some found =>
      unfold TuiState.respond
      dsimp only
      cases outside.listening found.2.responder <;> rfl

theorem submitEditor_keyed (before : OpenEditor) (opened : state.data.model.editor = some before) :
    Keyed httparse outside code state.data (state.submitEditor httparse outside).data := by
  have shown : state.model.editor = some before := opened
  unfold TuiState.submitEditor
  rw [shown]
  dsimp only
  cases accepted : before.editor.submission httparse with
  | error => exact .unchanged
  | ok submission =>
      cases target : state.model.editorTarget with
      | none =>
          have kept : state.submitEdited outside submission = state := by
            unfold TuiState.submitEdited
            rw [target]
          simp only [kept]
          exact .discarded opened
      | some target' =>
          cases target' with
          | interactive =>
              have data := submitEdited_data outside target submission
              cases chosen : state.selectedPending with
              | none =>
                  have kept : state.submitEdited outside submission = state := by
                    unfold TuiState.submitEdited TuiState.respondSelected
                    rw [target,chosen]
                  simp only [kept]
                  exact .discarded opened
              | some found =>
                  have selected : state.data.selectedPending = some (found.1,found.2) := chosen
                  have step : Keyed httparse outside code state.data _ := .submitted opened target accepted selected
                  rw [← data] at step
                  exact step
          | «repeat» source =>
              have saved : state.submitEdited outside submission =
                  (state.saveDraft source submission).sendRepeat outside := by
                unfold TuiState.submitEdited TuiState.saveDraft
                rw [target]
              rcases sendRepeat_cases outside (state.saveDraft source submission) with
                ⟨command,chosen,done⟩ | ⟨text,done⟩
              · have selected : (state.data.saveDraft source submission).model.selectedRepeatRequest = some command := by
                  rw [← saveDraft_data]
                  exact chosen
                have step : Keyed httparse outside code state.data _ := .savedAndSent opened target accepted selected
                rw [← saveDraft_data] at step
                simp only [saved,done]
                exact step
              · have step : Keyed httparse outside code state.data _ := .saved opened target accepted
                rw [← saveDraft_data] at step
                simp only [saved,done]
                exact step

theorem handleEditorKey_keyed (before : OpenEditor) (opened : state.data.model.editor = some before) (key : KeyEvent) :
    Keyed httparse outside code state.data (state.handleEditorKey httparse outside key before).data := by
  have typed : Keyed httparse outside code state.data (state.typeKey outside before).data := .typed opened _
  unfold handleEditorKey
  split
  · exact submitEditor_keyed before opened
  · split
    · unfold handleEditorNormalKey
      split
      · exact .discarded opened
      · exact submitEditor_keyed before opened
      · have inserting : (state.onModel enterInsertMode).data =
            state.data.onModel (fun model => {model with editor := some {before with mode := .insert}}) := by
          have shown : state.model.editor = some before := opened
          unfold onModel enterInsertMode TuiState.data TuiModel.data
          rw [shown]
          rfl
        rw [inserting]
        exact .typed opened _
      · exact .unchanged
    · unfold handleEditorInsertKey
      split
      all_goals first | exact typed | skip
      · split
        · exact .unchanged
        · exact typed
      · exact .unchanged

theorem handleExpandedPane_keyed (closed : state.data.model.editor = none) (code : KeyCode) :
    Keyed httparse outside code state.data (state.handleExpandedPane absoluteHttp outside code).data := by
  unfold handleExpandedPane
  split
  · exact createRepeatWorkspace_keyed closed
  split
  · exact openRepeatEditor_keyed closed false
  split
  · exact openRepeatEditor_keyed closed true
  split
  · exact sendRepeat_keyed closed
  split
  · rename_i pressed
    exact deleteRepeat_keyed closed pressed.1
  split
  · exact openRequestEditor_keyed closed false
  split
  · exact openRequestEditor_keyed closed true
  · exact handleExpandedKey_keyed closed code

theorem handlePageKey_keyed (closed : state.data.model.editor = none) (code : KeyCode) :
    Keyed httparse outside code state.data (state.handlePageKey absoluteHttp outside code).data := by
  unfold handlePageKey
  split
  · exact .unchanged
  · exact .unchanged
  · exact .unchanged
  · split
    · exact createRepeatWorkspace_keyed closed
    · exact .unchanged
  · exact keyed_shown (TuiModel.cycleLayout_data _)
  · exact .unchanged
  · exact .unchanged
  · exact .unchanged
  · exact keyed_shown (TuiModel.focusNext_data _)
  · exact navigate_keyed closed false
  · exact navigate_keyed closed false
  · exact navigate_keyed closed true
  · exact navigate_keyed closed true
  · exact keyed_shown (TuiModel.scroll_data _ _ _)
  · exact keyed_shown (TuiModel.scroll_data _ _ _)
  · split
    · exact respondSelected_keyed closed _
    · exact .unchanged
  · split
    · exact respondSelected_keyed closed _
    · exact .unchanged
  · split
    · exact respondSelected_keyed closed _
    · exact .unchanged
  · split
    · exact sendRepeat_keyed closed
    · exact .unchanged
  · split
    · exact deleteRepeat_keyed closed rfl
    · exact .unchanged
  · split
    · exact openRepeatEditor_keyed closed false
    · split
      · exact openRequestEditor_keyed closed false
      · exact .unchanged
  · split
    · exact openRepeatEditor_keyed closed true
    · split
      · exact openRequestEditor_keyed closed true
      · exact .unchanged
  · exact .unchanged
  · exact .unchanged

theorem handleMainKey_keyed (closed : state.data.model.editor = none) (key : KeyEvent) :
    Keyed httparse outside key.code state.data (state.handleMainKey absoluteHttp outside key).data := by
  unfold handleMainKey
  split
  · exact .unchanged
  split
  · exact .unchanged
  split
  · exact handleExpandedPane_keyed closed key.code
  split
  · exact keyed_shown (TuiModel.handleControlKey_data _ _)
  · exact handlePageKey_keyed closed key.code

theorem handleKey_keyed (key : KeyEvent) (state : TuiState) :
    Keyed httparse outside key.code state.data (state.handleKeyWithRepeat httparse absoluteHttp outside key).1.data := by
  unfold handleKeyWithRepeat
  split
  · exact .unchanged
  · split
    · rename_i opened open'
      exact handleEditorKey_keyed opened open' key
    · rename_i closed
      split
      · exact keyed_shown (TuiModel.handleDetailKey_data _ _ _)
      · split
        · rename_i handled
          split at handled
          · exact keyed_shown (TuiModel.handleEvidenceKey_data handled)
          · cases handled
        · have step := @handleMainKey_keyed httparse absoluteHttp outside (state.onModel TuiModel.clearInputNotice)
            closed key
          exact step

section Responding

variable (state : TuiState) (outside : Outside) (index : Nat) (request : InterceptRequest) (decision : InteractiveDecision)

theorem respond_model : (state.respond outside index request decision).1.model = state.model := by
  unfold TuiState.respond
  dsimp only
  split <;> rfl

theorem respond_pending : (state.respond outside index request decision).1.pending = state.pending.eraseIdx index := by
  unfold TuiState.respond
  dsimp only
  split <;> rfl

end Responding

theorem submitEdited_chosen (outside : Outside) (target : state.model.editorTarget = some .interactive)
    (chosen : state.selectedPending = some (index,request)) (submission : RequestEditSubmission) :
    ∃ model, (model = state.model ∨ model = state.model.applyEditedRequest submission.headers submission.body) ∧
      state.submitEdited outside submission =
        {(state.respond outside index request submission.decision).1 with model := model} := by
  unfold TuiState.submitEdited TuiState.respondSelected TuiState.respond
  rw [target,chosen]
  dsimp only
  cases outside.listening request.responder with
  | true => exact ⟨_,.inr rfl,rfl⟩
  | false => exact ⟨_,.inl rfl,rfl⟩

end Keys

-- Crates the loop asks: the HTTP parser, the URI type and the table of reasons.
structure Libraries where
  httparse : Httparse
  absoluteHttp : String → Bool
  canonicalReason : Nat → Option String

inductive TuiInput where
  | event (event : UiEvent)
  | intercept (request : InterceptRequest)
  | result (result : RepeatResult)
  | refresh (droppedEvents : Nat)
  | key (outside : Outside) (key : KeyEvent)

namespace TuiState

variable (libs : Libraries)

def start (maximumRows maximumItemsPerRow : Config.NonZero) : TuiState :=
  ⟨.fromLimits maximumRows maximumItemsPerRow,[],[],[]⟩

def drainIntercept (state : TuiState) (request : InterceptRequest) : TuiState :=
  {state with model := state.model.applyInterceptRequest request,pending := state.pending ++ [request]}

def pausedTransactions (state : TuiState) : List TransactionId := state.pending.map InterceptRequest.transactionId

def refresh (state : TuiState) (droppedEvents : Nat) : TuiState :=
  state.onModel (fun model => (model.setDroppedEvents droppedEvents).setInteractiveState state.pausedTransactions)

def step (state : TuiState) : TuiInput → TuiState
  | .event event => state.onModel (fun model => model.apply libs.canonicalReason event)
  | .intercept request => state.drainIntercept request
  | .result result => state.onModel (fun model => model.applyRepeatResult result)
  | .refresh droppedEvents => state.refresh droppedEvents
  | .key outside key => (state.handleKeyWithRepeat libs.httparse libs.absoluteHttp outside key).1

def run (state : TuiState) (inputs : List TuiInput) : TuiState := inputs.foldl (step libs) state

theorem run_concat (state : TuiState) (inputs : List TuiInput) (input : TuiInput) :
    state.run libs (inputs ++ [input]) = (state.run libs inputs).step libs input := by
  unfold run
  rw [List.foldl_concat]

theorem step_key (state : TuiState) (outside : Outside) (key : KeyEvent) :
    Keyed libs.httparse outside key.code state.data (state.step libs (.key outside key)).data :=
  handleKey_keyed key state

end TuiState

-- One turn of the loop: all that has arrived is taken in, then one key.
structure Turn where
  events : List UiEvent
  intercepts : List InterceptRequest
  results : List RepeatResult
  droppedEvents : Nat
  pressed : Option (Outside × KeyEvent)

def Turn.inputs (turn : Turn) : List TuiInput :=
  turn.events.map .event ++ turn.intercepts.map .intercept ++ turn.results.map .result ++
    .refresh turn.droppedEvents :: (turn.pressed.map (fun pressed => .key pressed.1 pressed.2)).toList

end Freja.Ui
