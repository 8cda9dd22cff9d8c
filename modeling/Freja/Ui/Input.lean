import Freja.Ui.Model

namespace Freja.Ui
open Domain Policy Proxy

inductive KeyCode where
  | char (character : Char)
  | enter
  | tab
  | esc
  | backspace
  | delete
  | up
  | down
  | left
  | right
  | home
  | endKey
  | pageUp
  | pageDown
  | other
  deriving DecidableEq, Repr

-- A key that is pressed; other events of the terminal are dropped on reading.
structure KeyEvent where
  code : KeyCode
  control : Bool
  alt : Bool
  deriving DecidableEq, Repr

inductive SendOutcome where
  | sent
  | full
  | closed
  deriving DecidableEq, Repr

-- What a key finds outside the loop: what the text buffer makes of it, whether a
-- repeat executor is there and takes a command, and which responders are awaited.
structure Outside where
  typed : EditorMode × List UInt8
  executor : Option SendOutcome
  listening : Nat → Bool

-- The loop's own state, with the decisions and commands that left it.
structure TuiState where
  model : TuiModel
  pending : List InterceptRequest
  answers : List (InterceptRequest × InteractiveDecision)
  commands : List RepeatCommand

def pageScrollRows : Nat := 10

namespace TuiState

def onModel (state : TuiState) (change : TuiModel → TuiModel) : TuiState := {state with model := change state.model}

def notice (state : TuiState) (text : String) : TuiState := state.onModel (fun model => model.setInputNotice text)

def selectedPending (state : TuiState) : Option (Nat × InterceptRequest) :=
  state.model.selectedTransactionId.bind (fun transactionId =>
    (state.pending.findIdx? (fun request => request.transactionId = transactionId)).bind (fun index =>
      state.pending[index]?.map (fun request => (index,request))))

-- A decision for a request that waits; the request is forgotten whether or not its
-- responder is still there.
def respond (outside : Outside) (state : TuiState) (index : Nat) (request : InterceptRequest)
    (decision : InteractiveDecision) : TuiState × Bool :=
  let pending := state.pending.eraseIdx index
  if outside.listening request.responder then
    ({state with pending := pending,answers := state.answers ++ [(request,decision)]},true)
  else ({state with pending := pending},false)

def respondSelected (outside : Outside) (state : TuiState) (decision : InteractiveDecision) : TuiState × Bool :=
  match state.selectedPending with
  | none => (state,false)
  | some (index,request) => state.respond outside index request decision

def enterInsertMode (model : TuiModel) : TuiModel :=
  {model with editor := model.editor.map (fun editor => {editor with mode := .insert})}

def editorOpened (state : TuiState) (insertMode : Bool) (opened : Except RequestEditError TuiModel) : TuiState :=
  match opened with
  | .ok model => {state with model := if insertMode then enterInsertMode model else model}
  | .error error => state.notice ("request editor unavailable: " ++ error.text)

def openRequestEditor (state : TuiState) (insertMode : Bool) : TuiState :=
  match state.selectedPending with
  | none => state
  | some (_,request) => state.editorOpened insertMode (state.model.openRequestEditor request)

def openRepeatEditor (state : TuiState) (insertMode : Bool) : TuiState :=
  state.editorOpened insertMode state.model.openRepeatEditor

def continueOriginal (outside : Outside) (state : TuiState) (index : Nat) (request : InterceptRequest) : TuiState :=
  match state.respond outside index request .continue with
  | (answered,true) => answered
  | (expired,false) => expired.notice "original request expired; repeat workspace remains available"

def createRepeatWorkspace (absoluteHttp : String → Bool) (outside : Outside) (state : TuiState) : TuiState :=
  if outside.executor = none then state.notice "repeat executor is unavailable"
  else
    match state.model.selectedTransactionId with
    | none => state
    | some _ =>
        match state.selectedPending with
        | none => state.notice "only a currently paused request can enter repeat mode"
        | some (index,request) =>
            match state.model.createRepeatWorkspace absoluteHttp request with
            | (model,false) => {state with model := model}
            | (model,true) => {state with model := model}.continueOriginal outside index request

def sendRepeat (outside : Outside) (state : TuiState) : TuiState :=
  match outside.executor with
  | none => state.notice "repeat executor is unavailable"
  | some outcome =>
      match state.model.selectedRepeatRequest with
      | none => state.notice "repeat workspace is already in flight or unavailable"
      | some command =>
          match outcome with
          | .sent => {state with
              model := state.model.markSelectedRepeatInFlight
              commands := state.commands ++ [command]}
          | .full => state.notice "repeat request queue is full"
          | .closed => state.notice "repeat executor is closed"

def deleteRepeat (state : TuiState) : TuiState :=
  match state.model.deleteSelectedRepeat with
  | (model,true) => {state with model := model}
  | (model,false) => {state with model := model}.notice "an in-flight repeat workspace cannot be deleted"

def closeEditor (state : TuiState) : TuiState :=
  state.onModel (fun model => {model with editor := none,editorTarget := none})

def submitEdited (outside : Outside) (state : TuiState) (submission : RequestEditSubmission) : TuiState :=
  match state.model.editorTarget with
  | some .interactive =>
      match state.respondSelected outside submission.decision with
      | (answered,true) => answered.onModel (fun model => model.applyEditedRequest submission.headers submission.body)
      | (unanswered,false) => unanswered
  | some (.repeat source) =>
      (state.onModel (fun model => model.applyRepeatEdit source submission.headerMap submission.body)).sendRepeat outside
  | none => state

-- A text that cannot be submitted leaves the editor open.
def submitEditor (httparse : Httparse) (outside : Outside) (state : TuiState) : TuiState :=
  match state.model.editor with
  | none => state
  | some opened =>
      match opened.editor.submission httparse with
      | .error _ => state
      | .ok submission => (state.submitEdited outside submission).closeEditor

-- Keys that go to the text buffer.
def typeKey (outside : Outside) (state : TuiState) (opened : OpenEditor) : TuiState :=
  let editor := {opened.editor with document := outside.typed.2}
  state.onModel (fun model => {model with editor := some ⟨editor,outside.typed.1⟩})

def handleEditorNormalKey (httparse : Httparse) (outside : Outside) (key : KeyEvent) (state : TuiState) : TuiState :=
  match key.code with
  | .char 'q' => state.closeEditor
  | .char 's' => state.submitEditor httparse outside
  | .char 'i' => state.onModel enterInsertMode
  -- The motions move the cursor of the buffer.
  | _ => state

def handleEditorInsertKey (outside : Outside) (key : KeyEvent) (state : TuiState) (opened : OpenEditor) : TuiState :=
  match key.code with
  | .esc | .enter | .tab | .backspace | .delete => state.typeKey outside opened
  | .char _ => if key.control || key.alt then state else state.typeKey outside opened
  | _ => state

def handleEditorKey (httparse : Httparse) (outside : Outside) (key : KeyEvent) (state : TuiState)
    (opened : OpenEditor) : TuiState :=
  if key.code = .char 's' ∧ key.control then state.submitEditor httparse outside
  else
    match opened.mode with
    | .normal => state.handleEditorNormalKey httparse outside key
    | .insert => state.handleEditorInsertKey outside key opened

end TuiState

namespace TuiModel

def scrollDetail (model : TuiModel) (detail : RuleDetail) (scroll : Nat) : TuiModel :=
  {model with evidenceView := {model.evidenceView with detail := some {detail with scroll := scroll}}}

def handleDetailKey (model : TuiModel) (detail : RuleDetail) : KeyCode → TuiModel
  | .enter | .char 'q' => model.closeRuleDetail
  | .up | .char 'k' => model.scrollDetail detail (detail.scroll - 1)
  | .down | .char 'j' => model.scrollDetail detail (min (detail.scroll + 1) u16Max)
  | .pageUp => model.scrollDetail detail (detail.scroll - pageScrollRows)
  | .pageDown => model.scrollDetail detail (min (detail.scroll + pageScrollRows) u16Max)
  | .home => model.scrollDetail detail 0
  | _ => model

-- Keys of their own that the evidence pane has.
def handleEvidenceKey (model : TuiModel) : KeyCode → Option TuiModel
  | .char 'j' => some (model.selectEvaluation true)
  | .char 'k' => some (model.selectEvaluation false)
  | .enter => some model.openRuleDetail
  | .char 'z' => some model.expandFocusedPane
  | _ => none

def listFocused (model : TuiModel) : Bool := model.focus == .flows || model.focus == .repeatWorkspaces

def handleExpandedKey (model : TuiModel) : KeyCode → TuiModel
  | .up | .char 'k' => if model.listFocused then model.selectPrevious else model.scroll false 1
  | .down | .char 'j' => if model.listFocused then model.selectNext else model.scroll true 1
  | .pageUp => model.scroll false pageScrollRows
  | .pageDown => model.scroll true pageScrollRows
  | .char 'h' => model.selectRequestSide
  | .char 'l' => model.selectResponseSide
  | .char 'm' => model.cycleDisplayMode
  | _ => model

def handleControlKey (model : TuiModel) : KeyCode → TuiModel
  | .char 'h' | .char 'k' => model.focusPrevious
  | .char 'j' | .char 'l' => model.focusNext
  | _ => model

end TuiModel

def isExitKey (key : KeyEvent) : Bool := key.code == .char 'Q' || (key.code == .char 'c' && key.control)

namespace TuiState

variable (httparse : Httparse) (absoluteHttp : String → Bool) (outside : Outside)

def handleExpandedPane (code : KeyCode) (state : TuiState) : TuiState :=
  if code = .char 'R' ∧ state.model.page = .traffic then state.createRepeatWorkspace absoluteHttp outside
  else if code = .char 'e' ∧ state.model.page = .repeat then state.openRepeatEditor false
  else if code = .char 'i' ∧ state.model.page = .repeat then state.openRepeatEditor true
  else if code = .char 's' ∧ state.model.page = .repeat then state.sendRepeat outside
  else if code = .char 'd' ∧ state.model.page = .repeat then state.deleteRepeat
  else if code = .char 'e' ∧ state.model.selectedIsPaused then state.openRequestEditor false
  else if code = .char 'i' ∧ state.model.selectedIsPaused then state.openRequestEditor true
  else state.onModel (fun model => model.handleExpandedKey code)

def handlePageKey (state : TuiState) : KeyCode → TuiState
  | .char '1' => state.onModel TuiModel.showTraffic
  | .char '2' => state.onModel TuiModel.showDiagnostics
  | .char '3' => state.onModel TuiModel.showRepeat
  | .char 'R' => if state.model.page = .traffic then state.createRepeatWorkspace absoluteHttp outside else state
  | .char 'v' => state.onModel TuiModel.cycleLayout
  | .char 'm' => state.onModel TuiModel.cycleDisplayMode
  | .char 'h' => state.onModel TuiModel.selectRequestSide
  | .char 'l' => state.onModel TuiModel.selectResponseSide
  | .tab => state.onModel TuiModel.focusNext
  | .up | .char 'k' => state.onModel (fun model => if model.listFocused then model.selectPrevious else model.scroll false 1)
  | .down | .char 'j' => state.onModel (fun model => if model.listFocused then model.selectNext else model.scroll true 1)
  | .pageUp => state.onModel (fun model => model.scroll false pageScrollRows)
  | .pageDown => state.onModel (fun model => model.scroll true pageScrollRows)
  | .char 'c' => if state.model.page ≠ .repeat then (state.respondSelected outside .continue).1 else state
  | .char 'r' => if state.model.page ≠ .repeat then (state.respondSelected outside .reject).1 else state
  | .char 'x' => if state.model.page ≠ .repeat then (state.respondSelected outside .cancelModification).1 else state
  | .char 's' => if state.model.page = .repeat then state.sendRepeat outside else state
  | .char 'd' => if state.model.page = .repeat then state.deleteRepeat else state
  | .char 'e' =>
      if state.model.page = .repeat then state.openRepeatEditor false
      else if state.model.selectedIsPaused then state.openRequestEditor false else state
  | .char 'i' =>
      if state.model.page = .repeat then state.openRepeatEditor true
      else if state.model.selectedIsPaused then state.openRequestEditor true else state
  | .enter => state.onModel TuiModel.expandFocusedPane
  | _ => state

-- Keys that reach the page, with the last notice gone.
def handleMainKey (key : KeyEvent) (state : TuiState) : TuiState :=
  if key.code = .char 'q' ∧ state.model.expandedPane.isSome then state.onModel TuiModel.closeExpandedPane
  else if key.code = .char 'q' ∧ state.model.page = .repeat then state.onModel TuiModel.leaveRepeat
  else if state.model.expandedPane.isSome then state.handleExpandedPane absoluteHttp outside key.code
  else if key.control then state.onModel (fun model => model.handleControlKey key.code)
  else state.handlePageKey absoluteHttp outside key.code

-- The state after a key and whether the loop ends.
def handleKeyWithRepeat (key : KeyEvent) (state : TuiState) : TuiState × Bool :=
  if isExitKey key then (state,true)
  else
    match state.model.editor with
    | some opened => (state.handleEditorKey httparse outside key opened,false)
    | none =>
        match state.model.evidenceView.detail with
        | some detail => (state.onModel (fun model => model.handleDetailKey detail key.code),false)
        | none =>
            match if state.model.focus = .evidence ∧ !key.control then state.model.handleEvidenceKey key.code else none with
            | some model => ({state with model := model},false)
            | none => ((state.onModel TuiModel.clearInputNotice).handleMainKey absoluteHttp outside key,false)

end TuiState

end Freja.Ui
