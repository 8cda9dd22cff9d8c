import Freja.Config.Limits
import Freja.Foundation.Retention
import Freja.Ui.Editor

namespace Freja.Ui
open Domain Bytes Policy Proxy Proxy.Repeat IpAddress Retention

inductive TuiPage where
  | traffic
  | diagnostics
  | repeat
  deriving DecidableEq, Repr

inductive DetailLayout where
  | split
  | request
  | response
  deriving DecidableEq, Repr

inductive DisplayMode where
  | pretty
  | raw
  | hex
  deriving DecidableEq, Repr

inductive SelectedSide where
  | request
  | response
  deriving DecidableEq, Repr

inductive FocusPane where
  | flows
  | detail
  | evidence
  | logs
  | repeatWorkspaces
  | repeatDetail
  deriving DecidableEq, Repr

inductive EditorTarget where
  | interactive
  | repeat (source : TransactionId)
  deriving DecidableEq, Repr

inductive EditorMode where
  | normal
  | insert
  deriving DecidableEq, Repr

-- An editor on the screen, with the mode of its text buffer.
structure OpenEditor where
  editor : RequestEditor
  mode : EditorMode
  deriving DecidableEq, Repr

structure InterceptContext where
  sessionId : SessionId
  transactionId : TransactionId
  sourceIp : IpAddr
  deriving DecidableEq, Repr

-- A paused request; the responder stands for its single-use response channel.
structure InterceptRequest where
  context : InterceptContext
  request : HttpRequestSnapshot
  responder : Nat
  deriving DecidableEq, Repr

def InterceptRequest.transactionId (request : InterceptRequest) : TransactionId := request.context.transactionId

structure HttpResponseSnapshot where
  status : Nat
  version : HttpVersion
  headers : HeaderMap
  body : List UInt8
  observedBodyBytes : Nat
  bodyTruncated : Bool
  deriving DecidableEq, Repr

inductive RepeatOutcome where
  | response (snapshot : HttpResponseSnapshot)
  | failed (category : RepeatFailureCategory)
  deriving DecidableEq, Repr

structure RepeatCommand where
  source : InterceptContext
  request : HttpRequestSnapshot
  deriving DecidableEq, Repr

structure RepeatResult where
  sourceTransactionId : TransactionId
  sessionId : SessionId
  transactionId : TransactionId
  outcome : RepeatOutcome
  deriving DecidableEq, Repr

structure RepeatWorkspace where
  source : InterceptContext
  request : HttpRequestSnapshot
  latestResult : Option RepeatResult
  inFlight : Bool
  deriving DecidableEq, Repr

def InterceptRequest.workspace (request : InterceptRequest) : RepeatWorkspace :=
  ⟨request.context,request.request,none,false⟩

inductive TrafficKind where
  | http
  | tcp
  deriving DecidableEq, Repr

inductive WireState where
  | pending
  | captured (bytes : List UInt8) (observedBytes : Nat) (truncated : Bool)
  | failed (reason : String)
  | unavailable (reason : String)
  deriving DecidableEq, Repr

structure SideSnapshot where
  startLine : Option String
  headers : List (String × List UInt8)
  body : List UInt8
  observedBodyBytes : Nat
  bodyTruncated : Bool
  bodyIncomplete : Bool
  wire : WireState
  deriving DecidableEq, Repr

def SideSnapshot.empty (wire : WireState) : SideSnapshot := ⟨none,[],[],0,false,false,wire⟩

def SideSnapshot.appendBody (side : SideSnapshot) (offset : Nat) (bytes : List UInt8) (observedBytes : Nat)
    (truncated : Bool) : SideSnapshot :=
  let side := if offset = side.body.length then {side with body := side.body ++ bytes}
    else {side with bodyIncomplete := true}
  {side with observedBodyBytes := max side.observedBodyBytes observedBytes
             bodyTruncated := side.bodyTruncated || truncated}

inductive EvaluationTarget where
  | requested (facts : RequestedTargetFacts)
  | resolved (facts : ResolvedTargetFacts)
  deriving DecidableEq, Repr

structure TraceSnapshot where
  id : Nat
  reasonsIncomplete : Bool
  trace : DecisionTrace
  target : Option EvaluationTarget
  deriving DecidableEq, Repr

def maximumReasons : Nat := 64

def maximumReasonBytes : Nat := 1024

-- As many whole characters as fit.
def fitting (limit : Nat) : List Char → List Char
  | [] => []
  | character :: rest =>
      if character.utf8Size ≤ limit then character :: fitting (limit - character.utf8Size) rest else []

def truncateText (text : String) (limit : Nat) : String × Bool :=
  if (utf8 text).length ≤ limit then (text,false) else (String.ofList (fitting limit text.toList),true)

def truncateReason (reason : MatchReason) : MatchReason × Bool :=
  let criterion := truncateText reason.criterion maximumReasonBytes
  let observed := truncateText reason.observed maximumReasonBytes
  ({reason with criterion := criterion.1,observed := observed.1},criterion.2 || observed.2)

def TraceSnapshot.bounded (id : Nat) (trace : DecisionTrace) (target : Option EvaluationTarget) : TraceSnapshot :=
  let reasons := (trace.matchReasons.take maximumReasons).map truncateReason
  {id := id
   reasonsIncomplete := decide (trace.matchReasons.length > maximumReasons) || reasons.any Prod.snd
   trace := {trace with matchReasons := reasons.map Prod.fst},target := target}

-- Rows are told apart by their session and transaction.
abbrev RowKey := SessionId × Option TransactionId

instance rowKey_lawful : LawfulBEq RowKey := inferInstance

structure TrafficRow where
  sessionId : SessionId
  transactionId : Option TransactionId
  kind : TrafficKind
  client : String
  target : String
  request : SideSnapshot
  response : SideSnapshot
  findings : List Finding
  traces : List TraceSnapshot
  clientToUpstreamBytes : Nat
  upstreamToClientBytes : Nat
  closed : Bool
  deriving DecidableEq, Repr

def TrafficRow.key (row : TrafficRow) : RowKey := (row.sessionId,row.transactionId)

structure SessionMetadata where
  sessionId : SessionId
  client : String
  target : String
  deriving DecidableEq, Repr

structure RuleDetail where
  identity : RowKey
  snapshot : TraceSnapshot
  scroll : Nat
  deriving DecidableEq, Repr

structure EvidenceView where
  row : Option RowKey
  selected : Option Nat
  anchor : Option Nat
  scroll : Int
  detail : Option RuleDetail
  deriving DecidableEq, Repr

def EvidenceView.empty : EvidenceView := ⟨none,none,none,0,none⟩

inductive UiEvent where
  | operationalLog (message : String)
  | flowOpened (sessionId : SessionId) (client target : String)
  | httpObserved (sessionId : SessionId) (transactionId : TransactionId) (method target version : String)
      (headers : List (String × List UInt8))
  | httpResponseObserved (sessionId : SessionId) (transactionId : TransactionId) (status : HttpStatusCode)
      (version : String) (headers : List (String × List UInt8))
  | decisionMade (sessionId : SessionId) (transactionId : Option TransactionId) (trace : DecisionTrace)
      (target : Option EvaluationTarget)
  | findingDetected (sessionId : SessionId) (transactionId : Option TransactionId) (finding : Finding)
  | bodyPrefix (sessionId : SessionId) (transactionId : Option TransactionId) (direction : Direction)
      (bytes : List UInt8) (offset observedBytes : Nat) (truncated : Bool)
  | wireCaptured (sessionId : SessionId) (transactionId : TransactionId) (direction : Direction)
      (bytes : List UInt8) (observedBytes : Nat) (truncated : Bool)
  | wireCaptureFailed (sessionId : SessionId) (transactionId : TransactionId) (direction : Direction) (reason : String)
  | wireCaptureUnavailable (sessionId : SessionId) (transactionId : TransactionId) (direction : Direction)
      (reason : String)
  | flowClosed (sessionId : SessionId) (clientToUpstreamBytes upstreamToClientBytes : Nat)
  deriving DecidableEq, Repr

structure TuiModel where
  evidenceView : EvidenceView
  nextEvaluationId : Nat
  rows : List TrafficRow
  sessions : List SessionMetadata
  operationalLogs : List String
  selected : Nat
  maximumRows : Config.NonZero
  maximumItemsPerRow : Config.NonZero
  pausedTransactions : List TransactionId
  page : TuiPage
  layout : DetailLayout
  displayMode : DisplayMode
  selectedSide : SelectedSide
  focus : FocusPane
  expandedPane : Option FocusPane
  editor : Option OpenEditor
  editorTarget : Option EditorTarget
  repeatWorkspaces : List RepeatWorkspace
  repeatSelected : Nat
  repeatReturnPage : TuiPage
  detailScroll : Nat
  diagnosticsScroll : Nat
  logScroll : Nat
  droppedEvents : Nat
  captureFailures : Nat
  captureTruncations : Nat
  pausedFlows : Nat
  inputNotice : Option String

inductive TuiModelError where
  | zeroMaximumRows
  | zeroMaximumItemsPerRow
  deriving DecidableEq, Repr

def firstEvaluationId : Nat := 1

def tcpWire : WireState := .unavailable "TCP Raw uses the bounded body stream"

def emptyRow (sessionId : SessionId) (transactionId : Option TransactionId) (kind : TrafficKind)
    (metadata : Option (String × String)) : TrafficRow :=
  let described := metadata.getD ("<unknown>","<unknown>")
  let wire := if kind = .tcp then tcpWire else .pending
  {sessionId := sessionId,transactionId := transactionId,kind := kind,client := described.1,target := described.2
   request := .empty wire,response := .empty wire,findings := [],traces := [],clientToUpstreamBytes := 0
   upstreamToClientBytes := 0,closed := false}

def TrafficRow.modifySide (row : TrafficRow) (direction : Direction) (change : SideSnapshot → SideSnapshot) : TrafficRow :=
  match direction with
  | .clientToUpstream | .httpRequestBody => {row with request := change row.request}
  | .upstreamToClient | .httpResponseBody => {row with response := change row.response}

def TrafficRow.close (row : TrafficRow) (clientToUpstreamBytes upstreamToClientBytes : Nat) : TrafficRow :=
  {row with clientToUpstreamBytes := clientToUpstreamBytes,upstreamToClientBytes := upstreamToClientBytes,closed := true}

def HttpVersion.text : HttpVersion → String
  | .http09 => "HTTP/0.9"
  | .http10 => "HTTP/1.0"
  | .http11 => "HTTP/1.1"
  | .http2 => "HTTP/2.0"
  | .http3 => "HTTP/3.0"

-- The reason phrases are those of the HTTP crate.
def responseStartLine (canonicalReason : Nat → Option String) (version : String) (status : Nat) : String :=
  match canonicalReason status with
  | none => version ++ " " ++ toString status
  | some reason => version ++ " " ++ toString status ++ " " ++ reason

namespace TuiModel

def fromLimits (maximumRows maximumItemsPerRow : Config.NonZero) : TuiModel where
  evidenceView := .empty
  nextEvaluationId := firstEvaluationId
  rows := []
  sessions := []
  operationalLogs := []
  selected := 0
  maximumRows := maximumRows
  maximumItemsPerRow := maximumItemsPerRow
  pausedTransactions := []
  page := .traffic
  layout := .split
  displayMode := .pretty
  selectedSide := .request
  focus := .flows
  expandedPane := none
  editor := none
  editorTarget := none
  repeatWorkspaces := []
  repeatSelected := 0
  repeatReturnPage := .traffic
  detailScroll := 0
  diagnosticsScroll := 0
  logScroll := 0
  droppedEvents := 0
  captureFailures := 0
  captureTruncations := 0
  pausedFlows := 0
  inputNotice := none

def new (maximumRows maximumItemsPerRow : UInt64) : Except TuiModelError TuiModel :=
  if rows : maximumRows = 0 then .error .zeroMaximumRows
  else if items : maximumItemsPerRow = 0 then .error .zeroMaximumItemsPerRow
  else .ok (fromLimits ⟨maximumRows,rows⟩ ⟨maximumItemsPerRow,items⟩)

def setInputNotice (model : TuiModel) (notice : String) : TuiModel := {model with inputNotice := some notice}

def selectedRow (model : TuiModel) : Option TrafficRow := model.rows[model.selected]?

def selectedKey (model : TuiModel) : Option RowKey := model.selectedRow.map TrafficRow.key

def selectedTransactionId (model : TuiModel) : Option TransactionId := model.selectedRow.bind TrafficRow.transactionId

def transactionIsPaused (model : TuiModel) (transactionId : TransactionId) : Bool :=
  model.pausedTransactions.contains transactionId

def selectedIsPaused (model : TuiModel) : Bool := model.selectedTransactionId.any model.transactionIsPaused

def sessionMetadata (model : TuiModel) (sessionId : SessionId) : Option (String × String) :=
  (model.sessions.find? (fun metadata => metadata.sessionId = sessionId)).map (fun metadata => (metadata.client,metadata.target))

def notPaused (model : TuiModel) (row : TrafficRow) : Bool :=
  row.transactionId.all (fun id => !model.transactionIsPaused id)

-- The row of a key, which is added if it is missing; a full list gives up the first
-- row that may go, or takes no new one. The place of the row is answered.
def ensureRow (model : TuiModel) (evictable : TrafficRow → Bool) (sessionId : SessionId)
    (transactionId : Option TransactionId) (kind : TrafficKind) : TuiModel × Option Nat :=
  match model.rows.findIdx? (fun row => row.key = (sessionId,transactionId)) with
  | some index => (model,some index)
  | none =>
      let row := emptyRow sessionId transactionId kind (model.sessionMetadata sessionId)
      if model.rows.length = model.maximumRows.get then
        match model.rows.findIdx? evictable with
        | none => (model,none)
        | some removable =>
            let rows := model.rows.eraseIdx removable ++ [row]
            ({model with rows := rows,selected := afterErase removable model.selected},some (rows.length - 1))
      else
        let rows := model.rows ++ [row]
        ({model with rows := rows},some (rows.length - 1))

def ensureHttpRow (model : TuiModel) (sessionId : SessionId) (transactionId : TransactionId) : TuiModel × Option Nat :=
  model.ensureRow (fun row => row.closed && model.notPaused row) sessionId (some transactionId) .http

-- A row for a paused request may take the place of an open one.
def ensurePausedHttpRow (model : TuiModel) (sessionId : SessionId) (transactionId : TransactionId) :
    TuiModel × Option Nat :=
  model.ensureRow model.notPaused sessionId (some transactionId) .http

def ensureTcpRow (model : TuiModel) (sessionId : SessionId) : TuiModel × Option Nat :=
  model.ensureRow (fun row => row.closed && model.notPaused row) sessionId none .tcp

def ensureCorrelatedRow (model : TuiModel) (sessionId : SessionId) (transactionId : Option TransactionId) :
    TuiModel × Option Nat :=
  match transactionId with
  | some transactionId => model.ensureHttpRow sessionId transactionId
  | none => model.ensureTcpRow sessionId

def modifyRow (model : TuiModel) (index : Nat) (change : TrafficRow → TrafficRow) : TuiModel :=
  {model with rows := model.rows.modify index change}

def updateSession (model : TuiModel) (sessionId : SessionId) (client target : String) : TuiModel :=
  let sessions := match model.sessions.findIdx? (fun metadata => metadata.sessionId = sessionId) with
    | some index => model.sessions.modify index (fun metadata => {metadata with client := client,target := target})
    | none => model.sessions ++ [⟨sessionId,client,target⟩]
  {model with
    sessions := sessions
    rows := model.rows.map (fun row =>
      if row.sessionId = sessionId then
        {row with client := client,target := if row.kind = .tcp then target else row.target}
      else row)}

def closeSession (model : TuiModel) (sessionId : SessionId) (clientToUpstreamBytes upstreamToClientBytes : Nat) :
    TuiModel :=
  let closed := if model.rows.any (fun row => row.sessionId = sessionId) then
      {model with rows := model.rows.map (fun row =>
        if row.sessionId = sessionId then row.close clientToUpstreamBytes upstreamToClientBytes else row)}
    else
      match model.ensureTcpRow sessionId with
      | (ensured,none) => ensured
      | (ensured,some index) =>
          ensured.modifyRow index (fun row => row.close clientToUpstreamBytes upstreamToClientBytes)
  {closed with sessions := closed.sessions.filter (fun metadata => metadata.sessionId ≠ sessionId)}

def selectFirstArrivingEvaluation (model : TuiModel) (key : RowKey) (id : Nat) : TuiModel :=
  let view := model.evidenceView
  let view := if model.page = .diagnostics ∧ view.row = none then {view with row := some key} else view
  {model with evidenceView :=
    if view.row = some key ∧ view.selected = none then {view with selected := some id} else view}

def countTruncation (model : TuiModel) (truncated : Bool) : TuiModel :=
  if truncated then {model with captureTruncations := saturatingAdd model.captureTruncations 1} else model

-- What an event does with the row it is about; without a row it does nothing.
def onRow (ensured : TuiModel × Option Nat) (use : TuiModel → Nat → TuiModel) : TuiModel :=
  match ensured with
  | (model,none) => model
  | (model,some index) => use model index

def observeRequest (target startLine : String) (headers : List (String × List UInt8)) (row : TrafficRow) : TrafficRow :=
  {row with target := target,request := {row.request with startLine := some startLine,headers := headers}}

def observeResponse (startLine : String) (headers : List (String × List UInt8)) (row : TrafficRow) : TrafficRow :=
  {row with response := {row.response with
    startLine := some startLine
    headers := headers
    wire := if row.response.wire = .pending then
        .unavailable "upstream Raw is unavailable for a local or uncaptured response"
      else row.response.wire}}

def recordEvaluation (model : TuiModel) (index : Nat) (key : RowKey) (trace : DecisionTrace)
    (target : Option EvaluationTarget) : TuiModel :=
  let id := model.nextEvaluationId
  if id < u64Max then
    ({model with nextEvaluationId := id + 1}.selectFirstArrivingEvaluation key id).modifyRow index (fun row =>
      {row with traces := pushBounded model.maximumItemsPerRow.get row.traces (.bounded id trace target)})
  else model.setInputNotice "evaluation identity limit reached; UI evaluation omitted"

def apply (canonicalReason : Nat → Option String) (model : TuiModel) : UiEvent → TuiModel
  | .operationalLog message =>
      {model with operationalLogs := pushBounded model.maximumItemsPerRow.get model.operationalLogs message}
  | .flowOpened sessionId client target => model.updateSession sessionId client target
  | .httpObserved sessionId transactionId method target version headers =>
      onRow (model.ensureHttpRow sessionId transactionId) (fun model index =>
        {model.modifyRow index (observeRequest target (method ++ " " ++ target ++ " " ++ version) headers) with
          selected := index})
  | .httpResponseObserved sessionId transactionId status version headers =>
      onRow (model.ensureHttpRow sessionId transactionId) (fun model index =>
        model.modifyRow index (observeResponse (responseStartLine canonicalReason version status.value) headers))
  | .decisionMade sessionId transactionId trace target =>
      onRow (model.ensureCorrelatedRow sessionId transactionId) (fun model index =>
        model.recordEvaluation index (sessionId,transactionId) trace target)
  | .findingDetected sessionId transactionId finding =>
      onRow (model.ensureCorrelatedRow sessionId transactionId) (fun model index =>
        model.modifyRow index (fun row =>
          {row with findings := pushBounded model.maximumItemsPerRow.get row.findings finding}))
  | .bodyPrefix sessionId transactionId direction bytes offset observedBytes truncated =>
      onRow (model.ensureCorrelatedRow sessionId transactionId) (fun model index =>
        (model.modifyRow index (fun row =>
          row.modifySide direction (fun side => side.appendBody offset bytes observedBytes truncated))).countTruncation
            truncated)
  | .wireCaptured sessionId transactionId direction bytes observedBytes truncated =>
      onRow (model.ensureHttpRow sessionId transactionId) (fun model index =>
        (model.modifyRow index (fun row =>
          row.modifySide direction (fun side =>
            {side with wire := .captured bytes observedBytes truncated}))).countTruncation truncated)
  | .wireCaptureFailed sessionId transactionId direction reason =>
      onRow (model.ensureHttpRow sessionId transactionId) (fun model index =>
        {model.modifyRow index (fun row => row.modifySide direction (fun side => {side with wire := .failed reason})) with
          captureFailures := saturatingAdd model.captureFailures 1})
  | .wireCaptureUnavailable sessionId transactionId direction reason =>
      onRow (model.ensureHttpRow sessionId transactionId) (fun model index =>
        model.modifyRow index (fun row => row.modifySide direction (fun side => {side with wire := .unavailable reason})))
  | .flowClosed sessionId clientToUpstreamBytes upstreamToClientBytes =>
      model.closeSession sessionId clientToUpstreamBytes upstreamToClientBytes

def showSnapshot (snapshot : HttpRequestSnapshot) (row : TrafficRow) : TrafficRow :=
  {row with
    target := snapshot.uri
    request := {row.request with
      startLine := some (snapshot.method ++ " " ++ snapshot.uri ++ " " ++ HttpVersion.text snapshot.version)
      headers := snapshot.headers.pairs
      body := snapshot.body
      observedBodyBytes := snapshot.body.length
      bodyIncomplete := false
      bodyTruncated := false}}

def pauseTransaction (model : TuiModel) (transactionId : TransactionId) : TuiModel :=
  if model.transactionIsPaused transactionId then model
  else {model with pausedTransactions := model.pausedTransactions ++ [transactionId]}

def applyInterceptRequest (model : TuiModel) (request : InterceptRequest) : TuiModel :=
  onRow ((model.pauseTransaction request.transactionId).ensurePausedHttpRow request.context.sessionId
      request.transactionId) (fun model index =>
    {model.modifyRow index (showSnapshot request.request) with selected := index})

def setDroppedEvents (model : TuiModel) (droppedEvents : Nat) : TuiModel := {model with droppedEvents := droppedEvents}

def setInteractiveState (model : TuiModel) (pausedTransactions : List TransactionId) : TuiModel :=
  {model with pausedFlows := pausedTransactions.length,pausedTransactions := pausedTransactions}

def applyEditedRequest (model : TuiModel) (headers : List (String × List UInt8)) (body : List UInt8) : TuiModel :=
  model.modifyRow model.selected (fun row =>
    {row with request := {row.request with
      headers := headers
      observedBodyBytes := body.length
      body := body
      bodyIncomplete := false
      bodyTruncated := false}})

def resetEvidenceView (model : TuiModel) : TuiModel :=
  {model with
    evidenceView := {EvidenceView.empty with
      row := model.selectedKey
      selected := model.selectedRow.bind (fun row => row.traces.head?.map TraceSnapshot.id)}
    diagnosticsScroll := 0}

def evidenceRow (model : TuiModel) : Option TrafficRow :=
  model.evidenceView.row.bind (fun identity => model.rows.find? (fun row => row.key = identity))

def selectedEvaluation (model : TuiModel) : Option TraceSnapshot :=
  model.evidenceRow.bind (fun row =>
    match model.evidenceView.selected with
    | some id => row.traces.find? (fun trace => trace.id = id)
    | none => row.traces.head?)

def selectEvaluation (model : TuiModel) (next : Bool) : TuiModel :=
  match model.evidenceRow with
  | none => model
  | some row =>
      let current := model.evidenceView.selected.bind (fun id => row.traces.findIdx? (fun trace => trace.id = id))
      let index := match current with
        | none => 0
        | some index => if next then min (index + 1) (row.traces.length - 1) else index - 1
      match row.traces[index]? with
      | none => model
      | some trace =>
          {model with
            evidenceView := {model.evidenceView with selected := some trace.id,anchor := some trace.id,scroll := 0}
            diagnosticsScroll := 0}

def openRuleDetail (model : TuiModel) : TuiModel :=
  match model.selectedEvaluation with
  | none => model.setInputNotice
      "No retained selected evaluation; j/k selects a retained decision. Findings are not decisions."
  | some snapshot =>
      match model.evidenceRow with
      | none => model
      | some row => {model with evidenceView :=
          {model.evidenceView with selected := some snapshot.id,detail := some ⟨row.key,snapshot,0⟩}}

def detailOriginalRetained (model : TuiModel) : Bool :=
  model.evidenceView.detail.any (fun detail =>
    model.rows.any (fun row => row.key == detail.identity && row.traces.any (fun trace => trace.id == detail.snapshot.id)))

def closeRuleDetail (model : TuiModel) : TuiModel :=
  let closed := {model with evidenceView := {model.evidenceView with detail := none}}
  if model.detailOriginalRetained then closed
  else closed.setInputNotice ("Original evaluation was evicted by retention limits; no replacement selected. " ++
    "j/k explicitly selects a retained decision.")

def showTraffic (model : TuiModel) : TuiModel := {model with page := .traffic,focus := .flows,expandedPane := none}

def showDiagnostics (model : TuiModel) : TuiModel :=
  {model.resetEvidenceView with page := .diagnostics,focus := .evidence,expandedPane := none}

def showRepeat (model : TuiModel) : TuiModel :=
  {model with
    repeatReturnPage := if model.page = .repeat then model.repeatReturnPage else model.page
    page := .repeat
    focus := .repeatWorkspaces
    expandedPane := none}

def leaveRepeat (model : TuiModel) : TuiModel :=
  {model with
    page := model.repeatReturnPage
    focus := match model.repeatReturnPage with
      | .traffic => .flows
      | .diagnostics => .evidence
      | .repeat => .repeatWorkspaces
    expandedPane := none}

def cycleLayout (model : TuiModel) : TuiModel :=
  match model.layout with
  | .split => {model with selectedSide := .request,layout := .request,detailScroll := 0}
  | .request => {model with selectedSide := .response,layout := .response,detailScroll := 0}
  | .response => {model with layout := .split,detailScroll := 0}

def cycleDisplayMode (model : TuiModel) : TuiModel :=
  {model with
    displayMode := match model.displayMode with
      | .pretty => .raw
      | .raw => .hex
      | .hex => .pretty
    detailScroll := 0}

def selectRequestSide (model : TuiModel) : TuiModel := {model with selectedSide := .request,detailScroll := 0}

def selectResponseSide (model : TuiModel) : TuiModel := {model with selectedSide := .response,detailScroll := 0}

def focusNext (model : TuiModel) : TuiModel :=
  match model.page,model.focus,model.selectedSide with
  | .repeat,.repeatWorkspaces,_ => {model with focus := .repeatDetail}.selectRequestSide
  | .repeat,.repeatDetail,.request => model.selectResponseSide
  | .repeat,_,_ => {model with focus := .repeatWorkspaces}
  | .traffic,.flows,_ => {model with focus := .detail}
  | .traffic,_,_ => {model with focus := .flows}
  | .diagnostics,.evidence,_ => {model with focus := .logs}
  | .diagnostics,_,_ => {model with focus := .evidence}

def focusPrevious (model : TuiModel) : TuiModel :=
  match model.page,model.focus,model.selectedSide with
  | .repeat,.repeatWorkspaces,_ => {model with focus := .repeatDetail}.selectResponseSide
  | .repeat,.repeatDetail,.response => model.selectRequestSide
  | .repeat,_,_ => {model with focus := .repeatWorkspaces}
  | .traffic,.detail,_ => {model with focus := .flows}
  | .traffic,_,_ => {model with focus := .detail}
  | .diagnostics,.logs,_ => {model with focus := .evidence}
  | .diagnostics,_,_ => {model with focus := .logs}

def selectPrevious (model : TuiModel) : TuiModel :=
  if model.page = .repeat then {model with repeatSelected := model.repeatSelected - 1,detailScroll := 0}
  else
    let moved := {model with selected := model.selected - 1,detailScroll := 0}
    if model.page = .diagnostics then moved.resetEvidenceView else moved

def selectNext (model : TuiModel) : TuiModel :=
  if model.page = .repeat then
    if model.repeatSelected + 1 < model.repeatWorkspaces.length then
      {model with repeatSelected := model.repeatSelected + 1,detailScroll := 0}
    else model
  else if model.selected + 1 < model.rows.length then
    let moved := {model with selected := model.selected + 1,detailScroll := 0}
    if model.page = .diagnostics then moved.resetEvidenceView else moved
  else model

def u16Max : Nat := 65535

def maximumEvidenceScroll : Int := 65535

-- Selected evidence scrolls about its anchor; any other pane from its top.
def scroll (model : TuiModel) (down : Bool) (amount : Nat) : TuiModel :=
  if model.focus = .evidence ∧ model.evidenceView.anchor.isSome then
    let moved := model.evidenceView.scroll + (if down then (amount : Int) else -(amount : Int))
    {model with evidenceView :=
      {model.evidenceView with scroll := max (-maximumEvidenceScroll) (min moved maximumEvidenceScroll)}}
  else
    let moved (value : Nat) : Nat := if down then min (value + amount) u16Max else value - amount
    match model.focus with
    | .logs => {model with logScroll := moved model.logScroll}
    | .evidence => {model with diagnosticsScroll := moved model.diagnosticsScroll}
    | .flows | .detail | .repeatWorkspaces | .repeatDetail => {model with detailScroll := moved model.detailScroll}

def expandFocusedPane (model : TuiModel) : TuiModel := {model with expandedPane := some model.focus}

def closeExpandedPane (model : TuiModel) : TuiModel := {model with expandedPane := none}

def clearInputNotice (model : TuiModel) : TuiModel := {model with inputNotice := none}

def openRequestEditor (model : TuiModel) (request : InterceptRequest) : Except RequestEditError TuiModel := do
  let editor ← RequestEditor.new request.request
  return {model with editor := some ⟨editor,.normal⟩,editorTarget := some .interactive}

def openRepeatEditor (model : TuiModel) : Except RequestEditError TuiModel :=
  match model.repeatWorkspaces[model.repeatSelected]? with
  | none => .ok model
  | some workspace => do
      let editor ← RequestEditor.new workspace.request
      return {model with
        editor := some ⟨editor,.normal⟩
        editorTarget := some (.repeat workspace.source.transactionId)}

-- Whether the URI has a scheme of HTTP and an authority is read by the HTTP crate.
def repeatable (absoluteHttp : String → Bool) (request : HttpRequestSnapshot) : Bool :=
  request.version == .http11 && request.method != "CONNECT" && absoluteHttp request.uri

def createRepeatWorkspace (absoluteHttp : String → Bool) (model : TuiModel) (request : InterceptRequest) :
    TuiModel × Bool :=
  match model.repeatWorkspaces.findIdx? (fun workspace => workspace.source.transactionId = request.transactionId) with
  | some index => ({model with repeatSelected := index}.showRepeat,true)
  | none =>
      if model.repeatWorkspaces.length ≥ model.maximumRows.get then
        (model.setInputNotice ("repeat workspace limit (" ++ toString model.maximumRows.get ++
          ") reached; delete one before adding another"),false)
      else if !repeatable absoluteHttp request.request then
        (model.setInputNotice "repeat supports absolute-form HTTP/1.1 requests, excluding CONNECT",false)
      else
        match RequestEditor.new request.request with
        | .error error => (model.setInputNotice ("repeat requires an editable text request: " ++ error.text),false)
        | .ok _ =>
            let workspaces := model.repeatWorkspaces ++ [request.workspace]
            ({model with repeatWorkspaces := workspaces,repeatSelected := workspaces.length - 1}.showRepeat,true)

def modifyWorkspace (model : TuiModel) (source : TransactionId) (change : RepeatWorkspace → RepeatWorkspace) : TuiModel :=
  match model.repeatWorkspaces.findIdx? (fun workspace => workspace.source.transactionId = source) with
  | none => model
  | some index => {model with repeatWorkspaces := model.repeatWorkspaces.modify index change}

def applyRepeatEdit (model : TuiModel) (source : TransactionId) (headers : HeaderMap) (body : List UInt8) : TuiModel :=
  model.modifyWorkspace source (fun workspace =>
    {workspace with request := {workspace.request with headers := headers,body := body}})

def selectedRepeatRequest (model : TuiModel) : Option RepeatCommand :=
  (model.repeatWorkspaces[model.repeatSelected]?.filter (fun workspace => !workspace.inFlight)).map
    (fun workspace => ⟨workspace.source,workspace.request⟩)

def markSelectedRepeatInFlight (model : TuiModel) : TuiModel :=
  {model with repeatWorkspaces := model.repeatWorkspaces.modify model.repeatSelected (fun workspace =>
    {workspace with inFlight := true,latestResult := none})}

def applyRepeatResult (model : TuiModel) (result : RepeatResult) : TuiModel :=
  model.modifyWorkspace result.sourceTransactionId (fun workspace =>
    {workspace with inFlight := false,latestResult := some result})

def deleteSelectedRepeat (model : TuiModel) : TuiModel × Bool :=
  if model.repeatWorkspaces[model.repeatSelected]?.all RepeatWorkspace.inFlight then (model,false)
  else
    let workspaces := model.repeatWorkspaces.eraseIdx model.repeatSelected
    ({model with repeatWorkspaces := workspaces,repeatSelected := min model.repeatSelected (workspaces.length - 1)},true)

end TuiModel

end Freja.Ui
