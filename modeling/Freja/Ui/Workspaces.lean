import Freja.Foundation.Runs
import Freja.Ui.Placement

namespace Freja.Ui
open Domain Policy Proxy Retention Runs

def RepeatWorkspace.id (workspace : RepeatWorkspace) : TransactionId := workspace.source.transactionId

def RepeatWorkspace.command (workspace : RepeatWorkspace) : RepeatCommand := ⟨workspace.source,workspace.request⟩

def RepeatWorkspace.mark (workspace : RepeatWorkspace) : RepeatWorkspace :=
  {workspace with inFlight := true,latestResult := none}

def RepeatWorkspace.store (result : RepeatResult) (workspace : RepeatWorkspace) : RepeatWorkspace :=
  {workspace with inFlight := false,latestResult := some result}

def RepeatWorkspace.save (submission : RequestEditSubmission) (workspace : RepeatWorkspace) : RepeatWorkspace :=
  {workspace with request := {workspace.request with headers := submission.headerMap,body := submission.body}}

-- The workspaces with the commands that are sent and not yet answered.
structure Desk where
  workspaces : List RepeatWorkspace
  outstanding : List RepeatCommand

inductive RepeatInput where
  | event (event : UiEvent)
  | intercept (request : InterceptRequest)
  | refresh (droppedEvents : Nat)
  | press (outside : Outside) (key : KeyEvent)
  -- The executor answers one of the commands it was sent.
  | answer (place : Nat) (sessionId : SessionId) (transactionId : TransactionId) (outcome : RepeatOutcome)

-- All that an input may do to the desk.
inductive DeskStep (maxRows : Config.NonZero) (input : RepeatInput) : Desk → Desk → Prop where
  | kept : DeskStep maxRows input desk desk
  | created (new : ∀ workspace ∈ desk.workspaces, workspace.id ≠ request.transactionId)
      (room : desk.workspaces.length < maxRows.get) :
      DeskStep maxRows input desk {desk with workspaces := desk.workspaces ++ [InterceptRequest.workspace request]}
  | saved (stands : desk.workspaces[place]? = some workspace) (submission : RequestEditSubmission) :
      DeskStep maxRows input desk {desk with workspaces := desk.workspaces.modify place (.save submission)}
  | sent (stands : desk.workspaces[place]? = some workspace) (idle : workspace.inFlight = false) :
      DeskStep maxRows input desk
        ⟨desk.workspaces.modify place .mark,desk.outstanding ++ [workspace.command]⟩
  | savedAndSent (stands : desk.workspaces[place]? = some workspace) (idle : workspace.inFlight = false)
      (submission : RequestEditSubmission) :
      DeskStep maxRows input desk
        ⟨(desk.workspaces.modify place (.save submission)).modify place .mark,
          desk.outstanding ++ [(workspace.save submission).command]⟩
  | answered (asked : input = .answer index sessionId transactionId outcome)
      (taken : desk.outstanding[index]? = some command)
      (stands : desk.workspaces[place]? = some workspace) (its : workspace.id = command.source.transactionId) :
      DeskStep maxRows input desk
        ⟨desk.workspaces.modify place (.store ⟨command.source.transactionId,sessionId,transactionId,outcome⟩),
          desk.outstanding.eraseIdx index⟩
  | deleted (pressed : input = .press outside key) (explicit : key.code = .char 'd')
      (stands : desk.workspaces[place]? = some workspace) (idle : workspace.inFlight = false) :
      DeskStep maxRows input desk {desk with workspaces := desk.workspaces.eraseIdx place}

namespace Desk

def waiting (desk : Desk) (id : TransactionId) : Nat :=
  desk.outstanding.countP (fun command => command.source.transactionId = id)

section Steps

variable {maxRows : Config.NonZero} {desk : Desk}

end Steps

end Desk

-- The loop with the executor's open commands.
structure RepeatSystem where
  tui : TuiState
  outstanding : List RepeatCommand

namespace RepeatSystem

def start (maxRows maxItems : Config.NonZero) : RepeatSystem :=
  ⟨.start maxRows maxItems,[]⟩

def desk (system : RepeatSystem) : Desk := ⟨system.tui.model.repeatWorkspaces,system.outstanding⟩

-- Commands that an input sent are open from then on.
def advance (system : RepeatSystem) (tui : TuiState) : RepeatSystem :=
  ⟨tui,system.outstanding ++ tui.commands.drop system.tui.commands.length⟩

def step (libs : Libraries) (system : RepeatSystem) : RepeatInput → RepeatSystem
  | .event event => system.advance (system.tui.step libs (.event event))
  | .intercept request => system.advance (system.tui.step libs (.intercept request))
  | .refresh droppedEvents => system.advance (system.tui.step libs (.refresh droppedEvents))
  | .press outside key => system.advance (system.tui.step libs (.key outside key))
  | .answer place sessionId transactionId outcome =>
      match system.outstanding[place]? with
      | none => system
      | some command =>
          ⟨system.tui.step libs (.result ⟨command.source.transactionId,sessionId,transactionId,outcome⟩),
            system.outstanding.eraseIdx place⟩

def run (libs : Libraries) (system : RepeatSystem) (inputs : List RepeatInput) : RepeatSystem :=
  inputs.foldl (step libs) system

end RepeatSystem

section Keys

variable {maxRows : Config.NonZero} {outside : Outside} {key : KeyEvent} {state next : TuiState}

end Keys

section Runs

variable {maxRows : Config.NonZero} {system : RepeatSystem}

end Runs

-- What the operator and the executor can rely on in a state and in its next step.
structure Protocol (libs : Libraries) (maxRows : Config.NonZero) (system : RepeatSystem) : Prop where
  flight : ∀ workspace ∈ system.desk.workspaces,
    (workspace.inFlight = true ↔ system.desk.waiting workspace.id = 1) ∧ system.desk.waiting workspace.id ≤ 1
  owned : ∀ command ∈ system.desk.outstanding, ∃ workspace ∈ system.desk.workspaces,
    workspace.id = command.source.transactionId ∧ workspace.inFlight = true
  distinct : (system.desk.workspaces.map RepeatWorkspace.id).Nodup
  bounded : system.desk.workspaces.length ≤ maxRows.get
  within : system.desk.workspaces ≠ [] → system.tui.model.repeatSelected < system.desk.workspaces.length
  advances : ∀ input, DeskStep maxRows input system.desk (system.step libs input).desk

end Freja.Ui
