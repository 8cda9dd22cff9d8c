import Freja.Ui.PausedRows

namespace Freja.Ui
open Domain Policy Proxy Retention Runs

-- The loop, and the transaction of the request that the editor was opened on.
structure Editing where
  tui : TuiState
  openedOn : Option TransactionId

namespace Editing

variable (libs : Libraries)

def start (maxRows maxItems : Config.NonZero) : Editing := ⟨.start maxRows maxItems,none⟩

def step (state : Editing) (input : TuiInput) : Editing where
  tui := state.tui.step libs input
  openedOn :=
    if (state.tui.step libs input).model.editorTarget ≠ some .interactive then none
    else if state.tui.model.editorTarget = some .interactive then state.openedOn
    else state.tui.selectedPending.map (fun found => found.2.transactionId)

def run (state : Editing) (inputs : List TuiInput) : Editing := inputs.foldl (step libs) state

end Editing

theorem selectedPending_some (chosen : TuiState.selectedPending state = some (index,request)) :
    state.model.selectedTransactionId = some request.transactionId ∧ request ∈ state.pending := by
  unfold TuiState.selectedPending at chosen
  obtain ⟨transactionId,selected,place⟩ := Option.bind_eq_some_iff.mp chosen
  obtain ⟨found,first,stands⟩ := Option.bind_eq_some_iff.mp place
  obtain ⟨held,present,pair⟩ := Option.map_eq_some_iff.mp stands
  obtain ⟨other,there,same,_⟩ := findIdx?_place first
  cases pair
  have its : other = request := Option.some.inj (there.symm.trans present)
  rw [← its] at present ⊢
  exact ⟨selected.trans (congrArg some (of_decide_eq_true same).symm),List.mem_of_getElem? present⟩

theorem respond_answers (state : TuiState) (outside : Outside) (index : Nat) (request : InterceptRequest)
    (decision : InteractiveDecision) :
    (state.respond outside index request decision).1.answers = state.answers ∨
      (state.respond outside index request decision).1.answers = state.answers ++ [(request,decision)] := by
  unfold TuiState.respond
  dsimp only
  split
  · exact .inr rfl
  · exact .inl rfl

theorem keyed_answers (keyed : Keyed httparse outside code state next) (new : answer ∈ next.answers) :
    answer ∈ state.answers ∨ ∃ index, state.selectedPending = some (index,answer.1) := by
  have responds : ∀ (before : TuiState) {index request decision}, before.answers = state.answers →
      state.selectedPending = some (index,request) → answer ∈ (before.respond outside index request decision).1.answers →
      answer ∈ state.answers ∨ ∃ index, state.selectedPending = some (index,answer.1) := by
    intro before index request decision same chosen member
    rcases respond_answers before outside index request decision with kept | added
    · rw [kept,same] at member
      exact .inl member
    · rw [added,same] at member
      rcases List.mem_append.mp member with old | sent
      · exact .inl old
      · rw [List.mem_singleton.mp sent]
        exact .inr ⟨index,chosen⟩
  cases keyed with
  | unchanged | moved | picked | typed | discarded | openedRequest | openedRepeat => exact .inl new
  | responded closed chosen => exact responds state rfl chosen new
  | revisited closed chosen kept =>
      rename_i place
      exact responds (state.selectWorkspace place) rfl chosen new
  | created closed chosen => exact responds (state.addWorkspace _) rfl chosen new
  | sent | deleted => exact .inl new
  | submitted opened target accepted chosen =>
      rename_i index request submission
      obtain ⟨model,either,done⟩ := submitEdited_chosen outside target chosen submission
      rw [done] at new
      exact responds state rfl chosen new
  | saved | savedAndSent => exact .inl new

theorem modifyWorkspace_editor (model : TuiModel) (source : TransactionId) (change : RepeatWorkspace → RepeatWorkspace) :
    (model.modifyWorkspace source change).editor = model.editor ∧
      (model.modifyWorkspace source change).editorTarget = model.editorTarget := by
  unfold TuiModel.modifyWorkspace
  split <;> exact ⟨rfl,rfl⟩

-- An editor stays open on an interactive request without the selection moving, or is
-- opened on the selected one.
inductive Aims (before after : TuiState) : Prop where
  | away (closed : after.model.editorTarget ≠ some .interactive)
      (target : after.model.editor = none → after.model.editorTarget = none)
  | kept (opened : before.model.editorTarget = some .interactive) (target : after.model.editor ≠ none)
      (pending : after.pending = before.pending)
      (selected : after.model.selectedTransactionId = before.model.selectedTransactionId)
  | opened (closed : before.model.editorTarget ≠ some .interactive) (target : after.model.editor ≠ none)
      (chosen : before.selectedPending = some (index,request)) (pending : after.pending = before.pending)
      (selected : after.model.selectedTransactionId = before.model.selectedTransactionId)

theorem keyed_aims (shut : state.model.editor = none → state.model.editorTarget = none)
    (keyed : Keyed httparse outside code state next) : Aims state next := by
  have steady : ∀ {after : TuiState}, after.model.editor = state.model.editor →
      after.model.editorTarget = state.model.editorTarget → state.model.editor = none → Aims state after := by
    intro after editor target closed
    have none := shut closed
    refine .away ?_ ?_
    · rw [target,none]
      simp
    · intro _
      rw [target,none]
  cases keyed with
  | unchanged =>
      by_cases opened : state.model.editorTarget = some .interactive
      · refine .kept opened ?_ rfl rfl
        intro closed
        rw [shut closed] at opened
        cases opened
      · exact .away opened shut
  | moved closed | picked closed => exact steady rfl rfl closed
  | typed =>
      by_cases target : state.model.editorTarget = some .interactive
      · exact .kept target (Option.some_ne_none _) rfl rfl
      · exact .away target (fun none => nomatch none)
  | discarded => exact .away (fun target => nomatch target) (fun _ => rfl)
  | openedRequest closed chosen opened =>
      refine .opened ?_ (Option.some_ne_none _) chosen rfl rfl
      rw [shut closed]
      simp
  | openedRepeat =>
      refine .away ?_ (fun none => nomatch none)
      intro target
      cases target
  | responded closed => exact steady (by rw [respond_model]) (by rw [respond_model]) closed
  | revisited closed | created closed => exact steady (by rw [respond_model]; rfl) (by rw [respond_model]; rfl) closed
  | sent closed => exact steady rfl rfl closed
  | deleted closed =>
      refine steady ?_ ?_ closed
      · unfold TuiState.onModel TuiModel.deleteSelectedRepeat
        dsimp only
        split <;> rfl
      · unfold TuiState.onModel TuiModel.deleteSelectedRepeat
        dsimp only
        split <;> rfl
  | submitted opened target => exact .away (fun target => nomatch target) (fun _ => rfl)
  | saved opened target => exact .away (fun target => nomatch target) (fun _ => rfl)
  | savedAndSent opened target => exact .away (fun target => nomatch target) (fun _ => rfl)

theorem selectedTransactionId_key (model : TuiModel) : model.selectedTransactionId = model.selectedKey.bind Prod.snd := by
  unfold TuiModel.selectedTransactionId TuiModel.selectedKey
  cases model.selectedRow <;> rfl

theorem arrival_editor (libs : Libraries) (state : TuiState) (input : TuiInput)
    (arrived : ∀ outside key, input ≠ .key outside key) :
    (state.step libs input).model.editor = state.model.editor ∧
      (state.step libs input).model.editorTarget = state.model.editorTarget := by
  cases input with
  | event event =>
      have framed := handled_framed (apply_handled libs.canonicalReason state.model event)
      exact ⟨framed.editor,framed.editorTarget⟩
  | intercept request =>
      have framed := intercept_framed state.model request
      exact ⟨framed.editor,framed.editorTarget⟩
  | result => exact modifyWorkspace_editor state.model _ _
  | refresh => exact ⟨rfl,rfl⟩
  | key outside key => exact absurd rfl (arrived outside key)

theorem arrival_pending (libs : Libraries) (state : TuiState) (input : TuiInput)
    (arrived : ∀ outside key, input ≠ .key outside key) (member : request ∈ state.pending) :
    request ∈ (state.step libs input).pending := by
  cases input with
  | event => exact member
  | intercept => exact List.mem_append_left _ member
  | result | refresh => exact member
  | key outside key => exact absurd rfl (arrived outside key)

namespace Editing

-- While the editor is open on a paused request, what arrives shows no other row than
-- the selected one.
def Steady (state : Editing) (input : TuiInput) : Prop :=
  state.tui.model.editorTarget = some .interactive → ∀ key, chosenKey input = some key →
    state.tui.model.selectedKey = some key

-- The request that the editor was opened on waits and is selected.
structure Aimed (maxRows maxItems : Config.NonZero) (state : Editing) : Prop where
  rows : ∃ history, Consistent maxRows maxItems history state.tui.model
  marked : Marked state.tui
  shut : state.tui.model.editor = none → state.tui.model.editorTarget = none
  aimed : state.tui.model.editorTarget = some .interactive →
    ∃ request ∈ state.tui.pending, state.openedOn = some request.transactionId ∧
      state.tui.model.selectedTransactionId = some request.transactionId

theorem arrival_selected (libs : Libraries) {state : Editing} (aimed : Aimed maxRows maxItems state)
    (input : TuiInput) (arrived : ∀ outside key, input ≠ .key outside key) (steady : Steady state input)
    (opened : state.tui.model.editorTarget = some .interactive) (member : request ∈ state.tui.pending)
    (selected : state.tui.model.selectedTransactionId = some request.transactionId) :
    (state.tui.step libs input).model.selectedTransactionId = some request.transactionId := by
  obtain ⟨history,consistent⟩ := aimed.rows
  have same : (state.tui.step libs input).model.selectedKey = state.tui.model.selectedKey := by
    rcases input_follows libs consistent input arrived with ⟨key,shows,now⟩ | keeps
    · rw [now,steady opened key shows]
    · rw [selectedTransactionId_key] at selected
      obtain ⟨key,stands,named⟩ := Option.bind_eq_some_iff.mp selected
      obtain ⟨sessionId,transactionId⟩ := key
      cases named
      have present : (sessionId,some request.transactionId) ∈ state.tui.model.keys := by
        rw [TuiModel.selectedKey_keys] at stands
        exact List.mem_of_getElem? stands
      rw [stands]
      exact keeps _ stands (input_retains libs state.tui input present (aimed.marked request member))
  rw [selectedTransactionId_key,same,← selectedTransactionId_key]
  exact selected

theorem arrival_aimed (libs : Libraries) {state : Editing} (aimed : Aimed maxRows maxItems state)
    (input : TuiInput) (arrived : ∀ outside key, input ≠ .key outside key) (steady : Steady state input) :
    Aimed maxRows maxItems (state.step libs input) := by
  obtain ⟨editor,target⟩ := arrival_editor libs state.tui input arrived
  refine ⟨?_,input_marked libs aimed.marked input,?_,?_⟩
  · obtain ⟨history,consistent⟩ := aimed.rows
    exact ⟨_,input_step libs consistent input⟩
  · change (state.tui.step libs input).model.editor = none → _
    rw [editor]
    intro closed
    exact target.trans (aimed.shut closed)
  · intro opened
    have before : state.tui.model.editorTarget = some .interactive := target.symm.trans opened
    obtain ⟨request,member,since,selected⟩ := aimed.aimed before
    refine ⟨request,arrival_pending libs state.tui input arrived member,?_,
      arrival_selected libs aimed input arrived steady before member selected⟩
    simp only [step,target,before,ne_eq,not_true_eq_false,if_false,if_true]
    exact since

theorem key_aimed (libs : Libraries) {state : Editing} (aimed : Aimed maxRows maxItems state)
    (outside : Outside) (key : KeyEvent) : Aimed maxRows maxItems (state.step libs (.key outside key)) := by
  have rows : ∃ history, Consistent maxRows maxItems history (state.step libs (.key outside key)).tui.model := by
    obtain ⟨history,consistent⟩ := aimed.rows
    exact ⟨_,input_step libs consistent (.key outside key)⟩
  have marked : Marked (state.step libs (.key outside key)).tui := input_marked libs aimed.marked _
  have shut : state.tui.data.model.editor = none → state.tui.data.model.editorTarget = none := aimed.shut
  cases keyed_aims shut (TuiState.step_key libs state.tui outside key) with
  | away closed target => exact ⟨rows,marked,target,fun opened => absurd opened closed⟩
  | kept opened target pending selected =>
      refine ⟨rows,marked,fun closed => absurd closed target,?_⟩
      intro after
      have before : state.tui.model.editorTarget = some .interactive := opened
      have now : (state.tui.step libs (.key outside key)).model.editorTarget = some .interactive := after
      obtain ⟨request,member,since,chosen⟩ := aimed.aimed before
      refine ⟨request,?_,?_,?_⟩
      · change request ∈ (state.tui.step libs (.key outside key)).data.pending
        rw [pending]
        exact member
      · simp only [step,now,before,ne_eq,not_true_eq_false,if_false,if_true]
        exact since
      · exact selected.trans chosen
  | opened closed target chosen pending selected =>
      rename_i index request
      refine ⟨rows,marked,fun closed => absurd closed target,?_⟩
      intro after
      have before : state.tui.model.editorTarget ≠ some .interactive := closed
      have now : (state.tui.step libs (.key outside key)).model.editorTarget = some .interactive := after
      obtain ⟨its,member⟩ := selectedPending_some chosen
      have found : state.tui.selectedPending = some (index,request) := chosen
      refine ⟨request,?_,?_,?_⟩
      · change request ∈ (state.tui.step libs (.key outside key)).data.pending
        rw [pending]
        exact member
      · simp only [step,now,before,found,ne_eq,not_true_eq_false,if_false,Option.map_some]
      · exact selected.trans its

theorem step_aimed (libs : Libraries) (state : Editing) (input : TuiInput)
    (aimed : Aimed maxRows maxItems state) (steady : Steady state input) :
    Aimed maxRows maxItems (state.step libs input) := by
  cases input with
  | key outside key => exact key_aimed libs aimed outside key
  | event event => exact arrival_aimed libs aimed (.event event) (fun _ _ same => nomatch same) steady
  | intercept request => exact arrival_aimed libs aimed (.intercept request) (fun _ _ same => nomatch same) steady
  | result result => exact arrival_aimed libs aimed (.result result) (fun _ _ same => nomatch same) steady
  | refresh droppedEvents =>
      exact arrival_aimed libs aimed (.refresh droppedEvents) (fun _ _ same => nomatch same) steady

theorem start_aimed (maxRows maxItems : Config.NonZero) :
    Aimed maxRows maxItems (start maxRows maxItems) :=
  ⟨⟨.empty,consistent_start⟩,fun _ member => absurd member List.not_mem_nil,fun _ => rfl,fun opened => nomatch opened⟩

-- Whatever key is pressed while the editor is open on a paused request: a decision that
-- goes out goes to that request.
theorem edits_reach_their_request (libs : Libraries) (maxRows maxItems : Config.NonZero)
    (inputs : List TuiInput) (steady : Along (step libs) Steady (start maxRows maxItems) inputs)
    (opened : ((start maxRows maxItems).run libs inputs).tui.model.editorTarget = some .interactive)
    (outside : Outside) (key : KeyEvent) :
    ∃ transactionId, ((start maxRows maxItems).run libs inputs).openedOn = some transactionId ∧
      ∀ answer ∈ (((start maxRows maxItems).run libs inputs).tui.step libs (.key outside key)).answers,
        answer ∈ ((start maxRows maxItems).run libs inputs).tui.answers ∨
          answer.1.transactionId = transactionId := by
  have aimed : Aimed maxRows maxItems ((start maxRows maxItems).run libs inputs) :=
    along_invariant (step_aimed libs) (start_aimed maxRows maxItems) steady
  generalize (start maxRows maxItems).run libs inputs = state at aimed opened
  obtain ⟨request,member,since,selected⟩ := aimed.aimed opened
  refine ⟨request.transactionId,since,?_⟩
  intro answer new
  rcases keyed_answers (TuiState.step_key libs state.tui outside key) new with old | ⟨index,chosen⟩
  · exact .inl old
  · have its : state.tui.model.selectedTransactionId = some answer.1.transactionId := (selectedPending_some chosen).1
    exact .inr (Option.some.inj (its.symm.trans selected))

def pausedRequest (transaction : Nat) : InterceptRequest :=
  ⟨⟨⟨transaction⟩,⟨transaction⟩,.v4 127 0 0 1⟩,bareSnapshot 64,transaction⟩

def typing (document : List UInt8) : Outside := ⟨(.insert,document),none,fun _ => true⟩

def submitKey : KeyEvent := ⟨.char 's',true,false⟩

-- A request is paused and the operator opens the editor on it.
def opening : List TuiInput := (Turn.mk [] [pausedRequest 1] [] 0 (some (typing [],⟨.char 'i',false,false⟩))).inputs

def edited : List UInt8 := rendered (bareSnapshot 64) ++ [120]

-- A body is typed.
def drafting : List TuiInput := (Turn.mk [] [] [] 0 (some (typing edited,⟨.char 'x',false,false⟩))).inputs

def editingStart : Editing := start Interception.maximumItemsPerRow Interception.maximumItemsPerRow

theorem steady_edit_reaches :
    Along (step Interception.plainLibraries) Steady editingStart opening ∧
      (editingStart.run Interception.plainLibraries opening).tui.model.editorTarget = some .interactive ∧
      ∃ transactionId, (editingStart.run Interception.plainLibraries opening).openedOn = some transactionId ∧
        ∀ answer ∈ ((editingStart.run Interception.plainLibraries opening).tui.step Interception.plainLibraries
            (.key (typing []) submitKey)).answers,
          answer ∈ (editingStart.run Interception.plainLibraries opening).tui.answers ∨
            answer.1.transactionId = transactionId := by
  have steady : Along (step Interception.plainLibraries) Steady editingStart opening := by
    refine ⟨?_,?_,?_,trivial⟩
    · intro opened
      cases opened
    · intro _ key shows
      cases shows
    · intro _ key shows
      cases shows
  have opened : (editingStart.run Interception.plainLibraries opening).tui.model.editorTarget = some .interactive := by
    decide +kernel
  exact ⟨steady,opened,edits_reach_their_request Interception.plainLibraries Interception.maximumItemsPerRow
    Interception.maximumItemsPerRow opening steady opened (typing []) submitKey⟩

-- A second request is paused before the text is submitted.
def diverted : List TuiInput := opening ++ drafting ++ (Turn.mk [] [pausedRequest 2] [] 0 none).inputs

theorem edit_reaches_another_request :
    (editingStart.run Interception.plainLibraries diverted).openedOn = some ⟨1⟩ ∧
      (editingStart.run Interception.plainLibraries diverted).tui.answers = [] ∧
      ((editingStart.run Interception.plainLibraries diverted).tui.step Interception.plainLibraries
        (.key (typing []) submitKey)).answers.map (fun answer => answer.1.transactionId) = [⟨2⟩] := by
  decide +kernel

end Editing

end Freja.Ui
