import Freja.Ui.Loop

namespace Freja.Ui
open Domain Policy Proxy Retention

-- What retention is about in a row.
structure RowRecord where
  key : RowKey
  findings : List Finding
  traces : List TraceSnapshot

def TrafficRow.record (row : TrafficRow) : RowRecord := ⟨row.key,row.findings,row.traces⟩

namespace TuiModel

def records (model : TuiModel) : List RowRecord := model.rows.map TrafficRow.record

def keys (model : TuiModel) : List RowKey := model.rows.map TrafficRow.key

theorem keys_records (model : TuiModel) : model.keys = model.records.map RowRecord.key := by
  simp [keys,records,Function.comp_def,TrafficRow.record]

theorem records_length (model : TuiModel) : model.records.length = model.rows.length := by
  simp [records]

theorem selectedKey_keys (model : TuiModel) : model.selectedKey = model.keys[model.selected]? := by
  simp [selectedKey,selectedRow,keys]

end TuiModel

-- What becomes of a key for which a row is asked.
inductive Ensured (model : TuiModel) (evictable : TrafficRow → Bool) (key : RowKey) : TuiModel × Option Nat → Prop where
  | found (place : model.rows[index]? = some row) (its : row.key = key) :
      Ensured model evictable key (model,some index)
  | refused (missing : key ∉ model.keys) (full : model.rows.length = model.maximumRows.get)
      (kept : ∀ row ∈ model.rows, evictable row = false) : Ensured model evictable key (model,none)
  | replaced (missing : key ∉ model.keys) (full : model.rows.length = model.maximumRows.get)
      (place : model.rows[removed]? = some gone) (allowed : evictable gone = true)
      (new : row.record = ⟨key,[],[]⟩) :
      Ensured model evictable key ({model with
        rows := model.rows.eraseIdx removed ++ [row]
        selected := afterErase removed model.selected},some (model.rows.length - 1))
  | added (missing : key ∉ model.keys) (room : model.rows.length ≠ model.maximumRows.get)
      (new : row.record = ⟨key,[],[]⟩) :
      Ensured model evictable key ({model with rows := model.rows ++ [row]},some model.rows.length)

theorem keys_missing {model : TuiModel} (found : model.rows.findIdx? (fun row => row.key = key) = none) : key ∉ model.keys := by
  intro present
  obtain ⟨row,member,its⟩ := List.mem_map.mp present
  simpa [its] using findIdx?_missing found row member

theorem ensureRow_ensured (model : TuiModel) (evictable : TrafficRow → Bool) (sessionId : SessionId)
    (transactionId : Option TransactionId) (kind : TrafficKind) :
    Ensured model evictable (sessionId,transactionId) (model.ensureRow evictable sessionId transactionId kind) := by
  unfold TuiModel.ensureRow
  cases found : model.rows.findIdx? (fun row => row.key = (sessionId,transactionId)) with
  | some =>
      obtain ⟨row,place,its,_⟩ := findIdx?_place found
      exact .found place (of_decide_eq_true its)
  | none =>
      have missing := keys_missing found
      dsimp only
      split
      · rename_i full
        cases evicted : model.rows.findIdx? evictable with
        | none => exact .refused missing full (findIdx?_missing evicted)
        | some removed =>
            obtain ⟨gone,place,allowed,_⟩ := findIdx?_place evicted
            obtain ⟨inside,_⟩ := List.getElem?_eq_some_iff.mp place
            have length : (model.rows.eraseIdx removed).length + 1 - 1 = model.rows.length - 1 := by
              rw [List.length_eraseIdx_of_lt inside,Nat.add_sub_cancel]
            simp only [List.length_append,List.length_singleton,length]
            exact .replaced missing full place allowed rfl
      · rename_i room
        simp only [List.length_append,List.length_singleton,Nat.add_sub_cancel]
        exact .added missing room rfl

theorem ensureCorrelatedRow_ensured (model : TuiModel) (sessionId : SessionId) (transactionId : Option TransactionId) :
    Ensured model (fun row => row.closed && model.notPaused row) (sessionId,transactionId)
      (model.ensureCorrelatedRow sessionId transactionId) := by
  cases transactionId with
  | none => exact ensureRow_ensured model _ sessionId none .tcp
  | some transactionId => exact ensureRow_ensured model _ sessionId (some transactionId) .http

-- The rows keep their keys; of the rest only what is shown about them may change.
structure Touched (before after : TuiModel) : Prop where
  keys : after.keys = before.keys
  maximumRows : after.maximumRows = before.maximumRows
  pausedTransactions : after.pausedTransactions = before.pausedTransactions
  editor : after.editor = before.editor
  editorTarget : after.editorTarget = before.editorTarget
  repeatWorkspaces : after.repeatWorkspaces = before.repeatWorkspaces
  repeatSelected : after.repeatSelected = before.repeatSelected

theorem touched_refl (model : TuiModel) : Touched model model := ⟨rfl,rfl,rfl,rfl,rfl,rfl,rfl⟩

theorem touched_trans (first : Touched before middle) (second : Touched middle after) : Touched before after :=
  ⟨second.keys.trans first.keys,second.maximumRows.trans first.maximumRows,
    second.pausedTransactions.trans first.pausedTransactions,second.editor.trans first.editor,
    second.editorTarget.trans first.editorTarget,second.repeatWorkspaces.trans first.repeatWorkspaces,
    second.repeatSelected.trans first.repeatSelected⟩

theorem modifyRow_touched (model : TuiModel) (index : Nat) {change : TrafficRow → TrafficRow}
    (kept : ∀ row, (change row).key = row.key) : Touched model (model.modifyRow index change) :=
  ⟨nodup_modify kept index,rfl,rfl,rfl,rfl,rfl,rfl⟩

theorem mapRows_touched (model : TuiModel) {change : TrafficRow → TrafficRow} (sessions : List SessionMetadata)
    (kept : ∀ row, (change row).key = row.key) :
    Touched model {model with rows := model.rows.map change,sessions := sessions} := by
  refine ⟨?_,rfl,rfl,rfl,rfl,rfl,rfl⟩
  simp only [TuiModel.keys,List.map_map]
  exact List.map_congr_left (fun row _ => kept row)

-- All that an event does: a row is found or made for it, no row of a paused transaction
-- going, and then rows change under their keys.
inductive Handled (model : TuiModel) : TuiModel → Prop where
  | here (touched : Touched model after) : Handled model after
  | placed (ensured : Ensured model evictable key result) (spared : ∀ row, evictable row = true → model.notPaused row = true)
      (touched : Touched result.1 after) : Handled model after

theorem onRow_handled (ensured : Ensured model evictable key result)
    (spared : ∀ row, evictable row = true → model.notPaused row = true) (use : TuiModel → Nat → TuiModel)
    (touched : ∀ model index, Touched model (use model index)) : Handled model (TuiModel.onRow result use) := by
  obtain ⟨next,place⟩ := result
  cases place with
  | none => exact .placed ensured spared (touched_refl next)
  | some index => exact .placed ensured spared (touched next index)

theorem apply_handled (canonicalReason : Nat → Option String) (model : TuiModel) (event : UiEvent) :
    Handled model (model.apply canonicalReason event) := by
  have correlated := ensureCorrelatedRow_ensured model
  have http := fun sessionId transactionId => ensureRow_ensured model (fun row => row.closed && model.notPaused row)
    sessionId (some transactionId) .http
  have spared : ∀ row : TrafficRow, (row.closed && model.notPaused row) = true → model.notPaused row = true :=
    fun row both => (Bool.and_eq_true _ _ ▸ both).2
  have counted : ∀ (model : TuiModel) truncated, Touched model (model.countTruncation truncated) := by
    intro model truncated
    unfold TuiModel.countTruncation
    split <;> exact ⟨rfl,rfl,rfl,rfl,rfl,rfl,rfl⟩
  have sided : ∀ (model : TuiModel) index direction change,
      Touched model (model.modifyRow index (fun row => row.modifySide direction change)) := by
    intro model index direction change
    refine modifyRow_touched model index ?_
    intro row
    cases direction <;> rfl
  cases event with
  | operationalLog => exact .here ⟨rfl,rfl,rfl,rfl,rfl,rfl,rfl⟩
  | flowOpened =>
      refine .here (mapRows_touched model _ ?_)
      intro row
      split <;> rfl
  | httpObserved sessionId transactionId method target version headers =>
      refine onRow_handled (http sessionId transactionId) spared _ ?_
      intro model index
      have observed : ∀ row, (TuiModel.observeRequest target (method ++ " " ++ target ++ " " ++ version) headers row).key
          = row.key := fun row => rfl
      exact touched_trans (modifyRow_touched model index observed) ⟨rfl,rfl,rfl,rfl,rfl,rfl,rfl⟩
  | httpResponseObserved sessionId transactionId =>
      refine onRow_handled (http sessionId transactionId) spared _ ?_
      intro model index
      exact modifyRow_touched model index (fun row => rfl)
  | decisionMade sessionId transactionId =>
      refine onRow_handled (correlated sessionId transactionId) spared _ ?_
      intro model index
      unfold TuiModel.recordEvaluation
      dsimp only
      split
      · refine touched_trans ?_ (modifyRow_touched _ index ?_)
        · exact ⟨rfl,rfl,rfl,rfl,rfl,rfl,rfl⟩
        · exact fun row => rfl
      · exact ⟨rfl,rfl,rfl,rfl,rfl,rfl,rfl⟩
  | findingDetected sessionId transactionId =>
      refine onRow_handled (correlated sessionId transactionId) spared _ ?_
      intro model index
      exact modifyRow_touched model index (fun row => rfl)
  | bodyPrefix sessionId transactionId direction bytes offset observedBytes truncated =>
      exact onRow_handled (correlated sessionId transactionId) spared _
        (fun _ _ => touched_trans (sided _ _ _ _) (counted _ truncated))
  | wireCaptured sessionId transactionId direction bytes observedBytes truncated =>
      exact onRow_handled (http sessionId transactionId) spared _
        (fun _ _ => touched_trans (sided _ _ _ _) (counted _ truncated))
  | wireCaptureFailed sessionId transactionId direction reason =>
      refine onRow_handled (http sessionId transactionId) spared _ ?_
      intro model index
      exact touched_trans (sided model index direction (fun side => {side with wire := .failed reason}))
        ⟨rfl,rfl,rfl,rfl,rfl,rfl,rfl⟩
  | wireCaptureUnavailable sessionId transactionId =>
      exact onRow_handled (http sessionId transactionId) spared _ (fun _ _ => sided _ _ _ _)
  | flowClosed sessionId clientToUpstreamBytes upstreamToClientBytes =>
      change Handled model (model.closeSession sessionId clientToUpstreamBytes upstreamToClientBytes)
      have forgets : ∀ closed : TuiModel, Touched closed
          {closed with sessions := closed.sessions.filter (fun metadata => metadata.sessionId ≠ sessionId)} :=
        fun closed => ⟨rfl,rfl,rfl,rfl,rfl,rfl,rfl⟩
      unfold TuiModel.closeSession
      split
      · refine .here (mapRows_touched model _ ?_)
        intro row
        split <;> rfl
      · have ensured := ensureRow_ensured model (fun row => row.closed && model.notPaused row) sessionId none .tcp
        change Handled model {TuiModel.onRow (model.ensureTcpRow sessionId) (fun model index =>
          model.modifyRow index (fun row => row.close clientToUpstreamBytes upstreamToClientBytes)) with sessions := _}
        cases onRow_handled ensured spared
            (fun model index => model.modifyRow index (fun row => row.close clientToUpstreamBytes upstreamToClientBytes))
            (fun model index => modifyRow_touched model index (fun row => rfl)) with
        | here touched => exact .here (touched_trans touched (forgets _))
        | placed ensured spared touched => exact .placed ensured spared (touched_trans touched (forgets _))

theorem intercept_handled (model : TuiModel) (request : InterceptRequest) :
    Handled (model.pauseTransaction request.transactionId) (model.applyInterceptRequest request) := by
  refine onRow_handled (ensureRow_ensured (model.pauseTransaction request.transactionId)
    (model.pauseTransaction request.transactionId).notPaused request.context.sessionId (some request.transactionId) .http)
    (fun _ spared => spared) _ ?_
  intro model index
  have shown : ∀ row, (TuiModel.showSnapshot request.request row).key = row.key := fun row => rfl
  exact touched_trans (modifyRow_touched model index shown) ⟨rfl,rfl,rfl,rfl,rfl,rfl,rfl⟩

-- What neither an event nor an intercepted request touches.
structure Framed (before after : TuiModel) : Prop where
  maximumRows : after.maximumRows = before.maximumRows
  editor : after.editor = before.editor
  editorTarget : after.editorTarget = before.editorTarget
  repeatWorkspaces : after.repeatWorkspaces = before.repeatWorkspaces
  repeatSelected : after.repeatSelected = before.repeatSelected

theorem framed_trans (first : Framed before middle) (second : Framed middle after) : Framed before after :=
  ⟨second.maximumRows.trans first.maximumRows,second.editor.trans first.editor,
    second.editorTarget.trans first.editorTarget,second.repeatWorkspaces.trans first.repeatWorkspaces,
    second.repeatSelected.trans first.repeatSelected⟩

theorem handled_framed (handled : Handled model after) : Framed model after := by
  have framed : ∀ {before after}, Touched before after → Framed before after := fun touched =>
    ⟨touched.maximumRows,touched.editor,touched.editorTarget,touched.repeatWorkspaces,touched.repeatSelected⟩
  cases handled with
  | here touched => exact framed touched
  | placed ensured spared touched =>
      refine framed_trans ?_ (framed touched)
      cases ensured <;> exact ⟨rfl,rfl,rfl,rfl,rfl⟩

theorem pauseTransaction_framed (model : TuiModel) (transactionId : TransactionId) :
    Framed model (model.pauseTransaction transactionId) := by
  unfold TuiModel.pauseTransaction
  split <;> exact ⟨rfl,rfl,rfl,rfl,rfl⟩

theorem intercept_framed (model : TuiModel) (request : InterceptRequest) :
    Framed model (model.applyInterceptRequest request) :=
  framed_trans (pauseTransaction_framed model request.transactionId) (handled_framed (intercept_handled model request))

-- Rows of paused transactions stay.
structure Retains (before after : TuiModel) : Prop where
  paused : after.pausedTransactions = before.pausedTransactions
  rows : ∀ sessionId transactionId, (sessionId,some transactionId) ∈ before.keys →
    transactionId ∈ before.pausedTransactions → (sessionId,some transactionId) ∈ after.keys

theorem ensured_retains (ensured : Ensured model evictable key result)
    (spared : ∀ row, evictable row = true → model.notPaused row = true) : Retains model result.1 := by
  cases ensured with
  | found | refused => exact ⟨rfl,fun _ _ member _ => member⟩
  | replaced missing full place allowed new =>
      rename_i removed gone row
      refine ⟨rfl,?_⟩
      intro sessionId transactionId member paused
      obtain ⟨held,present,its⟩ := List.mem_map.mp member
      obtain ⟨index,stands⟩ := List.mem_iff_getElem?.mp present
      have free := spared gone allowed
      have apart : index ≠ removed := by
        intro same
        rw [same,place] at stands
        rw [← Option.some.inj stands] at its
        have named : gone.transactionId = some transactionId := congrArg Prod.snd its
        simp [TuiModel.notPaused,named,TuiModel.transactionIsPaused,paused] at free
      have stays : held ∈ model.rows.eraseIdx removed := List.mem_eraseIdx_iff_getElem?.mpr ⟨index,apart,stands⟩
      rw [← its]
      exact List.mem_map_of_mem (List.mem_append_left _ stays)
  | added =>
      refine ⟨rfl,?_⟩
      intro sessionId transactionId member paused
      simp only [TuiModel.keys,List.map_append,List.mem_append]
      exact .inl member

theorem handled_retains (handled : Handled model after) : Retains model after := by
  cases handled with
  | here touched =>
      refine ⟨touched.pausedTransactions,?_⟩
      intro sessionId transactionId member _
      rw [touched.keys]
      exact member
  | placed ensured spared touched =>
      obtain ⟨paused,rows⟩ := ensured_retains ensured spared
      refine ⟨touched.pausedTransactions.trans paused,?_⟩
      intro sessionId transactionId member held
      rw [touched.keys]
      exact rows sessionId transactionId member held

end Freja.Ui
