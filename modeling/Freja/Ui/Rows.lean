import Freja.Ui.Placement

namespace Freja.Ui
open Domain Policy Proxy Retention

-- Two models that retain the same.
structure Alike (before after : TuiModel) : Prop where
  records : after.records = before.records
  maximumRows : after.maximumRows = before.maximumRows
  maximumItemsPerRow : after.maximumItemsPerRow = before.maximumItemsPerRow
  operationalLogs : after.operationalLogs = before.operationalLogs
  nextEvaluationId : after.nextEvaluationId = before.nextEvaluationId

theorem alike_refl (model : TuiModel) : Alike model model := ⟨rfl,rfl,rfl,rfl,rfl⟩

theorem alike_trans (first : Alike before middle) (second : Alike middle after) : Alike before after :=
  ⟨second.records.trans first.records,second.maximumRows.trans first.maximumRows,
    second.maximumItemsPerRow.trans first.maximumItemsPerRow,second.operationalLogs.trans first.operationalLogs,
    second.nextEvaluationId.trans first.nextEvaluationId⟩

theorem Alike.keys (alike : Alike before after) : after.keys = before.keys := by
  rw [TuiModel.keys_records,TuiModel.keys_records,alike.records]

theorem Alike.rows_length (alike : Alike before after) : after.rows.length = before.rows.length := by
  rw [← TuiModel.records_length,← TuiModel.records_length,alike.records]

theorem modifyRow_alike (model : TuiModel) (index : Nat) {change : TrafficRow → TrafficRow}
    (quiet : ∀ row, (change row).record = row.record) : Alike model (model.modifyRow index change) :=
  ⟨nodup_modify quiet index,rfl,rfl,rfl,rfl⟩

theorem modifySide_record (row : TrafficRow) (direction : Direction) (change : SideSnapshot → SideSnapshot) :
    (row.modifySide direction change).record = row.record := by
  cases direction <;> rfl

theorem observeRequest_record (target startLine : String) (headers : List (String × List UInt8)) (row : TrafficRow) :
    (TuiModel.observeRequest target startLine headers row).record = row.record := rfl

theorem showSnapshot_record (snapshot : HttpRequestSnapshot) (row : TrafficRow) :
    (TuiModel.showSnapshot snapshot row).record = row.record := rfl

theorem mapRows_records {rows : List TrafficRow} {change : TrafficRow → TrafficRow}
    (quiet : ∀ row, (change row).record = row.record) :
    (rows.map change).map TrafficRow.record = rows.map TrafficRow.record := by
  rw [List.map_map]
  exact List.map_congr_left (fun row _ => quiet row)

-- What has arrived for each row since it was added, and the identities given out.
structure History where
  findings : RowKey → List Finding
  traces : RowKey → List TraceSnapshot
  logs : List String
  identities : List Nat

namespace History

def empty : History := ⟨fun _ => [],fun _ => [],[],[]⟩

-- A key without a row starts anew.
def renew (history : History) (model : TuiModel) : History :=
  {history with
    findings := fun key => if key ∈ model.keys then history.findings key else []
    traces := fun key => if key ∈ model.keys then history.traces key else []}

def addFinding (history : History) (key : RowKey) (finding : Finding) : History :=
  {history with findings := Function.update history.findings key (history.findings key ++ [finding])}

def addTrace (history : History) (key : RowKey) (trace : TraceSnapshot) : History :=
  {history with
    traces := Function.update history.traces key (history.traces key ++ [trace])
    identities := history.identities ++ [trace.id]}

def arrive (history : History) (before after : TuiModel) : TuiInput → History
  | .event (.operationalLog message) => {history with logs := history.logs ++ [message]}
  | .event (.findingDetected sessionId transactionId finding) => history.addFinding (sessionId,transactionId) finding
  | .event (.decisionMade sessionId transactionId trace target) =>
      -- An evaluation that was given no identity is left out.
      if after.nextEvaluationId = before.nextEvaluationId then history
      else history.addTrace (sessionId,transactionId) (.bounded before.nextEvaluationId trace target)
  | _ => history

def observe (history : History) (before after : TuiModel) (input : TuiInput) : History :=
  (history.renew before).arrive before after input

end History

structure Consistent (maxRows maxItems : Config.NonZero) (history : History) (model : TuiModel) : Prop where
  rowLimit : model.maximumRows = maxRows
  itemLimit : model.maximumItemsPerRow = maxItems
  bounded : model.rows.length ≤ maxRows.get
  within : Inside model.selected model.rows.length
  distinct : model.keys.Nodup
  findings : ∀ record ∈ model.records, record.findings = (history.findings record.key).rtake maxItems.get
  traces : ∀ record ∈ model.records, record.traces = (history.traces record.key).rtake maxItems.get
  logs : model.operationalLogs = history.logs.rtake maxItems.get
  increasing : history.identities.Pairwise (· < ·)
  unused : ∀ id ∈ history.identities, id < model.nextEvaluationId
  named : ∀ key, ((history.traces key).map TraceSnapshot.id).Sublist history.identities

section Steps

variable {maxRows maxItems : Config.NonZero} {history : History}

theorem consistent_start : Consistent maxRows maxItems .empty (.fromLimits maxRows maxItems) where
  rowLimit := rfl
  itemLimit := rfl
  bounded := Nat.zero_le _
  within := Nat.le_refl 0
  distinct := List.nodup_nil
  findings := by intro record member; cases member
  traces := by intro record member; cases member
  logs := by simp [TuiModel.fromLimits,History.empty,List.rtake]
  increasing := .nil
  unused := by intro id member; cases member
  named := by intro key; exact List.Sublist.refl _

theorem consistent_renew (consistent : Consistent maxRows maxItems history model) :
    Consistent maxRows maxItems (history.renew model) model := by
  have present : ∀ record ∈ model.records, record.key ∈ model.keys := by
    intro record member
    rw [TuiModel.keys_records]
    exact List.mem_map_of_mem member
  refine {consistent with findings := ?_,traces := ?_,named := ?_}
  · intro record member
    simpa [History.renew,present record member] using consistent.findings record member
  · intro record member
    simpa [History.renew,present record member] using consistent.traces record member
  · intro key
    simp only [History.renew]
    split
    · exact consistent.named key
    · simp

theorem consistent_alike (consistent : Consistent maxRows maxItems history before)
    (alike : Alike before after) (within : Inside after.selected before.rows.length) :
    Consistent maxRows maxItems history after where
  rowLimit := alike.maximumRows.trans consistent.rowLimit
  itemLimit := alike.maximumItemsPerRow.trans consistent.itemLimit
  bounded := by rw [alike.rows_length]; exact consistent.bounded
  within := by rw [alike.rows_length]; exact within
  distinct := by rw [alike.keys]; exact consistent.distinct
  findings := by rw [alike.records]; exact consistent.findings
  traces := by rw [alike.records]; exact consistent.traces
  logs := alike.operationalLogs.trans consistent.logs
  increasing := consistent.increasing
  unused := by rw [alike.nextEvaluationId]; exact consistent.unused
  named := consistent.named

theorem ensured_place (ensured : Ensured model evictable key (next,some index)) :
    ∃ record, next.records[index]? = some record ∧ record.key = key := by
  cases ensured with
  | found place its =>
      rename_i row
      refine ⟨row.record,?_,its⟩
      simp [TuiModel.records,place]
  | replaced missing full place allowed new =>
      obtain ⟨inside,_⟩ := List.getElem?_eq_some_iff.mp place
      have length := List.length_eraseIdx_of_lt inside
      refine ⟨⟨key,[],[]⟩,?_,rfl⟩
      simp [TuiModel.records,← length,new]
  | added missing room new =>
      refine ⟨⟨key,[],[]⟩,?_,rfl⟩
      simp [TuiModel.records,new]

theorem consistent_new (consistent : Consistent maxRows maxItems history model)
    (stays : List.Sublist kept model.rows) (room : kept.length < maxRows.get) (missing : key ∉ model.keys)
    (new : TrafficRow.record row = ⟨key,[],[]⟩) (within : Inside selected (kept.length + 1)) :
    Consistent maxRows maxItems (history.renew model)
      {model with rows := kept ++ [row],selected := selected} := by
  have renewed := consistent_renew consistent
  have records : ({model with rows := kept ++ [row],selected := selected} : TuiModel).records =
      kept.map TrafficRow.record ++ [⟨key,[],[]⟩] := by
    simp [TuiModel.records,new]
  have old : ∀ record ∈ kept.map TrafficRow.record, record ∈ model.records :=
    fun record member => (stays.map TrafficRow.record).subset member
  refine {renewed with bounded := ?_,within := ?_,distinct := ?_,findings := ?_,traces := ?_}
  · simpa using room
  · simpa using within
  · rw [TuiModel.keys_records,records,List.map_append,List.nodup_append]
    have sub : ((kept.map TrafficRow.record).map RowRecord.key).Sublist model.keys := by
      rw [TuiModel.keys_records]
      exact (stays.map TrafficRow.record).map RowRecord.key
    refine ⟨consistent.distinct.sublist sub,by simp,?_⟩
    intro one member other alone same
    rw [List.map_singleton,List.mem_singleton] at alone
    rw [same,alone] at member
    exact missing (sub.subset member)
  · intro record member
    rw [records,List.mem_append,List.mem_singleton] at member
    rcases member with member | rfl
    · exact renewed.findings record (old record member)
    · simp [History.renew,missing,List.rtake]
  · intro record member
    rw [records,List.mem_append,List.mem_singleton] at member
    rcases member with member | rfl
    · exact renewed.traces record (old record member)
    · simp [History.renew,missing,List.rtake]

theorem ensured_consistent (consistent : Consistent maxRows maxItems history model)
    (ensured : Ensured model evictable key result) :
    Consistent maxRows maxItems (history.renew model) result.1 := by
  have renewed := consistent_renew consistent
  cases ensured with
  | found | refused => exact renewed
  | replaced missing full place allowed new =>
      obtain ⟨inside,_⟩ := List.getElem?_eq_some_iff.mp place
      have length := List.length_eraseIdx_of_lt inside
      have bounded := consistent.bounded
      refine consistent_new consistent (List.eraseIdx_sublist _ _) (by omega) missing new ?_
      rw [length,Nat.sub_add_cancel (Nat.one_le_of_lt inside)]
      exact inside_afterErase consistent.within
  | added missing room new =>
      have bounded := consistent.bounded
      rw [consistent.rowLimit] at room
      exact consistent_new consistent (List.Sublist.refl _) (by omega) missing new (inside_grow consistent.within)

def KeepsSelection (before after : TuiModel) : Prop :=
  ∀ key, before.selectedKey = some key → key ∈ after.keys → after.selectedKey = some key

theorem keeps_same (keeps : KeepsSelection before middle) (keys : after.keys = middle.keys)
    (same : after.selected = middle.selected) : KeepsSelection before after := by
  intro key chosen present
  rw [keys] at present
  have kept := keeps key chosen present
  rw [TuiModel.selectedKey_keys] at kept ⊢
  rw [keys,same]
  exact kept

theorem keeps_refl (model : TuiModel) : KeepsSelection model model := fun _ chosen _ => chosen

theorem ensured_keeps (distinct : model.keys.Nodup) (ensured : Ensured model evictable key result) :
    KeepsSelection model result.1 := by
  cases ensured with
  | found | refused => exact keeps_refl _
  | replaced missing full place allowed new =>
      rename_i removed gone row
      intro chosen selected present
      rw [TuiModel.selectedKey_keys] at selected ⊢
      have keys : ({model with rows := model.rows.eraseIdx removed ++ [row]
                               selected := afterErase removed model.selected} : TuiModel).keys =
          model.keys.eraseIdx removed ++ [key] := by
        have its : row.key = key := congrArg RowRecord.key new
        simp [TuiModel.keys,List.eraseIdx_map,its]
      rw [keys] at present ⊢
      by_cases same : model.selected = removed
      · exfalso
        rw [same] at selected
        rw [List.mem_append,List.mem_singleton] at present
        rcases present with present | rfl
        · exact not_mem_eraseIdx distinct selected present
        · exact missing (List.mem_of_getElem? selected)
      · have moved : (model.keys.eraseIdx removed)[afterErase removed model.selected]? = model.keys[model.selected]? :=
          getElem?_afterErase same
        rw [selected] at moved
        obtain ⟨inside,_⟩ := List.getElem?_eq_some_iff.mp moved
        rw [List.getElem?_append_left inside]
        exact moved
  | added =>
      intro chosen selected present
      rw [TuiModel.selectedKey_keys] at selected ⊢
      obtain ⟨inside,_⟩ := List.getElem?_eq_some_iff.mp selected
      have keys : ∀ row, ({model with rows := model.rows ++ [row]} : TuiModel).keys = model.keys ++ [row.key] := by
        intro row
        simp [TuiModel.keys]
      rw [keys,List.getElem?_append_left inside]
      exact selected

theorem ensured_refused (ensured : Ensured model evictable key (next,none)) : next = model ∧ key ∉ model.keys := by
  cases ensured with
  | refused missing => exact ⟨rfl,missing⟩

theorem ensured_limits (ensured : Ensured model evictable key result) :
    result.1.nextEvaluationId = model.nextEvaluationId ∧ result.1.maximumItemsPerRow = model.maximumItemsPerRow := by
  cases ensured <;> exact ⟨rfl,rfl⟩

-- An input that shows a row of its own selects it.
def chosenKey : TuiInput → Option RowKey
  | .event (.httpObserved sessionId transactionId _ _ _ _) => some (sessionId,some transactionId)
  | .intercept request => some (request.context.sessionId,some request.transactionId)
  | _ => none

def FollowsSelection (input : TuiInput) (before after : TuiModel) : Prop :=
  (∃ key, chosenKey input = some key ∧ after.selectedKey = some key) ∨ KeepsSelection before after

section Using

variable (input : TuiInput) (consistent : Consistent maxRows maxItems history model)
  (ensured : Ensured model evictable key result) (use : TuiModel → Nat → TuiModel)
  (alike : ∀ model index, Alike model (use model index))
include consistent ensured alike

theorem onRow_quiet (still : ∀ model index, (use model index).selected = model.selected) :
    Consistent maxRows maxItems (history.renew model) (TuiModel.onRow result use) ∧
      FollowsSelection input model (TuiModel.onRow result use) := by
  have next := ensured_consistent consistent ensured
  have keeps := ensured_keeps consistent.distinct ensured
  obtain ⟨ensured',place⟩ := result
  cases place with
  | none => exact ⟨next,.inr keeps⟩
  | some index =>
      refine ⟨consistent_alike next (alike _ _) ?_,.inr (keeps_same keeps (alike _ _).keys (still _ _))⟩
      have within := next.within
      rwa [← still] at within

theorem onRow_selects (selects : ∀ model index, (use model index).selected = index) (chosen : chosenKey input = some key) :
    Consistent maxRows maxItems (history.renew model) (TuiModel.onRow result use) ∧
      FollowsSelection input model (TuiModel.onRow result use) := by
  have next := ensured_consistent consistent ensured
  obtain ⟨ensured',place⟩ := result
  cases place with
  | none => exact ⟨next,.inr (ensured_keeps consistent.distinct ensured)⟩
  | some index =>
      obtain ⟨record,stands,its⟩ := ensured_place ensured
      obtain ⟨inside,_⟩ := List.getElem?_eq_some_iff.mp stands
      rw [TuiModel.records_length] at inside
      refine ⟨consistent_alike next (alike _ _) ?_,.inl ⟨key,chosen,?_⟩⟩
      · change Inside (use ensured' index).selected ensured'.rows.length
        rw [selects]
        exact inside_of_lt inside
      · change (use ensured' index).selectedKey = some key
        rw [TuiModel.selectedKey_keys,(alike _ _).keys,selects,TuiModel.keys_records,List.getElem?_map,stands]
        exact congrArg some its

end Using

theorem nonzero_pos (count : Config.NonZero) : 0 < count.get := by
  apply Nat.pos_of_ne_zero
  intro zero
  exact count.nonzero (UInt64.toNat_inj.mp zero)

theorem modifyRow_records (model : TuiModel) (index : Nat) {change : TrafficRow → TrafficRow}
    {recorded : RowRecord → RowRecord} (alike : ∀ row, (change row).record = recorded row.record) :
    (model.modifyRow index change).records = model.records.modify index recorded := map_modify alike index

theorem consistent_row (consistent : Consistent maxRows maxItems history model)
    (stands : model.records[index]? = some record) {change : TrafficRow → TrafficRow} {recorded : RowRecord → RowRecord}
    (alike : ∀ row, (change row).record = recorded row.record) (kept : ∀ record, (recorded record).key = record.key)
    (findings : (recorded record).findings = (later.findings record.key).rtake maxItems.get)
    (traces : (recorded record).traces = (later.traces record.key).rtake maxItems.get)
    (others : ∀ key, key ≠ record.key → later.findings key = history.findings key ∧ later.traces key = history.traces key)
    (logs : later.logs = history.logs) (increasing : later.identities.Pairwise (· < ·))
    (unused : ∀ id ∈ later.identities, id < model.nextEvaluationId)
    (named : ∀ key, ((later.traces key).map TraceSnapshot.id).Sublist later.identities) :
    Consistent maxRows maxItems later (model.modifyRow index change) := by
  have records := modifyRow_records model index alike
  have distinct := consistent.distinct
  rw [TuiModel.keys_records] at distinct
  refine {rowLimit := consistent.rowLimit,itemLimit := consistent.itemLimit,bounded := ?_,within := ?_,distinct := ?_
          findings := ?_,traces := ?_,logs := ?_,increasing := increasing,unused := unused,named := named}
  · simpa [TuiModel.modifyRow] using consistent.bounded
  · simpa [TuiModel.modifyRow] using consistent.within
  · rw [TuiModel.keys_records,records,nodup_modify kept]
    exact distinct
  · intro other member
    rw [records] at member
    rcases mem_modify distinct stands member with rfl | ⟨member,apart⟩
    · rw [kept]
      exact findings
    · rw [(others _ apart).1]
      exact consistent.findings other member
  · intro other member
    rw [records] at member
    rcases mem_modify distinct stands member with rfl | ⟨member,apart⟩
    · rw [kept]
      exact traces
    · rw [(others _ apart).2]
      exact consistent.traces other member
  · rw [logs]
    exact consistent.logs

theorem consistent_addFinding (consistent : Consistent maxRows maxItems history model)
    (stands : model.records[index]? = some record) (finding : Finding) :
    Consistent maxRows maxItems (history.addFinding record.key finding) (model.modifyRow index (fun row =>
      {row with findings := pushBounded model.maximumItemsPerRow.get row.findings finding})) := by
  have member := List.mem_of_getElem? stands
  let recorded (record : RowRecord) : RowRecord :=
    {record with findings := pushBounded model.maximumItemsPerRow.get record.findings finding}
  have alike : ∀ row : TrafficRow,
      ({row with findings := pushBounded model.maximumItemsPerRow.get row.findings finding} : TrafficRow).record =
        recorded row.record := fun row => rfl
  refine consistent_row consistent stands alike (fun record => rfl) ?_ (consistent.traces record member) ?_ rfl
    consistent.increasing consistent.unused consistent.named
  · simp only [recorded,History.addFinding,Function.update_self]
    rw [consistent.itemLimit]
    exact pushBounded_recent (nonzero_pos _) (consistent.findings record member) finding
  · intro key apart
    exact ⟨Function.update_of_ne apart _ _,rfl⟩

theorem consistent_addTrace (consistent : Consistent maxRows maxItems history model)
    (stands : model.records[index]? = some record) (named : trace.id = model.nextEvaluationId) :
    Consistent maxRows maxItems (history.addTrace record.key trace)
      ({model with nextEvaluationId := model.nextEvaluationId + 1}.modifyRow index (fun row =>
        {row with traces := pushBounded model.maximumItemsPerRow.get row.traces trace})) := by
  have member := List.mem_of_getElem? stands
  have counted : Consistent maxRows maxItems history
      {model with nextEvaluationId := model.nextEvaluationId + 1} :=
    {consistent with unused := fun id given => Nat.lt_succ_of_lt (consistent.unused id given)}
  let recorded (record : RowRecord) : RowRecord :=
    {record with traces := pushBounded model.maximumItemsPerRow.get record.traces trace}
  have alike : ∀ row : TrafficRow,
      ({row with traces := pushBounded model.maximumItemsPerRow.get row.traces trace} : TrafficRow).record =
        recorded row.record := fun row => rfl
  refine consistent_row counted stands alike (fun record => rfl) (consistent.findings record member) ?_ ?_ rfl ?_ ?_ ?_
  · simp only [recorded,History.addTrace,Function.update_self]
    rw [consistent.itemLimit]
    exact pushBounded_recent (nonzero_pos _) (consistent.traces record member) trace
  · intro key apart
    exact ⟨rfl,Function.update_of_ne apart _ _⟩
  · simp only [History.addTrace,List.pairwise_append,List.pairwise_singleton,List.mem_singleton,true_and]
    refine ⟨consistent.increasing,?_⟩
    intro id given last same
    rw [same,named]
    exact consistent.unused id given
  · intro id given
    simp only [History.addTrace,List.mem_append,List.mem_singleton] at given
    rcases given with given | rfl
    · exact Nat.lt_succ_of_lt (consistent.unused id given)
    · rw [named]
      exact Nat.lt_succ_self _
  · intro key
    simp only [History.addTrace]
    by_cases same : key = record.key
    · subst key
      rw [Function.update_self,List.map_append]
      exact (consistent.named _).append (List.Sublist.refl _)
    · rw [Function.update_of_ne same]
      exact (consistent.named key).trans (List.sublist_append_left _ _)

theorem updateSession_alike (model : TuiModel) (sessionId : SessionId) (client target : String) :
    Alike model (model.updateSession sessionId client target) := by
  refine ⟨mapRows_records ?_,rfl,rfl,rfl,rfl⟩
  intro row
  split <;> rfl

theorem countTruncation_alike (model : TuiModel) (truncated : Bool) : Alike model (model.countTruncation truncated) := by
  unfold TuiModel.countTruncation
  split <;> exact ⟨rfl,rfl,rfl,rfl,rfl⟩

theorem countTruncation_selected (model : TuiModel) (truncated : Bool) :
    (model.countTruncation truncated).selected = model.selected := by
  unfold TuiModel.countTruncation
  split <;> rfl

theorem side_alike (model : TuiModel) (index : Nat) (direction : Direction) (change : SideSnapshot → SideSnapshot) :
    Alike model (model.modifyRow index (fun row => row.modifySide direction change)) :=
  modifyRow_alike model index (fun row => modifySide_record row direction change)

theorem closeSession_step (consistent : Consistent maxRows maxItems history model) (sessionId : SessionId)
    (clientToUpstreamBytes upstreamToClientBytes : Nat) (input : TuiInput) :
    Consistent maxRows maxItems (history.renew model)
        (model.closeSession sessionId clientToUpstreamBytes upstreamToClientBytes) ∧
      FollowsSelection input model (model.closeSession sessionId clientToUpstreamBytes upstreamToClientBytes) := by
  have closes : ∀ row : TrafficRow, (row.close clientToUpstreamBytes upstreamToClientBytes).record = row.record :=
    fun row => rfl
  unfold TuiModel.closeSession
  split
  · have alike : Alike model {model with
        rows := model.rows.map (fun row =>
          if row.sessionId = sessionId then row.close clientToUpstreamBytes upstreamToClientBytes else row)
        sessions := model.sessions.filter (fun metadata => metadata.sessionId ≠ sessionId)} := by
      refine ⟨mapRows_records ?_,rfl,rfl,rfl,rfl⟩
      intro row
      split
      · exact closes row
      · rfl
    exact ⟨consistent_alike (consistent_renew consistent) alike consistent.within,
      .inr (keeps_same (keeps_refl model) alike.keys rfl)⟩
  · have forgets : ∀ model : TuiModel, Alike model
        {model with sessions := model.sessions.filter (fun metadata => metadata.sessionId ≠ sessionId)} :=
      fun model => ⟨rfl,rfl,rfl,rfl,rfl⟩
    obtain ⟨next,follows⟩ := onRow_quiet input consistent (ensureRow_ensured model _ sessionId none .tcp)
      (fun model index => model.modifyRow index (fun row => row.close clientToUpstreamBytes upstreamToClientBytes))
      (fun model index => modifyRow_alike model index closes) (fun model index => rfl)
    refine ⟨consistent_alike next (forgets _) next.within,?_⟩
    rcases follows with chosen | keeps
    · exact .inl chosen
    · exact .inr (keeps_same keeps (forgets _).keys rfl)

theorem modifyRow_keys (model : TuiModel) (index : Nat) {change : TrafficRow → TrafficRow}
    (kept : ∀ row, (change row).key = row.key) : (model.modifyRow index change).keys = model.keys :=
  nodup_modify kept index

theorem findingDetected_step (consistent : Consistent maxRows maxItems history model)
    (ensured : Ensured model evictable key result) (finding : Finding) {use : TuiModel → Nat → TuiModel}
    (adds : use = fun model index => model.modifyRow index (fun row =>
      {row with findings := pushBounded model.maximumItemsPerRow.get row.findings finding})) :
    Consistent maxRows maxItems ((history.renew model).addFinding key finding) (TuiModel.onRow result use) ∧
      KeepsSelection model (TuiModel.onRow result use) := by
  have next := ensured_consistent consistent ensured
  have keeps := ensured_keeps consistent.distinct ensured
  obtain ⟨ensured',place⟩ := result
  cases place with
  | none =>
      obtain ⟨rfl,missing⟩ := ensured_refused ensured
      refine ⟨{next with findings := ?_},keeps⟩
      intro record member
      have apart : record.key ≠ key := by
        intro same
        rw [TuiModel.keys_records,← same] at missing
        exact missing (List.mem_map_of_mem member)
      simp only [History.addFinding,Function.update_of_ne apart]
      exact next.findings record member
  | some index =>
      obtain ⟨record,stands,rfl⟩ := ensured_place ensured
      subst adds
      exact ⟨consistent_addFinding next stands finding,
        keeps_same keeps (modifyRow_keys ensured' index (fun row => rfl)) rfl⟩

theorem recordEvaluation_given (model : TuiModel) (index : Nat) (key : RowKey) (trace : DecisionTrace)
    (target : Option EvaluationTarget) (room : model.nextEvaluationId < Bytes.u64Max) :
    ∃ snapshot, snapshot = TraceSnapshot.bounded model.nextEvaluationId trace target ∧
      Alike ({model with nextEvaluationId := model.nextEvaluationId + 1}.modifyRow index (fun row =>
        {row with traces := pushBounded model.maximumItemsPerRow.get row.traces snapshot}))
        (model.recordEvaluation index key trace target) ∧
      (model.recordEvaluation index key trace target).selected = model.selected := by
  refine ⟨_,rfl,?_⟩
  unfold TuiModel.recordEvaluation
  rw [if_pos room]
  exact ⟨⟨rfl,rfl,rfl,rfl,rfl⟩,rfl⟩

theorem recordEvaluation_omitted (model : TuiModel) (index : Nat) (key : RowKey) (trace : DecisionTrace)
    (target : Option EvaluationTarget) (spent : ¬ model.nextEvaluationId < Bytes.u64Max) :
    Alike model (model.recordEvaluation index key trace target) ∧
      (model.recordEvaluation index key trace target).selected = model.selected := by
  unfold TuiModel.recordEvaluation
  rw [if_neg spent]
  exact ⟨⟨rfl,rfl,rfl,rfl,rfl⟩,rfl⟩

theorem decisionMade_step (consistent : Consistent maxRows maxItems history model)
    (ensured : Ensured model evictable key result) (trace : DecisionTrace) (target : Option EvaluationTarget)
    (after : TuiModel) (done : after = TuiModel.onRow result (fun model index => model.recordEvaluation index key trace target)) :
    Consistent maxRows maxItems
        (if after.nextEvaluationId = model.nextEvaluationId then history.renew model
          else (history.renew model).addTrace key (.bounded model.nextEvaluationId trace target)) after ∧
      KeepsSelection model after := by
  have next := ensured_consistent consistent ensured
  have keeps := ensured_keeps consistent.distinct ensured
  have limits := ensured_limits ensured
  obtain ⟨ensured',place⟩ := result
  cases place with
  | none =>
      obtain ⟨rfl,_⟩ := ensured_refused ensured
      subst done
      exact ⟨by rw [if_pos (by rfl)]; exact next,keeps⟩
  | some index =>
      obtain ⟨record,stands,rfl⟩ := ensured_place ensured
      change after = ensured'.recordEvaluation index record.key trace target at done
      by_cases room : ensured'.nextEvaluationId < Bytes.u64Max
      · obtain ⟨snapshot,taken,alike,still⟩ := recordEvaluation_given ensured' index record.key trace target room
        rw [← done] at alike still
        have counted : after.nextEvaluationId = model.nextEvaluationId + 1 := by
          rw [alike.nextEvaluationId,← limits.1]
          rfl
        rw [if_neg (by omega),← limits.1,← taken]
        have added := consistent_addTrace next stands (congrArg TraceSnapshot.id taken)
        refine ⟨consistent_alike added alike ?_,keeps_same keeps ?_ still⟩
        · rw [still]
          exact added.within
        · rw [alike.keys]
          exact modifyRow_keys _ index (fun row => rfl)
      · obtain ⟨alike,still⟩ := recordEvaluation_omitted ensured' index record.key trace target room
        rw [← done] at alike still
        have kept : after.nextEvaluationId = model.nextEvaluationId := alike.nextEvaluationId.trans limits.1
        rw [if_pos kept]
        refine ⟨consistent_alike next alike ?_,keeps_same keeps alike.keys still⟩
        rw [still]
        exact next.within

theorem event_step (canonicalReason : Nat → Option String)
    (consistent : Consistent maxRows maxItems history model) (event : UiEvent) :
    Consistent maxRows maxItems
        (history.observe model (model.apply canonicalReason event) (.event event)) (model.apply canonicalReason event) ∧
      FollowsSelection (.event event) model (model.apply canonicalReason event) := by
  have renewed := consistent_renew consistent
  have correlated := ensureCorrelatedRow_ensured model
  have http := fun sessionId transactionId => ensureRow_ensured model (fun row => row.closed && model.notPaused row)
    sessionId (some transactionId) .http
  cases event with
  | operationalLog message =>
      refine ⟨{renewed with logs := ?_},.inr (keeps_same (keeps_refl model) rfl rfl)⟩
      have pushed := pushBounded_recent (nonzero_pos maxItems) consistent.logs message
      rw [← consistent.itemLimit] at pushed ⊢
      exact pushed
  | flowOpened sessionId client target =>
      have alike := updateSession_alike model sessionId client target
      exact ⟨consistent_alike renewed alike consistent.within,.inr (keeps_same (keeps_refl model) alike.keys rfl)⟩
  | httpObserved sessionId transactionId =>
      exact onRow_selects _ consistent (http sessionId transactionId) _
        (fun model index => alike_trans (modifyRow_alike model index (observeRequest_record _ _ _)) ⟨rfl,rfl,rfl,rfl,rfl⟩)
        (fun model index => rfl) rfl
  | httpResponseObserved sessionId transactionId =>
      refine onRow_quiet _ consistent (http sessionId transactionId) _ ?_ ?_
      · intro model index
        exact modifyRow_alike model index (fun row => rfl)
      · intro model index
        rfl
  | decisionMade sessionId transactionId trace target =>
      obtain ⟨next,keeps⟩ := decisionMade_step consistent (correlated sessionId transactionId) trace target _ rfl
      exact ⟨next,.inr keeps⟩
  | findingDetected sessionId transactionId finding =>
      obtain ⟨next,keeps⟩ := findingDetected_step consistent (correlated sessionId transactionId) finding rfl
      exact ⟨next,.inr keeps⟩
  | bodyPrefix sessionId transactionId direction bytes offset observedBytes truncated =>
      exact onRow_quiet _ consistent (correlated sessionId transactionId) _
        (fun model index => alike_trans (side_alike model index direction _) (countTruncation_alike _ truncated))
        (fun model index => countTruncation_selected _ truncated)
  | wireCaptured sessionId transactionId direction bytes observedBytes truncated =>
      exact onRow_quiet _ consistent (http sessionId transactionId) _
        (fun model index => alike_trans (side_alike model index direction _) (countTruncation_alike _ truncated))
        (fun model index => countTruncation_selected _ truncated)
  | wireCaptureFailed sessionId transactionId direction reason =>
      refine onRow_quiet _ consistent (http sessionId transactionId) _ ?_ ?_
      · intro model index
        exact alike_trans (side_alike model index direction (fun side => {side with wire := .failed reason}))
          ⟨rfl,rfl,rfl,rfl,rfl⟩
      · intro model index
        rfl
  | wireCaptureUnavailable sessionId transactionId direction =>
      exact onRow_quiet _ consistent (http sessionId transactionId) _
        (fun model index => side_alike model index direction _) (fun model index => rfl)
  | flowClosed sessionId clientToUpstreamBytes upstreamToClientBytes =>
      exact closeSession_step consistent sessionId clientToUpstreamBytes upstreamToClientBytes _

theorem intercept_step (consistent : Consistent maxRows maxItems history model) (request : InterceptRequest) :
    Consistent maxRows maxItems (history.renew model) (model.applyInterceptRequest request) ∧
      FollowsSelection (.intercept request) model (model.applyInterceptRequest request) := by
  have paused : Alike model (model.pauseTransaction request.transactionId) ∧
      (model.pauseTransaction request.transactionId).selected = model.selected := by
    unfold TuiModel.pauseTransaction
    split <;> exact ⟨⟨rfl,rfl,rfl,rfl,rfl⟩,rfl⟩
  obtain ⟨alike,still⟩ := paused
  have ready : Consistent maxRows maxItems history (model.pauseTransaction request.transactionId) := by
    refine consistent_alike consistent alike ?_
    rw [still]
    exact consistent.within
  have chosen : chosenKey (.intercept request) = some (request.context.sessionId,some request.transactionId) := rfl
  obtain ⟨next,follows⟩ := onRow_selects _ ready
    (ensureRow_ensured (model.pauseTransaction request.transactionId)
      (model.pauseTransaction request.transactionId).notPaused request.context.sessionId (some request.transactionId) .http)
    (fun model index => {model.modifyRow index (TuiModel.showSnapshot request.request) with selected := index})
    (fun model index => alike_trans (modifyRow_alike model index (showSnapshot_record _)) ⟨rfl,rfl,rfl,rfl,rfl⟩)
    (fun model index => rfl) chosen
  have same : history.renew (model.pauseTransaction request.transactionId) = history.renew model := by
    unfold History.renew
    rw [alike.keys]
  rw [same] at next
  refine ⟨next,?_⟩
  rcases follows with chosen | keeps
  · exact .inl chosen
  · refine .inr (fun key selected present => keeps key ?_ present)
    rw [TuiModel.selectedKey_keys,alike.keys,still,← TuiModel.selectedKey_keys]
    exact selected

theorem modifyWorkspace_alike (model : TuiModel) (source : TransactionId) (change : RepeatWorkspace → RepeatWorkspace) :
    Alike model (model.modifyWorkspace source change) ∧ (model.modifyWorkspace source change).selected = model.selected := by
  unfold TuiModel.modifyWorkspace
  split <;> exact ⟨⟨rfl,rfl,rfl,rfl,rfl⟩,rfl⟩

theorem saveDraft_alike (state : TuiState) (source : TransactionId) (submission : RequestEditSubmission) :
    Alike state.model (state.saveDraft source submission).model ∧
      (state.saveDraft source submission).model.selected = state.model.selected :=
  modifyWorkspace_alike state.model source _

theorem applyEditedRequest_alike (model : TuiModel) (headers : List (String × List UInt8)) (body : List UInt8) :
    Alike model (model.applyEditedRequest headers body) := by
  unfold TuiModel.applyEditedRequest
  exact modifyRow_alike model model.selected (fun row => rfl)

-- No key changes what the rows retain, and the selection stays within them.
theorem keyed_alike (keyed : Keyed httparse outside code state next) :
    Alike state.model next.model ∧
      (Inside state.model.selected state.model.rows.length → Inside next.model.selected state.model.rows.length) := by
  have same : Alike state.model state.model := alike_refl _
  cases keyed with
  | unchanged => exact ⟨same,id⟩
  | moved closed inside => exact ⟨⟨rfl,rfl,rfl,rfl,rfl⟩,inside⟩
  | picked | typed | discarded | openedRequest | openedRepeat => exact ⟨⟨rfl,rfl,rfl,rfl,rfl⟩,id⟩
  | responded =>
      rw [respond_model]
      exact ⟨same,id⟩
  | revisited | created =>
      rw [respond_model]
      exact ⟨⟨rfl,rfl,rfl,rfl,rfl⟩,id⟩
  | sent => exact ⟨⟨rfl,rfl,rfl,rfl,rfl⟩,id⟩
  | deleted =>
      unfold TuiState.onModel TuiModel.deleteSelectedRepeat
      dsimp only
      split <;> exact ⟨⟨rfl,rfl,rfl,rfl,rfl⟩,id⟩
  | submitted opened target accepted chosen =>
      rename_i index request submission
      obtain ⟨model,either,done⟩ := submitEdited_chosen outside target chosen submission
      rw [done]
      rcases either with rfl | rfl
      · exact ⟨⟨rfl,rfl,rfl,rfl,rfl⟩,id⟩
      · exact ⟨alike_trans (applyEditedRequest_alike state.model submission.headers submission.body)
          ⟨rfl,rfl,rfl,rfl,rfl⟩,id⟩
  | saved | savedAndSent =>
      refine ⟨alike_trans (saveDraft_alike state _ _).1 ⟨rfl,rfl,rfl,rfl,rfl⟩,?_⟩
      intro inside
      rw [← (saveDraft_alike state _ _).2] at inside
      exact inside

theorem key_step (libs : Libraries) {state : TuiState}
    (consistent : Consistent maxRows maxItems history state.model) (outside : Outside) (key : KeyEvent) :
    Consistent maxRows maxItems (history.renew state.model)
      (state.step libs (.key outside key)).model := by
  obtain ⟨alike,inside⟩ := keyed_alike (TuiState.step_key libs state outside key)
  have shown : Alike state.model (state.step libs (.key outside key)).model :=
    ⟨alike.records,alike.maximumRows,alike.maximumItemsPerRow,alike.operationalLogs,alike.nextEvaluationId⟩
  exact consistent_alike (consistent_renew consistent) shown (inside consistent.within)

theorem input_step (libs : Libraries) {state : TuiState}
    (consistent : Consistent maxRows maxItems history state.model) (input : TuiInput) :
    Consistent maxRows maxItems
      (history.observe state.model (state.step libs input).model input) (state.step libs input).model := by
  have renewed := consistent_renew consistent
  cases input with
  | event event => exact (event_step libs.canonicalReason consistent event).1
  | intercept request => exact (intercept_step consistent request).1
  | result result =>
      obtain ⟨alike,still⟩ := modifyWorkspace_alike state.model result.sourceTransactionId
        (fun workspace => {workspace with inFlight := false,latestResult := some result})
      refine consistent_alike renewed alike ?_
      have within := consistent.within
      rwa [← still] at within
  | refresh => exact consistent_alike renewed ⟨rfl,rfl,rfl,rfl,rfl⟩ consistent.within
  | key outside key => exact key_step libs consistent outside key

-- The selection stays on its row unless the row is gone, the input shows a row of its
-- own, or the operator moves it.
theorem input_follows (libs : Libraries) {state : TuiState}
    (consistent : Consistent maxRows maxItems history state.model) (input : TuiInput)
    (arrived : ∀ outside key, input ≠ .key outside key) :
    FollowsSelection input state.model (state.step libs input).model := by
  cases input with
  | event event => exact (event_step libs.canonicalReason consistent event).2
  | intercept request => exact (intercept_step consistent request).2
  | result result =>
      obtain ⟨alike,still⟩ := modifyWorkspace_alike state.model result.sourceTransactionId
        (fun workspace => {workspace with inFlight := false,latestResult := some result})
      exact .inr (keeps_same (keeps_refl _) alike.keys still)
  | refresh => exact .inr (keeps_same (keeps_refl _) rfl rfl)
  | key outside key => exact absurd rfl (arrived outside key)

end Steps

-- A run next to the history of what arrived.
def observeStep (libs : Libraries) (observed : TuiState × History) (input : TuiInput) : TuiState × History :=
  (observed.1.step libs input,observed.2.observe observed.1.model (observed.1.step libs input).model input)

def observeRun (libs : Libraries) (start : TuiState) (inputs : List TuiInput) : TuiState × History :=
  inputs.foldl (observeStep libs) (start,.empty)

theorem observeRun_state (libs : Libraries) (start : TuiState) (inputs : List TuiInput) :
    (observeRun libs start inputs).1 = start.run libs inputs := by
  induction inputs using List.reverseRecOn with
  | nil => rfl
  | append_singleton inputs input ih =>
      unfold observeRun at ih ⊢
      rw [List.foldl_concat,TuiState.run_concat,← ih]
      rfl

theorem observeRun_consistent (libs : Libraries) (maxRows maxItems : Config.NonZero)
    (inputs : List TuiInput) :
    Consistent maxRows maxItems
      (observeRun libs (.start maxRows maxItems) inputs).2
      (observeRun libs (.start maxRows maxItems) inputs).1.model := by
  induction inputs using List.reverseRecOn with
  | nil => exact consistent_start
  | append_singleton inputs input ih =>
      unfold observeRun at ih ⊢
      rw [List.foldl_concat]
      exact input_step libs ih input

end Freja.Ui
