import Freja.Proxy.UiWatch
import Freja.Ui.Interception
import Freja.Ui.SideBodies

namespace Freja.Ui
open Domain Policy Proxy Bytes

section Folding

variable {contentBytes : Nat} (bounded : contentBytes ≤ u64Max)

include bounded

theorem append_chunk (stream chunk : List UInt8) (within : stream.length ≤ contentBytes) (some : chunk ≠ []) :
    (chunkEvent contentBytes stream chunk).toList.foldl ShownBody.append ⟨⟨stream,false⟩,stream.length,false⟩ =
      ⟨⟨(stream ++ chunk).take contentBytes,false⟩,min (stream ++ chunk).length u64Max,
        decide (contentBytes < (stream ++ chunk).length)⟩ := by
  have loud : ¬ (chunk = [] ∨ contentBytes < stream.length) := by
    rintro (none | past)
    · exact some none
    · omega
  have offset : min stream.length u64Max = stream.length := by omega
  unfold chunkEvent
  rw [if_neg loud,offset]
  simp only [Option.toList_some,List.foldl_cons,List.foldl_nil,ShownBody.append,Pieces.Received.add,if_pos,
    Bool.false_or]
  rw [List.take_append,List.take_of_length_le within]
  have most : max stream.length (min (stream ++ chunk).length u64Max) = min (stream ++ chunk).length u64Max := by
    rw [List.length_append]
    omega
  rw [most]

theorem fold_within (stream : List UInt8) (chunks : List (List UInt8))
    (fits : (stream ++ chunks.flatten).length ≤ contentBytes) :
    (published (some contentBytes) (.after contentBytes stream) chunks).foldl ShownBody.append
        ⟨⟨stream,false⟩,stream.length,false⟩ =
      ⟨⟨stream ++ chunks.flatten,false⟩,(stream ++ chunks.flatten).length,false⟩ := by
  induction chunks generalizing stream with
  | nil => simp [published]
  | cons chunk rest ih =>
      rw [List.flatten_cons,← List.append_assoc] at fits ⊢
      have part : (stream ++ chunk).length ≤ contentBytes := by
        rw [List.length_append] at fits
        omega
      rw [published_cons,List.foldl_append]
      by_cases empty : chunk = []
      · have quiet : chunkEvent contentBytes stream [] = none := if_pos (.inl rfl)
        subst empty
        rw [quiet]
        rw [List.append_nil] at fits ⊢
        exact ih stream fits
      · have shorter : stream.length ≤ contentBytes := by
          rw [List.length_append] at part
          omega
        have counted : min (stream ++ chunk).length u64Max = (stream ++ chunk).length := by omega
        have uncut : decide (contentBytes < (stream ++ chunk).length) = false := decide_eq_false (by omega)
        rw [append_chunk bounded stream chunk shorter empty,counted,uncut,List.take_of_length_le part]
        exact ih (stream ++ chunk) fits

theorem fold_inside (chunks : List (List UInt8)) (fits : chunks.flatten.length ≤ contentBytes) :
    (published (some contentBytes) .new chunks).foldl ShownBody.append .empty =
      ⟨⟨chunks.flatten,false⟩,chunks.flatten.length,false⟩ := by
  have folded := fold_within bounded [] chunks fits
  rw [List.nil_append,UiCounters.after_nothing] at folded
  exact folded

theorem fold_over {early late : List (List UInt8)} {chunk : List UInt8}
    (within : early.flatten.length ≤ contentBytes) (beyond : contentBytes < (early.flatten ++ chunk).length) :
    (published (some contentBytes) .new (early ++ chunk :: late)).foldl ShownBody.append .empty =
      ⟨⟨(early ++ chunk :: late).flatten.take contentBytes,false⟩,min (early.flatten ++ chunk).length u64Max,true⟩ := by
  have some : chunk ≠ [] := by
    rintro rfl
    rw [List.append_nil] at beyond
    omega
  have split : published (.some contentBytes) .new (early ++ chunk :: late) =
      published (.some contentBytes) .new early ++ (chunkEvent contentBytes early.flatten chunk).toList := by
    rw [← UiCounters.after_nothing contentBytes,published_append,published_cons,List.nil_append,
      published_past beyond,List.append_nil]
  rw [split,List.foldl_append,fold_inside bounded early within,append_chunk bounded early.flatten chunk within some,
    decide_eq_true beyond]
  have taken : (early ++ chunk :: late).flatten.take contentBytes = (early.flatten ++ chunk).take contentBytes := by
    rw [List.flatten_append,List.flatten_cons,← List.append_assoc,List.take_append_of_le_length (by omega)]
  rw [taken]

end Folding

-- A side tells the truth about a whole stream.
def ExactBody (contentBytes : Nat) (stream : List UInt8) (shown : ShownBody) : Prop :=
  shown.observed = stream.length ∧ shown.received.items = stream.take contentBytes ∧
    (shown.truncated = true ↔ contentBytes < stream.length) ∧ shown.received.gap = false

theorem exact_chunks {contentBytes : Nat} (bounded : contentBytes ≤ u64Max) (chunks : List (List UInt8)) :
    ExactBody contentBytes chunks.flatten
        ((published (some contentBytes) .new chunks).foldl ShownBody.append .empty) ↔
      chunks.flatten.length ≤ u64Max ∧ ¬ Overrun contentBytes chunks := by
  by_cases past : contentBytes < chunks.flatten.length
  · obtain ⟨early,chunk,late,rfl,within,beyond⟩ := crossing past
    rw [fold_over bounded within beyond,crossing_overrun within beyond]
    have total : (early ++ chunk :: late).flatten.length = (early.flatten ++ chunk).length + late.flatten.length := by
      rw [List.flatten_append,List.flatten_cons,← List.append_assoc,List.length_append]
    constructor
    · rintro ⟨observed,_⟩
      change min (early.flatten ++ chunk).length u64Max = _ at observed
      rw [total] at observed ⊢
      have none : late.flatten.length = 0 := by omega
      exact ⟨by omega,fun more => more (List.eq_nil_of_length_eq_zero none)⟩
    · rintro ⟨counted,last⟩
      have none : late.flatten = [] := not_not.mp last
      rw [none,List.length_nil,Nat.add_zero] at total
      refine ⟨?_,rfl,?_,rfl⟩
      · change min (early.flatten ++ chunk).length u64Max = _
        omega
      · exact ⟨fun _ => past,fun _ => rfl⟩
  · have fits := Nat.le_of_not_lt past
    rw [fold_inside bounded chunks fits]
    constructor
    · intro _
      refine ⟨by omega,?_⟩
      rintro ⟨early,late,rfl,passed,_⟩
      rw [List.flatten_append,List.length_append] at past
      omega
    · intro _
      refine ⟨rfl,(List.take_of_length_le fits).symm,?_,rfl⟩
      constructor
      · intro cut
        cases cut
      · intro passed
        exact absurd passed past

theorem observed_chunks {contentBytes : Nat} (bounded : contentBytes ≤ u64Max) (chunks : List (List UInt8)) :
    ((published (some contentBytes) .new chunks).foldl ShownBody.append .empty).observed ≤ chunks.flatten.length := by
  by_cases past : contentBytes < chunks.flatten.length
  · obtain ⟨early,chunk,late,rfl,within,beyond⟩ := crossing past
    have total : (early ++ chunk :: late).flatten.length = (early.flatten ++ chunk).length + late.flatten.length := by
      rw [List.flatten_append,List.flatten_cons,← List.append_assoc,List.length_append]
    rw [fold_over bounded within beyond,total]
    change min (early.flatten ++ chunk).length u64Max ≤ _
    omega
  · rw [fold_inside bounded chunks (Nat.le_of_not_lt past)]

theorem exact_source {contentBytes : Nat} (bounded : contentBytes ≤ u64Max) (source : BodySource) :
    ExactBody contentBytes source.bytes
        ((published (some contentBytes) .new source.handed).foldl ShownBody.append .empty) ↔
      source.bytes.length ≤ u64Max ∧ source.WithinBudget ∧ ¬ Overrun contentBytes source.frames := by
  by_cases within : source.WithinBudget
  · rw [BodySource.published_handed contentBytes within]
    change ExactBody contentBytes source.frames.flatten _ ↔ source.frames.flatten.length ≤ u64Max ∧ _
    rw [exact_chunks bounded]
    exact ⟨fun told => ⟨told.1,within,told.2⟩,fun told => ⟨told.1,told.2.2⟩⟩
  · constructor
    · rintro ⟨observed,_⟩
      have told := observed_chunks bounded source.handed
      have short := BodySource.handed_short within
      omega
    · exact fun reported => absurd reported.2.1 within

theorem NonZero.bounded (count : Config.NonZero) : count.get ≤ u64Max := by
  have small := count.value.toNat_lt
  unfold Config.NonZero.get u64Max
  omega

-- The row of a body that was told of from its first event to its last shows the truth about
-- it exactly when the budget covers it and nothing follows the chunk that passes the limit.
theorem body_totals_exact (libs : Libraries) (maxRows maxItems contentBytes : Config.NonZero)
    (source : BodySource) (key : RowKey) (side : SelectedSide) (inputs : List TuiInput)
    (observed : Uninterrupted inputs)
    (retained : Runs.Along (TuiState.step libs) (StaysFor libs key side)
      (.start maxRows maxItems) inputs)
    (delivered : inputs.filterMap (heardOn key side) = published (some contentBytes.get) .new source.handed)
    (row : TrafficRow)
    (shown : row ∈ ((TuiState.start maxRows maxItems).run libs inputs).model.rows)
    (its : row.key = key) :
    ((row.side side).observedBodyBytes = source.bytes.length ∧
        (row.side side).body = source.bytes.take contentBytes.get ∧
        ((row.side side).bodyTruncated = true ↔ contentBytes.get < source.bytes.length) ∧
        (row.side side).bodyIncomplete = false) ↔
      source.bytes.length ≤ u64Max ∧ source.WithinBudget ∧ ¬ Overrun contentBytes.get source.frames := by
  have folded := (hearRun_shown libs maxRows maxItems inputs observed).2 row shown side
  rw [its,hearRun_retained libs _ inputs key side retained,delivered] at folded
  rw [← exact_source (NonZero.bounded contentBytes) source,← folded]
  exact Iff.rfl

section Samples

def eight : Config.NonZero := .ofUInt32 8

def sampleKey : RowKey := (⟨1⟩,some ⟨2⟩)

-- All that is told of a request body, one event after the other.
def tellingAll (contentBytes : Config.NonZero) (source : BodySource) : List TuiInput :=
  (published (some contentBytes.get) .new source.handed).map (fun event =>
    .event (uiEvent sampleKey .httpRequestBody event))

def telling (contentBytes : Config.NonZero) (source : BodySource) : TuiState :=
  (TuiState.start single single).run Interception.plainLibraries (tellingAll contentBytes source)

theorem telling_uninterrupted (contentBytes : Config.NonZero) (source : BodySource) :
    Uninterrupted (tellingAll contentBytes source) := by
  intro request member
  obtain ⟨event,_,same⟩ := List.mem_map.mp member
  cases same

theorem telling_heard (contentBytes : Config.NonZero) (source : BodySource) :
    (tellingAll contentBytes source).filterMap (heardOn sampleKey .request) =
      published (some contentBytes.get) .new source.handed := by
  unfold tellingAll
  rw [List.filterMap_map]
  refine (List.filterMap_congr ?_).trans (List.filterMap_some)
  intro event _
  simp [heardOn_bodyPrefix,sideOf]

def wholeBody : BodySource := .streamed 8 [ascii "first ",ascii "4"]

instance (libs : Libraries) (key : RowKey) (side : SelectedSide) (state : TuiState) (input : TuiInput) :
    Decidable (StaysFor libs key side state input) := by
  unfold StaysFor
  infer_instance

theorem whole_body_shown :
    ∃ row ∈ (telling eight wholeBody).model.rows, row.key = sampleKey ∧
      (row.side .request).observedBodyBytes = 7 ∧ (row.side .request).body = ascii "first 4" := by
  obtain ⟨row,shown,its⟩ := List.mem_map.mp (by decide +kernel : sampleKey ∈ (telling eight wholeBody).model.keys)
  have retained : Runs.Along (TuiState.step Interception.plainLibraries)
      (StaysFor Interception.plainLibraries sampleKey .request) (.start single single) (tellingAll eight wholeBody) := by
    decide +kernel
  have unbroken : ¬ Overrun eight.get wholeBody.frames := by
    rintro ⟨early,late,split,passed,_⟩
    have total := congrArg (fun frames => frames.flatten.length) split
    have limit : eight.get = 8 := by decide
    rw [limit] at passed
    simp [wholeBody,BodySource.frames,ascii] at total passed
    omega
  have within : wholeBody.WithinBudget := (by decide : (7 : Nat) ≤ 8)
  have told := (body_totals_exact Interception.plainLibraries single single eight wholeBody sampleKey .request
    (tellingAll eight wholeBody) (telling_uninterrupted eight wholeBody) retained (telling_heard eight wholeBody) row
    shown its).mpr ⟨by decide,within,unbroken⟩
  exact ⟨row,shown,its,told.1,told.2.1⟩

-- A body that is longer than the budget, and one that goes on after its limit.
def longBody : BodySource := .streamed 4 [ascii "eight by"]

def overrunBody : BodySource := .tunnelled [ascii "nine byte",ascii "s more"]

-- All events of a body arrive, its row stays, and the total is another.
def Mistold (source : BodySource) : Prop :=
  Runs.Along (TuiState.step Interception.plainLibraries) (StaysFor Interception.plainLibraries sampleKey .request)
    (.start single single) (tellingAll eight source) ∧
  (tellingAll eight source).filterMap (heardOn sampleKey .request) = published (some eight.get) .new source.handed ∧
  sampleKey ∈ (telling eight source).model.keys ∧
  ∀ row ∈ (telling eight source).model.rows, (row.side .request).observedBodyBytes ≠ source.bytes.length

theorem untold_bytes_missing : Mistold longBody ∧ Mistold overrunBody := by
  unfold Mistold
  decide +kernel

end Samples

-- Events that are pieces of a stream show a beginning of it,
theorem fold_prefix {events : List BodyPrefix} {shown : ShownBody} (pieces : ∀ event ∈ events, Places stream 0 event)
    (whole : shown.received.items <+: stream) : (events.foldl ShownBody.append shown).received.items <+: stream := by
  induction events generalizing shown with
  | nil => exact whole
  | cons event rest ih =>
      rw [List.forall_mem_cons] at pieces
      exact ih pieces.2 (Pieces.add_prefix whole pieces.1.piece)

-- and do not get beyond a place at which one of them is missing.
theorem fold_below {events : List BodyPrefix} {shown : ShownBody}
    (outside : ∀ event ∈ events, event.offset + event.bytes.length ≤ position ∨ position < event.offset)
    (short : shown.received.items.length ≤ position) :
    (events.foldl ShownBody.append shown).received.items.length ≤ position := by
  induction events generalizing shown with
  | nil => exact short
  | cons event rest ih =>
      rw [List.forall_mem_cons] at outside
      exact ih outside.2 (Pieces.add_below short outside.1)

theorem source_places (contentBytes : Config.NonZero) (source : BodySource) :
    ∀ event ∈ published (some contentBytes.get) .new source.handed, Places source.bytes 0 event := by
  intro event member
  rw [← UiCounters.after_nothing contentBytes.get] at member
  obtain ⟨least,piece⟩ := published_places (NonZero.bounded contentBytes) [] source.handed event member
  obtain ⟨rest,same⟩ := source.handed_prefix
  refine ⟨least,?_⟩
  rw [← same,List.drop_append]
  exact piece.trans (List.prefix_append _ _)

theorem source_apart (contentBytes : Config.NonZero) {source : BodySource}
    (told : published (some contentBytes.get) .new source.handed = before ++ lost :: after) (some : lost.bytes ≠ []) :
    (∀ event ∈ before, event.offset + event.bytes.length ≤ lost.offset) ∧ ∀ event ∈ after, lost.offset < event.offset := by
  have ordered := published_ordered (NonZero.bounded contentBytes) [] source.handed
  rw [UiCounters.after_nothing,told,List.pairwise_append,List.pairwise_cons] at ordered
  refine ⟨fun event member => ordered.2.2 event member lost List.mem_cons_self,?_⟩
  intro event member
  have next := ordered.2.1.1 event member
  have positive := List.length_pos_iff.mpr some
  omega

theorem gap_stays (libs : Libraries) (key : RowKey) (side : SelectedSide) (inputs : List TuiInput)
    {heard : TuiState × BodyHistory} (missing : ((heard.2 key side).foldl ShownBody.append .empty).received.gap = true)
    (stays : Runs.Along (TuiState.step libs) (fun state _ => key ∈ state.model.keys) heard.1 inputs) :
    (((inputs.foldl (hearStep libs) heard).2 key side).foldl ShownBody.append .empty).received.gap = true := by
  induction inputs generalizing heard with
  | nil => exact missing
  | cons input rest ih =>
      obtain ⟨present,later⟩ := stays
      refine ih ?_ later
      change (((if key ∈ heard.1.model.keys then heard.2 key side else []) ++ _).foldl
        ShownBody.append .empty).received.gap = true
      rw [if_pos present,List.foldl_append]
      cases heardOn key side input with
      | none => exact missing
      | some event => exact Pieces.add_gap missing

-- Whatever events are lost.
theorem displayed_body_prefix (libs : Libraries) (maxRows maxItems contentBytes : Config.NonZero)
    (source : BodySource) (key : RowKey) (side : SelectedSide) (inputs : List TuiInput)
    (observed : Uninterrupted inputs)
    (lossy : (inputs.filterMap (heardOn key side)).Sublist (published (some contentBytes.get) .new source.handed)) :
    (∀ row ∈ ((TuiState.start maxRows maxItems).run libs inputs).model.rows, row.key = key →
      (row.side side).body <+: source.bytes) ∧
    ∀ first arrival rest before lost after event, inputs = first ++ arrival :: rest →
      published (some contentBytes.get) .new source.handed = before ++ lost :: after → lost.bytes ≠ [] →
      (first.filterMap (heardOn key side)).Sublist (before ++ after) →
      heardOn key side arrival = some event → event ∈ after →
      Runs.Along (TuiState.step libs) (fun state _ => key ∈ state.model.keys)
        ((TuiState.start maxRows maxItems).run libs (first ++ [arrival])) rest →
      ∀ row ∈ ((TuiState.start maxRows maxItems).run libs inputs).model.rows, row.key = key →
        (row.side side).bodyIncomplete = true := by
  have shown := (hearRun_shown libs maxRows maxItems inputs observed).2
  constructor
  · rintro row member rfl
    change (row.side side).shown.received.items <+: source.bytes
    rw [shown row member side]
    refine fold_prefix ?_ List.nil_prefix
    intro event told
    exact source_places contentBytes source event
      (lossy.subset (hearRun_heard libs _ inputs row.key side event told))
  · rintro first arrival rest before lost after event rfl told some kept arrives behind stays row member rfl
    obtain ⟨early,late⟩ := source_apart contentBytes told some
    -- Without the lost event the row did not get to where the event begins.
    have short : (((hearRun libs (.start maxRows maxItems) first).2 row.key side).foldl
        ShownBody.append .empty).received.items.length ≤ lost.offset := by
      refine fold_below ?_ (Nat.zero_le _)
      intro other heard
      have either := kept.subset (hearRun_heard libs _ first row.key side other heard)
      rcases List.mem_append.mp either with sooner | later
      · exact .inl (early other sooner)
      · exact .inr (late other later)
    have missing : (((hearRun libs (.start maxRows maxItems) (first ++ [arrival])).2 row.key
        side).foldl ShownBody.append .empty).received.gap = true := by
      rw [hearRun_concat,BodyHistory.hear,arrives,List.foldl_append]
      refine Pieces.add_beyond ?_ (late event behind)
      split
      · exact short
      · exact Nat.zero_le _
    rw [← hearRun_state] at stays
    have gap := gap_stays libs row.key side rest missing stays
    change (row.side side).shown.received.gap = true
    rw [shown row member side]
    have split : first ++ arrival :: rest = first ++ [arrival] ++ rest := by simp
    rw [split]
    unfold hearRun at gap ⊢
    rw [List.foldl_append]
    exact gap

def threeParts : BodySource := .tunnelled [ascii "a",ascii "b",ascii "c"]

-- The event of the second part is lost.
def partEvents : List TuiInput := (tellingAll eight threeParts).eraseIdx 1

theorem lost_part_noticed :
    ∃ row ∈ ((TuiState.start single single).run Interception.plainLibraries partEvents).model.rows,
      row.key = sampleKey ∧ (row.side .request).body <+: ascii "abc" ∧ (row.side .request).bodyIncomplete = true := by
  obtain ⟨row,shown,its⟩ := List.mem_map.mp (by decide +kernel :
    sampleKey ∈ ((TuiState.start single single).run Interception.plainLibraries partEvents).model.keys)
  have observed : Uninterrupted partEvents := fun request member =>
    telling_uninterrupted eight threeParts request (List.mem_of_mem_eraseIdx member)
  obtain ⟨begins,notices⟩ := displayed_body_prefix Interception.plainLibraries single single eight threeParts sampleKey
    .request partEvents observed (by decide +kernel)
  refine ⟨row,shown,its,begins row shown its,?_⟩
  exact notices (partEvents.take 1) (.event (uiEvent sampleKey .httpRequestBody ⟨ascii "c",2,3,false⟩)) []
    [⟨ascii "a",0,1,false⟩] ⟨ascii "b",1,2,false⟩ [⟨ascii "c",2,3,false⟩] _ rfl (by decide +kernel) (by decide)
    (by decide +kernel) rfl List.mem_cons_self trivial row shown its

end Freja.Ui
