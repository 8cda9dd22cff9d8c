import Freja.Foundation.Relational
import Freja.Proxy.BodyInspection
import Freja.Ui.Editor

namespace Freja.Ui
open Audit Bytes Policy Proxy Framing Framing.Grammar Effect

variable {parse : Httparse} {editor : RequestEditor}

theorem validateHeaderBudget_ok : validateHeaderBudget headers maximum = .ok () ↔ Headers.headerSize headers ≤ maximum := by
  unfold validateHeaderBudget
  split
  · rename_i past
    exact ⟨(fun never => by cases never),fun fits => absurd fits (Nat.not_le_of_gt past)⟩
  · rename_i fits
    exact ⟨fun _ => Nat.le_of_not_gt fits,fun _ => rfl⟩

namespace RequestEditor

-- What a document is accepted for.
structure Accepts (editor : RequestEditor) (parsed : ParsedRequest) (desired : HeaderMap) (body : List UInt8) : Prop where
  method : parsed.method = utf8 editor.originalMethod
  path : parsed.path = utf8 editor.originalTarget
  version : parsed.version = 1
  fits : body.length ≤ editor.maximumBodyBytes
  headers : parsedHeaderMap parsed = .ok desired
  budget : Headers.headerSize desired ≤ editor.maximumHeadBytes
  free : ∀ mutation ∈ (headerDiff editor.originalHeaders desired).headers, mutation.name ∉ protectedHeaders
  display : Headers.headerSize (editor.displayHeaders desired body) ≤ editor.maximumHeadBytes

def answer (editor : RequestEditor) (desired : HeaderMap) (body : List UInt8) : RequestEditSubmission where
  decision := decision (headerDiff editor.originalHeaders desired) (editor.bodyPlan body)
  headerMap := editor.displayHeaders desired body
  headers := (editor.displayHeaders desired body).pairs
  body := body

theorem judge_ok : editor.judge desired body = .ok result ↔
    Headers.headerSize desired ≤ editor.maximumHeadBytes ∧
      (∀ mutation ∈ (headerDiff editor.originalHeaders desired).headers, mutation.name ∉ protectedHeaders) ∧
      Headers.headerSize (editor.displayHeaders desired body) ≤ editor.maximumHeadBytes ∧
      result = editor.answer desired body := by
  unfold judge
  rw [except_bind_iff]
  dsimp only
  constructor
  · rintro ⟨_,within,done⟩
    rw [except_bind_iff] at done
    obtain ⟨edited,applied,done⟩ := done
    rw [except_bind_iff] at done
    obtain ⟨_,shown,done⟩ := done
    cases done
    exact ⟨validateHeaderBudget_ok.mp within,(applyHeadMutation_ok.mp (mapError_ok.mp applied)).1,
      validateHeaderBudget_ok.mp shown,rfl⟩
  · rintro ⟨within,free,shown,rfl⟩
    refine ⟨(),validateHeaderBudget_ok.mpr within,?_⟩
    rw [except_bind_iff]
    refine ⟨_,mapError_ok.mpr (applyHeadMutation_ok.mpr ⟨free,rfl⟩),?_⟩
    rw [except_bind_iff]
    exact ⟨(),validateHeaderBudget_ok.mpr shown,rfl⟩

theorem submitParsed_ok : editor.submitParsed parsed body = .ok result ↔
    ∃ desired, editor.Accepts parsed desired body ∧ result = editor.answer desired body := by
  unfold submitParsed
  split
  · rename_i changed
    refine ⟨(fun never => by cases never),?_⟩
    rintro ⟨desired,accepts,_⟩
    rcases changed with other | other | other
    · exact absurd accepts.method other
    · exact absurd accepts.path other
    · exact absurd accepts.version other
  · rename_i same
    obtain ⟨method,path,version⟩ : parsed.method = utf8 editor.originalMethod ∧
        parsed.path = utf8 editor.originalTarget ∧ parsed.version = 1 := by
      simpa [not_or] using same
    split
    · rename_i past
      refine ⟨(fun never => by cases never),?_⟩
      rintro ⟨desired,accepts,_⟩
      exact absurd accepts.fits (Nat.not_le_of_gt past)
    · rename_i fits
      rw [except_bind_iff]
      refine exists_congr ?_
      intro desired
      rw [judge_ok]
      constructor
      · rintro ⟨headers,budget,free,display,answered⟩
        exact ⟨⟨method,path,version,Nat.le_of_not_gt fits,headers,budget,free,display⟩,answered⟩
      · rintro ⟨accepts,answered⟩
        exact ⟨accepts.headers,accepts.budget,accepts.free,accepts.display,answered⟩

theorem submission_ok (cut : wireRequest editor.document = .ok (wire,offset,room)) :
    editor.submission parse = .ok result ↔ ∃ parsed desired, parse wire room = .complete parsed offset ∧
      editor.Accepts parsed desired (wire.drop offset) ∧ result = editor.answer desired (wire.drop offset) := by
  unfold submission
  rw [cut]
  dsimp only [bind,Except.bind]
  cases read : parse wire room with
  | failed | unfinished =>
      refine ⟨(fun never => by cases never),?_⟩
      rintro ⟨_,_,other,_⟩
      cases other
  | complete parsed bytes =>
      dsimp only
      split
      · rename_i apart
        refine ⟨(fun never => by cases never),?_⟩
        rintro ⟨_,_,same,_⟩
        cases same
        exact absurd rfl apart
      · rename_i same
        have ends : bytes = offset := Classical.not_not.mp same
        subst ends
        rw [submitParsed_ok]
        constructor
        · rintro ⟨desired,accepted⟩
          exact ⟨parsed,desired,rfl,accepted⟩
        · rintro ⟨_,desired,same,accepted⟩
          cases same
          exact ⟨desired,accepted⟩

end RequestEditor

-- The mutations that fill a name anew.
def refill (desired : HeaderMap) (name : String) : List HeaderMutation :=
  .remove name :: (desired.getAll name).map (.append name)

theorem refill_named (member : mutation ∈ refill desired name) : mutation.name = name := by
  rcases List.mem_cons.mp member with same | appended
  · rw [same]
    rfl
  · obtain ⟨value,_,same⟩ := List.mem_map.mp appended
    rw [← same]
    rfl

theorem appends_getAll (values : List (List UInt8)) (headers : HeaderMap) (name : String) :
    ((values.map (HeaderMutation.append name)).foldl HeaderMutation.apply headers).getAll name =
      headers.getAll name ++ values := by
  induction values generalizing headers with
  | nil => simp
  | cons value rest ih =>
      rw [List.map_cons,List.foldl_cons,ih]
      change (headers.append name value).getAll name ++ rest = _
      rw [HeaderMap.getAll_append_self,List.append_assoc,List.singleton_append]

theorem apply_elsewhere {mutations : List HeaderMutation} (headers : HeaderMap)
    (apart : ∀ mutation ∈ mutations, mutation.name ≠ other) :
    (mutations.foldl HeaderMutation.apply headers).getAll other = headers.getAll other := by
  induction mutations generalizing headers with
  | nil => rfl
  | cons mutation rest ih =>
      obtain ⟨here,later⟩ := List.forall_mem_cons.mp apart
      rw [List.foldl_cons,ih _ later]
      exact HeaderMutation.apply_getAll headers mutation (fun same => here same.symm)

theorem refill_getAll (headers desired : HeaderMap) (name other : String) :
    ((refill desired name).foldl HeaderMutation.apply headers).getAll other =
      if other = name then desired.getAll name else headers.getAll other := by
  split
  · rename_i here
    subst here
    unfold refill
    rw [List.foldl_cons,appends_getAll]
    change (headers.remove other).getAll other ++ _ = _
    rw [HeaderMap.getAll_remove_self,List.nil_append]
  · rename_i apart
    apply apply_elsewhere
    intro mutation member same
    rw [refill_named member] at same
    exact apart same.symm

theorem refills_getAll (names : List String) (headers desired : HeaderMap) (name : String) :
    ((names.flatMap (refill desired)).foldl HeaderMutation.apply headers).getAll name =
      if name ∈ names then desired.getAll name else headers.getAll name := by
  induction names generalizing headers with
  | nil => simp
  | cons first rest ih =>
      rw [List.flatMap_cons,List.foldl_append,ih,refill_getAll]
      by_cases later : name ∈ rest
      · simp [later]
      · by_cases here : name = first
        · simp [here]
        · simp [here,later]

def changedNames (original desired : HeaderMap) : List String :=
  (original.entries.map Prod.fst ++ desired.entries.map Prod.fst).eraseDups.filter
    (fun name => original.getAll name != desired.getAll name)

theorem headerDiff_refills (original desired : HeaderMap) :
    (headerDiff original desired).headers = (changedNames original desired).flatMap (refill desired) := rfl

theorem changedNames_mem : name ∈ changedNames original desired ↔ original.getAll name ≠ desired.getAll name := by
  unfold changedNames
  rw [List.mem_filter,bne_iff_ne]
  refine ⟨And.right,fun differs => ⟨?_,differs⟩⟩
  rw [List.mem_eraseDups,List.mem_append,← HeaderMap.containsKey_names,← HeaderMap.containsKey_names]
  by_contra absent
  obtain ⟨first,second⟩ := not_or.mp absent
  apply differs
  rw [HeaderMap.getAll_missing (Bool.eq_false_iff.mpr first),HeaderMap.getAll_missing (Bool.eq_false_iff.mpr second)]

-- Taking the steps of the difference leads to the desired values.
theorem headerDiff_getAll (original desired : HeaderMap) (name : String) :
    ((headerDiff original desired).headers.foldl HeaderMutation.apply original).getAll name = desired.getAll name := by
  rw [headerDiff_refills,refills_getAll]
  split
  · rfl
  · rename_i same
    exact Classical.not_not.mp (mt changedNames_mem.mpr same)

theorem headerDiff_free : (∀ mutation ∈ (headerDiff original desired).headers, mutation.name ∉ protectedHeaders) ↔
    ∀ name ∈ protectedHeaders, original.getAll name = desired.getAll name := by
  rw [headerDiff_refills]
  constructor
  · intro free name guarded
    by_contra differs
    refine free (.remove name) (List.mem_flatMap.mpr ⟨name,changedNames_mem.mpr differs,List.mem_cons_self⟩) guarded
  · intro same mutation member guarded
    obtain ⟨name,changed,inside⟩ := List.mem_flatMap.mp member
    rw [refill_named inside] at guarded
    exact changedNames_mem.mp changed (same name guarded)

theorem headerDiff_empty : (headerDiff original desired).headers.isEmpty = true ↔
    ∀ name, original.getAll name = desired.getAll name := by
  rw [headerDiff_refills,List.isEmpty_iff,List.flatMap_eq_nil_iff]
  constructor
  · intro nothing name
    by_contra differs
    cases nothing name (changedNames_mem.mpr differs)
  · intro same name changed
    exact absurd (same name) (changedNames_mem.mp changed)

-- Maps that list the same values under every name.
def SameValues (left right : HeaderMap) : Prop := ∀ name, left.getAll name = right.getAll name

namespace SameValues

variable {left right : HeaderMap}

theorem remove (same : SameValues left right) (gone : String) : SameValues (left.remove gone) (right.remove gone) := by
  intro name
  by_cases here : name = gone
  · subst here
    rw [HeaderMap.getAll_remove_self,HeaderMap.getAll_remove_self]
  · rw [left.getAll_remove_of_ne here,right.getAll_remove_of_ne here]
    exact same name

theorem removeAll (same : SameValues left right) (names : List String) :
    SameValues (names.foldl HeaderMap.remove left) (names.foldl HeaderMap.remove right) := by
  induction names generalizing left right with
  | nil => exact same
  | cons name rest ih => exact ih (same.remove name)

theorem insert (same : SameValues left right) (given : String) (value : List UInt8) :
    SameValues (left.insert given value) (right.insert given value) := by
  intro name
  by_cases here : name = given
  · subst here
    rw [HeaderMap.getAll_insert_self,HeaderMap.getAll_insert_self]
  · rw [left.getAll_insert_of_ne value here,right.getAll_insert_of_ne value here]
    exact same name

theorem normalizeReplacedBodyHeaders (same : SameValues left right) :
    SameValues (Policy.normalizeReplacedBodyHeaders left) (Policy.normalizeReplacedBodyHeaders right) :=
  same.removeAll _

theorem setContentLength (same : SameValues left right) (count : Nat) :
    SameValues (Policy.setContentLength left count) (Policy.setContentLength right count) :=
  ((same.remove "transfer-encoding").remove "trailer").insert "content-length" _

end SameValues

theorem setContentLength_again (headers : HeaderMap) (count : Nat) :
    SameValues (setContentLength (setContentLength headers count) count) (setContentLength headers count) := by
  intro name
  have length : (setContentLength headers count).getAll "content-length" = [utf8 (toString count)] :=
    HeaderMap.getAll_insert_self _ _ _
  by_cases sized : name = "content-length"
  · subst sized
    rw [length]
    exact HeaderMap.getAll_insert_self _ _ _
  · have outer : (setContentLength (setContentLength headers count) count).getAll name =
        (((setContentLength headers count).remove "transfer-encoding").remove "trailer").getAll name :=
      HeaderMap.getAll_insert_of_ne _ _ sized
    have inner : (setContentLength headers count).getAll name =
        ((headers.remove "transfer-encoding").remove "trailer").getAll name :=
      HeaderMap.getAll_insert_of_ne _ _ sized
    rw [outer]
    by_cases trailer : name = "trailer"
    · subst trailer
      rw [inner,HeaderMap.getAll_remove_self,HeaderMap.getAll_remove_self]
    · by_cases coding : name = "transfer-encoding"
      · subst coding
        rw [HeaderMap.getAll_remove_of_ne _ trailer,HeaderMap.getAll_remove_self,inner,
          HeaderMap.getAll_remove_of_ne _ trailer,HeaderMap.getAll_remove_self]
      · rw [HeaderMap.getAll_remove_of_ne _ trailer,HeaderMap.getAll_remove_of_ne _ coding]

theorem applyBodyMutation_plan (fits : body.length ≤ maximum) :
    applyBodyMutation editor.originalBody (editor.bodyPlan body) maximum = .ok body := by
  unfold RequestEditor.bodyPlan
  split
  · rename_i same
    rw [same]
    rfl
  · unfold applyBodyMutation
    dsimp only
    rw [if_neg (Nat.not_lt_of_le fits)]

-- What the data plane makes of a decision: the head and the body that go out.
def forwardDecided (limits : HttpLimits) (headers : HeaderMap) (body : List UInt8) (decision : InteractiveDecision) :
    Except ProxyError (HeaderMap × List UInt8) :=
  (HttpService.applyDecision limits headers body (some decision)).map
    (fun edited => (setContentLength edited.1 edited.2.length,edited.2))

theorem answer_forwarded (accepts : editor.Accepts parsed desired body) (limits : HttpLimits)
    (sized : limits.bodyPrefixBytes = editor.maximumBodyBytes) :
    ∃ head, forwardDecided limits editor.originalHeaders editor.originalBody (editor.answer desired body).decision =
        .ok (head,body) ∧ SameValues head (editor.displayHeaders desired body) := by
  have values : SameValues ((headerDiff editor.originalHeaders desired).headers.foldl HeaderMutation.apply
      editor.originalHeaders) desired := headerDiff_getAll editor.originalHeaders desired
  change ∃ head, forwardDecided limits _ _ (RequestEditor.decision (headerDiff editor.originalHeaders desired)
    (editor.bodyPlan body)) = _ ∧ _
  unfold RequestEditor.decision forwardDecided
  split
  · -- Nothing has changed, so that the original goes out.
    rename_i unchanged
    have same : body = editor.originalBody := by
      by_contra other
      have replaced := unchanged.2
      unfold RequestEditor.bodyPlan at replaced
      rw [if_neg other] at replaced
      cases replaced
    refine ⟨setContentLength editor.originalHeaders body.length,?_,?_⟩
    · rw [same]
      rfl
    · unfold RequestEditor.displayHeaders
      rw [if_pos same]
      have kept : SameValues editor.originalHeaders desired := headerDiff_empty.mp unchanged.1
      exact kept.setContentLength _
  · have applied : applyHeadMutation editor.originalHeaders (headerDiff editor.originalHeaders desired) = .ok _ :=
      applyHeadMutation_ok.mpr ⟨accepts.free,rfl⟩
    have output : applyBodyMutation editor.originalBody (editor.bodyPlan body) limits.bodyPrefixBytes = .ok body := by
      rw [sized]
      exact applyBodyMutation_plan accepts.fits
    unfold HttpService.applyDecision applyHttpMutation
    dsimp only
    rw [applied]
    dsimp only [bind,Except.bind]
    rw [output]
    refine ⟨_,rfl,?_⟩
    unfold RequestEditor.displayHeaders RequestEditor.bodyPlan
    by_cases same : body = editor.originalBody
    · simp only [if_pos same]
      exact fun name => (setContentLength_again _ _ name).trans (values.setContentLength _ name)
    · simp only [if_neg same]
      exact fun name => (setContentLength_again _ _ name).trans
        (values.normalizeReplacedBodyHeaders.setContentLength _ name)

theorem interactiveHttpRequest_asks {env : Environment} (mode : env.hooks.mode = .interactive)
    (connected : env.interactive = some broker) (context : AuditContext) (snapshot : HttpRequestSnapshot)
    (state : ServiceState) :
    Ensures (HttpService.interactiveHttpRequest env context snapshot) state
      (fun answer _ => ∃ calls decision, broker calls snapshot = .ok decision ∧ answer = some decision)
      (fun _ _ => True) := by
  unfold HttpService.interactiveHttpRequest
  rw [if_pos mode,connected]
  dsimp only
  refine ensures_then (ensures_any _ state) ?_
  intro counted before _
  refine ensures_then (ensures_any _ before) ?_
  intro _ asked _
  refine ensures_then (ensures_any _ asked) ?_
  intro _ published _
  cases answered : broker counted.hookCalls snapshot with
  | error => exact ensures_throw trivial
  | ok decision => exact ensures_pure ⟨counted.hookCalls,decision,answered,rfl⟩

theorem prepareInteractiveRequest_decided {env : Environment} (mode : env.hooks.mode = .interactive)
    (connected : env.interactive = some broker) (service : HttpService) (parts : RequestParts)
    (interactiveUri : Option String) (body : List Arrival) (state : ServiceState) :
    Ensures (service.prepareInteractiveRequest env parts interactiveUri body) state
      (fun prepared _ => ∀ head sent, prepared = .forwarded head sent → ∃ calls snapshot decision,
        broker calls snapshot = .ok decision ∧ snapshot.maximumBodyBytes = service.limits.bodyPrefixBytes ∧
        forwardDecided service.limits snapshot.headers snapshot.body decision = .ok (head,sent.flatMap Sent.bytes))
      (fun _ _ => True) := by
  unfold HttpService.prepareInteractiveRequest
  cases collectBounded service.limits.bodyPrefixBytes [] body with
  | error => exact ensures_pure (fun _ _ never => by cases never)
  | ok original =>
      refine ensures_then (ensures_any _ state) ?_
      intro result inspected _
      obtain ⟨verdict,fed⟩ := result
      cases verdict with
      | false => exact ensures_pure (fun _ _ never => by cases never)
      | true =>
          refine ensures_then (ensures_any _ inspected) ?_
          intro transformed changed _
          refine ensures_then (ensures_any _ changed) ?_
          intro context contexts _
          refine ensures_then (interactiveHttpRequest_asks mode connected context _ contexts) ?_
          intro answer asked known
          obtain ⟨calls,decision,answered,same⟩ := known
          subst same
          split
          · exact ensures_throw trivial
          · rename_i edited output applied
            refine ensures_pure ?_
            intro head sent same
            cases same
            refine ⟨calls,_,decision,answered,rfl,?_⟩
            unfold forwardDecided
            rw [applied]
            simp [Except.map,Sent.bytes]

-- A document with a request line, header lines and a body.
structure EditedDocument where
  method : List UInt8
  target : List UInt8
  minor : Fin 2
  lines : List SentLine
  body : List UInt8
  plain : 10 ∉ method ∧ 10 ∉ target

namespace EditedDocument

def start (document : EditedDocument) : List UInt8 :=
  document.method ++ 32 :: document.target ++ ascii " HTTP/1." ++ [48 + UInt8.ofNat document.minor]

def head (document : EditedDocument) : List (List UInt8) := document.start :: document.lines.map SentLine.text

def text (document : EditedDocument) : List UInt8 := [10].intercalate document.head ++ 10 :: 10 :: document.body

def parsed (document : EditedDocument) : ParsedRequest :=
  ⟨document.method,document.target,document.minor.val,document.lines.map SentLine.field⟩

-- The parser reads the document as it is written.
def ReadBy (parse : Httparse) (document : EditedDocument) : Prop :=
  parse (wireLines document.head ++ document.body) (max document.lines.length 1) =
    .complete document.parsed (wireLines document.head).length

end EditedDocument

theorem cutBlankLine_other (apart : byte ≠ 10) (rest : List UInt8) :
    cutBlankLine (byte :: rest) = (cutBlankLine rest).map (fun cut => (byte :: cut.1,cut.2)) := by
  rw [cutBlankLine]
  intro tail same
  exact absurd same apart

theorem cutBlankLine_lineEnd (apart : byte ≠ 10) (rest : List UInt8) :
    cutBlankLine (10 :: byte :: rest) = (cutBlankLine (byte :: rest)).map (fun cut => (10 :: cut.1,cut.2)) := by
  rw [cutBlankLine]
  intro tail _ same
  exact absurd (List.cons.inj same).1 apart

theorem cutBlankLine_line {line : List UInt8} (plain : 10 ∉ line) (rest : List UInt8) :
    cutBlankLine (line ++ rest) = (cutBlankLine rest).map (fun cut => (line ++ cut.1,cut.2)) := by
  induction line with
  | nil => simp
  | cons byte line ih =>
      obtain ⟨here,later⟩ := not_or.mp (mt List.mem_cons.mpr plain)
      rw [List.cons_append,cutBlankLine_other (fun same => here same.symm),ih later,Option.map_map]
      rfl

theorem cutBlankLine_join (line : List UInt8) (lines : List (List UInt8)) (body : List UInt8)
    (plain : ∀ other ∈ line :: lines, 10 ∉ other) (filled : ∀ other ∈ line :: lines, other ≠ []) :
    cutBlankLine ([10].intercalate (line :: lines) ++ 10 :: 10 :: body) = some ([10].intercalate (line :: lines),body) := by
  induction lines generalizing line with
  | nil =>
      rw [List.intercalate_singleton,cutBlankLine_line (plain line List.mem_cons_self)]
      simp [cutBlankLine]
  | cons next rest ih =>
      have later := ih next (fun other member => plain other (List.mem_cons_of_mem _ member))
        (fun other member => filled other (List.mem_cons_of_mem _ member))
      have shape : ∀ tail, [10].intercalate (line :: next :: rest) ++ tail =
          line ++ 10 :: ([10].intercalate (next :: rest) ++ tail) := by
        intro tail
        rw [List.intercalate_cons_cons]
        simp
      obtain ⟨first,more,begins⟩ : ∃ first more, next = first :: more :=
        List.exists_cons_of_ne_nil (filled next (by simp))
      have visible : first ≠ 10 := by
        intro newline
        apply plain next (by simp)
        rw [begins,newline]
        exact List.mem_cons_self
      obtain ⟨front,opens⟩ : ∃ front, [10].intercalate (next :: rest) ++ 10 :: 10 :: body = first :: front := by
        rw [begins]
        cases rest with
        | nil => exact ⟨_,rfl⟩
        | cons _ _ => exact ⟨_,rfl⟩
      rw [shape,cutBlankLine_line (plain line List.mem_cons_self),opens,cutBlankLine_lineEnd visible,← opens,later]
      have whole := shape []
      rw [List.append_nil,List.append_nil] at whole
      rw [whole]
      rfl

namespace EditedDocument

variable (document : EditedDocument)

theorem start_plain : 10 ∉ document.start ∧ document.start ≠ [] := by
  constructor
  · unfold start
    intro member
    rcases List.mem_append.mp member with inside | number
    · rcases List.mem_append.mp inside with inside | version
      · rcases List.mem_append.mp inside with method | rest
        · exact document.plain.1 method
        · rcases List.mem_cons.mp rest with blank | target
          · cases blank
          · exact document.plain.2 target
      · exact absurd version (by decide)
    · have digit : ∀ minor : Fin 2, (10 : UInt8) ≠ 48 + UInt8.ofNat minor := by decide
      exact digit document.minor (List.mem_singleton.mp number)
  · unfold start
    simp

theorem head_plain : (∀ line ∈ document.head, 10 ∉ line) ∧ ∀ line ∈ document.head, line ≠ [] := by
  obtain ⟨plain,filled⟩ := document.start_plain
  constructor
  · intro line member
    rcases List.mem_cons.mp member with same | listed
    · rw [same]
      exact plain
    · obtain ⟨sent,_,rfl⟩ := List.mem_map.mp listed
      exact sent.newlineless
  · intro line member
    rcases List.mem_cons.mp member with same | listed
    · rw [same]
      exact filled
    · obtain ⟨sent,_,rfl⟩ := List.mem_map.mp listed
      unfold SentLine.text
      simp

theorem wireRequest_text : wireRequest document.text =
    .ok (wireLines document.head ++ document.body,(wireLines document.head).length,max document.lines.length 1) := by
  obtain ⟨plain,filled⟩ := document.head_plain
  have cut : cutBlankLine document.text = some ([10].intercalate document.head,document.body) :=
    cutBlankLine_join document.start (document.lines.map SentLine.text) document.body plain filled
  have lines : ([10].intercalate document.head).splitOn 10 = document.head :=
    List.splitOn_intercalate 10 plain (List.cons_ne_nil _ _)
  unfold wireRequest
  rw [cut]
  dsimp only
  rw [lines]
  simp [head]

theorem appendParsed_lines (lines : List SentLine) (headers : HeaderMap) :
    (lines.map SentLine.field).foldlM appendParsed headers =
      .ok (lines.foldl (fun headers line => headers.append line.key (trimOws line.value)) headers) := by
  induction lines generalizing headers with
  | nil => rfl
  | cons line rest ih =>
      have legal : (trimOws line.value).all isValueByte = true := by
        rw [List.all_eq_true]
        exact trimOws_legal line.legal
      have first : appendParsed headers line.field = .ok (headers.append line.key (trimOws line.value)) := by
        simp only [appendParsed,SentLine.field,line.named,legal,if_true]
      rw [List.map_cons,List.foldlM_cons,List.foldl_cons,← ih,first]
      rfl

theorem parsedHeaderMap_parsed : parsedHeaderMap document.parsed = .ok (headersOf document.lines) :=
  appendParsed_lines document.lines .empty

end EditedDocument

-- The document as the snapshot is first shown.
def rendered (snapshot : HttpRequestSnapshot) : List UInt8 :=
  startLine snapshot ++ 10 :: (snapshot.headers.pairs.map (fun header => headerLine header ++ [10])).flatten ++
    10 :: snapshot.body

def documentLimit (snapshot : HttpRequestSnapshot) : Nat :=
  saturatingAdd (saturatingAdd (saturatingAdd snapshot.maximumHeadBytes snapshot.maximumBodyBytes)
    (startLine snapshot).length) 2

def editorOf (snapshot : HttpRequestSnapshot) (document : List UInt8) : RequestEditor where
  originalMethod := snapshot.method
  originalTarget := snapshot.uri
  originalHeaders := snapshot.headers
  originalBody := snapshot.body
  maximumHeadBytes := snapshot.maximumHeadBytes
  maximumBodyBytes := snapshot.maximumBodyBytes
  maximumDocumentBytes := documentLimit snapshot
  document := document

theorem renderHeaders_ok {headers : List (String × List UInt8)} : headers.mapM renderHeader = .ok lines ↔
    (∀ header ∈ headers, header.2.all Headers.isVisibleAscii = true) ∧
      lines = headers.map (fun header => headerLine header ++ [10]) := by
  induction headers generalizing lines with
  | nil =>
      rw [List.mapM_nil]
      constructor
      · intro done
        cases done
        exact ⟨(fun _ never => by cases never),rfl⟩
      · intro known
        rw [known.2]
        rfl
  | cons header rest ih =>
      rw [List.mapM_cons,except_bind_iff,List.forall_mem_cons]
      by_cases visible : header.2.all Headers.isVisibleAscii = true
      · have first : renderHeader header = .ok (headerLine header ++ [10]) := if_pos visible
        constructor
        · rintro ⟨line,shown,done⟩
          obtain ⟨others,later,same⟩ := except_bind_ok done
          rw [first] at shown
          cases shown
          cases same
          obtain ⟨all,written⟩ := ih.mp later
          exact ⟨⟨visible,all⟩,by rw [written,List.map_cons]⟩
        · rintro ⟨⟨_,all⟩,rfl⟩
          refine ⟨_,first,?_⟩
          rw [except_bind_iff]
          exact ⟨_,ih.mpr ⟨all,rfl⟩,rfl⟩
      · have first : renderHeader header = .error (.nonTextHeader header.1) := if_neg visible
        constructor
        · rintro ⟨_,shown,_⟩
          rw [first] at shown
          cases shown
        · exact fun known => absurd known.1.1 visible

theorem RequestEditor.new_ok : RequestEditor.new snapshot = .ok editor ↔
    snapshot.version = .http11 ∧ (∀ header ∈ snapshot.headers.pairs, header.2.all Headers.isVisibleAscii = true) ∧
      isUtf8 snapshot.body = true ∧ (rendered snapshot).length ≤ documentLimit snapshot ∧
      editor = editorOf snapshot (rendered snapshot) := by
  unfold RequestEditor.new
  dsimp only
  split
  · rename_i other
    exact ⟨(fun never => by cases never),fun known => absurd known.1 other⟩
  · rename_i version
    have current : snapshot.version = .http11 := Classical.not_not.mp version
    change (snapshot.headers.pairs.mapM renderHeader >>= _) = _ ↔ _
    rw [except_bind_iff]
    constructor
    · rintro ⟨lines,shown,done⟩
      obtain ⟨visible,rfl⟩ := renderHeaders_ok.mp shown
      split at done
      · cases done
      · rename_i text
        dsimp only [bind,Except.bind,pure,Except.pure] at done
        split at done
        · cases done
        · rename_i fits
          cases done
          exact ⟨current,visible,by simpa using text,Nat.le_of_not_gt fits,rfl⟩
    · rintro ⟨_,visible,text,fits,rfl⟩
      refine ⟨_,renderHeaders_ok.mpr ⟨visible,rfl⟩,?_⟩
      rw [if_neg (by simp [text])]
      change (if (rendered snapshot).length > documentLimit snapshot then _ else _) = _
      rw [if_neg (Nat.not_lt_of_le fits)]
      rfl

-- The limits that a document has to keep.
structure EditedDocument.Within (document : EditedDocument) (snapshot : HttpRequestSnapshot) : Prop where
  body : document.body.length ≤ snapshot.maximumBodyBytes
  head : Headers.headerSize (headersOf document.lines) ≤ snapshot.maximumHeadBytes

-- The head of the document keeps its limit with the length of the body in it.
def EditedDocument.Framed (document : EditedDocument) (snapshot : HttpRequestSnapshot) : Prop :=
  Headers.headerSize (setContentLength (if document.body = snapshot.body then headersOf document.lines
    else normalizeReplacedBodyHeaders (headersOf document.lines)) document.body.length) ≤ snapshot.maximumHeadBytes

def EditedDocument.SameStart (document : EditedDocument) (snapshot : HttpRequestSnapshot) : Prop :=
  document.method = utf8 snapshot.method ∧ document.target = utf8 snapshot.uri ∧ document.minor = Fin.last 1

theorem submission_document {document : EditedDocument} (read : document.ReadBy parse) :
    (editorOf snapshot document.text).submission parse = .ok result ↔ document.SameStart snapshot ∧
      document.Within snapshot ∧ document.Framed snapshot ∧
      (∀ name ∈ protectedHeaders, snapshot.headers.getAll name = (headersOf document.lines).getAll name) ∧
      result = (editorOf snapshot document.text).answer (headersOf document.lines) document.body := by
  rw [RequestEditor.submission_ok document.wireRequest_text,List.drop_left]
  have completes : parse (wireLines document.head ++ document.body) (max document.lines.length 1) =
      .complete document.parsed (wireLines document.head).length := read
  constructor
  · rintro ⟨parsed,desired,finished,accepts,answered⟩
    rw [completes] at finished
    cases finished
    have headers := document.parsedHeaderMap_parsed.symm.trans accepts.headers
    cases headers
    refine ⟨⟨accepts.method,accepts.path,Fin.ext accepts.version⟩,⟨accepts.fits,accepts.budget⟩,accepts.display,
      headerDiff_free.mp accepts.free,answered⟩
  · rintro ⟨⟨method,target,minor⟩,within,framed,free,answered⟩
    refine ⟨document.parsed,headersOf document.lines,completes,?_,answered⟩
    exact ⟨method,target,congrArg Fin.val minor,within.body,document.parsedHeaderMap_parsed,within.head,
      headerDiff_free.mpr free,framed⟩

-- A head that lists what a submission shows.
def RequestEditSubmission.ShownBy (submission : RequestEditSubmission) (head : HeaderMap) : Prop :=
  ∀ name, head.getAll name = (submission.headers.filter (fun header => header.1 = name)).map Prod.snd

theorem submission_forwarded (accepted : (editorOf snapshot document).submission parse = .ok submitted)
    (limits : HttpLimits) (sized : limits.bodyPrefixBytes = snapshot.maximumBodyBytes) :
    ∃ head, forwardDecided limits snapshot.headers snapshot.body submitted.decision = .ok (head,submitted.body) ∧
      submitted.ShownBy head := by
  cases cut : wireRequest document with
  | error =>
      unfold RequestEditor.submission at accepted
      change (wireRequest document >>= _) = _ at accepted
      rw [cut] at accepted
      cases accepted
  | ok found =>
      obtain ⟨wire,offset,room⟩ := found
      have opened : wireRequest (editorOf snapshot document).document = .ok (wire,offset,room) := cut
      obtain ⟨parsed,desired,_,accepts,rfl⟩ := (RequestEditor.submission_ok opened).mp accepted
      obtain ⟨head,forwarded,same⟩ := answer_forwarded accepts limits sized
      refine ⟨head,forwarded,?_⟩
      intro name
      exact (same name).trans (HeaderMap.pairs_values _ name).symm

-- A broker behind which an operator answers with accepted documents.
def Operated (parse : Httparse) (broker : Nat → HttpRequestSnapshot → Except InterceptError InteractiveDecision) : Prop :=
  ∀ calls snapshot decision, broker calls snapshot = .ok decision → ∃ editor document submitted,
    RequestEditor.new snapshot = .ok editor ∧ ({editor with document := document}).submission parse = .ok submitted ∧
      submitted.decision = decision

-- What is forwarded is an accepted document as it is shown.
def ForwardsShown (parse : Httparse) (broker : Nat → HttpRequestSnapshot → Except InterceptError InteractiveDecision)
    (prepared : Prepared) : Prop :=
  ∀ head sent, prepared = .forwarded head sent → ∃ calls snapshot editor document submitted,
    broker calls snapshot = .ok submitted.decision ∧ RequestEditor.new snapshot = .ok editor ∧
    ({editor with document := document}).submission parse = .ok submitted ∧ submitted.ShownBy head ∧
    sent.flatMap Sent.bytes = submitted.body

theorem operated_forwards {env : Environment} (mode : env.hooks.mode = .interactive)
    (connected : env.interactive = some broker) (operated : Operated parse broker) (service : HttpService)
    (parts : RequestParts) (interactiveUri : Option String) (body : List Arrival) (state : ServiceState) :
    Ensures (service.prepareInteractiveRequest env parts interactiveUri body) state
      (fun prepared _ => ForwardsShown parse broker prepared) (fun _ _ => True) := by
  refine ensures_weaken (prepareInteractiveRequest_decided mode connected service parts interactiveUri body state) ?_
    (fun _ _ _ => trivial)
  intro prepared _ decided head sent same
  obtain ⟨calls,snapshot,decision,answered,sized,forwarded⟩ := decided head sent same
  obtain ⟨editor,document,submitted,opened,accepted,rfl⟩ := operated calls snapshot decision answered
  obtain ⟨_,_,_,_,rfl⟩ := RequestEditor.new_ok.mp opened
  obtain ⟨shown,out,lists⟩ := submission_forwarded accepted service.limits sized.symm
  rw [forwarded] at out
  obtain ⟨rfl,bytes⟩ := Prod.mk.inj (Except.ok.inj out)
  exact ⟨calls,snapshot,_,document,submitted,answered,opened,accepted,lists,bytes⟩

def EditedDocument.Meddles (document : EditedDocument) (snapshot : HttpRequestSnapshot) : Prop :=
  ¬ document.SameStart snapshot ∨
    ∃ name ∈ protectedHeaders, (headersOf document.lines).getAll name ≠ snapshot.headers.getAll name

theorem not_meddles {document : EditedDocument} : ¬ document.Meddles snapshot ↔ document.SameStart snapshot ∧
    ∀ name ∈ protectedHeaders, snapshot.headers.getAll name = (headersOf document.lines).getAll name := by
  unfold EditedDocument.Meddles
  rw [not_or,Classical.not_not]
  refine and_congr_right' ⟨?_,?_⟩
  · intro free name guarded
    by_contra differs
    exact free ⟨name,guarded,fun equal => differs equal.symm⟩
  · rintro free ⟨name,guarded,differs⟩
    exact differs (free name guarded).symm

theorem submission_refused {document : EditedDocument} (read : document.ReadBy parse) (within : document.Within snapshot) :
    (∀ submitted, (editorOf snapshot document.text).submission parse ≠ .ok submitted) ↔
      document.Meddles snapshot ∨ ¬ document.Framed snapshot := by
  constructor
  · intro refused
    by_contra fine
    obtain ⟨kept,framed⟩ := not_or.mp fine
    obtain ⟨start,free⟩ := not_meddles.mp kept
    exact refused _ ((submission_document read).mpr ⟨start,within,Classical.not_not.mp framed,free,rfl⟩)
  · intro changed submitted accepted
    obtain ⟨start,_,framed,free,_⟩ := (submission_document read).mp accepted
    exact changed.elim (not_meddles.mpr ⟨start,free⟩) (fun large => large framed)

-- The operator sees what goes out: an accepted document is forwarded with the
-- headers and the body that are shown. Documents within the limits are refused for
-- their start line and the values of protected headers, but also for a head that
-- the length of the body makes too large.
theorem edits_forwarded_as_shown (parse : Httparse) :
    (∀ snapshot editor document submitted, RequestEditor.new snapshot = .ok editor →
      ({editor with document := document}).submission parse = .ok submitted →
      ∀ limits : HttpLimits, limits.bodyPrefixBytes = snapshot.maximumBodyBytes →
      ∃ head, forwardDecided limits snapshot.headers snapshot.body submitted.decision = .ok (head,submitted.body) ∧
        submitted.ShownBy head) ∧
    (∀ (env : Environment) broker, env.hooks.mode = .interactive →
      env.interactive = some broker → Operated parse broker →
      ∀ (service : HttpService) parts interactiveUri body state,
      Ensures (service.prepareInteractiveRequest env parts interactiveUri body) state
        (fun prepared _ => ForwardsShown parse broker prepared) (fun _ _ => True)) ∧
    (∀ snapshot editor, RequestEditor.new snapshot = .ok editor →
      ∀ document : EditedDocument, document.ReadBy parse → document.Within snapshot →
      (((∀ submitted, ({editor with document := document.text}).submission parse ≠ .ok submitted) ↔
          document.Meddles snapshot) ↔
        document.Framed snapshot ∨ document.Meddles snapshot)) := by
  refine ⟨?_,?_,?_⟩
  · intro snapshot editor document submitted opened accepted limits sized
    obtain ⟨_,_,_,_,rfl⟩ := RequestEditor.new_ok.mp opened
    exact submission_forwarded accepted limits sized
  · intro env broker mode connected operated service parts interactiveUri body state
    exact operated_forwards mode connected operated service parts interactiveUri body state
  · intro snapshot editor opened document read within
    obtain ⟨_,_,_,_,rfl⟩ := RequestEditor.new_ok.mp opened
    have refused : (∀ submitted, (editorOf snapshot document.text).submission parse ≠ .ok submitted) ↔ _ :=
      submission_refused read within
    change ((∀ submitted, (editorOf snapshot document.text).submission parse ≠ .ok submitted) ↔ _) ↔ _
    rw [refused]
    by_cases framed : document.Framed snapshot
    · simp [framed]
    · simp [framed]

-- A reader of heads whose lines end in CR LF.
def readLine : List UInt8 → Option (List UInt8 × List UInt8)
  | [] => none
  | 13 :: 10 :: rest => some ([],rest)
  | byte :: rest => (readLine rest).map (fun cut => (byte :: cut.1,cut.2))

def readFields : Nat → List UInt8 → Option (List (List UInt8 × List UInt8) × List UInt8)
  | 0,_ => none
  | room + 1,bytes => do
      let (line,rest) ← readLine bytes
      if line.isEmpty then return ([],rest)
      else
        let field ← splitHeader line
        let (fields,tail) ← readFields room rest
        return (field :: fields,tail)

def readStart (line : List UInt8) : Option (List UInt8 × List UInt8 × Nat) :=
  match line.splitOn 32 with
  | [method,target,version] =>
      if version = ascii "HTTP/1.1" then some (method,target,1)
      else if version = ascii "HTTP/1.0" then some (method,target,0)
      else none
  | _ => none

def readRequest : Httparse := fun wire room =>
  match (do
    let (line,rest) ← readLine wire
    let (method,target,version) ← readStart line
    let (fields,tail) ← readFields (room + 1) rest
    return (ParsedRequest.mk method target version fields,wire.length - tail.length)) with
  | none => .failed .token
  | some (request,bytes) => .complete request bytes

theorem hostField_named : Headers.headerName? (ascii "Host") = some "host" := by decide +kernel

theorem noteField_named : Headers.headerName? (ascii "X-Note") = some "x-note" := by decide +kernel

theorem noteField_legal : ∀ byte ∈ ascii " new", isValueByte byte = true :=
  List.all_eq_true.mp (by decide)

theorem hostField_legal : ∀ byte ∈ ascii " web.test", isValueByte byte = true :=
  List.all_eq_true.mp (by decide)

theorem otherHost_legal : ∀ byte ∈ ascii " evil.test", isValueByte byte = true :=
  List.all_eq_true.mp (by decide)

theorem notedStart_plain : (10 : UInt8) ∉ ascii "GET" ∧ (10 : UInt8) ∉ ascii "/a" := by decide

def notedSnapshot : HttpRequestSnapshot where
  method := "GET"
  uri := "/a"
  version := .http11
  headers := (HeaderMap.empty.append "host" (ascii "web.test")).append "x-note" (ascii "old")
  body := ascii "hi"
  maximumHeadBytes := 64
  maximumBodyBytes := 8

def notedDocument : EditedDocument where
  method := ascii "GET"
  target := ascii "/a"
  minor := Fin.last 1
  lines := [⟨ascii "Host",ascii " web.test",_,hostField_named,hostField_legal⟩,
    ⟨ascii "X-Note",ascii " new",_,noteField_named,noteField_legal⟩]
  body := ascii "hi"
  plain := notedStart_plain

def divertedDocument : EditedDocument :=
  {notedDocument with lines := [⟨ascii "Host",ascii " evil.test",_,hostField_named,otherHost_legal⟩]}

def readyOperator (_ : Nat) (snapshot : HttpRequestSnapshot) : Except InterceptError InteractiveDecision :=
  match RequestEditor.new snapshot with
  | .error _ => .error .timedOut
  | .ok editor =>
      match editor.submission readRequest with
      | .error _ => .error .timedOut
      | .ok submitted => .ok submitted.decision

theorem readyOperator_operated : Operated readRequest readyOperator := by
  intro calls snapshot decision answered
  unfold readyOperator at answered
  split at answered
  · cases answered
  · rename_i editor opened
    split at answered
    · cases answered
    · rename_i submitted accepted
      cases answered
      exact ⟨editor,editor.document,submitted,opened,accepted,rfl⟩

def operatedEnvironment : Environment :=
  {reloadedEnvironment 0 with hooks := ⟨.interactive,⟨[],[],[],[]⟩,.failClosed⟩,interactive := some readyOperator}

theorem notedSnapshot_opens :
    RequestEditor.new notedSnapshot = .ok (editorOf notedSnapshot (rendered notedSnapshot)) := by
  refine RequestEditor.new_ok.mpr ⟨rfl,?_,?_,?_,rfl⟩
  · exact List.forall_mem_cons.mpr ⟨by decide,List.forall_mem_singleton.mpr (by decide)⟩
  · decide +kernel
  · decide +kernel

theorem notedDocument_read : notedDocument.ReadBy readRequest := by
  unfold EditedDocument.ReadBy
  decide +kernel

theorem divertedDocument_read : divertedDocument.ReadBy readRequest := by
  unfold EditedDocument.ReadBy
  decide +kernel

theorem notedDocument_within : notedDocument.Within notedSnapshot := ⟨by decide,by decide +kernel⟩

theorem divertedDocument_within : divertedDocument.Within notedSnapshot := ⟨by decide,by decide +kernel⟩

theorem notedDocument_framed : notedDocument.Framed notedSnapshot := by
  unfold EditedDocument.Framed
  decide +kernel

-- A new note within the limits: the length of the body takes 19 bytes more.
theorem framed_edit_refused :
    RequestEditor.new {notedSnapshot with maximumHeadBytes := 29} =
      .ok (editorOf {notedSnapshot with maximumHeadBytes := 29} (rendered notedSnapshot)) ∧
    notedDocument.ReadBy readRequest ∧ notedDocument.Within {notedSnapshot with maximumHeadBytes := 29} ∧
    ¬ notedDocument.Meddles {notedSnapshot with maximumHeadBytes := 29} ∧
    (editorOf {notedSnapshot with maximumHeadBytes := 29} notedDocument.text).submission readRequest =
      .error (.headTooLarge 48 29) := by
  refine ⟨RequestEditor.new_ok.mpr ⟨rfl,?_,?_,?_,rfl⟩,notedDocument_read,⟨by decide,by decide +kernel⟩,
    not_meddles.mpr ⟨⟨by decide,by decide,rfl⟩,by decide +kernel⟩,?_⟩
  · exact List.forall_mem_cons.mpr ⟨by decide,List.forall_mem_singleton.mpr (by decide)⟩
  · decide +kernel
  · decide +kernel
  · decide +kernel

theorem noted_edit_forwarded :
    (∃ submitted head, (editorOf notedSnapshot notedDocument.text).submission readRequest = .ok submitted ∧
      forwardDecided ⟨64,8⟩ notedSnapshot.headers notedSnapshot.body submitted.decision = .ok (head,submitted.body) ∧
      submitted.ShownBy head) ∧
    (∀ submitted, (editorOf notedSnapshot divertedDocument.text).submission readRequest ≠ .ok submitted) ∧
    Ensures (smallService.prepareInteractiveRequest operatedEnvironment plainExchange.parts none cutBody) idleState
      (fun prepared _ => ForwardsShown readRequest readyOperator prepared) (fun _ _ => True) := by
  obtain ⟨forwards,operated,refuses⟩ := edits_forwarded_as_shown readRequest
  refine ⟨?_,?_,operated operatedEnvironment readyOperator rfl rfl readyOperator_operated smallService plainExchange.parts
    none cutBody idleState⟩
  · have unchanged : notedDocument.SameStart notedSnapshot := ⟨by decide,by decide,rfl⟩
    have free : ∀ name ∈ protectedHeaders,
        notedSnapshot.headers.getAll name = (headersOf notedDocument.lines).getAll name := by decide +kernel
    have accepted := (submission_document notedDocument_read).mpr ⟨unchanged,notedDocument_within,notedDocument_framed,free,rfl⟩
    obtain ⟨head,sent,shown⟩ := forwards notedSnapshot _ notedDocument.text _ notedSnapshot_opens accepted ⟨64,8⟩ rfl
    exact ⟨_,head,accepted,sent,shown⟩
  · have meddles : divertedDocument.Meddles notedSnapshot := .inr ⟨"host",by decide,by decide +kernel⟩
    exact ((refuses notedSnapshot _ notedSnapshot_opens divertedDocument divertedDocument_read
      divertedDocument_within).mpr (.inr meddles)).mpr meddles

end Freja.Ui
