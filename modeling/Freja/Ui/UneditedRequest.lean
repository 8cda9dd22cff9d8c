import Freja.Ui.EditedRequest

namespace Freja.Ui
open Bytes Policy Proxy Framing Framing.Grammar Headers

variable {parse : Httparse} {snapshot : HttpRequestSnapshot}

-- What the types of a paused request ensure: names are header names with values,
-- the start line is one line, and no text is longer than memory.
structure Typed (snapshot : HttpRequestSnapshot) : Prop where
  named : ∀ entry ∈ snapshot.headers.entries, headerName? (utf8 entry.1) = some entry.1
  filled : ∀ entry ∈ snapshot.headers.entries, entry.2 ≠ []
  oneLine : 10 ∉ utf8 snapshot.method ∧ 10 ∉ utf8 snapshot.uri
  sized : (rendered snapshot).length ≤ u64Max

-- The requests that can be edited as text, within their limits.
structure Editable (snapshot : HttpRequestSnapshot) : Prop where
  typed : Typed snapshot
  version : snapshot.version = .http11
  visible : ∀ header ∈ snapshot.headers.pairs, header.2.all isVisibleAscii = true ∧ trimOws header.2 = header.2
  text : isUtf8 snapshot.body = true
  head : headerSize snapshot.headers ≤ snapshot.maximumHeadBytes
  body : snapshot.body.length ≤ snapshot.maximumBodyBytes

def shownHead (snapshot : HttpRequestSnapshot) : List (List UInt8) :=
  startLine snapshot :: snapshot.headers.pairs.map headerLine

-- The parser reads the head as it is shown.
def RenderedReadBy (parse : Httparse) (snapshot : HttpRequestSnapshot) : Prop :=
  parse (wireLines (shownHead snapshot) ++ snapshot.body) (max snapshot.headers.pairs.length 1) =
    .complete ⟨utf8 snapshot.method,utf8 snapshot.uri,1,snapshot.headers.pairs.map (fun header => (utf8 header.1,header.2))⟩
      (wireLines (shownHead snapshot)).length

variable (pairs : List (String × List UInt8))

theorem headerSize_total (total : Nat) (small : total ≤ u64Max) :
    pairs.foldl (fun total header =>
        saturatingAdd (saturatingAdd (saturatingAdd total (utf8 header.1).length) header.2.length) 4) total =
      min (total + (pairs.map (fun header => (utf8 header.1).length + header.2.length + 4)).sum) u64Max := by
  induction pairs generalizing total with
  | nil => simpa using small
  | cons header rest ih =>
      have next : saturatingAdd (saturatingAdd (saturatingAdd total (utf8 header.1).length) header.2.length) 4 ≤ u64Max :=
        Nat.min_le_right _ _
      rw [List.foldl_cons,ih _ next,List.map_cons,List.sum_cons]
      unfold saturatingAdd
      omega

theorem lines_length :
    (pairs.map (fun header => headerLine header ++ [10])).flatten.length ≤
      (pairs.map (fun header => (utf8 header.1).length + header.2.length + 4)).sum := by
  induction pairs with
  | nil => simp
  | cons header =>
      have blank : (ascii ": ").length = 2 := by decide
      have line : (headerLine header ++ [10]).length = (utf8 header.1).length + header.2.length + 3 := by
        simp only [headerLine,List.length_append,blank,List.length_singleton]
        omega
      rw [List.map_cons,List.flatten_cons,List.length_append,line,List.map_cons,List.sum_cons]
      omega

-- Each header takes one byte less in the document than in the count.
theorem rendered_fits (editable : Editable snapshot) : (rendered snapshot).length ≤ documentLimit snapshot := by
  have sized := editable.typed.sized
  have counted := headerSize_total snapshot.headers.pairs 0 (Nat.zero_le _)
  have head := editable.head
  have body := editable.body
  have lines := lines_length snapshot.headers.pairs
  unfold headerSize at head
  rw [counted,Nat.zero_add] at head
  have whole : (rendered snapshot).length = (startLine snapshot).length +
      (snapshot.headers.pairs.map (fun header => headerLine header ++ [10])).flatten.length + snapshot.body.length + 2 := by
    simp only [rendered,List.length_append,List.length_cons]
    omega
  unfold documentLimit saturatingAdd
  rw [whole] at sized ⊢
  generalize u64Max = top at sized head ⊢
  omega

theorem editable_opens (editable : Editable snapshot) :
    RequestEditor.new snapshot = .ok (editorOf snapshot (rendered snapshot)) :=
  RequestEditor.new_ok.mpr ⟨editable.version,fun header member => (editable.visible header member).1,editable.text,
    rendered_fits editable,rfl⟩

theorem visible_legal : ∀ byte : UInt8, isVisibleAscii byte = true → isValueByte byte = true := by
  intro byte visible
  simp only [isVisibleAscii,isValueByte,Bool.or_eq_true,Bool.and_eq_true,decide_eq_true_eq,beq_iff_eq,bne_iff_ne] at *
  rcases visible with ⟨low,high⟩ | tab
  · refine .inr ⟨low,?_⟩
    intro same
    rw [same] at high
    exact absurd high (by decide)
  · exact .inl tab

theorem trimOws_blank (value : List UInt8) : trimOws (32 :: value) = trimOws value := by
  simp [trimOws,isOws]

theorem shownLines (named : ∀ header ∈ pairs, headerName? (utf8 header.1) = some header.1)
    (visible : ∀ header ∈ pairs, header.2.all isVisibleAscii = true ∧ trimOws header.2 = header.2) :
    ∃ lines : List SentLine, lines.map SentLine.text = pairs.map headerLine ∧
      lines.map SentLine.field = pairs.map (fun header => (utf8 header.1,header.2)) ∧
      lines.map (fun line => (line.key,trimOws line.value)) = pairs := by
  induction pairs with
  | nil => exact ⟨[],rfl,rfl,rfl⟩
  | cons header rest ih =>
      obtain ⟨name,names⟩ := List.forall_mem_cons.mp named
      obtain ⟨⟨shown,trimmed⟩,others⟩ := List.forall_mem_cons.mp visible
      obtain ⟨lines,texts,fields,back⟩ := ih names others
      have legal : ∀ byte ∈ 32 :: header.2, isValueByte byte = true := by
        intro byte member
        rcases List.mem_cons.mp member with blank | inside
        · rw [blank]
          decide
        · exact visible_legal byte (List.all_eq_true.mp shown byte inside)
      have bare : trimOws (32 :: header.2) = header.2 := (trimOws_blank header.2).trans trimmed
      refine ⟨⟨utf8 header.1,32 :: header.2,header.1,name,legal⟩ :: lines,?_,?_,?_⟩
      · have colon : ascii ": " = [58,32] := by decide
        simp [SentLine.text,texts,headerLine,colon]
      · simp [SentLine.field,fields,bare]
      · simp [back,bare]

theorem ended_lines (line : List UInt8) (lines : List (List UInt8)) :
    [10].intercalate (line :: lines) ++ [10] = line ++ 10 :: (lines.map (· ++ [10])).flatten := by
  induction lines generalizing line with
  | nil => simp
  | cons next rest ih =>
      rw [List.intercalate_cons_cons,List.append_assoc,ih]
      simp

theorem shownDocument (editable : Editable snapshot) (read : RenderedReadBy parse snapshot) :
    ∃ document : EditedDocument, document.text = rendered snapshot ∧ document.ReadBy parse ∧
      document.SameStart snapshot ∧ headersOf document.lines = snapshot.headers ∧ document.body = snapshot.body := by
  have names : ∀ header ∈ snapshot.headers.pairs, headerName? (utf8 header.1) = some header.1 := by
    intro header member
    obtain ⟨entry,listed,inside⟩ := List.mem_flatMap.mp member
    obtain ⟨value,_,rfl⟩ := List.mem_map.mp inside
    exact editable.typed.named entry listed
  obtain ⟨lines,texts,fields,back⟩ := shownLines snapshot.headers.pairs names editable.visible
  have version : startLine snapshot = utf8 snapshot.method ++ 32 :: utf8 snapshot.uri ++ ascii " HTTP/1." ++
      [48 + UInt8.ofNat (1 : Fin 2)] := by
    have digits : ascii " HTTP/1.1" = ascii " HTTP/1." ++ [48 + UInt8.ofNat (1 : Fin 2)] := by decide
    rw [startLine,digits]
    simp
  have lineCount : lines.length = snapshot.headers.pairs.length := by
    simpa using congrArg List.length back
  refine ⟨⟨utf8 snapshot.method,utf8 snapshot.uri,1,lines,snapshot.body,editable.typed.oneLine⟩,?_,?_,⟨rfl,rfl,rfl⟩,?_,rfl⟩
  · have head : EditedDocument.head ⟨utf8 snapshot.method,utf8 snapshot.uri,1,lines,snapshot.body,editable.typed.oneLine⟩ =
        shownHead snapshot := by
      simp only [EditedDocument.head,EditedDocument.start,shownHead,version,texts]
    unfold EditedDocument.text
    rw [head]
    have ended := ended_lines (startLine snapshot) (snapshot.headers.pairs.map headerLine)
    change [10].intercalate (startLine snapshot :: _) ++ ([10] ++ 10 :: snapshot.body) = _
    rw [← List.append_assoc,ended,List.map_map]
    simp [rendered,Function.comp_def]
  · unfold EditedDocument.ReadBy
    simp only [EditedDocument.head,EditedDocument.start,EditedDocument.parsed,texts,← version,fields,lineCount]
    exact read
  · have folded : headersOf lines = (lines.map (fun line => (line.key,trimOws line.value))).foldl
        HeaderMap.appendPair .empty := by
      rw [List.foldl_map]
      rfl
    change headersOf lines = _
    rw [folded,back]
    exact snapshot.headers.pairs_rebuild editable.typed.filled

-- An untouched document can always be opened; submitting it changes nothing, but is
-- refused when the head with its length no longer keeps the limit of the head.
theorem unedited_submissions_continue (editable : Editable snapshot) (read : RenderedReadBy parse snapshot) :
    ∃ editor, RequestEditor.new snapshot = .ok editor ∧ editor.document = rendered snapshot ∧
      ((∃ submitted, editor.submission parse = .ok submitted ∧ submitted.decision = .continue ∧
          submitted.body = snapshot.body) ↔
        headerSize (setContentLength snapshot.headers snapshot.body.length) ≤ snapshot.maximumHeadBytes) := by
  refine ⟨_,editable_opens editable,rfl,?_⟩
  obtain ⟨document,text,reads,start,headers,body⟩ := shownDocument editable read
  have shown : (editorOf snapshot document.text).displayHeaders (headersOf document.lines) document.body =
      setContentLength snapshot.headers snapshot.body.length := by
    unfold RequestEditor.displayHeaders
    rw [headers,body]
    exact congrArg (setContentLength · _) (if_pos rfl)
  rw [← text]
  constructor
  · rintro ⟨submitted,accepted,_⟩
    obtain ⟨_,_,framed,_⟩ := (submission_document reads).mp accepted
    rwa [← shown]
  · intro fits
    have within : document.Within snapshot := by
      refine ⟨?_,?_⟩
      · rw [body]
        exact editable.body
      · rw [headers]
        exact editable.head
    have framed : document.Framed snapshot := by
      rw [← shown] at fits
      exact fits
    have free : ∀ name ∈ protectedHeaders, snapshot.headers.getAll name = (headersOf document.lines).getAll name := by
      rw [headers]
      exact fun _ _ => rfl
    refine ⟨_,(submission_document reads).mpr ⟨start,within,framed,free,rfl⟩,?_,body⟩
    have nothing : (headerDiff snapshot.headers snapshot.headers).headers.isEmpty = true :=
      headerDiff_empty.mpr (fun _ => rfl)
    rw [headers,body]
    exact if_pos ⟨nothing,if_pos rfl⟩

-- A request with one header; the length that is added takes 19 bytes of the head.
def bareSnapshot (maximumHeadBytes : Nat) : HttpRequestSnapshot where
  method := "GET"
  uri := "/a"
  version := .http11
  headers := HeaderMap.empty.append "host" (ascii "web.test")
  body := []
  maximumHeadBytes := maximumHeadBytes
  maximumBodyBytes := 8

theorem bareHost_named : headerName? (utf8 "host") = some "host" := by decide +kernel

theorem bareSnapshot_entries (maximum : Nat) :
    (bareSnapshot maximum).headers.entries = [("host",[ascii "web.test"])] := rfl

theorem bareSnapshot_typed (maximum : Nat) : Typed (bareSnapshot maximum) where
  named := by
    rw [bareSnapshot_entries]
    exact List.forall_mem_singleton.mpr bareHost_named
  filled := by
    rw [bareSnapshot_entries]
    exact List.forall_mem_singleton.mpr (List.cons_ne_nil _ _)
  oneLine := by
    change 10 ∉ utf8 "GET" ∧ 10 ∉ utf8 "/a"
    decide
  sized := by
    change (rendered (bareSnapshot 0)).length ≤ u64Max
    decide +kernel

theorem bareSnapshot_editable (room : 16 ≤ maximum) : Editable (bareSnapshot maximum) where
  typed := bareSnapshot_typed maximum
  version := rfl
  visible := by
    have pairs : (bareSnapshot maximum).headers.pairs = [("host",ascii "web.test")] := rfl
    rw [pairs]
    exact List.forall_mem_singleton.mpr (by decide)
  text := by
    change isUtf8 [] = true
    decide +kernel
  head := by
    have size : headerSize (bareSnapshot 0).headers = 16 := by decide +kernel
    exact size.trans_le room
  body := Nat.zero_le _

theorem bareSnapshot_read (maximum : Nat) : RenderedReadBy readRequest (bareSnapshot maximum) := by
  change RenderedReadBy readRequest (bareSnapshot 0)
  unfold RenderedReadBy
  decide +kernel

theorem bareSnapshot_framed (maximum : Nat) :
    headerSize (setContentLength (bareSnapshot maximum).headers (bareSnapshot maximum).body.length) = 35 := by
  change headerSize (setContentLength (bareSnapshot 0).headers 0) = 35
  decide +kernel

-- The head of 16 bytes keeps its limit of 16, and continuing the request would send
-- it on; submitted untouched it is refused for the length that the editor adds.
theorem tight_submission_refused :
    Editable (bareSnapshot 16) ∧ RenderedReadBy readRequest (bareSnapshot 16) ∧
      (editorOf (bareSnapshot 16) (rendered (bareSnapshot 16))).submission readRequest = .error (.headTooLarge 35 16) ∧
      forwardDecided ⟨16,8⟩ (bareSnapshot 16).headers (bareSnapshot 16).body .continue =
        .ok (setContentLength (bareSnapshot 16).headers 0,[]) := by
  refine ⟨bareSnapshot_editable (Nat.le_refl 16),bareSnapshot_read 16,?_,rfl⟩
  decide +kernel

theorem roomy_submission_continues :
    Editable (bareSnapshot 64) ∧ RenderedReadBy readRequest (bareSnapshot 64) ∧
      ∃ editor submitted, RequestEditor.new (bareSnapshot 64) = .ok editor ∧
        editor.submission readRequest = .ok submitted ∧ submitted.decision = .continue ∧ submitted.body = [] := by
  have editable := @bareSnapshot_editable 64 (by decide)
  obtain ⟨editor,opened,_,continues⟩ := unedited_submissions_continue editable (bareSnapshot_read 64)
  have fits : headerSize (setContentLength (bareSnapshot 64).headers (bareSnapshot 64).body.length) ≤ 64 := by
    rw [bareSnapshot_framed]
    decide
  obtain ⟨submitted,accepted,unchanged,body⟩ := continues.mpr fits
  exact ⟨editable,bareSnapshot_read 64,editor,submitted,opened,accepted,unchanged,body⟩

end Freja.Ui
