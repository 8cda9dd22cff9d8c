import Freja.Proxy.RequestFraming

namespace Freja.Proxy.Headers
open Bytes

-- The map is changed in place, and only after every nominated name has been read.
def stripInPlace (headers : HeaderMap) : Except HeaderError Unit × HeaderMap :=
  match nominated headers with
  | none => (.error .invalidConnectionToken,headers)
  | some named => (.ok (),hopByHop.foldl HeaderMap.remove (named.foldl HeaderMap.remove headers))

theorem stripInPlace_result (headers : HeaderMap) :
    stripHopByHop headers = (stripInPlace headers).1.map (fun _ => (stripInPlace headers).2) := by
  have read : nominated headers = ((listed headers "connection").filter (!·.isEmpty)).mapM headerName? := rfl
  unfold stripHopByHop stripInPlace
  rw [← read]
  cases nominated headers with
  | none => rfl
  | some named =>
      have joined : (named ++ hopByHop).foldl HeaderMap.remove headers =
          hopByHop.foldl HeaderMap.remove (named.foldl HeaderMap.remove headers) := List.foldl_append
      exact congrArg Except.ok joined

-- A connection field nominates a name in some spelling of it.
def Nominates (headers : HeaderMap) (name : String) : Prop :=
  ∃ token ∈ listed headers "connection", ∃ spelling, headerName? spelling = some name ∧
    eqIgnoreAsciiCase token spelling = true

theorem mapM_none (read : α → Option β) (tokens : List α) :
    tokens.mapM read = none ↔ ∃ token ∈ tokens, read token = none := by
  induction tokens with
  | nil => simp
  | cons token rest ih =>
      rw [List.mapM_cons]
      cases found : read token with
      | none => simp [found]
      | some =>
          cases others : rest.mapM read with
          | none | some => simpa [found,others] using ih

theorem mapM_member (read : α → Option β) {tokens : List α} {values : List β} (all : tokens.mapM read = some values)
    (value : β) : value ∈ values ↔ ∃ token ∈ tokens, read token = some value := by
  induction tokens generalizing values with
  | nil =>
      cases all
      simp
  | cons token rest ih =>
      rw [List.mapM_cons] at all
      obtain ⟨first,found,all⟩ := Option.bind_eq_some_iff.mp all
      obtain ⟨others,later,all⟩ := Option.bind_eq_some_iff.mp all
      cases all
      simp [ih later,found,eq_comm]

theorem headerName?_spelling (same : eqIgnoreAsciiCase token spelling = true) :
    headerName? token = headerName? spelling := by
  have lowered : token.map toLower = spelling.map toLower := by simpa [eqIgnoreAsciiCase] using same
  have byte : ∀ code < 256, Framing.isTokenByte (toLower (UInt8.ofNat code)) = Framing.isTokenByte (UInt8.ofNat code) := by
    decide +kernel
  have tokens (bytes : List UInt8) : bytes.all Framing.isTokenByte = (bytes.map toLower).all Framing.isTokenByte := by
    rw [List.all_map]
    congr 1
    funext one
    have here := byte one.toNat one.toNat_lt
    rw [UInt8.ofNat_toNat] at here
    exact here.symm
  have shown (bytes : List UInt8) : bytes.map (fun byte => Char.ofNat (toLower byte).toNat) =
      (bytes.map toLower).map (fun byte => Char.ofNat byte.toNat) := by simp
  have sizes : token.length = spelling.length := by simpa using congrArg List.length lowered
  have blank : token.isEmpty = spelling.isEmpty := by
    rw [Bool.eq_iff_iff,List.isEmpty_iff_length_eq_zero,List.isEmpty_iff_length_eq_zero,sizes]
  unfold headerName?
  rw [blank,sizes,tokens token,tokens spelling,shown token,shown spelling,lowered]

theorem nominated_member (read : nominated headers = some named) (name : String) :
    name ∈ named ↔ Nominates headers name := by
  rw [mapM_member headerName? read name]
  constructor
  · rintro ⟨token,member,found⟩
    exact ⟨token,(List.mem_filter.mp member).1,token,found,by simp [eqIgnoreAsciiCase]⟩
  · rintro ⟨token,member,spelling,found,same⟩
    rw [← headerName?_spelling same] at found
    refine ⟨token,List.mem_filter.mpr ⟨member,?_⟩,found⟩
    cases token with
    | nil => cases found
    | cons => rfl

theorem nominated_none (headers : HeaderMap) :
    nominated headers = none ↔ ∃ token ∈ listed headers "connection", token ≠ [] ∧ headerName? token = none := by
  unfold nominated
  rw [mapM_none]
  constructor
  · rintro ⟨token,member,invalid⟩
    obtain ⟨listed,filled⟩ := List.mem_filter.mp member
    exact ⟨token,listed,by simpa using filled,invalid⟩
  · rintro ⟨token,listed,filled,invalid⟩
    exact ⟨token,List.mem_filter.mpr ⟨listed,by simpa using filled⟩,invalid⟩

theorem lookup_remove (headers : HeaderMap) (name other : String) :
    (headers.remove name).entries.lookup other = if other = name then none else headers.entries.lookup other := by
  obtain ⟨entries,distinct⟩ := headers
  unfold HeaderMap.remove
  dsimp only
  clear distinct
  induction entries with
  | nil => simp
  | cons entry rest ih =>
      obtain ⟨key,values⟩ := entry
      by_cases gone : key = name
      · by_cases here : other = name
        · simpa [gone,here] using ih
        · have apart : (other == name) = false := by simpa using here
          simpa [gone,here,List.lookup_cons,apart] using ih
      · by_cases here : other = key
        · simp [gone,here]
        · have apart : (other == key) = false := by simpa using here
          simpa [gone,List.lookup_cons,apart] using ih

theorem lookup_removeAll (names : List String) (headers : HeaderMap) (other : String) :
    (names.foldl HeaderMap.remove headers).entries.lookup other =
      if other ∈ names then none else headers.entries.lookup other := by
  induction names generalizing headers with
  | nil => simp
  | cons name rest ih =>
      rw [List.foldl_cons,ih,lookup_remove]
      by_cases later : other ∈ rest
      · simp [later]
      · by_cases here : other = name
        · simp [here]
        · simp [here,later]

theorem nominated_missing (missing : headers.entries.lookup "connection" = none) : nominated headers = some [] := by
  unfold nominated listed HeaderMap.getAll
  rw [missing]
  rfl

theorem removeAll_absent (names : List String) (headers : HeaderMap)
    (absent : ∀ name ∈ names, headers.entries.lookup name = none) : names.foldl HeaderMap.remove headers = headers := by
  induction names with
  | nil => rfl
  | cons name rest ih =>
      have kept : headers.remove name = headers := by
        apply HeaderMap.entries_inj
        unfold HeaderMap.remove
        rw [List.filter_eq_self]
        intro entry member
        have missing := List.lookup_eq_none_iff.mp (absent name List.mem_cons_self) entry member
        rw [bne_iff_ne] at missing ⊢
        exact missing.symm
      rw [List.foldl_cons,kept]
      exact ih (fun other member => absent other (List.mem_cons_of_mem _ member))

theorem strip_removes_exactly (headers : HeaderMap) :
    ((∃ error, (stripInPlace headers).1 = .error error) ↔
      ∃ token ∈ listed headers "connection", token ≠ [] ∧ headerName? token = none) ∧
    (∀ error, (stripInPlace headers).1 = .error error → (stripInPlace headers).2 = headers) ∧
    ((stripInPlace headers).1 = .ok () →
      (∀ name, (name ∈ hopByHop ∨ Nominates headers name → (stripInPlace headers).2.entries.lookup name = none) ∧
        (¬ (name ∈ hopByHop ∨ Nominates headers name) →
          (stripInPlace headers).2.entries.lookup name = headers.entries.lookup name)) ∧
      stripInPlace (stripInPlace headers).2 = (.ok (),(stripInPlace headers).2)) := by
  rw [← nominated_none]
  cases read : nominated headers with
  | none =>
      have failed : stripInPlace headers = (.error .invalidConnectionToken,headers) := by
        unfold stripInPlace
        rw [read]
      rw [failed]
      refine ⟨⟨fun _ => rfl,fun _ => ⟨_,rfl⟩⟩,fun _ _ => rfl,fun done => ?_⟩
      cases done
  | some named =>
      have done : stripInPlace headers =
          (.ok (),hopByHop.foldl HeaderMap.remove (named.foldl HeaderMap.remove headers)) := by
        unfold stripInPlace
        rw [read]
      have found (name : String) : (stripInPlace headers).2.entries.lookup name =
          if name ∈ hopByHop then none else if name ∈ named then none else headers.entries.lookup name := by
        rw [done,lookup_removeAll,lookup_removeAll]
      refine ⟨⟨?_,fun none => by cases none⟩,?_,fun _ => ⟨fun name => ⟨?_,?_⟩,?_⟩⟩
      · rintro ⟨error,failed⟩
        rw [done] at failed
        cases failed
      · intro error failed
        rw [done] at failed
        cases failed
      · intro removed
        rw [found]
        rcases removed with fixed | nominates
        · rw [if_pos fixed]
        · rw [if_pos ((nominated_member read name).mpr nominates),ite_self]
      · intro kept
        obtain ⟨fixed,free⟩ := not_or.mp kept
        rw [found,if_neg fixed,if_neg (mt (nominated_member read name).mp free)]
      · -- The second time nothing is nominated and no fixed name is left.
        have missing (name : String) (fixed : name ∈ hopByHop) : (stripInPlace headers).2.entries.lookup name = none := by
          rw [found,if_pos fixed]
        have again := nominated_missing (missing "connection" (by decide))
        have same := removeAll_absent hopByHop (stripInPlace headers).2 missing
        rw [stripInPlace,again]
        exact congrArg (Prod.mk _) same

def traced : HeaderMap :=
  ⟨[("connection",[ascii "close, X-Trace"]),("x-trace",[ascii "1"]),("te",[ascii "trailers"]),
    ("accept",[ascii "a",ascii "b"])],by decide⟩

theorem traced_strips :
    (stripInPlace traced).1 = .ok () ∧ (stripInPlace traced).2.entries.lookup "x-trace" = none ∧
      (stripInPlace traced).2.entries.lookup "accept" = some [ascii "a",ascii "b"] ∧
      stripInPlace (stripInPlace traced).2 = (.ok (),(stripInPlace traced).2) := by
  have done : (stripInPlace traced).1 = .ok () := by decide +kernel
  obtain ⟨removed,again⟩ := (strip_removes_exactly traced).2.2 done
  have nominates : Nominates traced "x-trace" :=
    ⟨ascii "X-Trace",by decide +kernel,ascii "x-trace",by decide +kernel,by decide +kernel⟩
  exact ⟨done,(removed "x-trace").1 (.inr nominates),by decide +kernel,again⟩

end Freja.Proxy.Headers
