import Freja.Audit.Redaction
import Mathlib.Data.List.Forall2
import Mathlib.Data.List.TakeWhile

namespace Freja.Audit
open Domain Bytes

def Visible (character : Char) : Prop := 0x20 < character.toNat ∧ character.toNat ≠ 0x7f

instance (character : Char) : Decidable (Visible character) :=
  inferInstanceAs (Decidable (0x20 < character.toNat ∧ character.toNat ≠ 0x7f))

-- The documented treatment of a query: the parser percent-encodes some of its
-- characters, and what the form parser reads from it is the same afterwards.
-- Blanks and control characters, which it drops, cannot stand in a request target.
structure UrlCrate.KeepsQueries (urls : UrlCrate) : Prop where
  parsed : ∀ query : String, (∀ character ∈ query.toList, Visible character ∧ character ≠ '#') →
    FormUrlencoded.parse (urls.normalizeQuery (utf8 query)) = FormUrlencoded.parse (utf8 query)

theorem splitOnce_absent (absent : separator ∉ text.toList) : splitOnce separator text = none := by
  have all : text.toList.dropWhile (· != separator) = [] := by
    rw [List.dropWhile_eq_nil_iff]
    intro character member
    exact bne_iff_ne.mpr (fun same => absent (same ▸ member))
  rw [splitOnce,all]

theorem splitOnce_here (separator : Char) (front rest : String) (absent : separator ∉ front.toList) :
    splitOnce separator (front ++ String.ofList (separator :: rest.toList)) = some (front,rest) := by
  have before : ∀ character ∈ front.toList, (character != separator) = true := fun character member =>
    bne_iff_ne.mpr (fun same => absent (same ▸ member))
  have joined : (front ++ String.ofList (separator :: rest.toList)).toList = front.toList ++ separator :: rest.toList := by
    simp
  have after : (front ++ String.ofList (separator :: rest.toList)).toList.dropWhile (· != separator) =
      separator :: rest.toList := by
    rw [joined,List.dropWhile_append_of_pos before]
    simp
  have first : (front ++ String.ofList (separator :: rest.toList)).toList.takeWhile (· != separator) = front.toList := by
    rw [joined,List.takeWhile_append_of_pos before]
    simp
  rw [splitOnce,after,first]
  simp

-- A request target in two parts.
def withQuery (front : String) : Option String → String
  | none => front
  | some query => front ++ "?" ++ query

theorem utf8_injective (same : utf8 first = utf8 second) : first = second := by
  have decoded := Utf8.decodeLossy_utf8 first
  rw [same,Utf8.decodeLossy_utf8] at decoded
  exact (String.toList_injective decoded).symm

-- The parts of a target that the redactor finds in it.
structure Split (front : String) (query : Option String) : Prop where
  plain : ∀ character ∈ front.toList, character ≠ '?' ∧ character ≠ '#'
  visible : ∀ text, query = some text → ∀ character ∈ text.toList, Visible character ∧ character ≠ '#'

namespace Split

theorem noFragment (split : Split front query) : splitOnce '#' (withQuery front query) = none := by
  apply splitOnce_absent
  intro member
  cases query with
  | none => exact (split.plain _ member).2 rfl
  | some text =>
      simp only [withQuery,String.toList_append,List.mem_append] at member
      rcases member with (before | mark) | after
      · exact (split.plain _ before).2 rfl
      · exact absurd mark (by decide)
      · exact (split.visible text rfl _ after).2 rfl

theorem atQuery (split : Split front query) :
    splitOnce '?' (withQuery front query) = query.map (fun text => (front,text)) := by
  cases query with
  | none =>
      apply splitOnce_absent
      exact fun member => (split.plain _ member).1 rfl
  | some text =>
      have joined : withQuery front (some text) = front ++ String.ofList ('?' :: text.toList) := by
        apply String.toList_injective
        simp [withQuery]
      rw [joined]
      exact splitOnce_here '?' front text (fun member => (split.plain _ member).1 rfl)

end Split

variable (redactor : Redactor) (urls : UrlCrate)

theorem Redactor.redactOriginForm_split (split : Split front query) :
    redactor.redactOriginForm (withQuery front query) =
      withQuery front (query.map (fun text => queryText (redactor.redactQuery (utf8 text)))) := by
  unfold redactOriginForm
  rw [split.noFragment]
  simp only [Option.map_none,Option.getD_none]
  rw [split.atQuery]
  cases query <;> rfl

theorem UrlCrate.parse_split (split : Split front query) :
    urls.parse (withQuery front query) = (urls.parseFront front).map (fun parsed =>
      ⟨parsed,query.map (fun text => urls.normalizeQuery (utf8 text)),none⟩) := by
  unfold parse
  rw [split.noFragment]
  simp only [Option.map_none,Option.getD_none]
  rw [split.atQuery]
  cases query <;> rfl

-- One piece of two queries: the same text, or one secret parameter in both.
def SamePiece (left right : List UInt8) : Prop :=
  left = right ∨ (left ≠ [] ∧ right ≠ [] ∧ left.takeWhile (· != 61) = right.takeWhile (· != 61) ∧
    redactor.isSecretParameter (FormUrlencoded.decode (left.takeWhile (· != 61))) = true)

-- Queries that differ at most in the values of secret parameters.
def QueriesAgree (left right : String) : Prop :=
  List.Forall₂ (SamePiece redactor) ((utf8 left).splitOn 38) ((utf8 right).splitOn 38)

theorem SamePiece.redacted (same : SamePiece redactor left right) :
    redactor.redactPair (FormUrlencoded.parsePiece left) = redactor.redactPair (FormUrlencoded.parsePiece right) := by
  rcases same with rfl | ⟨_,_,name,secret⟩
  · rfl
  · have secretToo := secret
    rw [name] at secretToo
    simp only [Redactor.redactPair,FormUrlencoded.parsePiece,secretToo,if_true,name]

theorem QueriesAgree.pairs (agree : QueriesAgree redactor left right) :
    (FormUrlencoded.parse (utf8 left)).map redactor.redactPair = (FormUrlencoded.parse (utf8 right)).map redactor.redactPair := by
  unfold QueriesAgree at agree
  unfold FormUrlencoded.parse
  generalize (utf8 left).splitOn 38 = first at agree ⊢
  generalize (utf8 right).splitOn 38 = second at agree ⊢
  induction agree with
  | nil => rfl
  | @cons piece other _ _ same _ ih =>
      by_cases empty : piece = []
      · have emptyToo : other = [] := by
          rcases same with rfl | ⟨there,_⟩
          · exact empty
          · exact absurd empty there
        simpa [empty,emptyToo] using ih
      · have present : other ≠ [] := by
          rcases same with rfl | ⟨_,there,_⟩
          · exact empty
          · exact there
        have kept : (!piece.isEmpty) = true := by simpa using empty
        have keptToo : (!other.isEmpty) = true := by simpa using present
        simp only [List.filter_cons,kept,keptToo,if_true,List.map_cons,same.redacted redactor,ih]

theorem QueriesAgree.same (agree : QueriesAgree redactor left right) (none_there : FormUrlencoded.parse (utf8 left) = []) :
    left = right := by
  have pieces : (utf8 left).splitOn 38 = (utf8 right).splitOn 38 := by
    unfold QueriesAgree at agree
    unfold FormUrlencoded.parse at none_there
    rw [List.map_eq_nil_iff,List.filter_eq_nil_iff] at none_there
    generalize (utf8 left).splitOn 38 = first at agree none_there
    generalize (utf8 right).splitOn 38 = second at agree
    induction agree with
    | nil => rfl
    | @cons piece other _ _ same _ ih =>
        have empty : piece = [] := by simpa using none_there piece List.mem_cons_self
        rcases same with rfl | ⟨there,_⟩
        · rw [ih (fun other member => none_there other (List.mem_cons_of_mem _ member))]
        · exact absurd empty there
  apply utf8_injective
  have joined : [38].intercalate ((utf8 left).splitOn 38) = utf8 left := List.intercalate_splitOn 38
  rw [pieces,List.intercalate_splitOn] at joined
  exact joined.symm

inductive OptionalQueriesAgree : Option String → Option String → Prop where
  | absent : OptionalQueriesAgree none none
  | present : QueriesAgree redactor left right → OptionalQueriesAgree (some left) (some right)

theorem OptionalQueriesAgree.isSome (agree : OptionalQueriesAgree redactor left right) : left.isSome = right.isSome := by
  cases agree <;> rfl

-- The query as it is written again.
def redactedQuery (query : Option (List UInt8)) : Option (List UInt8) :=
  if (FormUrlencoded.parse (query.getD [])).isEmpty then query
  else some (FormUrlencoded.serialize ((FormUrlencoded.parse (query.getD [])).map redactor.redactPair))

theorem QueriesAgree.empty (agree : QueriesAgree redactor left right) :
    (FormUrlencoded.parse (utf8 left)).isEmpty = (FormUrlencoded.parse (utf8 right)).isEmpty := by
  simpa using congrArg List.isEmpty agree.pairs

variable {urls}

theorem redactedQuery_agree (keeps : urls.KeepsQueries) (split : Split front left) (splitToo : Split back right)
    (agree : OptionalQueriesAgree redactor left right) :
    redactedQuery redactor (left.map (fun text => urls.normalizeQuery (utf8 text))) =
      redactedQuery redactor (right.map (fun text => urls.normalizeQuery (utf8 text))) := by
  cases agree with
  | absent => rfl
  | @present first second agree =>
      by_cases none_there : FormUrlencoded.parse (utf8 first) = []
      · rw [agree.same redactor none_there]
      · have some_there : (FormUrlencoded.parse (utf8 second)).isEmpty = false := by
          simpa [← agree.empty redactor] using none_there
        simp [redactedQuery,keeps.parsed first (split.visible first rfl),keeps.parsed second (splitToo.visible second rfl),
          agree.empty redactor,some_there,agree.pairs]

variable (urls)

theorem Redactor.redactUrl_rewrites (target : String) (url : urls.Url) :
    redactor.redactUrl urls target url =
      let hasUserinfo := urls.username url.front != "" || (urls.password url.front).isSome
      match if hasUserinfo then hideUserinfo urls url.front else some url.front with
      | none => "[REDACTED URL WITH USERINFO]"
      | some front =>
          if (urls.queryPairs url).isEmpty && !hasUserinfo then target
          else urls.text ⟨front,redactedQuery redactor url.query,url.fragment⟩ := by
  unfold redactUrl redactedQuery UrlCrate.queryPairs
  dsimp only
  cases if urls.username url.front != "" || (urls.password url.front).isSome then hideUserinfo urls url.front
    else some url.front with
  | none => rfl
  | some front =>
      by_cases none_there : (FormUrlencoded.parse (url.query.getD [])).isEmpty = true
      · simp only [none_there,if_true]
      · simp only [none_there,if_false,Bool.false_eq_true]

theorem Redactor.redactTarget_agree (keeps : urls.KeepsQueries) (split : Split front left) (splitToo : Split front right)
    (agree : OptionalQueriesAgree redactor left right) :
    redactor.redactTarget urls (withQuery front left) = redactor.redactTarget urls (withQuery front right) := by
  have query := redactedQuery_agree redactor keeps split splitToo agree
  cases agree with
  | absent => rfl
  | @present first second agree =>
      by_cases none_there : FormUrlencoded.parse (utf8 first) = []
      · rw [agree.same redactor none_there]
      · unfold redactTarget
        rw [urls.parse_split split,urls.parse_split splitToo]
        cases urls.parseFront front with
        | none =>
            simp only [Option.map_none]
            rw [redactor.redactOriginForm_split split,redactor.redactOriginForm_split splitToo]
            simp only [Option.map_some,redactQuery,agree.pairs]
        | some parsed =>
            have some_there : (FormUrlencoded.parse (utf8 second)).isEmpty = false := by
              simpa [← agree.empty redactor] using none_there
            simp only [Option.map_some] at query ⊢
            simp [redactor.redactUrl_rewrites,query,UrlCrate.queryPairs,keeps.parsed first (split.visible first rfl),
              keeps.parsed second (splitToo.visible second rfl),agree.empty redactor,some_there]

end Freja.Audit
