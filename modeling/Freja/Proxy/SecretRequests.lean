import Freja.Policy.Indistinct
import Freja.Proxy.Admission
import Freja.Proxy.Lockstep

namespace Freja.Proxy
open Domain Policy Audit Effect Bytes

-- Header maps that differ at most in the values of the credential fields.
structure SameHead (left right : HeaderMap) : Prop where
  agree : HeaderMap.Agree Audit.isSecretHeader left right
  proper : left.Proper
  properToo : right.Proper

namespace SameHead

variable {left right : HeaderMap}

theorem remove (same : SameHead left right) (name : String) : SameHead (left.remove name) (right.remove name) :=
  ⟨same.agree.remove name,same.proper.remove name,same.properToo.remove name⟩

theorem removeAll (same : SameHead left right) (names : List String) :
    SameHead (names.foldl HeaderMap.remove left) (names.foldl HeaderMap.remove right) := by
  induction names generalizing left right with
  | nil => exact same
  | cons name rest ih => exact ih (same.remove name)

theorem insert (same : SameHead left right) (name : String) (value : List UInt8) (lower : lowercase name = name) :
    SameHead (left.insert name value) (right.insert name value) :=
  ⟨same.agree.update name value _,same.proper.insert name value lower,same.properToo.insert name value lower⟩

theorem append (same : SameHead left right) (name : String) (value : List UInt8) (lower : lowercase name = name) :
    SameHead (left.append name value) (right.append name value) :=
  ⟨same.agree.update name value _,same.proper.append name value lower,same.properToo.append name value lower⟩

theorem audited (same : SameHead left right) :
    Redactor.redactHeaders (Headers.auditHeaders left) = Redactor.redactHeaders (Headers.auditHeaders right) := by
  apply OrderedMap.ext_get?
  intro name
  unfold Redactor.redactHeaders
  rw [OrderedMap.get?_mapValues,OrderedMap.get?_mapValues,Headers.auditHeaders_get? same.proper,
    Headers.auditHeaders_get? same.properToo]
  rcases same.agree.lookup name with ⟨first,second⟩ | ⟨values,others,first,second,equal | hidden⟩
  · rw [first,second]
  · rw [first,second,equal]
  · rw [first,second]
    simp only [Option.map_some,hidden,if_true]

theorem replayed (same : SameHead left right) :
    Redactor.redactSanitizedHeaders (Headers.policyHeaders left) =
      Redactor.redactSanitizedHeaders (Headers.policyHeaders right) := by
  apply congrArg SanitizedHeaders.mk
  apply OrderedMap.ext_get?
  intro name
  have shown := Headers.redactSanitizedHeaders_get? same.proper name
  have shownToo := Headers.redactSanitizedHeaders_get? same.properToo name
  rw [Headers.policyHeaders_get? same.proper] at shown
  rw [Headers.policyHeaders_get? same.properToo] at shownToo
  refine shown.trans (Eq.trans ?_ shownToo.symm)
  rcases same.agree.lookup name with ⟨first,second⟩ | ⟨values,others,first,second,equal | hidden⟩
  · rw [first,second]
  · rw [first,second,equal]
  · rw [first,second]
    simp only [Option.map_some,hidden,if_true]

theorem any_constant (test : List UInt8 → Bool) (constant : List UInt8) (values : List (List UInt8))
    (filled : values ≠ []) : (values.map (fun _ => constant)).any test = test constant := by
  induction values with
  | nil => exact absurd rfl filled
  | cons value rest ih =>
      rw [List.map_cons,List.any_cons]
      by_cases last : rest = []
      · simp [last]
      · rw [ih last,Bool.or_self]

theorem judged (same : SameHead left right) (name : String) (test : List UInt8 → Bool) :
    ((Headers.policyHeaders left).values name).map (·.any test) =
      ((Headers.policyHeaders right).values name).map (·.any test) := by
  unfold SanitizedHeaders.values
  rw [Headers.policyHeaders_get? same.proper,Headers.policyHeaders_get? same.properToo]
  rcases same.agree.lookup (lowercase name) with ⟨first,second⟩ | ⟨values,others,first,second,equal | hidden⟩
  · rw [first,second]
  · rw [first,second,equal]
  · have secret : Headers.isSecretHeader (lowercase name) = true := by
      rw [← Headers.secret_lower (lowercase_lowercase name)]
      exact hidden
    have filled := (same.proper.lookup _ _ first).1
    have filledToo := (same.properToo.lookup _ _ second).1
    have shown : Headers.policyValue (lowercase name) = fun _ => ascii "[REDACTED]" := by
      funext value
      simp [Headers.policyValue,secret]
    rw [first,second,shown]
    simp only [Option.map_some,any_constant test _ values filled,any_constant test _ others filledToo]

end SameHead

-- Requests that differ at most in what the redactor hides.
structure HttpRequest.Agree (redactor : Redactor) (left right : HttpRequest) : Prop where
  method : left.method = right.method
  version : left.version = right.version
  scheme : left.uri.scheme = right.uri.scheme
  authority : left.uri.authority = right.uri.authority
  path : left.uri.path = right.uri.path
  query : OptionalQueriesAgree redactor left.uri.query right.uri.query
  headers : HeaderMap.Agree Audit.isSecretHeader left.headers right.headers

namespace HttpRequest.Agree

variable {redactor : Redactor} {left right : HttpRequest}

theorem head (agree : left.Agree redactor right) : SameHead left.headers right.headers :=
  ⟨agree.headers,left.proper,right.proper⟩

theorem queries (agree : left.Agree redactor right) : left.uri.query.isSome = right.uri.query.isSome :=
  agree.query.isSome

theorem front (agree : left.Agree redactor right) : left.uri.front = right.uri.front := by
  unfold UriParts.front UriParts.pathText UriParts.hasPath
  rw [agree.scheme,agree.authority,agree.path,agree.queries]

theorem target (keeps : UrlCrate.KeepsQueries urls) (agree : left.Agree redactor right) :
    redactor.redactTarget urls left.uri.text = redactor.redactTarget urls right.uri.text := by
  have split := left.uri.split
  rw [agree.front] at split
  unfold UriParts.text
  rw [agree.front]
  exact redactor.redactTarget_agree urls keeps split right.uri.split agree.query

theorem pathAndQuery (keeps : UrlCrate.KeepsQueries urls) (agree : left.Agree redactor right) :
    redactor.redactTarget urls left.uri.pathAndQuery = redactor.redactTarget urls right.uri.pathAndQuery := by
  have split := left.uri.splitPath
  rw [agree.path] at split
  have absent : left.uri.query.isNone = right.uri.query.isNone := by
    rw [← Option.not_isSome,agree.queries,Option.not_isSome]
  unfold UriParts.pathAndQuery
  rw [agree.scheme,agree.authority,agree.path,absent]
  split
  · split
    · rfl
    · exact redactor.redactTarget_agree urls keeps split right.uri.splitPath agree.query
  · rfl

end HttpRequest.Agree

end Freja.Proxy
