import Freja.Audit.Redaction
import Freja.Proxy.HttpPolicy
import Freja.Wire.Framing

namespace Freja.Proxy.Headers
open Domain Audit Bytes

inductive HeaderError where
  | budgetExceeded (observed maximum : Nat)
  | transferEncodingWithContentLength
  | unsupportedTransferEncoding
  | invalidContentLength
  | conflictingContentLength
  | invalidConnectionToken
  deriving DecidableEq, Repr

def HeaderError.text : HeaderError → String
  | .budgetExceeded observed maximum =>
      "header bytes " ++ toString observed ++ " exceed configured limit " ++ toString maximum
  | .transferEncodingWithContentLength => "Transfer-Encoding and Content-Length must not appear together"
  | .unsupportedTransferEncoding => "only a single chunked Transfer-Encoding is supported"
  | .invalidContentLength => "invalid Content-Length value"
  | .conflictingContentLength => "conflicting Content-Length values"
  | .invalidConnectionToken => "Connection header contains an invalid header name"

def headerSize (headers : HeaderMap) : Nat :=
  headers.pairs.foldl (fun total header =>
    saturatingAdd (saturatingAdd (saturatingAdd total (utf8 header.1).length) header.2.length) 4) 0

def isAsciiWhitespace (byte : UInt8) : Bool := byte == 32 || byte == 9 || byte == 10 || byte == 12 || byte == 13

def trimAscii (value : List UInt8) : List UInt8 :=
  ((value.dropWhile isAsciiWhitespace).reverse.dropWhile isAsciiWhitespace).reverse

-- The comma-separated parts of all values of a name.
def listed (headers : HeaderMap) (name : String) : List (List UInt8) :=
  ((headers.getAll name).flatMap (·.splitOn 44)).map trimAscii

def validateTransferEncoding (headers : HeaderMap) : Except HeaderError Unit :=
  match (listed headers "transfer-encoding").filter (!·.isEmpty) with
  | [token] => if eqIgnoreAsciiCase token (ascii "chunked") then .ok () else .error .unsupportedTransferEncoding
  | _ => .error .unsupportedTransferEncoding

def readContentLength (expected : Option Nat) (value : List UInt8) : Except HeaderError (Option Nat) :=
  if value.isEmpty || !value.all isDigit then .error .invalidContentLength
  else
    match parseDecimal? u64Max value with
    | none => .error .invalidContentLength
    | some parsed =>
        if expected.any (· != parsed) then .error .conflictingContentLength else .ok (some parsed)

def validateContentLength (headers : HeaderMap) : Except HeaderError Unit := do
  let _ ← (listed headers "content-length").foldlM readContentLength none
  return ()

def validate (headers : HeaderMap) (maximum : Nat) : Except HeaderError Unit := do
  if headerSize headers > maximum then throw (.budgetExceeded (headerSize headers) maximum)
  let hasTransferEncoding := headers.containsKey "transfer-encoding"
  let hasContentLength := headers.containsKey "content-length"
  if hasTransferEncoding && hasContentLength then throw .transferEncodingWithContentLength
  if hasTransferEncoding then validateTransferEncoding headers
  if hasContentLength then validateContentLength headers

-- A name as the header crate reads it: a token, kept in lower case.
def headerName? (token : List UInt8) : Option String :=
  if token.isEmpty || token.length > 65535 || !token.all Framing.isTokenByte then none
  else some (String.ofList (token.map (fun byte => Char.ofNat (toLower byte).toNat)))

def hopByHop : List String :=
  ["connection","keep-alive","proxy-authenticate","proxy-authorization","proxy-connection","te","trailer",
   "transfer-encoding","upgrade"]

def stripHopByHop (headers : HeaderMap) : Except HeaderError HeaderMap :=
  match ((listed headers "connection").filter (!·.isEmpty)).mapM headerName? with
  | none => .error .invalidConnectionToken
  | some named => .ok ((named ++ hopByHop).foldl HeaderMap.remove headers)

def addAuditValue (values : AuditHeaders) (header : String × List UInt8) : AuditHeaders :=
  values.upsert header.1 (fun present => present.getD [] ++ [String.ofList (Utf8.decodeLossy header.2)])

def auditHeaders (headers : HeaderMap) : AuditHeaders := headers.pairs.foldl addAuditValue .empty

def isVisibleAscii (byte : UInt8) : Bool := (32 ≤ byte && byte < 127) || byte == 9

-- A header value holds visible text, blanks and tabs.
def isHeaderText (text : String) : Bool := (utf8 text).all isVisibleAscii

def regenerateHost (headers : HeaderMap) (authority : String) : Option HeaderMap :=
  if isHeaderText authority then some (headers.insert "host" (utf8 authority)) else none

variable {headers left right : HeaderMap}

theorem gather_pairs (proper : headers.Proper) (view : String → List UInt8 → α) (name : String) :
    (OrderedMap.gather (headers.pairs.map (fun header => (header.1,[view header.1 header.2]))) .empty).get? name =
      (headers.entries.lookup name).map (·.map (view name)) := by
  have found : OrderedMap.collected name (headers.pairs.map (fun header => (header.1,[view header.1 header.2]))) =
      (headers.getAll name).map (fun value => [view name value]) := by
    rw [← headers.pairs_values name]
    unfold OrderedMap.collected
    rw [List.filter_map,List.map_map,List.map_map]
    apply List.map_congr_left
    intro header member
    have here : header.1 = name := by simpa using (List.mem_filter.mp member).2
    simp [here]
  rw [OrderedMap.get?_gather,found]
  by_cases missing : headers.getAll name = []
  · rw [missing,(proper.getAll_eq_nil name).mp missing]
    rfl
  · cases there : headers.entries.lookup name with
    | none => exact absurd ((proper.getAll_eq_nil name).mpr there) missing
    | some values =>
        have all : headers.getAll name = values := by simp [HeaderMap.getAll,there]
        have some_there : values ≠ [] := all ▸ missing
        have flat : (values.map (fun value => [view name value])).flatten = values.map (view name) := by
          rw [← List.flatMap_def,← List.map_eq_flatMap]
        rw [all,flat]
        simp [some_there,OrderedMap.empty,OrderedMap.get?]

theorem auditHeaders_get? (proper : headers.Proper) (name : String) :
    (auditHeaders headers).get? name =
      (headers.entries.lookup name).map (·.map (fun value => String.ofList (Utf8.decodeLossy value))) := by
  have lossy := gather_pairs proper (fun _ value => String.ofList (Utf8.decodeLossy value)) name
  unfold OrderedMap.gather at lossy
  rw [List.foldl_map] at lossy
  exact lossy

def policyValue (name : String) (value : List UInt8) : List UInt8 :=
  if isSecretHeader name then ascii "[REDACTED]" else value

theorem sanitized_entries (map : OrderedMap String (List (List UInt8)))
    (lower : ∀ entry ∈ map.entries, lowercase entry.1 = entry.1) : SanitizedHeaders.new map.entries = ⟨map⟩ := by
  have lowered : map.entries.map (fun entry => (lowercase entry.1,entry.2)) = map.entries.map id := by
    apply List.map_congr_left
    intro entry member
    rw [lower entry member]
    rfl
  have gathered := map.gather_entries
  rw [← List.map_id map.entries,← lowered] at gathered
  unfold OrderedMap.gather at gathered
  rw [List.foldl_map] at gathered
  exact congrArg SanitizedHeaders.mk gathered

theorem policyValues_gather (headers : HeaderMap) : headers.pairs.foldl addPolicyValue .empty =
    OrderedMap.gather (headers.pairs.map (fun header => (header.1,[policyValue header.1 header.2]))) .empty := by
  unfold OrderedMap.gather
  rw [List.foldl_map]
  rfl

theorem policyHeaders_eq (proper : headers.Proper) :
    policyHeaders headers = ⟨headers.pairs.foldl addPolicyValue .empty⟩ ∧
      ∀ entry ∈ (policyHeaders headers).fields.entries, lowercase entry.1 = entry.1 := by
  have lower : ∀ entry ∈ (headers.pairs.foldl addPolicyValue .empty).entries, lowercase entry.1 = entry.1 := by
    rw [policyValues_gather]
    apply OrderedMap.gather_keys (fun name => lowercase name = name)
    · intro entry member
      obtain ⟨header,listed,rfl⟩ := List.mem_map.mp member
      obtain ⟨source,there,inside⟩ := List.mem_flatMap.mp listed
      obtain ⟨value,_,rfl⟩ := List.mem_map.mp inside
      exact proper.lower source there
    · intro entry member
      cases member
  unfold policyHeaders
  rw [sanitized_entries _ lower]
  exact ⟨rfl,lower⟩

theorem policyHeaders_get? (proper : headers.Proper) (name : String) :
    (policyHeaders headers).fields.get? name = (headers.entries.lookup name).map (·.map (policyValue name)) := by
  rw [(policyHeaders_eq proper).1,policyValues_gather]
  exact gather_pairs proper policyValue name

theorem redactSanitizedHeaders_get? (proper : headers.Proper) (name : String) :
    (Redactor.redactSanitizedHeaders (policyHeaders headers)).fields.get? name =
      ((policyHeaders headers).fields.get? name).map
        (fun values => if Audit.isSecretHeader name then [ascii redacted] else values) := by
  have lower : ∀ entry ∈ ((policyHeaders headers).fields.mapValues
      (fun name values => if Audit.isSecretHeader name then [ascii redacted] else values)).entries,
      lowercase entry.1 = entry.1 := by
    intro entry member
    obtain ⟨source,listed,rfl⟩ := List.mem_map.mp member
    exact (policyHeaders_eq proper).2 source listed
  have hidden := sanitized_entries _ lower
  change Redactor.redactSanitizedHeaders (policyHeaders headers) = _ at hidden
  rw [hidden]
  exact OrderedMap.get?_mapValues _ _ _

theorem secret_lower (lower : lowercase name = name) : Audit.isSecretHeader name = isSecretHeader name := by
  unfold Audit.isSecretHeader isSecretHeader
  rw [lower]

end Freja.Proxy.Headers
