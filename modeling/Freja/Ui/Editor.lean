import Freja.Policy.Mutation
import Freja.Proxy.FramingAgreement

namespace Freja.Ui
open Bytes Policy Proxy Framing Framing.Grammar

-- What the HTTP parser makes of a request that is complete.
structure ParsedRequest where
  method : List UInt8
  path : List UInt8
  version : Nat
  headers : List (List UInt8 × List UInt8)
  deriving DecidableEq, Repr

inductive HttparseError where
  | headerName
  | headerValue
  | newLine
  | token
  | tooManyHeaders
  | version
  deriving DecidableEq, Repr

inductive ParseStatus where
  | failed (error : HttparseError)
  | unfinished
  | complete (request : ParsedRequest) (bytes : Nat)
  deriving DecidableEq, Repr

-- The parser reads bytes with room for so many headers.
abbrev Httparse := List UInt8 → Nat → ParseStatus

inductive RequestEditError where
  | unsupportedVersion
  | nonTextHeader (name : String)
  | nonTextBody
  | documentTooLarge (actual maximum : Nat)
  | incomplete
  | parse (error : HttparseError)
  | changedStartLine
  | invalidHeaderName
  | invalidHeaderValue
  | headTooLarge (actual maximum : Nat)
  | bodyTooLarge (actual maximum : Nat)
  | mutation (error : MutationError)
  deriving DecidableEq, Repr

def mutationText : MutationError → String
  | .protectedHeader name => "hook may not mutate proxy-controlled header " ++ name
  | .bodyTooLarge actual maximum =>
      "hook replacement body contains " ++ toString actual ++ " bytes, exceeding the configured limit " ++ toString maximum
  | .encodedBodyReplacement => "decoded body replacement cannot be applied after content encoding is committed"

def RequestEditError.text : RequestEditError → String
  | .unsupportedVersion => "the request editor supports HTTP/1.1 only"
  | .nonTextHeader name => "header " ++ name ++ " is not editable UTF-8 text"
  | .nonTextBody => "the request body is not editable UTF-8 text"
  | .documentTooLarge actual maximum =>
      "edited request contains " ++ toString actual ++ " bytes, exceeding the editor limit " ++ toString maximum
  | .incomplete => "request head must end with a blank line"
  | .parse _ => "edited request is not valid HTTP/1.1 syntax"
  | .changedStartLine => "method, request target, and HTTP version are read-only in the request editor"
  | .invalidHeaderName => "edited request has an invalid header name"
  | .invalidHeaderValue => "edited request has an invalid header value"
  | .headTooLarge actual maximum =>
      "edited request headers contain " ++ toString actual ++ " bytes, exceeding the configured limit " ++ toString maximum
  | .bodyTooLarge actual maximum =>
      "edited request body contains " ++ toString actual ++ " bytes, exceeding the configured limit " ++ toString maximum
  | .mutation error => "edited request is not permitted: " ++ mutationText error

-- The text of the buffer stands for the buffer.
structure RequestEditor where
  originalMethod : String
  originalTarget : String
  originalHeaders : HeaderMap
  originalBody : List UInt8
  maximumHeadBytes : Nat
  maximumBodyBytes : Nat
  maximumDocumentBytes : Nat
  document : List UInt8
  deriving DecidableEq, Repr

structure RequestEditSubmission where
  decision : InteractiveDecision
  headerMap : HeaderMap
  headers : List (String × List UInt8)
  body : List UInt8
  deriving DecidableEq, Repr

def isUtf8 (bytes : List UInt8) : Bool := utf8 (String.ofList (Utf8.decodeLossy bytes)) == bytes

def startLine (snapshot : HttpRequestSnapshot) : List UInt8 :=
  utf8 snapshot.method ++ 32 :: utf8 snapshot.uri ++ ascii " HTTP/1.1"

def headerLine (header : String × List UInt8) : List UInt8 := utf8 header.1 ++ ascii ": " ++ header.2

def renderHeader (header : String × List UInt8) : Except RequestEditError (List UInt8) :=
  if header.2.all Headers.isVisibleAscii then .ok (headerLine header ++ [10]) else .error (.nonTextHeader header.1)

def RequestEditor.new (snapshot : HttpRequestSnapshot) : Except RequestEditError RequestEditor := do
  if snapshot.version ≠ .http11 then throw .unsupportedVersion
  let headers ← snapshot.headers.pairs.mapM renderHeader
  if !isUtf8 snapshot.body then throw .nonTextBody
  let buffer := startLine snapshot ++ 10 :: headers.flatten ++ 10 :: snapshot.body
  let maximumDocumentBytes := saturatingAdd (saturatingAdd (saturatingAdd snapshot.maximumHeadBytes
    snapshot.maximumBodyBytes) (startLine snapshot).length) 2
  if buffer.length > maximumDocumentBytes then throw (.documentTooLarge buffer.length maximumDocumentBytes)
  return {originalMethod := snapshot.method,originalTarget := snapshot.uri,originalHeaders := snapshot.headers
          originalBody := snapshot.body,maximumHeadBytes := snapshot.maximumHeadBytes
          maximumBodyBytes := snapshot.maximumBodyBytes,maximumDocumentBytes := maximumDocumentBytes
          document := buffer}

-- What stands before and after the first blank line.
def cutBlankLine : List UInt8 → Option (List UInt8 × List UInt8)
  | [] => none
  | 10 :: 10 :: rest => some ([],rest)
  | byte :: rest => (cutBlankLine rest).map (fun cut => (byte :: cut.1,cut.2))

def wireLines (lines : List (List UInt8)) : List UInt8 := lines.flatMap (· ++ crlf) ++ crlf

-- The request as it would be sent, where its body starts, and how many headers it
-- has room for.
def wireRequest (document : List UInt8) : Except RequestEditError (List UInt8 × Nat × Nat) :=
  match cutBlankLine document with
  | none => .error .incomplete
  | some (head,body) =>
      let lines := head.splitOn 10
      .ok (wireLines lines ++ body,(wireLines lines).length,max (lines.length - 1) 1)

def appendParsed (headers : HeaderMap) (header : List UInt8 × List UInt8) : Except RequestEditError HeaderMap :=
  match Headers.headerName? header.1 with
  | none => .error .invalidHeaderName
  | some name =>
      if header.2.all isValueByte then .ok (headers.append name header.2) else .error .invalidHeaderValue

def parsedHeaderMap (parsed : ParsedRequest) : Except RequestEditError HeaderMap :=
  parsed.headers.foldlM appendParsed .empty

-- A name whose values differ is removed and filled anew.
def headerDiff (original desired : HeaderMap) : HeadMutationPlan :=
  let names := (original.entries.map Prod.fst ++ desired.entries.map Prod.fst).eraseDups
  ⟨(names.filter (fun name => original.getAll name != desired.getAll name)).flatMap (fun name =>
    .remove name :: (desired.getAll name).map (.append name))⟩

def validateHeaderBudget (headers : HeaderMap) (maximum : Nat) : Except RequestEditError Unit :=
  if Headers.headerSize headers > maximum then .error (.headTooLarge (Headers.headerSize headers) maximum) else .ok ()

namespace RequestEditor

-- The headers as they are shown, framed for the body that is sent.
def displayHeaders (editor : RequestEditor) (desired : HeaderMap) (body : List UInt8) : HeaderMap :=
  setContentLength (if body = editor.originalBody then desired else normalizeReplacedBodyHeaders desired) body.length

def bodyPlan (editor : RequestEditor) (body : List UInt8) : BodyMutationPlan :=
  if body = editor.originalBody then .keep else .replace body

def decision (head : HeadMutationPlan) (body : BodyMutationPlan) : InteractiveDecision :=
  if head.headers.isEmpty ∧ body = .keep then .continue else .modifyRequest ⟨head,body⟩

-- What becomes of the headers and the body that were read.
def judge (editor : RequestEditor) (desired : HeaderMap) (body : List UInt8) :
    Except RequestEditError RequestEditSubmission := do
  validateHeaderBudget desired editor.maximumHeadBytes
  let head := headerDiff editor.originalHeaders desired
  let _ ← (applyHeadMutation editor.originalHeaders head).mapError .mutation
  let display := editor.displayHeaders desired body
  validateHeaderBudget display editor.maximumHeadBytes
  return {decision := decision head (editor.bodyPlan body),headerMap := display,headers := display.pairs,body := body}

def submitParsed (editor : RequestEditor) (parsed : ParsedRequest) (body : List UInt8) :
    Except RequestEditError RequestEditSubmission :=
  if parsed.method ≠ utf8 editor.originalMethod ∨ parsed.path ≠ utf8 editor.originalTarget ∨ parsed.version ≠ 1 then
    .error .changedStartLine
  else if body.length > editor.maximumBodyBytes then .error (.bodyTooLarge body.length editor.maximumBodyBytes)
  else do
    let desired ← parsedHeaderMap parsed
    editor.judge desired body

def submission (editor : RequestEditor) (parse : Httparse) : Except RequestEditError RequestEditSubmission := do
  let (wire,bodyOffset,headerCapacity) ← wireRequest editor.document
  match parse wire headerCapacity with
  | .failed error => .error (.parse error)
  | .unfinished => .error .incomplete
  | .complete parsed parsedHeadBytes =>
      if parsedHeadBytes ≠ bodyOffset then .error .incomplete else editor.submitParsed parsed (wire.drop bodyOffset)

end RequestEditor

end Freja.Ui
