import Freja.Domain.Identity
import Freja.Wire.Accounting

namespace Freja.Capture
open Bytes Transducer Domain Framing

def errorText : WireFramingError → String
  | .headTooLarge maximum => "HTTP/1 capture head exceeds " ++ toString maximum ++ " bytes"
  | .invalidStartLine => "invalid HTTP/1 capture start line"
  | .invalidHeaderLine => "invalid HTTP/1 capture header line"
  | .transferEncodingWithContentLength => "HTTP/1 capture found both Transfer-Encoding and Content-Length"
  | .unsupportedTransferEncoding => "HTTP/1 capture supports only a single chunked Transfer-Encoding"
  | .invalidContentLength => "invalid HTTP/1 capture Content-Length"
  | .conflictingContentLength => "conflicting HTTP/1 capture Content-Length values"
  | .invalidChunkSize => "invalid HTTP/1 chunk size"
  | .chunkSizeOverflow => "HTTP/1 chunk size overflow"
  | .invalidChunkTerminator => "invalid HTTP/1 chunk data terminator"
  | .trailersTooLarge maximum => "HTTP/1 capture trailers exceed " ++ toString maximum ++ " bytes"
  | .unexpectedEof => "incomplete HTTP/1 message at EOF"

abbrev CaptureResult := Except String WireMessage

structure RequestRecord where
  sequence : Nat
  transactionId : Option TransactionId
  result : Option CaptureResult

inductive BoundCapture where
  | complete (transactionId : TransactionId) (message : WireMessage)
  | failed (transactionId : TransactionId) (reason : String)
  deriving DecidableEq, Repr

def BoundCapture.transactionId : BoundCapture → TransactionId
  | .complete transactionId _ => transactionId
  | .failed transactionId _ => transactionId

-- The capacity is a NonZeroUsize in the source.
structure RequestCaptureState where
  framer : Http1Framer
  records : List RequestRecord
  droppedTail : Nat
  maximumRecords : Nat
  nonzero : maximumRecords ≠ 0
  enabled : Bool
  eof : Bool

def correlationLimitExceeded : String := "HTTP/1 capture correlation limit exceeded"
def requestHeadNotObserved : String := "HTTP/1 capture did not observe a request head"
def endedBeforeCompletion : String := "HTTP/1 request capture ended before message completion"
def completedWithoutResult : String := "HTTP/1 capture completed without a result"

def boundCapture (transactionId : TransactionId) : Option CaptureResult → BoundCapture
  | some (.ok message) => .complete transactionId message
  | some (.error reason) => .failed transactionId reason
  | none => .failed transactionId completedWithoutResult

def boundRecord (record : RequestRecord) : Option BoundCapture :=
  record.transactionId.map (fun transactionId => boundCapture transactionId record.result)

namespace RequestCaptureState

-- The state a connection starts from.
def new (maximumHeadBytes maximumContentBytes maximumRecords : Nat) (nonzero : maximumRecords ≠ 0) :
    RequestCaptureState :=
  {framer := Http1Framer.new .request maximumHeadBytes (saturatingAdd maximumHeadBytes maximumContentBytes)
   records := [],droppedTail := 0,maximumRecords := maximumRecords,nonzero := nonzero,enabled := true,eof := false}

-- The last two conditions of the let chains: the record leaves the queue, and
-- what it is bound to is told.
def release (state : RequestCaptureState) (index : Nat) : RequestCaptureState × List BoundCapture :=
  ({state with records := state.records.eraseIdx index},(state.records[index]?.bind boundRecord).toList)

def setResult (state : RequestCaptureState) (sequence : Nat) (result : CaptureResult) :
    RequestCaptureState × List BoundCapture :=
  match state.records.findIdx? (fun record => record.sequence == sequence) with
  | none => (state,[])
  | some index =>
      let state := {state with records := state.records.modify index ({· with result := some result})}
      if state.records[index]?.any (·.transactionId.isSome) then state.release index else (state,[])

def applyEvent (state : RequestCaptureState) : FramerEvent → RequestCaptureState × List BoundCapture
  | .started sequence =>
      if state.droppedTail > 0 ∨ state.records.length = state.maximumRecords then
        ({state with droppedTail := saturatingAdd state.droppedTail 1},[])
      else ({state with records := state.records ++ [⟨sequence,none,none⟩]},[])
  | .complete sequence message => state.setResult sequence (.ok message)
  | .failed sequence error => state.setResult sequence (.error (errorText error))

def applyEvents : RequestCaptureState → List FramerEvent → RequestCaptureState × List BoundCapture :=
  feedEach applyEvent

-- What the framer makes of one read.
def hear (framer : Http1Framer) (bytes : List UInt8) (eof : Bool) : Http1Framer × List FramerEvent :=
  let pushed := framer.push bytes
  if eof then (pushed.1.eof.1,pushed.2 ++ pushed.1.eof.2) else pushed

def observe (state : RequestCaptureState) (bytes : List UInt8) (eof : Bool) :
    RequestCaptureState × List BoundCapture :=
  if !state.enabled || state.eof then (state,[])
  else
    let heard := hear state.framer bytes eof
    applyEvents {state with framer := heard.1,eof := eof} heard.2

def bind (state : RequestCaptureState) (transactionId : TransactionId) : RequestCaptureState × List BoundCapture :=
  match state.records.findIdx? (·.transactionId.isNone) with
  | some index =>
      let state := {state with records := state.records.modify index ({· with transactionId := some transactionId})}
      if state.records[index]?.any (·.result.isSome) then state.release index else (state,[])
  | none =>
      if state.droppedTail > 0 then
        ({state with droppedTail := state.droppedTail - 1},[.failed transactionId correlationLimitExceeded])
      else (state,[.failed transactionId requestHeadNotObserved])

def abort (state : RequestCaptureState) : RequestCaptureState × List BoundCapture :=
  ({state with enabled := false,eof := true,framer := state.framer.discard,records := []},
    state.records.filterMap (fun record => record.transactionId.map (.failed · endedBeforeCompletion)))

end RequestCaptureState

-- The reader and the HTTP service take the lock in any order.
inductive Action where
  | observe (bytes : List UInt8) (eof : Bool)
  | bind (transactionId : TransactionId)
  deriving DecidableEq, Repr

def perform (state : RequestCaptureState) : Action → RequestCaptureState × List BoundCapture
  | .observe bytes eof => state.observe bytes eof
  | .bind transactionId => state.bind transactionId

def run : RequestCaptureState → List Action → RequestCaptureState × List BoundCapture := feedEach perform

-- Everything the connection hears of its captures, the final abort included.
def captures (state : RequestCaptureState) (actions : List Action) : List BoundCapture :=
  let final := run state actions
  final.2 ++ final.1.abort.2

def Action.bound? : Action → Option TransactionId
  | .observe _ _ => none
  | .bind transactionId => some transactionId

def bound (actions : List Action) : List TransactionId := actions.filterMap Action.bound?

-- The framer on its own, over the reads up to the end of the stream.
structure Watch where
  framer : Http1Framer
  ended : Bool

def Watch.next (watch : Watch) : Action → Watch × List FramerEvent
  | .observe bytes eof =>
      if watch.ended then (watch,[])
      else
        let heard := RequestCaptureState.hear watch.framer bytes eof
        (⟨heard.1,eof⟩,heard.2)
  | .bind _ => (watch,[])

def watch (framer : Http1Framer) (actions : List Action) : Watch × List FramerEvent :=
  feedEach Watch.next ⟨framer,false⟩ actions

def watchedEvents (framer : Http1Framer) (actions : List Action) : List FramerEvent := (watch framer actions).2

def isStarted : FramerEvent → Bool
  | .started _ => true
  | _ => false

def startedCount (events : List FramerEvent) : Nat := events.countP isStarted

-- Each bind comes after the framer has started the message it stands for.
def Timely (framer : Http1Framer) (actions : List Action) : Prop :=
  ∀ before transactionId after, actions = before ++ .bind transactionId :: after →
    (bound before).length < startedCount (watchedEvents framer before)

end Freja.Capture
