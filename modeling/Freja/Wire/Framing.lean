import Freja.Foundation.Bytes
import Freja.Foundation.Transducer

namespace Freja.Framing
open Bytes Transducer

def informationalStatusStart : Nat := 100
def successStatusStart : Nat := 200
def redirectionStatusStart : Nat := 300
def switchingProtocolsStatus : Nat := 101
def noContentStatus : Nat := 204
def resetContentStatus : Nat := 205
def notModifiedStatus : Nat := 304
def hexRadix : Nat := 16

structure ResponseContext where
  requestWasHead : Bool
  requestWasConnect : Bool
  deriving DecidableEq, Repr

inductive MessageRole where
  | request
  | response (context : ResponseContext)
  deriving DecidableEq, Repr

structure WireMessage where
  bytes : List UInt8
  observedBytes : Nat
  truncated : Bool
  informational : Bool
  deriving DecidableEq, Repr

inductive WireFramingError where
  | headTooLarge (maximum : Nat)
  | invalidStartLine
  | invalidHeaderLine
  | transferEncodingWithContentLength
  | unsupportedTransferEncoding
  | invalidContentLength
  | conflictingContentLength
  | invalidChunkSize
  | chunkSizeOverflow
  | invalidChunkTerminator
  | trailersTooLarge (maximum : Nat)
  | unexpectedEof
  deriving DecidableEq, Repr

inductive FramerEvent where
  | started (sequence : Nat)
  | complete (sequence : Nat) (message : WireMessage)
  | failed (sequence : Nat) (error : WireFramingError)
  deriving DecidableEq, Repr

-- A counted body state is only entered with bytes still to come.
inductive State where
  | head
  | fixedBody (remaining : Nat) (pending : remaining ≠ 0) (informational : Bool)
  | chunkSize (line : List UInt8)
  | chunkData (remaining : Nat) (pending : remaining ≠ 0)
  | chunkDataTerminator (matched : Nat)
  | trailers (line : List UInt8) (observed : Nat)
  | closeDelimited
  | failed
  deriving DecidableEq, Repr

inductive BodyFraming where
  | none (informational : Bool)
  | fixed (length : Nat)
  | chunked
  | closeDelimited
  deriving DecidableEq, Repr

structure Http1Framer where
  role : MessageRole
  maximumHeadBytes : Nat
  maximumCaptureBytes : Nat
  state : State
  sequence : Nat
  active : Bool
  head : List UInt8
  retained : List UInt8
  observed : Nat
  truncated : Bool
  deriving DecidableEq, Repr

def trimCr (line : List UInt8) : List UInt8 := (stripSuffix? line (ascii "\r")).getD line

def isOws (byte : UInt8) : Bool := byte == 32 || byte == 9

def trimOws (value : List UInt8) : List UInt8 :=
  ((value.dropWhile isOws).reverse.dropWhile isOws).reverse

def isTokenByte (byte : UInt8) : Bool := isAlphanumeric byte || (ascii "!#$%&'*+-.^_`|~").contains byte

def splitHeader (line : List UInt8) : Option (List UInt8 × List UInt8) :=
  let name := line.takeWhile (· != 58)
  if name.length = line.length then none
  else if name.isEmpty || !name.all isTokenByte then none
  else some (name,trimOws (line.drop (name.length + 1)))

def validHeaderLine (line : List UInt8) : Bool := (splitHeader line).isSome

def parseStatus (start : List UInt8) : Except WireFramingError Nat :=
  match start.splitOn 32 with
  | version :: status :: _ =>
      if !(version == ascii "HTTP/1.0" || version == ascii "HTTP/1.1") || status.length != 3 || !status.all isDigit then
        .error .invalidStartLine
      else
        match parseDecimal? 65535 status with
        | some value => .ok value
        | none => .error .invalidStartLine
  | _ => .error .invalidStartLine

def parseTransferEncoding (values : List (List UInt8)) : Except WireFramingError Bool :=
  if values.isEmpty then .ok false
  else
    let tokens := ((values.flatMap (·.splitOn 44)).map trimOws).filter (!·.isEmpty)
    match tokens with
    | [token] => if eqIgnoreAsciiCase token (ascii "chunked") then .ok true else .error .unsupportedTransferEncoding
    | _ => .error .unsupportedTransferEncoding

def readContentLength (expected : Option Nat) (value : List UInt8) : Except WireFramingError (Option Nat) :=
  if value.isEmpty || !value.all isDigit then .error .invalidContentLength
  else
    match parseDecimal? u64Max value with
    | none => .error .invalidContentLength
    | some parsed =>
        if expected.any (· != parsed) then .error .conflictingContentLength else .ok (some parsed)

def parseContentLength (values : List (List UInt8)) : Except WireFramingError (Option Nat) :=
  ((values.flatMap (·.splitOn 44)).map trimOws).foldlM readContentLength none

-- Each digit is one checked multiplication and one checked addition of u64.
def parseChunkDigit (value : Nat) (digit : UInt8) : Except WireFramingError Nat :=
  match hexValue? digit with
  | none => .error .invalidChunkSize
  | some numeric =>
      if value * hexRadix > u64Max then .error .chunkSizeOverflow
      else if value * hexRadix + numeric > u64Max then .error .chunkSizeOverflow
      else .ok (value * hexRadix + numeric)

def parseChunkSize (line : List UInt8) : Except WireFramingError Nat :=
  let digits := line.takeWhile (· != 59)
  if digits.isEmpty || !digits.all (fun digit => (hexValue? digit).isSome) then .error .invalidChunkSize
  else digits.foldlM parseChunkDigit 0

structure HeadFields where
  contentLengths : List (List UInt8)
  transferEncodings : List (List UInt8)
  deriving DecidableEq, Repr

def readHeaderLine (fields : HeadFields) (rawLine : List UInt8) : Except WireFramingError HeadFields :=
  match splitHeader (trimCr rawLine) with
  | none => .error .invalidHeaderLine
  | some (name,value) =>
      if eqIgnoreAsciiCase name (ascii "content-length") then
        .ok {fields with contentLengths := fields.contentLengths ++ [value]}
      else if eqIgnoreAsciiCase name (ascii "transfer-encoding") then
        .ok {fields with transferEncodings := fields.transferEncodings ++ [value]}
      else .ok fields

def isInformational (status : Nat) : Bool :=
  informationalStatusStart ≤ status && status < successStatusStart && status != switchingProtocolsStatus

def hasNoBody (context : ResponseContext) (status : Nat) : Bool :=
  context.requestWasHead || isInformational status ||
    [switchingProtocolsStatus,noContentStatus,resetContentStatus,notModifiedStatus].contains status ||
    (context.requestWasConnect && successStatusStart ≤ status && status < redirectionStatusStart)

def parseHead (head : List UInt8) (role : MessageRole) : Except WireFramingError BodyFraming := do
  let some content := stripSuffix? head (ascii "\r\n\r\n") | throw .invalidHeaderLine
  let lines := content.splitOn 10
  let some firstLine := lines.head? | throw .invalidStartLine
  let start := trimCr firstLine
  if start.isEmpty then throw .invalidStartLine
  let fields ← lines.tail.foldlM readHeaderLine ⟨[],[]⟩
  if !fields.contentLengths.isEmpty && !fields.transferEncodings.isEmpty then
    throw .transferEncodingWithContentLength
  let chunked ← parseTransferEncoding fields.transferEncodings
  let contentLength ← parseContentLength fields.contentLengths
  let bodiless ← match role with
    | .request => pure Option.none
    | .response context => do
        let status ← parseStatus start
        pure (if hasNoBody context status then some (isInformational status) else Option.none)
  match bodiless,chunked,contentLength,role with
  | some informational,_,_,_ => pure (.none informational)
  | none,true,_,_ => pure .chunked
  | none,false,some length,_ => pure (.fixed length)
  | none,false,none,.request => pure (.none false)
  | none,false,none,.response _ => pure .closeDelimited

namespace Http1Framer

variable {framer : Http1Framer}

def new (role : MessageRole) (maximumHeadBytes maximumCaptureBytes : Nat) : Http1Framer :=
  {role := role,maximumHeadBytes := maximumHeadBytes,maximumCaptureBytes := maximumCaptureBytes,state := .head,
   sequence := 0,active := false,head := [],retained := [],observed := 0,truncated := false}

-- The saturating addition also covers the conversion of the length to u64.
def appendBytes (framer : Http1Framer) (bytes : List UInt8) : Http1Framer :=
  let count := min (framer.maximumCaptureBytes - framer.retained.length) bytes.length
  {framer with
    observed := saturatingAdd framer.observed bytes.length
    retained := framer.retained ++ bytes.take count
    truncated := framer.truncated || decide (count < bytes.length)}

def reset (framer : Http1Framer) : Http1Framer :=
  {framer with
    state := .head,sequence := saturatingAdd framer.sequence 1,active := false
    head := [],retained := [],observed := 0,truncated := false}

def complete (framer : Http1Framer) (informational : Bool) : Http1Framer × List FramerEvent :=
  (framer.reset,[.complete framer.sequence ⟨framer.retained,framer.observed,framer.truncated,informational⟩])

def fail (framer : Http1Framer) (error : WireFramingError) : Http1Framer × List FramerEvent :=
  ({framer with state := .failed},[.failed framer.sequence error])

def discard (framer : Http1Framer) : Http1Framer :=
  {framer with state := .failed,active := false,head := [],retained := [],observed := 0,truncated := false}

def headByte (framer : Http1Framer) (byte : UInt8) : Http1Framer × List FramerEvent :=
  let framer := {framer.appendBytes [byte] with head := framer.head ++ [byte]}
  if framer.head.length > framer.maximumHeadBytes then framer.fail (.headTooLarge framer.maximumHeadBytes)
  else if (ascii "\r\n\r\n").isSuffixOf framer.head then
    match parseHead framer.head framer.role with
    | .ok (.none informational) => framer.complete informational
    | .ok (.fixed length) =>
        if pending : length ≠ 0 then ({framer with state := .fixedBody length pending false},[])
        else framer.complete false
    | .ok .chunked => ({framer with state := .chunkSize []},[])
    | .ok .closeDelimited => ({framer with state := .closeDelimited},[])
    | .error error => framer.fail error
  else (framer,[])

def chunkSizeByte (framer : Http1Framer) (line : List UInt8) (byte : UInt8) : Http1Framer × List FramerEvent :=
  let framer := framer.appendBytes [byte]
  let line := line ++ [byte]
  if line.length > framer.maximumHeadBytes then framer.fail (.trailersTooLarge framer.maximumHeadBytes)
  else if (ascii "\r\n").isSuffixOf line then
    match parseChunkSize (line.take (line.length - 2)) with
    | .ok remaining =>
        if pending : remaining ≠ 0 then ({framer with state := .chunkData remaining pending},[])
        else ({framer with state := .trailers [] 0},[])
    | .error error => framer.fail error
  else ({framer with state := .chunkSize line},[])

def terminatorByte (framer : Http1Framer) (matched : Nat) (byte : UInt8) : Http1Framer × List FramerEvent :=
  let framer := framer.appendBytes [byte]
  let expected := if matched = 0 then 13 else 10
  if byte ≠ expected then framer.fail .invalidChunkTerminator
  else if matched = 0 then ({framer with state := .chunkDataTerminator 1},[])
  else ({framer with state := .chunkSize []},[])

def trailerByte (framer : Http1Framer) (line : List UInt8) (observed : Nat) (byte : UInt8) :
    Http1Framer × List FramerEvent :=
  let framer := framer.appendBytes [byte]
  let observed := saturatingAdd observed 1
  let line := line ++ [byte]
  let framer := {framer with state := .trailers line observed}
  if observed > framer.maximumHeadBytes then framer.fail (.trailersTooLarge framer.maximumHeadBytes)
  else if (ascii "\r\n").isSuffixOf line then
    if line.length = 2 then framer.complete false
    else if validHeaderLine (line.take (line.length - 2)) then ({framer with state := .trailers [] observed},[])
    else framer.fail .invalidHeaderLine
  else (framer,[])

-- The two counted body states take as much of the input as is there and still
-- due. On the 64-bit targets of the proxy a u64 count converts to usize as is.
def countedBytes (framer : Http1Framer) (remaining : Nat) (input : List UInt8)
    (waiting : (left : Nat) → left ≠ 0 → State) (finished : Http1Framer → Http1Framer × List FramerEvent) :
    (Http1Framer × List FramerEvent) × List UInt8 :=
  let count := min input.length remaining
  let framer := framer.appendBytes (input.take count)
  if pending : remaining - count ≠ 0 then
    (({framer with state := waiting (remaining - count) pending},[]),input.drop count)
  else (finished framer,input.drop count)

-- One pass of the loop body over a nonempty input, with the input left over.
def consume (framer : Http1Framer) (byte : UInt8) (rest : List UInt8) :
    (Http1Framer × List FramerEvent) × List UInt8 :=
  match framer.state with
  | .head => (framer.headByte byte,rest)
  | .fixedBody remaining _ informational =>
      framer.countedBytes remaining (byte :: rest) (fun left pending => .fixedBody left pending informational)
        (fun framer => framer.complete informational)
  | .chunkSize line => (framer.chunkSizeByte line byte,rest)
  | .chunkData remaining _ =>
      framer.countedBytes remaining (byte :: rest) .chunkData
        (fun framer => ({framer with state := .chunkDataTerminator 0},[]))
  | .chunkDataTerminator matched => (framer.terminatorByte matched byte,rest)
  | .trailers line observed => (framer.trailerByte line observed byte,rest)
  | .closeDelimited => ((framer.appendBytes (byte :: rest),[]),[])
  | .failed => ((framer,[]),rest)

def started (framer : Http1Framer) : List FramerEvent :=
  if framer.active then [] else [.started framer.sequence]

def activate (framer : Http1Framer) : Http1Framer := {framer with active := true}

theorem consume_rest (framer : Http1Framer) (byte : UInt8) (rest : List UInt8) :
    (framer.consume byte rest).2.length ≤ rest.length := by
  unfold consume
  cases framer.state with
  | fixedBody | chunkData =>
      simp only [countedBytes]
      split <;> simp only [List.length_drop,List.length_cons] <;> omega
  | _ => simp

def push (framer : Http1Framer) : List UInt8 → Http1Framer × List FramerEvent
  | [] => (framer,[])
  | byte :: rest =>
      if framer.state = .failed then (framer,[])
      else
        let pass := framer.activate.consume byte rest
        let later := push pass.1.1 pass.2
        (later.1,framer.started ++ pass.1.2 ++ later.2)
termination_by input => input.length
decreasing_by exact Nat.lt_succ_of_le (consume_rest framer.activate byte rest)

def eof (framer : Http1Framer) : Http1Framer × List FramerEvent :=
  match framer.state with
  | .head => if framer.active then framer.fail .unexpectedEof else (framer,[])
  | .closeDelimited => framer.complete false
  | .failed => (framer,[])
  | _ => framer.fail .unexpectedEof

theorem push_nil (framer : Http1Framer) : framer.push [] = (framer,[]) := by rw [push]

theorem push_failed (failed : framer.state = .failed) (input : List UInt8) :
    push framer input = (framer,[]) := by
  cases input with
  | nil => exact push_nil framer
  | cons => rw [push,if_pos failed]

theorem push_cons (alive : framer.state ≠ .failed) (byte : UInt8) (rest : List UInt8) :
    push framer (byte :: rest) =
      andThen push ((framer.activate.consume byte rest).1.1,
        framer.started ++ (framer.activate.consume byte rest).1.2) (framer.activate.consume byte rest).2 := by
  rw [push,if_neg alive]
  simp [andThen]

theorem appendBytes_appendBytes (framer : Http1Framer) (early late : List UInt8) :
    (framer.appendBytes early).appendBytes late = framer.appendBytes (early ++ late) := by
  have counted (bytes : List UInt8) (room : Nat) : bytes.take (min room bytes.length) = bytes.take room := by
    rw [List.take_eq_take_iff]
    omega
  simp only [appendBytes,counted,Http1Framer.mk.injEq,true_and]
  refine ⟨?_,?_,?_⟩
  · rw [List.append_assoc,List.take_append]
    congr 2
    rw [List.take_eq_take_iff]
    simp only [List.length_append,List.length_take]
    omega
  · rw [saturatingAdd_assoc,List.length_append]
  · rw [Bool.eq_iff_iff]
    simp only [Bool.or_eq_true,decide_eq_true_eq,List.length_append,List.length_take,or_assoc]
    refine or_congr Iff.rfl ?_
    omega

@[simp] theorem activate_state (framer : Http1Framer) : framer.activate.state = framer.state := rfl

-- The states that look at one byte a pass leave the rest of the input untouched
-- and answer the same with any rest.
def Single (state : State) : Prop :=
  match state with
  | .fixedBody _ _ _ | .chunkData _ _ | .closeDelimited => False
  | _ => True

theorem consume_single (single : Single framer.state) (byte : UInt8) (rest : List UInt8) :
    framer.consume byte rest = ((framer.consume byte []).1,rest) := by
  unfold consume
  cases h : framer.state <;> simp_all [Single]

theorem push_peel_single (single : Single framer.state) (byte : UInt8) (rest : List UInt8) :
    push framer (byte :: rest) = andThen push (push framer [byte]) rest := by
  by_cases failed : framer.state = .failed
  · simp [push_failed failed,andThen]
  · have kept : Single framer.activate.state := single
    rw [push_cons failed,push_cons failed,consume_single kept byte rest]
    rw [consume_single kept byte [],andThen,andThen,andThen,push_nil]
    simp

theorem countedBytes_last (framer : Http1Framer) (byte : UInt8) (rest : List UInt8)
    (waiting : (left : Nat) → left ≠ 0 → State) (finished : Http1Framer → Http1Framer × List FramerEvent) :
    framer.countedBytes 1 (byte :: rest) waiting finished = (finished (framer.appendBytes [byte]),rest) := by
  have one : min (rest.length + 1) 1 = 1 := by omega
  simp only [countedBytes,List.length_cons,one]
  simp

theorem countedBytes_first (framer : Http1Framer) (byte : UInt8) (left : Nat) (more : left ≠ 0)
    (waiting : (left : Nat) → left ≠ 0 → State) (finished : Http1Framer → Http1Framer × List FramerEvent) :
    framer.countedBytes (left + 1) [byte] waiting finished =
      (({framer.appendBytes [byte] with state := waiting left more},[]),[]) := by
  have one : min 1 (left + 1) = 1 := by omega
  simp only [countedBytes,List.length_singleton,one]
  simp [more]

-- What a counted state does with its first byte only shows in the retained
-- bytes and the count, so the rest of the pass can be taken from there.
theorem countedBytes_peel (framer : Http1Framer) (state : State) (byte : UInt8) (rest : List UInt8) (left : Nat)
    (waiting : (left : Nat) → left ≠ 0 → State) (finished : Http1Framer → Http1Framer × List FramerEvent)
    (blind : ∀ framer state, finished {framer with state := state} = finished framer) :
    framer.countedBytes (left + 1) (byte :: rest) waiting finished =
      countedBytes {framer.appendBytes [byte] with state := state} left rest waiting finished := by
  have moved (bytes : List UInt8) : appendBytes {framer.appendBytes [byte] with state := state} bytes =
      {framer.appendBytes (byte :: bytes) with state := state} := by
    have joined := appendBytes_appendBytes framer [byte] bytes
    rw [List.singleton_append] at joined
    rw [← joined]
    rfl
  simp only [countedBytes,List.length_cons,Nat.add_min_add_right,List.take_succ_cons,List.drop_succ_cons,
    Nat.add_sub_add_right,moved,blind]

theorem push_peel_counted (byte : UInt8) (rest : List UInt8)
    (waiting : (left : Nat) → left ≠ 0 → State) (finished : Http1Framer → Http1Framer × List FramerEvent)
    (counted : ∀ (framer : Http1Framer) remaining pending byte rest, framer.state = waiting remaining pending →
      framer.consume byte rest = framer.countedBytes remaining (byte :: rest) waiting finished)
    (blind : ∀ framer state, finished {framer with state := state} = finished framer)
    (alive : ∀ remaining pending, waiting remaining pending ≠ .failed)
    (here : framer.state = waiting remaining pending) :
    push framer (byte :: rest) = andThen push (push framer [byte]) rest := by
  have awake : framer.state ≠ .failed := here ▸ alive _ _
  have active : framer.activate.state = waiting remaining pending := here
  rw [push_cons awake,push_cons awake,counted _ _ _ _ _ active,counted _ _ _ _ _ active]
  obtain _ | left := remaining
  · exact absurd rfl pending
  obtain _ | less := left
  · simp [countedBytes_last,andThen,push_nil]
  · have more : less + 1 ≠ 0 := Nat.succ_ne_zero less
    rw [countedBytes_first _ _ _ more]
    cases rest with
    | nil => simp [countedBytes_first _ _ _ more,andThen,push_nil]
    | cons =>
        rw [countedBytes_peel _ (waiting (less + 1) more) _ _ _ _ _ blind]
        simp only [andThen,push_nil]
        rw [push_cons (alive _ _),counted _ (less + 1) more _ _ rfl]
        simp [andThen,activate,started,appendBytes]

theorem push_closed (closed : framer.state = .closeDelimited) (byte : UInt8) (rest : List UInt8) :
    push framer (byte :: rest) = (framer.activate.appendBytes (byte :: rest),framer.started) := by
  have awake : framer.state ≠ .failed := by simp [closed]
  rw [push_cons awake]
  simp [consume,closed,andThen,push_nil]

theorem push_peel_closed (closed : framer.state = .closeDelimited) (byte : UInt8) (rest : List UInt8) :
    push framer (byte :: rest) = andThen push (push framer [byte]) rest := by
  rw [push_closed closed,push_closed closed]
  cases rest with
  | nil => simp [andThen,push_nil]
  | cons next later =>
      have still : (framer.activate.appendBytes [byte]).state = .closeDelimited := closed
      have joined := appendBytes_appendBytes framer.activate [byte] (next :: later)
      rw [andThen,push_closed still]
      change _ = ((framer.activate.appendBytes [byte]).appendBytes (next :: later),framer.started ++ [])
      rw [joined,List.append_nil,List.singleton_append]

theorem push_peel (framer : Http1Framer) (byte : UInt8) (rest : List UInt8) :
    push framer (byte :: rest) = andThen push (push framer [byte]) rest := by
  cases here : framer.state with
  | fixedBody remaining pending informational =>
      refine push_peel_counted byte rest (fun left pending => .fixedBody left pending informational)
        (fun framer => framer.complete informational) ?_ (fun _ _ => rfl) (fun _ _ => by simp) here
      intro framer remaining pending byte rest here
      simp [consume,here]
  | chunkData remaining pending =>
      refine push_peel_counted byte rest .chunkData
        (fun framer => ({framer with state := .chunkDataTerminator 0},[])) ?_ (fun _ _ => rfl) (fun _ _ => by simp) here
      intro framer remaining pending byte rest here
      simp [consume,here]
  | closeDelimited => exact push_peel_closed here byte rest
  | _ => exact push_peel_single (by rw [here]; trivial) byte rest

theorem push_bytewise : Bytewise push := ⟨push_nil,push_peel⟩

-- A whole exchange: the pushes of one connection direction in their order, and
-- then the end of the stream.
def observe (framer : Http1Framer) (pushes : List (List UInt8)) : Http1Framer × List FramerEvent :=
  let pushed := feedChunks push framer pushes
  (pushed.1.eof.1,pushed.2 ++ pushed.1.eof.2)

theorem observe_split_independent (role : MessageRole) (maximumHeadBytes maximumCaptureBytes : Nat)
    (pushes : List (List UInt8)) :
    let framer := new role maximumHeadBytes maximumCaptureBytes
    let whole := framer.push pushes.flatten
    feedChunks push framer pushes = whole ∧
      framer.observe pushes = (whole.1.eof.1,whole.2 ++ whole.1.eof.2) := by
  intro framer whole
  have chunked : feedChunks push framer pushes = whole := push_bytewise.chunks framer pushes
  exact ⟨chunked,by simp only [observe,chunked]⟩

end Http1Framer

end Freja.Framing
