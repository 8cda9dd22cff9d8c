import Freja.Wire.Framing

namespace Freja.Framing
open Bytes Transducer

-- What one byte means for the message it belongs to.
inductive Verdict where
  | more (state : State)
  | done (informational : Bool)
  | broken (error : WireFramingError)
  deriving DecidableEq, Repr

namespace Verdict

def ofFraming : Except WireFramingError BodyFraming → Verdict
  | .ok (.none informational) => .done informational
  | .ok (.fixed length) => if pending : length ≠ 0 then .more (.fixedBody length pending false) else .done false
  | .ok .chunked => .more (.chunkSize [])
  | .ok .closeDelimited => .more .closeDelimited
  | .error error => .broken error

def ofHead (role : MessageRole) (maximum : Nat) (head : List UInt8) : Verdict :=
  if head.length > maximum then .broken (.headTooLarge maximum)
  else if (ascii "\r\n\r\n").isSuffixOf head then ofFraming (parseHead head role)
  else .more .head

def ofSize : Except WireFramingError Nat → Verdict
  | .ok remaining =>
      if pending : remaining ≠ 0 then .more (.chunkData remaining pending) else .more (.trailers [] 0)
  | .error error => .broken error

def ofSizeLine (maximum : Nat) (line : List UInt8) : Verdict :=
  if line.length > maximum then .broken (.trailersTooLarge maximum)
  else if (ascii "\r\n").isSuffixOf line then ofSize (parseChunkSize (line.take (line.length - 2)))
  else .more (.chunkSize line)

def ofTerminator (matched : Nat) (byte : UInt8) : Verdict :=
  if byte ≠ (if matched = 0 then 13 else 10) then .broken .invalidChunkTerminator
  else if matched = 0 then .more (.chunkDataTerminator 1)
  else .more (.chunkSize [])

def ofTrailer (maximum : Nat) (line : List UInt8) (observed : Nat) : Verdict :=
  if observed > maximum then .broken (.trailersTooLarge maximum)
  else if (ascii "\r\n").isSuffixOf line then
    if line.length = 2 then .done false
    else if validHeaderLine (line.take (line.length - 2)) then .more (.trailers [] observed)
    else .broken .invalidHeaderLine
  else .more (.trailers line observed)

def counted (remaining : Nat) (waiting : (left : Nat) → left ≠ 0 → State) (finished : Verdict) : Verdict :=
  if pending : remaining - 1 ≠ 0 then .more (waiting (remaining - 1) pending) else finished

end Verdict

namespace Http1Framer

variable {framer : Http1Framer}

-- The decision rests on the state and on the head so far, not on what is retained.
def verdict (framer : Http1Framer) (byte : UInt8) : Verdict :=
  match framer.state with
  | .head => .ofHead framer.role framer.maximumHeadBytes (framer.head ++ [byte])
  | .fixedBody remaining _ informational =>
      .counted remaining (fun left pending => .fixedBody left pending informational) (.done informational)
  | .chunkSize line => .ofSizeLine framer.maximumHeadBytes (line ++ [byte])
  | .chunkData remaining _ => .counted remaining .chunkData (.more (.chunkDataTerminator 0))
  | .chunkDataTerminator matched => .ofTerminator matched byte
  | .trailers line observed => .ofTrailer framer.maximumHeadBytes (line ++ [byte]) (saturatingAdd observed 1)
  | .closeDelimited => .more .closeDelimited
  | .failed => .more .failed

-- The framer with the byte taken up.
def heard (framer : Http1Framer) (byte : UInt8) : Http1Framer :=
  {framer.activate.appendBytes [byte] with
    head := if framer.state = .head then framer.head ++ [byte] else framer.head}

def settle (framer : Http1Framer) : Verdict → Http1Framer × List FramerEvent
  | .more state => ({framer with state := state},[])
  | .done informational => framer.complete informational
  | .broken error => framer.fail error

theorem settle_ofFraming (framer : Http1Framer) (outcome : Except WireFramingError BodyFraming) :
    (match outcome with
      | .ok (.none informational) => framer.complete informational
      | .ok (.fixed length) =>
          if pending : length ≠ 0 then ({framer with state := .fixedBody length pending false},[])
          else framer.complete false
      | .ok .chunked => ({framer with state := .chunkSize []},[])
      | .ok .closeDelimited => ({framer with state := .closeDelimited},[])
      | .error error => framer.fail error) = framer.settle (.ofFraming outcome) := by
  cases outcome with
  | error => rfl
  | ok framing =>
      cases framing with
      | fixed length =>
          rw [Verdict.ofFraming,apply_dite framer.settle]
          rfl
      | _ => rfl

theorem settle_ofSize (framer : Http1Framer) (outcome : Except WireFramingError Nat) :
    (match outcome with
      | .ok remaining =>
          if pending : remaining ≠ 0 then ({framer with state := .chunkData remaining pending},[])
          else ({framer with state := .trailers [] 0},[])
      | .error error => framer.fail error) = framer.settle (.ofSize outcome) := by
  cases outcome with
  | error => rfl
  | ok remaining =>
      rw [Verdict.ofSize,apply_dite framer.settle]
      rfl

theorem heard_head (here : framer.state = .head) (byte : UInt8) :
    framer.heard byte = {framer.activate.appendBytes [byte] with head := framer.head ++ [byte]} := by
  simp only [heard,here,if_true]

theorem heard_body (elsewhere : framer.state ≠ .head) (byte : UInt8) :
    framer.heard byte = framer.activate.appendBytes [byte] := by
  simp only [heard,elsewhere,if_false]
  rfl

theorem settle_ite (framer : Http1Framer) (condition : Prop) [Decidable condition] (first second : Verdict) :
    framer.settle (if condition then first else second) =
      if condition then framer.settle first else framer.settle second :=
  apply_ite framer.settle condition first second

theorem headByte_settle (here : framer.state = .head) (byte : UInt8) :
    framer.activate.headByte byte = (framer.heard byte).settle (framer.verdict byte) := by
  have same : (framer.heard byte).settle (.more .head) = (framer.heard byte,[]) := by
    rw [heard_head here]
    simp only [settle,appendBytes,activate,here]
  simp only [verdict,here,Verdict.ofHead,settle_ite,same,← settle_ofFraming]
  rw [heard_head here]
  rfl

theorem chunkSizeByte_settle (here : framer.state = .chunkSize line) (byte : UInt8) :
    framer.activate.chunkSizeByte line byte = (framer.heard byte).settle (framer.verdict byte) := by
  have elsewhere : framer.state ≠ .head := by simp [here]
  simp only [verdict,here,Verdict.ofSizeLine,settle_ite,← settle_ofSize,heard_body elsewhere]
  rfl

theorem terminatorByte_settle (here : framer.state = .chunkDataTerminator matched) (byte : UInt8) :
    framer.activate.terminatorByte matched byte = (framer.heard byte).settle (framer.verdict byte) := by
  have elsewhere : framer.state ≠ .head := by simp [here]
  simp only [verdict,here,Verdict.ofTerminator,settle_ite,heard_body elsewhere]
  rfl

theorem trailerByte_settle (line : List UInt8) (observed : Nat) (here : framer.state = .trailers line observed)
    (byte : UInt8) :
    framer.activate.trailerByte line observed byte = (framer.heard byte).settle (framer.verdict byte) := by
  have elsewhere : framer.state ≠ .head := by simp [here]
  simp only [verdict,here,Verdict.ofTrailer,settle_ite,heard_body elsewhere]
  rfl

theorem countedBytes_settle (framer : Http1Framer) (byte : UInt8) (waiting : (left : Nat) → left ≠ 0 → State)
    (finished : Verdict) (finish : Http1Framer → Http1Framer × List FramerEvent)
    (finishes : finish (framer.appendBytes [byte]) = (framer.appendBytes [byte]).settle finished)
    (remaining : Nat) (pending : remaining ≠ 0) :
    framer.countedBytes remaining [byte] waiting finish =
      ((framer.appendBytes [byte]).settle (.counted remaining waiting finished),[]) := by
  obtain _ | left := remaining
  · exact absurd rfl pending
  by_cases more : left = 0
  · subst more
    rw [countedBytes_last,finishes]
    rfl
  · rw [countedBytes_first _ _ _ more]
    have due : left + 1 - 1 ≠ 0 := more
    simp only [Verdict.counted,dif_pos due,settle]
    rfl

theorem consume_settle (alive : framer.state ≠ .failed) (byte : UInt8) :
    framer.activate.consume byte [] = ((framer.heard byte).settle (framer.verdict byte),[]) := by
  unfold consume
  rw [activate_state]
  cases here : framer.state with
  | head => exact congrArg (·,[]) (headByte_settle here byte)
  | fixedBody remaining pending informational =>
      rw [heard_body (by rw [here]; exact State.noConfusion)]
      simp only [verdict,here]
      exact countedBytes_settle framer.activate byte _ (.done informational) _ rfl remaining pending
  | chunkSize => exact congrArg (·,[]) (chunkSizeByte_settle here byte)
  | chunkData remaining pending =>
      rw [heard_body (by rw [here]; exact State.noConfusion)]
      simp only [verdict,here]
      exact countedBytes_settle framer.activate byte _ (.more (.chunkDataTerminator 0)) _ rfl remaining pending
  | chunkDataTerminator => exact congrArg (·,[]) (terminatorByte_settle here byte)
  | trailers line observed => exact congrArg (·,[]) (trailerByte_settle line observed here byte)
  | closeDelimited =>
      rw [heard_body (by rw [here]; exact State.noConfusion)]
      simp only [verdict,here,settle,appendBytes,activate]
  | failed => exact absurd here alive

theorem push_single (alive : framer.state ≠ .failed) (byte : UInt8) :
    framer.push [byte] = (((framer.heard byte).settle (framer.verdict byte)).1,
      framer.started ++ ((framer.heard byte).settle (framer.verdict byte)).2) := by
  rw [push_cons alive,consume_settle alive]
  simp [andThen,push_nil]

-- The framer as a machine that takes one byte at a time.
def step (framer : Http1Framer) (byte : UInt8) : Http1Framer × List FramerEvent :=
  if framer.state = .failed then (framer,[])
  else
    let settled := (framer.heard byte).settle (framer.verdict byte)
    (settled.1,framer.started ++ settled.2)

def steps (framer : Http1Framer) : List UInt8 → Http1Framer × List FramerEvent
  | [] => (framer,[])
  | byte :: rest =>
      let now := framer.step byte
      let later := now.1.steps rest
      (later.1,now.2 ++ later.2)

theorem push_step (framer : Http1Framer) (byte : UInt8) : framer.push [byte] = framer.step byte := by
  unfold step
  split
  · rename_i failed
    exact push_failed failed [byte]
  · rename_i alive
    exact push_single alive byte

theorem push_steps (framer : Http1Framer) (input : List UInt8) : framer.push input = framer.steps input := by
  induction input generalizing framer with
  | nil => exact push_nil framer
  | cons byte rest ih =>
      rw [push_peel,push_step,andThen,ih]
      rfl

end Http1Framer

end Freja.Framing
