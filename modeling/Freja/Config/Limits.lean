import Freja.Foundation.Bytes

namespace Freja.Config

-- The checks that concern sizes and counts, for the sizes of a 64-bit target.
inductive ValidationError where
  | zeroLimit (name : String)
  | uiRowsBelowPausedFlows (uiRetainedRows pausedFlows : UInt64)
  | wireCaptureLimitOverflow
  | capturePrefixExceedsBodyLimit (captureBytes bodyPrefixBytes : UInt64)
  deriving DecidableEq, Repr

def ValidationError.text : ValidationError → String
  | .zeroLimit name => "limit " ++ name ++ " must be non-zero"
  | .uiRowsBelowPausedFlows uiRetainedRows pausedFlows =>
      "limits.ui_retained_rows (" ++ toString uiRetainedRows ++ ") must be at least limits.paused_flows (" ++
        toString pausedFlows ++ ")"
  | .wireCaptureLimitOverflow => "combined limits.header_bytes and limits.ui_content_bytes overflow usize"
  | .capturePrefixExceedsBodyLimit captureBytes bodyPrefixBytes =>
      "capture prefix " ++ toString captureBytes ++ " exceeds body-prefix limit " ++ toString bodyPrefixBytes

structure NonZero where
  value : UInt64
  nonzero : value ≠ 0
  deriving DecidableEq, Repr

def NonZero.get (count : NonZero) : Nat := count.value.toNat

def nonzeroCount (name : String) (value : UInt64) : Except ValidationError NonZero :=
  if zero : value = 0 then .error (.zeroLimit name) else .ok ⟨value,zero⟩

theorem one_nonzero : (1 : UInt64) ≠ 0 := by decide

-- A count of at least one.
def NonZero.ofUInt32 (count : UInt32) : NonZero :=
  if nonzero : count.toUInt64 ≠ 0 then ⟨count.toUInt64,nonzero⟩ else ⟨1,one_nonzero⟩

theorem NonZero.ofUInt32_small (count : UInt32) : (NonZero.ofUInt32 count).get < 4294967296 := by
  unfold ofUInt32
  split
  · exact count.toNat_lt
  · decide

structure RawLimits where
  connections : UInt64
  headerBytes : UInt64
  bodyPrefixBytes : UInt64
  connectTimeoutMs : UInt64
  readTimeoutMs : UInt64
  idleTimeoutMs : UInt64
  pausedFlows : UInt64
  interceptionTimeoutMs : UInt64
  uiEventCapacity : UInt64
  uiContentBytes : UInt64
  uiRetainedRows : UInt64
  deriving DecidableEq, Repr

structure Limits where
  connections : NonZero
  headerBytes : NonZero
  bodyPrefixBytes : NonZero
  connectTimeout : NonZero
  readTimeout : NonZero
  idleTimeout : NonZero
  pausedFlows : NonZero
  interceptionTimeout : NonZero
  uiEventCapacity : NonZero
  uiContentBytes : NonZero
  uiRetainedRows : NonZero
  rows : pausedFlows.get ≤ uiRetainedRows.get
  wireCapture : headerBytes.get + uiContentBytes.get ≤ Bytes.u64Max
  deriving DecidableEq, Repr

theorem uniform_fits (count : UInt32) :
    (NonZero.ofUInt32 count).get + (NonZero.ofUInt32 count).get ≤ Bytes.u64Max := by
  have small := NonZero.ofUInt32_small count
  unfold Bytes.u64Max
  omega

def Limits.uniform (count : UInt32) : Limits :=
  let each := NonZero.ofUInt32 count
  ⟨each,each,each,each,each,each,each,each,each,each,each,Nat.le_refl _,uniform_fits count⟩

def Limits.tryFrom (raw : RawLimits) : Except ValidationError Limits := do
  let connections ← nonzeroCount "connections" raw.connections
  let headerBytes ← nonzeroCount "header_bytes" raw.headerBytes
  let bodyPrefixBytes ← nonzeroCount "body_prefix_bytes" raw.bodyPrefixBytes
  let pausedFlows ← nonzeroCount "paused_flows" raw.pausedFlows
  let uiEventCapacity ← nonzeroCount "ui_event_capacity" raw.uiEventCapacity
  let uiContentBytes ← nonzeroCount "ui_content_bytes" raw.uiContentBytes
  let uiRetainedRows ← nonzeroCount "ui_retained_rows" raw.uiRetainedRows
  let connectTimeout ← nonzeroCount "connect_timeout_ms" raw.connectTimeoutMs
  let readTimeout ← nonzeroCount "read_timeout_ms" raw.readTimeoutMs
  let idleTimeout ← nonzeroCount "idle_timeout_ms" raw.idleTimeoutMs
  let interceptionTimeout ← nonzeroCount "interception_timeout_ms" raw.interceptionTimeoutMs
  if rows : pausedFlows.get ≤ uiRetainedRows.get then
    if wireCapture : headerBytes.get + uiContentBytes.get ≤ Bytes.u64Max then
      return {connections,headerBytes,bodyPrefixBytes,connectTimeout,readTimeout,idleTimeout,pausedFlows
              interceptionTimeout,uiEventCapacity,uiContentBytes,uiRetainedRows,rows,wireCapture}
    else .error .wireCaptureLimitOverflow
  else .error (.uiRowsBelowPausedFlows raw.uiRetainedRows raw.pausedFlows)

inductive RawCapturePolicy where
  | metadataOnly
  | upTo (maxBytes : UInt64)
  deriving DecidableEq, Repr

inductive CapturePolicy where
  | metadataOnly
  | upTo (maxBytes : NonZero)
  deriving DecidableEq, Repr

def CapturePolicy.tryFrom (raw : RawCapturePolicy) (bodyPrefixBytes : NonZero) : Except ValidationError CapturePolicy :=
  match raw with
  | .metadataOnly => .ok .metadataOnly
  | .upTo maxBytes =>
      if maxBytes > bodyPrefixBytes.value then .error (.capturePrefixExceedsBodyLimit maxBytes bodyPrefixBytes.value)
      else (nonzeroCount "capture.max_bytes" maxBytes).map .upTo

theorem CapturePolicy.tryFrom_upTo (validated : CapturePolicy.tryFrom raw bodyPrefixBytes = .ok (.upTo maxBytes)) :
    maxBytes.get ≤ bodyPrefixBytes.get ∧ maxBytes.get ≤ Bytes.u64Max := by
  unfold tryFrom at validated
  split at validated
  · cases validated
  · rename_i requested
    split at validated
    · cases validated
    · rename_i within
      unfold nonzeroCount at validated
      split at validated
      · cases validated
      · cases validated
        have small := requested.toNat_lt
        refine ⟨UInt64.le_iff_toNat_le.mp (UInt64.not_lt.mp within),?_⟩
        change requested.toNat ≤ 0xffffffffffffffff
        omega

end Freja.Config
