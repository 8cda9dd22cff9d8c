import Mathlib.Data.List.Basic

namespace Freja.IpAddress

inductive IpAddr where
  | v4 (a b c d : UInt8)
  | v6 (segments : List UInt16) (eight : segments.length = 8)
  deriving DecidableEq, Repr

namespace IpAddr

def ofSegments (a b c d e f g h : UInt16) : IpAddr := .v6 [a,b,c,d,e,f,g,h] rfl

def width : IpAddr → Nat
  | .v4 _ _ _ _ => 32
  | .v6 _ _ => 128

def toNat : IpAddr → Nat
  | .v4 a b c d => [a,b,c,d].foldl (fun value octet => value * 256 + octet.toNat) 0
  | .v6 segments _ => segments.foldl (fun value segment => value * 65536 + segment.toNat) 0

def firstSegment (segments : List UInt16) : UInt16 := segments.headD 0

def isUnspecified (address : IpAddr) : Bool := address.toNat == 0

def isMulticast : IpAddr → Bool
  | .v4 a _ _ _ => 224 ≤ a && a ≤ 239
  | .v6 segments _ => firstSegment segments &&& 0xff00 == 0xff00

def isLoopback : IpAddr → Bool
  | .v4 a _ _ _ => a == 127
  | .v6 segments _ => segments == [0,0,0,0,0,0,0,1]

def isLinkLocal : IpAddr → Bool
  | .v4 a b _ _ => a == 169 && b == 254
  | .v6 segments _ => firstSegment segments &&& 0xffc0 == 0xfe80

-- The private ranges of IPv4 and the unique-local range of IPv6.
def isPrivate : IpAddr → Bool
  | .v4 a b _ _ => a == 10 || (a == 172 && 16 ≤ b && b ≤ 31) || (a == 192 && b == 168)
  | .v6 segments _ => firstSegment segments &&& 0xfe00 == 0xfc00

-- The IPv6 notation of an IPv4 address.
def toIpv6Mapped (a b c d : UInt8) : IpAddr :=
  .ofSegments 0 0 0 0 0 0xffff (UInt16.ofNat (a.toNat * 256 + b.toNat)) (UInt16.ofNat (c.toNat * 256 + d.toNat))

theorem isUnspecified_v4 (a b c d : UInt8) :
    (IpAddr.v4 a b c d).isUnspecified = true ↔ a = 0 ∧ b = 0 ∧ c = 0 ∧ d = 0 := by
  simp only [isUnspecified,toNat,List.foldl_cons,List.foldl_nil,beq_iff_eq,← UInt8.toNat_inj]
  change _ ↔ a.toNat = 0 ∧ b.toNat = 0 ∧ c.toNat = 0 ∧ d.toNat = 0
  omega

theorem isUnspecified_mapped (a b c d : UInt8) : (toIpv6Mapped a b c d).isUnspecified = false := by
  simp only [isUnspecified,toNat,toIpv6Mapped,ofSegments,List.foldl_cons,List.foldl_nil,beq_eq_false_iff_ne]
  have marked : (0xffff : UInt16).toNat = 65535 := rfl
  omega

end IpAddr

structure IpNet where
  address : IpAddr
  prefixLength : Nat
  fits : prefixLength ≤ address.width
  deriving DecidableEq, Repr

def IpNet.contains (network : IpNet) (address : IpAddr) : Bool :=
  network.address.width == address.width &&
    network.address.toNat >>> (network.address.width - network.prefixLength) ==
      address.toNat >>> (network.address.width - network.prefixLength)

def decimal (octet : UInt8) : List Char := Nat.toDigits 10 octet.toNat

def hexadecimal (segment : UInt16) : List Char := Nat.toDigits 16 segment.toNat

def formatV4 (a b c d : UInt8) : List Char :=
  decimal a ++ '.' :: decimal b ++ '.' :: decimal c ++ '.' :: decimal d

def formatSegments (segments : List UInt16) : List Char :=
  [':'].intercalate (segments.map hexadecimal)

structure Span where
  start : Nat
  length : Nat
  deriving DecidableEq, Repr

structure SpanSearch where
  longest : Span
  current : Span
  deriving DecidableEq, Repr

def SpanSearch.next (search : SpanSearch) (indexed : UInt16 × Nat) : SpanSearch :=
  if indexed.1 = 0 then
    let current : Span :=
      if search.current.length = 0 then ⟨indexed.2,1⟩ else ⟨search.current.start,search.current.length + 1⟩
    ⟨if current.length > search.longest.length then current else search.longest,current⟩
  else ⟨search.longest,⟨0,0⟩⟩

def longestZeroSpan (segments : List UInt16) : Span :=
  (segments.zipIdx.foldl SpanSearch.next ⟨⟨0,0⟩,⟨0,0⟩⟩).longest

def highOctet (segment : UInt16) : UInt8 := UInt8.ofNat (segment.toNat / 256)

def lowOctet (segment : UInt16) : UInt8 := UInt8.ofNat (segment.toNat % 256)

-- The address in network byte order.
def IpAddr.octets : IpAddr → List UInt8
  | .v4 a b c d => [a,b,c,d]
  | .v6 segments _ => segments.flatMap (fun segment => [highOctet segment,lowOctet segment])

def segmentsOf : List UInt8 → List UInt16
  | high :: low :: rest => UInt16.ofNat (high.toNat * 256 + low.toNat) :: segmentsOf rest
  | _ => []

theorem segmentsOf_length (octets : List UInt8) : (segmentsOf octets).length = octets.length / 2 := by
  induction octets using segmentsOf.induct with
  | case1 high low rest ih =>
      rw [segmentsOf,List.length_cons,ih,List.length_cons,List.length_cons]
      omega
  | case2 octets short =>
      match octets,short with
      | [],_ => rfl
      | [_],_ => simp [segmentsOf]
      | high :: low :: rest,short => exact absurd rfl (short high low rest)

def IpAddr.ofOctets16 (octets : Vector UInt8 16) : IpAddr :=
  .v6 (segmentsOf octets.toList) (by rw [segmentsOf_length]; simp)

theorem octets_segment (high low : UInt8) :
    highOctet (UInt16.ofNat (high.toNat * 256 + low.toNat)) = high ∧
      lowOctet (UInt16.ofNat (high.toNat * 256 + low.toNat)) = low := by
  have first := high.toNat_lt
  have second := low.toNat_lt
  have value : (UInt16.ofNat (high.toNat * 256 + low.toNat)).toNat = high.toNat * 256 + low.toNat := by
    rw [UInt16.toNat_ofNat']
    omega
  unfold highOctet lowOctet
  rw [value]
  constructor
  · apply UInt8.toNat_inj.mp
    rw [UInt8.toNat_ofNat']
    omega
  · apply UInt8.toNat_inj.mp
    rw [UInt8.toNat_ofNat']
    omega

theorem segment_octets (segment : UInt16) :
    UInt16.ofNat ((highOctet segment).toNat * 256 + (lowOctet segment).toNat) = segment := by
  have small := segment.toNat_lt
  apply UInt16.toNat_inj.mp
  unfold highOctet lowOctet
  rw [UInt16.toNat_ofNat',UInt8.toNat_ofNat',UInt8.toNat_ofNat']
  omega

theorem octets_segmentsOf (octets : List UInt8) (even : octets.length % 2 = 0) :
    (segmentsOf octets).flatMap (fun segment => [highOctet segment,lowOctet segment]) = octets := by
  induction octets using segmentsOf.induct with
  | case1 high low rest ih =>
      obtain ⟨first,second⟩ := octets_segment high low
      have fewer : rest.length % 2 = 0 := by
        simp only [List.length_cons] at even
        omega
      rw [segmentsOf,List.flatMap_cons,first,second,ih fewer]
      rfl
  | case2 octets short =>
      match octets,short with
      | [],_ => rfl
      | [_],_ => cases even
      | high :: low :: rest,short => exact absurd rfl (short high low rest)

theorem segmentsOf_octets (segments : List UInt16) :
    segmentsOf (segments.flatMap (fun segment => [highOctet segment,lowOctet segment])) = segments := by
  induction segments with
  | nil => rfl
  | cons segment rest ih =>
      rw [List.flatMap_cons,List.cons_append,List.cons_append,List.nil_append,segmentsOf,segment_octets,ih]

def formatV6 (segments : List UInt16) : List Char :=
  match segments with
  | [0,0,0,0,0,0xffff,high,low] =>
      "::ffff:".toList ++ formatV4 (highOctet high) (lowOctet high) (highOctet low) (lowOctet low)
  | _ =>
      let zeroes := longestZeroSpan segments
      if zeroes.length > 1 then
        formatSegments (segments.take zeroes.start) ++ "::".toList ++
          formatSegments (segments.drop (zeroes.start + zeroes.length))
      else formatSegments segments

def format : IpAddr → String
  | .v4 a b c d => String.ofList (formatV4 a b c d)
  | .v6 segments _ => String.ofList (formatV6 segments)

example : format (.ofSegments 0x2001 0xdb8 0 0 1 0 0 1) = "2001:db8::1:0:0:1" := by decide

end Freja.IpAddress
