import Freja.Foundation.Splitting
import Freja.Wire.Framing
import Mathlib.Data.List.Forall2
import Mathlib.Data.Nat.Digits.Defs

namespace Freja.Framing.Grammar
open Bytes Splitting

def crlf : List UInt8 := [13,10]

def blankLine : List UInt8 := [13,10,13,10]

inductive DecimalDigit : UInt8 → Nat → Prop
  | digit (low : 48 ≤ byte) (high : byte ≤ 57) : DecimalDigit byte (byte.toNat - 48)

inductive HexDigit : UInt8 → Nat → Prop
  | decimal (low : 48 ≤ byte) (high : byte ≤ 57) : HexDigit byte (byte.toNat - 48)
  | lower (low : 97 ≤ byte) (high : byte ≤ 102) : HexDigit byte (byte.toNat - 97 + 10)
  | upper (low : 65 ≤ byte) (high : byte ≤ 70) : HexDigit byte (byte.toNat - 65 + 10)

-- A numeral below 2^64 and the number it stands for.
structure Numeral (digit : UInt8 → Nat → Prop) (base : Nat) (text : List UInt8) (value : Nat) : Prop where
  some : text ≠ []
  digits : ∃ digits, List.Forall₂ digit text digits ∧ value = Nat.ofDigits base digits.reverse
  fits : value ≤ u64Max

-- A line of the head without the CR that may end it.
inductive WithoutCr : List UInt8 → List UInt8 → Prop
  | stripped (line : List UInt8) : WithoutCr (line ++ [13]) line
  | bare (plain : line.getLast? ≠ some 13) : WithoutCr line line

abbrev Field := List UInt8 × List UInt8

structure HeaderLine (line : List UInt8) (field : Field) : Prop where
  named : field.1 ≠ []
  token : ∀ byte ∈ field.1, isTokenByte byte = true
  value : ∃ padded, line = field.1 ++ 58 :: padded ∧ Trimmed isOws padded field.2

def valuesOf (name : String) (fields : List Field) : List (List UInt8) :=
  (fields.filter (fun field => eqIgnoreAsciiCase field.1 (ascii name))).map Prod.snd

-- The elements of all comma-separated values of one field name.
def Elements (values elements : List (List UInt8)) : Prop :=
  ∃ pieces, List.Forall₂ (fun value parts => Separated 44 parts value) values pieces ∧
    List.Forall₂ (Trimmed isOws) pieces.flatten elements

inductive ContentLength : List (List UInt8) → Option Nat → Prop
  | absent : ContentLength [] none
  | agreed (present : values ≠ []) (split : Elements values elements)
      (same : ∀ element ∈ elements, Numeral DecimalDigit 10 element length) : ContentLength values (some length)

inductive TransferCoding : List (List UInt8) → Bool → Prop
  | absent : TransferCoding [] false
  | chunked (present : values ≠ []) (split : Elements values elements)
      (single : elements.filter (fun element => !element.isEmpty) = [token])
      (coding : eqIgnoreAsciiCase token (ascii "chunked") = true) : TransferCoding values true

def StatusLine (start : List UInt8) (status : Nat) : Prop :=
  ∃ version digits rest, Separated 32 (version :: digits :: rest) start ∧
    (version = ascii "HTTP/1.0" ∨ version = ascii "HTTP/1.1") ∧
    digits.length = 3 ∧ Numeral DecimalDigit 10 digits status

-- The responses that end with their head.
def Bodiless (context : ResponseContext) (status : Nat) : Prop :=
  context.requestWasHead = true ∨ (100 ≤ status ∧ status < 200) ∨ status = 204 ∨ status = 205 ∨ status = 304 ∨
    (context.requestWasConnect = true ∧ 200 ≤ status ∧ status < 300)

def MayHaveBody (start : List UInt8) : MessageRole → Prop
  | .request => True
  | .response context => ∃ status, StatusLine start status ∧ ¬ Bodiless context status

inductive Framed (start : List UInt8) : MessageRole → Bool → Option Nat → BodyFraming → Prop
  | bodiless (spoken : StatusLine start status) (forbidden : Bodiless context status) :
      Framed start (.response context) chunked length (.none (100 ≤ status ∧ status < 200 ∧ status ≠ 101))
  | chunked (allowed : MayHaveBody start role) : Framed start role true length .chunked
  | fixed (allowed : MayHaveBody start role) : Framed start role false (some length) (.fixed length)
  | plain : Framed start .request false none (.none false)
  | closeDelimited (allowed : MayHaveBody start (.response context)) :
      Framed start (.response context) false none .closeDelimited

structure HeadContent (role : MessageRole) (content : List UInt8) (framing : BodyFraming) : Prop where
  lines : ∃ rawStart rawLines start fields chunked length,
    Separated 10 (rawStart :: rawLines) content ∧ WithoutCr rawStart start ∧ start ≠ [] ∧
    List.Forall₂ (fun raw field => ∃ line, WithoutCr raw line ∧ HeaderLine line field) rawLines fields ∧
    (valuesOf "content-length" fields = [] ∨ valuesOf "transfer-encoding" fields = []) ∧
    TransferCoding (valuesOf "transfer-encoding" fields) chunked ∧
    ContentLength (valuesOf "content-length" fields) length ∧ Framed start role chunked length framing

structure Head (role : MessageRole) (maximum : Nat) (head : List UInt8) (framing : BodyFraming) : Prop where
  ends : EndsFirst blankLine head
  fits : head.length ≤ maximum
  content : ∃ content, head = content ++ blankLine ∧ HeadContent role content framing

structure SizeLine (maximum : Nat) (line : List UInt8) (size : Nat) : Prop where
  ends : EndsFirst crlf line
  fits : line.length ≤ maximum
  text : ∃ digits rest, line = digits ++ rest ++ crlf ∧ (rest = [] ∨ rest.head? = some 59) ∧
    Numeral HexDigit 16 digits size

inductive Trailers : List UInt8 → Prop
  | blank : Trailers crlf
  | field (ends : EndsFirst crlf (line ++ crlf)) (header : HeaderLine line field) (later : Trailers rest) :
      Trailers (line ++ crlf ++ rest)

-- The length of the trailers is counted by a machine word.
inductive Chunked (maximum : Nat) : List UInt8 → Prop
  | last (size : SizeLine maximum line 0) (trailers : Trailers rest) (fits : min rest.length u64Max ≤ maximum) :
      Chunked maximum (line ++ rest)
  | chunk (size : SizeLine maximum line data.length) (present : data ≠ []) (later : Chunked maximum rest) :
      Chunked maximum (line ++ (data ++ (crlf ++ rest)))

def Body (maximum : Nat) : BodyFraming → List UInt8 → Prop
  | .none _,body => body = []
  | .fixed length,body => body.length = length
  | .chunked,body => Chunked maximum body
  | .closeDelimited,_ => False

def Message (role : MessageRole) (maximum : Nat) (message : List UInt8) : Prop :=
  ∃ head body framing, message = head ++ body ∧ Head role maximum head framing ∧ Body maximum framing body

-- A response whose body is everything up to the end of the stream.
def CloseDelimited (role : MessageRole) (maximum : Nat) (message : List UInt8) : Prop :=
  ∃ head body, message = head ++ body ∧ Head role maximum head .closeDelimited

end Freja.Framing.Grammar
