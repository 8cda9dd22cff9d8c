import Mathlib.Data.List.Basic

namespace Freja.Bytes

def u64Max : Nat := 0xffffffffffffffff

def saturatingAdd (a b : Nat) : Nat := min (a + b) u64Max

theorem saturatingAdd_assoc (a b c : Nat) :
    saturatingAdd (saturatingAdd a b) c = saturatingAdd a (b + c) := by
  unfold saturatingAdd
  omega

theorem saturatingAdd_exact (fits : a + b ≤ u64Max) : saturatingAdd a b = a + b := by
  unfold saturatingAdd
  omega

def ascii (text : String) : List UInt8 := text.toList.map Char.toUInt8

def isDigit (byte : UInt8) : Bool := 48 ≤ byte && byte ≤ 57

def isUpper (byte : UInt8) : Bool := 65 ≤ byte && byte ≤ 90

def isLower (byte : UInt8) : Bool := 97 ≤ byte && byte ≤ 122

def isAlphanumeric (byte : UInt8) : Bool := isDigit byte || isUpper byte || isLower byte

def toLower (byte : UInt8) : UInt8 := if isUpper byte then byte + 32 else byte

def eqIgnoreAsciiCase (a b : List UInt8) : Bool := a.map toLower == b.map toLower

def hexValue? (byte : UInt8) : Option Nat :=
  if isDigit byte then some (byte.toNat - 48)
  else if 97 ≤ byte && byte ≤ 102 then some (byte.toNat - 97 + 10)
  else if 65 ≤ byte && byte ≤ 70 then some (byte.toNat - 65 + 10)
  else none

def stripSuffix? (bytes suffix : List UInt8) : Option (List UInt8) :=
  if suffix.isSuffixOf bytes then some (bytes.take (bytes.length - suffix.length)) else none

-- Decimal digits read as an unsigned number no larger than the given maximum.
def parseDecimal? (maximum : Nat) (digits : List UInt8) : Option Nat :=
  if digits.isEmpty || !digits.all isDigit then none
  else
    let value := digits.foldl (fun value digit => value * 10 + (digit.toNat - 48)) 0
    if value ≤ maximum then some value else none

def hexEncode (bytes : List UInt8) : String :=
  String.ofList (bytes.flatMap fun byte => [Nat.digitChar (byte.toNat / 16),Nat.digitChar (byte.toNat % 16)])

def hexDecodeBytes : List UInt8 → Option (List UInt8)
  | [] => some []
  | [_] => none
  | high :: low :: rest => do
      let first ← hexValue? high
      let second ← hexValue? low
      let decoded ← hexDecodeBytes rest
      some (UInt8.ofNat (16 * first + second) :: decoded)

def hexDecode (text : String) : Option (List UInt8) :=
  hexDecodeBytes (text.toList.flatMap String.utf8EncodeChar)

theorem hexDigit_value : ∀ digit < 16, String.utf8EncodeChar (Nat.digitChar digit) = [(Nat.digitChar digit).toUInt8] ∧
    hexValue? (Nat.digitChar digit).toUInt8 = some digit := by
  decide

theorem hexDecode_hexEncode (bytes : List UInt8) : hexDecode (hexEncode bytes) = some bytes := by
  unfold hexDecode hexEncode
  rw [String.toList_ofList]
  induction bytes with
  | nil => rfl
  | cons byte rest ih =>
      have small := byte.toNat_lt
      obtain ⟨high,first⟩ := hexDigit_value (byte.toNat / 16) (by omega)
      obtain ⟨low,second⟩ := hexDigit_value (byte.toNat % 16) (by omega)
      have joined : UInt8.ofNat (16 * (byte.toNat / 16) + byte.toNat % 16) = byte := by
        rw [Nat.div_add_mod,UInt8.ofNat_toNat]
      simp only [List.flatMap_cons,List.cons_append,List.nil_append,high,low,
        hexDecodeBytes,first,second,ih,Option.bind_eq_bind,Option.bind_some,joined]

theorem hexEncode_injective (same : hexEncode first = hexEncode second) : first = second := by
  have decoded := hexDecode_hexEncode first
  rw [same,hexDecode_hexEncode] at decoded
  exact (Option.some.inj decoded).symm

-- The most significant byte first, cut to the given number of bytes.
def bigEndian : Nat → Nat → List UInt8
  | 0,_ => []
  | width + 1,value => bigEndian width (value / 256) ++ [UInt8.ofNat value]

def capacity : Nat → Nat
  | 0 => 1
  | width + 1 => 256 * capacity width

@[simp] theorem length_bigEndian (width value : Nat) : (bigEndian width value).length = width := by
  induction width generalizing value with
  | zero => rfl
  | succ width ih => simp [bigEndian,ih]

theorem bigEndian_injective (width : Nat) (first second : Nat) (fitsFirst : first < capacity width)
    (fitsSecond : second < capacity width) (same : bigEndian width first = bigEndian width second) :
    first = second := by
  induction width generalizing first second with
  | zero =>
      simp only [capacity] at fitsFirst fitsSecond
      omega
  | succ width ih =>
      simp only [capacity] at fitsFirst fitsSecond
      obtain ⟨high,low⟩ := List.append_inj' same rfl
      have quotients := ih (first / 256) (second / 256) (by omega) (by omega) high
      have bytes := congrArg UInt8.toNat (List.cons.inj low).1
      rw [UInt8.toNat_ofNat',UInt8.toNat_ofNat'] at bytes
      omega

def lowercase (text : String) : String := String.ofList (text.toList.map Char.toLower)

def uppercase (text : String) : String := String.ofList (text.toList.map Char.toUpper)

def utf8 (text : String) : List UInt8 := text.toList.flatMap String.utf8EncodeChar

def startsWith (text start : String) : Bool := start.toList.isPrefixOf text.toList

theorem toLower_toLower (character : Char) : character.toLower.toLower = character.toLower := by
  by_cases upper : character.val ≥ 'A'.val ∧ character.val ≤ 'Z'.val
  · have lowered : character.toLower.val = character.val + 32 := by
      have shifted : character.toLower = ⟨character.val + 32,_⟩ := dif_pos upper
      rw [shifted]
    have above : ¬ (character.toLower.val ≥ 'A'.val ∧ character.toLower.val ≤ 'Z'.val) := by
      rw [lowered]
      obtain ⟨least,most⟩ := upper
      simp only [ge_iff_le,UInt32.le_iff_toNat_le,UInt32.toNat_add] at least most ⊢
      change 65 ≤ character.val.toNat at least
      change character.val.toNat ≤ 90 at most
      change ¬ (65 ≤ (character.val.toNat + 32) % 2^32 ∧ (character.val.toNat + 32) % 2^32 ≤ 90)
      omega
    exact dif_neg above
  · have kept : character.toLower = character := dif_neg upper
    rw [kept,kept]

@[simp] theorem lowercase_lowercase (text : String) : lowercase (lowercase text) = lowercase text := by
  have twice : Char.toLower ∘ Char.toLower = Char.toLower := funext toLower_toLower
  simp [lowercase,twice]

theorem toUpper_toUpper (character : Char) : character.toUpper.toUpper = character.toUpper := by
  by_cases lower : character.val ≥ 'a'.val ∧ character.val ≤ 'z'.val
  · have raised : character.toUpper.val = character.val + ('A'.val - 'a'.val) := by
      have shifted : character.toUpper = ⟨character.val + ('A'.val - 'a'.val),_⟩ := dif_pos lower
      rw [shifted]
    have below : ¬ (character.toUpper.val ≥ 'a'.val ∧ character.toUpper.val ≤ 'z'.val) := by
      rw [raised]
      obtain ⟨least,most⟩ := lower
      simp only [ge_iff_le,UInt32.le_iff_toNat_le,UInt32.toNat_add] at least most ⊢
      change 97 ≤ character.val.toNat at least
      change character.val.toNat ≤ 122 at most
      change ¬ (97 ≤ (character.val.toNat + 4294967264) % 2^32 ∧ (character.val.toNat + 4294967264) % 2^32 ≤ 122)
      omega
    exact dif_neg below
  · have kept : character.toUpper = character := dif_neg lower
    rw [kept,kept]

@[simp] theorem uppercase_uppercase (text : String) : uppercase (uppercase text) = uppercase text := by
  have twice : Char.toUpper ∘ Char.toUpper = Char.toUpper := funext toUpper_toUpper
  simp [uppercase,twice]

end Freja.Bytes
