import ModuleRecord.Bytes.Basic

/-!
# Hexadecimal digests

A byte is written as two lowercase digits, high half first. Either case is read, so a text that
reads is the written form of its bytes up to case.
-/

namespace ModuleRecord
namespace Hex

/-! ## Digits -/

/-- The lowercase digit of a value below sixteen. -/
def digit (value : Nat) : Char :=
  if value < 10 then Char.ofNat ('0'.toNat + value) else Char.ofNat ('a'.toNat + (value - 10))

/-- The value of a digit of either case. -/
def value? (c : Char) : Option Nat :=
  if '0' ≤ c ∧ c ≤ '9' then some (c.toNat - '0'.toNat)
  else if 'a' ≤ c ∧ c ≤ 'f' then some (c.toNat - 'a'.toNat + 10)
  else if 'A' ≤ c ∧ c ≤ 'F' then some (c.toNat - 'A'.toNat + 10)
  else none

/-- The digits of a number without leading zeros, most significant first. -/
def ofNat (n : Nat) : String :=
  String.ofList (Nat.toDigits 16 n)

/-! ## Byte strings -/

/-- Two digits for each byte. -/
def encodeChars (bytes : Bytes) : List Char :=
  bytes.flatMap fun byte => [digit (byte.toNat / 16), digit (byte.toNat % 16)]

/-- Reads pairs of digits, collecting the bytes in reverse. -/
def decodeChars : List Char → Bytes → Option Bytes
  | [], read => some read.reverse
  | high :: low :: rest, read =>
    match value? high, value? low with
    | some h, some l => decodeChars rest (UInt8.ofNat (h * 16 + l) :: read)
    | _, _ => none
  | [_], _ => none

/-- The lowercase text of a byte string. -/
def encode (bytes : Bytes) : String :=
  String.ofList (encodeChars bytes)

/-- The bytes of a text of digit pairs, of either case. -/
def decode? (text : String) : Option Bytes :=
  decodeChars text.toList []

end Hex
end ModuleRecord
