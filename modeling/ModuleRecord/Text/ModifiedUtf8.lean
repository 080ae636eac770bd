import ModuleRecord.Bytes.Basic
import ModuleRecord.Text.Utf16

/-!
# Modified UTF-8

Each UTF-16 unit of a text is written on its own, in one, two or three bytes; the zero unit takes
two, so that no byte is zero. Reading splits the bytes into such groups, admits a group longer than
its unit needs, and then asks that the units pair up.
-/

namespace ModuleRecord
namespace ModifiedUtf8

/-! ## Writing -/

/-- The shortest group of a unit, with two bytes for zero. -/
def ofUnit (unit : UInt16) : Bytes :=
  if 0x01 ≤ unit ∧ unit ≤ 0x7F then [unit.toUInt8]
  else if unit ≤ 0x7FF then
    [(0xC0 : UInt8) ||| (unit >>> 6).toUInt8, (0x80 : UInt8) ||| (unit &&& 0x3F).toUInt8]
  else
    [(0xE0 : UInt8) ||| (unit >>> 12).toUInt8, (0x80 : UInt8) ||| ((unit >>> 6) &&& 0x3F).toUInt8,
      (0x80 : UInt8) ||| (unit &&& 0x3F).toUInt8]

/-- The groups of the units of a text. -/
def encode (text : String) : Bytes :=
  (Utf16.encode text.toList).flatMap ofUnit

/-! ## Reading -/

/-- The low six bits of a continuation byte, `80` to `BF`. -/
def continuation? (byte : UInt8) : Option UInt16 :=
  if byte &&& 0xC0 = 0x80 then some (byte &&& 0x3F).toUInt16 else none

/-- The unit of a two-byte group. -/
def unitOfTwo (lead : UInt8) (y : UInt16) : UInt16 :=
  ((lead &&& 0x1F).toUInt16 <<< 6) ||| y

/-- The unit of a three-byte group. -/
def unitOfThree (lead : UInt8) (y z : UInt16) : UInt16 :=
  ((lead &&& 0x0F).toUInt16 <<< 12) ||| (y <<< 6) ||| z

/-- Reads groups from the left, collecting the units in reverse. -/
def unitsOnto : Bytes → List UInt16 → Option (List UInt16)
  | [], read => some read.reverse
  | lead :: rest, read =>
    if 0x01 ≤ lead ∧ lead ≤ 0x7F then unitsOnto rest (lead.toUInt16 :: read)
    else if 0xC0 ≤ lead ∧ lead ≤ 0xDF then
      match rest with
      | second :: rest =>
        match continuation? second with
        | some y => unitsOnto rest (unitOfTwo lead y :: read)
        | none => none
      | [] => none
    else if 0xE0 ≤ lead ∧ lead ≤ 0xEF then
      match rest with
      | second :: third :: rest =>
        match continuation? second, continuation? third with
        | some y, some z => unitsOnto rest (unitOfThree lead y z :: read)
        | _, _ => none
      | _ => none
    else none

/-- Reads any sequence of groups whose units pair up. -/
def decodeGroups? (bytes : Bytes) : Option String := do
  let units ← unitsOnto bytes []
  let chars ← Utf16.decode? units
  return String.ofList chars

/-- A byte that stands for its own character: neither zero nor above `7F`. -/
def isPlain (byte : UInt8) : Bool :=
  byte != 0 && byte < 0x80

/-- Reads plain bytes, one character each. -/
def decodePlain (bytes : Bytes) : String :=
  String.ofList (bytes.map fun byte => Char.ofNat byte.toNat)

/-- The text of a byte string; texts of plain bytes take the short way. -/
def decode? (bytes : Bytes) : Option String :=
  if bytes.all isPlain then some (decodePlain bytes) else decodeGroups? bytes

end ModifiedUtf8
end ModuleRecord
