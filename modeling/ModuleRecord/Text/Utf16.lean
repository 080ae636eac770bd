/-!
# UTF-16 code units

A character of the basic plane is one unit; any other is a high surrogate followed by a low one.
`Utf16.decode?` accepts a unit sequence exactly when every surrogate stands in such a pair.
-/

namespace ModuleRecord
namespace Utf16

/-! ## Surrogates -/

/-- The first half of a pair: `D800` to `DBFF`. -/
def isHigh (unit : UInt16) : Bool :=
  0xD800 ≤ unit && unit < 0xDC00

/-- The second half of a pair: `DC00` to `DFFF`. -/
def isLow (unit : UInt16) : Bool :=
  0xDC00 ≤ unit && unit < 0xE000

/-- The character that a pair stands for. -/
def pair (high low : UInt16) : Char :=
  Char.ofNat (0x10000 + (high.toNat - 0xD800) * 0x400 + (low.toNat - 0xDC00))

/-! ## Characters -/

/-- The units of one character. -/
def ofChar (c : Char) : List UInt16 :=
  if c.toNat < 0x10000 then [UInt16.ofNat c.toNat]
  else
    let above := c.toNat - 0x10000
    [UInt16.ofNat (0xD800 + above / 0x400), UInt16.ofNat (0xDC00 + above % 0x400)]

/-- The units of a text. -/
def encode (chars : List Char) : List UInt16 :=
  chars.flatMap ofChar

/-- Reads units from the left, collecting the characters in reverse. -/
def decodeOnto : List UInt16 → List Char → Option (List Char)
  | [], read => some read.reverse
  | unit :: rest, read =>
    if isHigh unit then
      match rest with
      | [] => none
      | next :: rest => if isLow next then decodeOnto rest (pair unit next :: read) else none
    else if isLow unit then none
    else decodeOnto rest (Char.ofNat unit.toNat :: read)

/-- The text of a unit sequence whose surrogates all stand in pairs. -/
def decode? (units : List UInt16) : Option (List Char) :=
  decodeOnto units []

end Utf16
end ModuleRecord
