import ModuleRecord.Bytes.Hex
import ModuleRecord.Json.Node
import ModuleRecord.Text.Utf16

/-!
# Strings in a JSON text

A string is read character by character after its opening quote. The four digits of a unicode
escape are taken as four bytes at once, so that an escape cut short by the end of the text is an
early end whatever stands in its place. A surrogate without its partner spoils a string that is used
and none that is passed over.
-/

namespace ModuleRecord
namespace Json

/-- Where in a string the next character stands. -/
inductive StringPlace where
  /-- Between characters and escapes. -/
  | plain
  /-- Behind the escape of a high surrogate. -/
  | afterHigh (high : UInt16)
  /-- Behind a backslash, perhaps with the escape of a high surrogate before it. -/
  | escape (high : Option UInt16)
  /-- Within the digits of a unicode escape, of which some bytes have been read. The value is none
  once one of them was no digit. -/
  | digits (high : Option UInt16) (bytes : Nat) (value : Option Nat)
  deriving DecidableEq, Repr

/-- How far a string has been read. -/
structure StringScan where
  /-- The characters so far, in reverse. -/
  read : List Char
  /-- Whether there was a surrogate without its partner. -/
  isSpoiled : Bool
  place : StringPlace
  deriving DecidableEq, Repr

/-- What a character does to a string. -/
inductive StringStep where
  /-- The string goes on. -/
  | more (scan : StringScan)
  /-- The character was the closing quote. -/
  | done (text : Option String)
  /-- The character cannot stand here. -/
  | wrong
  deriving DecidableEq, Repr

namespace StringScan

/-- The string after its opening quote. -/
def start : StringScan :=
  ⟨[], false, .plain⟩

/-- Adds a character. -/
def push (scan : StringScan) (c : Char) : StringScan :=
  { scan with read := c :: scan.read, place := .plain }

/-- Notes a surrogate without its partner. -/
def spoil (scan : StringScan) : StringScan :=
  { scan with isSpoiled := true, place := .plain }

/-- Reads a character that stands between characters and escapes. -/
def stepPlain (scan : StringScan) (c : Char) : StringStep :=
  if c = '"' then
    .done (if scan.isSpoiled then none else some (String.ofList scan.read.reverse))
  else if c = '\\' then .more { scan with place := .escape none }
  else if c.toNat < 0x20 then .wrong
  else .more (scan.push c)

/-- The character that an escape of one letter stands for. -/
def shortEscape? (c : Char) : Option Char :=
  if c = '"' ∨ c = '\\' ∨ c = '/' then some c
  else if c = 'b' then some '\x08'
  else if c = 'f' then some '\x0c'
  else if c = 'n' then some '\n'
  else if c = 'r' then some '\r'
  else if c = 't' then some '\t'
  else none

/-- Reads the letter of an escape. A high surrogate needs a unicode escape behind it as its
partner. -/
def stepEscape (scan : StringScan) (high : Option UInt16) (c : Char) : StringStep :=
  if c = 'u' then .more { scan with place := .digits high 0 (some 0) }
  else
    match shortEscape? c with
    | some character =>
      .more ((if high.isSome then scan.spoil else scan).push character)
    | none => .wrong

/-- Adds the unit of a unicode escape that does not follow a high surrogate. -/
def addUnit (scan : StringScan) (unit : UInt16) : StringScan :=
  if Utf16.isHigh unit then { scan with place := .afterHigh unit }
  else if Utf16.isLow unit then scan.spoil
  else scan.push (Char.ofNat unit.toNat)

/-- Adds the unit of a unicode escape, perhaps after that of a high surrogate. -/
def addUnitAfter (scan : StringScan) (high : Option UInt16) (unit : UInt16) : StringScan :=
  match high with
  | none => scan.addUnit unit
  | some high =>
    if Utf16.isLow unit then scan.push (Utf16.pair high unit) else scan.spoil.addUnit unit

/-- Reads a character within the digits of a unicode escape. -/
def stepDigits (scan : StringScan) (high : Option UInt16) (bytes : Nat) (value : Option Nat)
    (c : Char) : StringStep :=
  let value : Option Nat := do
    let value ← value
    let digit ← Hex.value? c
    return value * 16 + digit
  let bytes := bytes + c.utf8Size
  if bytes < 4 then .more { scan with place := .digits high bytes value }
  else
    match value with
    | some unit => .more (scan.addUnitAfter high (UInt16.ofNat unit))
    | none => .wrong

/-- Reads the next character. -/
def step (scan : StringScan) (c : Char) : StringStep :=
  match scan.place with
  | .plain => scan.stepPlain c
  | .afterHigh high =>
    if c = '\\' then .more { scan with place := .escape (some high) } else scan.spoil.stepPlain c
  | .escape high => scan.stepEscape high c
  | .digits high bytes value => scan.stepDigits high bytes value c

/-- The flaw of a string that breaks off with the given fault. -/
def flaw (scan : StringScan) (fault : Fault) : Flaw :=
  ⟨if scan.isSpoiled then .malformed else fault, fault⟩

end StringScan
end Json
end ModuleRecord
