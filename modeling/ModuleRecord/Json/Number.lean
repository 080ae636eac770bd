import ModuleRecord.Json.Node

/-!
# Numbers in a JSON text

A number is read digit by digit. As many leading digits as fit 64 bits make up its significand, the
others only move its exponent. A number is in range if its significand and the power of ten, each
rounded to 53 bits, have a product that does not round past the greatest double-precision number.
-/

namespace ModuleRecord
namespace Json

/-! ## Magnitudes -/

/-- A number rounded to 53 bits, a half to the even neighbour. -/
def round53 (n : Nat) : Nat :=
  let unit := 1 <<< (n.log2 + 1 - 53)
  let quotient := n / unit
  let double := 2 * (n % unit)
  let up := double > unit ∨ (double = unit ∧ quotient % 2 = 1)
  (if up then quotient + 1 else quotient) * unit

/-- The least number that rounds past the greatest double-precision number. -/
def overflowBound : Nat :=
  0x3FFFFFFFFFFFFF <<< 970

/-- The digits of a number that count, and the power of ten to scale them by. -/
structure Magnitude where
  significand : Nat
  exponent : Int
  /-- Whether a digit has been met that no longer fit. -/
  isFull : Bool
  deriving DecidableEq, Repr

namespace Magnitude

/-- The greatest significand. -/
def limit : Nat := 0xFFFFFFFFFFFFFFFF

/-- Adds a digit before the point. -/
def addWhole (m : Magnitude) (digit : Nat) : Magnitude :=
  if m.isFull ∨ m.significand * 10 + digit > limit then
    { m with exponent := m.exponent + 1, isFull := true }
  else { m with significand := m.significand * 10 + digit }

/-- Adds a digit behind the point. -/
def addFraction (m : Magnitude) (digit : Nat) : Magnitude :=
  if m.isFull ∨ m.significand * 10 + digit > limit then { m with isFull := true }
  else { m with significand := m.significand * 10 + digit, exponent := m.exponent - 1 }

/-- Whether the number that has been read is in range. -/
def inRange (m : Magnitude) : Bool :=
  if m.significand = 0 ∨ m.exponent < 0 then true
  else if m.exponent > 308 then false
  else round53 m.significand * round53 (Nat.pow 10 m.exponent.toNat) < overflowBound

end Magnitude

/-- A written exponent. -/
structure Exponent where
  isNegative : Bool
  value : Nat
  deriving DecidableEq, Repr

namespace Exponent

/-- The greatest value that is still added to the power of ten. -/
def limit : Nat := 0x7FFFFFFF

/-- Adds a digit. Past the limit, the value no longer changes. -/
def add (e : Exponent) (digit : Nat) : Exponent :=
  if e.value > limit then e else { e with value := e.value * 10 + digit }

/-- Whether a number with this exponent is in range. -/
def inRange (m : Magnitude) (e : Exponent) : Bool :=
  if e.value > limit then m.significand = 0 || e.isNegative
  else if e.isNegative then { m with exponent := m.exponent - e.value }.inRange
  else { m with exponent := m.exponent + e.value }.inRange

end Exponent

/-! ## Reading -/

/-- How far a number has been read. -/
inductive NumberScan where
  /-- A minus sign, before the first digit. -/
  | start
  /-- A leading zero, which stands alone before the point. -/
  | zero
  /-- Digits before the point. -/
  | whole (m : Magnitude)
  /-- The point, before its first digit. -/
  | point (m : Magnitude)
  /-- Digits behind the point. -/
  | fraction (m : Magnitude)
  /-- The mark of the exponent. -/
  | mark (m : Magnitude)
  /-- The sign of the exponent, before its first digit. -/
  | sign (m : Magnitude) (isNegative : Bool)
  /-- Digits of the exponent. -/
  | exponent (m : Magnitude) (e : Exponent)
  deriving DecidableEq, Repr

/-- What a character does to a number. -/
inductive NumberStep where
  /-- The number goes on. -/
  | more (scan : NumberScan)
  /-- The number ended before the character. -/
  | done
  /-- The character cannot stand here. -/
  | wrong
  deriving DecidableEq, Repr

/-- The value of a decimal digit. -/
def digit? (c : Char) : Option Nat :=
  if '0' ≤ c ∧ c ≤ '9' then some (c.toNat - '0'.toNat) else none

namespace NumberScan

/-- The number after its first digit. -/
def ofDigit (digit : Nat) : NumberScan :=
  if digit = 0 then zero else whole ⟨digit, 0, false⟩

/-- The number after a point or the mark of an exponent, where one of them may follow. -/
def suffix (m : Magnitude) (mayPoint : Bool) (c : Char) : NumberStep :=
  if c = '.' ∧ mayPoint then .more (point { m with isFull := false })
  else if c = 'e' ∨ c = 'E' then .more (mark m)
  else .done

/-- The first digit of an exponent. -/
def startExponent (m : Magnitude) (isNegative : Bool) (c : Char) : NumberStep :=
  match digit? c with
  | some digit => .more (exponent m ⟨isNegative, digit⟩)
  | none => .wrong

/-- Reads the next character. -/
def step (scan : NumberScan) (c : Char) : NumberStep :=
  match scan with
  | start =>
    match digit? c with
    | some digit => .more (ofDigit digit)
    | none => .wrong
  | zero =>
    match digit? c with
    | some _ => .wrong
    | none => suffix ⟨0, 0, false⟩ true c
  | whole m =>
    match digit? c with
    | some digit => .more (whole (m.addWhole digit))
    | none => suffix m true c
  | point m =>
    match digit? c with
    | some digit => .more (fraction (m.addFraction digit))
    | none => .wrong
  | fraction m =>
    match digit? c with
    | some digit => .more (fraction (m.addFraction digit))
    | none => suffix m false c
  | mark m =>
    if c = '+' then .more (sign m false)
    else if c = '-' then .more (sign m true)
    else startExponent m false c
  | sign m isNegative => startExponent m isNegative c
  | exponent m e =>
    match digit? c with
    | some digit => .more (exponent m (e.add digit))
    | none => .done

/-- The number if it ends here, or none where a digit is still due. -/
def end? : NumberScan → Option Node
  | zero => some (.number true)
  | whole m => some (.number m.inRange)
  | fraction m => some (.number m.inRange)
  | exponent m e => some (.number (e.inRange m))
  | _ => none

end NumberScan
end Json
end ModuleRecord
