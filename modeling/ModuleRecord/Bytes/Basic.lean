/-!
# Byte strings and big-endian words

A byte string is a list of bytes. A word of a fixed width is laid out with its most significant
byte first; one pair of functions, `Bytes.ofNat` and `Bytes.toNat`, serves every width.
-/

namespace ModuleRecord

/-- A string of bytes. -/
abbrev Bytes := List UInt8

namespace Bytes

/-! ## Words -/

/-- The `width` low base-256 digits of a number, most significant first. -/
def ofNat : (width : Nat) → Nat → Bytes
  | 0, _ => []
  | width + 1, n => ofNat width (n / 256) ++ [UInt8.ofNat n]

/-- The number whose base-256 digits, most significant first, are the given bytes. -/
def toNat (bytes : Bytes) : Nat :=
  bytes.foldl (fun n byte => n * 256 + byte.toNat) 0

/-- A 16-bit word in two bytes. -/
def ofUInt16 (word : UInt16) : Bytes :=
  ofNat 2 word.toNat

/-- A 32-bit word in four bytes. -/
def ofUInt32 (word : UInt32) : Bytes :=
  ofNat 4 word.toNat

/-- A 64-bit word in eight bytes. -/
def ofUInt64 (word : UInt64) : Bytes :=
  ofNat 8 word.toNat

@[simp] theorem length_ofNat (width n : Nat) : (ofNat width n).length = width := by
  induction width generalizing n with
  | zero => rfl
  | succ width ih => simp [ofNat, ih]

@[simp] theorem toNat_nil : toNat [] = 0 := rfl

@[simp] theorem toNat_append_singleton (bytes : Bytes) (byte : UInt8) :
    toNat (bytes ++ [byte]) = toNat bytes * 256 + byte.toNat := by
  simp [toNat]

/-! ## Prefixes -/

/-- The first `n` bytes and the rest, unless the string is shorter than that. -/
def cut? (n : Nat) (bytes : Bytes) : Option (Bytes × Bytes) :=
  let front := bytes.take n
  if front.length = n then some (front, bytes.drop n) else none

end Bytes
end ModuleRecord
