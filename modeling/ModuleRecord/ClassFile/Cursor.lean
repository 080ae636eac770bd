import ModuleRecord.ClassFile.Error
import ModuleRecord.ClassFile.Flags

/-!
# Reading from a byte string

A `Cursor` is a place in a byte string: the number of bytes before it and the bytes after it. A
`Reader` moves it along, and leaves it where it stopped also when it fails. A read that asks for
more bytes than there are takes all of them, so a fault that names a place names the end.
-/

namespace ModuleRecord

/-- A place in a byte string. -/
structure Cursor where
  /-- How many bytes lie before this place. -/
  offset : Nat
  /-- The bytes from this place on. -/
  rest : Bytes
  deriving DecidableEq, Repr

/-- The place before the first byte. -/
def Cursor.start (bytes : Bytes) : Cursor :=
  ⟨0, bytes⟩

/-- A computation that reads from a place and moves it, whether it succeeds or fails. -/
abbrev Reader := EStateM ClassFile.Error Cursor

namespace Reader

/-! ## Bytes and words -/

/-- The next `n` bytes. -/
def bytes (n : Nat) : Reader Bytes := fun cursor =>
  match Bytes.cut? n cursor.rest with
  | some (front, rest) => .ok front ⟨cursor.offset + n, rest⟩
  | none => .error .unexpectedEnd ⟨cursor.offset + cursor.rest.length, []⟩

/-- The next word of `width` bytes, as a number. -/
def word (width : Nat) : Reader Nat :=
  Bytes.toNat <$> bytes width

/-- The next byte. -/
def u8 : Reader UInt8 :=
  UInt8.ofNat <$> word 1

/-- The next 16-bit word. -/
def u16 : Reader UInt16 :=
  UInt16.ofNat <$> word 2

/-- The next 32-bit word. -/
def u32 : Reader UInt32 :=
  UInt32.ofNat <$> word 4

/-- The next 64-bit word. -/
def u64 : Reader UInt64 :=
  UInt64.ofNat <$> word 8

/-- The known flags of the next 16-bit word. -/
def flags {kind : FlagKind} : Reader (FlagSet kind) :=
  FlagSet.truncate <$> u16

/-! ## Tables -/

/-- A given number of items, one after the other. -/
def list {α : Type} (count : Nat) (item : Reader α) : Reader (List α) :=
  (List.replicate count ()).mapM fun _ => item

/-- A 16-bit count and that many rows. -/
def table {α : Type} (row : Reader α) : Reader (List α) := do
  let count ← u16
  list count.toNat row

/-! ## Attribute bodies -/

/-- The next `n` bytes as the body of an attribute. The place stays put where there are fewer. -/
def body (n : Nat) : Reader Bytes := fun cursor =>
  match Bytes.cut? n cursor.rest with
  | some (front, rest) => .ok front ⟨cursor.offset + n, rest⟩
  | none => .error (.truncatedBody cursor.offset) cursor

/-- Reads within an attribute table or body, where an early end is a truncated body. -/
def withinBody {α : Type} (reader : Reader α) : Reader α := fun cursor =>
  match reader cursor with
  | .error .unexpectedEnd stop => .error (.truncatedBody stop.offset) stop
  | result => result

/-! ## Running -/

/-- Reads from the start of a byte string and drops what is left. -/
def run {α : Type} (reader : Reader α) (bytes : Bytes) : Except ClassFile.Error α :=
  match reader (Cursor.start bytes) with
  | .ok value _ => .ok value
  | .error fault _ => .error fault

end Reader
end ModuleRecord
