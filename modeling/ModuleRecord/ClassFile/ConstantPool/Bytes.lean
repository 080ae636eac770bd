import ModuleRecord.ClassFile.ConstantPool.Intern
import ModuleRecord.ClassFile.ConstantPool.Tag
import ModuleRecord.ClassFile.Cursor
import ModuleRecord.ClassFile.Table
import ModuleRecord.Text.ModifiedUtf8

/-!
# Pools as bytes

A pool is written as one more than its number of slots, and then its entries, each behind its tag.
The unusable slot after a wide entry takes no bytes: reading puts it back. A wide entry in the last
slot is refused once it has been read whole.
-/

namespace ModuleRecord
namespace ConstantPool

/-! ## Reading -/

/-- Reads what follows a tag. The slot is the place of the entry in the pool. -/
def Tag.read (slot : UInt16) : Tag → Reader Entry
  | utf8 => do
    let size ← Reader.u16
    let bytes ← Reader.bytes size.toNat
    match ModifiedUtf8.decode? bytes with
    | some text => return .utf8 text
    | none => throw (.malformedText slot)
  | integer => return .integer (← Reader.u32).toInt32
  | float => return .float (← Reader.u32)
  | long => return .long (← Reader.u64).toInt64
  | double => return .double (← Reader.u64)
  | symbol kind => return .symbol kind (← Reader.u16)
  | string => return .string (← Reader.u16)
  | fieldRef => return .fieldRef (← Reader.u16) (← Reader.u16)
  | methodRef => return .methodRef (← Reader.u16) (← Reader.u16)
  | interfaceMethodRef => return .interfaceMethodRef (← Reader.u16) (← Reader.u16)
  | nameAndType => return .nameAndType (← Reader.u16) (← Reader.u16)
  | methodHandle => return .methodHandle (← Reader.u8) (← Reader.u16)
  | methodType => return .methodType (← Reader.u16)
  | dynamic => return .dynamic (← Reader.u16) (← Reader.u16)
  | invokeDynamic => return .invokeDynamic (← Reader.u16) (← Reader.u16)

/-- Reads a tag and what follows it. -/
def Entry.read (slot : UInt16) : Reader Entry := do
  let byte ← Reader.u8
  match Tag.ofByte? byte with
  | some tag => tag.read slot
  | none => throw (.unknownTag byte)

/-- Fills a number of slots after those that are taken. -/
def readSlots : (free : Nat) → Array Entry → Reader (Array Entry)
  | 0, taken => return taken
  | free + 1, taken => do
    let slot := UInt16.ofNat (taken.size + 1)
    let entry ← Entry.read slot
    if entry.isWide then
      match free with
      | 0 => throw (.badIndex slot .singleSlot)
      | free + 1 => readSlots free ((taken.push entry).push .unusable)
    else readSlots free (taken.push entry)

/-- Reads a pool. A count of zero stands for an empty pool, like a count of one. -/
def read : Reader ConstantPool := do
  let count ← Reader.u16
  let entries ← readSlots (count.toNat - 1) #[]
  return ofList entries.toList

/-! ## Writing -/

/-- What follows the tag of an entry. -/
def Entry.writeBody : Entry → Written
  | utf8 text =>
    let bytes := ModifiedUtf8.encode text
    if bytes.length ≤ 0xFFFF then .ok (Bytes.ofNat 2 bytes.length ++ bytes)
    else .error (.textTooLong bytes.length)
  | integer value => .ok (Bytes.ofUInt32 value.toUInt32)
  | float bits => .ok (Bytes.ofUInt32 bits)
  | long value => .ok (Bytes.ofUInt64 value.toUInt64)
  | double bits => .ok (Bytes.ofUInt64 bits)
  | symbol _ name => .ok (Bytes.ofUInt16 name)
  | string text => .ok (Bytes.ofUInt16 text)
  | fieldRef owner member => .ok (Bytes.ofUInt16 owner ++ Bytes.ofUInt16 member)
  | methodRef owner member => .ok (Bytes.ofUInt16 owner ++ Bytes.ofUInt16 member)
  | interfaceMethodRef owner member => .ok (Bytes.ofUInt16 owner ++ Bytes.ofUInt16 member)
  | nameAndType name descriptor => .ok (Bytes.ofUInt16 name ++ Bytes.ofUInt16 descriptor)
  | methodHandle kind target => .ok (kind :: Bytes.ofUInt16 target)
  | methodType descriptor => .ok (Bytes.ofUInt16 descriptor)
  | dynamic bootstrap member => .ok (Bytes.ofUInt16 bootstrap ++ Bytes.ofUInt16 member)
  | invokeDynamic bootstrap member => .ok (Bytes.ofUInt16 bootstrap ++ Bytes.ofUInt16 member)
  | unusable => .ok []

/-- An entry with its tag in front. -/
def Entry.write (entry : Entry) : Written :=
  match entry.tag? with
  | some tag => (tag.toByte :: ·) <$> entry.writeBody
  | none => .ok []

/-- A pool with its count in front. -/
def write (pool : ConstantPool) : Written := do
  if capacity < pool.size then throw (.tableTooLarge pool.size)
  let entries ← Written.list Entry.write pool.toList
  return Bytes.ofNat 2 (pool.size + 1) ++ entries

end ConstantPool
end ModuleRecord
