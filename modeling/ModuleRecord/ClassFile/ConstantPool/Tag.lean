import ModuleRecord.ClassFile.ConstantPool.Basic

/-!
# Tags of pool entries

Each entry but the unusable slot is written with a tag byte in front, which says how to read it.
-/

namespace ModuleRecord
namespace ConstantPool

/-- What a tag byte announces. -/
inductive Tag where
  | utf8
  | integer
  | float
  | long
  | double
  | symbol (kind : SymbolKind)
  | string
  | fieldRef
  | methodRef
  | interfaceMethodRef
  | nameAndType
  | methodHandle
  | methodType
  | dynamic
  | invokeDynamic
  deriving DecidableEq, Repr

namespace Tag

/-- The byte of a tag. -/
def toByte : Tag → UInt8
  | utf8 => 1
  | integer => 3
  | float => 4
  | long => 5
  | double => 6
  | symbol .classSymbol => 7
  | string => 8
  | fieldRef => 9
  | methodRef => 10
  | interfaceMethodRef => 11
  | nameAndType => 12
  | methodHandle => 15
  | methodType => 16
  | dynamic => 17
  | invokeDynamic => 18
  | symbol .moduleSymbol => 19
  | symbol .packageSymbol => 20

/-- All tags, in the order of their bytes. -/
def all : List Tag :=
  [utf8, integer, float, long, double, symbol .classSymbol, string, fieldRef, methodRef,
    interfaceMethodRef, nameAndType, methodHandle, methodType, dynamic, invokeDynamic,
    symbol .moduleSymbol, symbol .packageSymbol]

/-- The tag of a byte, where there is one. -/
def ofByte? (byte : UInt8) : Option Tag :=
  all.find? fun tag => tag.toByte == byte

@[simp] theorem ofByte?_toByte (tag : Tag) : ofByte? tag.toByte = some tag := by
  cases tag with
  | symbol kind => cases kind <;> rfl
  | _ => rfl

end Tag

/-- The tag that an entry is written with. -/
def Entry.tag? : Entry → Option Tag
  | utf8 _ => some .utf8
  | integer _ => some .integer
  | float _ => some .float
  | long _ => some .long
  | double _ => some .double
  | symbol kind _ => some (.symbol kind)
  | string _ => some .string
  | fieldRef _ _ => some .fieldRef
  | methodRef _ _ => some .methodRef
  | interfaceMethodRef _ _ => some .interfaceMethodRef
  | nameAndType _ _ => some .nameAndType
  | methodHandle _ _ => some .methodHandle
  | methodType _ => some .methodType
  | dynamic _ _ => some .dynamic
  | invokeDynamic _ _ => some .invokeDynamic
  | unusable => none

end ConstantPool
end ModuleRecord
