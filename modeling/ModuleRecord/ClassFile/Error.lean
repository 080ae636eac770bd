import ModuleRecord.Bytes.Hex

/-!
# Faults of class files

One inductive type names every reason for which a class file, or a part of one, cannot be read,
resolved or written. `ClassFile.Error.message` words them.
-/

namespace ModuleRecord

/-- The kinds of pool entries that consist of a name. -/
inductive SymbolKind where
  /-- A class or interface. -/
  | classSymbol
  /-- A module. -/
  | moduleSymbol
  /-- A package. -/
  | packageSymbol
  deriving DecidableEq, Hashable, Repr

namespace ClassFile

/-- What a pool index was expected to denote. -/
inductive Expected where
  /-- A text. -/
  | utf8
  /-- A symbol of a kind. -/
  | symbol (kind : SymbolKind)
  /-- Any entry that takes one slot. -/
  | singleSlot
  deriving DecidableEq, Repr

/-- The word for an expectation. -/
def Expected.text : Expected → String
  | utf8 => "Utf8"
  | symbol .classSymbol => "Class"
  | symbol .moduleSymbol => "Module"
  | symbol .packageSymbol => "Package"
  | singleSlot => "single-slot entry"

/-- The faults of a class file. -/
inductive Error where
  /-- The bytes end too early, outside every attribute table. -/
  | unexpectedEnd
  /-- The first four bytes are not those of a class file. -/
  | badMagic (word : UInt32)
  /-- No kind of pool entry has this tag. -/
  | unknownTag (tag : UInt8)
  /-- A pool index does not denote what its position needs. -/
  | badIndex (index : UInt16) (expected : Expected)
  /-- The bytes of a text entry are not modified UTF-8. -/
  | malformedText (slot : UInt16)
  /-- A text takes more bytes than a text entry can hold. -/
  | textTooLong (size : Nat)
  /-- The bytes end within an attribute table or an attribute body. -/
  | truncatedBody (offset : Nat)
  /-- An attribute body takes more bytes than its length field can count. -/
  | bodyTooLarge (size : Nat)
  /-- A table has more rows than its count field can count. -/
  | tableTooLarge (count : Nat)
  /-- The pool has no free slot. -/
  | poolFull
  deriving DecidableEq, Repr

/-- The wording of a fault. -/
def Error.message : Error → String
  | unexpectedEnd => "failed to fill whole buffer"
  | badMagic word => "Invalid magic identifier: 0x" ++ (Hex.ofNat word.toNat).toUpper
  | unknownTag tag => "Invalid cp info tag: " ++ toString tag.toNat
  | badIndex index expected =>
    "Invalid constant pool index " ++ toString index.toNat ++ ": expected " ++ expected.text
  | malformedText slot => "Malformed modified UTF-8 at constant pool slot " ++ toString slot.toNat
  | textTooLong size => "String of " ++ toString size ++ " bytes does not fit a CONSTANT_Utf8_info"
  | truncatedBody offset => "Attribute body truncated at offset " ++ toString offset
  | bodyTooLarge size => "Attribute body of " ++ toString size ++ " bytes does not fit a u4 length"
  | tableTooLarge count => "Table of " ++ toString count ++ " entries does not fit a u2 count"
  | poolFull => "Constant pool is full"

end ClassFile
end ModuleRecord
