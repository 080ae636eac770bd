import ModuleRecord.ClassFile.Attribute
import ModuleRecord.ClassFile.ConstantPool.Bytes

/-!
# Class files

A class file consists of a pool, a head, the fields and methods, and attributes. `ClassFile.parse`
reads one from the start of a byte string and ignores what follows it; `ClassFile.toBytes` writes
one.
-/

namespace ModuleRecord

/-- A field or method. -/
structure Member where
  /-- The access flags. -/
  flags : FlagSet .access
  /-- The slot of the name. -/
  name : UInt16
  /-- The slot of the type. -/
  descriptor : UInt16
  /-- The attributes. -/
  attributes : List Attribute
  deriving DecidableEq

/-- The version of the format that a class file keeps to. -/
structure FormatVersion where
  major : UInt16
  minor : UInt16
  deriving DecidableEq, Repr

/-- A class file. -/
structure ClassFile where
  /-- The format version. -/
  version : FormatVersion
  /-- The pool that all slots refer to. -/
  pool : ConstantPool
  /-- The access flags. -/
  flags : FlagSet .access
  /-- The slot of the class itself. -/
  thisClass : UInt16
  /-- The slot of its superclass, or zero. -/
  superClass : UInt16
  /-- The slots of its interfaces. -/
  interfaces : List UInt16
  fields : List Member
  methods : List Member
  attributes : List Attribute

namespace ClassFile

/-- The first word of every class file. -/
def magic : UInt32 := 0xCAFEBABE

/-- The first format version that can describe a module. -/
def firstModuleVersion : FormatVersion :=
  ⟨53, 0⟩

/-- A module record: a class file with the module flag and nothing but a name and attributes. -/
def moduleRecord (pool : ConstantPool) (thisClass : UInt16) (attributes : List Attribute) :
    ClassFile where
  version := firstModuleVersion
  pool := pool
  flags := FlagSet.truncate Flag.moduleRecord
  thisClass := thisClass
  superClass := 0
  interfaces := []
  fields := []
  methods := []
  attributes := attributes

/-- Whether the module flag is set. -/
def isModuleRecord (file : ClassFile) : Bool :=
  file.flags.has Flag.moduleRecord

/-- The internal name of the class. -/
def name (file : ClassFile) : Except Error String :=
  file.pool.symbolName .classSymbol file.thisClass

end ClassFile

/-! ## Reading -/

/-- Reads a field or method. -/
def Member.read : Reader Member := do
  let flags ← Reader.flags
  let name ← Reader.u16
  let descriptor ← Reader.u16
  let attributes ← Attribute.readTable
  return ⟨flags, name, descriptor, attributes⟩

namespace ClassFile

/-- Reads the first word. -/
def readMagic : Reader Unit := do
  let word ← Reader.u32
  if word ≠ magic then throw (.badMagic word)

/-- Reads a class file. -/
def read : Reader ClassFile := do
  readMagic
  let minor ← Reader.u16
  let major ← Reader.u16
  let pool ← ConstantPool.read
  let flags ← Reader.flags
  let thisClass ← Reader.u16
  let superClass ← Reader.u16
  let interfaces ← Reader.table Reader.u16
  let fields ← Reader.table Member.read
  let methods ← Reader.table Member.read
  let attributes ← Attribute.readTable
  return {
    version := ⟨major, minor⟩
    pool, flags, thisClass, superClass, interfaces, fields, methods, attributes }

/-- The class file at the start of a byte string. -/
def parse (bytes : Bytes) : Except Error ClassFile :=
  read.run bytes

end ClassFile

/-! ## Writing -/

/-- Writes a field or method. -/
def Member.write (member : Member) : Written := do
  let attributes ← Attribute.writeTable member.attributes
  return Bytes.ofUInt16 member.flags.bits ++ Bytes.ofUInt16 member.name ++
    Bytes.ofUInt16 member.descriptor ++ attributes

/-- Writes a class file. -/
def ClassFile.toBytes (file : ClassFile) : Written := do
  let pool ← file.pool.write
  let interfaces ← Written.words file.interfaces
  let fields ← Written.table Member.write file.fields
  let methods ← Written.table Member.write file.methods
  let attributes ← Attribute.writeTable file.attributes
  return Bytes.ofUInt32 magic ++ Bytes.ofUInt16 file.version.minor ++
    Bytes.ofUInt16 file.version.major ++ pool ++ Bytes.ofUInt16 file.flags.bits ++
    Bytes.ofUInt16 file.thisClass ++ Bytes.ofUInt16 file.superClass ++ interfaces ++ fields ++
    methods ++ attributes

end ModuleRecord
