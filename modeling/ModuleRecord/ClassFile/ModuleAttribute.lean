import ModuleRecord.ClassFile.Cursor
import ModuleRecord.ClassFile.Table

/-!
# The attributes of a module record

Five kinds of attribute make up a module record. Their bodies hold flags, pool slots and digests;
what the slots stand for is left to whoever has the pool.
-/

namespace ModuleRecord

/-! ## Kinds -/

/-- The kinds of attribute of a module record. -/
inductive AttributeKind where
  /-- The declaration of the module. -/
  | declaration
  /-- All packages of the module. -/
  | packages
  /-- Digests of other modules. -/
  | hashes
  /-- The main class. -/
  | mainClass
  /-- The target platform. -/
  | target
  deriving DecidableEq, Repr

namespace AttributeKind

/-- All kinds, in the order in which they are written. -/
def all : List AttributeKind :=
  [declaration, packages, hashes, mainClass, target]

/-- The attribute name of a kind. -/
def name : AttributeKind → String
  | declaration => "Module"
  | packages => "ModulePackages"
  | hashes => "ModuleHashes"
  | mainClass => "ModuleMainClass"
  | target => "ModuleTarget"

/-- The kind with the given attribute name. -/
def ofName? (name : String) : Option AttributeKind :=
  all.find? fun kind => kind.name == name

end AttributeKind

/-! ## Contents -/

/-- A row for a required module. -/
structure RequiresRow where
  /-- The slot of the module. -/
  target : UInt16
  flags : FlagSet .requires
  /-- The slot of the version, or zero. -/
  version : UInt16
  deriving DecidableEq

/-- A row for a package that is exported or opened. -/
structure ExportsRow where
  /-- The slot of the package. -/
  package : UInt16
  flags : FlagSet .exports
  /-- The slots of the modules that it is for; none stands for all. -/
  targets : List UInt16
  deriving DecidableEq

/-- A row for a service that is provided. -/
structure ProvidesRow where
  /-- The slot of the service. -/
  service : UInt16
  /-- The slots of its implementations. -/
  implementations : List UInt16
  deriving DecidableEq

/-- The content of a declaration attribute. -/
structure DeclarationTable where
  /-- The slot of the module. -/
  name : UInt16
  flags : FlagSet .declaration
  /-- The slot of the version, or zero. -/
  version : UInt16
  requires : List RequiresRow
  exports : List ExportsRow
  opens : List ExportsRow
  /-- The slots of the services that are used. -/
  uses : List UInt16
  provides : List ProvidesRow
  deriving DecidableEq

/-- A row for the digest of a module. -/
structure HashRow where
  /-- The slot of the module. -/
  target : UInt16
  digest : Bytes
  deriving DecidableEq, Repr

/-- The content of a digest attribute. -/
structure HashTable where
  /-- The slot of the name of the algorithm. -/
  algorithm : UInt16
  hashes : List HashRow
  deriving DecidableEq, Repr

/-- The content of an attribute of a module record. -/
inductive ModuleAttribute where
  | declaration (table : DeclarationTable)
  | packages (slots : List UInt16)
  | hashes (table : HashTable)
  | mainClass (slot : UInt16)
  | target (slot : UInt16)
  deriving DecidableEq

/-- The kind of an attribute. -/
def ModuleAttribute.kind : ModuleAttribute → AttributeKind
  | declaration _ => .declaration
  | packages _ => .packages
  | hashes _ => .hashes
  | mainClass _ => .mainClass
  | target _ => .target

/-! ## Reading -/

/-- Reads a row for a required module. -/
def RequiresRow.read : Reader RequiresRow :=
  return ⟨← Reader.u16, ← Reader.flags, ← Reader.u16⟩

/-- Reads a row for an exported or opened package. -/
def ExportsRow.read : Reader ExportsRow :=
  return ⟨← Reader.u16, ← Reader.flags, ← Reader.table Reader.u16⟩

/-- Reads a row for a provided service. -/
def ProvidesRow.read : Reader ProvidesRow :=
  return ⟨← Reader.u16, ← Reader.table Reader.u16⟩

/-- Reads the body of a declaration attribute. -/
def DeclarationTable.read : Reader DeclarationTable := do
  let name ← Reader.u16
  let flags ← Reader.flags
  let version ← Reader.u16
  let requires ← Reader.table RequiresRow.read
  let exports ← Reader.table ExportsRow.read
  let opens ← Reader.table ExportsRow.read
  let uses ← Reader.table Reader.u16
  let provides ← Reader.table ProvidesRow.read
  return ⟨name, flags, version, requires, exports, opens, uses, provides⟩

/-- Reads a digest with its length in front. -/
def HashRow.read : Reader HashRow := do
  let target ← Reader.u16
  let length ← Reader.u16
  let digest ← Reader.bytes length.toNat
  return ⟨target, digest⟩

/-- Reads the body of a digest attribute. -/
def HashTable.read : Reader HashTable :=
  return ⟨← Reader.u16, ← Reader.table HashRow.read⟩

/-- Reads the body of an attribute of the given kind. -/
def ModuleAttribute.read (kind : AttributeKind) : Reader ModuleAttribute :=
  Reader.withinBody <|
    match kind with
    | .declaration => .declaration <$> DeclarationTable.read
    | .packages => .packages <$> Reader.table Reader.u16
    | .hashes => .hashes <$> HashTable.read
    | .mainClass => .mainClass <$> Reader.u16
    | .target => .target <$> Reader.u16

/-! ## Writing -/

/-- Writes a row for a required module. -/
def RequiresRow.write (row : RequiresRow) : Written :=
  .ok (Bytes.ofUInt16 row.target ++ Bytes.ofUInt16 row.flags.bits ++ Bytes.ofUInt16 row.version)

/-- Writes a row for an exported or opened package. -/
def ExportsRow.write (row : ExportsRow) : Written := do
  let targets ← Written.words row.targets
  return Bytes.ofUInt16 row.package ++ Bytes.ofUInt16 row.flags.bits ++ targets

/-- Writes a row for a provided service. -/
def ProvidesRow.write (row : ProvidesRow) : Written := do
  let implementations ← Written.words row.implementations
  return Bytes.ofUInt16 row.service ++ implementations

/-- Writes the body of a declaration attribute. -/
def DeclarationTable.write (table : DeclarationTable) : Written := do
  let requires ← Written.table RequiresRow.write table.requires
  let exports ← Written.table ExportsRow.write table.exports
  let opens ← Written.table ExportsRow.write table.opens
  let uses ← Written.words table.uses
  let provides ← Written.table ProvidesRow.write table.provides
  return Bytes.ofUInt16 table.name ++ Bytes.ofUInt16 table.flags.bits ++
    Bytes.ofUInt16 table.version ++ requires ++ exports ++ opens ++ uses ++ provides

/-- Writes a digest with its length in front. -/
def HashRow.write (row : HashRow) : Written := do
  let length ← Written.count row.digest.length
  return Bytes.ofUInt16 row.target ++ length ++ row.digest

/-- Writes the body of a digest attribute. -/
def HashTable.write (table : HashTable) : Written := do
  let hashes ← Written.table HashRow.write table.hashes
  return Bytes.ofUInt16 table.algorithm ++ hashes

/-- Writes the body of an attribute. -/
def ModuleAttribute.write : ModuleAttribute → Written
  | declaration table => table.write
  | packages slots => Written.words slots
  | hashes table => table.write
  | mainClass slot => .ok (Bytes.ofUInt16 slot)
  | target slot => .ok (Bytes.ofUInt16 slot)

end ModuleRecord
