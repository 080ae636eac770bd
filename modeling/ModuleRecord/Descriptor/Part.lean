import ModuleRecord.ClassFile.ConstantPool.Intern
import ModuleRecord.ClassFile.ConstantPool.Resolve
import ModuleRecord.ClassFile.ModuleAttribute
import ModuleRecord.Descriptor.Basic
import ModuleRecord.Descriptor.Error

/-!
# Parts of a module record

A part is what one attribute of a module record says, with names in place of slots. Resolving an
attribute against a pool gives its part; laying a part out in a pool gives its attribute. Opened
packages are no part of a descriptor: resolving drops them and laying out writes none.
-/

namespace ModuleRecord

open Descriptor (Error Role)

/-- What one attribute of a module record says. -/
inductive Part where
  | declaration (content : Declaration)
  | packages (names : List String)
  | hashes (record : HashRecord)
  | mainClass (name : String)
  | target (platform : String)
  deriving DecidableEq, Repr

/-- The kind of the attribute that a part is written as. -/
def Part.kind : Part → AttributeKind
  | declaration _ => .declaration
  | packages _ => .packages
  | hashes _ => .hashes
  | mainClass _ => .mainClass
  | target _ => .target

/-! ## Resolving -/

namespace Resolve

/-- Passes on a fault of the class file. -/
def ofClassFile {α : Type} : Except ClassFile.Error α → Except Error α
  | .ok value => .ok value
  | .error fault => .error (.classFile fault)

/-- A name that has been resolved, unless it is empty. -/
def nonEmpty (role : Role) (name : Except ClassFile.Error String) : Except Error String := do
  let name ← ofClassFile name
  if name = "" then throw (.emptyName role) else return name

/-- The text in a slot, where slot zero stands for no text. -/
def optionalUtf8 (pool : ConstantPool) (slot : UInt16) : Except Error (Option String) :=
  if slot = 0 then .ok none else some <$> ofClassFile (pool.utf8 slot)

end Resolve

open Resolve

/-- Resolves a row for a required module: the module, then the version. -/
def RequiresRow.resolve (pool : ConstantPool) (row : RequiresRow) : Except Error Requirement := do
  let target ← nonEmpty .requiredModule (pool.moduleName row.target)
  let version ← optionalUtf8 pool row.version
  return {
    target
    version
    isStatic := row.flags.has Flag.staticPhase
    isTransitive := row.flags.has Flag.transitive
    isMandated := row.flags.has Flag.mandated
    isSynthetic := row.flags.has Flag.synthetic }

/-- Resolves a row for an exported package: the package, then the targets. -/
def ExportsRow.resolve (pool : ConstantPool) (row : ExportsRow) : Except Error Export := do
  let package ← nonEmpty .exportedPackage (pool.packageName row.package)
  let targets ← row.targets.mapM fun slot => nonEmpty .exportTarget (pool.moduleName slot)
  return {
    package
    targets
    isSynthetic := row.flags.has Flag.synthetic
    isMandated := row.flags.has Flag.mandated }

/-- Resolves a row for a provided service: the service, then the implementations. -/
def ProvidesRow.resolve (pool : ConstantPool) (row : ProvidesRow) : Except Error Provision := do
  let service ← nonEmpty .service (pool.className row.service)
  let implementations ←
    row.implementations.mapM fun slot => nonEmpty .implementation (pool.className slot)
  return ⟨service, implementations⟩

/-- Resolves a declaration: name, version, requirements, exports, uses, provisions. -/
def DeclarationTable.resolve (pool : ConstantPool) (table : DeclarationTable) :
    Except Error Declaration := do
  let name ← nonEmpty .declaredModule (pool.moduleName table.name)
  let version ← optionalUtf8 pool table.version
  let requires ← table.requires.mapM (RequiresRow.resolve pool)
  let exports ← table.exports.mapM (ExportsRow.resolve pool)
  let uses ← table.uses.mapM fun slot => nonEmpty .service (pool.className slot)
  let provides ← table.provides.mapM (ProvidesRow.resolve pool)
  return {
    name
    version
    isOpen := table.flags.has Flag.openModule
    isSynthetic := table.flags.has Flag.synthetic
    isMandated := table.flags.has Flag.mandated
    requires
    exports
    provides
    uses }

/-- Resolves a row for a digest. -/
def HashRow.resolve (pool : ConstantPool) (row : HashRow) : Except Error ModuleHash := do
  let target ← nonEmpty .hashedModule (pool.moduleName row.target)
  return ⟨target, Hex.encode row.digest⟩

/-- Resolves digests: the algorithm, then the rows. -/
def HashTable.resolve (pool : ConstantPool) (table : HashTable) : Except Error HashRecord := do
  let algorithm ← nonEmpty .hashAlgorithm (pool.utf8 table.algorithm)
  let hashes ← table.hashes.mapM (HashRow.resolve pool)
  return ⟨algorithm, hashes⟩

/-- The part that an attribute says. -/
def ModuleAttribute.resolve (pool : ConstantPool) : ModuleAttribute → Except Error Part
  | declaration table => .declaration <$> table.resolve pool
  | packages slots =>
    .packages <$> slots.mapM fun slot => nonEmpty .package (pool.packageName slot)
  | hashes table => .hashes <$> table.resolve pool
  | mainClass slot => .mainClass <$> nonEmpty .mainClass (pool.className slot)
  | target slot => .target <$> ofClassFile (pool.utf8 slot)

/-! ## Laying out -/

/-- A computation that lays something out in a pool. What it has interned before a failure stays. -/
abbrev Layout := EStateM Error ConstantPool

namespace Layout

/-- Interns as part of a layout. -/
def intern {α : Type} (interning : ConstantPool.Interning α) : Layout α :=
  interning.adaptExcept .classFile

/-- The slot of a class. -/
def internClass (name : String) : Layout UInt16 :=
  intern (ConstantPool.internClass name)

/-- The slot of a module. -/
def internModule (name : String) : Layout UInt16 :=
  intern (ConstantPool.internModule name)

/-- The slot of a package. -/
def internPackage (name : String) : Layout UInt16 :=
  intern (ConstantPool.internPackage name)

/-- The slot of a text. -/
def internUtf8 (text : String) : Layout UInt16 :=
  intern (ConstantPool.internUtf8 text)

/-- The slot of a text that may be absent; slot zero stands for no text. -/
def internOptional : Option String → Layout UInt16
  | some text => internUtf8 text
  | none => return 0

/-- Takes over what has been written. -/
def ofWritten (written : Written) : Layout Bytes :=
  match written with
  | .ok bytes => return bytes
  | .error fault => throw (.classFile fault)

end Layout

open Layout

/-- Lays out a requirement. -/
def Requirement.layout (item : Requirement) : Layout RequiresRow := do
  let target ← internModule item.target
  let version ← internOptional item.version
  let flags := .ofSwitches
    [(Flag.staticPhase, item.isStatic), (Flag.transitive, item.isTransitive),
      (Flag.synthetic, item.isSynthetic), (Flag.mandated, item.isMandated)]
  return ⟨target, flags, version⟩

/-- Lays out an export. -/
def Export.layout (item : Export) : Layout ExportsRow := do
  let package ← internPackage item.package
  let targets ← item.targets.mapM internModule
  let flags := .ofSwitches
    [(Flag.synthetic, item.isSynthetic), (Flag.mandated, item.isMandated)]
  return ⟨package, flags, targets⟩

/-- Lays out a provision, which needs an implementation. -/
def Provision.layout (item : Provision) : Layout ProvidesRow := do
  if item.implementations.isEmpty then throw (.unimplementedService item.service)
  let service ← internClass item.service
  let implementations ← item.implementations.mapM internClass
  return ⟨service, implementations⟩

/-- Lays out a declaration: name, version, requirements, exports, uses, provisions. -/
def Declaration.layout (declaration : Declaration) : Layout DeclarationTable := do
  let name ← internModule declaration.name
  let version ← internOptional declaration.version
  let requires ← declaration.requires.mapM Requirement.layout
  let exports ← declaration.exports.mapM Export.layout
  let uses ← declaration.uses.mapM internClass
  let provides ← declaration.provides.mapM Provision.layout
  let flags := .ofSwitches
    [(Flag.openModule, declaration.isOpen), (Flag.synthetic, declaration.isSynthetic),
      (Flag.mandated, declaration.isMandated)]
  return { name, flags, version, requires, exports, opens := [], uses, provides }

/-- Lays out a digest, once its digits have been read. -/
def ModuleHash.layout (hash : ModuleHash) : Layout HashRow := do
  match Hex.decode? hash.digest with
  | some digest => return ⟨← internModule hash.target, digest⟩
  | none => throw (.invalidDigest hash.target hash.digest)

/-- Lays out digests: the algorithm, then the rows. -/
def HashRecord.layout (record : HashRecord) : Layout HashTable := do
  let algorithm ← internUtf8 record.algorithm
  let hashes ← record.hashes.mapM ModuleHash.layout
  return ⟨algorithm, hashes⟩

/-- The attribute of a part. -/
def Part.layout : Part → Layout ModuleAttribute
  | declaration content => .declaration <$> content.layout
  | packages names => .packages <$> names.mapM internPackage
  | hashes record => .hashes <$> record.layout
  | mainClass name => .mainClass <$> internClass name
  | target platform => .target <$> internUtf8 platform

end ModuleRecord
