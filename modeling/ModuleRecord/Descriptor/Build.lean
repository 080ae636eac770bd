import ModuleRecord.Descriptor.Error
import ModuleRecord.Descriptor.JavaBase
import ModuleRecord.Descriptor.Name

/-!
# Building descriptors

Building checks every name and digest of a draft, in a fixed order so that the first fault decides.
It writes digests in lowercase and applies the rule of the base module, and leaves all else alone.
-/

namespace ModuleRecord

open Descriptor (Error Role)

namespace Descriptor

/-- Refuses an empty name. -/
def checkNonEmpty (role : Role) (name : String) : Except Error Unit :=
  if name = "" then .error (.emptyName role) else .ok ()

/-- Refuses what is not a module name. -/
def checkModuleName (role : Role) (name : String) : Except Error Unit := do
  checkNonEmpty role name
  if !Name.isModuleName name then throw (.invalidName role name)

/-- Refuses what is not a binary name. -/
def checkBinaryName (role : Role) (name : String) : Except Error Unit := do
  checkNonEmpty role name
  if !Name.isBinaryName name then throw (.invalidName role name)

end Descriptor

open Descriptor

/-- Checks the names of an export: the package, then the targets. -/
def Export.check (item : Export) : Except Error Unit := do
  checkBinaryName .exportedPackage item.package
  item.targets.forM (checkModuleName .exportTarget)

/-- Checks the names of a provision: the service, then the implementations. -/
def Provision.check (item : Provision) : Except Error Unit := do
  checkBinaryName .service item.service
  item.implementations.forM (checkBinaryName .implementation)

/-- Checks the module name and the digest, and writes the digest in lowercase. -/
def ModuleHash.check (hash : ModuleHash) : Except Error ModuleHash := do
  checkModuleName .hashedModule hash.target
  match Hex.decode? hash.digest with
  | some bytes => return { hash with digest := Hex.encode bytes }
  | none => throw (.invalidDigest hash.target hash.digest)

/-- Checks the algorithm, then the digests. -/
def HashRecord.check (record : HashRecord) : Except Error HashRecord := do
  checkNonEmpty .hashAlgorithm record.algorithm
  let hashes ← record.hashes.mapM ModuleHash.check
  return { record with hashes }

/-- The descriptor of a draft without fault. -/
def Draft.build (draft : Draft) : Except Error Descriptor := do
  checkModuleName .declaredModule draft.name
  draft.requires.forM fun requirement => checkModuleName .requiredModule requirement.target
  draft.exports.forM Export.check
  draft.provides.forM Provision.check
  draft.uses.forM (checkBinaryName .service)
  draft.packages.forM (checkBinaryName .package)
  draft.mainClass.forM (checkBinaryName .mainClass)
  let hashes ← draft.hashes.mapM HashRecord.check
  let requires := Requirement.requireJavaBase draft.name draft.requires
  return { toDraft := { draft with requires, hashes } }

namespace Descriptor

/-- The descriptor of a module with nothing but a name. -/
def new (name : String) : Except Error Descriptor :=
  (Draft.plain name).build

/-- The descriptor after a change to its contents. -/
def edit (descriptor : Descriptor) (change : Draft → Draft) : Except Error Descriptor :=
  (change descriptor.toDraft).build

/-- Applies the rule of the base module once more, and keeps the descriptor if that is refused. -/
def normalize (descriptor : Descriptor) : Descriptor :=
  let requires := Requirement.requireJavaBase descriptor.name descriptor.requires
  if requires = descriptor.requires then descriptor
  else
    match descriptor.edit fun draft => { draft with requires } with
    | .ok normalized => normalized
    | .error _ => descriptor

end Descriptor
end ModuleRecord
