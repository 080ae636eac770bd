import ModuleRecord.ClassFile.Basic
import ModuleRecord.Descriptor.Build
import ModuleRecord.Descriptor.Part

/-!
# Descriptors as class files

Reading a module record resolves the attributes that are known by name and passes over the others.
Of several declarations, main classes and targets the last one counts; packages and digests add up.
Writing lays out one attribute for each part of the descriptor in a fresh pool.
-/

namespace ModuleRecord

open Descriptor (Error)
open Layout

/-! ## Reading -/

/-- The part that an attribute says, or none where its name is not known. -/
def Part.ofAttribute? (pool : ConstantPool) (item : Attribute) : Except Error (Option Part) := do
  let name ← Resolve.ofClassFile (pool.utf8 item.name)
  match AttributeKind.ofName? name with
  | none => return none
  | some kind =>
    let content ← Resolve.ofClassFile ((ModuleAttribute.read kind).run item.body)
    some <$> content.resolve pool

namespace Part

/-- The declaration that a part makes. -/
def declaration? : Part → Option Declaration
  | declaration content => some content
  | _ => none

/-- The packages that a part lists. -/
def packageNames : Part → List String
  | packages names => names
  | _ => []

/-- The digests that a part holds. -/
def hashRecord? : Part → Option HashRecord
  | hashes record => some record
  | _ => none

/-- The main class that a part names. -/
def mainClass? : Part → Option String
  | mainClass name => some name
  | _ => none

/-- The target platform that a part names. -/
def target? : Part → Option String
  | target platform => some platform
  | _ => none

end Part

/-- The draft that a row of parts makes up, if they declare a module. -/
def Draft.ofParts? (parts : List Part) : Option Draft := do
  let declaration ← (parts.filterMap Part.declaration?).getLast?
  return {
    toDeclaration := declaration
    packages := parts.flatMap Part.packageNames
    hashes := parts.filterMap Part.hashRecord?
    mainClass := (parts.filterMap Part.mainClass?).getLast?
    targetPlatform := (parts.filterMap Part.target?).getLast? }

namespace Descriptor

/-- The descriptor of a module record. -/
def ofClassFile (file : ClassFile) : Except Error Descriptor := do
  if !file.isModuleRecord then throw .notModuleRecord
  let parts ← file.attributes.mapM (Part.ofAttribute? file.pool)
  match Draft.ofParts? (parts.filterMap id) with
  | some draft => draft.build
  | none => throw .missingDeclaration

/-- The descriptor in the bytes of a module record. -/
def decode (bytes : Bytes) : Except Error Descriptor := do
  let file ← Resolve.ofClassFile (ClassFile.parse bytes)
  ofClassFile file

end Descriptor

/-! ## Writing -/

/-- Lays out a part, writes its body, and interns the name of its attribute. -/
def Part.attribute (part : Part) : Layout Attribute := do
  let content ← part.layout
  let body ← ofWritten content.write
  let name ← internUtf8 part.kind.name
  return ⟨name, body⟩

/-- The parts of a draft, in the order in which they are written. -/
def Draft.parts (draft : Draft) : List Part :=
  [.declaration draft.toDeclaration] ++
    (if draft.packages.isEmpty then [] else [.packages draft.packages]) ++
    draft.hashes.map .hashes ++
    draft.mainClass.toList.map .mainClass ++
    draft.targetPlatform.toList.map .target

namespace Descriptor

/-- The name that the class of a module record has. -/
def recordClass : String := "module-info"

/-- Lays out the class and the attributes of a module record. -/
def layout (descriptor : Descriptor) : Layout (UInt16 × List Attribute) := do
  let thisClass ← internClass recordClass
  let attributes ← descriptor.parts.mapM Part.attribute
  return (thisClass, attributes)

/-- The module record of a descriptor. -/
def toClassFile (descriptor : Descriptor) : Except Error ClassFile :=
  match descriptor.layout .empty with
  | .ok (thisClass, attributes) pool => .ok (.moduleRecord pool thisClass attributes)
  | .error fault _ => .error fault

/-- The bytes of the module record of a descriptor. -/
def encode (descriptor : Descriptor) : Except Error Bytes := do
  let file ← descriptor.toClassFile
  Resolve.ofClassFile file.toBytes

end Descriptor
end ModuleRecord
