import ModuleRecord.Descriptor.Build
import ModuleRecord.Json.Decode
import ModuleRecord.Json.Scanner
import ModuleRecord.Json.Text

/-!
# Descriptors as JSON

A descriptor is written as one object, without the fields that have their default value. It is read
as a draft, whose fields may all be left out, and the draft is then built.
-/

namespace ModuleRecord

open Json (Decoder Fault)
open Json.Text (Member)

/-! ## Reading -/

/-- The fields of a requirement. -/
def Requirement.fields : List (Json.Field Requirement) :=
  [.required "module" Decoder.text fun value item => { item with target := value },
    .optional "version" Decoder.optionalText fun value item => { item with version := value },
    .optional "static" Decoder.flag fun value item => { item with isStatic := value },
    .optional "transitive" Decoder.flag fun value item => { item with isTransitive := value },
    .optional "mandated" Decoder.flag fun value item => { item with isMandated := value },
    .optional "synthetic" Decoder.flag fun value item => { item with isSynthetic := value }]

/-- Takes a requirement out of a node. -/
def Requirement.decoder : Decoder Requirement :=
  Decoder.record fields (Requirement.plain "")

/-- The fields of an export. -/
def Export.fields : List (Json.Field Export) :=
  [.required "package" Decoder.text fun value item => { item with package := value },
    .optional "to" (Decoder.list Decoder.text) fun value item => { item with targets := value },
    .optional "synthetic" Decoder.flag fun value item => { item with isSynthetic := value },
    .optional "mandated" Decoder.flag fun value item => { item with isMandated := value }]

/-- Takes an export out of a node. -/
def Export.decoder : Decoder Export :=
  Decoder.record fields ⟨"", [], false, false⟩

/-- The fields of a provision. -/
def Provision.fields : List (Json.Field Provision) :=
  [.required "service" Decoder.text fun value item => { item with service := value },
    .optional "with" (Decoder.list Decoder.text) fun value item =>
      { item with implementations := value }]

/-- Takes a provision out of a node. -/
def Provision.decoder : Decoder Provision :=
  Decoder.record fields ⟨"", []⟩

/-- The fields of the digest of a module. -/
def ModuleHash.fields : List (Json.Field ModuleHash) :=
  [.required "module" Decoder.text fun value item => { item with target := value },
    .required "hash" Decoder.text fun value item => { item with digest := value }]

/-- Takes the digest of a module out of a node. -/
def ModuleHash.decoder : Decoder ModuleHash :=
  Decoder.record fields ⟨"", ""⟩

/-- The fields of the digests of one algorithm. -/
def HashRecord.fields : List (Json.Field HashRecord) :=
  [.required "algorithm" Decoder.text fun value item => { item with algorithm := value },
    .optional "hashes" (Decoder.list ModuleHash.decoder) fun value item =>
      { item with hashes := value }]

/-- Takes the digests of one algorithm out of a node. -/
def HashRecord.decoder : Decoder HashRecord :=
  Decoder.record fields ⟨"", []⟩

/-- The fields of a draft. -/
def Draft.fields : List (Json.Field Draft) :=
  [.optional "name" Decoder.text fun value draft => { draft with name := value },
    .optional "version" Decoder.optionalText fun value draft => { draft with version := value },
    .optional "open" Decoder.flag fun value draft => { draft with isOpen := value },
    .optional "synthetic" Decoder.flag fun value draft => { draft with isSynthetic := value },
    .optional "mandated" Decoder.flag fun value draft => { draft with isMandated := value },
    .optional "requires" (Decoder.list Requirement.decoder) fun value draft =>
      { draft with requires := value },
    .optional "exports" (Decoder.list Export.decoder) fun value draft =>
      { draft with exports := value },
    .optional "provides" (Decoder.list Provision.decoder) fun value draft =>
      { draft with provides := value },
    .optional "uses" (Decoder.list Decoder.text) fun value draft => { draft with uses := value },
    .optional "packages" (Decoder.list Decoder.text) fun value draft =>
      { draft with packages := value },
    .optional "hashes" (Decoder.list HashRecord.decoder) fun value draft =>
      { draft with hashes := value },
    .optional "mainClass" Decoder.optionalText fun value draft =>
      { draft with mainClass := value },
    .optional "targetPlatform" Decoder.optionalText fun value draft =>
      { draft with targetPlatform := value }]

/-- Takes a draft out of a node. -/
def Draft.decoder : Decoder Draft :=
  Decoder.record fields (Draft.plain "")

namespace Descriptor

/-- Why a text is not the JSON form of a descriptor. -/
structure Refusal where
  /-- What is wrong with the text. -/
  fault : Fault
  /-- The fault of the draft, where that is all that is wrong. -/
  cause : Option Error
  deriving DecidableEq, Repr

/-- The descriptor in a JSON text. A draft with a fault is refused before the end of the text is
looked at. -/
def ofJson (text : String) : Except Refusal Descriptor :=
  let document := Json.scan text
  match Draft.decoder document.root with
  | .error fault => .error ⟨fault, none⟩
  | .ok draft =>
    match draft.build with
    | .error fault => .error ⟨.mismatch, if document.hasMore then none else some fault⟩
    | .ok descriptor =>
      if document.hasMore then .error ⟨.malformed, none⟩ else .ok descriptor

end Descriptor

/-! ## Writing -/

/-- The members of a requirement. -/
def Requirement.members (item : Requirement) : List Member :=
  [.always "module" (Json.Text.string item.target), .optional "version" item.version,
    .flag "static" item.isStatic, .flag "transitive" item.isTransitive,
    .flag "mandated" item.isMandated, .flag "synthetic" item.isSynthetic]

/-- The members of an export. -/
def Export.members (item : Export) : List Member :=
  [.always "package" (Json.Text.string item.package),
    .list "to" (item.targets.map Json.Text.string),
    .flag "synthetic" item.isSynthetic, .flag "mandated" item.isMandated]

/-- The members of a provision. -/
def Provision.members (item : Provision) : List Member :=
  [.always "service" (Json.Text.string item.service),
    .list "with" (item.implementations.map Json.Text.string)]

/-- The members of the digest of a module. -/
def ModuleHash.members (hash : ModuleHash) : List Member :=
  [.always "module" (Json.Text.string hash.target),
    .always "hash" (Json.Text.string hash.digest)]

/-- The members of the digests of one algorithm, with the given texts for the digests. -/
def HashRecord.membersWith (record : HashRecord) (hashes : List (List Char)) : List Member :=
  [.always "algorithm" (Json.Text.string record.algorithm), .list "hashes" hashes]

/-- The members of the digests of one algorithm. -/
def HashRecord.members (record : HashRecord) : List Member :=
  record.membersWith (record.hashes.map fun hash => Json.Text.compact hash.members)

namespace Descriptor

/-- The members of a descriptor, with the given texts for its items. -/
def membersWith (descriptor : Descriptor) (exports requires provides hashes : List (List Char)) :
    List Member :=
  [.always "name" (Json.Text.string descriptor.name),
    .list "exports" exports,
    .list "requires" requires,
    .list "provides" provides,
    .list "uses" (descriptor.uses.map Json.Text.string),
    .optional "version" descriptor.version,
    .flag "open" descriptor.isOpen,
    .flag "synthetic" descriptor.isSynthetic,
    .flag "mandated" descriptor.isMandated,
    .list "packages" (descriptor.packages.map Json.Text.string),
    .list "hashes" hashes,
    .optional "mainClass" descriptor.mainClass,
    .optional "targetPlatform" descriptor.targetPlatform]

/-- The members of a descriptor. -/
def members (descriptor : Descriptor) : List Member :=
  descriptor.membersWith
    (descriptor.exports.map fun item => Json.Text.compact item.members)
    (descriptor.requires.map fun item => Json.Text.compact item.members)
    (descriptor.provides.map fun item => Json.Text.compact item.members)
    (descriptor.hashes.map fun record => Json.Text.compact record.members)

/-- The JSON text of a descriptor. -/
def toJson (descriptor : Descriptor) : String :=
  String.ofList (Json.Text.compact descriptor.members)

end Descriptor
end ModuleRecord
