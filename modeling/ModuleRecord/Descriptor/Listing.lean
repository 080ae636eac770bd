import ModuleRecord.Descriptor.Basic

/-!
# Listing a descriptor

A descriptor as text for people to read: the declaration with its items indented, and then each of
the other parts that there are under a heading.
-/

namespace ModuleRecord

/-- A name with its version, if it has one, after an at sign. -/
def withVersion (name : String) : Option String → String
  | some version => name ++ "@" ++ version
  | none => name

/-- Texts with commas between them. -/
def commaSeparated (items : List String) : String :=
  String.intercalate ", " items

/-- The line of a requirement, with its modifiers in front of the module. -/
def Requirement.line (item : Requirement) : String :=
  "    requires " ++ (if item.isMandated then "mandated " else "") ++
    (if item.isStatic then "static " else "") ++
    (if item.isTransitive then "transitive " else "") ++ withVersion item.target item.version

/-- The line of an export. -/
def Export.line (item : Export) : String :=
  "    exports " ++ item.package ++
    (if item.isQualified then " to " ++ commaSeparated item.targets else "")

/-- The line of a provision. -/
def Provision.line (item : Provision) : String :=
  "    provides " ++ item.service ++ " with " ++ commaSeparated item.implementations

/-- The lines of the digests of one algorithm, after an empty one. -/
def HashRecord.lines (record : HashRecord) : List String :=
  ["", "Hashes (" ++ record.algorithm ++ "):"] ++
    record.hashes.map fun hash => "    " ++ hash.target ++ " " ++ hash.digest

namespace Descriptor

/-- The lines of a descriptor. -/
def lines (descriptor : Descriptor) : List String :=
  [(if descriptor.isOpen then "open " else "") ++ "module " ++
      withVersion descriptor.name descriptor.version] ++
    descriptor.requires.map Requirement.line ++
    descriptor.exports.map Export.line ++
    descriptor.uses.map (fun service => "    uses " ++ service) ++
    descriptor.provides.map Provision.line ++
    (if descriptor.packages.isEmpty then []
      else ["", "Packages:"] ++ descriptor.packages.map fun package => "    " ++ package) ++
    descriptor.hashes.flatMap HashRecord.lines ++
    descriptor.mainClass.toList.flatMap (fun name => ["", "Main class: " ++ name]) ++
    descriptor.targetPlatform.toList.map (fun platform => "Target platform: " ++ platform)

/-- The listing of a descriptor, with an end after each line. -/
def listing (descriptor : Descriptor) : String :=
  String.join (descriptor.lines.map (· ++ "\n"))

end Descriptor
end ModuleRecord
