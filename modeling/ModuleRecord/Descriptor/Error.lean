import ModuleRecord.ClassFile.Error
import ModuleRecord.Text.Quoted

/-!
# Faults of descriptors

The reasons for which a descriptor cannot be built, read from a class file or written to one.
`Descriptor.Error.message` words them.
-/

namespace ModuleRecord
namespace Descriptor

/-- The part that a name plays in a descriptor. -/
inductive Role where
  /-- The module itself. -/
  | declaredModule
  | requiredModule
  | exportedPackage
  | exportTarget
  /-- A service that is used or provided. -/
  | service
  | implementation
  | package
  | mainClass
  | hashAlgorithm
  | hashedModule
  deriving DecidableEq, Repr

/-- The words for a role. -/
def Role.text : Role → String
  | declaredModule => "module"
  | requiredModule => "required module"
  | exportedPackage => "exported package"
  | exportTarget => "export target module"
  | service => "service"
  | implementation => "service implementation"
  | package => "package"
  | mainClass => "main class"
  | hashAlgorithm => "hash algorithm"
  | hashedModule => "hashed module"

/-- The faults of a descriptor. -/
inductive Error where
  /-- The class file is at fault. -/
  | classFile (fault : ClassFile.Error)
  /-- The class file has no module flag. -/
  | notModuleRecord
  /-- The module record does not declare its module. -/
  | missingDeclaration
  /-- A name is empty. -/
  | emptyName (role : Role)
  /-- A name breaks the rules for names of its role. -/
  | invalidName (role : Role) (name : String)
  /-- A service is provided without an implementation. -/
  | unimplementedService (service : String)
  /-- A digest is not written in pairs of hexadecimal digits. -/
  | invalidDigest (target digest : String)
  deriving DecidableEq, Repr

/-- The wording of a fault. -/
def Error.message : Error → String
  | classFile fault => fault.message
  | notModuleRecord => "Class file does not represent a module"
  | missingDeclaration => "Module record has no Module attribute"
  | emptyName role => "Empty " ++ role.text ++ " name"
  | invalidName role name =>
    "Invalid module descriptor: invalid " ++ role.text ++ " name " ++ Quoted.quote name
  | unimplementedService service =>
    "Invalid module descriptor: service " ++ service ++ " is provided without an implementation"
  | invalidDigest target digest =>
    "Invalid " ++ target ++ " hash: " ++ Quoted.quote digest ++ " is not hexadecimal"

end Descriptor
end ModuleRecord
