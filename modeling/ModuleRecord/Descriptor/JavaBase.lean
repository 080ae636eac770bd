import ModuleRecord.Descriptor.Basic

/-!
# The requirement on the base module

Every module but the base module itself requires the base module, and that requirement is mandated.
A first requirement on it is kept in its place, later ones are dropped, and a missing one is put in
front.
-/

namespace ModuleRecord

/-- The name of the base module. -/
def javaBase : String := "java.base"

namespace Requirement

/-- Whether the requirement is not on the base module. -/
def isOther (requirement : Requirement) : Bool :=
  requirement.target != javaBase

/-- The bare mandated requirement on the base module. -/
def onJavaBase : Requirement :=
  { Requirement.plain javaBase with isMandated := true }

/-- Gives the requirements of a module their one mandated requirement on the base module. -/
def requireJavaBase (name : String) (requires : List Requirement) : List Requirement :=
  match requires.span isOther with
  | (others, []) => if name = javaBase then others else onJavaBase :: others
  | (before, first :: after) => before ++ { first with isMandated := true } :: after.filter isOther

end Requirement
end ModuleRecord
