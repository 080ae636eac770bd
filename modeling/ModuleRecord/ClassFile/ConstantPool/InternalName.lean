/-!
# Internal names

A class or package has a dotted name outside a class file and an internal name, with slashes for
dots, inside it. A class name is read back by setting off what follows the last slash.
-/

namespace ModuleRecord
namespace InternalName

/-- Puts one character in the place of every other. -/
def replace (old new : Char) (text : String) : String :=
  String.ofList (text.toList.map fun c => if c = old then new else c)

/-- The internal form of a dotted name. -/
def ofDotted (name : String) : String :=
  replace '.' '/' name

/-- The dotted form of an internal package name. -/
def packageName (name : String) : String :=
  replace '/' '.' name

/-- What stands before and after the last slash, where there is one. -/
def splitLast? (chars : List Char) : Option (List Char × List Char) :=
  let reversed := chars.reverse
  match reversed.dropWhile (· != '/') with
  | [] => none
  | _ :: front => some (front.reverse, (reversed.takeWhile (· != '/')).reverse)

/-- The dotted form of an internal class name: its package in dotted form, and its simple name. -/
def className (name : String) : String :=
  match splitLast? name.toList with
  | some (package, simple) => packageName (String.ofList package) ++ "." ++ String.ofList simple
  | none => name

end InternalName
end ModuleRecord
