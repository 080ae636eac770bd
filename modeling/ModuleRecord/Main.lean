import ModuleRecord.Inspect

/-!
# Command line

Shows the descriptor of the class file or archive that is named by the first argument.
-/

namespace ModuleRecord
namespace Inspect

/-- The exit code of a run that shows nothing because something failed. -/
def failureCode : UInt32 := 101

/-- Reports why nothing can be shown. -/
def fail (message : String) : IO UInt32 := do
  IO.eprintln message
  return failureCode

/-- Reads the file at a path and shows what it holds. -/
def run (path : String) : IO UInt32 := do
  match ← (IO.FS.readBinFile path).toBaseIO with
  | .error fault => fail (toString fault)
  | .ok bytes =>
    match show? path bytes.toList with
    | .error failure => fail failure.message
    | .ok text =>
      IO.print text
      return 0

end Inspect
end ModuleRecord

/-- Shows the file that is named by the first argument. -/
def main (arguments : List String) : IO UInt32 :=
  match arguments with
  | [] => ModuleRecord.Inspect.fail "usage: module_info <module-info.class | .jar | .jmod>"
  | path :: _ => ModuleRecord.Inspect.run path
