import ModuleRecord.Archive.Zip
import ModuleRecord.Descriptor.Listing

/-!
# Inspecting a file

A file whose name ends in `.class` is read as a module record, any other as an archive. What is
shown is the listing of its descriptor, and nothing for an archive without one.
-/

namespace ModuleRecord
namespace Inspect

/-- Why a file cannot be shown. -/
inductive Failure where
  /-- It is not the record of a module. -/
  | descriptor (fault : Descriptor.Error)
  /-- It is not an archive. -/
  | notArchive
  /-- It is an archive whose descriptor cannot be read. -/
  | archive (failure : Archive.Failure Unit)
  deriving DecidableEq, Repr

/-- The wording of a failure. -/
def Failure.message : Failure → String
  | descriptor fault => fault.message
  | notArchive => "Not an archive"
  | archive failure => failure.message

/-- The last part of a path. -/
def fileName (path : String) : List Char :=
  ((path.toList.reverse.dropWhile (· == '/')).takeWhile (· != '/')).reverse

/-- What follows the last dot of a file name, unless there is no dot but the first character. -/
def extension? (name : List Char) : Option (List Char) :=
  if name = ['.', '.'] then none
  else
    match name.reverse.dropWhile (· != '.') with
    | [] => none
    | [_] => none
    | _ => some (name.reverse.takeWhile (· != '.')).reverse

/-- Whether a path is that of a class file. -/
def isClassPath (path : String) : Bool :=
  extension? (fileName path) == some ['c', 'l', 'a', 's', 's']

/-- What is shown for the bytes of the file at a path. -/
def show? (path : String) (bytes : Bytes) : Except Failure String :=
  if isClassPath path then
    match Descriptor.decode bytes with
    | .ok descriptor => .ok descriptor.listing
    | .error fault => .error (.descriptor fault)
  else
    match Zip.readDescriptor? bytes with
    | none => .error .notArchive
    | some (.error failure) => .error (.archive failure)
    | some (.ok none) => .ok ""
    | some (.ok (some descriptor)) => .ok descriptor.listing

end Inspect
end ModuleRecord
