/-!
# Locating the module record of an archive

An archive may hold a module record at its root and one for each version of the platform. The last
root entry is taken; only where there is none, the last versioned entry is, whatever its version.
-/

namespace ModuleRecord
namespace Archive

/-! ## Entry names -/

/-- The places of a module record. -/
inductive EntryKind where
  /-- At the root. -/
  | root
  /-- Under a version of the platform. -/
  | versioned (version : Nat)
  deriving DecidableEq, Repr

/-- The name of a module record within its directory. -/
def recordName : List Char := "module-info.class".toList

/-- The directory that the root may be in. -/
def classesDirectory : List Char := "classes/".toList

/-- The directory of the versions. -/
def versionsDirectory : List Char := "META-INF/versions/".toList

/-- The greatest version that is told apart from those above it. -/
def versionLimit : Nat := 0xFFFFFFFF

/-- What follows the given front of a text. -/
def after? (front text : List Char) : Option (List Char) :=
  if front.isPrefixOf text then some (text.drop front.length) else none

/-- The value of a row of decimal digits, but no more than the limit. -/
def versionOf (digits : List Char) : Nat :=
  digits.foldl (fun n c => min (n * 10 + (c.toNat - '0'.toNat)) versionLimit) 0

/-- Whether a character is one of the ten decimal digits. -/
def isDigit (c : Char) : Bool :=
  '0' ≤ c && c ≤ '9'

/-- The place that the name of an entry stands for, if it is that of a module record. -/
def classify (name : String) : Option EntryKind :=
  let name := (after? classesDirectory name.toList).getD name.toList
  match after? versionsDirectory name with
  | none => if name = recordName then some .root else none
  | some rest =>
    let digits := rest.takeWhile isDigit
    if digits ≠ [] ∧ rest.dropWhile isDigit = '/' :: recordName then
      some (.versioned (versionOf digits))
    else none

/-! ## Selection -/

/-- A scan over the entries of an archive. -/
structure Locator where
  /-- Whether a root entry has been met. -/
  hasRoot : Bool
  deriving DecidableEq, Repr

namespace Locator

/-- The scan before the first entry. -/
def start : Locator :=
  ⟨false⟩

/-- Whether an entry takes the selection over from those before it, and the scan after it. -/
def offer (locator : Locator) (name : String) : Bool × Locator :=
  match classify name with
  | some .root => (true, ⟨true⟩)
  | some (.versioned _) => (!locator.hasRoot, locator)
  | none => (false, locator)

/-- Whether each of a row of entries takes the selection over. -/
def offers (locator : Locator) (names : List String) : List Bool :=
  (names.foldl
    (fun (state : List Bool × Locator) name =>
      let (isTaken, next) := state.2.offer name
      (isTaken :: state.1, next))
    ([], locator)).1.reverse

end Locator

/-- The entry that holds the module record to be read, where entries are known by their names. -/
def select {α : Type} (name : α → String) (entries : List α) : Option α :=
  (entries.foldl
    (fun (state : Option α × Locator) entry =>
      let (isTaken, next) := state.2.offer (name entry)
      (if isTaken then some entry else state.1, next))
    (none, Locator.start)).1

end Archive
end ModuleRecord
