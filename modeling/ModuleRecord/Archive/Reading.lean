import ModuleRecord.Archive.Locator
import ModuleRecord.Descriptor.Record

/-!
# Reading the descriptor of an archive

An archive is either a stream of entries, each with its own reader, or a container that lists its
names and reads an entry by name. A stream is gone through once, with the reader of the entry that
has the selection kept; a container is asked for the entry that has been selected among its names.
Reading an entry may fail with a cause that belongs to the archive, not to the descriptor.
-/

namespace ModuleRecord
namespace Archive

/-- Why the descriptor of an archive cannot be read. -/
inductive Failure (ε : Type) where
  /-- The selected entry cannot be read. -/
  | unreadable (name : String) (cause : ε)
  /-- The selected entry is not the record of a module. -/
  | descriptor (fault : Descriptor.Error)
  deriving DecidableEq, Repr

/-- The wording of a failure. -/
def Failure.message {ε : Type} : Failure ε → String
  | unreadable name _ => "Unable to read archive entry " ++ name
  | descriptor fault => fault.message

/-- The descriptor of an archive, if it has one. -/
abbrev Answer (ε : Type) := Except (Failure ε) (Option Descriptor)

/-- The answer from what the selected entry was read as. -/
def Answer.ofEntry {ε : Type} (name : String) : Except ε Bytes → Answer ε
  | .error cause => .error (.unreadable name cause)
  | .ok bytes =>
    match Descriptor.decode bytes with
    | .ok descriptor => .ok (some descriptor)
    | .error fault => .error (.descriptor fault)

variable {m : Type → Type} [Monad m] {ε : Type}

/-- Reads the descriptor from the rest of a stream of entries, of which the pending one has the
selection so far. No reader is run before the stream has ended. -/
def readStream (locator : Locator) (pending : Option (String × m (Except ε Bytes))) :
    List (String × m (Except ε Bytes)) → m (Answer ε)
  | [] =>
    match pending with
    | none => return .ok none
    | some (name, read) => Answer.ofEntry name <$> read
  | (name, read) :: rest =>
    let (isTaken, next) := locator.offer name
    readStream next (if isTaken then some (name, read) else pending) rest

/-- Reads the descriptor from a stream of entries that each have their own reader. -/
def readEntries (entries : List (String × m (Except ε Bytes))) : m (Answer ε) :=
  readStream .start none entries

/-- An archive whose entries are read by name. -/
structure Container (m : Type → Type) (ε : Type) where
  /-- The names of the entries, in the order of the archive. -/
  names : List String
  /-- Reads the entry of a name. -/
  read : String → m (Except ε Bytes)

/-- Reads the descriptor from a container. -/
def Container.readDescriptor (container : Container m ε) : m (Answer ε) :=
  match select id container.names with
  | none => return .ok none
  | some name => Answer.ofEntry name <$> container.read name

end Archive
end ModuleRecord
