import ModuleRecord.Archive.Crc32
import ModuleRecord.Archive.Inflate
import ModuleRecord.Archive.Reading

/-!
# ZIP archives

A ZIP archive ends with a record that says where its directory is, and the directory says where the
entries are. Bytes in front of the archive move all places by the same distance, which is found by
looking for the first directory header. An entry is stored or compressed, and its checksum has to
match.
-/

namespace ModuleRecord
namespace Zip

/-! ## Places in a file -/

/-- A file with its bytes by place. -/
abbrev File := Array UInt8

/-- The little-endian number of the given width at a place, within the file. -/
def word? (file : File) (place width : Nat) : Option Nat :=
  if place + width ≤ file.size then
    some (Bytes.toNat (file.extract place (place + width)).toList.reverse)
  else none

/-- The mark of the end record. -/
def endMark : Nat := 0x06054B50

/-- The mark of a directory header. -/
def directoryMark : Nat := 0x02014B50

/-- The mark of a local header. -/
def localMark : Nat := 0x04034B50

/-- The first of some places where a mark stands. -/
def findMark? (file : File) (mark : Nat) (places : List Nat) : Option Nat :=
  places.find? fun place => word? file place 4 == some mark

/-! ## The end record -/

/-- What the end record says. -/
structure EndRecord where
  disk : Nat
  directoryDisk : Nat
  /-- How many entries there are in this file. -/
  count : Nat
  /-- How many entries there are in all files of the archive. -/
  total : Nat
  /-- Where the directory starts, in an archive with nothing in front. -/
  directory : Nat
  deriving DecidableEq, Repr

/-- The end record at a place, if it lies within the file together with its comment. -/
def EndRecord.read? (file : File) (place : Nat) : Option EndRecord := do
  let disk ← word? file (place + 4) 2
  let directoryDisk ← word? file (place + 6) 2
  let count ← word? file (place + 8) 2
  let total ← word? file (place + 10) 2
  let directory ← word? file (place + 16) 4
  let comment ← word? file (place + 20) 2
  if place + 22 + comment ≤ file.size then
    return { disk, directoryDisk, count, total, directory }
  else none

/-- How many bytes lie in front of the archive, if its end record at the given place can be
right. -/
def EndRecord.shift? (record : EndRecord) (file : File) (place : Nat) : Option Nat :=
  if record.total = 0 then some (place - record.directory)
  else if place ≤ record.directory then none
  else do
    let first ← findMark? file directoryMark
      (List.range' record.directory (place - record.directory))
    return first - record.directory

/-! ## The directory -/

/-- What the directory says about an entry. -/
structure Entry where
  /-- The name, with a character for each byte. A name that is looked for has bytes below `80`
  only, and those stand for themselves in every encoding of names. -/
  name : String
  isEncrypted : Bool
  method : Nat
  checksum : UInt32
  /-- How many bytes the entry takes in the file. -/
  size : Nat
  /-- Where its local header is. -/
  header : Nat
  deriving DecidableEq, Repr

/-- The entry whose directory header is at a place, and the place after that header. -/
def Entry.read? (file : File) (shift place : Nat) : Option (Entry × Nat) := do
  let mark ← word? file place 4
  guard (mark = directoryMark)
  let flags ← word? file (place + 8) 2
  let method ← word? file (place + 10) 2
  let checksum ← word? file (place + 16) 4
  let size ← word? file (place + 20) 4
  let nameSize ← word? file (place + 28) 2
  let extraSize ← word? file (place + 30) 2
  let commentSize ← word? file (place + 32) 2
  let header ← word? file (place + 42) 4
  let next := place + 46 + nameSize + extraSize + commentSize
  guard (next ≤ file.size)
  let name := (file.extract (place + 46) (place + 46 + nameSize)).toList
  return ({
    name := String.ofList (name.map fun byte => Char.ofNat byte.toNat)
    isEncrypted := flags.testBit 0
    method
    checksum := UInt32.ofNat checksum
    size
    header := header + shift }, next)

/-- The entries of a number of directory headers in a row, in reverse onto those before. -/
def readDirectory? (file : File) (shift : Nat) :
    (count place : Nat) → List Entry → Option (List Entry)
  | 0, _, entries => some entries.reverse
  | count + 1, place, entries => do
    let (entry, next) ← Entry.read? file shift place
    readDirectory? file shift count next (entry :: entries)

/-- The entries of an archive whose end record is at the given place. -/
def entriesFrom? (file : File) (place : Nat) : Option (List Entry) := do
  let record ← EndRecord.read? file place
  let shift ← record.shift? file place
  guard (record.disk = record.directoryDisk)
  readDirectory? file shift record.count (record.directory + shift) []

/-- The entries of an archive. The last end record counts that can be right and leads to a
directory that can be read. -/
def entries? (file : File) : Option (List Entry) :=
  (List.range file.size).reverse.findSome? fun place =>
    if word? file place 4 = some endMark then entriesFrom? file place else none

/-! ## Entries -/

/-- The bytes of an entry, unless it cannot be read. -/
def Entry.bytes? (file : File) (entry : Entry) : Option Bytes := do
  guard !entry.isEncrypted
  let mark ← word? file entry.header 4
  guard (mark = localMark)
  let nameSize ← word? file (entry.header + 26) 2
  let extraSize ← word? file (entry.header + 28) 2
  let start := entry.header + 30 + nameSize + extraSize
  let written := (file.extract start (start + entry.size)).toList
  let bytes ←
    if entry.method = 0 then some written
    else if entry.method = 8 then Inflate.expand? written
    else none
  guard (Crc32.checksum bytes = entry.checksum)
  return bytes

/-- The names of entries, each once and at its first place. -/
def namesOf (entries : List Entry) : List String :=
  (entries.map Entry.name).eraseDups

/-- The bytes of the last entry of a name. -/
def read (file : File) (entries : List Entry) (name : String) : Except Unit Bytes :=
  match entries.reverse.find? fun entry => entry.name = name with
  | none => .error ()
  | some entry =>
    match entry.bytes? file with
    | some bytes => .ok bytes
    | none => .error ()

/-- The container with the given entries of a file. -/
def container (file : File) (entries : List Entry) : Archive.Container Id Unit where
  names := namesOf entries
  read := read file entries

/-- The descriptor of an archive, or nothing at all for bytes that are no archive. -/
def readDescriptor? (bytes : Bytes) : Option (Archive.Answer Unit) :=
  let file := bytes.toArray
  (entries? file).map fun entries => (container file entries).readDescriptor.run

end Zip
end ModuleRecord
