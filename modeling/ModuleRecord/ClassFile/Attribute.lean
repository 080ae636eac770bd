import ModuleRecord.ClassFile.ConstantPool.Resolve
import ModuleRecord.ClassFile.Cursor
import ModuleRecord.ClassFile.Table

/-!
# Attributes

An attribute is a name and a body that is not interpreted here. Its body is written behind a
32-bit length, and a length that runs past the end of the bytes is refused before anything of the
body is read.
-/

namespace ModuleRecord

/-- An attribute with its body as it stands. -/
structure Attribute where
  /-- The slot of the name. -/
  name : UInt16
  /-- The bytes of the body. -/
  body : Bytes
  deriving DecidableEq, Repr

namespace Attribute

/-! ## Reading and writing -/

/-- Reads an attribute. -/
def read : Reader Attribute := do
  let name ← Reader.u16
  let length ← Reader.word 4
  let body ← Reader.body length
  return ⟨name, body⟩

/-- Reads an attribute table. -/
def readTable : Reader (List Attribute) :=
  Reader.withinBody (Reader.table read)

/-- Writes an attribute. -/
def write (item : Attribute) : Written :=
  if item.body.length ≤ 0xFFFFFFFF then
    .ok (Bytes.ofUInt16 item.name ++ Bytes.ofNat 4 item.body.length ++ item.body)
  else .error (.bodyTooLarge item.body.length)

/-- Writes an attribute table. -/
def writeTable (attributes : List Attribute) : Written :=
  Written.table write attributes

/-! ## Searching -/

/-- The first attribute whose name resolves to the given text. -/
def find? (pool : ConstantPool) (name : String) (attributes : List Attribute) : Option Attribute :=
  attributes.find? fun item =>
    match pool.utf8 item.name with
    | .ok text => text == name
    | .error _ => false

/-- A description that gives the size of the body in place of its bytes. -/
def describe (item : Attribute) : String :=
  "Attribute \x7b attribute_name_index: " ++ toString item.name.toNat ++ ", info: \"(" ++
    toString item.body.length ++ " bytes)\" \x7d"

end Attribute
end ModuleRecord
