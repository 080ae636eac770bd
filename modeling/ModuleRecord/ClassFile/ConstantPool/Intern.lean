import ModuleRecord.ClassFile.ConstantPool.Basic
import ModuleRecord.ClassFile.ConstantPool.InternalName

/-!
# Interning

Interning finds the slot of a text or symbol, and takes the next free slot for it where there is
none. A symbol has its name interned first, and the name stays where the symbol finds no room.
-/

namespace ModuleRecord
namespace ConstantPool

/-- A computation that may take slots of a pool. Slots taken before a failure stay taken. -/
abbrev Interning := EStateM ClassFile.Error ConstantPool

/-- How many slots a pool that can be written has at most: its count, with the unused slot zero
included, is a 16-bit word. -/
def capacity : Nat := 0xFFFE

/-- Takes the next free slot for the entry of a key. -/
def push (key : Key) : Interning UInt16 := fun pool =>
  match pool with
  | ⟨entries, index⟩ =>
    if capacity ≤ entries.size then .error .poolFull ⟨entries, index⟩
    else
      let slot := UInt16.ofNat (entries.size + 1)
      .ok slot ⟨entries.push key.entry, index.insert key slot⟩

/-- The slot of the entry of a key, old or new. -/
def intern (key : Key) : Interning UInt16 := fun pool =>
  match pool.index[key]? with
  | some slot => .ok slot pool
  | none => push key pool

/-- The slot of a text. -/
def internUtf8 (text : String) : Interning UInt16 :=
  intern (.utf8 text)

/-- The slot of a symbol that is given by its name as the pool holds it. -/
def internSymbol (kind : SymbolKind) (name : String) : Interning UInt16 := do
  let slot ← internUtf8 name
  intern (.symbol kind slot)

/-- The slot of a class that is given by its dotted name. -/
def internClass (name : String) : Interning UInt16 :=
  internSymbol .classSymbol (InternalName.ofDotted name)

/-- The slot of a module. -/
def internModule (name : String) : Interning UInt16 :=
  internSymbol .moduleSymbol name

/-- The slot of a package that is given by its dotted name. -/
def internPackage (name : String) : Interning UInt16 :=
  internSymbol .packageSymbol (InternalName.ofDotted name)

end ConstantPool
end ModuleRecord
