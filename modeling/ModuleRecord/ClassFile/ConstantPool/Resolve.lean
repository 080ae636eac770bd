import ModuleRecord.ClassFile.ConstantPool.Basic
import ModuleRecord.ClassFile.ConstantPool.InternalName

/-!
# Resolving pool indices

A text is resolved in one step, a symbol in two: from its slot to the slot of its name, and from
there to the text. A step that meets anything else fails with the index it looked at and what it
expected there.
-/

namespace ModuleRecord
namespace ConstantPool

open ClassFile (Error)

/-- The text in a slot. -/
def utf8 (pool : ConstantPool) (slot : UInt16) : Except Error String :=
  match pool.get? slot with
  | some (.utf8 text) => .ok text
  | _ => .error (.badIndex slot .utf8)

/-- The slot of the name of the symbol in a slot. -/
def nameSlot (pool : ConstantPool) (kind : SymbolKind) (slot : UInt16) : Except Error UInt16 :=
  match pool.get? slot with
  | some (.symbol found name) =>
    if found = kind then .ok name else .error (.badIndex slot (.symbol kind))
  | _ => .error (.badIndex slot (.symbol kind))

/-- The name of the symbol in a slot, as the pool holds it. -/
def symbolName (pool : ConstantPool) (kind : SymbolKind) (slot : UInt16) : Except Error String := do
  let name ← pool.nameSlot kind slot
  pool.utf8 name

/-- The dotted name of the class in a slot. -/
def className (pool : ConstantPool) (slot : UInt16) : Except Error String :=
  InternalName.className <$> pool.symbolName .classSymbol slot

/-- The name of the module in a slot. -/
def moduleName (pool : ConstantPool) (slot : UInt16) : Except Error String :=
  pool.symbolName .moduleSymbol slot

/-- The dotted name of the package in a slot. -/
def packageName (pool : ConstantPool) (slot : UInt16) : Except Error String :=
  InternalName.packageName <$> pool.symbolName .packageSymbol slot

end ConstantPool
end ModuleRecord
