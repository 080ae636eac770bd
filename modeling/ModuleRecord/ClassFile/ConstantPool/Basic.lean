import ModuleRecord.ClassFile.Error
import Std.Data.HashMap

/-!
# Constant pools

A pool is a row of entries in slots numbered from one, together with an index from texts and
symbols to the slots that hold them. A wide entry is followed by an unusable slot.
-/

namespace ModuleRecord
namespace ConstantPool

/-! ## Entries -/

/-- An entry of a pool. Other entries are referred to by slot. -/
inductive Entry where
  /-- A text. -/
  | utf8 (text : String)
  /-- A 32-bit integer. -/
  | integer (value : Int32)
  /-- A single-precision number, by its bits. -/
  | float (bits : UInt32)
  /-- A 64-bit integer, which is wide. -/
  | long (value : Int64)
  /-- A double-precision number, by its bits, which is wide. -/
  | double (bits : UInt64)
  /-- A class, module or package with the slot of its name. -/
  | symbol (kind : SymbolKind) (name : UInt16)
  /-- A string constant. -/
  | string (text : UInt16)
  /-- A field of a class. -/
  | fieldRef (owner nameAndType : UInt16)
  /-- A method of a class. -/
  | methodRef (owner nameAndType : UInt16)
  /-- A method of an interface. -/
  | interfaceMethodRef (owner nameAndType : UInt16)
  /-- The name and type of a member. -/
  | nameAndType (name descriptor : UInt16)
  /-- A handle on a field or method. -/
  | methodHandle (kind : UInt8) (target : UInt16)
  /-- The type of a method. -/
  | methodType (descriptor : UInt16)
  /-- A constant that is computed when first used. -/
  | dynamic (bootstrap nameAndType : UInt16)
  /-- A call whose target is computed when first used. -/
  | invokeDynamic (bootstrap nameAndType : UInt16)
  /-- The second slot of a wide entry. -/
  | unusable
  deriving DecidableEq, Repr

/-- Whether an entry takes two slots. -/
def Entry.isWide : Entry → Bool
  | long _ => true
  | double _ => true
  | _ => false

/-- What an entry is found by when it is interned. -/
inductive Key where
  /-- A text, found by itself. -/
  | utf8 (text : String)
  /-- A symbol, found by its kind and the slot of its name. -/
  | symbol (kind : SymbolKind) (name : UInt16)
  deriving DecidableEq, Hashable, Repr

/-- The key of a text or symbol; other entries are not interned. -/
def Entry.key? : Entry → Option Key
  | utf8 text => some (.utf8 text)
  | symbol kind name => some (.symbol kind name)
  | _ => none

/-- The entry that a key stands for. -/
def Key.entry : Key → Entry
  | utf8 text => .utf8 text
  | symbol kind name => .symbol kind name

@[simp] theorem Key.key?_entry (key : Key) : key.entry.key? = some key := by
  cases key <;> rfl

end ConstantPool

open ConstantPool in
/-- A constant pool. -/
structure ConstantPool where
  /-- The entries, that of slot one first. -/
  entries : Array Entry
  /-- The slots of texts and symbols. -/
  index : Std.HashMap Key UInt16

namespace ConstantPool

/-! ## Building -/

/-- The index of a row of entries, in which the first of equal entries counts. -/
def indexOf (entries : List Entry) : Std.HashMap Key UInt16 :=
  (entries.zipIdx 1).foldl
    (fun index row =>
      match row.1.key? with
      | some key => index.insertIfNew key (UInt16.ofNat row.2)
      | none => index)
    ∅

/-- The pool with the given entries, taken as they are. -/
def ofList (entries : List Entry) : ConstantPool :=
  ⟨entries.toArray, indexOf entries⟩

/-- The pool without entries. -/
def empty : ConstantPool :=
  ofList []

/-! ## Slots -/

/-- How many slots are taken. -/
def size (pool : ConstantPool) : Nat :=
  pool.entries.size

/-- The entries in slot order. -/
def toList (pool : ConstantPool) : List Entry :=
  pool.entries.toList

/-- The entry in a slot; slot zero is never taken. -/
def get? (pool : ConstantPool) (slot : UInt16) : Option Entry :=
  if slot = 0 then none else pool.entries[slot.toNat - 1]?

@[simp] theorem toList_ofList (entries : List Entry) : (ofList entries).toList = entries := rfl

@[simp] theorem size_ofList (entries : List Entry) : (ofList entries).size = entries.length := rfl

end ConstantPool
end ModuleRecord
