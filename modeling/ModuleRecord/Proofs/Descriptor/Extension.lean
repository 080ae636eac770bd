import ModuleRecord.Descriptor.Part
import ModuleRecord.Proofs.ClassFile.ConstantPool.Interning

/-!
# Resolving in a longer pool

What resolves in a pool resolves to the same in every pool that goes on behind its slots: single
slots, rows, tables and whole attributes (`ModuleAttribute.below_resolve`).
-/

namespace ModuleRecord

open Fallible (Below)

variable {pool later : ConstantPool}

/-! ## Slots -/

namespace ConstantPool

theorem below_utf8 (h : pool.toList <+: later.toList) (slot : UInt16) :
    Below (pool.utf8 slot) (later.utf8 slot) := by
  intro text htext
  unfold utf8 at htext
  split at htext
  · rename_i found hheld
    cases htext
    exact utf8_of_get? (get?_of_isPrefix h hheld)
  · exact absurd htext (by simp)

theorem below_nameSlot (h : pool.toList <+: later.toList) (kind : SymbolKind) (slot : UInt16) :
    Below (pool.nameSlot kind slot) (later.nameSlot kind slot) := by
  intro name hname
  unfold nameSlot at hname ⊢
  split at hname
  · rename_i hheld
    rw [get?_of_isPrefix h hheld]
    exact hname
  · exact absurd hname (by simp)

theorem below_symbolName (h : pool.toList <+: later.toList) (kind : SymbolKind) (slot : UInt16) :
    Below (pool.symbolName kind slot) (later.symbolName kind slot) :=
  (below_nameSlot h kind slot).bind fun name => below_utf8 h name

end ConstantPool

open ConstantPool

namespace Resolve

theorem below_ofClassFile {α : Type} {first second : Except ClassFile.Error α}
    (h : Below first second) : Below (ofClassFile first) (ofClassFile second) := by
  intro value hvalue
  cases first with
  | ok found =>
    cases hvalue
    rw [h value rfl]
    rfl
  | error fault => exact absurd hvalue (by simp [ofClassFile])

theorem below_nonEmpty {role : Descriptor.Role} {first second : Except ClassFile.Error String}
    (h : Below first second) : Below (nonEmpty role first) (nonEmpty role second) :=
  (below_ofClassFile h).bind fun _ => .refl _

theorem below_optionalUtf8 (h : pool.toList <+: later.toList) (slot : UInt16) :
    Below (optionalUtf8 pool slot) (optionalUtf8 later slot) := by
  unfold optionalUtf8
  by_cases hzero : slot = 0
  · rw [if_pos hzero, if_pos hzero]
    exact .refl _
  · rw [if_neg hzero, if_neg hzero]
    exact (below_ofClassFile (below_utf8 h slot)).map

/-- A module name. -/
theorem below_moduleName (h : pool.toList <+: later.toList) (role : Descriptor.Role)
    (slot : UInt16) :
    Below (nonEmpty role (pool.moduleName slot)) (nonEmpty role (later.moduleName slot)) :=
  below_nonEmpty (below_symbolName h .moduleSymbol slot)

theorem below_packageName (h : pool.toList <+: later.toList) (role : Descriptor.Role)
    (slot : UInt16) :
    Below (nonEmpty role (pool.packageName slot)) (nonEmpty role (later.packageName slot)) :=
  below_nonEmpty (below_symbolName h .packageSymbol slot).map

theorem below_className (h : pool.toList <+: later.toList) (role : Descriptor.Role)
    (slot : UInt16) :
    Below (nonEmpty role (pool.className slot)) (nonEmpty role (later.className slot)) :=
  below_nonEmpty (below_symbolName h .classSymbol slot).map

end Resolve

open Resolve

/-! ## Rows and tables -/

theorem RequiresRow.below_resolve (h : pool.toList <+: later.toList) (row : RequiresRow) :
    Below (row.resolve pool) (row.resolve later) :=
  (below_moduleName h _ _).bind fun _ => (below_optionalUtf8 h _).bind fun _ => .refl _

theorem ExportsRow.below_resolve (h : pool.toList <+: later.toList) (row : ExportsRow) :
    Below (row.resolve pool) (row.resolve later) :=
  (below_packageName h _ _).bind fun _ =>
    (Below.mapM (fun slot => below_moduleName h _ slot) _).bind fun _ => .refl _

theorem ProvidesRow.below_resolve (h : pool.toList <+: later.toList) (row : ProvidesRow) :
    Below (row.resolve pool) (row.resolve later) :=
  (below_className h _ _).bind fun _ =>
    (Below.mapM (fun slot => below_className h _ slot) _).bind fun _ => .refl _

theorem DeclarationTable.below_resolve (h : pool.toList <+: later.toList)
    (table : DeclarationTable) : Below (table.resolve pool) (table.resolve later) :=
  (below_moduleName h _ _).bind fun _ => (below_optionalUtf8 h _).bind fun _ =>
    (Below.mapM (fun row => row.below_resolve h) _).bind fun _ =>
      (Below.mapM (fun row => row.below_resolve h) _).bind fun _ =>
        (Below.mapM (fun slot => below_className h _ slot) _).bind fun _ =>
          (Below.mapM (fun row => row.below_resolve h) _).bind fun _ => .refl _

theorem HashRow.below_resolve (h : pool.toList <+: later.toList) (row : HashRow) :
    Below (row.resolve pool) (row.resolve later) :=
  (below_moduleName h _ _).bind fun _ => .refl _

theorem HashTable.below_resolve (h : pool.toList <+: later.toList) (table : HashTable) :
    Below (table.resolve pool) (table.resolve later) :=
  (below_nonEmpty (below_utf8 h _)).bind fun _ =>
    (Below.mapM (fun row => row.below_resolve h) _).bind fun _ => .refl _

/-! ## Attributes -/

/-- An attribute says the same in a longer pool. -/
theorem ModuleAttribute.below_resolve (h : pool.toList <+: later.toList)
    (content : ModuleAttribute) : Below (content.resolve pool) (content.resolve later) := by
  cases content with
  | declaration table => exact (table.below_resolve h).map
  | packages slots => exact (Below.mapM (fun slot => below_packageName h _ slot) slots).map
  | hashes table => exact (table.below_resolve h).map
  | mainClass slot => exact (below_className h _ slot).map
  | target slot => exact (below_ofClassFile (below_utf8 h slot)).map

end ModuleRecord
