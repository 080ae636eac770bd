import ModuleRecord.ClassFile.ConstantPool.Resolve
import ModuleRecord.Proofs.ClassFile.ConstantPool.InternalName
import ModuleRecord.Proofs.Fallible

/-!
# What a pool index resolves to

A text is what its slot holds. The name of a symbol is reached in two steps, and each of them fails
in one way: with the slot that has been looked at and with what was expected there
(`symbolName_eq_error_iff`). Names of modules are given as they are, those of classes and packages
in their dotted form.
-/

namespace ModuleRecord

open ClassFile (Error)

namespace ConstantPool

variable {pool : ConstantPool} {kind : SymbolKind} {slot : UInt16} {text : String} {fault : Error}

/-! ## Texts -/

theorem utf8_eq_ok_iff : pool.utf8 slot = .ok text ↔ pool.get? slot = some (.utf8 text) := by
  unfold utf8
  split
  · rename_i found hheld
    simp [hheld]
  · rename_i hother
    exact iff_of_false (by simp) (hother text)

theorem utf8_eq_error_iff :
    pool.utf8 slot = .error fault ↔
      (∀ text, pool.get? slot ≠ some (.utf8 text)) ∧ fault = .badIndex slot .utf8 := by
  unfold utf8
  split
  · rename_i found hheld
    exact iff_of_false (by simp) fun h => h.1 found hheld
  · rename_i hother
    rw [Except.error.injEq, eq_comm]
    exact (and_iff_right hother).symm

/-! ## Symbols -/

theorem nameSlot_eq_ok_iff {link : UInt16} :
    pool.nameSlot kind slot = .ok link ↔ pool.get? slot = some (.symbol kind link) := by
  unfold nameSlot
  split
  · rename_i found name hheld
    by_cases hkind : found = kind
    · simp [hheld, hkind]
    · simp [hheld, hkind]
  · rename_i hother
    exact iff_of_false (by simp) (hother kind link)

theorem nameSlot_eq_error_iff :
    pool.nameSlot kind slot = .error fault ↔
      (∀ link, pool.get? slot ≠ some (.symbol kind link)) ∧
        fault = .badIndex slot (.symbol kind) := by
  unfold nameSlot
  split
  · rename_i found name hheld
    by_cases hkind : found = kind
    · simp [hheld, hkind]
    · rw [if_neg hkind, hheld, Except.error.injEq, eq_comm]
      simp [hkind]
  · rename_i hother
    rw [Except.error.injEq, eq_comm]
    exact (and_iff_right fun link => hother kind link).symm

theorem symbolName_eq_ok_iff :
    pool.symbolName kind slot = .ok text ↔
      ∃ link, pool.get? slot = some (.symbol kind link) ∧ pool.get? link = some (.utf8 text) := by
  unfold symbolName
  rw [Fallible.bind_eq_ok_iff]
  simp only [nameSlot_eq_ok_iff, utf8_eq_ok_iff]

/-- Either the slot does not hold such a symbol, or that of its name does not hold a text. -/
theorem symbolName_eq_error_iff :
    pool.symbolName kind slot = .error fault ↔
      ((∀ link, pool.get? slot ≠ some (.symbol kind link)) ∧
          fault = .badIndex slot (.symbol kind)) ∨
        ∃ link, pool.get? slot = some (.symbol kind link) ∧
          (∀ text, pool.get? link ≠ some (.utf8 text)) ∧ fault = .badIndex link .utf8 := by
  unfold symbolName
  rw [Fallible.bind_eq_error_iff]
  simp only [nameSlot_eq_error_iff, nameSlot_eq_ok_iff, utf8_eq_error_iff]

end ConstantPool

/-! ## Dotted names -/

/-- The form in which names of a kind are given, by the form in which the pool holds them. -/
def SymbolKind.dotted : SymbolKind → String → String
  | moduleSymbol => id
  | _ => InternalName.replace '/' '.'

theorem SymbolKind.dotted_eq_empty_iff {kind : SymbolKind} {text : String} :
    kind.dotted text = "" ↔ text = "" := by
  have hreplace : InternalName.replace '/' '.' text = "" ↔ text = "" := by
    rw [← String.toList_inj, InternalName.toList_replace, ← String.toList_inj]
    exact List.map_eq_nil_iff
  cases kind with
  | moduleSymbol => rfl
  | classSymbol => exact hreplace
  | packageSymbol => exact hreplace

namespace ConstantPool

variable (pool : ConstantPool) (slot : UInt16)

theorem moduleName_eq_dotted :
    pool.moduleName slot =
      SymbolKind.dotted .moduleSymbol <$> pool.symbolName .moduleSymbol slot := by
  unfold moduleName
  cases pool.symbolName .moduleSymbol slot <;> rfl

theorem packageName_eq_dotted :
    pool.packageName slot =
      SymbolKind.dotted .packageSymbol <$> pool.symbolName .packageSymbol slot := rfl

theorem className_eq_dotted :
    pool.className slot =
      SymbolKind.dotted .classSymbol <$> pool.symbolName .classSymbol slot := by
  have hname : InternalName.className = SymbolKind.dotted .classSymbol :=
    funext InternalName.className_eq_packageName
  unfold className
  rw [hname]

end ConstantPool
end ModuleRecord
