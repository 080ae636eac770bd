import ModuleRecord.Proofs.ClassFile.ConstantPool.Resolving
import ModuleRecord.Proofs.ClassFile.ConstantPool.Runs

/-!
# Dotted names of classes and packages

A name is interned in its internal form and read back in its dotted one. In between, its dots become
slashes and all slashes become dots, so what is read back is the name with dots for its slashes
(`interned_names_dotted`). Class names and package names are made dotted in different ways, and come
out the same for the same text (`names_eq_withDots`).
-/

namespace ModuleRecord
namespace ConstantPool

open ClassFile (Error)
open InternalName (replace)

/-- A name with dots for its slashes. -/
def withDots (name : String) : String :=
  name.map fun c => if c = '/' then '.' else c

theorem replace_eq_withDots (name : String) : replace '/' '.' name = withDots name := by
  rw [← String.toList_inj, InternalName.toList_replace, withDots, String.toList_map]

/-- What a slot resolves to is a name with dots for its slashes, and so the name itself just if it
has none. -/
structure GivesDotted (found : Except Error String) (name : String) : Prop where
  eq_withDots : found = .ok (withDots name)
  eq_self_iff : found = .ok name ↔ '/' ∉ name.toList

theorem givesDotted_of_eq {found : Except Error String} {name : String}
    (h : found = .ok (replace '/' '.' name)) : GivesDotted found name := by
  refine ⟨by rw [h, replace_eq_withDots], ?_⟩
  rw [h, Except.ok.injEq]
  exact InternalName.replace_eq_self_iff (by decide)

/-- A symbol that is interned by the internal form of a name gives the dotted form of that name. -/
theorem dotted_of_internSymbol {pool later : ConstantPool} {kind : SymbolKind} {name : String}
    {slot : UInt16} (h : pool.IsIndexed)
    (hrun : internSymbol kind (InternalName.ofDotted name) pool = .ok slot later) :
    replace '/' '.' <$> later.symbolName kind slot = .ok (replace '/' '.' name) := by
  obtain ⟨-, hname⟩ := (lays_internSymbol kind _).of_ok h hrun
  rw [hname later (.refl later)]
  exact congrArg Except.ok (InternalName.packageName_ofDotted_eq name)

/-- A class name and a package name that are held as the same text are given as the same name. -/
theorem names_eq_withDots {pool : ConstantPool} {classSlot packageSlot : UInt16} {text : String}
    (hclass : pool.symbolName .classSymbol classSlot = .ok text)
    (hpackage : pool.symbolName .packageSymbol packageSlot = .ok text) :
    pool.className classSlot = .ok (withDots text) ∧
      pool.packageName packageSlot = .ok (withDots text) := by
  rw [className_eq_dotted, packageName_eq_dotted, hclass, hpackage, ← replace_eq_withDots]
  exact ⟨rfl, rfl⟩

/-- A class or package that is interned is read back with dots for the slashes of its name, whether
its slot is an old or a new one. A class and a package whose names are held as the same text have
the same name, in every pool. -/
theorem interned_names_dotted {entries : List Entry} (h : entries.length ≤ 0xFFFF)
    (calls : List Call) :
    (∀ pool, pool = (ofList entries).after calls → ∀ name slot later,
      (internClass name pool = .ok slot later → GivesDotted (later.className slot) name) ∧
      (internPackage name pool = .ok slot later → GivesDotted (later.packageName slot) name)) ∧
    ∀ (pool : ConstantPool) (classSlot packageSlot classLink packageLink : UInt16) (text : String),
      pool.get? classSlot = some (.symbol .classSymbol classLink) →
      pool.get? packageSlot = some (.symbol .packageSymbol packageLink) →
      pool.get? classLink = some (.utf8 text) → pool.get? packageLink = some (.utf8 text) →
      pool.className classSlot = .ok (withDots text) ∧
        pool.packageName packageSlot = .ok (withDots text) := by
  constructor
  · intro pool hpool name slot later
    have hindexed : pool.IsIndexed := by
      rw [hpool]
      exact isIndexed_after h calls
    constructor
    · intro hrun
      refine givesDotted_of_eq ?_
      rw [className_eq_dotted]
      exact dotted_of_internSymbol hindexed hrun
    · intro hrun
      refine givesDotted_of_eq ?_
      rw [packageName_eq_dotted]
      exact dotted_of_internSymbol hindexed hrun
  · intro pool classSlot packageSlot classLink packageLink text hclass hpackage htext htext'
    exact names_eq_withDots (symbolName_eq_ok_iff.2 ⟨classLink, hclass, htext⟩)
      (symbolName_eq_ok_iff.2 ⟨packageLink, hpackage, htext'⟩)

/-- A package of two segments, and no class. -/
def packageEntries : List Entry :=
  [.utf8 "a/b", .symbol .packageSymbol 1]

/-- A class that is interned by an internal name gets the text of the package, and is read back by
another name than the one that was given, which is that of the package. -/
theorem packageEntries_interned_names_dotted : packageEntries.length ≤ 0xFFFF ∧
    ∃ later, internClass "a/b" (ofList packageEntries) = .ok 3 later ∧
      later.className 3 = .ok "a.b" ∧ later.className 3 ≠ .ok "a/b" ∧
      later.packageName 2 = later.className 3 := by
  have hlen : packageEntries.length ≤ 0xFFFF := by decide
  obtain ⟨hdotted, hagree⟩ := interned_names_dotted hlen []
  have hrun : ∃ later, internClass "a/b" (ofList packageEntries) = .ok 3 later ∧
      later.toList = packageEntries ++ [.symbol .classSymbol 1] := by
    simp [packageEntries, internClass, InternalName.ofDotted, replace, internSymbol, run_bind,
      internUtf8, intern, ofList, indexOf, List.zipIdx, Entry.key?, push, capacity, Key.entry,
      toList, Std.HashMap.getElem_insertIfNew]
  obtain ⟨later, hrun, hslots⟩ := hrun
  obtain ⟨hname, hself⟩ := (hdotted _ rfl _ _ _).1 hrun
  refine ⟨hlen, later, hrun, ?_, ?_, ?_⟩
  · rw [hname, ← replace_eq_withDots]
    rfl
  · exact mt hself.1 (by decide)
  · have htext : later.get? 1 = some (.utf8 "a/b") := by
      rw [get?_eq_some_iff, hslots]
      exact ⟨by decide, rfl⟩
    have hpackage : later.get? 2 = some (.symbol .packageSymbol 1) := by
      rw [get?_eq_some_iff, hslots]
      exact ⟨by decide, rfl⟩
    have hclass : later.get? 3 = some (.symbol .classSymbol 1) := by
      rw [get?_eq_some_iff, hslots]
      exact ⟨by decide, rfl⟩
    obtain ⟨hname, hname'⟩ := hagree later 3 2 1 1 "a/b" hclass hpackage htext htext
    rw [hname, hname']

end ConstantPool
end ModuleRecord
