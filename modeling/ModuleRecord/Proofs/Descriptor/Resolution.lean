import Mathlib.Data.Nat.Bitwise
import ModuleRecord.Proofs.ClassFile.ConstantPool.Resolving
import ModuleRecord.Proofs.Descriptor.Part

/-!
# Which reference decides

Resolving a declaration looks at its slots in a fixed order (`DeclarationTable.lookups`), opened
packages not among them. It succeeds if all of these lead to what they should, and then gives the
names that they lead to, row by row (`DeclarationTable.Says`). Otherwise it fails with the first one
that does not (`DeclarationTable.resolve_outcome`).
-/

namespace ModuleRecord

open Descriptor (Error Role)
open Resolve (nonEmpty ofClassFile optionalUtf8)

/-- A flag is in a set exactly if its bit is set in the word. -/
theorem FlagSet.has_eq_testBit {kind : FlagKind} (flag : UInt16) (k : Nat)
    (h : flag.toNat = 2 ^ k) (set : FlagSet kind) : set.has flag = set.bits.toNat.testBit k := by
  have hand : (set.bits &&& flag).toNat = (set.bits.toNat.testBit k).toNat * 2 ^ k := by
    rw [UInt16.toNat_and, h, Nat.and_two_pow]
  rw [Bool.eq_iff_iff, FlagSet.has, beq_iff_eq, ← UInt16.toNat_inj, hand, h]
  cases set.bits.toNat.testBit k
  · simp [(Nat.two_pow_pos k).ne]
  · simp

/-! ## What a slot leads to -/

/-- The slot holds a symbol of the kind, the slot of its name holds a text that is not empty, and
the name is the dotted form of that text. -/
def ConstantPool.Names (pool : ConstantPool) (kind : SymbolKind) (slot : UInt16) (name : String) :
    Prop :=
  ∃ link text, pool.get? slot = some (.symbol kind link) ∧ pool.get? link = some (.utf8 text) ∧
    text ≠ "" ∧ kind.dotted text = name

/-- The text in a slot, which is absent exactly for slot zero. -/
def ConstantPool.HasVersion (pool : ConstantPool) (slot : UInt16) : Option String → Prop
  | none => slot = 0
  | some text => slot ≠ 0 ∧ pool.get? slot = some (.utf8 text)

/-- Something that is looked at when a declaration is resolved. -/
inductive Lookup where
  /-- A name in its role, by the slot of its symbol. -/
  | name (role : Role) (kind : SymbolKind) (slot : UInt16)
  /-- A version, by the slot of its text. -/
  | version (slot : UInt16)

namespace Lookup

/-- It leads to what it should. -/
def IsRight (pool : ConstantPool) : Lookup → Prop
  | name _ kind slot => ∃ found, pool.Names kind slot found
  | version slot => ∃ found, pool.HasVersion slot found

/-- What is wrong with one that does not, and how that is reported. -/
inductive IsFault (pool : ConstantPool) : Lookup → Error → Prop
  /-- The slot does not hold a symbol of the kind. -/
  | noSymbol {role : Role} {kind : SymbolKind} {slot : UInt16}
    (h : ∀ link, pool.get? slot ≠ some (.symbol kind link)) :
    IsFault pool (name role kind slot) (.classFile (.badIndex slot (.symbol kind)))
  /-- The slot of the name of the symbol does not hold a text. -/
  | noText {role : Role} {kind : SymbolKind} {slot link : UInt16}
    (hsymbol : pool.get? slot = some (.symbol kind link))
    (h : ∀ text, pool.get? link ≠ some (.utf8 text)) :
    IsFault pool (name role kind slot) (.classFile (.badIndex link .utf8))
  /-- The name is empty. -/
  | emptyName {role : Role} {kind : SymbolKind} {slot link : UInt16}
    (hsymbol : pool.get? slot = some (.symbol kind link))
    (h : pool.get? link = some (.utf8 "")) :
    IsFault pool (name role kind slot) (.emptyName role)
  /-- There is a slot for a version, and it does not hold a text. -/
  | noVersion {slot : UInt16} (hslot : slot ≠ 0)
    (h : ∀ text, pool.get? slot ≠ some (.utf8 text)) :
    IsFault pool (version slot) (.classFile (.badIndex slot .utf8))

end Lookup

/-! ## One slot -/

namespace Resolve

variable {pool : ConstantPool} {role : Role} {kind : SymbolKind} {slot : UInt16} {name : String}
  {fault : Error}

theorem ofClassFile_eq_error_iff {α : Type} {found : Except ClassFile.Error α} :
    ofClassFile found = .error fault ↔
      ∃ reason, found = .error reason ∧ .classFile reason = fault := by
  cases found <;> simp [ofClassFile]

theorem nonEmpty_eq_ok_iff {found : Except ClassFile.Error String} :
    nonEmpty role found = .ok name ↔ found = .ok name ∧ name ≠ "" := by
  constructor
  · intro h
    obtain ⟨middle, hmiddle, hcheck⟩ := Fallible.bind_eq_ok_iff.1 h
    rw [ofClassFile_eq_ok_iff] at hmiddle
    split at hcheck
    · exact absurd hcheck (by simp [throw, throwThe, MonadExceptOf.throw])
    · rename_i hne
      cases hcheck
      exact ⟨hmiddle, hne⟩
  · rintro ⟨hfound, hne⟩
    exact nonEmpty_eq_ok hfound hne

theorem nonEmpty_eq_error_iff {found : Except ClassFile.Error String} :
    nonEmpty role found = .error fault ↔
      (∃ reason, found = .error reason ∧ .classFile reason = fault) ∨
        found = .ok "" ∧ .emptyName role = fault := by
  unfold nonEmpty
  rw [Fallible.bind_eq_error_iff, ofClassFile_eq_error_iff]
  simp only [ofClassFile_eq_ok_iff]
  refine or_congr_right ⟨?_, ?_⟩
  · rintro ⟨name, hfound, hcheck⟩
    split at hcheck
    · rename_i hempty
      cases hcheck
      exact ⟨hempty ▸ hfound, rfl⟩
    · exact absurd hcheck (by simp [pure, Except.pure])
  · rintro ⟨hfound, rfl⟩
    exact ⟨"", hfound, rfl⟩

/-- The name of a symbol in its dotted form, unless it is empty. -/
theorem nonEmpty_dotted_eq_ok_iff :
    nonEmpty role (kind.dotted <$> pool.symbolName kind slot) = .ok name ↔
      pool.Names kind slot name := by
  rw [nonEmpty_eq_ok_iff, Fallible.map_eq_ok_iff]
  simp only [ConstantPool.symbolName_eq_ok_iff]
  constructor
  · rintro ⟨⟨text, ⟨link, hsymbol, htext⟩, rfl⟩, hne⟩
    exact ⟨link, text, hsymbol, htext, mt SymbolKind.dotted_eq_empty_iff.2 hne, rfl⟩
  · rintro ⟨link, text, hsymbol, htext, hne, rfl⟩
    exact ⟨⟨text, ⟨link, hsymbol, htext⟩, rfl⟩, mt SymbolKind.dotted_eq_empty_iff.1 hne⟩

theorem nonEmpty_dotted_eq_error_iff :
    nonEmpty role (kind.dotted <$> pool.symbolName kind slot) = .error fault ↔
      (Lookup.name role kind slot).IsFault pool fault := by
  rw [nonEmpty_eq_error_iff, Fallible.map_eq_ok_iff]
  simp only [Fallible.map_eq_error_iff, ConstantPool.symbolName_eq_error_iff,
    ConstantPool.symbolName_eq_ok_iff, SymbolKind.dotted_eq_empty_iff, exists_eq_right]
  constructor
  · rintro (⟨reason, ⟨hsymbol, rfl⟩ | ⟨link, hsymbol, htext, rfl⟩, rfl⟩ |
      ⟨⟨link, hsymbol, htext⟩, rfl⟩)
    · exact .noSymbol hsymbol
    · exact .noText hsymbol htext
    · exact .emptyName hsymbol htext
  · intro h
    cases h with
    | noSymbol hsymbol => exact .inl ⟨_, .inl ⟨hsymbol, rfl⟩, rfl⟩
    | noText hsymbol htext => exact .inl ⟨_, .inr ⟨_, hsymbol, htext, rfl⟩, rfl⟩
    | emptyName hsymbol htext => exact .inr ⟨⟨_, hsymbol, htext⟩, rfl⟩

theorem optionalUtf8_eq_ok_iff {version : Option String} :
    optionalUtf8 pool slot = .ok version ↔ pool.HasVersion slot version := by
  unfold optionalUtf8
  by_cases hslot : slot = 0
  · rw [if_pos hslot, Except.ok.injEq]
    cases version with
    | none => exact iff_of_true rfl hslot
    | some text => exact iff_of_false (by simp) fun h => h.1 hslot
  · rw [if_neg hslot, Fallible.map_eq_ok_iff]
    simp only [ofClassFile_eq_ok_iff, ConstantPool.utf8_eq_ok_iff]
    cases version with
    | none => exact iff_of_false (by simp) hslot
    | some text => simp [ConstantPool.HasVersion, hslot]

theorem optionalUtf8_eq_error_iff :
    optionalUtf8 pool slot = .error fault ↔ (Lookup.version slot).IsFault pool fault := by
  unfold optionalUtf8
  by_cases hslot : slot = 0
  · rw [if_pos hslot]
    refine iff_of_false (by simp) fun h => ?_
    cases h with
    | noVersion hne => exact hne hslot
  · rw [if_neg hslot, Fallible.map_eq_error_iff, ofClassFile_eq_error_iff]
    simp only [ConstantPool.utf8_eq_error_iff]
    constructor
    · rintro ⟨reason, ⟨htext, rfl⟩, rfl⟩
      exact .noVersion hslot htext
    · intro h
      cases h with
      | noVersion _ htext => exact ⟨_, ⟨htext, rfl⟩, rfl⟩

end Resolve

open ConstantPool (moduleName_eq_dotted packageName_eq_dotted className_eq_dotted)
open Resolve (nonEmpty_dotted_eq_ok_iff nonEmpty_dotted_eq_error_iff optionalUtf8_eq_ok_iff
  optionalUtf8_eq_error_iff)

namespace Lookup

variable {pool : ConstantPool}

/-- The fault, if there is one. -/
def fault? (pool : ConstantPool) : Lookup → Option Error
  | name role kind slot =>
    Fallible.fault? (nonEmpty role (kind.dotted <$> pool.symbolName kind slot))
  | version slot => Fallible.fault? (optionalUtf8 pool slot)

theorem fault?_eq_some_iff {item : Lookup} {fault : Error} :
    item.fault? pool = some fault ↔ item.IsFault pool fault := by
  cases item with
  | name role kind slot => exact Fallible.fault?_eq_some_iff.trans nonEmpty_dotted_eq_error_iff
  | version slot => exact Fallible.fault?_eq_some_iff.trans optionalUtf8_eq_error_iff

theorem fault?_eq_none_iff {item : Lookup} : item.fault? pool = none ↔ item.IsRight pool := by
  cases item with
  | name role kind slot =>
    exact Fallible.fault?_eq_none_iff.trans (exists_congr fun _ => nonEmpty_dotted_eq_ok_iff)
  | version slot =>
    exact Fallible.fault?_eq_none_iff.trans (exists_congr fun _ => optionalUtf8_eq_ok_iff)

end Lookup

/-! ## What is looked at -/

/-- What is looked at in a row for a required module: the module, then the version. -/
def RequiresRow.lookups (row : RequiresRow) : List Lookup :=
  [.name .requiredModule .moduleSymbol row.target, .version row.version]

/-- What is looked at in a row for an exported package: the package, then the targets. -/
def ExportsRow.lookups (row : ExportsRow) : List Lookup :=
  .name .exportedPackage .packageSymbol row.package ::
    row.targets.map (.name .exportTarget .moduleSymbol)

/-- What is looked at in a row for a provided service: the service, then the implementations. -/
def ProvidesRow.lookups (row : ProvidesRow) : List Lookup :=
  .name .service .classSymbol row.service ::
    row.implementations.map (.name .implementation .classSymbol)

/-- What is looked at when a declaration is resolved, in this order. Opened packages are not among
it. -/
def DeclarationTable.lookups (table : DeclarationTable) : List Lookup :=
  .name .declaredModule .moduleSymbol table.name :: .version table.version ::
    (table.requires.flatMap RequiresRow.lookups ++ (table.exports.flatMap ExportsRow.lookups ++
      (table.uses.map (.name .service .classSymbol) ++ table.provides.flatMap ProvidesRow.lookups)))

/-- The computation looks at these items, and fails for the first of them that is not right. -/
abbrev Looks {α : Type} (pool : ConstantPool) : Except Error α → List Lookup → Prop :=
  Fallible.FailsFirst (Lookup.fault? pool)

variable {pool : ConstantPool}

theorem looks_name (role : Role) (kind : SymbolKind) (slot : UInt16) :
    Looks pool (nonEmpty role (kind.dotted <$> pool.symbolName kind slot)) [.name role kind slot] :=
  .singleton rfl

theorem looks_version (slot : UInt16) : Looks pool (optionalUtf8 pool slot) [.version slot] :=
  .singleton rfl

/-- A look at each slot of a row. -/
theorem looks_mapM {α : Type} {resolve : UInt16 → Except Error α} {item : UInt16 → Lookup}
    (h : ∀ slot, Looks pool (resolve slot) [item slot]) (slots : List UInt16) :
    Looks pool (slots.mapM resolve) (slots.map item) := by
  rw [List.map_eq_flatMap]
  exact .mapM h slots

theorem RequiresRow.looks_resolve (row : RequiresRow) :
    Looks pool (row.resolve pool) row.lookups := by
  simp only [RequiresRow.resolve, moduleName_eq_dotted]
  exact (looks_name _ _ row.target).bind fun _ => (looks_version row.version).bind_pure _

theorem ExportsRow.looks_resolve (row : ExportsRow) :
    Looks pool (row.resolve pool) row.lookups := by
  simp only [ExportsRow.resolve, packageName_eq_dotted, moduleName_eq_dotted]
  exact (looks_name _ _ row.package).bind fun _ =>
    (looks_mapM (looks_name _ _) row.targets).bind_pure _

theorem ProvidesRow.looks_resolve (row : ProvidesRow) :
    Looks pool (row.resolve pool) row.lookups := by
  simp only [ProvidesRow.resolve, className_eq_dotted]
  exact (looks_name _ _ row.service).bind fun _ =>
    (looks_mapM (looks_name _ _) row.implementations).bind_pure _

theorem DeclarationTable.looks_resolve (table : DeclarationTable) :
    Looks pool (table.resolve pool) table.lookups := by
  simp only [DeclarationTable.resolve, moduleName_eq_dotted, className_eq_dotted]
  refine (looks_name _ _ table.name).bind fun _ => ?_
  refine (looks_version table.version).bind fun _ => ?_
  refine (Fallible.FailsFirst.mapM RequiresRow.looks_resolve table.requires).bind fun _ => ?_
  refine (Fallible.FailsFirst.mapM ExportsRow.looks_resolve table.exports).bind fun _ => ?_
  refine (looks_mapM (looks_name _ _) table.uses).bind fun _ => ?_
  exact (Fallible.FailsFirst.mapM ProvidesRow.looks_resolve table.provides).bind_pure _

/-! ## What is said -/

/-- What a row for a required module says. -/
structure RequiresRow.Says (pool : ConstantPool) (row : RequiresRow) (item : Requirement) :
    Prop where
  target : pool.Names .moduleSymbol row.target item.target
  version : pool.HasVersion row.version item.version
  isStatic : item.isStatic = row.flags.bits.toNat.testBit 6
  isTransitive : item.isTransitive = row.flags.bits.toNat.testBit 5
  isMandated : item.isMandated = row.flags.bits.toNat.testBit 15
  isSynthetic : item.isSynthetic = row.flags.bits.toNat.testBit 12

/-- What a row for an exported package says. -/
structure ExportsRow.Says (pool : ConstantPool) (row : ExportsRow) (item : Export) : Prop where
  package : pool.Names .packageSymbol row.package item.package
  targets : List.Forall₂ (pool.Names .moduleSymbol) row.targets item.targets
  isSynthetic : item.isSynthetic = row.flags.bits.toNat.testBit 12
  isMandated : item.isMandated = row.flags.bits.toNat.testBit 15

/-- What a row for a provided service says. -/
structure ProvidesRow.Says (pool : ConstantPool) (row : ProvidesRow) (item : Provision) : Prop where
  service : pool.Names .classSymbol row.service item.service
  implementations :
    List.Forall₂ (pool.Names .classSymbol) row.implementations item.implementations

/-- What a declaration says, row by row. -/
structure DeclarationTable.Says (pool : ConstantPool) (table : DeclarationTable)
    (declaration : Declaration) : Prop where
  name : pool.Names .moduleSymbol table.name declaration.name
  version : pool.HasVersion table.version declaration.version
  isOpen : declaration.isOpen = table.flags.bits.toNat.testBit 5
  isSynthetic : declaration.isSynthetic = table.flags.bits.toNat.testBit 12
  isMandated : declaration.isMandated = table.flags.bits.toNat.testBit 15
  requires : List.Forall₂ (RequiresRow.Says pool) table.requires declaration.requires
  exports : List.Forall₂ (ExportsRow.Says pool) table.exports declaration.exports
  uses : List.Forall₂ (pool.Names .classSymbol) table.uses declaration.uses
  provides : List.Forall₂ (ProvidesRow.Says pool) table.provides declaration.provides

theorem RequiresRow.resolve_eq_ok_iff {row : RequiresRow} {item : Requirement} :
    row.resolve pool = .ok item ↔ row.Says pool item := by
  simp only [RequiresRow.resolve, Fallible.bind_eq_ok_iff, moduleName_eq_dotted,
    nonEmpty_dotted_eq_ok_iff, optionalUtf8_eq_ok_iff,
    FlagSet.has_eq_testBit Flag.staticPhase 6 rfl, FlagSet.has_eq_testBit Flag.transitive 5 rfl,
    FlagSet.has_eq_testBit Flag.mandated 15 rfl, FlagSet.has_eq_testBit Flag.synthetic 12 rfl]
  constructor
  · rintro ⟨target, htarget, version, hversion, hpure⟩
    cases hpure
    exact ⟨htarget, hversion, rfl, rfl, rfl, rfl⟩
  · cases item
    rintro ⟨htarget, hversion, rfl, rfl, rfl, rfl⟩
    exact ⟨_, htarget, _, hversion, rfl⟩

theorem ExportsRow.resolve_eq_ok_iff {row : ExportsRow} {item : Export} :
    row.resolve pool = .ok item ↔ row.Says pool item := by
  simp only [ExportsRow.resolve, Fallible.bind_eq_ok_iff, Fallible.mapM_eq_ok_iff,
    packageName_eq_dotted, moduleName_eq_dotted, nonEmpty_dotted_eq_ok_iff,
    FlagSet.has_eq_testBit Flag.synthetic 12 rfl, FlagSet.has_eq_testBit Flag.mandated 15 rfl]
  constructor
  · rintro ⟨package, hpackage, targets, htargets, hpure⟩
    cases hpure
    exact ⟨hpackage, htargets, rfl, rfl⟩
  · cases item
    rintro ⟨hpackage, htargets, rfl, rfl⟩
    exact ⟨_, hpackage, _, htargets, rfl⟩

theorem ProvidesRow.resolve_eq_ok_iff {row : ProvidesRow} {item : Provision} :
    row.resolve pool = .ok item ↔ row.Says pool item := by
  simp only [ProvidesRow.resolve, Fallible.bind_eq_ok_iff, Fallible.mapM_eq_ok_iff,
    className_eq_dotted, nonEmpty_dotted_eq_ok_iff]
  constructor
  · rintro ⟨service, hservice, implementations, himplementations, hpure⟩
    cases hpure
    exact ⟨hservice, himplementations⟩
  · rintro ⟨hservice, himplementations⟩
    exact ⟨_, hservice, _, himplementations, rfl⟩

/-- What a declaration resolves to is what it says. -/
theorem DeclarationTable.resolve_eq_ok_iff {table : DeclarationTable} {declaration : Declaration} :
    table.resolve pool = .ok declaration ↔ table.Says pool declaration := by
  simp only [DeclarationTable.resolve, Fallible.bind_eq_ok_iff, Fallible.mapM_eq_ok_iff,
    moduleName_eq_dotted, className_eq_dotted, nonEmpty_dotted_eq_ok_iff, optionalUtf8_eq_ok_iff,
    RequiresRow.resolve_eq_ok_iff, ExportsRow.resolve_eq_ok_iff, ProvidesRow.resolve_eq_ok_iff,
    FlagSet.has_eq_testBit Flag.openModule 5 rfl, FlagSet.has_eq_testBit Flag.synthetic 12 rfl,
    FlagSet.has_eq_testBit Flag.mandated 15 rfl]
  constructor
  · rintro ⟨name, hname, version, hversion, requires, hrequires, exports, hexports, uses, huses,
      provides, hprovides, hpure⟩
    cases hpure
    exact ⟨hname, hversion, rfl, rfl, rfl, hrequires, hexports, huses, hprovides⟩
  · cases declaration
    rintro ⟨hname, hversion, rfl, rfl, rfl, hrequires, hexports, huses, hprovides⟩
    exact ⟨_, hname, _, hversion, _, hrequires, _, hexports, _, huses, _, hprovides, rfl⟩

/-! ## The outcome -/

/-- A declaration is resolved exactly if all that is looked at is right, and then to what it says.
If something is not right, the fault is that of the first such thing. Opened packages do not
matter. -/
theorem DeclarationTable.resolve_outcome (pool : ConstantPool) (table : DeclarationTable) :
    ((∃ declaration, table.resolve pool = .ok declaration) ↔
      ∀ item ∈ table.lookups, item.IsRight pool) ∧
    (∀ declaration, table.resolve pool = .ok declaration ↔ table.Says pool declaration) ∧
    (∀ fault, table.resolve pool = .error fault ↔
      ∃ before item after, table.lookups = before ++ item :: after ∧
        (∀ earlier ∈ before, earlier.IsRight pool) ∧ item.IsFault pool fault) ∧
    ∀ opens,
      ({ table with opens := opens } : DeclarationTable).resolve pool = table.resolve pool := by
  refine ⟨?_, fun declaration => resolve_eq_ok_iff, fun fault => ?_, fun opens => rfl⟩
  · rw [table.looks_resolve.exists_ok_iff]
    simp only [Lookup.fault?_eq_none_iff]
  · rw [table.looks_resolve.eq_error_iff]
    simp only [Lookup.fault?_eq_none_iff, Lookup.fault?_eq_some_iff]

/-- Rows of opened packages may lead nowhere. -/
example : DeclarationTable.resolve (.ofList [.utf8 "app", .symbol .moduleSymbol 1])
    ⟨2, .empty, 0, [], [], [⟨7, .empty, [9]⟩], [], []⟩ = .ok (.plain "app") := by
  rfl

end ModuleRecord
