import ModuleRecord.Proofs.Descriptor.Build
import ModuleRecord.Proofs.Descriptor.NameGrammar

/-!
# Which fault decides

Building looks at the names and digests of a draft in a fixed order (`Draft.checked`). It succeeds
if all of them are right, and otherwise names the first one that is not. What comes of the draft
then differs in its requirement on the base module and in the case of its digests only
(`Draft.build_outcome`).
-/

namespace ModuleRecord

open Descriptor (Error Role checkNonEmpty checkModuleName checkBinaryName)

/-! ## What is looked at -/

/-- Something that building looks at. -/
inductive Checked where
  | moduleName (role : Role) (name : String)
  | binaryName (role : Role) (name : String)
  /-- The name of an algorithm. -/
  | algorithm (name : String)
  /-- The digest of a module. -/
  | digest (target text : String)
  deriving DecidableEq, Repr

namespace Checked

/-- Names are of their kind, algorithms have a name, and digests are made up of pairs of digits. -/
def IsRight : Checked → Prop
  | moduleName _ name => Name.IsModuleName name
  | binaryName _ name => Name.IsBinaryName name
  | algorithm name => name ≠ ""
  | digest _ text => Hex.IsHex text

instance : DecidablePred IsRight
  | moduleName _ name => inferInstanceAs (Decidable (Name.IsModuleName name))
  | binaryName _ name => inferInstanceAs (Decidable (Name.IsBinaryName name))
  | algorithm name => inferInstanceAs (Decidable (name ≠ ""))
  | digest _ text => inferInstanceAs (Decidable (Hex.IsHex text))

/-- The fault of a name that is not right. An empty one is told apart. -/
def nameFault (role : Role) (name : String) : Error :=
  if name = "" then .emptyName role else .invalidName role name

/-- The fault of what is not right. -/
def fault : Checked → Error
  | moduleName role name => nameFault role name
  | binaryName role name => nameFault role name
  | algorithm _ => .emptyName .hashAlgorithm
  | digest target text => .invalidDigest target text

/-- The fault, if there is one. -/
def fault? (item : Checked) : Option Error :=
  if item.IsRight then none else some item.fault

theorem fault?_eq_none_iff {item : Checked} : item.fault? = none ↔ item.IsRight := by
  simp [fault?]

theorem fault?_eq_some_iff {item : Checked} {found : Error} :
    item.fault? = some found ↔ ¬ item.IsRight ∧ item.fault = found := by
  simp [fault?]

end Checked

/-- What is looked at in an export: the package, then the targets. -/
def Export.checked (item : Export) : List Checked :=
  .binaryName .exportedPackage item.package :: item.targets.map (.moduleName .exportTarget)

/-- What is looked at in a provision: the service, then the implementations. -/
def Provision.checked (item : Provision) : List Checked :=
  .binaryName .service item.service :: item.implementations.map (.binaryName .implementation)

/-- What is looked at in a hash: the module, then the digest. -/
def ModuleHash.checked (hash : ModuleHash) : List Checked :=
  [.moduleName .hashedModule hash.target, .digest hash.target hash.digest]

/-- What is looked at in a record of hashes: the algorithm, then each hash. -/
def HashRecord.checked (record : HashRecord) : List Checked :=
  .algorithm record.algorithm :: record.hashes.flatMap ModuleHash.checked

/-- What is looked at when a draft is built, in this order. Versions and the target platform are not
among it. -/
def Draft.checked (draft : Draft) : List Checked :=
  .moduleName .declaredModule draft.name ::
    (draft.requires.map (fun item => .moduleName .requiredModule item.target) ++
      (draft.exports.flatMap Export.checked ++ (draft.provides.flatMap Provision.checked ++
        (draft.uses.map (.binaryName .service) ++ (draft.packages.map (.binaryName .package) ++
          (draft.mainClass.toList.map (.binaryName .mainClass) ++
            draft.hashes.flatMap HashRecord.checked))))))

/-! ## Checks -/

/-- The computation looks at these items, and fails for the first of them that is not right. -/
abbrev Checks {α : Type} : Except Error α → List Checked → Prop :=
  Fallible.FailsFirst Checked.fault?

/-- A check of one item. -/
theorem checks_singleton {α : Type} {check : Except Error α} {item : Checked}
    (hright : item.IsRight → ∃ value, check = .ok value)
    (hwrong : ¬ item.IsRight → check = .error item.fault) : Checks check [item] := by
  intro found
  rw [List.findSome?_singleton, Checked.fault?_eq_some_iff]
  by_cases h : item.IsRight
  · obtain ⟨value, rfl⟩ := hright h
    simp [h]
  · rw [hwrong h]
    simp [h]

theorem checkName_eq_error {accepts : String → Bool} {role : Role} {name : String}
    (h : ¬ accepts name = true) :
    (do checkNonEmpty role name; if !accepts name then throw (.invalidName role name)) =
      Except.error (Checked.nameFault role name) := by
  unfold checkNonEmpty Checked.nameFault
  by_cases hempty : name = ""
  · rw [if_pos hempty, if_pos hempty]
    rfl
  · rw [if_neg hempty, if_neg hempty, Bool.eq_false_iff.2 h]
    rfl

theorem checks_moduleName (role : Role) (name : String) :
    Checks (checkModuleName role name) [.moduleName role name] :=
  checks_singleton
    (fun h => ⟨(), Descriptor.checkModuleName_eq_ok_iff.2 (Name.isModuleName_iff.2 h)⟩)
    fun h => checkName_eq_error (mt Name.isModuleName_iff.1 h)

theorem checks_binaryName (role : Role) (name : String) :
    Checks (checkBinaryName role name) [.binaryName role name] :=
  checks_singleton
    (fun h => ⟨(), Descriptor.checkBinaryName_eq_ok_iff.2 (Name.isBinaryName_iff.2 h)⟩)
    fun h => checkName_eq_error (mt Name.isBinaryName_iff.1 h)

theorem checks_algorithm (name : String) :
    Checks (checkNonEmpty .hashAlgorithm name) [.algorithm name] := by
  refine checks_singleton (fun h => ⟨(), Descriptor.checkNonEmpty_eq_ok_iff.2 h⟩) fun h => ?_
  unfold checkNonEmpty
  rw [if_pos (not_not.1 h)]
  rfl

/-- A check of each item of a row. -/
theorem checks_forM {γ : Type} {check : γ → Except Error Unit} {item : γ → Checked}
    (h : ∀ x, Checks (check x) [item x]) (row : List γ) :
    Checks (row.forM check) (row.map item) := by
  rw [List.map_eq_flatMap]
  exact .forM h row

theorem Export.checks_check (item : Export) : Checks item.check item.checked :=
  (checks_binaryName _ _).bind fun _ => checks_forM (checks_moduleName _) item.targets

theorem Provision.checks_check (item : Provision) : Checks item.check item.checked :=
  (checks_binaryName _ _).bind fun _ => checks_forM (checks_binaryName _) item.implementations

theorem ModuleHash.checks_check (hash : ModuleHash) : Checks hash.check hash.checked := by
  refine (checks_moduleName _ _).bind fun _ => checks_singleton ?_ ?_
  · intro h
    obtain ⟨bytes, hbytes⟩ := Hex.exists_decode?_iff.2 h
    rw [hbytes]
    exact ⟨_, rfl⟩
  · intro h
    have hnone : Hex.decode? hash.digest = none := by
      rw [Option.eq_none_iff_forall_ne_some]
      exact fun bytes hbytes => h (Hex.exists_decode?_iff.1 ⟨bytes, hbytes⟩)
    rw [hnone]
    rfl

theorem HashRecord.checks_check (record : HashRecord) : Checks record.check record.checked :=
  (checks_algorithm record.algorithm).bind fun _ =>
    (Fallible.FailsFirst.mapM ModuleHash.checks_check record.hashes).bind_pure _

/-! ## Building -/

theorem Draft.checks_build (draft : Draft) : Checks draft.build draft.checked := by
  have hmain : Checks (draft.mainClass.forM (checkBinaryName .mainClass))
      (draft.mainClass.toList.map (.binaryName .mainClass)) := by
    cases draft.mainClass with
    | none => exact .pure ()
    | some name => exact checks_binaryName _ name
  unfold Draft.build Draft.checked
  refine (checks_moduleName _ draft.name).bind fun _ => ?_
  refine (checks_forM (fun item => checks_moduleName _ item.target) draft.requires).bind fun _ => ?_
  refine (Fallible.FailsFirst.forM Export.checks_check draft.exports).bind fun _ => ?_
  refine (Fallible.FailsFirst.forM Provision.checks_check draft.provides).bind fun _ => ?_
  refine (checks_forM (checks_binaryName _) draft.uses).bind fun _ => ?_
  refine (checks_forM (checks_binaryName _) draft.packages).bind fun _ => hmain.bind fun _ => ?_
  exact (Fallible.FailsFirst.mapM HashRecord.checks_check draft.hashes).bind_pure _

/-- A draft is built exactly if all that is looked at is right. -/
theorem Draft.exists_build_iff {draft : Draft} :
    (∃ descriptor, draft.build = .ok descriptor) ↔ ∀ item ∈ draft.checked, item.IsRight := by
  rw [draft.checks_build.exists_ok_iff]
  simp only [Checked.fault?_eq_none_iff]

/-- The fault of a draft is that of the first thing that is not right. -/
theorem Draft.build_eq_error_iff {draft : Draft} {found : Error} :
    draft.build = .error found ↔
      ∃ before item after, draft.checked = before ++ item :: after ∧
        (∀ earlier ∈ before, earlier.IsRight) ∧ ¬ item.IsRight ∧ item.fault = found := by
  rw [draft.checks_build.eq_error_iff]
  simp only [Checked.fault?_eq_none_iff, Checked.fault?_eq_some_iff]

/-- What is built differs from the draft in its requirement on the base module and in the case of
its digests only. -/
theorem Draft.toDraft_of_build {draft : Draft} {descriptor : Descriptor}
    (h : draft.build = .ok descriptor) :
    descriptor.toDraft = { draft with
      requires := Requirement.requireJavaBase draft.name draft.requires
      hashes := draft.hashes.map HashRecord.toLower } := by
  obtain ⟨hvalid, hnormal⟩ := Draft.build_eq_ok_iff.1 h
  rw [← hnormal, hvalid.normalized_eq]

/-- A draft is built exactly if all that is looked at is right. Then a requirement on the base
module is seen to, digests are written in lowercase, and all else is kept. If something is not
right, the fault is that of the first such thing. -/
theorem Draft.build_outcome (draft : Draft) :
    (∀ descriptor, draft.build = .ok descriptor ↔
      (∀ item ∈ draft.checked, item.IsRight) ∧
        descriptor.toDraft = { draft with
          requires := Requirement.requireJavaBase draft.name draft.requires
          hashes := draft.hashes.map HashRecord.toLower }) ∧
    ∀ found, draft.build = .error found ↔
      ∃ before item after, draft.checked = before ++ item :: after ∧
        (∀ earlier ∈ before, earlier.IsRight) ∧ ¬ item.IsRight ∧ item.fault = found := by
  refine ⟨fun descriptor => ⟨?_, ?_⟩, fun found => Draft.build_eq_error_iff⟩
  · intro h
    exact ⟨Draft.exists_build_iff.1 ⟨descriptor, h⟩, Draft.toDraft_of_build h⟩
  · rintro ⟨hall, hdraft⟩
    obtain ⟨built, hbuilt⟩ := Draft.exists_build_iff.2 hall
    have heq : built.toDraft = descriptor.toDraft :=
      (Draft.toDraft_of_build hbuilt).trans hdraft.symm
    rw [hbuilt]
    exact congrArg (fun contents => Except.ok (Descriptor.mk contents)) heq

/-- An export target without a name is found before a digest that is not hexadecimal. -/
example : Draft.build { Draft.plain "app" with
      exports := [⟨"app.api", [""], false, false⟩]
      hashes := [⟨"SHA-256", [⟨"lib", "xyz"⟩]⟩] } = .error (.emptyName .exportTarget) := by
  rfl

end ModuleRecord
