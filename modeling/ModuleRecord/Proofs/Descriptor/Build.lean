import ModuleRecord.Descriptor.Build
import ModuleRecord.Proofs.Bytes.Hex
import ModuleRecord.Proofs.Descriptor.JavaBase
import ModuleRecord.Proofs.Descriptor.Name
import ModuleRecord.Proofs.Fallible

/-!
# What building does

A draft is built exactly if it is valid, and what comes of it is its normal form
(`build_eq_ok_iff`). The normal form of a valid draft is valid and normal, so a descriptor is built
from its own contents (`build_toDraft`).
-/

namespace ModuleRecord

open Descriptor (Role checkNonEmpty checkModuleName checkBinaryName)

/-! ## Names -/

theorem Descriptor.checkNonEmpty_eq_ok_iff {role : Role} {name : String} :
    checkNonEmpty role name = .ok () ↔ name ≠ "" := by
  unfold checkNonEmpty
  by_cases h : name = ""
  · simp [h]
  · simp [h]

/-- A name passes the check for its kind if it is accepted, which an empty one never is. -/
theorem Descriptor.checkName_eq_ok_iff {accepts : String → Bool} {role : Role} {name : String}
    (hne : accepts name = true → name ≠ "") :
    (do checkNonEmpty role name; if !accepts name then throw (.invalidName role name)) =
      Except.ok () ↔ accepts name = true := by
  rw [Fallible.check_bind_eq_ok_iff]
  cases h : accepts name with
  | true => exact iff_of_true ⟨checkNonEmpty_eq_ok_iff.2 (hne h), rfl⟩ rfl
  | false =>
    refine iff_of_false ?_ (by simp)
    rintro ⟨_, hthrow⟩
    cases hthrow

theorem Descriptor.checkModuleName_eq_ok_iff {role : Role} {name : String} :
    checkModuleName role name = .ok () ↔ Name.isModuleName name = true :=
  checkName_eq_ok_iff Name.ne_empty_of_isModuleName

theorem Descriptor.checkBinaryName_eq_ok_iff {role : Role} {name : String} :
    checkBinaryName role name = .ok () ↔ Name.isBinaryName name = true :=
  checkName_eq_ok_iff Name.ne_empty_of_isBinaryName

/-! ## Valid items -/

/-- The names of an export may be those of a package and of modules. -/
structure Export.IsValid (item : Export) : Prop where
  package : Name.isBinaryName item.package = true
  targets : ∀ target ∈ item.targets, Name.isModuleName target = true

/-- The names of a provision may be those of classes. -/
structure Provision.IsValid (item : Provision) : Prop where
  service : Name.isBinaryName item.service = true
  implementations : ∀ name ∈ item.implementations, Name.isBinaryName name = true

/-- The digest of a module can be read. -/
structure ModuleHash.IsValid (hash : ModuleHash) : Prop where
  target : Name.isModuleName hash.target = true
  digest : ∃ bytes, Hex.decode? hash.digest = some bytes

/-- The algorithm has a name, and the digests can be read. -/
structure HashRecord.IsValid (record : HashRecord) : Prop where
  algorithm : record.algorithm ≠ ""
  hashes : ∀ hash ∈ record.hashes, hash.IsValid

/-- All names of a declaration are of their kind. -/
structure Declaration.IsValid (declaration : Declaration) : Prop where
  name : Name.isModuleName declaration.name = true
  requires : ∀ item ∈ declaration.requires, Name.isModuleName item.target = true
  exports : ∀ item ∈ declaration.exports, item.IsValid
  provides : ∀ item ∈ declaration.provides, item.IsValid
  uses : ∀ name ∈ declaration.uses, Name.isBinaryName name = true

/-- All names of a draft are of their kind, and all digests can be read. -/
structure Draft.IsValid (draft : Draft) : Prop extends draft.toDeclaration.IsValid where
  packages : ∀ name ∈ draft.packages, Name.isBinaryName name = true
  mainClass : ∀ name ∈ draft.mainClass, Name.isBinaryName name = true
  hashes : ∀ record ∈ draft.hashes, record.IsValid

theorem Export.check_eq_ok_iff {item : Export} : item.check = .ok () ↔ item.IsValid := by
  unfold Export.check
  rw [Fallible.check_bind_eq_ok_iff]
  simp only [Fallible.forM_eq_ok_iff, Descriptor.checkModuleName_eq_ok_iff,
    Descriptor.checkBinaryName_eq_ok_iff]
  exact ⟨fun ⟨hpackage, htargets⟩ => ⟨hpackage, htargets⟩, fun h => ⟨h.package, h.targets⟩⟩

theorem Provision.check_eq_ok_iff {item : Provision} : item.check = .ok () ↔ item.IsValid := by
  unfold Provision.check
  rw [Fallible.check_bind_eq_ok_iff]
  simp only [Fallible.forM_eq_ok_iff, Descriptor.checkBinaryName_eq_ok_iff]
  exact ⟨fun ⟨hservice, himplementations⟩ => ⟨hservice, himplementations⟩,
    fun h => ⟨h.service, h.implementations⟩⟩

/-! ## Normal form -/

/-- The digest in lowercase. -/
def ModuleHash.lowercase (hash : ModuleHash) : ModuleHash :=
  match Hex.decode? hash.digest with
  | some bytes => { hash with digest := Hex.encode bytes }
  | none => hash

/-- The digests in lowercase. -/
def HashRecord.lowercase (record : HashRecord) : HashRecord :=
  { record with hashes := record.hashes.map ModuleHash.lowercase }

/-- The draft with its requirement on the base module and its digests in lowercase. -/
def Draft.normalized (draft : Draft) : Draft :=
  { draft with
    requires := Requirement.requireJavaBase draft.name draft.requires
    hashes := draft.hashes.map HashRecord.lowercase }

theorem ModuleHash.check_eq_ok_iff {hash checked : ModuleHash} :
    hash.check = .ok checked ↔ hash.IsValid ∧ hash.lowercase = checked := by
  unfold ModuleHash.check ModuleHash.lowercase
  rw [Fallible.check_bind_eq_ok_iff, Descriptor.checkModuleName_eq_ok_iff]
  cases hdigest : Hex.decode? hash.digest with
  | some bytes =>
    constructor
    · rintro ⟨htarget, hpure⟩
      cases hpure
      exact ⟨⟨htarget, bytes, hdigest⟩, rfl⟩
    · rintro ⟨hvalid, rfl⟩
      exact ⟨hvalid.target, rfl⟩
  | none =>
    refine iff_of_false ?_ ?_
    · rintro ⟨_, hthrow⟩
      cases hthrow
    · rintro ⟨hvalid, -⟩
      obtain ⟨bytes, hbytes⟩ := hvalid.digest
      rw [hbytes] at hdigest
      exact absurd hdigest (by simp)

theorem HashRecord.check_eq_ok_iff {record checked : HashRecord} :
    record.check = .ok checked ↔ record.IsValid ∧ record.lowercase = checked := by
  unfold HashRecord.check
  rw [Fallible.check_bind_eq_ok_iff, Descriptor.checkNonEmpty_eq_ok_iff]
  simp only [Fallible.bind_eq_ok_iff, Fallible.mapM_eq_ok_iff, ModuleHash.check_eq_ok_iff,
    Fallible.forall₂_guarded_iff]
  constructor
  · rintro ⟨halgorithm, _, ⟨hhashes, rfl⟩, hpure⟩
    cases hpure
    exact ⟨⟨halgorithm, hhashes⟩, rfl⟩
  · rintro ⟨hvalid, rfl⟩
    exact ⟨hvalid.algorithm, _, ⟨hvalid.hashes, rfl⟩, rfl⟩

theorem ModuleHash.lowercase_of_decode? {hash : ModuleHash} {bytes : Bytes}
    (h : Hex.decode? hash.digest = some bytes) :
    hash.lowercase = { hash with digest := Hex.encode bytes } := by
  unfold ModuleHash.lowercase
  rw [h]

/-- The digest in lowercase, whatever its characters. -/
def ModuleHash.toLower (hash : ModuleHash) : ModuleHash :=
  { hash with digest := hash.digest.toLower }

/-- The digests in lowercase, whatever their characters. -/
def HashRecord.toLower (record : HashRecord) : HashRecord :=
  { record with hashes := record.hashes.map ModuleHash.toLower }

/-- What comes of a digest that can be read is that digest in lowercase. -/
theorem ModuleHash.IsValid.lowercase_eq {hash : ModuleHash} (h : hash.IsValid) :
    hash.lowercase = hash.toLower := by
  obtain ⟨bytes, hbytes⟩ := h.digest
  rw [ModuleHash.lowercase_of_decode? hbytes, Hex.encode_of_decode? hbytes, ModuleHash.toLower]

theorem HashRecord.IsValid.lowercase_eq {record : HashRecord} (h : record.IsValid) :
    record.lowercase = record.toLower := by
  unfold HashRecord.lowercase HashRecord.toLower
  rw [List.map_congr_left fun hash hhash => (h.hashes hash hhash).lowercase_eq]

/-- What comes of a valid draft differs from it in its requirement on the base module and in the
case of its digests only. -/
theorem Draft.IsValid.normalized_eq {draft : Draft} (h : draft.IsValid) :
    draft.normalized = { draft with
      requires := Requirement.requireJavaBase draft.name draft.requires
      hashes := draft.hashes.map HashRecord.toLower } := by
  unfold Draft.normalized
  rw [List.map_congr_left fun record hrecord => (h.hashes record hrecord).lowercase_eq]

theorem ModuleHash.IsValid.lowercase {hash : ModuleHash} (h : hash.IsValid) :
    hash.lowercase.IsValid ∧ hash.lowercase.lowercase = hash.lowercase := by
  obtain ⟨bytes, hbytes⟩ := h.digest
  rw [ModuleHash.lowercase_of_decode? hbytes]
  have hagain : Hex.decode? (Hex.encode bytes) = some bytes := Hex.decode?_encode bytes
  exact ⟨⟨h.target, bytes, hagain⟩, ModuleHash.lowercase_of_decode? hagain⟩

theorem HashRecord.IsValid.lowercase {record : HashRecord} (h : record.IsValid) :
    record.lowercase.IsValid ∧ record.lowercase.lowercase = record.lowercase := by
  unfold HashRecord.lowercase
  refine ⟨⟨h.algorithm, ?_⟩, ?_⟩
  · rw [List.forall_mem_map]
    intro hash hhash
    exact (h.hashes hash hhash).lowercase.1
  · simp only [List.map_map, HashRecord.mk.injEq, true_and]
    refine List.map_congr_left fun hash hhash => ?_
    exact (h.hashes hash hhash).lowercase.2

theorem Draft.IsValid.normalized {draft : Draft} (h : draft.IsValid) :
    draft.normalized.IsValid ∧ draft.normalized.normalized = draft.normalized := by
  refine ⟨⟨⟨h.name, ?_, h.exports, h.provides, h.uses⟩, h.packages, h.mainClass, ?_⟩, ?_⟩
  · intro item hitem
    rcases Requirement.target_of_mem_requireJavaBase hitem with hbase | ⟨given, hgiven, htarget⟩
    · rw [hbase]
      decide
    · rw [← htarget]
      exact h.requires given hgiven
  · change ∀ record ∈ draft.hashes.map HashRecord.lowercase, record.IsValid
    rw [List.forall_mem_map]
    intro record hrecord
    exact (h.hashes record hrecord).lowercase.1
  · have hhashes : (draft.hashes.map HashRecord.lowercase).map HashRecord.lowercase =
        draft.hashes.map HashRecord.lowercase := by
      rw [List.map_map]
      refine List.map_congr_left fun record hrecord => ?_
      exact (h.hashes record hrecord).lowercase.2
    unfold Draft.normalized
    simp only [Requirement.requireJavaBase_idem, hhashes]

/-! ## Building -/

/-- A draft is built exactly if it is valid, and its normal form comes of it. -/
theorem Draft.build_eq_ok_iff {draft : Draft} {descriptor : Descriptor} :
    draft.build = .ok descriptor ↔ draft.IsValid ∧ draft.normalized = descriptor.toDraft := by
  have hmain : draft.mainClass.forM (checkBinaryName .mainClass) = .ok () ↔
      ∀ name ∈ draft.mainClass, Name.isBinaryName name = true := by
    cases draft.mainClass with
    | none => exact iff_of_true rfl (by simp)
    | some name =>
      change checkBinaryName .mainClass name = .ok () ↔ _
      rw [Descriptor.checkBinaryName_eq_ok_iff]
      simp
  unfold Draft.build
  simp only [Fallible.check_bind_eq_ok_iff, Fallible.forM_eq_ok_iff, hmain,
    Descriptor.checkModuleName_eq_ok_iff, Descriptor.checkBinaryName_eq_ok_iff,
    Export.check_eq_ok_iff, Provision.check_eq_ok_iff]
  simp only [Fallible.bind_eq_ok_iff, Fallible.mapM_eq_ok_iff, HashRecord.check_eq_ok_iff,
    Fallible.forall₂_guarded_iff]
  constructor
  · rintro ⟨hname, hrequires, hexports, hprovides, huses, hpackages, hclass, _, ⟨hhashes, rfl⟩,
      hpure⟩
    cases hpure
    exact ⟨⟨⟨hname, hrequires, hexports, hprovides, huses⟩, hpackages, hclass, hhashes⟩, rfl⟩
  · rintro ⟨h, hnormal⟩
    refine ⟨h.name, h.requires, h.exports, h.provides, h.uses, h.packages, h.mainClass, _,
      ⟨h.hashes, rfl⟩, ?_⟩
    exact congrArg Except.ok (congrArg Descriptor.mk hnormal)

/-- A descriptor is built from its own contents. -/
theorem Draft.build_toDraft {draft : Draft} {descriptor : Descriptor}
    (h : draft.build = .ok descriptor) : descriptor.toDraft.build = .ok descriptor := by
  obtain ⟨hvalid, hnormal⟩ := Draft.build_eq_ok_iff.1 h
  obtain ⟨hvalid', hnormal'⟩ := hvalid.normalized
  rw [hnormal] at hvalid' hnormal'
  exact Draft.build_eq_ok_iff.2 ⟨hvalid', hnormal'⟩

end ModuleRecord
