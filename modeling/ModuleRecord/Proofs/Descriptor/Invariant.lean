import ModuleRecord.Proofs.Descriptor.Limits

/-!
# What holds of every descriptor

However a descriptor came about, its names and digests are of their kind and it obeys the rule of
the base module (`IsSound`), and to build it again, to change nothing about it or to normalize it
leaves it as it is (`IsSettled`). A session tries one change after the other and keeps what it has
where a change is refused; it never leaves the descriptors of this kind
(`isSound_and_isSettled_attemptAll`).
-/

namespace ModuleRecord
namespace Descriptor

/-! ## Sessions -/

/-- The descriptor after a change, or as it was where the change is refused. -/
def attempt (descriptor : Descriptor) (change : Draft → Draft) : Descriptor :=
  match descriptor.edit change with
  | .ok edited => edited
  | .error _ => descriptor

/-- The descriptor after a row of changes, some of which may be refused. -/
def attemptAll (descriptor : Descriptor) (changes : List (Draft → Draft)) : Descriptor :=
  changes.foldl attempt descriptor

theorem Producible.attempt {descriptor : Descriptor} (h : descriptor.Producible)
    (change : Draft → Draft) : (descriptor.attempt change).Producible := by
  unfold Descriptor.attempt
  cases hedit : descriptor.edit change with
  | ok edited => exact .edit h hedit
  | error fault => exact h

theorem Producible.attemptAll {descriptor : Descriptor} (h : descriptor.Producible)
    (changes : List (Draft → Draft)) : (descriptor.attemptAll changes).Producible := by
  unfold Descriptor.attemptAll
  induction changes generalizing descriptor with
  | nil => exact h
  | cons change changes ih => exact ih (h.attempt change)

/-! ## Soundness -/

/-- All names are of their kind, digests are pairs of lowercase digits, and the requirements obey
the rule of the base module. -/
structure IsSound (descriptor : Descriptor) : Prop where
  names : descriptor.toDraft.IsValid
  digests : ∀ record ∈ descriptor.hashes, ∀ hash ∈ record.hashes, Hex.IsDigest hash.digest
  baseRule : Requirement.ObeysBaseRule descriptor.name descriptor.requires

/-- To build a descriptor again, to change nothing or to normalize leaves it as it is. -/
structure IsSettled (descriptor : Descriptor) : Prop where
  build : descriptor.toDraft.build = .ok descriptor
  edit : ∀ change : Draft → Draft, change descriptor.toDraft = descriptor.toDraft →
    descriptor.edit change = .ok descriptor
  normalize : descriptor.normalize = descriptor

/-- The digest of a valid hash that is in lowercase already. -/
theorem isDigest_of_lowercase {hash : ModuleHash} (h : hash.IsValid)
    (hlower : hash.lowercase = hash) : Hex.IsDigest hash.digest := by
  obtain ⟨bytes, hbytes⟩ := h.digest
  rw [ModuleHash.lowercase_of_decode? hbytes] at hlower
  rw [← hlower]
  exact Hex.isDigest_encode bytes

theorem isSound_of_build {descriptor : Descriptor}
    (h : descriptor.toDraft.build = .ok descriptor) : descriptor.IsSound := by
  obtain ⟨hvalid, hnormal⟩ := Draft.build_eq_ok_iff.1 h
  refine ⟨hvalid, ?_, ?_⟩
  · -- the parts of a normal draft hold the digests in lowercase
    obtain ⟨-, -, hhashes, -⟩ := Draft.forall_mem_parts.1 (hvalid.parts hnormal)
    intro record hrecord hash hhash
    obtain ⟨hrecordValid, hlower⟩ := hhashes record hrecord
    exact isDigest_of_lowercase (hrecordValid.hashes hash hhash) (hlower hash hhash)
  · have hrequires : Requirement.requireJavaBase descriptor.name descriptor.requires =
        descriptor.requires := congrArg (·.requires) hnormal
    rw [← hrequires]
    exact Requirement.obeysBaseRule_requireJavaBase _ _

theorem isSettled_of_build {descriptor : Descriptor}
    (h : descriptor.toDraft.build = .ok descriptor) : descriptor.IsSettled := by
  obtain ⟨-, hnormal⟩ := Draft.build_eq_ok_iff.1 h
  refine ⟨h, ?_, ?_⟩
  · intro change hchange
    unfold Descriptor.edit
    rw [hchange, h]
  · have hrequires : Requirement.requireJavaBase descriptor.name descriptor.requires =
        descriptor.requires := congrArg (·.requires) hnormal
    unfold Descriptor.normalize
    rw [if_pos hrequires]

/-- Whatever changes are tried on a descriptor that has come about in any way, what is left is sound
and settled. -/
theorem isSound_and_isSettled_attemptAll {descriptor : Descriptor} (h : descriptor.Producible)
    (changes : List (Draft → Draft)) :
    (descriptor.attemptAll changes).IsSound ∧ (descriptor.attemptAll changes).IsSettled := by
  have hbuild := (h.attemptAll changes).build_toDraft
  exact ⟨isSound_of_build hbuild, isSettled_of_build hbuild⟩

/-- The module loses its name, which is refused, and then its requirements, while its digests are
written in uppercase. -/
def baseModuleChanges : List (Draft → Draft) :=
  [fun draft => { draft with name := "" },
    fun draft => { draft with requires := [], hashes := [⟨"SHA-256", [⟨"a\\:b", "00FF"⟩]⟩] }]

theorem baseModule_attemptAll_isSound_and_isSettled :
    baseModule.Producible ∧
      baseModule.attemptAll baseModuleChanges =
        ⟨{ baseModule with requires := [], hashes := [⟨"SHA-256", [⟨"a\\:b", "00ff"⟩]⟩] }⟩ ∧
      (baseModule.attemptAll baseModuleChanges).IsSound ∧
      (baseModule.attemptAll baseModuleChanges).IsSettled := by
  obtain ⟨hsound, hsettled⟩ :=
    isSound_and_isSettled_attemptAll producible_baseModule baseModuleChanges
  exact ⟨producible_baseModule, by decide, hsound, hsettled⟩

end Descriptor
end ModuleRecord
