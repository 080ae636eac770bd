import ModuleRecord.Proofs.ClassFile.RoundTrip
import ModuleRecord.Proofs.Descriptor.Needs
import ModuleRecord.Proofs.Descriptor.Producible

/-!
# The limits of the format

A descriptor can be written exactly if it keeps to the limits of class files: its tables, digests
and texts can be counted in 16 bits, and so can the distinct texts and symbols that it needs
(`encode_iff_fitsFormat`). Whatever exceeds a limit is refused, and nothing is cut short.
-/

namespace ModuleRecord

open ConstantPool (Need)

/-! ## Texts in pools -/

/-- The text that is needed, where it is not a symbol. -/
def ConstantPool.Need.text? : Need → Option String
  | text content => some content
  | symbol _ _ => none

/-- The texts that a pool holds are those in its slots. -/
theorem ConstantPool.Holds.text_mem_iff {pool : ConstantPool} {held : Finset Need}
    (h : pool.Holds held) {text : String} : .text text ∈ held ↔ .utf8 text ∈ pool.toList := by
  rw [h.mem_iff_of_fulfils (.text text), mem_toList_iff h.size_le_word]
  rfl

/-! ## Module records -/

theorem ClassFile.isCountable_moduleRecord_iff {pool : ConstantPool} {thisClass : UInt16}
    {attributes : List Attribute} :
    (moduleRecord pool thisClass attributes).IsCountable ↔
      pool.size ≤ 65534 ∧
        (∀ text, .utf8 text ∈ pool.toList → (ModifiedUtf8.encode text).length ≤ 65535) ∧
        attributes.length ≤ 65535 := by
  have htables : (∀ table ∈ (moduleRecord pool thisClass attributes).attributeTables,
      table.length ≤ 65535) ↔ attributes.length ≤ 65535 := by
    rw [forall_attributeTables]
    simp [moduleRecord]
  constructor
  · intro h
    exact ⟨h.slots, h.texts, htables.1 h.attributes⟩
  · rintro ⟨hslots, htexts, hattributes⟩
    exact ⟨hslots, htexts, Nat.zero_le _, Nat.zero_le _, Nat.zero_le _, htables.2 hattributes⟩

theorem ClassFile.hasBoundedBodies_moduleRecord_iff {pool : ConstantPool} {thisClass : UInt16}
    {attributes : List Attribute} :
    (moduleRecord pool thisClass attributes).HasBoundedBodies ↔
      ∀ item ∈ attributes, item.body.length ≤ 0xFFFFFFFF := by
  unfold HasBoundedBodies
  rw [forall_attributeTables]
  simp [moduleRecord]

/-! ## Limits -/

/-- The texts that a module record stores. -/
def Draft.texts (draft : Draft) : List String :=
  draft.needs.filterMap Need.text?

theorem Draft.mem_texts_iff {draft : Draft} {text : String} :
    text ∈ draft.texts ↔ .text text ∈ draft.needs := by
  unfold texts
  rw [List.mem_filterMap]
  constructor
  · rintro ⟨need, hneed, htext⟩
    cases need with
    | text found =>
      cases htext
      exact hneed
    | symbol kind name => cases htext
  · intro hneed
    exact ⟨_, hneed, rfl⟩

/-- A draft keeps to the limits of class files. -/
@[mk_iff]
structure Draft.FitsFormat (draft : Draft) : Prop where
  /-- Every service has an implementation. -/
  implemented : draft.IsImplemented
  /-- The tables of the declaration can be counted. -/
  declaration : draft.toDeclaration.FitsTables
  packages : draft.packages.length ≤ 65535
  /-- The digests of each record can be counted, and so can their bytes. -/
  hashes : ∀ record ∈ draft.hashes, record.FitsTables
  /-- The attributes can be counted: one for the declaration, one for the packages if there are any,
  one for each record of digests, and one each for the main class and the target platform. -/
  attributes : 1 + (if draft.packages = [] then 0 else 1) + draft.hashes.length +
    draft.mainClass.toList.length + draft.targetPlatform.toList.length ≤ 65535
  /-- The bytes of every text can be counted. -/
  texts : ∀ text ∈ draft.texts, (ModifiedUtf8.encode text).length ≤ 65535
  /-- The distinct texts and symbols can be counted. -/
  slots : draft.needs.toFinset.card ≤ 65534

instance (draft : Draft) : Decidable draft.FitsFormat :=
  decidable_of_iff' _ draft.fitsFormat_iff

theorem Draft.forall_parts_fit_iff {draft : Draft} :
    (∀ part ∈ draft.parts, part.IsImplemented ∧ part.FitsTables) ↔
      draft.IsImplemented ∧ draft.toDeclaration.FitsTables ∧ draft.packages.length ≤ 65535 ∧
        ∀ record ∈ draft.hashes, record.FitsTables := by
  rw [forall_mem_parts]
  constructor
  · rintro ⟨⟨himplemented, hdeclaration⟩, hpackages, hhashes, -, -⟩
    refine ⟨himplemented, hdeclaration, ?_, fun record hrecord => (hhashes record hrecord).2⟩
    by_cases hempty : draft.packages = []
    · rw [hempty]
      exact Nat.zero_le _
    · exact (hpackages hempty).2
  · rintro ⟨himplemented, hdeclaration, hpackages, hhashes⟩
    exact ⟨⟨himplemented, hdeclaration⟩, fun _ => ⟨trivial, hpackages⟩,
      fun record hrecord => ⟨trivial, hhashes record hrecord⟩, fun _ _ => ⟨trivial, trivial⟩,
      fun _ _ => ⟨trivial, trivial⟩⟩

namespace Descriptor

theorem exists_encode_iff {descriptor : Descriptor} (h : ∀ part ∈ descriptor.parts, part.IsValid)
    (hbodies : ∀ part ∈ descriptor.parts, part.bodySize ≤ 0xFFFFFFFF) :
    (∃ bytes, descriptor.encode = .ok bytes) ↔ descriptor.FitsFormat := by
  unfold encode
  rw [Fallible.exists_bind_iff]
  simp only [Resolve.ofClassFile_eq_ok_iff]
  rcases toClassFile_cases h with ⟨thisClass, attributes, pool, hfile, hfits, hholds, hsizes⟩ |
    ⟨⟨fault, hfile⟩, hnot⟩
  · rw [hfile]
    simp only [Except.ok.injEq, exists_eq_left']
    have hlengths : attributes.map (fun item => item.body.length) =
        descriptor.parts.map Part.bodySize := by
      rw [← List.forall₂_eq_eq_eq, List.forall₂_map_left_iff, List.forall₂_map_right_iff]
      exact hsizes.flip
    have hbounded : (ClassFile.moduleRecord pool thisClass attributes).HasBoundedBodies := by
      rw [ClassFile.hasBoundedBodies_moduleRecord_iff]
      intro item hitem
      have hmem : item.body.length ∈ attributes.map (fun item => item.body.length) :=
        List.mem_map_of_mem hitem
      rw [hlengths, List.mem_map] at hmem
      obtain ⟨part, hpart, hsize⟩ := hmem
      rw [← hsize]
      exact hbodies part hpart
    have htexts : (∀ text, .utf8 text ∈ pool.toList → (ModifiedUtf8.encode text).length ≤ 65535) ↔
        ∀ text ∈ descriptor.texts, (ModifiedUtf8.encode text).length ≤ 65535 := by
      simp only [← hholds.text_mem_iff, List.mem_toFinset, Draft.mem_texts_iff]
    rw [ClassFile.exists_toBytes_iff hbounded, ClassFile.isCountable_moduleRecord_iff, htexts,
      ← hsizes.length_eq, Draft.length_parts]
    obtain ⟨himplemented, hdeclaration, hpackages, hhashes⟩ := Draft.forall_parts_fit_iff.1 hfits
    have hslots := hholds.size_le
    constructor
    · rintro ⟨-, htexts, hattributes⟩
      rw [hholds.size_eq] at hslots
      exact ⟨himplemented, hdeclaration, hpackages, hhashes, hattributes, htexts, hslots⟩
    · intro hformat
      exact ⟨hslots, hformat.texts, hformat.attributes⟩
  · rw [hfile]
    refine iff_of_false (by simp) ?_
    intro hformat
    refine hnot ⟨Draft.forall_parts_fit_iff.2 ?_, hformat.slots⟩
    exact ⟨hformat.implemented, hformat.declaration, hformat.packages, hformat.hashes⟩

/-- A descriptor whose attribute bodies can be counted in 32 bits is written exactly if it keeps to
the limits of class files, and is refused if it does not. -/
theorem encode_iff_fitsFormat {descriptor : Descriptor} (h : descriptor.Producible)
    (hbodies : ∀ part ∈ descriptor.parts, part.bodySize ≤ 0xFFFFFFFF) :
    ((∃ bytes, descriptor.encode = .ok bytes) ↔ descriptor.FitsFormat) ∧
      (¬ descriptor.FitsFormat → ∃ fault, descriptor.encode = .error fault) := by
  have hiff := exists_encode_iff h.parts hbodies
  refine ⟨hiff, ?_⟩
  intro hnot
  cases hencode : descriptor.encode with
  | error fault => exact ⟨fault, rfl⟩
  | ok bytes => exact absurd (hiff.1 ⟨bytes, hencode⟩) hnot

/-- A base module that requires itself, has an empty version and two records of digests, one of them
empty, and names a module with an escape, a package outside the basic plane and a class with NUL. -/
def baseModule : Descriptor where
  name := "java.base"
  version := some ""
  isOpen := true
  isSynthetic := false
  isMandated := false
  requires := [⟨"java.base", none, false, false, true, false⟩,
    ⟨"a\\:b", some "", true, false, false, false⟩]
  exports := [⟨"p.😀", ["a\\:b", "a\\:b"], false, true⟩]
  provides := [⟨"p.Service\u0000", ["p.Main", "p.Main"]⟩]
  uses := ["p.Service\u0000"]
  packages := ["p", "p.😀"]
  hashes := [⟨"SHA-256", [⟨"a\\:b", "00ff"⟩]⟩, ⟨"SHA-256", []⟩]
  mainClass := some "p.Main"
  targetPlatform := none

theorem producible_baseModule : baseModule.Producible :=
  .build (by decide : baseModule.toDraft.build = .ok baseModule)

/-- The base module with a service that has no implementation. -/
def unimplementedModule : Descriptor :=
  ⟨{ baseModule with provides := [⟨"p.Service", []⟩] }⟩

theorem baseModule_encodes_unimplementedModule_fails :
    (baseModule.Producible ∧ ∃ bytes, baseModule.encode = .ok bytes) ∧
      unimplementedModule.Producible ∧ ∃ fault, unimplementedModule.encode = .error fault := by
  have hunimplemented : unimplementedModule.Producible :=
    .build (by decide : unimplementedModule.toDraft.build = .ok unimplementedModule)
  refine ⟨⟨producible_baseModule, ?_⟩, hunimplemented, ?_⟩
  · have hfits : baseModule.FitsFormat := by decide
    exact (encode_iff_fitsFormat producible_baseModule (by decide)).1.2 hfits
  · have hexceeds : ¬ unimplementedModule.FitsFormat := by decide
    exact (encode_iff_fitsFormat hunimplemented (by decide)).2 hexceeds

end Descriptor
end ModuleRecord
