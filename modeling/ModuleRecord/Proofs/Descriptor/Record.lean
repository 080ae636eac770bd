import ModuleRecord.Descriptor.Record
import ModuleRecord.Proofs.Descriptor.Part

/-!
# Parts of drafts

A draft has a declaration part, and a part for each other thing that it says. Its parts make it up
again (`Draft.ofParts?_parts`). A class file is read through the parts of its attributes, and
written through those of the descriptor.
-/

namespace ModuleRecord

/-! ## Parts -/

namespace Draft

/-- All parts of a draft are as they should be if each kind of them is. -/
theorem forall_mem_parts {draft : Draft} {p : Part → Prop} :
    (∀ part ∈ draft.parts, p part) ↔
      p (.declaration draft.toDeclaration) ∧ (draft.packages ≠ [] → p (.packages draft.packages)) ∧
        (∀ record ∈ draft.hashes, p (.hashes record)) ∧
        (∀ name ∈ draft.mainClass, p (.mainClass name)) ∧
        ∀ platform ∈ draft.targetPlatform, p (.target platform) := by
  unfold parts
  simp only [List.forall_mem_append, List.forall_mem_map, List.forall_mem_singleton, and_assoc,
    Option.mem_toList]
  refine and_congr_right fun _ => and_congr_left fun _ => ?_
  cases draft.packages <;> simp

/-- The parts of a draft are as many as its attributes. -/
theorem length_parts (draft : Draft) :
    draft.parts.length = 1 + (if draft.packages = [] then 0 else 1) + draft.hashes.length +
      draft.mainClass.toList.length + draft.targetPlatform.toList.length := by
  unfold parts
  cases draft.packages with
  | nil =>
    simp only [List.length_append, List.length_map]
    rfl
  | cons name names =>
    simp only [List.length_append, List.length_map]
    rfl

/-- The parts of a valid draft in normal form are valid. -/
theorem IsValid.parts {draft : Draft} (h : draft.IsValid) (hnormal : draft.normalized = draft) :
    ∀ part ∈ draft.parts, part.IsValid := by
  have hlower : draft.hashes.map HashRecord.lowercase = draft.hashes :=
    congrArg Draft.hashes hnormal
  rw [forall_mem_parts]
  refine ⟨h.toIsValid, fun _ => h.packages, ?_, h.mainClass, fun _ _ => trivial⟩
  intro record hrecord
  refine ⟨h.hashes record hrecord, ?_⟩
  have hsame : record.lowercase = record := by
    have hall := (List.map_inj_left (g := id)).1 (hlower.trans (List.map_id _).symm)
    exact hall record hrecord
  have hmap : record.hashes.map ModuleHash.lowercase = record.hashes :=
    congrArg HashRecord.hashes hsame
  exact (List.map_inj_left (g := id)).1 (hmap.trans (List.map_id _).symm)

/-- The parts of a draft make up that draft. -/
theorem ofParts?_parts (draft : Draft) : ofParts? draft.parts = some draft := by
  have hsome : Part.hashRecord? ∘ Part.hashes = some := rfl
  have hdeclaration : draft.parts.filterMap Part.declaration? = [draft.toDeclaration] := by
    unfold parts
    cases draft.packages <;> cases draft.mainClass <;> cases draft.targetPlatform <;>
      simp [List.filterMap_cons, Part.declaration?]
  have hpackages : draft.parts.flatMap Part.packageNames = draft.packages := by
    unfold parts
    cases draft.packages <;> cases draft.mainClass <;> cases draft.targetPlatform <;>
      simp [List.flatMap_map, Part.packageNames]
  have hhashes : draft.parts.filterMap Part.hashRecord? = draft.hashes := by
    unfold parts
    cases draft.packages <;> cases draft.mainClass <;> cases draft.targetPlatform <;>
      simp [List.filterMap_cons, Part.hashRecord?, hsome]
  have hmainClass : draft.parts.filterMap Part.mainClass? = draft.mainClass.toList := by
    unfold parts
    cases draft.packages <;> cases draft.mainClass <;> cases draft.targetPlatform <;>
      simp [List.filterMap_cons, Part.mainClass?]
  have htarget : draft.parts.filterMap Part.target? = draft.targetPlatform.toList := by
    unfold parts
    cases draft.packages <;> cases draft.mainClass <;> cases draft.targetPlatform <;>
      simp [List.filterMap_cons, Part.target?]
  unfold ofParts?
  rw [hdeclaration, hpackages, hhashes, hmainClass, htarget]
  have hlast (text : Option String) : text.toList.getLast? = text := by
    cases text <;> rfl
  rw [hlast, hlast]
  rfl

end Draft

/-! ## Class files -/

namespace Descriptor

/-- A class file is read if it is a module record whose parts make up a draft that is built. -/
theorem ofClassFile_eq_ok_iff {file : ClassFile} {descriptor : Descriptor} :
    ofClassFile file = .ok descriptor ↔
      file.isModuleRecord = true ∧ ∃ parts draft,
        file.attributes.mapM (Part.ofAttribute? file.pool) = .ok parts ∧
          Draft.ofParts? (parts.filterMap id) = some draft ∧ draft.build = .ok descriptor := by
  unfold ofClassFile
  cases hrecord : file.isModuleRecord with
  | false =>
    refine iff_of_false ?_ (by simp)
    intro h
    cases h
  | true =>
    simp only [true_and]
    refine Fallible.bind_eq_ok_iff.trans (exists_congr fun parts => ?_)
    rw [exists_and_left]
    refine and_congr_right fun _ => ?_
    cases Draft.ofParts? (parts.filterMap id) with
    | some draft => simp
    | none =>
      refine iff_of_false ?_ (by simp)
      intro h
      cases h

theorem decode_of_parse {bytes : Bytes} {file : ClassFile} (h : ClassFile.parse bytes = .ok file) :
    decode bytes = ofClassFile file := by
  unfold decode
  rw [h]
  rfl

theorem decode_of_parse_error {bytes : Bytes} {fault : ClassFile.Error}
    (h : ClassFile.parse bytes = .error fault) : decode bytes = .error (.classFile fault) := by
  unfold decode
  rw [h]
  rfl

theorem exists_build_of_ofClassFile {file : ClassFile} {descriptor : Descriptor}
    (h : ofClassFile file = .ok descriptor) : ∃ draft : Draft, draft.build = .ok descriptor := by
  obtain ⟨-, _, draft, -, -, hbuild⟩ := ofClassFile_eq_ok_iff.1 h
  exact ⟨draft, hbuild⟩

theorem toClassFile_eq_ok_iff {descriptor : Descriptor} {file : ClassFile} :
    descriptor.toClassFile = .ok file ↔
      ∃ thisClass attributes pool, descriptor.layout .empty = .ok (thisClass, attributes) pool ∧
        ClassFile.moduleRecord pool thisClass attributes = file := by
  unfold toClassFile
  cases hrun : descriptor.layout .empty with
  | ok result pool =>
    obtain ⟨thisClass, attributes⟩ := result
    simp
  | error fault pool => simp

end Descriptor
end ModuleRecord
