import ModuleRecord.Proofs.Descriptor.Limits
import ModuleRecord.Proofs.Descriptor.Producible
import ModuleRecord.Proofs.Json.Decode

/-!
# Descriptors read back from JSON

A descriptor is read back from its JSON text, and from every text that differs from that one only in
the order of its members and in default values that it writes out, at any depth
(`ofJson_of_isJsonForm`).
-/

namespace ModuleRecord

open Json

/-! ## Items -/

theorem Requirement.decodes {text : List Char} {item : Requirement}
    (h : IsForm item.members text) : Decodes Requirement.decoder text item := by
  have hfills : List.Forall₂ (Fills Requirement.fields (Requirement.plain "")) item.members _ :=
    .cons (fills_text item.target rfl)
      (.cons (fills_optional item.version rfl rfl)
        (.cons (fills_flag item.isStatic rfl rfl)
          (.cons (fills_flag item.isTransitive rfl rfl)
            (.cons (fills_flag item.isMandated rfl rfl)
              (.cons (fills_flag item.isSynthetic rfl rfl) .nil)))))
  refine decodes_record hfills ?_ ?_ ?_ rfl h
  · simp [Requirement.members]
  · simp [Requirement.members, Requirement.fields, Field.required, Field.optional]
  · simp

theorem Export.decodes {text : List Char} {item : Export} (h : IsForm item.members text) :
    Decodes Export.decoder text item := by
  have hfills : List.Forall₂ (Fills Export.fields ⟨"", [], false, false⟩) item.members _ :=
    .cons (fills_text item.package rfl)
      (.cons (fills_list (forall₂_decodes_text item.targets) rfl rfl)
        (.cons (fills_flag item.isSynthetic rfl rfl)
          (.cons (fills_flag item.isMandated rfl rfl) .nil)))
  refine decodes_record hfills ?_ ?_ ?_ rfl h
  · simp [Export.members]
  · simp [Export.members, Export.fields, Field.required, Field.optional]
  · simp

theorem Provision.decodes {text : List Char} {item : Provision} (h : IsForm item.members text) :
    Decodes Provision.decoder text item := by
  have hfills : List.Forall₂ (Fills Provision.fields ⟨"", []⟩) item.members _ :=
    .cons (fills_text item.service rfl)
      (.cons (fills_list (forall₂_decodes_text item.implementations) rfl rfl) .nil)
  refine decodes_record hfills ?_ ?_ ?_ rfl h
  · simp [Provision.members]
  · simp [Provision.members, Provision.fields, Field.required, Field.optional]
  · simp

theorem ModuleHash.decodes {text : List Char} {hash : ModuleHash} (h : IsForm hash.members text) :
    Decodes ModuleHash.decoder text hash := by
  have hfills : List.Forall₂ (Fills ModuleHash.fields ⟨"", ""⟩) hash.members _ :=
    .cons (fills_text hash.target rfl) (.cons (fills_text hash.digest rfl) .nil)
  refine decodes_record hfills ?_ ?_ ?_ rfl h
  · simp [ModuleHash.members]
  · simp [ModuleHash.members, ModuleHash.fields, Field.required]
  · simp

/-! ## Digests -/

/-- A text of the digests of one algorithm, with or without default values. -/
def HashRecord.IsJsonForm (record : HashRecord) (text : List Char) : Prop :=
  ∃ hashes, List.Forall₂ (fun text (hash : ModuleHash) => IsForm hash.members text) hashes
      record.hashes ∧
    IsForm (record.membersWith hashes) text

theorem HashRecord.decodes {text : List Char} {record : HashRecord} (h : record.IsJsonForm text) :
    Decodes HashRecord.decoder text record := by
  obtain ⟨hashes, hhashes, hform⟩ := h
  have hfills : List.Forall₂ (Fills HashRecord.fields ⟨"", []⟩) (record.membersWith hashes) _ :=
    .cons (fills_text record.algorithm rfl)
      (.cons (fills_list (hhashes.imp fun _ _ => ModuleHash.decodes) rfl rfl) .nil)
  refine decodes_record hfills ?_ ?_ ?_ rfl hform
  · simp [HashRecord.membersWith]
  · simp [HashRecord.membersWith, HashRecord.fields, Field.required, Field.optional]
  · simp

theorem HashRecord.isJsonForm_spelledOut (keys : List String) (record : HashRecord) :
    record.IsJsonForm (spelledOut keys (record.membersWith
      (record.hashes.map fun hash => spelledOut keys hash.members))) :=
  ⟨_, forall₂_isForm_spelledOut keys record.hashes, isForm_spelledOut keys _⟩

/-! ## Descriptors -/

namespace Descriptor

/-- A JSON text of a descriptor: the members of each object in any order, with or without those that
have their default value. -/
def IsJsonForm (descriptor : Descriptor) (text : String) : Prop :=
  ∃ exports requires provides hashes,
    List.Forall₂ (fun text (item : Export) => IsForm item.members text) exports
      descriptor.exports ∧
    List.Forall₂ (fun text (item : Requirement) => IsForm item.members text) requires
      descriptor.requires ∧
    List.Forall₂ (fun text (item : Provision) => IsForm item.members text) provides
      descriptor.provides ∧
    List.Forall₂ (fun text (record : HashRecord) => record.IsJsonForm text) hashes
      descriptor.hashes ∧
    IsForm (descriptor.membersWith exports requires provides hashes) text.toList

theorem decodes_toDraft {descriptor : Descriptor} {text : String} (h : descriptor.IsJsonForm text) :
    Decodes Draft.decoder text.toList descriptor.toDraft := by
  obtain ⟨exports, requires, provides, hashes, hexports, hrequires, hprovides, hhashes, hform⟩ := h
  have hfills : List.Forall₂ (Fills Draft.fields (Draft.plain ""))
      (descriptor.membersWith exports requires provides hashes) _ :=
    .cons (fills_text descriptor.name rfl)
      (.cons (fills_list (hexports.imp fun _ _ => Export.decodes) rfl rfl)
      (.cons (fills_list (hrequires.imp fun _ _ => Requirement.decodes) rfl rfl)
      (.cons (fills_list (hprovides.imp fun _ _ => Provision.decodes) rfl rfl)
      (.cons (fills_list (forall₂_decodes_text descriptor.uses) rfl rfl)
      (.cons (fills_optional descriptor.version rfl rfl)
      (.cons (fills_flag descriptor.isOpen rfl rfl)
      (.cons (fills_flag descriptor.isSynthetic rfl rfl)
      (.cons (fills_flag descriptor.isMandated rfl rfl)
      (.cons (fills_list (forall₂_decodes_text descriptor.packages) rfl rfl)
      (.cons (fills_list (hhashes.imp fun _ _ => HashRecord.decodes) rfl rfl)
      (.cons (fills_optional descriptor.mainClass rfl rfl)
      (.cons (fills_optional descriptor.targetPlatform rfl rfl) .nil))))))))))))
  refine decodes_record hfills ?_ ?_ ?_ rfl hform
  · simp [membersWith]
  · simp [Draft.fields, Field.optional]
  · simp

/-- The JSON text of a descriptor in which default values are written out for certain keys, at any
depth. -/
def spelledOut (keys : List String) (descriptor : Descriptor) : String :=
  String.ofList (Json.spelledOut keys (descriptor.membersWith
    (descriptor.exports.map fun item => Json.spelledOut keys item.members)
    (descriptor.requires.map fun item => Json.spelledOut keys item.members)
    (descriptor.provides.map fun item => Json.spelledOut keys item.members)
    (descriptor.hashes.map fun record => Json.spelledOut keys (record.membersWith
      (record.hashes.map fun hash => Json.spelledOut keys hash.members)))))

theorem spelledOut_nil (descriptor : Descriptor) :
    descriptor.spelledOut [] = descriptor.toJson := by
  simp only [spelledOut, Json.spelledOut_nil]
  rfl

theorem isJsonForm_spelledOut (keys : List String) (descriptor : Descriptor) :
    descriptor.IsJsonForm (descriptor.spelledOut keys) := by
  refine ⟨_, _, _, _, forall₂_isForm_spelledOut keys descriptor.exports,
    forall₂_isForm_spelledOut keys descriptor.requires,
    forall₂_isForm_spelledOut keys descriptor.provides,
    List.forall₂_map_left_iff.2 (List.forall₂_same.2 fun record _ =>
      record.isJsonForm_spelledOut keys), ?_⟩
  rw [spelledOut, String.toList_ofList]
  exact isForm_spelledOut keys _

/-- A descriptor is read back from each of its JSON texts. -/
theorem ofJson_of_isJsonForm {descriptor : Descriptor} (h : descriptor.Producible) :
    ofJson descriptor.toJson = .ok descriptor ∧
      ∀ text, descriptor.IsJsonForm text → ofJson text = .ok descriptor := by
  have hread : ∀ text, descriptor.IsJsonForm text → ofJson text = .ok descriptor := by
    intro text hform
    obtain ⟨node, hspells, hdraft⟩ := decodes_toDraft hform
    have hscan := scan_of_spells hspells
    rw [String.ofList_toList] at hscan
    unfold ofJson
    simp only [hscan, hdraft, h.build_toDraft]
    rfl
  refine ⟨?_, hread⟩
  rw [← spelledOut_nil]
  exact hread _ (descriptor.isJsonForm_spelledOut [])

/-- The base module is read back from its text with versions, flags, digests and a platform that are
not there written out. -/
theorem baseModule_spelledOut_reads_back :
    baseModule.Producible ∧
      baseModule.IsJsonForm
        (baseModule.spelledOut ["version", "synthetic", "hashes", "targetPlatform"]) ∧
      ofJson baseModule.toJson = .ok baseModule ∧
      ofJson (baseModule.spelledOut ["version", "synthetic", "hashes", "targetPlatform"]) =
        .ok baseModule := by
  have hform :=
    isJsonForm_spelledOut ["version", "synthetic", "hashes", "targetPlatform"] baseModule
  obtain ⟨hread, hforms⟩ := ofJson_of_isJsonForm producible_baseModule
  exact ⟨producible_baseModule, hform, hread, hforms _ hform⟩

end Descriptor
end ModuleRecord
