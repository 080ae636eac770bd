import ModuleRecord.Descriptor.Json
import ModuleRecord.Proofs.Descriptor.Record

/-!
# How descriptors come about

A descriptor is made, built, edited, normalized, or read from a class file, its bytes or a JSON
text. Each of these ends in building a draft, so every descriptor is built from its own contents
(`Producible.build_toDraft`).
-/

namespace ModuleRecord
namespace Descriptor

/-- The descriptors that can be produced, in any number of steps. -/
inductive Producible : Descriptor → Prop where
  /-- From a name alone. -/
  | new {name : String} {descriptor : Descriptor} (h : Descriptor.new name = .ok descriptor) :
      Producible descriptor
  /-- From any draft. -/
  | build {draft : Draft} {descriptor : Descriptor} (h : draft.build = .ok descriptor) :
      Producible descriptor
  /-- By any change to the contents of another. -/
  | edit {given descriptor : Descriptor} {change : Draft → Draft} (hgiven : Producible given)
      (h : given.edit change = .ok descriptor) : Producible descriptor
  /-- From the bytes of a class file. -/
  | decode {bytes : Bytes} {descriptor : Descriptor} (h : decode bytes = .ok descriptor) :
      Producible descriptor
  /-- From a class file. -/
  | ofClassFile {file : ClassFile} {descriptor : Descriptor}
      (h : ofClassFile file = .ok descriptor) : Producible descriptor
  /-- From a JSON text. -/
  | ofJson {text : String} {descriptor : Descriptor} (h : ofJson text = .ok descriptor) :
      Producible descriptor
  /-- By applying the rule of the base module to another. -/
  | normalize {given : Descriptor} (hgiven : Producible given) : Producible given.normalize

theorem exists_build_of_ofJson {text : String} {descriptor : Descriptor}
    (h : ofJson text = .ok descriptor) : ∃ draft : Draft, draft.build = .ok descriptor := by
  unfold ofJson at h
  cases hdraft : Draft.decoder (Json.scan text).root with
  | error fault =>
    simp only [hdraft] at h
    cases h
  | ok draft =>
    simp only [hdraft] at h
    cases hbuild : draft.build with
    | error fault =>
      rw [hbuild] at h
      cases h
    | ok built =>
      rw [hbuild] at h
      refine ⟨draft, ?_⟩
      by_cases hmore : (Json.scan text).hasMore = true
      · simp [hmore] at h
      · simp [hmore] at h
        rw [hbuild, h]

/-- However it came about, a descriptor is built from its own contents. -/
theorem Producible.build_toDraft {descriptor : Descriptor} (h : descriptor.Producible) :
    descriptor.toDraft.build = .ok descriptor := by
  induction h with
  | new h => exact Draft.build_toDraft h
  | build h => exact Draft.build_toDraft h
  | edit _ h _ => exact Draft.build_toDraft h
  | decode h =>
    obtain ⟨file, -, h⟩ := Fallible.bind_eq_ok_iff.1 h
    obtain ⟨draft, h⟩ := exists_build_of_ofClassFile h
    exact Draft.build_toDraft h
  | ofClassFile h =>
    obtain ⟨draft, h⟩ := exists_build_of_ofClassFile h
    exact Draft.build_toDraft h
  | ofJson h =>
    obtain ⟨draft, h⟩ := exists_build_of_ofJson h
    exact Draft.build_toDraft h
  | @normalize given _ ih =>
    unfold Descriptor.normalize
    by_cases hrequires : Requirement.requireJavaBase given.name given.requires = given.requires
    · rw [if_pos hrequires]
      exact ih
    · simp only [if_neg hrequires]
      cases hedit : given.edit fun draft =>
          { draft with requires := Requirement.requireJavaBase given.name given.requires } with
      | error fault => exact ih
      | ok normalized => exact Draft.build_toDraft hedit

/-- The parts of a descriptor are valid. -/
theorem Producible.parts {descriptor : Descriptor} (h : descriptor.Producible) :
    ∀ part ∈ descriptor.parts, part.IsValid := by
  obtain ⟨hvalid, hnormal⟩ := Draft.build_eq_ok_iff.1 h.build_toDraft
  exact hvalid.parts hnormal

end Descriptor
end ModuleRecord
