import Mathlib.Algebra.BigOperators.Group.Finset.Basic
import ModuleRecord.Proofs.Descriptor.Limits
import ModuleRecord.Proofs.Descriptor.References

/-!
# The least pool

The pool of a module record that was written for a descriptor is closed and as small as it can be
(`Descriptor.hasLeastPool_of_toClassFile`): it holds texts and symbols only, none of them twice,
each slot is used, each reference is met, and there are as many slots as the descriptor has distinct
texts and symbols.
-/

namespace ModuleRecord

open ConstantPool (Need PlacedAt Fulfils Key)

/-! ## Slots of needs -/

namespace ConstantPool.Holds

variable {pool : ConstantPool} {held : Finset Need} {need : Need} {key : Key}
  {slot other : UInt16}

/-- What a slot holds is needed. -/
theorem exists_need (h : pool.Holds held) (hheld : pool.get? slot = some key.entry) :
    ∃ need ∈ held, Fulfils pool need key := by
  cases key with
  | utf8 name => exact ⟨_, (h.mem_iff_of_fulfils (.text name)).2 ⟨slot, hheld⟩, .text name⟩
  | symbol kind nameSlot =>
    obtain ⟨name, hname⟩ := h.named _ _ _ hheld
    have hkey : Fulfils pool (.symbol kind name) (.symbol kind nameSlot) := .symbol kind hname
    exact ⟨_, (h.mem_iff_of_fulfils hkey).2 ⟨slot, hheld⟩, hkey⟩

/-- A need has no other slot than the one where it is placed. -/
theorem eq_of_placedAt (h : pool.Holds held) (hkey : Fulfils pool need key)
    (hheld : pool.get? slot = some key.entry) (hplaced : PlacedAt pool need other) :
    other = slot := by
  cases hplaced with
  | text hlowest =>
    cases hkey
    exact h.unique _ _ _ hlowest.1 hheld
  | symbol hname hlowest =>
    cases hkey with
    | symbol _ hname' =>
      rw [h.unique _ _ _ hname.1 hname'] at hlowest
      exact h.unique _ _ _ hlowest.1 hheld

theorem nodup (h : pool.Holds held) : pool.toList.Nodup := by
  rw [List.nodup_iff_injective_getElem]
  rintro ⟨i, hi⟩ ⟨j, hj⟩ heq
  obtain ⟨slot, hslot, hheld⟩ := exists_slot h.size_le_word hi
  obtain ⟨other, hother, hheld'⟩ := exists_slot h.size_le_word hj
  simp only at heq
  rw [heq] at hheld
  have hsame := congrArg UInt16.toNat (h.unique _ _ _ hheld hheld')
  rw [Fin.mk.injEq]
  omega

end ConstantPool.Holds

/-! ## Names -/

/-- The name of a class or package is well formed. Any name will do for a module. -/
def ConstantPool.Need.IsWellNamed : Need → Prop
  | text _ => True
  | symbol kind name => kind ≠ .moduleSymbol → InternalName.IsWellFormed name

namespace Need

theorem isWellNamed_named {kind : SymbolKind} {name : String}
    (h : kind ≠ .moduleSymbol → InternalName.IsWellFormed name) :
    ∀ need ∈ named kind name, need.IsWellNamed := by
  simp only [named, List.forall_mem_cons]
  exact ⟨trivial, h, fun _ hneed => absurd hneed List.not_mem_nil⟩

theorem isWellNamed_ofClass {name : String} (h : Name.isBinaryName name = true) :
    ∀ need ∈ ofClass name, need.IsWellNamed :=
  isWellNamed_named fun _ => InternalName.isWellFormed_ofDotted h

theorem isWellNamed_ofPackage {name : String} (h : Name.isBinaryName name = true) :
    ∀ need ∈ ofPackage name, need.IsWellNamed :=
  isWellNamed_named fun _ => InternalName.isWellFormed_ofDotted h

theorem isWellNamed_ofModule (name : String) : ∀ need ∈ ofModule name, need.IsWellNamed :=
  isWellNamed_named fun hkind => absurd rfl hkind

theorem isWellNamed_ofOptional (text : Option String) :
    ∀ need ∈ ofOptional text, need.IsWellNamed := by
  unfold ofOptional
  rw [List.forall_mem_map]
  exact fun _ _ => trivial

end Need

/-- A valid declaration names classes and packages by well-formed names. -/
theorem Declaration.IsValid.needs {declaration : Declaration} (h : declaration.IsValid) :
    ∀ need ∈ declaration.needs, need.IsWellNamed := by
  unfold Declaration.needs Requirement.needs Export.needs Provision.needs
  simp only [List.forall_mem_append, List.forall_mem_flatMap]
  refine ⟨Need.isWellNamed_ofModule _, Need.isWellNamed_ofOptional _, ?_, ?_, ?_, ?_⟩
  · exact fun item _ => ⟨Need.isWellNamed_ofModule _, Need.isWellNamed_ofOptional _⟩
  · intro item hitem
    exact ⟨Need.isWellNamed_ofPackage (h.exports item hitem).package,
      fun target _ => Need.isWellNamed_ofModule target⟩
  · exact fun name hname => Need.isWellNamed_ofClass (h.uses name hname)
  · intro item hitem
    have hvalid := h.provides item hitem
    exact ⟨Need.isWellNamed_ofClass hvalid.service,
      fun name hname => Need.isWellNamed_ofClass (hvalid.implementations name hname)⟩

theorem Part.IsValid.needs {part : Part} (h : part.IsValid) :
    ∀ need ∈ part.needs, need.IsWellNamed := by
  cases part with
  | declaration content => exact Declaration.IsValid.needs h
  | packages names =>
    change ∀ need ∈ names.flatMap Need.ofPackage, _
    rw [List.forall_mem_flatMap]
    exact fun name hname => Need.isWellNamed_ofPackage (h name hname)
  | hashes record =>
    change ∀ need ∈ Need.text _ :: _, _
    rw [List.forall_mem_cons, List.forall_mem_flatMap]
    exact ⟨trivial, fun hash _ => Need.isWellNamed_ofModule hash.target⟩
  | mainClass name => exact Need.isWellNamed_ofClass h
  | target platform =>
    change ∀ need ∈ [Need.text _], _
    rw [List.forall_mem_singleton]
    trivial

/-- The class and package names of a module record are well formed. -/
theorem Draft.needs_isWellNamed {draft : Draft} (h : ∀ part ∈ draft.parts, part.IsValid) :
    ∀ need ∈ draft.needs, need.IsWellNamed := by
  unfold Draft.needs
  rw [List.forall_mem_append, List.forall_mem_flatMap]
  refine ⟨Need.isWellNamed_ofClass (by decide), ?_⟩
  intro part hpart
  rw [List.forall_mem_append, List.forall_mem_singleton]
  exact ⟨(h part hpart).needs, trivial⟩

/-! ## Counting -/

/-- The texts, or the names of symbols of a kind, that a module record has to hold. -/
def Draft.names (draft : Draft) (expected : ClassFile.Expected) : List String :=
  (draft.needs.filter fun need => need.expected = expected).map Need.name

/-- A need of a given kind is known by its name. -/
theorem Draft.card_names (draft : Draft) (expected : ClassFile.Expected) :
    (draft.names expected).toFinset.card =
      (draft.needs.toFinset.filter fun need => need.expected = expected).card := by
  have himage : (draft.names expected).toFinset =
      (draft.needs.toFinset.filter fun need => need.expected = expected).image Need.name := by
    ext name
    simp [Draft.names]
  rw [himage, Finset.card_image_of_injOn]
  intro need hneed other hother hname
  have hsame := (Finset.mem_filter.1 hneed).2.trans (Finset.mem_filter.1 hother).2.symm
  cases need <;> cases other <;> cases hname <;> cases hsame <;> rfl

/-- There are as many needs as distinct names of each kind. -/
theorem Draft.card_needs (draft : Draft) :
    draft.needs.toFinset.card = (draft.names .utf8).toFinset.card +
      (draft.names (.symbol .classSymbol)).toFinset.card +
      (draft.names (.symbol .moduleSymbol)).toFinset.card +
      (draft.names (.symbol .packageSymbol)).toFinset.card := by
  have hkinds : ∀ need ∈ draft.needs.toFinset, need.expected ∈
      ({.utf8, .symbol .classSymbol, .symbol .moduleSymbol, .symbol .packageSymbol} :
        Finset ClassFile.Expected) := by
    intro need _
    cases need with
    | text content => exact Finset.mem_insert_self _ _
    | symbol kind name => cases kind <;> simp [Need.expected]
  rw [Finset.card_eq_sum_card_fiberwise hkinds]
  simp only [← Draft.card_names]
  rw [Finset.sum_insert (by decide), Finset.sum_insert (by decide), Finset.sum_insert (by decide),
    Finset.sum_singleton]
  omega

/-! ## Least pools -/

/-- The reference leads to an entry that is expected, and so does the name of a symbol. -/
def Reference.IsMet (pool : ConstantPool) (reference : Reference) : Prop :=
  match reference.expected with
  | .utf8 => ∃ text, pool.get? reference.slot = some (.utf8 text)
  | .symbol kind => ∃ nameSlot name, pool.get? reference.slot = some (.symbol kind nameSlot) ∧
      pool.get? nameSlot = some (.utf8 name)
  | .singleSlot => ∃ entry, pool.get? reference.slot = some entry ∧ entry.isWide = false

namespace ClassFile

/-- A slot is used if it is referred to, or holds the name of a used symbol. -/
inductive Uses (file : ClassFile) : UInt16 → Prop where
  | direct {reference : Reference} (h : reference ∈ file.references) : Uses file reference.slot
  | name {kind : SymbolKind} {slot nameSlot : UInt16} (h : Uses file slot)
      (hheld : file.pool.get? slot = some (.symbol kind nameSlot)) : Uses file nameSlot

/-- The pool of a class file is closed and holds nothing that is not used. -/
structure HasLeastPool (file : ClassFile) : Prop where
  size_le : file.pool.size ≤ ConstantPool.capacity
  /-- There are only texts, classes, modules and packages. -/
  interned : ∀ entry ∈ file.pool.toList,
    (∃ text, entry = .utf8 text) ∨ ∃ kind nameSlot, entry = .symbol kind nameSlot
  nodup : file.pool.toList.Nodup
  used : ∀ slot entry, file.pool.get? slot = some entry → file.Uses slot
  /-- All attributes are known, and their contents can be read. -/
  known : ∀ item ∈ file.attributes,
    ∃ content, ModuleAttribute.ofAttribute? file.pool item = some content
  met : ∀ reference ∈ file.references, reference.slot ≠ 0 → reference.IsMet file.pool
  /-- Symbols are named by texts, classes and packages by well-formed ones. -/
  named : ∀ slot kind nameSlot, file.pool.get? slot = some (.symbol kind nameSlot) →
    ∃ name, file.pool.get? nameSlot = some (.utf8 name) ∧
      (kind ≠ .moduleSymbol → InternalName.IsWellFormed name)

end ClassFile

/-- All that is needed has a slot that is used. -/
theorem Cites.exists_uses {file : ClassFile} {needs : List Need}
    (h : Cites file.pool needs file.references) {need : Need} (hneed : need ∈ needs) :
    ∃ slot, PlacedAt file.pool need slot ∧ file.Uses slot := by
  rcases h.complete need hneed with ⟨reference, hmem, hplaced⟩ | ⟨kind, name, rfl, hsymbol⟩
  · exact ⟨_, hplaced, .direct hmem⟩
  · obtain ⟨reference, hmem, hplaced⟩ := h.exists_symbol hsymbol
    cases hplaced with
    | symbol hname hlowest => exact ⟨_, .text hname, .name (.direct hmem) hlowest.1⟩

theorem Cites.isMet {pool : ConstantPool} {needs : List Need} {references : List Reference}
    (h : Cites pool needs references) {reference : Reference} (hmem : reference ∈ references)
    (hslot : reference.slot ≠ 0) : reference.IsMet pool := by
  obtain ⟨need, -, hexpected, hplaced⟩ := h.sound reference hmem hslot
  unfold Reference.IsMet
  rw [← hexpected]
  cases hplaced with
  | text hlowest => exact ⟨_, hlowest.1⟩
  | symbol hname hlowest => exact ⟨_, _, hlowest.1, hname.1⟩

namespace Descriptor

/-- The pool of a class file that is written for a descriptor is the least one, and its slots are as
many as the distinct texts and the distinct names of classes, modules and packages. -/
theorem hasLeastPool_of_toClassFile {descriptor : Descriptor} (h : descriptor.Producible)
    {file : ClassFile} (hfile : descriptor.toClassFile = .ok file) :
    file.HasLeastPool ∧ file.pool.size = (descriptor.names .utf8).toFinset.card +
      (descriptor.names (.symbol .classSymbol)).toFinset.card +
      (descriptor.names (.symbol .moduleSymbol)).toFinset.card +
      (descriptor.names (.symbol .packageSymbol)).toFinset.card := by
  obtain ⟨thisClass, attributes, pool, hrun, rfl⟩ := toClassFile_eq_ok_iff.1 hfile
  have hholds : pool.Holds descriptor.needs.toFinset := by
    rcases toClassFile_cases h.parts with ⟨_, _, _, hsame, -, hholds, -⟩ | ⟨⟨fault, hfault⟩, -⟩
    · rw [hfile, Except.ok.injEq] at hsame
      cases hsame
      exact hholds
    · rw [hfile] at hfault
      cases hfault
  obtain ⟨⟨-, keys, hkeys⟩, hgood⟩ :=
    descriptor.lays_references.of_ok ConstantPool.isIndexed_empty hrun
  obtain ⟨hknown, hcites⟩ := hgood pool (.refl pool)
  have hinterned (entry : ConstantPool.Entry) (hentry : entry ∈ pool.toList) :
      ∃ key : Key, key.entry = entry := by
    rw [hkeys] at hentry
    obtain ⟨key, -, hkey⟩ := List.mem_map.1 hentry
    exact ⟨key, hkey⟩
  refine ⟨⟨hholds.size_le, ?_, hholds.nodup, ?_, hknown, fun _ => hcites.isMet, ?_⟩, ?_⟩
  · intro entry hentry
    obtain ⟨key, rfl⟩ := hinterned entry hentry
    cases key with
    | utf8 text => exact Or.inl ⟨text, rfl⟩
    | symbol kind nameSlot => exact Or.inr ⟨kind, nameSlot, rfl⟩
  · intro slot entry hheld
    have hmem := List.mem_of_getElem? (ConstantPool.get?_eq_some_iff.1 hheld).2
    obtain ⟨key, rfl⟩ := hinterned entry hmem
    obtain ⟨need, hneed, hkey⟩ := hholds.exists_need hheld
    obtain ⟨other, hplaced, huses⟩ := @Cites.exists_uses (.moduleRecord pool thisClass attributes)
      _ hcites _ (List.mem_toFinset.1 hneed)
    rw [← hholds.eq_of_placedAt hkey hheld hplaced]
    exact huses
  · intro slot kind nameSlot hheld
    have hkeyed : pool.get? slot = some (Key.symbol kind nameSlot).entry := hheld
    obtain ⟨need, hneed, hkey⟩ := hholds.exists_need hkeyed
    cases hkey with
    | symbol _ hname =>
      exact ⟨_, hname, Draft.needs_isWellNamed h.parts _ (List.mem_toFinset.1 hneed)⟩
  · exact hholds.size_eq.trans descriptor.card_needs

theorem baseModule_hasLeastPool : baseModule.Producible ∧
    ∃ file, baseModule.toClassFile = .ok file ∧ file.HasLeastPool ∧ file.pool.size = 20 := by
  have hfits : baseModule.FitsFormat := by decide
  obtain ⟨bytes, hbytes⟩ := (exists_encode_iff producible_baseModule.parts (by decide)).2 hfits
  obtain ⟨file, hfile, -⟩ := Fallible.bind_eq_ok_iff.1 hbytes
  obtain ⟨hleast, hsize⟩ := hasLeastPool_of_toClassFile producible_baseModule hfile
  exact ⟨producible_baseModule, file, hfile, hleast, hsize.trans (by decide)⟩

end Descriptor
end ModuleRecord
