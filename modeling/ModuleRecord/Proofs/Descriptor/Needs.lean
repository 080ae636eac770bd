import Mathlib.Tactic.MkIffOfInductiveProp
import ModuleRecord.Proofs.ClassFile.ConstantPool.Needs
import ModuleRecord.Proofs.ClassFile.ModuleAttribute
import ModuleRecord.Proofs.Descriptor.Record

/-!
# What descriptors need

Which texts and symbols the parts of a descriptor need in a pool, what has to hold of a part so that
it can be laid out and its attribute be written, and how long the body of the attribute is then
(`Part.demands_attribute`). For whole descriptors this says when there is a class file
(`Descriptor.toClassFile_cases`).
-/

namespace ModuleRecord

open ConstantPool (Need Demands)
open Written (Sized)

/-! ## Needs -/

namespace Need

/-- A symbol and its name. -/
def named (kind : SymbolKind) (name : String) : List Need :=
  [.text name, .symbol kind name]

/-- The needs of a class that is given by its dotted name. -/
def ofClass (name : String) : List Need :=
  named .classSymbol (InternalName.ofDotted name)

/-- The needs of a module. -/
def ofModule (name : String) : List Need :=
  named .moduleSymbol name

/-- The needs of a package that is given by its dotted name. -/
def ofPackage (name : String) : List Need :=
  named .packageSymbol (InternalName.ofDotted name)

/-- The needs of a text that may be absent. -/
def ofOptional (text : Option String) : List Need :=
  text.toList.map .text

end Need

/-- A required module and its version. -/
def Requirement.needs (item : Requirement) : List Need :=
  Need.ofModule item.target ++ Need.ofOptional item.version

/-- An exported package and the modules that it is for. -/
def Export.needs (item : Export) : List Need :=
  Need.ofPackage item.package ++ item.targets.flatMap Need.ofModule

/-- A service and its implementations. -/
def Provision.needs (item : Provision) : List Need :=
  Need.ofClass item.service ++ item.implementations.flatMap Need.ofClass

/-- All that the declaration of a module names. -/
def Declaration.needs (declaration : Declaration) : List Need :=
  Need.ofModule declaration.name ++ (Need.ofOptional declaration.version ++
    (declaration.requires.flatMap Requirement.needs ++
      (declaration.exports.flatMap Export.needs ++
        (declaration.uses.flatMap Need.ofClass ++
          declaration.provides.flatMap Provision.needs))))

/-- An algorithm and the modules whose digests it computed. -/
def HashRecord.needs (record : HashRecord) : List Need :=
  .text record.algorithm :: record.hashes.flatMap fun hash => Need.ofModule hash.target

/-- All that a part names. -/
def Part.needs : Part → List Need
  | declaration content => content.needs
  | packages names => names.flatMap Need.ofPackage
  | hashes record => record.needs
  | mainClass name => Need.ofClass name
  | target platform => [.text platform]

/-- All that a module record names: its own class, and for each part what it names and the name of
its attribute. -/
def Draft.needs (draft : Draft) : List Need :=
  Need.ofClass Descriptor.recordClass ++
    draft.parts.flatMap fun part => part.needs ++ [.text part.kind.name]

/-! ## Limits of tables -/

/-- No service is provided without an implementation. -/
def Declaration.IsImplemented (declaration : Declaration) : Prop :=
  ∀ item ∈ declaration.provides, item.implementations ≠ []

instance (declaration : Declaration) : Decidable declaration.IsImplemented :=
  inferInstanceAs (Decidable (∀ item ∈ declaration.provides, item.implementations ≠ []))

/-- The tables of a declaration can be counted. -/
@[mk_iff]
structure Declaration.FitsTables (declaration : Declaration) : Prop where
  requires : declaration.requires.length ≤ 65535
  exports : declaration.exports.length ≤ 65535
  targets : ∀ item ∈ declaration.exports, item.targets.length ≤ 65535
  uses : declaration.uses.length ≤ 65535
  provides : declaration.provides.length ≤ 65535
  implementations : ∀ item ∈ declaration.provides, item.implementations.length ≤ 65535

instance (declaration : Declaration) : Decidable declaration.FitsTables :=
  decidable_of_iff' _ declaration.fitsTables_iff

/-- How many bytes a digest has, at two digits each. -/
def ModuleHash.digestSize (hash : ModuleHash) : Nat :=
  hash.digest.length / 2

/-- The digests of a record can be counted, and so can the bytes of each of them. -/
@[mk_iff]
structure HashRecord.FitsTables (record : HashRecord) : Prop where
  hashes : record.hashes.length ≤ 65535
  digests : ∀ hash ∈ record.hashes, hash.digestSize ≤ 65535

instance (record : HashRecord) : Decidable record.FitsTables :=
  decidable_of_iff' _ record.fitsTables_iff

/-- No service of a part is without an implementation. -/
def Part.IsImplemented : Part → Prop
  | declaration content => content.IsImplemented
  | _ => True

/-- The tables and digests of a part can be counted. -/
def Part.FitsTables : Part → Prop
  | declaration content => content.FitsTables
  | packages names => names.length ≤ 65535
  | hashes record => record.FitsTables
  | mainClass _ => True
  | target _ => True

/-! ## Sizes of bodies -/

/-- How many bytes the body of a declaration has: three words, five tables with their counts. -/
def Declaration.bodySize (declaration : Declaration) : Nat :=
  6 + (2 + 6 * declaration.requires.length) +
    (2 + (declaration.exports.map fun item => 6 + 2 * item.targets.length).sum) + 2 +
    (2 + 2 * declaration.uses.length) +
    (2 + (declaration.provides.map fun item => 4 + 2 * item.implementations.length).sum)

/-- How many bytes the body of a digest attribute has. -/
def HashRecord.bodySize (record : HashRecord) : Nat :=
  2 + (2 + (record.hashes.map fun hash => 4 + hash.digestSize).sum)

/-- How many bytes the body of the attribute of a part has. -/
def Part.bodySize : Part → Nat
  | declaration content => content.bodySize
  | packages names => 2 + 2 * names.length
  | hashes record => record.bodySize
  | mainClass _ => 2
  | target _ => 2

/-! ## Names -/

namespace Layout

theorem demands_internModule (name : String) :
    Demands (internModule name) (Need.ofModule name) True fun _ => True :=
  (ConstantPool.demands_internSymbol _ _).adaptExcept

theorem demands_internClass (name : String) :
    Demands (internClass name) (Need.ofClass name) True fun _ => True :=
  (ConstantPool.demands_internSymbol _ _).adaptExcept

theorem demands_internPackage (name : String) :
    Demands (internPackage name) (Need.ofPackage name) True fun _ => True :=
  (ConstantPool.demands_internSymbol _ _).adaptExcept

theorem demands_internUtf8 (text : String) :
    Demands (internUtf8 text) [.text text] True fun _ => True :=
  (ConstantPool.demands_internUtf8 text).adaptExcept

theorem demands_internOptional (text : Option String) :
    Demands (internOptional text) (Need.ofOptional text) True fun _ => True := by
  cases text with
  | none => exact .pure trivial
  | some text => exact demands_internUtf8 text

/-- A row of names is laid out as a row of as many slots. -/
theorem demands_mapM {layout : String → Layout UInt16} {needs : String → List Need}
    (h : ∀ name, Demands (layout name) (needs name) True fun _ => True) (names : List String) :
    Demands (names.mapM layout) (names.flatMap needs) True
      fun slots => slots.length = names.length := by
  have hall : ∀ name ∈ names, Demands (layout name) (needs name) True fun _ => True :=
    fun name _ => h name
  have hrow := (Demands.mapM hall).imp fun slots hslots => hslots.length_eq.symm
  exact hrow.congr rfl (iff_of_true (fun _ _ => trivial) trivial)

/-- What is written is possible as far as the writing is, and is of the size that it has then. -/
theorem demands_ofWritten {written : Written} {possible : Prop} {size : Nat}
    (h : Sized written possible size) :
    Demands (ofWritten written) [] possible fun bytes => bytes.length = size := by
  cases written with
  | ok bytes =>
    have hpure : Demands (ofWritten (.ok bytes)) [] True fun found => found.length = size :=
      .pure (h.length_eq bytes rfl)
    exact hpure.congr rfl (iff_of_true trivial (h.exists_iff.1 ⟨bytes, rfl⟩))
  | error fault =>
    refine .throw _ ?_
    intro hpossible
    obtain ⟨bytes, hbytes⟩ := h.exists_iff.2 hpossible
    cases hbytes

end Layout

open Layout

/-! ## Rows -/

theorem Requirement.demands_layout (item : Requirement) :
    Demands item.layout item.needs True fun row => Sized row.write True 6 := by
  unfold Requirement.layout
  refine Demands.congr (Demands.bind (demands_internModule item.target) fun target _ =>
    Demands.bind (demands_internOptional item.version) fun version _ => Demands.pure ?_) ?_ ?_
  · exact RequiresRow.sized_write _
  · rw [List.append_nil]
    rfl
  · simp

theorem Export.demands_layout (item : Export) :
    Demands item.layout item.needs True
      fun row => Sized row.write (item.targets.length ≤ 65535) (6 + 2 * item.targets.length) := by
  unfold Export.layout
  refine Demands.congr (Demands.bind (demands_internPackage item.package) fun package _ =>
    Demands.bind (demands_mapM demands_internModule item.targets) fun targets htargets =>
      Demands.pure ?_) ?_ ?_
  · rw [← htargets]
    exact ExportsRow.sized_write _
  · rw [List.append_nil]
    rfl
  · simp

theorem Provision.demands_layout (item : Provision) :
    Demands item.layout item.needs (item.implementations ≠ [])
      fun row => Sized row.write (item.implementations.length ≤ 65535)
        (4 + 2 * item.implementations.length) := by
  unfold Provision.layout
  by_cases hempty : item.implementations = []
  · rw [if_pos (by rw [hempty]; rfl)]
    exact .throw_bind _ _ fun hne => hne hempty
  · rw [if_neg (by rw [List.isEmpty_iff]; exact hempty)]
    refine Demands.congr (Demands.bind (demands_internClass item.service) fun service _ =>
      Demands.bind (demands_mapM demands_internClass item.implementations)
        fun implementations himplementations => Demands.pure ?_) ?_ ?_
    · rw [← himplementations]
      exact ProvidesRow.sized_write _
    · rw [List.append_nil]
      rfl
    · simp [hempty]

theorem ModuleHash.demands_layout {hash : ModuleHash} (h : hash.IsValid) :
    Demands hash.layout (Need.ofModule hash.target) True
      fun row => Sized row.write (hash.digestSize ≤ 65535) (4 + hash.digestSize) := by
  obtain ⟨digest, hdigest⟩ := h.digest
  have hsize : digest.length = hash.digestSize := Hex.length_of_decode? hdigest
  unfold ModuleHash.layout
  rw [hdigest]
  refine Demands.congr (Demands.bind (demands_internModule hash.target) fun target _ =>
    Demands.pure ?_) ?_ ?_
  · rw [← hsize]
    exact HashRow.sized_write _
  · rw [List.append_nil]
  · simp

/-! ## Tables -/

theorem Declaration.demands_layout (declaration : Declaration) :
    Demands declaration.layout declaration.needs declaration.IsImplemented
      fun table => Sized table.write declaration.FitsTables declaration.bodySize := by
  unfold Declaration.layout
  refine Demands.congr (Demands.bind (demands_internModule declaration.name) fun name _ =>
    Demands.bind (demands_internOptional declaration.version) fun version _ =>
      Demands.bind (Demands.mapM fun item _ => Requirement.demands_layout item)
        fun requires hrequires =>
          Demands.bind (Demands.mapM fun item _ => Export.demands_layout item)
            fun exports hexports =>
              Demands.bind (demands_mapM demands_internClass declaration.uses) fun uses huses =>
                Demands.bind (Demands.mapM fun item _ => Provision.demands_layout item)
                  fun provides hprovides => Demands.pure ?_) ?_ ?_
  · have hopens : Sized (Written.table ExportsRow.write []) True 2 := by
      have hempty := @Written.sized_table _ Export ExportsRow.write (fun _ => True) (fun _ => 0) _ _
        .nil
      exact hempty.congr (by simp) rfl
    refine (DeclarationTable.sized_write (Written.sized_table hrequires)
      (Written.sized_table hexports) hopens (Written.sized_words uses)
      (Written.sized_table hprovides)).congr ?_ ?_
    · rw [huses]
      constructor
      · rintro ⟨⟨hrequires, -⟩, ⟨hexports, htargets⟩, -, huses, hprovides, himplementations⟩
        exact ⟨hrequires, hexports, htargets, huses, hprovides, himplementations⟩
      · rintro ⟨hrequires, hexports, htargets, huses, hprovides, himplementations⟩
        exact ⟨⟨hrequires, fun _ _ => trivial⟩, ⟨hexports, htargets⟩, trivial, huses, hprovides,
          himplementations⟩
    · unfold Declaration.bodySize
      rw [huses, List.map_const', List.sum_replicate_nat, Nat.mul_comm 6]
  · rw [List.append_nil]
    rfl
  · simp [Declaration.IsImplemented]

theorem HashRecord.demands_layout {record : HashRecord} (h : record.IsValid) :
    Demands record.layout record.needs True
      fun table => Sized table.write record.FitsTables record.bodySize := by
  unfold HashRecord.layout
  refine Demands.congr (Demands.bind (demands_internUtf8 record.algorithm) fun algorithm _ =>
    Demands.bind (Demands.mapM fun hash hhash => ModuleHash.demands_layout (h.hashes hash hhash))
      fun hashes hhashes => Demands.pure ?_) ?_ ?_
  · refine (HashTable.sized_write (Written.sized_table hhashes)).congr ?_ rfl
    exact ⟨fun hboth => ⟨hboth.1, hboth.2⟩, fun hfits => ⟨hfits.hashes, hfits.digests⟩⟩
  · rw [List.append_nil]
    rfl
  · simp

/-! ## Parts -/

theorem Part.demands_layout {part : Part} (h : part.IsValid) :
    Demands part.layout part.needs part.IsImplemented
      fun content => Sized content.write part.FitsTables part.bodySize := by
  cases part with
  | declaration declaration =>
    exact (Declaration.demands_layout declaration).map fun _ htable => htable
  | packages names =>
    refine (demands_mapM demands_internPackage names).map ?_
    intro slots hslots
    change Sized (Written.words slots) (names.length ≤ 65535) (2 + 2 * names.length)
    rw [← hslots]
    exact Written.sized_words slots
  | hashes record => exact (HashRecord.demands_layout h.1).map fun _ htable => htable
  | mainClass name =>
    exact (demands_internClass name).map fun slot _ => .pure (Bytes.length_ofUInt16 slot)
  | target platform =>
    exact (demands_internUtf8 platform).map fun slot _ => .pure (Bytes.length_ofUInt16 slot)

/-- The attribute of a part needs what the part names, and the name of the attribute. -/
theorem Part.demands_attribute {part : Part} (h : part.IsValid) :
    Demands part.attribute (part.needs ++ [.text part.kind.name])
      (part.IsImplemented ∧ part.FitsTables) fun item => item.body.length = part.bodySize := by
  unfold Part.attribute
  refine Demands.congr (Demands.bind (Part.demands_layout h) fun content hcontent =>
    Demands.bind (demands_ofWritten hcontent) fun body hbody =>
      Demands.bind (demands_internUtf8 part.kind.name) fun name _ => Demands.pure hbody) ?_ ?_
  · rw [List.append_nil, List.nil_append]
  · simp

/-! ## Whole descriptors -/

namespace Descriptor

/-- A module record needs what its parts need, and has one attribute for each of them. -/
theorem demands_layout {descriptor : Descriptor} (h : ∀ part ∈ descriptor.parts, part.IsValid) :
    Demands descriptor.layout descriptor.needs
      (∀ part ∈ descriptor.parts, part.IsImplemented ∧ part.FitsTables)
      fun result => List.Forall₂ (fun part item => item.body.length = part.bodySize)
        descriptor.parts result.2 := by
  unfold Descriptor.layout
  refine Demands.congr (Demands.bind (demands_internClass recordClass) fun thisClass _ =>
    Demands.bind (Demands.mapM fun part hpart => Part.demands_attribute (h part hpart))
      fun attributes hattributes => Demands.pure hattributes) ?_ ?_
  · rw [List.append_nil]
    rfl
  · simp

/-- There is a class file, with exactly the pool that is needed, or else a limit is exceeded. -/
theorem toClassFile_cases {descriptor : Descriptor}
    (h : ∀ part ∈ descriptor.parts, part.IsValid) :
    (∃ thisClass attributes pool,
        descriptor.toClassFile = .ok (.moduleRecord pool thisClass attributes) ∧
        (∀ part ∈ descriptor.parts, part.IsImplemented ∧ part.FitsTables) ∧
        pool.Holds descriptor.needs.toFinset ∧
        List.Forall₂ (fun part item => item.body.length = part.bodySize) descriptor.parts
          attributes) ∨
      (∃ fault, descriptor.toClassFile = .error fault) ∧
        ¬ ((∀ part ∈ descriptor.parts, part.IsImplemented ∧ part.FitsTables) ∧
          descriptor.needs.toFinset.card ≤ ConstantPool.capacity) := by
  have hcase := demands_layout h .empty ∅ ConstantPool.holds_empty
  rw [Finset.empty_union] at hcase
  unfold toClassFile
  cases hrun : descriptor.layout .empty with
  | ok result pool =>
    obtain ⟨thisClass, attributes⟩ := result
    rw [hrun] at hcase
    exact Or.inl ⟨thisClass, attributes, pool, rfl, hcase⟩
  | error fault pool =>
    rw [hrun] at hcase
    exact Or.inr ⟨⟨fault, rfl⟩, hcase⟩

end Descriptor
end ModuleRecord
