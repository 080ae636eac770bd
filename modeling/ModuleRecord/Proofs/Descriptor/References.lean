import ModuleRecord.Proofs.ClassFile.ConstantPool.Runs
import ModuleRecord.Proofs.Descriptor.Needs

/-!
# What attributes refer to

The content of an attribute refers to slots of a pool, and expects a text or a symbol of some kind
in each. What is laid out for a part refers to just what the part needs (`Part.lays_references`): no
reference leads elsewhere, and a text that is needed is referred to or is the name of a symbol that
is.
-/

namespace ModuleRecord

open ConstantPool (Lays Need PlacedAt)

/-! ## References -/

/-- A slot that is referred to, and what is expected there. Slot zero refers to nothing. -/
structure Reference where
  expected : ClassFile.Expected
  slot : UInt16

/-- A required module and its version. -/
def RequiresRow.references (row : RequiresRow) : List Reference :=
  [⟨.symbol .moduleSymbol, row.target⟩, ⟨.utf8, row.version⟩]

/-- A package and the modules that it is for. -/
def ExportsRow.references (row : ExportsRow) : List Reference :=
  ⟨.symbol .packageSymbol, row.package⟩ :: row.targets.map (.mk (.symbol .moduleSymbol))

/-- A service and its implementations. -/
def ProvidesRow.references (row : ProvidesRow) : List Reference :=
  ⟨.symbol .classSymbol, row.service⟩ :: row.implementations.map (.mk (.symbol .classSymbol))

/-- All that a declaration refers to, in the order in which it is written. -/
def DeclarationTable.references (table : DeclarationTable) : List Reference :=
  ⟨.symbol .moduleSymbol, table.name⟩ :: ⟨.utf8, table.version⟩ ::
    (table.requires.flatMap RequiresRow.references ++
      (table.exports.flatMap ExportsRow.references ++
        (table.opens.flatMap ExportsRow.references ++
          (table.uses.map (.mk (.symbol .classSymbol)) ++
            table.provides.flatMap ProvidesRow.references))))

/-- An algorithm and the modules whose digests it computed. -/
def HashTable.references (table : HashTable) : List Reference :=
  ⟨.utf8, table.algorithm⟩ :: table.hashes.map fun row => ⟨.symbol .moduleSymbol, row.target⟩

/-- All that the content of an attribute refers to. -/
def ModuleAttribute.references : ModuleAttribute → List Reference
  | declaration table => table.references
  | packages slots => slots.map (.mk (.symbol .packageSymbol))
  | hashes table => table.references
  | mainClass slot => [⟨.symbol .classSymbol, slot⟩]
  | target slot => [⟨.utf8, slot⟩]

/-- The content of an attribute whose name is known, if its body can be read. -/
def ModuleAttribute.ofAttribute? (pool : ConstantPool) (item : Attribute) :
    Option ModuleAttribute := do
  let name ← (pool.utf8 item.name).toOption
  let kind ← AttributeKind.ofName? name
  ((ModuleAttribute.read kind).run item.body).toOption

/-- All that an attribute refers to: what its content refers to, and its name. -/
def Attribute.references (pool : ConstantPool) (item : Attribute) : List Reference :=
  (ModuleAttribute.ofAttribute? pool item).toList.flatMap ModuleAttribute.references ++
    [⟨.utf8, item.name⟩]

/-- The name and type of a member, and the names of its attributes. -/
def Member.references (member : Member) : List Reference :=
  ⟨.utf8, member.name⟩ :: ⟨.utf8, member.descriptor⟩ ::
    member.attributes.map fun item => ⟨.utf8, item.name⟩

/-- All that a class file refers to from outside its pool. -/
def ClassFile.references (file : ClassFile) : List Reference :=
  ⟨.symbol .classSymbol, file.thisClass⟩ :: ⟨.symbol .classSymbol, file.superClass⟩ ::
    (file.interfaces.map (.mk (.symbol .classSymbol)) ++
      (file.fields ++ file.methods).flatMap Member.references ++
        file.attributes.flatMap (Attribute.references file.pool))

/-! ## Citing needs -/

/-- What has to be expected where something is needed. -/
def ConstantPool.Need.expected : Need → ClassFile.Expected
  | text _ => .utf8
  | symbol kind _ => .symbol kind

/-- The references lead to what is needed, and to nothing else. -/
structure Cites (pool : ConstantPool) (needs : List Need) (references : List Reference) : Prop where
  /-- A reference leads to a need of the kind that is expected. -/
  sound : ∀ reference ∈ references, reference.slot ≠ 0 →
    ∃ need ∈ needs, need.expected = reference.expected ∧ PlacedAt pool need reference.slot
  /-- A need is referred to, or is the name of another. -/
  complete : ∀ need ∈ needs, (∃ reference ∈ references, PlacedAt pool need reference.slot) ∨
    ∃ kind name, need = .text name ∧ .symbol kind name ∈ needs

namespace Cites

variable {pool : ConstantPool} {needs needs' : List Need} {references references' : List Reference}

theorem nil (pool : ConstantPool) : Cites pool [] [] :=
  ⟨fun _ h => absurd h List.not_mem_nil, fun _ h => absurd h List.not_mem_nil⟩

theorem append (h : Cites pool needs references) (h' : Cites pool needs' references') :
    Cites pool (needs ++ needs') (references ++ references') := by
  refine ⟨?_, ?_⟩
  · intro reference hreference hslot
    rcases List.mem_append.1 hreference with hreference | hreference
    · obtain ⟨need, hneed, hplaced⟩ := h.sound reference hreference hslot
      exact ⟨need, List.mem_append_left _ hneed, hplaced⟩
    · obtain ⟨need, hneed, hplaced⟩ := h'.sound reference hreference hslot
      exact ⟨need, List.mem_append_right _ hneed, hplaced⟩
  · intro need hneed
    rcases List.mem_append.1 hneed with hneed | hneed
    · rcases h.complete need hneed with ⟨reference, hreference, hplaced⟩ | ⟨kind, name, heq, hmem⟩
      · exact Or.inl ⟨reference, List.mem_append_left _ hreference, hplaced⟩
      · exact Or.inr ⟨kind, name, heq, List.mem_append_left _ hmem⟩
    · rcases h'.complete need hneed with ⟨reference, hreference, hplaced⟩ | ⟨kind, name, heq, hmem⟩
      · exact Or.inl ⟨reference, List.mem_append_right _ hreference, hplaced⟩
      · exact Or.inr ⟨kind, name, heq, List.mem_append_right _ hmem⟩

theorem flatMap {α β : Type} {needs : α → List Need} {references : β → List Reference}
    {items : List α} {values : List β}
    (h : List.Forall₂ (fun item value => Cites pool (needs item) (references value)) items values) :
    Cites pool (items.flatMap needs) (values.flatMap references) := by
  induction h with
  | nil => exact nil pool
  | cons hitem _ ih => exact hitem.append ih

theorem text {name : String} {slot : UInt16} (h : PlacedAt pool (.text name) slot) :
    Cites pool [.text name] [⟨.utf8, slot⟩] := by
  refine ⟨?_, ?_⟩
  · simp only [List.forall_mem_singleton]
    exact fun _ => ⟨_, List.mem_singleton_self _, rfl, h⟩
  · simp only [List.forall_mem_singleton]
    exact Or.inl ⟨_, List.mem_singleton_self _, h⟩

/-- A reference to nothing cites nothing. -/
theorem absent (pool : ConstantPool) (expected : ClassFile.Expected) :
    Cites pool [] [⟨expected, 0⟩] := by
  refine ⟨?_, fun _ h => absurd h List.not_mem_nil⟩
  simp only [List.forall_mem_singleton]
  exact fun hslot => absurd rfl hslot

/-- A symbol brings its name along. -/
theorem symbol {kind : SymbolKind} {name : String} {slot : UInt16}
    (h : PlacedAt pool (.symbol kind name) slot) :
    Cites pool (Need.named kind name) [⟨.symbol kind, slot⟩] := by
  have hmem : Need.symbol kind name ∈ Need.named kind name := by simp [Need.named]
  refine ⟨?_, ?_⟩
  · simp only [List.forall_mem_singleton]
    exact fun _ => ⟨_, hmem, rfl, h⟩
  · intro need hneed
    simp only [Need.named, List.mem_cons, List.not_mem_nil, or_false] at hneed
    rcases hneed with rfl | rfl
    · exact Or.inr ⟨kind, name, rfl, hmem⟩
    · exact Or.inl ⟨_, List.mem_singleton_self _, h⟩

/-- A symbol that is needed is referred to. -/
theorem exists_symbol (h : Cites pool needs references) {kind : SymbolKind} {name : String}
    (hneed : .symbol kind name ∈ needs) :
    ∃ reference ∈ references, PlacedAt pool (.symbol kind name) reference.slot := by
  rcases h.complete _ hneed with hplaced | ⟨kind, name, heq, -⟩
  · exact hplaced
  · cases heq

end Cites

/-! ## Names -/

namespace Layout

theorem cites_internSymbol (kind : SymbolKind) (name : String) :
    Lays (intern (ConstantPool.internSymbol kind name)) fun final slot =>
      Cites final (Need.named kind name) [⟨.symbol kind, slot⟩] :=
  (ConstantPool.Need.lays_intern (.symbol kind name)).adaptExcept.imp fun _ _ => .symbol

theorem cites_internUtf8 (text : String) :
    Lays (internUtf8 text) fun final slot => Cites final [.text text] [⟨.utf8, slot⟩] :=
  (ConstantPool.Need.lays_intern (.text text)).adaptExcept.imp fun _ _ => .text

theorem cites_internOptional (text : Option String) :
    Lays (internOptional text) fun final slot =>
      Cites final (Need.ofOptional text) [⟨.utf8, slot⟩] := by
  cases text with
  | none => exact .pure fun final => .absent final .utf8
  | some text => exact cites_internUtf8 text

/-- A row of items cites what each item needs. -/
theorem cites_mapM {α β : Type} {layout : α → Layout β} {needs : α → List Need}
    {references : β → List Reference}
    (h : ∀ item, Lays (layout item) fun final value => Cites final (needs item) (references value))
    (items : List α) :
    Lays (items.mapM layout) fun final values =>
      Cites final (items.flatMap needs) (values.flatMap references) :=
  (Lays.mapM fun item _ => h item).imp fun _ _ => .flatMap

/-- A row of symbols is referred to slot by slot. -/
theorem cites_mapM_internSymbol (kind : SymbolKind) (internal : String → String)
    (names : List String) :
    Lays (names.mapM fun name => intern (ConstantPool.internSymbol kind (internal name)))
      fun final slots => Cites final (names.flatMap fun name => Need.named kind (internal name))
        (slots.map (.mk (.symbol kind))) := by
  simp only [List.map_eq_flatMap]
  exact cites_mapM (fun name => cites_internSymbol kind (internal name)) names

end Layout

open Layout

/-! ## Rows -/

theorem Requirement.lays_references (item : Requirement) :
    Lays item.layout fun final row => Cites final item.needs row.references := by
  unfold Requirement.layout
  refine (cites_internSymbol .moduleSymbol item.target).bind fun target =>
    (cites_internOptional item.version).bind fun version => .pure ?_
  intro final hversion htarget
  exact htarget.append hversion

theorem Export.lays_references (item : Export) :
    Lays item.layout fun final row => Cites final item.needs row.references := by
  unfold Export.layout
  refine (cites_internSymbol .packageSymbol (InternalName.ofDotted item.package)).bind
    fun package => (cites_mapM_internSymbol .moduleSymbol id item.targets).bind
      fun targets => .pure ?_
  intro final htargets hpackage
  exact hpackage.append htargets

theorem Provision.lays_references (item : Provision) :
    Lays item.layout fun final row => Cites final item.needs row.references := by
  unfold Provision.layout
  by_cases hempty : item.implementations.isEmpty = true
  · rw [if_pos hempty]
    exact .throw_bind _ _
  · rw [if_neg hempty]
    refine (cites_internSymbol .classSymbol (InternalName.ofDotted item.service)).bind
      fun service => (cites_mapM_internSymbol .classSymbol InternalName.ofDotted
        item.implementations).bind fun implementations => .pure ?_
    intro final himplementations hservice
    exact hservice.append himplementations

theorem ModuleHash.lays_references (hash : ModuleHash) :
    Lays hash.layout fun final row =>
      Cites final (Need.ofModule hash.target) [⟨.symbol .moduleSymbol, row.target⟩] := by
  unfold ModuleHash.layout
  cases Hex.decode? hash.digest with
  | none => exact .throw _
  | some digest =>
    exact (cites_internSymbol .moduleSymbol hash.target).bind fun target => .pure fun _ => id

/-! ## Tables -/

theorem Declaration.lays_references (declaration : Declaration) :
    Lays declaration.layout fun final table => Cites final declaration.needs table.references := by
  unfold Declaration.layout
  refine (cites_internSymbol .moduleSymbol declaration.name).bind fun name =>
    (cites_internOptional declaration.version).bind fun version => ?_
  refine (cites_mapM Requirement.lays_references declaration.requires).bind fun requires => ?_
  refine (cites_mapM Export.lays_references declaration.exports).bind fun exports => ?_
  refine (cites_mapM_internSymbol .classSymbol InternalName.ofDotted declaration.uses).bind
    fun uses => ?_
  refine (cites_mapM Provision.lays_references declaration.provides).bind fun provides => .pure ?_
  intro final hprovides huses hexports hrequires hversion hname
  exact hname.append (hversion.append (hrequires.append (hexports.append (huses.append hprovides))))

theorem HashRecord.lays_references (record : HashRecord) :
    Lays record.layout fun final table => Cites final record.needs table.references := by
  unfold HashRecord.layout
  refine (cites_internUtf8 record.algorithm).bind fun algorithm =>
    (cites_mapM ModuleHash.lays_references record.hashes).bind fun hashes => .pure ?_
  intro final hhashes halgorithm
  rw [← List.map_eq_flatMap] at hhashes
  exact halgorithm.append hhashes

/-! ## Parts -/

/-- What is laid out for a part is of its kind, and refers to just what the part needs. -/
theorem Part.lays_references (part : Part) :
    Lays part.layout fun final content =>
      content.kind = part.kind ∧ Cites final part.needs content.references := by
  cases part with
  | declaration declaration =>
    exact (Declaration.lays_references declaration).map fun _ _ hcites => ⟨rfl, hcites⟩
  | packages names =>
    exact (cites_mapM_internSymbol .packageSymbol InternalName.ofDotted names).map
      fun _ _ hcites => ⟨rfl, hcites⟩
  | hashes record => exact (HashRecord.lays_references record).map fun _ _ hcites => ⟨rfl, hcites⟩
  | mainClass name =>
    exact (cites_internSymbol .classSymbol (InternalName.ofDotted name)).map
      fun _ _ hcites => ⟨rfl, hcites⟩
  | target platform => exact (cites_internUtf8 platform).map fun _ _ hcites => ⟨rfl, hcites⟩

/-- The attribute of a part can be read, and refers to what the part needs and to its own name. -/
theorem Part.lays_attribute_references (part : Part) :
    Lays part.attribute fun final item =>
      (∃ content, ModuleAttribute.ofAttribute? final item = some content) ∧
        Cites final (part.needs ++ [.text part.kind.name]) (item.references final) := by
  unfold Part.attribute
  refine part.lays_references.bind fun content => (lays_ofWritten content.write).bind fun body =>
    (ConstantPool.Need.lays_intern (.text part.kind.name)).adaptExcept.bind fun name => .pure ?_
  rintro final hname hbody ⟨hkind, hcites⟩
  have hread : ModuleAttribute.ofAttribute? final ⟨name, body⟩ = some content := by
    unfold ModuleAttribute.ofAttribute?
    have htext : final.utf8 name = .ok content.kind.name := by
      rw [hkind]
      exact hname.resolves
    rw [htext]
    change (AttributeKind.ofName? content.kind.name >>= _) = _
    rw [AttributeKind.ofName?_name]
    change ((ModuleAttribute.read content.kind).run body).toOption = _
    rw [ModuleAttribute.run_read_of_write hbody]
    rfl
  refine ⟨⟨content, hread⟩, ?_⟩
  unfold Attribute.references
  rw [hread, Option.toList_some, List.flatMap_singleton]
  exact hcites.append (.text hname)

/-- The attributes of a module record can be read, and it refers to just what its descriptor
needs. -/
theorem Descriptor.lays_references (descriptor : Descriptor) :
    Lays descriptor.layout fun final result =>
      (∀ item ∈ result.2, ∃ content, ModuleAttribute.ofAttribute? final item = some content) ∧
        Cites final descriptor.needs
          (ClassFile.moduleRecord final result.1 result.2).references := by
  unfold Descriptor.layout
  refine (cites_internSymbol .classSymbol (InternalName.ofDotted recordClass)).bind fun thisClass =>
    (Lays.mapM fun part _ => part.lays_attribute_references).bind fun attributes => .pure ?_
  intro final hattributes hclass
  obtain ⟨hread, hcites⟩ := (List.forall₂_and_left _ _).1 hattributes.flip
  exact ⟨hread, hclass.append ((Cites.absent final _).append (.flatMap hcites.flip))⟩

end ModuleRecord
