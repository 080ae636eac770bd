import ModuleRecord.Descriptor.Part
import ModuleRecord.Proofs.ClassFile.ConstantPool.Interning
import ModuleRecord.Proofs.Descriptor.Build

/-!
# Parts resolved from their layout

What is laid out for a part resolves to that part again, in the pool that is left and in every pool
that it may grow to (`Part.lays_layout`); the digests come back in lowercase. Names have to be
readable for that: an empty name is refused when it is resolved, and a slash would be taken for a
dot. The pool is kept in order for names that are not.
-/

namespace ModuleRecord

open ConstantPool (Lays)

/-! ## Names -/

theorem Resolve.ofClassFile_eq_ok_iff {α : Type} {found : Except ClassFile.Error α} {value : α} :
    Resolve.ofClassFile found = .ok value ↔ found = .ok value := by
  cases found <;> simp [Resolve.ofClassFile]

theorem Resolve.nonEmpty_eq_ok {role : Descriptor.Role} {found : Except ClassFile.Error String}
    {name : String} (hfound : found = .ok name) (hne : name ≠ "") :
    Resolve.nonEmpty role found = .ok name := by
  unfold Resolve.nonEmpty
  rw [hfound]
  change (if name = "" then _ else _) = _
  rw [if_neg hne]
  rfl

namespace Layout

open Resolve (nonEmpty nonEmpty_eq_ok)

theorem lays_internModule (role : Descriptor.Role) (name : String) :
    Lays (internModule name) fun final slot =>
      name ≠ "" → nonEmpty role (final.moduleName slot) = .ok name := by
  refine (ConstantPool.lays_internModule name).adaptExcept.imp ?_
  intro final slot hname hne
  exact nonEmpty_eq_ok hname hne

theorem lays_internClass (role : Descriptor.Role) (name : String) :
    Lays (internClass name) fun final slot =>
      Name.IsReadable name → nonEmpty role (final.className slot) = .ok name := by
  refine (ConstantPool.lays_internClass name).adaptExcept.imp ?_
  intro final slot hname hreadable
  exact nonEmpty_eq_ok (hname hreadable.not_slash) hreadable.ne_empty

theorem lays_internPackage (role : Descriptor.Role) (name : String) :
    Lays (internPackage name) fun final slot =>
      Name.IsReadable name → nonEmpty role (final.packageName slot) = .ok name := by
  refine (ConstantPool.lays_internPackage name).adaptExcept.imp ?_
  intro final slot hname hreadable
  exact nonEmpty_eq_ok (hname hreadable.not_slash) hreadable.ne_empty

theorem lays_internUtf8 (text : String) :
    Lays (internUtf8 text) fun final slot => slot ≠ 0 ∧ final.utf8 slot = .ok text :=
  (ConstantPool.lays_internUtf8 text).adaptExcept

/-- An absent text is told from an empty one by its slot. -/
theorem lays_internOptional (text : Option String) :
    Lays (internOptional text) fun final slot => Resolve.optionalUtf8 final slot = .ok text := by
  cases text with
  | none =>
    refine .pure ?_
    intro final
    rfl
  | some text =>
    refine (lays_internUtf8 text).imp ?_
    rintro final slot ⟨hslot, htext⟩
    unfold Resolve.optionalUtf8
    rw [if_neg hslot, htext]
    rfl

theorem lays_ofWritten (written : Written) :
    Lays (ofWritten written) fun _ bytes => written = .ok bytes := by
  cases written with
  | ok bytes => exact .pure fun _ => rfl
  | error fault => exact .throw _

/-- A row of items resolves to what comes back of each item, if all of them are readable. -/
theorem lays_mapM_back {α β ε : Type} {layout : α → Layout β}
    {resolve : ConstantPool → β → Except ε α} {readable : α → Prop} {back : α → α}
    (h : ∀ item, Lays (layout item) fun final value =>
      readable item → resolve final value = .ok (back item)) (items : List α) :
    Lays (items.mapM layout) fun final values =>
      (∀ item ∈ items, readable item) →
        values.mapM (resolve final) = .ok (items.map back) := by
  refine (Lays.mapM fun item _ => h item).imp ?_
  intro final values hvalues hreadable
  rw [Fallible.mapM_eq_ok_iff, List.forall₂_map_right_iff]
  have hboth := (List.forall₂_and_left _ _).2 ⟨hreadable, hvalues⟩
  exact hboth.flip.imp fun _ _ ⟨hitem, hgood⟩ => hgood hitem

theorem lays_mapM {α β ε : Type} {layout : α → Layout β} {resolve : ConstantPool → β → Except ε α}
    {readable : α → Prop}
    (h : ∀ item, Lays (layout item) fun final value =>
      readable item → resolve final value = .ok item) (items : List α) :
    Lays (items.mapM layout) fun final values =>
      (∀ item ∈ items, readable item) → values.mapM (resolve final) = .ok items := by
  have hback := lays_mapM_back h items
  rwa [List.map_id'] at hback

end Layout

open Layout

/-! ## Flags -/

theorem Requirement.has_ofSwitches (isStatic isTransitive isSynthetic isMandated : Bool) :
    let flags : FlagSet .requires := .ofSwitches [(Flag.staticPhase, isStatic),
      (Flag.transitive, isTransitive), (Flag.synthetic, isSynthetic), (Flag.mandated, isMandated)]
    flags.has Flag.staticPhase = isStatic ∧ flags.has Flag.transitive = isTransitive ∧
      flags.has Flag.synthetic = isSynthetic ∧ flags.has Flag.mandated = isMandated := by
  revert isStatic isTransitive isSynthetic isMandated
  decide

theorem Export.has_ofSwitches (isSynthetic isMandated : Bool) :
    let flags : FlagSet .exports := .ofSwitches [(Flag.synthetic, isSynthetic),
      (Flag.mandated, isMandated)]
    flags.has Flag.synthetic = isSynthetic ∧ flags.has Flag.mandated = isMandated := by
  revert isSynthetic isMandated
  decide

theorem Declaration.has_ofSwitches (isOpen isSynthetic isMandated : Bool) :
    let flags : FlagSet .declaration := .ofSwitches [(Flag.openModule, isOpen),
      (Flag.synthetic, isSynthetic), (Flag.mandated, isMandated)]
    flags.has Flag.openModule = isOpen ∧ flags.has Flag.synthetic = isSynthetic ∧
      flags.has Flag.mandated = isMandated := by
  revert isOpen isSynthetic isMandated
  decide

/-! ## Rows -/

theorem Requirement.lays_layout (item : Requirement) :
    Lays item.layout fun final row =>
      Name.isModuleName item.target = true → row.resolve final = .ok item := by
  unfold Requirement.layout
  refine (lays_internModule .requiredModule item.target).bind fun target =>
    (lays_internOptional item.version).bind fun version => .pure ?_
  intro final hversion htarget hvalid
  have hne := Name.ne_empty_of_isModuleName hvalid
  obtain ⟨hstatic, htransitive, hsynthetic, hmandated⟩ := Requirement.has_ofSwitches item.isStatic
    item.isTransitive item.isSynthetic item.isMandated
  unfold RequiresRow.resolve
  rw [Fallible.bind_eq_ok_iff]
  refine ⟨item.target, htarget hne, ?_⟩
  rw [Fallible.bind_eq_ok_iff]
  refine ⟨item.version, hversion, ?_⟩
  rw [hstatic, htransitive, hsynthetic, hmandated]
  rfl

theorem Export.lays_layout (item : Export) :
    Lays item.layout fun final row => item.IsValid → row.resolve final = .ok item := by
  unfold Export.layout
  refine (lays_internPackage .exportedPackage item.package).bind fun package =>
    (lays_mapM (lays_internModule .exportTarget) item.targets).bind fun targets => .pure ?_
  intro final htargets hpackage hvalid
  have hne := fun target htarget => Name.ne_empty_of_isModuleName (hvalid.targets target htarget)
  obtain ⟨hsynthetic, hmandated⟩ := Export.has_ofSwitches item.isSynthetic item.isMandated
  unfold ExportsRow.resolve
  rw [Fallible.bind_eq_ok_iff]
  refine ⟨item.package, hpackage (Name.isReadable_of_isBinaryName hvalid.package), ?_⟩
  rw [Fallible.bind_eq_ok_iff]
  refine ⟨item.targets, htargets hne, ?_⟩
  rw [hsynthetic, hmandated]
  rfl

theorem Provision.lays_layout (item : Provision) :
    Lays item.layout fun final row => item.IsValid → row.resolve final = .ok item := by
  unfold Provision.layout
  by_cases hempty : item.implementations.isEmpty = true
  · rw [if_pos hempty]
    exact .throw_bind _ _
  · rw [if_neg hempty]
    refine (lays_internClass .service item.service).bind fun service =>
      (lays_mapM (lays_internClass .implementation) item.implementations).bind
        fun implementations => .pure ?_
    intro final himplementations hservice hvalid
    have hreadable := fun name hname =>
      Name.isReadable_of_isBinaryName (hvalid.implementations name hname)
    unfold ProvidesRow.resolve
    rw [Fallible.bind_eq_ok_iff]
    refine ⟨item.service, hservice (Name.isReadable_of_isBinaryName hvalid.service), ?_⟩
    rw [Fallible.bind_eq_ok_iff]
    exact ⟨item.implementations, himplementations hreadable, rfl⟩

/-- A digest that cannot be read is not laid out, and one that can comes back in lowercase. -/
theorem ModuleHash.lays_layout (hash : ModuleHash) :
    Lays hash.layout fun final row =>
      hash.target ≠ "" → row.resolve final = .ok hash.toLower := by
  unfold ModuleHash.layout
  cases hbytes : Hex.decode? hash.digest with
  | none => exact .throw _
  | some bytes =>
    refine (lays_internModule .hashedModule hash.target).bind fun target => .pure ?_
    intro final htarget hne
    unfold HashRow.resolve ModuleHash.toLower
    rw [Fallible.bind_eq_ok_iff, ← Hex.encode_of_decode? hbytes]
    exact ⟨hash.target, htarget hne, rfl⟩

/-! ## Tables -/

theorem Declaration.lays_layout (declaration : Declaration) :
    Lays declaration.layout fun final table =>
      declaration.IsValid → table.resolve final = .ok declaration := by
  unfold Declaration.layout
  refine (lays_internModule .declaredModule declaration.name).bind fun name =>
    (lays_internOptional declaration.version).bind fun version => ?_
  refine (lays_mapM Requirement.lays_layout declaration.requires).bind fun requires => ?_
  refine (lays_mapM Export.lays_layout declaration.exports).bind fun exports => ?_
  refine (lays_mapM (lays_internClass .service) declaration.uses).bind fun uses => ?_
  refine (lays_mapM Provision.lays_layout declaration.provides).bind fun provides => .pure ?_
  intro final hprovides huses hexports hrequires hversion hname hvalid
  have hne := Name.ne_empty_of_isModuleName hvalid.name
  have hreadable := fun name hname => Name.isReadable_of_isBinaryName (hvalid.uses name hname)
  obtain ⟨hopen, hsynthetic, hmandated⟩ := Declaration.has_ofSwitches declaration.isOpen
    declaration.isSynthetic declaration.isMandated
  unfold DeclarationTable.resolve
  simp only [Fallible.bind_eq_ok_iff]
  refine ⟨declaration.name, hname hne, declaration.version, hversion,
    declaration.requires, hrequires hvalid.requires, declaration.exports, hexports hvalid.exports,
    declaration.uses, huses hreadable, declaration.provides, hprovides hvalid.provides, ?_⟩
  rw [hopen, hsynthetic, hmandated]
  rfl

theorem HashRecord.lays_layout (record : HashRecord) :
    Lays record.layout fun final table =>
      record.algorithm ≠ "" → (∀ hash ∈ record.hashes, hash.target ≠ "") →
        table.resolve final = .ok record.toLower := by
  unfold HashRecord.layout
  refine (lays_internUtf8 record.algorithm).bind fun algorithm => ?_
  refine (lays_mapM_back ModuleHash.lays_layout record.hashes).bind fun hashes => .pure ?_
  rintro final hhashes ⟨-, halgorithm⟩ hne htargets
  unfold HashTable.resolve
  rw [Fallible.bind_eq_ok_iff]
  refine ⟨record.algorithm, Resolve.nonEmpty_eq_ok halgorithm hne, ?_⟩
  rw [Fallible.bind_eq_ok_iff]
  exact ⟨record.hashes.map ModuleHash.toLower, hhashes htargets, rfl⟩

/-! ## Parts -/

/-- All names of a part are ones that are read back: those of a declaration are of their kind, those
of packages and classes are readable, and the others are not empty. -/
def Part.IsReadable : Part → Prop
  | declaration content => content.IsValid
  | packages names => ∀ name ∈ names, Name.IsReadable name
  | hashes record => record.algorithm ≠ "" ∧ ∀ hash ∈ record.hashes, hash.target ≠ ""
  | mainClass name => Name.IsReadable name
  | target _ => True

/-- The part with its digests in lowercase. -/
def Part.toLower : Part → Part
  | hashes record => hashes record.toLower
  | part => part

/-- The attribute of a part is of the kind of the part, and resolves to it if it is readable. -/
theorem Part.lays_layout (part : Part) :
    Lays part.layout fun final content =>
      content.kind = part.kind ∧ (part.IsReadable → content.resolve final = .ok part.toLower) := by
  cases part with
  | declaration declaration =>
    refine (Declaration.lays_layout declaration).map ?_
    intro final table htable
    refine ⟨rfl, fun hreadable => ?_⟩
    exact Fallible.map_eq_ok_iff.2 ⟨declaration, htable hreadable, rfl⟩
  | packages names =>
    refine (lays_mapM (lays_internPackage .package) names).map ?_
    intro final slots hslots
    refine ⟨rfl, fun hreadable => ?_⟩
    exact Fallible.map_eq_ok_iff.2 ⟨names, hslots hreadable, rfl⟩
  | hashes record =>
    refine (HashRecord.lays_layout record).map ?_
    intro final table htable
    refine ⟨rfl, fun hreadable => ?_⟩
    exact Fallible.map_eq_ok_iff.2 ⟨record.toLower, htable hreadable.1 hreadable.2, rfl⟩
  | mainClass name =>
    refine (lays_internClass .mainClass name).map ?_
    intro final slot hslot
    refine ⟨rfl, fun hreadable => ?_⟩
    exact Fallible.map_eq_ok_iff.2 ⟨name, hslot hreadable, rfl⟩
  | target platform =>
    refine (lays_internUtf8 platform).map ?_
    rintro final slot ⟨-, hslot⟩
    refine ⟨rfl, fun _ => Fallible.map_eq_ok_iff.2 ⟨platform, ?_, rfl⟩⟩
    rw [hslot]
    rfl

/-- All names of a part are of their kind, and its digests are in lowercase. -/
def Part.IsValid : Part → Prop
  | declaration content => content.IsValid
  | packages names => ∀ name ∈ names, Name.isBinaryName name = true
  | hashes record => record.IsValid ∧ ∀ hash ∈ record.hashes, hash.lowercase = hash
  | mainClass name => Name.isBinaryName name = true
  | target _ => True

namespace Part.IsValid

variable {part : Part}

theorem isReadable (h : part.IsValid) : part.IsReadable := by
  cases part with
  | declaration content => exact h
  | packages names => exact fun name hname => Name.isReadable_of_isBinaryName (h name hname)
  | hashes record =>
    refine ⟨h.1.algorithm, fun hash hhash => ?_⟩
    exact Name.ne_empty_of_isModuleName (h.1.hashes hash hhash).target
  | mainClass name => exact Name.isReadable_of_isBinaryName h
  | target platform => trivial

theorem toLower_eq (h : part.IsValid) : part.toLower = part := by
  cases part with
  | hashes record =>
    have hhashes : record.hashes.map ModuleHash.toLower = record.hashes := by
      rw [List.map_congr_left fun hash hhash => ?_, List.map_id]
      rw [← (h.1.hashes hash hhash).lowercase_eq]
      exact h.2 hash hhash
    change hashes { record with hashes := record.hashes.map ModuleHash.toLower } = _
    rw [hhashes]
  | _ => rfl

/-- The attribute of a valid part resolves to it. -/
theorem lays_layout (h : part.IsValid) :
    Lays part.layout fun final content =>
      content.kind = part.kind ∧ content.resolve final = .ok part := by
  refine part.lays_layout.imp ?_
  rintro final content ⟨hkind, hresolve⟩
  have hback := hresolve h.isReadable
  rw [h.toLower_eq] at hback
  exact ⟨hkind, hback⟩

end Part.IsValid

end ModuleRecord
