import ModuleRecord.Proofs.ClassFile.ModuleAttribute
import ModuleRecord.Proofs.Descriptor.Extension
import ModuleRecord.Proofs.Descriptor.Record

/-!
# What a descriptor is read from

The descriptor of a module record depends on the bodies of its known attributes alone, kind by kind
and in their order (`ofClassFile_of_bodies`). How attributes of different kinds are interleaved,
which attributes with other names stand between them, how the pool goes on and what the rest of the
class file says makes no difference.
-/

namespace ModuleRecord

open Fallible (Below)

/-! ## Bodies -/

/-- Whether an attribute has the name of a kind. -/
def Attribute.isNamed (pool : ConstantPool) (kind : AttributeKind) (item : Attribute) : Bool :=
  match pool.utf8 item.name with
  | .ok name => name == kind.name
  | .error _ => false

namespace ClassFile

/-- The bodies of the attributes with the name of a kind, in their order. -/
def bodies (file : ClassFile) (kind : AttributeKind) : List Bytes :=
  (file.attributes.filter (Attribute.isNamed file.pool kind)).map Attribute.body

/-- The names of all attributes are texts. -/
def HasNames (file : ClassFile) : Prop :=
  ∀ item ∈ file.attributes, ∃ name, file.pool.utf8 item.name = .ok name

end ClassFile

theorem Attribute.isNamed_iff {pool : ConstantPool} {item : Attribute} {name : String}
    (h : pool.utf8 item.name = .ok name) {kind : AttributeKind} :
    item.isNamed pool kind = true ↔ AttributeKind.ofName? name = some kind := by
  unfold Attribute.isNamed
  rw [h, AttributeKind.ofName?_eq_some_iff]
  exact beq_iff_eq.trans eq_comm

/-! ## Parts -/

namespace Part

/-- What a body says as that of an attribute of a kind. -/
def ofBody (pool : ConstantPool) (kind : AttributeKind) (body : Bytes) :
    Except Descriptor.Error Part := do
  let content ← Resolve.ofClassFile ((ModuleAttribute.read kind).run body)
  content.resolve pool

variable {pool later : ConstantPool}

theorem below_ofBody (h : pool.toList <+: later.toList) (kind : AttributeKind) (body : Bytes) :
    Below (ofBody pool kind body) (ofBody later kind body) :=
  (Below.refl _).bind fun content => content.below_resolve h

/-- A body says a part of its own kind. -/
theorem kind_of_ofBody {kind : AttributeKind} {body : Bytes} {part : Part}
    (h : ofBody pool kind body = .ok part) : part.kind = kind := by
  obtain ⟨content, hread, hresolve⟩ := Fallible.bind_eq_ok_iff.1 h
  rw [Resolve.ofClassFile_eq_ok_iff] at hread
  rw [← ModuleAttribute.kind_of_run_read hread]
  cases content with
  | declaration table =>
    obtain ⟨declaration, -, rfl⟩ := Fallible.map_eq_ok_iff.1 hresolve
    rfl
  | packages slots =>
    obtain ⟨names, -, rfl⟩ := Fallible.map_eq_ok_iff.1 hresolve
    rfl
  | hashes table =>
    obtain ⟨record, -, rfl⟩ := Fallible.map_eq_ok_iff.1 hresolve
    rfl
  | mainClass slot =>
    obtain ⟨name, -, rfl⟩ := Fallible.map_eq_ok_iff.1 hresolve
    rfl
  | target slot =>
    obtain ⟨platform, -, rfl⟩ := Fallible.map_eq_ok_iff.1 hresolve
    rfl

/-- An attribute with a known name says what its body says, and any other attribute says nothing. -/
theorem ofAttribute?_eq {item : Attribute} {name : String} (h : pool.utf8 item.name = .ok name) :
    ofAttribute? pool item =
      match AttributeKind.ofName? name with
      | none => .ok none
      | some kind => some <$> ofBody pool kind item.body := by
  unfold ofAttribute? ofBody
  rw [h]
  change (match AttributeKind.ofName? name with | none => _ | some kind => _) = _
  cases AttributeKind.ofName? name with
  | none => rfl
  | some kind =>
    simp only [map_bind]

theorem exists_name_of_ofAttribute? {item : Attribute} {said : Option Part}
    (h : ofAttribute? pool item = .ok said) : ∃ name, pool.utf8 item.name = .ok name := by
  obtain ⟨name, hname, -⟩ := Fallible.bind_eq_ok_iff.1 h
  exact ⟨name, Resolve.ofClassFile_eq_ok_iff.1 hname⟩

/-- The parts of a kind are what the bodies of that kind say, one after the other. -/
theorem mapM_ofBody_of_attributes {attributes : List Attribute} {saids : List (Option Part)}
    (h : attributes.mapM (ofAttribute? pool) = .ok saids) (kind : AttributeKind) :
    ((attributes.filter (Attribute.isNamed pool kind)).map Attribute.body).mapM (ofBody pool kind) =
      .ok ((saids.filterMap id).filter fun part => part.kind = kind) := by
  rw [Fallible.mapM_eq_ok_iff] at h ⊢
  induction h with
  | nil => exact .nil
  | @cons item said attributes saids hsaid _ ih =>
    obtain ⟨name, hname⟩ := exists_name_of_ofAttribute? hsaid
    rw [ofAttribute?_eq hname] at hsaid
    cases hkind : AttributeKind.ofName? name with
    | none =>
      rw [hkind] at hsaid
      cases hsaid
      have hother : ¬ item.isNamed pool kind = true := by
        rw [Attribute.isNamed_iff hname, hkind]
        simp
      rw [List.filter_cons_of_neg hother]
      exact ih
    | some found =>
      rw [hkind] at hsaid
      obtain ⟨part, hpart, rfl⟩ := Fallible.map_eq_ok_iff.1 hsaid
      have hparts : (some part :: saids).filterMap id = part :: saids.filterMap id := rfl
      rw [hparts]
      have hsame : item.isNamed pool kind = true ↔ part.kind = kind := by
        rw [Attribute.isNamed_iff hname, hkind, kind_of_ofBody hpart, Option.some_inj]
      by_cases hfound : part.kind = kind
      · rw [List.filter_cons_of_pos (hsame.2 hfound),
          List.filter_cons_of_pos (by simpa using hfound)]
        refine .cons ?_ ih
        rw [← hfound, kind_of_ofBody hpart]
        exact hpart
      · rw [List.filter_cons_of_neg (hsame.not.2 hfound),
          List.filter_cons_of_neg (by simpa using hfound)]
        exact ih

/-- An attribute says something if its name is not known or if its body says a part. -/
theorem exists_ofAttribute? {item : Attribute} {name : String}
    (hname : pool.utf8 item.name = .ok name)
    (h : ∀ kind, item.isNamed pool kind = true → ∃ part, ofBody pool kind item.body = .ok part) :
    ∃ said, ofAttribute? pool item = .ok said := by
  rw [ofAttribute?_eq hname]
  cases hkind : AttributeKind.ofName? name with
  | none => exact ⟨none, rfl⟩
  | some kind =>
    obtain ⟨part, hpart⟩ := h kind ((Attribute.isNamed_iff hname).2 hkind)
    exact ⟨some part, Fallible.map_eq_ok_iff.2 ⟨part, hpart, rfl⟩⟩

end Part

/-! ## Drafts -/

namespace Part

variable {part : Part}

theorem declaration?_of_kind_ne (h : part.kind ≠ .declaration) : part.declaration? = none := by
  cases part with
  | declaration content => exact absurd rfl h
  | _ => rfl

theorem packageNames_of_kind_ne (h : part.kind ≠ .packages) : part.packageNames = [] := by
  cases part with
  | packages names => exact absurd rfl h
  | _ => rfl

theorem hashRecord?_of_kind_ne (h : part.kind ≠ .hashes) : part.hashRecord? = none := by
  cases part with
  | hashes record => exact absurd rfl h
  | _ => rfl

theorem mainClass?_of_kind_ne (h : part.kind ≠ .mainClass) : part.mainClass? = none := by
  cases part with
  | mainClass name => exact absurd rfl h
  | _ => rfl

theorem target?_of_kind_ne (h : part.kind ≠ .target) : part.target? = none := by
  cases part with
  | target platform => exact absurd rfl h
  | _ => rfl

/-- What is picked from parts of one kind only is picked from the parts of that kind. -/
theorem filterMap_of_kind {α : Type} {pick : Part → Option α} {kind : AttributeKind}
    (h : ∀ part : Part, part.kind ≠ kind → pick part = none) (parts : List Part) :
    (parts.filter fun part => part.kind = kind).filterMap pick = parts.filterMap pick := by
  rw [List.filterMap_filter]
  refine List.filterMap_congr fun part _ => ?_
  by_cases hkind : part.kind = kind
  · simp [hkind]
  · simp [hkind, h part hkind]

theorem flatMap_of_kind {α : Type} {pick : Part → List α} {kind : AttributeKind}
    (h : ∀ part : Part, part.kind ≠ kind → pick part = []) (parts : List Part) :
    (parts.filter fun part => part.kind = kind).flatMap pick = parts.flatMap pick := by
  induction parts with
  | nil => rfl
  | cons part parts ih =>
    rw [List.flatMap_cons, ← ih]
    by_cases hkind : part.kind = kind
    · rw [List.filter_cons_of_pos (by simpa using hkind), List.flatMap_cons]
    · rw [List.filter_cons_of_neg (by simpa using hkind), h part hkind, List.nil_append]

end Part

/-- A draft is made up of the parts of each kind. -/
theorem Draft.ofParts?_congr {parts parts' : List Part}
    (h : ∀ kind, (parts.filter fun part => part.kind = kind) =
      parts'.filter fun part => part.kind = kind) : ofParts? parts = ofParts? parts' := by
  have hpick {α : Type} {pick : Part → Option α} {kind : AttributeKind}
      (hother : ∀ part : Part, part.kind ≠ kind → pick part = none) :
      parts.filterMap pick = parts'.filterMap pick := by
    rw [← Part.filterMap_of_kind hother, h, Part.filterMap_of_kind hother]
  have hpackages : parts.flatMap Part.packageNames = parts'.flatMap Part.packageNames := by
    have hother (part : Part) (hkind : part.kind ≠ .packages) : part.packageNames = [] :=
      Part.packageNames_of_kind_ne hkind
    rw [← Part.flatMap_of_kind hother, h, Part.flatMap_of_kind hother]
  unfold ofParts?
  rw [hpick @Part.declaration?_of_kind_ne, hpackages, hpick @Part.hashRecord?_of_kind_ne,
    hpick @Part.mainClass?_of_kind_ne, hpick @Part.target?_of_kind_ne]

/-! ## Class files -/

namespace Descriptor

variable {file file' : ClassFile} {descriptor : Descriptor}

/-- A class file with the bodies of one that is read is read as the same descriptor. -/
theorem ofClassFile_of_same_bodies (h : ofClassFile file = .ok descriptor)
    (hrecord : file'.isModuleRecord = true) (hpool : file.pool.toList <+: file'.pool.toList)
    (hnames : file'.HasNames) (hbodies : ∀ kind, file'.bodies kind = file.bodies kind) :
    ofClassFile file' = .ok descriptor := by
  obtain ⟨-, saids, draft, hsaids, hdraft, hbuild⟩ := ofClassFile_eq_ok_iff.1 h
  -- what the bodies of a kind say in the one file, they say in the other
  have hparts (kind : AttributeKind) : (file'.bodies kind).mapM (Part.ofBody file'.pool kind) =
      .ok ((saids.filterMap id).filter fun part => part.kind = kind) := by
    rw [hbodies]
    exact Below.mapM (fun body => Part.below_ofBody hpool kind body) _ _
      (Part.mapM_ofBody_of_attributes hsaids kind)
  have heach : ∀ item ∈ file'.attributes, ∃ said, Part.ofAttribute? file'.pool item = .ok said := by
    intro item hitem
    obtain ⟨name, hname⟩ := hnames item hitem
    refine Part.exists_ofAttribute? hname ?_
    intro kind hkind
    have hmem : item.body ∈ file'.bodies kind :=
      List.mem_map_of_mem (List.mem_filter.2 ⟨hitem, hkind⟩)
    have hall := Fallible.mapM_eq_ok_iff.1 (hparts kind)
    exact Fallible.exists_forall₂_iff.1 ⟨_, hall⟩ item.body hmem
  obtain ⟨saids', hall⟩ := Fallible.exists_forall₂_iff.2 heach
  have hsaids' := Fallible.mapM_eq_ok_iff.2 hall
  refine ofClassFile_eq_ok_iff.2 ⟨hrecord, saids', draft, hsaids', ?_, hbuild⟩
  rw [← hdraft]
  refine Draft.ofParts?_congr fun kind => ?_
  have hsame := (Part.mapM_ofBody_of_attributes hsaids' kind).symm.trans (hparts kind)
  exact Except.ok.inj hsame

/-- The descriptor of a class file is that of every other module record whose pool goes on behind
its own, whose attributes have names, and which has the same bodies of each known kind. If the pools
are the same and the attributes of both have names, both are read as the same, or both refused. -/
theorem ofClassFile_of_bodies :
    (∀ (file file' : ClassFile) (descriptor : Descriptor), ofClassFile file = .ok descriptor →
      file'.isModuleRecord = true → file.pool.toList <+: file'.pool.toList → file'.HasNames →
      (∀ kind, file'.bodies kind = file.bodies kind) → ofClassFile file' = .ok descriptor) ∧
    ∀ file file' : ClassFile, file.pool.toList = file'.pool.toList →
      file.isModuleRecord = true → file'.isModuleRecord = true → file.HasNames → file'.HasNames →
      (∀ kind, file'.bodies kind = file.bodies kind) →
      (∃ descriptor, ofClassFile file = .ok descriptor ∧ ofClassFile file' = .ok descriptor) ∨
        ∃ fault fault', ofClassFile file = .error fault ∧ ofClassFile file' = .error fault' := by
  refine ⟨fun file file' descriptor => ofClassFile_of_same_bodies, ?_⟩
  intro file file' hpool hrecord hrecord' hnames hnames' hbodies
  have hle : file.pool.toList <+: file'.pool.toList :=
    ⟨[], by rw [List.append_nil, hpool]⟩
  have hge : file'.pool.toList <+: file.pool.toList :=
    ⟨[], by rw [List.append_nil, hpool]⟩
  cases hread : ofClassFile file with
  | ok descriptor =>
    exact Or.inl ⟨descriptor, rfl,
      ofClassFile_of_same_bodies hread hrecord' hle hnames' hbodies⟩
  | error fault =>
    cases hread' : ofClassFile file' with
    | ok descriptor =>
      have hback := ofClassFile_of_same_bodies hread' hrecord hge hnames fun kind =>
        (hbodies kind).symm
      rw [hread] at hback
      exact absurd hback (by simp)
    | error fault' => exact Or.inr ⟨fault, fault', rfl, rfl⟩

/-- A module record with two targets around its declaration. -/
def plainRecord : ClassFile :=
  .moduleRecord (.ofList [.utf8 "Module", .utf8 "m", .symbol .moduleSymbol 2, .utf8 "ModuleTarget",
    .utf8 "linux", .utf8 "macos"]) 0
    [⟨4, [0, 5]⟩, ⟨1, [0, 3, 0, 0, 0, 0, 0, 0, 0, 0, 0, 0, 0, 0, 0, 0]⟩, ⟨4, [0, 6]⟩]

/-- The same record with its declaration last, an unknown attribute in front and other contents. -/
def noisyRecord : ClassFile where
  version := ⟨61, 3⟩
  pool := .ofList [.utf8 "Module", .utf8 "m", .symbol .moduleSymbol 2, .utf8 "ModuleTarget",
    .utf8 "linux", .utf8 "macos", .utf8 "Noise"]
  flags := .all
  thisClass := 9
  superClass := 9
  interfaces := [9]
  fields := [⟨.empty, 9, 9, []⟩]
  methods := []
  attributes := [⟨7, [0xFF]⟩, ⟨4, [0, 5]⟩, ⟨4, [0, 6]⟩,
    ⟨1, [0, 3, 0, 0, 0, 0, 0, 0, 0, 0, 0, 0, 0, 0, 0, 0]⟩]

/-- The descriptor of both records. -/
def targetedModule : Descriptor :=
  ⟨{ Draft.plain "m" with
    requires := [Requirement.onJavaBase]
    targetPlatform := some "macos" }⟩

theorem noisyRecord_reads_as_plainRecord :
    ofClassFile plainRecord = .ok targetedModule ∧ noisyRecord.isModuleRecord = true ∧
      plainRecord.pool.toList <+: noisyRecord.pool.toList ∧ noisyRecord.HasNames ∧
      (∀ kind, noisyRecord.bodies kind = plainRecord.bodies kind) ∧
      ofClassFile noisyRecord = .ok targetedModule := by
  have hread : ofClassFile plainRecord = .ok targetedModule := by decide
  have hrecord : noisyRecord.isModuleRecord = true := by decide
  have hpool : plainRecord.pool.toList <+: noisyRecord.pool.toList := ⟨[.utf8 "Noise"], rfl⟩
  have hnames : noisyRecord.HasNames := by
    unfold ClassFile.HasNames noisyRecord
    simp only [List.forall_mem_cons]
    exact ⟨⟨_, rfl⟩, ⟨_, rfl⟩, ⟨_, rfl⟩, ⟨_, rfl⟩, fun _ hitem => absurd hitem (by simp)⟩
  have hbodies (kind : AttributeKind) : noisyRecord.bodies kind = plainRecord.bodies kind := by
    cases kind <;> decide
  exact ⟨hread, hrecord, hpool, hnames, hbodies,
    ofClassFile_of_bodies.1 plainRecord noisyRecord targetedModule hread hrecord hpool hnames
      hbodies⟩

end Descriptor
end ModuleRecord
