import ModuleRecord.Proofs.ClassFile.ModuleAttribute
import ModuleRecord.Proofs.ClassFile.RoundTrip
import ModuleRecord.Proofs.Descriptor.Limits

/-!
# Descriptors read back

A descriptor that is written as a class file, or as the bytes of one, is read back without any
change (`reads_back`). Its parts resolve back from their attributes, the parts make up its contents,
and it is built from these again.
-/

namespace ModuleRecord

open ConstantPool (Lays IsPaired)
open Layout

/-! ## Attributes -/

/-- The attribute has the name of the kind of the part, and its body is written for a content that
resolves to the part. -/
def Part.IsWrittenAs (part : Part) (pool : ConstantPool) (item : Attribute) : Prop :=
  ∃ content : ModuleAttribute, pool.utf8 item.name = .ok content.kind.name ∧
    content.write = .ok item.body ∧ content.resolve pool = .ok part

theorem Part.lays_attribute {part : Part} (h : part.IsValid) :
    Lays part.attribute part.IsWrittenAs := by
  unfold Part.attribute
  refine h.lays_layout.bind fun content => (lays_ofWritten content.write).bind fun body =>
    (lays_internUtf8 part.kind.name).bind fun name => .pure ?_
  rintro final ⟨-, hname⟩ hbody ⟨hkind, hresolve⟩
  exact ⟨content, by rw [hkind]; exact hname, hbody, hresolve⟩

namespace Part.IsWrittenAs

variable {part : Part} {pool : ConstantPool} {item : Attribute}

/-- The attribute that is written for a part says that part. -/
theorem ofAttribute? (h : part.IsWrittenAs pool item) :
    Part.ofAttribute? pool item = .ok (some part) := by
  obtain ⟨content, hname, hbody, hresolve⟩ := h
  unfold Part.ofAttribute?
  refine Fallible.bind_eq_ok_iff.2 ⟨content.kind.name, by rw [hname]; rfl, ?_⟩
  rw [AttributeKind.ofName?_name]
  refine Fallible.bind_eq_ok_iff.2 ⟨content, ?_, ?_⟩
  · rw [ModuleAttribute.run_read_of_write hbody]
    rfl
  · rw [hresolve]
    rfl

end Part.IsWrittenAs

/-! ## Whole descriptors -/

namespace Descriptor

theorem isModuleRecord_moduleRecord (pool : ConstantPool) (thisClass : UInt16)
    (attributes : List Attribute) :
    (ClassFile.moduleRecord pool thisClass attributes).isModuleRecord = true := by
  have hflag : (@FlagSet.truncate .access Flag.moduleRecord).has Flag.moduleRecord = true := by
    decide
  exact hflag

/-- There is an attribute for each part of the descriptor. -/
theorem lays_layout {descriptor : Descriptor} (h : descriptor.toDraft.build = .ok descriptor) :
    Lays descriptor.layout fun final result =>
      List.Forall₂ (fun part item => part.IsWrittenAs final item) descriptor.parts result.2 := by
  obtain ⟨hvalid, hnormal⟩ := Draft.build_eq_ok_iff.1 h
  have hparts := hvalid.parts hnormal
  unfold Descriptor.layout
  refine (ConstantPool.lays_internClass recordClass).adaptExcept.bind fun thisClass =>
    (Lays.mapM fun part hpart => Part.lays_attribute (hparts part hpart)).bind fun attributes =>
      .pure fun _ hattributes _ => hattributes

/-- Attributes that are written for parts say these parts. -/
theorem mapM_ofAttribute? {pool : ConstantPool} {parts : List Part} {attributes : List Attribute}
    (h : List.Forall₂ (fun part item => part.IsWrittenAs pool item) parts attributes) :
    attributes.mapM (Part.ofAttribute? pool) = .ok (parts.map some) := by
  rw [Fallible.mapM_eq_ok_iff, List.forall₂_map_right_iff]
  exact (h.imp fun _ _ hitem => hitem.ofAttribute?).flip

/-- The class file of a descriptor is read back in every pool that its own may grow to. -/
theorem ofClassFile_of_layout {descriptor : Descriptor}
    (h : descriptor.toDraft.build = .ok descriptor) {thisClass : UInt16}
    {attributes : List Attribute} {pool final : ConstantPool}
    (hrun : descriptor.layout .empty = .ok (thisClass, attributes) pool)
    (hfinal : pool.GrowsTo final) :
    ofClassFile (.moduleRecord final thisClass attributes) = .ok descriptor := by
  obtain ⟨-, hgood⟩ := (lays_layout h).of_ok ConstantPool.isIndexed_empty hrun
  refine ofClassFile_eq_ok_iff.2 ⟨isModuleRecord_moduleRecord _ _ _, _, descriptor.toDraft,
    mapM_ofAttribute? (hgood final hfinal), ?_, h⟩
  rw [List.filterMap_map, show (id ∘ some : Part → Option Part) = some from rfl,
    List.filterMap_some]
  exact Draft.ofParts?_parts descriptor.toDraft

/-- The class file that a descriptor is encoded as has paired slots. -/
theorem exists_layout_of_encode {descriptor : Descriptor}
    (h : descriptor.toDraft.build = .ok descriptor) {bytes : Bytes}
    (hbytes : descriptor.encode = .ok bytes) :
    ∃ thisClass attributes pool, descriptor.layout .empty = .ok (thisClass, attributes) pool ∧
      IsPaired pool.toList ∧
        (ClassFile.moduleRecord pool thisClass attributes).toBytes = .ok bytes := by
  unfold encode at hbytes
  obtain ⟨file, hfile, hwritten⟩ := Fallible.bind_eq_ok_iff.1 hbytes
  obtain ⟨thisClass, attributes, pool, hrun, rfl⟩ := toClassFile_eq_ok_iff.1 hfile
  obtain ⟨⟨-, keys, hkeys⟩, -⟩ := (lays_layout h).of_ok ConstantPool.isIndexed_empty hrun
  refine ⟨thisClass, attributes, pool, hrun, ?_, Resolve.ofClassFile_eq_ok_iff.1 hwritten⟩
  rw [hkeys]
  exact ConstantPool.isPaired_map_entry keys

/-- A descriptor is read back from its class file, and from the bytes of its class file. -/
theorem reads_back {descriptor : Descriptor} (h : descriptor.Producible) :
    (∀ file, descriptor.toClassFile = .ok file → ofClassFile file = .ok descriptor) ∧
      ∀ bytes, descriptor.encode = .ok bytes → decode bytes = .ok descriptor := by
  have hbuild := h.build_toDraft
  refine ⟨?_, ?_⟩
  · intro file hfile
    obtain ⟨thisClass, attributes, pool, hrun, rfl⟩ := toClassFile_eq_ok_iff.1 hfile
    exact ofClassFile_of_layout hbuild hrun (.refl pool)
  · intro bytes hbytes
    obtain ⟨thisClass, attributes, pool, hrun, hpaired, hwritten⟩ :=
      exists_layout_of_encode hbuild hbytes
    rw [decode_of_parse (ClassFile.parse_of_toBytes hpaired hwritten)]
    exact ofClassFile_of_layout hbuild hrun (.ofList pool)

theorem baseModule_reads_back : baseModule.Producible ∧
    (∃ file, baseModule.toClassFile = .ok file ∧ ofClassFile file = .ok baseModule) ∧
      ∃ bytes, baseModule.encode = .ok bytes ∧ decode bytes = .ok baseModule := by
  have hfits : baseModule.FitsFormat := by decide
  obtain ⟨bytes, hbytes⟩ := (exists_encode_iff producible_baseModule.parts (by decide)).2 hfits
  obtain ⟨file, hfile, -⟩ := Fallible.bind_eq_ok_iff.1 hbytes
  obtain ⟨hread, hdecode⟩ := reads_back producible_baseModule
  exact ⟨producible_baseModule, ⟨file, hfile, hread file hfile⟩,
    bytes, hbytes, hdecode bytes hbytes⟩

end Descriptor
end ModuleRecord
