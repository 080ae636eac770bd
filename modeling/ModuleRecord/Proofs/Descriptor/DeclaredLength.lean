import ModuleRecord.Proofs.ClassFile.DeclaredLength
import ModuleRecord.Proofs.Descriptor.RoundTrip

/-!
# Descriptors with a declared length that is too short

In the bytes of a descriptor, no declared length of an attribute can be made shorter without being
noticed (`decode_of_shortened`). If the class file can be read at all, the attribute whose length
has been changed is the first one that does not say a part, since its body is cut off.
-/

namespace ModuleRecord

/-- An attribute whose body is cut off says no part. -/
theorem Part.IsWrittenAs.ofAttribute?_cut {part : Part} {pool : ConstantPool} {item : Attribute}
    (h : part.IsWrittenAs pool item) {n : Nat} (hn : n < item.body.length) :
    ∃ offset, Part.ofAttribute? pool (item.cut n) =
      .error (.classFile (.truncatedBody offset)) := by
  obtain ⟨content, hname, hbody, -⟩ := h
  have hrun := ModuleAttribute.run_read_take (ModuleAttribute.reads_of_write hbody) hn
  refine ⟨n, ?_⟩
  have hname' : Resolve.ofClassFile (pool.utf8 (item.cut n).name) = .ok content.kind.name :=
    congrArg Resolve.ofClassFile hname
  have hrun' : Resolve.ofClassFile ((ModuleAttribute.read content.kind).run (item.cut n).body) =
    .error (.classFile (.truncatedBody n)) := congrArg Resolve.ofClassFile hrun
  unfold Part.ofAttribute?
  simp only [hname', bind, Except.bind, AttributeKind.ofName?_name, hrun']

/-- An attribute that says a part has a body, so that there is a shorter length for each. -/
theorem Part.length_body_pos {pool : ConstantPool} {item : Attribute} {part : Part}
    (h : Part.ofAttribute? pool item = .ok (some part)) : 0 < item.body.length := by
  refine List.length_pos_of_ne_nil fun hempty => ?_
  have hrefused (kind : AttributeKind) :
      ∃ fault, (ModuleAttribute.read kind).run [] = .error fault := by
    cases kind <;> exact ⟨_, rfl⟩
  unfold Part.ofAttribute? at h
  obtain ⟨name, -, h⟩ := Fallible.bind_eq_ok_iff.1 h
  cases hkind : AttributeKind.ofName? name with
  | none =>
    rw [hkind] at h
    cases h
  | some kind =>
    rw [hkind] at h
    obtain ⟨content, hread, -⟩ := Fallible.bind_eq_ok_iff.1 h
    obtain ⟨fault, hfault⟩ := hrefused kind
    rw [hempty, hfault] at hread
    cases hread

namespace Descriptor

/-- Where all attributes before one whose body is cut off say parts, nothing behind it is looked
at. -/
theorem ofClassFile_of_cut {pool : ConstantPool} {parts : List Part} {before after : List Attribute}
    {item : Attribute}
    (h : List.Forall₂ (fun part item => part.IsWrittenAs pool item) parts (before ++ item :: after))
    {n : Nat} (hn : n < item.body.length) (thisClass : UInt16) (others : List Attribute) :
    ∃ offset, ofClassFile (.moduleRecord pool thisClass (before ++ item.cut n :: others)) =
      .error (.classFile (.truncatedBody offset)) := by
  have hall : ∀ earlier ∈ before ++ item :: after, ∃ part : Part, part.IsWrittenAs pool earlier :=
    Fallible.exists_forall₂_iff.1 ⟨parts, h.flip⟩
  rw [List.forall_mem_append, List.forall_mem_cons] at hall
  obtain ⟨hbefore, ⟨part, hitem⟩, -⟩ := hall
  obtain ⟨offset, hcut⟩ := hitem.ofAttribute?_cut hn
  refine ⟨offset, ?_⟩
  have hparts : (before ++ item.cut n :: others).mapM (Part.ofAttribute? pool) =
      .error (.classFile (.truncatedBody offset)) := by
    refine Fallible.mapM_eq_error (fun earlier hmem => ?_) hcut
    obtain ⟨part, hearlier⟩ := hbefore earlier hmem
    exact ⟨_, hearlier.ofAttribute?⟩
  unfold ofClassFile
  rw [isModuleRecord_moduleRecord]
  change (List.mapM (Part.ofAttribute? pool) (before ++ item.cut n :: others) >>= _) = _
  rw [hparts]
  rfl

/-- Each part of a descriptor is an attribute in its bytes. Where too short a length is declared for
one of them, its body is found to be truncated, at whatever offset, and the bytes are refused. -/
theorem decode_of_shortened {descriptor : Descriptor} (h : descriptor.Producible) {bytes : Bytes}
    (hbytes : descriptor.encode = .ok bytes) :
    ∃ file, ClassFile.parse bytes = .ok file ∧
      file.attributes.mapM (Part.ofAttribute? file.pool) = .ok (descriptor.parts.map some) ∧
      ∀ i item, file.attributes[i]? = some item →
        item.bytes <+: bytes.drop (file.lengthField bytes.length i - 2) ∧
        ∀ n < item.body.length, ∃ offset,
          decode (bytes.overwrite (file.lengthField bytes.length i) (Bytes.ofNat 4 n)) =
            .error (.classFile (.truncatedBody offset)) := by
  have hbuild := h.build_toDraft
  obtain ⟨thisClass, attributes, pool, hrun, hpaired, hwritten⟩ :=
    exists_layout_of_encode hbuild hbytes
  obtain ⟨-, hgood⟩ := (lays_layout hbuild).of_ok ConstantPool.isIndexed_empty hrun
  have hparts := hgood _ (.ofList pool)
  refine ⟨_, ClassFile.parse_of_toBytes hpaired hwritten, mapM_ofAttribute? hparts, ?_⟩
  intro i item hitem
  obtain ⟨before, after, hsplit, rfl⟩ :
      ∃ before after, attributes = before ++ item :: after ∧ before.length = i := by
    obtain ⟨hlt, rfl⟩ := List.getElem?_eq_some_iff.1 hitem
    refine ⟨attributes.take i, attributes.drop (i + 1), ?_, List.length_take_of_le hlt.le⟩
    exact (List.take_append_drop i attributes).symm.trans
      (congrArg _ (List.drop_eq_getElem_cons hlt))
  refine ⟨ClassFile.bytes_isPrefix_drop hpaired hwritten hsplit, fun n hn => ?_⟩
  rcases ClassFile.parse_of_shortened hpaired hwritten hsplit hn.le with
    ⟨offset, hparse⟩ | ⟨others, hparse⟩
  · exact ⟨offset, decode_of_parse_error hparse⟩
  · obtain ⟨offset, hrefused⟩ := ofClassFile_of_cut (hsplit ▸ hparts) hn thisClass others
    exact ⟨offset, (decode_of_parse hparse).trans hrefused⟩

theorem baseModule_refuses_emptied_attribute : baseModule.Producible ∧
    ∃ bytes file item, baseModule.encode = .ok bytes ∧ ClassFile.parse bytes = .ok file ∧
      file.attributes[0]? = some item ∧ 0 < item.body.length ∧
        ∃ offset, decode (bytes.overwrite (file.lengthField bytes.length 0) (Bytes.ofNat 4 0)) =
          .error (.classFile (.truncatedBody offset)) := by
  have hfits : baseModule.FitsFormat := by decide
  obtain ⟨bytes, hbytes⟩ := (exists_encode_iff producible_baseModule.parts (by decide)).2 hfits
  obtain ⟨file, hparse, hparts, hshortened⟩ := decode_of_shortened producible_baseModule hbytes
  have hsays := Fallible.mapM_eq_ok_iff.1 hparts
  cases hattributes : file.attributes with
  | nil =>
    rw [hattributes] at hsays
    exact absurd (List.forall₂_nil_left_iff.1 hsays) (by decide)
  | cons item others =>
    have hitem : file.attributes[0]? = some item := by
      rw [hattributes]
      rfl
    rw [hattributes] at hsays
    obtain ⟨said, rest, hsaid, -, hcons⟩ := List.forall₂_cons_left_iff.1 hsays
    have hmem : said ∈ baseModule.parts.map some := by
      rw [hcons]
      exact List.mem_cons_self
    obtain ⟨part, -, rfl⟩ := List.mem_map.1 hmem
    have hpos := Part.length_body_pos hsaid
    exact ⟨producible_baseModule, bytes, file, item, hbytes, hparse, hitem, hpos,
      (hshortened 0 item hitem).2 0 hpos⟩

end Descriptor
end ModuleRecord
