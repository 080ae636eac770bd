import ModuleRecord.ClassFile.Basic
import ModuleRecord.Proofs.ClassFile.ConstantPool.Bytes

/-!
# The layout of class files

Which bytes attributes, members and class files are read from, and which are written for them. For
attributes the two are the same; members and class files differ by their flags and their pool.
-/

namespace ModuleRecord

open Reader (Reads IsStreaming)

/-! ## Attributes -/

namespace Attribute

theorem isStreaming_read : IsStreaming Attribute.read :=
  Reader.isStreaming_u16.bind fun _ => (Reader.isStreaming_word 4).bind fun length =>
    (Reader.isStreaming_body length).bind fun _ => Reader.isStreaming_pure _

theorem write_eq_ok_iff {item : Attribute} {bytes : Bytes} :
    item.write = .ok bytes ↔ item.body.length ≤ 0xFFFFFFFF ∧
      Bytes.ofUInt16 item.name ++ Bytes.ofNat 4 item.body.length ++ item.body = bytes :=
  Fallible.ite_eq_ok_iff

/-- An attribute is read from exactly what is written for it. -/
theorem reads_iff_write (used : Bytes) (item : Attribute) :
    Reads Attribute.read used item ↔ item.write = .ok used := by
  rw [write_eq_ok_iff]
  constructor
  · intro h
    obtain ⟨name, _, _, _, rfl, hname, hrun⟩ := Reader.isStreaming_u16.run_bind h.run_start
    obtain ⟨length, word, _, _, rfl, hlength, hrun⟩ := (Reader.isStreaming_word 4).run_bind hrun
    obtain ⟨_, body, _, _, rfl, hbody, hrun⟩ := (Reader.isStreaming_body length).run_bind hrun
    obtain ⟨rfl, rfl⟩ := Reader.pure_ends hrun
    obtain ⟨hlen, hvalue⟩ := Reader.reads_word_iff.1 hlength
    obtain ⟨rfl, rfl⟩ := Reader.reads_body_iff.1 hbody
    have hlt := Bytes.toNat_lt word
    rw [hlen] at hlt
    refine ⟨by change body.length ≤ _; omega, ?_⟩
    rw [Reader.reads_u16_iff.1 hname, ← hvalue, Bytes.ofNat_eq_of_length hlen,
      List.append_nil, List.append_assoc]
  · rintro ⟨hle, rfl⟩
    have hlength : Reads (Reader.word 4) (Bytes.ofNat 4 item.body.length) item.body.length :=
      Reader.reads_word_iff.2 ⟨Bytes.length_ofNat _ _, Bytes.toNat_ofNat_of_lt (by omega)⟩
    rw [List.append_assoc]
    refine (Reader.reads_u16_iff.2 rfl).bind (hlength.bind ?_)
    exact (Reader.reads_body_iff.2 ⟨rfl, rfl⟩).bind_pure _

theorem isStreaming_readTable : IsStreaming readTable :=
  Reader.isStreaming_withinBody (Reader.isStreaming_table isStreaming_read)

/-- An attribute table is read from exactly what is written for it. -/
theorem reads_readTable_iff {used : Bytes} {attributes : List Attribute} :
    Reads readTable used attributes ↔ writeTable attributes = .ok used := by
  rw [readTable, Reader.reads_withinBody_iff]
  exact Written.reads_table_iff_table isStreaming_read reads_iff_write

/-! ## Bytes of attributes -/

/-- The bytes of an attribute whose body can be counted. -/
def bytes (item : Attribute) : Bytes :=
  Bytes.ofUInt16 item.name ++ Bytes.ofNat 4 item.body.length ++ item.body

/-- The bytes of an attribute table that can be counted. -/
def tableBytes (attributes : List Attribute) : Bytes :=
  Bytes.ofNat 2 attributes.length ++ attributes.flatMap bytes

/-- A table and the bodies in it can be counted. -/
def IsTable (attributes : List Attribute) : Prop :=
  attributes.length ≤ 0xFFFF ∧ ∀ item ∈ attributes, item.body.length ≤ 0xFFFFFFFF

theorem writeTable_eq_ok_iff {attributes : List Attribute} {written : Bytes} :
    writeTable attributes = .ok written ↔
      IsTable attributes ∧ tableBytes attributes = written := by
  have hparts (parts : List Bytes) :
      List.Forall₂ (fun item part => item.write = .ok part) attributes parts ↔
        (∀ item ∈ attributes, item.body.length ≤ 0xFFFFFFFF) ∧ attributes.map bytes = parts := by
    simp only [write_eq_ok_iff]
    exact Fallible.forall₂_guarded_iff
  rw [writeTable, Written.table_eq_ok_iff]
  simp only [hparts]
  constructor
  · rintro ⟨hle, _, ⟨hbodies, rfl⟩, rfl⟩
    exact ⟨⟨hle, hbodies⟩, by rw [tableBytes, List.flatMap_def]⟩
  · rintro ⟨⟨hle, hbodies⟩, rfl⟩
    exact ⟨hle, _, ⟨hbodies, rfl⟩, by rw [tableBytes, List.flatMap_def]⟩

end Attribute

/-! ## Members -/

namespace Member

theorem isStreaming_read : IsStreaming Member.read :=
  Reader.isStreaming_flags.bind fun _ => Reader.isStreaming_u16.bind fun _ =>
    Reader.isStreaming_u16.bind fun _ => Attribute.isStreaming_readTable.bind fun _ =>
      Reader.isStreaming_pure _

theorem reads_iff {used : Bytes} {member : Member} :
    Reads Member.read used member ↔
      ∃ bits attributes, FlagSet.truncate bits = member.flags ∧
        Attribute.writeTable member.attributes = .ok attributes ∧
        Bytes.ofUInt16 bits ++ (Bytes.ofUInt16 member.name ++
          (Bytes.ofUInt16 member.descriptor ++ attributes)) = used := by
  constructor
  · intro h
    obtain ⟨_, _, _, _, rfl, hflags, hrun⟩ := Reader.isStreaming_flags.run_bind h.run_start
    obtain ⟨_, _, _, _, rfl, hname, hrun⟩ := Reader.isStreaming_u16.run_bind hrun
    obtain ⟨_, _, _, _, rfl, hdescriptor, hrun⟩ := Reader.isStreaming_u16.run_bind hrun
    obtain ⟨_, _, _, _, rfl, hattributes, hrun⟩ := Attribute.isStreaming_readTable.run_bind hrun
    obtain ⟨rfl, rfl⟩ := Reader.pure_ends hrun
    obtain ⟨bits, rfl, hbits⟩ := Reader.reads_flags_iff.1 hflags
    refine ⟨bits, _, hbits, Attribute.reads_readTable_iff.1 hattributes, ?_⟩
    rw [Reader.reads_u16_iff.1 hname, Reader.reads_u16_iff.1 hdescriptor, List.append_nil]
  · rintro ⟨bits, attributes, hbits, hattributes, rfl⟩
    refine (Reader.reads_flags_iff.2 ⟨bits, rfl, hbits⟩).bind ((Reader.reads_u16_iff.2 rfl).bind ?_)
    refine (Reader.reads_u16_iff.2 rfl).bind ?_
    exact (Attribute.reads_readTable_iff.2 hattributes).bind_pure _

theorem write_eq_ok_iff {member : Member} {bytes : Bytes} :
    member.write = .ok bytes ↔
      ∃ attributes, Attribute.writeTable member.attributes = .ok attributes ∧
        Bytes.ofUInt16 member.flags.bits ++ (Bytes.ofUInt16 member.name ++
          (Bytes.ofUInt16 member.descriptor ++ attributes)) = bytes := by
  rw [Member.write, Fallible.bind_eq_ok_iff]
  refine exists_congr fun attributes => and_congr_right fun _ => ?_
  rw [← List.append_assoc, ← List.append_assoc]
  exact ⟨fun h => by cases h; rfl, fun h => by cases h; rfl⟩

/-- A member reads back from what is written for it. -/
theorem reads_of_write {member : Member} {bytes : Bytes} (h : member.write = .ok bytes) :
    Reads Member.read bytes member := by
  obtain ⟨attributes, hattributes, rfl⟩ := write_eq_ok_iff.1 h
  exact reads_iff.2 ⟨member.flags.bits, attributes, FlagSet.truncate_bits _, hattributes, rfl⟩

theorem reads_table_of_write {members : List Member} {bytes : Bytes}
    (h : Written.table Member.write members = .ok bytes) :
    Reads (Reader.table Member.read) bytes members :=
  Written.reads_table isStreaming_read h fun _ _ _ => reads_of_write

end Member

/-! ## Class files -/

namespace ClassFile

theorem holds_readMagic {P : ∀ {α : Type}, Reader α → Prop} (hP : Reader.IsPermissive P) :
    P readMagic := by
  refine hP.bind (hP.endsShort Reader.endsShort_u32) fun word => ?_
  split
  · exact hP.throw _
  · exact hP.pure _

theorem isStreaming_readMagic : IsStreaming readMagic :=
  holds_readMagic Reader.IsStreaming.isPermissive

theorem reads_readMagic_iff {used : Bytes} :
    Reads readMagic used () ↔ used = Bytes.ofUInt32 magic := by
  constructor
  · intro h
    obtain ⟨word, _, _, _, rfl, hword, hrun⟩ := Reader.isStreaming_u32.run_bind h.run_start
    split at hrun
    · cases hrun
    · rename_i hmagic
      obtain ⟨_, rfl⟩ := Reader.pure_ends hrun
      rw [List.append_nil, Reader.reads_u32_iff.1 hword, Classical.not_not.1 hmagic]
  · rintro rfl
    exact (Reader.reads_u32_iff.2 rfl).bind_nil (Reader.reads_pure_iff.2 ⟨rfl, rfl⟩)

theorem isStreaming_read : IsStreaming ClassFile.read :=
  isStreaming_readMagic.bind fun _ => Reader.isStreaming_u16.bind fun _ =>
    Reader.isStreaming_u16.bind fun _ => ConstantPool.isStreaming_pool.bind fun _ =>
      Reader.isStreaming_flags.bind fun _ => Reader.isStreaming_u16.bind fun _ =>
        Reader.isStreaming_u16.bind fun _ =>
          (Reader.isStreaming_table Reader.isStreaming_u16).bind fun _ =>
            (Reader.isStreaming_table Member.isStreaming_read).bind fun _ =>
              (Reader.isStreaming_table Member.isStreaming_read).bind fun _ =>
                Attribute.isStreaming_readTable.bind fun _ => Reader.isStreaming_pure _

/-- The bytes of a class file, given those of its pool, flags and members. -/
def layout (file : ClassFile) (pool flags interfaces fields methods attributes : Bytes) : Bytes :=
  Bytes.ofUInt32 magic ++ (Bytes.ofUInt16 file.version.minor ++
    (Bytes.ofUInt16 file.version.major ++ (pool ++ (flags ++ (Bytes.ofUInt16 file.thisClass ++
      (Bytes.ofUInt16 file.superClass ++ (interfaces ++ (fields ++ (methods ++ attributes)))))))))

/-- A class file is read from the bytes of its parts. -/
theorem reads_iff {used : Bytes} {file : ClassFile} :
    Reads ClassFile.read used file ↔
      ∃ pool flags interfaces fields methods attributes,
        Reads ConstantPool.read pool file.pool ∧ Reads Reader.flags flags file.flags ∧
        Written.words file.interfaces = .ok interfaces ∧
        Reads (Reader.table Member.read) fields file.fields ∧
        Reads (Reader.table Member.read) methods file.methods ∧
        Attribute.writeTable file.attributes = .ok attributes ∧
        file.layout pool flags interfaces fields methods attributes = used := by
  constructor
  · intro h
    obtain ⟨_, _, _, _, rfl, hmagic, hrun⟩ := isStreaming_readMagic.run_bind h.run_start
    obtain ⟨minor, _, _, _, rfl, hminor, hrun⟩ := Reader.isStreaming_u16.run_bind hrun
    obtain ⟨major, _, _, _, rfl, hmajor, hrun⟩ := Reader.isStreaming_u16.run_bind hrun
    obtain ⟨pool, _, _, _, rfl, hpool, hrun⟩ := ConstantPool.isStreaming_pool.run_bind hrun
    obtain ⟨flags, _, _, _, rfl, hflags, hrun⟩ := Reader.isStreaming_flags.run_bind hrun
    obtain ⟨this, _, _, _, rfl, hthis, hrun⟩ := Reader.isStreaming_u16.run_bind hrun
    obtain ⟨super, _, _, _, rfl, hsuper, hrun⟩ := Reader.isStreaming_u16.run_bind hrun
    obtain ⟨interfaces, _, _, _, rfl, hinterfaces, hrun⟩ :=
      (Reader.isStreaming_table Reader.isStreaming_u16).run_bind hrun
    obtain ⟨fields, _, _, _, rfl, hfields, hrun⟩ :=
      (Reader.isStreaming_table Member.isStreaming_read).run_bind hrun
    obtain ⟨methods, _, _, _, rfl, hmethods, hrun⟩ :=
      (Reader.isStreaming_table Member.isStreaming_read).run_bind hrun
    obtain ⟨attributes, _, _, _, rfl, hattributes, hrun⟩ :=
      Attribute.isStreaming_readTable.run_bind hrun
    obtain ⟨rfl, rfl⟩ := Reader.pure_ends hrun
    refine ⟨_, _, _, _, _, _, hpool, hflags, Written.reads_words_iff.1 hinterfaces, hfields,
      hmethods, Attribute.reads_readTable_iff.1 hattributes, ?_⟩
    rw [layout, reads_readMagic_iff.1 hmagic, Reader.reads_u16_iff.1 hminor,
      Reader.reads_u16_iff.1 hmajor, Reader.reads_u16_iff.1 hthis, Reader.reads_u16_iff.1 hsuper,
      List.append_nil]
  · rintro ⟨pool, flags, interfaces, fields, methods, attributes, hpool, hflags, hinterfaces,
      hfields, hmethods, hattributes, rfl⟩
    rw [layout]
    refine (reads_readMagic_iff.2 rfl).bind ((Reader.reads_u16_iff.2 rfl).bind ?_)
    refine (Reader.reads_u16_iff.2 rfl).bind (hpool.bind (hflags.bind ?_))
    refine (Reader.reads_u16_iff.2 rfl).bind ((Reader.reads_u16_iff.2 rfl).bind ?_)
    refine (Written.reads_words_iff.2 hinterfaces).bind (hfields.bind (hmethods.bind ?_))
    exact (Attribute.reads_readTable_iff.2 hattributes).bind_pure _

theorem layout_append (file : ClassFile) (pool flags interfaces fields methods front back : Bytes) :
    file.layout pool flags interfaces fields methods (front ++ back) =
      file.layout pool flags interfaces fields methods front ++ back := by
  simp only [layout, List.append_assoc]

/-- Once all that stands before it has been read, a class file goes on with its attribute table. -/
theorem read_layout (file : ClassFile) {pool flags interfaces fields methods : Bytes}
    (hpool : Reads ConstantPool.read pool file.pool) (hflags : Reads Reader.flags flags file.flags)
    (hinterfaces : Written.words file.interfaces = .ok interfaces)
    (hfields : Reads (Reader.table Member.read) fields file.fields)
    (hmethods : Reads (Reader.table Member.read) methods file.methods) (attributes : Bytes) :
    ∃ offset, read (.start (file.layout pool flags interfaces fields methods attributes)) =
      ((fun found => { file with attributes := found }) <$> Attribute.readTable)
        ⟨offset, attributes⟩ := by
  unfold read layout Cursor.start
  rw [(reads_readMagic_iff.2 rfl).run_bind, (Reader.reads_u16_iff.2 rfl).run_bind,
    (Reader.reads_u16_iff.2 rfl).run_bind, hpool.run_bind, hflags.run_bind,
    (Reader.reads_u16_iff.2 rfl).run_bind, (Reader.reads_u16_iff.2 rfl).run_bind,
    (Written.reads_words_iff.2 hinterfaces).run_bind, hfields.run_bind, hmethods.run_bind]
  exact ⟨_, rfl⟩

theorem toBytes_eq_ok_iff {file : ClassFile} {bytes : Bytes} :
    file.toBytes = .ok bytes ↔
      ∃ pool interfaces fields methods attributes, file.pool.write = .ok pool ∧
        Written.words file.interfaces = .ok interfaces ∧
        Written.table Member.write file.fields = .ok fields ∧
        Written.table Member.write file.methods = .ok methods ∧
        Attribute.writeTable file.attributes = .ok attributes ∧
        file.layout pool (Bytes.ofUInt16 file.flags.bits) interfaces fields methods attributes =
          bytes := by
  rw [toBytes]
  simp only [Fallible.bind_eq_ok_iff]
  constructor
  · rintro ⟨pool, hpool, interfaces, hinterfaces, fields, hfields, methods, hmethods, attributes,
      hattributes, hpure⟩
    cases hpure
    refine ⟨pool, interfaces, fields, methods, attributes, hpool, hinterfaces, hfields, hmethods,
      hattributes, ?_⟩
    simp only [layout, List.append_assoc]
  · rintro ⟨pool, interfaces, fields, methods, attributes, hpool, hinterfaces, hfields, hmethods,
      hattributes, rfl⟩
    refine ⟨pool, hpool, interfaces, hinterfaces, fields, hfields, methods, hmethods, attributes,
      hattributes, ?_⟩
    simp only [layout, List.append_assoc]
    rfl

end ClassFile
end ModuleRecord
