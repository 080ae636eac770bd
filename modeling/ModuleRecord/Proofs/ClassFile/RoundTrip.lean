import ModuleRecord.Proofs.ClassFile.Layout

/-!
# Which class files survive being written

A class file that has been written reads back as one that agrees with it exactly if it is well
formed: its slots are paired and can be numbered, and its texts and tables can be counted in 16
bits (`reads_back_iff_wellFormed`).
-/

namespace ModuleRecord
namespace ClassFile

open ConstantPool (Entry IsPaired)
open Reader (Reads)

/-! ## Agreement -/

/-- Two class files have the same contents. How their pools are searched is not compared. -/
structure Agrees (file other : ClassFile) : Prop where
  version : file.version = other.version
  pool : file.pool.toList = other.pool.toList
  flags : file.flags = other.flags
  thisClass : file.thisClass = other.thisClass
  superClass : file.superClass = other.superClass
  interfaces : file.interfaces = other.interfaces
  fields : file.fields = other.fields
  methods : file.methods = other.methods
  attributes : file.attributes = other.attributes

/-! ## Well-formed class files -/

/-- The attribute tables of a class file: its own, and those of its fields and methods. -/
def attributeTables (file : ClassFile) : List (List Attribute) :=
  file.attributes :: (file.fields ++ file.methods).map Member.attributes

/-- There are no more slots, bytes of a text and rows of a table than can be counted. -/
structure IsCountable (file : ClassFile) : Prop where
  slots : file.pool.size ≤ 65534
  texts : ∀ text, .utf8 text ∈ file.pool.toList → (ModifiedUtf8.encode text).length ≤ 65535
  interfaces : file.interfaces.length ≤ 65535
  fields : file.fields.length ≤ 65535
  methods : file.methods.length ≤ 65535
  attributes : ∀ table ∈ file.attributeTables, table.length ≤ 65535

/-- All can be counted, and the slots of the pool are paired. -/
structure WellFormed (file : ClassFile) : Prop extends IsCountable file where
  paired : IsPaired file.pool.toList

/-- Every attribute body can be counted in 32 bits. -/
def HasBoundedBodies (file : ClassFile) : Prop :=
  ∀ table ∈ file.attributeTables, ∀ item ∈ table, item.body.length ≤ 0xFFFFFFFF

theorem forall_attributeTables {file : ClassFile} {p : List Attribute → Prop} :
    (∀ table ∈ file.attributeTables, p table) ↔
      p file.attributes ∧ (∀ member ∈ file.fields, p member.attributes) ∧
        ∀ member ∈ file.methods, p member.attributes := by
  rw [attributeTables, List.forall_mem_cons, List.forall_mem_map, List.forall_mem_append]

/-! ## Writing -/

/-- An entry is written unless it is a text that is too long. -/
theorem exists_write_iff {entry : Entry} :
    (∃ part, entry.write = .ok part) ↔
      ∀ text, entry = .utf8 text → (ModifiedUtf8.encode text).length ≤ 65535 := by
  constructor
  · rintro ⟨part, hpart⟩ text rfl
    exact (ConstantPool.write_utf8_eq_ok_iff.1 hpart).1
  · intro h
    cases entry with
    | utf8 text => exact ⟨_, ConstantPool.write_utf8_eq_ok_iff.2 ⟨h text rfl, rfl⟩⟩
    | _ => exact ⟨_, rfl⟩

theorem exists_write_pool_iff {pool : ConstantPool} :
    (∃ bytes, pool.write = .ok bytes) ↔
      pool.size ≤ 65534 ∧
        ∀ text, .utf8 text ∈ pool.toList → (ModifiedUtf8.encode text).length ≤ 65535 := by
  simp only [ConstantPool.write_pool_eq_ok_iff]
  have hparts : (∃ parts, List.Forall₂ (fun entry part => Entry.write entry = .ok part) pool.toList
      parts) ↔ ∀ entry ∈ pool.toList, ∃ part, entry.write = .ok part := Fallible.exists_forall₂_iff
  constructor
  · rintro ⟨_, hsize, parts, hall, -⟩
    refine ⟨hsize, fun text htext => ?_⟩
    exact exists_write_iff.1 (hparts.1 ⟨parts, hall⟩ _ htext) text rfl
  · rintro ⟨hsize, htexts⟩
    obtain ⟨parts, hall⟩ := hparts.2 fun entry hentry => exists_write_iff.2 fun text htext =>
      htexts text (htext ▸ hentry)
    exact ⟨_, hsize, parts, hall, rfl⟩

theorem exists_writeTable_iff {table : List Attribute}
    (hbodies : ∀ item ∈ table, item.body.length ≤ 0xFFFFFFFF) :
    (∃ bytes, Attribute.writeTable table = .ok bytes) ↔ table.length ≤ 65535 := by
  rw [Attribute.writeTable, Written.exists_table_ok_iff]
  refine ⟨And.left, fun hle => ⟨hle, fun item hitem => ?_⟩⟩
  exact ⟨_, Attribute.write_eq_ok_iff.2 ⟨hbodies item hitem, rfl⟩⟩

theorem exists_writeMembers_iff {members : List Member}
    (hbodies : ∀ member ∈ members, ∀ item ∈ member.attributes, item.body.length ≤ 0xFFFFFFFF) :
    (∃ bytes, Written.table Member.write members = .ok bytes) ↔
      members.length ≤ 65535 ∧ ∀ member ∈ members, member.attributes.length ≤ 65535 := by
  rw [Written.exists_table_ok_iff]
  refine and_congr_right fun _ => forall₂_congr fun member hmember => ?_
  rw [← exists_writeTable_iff (hbodies member hmember)]
  simp only [Member.write_eq_ok_iff]
  constructor
  · rintro ⟨_, attributes, hattributes, -⟩
    exact ⟨attributes, hattributes⟩
  · rintro ⟨attributes, hattributes⟩
    exact ⟨_, attributes, hattributes, rfl⟩

/-- A class file is written if all can be counted. -/
theorem exists_toBytes_iff {file : ClassFile} (hbodies : file.HasBoundedBodies) :
    (∃ bytes, file.toBytes = .ok bytes) ↔ file.IsCountable := by
  obtain ⟨hown, hfields, hmethods⟩ := forall_attributeTables.1 hbodies
  have hsplit : (∃ bytes, file.toBytes = .ok bytes) ↔
      (∃ bytes, file.pool.write = .ok bytes) ∧
        (∃ bytes, Written.words file.interfaces = .ok bytes) ∧
        (∃ bytes, Written.table Member.write file.fields = .ok bytes) ∧
        (∃ bytes, Written.table Member.write file.methods = .ok bytes) ∧
        ∃ bytes, Attribute.writeTable file.attributes = .ok bytes := by
    simp only [toBytes_eq_ok_iff]
    constructor
    · rintro ⟨_, pool, interfaces, fields, methods, attributes, h₁, h₂, h₃, h₄, h₅, -⟩
      exact ⟨⟨pool, h₁⟩, ⟨interfaces, h₂⟩, ⟨fields, h₃⟩, ⟨methods, h₄⟩, ⟨attributes, h₅⟩⟩
    · rintro ⟨⟨pool, h₁⟩, ⟨interfaces, h₂⟩, ⟨fields, h₃⟩, ⟨methods, h₄⟩, ⟨attributes, h₅⟩⟩
      exact ⟨_, pool, interfaces, fields, methods, attributes, h₁, h₂, h₃, h₄, h₅, rfl⟩
  rw [hsplit, exists_write_pool_iff, Written.exists_words_ok_iff, exists_writeMembers_iff hfields,
    exists_writeMembers_iff hmethods, exists_writeTable_iff hown]
  constructor
  · rintro ⟨⟨hslots, htexts⟩, hinterfaces, ⟨hnfields, hf⟩, ⟨hnmethods, hm⟩, hnown⟩
    exact ⟨hslots, htexts, hinterfaces, hnfields, hnmethods,
      forall_attributeTables.2 ⟨hnown, hf, hm⟩⟩
  · rintro ⟨hslots, htexts, hinterfaces, hnfields, hnmethods, htables⟩
    obtain ⟨hnown, hf, hm⟩ := forall_attributeTables.1 htables
    exact ⟨⟨hslots, htexts⟩, hinterfaces, ⟨hnfields, hf⟩, ⟨hnmethods, hm⟩, hnown⟩

/-! ## Reading back -/

/-- The class file whose pool is built from the slots alone. -/
def rebuilt (file : ClassFile) : ClassFile :=
  { file with pool := .ofList file.pool.toList }

theorem rebuilt_agrees (file : ClassFile) : file.rebuilt.Agrees file :=
  ⟨rfl, rfl, rfl, rfl, rfl, rfl, rfl, rfl, rfl⟩

/-- The bytes of a class file end in its attribute table, and are read up to there whatever stands
in the place of that table. -/
theorem exists_head_of_toBytes {file : ClassFile} {bytes : Bytes}
    (hpaired : IsPaired file.pool.toList) (h : file.toBytes = .ok bytes) :
    ∃ head table, Attribute.writeTable file.attributes = .ok table ∧ head ++ table = bytes ∧
      ∀ other, ∃ offset, read (.start (head ++ other)) =
        ((fun found => { file.rebuilt with attributes := found }) <$> Attribute.readTable)
          ⟨offset, other⟩ := by
  obtain ⟨pool, interfaces, fields, methods, table, hpool, hinterfaces, hfields, hmethods, htable,
    rfl⟩ := toBytes_eq_ok_iff.1 h
  have happend := file.layout_append pool (Bytes.ofUInt16 file.flags.bits) interfaces fields methods
  refine ⟨_, table, htable, (happend [] table).symm, fun other => ?_⟩
  rw [← happend [] other]
  exact file.rebuilt.read_layout (ConstantPool.reads_of_write hpaired hpool)
    (Reader.reads_flags_bits file.flags) hinterfaces (Member.reads_table_of_write hfields)
    (Member.reads_table_of_write hmethods) other

/-- A class file with paired slots is read from exactly what is written for it. -/
theorem reads_of_toBytes {file : ClassFile} {bytes : Bytes} (hpaired : IsPaired file.pool.toList)
    (h : file.toBytes = .ok bytes) : Reads read bytes file.rebuilt := by
  obtain ⟨pool, interfaces, fields, methods, table, hpool, hinterfaces, hfields, hmethods, htable,
    rfl⟩ := toBytes_eq_ok_iff.1 h
  exact reads_iff.2 ⟨pool, _, interfaces, fields, methods, table,
    ConstantPool.reads_of_write hpaired hpool, Reader.reads_flags_bits file.flags, hinterfaces,
    Member.reads_table_of_write hfields, Member.reads_table_of_write hmethods, htable, rfl⟩

/-- A class file with paired slots reads back from what is written for it. -/
theorem parse_of_toBytes {file : ClassFile} {bytes : Bytes} (hpaired : IsPaired file.pool.toList)
    (h : file.toBytes = .ok bytes) : parse bytes = .ok file.rebuilt :=
  (reads_of_toBytes hpaired h).run

/-- The pool of a class file that was read has paired slots, and is built from them alone. -/
theorem pool_of_parse {bytes : Bytes} {file : ClassFile} (h : parse bytes = .ok file) :
    IsPaired file.pool.toList ∧ file.rebuilt = file := by
  obtain ⟨used, rest, rfl, hreads⟩ := (Reader.run_eq_ok_iff isStreaming_read).1 h
  obtain ⟨pool, flags, interfaces, fields, methods, attributes, hpool, -⟩ := reads_iff.1 hreads
  obtain ⟨hpaired, -, hbuilt⟩ := ConstantPool.isPaired_of_reads hpool
  exact ⟨hpaired, by rw [rebuilt, ← hbuilt]⟩

/-- A class file is written, and reads back as one that agrees with it, exactly if it is well
formed. -/
theorem reads_back_iff_wellFormed {file : ClassFile} (hbodies : file.HasBoundedBodies) :
    (∃ bytes again, file.toBytes = .ok bytes ∧ parse bytes = .ok again ∧ again.Agrees file) ↔
      file.WellFormed := by
  constructor
  · rintro ⟨bytes, again, hwritten, hparse, hagrees⟩
    have hcountable := (exists_toBytes_iff hbodies).1 ⟨bytes, hwritten⟩
    refine ⟨hcountable, ?_⟩
    rw [← hagrees.pool]
    exact (pool_of_parse hparse).1
  · rintro ⟨hcountable, hpaired⟩
    obtain ⟨bytes, hwritten⟩ := (exists_toBytes_iff hbodies).2 hcountable
    exact ⟨bytes, file.rebuilt, hwritten, parse_of_toBytes hpaired hwritten, rebuilt_agrees file⟩

/-- A class file with wide constants, one of them not a number, and a field with an attribute. -/
def wideConstants : ClassFile where
  version := ⟨61, 0⟩
  pool := .ofList [.utf8 "C", .long (-1), .unusable, .double 0x7FF8000000000001, .unusable,
    .symbol .classSymbol 1]
  flags := .truncate 0x0021
  thisClass := 6
  superClass := 0
  interfaces := [6, 6]
  fields := [⟨.truncate 0x0018, 1, 1, [⟨1, [0xCA, 0xFE]⟩, ⟨1, []⟩]⟩]
  methods := []
  attributes := [⟨1, [0]⟩]

theorem isPaired_wideConstants : IsPaired wideConstants.pool.toList := by
  refine ConstantPool.isPaired_iff.2 ⟨[.utf8 "C", .long (-1), .double 0x7FF8000000000001,
    .symbol .classSymbol 1], ?_, rfl⟩
  decide

theorem wideConstants_reads_back : wideConstants.HasBoundedBodies ∧
    ∃ bytes again, wideConstants.toBytes = .ok bytes ∧ parse bytes = .ok again ∧
      again.Agrees wideConstants := by
  have hbodies : wideConstants.HasBoundedBodies := by
    unfold HasBoundedBodies
    decide
  have htexts (text : String) (h : .utf8 text ∈ wideConstants.pool.toList) :
      (ModifiedUtf8.encode text).length ≤ 65535 := by
    have heq : text = "C" := by simpa [wideConstants] using h
    rw [heq]
    decide
  refine ⟨hbodies, (reads_back_iff_wellFormed hbodies).2 ⟨⟨?_, htexts, ?_, ?_, ?_, ?_⟩,
    isPaired_wideConstants⟩⟩
  all_goals decide

end ClassFile
end ModuleRecord
