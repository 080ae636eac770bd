import ModuleRecord.Proofs.ClassFile.RoundTrip

/-!
# What reading forgives

The same class file can stand in different bytes: its count of slots may be zero in place of one,
its texts need not be spelled in the shortest way, its flag words may have unknown bits, and other
bytes may follow it. A `Source` keeps all of this, so that each byte string that can be read is that
of a source (`parse_eq_ok_iff`). Writing what was read never takes more bytes, reads back as the
same class file, and gives the same bytes exactly if the source is canonical
(`toBytes_of_parse`).
-/

namespace ModuleRecord

open ConstantPool (Entry EntrySource)

/-! ## Respelled bytes -/

/-- The new bytes are no more than the old ones, and the same ones only on a condition. -/
structure Respelled (old new : Bytes) (same : Prop) : Prop where
  length_le : new.length ≤ old.length
  eq_iff : new = old ↔ same

namespace Respelled

variable {old new old' new' : Bytes} {same same' : Prop}

theorem refl (bytes : Bytes) : Respelled bytes bytes True :=
  ⟨Nat.le_refl _, iff_of_true rfl trivial⟩

theorem congr (h : Respelled old new same) (hiff : same ↔ same') : Respelled old new same' :=
  ⟨h.length_le, h.eq_iff.trans hiff⟩

/-- Neither part can make up for what the other one saves. -/
theorem append (h : Respelled old new same) (h' : Respelled old' new' same') :
    Respelled (old ++ old') (new ++ new') (same ∧ same') := by
  have hle := h.length_le
  have hle' := h'.length_le
  refine ⟨by rw [List.length_append, List.length_append]; omega, ?_⟩
  rw [← h.eq_iff, ← h'.eq_iff]
  constructor
  · intro heq
    have hlen := congrArg List.length heq
    rw [List.length_append, List.length_append] at hlen
    exact List.append_inj heq (by omega)
  · rintro ⟨rfl, rfl⟩
    rfl

/-- Bytes that stay may stand before those that are respelled. -/
theorem append_left (front : Bytes) (h : Respelled old new same) :
    Respelled (front ++ old) (front ++ new) same := by
  have happend := (refl front).append h
  rwa [true_and] at happend

/-- Bytes behind their own count are respelled with it. -/
theorem counted (h : Respelled old new same) :
    Respelled (Bytes.ofNat 2 old.length ++ old) (Bytes.ofNat 2 new.length ++ new) same := by
  have hle := h.length_le
  refine ⟨by simp only [List.length_append, Bytes.length_ofNat]; omega, ?_⟩
  rw [← h.eq_iff]
  constructor
  · intro heq
    exact (List.append_inj heq (by rw [Bytes.length_ofNat, Bytes.length_ofNat])).2
  · rintro rfl
    rfl

theorem flatten {α : Type} {spelled : α → Bytes} {isSame : α → Prop} {items : List α}
    {parts : List Bytes}
    (h : List.Forall₂ (fun item part => Respelled (spelled item) part (isSame item)) items parts) :
    Respelled (items.flatMap spelled) parts.flatten (∀ item ∈ items, isSame item) := by
  induction h with
  | nil => exact ⟨Nat.le_refl _, iff_of_true rfl fun _ hitem => absurd hitem (by simp)⟩
  | cons hpart _ ih =>
    rw [List.flatMap_cons, List.flatten_cons, List.forall_mem_cons]
    exact hpart.append ih

end Respelled

/-! ## Flag words -/

/-- All bits of a word of access flags are known. -/
def HasKnownFlags (word : UInt16) : Prop :=
  word &&& FlagKind.access.mask = word

theorem respelled_flags (word : UInt16) :
    Respelled (Bytes.ofUInt16 word) (Bytes.ofUInt16 (@FlagSet.truncate .access word).bits)
      (HasKnownFlags word) := by
  refine ⟨by simp, ?_⟩
  rw [Bytes.ofUInt16_inj]
  rfl

/-! ## Pools -/

namespace ConstantPool

/-- A text is spelled by its shortest groups; nothing is asked of other entries. -/
def EntrySource.IsCanonical : EntrySource → Prop
  | text body => ModifiedUtf8.IsCanonical body
  | plain _ => True

/-- An entry that was read can be written, in no more bytes. -/
theorem EntrySource.exists_write_of_denotes {source : EntrySource} {entry : Entry}
    (h : source.Denotes entry) :
    ∃ part, entry.write = .ok part ∧ Respelled source.bytes part source.IsCanonical := by
  cases source with
  | plain plainEntry =>
    obtain ⟨hplain, rfl⟩ := h
    obtain ⟨tag, body, _, _, _, hwrite⟩ := write_of_isPlain hplain
    refine ⟨_, hwrite, ?_⟩
    rw [EntrySource.bytes, hwrite]
    exact Respelled.refl _
  | text body =>
    obtain ⟨hle, found, hdecode, rfl⟩ := h
    have hlen := ModifiedUtf8.length_encode_le hdecode
    refine ⟨_, write_utf8_eq_ok_iff.2 ⟨by omega, rfl⟩, ?_⟩
    have hbody : Respelled body (ModifiedUtf8.encode found) (ModifiedUtf8.IsCanonical body) :=
      ⟨hlen, ModifiedUtf8.encode_eq_iff_isCanonical hdecode⟩
    exact hbody.counted.append_left [Tag.utf8.toByte]

theorem exists_parts_of_denotes {sources : List EntrySource} {entries : List Entry}
    (h : List.Forall₂ EntrySource.Denotes sources entries) :
    ∃ parts, List.Forall₂ (fun entry part => entry.write = .ok part) (entries.flatMap Entry.slots)
        parts ∧
      Respelled (sources.flatMap EntrySource.bytes) parts.flatten
        (∀ source ∈ sources, source.IsCanonical) := by
  induction h with
  | nil => exact ⟨[], .nil, Respelled.flatten .nil⟩
  | @cons source entry sources entries hsource _ ih =>
    obtain ⟨part, hpart, hspelled⟩ := EntrySource.exists_write_of_denotes hsource
    obtain ⟨parts, hparts, hrest⟩ := ih
    have hall := hspelled.append hrest
    rw [← List.forall_mem_cons] at hall
    by_cases hwide : entry.isWide = true
    · refine ⟨part :: [] :: parts, ?_, hall⟩
      rw [List.flatMap_cons, Entry.slots_of_isWide hwide]
      exact .cons hpart (.cons rfl hparts)
    · refine ⟨part :: parts, ?_, hall⟩
      rw [List.flatMap_cons, Entry.slots_of_not_isWide hwide]
      exact .cons hpart hparts

/-- A pool that was read can be written, in no more bytes. -/
theorem exists_write_of_denotes {sources : List EntrySource} {entries : List Entry} {count : UInt16}
    (h : List.Forall₂ EntrySource.Denotes sources entries)
    (hcount : (entries.flatMap Entry.slots).length = count.toNat - 1) :
    ∃ written, (ofList (entries.flatMap Entry.slots)).write = .ok written ∧
      Respelled (Bytes.ofUInt16 count ++ sources.flatMap EntrySource.bytes) written
        (count ≠ 0 ∧ ∀ source ∈ sources, source.IsCanonical) := by
  obtain ⟨parts, hparts, hspelled⟩ := exists_parts_of_denotes h
  have hlt := count.toNat_lt
  refine ⟨_, write_pool_eq_ok_iff.2 ⟨?_, parts, hparts, rfl⟩, Respelled.append ⟨?_, ?_⟩ hspelled⟩
  · rw [size_ofList, hcount, capacity]
    omega
  · simp
  · -- the written count is one more than the slots, also where the old one was zero
    rw [size_ofList, hcount, Bytes.ofNat_two_eq_ofUInt16 (by omega), Bytes.ofUInt16_inj,
      ← UInt16.toNat_inj, UInt16.toNat_ofNat_of_lt' (by rw [UInt16.size]; omega), ne_eq,
      ← UInt16.toNat_inj]
    change _ ↔ ¬ count.toNat = 0
    omega

end ConstantPool

/-! ## Members -/

/-- A field or method as it stands in the bytes of a class file. -/
structure MemberSource where
  /-- The word of the access flags, with unknown bits. -/
  flags : UInt16
  name : UInt16
  descriptor : UInt16
  attributes : List Attribute

namespace MemberSource

/-- The bytes of the member. -/
def bytes (source : MemberSource) : Bytes :=
  Bytes.ofUInt16 source.flags ++ (Bytes.ofUInt16 source.name ++
    (Bytes.ofUInt16 source.descriptor ++ Attribute.tableBytes source.attributes))

/-- The bytes are those of the given member. -/
structure Denotes (source : MemberSource) (member : Member) : Prop where
  flags : FlagSet.truncate source.flags = member.flags
  name : source.name = member.name
  descriptor : source.descriptor = member.descriptor
  attributes : source.attributes = member.attributes
  isTable : Attribute.IsTable source.attributes

theorem reads_iff {used : Bytes} {member : Member} :
    Reader.Reads Member.read used member ↔
      ∃ source : MemberSource, source.bytes = used ∧ source.Denotes member := by
  rw [Member.reads_iff]
  constructor
  · rintro ⟨bits, _, hbits, hattributes, rfl⟩
    obtain ⟨htable, rfl⟩ := Attribute.writeTable_eq_ok_iff.1 hattributes
    exact ⟨⟨bits, member.name, member.descriptor, member.attributes⟩, rfl, hbits, rfl, rfl, rfl,
      htable⟩
  · rintro ⟨source, rfl, hbits, hname, hdescriptor, hattributes, htable⟩
    refine ⟨source.flags, _, hbits, Attribute.writeTable_eq_ok_iff.2 ⟨?_, rfl⟩, ?_⟩
    · rwa [← hattributes]
    · rw [bytes, hname, hdescriptor, hattributes]

/-- A member that was read can be written, in as many bytes. -/
theorem exists_write_of_denotes {source : MemberSource} {member : Member}
    (h : source.Denotes member) :
    ∃ part, member.write = .ok part ∧ Respelled source.bytes part (HasKnownFlags source.flags) := by
  have htable := h.isTable
  rw [h.attributes] at htable
  refine ⟨_, Member.write_eq_ok_iff.2 ⟨_, Attribute.writeTable_eq_ok_iff.2 ⟨htable, rfl⟩, rfl⟩, ?_⟩
  have hspelled := (respelled_flags source.flags).append (Respelled.refl
    (Bytes.ofUInt16 source.name ++ (Bytes.ofUInt16 source.descriptor ++
      Attribute.tableBytes source.attributes)))
  rw [and_true, h.flags, h.name, h.descriptor, h.attributes] at hspelled
  rwa [bytes, h.name, h.descriptor, h.attributes]

/-- A table of members is read from the count of its rows and the bytes of their sources. -/
theorem reads_table_iff {used : Bytes} {members : List Member} :
    Reader.Reads (Reader.table Member.read) used members ↔
      ∃ sources, List.Forall₂ Denotes sources members ∧ sources.length ≤ 0xFFFF ∧
        Bytes.ofNat 2 sources.length ++ sources.flatMap bytes = used := by
  rw [Reader.reads_table_iff Member.isStreaming_read]
  constructor
  · rintro ⟨hle, parts, hparts, rfl⟩
    have hsources : ∃ sources, List.Forall₂ Denotes sources members ∧
        sources.flatMap bytes = parts.flatten := by
      clear hle
      induction hparts with
      | nil => exact ⟨[], .nil, rfl⟩
      | cons hpart _ ih =>
        obtain ⟨source, rfl, hdenotes⟩ := reads_iff.1 hpart
        obtain ⟨sources, hall, hbytes⟩ := ih
        exact ⟨source :: sources, .cons hdenotes hall, by
          rw [List.flatMap_cons, List.flatten_cons, hbytes]⟩
    obtain ⟨sources, hall, hbytes⟩ := hsources
    have hlen := hall.length_eq
    exact ⟨sources, hall, by omega, by rw [hbytes, hlen]⟩
  · rintro ⟨sources, hall, hle, rfl⟩
    have hlen := hall.length_eq
    refine ⟨by omega, sources.map bytes, ?_, by rw [hlen, List.flatMap_def]⟩
    rw [List.forall₂_map_left_iff]
    exact hall.imp fun source member hdenotes => reads_iff.2 ⟨source, rfl, hdenotes⟩

theorem exists_table_of_denotes {sources : List MemberSource} {members : List Member}
    (h : List.Forall₂ Denotes sources members) (hle : sources.length ≤ 0xFFFF) :
    ∃ written, Written.table Member.write members = .ok written ∧
      Respelled (Bytes.ofNat 2 sources.length ++ sources.flatMap bytes) written
        (∀ source ∈ sources, HasKnownFlags source.flags) := by
  have hparts : ∃ parts, List.Forall₂ (fun member part => member.write = .ok part) members parts ∧
      List.Forall₂ (fun source part => Respelled source.bytes part (HasKnownFlags source.flags))
        sources parts := by
    clear hle
    induction h with
    | nil => exact ⟨[], .nil, .nil⟩
    | cons hdenotes _ ih =>
      obtain ⟨part, hpart, hspelled⟩ := exists_write_of_denotes hdenotes
      obtain ⟨parts, hparts, hall⟩ := ih
      exact ⟨part :: parts, .cons hpart hparts, .cons hspelled hall⟩
  obtain ⟨parts, hparts, hall⟩ := hparts
  have hlen := h.length_eq
  refine ⟨_, Written.table_eq_ok_iff.2 ⟨by omega, parts, hparts, rfl⟩, ?_⟩
  rw [hlen]
  exact (Respelled.flatten hall).append_left _

end MemberSource

/-! ## Class files -/

namespace ClassFile

/-- A class file as it stands in a byte string, with what follows it. -/
structure Source where
  version : FormatVersion
  /-- The declared count of slots. -/
  count : UInt16
  entries : List EntrySource
  /-- The word of the access flags, with unknown bits. -/
  flags : UInt16
  thisClass : UInt16
  superClass : UInt16
  interfaces : List UInt16
  fields : List MemberSource
  methods : List MemberSource
  attributes : List Attribute
  /-- The bytes that follow the class file. -/
  trailing : Bytes

namespace Source

/-- The bytes of the class file and what follows it. -/
def bytes (source : Source) : Bytes :=
  Bytes.ofUInt32 magic ++ (Bytes.ofUInt16 source.version.minor ++
    (Bytes.ofUInt16 source.version.major ++
      ((Bytes.ofUInt16 source.count ++ source.entries.flatMap EntrySource.bytes) ++
        (Bytes.ofUInt16 source.flags ++ (Bytes.ofUInt16 source.thisClass ++
          (Bytes.ofUInt16 source.superClass ++
            ((Bytes.ofNat 2 source.interfaces.length ++ source.interfaces.flatMap Bytes.ofUInt16) ++
              ((Bytes.ofNat 2 source.fields.length ++ source.fields.flatMap MemberSource.bytes) ++
                ((Bytes.ofNat 2 source.methods.length ++
                    source.methods.flatMap MemberSource.bytes) ++
                  Attribute.tableBytes source.attributes))))))))) ++ source.trailing

/-- The bytes are those of the given class file. -/
structure Denotes (source : Source) (file : ClassFile) : Prop where
  version : source.version = file.version
  /-- The entries take one slot less than is declared, and the slots are those of the pool. -/
  pool : ∃ entries, List.Forall₂ EntrySource.Denotes source.entries entries ∧
    (entries.flatMap Entry.slots).length = source.count.toNat - 1 ∧
    file.pool = .ofList (entries.flatMap Entry.slots)
  flags : FlagSet.truncate source.flags = file.flags
  thisClass : source.thisClass = file.thisClass
  superClass : source.superClass = file.superClass
  interfaces : source.interfaces = file.interfaces
  length_interfaces : source.interfaces.length ≤ 0xFFFF
  fields : List.Forall₂ MemberSource.Denotes source.fields file.fields
  length_fields : source.fields.length ≤ 0xFFFF
  methods : List.Forall₂ MemberSource.Denotes source.methods file.methods
  length_methods : source.methods.length ≤ 0xFFFF
  attributes : source.attributes = file.attributes
  isTable : Attribute.IsTable source.attributes

/-- Nothing in the bytes is left to choice: the count is not zero, every text is spelled by its
shortest groups, every access flag is known, and nothing follows the class file. -/
structure IsCanonical (source : Source) : Prop where
  count : source.count ≠ 0
  entries : ∀ entry ∈ source.entries, entry.IsCanonical
  flags : HasKnownFlags source.flags
  fields : ∀ field ∈ source.fields, HasKnownFlags field.flags
  methods : ∀ method ∈ source.methods, HasKnownFlags method.flags
  trailing : source.trailing = []

/-- What a source denotes is read from its bytes but for those that follow it. -/
theorem Denotes.reads {source : Source} {file : ClassFile} (h : source.Denotes file) :
    ∃ used, source.bytes = used ++ source.trailing ∧ Reader.Reads ClassFile.read used file := by
  obtain ⟨entries, hdenotes, hcount, hslots⟩ := h.pool
  have hinterfaces := h.length_interfaces
  have htable := h.isTable
  rw [h.interfaces] at hinterfaces
  rw [h.attributes] at htable
  refine ⟨_, rfl, reads_iff.2 ⟨_, _, _, _, _, _,
    ConstantPool.reads_pool_iff.2 ⟨source.count, source.entries, entries, hdenotes, rfl, hcount,
      hslots⟩,
    Reader.reads_flags_iff.2 ⟨source.flags, rfl, h.flags⟩,
    Written.words_eq_ok_iff.2 ⟨hinterfaces, rfl⟩,
    MemberSource.reads_table_iff.2 ⟨source.fields, h.fields, h.length_fields, rfl⟩,
    MemberSource.reads_table_iff.2 ⟨source.methods, h.methods, h.length_methods, rfl⟩,
    Attribute.writeTable_eq_ok_iff.2 ⟨htable, rfl⟩, ?_⟩⟩
  rw [layout, h.version, h.thisClass, h.superClass, h.interfaces, h.attributes]

end Source

/-- The byte strings that can be read are those of sources. -/
theorem parse_eq_ok_iff {bytes : Bytes} {file : ClassFile} :
    parse bytes = .ok file ↔ ∃ source : Source, source.bytes = bytes ∧ source.Denotes file := by
  rw [parse, Reader.run_eq_ok_iff isStreaming_read]
  constructor
  · rintro ⟨_, trailing, rfl, hreads⟩
    obtain ⟨_, _, _, _, _, _, hpool, hflags, hinterfaces, hfields, hmethods, hattributes, rfl⟩ :=
      reads_iff.1 hreads
    obtain ⟨count, entries, _, hdenotes, rfl, hcount, hslots⟩ :=
      ConstantPool.reads_pool_iff.1 hpool
    obtain ⟨flags, rfl, hbits⟩ := Reader.reads_flags_iff.1 hflags
    obtain ⟨hninterfaces, rfl⟩ := Written.words_eq_ok_iff.1 hinterfaces
    obtain ⟨fields, hfields', hnfields, rfl⟩ := MemberSource.reads_table_iff.1 hfields
    obtain ⟨methods, hmethods', hnmethods, rfl⟩ := MemberSource.reads_table_iff.1 hmethods
    obtain ⟨htable, rfl⟩ := Attribute.writeTable_eq_ok_iff.1 hattributes
    refine ⟨⟨file.version, count, entries, flags, file.thisClass, file.superClass, file.interfaces,
      fields, methods, file.attributes, trailing⟩, rfl, ?_⟩
    exact ⟨rfl, ⟨_, hdenotes, hcount, hslots⟩, hbits, rfl, rfl, rfl, hninterfaces, hfields',
      hnfields, hmethods', hnmethods, rfl, htable⟩
  · rintro ⟨source, rfl, h⟩
    obtain ⟨used, hbytes, hreads⟩ := h.reads
    exact ⟨used, source.trailing, hbytes, hreads⟩

/-- A class file that was read can be written, in no more bytes. -/
theorem Source.exists_toBytes_of_denotes {source : Source} {file : ClassFile}
    (h : source.Denotes file) :
    ∃ written, file.toBytes = .ok written ∧ Respelled source.bytes written source.IsCanonical := by
  obtain ⟨entries, hdenotes, hcount, hslots⟩ := h.pool
  obtain ⟨pool, hpool, hpoolSpelled⟩ := ConstantPool.exists_write_of_denotes hdenotes hcount
  obtain ⟨fields, hfields, hfieldsSpelled⟩ :=
    MemberSource.exists_table_of_denotes h.fields h.length_fields
  obtain ⟨methods, hmethods, hmethodsSpelled⟩ :=
    MemberSource.exists_table_of_denotes h.methods h.length_methods
  have hinterfaces := h.length_interfaces
  have htable := h.isTable
  rw [h.interfaces] at hinterfaces
  rw [h.attributes] at htable
  rw [← hslots] at hpool
  refine ⟨_, toBytes_eq_ok_iff.2 ⟨pool, _, fields, methods, _, hpool,
    Written.words_eq_ok_iff.2 ⟨hinterfaces, rfl⟩, hfields, hmethods,
    Attribute.writeTable_eq_ok_iff.2 ⟨htable, rfl⟩, rfl⟩, ?_⟩
  -- from the last table up to the first word, and then what follows
  have hmembers := hfieldsSpelled.append (hmethodsSpelled.append
    (Respelled.refl (Attribute.tableBytes source.attributes)))
  have htail := hmembers.append_left (Bytes.ofNat 2 source.interfaces.length ++
    source.interfaces.flatMap Bytes.ofUInt16)
  have hnames := (htail.append_left (Bytes.ofUInt16 source.superClass)).append_left
    (Bytes.ofUInt16 source.thisClass)
  have hbody := hpoolSpelled.append ((respelled_flags source.flags).append hnames)
  have hhead := ((hbody.append_left (Bytes.ofUInt16 source.version.major)).append_left
    (Bytes.ofUInt16 source.version.minor)).append_left (Bytes.ofUInt32 magic)
  have htrailing : Respelled source.trailing [] (source.trailing = []) :=
    ⟨Nat.zero_le _, eq_comm⟩
  have hall := hhead.append htrailing
  rw [List.append_nil] at hall
  rw [layout, ← h.version, ← h.flags, ← h.thisClass, ← h.superClass, ← h.interfaces,
    ← h.attributes]
  refine hall.congr ⟨?_, ?_⟩
  · rintro ⟨⟨⟨hnonzero, htexts⟩, hflags, hfields, hmethods, -⟩, htrailing⟩
    exact ⟨hnonzero, htexts, hflags, hfields, hmethods, htrailing⟩
  · rintro ⟨hnonzero, htexts, hflags, hfields, hmethods, htrailing⟩
    exact ⟨⟨⟨hnonzero, htexts⟩, hflags, hfields, hmethods, trivial⟩, htrailing⟩

/-- Writing a class file that was read takes no more bytes, reads back as the same class file, and
gives the same bytes exactly if they leave nothing to choice. -/
theorem toBytes_of_parse {bytes : Bytes} {file : ClassFile} (h : parse bytes = .ok file) :
    ∃ written, file.toBytes = .ok written ∧ written.length ≤ bytes.length ∧
      parse written = .ok file ∧
      (∃ source : Source, source.bytes = bytes ∧ source.Denotes file) ∧
      ∀ source : Source, source.bytes = bytes → source.Denotes file →
        (written = bytes ↔ source.IsCanonical) := by
  obtain ⟨source, hbytes, hdenotes⟩ := parse_eq_ok_iff.1 h
  obtain ⟨hpaired, hrebuilt⟩ := pool_of_parse h
  obtain ⟨written, hwritten, hspelled⟩ := source.exists_toBytes_of_denotes hdenotes
  have hagain := parse_of_toBytes hpaired hwritten
  rw [hrebuilt] at hagain
  refine ⟨written, hwritten, ?_, hagain, ⟨source, hbytes, hdenotes⟩, fun other hother hsame => ?_⟩
  · rw [← hbytes]
    exact hspelled.length_le
  · -- the written bytes depend on the class file alone, so any source of the bytes will do
    obtain ⟨written', hwritten', hspelled'⟩ := other.exists_toBytes_of_denotes hsame
    rw [hwritten, Except.ok.injEq] at hwritten'
    rw [← hother, hwritten']
    exact hspelled'.eq_iff

/-- A class file with an unknown flag, the letter `A` spelled in two bytes, and a byte behind it. -/
def looseSource : Source where
  version := ⟨61, 0⟩
  count := 5
  entries := [.text [0xC1, 0x81], .plain (.long 7), .plain (.symbol .classSymbol 1)]
  flags := 0x8100
  thisClass := 4
  superClass := 0
  interfaces := []
  fields := [⟨0x0800, 1, 1, [⟨1, [0]⟩]⟩]
  methods := []
  attributes := []
  trailing := [0xFF]

/-- What `looseSource` stands for. -/
def looseFile : ClassFile where
  version := ⟨61, 0⟩
  pool := .ofList [.utf8 "A", .long 7, .unusable, .symbol .classSymbol 1]
  flags := .truncate 0x8100
  thisClass := 4
  superClass := 0
  interfaces := []
  fields := [⟨.truncate 0x0800, 1, 1, [⟨1, [0]⟩]⟩]
  methods := []
  attributes := []

/-- Whatever the attribute of its field holds, the source stands for that. -/
theorem looseSource_denotes {body : Bytes} (h : body.length ≤ 0xFFFFFFFF) :
    { looseSource with fields := [⟨0x0800, 1, 1, [⟨1, body⟩]⟩] }.Denotes
      { looseFile with fields := [⟨.truncate 0x0800, 1, 1, [⟨1, body⟩]⟩] } := by
  refine ⟨rfl, ⟨[.utf8 "A", .long 7, .symbol .classSymbol 1], ?_, rfl, rfl⟩, rfl, rfl, rfl, rfl,
    Nat.zero_le _, ?_, by simp, .nil, Nat.zero_le _, rfl, ?_⟩
  · exact .cons ⟨by decide, "A", by decide, rfl⟩ (.cons ⟨rfl, rfl⟩ (.cons ⟨rfl, rfl⟩ .nil))
  · exact .cons ⟨rfl, rfl, rfl, rfl, by simp, List.forall_mem_singleton.2 h⟩ .nil
  · exact ⟨Nat.zero_le _, List.forall_mem_nil _⟩

theorem looseSource_shrinks : parse looseSource.bytes = .ok looseFile ∧
    ∃ written, looseFile.toBytes = .ok written ∧ written.length ≤ looseSource.bytes.length ∧
      parse written = .ok looseFile ∧ written ≠ looseSource.bytes := by
  have hdenotes : looseSource.Denotes looseFile := looseSource_denotes (by decide)
  have hparse := parse_eq_ok_iff.2 ⟨looseSource, rfl, hdenotes⟩
  obtain ⟨written, hwritten, hle, hagain, -, hiff⟩ := toBytes_of_parse hparse
  refine ⟨hparse, written, hwritten, hle, hagain, fun heq => ?_⟩
  exact absurd ((hiff looseSource rfl hdenotes).1 heq).trailing (by decide)

end ClassFile
end ModuleRecord
