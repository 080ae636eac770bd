import ModuleRecord.Proofs.ClassFile.Cuts
import ModuleRecord.Proofs.ClassFile.Respelling

/-!
# Class files that are cut off

A class file is read from the bytes that it takes, whatever follows them, and from no strict prefix
of these. Where it is cut off is told apart by the place of the first byte that is missing
(`ClassFile.parse_of_cut`): an early end outside the attribute tables is named as such, one in a
table by its offset, and one in the body of an attribute by the start of that body.
-/

namespace ModuleRecord

open Reader (Reads Cuts isPlain_u16)

/-! ## Attributes -/

namespace Attribute

/-- The places of the bytes of an attribute: its name and length stand in the table, and then comes
its body. -/
def places (item : Attribute) : List Place :=
  List.replicate 6 .table ++ (List.range item.body.length).map .body

/-- The places of the bytes of an attribute table, its count included. -/
def tablePlaces (attributes : List Attribute) : List Place :=
  List.replicate 2 .table ++ attributes.flatMap places

/-- By itself, an attribute is cut off outside its body or in it. -/
theorem cuts_read {used : Bytes} {item : Attribute} (h : Reads Attribute.read used item) :
    Cuts Attribute.read used item
      (List.replicate 6 .outside ++ (List.range item.body.length).map .body) := by
  obtain ⟨hle, rfl⟩ := write_eq_ok_iff.1 ((reads_iff_write used item).1 h)
  have hname := isPlain_u16.cuts (Bytes.ofUInt16 item.name) _ (Reader.reads_u16_iff.2 rfl)
  have hlength := (Reader.isPlain_word 4).cuts (Bytes.ofNat 4 item.body.length) _
    (Reader.reads_word_iff.2 ⟨Bytes.length_ofNat _ _, Bytes.toNat_ofNat_of_lt (by omega)⟩)
  rw [Bytes.length_ofUInt16] at hname
  rw [Bytes.length_ofNat] at hlength
  rw [List.append_assoc, show 6 = 2 + 4 from rfl, ← List.replicate_append_replicate,
    List.append_assoc]
  exact hname.bind (hlength.bind ((Reader.cuts_body item.body).bind_pure _))

theorem cuts_readTable {used : Bytes} {attributes : List Attribute}
    (h : Reads readTable used attributes) :
    Cuts readTable used attributes (tablePlaces attributes) := by
  have htable := Reader.cuts_table isStreaming_read (fun _ _ => cuts_read)
    (Reader.reads_withinBody_iff.1 h)
  have hwithin := htable.withinBody
  have hplaces (item : Attribute) : (List.replicate 6 Place.outside ++
      (List.range item.body.length).map Place.body).map Place.inTable = places item := by
    rw [List.map_append, List.map_map]
    rfl
  rw [List.map_append, List.map_flatMap, funext hplaces] at hwithin
  exact hwithin

end Attribute

/-! ## Members -/

/-- The places of the bytes of a member: its flags, name and type stand outside. -/
def Member.places (member : Member) : List Place :=
  List.replicate 6 .outside ++ Attribute.tablePlaces member.attributes

theorem Member.cuts_read {used : Bytes} {member : Member} (h : Reads Member.read used member) :
    Cuts Member.read used member member.places := by
  obtain ⟨bits, attributes, hbits, hattributes, rfl⟩ := reads_iff.1 h
  have hflags := Reader.isPlain_flags.cuts _ _ (Reader.reads_flags_iff.2 ⟨bits, rfl, hbits⟩)
  have hname := isPlain_u16.cuts _ _ (Reader.reads_u16_iff.2 (refl (Bytes.ofUInt16 member.name)))
  have hdescriptor :=
    isPlain_u16.cuts _ _ (Reader.reads_u16_iff.2 (refl (Bytes.ofUInt16 member.descriptor)))
  rw [Bytes.length_ofUInt16] at hflags hname hdescriptor
  have htable := Attribute.cuts_readTable (Attribute.reads_readTable_iff.2 hattributes)
  rw [places, show 6 = 2 + (2 + 2) from rfl, ← List.replicate_append_replicate,
    ← List.replicate_append_replicate, List.append_assoc, List.append_assoc]
  exact hflags.bind (hname.bind (hdescriptor.bind (htable.bind_pure _)))

/-! ## Class files -/

namespace ClassFile

/-- The places of the last bytes of a class file: its fields, its methods and its attributes. -/
def tailPlaces (file : ClassFile) : List Place :=
  (List.replicate 2 .outside ++ file.fields.flatMap Member.places) ++
    ((List.replicate 2 .outside ++ file.methods.flatMap Member.places) ++
      Attribute.tablePlaces file.attributes)

/-- The places of the bytes of a class file that takes so many of them: what stands before its
fields stands outside. -/
def places (file : ClassFile) (size : Nat) : List Place :=
  List.replicate (size - file.tailPlaces.length) .outside ++ file.tailPlaces

theorem cuts_read {used : Bytes} {file : ClassFile} (h : Reads ClassFile.read used file) :
    Cuts ClassFile.read used file (file.places used.length) := by
  obtain ⟨pool, flags, interfaces, fields, methods, attributes, hpool, hflags, hinterfaces, hfields,
    hmethods, hattributes, rfl⟩ := reads_iff.1 h
  have hrows {used : Bytes} {members : List Member} :=
    @Reader.cuts_table _ _ Member.isStreaming_read _ (fun _ _ => Member.cuts_read) used members
  have htable := Attribute.cuts_readTable (Attribute.reads_readTable_iff.2 hattributes)
  have hinterfaces' := Written.reads_words_iff.2 hinterfaces
  have hall : ∃ n, Cuts ClassFile.read (file.layout pool flags interfaces fields methods attributes)
      file (List.replicate n .outside ++ file.tailPlaces) := by
    refine (holds_readMagic Reader.IsPlain.isPermissive).bind_cuts (reads_readMagic_iff.2 rfl) ?_
    refine isPlain_u16.bind_cuts (Reader.reads_u16_iff.2 rfl) ?_
    refine isPlain_u16.bind_cuts (Reader.reads_u16_iff.2 rfl) ?_
    refine (ConstantPool.holds_pool Reader.IsPlain.isPermissive).bind_cuts hpool ?_
    refine Reader.isPlain_flags.bind_cuts hflags ?_
    refine isPlain_u16.bind_cuts (Reader.reads_u16_iff.2 rfl) ?_
    refine isPlain_u16.bind_cuts (Reader.reads_u16_iff.2 rfl) ?_
    refine (Reader.endsShort_table Reader.endsShort_u16).isPlain.bind_cuts hinterfaces' ?_
    refine ⟨0, ?_⟩
    rw [List.replicate_zero, List.nil_append, tailPlaces]
    exact (hrows hfields).bind ((hrows hmethods).bind (htable.bind_pure _))
  obtain ⟨n, hall⟩ := hall
  have hlen := hall.length_eq
  rw [List.length_append, List.length_replicate] at hlen
  unfold places
  rw [← hlen, Nat.add_sub_cancel]
  exact hall

/-- A class file that is read is read from the same bytes with anything behind them, and from no
strict prefix of them: where the bytes end too early, the fault is that of the place of the byte
that is missing. -/
theorem parse_of_cut {bytes : Bytes} {file : ClassFile} {stop : Cursor}
    (h : ClassFile.read (.start bytes) = .ok file stop) :
    (∀ rest, parse (bytes.take stop.offset ++ rest) = .ok file) ∧
      (file.places stop.offset).length = stop.offset ∧
      ∀ m place, (file.places stop.offset)[m]? = some place →
        parse (bytes.take m) = .error (place.fault m) := by
  obtain ⟨used, hrest, hreads⟩ := isStreaming_read _ _ _ h
  change bytes = used ++ stop.rest at hrest
  have hstop : stop.offset = used.length := by
    have hrun := hreads 0 stop.rest
    rw [← hrest] at hrun
    change read (.start bytes) = _ at hrun
    rw [h] at hrun
    injection hrun with _ hcursor
    rw [hcursor, Nat.zero_add]
  have hcuts := cuts_read hreads
  have htake : bytes.take used.length = used := by
    rw [hrest, List.take_left]
  rw [hstop, htake]
  refine ⟨?_, hcuts.length_eq, ?_⟩
  · intro rest
    exact (Reader.run_eq_ok_iff isStreaming_read).2 ⟨used, rest, rfl, hreads⟩
  · intro m place hplace
    have hlt : m < used.length := by
      rw [← hcuts.length_eq]
      exact (List.getElem?_eq_some_iff.1 hplace).1
    obtain ⟨place', hrun, -⟩ := hcuts.fails 0 m place hplace
    rw [Nat.zero_add] at hrun
    rw [hrest, List.take_append_of_le_length (Nat.le_of_lt hlt)]
    unfold parse Reader.run Cursor.start
    rw [hrun]

/-- `looseSource` with two bytes in the body of its attribute. -/
def deepSource : Source :=
  { looseSource with fields := [⟨0x0800, 1, 1, [⟨1, [0, 1]⟩]⟩] }

/-- What `deepSource` stands for. -/
def deepFile : ClassFile :=
  { looseFile with fields := [⟨.truncate 0x0800, 1, 1, [⟨1, [0, 1]⟩]⟩] }

/-- The second byte of the body, the name of the attribute and the type of the field are missing. -/
theorem deepSource_cuts : ClassFile.read (.start deepSource.bytes) = .ok deepFile ⟨57, [0xFF]⟩ ∧
    parse (deepSource.bytes.take 52) = .error (.truncatedBody 51) ∧
    parse (deepSource.bytes.take 45) = .error (.truncatedBody 45) ∧
    parse (deepSource.bytes.take 41) = .error .unexpectedEnd := by
  have hdenotes : deepSource.Denotes deepFile := looseSource_denotes (by decide)
  obtain ⟨used, hbytes, hreads⟩ := hdenotes.reads
  have hrun := hreads 0 [0xFF]
  have hlen : used.length = 57 := by
    have hall := congrArg List.length hbytes
    rw [List.length_append, show deepSource.bytes.length = 58 by decide] at hall
    change 58 = used.length + 1 at hall
    omega
  rw [hlen, Nat.zero_add, show used ++ [0xFF] = deepSource.bytes from hbytes.symm] at hrun
  obtain ⟨-, -, hcut⟩ := parse_of_cut hrun
  exact ⟨hrun, hcut 52 (.body 1) rfl, hcut 45 .table rfl, hcut 41 .outside rfl⟩

end ClassFile
end ModuleRecord
