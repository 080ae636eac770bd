import ModuleRecord.Proofs.ClassFile.EarlyEnd
import ModuleRecord.Proofs.ClassFile.RoundTrip

/-!
# Declared lengths that are too short

The attributes of a class file are its last bytes, so the declared length of each one is found by
counting from the end (`ClassFile.lengthField`). Where a shorter length is put in its place, the
attributes before it are read as they are and that one with a body that is cut off. The ones behind
it are read out of step: either they end too early, or they are attributes of some kind or other
(`ClassFile.parse_of_shortened`).
-/

namespace ModuleRecord

open ConstantPool (IsPaired)
open Reader (Reads)

/-! ## Attribute tables -/

namespace Attribute

/-- How many bytes an attribute has. -/
def size (item : Attribute) : Nat :=
  6 + item.body.length

/-- The attribute that is read where only the first bytes of the body are declared. -/
def cut (item : Attribute) (n : Nat) : Attribute :=
  { item with body := item.body.take n }

theorem length_bytes (item : Attribute) : item.bytes.length = item.size := by
  unfold bytes size
  rw [List.length_append, List.length_append, Bytes.length_ofUInt16, Bytes.length_ofNat]

theorem length_flatMap_bytes (attributes : List Attribute) :
    (attributes.flatMap bytes).length = (attributes.map size).sum := by
  rw [List.length_flatMap, funext length_bytes]

theorem bytes_cut_append {item : Attribute} {n : Nat} (h : n ≤ item.body.length) (back : Bytes) :
    (item.cut n).bytes ++ (item.body.drop n ++ back) =
      Bytes.ofUInt16 item.name ++ (Bytes.ofNat 4 n ++ (item.body ++ back)) := by
  have hlen : (item.cut n).body.length = n := by
    change (item.body.take n).length = n
    rw [List.length_take, Nat.min_eq_left h]
  have hbody : (item.cut n).body ++ (item.body.drop n ++ back) = item.body ++ back := by
    rw [← List.append_assoc]
    exact congrArg (· ++ back) (List.take_append_drop n item.body)
  unfold bytes
  rw [hlen, List.append_assoc, List.append_assoc, hbody]
  rfl

/-- Attributes are read one after the other from their bytes. -/
theorem reads_list {attributes : List Attribute}
    (h : ∀ item ∈ attributes, item.body.length ≤ 0xFFFFFFFF) :
    Reads (Reader.list attributes.length read) (attributes.flatMap bytes) attributes := by
  refine (Reader.reads_list_iff isStreaming_read).2 ⟨rfl, attributes.map bytes, ?_, ?_⟩
  · rw [List.forall₂_map_left_iff, List.forall₂_same]
    intro item hitem
    refine (reads_iff_write _ _).2 (write_eq_ok_iff.2 ⟨h item hitem, ?_⟩)
    rfl
  · rw [List.flatMap_def]

/-- Where a table begins with the bytes of attributes, it is read with these first, or ends too
early. -/
theorem readTable_cases {front : List Attribute} {count : Nat}
    (hfront : ∀ item ∈ front, item.body.length ≤ 0xFFFFFFFF) (hle : front.length ≤ count)
    (hcount : count ≤ 0xFFFF) (offset : Nat) (rest : Bytes) :
    let cursor : Cursor := ⟨offset, Bytes.ofNat 2 count ++ (front.flatMap bytes ++ rest)⟩
    (∃ others stop, readTable cursor = .ok (front ++ others) stop) ∨
      ∃ place stop, readTable cursor = .error (.truncatedBody place) stop := by
  intro cursor
  cases hrun : readTable cursor with
  | error fault stop =>
    obtain ⟨place, rfl⟩ :=
      Reader.exists_truncatedBody_of_withinBody (Reader.failsAtEnd_table failsAtEnd_read) hrun
    exact Or.inr ⟨place, stop, rfl⟩
  | ok attributes stop =>
    have hword : Reads Reader.u16 (Bytes.ofNat 2 count) (UInt16.ofNat count) :=
      Reader.reads_u16_iff.2 (Bytes.ofNat_two_eq_ofUInt16 hcount)
    have hvalue : (UInt16.ofNat count).toNat = front.length + (count - front.length) := by
      rw [UInt16.toNat_ofNat_of_lt' (by rw [UInt16.size]; omega)]
      omega
    unfold readTable Reader.table at hrun
    rw [Reader.withinBody_eq_ok_iff, hword.run_bind, hvalue, Reader.list_add,
      (reads_list hfront).run_bind] at hrun
    obtain ⟨others, middle, -, hpure⟩ := Reader.bind_eq_ok_iff.1 hrun
    obtain ⟨rfl, -⟩ := Reader.pure_eq_ok_iff.1 hpure
    exact Or.inl ⟨others, stop, rfl⟩

/-- Once a shorter length is declared for an attribute, what is left of its body counts as what
follows it. -/
theorem overwrite_length {item : Attribute} {n : Nat} (h : n ≤ item.body.length)
    (front back : Bytes) :
    Bytes.overwrite (front ++ (item.bytes ++ back)) (front.length + 2) (Bytes.ofNat 4 n) =
      front ++ ((item.cut n).bytes ++ (item.body.drop n ++ back)) := by
  have hfield : (Bytes.ofNat 4 item.body.length).length = (Bytes.ofNat 4 n).length := by
    rw [Bytes.length_ofNat, Bytes.length_ofNat]
  have hfront : front.length + 2 = (front ++ Bytes.ofUInt16 item.name).length := by
    rw [List.length_append, Bytes.length_ofUInt16]
  have hwhole : front ++ (item.bytes ++ back) = (front ++ Bytes.ofUInt16 item.name) ++
      (Bytes.ofNat 4 item.body.length ++ (item.body ++ back)) := by
    unfold bytes
    simp only [List.append_assoc]
  rw [hwhole, hfront, Bytes.overwrite_append hfield, bytes_cut_append h, List.append_assoc]

end Attribute

/-! ## Class files -/

namespace ClassFile

/-- Where the declared length of an attribute is in a class file of so many bytes. The attributes
are the last bytes of the file, and the length of each of them follows a name of two bytes. -/
def lengthField (file : ClassFile) (total i : Nat) : Nat :=
  total - ((file.attributes.drop i).map Attribute.size).sum + 2

section LengthField

variable {file : ClassFile} {before after : List Attribute} {item : Attribute} {head bytes : Bytes}

theorem lengthField_eq (hsplit : file.attributes = before ++ item :: after)
    (hbytes : head ++ file.attributes.flatMap Attribute.bytes = bytes) :
    file.lengthField bytes.length before.length =
      (head ++ before.flatMap Attribute.bytes).length + 2 := by
  unfold lengthField
  rw [← Attribute.length_flatMap_bytes, ← hbytes, hsplit, List.drop_left, List.flatMap_append]
  simp only [List.length_append]
  omega

theorem overwrite_lengthField (hsplit : file.attributes = before ++ item :: after)
    (hbytes : head ++ file.attributes.flatMap Attribute.bytes = bytes) {n : Nat}
    (hn : n ≤ item.body.length) :
    bytes.overwrite (file.lengthField bytes.length before.length) (Bytes.ofNat 4 n) =
      head ++ ((before ++ [item.cut n]).flatMap Attribute.bytes ++
        (item.body.drop n ++ after.flatMap Attribute.bytes)) := by
  rw [lengthField_eq hsplit hbytes, ← hbytes, hsplit, List.flatMap_append, List.flatMap_cons,
    ← List.append_assoc head, Attribute.overwrite_length hn, List.flatMap_append,
    List.flatMap_singleton]
  simp only [List.append_assoc]

end LengthField

/-- An attribute begins two bytes before its declared length. -/
theorem bytes_isPrefix_drop {file : ClassFile} {bytes : Bytes} (hpaired : IsPaired file.pool.toList)
    (h : file.toBytes = .ok bytes) {before after : List Attribute} {item : Attribute}
    (hsplit : file.attributes = before ++ item :: after) :
    item.bytes <+: bytes.drop (file.lengthField bytes.length before.length - 2) := by
  obtain ⟨head, table, htable, hbytes, -⟩ := exists_head_of_toBytes hpaired h
  obtain ⟨-, rfl⟩ := Attribute.writeTable_eq_ok_iff.1 htable
  unfold Attribute.tableBytes at hbytes
  rw [← List.append_assoc] at hbytes
  rw [lengthField_eq hsplit hbytes, Nat.add_sub_cancel, ← hbytes, hsplit, List.flatMap_append,
    ← List.append_assoc (head ++ _), List.drop_left, List.flatMap_cons]
  exact List.prefix_append _ _

/-- A class file in which too short a length is declared for an attribute ends too early, or has the
attributes before that one and then that one cut off. -/
theorem parse_of_shortened {file : ClassFile} {bytes : Bytes} (hpaired : IsPaired file.pool.toList)
    (h : file.toBytes = .ok bytes) {before after : List Attribute} {item : Attribute}
    (hsplit : file.attributes = before ++ item :: after) {n : Nat} (hn : n ≤ item.body.length) :
    let patched := bytes.overwrite (file.lengthField bytes.length before.length) (Bytes.ofNat 4 n)
    (∃ offset, parse patched = .error (.truncatedBody offset)) ∨
      ∃ others, parse patched =
        .ok { file.rebuilt with attributes := before ++ item.cut n :: others } := by
  intro patched
  obtain ⟨head, table, htable, hbytes, hread⟩ := exists_head_of_toBytes hpaired h
  obtain ⟨⟨hcount, hfits⟩, rfl⟩ := Attribute.writeTable_eq_ok_iff.1 htable
  have hfront : ∀ other ∈ before ++ [item.cut n], other.body.length ≤ 0xFFFFFFFF := by
    rw [hsplit, List.forall_mem_append, List.forall_mem_cons] at hfits
    rw [List.forall_mem_append, List.forall_mem_singleton]
    exact ⟨hfits.1, le_trans (List.length_take_le' n item.body) hfits.2.1⟩
  have hle : (before ++ [item.cut n]).length ≤ file.attributes.length := by
    rw [hsplit]
    simp
  obtain ⟨rest, hpatched⟩ : ∃ rest, patched = head ++ (Bytes.ofNat 2 file.attributes.length ++
      ((before ++ [item.cut n]).flatMap Attribute.bytes ++ rest)) := by
    unfold Attribute.tableBytes at hbytes
    rw [← List.append_assoc] at hbytes
    exact ⟨_, (overwrite_lengthField hsplit hbytes hn).trans (List.append_assoc _ _ _)⟩
  obtain ⟨offset, hrun⟩ := hread (Bytes.ofNat 2 file.attributes.length ++
    ((before ++ [item.cut n]).flatMap Attribute.bytes ++ rest))
  rw [← hpatched] at hrun
  unfold parse Reader.run
  rw [hrun]
  rcases Attribute.readTable_cases hfront hle hcount offset rest with
    ⟨others, stop, hok⟩ | ⟨place, stop, herror⟩
  · rw [Reader.map_eq_ok_iff.2 ⟨_, hok, rfl⟩]
    exact Or.inr ⟨others, by rw [List.append_assoc]; rfl⟩
  · rw [Reader.map_eq_error_iff.2 herror]
    exact Or.inl ⟨place, rfl⟩

end ClassFile
end ModuleRecord
