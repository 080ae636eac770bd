import ModuleRecord.ClassFile.ConstantPool.Bytes
import ModuleRecord.Proofs.ClassFile.ShortReads
import ModuleRecord.Proofs.ClassFile.Tables
import ModuleRecord.Proofs.Text.ModifiedUtf8

/-!
# The bytes of pool entries

An entry other than a text is read from exactly the bytes that are written for it. A text is read
from any spelling of it, and its written form is one of them. `EntrySource` keeps the spelling that
an entry was read from, so that the bytes of a pool can be accounted for one entry at a time.
-/

namespace ModuleRecord
namespace ConstantPool

open Reader (Reads IsStreaming EndsShort IsPermissive)

/-! ## Rows of words -/

/-- An entry that is made of one value is read from the bytes of that value. -/
theorem reads_return_iff {α : Type} {reader : Reader α} (h : IsStreaming reader) {make : α → Entry}
    {used : Bytes} {entry : Entry} :
    Reads (do return make (← reader)) used entry ↔
      ∃ value, Reads reader used value ∧ make value = entry := by
  rw [bind_pure_comp]
  exact Reader.reads_map_iff h

theorem endsShort_slot (make : UInt16 → Entry) :
    EndsShort (do return make (← Reader.u16)) :=
  Reader.endsShort_u16.bind fun _ => .pure _

theorem reads_slot_iff {make : UInt16 → Entry} {used : Bytes} {entry : Entry} :
    Reads (do return make (← Reader.u16)) used entry ↔
      ∃ a, used = Bytes.ofUInt16 a ∧ make a = entry := by
  rw [reads_return_iff Reader.isStreaming_u16]
  simp only [Reader.reads_u16_iff]

theorem endsShort_slots (make : UInt16 → UInt16 → Entry) :
    EndsShort (do return make (← Reader.u16) (← Reader.u16)) :=
  Reader.endsShort_u16.bind fun a => endsShort_slot (make a)

theorem reads_slots_iff {make : UInt16 → UInt16 → Entry} {used : Bytes} {entry : Entry} :
    Reads (do return make (← Reader.u16) (← Reader.u16)) used entry ↔
      ∃ a b, used = Bytes.ofUInt16 a ++ Bytes.ofUInt16 b ∧ make a b = entry := by
  rw [Reader.reads_bind_iff Reader.isStreaming_u16 fun a => (endsShort_slot (make a)).streaming]
  constructor
  · rintro ⟨a, _, _, rfl, hfirst, hsecond⟩
    obtain ⟨b, rfl, rfl⟩ := reads_slot_iff.1 hsecond
    exact ⟨a, b, by rw [Reader.reads_u16_iff.1 hfirst], rfl⟩
  · rintro ⟨a, b, rfl, rfl⟩
    exact ⟨a, _, _, rfl, Reader.reads_u16_iff.2 rfl, reads_slot_iff.2 ⟨b, rfl, rfl⟩⟩

/-! ## What follows a tag -/

/-- Behind any tag but that of a text, the only fault is that there are too few bytes. -/
theorem endsShort_read {tag : Tag} (h : tag ≠ .utf8) (slot : UInt16) :
    EndsShort (tag.read slot) := by
  cases tag with
  | utf8 => exact absurd rfl h
  | integer => exact Reader.endsShort_u32.bind fun _ => .pure _
  | float => exact Reader.endsShort_u32.bind fun _ => .pure _
  | long => exact Reader.endsShort_u64.bind fun _ => .pure _
  | double => exact Reader.endsShort_u64.bind fun _ => .pure _
  | methodHandle => exact Reader.endsShort_u8.bind fun kind => endsShort_slot (.methodHandle kind)
  | symbol kind => exact endsShort_slot _
  | string => exact endsShort_slot _
  | methodType => exact endsShort_slot _
  | fieldRef => exact endsShort_slots _
  | methodRef => exact endsShort_slots _
  | interfaceMethodRef => exact endsShort_slots _
  | nameAndType => exact endsShort_slots _
  | dynamic => exact endsShort_slots _
  | invokeDynamic => exact endsShort_slots _

variable {P : ∀ {α : Type}, Reader α → Prop}

/-- Behind a tag, a reader may run short or fail at the text that it has read. -/
theorem holds_read (hP : IsPermissive P) (tag : Tag) (slot : UInt16) : P (tag.read slot) := by
  by_cases htag : tag = .utf8
  · subst htag
    refine hP.bind (hP.endsShort Reader.endsShort_u16) fun size => ?_
    refine hP.bind (hP.endsShort (Reader.endsShort_bytes size.toNat)) fun bytes => ?_
    cases ModifiedUtf8.decode? bytes with
    | some text => exact hP.pure _
    | none => exact hP.throw _
  · exact hP.endsShort (endsShort_read htag slot)

theorem isStreaming_read (tag : Tag) (slot : UInt16) : IsStreaming (tag.read slot) :=
  holds_read Reader.IsStreaming.isPermissive tag slot

/-- A text is read from a length and that many bytes, which may spell it in any way. -/
theorem reads_utf8_iff {slot : UInt16} {used : Bytes} {entry : Entry} :
    Reads (Tag.utf8.read slot) used entry ↔
      ∃ body text, body.length ≤ 0xFFFF ∧ ModifiedUtf8.decode? body = some text ∧
        used = Bytes.ofNat 2 body.length ++ body ∧ entry = .utf8 text := by
  constructor
  · intro hreads
    obtain ⟨size, _, _, _, rfl, hsize, hrun⟩ := Reader.isStreaming_u16.run_bind hreads.run_start
    obtain ⟨body, _, _, _, rfl, hbody, hrun⟩ :=
      (Reader.isStreaming_bytes size.toNat).run_bind hrun
    obtain ⟨hused, hlen⟩ := Reader.reads_bytes_iff.1 hbody
    cases hdecode : ModifiedUtf8.decode? body with
    | none =>
      rw [hdecode] at hrun
      cases hrun
    | some text =>
      rw [hdecode] at hrun
      obtain ⟨rfl, rfl⟩ := Reader.pure_ends hrun
      have hlt := size.toNat_lt
      refine ⟨body, text, by omega, hdecode, ?_, rfl⟩
      rw [Reader.reads_u16_iff.1 hsize, hused, List.append_nil, hlen, Bytes.ofUInt16]
  · rintro ⟨body, text, hle, hdecode, rfl, rfl⟩
    have hsize : (UInt16.ofNat body.length).toNat = body.length :=
      UInt16.toNat_ofNat_of_lt' (by rw [UInt16.size]; omega)
    have hbytes : Reads (Reader.bytes (UInt16.ofNat body.length).toNat) body body :=
      Reader.reads_bytes_iff.2 ⟨rfl, hsize.symm⟩
    refine (Reader.reads_u16_iff.2 (Bytes.ofNat_two_eq_ofUInt16 hle)).bind ?_
    refine hbytes.bind_nil ?_
    rw [hdecode]
    exact Reader.reads_pure_iff.2 ⟨rfl, rfl⟩

theorem written_of_reads_tag {tag : Tag} (h : tag ≠ .utf8) {slot : UInt16} {used : Bytes}
    {entry : Entry} (hreads : Reads (tag.read slot) used entry) :
    entry.tag? = some tag ∧ entry.writeBody = .ok used := by
  cases tag with
  | utf8 => exact absurd rfl h
  | integer =>
    obtain ⟨_, hword, rfl⟩ := (reads_return_iff Reader.isStreaming_u32).1 hreads
    rw [Reader.reads_u32_iff.1 hword]
    exact ⟨rfl, rfl⟩
  | float =>
    obtain ⟨_, hword, rfl⟩ := (reads_return_iff Reader.isStreaming_u32).1 hreads
    rw [Reader.reads_u32_iff.1 hword]
    exact ⟨rfl, rfl⟩
  | long =>
    obtain ⟨_, hword, rfl⟩ := (reads_return_iff Reader.isStreaming_u64).1 hreads
    rw [Reader.reads_u64_iff.1 hword]
    exact ⟨rfl, rfl⟩
  | double =>
    obtain ⟨_, hword, rfl⟩ := (reads_return_iff Reader.isStreaming_u64).1 hreads
    rw [Reader.reads_u64_iff.1 hword]
    exact ⟨rfl, rfl⟩
  | methodHandle =>
    obtain ⟨kind, _, _, rfl, hkind, htarget⟩ := (Reader.reads_bind_iff Reader.isStreaming_u8
      fun kind => (endsShort_slot (.methodHandle kind)).streaming).1 hreads
    obtain ⟨target, rfl, rfl⟩ := reads_slot_iff.1 htarget
    rw [Reader.reads_u8_iff.1 hkind]
    exact ⟨rfl, rfl⟩
  | symbol kind =>
    obtain ⟨_, rfl, rfl⟩ := reads_slot_iff.1 hreads
    exact ⟨rfl, rfl⟩
  | string =>
    obtain ⟨_, rfl, rfl⟩ := reads_slot_iff.1 hreads
    exact ⟨rfl, rfl⟩
  | methodType =>
    obtain ⟨_, rfl, rfl⟩ := reads_slot_iff.1 hreads
    exact ⟨rfl, rfl⟩
  | fieldRef =>
    obtain ⟨_, _, rfl, rfl⟩ := reads_slots_iff.1 hreads
    exact ⟨rfl, rfl⟩
  | methodRef =>
    obtain ⟨_, _, rfl, rfl⟩ := reads_slots_iff.1 hreads
    exact ⟨rfl, rfl⟩
  | interfaceMethodRef =>
    obtain ⟨_, _, rfl, rfl⟩ := reads_slots_iff.1 hreads
    exact ⟨rfl, rfl⟩
  | nameAndType =>
    obtain ⟨_, _, rfl, rfl⟩ := reads_slots_iff.1 hreads
    exact ⟨rfl, rfl⟩
  | dynamic =>
    obtain ⟨_, _, rfl, rfl⟩ := reads_slots_iff.1 hreads
    exact ⟨rfl, rfl⟩
  | invokeDynamic =>
    obtain ⟨_, _, rfl, rfl⟩ := reads_slots_iff.1 hreads
    exact ⟨rfl, rfl⟩

theorem reads_tag_of_written {tag : Tag} (h : tag ≠ .utf8) {slot : UInt16} {used : Bytes}
    {entry : Entry} (htag : entry.tag? = some tag) (hbody : entry.writeBody = .ok used) :
    Reads (tag.read slot) used entry := by
  cases entry with
  | utf8 text =>
    cases htag
    exact absurd rfl h
  | unusable => exact absurd htag (by simp [Entry.tag?])
  | integer value =>
    cases htag
    cases hbody
    exact (reads_return_iff Reader.isStreaming_u32).2
      ⟨value.toUInt32, Reader.reads_u32_iff.2 rfl, rfl⟩
  | float bits =>
    cases htag
    cases hbody
    exact (reads_return_iff Reader.isStreaming_u32).2 ⟨bits, Reader.reads_u32_iff.2 rfl, rfl⟩
  | long value =>
    cases htag
    cases hbody
    exact (reads_return_iff Reader.isStreaming_u64).2
      ⟨value.toUInt64, Reader.reads_u64_iff.2 rfl, rfl⟩
  | double bits =>
    cases htag
    cases hbody
    exact (reads_return_iff Reader.isStreaming_u64).2 ⟨bits, Reader.reads_u64_iff.2 rfl, rfl⟩
  | methodHandle kind target =>
    cases htag
    cases hbody
    exact (Reader.reads_bind_iff Reader.isStreaming_u8
      fun kind => (endsShort_slot (.methodHandle kind)).streaming).2
      ⟨kind, [kind], _, rfl, Reader.reads_u8_iff.2 rfl, reads_slot_iff.2 ⟨target, rfl, rfl⟩⟩
  | symbol kind name =>
    cases htag
    cases hbody
    exact reads_slot_iff.2 ⟨name, rfl, rfl⟩
  | string text =>
    cases htag
    cases hbody
    exact reads_slot_iff.2 ⟨text, rfl, rfl⟩
  | methodType descriptor =>
    cases htag
    cases hbody
    exact reads_slot_iff.2 ⟨descriptor, rfl, rfl⟩
  | fieldRef owner member =>
    cases htag
    cases hbody
    exact reads_slots_iff.2 ⟨owner, member, rfl, rfl⟩
  | methodRef owner member =>
    cases htag
    cases hbody
    exact reads_slots_iff.2 ⟨owner, member, rfl, rfl⟩
  | interfaceMethodRef owner member =>
    cases htag
    cases hbody
    exact reads_slots_iff.2 ⟨owner, member, rfl, rfl⟩
  | nameAndType name descriptor =>
    cases htag
    cases hbody
    exact reads_slots_iff.2 ⟨name, descriptor, rfl, rfl⟩
  | dynamic bootstrap member =>
    cases htag
    cases hbody
    exact reads_slots_iff.2 ⟨bootstrap, member, rfl, rfl⟩
  | invokeDynamic bootstrap member =>
    cases htag
    cases hbody
    exact reads_slots_iff.2 ⟨bootstrap, member, rfl, rfl⟩

/-- Behind any other tag, an entry is read from exactly what is written for it. -/
theorem reads_tag_iff {tag : Tag} (h : tag ≠ .utf8) {slot : UInt16} {used : Bytes} {entry : Entry} :
    Reads (tag.read slot) used entry ↔ entry.tag? = some tag ∧ entry.writeBody = .ok used :=
  ⟨written_of_reads_tag h, fun ⟨htag, hbody⟩ => reads_tag_of_written h htag hbody⟩

/-! ## Whole entries -/

theorem toByte_of_ofByte? {byte : UInt8} {tag : Tag} (h : Tag.ofByte? byte = some tag) :
    tag.toByte = byte := by
  have hfound := List.find?_some h
  rwa [beq_iff_eq] at hfound

theorem holds_entry (hP : IsPermissive P) (slot : UInt16) : P (Entry.read slot) := by
  refine hP.bind (hP.endsShort Reader.endsShort_u8) fun byte => ?_
  cases Tag.ofByte? byte with
  | some tag => exact holds_read hP tag slot
  | none => exact hP.throw _

theorem isStreaming_entry (slot : UInt16) : IsStreaming (Entry.read slot) :=
  holds_entry Reader.IsStreaming.isPermissive slot

/-- An entry is read from its tag byte and what follows it. -/
theorem reads_entry_iff_tag {slot : UInt16} {used : Bytes} {entry : Entry} :
    Reads (Entry.read slot) used entry ↔
      ∃ (tag : Tag) (body : Bytes), used = tag.toByte :: body ∧
        Reads (tag.read slot) body entry := by
  constructor
  · intro hreads
    obtain ⟨byte, _, offset, rest, rfl, hbyte, hrun⟩ :=
      Reader.isStreaming_u8.run_bind hreads.run_start
    cases htag : Tag.ofByte? byte with
    | none =>
      rw [htag] at hrun
      cases hrun
    | some tag =>
      rw [htag] at hrun
      obtain ⟨body, hrest, hbody⟩ := isStreaming_read tag slot _ _ _ hrun
      rw [List.append_nil] at hrest
      refine ⟨tag, body, ?_, hbody⟩
      rw [Reader.reads_u8_iff.1 hbyte, toByte_of_ofByte? htag, show rest = body from hrest]
      rfl
  · rintro ⟨tag, body, rfl, hbody⟩
    refine (Reader.reads_u8_iff.2 (rfl : [tag.toByte] = [tag.toByte])).bind ?_
    rw [Tag.ofByte?_toByte]
    exact hbody

/-- Whether an entry is written, and is not a text. -/
def Entry.isPlain : Entry → Bool
  | utf8 _ => false
  | unusable => false
  | _ => true

theorem isPlain_of_tag {entry : Entry} {tag : Tag} (h : tag ≠ .utf8)
    (htag : entry.tag? = some tag) : entry.isPlain = true := by
  cases entry with
  | utf8 text =>
    cases htag
    exact absurd rfl h
  | unusable => exact absurd htag (by simp [Entry.tag?])
  | _ => rfl

/-- Writing an entry that is neither a text nor unusable always succeeds. -/
theorem write_of_isPlain {entry : Entry} (h : entry.isPlain = true) :
    ∃ tag body, tag ≠ .utf8 ∧ entry.tag? = some tag ∧ entry.writeBody = .ok body ∧
      entry.write = .ok (tag.toByte :: body) := by
  cases entry with
  | utf8 text => exact absurd h (by simp [Entry.isPlain])
  | unusable => exact absurd h (by simp [Entry.isPlain])
  | _ => exact ⟨_, _, by simp, rfl, rfl, rfl⟩

theorem write_utf8_eq_ok_iff {text : String} {bytes : Bytes} :
    (Entry.utf8 text).write = .ok bytes ↔
      (ModifiedUtf8.encode text).length ≤ 0xFFFF ∧
        Tag.utf8.toByte :: (Bytes.ofNat 2 (ModifiedUtf8.encode text).length ++
          ModifiedUtf8.encode text) = bytes := by
  have hwrite : (Entry.utf8 text).write =
      (Tag.utf8.toByte :: ·) <$> (Entry.utf8 text).writeBody := rfl
  rw [hwrite, Fallible.map_eq_ok_iff]
  simp only [Entry.writeBody]
  by_cases h : (ModifiedUtf8.encode text).length ≤ 0xFFFF
  · rw [if_pos h]
    constructor
    · rintro ⟨_, hbody, rfl⟩
      cases hbody
      exact ⟨h, rfl⟩
    · rintro ⟨_, rfl⟩
      exact ⟨_, rfl, rfl⟩
  · rw [if_neg h]
    constructor
    · rintro ⟨_, hbody, _⟩
      exact absurd hbody (by simp)
    · rintro ⟨hle, _⟩
      exact absurd hle h

/-- An entry as it stands in the bytes of a pool. -/
inductive EntrySource where
  /-- A text, by the bytes of its body. -/
  | text (body : Bytes)
  /-- Any other entry, by itself. -/
  | plain (entry : Entry)

namespace EntrySource

/-- The bytes of the entry. -/
def bytes : EntrySource → Bytes
  | text body => Tag.utf8.toByte :: (Bytes.ofNat 2 body.length ++ body)
  | plain entry =>
    match entry.write with
    | .ok written => written
    | .error _ => []

/-- The bytes are those of the given entry. -/
def Denotes : EntrySource → Entry → Prop
  | text body, entry =>
    body.length ≤ 0xFFFF ∧ ∃ found, ModifiedUtf8.decode? body = some found ∧ entry = .utf8 found
  | plain entry, found => entry.isPlain = true ∧ found = entry

theorem Denotes.ne_unusable {source : EntrySource} {entry : Entry} (h : source.Denotes entry) :
    entry ≠ .unusable := by
  cases source with
  | text body =>
    obtain ⟨_, found, _, rfl⟩ := h
    simp
  | plain plainEntry =>
    obtain ⟨hplain, rfl⟩ := h
    rintro rfl
    exact absurd hplain (by simp [Entry.isPlain])

end EntrySource

/-- An entry is read from exactly the bytes that stand for it. -/
theorem reads_entry_iff {slot : UInt16} {used : Bytes} {entry : Entry} :
    Reads (Entry.read slot) used entry ↔
      ∃ source : EntrySource, source.bytes = used ∧ source.Denotes entry := by
  rw [reads_entry_iff_tag]
  constructor
  · rintro ⟨tag, body, rfl, hreads⟩
    by_cases htag : tag = .utf8
    · subst htag
      obtain ⟨content, found, hle, hdecode, rfl, rfl⟩ := reads_utf8_iff.1 hreads
      exact ⟨.text content, rfl, hle, found, hdecode, rfl⟩
    · obtain ⟨hentry, hbody⟩ := (reads_tag_iff htag).1 hreads
      have hplain := isPlain_of_tag htag hentry
      obtain ⟨tag', body', _, htag', hbody', hwrite⟩ := write_of_isPlain hplain
      rw [hentry, Option.some_inj] at htag'
      rw [hbody, Except.ok.injEq] at hbody'
      subst htag' hbody'
      exact ⟨.plain entry, by rw [EntrySource.bytes, hwrite], hplain, rfl⟩
  · rintro ⟨source, rfl, hdenotes⟩
    cases source with
    | text content =>
      obtain ⟨hle, found, hdecode, rfl⟩ := hdenotes
      exact ⟨.utf8, _, rfl, reads_utf8_iff.2 ⟨content, found, hle, hdecode, rfl, rfl⟩⟩
    | plain plainEntry =>
      obtain ⟨hplain, rfl⟩ := hdenotes
      obtain ⟨tag, body, hne, htag, hbody, hwrite⟩ := write_of_isPlain hplain
      exact ⟨tag, body, by rw [EntrySource.bytes, hwrite], (reads_tag_iff hne).2 ⟨htag, hbody⟩⟩

/-- The written form of an entry is one of the byte strings that stand for it. -/
theorem exists_source_of_write {entry : Entry} {bytes : Bytes} (hu : entry ≠ .unusable)
    (h : entry.write = .ok bytes) :
    ∃ source : EntrySource, source.bytes = bytes ∧ source.Denotes entry := by
  by_cases hplain : entry.isPlain = true
  · exact ⟨.plain entry, by rw [EntrySource.bytes, h], hplain, rfl⟩
  · cases entry with
    | utf8 text =>
      obtain ⟨hle, rfl⟩ := write_utf8_eq_ok_iff.1 h
      have hdecode := ModifiedUtf8.decode?_encode text
      exact ⟨.text (ModifiedUtf8.encode text), rfl, hle, text, hdecode, rfl⟩
    | unusable => exact absurd rfl hu
    | _ => exact absurd rfl hplain

end ConstantPool
end ModuleRecord
