import Mathlib.Logic.Relation
import ModuleRecord.Proofs.ClassFile.ConstantPool.Bytes

/-!
# Filling the slots of a pool

The slots of a pool are filled in rounds, each of which reads an entry and gives it its slots. A
round keeps the number of declared slots as the sum of those that are free and those that are taken,
so none is given away twice and the number of each slot fits its word. The rounds end when no slot
is free, or with the first entry that is at fault (`Offends`), or where the bytes end
(`read_outcome`).
-/

namespace ModuleRecord
namespace ConstantPool

open Reader (Reads IsStreaming)
open Relation (ReflTransGen)

/-! ## Entries at fault -/

/-- The fault of the entry that begins some bytes, where it would take the given slot of a pool in
which so many are declared. -/
inductive Offends (declared : Nat) (slot : UInt16) : Bytes → ClassFile.Error → Prop where
  /-- No kind of entry has the tag. -/
  | tag {byte : UInt8} {rest : Bytes} (h : ∀ tag : Tag, tag.toByte ≠ byte) :
      Offends declared slot (byte :: rest) (.unknownTag byte)
  /-- The body of a text is no modified UTF-8. -/
  | text {body rest : Bytes} (hle : body.length ≤ 0xFFFF)
      (h : ModifiedUtf8.decode? body = none) :
      Offends declared slot (Tag.utf8.toByte :: (Bytes.ofNat 2 body.length ++ (body ++ rest)))
        (.malformedText slot)
  /-- A wide entry is there as a whole, but only the last slot is left for it. -/
  | wide {tag : Tag} {word rest : Bytes} (htag : tag = .long ∨ tag = .double)
      (hword : word.length = 8) (hlast : slot.toNat = declared) :
      Offends declared slot (tag.toByte :: (word ++ rest)) (.badIndex slot .singleSlot)

section Entries

variable {declared : Nat} {slot : UInt16} {cursor stop : Cursor} {fault : ClassFile.Error}

theorem exists_body_of_read_utf8 (h : Tag.utf8.read slot cursor = .error fault stop)
    (hfault : fault ≠ .unexpectedEnd) :
    ∃ body rest, cursor.rest = Bytes.ofNat 2 body.length ++ (body ++ rest) ∧
      body.length ≤ 0xFFFF ∧ ModifiedUtf8.decode? body = none ∧ fault = .malformedText slot := by
  rcases Reader.bind_eq_error_iff.1 h with hsize | ⟨size, behindSize, hsize, hrun⟩
  · exact absurd (Reader.endsShort_u16.fails _ _ _ hsize).1 hfault
  rcases Reader.bind_eq_error_iff.1 hrun with hbody | ⟨body, behindBody, hbody, hrun⟩
  · exact absurd ((Reader.endsShort_bytes _).fails _ _ _ hbody).1 hfault
  obtain ⟨_, hrest, hreads⟩ := Reader.isStreaming_u16 _ _ _ hsize
  obtain ⟨_, hrest', hreads'⟩ := Reader.isStreaming_bytes _ _ _ _ hbody
  obtain ⟨hused, hlen⟩ := Reader.reads_bytes_iff.1 hreads'
  have hlt := size.toNat_lt
  refine ⟨body, behindBody.rest, ?_, by omega, ?_⟩
  · rw [hrest, hrest', hused, Reader.reads_u16_iff.1 hreads, hlen, Bytes.ofUInt16]
  · cases hdecode : ModifiedUtf8.decode? body with
    | some text =>
      rw [hdecode] at hrun
      cases hrun
    | none =>
      rw [hdecode] at hrun
      cases hrun
      exact ⟨rfl, rfl⟩

/-- An entry that is not read is at fault, unless there are too few bytes. -/
theorem offends_of_read (h : Entry.read slot cursor = .error fault stop)
    (hfault : fault ≠ .unexpectedEnd) : Offends declared slot cursor.rest fault := by
  rcases Reader.bind_eq_error_iff.1 h with hbyte | ⟨byte, behindTag, hbyte, hrun⟩
  · exact absurd (Reader.endsShort_u8.fails _ _ _ hbyte).1 hfault
  obtain ⟨_, hrest, hreads⟩ := Reader.isStreaming_u8 _ _ _ hbyte
  rw [hrest, Reader.reads_u8_iff.1 hreads, List.singleton_append]
  cases htag : Tag.ofByte? byte with
  | none =>
    rw [htag] at hrun
    cases hrun
    refine .tag ?_
    rintro tag rfl
    rw [Tag.ofByte?_toByte] at htag
    exact absurd htag (by simp)
  | some tag =>
    rw [htag] at hrun
    rw [← toByte_of_ofByte? htag]
    by_cases hutf8 : tag = .utf8
    · subst hutf8
      obtain ⟨body, rest, hbytes, hle, hdecode, rfl⟩ := exists_body_of_read_utf8 hrun hfault
      rw [hbytes]
      exact .text hle hdecode
    · exact absurd ((endsShort_read hutf8 slot).fails _ _ _ hrun).1 hfault

theorem read_of_unknownTag {byte : UInt8} {rest : Bytes} (h : ∀ tag : Tag, tag.toByte ≠ byte)
    (hrest : cursor.rest = byte :: rest) :
    ∃ stop, Entry.read slot cursor = .error (.unknownTag byte) stop := by
  have hbyte := (Reader.reads_u8_iff.2 (refl [byte])).run_of_rest hrest
  have htag : Tag.ofByte? byte = none := by
    cases hfound : Tag.ofByte? byte with
    | none => rfl
    | some tag => exact absurd (toByte_of_ofByte? hfound) (h tag)
  refine ⟨⟨cursor.offset + 1, rest⟩, ?_⟩
  rw [Entry.read, Reader.bind_of_ok hbyte, htag]
  rfl

theorem read_of_malformedText {body rest : Bytes} (hle : body.length ≤ 0xFFFF)
    (h : ModifiedUtf8.decode? body = none)
    (hrest : cursor.rest = Tag.utf8.toByte :: (Bytes.ofNat 2 body.length ++ (body ++ rest))) :
    ∃ stop, Entry.read slot cursor = .error (.malformedText slot) stop := by
  have hlen : (UInt16.ofNat body.length).toNat = body.length :=
    UInt16.toNat_ofNat_of_lt' (by rw [UInt16.size]; omega)
  have hbyte : Reads Reader.u8 [Tag.utf8.toByte] Tag.utf8.toByte := Reader.reads_u8_iff.2 rfl
  have hsize := Reader.reads_u16_iff.2 (Bytes.ofNat_two_eq_ofUInt16 hle)
  have hbody := Reader.reads_bytes_iff.2 ⟨refl body, hlen.symm⟩
  have hstart : cursor = ⟨cursor.offset, [Tag.utf8.toByte] ++ (Bytes.ofNat 2 body.length ++
      (body ++ rest))⟩ := by
    rw [List.singleton_append, ← hrest]
  rw [hstart, Entry.read, hbyte.run_bind, Tag.ofByte?_toByte]
  simp only [Tag.read]
  rw [hsize.run_bind, hbody.run_bind, h]
  exact ⟨_, rfl⟩

/-- A wide entry takes two slots. -/
theorem length_slots_of_isWide {entry : Entry} (h : entry.isWide = true) :
    entry.slots.length = 2 := by
  rw [Entry.slots_of_isWide h]
  rfl

/-- Any eight bytes behind the tag of a wide entry are read. -/
theorem exists_reads_wide {tag : Tag} (htag : tag = .long ∨ tag = .double) {word : Bytes}
    (hword : word.length = 8) (slot : UInt16) :
    ∃ entry, entry.isWide = true ∧ Reads (Entry.read slot) (tag.toByte :: word) entry := by
  have hvalue : Reads Reader.u64 word (UInt64.ofNat (Bytes.toNat word)) := by
    have hlt := Bytes.toNat_lt word
    rw [hword] at hlt
    rw [Reader.reads_u64_iff, Bytes.ofUInt64, UInt64.toNat_ofNat_of_lt' hlt,
      Bytes.ofNat_eq_of_length hword]
  rcases htag with rfl | rfl
  · exact ⟨.long _, rfl, reads_entry_iff_tag.2 ⟨.long, word, rfl,
      (reads_return_iff Reader.isStreaming_u64).2 ⟨_, hvalue, rfl⟩⟩⟩
  · exact ⟨.double _, rfl, reads_entry_iff_tag.2 ⟨.double, word, rfl,
      (reads_return_iff Reader.isStreaming_u64).2 ⟨_, hvalue, rfl⟩⟩⟩

theorem exists_word_of_reads {used : Bytes} {entry : Entry} (h : Reads (Entry.read slot) used entry)
    (hwide : entry.isWide = true) :
    ∃ (tag : Tag) (word : Bytes), (tag = .long ∨ tag = .double) ∧ word.length = 8 ∧
      used = tag.toByte :: word := by
  obtain ⟨tag, body, rfl, hbody⟩ := reads_entry_iff_tag.1 h
  by_cases htag : tag = .utf8
  · subst htag
    obtain ⟨_, _, _, _, _, rfl⟩ := reads_utf8_iff.1 hbody
    exact absurd hwide (by simp [Entry.isWide])
  · obtain ⟨hkind, hwritten⟩ := (reads_tag_iff htag).1 hbody
    cases entry with
    | long value =>
      cases hkind
      cases hwritten
      exact ⟨.long, _, Or.inl rfl, Bytes.length_ofNat _ _, rfl⟩
    | double bits =>
      cases hkind
      cases hwritten
      exact ⟨.double, _, Or.inr rfl, Bytes.length_ofNat _ _, rfl⟩
    | _ => exact absurd hwide (by simp [Entry.isWide])

end Entries

/-! ## Rounds -/

/-- The state between two rounds: how many slots are free, those that are taken, and the place that
has been reached. -/
structure Filling where
  free : Nat
  taken : Array Entry
  place : Cursor

namespace Filling

/-- The slot of the next entry, as a 16-bit word. -/
def slot (state : Filling) : UInt16 :=
  UInt16.ofNat (state.taken.size + 1)

/-- How many slots are declared. -/
def declared (state : Filling) : Nat :=
  state.free + state.taken.size

/-- What the rounds that are left come to. -/
def run (state : Filling) : EStateM.Result ClassFile.Error Cursor (Array Entry) :=
  readSlots state.free state.taken state.place

/-- The state before the first round, behind the count of a pool. -/
def start (count : UInt16) (place : Cursor) : Filling :=
  ⟨count.toNat - 1, #[], place⟩

/-- One round: an entry is read, and takes its slots from those that are free. -/
inductive Step (state : Filling) : Filling → Prop where
  | entry {free : Nat} {behind : Cursor} {entry : Entry}
      (hread : Entry.read state.slot state.place = .ok entry behind)
      (hfree : state.free = free + entry.slots.length) :
      Step state ⟨free, withEntry state.taken entry, behind⟩

variable {state later : Filling} {fault : ClassFile.Error}

/-- Where a slot is free, the next thing to do is to read an entry. -/
theorem run_of_free (hfree : 0 < state.free) :
    state.run = (Entry.read state.slot >>= continueSlots (state.free - 1) state.taken state.slot)
      state.place := by
  unfold run
  conv_lhs => rw [← Nat.sub_one_add_one (Nat.ne_of_gt hfree), readSlots_succ]
  rfl

theorem Step.free_lt (h : Step state later) : later.free < state.free := by
  cases h with
  | @entry free behind entry hread hfree =>
    have hpos := length_slots_pos entry
    dsimp only
    omega

/-- A round leads to where the rounds that are left go on. -/
theorem Step.run_eq (h : Step state later) : state.run = later.run := by
  have hlt := h.free_lt
  cases h with
  | @entry free behind entry hread hfree =>
    rw [run_of_free (by omega), Reader.bind_of_ok hread, continueSlots, if_pos (by omega),
      show state.free - 1 + 1 - entry.slots.length = free by omega]
    rfl

theorem Step.declared_eq (h : Step state later) : later.declared = state.declared := by
  cases h with
  | @entry free behind entry hread hfree =>
    have hsize : (withEntry state.taken entry).size = state.taken.size + entry.slots.length := by
      rw [withEntry, List.size_toArray, List.length_append, Array.length_toList]
    unfold declared
    dsimp only
    omega

/-- Rounds keep the number of declared slots, and what all rounds come to. -/
theorem reaches_run (h : ReflTransGen Step state later) :
    later.declared = state.declared ∧ state.run = later.run := by
  induction h with
  | refl => exact ⟨rfl, rfl⟩
  | tail _ hstep ih => exact ⟨hstep.declared_eq.trans ih.1, ih.2.trans hstep.run_eq⟩

/-- As long as a slot is free, the number of the next slot fits its word. -/
theorem toNat_slot (hle : state.declared ≤ capacity) (hfree : 0 < state.free) :
    state.slot.toNat = state.taken.size + 1 := by
  unfold declared capacity at hle
  exact UInt16.toNat_ofNat_of_lt' (by rw [UInt16.size]; omega)

/-! ## Rounds and entries -/

/-- What has been read in some rounds are the entries that stand first in the bytes. -/
theorem exists_entries_of_reaches (h : ReflTransGen Step state later) :
    ∃ sources entries, List.Forall₂ EntrySource.Denotes sources entries ∧
      state.place.rest = sources.flatMap EntrySource.bytes ++ later.place.rest ∧
      later.taken.toList = state.taken.toList ++ entries.flatMap Entry.slots := by
  induction h using ReflTransGen.head_induction_on with
  | refl => exact ⟨[], [], .nil, rfl, (List.append_nil _).symm⟩
  | head hstep _ ih =>
    obtain ⟨sources, entries, hall, hrest, htaken⟩ := ih
    cases hstep with
    | @entry free behind entry hread hfree =>
      obtain ⟨used, hused, hreads⟩ := isStreaming_entry _ _ _ _ hread
      obtain ⟨source, rfl, hdenotes⟩ := reads_entry_iff.1 hreads
      refine ⟨source :: sources, entry :: entries, .cons hdenotes hall, ?_, ?_⟩
      · rw [hused, hrest, List.flatMap_cons, List.append_assoc]
      · rw [htaken, withEntry, List.flatMap_cons, List.append_assoc]

/-- Entries that stand first in the bytes are read in as many rounds if they find slots. -/
theorem reaches_of_entries {sources : List EntrySource} {entries : List Entry} {rest : Bytes}
    (h : List.Forall₂ EntrySource.Denotes sources entries)
    (hrest : state.place.rest = sources.flatMap EntrySource.bytes ++ rest)
    (hle : (entries.flatMap Entry.slots).length ≤ state.free) :
    ∃ later, ReflTransGen Step state later ∧ later.place.rest = rest ∧
      later.taken.toList = state.taken.toList ++ entries.flatMap Entry.slots := by
  induction h generalizing state with
  | nil => exact ⟨state, .refl, hrest, (List.append_nil _).symm⟩
  | @cons source entry sources entries hdenotes _ ih =>
    rw [List.flatMap_cons, List.append_assoc] at hrest
    rw [List.flatMap_cons, List.length_append] at hle
    have hreads : Reads (Entry.read state.slot) source.bytes entry :=
      reads_entry_iff.2 ⟨source, rfl, hdenotes⟩
    have hstep := Step.entry (hreads.run_of_rest hrest)
      (Nat.sub_add_cancel (Nat.le_of_add_right_le hle)).symm
    obtain ⟨later, hreaches, hlater, htaken⟩ :=
      @ih ⟨_, _, ⟨_, sources.flatMap EntrySource.bytes ++ rest⟩⟩ rfl (Nat.le_sub_of_add_le' hle)
    refine ⟨later, .head hstep hreaches, hlater, ?_⟩
    rw [htaken, withEntry, List.flatMap_cons, List.append_assoc]

/-! ## The end of the rounds -/

/-- An entry for which there are too few slots is wide, and at fault. -/
theorem offends_of_not_fits {behind : Cursor} {entry : Entry}
    (hread : Entry.read state.slot state.place = .ok entry behind)
    (hle : state.declared ≤ capacity) (hfree : 0 < state.free)
    (hfits : ¬ entry.slots.length ≤ state.free) :
    Offends state.declared state.slot state.place.rest (.badIndex state.slot .singleSlot) := by
  have hwide : entry.isWide = true := by
    by_contra hnarrow
    rw [Entry.slots_of_not_isWide hnarrow] at hfits
    exact hfits hfree
  obtain ⟨used, hused, hreads⟩ := isStreaming_entry _ _ _ _ hread
  obtain ⟨tag, word, htag, hword, rfl⟩ := exists_word_of_reads hreads hwide
  rw [length_slots_of_isWide hwide] at hfits
  rw [hused, List.cons_append]
  refine .wide htag hword ?_
  rw [toNat_slot hle hfree, declared]
  omega

/-- Where a slot is free, there is another round, or the rounds end with a fault. -/
theorem step_or_fails (hle : state.declared ≤ capacity) (hfree : 0 < state.free) :
    (∃ later, Step state later) ∨
      ∃ fault stop, state.run = .error fault stop ∧
        (fault = .unexpectedEnd ∨ Offends state.declared state.slot state.place.rest fault) := by
  rw [run_of_free hfree]
  cases hread : Entry.read state.slot state.place with
  | error fault stop =>
    refine Or.inr ⟨fault, stop, Reader.bind_eq_error_iff.2 (Or.inl hread), ?_⟩
    rw [or_iff_not_imp_left]
    exact offends_of_read hread
  | ok entry behind =>
    by_cases hfits : entry.slots.length ≤ state.free
    · exact Or.inl ⟨_, .entry hread (Nat.sub_add_cancel hfits).symm⟩
    · refine Or.inr ⟨_, behind, ?_, Or.inr (offends_of_not_fits hread hle hfree hfits)⟩
      rw [Reader.bind_of_ok hread, continueSlots, if_neg (by omega)]
      rfl

/-- Rounds that fail, and not for want of bytes, end with an entry at fault. -/
theorem exists_offends_of_run (hle : state.declared ≤ capacity) {stop : Cursor}
    (h : state.run = .error fault stop) (hfault : fault ≠ .unexpectedEnd) :
    ∃ later, ReflTransGen Step state later ∧ 0 < later.free ∧
      Offends later.declared later.slot later.place.rest fault := by
  induction hn : state.free using Nat.strongRecOn generalizing state with
  | ind n ih =>
    have hfree : 0 < state.free := by
      by_contra hzero
      unfold run at h
      rw [Nat.eq_zero_of_not_pos hzero] at h
      cases h
    rcases step_or_fails hle hfree with ⟨next, hstep⟩ | ⟨found, place, hrun, hcase⟩
    · rw [hstep.run_eq] at h
      obtain ⟨later, hreaches, hlater⟩ := ih next.free (by rw [← hn]; exact hstep.free_lt)
        (by rw [hstep.declared_eq]; exact hle) h rfl
      exact ⟨later, .head hstep hreaches, hlater⟩
    · rw [h] at hrun
      cases hrun
      exact ⟨state, .refl, hfree, hcase.resolve_left hfault⟩

/-- An entry at fault ends the rounds. -/
theorem run_of_offends (hle : state.declared ≤ capacity) (hfree : 0 < state.free)
    (h : Offends state.declared state.slot state.place.rest fault) :
    ∃ stop, state.run = .error fault stop := by
  rw [run_of_free hfree]
  generalize hrest : state.place.rest = bytes at h
  cases h with
  | tag hnone =>
    obtain ⟨stop, hread⟩ := read_of_unknownTag hnone hrest
    exact ⟨stop, Reader.bind_eq_error_iff.2 (Or.inl hread)⟩
  | text hlen hnone =>
    obtain ⟨stop, hread⟩ := read_of_malformedText hlen hnone hrest
    exact ⟨stop, Reader.bind_eq_error_iff.2 (Or.inl hread)⟩
  | wide htag hword hlast =>
    obtain ⟨entry, hwide, hreads⟩ := exists_reads_wide htag hword state.slot
    have hslot := toNat_slot hle hfree
    have hslots := length_slots_of_isWide hwide
    unfold declared at hlast
    rw [Reader.bind_of_ok (hreads.run_of_rest hrest), continueSlots, if_neg (by omega)]
    exact ⟨_, rfl⟩

/-- No more slots can be declared than a pool that can be written has. -/
theorem declared_start_le (count : UInt16) (place : Cursor) :
    (start count place).declared ≤ capacity := by
  have hlt := count.toNat_lt
  change count.toNat - 1 ≤ 0xFFFE
  omega

theorem run_start_of_reaches {count : UInt16} {place : Cursor}
    (h : ReflTransGen Step (start count place) later) :
    later.declared = count.toNat - 1 ∧ later.declared ≤ capacity ∧
      (start count place).run = later.run := by
  obtain ⟨hdeclared, hsame⟩ := reaches_run h
  refine ⟨hdeclared, ?_, hsame⟩
  rw [hdeclared]
  exact declared_start_le count place

end Filling

/-! ## Whole pools -/

variable {cursor stop : Cursor} {fault : ClassFile.Error}

/-- A pool is read exactly if entries that take as many slots as are declared stand behind its
count. -/
theorem exists_read_eq_ok_iff {pool : ConstantPool} :
    (∃ stop, ConstantPool.read cursor = .ok pool stop) ↔
      ∃ count sources entries rest,
        cursor.rest = Bytes.ofUInt16 count ++ (sources.flatMap EntrySource.bytes ++ rest) ∧
        List.Forall₂ EntrySource.Denotes sources entries ∧
        (entries.flatMap Entry.slots).length = count.toNat - 1 ∧
        pool = ofList (entries.flatMap Entry.slots) := by
  constructor
  · rintro ⟨stop, hrun⟩
    obtain ⟨used, hrest, hreads⟩ := isStreaming_pool _ _ _ hrun
    obtain ⟨count, sources, entries, hall, rfl, hlen, hpool⟩ := reads_pool_iff.1 hreads
    rw [List.append_assoc] at hrest
    exact ⟨count, sources, entries, stop.rest, hrest, hall, hlen, hpool⟩
  · rintro ⟨count, sources, entries, rest, hrest, hall, hlen, hpool⟩
    have hreads := reads_pool_iff.2 ⟨count, sources, entries, hall, rfl, hlen, hpool⟩
    rw [← List.append_assoc] at hrest
    exact ⟨_, hreads.run_of_rest hrest⟩

/-- A pool fails as the rounds behind its count do. -/
theorem read_eq_error_iff (hfault : fault ≠ .unexpectedEnd) :
    ConstantPool.read cursor = .error fault stop ↔
      ∃ count rest, cursor.rest = Bytes.ofUInt16 count ++ rest ∧
        (Filling.start count ⟨cursor.offset + 2, rest⟩).run = .error fault stop := by
  have hcount {count : UInt16} {rest : Bytes} (hrest : cursor.rest = Bytes.ofUInt16 count ++ rest) :
      Reader.u16 cursor = .ok count ⟨cursor.offset + 2, rest⟩ :=
    (Reader.reads_u16_iff.2 rfl).run_of_rest hrest
  constructor
  · intro h
    rcases Reader.bind_eq_error_iff.1 h with hword | ⟨count, behind, hword, hrun⟩
    · exact absurd (Reader.endsShort_u16.fails _ _ _ hword).1 hfault
    obtain ⟨_, hrest, hreads⟩ := Reader.isStreaming_u16 _ _ _ hword
    rw [Reader.reads_u16_iff.1 hreads] at hrest
    have hbehind : (⟨cursor.offset + 2, behind.rest⟩ : Cursor) = behind := by
      have hsame := (hcount hrest).symm.trans hword
      injection hsame
    rw [← hbehind] at hrun
    rcases Reader.bind_eq_error_iff.1 hrun with hslots | ⟨_, _, -, hpure⟩
    · exact ⟨count, _, hrest, hslots⟩
    · cases hpure
  · rintro ⟨count, rest, hrest, hrun⟩
    rw [ConstantPool.read, Reader.bind_of_ok (hcount hrest)]
    exact Reader.bind_eq_error_iff.2 (Or.inl hrun)

/-- A pool is refused, other than for want of bytes, exactly if some entries stand behind its count
with an entry at fault behind them. -/
theorem exists_read_eq_error_iff (hfault : fault ≠ .unexpectedEnd) :
    (∃ stop, ConstantPool.read cursor = .error fault stop) ↔
      ∃ count sources entries slot rest,
        cursor.rest = Bytes.ofUInt16 count ++ (sources.flatMap EntrySource.bytes ++ rest) ∧
        List.Forall₂ EntrySource.Denotes sources entries ∧
        slot.toNat = (entries.flatMap Entry.slots).length + 1 ∧ slot.toNat ≤ count.toNat - 1 ∧
        Offends (count.toNat - 1) slot rest fault := by
  simp only [read_eq_error_iff hfault]
  constructor
  · rintro ⟨stop, count, rest, hrest, hrun⟩
    obtain ⟨later, hreaches, hfree, hoffends⟩ :=
      Filling.exists_offends_of_run (Filling.declared_start_le _ _) hrun hfault
    obtain ⟨sources, entries, hall, hbytes, htaken⟩ := Filling.exists_entries_of_reaches hreaches
    obtain ⟨hdeclared, hle, -⟩ := Filling.run_start_of_reaches hreaches
    have hslot := Filling.toNat_slot hle hfree
    have hsize : later.taken.size = (entries.flatMap Entry.slots).length :=
      congrArg List.length htaken
    rw [hdeclared] at hoffends
    refine ⟨count, sources, entries, later.slot, later.place.rest, ?_, hall, ?_, ?_, hoffends⟩
    · rw [hrest]
      exact congrArg _ hbytes
    · rw [hslot, hsize]
    · rw [Filling.declared] at hdeclared
      omega
  · rintro ⟨count, sources, entries, slot, rest, hrest, hall, hslot, hle, hoffends⟩
    have hroom : (entries.flatMap Entry.slots).length ≤ count.toNat - 1 := by omega
    obtain ⟨later, hreaches, hlater, htaken⟩ := @Filling.reaches_of_entries
      (.start count ⟨cursor.offset + 2, sources.flatMap EntrySource.bytes ++ rest⟩)
      _ _ rest hall rfl hroom
    obtain ⟨hdeclared, hbound, hsame⟩ := Filling.run_start_of_reaches hreaches
    have hsize : later.taken.size = (entries.flatMap Entry.slots).length :=
      congrArg List.length htaken
    have hfree : 0 < later.free := by
      rw [Filling.declared] at hdeclared
      omega
    have hslot' : later.slot = slot := by
      rw [← UInt16.toNat_inj, Filling.toNat_slot hbound hfree, hslot, hsize]
    rw [← hdeclared, ← hslot', ← hlater] at hoffends
    obtain ⟨stop, hrun⟩ := Filling.run_of_offends hbound hfree hoffends
    exact ⟨stop, count, _, hrest, hsame.trans hrun⟩

/-- A pool is read if the entries behind its count take the declared slots, which are one less than
the count unless that is zero, and its slots are paired. Otherwise the bytes end too early, or the
first entry that is at fault decides: it has the slot behind those of the entries before it. In the
rounds of reading, those slots that are free and those that are taken are always as many as are
declared, and the number of the next slot fits its word. -/
theorem read_outcome (cursor : Cursor) :
    (∀ pool, (∃ stop, ConstantPool.read cursor = .ok pool stop) ↔
      ∃ count sources entries rest,
        cursor.rest = Bytes.ofUInt16 count ++ (sources.flatMap EntrySource.bytes ++ rest) ∧
        List.Forall₂ EntrySource.Denotes sources entries ∧
        (entries.flatMap Entry.slots).length = count.toNat - 1 ∧
        pool = ofList (entries.flatMap Entry.slots)) ∧
    (∀ pool stop, ConstantPool.read cursor = .ok pool stop →
      ∃ count rest, cursor.rest = Bytes.ofUInt16 count ++ rest ∧
        pool.size = max count.toNat 1 - 1 ∧ pool.size ≤ 0xFFFE ∧ IsPaired pool.toList) ∧
    (∀ fault, fault ≠ .unexpectedEnd →
      ((∃ stop, ConstantPool.read cursor = .error fault stop) ↔
        ∃ count sources entries slot rest,
          cursor.rest = Bytes.ofUInt16 count ++ (sources.flatMap EntrySource.bytes ++ rest) ∧
          List.Forall₂ EntrySource.Denotes sources entries ∧
          slot.toNat = (entries.flatMap Entry.slots).length + 1 ∧ slot.toNat ≤ count.toNat - 1 ∧
          Offends (count.toNat - 1) slot rest fault)) ∧
    ∀ count rest state, cursor.rest = Bytes.ofUInt16 count ++ rest →
      ReflTransGen Filling.Step (.start count ⟨cursor.offset + 2, rest⟩) state →
        state.free + state.taken.size = count.toNat - 1 ∧
        (0 < state.free → state.slot.toNat = state.taken.size + 1) ∧
        readSlots (count.toNat - 1) #[] ⟨cursor.offset + 2, rest⟩ =
          readSlots state.free state.taken state.place := by
  refine ⟨fun pool => exists_read_eq_ok_iff, ?_, fun fault => exists_read_eq_error_iff, ?_⟩
  · intro pool stop hrun
    obtain ⟨count, sources, entries, rest, hrest, hall, hlen, rfl⟩ :=
      exists_read_eq_ok_iff.1 ⟨stop, hrun⟩
    have hlt := count.toNat_lt
    refine ⟨count, _, hrest, ?_, ?_, isPaired_flatMap_slots (ne_unusable_of_denotes hall)⟩
    · rw [size_ofList, hlen]
      omega
    · rw [size_ofList, hlen]
      omega
  · intro count rest state _ hreaches
    obtain ⟨hdeclared, hle, hsame⟩ := Filling.run_start_of_reaches hreaches
    exact ⟨hdeclared, Filling.toNat_slot hle, hsame⟩

/-- The double has the fourth slot of four: the long before it has two, and the text one. -/
theorem doubleInLastSlot_read_outcome :
    ∃ stop, ConstantPool.read (.start ([0, 5] ++ ([5, 0, 0, 0, 0, 0, 0, 0, 42] ++ [1, 0, 1, 120] ++
      [6, 0, 0, 0, 0, 0, 0, 0, 0]))) = .error (.badIndex 4 .singleSlot) stop := by
  have hall : List.Forall₂ EntrySource.Denotes [.plain (.long 42), .text [120]]
      [.long 42, .utf8 "x"] :=
    .cons ⟨rfl, rfl⟩ (.cons ⟨by decide, "x", rfl, rfl⟩ .nil)
  obtain ⟨-, -, hfails, -⟩ := read_outcome (.start ([0, 5] ++ ([5, 0, 0, 0, 0, 0, 0, 0, 42] ++
    [1, 0, 1, 120] ++ [6, 0, 0, 0, 0, 0, 0, 0, 0])))
  exact (hfails _ (by simp)).2 ⟨5, _, _, 4, [6, 0, 0, 0, 0, 0, 0, 0, 0], rfl, hall, rfl, by decide,
    @Offends.wide _ _ .double (List.replicate 8 0) [] (Or.inr rfl) rfl rfl⟩

end ConstantPool
end ModuleRecord
