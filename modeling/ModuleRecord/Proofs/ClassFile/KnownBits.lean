import Mathlib.Logic.Basic
import ModuleRecord.Proofs.ClassFile.ModuleAttribute

/-!
# What reading a body loses

The body of an attribute of a module record is either read, from exactly those bytes that it takes,
or truncated at the end of the bytes (`ModuleAttribute.reads_body_or_truncated`). All that reading
loses are the unknown bits of flag words: what is written for a body that was read are its bytes, of
which only the known bits are kept (`Masked`).
-/

namespace ModuleRecord

open Reader (Reads)

/-! ## Masks -/

/-- The mask of bytes that are kept as they are. -/
def Bytes.allBits (n : Nat) : Bytes :=
  List.replicate n 0xFF

/-- The new bytes are the old ones, of which only the bits of the mask are kept. -/
structure Masked (old new mask : Bytes) : Prop where
  length_eq : mask.length = old.length
  eq : new = List.zipWith (· &&& ·) old mask

namespace Masked

variable {old old' new new' mask mask' : Bytes}

theorem allBits (bytes : Bytes) : Masked bytes bytes (.allBits bytes.length) := by
  refine ⟨List.length_replicate, ?_⟩
  induction bytes with
  | nil => rfl
  | cons byte bytes ih =>
    have hbyte : byte &&& 0xFF = byte := UInt8.and_neg_one
    rw [List.length_cons, Bytes.allBits, List.replicate_succ, List.zipWith_cons_cons, hbyte]
    exact congrArg (byte :: ·) ih

theorem allBits_of_length {bytes : Bytes} {n : Nat} (h : bytes.length = n) :
    Masked bytes bytes (.allBits n) :=
  h ▸ allBits bytes

theorem append (h : Masked old new mask) (h' : Masked old' new' mask') :
    Masked (old ++ old') (new ++ new') (mask ++ mask') := by
  refine ⟨by simp [h.length_eq, h'.length_eq], ?_⟩
  rw [h.eq, h'.eq, List.zipWith_append h.length_eq.symm]

/-- A flag word is written with its known bits. -/
theorem flags {kind : FlagKind} (word : UInt16) :
    Masked (Bytes.ofUInt16 word) (Bytes.ofUInt16 (@FlagSet.truncate kind word).bits)
      (Bytes.ofUInt16 kind.mask) := by
  refine ⟨rfl, ?_⟩
  have hhigh : (word.toNat &&& kind.mask.toNat) / 256 =
      word.toNat / 256 &&& kind.mask.toNat / 256 := Nat.and_div_two_pow (n := 8)
  simp only [FlagSet.truncate, Bytes.ofUInt16, Bytes.ofNat, UInt16.toNat_and, hhigh,
    UInt8.ofNat_and, List.nil_append, List.cons_append, List.zipWith_cons_cons,
    List.zipWith_nil_right]

end Masked

/-! ## Tables -/

/-- The mask of a table is that of its rows, behind a count that is kept. -/
def tableMask {α : Type} (mask : α → Bytes) (rows : List α) : Bytes :=
  .allBits 2 ++ rows.flatMap mask

/-- What is read is written in as many bytes, of which the mask is kept. -/
def Restores {α : Type} (reader : Reader α) (write : α → Written) (mask : α → Bytes) : Prop :=
  ∀ used value, Reads reader used value →
    ∃ written, write value = .ok written ∧ Masked used written (mask value)

namespace Restores

variable {α : Type} {reader : Reader α} {write : α → Written} {mask : α → Bytes}

/-- A table is restored row by row. -/
theorem table (h : Restores reader write mask) (hstreaming : Reader.IsStreaming reader) :
    Restores (Reader.table reader) (Written.table write) (tableMask mask) := by
  intro used rows hreads
  obtain ⟨hle, parts, hparts, rfl⟩ := (Reader.reads_table_iff hstreaming).1 hreads
  have hrows : ∃ written, List.Forall₂ (fun row part => write row = .ok part) rows written ∧
      Masked parts.flatten written.flatten (rows.flatMap mask) := by
    clear hreads hle
    induction hparts with
    | nil => exact ⟨[], .nil, .allBits []⟩
    | cons hpart _ ih =>
      obtain ⟨first, hfirst, hmasked⟩ := h _ _ hpart
      obtain ⟨others, hothers, hrest⟩ := ih
      exact ⟨first :: others, .cons hfirst hothers, hmasked.append hrest⟩
  obtain ⟨written, hwritten, hmasked⟩ := hrows
  refine ⟨_, Written.table_eq_ok_iff.2 ⟨hle, written, hwritten, rfl⟩, ?_⟩
  exact (Masked.allBits_of_length (Bytes.length_ofNat 2 _)).append hmasked

/-- What is made of a value is restored with it. -/
theorem map {β : Type} {write : β → Written} {mask : β → Bytes} (f : α → β)
    (h : Restores reader (fun value => write (f value)) fun value => mask (f value))
    (hstreaming : Reader.IsStreaming reader) : Restores (f <$> reader) write mask := by
  intro used value hreads
  obtain ⟨found, hfound, rfl⟩ := (Reader.reads_map_iff hstreaming).1 hreads
  exact h used found hfound

theorem withinBody (h : Restores reader write mask) :
    Restores (Reader.withinBody reader) write mask :=
  fun used value hreads => h used value (Reader.reads_withinBody_iff.1 hreads)

end Restores

/-- A slot is kept as it is. -/
theorem masked_slot {used : Bytes} {slot : UInt16} (h : Reads Reader.u16 used slot) :
    Masked used (Bytes.ofUInt16 slot) (.allBits 2) := by
  rw [Reader.reads_u16_iff.1 h]
  exact .allBits_of_length (Bytes.length_ofUInt16 slot)

theorem masked_flags {kind : FlagKind} {used : Bytes} {set : FlagSet kind}
    (h : Reads Reader.flags used set) :
    Masked used (Bytes.ofUInt16 set.bits) (Bytes.ofUInt16 kind.mask) := by
  obtain ⟨word, rfl, rfl⟩ := Reader.reads_flags_iff.1 h
  exact .flags word

theorem restores_words : Restores (Reader.table Reader.u16) Written.words
    (tableMask fun _ => .allBits 2) :=
  Restores.table (fun _ _ hslot => ⟨_, rfl, masked_slot hslot⟩) Reader.isStreaming_u16

/-- What stands behind a slot is restored with it. -/
theorem Restores.behindSlot {α β : Type} {reader : Reader α} {write : α → Written}
    {mask : α → Bytes} {make : UInt16 → α → β} {writeAll : β → Written} {maskAll : β → Bytes}
    (h : Restores reader write mask) (hstreaming : Reader.IsStreaming reader)
    (hwrite : ∀ slot value, writeAll (make slot value) =
      write value >>= fun rest => pure (Bytes.ofUInt16 slot ++ rest))
    (hmask : ∀ slot value, maskAll (make slot value) = .allBits 2 ++ mask value) :
    Restores (do return make (← Reader.u16) (← reader)) writeAll maskAll := by
  intro used value hreads
  obtain ⟨_, _, _, _, rfl, hslot, hrun⟩ := Reader.isStreaming_u16.run_bind hreads.run_start
  obtain ⟨_, _, _, _, rfl, hvalue, hrun⟩ := hstreaming.run_bind hrun
  obtain ⟨rfl, rfl⟩ := Reader.pure_ends hrun
  obtain ⟨written, hwritten, hmasked⟩ := h _ _ hvalue
  rw [hwrite, hmask, List.append_nil]
  exact ⟨_, Fallible.bind_eq_ok_iff.2 ⟨written, hwritten, rfl⟩, (masked_slot hslot).append hmasked⟩

/-! ## Rows -/

/-- The mask of a row for a required module: its second word holds flags. -/
def RequiresRow.mask (_ : RequiresRow) : Bytes :=
  .allBits 2 ++ (Bytes.ofUInt16 FlagKind.requires.mask ++ .allBits 2)

/-- The mask of a row for an exported or opened package: its second word holds flags. -/
def ExportsRow.mask (row : ExportsRow) : Bytes :=
  .allBits 2 ++
    (Bytes.ofUInt16 FlagKind.exports.mask ++ tableMask (fun _ => .allBits 2) row.targets)

/-- The mask of a row for a provided service. -/
def ProvidesRow.mask (row : ProvidesRow) : Bytes :=
  .allBits 2 ++ tableMask (fun _ => .allBits 2) row.implementations

/-- The mask of a row for a digest. -/
def HashRow.mask (row : HashRow) : Bytes :=
  .allBits 2 ++ (.allBits 2 ++ .allBits row.digest.length)

theorem RequiresRow.restores : Restores RequiresRow.read RequiresRow.write RequiresRow.mask := by
  intro used row hreads
  obtain ⟨_, _, _, _, rfl, htarget, hrun⟩ := Reader.isStreaming_u16.run_bind hreads.run_start
  obtain ⟨_, _, _, _, rfl, hflags, hrun⟩ := Reader.isStreaming_flags.run_bind hrun
  obtain ⟨_, _, _, _, rfl, hversion, hrun⟩ := Reader.isStreaming_u16.run_bind hrun
  obtain ⟨rfl, rfl⟩ := Reader.pure_ends hrun
  refine ⟨_, rfl, ?_⟩
  rw [List.append_nil, List.append_assoc]
  exact (masked_slot htarget).append ((masked_flags hflags).append (masked_slot hversion))

theorem ExportsRow.restores : Restores ExportsRow.read ExportsRow.write ExportsRow.mask := by
  intro used row hreads
  obtain ⟨_, _, _, _, rfl, hpackage, hrun⟩ := Reader.isStreaming_u16.run_bind hreads.run_start
  obtain ⟨_, _, _, _, rfl, hflags, hrun⟩ := Reader.isStreaming_flags.run_bind hrun
  obtain ⟨_, _, _, _, rfl, htargets, hrun⟩ :=
    (Reader.isStreaming_table Reader.isStreaming_u16).run_bind hrun
  obtain ⟨rfl, rfl⟩ := Reader.pure_ends hrun
  obtain ⟨written, hwritten, hmasked⟩ := restores_words _ _ htargets
  unfold ExportsRow.write
  refine ⟨_, Fallible.bind_eq_ok_iff.2 ⟨written, hwritten, rfl⟩, ?_⟩
  rw [List.append_nil, List.append_assoc]
  exact (masked_slot hpackage).append ((masked_flags hflags).append hmasked)

theorem ProvidesRow.restores : Restores ProvidesRow.read ProvidesRow.write ProvidesRow.mask :=
  restores_words.behindSlot (Reader.isStreaming_table Reader.isStreaming_u16)
    (fun _ _ => rfl) fun _ _ => rfl

theorem HashRow.restores : Restores HashRow.read HashRow.write HashRow.mask := by
  intro used row hreads
  obtain ⟨_, _, _, _, rfl, htarget, hrun⟩ := Reader.isStreaming_u16.run_bind hreads.run_start
  obtain ⟨length, _, _, _, rfl, hlength, hrun⟩ := Reader.isStreaming_u16.run_bind hrun
  obtain ⟨_, digest, _, _, rfl, hdigest, hrun⟩ :=
    (Reader.isStreaming_bytes length.toNat).run_bind hrun
  obtain ⟨rfl, rfl⟩ := Reader.pure_ends hrun
  obtain ⟨rfl, hcount⟩ := Reader.reads_bytes_iff.1 hdigest
  have hlt := length.toNat_lt
  have hle : digest.length ≤ 0xFFFF := by omega
  -- the length that was read is the one that is written
  have hword : Bytes.ofNat 2 digest.length = Bytes.ofUInt16 length := by
    rw [hcount, Bytes.ofUInt16]
  unfold HashRow.write
  refine ⟨_, Fallible.bind_eq_ok_iff.2 ⟨_, Written.count_eq_ok_iff.2 ⟨hle, rfl⟩, rfl⟩, ?_⟩
  rw [List.append_nil, List.append_assoc, hword]
  exact (masked_slot htarget).append ((masked_slot hlength).append (.allBits digest))

/-! ## Bodies -/

/-- The mask of a declaration: its second word holds flags, and so do rows in its tables. -/
def DeclarationTable.mask (table : DeclarationTable) : Bytes :=
  .allBits 2 ++ (Bytes.ofUInt16 FlagKind.declaration.mask ++ (.allBits 2 ++
    (tableMask RequiresRow.mask table.requires ++ (tableMask ExportsRow.mask table.exports ++
      (tableMask ExportsRow.mask table.opens ++ (tableMask (fun _ => .allBits 2) table.uses ++
        tableMask ProvidesRow.mask table.provides))))))

/-- The mask of digests. -/
def HashTable.mask (table : HashTable) : Bytes :=
  .allBits 2 ++ tableMask HashRow.mask table.hashes

/-- The mask of the body of an attribute, which has a zero for each unknown bit of a flag word. -/
def ModuleAttribute.mask : ModuleAttribute → Bytes
  | declaration table => table.mask
  | packages slots => tableMask (fun _ => .allBits 2) slots
  | hashes table => table.mask
  | mainClass _ => .allBits 2
  | target _ => .allBits 2

theorem DeclarationTable.restores :
    Restores DeclarationTable.read DeclarationTable.write DeclarationTable.mask := by
  have hrequires := RequiresRow.endsShort_read.streaming
  have hexports := ExportsRow.endsShort_read.streaming
  have hprovides := ProvidesRow.endsShort_read.streaming
  intro used table hreads
  obtain ⟨_, _, _, _, rfl, hname, hrun⟩ := Reader.isStreaming_u16.run_bind hreads.run_start
  obtain ⟨_, _, _, _, rfl, hflags, hrun⟩ := Reader.isStreaming_flags.run_bind hrun
  obtain ⟨_, _, _, _, rfl, hversion, hrun⟩ := Reader.isStreaming_u16.run_bind hrun
  obtain ⟨_, _, _, _, rfl, h₁, hrun⟩ := (Reader.isStreaming_table hrequires).run_bind hrun
  obtain ⟨_, _, _, _, rfl, h₂, hrun⟩ := (Reader.isStreaming_table hexports).run_bind hrun
  obtain ⟨_, _, _, _, rfl, h₃, hrun⟩ := (Reader.isStreaming_table hexports).run_bind hrun
  obtain ⟨_, _, _, _, rfl, h₄, hrun⟩ :=
    (Reader.isStreaming_table Reader.isStreaming_u16).run_bind hrun
  obtain ⟨_, _, _, _, rfl, h₅, hrun⟩ := (Reader.isStreaming_table hprovides).run_bind hrun
  obtain ⟨rfl, rfl⟩ := Reader.pure_ends hrun
  obtain ⟨requires, hwritten₁, hmasked₁⟩ := RequiresRow.restores.table hrequires _ _ h₁
  obtain ⟨exports, hwritten₂, hmasked₂⟩ := ExportsRow.restores.table hexports _ _ h₂
  obtain ⟨opens, hwritten₃, hmasked₃⟩ := ExportsRow.restores.table hexports _ _ h₃
  obtain ⟨uses, hwritten₄, hmasked₄⟩ := restores_words _ _ h₄
  obtain ⟨provides, hwritten₅, hmasked₅⟩ := ProvidesRow.restores.table hprovides _ _ h₅
  unfold DeclarationTable.write
  simp only [hwritten₁, hwritten₂, hwritten₃, hwritten₄, hwritten₅]
  refine ⟨_, rfl, ?_⟩
  rw [List.append_nil]
  simp only [List.append_assoc]
  refine (masked_slot hname).append ((masked_flags hflags).append ?_)
  refine (masked_slot hversion).append ?_
  exact hmasked₁.append (hmasked₂.append (hmasked₃.append (hmasked₄.append hmasked₅)))

theorem HashTable.restores : Restores HashTable.read HashTable.write HashTable.mask :=
  (HashRow.restores.table HashRow.endsShort_read.streaming).behindSlot
    (Reader.isStreaming_table HashRow.endsShort_read.streaming) (fun _ _ => rfl) fun _ _ => rfl

/-- A body that was read is written in as many bytes, with the unknown bits cleared. -/
theorem ModuleAttribute.restores (kind : AttributeKind) :
    Restores (ModuleAttribute.read kind) ModuleAttribute.write ModuleAttribute.mask := by
  have hslot : Restores Reader.u16 (fun slot => .ok (Bytes.ofUInt16 slot)) fun _ => .allBits 2 :=
    fun _ _ hreads => ⟨_, rfl, masked_slot hreads⟩
  refine Restores.withinBody ?_
  cases kind with
  | declaration =>
    exact Restores.map _ DeclarationTable.restores DeclarationTable.endsShort_read.streaming
  | packages =>
    exact Restores.map _ restores_words (Reader.isStreaming_table Reader.isStreaming_u16)
  | hashes => exact Restores.map _ HashTable.restores HashTable.endsShort_read.streaming
  | mainClass => exact Restores.map _ hslot Reader.isStreaming_u16
  | target => exact Restores.map _ hslot Reader.isStreaming_u16

namespace ModuleAttribute

/-- The body of an attribute stands in the first bytes, and they alone decide what is read. -/
structure IsReadFrom (kind : AttributeKind) (bytes : Bytes) (n : Nat) (content : ModuleAttribute) :
    Prop where
  le_length : n ≤ bytes.length
  kind_eq : content.kind = kind
  /-- The reader stops behind the body. -/
  read : ModuleAttribute.read kind (.start bytes) = .ok content ⟨n, bytes.drop n⟩
  /-- As many bytes are written, with the unknown bits of flag words cleared. -/
  length_mask : content.mask.length = n
  write : content.write = .ok (List.zipWith (· &&& ·) (bytes.take n) content.mask)
  /-- What follows the body does not matter. -/
  append : ∀ rest, ModuleAttribute.read kind (.start (bytes.take n ++ rest)) = .ok content ⟨n, rest⟩
  /-- A strict prefix of the body is truncated at its own end. -/
  take : ∀ m < n, (ModuleAttribute.read kind).run (bytes.take m) = .error (.truncatedBody m)

/-- What is read is a body in the first bytes. -/
theorem isReadFrom_of_read {kind : AttributeKind} {bytes : Bytes} {content : ModuleAttribute}
    {stop : Cursor} (h : ModuleAttribute.read kind (.start bytes) = .ok content stop) :
    IsReadFrom kind bytes stop.offset content := by
  obtain ⟨used, hrest, hreads⟩ := isStreaming_read kind _ _ _ h
  change bytes = used ++ stop.rest at hrest
  have hrun := hreads 0 stop.rest
  rw [← hrest, Nat.zero_add] at hrun
  have hstop : stop = ⟨used.length, stop.rest⟩ := by
    have heq := h.symm.trans hrun
    injection heq
  have hoffset : stop.offset = used.length := congrArg Cursor.offset hstop
  have htake : bytes.take used.length = used := by rw [hrest, List.take_left]
  obtain ⟨written, hwritten, hmasked⟩ := restores kind _ _ hreads
  rw [hoffset]
  refine ⟨?_, ?_, ?_, hmasked.length_eq, ?_, ?_, ?_⟩
  · rw [hrest, List.length_append]
    omega
  · exact kind_of_run_read hreads.run
  · rw [h, hstop, hrest, List.drop_left]
  · rw [htake, hwritten, hmasked.eq]
  · intro rest
    have hagain := hreads 0 rest
    rw [Nat.zero_add] at hagain
    rw [htake]
    exact hagain
  · intro m hm
    rw [hrest, List.take_append_of_le_length (Nat.le_of_lt hm)]
    exact run_read_take hreads hm

/-- Bytes either begin with a body of a kind or are truncated at their end, and never both. -/
theorem reads_body_or_truncated (kind : AttributeKind) (bytes : Bytes) :
    Xor (∃ n content, IsReadFrom kind bytes n content)
      ((ModuleAttribute.read kind).run bytes = .error (.truncatedBody bytes.length)) := by
  unfold Reader.run
  cases hrun : ModuleAttribute.read kind (.start bytes) with
  | ok content stop =>
    refine Or.inl ⟨⟨stop.offset, content, isReadFrom_of_read hrun⟩, ?_⟩
    simp
  | error fault stop =>
    refine Or.inr ⟨?_, ?_⟩
    · rw [truncatedBody_of_read hrun]
      simp [Cursor.start]
    · rintro ⟨n, content, hread⟩
      rw [hread.read] at hrun
      cases hrun

/-- Of a declaration with all bits of its flag word, the known flags are written again. The byte
that follows it is left. -/
example : ((ModuleAttribute.read .declaration).run
      [0, 1, 0xFF, 0xFF, 0, 0, 0, 0, 0, 0, 0, 0, 0, 0, 0, 0, 7]).bind ModuleAttribute.write =
    .ok [0, 1, 0x90, 0x20, 0, 0, 0, 0, 0, 0, 0, 0, 0, 0, 0, 0] := by
  rfl

end ModuleAttribute
end ModuleRecord
