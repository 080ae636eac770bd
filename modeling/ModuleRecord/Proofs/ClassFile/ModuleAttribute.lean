import ModuleRecord.ClassFile.ModuleAttribute
import ModuleRecord.Proofs.ClassFile.ShortReads
import ModuleRecord.Proofs.ClassFile.Tables

/-!
# Attributes of module records

Each row and table of a module record reads back from what is written for it, and so does the body
of a whole attribute (`ModuleAttribute.run_read_of_write`). How many bytes they take depends on the
lengths of their tables and digests alone, and so does whether they can be written.
-/

namespace ModuleRecord

open Reader (Reads IsStreaming EndsShort)

/-! ## Kinds -/

theorem AttributeKind.ofName?_name (kind : AttributeKind) : ofName? kind.name = some kind := by
  cases kind <;> rfl

theorem AttributeKind.ofName?_eq_some_iff {name : String} {kind : AttributeKind} :
    ofName? name = some kind ↔ kind.name = name := by
  constructor
  · intro h
    unfold ofName? at h
    have hfound := List.find?_some h
    exact beq_iff_eq.1 hfound
  · rintro rfl
    exact ofName?_name kind

/-! ## Rows -/

theorem RequiresRow.endsShort_read : EndsShort RequiresRow.read :=
  Reader.endsShort_u16.bind fun _ => Reader.endsShort_flags.bind fun _ =>
    Reader.endsShort_u16.bind fun _ => .pure _

theorem ExportsRow.endsShort_read : EndsShort ExportsRow.read :=
  Reader.endsShort_u16.bind fun _ => Reader.endsShort_flags.bind fun _ =>
    (Reader.endsShort_table Reader.endsShort_u16).bind fun _ => .pure _

theorem ProvidesRow.endsShort_read : EndsShort ProvidesRow.read :=
  Reader.endsShort_u16.bind fun _ =>
    (Reader.endsShort_table Reader.endsShort_u16).bind fun _ => .pure _

theorem HashRow.endsShort_read : EndsShort HashRow.read :=
  Reader.endsShort_u16.bind fun _ => Reader.endsShort_u16.bind fun length =>
    (Reader.endsShort_bytes length.toNat).bind fun _ => .pure _

theorem DeclarationTable.endsShort_read : EndsShort DeclarationTable.read :=
  Reader.endsShort_u16.bind fun _ => Reader.endsShort_flags.bind fun _ =>
    Reader.endsShort_u16.bind fun _ =>
      (Reader.endsShort_table RequiresRow.endsShort_read).bind fun _ =>
        (Reader.endsShort_table ExportsRow.endsShort_read).bind fun _ =>
          (Reader.endsShort_table ExportsRow.endsShort_read).bind fun _ =>
            (Reader.endsShort_table Reader.endsShort_u16).bind fun _ =>
              (Reader.endsShort_table ProvidesRow.endsShort_read).bind fun _ => .pure _

theorem HashTable.endsShort_read : EndsShort HashTable.read :=
  Reader.endsShort_u16.bind fun _ =>
    (Reader.endsShort_table HashRow.endsShort_read).bind fun _ => .pure _

/-- A body of any kind is read by a reader that only runs short. -/
theorem ModuleAttribute.exists_endsShort (kind : AttributeKind) :
    ∃ reader, EndsShort reader ∧ ModuleAttribute.read kind = Reader.withinBody reader := by
  refine ⟨_, ?_, rfl⟩
  cases kind with
  | declaration => exact DeclarationTable.endsShort_read.map _
  | packages => exact (Reader.endsShort_table Reader.endsShort_u16).map _
  | hashes => exact HashTable.endsShort_read.map _
  | mainClass => exact Reader.endsShort_u16.map _
  | target => exact Reader.endsShort_u16.map _

theorem ModuleAttribute.isStreaming_read (kind : AttributeKind) :
    IsStreaming (ModuleAttribute.read kind) := by
  obtain ⟨reader, hshort, hread⟩ := ModuleAttribute.exists_endsShort kind
  rw [hread]
  exact Reader.isStreaming_withinBody hshort.streaming

/-- Where the body of an attribute is not read, it is truncated at the end of the bytes. -/
theorem ModuleAttribute.truncatedBody_of_read {kind : AttributeKind} {cursor stop : Cursor}
    {fault : ClassFile.Error} (h : ModuleAttribute.read kind cursor = .error fault stop) :
    fault = .truncatedBody (cursor.offset + cursor.rest.length) := by
  obtain ⟨reader, hshort, hread⟩ := ModuleAttribute.exists_endsShort kind
  rw [hread] at h
  exact hshort.withinBody_eq_error h

/-- Of the body of an attribute, every strict prefix is truncated at its own end. -/
theorem ModuleAttribute.run_read_take {kind : AttributeKind} {body : Bytes}
    {content : ModuleAttribute} (h : Reads (ModuleAttribute.read kind) body content) {n : Nat}
    (hn : n < body.length) :
    (ModuleAttribute.read kind).run (body.take n) = .error (.truncatedBody n) := by
  obtain ⟨reader, hshort, hread⟩ := ModuleAttribute.exists_endsShort kind
  rw [hread, Reader.reads_withinBody_iff] at h
  unfold Reader.run Cursor.start
  rw [hread, Reader.withinBody, hshort.run_take h hn 0, Nat.zero_add]

/-! ## Rows written and read back -/

theorem RequiresRow.reads_of_write {row : RequiresRow} {bytes : Bytes}
    (h : row.write = .ok bytes) : Reads RequiresRow.read bytes row := by
  rw [RequiresRow.write, Except.ok.injEq] at h
  rw [← h, List.append_assoc]
  refine (Reader.reads_u16_iff.2 rfl).bind ((Reader.reads_flags_bits row.flags).bind ?_)
  exact (Reader.reads_u16_iff.2 rfl).bind_pure _

theorem ExportsRow.reads_of_write {row : ExportsRow} {bytes : Bytes}
    (h : row.write = .ok bytes) : Reads ExportsRow.read bytes row := by
  rw [ExportsRow.write, Fallible.bind_eq_ok_iff] at h
  obtain ⟨targets, htargets, hpure⟩ := h
  cases hpure
  rw [List.append_assoc]
  refine (Reader.reads_u16_iff.2 rfl).bind ((Reader.reads_flags_bits row.flags).bind ?_)
  exact (Written.reads_words_iff.2 htargets).bind_pure _

theorem ProvidesRow.reads_of_write {row : ProvidesRow} {bytes : Bytes}
    (h : row.write = .ok bytes) : Reads ProvidesRow.read bytes row := by
  rw [ProvidesRow.write, Fallible.bind_eq_ok_iff] at h
  obtain ⟨implementations, himplementations, hpure⟩ := h
  cases hpure
  refine (Reader.reads_u16_iff.2 rfl).bind ?_
  exact (Written.reads_words_iff.2 himplementations).bind_pure _

theorem HashRow.reads_of_write {row : HashRow} {bytes : Bytes} (h : row.write = .ok bytes) :
    Reads HashRow.read bytes row := by
  rw [HashRow.write, Fallible.bind_eq_ok_iff] at h
  obtain ⟨length, hlength, hpure⟩ := h
  cases hpure
  obtain ⟨hle, rfl⟩ := Written.count_eq_ok_iff.1 hlength
  have hcount : (UInt16.ofNat row.digest.length).toNat = row.digest.length :=
    UInt16.toNat_ofNat_of_lt' (by rw [UInt16.size]; omega)
  rw [List.append_assoc]
  refine (Reader.reads_u16_iff.2 rfl).bind ?_
  refine (Reader.reads_u16_iff.2 (Bytes.ofNat_two_eq_ofUInt16 hle)).bind ?_
  exact (Reader.reads_bytes_iff.2 ⟨rfl, hcount.symm⟩).bind_pure _

/-! ## Tables -/

theorem DeclarationTable.reads_of_write {table : DeclarationTable} {bytes : Bytes}
    (h : table.write = .ok bytes) : Reads DeclarationTable.read bytes table := by
  rw [DeclarationTable.write] at h
  simp only [Fallible.bind_eq_ok_iff] at h
  obtain ⟨requires, hrequires, exports, hexports, opens, hopens, uses, huses, provides, hprovides,
    hpure⟩ := h
  cases hpure
  simp only [List.append_assoc]
  refine (Reader.reads_u16_iff.2 rfl).bind ((Reader.reads_flags_bits table.flags).bind ?_)
  refine (Reader.reads_u16_iff.2 rfl).bind ?_
  refine (Written.reads_table RequiresRow.endsShort_read.streaming hrequires
    fun _ _ _ => RequiresRow.reads_of_write).bind ?_
  refine (Written.reads_table ExportsRow.endsShort_read.streaming hexports
    fun _ _ _ => ExportsRow.reads_of_write).bind ?_
  refine (Written.reads_table ExportsRow.endsShort_read.streaming hopens
    fun _ _ _ => ExportsRow.reads_of_write).bind ?_
  refine (Written.reads_words_iff.2 huses).bind ?_
  exact (Written.reads_table ProvidesRow.endsShort_read.streaming hprovides
    fun _ _ _ => ProvidesRow.reads_of_write).bind_pure _

theorem HashTable.reads_of_write {table : HashTable} {bytes : Bytes}
    (h : table.write = .ok bytes) : Reads HashTable.read bytes table := by
  rw [HashTable.write, Fallible.bind_eq_ok_iff] at h
  obtain ⟨hashes, hhashes, hpure⟩ := h
  cases hpure
  refine (Reader.reads_u16_iff.2 rfl).bind ?_
  exact (Written.reads_table HashRow.endsShort_read.streaming hhashes
    fun _ _ _ => HashRow.reads_of_write).bind_pure _

/-! ## Bodies -/

theorem ModuleAttribute.reads_of_write {content : ModuleAttribute} {bytes : Bytes}
    (h : content.write = .ok bytes) : Reads (ModuleAttribute.read content.kind) bytes content := by
  unfold ModuleAttribute.read
  rw [Reader.reads_withinBody_iff]
  cases content with
  | declaration table => exact (DeclarationTable.reads_of_write h).map _
  | packages slots => exact (Written.reads_words_iff.2 h).map _
  | hashes table => exact (HashTable.reads_of_write h).map _
  | mainClass slot =>
    cases h
    exact (Reader.reads_u16_iff.2 rfl).map _
  | target slot =>
    cases h
    exact (Reader.reads_u16_iff.2 rfl).map _

/-- The body of an attribute reads back from what is written for it. -/
theorem ModuleAttribute.run_read_of_write {content : ModuleAttribute} {bytes : Bytes}
    (h : content.write = .ok bytes) : (ModuleAttribute.read content.kind).run bytes = .ok content :=
  (ModuleAttribute.reads_of_write h).run

/-- An attribute is read as one of the kind that was asked for. -/
theorem ModuleAttribute.kind_of_run_read {kind : AttributeKind} {body : Bytes}
    {content : ModuleAttribute} (h : (ModuleAttribute.read kind).run body = .ok content) :
    content.kind = kind := by
  obtain ⟨stop, hrun⟩ := Reader.exists_of_run_eq_ok h
  unfold ModuleAttribute.read at hrun
  rw [Reader.withinBody_eq_ok_iff] at hrun
  cases kind with
  | declaration =>
    obtain ⟨table, -, rfl⟩ := Reader.map_eq_ok_iff.1 hrun
    rfl
  | packages =>
    obtain ⟨slots, -, rfl⟩ := Reader.map_eq_ok_iff.1 hrun
    rfl
  | hashes =>
    obtain ⟨table, -, rfl⟩ := Reader.map_eq_ok_iff.1 hrun
    rfl
  | mainClass =>
    obtain ⟨slot, -, rfl⟩ := Reader.map_eq_ok_iff.1 hrun
    rfl
  | target =>
    obtain ⟨slot, -, rfl⟩ := Reader.map_eq_ok_iff.1 hrun
    rfl

/-! ## Sizes -/

open Written (Sized)

theorem RequiresRow.sized_write (row : RequiresRow) : Sized row.write True 6 :=
  .pure (by simp)

theorem ExportsRow.sized_write (row : ExportsRow) :
    Sized row.write (row.targets.length ≤ 0xFFFF) (6 + 2 * row.targets.length) := by
  refine (Written.sized_words row.targets).bind_pure fun bytes hbytes => ?_
  simp only [List.length_append, Bytes.length_ofUInt16, hbytes]
  omega

theorem ProvidesRow.sized_write (row : ProvidesRow) :
    Sized row.write (row.implementations.length ≤ 0xFFFF) (4 + 2 * row.implementations.length) := by
  refine (Written.sized_words row.implementations).bind_pure fun bytes hbytes => ?_
  simp only [List.length_append, Bytes.length_ofUInt16, hbytes]
  omega

theorem HashRow.sized_write (row : HashRow) :
    Sized row.write (row.digest.length ≤ 0xFFFF) (4 + row.digest.length) := by
  refine (Written.sized_count row.digest.length).bind_pure fun bytes hbytes => ?_
  simp only [List.length_append, Bytes.length_ofUInt16, hbytes]

/-- The tables of a declaration follow its name, its flags and its version. -/
theorem DeclarationTable.sized_write {table : DeclarationTable} {p₁ p₂ p₃ p₄ p₅ : Prop}
    {n₁ n₂ n₃ n₄ n₅ : Nat}
    (hrequires : Sized (Written.table RequiresRow.write table.requires) p₁ n₁)
    (hexports : Sized (Written.table ExportsRow.write table.exports) p₂ n₂)
    (hopens : Sized (Written.table ExportsRow.write table.opens) p₃ n₃)
    (huses : Sized (Written.words table.uses) p₄ n₄)
    (hprovides : Sized (Written.table ProvidesRow.write table.provides) p₅ n₅) :
    Sized table.write (p₁ ∧ p₂ ∧ p₃ ∧ p₄ ∧ p₅) (6 + n₁ + n₂ + n₃ + n₄ + n₅) := by
  unfold DeclarationTable.write
  refine Sized.congr (Sized.bind hrequires fun requires h₁ => Sized.bind hexports fun exports h₂ =>
    Sized.bind hopens fun opens h₃ => Sized.bind huses fun uses h₄ =>
      Sized.bind hprovides fun provides h₅ => Sized.pure ?_) (by rw [and_true]) rfl
  simp only [List.length_append, Bytes.length_ofUInt16, h₁, h₂, h₃, h₄, h₅]

theorem HashTable.sized_write {table : HashTable} {p : Prop} {n : Nat}
    (hhashes : Sized (Written.table HashRow.write table.hashes) p n) :
    Sized table.write p (2 + n) := by
  refine hhashes.bind_pure fun bytes hbytes => ?_
  simp only [List.length_append, Bytes.length_ofUInt16, hbytes]

end ModuleRecord
