import ModuleRecord.Proofs.ClassFile.ConstantPool.Entries
import ModuleRecord.Proofs.ClassFile.ConstantPool.Slots

/-!
# The bytes of pools

A pool is read from a count and the bytes of entries that take one slot less than it says
(`reads_pool_iff`), so its slots are paired. A pool whose slots are paired reads back from what is
written for it (`reads_of_write`).
-/

namespace ModuleRecord
namespace ConstantPool

open Reader (Reads IsStreaming IsPermissive)

/-! ## Filling slots -/

/-- The slots that are taken once an entry has been put behind them. -/
def withEntry (taken : Array Entry) (entry : Entry) : Array Entry :=
  (taken.toList ++ entry.slots).toArray

theorem push_eq_withEntry {taken : Array Entry} {entry : Entry} (h : ¬ entry.isWide = true) :
    taken.push entry = withEntry taken entry := by
  rw [withEntry, Entry.slots_of_not_isWide h]
  apply Array.ext'
  simp

theorem push_push_eq_withEntry {taken : Array Entry} {entry : Entry} (h : entry.isWide = true) :
    (taken.push entry).push .unusable = withEntry taken entry := by
  rw [withEntry, Entry.slots_of_isWide h]
  apply Array.ext'
  simp

/-- What is done with an entry that has been read: it takes its slots if there are as many. -/
def continueSlots (free : Nat) (taken : Array Entry) (slot : UInt16) (entry : Entry) :
    Reader (Array Entry) :=
  if entry.slots.length ≤ free + 1 then
    readSlots (free + 1 - entry.slots.length) (withEntry taken entry)
  else throw (.badIndex slot .singleSlot)

theorem readSlots_succ (free : Nat) (taken : Array Entry) :
    readSlots (free + 1) taken =
      Entry.read (UInt16.ofNat (taken.size + 1)) >>=
        continueSlots free taken (UInt16.ofNat (taken.size + 1)) := by
  rw [readSlots]
  refine congrArg _ (funext fun entry => ?_)
  rw [continueSlots]
  by_cases hwide : entry.isWide = true
  · rw [if_pos hwide, Entry.slots_of_isWide hwide]
    cases free with
    | zero => rw [if_neg (by simp)]
    | succ free =>
      rw [if_pos (by simp), push_push_eq_withEntry hwide]
      rfl
  · rw [if_neg hwide, Entry.slots_of_not_isWide hwide, if_pos (by simp),
      push_eq_withEntry hwide]
    rfl

theorem length_slots_pos (entry : Entry) : 0 < entry.slots.length := by
  rw [Entry.slots]
  split <;> simp

variable {P : ∀ {α : Type}, Reader α → Prop}

/-- Slots are filled by reading entries, or a last one that is wide is refused. -/
theorem holds_readSlots (hP : IsPermissive P) (free : Nat) (taken : Array Entry) :
    P (readSlots free taken) := by
  induction free using Nat.strongRecOn generalizing taken with
  | ind free ih =>
    cases free with
    | zero => exact hP.pure taken
    | succ free =>
      rw [readSlots_succ]
      refine hP.bind (holds_entry hP _) fun entry => ?_
      have hpos := length_slots_pos entry
      rw [continueSlots]
      split
      · exact ih _ (by omega) _
      · exact hP.throw _

theorem isStreaming_readSlots (free : Nat) (taken : Array Entry) :
    IsStreaming (readSlots free taken) :=
  holds_readSlots Reader.IsStreaming.isPermissive free taken

/-- Free slots are filled from the bytes of entries that take just as many. -/
theorem reads_readSlots_iff {free : Nat} {taken : Array Entry} {used : Bytes}
    {result : Array Entry} :
    Reads (readSlots free taken) used result ↔
      ∃ sources entries, List.Forall₂ EntrySource.Denotes sources entries ∧
        sources.flatMap EntrySource.bytes = used ∧
        (entries.flatMap Entry.slots).length = free ∧
        result.toList = taken.toList ++ entries.flatMap Entry.slots := by
  induction free using Nat.strongRecOn generalizing taken used with
  | ind free ih =>
    cases free with
    | zero =>
      rw [readSlots, Reader.reads_pure_iff]
      constructor
      · rintro ⟨rfl, rfl⟩
        exact ⟨[], [], .nil, rfl, rfl, (List.append_nil _).symm⟩
      · rintro ⟨sources, entries, hdenotes, rfl, hlen, hresult⟩
        cases hdenotes with
        | nil => exact ⟨rfl, Array.toList_inj.1 (by rw [hresult]; exact List.append_nil _)⟩
        | @cons source entry =>
          have hpos := length_slots_pos entry
          rw [List.flatMap_cons, List.length_append] at hlen
          omega
    | succ free =>
      have hnext (entry : Entry) :
          IsStreaming (continueSlots free taken (UInt16.ofNat (taken.size + 1)) entry) := by
        rw [continueSlots]
        split
        · exact isStreaming_readSlots _ _
        · exact Reader.isStreaming_throw _
      rw [readSlots_succ, Reader.reads_bind_iff (isStreaming_entry _) hnext]
      constructor
      · rintro ⟨entry, first, second, rfl, hentry, hrest⟩
        have hpos := length_slots_pos entry
        rw [continueSlots] at hrest
        split at hrest
        · rename_i hfits
          obtain ⟨source, rfl, hdenotes⟩ := reads_entry_iff.1 hentry
          obtain ⟨sources, entries, hall, rfl, hlen, hresult⟩ := (ih _ (by omega)).1 hrest
          refine ⟨source :: sources, entry :: entries, .cons hdenotes hall, rfl, ?_, ?_⟩
          · rw [List.flatMap_cons, List.length_append, hlen]
            omega
          · rw [hresult, withEntry, List.flatMap_cons, List.append_assoc]
        · exact absurd hrest Reader.not_reads_throw
      · rintro ⟨sources, entries, hall, rfl, hlen, hresult⟩
        cases hall with
        | nil => exact absurd hlen (by simp)
        | @cons source entry sources entries hdenotes hall =>
          have hpos := length_slots_pos entry
          rw [List.flatMap_cons, List.length_append] at hlen
          refine ⟨entry, source.bytes, _, rfl, reads_entry_iff.2 ⟨source, rfl, hdenotes⟩, ?_⟩
          rw [continueSlots, if_pos (by omega)]
          refine (ih _ (by omega)).2 ⟨sources, entries, hall, rfl, by omega, ?_⟩
          rw [hresult, withEntry, List.flatMap_cons, List.append_assoc]

/-! ## Whole pools -/

theorem holds_pool (hP : IsPermissive P) : P ConstantPool.read :=
  hP.bind (hP.endsShort Reader.endsShort_u16) fun count =>
    hP.bind (holds_readSlots hP (count.toNat - 1) #[]) fun _ => hP.pure _

theorem isStreaming_pool : IsStreaming ConstantPool.read :=
  holds_pool Reader.IsStreaming.isPermissive

/-- A pool is read from a count and the bytes of its entries. -/
theorem reads_pool_iff {used : Bytes} {pool : ConstantPool} :
    Reads ConstantPool.read used pool ↔
      ∃ count sources entries, List.Forall₂ EntrySource.Denotes sources entries ∧
        Bytes.ofUInt16 count ++ sources.flatMap EntrySource.bytes = used ∧
        (entries.flatMap Entry.slots).length = count.toNat - 1 ∧
        pool = ofList (entries.flatMap Entry.slots) := by
  have hentries (count : UInt16) : IsStreaming (readSlots (count.toNat - 1) #[] >>= fun entries =>
      pure (ofList entries.toList)) :=
    (isStreaming_readSlots _ _).bind fun _ => Reader.isStreaming_pure _
  rw [ConstantPool.read, Reader.reads_bind_iff Reader.isStreaming_u16 hentries]
  simp only [Reader.reads_u16_iff, Reader.reads_bind_iff (isStreaming_readSlots _ _)
    fun _ => Reader.isStreaming_pure _, Reader.reads_pure_iff, reads_readSlots_iff]
  constructor
  · rintro ⟨count, _, _, rfl, rfl, taken, _, _, rfl, ⟨sources, entries, hall, rfl, hlen, htaken⟩,
      rfl, rfl⟩
    refine ⟨count, sources, entries, hall, by rw [List.append_nil], hlen, ?_⟩
    rw [htaken]
    rfl
  · rintro ⟨count, sources, entries, hall, rfl, hlen, rfl⟩
    exact ⟨count, _, _, rfl, rfl, (entries.flatMap Entry.slots).toArray, _, [],
      (List.append_nil _).symm, ⟨sources, entries, hall, rfl, hlen, rfl⟩, rfl, rfl⟩

theorem ne_unusable_of_denotes {sources : List EntrySource} {entries : List Entry}
    (h : List.Forall₂ EntrySource.Denotes sources entries) :
    ∀ entry ∈ entries, entry ≠ .unusable := by
  induction h with
  | nil => exact fun _ hentry => absurd hentry (by simp)
  | cons hdenotes _ ih => exact List.forall_mem_cons.2 ⟨hdenotes.ne_unusable, ih⟩

/-- The slots of a pool that was read are paired, and no more than can be written. -/
theorem isPaired_of_reads {used : Bytes} {pool : ConstantPool}
    (h : Reads ConstantPool.read used pool) :
    IsPaired pool.toList ∧ pool.size ≤ capacity ∧ pool = ofList pool.toList := by
  obtain ⟨count, sources, entries, hall, rfl, hlen, rfl⟩ := reads_pool_iff.1 h
  refine ⟨isPaired_flatMap_slots (ne_unusable_of_denotes hall), ?_, rfl⟩
  have hlt := count.toNat_lt
  rw [size_ofList, hlen, capacity]
  omega

/-! ## Written pools -/

theorem write_of_capacity_lt {pool : ConstantPool} (h : capacity < pool.size) :
    pool.write = .error (.tableTooLarge pool.size) := by
  rw [ConstantPool.write, if_pos h]
  rfl

theorem write_of_le_capacity {pool : ConstantPool} (h : pool.size ≤ capacity) :
    pool.write = Written.list Entry.write pool.toList >>= fun entries =>
      pure (Bytes.ofNat 2 (pool.size + 1) ++ entries) := by
  rw [ConstantPool.write, if_neg (Nat.not_lt.2 h)]

/-- A pool is written if its count and all of its texts fit. -/
theorem write_pool_eq_ok_iff {pool : ConstantPool} {bytes : Bytes} :
    pool.write = .ok bytes ↔
      pool.size ≤ capacity ∧
        ∃ parts, List.Forall₂ (fun entry part => entry.write = .ok part) pool.toList parts ∧
          Bytes.ofNat 2 (pool.size + 1) ++ parts.flatten = bytes := by
  rcases Nat.lt_or_ge capacity pool.size with h | h
  · rw [write_of_capacity_lt h]
    exact iff_of_false (by simp) fun hle => absurd hle.1 (Nat.not_le.2 h)
  · rw [write_of_le_capacity h, Fallible.bind_eq_ok_iff]
    simp only [Written.list_eq_ok_iff]
    constructor
    · rintro ⟨_, ⟨parts, hparts, rfl⟩, hpure⟩
      cases hpure
      exact ⟨h, parts, hparts, rfl⟩
    · rintro ⟨_, parts, hparts, rfl⟩
      exact ⟨_, ⟨parts, hparts, rfl⟩, rfl⟩

/-- The fault of an entry that cannot be written, which is a text that is too long. -/
def Entry.oversize? : Entry → Option ClassFile.Error
  | utf8 text =>
    let length := (ModifiedUtf8.encode text).length
    if length ≤ 0xFFFF then none else some (.textTooLong length)
  | _ => none

theorem Entry.failsFirst_write (entry : Entry) :
    Fallible.FailsFirst Entry.oversize? entry.write [entry] := by
  intro fault
  rw [List.findSome?_singleton]
  cases entry with
  | utf8 text =>
    simp only [Entry.write, Entry.writeBody, Entry.oversize?, Entry.tag?]
    split <;> simp [Functor.map, Except.map]
  | _ => simp [Entry.write, Entry.writeBody, Entry.oversize?, Entry.tag?, Functor.map, Except.map]

/-- A pool is refused as a table exactly if it has more slots than its count can tell. -/
theorem write_eq_tableTooLarge_iff {pool : ConstantPool} {n : Nat} :
    pool.write = .error (.tableTooLarge n) ↔ capacity < pool.size ∧ n = pool.size := by
  rcases Nat.lt_or_ge capacity pool.size with h | h
  · rw [write_of_capacity_lt h]
    simp [h, eq_comm]
  · refine iff_of_false ?_ fun hboth => absurd hboth.1 (Nat.not_lt.2 h)
    have hentries := ((Fallible.FailsFirst.mapM Entry.failsFirst_write pool.toList).bind_pure
      List.flatten).bind_pure fun entries => Bytes.ofNat 2 (pool.size + 1) ++ entries
    rw [write_of_le_capacity h, Written.list, ← bind_pure_comp, hentries.eq_error_iff]
    rintro ⟨_, entry, _, -, -, hfault⟩
    cases entry with
    | utf8 text =>
      rw [Entry.oversize?] at hfault
      split at hfault <;> cases hfault
    | _ => cases hfault

/-- The second slots of wide entries take no bytes. -/
theorem flatten_parts_of_slots {entries : List Entry} {parts : List Bytes}
    (h : List.Forall₂ (fun entry part => entry.write = .ok part)
      (entries.flatMap Entry.slots) parts) :
    ∃ parts', List.Forall₂ (fun entry part => entry.write = .ok part) entries parts' ∧
      parts'.flatten = parts.flatten := by
  induction entries generalizing parts with
  | nil =>
    cases h
    exact ⟨[], .nil, rfl⟩
  | cons entry entries ih =>
    by_cases hwide : entry.isWide = true
    · rw [List.flatMap_cons, Entry.slots_of_isWide hwide] at h
      cases h with
      | cons hfirst h =>
        cases h with
        | cons hsecond h =>
          obtain ⟨parts', hparts', hflatten⟩ := ih h
          cases hsecond
          exact ⟨_ :: parts', .cons hfirst hparts', by
            rw [List.flatten_cons, List.flatten_cons, List.flatten_cons, hflatten, List.nil_append]⟩
    · rw [List.flatMap_cons, Entry.slots_of_not_isWide hwide] at h
      cases h with
      | cons hfirst h =>
        obtain ⟨parts', hparts', hflatten⟩ := ih h
        exact ⟨_ :: parts', .cons hfirst hparts', by
          rw [List.flatten_cons, List.flatten_cons, hflatten]⟩

theorem exists_sources_of_write {entries : List Entry} {parts : List Bytes}
    (hu : ∀ entry ∈ entries, entry ≠ .unusable)
    (h : List.Forall₂ (fun entry part => entry.write = .ok part) entries parts) :
    ∃ sources, List.Forall₂ EntrySource.Denotes sources entries ∧
      sources.flatMap EntrySource.bytes = parts.flatten := by
  induction h with
  | nil => exact ⟨[], .nil, rfl⟩
  | cons hentry _ ih =>
    rw [List.forall_mem_cons] at hu
    obtain ⟨source, hbytes, hdenotes⟩ := exists_source_of_write hu.1 hentry
    obtain ⟨sources, hall, hflatten⟩ := ih hu.2
    exact ⟨source :: sources, .cons hdenotes hall, by
      rw [List.flatMap_cons, List.flatten_cons, hbytes, hflatten]⟩

/-- A pool with paired slots reads back from what is written for it. -/
theorem reads_of_write {pool : ConstantPool} {bytes : Bytes} (hpaired : IsPaired pool.toList)
    (h : pool.write = .ok bytes) : Reads ConstantPool.read bytes (ofList pool.toList) := by
  obtain ⟨hsize, parts, hparts, rfl⟩ := write_pool_eq_ok_iff.1 h
  obtain ⟨entries, hentries, hslots⟩ := isPaired_iff.1 hpaired
  rw [← hslots] at hparts
  obtain ⟨parts', hparts', hflatten⟩ := flatten_parts_of_slots hparts
  obtain ⟨sources, hall, hbytes⟩ := exists_sources_of_write hentries hparts'
  have hlen : (entries.flatMap Entry.slots).length = pool.size := by
    rw [hslots]
    rfl
  rw [capacity] at hsize
  have hcount : (UInt16.ofNat (pool.size + 1)).toNat = pool.size + 1 :=
    UInt16.toNat_ofNat_of_lt' (by rw [UInt16.size]; omega)
  refine reads_pool_iff.2 ⟨UInt16.ofNat (pool.size + 1), sources, entries, hall, ?_, ?_, ?_⟩
  · rw [hbytes, hflatten, Bytes.ofNat_two_eq_ofUInt16 (by omega)]
  · rw [hlen, hcount]
    rfl
  · rw [hslots]

end ConstantPool
end ModuleRecord
