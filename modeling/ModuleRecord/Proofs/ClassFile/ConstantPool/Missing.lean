import ModuleRecord.Proofs.ClassFile.ConstantPool.Bytes
import ModuleRecord.Proofs.ClassFile.ConstantPool.Runs

/-!
# Entries that a call adds

What an interning call adds to a pool is what plain search does not find in its slots
(`Need.missing`), and the call succeeds exactly if there are slots for all of it. Where there are
not, the text is added if one slot is left, and nothing else (`intern_outcome`).
-/

namespace ModuleRecord
namespace ConstantPool

/-! ## Missing entries -/

/-- An entry, unless it is in the slots already. -/
def fresh (slots : List Entry) (entry : Entry) : List Entry :=
  if entry ∈ slots then [] else [entry]

/-- The entries of a need that are not in the slots. The name of a symbol has the lowest slot that
holds it, or else the next slot, to which a symbol may point before anything is there. -/
def Need.missing (slots : List Entry) : Need → List Entry
  | .text content => fresh slots (.utf8 content)
  | .symbol kind name =>
    let nameSlot := slots.idxOf (.utf8 name) + 1
    fresh slots (.utf8 name) ++
      -- no symbol points to a slot whose number does not fit a word
      if nameSlot < UInt16.size then fresh slots (.symbol kind (.ofNat nameSlot))
      else [.symbol kind (.ofNat nameSlot)]

/-- Nothing is added, or the pool can still be written with what is added. -/
def Fits (pool : ConstantPool) (added : List Entry) : Prop :=
  added.length = 0 ∨ pool.size + added.length ≤ capacity

section Adding

variable {pool later : ConstantPool} {entry : Entry} {added more : List Entry} {slot : UInt16}

/-- Two rows of entries fit if the first does, and the second after it. -/
theorem fits_append_iff (h : later.toList = pool.toList ++ added) :
    pool.Fits (added ++ more) ↔ pool.Fits added ∧ later.Fits more := by
  unfold Fits
  rw [size_of_append h, List.length_append]
  omega

theorem Fits.of_append (h : pool.Fits (added ++ more)) : pool.Fits added := by
  unfold Fits at *
  rw [List.length_append] at h
  omega

theorem Fits.size_le (h : pool.Fits added) (hlater : later.toList = pool.toList ++ added) :
    later.size ≤ max pool.size capacity := by
  have hsize := size_of_append hlater
  unfold Fits at h
  omega

theorem fresh_of_mem {slots : List Entry} (h : entry ∈ slots) : fresh slots entry = [] :=
  if_pos h

theorem fresh_of_notMem {slots : List Entry} (h : entry ∉ slots) : fresh slots entry = [entry] :=
  if_neg h

/-- An entry that takes the last slot, if it takes one, is in all slots that were left. -/
theorem fresh_eq_replicate {slots : List Entry} (hfits : pool.Fits (fresh slots entry))
    (hfull : capacity ≤ pool.size + (fresh slots entry).length) :
    capacity - pool.size ≤ 1 ∧ fresh slots entry = List.replicate (capacity - pool.size) entry := by
  by_cases hmem : entry ∈ slots
  · rw [fresh_of_mem hmem] at hfull ⊢
    have hnone : capacity - pool.size = 0 := Nat.sub_eq_zero_of_le hfull
    rw [hnone]
    exact ⟨Nat.zero_le 1, rfl⟩
  · rw [fresh_of_notMem hmem] at hfits hfull ⊢
    unfold Fits at hfits
    rw [List.length_singleton] at hfits hfull
    have hone : capacity - pool.size = 1 := by omega
    rw [hone]
    exact ⟨Nat.le_refl 1, rfl⟩

/-- A symbol is missing once its name is there exactly if it was missing before. -/
theorem fresh_symbol_append {slots : List Entry} {name : String} {kind : SymbolKind} :
    fresh (slots ++ fresh slots (.utf8 name)) (.symbol kind slot) =
      fresh slots (.symbol kind slot) := by
  have hmem : .symbol kind slot ∈ slots ++ fresh slots (.utf8 name) ↔
      .symbol kind slot ∈ slots := by
    rw [List.mem_append, fresh]
    split <;> simp
  unfold fresh
  exact if_congr hmem rfl rfl

theorem missing_symbol {slots : List Entry} {kind : SymbolKind} {name : String}
    (h : slot.toNat = slots.idxOf (.utf8 name) + 1) :
    Need.missing slots (.symbol kind name) =
      fresh slots (.utf8 name) ++ fresh slots (.symbol kind slot) := by
  have hlt := slot.toNat_lt_size
  rw [Need.missing, ← h, if_pos hlt, UInt16.ofNat_toNat]

/-- The lowest slot of an entry is where it is found first. -/
theorem IsLowest.toNat_eq (h : pool.IsLowest entry slot) :
    slot.toNat = pool.toList.idxOf entry + 1 := by
  obtain ⟨hne, hheld⟩ := get?_eq_some_iff.1 h.1
  have hmem : entry ∈ pool.toList := List.mem_of_getElem? hheld
  have hpos : slot.toNat ≠ 0 := fun hzero => hne (UInt16.toNat_inj.1 hzero)
  have hfound : pool.toList.idxOf entry < slot.toNat := by
    refine (List.mem_take_iff_idxOf_lt hmem).1 (@List.mem_of_getElem? _ _ (slot.toNat - 1) _ ?_)
    rw [List.getElem?_take_of_lt (by omega), hheld]
  have hlt := slot.toNat_lt
  have hfirst : (UInt16.ofNat (pool.toList.idxOf entry + 1)).toNat = pool.toList.idxOf entry + 1 :=
    UInt16.toNat_ofNat_of_lt' (by rw [UInt16.size]; omega)
  have hother : pool.get? (.ofNat (pool.toList.idxOf entry + 1)) = some entry := by
    refine get?_eq_some_iff.2 ⟨?_, ?_⟩
    · rw [ne_eq, ← UInt16.toNat_inj, hfirst]
      exact Nat.succ_ne_zero _
    · rw [hfirst, Nat.add_sub_cancel, List.getElem?_idxOf hmem]
  have hle' := UInt16.le_iff_toNat_le.1 (h.2 _ hother)
  omega

/-! ## One call -/

/-- A key that is interned has the slot in which it is found first, and is refused for want of a
slot. -/
theorem intern_fresh (h : pool.IsIndexed) (hsize : pool.size ≤ 0xFFFF) (key : Key) :
    (∃ slot later, ConstantPool.intern key pool = .ok slot later ∧ later.IsIndexed ∧
        pool.Fits (fresh pool.toList key.entry) ∧
        slot.toNat = pool.toList.idxOf key.entry + 1 ∧
        later.toList = pool.toList ++ fresh pool.toList key.entry) ∨
      ConstantPool.intern key pool = .error .poolFull pool ∧
        ¬ pool.Fits (fresh pool.toList key.entry) ∧ capacity ≤ pool.size := by
  have hstep := intern_step h key
  have habsent (hnone : ∀ slot, pool.get? slot ≠ some key.entry) : key.entry ∉ pool.toList := by
    rw [mem_toList_iff hsize]
    exact not_exists.2 hnone
  cases hrun : ConstantPool.intern key pool with
  | ok slot later =>
    rw [hrun] at hstep
    refine Or.inl ⟨slot, later, rfl, ?_⟩
    cases hstep with
    | found hlowest =>
      rw [fresh_of_mem ((mem_toList_iff hsize).2 ⟨slot, hlowest.1⟩)]
      exact ⟨h, Or.inl rfl, hlowest.toNat_eq, (List.append_nil _).symm⟩
    | taken hnone hlt hslot hlater hindexed =>
      rw [fresh_of_notMem (habsent hnone), List.idxOf_eq_length (habsent hnone)]
      exact ⟨hindexed, Or.inr hlt, hslot, hlater⟩
  | error fault later =>
    rw [hrun] at hstep
    cases hstep with
    | full hnone hfull =>
      refine Or.inr ⟨rfl, ?_, hfull⟩
      rw [fresh_of_notMem (habsent hnone), Fits, List.length_singleton]
      omega

/-- What interning a need can end in. -/
inductive Interned (pool : ConstantPool) (need : Need) :
    EStateM.Result ClassFile.Error ConstantPool UInt16 → Prop where
  /-- What is missing fits, and is added. -/
  | added {slot : UInt16} {later : ConstantPool} (hfits : pool.Fits (need.missing pool.toList))
      (hlater : later.toList = pool.toList ++ need.missing pool.toList) :
      Interned pool need (.ok slot later)
  /-- What is missing does not fit, and the text has been added if there is a slot for it. -/
  | full {later : ConstantPool} (hfits : ¬ pool.Fits (need.missing pool.toList))
      (hfree : capacity - pool.size ≤ 1)
      (hlater : later.toList =
        pool.toList ++ List.replicate (capacity - pool.size) (.utf8 need.name)) :
      Interned pool need (.error .poolFull later)

theorem Interned.of_full {need : Need} (hfits : ¬ pool.Fits (need.missing pool.toList))
    (hfull : capacity ≤ pool.size) : Interned pool need (.error .poolFull pool) := by
  have hnone : capacity - pool.size = 0 := Nat.sub_eq_zero_of_le hfull
  refine .full hfits (hnone.trans_le (Nat.zero_le 1)) ?_
  rw [hnone, List.replicate_zero, List.append_nil]

/-- A need is interned by adding what is missing, whatever else the pool holds. -/
theorem interned (h : pool.IsIndexed) (hsize : pool.size ≤ 0xFFFF) (need : Need) :
    Interned pool need (need.intern pool) := by
  cases need with
  | text content =>
    change Interned _ _ (ConstantPool.intern (.utf8 content) pool)
    rcases intern_fresh h hsize (.utf8 content) with
      ⟨slot, later, hrun, -, hfits, -, hlater⟩ | ⟨hrun, hfits, hfull⟩
    · rw [hrun]
      exact .added hfits hlater
    · rw [hrun]
      exact .of_full hfits hfull
  | symbol kind name =>
    change Interned _ _ (internSymbol kind name pool)
    rw [internSymbol, internUtf8, run_bind]
    rcases intern_fresh h hsize (.utf8 name) with
      ⟨nameSlot, middle, hrun, hindexed, hname, hslot, hmiddle⟩ | ⟨hrun, hname, hfull⟩
    · change middle.toList = pool.toList ++ fresh pool.toList (.utf8 name) at hmiddle
      have hsize' := (hname.size_le hmiddle).trans (Nat.max_le.2 ⟨hsize, by decide⟩)
      -- what is missing from the first pool is what each of the two calls finds missing
      have hmissing : Need.missing pool.toList (.symbol kind name) =
          fresh pool.toList (.utf8 name) ++ fresh middle.toList (.symbol kind nameSlot) := by
        rw [missing_symbol hslot, hmiddle, fresh_symbol_append]
      have hfits : pool.Fits (Need.missing pool.toList (.symbol kind name)) ↔
          middle.Fits (fresh middle.toList (.symbol kind nameSlot)) := by
        rw [hmissing, fits_append_iff hmiddle]
        exact and_iff_right hname
      simp only [hrun]
      rcases intern_fresh hindexed hsize' (.symbol kind nameSlot) with
        ⟨slot, later, hrun', -, hsymbol, -, hlater⟩ | ⟨hrun', hsymbol, hfull⟩
      · rw [hrun']
        refine .added (hfits.2 hsymbol) ?_
        rw [hmissing, ← List.append_assoc, ← hmiddle]
        exact hlater
      · rw [hrun']
        rw [size_of_append hmiddle] at hfull
        obtain ⟨hfree, htext⟩ := fresh_eq_replicate hname hfull
        exact .full (mt hfits.1 hsymbol) hfree (hmiddle.trans (congrArg (pool.toList ++ ·) htext))
    · simp only [hrun]
      exact .of_full (fun hfits => hname hfits.of_append) hfull

end Adding

/-! ## Runs -/

/-- A call makes a pool no longer than one that can be written, unless it was longer before. -/
theorem size_leave_le {pool : ConstantPool} (h : pool.IsIndexed) (hsize : pool.size ≤ 0xFFFF)
    (call : Call) : (call.leave pool).size ≤ max pool.size capacity := by
  have hinterned := interned h hsize call.need
  rw [← call.intern_eq] at hinterned
  unfold Call.leave
  cases hrun : call.intern pool with
  | ok slot later =>
    rw [hrun] at hinterned
    cases hinterned with
    | added hfits hlater => exact hfits.size_le hlater
  | error fault later =>
    rw [hrun] at hinterned
    cases hinterned with
    | full hfits hfree hlater =>
      have hlen := size_of_append hlater
      rw [List.length_replicate] at hlen
      change later.size ≤ _
      omega

theorem size_after_le {pool : ConstantPool} (h : pool.IsIndexed) (hsize : pool.size ≤ 0xFFFF)
    (calls : List Call) : (pool.after calls).size ≤ max pool.size capacity := by
  induction calls using List.reverseRecOn with
  | nil => exact Nat.le_max_left _ _
  | append_singleton calls call ih =>
    have hword := ih.trans (Nat.max_le.2 ⟨hsize, by decide⟩)
    have hle := size_leave_le (after_run h calls).1 hword call
    rw [after_append]
    change (call.leave (pool.after calls)).size ≤ _
    omega

/-- The slots of a pool that is filled from given slots have numbers. -/
theorem size_after_le_word {entries : List Entry} (h : entries.length ≤ 0xFFFF)
    (calls : List Call) : ((ofList entries).after calls).size ≤ 0xFFFF :=
  (size_after_le (isIndexed_ofList h) h calls).trans (Nat.max_le.2 ⟨h, by decide⟩)

/-- In a pool that is given by its slots and any calls, whether they failed or not, a call succeeds
exactly if nothing is missing or the pool can still be written with what is missing, and then that
is added. Otherwise the call finds the pool full, in which one slot is left at most, and that one is
taken for the text. So calls leave no pool too long to be written that was not so before. -/
theorem intern_outcome {entries : List Entry} (h : entries.length ≤ 0xFFFF) (calls : List Call) :
    ∀ pool, pool = (ofList entries).after calls →
      (∀ call : Call,
        ((∃ slot later, call.intern pool = .ok slot later) ↔
          (call.need.missing pool.toList).length = 0 ∨
            pool.size + (call.need.missing pool.toList).length ≤ 65534) ∧
        (∀ slot later, call.intern pool = .ok slot later →
          later.toList = pool.toList ++ call.need.missing pool.toList) ∧
        ∀ fault later, call.intern pool = .error fault later →
          fault = .poolFull ∧ 65534 - pool.size ≤ 1 ∧
            later.toList =
              pool.toList ++ List.replicate (65534 - pool.size) (.utf8 call.need.name)) ∧
      ∀ more n, (pool.after more).write = .error (.tableTooLarge n) →
        pool.write = .error (.tableTooLarge n) := by
  intro pool hpool
  have hindexed : pool.IsIndexed := by
    rw [hpool]
    exact (after_run (isIndexed_ofList h) calls).1
  have hsize : pool.size ≤ 0xFFFF := by
    rw [hpool]
    exact (size_after_le (isIndexed_ofList h) h calls).trans (Nat.max_le.2 ⟨h, by decide⟩)
  refine ⟨?_, ?_⟩
  · intro call
    have hinterned := interned hindexed hsize call.need
    rw [← call.intern_eq] at hinterned
    generalize call.intern pool = result at hinterned ⊢
    cases hinterned with
    | added hfits hlater =>
      refine ⟨iff_of_true ⟨_, _, rfl⟩ hfits, ?_, nofun⟩
      rintro _ _ ⟨⟩
      exact hlater
    | full hfits hfree hlater =>
      refine ⟨iff_of_false nofun hfits, nofun, ?_⟩
      rintro _ _ ⟨⟩
      exact ⟨rfl, hfree, hlater⟩
  · intro more n hlong
    rw [write_eq_tableTooLarge_iff] at hlong ⊢
    have hle := size_after_le hindexed hsize more
    have hgrows : pool.size ≤ (pool.after more).size :=
      (after_run hindexed more).2.isPrefix.length_le
    omega

/-- A pool in which one slot is left, to which a package points already. -/
def lastSlotEntries : List Entry :=
  List.replicate 65532 .unusable ++ [.symbol .packageSymbol 65534]

theorem length_lastSlotEntries : lastSlotEntries.length = 65533 := by
  rw [lastSlotEntries, List.length_append, List.length_replicate, List.length_singleton]

theorem mem_lastSlotEntries_iff {entry : Entry} :
    entry ∈ lastSlotEntries ↔ entry = .unusable ∨ entry = .symbol .packageSymbol 65534 := by
  rw [lastSlotEntries, List.mem_append, List.mem_replicate, List.mem_singleton]
  exact or_congr_left (and_iff_right (by decide))

theorem missing_lastSlotEntries (kind : SymbolKind) :
    Need.missing lastSlotEntries (.symbol kind "m") =
      .utf8 "m" :: fresh lastSlotEntries (.symbol kind 65534) := by
  have habsent : .utf8 "m" ∉ lastSlotEntries := by
    rw [mem_lastSlotEntries_iff]
    simp
  have hslot : (65534 : UInt16).toNat = lastSlotEntries.idxOf (.utf8 "m") + 1 := by
    rw [List.idxOf_eq_length habsent, length_lastSlotEntries]
    rfl
  rw [missing_symbol hslot, fresh_of_notMem habsent, List.singleton_append]

/-- The text is all that the package lacks. It is added as well if a module is called for, but no
slot is left for the module. -/
theorem lastSlotEntries_intern_outcome : lastSlotEntries.length ≤ 0xFFFF ∧
    (∃ slot later, internPackage "m" (ofList lastSlotEntries) = .ok slot later) ∧
    ∃ later, internModule "m" (ofList lastSlotEntries) = .error .poolFull later ∧
      later.toList = lastSlotEntries ++ [.utf8 "m"] := by
  have hle : lastSlotEntries.length ≤ 0xFFFF := length_lastSlotEntries.trans_le (by decide)
  obtain ⟨houtcome, -⟩ := intern_outcome hle [] (ofList lastSlotEntries) rfl
  simp only [toList_ofList, size_ofList, length_lastSlotEntries] at houtcome
  have hpackage := (houtcome (.symbol .packageSymbol "m")).1
  have hmodule := houtcome (.symbol .moduleSymbol "m")
  rw [Call.need, show InternalName.ofDotted "m" = "m" by decide,
    missing_lastSlotEntries] at hpackage
  rw [Call.need, missing_lastSlotEntries] at hmodule
  refine ⟨hle, ?_, ?_⟩
  · refine hpackage.2 (Or.inr ?_)
    rw [fresh_of_mem (mem_lastSlotEntries_iff.2 (Or.inr rfl))]
    decide
  · obtain ⟨hsucceeds, -, hfails⟩ := hmodule
    have habsent : .symbol .moduleSymbol 65534 ∉ lastSlotEntries := by
      rw [mem_lastSlotEntries_iff]
      simp
    rw [fresh_of_notMem habsent] at hsucceeds
    cases hrun : internModule "m" (ofList lastSlotEntries) with
    | ok slot later => exact absurd (hsucceeds.1 ⟨slot, later, hrun⟩) (by decide)
    | error fault later =>
      obtain ⟨rfl, -, hlater⟩ := hfails fault later hrun
      exact ⟨later, rfl, hlater⟩

end ConstantPool
end ModuleRecord
