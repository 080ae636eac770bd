import Mathlib.Data.Nat.Find
import Mathlib.Data.List.Forall2
import Mathlib.Data.List.Induction
import Std.Data.HashMap.Lemmas
import ModuleRecord.ClassFile.ConstantPool.Intern
import ModuleRecord.ClassFile.ConstantPool.Resolve
import ModuleRecord.Proofs.ClassFile.ConstantPool.InternalName
import ModuleRecord.Proofs.Fallible

/-!
# What interning does to a pool

The index of a pool is right if it sends each text and symbol to the lowest slot that holds it.
Interning keeps a right index right, and leaves a pool as it is or takes one slot behind the others
(`intern_step`). `Lays` carries this over to whole computations, failed ones included, together with
what their results stand for in every pool that the pool may still grow to.
-/

namespace ModuleRecord
namespace ConstantPool

/-! ## Slots -/

theorem get?_eq_some_iff {pool : ConstantPool} {slot : UInt16} {entry : Entry} :
    pool.get? slot = some entry ↔ slot ≠ 0 ∧ pool.toList[slot.toNat - 1]? = some entry := by
  unfold get? toList
  by_cases h : slot = 0
  · simp [h]
  · simp [h]

/-- Slots that are taken stay as they are when others are added behind them. -/
theorem get?_of_isPrefix {pool later : ConstantPool} (h : pool.toList <+: later.toList)
    {slot : UInt16} {entry : Entry} (hheld : pool.get? slot = some entry) :
    later.get? slot = some entry := by
  obtain ⟨added, hadded⟩ := h
  obtain ⟨hne, hentry⟩ := get?_eq_some_iff.1 hheld
  obtain ⟨hlt, -⟩ := List.getElem?_eq_some_iff.1 hentry
  refine get?_eq_some_iff.2 ⟨hne, ?_⟩
  rw [← hadded, List.getElem?_append_left hlt, hentry]

theorem toNat_le_size {pool : ConstantPool} {slot : UInt16} {entry : Entry}
    (h : pool.get? slot = some entry) : slot.toNat ≤ pool.size := by
  obtain ⟨-, hentry⟩ := get?_eq_some_iff.1 h
  obtain ⟨hlt, -⟩ := List.getElem?_eq_some_iff.1 hentry
  change slot.toNat - 1 < pool.size at hlt
  omega

theorem utf8_of_get? {pool : ConstantPool} {slot : UInt16} {text : String}
    (h : pool.get? slot = some (.utf8 text)) : pool.utf8 slot = .ok text := by
  unfold utf8
  rw [h]

/-- A symbol resolves through the slot of its name. -/
theorem symbolName_of_get? {pool : ConstantPool} {kind : SymbolKind} {slot name : UInt16}
    (h : pool.get? slot = some (.symbol kind name)) :
    pool.symbolName kind slot = pool.utf8 name := by
  unfold symbolName nameSlot
  rw [h]
  simp only [if_true]
  rfl

/-- The lowest of the slots that hold an entry. -/
def IsLowest (pool : ConstantPool) (entry : Entry) (slot : UInt16) : Prop :=
  pool.get? slot = some entry ∧ ∀ other, pool.get? other = some entry → slot ≤ other

theorem exists_isLowest {pool : ConstantPool} {entry : Entry} {slot : UInt16}
    (h : pool.get? slot = some entry) : ∃ lowest, pool.IsLowest entry lowest := by
  classical
  have hex : ∃ n, ∃ other : UInt16, other.toNat = n ∧ pool.get? other = some entry :=
    ⟨_, slot, rfl, h⟩
  obtain ⟨lowest, hlowest, hheld⟩ := Nat.find_spec hex
  refine ⟨lowest, hheld, ?_⟩
  intro other hother
  rw [UInt16.le_iff_toNat_le, hlowest]
  exact Nat.find_min' hex ⟨other, rfl, hother⟩

/-- Each text and symbol is found in the lowest slot that holds it, and no other is found. -/
def IsIndexed (pool : ConstantPool) : Prop :=
  ∀ (key : Key) (slot : UInt16), pool.index[key]? = some slot ↔ pool.IsLowest key.entry slot

/-- A text or symbol is not found exactly if no slot holds it. -/
theorem IsIndexed.getElem?_eq_none_iff {pool : ConstantPool} (h : pool.IsIndexed) {key : Key} :
    pool.index[key]? = none ↔ ∀ slot, pool.get? slot ≠ some key.entry := by
  constructor
  · intro hnone slot hheld
    obtain ⟨lowest, hlowest⟩ := exists_isLowest hheld
    rw [(h key lowest).2 hlowest] at hnone
    exact absurd hnone (by simp)
  · intro habsent
    cases hfound : pool.index[key]? with
    | none => rfl
    | some slot => exact absurd ((h key slot).1 hfound).1 (habsent slot)

theorem isIndexed_empty : empty.IsIndexed := by
  intro key slot
  have hnone : (empty.index)[key]? = none := Std.HashMap.getElem?_empty
  rw [hnone]
  constructor
  · intro h
    exact absurd h (by simp)
  · rintro ⟨hheld, -⟩
    exact absurd (get?_eq_some_iff.1 hheld).2 (by simp [empty])

/-! ## Growing -/

/-- Behind the slots of a pool, texts and symbols have been added. -/
def GrowsTo (pool later : ConstantPool) : Prop :=
  ∃ keys : List Key, later.toList = pool.toList ++ keys.map Key.entry

theorem GrowsTo.refl (pool : ConstantPool) : pool.GrowsTo pool :=
  ⟨[], by rw [List.map_nil, List.append_nil]⟩

/-- A pool that is built from the same slots is one that a pool may grow to. -/
theorem GrowsTo.ofList (pool : ConstantPool) : pool.GrowsTo (.ofList pool.toList) :=
  ⟨[], by rw [List.map_nil, List.append_nil]; rfl⟩

theorem GrowsTo.trans {pool middle later : ConstantPool} (h : pool.GrowsTo middle)
    (h' : middle.GrowsTo later) : pool.GrowsTo later := by
  obtain ⟨keys, hkeys⟩ := h
  obtain ⟨keys', hkeys'⟩ := h'
  exact ⟨keys ++ keys', by rw [hkeys', hkeys, List.map_append, List.append_assoc]⟩

theorem GrowsTo.isPrefix {pool later : ConstantPool} (h : pool.GrowsTo later) :
    pool.toList <+: later.toList := by
  obtain ⟨keys, hkeys⟩ := h
  exact ⟨keys.map Key.entry, hkeys.symm⟩

theorem GrowsTo.get? {pool later : ConstantPool} (h : pool.GrowsTo later) {slot : UInt16}
    {entry : Entry} (hheld : pool.get? slot = some entry) : later.get? slot = some entry :=
  get?_of_isPrefix h.isPrefix hheld

/-- What is in a slot later has been there if the slot was taken. -/
theorem GrowsTo.get?_of_le {pool later : ConstantPool} (h : pool.GrowsTo later) {slot : UInt16}
    {entry : Entry} (hheld : later.get? slot = some entry) (hle : slot.toNat ≤ pool.size) :
    pool.get? slot = some entry := by
  obtain ⟨keys, hkeys⟩ := h
  obtain ⟨hne, hentry⟩ := get?_eq_some_iff.1 hheld
  have hpos : slot.toNat ≠ 0 := fun hzero => hne (UInt16.toNat_inj.1 hzero)
  have hlt : slot.toNat - 1 < pool.toList.length := by
    change slot.toNat - 1 < pool.size
    omega
  rw [hkeys, List.getElem?_append_left hlt] at hentry
  exact get?_eq_some_iff.2 ⟨hne, hentry⟩

theorem size_of_append {pool later : ConstantPool} {added : List Entry}
    (h : later.toList = pool.toList ++ added) : later.size = pool.size + added.length := by
  have hlen := congrArg List.length h
  rwa [List.length_append] at hlen

/-- The lowest slot of an entry remains the lowest one. -/
theorem IsLowest.mono {pool later : ConstantPool} {entry : Entry} {slot : UInt16}
    (h : pool.IsLowest entry slot) (hgrows : pool.GrowsTo later) : later.IsLowest entry slot := by
  refine ⟨hgrows.get? h.1, ?_⟩
  intro other hother
  by_cases hle : other.toNat ≤ pool.size
  · exact h.2 other (hgrows.get?_of_le hother hle)
  · have hsize := toNat_le_size h.1
    rw [UInt16.le_iff_toNat_le]
    omega

theorem IsLowest.unique {pool : ConstantPool} {entry : Entry} {slot other : UInt16}
    (h : pool.IsLowest entry slot) (h' : pool.IsLowest entry other) : slot = other :=
  UInt16.le_antisymm (h.2 other h'.1) (h'.2 slot h.1)

/-! ## One step -/

/-- What interning a key in a pool can end in. -/
inductive InternStep (pool : ConstantPool) (key : Key) :
    EStateM.Result ClassFile.Error ConstantPool UInt16 → Prop where
  /-- The entry is there, and its lowest slot is found. -/
  | found {slot : UInt16} (hlowest : pool.IsLowest key.entry slot) :
      InternStep pool key (.ok slot pool)
  /-- The entry is not there, and no slot is left for it. -/
  | full (habsent : ∀ slot, pool.get? slot ≠ some key.entry) (hsize : capacity ≤ pool.size) :
      InternStep pool key (.error .poolFull pool)
  /-- The entry is not there, and takes the next slot. -/
  | taken {slot : UInt16} {later : ConstantPool}
      (habsent : ∀ slot, pool.get? slot ≠ some key.entry) (hsize : pool.size < capacity)
      (hslot : slot.toNat = pool.size + 1) (hlater : later.toList = pool.toList ++ [key.entry])
      (hindexed : later.IsIndexed) : InternStep pool key (.ok slot later)

/-- What is in the slots once one more has been taken. -/
theorem get?_concat_iff {pool later : ConstantPool} {added entry : Entry} {slot : UInt16}
    (h : later.toList = pool.toList ++ [added]) :
    later.get? slot = some entry ↔
      pool.get? slot = some entry ∨ slot.toNat = pool.size + 1 ∧ added = entry := by
  have hlen : pool.toList.length = pool.size := rfl
  have hzero : slot ≠ 0 ↔ slot.toNat ≠ 0 := by
    rw [ne_eq, ← UInt16.toNat_inj]
    rfl
  rw [get?_eq_some_iff, get?_eq_some_iff, h, hzero]
  by_cases hnone : slot.toNat = 0
  · simp [hnone]
  by_cases hlt : slot.toNat - 1 < pool.size
  · rw [List.getElem?_append_left (by rw [hlen]; exact hlt)]
    constructor
    · intro hheld
      exact Or.inl hheld
    · rintro (hheld | ⟨hslot, -⟩)
      · exact hheld
      · omega
  · have hout : pool.toList[slot.toNat - 1]? = none := by
      rw [List.getElem?_eq_none_iff, hlen]
      omega
    rw [List.getElem?_append_right (by rw [hlen]; omega), hlen, hout]
    by_cases heq : slot.toNat = pool.size + 1
    · rw [show slot.toNat - 1 - pool.size = 0 by omega]
      simp [heq]
    · have hpos : slot.toNat - 1 - pool.size ≠ 0 := by omega
      obtain ⟨n, hn⟩ := Nat.exists_eq_succ_of_ne_zero hpos
      simp [hn, heq]

theorem toList_push (pool : ConstantPool) (key : Key) (index : Std.HashMap Key UInt16) :
    toList ⟨pool.entries.push key.entry, index⟩ = pool.toList ++ [key.entry] := by
  unfold toList
  rw [Array.toList_push]

theorem Key.entry_inj {key key' : Key} (h : key.entry = key'.entry) : key = key' := by
  have hsome := congrArg Entry.key? h
  rwa [Key.key?_entry, Key.key?_entry, Option.some_inj] at hsome

/-- Once one more slot has been taken, the lowest slot of an entry is the one that it had, or the
new one if it had none. -/
theorem isLowest_concat_iff {pool later : ConstantPool} {added entry : Entry} {slot : UInt16}
    (h : later.toList = pool.toList ++ [added]) :
    later.IsLowest entry slot ↔
      pool.IsLowest entry slot ∨ (∀ other, pool.get? other ≠ some entry) ∧
        slot.toNat = pool.size + 1 ∧ added = entry := by
  unfold IsLowest
  simp only [get?_concat_iff h]
  constructor
  · rintro ⟨hheld, hlowest⟩
    by_cases habsent : ∀ other, pool.get? other ≠ some entry
    · rcases hheld with hheld | hnew
      · exact absurd hheld (habsent slot)
      · exact Or.inr ⟨habsent, hnew⟩
    · obtain ⟨other, hother⟩ := not_forall_not.1 habsent
      have hle := UInt16.le_iff_toNat_le.1 (hlowest other (Or.inl hother))
      have hsize := toNat_le_size hother
      rcases hheld with hheld | ⟨hslot, -⟩
      · exact Or.inl ⟨hheld, fun other hother => hlowest other (Or.inl hother)⟩
      · omega
  · rintro (⟨hheld, hlowest⟩ | ⟨habsent, hslot, rfl⟩)
    · refine ⟨Or.inl hheld, ?_⟩
      rintro other (hother | ⟨hother, -⟩)
      · exact hlowest other hother
      · have hsize := toNat_le_size hheld
        rw [UInt16.le_iff_toNat_le]
        omega
    · refine ⟨Or.inr ⟨hslot, rfl⟩, ?_⟩
      rintro other (hother | ⟨hother, -⟩)
      · exact absurd hother (habsent other)
      · rw [UInt16.le_iff_toNat_le]
        omega

/-- A right index stays right if the entry that is added is put into it just where it was not found
before. -/
theorem isIndexed_concat {pool later : ConstantPool} {added : Entry} {slot : UInt16}
    (h : pool.IsIndexed) (hlater : later.toList = pool.toList ++ [added])
    (hslot : slot.toNat = pool.size + 1)
    (hindex : ∀ key : Key, later.index[key]? =
      if key.entry = added ∧ pool.index[key]? = none then some slot else pool.index[key]?) :
    later.IsIndexed := by
  intro key slot'
  rw [isLowest_concat_iff hlater, ← h key slot', hindex, ← h.getElem?_eq_none_iff]
  by_cases hnew : key.entry = added ∧ pool.index[key]? = none
  · obtain ⟨hentry, hnone⟩ := hnew
    rw [if_pos ⟨hentry, hnone⟩, hnone, Option.some_inj, ← UInt16.toNat_inj, hslot]
    constructor
    · intro heq
      exact Or.inr ⟨rfl, heq.symm, hentry.symm⟩
    · rintro (hfound | ⟨-, heq, -⟩)
      · exact absurd hfound (by simp)
      · exact heq.symm
  · rw [if_neg hnew]
    constructor
    · exact Or.inl
    · rintro (hfound | ⟨hnone, -, hentry⟩)
      · exact hfound
      · exact absurd ⟨hentry.symm, hnone⟩ hnew

theorem isIndexed_push {pool : ConstantPool} {key : Key} (h : pool.IsIndexed)
    (habsent : ∀ slot, pool.get? slot ≠ some key.entry) {slot : UInt16}
    (hslot : slot.toNat = pool.size + 1) :
    IsIndexed ⟨pool.entries.push key.entry, pool.index.insert key slot⟩ := by
  refine isIndexed_concat h (toList_push pool key _) hslot ?_
  intro key'
  change (pool.index.insert key slot)[key']? = _
  rw [Std.HashMap.getElem?_insert]
  by_cases hkey : key = key'
  · subst hkey
    have hnone := h.getElem?_eq_none_iff.2 habsent
    simp [hnone]
  · have hentry : key'.entry ≠ key.entry := fun heq => hkey (Key.entry_inj heq).symm
    simp [hkey, hentry]

theorem Entry.key?_eq_some_iff {entry : Entry} {key : Key} :
    entry.key? = some key ↔ key.entry = entry := by
  constructor
  · intro h
    cases entry <;> cases h <;> rfl
  · rintro rfl
    exact Key.key?_entry key

theorem indexOf_concat (entries : List Entry) (added : Entry) :
    indexOf (entries ++ [added]) =
      match added.key? with
      | some key => (indexOf entries).insertIfNew key (UInt16.ofNat (entries.length + 1))
      | none => indexOf entries := by
  unfold indexOf
  rw [List.zipIdx_append, List.foldl_append, Nat.add_comm entries.length 1]
  rfl

/-- The index of a pool that is given by its slots is right, as long as every slot has a number. -/
theorem isIndexed_ofList {entries : List Entry} (h : entries.length ≤ 0xFFFF) :
    (ofList entries).IsIndexed := by
  induction entries using List.reverseRecOn with
  | nil => exact isIndexed_empty
  | append_singleton entries added ih =>
    rw [List.length_append, List.length_singleton] at h
    have hslot : (UInt16.ofNat (entries.length + 1)).toNat = entries.length + 1 :=
      UInt16.toNat_ofNat_of_lt' (by rw [UInt16.size]; omega)
    refine @isIndexed_concat (ofList entries) _ added _ (ih (by omega)) rfl hslot ?_
    intro key
    change (indexOf (entries ++ [added]))[key]? =
      if key.entry = added ∧ (indexOf entries)[key]? = none then _ else (indexOf entries)[key]?
    rw [indexOf_concat]
    cases hkey : added.key? with
    | none =>
      have hother : key.entry ≠ added := by
        rintro rfl
        rw [Key.key?_entry] at hkey
        exact absurd hkey (by simp)
      rw [if_neg fun hnew => hother hnew.1]
    | some key' =>
      obtain rfl := Entry.key?_eq_some_iff.1 hkey
      have hentry : key.entry = key'.entry ↔ key' = key :=
        ⟨fun heq => (Key.entry_inj heq).symm, fun heq => by rw [heq]⟩
      simp only [Std.HashMap.getElem?_insertIfNew, beq_iff_eq, hentry]
      refine if_congr (and_congr_right ?_) rfl rfl
      rintro rfl
      rw [Std.HashMap.mem_iff_isSome_getElem?, Option.not_isSome_iff_eq_none]

/-- What interning a key does. -/
theorem intern_step {pool : ConstantPool} (h : pool.IsIndexed) (key : Key) :
    InternStep pool key (intern key pool) := by
  unfold intern
  cases hfound : pool.index[key]? with
  | some slot => exact .found ((h key slot).1 hfound)
  | none =>
    have habsent := h.getElem?_eq_none_iff.1 hfound
    obtain ⟨entries, index⟩ := pool
    simp only [push]
    by_cases hsize : capacity ≤ entries.size
    · rw [if_pos hsize]
      exact .full habsent hsize
    · rw [if_neg hsize]
      have hlt : entries.size < capacity := by omega
      have hslot : (UInt16.ofNat (entries.size + 1)).toNat = entries.size + 1 := by
        unfold capacity at hlt
        exact UInt16.toNat_ofNat_of_lt' (by rw [UInt16.size]; omega)
      exact .taken habsent hlt hslot (toList_push ⟨entries, index⟩ key _)
        (isIndexed_push h habsent hslot)

/-! ## Computations -/

variable {ε ε' α β : Type}

theorem run_bind (layout : EStateM ε ConstantPool α) (next : α → EStateM ε ConstantPool β)
    (pool : ConstantPool) :
    (layout >>= next) pool =
      match layout pool with
      | .ok value later => next value later
      | .error fault later => .error fault later := by
  change EStateM.bind layout next pool = _
  unfold EStateM.bind
  cases layout pool <;> rfl

theorem run_throw (fault : ε) (pool : ConstantPool) :
    (throw fault : EStateM ε ConstantPool α) pool = .error fault pool :=
  rfl

theorem run_map (f : α → β) (layout : EStateM ε ConstantPool α) (pool : ConstantPool) :
    (f <$> layout) pool =
      match layout pool with
      | .ok value later => .ok (f value) later
      | .error fault later => .error fault later := by
  rw [← bind_pure_comp, run_bind]
  cases layout pool <;> rfl

/-- Whether it succeeds or fails, a computation keeps the index of a pool right and only adds slots,
and what it returns is good in every pool that the one it leaves may grow to. -/
def Lays (layout : EStateM ε ConstantPool α) (good : ConstantPool → α → Prop) : Prop :=
  ∀ pool : ConstantPool, pool.IsIndexed →
    match layout pool with
    | .ok value later =>
      (later.IsIndexed ∧ pool.GrowsTo later) ∧ ∀ final, later.GrowsTo final → good final value
    | .error _ later => later.IsIndexed ∧ pool.GrowsTo later

namespace Lays

variable {layout : EStateM ε ConstantPool α} {good : ConstantPool → α → Prop}

/-- The pool that a successful computation leaves, and what it returns. -/
theorem of_ok (h : Lays layout good) {pool later : ConstantPool} {value : α}
    (hindexed : pool.IsIndexed) (hrun : layout pool = .ok value later) :
    (later.IsIndexed ∧ pool.GrowsTo later) ∧ ∀ final, later.GrowsTo final → good final value := by
  have hcase := h pool hindexed
  rwa [hrun] at hcase

protected theorem pure {value : α} (h : ∀ final, good final value) :
    Lays (pure value : EStateM ε ConstantPool α) good := by
  intro pool hindexed
  exact ⟨⟨hindexed, .refl pool⟩, fun final _ => h final⟩

protected theorem throw (fault : ε) : Lays (throw fault : EStateM ε ConstantPool α) good := by
  intro pool hindexed
  exact ⟨hindexed, .refl pool⟩

theorem throw_bind (fault : ε) (next : α → EStateM ε ConstantPool β)
    {good : ConstantPool → β → Prop} :
    Lays ((throw fault : EStateM ε ConstantPool α) >>= next) good := by
  intro pool hindexed
  exact ⟨hindexed, .refl pool⟩

/-- What comes after may rely on what the first result stands for. -/
theorem bind {next : α → EStateM ε ConstantPool β} {good' : ConstantPool → β → Prop}
    (h : Lays layout good)
    (hnext : ∀ value, Lays (next value) fun final result => good final value → good' final result) :
    Lays (layout >>= next) good' := by
  intro pool hindexed
  have hfirst := h pool hindexed
  rw [run_bind]
  cases hrun : layout pool with
  | error fault middle =>
    rw [hrun] at hfirst
    exact hfirst
  | ok value middle =>
    rw [hrun] at hfirst
    obtain ⟨⟨hmiddle, hgrows⟩, hgood⟩ := hfirst
    have hsecond := hnext value middle hmiddle
    cases hrest : next value middle with
    | error fault later =>
      simp only [hrest] at hsecond ⊢
      exact ⟨hsecond.1, hgrows.trans hsecond.2⟩
    | ok result later =>
      simp only [hrest] at hsecond ⊢
      obtain ⟨⟨hlater, hgrows'⟩, hgood'⟩ := hsecond
      refine ⟨⟨hlater, hgrows.trans hgrows'⟩, ?_⟩
      intro final hfinal
      exact hgood' final hfinal (hgood final (hgrows'.trans hfinal))

theorem imp {good' : ConstantPool → α → Prop} (h : Lays layout good)
    (himp : ∀ final value, good final value → good' final value) : Lays layout good' := by
  intro pool hindexed
  have hcase := h pool hindexed
  cases hrun : layout pool with
  | error fault later =>
    rw [hrun] at hcase
    exact hcase
  | ok value later =>
    rw [hrun] at hcase
    exact ⟨hcase.1, fun final hfinal => himp final value (hcase.2 final hfinal)⟩

protected theorem map {f : α → β} {good' : ConstantPool → β → Prop} (h : Lays layout good)
    (himp : ∀ final value, good final value → good' final (f value)) :
    Lays (f <$> layout) good' := by
  rw [← bind_pure_comp]
  exact h.bind fun value => .pure fun final => himp final value

/-- A row of items is laid out one after the other. -/
protected theorem mapM {f : α → EStateM ε ConstantPool β} {items : List α}
    {good : α → ConstantPool → β → Prop} (h : ∀ item ∈ items, Lays (f item) (good item)) :
    Lays (items.mapM f) fun final values =>
      List.Forall₂ (fun item value => good item final value) items values := by
  induction items with
  | nil =>
    rw [List.mapM_nil]
    exact .pure fun _ => .nil
  | cons item items ih =>
    rw [List.forall_mem_cons] at h
    rw [List.mapM_cons]
    refine h.1.bind fun value => (ih h.2).bind fun values => .pure ?_
    intro final hvalues hvalue
    exact .cons hvalue hvalues

/-- Passing faults on under another name changes nothing about the pool. -/
theorem adaptExcept {wrap : ε → ε'} (h : Lays layout good) :
    Lays (layout.adaptExcept wrap) good := by
  intro pool hindexed
  have hcase := h pool hindexed
  unfold EStateM.adaptExcept
  cases hrun : layout pool with
  | error fault later =>
    rw [hrun] at hcase
    exact hcase
  | ok value later =>
    rw [hrun] at hcase
    exact hcase

end Lays

/-! ## Sequences -/

/-- The pool that a computation leaves, whether it succeeds or fails. -/
def leftBy (layout : EStateM ε ConstantPool α) (pool : ConstantPool) : ConstantPool :=
  match layout pool with
  | .ok _ later => later
  | .error _ later => later

/-- The pool after a row of computations, any of which may fail. -/
def afterAll (pool : ConstantPool) (layouts : List (EStateM ε ConstantPool α)) : ConstantPool :=
  layouts.foldl (fun pool layout => leftBy layout pool) pool

variable {layout : EStateM ε ConstantPool α} {layouts : List (EStateM ε ConstantPool α)}
  {good : ConstantPool → α → Prop} {pool later : ConstantPool} {value : α}

theorem Lays.leftBy (h : Lays layout good) (hindexed : pool.IsIndexed) :
    (leftBy layout pool).IsIndexed ∧ pool.GrowsTo (leftBy layout pool) := by
  have hcase := h pool hindexed
  unfold ConstantPool.leftBy
  cases hrun : layout pool with
  | ok value later =>
    rw [hrun] at hcase
    exact hcase.1
  | error fault later =>
    rw [hrun] at hcase
    exact hcase

theorem afterAll_run (hindexed : pool.IsIndexed)
    (h : ∀ layout ∈ layouts, ∃ good, Lays layout good) :
    (pool.afterAll layouts).IsIndexed ∧ pool.GrowsTo (pool.afterAll layouts) := by
  induction layouts generalizing pool with
  | nil => exact ⟨hindexed, .refl pool⟩
  | cons layout layouts ih =>
    rw [List.forall_mem_cons] at h
    obtain ⟨⟨good, hfirst⟩, hrest⟩ := h
    obtain ⟨hmiddle, hgrows⟩ := hfirst.leftBy hindexed
    obtain ⟨hlater, hgrows'⟩ := ih hmiddle hrest
    exact ⟨hlater, hgrows.trans hgrows'⟩

theorem afterAll_append (pool : ConstantPool) (layouts layouts' : List (EStateM ε ConstantPool α)) :
    pool.afterAll (layouts ++ layouts') = (pool.afterAll layouts).afterAll layouts' :=
  List.foldl_append

/-- What a computation returns is good when all that come after it have run. -/
theorem Lays.good_afterAll (h : Lays layout good) (hindexed : pool.IsIndexed)
    (hrun : layout pool = .ok value later) (hafter : ∀ layout ∈ layouts, ∃ good, Lays layout good) :
    good (pool.afterAll (layout :: layouts)) value := by
  obtain ⟨⟨hlater, -⟩, hgood⟩ := h.of_ok hindexed hrun
  have hleft : pool.afterAll (layout :: layouts) = later.afterAll layouts := by
    unfold afterAll ConstantPool.leftBy
    rw [List.foldl_cons, hrun]
  rw [hleft]
  exact hgood _ (afterAll_run hlater hafter).2

/-! ## Interned names -/

/-- Interning gives the lowest slot of the entry, which remains the lowest one. -/
theorem lays_intern_lowest (key : Key) :
    Lays (intern key) fun final slot => final.IsLowest key.entry slot := by
  intro pool hindexed
  have hstep := intern_step hindexed key
  cases hrun : intern key pool with
  | error fault later =>
    rw [hrun] at hstep
    cases hstep
    exact ⟨hindexed, .refl pool⟩
  | ok slot later =>
    rw [hrun] at hstep
    cases hstep with
    | found hlowest => exact ⟨⟨hindexed, .refl pool⟩, fun final hfinal => hlowest.mono hfinal⟩
    | taken habsent hsize hslot hlater hindexed' =>
      refine ⟨⟨hindexed', [key], hlater⟩, ?_⟩
      intro final hfinal
      have hlowest : later.IsLowest key.entry slot :=
        (isLowest_concat_iff hlater).2 (Or.inr ⟨habsent, hslot, rfl⟩)
      exact hlowest.mono hfinal

theorem lays_intern (key : Key) :
    Lays (intern key) fun final slot => final.get? slot = some key.entry :=
  (lays_intern_lowest key).imp fun _ _ hlowest => hlowest.1

/-- A text resolves to itself, and its slot is not zero. -/
theorem lays_internUtf8 (text : String) :
    Lays (internUtf8 text) fun final slot => slot ≠ 0 ∧ final.utf8 slot = .ok text := by
  refine (lays_intern (.utf8 text)).imp ?_
  intro final slot hheld
  exact ⟨(get?_eq_some_iff.1 hheld).1, utf8_of_get? hheld⟩

/-- A symbol resolves to its name as the pool holds it. -/
theorem lays_internSymbol (kind : SymbolKind) (name : String) :
    Lays (internSymbol kind name) fun final slot => final.symbolName kind slot = .ok name := by
  refine (lays_internUtf8 name).bind fun nameSlot => (lays_intern (.symbol kind nameSlot)).imp ?_
  rintro final slot hheld ⟨-, hname⟩
  rw [symbolName_of_get? hheld, hname]

theorem lays_internModule (name : String) :
    Lays (internModule name) fun final slot => final.moduleName slot = .ok name :=
  lays_internSymbol .moduleSymbol name

/-- A class without slashes in its dotted name resolves to that name. -/
theorem lays_internClass (name : String) :
    Lays (internClass name) fun final slot =>
      '/' ∉ name.toList → final.className slot = .ok name := by
  refine (lays_internSymbol .classSymbol (InternalName.ofDotted name)).imp ?_
  intro final slot hname hslash
  have hread : InternalName.className (InternalName.ofDotted name) = name := by
    rw [InternalName.className_eq_packageName, InternalName.packageName_ofDotted hslash]
  unfold className
  rw [hname]
  exact congrArg Except.ok hread

/-- A package without slashes in its dotted name resolves to that name. -/
theorem lays_internPackage (name : String) :
    Lays (internPackage name) fun final slot =>
      '/' ∉ name.toList → final.packageName slot = .ok name := by
  refine (lays_internSymbol .packageSymbol (InternalName.ofDotted name)).imp ?_
  intro final slot hname hslash
  unfold packageName
  rw [hname]
  exact congrArg Except.ok (InternalName.packageName_ofDotted hslash)

end ConstantPool
end ModuleRecord
