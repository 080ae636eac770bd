import Mathlib.Data.Finset.Card
import ModuleRecord.Proofs.ClassFile.ConstantPool.Interning

/-!
# How many slots are needed

A pool that was filled by interning alone holds a set of texts and symbols, each in one slot.
`Demands` says of a computation which texts and symbols it needs in such a pool, and that it
succeeds exactly if it is possible at all and the pool has a slot for each of them. What several
parts of a computation share is counted once.
-/

namespace ModuleRecord
namespace ConstantPool

/-! ## Texts and symbols -/

/-- What a slot can be needed for, without reference to other slots. -/
inductive Need where
  /-- A text. -/
  | text (text : String)
  /-- A symbol with its name as the pool holds it. -/
  | symbol (kind : SymbolKind) (name : String)
  deriving DecidableEq

/-- The text that is needed, or the name of the symbol. -/
def Need.name : Need → String
  | text content => content
  | symbol _ name => name

/-- The key that a need is interned by, in a pool that holds the names of symbols. -/
inductive Fulfils (pool : ConstantPool) : Need → Key → Prop where
  | text (text : String) : Fulfils pool (.text text) (.utf8 text)
  | symbol (kind : SymbolKind) {name : String} {slot : UInt16}
      (h : pool.get? slot = some (.utf8 name)) :
      Fulfils pool (.symbol kind name) (.symbol kind slot)

namespace Fulfils

variable {pool later : ConstantPool} {need need' : Need} {key : Key}

theorem mono (h : Fulfils pool need key) (hgrows : pool.GrowsTo later) :
    Fulfils later need key := by
  cases h with
  | text text => exact .text text
  | symbol kind hname => exact .symbol kind (hgrows.get? hname)

theorem unique (h : Fulfils pool need key) (h' : Fulfils pool need' key) : need = need' := by
  cases h with
  | text text =>
    cases h'
    rfl
  | symbol kind hname =>
    cases h' with
    | symbol _ hname' =>
      rw [hname, Option.some_inj, Entry.utf8.injEq] at hname'
      rw [hname']

end Fulfils

/-- The pool holds these texts and symbols, each in one slot, and nothing else that is interned. -/
structure Holds (pool : ConstantPool) (held : Finset Need) : Prop where
  indexed : pool.IsIndexed
  size_eq : pool.size = held.card
  size_le : pool.size ≤ capacity
  /-- No entry is in two slots. -/
  unique : ∀ slot other entry, pool.get? slot = some entry → pool.get? other = some entry →
    slot = other
  /-- The slot of the name of a symbol holds a text. -/
  named : ∀ slot kind nameSlot, pool.get? slot = some (.symbol kind nameSlot) →
    ∃ name, pool.get? nameSlot = some (.utf8 name)
  mem_iff : ∀ need, need ∈ held ↔
    ∃ key slot, Fulfils pool need key ∧ pool.get? slot = some key.entry

/-- Every entry of a pool has a slot, if the numbers of its slots fit a word. -/
theorem exists_slot {pool : ConstantPool} (h : pool.size ≤ 0xFFFF) {place : Nat}
    (hplace : place < pool.toList.length) :
    ∃ slot : UInt16, slot.toNat = place + 1 ∧ pool.get? slot = some pool.toList[place] := by
  have hlt : place < pool.size := hplace
  have hslot : (UInt16.ofNat (place + 1)).toNat = place + 1 :=
    UInt16.toNat_ofNat_of_lt' (by rw [UInt16.size]; omega)
  refine ⟨_, hslot, get?_eq_some_iff.2 ⟨?_, ?_⟩⟩
  · intro hzero
    rw [hzero] at hslot
    exact absurd hslot (by simp)
  · rw [hslot, Nat.add_sub_cancel, List.getElem?_eq_getElem hplace]

theorem mem_toList_iff {pool : ConstantPool} (h : pool.size ≤ 0xFFFF) {entry : Entry} :
    entry ∈ pool.toList ↔ ∃ slot, pool.get? slot = some entry := by
  constructor
  · intro hmem
    obtain ⟨place, hplace, rfl⟩ := List.getElem_of_mem hmem
    obtain ⟨slot, -, hslot⟩ := exists_slot h hplace
    exact ⟨slot, hslot⟩
  · rintro ⟨slot, hslot⟩
    exact List.mem_of_getElem? (get?_eq_some_iff.1 hslot).2

theorem holds_empty : empty.Holds ∅ := by
  have hnone (slot : UInt16) (entry : Entry) : empty.get? slot ≠ some entry := by
    intro h
    exact absurd (get?_eq_some_iff.1 h).2 (by simp [empty])
  refine ⟨isIndexed_empty, rfl, Nat.zero_le _, ?_, ?_, ?_⟩
  · intro slot other entry h
    exact absurd h (hnone slot entry)
  · intro slot kind nameSlot h
    exact absurd h (hnone slot _)
  · intro need
    refine iff_of_false (Finset.notMem_empty need) ?_
    rintro ⟨key, slot, -, h⟩
    exact hnone slot _ h

namespace Holds

variable {pool later : ConstantPool} {held : Finset Need} {need : Need} {key : Key}

theorem size_le_word (h : pool.Holds held) : pool.size ≤ 0xFFFF :=
  h.size_le.trans (by decide)

/-- A need is held exactly if the entry of its key is in the pool. -/
theorem mem_iff_of_fulfils (h : pool.Holds held) (hkey : Fulfils pool need key) :
    need ∈ held ↔ ∃ slot, pool.get? slot = some key.entry := by
  rw [h.mem_iff]
  constructor
  · rintro ⟨key', slot, hkey', hslot⟩
    cases hkey with
    | text text =>
      cases hkey'
      exact ⟨slot, hslot⟩
    | symbol kind hname =>
      cases hkey' with
      | symbol _ hname' =>
        -- the name is in one slot only, so both keys are the same
        rw [h.unique _ _ _ hname hname']
        exact ⟨slot, hslot⟩
  · rintro ⟨slot, hslot⟩
    exact ⟨key, slot, hkey, hslot⟩

/-- A key that is in the pool already fulfils there what it fulfils later. -/
theorem fulfils_of_later (h : pool.Holds held) (hgrows : pool.GrowsTo later)
    (hkey : Fulfils later need key) {slot : UInt16} (hslot : pool.get? slot = some key.entry) :
    Fulfils pool need key := by
  cases hkey with
  | text text => exact .text text
  | symbol kind hname =>
    -- the symbol is there, and so is its name
    obtain ⟨name, hname'⟩ := h.named _ _ _ hslot
    have hsame := hgrows.get? hname'
    rw [hname, Option.some_inj, Entry.utf8.injEq] at hsame
    rw [hsame]
    exact .symbol kind hname'

/-- A slot that is taken for a need adds just that need. -/
theorem taken (h : pool.Holds held) (hkey : Fulfils pool need key)
    (habsent : ∀ slot, pool.get? slot ≠ some key.entry) (hsize : pool.size < capacity)
    {slot : UInt16} (hslot : slot.toNat = pool.size + 1)
    (hlater : later.toList = pool.toList ++ [key.entry]) (hindexed : later.IsIndexed) :
    later.Holds (insert need held) := by
  have hgrows : pool.GrowsTo later := ⟨[key], hlater⟩
  have hadded : later.get? slot = some key.entry :=
    (get?_concat_iff hlater).2 (Or.inr ⟨hslot, rfl⟩)
  have hnot : need ∉ held := by
    rw [h.mem_iff_of_fulfils hkey]
    rintro ⟨other, hother⟩
    exact habsent other hother
  have hlen : later.size = pool.size + 1 := size_of_append hlater
  refine ⟨hindexed, ?_, by omega, ?_, ?_, ?_⟩
  · rw [Finset.card_insert_of_notMem hnot, hlen, h.size_eq]
  · intro first second entry hfirst hsecond
    rcases (get?_concat_iff hlater).1 hfirst with hold | ⟨hnew, rfl⟩
    · rcases (get?_concat_iff hlater).1 hsecond with hold' | ⟨-, rfl⟩
      · exact h.unique _ _ _ hold hold'
      · exact absurd hold (habsent first)
    · rcases (get?_concat_iff hlater).1 hsecond with hold' | ⟨hnew', -⟩
      · exact absurd hold' (habsent second)
      · exact UInt16.toNat_inj.1 (hnew.trans hnew'.symm)
  · intro other kind nameSlot hother
    rcases (get?_concat_iff hlater).1 hother with hother | ⟨-, hentry⟩
    · obtain ⟨name, hname⟩ := h.named _ _ _ hother
      exact ⟨name, hgrows.get? hname⟩
    · cases hkey with
      | text text => cases hentry
      | symbol kind' hname =>
        cases hentry
        exact ⟨_, hgrows.get? hname⟩
  · intro other
    rw [Finset.mem_insert, h.mem_iff]
    constructor
    · rintro (rfl | ⟨key', slot', hkey', hslot'⟩)
      · exact ⟨key, slot, hkey.mono hgrows, hadded⟩
      · exact ⟨key', slot', hkey'.mono hgrows, hgrows.get? hslot'⟩
    · rintro ⟨key', slot', hkey', hslot'⟩
      rcases (get?_concat_iff hlater).1 hslot' with hheld | ⟨-, hentry⟩
      · exact Or.inr ⟨key', slot', h.fulfils_of_later hgrows hkey' hheld, hheld⟩
      · rw [← Key.entry_inj hentry] at hkey'
        exact Or.inl (hkey'.unique (hkey.mono hgrows))

/-- Interning a need succeeds exactly if there is a slot for it. -/
theorem intern (h : pool.Holds held) (hkey : Fulfils pool need key) :
    (∃ slot later, intern key pool = .ok slot later ∧ later.Holds (insert need held) ∧
        later.get? slot = some key.entry) ∨
      (∃ fault, intern key pool = .error fault pool) ∧ capacity < (insert need held).card := by
  have hstep := intern_step h.indexed key
  have hmem := h.mem_iff_of_fulfils hkey
  cases hrun : ConstantPool.intern key pool with
  | error fault later =>
    rw [hrun] at hstep
    cases hstep with
    | full habsent hsize =>
      have hnot : need ∉ held := by
        rw [hmem]
        rintro ⟨slot, hslot⟩
        exact habsent slot hslot
      refine Or.inr ⟨⟨_, rfl⟩, ?_⟩
      rw [Finset.card_insert_of_notMem hnot, ← h.size_eq]
      omega
  | ok slot later =>
    rw [hrun] at hstep
    cases hstep with
    | found hlowest =>
      refine Or.inl ⟨slot, pool, rfl, ?_, hlowest.1⟩
      rw [Finset.insert_eq_of_mem (hmem.2 ⟨slot, hlowest.1⟩)]
      exact h
    | taken habsent hsize hslot hlater hindexed =>
      refine Or.inl ⟨slot, later, rfl, h.taken hkey habsent hsize hslot hlater hindexed, ?_⟩
      exact (get?_concat_iff hlater).2 (Or.inr ⟨hslot, rfl⟩)

end Holds

/-! ## Computations -/

variable {ε ε' α β : Type}

/-- In a pool that was filled by interning, the computation succeeds exactly if it is possible and
there are slots for what is held and what it needs; then all of that is held, and the result is as
expected. -/
def Demands (layout : EStateM ε ConstantPool α) (needs : List Need) (possible : Prop)
    (expected : α → Prop) : Prop :=
  ∀ pool held, pool.Holds held →
    match layout pool with
    | .ok value later => possible ∧ later.Holds (held ∪ needs.toFinset) ∧ expected value
    | .error _ _ => ¬ (possible ∧ (held ∪ needs.toFinset).card ≤ capacity)

namespace Demands

variable {layout : EStateM ε ConstantPool α} {needs needs' : List Need} {possible possible' : Prop}
  {expected : α → Prop}

protected theorem pure {value : α} (h : expected value) :
    Demands (pure value : EStateM ε ConstantPool α) [] True expected := by
  intro pool held hheld
  refine ⟨trivial, ?_, h⟩
  rw [List.toFinset_nil, Finset.union_empty]
  exact hheld

protected theorem throw (fault : ε) (h : ¬ possible) :
    Demands (throw fault : EStateM ε ConstantPool α) needs possible expected := by
  intro pool held _
  exact fun hboth => h hboth.1

theorem throw_bind (fault : ε) (next : α → EStateM ε ConstantPool β) {expected : β → Prop}
    (h : ¬ possible) :
    Demands ((throw fault : EStateM ε ConstantPool α) >>= next) needs possible expected := by
  intro pool held _
  exact fun hboth => h hboth.1

/-- What comes after needs its own texts and symbols beside those of the first computation, whatever
the result of that one. -/
theorem bind {next : α → EStateM ε ConstantPool β} {expected' : β → Prop}
    (h : Demands layout needs possible expected)
    (hnext : ∀ value, expected value → Demands (next value) needs' possible' expected') :
    Demands (layout >>= next) (needs ++ needs') (possible ∧ possible') expected' := by
  intro pool held hheld
  have hfirst := h pool held hheld
  have hunion : held ∪ (needs ++ needs').toFinset = held ∪ needs.toFinset ∪ needs'.toFinset := by
    rw [List.toFinset_append, Finset.union_assoc]
  rw [run_bind]
  cases hrun : layout pool with
  | error fault middle =>
    rw [hrun] at hfirst
    rintro ⟨⟨hpossible, -⟩, hcard⟩
    refine hfirst ⟨hpossible, (Finset.card_le_card ?_).trans hcard⟩
    rw [hunion]
    exact Finset.subset_union_left
  | ok value middle =>
    rw [hrun] at hfirst
    obtain ⟨hpossible, hmiddle, hexpected⟩ := hfirst
    have hsecond := hnext value hexpected middle _ hmiddle
    rw [← hunion] at hsecond
    cases hrest : next value middle with
    | error fault later =>
      simp only [hrest] at hsecond ⊢
      exact fun hboth => hsecond ⟨hboth.1.2, hboth.2⟩
    | ok result later =>
      simp only [hrest] at hsecond ⊢
      exact ⟨⟨hpossible, hsecond.1⟩, hsecond.2⟩

theorem congr (h : Demands layout needs possible expected)
    (hneeds : needs.toFinset = needs'.toFinset) (hpossible : possible ↔ possible') :
    Demands layout needs' possible' expected := by
  intro pool held hheld
  have hcase := h pool held hheld
  rwa [hneeds, hpossible] at hcase

theorem imp {expected' : α → Prop} (h : Demands layout needs possible expected)
    (himp : ∀ value, expected value → expected' value) :
    Demands layout needs possible expected' := by
  intro pool held hheld
  have hcase := h pool held hheld
  cases hrun : layout pool with
  | error fault later =>
    rw [hrun] at hcase
    exact hcase
  | ok value later =>
    rw [hrun] at hcase
    exact ⟨hcase.1, hcase.2.1, himp value hcase.2.2⟩

protected theorem map {f : α → β} {expected' : β → Prop}
    (h : Demands layout needs possible expected)
    (himp : ∀ value, expected value → expected' (f value)) :
    Demands (f <$> layout) needs possible expected' := by
  rw [← bind_pure_comp]
  have hbind := h.bind fun value hvalue => Demands.pure (himp value hvalue)
  exact hbind.congr (by rw [List.append_nil]) (iff_of_eq (and_true _))

/-- A row of items needs what its items need. -/
protected theorem mapM {f : α → EStateM ε ConstantPool β} {items : List α}
    {needs : α → List Need} {possible : α → Prop} {expected : α → β → Prop}
    (h : ∀ item ∈ items, Demands (f item) (needs item) (possible item) (expected item)) :
    Demands (items.mapM f) (items.flatMap needs) (∀ item ∈ items, possible item)
      (List.Forall₂ expected items) := by
  induction items with
  | nil =>
    rw [List.mapM_nil]
    exact (Demands.pure .nil).congr rfl (iff_of_true trivial fun _ hitem => absurd hitem (by simp))
  | cons item items ih =>
    rw [List.forall_mem_cons] at h
    rw [List.mapM_cons]
    have hbind := h.1.bind fun value hvalue => (ih h.2).bind fun values hvalues =>
      Demands.pure (List.Forall₂.cons hvalue hvalues)
    refine hbind.congr ?_ ?_
    · rw [List.append_nil, List.flatMap_cons]
    · rw [and_true, List.forall_mem_cons]

/-- Passing faults on under another name changes nothing about the pool. -/
theorem adaptExcept {wrap : ε → ε'} (h : Demands layout needs possible expected) :
    Demands (layout.adaptExcept wrap) needs possible expected := by
  intro pool held hheld
  have hcase := h pool held hheld
  unfold EStateM.adaptExcept
  cases hrun : layout pool with
  | error fault later =>
    rw [hrun] at hcase
    exact hcase
  | ok value later =>
    rw [hrun] at hcase
    exact hcase

end Demands

/-! ## Interned names -/

theorem demands_internUtf8 (text : String) :
    Demands (internUtf8 text) [.text text] True fun _ => True := by
  intro pool held hheld
  have hunion : held ∪ [Need.text text].toFinset = insert (.text text) held := by
    rw [List.toFinset_cons, List.toFinset_nil, Finset.union_comm]
    rfl
  rw [hunion]
  unfold internUtf8
  rcases hheld.intern (.text text) with ⟨slot, later, hrun, hlater, -⟩ | ⟨⟨fault, hrun⟩, hfull⟩
  · rw [hrun]
    exact ⟨trivial, hlater, trivial⟩
  · rw [hrun]
    exact fun hboth => absurd hboth.2 (Nat.not_le.2 hfull)

/-- A symbol needs its name beside itself. -/
theorem demands_internSymbol (kind : SymbolKind) (name : String) :
    Demands (internSymbol kind name) [.text name, .symbol kind name] True fun _ => True := by
  intro pool held hheld
  have hunion : held ∪ [Need.text name, Need.symbol kind name].toFinset =
      insert (.symbol kind name) (insert (.text name) held) := by
    ext need
    simp only [Finset.mem_union, List.mem_toFinset, List.mem_cons, List.not_mem_nil, or_false,
      Finset.mem_insert]
    tauto
  rw [hunion]
  unfold internSymbol internUtf8
  rw [run_bind]
  rcases hheld.intern (.text name) with ⟨slot, middle, hrun, hmiddle, hname⟩ |
    ⟨⟨fault, hrun⟩, hfull⟩
  · simp only [hrun]
    rcases hmiddle.intern (.symbol kind hname) with ⟨slot', later, hrun', hlater, -⟩ |
      ⟨⟨fault, hrun'⟩, hfull⟩
    · rw [hrun']
      exact ⟨trivial, hlater, trivial⟩
    · rw [hrun']
      exact fun hboth => absurd hboth.2 (Nat.not_le.2 hfull)
  · simp only [hrun]
    intro hboth
    have hle := Finset.card_le_card (Finset.subset_insert (Need.symbol kind name)
      (insert (.text name) held))
    omega

end ConstantPool
end ModuleRecord
