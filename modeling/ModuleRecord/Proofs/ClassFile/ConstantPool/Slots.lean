import ModuleRecord.ClassFile.ConstantPool.Basic

/-!
# Slots of wide entries

A wide entry takes two slots. `IsPaired` says of the slots of a pool that the second slot of every
wide entry is unusable and that no other slot is. Such a row of slots is exactly what a row of
entries takes (`isPaired_iff`).
-/

namespace ModuleRecord
namespace ConstantPool

/-- Each wide entry has the unusable slot directly behind it, and each unusable slot has a wide
entry directly before it. -/
structure IsPaired (slots : List Entry) : Prop where
  /-- The slot behind a wide entry is unusable. -/
  behind : ∀ (i : Nat) (entry : Entry), slots[i]? = some entry → entry.isWide = true →
    slots[i + 1]? = some .unusable
  /-- The slot before an unusable one holds a wide entry. -/
  before : ∀ i : Nat, slots[i]? = some .unusable →
    ∃ j entry, i = j + 1 ∧ slots[j]? = some entry ∧ entry.isWide = true

/-- The slots that an entry takes. -/
def Entry.slots (entry : Entry) : List Entry :=
  if entry.isWide then [entry, .unusable] else [entry]

theorem Entry.slots_of_isWide {entry : Entry} (h : entry.isWide = true) :
    entry.slots = [entry, .unusable] := by
  rw [Entry.slots, if_pos h]

theorem Entry.slots_of_not_isWide {entry : Entry} (h : ¬ entry.isWide = true) :
    entry.slots = [entry] := by
  rw [Entry.slots, if_neg h]

/-- An entry that takes one slot may stand before paired slots. -/
theorem IsPaired.cons_iff {entry : Entry} {slots : List Entry} (h : ¬ entry.isWide = true)
    (hu : entry ≠ .unusable) : IsPaired (entry :: slots) ↔ IsPaired slots := by
  constructor
  · intro hp
    refine ⟨fun i other hother hwide => ?_, fun i hi => ?_⟩
    · have hnext := hp.behind (i + 1) other (by rw [List.getElem?_cons_succ]; exact hother) hwide
      rwa [List.getElem?_cons_succ] at hnext
    · have hnext : (entry :: slots)[i + 1]? = some .unusable := by
        rw [List.getElem?_cons_succ]
        exact hi
      obtain ⟨j, other, hj, hother, hwide⟩ := hp.before (i + 1) hnext
      cases j with
      | zero =>
        rw [List.getElem?_cons_zero, Option.some_inj] at hother
        exact absurd (hother ▸ hwide) h
      | succ j =>
        rw [List.getElem?_cons_succ] at hother
        exact ⟨j, other, by omega, hother, hwide⟩
  · intro hp
    refine ⟨fun i other hother hwide => ?_, fun i hi => ?_⟩
    · cases i with
      | zero =>
        rw [List.getElem?_cons_zero, Option.some_inj] at hother
        exact absurd (hother ▸ hwide) h
      | succ i =>
        rw [List.getElem?_cons_succ] at hother ⊢
        exact hp.behind i other hother hwide
    · cases i with
      | zero =>
        rw [List.getElem?_cons_zero, Option.some_inj] at hi
        exact absurd hi hu
      | succ i =>
        rw [List.getElem?_cons_succ] at hi
        obtain ⟨j, other, rfl, hother, hwide⟩ := hp.before i hi
        exact ⟨j + 1, other, rfl, by rw [List.getElem?_cons_succ]; exact hother, hwide⟩

/-- A wide entry with its second slot may stand before paired slots. -/
theorem IsPaired.cons_cons_iff {entry : Entry} {slots : List Entry} (h : entry.isWide = true) :
    IsPaired (entry :: .unusable :: slots) ↔ IsPaired slots := by
  have hwideu : ¬ Entry.isWide .unusable = true := by decide
  constructor
  · intro hp
    refine ⟨fun i other hother hwide => ?_, fun i hi => ?_⟩
    · exact hp.behind (i + 2) other hother hwide
    · obtain ⟨j, other, hj, hother, hwide⟩ := hp.before (i + 2) hi
      match j with
      | 0 => omega
      | 1 =>
        rw [List.getElem?_cons_succ, List.getElem?_cons_zero, Option.some_inj] at hother
        exact absurd (hother ▸ hwide) hwideu
      | j + 2 => exact ⟨j, other, by omega, hother, hwide⟩
  · intro hp
    refine ⟨fun i other hother hwide => ?_, fun i hi => ?_⟩
    · match i with
      | 0 => rfl
      | 1 =>
        rw [List.getElem?_cons_succ, List.getElem?_cons_zero, Option.some_inj] at hother
        exact absurd (hother ▸ hwide) hwideu
      | i + 2 => exact hp.behind i other hother hwide
    · match i with
      | 0 =>
        rw [List.getElem?_cons_zero, Option.some_inj] at hi
        exact absurd (hi ▸ h) hwideu
      | 1 => exact ⟨0, entry, rfl, rfl, h⟩
      | i + 2 =>
        obtain ⟨j, other, rfl, hother, hwide⟩ := hp.before i hi
        exact ⟨j + 2, other, rfl, hother, hwide⟩

/-- What a row of entries takes is paired. -/
theorem isPaired_flatMap_slots {entries : List Entry} (h : ∀ entry ∈ entries, entry ≠ .unusable) :
    IsPaired (entries.flatMap Entry.slots) := by
  induction entries with
  | nil => exact ⟨fun i _ hi => absurd hi (by simp), fun i hi => absurd hi (by simp)⟩
  | cons entry entries ih =>
    rw [List.forall_mem_cons] at h
    by_cases hwide : entry.isWide = true
    · rw [List.flatMap_cons, Entry.slots_of_isWide hwide, List.cons_append, List.singleton_append,
        IsPaired.cons_cons_iff hwide]
      exact ih h.2
    · rw [List.flatMap_cons, Entry.slots_of_not_isWide hwide, List.singleton_append,
        IsPaired.cons_iff hwide h.1]
      exact ih h.2

/-- Slots are paired exactly if they are what some row of entries takes. -/
theorem isPaired_iff {slots : List Entry} :
    IsPaired slots ↔
      ∃ entries : List Entry, (∀ entry ∈ entries, entry ≠ .unusable) ∧
        entries.flatMap Entry.slots = slots := by
  constructor
  · intro hp
    -- a wide entry takes the next slot with it, so the induction is on the number of slots
    induction hn : slots.length using Nat.strongRecOn generalizing slots with
    | ind n ih =>
      cases slots with
      | nil => exact ⟨[], fun _ h => absurd h (by simp), rfl⟩
      | cons entry slots =>
        by_cases hwide : entry.isWide = true
        · have hsecond := hp.behind 0 entry rfl hwide
          cases slots with
          | nil => exact absurd hsecond (by simp)
          | cons second slots =>
            rw [List.getElem?_cons_succ, List.getElem?_cons_zero, Option.some_inj] at hsecond
            subst hsecond
            obtain ⟨entries, hentries, rfl⟩ := ih slots.length (by
              rw [← hn, List.length_cons, List.length_cons]
              omega) ((IsPaired.cons_cons_iff hwide).1 hp) rfl
            refine ⟨entry :: entries, List.forall_mem_cons.2 ⟨?_, hentries⟩, ?_⟩
            · rintro rfl
              exact absurd hwide (by decide)
            · rw [List.flatMap_cons, Entry.slots_of_isWide hwide]
              rfl
        · have hu : entry ≠ .unusable := by
            rintro rfl
            obtain ⟨j, _, hj, _⟩ := hp.before 0 rfl
            omega
          obtain ⟨entries, hentries, rfl⟩ := ih slots.length (by
            rw [← hn, List.length_cons]
            omega) ((IsPaired.cons_iff hwide hu).1 hp) rfl
          refine ⟨entry :: entries, List.forall_mem_cons.2 ⟨hu, hentries⟩, ?_⟩
          rw [List.flatMap_cons, Entry.slots_of_not_isWide hwide]
          rfl
  · rintro ⟨entries, hentries, rfl⟩
    exact isPaired_flatMap_slots hentries

/-- Texts and symbols are not wide, so their slots are paired. -/
theorem isPaired_map_entry (keys : List Key) : IsPaired (keys.map Key.entry) := by
  refine isPaired_iff.2 ⟨keys.map Key.entry, ?_, ?_⟩
  · rw [List.forall_mem_map]
    intro key _
    cases key <;> simp [Key.entry]
  · induction keys with
    | nil => rfl
    | cons key keys ih =>
      have hwide : ¬ key.entry.isWide = true := by cases key <;> simp [Key.entry, Entry.isWide]
      rw [List.map_cons, List.flatMap_cons, Entry.slots_of_not_isWide hwide, ih,
        List.singleton_append]

end ConstantPool
end ModuleRecord
