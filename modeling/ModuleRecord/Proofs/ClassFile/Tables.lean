import ModuleRecord.ClassFile.Table
import ModuleRecord.Proofs.ClassFile.Reads
import ModuleRecord.Proofs.Fallible

/-!
# Tables written and read back

What is written for a table is its count and the bytes of its rows, and there is a fault only where
a row has one or the count does not fit. A table whose rows read back reads back itself.
-/

namespace ModuleRecord
namespace Written

variable {α : Type}

open Reader (Reads IsStreaming)

/-! ## Writing -/

theorem count_eq_ok_iff {n : Nat} {bytes : Bytes} :
    count n = .ok bytes ↔ n ≤ 0xFFFF ∧ Bytes.ofNat 2 n = bytes :=
  Fallible.ite_eq_ok_iff

theorem list_eq_ok_iff {item : α → Written} {items : List α} {bytes : Bytes} :
    list item items = .ok bytes ↔
      ∃ parts, List.Forall₂ (fun x part => item x = .ok part) items parts ∧
        parts.flatten = bytes := by
  rw [list, Fallible.map_eq_ok_iff]
  simp only [Fallible.mapM_eq_ok_iff]

theorem list_cons {item : α → Written} (x : α) (items : List α) :
    list item (x :: items) = item x >>= fun first => list item items >>= fun others =>
      pure (first ++ others) := by
  simp [list]

theorem table_eq_ok_iff {row : α → Written} {rows : List α} {bytes : Bytes} :
    table row rows = .ok bytes ↔
      rows.length ≤ 0xFFFF ∧ ∃ parts, List.Forall₂ (fun x part => row x = .ok part) rows parts ∧
        Bytes.ofNat 2 rows.length ++ parts.flatten = bytes := by
  rw [table, Fallible.bind_eq_ok_iff]
  simp only [count_eq_ok_iff, Fallible.bind_eq_ok_iff, list_eq_ok_iff]
  constructor
  · rintro ⟨_, ⟨hle, rfl⟩, _, ⟨parts, hparts, rfl⟩, hpure⟩
    cases hpure
    exact ⟨hle, parts, hparts, rfl⟩
  · rintro ⟨hle, parts, hparts, rfl⟩
    exact ⟨_, ⟨hle, rfl⟩, _, ⟨parts, hparts, rfl⟩, rfl⟩

/-- A row of items that are all written without fault is written as their bytes. -/
theorem forall₂_ok_iff {f : α → Bytes} {items : List α} {parts : List Bytes} :
    List.Forall₂ (fun x part => (Except.ok (f x) : Written) = .ok part) items parts ↔
      items.map f = parts := by
  simp only [Except.ok.injEq]
  exact Fallible.forall₂_eq_iff

theorem words_eq_ok_iff {slots : List UInt16} {bytes : Bytes} :
    words slots = .ok bytes ↔
      slots.length ≤ 0xFFFF ∧
        Bytes.ofNat 2 slots.length ++ slots.flatMap Bytes.ofUInt16 = bytes := by
  rw [words, table_eq_ok_iff]
  simp only [forall₂_ok_iff, exists_eq_left', List.flatMap_def]

theorem exists_words_ok_iff {slots : List UInt16} :
    (∃ bytes, words slots = .ok bytes) ↔ slots.length ≤ 0xFFFF := by
  simp only [words_eq_ok_iff]
  exact ⟨fun ⟨_, hle, _⟩ => hle, fun hle => ⟨_, hle, rfl⟩⟩

/-- Rows that can all be written, and counted, make up a table that can be written. -/
theorem exists_table_ok_iff {row : α → Written} {rows : List α} :
    (∃ bytes, table row rows = .ok bytes) ↔
      rows.length ≤ 0xFFFF ∧ ∀ x ∈ rows, ∃ part, row x = .ok part := by
  simp only [table_eq_ok_iff]
  rw [← Fallible.exists_forall₂_iff]
  constructor
  · rintro ⟨_, hle, parts, hparts, -⟩
    exact ⟨hle, parts, hparts⟩
  · rintro ⟨hle, parts, hparts⟩
    exact ⟨_, hle, parts, hparts, rfl⟩

/-! ## Sizes -/

/-- What is written is possible on a condition only, and then has a known size. -/
structure Sized (written : Written) (possible : Prop) (size : Nat) : Prop where
  exists_iff : (∃ bytes, written = .ok bytes) ↔ possible
  length_eq : ∀ bytes, written = .ok bytes → bytes.length = size

namespace Sized

variable {written : Written} {possible possible' : Prop} {size size' : Nat}

protected theorem pure {bytes : Bytes} (h : bytes.length = size) :
    Sized (pure bytes : Written) True size := by
  refine ⟨Fallible.exists_pure_iff, ?_⟩
  intro found hfound
  cases hfound
  exact h

theorem bind {next : Bytes → Written} (h : Sized written possible size)
    (hnext : ∀ bytes, bytes.length = size → Sized (next bytes) possible' size') :
    Sized (written >>= next) (possible ∧ possible') size' := by
  refine ⟨?_, ?_⟩
  · rw [Fallible.exists_bind_iff, ← h.exists_iff, ← exists_and_right]
    refine exists_congr fun bytes => and_congr_right fun hbytes => ?_
    exact (hnext bytes (h.length_eq bytes hbytes)).exists_iff
  · intro all hall
    obtain ⟨bytes, hbytes, hrest⟩ := Fallible.bind_eq_ok_iff.1 hall
    exact (hnext bytes (h.length_eq bytes hbytes)).length_eq all hrest

theorem congr (h : Sized written possible size) (hpossible : possible ↔ possible')
    (hsize : size = size') : Sized written possible' size' :=
  ⟨h.exists_iff.trans hpossible, fun bytes hbytes => (h.length_eq bytes hbytes).trans hsize⟩

/-- What is made of written bytes can be written whenever they can. -/
theorem bind_pure {f : Bytes → Bytes} (h : Sized written possible size)
    (hsize : ∀ bytes, bytes.length = size → (f bytes).length = size') :
    Sized (written >>= fun bytes => Pure.pure (f bytes)) possible size' :=
  (h.bind fun bytes hbytes => .pure (hsize bytes hbytes)).congr (iff_of_eq (and_true _)) rfl

end Sized

theorem sized_count (n : Nat) : Sized (count n) (n ≤ 0xFFFF) 2 := by
  refine ⟨?_, ?_⟩
  · simp only [count_eq_ok_iff, exists_and_left, exists_eq', and_true]
  · intro bytes hbytes
    obtain ⟨-, rfl⟩ := count_eq_ok_iff.1 hbytes
    exact Bytes.length_ofNat 2 n

/-- A table is possible and sized as the items are that its rows stand for. -/
theorem sized_table {β : Type} {row : α → Written} {possible : β → Prop} {size : β → Nat}
    {items : List β} {rows : List α}
    (h : List.Forall₂ (fun item x => Sized (row x) (possible item) (size item)) items rows) :
    Sized (table row rows) (items.length ≤ 0xFFFF ∧ ∀ item ∈ items, possible item)
      (2 + (items.map size).sum) := by
  have hrows : (∀ x ∈ rows, ∃ part, row x = .ok part) ↔ ∀ item ∈ items, possible item := by
    induction h with
    | nil => exact iff_of_true (fun _ hx => absurd hx (by simp)) fun _ hx => absurd hx (by simp)
    | cons hrow _ ih => rw [List.forall_mem_cons, List.forall_mem_cons, hrow.exists_iff, ih]
  have hsizes (parts : List Bytes)
      (hparts : List.Forall₂ (fun x part => row x = .ok part) rows parts) :
      parts.flatten.length = (items.map size).sum := by
    clear hrows
    induction h generalizing parts with
    | nil =>
      cases hparts
      rfl
    | cons hrow _ ih =>
      cases hparts with
      | cons hpart hparts =>
        rw [List.flatten_cons, List.length_append, List.map_cons, List.sum_cons,
          hrow.length_eq _ hpart, ih _ hparts]
  refine ⟨?_, ?_⟩
  · rw [exists_table_ok_iff, hrows, h.length_eq]
  · intro bytes hbytes
    obtain ⟨-, parts, hparts, rfl⟩ := table_eq_ok_iff.1 hbytes
    rw [List.length_append, Bytes.length_ofNat, hsizes parts hparts]

theorem sized_words (slots : List UInt16) :
    Sized (words slots) (slots.length ≤ 0xFFFF) (2 + 2 * slots.length) := by
  refine ⟨exists_words_ok_iff, ?_⟩
  intro bytes hbytes
  obtain ⟨-, rfl⟩ := words_eq_ok_iff.1 hbytes
  rw [List.length_append, Bytes.length_ofNat, List.length_flatMap]
  simp [Nat.mul_comm]

/-! ## Reading back -/

/-- A table is read back from its bytes if its rows are. -/
theorem reads_table {row : α → Written} {reader : Reader α} (h : IsStreaming reader)
    {rows : List α} {bytes : Bytes} (hwritten : table row rows = .ok bytes)
    (hrows : ∀ x ∈ rows, ∀ part, row x = .ok part → Reads reader part x) :
    Reads (Reader.table reader) bytes rows := by
  obtain ⟨hle, parts, hparts, rfl⟩ := table_eq_ok_iff.1 hwritten
  refine (Reader.reads_table_iff h).2 ⟨hle, parts, ?_, rfl⟩
  clear hwritten hle
  induction hparts with
  | nil => exact .nil
  | @cons x part rows parts hpart _ ih =>
    rw [List.forall_mem_cons] at hrows
    exact .cons (hrows.1 part hpart) (ih hrows.2)

/-- Rows that are read from exactly what is written for them make up such a table. -/
theorem reads_table_iff_table {row : α → Written} {reader : Reader α} (h : IsStreaming reader)
    (hrow : ∀ used x, Reads reader used x ↔ row x = .ok used) {used : Bytes} {rows : List α} :
    Reads (Reader.table reader) used rows ↔ table row rows = .ok used := by
  rw [Reader.reads_table_iff h, table_eq_ok_iff]
  have hflip (parts : List Bytes) : List.Forall₂ (Reads reader) parts rows ↔
      List.Forall₂ (fun x part => row x = .ok part) rows parts :=
    ⟨fun hall => (hall.imp fun used x => (hrow used x).1).flip,
      fun hall => (hall.imp fun x used => (hrow used x).2).flip⟩
  simp only [hflip]

theorem reads_words_iff {used : Bytes} {slots : List UInt16} :
    Reads (Reader.table Reader.u16) used slots ↔ words slots = .ok used := by
  refine reads_table_iff_table Reader.isStreaming_u16 fun part slot => ?_
  rw [Reader.reads_u16_iff, Except.ok.injEq]
  exact eq_comm

end Written
end ModuleRecord
