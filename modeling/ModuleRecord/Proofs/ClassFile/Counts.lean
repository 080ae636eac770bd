import ModuleRecord.Proofs.ClassFile.ModuleAttribute

/-!
# Counts that do not fit

All tables and digests in the body of an attribute have a 16-bit count in front of them. Writing a
body is refused for the first count that does not fit, in the order in which they are written, and
for nothing else (`ModuleAttribute.counted_write`).
-/

namespace ModuleRecord
namespace Written

/-! ## Counted writing -/

/-- The fault of a count that takes more than 16 bits. -/
def oversize? (n : Nat) : Option ClassFile.Error :=
  if n ≤ 0xFFFF then none else some (.tableTooLarge n)

/-- Writing is refused for the first of the counts that does not fit, and for nothing else. -/
abbrev Counted : Written → List Nat → Prop :=
  Fallible.FailsFirst oversize?

theorem oversize?_eq_none_iff {n : Nat} : oversize? n = none ↔ n ≤ 0xFFFF := by
  simp [oversize?]

theorem oversize?_eq_some_iff {n : Nat} {fault : ClassFile.Error} :
    oversize? n = some fault ↔ 0xFFFF < n ∧ .tableTooLarge n = fault := by
  by_cases h : n ≤ 0xFFFF
  · simp [oversize?, h, Nat.not_lt.2 h]
  · simp [oversize?, h, Nat.lt_of_not_le h]

theorem counted_count (n : Nat) : Counted (count n) [n] := by
  intro fault
  rw [List.findSome?_singleton, count, oversize?]
  split <;> simp

variable {α : Type} {row : α → Written} {counts : α → List Nat}

/-- The counts of a table: that of its rows, and those in each row. -/
def tableCounts (counts : α → List Nat) (rows : List α) : List Nat :=
  rows.length :: rows.flatMap counts

theorem counted_list (h : ∀ x, Counted (row x) (counts x)) (rows : List α) :
    Counted (list row rows) (rows.flatMap counts) := by
  unfold list
  rw [← bind_pure_comp]
  exact (Fallible.FailsFirst.mapM h rows).bind_pure List.flatten

theorem counted_table (h : ∀ x, Counted (row x) (counts x)) (rows : List α) :
    Counted (table row rows) (tableCounts counts rows) :=
  (counted_count rows.length).bind fun size =>
    (counted_list h rows).bind_pure fun written => size ++ written

theorem counted_words (slots : List UInt16) : Counted (words slots) [slots.length] := by
  have htable := counted_table (fun slot => .pure (Bytes.ofUInt16 slot)) slots
  have hcounts : tableCounts (fun _ : UInt16 => []) slots = [slots.length] := by
    simp [tableCounts]
  rwa [hcounts] at htable

end Written

open Written (Counted tableCounts)

/-! ## Rows -/

/-- The counts in a row for an exported or opened package. -/
def ExportsRow.counts (row : ExportsRow) : List Nat :=
  [row.targets.length]

/-- The counts in a row for a provided service. -/
def ProvidesRow.counts (row : ProvidesRow) : List Nat :=
  [row.implementations.length]

/-- The counts in a row for a digest. -/
def HashRow.counts (row : HashRow) : List Nat :=
  [row.digest.length]

theorem RequiresRow.counted_write (row : RequiresRow) : Counted row.write [] :=
  .pure _

theorem ExportsRow.counted_write (row : ExportsRow) : Counted row.write row.counts :=
  (Written.counted_words row.targets).bind_pure _

theorem ProvidesRow.counted_write (row : ProvidesRow) : Counted row.write row.counts :=
  (Written.counted_words row.implementations).bind_pure _

theorem HashRow.counted_write (row : HashRow) : Counted row.write row.counts :=
  (Written.counted_count row.digest.length).bind_pure _

/-! ## Bodies -/

/-- The counts in a declaration, in the order in which they are written. -/
def DeclarationTable.counts (table : DeclarationTable) : List Nat :=
  tableCounts (fun _ => []) table.requires ++ (tableCounts ExportsRow.counts table.exports ++
    (tableCounts ExportsRow.counts table.opens ++ ([table.uses.length] ++
      tableCounts ProvidesRow.counts table.provides)))

/-- The counts in digests, in the order in which they are written. -/
def HashTable.counts (table : HashTable) : List Nat :=
  tableCounts HashRow.counts table.hashes

/-- The counts in the body of an attribute, in the order in which they are written. -/
def ModuleAttribute.counts : ModuleAttribute → List Nat
  | declaration table => table.counts
  | packages slots => [slots.length]
  | hashes table => table.counts
  | mainClass _ => []
  | target _ => []

/-- All tables and digests in the body of an attribute can be counted in 16 bits. -/
def ModuleAttribute.IsCountable (content : ModuleAttribute) : Prop :=
  ∀ n ∈ content.counts, n ≤ 0xFFFF

instance (content : ModuleAttribute) : Decidable content.IsCountable :=
  inferInstanceAs (Decidable (∀ n ∈ content.counts, n ≤ 0xFFFF))

theorem DeclarationTable.counted_write (table : DeclarationTable) :
    Counted table.write table.counts := by
  unfold DeclarationTable.write DeclarationTable.counts
  refine (Written.counted_table RequiresRow.counted_write table.requires).bind fun requires => ?_
  refine (Written.counted_table ExportsRow.counted_write table.exports).bind fun exports => ?_
  refine (Written.counted_table ExportsRow.counted_write table.opens).bind fun opens => ?_
  refine (Written.counted_words table.uses).bind fun uses => ?_
  exact (Written.counted_table ProvidesRow.counted_write table.provides).bind_pure _

theorem HashTable.counted_write (table : HashTable) : Counted table.write table.counts :=
  (Written.counted_table HashRow.counted_write table.hashes).bind_pure _

/-- The body of an attribute is refused for the first count in it that does not fit, and for nothing
else. -/
theorem ModuleAttribute.counted_write (content : ModuleAttribute) :
    Counted content.write content.counts := by
  cases content with
  | declaration table => exact table.counted_write
  | packages slots => exact Written.counted_words slots
  | hashes table => exact table.counted_write
  | mainClass slot => exact .pure _
  | target slot => exact .pure _

theorem ModuleAttribute.exists_write_iff {content : ModuleAttribute} :
    (∃ bytes, content.write = .ok bytes) ↔ content.IsCountable := by
  rw [content.counted_write.exists_ok_iff]
  simp only [Written.oversize?_eq_none_iff, IsCountable]

/-- A body that cannot be counted is refused for the first table or digest that is too long. -/
theorem ModuleAttribute.write_of_not_isCountable {content : ModuleAttribute}
    (h : ¬ content.IsCountable) :
    ∃ before n after, content.counts = before ++ n :: after ∧
      (∀ earlier ∈ before, earlier ≤ 0xFFFF) ∧ 0xFFFF < n ∧
      content.write = .error (.tableTooLarge n) := by
  cases hwritten : content.write with
  | ok bytes => exact absurd (exists_write_iff.1 ⟨bytes, hwritten⟩) h
  | error fault =>
    obtain ⟨before, n, after, hcounts, hbefore, hfault⟩ :=
      content.counted_write.eq_error_iff.1 hwritten
    obtain ⟨hn, rfl⟩ := Written.oversize?_eq_some_iff.1 hfault
    refine ⟨before, n, after, hcounts, fun earlier hearlier => ?_, hn, rfl⟩
    exact Written.oversize?_eq_none_iff.1 (hbefore earlier hearlier)

end ModuleRecord
