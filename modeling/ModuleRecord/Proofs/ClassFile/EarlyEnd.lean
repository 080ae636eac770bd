import ModuleRecord.Proofs.ClassFile.Layout
import ModuleRecord.Proofs.ClassFile.ShortReads

/-!
# Attribute tables that end too early

The reader of an attribute table has a single kind of fault: the bytes end too early (`FailsAtEnd`).
Unlike the readers that only run short, it may name the start of a body, behind which there are
bytes that it has not taken.
-/

namespace ModuleRecord
namespace Reader

variable {α β : Type}

/-- The faults of bytes that end too early. -/
inductive IsEnd : ClassFile.Error → Prop where
  | unexpectedEnd : IsEnd .unexpectedEnd
  | truncatedBody (offset : Nat) : IsEnd (.truncatedBody offset)

/-- The reader fails only where the bytes end too early. -/
def FailsAtEnd (reader : Reader α) : Prop :=
  ∀ cursor fault stop, reader cursor = .error fault stop → IsEnd fault

namespace FailsAtEnd

protected theorem pure (value : α) : FailsAtEnd (pure value) := by
  intro cursor fault stop hrun
  cases hrun

theorem bind {reader : Reader α} {next : α → Reader β} (h : FailsAtEnd reader)
    (hnext : ∀ middle, FailsAtEnd (next middle)) : FailsAtEnd (reader >>= next) := by
  intro cursor fault stop hrun
  rcases bind_eq_error_iff.1 hrun with hfirst | ⟨first, middle, -, hrest⟩
  · exact h _ _ _ hfirst
  · exact hnext first _ _ _ hrest

theorem isCompositional : IsCompositional FailsAtEnd :=
  ⟨FailsAtEnd.pure, FailsAtEnd.bind⟩

end FailsAtEnd

theorem EndsShort.failsAtEnd {reader : Reader α} (h : EndsShort reader) : FailsAtEnd reader := by
  intro cursor fault stop hrun
  obtain ⟨rfl, -⟩ := h.fails _ _ _ hrun
  exact .unexpectedEnd

theorem failsAtEnd_body (n : Nat) : FailsAtEnd (body n) := by
  intro cursor fault stop hrun
  unfold body at hrun
  cases hcut : Bytes.cut? n cursor.rest with
  | some parts =>
    rw [hcut] at hrun
    cases hrun
  | none =>
    rw [hcut] at hrun
    cases hrun
    exact .truncatedBody _

theorem failsAtEnd_table {row : Reader α} (h : FailsAtEnd row) : FailsAtEnd (table row) :=
  FailsAtEnd.isCompositional.table endsShort_u16.failsAtEnd h

/-- Within a body, an early end is a truncated body. -/
theorem exists_truncatedBody_of_withinBody {reader : Reader α} (h : FailsAtEnd reader)
    {cursor stop : Cursor} {fault : ClassFile.Error}
    (hrun : withinBody reader cursor = .error fault stop) :
    ∃ offset, fault = .truncatedBody offset := by
  unfold withinBody at hrun
  split at hrun
  · cases hrun
    exact ⟨_, rfl⟩
  · rename_i hother
    cases h _ _ _ hrun with
    | unexpectedEnd => exact absurd hrun (hother _)
    | truncatedBody offset => exact ⟨offset, rfl⟩

end Reader

theorem Attribute.failsAtEnd_read : Reader.FailsAtEnd Attribute.read :=
  Reader.endsShort_u16.failsAtEnd.bind fun _ =>
    (Reader.endsShort_word 4).failsAtEnd.bind fun length =>
      (Reader.failsAtEnd_body length).bind fun _ => .pure _

end ModuleRecord
