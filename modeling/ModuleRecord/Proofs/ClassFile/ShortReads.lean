import ModuleRecord.Proofs.ClassFile.Reads

/-!
# Readers that only run short

Words, tables and all that is put together from them are refused for a single reason: there are too
few bytes. Such a reader has then taken all of them (`EndsShort`), so its fault names the end of the
bytes, and it refuses every strict prefix of what it reads in this way (`EndsShort.run_take`). A
property that these readers have, and also those that always fail, is one of all readers that are
put together from both (`IsPermissive`), as the readers of pools are.
-/

namespace ModuleRecord
namespace Reader

variable {α β : Type}

/-! ## Faults -/

theorem bind_eq_error_iff {reader : Reader α} {next : α → Reader β} {cursor stop : Cursor}
    {fault : ClassFile.Error} :
    (reader >>= next) cursor = .error fault stop ↔
      reader cursor = .error fault stop ∨
        ∃ first middle, reader cursor = .ok first middle ∧
          next first middle = .error fault stop := by
  change (EStateM.bind reader next) cursor = _ ↔ _
  unfold EStateM.bind
  cases reader cursor with
  | ok first middle => simp
  | error found place => simp

theorem map_eq_error_iff {reader : Reader α} {f : α → β} {cursor stop : Cursor}
    {fault : ClassFile.Error} :
    (f <$> reader) cursor = .error fault stop ↔ reader cursor = .error fault stop := by
  rw [← bind_pure_comp, bind_eq_error_iff]
  refine or_iff_left ?_
  rintro ⟨first, middle, -, hpure⟩
  cases hpure

/-- A streaming reader moves on by as many bytes as it takes. -/
theorem IsStreaming.end_eq {reader : Reader α} (h : IsStreaming reader) {cursor stop : Cursor}
    {value : α} (hrun : reader cursor = .ok value stop) :
    stop.offset + stop.rest.length = cursor.offset + cursor.rest.length := by
  obtain ⟨used, hrest, hreads⟩ := h _ _ _ hrun
  have hagain := hreads cursor.offset stop.rest
  rw [← hrest] at hagain
  have hstop : stop = ⟨cursor.offset + used.length, stop.rest⟩ := by
    have heq := hrun.symm.trans hagain
    injection heq
  rw [hrest, hstop, List.length_append, Nat.add_assoc]

/-- A strict prefix of what a reader takes is not read. -/
theorem Reads.run_strictPrefix {reader : Reader α} {front back : Bytes} {value : α}
    (h : Reads reader (front ++ back) value) (hstreaming : IsStreaming reader) (hback : back ≠ [])
    (offset : Nat) : ∃ fault stop, reader ⟨offset, front⟩ = .error fault stop := by
  cases hrun : reader ⟨offset, front⟩ with
  | error fault stop => exact ⟨fault, stop, rfl⟩
  | ok found stop =>
    obtain ⟨used, hfront, hreads⟩ := hstreaming _ _ _ hrun
    -- the reader would stop at the same place if the whole followed
    have hwhole := h offset []
    change front = used ++ stop.rest at hfront
    rw [List.append_nil, hfront, List.append_assoc, hreads] at hwhole
    injection hwhole with _ hstop
    injection hstop with _ hrest
    exact absurd (List.append_eq_nil_iff.1 hrest).2 hback

/-! ## Running short -/

/-- The only fault of the reader is that there are too few bytes, once it has taken all of them. -/
structure EndsShort (reader : Reader α) : Prop where
  streaming : IsStreaming reader
  fails : ∀ cursor fault stop, reader cursor = .error fault stop →
    fault = .unexpectedEnd ∧ stop = ⟨cursor.offset + cursor.rest.length, []⟩

namespace EndsShort

variable {reader : Reader α}

protected theorem pure (value : α) : EndsShort (pure value) := by
  refine ⟨isStreaming_pure value, ?_⟩
  intro cursor fault stop hrun
  cases hrun

theorem bind {next : α → Reader β} (h : EndsShort reader)
    (hnext : ∀ middle, EndsShort (next middle)) : EndsShort (reader >>= next) := by
  refine ⟨h.streaming.bind fun middle => (hnext middle).streaming, ?_⟩
  intro cursor fault stop hrun
  rcases bind_eq_error_iff.1 hrun with hfirst | ⟨first, middle, hfirst, hrest⟩
  · exact h.fails _ _ _ hfirst
  · -- what the second reader runs short of ends where the bytes of the whole do
    rw [← h.streaming.end_eq hfirst]
    exact (hnext first).fails _ _ _ hrest

theorem isCompositional : IsCompositional EndsShort :=
  ⟨EndsShort.pure, EndsShort.bind⟩

protected theorem map (f : α → β) (h : EndsShort reader) : EndsShort (f <$> reader) :=
  isCompositional.map f h

/-- Of what the reader takes, it runs short of every strict prefix. -/
theorem run_take (h : EndsShort reader) {used : Bytes} {value : α}
    (hreads : Reads reader used value) {n : Nat} (hn : n < used.length) (offset : Nat) :
    reader ⟨offset, used.take n⟩ = .error .unexpectedEnd ⟨offset + n, []⟩ := by
  have hback : used.drop n ≠ [] := by
    rw [ne_eq, List.drop_eq_nil_iff]
    omega
  rw [← List.take_append_drop n used] at hreads
  obtain ⟨fault, stop, hrun⟩ := hreads.run_strictPrefix h.streaming hback offset
  obtain ⟨rfl, rfl⟩ := h.fails _ _ _ hrun
  rw [hrun]
  simp only [List.length_take, Nat.min_eq_left (Nat.le_of_lt hn)]

end EndsShort

theorem endsShort_bytes (n : Nat) : EndsShort (bytes n) := by
  refine ⟨isStreaming_bytes n, ?_⟩
  intro cursor fault stop hrun
  unfold bytes at hrun
  cases hcut : Bytes.cut? n cursor.rest with
  | some parts =>
    rw [hcut] at hrun
    cases hrun
  | none =>
    rw [hcut] at hrun
    cases hrun
    exact ⟨rfl, rfl⟩

theorem endsShort_word (width : Nat) : EndsShort (word width) :=
  (endsShort_bytes width).map _

theorem endsShort_u8 : EndsShort u8 :=
  (endsShort_word 1).map _

theorem endsShort_u16 : EndsShort u16 :=
  (endsShort_word 2).map _

theorem endsShort_u32 : EndsShort u32 :=
  (endsShort_word 4).map _

theorem endsShort_u64 : EndsShort u64 :=
  (endsShort_word 8).map _

theorem endsShort_flags {kind : FlagKind} : EndsShort (@flags kind) :=
  endsShort_u16.map _

theorem endsShort_table {row : Reader α} (h : EndsShort row) : EndsShort (table row) :=
  EndsShort.isCompositional.table endsShort_u16 h

/-! ## Permissive properties -/

/-- Readers that only run short have the property, and so do those that always fail. -/
structure IsPermissive (P : ∀ {α : Type}, Reader α → Prop) : Prop extends IsCompositional P where
  endsShort : ∀ {α : Type} {reader : Reader α}, EndsShort reader → P reader
  throw : ∀ {α : Type} (fault : ClassFile.Error), P (throw fault : Reader α)

theorem IsStreaming.isPermissive : IsPermissive IsStreaming where
  toIsCompositional := IsStreaming.isCompositional
  endsShort := EndsShort.streaming
  throw := isStreaming_throw

/-! ## Bodies -/

/-- Within a body, a reader that runs short names the end of the bytes. -/
theorem EndsShort.withinBody_eq_error {reader : Reader α} (h : EndsShort reader)
    {cursor stop : Cursor} {fault : ClassFile.Error}
    (hrun : withinBody reader cursor = .error fault stop) :
    fault = .truncatedBody (cursor.offset + cursor.rest.length) := by
  unfold withinBody at hrun
  split at hrun
  · rename_i place hfault
    obtain ⟨-, rfl⟩ := h.fails _ _ _ hfault
    cases hrun
    rfl
  · rename_i hother
    obtain ⟨rfl, rfl⟩ := h.fails _ _ _ hrun
    exact absurd hrun (hother _)

end Reader
end ModuleRecord
