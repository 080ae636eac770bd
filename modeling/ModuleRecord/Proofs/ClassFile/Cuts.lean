import ModuleRecord.Proofs.ClassFile.ShortReads

/-!
# Bytes that are cut off

Where the bytes of a class file are cut off, the fault depends on the place of the first byte that
is missing: outside every attribute table, in a table, or in the body of an attribute. `Cuts` says
of a reader at which places the bytes stand that it takes, and that each cut has the fault of its
place. It is kept by all ways of putting readers together.
-/

namespace ModuleRecord

/-! ## Places -/

/-- Where a byte of a class file stands. -/
inductive Place where
  /-- Outside every attribute table. -/
  | outside
  /-- In an attribute table, but not in a body. -/
  | table
  /-- In the body of an attribute, behind as many bytes of it. -/
  | body (before : Nat)
  deriving DecidableEq, Repr

namespace Place

/-- The fault of bytes that end at an offset, by the place of the byte that is missing there. -/
def fault (place : Place) (offset : Nat) : ClassFile.Error :=
  match place with
  | outside => .unexpectedEnd
  | table => .truncatedBody offset
  | body before => .truncatedBody (offset - before)

/-- The place within an attribute table. -/
def inTable : Place → Place
  | outside => table
  | table => table
  | body before => body before

end Place

namespace Reader

variable {α β : Type}

/-! ## Cuts -/

/-- The reader takes bytes that stand at these places, and fails by the place of the byte at which
they are cut off. -/
structure Cuts (reader : Reader α) (used : Bytes) (value : α) (places : List Place) : Prop where
  reads : Reads reader used value
  length_eq : places.length = used.length
  fails : ∀ (offset m : Nat) (place : Place), places[m]? = some place →
    ∃ stop, reader ⟨offset, used.take m⟩ = .error (place.fault (offset + m)) stop ∧
      (place = .outside → stop.offset = offset + m)

/-- The reader takes bytes that stand outside every attribute table. -/
structure IsPlain (reader : Reader α) : Prop where
  streaming : IsStreaming reader
  cuts : ∀ used value, Reads reader used value →
    Cuts reader used value (List.replicate used.length .outside)

namespace Cuts

variable {reader : Reader α} {next : α → Reader β} {first second used : Bytes} {middle value : α}
  {result : β} {places places' : List Place}

/-- Where the first reader has all of its bytes, the cut is one of the second. -/
theorem bind (h : Cuts reader first middle places)
    (hnext : Cuts (next middle) second result places') :
    Cuts (reader >>= next) (first ++ second) result (places ++ places') := by
  refine ⟨h.reads.bind hnext.reads, ?_, ?_⟩
  · rw [List.length_append, List.length_append, h.length_eq, hnext.length_eq]
  · intro offset m place hplace
    by_cases hlt : m < places.length
    · rw [List.getElem?_append_left hlt] at hplace
      obtain ⟨stop, hrun, hstop⟩ := h.fails offset m place hplace
      rw [List.take_append_of_le_length (by rw [← h.length_eq]; omega)]
      exact ⟨stop, bind_eq_error_iff.2 (Or.inl hrun), hstop⟩
    · rw [List.getElem?_append_right (by omega), h.length_eq] at hplace
      obtain ⟨stop, hrun, hstop⟩ := hnext.fails (offset + first.length) _ place hplace
      have hsum : offset + first.length + (m - first.length) = offset + m := by
        rw [← h.length_eq]
        omega
      rw [hsum] at hrun hstop
      rw [List.take_append, List.take_of_length_le (by rw [← h.length_eq]; omega),
        h.reads.run_bind]
      exact ⟨stop, hrun, hstop⟩

theorem pure (value : α) : Cuts (pure value) [] value [] :=
  ⟨reads_pure_iff.2 ⟨rfl, rfl⟩, rfl, fun _ _ _ hplace => absurd hplace (by simp)⟩

/-- What is made of a value is cut off where the value is. -/
theorem bind_pure (h : Cuts reader used value places) (f : α → β) :
    Cuts (reader >>= fun found => Pure.pure (f found)) used (f value) places := by
  have hbind : Cuts (reader >>= fun found => Pure.pure (f found)) (used ++ []) (f value)
      (places ++ []) := h.bind (pure (f value))
  rwa [List.append_nil, List.append_nil] at hbind

/-- Within an attribute table, no byte stands outside. -/
theorem withinBody (h : Cuts reader used value places) :
    Cuts (withinBody reader) used value (places.map Place.inTable) := by
  refine ⟨reads_withinBody_iff.2 h.reads, by rw [List.length_map, h.length_eq], ?_⟩
  intro offset m place hplace
  rw [List.getElem?_map, Option.map_eq_some_iff] at hplace
  obtain ⟨inner, hinner, rfl⟩ := hplace
  obtain ⟨stop, hrun, hstop⟩ := h.fails offset m inner hinner
  unfold Reader.withinBody
  rw [hrun]
  cases inner with
  | outside =>
    refine ⟨stop, ?_, fun hout => by cases hout⟩
    rw [← hstop rfl]
    rfl
  | table => exact ⟨stop, rfl, fun hout => by cases hout⟩
  | body before => exact ⟨stop, rfl, fun hout => by cases hout⟩

/-- A row of items is cut off in one of them. -/
theorem list {item : Reader α} {place : α → List Place} {parts : List Bytes} {items : List α}
    (h : List.Forall₂ (fun part value => Cuts item part value (place value)) parts items) :
    Cuts (list items.length item) parts.flatten items (items.flatMap place) := by
  induction h with
  | nil => exact pure []
  | @cons part value parts items hitem _ ih =>
    rw [List.length_cons, list_succ, List.flatten_cons, List.flatMap_cons]
    exact hitem.bind (ih.bind_pure _)

end Cuts

/-! ## Plain readers -/

namespace IsPlain

variable {reader : Reader α}

protected theorem pure (value : α) : IsPlain (pure value) := by
  refine ⟨isStreaming_pure value, ?_⟩
  intro used found hreads
  obtain ⟨rfl, rfl⟩ := reads_pure_iff.1 hreads
  exact .pure found

protected theorem throw (fault : ClassFile.Error) : IsPlain (throw fault : Reader α) :=
  ⟨isStreaming_throw fault, fun _ _ hreads => absurd hreads not_reads_throw⟩

theorem bind {next : α → Reader β} (h : IsPlain reader) (hnext : ∀ middle, IsPlain (next middle)) :
    IsPlain (reader >>= next) := by
  have hstreaming (middle : α) := (hnext middle).streaming
  refine ⟨h.streaming.bind hstreaming, ?_⟩
  intro used value hreads
  obtain ⟨middle, first, second, rfl, hfirst, hsecond⟩ :=
    (reads_bind_iff h.streaming hstreaming).1 hreads
  rw [List.length_append, ← List.replicate_append_replicate]
  exact (h.cuts first middle hfirst).bind ((hnext middle).cuts second value hsecond)

theorem isCompositional : IsCompositional IsPlain :=
  ⟨IsPlain.pure, IsPlain.bind⟩

/-- Whatever is plain may stand before other bytes that stand outside. -/
theorem bind_cuts {next : α → Reader β} {first second : Bytes} {middle : α} {value : β}
    {places : List Place} (h : IsPlain reader) (hreads : Reads reader first middle)
    (hnext : ∃ n, Cuts (next middle) second value (List.replicate n .outside ++ places)) :
    ∃ n, Cuts (reader >>= next) (first ++ second) value (List.replicate n .outside ++ places) := by
  obtain ⟨n, hsecond⟩ := hnext
  refine ⟨first.length + n, ?_⟩
  rw [← List.replicate_append_replicate, List.append_assoc]
  exact (h.cuts first middle hreads).bind hsecond

end IsPlain

/-- A reader that runs short does so outside every attribute table. -/
theorem EndsShort.isPlain {reader : Reader α} (h : EndsShort reader) : IsPlain reader := by
  refine ⟨h.streaming, ?_⟩
  intro used value hreads
  refine ⟨hreads, List.length_replicate, ?_⟩
  intro offset m place hplace
  rw [List.getElem?_replicate, Option.ite_none_right_eq_some, Option.some_inj] at hplace
  obtain ⟨hlt, rfl⟩ := hplace
  exact ⟨_, h.run_take hreads hlt offset, fun _ => rfl⟩

theorem IsPlain.isPermissive : IsPermissive IsPlain where
  toIsCompositional := IsPlain.isCompositional
  endsShort := EndsShort.isPlain
  throw := IsPlain.throw

theorem isPlain_word (width : Nat) : IsPlain (word width) :=
  (endsShort_word width).isPlain

theorem isPlain_u16 : IsPlain u16 :=
  endsShort_u16.isPlain

theorem isPlain_flags {kind : FlagKind} : IsPlain (@flags kind) :=
  endsShort_flags.isPlain

/-! ## Tables and bodies -/

/-- A table is cut off in its count or in one of its rows. -/
theorem cuts_table {row : Reader α} (h : IsStreaming row) {place : α → List Place}
    (hrow : ∀ used value, Reads row used value → Cuts row used value (place value))
    {used : Bytes} {rows : List α} (hreads : Reads (table row) used rows) :
    Cuts (table row) used rows (List.replicate 2 .outside ++ rows.flatMap place) := by
  obtain ⟨hle, parts, hparts, rfl⟩ := (reads_table_iff h).1 hreads
  have hcount := isPlain_u16.cuts _ _ (reads_u16_iff.2 (Bytes.ofNat_two_eq_ofUInt16 hle))
  rw [Bytes.length_ofNat] at hcount
  have hrows := Cuts.list (hparts.imp hrow)
  have hvalue : (UInt16.ofNat rows.length).toNat = rows.length :=
    UInt16.toNat_ofNat_of_lt' (by rw [UInt16.size]; omega)
  rw [← hvalue] at hrows
  exact hcount.bind hrows

/-- A body that is cut off is named by its start. -/
theorem cuts_body (value : Bytes) :
    Cuts (body value.length) value value ((List.range value.length).map .body) := by
  refine ⟨reads_body_iff.2 ⟨rfl, rfl⟩, by rw [List.length_map, List.length_range], ?_⟩
  intro offset m place hplace
  rw [List.getElem?_map, Option.map_eq_some_iff] at hplace
  obtain ⟨before, hbefore, rfl⟩ := hplace
  obtain ⟨hlt, rfl⟩ := List.getElem?_eq_some_iff.1 hbefore
  rw [List.length_range] at hlt
  have hcut : Bytes.cut? value.length (value.take m) = none := by
    rw [Bytes.cut?_eq_none_iff, List.length_take]
    omega
  refine ⟨⟨offset, value.take m⟩, ?_, fun hout => by cases hout⟩
  unfold body Place.fault
  simp only [hcut, List.getElem_range, Nat.add_sub_cancel]

end Reader
end ModuleRecord
