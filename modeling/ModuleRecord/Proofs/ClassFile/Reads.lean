import Mathlib.Data.List.Forall2
import ModuleRecord.ClassFile.Cursor
import ModuleRecord.Proofs.Bytes.Words

/-!
# What readers take

`Reads reader bytes value` says that the reader takes exactly these bytes from any place, whatever
follows them, and returns the value. A reader is streaming if each of its successful runs is of this
kind. For streaming readers the relation is compositional: the lemmas `reads_…_iff` say for each
way of putting readers together which bytes the whole takes. What is kept when readers are put in
sequence holds of rows and tables as well (`IsCompositional.table`).
-/

namespace ModuleRecord
namespace Reader

variable {α β : Type}

/-- From any place, the reader takes these bytes and no more, and returns the value. -/
def Reads (reader : Reader α) (bytes : Bytes) (value : α) : Prop :=
  ∀ offset rest, reader ⟨offset, bytes ++ rest⟩ = .ok value ⟨offset + bytes.length, rest⟩

/-- A successful run takes a prefix of what is left and does not depend on what follows it. -/
def IsStreaming (reader : Reader α) : Prop :=
  ∀ cursor value stop, reader cursor = .ok value stop →
    ∃ used, cursor.rest = used ++ stop.rest ∧ Reads reader used value

/-! ## Runs -/

theorem bind_eq_ok_iff {reader : Reader α} {next : α → Reader β} {cursor stop : Cursor}
    {value : β} :
    (reader >>= next) cursor = .ok value stop ↔
      ∃ first middle, reader cursor = .ok first middle ∧ next first middle = .ok value stop := by
  change (EStateM.bind reader next) cursor = _ ↔ _
  rw [EStateM.bind]
  cases h : reader cursor with
  | ok first middle =>
    constructor
    · intro hnext
      exact ⟨first, middle, rfl, hnext⟩
    · rintro ⟨_, _, heq, hnext⟩
      cases heq
      exact hnext
  | error fault middle =>
    constructor
    · intro hfault
      exact absurd hfault (by simp)
    · rintro ⟨_, _, heq, _⟩
      exact absurd heq (by simp)

/-- After its first reader has succeeded, a sequence goes on with the others. -/
theorem bind_of_ok {reader : Reader α} {cursor middle : Cursor} {first : α}
    (h : reader cursor = .ok first middle) (next : α → Reader β) :
    (reader >>= next) cursor = next first middle := by
  change EStateM.bind reader next _ = _
  unfold EStateM.bind
  rw [h]

theorem exists_of_run_eq_ok {reader : Reader α} {bytes : Bytes} {value : α}
    (h : reader.run bytes = .ok value) :
    ∃ stop, reader (Cursor.start bytes) = .ok value stop := by
  unfold run at h
  cases hcase : reader (Cursor.start bytes) with
  | ok found stop =>
    rw [hcase] at h
    cases h
    exact ⟨stop, rfl⟩
  | error fault stop =>
    rw [hcase] at h
    exact absurd h (by simp)

/-- Running a streaming reader drops what it does not take. -/
theorem run_eq_ok_iff {reader : Reader α} (h : IsStreaming reader) {bytes : Bytes} {value : α} :
    reader.run bytes = .ok value ↔ ∃ used rest, bytes = used ++ rest ∧ Reads reader used value := by
  constructor
  · intro hrun
    obtain ⟨stop, hcase⟩ := exists_of_run_eq_ok hrun
    obtain ⟨used, hrest, hreads⟩ := h _ _ _ hcase
    exact ⟨used, stop.rest, hrest, hreads⟩
  · rintro ⟨used, rest, rfl, hreads⟩
    rw [run, Cursor.start, hreads 0 rest]

/-! ## Sequences -/

theorem pure_eq_ok_iff {value found : α} {cursor stop : Cursor} :
    (pure value : Reader α) cursor = .ok found stop ↔ value = found ∧ cursor = stop := by
  change EStateM.Result.ok value cursor = _ ↔ _
  rw [EStateM.Result.ok.injEq]

/-- A run that ends by returning a value has no bytes left if none are left at its end. -/
theorem pure_ends {value found : α} {offset offset' : Nat} {rest : Bytes}
    (h : (pure value : Reader α) ⟨offset, rest⟩ = .ok found ⟨offset', []⟩) :
    value = found ∧ rest = [] := by
  obtain ⟨hvalue, hstop⟩ := pure_eq_ok_iff.1 h
  injection hstop with _ hrest
  exact ⟨hvalue, hrest⟩

theorem map_eq_ok_iff {reader : Reader α} {f : α → β} {cursor stop : Cursor} {value : β} :
    (f <$> reader) cursor = .ok value stop ↔
      ∃ found, reader cursor = .ok found stop ∧ f found = value := by
  rw [← bind_pure_comp, bind_eq_ok_iff]
  refine exists_congr fun found => ?_
  constructor
  · rintro ⟨middle, hfound, hpure⟩
    obtain ⟨rfl, rfl⟩ := pure_eq_ok_iff.1 hpure
    exact ⟨hfound, rfl⟩
  · rintro ⟨hfound, rfl⟩
    exact ⟨stop, hfound, rfl⟩

/-- From the first place, the reader takes all of these bytes. -/
theorem Reads.run_start {reader : Reader α} {used : Bytes} {value : α}
    (h : Reads reader used value) : reader ⟨0, used⟩ = .ok value ⟨0 + used.length, []⟩ := by
  have hrun := h 0 []
  rwa [List.append_nil] at hrun

/-- The reader takes these bytes wherever they stand first. -/
theorem Reads.run_of_rest {reader : Reader α} {used rest : Bytes} {value : α}
    (h : Reads reader used value) {cursor : Cursor} (hrest : cursor.rest = used ++ rest) :
    reader cursor = .ok value ⟨cursor.offset + used.length, rest⟩ := by
  have hrun := h cursor.offset rest
  rwa [← hrest] at hrun

theorem Reads.run {reader : Reader α} {used : Bytes} {value : α} (h : Reads reader used value) :
    reader.run used = .ok value := by
  unfold Reader.run Cursor.start
  rw [h.run_start]

theorem reads_pure_iff {value found : α} {used : Bytes} :
    Reads (pure value) used found ↔ used = [] ∧ found = value := by
  constructor
  · intro h
    obtain ⟨rfl, hstop⟩ := pure_eq_ok_iff.1 h.run_start
    injection hstop with _ hrest
    exact ⟨hrest, rfl⟩
  · rintro ⟨rfl, rfl⟩ offset rest
    rfl

theorem isStreaming_pure (value : α) : IsStreaming (pure value) := by
  intro cursor found stop hrun
  obtain ⟨rfl, rfl⟩ := pure_eq_ok_iff.1 hrun
  exact ⟨[], rfl, reads_pure_iff.2 ⟨rfl, rfl⟩⟩

theorem Reads.bind {reader : Reader α} {next : α → Reader β} {first second : Bytes} {middle : α}
    {value : β} (h : Reads reader first middle) (hnext : Reads (next middle) second value) :
    Reads (reader >>= next) (first ++ second) value := by
  intro offset rest
  rw [bind_eq_ok_iff]
  refine ⟨middle, ⟨offset + first.length, second ++ rest⟩, ?_, ?_⟩
  · rw [List.append_assoc]
    exact h offset (second ++ rest)
  · rw [List.length_append, ← Nat.add_assoc]
    exact hnext (offset + first.length) rest

/-- After what its first reader takes, a sequence goes on with the others, whether they succeed or
fail. -/
theorem Reads.run_bind {reader : Reader α} {used : Bytes} {value : α} (h : Reads reader used value)
    (next : α → Reader β) (offset : Nat) (rest : Bytes) :
    (reader >>= next) ⟨offset, used ++ rest⟩ = next value ⟨offset + used.length, rest⟩ :=
  bind_of_ok (h offset rest) next

/-- What comes last may take nothing. -/
theorem Reads.bind_nil {reader : Reader α} {next : α → Reader β} {used : Bytes} {middle : α}
    {value : β} (h : Reads reader used middle) (hnext : Reads (next middle) [] value) :
    Reads (reader >>= next) used value := by
  have hread := h.bind hnext
  rwa [List.append_nil] at hread

theorem IsStreaming.bind {reader : Reader α} {next : α → Reader β} (h : IsStreaming reader)
    (hnext : ∀ middle, IsStreaming (next middle)) : IsStreaming (reader >>= next) := by
  intro cursor value stop hrun
  obtain ⟨middle, place, hfirst, hsecond⟩ := bind_eq_ok_iff.1 hrun
  obtain ⟨first, hrest, hreads⟩ := h _ _ _ hfirst
  obtain ⟨second, hrest', hreads'⟩ := hnext middle _ _ _ hsecond
  exact ⟨first ++ second, by rw [hrest, hrest', List.append_assoc], hreads.bind hreads'⟩

/-- A run of a sequence begins with what its first reader takes. -/
theorem IsStreaming.run_bind {reader : Reader α} (h : IsStreaming reader) {next : α → Reader β}
    {offset : Nat} {bytes : Bytes} {stop : Cursor} {value : β}
    (hrun : (reader >>= next) ⟨offset, bytes⟩ = .ok value stop) :
    ∃ first used offset' rest, bytes = used ++ rest ∧ Reads reader used first ∧
      next first ⟨offset', rest⟩ = .ok value stop := by
  obtain ⟨first, middle, hfirst, hnext⟩ := bind_eq_ok_iff.1 hrun
  obtain ⟨used, hrest, hreads⟩ := h _ _ _ hfirst
  exact ⟨first, used, middle.offset, middle.rest, hrest, hreads, hnext⟩

theorem reads_bind_iff {reader : Reader α} {next : α → Reader β} (h : IsStreaming reader)
    (hnext : ∀ middle, IsStreaming (next middle)) {used : Bytes} {value : β} :
    Reads (reader >>= next) used value ↔
      ∃ middle first second, used = first ++ second ∧ Reads reader first middle ∧
        Reads (next middle) second value := by
  constructor
  · intro hreads
    obtain ⟨middle, first, offset, second, rfl, hfirst, hrun⟩ := h.run_bind hreads.run_start
    obtain ⟨used, hrest, hsecond⟩ := hnext middle _ _ _ hrun
    rw [List.append_nil] at hrest
    exact ⟨middle, first, second, rfl, hfirst, by rw [show second = used from hrest]; exact hsecond⟩
  · rintro ⟨middle, first, second, rfl, hreads₁, hreads₂⟩
    exact hreads₁.bind hreads₂

/-- What is made of a value that is read is read from the same bytes. -/
theorem Reads.bind_pure {reader : Reader α} {used : Bytes} {value : α}
    (h : Reads reader used value) (f : α → β) :
    Reads (reader >>= fun found => pure (f found)) used (f value) :=
  h.bind_nil (reads_pure_iff.2 ⟨rfl, rfl⟩)

theorem Reads.map {reader : Reader α} {used : Bytes} {value : α} (h : Reads reader used value)
    (f : α → β) : Reads (f <$> reader) used (f value) := by
  rw [← bind_pure_comp]
  exact h.bind_pure f

theorem reads_map_iff {reader : Reader α} {f : α → β} (h : IsStreaming reader) {used : Bytes}
    {value : β} :
    Reads (f <$> reader) used value ↔ ∃ found, Reads reader used found ∧ f found = value := by
  rw [← bind_pure_comp, reads_bind_iff h fun _ => isStreaming_pure _]
  constructor
  · rintro ⟨middle, first, second, rfl, hreads, hpure⟩
    obtain ⟨rfl, rfl⟩ := reads_pure_iff.1 hpure
    rw [List.append_nil]
    exact ⟨middle, hreads, rfl⟩
  · rintro ⟨found, hreads, rfl⟩
    exact ⟨found, used, [], (List.append_nil used).symm, hreads, reads_pure_iff.2 ⟨rfl, rfl⟩⟩

/-- Readers that succeed alike take the same bytes. -/
theorem reads_congr {reader other : Reader α}
    (h : ∀ cursor value stop, reader cursor = .ok value stop ↔ other cursor = .ok value stop)
    {used : Bytes} {value : α} : Reads reader used value ↔ Reads other used value :=
  forall_congr' fun _ => forall_congr' fun _ => h _ _ _

theorem IsStreaming.congr {reader other : Reader α} (hother : IsStreaming other)
    (h : ∀ cursor value stop, reader cursor = .ok value stop ↔ other cursor = .ok value stop) :
    IsStreaming reader := by
  intro cursor value stop hrun
  obtain ⟨used, hrest, hreads⟩ := hother _ _ _ ((h _ _ _).1 hrun)
  exact ⟨used, hrest, (reads_congr h).2 hreads⟩

theorem isStreaming_throw (fault : ClassFile.Error) :
    IsStreaming (throw fault : Reader α) := by
  intro cursor value stop hrun
  cases hrun

theorem not_reads_throw {fault : ClassFile.Error} {used : Bytes} {value : α} :
    ¬ Reads (throw fault : Reader α) used value := by
  intro h
  cases h 0 []

/-! ## Compositional properties -/

/-- Readers that only return a value have the property, and it is kept when readers are put in
sequence. -/
structure IsCompositional (P : ∀ {α : Type}, Reader α → Prop) : Prop where
  pure : ∀ {α : Type} (value : α), P (pure value : Reader α)
  bind : ∀ {α β : Type} {reader : Reader α} {next : α → Reader β}, P reader →
    (∀ middle, P (next middle)) → P (reader >>= next)

variable {P : ∀ {α : Type}, Reader α → Prop}

theorem IsCompositional.map (hP : IsCompositional P) {reader : Reader α} (f : α → β)
    (h : P reader) : P (f <$> reader) := by
  rw [← bind_pure_comp]
  exact hP.bind h fun _ => hP.pure _

theorem IsStreaming.isCompositional : IsCompositional IsStreaming :=
  ⟨isStreaming_pure, IsStreaming.bind⟩

theorem IsStreaming.map {reader : Reader α} (f : α → β) (h : IsStreaming reader) :
    IsStreaming (f <$> reader) :=
  IsStreaming.isCompositional.map f h

/-! ## Bytes and words -/

theorem reads_bytes (front : Bytes) : Reads (bytes front.length) front front := by
  intro offset rest
  rw [bytes, Bytes.cut?_append rfl rest]

theorem isStreaming_bytes (n : Nat) : IsStreaming (bytes n) := by
  intro cursor value stop hrun
  rw [bytes] at hrun
  cases hcut : Bytes.cut? n cursor.rest with
  | some parts =>
    obtain ⟨front, rest⟩ := parts
    rw [hcut] at hrun
    cases hrun
    obtain ⟨hrest, rfl⟩ := Bytes.cut?_eq_some_iff.1 hcut
    exact ⟨value, hrest, reads_bytes value⟩
  | none =>
    rw [hcut] at hrun
    exact absurd hrun (by simp)

theorem reads_bytes_iff {n : Nat} {used value : Bytes} :
    Reads (bytes n) used value ↔ used = value ∧ value.length = n := by
  constructor
  · intro h
    have hrun := h.run_start
    rw [bytes] at hrun
    cases hcut : Bytes.cut? n used with
    | some parts =>
      obtain ⟨front, rest⟩ := parts
      rw [hcut] at hrun
      injection hrun with hvalue hcursor
      injection hcursor with _ hrest
      obtain ⟨hused, hlen⟩ := Bytes.cut?_eq_some_iff.1 hcut
      rw [hrest, List.append_nil, hvalue] at hused
      exact ⟨hused, by rw [← hvalue]; exact hlen⟩
    | none =>
      rw [hcut] at hrun
      exact absurd hrun (by simp)
  · rintro ⟨rfl, rfl⟩
    exact reads_bytes _

theorem isStreaming_word (width : Nat) : IsStreaming (word width) :=
  (isStreaming_bytes width).map _

theorem reads_word_iff {width n : Nat} {used : Bytes} :
    Reads (word width) used n ↔ used.length = width ∧ Bytes.toNat used = n := by
  rw [word, reads_map_iff (isStreaming_bytes width)]
  constructor
  · rintro ⟨found, hfound, rfl⟩
    obtain ⟨rfl, hlen⟩ := reads_bytes_iff.1 hfound
    exact ⟨hlen, rfl⟩
  · rintro ⟨hlen, rfl⟩
    exact ⟨used, reads_bytes_iff.2 ⟨rfl, hlen⟩, rfl⟩

/-- A word that is read as a value of a word type is the layout of that value. -/
theorem reads_map_word_iff {width : Nat} {ofNat : Nat → α} {toNat : α → Nat}
    (hleft : ∀ value, ofNat (toNat value) = value) (hlt : ∀ value, toNat value < 256 ^ width)
    (hright : ∀ n, n < 256 ^ width → toNat (ofNat n) = n) {used : Bytes} {value : α} :
    Reads (ofNat <$> word width) used value ↔ used = Bytes.ofNat width (toNat value) := by
  rw [reads_map_iff (isStreaming_word width)]
  constructor
  · rintro ⟨n, hword, rfl⟩
    obtain ⟨rfl, rfl⟩ := reads_word_iff.1 hword
    rw [hright _ (Bytes.toNat_lt used), Bytes.ofNat_toNat]
  · rintro rfl
    refine ⟨toNat value, reads_word_iff.2 ⟨Bytes.length_ofNat _ _, ?_⟩, hleft value⟩
    exact Bytes.toNat_ofNat_of_lt (hlt value)

theorem isStreaming_u8 : IsStreaming u8 :=
  (isStreaming_word 1).map _

theorem isStreaming_u16 : IsStreaming u16 :=
  (isStreaming_word 2).map _

theorem isStreaming_u32 : IsStreaming u32 :=
  (isStreaming_word 4).map _

theorem isStreaming_u64 : IsStreaming u64 :=
  (isStreaming_word 8).map _

theorem reads_u8_iff {used : Bytes} {byte : UInt8} : Reads u8 used byte ↔ used = [byte] := by
  have h : Reads u8 used byte ↔ used = Bytes.ofNat 1 byte.toNat :=
    reads_map_word_iff (fun _ => UInt8.ofNat_toNat) (fun value => value.toNat_lt)
      fun _ h => UInt8.toNat_ofNat_of_lt' h
  rw [h, Bytes.ofNat, Bytes.ofNat, List.nil_append, UInt8.ofNat_toNat]

theorem reads_u16_iff {used : Bytes} {value : UInt16} :
    Reads u16 used value ↔ used = Bytes.ofUInt16 value :=
  reads_map_word_iff (fun _ => UInt16.ofNat_toNat) (fun value => value.toNat_lt)
    fun _ h => UInt16.toNat_ofNat_of_lt' h

theorem reads_u32_iff {used : Bytes} {value : UInt32} :
    Reads u32 used value ↔ used = Bytes.ofUInt32 value :=
  reads_map_word_iff (fun _ => UInt32.ofNat_toNat) (fun value => value.toNat_lt)
    fun _ h => UInt32.toNat_ofNat_of_lt' h

theorem reads_u64_iff {used : Bytes} {value : UInt64} :
    Reads u64 used value ↔ used = Bytes.ofUInt64 value :=
  reads_map_word_iff (fun _ => UInt64.ofNat_toNat) (fun value => value.toNat_lt)
    fun _ h => UInt64.toNat_ofNat_of_lt' h

theorem isStreaming_flags {kind : FlagKind} : IsStreaming (@flags kind) :=
  isStreaming_u16.map _

theorem reads_flags_iff {kind : FlagKind} {used : Bytes} {set : FlagSet kind} :
    Reads flags used set ↔ ∃ bits, used = Bytes.ofUInt16 bits ∧ FlagSet.truncate bits = set := by
  rw [flags, reads_map_iff isStreaming_u16]
  simp only [reads_u16_iff]

/-- A set of flags reads back from its own word. -/
theorem reads_flags_bits {kind : FlagKind} (set : FlagSet kind) :
    Reads flags (Bytes.ofUInt16 set.bits) set :=
  reads_flags_iff.2 ⟨set.bits, rfl, FlagSet.truncate_bits set⟩

/-! ## Tables -/

theorem list_succ (count : Nat) (item : Reader α) :
    list (count + 1) item = item >>= fun first => list count item >>= fun others =>
      pure (first :: others) := by
  rw [list, List.replicate_succ, List.mapM_cons]
  rfl

theorem list_add (count count' : Nat) (item : Reader α) :
    list (count + count') item = list count item >>= fun front => list count' item >>= fun back =>
      pure (front ++ back) := by
  unfold list
  rw [← List.replicate_append_replicate, List.mapM_append]

/-- A row of items has the property if the reader of an item has it. -/
theorem IsCompositional.list (hP : IsCompositional P) {item : Reader α} (h : P item)
    (count : Nat) : P (list count item) := by
  induction count with
  | zero => exact hP.pure []
  | succ count ih =>
    rw [list_succ]
    exact hP.bind h fun _ => hP.bind ih fun _ => hP.pure _

/-- A table has the property if the readers of its count and of a row have it. -/
theorem IsCompositional.table (hP : IsCompositional P) {row : Reader α} (hcount : P u16)
    (h : P row) : P (table row) :=
  hP.bind hcount fun count => hP.list h count.toNat

theorem isStreaming_list {item : Reader α} (h : IsStreaming item) (count : Nat) :
    IsStreaming (list count item) :=
  IsStreaming.isCompositional.list h count

/-- A row of items is read from their bytes one after the other. -/
theorem reads_list_iff {item : Reader α} (h : IsStreaming item) {count : Nat} {used : Bytes}
    {items : List α} :
    Reads (list count item) used items ↔
      items.length = count ∧
        ∃ parts, List.Forall₂ (Reads item) parts items ∧ parts.flatten = used := by
  induction count generalizing used items with
  | zero =>
    rw [show list 0 item = pure [] from rfl, reads_pure_iff]
    constructor
    · rintro ⟨rfl, rfl⟩
      exact ⟨rfl, [], .nil, rfl⟩
    · rintro ⟨hlen, parts, hparts, rfl⟩
      cases List.length_eq_zero_iff.1 hlen
      cases hparts
      exact ⟨rfl, rfl⟩
  | succ count ih =>
    have hrest := isStreaming_list h count
    rw [list_succ, reads_bind_iff h fun _ => hrest.bind fun _ => isStreaming_pure _]
    simp only [reads_bind_iff hrest fun _ => isStreaming_pure _, reads_pure_iff, ih]
    constructor
    · rintro ⟨first, front, _, rfl, hfirst, others, back, _, rfl, ⟨hlen, parts, hparts, rfl⟩,
        rfl, rfl⟩
      refine ⟨by rw [List.length_cons, hlen], front :: parts, .cons hfirst hparts, ?_⟩
      rw [List.flatten_cons, List.append_nil]
    · rintro ⟨hlen, parts, hparts, rfl⟩
      cases hparts with
      | nil => exact absurd hlen (by simp)
      | @cons front first parts others hfirst hothers =>
        refine ⟨first, front, parts.flatten, rfl, hfirst, others, parts.flatten, [],
          (List.append_nil _).symm, ⟨by simpa using hlen, parts, hothers, rfl⟩, rfl, rfl⟩

theorem isStreaming_table {row : Reader α} (h : IsStreaming row) : IsStreaming (table row) :=
  IsStreaming.isCompositional.table isStreaming_u16 h

/-- A table is read from the count of its rows and their bytes one after the other. -/
theorem reads_table_iff {row : Reader α} (h : IsStreaming row) {used : Bytes} {rows : List α} :
    Reads (table row) used rows ↔
      rows.length ≤ 0xFFFF ∧ ∃ parts, List.Forall₂ (Reads row) parts rows ∧
        Bytes.ofNat 2 rows.length ++ parts.flatten = used := by
  rw [table, reads_bind_iff isStreaming_u16 fun count => isStreaming_list h count.toNat]
  simp only [reads_u16_iff, reads_list_iff h]
  constructor
  · rintro ⟨count, _, _, rfl, rfl, hlen, parts, hparts, rfl⟩
    have hlt := count.toNat_lt
    exact ⟨by omega, parts, hparts, by rw [hlen]; rfl⟩
  · rintro ⟨hle, parts, hparts, rfl⟩
    have hcount : (UInt16.ofNat rows.length).toNat = rows.length :=
      UInt16.toNat_ofNat_of_lt' (by rw [UInt16.size]; omega)
    exact ⟨UInt16.ofNat rows.length, _, _, rfl, Bytes.ofNat_two_eq_ofUInt16 hle, hcount.symm,
      parts, hparts, rfl⟩

/-! ## Attribute bodies -/

/-- A body is read like any other bytes, but an early end is named in another way. -/
theorem body_eq_ok_iff {n : Nat} {cursor stop : Cursor} {value : Bytes} :
    body n cursor = .ok value stop ↔ bytes n cursor = .ok value stop := by
  rw [body, bytes]
  cases Bytes.cut? n cursor.rest with
  | some parts => rfl
  | none => simp

theorem reads_body_iff {n : Nat} {used value : Bytes} :
    Reads (body n) used value ↔ used = value ∧ value.length = n :=
  (reads_congr fun _ _ _ => body_eq_ok_iff).trans reads_bytes_iff

theorem isStreaming_body (n : Nat) : IsStreaming (body n) :=
  (isStreaming_bytes n).congr fun _ _ _ => body_eq_ok_iff

/-- Reading within a body changes only how an early end is named. -/
theorem withinBody_eq_ok_iff {reader : Reader α} {cursor stop : Cursor} {value : α} :
    withinBody reader cursor = .ok value stop ↔ reader cursor = .ok value stop := by
  rw [withinBody]
  split
  · rename_i heq
    rw [heq]
    simp
  · exact Iff.rfl

theorem reads_withinBody_iff {reader : Reader α} {used : Bytes} {value : α} :
    Reads (withinBody reader) used value ↔ Reads reader used value :=
  reads_congr fun _ _ _ => withinBody_eq_ok_iff

theorem isStreaming_withinBody {reader : Reader α} (h : IsStreaming reader) :
    IsStreaming (withinBody reader) :=
  h.congr fun _ _ _ => withinBody_eq_ok_iff

end Reader
end ModuleRecord
