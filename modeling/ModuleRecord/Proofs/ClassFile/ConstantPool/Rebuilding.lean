import ModuleRecord.Proofs.ClassFile.ConstantPool.Missing
import ModuleRecord.Proofs.ClassFile.RoundTrip

/-!
# Pools that are built anew

Pools are alike if they have the same slots and find the same in them. Alike pools answer alike, and
stay alike, whatever is asked of them (`Alike.answers_eq`). An index that is right is determined by
the slots, so a pool that was filled by interning is like the one that is built from its slots
alone, be it directly or by way of a class file that is written and read back
(`answers_of_rebuilt`).
-/

namespace ModuleRecord
namespace ConstantPool

/-! ## Requests -/

/-- Something that is asked of a pool. -/
inductive Request where
  /-- To intern a text or name. -/
  | intern (call : Call)
  /-- What a slot holds. -/
  | entry (slot : UInt16)
  /-- The text in a slot. -/
  | text (slot : UInt16)
  /-- The name of the symbol in a slot, as the pool holds it. -/
  | internalName (kind : SymbolKind) (slot : UInt16)
  /-- The name of the symbol in a slot, which is dotted if it is that of a class or package. -/
  | name (kind : SymbolKind) (slot : UInt16)

/-- What comes of a request. -/
inductive Answer where
  /-- The slot of what was to be interned. -/
  | interned (result : Except ClassFile.Error UInt16)
  /-- The entry, if the slot is taken. -/
  | held (entry : Option Entry)
  /-- The text or name. -/
  | resolved (result : Except ClassFile.Error String)

/-- The slot that a call returns, or its fault. -/
def Call.result (pool : ConstantPool) (call : Call) : Except ClassFile.Error UInt16 :=
  match call.intern pool with
  | .ok slot _ => .ok slot
  | .error fault _ => .error fault

namespace Request

/-- The answer that a pool gives. -/
def answer (pool : ConstantPool) : Request → Answer
  | intern call => .interned (call.result pool)
  | entry slot => .held (pool.get? slot)
  | text slot => .resolved (pool.utf8 slot)
  | internalName kind slot => .resolved (pool.symbolName kind slot)
  | name .classSymbol slot => .resolved (pool.className slot)
  | name .moduleSymbol slot => .resolved (pool.moduleName slot)
  | name .packageSymbol slot => .resolved (pool.packageName slot)

/-- The pool that a request leaves. -/
def leave (pool : ConstantPool) : Request → ConstantPool
  | intern call => call.leave pool
  | _ => pool

end Request

/-- The answers to a row of requests, each of which is made of the pool that the one before it has
left. -/
def answers : ConstantPool → List Request → List Answer
  | _, [] => []
  | pool, request :: requests => request.answer pool :: answers (request.leave pool) requests

/-! ## Alike pools -/

/-- The pools have the same slots, and find the same in them. -/
structure Alike (pool other : ConstantPool) : Prop where
  slots : pool.toList = other.toList
  index : ∀ key : Key, pool.index[key]? = other.index[key]?

theorem get?_congr {pool other : ConstantPool} (h : pool.toList = other.toList) :
    pool.get? = other.get? := by
  have hentries : pool.entries = other.entries := Array.toList_inj.1 h
  funext slot
  unfold get?
  rw [hentries]

/-- A right index is determined by the slots. -/
theorem IsIndexed.alike {pool other : ConstantPool} (h : pool.IsIndexed) (h' : other.IsIndexed)
    (hslots : pool.toList = other.toList) : pool.Alike other := by
  refine ⟨hslots, fun key => Option.ext fun slot => ?_⟩
  rw [h key slot, h' key slot, IsLowest, IsLowest, get?_congr hslots]

/-- Two computations end alike: with the same result or fault, and with pools that are alike. -/
inductive EndAlike {α : Type} : EStateM.Result ClassFile.Error ConstantPool α →
    EStateM.Result ClassFile.Error ConstantPool α → Prop where
  | ok {value : α} {later later' : ConstantPool} (h : later.Alike later') :
      EndAlike (.ok value later) (.ok value later')
  | error {fault : ClassFile.Error} {later later' : ConstantPool} (h : later.Alike later') :
      EndAlike (.error fault later) (.error fault later')

theorem EndAlike.bind {α β : Type} {layout : Interning α} {next : α → Interning β}
    {pool other : ConstantPool} (h : EndAlike (layout pool) (layout other))
    (hnext : ∀ value later later', later.Alike later' →
      EndAlike (next value later) (next value later')) :
    EndAlike ((layout >>= next) pool) ((layout >>= next) other) := by
  rw [run_bind, run_bind]
  generalize layout pool = result at h ⊢
  generalize layout other = result' at h ⊢
  cases h with
  | ok h => exact hnext _ _ _ h
  | error h => exact .error h

namespace Alike

variable {pool other : ConstantPool}

theorem push (h : pool.Alike other) (key : Key) :
    EndAlike (ConstantPool.push key pool) (ConstantPool.push key other) := by
  obtain ⟨entries, index⟩ := pool
  obtain ⟨entries', index'⟩ := other
  obtain ⟨hslots, hindex⟩ := h
  obtain rfl : entries = entries' := Array.toList_inj.1 hslots
  unfold ConstantPool.push
  by_cases hfull : capacity ≤ entries.size
  · simp only [if_pos hfull]
    exact .error ⟨rfl, hindex⟩
  · simp only [if_neg hfull]
    refine .ok ⟨rfl, fun key' => ?_⟩
    change (index.insert _ _)[key']? = (index'.insert _ _)[key']?
    rw [Std.HashMap.getElem?_insert, Std.HashMap.getElem?_insert]
    exact if_congr Iff.rfl rfl (hindex key')

theorem intern (h : pool.Alike other) (key : Key) :
    EndAlike (ConstantPool.intern key pool) (ConstantPool.intern key other) := by
  unfold ConstantPool.intern
  rw [h.index key]
  cases other.index[key]? with
  | some slot => exact .ok h
  | none => exact h.push key

theorem call (h : pool.Alike other) (call : Call) :
    EndAlike (call.intern pool) (call.intern other) := by
  rw [call.intern_eq]
  cases call.need with
  | text name => exact h.intern (.utf8 name)
  | symbol kind name =>
    exact (h.intern (.utf8 name)).bind fun slot _ _ hlater => hlater.intern (.symbol kind slot)

theorem result_eq (h : pool.Alike other) (call : Call) : call.result pool = call.result other := by
  have hend := h.call call
  unfold Call.result
  generalize call.intern pool = result at hend ⊢
  generalize call.intern other = result' at hend ⊢
  cases hend with
  | ok => rfl
  | error => rfl

theorem leave_call (h : pool.Alike other) (call : Call) :
    (call.leave pool).Alike (call.leave other) := by
  have hend := h.call call
  unfold Call.leave
  generalize call.intern pool = result at hend ⊢
  generalize call.intern other = result' at hend ⊢
  cases hend with
  | ok hlater => exact hlater
  | error hlater => exact hlater

theorem utf8_eq (h : pool.Alike other) : pool.utf8 = other.utf8 := by
  funext slot
  unfold utf8
  rw [get?_congr h.slots]

theorem symbolName_eq (h : pool.Alike other) : pool.symbolName = other.symbolName := by
  funext kind slot
  unfold symbolName nameSlot
  rw [get?_congr h.slots, h.utf8_eq]

theorem answer_eq (h : pool.Alike other) (request : Request) :
    request.answer pool = request.answer other := by
  cases request with
  | intern call => exact congrArg Answer.interned (h.result_eq call)
  | entry slot =>
    unfold Request.answer
    rw [get?_congr h.slots]
  | text slot =>
    unfold Request.answer
    rw [h.utf8_eq]
  | internalName kind slot =>
    unfold Request.answer
    rw [h.symbolName_eq]
  | name kind slot =>
    cases kind with
    | classSymbol =>
      unfold Request.answer className
      rw [h.symbolName_eq]
    | moduleSymbol =>
      unfold Request.answer moduleName
      rw [h.symbolName_eq]
    | packageSymbol =>
      unfold Request.answer packageName
      rw [h.symbolName_eq]

theorem leave (h : pool.Alike other) (request : Request) :
    (request.leave pool).Alike (request.leave other) := by
  cases request with
  | intern call => exact h.leave_call call
  | _ => exact h

/-- Alike pools answer a row of requests alike. -/
theorem answers_eq (h : pool.Alike other) (requests : List Request) :
    pool.answers requests = other.answers requests := by
  induction requests generalizing pool other with
  | nil => rfl
  | cons request requests ih => rw [answers, answers, h.answer_eq request, ih (h.leave request)]

end Alike

/-! ## Slots from answers -/

theorem get?_ofNat (pool : ConstantPool) {place : Nat} (h : place + 1 ≤ 0xFFFF) :
    pool.get? (UInt16.ofNat (place + 1)) = pool.toList[place]? := by
  have hslot : (UInt16.ofNat (place + 1)).toNat = place + 1 :=
    UInt16.toNat_ofNat_of_lt' (by rw [UInt16.size]; omega)
  refine Option.ext fun entry => ?_
  rw [get?_eq_some_iff, hslot, Nat.add_sub_cancel, ne_eq, ← UInt16.toNat_inj, hslot]
  exact and_iff_right (Nat.succ_ne_zero place)

/-- The slots of a pool that can be written are determined by what is held in them, since one slot
number is left behind them. -/
theorem toList_eq_of_get? {pool other : ConstantPool} (hsize : pool.size ≤ capacity)
    (h : pool.get? = other.get?) : pool.toList = other.toList := by
  unfold capacity at hsize
  have hat (place : Nat) (hplace : place ≤ pool.size) :
      pool.toList[place]? = other.toList[place]? := by
    rw [← get?_ofNat pool (by omega), ← get?_ofNat other (by omega), h]
  have hnone (place : Nat) (hplace : pool.size ≤ place) : pool.toList[place]? = none :=
    List.getElem?_eq_none hplace
  have hend : other.toList.length ≤ pool.size := by
    rw [← List.getElem?_eq_none_iff, ← hat _ (Nat.le_refl _)]
    exact hnone _ (Nat.le_refl _)
  refine List.ext_getElem? fun place => ?_
  rcases Nat.le_total place pool.size with hle | hge
  · exact hat place hle
  · rw [hnone place hge, List.getElem?_eq_none (hend.trans hge)]

/-! ## Rebuilt pools -/

/-- The pool of a class file that is written and read back gives the answers that it gave before
just if its slots are paired. -/
theorem answers_again_iff {file : ClassFile} {bytes : Bytes}
    (halike : (ofList file.pool.toList).Alike file.pool) (hwritten : file.toBytes = .ok bytes) :
    (∃ again, ClassFile.parse bytes = .ok again ∧
        ∀ requests, again.pool.answers requests = file.pool.answers requests) ↔
      IsPaired file.pool.toList := by
  constructor
  · rintro ⟨again, hparse, hanswers⟩
    have hget : file.pool.get? = again.pool.get? := by
      funext slot
      have hheld := hanswers [.entry slot]
      simp only [answers, Request.answer, List.cons.injEq, Answer.held.injEq, and_true] at hheld
      exact hheld.symm
    obtain ⟨pool, _, _, _, _, hpool, -⟩ := ClassFile.toBytes_eq_ok_iff.1 hwritten
    rw [toList_eq_of_get? (write_pool_eq_ok_iff.1 hpool).1 hget]
    -- what is read has paired slots, whatever it is read from
    exact (ClassFile.pool_of_parse hparse).1
  · intro hpaired
    exact ⟨file.rebuilt, ClassFile.parse_of_toBytes hpaired hwritten, halike.answers_eq⟩

/-- A pool that was filled by interning finds each text and symbol in the lowest slot that holds it,
and finds nothing else. So a pool that is built from its slots alone gives the same answers to every
row of requests, and so does the pool that comes of writing and reading a class file, which is the
case exactly if the slots are paired. -/
theorem answers_of_rebuilt {entries : List Entry} (h : entries.length ≤ 0xFFFF)
    (calls : List Call) : ∀ pool, pool = (ofList entries).after calls →
      pool.IsIndexed ∧
      (∀ requests, (ofList pool.toList).answers requests = pool.answers requests) ∧
      ∀ (file : ClassFile) (bytes : Bytes), file.pool = pool → file.toBytes = .ok bytes →
        ((∃ again, ClassFile.parse bytes = .ok again ∧
            ∀ requests, again.pool.answers requests = pool.answers requests) ↔
          IsPaired pool.toList) := by
  intro pool hpool
  have hindexed : pool.IsIndexed := by
    rw [hpool]
    exact isIndexed_after h calls
  have hsize : pool.size ≤ 0xFFFF := by
    rw [hpool]
    exact size_after_le_word h calls
  have halike : (ofList pool.toList).Alike pool := (isIndexed_ofList hsize).alike hindexed rfl
  refine ⟨hindexed, halike.answers_eq, ?_⟩
  rintro file bytes rfl hwritten
  exact answers_again_iff halike hwritten

/-- A text that is held twice, with a wide constant in between, and a class that has the later slot
for its name. -/
def doubledEntries : List Entry :=
  [.utf8 "C", .long (-1), .unusable, .utf8 "C", .symbol .classSymbol 4]

/-- A module record with the pool in which the class has been interned. It has not been found under
the first slot of its name, and so has taken another slot. -/
def doubledRecord : ClassFile :=
  .moduleRecord ((ofList doubledEntries).after [.symbol .classSymbol "C"]) 6 []

theorem toList_doubledRecord :
    doubledRecord.pool.toList = doubledEntries ++ [.symbol .classSymbol 1] := by
  simp [doubledRecord, ClassFile.moduleRecord, doubledEntries, after, Call.leave, Call.intern,
    internClass, InternalName.ofDotted, InternalName.replace, internSymbol, run_bind, internUtf8,
    ConstantPool.intern, ofList, indexOf, List.zipIdx, Entry.key?, ConstantPool.push, capacity,
    Key.entry, Std.HashMap.getElem_insertIfNew, toList]

theorem isPaired_doubledRecord : IsPaired doubledRecord.pool.toList := by
  rw [toList_doubledRecord, isPaired_iff]
  exact ⟨[.utf8 "C", .long (-1), .utf8 "C", .symbol .classSymbol 4, .symbol .classSymbol 1],
    by decide, rfl⟩

theorem exists_toBytes_doubledRecord : ∃ bytes, doubledRecord.toBytes = .ok bytes := by
  have hbodies : doubledRecord.HasBoundedBodies := by
    unfold ClassFile.HasBoundedBodies
    decide
  have htexts (text : String) (h : .utf8 text ∈ doubledRecord.pool.toList) :
      (ModifiedUtf8.encode text).length ≤ 65535 := by
    rw [toList_doubledRecord] at h
    have heq : text = "C" := by simpa [doubledEntries] using h
    rw [heq]
    decide
  refine (ClassFile.exists_toBytes_iff hbodies).2 ⟨?_, htexts, ?_, ?_, ?_, ?_⟩
  · change doubledRecord.pool.toList.length ≤ _
    rw [toList_doubledRecord]
    decide
  all_goals decide

/-- The slots of this record are paired, so the pool that is read back answers as it did before. -/
theorem doubledRecord_answers : doubledEntries.length ≤ 0xFFFF ∧
    ∃ bytes again, doubledRecord.toBytes = .ok bytes ∧ ClassFile.parse bytes = .ok again ∧
      (∀ requests, again.pool.answers requests = doubledRecord.pool.answers requests) ∧
      again.pool.answers [.entry 6] = [.held (some (.symbol .classSymbol 1))] := by
  have hlen : doubledEntries.length ≤ 0xFFFF := by decide
  obtain ⟨bytes, hwritten⟩ := exists_toBytes_doubledRecord
  obtain ⟨-, -, hagain⟩ := answers_of_rebuilt hlen [.symbol .classSymbol "C"] _ rfl
  obtain ⟨again, hparse, hanswers⟩ := (hagain doubledRecord bytes rfl hwritten).2
    isPaired_doubledRecord
  have hheld : doubledRecord.pool.get? 6 = some (.symbol .classSymbol 1) := by
    rw [get?_eq_some_iff, toList_doubledRecord]
    exact ⟨by decide, rfl⟩
  refine ⟨hlen, bytes, again, hwritten, hparse, hanswers, (hanswers _).trans ?_⟩
  exact congrArg (fun found => [Answer.held found]) hheld

end ConstantPool
end ModuleRecord
