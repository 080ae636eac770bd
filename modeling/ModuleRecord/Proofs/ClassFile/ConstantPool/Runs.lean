import ModuleRecord.Proofs.ClassFile.ConstantPool.Needs

/-!
# Runs of interning calls

A pool that is given by its slots, and then any row of calls, some of which may find it full. A call
that succeeds returns the lowest slot of what it interns, and that is where it remains
(`PlacedAt`): slots are only added, a slot that was returned resolves to the interned name ever
after and is returned again, and different names have different slots (`returns_of_run`).
-/

namespace ModuleRecord
namespace ConstantPool

/-! ## Calls -/

/-- A call that interns a text, or a class, module or package by its dotted name. -/
inductive Call where
  | utf8 (text : String)
  | symbol (kind : SymbolKind) (name : String)
  deriving DecidableEq, Repr

/-- Interns what a slot is needed for. -/
def Need.intern : Need → Interning UInt16
  | .text name => internUtf8 name
  | .symbol kind name => internSymbol kind name

namespace Call

/-- Makes the call. -/
def intern : Call → Interning UInt16
  | utf8 text => internUtf8 text
  | symbol .classSymbol name => internClass name
  | symbol .moduleSymbol name => internModule name
  | symbol .packageSymbol name => internPackage name

/-- What is interned: the name of a class or package in its internal form. -/
def need : Call → Need
  | utf8 text => .text text
  | symbol .classSymbol name => .symbol .classSymbol (InternalName.ofDotted name)
  | symbol .moduleSymbol name => .symbol .moduleSymbol name
  | symbol .packageSymbol name => .symbol .packageSymbol (InternalName.ofDotted name)

theorem intern_eq (call : Call) : call.intern = call.need.intern := by
  cases call with
  | utf8 text => rfl
  | symbol kind name => cases kind <;> rfl

/-- The pool that a call leaves, whether it succeeds or fails. -/
def leave (pool : ConstantPool) (call : Call) : ConstantPool :=
  match call.intern pool with
  | .ok _ later => later
  | .error _ later => later

end Call

/-- The pool after a row of calls. -/
def after (pool : ConstantPool) (calls : List Call) : ConstantPool :=
  calls.foldl Call.leave pool

/-! ## Places -/

/-- The slot of a need is the lowest one of its entry, and the name of a symbol is given by the
lowest slot of that name. -/
inductive PlacedAt (pool : ConstantPool) : Need → UInt16 → Prop where
  | text {text : String} {slot : UInt16} (h : pool.IsLowest (.utf8 text) slot) :
      PlacedAt pool (.text text) slot
  | symbol {kind : SymbolKind} {name : String} {nameSlot slot : UInt16}
      (hname : pool.IsLowest (.utf8 name) nameSlot)
      (h : pool.IsLowest (.symbol kind nameSlot) slot) : PlacedAt pool (.symbol kind name) slot

/-- The slot resolves, as a slot of its kind, to what it is needed for. -/
def Resolves (pool : ConstantPool) (slot : UInt16) : Need → Prop
  | .text name => pool.utf8 slot = .ok name
  | .symbol kind name => pool.symbolName kind slot = .ok name

namespace PlacedAt

variable {pool : ConstantPool} {need need' : Need} {slot slot' : UInt16}

theorem ne_zero (h : PlacedAt pool need slot) : slot ≠ 0 := by
  cases h with
  | text h => exact (get?_eq_some_iff.1 h.1).1
  | symbol hname h => exact (get?_eq_some_iff.1 h.1).1

theorem resolves (h : PlacedAt pool need slot) : Resolves pool slot need := by
  cases h with
  | text h => exact utf8_of_get? h.1
  | symbol hname h => exact (symbolName_of_get? h.1).trans (utf8_of_get? hname.1)

theorem exists_fulfils (h : PlacedAt pool need slot) :
    ∃ key, Fulfils pool need key ∧ pool.get? slot = some key.entry := by
  cases h with
  | text h => exact ⟨_, .text _, h.1⟩
  | symbol hname h => exact ⟨_, .symbol _ hname.1, h.1⟩

theorem unique (h : PlacedAt pool need slot) (h' : PlacedAt pool need slot') : slot = slot' := by
  cases h with
  | text h =>
    cases h' with
    | text h' => exact h.unique h'
  | symbol hname h =>
    cases h' with
    | symbol hname' h' =>
      rw [hname.unique hname'] at h
      exact h.unique h'

/-- One slot is that of one need only, and one need has one slot only. -/
theorem eq_iff (h : PlacedAt pool need slot) (h' : PlacedAt pool need' slot') :
    slot = slot' ↔ need = need' := by
  constructor
  · rintro rfl
    obtain ⟨key, hkey, hheld⟩ := h.exists_fulfils
    obtain ⟨key', hkey', hheld'⟩ := h'.exists_fulfils
    rw [hheld, Option.some_inj] at hheld'
    rw [← Key.entry_inj hheld'] at hkey'
    exact hkey.unique hkey'
  · rintro rfl
    exact h.unique h'

end PlacedAt

/-! ## One call -/

theorem intern_of_isLowest {pool : ConstantPool} {key : Key} {slot : UInt16} (h : pool.IsIndexed)
    (hlowest : pool.IsLowest key.entry slot) : ConstantPool.intern key pool = .ok slot pool := by
  unfold ConstantPool.intern
  rw [(h key slot).2 hlowest]

theorem poolFull_of_intern {pool later : ConstantPool} {key : Key} {fault : ClassFile.Error}
    (h : pool.IsIndexed) (hrun : ConstantPool.intern key pool = .error fault later) :
    fault = .poolFull := by
  have hstep := intern_step h key
  rw [hrun] at hstep
  cases hstep
  rfl

namespace Need

variable {pool later : ConstantPool} {need : Need} {slot : UInt16}

/-- A need is placed by interning it. -/
theorem lays_intern (need : Need) :
    Lays need.intern fun final slot => PlacedAt final need slot := by
  cases need with
  | text name => exact (lays_intern_lowest (.utf8 name)).imp fun _ _ hlowest => .text hlowest
  | symbol kind name =>
    refine (lays_intern_lowest (.utf8 name)).bind fun nameSlot =>
      (lays_intern_lowest (.symbol kind nameSlot)).imp ?_
    intro final slot hlowest hname
    exact .symbol hname hlowest

/-- A need that is placed is found where it is, and nothing is added for it. -/
theorem intern_of_placedAt (h : pool.IsIndexed) (hplaced : PlacedAt pool need slot) :
    need.intern pool = .ok slot pool := by
  cases hplaced with
  | text hlowest => exact intern_of_isLowest h hlowest
  | symbol hname hlowest =>
    change internSymbol _ _ pool = _
    unfold internSymbol internUtf8
    rw [run_bind, @intern_of_isLowest _ (.utf8 _) _ h hname]
    exact @intern_of_isLowest _ (.symbol _ _) _ h hlowest

/-- Interning fails for want of a slot only. -/
theorem poolFull_of_intern {fault : ClassFile.Error} (h : pool.IsIndexed)
    (hrun : need.intern pool = .error fault later) : fault = .poolFull := by
  cases need with
  | text name => exact ConstantPool.poolFull_of_intern h hrun
  | symbol kind name =>
    change internSymbol _ _ pool = _ at hrun
    unfold internSymbol at hrun
    rw [run_bind] at hrun
    cases hname : internUtf8 name pool with
    | error fault' middle =>
      rw [hname] at hrun
      cases hrun
      exact ConstantPool.poolFull_of_intern h hname
    | ok nameSlot middle =>
      rw [hname] at hrun
      obtain ⟨⟨hmiddle, -⟩, -⟩ := (lays_intern_lowest (.utf8 name)).of_ok h hname
      exact ConstantPool.poolFull_of_intern hmiddle hrun

end Need

/-! ## Runs -/

theorem after_eq (pool : ConstantPool) (calls : List Call) :
    pool.after calls = pool.afterAll (calls.map Call.intern) := by
  have hleave : Call.leave = fun pool call => leftBy call.intern pool := by
    funext pool call
    unfold Call.leave leftBy
    cases call.intern pool <;> rfl
  unfold after afterAll
  rw [List.foldl_map, hleave]

/-- Calls keep the index right and only add slots. -/
theorem after_run {pool : ConstantPool} (h : pool.IsIndexed) (calls : List Call) :
    (pool.after calls).IsIndexed ∧ pool.GrowsTo (pool.after calls) := by
  rw [after_eq]
  refine afterAll_run h ?_
  rw [List.forall_mem_map]
  intro call _
  rw [call.intern_eq]
  exact ⟨_, call.need.lays_intern⟩

/-- A pool that is filled from given slots has a right index. -/
theorem isIndexed_after {entries : List Entry} (h : entries.length ≤ 0xFFFF) (calls : List Call) :
    ((ofList entries).after calls).IsIndexed :=
  (after_run (isIndexed_ofList h) calls).1

theorem after_append (pool : ConstantPool) (calls calls' : List Call) :
    pool.after (calls ++ calls') = (pool.after calls).after calls' :=
  List.foldl_append

/-- In the course of a run the pool only grows. -/
theorem growsTo_after_take {pool : ConstantPool} (h : pool.IsIndexed) (calls : List Call)
    {m n : Nat} (hle : m ≤ n) :
    (pool.after (calls.take m)).GrowsTo (pool.after (calls.take n)) := by
  have hsplit : calls.take n = calls.take m ++ (calls.take n).drop m := by
    conv_lhs => rw [← List.take_append_drop m (calls.take n)]
    rw [List.take_take, Nat.min_eq_left hle]
  rw [hsplit, after_append]
  exact (after_run (after_run h _).1 _).2

/-- The call at a place of a run succeeds with a slot. -/
def Returns (pool : ConstantPool) (calls : List Call) (place : Nat) (call : Call)
    (slot : UInt16) : Prop :=
  calls[place]? = some call ∧ ∃ later, call.intern (pool.after (calls.take place)) = .ok slot later

/-- What a call of a run has returned is placed there for the rest of the run. -/
theorem Returns.placedAt {pool : ConstantPool} {calls : List Call} {place : Nat} {call : Call}
    {slot : UInt16} (h : Returns pool calls place call slot) (hindexed : pool.IsIndexed) {n : Nat}
    (hlt : place < n) : PlacedAt (pool.after (calls.take n)) call.need slot := by
  obtain ⟨hcall, later, hrun⟩ := h
  have hleave : pool.after (calls.take (place + 1)) = later := by
    rw [List.take_add_one, hcall, after_append]
    change call.leave _ = later
    unfold Call.leave
    rw [hrun]
  have hgrows := growsTo_after_take hindexed calls (Nat.succ_le_of_lt hlt)
  rw [hleave] at hgrows
  rw [call.intern_eq] at hrun
  obtain ⟨-, hplaced⟩ := call.need.lays_intern.of_ok (after_run hindexed _).1 hrun
  exact hplaced _ hgrows

/-- In every run that starts from given slots, slots stay as they are, and a slot that is returned
is not zero, resolves to what was interned ever after and is returned again without a change to the
pool. Two calls are given the same slot exactly if they intern the same, and a call that fails does
so because no slot is free. -/
theorem returns_of_run {entries : List Entry} (h : entries.length ≤ 0xFFFF) (calls : List Call) :
    (∀ m n, m ≤ n → ((ofList entries).after (calls.take m)).toList <+:
      ((ofList entries).after (calls.take n)).toList) ∧
    (∀ place call slot, Returns (ofList entries) calls place call slot →
      slot ≠ 0 ∧ ∀ n, place < n →
        Resolves ((ofList entries).after (calls.take n)) slot call.need ∧
        call.intern ((ofList entries).after (calls.take n)) =
          .ok slot ((ofList entries).after (calls.take n))) ∧
    (∀ place place' call call' slot slot', Returns (ofList entries) calls place call slot →
      Returns (ofList entries) calls place' call' slot' →
      (slot = slot' ↔ call.need = call'.need)) ∧
    ∀ (n : Nat) (call : Call) (fault : ClassFile.Error) (later : ConstantPool),
      call.intern ((ofList entries).after (calls.take n)) = .error fault later →
        fault = .poolFull := by
  have hindexed := isIndexed_ofList h
  refine ⟨?_, ?_, ?_, ?_⟩
  · intro m n hle
    exact (growsTo_after_take hindexed calls hle).isPrefix
  · intro place call slot hreturns
    refine ⟨(hreturns.placedAt hindexed (Nat.lt_succ_self place)).ne_zero, ?_⟩
    intro n hlt
    have hplaced := hreturns.placedAt hindexed hlt
    refine ⟨hplaced.resolves, ?_⟩
    rw [call.intern_eq]
    exact Need.intern_of_placedAt (after_run hindexed _).1 hplaced
  · intro place place' call call' slot slot' hreturns hreturns'
    -- both are placed once the later of the two calls has been made
    have hplaced := hreturns.placedAt hindexed (Nat.lt_succ_of_le (Nat.le_max_left place place'))
    have hplaced' := hreturns'.placedAt hindexed (Nat.lt_succ_of_le (Nat.le_max_right place place'))
    exact hplaced.eq_iff hplaced'
  · intro n call fault later hrun
    rw [call.intern_eq] at hrun
    exact Need.poolFull_of_intern (after_run hindexed _).1 hrun

/-- A text that is held twice, a class that has the later slot for its name, and a package whose
name is not there yet. -/
def sharedEntries : List Entry :=
  [.utf8 "a/b", .utf8 "a/b", .symbol .classSymbol 2, .symbol .packageSymbol 6, .unusable]

/-- The name of the module takes the slot that the package points at, and the class is not found
under the first slot of its name. -/
def sharedCalls : List Call :=
  [.symbol .moduleSymbol "m", .symbol .packageSymbol "m", .symbol .classSymbol "a.b"]

theorem sharedCalls_returns : sharedEntries.length ≤ 0xFFFF ∧
    Returns (ofList sharedEntries) sharedCalls 1 (.symbol .packageSymbol "m") 4 ∧
    Returns (ofList sharedEntries) sharedCalls 2 (.symbol .classSymbol "a.b") 8 ∧
    Resolves ((ofList sharedEntries).after sharedCalls) 4 (.symbol .packageSymbol "m") ∧
    Resolves ((ofList sharedEntries).after sharedCalls) 8 (.symbol .classSymbol "a/b") := by
  have hlen : sharedEntries.length ≤ 0xFFFF := by decide
  have hreturns : Returns (ofList sharedEntries) sharedCalls 1 (.symbol .packageSymbol "m") 4 ∧
      Returns (ofList sharedEntries) sharedCalls 2 (.symbol .classSymbol "a.b") 8 := by
    refine ⟨⟨rfl, ?_⟩, rfl, ?_⟩
    all_goals
      simp [sharedEntries, sharedCalls, after, Call.leave, Call.intern, internModule,
        internPackage, internClass, InternalName.ofDotted, InternalName.replace, internSymbol,
        run_bind, internUtf8, intern, ofList, indexOf, List.zipIdx, Entry.key?, push, capacity,
        Key.entry, Std.HashMap.getElem_insert, Std.HashMap.getElem_insertIfNew]
  obtain ⟨hpackage, hclass⟩ := hreturns
  obtain ⟨-, hreturned, -⟩ := returns_of_run hlen sharedCalls
  refine ⟨hlen, hpackage, hclass, ?_, ?_⟩
  · exact ((hreturned _ _ _ hpackage).2 3 (by decide)).1
  · exact ((hreturned _ _ _ hclass).2 3 (by decide)).1

end ConstantPool
end ModuleRecord
