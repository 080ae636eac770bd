import ModuleRecord.Proofs.Descriptor.Faults

/-!
# Checking names

The names that pass the checks. A module name is a plain text with its reserved characters escaped,
and of one such text only, since escaping loses nothing (`Name.escape_inj`). A binary name is a row
of segments that are joined by dots. What does not pass is an empty or an invalid name
(`Descriptor.name_checks_admit`).
-/

namespace ModuleRecord
namespace Name

/-! ## Escaping -/

/-- A text with a backslash before each backslash, colon and at sign. -/
def escape (plain : String) : String :=
  String.ofList (plain.toList.flatMap fun c => if c ∈ ['\\', ':', '@'] then ['\\', c] else [c])

/-- A text that a module name stands for: it is not empty and has no controls, which are `00` to
`1F` and `7F` to `9F`. -/
structure IsPlain (text : String) : Prop where
  ne_empty : text ≠ ""
  no_controls : ∀ c ∈ text.toList, ¬ (c.toNat ≤ 0x1F ∨ 0x7F ≤ c.toNat ∧ c.toNat ≤ 0x9F)

theorem isReserved_iff {c : Char} : isReserved c = true ↔ c ∈ ['\\', ':', '@'] := by
  simp [isReserved, or_assoc]

theorem isControl_iff {c : Char} :
    isControl c = true ↔ c.toNat ≤ 0x1F ∨ 0x7F ≤ c.toNat ∧ c.toNat ≤ 0x9F := by
  simp [isControl]

theorem toList_escape (plain : String) : (escape plain).toList = plain.toList.flatMap spell := by
  have hspell (c : Char) : (if c ∈ ['\\', ':', '@'] then ['\\', c] else [c]) = spell c :=
    if_congr isReserved_iff.symm rfl rfl
  unfold escape
  simp only [String.toList_ofList, hspell]

theorem spell_ne_nil (c : Char) : spell c ≠ [] := by
  unfold spell
  split <;> exact List.cons_ne_nil _ _

/-- What begins with the spelling of a character does not begin with that of another one. -/
theorem spell_append_inj {c d : Char} {rest others : List Char} :
    spell c ++ rest = spell d ++ others ↔ c = d ∧ rest = others := by
  have hbackslash : isReserved '\\' = true := by decide
  constructor
  · intro h
    unfold spell at h
    by_cases hc : isReserved c = true
    · by_cases hd : isReserved d = true
      · rw [if_pos hc, if_pos hd] at h
        cases h
        exact ⟨rfl, rfl⟩
      · rw [if_pos hc, if_neg hd] at h
        cases h
        exact absurd hbackslash hd
    · by_cases hd : isReserved d = true
      · rw [if_neg hc, if_pos hd] at h
        cases h
        exact absurd hbackslash hc
      · rw [if_neg hc, if_neg hd] at h
        cases h
        exact ⟨rfl, rfl⟩
  · rintro ⟨rfl, rfl⟩
    rfl

theorem flatMap_spell_inj {plain other : List Char} :
    plain.flatMap spell = other.flatMap spell ↔ plain = other := by
  induction plain generalizing other with
  | nil =>
    cases other with
    | nil => exact iff_of_true rfl rfl
    | cons d other => simp [spell_ne_nil d]
  | cons c plain ih =>
    cases other with
    | nil => simp [spell_ne_nil c]
    | cons d other =>
      rw [List.flatMap_cons, List.flatMap_cons, spell_append_inj, ih, List.cons.injEq]

/-- Escaping loses nothing. -/
theorem escape_inj {plain other : String} : escape plain = escape other ↔ plain = other := by
  rw [← String.toList_inj, toList_escape, toList_escape, flatMap_spell_inj, String.toList_inj]

theorem escape_eq_empty_iff {plain : String} : escape plain = "" ↔ plain = "" :=
  @escape_inj plain ""

/-- The module names are the plain texts, escaped. -/
theorem isModuleName_iff_escape {name : String} :
    isModuleName name = true ↔ ∃ plain, IsPlain plain ∧ escape plain = name := by
  have hcontrols (chars : List Char) : (∀ c ∈ chars, isControl c = false) ↔
      ∀ c ∈ chars, ¬ (c.toNat ≤ 0x1F ∨ 0x7F ≤ c.toNat ∧ c.toNat ≤ 0x9F) := by
    refine forall₂_congr fun c _ => ?_
    rw [← isControl_iff, Bool.not_eq_true]
  rw [isModuleName_iff]
  constructor
  · rintro ⟨hne, chars, hplain, hname⟩
    have hescape : escape (String.ofList chars) = name := by
      rw [← String.toList_inj, toList_escape, String.toList_ofList, hname]
    refine ⟨String.ofList chars, ⟨?_, ?_⟩, hescape⟩
    · rwa [ne_eq, ← escape_eq_empty_iff, hescape]
    · rw [String.toList_ofList]
      exact (hcontrols chars).1 hplain
  · rintro ⟨plain, hplain, rfl⟩
    exact ⟨mt escape_eq_empty_iff.1 hplain.ne_empty, plain.toList,
      (hcontrols _).2 hplain.no_controls, toList_escape plain⟩

end Name

namespace Descriptor

/-! ## Checks -/

/-- A check of names succeeds for those that are accepted. An empty name is told apart, and every
other one is invalid. -/
structure Admits (check : Role → String → Except Error Unit) (accepted : String → Prop) : Prop where
  succeeds_iff : ∀ role name, check role name = .ok () ↔ accepted name
  empty_iff : ∀ role name, check role name = .error (.emptyName role) ↔ name = ""
  invalid_iff : ∀ role name, check role name = .error (.invalidName role name) ↔
    name ≠ "" ∧ ¬ accepted name

/-- The check of a name admits the names for which it is right, if the empty one is not right. -/
theorem admits_of_checks {check : Role → String → Except Error Unit} {accepted : String → Prop}
    {item : Role → String → Checked}
    (hchecks : ∀ role name, Checks (check role name) [item role name])
    (hfault : ∀ role name, (item role name).fault = Checked.nameFault role name)
    (hright : ∀ role name, (item role name).IsRight ↔ accepted name)
    (hne : ∀ name, accepted name → name ≠ "") : Admits check accepted := by
  have herror (role : Role) (name : String) (found : Error) :
      check role name = .error found ↔ ¬ accepted name ∧ Checked.nameFault role name = found := by
    rw [hchecks role name found, List.findSome?_singleton, Checked.fault?_eq_some_iff, hright,
      hfault]
  refine ⟨fun role name => ?_, fun role name => ?_, fun role name => ?_⟩
  · have hok := (hchecks role name).exists_ok_iff
    rw [List.forall_mem_singleton, Checked.fault?_eq_none_iff, hright] at hok
    rw [← hok]
    exact ⟨fun h => ⟨(), h⟩, fun ⟨_, h⟩ => h⟩
  · rw [herror, Checked.nameFault]
    by_cases hempty : name = ""
    · simp only [hempty, if_true, and_true, iff_true]
      exact fun haccepted => hne "" haccepted rfl
    · simp [hempty]
  · rw [herror, Checked.nameFault]
    by_cases hempty : name = ""
    · simp [hempty]
    · simp [hempty]

/-- A module name is a plain text with its reserved characters escaped, which no other text is
escaped to, and a binary name is a row of segments that are joined by dots. Any other name is empty
or invalid. -/
theorem name_checks_admit :
    Admits checkModuleName (fun name => ∃ plain, Name.IsPlain plain ∧ Name.escape plain = name) ∧
      (∀ plain other, Name.escape plain = Name.escape other ↔ plain = other) ∧
      Admits checkBinaryName
        (fun name => ∃ pieces, Name.AreSegments pieces ∧ ".".intercalate pieces = name) := by
  refine ⟨?_, fun _ _ => Name.escape_inj, ?_⟩
  · refine admits_of_checks checks_moduleName (fun _ _ => rfl) (fun _ name => ?_) fun name h => ?_
    · exact Name.isModuleName_iff.symm.trans Name.isModuleName_iff_escape
    · exact Name.ne_empty_of_isModuleName (Name.isModuleName_iff_escape.2 h)
  · refine admits_of_checks checks_binaryName (fun _ _ => rfl) (fun _ _ => Iff.rfl) ?_
    exact fun _ h => Name.ne_empty_of_isBinaryName (Name.isBinaryName_iff.2 h)

/-- Of an even number of backslashes, none is left to escape the character behind them. -/
example : checkModuleName .declaredModule "org\\\\@1" =
      .error (.invalidName .declaredModule "org\\\\@1") ∧
    checkModuleName .declaredModule "org\\\\\\@1" = .ok () := by
  decide

end Descriptor
end ModuleRecord
