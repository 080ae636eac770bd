import ModuleRecord.Proofs.Descriptor.Name

/-!
# Which texts are names

A module name spells a row of characters without controls, with a backslash before each reserved one
(`isModuleName_iff`). A binary name is made up of segments with dots between them
(`isBinaryName_iff`).
-/

namespace ModuleRecord
namespace Name

/-! ## Module names -/

/-- How a character is spelled in a module name. -/
def spell (c : Char) : List Char :=
  if isReserved c then ['\\', c] else [c]

/-- The characters spell a row of characters without controls. -/
def IsSpelling (chars : List Char) : Prop :=
  ∃ plain : List Char, (∀ c ∈ plain, isControl c = false) ∧ chars = plain.flatMap spell

/-- A module name spells at least one character, and no controls. -/
structure IsModuleName (name : String) : Prop where
  ne_empty : name ≠ ""
  spelling : IsSpelling name.toList

theorem isControl_of_isReserved {c : Char} (h : isReserved c = true) : isControl c = false := by
  simp only [isReserved, Bool.or_eq_true, beq_iff_eq] at h
  rcases h with (rfl | rfl) | rfl <;> decide

namespace IsSpelling

theorem nil : IsSpelling [] :=
  ⟨[], fun _ h => absurd h List.not_mem_nil, rfl⟩

theorem cons {c : Char} {chars : List Char} (hc : isControl c = false) (h : IsSpelling chars) :
    IsSpelling (spell c ++ chars) := by
  obtain ⟨plain, hplain, rfl⟩ := h
  exact ⟨c :: plain, List.forall_mem_cons.2 ⟨hc, hplain⟩, List.flatMap_cons.symm⟩

/-- A spelling begins with that of a character. -/
theorem exists_of_cons {first : Char} {rest : List Char} (h : IsSpelling (first :: rest)) :
    ∃ c chars, isControl c = false ∧ IsSpelling chars ∧ first :: rest = spell c ++ chars := by
  obtain ⟨plain, hplain, heq⟩ := h
  cases plain with
  | nil => cases heq
  | cons c plain =>
    rw [List.forall_mem_cons] at hplain
    exact ⟨c, plain.flatMap spell, hplain.1, ⟨plain, hplain.2, rfl⟩, heq⟩

/-- Behind a backslash stands a reserved character. -/
theorem backslash_iff {next : Char} {rest : List Char} :
    IsSpelling ('\\' :: next :: rest) ↔ isReserved next = true ∧ IsSpelling rest := by
  constructor
  · intro h
    obtain ⟨c, chars, -, hchars, heq⟩ := h.exists_of_cons
    by_cases hc : isReserved c = true
    · rw [spell, if_pos hc] at heq
      cases heq
      exact ⟨hc, hchars⟩
    · rw [spell, if_neg hc] at heq
      cases heq
      exact absurd rfl hc
  · rintro ⟨hnext, hrest⟩
    have hspelling := hrest.cons (isControl_of_isReserved hnext)
    rwa [spell, if_pos hnext] at hspelling

/-- Without a backslash stands a character that is neither reserved nor a control. -/
theorem cons_iff {first : Char} {rest : List Char} (hfirst : first ≠ '\\') :
    IsSpelling (first :: rest) ↔
      (isReserved first = false ∧ isControl first = false) ∧ IsSpelling rest := by
  constructor
  · intro h
    obtain ⟨c, chars, hcontrol, hchars, heq⟩ := h.exists_of_cons
    by_cases hc : isReserved c = true
    · rw [spell, if_pos hc] at heq
      cases heq
      exact absurd rfl hfirst
    · rw [spell, if_neg hc] at heq
      cases heq
      exact ⟨⟨Bool.not_eq_true _ ▸ hc, hcontrol⟩, hchars⟩
  · rintro ⟨⟨hreserved, hcontrol⟩, hrest⟩
    have hspelling := hrest.cons hcontrol
    rwa [spell, hreserved, if_neg Bool.false_ne_true] at hspelling

/-- A backslash does not stand alone. -/
theorem not_backslash : ¬ IsSpelling ['\\'] := by
  intro h
  obtain ⟨c, chars, -, -, heq⟩ := h.exists_of_cons
  by_cases hc : isReserved c = true
  · rw [spell, if_pos hc] at heq
    cases heq
  · rw [spell, if_neg hc] at heq
    cases heq
    exact hc rfl

end IsSpelling

theorem isEscaped_iff {chars : List Char} : isEscaped chars = true ↔ IsSpelling chars := by
  induction chars using isEscaped.induct with
  | case1 => exact iff_of_true rfl .nil
  | case2 c =>
    -- a last character has nothing behind it that a backslash could stand for
    unfold isEscaped
    by_cases hc : c = '\\'
    · rw [hc]
      exact iff_of_false (by decide) IsSpelling.not_backslash
    · rw [IsSpelling.cons_iff hc]
      simp [IsSpelling.nil]
  | case3 next rest ih =>
    unfold isEscaped
    rw [if_pos rfl, Bool.and_eq_true, ih, IsSpelling.backslash_iff]
  | case4 c next rest hc ih =>
    unfold isEscaped
    rw [if_neg hc, Bool.and_eq_true, ih, IsSpelling.cons_iff hc]
    simp

theorem isModuleName_iff {name : String} : isModuleName name = true ↔ IsModuleName name := by
  unfold isModuleName
  rw [Bool.and_eq_true, isEscaped_iff, Bool.not_eq_true', List.isEmpty_eq_false_iff, ne_eq,
    String.toList_eq_nil_iff]
  exact ⟨fun h => ⟨h.1, h.2⟩, fun h => ⟨h.ne_empty, h.spelling⟩⟩

/-! ## Binary names -/

/-- A binary name is made up of segments with dots between them. -/
def IsBinaryName (name : String) : Prop :=
  IsJoined "." name

theorem segments_of_not_dot {piece : List Char} (h : '.' ∉ piece) : segments piece = [piece] := by
  induction piece with
  | nil => rfl
  | cons c piece ih =>
    rw [List.mem_cons, not_or] at h
    obtain ⟨first, others, hsegments, hcons⟩ := segments_cons c piece
    rw [ih h.2] at hsegments
    cases hsegments
    rw [hcons, if_neg (Ne.symm h.1)]

theorem segments_append_dot {piece : List Char} (h : '.' ∉ piece) (rest : List Char) :
    segments (piece ++ '.' :: rest) = piece :: segments rest := by
  induction piece with
  | nil =>
    obtain ⟨first, others, hsegments, hcons⟩ := segments_cons '.' rest
    rw [List.nil_append, hcons, if_pos rfl, hsegments]
  | cons c piece ih =>
    rw [List.mem_cons, not_or] at h
    obtain ⟨first, others, hsegments, hcons⟩ := segments_cons c (piece ++ '.' :: rest)
    rw [ih h.2] at hsegments
    cases hsegments
    rw [List.cons_append, hcons, if_neg (Ne.symm h.1)]

/-- The segments of joined pieces are those pieces. -/
theorem segments_intercalate {pieces : List (List Char)} (hne : pieces ≠ [])
    (h : ∀ piece ∈ pieces, '.' ∉ piece) : segments (['.'].intercalate pieces) = pieces := by
  induction pieces with
  | nil => exact absurd rfl hne
  | cons piece pieces ih =>
    rw [List.forall_mem_cons] at h
    cases pieces with
    | nil =>
      rw [show ['.'].intercalate [piece] = piece by simp [List.intercalate]]
      exact segments_of_not_dot h.1
    | cons next others =>
      have hjoin : ['.'].intercalate (piece :: next :: others) =
          piece ++ '.' :: ['.'].intercalate (next :: others) := rfl
      rw [hjoin, segments_append_dot h.1, ih (List.cons_ne_nil _ _) h.2]

theorem isBinaryName_iff {name : String} : isBinaryName name = true ↔ IsBinaryName name := by
  constructor
  · intro h
    have hself : InternalName.replace '.' '.' name = name := by
      rw [← String.toList_inj, InternalName.toList_replace]
      exact List.map_id'' (fun c => by by_cases hc : c = '.' <;> simp [hc]) _
    have hjoined := isJoined_replace h '.'
    rwa [hself] at hjoined
  · rintro ⟨pieces, hpieces, rfl⟩
    have hdot (piece : String) (hpiece : piece ∈ pieces) : '.' ∉ piece.toList :=
      fun hmem => (hpieces.isSegment piece hpiece).good '.' hmem (by simp)
    have hne : pieces.map String.toList ≠ [] := by
      rw [ne_eq, List.map_eq_nil_iff]
      exact hpieces.ne_nil
    unfold isBinaryName
    rw [String.toList_intercalate, show ".".toList = ['.'] from rfl,
      segments_intercalate hne (List.forall_mem_map.2 hdot), List.all_eq_true, List.forall_mem_map]
    exact fun piece hpiece => (isSegment_iff (hdot piece hpiece)).2 (hpieces.isSegment piece hpiece)

instance (name : String) : Decidable (IsModuleName name) :=
  decidable_of_iff _ isModuleName_iff

instance (name : String) : Decidable (IsBinaryName name) :=
  decidable_of_iff _ isBinaryName_iff

end Name
end ModuleRecord
