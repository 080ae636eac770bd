import ModuleRecord.Descriptor.Name
import ModuleRecord.Proofs.ClassFile.ConstantPool.InternalName

/-!
# What names hold

No name of either kind is empty. A binary name has no slash, since each of its characters other than
the dots stands in a segment, so it is read back as it is (`IsReadable`). Its internal form is made
up of its segments with slashes between them (`InternalName.isWellFormed_ofDotted`).
-/

namespace ModuleRecord
namespace Name

theorem ne_empty_of_isModuleName {name : String} (h : isModuleName name = true) : name ≠ "" := by
  rintro rfl
  exact absurd h (by decide)

theorem ne_empty_of_isBinaryName {name : String} (h : isBinaryName name = true) : name ≠ "" := by
  rintro rfl
  exact absurd h (by decide)

/-! ## Segments -/

/-- A dot begins a segment, and any other character goes into the first one. -/
theorem segments_cons (c : Char) (rest : List Char) :
    ∃ piece pieces, segments rest = piece :: pieces ∧
      segments (c :: rest) = if c = '.' then [] :: piece :: pieces else (c :: piece) :: pieces := by
  have hne : ∃ piece pieces, segments rest = piece :: pieces := by
    induction rest with
    | nil => exact ⟨[], [], rfl⟩
    | cons first rest ih =>
      obtain ⟨piece, pieces, hrest⟩ := ih
      unfold segments at hrest ⊢
      rw [List.foldr_cons, hrest]
      by_cases hdot : first = '.'
      · exact ⟨_, _, if_pos hdot⟩
      · exact ⟨_, _, if_neg hdot⟩
  obtain ⟨piece, pieces, hrest⟩ := hne
  refine ⟨piece, pieces, hrest, ?_⟩
  unfold segments at hrest ⊢
  rw [List.foldr_cons, hrest]

/-- Each character other than a dot stands in a segment. -/
theorem exists_mem_segments {chars : List Char} {c : Char} (h : c ∈ chars) (hdot : c ≠ '.') :
    ∃ segment ∈ segments chars, c ∈ segment := by
  induction chars with
  | nil => exact absurd h (by simp)
  | cons first rest ih =>
    obtain ⟨piece, pieces, hrest, hcons⟩ := segments_cons first rest
    rw [hcons]
    rw [hrest] at ih
    by_cases hfirst : first = '.'
    · rw [if_pos hfirst]
      rcases List.mem_cons.1 h with rfl | h
      · exact absurd hfirst hdot
      · obtain ⟨segment, hsegment, hc⟩ := ih h
        exact ⟨segment, List.mem_cons_of_mem _ hsegment, hc⟩
    · rw [if_neg hfirst]
      rcases List.mem_cons.1 h with rfl | h
      · exact ⟨c :: piece, by simp, by simp⟩
      · obtain ⟨segment, hsegment, hc⟩ := ih h
        rcases List.mem_cons.1 hsegment with rfl | hsegment
        · exact ⟨first :: segment, by simp, List.mem_cons_of_mem _ hc⟩
        · exact ⟨segment, List.mem_cons_of_mem _ hsegment, hc⟩

theorem dot_notMem_of_mem_segments {chars segment : List Char} (h : segment ∈ segments chars) :
    '.' ∉ segment := by
  induction chars generalizing segment with
  | nil =>
    rw [List.mem_singleton.1 h]
    exact List.not_mem_nil
  | cons first rest ih =>
    obtain ⟨piece, pieces, hrest, hcons⟩ := segments_cons first rest
    rw [hrest, List.forall_mem_cons] at ih
    obtain ⟨hpiece, hpieces⟩ := ih
    rw [hcons] at h
    by_cases hfirst : first = '.'
    · rw [if_pos hfirst] at h
      simp only [List.mem_cons] at h
      rcases h with rfl | rfl | h
      · exact List.not_mem_nil
      · exact hpiece
      · exact hpieces _ h
    · rw [if_neg hfirst] at h
      rcases List.mem_cons.1 h with rfl | h
      · exact fun hmem => (List.mem_cons.1 hmem).elim (fun heq => hfirst heq.symm) hpiece
      · exact hpieces _ h

/-- With a separator between them, the segments make up the text with its dots replaced. -/
theorem intercalate_segments (separator : Char) (chars : List Char) :
    [separator].intercalate (segments chars) =
      chars.map fun c => if c = '.' then separator else c := by
  induction chars with
  | nil => rfl
  | cons first rest ih =>
    obtain ⟨piece, pieces, hrest, hcons⟩ := segments_cons first rest
    rw [hrest] at ih
    rw [hcons, List.map_cons, ← ih]
    by_cases hfirst : first = '.'
    · rw [if_pos hfirst, if_pos hfirst]
      rfl
    · rw [if_neg hfirst, if_neg hfirst]
      cases pieces <;> rfl

theorem segments_ne_nil (chars : List Char) : segments chars ≠ [] := by
  obtain ⟨piece, pieces, hsegments, -⟩ := segments_cons '.' chars
  rw [hsegments]
  exact List.cons_ne_nil _ _

/-! ## Joins -/

/-- A segment of a name is not empty, and holds no slash, dot, semicolon or bracket. -/
structure IsSegment (piece : String) : Prop where
  ne_empty : piece ≠ ""
  good : ∀ c ∈ piece.toList, c ∉ ['/', '.', ';', '[']

/-- The segments of a name, of which there is one at least. -/
structure AreSegments (pieces : List String) : Prop where
  ne_nil : pieces ≠ []
  isSegment : ∀ piece ∈ pieces, IsSegment piece

/-- The text is made up of segments with the separator between them. -/
def IsJoined (separator text : String) : Prop :=
  ∃ pieces, AreSegments pieces ∧ separator.intercalate pieces = text

theorem isSegment_iff {piece : String} (hdot : '.' ∉ piece.toList) :
    isSegment piece.toList = true ↔ IsSegment piece := by
  have hchars : (∀ c ∈ piece.toList, (c ≠ '/' ∧ c ≠ ';') ∧ c ≠ '[') ↔
      ∀ c ∈ piece.toList, c ∉ ['/', '.', ';', '['] := by
    refine forall₂_congr fun c hc => ?_
    have hne : c ≠ '.' := fun heq => hdot (heq ▸ hc)
    simp [hne, and_assoc]
  unfold isSegment
  simp only [Bool.and_eq_true, Bool.not_eq_true', List.isEmpty_eq_false_iff, List.all_eq_true,
    bne_iff_ne, hchars, ne_eq, String.toList_eq_nil_iff]
  exact ⟨fun h => ⟨h.1, h.2⟩, fun h => ⟨h.ne_empty, h.good⟩⟩

theorem areSegments_of_isBinaryName {name : String} (h : isBinaryName name = true) :
    AreSegments ((segments name.toList).map String.ofList) := by
  refine ⟨?_, ?_⟩
  · rw [ne_eq, List.map_eq_nil_iff]
    exact segments_ne_nil _
  · rw [List.forall_mem_map]
    intro piece hpiece
    have hdot : '.' ∉ (String.ofList piece).toList := by
      rw [String.toList_ofList]
      exact dot_notMem_of_mem_segments hpiece
    rw [← isSegment_iff hdot, String.toList_ofList]
    exact List.all_eq_true.1 h piece hpiece

/-- A binary name whose dots are replaced is made up of the same segments. -/
theorem isJoined_replace {name : String} (h : isBinaryName name = true) (separator : Char) :
    IsJoined (String.ofList [separator]) (InternalName.replace '.' separator name) := by
  have htoList : ((segments name.toList).map String.ofList).map String.toList =
      segments name.toList := by
    simp [Function.comp_def]
  refine ⟨_, areSegments_of_isBinaryName h, ?_⟩
  rw [← String.toList_inj, String.toList_intercalate, htoList, String.toList_ofList,
    intercalate_segments, InternalName.toList_replace]

/-! ## Readable names -/

theorem not_slash_of_isBinaryName {name : String} (h : isBinaryName name = true) :
    '/' ∉ name.toList := by
  intro hslash
  obtain ⟨segment, hsegment, hmem⟩ := exists_mem_segments hslash (by decide)
  have hgood := List.all_eq_true.1 h segment hsegment
  unfold isSegment at hgood
  rw [Bool.and_eq_true, List.all_eq_true] at hgood
  have hbad := hgood.2 _ hmem
  exact absurd hbad (by decide)

/-- A name that a class or package is read back by: it is not empty, and has no slash that would be
taken for a dot. -/
structure IsReadable (name : String) : Prop where
  ne_empty : name ≠ ""
  not_slash : '/' ∉ name.toList

theorem isReadable_of_isBinaryName {name : String} (h : isBinaryName name = true) :
    IsReadable name :=
  ⟨ne_empty_of_isBinaryName h, not_slash_of_isBinaryName h⟩

end Name

/-! ## Internal names -/

/-- The internal form of a class or package name: segments with slashes between them. -/
def InternalName.IsWellFormed (name : String) : Prop :=
  Name.IsJoined "/" name

theorem InternalName.isWellFormed_ofDotted {name : String} (h : Name.isBinaryName name = true) :
    IsWellFormed (ofDotted name) :=
  Name.isJoined_replace h '/'

end ModuleRecord
