import ModuleRecord.Proofs.Archive.EntryNames

/-!
# The entry that is selected

A scan overwrites its selection, and turns a flag on with the first root record. What comes of it
can be said without a scan: the last root record is selected, or the last record under a version if
there is no root record (`select_eq`). At each point of the scan the selection is the entry that has
taken it over last (`select_take_eq`), and entries that are no records do not count
(`select_filter`).
-/

namespace ModuleRecord
namespace Archive

/-! ## Kinds of entries -/

/-- The name is one of a record at the root. -/
def IsRoot (name : String) : Prop :=
  name = "module-info.class" ∨ name = "classes/module-info.class"

/-- The name is one of a record under a version, whatever the version is. -/
def IsVersioned (name : String) : Prop :=
  ∃ version, IsNameOf (.versioned version) name

/-- The name is one of a record. -/
def IsCandidate (name : String) : Prop :=
  IsRoot name ∨ IsVersioned name

theorem isRoot_iff {name : String} : IsRoot name ↔ classify name = some .root :=
  isNameOf_root_iff.symm.trans classify_eq_some_iff.symm

theorem isVersioned_iff {name : String} :
    IsVersioned name ↔ ∃ version, classify name = some (.versioned version) :=
  exists_congr fun _ => classify_eq_some_iff.symm

theorem not_isCandidate_iff {name : String} : ¬ IsCandidate name ↔ classify name = none := by
  unfold IsCandidate
  rw [isRoot_iff, isVersioned_iff]
  rcases classify name with _ | (_ | version) <;> simp

instance : DecidablePred IsRoot := fun name =>
  inferInstanceAs (Decidable (name = "module-info.class" ∨ name = "classes/module-info.class"))

instance : DecidablePred IsVersioned := fun name =>
  decidable_of_iff (classify name ≠ none ∧ classify name ≠ some .root) <| by
    rw [isVersioned_iff]
    rcases classify name with _ | (_ | version) <;> simp

instance : DecidablePred IsCandidate := fun name =>
  inferInstanceAs (Decidable (IsRoot name ∨ IsVersioned name))

/-! ## One step -/

namespace Locator

/-- A root record takes the selection over, and one under a version does unless a root record has
been met. Root records are all that is remembered. -/
theorem offer_eq (locator : Locator) (name : String) :
    locator.offer name =
      (decide (IsRoot name ∨ IsVersioned name ∧ locator.hasRoot = false),
        ⟨locator.hasRoot || decide (IsRoot name)⟩) := by
  have hroot : IsRoot name ↔ classify name = some .root := isRoot_iff
  have hversioned : IsVersioned name ↔ ∃ version, classify name = some (.versioned version) :=
    isVersioned_iff
  unfold offer
  rcases hkind : classify name with _ | (_ | version)
  all_goals simp [hroot, hversioned, hkind]

/-- The answers of a scan are put on top of those that there are already, the latest first. -/
theorem reverse_foldl_offer (answers : List Bool) (locator : Locator) (names : List String) :
    (names.foldl
      (fun (state : List Bool × Locator) name =>
        let (isTaken, next) := state.2.offer name
        (isTaken :: state.1, next))
      (answers, locator)).1.reverse = answers.reverse ++ locator.offers names := by
  induction names generalizing answers locator with
  | nil => simp [offers]
  | cons name rest ih =>
    unfold offers
    rw [List.foldl_cons, List.foldl_cons]
    dsimp only
    rw [ih, ih]
    simp

theorem offers_cons (locator : Locator) (name : String) (rest : List String) :
    locator.offers (name :: rest) = (locator.offer name).1 :: (locator.offer name).2.offers rest :=
  reverse_foldl_offer [(locator.offer name).1] (locator.offer name).2 rest

/-- What is offered later does not change what has been answered before. -/
theorem offers_take (locator : Locator) (names : List String) (k : Nat) :
    locator.offers (names.take k) = (locator.offers names).take k := by
  induction names generalizing locator k with
  | nil => simp [offers]
  | cons name rest ih =>
    cases k with
    | zero => simp [offers]
    | succ k => rw [List.take_succ_cons, offers_cons, offers_cons, List.take_succ_cons, ih]

end Locator

/-! ## Scans -/

section Scans
variable {α β : Type}

/-- The last of the entries of which a condition holds. -/
def lastWhere (p : α → Prop) [DecidablePred p] (entries : List α) : Option α :=
  (entries.filter p).getLast?

theorem lastWhere_cons (p : α → Prop) [DecidablePred p] (entry : α) (rest : List α) :
    lastWhere p (entry :: rest) = (lastWhere p rest).or (if p entry then some entry else none) := by
  unfold lastWhere
  by_cases h : p entry
  · rw [if_pos h, List.filter_cons_of_pos (by simpa using h), List.getLast?_cons]
    cases (rest.filter p).getLast? <;> rfl
  · rw [if_neg h, List.filter_cons_of_neg (by simpa using h), Option.or_none]

theorem lastWhere_map (f : α → β) (p : β → Prop) [DecidablePred p] (entries : List α) :
    lastWhere p (entries.map f) = (lastWhere (fun entry => p (f entry)) entries).map f := by
  unfold lastWhere
  rw [List.filter_map, List.getLast?_map]
  rfl

theorem lastWhere_eq_none_iff {p : α → Prop} [DecidablePred p] {entries : List α} :
    lastWhere p entries = none ↔ ∀ entry ∈ entries, ¬ p entry := by
  simp [lastWhere]

theorem mem_of_lastWhere {p : α → Prop} [DecidablePred p] {entries : List α} {entry : α}
    (h : lastWhere p entries = some entry) : entry ∈ entries :=
  List.mem_of_mem_filter (List.mem_of_getLast? h)

/-- A condition picks its last entry out of what is left by a weaker one. -/
theorem lastWhere_filter {p q : α → Prop} [DecidablePred p] [DecidablePred q]
    (h : ∀ entry, p entry → q entry) (entries : List α) :
    lastWhere p (entries.filter q) = lastWhere p entries := by
  unfold lastWhere
  rw [List.filter_filter]
  congr 1
  refine List.filter_congr fun entry _ => ?_
  by_cases hp : p entry
  · simp [hp, h entry hp]
  · simp [hp]

/-- The selection after the rest of a row of entries, where an earlier one may be selected. -/
def selectFrom (name : α → String) (locator : Locator) (selected : Option α) : List α → Option α
  | [] => selected
  | entry :: rest =>
    let (isTaken, next) := locator.offer (name entry)
    selectFrom name next (if isTaken then some entry else selected) rest

theorem select_eq_selectFrom (name : α → String) (entries : List α) :
    select name entries = selectFrom name .start none entries := by
  unfold select
  generalize Locator.start = locator
  generalize (none : Option α) = selected
  induction entries generalizing locator selected with
  | nil => rfl
  | cons entry rest ih =>
    rw [List.foldl_cons]
    exact ih _ _

/-- The rest of a scan: the last root record in it is selected, and failing that the last record
under a version unless a root record has been met before. -/
theorem selectFrom_eq (name : α → String) (locator : Locator) (selected : Option α)
    (entries : List α) :
    selectFrom name locator selected entries =
      (lastWhere (fun entry => IsRoot (name entry)) entries).or
        (if locator.hasRoot then selected
          else (lastWhere (fun entry => IsVersioned (name entry)) entries).or selected) := by
  induction entries generalizing locator selected with
  | nil => simp [selectFrom, lastWhere]
  | cons entry rest ih =>
    rw [lastWhere_cons, lastWhere_cons]
    simp only [selectFrom, Locator.offer_eq, ih]
    by_cases hroot : IsRoot (name entry)
    · simp [hroot]
    · by_cases hversioned : IsVersioned (name entry)
      · cases hmet : locator.hasRoot <;> simp [hroot, hversioned]
      · simp [hroot, hversioned]

/-- The rest of a scan: the entry that has taken the selection over last is selected. -/
theorem selectFrom_eq_lastTaken (name : α → String) (locator : Locator) (selected : Option α)
    (entries : List α) :
    selectFrom name locator selected entries =
      ((lastWhere (fun row => row.2 = true) (entries.zip (locator.offers (entries.map name)))).map
        Prod.fst).or selected := by
  induction entries generalizing locator selected with
  | nil => simp [selectFrom, lastWhere]
  | cons entry rest ih =>
    rw [List.map_cons, Locator.offers_cons, List.zip_cons_cons, lastWhere_cons, Option.map_or,
      Option.or_assoc]
    simp only [selectFrom, ih]
    cases (locator.offer (name entry)).1 <;> rfl

/-! ## Whole rows -/

/-- The last root record is selected, or the last record under a version if there is no root
record. -/
theorem select_eq (name : α → String) (entries : List α) :
    select name entries =
      (lastWhere (fun entry => IsRoot (name entry)) entries).or
        (lastWhere (fun entry => IsVersioned (name entry)) entries) := by
  rw [select_eq_selectFrom, selectFrom_eq]
  simp [Locator.start]

/-- At each point of a scan, the entry that has taken the selection over last is selected. -/
theorem select_take_eq (name : α → String) (entries : List α) (k : Nat) :
    select name (entries.take k) =
      (lastWhere (fun row => row.2 = true)
        ((entries.zip (Locator.start.offers (entries.map name))).take k)).map Prod.fst := by
  rw [select_eq_selectFrom, selectFrom_eq_lastTaken, Option.or_none, List.map_take,
    Locator.offers_take, List.zip_eq_zipWith, List.zip_eq_zipWith, List.take_zipWith]

/-- What is selected among the images of entries is the image of what is selected among these. -/
theorem select_map (f : α → β) (name : β → String) (entries : List α) :
    select name (entries.map f) = (select (fun entry => name (f entry)) entries).map f := by
  rw [select_eq, select_eq, lastWhere_map, lastWhere_map, Option.map_or]

theorem mem_of_select {name : α → String} {entries : List α} {entry : α}
    (h : select name entries = some entry) : entry ∈ entries := by
  rw [select_eq, Option.or_eq_some_iff] at h
  rcases h with h | ⟨-, h⟩
  · exact mem_of_lastWhere h
  · exact mem_of_lastWhere h

/-- Nothing is selected exactly where no entry is a candidate. -/
theorem select_eq_none_iff {name : α → String} {entries : List α} :
    select name entries = none ↔ ∀ entry ∈ entries, classify (name entry) = none := by
  rw [select_eq, Option.or_eq_none_iff, lastWhere_eq_none_iff, lastWhere_eq_none_iff]
  simp only [← not_isCandidate_iff, IsCandidate, not_or]
  exact forall₂_and.symm

/-- Entries that are no records may be left out. -/
theorem select_filter (name : α → String) (entries : List α) :
    select name (entries.filter fun entry => IsCandidate (name entry)) = select name entries := by
  have hroot (entry : α) : IsRoot (name entry) → IsCandidate (name entry) := Or.inl
  have hversioned (entry : α) : IsVersioned (name entry) → IsCandidate (name entry) := Or.inr
  rw [select_eq, select_eq, lastWhere_filter hroot, lastWhere_filter hversioned]

/-- The last root record of a row of entries is selected, and failing that the last record under a
version, whatever the version is. At each point of the scan that is the entry that has taken the
selection over last. Entries that are no records may be put in and left out anywhere. -/
theorem select_outcome (name : α → String) (entries : List α) :
    select name entries =
        (lastWhere (fun entry => IsRoot (name entry)) entries).or
          (lastWhere (fun entry => IsVersioned (name entry)) entries) ∧
      (∀ k, select name (entries.take k) =
        (lastWhere (fun row => row.2 = true)
          ((entries.zip (Locator.start.offers (entries.map name))).take k)).map Prod.fst) ∧
      ∀ others : List α,
        (others.filter fun entry => IsCandidate (name entry)) =
          (entries.filter fun entry => IsCandidate (name entry)) →
        select name others = select name entries := by
  refine ⟨select_eq name entries, select_take_eq name entries, fun others hothers => ?_⟩
  rw [← select_filter name others, hothers, select_filter]

end Scans

/-- A root record between two records under versions, and a text. -/
def mixedNames : List String :=
  ["META-INF/versions/9/module-info.class", "classes/module-info.class", "notes.txt",
    "META-INF/versions/11/module-info.class"]

/-- The same records with other texts around them. -/
def mixedNamesMoved : List String :=
  ["lib/module-info.class", "META-INF/versions/9/module-info.class", "classes/module-info.class",
    "META-INF/versions/11/module-info.class", "META-INF/versions/x/module-info.class"]

/-- The root record is selected in both. -/
theorem mixedNames_select_outcome :
    (mixedNamesMoved.filter fun name => IsCandidate (id name)) =
        (mixedNames.filter fun name => IsCandidate (id name)) ∧
      select id mixedNamesMoved = some "classes/module-info.class" := by
  have hsame : (mixedNamesMoved.filter fun name => IsCandidate (id name)) =
      (mixedNames.filter fun name => IsCandidate (id name)) := by decide
  obtain ⟨hselect, -, hmoved⟩ := select_outcome id mixedNames
  refine ⟨hsame, ?_⟩
  rw [hmoved mixedNamesMoved hsame, hselect]
  decide

end Archive
end ModuleRecord
