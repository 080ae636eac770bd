import Mathlib.Data.List.Nodup
import ModuleRecord.Archive.Reading
import ModuleRecord.Proofs.Archive.Selection

/-!
# Streams and containers

A stream of entries is read while it passes, a container after its names have been listed, and yet
both give the same answer (`readDescriptor_eq_readEntries`): what the stream keeps as pending is
what is selected among the names. Entries whose readers record that they were called show that the
selected entry is read once and no other one is read at all (`readers_agree`).
-/

namespace ModuleRecord
namespace Archive

/-! ## Readers -/

section Readers
variable {m : Type → Type} [Monad m] {ε : Type}

/-- A stream is read like one that has ended with its selection pending. -/
theorem readStream_eq (locator : Locator) (pending : Option (String × m (Except ε Bytes)))
    (entries : List (String × m (Except ε Bytes))) :
    readStream locator pending entries =
      readStream locator (selectFrom Prod.fst locator pending entries) [] := by
  induction entries generalizing locator pending with
  | nil => rfl
  | cons entry rest ih =>
    simp only [readStream, selectFrom]
    rw [ih]
    rfl

/-- A stream is read by the reader of the entry that is selected from the whole of it. -/
theorem readEntries_eq (entries : List (String × m (Except ε Bytes))) :
    readEntries entries =
      match select Prod.fst entries with
      | none => pure (.ok none)
      | some (name, read) => Answer.ofEntry name <$> read := by
  unfold readEntries
  rw [readStream_eq, ← select_eq_selectFrom]
  rfl

/-- A container is read like the stream of its names with their readers. -/
theorem readDescriptor_eq_readEntries (container : Container m ε) :
    container.readDescriptor =
      readEntries (container.names.map fun name => (name, container.read name)) := by
  let entry (name : String) := (name, container.read name)
  have hselect : select Prod.fst (container.names.map entry) =
      (select id container.names).map entry :=
    select_map entry Prod.fst container.names
  rw [readEntries_eq, hselect]
  unfold Container.readDescriptor
  cases select id container.names with
  | none => rfl
  | some name => rfl

end Readers

/-! ## Requests -/

/-- A computation that records the names of the entries that it requests, the latest last. -/
abbrev Recorded := StateM (List String)

variable {ε : Type}

/-- Answers a request for an entry with the outcome of reading it, and records its name. -/
def request (entry : String × Except ε Bytes) : Recorded (Except ε Bytes) := fun requested =>
  (entry.2, requested ++ [entry.1])

/-- An entry of a stream whose reader records that it is called. -/
def recorded (entry : String × Except ε Bytes) : String × Recorded (Except ε Bytes) :=
  (entry.1, request entry)

/-- The container lists these entries in their order, and answers the name of each with its
outcome. -/
structure Container.Holds (container : Container Recorded ε)
    (entries : List (String × Except ε Bytes)) : Prop where
  names : container.names = entries.map Prod.fst
  read : ∀ entry ∈ entries, container.read entry.1 = request entry

/-- The answer is that of the selected entry, which is requested once, and no other one is. -/
structure ReadsSelected (entries : List (String × Except ε Bytes))
    (reading : Recorded (Answer ε)) : Prop where
  /-- There is no descriptor exactly where there is no candidate. -/
  ok_none_iff : ∀ requested, (reading requested).1 = .ok none ↔
    ∀ entry ∈ entries, classify entry.1 = none
  /-- Without a selection, nothing is requested. -/
  unselected : select id (entries.map Prod.fst) = none →
    ∀ requested, reading requested = (.ok none, requested)
  /-- What is selected is an entry. -/
  selected : ∀ name, select id (entries.map Prod.fst) = some name →
    ∃ outcome, (name, outcome) ∈ entries
  /-- A failure is passed on with the name of the entry. -/
  unreadable : ∀ name cause, select id (entries.map Prod.fst) = some name →
    (name, .error cause) ∈ entries →
    ∀ requested, reading requested = (.error (.unreadable name cause), requested ++ [name])
  /-- Bytes are decoded. -/
  decoded : ∀ name bytes, select id (entries.map Prod.fst) = some name →
    (name, .ok bytes) ∈ entries →
    ∀ requested, reading requested =
      ((some <$> Descriptor.decode bytes).mapError .descriptor, requested ++ [name])

/-- Entries with distinct names can be held by a container. -/
theorem exists_holds {entries : List (String × Except ε Bytes)}
    (hdistinct : (entries.map Prod.fst).Nodup) :
    ∃ container : Container Recorded ε, container.Holds entries := by
  refine ⟨⟨entries.map Prod.fst, fun name =>
    match entries.find? fun entry => entry.1 = name with
    | some entry => request entry
    | none => pure (.ok [])⟩, rfl, ?_⟩
  intro entry hentry
  dsimp only
  cases hfind : entries.find? fun other => other.1 = entry.1 with
  | none => simpa using List.find?_eq_none.1 hfind entry hentry
  | some found =>
    have hname : found.1 = entry.1 := by simpa using List.find?_some hfind
    have hfound := List.inj_on_of_nodup_map hdistinct (List.mem_of_find?_eq_some hfind) hentry hname
    rw [hfound]

/-- A container is read like the stream of what it holds. -/
theorem Container.Holds.readDescriptor_eq {container : Container Recorded ε}
    {entries : List (String × Except ε Bytes)} (h : container.Holds entries) :
    container.readDescriptor = readEntries (entries.map recorded) := by
  rw [readDescriptor_eq_readEntries, h.names, List.map_map]
  refine congrArg readEntries (List.map_congr_left fun entry hentry => ?_)
  simp only [Function.comp_apply, h.read entry hentry, recorded]

/-- A stream of recorded entries requests the selected one and no other. -/
theorem readEntries_recorded (entries : List (String × Except ε Bytes)) (requested : List String) :
    readEntries (entries.map recorded) requested =
      match select Prod.fst entries with
      | none => (.ok none, requested)
      | some entry => (Answer.ofEntry entry.1 entry.2, requested ++ [entry.1]) := by
  have hselect : select Prod.fst (entries.map recorded) = (select Prod.fst entries).map recorded :=
    select_map recorded Prod.fst entries
  rw [readEntries_eq, hselect]
  cases select Prod.fst entries with
  | none => rfl
  | some entry => rfl

theorem Answer.ofEntry_ne_none (name : String) (outcome : Except ε Bytes) :
    Answer.ofEntry name outcome ≠ .ok none := by
  cases outcome with
  | error cause => simp [Answer.ofEntry]
  | ok bytes =>
    simp only [Answer.ofEntry]
    split <;> simp

theorem Answer.ofEntry_ok (name : String) (bytes : Bytes) :
    (Answer.ofEntry name (.ok bytes) : Answer ε) =
      (some <$> Descriptor.decode bytes).mapError .descriptor := by
  simp only [Answer.ofEntry]
  cases Descriptor.decode bytes <;> rfl

theorem readsSelected_readEntries {entries : List (String × Except ε Bytes)}
    (hdistinct : (entries.map Prod.fst).Nodup) :
    ReadsSelected entries (readEntries (entries.map recorded)) := by
  have hnames : select id (entries.map Prod.fst) = (select Prod.fst entries).map Prod.fst :=
    select_map Prod.fst id entries
  have hread := readEntries_recorded entries
  cases hselect : select Prod.fst entries with
  | none =>
    rw [hselect] at hnames hread
    have hnone := select_eq_none_iff.1 hselect
    have hnot (name : String) : select id (entries.map Prod.fst) ≠ some name := by
      simp [hnames]
    refine ⟨fun requested => ?_, fun _ => hread, ?_, ?_, ?_⟩
    · rw [hread]
      exact iff_of_true rfl hnone
    · exact fun name hname => absurd hname (hnot name)
    · exact fun name _ hname => absurd hname (hnot name)
    · exact fun name _ hname => absurd hname (hnot name)
  | some entry =>
    rw [hselect] at hnames hread
    have hentry := mem_of_select hselect
    have hcandidate : ¬ ∀ other ∈ entries, classify other.1 = none := fun hnone =>
      absurd (select_eq_none_iff.2 hnone) (by simp [hselect])
    -- with distinct names, the selected name is that of one entry only
    have hunique (name : String) (outcome : Except ε Bytes)
        (hname : select id (entries.map Prod.fst) = some name) (hmem : (name, outcome) ∈ entries) :
        entry = (name, outcome) := by
      refine List.inj_on_of_nodup_map hdistinct hentry hmem ?_
      simpa [hnames] using hname
    refine ⟨fun requested => ?_, ?_, ?_, ?_, ?_⟩
    · rw [hread]
      exact iff_of_false (Answer.ofEntry_ne_none _ _) hcandidate
    · simp [hnames]
    · intro name hname
      refine ⟨entry.2, ?_⟩
      simp only [hnames, Option.map_some, Option.some.injEq] at hname
      rwa [← hname]
    · intro name cause hname hmem requested
      rw [hread, hunique name _ hname hmem]
      rfl
    · intro name bytes hname hmem requested
      rw [hread, hunique name _ hname hmem]
      exact congrArg (·, requested ++ [name]) (Answer.ofEntry_ok name bytes)

/-- What is read depends on the names and on the outcome of the selected entry alone. -/
theorem ReadsSelected.congr {entries others : List (String × Except ε Bytes)}
    {reading reading' : Recorded (Answer ε)} (h : ReadsSelected entries reading)
    (h' : ReadsSelected others reading') (hnames : others.map Prod.fst = entries.map Prod.fst)
    (hkeeps : ∀ entry ∈ entries, select id (entries.map Prod.fst) = some entry.1 → entry ∈ others) :
    reading' = reading := by
  funext requested
  cases hselect : select id (entries.map Prod.fst) with
  | none => rw [h.unselected hselect, h'.unselected (by rw [hnames, hselect])]
  | some name =>
    obtain ⟨outcome, hmem⟩ := h.selected name hselect
    have hmem' := hkeeps _ hmem hselect
    have hselect' : select id (others.map Prod.fst) = some name := by rw [hnames, hselect]
    cases outcome with
    | error cause =>
      rw [h.unreadable name cause hselect hmem, h'.unreadable name cause hselect' hmem']
    | ok bytes => rw [h.decoded name bytes hselect hmem, h'.decoded name bytes hselect' hmem']

/-- Entries with distinct names give the same answer as a stream and from any container that holds
them: that of the selected entry, which is the only one to be requested, so that the contents of the
others do not matter. -/
theorem readers_agree {entries : List (String × Except ε Bytes)}
    (hdistinct : (entries.map Prod.fst).Nodup) :
    (∃ container : Container Recorded ε, container.Holds entries) ∧
      (∀ container : Container Recorded ε, container.Holds entries →
        container.readDescriptor = readEntries (entries.map recorded)) ∧
      ReadsSelected entries (readEntries (entries.map recorded)) ∧
      ∀ others : List (String × Except ε Bytes), others.map Prod.fst = entries.map Prod.fst →
        (∀ entry ∈ entries, select id (entries.map Prod.fst) = some entry.1 → entry ∈ others) →
        readEntries (others.map recorded) = readEntries (entries.map recorded) := by
  have hreads := readsSelected_readEntries hdistinct
  refine ⟨exists_holds hdistinct, fun _ hholds => hholds.readDescriptor_eq, hreads, ?_⟩
  intro others hnames hkeeps
  rw [← hnames] at hdistinct
  exact hreads.congr (readsSelected_readEntries hdistinct) hnames hkeeps

/-- A versioned record, an unreadable root record after it, and a text. -/
def rootAfterVersioned : List (String × Except Nat Bytes) :=
  [("META-INF/versions/9/module-info.class", .ok [0xCA]), ("classes/module-info.class", .error 5),
    ("notes.txt", .ok [])]

/-- The root record is selected and requested, and its failure is passed on. -/
theorem rootAfterVersioned_readers_agree :
    (rootAfterVersioned.map Prod.fst).Nodup ∧
      ∃ container : Container Recorded Nat, container.Holds rootAfterVersioned ∧
        container.readDescriptor [] =
          (.error (.unreadable "classes/module-info.class" 5), ["classes/module-info.class"]) := by
  have hdistinct : (rootAfterVersioned.map Prod.fst).Nodup := by decide
  obtain ⟨⟨container, hholds⟩, hagree, hreads, -⟩ := readers_agree hdistinct
  have hselect : select id (rootAfterVersioned.map Prod.fst) =
      some "classes/module-info.class" := by
    decide
  refine ⟨hdistinct, container, hholds, ?_⟩
  rw [hagree container hholds]
  exact hreads.unreadable _ _ hselect (by simp [rootAfterVersioned]) []

end Archive
end ModuleRecord
