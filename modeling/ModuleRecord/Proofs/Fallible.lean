import Mathlib.Data.List.Forall2

/-!
# Computations that may fail

When a sequence of computations succeeds: each of them does, in turn. A computation that gives all
that another one gives does so in sequences as well (`Below`). The fault of a sequence is the first
one among all that is looked at on the way (`FailsFirst`).
-/

namespace ModuleRecord
namespace Fallible

variable {ε α β : Type}

theorem bind_eq_ok_iff {first : Except ε α} {next : α → Except ε β} {value : β} :
    (first >>= next) = .ok value ↔ ∃ middle, first = .ok middle ∧ next middle = .ok value := by
  cases first with
  | error fault =>
    constructor
    · intro h
      exact absurd h (by simp [bind, Except.bind])
    · rintro ⟨_, h, _⟩
      exact absurd h (by simp)
  | ok middle =>
    constructor
    · intro h
      exact ⟨middle, rfl, h⟩
    · rintro ⟨_, heq, h⟩
      cases heq
      exact h

theorem bind_eq_error_iff {first : Except ε α} {next : α → Except ε β} {fault : ε} :
    (first >>= next) = .error fault ↔
      first = .error fault ∨ ∃ middle, first = .ok middle ∧ next middle = .error fault := by
  cases first with
  | error found => simp [bind, Except.bind]
  | ok middle => simp [bind, Except.bind]

/-- A sequence has some value exactly if each of its parts has, in turn. -/
theorem exists_bind_iff {first : Except ε α} {next : α → Except ε β} :
    (∃ value, (first >>= next) = .ok value) ↔
      ∃ middle, first = .ok middle ∧ ∃ value, next middle = .ok value := by
  simp only [bind_eq_ok_iff]
  rw [exists_comm]
  exact exists_congr fun _ => exists_and_left

theorem exists_pure_iff {value : α} : (∃ found, (pure value : Except ε α) = .ok found) ↔ True :=
  iff_of_true ⟨value, rfl⟩ trivial

/-- A check that succeeds leaves all to what comes after it. -/
theorem check_bind_eq_ok_iff {check : Except ε Unit} {next : Unit → Except ε β} {value : β} :
    (check >>= next) = .ok value ↔ check = .ok () ∧ next () = .ok value := by
  rw [bind_eq_ok_iff]
  exact ⟨fun ⟨_, h⟩ => h, fun h => ⟨(), h⟩⟩

theorem map_eq_ok_iff {first : Except ε α} {f : α → β} {value : β} :
    f <$> first = .ok value ↔ ∃ middle, first = .ok middle ∧ f middle = value := by
  rw [← bind_pure_comp, bind_eq_ok_iff]
  refine exists_congr fun middle => and_congr_right fun _ => ?_
  exact ⟨fun h => by cases h; rfl, fun h => by rw [h]; rfl⟩

theorem ite_eq_ok_iff {p : Prop} [Decidable p] {value found : α} {fault : ε} :
    (if p then .ok value else .error fault : Except ε α) = .ok found ↔ p ∧ value = found := by
  by_cases h : p
  · rw [if_pos h, Except.ok.injEq]
    exact (and_iff_right h).symm
  · rw [if_neg h]
    exact iff_of_false (by simp) fun hboth => h hboth.1

theorem map_eq_error_iff {first : Except ε α} {f : α → β} {fault : ε} :
    f <$> first = .error fault ↔ first = .error fault := by
  cases first <;> simp [Functor.map, Except.map]

/-- Each item has a value exactly if there is a row of values for all of them. -/
theorem exists_forall₂_iff {R : α → β → Prop} {items : List α} :
    (∃ values, List.Forall₂ R items values) ↔ ∀ item ∈ items, ∃ value, R item value := by
  constructor
  · rintro ⟨values, hvalues⟩
    induction hvalues with
    | nil => exact fun item hitem => absurd hitem (by simp)
    | cons hvalue _ ih => exact List.forall_mem_cons.2 ⟨⟨_, hvalue⟩, ih⟩
  · intro h
    induction items with
    | nil => exact ⟨[], .nil⟩
    | cons item items ih =>
      rw [List.forall_mem_cons] at h
      obtain ⟨value, hvalue⟩ := h.1
      obtain ⟨values, hvalues⟩ := ih h.2
      exact ⟨value :: values, .cons hvalue hvalues⟩

theorem forall₂_eq_iff {f : α → β} {items : List α} {values : List β} :
    List.Forall₂ (fun item value => f item = value) items values ↔ items.map f = values := by
  rw [← List.forall₂_map_left_iff, List.forall₂_eq_eq_eq]

/-- A row of values that are determined wherever a condition holds. -/
theorem forall₂_guarded_iff {p : α → Prop} {f : α → β} {items : List α} {values : List β} :
    List.Forall₂ (fun item value => p item ∧ f item = value) items values ↔
      (∀ item ∈ items, p item) ∧ items.map f = values := by
  rw [List.forall₂_and_left, forall₂_eq_iff]

theorem mapM_eq_ok_iff {f : α → Except ε β} {items : List α} {values : List β} :
    items.mapM f = .ok values ↔
      List.Forall₂ (fun item value => f item = .ok value) items values := by
  induction items generalizing values with
  | nil =>
    rw [List.mapM_nil, List.forall₂_nil_left_iff]
    exact ⟨fun h => by cases h; rfl, fun h => by cases h; rfl⟩
  | cons item items ih =>
    rw [List.mapM_cons, bind_eq_ok_iff]
    simp only [bind_eq_ok_iff, ih]
    constructor
    · rintro ⟨value, hvalue, values', hvalues, hpure⟩
      cases hpure
      exact .cons hvalue hvalues
    · intro h
      cases h with
      | cons hvalue hvalues => exact ⟨_, hvalue, _, hvalues, rfl⟩

/-- A row fails with the first of its items that has a fault. -/
theorem mapM_eq_error {f : α → Except ε β} {before after : List α} {item : α} {fault : ε}
    (hbefore : ∀ earlier ∈ before, ∃ value, f earlier = .ok value)
    (hitem : f item = .error fault) :
    (before ++ item :: after).mapM f = .error fault := by
  induction before with
  | nil =>
    rw [List.nil_append, List.mapM_cons, hitem]
    rfl
  | cons earlier before ih =>
    rw [List.forall_mem_cons] at hbefore
    obtain ⟨⟨value, hvalue⟩, hbefore⟩ := hbefore
    rw [List.cons_append, List.mapM_cons, hvalue]
    change (List.mapM f (before ++ item :: after) >>= _) = _
    rw [ih hbefore]
    rfl

theorem forM_eq_ok_iff {f : α → Except ε Unit} {items : List α} :
    items.forM f = .ok () ↔ ∀ item ∈ items, f item = .ok () := by
  induction items with
  | nil =>
    exact ⟨fun _ item hitem => absurd hitem (by simp), fun _ => rfl⟩
  | cons item items ih =>
    change (f item >>= fun _ => items.forM f) = .ok () ↔ _
    rw [bind_eq_ok_iff, List.forall_mem_cons]
    constructor
    · rintro ⟨_, hitem, hitems⟩
      exact ⟨hitem, ih.1 hitems⟩
    · rintro ⟨hitem, hitems⟩
      exact ⟨(), hitem, ih.2 hitems⟩

/-! ## Comparison -/

/-- What the first computation gives, the second one gives too. -/
def Below (first second : Except ε α) : Prop :=
  ∀ value, first = .ok value → second = .ok value

namespace Below

variable {first second : Except ε α}

theorem refl (first : Except ε α) : Below first first :=
  fun _ h => h

theorem bind {next next' : α → Except ε β} (h : Below first second)
    (hnext : ∀ middle, Below (next middle) (next' middle)) :
    Below (first >>= next) (second >>= next') := by
  intro value hvalue
  obtain ⟨middle, hmiddle, hrest⟩ := bind_eq_ok_iff.1 hvalue
  exact bind_eq_ok_iff.2 ⟨middle, h middle hmiddle, hnext middle value hrest⟩

protected theorem map {f : α → β} (h : Below first second) :
    Below (f <$> first) (f <$> second) := by
  intro value hvalue
  obtain ⟨middle, hmiddle, hrest⟩ := map_eq_ok_iff.1 hvalue
  exact map_eq_ok_iff.2 ⟨middle, h middle hmiddle, hrest⟩

protected theorem mapM {f g : α → Except ε β} (h : ∀ item, Below (f item) (g item))
    (items : List α) : Below (items.mapM f) (items.mapM g) := by
  intro values hvalues
  rw [mapM_eq_ok_iff] at hvalues ⊢
  exact hvalues.imp fun item value => h item value

end Below

/-! ## The first fault -/

/-- The fault that a computation fails with, if it fails. -/
def fault? : Except ε α → Option ε
  | .ok _ => none
  | .error fault => some fault

theorem fault?_eq_some_iff {computation : Except ε α} {fault : ε} :
    fault? computation = some fault ↔ computation = .error fault := by
  cases computation <;> simp [fault?]

theorem fault?_eq_none_iff {computation : Except ε α} :
    fault? computation = none ↔ ∃ value, computation = .ok value := by
  cases computation <;> simp [fault?]

/-- The computation fails with the fault of the first item that has one, and with no other. -/
def FailsFirst {ι : Type} (fault? : ι → Option ε) (computation : Except ε α) (items : List ι) :
    Prop :=
  ∀ fault, computation = .error fault ↔ items.findSome? fault? = some fault

namespace FailsFirst

variable {ι : Type} {fault? : ι → Option ε} {computation : Except ε α} {items others : List ι}

theorem findSome?_eq_none {value : α} (h : FailsFirst fault? (.ok value : Except ε α) items) :
    items.findSome? fault? = none := by
  rw [Option.eq_none_iff_forall_ne_some]
  intro fault hfault
  exact absurd ((h fault).2 hfault) (by simp)

/-- The computation succeeds exactly if no item has a fault. -/
theorem exists_ok_iff (h : FailsFirst fault? computation items) :
    (∃ value, computation = .ok value) ↔ ∀ item ∈ items, fault? item = none := by
  rw [← List.findSome?_eq_none_iff]
  cases computation with
  | ok value => exact iff_of_true ⟨value, rfl⟩ h.findSome?_eq_none
  | error fault =>
    refine iff_of_false (by simp) ?_
    rw [(h fault).1 rfl]
    simp

/-- The computation fails with the fault of an item before which there is none. -/
theorem eq_error_iff (h : FailsFirst fault? computation items) {fault : ε} :
    computation = .error fault ↔
      ∃ before item after, items = before ++ item :: after ∧
        (∀ earlier ∈ before, fault? earlier = none) ∧ fault? item = some fault := by
  rw [h fault, List.findSome?_eq_some_iff]
  simp only [and_comm (a := fault? _ = some fault)]

protected theorem pure (value : α) : FailsFirst fault? (pure value : Except ε α) [] :=
  fun _ => iff_of_false (by simp [pure, Except.pure]) (by simp)

/-- A computation looks at the one item that has its fault. -/
theorem singleton {item : ι} (h : fault? item = Fallible.fault? computation) :
    FailsFirst fault? computation [item] := by
  intro fault
  rw [List.findSome?_singleton, h, fault?_eq_some_iff]

/-- A sequence looks at the items of its first part before those of the others. -/
theorem bind {next : α → Except ε β} (h : FailsFirst fault? computation items)
    (hnext : ∀ value, FailsFirst fault? (next value) others) :
    FailsFirst fault? (computation >>= next) (items ++ others) := by
  intro fault
  rw [List.findSome?_append]
  cases computation with
  | ok value =>
    change next value = .error fault ↔ _
    rw [h.findSome?_eq_none, Option.none_or]
    exact hnext value fault
  | error found =>
    rw [(h found).1 rfl, Option.some_or, Option.some.injEq]
    change Except.error found = Except.error fault ↔ _
    rw [Except.error.injEq]

/-- What follows without a fault of its own adds no items. -/
theorem bind_pure (h : FailsFirst fault? computation items) (f : α → β) :
    FailsFirst fault? (computation >>= fun value => pure (f value)) items := by
  have hbind := h.bind fun value => FailsFirst.pure (f value)
  rwa [List.append_nil] at hbind

protected theorem mapM {γ : Type} {f : γ → Except ε α} {itemsOf : γ → List ι}
    (h : ∀ x, FailsFirst fault? (f x) (itemsOf x)) (row : List γ) :
    FailsFirst fault? (row.mapM f) (row.flatMap itemsOf) := by
  induction row with
  | nil => exact .pure []
  | cons x row ih =>
    rw [List.mapM_cons, List.flatMap_cons]
    exact (h x).bind fun value => ih.bind_pure fun values => value :: values

protected theorem forM {γ : Type} {f : γ → Except ε Unit} {itemsOf : γ → List ι}
    (h : ∀ x, FailsFirst fault? (f x) (itemsOf x)) (row : List γ) :
    FailsFirst fault? (row.forM f) (row.flatMap itemsOf) := by
  induction row with
  | nil => exact .pure ()
  | cons x row ih =>
    rw [List.flatMap_cons]
    exact (h x).bind fun _ => ih

end FailsFirst

end Fallible
end ModuleRecord
