import Mathlib.Data.List.TakeDrop
import Mathlib.Data.List.TakeWhile
import ModuleRecord.Descriptor.JavaBase

/-!
# The one requirement on the base module

Requirements are either all on other modules, or split at the first one that is not. Both forms are
kept by `requireJavaBase`, so that applying it twice does no more than applying it once
(`requireJavaBase_idem`). What comes of it has the one mandated requirement on the base module that
the rule asks for (`obeysBaseRule_requireJavaBase`), and is determined by what stays, what is
changed and where that stands (`requireJavaBase_outcome`). A single pass with a flag gives the same
(`finish_foldl_step`).
-/

namespace ModuleRecord
namespace Requirement

theorem isOther_eq_false_iff {requirement : Requirement} :
    requirement.isOther = false ↔ requirement.target = javaBase := by
  unfold isOther
  simp

theorem requireJavaBase_of_all {requires : List Requirement}
    (h : ∀ item ∈ requires, item.isOther = true) (name : String) :
    requireJavaBase name requires =
      if name = javaBase then requires else onJavaBase :: requires := by
  unfold requireJavaBase
  rw [List.span_eq_takeWhile_dropWhile, List.takeWhile_eq_self_iff.2 h,
    List.dropWhile_eq_nil_iff.2 h]

theorem takeWhile_of_split {before after : List Requirement} {first : Requirement}
    (h : ∀ item ∈ before, item.isOther = true) (hfirst : first.isOther = false) :
    (before ++ first :: after).takeWhile isOther = before := by
  rw [List.takeWhile_append_of_pos h, List.takeWhile_cons_of_neg (by simp [hfirst]),
    List.append_nil]

theorem requireJavaBase_of_split {before after : List Requirement} {first : Requirement}
    (h : ∀ item ∈ before, item.isOther = true) (hfirst : first.isOther = false) (name : String) :
    requireJavaBase name (before ++ first :: after) =
      before ++ { first with isMandated := true } :: after.filter isOther := by
  have hdrop : (before ++ first :: after).dropWhile isOther = first :: after := by
    rw [List.dropWhile_append_of_pos h, List.dropWhile_cons_of_neg (by simp [hfirst])]
  unfold requireJavaBase
  rw [List.span_eq_takeWhile_dropWhile, takeWhile_of_split h hfirst, hdrop]

/-- Either no requirement is on the base module, or there is a first one that is. -/
theorem all_or_split (requires : List Requirement) :
    (∀ item ∈ requires, item.isOther = true) ∨
      ∃ before first after, requires = before ++ first :: after ∧
        (∀ item ∈ before, item.isOther = true) ∧ first.isOther = false := by
  induction requires with
  | nil => exact Or.inl fun _ hitem => absurd hitem (by simp)
  | cons item requires ih =>
    cases hother : item.isOther with
    | false => exact Or.inr ⟨[], item, requires, rfl, fun _ hitem => absurd hitem (by simp), hother⟩
    | true =>
      rcases ih with hall | ⟨before, first, after, rfl, hbefore, hfirst⟩
      · exact Or.inl (List.forall_mem_cons.2 ⟨hother, hall⟩)
      · exact Or.inr ⟨item :: before, first, after, rfl,
          List.forall_mem_cons.2 ⟨hother, hbefore⟩, hfirst⟩

theorem onJavaBase_isOther : onJavaBase.isOther = false := by
  rw [isOther_eq_false_iff]
  rfl

/-- Applying the rule once more changes nothing. -/
theorem requireJavaBase_idem (name : String) (requires : List Requirement) :
    requireJavaBase name (requireJavaBase name requires) = requireJavaBase name requires := by
  rcases all_or_split requires with hall | ⟨before, first, after, rfl, hbefore, hfirst⟩
  · rw [requireJavaBase_of_all hall]
    by_cases hname : name = javaBase
    · rw [if_pos hname, requireJavaBase_of_all hall, if_pos hname]
    · have hsplit := @requireJavaBase_of_split [] requires onJavaBase
        (fun _ hitem => absurd hitem (by simp)) onJavaBase_isOther name
      rw [if_neg hname]
      rw [List.nil_append, List.nil_append, List.filter_eq_self.2 hall] at hsplit
      exact hsplit
  · rw [requireJavaBase_of_split hbefore hfirst]
    have hkept : ({ first with isMandated := true } : Requirement).isOther = false := hfirst
    rw [requireJavaBase_of_split hbefore hkept, List.filter_filter]
    simp only [Bool.and_self]

/-- A module other than the base module requires the base module exactly once, and the base module
requires itself once at most. Such a requirement is mandated. -/
structure ObeysBaseRule (name : String) (requires : List Requirement) : Prop where
  once_of_ne : name ≠ javaBase → requires.countP (fun item => item.target = javaBase) = 1
  at_most_once : requires.countP (fun item => item.target = javaBase) ≤ 1
  mandated : ∀ item ∈ requires, item.target = javaBase → item.isMandated = true

theorem target_ne_of_isOther {requirement : Requirement} (h : requirement.isOther = true) :
    requirement.target ≠ javaBase := by
  intro htarget
  rw [isOther_eq_false_iff.2 htarget] at h
  exact absurd h (by simp)

theorem countP_of_all {requires : List Requirement} (h : ∀ item ∈ requires, item.isOther = true) :
    requires.countP (fun item => item.target = javaBase) = 0 := by
  rw [List.countP_eq_zero]
  intro item hitem
  simp [target_ne_of_isOther (h item hitem)]

/-- A single mandated requirement on the base module, with others around it, is what the rule asks
for. -/
theorem obeysBaseRule_of_split {before after : List Requirement} {first : Requirement}
    (hbefore : ∀ item ∈ before, item.isOther = true) (hafter : ∀ item ∈ after, item.isOther = true)
    (hfirst : first.target = javaBase) (hmandated : first.isMandated = true) (name : String) :
    ObeysBaseRule name (before ++ first :: after) := by
  have hcount : (before ++ first :: after).countP (fun item => item.target = javaBase) = 1 := by
    rw [List.countP_append, List.countP_cons, countP_of_all hbefore, countP_of_all hafter]
    simp [hfirst]
  refine ⟨fun _ => hcount, hcount.le, ?_⟩
  intro item hitem htarget
  rw [List.mem_append, List.mem_cons] at hitem
  rcases hitem with hitem | rfl | hitem
  · exact absurd htarget (target_ne_of_isOther (hbefore item hitem))
  · exact hmandated
  · exact absurd htarget (target_ne_of_isOther (hafter item hitem))

/-- Requirements to which the rule has been applied obey it. -/
theorem obeysBaseRule_requireJavaBase (name : String) (requires : List Requirement) :
    ObeysBaseRule name (requireJavaBase name requires) := by
  rcases all_or_split requires with hall | ⟨before, first, after, rfl, hbefore, hfirst⟩
  · rw [requireJavaBase_of_all hall]
    by_cases hname : name = javaBase
    · rw [if_pos hname]
      refine ⟨fun hne => absurd hname hne, by rw [countP_of_all hall]; exact Nat.zero_le _, ?_⟩
      intro item hitem htarget
      exact absurd htarget (target_ne_of_isOther (hall item hitem))
    · rw [if_neg hname]
      exact @obeysBaseRule_of_split [] requires onJavaBase (fun _ hitem => absurd hitem (by simp))
        hall rfl rfl name
  · rw [requireJavaBase_of_split hbefore hfirst]
    have hkept : ({ first with isMandated := true } : Requirement).target = javaBase :=
      isOther_eq_false_iff.1 hfirst
    exact obeysBaseRule_of_split hbefore (fun item hitem => (List.mem_filter.1 hitem).2) hkept rfl
      name

/-- The rule brings in no other module than the base module. -/
theorem target_of_mem_requireJavaBase {name : String} {requires : List Requirement}
    {item : Requirement} (h : item ∈ requireJavaBase name requires) :
    item.target = javaBase ∨ ∃ given ∈ requires, given.target = item.target := by
  rcases all_or_split requires with hall | ⟨before, first, after, rfl, hbefore, hfirst⟩
  · rw [requireJavaBase_of_all hall] at h
    by_cases hname : name = javaBase
    · rw [if_pos hname] at h
      exact Or.inr ⟨item, h, rfl⟩
    · rw [if_neg hname, List.mem_cons] at h
      rcases h with rfl | h
      · exact Or.inl rfl
      · exact Or.inr ⟨item, h, rfl⟩
  · rw [requireJavaBase_of_split hbefore hfirst, List.mem_append, List.mem_cons,
      List.mem_filter] at h
    rcases h with h | rfl | ⟨h, -⟩
    · exact Or.inr ⟨item, List.mem_append_left _ h, rfl⟩
    · exact Or.inl (isOther_eq_false_iff.1 hfirst)
    · exact Or.inr ⟨item, List.mem_append_right _ (List.mem_cons_of_mem _ h), rfl⟩

/-! ## What the rule changes -/

theorem filter_isOther_of_split {before after : List Requirement} {first : Requirement}
    (h : ∀ item ∈ before, item.isOther = true) (hfirst : first.isOther = false) :
    (before ++ first :: after).filter isOther = before ++ after.filter isOther := by
  rw [List.filter_append, List.filter_eq_self.2 h, List.filter_cons_of_neg (by simp [hfirst])]

theorem filter_not_isOther_of_all {requires : List Requirement}
    (h : ∀ item ∈ requires, item.isOther = true) :
    (requires.filter fun item => !item.isOther) = [] := by
  rw [List.filter_eq_nil_iff]
  intro item hitem
  simp [h item hitem]

theorem filter_not_isOther_of_split {before after : List Requirement} {first : Requirement}
    (h : ∀ item ∈ before, item.isOther = true) (hfirst : first.isOther = false) :
    ((before ++ first :: after).filter fun item => !item.isOther) =
      first :: after.filter fun item => !item.isOther := by
  rw [List.filter_append, filter_not_isOther_of_all h, List.filter_cons_of_pos (by simp [hfirst]),
    List.nil_append]

theorem find?_not_isOther_of_all {requires : List Requirement}
    (h : ∀ item ∈ requires, item.isOther = true) :
    requires.find? (fun item => !item.isOther) = none := by
  rw [List.find?_eq_none]
  intro item hitem
  simp [h item hitem]

theorem find?_not_isOther_of_split {before after : List Requirement} {first : Requirement}
    (h : ∀ item ∈ before, item.isOther = true) (hfirst : first.isOther = false) :
    (before ++ first :: after).find? (fun item => !item.isOther) = some first := by
  rw [List.find?_append, find?_not_isOther_of_all h, Option.none_or,
    List.find?_cons_of_pos (by simp [hfirst])]

/-- What the rule makes of the requirements of a module, said of the requirements on other modules
and of those on the base module apart. -/
structure Completes (name : String) (given result : List Requirement) : Prop where
  /-- The requirements on other modules stay as they are, in their order. -/
  others : result.filter isOther = given.filter isOther
  /-- Of the requirements on the base module the first one is left, as a mandated one, and behind
  the same others as before. -/
  kept : ∀ first, given.find? (fun item => !item.isOther) = some first →
    (result.filter fun item => !item.isOther) = [{ first with isMandated := true }] ∧
      result.takeWhile isOther = given.takeWhile isOther
  /-- A missing one is put in front, but not for the base module itself. -/
  added : given.find? (fun item => !item.isOther) = none →
    result = if name = javaBase then given else onJavaBase :: given

theorem completes_requireJavaBase (name : String) (requires : List Requirement) :
    Completes name requires (requireJavaBase name requires) := by
  rcases all_or_split requires with hall | ⟨before, first, after, rfl, hbefore, hfirst⟩
  · have hnone := find?_not_isOther_of_all hall
    rw [requireJavaBase_of_all hall]
    refine ⟨?_, fun first hfound => ?_, fun _ => rfl⟩
    · by_cases hname : name = javaBase
      · rw [if_pos hname]
      · rw [if_neg hname, List.filter_cons_of_neg (by simp [onJavaBase_isOther])]
    · rw [hnone] at hfound
      exact absurd hfound (by simp)
  · have hfound : (before ++ first :: after).find? (fun item => !item.isOther) = some first :=
      find?_not_isOther_of_split hbefore hfirst
    have hkept : ({ first with isMandated := true } : Requirement).isOther = false := hfirst
    rw [requireJavaBase_of_split hbefore hfirst]
    refine ⟨?_, fun other hother => ?_, fun hnone => ?_⟩
    · rw [filter_isOther_of_split hbefore hkept, filter_isOther_of_split hbefore hfirst,
        List.filter_filter]
      simp only [Bool.and_self]
    · rw [hfound, Option.some_inj] at hother
      subst hother
      rw [filter_not_isOther_of_split hbefore hkept, takeWhile_of_split hbefore hkept,
        takeWhile_of_split hbefore hfirst, List.filter_filter]
      simp
    · rw [hfound] at hnone
      exact absurd hnone (by simp)

/-- The description leaves no choice. -/
theorem Completes.eq_requireJavaBase {name : String} {given result : List Requirement}
    (h : Completes name given result) : requireJavaBase name given = result := by
  rcases all_or_split given with hall | ⟨before, first, after, rfl, hbefore, hfirst⟩
  · rw [requireJavaBase_of_all hall, h.added (find?_not_isOther_of_all hall)]
  · obtain ⟨hbase, htake⟩ := h.kept first (find?_not_isOther_of_split hbefore hfirst)
    have hothers := h.others
    rw [requireJavaBase_of_split hbefore hfirst]
    rw [takeWhile_of_split hbefore hfirst] at htake
    rw [filter_isOther_of_split hbefore hfirst] at hothers
    -- the result is split at its own requirement on the base module, and the parts are compared
    rcases all_or_split result with hall | ⟨before', first', after', rfl, hbefore', hfirst'⟩
    · rw [filter_not_isOther_of_all hall] at hbase
      exact absurd hbase (by simp)
    · rw [takeWhile_of_split hbefore' hfirst'] at htake
      rw [filter_not_isOther_of_split hbefore' hfirst', List.cons.injEq,
        List.filter_eq_nil_iff] at hbase
      obtain ⟨rfl, hafter'⟩ := hbase
      rw [filter_isOther_of_split hbefore' hfirst', htake, List.append_cancel_left_eq,
        List.filter_eq_self.2 fun item hitem => by simpa using hafter' item hitem] at hothers
      rw [htake, hothers]

/-! ## A single pass -/

/-- A pass over the requirements of a module. -/
structure Pass where
  /-- Whether a requirement on the base module has been met. -/
  hasBase : Bool
  /-- The requirements that have been kept. -/
  kept : List Requirement

namespace Pass

/-- The pass before the first requirement. -/
def start : Pass :=
  ⟨false, []⟩

/-- Keeps a requirement, unless it is on the base module and not the first such one. -/
def step (pass : Pass) (item : Requirement) : Pass :=
  if item.isOther then { pass with kept := pass.kept ++ [item] }
  else if pass.hasBase then pass
  else ⟨true, pass.kept ++ [{ item with isMandated := true }]⟩

/-- What has been kept, with the missing requirement put in front. -/
def finish (name : String) (pass : Pass) : List Requirement :=
  if pass.hasBase = true ∨ name = javaBase then pass.kept else onJavaBase :: pass.kept

/-- Requirements on other modules are kept at any time. -/
theorem foldl_step_of_all {requires : List Requirement}
    (h : ∀ item ∈ requires, item.isOther = true) (pass : Pass) :
    requires.foldl step pass = { pass with kept := pass.kept ++ requires } := by
  induction requires generalizing pass with
  | nil => simp
  | cons item rest ih =>
    rw [List.forall_mem_cons] at h
    rw [List.foldl_cons, ih h.2]
    simp [step, h.1]

/-- Once a requirement on the base module has been met, only those on other modules are kept. -/
theorem foldl_step_of_hasBase (requires kept : List Requirement) :
    requires.foldl step ⟨true, kept⟩ = ⟨true, kept ++ requires.filter isOther⟩ := by
  induction requires generalizing kept with
  | nil => simp
  | cons item rest ih =>
    rw [List.foldl_cons]
    by_cases hother : item.isOther = true
    · simp [step, hother, ih]
    · simp [step, hother, ih]

end Pass

/-- The rule is applied by a single pass. -/
theorem finish_foldl_step (name : String) (requires : List Requirement) :
    (requires.foldl Pass.step .start).finish name = requireJavaBase name requires := by
  rcases all_or_split requires with hall | ⟨before, first, after, rfl, hbefore, hfirst⟩
  · rw [requireJavaBase_of_all hall, Pass.foldl_step_of_all hall]
    simp [Pass.finish, Pass.start]
  · have hstep : Pass.step ⟨false, before⟩ first =
        ⟨true, before ++ [{ first with isMandated := true }]⟩ := by
      simp [Pass.step, hfirst]
    rw [requireJavaBase_of_split hbefore hfirst, List.foldl_append, Pass.foldl_step_of_all hbefore,
      List.foldl_cons, Pass.start, List.nil_append, hstep, Pass.foldl_step_of_hasBase]
    simp [Pass.finish]

/-- The rule is what it is described as, and is applied by a single pass. Applying it once more
changes nothing. -/
theorem requireJavaBase_outcome (name : String) (requires : List Requirement) :
    (∀ result, requireJavaBase name requires = result ↔ Completes name requires result) ∧
      (requires.foldl Pass.step .start).finish name = requireJavaBase name requires ∧
      requireJavaBase name (requireJavaBase name requires) = requireJavaBase name requires := by
  refine ⟨fun result => ⟨?_, Completes.eq_requireJavaBase⟩, finish_foldl_step name requires,
    requireJavaBase_idem name requires⟩
  rintro rfl
  exact completes_requireJavaBase name requires

/-- The second requirement on the base module is dropped, and the first one keeps its place and its
other flags. -/
example :
    requireJavaBase "app"
      [.plain "lib", { Requirement.plain "java.base" with isTransitive := true },
        .plain "java.base", .plain "util"] =
      [.plain "lib",
        { Requirement.plain "java.base" with isTransitive := true, isMandated := true },
        .plain "util"] := by
  decide

end Requirement
end ModuleRecord
