import Mathlib.Data.List.TakeWhile
import ModuleRecord.ClassFile.ConstantPool.InternalName

/-!
# Names read back

A class name is set off behind its last slash and a package name is not, but both come out with all
slashes turned into dots (`className_eq_packageName`). A dotted name without slashes is read back
from its internal form (`packageName_ofDotted`).
-/

namespace ModuleRecord
namespace InternalName

theorem toList_replace (old new : Char) (text : String) :
    (replace old new text).toList = text.toList.map fun c => if c = old then new else c := by
  rw [replace, String.toList_ofList]

theorem map_eq_self {old new : Char} {chars : List Char} (h : old ∉ chars) :
    (chars.map fun c => if c = old then new else c) = chars := by
  rw [List.map_congr_left (g := id), List.map_id]
  intro c hc
  have hne : c ≠ old := fun heq => h (heq ▸ hc)
  rw [if_neg hne, id]

/-- Putting one character in the place of another leaves a text as it is if the other is not in it,
and only then, since it is not there afterwards. -/
theorem replace_eq_self_iff {old new : Char} (hne : new ≠ old) {text : String} :
    replace old new text = text ↔ old ∉ text.toList := by
  rw [← String.toList_inj, toList_replace]
  refine ⟨fun heq hmem => ?_, map_eq_self⟩
  rw [← heq, List.mem_map] at hmem
  obtain ⟨c, -, hc⟩ := hmem
  by_cases hold : c = old
  · rw [if_pos hold] at hc
    exact hne hc
  · rw [if_neg hold] at hc
    exact hold hc

/-! ## The last slash -/

theorem splitLast?_eq_none_iff {chars : List Char} : splitLast? chars = none ↔ '/' ∉ chars := by
  have hdrop : chars.reverse.dropWhile (· != '/') = [] ↔ '/' ∉ chars := by
    rw [List.dropWhile_eq_nil_iff]
    simp only [List.mem_reverse, bne_iff_ne]
    constructor
    · intro h hmem
      exact h _ hmem rfl
    · intro h c hc heq
      exact h (heq ▸ hc)
  rw [← hdrop, splitLast?]
  cases chars.reverse.dropWhile (· != '/') with
  | nil => simp
  | cons c front => simp

theorem eq_of_splitLast? {chars package simple : List Char}
    (h : splitLast? chars = some (package, simple)) :
    chars = package ++ '/' :: simple ∧ '/' ∉ simple := by
  have hsplit := List.takeWhile_append_dropWhile (p := (· != '/')) (l := chars.reverse)
  rw [splitLast?] at h
  cases hdrop : chars.reverse.dropWhile (· != '/') with
  | nil =>
    rw [hdrop] at h
    exact absurd h (by simp)
  | cons c front =>
    rw [hdrop] at h
    have hslash : c = '/' := by
      have hne : chars.reverse.dropWhile (· != '/') ≠ [] := by
        rw [hdrop]
        simp
      have hhead := List.head_dropWhile_not (· != '/') hne
      simp only [hdrop, List.head_cons] at hhead
      simpa using hhead
    simp only [Option.some_inj, Prod.mk.injEq] at h
    obtain ⟨rfl, rfl⟩ := h
    constructor
    · rw [hdrop, hslash] at hsplit
      have hreverse := congrArg List.reverse hsplit
      rw [List.reverse_reverse, List.reverse_append, List.reverse_cons, List.append_assoc,
        List.singleton_append] at hreverse
      exact hreverse.symm
    · rw [List.mem_reverse]
      intro hmem
      have hne := List.mem_takeWhile_imp hmem
      simp at hne

/-- What follows the last slash has none, so setting it off changes nothing. -/
theorem className_eq_packageName (name : String) : className name = packageName name := by
  rw [className]
  cases hsplit : splitLast? name.toList with
  | none =>
    apply String.toList_inj.1
    rw [packageName, toList_replace, map_eq_self (splitLast?_eq_none_iff.1 hsplit)]
  | some parts =>
    obtain ⟨package, simple⟩ := parts
    obtain ⟨hchars, hsimple⟩ := eq_of_splitLast? hsplit
    apply String.toList_inj.1
    simp only [packageName, String.toList_append, toList_replace, String.toList_ofList]
    rw [hchars, List.map_append, List.map_cons, map_eq_self hsimple]
    simp

/-! ## Internal names -/

/-- A name that is made internal and read back has dots for slashes. -/
theorem packageName_ofDotted_eq (name : String) :
    packageName (ofDotted name) = packageName name := by
  apply String.toList_inj.1
  rw [packageName, ofDotted, toList_replace, toList_replace, packageName, toList_replace,
    List.map_map]
  refine List.map_congr_left fun c _ => ?_
  by_cases hdot : c = '.'
  · simp [hdot]
  · simp [hdot]

/-- A name without slashes is read back from its internal form. -/
theorem packageName_ofDotted {name : String} (h : '/' ∉ name.toList) :
    packageName (ofDotted name) = name := by
  rw [packageName_ofDotted_eq]
  apply String.toList_inj.1
  rw [packageName, toList_replace, map_eq_self h]

end InternalName
end ModuleRecord
