import Mathlib.Computability.RegularExpressions
import Mathlib.Data.List.TakeWhile
import Mathlib.Tactic.IntervalCases
import ModuleRecord.Archive.Locator

/-!
# The names of module records

The names that stand for a module record are given by a grammar: an optional directory, an optional
version with its own directory, and the name of the record (`IsNameOf`). It describes the same names
as a regular expression (`Pattern.name`). What is told of a name is just what the grammar says of it
(`classify_outcome`). The value of a version is computed digit by digit with the limit in force at
each step, and comes out as the value of all its digits, or as the limit if that is less
(`versionOf_eq`).
-/

namespace ModuleRecord
namespace Archive

open RegularExpression (char matches'_add matches'_char matches'_epsilon matches'_mul matches'_star)

/-! ## Fronts -/

theorem after?_eq_some_iff {front text rest : List Char} :
    after? front text = some rest ↔ text = front ++ rest := by
  unfold after?
  rw [Option.ite_none_right_eq_some, List.isPrefixOf_iff_prefix, Option.some_inj]
  constructor
  · rintro ⟨hfront, rfl⟩
    exact (List.prefix_iff_eq_append.1 hfront).symm
  · rintro rfl
    exact ⟨List.prefix_append front rest, List.drop_left⟩

theorem after?_append (front rest : List Char) : after? front (front ++ rest) = some rest :=
  after?_eq_some_iff.2 rfl

theorem exists_toList_eq (chars : List Char) : ∃ text : String, text.toList = chars :=
  ⟨String.ofList chars, String.toList_ofList⟩

/-! ## Versions -/

/-- A value that is cut at a limit after each digit is the value of all digits, cut at the limit. -/
theorem foldl_min_eq (limit value : Nat) (digits : List Char) :
    digits.foldl (fun n c => min (n * 10 + (c.toNat - '0'.toNat)) limit) (min value limit) =
      min (Nat.ofDigitChars 10 digits value) limit := by
  induction digits generalizing value with
  | nil => rfl
  | cons c digits ih =>
    have hstep : min (min value limit * 10 + (c.toNat - '0'.toNat)) limit =
        min (10 * value + (c.toNat - '0'.toNat)) limit := by omega
    rw [List.foldl_cons, hstep, ih, Nat.ofDigitChars_cons]

/-- A version is the decimal value of its digits, and the limit if that is less. -/
theorem versionOf_eq (digits : List Char) :
    versionOf digits = min (Nat.ofDigitChars 10 digits 0) versionLimit :=
  foldl_min_eq versionLimit 0 digits

theorem isDigit_iff {c : Char} : isDigit c = true ↔ '0' ≤ c ∧ c ≤ '9' := by
  simp [isDigit]

/-! ## Names outside the classes directory -/

/-- The place that a name outside the classes directory stands for. -/
def kindOf? (text : List Char) : Option EntryKind :=
  match after? versionsDirectory text with
  | none => if text = recordName then some .root else none
  | some rest =>
    let digits := rest.takeWhile isDigit
    if digits ≠ [] ∧ rest.dropWhile isDigit = '/' :: recordName then
      some (.versioned (versionOf digits))
    else none

theorem classify_eq (name : String) :
    classify name = kindOf? ((after? classesDirectory name.toList).getD name.toList) := rfl

theorem kindOf?_eq_root_iff {text : List Char} : kindOf? text = some .root ↔ text = recordName := by
  unfold kindOf?
  cases hafter : after? versionsDirectory text with
  | none => simp
  | some rest =>
    have hfront : versionsDirectory <+: text := ⟨rest, (after?_eq_some_iff.1 hafter).symm⟩
    have hne : text ≠ recordName := by
      rintro rfl
      exact absurd hfront (by decide)
    simp [hne]

/-- The digits of a version end at the first character that is none. -/
theorem takeWhile_isDigit {digits : List Char} (h : ∀ c ∈ digits, isDigit c = true) :
    (digits ++ '/' :: recordName).takeWhile isDigit = digits ∧
      (digits ++ '/' :: recordName).dropWhile isDigit = '/' :: recordName := by
  have hslash : ¬ isDigit '/' = true := by decide
  rw [List.takeWhile_append_of_pos h, List.dropWhile_append_of_pos h,
    List.takeWhile_cons_of_neg hslash, List.dropWhile_cons_of_neg hslash, List.append_nil]
  exact ⟨rfl, rfl⟩

theorem kindOf?_eq_versioned_iff {text : List Char} {version : Nat} :
    kindOf? text = some (.versioned version) ↔
      ∃ digits : List Char, digits ≠ [] ∧ (∀ c ∈ digits, isDigit c = true) ∧
        text = versionsDirectory ++ (digits ++ '/' :: recordName) ∧ versionOf digits = version := by
  constructor
  · intro h
    unfold kindOf? at h
    cases hafter : after? versionsDirectory text with
    | none =>
      rw [hafter] at h
      simp at h
    | some rest =>
      rw [hafter] at h
      simp only [Option.ite_none_right_eq_some, Option.some_inj, EntryKind.versioned.injEq] at h
      obtain ⟨⟨hne, hrecord⟩, hversion⟩ := h
      refine ⟨rest.takeWhile isDigit, hne, fun c hc => List.mem_takeWhile_imp hc, ?_, hversion⟩
      rw [← hrecord, List.takeWhile_append_dropWhile]
      exact after?_eq_some_iff.1 hafter
  · rintro ⟨digits, hne, hdigits, rfl, rfl⟩
    obtain ⟨htake, hdrop⟩ := takeWhile_isDigit hdigits
    unfold kindOf?
    rw [after?_append]
    simp [htake, hdrop, hne]

/-- What is in the classes directory stands for nothing if the directory is not taken off. -/
theorem kindOf?_classesDirectory (text : List Char) :
    kindOf? (classesDirectory ++ text) = none := by
  rw [Option.eq_none_iff_forall_ne_some]
  intro kind hkind
  have hclasses := List.prefix_append classesDirectory text
  cases kind with
  | root =>
    rw [kindOf?_eq_root_iff.1 hkind] at hclasses
    exact absurd hclasses (by decide)
  | versioned version =>
    obtain ⟨digits, -, -, heq, -⟩ := kindOf?_eq_versioned_iff.1 hkind
    have hversions : versionsDirectory <+: classesDirectory ++ text :=
      ⟨digits ++ '/' :: recordName, heq.symm⟩
    rcases List.prefix_or_prefix_of_prefix hclasses hversions with h | h
    · exact absurd h (by decide)
    · exact absurd h (by decide)

/-! ## The grammar -/

/-- What the name of a record may begin with. -/
def IsDirectory (directory : String) : Prop :=
  directory = "" ∨ directory = "classes/"

/-- The names of module records and the places that they stand for. -/
inductive IsNameOf : EntryKind → String → Prop
  /-- A record at the root. -/
  | root {directory : String} (hdirectory : IsDirectory directory) :
    IsNameOf .root (directory ++ "module-info.class")
  /-- A record under a version, which is the value of its digits up to a limit. -/
  | versioned {directory digits : String} (hdirectory : IsDirectory directory)
    (hne : digits ≠ "") (hdigits : ∀ c ∈ digits.toList, '0' ≤ c ∧ c ≤ '9') :
    IsNameOf (.versioned (min (Nat.ofDigitChars 10 digits.toList 0) (2 ^ 32 - 1)))
      (directory ++ ("META-INF/versions/" ++ (digits ++ "/module-info.class")))

/-- A name stands for what is left of it stands for when the directory has been taken off. -/
theorem classify_eq_some_iff_kindOf? {name : String} {kind : EntryKind} :
    classify name = some kind ↔
      ∃ directory text : String, IsDirectory directory ∧ name = directory ++ text ∧
        kindOf? text.toList = some kind := by
  rw [classify_eq]
  constructor
  · intro h
    cases hafter : after? classesDirectory name.toList with
    | none =>
      rw [hafter, Option.getD_none] at h
      exact ⟨"", name, Or.inl rfl, by simp, h⟩
    | some rest =>
      rw [hafter, Option.getD_some] at h
      obtain ⟨text, rfl⟩ := exists_toList_eq rest
      refine ⟨"classes/", text, Or.inr rfl, String.toList_inj.1 ?_, h⟩
      rw [String.toList_append, after?_eq_some_iff.1 hafter]
      rfl
  · rintro ⟨directory, text, rfl | rfl, rfl, hkind⟩
    · cases hafter : after? classesDirectory ("" ++ text).toList with
      | none => simpa using hkind
      | some rest =>
        have htext : text.toList = classesDirectory ++ rest := by
          simpa using after?_eq_some_iff.1 hafter
        rw [htext, kindOf?_classesDirectory] at hkind
        exact absurd hkind (by simp)
    · rw [String.toList_append]
      change kindOf? ((after? classesDirectory (classesDirectory ++ text.toList)).getD _) = _
      rw [after?_append, Option.getD_some]
      exact hkind

/-- What is told of a name is what the grammar says of it. -/
theorem classify_eq_some_iff {name : String} {kind : EntryKind} :
    classify name = some kind ↔ IsNameOf kind name := by
  rw [classify_eq_some_iff_kindOf?]
  constructor
  · rintro ⟨directory, text, hdirectory, rfl, hkind⟩
    cases kind with
    | root =>
      have htext : text = "module-info.class" := String.toList_inj.1 (kindOf?_eq_root_iff.1 hkind)
      rw [htext]
      exact .root hdirectory
    | versioned version =>
      obtain ⟨digits, hne, hdigits, htext, hversion⟩ := kindOf?_eq_versioned_iff.1 hkind
      obtain ⟨digits, rfl⟩ := exists_toList_eq digits
      have hspelled : text = "META-INF/versions/" ++ (digits ++ "/module-info.class") := by
        apply String.toList_inj.1
        rw [htext, String.toList_append, String.toList_append]
        rfl
      rw [hspelled, ← hversion, versionOf_eq]
      refine .versioned hdirectory ?_ fun c hc => isDigit_iff.1 (hdigits c hc)
      rintro rfl
      exact hne rfl
  · intro h
    cases h with
    | root hdirectory => exact ⟨_, _, hdirectory, rfl, kindOf?_eq_root_iff.2 rfl⟩
    | @versioned directory digits hdirectory hne hdigits =>
      refine ⟨directory, _, hdirectory, rfl, kindOf?_eq_versioned_iff.2
        ⟨digits.toList, ?_, fun c hc => isDigit_iff.2 (hdigits c hc), ?_, versionOf_eq _⟩⟩
      · intro hnil
        exact hne (String.toList_inj.1 hnil)
      · rw [String.toList_append, String.toList_append]
        rfl

/-- The names of root records are two. -/
theorem isNameOf_root_iff {name : String} :
    IsNameOf .root name ↔ name = "module-info.class" ∨ name = "classes/module-info.class" := by
  constructor
  · intro h
    cases h with
    | root hdirectory =>
      rcases hdirectory with rfl | rfl
      · exact Or.inl rfl
      · exact Or.inr rfl
  · rintro (rfl | rfl)
    · exact .root (Or.inl rfl)
    · exact .root (Or.inr rfl)

/-! ## The pattern -/

namespace Pattern

/-- One text. -/
def word (text : String) : RegularExpression Char :=
  (text.toList.map char).prod

/-- One digit. -/
def digit : RegularExpression Char :=
  ("0123456789".toList.map char).sum

/-- What matches a pattern, or nothing. -/
def optional (pattern : RegularExpression Char) : RegularExpression Char :=
  1 + pattern

/-- A name outside the classes directory. -/
def record : RegularExpression Char :=
  optional (word "META-INF/versions/" * (digit * digit.star * word "/")) * word "module-info.class"

/-- A name of a module record. -/
def name : RegularExpression Char :=
  optional (word "classes/") * record

theorem mem_word_iff {text : String} {chars : List Char} :
    chars ∈ (word text).matches' ↔ chars = text.toList := by
  unfold word
  induction text.toList generalizing chars with
  | nil => rfl
  | cons c rest ih =>
    rw [List.map_cons, List.prod_cons, matches'_mul, matches'_char, Language.mem_mul]
    constructor
    · rintro ⟨first, rfl, others, hothers, rfl⟩
      rw [ih.1 hothers]
      rfl
    · rintro rfl
      exact ⟨[c], rfl, rest, ih.2 rfl, rfl⟩

theorem mem_optional_iff {pattern : RegularExpression Char} {chars : List Char} :
    chars ∈ (optional pattern).matches' ↔ chars = [] ∨ chars ∈ pattern.matches' := by
  unfold optional
  rw [matches'_add, Language.mem_add, matches'_epsilon, Language.mem_one]

theorem mem_sum_iff {row chars : List Char} :
    chars ∈ (row.map char).sum.matches' ↔ ∃ c ∈ row, chars = [c] := by
  induction row with
  | nil => simp [RegularExpression.matches'_zero]
  | cons c row ih =>
    rw [List.map_cons, List.sum_cons, matches'_add, Language.mem_add, ih, List.exists_mem_cons_iff]
    rfl

theorem isDigit_iff_mem {c : Char} : isDigit c = true ↔ c ∈ "0123456789".toList := by
  constructor
  · intro h
    obtain ⟨hlow, hhigh⟩ := isDigit_iff.1 h
    have hlow' : 48 ≤ c.toNat := hlow
    have hhigh' : c.toNat ≤ 57 := hhigh
    rw [← Char.ofNat_toNat c]
    generalize c.toNat = n at hlow' hhigh'
    interval_cases n <;> decide
  · have hall : "0123456789".toList.all isDigit = true := by decide
    exact List.all_eq_true.1 hall c

theorem mem_digit_iff {chars : List Char} :
    chars ∈ digit.matches' ↔ ∃ c, isDigit c = true ∧ chars = [c] := by
  unfold digit
  simp only [mem_sum_iff, isDigit_iff_mem]

theorem mem_star_digit_iff {chars : List Char} :
    chars ∈ digit.star.matches' ↔ ∀ c ∈ chars, isDigit c = true := by
  rw [matches'_star, Language.mem_kstar]
  constructor
  · rintro ⟨row, rfl, hrow⟩ c hc
    obtain ⟨item, hitem, hmem⟩ := List.mem_flatten.1 hc
    obtain ⟨d, hd, rfl⟩ := mem_digit_iff.1 (hrow item hitem)
    rwa [List.mem_singleton.1 hmem]
  · intro h
    refine ⟨chars.map fun c => [c], (List.flatMap_singleton' chars).symm, ?_⟩
    rw [List.forall_mem_map]
    exact fun c hc => mem_digit_iff.2 ⟨c, h c hc, rfl⟩

/-- One digit and any number of others are a row of digits that is not empty. -/
theorem mem_digits_iff {chars : List Char} :
    chars ∈ (digit * digit.star).matches' ↔ chars ≠ [] ∧ ∀ c ∈ chars, isDigit c = true := by
  rw [matches'_mul, Language.mem_mul]
  simp only [mem_digit_iff, mem_star_digit_iff]
  constructor
  · rintro ⟨first, ⟨c, hc, rfl⟩, rest, hrest, rfl⟩
    exact ⟨by simp, List.forall_mem_cons.2 ⟨hc, hrest⟩⟩
  · rintro ⟨hne, h⟩
    cases chars with
    | nil => exact absurd rfl hne
    | cons c rest =>
      rw [List.forall_mem_cons] at h
      exact ⟨[c], ⟨c, h.1, rfl⟩, rest, h.2, rfl⟩

/-- The parts of a pattern that are matched under a version, one behind the other. -/
theorem versioned_parts_eq (digits : List Char) :
    "META-INF/versions/".toList ++ (digits ++ "/".toList) ++ "module-info.class".toList =
      versionsDirectory ++ (digits ++ '/' :: recordName) := by
  rw [List.append_assoc, List.append_assoc]
  rfl

theorem mem_record_iff {text : List Char} :
    text ∈ record.matches' ↔ ∃ kind, kindOf? text = some kind := by
  unfold record
  rw [matches'_mul, Language.mem_mul]
  simp only [mem_optional_iff, matches'_mul (word _), matches'_mul (_ * _), Language.mem_mul,
    mem_word_iff, mem_digits_iff]
  constructor
  · rintro ⟨version, rfl | ⟨_, rfl, _, ⟨digits, ⟨hne, hdigits⟩, _, rfl, rfl⟩, rfl⟩, _, rfl, rfl⟩
    · exact ⟨.root, kindOf?_eq_root_iff.2 rfl⟩
    · exact ⟨.versioned (versionOf digits), kindOf?_eq_versioned_iff.2
        ⟨digits, hne, hdigits, versioned_parts_eq digits, rfl⟩⟩
  · rintro ⟨kind, hkind⟩
    cases kind with
    | root => exact ⟨[], Or.inl rfl, _, rfl, (kindOf?_eq_root_iff.1 hkind).symm⟩
    | versioned version =>
      obtain ⟨digits, hne, hdigits, rfl, -⟩ := kindOf?_eq_versioned_iff.1 hkind
      exact ⟨_, Or.inr ⟨_, rfl, _, ⟨digits, ⟨hne, hdigits⟩, _, rfl, rfl⟩, rfl⟩, _, rfl,
        versioned_parts_eq digits⟩

end Pattern

/-- The grammar and the pattern describe the same names. -/
theorem exists_isNameOf_iff {name : String} :
    (∃ kind, IsNameOf kind name) ↔ name.toList ∈ Pattern.name.matches' := by
  unfold Pattern.name
  simp only [← classify_eq_some_iff, classify_eq_some_iff_kindOf?]
  rw [matches'_mul, Language.mem_mul]
  simp only [Pattern.mem_optional_iff, Pattern.mem_word_iff, Pattern.mem_record_iff]
  constructor
  · rintro ⟨kind, directory, text, hdirectory, rfl, hkind⟩
    refine ⟨directory.toList, ?_, text.toList, ⟨kind, hkind⟩, String.toList_append.symm⟩
    exact hdirectory.imp (congrArg String.toList) (congrArg String.toList)
  · rintro ⟨directory, hdirectory, text, ⟨kind, hkind⟩, hname⟩
    obtain ⟨directory, rfl⟩ := exists_toList_eq directory
    obtain ⟨text, rfl⟩ := exists_toList_eq text
    refine ⟨kind, directory, text, ?_, String.toList_inj.1 ?_, hkind⟩
    · exact hdirectory.imp (fun h => String.toList_inj.1 h) fun h => String.toList_inj.1 h
    · rw [String.toList_append, hname]

/-! ## Names -/

/-- A name stands for the root if it is one of two names, for a version if it is a version directory
with digits of that value in it, with or without the directory of classes in front, and for nothing
if it is neither. The names that stand for something are those that match the pattern. -/
theorem classify_outcome (name : String) :
    (classify name = some .root ↔ name = "module-info.class" ∨ name = "classes/module-info.class") ∧
      (∀ version, classify name = some (.versioned version) ↔ IsNameOf (.versioned version) name) ∧
      (classify name = none ↔ ∀ kind, ¬ IsNameOf kind name) ∧
      ((∃ kind, IsNameOf kind name) ↔ name.toList ∈ Pattern.name.matches') := by
  refine ⟨classify_eq_some_iff.trans isNameOf_root_iff, fun version => classify_eq_some_iff, ?_,
    exists_isNameOf_iff⟩
  rw [Option.eq_none_iff_forall_ne_some]
  simp only [ne_eq, classify_eq_some_iff]

/-- Zeros in front do not count, and a value beyond the limit is the limit. -/
example : classify "classes/META-INF/versions/0004294967296/module-info.class" =
    some (.versioned 4294967295) := by
  decide

/-- The directory of classes is taken off once only. -/
example : classify "classes/classes/module-info.class" = none := by
  decide

end Archive
end ModuleRecord
