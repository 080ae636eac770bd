import Mathlib.Data.List.Forall2
import ModuleRecord.Json.Scanner
import ModuleRecord.Proofs.Json.Strings

/-!
# Texts as they are written are scanned

A text spells a value if the scanner, wherever a value is due, has that value complete behind the
text (`Spells`). There is one law for each way in which texts are written: words, strings, lists and
objects. A text that spells a value is scanned into it (`scan_of_spells`).
-/

namespace ModuleRecord
namespace Json

open Scanner (step complete)

/-- A text spells a value: wherever a value is due, it completes that value. -/
structure Spells (text : List Char) (node : Node) : Prop where
  /-- It begins with a character that also begins the first item of a list. -/
  head : ∃ c rest, text = c :: rest ∧ Scanner.isBlank c = false ∧ c ≠ ']'
  completes : ∀ frames, text.foldl step ⟨frames, .value⟩ = complete frames node

/-- In place of the first item of a list, the text completes its value as well. -/
theorem Spells.firstItem {text : List Char} {node : Node} (h : Spells text node)
    (frames : List Frame) : text.foldl step ⟨frames, .firstItem⟩ = complete frames node := by
  obtain ⟨c, rest, rfl, hblank, hend⟩ := h.head
  have hvalue := h.completes frames
  rw [List.foldl_cons] at hvalue ⊢
  have hfirst : step ⟨frames, .firstItem⟩ c = step ⟨frames, .value⟩ c := by
    simp only [step, Scanner.stepSpaced, hblank, Scanner.stepBetween, if_neg hend,
      Bool.false_eq_true, if_false]
  rw [hfirst, hvalue]

theorem scan_of_spells {text : List Char} {node : Node} (h : Spells text node) :
    scan (String.ofList text) = ⟨node, false⟩ := by
  unfold scan
  rw [String.toList_ofList]
  exact congrArg Scanner.finish (h.completes [])

/-! ## Words -/

theorem spells_null : Spells ['n', 'u', 'l', 'l'] .null :=
  ⟨⟨_, _, rfl, by decide, by decide⟩, fun _ => rfl⟩

theorem spells_bool (value : Bool) : Spells (Text.bool value) (.bool value) := by
  cases value with
  | false => exact ⟨⟨_, _, rfl, by decide, by decide⟩, fun _ => rfl⟩
  | true => exact ⟨⟨_, _, rfl, by decide, by decide⟩, fun _ => rfl⟩

/-! ## Strings -/

/-- A scanner within a string goes on with it. -/
theorem foldl_of_takes {scan last : StringScan} {text : List Char} {frames : List Frame}
    (mode : StringScan → Mode)
    (hmode : ∀ scan next c, scan.step c = .more next →
      step ⟨frames, mode scan⟩ c = ⟨frames, mode next⟩)
    (h : scan.Takes text last) : text.foldl step ⟨frames, mode scan⟩ = ⟨frames, mode last⟩ := by
  induction h with
  | nil scan => rfl
  | cons hstep _ ih => rw [List.foldl_cons, hmode _ _ _ hstep, ih]

/-- From its opening quote on, a string takes all its characters. -/
theorem takes_start (text : String) :
    StringScan.start.Takes (text.toList.flatMap Text.escape)
      ⟨text.toList.reverse, false, .plain⟩ := by
  have h := @StringScan.takes_flatMap_escape [] false text.toList
  rwa [List.append_nil] at h

theorem spells_string (text : String) : Spells (Text.string text) (.string (some text)) := by
  refine ⟨⟨'"', _, rfl, by decide, by decide⟩, fun frames => ?_⟩
  unfold Text.string
  rw [List.cons_append, List.foldl_cons, List.foldl_append]
  change [_].foldl step ((text.toList.flatMap Text.escape).foldl step ⟨frames, .string .start⟩) = _
  rw [foldl_of_takes .string (fun _ _ _ h => by simp only [step, h]) (takes_start text)]
  simp only [List.foldl_cons, List.foldl_nil, step, StringScan.step_quote_of_plain]

/-- Where a key is due, a string is taken as one. -/
theorem foldl_key {frames : List Frame} {mode : Mode} (key : String)
    (hmode : step ⟨frames, mode⟩ '"' = ⟨frames, .keyString .start⟩) :
    (Text.string key).foldl step ⟨frames, mode⟩ = ⟨frames, .colon (some key)⟩ := by
  unfold Text.string
  rw [List.cons_append, List.foldl_cons, List.foldl_append, hmode]
  rw [foldl_of_takes .keyString (fun _ _ _ h => by simp only [step, h]) (takes_start key)]
  simp only [List.foldl_cons, List.foldl_nil, step, StringScan.step_quote_of_plain]

/-! ## Rows -/

section Row
variable {α : Type} {R : List Char → α → Prop} {opened : Scanner} (after : List α → Scanner)

/-- A row of pieces with a comma before each adds what the pieces stand for, one after the other. -/
theorem foldl_row_rest {texts : List (List Char)} {values : List α}
    (hnext : ∀ text value done, R text value →
      (',' :: text).foldl step (after done) = after (value :: done))
    (h : List.Forall₂ R texts values) (done : List α) :
    (texts.flatMap (',' :: ·)).foldl step (after done) = after (values.reverse ++ done) := by
  induction h generalizing done with
  | nil => rfl
  | cons hvalue _ ih =>
    rw [List.flatMap_cons, List.foldl_append, hnext _ _ done hvalue, ih, List.reverse_cons,
      List.append_assoc, List.singleton_append]

theorem intercalate_cons (text : List Char) (texts : List (List Char)) :
    [','].intercalate (text :: texts) = text ++ texts.flatMap (',' :: ·) := by
  induction texts generalizing text with
  | nil => rw [List.intercalate_singleton, List.flatMap_nil, List.append_nil]
  | cons next texts ih =>
    rw [List.intercalate_cons_cons, ih, List.flatMap_cons, List.append_assoc, List.singleton_append,
      List.cons_append]

/-- A row of pieces with commas between them adds what the pieces stand for. -/
theorem foldl_row {text : List Char} {texts : List (List Char)} {value : α} {values : List α}
    (hfirst : ∀ text value, R text value → text.foldl step opened = after [value])
    (hnext : ∀ text value done, R text value →
      (',' :: text).foldl step (after done) = after (value :: done))
    (h : List.Forall₂ R (text :: texts) (value :: values)) :
    ([','].intercalate (text :: texts)).foldl step opened = after (value :: values).reverse := by
  cases h with
  | cons hvalue hvalues =>
    rw [intercalate_cons, List.foldl_append, hfirst _ _ hvalue, foldl_row_rest after hnext hvalues,
      List.reverse_cons]

end Row

/-! ## Lists -/

theorem spells_array {texts : List (List Char)} {nodes : List Node}
    (h : List.Forall₂ Spells texts nodes) : Spells (Text.array texts) (.array nodes none) := by
  refine ⟨⟨'[', _, rfl, by decide, by decide⟩, fun frames => ?_⟩
  cases h with
  | nil => rfl
  | cons hnode hnodes =>
    unfold Text.array
    rw [List.cons_append, List.foldl_cons, List.foldl_append]
    change [']'].foldl step (List.foldl step ⟨.items [] :: frames, .firstItem⟩ _) = _
    rw [foldl_row (fun done => ⟨.items done :: frames, .nextItem⟩)
      (fun _ _ h => h.firstItem _) (fun _ _ _ h => h.completes _) (.cons hnode hnodes)]
    change complete frames (.array (List.reverse _).reverse none) = _
    rw [List.reverse_reverse]

/-! ## Objects -/

/-- A member of a text stands for a member of a node. -/
structure MemberSpells (member : Text.Member) (entry : Option String × Node) : Prop where
  key : entry.1 = some member.key
  value : Spells member.value entry.2

/-- Where a key is due in an object, a member adds itself. -/
theorem MemberSpells.foldl {member : Text.Member} {entry : Option String × Node} {mode : Mode}
    {done : List (Option String × Node)} {frames : List Frame} (h : MemberSpells member entry)
    (hmode : step ⟨.members done :: frames, mode⟩ '"' =
      ⟨.members done :: frames, .keyString .start⟩) :
    member.text.foldl step ⟨.members done :: frames, mode⟩ =
      ⟨.members (entry :: done) :: frames, .nextMember⟩ := by
  obtain ⟨key, node⟩ := entry
  obtain ⟨rfl, hvalue⟩ := h
  unfold Text.Member.text
  rw [List.foldl_append, foldl_key member.key hmode, List.foldl_cons]
  exact hvalue.completes (.member done (some member.key) :: frames)

theorem spells_object {members : List Text.Member} {entries : List (Option String × Node)}
    (h : List.Forall₂ MemberSpells members entries) :
    Spells (Text.object members) (.object entries none) := by
  refine ⟨⟨'\x7b', _, rfl, by decide, by decide⟩, fun frames => ?_⟩
  have hrow : List.Forall₂ (fun text entry => ∃ member, text = Text.Member.text member ∧
      MemberSpells member entry) (members.map Text.Member.text) entries :=
    List.forall₂_map_left_iff.2 (h.imp fun member _ hmember => ⟨member, rfl, hmember⟩)
  cases h with
  | nil => rfl
  | cons _ _ =>
    unfold Text.object
    rw [List.cons_append, List.foldl_cons, List.foldl_append]
    change ['\x7d'].foldl step (List.foldl step ⟨.members [] :: frames, .firstKey⟩ _) = _
    rw [List.map_cons, foldl_row (fun done => ⟨.members done :: frames, .nextMember⟩)
      (fun _ _ ⟨_, htext, h⟩ => htext ▸ h.foldl rfl)
      (fun _ _ _ ⟨_, htext, h⟩ => htext ▸ h.foldl rfl) hrow]
    change complete frames (.object (List.reverse _).reverse none) = _
    rw [List.reverse_reverse]

end Json
end ModuleRecord
