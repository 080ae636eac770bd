import Mathlib.Data.List.Pairwise
import Mathlib.Data.List.Perm.Basic
import ModuleRecord.Json.Decode
import ModuleRecord.Proofs.Fallible
import ModuleRecord.Proofs.Json.Scanner

/-!
# Values as they are written are taken out of their texts

A decoder takes a value out of the written form of that value (`Decodes`). The members of a record
may be written in any order, and those that have their default value may be left out (`IsForm`); the
record that is read is the same in every such form (`decodes_record`).
-/

namespace ModuleRecord
namespace Json

open Text (Member)

namespace Text.Member

@[simp] theorem key_always (key : String) (value : List Char) : (always key value).key = key := rfl

@[simp] theorem key_flag (key : String) (value : Bool) : (flag key value).key = key := rfl

@[simp] theorem key_optional (key : String) (value : Option String) :
    (optional key value).key = key := rfl

@[simp] theorem key_list (key : String) (items : List (List Char)) :
    (list key items).key = key := rfl

@[simp] theorem isDefault_always (key : String) (value : List Char) :
    (always key value).isDefault = false := rfl

end Text.Member

/-! ## Simple values and lists -/

section Values
variable {α : Type}

/-- A decoder takes a value out of the node that a text spells. -/
def Decodes (decoder : Decoder α) (text : List Char) (value : α) : Prop :=
  ∃ node, Spells text node ∧ decoder node = .ok value

theorem decodes_text (text : String) : Decodes Decoder.text (Text.string text) text :=
  ⟨_, spells_string text, rfl⟩

theorem decodes_optionalText (text : Option String) :
    Decodes Decoder.optionalText (Text.optionalString text) text := by
  cases text with
  | none => exact ⟨_, spells_null, rfl⟩
  | some text => exact ⟨_, spells_string text, rfl⟩

theorem decodes_flag (value : Bool) : Decodes Decoder.flag (Text.bool value) value :=
  ⟨_, spells_bool value, rfl⟩

theorem decodes_list {item : Decoder α} {texts : List (List Char)} {values : List α}
    (h : List.Forall₂ (Decodes item) texts values) :
    Decodes (Decoder.list item) (Text.array texts) values := by
  have hnodes : ∃ nodes, List.Forall₂ Spells texts nodes ∧
      List.Forall₂ (fun node value => item node = .ok value) nodes values := by
    induction h with
    | nil => exact ⟨[], .nil, .nil⟩
    | cons hvalue _ ih =>
      obtain ⟨node, hspells, hvalue⟩ := hvalue
      obtain ⟨nodes, hnodes, hvalues⟩ := ih
      exact ⟨node :: nodes, .cons hspells hnodes, .cons hvalue hvalues⟩
  obtain ⟨nodes, hspells, hvalues⟩ := hnodes
  refine ⟨_, spells_array hspells, ?_⟩
  exact Fallible.bind_eq_ok_iff.2 ⟨values, Fallible.mapM_eq_ok_iff.2 hvalues, rfl⟩

theorem forall₂_decodes_text (texts : List String) :
    List.Forall₂ (Decodes Decoder.text) (texts.map Text.string) texts :=
  List.forall₂_map_left_iff.2 (List.forall₂_same.2 fun text _ => decodes_text text)

end Values

/-! ## Members of a record -/

section Records
variable {ρ : Type} {fields : List (Field ρ)} {start : ρ}

/-- A member puts something into a record: the field of its key takes that out of its value. If the
member may be left out, the record that the fields are put into has it from the start. -/
structure Fills (fields : List (Field ρ)) (start : ρ) (member : Member) (put : ρ → ρ) : Prop where
  decodes : ∃ field, fields.find? (·.key == member.key) = some field ∧
    Decodes field.read member.value put
  default : member.isDefault = true → put start = start

section Members
variable {α : Type} {key : String} {isRequired : Bool}

theorem fills_of_decodes {decoder : Decoder α} {put : α → ρ → ρ} {text : List Char} {value : α}
    {isDefault : Bool}
    (hfield : fields.find? (·.key == key) =
      some ⟨key, isRequired, fun node => put <$> decoder node⟩)
    (h : Decodes decoder text value) (hdefault : isDefault = true → put value start = start) :
    Fills fields start ⟨key, text, isDefault⟩ (put value) := by
  obtain ⟨node, hspells, hvalue⟩ := h
  refine ⟨⟨_, hfield, node, hspells, ?_⟩, hdefault⟩
  change put <$> decoder node = _
  rw [hvalue]
  rfl

theorem fills_text {put : String → ρ → ρ} (text : String)
    (hfield : fields.find? (·.key == key) =
      some ⟨key, isRequired, fun node => put <$> Decoder.text node⟩) :
    Fills fields start (.always key (Text.string text)) (put text) :=
  fills_of_decodes hfield (decodes_text text) fun h => absurd h (by decide)

theorem fills_optional {put : Option String → ρ → ρ} (text : Option String)
    (hfield : fields.find? (·.key == key) =
      some ⟨key, isRequired, fun node => put <$> Decoder.optionalText node⟩)
    (hstart : put none start = start) : Fills fields start (.optional key text) (put text) := by
  refine fills_of_decodes hfield (decodes_optionalText text) fun h => ?_
  rw [Option.isNone_iff_eq_none.1 h, hstart]

theorem fills_flag {put : Bool → ρ → ρ} (value : Bool)
    (hfield : fields.find? (·.key == key) =
      some ⟨key, isRequired, fun node => put <$> Decoder.flag node⟩)
    (hstart : put false start = start) : Fills fields start (.flag key value) (put value) := by
  refine fills_of_decodes hfield (decodes_flag value) fun h => ?_
  rw [Bool.not_eq_eq_eq_not.1 h, Bool.not_true, hstart]

theorem fills_list {item : Decoder α} {put : List α → ρ → ρ} {texts : List (List Char)}
    {values : List α} (h : List.Forall₂ (Decodes item) texts values)
    (hfield : fields.find? (·.key == key) =
      some ⟨key, isRequired, fun node => put <$> Decoder.list item node⟩)
    (hstart : put [] start = start) : Fills fields start (.list key texts) (put values) := by
  refine fills_of_decodes hfield (decodes_list h) fun hempty => ?_
  rw [List.isEmpty_iff.1 hempty, List.forall₂_nil_left_iff] at h
  rw [h, hstart]

end Members

/-! ## Whole records -/

/-- A text of an object: its members in any order, but for some that have their default value. -/
def IsForm (members : List Member) (text : List Char) : Prop :=
  ∃ written omitted : List Member, (written ++ omitted).Perm members ∧
    (∀ member ∈ omitted, member.isDefault = true) ∧ text = Text.object written

/-- The text of an object in which default values are written out for certain keys only. -/
def spelledOut (keys : List String) (members : List Member) : List Char :=
  Text.object (members.filter fun member => !member.isDefault || keys.contains member.key)

theorem spelledOut_nil (members : List Member) : spelledOut [] members = Text.compact members := by
  unfold spelledOut Text.compact
  simp only [List.contains_nil, Bool.or_false]

theorem isForm_spelledOut (keys : List String) (members : List Member) :
    IsForm members (spelledOut keys members) := by
  refine ⟨_, _, List.filter_append_perm _ members, fun member hmember => ?_, rfl⟩
  have hleft := (List.mem_filter.1 hmember).2
  rw [Bool.not_eq_true', Bool.or_eq_false_iff, Bool.not_eq_false'] at hleft
  exact hleft.1

example : spelledOut ["b"] [.flag "a" true, .flag "b" false, .flag "c" false] =
    "\x7b\"a\":true,\"b\":false\x7d".toList := by
  decide

theorem forall₂_isForm_spelledOut {members : ρ → List Member} (keys : List String)
    (items : List ρ) :
    List.Forall₂ (fun text item => IsForm (members item) text)
      (items.map fun item => spelledOut keys (members item)) items :=
  List.forall₂_map_left_iff.2
    (List.forall₂_same.2 fun item _ => isForm_spelledOut keys (members item))

/-- A member whose key is new is taken in. -/
theorem Fills.gather {member : Member} {put : ρ → ρ} (h : Fills fields start member put)
    {gathered : Gathered ρ} (hnew : member.key ∉ gathered.keys) :
    ∃ entry, MemberSpells member entry ∧ Decoder.gather fields gathered entry =
      .ok ⟨put gathered.record, member.key :: gathered.keys⟩ := by
  obtain ⟨field, hfield, node, hspells, hput⟩ := h.decodes
  have hfree : ¬ gathered.keys.contains member.key = true := by
    rw [List.contains_iff_mem]
    exact hnew
  refine ⟨(some member.key, node), ⟨rfl, hspells⟩, ?_⟩
  simp only [Decoder.gather, hfield, hput, if_neg hfree]
  rfl

/-- What becomes of a record into which one thing after the other is put. -/
def putAll (puts : List (ρ → ρ)) (record : ρ) : ρ :=
  puts.foldl (fun record put => put record) record

/-- One member after the other is taken in. -/
theorem gather_members {members : List Member} {puts : List (ρ → ρ)}
    (h : List.Forall₂ (Fills fields start) members puts) (gathered : Gathered ρ)
    (hkeys : (members.map Member.key).Nodup)
    (hnew : ∀ key ∈ members.map Member.key, key ∉ gathered.keys) :
    ∃ entries, List.Forall₂ MemberSpells members entries ∧
      entries.foldlM (Decoder.gather fields) gathered =
        .ok ⟨putAll puts gathered.record, (members.map Member.key).reverse ++ gathered.keys⟩ := by
  induction h generalizing gathered with
  | nil => exact ⟨[], .nil, rfl⟩
  | @cons member put members puts hmember _ ih =>
    rw [List.map_cons, List.nodup_cons] at hkeys
    rw [List.map_cons, List.forall_mem_cons] at hnew
    obtain ⟨entry, hentry, hgather⟩ := hmember.gather hnew.1
    have hnext : ∀ key ∈ members.map Member.key, key ∉ member.key :: gathered.keys := by
      intro key hkey hmem
      rcases List.mem_cons.1 hmem with rfl | hmem
      · exact hkeys.1 hkey
      · exact hnew.2 key hkey hmem
    obtain ⟨entries, hentries, hrun⟩ :=
      ih ⟨put gathered.record, member.key :: gathered.keys⟩ hkeys.2 hnext
    refine ⟨entry :: entries, .cons hentry hentries, ?_⟩
    rw [List.foldlM_cons, hgather]
    change entries.foldlM (Decoder.gather fields) _ = _
    rw [hrun, List.map_cons, List.reverse_cons, List.append_assoc]
    rfl

/-- What members with default values would put into a record is there from the start. -/
theorem putAll_defaults {members : List Member} {puts : List (ρ → ρ)}
    (h : List.Forall₂ (Fills fields start) members puts)
    (hdefault : ∀ member ∈ members, member.isDefault = true) : putAll puts start = start := by
  unfold putAll
  induction h with
  | nil => rfl
  | cons hmember _ ih =>
    rw [List.forall_mem_cons] at hdefault
    rw [List.foldl_cons, hmember.default hdefault.1, ih hdefault.2]

/-- Where the order makes no difference, what is put in besides the members with default values
makes up the whole record. -/
theorem putAll_written {omitted : List Member} {puts first second : List (ρ → ρ)}
    (hperm : (first ++ second).Perm puts)
    (hcommute : puts.Pairwise fun put put' => ∀ record, put (put' record) = put' (put record))
    (homitted : List.Forall₂ (Fills fields start) omitted second)
    (hdefault : ∀ member ∈ omitted, member.isDefault = true) :
    putAll first start = putAll puts start := by
  have : Std.Symm fun put put' : ρ → ρ => ∀ record, put (put' record) = put' (put record) :=
    ⟨fun _ _ h record => (h record).symm⟩
  have hall := hcommute.forall_of_forall fun _ _ _ => rfl
  have hperm' : puts.Perm (second ++ first) := hperm.symm.trans List.perm_append_comm
  have hsecond := putAll_defaults homitted hdefault
  unfold putAll at hsecond ⊢
  rw [hperm'.foldl_eq' (fun put hput put' hput' record => hall hput' hput record),
    List.foldl_append, hsecond]

theorem exists_append_of_forall₂ {β γ : Type} {R : β → γ → Prop} {before after : List β}
    {row : List γ} (h : List.Forall₂ R (before ++ after) row) :
    ∃ first second, row = first ++ second ∧ List.Forall₂ R before first ∧
      List.Forall₂ R after second := by
  induction before generalizing row with
  | nil => exact ⟨[], row, rfl, .nil, h⟩
  | cons item before ih =>
    cases h with
    | cons hitem hitems =>
      obtain ⟨first, second, rfl, hfirst, hsecond⟩ := ih hitems
      exact ⟨_ :: first, second, rfl, .cons hitem hfirst, hsecond⟩

/-- Once all required fields have been there, nothing is missing. -/
theorem any_missing_eq_false {keys : List String}
    (h : ∀ field ∈ fields, field.isRequired = true → field.key ∈ keys) :
    (fields.any fun field => field.isRequired && !keys.contains field.key) = false := by
  refine List.any_eq_false.2 fun field hfield hmissing => ?_
  rw [Bool.and_eq_true] at hmissing
  rw [List.contains_iff_mem.2 (h field hfield hmissing.1)] at hmissing
  exact absurd hmissing.2 (by decide)

/-- A record is read from each form of its members, if what they put into it makes it up and does so
in any order. -/
theorem decodes_record {members : List Member} {puts : List (ρ → ρ)} {record : ρ}
    {text : List Char} (hfills : List.Forall₂ (Fills fields start) members puts)
    (hkeys : (members.map Member.key).Nodup)
    (hrequired : ∀ field ∈ fields, field.isRequired = true →
      ∃ member ∈ members, member.key = field.key ∧ member.isDefault = false)
    (hcommute : puts.Pairwise fun put put' => ∀ record, put (put' record) = put' (put record))
    (hputs : putAll puts start = record)
    (hform : IsForm members text) : Decodes (Decoder.record fields start) text record := by
  obtain ⟨written, omitted, hperm, hdefault, rfl⟩ := hform
  obtain ⟨puts', hfills, hputs'⟩ := List.perm_comp_forall₂ hperm hfills
  obtain ⟨first, second, rfl, hwritten, homitted⟩ := exists_append_of_forall₂ hfills
  have hnodup : (written.map Member.key).Nodup := by
    have hall := (hperm.map Member.key).nodup_iff.2 hkeys
    rw [List.map_append] at hall
    exact (List.nodup_append.1 hall).1
  obtain ⟨entries, hentries, hrun⟩ := gather_members hwritten ⟨start, []⟩ hnodup (by simp)
  have hcomplete : ∀ field ∈ fields, field.isRequired = true →
      field.key ∈ (written.map Member.key).reverse ++ [] := by
    intro field hfield hmust
    obtain ⟨member, hmember, hkey, hgiven⟩ := hrequired field hfield hmust
    rw [List.append_nil, List.mem_reverse, ← hkey]
    refine List.mem_map_of_mem ?_
    rcases List.mem_append.1 (hperm.mem_iff.2 hmember) with hmem | hmem
    · exact hmem
    · exact absurd (hdefault member hmem) (by rw [hgiven]; decide)
  refine ⟨_, spells_object hentries, Fallible.bind_eq_ok_iff.2 ⟨_, hrun, ?_⟩⟩
  simp only [any_missing_eq_false hcomplete, putAll_written hputs' hcommute homitted hdefault,
    hputs]
  rfl

end Records
end Json
end ModuleRecord
