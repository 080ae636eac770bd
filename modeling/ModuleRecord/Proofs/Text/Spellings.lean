import ModuleRecord.Proofs.Text.ModifiedUtf8

/-!
# Spellings and written forms of texts

A byte string reads as a text exactly if it spells the units of the text, in groups of any admitted
length, and it reads at all exactly if it spells units whose surrogates all stand in pairs
(`reads_spellings`). Among the spellings of a text its written form is the only shortest one. It has
no byte that is zero or above `EF`, and a size that can be told from the characters
(`written_form`).
-/

namespace ModuleRecord
namespace ModifiedUtf8

/-! ## Shortest spellings -/

/-- A spelling of the shortest length is the written form of its units. -/
theorem eq_flatMap_ofUnit_of_length {bytes : Bytes} {units : List UInt16} (h : Spells bytes units)
    (hlen : (units.flatMap ofUnit).length = bytes.length) : units.flatMap ofUnit = bytes := by
  obtain ⟨groups, hgroups, rfl⟩ := h
  induction hgroups with
  | nil => rfl
  | @cons group unit groups units hgroup hgroups ih =>
    have hfirst := hgroup.ofUnit_le
    have hrest := length_flatMap_ofUnit_le ⟨groups, hgroups, rfl⟩
    rw [List.flatMap_cons, List.flatten_cons, List.length_append, List.length_append] at hlen
    -- neither part is longer than it has to be, so both are as long as they have to be
    rw [List.flatMap_cons, List.flatten_cons, ih (by omega), hfirst.2 (by omega)]

/-- Bytes that read as a text are no shorter than its written form, and as long only if they are
that form. -/
theorem encode_eq_of_length {bytes : Bytes} {text : String} (h : decode? bytes = some text)
    (hlen : (encode text).length = bytes.length) : encode text = bytes :=
  eq_flatMap_ofUnit_of_length (decode?_eq_some_iff.1 h) hlen

/-- Bytes read as some text exactly if they spell units whose surrogates all stand in pairs. -/
theorem exists_decode?_eq_some_iff {bytes : Bytes} :
    (∃ text, decode? bytes = some text) ↔ ∃ units, Spells bytes units ∧ Utf16.IsPaired units := by
  constructor
  · rintro ⟨text, htext⟩
    exact ⟨_, decode?_eq_some_iff.1 htext, Utf16.exists_encode_iff.1 ⟨text.toList, rfl⟩⟩
  · rintro ⟨units, hspells, hpaired⟩
    obtain ⟨chars, rfl⟩ := Utf16.exists_encode_iff.2 hpaired
    refine ⟨String.ofList chars, decode?_eq_some_iff.2 ?_⟩
    rw [String.toList_ofList]
    exact hspells

/-- Bytes read as a text exactly if they are groups whose units are those of the text, and as some
text exactly if the surrogates among the units of the groups stand in pairs. The short way for plain
bytes finds what the general one does. The written form of a text is the shortest of its spellings,
and no other one is as short. -/
theorem reads_spellings (bytes : Bytes) :
    (∀ text, decode? bytes = some text ↔ Spells bytes (Utf16.encode text.toList)) ∧
    ((∃ text, decode? bytes = some text) ↔
      ∃ units, Spells bytes units ∧ Utf16.IsPaired units) ∧
    (bytes.all isPlain = true → decodeGroups? bytes = some (decodePlain bytes)) ∧
    ∀ text, decode? bytes = some text → (encode text).length ≤ bytes.length ∧
      ((encode text).length = bytes.length ↔ encode text = bytes) := by
  refine ⟨fun text => decode?_eq_some_iff, exists_decode?_eq_some_iff, ?_, ?_⟩
  · intro hplain
    exact decodeGroups?_eq_some_iff.2 (spells_of_plain hplain)
  · intro text htext
    refine ⟨length_encode_le htext, encode_eq_of_length htext, ?_⟩
    intro heq
    rw [heq]

/-- A letter may be spelled in two bytes, which is not its written form, but not in bytes that are
plain. -/
theorem longLetter_reads_spellings :
    decode? [0xC1, 0x81, 0x42] = some "AB" ∧
    Spells [0xC1, 0x81, 0x42] (Utf16.encode "AB".toList) ∧ encode "AB" ≠ [0xC1, 0x81, 0x42] ∧
    [0x41, 0x42].all isPlain = true ∧
    decodeGroups? [0x41, 0x42] = some (decodePlain [0x41, 0x42]) := by
  have hlong : decode? [0xC1, 0x81, 0x42] = some "AB" := by rfl
  have hplain : [0x41, 0x42].all isPlain = true := by rfl
  obtain ⟨hspells, -, -, hshortest⟩ := reads_spellings [0xC1, 0x81, 0x42]
  obtain ⟨-, -, hshort, -⟩ := reads_spellings [0x41, 0x42]
  refine ⟨hlong, (hspells "AB").1 hlong, ?_, hplain, hshort hplain⟩
  intro heq
  have hlen := (hshortest "AB" hlong).2.2 heq
  exact absurd hlen (by decide)

/-! ## Written forms -/

/-- No byte of a group is zero or above `EF`. -/
theorem Group.bounds {group : Bytes} {unit : UInt16} (h : Group group unit) :
    ∀ byte ∈ group, 0x01 ≤ byte.toNat ∧ byte.toNat < 0xF0 := by
  cases h with
  | one ha =>
    rw [List.forall_mem_singleton]
    omega
  | two ha hb =>
    rw [List.forall_mem_cons, List.forall_mem_singleton]
    omega
  | three ha hb hc =>
    rw [List.forall_mem_cons, List.forall_mem_cons, List.forall_mem_singleton]
    omega

/-- The number of bytes that a character is written in. -/
def charSize (c : Char) : Nat :=
  if 0x01 ≤ c.toNat ∧ c.toNat ≤ 0x7F then 1
  else if c.toNat ≤ 0x7FF then 2
  else if c.toNat ≤ 0xFFFF then 3
  else 6

/-- A surrogate takes three bytes. -/
theorem groupSize_of_surrogate {unit : UInt16} (h : 0xD800 ≤ unit.toNat) : groupSize unit = 3 := by
  rw [← length_ofUnit, ofUnit_of_three (by omega)]
  rfl

theorem length_flatMap_ofChar (c : Char) :
    ((Utf16.ofChar c).flatMap ofUnit).length = charSize c := by
  by_cases hplane : c.toNat < 0x10000
  · have hunit := Utf16.toNat_unit hplane
    rw [Utf16.ofChar_of_lt hplane, List.flatMap_singleton, charSize]
    rcases unit_cases (UInt16.ofNat c.toNat) with h | ⟨h, hle⟩ | h
    · rw [ofUnit_of_one h, if_pos (by omega)]
      rfl
    · rw [ofUnit_of_two h hle, if_neg (by omega), if_pos (by omega)]
      rfl
    · rw [ofUnit_of_three h, if_neg (by omega), if_neg (by omega), if_pos (by omega)]
      rfl
  · obtain ⟨high, low, hunits, hhigh, hlow, -⟩ := Utf16.ofChar_of_ge (Nat.le_of_not_lt hplane)
    rw [Utf16.isHigh_iff] at hhigh
    rw [Utf16.isLow_iff] at hlow
    rw [hunits, List.flatMap_cons, List.flatMap_singleton, List.length_append, length_ofUnit,
      length_ofUnit, groupSize_of_surrogate hhigh.1, groupSize_of_surrogate (by omega), charSize,
      if_neg (by omega), if_neg (by omega), if_neg (by omega)]

/-- A text is written in as many bytes as its characters are. -/
theorem length_encode (text : String) :
    (encode text).length = (text.toList.map charSize).sum := by
  rw [encode, Utf16.encode, List.flatMap_assoc, List.length_flatMap]
  simp only [length_flatMap_ofChar]

/-- Every text reads back from its written form, in which there is no byte that is zero or above
`EF`. The form takes one byte for each character from `01` to `7F`, two for zero and up to `7FF`,
three for the others of the basic plane, and six for any other. -/
theorem written_form (text : String) :
    decode? (encode text) = some text ∧
    (∀ byte ∈ encode text, byte ≠ 0x00 ∧ byte < 0xF0) ∧
    (encode text).length = (text.toList.map charSize).sum := by
  refine ⟨decode?_encode text, ?_, length_encode text⟩
  intro byte hbyte
  obtain ⟨unit, -, hunit⟩ := List.mem_flatMap.1 hbyte
  obtain ⟨hpos, hlt⟩ := (group_ofUnit unit).bounds byte hunit
  refine ⟨?_, UInt8.lt_iff_toNat_lt.2 hlt⟩
  rintro rfl
  exact absurd hpos (by decide)

/-- The character behind the zero is written as its two surrogates. -/
example : encode "\x00😀" = [0xC0, 0x80, 0xED, 0xA0, 0xBD, 0xED, 0xB8, 0x80] := by
  rfl

end ModifiedUtf8
end ModuleRecord
