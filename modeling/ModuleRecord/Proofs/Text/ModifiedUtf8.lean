import Mathlib.Algebra.Ring.Nat
import Mathlib.Data.List.Forall2
import ModuleRecord.Proofs.Text.Utf16
import ModuleRecord.Text.ModifiedUtf8

/-!
# The groups of modified UTF-8

`Group` says which bytes spell which unit, without reference to how they are read or written, and
`Spells` extends it to byte strings. Reading follows exactly this grammar (`decode?_eq_some_iff`).
Writing takes the shortest group for each unit, with two bytes for zero, so that the written form
of a text is no longer than any other of its spellings, and is the only canonical one
(`encode_eq_iff_isCanonical`).
-/

namespace ModuleRecord
namespace ModifiedUtf8

/-! ## The grammar -/

/-- A group of one, two or three bytes and the unit that it spells. -/
inductive Group : Bytes → UInt16 → Prop where
  /-- A byte from `01` to `7F` spells its own value. -/
  | one {a : UInt8} (ha : 0x01 ≤ a.toNat ∧ a.toNat ≤ 0x7F) : Group [a] (UInt16.ofNat a.toNat)
  /-- A lead byte from `C0` to `DF` and one continuation byte. -/
  | two {a b : UInt8} (ha : 0xC0 ≤ a.toNat ∧ a.toNat ≤ 0xDF)
      (hb : 0x80 ≤ b.toNat ∧ b.toNat ≤ 0xBF) :
      Group [a, b] (UInt16.ofNat ((a.toNat - 0xC0) * 64 + (b.toNat - 0x80)))
  /-- A lead byte from `E0` to `EF` and two continuation bytes. -/
  | three {a b c : UInt8} (ha : 0xE0 ≤ a.toNat ∧ a.toNat ≤ 0xEF)
      (hb : 0x80 ≤ b.toNat ∧ b.toNat ≤ 0xBF) (hc : 0x80 ≤ c.toNat ∧ c.toNat ≤ 0xBF) :
      Group [a, b, c]
        (UInt16.ofNat ((a.toNat - 0xE0) * 4096 + (b.toNat - 0x80) * 64 + (c.toNat - 0x80)))

/-- The bytes split into groups that spell the given units. -/
def Spells (bytes : Bytes) (units : List UInt16) : Prop :=
  ∃ groups, List.Forall₂ Group groups units ∧ groups.flatten = bytes

/-- The number of bytes that a unit needs: two for zero, and otherwise as few as can hold it. -/
def groupSize (unit : UInt16) : Nat :=
  if unit = 0 then 2 else if unit < 0x80 then 1 else if unit < 0x800 then 2 else 3

/-- The bytes split into groups none of which is longer than its unit needs. -/
def IsCanonical (bytes : Bytes) : Prop :=
  ∃ groups units, List.Forall₂ (fun group unit => Group group unit ∧ group.length = groupSize unit)
    groups units ∧ groups.flatten = bytes

theorem Spells.nil : Spells [] [] :=
  ⟨[], .nil, rfl⟩

theorem Spells.cons {group bytes : Bytes} {unit : UInt16} {units : List UInt16}
    (h : Group group unit) (hs : Spells bytes units) : Spells (group ++ bytes) (unit :: units) := by
  obtain ⟨groups, hgroups, rfl⟩ := hs
  exact ⟨group :: groups, .cons h hgroups, rfl⟩

/-! ## Words in parts -/

/-- High and low bits are put together by adding them. -/
theorem or_eq_add {high low : Nat} (i : Nat) (h : low < 2 ^ i) :
    2 ^ i * high ||| low = 2 ^ i * high + low :=
  (Nat.two_pow_add_eq_or_of_lt h high).symm

theorem and_C0_eq_80_iff :
    ∀ n < 256, (UInt8.ofNat n &&& 0xC0 = 0x80 ↔ 0x80 ≤ n ∧ n ≤ 0xBF) := by
  decide +kernel

theorem continuation?_eq_some_iff {byte : UInt8} {low : UInt16} :
    continuation? byte = some low ↔
      (0x80 ≤ byte.toNat ∧ byte.toNat ≤ 0xBF) ∧ low = UInt16.ofNat (byte.toNat - 0x80) := by
  have hiff := and_C0_eq_80_iff byte.toNat byte.toNat_lt
  rw [UInt8.ofNat_toNat] at hiff
  have hlow (h : 0x80 ≤ byte.toNat ∧ byte.toNat ≤ 0xBF) :
      (byte &&& 0x3F).toUInt16 = UInt16.ofNat (byte.toNat - 0x80) := by
    have hand : byte.toNat &&& 0x3F = byte.toNat % 64 := Nat.and_two_pow_sub_one_eq_mod _ 6
    apply UInt16.toNat_inj.mp
    rw [UInt8.toNat_toUInt16, UInt8.toNat_and, UInt16.toNat_ofNat']
    change byte.toNat &&& 0x3F = _
    rw [hand]
    omega
  rw [continuation?]
  by_cases h : 0x80 ≤ byte.toNat ∧ byte.toNat ≤ 0xBF
  · rw [if_pos (hiff.2 h), hlow h, Option.some_inj]
    exact ⟨fun heq => ⟨h, heq.symm⟩, fun heq => heq.2.symm⟩
  · rw [if_neg (fun hc => h (hiff.1 hc))]
    exact ⟨fun heq => absurd heq (by simp), fun heq => absurd heq.1 h⟩

theorem unitOfTwo_eq {lead : UInt8} {y : UInt16} (hl : 0xC0 ≤ lead.toNat ∧ lead.toNat ≤ 0xDF)
    (hy : y.toNat < 64) :
    unitOfTwo lead y = UInt16.ofNat ((lead.toNat - 0xC0) * 64 + y.toNat) := by
  have hand : lead.toNat &&& 0x1F = lead.toNat - 0xC0 := by
    rw [show lead.toNat &&& 0x1F = lead.toNat % 32 from Nat.and_two_pow_sub_one_eq_mod _ 5]
    omega
  have hshift : ((lead &&& 0x1F).toUInt16 <<< 6).toNat = 2 ^ 6 * (lead.toNat - 0xC0) := by
    rw [UInt16.toNat_shiftLeft, UInt8.toNat_toUInt16, UInt8.toNat_and]
    change (lead.toNat &&& 0x1F) <<< 6 % 2 ^ 16 = _
    rw [hand, Nat.shiftLeft_eq]
    omega
  apply UInt16.toNat_inj.mp
  rw [unitOfTwo, UInt16.toNat_or, hshift, or_eq_add 6 hy, UInt16.toNat_ofNat']
  omega

theorem unitOfThree_eq {lead : UInt8} {y z : UInt16} (hl : 0xE0 ≤ lead.toNat ∧ lead.toNat ≤ 0xEF)
    (hy : y.toNat < 64) (hz : z.toNat < 64) :
    unitOfThree lead y z =
      UInt16.ofNat ((lead.toNat - 0xE0) * 4096 + y.toNat * 64 + z.toNat) := by
  have hand : lead.toNat &&& 0x0F = lead.toNat - 0xE0 := by
    rw [show lead.toNat &&& 0x0F = lead.toNat % 16 from Nat.and_two_pow_sub_one_eq_mod _ 4]
    omega
  have hhigh : ((lead &&& 0x0F).toUInt16 <<< 12).toNat = 2 ^ 12 * (lead.toNat - 0xE0) := by
    rw [UInt16.toNat_shiftLeft, UInt8.toNat_toUInt16, UInt8.toNat_and]
    change (lead.toNat &&& 0x0F) <<< 12 % 2 ^ 16 = _
    rw [hand, Nat.shiftLeft_eq]
    omega
  have hmiddle : (y <<< 6).toNat = 2 ^ 6 * y.toNat := by
    rw [UInt16.toNat_shiftLeft]
    change y.toNat <<< 6 % 2 ^ 16 = _
    rw [Nat.shiftLeft_eq]
    omega
  have hsum : 2 ^ 12 * (lead.toNat - 0xE0) + 2 ^ 6 * y.toNat =
      2 ^ 6 * (2 ^ 6 * (lead.toNat - 0xE0) + y.toNat) := by omega
  apply UInt16.toNat_inj.mp
  rw [unitOfThree, UInt16.toNat_or, UInt16.toNat_or, hhigh, hmiddle,
    or_eq_add 12 (by omega), hsum, or_eq_add 6 hz, UInt16.toNat_ofNat']
  omega

/-! ## Writing one unit -/

theorem ofUnit_of_one {unit : UInt16} (h : 0x01 ≤ unit.toNat ∧ unit.toNat ≤ 0x7F) :
    ofUnit unit = [UInt8.ofNat unit.toNat] := by
  have hcond : 0x01 ≤ unit ∧ unit ≤ 0x7F := by
    rw [UInt16.le_iff_toNat_le, UInt16.le_iff_toNat_le]
    exact h
  have hbyte : unit.toUInt8 = UInt8.ofNat unit.toNat := by
    apply UInt8.toNat_inj.mp
    rw [UInt16.toNat_toUInt8, UInt8.toNat_ofNat']
  rw [ofUnit, if_pos hcond, hbyte]

theorem not_one_byte {unit : UInt16} (h : unit.toNat = 0 ∨ 0x80 ≤ unit.toNat) :
    ¬ (0x01 ≤ unit ∧ unit ≤ 0x7F) := by
  rw [UInt16.le_iff_toNat_le, UInt16.le_iff_toNat_le]
  change ¬ (1 ≤ unit.toNat ∧ unit.toNat ≤ 127)
  omega

/-- A byte with a mark in its high bits and a small word in the `k` bits below them. -/
theorem marked_byte_eq {mark : UInt8} {word : UInt16} (k high : Nat) (hk : 2 ^ k ≤ 256)
    (hmark : mark.toNat = 2 ^ k * high) (hword : word.toNat < 2 ^ k) :
    mark ||| word.toUInt8 = UInt8.ofNat (mark.toNat + word.toNat) := by
  have hbyte : word.toUInt8.toNat = word.toNat := by
    rw [UInt16.toNat_toUInt8]
    exact Nat.mod_eq_of_lt (by omega)
  have hsum : (mark ||| word.toUInt8).toNat = mark.toNat + word.toNat := by
    rw [UInt8.toNat_or, hbyte, hmark, or_eq_add k hword]
  rw [← hsum, UInt8.ofNat_toNat]

/-- The low six bits of a word in a continuation byte. -/
theorem low_byte_eq (word : UInt16) :
    (0x80 : UInt8) ||| (word &&& 0x3F).toUInt8 = UInt8.ofNat (0x80 + word.toNat % 64) := by
  have hlow : (word &&& 0x3F).toNat = word.toNat % 64 := by
    rw [UInt16.toNat_and]
    exact Nat.and_two_pow_sub_one_eq_mod _ 6
  rw [marked_byte_eq 6 2 (by decide) rfl (by omega), hlow]
  rfl

theorem toNat_shiftRight_eq {unit shift : UInt16} (h : shift.toNat < 16) :
    (unit >>> shift).toNat = unit.toNat / 2 ^ shift.toNat := by
  rw [UInt16.toNat_shiftRight, Nat.mod_eq_of_lt h, Nat.shiftRight_eq_div_pow]

theorem ofUnit_of_two {unit : UInt16} (h : unit.toNat = 0 ∨ 0x80 ≤ unit.toNat)
    (hle : unit.toNat ≤ 0x7FF) :
    ofUnit unit = [UInt8.ofNat (0xC0 + unit.toNat / 64), UInt8.ofNat (0x80 + unit.toNat % 64)] := by
  have hshift : (unit >>> 6).toNat = unit.toNat / 64 := toNat_shiftRight_eq (by decide)
  have hcond : unit ≤ 0x7FF := UInt16.le_iff_toNat_le.2 hle
  rw [ofUnit, if_neg (not_one_byte h), if_pos hcond,
    marked_byte_eq 6 3 (by decide) rfl (by omega), hshift, low_byte_eq]
  rfl

theorem ofUnit_of_three {unit : UInt16} (h : 0x800 ≤ unit.toNat) :
    ofUnit unit = [UInt8.ofNat (0xE0 + unit.toNat / 4096),
      UInt8.ofNat (0x80 + unit.toNat / 64 % 64), UInt8.ofNat (0x80 + unit.toNat % 64)] := by
  have hlt := unit.toNat_lt
  have hhigh : (unit >>> 12).toNat = unit.toNat / 4096 := toNat_shiftRight_eq (by decide)
  have hmiddle : (unit >>> 6).toNat = unit.toNat / 64 := toNat_shiftRight_eq (by decide)
  have hcond : ¬ unit ≤ 0x7FF := by
    rw [UInt16.le_iff_toNat_le]
    change ¬ unit.toNat ≤ 2047
    omega
  rw [ofUnit, if_neg (not_one_byte (by omega)), if_neg hcond,
    marked_byte_eq 5 7 (by decide) rfl (by omega), hhigh, low_byte_eq, low_byte_eq, hmiddle]
  rfl

/-- A unit is written in one, two or three bytes by its size. -/
theorem unit_cases (unit : UInt16) :
    (0x01 ≤ unit.toNat ∧ unit.toNat ≤ 0x7F) ∨
      ((unit.toNat = 0 ∨ 0x80 ≤ unit.toNat) ∧ unit.toNat ≤ 0x7FF) ∨ 0x800 ≤ unit.toNat := by
  omega

theorem length_ofUnit (unit : UInt16) : (ofUnit unit).length = groupSize unit := by
  have hzero : unit = 0 ↔ unit.toNat = 0 := UInt16.toNat_inj.symm
  have hone : unit < 0x80 ↔ unit.toNat < 0x80 := UInt16.lt_iff_toNat_lt
  have htwo : unit < 0x800 ↔ unit.toNat < 0x800 := UInt16.lt_iff_toNat_lt
  rw [groupSize]
  simp only [hzero, hone, htwo]
  rcases unit_cases unit with h | ⟨h, hle⟩ | h
  · rw [ofUnit_of_one h, if_neg (by omega), if_pos (by omega)]
    rfl
  · rw [ofUnit_of_two h hle]
    by_cases h0 : unit.toNat = 0
    · rw [if_pos h0]
      rfl
    · rw [if_neg h0, if_neg (by omega), if_pos (by omega)]
      rfl
  · rw [ofUnit_of_three h, if_neg (by omega), if_neg (by omega), if_neg (by omega)]
    rfl

/-- What is written for a unit spells it. -/
theorem group_ofUnit (unit : UInt16) : Group (ofUnit unit) unit := by
  have hbyte {n : Nat} (h : n < 256) : (UInt8.ofNat n).toNat = n := by
    rw [UInt8.toNat_ofNat', Nat.mod_eq_of_lt h]
  have hlt := unit.toNat_lt
  rcases unit_cases unit with h | ⟨h, hle⟩ | h
  · have hg := Group.one (a := UInt8.ofNat unit.toNat) (by rw [hbyte (by omega)]; exact h)
    rw [hbyte (by omega), UInt16.ofNat_toNat] at hg
    rw [ofUnit_of_one h]
    exact hg
  · have hg := Group.two (a := UInt8.ofNat (0xC0 + unit.toNat / 64))
      (b := UInt8.ofNat (0x80 + unit.toNat % 64))
      (by rw [hbyte (by omega)]; omega) (by rw [hbyte (by omega)]; omega)
    rw [hbyte (by omega), hbyte (by omega), show (0xC0 + unit.toNat / 64 - 0xC0) * 64 +
      (0x80 + unit.toNat % 64 - 0x80) = unit.toNat by omega, UInt16.ofNat_toNat] at hg
    rw [ofUnit_of_two h hle]
    exact hg
  · have hg := Group.three (a := UInt8.ofNat (0xE0 + unit.toNat / 4096))
      (b := UInt8.ofNat (0x80 + unit.toNat / 64 % 64)) (c := UInt8.ofNat (0x80 + unit.toNat % 64))
      (by rw [hbyte (by omega)]; omega) (by rw [hbyte (by omega)]; omega)
      (by rw [hbyte (by omega)]; omega)
    rw [hbyte (by omega), hbyte (by omega), hbyte (by omega),
      show (0xE0 + unit.toNat / 4096 - 0xE0) * 4096 + (0x80 + unit.toNat / 64 % 64 - 0x80) * 64 +
        (0x80 + unit.toNat % 64 - 0x80) = unit.toNat by omega, UInt16.ofNat_toNat] at hg
    rw [ofUnit_of_three h]
    exact hg

/-- No group is shorter than what is written for its unit, and one of that length is the same. -/
theorem Group.ofUnit_le {group : Bytes} {unit : UInt16} (h : Group group unit) :
    (ofUnit unit).length ≤ group.length ∧
      (group.length = (ofUnit unit).length → group = ofUnit unit) := by
  cases h with
  | @one a ha =>
    have hu : (UInt16.ofNat a.toNat).toNat = a.toNat := by
      rw [UInt16.toNat_ofNat']
      omega
    rw [ofUnit_of_one (by rw [hu]; exact ha), hu, UInt8.ofNat_toNat]
    exact ⟨Nat.le_refl _, fun _ => rfl⟩
  | @two a b ha hb =>
    have hu : (UInt16.ofNat ((a.toNat - 0xC0) * 64 + (b.toNat - 0x80))).toNat =
        (a.toNat - 0xC0) * 64 + (b.toNat - 0x80) := by
      rw [UInt16.toNat_ofNat']
      omega
    rcases unit_cases (UInt16.ofNat ((a.toNat - 0xC0) * 64 + (b.toNat - 0x80))) with
      h | ⟨h, hle⟩ | h
    · rw [ofUnit_of_one h]
      exact ⟨by simp, fun hlen => absurd hlen (by simp)⟩
    · rw [ofUnit_of_two h hle, hu]
      have hfirst : 0xC0 + ((a.toNat - 0xC0) * 64 + (b.toNat - 0x80)) / 64 = a.toNat := by omega
      have hsecond : 0x80 + ((a.toNat - 0xC0) * 64 + (b.toNat - 0x80)) % 64 = b.toNat := by omega
      rw [hfirst, hsecond, UInt8.ofNat_toNat, UInt8.ofNat_toNat]
      exact ⟨Nat.le_refl _, fun _ => rfl⟩
    · exact absurd h (by omega)
  | @three a b c ha hb hc =>
    have hu : (UInt16.ofNat ((a.toNat - 0xE0) * 4096 + (b.toNat - 0x80) * 64 +
        (c.toNat - 0x80))).toNat =
        (a.toNat - 0xE0) * 4096 + (b.toNat - 0x80) * 64 + (c.toNat - 0x80) := by
      rw [UInt16.toNat_ofNat']
      omega
    rcases unit_cases (UInt16.ofNat ((a.toNat - 0xE0) * 4096 + (b.toNat - 0x80) * 64 +
      (c.toNat - 0x80))) with h | ⟨h, hle⟩ | h
    · rw [ofUnit_of_one h]
      exact ⟨by simp, fun hlen => absurd hlen (by simp)⟩
    · rw [ofUnit_of_two h hle]
      exact ⟨by simp, fun hlen => absurd hlen (by simp)⟩
    · rw [ofUnit_of_three h, hu]
      have hfirst : 0xE0 + ((a.toNat - 0xE0) * 4096 + (b.toNat - 0x80) * 64 +
        (c.toNat - 0x80)) / 4096 = a.toNat := by omega
      have hsecond : 0x80 + ((a.toNat - 0xE0) * 4096 + (b.toNat - 0x80) * 64 +
        (c.toNat - 0x80)) / 64 % 64 = b.toNat := by omega
      have hthird : 0x80 + ((a.toNat - 0xE0) * 4096 + (b.toNat - 0x80) * 64 +
        (c.toNat - 0x80)) % 64 = c.toNat := by omega
      rw [hfirst, hsecond, hthird, UInt8.ofNat_toNat, UInt8.ofNat_toNat, UInt8.ofNat_toNat]
      exact ⟨Nat.le_refl _, fun _ => rfl⟩

/-! ## Reading -/

/-- A group in front is read in one step. -/
theorem Group.unitsOnto {group : Bytes} {unit : UInt16} (h : Group group unit) (rest : Bytes)
    (read : List UInt16) :
    unitsOnto (group ++ rest) read = unitsOnto rest (unit :: read) := by
  cases h with
  | @one a ha =>
    have hcond : 0x01 ≤ a ∧ a ≤ 0x7F := by
      rw [UInt8.le_iff_toNat_le, UInt8.le_iff_toNat_le]
      exact ha
    have hunit : a.toUInt16 = UInt16.ofNat a.toNat := by
      rw [← UInt8.toNat_toUInt16, UInt16.ofNat_toNat]
    rw [List.singleton_append, ModifiedUtf8.unitsOnto.eq_def]
    simp only [if_pos hcond, hunit]
  | @two a b ha hb =>
    have hcond : ¬ (0x01 ≤ a ∧ a ≤ 0x7F) := by
      rw [UInt8.le_iff_toNat_le, UInt8.le_iff_toNat_le]
      change ¬ (1 ≤ a.toNat ∧ a.toNat ≤ 127)
      omega
    have hcond' : 0xC0 ≤ a ∧ a ≤ 0xDF := by
      rw [UInt8.le_iff_toNat_le, UInt8.le_iff_toNat_le]
      exact ha
    have hlow := continuation?_eq_some_iff.2 ⟨hb, rfl⟩
    have hsmall : (UInt16.ofNat (b.toNat - 0x80)).toNat = b.toNat - 0x80 := by
      rw [UInt16.toNat_ofNat']
      omega
    have hunit := unitOfTwo_eq ha (y := UInt16.ofNat (b.toNat - 0x80)) (by omega)
    rw [hsmall] at hunit
    rw [List.cons_append, List.singleton_append, ModifiedUtf8.unitsOnto.eq_def]
    simp only [if_neg hcond, if_pos hcond', hlow, hunit]
  | @three a b c ha hb hc =>
    have hcond : ¬ (0x01 ≤ a ∧ a ≤ 0x7F) := by
      rw [UInt8.le_iff_toNat_le, UInt8.le_iff_toNat_le]
      change ¬ (1 ≤ a.toNat ∧ a.toNat ≤ 127)
      omega
    have hcond' : ¬ (0xC0 ≤ a ∧ a ≤ 0xDF) := by
      rw [UInt8.le_iff_toNat_le, UInt8.le_iff_toNat_le]
      change ¬ (192 ≤ a.toNat ∧ a.toNat ≤ 223)
      omega
    have hcond'' : 0xE0 ≤ a ∧ a ≤ 0xEF := by
      rw [UInt8.le_iff_toNat_le, UInt8.le_iff_toNat_le]
      exact ha
    have hmiddle := continuation?_eq_some_iff.2 ⟨hb, rfl⟩
    have hlow := continuation?_eq_some_iff.2 ⟨hc, rfl⟩
    have hb' : (UInt16.ofNat (b.toNat - 0x80)).toNat = b.toNat - 0x80 := by
      rw [UInt16.toNat_ofNat']
      omega
    have hc' : (UInt16.ofNat (c.toNat - 0x80)).toNat = c.toNat - 0x80 := by
      rw [UInt16.toNat_ofNat']
      omega
    have hunit := unitOfThree_eq ha (y := UInt16.ofNat (b.toNat - 0x80))
      (z := UInt16.ofNat (c.toNat - 0x80)) (by omega) (by omega)
    rw [hb', hc'] at hunit
    rw [List.cons_append, List.cons_append, List.singleton_append,
      ModifiedUtf8.unitsOnto.eq_def]
    simp only [if_neg hcond, if_neg hcond', if_pos hcond'', hmiddle, hlow, hunit]

theorem unitsOnto_of_spells {bytes : Bytes} {units : List UInt16} (h : Spells bytes units)
    (read : List UInt16) : unitsOnto bytes read = some (read.reverse ++ units) := by
  obtain ⟨groups, hgroups, rfl⟩ := h
  induction hgroups generalizing read with
  | nil => rw [List.flatten_nil, unitsOnto, List.append_nil]
  | cons hgroup _ ih =>
    rw [List.flatten_cons, hgroup.unitsOnto, ih, List.reverse_cons, List.append_assoc,
      List.singleton_append]

theorem spells_of_unitsOnto {bytes : Bytes} {read units : List UInt16}
    (h : unitsOnto bytes read = some units) :
    ∃ added, units = read.reverse ++ added ∧ Spells bytes added := by
  fun_induction unitsOnto bytes read with
  | case1 read =>
    cases h
    exact ⟨[], (List.append_nil _).symm, .nil⟩
  | case2 lead rest read hlead ih =>
    obtain ⟨added, rfl, hadded⟩ := ih h
    rw [UInt8.le_iff_toNat_le, UInt8.le_iff_toNat_le] at hlead
    have hunit : lead.toUInt16 = UInt16.ofNat lead.toNat := by
      rw [← UInt8.toNat_toUInt16, UInt16.ofNat_toNat]
    refine ⟨lead.toUInt16 :: added, by simp, ?_⟩
    rw [hunit]
    exact hadded.cons (.one hlead)
  | case3 lead read _ hlead second rest y hy ih =>
    obtain ⟨added, rfl, hadded⟩ := ih h
    rw [UInt8.le_iff_toNat_le, UInt8.le_iff_toNat_le] at hlead
    obtain ⟨hsecond, rfl⟩ := continuation?_eq_some_iff.1 hy
    have hsmall : (UInt16.ofNat (second.toNat - 0x80)).toNat = second.toNat - 0x80 := by
      rw [UInt16.toNat_ofNat']
      omega
    refine ⟨_ :: added, by simp; rfl, ?_⟩
    rw [unitOfTwo_eq hlead (by omega), hsmall]
    exact hadded.cons (.two hlead hsecond)
  | case6 lead read _ _ hlead second third rest z y hz hy ih =>
    obtain ⟨added, rfl, hadded⟩ := ih h
    rw [UInt8.le_iff_toNat_le, UInt8.le_iff_toNat_le] at hlead
    obtain ⟨hsecond, rfl⟩ := continuation?_eq_some_iff.1 hy
    obtain ⟨hthird, rfl⟩ := continuation?_eq_some_iff.1 hz
    have hb : (UInt16.ofNat (second.toNat - 0x80)).toNat = second.toNat - 0x80 := by
      rw [UInt16.toNat_ofNat']
      omega
    have hc : (UInt16.ofNat (third.toNat - 0x80)).toNat = third.toNat - 0x80 := by
      rw [UInt16.toNat_ofNat']
      omega
    refine ⟨_ :: added, by simp; rfl, ?_⟩
    rw [unitOfThree_eq hlead (by omega) (by omega), hb, hc]
    exact hadded.cons (.three hlead hsecond hthird)
  | case4 => exact absurd h (by simp)
  | case5 => exact absurd h (by simp)
  | case7 => exact absurd h (by simp)
  | case8 => exact absurd h (by simp)
  | case9 => exact absurd h (by simp)

theorem decodeGroups?_eq_some_iff {bytes : Bytes} {text : String} :
    decodeGroups? bytes = some text ↔ Spells bytes (Utf16.encode text.toList) := by
  constructor
  · intro h
    obtain ⟨units, hunits, h⟩ := Option.bind_eq_some_iff.1 h
    obtain ⟨chars, hchars, h⟩ := Option.bind_eq_some_iff.1 h
    obtain ⟨added, rfl, hspells⟩ := spells_of_unitsOnto hunits
    cases h
    rw [String.toList_ofList, Utf16.decode?_eq_some_iff.1 hchars]
    exact hspells
  · intro h
    rw [decodeGroups?, unitsOnto_of_spells h, List.reverse_nil, List.nil_append]
    simp only [Option.bind_eq_bind, Option.bind_some, Utf16.decode?_encode]
    rw [Option.pure_def, String.ofList_toList]

/-- Plain bytes are groups of one byte, and spell the characters that they stand for. -/
theorem spells_of_plain {bytes : Bytes} (h : bytes.all isPlain = true) :
    Spells bytes (Utf16.encode (decodePlain bytes).toList) := by
  rw [decodePlain, String.toList_ofList]
  induction bytes with
  | nil => exact .nil
  | cons byte bytes ih =>
    rw [List.all_cons, Bool.and_eq_true] at h
    have hbyte : 0x01 ≤ byte.toNat ∧ byte.toNat ≤ 0x7F := by
      have hplain := h.1
      simp only [isPlain, Bool.and_eq_true, bne_iff_ne, decide_eq_true_eq, ne_eq,
        UInt8.lt_iff_toNat_lt, ← UInt8.toNat_inj] at hplain
      exact ⟨Nat.pos_of_ne_zero hplain.1, Nat.le_of_lt_succ hplain.2⟩
    have hchar : (Char.ofNat byte.toNat).toNat = byte.toNat :=
      Utf16.toNat_char_ofNat (by omega)
    rw [List.map_cons, Utf16.encode, List.flatMap_cons, Utf16.ofChar_of_lt (by omega), hchar]
    exact (ih h.2).cons (.one hbyte)

/-- The short way for plain bytes agrees with the general one, so reading follows the grammar. -/
theorem decode?_eq_decodeGroups? (bytes : Bytes) : decode? bytes = decodeGroups? bytes := by
  rw [decode?]
  by_cases h : bytes.all isPlain = true
  · rw [if_pos h]
    exact (decodeGroups?_eq_some_iff.2 (spells_of_plain h)).symm
  · rw [if_neg h]

theorem decode?_eq_some_iff {bytes : Bytes} {text : String} :
    decode? bytes = some text ↔ Spells bytes (Utf16.encode text.toList) := by
  rw [decode?_eq_decodeGroups?, decodeGroups?_eq_some_iff]

/-! ## Round trip -/

theorem spells_ofUnit (units : List UInt16) : Spells (units.flatMap ofUnit) units := by
  induction units with
  | nil => exact .nil
  | cons unit units ih =>
    rw [List.flatMap_cons]
    exact ih.cons (group_ofUnit unit)

/-- Every text reads back as it was written. -/
theorem decode?_encode (text : String) : decode? (encode text) = some text :=
  decode?_eq_some_iff.2 (spells_ofUnit _)

/-- The shortest groups are no longer than any others for the same units. -/
theorem length_flatMap_ofUnit_le {bytes : Bytes} {units : List UInt16} (h : Spells bytes units) :
    (units.flatMap ofUnit).length ≤ bytes.length := by
  obtain ⟨groups, hgroups, rfl⟩ := h
  induction hgroups with
  | nil => exact Nat.le_refl _
  | cons hgroup _ ih =>
    rw [List.flatMap_cons, List.flatten_cons, List.length_append, List.length_append]
    exact Nat.add_le_add hgroup.ofUnit_le.1 ih

/-- Writing a text takes no more bytes than it was read from. -/
theorem length_encode_le {bytes : Bytes} {text : String} (h : decode? bytes = some text) :
    (encode text).length ≤ bytes.length :=
  length_flatMap_ofUnit_le (decode?_eq_some_iff.1 h)

theorem isCanonical_encode (text : String) : IsCanonical (encode text) := by
  refine ⟨(Utf16.encode text.toList).map ofUnit, Utf16.encode text.toList, ?_, rfl⟩
  rw [List.forall₂_map_left_iff, List.forall₂_same]
  exact fun unit _ => ⟨group_ofUnit unit, length_ofUnit unit⟩

/-- Shortest groups are what is written for their units. -/
theorem flatten_eq_of_shortest {groups : List Bytes} {units : List UInt16}
    (h : List.Forall₂ (fun group unit => Group group unit ∧ group.length = groupSize unit)
      groups units) : groups.flatten = units.flatMap ofUnit := by
  induction h with
  | nil => rfl
  | cons hgroup _ ih =>
    have hsame := hgroup.1.ofUnit_le.2 (by rw [hgroup.2, length_ofUnit])
    rw [List.flatten_cons, List.flatMap_cons, ih, hsame]

/-- Of all spellings of a text, the written form is the canonical one. -/
theorem encode_eq_iff_isCanonical {bytes : Bytes} {text : String} (h : decode? bytes = some text) :
    encode text = bytes ↔ IsCanonical bytes := by
  constructor
  · rintro rfl
    exact isCanonical_encode text
  · rintro ⟨groups, units, hgroups, rfl⟩
    have hspells : Spells groups.flatten units :=
      ⟨groups, hgroups.imp fun _ _ hgroup => hgroup.1, rfl⟩
    have hunits : units = Utf16.encode text.toList := by
      have hread := unitsOnto_of_spells hspells []
      rw [unitsOnto_of_spells (decode?_eq_some_iff.1 h)] at hread
      exact (Option.some_inj.1 hread).symm
    rw [flatten_eq_of_shortest hgroups, encode, hunits]

end ModifiedUtf8
end ModuleRecord
