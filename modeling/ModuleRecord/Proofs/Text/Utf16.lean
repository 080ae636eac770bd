import ModuleRecord.Text.Utf16

/-!
# UTF-16 round trip

Reading units gives back the characters that were written (`decode?_encode`), and a unit sequence
that reads at all is the written form of what it reads as (`decode?_eq_some_iff`). The written forms
are the sequences whose surrogates all stand in pairs (`exists_encode_iff`).
-/

namespace ModuleRecord
namespace Utf16

/-! ## Surrogates -/

theorem isHigh_iff (unit : UInt16) :
    isHigh unit = true ↔ 0xD800 ≤ unit.toNat ∧ unit.toNat < 0xDC00 := by
  simp [isHigh, UInt16.le_iff_toNat_le, UInt16.lt_iff_toNat_lt]

theorem isLow_iff (unit : UInt16) :
    isLow unit = true ↔ 0xDC00 ≤ unit.toNat ∧ unit.toNat < 0xE000 := by
  simp [isLow, UInt16.le_iff_toNat_le, UInt16.lt_iff_toNat_lt]

/-- No character is a surrogate. -/
theorem toNat_not_surrogate (c : Char) :
    c.toNat < 0xD800 ∨ 0xE000 ≤ c.toNat ∧ c.toNat < 0x110000 := by
  have hval : c.val.toNat = c.toNat := rfl
  rcases c.valid with h | ⟨h₁, h₂⟩
  · exact Or.inl (by omega)
  · exact Or.inr ⟨by omega, by omega⟩

theorem toNat_char_ofNat {n : Nat} (h : n < 0xD800 ∨ 0xE000 ≤ n ∧ n < 0x110000) :
    (Char.ofNat n).toNat = n := by
  have hvalid : n.isValidChar := by
    rcases h with h | ⟨h₁, h₂⟩
    · exact Or.inl h
    · exact Or.inr ⟨by omega, h₂⟩
  rw [Char.ofNat, dif_pos hvalid]
  rfl

/-! ## One character -/

/-- A character of the basic plane is one unit, which is no surrogate. -/
theorem ofChar_of_lt {c : Char} (h : c.toNat < 0x10000) :
    ofChar c = [UInt16.ofNat c.toNat] := by
  rw [ofChar, if_pos h]

/-- Any other character is the pair of surrogates that stands for it. -/
theorem ofChar_of_ge {c : Char} (h : 0x10000 ≤ c.toNat) :
    ∃ high low, ofChar c = [high, low] ∧ isHigh high = true ∧ isLow low = true ∧
      pair high low = c := by
  have hc := toNat_not_surrogate c
  have hmod := Nat.mod_lt (c.toNat - 0x10000) (y := 0x400) (by decide)
  have hhigh : (UInt16.ofNat (0xD800 + (c.toNat - 0x10000) / 0x400)).toNat =
      0xD800 + (c.toNat - 0x10000) / 0x400 :=
    UInt16.toNat_ofNat_of_lt' (by rw [UInt16.size]; omega)
  have hlow : (UInt16.ofNat (0xDC00 + (c.toNat - 0x10000) % 0x400)).toNat =
      0xDC00 + (c.toNat - 0x10000) % 0x400 :=
    UInt16.toNat_ofNat_of_lt' (by rw [UInt16.size]; omega)
  refine ⟨_, _, by rw [ofChar, if_neg (by omega)], ?_, ?_, ?_⟩
  · rw [isHigh_iff, hhigh]
    omega
  · rw [isLow_iff, hlow]
    omega
  · have hsum : 0x10000 + (0xD800 + (c.toNat - 0x10000) / 0x400 - 0xD800) * 0x400 +
        (0xDC00 + (c.toNat - 0x10000) % 0x400 - 0xDC00) = c.toNat := by omega
    rw [pair, hhigh, hlow, hsum, Char.ofNat_toNat]

/-- The written form of a pair of surrogates is that pair. -/
theorem ofChar_pair {high low : UInt16} (hh : isHigh high = true) (hl : isLow low = true) :
    ofChar (pair high low) = [high, low] := by
  rw [isHigh_iff] at hh
  rw [isLow_iff] at hl
  have hval : (pair high low).toNat =
      0x10000 + (high.toNat - 0xD800) * 0x400 + (low.toNat - 0xDC00) :=
    toNat_char_ofNat (by omega)
  have hfirst : 0xD800 + ((pair high low).toNat - 0x10000) / 0x400 = high.toNat := by omega
  have hsecond : 0xDC00 + ((pair high low).toNat - 0x10000) % 0x400 = low.toNat := by omega
  rw [ofChar, if_neg (by omega)]
  simp only [hfirst, hsecond, UInt16.ofNat_toNat]

/-- The written form of a unit that is no surrogate is that unit. -/
theorem ofChar_unit {unit : UInt16} (hh : isHigh unit = false) (hl : isLow unit = false) :
    ofChar (Char.ofNat unit.toNat) = [unit] := by
  have hlt := unit.toNat_lt
  have hh' : ¬ (0xD800 ≤ unit.toNat ∧ unit.toNat < 0xDC00) := by
    rw [← isHigh_iff, hh]
    exact Bool.false_ne_true
  have hl' : ¬ (0xDC00 ≤ unit.toNat ∧ unit.toNat < 0xE000) := by
    rw [← isLow_iff, hl]
    exact Bool.false_ne_true
  have hval : (Char.ofNat unit.toNat).toNat = unit.toNat := toNat_char_ofNat (by omega)
  rw [ofChar_of_lt (by omega), hval, UInt16.ofNat_toNat]

/-- A unit that is no surrogate is read by itself. -/
theorem decodeOnto_unit {unit : UInt16} (hh : ¬ isHigh unit = true) (hl : ¬ isLow unit = true)
    (rest : List UInt16) (read : List Char) :
    decodeOnto (unit :: rest) read = decodeOnto rest (Char.ofNat unit.toNat :: read) := by
  cases rest with
  | nil => simp only [decodeOnto, if_neg hh, if_neg hl]
  | cons next rest => simp only [decodeOnto, if_neg hh, if_neg hl]

/-- A character of the basic plane has the number of its unit. -/
theorem toNat_unit {c : Char} (h : c.toNat < 0x10000) : (UInt16.ofNat c.toNat).toNat = c.toNat :=
  UInt16.toNat_ofNat_of_lt' (by rw [UInt16.size]; omega)

theorem not_isHigh_unit {c : Char} (h : c.toNat < 0x10000) :
    ¬ isHigh (UInt16.ofNat c.toNat) = true := by
  have hc := toNat_not_surrogate c
  rw [isHigh_iff, toNat_unit h]
  omega

theorem not_isLow_unit {c : Char} (h : c.toNat < 0x10000) :
    ¬ isLow (UInt16.ofNat c.toNat) = true := by
  have hc := toNat_not_surrogate c
  rw [isLow_iff, toNat_unit h]
  omega

/-- Reading takes the units of one character in one step. -/
theorem decodeOnto_ofChar (c : Char) (rest : List UInt16) (read : List Char) :
    decodeOnto (ofChar c ++ rest) read = decodeOnto rest (c :: read) := by
  by_cases h : c.toNat < 0x10000
  · rw [ofChar_of_lt h, List.singleton_append,
      decodeOnto_unit (not_isHigh_unit h) (not_isLow_unit h), toNat_unit h, Char.ofNat_toNat]
  · obtain ⟨high, low, hunits, hhigh, hlow, hpair⟩ := ofChar_of_ge (Nat.le_of_not_lt h)
    rw [hunits, List.cons_append, List.singleton_append, decodeOnto, if_pos hhigh]
    simp only [if_pos hlow, hpair]

/-! ## Texts -/

theorem decodeOnto_encode (chars : List Char) (read : List Char) :
    decodeOnto (encode chars) read = some (read.reverse ++ chars) := by
  induction chars generalizing read with
  | nil => rw [encode, List.flatMap_nil, decodeOnto, List.append_nil]
  | cons c chars ih =>
    rw [encode, List.flatMap_cons, decodeOnto_ofChar, ← encode, ih, List.reverse_cons,
      List.append_assoc, List.singleton_append]

/-- Reading gives back what was written. -/
theorem decode?_encode (chars : List Char) : decode? (encode chars) = some chars := by
  rw [decode?, decodeOnto_encode, List.reverse_nil, List.nil_append]

/-- What is read after some characters was written from the characters that are added to them. -/
theorem encode_of_decodeOnto {units : List UInt16} {read chars : List Char}
    (h : decodeOnto units read = some chars) :
    ∃ added, chars = read.reverse ++ added ∧ encode added = units := by
  fun_induction decodeOnto units read with
  | case1 read =>
    cases h
    exact ⟨[], (List.append_nil _).symm, rfl⟩
  | case2 => exact absurd h (by simp)
  | case3 unit read hhigh next rest hlow ih =>
    obtain ⟨added, rfl, hadded⟩ := ih h
    refine ⟨pair unit next :: added, by simp, ?_⟩
    rw [encode, List.flatMap_cons, ← encode, hadded, ofChar_pair hhigh hlow]
    rfl
  | case4 => exact absurd h (by simp)
  | case5 => exact absurd h (by simp)
  | case6 unit rest read hhigh hlow ih =>
    obtain ⟨added, rfl, hadded⟩ := ih h
    refine ⟨Char.ofNat unit.toNat :: added, by simp, ?_⟩
    rw [encode, List.flatMap_cons, ← encode, hadded,
      ofChar_unit (Bool.eq_false_iff.2 hhigh) (Bool.eq_false_iff.2 hlow)]
    rfl

/-- A unit sequence reads as a text exactly if it is the written form of that text. -/
theorem decode?_eq_some_iff {units : List UInt16} {chars : List Char} :
    decode? units = some chars ↔ encode chars = units := by
  constructor
  · intro h
    obtain ⟨added, rfl, hadded⟩ := encode_of_decodeOnto h
    exact hadded
  · rintro rfl
    exact decode?_encode chars

/-! ## Pairs -/

/-- Each high surrogate has a low one directly behind it, and no other low one occurs. -/
inductive IsPaired : List UInt16 → Prop where
  | nil : IsPaired []
  /-- A unit that is no surrogate stands by itself. -/
  | unit {unit : UInt16} {units : List UInt16} (hhigh : isHigh unit = false)
      (hlow : isLow unit = false) (h : IsPaired units) : IsPaired (unit :: units)
  /-- A high surrogate and the low one behind it. -/
  | pair {high low : UInt16} {units : List UInt16} (hhigh : isHigh high = true)
      (hlow : isLow low = true) (h : IsPaired units) : IsPaired (high :: low :: units)

theorem IsPaired.ofChar_append (c : Char) {units : List UInt16} (h : IsPaired units) :
    IsPaired (ofChar c ++ units) := by
  by_cases hplane : c.toNat < 0x10000
  · rw [ofChar_of_lt hplane, List.singleton_append]
    exact .unit (Bool.eq_false_iff.2 (not_isHigh_unit hplane))
      (Bool.eq_false_iff.2 (not_isLow_unit hplane)) h
  · obtain ⟨high, low, hunits, hhigh, hlow, -⟩ := ofChar_of_ge (Nat.le_of_not_lt hplane)
    rw [hunits]
    exact .pair hhigh hlow h

/-- The units of a text are those sequences whose surrogates all stand in pairs. -/
theorem exists_encode_iff {units : List UInt16} :
    (∃ chars, encode chars = units) ↔ IsPaired units := by
  constructor
  · rintro ⟨chars, rfl⟩
    induction chars with
    | nil => exact .nil
    | cons c chars ih =>
      rw [encode, List.flatMap_cons]
      exact ih.ofChar_append c
  · intro h
    induction h with
    | nil => exact ⟨[], rfl⟩
    | @unit unit units hhigh hlow _ ih =>
      obtain ⟨chars, rfl⟩ := ih
      refine ⟨Char.ofNat unit.toNat :: chars, ?_⟩
      rw [encode, List.flatMap_cons, ofChar_unit hhigh hlow]
      rfl
    | @pair high low units hhigh hlow _ ih =>
      obtain ⟨chars, rfl⟩ := ih
      refine ⟨Utf16.pair high low :: chars, ?_⟩
      rw [encode, List.flatMap_cons, ofChar_pair hhigh hlow]
      rfl

end Utf16
end ModuleRecord
