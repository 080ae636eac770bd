import ModuleRecord.Json.StringScan
import ModuleRecord.Json.Text
import ModuleRecord.Proofs.Bytes.Hex
import ModuleRecord.Proofs.Text.Utf16

/-!
# Strings as they are written are read

Whatever characters a string has, its scan takes each of them out of its written form, be it
escaped or not (`takes_escape`), and with the closing quote has the whole string
(`step_quote_of_plain`).
-/

namespace ModuleRecord
namespace Json
namespace StringScan

/-- The string goes on over all characters of a text. -/
inductive Takes : StringScan → List Char → StringScan → Prop where
  | nil (scan : StringScan) : Takes scan [] scan
  | cons {scan next last : StringScan} {c : Char} {text : List Char} (h : scan.step c = .more next)
      (htext : Takes next text last) : Takes scan (c :: text) last

theorem Takes.append {scan next last : StringScan} {text text' : List Char}
    (h : Takes scan text next) (h' : Takes next text' last) : Takes scan (text ++ text') last := by
  induction h with
  | nil scan => exact h'
  | cons hstep _ ih => exact .cons hstep (ih h')

/-! ## Escapes -/

variable {read : List Char} {isSpoiled : Bool}

/-- An escape of one letter stands for its character. -/
theorem takes_shortEscape {letter c : Char} (hletter : letter ≠ 'u')
    (h : shortEscape? letter = some c) :
    Takes ⟨read, isSpoiled, .plain⟩ ['\\', letter] ⟨c :: read, isSpoiled, .plain⟩ := by
  have hstep : step ⟨read, isSpoiled, .escape none⟩ letter =
      .more ⟨c :: read, isSpoiled, .plain⟩ := by
    change stepEscape _ none letter = _
    unfold stepEscape
    rw [if_neg hletter, h]
    rfl
  exact .cons rfl (.cons hstep (.nil _))

theorem utf8Size_digit : ∀ n < 16, (Hex.digit n).utf8Size = 1 := by
  decide

/-- A digit of a unicode escape that is not the last one. -/
theorem step_digit {high : Option UInt16} {bytes value digit : Nat} (hdigit : digit < 16)
    (hbytes : bytes + 1 < 4) :
    step ⟨read, isSpoiled, .digits high bytes (some value)⟩ (Hex.digit digit) =
      .more ⟨read, isSpoiled, .digits high (bytes + 1) (some (value * 16 + digit))⟩ := by
  change stepDigits _ high bytes (some value) _ = _
  unfold stepDigits
  simp only [Hex.value?_digit digit hdigit, utf8Size_digit digit hdigit, if_pos hbytes]
  rfl

/-- The last digit of a unicode escape. -/
theorem step_lastDigit {high : Option UInt16} {value digit : Nat} (hdigit : digit < 16) :
    step ⟨read, isSpoiled, .digits high 3 (some value)⟩ (Hex.digit digit) =
      .more (addUnitAfter ⟨read, isSpoiled, .digits high 3 (some value)⟩ high
        (UInt16.ofNat (value * 16 + digit))) := by
  change stepDigits _ high 3 (some value) _ = _
  unfold stepDigits
  simp only [Hex.value?_digit digit hdigit, utf8Size_digit digit hdigit]
  rfl

/-- A unit that is no surrogate stands for its character. -/
theorem addUnit_ofNat {scan : StringScan} {c : Char} (h : c.toNat < 0xD800) :
    scan.addUnit (UInt16.ofNat c.toNat) = scan.push c := by
  have hunit : (UInt16.ofNat c.toNat).toNat = c.toNat :=
    UInt16.toNat_ofNat_of_lt' (by rw [UInt16.size]; omega)
  have hhigh : Utf16.isHigh (UInt16.ofNat c.toNat) = false := by
    rw [← Bool.not_eq_true, Utf16.isHigh_iff, hunit]
    omega
  have hlow : Utf16.isLow (UInt16.ofNat c.toNat) = false := by
    rw [← Bool.not_eq_true, Utf16.isLow_iff, hunit]
    omega
  unfold addUnit
  rw [hhigh, hlow, hunit, Char.ofNat_toNat]
  rfl

/-- A unicode escape with two leading zeros stands for its character. -/
theorem takes_unicodeEscape {c : Char} (h : c.toNat < 0x100) :
    Takes ⟨read, isSpoiled, .plain⟩
      ['\\', 'u', '0', '0', Hex.digit (c.toNat / 16), Hex.digit (c.toNat % 16)]
      ⟨c :: read, isSpoiled, .plain⟩ := by
  have hlast : step ⟨read, isSpoiled, .digits none 3 (some (c.toNat / 16))⟩
      (Hex.digit (c.toNat % 16)) = .more ⟨c :: read, isSpoiled, .plain⟩ := by
    rw [step_lastDigit (Nat.mod_lt _ (by decide)), Nat.div_add_mod']
    exact congrArg StringStep.more (addUnit_ofNat (by omega))
  have hthird : step ⟨read, isSpoiled, .digits none 2 (some 0)⟩ (Hex.digit (c.toNat / 16)) =
      .more ⟨read, isSpoiled, .digits none 3 (some (c.toNat / 16))⟩ := by
    rw [step_digit (by omega) (by decide), Nat.zero_mul, Nat.zero_add]
  exact .cons rfl (.cons rfl (.cons rfl (.cons rfl (.cons hthird (.cons hlast (.nil _))))))

/-- A character that needs no escape stands for itself. -/
theorem takes_plain {c : Char} (hquote : c ≠ '"') (hslash : c ≠ '\\')
    (hcontrol : ¬ c.toNat < 0x20) :
    Takes ⟨read, isSpoiled, .plain⟩ [c] ⟨c :: read, isSpoiled, .plain⟩ := by
  have hstep : step ⟨read, isSpoiled, .plain⟩ c = .more ⟨c :: read, isSpoiled, .plain⟩ := by
    change stepPlain _ c = _
    unfold stepPlain
    rw [if_neg hquote, if_neg hslash, if_neg hcontrol]
    rfl
  exact .cons hstep (.nil _)

/-- Every character is taken out of its written form. -/
theorem takes_escape (c : Char) :
    Takes ⟨read, isSpoiled, .plain⟩ (Text.escape c) ⟨c :: read, isSpoiled, .plain⟩ := by
  unfold Text.escape
  split_ifs with hquote hslash hback hfeed hline hreturn htab hcontrol
  · subst hquote
    exact takes_shortEscape (by decide) rfl
  · subst hslash
    exact takes_shortEscape (by decide) rfl
  · subst hback
    exact takes_shortEscape (by decide) rfl
  · subst hfeed
    exact takes_shortEscape (by decide) rfl
  · subst hline
    exact takes_shortEscape (by decide) rfl
  · subst hreturn
    exact takes_shortEscape (by decide) rfl
  · subst htab
    exact takes_shortEscape (by decide) rfl
  · exact takes_unicodeEscape (by omega)
  · exact takes_plain hquote hslash hcontrol

/-! ## Whole strings -/

theorem takes_flatMap_escape (text : List Char) :
    Takes ⟨read, isSpoiled, .plain⟩ (text.flatMap Text.escape)
      ⟨text.reverse ++ read, isSpoiled, .plain⟩ := by
  induction text generalizing read with
  | nil => exact .nil _
  | cons c text ih =>
    rw [List.flatMap_cons, List.reverse_cons, List.append_assoc]
    exact (takes_escape c).append ih

/-- The closing quote ends a string with all that has been read. -/
theorem step_quote_of_plain (text : String) :
    step ⟨text.toList.reverse, false, .plain⟩ '"' = .done (some text) := by
  change StringStep.done (some (String.ofList text.toList.reverse.reverse)) = _
  rw [List.reverse_reverse, String.ofList_toList]

end StringScan
end Json
end ModuleRecord
