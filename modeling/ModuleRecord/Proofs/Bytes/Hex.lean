import Mathlib.Data.List.Basic
import ModuleRecord.Bytes.Hex

/-!
# Digests read back

A byte string is read back from its hexadecimal text (`decode?_encode`), so a text that reads can be
replaced by the lowercase one without any loss, and that is what is written for its bytes
(`encode_of_decode?`). What is read is any even number of digits of either case
(`exists_decode?_iff`). What is written has two lowercase digits for each byte (`isDigest_encode`).
-/

namespace ModuleRecord
namespace Hex

theorem length_encodeChars (bytes : Bytes) : (encodeChars bytes).length = 2 * bytes.length := by
  unfold encodeChars
  induction bytes with
  | nil => rfl
  | cons byte bytes ih =>
    rw [List.flatMap_cons, List.length_append, ih, List.length_cons]
    simp only [List.length_cons, List.length_nil]
    omega

theorem value?_digit : ∀ n < 16, value? (digit n) = some n := by
  decide

theorem decodeChars_encodeChars (bytes read : Bytes) :
    decodeChars (encodeChars bytes) read = some (read.reverse ++ bytes) := by
  induction bytes generalizing read with
  | nil =>
    rw [List.append_nil]
    rfl
  | cons byte bytes ih =>
    have hlt := byte.toNat_lt
    have hhigh := value?_digit (byte.toNat / 16) (by omega)
    have hlow := value?_digit (byte.toNat % 16) (by omega)
    have hbyte : UInt8.ofNat (byte.toNat / 16 * 16 + byte.toNat % 16) = byte := by
      rw [Nat.div_add_mod', UInt8.ofNat_toNat]
    have hcons : encodeChars (byte :: bytes) =
        digit (byte.toNat / 16) :: digit (byte.toNat % 16) :: encodeChars bytes := rfl
    rw [hcons, decodeChars]
    simp only [hhigh, hlow]
    rw [ih, hbyte, List.reverse_cons, List.append_assoc, List.singleton_append]

/-- The bytes of a digest are read back from its text. -/
theorem decode?_encode (bytes : Bytes) : decode? (encode bytes) = some bytes := by
  rw [decode?, encode, String.toList_ofList, decodeChars_encodeChars, List.reverse_nil,
    List.nil_append]

/-! ## Case -/

theorem digit_of_value?_ofNat :
    ∀ n < 128, ∀ v, value? (Char.ofNat n) = some v → v < 16 ∧ digit v = (Char.ofNat n).toLower := by
  decide

/-- The value of a digit is written as that digit in lowercase. -/
theorem digit_of_value? {c : Char} {v : Nat} (h : value? c = some v) :
    v < 16 ∧ digit v = c.toLower := by
  have hlt : c.toNat < 128 := by
    by_contra hge
    have hout (bound : Char) (hbound : bound.toNat < 128) : ¬ c ≤ bound := by
      rw [Char.le_def, UInt32.le_iff_toNat_le]
      change ¬ c.toNat ≤ bound.toNat
      omega
    unfold value? at h
    rw [if_neg fun hc => hout '9' (by decide) hc.2, if_neg fun hc => hout 'f' (by decide) hc.2,
      if_neg fun hc => hout 'F' (by decide) hc.2] at h
    cases h
  have hdigit := digit_of_value?_ofNat c.toNat hlt v
  rw [Char.ofNat_toNat] at hdigit
  exact hdigit h

theorem encodeChars_append (bytes bytes' : Bytes) :
    encodeChars (bytes ++ bytes') = encodeChars bytes ++ encodeChars bytes' :=
  List.flatMap_append

theorem encodeChars_of_decodeChars {chars : List Char} {read bytes : Bytes}
    (h : decodeChars chars read = some bytes) :
    encodeChars bytes = encodeChars read.reverse ++ chars.map Char.toLower := by
  induction chars, read using decodeChars.induct with
  | case1 read =>
    unfold decodeChars at h
    cases h
    simp
  | case2 high low rest read m l hhigh hlow ih =>
    unfold decodeChars at h
    simp only [hhigh, hlow] at h
    obtain ⟨hm, hhigh⟩ := digit_of_value? hhigh
    obtain ⟨hl, hlow⟩ := digit_of_value? hlow
    have hvalue : (UInt8.ofNat (m * 16 + l)).toNat = m * 16 + l :=
      UInt8.toNat_ofNat_of_lt' (by rw [UInt8.size]; omega)
    have hbyte : encodeChars [UInt8.ofNat (m * 16 + l)] = [high.toLower, low.toLower] := by
      unfold encodeChars
      rw [List.flatMap_singleton, hvalue, show (m * 16 + l) / 16 = m by omega,
        show (m * 16 + l) % 16 = l by omega, hhigh, hlow]
    rw [ih h, List.reverse_cons, encodeChars_append, hbyte, List.append_assoc]
    rfl
  | case3 high low rest read hnone =>
    unfold decodeChars at h
    cases hhigh : value? high with
    | none =>
      rw [hhigh] at h
      cases h
    | some m =>
      cases hlow : value? low with
      | none =>
        rw [hhigh, hlow] at h
        cases h
      | some l => exact absurd hlow (hnone m l hhigh)
  | case4 c read =>
    unfold decodeChars at h
    cases h

/-- The bytes of a text that reads are written as that text in lowercase. -/
theorem encode_of_decode? {text : String} {bytes : Bytes} (h : decode? text = some bytes) :
    encode bytes = text.toLower := by
  have hlower : text.toLower = text.map Char.toLower := rfl
  apply String.toList_inj.1
  rw [encode, String.toList_ofList, encodeChars_of_decodeChars h, hlower, String.toList_map]
  rfl

/-! ## Which texts are read -/

/-- A digit of either case. -/
def IsDigit (c : Char) : Prop :=
  '0' ≤ c ∧ c ≤ '9' ∨ 'a' ≤ c ∧ c ≤ 'f' ∨ 'A' ≤ c ∧ c ≤ 'F'

instance (c : Char) : Decidable (IsDigit c) :=
  inferInstanceAs (Decidable (_ ∨ _))

/-- An even number of digits of either case. -/
structure IsHex (text : String) : Prop where
  even : text.length % 2 = 0
  digits : ∀ c ∈ text.toList, IsDigit c

theorem exists_value?_iff {c : Char} : (∃ v, value? c = some v) ↔ IsDigit c := by
  unfold value? IsDigit
  split
  · simp [*]
  · split
    · simp [*]
    · split <;> simp [*]

theorem exists_decodeChars_iff {chars : List Char} {read : Bytes} :
    (∃ bytes, decodeChars chars read = some bytes) ↔
      chars.length % 2 = 0 ∧ ∀ c ∈ chars, IsDigit c := by
  induction chars, read using decodeChars.induct with
  | case1 read => simp [decodeChars]
  | case2 high low rest read m l hlow hhigh ih =>
    have hhigh' : IsDigit high := exists_value?_iff.1 ⟨m, hhigh⟩
    have hlow' : IsDigit low := exists_value?_iff.1 ⟨l, hlow⟩
    unfold decodeChars
    simp only [hhigh, hlow, ih, List.length_cons, List.forall_mem_cons, hhigh', hlow', true_and]
    rw [show (rest.length + 1 + 1) % 2 = rest.length % 2 by omega]
  | case3 high low rest read hnone =>
    refine iff_of_false ?_ ?_
    · rintro ⟨bytes, hbytes⟩
      unfold decodeChars at hbytes
      split at hbytes
      · rename_i m l hhigh hlow
        exact hnone m l hhigh hlow
      · cases hbytes
    · rintro ⟨-, hdigits⟩
      obtain ⟨m, hhigh⟩ := exists_value?_iff.2 (hdigits high (by simp))
      obtain ⟨l, hlow⟩ := exists_value?_iff.2 (hdigits low (by simp))
      exact hnone m l hhigh hlow
  | case4 c read => simp [decodeChars]

/-- A text is read exactly if it is made up of pairs of digits. -/
theorem exists_decode?_iff {text : String} : (∃ bytes, decode? text = some bytes) ↔ IsHex text := by
  unfold decode?
  rw [exists_decodeChars_iff, String.length_toList]
  exact ⟨fun h => ⟨h.1, h.2⟩, fun h => ⟨h.even, h.digits⟩⟩

instance (text : String) : Decidable (IsHex text) :=
  -- only the digits of the text are looked at, not every character there is
  haveI := List.decidableBAll IsDigit text.toList
  decidable_of_iff (text.length % 2 = 0 ∧ ∀ c ∈ text.toList, IsDigit c)
    ⟨fun h => ⟨h.1, h.2⟩, fun h => ⟨h.even, h.digits⟩⟩

/-! ## Digests -/

/-- An even number of digits, all of them in lowercase. -/
structure IsDigest (text : String) : Prop where
  even : text.length % 2 = 0
  lowercase : ∀ c ∈ text.toList, '0' ≤ c ∧ c ≤ '9' ∨ 'a' ≤ c ∧ c ≤ 'f'

theorem digit_lowercase :
    ∀ n < 16, '0' ≤ digit n ∧ digit n ≤ '9' ∨ 'a' ≤ digit n ∧ digit n ≤ 'f' := by
  decide

/-- A byte string is written as a digest. -/
theorem isDigest_encode (bytes : Bytes) : IsDigest (encode bytes) := by
  refine ⟨?_, ?_⟩
  · rw [encode, String.length_ofList, length_encodeChars, Nat.mul_mod_right]
  · rw [encode, String.toList_ofList]
    intro c hc
    obtain ⟨byte, -, hmem⟩ := List.mem_flatMap.1 hc
    have hlt := byte.toNat_lt
    simp only [List.mem_cons, List.not_mem_nil, or_false] at hmem
    rcases hmem with rfl | rfl
    · exact digit_lowercase _ (by omega)
    · exact digit_lowercase _ (by omega)

/-- Two digits are read for each byte. -/
theorem length_of_decode? {text : String} {bytes : Bytes} (h : decode? text = some bytes) :
    bytes.length = text.length / 2 := by
  have hlen := congrArg List.length (encodeChars_of_decodeChars h)
  rw [length_encodeChars, List.length_append, length_encodeChars, List.length_map,
    String.length_toList] at hlen
  simp only [List.reverse_nil, List.length_nil] at hlen
  omega

end Hex
end ModuleRecord
