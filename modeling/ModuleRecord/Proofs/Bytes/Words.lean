import Mathlib.Algebra.Ring.Nat
import Mathlib.Data.List.Induction
import ModuleRecord.Bytes.Basic

/-!
# Words and prefixes of byte strings

`Bytes.ofNat` and `Bytes.toNat` are inverse to each other, up to the width of the word in the one
direction and without any loss in the other. `Bytes.cut?` undoes appending, and nothing else.
-/

namespace ModuleRecord
namespace Bytes

/-! ## Words -/

/-- A word that is laid out reads as its low digits. -/
theorem toNat_ofNat (width n : Nat) : toNat (ofNat width n) = n % 256 ^ width := by
  induction width generalizing n with
  | zero => rw [ofNat, toNat_nil, Nat.pow_zero, Nat.mod_one]
  | succ width ih =>
    rw [ofNat, toNat_append_singleton, ih, UInt8.toNat_ofNat', Nat.pow_succ' (n := width),
      Nat.mod_mul]
    omega

theorem toNat_ofNat_of_lt {width n : Nat} (h : n < 256 ^ width) : toNat (ofNat width n) = n := by
  rw [toNat_ofNat, Nat.mod_eq_of_lt h]

/-- Every byte string is the layout of the word that it reads as. -/
theorem ofNat_toNat (bytes : Bytes) : ofNat bytes.length (toNat bytes) = bytes := by
  induction bytes using List.reverseRecOn with
  | nil => rfl
  | append_singleton front byte ih =>
    have hdiv : (toNat front * 256 + byte.toNat) / 256 = toNat front := by
      have := byte.toNat_lt
      omega
    have hlow : UInt8.ofNat (toNat front * 256 + byte.toNat) = byte := by
      apply UInt8.toNat_inj.mp
      rw [UInt8.toNat_ofNat']
      have := byte.toNat_lt
      omega
    rw [List.length_append, List.length_singleton, toNat_append_singleton, ofNat, hdiv, ih, hlow]

theorem toNat_lt (bytes : Bytes) : toNat bytes < 256 ^ bytes.length := by
  have h := toNat_ofNat bytes.length (toNat bytes)
  rw [ofNat_toNat] at h
  rw [h]
  exact Nat.mod_lt _ (Nat.pow_pos (by decide))

/-- Words of one width that are laid out alike agree in their low digits. -/
theorem ofNat_eq_of_length {bytes : Bytes} {width : Nat} (h : bytes.length = width) :
    ofNat width (toNat bytes) = bytes := by
  rw [← h, ofNat_toNat]

@[simp] theorem length_ofUInt16 (word : UInt16) : (ofUInt16 word).length = 2 :=
  length_ofNat 2 _

theorem ofUInt16_inj {word word' : UInt16} : ofUInt16 word = ofUInt16 word' ↔ word = word' := by
  refine ⟨fun h => UInt16.toNat_inj.1 ?_, fun h => by rw [h]⟩
  have hread := congrArg toNat h
  rwa [ofUInt16, ofUInt16, toNat_ofNat_of_lt word.toNat_lt,
    toNat_ofNat_of_lt word'.toNat_lt] at hread

/-- A count below the limit of its word is laid out as that word. -/
theorem ofNat_two_eq_ofUInt16 {n : Nat} (h : n ≤ 0xFFFF) :
    ofNat 2 n = ofUInt16 (UInt16.ofNat n) := by
  rw [ofUInt16, UInt16.toNat_ofNat_of_lt' (by rw [UInt16.size]; omega)]

/-! ## Prefixes -/

theorem cut?_append {n : Nat} {front : Bytes} (h : front.length = n) (rest : Bytes) :
    cut? n (front ++ rest) = some (front, rest) := by
  rw [cut?, ← h, List.take_left, List.drop_left]
  exact if_pos rfl

theorem cut?_eq_some_iff {n : Nat} {bytes front rest : Bytes} :
    cut? n bytes = some (front, rest) ↔ bytes = front ++ rest ∧ front.length = n := by
  constructor
  · intro h
    dsimp only [cut?] at h
    split at h
    · rename_i hlen
      cases h
      exact ⟨(List.take_append_drop n bytes).symm, hlen⟩
    · exact absurd h (by simp)
  · rintro ⟨rfl, hlen⟩
    exact cut?_append hlen rest

/-- Only a string that is too short cannot be cut. -/
theorem cut?_eq_none_iff {n : Nat} {bytes : Bytes} : cut? n bytes = none ↔ bytes.length < n := by
  unfold cut?
  simp only [List.length_take, ite_eq_right_iff, reduceCtorEq, imp_false]
  omega

/-! ## Overwriting -/

/-- The bytes with a patch in the place of as many bytes from an offset on. -/
def overwrite (bytes : Bytes) (offset : Nat) (patch : Bytes) : Bytes :=
  bytes.take offset ++ patch ++ bytes.drop (offset + patch.length)

/-- A patch replaces the field of its own length that stands at the offset. -/
theorem overwrite_append {front field patch : Bytes} (h : field.length = patch.length)
    (back : Bytes) :
    overwrite (front ++ (field ++ back)) front.length patch = front ++ (patch ++ back) := by
  unfold overwrite
  rw [List.take_left, ← List.drop_drop, List.drop_left, ← h, List.drop_left, List.append_assoc]

end Bytes
end ModuleRecord
