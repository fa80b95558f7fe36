import Mathlib.Tactic

/-!
# The first bits of a word

Two words agree up to some length if their most significant bits do. A mask of that many bits tells
whether they agree, and so does the number that these bits are.
-/

namespace Rustnzb.Lib

variable {w length : ℕ} {first second : BitVec w}

/-- The first `length` bits are the same. -/
def AgreeUpTo (length : ℕ) (first second : BitVec w) : Prop :=
  ∀ i < length, first.getMsbD i = second.getMsbD i

theorem AgreeUpTo.mono {shorter : ℕ} (agree : AgreeUpTo length first second)
    (le : shorter ≤ length) : AgreeUpTo shorter first second :=
  fun i inside => agree i (inside.trans_le le)

/-- The word of `length` ones and then zeros. -/
def highMask (w length : ℕ) : BitVec w := BitVec.allOnes w <<< (w - length)

theorem agreeUpTo_iff_getLsbD (fits : length ≤ w) :
    AgreeUpTo length first second ↔
      ∀ i, w - length ≤ i → i < w → first.getLsbD i = second.getLsbD i := by
  constructor
  · intro agree i high inside
    have same := agree (w - 1 - i) (by omega)
    have back : w - 1 - (w - 1 - i) = i := by omega
    simpa [BitVec.getMsbD_eq_getLsbD, back, show w - 1 - i < w by omega] using same
  · intro same i inside
    rw [BitVec.getMsbD_eq_getLsbD, BitVec.getMsbD_eq_getLsbD,
      same (w - 1 - i) (by omega) (by omega)]

theorem and_highMask_eq_iff (fits : length ≤ w) :
    first &&& highMask w length = second &&& highMask w length ↔
      AgreeUpTo length first second := by
  rw [agreeUpTo_iff_getLsbD fits, BitVec.eq_of_getLsbD_eq_iff]
  refine forall_congr' fun i => ?_
  rw [BitVec.getLsbD_and, BitVec.getLsbD_and, highMask, BitVec.getLsbD_shiftLeft,
    BitVec.getLsbD_allOnes]
  by_cases inside : i < w
  · by_cases high : w - length ≤ i
    · have below : i - (w - length) < w := by omega
      simp [inside, high, below, not_lt.mpr high]
    · simp [inside, high, not_le.mp high]
  · simp [inside]

theorem agreeUpTo_iff_toNat (fits : length ≤ w) :
    AgreeUpTo length first second ↔
      first.toNat / 2 ^ (w - length) = second.toNat / 2 ^ (w - length) := by
  have shifted : first.toNat / 2 ^ (w - length) = second.toNat / 2 ^ (w - length) ↔
      first >>> (w - length) = second >>> (w - length) := by
    rw [← BitVec.toNat_inj, BitVec.toNat_ushiftRight, BitVec.toNat_ushiftRight,
      Nat.shiftRight_eq_div_pow, Nat.shiftRight_eq_div_pow]
  rw [shifted, agreeUpTo_iff_getLsbD fits, BitVec.eq_of_getLsbD_eq_iff]
  constructor
  · intro same i inside
    rw [BitVec.getLsbD_ushiftRight, BitVec.getLsbD_ushiftRight]
    by_cases within : w - length + i < w
    · exact same _ (Nat.le_add_right _ _) within
    · rw [BitVec.getLsbD_of_ge _ _ (by omega), BitVec.getLsbD_of_ge _ _ (by omega)]
  · intro same i high inside
    have bit := same (i - (w - length)) (by omega)
    rw [BitVec.getLsbD_ushiftRight, BitVec.getLsbD_ushiftRight,
      Nat.add_sub_cancel' high] at bit
    exact bit

/-- Words that agree in all their bits are one word. -/
theorem agreeUpTo_width : AgreeUpTo w first second ↔ first = second := by
  rw [agreeUpTo_iff_toNat le_rfl, Nat.sub_self, pow_zero, Nat.div_one, Nat.div_one,
    BitVec.toNat_inj]

end Rustnzb.Lib
