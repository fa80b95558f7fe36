import Mathlib.Tactic

/-!
# Counting a cover instead of tracking it

A finite target is filled by a list of finite pieces. A program that does not remember which
elements are filled may add up the sizes of the overlaps instead. This file says how the part that
is really covered and the sum of the overlaps grow with each piece.
-/

namespace Rustnzb.Lib

universe u

variable {α : Type u} [DecidableEq α]

/-- The part of `target` that lies in some piece. -/
def covered (target : Finset α) (pieces : List (Finset α)) : Finset α :=
  target.filter fun point => ∃ piece ∈ pieces, point ∈ piece

/-- The sum of the overlaps of the pieces with `target`. -/
def counted (target : Finset α) (pieces : List (Finset α)) : ℕ :=
  (pieces.map fun piece => (target ∩ piece).card).sum

variable {target : Finset α} {pieces : List (Finset α)} {piece : Finset α}

@[simp]
theorem counted_nil : counted target [] = 0 := by
  simp [counted]

@[simp]
theorem counted_append_singleton :
    counted target (pieces ++ [piece]) = counted target pieces + (target ∩ piece).card := by
  simp [counted]

theorem covered_subset (target : Finset α) (pieces : List (Finset α)) :
    covered target pieces ⊆ target :=
  Finset.filter_subset _ _

theorem covered_mono_append (more : List (Finset α)) :
    covered target pieces ⊆ covered target (pieces ++ more) := by
  intro point pointMem
  simp only [covered, Finset.mem_filter] at pointMem ⊢
  rcases pointMem with ⟨inTarget, other, otherMem, inOther⟩
  exact ⟨inTarget, other, List.mem_append_left _ otherMem, inOther⟩

/-- The overlap of two half-open ranges of naturals, computed from their endpoints. -/
theorem card_Ico_inter_Ico (a b c d : ℕ) :
    (Finset.Ico a b ∩ Finset.Ico c d).card = min b d - max a c := by
  rw [Finset.Ico_inter_Ico, Nat.card_Ico]

end Rustnzb.Lib
