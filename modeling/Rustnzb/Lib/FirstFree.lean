import Mathlib.Data.List.Nodup

/-!
# The first free candidate

Candidates are tried one after the other until one is not taken. When they all differ, one is found
after as many as are taken.
-/

namespace Rustnzb.Lib

universe u

variable {α : Type u} [DecidableEq α]

def tryFrom (candidate : ℕ → α) (taken : List α) : ℕ → ℕ → ℕ
  | 0, index => index
  | fuel + 1, index =>
      if candidate index ∈ taken then tryFrom candidate taken fuel (index + 1) else index

def firstFree (candidate : ℕ → α) (taken : List α) : α :=
  candidate (tryFrom candidate taken taken.length 0)

variable {candidate : ℕ → α} {taken : List α}

/-- The search stops at a free candidate, or it has tried as many as it may. -/
theorem tryFrom_spec (candidate : ℕ → α) (taken : List α) (fuel index : ℕ) :
    candidate (tryFrom candidate taken fuel index) ∉ taken ∨
      tryFrom candidate taken fuel index = index + fuel ∧
        ∀ offset < fuel, candidate (index + offset) ∈ taken := by
  induction fuel generalizing index with
  | zero => exact .inr ⟨rfl, fun _ inside => absurd inside (Nat.not_lt_zero _)⟩
  | succ fuel ih =>
      rw [tryFrom]
      split
      next isTaken =>
        rcases ih (index + 1) with free | ⟨last, earlier⟩
        · exact .inl free
        · refine .inr ⟨by omega, fun offset inside => ?_⟩
          rcases offset with _ | offset
          · exact isTaken
          · have next := earlier offset (by omega)
            rwa [show index + (offset + 1) = index + 1 + offset by omega]
      next free => exact .inl free

theorem firstFree_not_mem (differ : Function.Injective candidate) :
    firstFree candidate taken ∉ taken := by
  rcases tryFrom_spec candidate taken taken.length 0 with free | ⟨last, earlier⟩
  · exact free
  · intro isTaken
    rw [firstFree, last] at isTaken
    have all : ((List.range (taken.length + 1)).map candidate) ⊆ taken := by
      intro item mem
      rcases List.mem_map.mp mem with ⟨index, inside, rfl⟩
      rcases Nat.lt_succ_iff_lt_or_eq.mp (List.mem_range.mp inside) with lower | rfl
      · simpa using earlier index lower
      · simpa using isTaken
    have fits := (List.nodup_range.map differ).length_le_of_subset all
    rw [List.length_map, List.length_range] at fits
    exact absurd fits (Nat.not_succ_le_self _)

end Rustnzb.Lib
