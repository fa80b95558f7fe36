import Mathlib.Tactic

/-!
# Recovering vectors from power sums

Vectors `D i` over a field are summed with the weights `c i ^ e`. A sum over some of the indices
can be accumulated one index at a time, in any order. Where every vector is its own negative, a
sum over a set of indices cancels against the sum over a larger set, which leaves the indices in
between; a left inverse of the matrix of their weights then recovers each of their vectors.
-/

namespace Rustnzb.Lib

universe u v w

section PowerSum

variable {ι : Type u} {K : Type v} {V : Type w} [Field K] [AddCommGroup V] [Module K V]

/-- The sum of the vectors of `indices`, each with the weight `c i ^ e`. -/
def powerSum (c : ι → K) (D : ι → V) (e : ℕ) (indices : Finset ι) : V :=
  ∑ i ∈ indices, c i ^ e • D i

variable {c : ι → K} {D : ι → V} {e : ℕ}

@[simp]
theorem powerSum_empty : powerSum c D e ∅ = 0 := by
  simp [powerSum]

variable [DecidableEq ι]

theorem powerSum_union {left right : Finset ι} (apart : Disjoint left right) :
    powerSum c D e (left ∪ right) = powerSum c D e left + powerSum c D e right :=
  Finset.sum_union apart

theorem powerSum_toFinset {indices : List ι} (distinct : indices.Nodup) :
    powerSum c D e indices.toFinset = (indices.map fun i => c i ^ e • D i).sum :=
  List.sum_toFinset _ distinct

/-- Removing the pending part of a sum and adding some of it back removes what is still
pending. -/
theorem powerSum_sdiff_add {all pending back : Finset ι} (backPending : back ⊆ pending)
    (pendingAll : pending ⊆ all) :
    powerSum c D e (all \ pending) + powerSum c D e back =
      powerSum c D e (all \ (pending \ back)) := by
  rw [← powerSum_union]
  · congr 1
    ext i
    simp only [Finset.mem_union, Finset.mem_sdiff]
    constructor
    · rintro (⟨inAll, notPending⟩ | inBack)
      · exact ⟨inAll, fun still => notPending still.1⟩
      · exact ⟨pendingAll (backPending inBack), fun still => still.2 inBack⟩
    · rintro ⟨inAll, notStill⟩
      by_cases inBack : i ∈ back
      · exact Or.inr inBack
      · exact Or.inl ⟨inAll, fun inPending => notStill ⟨inPending, inBack⟩⟩
  · rw [Finset.disjoint_left]
    intro i inRest inBack
    exact (Finset.mem_sdiff.mp inRest).2 (backPending inBack)

/-- Where every vector is its own negative, the part of a sum that two sets share cancels. -/
theorem powerSum_add_of_subset (double : ∀ x : V, x + x = 0) {part all : Finset ι}
    (subset : part ⊆ all) :
    powerSum c D e part + powerSum c D e all = powerSum c D e (all \ part) := by
  have split : powerSum c D e all = powerSum c D e part + powerSum c D e (all \ part) := by
    rw [← powerSum_union Finset.disjoint_sdiff, Finset.union_sdiff_of_subset subset]
  rw [split, ← add_assoc, double, zero_add]

end PowerSum

section Solve

variable {ι : Type u} {K : Type v} {V : Type w} [Field K] [AddCommGroup V] [Module K V]
  {d : ℕ}

/-- The weights of the unknown indices `J` in the rows with the exponents `E`. -/
def weights (c : ι → K) (E : Fin d → ℕ) (J : Fin d → ι) : Matrix (Fin d) (Fin d) K :=
  Matrix.of fun e j => c (J j) ^ E e

variable {c : ι → K} {E : Fin d → ℕ} {J : Fin d → ι} {N : Matrix (Fin d) (Fin d) K}

/-- An invertible matrix of weights has no index twice. -/
theorem injective_of_inverse (inverse : N * weights c E J = 1) : Function.Injective J := by
  intro left right same
  by_contra different
  have columns : (N * weights c E J) left left = (N * weights c E J) left right := by
    simp only [Matrix.mul_apply, weights, Matrix.of_apply, same]
  rw [inverse, Matrix.one_apply_eq, Matrix.one_apply_ne different] at columns
  exact one_ne_zero columns

/-- A left inverse of the weights recovers each unknown vector from the sums over the unknown
indices. -/
theorem recover [DecidableEq ι] (D : ι → V) (inverse : N * weights c E J = 1) (j : Fin d) :
    ∑ e, N j e • powerSum c D (E e) (Finset.univ.image J) = D (J j) := by
  have expand : ∀ e, powerSum c D (E e) (Finset.univ.image J) = ∑ k, c (J k) ^ E e • D (J k) := by
    intro e
    rw [powerSum, Finset.sum_image (fun _ _ _ _ same => injective_of_inverse inverse same)]
  calc ∑ e, N j e • powerSum c D (E e) (Finset.univ.image J)
      = ∑ e, ∑ k, (N j e * c (J k) ^ E e) • D (J k) := by
        refine Finset.sum_congr rfl fun e _ => ?_
        rw [expand e, Finset.smul_sum]
        exact Finset.sum_congr rfl fun k _ => smul_smul _ _ _
    _ = ∑ k, (∑ e, N j e * c (J k) ^ E e) • D (J k) := by
        rw [Finset.sum_comm]
        exact Finset.sum_congr rfl fun k _ => (Finset.sum_smul ..).symm
    _ = ∑ k, (1 : Matrix (Fin d) (Fin d) K) j k • D (J k) := by
        refine Finset.sum_congr rfl fun k _ => ?_
        rw [← inverse, Matrix.mul_apply]
        rfl
    _ = D (J j) := by
        simp [Matrix.one_apply]

end Solve

end Rustnzb.Lib
