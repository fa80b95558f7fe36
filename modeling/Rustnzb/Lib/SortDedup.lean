import Mathlib.Data.List.Destutter
import Mathlib.Data.List.Sort

/-!
# Sorting a list and dropping what is repeated

`sortDedup` sorts and then drops each element that equals the one before it. The result is the
ascending list of the elements, so that it depends on the set of them only.
-/

namespace Rustnzb.Lib

universe u

variable {α : Type u} [LinearOrder α] {items other : List α}

def sortDedup (items : List α) : List α :=
  (items.mergeSort (· ≤ ·)).destutter (· ≠ ·)

theorem mem_destutter_ne {item : α} : item ∈ items.destutter (· ≠ ·) ↔ item ∈ items := by
  have kept : ∀ rest first, item ∈ first :: rest → item ∈ List.destutter' (· ≠ ·) first rest := by
    intro rest
    induction rest with
    | nil => simp
    | cons second rest ih =>
        intro first mem
        by_cases same : first = second
        · subst same
          rw [List.destutter'_cons_neg _ (by simp)]
          apply ih
          simpa using mem
        · rw [List.destutter'_cons_pos _ same]
          rcases List.mem_cons.mp mem with rfl | later
          · exact List.mem_cons_self
          · exact List.mem_cons_of_mem _ (ih second later)
  constructor
  · intro mem
    exact (List.destutter_sublist _ items).mem mem
  · intro mem
    cases items with
    | nil => exact mem
    | cons first rest => exact kept rest first mem

@[simp]
theorem mem_sortDedup {item : α} : item ∈ sortDedup items ↔ item ∈ items := by
  rw [sortDedup, mem_destutter_ne, List.mem_mergeSort]

theorem ascending_sortDedup (items : List α) : (sortDedup items).Pairwise (· < ·) := by
  have sorted := (List.pairwise_mergeSort' (· ≤ ·) items).sublist
    (List.destutter_sublist (· ≠ ·) _)
  have distinct := List.isChain_destutter (· ≠ ·) (items.mergeSort (· ≤ ·))
  have ascending : (sortDedup items).IsChain (· < ·) := by
    rw [List.isChain_iff_getElem] at distinct ⊢
    intro i inside
    have le := List.pairwise_iff_getElem.mp sorted i (i + 1)
      (Nat.lt_of_succ_lt inside) inside i.lt_succ_self
    exact lt_of_le_of_ne le (distinct i inside)
  exact List.isChain_iff_pairwise.mp ascending

/-- Two ascending lists of the same elements are one list. -/
theorem eq_of_ascending (ascending : items.Pairwise (· < ·)) (ascending' : other.Pairwise (· < ·))
    (same : ∀ item, item ∈ items ↔ item ∈ other) : items = other := by
  have perm : items.Perm other := by
    rw [List.perm_ext_iff_of_nodup (ascending.imp ne_of_lt) (ascending'.imp ne_of_lt)]
    exact same
  refine perm.eq_of_pairwise (fun first second _ _ before after => ?_) ascending ascending'
  exact absurd after (lt_asymm before)

theorem sortDedup_of_ascending (ascending : items.Pairwise (· < ·)) : sortDedup items = items :=
  eq_of_ascending (ascending_sortDedup items) ascending fun _ => mem_sortDedup

theorem sortDedup_congr (same : ∀ item, item ∈ items ↔ item ∈ other) :
    sortDedup items = sortDedup other :=
  eq_of_ascending (ascending_sortDedup items) (ascending_sortDedup other)
    fun item => by rw [mem_sortDedup, mem_sortDedup, same]

end Rustnzb.Lib
