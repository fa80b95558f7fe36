import Rustnzb.Dispatch.Submission

/-!
# NZBs that leave segments out

A file of an NZB is incomplete when its segment numbers are not exactly `1..=N`. Only the last one
shows how many there are.
-/

namespace Rustnzb.Dispatch

/-- `(listed, highest)` when the segment numbers are not exactly `1..=N`. -/
def nzbSegmentGap (segmentNumbers : List ℕ) : Option (ℕ × ℕ) :=
  let numbers := (segmentNumbers.filter (· ≠ 0)).dedup.insertionSort (· ≤ ·)
  let listed := numbers.length
  match numbers.getLast? with
  | none => none
  | some highest => if highest ≠ listed then some (listed, highest) else none

/-- The job-level note for an NZB that leaves segments out of any file. -/
def incompleteNzbReason (job : NzbJob) : Option String :=
  let gaps := job.files.filterMap fun file =>
    (nzbSegmentGap (file.articles.map Article.segmentNumber)).map fun (listed, highest) =>
      file.filename ++ " (" ++ toString listed ++ " of " ++ toString highest ++ ")"
  if gaps.isEmpty then none
  else some ("Incomplete NZB: segments missing from the NZB for " ++ ", ".intercalate gaps)

theorem listed_of_no_gap {numbers : List ℕ} (noGap : nzbSegmentGap numbers = none) {top : ℕ}
    (listed : top ∈ numbers) {segment : ℕ} (positive : 1 ≤ segment) (le : segment ≤ top) :
    segment ∈ numbers := by
  let sorted := (numbers.filter (· ≠ 0)).dedup.insertionSort (· ≤ ·)
  have mem : ∀ number, number ∈ sorted ↔ number ∈ numbers ∧ number ≠ 0 := by
    intro number
    simp [sorted]
  have nodup : sorted.Nodup := (List.perm_insertionSort _ _).nodup_iff.mpr (List.nodup_dedup _)
  have topMem : top ∈ sorted := (mem top).mpr ⟨listed, by omega⟩
  have nonempty : sorted ≠ [] := List.ne_nil_of_mem topMem
  have last : sorted.getLast nonempty = sorted.length := by
    simp only [nzbSegmentGap] at noGap
    rw [show (numbers.filter (· ≠ 0)).dedup.insertionSort (· ≤ ·) = sorted from rfl,
      List.getLast?_eq_getLast_of_ne_nil nonempty] at noGap
    by_contra differs
    simp [differs] at noGap
  have bounded : ∀ number ∈ sorted, number ≤ sorted.length := by
    intro number numberMem
    rw [← last]
    exact (List.pairwise_insertionSort (· ≤ ·) _).rel_getLast numberMem
  -- as many different positive numbers as the greatest of them
  have all : sorted.toFinset = Finset.Icc 1 sorted.length := by
    apply Finset.eq_of_subset_of_card_le
    · intro number numberMem
      have here := List.mem_toFinset.mp numberMem
      rw [Finset.mem_Icc]
      exact ⟨Nat.one_le_iff_ne_zero.mpr ((mem number).mp here).2, bounded number here⟩
    · rw [Nat.card_Icc, List.toFinset_card_of_nodup nodup]
      omega
  have inRange : segment ∈ sorted.toFinset := by
    rw [all, Finset.mem_Icc]
    exact ⟨positive, le.trans (bounded top topMem)⟩
  exact ((mem segment).mp (List.mem_toFinset.mp inRange)).1

end Rustnzb.Dispatch
