import Mathlib.Data.List.Destutter
import Mathlib.Data.List.Sort

/-!
# Sorting by a key and keeping the first of each key

The sort is stable, so that what `destutter` keeps of a key is what came first before the sort.
-/

namespace Rustnzb.Lib

universe u v

variable {α : Type u} {κ : Type v} [LinearOrder κ] (key : α → κ)

def firstOfKey (items : List α) : List α :=
  (items.insertionSort fun first second => key first ≤ key second).destutter
    fun first second => key first ≠ key second

theorem filter_insertionSort_key (items : List α) (wanted : κ) :
    (items.insertionSort fun first second => key first ≤ key second).filter (key · = wanted) =
      items.filter (key · = wanted) := by
  have alike : (items.filter (key · = wanted)).Pairwise fun first second =>
      key first ≤ key second := by
    apply List.pairwise_of_forall_mem_list
    intro first first_mem second second_mem
    have first_eq := List.of_mem_filter first_mem
    have second_eq := List.of_mem_filter second_mem
    rw [of_decide_eq_true first_eq, of_decide_eq_true second_eq]
  have sub := (List.sublist_insertionSort (r := fun first second => key first ≤ key second)
    alike List.filter_sublist).filter (key · = wanted)
  simp only [List.filter_filter, Bool.and_self] at sub
  have perm := (List.perm_insertionSort (fun first second => key first ≤ key second) items).filter
    (key · = wanted)
  exact (sub.eq_of_length perm.length_eq.symm).symm

/-- Of an ascending list `destutter` keeps the first of each key. -/
theorem filter_destutter'_key (rest : List α) (first : α) (wanted : κ)
    (ascending : (first :: rest).Pairwise fun first second => key first ≤ key second) :
    (List.destutter' (fun first second => key first ≠ key second) first rest).filter
        (key · = wanted) =
      ((first :: rest).filter (key · = wanted)).take 1 := by
  induction rest generalizing first with
  | nil => by_cases eq : key first = wanted <;> simp [eq]
  | cons second rest ih =>
      rcases List.pairwise_cons.mp ascending with ⟨above, ascending⟩
      by_cases same : key first = key second
      · have short : (first :: rest).Pairwise fun first second => key first ≤ key second :=
          List.pairwise_cons.mpr ⟨fun other mem => above other (List.mem_cons_of_mem second mem),
            (List.pairwise_cons.mp ascending).2⟩
        rw [List.destutter'_cons_neg _ (not_not.mpr same), ih first short]
        by_cases eq : key first = wanted
        · simp [eq]
        · simp [eq, same ▸ eq]
      · rw [List.destutter'_cons_pos _ same, List.filter_cons, ih second ascending]
        by_cases eq : key first = wanted
        · have none : (second :: rest).filter (key · = wanted) = [] := by
            rw [List.filter_eq_nil_iff]
            intro other mem
            have lt : key first < key second :=
              lt_of_le_of_ne (above second List.mem_cons_self) same
            have le : key second ≤ key other := by
              rcases List.mem_cons.mp mem with rfl | later
              · exact le_rfl
              · exact (List.pairwise_cons.mp ascending).1 other later
            rw [decide_eq_true_eq, ← eq]
            exact (lt_of_lt_of_le lt le).ne'
          simp [eq, none]
        · simp [eq]

theorem mem_firstOfKey {items : List α} {item : α} :
    item ∈ firstOfKey key items ↔ items.find? (key · = key item) = some item := by
  have kept : (firstOfKey key items).filter (key · = key item) =
      (items.filter (key · = key item)).take 1 := by
    rw [← filter_insertionSort_key key items, firstOfKey]
    have ascending := List.pairwise_insertionSort
      (fun first second : α => key first ≤ key second) items
    cases sorted : items.insertionSort fun first second => key first ≤ key second with
    | nil => rfl
    | cons first rest =>
        rw [sorted] at ascending
        exact filter_destutter'_key key rest first (key item) ascending
  have self : item ∈ firstOfKey key items ↔
      item ∈ (firstOfKey key items).filter (key · = key item) := by simp
  rw [self, kept, ← List.head?_filter]
  cases items.filter (key · = key item) <;> simp [eq_comm]

end Rustnzb.Lib
