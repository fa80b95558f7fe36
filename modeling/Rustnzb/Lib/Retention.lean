import Mathlib.Data.List.Sort

/-!
# Keeping the newest

Of a list in the order of time, the newest are kept, and the newest of every group. The order of
time is that of the keys where the keys ascend from the oldest to the newest.
-/

namespace Rustnzb.Lib

universe u v

variable {α : Type u} {Group : Type v}

/-- What is to go, from the newest to the oldest. `index` have been seen, of the groups `kept`. -/
def expired [DecidableEq Group] (limit : ℕ) (group : α → Option Group) :
    ℕ → List Group → List α → List α
  | _, _, [] => []
  | index, kept, item :: items =>
      match (group item).filter (· ∉ kept) with
      | some new => expired limit group (index + 1) (new :: kept) items
      | none =>
          if index < limit then expired limit group (index + 1) kept items
          else item :: expired limit group (index + 1) kept items

/-- The item is due to be kept, in a list from the oldest to the newest. -/
def Due (limit : ℕ) (group : α → Option Group) (items : List α) (item : α) : Prop :=
  ∃ before after, items = before ++ item :: after ∧
    (after.length < limit ∨
      ∃ own, group item = some own ∧ ∀ other ∈ after, group other ≠ some own)

variable {limit index : ℕ} {group : α → Option Group} {kept : List Group} {items : List α}
    {item : α}

/-- There is a place of the item in the list with as many before it, and its group before it. -/
def Passed (limit : ℕ) (group : α → Option Group) (index : ℕ) (kept : List Group) (items : List α)
    (item : α) : Prop :=
  ∃ before after, items = before ++ item :: after ∧ limit ≤ index + before.length ∧
    ∀ own, group item = some own → own ∈ kept ∨ ∃ other ∈ before, group other = some own

theorem passed_cons_iff {first : α} : Passed limit group index kept (first :: items) item ↔
    (item = first ∧ limit ≤ index ∧ ∀ own, group item = some own → own ∈ kept) ∨
      Passed limit group (index + 1) ((group first).toList ++ kept) items item := by
  constructor
  · rintro ⟨_ | ⟨_, before⟩, after, split, enough, grouped⟩
    · rw [List.nil_append, List.cons_eq_cons] at split
      exact .inl ⟨split.1.symm, enough, fun own isOwn => (grouped own isOwn).elim id (by simp)⟩
    · rw [List.cons_append, List.cons_eq_cons] at split
      rcases split with ⟨rfl, rfl⟩
      refine .inr ⟨before, after, rfl, by simp only [List.length_cons] at enough; omega, ?_⟩
      intro own isOwn
      rcases grouped own isOwn with isKept | ⟨other, mem, isGroup⟩
      · exact .inl (List.mem_append_right _ isKept)
      · rcases List.mem_cons.mp mem with rfl | later
        · exact .inl (List.mem_append_left _ (by simp [isGroup]))
        · exact .inr ⟨other, later, isGroup⟩
  · rintro (⟨rfl, enough, grouped⟩ | ⟨before, after, rfl, enough, grouped⟩)
    · exact ⟨[], items, rfl, enough, fun own isOwn => .inl (grouped own isOwn)⟩
    · refine ⟨first :: before, after, rfl, by simp only [List.length_cons]; omega, ?_⟩
      intro own isOwn
      rcases grouped own isOwn with isKept | ⟨other, mem, isGroup⟩
      · rcases List.mem_append.mp isKept with isFirst | earlier
        · exact .inr ⟨first, List.mem_cons_self, by simpa using isFirst⟩
        · exact .inl earlier
      · exact .inr ⟨other, List.mem_cons_of_mem _ mem, isGroup⟩

/-- A group that is kept already is not kept twice. -/
theorem passed_congr {kept' : List Group} (same : ∀ own, own ∈ kept ↔ own ∈ kept') :
    Passed limit group index kept items item ↔ Passed limit group index kept' items item := by
  simp only [Passed, same]

theorem mem_expired_iff [DecidableEq Group] :
    item ∈ expired limit group index kept items ↔ Passed limit group index kept items item := by
  induction items generalizing index kept with
  | nil => simp [expired, Passed]
  | cons first items ih =>
      rw [passed_cons_iff, expired]
      split
      next new isNew =>
        rw [Option.filter_eq_some_iff] at isNew
        have notKept : new ∉ kept := of_decide_eq_true isNew.2
        have unkept : ¬(item = first ∧ limit ≤ index ∧ ∀ own, group item = some own → own ∈ kept) :=
          fun ⟨isFirst, _, grouped⟩ => notKept (grouped new (isFirst ▸ isNew.1))
        rw [ih, or_iff_right unkept, isNew.1]
        rfl
      next old =>
        have grouped : ∀ own, group first = some own → own ∈ kept := by
          intro own isOwn
          rw [isOwn, Option.filter_eq_none_iff] at old
          simpa using old own rfl
        have same : ∀ own, own ∈ kept ↔ own ∈ (group first).toList ++ kept := by
          intro own
          rw [List.mem_append, Option.mem_toList]
          exact ⟨.inr, fun either => either.elim (grouped own) id⟩
        split
        next early =>
          rw [ih, passed_congr same, or_iff_right fun here => absurd here.2.1 (by omega)]
        next late =>
          rw [List.mem_cons, ih, passed_congr same]
          refine or_congr_left ⟨fun isFirst => ⟨isFirst, by omega, isFirst ▸ grouped⟩, And.left⟩

section Order

variable [LinearOrder α]

def descending (items : List α) : List α := items.mergeSort (fun first second => second ≤ first)

@[simp]
theorem mem_descending : item ∈ descending items ↔ item ∈ items := List.mem_mergeSort

theorem pairwise_descending (distinct : items.Nodup) : (descending items).Pairwise (· > ·) := by
  have sorted : (descending items).Pairwise (· ≥ ·) := List.pairwise_mergeSort' (· ≥ ·) items
  have nodup : (descending items).Nodup := (List.mergeSort_perm _ _).nodup_iff.mpr distinct
  exact (sorted.and nodup).imp fun both => lt_of_le_of_ne both.1 both.2.symm

/-- As many are greater than the item, and one of its group is. -/
def Outranked (limit : ℕ) (group : α → Option Group) (items : List α) (item : α) : Prop :=
  item ∈ items ∧ limit ≤ (items.filter (item < ·)).length ∧
    ∀ own, group item = some own → ∃ other ∈ items, item < other ∧ group other = some own

theorem mem_expired_descending_iff [DecidableEq Group] (distinct : items.Nodup) :
    item ∈ expired limit group 0 [] (descending items) ↔ Outranked limit group items item := by
  have order := pairwise_descending distinct
  have count : ((descending items).filter (item < ·)).length =
      (items.filter (item < ·)).length :=
    ((List.mergeSort_perm _ _).filter _).length_eq
  have greater : ∀ before after, descending items = before ++ item :: after →
      (descending items).filter (item < ·) = before := by
    intro before after split
    rw [split, List.pairwise_append, List.pairwise_cons] at order
    have none : after.filter (item < ·) = [] := by
      rw [List.filter_eq_nil_iff]
      intro other mem
      simpa using (order.2.1.1 other mem).le
    have all : before.filter (item < ·) = before := by
      rw [List.filter_eq_self]
      intro other mem
      simpa using order.2.2 other mem item List.mem_cons_self
    rw [split, List.filter_append, all, List.filter_cons_of_neg (by simp), none, List.append_nil]
  rw [mem_expired_iff]
  constructor
  · rintro ⟨before, after, split, enough, grouped⟩
    have isBefore := greater before after split
    refine ⟨by rw [← mem_descending, split]; simp, by rw [← count, isBefore]; omega, ?_⟩
    intro own isOwn
    rcases (grouped own isOwn).resolve_left (by simp) with ⟨other, mem, isGroup⟩
    rw [← isBefore, List.mem_filter, mem_descending] at mem
    exact ⟨other, mem.1, by simpa using mem.2, isGroup⟩
  · rintro ⟨isItem, enough, grouped⟩
    rcases List.append_of_mem (mem_descending.mpr isItem) with ⟨before, after, split⟩
    have isBefore := greater before after split
    refine ⟨before, after, split, by rw [← isBefore, count]; omega, ?_⟩
    intro own isOwn
    rcases grouped own isOwn with ⟨other, mem, above, isGroup⟩
    refine .inr ⟨other, ?_, isGroup⟩
    rw [← isBefore, List.mem_filter, mem_descending]
    exact ⟨mem, by simpa using above⟩

end Order

end Rustnzb.Lib
