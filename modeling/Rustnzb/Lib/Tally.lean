import Mathlib.Data.List.AList
import Mathlib.Tactic

/-!
# Counters kept under keys

A tally is a finite map to numbers that is read with zero for an absent key and changed by adding to
one key. What matters of a tally filled from a list is what each key was given in all.
-/

namespace Rustnzb.Lib

abbrev Tally (Key : Type*) := AList fun _ : Key => ℕ

namespace Tally

variable {Key Item : Type*} [DecidableEq Key] {tally : Tally Key} {key : Key} {amount : ℕ}

def count (tally : Tally Key) (key : Key) : ℕ := (tally.lookup key).getD 0

def bump (tally : Tally Key) (key : Key) (amount : ℕ) : Tally Key :=
  tally.insert key (tally.count key + amount)

@[simp]
theorem count_empty (key : Key) : count (∅ : Tally Key) key = 0 := rfl

theorem count_bump (tally : Tally Key) (key other : Key) (amount : ℕ) :
    (tally.bump key amount).count other =
      tally.count other + if other = key then amount else 0 := by
  by_cases same : other = key
  · subst same
    simp [bump, count]
  · simp [bump, count, same]

@[simp]
theorem mem_bump {other : Key} : other ∈ tally.bump key amount ↔ other = key ∨ other ∈ tally :=
  AList.mem_insert tally

theorem lookup_bump (tally : Tally Key) (key other : Key) (amount : ℕ) :
    (tally.bump key amount).lookup other =
      if other = key then some (tally.count key + amount) else tally.lookup other := by
  by_cases same : other = key
  · subst same
    simp [bump]
  · simp [bump, same]

/-- Tallies that are read alike have the same entries. -/
theorem perm_entries {other : Tally Key} (alike : ∀ key, tally.lookup key = other.lookup key) :
    tally.entries.Perm other.entries := by
  apply List.lookup_ext tally.nodupKeys other.nodupKeys
  intro key amount
  rw [← AList.lookup, ← AList.lookup, alike]

theorem mem_of_mem_entries {entry : Sigma fun _ : Key => ℕ} (mem : entry ∈ tally.entries) :
    entry.1 ∈ tally ∧ tally.count entry.1 = entry.2 := by
  have found := AList.mem_lookup_iff.mpr mem
  refine ⟨AList.lookup_isSome.mp (Option.isSome_of_mem found), ?_⟩
  rw [count, Option.mem_def.mp found, Option.getD_some]

omit [DecidableEq Key] in
/-- A sum over entries of different keys, bounded by a sum over items that include their keys. -/
theorem sum_le_sum_of_keys (keyOf : Item → Key) {entries : List (Sigma fun _ : Key => ℕ)}
    {items : List Item} {value : (Sigma fun _ : Key => ℕ) → ℕ} {bound : Item → ℕ}
    (apart : entries.NodupKeys)
    (covered : ∀ entry ∈ entries, ∃ item ∈ items, keyOf item = entry.1 ∧ value entry ≤ bound item) :
    (entries.map value).sum ≤ (items.map bound).sum := by
  induction entries generalizing items with
  | nil => simp
  | cons entry entries ih =>
      rcases covered entry List.mem_cons_self with ⟨item, mem, itemKey, below⟩
      rcases List.append_of_mem mem with ⟨before, after, rfl⟩
      rcases List.nodupKeys_cons.mp apart with ⟨fresh, apart⟩
      have rest : (entries.map value).sum ≤ ((before ++ after).map bound).sum := by
        apply ih apart
        intro other otherMem
        rcases covered other (List.mem_cons_of_mem _ otherMem) with ⟨own, ownMem, ownKey, ownBelow⟩
        refine ⟨own, ?_, ownKey, ownBelow⟩
        have differs : own ≠ item := by
          rintro rfl
          apply fresh
          rw [← itemKey, ownKey]
          exact List.mem_keys_of_mem otherMem
        simp only [List.mem_append, List.mem_cons] at ownMem ⊢
        tauto
      simp only [List.map_cons, List.sum_cons, List.map_append, List.sum_append] at rest ⊢
      omega

/-- Fill a tally from a list. -/
def fill (tally : Tally Key) (keyOf : Item → Option Key) (amountOf : Item → ℕ)
    (items : List Item) : Tally Key :=
  items.foldl (fun tally item =>
    match keyOf item with
    | some key => tally.bump key (amountOf item)
    | none => tally) tally

theorem count_fill (tally : Tally Key) (keyOf : Item → Option Key) (amountOf : Item → ℕ)
    (items : List Item) :
    (tally.fill keyOf amountOf items).count key =
      tally.count key + ((items.filter fun item => keyOf item = some key).map amountOf).sum := by
  induction items generalizing tally with
  | nil => rfl
  | cons item items ih =>
      rw [fill, List.foldl_cons]
      rcases itemKey : keyOf item with _ | itemKeyed
      · have rest := ih tally
        rw [fill] at rest
        simp [rest, itemKey]
      · have rest := ih (tally.bump itemKeyed (amountOf item))
        rw [fill] at rest
        rw [rest, count_bump]
        by_cases same : key = itemKeyed
        · subst same
          simp [itemKey]
          omega
        · have differs : ¬itemKeyed = key := fun eq => same eq.symm
          simp [itemKey, same, differs]

theorem mem_fill (tally : Tally Key) (keyOf : Item → Option Key) (amountOf : Item → ℕ)
    (items : List Item) :
    key ∈ tally.fill keyOf amountOf items ↔
      key ∈ tally ∨ ∃ item ∈ items, keyOf item = some key := by
  induction items generalizing tally with
  | nil => simp [fill]
  | cons item items ih =>
      rw [fill, List.foldl_cons]
      cases itemKey : keyOf item with
      | none =>
          have rest := ih tally
          rw [fill] at rest
          simp [rest, itemKey]
      | some own =>
          have rest := ih (tally.bump own (amountOf item))
          rw [fill] at rest
          simp only [rest, mem_bump, List.mem_cons, exists_eq_or_imp, itemKey, Option.some.injEq]
          tauto

/-- What is filled in does not depend on the order of the items. -/
theorem lookup_fill_of_perm {keyOf : Item → Option Key} {amountOf : Item → ℕ}
    {items others : List Item} (perm : items.Perm others) :
    (tally.fill keyOf amountOf items).lookup key =
      (tally.fill keyOf amountOf others).lookup key := by
  have counts : (tally.fill keyOf amountOf items).count key =
      (tally.fill keyOf amountOf others).count key := by
    rw [count_fill, count_fill, ((perm.filter _).map amountOf).sum_eq]
  have members : key ∈ tally.fill keyOf amountOf items ↔
      key ∈ tally.fill keyOf amountOf others := by
    rw [mem_fill, mem_fill]
    simp only [perm.mem_iff]
  rw [← AList.lookup_isSome, ← AList.lookup_isSome] at members
  rw [count, count] at counts
  revert counts members
  cases (tally.fill keyOf amountOf items).lookup key <;>
    cases (tally.fill keyOf amountOf others).lookup key <;> simp

end Tally

end Rustnzb.Lib
