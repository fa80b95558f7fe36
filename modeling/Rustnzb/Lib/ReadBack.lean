import Mathlib.Data.Set.Basic
import Mathlib.Tactic.Common

/-!
# Tables read back through a lookup

A table gives each place a value. A copy of it is kept under keys that may fail to tell places
apart, so that what is read back for a place is the value of the place its key leads to, or a
default where it leads nowhere. The copy is right for a table that changes from place to place
exactly as long as the changed places own their keys.
-/

namespace Rustnzb.Lib

variable {Place Value : Type*} (lookup : Place → Option Place) (default : Value)
  (places : Set Place)

/-- What is read back for a place. -/
def readBack (table : Place → Value) (place : Place) : Value :=
  ((lookup place).map table).getD default

/-- The copy gives each place its own value. -/
def ReadsBack (table : Place → Value) : Prop :=
  ∀ place ∈ places, readBack lookup default table place = table place

/-- The lookups that lead to a place are those for itself. -/
def OwnsKey (owner : Place) : Prop :=
  ∀ place ∈ places, lookup place = some owner ↔ place = owner

/-- A table that reads back, the places of which own their keys unless they have the default. -/
structure Copied (table : Place → Value) : Prop where
  readsBack : ReadsBack lookup default places table
  owned : ∀ place ∈ places, table place ≠ default → OwnsKey lookup places place

variable {lookup default places}

theorem copied_default : Copied lookup default places fun _ => default where
  readsBack place _ := by
    simp only [readBack]
    rcases lookup place with _ | found <;> rfl
  owned place _ differs := absurd rfl differs

variable [DecidableEq Place] {table : Place → Value} {owner : Place} {value : Value}

theorem readBack_update_of_ne {place : Place} (differs : lookup place ≠ some owner) :
    readBack lookup default (Function.update table owner value) place =
      readBack lookup default table place := by
  simp only [readBack]
  rcases found : lookup place with _ | other
  · rfl
  · have apart : other ≠ owner := by
      rintro rfl
      exact differs found
    simp [apart]

theorem readBack_update_self {place : Place} (same : lookup place = some owner) :
    readBack lookup default (Function.update table owner value) place = value := by
  simp [readBack, same]

theorem ReadsBack.update (reads : ReadsBack lookup default places table)
    (owns : OwnsKey lookup places owner) :
    ReadsBack lookup default places (Function.update table owner value) := by
  intro place mem
  by_cases same : place = owner
  · subst same
    rw [readBack_update_self ((owns place mem).mpr rfl), Function.update_self]
  · have apart : lookup place ≠ some owner := fun leads => same ((owns place mem).mp leads)
    rw [readBack_update_of_ne apart, Function.update_of_ne same]
    exact reads place mem

/-- A change shows in the copy for its place alone only if the place owns its key. -/
theorem ReadsBack.owns_of_update (reads : ReadsBack lookup default places table)
    (mem : owner ∈ places) (changed : value ≠ table owner)
    (next : ReadsBack lookup default places (Function.update table owner value)) :
    OwnsKey lookup places owner := by
  intro place placeMem
  constructor
  · intro leads
    by_contra apart
    have after := next place placeMem
    rw [readBack_update_self leads, Function.update_of_ne apart] at after
    have before := reads place placeMem
    simp only [readBack, leads, Option.map_some, Option.getD_some] at before
    exact changed (after.trans before.symm)
  · rintro rfl
    by_contra apart
    have after := next place mem
    rw [readBack_update_of_ne apart, Function.update_self] at after
    exact changed (after.symm.trans (reads place mem))

theorem Copied.update (copied : Copied lookup default places table)
    (owns : OwnsKey lookup places owner) :
    Copied lookup default places (Function.update table owner value) where
  readsBack := copied.readsBack.update owns
  owned place mem differs := by
    by_cases same : place = owner
    · rw [same]
      exact owns
    · rw [Function.update_of_ne same] at differs
      exact copied.owned place mem differs

/-- A table goes on reading back over a change to a value other than the default exactly if the
place owns its key. -/
theorem Copied.readsBack_update_iff (copied : Copied lookup default places table)
    (mem : owner ∈ places) (differs : value ≠ default) :
    ReadsBack lookup default places (Function.update table owner value) ↔
      OwnsKey lookup places owner := by
  constructor
  · intro next
    by_cases changed : value = table owner
    · apply copied.owned owner mem
      rw [← changed]
      exact differs
    · exact copied.readsBack.owns_of_update mem changed next
  · intro owns
    exact copied.readsBack.update owns

end Rustnzb.Lib
