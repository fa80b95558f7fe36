import Mathlib.Tactic

/-!
# What has held since an event

A log of events, newest first. `Since hold trigger log` says that an event of the log was a trigger
for what was logged before it, and that every event after it holds.
-/

namespace Rustnzb.Lib

universe u

variable {Event : Type u} {hold : Event → Prop} {trigger : Event → List Event → Prop}

def Since (hold : Event → Prop) (trigger : Event → List Event → Prop) : List Event → Prop
  | [] => False
  | event :: older => trigger event older ∨ (hold event ∧ Since hold trigger older)

@[simp]
theorem not_since_nil : ¬Since hold trigger [] := id

@[simp]
theorem since_cons {event : Event} {older : List Event} :
    Since hold trigger (event :: older) ↔
      trigger event older ∨ (hold event ∧ Since hold trigger older) := Iff.rfl

/-- A property of the events with what is logged before them. -/
def Throughout (property : Event → List Event → Prop) : List Event → Prop
  | [] => True
  | event :: older => property event older ∧ Throughout property older

variable {property : Event → List Event → Prop}

@[simp]
theorem throughout_nil : Throughout property [] := trivial

@[simp]
theorem throughout_cons {event : Event} {older : List Event} :
    Throughout property (event :: older) ↔ property event older ∧ Throughout property older :=
  Iff.rfl

theorem throughout_iff {log : List Event} :
    Throughout property log ↔
      ∀ newer event older, log = newer ++ event :: older → property event older := by
  induction log with
  | nil => simp
  | cons first older ih =>
      rw [throughout_cons, ih]
      constructor
      · rintro ⟨now, before⟩ newer event oldest whole
        cases newer with
        | nil =>
            cases whole
            exact now
        | cons latest newer =>
            cases whole
            exact before newer event oldest rfl
      · intro all
        refine ⟨all [] first older rfl, ?_⟩
        rintro newer event oldest rfl
        exact all (first :: newer) event oldest rfl

end Rustnzb.Lib
