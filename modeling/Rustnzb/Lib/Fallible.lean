import Mathlib.Tactic.Common

/-!
# Steps that may fail, or be the last before a crash

A program is a chain of steps on a state. What goes wrong at a step is decided from outside. A step
that fails has no effect; one at which the crash comes may have been made.
-/

namespace Rustnzb.Lib

universe u v

inductive Fault where
  | completes
  | fails
  | crashes (made : Bool)
  deriving DecidableEq

inductive Outcome where
  | ok
  | failed
  | crashed
  deriving DecidableEq

abbrev Fallible (State : Type u) := State → Outcome × State

namespace Fallible

variable {State : Type u} {Label : Type v}

def step (fault : Fault) (effect : State → State) : Fallible State := fun state =>
  match fault with
  | .completes => (.ok, effect state)
  | .fails => (.failed, state)
  | .crashes made => (.crashed, if made then effect state else state)

/-- A step whose failure is passed over. -/
def attempt (fault : Fault) (effect : State → State) : Fallible State := fun state =>
  match fault with
  | .completes => (.ok, effect state)
  | .fails => (.ok, state)
  | .crashes made => (.crashed, if made then effect state else state)

def andThen (first second : Fallible State) : Fallible State := fun state =>
  match first state with
  | (.ok, state) => second state
  | (.failed, state) => (.failed, state)
  | (.crashed, state) => (.crashed, state)

def forEach (body : Label → Fallible State) : List Label → Fallible State
  | [] => fun state => (.ok, state)
  | label :: labels => (body label).andThen (forEach body labels)

variable {first second : Fallible State} {fault : Fault} {effect : State → State} {state : State}

theorem step_eq_ok_iff : (step fault effect state).1 = .ok ↔ fault = .completes := by
  cases fault <;> simp [step]

theorem andThen_of_ok (ok : (first state).1 = .ok) :
    first.andThen second state = second (first state).2 := by
  unfold andThen
  split
  next ran => rw [ran]
  next ran => simp [ran] at ok
  next ran => simp [ran] at ok

theorem andThen_of_not_ok (ended : (first state).1 ≠ .ok) :
    first.andThen second state = first state := by
  unfold andThen
  split
  next ran => simp [ran] at ended
  next ran => exact ran.symm
  next ran => exact ran.symm

theorem andThen_eq_ok_iff : (first.andThen second state).1 = .ok ↔
    (first state).1 = .ok ∧ (second (first state).2).1 = .ok := by
  by_cases ok : (first state).1 = .ok
  · rw [andThen_of_ok ok, and_iff_right ok]
  · rw [andThen_of_not_ok ok]
    exact ⟨fun same => absurd same ok, fun both => both.1⟩

theorem attempt_eq_ok_iff :
    (attempt fault effect state).1 = .ok ↔ ∀ made, fault ≠ .crashes made := by
  cases fault <;> simp [attempt]

/-- Only a crash ends the passing over of failures. -/
theorem forEach_attempt_eq_ok_iff {fault : Label → Fault} {effect : Label → State → State}
    {labels : List Label} :
    (forEach (fun label => attempt (fault label) (effect label)) labels state).1 = .ok ↔
      ∀ label ∈ labels, ∀ made, fault label ≠ .crashes made := by
  induction labels generalizing state with
  | nil => simp [forEach]
  | cons label labels ih =>
      rw [forEach, andThen_eq_ok_iff, attempt_eq_ok_iff, ih, List.forall_mem_cons]

/-- A step that completes and has no effect on what is looked at is passed. -/
theorem step_id_andThen (completes : fault = .completes) :
    (step fault id).andThen second state = second state := by
  subst completes
  rfl

/-- However the program ends, it leaves what is kept. -/
def Keeps (kept : State → Prop) (program : Fallible State) : Prop :=
  ∀ state, kept state → kept (program state).2

namespace Keeps

variable {kept : State → Prop}

theorem step (effective : ∀ state, kept state → kept (effect state)) :
    Keeps kept (step fault effect) := by
  intro state holds
  cases fault with
  | completes => exact effective state holds
  | fails => exact holds
  | crashes made =>
      cases made with
      | true => exact effective state holds
      | false => exact holds

theorem attempt (effective : ∀ state, kept state → kept (effect state)) :
    Keeps kept (attempt fault effect) := by
  intro state holds
  cases fault with
  | completes => exact effective state holds
  | fails => exact holds
  | crashes made =>
      cases made with
      | true => exact effective state holds
      | false => exact holds

theorem andThen (begins : Keeps kept first) (goesOn : Keeps kept second) :
    Keeps kept (first.andThen second) := by
  intro state holds
  have begun := begins state holds
  by_cases ok : (first state).1 = .ok
  · rw [andThen_of_ok ok]
    exact goesOn _ begun
  · rw [andThen_of_not_ok ok]
    exact begun

theorem forEach {body : Label → Fallible State} {labels : List Label}
    (each : ∀ label ∈ labels, Keeps kept (body label)) : Keeps kept (forEach body labels) := by
  induction labels with
  | nil => exact fun _ holds => holds
  | cons label labels ih =>
      apply Keeps.andThen (each label List.mem_cons_self)
      exact ih fun other mem => each other (List.mem_cons_of_mem _ mem)

end Keeps

end Fallible

end Rustnzb.Lib
