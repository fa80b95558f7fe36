import Mathlib.Order.WellFounded

/-!
# What a component cannot avoid

A goal is inevitable along some of the labels when every sequence of steps with these labels is
finite unless it meets the goal, and one that has not met the goal can go on. The rule asks for an
invariant and a rank that falls with every such step.
-/

namespace Rustnzb.Lib

universe u v w

variable {State : Type u} {Label : Type v}

/-- Every run along `calm` labels reaches `goal`. -/
inductive Inevitably (step : State → Label → State → Prop) (calm : Label → Prop)
    (goal : State → Prop) : State → Prop
  | now {state : State} (reached : goal state) : Inevitably step calm goal state
  | later {state : State} (can : ∃ label next, calm label ∧ step state label next)
      (all : ∀ label next, calm label → step state label next → Inevitably step calm goal next) :
      Inevitably step calm goal state

namespace Inevitably

variable {step : State → Label → State → Prop} {calm : Label → Prop} {goal : State → Prop}

theorem of_rank {Rank : Type w} [LT Rank] [WellFoundedLT Rank] (rank : State → Rank)
    (Inv : State → Prop)
    (can : ∀ state, Inv state → goal state ∨ ∃ label next, calm label ∧ step state label next)
    (falls : ∀ state label next, Inv state → ¬goal state → calm label → step state label next →
      Inv next ∧ rank next < rank state) {state : State} (inv : Inv state) :
    Inevitably step calm goal state := by
  induction h : rank state using WellFoundedLT.induction generalizing state with
  | ind value ih =>
      subst h
      by_cases reached : goal state
      · exact now reached
      · apply later ((can state inv).resolve_left reached)
        intro label next isCalm move
        rcases falls state label next inv reached isCalm move with ⟨keeps, less⟩
        exact ih (rank next) less keeps rfl

end Inevitably

end Rustnzb.Lib
