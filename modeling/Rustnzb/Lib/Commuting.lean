import Mathlib.Data.List.Perm.Basic

/-!
# Steps in any order

Where two steps lead to the same state in both orders, up to a relation that steps respect, all
orders of a list of steps do.
-/

namespace Rustnzb.Lib

universe u v

variable {State : Type u} {Action : Type v} {same : State → State → Prop}
  {step : State → Action → State} {allowed : Action → Prop}

theorem foldl_congr_of_respects
    (respects : ∀ first second action, allowed action → same first second →
      same (step first action) (step second action)) {actions : List Action}
    (allowed_all : ∀ action ∈ actions, allowed action) {first second : State}
    (alike : same first second) : same (actions.foldl step first) (actions.foldl step second) := by
  induction actions generalizing first second with
  | nil => exact alike
  | cons action rest ih =>
      rcases List.forall_mem_cons.mp allowed_all with ⟨now, later⟩
      exact ih later (respects first second action now alike)

theorem foldl_perm_of_commutes (equivalence : Equivalence same)
    (respects : ∀ first second action, allowed action → same first second →
      same (step first action) (step second action))
    (commutes : ∀ state action other, allowed action → allowed other →
      same (step (step state action) other) (step (step state other) action))
    {actions others : List Action} (perm : actions.Perm others)
    (allowed_all : ∀ action ∈ actions, allowed action) (state : State) :
    same (actions.foldl step state) (others.foldl step state) := by
  induction perm generalizing state with
  | nil => exact equivalence.refl state
  | cons action _ ih => exact ih (List.forall_mem_cons.mp allowed_all).2 _
  | swap action other rest =>
      rcases List.forall_mem_cons.mp allowed_all with ⟨other_allowed, allowed_all⟩
      rcases List.forall_mem_cons.mp allowed_all with ⟨action_allowed, rest_allowed⟩
      simp only [List.foldl_cons]
      apply foldl_congr_of_respects respects rest_allowed
      exact commutes state other action other_allowed action_allowed
  | trans first _ first_ih second_ih =>
      apply equivalence.trans (first_ih allowed_all state)
      exact second_ih (fun action mem => allowed_all action (first.mem_iff.mpr mem)) state

end Rustnzb.Lib
