import Mathlib.Data.List.Induction

/-!
# Finite runs of a labelled transition relation

A component is given by a relation `step state label state'`. A run records the labels of the
steps it took, newest last, so that a property of a run may speak about everything that was
asked of the component and everything it answered.

The invariant rules package the induction over a run once. `Run.invariant` carries a predicate
of the labels and the state together; `Run.invariant_of_steps` is the same rule when every step
of the run is known to meet a side condition on the state it starts from.
-/

namespace Rustnzb.Lib

universe u v

variable {State : Type u} {Label : Type v} {step : State → Label → State → Prop}
  {init : State}

/-- `Run step init labels state`: the steps `labels` lead from `init` to `state`. -/
inductive Run (step : State → Label → State → Prop) (init : State) :
    List Label → State → Prop
  | start : Run step init [] init
  | snoc {labels : List Label} {state : State} {label : Label} {state' : State}
      (run : Run step init labels state) (move : step state label state') :
      Run step init (labels ++ [label]) state'

namespace Run

variable {labels : List Label} {state : State}

theorem invariant (Inv : List Label → State → Prop) (run : Run step init labels state)
    (base : Inv [] init) (preserve : ∀ labels state label state', Run step init labels state →
      Inv labels state → step state label state' → Inv (labels ++ [label]) state') :
    Inv labels state := by
  induction run with
  | start => exact base
  | snoc run move ih => exact preserve _ _ _ _ run ih move

variable {label : Label}

theorem of_snoc (run : Run step init (labels ++ [label]) state) :
    ∃ middle, Run step init labels middle ∧ step middle label state := by
  generalize extended : labels ++ [label] = longer at run
  cases run with
  | start => simp at extended
  | snoc run move =>
      rcases List.append_inj' extended rfl with ⟨rfl, same⟩
      cases same
      exact ⟨_, run, move⟩

theorem exists_of_prefix {before after : List Label} (run : Run step init (before ++ after) state) :
    ∃ middle, Run step init before middle := by
  induction after using List.reverseRecOn generalizing state with
  | nil => exact ⟨state, by simpa using run⟩
  | append_singleton after label ih =>
      rw [← List.append_assoc] at run
      rcases run.of_snoc with ⟨_, run, -⟩
      exact ih run

theorem exists_step {before after : List Label}
    (run : Run step init (before ++ label :: after) state) :
    ∃ middle next, Run step init before middle ∧ step middle label next ∧
      Run step init (before ++ [label]) next := by
  rw [← List.singleton_append, ← List.append_assoc] at run
  rcases run.exists_of_prefix with ⟨next, upTo⟩
  rcases upTo.of_snoc with ⟨middle, run, move⟩
  exact ⟨middle, next, run, move, upTo⟩

/-- Every step of the run meets `side` in the state it starts from. -/
def Always (step : State → Label → State → Prop) (init : State)
    (side : List Label → State → Label → Prop) (labels : List Label) : Prop :=
  ∀ before label after state, labels = before ++ label :: after →
    Run step init before state → side before state label

variable {side : List Label → State → Label → Prop}

theorem Always.of_snoc (always : Always step init side (labels ++ [label])) :
    Always step init side labels := by
  intro before next after state split run
  apply always before next (after ++ [label]) state
  · simp [split]
  · exact run

theorem Always.of_append {before after : List Label}
    (always : Always step init side (before ++ after)) : Always step init side before := by
  intro first label rest state split run
  apply always first label (rest ++ after) state
  · simp [split]
  · exact run

theorem eq_init (run : Run step init [] state) : state = init := by
  generalize none : ([] : List Label) = labels at run
  cases run with
  | start => rfl
  | snoc => simp at none

theorem Always.nil : Always step init side ([] : List Label) := by
  intro before label after state split
  simp at split

/-- A side condition that every state meets for each of the labels. -/
theorem Always.of_forall (all : ∀ label ∈ labels, ∀ before state, side before state label) :
    Always step init side labels := by
  rintro before label after state rfl -
  exact all label (by simp) before state

theorem Always.concat (always : Always step init side labels)
    (last : ∀ state, Run step init labels state → side labels state label) :
    Always step init side (labels ++ [label]) := by
  intro before next after state split run
  rcases List.eq_nil_or_concat after with rfl | ⟨rest, final, rfl⟩
  · rcases List.append_inj' split rfl with ⟨rfl, same⟩
    cases same
    exact last state run
  · rw [List.concat_eq_append, ← List.cons_append, ← List.append_assoc] at split
    exact always before next rest state (List.append_inj' split rfl).1 run

/-- The steps of a functional relation lead to one state. -/
theorem unique
    (functional : ∀ state label next other, step state label next → step state label other →
      next = other) {other : State} (run : Run step init labels state)
    (run' : Run step init labels other) : state = other := by
  induction run generalizing other with
  | start => exact run'.eq_init.symm
  | snoc run move ih =>
      rcases run'.of_snoc with ⟨_, run', move'⟩
      rw [← ih run'] at move'
      exact functional _ _ _ _ move move'

/-- What is left of a run after a part of it, when the relation is functional. -/
theorem of_append_of_functional
    (functional : ∀ state label next other, step state label next → step state label other →
      next = other) {before after : List Label} {middle final : State}
    (run : Run step init (before ++ after) final) (upTo : Run step init before middle) :
    Run step middle after final := by
  induction after using List.reverseRecOn generalizing final with
  | nil =>
      rw [List.append_nil] at run
      rw [unique functional run upTo]
      exact start
  | append_singleton after label ih =>
      rw [← List.append_assoc] at run
      rcases run.of_snoc with ⟨_, run, move⟩
      exact (ih run).snoc move

theorem Always.concat_of_functional (always : Always step init side labels)
    (functional : ∀ state label next other, step state label next → step state label other →
      next = other) (run : Run step init labels state) (last : side labels state label) :
    Always step init side (labels ++ [label]) :=
  always.concat fun _ other => other.unique functional run ▸ last

theorem Always.last (always : Always step init side (labels ++ [label]))
    (run : Run step init labels state) : side labels state label :=
  always labels label [] state rfl run

theorem invariant_of_steps (Inv : List Label → State → Prop) (run : Run step init labels state)
    (always : Always step init side labels) (base : Inv [] init)
    (preserve : ∀ labels state label state', Run step init labels state →
      Inv labels state → side labels state label → step state label state' →
      Inv (labels ++ [label]) state') : Inv labels state := by
  induction run with
  | start => exact base
  | snoc run move ih => exact preserve _ _ _ _ run (ih always.of_snoc) (always.last run) move

end Run

section Execute

variable {next : State → Label → Option State}

/-- Take steps that are given by a function, one by one. -/
def execute (next : State → Label → Option State) (state : State) : List Label → Option State
  | [] => some state
  | label :: labels => (next state label).bind fun middle => execute next middle labels

theorem execute_append (state : State) (before after : List Label) :
    execute next state (before ++ after) =
      (execute next state before).bind fun middle => execute next middle after := by
  induction before generalizing state with
  | nil => rfl
  | cons label before ih =>
      cases moved : next state label <;> simp [execute, moved, ih]

theorem Run.of_execute
    (isStep : ∀ state label state', next state label = some state' → step state label state')
    {before labels : List Label} {state final : State} (run : Run step init before state)
    (executed : execute next state labels = some final) :
    Run step init (before ++ labels) final := by
  induction labels generalizing state before with
  | nil =>
      cases executed
      simpa using run
  | cons label labels ih =>
      rcases Option.bind_eq_some_iff.mp executed with ⟨middle, move, rest⟩
      simpa using ih (run.snoc (isStep _ _ _ move)) rest

theorem Run.execute_eq
    (isNext : ∀ state label state', step state label state' → next state label = some state')
    {labels : List Label} {final : State} (run : Run step init labels final) :
    execute next init labels = some final := by
  induction run with
  | start => rfl
  | snoc run move ih => simp [execute_append, ih, execute, isNext _ _ _ move]

/-- A computed run every step of which meets the side condition. -/
theorem Run.always_of_execute {side : State → Label → Prop}
    (functional : ∀ state label next other, step state label next → step state label other →
      next = other) (isStep : ∀ state label state', next state label = some state' →
      step state label state' ∧ side state label) {before labels : List Label} {state final : State}
    (run : Run step init before state) (always : Run.Always step init (fun _ => side) before)
    (executed : execute next state labels = some final) :
    Run step init (before ++ labels) final ∧
      Run.Always step init (fun _ => side) (before ++ labels) := by
  induction labels generalizing state before with
  | nil =>
      cases executed
      simpa using ⟨run, always⟩
  | cons label labels ih =>
      rcases Option.bind_eq_some_iff.mp executed with ⟨middle, move, rest⟩
      rcases isStep _ _ _ move with ⟨isMove, meets⟩
      simpa using ih (run.snoc isMove) (always.concat_of_functional functional run meets) rest

end Execute

end Rustnzb.Lib
