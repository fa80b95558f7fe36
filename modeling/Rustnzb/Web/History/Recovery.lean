import Mathlib.Data.Prod.Lex
import Rustnzb.Lib.Inevitably
import Rustnzb.Web.History.Move

/-!
# One outcome per job, across restarts

What can go wrong is named step by step in `Keeps`: a row of the queue that is removed without a
row in the history, a stop that leaves both rows and a status that is not resumed, a last write of
the status to a row that should be gone, and post-processing that comes to another verdict when it
runs again. Without these, every job has one outcome, and a restart takes it out of the queue.
-/

namespace Rustnzb.Web.History

open Queue (JobStatus)
open Lib

def Verdict.Fails (verdict : Verdict) : Prop :=
  verdict.failed = true ∨ 2 ≤ verdict.ppLevel ∧ verdict.stages = true ∧
    hasUsableOutput verdict.output = false ∧ hasUsableOutput verdict.work = false

/-- A step that is neither a stop nor a commit that fails, and that is not due to the user. -/
def Label.Calm : Label → Prop
  | checkpoint written | persist written | insert written | remove written => written = true
  | lookUp read => read = true
  | control .. | stop => False
  | launch | finish | abort | diskFull | pipeline _ | move _ | unreadable | moved | storeLogs _
  | cleanUp _ | restart _ => True

instance (verdict : Verdict) : Decidable verdict.Fails := by
  unfold Verdict.Fails
  infer_instance

namespace State

/-- A job that has its row in the history is taken up by the next restart as long as it has one in
the queue. -/
def Recoverable (state : State) : Prop :=
  state.history ≠ [] → ∀ row ∈ state.queue, row.isPostProcessing = true

/-- The row in the queue goes, and the history stays as it is. -/
def Leaves (state : State) : Prop :=
  Inevitably Step Label.Calm
    (fun final => final.queue = none ∧ final.history = state.history) state

structure OneOutcome (state : State) : Prop where
  present : state.queue ≠ none ∨ state.history ≠ []
  single : state.history.length ≤ 1
  notAgain : state.phase = .downloading → state.history = []
  /-- The process takes the row out of the queue, or it does so after the next restart. -/
  leaves : state.history ≠ [] → state.Leaves ∨ (state.enter .stopped).Leaves
  outcome : ∀ status ∈ state.history, state.first = some status

def Keeps (state : State) : Label → Prop
  | .abort | .diskFull => state.history = [] → ∀ outcome ∈ state.first, outcome = .failed
  | .pipeline verdict =>
      state.history = [] → ∀ outcome ∈ state.first, (verdict.Fails ↔ outcome = .failed)
  | .remove true => state.history ≠ []
  | .remove false | .stop => state.Recoverable
  | .persist true => state.phase = .persisting → state.history ≠ [] → state.queue = none
  | _ => True

instance (state : State) : Decidable state.Recoverable := by
  unfold Recoverable
  infer_instance

instance (state : State) (label : Label) : Decidable (state.Keeps label) := by
  unfold Keeps
  split <;> infer_instance

/-- The step changes no row but the status of the row in the queue. -/
structure SameRows (state state' : State) : Prop where
  queue : state'.queue = none ↔ state.queue = none
  history : state'.history = state.history
  first : state'.first = state.first

namespace SameRows

variable {state state' state'' : State}

theorem enter (same : SameRows state state') (phase : Phase) :
    SameRows state (state'.enter phase) where
  queue := same.queue
  history := same.history
  first := same.first

theorem refl (state : State) : SameRows state state := ⟨Iff.rfl, rfl, rfl⟩

theorem setStatus (state : State) (status : JobStatus) : SameRows state (state.setStatus status) :=
  ⟨Iff.rfl, rfl, rfl⟩

theorem updateStatus (state : State) (status : JobStatus) :
    SameRows state (state.updateStatus status) :=
  ⟨by simp [State.updateStatus], rfl, rfl⟩

theorem persistJobProgress (state : State) (written : Bool) :
    SameRows state (state.persistJobProgress written) := by
  unfold State.persistJobProgress
  split
  · exact refl state
  · cases written with
    | false => exact refl state
    | true =>
        have update := updateStatus state state.status
        exact ⟨update.queue, update.history, update.first⟩

theorem control (state : State) (status : JobStatus) (written : Bool) :
    SameRows state (state.control status written) := by
  cases written with
  | false => exact ⟨Iff.rfl, rfl, rfl⟩
  | true => exact ⟨by simp [State.control, State.updateStatus], rfl, rfl⟩

theorem moveEntry (state : State) (entry : Entry) (result : MoveResult) :
    SameRows state (state.moveEntry entry result) := by
  unfold State.moveEntry
  split
  · cases result <;> exact ⟨Iff.rfl, rfl, rfl⟩
  · exact refl state

theorem cleanUp (state : State) (removed : Bool) : SameRows state (state.cleanUp removed) := by
  unfold State.cleanUp
  split
  · exact ⟨Iff.rfl, rfl, rfl⟩
  · exact refl state

theorem leave (state : State) (verdict : Verdict) : SameRows state (state.leave verdict) :=
  ⟨Iff.rfl, rfl, rfl⟩

theorem restore (state : State) (pausedByGlobal : Bool) :
    SameRows state (state.restore pausedByGlobal) := by
  unfold State.restore
  split
  next gone => exact ⟨Iff.rfl, rfl, rfl⟩
  next row listed => exact ⟨Iff.rfl, rfl, rfl⟩

end SameRows

@[simp] theorem persistJobProgress_status (state : State) (written : Bool) :
    (state.persistJobProgress written).status = state.status := by
  unfold persistJobProgress
  split
  · rfl
  · cases written <;> rfl

@[simp] theorem persistJobProgress_phase (state : State) (written : Bool) :
    (state.persistJobProgress written).phase = state.phase := by
  unfold persistJobProgress
  split
  · rfl
  · cases written <;> rfl

@[simp] theorem persistJobProgress_false (state : State) :
    state.persistJobProgress false = state := by
  unfold persistJobProgress
  split <;> rfl

@[simp] theorem control_phase (state : State) (status : JobStatus) (written : Bool) :
    (state.control status written).phase = state.phase := by
  cases written <;> rfl

@[simp] theorem control_status (state : State) (status : JobStatus) (written : Bool) :
    (state.control status written).status = status := by
  cases written <;> rfl

theorem restore_cases (state : State) (pausedByGlobal : Bool) :
    (state.queue = none ∧ (state.restore pausedByGlobal).phase = .settled) ∨
      ∃ row, state.queue = some row ∧
        ((row.isPostProcessing = true ∧ (state.restore pausedByGlobal).phase = .finishing ∧
            (state.restore pausedByGlobal).status ≠ .failed) ∨
          row.isPostProcessing = false ∧ (state.restore pausedByGlobal).phase = .listed) := by
  unfold restore
  rcases listed : state.queue with _ | row
  · exact .inl ⟨rfl, rfl⟩
  · refine .inr ⟨row, rfl, ?_⟩
    cases resumed : row.isPostProcessing with
    | true =>
        left
        cases pausedByGlobal <;> simp [resumed]
    | false =>
        right
        simp [resumed]

def PhaseSound (state : State) : Phase → Prop
  | .listed | .downloading => state.history = []
  | .finishing | .postProcessing => state.status ≠ .failed
  | .moving finalStatus _ => state.history = [] → state.first = some finalStatus
  | .lookingUp => state.history = [] → state.first = some state.status
  | .inserting => state.history = [] ∧ state.first = some state.status
  | .storingLogs _ | .removing _ => True
  | .stopped | .cleaning | .persisting | .settled => state.Recoverable

structure Sound (state : State) : Prop where
  present : state.queue ≠ none ∨ state.history ≠ []
  single : state.history.length ≤ 1
  outcome : ∀ status ∈ state.history, state.first = some status
  terminal : ∀ status ∈ state.first, status = .completed ∨ status = .failed
  phase : state.PhaseSound state.phase

variable {state : State}

theorem Sound.of_same {state' : State} (sound : state.Sound) (same : SameRows state state')
    (phase : state'.PhaseSound state'.phase) : state'.Sound where
  present := by
    rw [ne_eq, same.queue, same.history]
    exact sound.present
  single := by
    rw [same.history]
    exact sound.single
  outcome := by
    rw [same.history, same.first]
    exact sound.outcome
  terminal := by
    rw [same.first]
    exact sound.terminal
  phase := phase

theorem finalStatus_cases (state : State) (ppLevel : ℕ) (stages : Bool) :
    state.finalStatus ppLevel stages = .completed ∨ state.finalStatus ppLevel stages = .failed := by
  unfold finalStatus
  split
  · exact .inr rfl
  · split
    · exact .inr rfl
    · exact .inl rfl

theorem Sound.moveToHistory {reached : State} {ppLevel : ℕ} {stages : Bool} (sound : state.Sound)
    (same : SameRows state reached) (agrees : state.history = [] → ∀ outcome ∈ state.first,
      outcome = reached.finalStatus ppLevel stages) :
    (reached.moveToHistory ppLevel stages).Sound := by
  have first : (reached.moveToHistory ppLevel stages).first =
      state.first.or (some (reached.finalStatus ppLevel stages)) := by
    rw [← same.first]
    rfl
  exact {
    present := by
      change reached.queue ≠ none ∨ reached.history ≠ []
      rw [ne_eq, same.queue, same.history]
      exact sound.present
    single := same.history ▸ sound.single
    outcome := by
      intro status isRow
      change status ∈ reached.history at isRow
      rw [same.history] at isRow
      rw [first, sound.outcome status isRow, Option.some_or]
    terminal := by
      intro status isFirst
      rw [first] at isFirst
      rcases known : state.first with _ | outcome <;> rw [known] at isFirst <;> cases isFirst
      · exact reached.finalStatus_cases ppLevel stages
      · exact sound.terminal status known
    phase := by
      intro empty
      change reached.history = [] at empty
      rw [same.history] at empty
      rw [first]
      rcases known : state.first with _ | outcome
      · rfl
      · rw [Option.some_or, agrees empty outcome known] }

theorem finalStatus_leave (running : state.status ≠ .failed) (verdict : Verdict) :
    (state.leave verdict).finalStatus verdict.ppLevel verdict.stages = .failed ↔ verdict.Fails := by
  cases hFailed : verdict.failed <;>
    simp [State.finalStatus, leave, Verdict.Fails, hFailed, running]

theorem Sound.finalStatus_eq {verdict : Verdict} {outcome : JobStatus} (sound : state.Sound)
    (running : state.status ≠ .failed) (isFirst : outcome ∈ state.first)
    (same : verdict.Fails ↔ outcome = .failed) :
    outcome = (state.leave verdict).finalStatus verdict.ppLevel verdict.stages := by
  have fails := (finalStatus_leave running verdict).trans same
  rcases sound.terminal outcome isFirst with rfl | rfl
  · rcases (state.leave verdict).finalStatus_cases verdict.ppLevel verdict.stages with
      completed | failed
    · exact completed.symm
    · cases fails.mp failed
  · exact (fails.mpr rfl).symm

theorem Recoverable.of_gone (gone : state.queue = none) : state.Recoverable := by
  intro _ row isRow
  rw [gone] at isRow
  cases isRow

theorem Recoverable.cleanUp (recoverable : state.Recoverable) (removed : Bool) :
    (state.cleanUp removed).Recoverable := by
  unfold State.cleanUp
  split <;> exact recoverable

theorem Sound.phase_eq {phase : Phase} (sound : state.Sound) (isPhase : state.phase = phase) :
    state.PhaseSound phase :=
  isPhase ▸ sound.phase

theorem Sound.restore (sound : state.Sound) (isStopped : state.phase = .stopped)
    (pausedByGlobal : Bool) : (state.restore pausedByGlobal).Sound := by
  have same := SameRows.restore state pausedByGlobal
  have recoverable : state.Recoverable := sound.phase_eq isStopped
  apply sound.of_same same
  rcases state.restore_cases pausedByGlobal with
    ⟨gone, next⟩ | ⟨row, isRow, ⟨-, next, running⟩ | ⟨waiting, next⟩⟩
  · rw [next]
    exact .of_gone (same.queue.mpr gone)
  · rw [next]
    exact running
  · rw [next]
    change (state.restore pausedByGlobal).history = []
    rw [same.history]
    by_contra nonempty
    simp [recoverable nonempty row isRow] at waiting

theorem Sound.historyInsert (sound : state.Sound) (isPhase : state.phase = .inserting) :
    (state.historyInsert.enter (.storingLogs true)).Sound := by
  rcases sound.phase_eq isPhase with ⟨empty, first⟩
  exact {
    present := .inr (by simp [State.historyInsert, State.enter])
    single := by simp [State.historyInsert, State.enter, empty]
    outcome := by simp [State.historyInsert, State.enter, empty, first]
    terminal := sound.terminal
    phase := trivial }

theorem Sound.queueRemove {written persisted : Bool} (sound : state.Sound)
    (keeps : state.Keeps (.remove written)) :
    ((state.queueRemove written).enter (if persisted then .cleaning else .persisting)).Sound := by
  have recoverable : ((state.queueRemove written).enter
      (if persisted then .cleaning else .persisting)).Recoverable := by
    cases written with
    | true => exact .of_gone rfl
    | false => exact keeps
  exact {
    present := by
      cases written with
      | true => exact .inr keeps
      | false => exact sound.present
    single := sound.single
    outcome := sound.outcome
    terminal := sound.terminal
    phase := by cases persisted <;> exact recoverable }

theorem Sound.step {state' : State} {label : Label} (sound : state.Sound)
    (keeps : state.Keeps label) (move : Step state label state') : state'.Sound := by
  revert move
  unfold Step
  fun_cases State.next state label <;> intro move <;> cases move
  case case1 pausedByGlobal isPhase => exact sound.restore isPhase pausedByGlobal
  case case2 status written isPhase _ =>
    have empty : state.history = [] := sound.phase_eq isPhase
    apply sound.of_same (.control state status written)
    rw [control_phase, isPhase]
    exact (SameRows.control state status written).history.trans empty
  case case4 isPhase =>
    have empty : state.history = [] := sound.phase_eq isPhase
    exact sound.of_same ((SameRows.setStatus state _).enter _) empty
  case case5 status written isPhase _ =>
    have empty : state.history = [] := sound.phase_eq isPhase
    apply sound.of_same (.control state status written)
    rw [control_phase, isPhase]
    exact (SameRows.control state status written).history.trans empty
  case case7 written isPhase =>
    have empty : state.history = [] := sound.phase_eq isPhase
    apply sound.of_same (.persistJobProgress state written)
    rw [persistJobProgress_phase, isPhase]
    exact (SameRows.persistJobProgress state written).history.trans empty
  case case8 isPhase =>
    exact sound.of_same ((SameRows.setStatus state _).enter _)
      (by simp [PhaseSound, setStatus, enter])
  case case9 isPhase =>
    exact sound.moveToHistory (.setStatus state .failed) keeps
  case case10 written isPhase =>
    apply sound.of_same (.control state .paused written)
    rw [control_phase, isPhase]
    simp [PhaseSound]
  case case11 written isPhase =>
    have running : state.status ≠ .failed := sound.phase_eq isPhase
    apply sound.of_same ((SameRows.persistJobProgress state written).enter _)
    change (state.persistJobProgress written).status ≠ .failed
    rw [persistJobProgress_status]
    exact running
  case case12 written isPhase =>
    apply sound.of_same (.control state .paused written)
    rw [control_phase, isPhase]
    simp [PhaseSound]
  case case13 isPhase =>
    exact sound.moveToHistory (.setStatus state .failed) keeps
  case case14 verdict isPhase =>
    have running : state.status ≠ .failed := sound.phase_eq isPhase
    apply sound.moveToHistory (.leave state verdict)
    intro empty outcome isFirst
    exact sound.finalStatus_eq running isFirst (keeps empty outcome isFirst)
  case case15 finalStatus entry rest result isPhase =>
    have first : state.history = [] → state.first = some finalStatus := sound.phase_eq isPhase
    have same := (SameRows.moveEntry state entry result).enter (.moving finalStatus rest)
    apply sound.of_same same
    intro empty
    rw [same.first]
    exact first (same.history ▸ empty)
  case case16 finalStatus entry rest isPhase =>
    have first : state.history = [] → state.first = some finalStatus := sound.phase_eq isPhase
    exact sound.of_same ((SameRows.refl state).enter _) first
  case case17 finalStatus isPhase =>
    have first : state.history = [] → state.first = some finalStatus := sound.phase_eq isPhase
    exact sound.of_same ((SameRows.setStatus state finalStatus).enter _) first
  case case18 isPhase =>
    have first : state.history = [] → state.first = some state.status := sound.phase_eq isPhase
    apply sound.of_same ((SameRows.refl state).enter _)
    by_cases empty : state.history = []
    · rw [if_pos empty]
      exact ⟨empty, first empty⟩
    · rw [if_neg empty]
      trivial
  case case19 isPhase => exact sound.of_same ((SameRows.refl state).enter _) trivial
  case case20 isPhase => exact sound.historyInsert isPhase
  case case21 isPhase => exact sound.of_same ((SameRows.refl state).enter _) trivial
  case case22 isPhase => exact sound.of_same ((SameRows.refl state).enter _) trivial
  case case23 isPhase => exact sound.queueRemove keeps
  case case24 removed isPhase =>
    have recoverable : state.Recoverable := sound.phase_eq isPhase
    have same := (SameRows.cleanUp state removed).enter .persisting
    exact sound.of_same same (recoverable.cleanUp removed)
  case case25 written isPhase =>
    have recoverable : state.Recoverable := sound.phase_eq isPhase
    have same := (SameRows.persistJobProgress state written).enter .settled
    apply sound.of_same same
    cases written with
    | false =>
        rw [persistJobProgress_false]
        exact recoverable
    | true =>
        intro nonempty
        rw [same.history] at nonempty
        exact Recoverable.of_gone (same.queue.mpr (keeps isPhase nonempty))
          (same.history ▸ nonempty)
  case case27 => exact sound.of_same ((SameRows.refl state).enter _) keeps

theorem Sound.of_run {labels : List Label} (run : Run Step start labels state)
    (keeps : Run.Always Step start (fun _ => Keeps) labels) : state.Sound := by
  apply run.invariant_of_steps (fun _ => Sound) keeps
  · exact {
      present := .inl (by simp [start])
      single := by simp [start]
      outcome := by simp [start]
      terminal := by simp [start]
      phase := rfl }
  · intro _ state label state' _ sound keeps move
    exact sound.step keeps move

def LeavesIn (queue : Option JobStatus) : Phase → Prop
  | .stopped => ∀ row ∈ queue, row.isPostProcessing = true
  | .listed | .downloading | .inserting => False
  | .finishing | .postProcessing | .moving .. | .lookingUp | .storingLogs _ | .removing _ => True
  | .cleaning | .persisting | .settled => queue = none

structure Leaving (history : List JobStatus) (state : State) : Prop where
  nonempty : history ≠ []
  history : state.history = history
  phase : LeavesIn state.queue state.phase

def phaseRank : Phase → ℕ ×ₗ ℕ
  | .stopped => toLex (7, 0)
  | .finishing => toLex (6, 0)
  | .postProcessing => toLex (5, 0)
  | .moving _ rest => toLex (4, rest.length)
  | .lookingUp => toLex (3, 0)
  | .storingLogs _ => toLex (2, 0)
  | .removing _ => toLex (1, 0)
  | .listed | .downloading | .inserting | .cleaning | .persisting | .settled => toLex (0, 0)

theorem exists_calm_step (label : Label) (calm : label.Calm) (enabled : (state.next label).isSome) :
    ∃ label next, label.Calm ∧ Step state label next :=
  ⟨label, (state.next label).get enabled, calm, (Option.some_get enabled).symm⟩

variable {history : List JobStatus}

theorem Leaving.can (leaving : state.Leaving history) :
    (state.queue = none ∧ state.history = history) ∨
      ∃ label next, label.Calm ∧ Step state label next := by
  have phase := leaving.phase
  rcases isPhase : state.phase with
    _ | _ | _ | _ | _ | ⟨finalStatus, _ | ⟨entry, rest⟩⟩ | _ | _ | _ | _ | _ | _ | _ <;>
    rw [isPhase] at phase
  case stopped =>
    exact .inr (exists_calm_step (.restart false) trivial (by unfold next; rw [isPhase]; rfl))
  case listed => cases phase
  case downloading => cases phase
  case finishing =>
    exact .inr (exists_calm_step (.persist true) rfl (by unfold next; rw [isPhase]; rfl))
  case postProcessing =>
    exact .inr (exists_calm_step .diskFull trivial (by unfold next; rw [isPhase]; rfl))
  case moving.nil =>
    exact .inr (exists_calm_step .moved trivial (by unfold next; rw [isPhase]; rfl))
  case moving.cons =>
    exact .inr (exists_calm_step .unreadable trivial (by unfold next; rw [isPhase]; rfl))
  case lookingUp =>
    exact .inr (exists_calm_step (.lookUp true) rfl (by unfold next; rw [isPhase]; rfl))
  case inserting => cases phase
  case storingLogs =>
    exact .inr (exists_calm_step (.storeLogs true) trivial (by unfold next; rw [isPhase]; rfl))
  case removing =>
    exact .inr (exists_calm_step (.remove true) rfl (by unfold next; rw [isPhase]; rfl))
  case cleaning => exact .inl ⟨phase, leaving.history⟩
  case persisting => exact .inl ⟨phase, leaving.history⟩
  case settled => exact .inl ⟨phase, leaving.history⟩

theorem Leaving.later {state' : State} {phase phase' : Phase} (leaving : state.Leaving history)
    (same : state'.history = state.history) (isPhase : state.phase = phase)
    (isPhase' : state'.phase = phase') (leaves : LeavesIn state'.queue phase')
    (less : phaseRank phase' < phaseRank phase) :
    state'.Leaving history ∧ phaseRank state'.phase < phaseRank state.phase := by
  subst isPhase isPhase'
  exact ⟨⟨leaving.nonempty, same.trans leaving.history, leaves⟩, less⟩

theorem Leaving.enter {reached : State} {phase phase' : Phase} (leaving : state.Leaving history)
    (same : reached.history = state.history) (isPhase : state.phase = phase)
    (leaves : LeavesIn reached.queue phase') (less : phaseRank phase' < phaseRank phase) :
    (reached.enter phase').Leaving history ∧
      phaseRank (reached.enter phase').phase < phaseRank state.phase :=
  leaving.later same isPhase rfl leaves less

theorem Leaving.restore (leaving : state.Leaving history) (listed : state.queue ≠ none)
    (isStopped : state.phase = .stopped) (pausedByGlobal : Bool) :
    (state.restore pausedByGlobal).Leaving history ∧
      phaseRank (state.restore pausedByGlobal).phase < phaseRank state.phase := by
  have resumed : LeavesIn state.queue .stopped := isStopped ▸ leaving.phase
  have same := SameRows.restore state pausedByGlobal
  rcases state.restore_cases pausedByGlobal with
    ⟨gone, -⟩ | ⟨row, isRow, ⟨-, next, -⟩ | ⟨waiting, -⟩⟩
  · cases listed gone
  · exact leaving.later same.history isStopped next trivial (by decide)
  · simp [resumed row isRow] at waiting

theorem phaseRank_moving_lt (finalStatus : JobStatus) (rest : List Entry) :
    phaseRank (.moving finalStatus rest) < phaseRank .postProcessing :=
  Prod.Lex.toLex_lt_toLex.mpr (.inl (by simp))

theorem Leaving.falls {state' : State} {label : Label} (leaving : state.Leaving history)
    (pending : ¬(state.queue = none ∧ state.history = history)) (calm : label.Calm)
    (move : Step state label state') :
    state'.Leaving history ∧ phaseRank state'.phase < phaseRank state.phase := by
  have listed : state.queue ≠ none := fun gone => pending ⟨gone, leaving.history⟩
  have leavesIn {phase : Phase} (isPhase : state.phase = phase) : LeavesIn state.queue phase :=
    isPhase ▸ leaving.phase
  revert move
  unfold Step
  fun_cases State.next state label <;> intro move <;> cases move
  case case1 pausedByGlobal isPhase => exact leaving.restore listed isPhase pausedByGlobal
  case case2 => cases calm
  case case4 isPhase => cases leavesIn isPhase
  case case5 => cases calm
  case case7 isPhase => cases leavesIn isPhase
  case case8 isPhase => cases leavesIn isPhase
  case case9 isPhase => cases leavesIn isPhase
  case case10 => cases calm
  case case11 written isPhase =>
    have same := SameRows.persistJobProgress state written
    exact leaving.enter same.history isPhase trivial (by decide)
  case case12 => cases calm
  case case13 isPhase =>
    exact leaving.later rfl isPhase rfl trivial (phaseRank_moving_lt _ _)
  case case14 verdict isPhase =>
    exact leaving.later rfl isPhase rfl trivial (phaseRank_moving_lt _ _)
  case case15 finalStatus entry rest result isPhase =>
    have same := SameRows.moveEntry state entry result
    exact leaving.enter same.history isPhase trivial
      (Prod.Lex.toLex_lt_toLex.mpr (.inr ⟨rfl, by simp⟩))
  case case16 finalStatus entry rest isPhase =>
    exact leaving.enter rfl isPhase trivial (Prod.Lex.toLex_lt_toLex.mpr (.inr ⟨rfl, by simp⟩))
  case case17 finalStatus isPhase =>
    exact leaving.enter rfl isPhase trivial (Prod.Lex.toLex_lt_toLex.mpr (.inl (by simp)))
  case case18 isPhase =>
    have nonempty : state.history ≠ [] := leaving.history ▸ leaving.nonempty
    rw [if_neg nonempty]
    exact leaving.enter rfl isPhase trivial (by decide)
  case case19 => cases calm
  case case20 isPhase => cases leavesIn isPhase
  case case21 isPhase => cases leavesIn isPhase
  case case22 persisted isPhase =>
    exact leaving.enter rfl isPhase trivial (Prod.Lex.toLex_lt_toLex.mpr (.inl (by simp)))
  case case23 persisted written isPhase =>
    cases calm
    cases persisted with
    | true => exact leaving.enter rfl isPhase rfl (Prod.Lex.toLex_lt_toLex.mpr (.inl (by simp)))
    | false => exact leaving.enter rfl isPhase rfl (Prod.Lex.toLex_lt_toLex.mpr (.inl (by simp)))
  case case24 isPhase => cases listed (leavesIn isPhase)
  case case25 isPhase => cases listed (leavesIn isPhase)
  case case27 => cases calm

theorem Leaving.leaves (leaving : state.Leaving state.history) : state.Leaves :=
  .of_rank (fun state => phaseRank state.phase) (Leaving state.history)
    (fun _ => Leaving.can) (fun _ _ _ => Leaving.falls) leaving

theorem Sound.leaves (sound : state.Sound) (nonempty : state.history ≠ []) :
    state.Leaves ∨ (state.enter .stopped).Leaves := by
  have leaves (phase : LeavesIn state.queue state.phase) : state.Leaves :=
    Leaving.leaves ⟨nonempty, rfl, phase⟩
  have afterStop (recoverable : state.Recoverable) : (state.enter .stopped).Leaves :=
    Leaving.leaves ⟨nonempty, rfl, recoverable nonempty⟩
  have phase := sound.phase
  rcases isPhase : state.phase with _ | _ | _ | _ | _ | _ | _ | _ | _ | _ | _ | _ | _ <;>
    rw [isPhase] at phase leaves
  case stopped => exact .inl (leaves (phase nonempty))
  case listed => cases nonempty phase
  case downloading => cases nonempty phase
  case finishing => exact .inl (leaves trivial)
  case postProcessing => exact .inl (leaves trivial)
  case moving => exact .inl (leaves trivial)
  case lookingUp => exact .inl (leaves trivial)
  case inserting => cases nonempty phase.1
  case storingLogs => exact .inl (leaves trivial)
  case removing => exact .inl (leaves trivial)
  case cleaning => exact .inr (afterStop phase)
  case persisting => exact .inr (afterStop phase)
  case settled => exact .inr (afterStop phase)

theorem one_outcome_of_keeps {labels : List Label} {state : State}
    (run : Run Step start labels state) (keeps : Run.Always Step start (fun _ => Keeps) labels) :
    state.OneOutcome := by
  have sound := Sound.of_run run keeps
  exact {
    present := sound.present
    single := sound.single
    notAgain := sound.phase_eq
    leaves := sound.leaves
    outcome := sound.outcome }

theorem step_functional (state : State) (label : Label) (next other : State)
    (move : Step state label next) (again : Step state label other) : next = other :=
  Option.some.inj (move.symm.trans again)

def keptStep (state : State) (label : Label) : Option State :=
  if state.Keeps label then state.next label else none

theorem keeps_keptStep (state : State) (label : Label) (next : State)
    (move : state.keptStep label = some next) : Step state label next ∧ state.Keeps label := by
  rcases Option.ite_none_right_eq_some.mp move with ⟨keeps, step⟩
  exact ⟨step, keeps⟩

def unpacked : Verdict where
  failed := false
  ppLevel := 3
  stages := true
  output := []
  work := [{ name := "movie.mkv", regular := true, symlink := false, safe := true, usable := true }]

def delivered : Verdict := { unpacked with output := unpacked.work, work := [] }

/-- The process stops between the row in the history and the removal from the queue. The restart
finds an empty work directory. -/
def interrupted : List Label :=
  [.launch, .checkpoint true, .finish, .persist true, .pipeline unpacked, .move .moved, .moved,
    .lookUp true, .insert true, .stop, .restart false, .persist true, .pipeline delivered, .moved,
    .lookUp true, .storeLogs true, .remove true, .cleanUp true, .persist true]

theorem one_outcome_of_keeps_interrupted : ∃ state, Run Step start interrupted state ∧
    state.queue = none ∧ state.history = [.completed] ∧ state.OneOutcome := by
  have ends : (execute keptStep start interrupted).map (fun state => (state.queue, state.history)) =
      some (none, [.completed]) := by decide
  rcases Option.map_eq_some_iff.mp ends with ⟨state, executed, seen⟩
  rcases Prod.mk.inj seen with ⟨gone, history⟩
  rcases Run.always_of_execute step_functional keeps_keptStep Run.start Run.Always.nil executed with
    ⟨run, keeps⟩
  exact ⟨state, run, gone, history, one_outcome_of_keeps run keeps⟩

/-- The row for the history cannot be written, and the row of the queue is removed all the same. -/
def insertFailed : List Label :=
  [.launch, .checkpoint true, .finish, .persist true, .pipeline unpacked, .move .moved, .moved,
    .lookUp true, .insert false, .storeLogs true, .remove true]

theorem not_one_outcome_insertFailed :
    ¬∀ labels state, Run Step start labels state → state.OneOutcome := by
  intro each
  have ends : (execute next start insertFailed).map (fun state => (state.queue, state.history)) =
      some (none, []) := by decide
  rcases Option.map_eq_some_iff.mp ends with ⟨state, executed, seen⟩
  rcases Prod.mk.inj seen with ⟨gone, history⟩
  have run : Run Step start ([] ++ insertFailed) state :=
    Run.of_execute (fun _ _ _ move => move) .start executed
  rcases (each insertFailed state run).present with listed | kept
  · exact listed gone
  · exact kept history

end State

end Rustnzb.Web.History
