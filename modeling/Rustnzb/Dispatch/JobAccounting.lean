import Rustnzb.Dispatch.EngineSteps
import Rustnzb.Dispatch.JobActions

/-!
# Article accounting and the single terminal message

The counter of a job equals what its tasks owe: each article that is queued, waits for its confirm
round, is held by a task or is in the middle of `resolve_one`, and the items of a release between
its `fetch_add` and its `submit_items`. A task that takes the counter to zero is ending the job.
While it does, nothing is outstanding, so no other task can touch the counter, the held volumes or
the slice map, and what it decided still holds when it sends the terminal message.
-/

namespace Rustnzb.Dispatch

open Lib

namespace JobRun

structure Settling (run : JobRun) : Prop where
  balanced : run.ctx.articlesRemaining = run.outstanding
  single : total Task.ending run.tasks ≤ 1
  ended : 1 ≤ total Task.ending run.tasks → run.ctx.articlesRemaining = 0
  cancelled : run.ctx.cancelled = true → run.ctx.abortReason.isSome = true
  aborts : ∀ task ∈ run.tasks,
    task.role = .aborter ∨ task.role = .aborted ∨ task.activity = .cancelling →
      run.ctx.abortReason.isSome = true
  checksOut : ∀ task ∈ run.tasks, task.ChecksOut
  adds : ∀ task ∈ run.tasks, ∀ site items, task.activity = .adding site items → items ≠ []
  filled : ∀ volume ∈ run.ctx.held.held, volume.items ≠ []
  once : run.ctx.sent.length + total Task.emitting run.tasks = run.ctx.finished.toNat
  emits : run.ctx.articlesRemaining = 0 →
    run.ctx.finished = true ∨ 1 ≤ total Task.willEmit run.tasks
  decided : ∀ task ∈ run.tasks, run.ctx.Decided task
  final : ∀ message ∈ run.ctx.sent, message.isFinished = true →
    run.ctx.articlesRemaining = 0 ∧ total Task.ending run.tasks = 0 ∧ run.ctx.NothingNeeded

section Act

variable {run : JobRun} {index : ℕ} {task after : Task} {ctx : JobContext}

section

variable (settling : run.Settling)

include settling

theorem Settling.owesNothing
    (atZero : run.ctx.articlesRemaining = 0) (mem : task ∈ run.tasks) : task.owed = 0 := by
  have balanced := settling.balanced
  have le := le_total Task.owed mem
  simp only [outstanding] at balanced
  omega

theorem Settling.balanced_act
    (isTask : run.tasks[index]? = some task) (performed : Performed run.ctx task ctx after) :
    ctx.articlesRemaining =
      ({ run with ctx := ctx, tasks := run.tasks.set index after } : JobRun).outstanding := by
  have balanced := settling.balanced
  have balance := performed.balance
  have moved := total_set Task.owed isTask after
  simp only [outstanding] at balanced ⊢
  omega

theorem Settling.frame (isTask : run.tasks[index]? = some task)
    (performed : Performed run.ctx task ctx after) (atZero : run.ctx.articlesRemaining = 0)
    (notEnding : task.ending = 0) :
    ctx.articlesRemaining = 0 ∧ ctx.held = run.ctx.held ∧ ctx.damage = run.ctx.damage := by
  have mem := List.mem_of_getElem? isTask
  have frame := performed.frame (settling.owesNothing atZero mem) notEnding
    (settling.checksOut task mem)
  exact ⟨frame.1.trans atZero, frame.2⟩

theorem Settling.ending_act (isTask : run.tasks[index]? = some task)
    (performed : Performed run.ctx task ctx after) :
    total Task.ending (run.tasks.set index after) ≤ 1 ∧
      (1 ≤ total Task.ending (run.tasks.set index after) → ctx.articlesRemaining = 0) := by
  have moved := total_set Task.ending isTask after
  have single := settling.single
  have le := le_total Task.ending (List.mem_of_getElem? isTask)
  rcases performed.ending_cases with stops | ⟨goesOn, wasEnding, same⟩ |
    ⟨begins, notEnding, owes, last, atZero⟩
  · refine ⟨by omega, fun some => ?_⟩
    have atZero := settling.ended (by omega)
    exact (settling.frame isTask performed atZero (by omega)).1
  · refine ⟨by omega, fun _ => ?_⟩
    rw [same]
    exact settling.ended (by omega)
  · -- nobody else is ending the job, because the counter was not yet zero
    have none : total Task.ending run.tasks = 0 := by
      by_contra some
      have := settling.ended (by omega)
      omega
    exact ⟨by omega, fun _ => atZero⟩

/-- What a task decided still holds in another context, if that context keeps what an ending task
looks at. -/
theorem Settling.decided_of_frame (mem : task ∈ run.tasks)
    (reason : run.ctx.abortReason.isSome = true → ctx.abortReason.isSome = true)
    (frame : task.ending ≠ 0 → ctx.held = run.ctx.held ∧ ctx.damage = run.ctx.damage) :
    ctx.Decided task := by
  have before := settling.decided task mem
  by_cases isEnding : task.ending = 0
  · -- a task that does not end the job: `abort_job` at its own call of `emit_terminal`
    by_cases isAborted : task.role = .aborted
    · have aborted := reason (settling.aborts task mem (Or.inr (Or.inl isAborted)))
      rcases settling.checksOut task mem isAborted with isIdle | isEmitting | isReading |
        ⟨sentReason, isSending⟩
      · simp [JobContext.Decided, isIdle]
      · simp [JobContext.Decided, isEmitting, aborted]
      · simp [JobContext.Decided, isReading, aborted]
      · cases sentReason with
        | none =>
            simp only [JobContext.Decided, isSending] at before
            exact absurd isAborted before.1
        | some reason => simp [JobContext.Decided, isSending]
    · cases activity : task.activity with
      | choosing site need =>
          cases site with
          | inFlight => simp [JobContext.Decided, activity]
          | dataEnd => simp [Task.ending, isAborted, activity, Activity.ends] at isEnding
      | emitting | reading | sending =>
          simp [Task.ending, isAborted, activity, Activity.ends] at isEnding
      | _ => simp [JobContext.Decided, activity]
  · rcases frame isEnding with ⟨held, damage⟩
    simp only [JobContext.Decided] at before ⊢
    split
    next need isChoosing =>
      simp only [isChoosing] at before
      simpa [JobContext.need, damage] using before
    next isEmitting =>
      simp only [isEmitting] at before ⊢
      exact before.imp reason fun nothing => nothing.congr held damage
    next isReading =>
      simp only [isReading] at before ⊢
      exact before.imp reason fun nothing => nothing.congr held damage
    next isSending =>
      simp only [isSending] at before
      exact ⟨before.1, before.2.congr held damage⟩
    · trivial

theorem Settling.final_act (isTask : run.tasks[index]? = some task)
    (performed : Performed run.ctx task ctx after) :
    ∀ message ∈ ctx.sent, message.isFinished = true →
      ctx.articlesRemaining = 0 ∧ total Task.ending (run.tasks.set index after) = 0 ∧
        ctx.NothingNeeded := by
  intro message messageMem isFinished
  have mem := List.mem_of_getElem? isTask
  have moved := total_set Task.ending isTask after
  have single := settling.single
  have le := le_total Task.ending mem
  by_cases before : message ∈ run.ctx.sent
  · rcases settling.final message before isFinished with ⟨atZero, none, nothing⟩
    rcases settling.frame isTask performed atZero (by omega) with ⟨same, held, damage⟩
    have owesNothing := settling.owesNothing atZero mem
    refine ⟨same, ?_, nothing.congr held damage⟩
    rcases performed.ending_cases with stops | ⟨-, wasEnding, -⟩ | ⟨-, -, owes, -⟩ <;> omega
  · cases performed with
    | sent reason isSending =>
        rcases List.mem_append.mp messageMem with old | new
        · exact absurd old before
        · have decided := settling.decided task mem
          rw [List.mem_singleton.mp new] at isFinished
          cases reason with
          | some reason => simp [JobContext.message, Terminal.isFinished] at isFinished
          | none =>
              simp only [JobContext.Decided, isSending] at decided
              have isEnding : task.ending = 1 := by
                simp [Task.ending, decided.1, isSending, Activity.ends]
              have stops : (task.act .idle).ending = 0 := by
                simp [Task.ending, decided.1, Task.act, Activity.ends]
              exact ⟨settling.ended (by omega), by omega, decided.2⟩
    | _ => exact absurd messageMem before

theorem Settling.act (isTask : run.tasks[index]? = some task)
    (performed : Performed run.ctx task ctx after) :
    ({ run with ctx := ctx, tasks := run.tasks.set index after } : JobRun).Settling := by
  have mem := List.mem_of_getElem? isTask
  have flags := performed.flags
  have nonneg : 0 ≤ run.ctx.articlesRemaining := by
    have := settling.balanced
    omega
  constructor
  case balanced => exact settling.balanced_act isTask performed
  case single => exact (settling.ending_act isTask performed).1
  case ended => exact (settling.ending_act isTask performed).2
  case cancelled =>
    intro isCancelled
    rw [flags.1]
    rcases flags.2 with same | isCancelling
    · exact settling.cancelled (same ▸ isCancelled)
    · exact settling.aborts task mem (Or.inr (Or.inr isCancelling))
  case aborts =>
    intro other otherMem aborts
    rw [flags.1]
    rcases mem_set_cases isTask otherMem with rfl | ⟨before, -⟩
    · exact settling.aborts task mem (performed.aborts aborts)
    · exact settling.aborts other before aborts
  case checksOut =>
    intro other otherMem
    rcases mem_set_cases isTask otherMem with rfl | ⟨before, -⟩
    · exact performed.checksOut (settling.checksOut task mem)
    · exact settling.checksOut other before
  case adds =>
    intro other otherMem
    rcases mem_set_cases isTask otherMem with rfl | ⟨before, -⟩
    · exact performed.adds
    · exact settling.adds other before
  case filled => exact performed.filled settling.filled
  case once =>
    have moved := total_set Task.emitting isTask after
    have once := performed.once
    have before := settling.once
    dsimp only
    omega
  case emits =>
    intro atZero
    have moved := total_set Task.willEmit isTask after
    have le := le_total Task.willEmit mem
    rcases performed.willEmit_cases (settling.checksOut task mem) nonneg (settling.adds task mem)
      atZero with finished | goesOn | ⟨notEmitting, wasZero, same⟩
    · exact Or.inl finished
    · right
      dsimp only
      omega
    · rcases settling.emits wasZero with finished | some
      · exact Or.inl (same.trans finished)
      · right
        dsimp only
        omega
  case decided =>
    intro other otherMem
    rcases mem_set_cases isTask otherMem with rfl | ⟨before, apart⟩
    · exact performed.decided (settling.decided task mem) settling.cancelled
        (fun role => settling.aborts task mem (by tauto)) settling.filled
    · apply settling.decided_of_frame before
      · rw [flags.1]
        exact id
      · intro isEnding
        have apart := apart Task.ending
        have single := settling.single
        exact (settling.frame isTask performed (settling.ended (by omega)) (by omega)).2
  case final => exact settling.final_act isTask performed

end

end Act

theorem filled_split (job : NzbJob) (items : List WorkItem) (deferVolumes : Bool)
    (order : IterationOrder) :
    ∀ volume ∈ (split job items deferVolumes order).2.held, volume.items ≠ [] := by
  simp only [split]
  split
  · exact hold_filled order _ items _
  · simp [HeldVolumes.new]

theorem settling_submitted (job : NzbJob) (enabledServerIds : List ServerId) (deferVolumes : Bool)
    (order : IterationOrder) (incompleteNzb : Option String) (damageHint : ℕ) (damage : Option ℕ) :
    (submitted job enabledServerIds deferVolumes order incompleteNzb damageHint
      damage).Settling := by
  have filled := filled_split job (buildWorkItems job enabledServerIds) deferVolumes order
  simp only [submitted, start]
  split
  next empty =>
    constructor <;> simp_all [context, outstanding, total, Task.owed, Task.act, Activity.owed,
      Task.ending, Activity.ends, Task.emitting, Activity.emits, Task.willEmit, Task.ChecksOut,
      JobContext.Decided, JobContext.NothingNeeded, HeldVolumes.new, HeldVolumes.isEmpty]
  · split
    next empty =>
      constructor <;> simp_all [context, outstanding, total, Task.owed, Task.act, Activity.owed,
        Task.ending, Activity.ends, Task.emitting, Activity.emits, Task.willEmit, Task.ChecksOut,
        JobContext.Decided]
    next notEmpty =>
      constructor
      case balanced =>
        simp only [outstanding, Performed.length_submitItems]
        simp [context, total, JobContext.submitItems]
      all_goals simp_all [context, total, JobContext.submitItems]

variable {run : JobRun}

theorem Settling.withCtx (settling : run.Settling) (ctx : JobContext)
    (remaining : ctx.articlesRemaining = run.ctx.articlesRemaining)
    (waiting : ctx.queue.length + ctx.delayed.length =
      run.ctx.queue.length + run.ctx.delayed.length) (cancelled : ctx.cancelled = run.ctx.cancelled)
    (reason : ctx.abortReason = run.ctx.abortReason) (finished : ctx.finished = run.ctx.finished)
    (sent : ctx.sent = run.ctx.sent) (held : ctx.held = run.ctx.held)
    (damage : run.ctx.articlesRemaining = 0 → ctx.damage = run.ctx.damage) :
    ({ run with ctx := ctx } : JobRun).Settling := by
  constructor
  case balanced =>
    have := settling.balanced
    simp only [outstanding] at this ⊢
    omega
  case decided =>
    intro task mem
    refine settling.decided_of_frame mem (by rw [reason]; exact id) fun isEnding => ?_
    have le : task.ending ≤ total Task.ending run.tasks := le_total Task.ending mem
    exact ⟨held, damage (settling.ended (by omega))⟩
  case final =>
    intro message messageMem isFinished
    rcases settling.final message (sent ▸ messageMem) isFinished with ⟨atZero, none, nothing⟩
    exact ⟨remaining.trans atZero, none, nothing.congr held (damage atZero)⟩
  case single => exact settling.single
  case ended => simpa [remaining] using settling.ended
  case cancelled => simpa [cancelled, reason] using settling.cancelled
  case aborts => simpa [reason] using settling.aborts
  case checksOut => exact settling.checksOut
  case adds => exact settling.adds
  case filled => simpa [held] using settling.filled
  case once => simpa [sent, finished] using settling.once
  case emits => simpa [remaining, finished] using settling.emits

theorem Settling.withTask (settling : run.Settling) (ctx : JobContext) (task : Task)
    (ctx_eq : ctx = { run.ctx with abortReason := ctx.abortReason })
    (reason : run.ctx.abortReason.isSome = true → ctx.abortReason.isSome = true)
    (empty : task.inFlight = [])
    (activity : task.activity = .idle ∧ task.role ≠ .aborter ∧ task.role ≠ .aborted ∨
      task.activity = .cancelling ∧ task.role = .aborter ∧ ctx.abortReason.isSome = true) :
    ({ run with ctx := ctx, tasks := run.tasks ++ [task] } : JobRun).Settling := by
  have neutral : task.owed = 0 ∧ task.ending = 0 ∧ task.emitting = 0 ∧ task.willEmit = 0 := by
    rcases activity with ⟨isIdle, -⟩ | ⟨isCancelling, -⟩ <;>
      simp [Task.owed, Task.ending, Task.emitting, Task.willEmit, Activity.owed, Activity.ends,
        Activity.emits, *]
  rcases neutral with ⟨owed, ending, emitting, willEmit⟩
  have remaining : ctx.articlesRemaining = run.ctx.articlesRemaining := by rw [ctx_eq]
  have held : ctx.held = run.ctx.held := by rw [ctx_eq]
  have damage : ctx.damage = run.ctx.damage := by rw [ctx_eq]
  have sent : ctx.sent = run.ctx.sent := by rw [ctx_eq]
  have finished : ctx.finished = run.ctx.finished := by rw [ctx_eq]
  have cancelled : ctx.cancelled = run.ctx.cancelled := by rw [ctx_eq]
  have queue : ctx.queue = run.ctx.queue := by rw [ctx_eq]
  have delayed : ctx.delayed = run.ctx.delayed := by rw [ctx_eq]
  have members : ∀ other, other ∈ run.tasks ++ [task] → other ∈ run.tasks ∨ other = task := by
    simp
  constructor
  case balanced =>
    have := settling.balanced
    simp only [outstanding, total_append_singleton, owed, remaining, queue, delayed] at this ⊢
    omega
  case single => simpa [ending] using settling.single
  case ended => simpa [ending, remaining] using settling.ended
  case cancelled =>
    rw [cancelled]
    exact fun isCancelled => reason (settling.cancelled isCancelled)
  case aborts =>
    intro other otherMem aborts
    rcases members other otherMem with before | rfl
    · exact reason (settling.aborts other before aborts)
    · rcases activity with ⟨isIdle, notAborter, notAborted⟩ | ⟨-, -, isSome⟩
      · simp [isIdle, notAborter, notAborted] at aborts
      · exact isSome
  case checksOut =>
    intro other otherMem isAborted
    rcases members other otherMem with before | rfl
    · exact settling.checksOut other before isAborted
    · rcases activity with ⟨-, -, notAborted⟩ | ⟨-, isAborter, -⟩
      · exact absurd isAborted notAborted
      · simp [isAborter] at isAborted
  case adds =>
    intro other otherMem
    rcases members other otherMem with before | rfl
    · exact settling.adds other before
    · rcases activity with ⟨isIdle, -⟩ | ⟨isCancelling, -⟩ <;> simp [*]
  case filled => simpa [held] using settling.filled
  case once => simpa [sent, finished, emitting] using settling.once
  case emits => simpa [remaining, finished, willEmit] using settling.emits
  case decided =>
    intro other otherMem
    rcases members other otherMem with before | rfl
    · exact settling.decided_of_frame before reason fun _ => ⟨held, damage⟩
    · rcases activity with ⟨isIdle, -⟩ | ⟨isCancelling, -⟩ <;> simp [JobContext.Decided, *]
  case final =>
    intro message messageMem isFinished
    rcases settling.final message (sent ▸ messageMem) isFinished with ⟨atZero, none, nothing⟩
    exact ⟨remaining.trans atZero, by simpa [ending] using none, nothing.congr held damage⟩

theorem Settling.step {next : JobRun} {event : JobEvent} (settling : run.Settling)
    (move : Step run event next) : next.Settling := by
  simp only [Step, JobRun.step] at move
  cases event with
  | act index action =>
      dsimp only at move
      split at move
      · simp at move
      next task isTask =>
        rcases Option.map_eq_some_iff.mp move with ⟨⟨ctx, after⟩, performed, rfl⟩
        exact settling.act isTask (perform_performed performed)
  | spawn supervises =>
      cases move
      apply settling.withTask run.ctx _ rfl id rfl
      exact Or.inl ⟨rfl, by cases supervises <;> simp⟩
  | abort reason =>
      dsimp only at move
      split at move
      · simp at move
      · cases move
        exact settling.withTask _ _ rfl (by simp) rfl (Or.inr ⟨rfl, rfl, rfl⟩)
  | wake position =>
      dsimp only at move
      split at move
      · simp at move
      next item isItem =>
        cases move
        have length := List.length_eraseIdx_of_lt (List.getElem?_eq_some_iff.mp isItem).1
        have bound := (List.getElem?_eq_some_iff.mp isItem).1
        refine settling.withCtx _ rfl ?_ rfl rfl rfl rfl rfl fun _ => rfl
        simp only [List.length_cons, length]
        omega
  | progress damageHint damage =>
      dsimp only at move
      split at move
      next working =>
        cases move
        refine settling.withCtx _ rfl rfl rfl rfl rfl rfl rfl fun atZero => ?_
        rcases List.any_eq_true.mp working with ⟨task, mem, holds⟩
        have owesNothing := settling.owesNothing atZero mem
        simp_all [Task.owed]
      · simp at move
  | pause =>
      cases move
      exact settling.withCtx _ rfl rfl rfl rfl rfl rfl rfl fun _ => rfl
  | resume =>
      cases move
      exact settling.withCtx _ rfl rfl rfl rfl rfl rfl rfl fun _ => rfl

/-- The reason of an abort is set, and `emit_terminal` has not read that there is none. -/
structure AbortWins (run : JobRun) : Prop where
  reason : run.ctx.abortReason.isSome = true
  unread : ∀ task ∈ run.tasks, task.activity ≠ .sending none
  unsent : ∀ message ∈ run.ctx.sent, message.isFinished = false

theorem AbortWins.step {next : JobRun} {event : JobEvent} (wins : run.AbortWins)
    (move : Step run event next) : next.AbortWins := by
  simp only [Step, JobRun.step] at move
  cases event with
  | act index action =>
      dsimp only at move
      split at move
      · simp at move
      next task isTask =>
        rcases Option.map_eq_some_iff.mp move with ⟨⟨ctx, after⟩, moved, rfl⟩
        have performed := perform_performed moved
        refine ⟨by simpa [performed.flags.1] using wins.reason, fun other otherMem => ?_, ?_⟩
        · rcases mem_set_cases isTask otherMem with rfl | ⟨before, -⟩
          · exact performed.unread wins.reason
          · exact wins.unread other before
        · exact performed.unsent (wins.unread task (List.mem_of_getElem? isTask)) wins.unsent
  | spawn supervises =>
      cases move
      refine ⟨wins.reason, fun other otherMem => ?_, wins.unsent⟩
      rcases List.mem_append.mp otherMem with before | new
      · exact wins.unread other before
      · simp [List.mem_singleton.mp new]
  | abort reason => simp [wins.reason] at move
  | wake position =>
      dsimp only at move
      split at move
      · simp at move
      · cases move
        exact ⟨wins.reason, wins.unread, wins.unsent⟩
  | progress damageHint damage =>
      dsimp only at move
      split at move
      · cases move
        exact ⟨wins.reason, wins.unread, wins.unsent⟩
      · simp at move
  | pause | resume =>
      cases move
      exact ⟨wins.reason, wins.unread, wins.unsent⟩

theorem settling_of_run {job : NzbJob} {enabledServerIds : List ServerId} {deferVolumes : Bool}
    {order : IterationOrder} {incompleteNzb : Option String} {damageHint : ℕ} {damage : Option ℕ}
    {events : List JobEvent}
    (isRun : Run Step (submitted job enabledServerIds deferVolumes order incompleteNzb damageHint
      damage) events run) : run.Settling := by
  apply isRun.invariant (fun _ run => run.Settling)
  · exact settling_submitted job enabledServerIds deferVolumes order incompleteNzb damageHint damage
  · intro _ run event next _ settling move
    exact settling.step move

theorem Settling.abortWins (settling : run.Settling) (reason : run.ctx.abortReason.isSome = true)
    (unfinished : run.ctx.finished = false) : run.AbortWins := by
  have once := settling.once
  simp only [unfinished, Bool.toNat_false, Nat.add_eq_zero_iff, List.length_eq_zero_iff] at once
  refine ⟨reason, fun task mem isSending => ?_, by simp [once.1]⟩
  have le := le_total Task.emitting mem
  simp [Task.emitting, isSending, Activity.emits, once.2] at le

structure Accounts (init : JobRun) (events : List JobEvent) (run : JobRun) : Prop where
  balanced : run.ctx.articlesRemaining = run.outstanding
  nonneg : 0 ≤ run.ctx.articlesRemaining
  atMostOnce : run.ctx.sent.length ≤ 1
  once : run.ctx.articlesRemaining = 0 → (∀ task ∈ run.tasks, task.activity = .idle) →
    run.ctx.sent.length = 1
  finished : ∀ message ∈ run.ctx.sent, message.isFinished = true →
    run.outstanding = 0 ∧ run.ctx.NothingNeeded
  aborted : ∀ before after middle, events = before ++ after → Run Step init before middle →
    middle.ctx.abortReason.isSome = true → middle.ctx.finished = false ∨ middle.AbortWins →
      ∀ message ∈ run.ctx.sent, message.isFinished = false

/-- Each article is counted once, whatever the order, and the job ends with one message: with
`JobFinished` only when nothing is outstanding or needed, and with `JobAborted` once `abort_job` has
set its reason before `emit_terminal` reads it. -/
theorem accounts {job : NzbJob} {enabledServerIds : List ServerId} {deferVolumes : Bool}
    {order : IterationOrder} {incompleteNzb : Option String} {damageHint : ℕ} {damage : Option ℕ}
    {events : List JobEvent} {run : JobRun}
    (isRun : Run Step (submitted job enabledServerIds deferVolumes order incompleteNzb damageHint
      damage) events run) :
    Accounts (submitted job enabledServerIds deferVolumes order incompleteNzb damageHint damage)
      events run := by
  have settling := settling_of_run isRun
  have balanced := settling.balanced
  have once := settling.once
  have atMost := Bool.toNat_le run.ctx.finished
  refine ⟨balanced, by omega, by omega, fun atZero idle => ?_, ?_, ?_⟩
  · have noneEmits : total Task.emitting run.tasks = 0 := by
      apply List.sum_eq_zero
      intro count countMem
      rcases List.mem_map.mp countMem with ⟨task, mem, rfl⟩
      simp [Task.emitting, idle task mem, Activity.emits]
    have noneWill : total Task.willEmit run.tasks = 0 := by
      apply List.sum_eq_zero
      intro count countMem
      rcases List.mem_map.mp countMem with ⟨task, mem, rfl⟩
      simp [Task.willEmit, idle task mem, Activity.ends]
    rcases settling.emits atZero with finished | some
    · simpa [finished, noneEmits] using once
    · omega
  · intro message messageMem isFinished
    rcases settling.final message messageMem isFinished with ⟨atZero, -, nothing⟩
    exact ⟨by omega, nothing⟩
  · rintro before after middle rfl upTo reason unread
    have wins : middle.AbortWins := by
      rcases unread with unfinished | wins
      · exact (settling_of_run upTo).abortWins reason unfinished
      · exact wins
    have later : run.AbortWins := by
      have rest := isRun.of_append_of_functional step_functional upTo
      apply rest.invariant (fun _ run => run.AbortWins) wins
      intro _ run event next _ wins move
      exact wins.step move
    exact later.unsent

def oneArticle : JobRun :=
  submitted (Engine.oneArticleJob []) ["A"] false Engine.listedAsIs none 0 none

def oneProvider : Providers where
  servers := [Engine.provider "A" false]
  health := fun _ => .new
  now := 0

/-- A worker delivers the article and gets as far as having read that there is no abort reason. -/
def deliveredEvents : List JobEvent :=
  [.spawn false, .act 0 (.take 0), .act 0 (.answer 0 false oneProvider "A" .present),
    .act 0 .advance, .act 0 .advance, .act 0 .advance, .act 0 .advance, .act 0 .advance]

/-- `abort_job` from its first line to its return. -/
def abortEvents : List JobEvent :=
  [.abort "stop", .act 1 .advance, .act 1 .advance, .act 1 .advance, .act 1 .advance]

theorem accounts_one_article :
    ∃ run, Accounts oneArticle (deliveredEvents ++ [.act 0 .advance]) run ∧
    run.ctx.sent = [.jobFinished true 0 none] := by
  have executed : ∃ run, execute step oneArticle (deliveredEvents ++ [.act 0 .advance]) = some run ∧
      run.ctx.sent = [.jobFinished true 0 none] := by
    refine ⟨_, rfl, ?_⟩
    rfl
  rcases executed with ⟨run, executed, sent⟩
  exact ⟨run, accounts (run_of_execute executed), sent⟩

/-- `abort_job` can return before the message is sent and the message still be `JobFinished`. -/
theorem not_aborted_before_sent : ¬∀ (before after : List JobEvent) (middle run : JobRun),
    Run Step oneArticle before middle → Run Step oneArticle (before ++ after) run →
    (∃ task ∈ middle.tasks, task.role = .aborted ∧ task.activity = .idle) →
    middle.ctx.sent = [] → ∀ message ∈ run.ctx.sent, message.isFinished = false := by
  intro aborts
  have executed : ∃ middle, execute step oneArticle (deliveredEvents ++ abortEvents) = some middle ∧
      (∃ task ∈ middle.tasks, task.role = .aborted ∧ task.activity = .idle) ∧
      middle.ctx.sent = [] := by
    refine ⟨_, rfl, ⟨_, List.mem_cons_of_mem _ List.mem_cons_self, rfl, rfl⟩, rfl⟩
  have finished : ∃ run, execute step oneArticle (deliveredEvents ++ abortEvents ++
      [.act 0 .advance]) = some run ∧ run.ctx.sent = [.jobFinished true 0 none] := by
    refine ⟨_, rfl, ?_⟩
    rfl
  rcases executed with ⟨middle, executed, returned, unsent⟩
  rcases finished with ⟨run, finished, sent⟩
  have unfinished := aborts (deliveredEvents ++ abortEvents) [.act 0 .advance] middle run
    (run_of_execute executed) (run_of_execute finished) returned unsent
  simp [sent, Terminal.isFinished] at unfinished

end JobRun

end Rustnzb.Dispatch
