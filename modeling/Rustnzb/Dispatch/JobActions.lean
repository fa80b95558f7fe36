import Rustnzb.Dispatch.JobContext

/-!
# What one action of a task does

Every action of a task is listed once, with what it presupposes, in `Performed`. From it comes what
an action does to the counter, to the roles of the tasks, to the terminal message and to the held
volumes.
-/

namespace Rustnzb.Dispatch

open Lib

section Total

def total (measure : Task → ℕ) (tasks : List Task) : ℕ :=
  (tasks.map measure).sum

variable (measure : Task → ℕ) {tasks : List Task} {index : ℕ} {task : Task}

@[simp] theorem total_append_singleton :
    total measure (tasks ++ [task]) = total measure tasks + measure task := by
  simp [total]

theorem total_set (isTask : tasks[index]? = some task) (next : Task) :
    total measure (tasks.set index next) + measure task = total measure tasks + measure next := by
  induction tasks generalizing index with
  | nil => simp at isTask
  | cons first rest ih =>
      cases index with
      | zero =>
          simp only [List.getElem?_cons_zero, Option.some.injEq] at isTask
          subst isTask
          simp [total]
          omega
      | succ index =>
          have := ih (by simpa using isTask)
          simp only [total, List.set_cons_succ, List.map_cons, List.sum_cons] at this ⊢
          omega

theorem le_total (mem : task ∈ tasks) : measure task ≤ total measure tasks :=
  List.single_le_sum (by simp) _ (List.mem_map_of_mem mem)

theorem add_le_total {position : ℕ} {other : Task} (distinct : position ≠ index)
    (isTask : tasks[index]? = some task) (isOther : tasks[position]? = some other) :
    measure other + measure task ≤ total measure tasks := by
  induction tasks generalizing index position with
  | nil => simp at isTask
  | cons first rest ih =>
      simp only [total, List.map_cons, List.sum_cons] at ih ⊢
      cases index with
      | zero =>
          cases position with
          | zero => exact absurd rfl distinct
          | succ position =>
              have := le_total measure (List.mem_of_getElem? (by simpa using isOther))
              simp_all [total]
              omega
      | succ index =>
          cases position with
          | zero =>
              have := le_total measure (List.mem_of_getElem? (by simpa using isTask))
              simp_all [total]
          | succ position =>
              have apart : position ≠ index := by omega
              have := ih apart (by simpa using isTask) (by simpa using isOther)
              omega

theorem mem_set_cases {next other : Task} (isTask : tasks[index]? = some task)
    (mem : other ∈ tasks.set index next) :
    other = next ∨ other ∈ tasks ∧ ∀ measure : Task → ℕ,
      measure other + measure task ≤ total measure tasks := by
  rcases List.mem_iff_getElem?.mp mem with ⟨position, isOther⟩
  by_cases same : position = index
  · subst same
    left
    rw [List.getElem?_set_self (List.getElem?_eq_some_iff.mp isTask).1] at isOther
    exact (Option.some.inj isOther).symm
  · right
    have before : tasks[position]? = some other := by
      rwa [List.getElem?_set_ne (fun eq => same eq.symm)] at isOther
    exact ⟨List.mem_of_getElem? before, fun measure => add_le_total measure same isTask before⟩

end Total

inductive Performed (ctx : JobContext) (task : Task) : JobContext → Task → Prop
  /-- Items change hands, one of them perhaps into `resolve_one`. -/
  | moved (queue delayed inFlight : List WorkItem) (articlesFailed : ℕ) (lost : List FileId)
      (resolves : Bool) (isIdle : task.activity = .idle) (active : task.role ≠ .aborted)
      (balance : queue.length + delayed.length + inFlight.length + resolves.toNat =
        ctx.queue.length + ctx.delayed.length + task.inFlight.length) :
      Performed ctx task
        { ctx with
          queue := queue, delayed := delayed, articlesFailed := articlesFailed, lost := lost }
        { task with
          inFlight := inFlight
          activity := if resolves then .releasing .inFlight else .idle }
  | checked (isIdle : task.activity = .idle) (isAborter : task.role = .aborter)
      (empty : task.inFlight = []) :
      Performed ctx task ctx { task with
        role := .aborted
        activity := if ctx.articlesRemaining = 0 then .emitting else .idle }
  | releaseSkipped (site : Site) (isReleasing : task.activity = .releasing site)
      (why : ctx.held.isEmpty = true ∨ ctx.cancelled = true ∨ ctx.abortReason.isSome = true) :
      Performed ctx task ctx (task.skip site)
  | releasePassed (site : Site) (isReleasing : task.activity = .releasing site) :
      Performed ctx task ctx (task.act (.measuring site))
  | unneeded (site : Site) (isMeasuring : task.activity = .measuring site)
      (noNeed : ctx.need site = none) : Performed ctx task ctx (task.skip site)
  | needed (site : Site) (need : Option ℕ) (isMeasuring : task.activity = .measuring site)
      (needEq : ctx.need site = some need) :
      Performed ctx task ctx (task.act (.choosing site need))
  | choseNothing (site : Site) (need : Option ℕ) (held : HeldVolumes)
      (isChoosing : task.activity = .choosing site need)
      (nothing : ctx.held.releaseFor need = (none, held)) :
      Performed ctx task { ctx with held := held } (task.skip site)
  | chose (site : Site) (need : Option ℕ) (items : List WorkItem) (held : HeldVolumes)
      (isChoosing : task.activity = .choosing site need)
      (something : ctx.held.releaseFor need = (some items, held)) :
      Performed ctx task
        { ctx with
          held := held
          releases := ctx.releases ++ [{ need := need, before := ctx.held, after := held }] }
        (task.act (.adding site items))
  | added (site : Site) (items : List WorkItem) (isAdding : task.activity = .adding site items) :
      Performed ctx task
        { ctx with articlesRemaining := ctx.articlesRemaining + items.length }
        (task.act (.submitting site items))
  | submitted (site : Site) (items : List WorkItem)
      (isSubmitting : task.activity = .submitting site items) :
      Performed ctx task (ctx.submitItems items) (task.released site)
  | counted (isCounting : task.activity = .counting) :
      Performed ctx task { ctx with articlesRemaining := ctx.articlesRemaining - 1 }
        (if ctx.articlesRemaining = 1 then task.act (.releasing .dataEnd) else task.act .idle)
  | swapped (isEmitting : task.activity = .emitting) :
      Performed ctx task { ctx with finished := true }
        (if ctx.finished then task.act .idle else task.act .reading)
  | read (isReading : task.activity = .reading) :
      Performed ctx task ctx (task.act (.sending ctx.abortReason))
  | sent (reason : Option String) (isSending : task.activity = .sending reason) :
      Performed ctx task { ctx with sent := ctx.sent ++ [ctx.message reason] } (task.act .idle)
  | cancelled (isCancelling : task.activity = .cancelling) :
      Performed ctx task { ctx with cancelled := true } (task.act .draining)
  | drained (isDraining : task.activity = .draining) :
      Performed ctx task { ctx with queue := [] }
        ({ task with inFlight := task.inFlight ++ ctx.queue }.act .idle)

section Inversion

variable {ctx next : JobContext} {task after : Task}

theorem Task.activity_of_isIdle (isIdle : task.isIdle = true) : task.activity = .idle := by
  cases activity : task.activity <;> simp_all [Task.isIdle]

section

variable (isIdle : task.activity = .idle)

include isIdle

theorem take_performed {position : ℕ} (active : task.role ≠ .aborted)
    (move : ctx.take task position = some (next, after)) : Performed ctx task next after := by
  simp only [JobContext.take] at move
  split at move
  · simp at move
  next item isItem =>
    rcases List.getElem?_eq_some_iff.mp isItem with ⟨bound, -⟩
    have length : (ctx.queue.eraseIdx position).length + 1 = ctx.queue.length := by
      rw [List.length_eraseIdx_of_lt bound]
      omega
    split at move
    · cases move
      refine .moved _ ctx.delayed task.inFlight ctx.articlesFailed _ true isIdle active ?_
      simp only [Bool.toNat_true]
      omega
    · split at move
      · cases move
        have rotated : Performed ctx task _ _ :=
          .moved (ctx.queue.eraseIdx position ++ [item]) ctx.delayed task.inFlight
            ctx.articlesFailed ctx.lost false isIdle active (by simp; omega)
        simpa [← isIdle] using rotated
      · cases move
        have taken : Performed ctx task _ _ :=
          .moved (ctx.queue.eraseIdx position) ctx.delayed (task.inFlight ++ [item])
            ctx.articlesFailed ctx.lost false isIdle active (by simp; omega)
        simpa [← isIdle] using taken

theorem answer_performed {position : ℕ} {pipelined : Bool} {providers : Providers}
    {server : ServerId} {result : FetchResult} (active : task.role ≠ .aborted)
    (move : ctx.answer task position pipelined providers server result = some (next, after)) :
    Performed ctx task next after := by
  simp only [JobContext.answer] at move
  split at move
  · simp at move
  next item isItem =>
    rcases List.getElem?_eq_some_iff.mp isItem with ⟨bound, -⟩
    have length : (task.inFlight.eraseIdx position).length + 1 = task.inFlight.length := by
      rw [List.length_eraseIdx_of_lt bound]
      omega
    have moved : ∀ queue delayed articlesFailed lost (resolves : Bool),
        queue.length + delayed.length + resolves.toNat =
          ctx.queue.length + ctx.delayed.length + 1 →
        Performed ctx task
          { ctx with
            queue := queue, delayed := delayed, articlesFailed := articlesFailed, lost := lost }
          { task with
            inFlight := task.inFlight.eraseIdx position
            activity := if resolves then .releasing .inFlight else .idle } := by
      intro queue delayed articlesFailed lost resolves balance
      exact .moved queue delayed _ articlesFailed lost resolves isIdle active (by omega)
    -- a worker resolves an article, or it hands it back, in each of its arms
    split at move
    · cases move
      exact moved ctx.queue ctx.delayed ctx.articlesFailed ctx.lost true (by simp)
    · cases move
      exact moved ctx.queue ctx.delayed ctx.articlesFailed _ true (by simp)
    · cases move
      exact moved ctx.queue ctx.delayed _ _ true (by simp)
    · cases move
      simpa [← isIdle] using moved (_ :: ctx.queue) ctx.delayed ctx.articlesFailed ctx.lost false
        (by simp; omega)
    · cases move
      simpa [← isIdle] using moved ctx.queue (ctx.delayed ++ [_]) ctx.articlesFailed ctx.lost false
        (by simp; omega)

theorem letGo_performed (active : task.role ≠ .aborted) :
    Performed ctx task (ctx.letGo task).1 (ctx.letGo task).2 := by
  have returned : Performed ctx task _ _ :=
    .moved (task.inFlight.reverse ++ ctx.queue) ctx.delayed [] ctx.articlesFailed ctx.lost false
      isIdle active (by simp; omega)
  simpa [JobContext.letGo, ← isIdle] using returned

theorem sweep_performed (active : task.role ≠ .aborted) (takes : WorkItem → Bool) :
    Performed ctx task (ctx.sweep task takes).1 (ctx.sweep task takes).2 := by
  have length : ctx.queue.length = (ctx.queue.filter takes).length +
      (ctx.queue.filter fun item => !takes item).length :=
    List.length_eq_length_filter_add takes
  have taken : Performed ctx task _ _ :=
    .moved (ctx.queue.filter fun item => !takes item) ctx.delayed
      (task.inFlight ++ ctx.queue.filter takes) ctx.articlesFailed ctx.lost false isIdle active
      (by rw [List.length_append]; simp only [Bool.toNat_false]; omega)
  simpa [JobContext.sweep, ← isIdle] using taken

theorem resolveNext_performed
    (move : ctx.resolveNext task = some (next, after)) : Performed ctx task next after := by
  simp only [JobContext.resolveNext] at move
  split at move
  next item rest role inFlight =>
    have moved : ∀ articlesFailed lost, Performed ctx task
        { ctx with articlesFailed := articlesFailed, lost := lost }
        ({ task with inFlight := rest }.resolve) := fun articlesFailed lost =>
      .moved ctx.queue ctx.delayed rest articlesFailed lost true isIdle (by simp [role])
        (by simp [inFlight]; omega)
    cases move
    split
    · exact moved _ _
    · exact moved _ _
  next item rest role inFlight =>
    cases move
    exact .moved ctx.queue ctx.delayed rest ctx.articlesFailed _ true isIdle (by simp [role])
      (by simp [inFlight]; omega)
  next role inFlight =>
    cases move
    have checked : Performed ctx task ctx _ := .checked isIdle role inFlight
    split at checked
    · simpa [Task.act, *] using checked
    · simpa [*] using checked
  · simp at move

end

theorem advance_performed (move : ctx.advance task = some (next, after)) :
    Performed ctx task next after := by
  simp only [JobContext.advance] at move
  split at move
  next isIdle => exact resolveNext_performed isIdle move
  next site isReleasing =>
    cases move
    split
    next why =>
      simp only [Bool.or_eq_true, or_assoc] at why
      exact .releaseSkipped site isReleasing why
    · exact .releasePassed site isReleasing
  next site isMeasuring =>
    split at move
    next noNeed =>
      cases move
      exact .unneeded site isMeasuring noNeed
    next need needEq =>
      cases move
      exact .needed site need isMeasuring needEq
  next site need isChoosing =>
    split at move
    next held nothing =>
      cases move
      exact .choseNothing site need held isChoosing nothing
    next items held something =>
      cases move
      exact .chose site need items held isChoosing something
  next site items isAdding =>
    cases move
    exact .added site items isAdding
  next site items isSubmitting =>
    cases move
    exact .submitted site items isSubmitting
  next isCounting =>
    cases move
    exact .counted isCounting
  next isEmitting =>
    cases move
    exact .swapped isEmitting
  next isReading =>
    cases move
    exact .read isReading
  next reason isSending =>
    cases move
    exact .sent reason isSending
  next isCancelling =>
    cases move
    exact .cancelled isCancelling
  next isDraining =>
    cases move
    exact .drained isDraining

theorem perform_performed {action : Action}
    (move : ctx.perform task action = some (next, after)) : Performed ctx task next after := by
  have working : ∀ role, role ≠ .aborted → (task.isIdle && decide (task.role = role)) = true →
      task.activity = .idle ∧ task.role ≠ .aborted := by
    intro role notAborted may
    rcases Bool.and_eq_true_iff.mp may with ⟨isIdle, isRole⟩
    rw [of_decide_eq_true isRole]
    exact ⟨Task.activity_of_isIdle isIdle, notAborted⟩
  cases action with
  | take position =>
      simp only [JobContext.perform] at move
      split at move
      next may =>
        rcases working .worker (by simp) may with ⟨isIdle, active⟩
        exact take_performed isIdle active move
      · simp at move
  | answer position pipelined providers server result =>
      simp only [JobContext.perform] at move
      split at move
      next may =>
        rcases working .worker (by simp) may with ⟨isIdle, active⟩
        exact answer_performed isIdle active move
      · simp at move
  | letGo =>
      simp only [JobContext.perform] at move
      split at move
      next may =>
        rcases working .worker (by simp) may with ⟨isIdle, active⟩
        simpa [Option.some.inj move] using (letGo_performed isIdle active : Performed ctx task _ _)
      · simp at move
  | sweep providers =>
      simp only [JobContext.perform] at move
      split at move
      next may =>
        rcases working .supervisor (by simp) (Bool.and_eq_true_iff.mp may).1 with ⟨isIdle, active⟩
        simpa [Option.some.inj move] using
          (sweep_performed isIdle active (Engine.sweepTakes providers) : Performed ctx task _ _)
      · simp at move
  | advance => exact advance_performed move

end Inversion

/-- How much of the counter stands for what the task is in the middle of. -/
def Activity.owed : Activity → ℕ
  | .releasing .inFlight | .measuring .inFlight | .choosing .inFlight _ | .adding .inFlight _
  | .counting => 1
  | .submitting .inFlight items => 1 + items.length
  | .submitting .dataEnd items => items.length
  | _ => 0

/-- Between taking the counter to zero and having sent the terminal message. -/
def Activity.ends : Activity → Bool
  | .releasing .dataEnd | .measuring .dataEnd | .choosing .dataEnd _ | .adding .dataEnd _
  | .emitting | .reading | .sending _ => true
  | _ => false

/-- After the swap in `emit_terminal`. -/
def Activity.emits : Activity → Bool
  | .reading | .sending _ => true
  | _ => false

namespace Task

def owed (task : Task) : ℕ := task.inFlight.length + task.activity.owed

/-- The task ends the job; the last look of `abort_job` at the counter does not count. -/
def ending (task : Task) : ℕ :=
  if task.role = .aborted then 0 else task.activity.ends.toNat

def emitting (task : Task) : ℕ := task.activity.emits.toNat

/-- What a call of `abort_job` can still be doing after its last look at the counter. -/
def ChecksOut (task : Task) : Prop :=
  task.role = .aborted →
    task.activity = .idle ∨ task.activity = .emitting ∨ task.activity = .reading ∨
      ∃ reason, task.activity = .sending reason

def willEmit (task : Task) : ℕ :=
  if task.role = .aborted then 0 else (task.activity.ends && !task.activity.emits).toNat

end Task

namespace Terminal

def isFinished : Terminal → Bool
  | .jobFinished _ _ _ => true
  | .jobAborted _ _ => false

end Terminal

namespace JobContext

/-- No held volume is needed any more, as the slice map stands. -/
def NothingNeeded (ctx : JobContext) : Prop :=
  ctx.held.isEmpty = true ∨ ctx.damage = some 0 ∨
    ∃ damage, ctx.damage = some damage ∧ damage + repairMargin ≤ ctx.held.releasedBlocks

theorem NothingNeeded.congr {ctx next : JobContext} (nothing : ctx.NothingNeeded)
    (held : next.held = ctx.held) (damage : next.damage = ctx.damage) : next.NothingNeeded := by
  simpa [NothingNeeded, held, damage] using nothing

/-- What the task has found out on its way to the terminal message still holds. -/
def Decided (ctx : JobContext) (task : Task) : Prop :=
  match task.activity with
  | .choosing .dataEnd need => ctx.need .dataEnd = some need
  | .emitting | .reading => ctx.abortReason.isSome = true ∨ ctx.NothingNeeded
  | .sending none => task.role ≠ .aborted ∧ ctx.NothingNeeded
  | _ => True

end JobContext

namespace JobRun

def outstanding (run : JobRun) : ℕ :=
  run.ctx.queue.length + run.ctx.delayed.length + total Task.owed run.tasks

end JobRun

namespace Performed

variable {ctx next : JobContext} {task after : Task}

theorem length_submitItems (ctx : JobContext) (items : List WorkItem) :
    (ctx.submitItems items).queue.length = ctx.queue.length + items.length := by
  simp [JobContext.submitItems, SharedWorkQueue.submitItems]

section

variable (performed : Performed ctx task next after)

include performed

theorem balance :
    next.articlesRemaining + (ctx.queue.length + ctx.delayed.length + task.owed : ℕ) =
      ctx.articlesRemaining + (next.queue.length + next.delayed.length + after.owed : ℕ) := by
  cases performed with
  | moved queue delayed inFlight articlesFailed lost resolves isIdle active balance =>
      cases resolves with
      | true =>
          simp_all [Task.owed, Activity.owed]
          omega
      | false => simp_all [Task.owed, Activity.owed]
  | checked isIdle isAborter empty => split <;> simp_all [Task.owed, Activity.owed]
  | releaseSkipped site | releasePassed site | unneeded site | needed site | choseNothing site
  | chose site =>
      cases site <;> simp_all [Task.owed, Activity.owed, Task.skip, Task.act]
  | added site =>
      cases site <;> simp_all [Task.owed, Activity.owed, Task.act] <;> omega
  | submitted site items isSubmitting =>
      have length := length_submitItems ctx items
      cases site with
      | inFlight =>
          simp_all [Task.owed, Activity.owed, Task.act, Task.released, JobContext.submitItems]
          omega
      | dataEnd =>
          simp_all [Task.owed, Activity.owed, Task.act, Task.released, JobContext.submitItems]
          omega
  | counted isCounting => split <;> simp_all [Task.owed, Activity.owed, Task.act] <;> omega
  | swapped isEmitting => split <;> simp_all [Task.owed, Activity.owed, Task.act]
  | drained isDraining => simp_all [Task.owed, Activity.owed, Task.act]; omega
  | _ => simp_all [Task.owed, Activity.owed, Task.act]

theorem roles :
    after.role = task.role ∨ task.role = .aborter ∧ after.role = .aborted := by
  cases performed with
  | checked isIdle isAborter empty => exact Or.inr ⟨isAborter, rfl⟩
  | releaseSkipped site | unneeded site | choseNothing site | submitted site =>
      cases site <;> exact Or.inl rfl
  | counted | swapped =>
      split <;> exact Or.inl rfl
  | _ => exact Or.inl rfl

/-- A task begins to end the job only by taking the counter to zero, and goes on with it only
while the counter stays. -/
theorem ending_cases :
    after.ending = 0 ∨
      after.ending = 1 ∧ task.ending = 1 ∧ next.articlesRemaining = ctx.articlesRemaining ∨
      after.ending = 1 ∧ task.ending = 0 ∧ 1 ≤ task.owed ∧ ctx.articlesRemaining = 1 ∧
        next.articlesRemaining = 0 := by
  by_cases isAborted : task.role = .aborted
  · left
    rcases performed.roles with same | ⟨-, same⟩
    · simp [Task.ending, same, isAborted]
    · simp [Task.ending, same]
  cases performed with
  | moved queue delayed inFlight articlesFailed lost resolves isIdle active balance =>
      cases resolves <;> simp [Task.ending, Activity.ends]
  | checked isIdle isAborter empty => simp [Task.ending]
  | releaseSkipped site | releasePassed site | unneeded site | needed site | choseNothing site
  | chose site | added site | submitted site =>
      cases site <;> simp_all [Task.ending, Activity.ends, Task.skip, Task.act, Task.released]
  | counted isCounting =>
      by_cases last : ctx.articlesRemaining = 1
      · simp_all [Task.ending, Activity.ends, Task.act, Task.owed, Activity.owed]
      · simp_all [Task.ending, Activity.ends, Task.act]
  | swapped isEmitting =>
      split <;> simp_all [Task.ending, Activity.ends, Task.act]
  | _ => simp_all [Task.ending, Activity.ends, Task.act]

theorem frame (owesNothing : task.owed = 0)
    (notEnding : task.ending = 0) (checksOut : task.ChecksOut) :
    next.articlesRemaining = ctx.articlesRemaining ∧ next.held = ctx.held ∧
      next.damage = ctx.damage := by
  cases performed with
  | choseNothing site | chose site | added site =>
      cases site <;> simp_all [Task.ending, Activity.ends, Task.owed, Activity.owed, Task.ChecksOut]
  | counted isCounting => simp_all [Task.owed, Activity.owed]
  | _ => exact ⟨rfl, rfl, rfl⟩

theorem once :
    next.sent.length + after.emitting + ctx.finished.toNat =
      ctx.sent.length + task.emitting + next.finished.toNat := by
  cases performed with
  | moved queue delayed inFlight articlesFailed lost resolves isIdle active balance =>
      cases resolves <;> simp_all [Task.emitting, Activity.emits]
  | checked isIdle isAborter empty => split <;> simp_all [Task.emitting, Activity.emits]
  | releaseSkipped site | unneeded site | choseNothing site | submitted site =>
      cases site <;>
        simp_all [Task.emitting, Activity.emits, Task.skip, Task.act, Task.released,
          JobContext.submitItems]
  | counted isCounting => split <;> simp_all [Task.emitting, Activity.emits, Task.act]
  | swapped isEmitting =>
      cases finished : ctx.finished <;> simp_all [Task.emitting, Activity.emits, Task.act]
  | _ => simp_all [Task.emitting, Activity.emits, Task.act]

/-- While the counter is zero, a task stays on its way to the swap until `finished` is set. -/
theorem willEmit_cases (checksOut : task.ChecksOut) (nonneg : 0 ≤ ctx.articlesRemaining)
    (adds : ∀ site items, task.activity = .adding site items → items ≠ [])
    (atZero : next.articlesRemaining = 0) :
    next.finished = true ∨ after.willEmit = 1 ∨
      task.willEmit = 0 ∧ ctx.articlesRemaining = 0 ∧ next.finished = ctx.finished := by
  cases performed with
  | moved queue delayed inFlight articlesFailed lost resolves isIdle active balance =>
      exact Or.inr (Or.inr ⟨by simp [Task.willEmit, isIdle, Activity.ends], atZero, rfl⟩)
  | checked isIdle isAborter empty =>
      exact Or.inr (Or.inr ⟨by simp [Task.willEmit, isIdle, Activity.ends], atZero, rfl⟩)
  | releaseSkipped site | releasePassed site | unneeded site | needed site | choseNothing site
  | chose site =>
      by_cases isAborted : task.role = .aborted
      · exact Or.inr (Or.inr ⟨by simp [Task.willEmit, isAborted], atZero, rfl⟩)
      · cases site <;>
          simp_all [Task.willEmit, Activity.ends, Activity.emits, Task.skip, Task.act]
  | added site items isAdding =>
      have some := List.length_pos_iff.mpr (adds site items isAdding)
      simp only at atZero
      omega
  | submitted site items isSubmitting =>
      exact Or.inr (Or.inr ⟨by cases site <;> simp [Task.willEmit, isSubmitting, Activity.ends],
        atZero, rfl⟩)
  | counted isCounting =>
      have notAborted : task.role ≠ .aborted := by
        intro isAborted
        simpa [isCounting] using checksOut isAborted
      have last : ctx.articlesRemaining = 1 := by
        simp only at atZero
        omega
      simp [last, notAborted, Task.willEmit, Task.act, Activity.ends, Activity.emits]
  | swapped isEmitting => exact Or.inl rfl
  | read isReading | sent reason isReading | cancelled isReading | drained isReading =>
      exact Or.inr (Or.inr ⟨by simp [Task.willEmit, isReading, Activity.ends, Activity.emits],
        atZero, rfl⟩)

theorem checksOut (before : task.ChecksOut) : after.ChecksOut := by
  intro isAborted
  cases performed with
  | moved queue delayed inFlight articlesFailed lost resolves isIdle active balance =>
      exact absurd isAborted active
  | checked isIdle isAborter empty =>
      by_cases atZero : ctx.articlesRemaining = 0 <;> simp [atZero]
  | swapped isEmitting => split <;> simp [Task.act]
  | read | sent => simp [Task.act]
  | releaseSkipped site isOther | unneeded site isOther | choseNothing site _ _ isOther
  | submitted site _ isOther =>
      have role : task.role = .aborted := by cases site <;> exact isAborted
      simpa [isOther] using before role
  | counted isCounting =>
      have role : task.role = .aborted := by split at isAborted <;> exact isAborted
      simpa [isCounting] using before role
  | releasePassed _ isOther | needed _ _ isOther | chose _ _ _ _ isOther | added _ _ isOther
  | cancelled isOther | drained isOther =>
      simpa [isOther] using before isAborted

theorem decided (before : ctx.Decided task)
    (cancelled : ctx.cancelled = true → ctx.abortReason.isSome = true)
    (aborts : task.role = .aborter ∨ task.role = .aborted → ctx.abortReason.isSome = true)
    (filled : ∀ volume ∈ ctx.held.held, volume.items ≠ []) : next.Decided after := by
  cases performed with
  | moved queue delayed inFlight articlesFailed lost resolves isIdle active balance =>
      cases resolves <;> trivial
  | checked isIdle isAborter empty =>
      have reason := aborts (Or.inl isAborter)
      by_cases atZero : ctx.articlesRemaining = 0
      · simp [JobContext.Decided, atZero, reason]
      · simp [JobContext.Decided, atZero]
  | releaseSkipped site isReleasing why =>
      cases site with
      | inFlight => trivial
      | dataEnd =>
          rcases why with isEmpty | isCancelled | isAborted
          · exact Or.inr (Or.inl isEmpty)
          · exact Or.inl (cancelled isCancelled)
          · exact Or.inl isAborted
  | unneeded site isMeasuring noNeed =>
      cases site with
      | inFlight => trivial
      | dataEnd =>
          refine Or.inr (Or.inr (Or.inl ?_))
          simp only [JobContext.need] at noNeed
          split at noNeed
          · simp at noNeed
          next damage damageEq => split at noNeed <;> simp_all
  | needed site need isMeasuring needEq =>
      cases site with
      | inFlight => trivial
      | dataEnd => exact needEq
  | choseNothing site need held isChoosing nothing =>
      cases site with
      | inFlight => trivial
      | dataEnd =>
          rcases releaseFor_none filled nothing with ⟨rfl, enough⟩
          refine Or.inr ?_
          rcases enough with isEmpty | ⟨n, nMem, reached⟩
          · exact Or.inl isEmpty
          · have needEq : ctx.need .dataEnd = some need := by
              simpa [JobContext.Decided, isChoosing] using before
            refine Or.inr (Or.inr ?_)
            simp only [JobContext.need] at needEq
            split at needEq
            · simp_all
            next damage damageEq =>
              split at needEq
              · simp at needEq
              · cases Option.some.inj needEq
                cases nMem
                exact ⟨damage, damageEq, reached⟩
  | chose site => trivial
  | releasePassed site => trivial
  | added site => trivial
  | submitted site items => cases site <;> trivial
  | counted isCounting => split <;> trivial
  | swapped isEmitting =>
      split
      · trivial
      · have := before
        simp only [JobContext.Decided, isEmitting] at this
        exact this
  | read isReading =>
      have known : ctx.abortReason.isSome = true ∨ ctx.NothingNeeded := by
        simpa [JobContext.Decided, isReading] using before
      cases reason : ctx.abortReason with
      | none =>
          refine ⟨fun isAborted => ?_, ?_⟩
          · simpa [reason] using aborts (Or.inr isAborted)
          · simpa [reason] using known
      | some => trivial
  | sent | cancelled | drained => trivial

theorem aborts
    (isAborting : after.role = .aborter ∨ after.role = .aborted ∨ after.activity = .cancelling) :
    task.role = .aborter ∨ task.role = .aborted ∨ task.activity = .cancelling := by
  rcases isAborting with isAborter | isAborted | isCancelling
  · rcases performed.roles with same | ⟨wasAborter, -⟩
    · exact Or.inl (same ▸ isAborter)
    · exact Or.inl wasAborter
  · rcases performed.roles with same | ⟨wasAborter, -⟩
    · exact Or.inr (Or.inl (same ▸ isAborted))
    · exact Or.inl wasAborter
  · cases performed with
    | moved queue delayed inFlight articlesFailed lost resolves isIdle active balance =>
        cases resolves <;> simp at isCancelling
    | checked isIdle isAborter empty => exact Or.inl isAborter
    | releaseSkipped site | unneeded site | choseNothing site | submitted site =>
        cases site <;> simp [Task.skip, Task.released, Task.act] at isCancelling
    | counted | swapped => split at isCancelling <;> simp [Task.act] at isCancelling
    | _ => simp [Task.act] at isCancelling

theorem adds :
    ∀ site items, after.activity = .adding site items → items ≠ [] := by
  intro site items isAdding
  cases performed with
  | moved queue delayed inFlight articlesFailed lost resolves isIdle active balance =>
      cases resolves <;> simp at isAdding
  | checked isIdle isAborter empty => split at isAdding <;> simp at isAdding
  | releaseSkipped site | unneeded site | choseNothing site | submitted site =>
      cases site <;> simp [Task.skip, Task.released, Task.act] at isAdding
  | counted | swapped => split at isAdding <;> simp [Task.act] at isAdding
  | chose site need items held isChoosing something =>
      simp only [Task.act, Activity.adding.injEq] at isAdding
      rw [← isAdding.2]
      exact releaseFor_some something
  | _ => simp [Task.act] at isAdding

theorem filled (before : ∀ volume ∈ ctx.held.held, volume.items ≠ []) :
    ∀ volume ∈ next.held.held, volume.items ≠ [] := by
  have kept : ∀ need volume, volume ∈ (ctx.held.releaseFor need).2.held →
      volume ∈ ctx.held.held := by
    intro need volume volumeMem
    rcases releaseFor_spec ctx.held need with ⟨volumes, smallest, -⟩
    rw [smallest.append_eq]
    exact List.mem_append_right volumes volumeMem
  cases performed with
  | choseNothing site need held isChoosing nothing =>
      intro volume volumeMem
      exact before volume (kept need volume (by rwa [nothing]))
  | chose site need items held isChoosing something =>
      intro volume volumeMem
      exact before volume (kept need volume (by rwa [something]))
  | _ => exact before

theorem unread (reason : ctx.abortReason.isSome = true) : after.activity ≠ .sending none := by
  intro isSending
  cases performed with
  | moved queue delayed inFlight articlesFailed lost resolves isIdle active balance =>
      cases resolves <;> simp at isSending
  | checked isIdle isAborter empty => split at isSending <;> simp at isSending
  | releaseSkipped site | unneeded site | choseNothing site | submitted site =>
      cases site <;> simp [Task.skip, Task.released, Task.act] at isSending
  | counted | swapped => split at isSending <;> simp [Task.act] at isSending
  | read isReading => simp_all [Task.act]
  | _ => simp [Task.act] at isSending

theorem unsent (unread : task.activity ≠ .sending none)
    (before : ∀ message ∈ ctx.sent, message.isFinished = false) :
    ∀ message ∈ next.sent, message.isFinished = false := by
  cases performed with
  | sent reason isSending =>
      intro message messageMem
      rcases List.mem_append.mp messageMem with old | new
      · exact before message old
      · cases reason with
        | none => exact absurd isSending unread
        | some reason =>
            rw [List.mem_singleton.mp new]
            rfl
  | _ => exact before

theorem flags :
    next.abortReason = ctx.abortReason ∧
      (next.cancelled = ctx.cancelled ∨ task.activity = .cancelling) := by
  cases performed with
  | cancelled isCancelling => exact ⟨rfl, Or.inr isCancelling⟩
  | _ => exact ⟨rfl, Or.inl rfl⟩

end

end Performed

end Rustnzb.Dispatch
