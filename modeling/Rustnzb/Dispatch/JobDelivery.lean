import Rustnzb.Dispatch.ItemFlow

/-!
# What a finished job has delivered

A job that ends with `JobFinished` and no failed article has lost nothing, so that every article it
was submitted without is written, except those of volumes it still holds. A loss shows in the count
of failed articles, or the job ends with `JobAborted`.
-/

namespace Rustnzb.Dispatch

open Lib

namespace JobRun

def present (run : JobRun) : List WorkItem :=
  run.ctx.waiting ++ run.tasks.flatMap Task.items

def arrival (run : JobRun) : JobEvent → Option WorkItem
  | .act index action => run.tasks[index]?.bind fun task => run.ctx.arrival task action
  | _ => none

def failure (run : JobRun) : JobEvent → Option FailureReport
  | .act index action => run.tasks[index]?.bind fun task => run.ctx.failure task action
  | _ => none

def Honest (run : JobRun) : JobEvent → Prop
  | .act _ action => run.ctx.Honest action
  | _ => True

/-- What a step of the environment leaves alone. -/
structure Aside (run next : JobRun) : Prop where
  waiting : ∀ item ∈ run.ctx.waiting, item ∈ next.ctx.waiting
  tasks : ∀ task ∈ run.tasks, task ∈ next.tasks
  held : next.ctx.held = run.ctx.held
  releases : next.ctx.releases = run.ctx.releases
  lost : next.ctx.lost = run.ctx.lost
  failed : next.ctx.articlesFailed = run.ctx.articlesFailed
  sent : next.ctx.sent = run.ctx.sent
  damage : next.ctx.damage = run.ctx.damage ∨ ∃ task ∈ run.tasks, task.inFlight ≠ []

theorem step_cases {run next : JobRun} {event : JobEvent} (move : Step run event next) :
    (∃ index action task ctx after, event = .act index action ∧ run.tasks[index]? = some task ∧
      run.ctx.perform task action = some (ctx, after) ∧
        next = { run with ctx := ctx, tasks := run.tasks.set index after }) ∨
      run.arrival event = none ∧ run.failure event = none ∧ run.Aside next := by
  simp only [Step, JobRun.step] at move
  cases event with
  | act index action =>
      left
      dsimp only at move
      split at move
      · simp at move
      next task isTask =>
        rcases Option.map_eq_some_iff.mp move with ⟨⟨ctx, after⟩, moved, rfl⟩
        exact ⟨index, action, task, ctx, after, rfl, isTask, moved, rfl⟩
  | spawn supervises =>
      cases move
      exact .inr ⟨rfl, rfl, fun _ => id, fun _ => List.mem_append_left _, rfl, rfl, rfl, rfl, rfl,
        .inl rfl⟩
  | abort reason =>
      dsimp only at move
      split at move
      · simp at move
      · cases move
        exact .inr ⟨rfl, rfl, fun _ => id, fun _ => List.mem_append_left _, rfl, rfl, rfl, rfl, rfl,
          .inl rfl⟩
  | wake position =>
      dsimp only at move
      split at move
      · simp at move
      next item isItem =>
        cases move
        refine .inr
          ⟨rfl, rfl, fun other there => ?_, fun _ => id, rfl, rfl, rfl, rfl, rfl, .inl rfl⟩
        simp only [JobContext.waiting, List.mem_append, List.mem_cons] at there ⊢
        rcases there with (queued | delayed) | held
        · simp [queued]
        · rcases Kept.mem_or_eraseIdx isItem delayed with rfl | rest
          · simp
          · simp [rest]
        · simp [held]
  | progress damageHint damage =>
      dsimp only at move
      split at move
      next working =>
        cases move
        refine .inr ⟨rfl, rfl, fun _ => id, fun _ => id, rfl, rfl, rfl, rfl, rfl, .inr ?_⟩
        simpa [List.any_eq_true] using working
      · simp at move
  | pause | resume =>
      cases move
      exact .inr ⟨rfl, rfl, fun _ => id, fun _ => id, rfl, rfl, rfl, rfl, rfl, .inl rfl⟩

/-- The articles of `items` are written or still somewhere, or their file has lost one. -/
def Located (items : List WorkItem) (written : List (FileId × ℕ)) (run : JobRun) : Prop :=
  ∀ item ∈ items, (∃ other ∈ run.present, other.key = item.key) ∨ item.key ∈ written ∨
    item.fileId ∈ run.ctx.lost

/-- No article goes missing, and a loss shows: in the count of failed articles or in how the job
ends. -/
structure Delivering (items : List WorkItem) (written : List (FileId × ℕ)) (run : JobRun) :
    Prop where
  settling : run.Settling
  located : run.Located items written
  shows : run.ctx.lost = [] ∨ 0 < run.ctx.articlesFailed ∨ run.AbortWins ∨
    ∃ message ∈ run.ctx.sent, message.isFinished = false
  finished : ∀ success damage, Terminal.jobFinished success 0 damage ∈ run.ctx.sent →
    run.ctx.lost = []

theorem Delivering.mono {items : List WorkItem} {written more : List (FileId × ℕ)} {run : JobRun}
    (delivering : run.Delivering items written) (subset : written ⊆ more) :
    run.Delivering items more where
  settling := delivering.settling
  located item mem := (delivering.located item mem).imp_right (Or.imp_left fun done => subset done)
  shows := delivering.shows
  finished := delivering.finished

theorem mem_present {run : JobRun} {item : WorkItem} :
    item ∈ run.present ↔ item ∈ run.ctx.waiting ∨ ∃ task ∈ run.tasks, item ∈ task.items := by
  simp [present]

/-- The items of the articles that a job was submitted without, failed before or not. -/
def unfinishedItems (job : NzbJob) : List WorkItem :=
  job.files.flatMap fun file =>
    (file.articles.filter fun article => !article.downloaded).map (workItemOf job file)

theorem mem_unfinishedItems {job : NzbJob} {item : WorkItem} :
    item ∈ unfinishedItems job ↔ ∃ file ∈ job.files, ∃ article ∈ file.articles,
      article.downloaded = false ∧ item = workItemOf job file article := by
  simp only [unfinishedItems, List.mem_flatMap, List.mem_map, List.mem_filter,
    Bool.not_eq_true']
  constructor
  · rintro ⟨file, fileMem, article, ⟨articleMem, notDone⟩, rfl⟩
    exact ⟨file, fileMem, article, articleMem, notDone, rfl⟩
  · rintro ⟨file, fileMem, article, articleMem, notDone, rfl⟩
    exact ⟨file, fileMem, article, ⟨articleMem, notDone⟩, rfl⟩

theorem fileId_mem_lost (job : NzbJob) (enabledServerIds : List ServerId)
    (incompleteNzb : Option String) (damageHint : ℕ) (damage : Option ℕ) {file : NzbFile}
    (fileMem : file ∈ job.files) {article : Article} (articleMem : article ∈ file.articles)
    (isFailed : isPreviouslyFailed enabledServerIds article = true) :
    file.id ∈ (context job enabledServerIds incompleteNzb damageHint damage).lost := by
  simp only [context, List.mem_map, List.mem_filter, List.any_eq_true]
  exact ⟨file, ⟨fileMem, article, articleMem, isFailed⟩, rfl⟩

theorem present_split (job : NzbJob) (deferVolumes : Bool) (order : IterationOrder)
    {items : List WorkItem} {item : WorkItem} (mem : item ∈ items) :
    item ∈ (split job items deferVolumes order).1 ∨
      item ∈ (split job items deferVolumes order).2.items := by
  simp only [split]
  split
  · have perm := (hold_perm order .new items (deferrableVolumes job)).mem_iff (a := item)
    rw [List.mem_append] at perm
    exact perm.mpr mem
  · exact .inl mem

section Submitted

variable (job : NzbJob) (enabledServerIds : List ServerId) (deferVolumes : Bool)
  (order : IterationOrder) (incompleteNzb : Option String) (damageHint : ℕ) (damage : Option ℕ)

theorem start_frame (ctx : JobContext) (items : List WorkItem) :
    (start ctx job items deferVolumes order).ctx.lost = ctx.lost ∧
      (start ctx job items deferVolumes order).ctx.articlesFailed = ctx.articlesFailed ∧
      (start ctx job items deferVolumes order).ctx.sent = ctx.sent := by
  simp only [start]
  split
  · exact ⟨rfl, rfl, rfl⟩
  · split
    · exact ⟨rfl, rfl, rfl⟩
    · exact ⟨rfl, rfl, rfl⟩

theorem present_submitted {item : WorkItem} (mem : item ∈ buildWorkItems job enabledServerIds) :
    item ∈ (submitted job enabledServerIds deferVolumes order incompleteNzb damageHint
      damage).present := by
  rw [mem_present]
  left
  simp only [submitted, start]
  have place := present_split job deferVolumes order mem
  split
  next empty => simp [List.isEmpty_iff.mp empty] at mem
  · split
    next empty =>
      rw [List.isEmpty_iff] at empty
      rw [empty, List.mem_nil_iff, false_or] at place
      simp [JobContext.waiting, place]
    · have queued : ∀ queue : SharedWorkQueue, item ∈ (queue.submitItems
          (split job (buildWorkItems job enabledServerIds) deferVolumes order).1).items ↔ _ :=
        fun _ => SharedWorkQueue.mem_submitItems
      simp only [JobContext.waiting, JobContext.submitItems, List.mem_append, queued]
      tauto

theorem lost_context_iff :
    (context job enabledServerIds incompleteNzb damageHint damage).lost = [] ↔
      previouslyFailed job enabledServerIds = 0 := by
  simp only [context, previouslyFailed, List.map_eq_nil_iff, List.length_eq_zero_iff,
    List.filter_eq_nil_iff, List.mem_flatMap, List.any_eq_true]
  constructor
  · rintro none article ⟨file, fileMem, articleMem⟩ isFailed
    exact none file fileMem ⟨article, articleMem, isFailed⟩
  · rintro none file fileMem ⟨article, articleMem, isFailed⟩
    exact none article ⟨file, fileMem, articleMem⟩ isFailed

theorem located_submitted :
    (submitted job enabledServerIds deferVolumes order incompleteNzb damageHint
      damage).Located (unfinishedItems job) [] := by
  intro item mem
  rcases start_frame job deferVolumes order
    (context job enabledServerIds incompleteNzb damageHint damage)
    (buildWorkItems job enabledServerIds) with ⟨lost, _, _⟩
  rcases mem_unfinishedItems.mp mem with ⟨file, fileMem, article, articleMem, notDone, rfl⟩
  rcases isFailed : isPreviouslyFailed enabledServerIds article with _ | _
  · exact .inl ⟨_, present_submitted job enabledServerIds deferVolumes order incompleteNzb
      damageHint damage (mem_buildWorkItems.mpr
        ⟨file, fileMem, article, articleMem, notDone, isFailed, rfl⟩), rfl⟩
  · right
    right
    rw [submitted, lost]
    exact fileId_mem_lost job enabledServerIds incompleteNzb damageHint damage fileMem articleMem
      isFailed

theorem delivering_submitted :
    (submitted job enabledServerIds deferVolumes order incompleteNzb damageHint
      damage).Delivering (unfinishedItems job) [] where
  settling := settling_submitted job enabledServerIds deferVolumes order incompleteNzb damageHint
    damage
  located := located_submitted job enabledServerIds deferVolumes order incompleteNzb damageHint
    damage
  shows := by
    rcases start_frame job deferVolumes order
      (context job enabledServerIds incompleteNzb damageHint damage)
      (buildWorkItems job enabledServerIds) with ⟨lost, failed, _⟩
    by_cases none : previouslyFailed job enabledServerIds = 0
    · left
      exact lost.trans ((lost_context_iff ..).mpr none)
    · right
      left
      rw [submitted, failed]
      exact Nat.pos_of_ne_zero none
  finished success damage mem := by
    rcases start_frame job deferVolumes order
      (context job enabledServerIds incompleteNzb damageHint _)
      (buildWorkItems job enabledServerIds) with ⟨_, _, sent⟩
    rw [submitted, sent] at mem
    simp [context] at mem

end Submitted

section Step

variable {items : List WorkItem} {written : List (FileId × ℕ)} {run : JobRun}

theorem Settling.over_or_aborts (settling : run.Settling)
    (reason : run.ctx.abortReason.isSome = true) :
    run.ctx.articlesRemaining = 0 ∨ run.AbortWins ∨
      ∃ message ∈ run.ctx.sent, message.isFinished = false := by
  by_cases reads : ∃ task ∈ run.tasks, task.activity = .sending none
  · rcases reads with ⟨task, mem, isSending⟩
    have decided := settling.decided task mem
    simp only [JobContext.Decided, isSending] at decided
    have le : task.ending ≤ total Task.ending run.tasks := le_total Task.ending mem
    have isEnding : task.ending = 1 := by
      simp [Task.ending, decided.1, isSending, Activity.ends]
    exact .inl (settling.ended (by omega))
  · rcases sent : run.ctx.sent with _ | ⟨message, rest⟩
    · right
      left
      exact ⟨reason, fun task mem isSending => reads ⟨task, mem, isSending⟩, by simp [sent]⟩
    · rcases isFinished : message.isFinished with _ | _
      · exact .inr (.inr ⟨message, List.mem_cons_self, isFinished⟩)
      · exact .inl (settling.final message (by simp [sent]) isFinished).1

section Act

variable {index : ℕ} {task after : Task} {ctx : JobContext} {action : Action}

theorem Settling.remaining_ne_zero (settling : run.Settling)
    (isTask : run.tasks[index]? = some task)
    (busy : task.inFlight ≠ [] ∨ run.ctx.queue ≠ []) : run.ctx.articlesRemaining ≠ 0 := by
  have balanced := settling.balanced
  have le := le_total Task.owed (List.mem_of_getElem? isTask)
  simp only [outstanding] at balanced
  rcases busy with inFlight | queued
  · have := List.length_pos_iff.mpr inFlight
    simp only [Task.owed] at le
    omega
  · have := List.length_pos_iff.mpr queued
    omega

theorem present_cases (isTask : run.tasks[index]? = some task) {item : WorkItem}
    (present : item ∈ run.present) (next : JobContext) (after : Task) :
    item ∈ run.ctx.waiting ++ task.items ∨
      item ∈ ({ run with ctx := next, tasks := run.tasks.set index after } : JobRun).present := by
  rw [mem_present] at present
  rcases present with waiting | ⟨other, mem, own⟩
  · exact .inl (List.mem_append_left _ waiting)
  · rcases List.mem_iff_getElem?.mp mem with ⟨position, isOther⟩
    by_cases same : index = position
    · rw [← same, isTask, Option.some.injEq] at isOther
      subst isOther
      exact .inl (List.mem_append_right _ own)
    · right
      rw [mem_present]
      refine .inr ⟨other, ?_, own⟩
      apply List.mem_of_getElem? (i := position)
      rw [List.getElem?_set_ne same]
      exact isOther

theorem present_of_mem (isTask : run.tasks[index]? = some task) {item : WorkItem}
    {next : JobContext} {after : Task} (mem : item ∈ next.waiting ++ after.items) :
    item ∈ ({ run with ctx := next, tasks := run.tasks.set index after } : JobRun).present := by
  rw [mem_present]
  rcases List.mem_append.mp mem with waiting | own
  · exact .inl waiting
  · refine .inr ⟨after, ?_, own⟩
    exact List.mem_set (List.getElem?_eq_some_iff.mp isTask).1 after

theorem sent_of_performed (performed : Performed run.ctx task ctx after) {message : Terminal}
    (sent : message ∈ run.ctx.sent) : message ∈ ctx.sent := by
  cases performed <;> simp_all [JobContext.submitItems]

theorem Delivering.shows_act (delivering : run.Delivering items written)
    (isTask : run.tasks[index]? = some task) (honest : run.ctx.Honest action)
    (move : run.ctx.perform task action = some (ctx, after)) :
    ctx.lost = [] ∨ 0 < ctx.articlesFailed ∨
      ({ run with ctx := ctx, tasks := run.tasks.set index after } : JobRun).AbortWins ∨
        ∃ message ∈ ctx.sent, message.isFinished = false := by
  have kept := Kept.of_perform move
  have performed := perform_performed move
  have step : Step run (.act index action)
      { run with ctx := ctx, tasks := run.tasks.set index after } := by
    simp [Step, JobRun.step, isTask, move]
  have wins : run.AbortWins → ctx.lost = [] ∨ 0 < ctx.articlesFailed ∨
      ({ run with ctx := ctx, tasks := run.tasks.set index after } : JobRun).AbortWins ∨
        ∃ message ∈ ctx.sent, message.isFinished = false :=
    fun wins => .inr (.inr (.inl (wins.step step)))
  rcases kept.loses honest with same | ⟨why, busy⟩
  · rcases delivering.shows with none | failed | before | ⟨message, sent, aborted⟩
    · exact .inl (same.trans none)
    · right
      left
      have := kept.failed
      omega
    · exact wins before
    · exact .inr (.inr (.inr ⟨message, sent_of_performed performed sent, aborted⟩))
  · have mem := List.mem_of_getElem? isTask
    have reasoned : run.ctx.abortReason.isSome = true → ctx.lost = [] ∨ 0 < ctx.articlesFailed ∨
        ({ run with ctx := ctx, tasks := run.tasks.set index after } : JobRun).AbortWins ∨
          ∃ message ∈ ctx.sent, message.isFinished = false := by
      intro reason
      rcases delivering.settling.over_or_aborts reason with
        atZero | before | ⟨message, sent, aborted⟩
      · exact absurd atZero (delivering.settling.remaining_ne_zero isTask busy)
      · exact wins before
      · exact .inr (.inr (.inr ⟨message, sent_of_performed performed sent, aborted⟩))
    rcases why with isCancelled | isAborter | reported
    · exact reasoned (delivering.settling.cancelled isCancelled)
    · exact reasoned (delivering.settling.aborts task mem (.inl isAborter))
    · right
      left
      rw [kept.failed, reported]
      simp

theorem Delivering.finished_act (delivering : run.Delivering items written)
    (isTask : run.tasks[index]? = some task) (honest : run.ctx.Honest action)
    (move : run.ctx.perform task action = some (ctx, after)) (success : Bool) (damage : Option ℕ)
    (sent : Terminal.jobFinished success 0 damage ∈ ctx.sent) : ctx.lost = [] := by
  have kept := Kept.of_perform move
  have performed := perform_performed move
  by_cases before : Terminal.jobFinished success 0 damage ∈ run.ctx.sent
  · have none := delivering.finished success damage before
    rcases kept.loses honest with same | ⟨-, busy⟩
    · exact same.trans none
    · have atZero := (delivering.settling.final _ before rfl).1
      exact absurd atZero (delivering.settling.remaining_ne_zero isTask busy)
  · cases performed with
    | sent reason isSending =>
        rcases List.mem_append.mp sent with old | new
        · exact absurd old before
        · rcases reason with _ | reason
          · simp only [JobContext.message, List.mem_singleton, Terminal.jobFinished.injEq] at new
            have once := delivering.settling.once
            have emits : task.emitting ≤ total Task.emitting run.tasks :=
              le_total Task.emitting (List.mem_of_getElem? isTask)
            simp only [Task.emitting, isSending, Activity.emits, Bool.toNat_true] at emits
            have atMost := Bool.toNat_le run.ctx.finished
            rcases delivering.shows with none | failed | wins | ⟨message, messageMem, -⟩
            · exact none
            · omega
            · exact absurd isSending (wins.unread task (List.mem_of_getElem? isTask))
            · have := List.length_pos_of_mem messageMem
              omega
          · simp [JobContext.message] at new
    | _ => exact absurd sent before

theorem Located.act (located : run.Located items written) (isTask : run.tasks[index]? = some task)
    (move : run.ctx.perform task action = some (ctx, after)) :
    ({ run with ctx := ctx, tasks := run.tasks.set index after } : JobRun).Located items
      (written ++ (run.ctx.arrival task action).toList.map WorkItem.key) := by
  intro item mem
  have kept := Kept.of_perform move
  rcases located item mem with ⟨other, present, key⟩ | done | lost
  · rcases present_cases isTask present ctx after with here | elsewhere
    · rcases kept.stays other here with
        ⟨moved, movedMem, movedKey⟩ | ⟨arrived, isArrived, same⟩ | lost
      · exact .inl ⟨moved, present_of_mem isTask movedMem, movedKey.trans key⟩
      · right
        left
        rw [← key, ← same, Option.mem_def.mp isArrived]
        simp
      · right
        right
        rw [← (Prod.mk.inj key).1]
        exact lost
    · exact .inl ⟨other, elsewhere, key⟩
  · exact .inr (.inl (List.mem_append_left _ done))
  · exact .inr (.inr (kept.lost lost))

end Act

theorem Aside.present {next : JobRun} (aside : run.Aside next) {item : WorkItem}
    (there : item ∈ run.present) : item ∈ next.present := by
  rw [mem_present] at there ⊢
  rcases there with waiting | ⟨task, mem, own⟩
  · exact .inl (aside.waiting item waiting)
  · exact .inr ⟨task, aside.tasks task mem, own⟩

theorem Located.step {event : JobEvent} {next : JobRun} (located : run.Located items written)
    (move : Step run event next) :
    next.Located items (written ++ (run.arrival event).toList.map WorkItem.key) := by
  rcases step_cases move with
    ⟨index, action, task, ctx, after, rfl, isTask, moved, rfl⟩ | ⟨noArrival, -, aside⟩
  · simp only [arrival, isTask, Option.bind_some]
    exact located.act isTask moved
  · rw [noArrival, Option.toList_none, List.map_nil, List.append_nil]
    intro item mem
    rcases located item mem with ⟨other, there, key⟩ | done | lost
    · exact .inl ⟨other, aside.present there, key⟩
    · exact .inr (.inl done)
    · exact .inr (.inr (aside.lost ▸ lost))

theorem Delivering.step {event : JobEvent} {next : JobRun}
    (delivering : run.Delivering items written) (honest : run.Honest event)
    (move : Step run event next) :
    next.Delivering items (written ++ (run.arrival event).toList.map WorkItem.key) := by
  have settling := delivering.settling.step move
  have located := delivering.located.step move
  rcases step_cases move with
    ⟨index, action, task, ctx, after, rfl, isTask, moved, rfl⟩ | ⟨-, -, aside⟩
  · exact ⟨settling, located, delivering.shows_act isTask honest moved,
      delivering.finished_act isTask honest moved⟩
  · refine ⟨settling, located, ?_, ?_⟩
    · rw [aside.lost, aside.failed, aside.sent]
      rcases delivering.shows with none | some | before | aborted
      · exact .inl none
      · exact .inr (.inl some)
      · exact .inr (.inr (.inl (before.step move)))
      · exact .inr (.inr (.inr aborted))
    · rw [aside.lost, aside.sent]
      exact delivering.finished

theorem Settling.held_of_finished (settling : run.Settling) {message : Terminal}
    (sent : message ∈ run.ctx.sent) (isFinished : message.isFinished = true) {item : WorkItem}
    (present : item ∈ run.present) : item ∈ run.ctx.held.items := by
  rcases settling.final message sent isFinished with ⟨atZero, noneEnds, -⟩
  have balanced := settling.balanced
  rw [atZero] at balanced
  simp only [outstanding] at balanced
  rw [mem_present] at present
  rcases present with waiting | ⟨task, taskMem, own⟩
  · simp only [JobContext.waiting, List.mem_append] at waiting
    rcases waiting with (queued | delayed) | held
    · have := List.length_pos_of_mem queued
      omega
    · have := List.length_pos_of_mem delayed
      omega
    · exact held
  · -- a task with an item owes it, or is ending the job
    have owes := le_total Task.owed taskMem
    have ends := le_total Task.ending taskMem
    exfalso
    rcases List.mem_append.mp own with inFlight | busy
    · have := List.length_pos_of_mem inFlight
      simp only [Task.owed] at owes
      omega
    · rcases activity : task.activity with _ | site | site | ⟨site, need⟩ | ⟨site, released⟩ |
        ⟨site, released⟩ | _ | _ | _ | reason | _ | _
      all_goals simp only [activity, Activity.items, List.not_mem_nil] at busy
      case adding =>
        rcases site with _ | _
        · simp only [Task.owed, activity, Activity.owed] at owes
          omega
        · by_cases aborted : task.role = .aborted
          · have := settling.checksOut task taskMem aborted
            simp [activity] at this
          · simp only [Task.ending, aborted, if_false, activity, Activity.ends,
              Bool.toNat_true] at ends
            omega
      case submitting =>
        have := List.length_pos_of_mem busy
        rcases site with _ | _
        · simp only [Task.owed, activity, Activity.owed] at owes
          omega
        · simp only [Task.owed, activity, Activity.owed] at owes
          omega

/-- Of a finished job, the articles of a file that has lost none are written or belong to a volume
that is still held. -/
theorem Located.written_of_notMem (located : run.Located items written) (settling : run.Settling)
    {message : Terminal} (sent : message ∈ run.ctx.sent) (isFinished : message.isFinished = true)
    {item : WorkItem} (mem : item ∈ items) (notLost : item.fileId ∉ run.ctx.lost) :
    item.key ∈ written ∨ ∃ other ∈ run.ctx.held.items, other.key = item.key := by
  rcases located item mem with ⟨other, present, key⟩ | done | lost
  · exact .inr ⟨other, settling.held_of_finished sent isFinished present, key⟩
  · exact .inl done
  · exact absurd lost notLost

theorem Delivering.written_of_finished (delivering : run.Delivering items written) {success : Bool}
    {damage : Option ℕ} (finished : Terminal.jobFinished success 0 damage ∈ run.ctx.sent)
    {item : WorkItem} (mem : item ∈ items) :
    item.key ∈ written ∨ ∃ other ∈ run.ctx.held.items, other.key = item.key := by
  refine delivering.located.written_of_notMem delivering.settling finished rfl mem ?_
  rw [delivering.finished success damage finished]
  exact List.not_mem_nil

end Step

/-! ## What is reported -/

section Reported

variable {run next : JobRun} {event : JobEvent}

theorem message_of_performed {ctx after : JobContext} {task other : Task}
    (performed : Performed ctx task after other) {message : Terminal}
    (sent : message ∈ after.sent) :
    message ∈ ctx.sent ∨ ∃ reason, message = ctx.message reason := by
  cases performed with
  | sent reason isSending =>
      rcases List.mem_append.mp sent with before | now
      · exact .inl before
      · exact .inr ⟨reason, List.mem_singleton.mp now⟩
  | _ => exact .inl sent

theorem message_of_step (move : Step run event next) {message : Terminal}
    (sent : message ∈ next.ctx.sent) :
    message ∈ run.ctx.sent ∨ ∃ reason, message = run.ctx.message reason := by
  rcases step_cases move with
    ⟨index, action, task, ctx, after, rfl, isTask, moved, rfl⟩ | ⟨-, -, aside⟩
  · exact message_of_performed (perform_performed moved) sent
  · exact .inl (aside.sent ▸ sent)

theorem sent_of_step (move : Step run event next) {message : Terminal}
    (sent : message ∈ run.ctx.sent) : message ∈ next.ctx.sent := by
  rcases step_cases move with
    ⟨index, action, task, ctx, after, rfl, isTask, moved, rfl⟩ | ⟨-, -, aside⟩
  · exact sent_of_performed (perform_performed moved) sent
  · exact aside.sent ▸ sent

theorem sent_cases (move : Step run event next) :
    (∃ index task reason, event = .act index .advance ∧ run.tasks[index]? = some task ∧
      task.activity = .sending reason ∧
        next.ctx.sent = run.ctx.sent ++ [run.ctx.message reason] ∧
          run.arrival event = none ∧ run.failure event = none) ∨
      next.ctx.sent = run.ctx.sent ∧ ∀ index task reason, event = .act index .advance →
        run.tasks[index]? = some task → task.activity ≠ .sending reason := by
  rcases step_cases move with
    ⟨index, action, task, ctx, after, rfl, isTask, moved, rfl⟩ | ⟨-, -, aside⟩
  · rcases task with ⟨role, inFlight, activity⟩
    have byTask : ∀ other reason, run.tasks[index]? = some other →
        other.activity = .sending reason → activity = .sending reason := by
      intro other reason isOther isSending
      cases isTask.symm.trans isOther
      exact isSending
    cases perform_performed moved with
    | sent reason isSending =>
        cases isSending
        cases action with
        | advance =>
            exact .inl ⟨index, _, reason, rfl, isTask, rfl, rfl, by simp [arrival, isTask,
              JobContext.arrival], by simp [failure, isTask, JobContext.failure]⟩
        | _ => simp [JobContext.perform, Task.isIdle] at moved
    | _ =>
        refine .inr ⟨rfl, ?_⟩
        rintro other task reason ⟨⟩ isOther isSending
        have sending := byTask task reason isOther isSending
        simp_all
  · refine .inr ⟨aside.sent, ?_⟩
    rintro index task reason rfl isTask isSending
    have same := aside.sent
    simp only [Step, JobRun.step, isTask, JobContext.perform, JobContext.advance, isSending,
      Option.map_some, Option.some.injEq] at move
    rw [← move] at same
    simp at same

theorem new_message_of_step (settling : run.Settling) (move : Step run event next)
    {message : Terminal} (isNew : message ∈ next.ctx.sent.drop run.ctx.sent.length) :
    ∃ reason, message = run.ctx.message reason := by
  have once := (settling.step move).once
  have longer := List.length_pos_of_mem isNew
  rw [List.length_drop] at longer
  have atMostOne := Bool.toNat_le next.ctx.finished
  have none : run.ctx.sent = [] := List.length_eq_zero_iff.mp (by omega)
  rcases message_of_step move (List.mem_of_mem_drop isNew) with before | now
  · simp [none] at before
  · exact now

theorem articlesFailed_of_step (move : Step run event next) :
    next.ctx.articlesFailed = run.ctx.articlesFailed + (run.failure event).isSome.toNat := by
  rcases step_cases move with
    ⟨index, action, task, ctx, after, rfl, isTask, moved, rfl⟩ | ⟨-, noFailure, aside⟩
  · simp only [failure, isTask, Option.bind_some]
    exact (Kept.of_perform moved).failed
  · simp [noFailure, aside.failed]

end Reported

/-! ## What is held back -/

section Held

variable {run next : JobRun}

theorem held_of_performed {ctx after : JobContext} {task other : Task}
    (performed : Performed ctx task after other) {item : WorkItem}
    (held : item ∈ after.held.items) : item ∈ ctx.held.items := by
  cases performed with
  | choseNothing site need kept isChoosing nothing =>
      have perm := releaseFor_perm ctx.held need
      rw [nothing] at perm
      rw [← perm]
      exact List.mem_append_right _ held
  | chose site need items kept isChoosing something =>
      have perm := releaseFor_perm ctx.held need
      rw [something] at perm
      rw [← perm]
      exact List.mem_append_right _ held
  | _ => exact held

theorem held_of_step {event : JobEvent} (move : Step run event next) {item : WorkItem}
    (held : item ∈ next.ctx.held.items) : item ∈ run.ctx.held.items := by
  rcases step_cases move with
    ⟨index, action, task, ctx, after, rfl, isTask, moved, rfl⟩ | ⟨-, -, aside⟩
  · exact held_of_performed (perform_performed moved) held
  · exact aside.held ▸ held

theorem lookup_of_held {volumes : VolumeMap} {items now : List WorkItem} {byFile : List HeldVolume}
    (before : ∀ item ∈ itemsOf byFile, ∃ volume, volumes.lookup item.fileId = some volume) :
    ∀ item ∈ itemsOf (splitVolumes volumes items (now, byFile)).2,
      ∃ volume, volumes.lookup item.fileId = some volume := by
  induction items generalizing now byFile with
  | nil => exact before
  | cons first rest ih =>
      simp only [splitVolumes]
      split
      next volume found =>
        apply ih
        intro item mem
        have pushed := (itemsOf_pushToVolume first volume byFile).mem_iff.mp mem
        rcases List.mem_append.mp pushed with old | new
        · exact before item old
        · rw [List.mem_singleton.mp new]
          exact ⟨volume, found⟩
      · exact ih before

theorem file_of_volumesOf {files : List NzbFile} {volumes found : VolumeMap}
    (collected : volumesOf files volumes = some found) {fileId : FileId}
    (present : (found.lookup fileId).isSome = true) :
    (volumes.lookup fileId).isSome = true ∨
      ∃ file ∈ files, file.id = fileId ∧ par2SortKey file.filename = 1 := by
  induction files generalizing volumes with
  | nil =>
      simp only [volumesOf, Option.some.injEq] at collected
      subst collected
      exact .inl present
  | cons file rest ih =>
      simp only [volumesOf] at collected
      split at collected
      · rcases ih collected with before | ⟨other, mem, same⟩
        · exact .inl before
        · exact .inr ⟨other, List.mem_cons_of_mem file mem, same⟩
      next isVolume =>
        split at collected
        next vol blocks _ _ =>
          rcases ih collected with before | ⟨other, mem, same⟩
          · by_cases own : fileId = file.id
            · exact .inr ⟨file, List.mem_cons_self, own.symm, not_not.mp isVolume⟩
            · rw [AList.lookup_insert_ne own] at before
              exact .inl before
          · exact .inr ⟨other, List.mem_cons_of_mem file mem, same⟩
        · simp at collected

theorem volume_of_held_submitted {job : NzbJob} {enabledServerIds : List ServerId}
    {deferVolumes : Bool} {order : IterationOrder} {incompleteNzb : Option String}
    {damageHint : ℕ} {damage : Option ℕ} {item : WorkItem}
    (held : item ∈ (submitted job enabledServerIds deferVolumes order incompleteNzb damageHint
      damage).ctx.held.items) :
    ∃ file ∈ job.files, file.id = item.fileId ∧ par2SortKey file.filename = 1 := by
  have fromSplit : item ∈ (split job (buildWorkItems job enabledServerIds) deferVolumes
      order).2.items := by
    simp only [submitted, start] at held
    split at held
    · simp [context, HeldVolumes.new, HeldVolumes.items] at held
    · split at held
      · exact held
      · exact held
  simp only [split] at fromSplit
  split at fromSplit
  · have sorted := ((order.list (splitVolumes (deferrableVolumes job)
      (buildWorkItems job enabledServerIds) ([], [])).2).perm_insertionSort
        fun left right => left.firstExponent ≤ right.firstExponent).trans (order.perm _)
    have mem := (sorted.flatMap_right HeldVolume.items).mem_iff.mp fromSplit
    have noneYet : ∀ other ∈ itemsOf ([] : List HeldVolume),
        ∃ volume, (deferrableVolumes job).lookup other.fileId = some volume := by simp [itemsOf]
    rcases lookup_of_held noneYet item mem with ⟨volume, found⟩
    simp only [deferrableVolumes] at found
    split at found
    · rcases collected : volumesOf job.files ∅ with _ | volumes
      · simp [collected] at found
      · rw [collected, Option.getD_some] at found
        rcases file_of_volumesOf collected (by rw [found]; rfl) with none | some
        · simp at none
        · exact some
    · simp at found
  · simp [HeldVolumes.new, HeldVolumes.items] at fromSplit

end Held

end JobRun

end Rustnzb.Dispatch
