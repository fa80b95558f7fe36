import Rustnzb.Dispatch.Engine

/-!
# One registered job and the tasks that work on it

`JobContext` is what the tasks of one job share: the counter of outstanding articles, the flags, the
held volumes, and the job's items in the work queue and in confirm delays. A task is a worker, the
supervisor, or a call of `abort_job`; it stands between two of its atomic actions, and any task may
act next. `resolve_one`, `release_held`, `emit_terminal` and `abort_job` are cut at every access to
the shared state. The three checks at the top of `release_held` are one action: each of them can
only change from false to true, and the last one decides.

What `pop_workable` picks depends on the other jobs in the queue, so a worker takes any item. The
slice tracker enters through `damage_hint` and the damaged and undecided slices of `summary`, which
change only while a task still holds the article it is working on. `releases` and `lost` are not in
the source: they record the calls of `release_for` that released something, and the files of the
articles that did not arrive.
-/

namespace Rustnzb.Dispatch

open Lib

structure ReleaseCall where
  need : Option ℕ
  before : HeldVolumes
  after : HeldVolumes

namespace ReleaseCall

def volumes (call : ReleaseCall) : List HeldVolume :=
  call.before.held.take (call.before.held.length - call.after.held.length)

end ReleaseCall

inductive Terminal where
  | jobFinished (success : Bool) (articlesFailed : ℕ) (damage : Option ℕ)
  | jobAborted (reason : String) (articlesFailed : ℕ)
  deriving DecidableEq

structure JobContext where
  articlesRemaining : ℤ
  articlesFailed : ℕ
  paused : Bool
  cancelled : Bool
  abortReason : Option String
  finished : Bool
  incompleteNzb : Option String
  damageHint : ℕ
  /-- Damaged and undecided slices of `summary`, when there is a slice map. -/
  damage : Option ℕ
  held : HeldVolumes
  queue : List WorkItem
  delayed : List WorkItem
  sent : List Terminal
  releases : List ReleaseCall
  lost : List FileId

inductive Site where
  | inFlight
  | dataEnd
  deriving DecidableEq

inductive Activity where
  | idle
  /-- The checks at the top of `release_held`. -/
  | releasing (site : Site)
  | measuring (site : Site)
  /-- `HeldVolumes::release_for`. -/
  | choosing (site : Site) (need : Option ℕ)
  /-- `articles_remaining.fetch_add`. -/
  | adding (site : Site) (items : List WorkItem)
  | submitting (site : Site) (items : List WorkItem)
  /-- `articles_remaining.fetch_sub`. -/
  | counting
  /-- The swap of `finished` in `emit_terminal`. -/
  | emitting
  /-- `abort_reason` is read. -/
  | reading
  | sending (reason : Option String)
  /-- The store to `cancelled` in `abort_job`. -/
  | cancelling
  | draining

inductive Role where
  | worker
  | supervisor
  | aborter
  /-- `abort_job` after its last look at the counter. -/
  | aborted
  deriving DecidableEq

structure Task where
  role : Role
  inFlight : List WorkItem
  activity : Activity

structure JobRun where
  ctx : JobContext
  tasks : List Task
  registered : Bool

namespace Task

def isIdle (task : Task) : Bool :=
  match task.activity with
  | .idle => true
  | _ => false

def act (task : Task) (activity : Activity) : Task := { task with activity := activity }

/-- `release_held` returns false. -/
def skip (task : Task) : Site → Task
  | .inFlight => task.act .counting
  | .dataEnd => task.act .emitting

def released (task : Task) : Site → Task
  | .inFlight => task.act .counting
  | .dataEnd => task.act .idle

def resolve (task : Task) : Task := task.act (.releasing .inFlight)

end Task

namespace JobContext

def submitItems (ctx : JobContext) (items : List WorkItem) : JobContext :=
  { ctx with
    queue := (SharedWorkQueue.submitItems { items := ctx.queue, lastServed := ∅ } items).items }

/-- How many blocks `release_held` asks for, or `none` when nothing is to be released. -/
def need (ctx : JobContext) : Site → Option (Option ℕ)
  | .inFlight => if ctx.damageHint = 0 then none else some (some (ctx.damageHint + repairMargin))
  | .dataEnd =>
      match ctx.damage with
      | none => some none
      | some damage => if damage = 0 then none else some (some (damage + repairMargin))

def lose (ctx : JobContext) (item : WorkItem) : JobContext :=
  { ctx with lost := ctx.lost ++ [item.fileId] }

def fail (ctx : JobContext) (item : WorkItem) : JobContext :=
  { ctx.lose item with articlesFailed := ctx.articlesFailed + 1 }

def message (ctx : JobContext) : Option String → Terminal
  | some reason => .jobAborted reason ctx.articlesFailed
  | none =>
      .jobFinished (ctx.articlesFailed = 0 && ctx.incompleteNzb.isNone) ctx.articlesFailed
        ctx.damage

def take (ctx : JobContext) (task : Task) (position : ℕ) : Option (JobContext × Task) :=
  match ctx.queue[position]? with
  | none => none
  | some item =>
      let rest := ctx.queue.eraseIdx position
      if ctx.cancelled then some ({ ctx with queue := rest }.lose item, task.resolve)
      else if ctx.paused then some ({ ctx with queue := rest ++ [item] }, task)
      else some ({ ctx with queue := rest }, { task with inFlight := task.inFlight ++ [item] })

def answer (ctx : JobContext) (task : Task) (position : ℕ) (pipelined : Bool)
    (providers : Providers) (server : ServerId) (result : FetchResult) :
    Option (JobContext × Task) :=
  match task.inFlight[position]? with
  | none => none
  | some item =>
      let task := { task with inFlight := task.inFlight.eraseIdx position }
      match (workerArm pipelined ctx.cancelled providers server item result).route with
      | .delivered _ => some (ctx, task.resolve)
      | .resolved item => some (ctx.lose item, task.resolve)
      | .failed report => some (ctx.fail report.item, task.resolve)
      | .requeued item => some ({ ctx with queue := item :: ctx.queue }, task)
      | .confirming item => some ({ ctx with delayed := ctx.delayed ++ [item] }, task)

def letGo (ctx : JobContext) (task : Task) : JobContext × Task :=
  ({ ctx with queue := task.inFlight.reverse ++ ctx.queue }, { task with inFlight := [] })

def sweep (ctx : JobContext) (task : Task) (takes : WorkItem → Bool) : JobContext × Task :=
  ({ ctx with queue := ctx.queue.filter fun item => !takes item },
    { task with inFlight := task.inFlight ++ ctx.queue.filter takes })

/-- The supervisor and `abort_job` go through the items they took. -/
def resolveNext (ctx : JobContext) (task : Task) : Option (JobContext × Task) :=
  match task.role, task.inFlight with
  | .supervisor, item :: rest =>
      some (if ctx.cancelled then ctx.lose item else ctx.fail item,
        { task with inFlight := rest }.resolve)
  | .aborter, item :: rest => some (ctx.lose item, { task with inFlight := rest }.resolve)
  | .aborter, [] =>
      let done := { task with role := .aborted }
      some (ctx, if ctx.articlesRemaining = 0 then done.act .emitting else done)
  | _, _ => none

/-- The next action of a task in the middle of `resolve_one`, `emit_terminal` or `abort_job`. -/
def advance (ctx : JobContext) (task : Task) : Option (JobContext × Task) :=
  match task.activity with
  | .idle => ctx.resolveNext task
  | .releasing site =>
      some (ctx,
        if ctx.held.isEmpty || ctx.cancelled || ctx.abortReason.isSome then task.skip site
        else task.act (.measuring site))
  | .measuring site =>
      match ctx.need site with
      | none => some (ctx, task.skip site)
      | some need => some (ctx, task.act (.choosing site need))
  | .choosing site need =>
      match ctx.held.releaseFor need with
      | (none, held) => some ({ ctx with held := held }, task.skip site)
      | (some items, held) =>
          some ({ ctx with
            held := held
            releases := ctx.releases ++ [{ need := need, before := ctx.held, after := held }] },
            task.act (.adding site items))
  | .adding site items =>
      some ({ ctx with articlesRemaining := ctx.articlesRemaining + items.length },
        task.act (.submitting site items))
  | .submitting site items => some (ctx.submitItems items, task.released site)
  | .counting =>
      some ({ ctx with articlesRemaining := ctx.articlesRemaining - 1 },
        if ctx.articlesRemaining = 1 then task.act (.releasing .dataEnd) else task.act .idle)
  | .emitting =>
      some
        ({ ctx with finished := true }, if ctx.finished then task.act .idle else task.act .reading)
  | .reading => some (ctx, task.act (.sending ctx.abortReason))
  | .sending reason => some ({ ctx with sent := ctx.sent ++ [ctx.message reason] }, task.act .idle)
  | .cancelling => some ({ ctx with cancelled := true }, task.act .draining)
  | .draining =>
      some
        ({ ctx with queue := [] }, { task with inFlight := task.inFlight ++ ctx.queue }.act .idle)

end JobContext

inductive Action where
  | take (position : ℕ)
  | answer (position : ℕ) (pipelined : Bool) (providers : Providers) (server : ServerId)
      (result : FetchResult)
  | letGo
  | sweep (providers : Providers)
  | advance

inductive JobEvent where
  | act (task : ℕ) (action : Action)
  | spawn (supervises : Bool)
  | abort (reason : String)
  | wake (position : ℕ)
  /-- An article written or failed changes the slice map. -/
  | progress (damageHint : ℕ) (damage : Option ℕ)
  | pause
  | resume

namespace JobContext

/-- `none`: the task does not do this now. -/
def perform (ctx : JobContext) (task : Task) : Action → Option (JobContext × Task)
  | .take position =>
      if task.isIdle && task.role = .worker then ctx.take task position else none
  | .answer position pipelined providers server result =>
      if task.isIdle && task.role = .worker then
        ctx.answer task position pipelined providers server result
      else none
  | .letGo => if task.isIdle && task.role = .worker then some (ctx.letGo task) else none
  | .sweep providers =>
      if task.isIdle && task.role = .supervisor && Engine.optionalDown providers then
        some (ctx.sweep task (Engine.sweepTakes providers))
      else none
  | .advance => ctx.advance task

end JobContext

namespace JobRun

def context (job : NzbJob) (enabledServerIds : List ServerId) (incompleteNzb : Option String)
    (damageHint : ℕ) (damage : Option ℕ) : JobContext where
  articlesRemaining := (buildWorkItems job enabledServerIds).length
  articlesFailed := previouslyFailed job enabledServerIds
  paused := false
  cancelled := false
  abortReason := none
  finished := false
  incompleteNzb := incompleteNzb
  damageHint := damageHint
  damage := damage
  held := .new
  queue := []
  delayed := []
  sent := []
  releases := []
  lost := (job.files.filter fun file =>
    file.articles.any (isPreviouslyFailed enabledServerIds)).map NzbFile.id

/-- What `submit_job` holds back and what it enqueues. -/
def split (job : NzbJob) (items : List WorkItem) (deferVolumes : Bool) (order : IterationOrder) :
    List WorkItem × HeldVolumes :=
  if deferVolumes && !(deferrableVolumes job).entries.isEmpty then
    HeldVolumes.new.hold order items (deferrableVolumes job)
  else (items, .new)

/-- `submit_job` up to its own call of `emit_terminal` or `release_held`, if it makes one. -/
def start (ctx : JobContext) (job : NzbJob) (items : List WorkItem) (deferVolumes : Bool)
    (order : IterationOrder) : JobRun :=
  let submitter := { role := .worker, inFlight := [], activity := .idle : Task }
  if items.isEmpty then { ctx := ctx, tasks := [submitter.act .emitting], registered := false }
  else
    let (now, held) := split job items deferVolumes order
    let ctx := { ctx with
      held := held
      articlesRemaining := ctx.articlesRemaining - ((items.length : ℤ) - now.length) }
    if now.isEmpty then
      { ctx := ctx, tasks := [submitter.act (.releasing .dataEnd)], registered := true }
    else { ctx := ctx.submitItems now, tasks := [], registered := true }

def submitted (job : NzbJob) (enabledServerIds : List ServerId) (deferVolumes : Bool)
    (order : IterationOrder) (incompleteNzb : Option String) (damageHint : ℕ)
    (damage : Option ℕ) : JobRun :=
  start (context job enabledServerIds incompleteNzb damageHint damage) job
    (buildWorkItems job enabledServerIds) deferVolumes order

def step (run : JobRun) : JobEvent → Option JobRun
  | .act index action =>
      match run.tasks[index]? with
      | none => none
      | some task =>
          (run.ctx.perform task action).map fun (ctx, task) =>
            { run with ctx := ctx, tasks := run.tasks.set index task }
  | .spawn supervises =>
      let role := if supervises then .supervisor else .worker
      some { run with tasks := run.tasks ++ [{ role := role, inFlight := [], activity := .idle }] }
  | .abort reason =>
      if !run.registered || run.ctx.abortReason.isSome then none
      else
        some { run with
          ctx := { run.ctx with abortReason := some reason }
          tasks := run.tasks ++ [{ role := .aborter, inFlight := [], activity := .cancelling }] }
  | .wake position =>
      match run.ctx.delayed[position]? with
      | none => none
      | some item =>
          some { run with
            ctx := { run.ctx with
              delayed := run.ctx.delayed.eraseIdx position
              queue := item :: run.ctx.queue } }
  | .progress damageHint damage =>
      if run.tasks.any fun task => !task.inFlight.isEmpty then
        some { run with ctx := { run.ctx with damageHint := damageHint, damage := damage } }
      else none
  | .pause => some { run with ctx := { run.ctx with paused := true } }
  | .resume => some { run with ctx := { run.ctx with paused := false } }

def Step (run : JobRun) (event : JobEvent) (next : JobRun) : Prop :=
  run.step event = some next

theorem step_functional (run : JobRun) (event : JobEvent) (next other : JobRun)
    (move : Step run event next) (move' : Step run event other) : next = other :=
  Option.some.inj (move.symm.trans move')

theorem run_of_execute {init next : JobRun} {events : List JobEvent}
    (executed : execute step init events = some next) : Run Step init events next :=
  Run.of_execute (fun _ _ _ => id) Run.start executed

end JobRun

end Rustnzb.Dispatch
