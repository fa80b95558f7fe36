import Rustnzb.Dispatch.Routing
import Rustnzb.Dispatch.Submission
import Rustnzb.Lib.Run

/-!
# The download engine as a transition system

The worker pool, its queue and its jobs as far as the fate of an article depends on them. An event
is what one task does until the item it handles is back under a lock: a worker takes an item, gets
a result, or lets everything go; a confirm delay ends; the supervisor sweeps the queue; a job or
the server list is changed. Events happen in any order.

`reports` is the log of `ArticleFailed` messages, each with the providers as the decision saw
them.
-/

namespace Rustnzb.Dispatch

open Lib

structure Worker where
  server : ServerConfig
  gate : List ServerId
  inFlight : List WorkItem

namespace Worker

def depth (worker : Worker) : ℕ := max worker.server.pipelining 1

def isPipelined (worker : Worker) : Bool := decide (1 < worker.depth)

end Worker

/-- The part of `JobContext` that routing reads. -/
structure JobState where
  paused : Bool
  cancelled : Bool
  aborted : Bool
  held : HeldVolumes

structure Report where
  failure : FailureReport
  providers : Providers

structure Engine where
  providers : Providers
  queue : SharedWorkQueue
  workers : List Worker
  delayed : List WorkItem
  jobs : JobId → Option JobState
  reports : List Report

inductive Event where
  | submit (job : NzbJob) (enabledServerIds : List ServerId) (deferVolumes : Bool)
      (order : IterationOrder)
  | releaseHeld (jobId : JobId) (need : Option ℕ)
  | setServers (servers : List ServerConfig)
  | elapse (milliseconds : ℕ)
  | connected (server : ServerId)
  | connectFailed (server : ServerId) (isAuth : Bool)
  | spawn (server : ServerConfig)
  /-- The top of a worker's loop: read the servers of higher priority. -/
  | readGate (worker : ℕ)
  | take (worker : ℕ)
  | answer (worker item : ℕ) (result : FetchResult)
  /-- Requeue everything in flight: on exit, on an open circuit, on a lost connection. -/
  | letGo (worker : ℕ)
  | wake (item : ℕ)
  | sweep
  | pause (jobId : JobId)
  | resume (jobId : JobId)
  | abort (jobId : JobId)
  | cancel (jobId : JobId)
  | releaseCompleted (jobId : JobId)

namespace Engine

def start (servers : List ServerConfig) : Engine where
  providers := { servers := servers, health := fun _ => .new, now := 0 }
  queue := .new
  workers := []
  delayed := []
  jobs := fun _ => none
  reports := []

def setJob (engine : Engine) (jobId : JobId) (job : Option JobState) : Engine :=
  { engine with jobs := Function.update engine.jobs jobId job }

def setWorker (engine : Engine) (index : ℕ) (worker : Worker) : Engine :=
  { engine with workers := engine.workers.set index worker }

/-- `submit_job` of what `build_job_submission` built. -/
def submit (engine : Engine) (job : NzbJob) (enabledServerIds : List ServerId)
    (deferVolumes : Bool) (order : IterationOrder) : Engine :=
  let items := buildWorkItems job enabledServerIds
  if items.isEmpty then engine
  else
    let volumes := deferrableVolumes job
    let (now, held) :=
      if deferVolumes && !volumes.entries.isEmpty then
        HeldVolumes.new.hold order items volumes
      else (items, HeldVolumes.new)
    { engine.setJob job.id
        (some { paused := false, cancelled := false, aborted := false, held := held }) with
      queue := engine.queue.submitItems now }

def releaseHeld (engine : Engine) (jobId : JobId) (need : Option ℕ) : Option Engine :=
  match engine.jobs jobId with
  | none => none
  | some job =>
      if job.held.isEmpty || job.cancelled || job.aborted then none
      else
        let (released, held) := job.held.releaseFor need
        some { engine.setJob jobId (some { job with held := held }) with
          queue := engine.queue.submitItems (released.getD []) }

/-- The checks at the top of a worker's loop. -/
def isServing (engine : Engine) (server : ServerId) : Bool :=
  ((engine.providers.servers.find? fun config => config.id = server).any
    fun config => config.enabled) && engine.providers.isAvailable server

def readGate (engine : Engine) (index : ℕ) : Option Engine :=
  match engine.workers[index]? with
  | none => none
  | some worker =>
      if engine.isServing worker.server.id then
        some (engine.setWorker index { worker with
          gate := engine.providers.higherPriorityServers worker.server.priority worker.server.id })
      else none

def take (engine : Engine) (index : ℕ) : Option Engine :=
  match engine.workers[index]? with
  | none => none
  | some worker =>
      if worker.depth ≤ worker.inFlight.length then none
      else
        match engine.queue.popWorkable worker.server.id worker.gate with
        | none => none
        | some (item, queue) =>
            match engine.jobs item.jobId with
            | none => some { engine with queue := queue }
            | some job =>
                if job.cancelled then some { engine with queue := queue }
                else if job.paused then some { engine with queue := queue.pushBack item }
                else
                  some { engine.setWorker index
                      { worker with inFlight := worker.inFlight ++ [item] } with
                    queue := queue }

def follow (engine : Engine) : Route → Engine
  | .delivered _ => engine
  | .resolved _ => engine
  | .requeued item => { engine with queue := engine.queue.pushFront item }
  | .confirming item =>
      { engine with
        delayed := engine.delayed ++ [item.note (.confirm engine.providers.requiredIds)] }
  | .failed failure =>
      { engine with
        reports := engine.reports ++ [{ failure := failure, providers := engine.providers }] }

def requeueAll (engine : Engine) (worker : Worker) (items : List WorkItem) : Engine :=
  { engine with
    queue := items.foldl (fun queue item =>
      queue.pushFront (item.note (.fetch worker.server.id worker.isPipelined .unanswered)))
      engine.queue }

def armOf (engine : Engine) (worker : Worker) (item : WorkItem) (result : FetchResult) : Arm :=
  workerArm worker.isPipelined ((engine.jobs item.jobId).all fun job => job.cancelled)
    engine.providers worker.server.id item result

def answer (engine : Engine) (index position : ℕ) (result : FetchResult) : Option Engine :=
  match engine.workers[index]? with
  | none => none
  | some worker =>
      match worker.inFlight[position]? with
      | none => none
      | some item =>
          if result = .unanswered ∨
              (result = .cancelled ∧ ((engine.jobs item.jobId).any fun job => !job.cancelled)) then
            none
          else
            let asked := item.note (.fetch worker.server.id worker.isPipelined result)
            let arm := engine.armOf worker asked result
            let others := worker.inFlight.eraseIdx position
            let routed := ({ engine with providers := arm.providers }.follow arm.route).setWorker
              index { worker with inFlight := if arm.requeuesAll then [] else others }
            some (if arm.requeuesAll then routed.requeueAll worker others else routed)

def letGo (engine : Engine) (index : ℕ) : Option Engine :=
  match engine.workers[index]? with
  | none => none
  | some worker =>
      some ((engine.setWorker index { worker with inFlight := [] }).requeueAll worker
        worker.inFlight)

def wake (engine : Engine) (position : ℕ) : Option Engine :=
  match engine.delayed[position]? with
  | none => none
  | some item =>
      some { engine with
        delayed := engine.delayed.eraseIdx position
        queue := engine.queue.pushFront (item.note .waited) }

def optionalDown (providers : Providers) : Bool :=
  providers.servers.any fun server =>
    server.enabled && server.optional && !providers.isAvailable server.id

/-- The items `resolve_items_not_waiting_on_required_providers` takes. -/
def sweepTakes (providers : Providers) (item : WorkItem) : Bool :=
  !item.providerOutcomes.entries.isEmpty &&
    allEnabledProvidersDefinitive providers item.providerOutcomes

def sweepFailure (item : WorkItem) : FailureReport :=
  failArticleEverywhere item (item.triedServers.getLast?.getD "")
    "Article unavailable on every required server (optional servers unavailable)"

def isActive (engine : Engine) (jobId : JobId) : Bool :=
  (engine.jobs jobId).any fun job => !job.cancelled

/-- `resolve_items_not_waiting_on_required_providers`. -/
def sweep (engine : Engine) : Engine :=
  if !optionalDown engine.providers then engine
  else
    let (taken, queue) := engine.queue.takeWhere (sweepTakes engine.providers)
    { engine with
      queue := queue
      reports := engine.reports ++
        (taken.filter fun item => engine.isActive item.jobId).map fun item =>
          { failure := sweepFailure item, providers := engine.providers } }

def changeJob (engine : Engine) (jobId : JobId) (change : JobState → JobState) : Engine :=
  engine.setJob jobId ((engine.jobs jobId).map change)

def abort (engine : Engine) (jobId : JobId) : Engine :=
  match engine.jobs jobId with
  | none => engine
  | some job =>
      if job.aborted then engine
      else
        { engine.setJob jobId (some { job with aborted := true, cancelled := true }) with
          queue := (engine.queue.drainJob jobId).2 }

def cancel (engine : Engine) (jobId : JobId) : Engine :=
  match engine.jobs jobId with
  | none => engine
  | some _ => { engine.setJob jobId none with queue := (engine.queue.drainJob jobId).2 }

/-- One event. `none`: it cannot happen in this state. -/
def step (engine : Engine) : Event → Option Engine
  | .submit job enabledServerIds deferVolumes order =>
      some (engine.submit job enabledServerIds deferVolumes order)
  | .releaseHeld jobId need => engine.releaseHeld jobId need
  | .setServers servers =>
      some { engine with providers := { engine.providers with servers := servers } }
  | .elapse milliseconds =>
      some { engine with
        providers := { engine.providers with now := engine.providers.now + milliseconds } }
  | .connected server =>
      some { engine with providers := engine.providers.recordSuccess server }
  | .connectFailed server isAuth =>
      some { engine with providers := engine.providers.recordFailure server isAuth }
  | .spawn server =>
      if server ∈ engine.providers.servers ∧ server.enabled then
        some { engine with
          workers := engine.workers ++ [{ server := server, gate := [], inFlight := [] }] }
      else none
  | .readGate worker => engine.readGate worker
  | .take worker => engine.take worker
  | .answer worker item result => engine.answer worker item result
  | .letGo worker => engine.letGo worker
  | .wake item => engine.wake item
  | .sweep => some engine.sweep
  | .pause jobId => some (engine.changeJob jobId fun job => { job with paused := true })
  | .resume jobId => some (engine.changeJob jobId fun job => { job with paused := false })
  | .abort jobId => some (engine.abort jobId)
  | .cancel jobId => some (engine.cancel jobId)
  | .releaseCompleted jobId => some (engine.setJob jobId none)

def Step (engine : Engine) (event : Event) (next : Engine) : Prop :=
  engine.step event = some next

end Engine

end Rustnzb.Dispatch
