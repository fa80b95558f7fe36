import Mathlib.Data.Finset.Basic
import Rustnzb.Dispatch.WorkItem
import Rustnzb.Lib.Registry
import Rustnzb.Lib.Run
import Rustnzb.Web.PauseHolds

/-!
# The queue manager: statuses, slots and contexts

A job has a status in the queue and, from its submission to its end, a context in the dispatcher,
which is paused or not. The operations that change either are followed here one at a time, together
with the columns of the queue table that a restart reads. Writes to the database succeed.

The dispatcher is its contexts. `submissions` is not in the source: it records every submission and
whether the job was registered at that time. No function reads it.
-/

namespace Rustnzb.Web.Queue

open Dispatch (JobId ServerId)
open Lib (Registry)

inductive JobStatus where
  | queued
  | downloading
  | paused
  | verifying
  | repairing
  | extracting
  | postProcessing
  | completed
  | failed
  deriving DecidableEq

namespace JobStatus

def isPostProcessing : JobStatus → Bool
  | verifying | repairing | extracting | postProcessing => true
  | _ => false

def isOpen : JobStatus → Bool
  | queued | downloading | paused => true
  | _ => false

end JobStatus

inductive JobFailureCode where
  | articlesUnavailable
  | repairFailed
  | archivePasswordRequired
  | archiveInvalid
  | storageUnavailable
  | downloadFailed
  deriving DecidableEq

inductive Priority where
  | low
  | normal
  | high
  | force
  deriving DecidableEq

def Priority.toNat : Priority → ℕ
  | low => 0
  | normal => 1
  | high => 2
  | force => 3

structure JobState where
  status : JobStatus
  priority : Priority
  errorMessage : Option String
  failureCode : Option JobFailureCode
  persistedStatus : Option JobStatus
  deriving DecidableEq

namespace JobState

def isDownloading (state : JobState) : Bool := state.status = .downloading

def isQueued (state : JobState) : Bool := state.status = .queued

def isActive (state : JobState) : Bool := state.isDownloading || state.isQueued

end JobState

structure Row where
  status : JobStatus
  priority : Priority
  addedAt : ℤ
  errorMessage : Option String
  deriving DecidableEq

structure ServerConfig where
  id : ServerId
  enabled : Bool
  deriving DecidableEq

inductive QueueError where
  | jobNotFound (id : JobId)
  | other (message : String)
  deriving DecidableEq

/-- How a call of `on_job_finished` ends. -/
inductive PostprocOutcome where
  | completed
  | diskFull
  | pipelineFailed (message : Option String) (failureCode : Option JobFailureCode)
  | scriptFailed (message : Option String)
  | noUsableOutput
  deriving DecidableEq

namespace PostprocOutcome

def finish (outcome : PostprocOutcome) (state : JobState) : JobState :=
  match outcome with
  | completed => if state.status = .failed then state else { state with status := .completed }
  | diskFull =>
      { state with
        status := .failed
        errorMessage := some "Insufficient free disk space for post-processing" }
  | pipelineFailed message failureCode =>
      { state with
        status := .failed
        errorMessage := message
        failureCode := some (failureCode.getD .downloadFailed) }
  | scriptFailed message =>
      { state with status := .failed, errorMessage := state.errorMessage.or message }
  | noUsableOutput =>
      if state.status = .failed then state
      else
        { state with
          status := .failed
          errorMessage := some "No usable output produced; only archive or PAR2 artifacts remain"
          failureCode := some .archiveInvalid }

end PostprocOutcome

/-- What `disk_space_available` says of the storage volumes of a job. -/
abbrev DiskCheck := JobId → Bool

structure QueueManager where
  jobs : Registry JobId JobState
  jobOrder : List JobId
  contexts : Registry JobId Bool
  maxActiveDownloads : ℕ
  gate : HoldGate
  globallyPausedJobs : Finset JobId
  configuredServers : List ServerConfig
  scheduleDisabledServers : List ServerId
  /-- The calls of `on_job_finished` that run. -/
  finishing : List JobId
  expiring : List JobId
  rows : Registry JobId Row
  /-- The setting that `persist_globally_paused_jobs` writes. -/
  savedPausedJobs : Option (Finset JobId)
  submissions : List (JobId × Bool)

namespace QueueManager

def new (maxActiveDownloads : ℕ) (servers : List ServerConfig) : QueueManager where
  jobs := ∅
  jobOrder := []
  contexts := ∅
  maxActiveDownloads := maxActiveDownloads
  gate := .new
  globallyPausedJobs := ∅
  configuredServers := servers
  scheduleDisabledServers := []
  finishing := []
  expiring := []
  rows := ∅
  savedPausedJobs := none
  submissions := []

section Parts

variable (manager : QueueManager) (id : JobId)

def modifyJob (change : JobState → JobState) : QueueManager :=
  { manager with jobs := manager.jobs.modify id change }

/-- The status that `queue_update_progress` and `queue_update_status` write. -/
def queueUpdateStatus (status : JobStatus) : QueueManager :=
  { manager with rows := manager.rows.modify id fun row => { row with status := status } }

def queueUpdateErrorMessage (message : Option String) : QueueManager :=
  { manager with rows := manager.rows.modify id fun row => { row with errorMessage := message } }

/-- `pause_job` of the dispatcher. -/
def pauseContext : QueueManager :=
  { manager with contexts := manager.contexts.modify id fun _ => true }

/-- `resume_job` of the dispatcher. -/
def resumeContext : QueueManager :=
  { manager with contexts := manager.contexts.modify id fun _ => false }

def hasContext : Bool := (manager.contexts.lookup id).isSome

/-- `release_completed_job` and `cancel_job` of the dispatcher. -/
def releaseContext : QueueManager :=
  { manager with contexts := manager.contexts.erase id }

def submitJob : QueueManager :=
  { manager with
    contexts := manager.contexts.insert id false
    submissions := manager.submissions ++ [(id, manager.hasContext id)] }

def setGloballyPausedJobs (ids : Finset JobId) : QueueManager :=
  { manager with globallyPausedJobs := ids, savedPausedJobs := some ids }

def activeDownloadCount : ℕ := manager.jobs.census JobState.isDownloading

/-- `max` slots are taken; zero slots are unlimited. -/
def atLimit : Bool :=
  0 < manager.maxActiveDownloads && manager.maxActiveDownloads ≤ manager.activeDownloadCount

end Parts

/-! ## Starting queued jobs -/

section Starting

variable (disk : DiskCheck) (manager : QueueManager) (id : JobId)

/-- The queued job of the highest priority, the first in the order among those. -/
def bestQueued : Option (JobId × ℕ) :=
  manager.jobOrder.foldl (fun best id =>
    match manager.jobs.lookup id with
    | none => best
    | some state =>
        if state.isQueued then
          match best with
          | none => some (id, state.priority.toNat)
          | some (_, bestPriority) =>
              if bestPriority < state.priority.toNat then some (id, state.priority.toNat) else best
        else best) none

def claimNextDownloadSlot : Option (JobId × QueueManager) :=
  if manager.gate.globallyPaused then none
  else if manager.atLimit then none
  else
    manager.bestQueued.map fun best =>
      (best.1, manager.modifyJob best.1 fun state => { state with status := .downloading })

def diskHold (state : JobState) : JobState :=
  { state with
    status := .paused
    errorMessage := some "Paused: low disk space"
    failureCode := some .storageUnavailable }

def launchDownload : QueueManager :=
  match manager.jobs.lookup id with
  | none => manager
  | some _ => if disk id then manager.submitJob id else manager.modifyJob id diskHold

def restartState (state : JobState) : JobState :=
  { state with
    errorMessage := none
    failureCode := none
    persistedStatus := some .downloading }

def resumeQueuedContext : QueueManager :=
  ((manager.modifyJob id restartState).queueUpdateStatus id .downloading).resumeContext id

/-- What `start_next_queued` does with a job it has claimed. -/
def startClaimed : QueueManager :=
  if manager.hasContext id then manager.resumeQueuedContext id else launchDownload disk manager id

/-- At most so many rounds of `start_next_queued`. -/
def startQueued : ℕ → QueueManager → QueueManager
  | 0, manager => manager
  | rounds + 1, manager =>
      match manager.claimNextDownloadSlot with
      | none => manager
      | some (id, claimed) => startQueued rounds (startClaimed disk claimed id)

def startNextQueued : QueueManager :=
  startQueued disk (manager.jobs.census JobState.isQueued) manager

end Starting

/-! ## Operations on one job -/

section Jobs

variable (disk : DiskCheck) (manager : QueueManager) (id : JobId)

def addJob (priority : Priority) (requestedPaused : Bool) (addedAt : ℤ) : QueueManager :=
  let state : JobState := {
    status := .queued
    priority := priority
    errorMessage := none
    failureCode := none
    persistedStatus := none }
  let manager := { manager with
    rows := manager.rows.insert id {
      status := if requestedPaused then .paused else .queued
      priority := priority
      addedAt := addedAt
      errorMessage := none }
    jobOrder := manager.jobOrder ++ [id] }
  if requestedPaused || manager.gate.globallyPaused then
    let manager := { manager with jobs := manager.jobs.insert id { state with status := .paused } }
    if requestedPaused then manager
    else manager.setGloballyPausedJobs (insert id manager.globallyPausedJobs)
  else startNextQueued disk { manager with jobs := manager.jobs.insert id state }

def userPause (state : JobState) : JobState :=
  let state := { state with status := .paused, persistedStatus := some .paused }
  if state.failureCode = some .storageUnavailable then
    { state with failureCode := none, errorMessage := none }
  else state

def pauseJob : QueueManager × Except QueueError Unit :=
  let manager := manager.pauseContext id
  match manager.jobs.lookup id with
  | none => (manager, .error (.jobNotFound id))
  | some _ =>
      let manager := (manager.modifyJob id userPause).queueUpdateStatus id .paused
      let manager := manager.setGloballyPausedJobs (manager.globallyPausedJobs.erase id)
      (startNextQueued disk manager, .ok ())

def resumeJob : QueueManager × Except QueueError Unit :=
  if manager.gate.globallyPaused then
    (manager, .error (.other
      "Cannot resume an individual job while downloads are globally paused"))
  else
    match manager.jobs.lookup id with
    | none => (manager, .error (.jobNotFound id))
    | some _ =>
        if manager.atLimit then
          ((manager.modifyJob id fun state =>
            { state with status := .queued, persistedStatus := some .queued }).queueUpdateStatus id
              .queued, .ok ())
        else if manager.hasContext id then
          (((manager.modifyJob id fun state =>
            { restartState state with status := .downloading }).queueUpdateStatus id
              .downloading).resumeContext id, .ok ())
        else
          (launchDownload disk (manager.modifyJob id fun state =>
            { state with status := .downloading, errorMessage := none, failureCode := none }) id,
              .ok ())

def removeJob : QueueManager :=
  match manager.jobs.lookup id with
  | none => manager.releaseContext id
  | some state =>
      if state.status.isPostProcessing then manager
      else
        let manager := manager.releaseContext id
        let manager := { manager with
          jobs := manager.jobs.erase id
          rows := manager.rows.erase id
          jobOrder := manager.jobOrder.filter (· ≠ id) }
        manager.setGloballyPausedJobs (manager.globallyPausedJobs.erase id)

def priorityOf : ℕ := ((manager.jobs.lookup id).map fun state => state.priority.toNat).getD 0

def setJobPriority (priority : Priority) : QueueManager × Except QueueError Unit :=
  match manager.jobs.lookup id with
  | none => (manager, .error (.jobNotFound id))
  | some _ =>
      let manager := manager.modifyJob id fun state => { state with priority := priority }
      let manager := { manager with
        rows := manager.rows.modify id fun row => { row with priority := priority }
        jobOrder := manager.jobOrder.mergeSort fun left right =>
          manager.priorityOf right ≤ manager.priorityOf left }
      (startNextQueued disk manager, .ok ())

end Jobs

/-! ## Slots -/

section Slots

variable (disk : DiskCheck) (manager : QueueManager)

/-- The downloading job of the lowest priority, the last in the order among those, with its priority
and its place. -/
def worstDownloading : Option (JobId × ℕ × ℕ) :=
  manager.jobOrder.zipIdx.foldl (fun worst entry =>
    match manager.jobs.lookup entry.1 with
    | none => worst
    | some state =>
        if state.isDownloading then
          match worst with
          | none => some (entry.1, state.priority.toNat, entry.2)
          | some (_, priority, place) =>
              if state.priority.toNat < priority ∨ state.priority.toNat = priority ∧ place < entry.2
              then some (entry.1, state.priority.toNat, entry.2)
              else worst
        else worst) none

def bestQueuedPlace : Option (JobId × ℕ × ℕ) :=
  manager.jobOrder.zipIdx.foldl (fun best entry =>
    match manager.jobs.lookup entry.1 with
    | none => best
    | some state =>
        if state.isQueued then
          match best with
          | none => some (entry.1, state.priority.toNat, entry.2)
          | some (_, priority, place) =>
              if priority < state.priority.toNat ∨ state.priority.toNat = priority ∧ entry.2 < place
              then some (entry.1, state.priority.toNat, entry.2)
              else best
        else best) none

def requeue (manager : QueueManager) (id : JobId) : QueueManager :=
  ((manager.pauseContext id).modifyJob id fun state =>
    { state with status := .queued, persistedStatus := some .queued }).queueUpdateStatus id .queued

/-- At most so many rounds of `requeue_over_limit`. -/
def requeueRounds : ℕ → QueueManager → QueueManager
  | 0, manager => manager
  | rounds + 1, manager =>
      if manager.activeDownloadCount ≤ manager.maxActiveDownloads then manager
      else
        match manager.worstDownloading with
        | none => manager
        | some (id, _, _) => requeueRounds rounds (manager.requeue id)

def requeueOverLimit : QueueManager :=
  if manager.maxActiveDownloads = 0 then manager
  else requeueRounds manager.activeDownloadCount manager

def setMaxActiveDownloads (max : ℕ) : QueueManager :=
  startNextQueued disk { manager with maxActiveDownloads := max }.requeueOverLimit

def queuedJobOutranksActive (queued active : ℕ × ℕ) : Bool :=
  active.1 < queued.1 || queued.1 = active.1 && queued.2 < active.2

/-- The download that `preempt_if_needed` takes the slot of. -/
def preempted : Option JobId :=
  match manager.bestQueuedPlace, manager.worstDownloading with
  | some (_, queued), some (id, active) =>
      if queuedJobOutranksActive queued active then some id else none
  | _, _ => none

def preempt (manager : QueueManager) (id : JobId) : QueueManager :=
  ((manager.pauseContext id).modifyJob id fun state =>
    { state with status := .paused, persistedStatus := some .paused }).queueUpdateStatus id .paused

/-- At most so many rounds of `preempt_if_needed`. -/
def preemptRounds : ℕ → QueueManager → QueueManager
  | 0, manager => manager
  | rounds + 1, manager =>
      if manager.atLimit then
        match manager.preempted with
        | none => manager
        | some id => preemptRounds rounds (manager.preempt id)
      else startNextQueued disk manager

def preemptIfNeeded : QueueManager :=
  preemptRounds disk (manager.activeDownloadCount + 1) manager

def moveJob (id : JobId) (position : ℕ) : QueueManager × Except QueueError Unit :=
  if id ∈ manager.jobOrder then
    let order := manager.jobOrder.erase id
    (preemptIfNeeded disk { manager with
      jobOrder := order.insertIdx (min position order.length) id }, .ok ())
  else (manager, .error (.jobNotFound id))

end Slots

/-! ## Holds on the queue, servers and disk space -/

section Holds

variable (disk : DiskCheck) (manager : QueueManager)

def activeJobs : List JobId :=
  (manager.jobs.entries.filter fun entry => entry.2.isActive).map Sigma.fst

def pauseJobsForGlobalHold : QueueManager :=
  let held := manager.activeJobs
  let manager := { manager with
    jobs := manager.jobs.mapValues fun _ (state : JobState) =>
      if state.isActive then { state with status := .paused } else state
    contexts := manager.contexts.mapValues fun id paused => paused || decide (id ∈ held) }
  manager.setGloballyPausedJobs (manager.globallyPausedJobs ∪ held.toFinset)

/-- A paused job that a resumer puts back in the queue. -/
def unpause (state : JobState) : JobState :=
  { state with status := .queued, errorMessage := none, failureCode := none }

def resumeJobsAfterHolds : QueueManager :=
  let held := manager.globallyPausedJobs
  let manager := manager.setGloballyPausedJobs ∅
  startNextQueued disk { manager with
    jobs := manager.jobs.mapValues fun id (state : JobState) =>
      if id ∈ held ∧ state.status = .paused then unpause state else state }

def request (asked : JobsRequest) : QueueManager :=
  match asked with
  | .nothing => manager
  | .pause => manager.pauseJobsForGlobalHold
  | .resume => resumeJobsAfterHolds disk manager

def changeHolds (change : HoldGate → HoldGate × JobsRequest) : QueueManager :=
  request disk { manager with gate := (change manager.gate).1 } (change manager.gate).2

def resumePaused (test : JobState → Bool) : QueueManager :=
  if manager.gate.globallyPaused then manager
  else if manager.jobs.census (fun state => state.status = .paused && test state) = 0 then manager
  else
    startNextQueued disk { manager with
      jobs := manager.jobs.mapValues fun _ (state : JobState) =>
        if state.status = .paused && test state then unpause state else state }

def resumeServerPausedJobs : QueueManager :=
  resumePaused disk manager fun state => state.errorMessage.isSome

def resumeStorageHeldJobs : QueueManager :=
  resumePaused disk manager fun state => state.failureCode = some .storageUnavailable

def enabledServers : List ServerConfig :=
  manager.configuredServers.filter fun server =>
    server.enabled && !manager.scheduleDisabledServers.contains server.id

def applyServerOverlay : QueueManager :=
  if manager.enabledServers.isEmpty then manager else resumeServerPausedJobs disk manager

def updateServers (servers : List ServerConfig) : QueueManager :=
  applyServerOverlay disk { manager with configuredServers := servers }

def applySchedule (decision : ScheduleDecision) (enabled : Bool) (disabled : List ServerId) :
    QueueManager :=
  let manager := changeHolds disk manager fun gate =>
    gate.applyScheduleHold (decision.windows enabled)
  let disabled := if enabled then disabled else []
  if manager.scheduleDisabledServers = disabled then manager
  else applyServerOverlay disk { manager with scheduleDisabledServers := disabled }

def enforceDiskGuard (low : Bool) (now : ℤ) : QueueManager :=
  if low then
    if manager.gate.holds.disk.isSome then manager
    else changeHolds disk manager fun gate => gate.pauseAllWithHold (some now)
  else
    let manager :=
      if manager.gate.holds.disk.isSome then changeHolds disk manager HoldGate.clearDiskHold
      else manager
    resumeStorageHeldJobs disk manager

end Holds

/-! ## What the downloads report -/

section Progress

variable (disk : DiskCheck) (manager : QueueManager) (id : JobId)

def waitingForProviders (message : String) : QueueManager :=
  match manager.jobs.lookup id with
  | none => manager
  | some state =>
      if state.errorMessage = some message then manager
      else
        (manager.modifyJob id fun state =>
          { state with errorMessage := some message }).queueUpdateErrorMessage id (some message)

def providersAvailable : QueueManager :=
  match manager.jobs.lookup id with
  | none => manager
  | some state =>
      if state.errorMessage.any fun message => message.startsWith "Waiting for providers:" then
        (manager.modifyJob id fun state =>
          { state with errorMessage := none, failureCode := none }).queueUpdateErrorMessage id none
      else manager

/-- A hopeless job is asked to abort; its context goes with the terminal message. -/
def hopeless (reason : String) : QueueManager :=
  manager.modifyJob id fun state => { state with errorMessage := some reason }

def jobFinished (note : Option String) : QueueManager :=
  let manager := manager.releaseContext id
  let manager := manager.modifyJob id fun state =>
    { state with status := .postProcessing, errorMessage := note.or state.errorMessage }
  let manager := startNextQueued disk manager
  { manager with finishing := manager.finishing ++ [id] }

/-- `move_to_history`, for a state that is already terminal. -/
def moveToHistory : QueueManager :=
  { manager with rows := manager.rows.erase id }

/-- The task that takes a job in history out of the queue's view after a while. -/
def expireLater : QueueManager :=
  { manager with expiring := manager.expiring ++ [id] }

def abortState (reason : String) (state : JobState) : JobState :=
  { state with
    status := .failed
    errorMessage := some reason
    failureCode := some .articlesUnavailable }

def finishAborted (reason : String) : QueueManager :=
  let manager := manager.releaseContext id
  let manager :=
    match manager.jobs.lookup id with
    | none => manager
    | some _ => (manager.modifyJob id (abortState reason)).moveToHistory id
  startNextQueued disk (manager.expireLater id)

/-- `on_job_finished`, from the disk check on. -/
def onJobFinished (outcome : PostprocOutcome) : QueueManager :=
  let manager := { manager with finishing := manager.finishing.erase id }
  match manager.jobs.lookup id with
  | none => manager
  | some _ =>
      let manager := ((manager.modifyJob id outcome.finish).moveToHistory id).expireLater id
      if outcome = .diskFull then startNextQueued disk manager else manager

def expire : QueueManager :=
  { manager with
    jobs := manager.jobs.erase id
    jobOrder := manager.jobOrder.filter (· ≠ id)
    expiring := manager.expiring.erase id }

def persistJobProgress : QueueManager :=
  match manager.jobs.lookup id with
  | none => manager
  | some state =>
      if state.persistedStatus = some state.status then manager
      else
        (manager.modifyJob id fun state =>
          { state with persistedStatus := some state.status }).queueUpdateStatus id state.status

end Progress

/-! ## Restarts -/

section Restart

variable (disk : DiskCheck) (manager : QueueManager)

def shutdown : QueueManager :=
  let jobs := manager.jobs.mapValues fun _ (state : JobState) =>
    if state.isDownloading then { state with status := .queued } else state
  { manager with
    jobs := jobs
    rows := manager.rows.mapValues fun id (row : Row) =>
      match jobs.lookup id with
      | none => row
      | some state => { row with status := state.status } }

def restoreRow (wasPaused : Bool) (saved : Option (Finset JobId)) (id : JobId) (row : Row) :
    JobState × Bool :=
  let status := if row.status.isPostProcessing then .postProcessing else row.status
  let held := wasPaused &&
    match saved with
    | none => status = .paused
    | some ids => id ∈ ids
  ({ status := if held then .paused else if status = .downloading then .queued else status
     priority := row.priority
     errorMessage := row.errorMessage
     failureCode := none
     persistedStatus := none }, held)

def queueList : List (Sigma fun _ : JobId => Row) :=
  manager.rows.entries.mergeSort fun left right =>
    right.2.priority.toNat < left.2.priority.toNat ||
      left.2.priority.toNat = right.2.priority.toNat && left.2.addedAt ≤ right.2.addedAt

def restoreFromDb : QueueManager :=
  let wasPaused := PauseHolds.readFlag manager.gate.settings "globally_paused"
  let restored := manager.rows.mapValues (restoreRow wasPaused manager.savedPausedJobs)
  startNextQueued disk { manager with
    jobs := restored.mapValues fun _ job => job.1
    jobOrder := manager.queueList.map Sigma.fst
    contexts := ∅
    gate := manager.gate.restore
    globallyPausedJobs :=
      ((restored.entries.filter fun entry => entry.2.2).map Sigma.fst).toFinset
    scheduleDisabledServers := []
    finishing := (manager.queueList.filter fun entry =>
      entry.2.status.isPostProcessing).map Sigma.fst
    expiring := [] }

end Restart

end QueueManager

/-! ## Operations -/

inductive Operation where
  | addJob (id : JobId) (priority : Priority) (requestedPaused : Bool) (addedAt : ℤ)
  | pauseJob (id : JobId)
  | resumeJob (id : JobId)
  | removeJob (id : JobId)
  | setJobPriority (id : JobId) (priority : Priority)
  | moveJob (id : JobId) (position : ℕ)
  | sortQueue (order : List JobId)
  | setMaxActiveDownloads (max : ℕ)
  | pauseAll
  /-- The timer of `pause_for`. -/
  | expireUserHold
  | resumeAll
  | enforceDiskGuard (low : Bool) (now : ℤ)
  | applySchedule (decision : ScheduleDecision) (enabled : Bool) (disabled : List ServerId)
  | updateServers (servers : List ServerConfig)
  | waitingForProviders (id : JobId) (message : String)
  | providersAvailable (id : JobId)
  | hopeless (id : JobId) (reason : String)
  | jobFinished (id : JobId) (note : Option String)
  /-- `JobAborted`, or `JobFinished` with a diagnosis. -/
  | jobAborted (id : JobId) (reason : String)
  | onJobFinished (id : JobId) (outcome : PostprocOutcome)
  | expire (id : JobId)
  | persistJobProgress (id : JobId)
  /-- The process ends, after `shutdown` or without it, and starts again. -/
  | restart (graceful : Bool)

def Operation.target : Operation → Option JobId
  | addJob id _ _ _ | pauseJob id | resumeJob id | removeJob id | setJobPriority id _
  | waitingForProviders id _ | providersAvailable id | hopeless id _ | jobFinished id _
  | jobAborted id _ | onJobFinished id _ | expire id | persistJobProgress id => some id
  | _ => none

namespace QueueManager

def knows (manager : QueueManager) (id : JobId) : Bool :=
  (manager.jobs.lookup id).isSome || manager.jobOrder.contains id ||
    (manager.contexts.lookup id).isSome || (manager.rows.lookup id).isSome ||
    manager.finishing.contains id || manager.expiring.contains id ||
    decide (id ∈ manager.globallyPausedJobs) ||
    (manager.savedPausedJobs.any fun ids => decide (id ∈ ids))
    || manager.submissions.any fun entry => entry.1 = id

/-- An operation that runs to its end; `disk` is what the disk checks of its launches find. The ids
of new jobs are fresh. -/
def step (manager : QueueManager) (event : Operation × DiskCheck) : Option QueueManager :=
  let disk := event.2
  match event.1 with
  | .addJob id priority requestedPaused addedAt =>
      if manager.knows id then none
      else some (addJob disk manager id priority requestedPaused addedAt)
  | .pauseJob id => some (pauseJob disk manager id).1
  | .resumeJob id => some (resumeJob disk manager id).1
  | .removeJob id => some (manager.removeJob id)
  | .setJobPriority id priority => some (setJobPriority disk manager id priority).1
  | .moveJob id position => some (moveJob disk manager id position).1
  | .sortQueue order =>
      if order.isPerm manager.jobOrder then some { manager with jobOrder := order } else none
  | .setMaxActiveDownloads max => some (setMaxActiveDownloads disk manager max)
  | .pauseAll => some (changeHolds disk manager HoldGate.pauseAll)
  | .expireUserHold => some (changeHolds disk manager HoldGate.expireUserHold)
  | .resumeAll => some (changeHolds disk manager HoldGate.resumeAll)
  | .enforceDiskGuard low now => some (enforceDiskGuard disk manager low now)
  | .applySchedule decision enabled disabled =>
      some (applySchedule disk manager decision enabled disabled)
  | .updateServers servers => some (updateServers disk manager servers)
  | .waitingForProviders id message =>
      if manager.hasContext id then some (manager.waitingForProviders id message) else none
  | .providersAvailable id =>
      if manager.hasContext id then some (manager.providersAvailable id) else none
  | .hopeless id reason =>
      if manager.hasContext id then some (manager.hopeless id reason) else none
  | .jobFinished id note =>
      if manager.hasContext id then some (jobFinished disk manager id note) else none
  | .jobAborted id reason =>
      if manager.hasContext id then some (finishAborted disk manager id reason) else none
  | .onJobFinished id outcome =>
      if id ∈ manager.finishing then some (onJobFinished disk manager id outcome) else none
  | .expire id => if id ∈ manager.expiring then some (manager.expire id) else none
  | .persistJobProgress id => some (manager.persistJobProgress id)
  | .restart graceful =>
      some (restoreFromDb disk (if graceful then manager.shutdown else manager))

def Step (manager : QueueManager) (event : Operation × DiskCheck) (next : QueueManager) : Prop :=
  manager.step event = some next

end QueueManager

end Rustnzb.Web.Queue
