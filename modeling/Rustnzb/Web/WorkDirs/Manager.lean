import Rustnzb.Web.Queue.Manager

/-!
# Work directories

The jobs in memory, the queue table, the history and the directories below the incomplete root. A
job enters through an admission or through the retry of a history entry, and leaves through
`move_to_history` or a removal; the entries of the history come and go, and the process may start
anew between any two operations. Statements and deletions may fail.

There are no symlinks, and the incomplete root stays where it is. `issued`, `moved` and `deletions`
are not in the source: the ids that were given out, whether `move_to_history` has been called for
a job, and what the three functions that clean up have set out to delete.
-/

namespace Rustnzb.Web.WorkDirs

open Dispatch (JobId)
open Lib (Registry)

abbrev Path := List String

def parent : Path → Option Path
  | [] => none
  | path => some path.dropLast

def isTerminal (status : Queue.JobStatus) : Bool :=
  status = .completed || status = .failed

structure JobState where
  status : Queue.JobStatus
  workDir : Path
  moved : Bool
  isTerminal_of_moved : moved = true → isTerminal status = true
  deriving DecidableEq

structure Row where
  status : Queue.JobStatus
  workDir : Path
  deriving DecidableEq

structure HistoryRow where
  status : Queue.JobStatus
  retryWorkDir : Option Path
  nzbData : Bool
  trash : Option ℤ
  deriving DecidableEq

structure QueueAdmission where
  payloadDigest : String
  jobId : JobId
  deriving DecidableEq

structure Store where
  jobs : Registry JobId JobState
  rows : Registry JobId Row
  history : Registry JobId HistoryRow
  dirs : List Path
  retries : Registry JobId JobId
  admissions : Registry String QueueAdmission
  issued : List JobId

/-- A call of `remove_dir` or `remove_dir_all`. -/
structure Deletion where
  owner : Option JobId
  dir : Path
  emptied : Bool
  store : Store

structure QueueManager extends Store where
  deletions : List Deletion

structure Admission where
  requestedPaused : Bool
  globallyPaused : Bool
  inserted : Bool
  deriving DecidableEq

/-- What the terminal transition of a job finds, and how its statements go. -/
structure Outcome where
  usable : Bool
  emptied : Bool
  nzbData : Bool
  historyRead : Bool
  historyWritten : Bool
  queueRemoved : Bool
  dirRemoved : Bool
  dropped : List JobId
  deriving DecidableEq

structure Reclaim where
  readable : Bool
  /-- The directories that `remove_dir_all` deletes; with the others it fails. -/
  removable : Path → Bool

inductive Label where
  | addJob (id : JobId) (admission : Admission)
  | addJobIdempotent (id : JobId) (key digest : String) (admission : Admission)
  | retryHistoryEntry (entry id : JobId) (admission : Admission)
  /-- The job is started, paused, resumed, post-processed, or marked as failed. -/
  | setStatus (id : JobId) (status : Queue.JobStatus)
  | persist (id : JobId)
  | writeArticle (id : JobId)
  | moveToHistory (id : JobId) (outcome : Outcome)
  | leave (id : JobId)
  | removeJob (id : JobId) (hasError : Bool) (outcome : Outcome)
  /-- `pruned`: the damage ledger is pruned, too; only then are directories cleaned up. -/
  | historyRemove (id : JobId) (pruned : Bool) (reclaim : Reclaim)
  | historyMarkClientRemoved (ids : List JobId) (reclaim : Reclaim)
  | historyTrash (ids : List JobId) (deadline : ℤ)
  | historyRestore (ids : List JobId) (now : ℤ)
  | historyPurgeExpired (now : ℤ) (pruned : Bool) (reclaim : Reclaim)
  | historyClear (pruned : Bool) (reclaim : Reclaim)
  /-- The process starts anew; `held` are the jobs of a global pause, `listed` tells whether the
  queue table can be read. -/
  | restart (held : JobId → Bool) (listed : Bool) (reclaim : Reclaim)

def isJobIdDirName (name : String) : Bool :=
  name.length = 36 &&
    name.toList.zipIdx.all fun (char, index) =>
      if index = 8 ∨ index = 13 ∨ index = 18 ∨ index = 23 then char = '-'
      else char.isDigit || ('a' ≤ char && char ≤ 'f') || ('A' ≤ char && char ≤ 'F')

def Row.restoreStatus (row : Row) (held : Bool) : Queue.JobStatus :=
  if held then .paused
  else if row.status.isPostProcessing then .postProcessing
  else if row.status = .downloading then .queued
  else row.status

def Row.restore (row : Row) (held : Bool) : JobState where
  status := row.restoreStatus held
  workDir := row.workDir
  moved := false
  isTerminal_of_moved := nofun

namespace QueueManager

variable (incomplete : Path) (manager : QueueManager)

def init (dirs : List Path) : QueueManager where
  jobs := ∅
  rows := ∅
  history := ∅
  dirs := dirs
  retries := ∅
  admissions := ∅
  issued := []
  deletions := []

def delete (owner : Option JobId) (dir : Path) (emptied removed : Bool) : QueueManager :=
  { manager with
    dirs := if removed then manager.dirs.filter (· ≠ dir) else manager.dirs
    deletions := manager.deletions ++ [⟨owner, dir, emptied, manager.toStore⟩] }

def cleanupTerminalWorkDir (id : JobId) (workDir : Path) (finalStatus : Queue.JobStatus)
    (emptied removed : Bool) : QueueManager :=
  if workDir ∈ manager.dirs then
    match finalStatus with
    | .failed => manager.delete (some id) workDir false removed
    | .completed => if emptied then manager.delete (some id) workDir true removed else manager
    | _ => manager
  else manager

def historyWorkDirs (id : JobId) (row : HistoryRow) : List Path :=
  (incomplete ++ [id]) ::
    if row.status = .failed then row.retryWorkDir.toList.filter (· ≠ incomplete ++ [id]) else []

def referencedWorkDirs : List Path :=
  let active := manager.jobs.entries.filterMap fun job =>
    if isTerminal job.2.status then none else some job.2.workDir
  let queued := manager.rows.entries.map fun row => row.2.workDir
  let retained := manager.history.entries.filterMap fun row =>
    if row.2.status = .failed then none else some (incomplete ++ [row.1])
  (active ++ queued ++ retained).filter (· ∈ manager.dirs)

def removeUnreferencedWorkDir (reclaim : Reclaim) (manager : QueueManager) (candidate : Path) :
    QueueManager :=
  if candidate ∈ manager.dirs ∧ parent candidate = some incomplete ∧ reclaim.readable ∧
      candidate ∉ manager.referencedWorkDirs incomplete then
    manager.delete none candidate false (reclaim.removable candidate)
  else manager

def isSwept (dir : Path) : Bool :=
  parent dir = some incomplete && dir.getLast?.any isJobIdDirName

def sweepOrphanedWorkDirs (reclaim : Reclaim) : QueueManager :=
  if reclaim.readable then
    let referenced := manager.referencedWorkDirs incomplete
    manager.dirs.foldl (fun swept dir =>
      if isSwept incomplete dir ∧ dir ∉ referenced then
        swept.delete none dir false (reclaim.removable dir)
      else swept) manager
  else manager

/-- Make the directory of a job that passed the checks, insert its row and activate it. -/
def admitJob (id : JobId) (workDir : Path) (admission : Admission) : QueueManager :=
  let made := { manager with
    dirs := manager.dirs.insert workDir
    issued := id :: manager.issued }
  if admission.inserted then
    { made with
      rows := manager.rows.insert id {
        status := if admission.requestedPaused then .paused else .queued
        workDir := workDir }
      jobs := manager.jobs.insert id {
        status :=
          if admission.requestedPaused || admission.globallyPaused then .paused else .queued
        workDir := workDir
        moved := false
        isTerminal_of_moved := nofun } }
  else made

def addJob (id : JobId) (admission : Admission) : QueueManager :=
  manager.admitJob id (incomplete ++ [id]) admission

def addJobIdempotent (id : JobId) (key digest : String) (admission : Admission) : QueueManager :=
  match manager.admissions.lookup key with
  | some _ => manager
  | none =>
      let admitted := manager.admitJob id (incomplete ++ [id]) admission
      if admission.inserted then
        { admitted with admissions := manager.admissions.insert key ⟨digest, id⟩ }
      else admitted

/-- The directory of an earlier attempt that a retry takes over. -/
def retainedWorkDir (row : HistoryRow) : Option Path :=
  if row.status = .failed then
    row.retryWorkDir.filter fun workDir => incomplete.isPrefixOf workDir && workDir ∈ manager.dirs
  else none

def retainRetries : QueueManager :=
  { manager with retries := manager.retries.retain fun _ id => id ∈ manager.jobs }

/-- The entry from which a retry starts a job; `none` while an earlier one is in the queue, and
where there is no NZB. -/
def retried (entry : JobId) : Option HistoryRow :=
  match manager.retainRetries.retries.lookup entry with
  | some _ => none
  | none => (manager.history.lookup entry).filter HistoryRow.nzbData

def retryHistoryEntry (entry id : JobId) (admission : Admission) : QueueManager :=
  match manager.retried entry with
  | none => manager.retainRetries
  | some row =>
      let workDir := (manager.retainedWorkDir incomplete row).getD (incomplete ++ [id])
      let admitted := manager.retainRetries.admitJob id workDir admission
      if admission.inserted then
        { admitted with retries := admitted.retries.insert entry id }
      else admitted

def setStatus (id : JobId) (status : Queue.JobStatus) : QueueManager :=
  match manager.jobs.lookup id with
  | none => manager
  | some job =>
      { manager with
        jobs := manager.jobs.insert id ⟨status, job.workDir, false, nofun⟩ }

def persist (id : JobId) : QueueManager :=
  match manager.jobs.lookup id with
  | none => manager
  | some job =>
      { manager with rows := manager.rows.modify id fun row => { row with status := job.status } }

def writeArticle (id : JobId) : QueueManager :=
  match manager.jobs.lookup id with
  | none => manager
  | some job => { manager with dirs := manager.dirs.insert job.workDir }

/-- `history_get` finds a row. -/
def isListed (id : JobId) : Bool :=
  (manager.history.lookup id).any fun row => row.trash.isNone

/-- `history_insert`, which fails where the id is taken. -/
def historyInsert (id : JobId) (row : HistoryRow) : QueueManager :=
  if id ∈ manager.history then manager
  else { manager with history := manager.history.insert id row }

def historyEnforceRetention (dropped : List JobId) : QueueManager :=
  { manager with
    history := manager.history.retain fun id row => row.trash.isSome || id ∉ dropped }

def queueRemove (id : JobId) (removed : Bool) : QueueManager :=
  if removed then { manager with rows := manager.rows.erase id } else manager

def finalStatus (job : JobState) (usable : Bool) : Queue.JobStatus :=
  if job.status = .failed then .failed
  else if usable then .completed
  else .failed

theorem isTerminal_finalStatus (job : JobState) (usable : Bool) :
    isTerminal (finalStatus job usable) = true := by
  rw [finalStatus]
  split
  · rfl
  · split <;> rfl

def finish (id : JobId) (job : JobState) (usable : Bool) : QueueManager :=
  { manager with
    jobs := manager.jobs.insert id {
      status := finalStatus job usable
      workDir := job.workDir
      moved := true
      isTerminal_of_moved := fun _ => isTerminal_finalStatus job usable } }

def historyPersisted (id : JobId) (outcome : Outcome) : Bool :=
  outcome.historyRead &&
    (manager.isListed id || outcome.historyWritten && id ∉ manager.history)

/-- The terminal transition up to the clean-up: the row in the history, the one in the queue, and
the retention. -/
def recordTerminal (id : JobId) (job : JobState) (outcome : Outcome) : QueueManager :=
  let finished := manager.finish id job outcome.usable
  let recorded :=
    if outcome.historyRead ∧ !manager.isListed id ∧ outcome.historyWritten then
      finished.historyInsert id {
        status := finalStatus job outcome.usable
        retryWorkDir := some job.workDir
        nzbData := outcome.nzbData
        trash := none }
    else finished
  (recorded.queueRemove id outcome.queueRemoved).historyEnforceRetention outcome.dropped

def moveToHistory (id : JobId) (outcome : Outcome) : QueueManager :=
  match manager.jobs.lookup id with
  | none => manager
  | some job =>
      let left := manager.recordTerminal id job outcome
      if manager.historyPersisted id outcome then
        left.cleanupTerminalWorkDir id job.workDir (finalStatus job outcome.usable)
          outcome.emptied outcome.dirRemoved
      else left

def leave (id : JobId) : QueueManager :=
  { manager with jobs := manager.jobs.erase id }

/-- A removal deletes the directory of its job itself; an error that the job shows becomes a failed
entry. -/
def removeJob (id : JobId) (hasError : Bool) (outcome : Outcome) : QueueManager :=
  match manager.jobs.lookup id with
  | none => manager
  | some job =>
      if job.status.isPostProcessing then manager
      else if outcome.historyRead then
        let alreadyPersisted := manager.isListed id
        let recorded :=
          if hasError ∧ !alreadyPersisted ∧ outcome.historyWritten ∧ id ∉ manager.history then
            (manager.historyInsert id {
              status := .failed
              retryWorkDir := none
              nzbData := outcome.nzbData
              trash := none }).historyEnforceRetention outcome.dropped
          else manager
        let left := (recorded.leave id).queueRemove id outcome.queueRemoved
        if !alreadyPersisted ∧ outcome.dirRemoved then
          { left with dirs := left.dirs.filter (· ≠ job.workDir) }
        else left
      else manager.leave id

def reclaimAll (reclaim : Reclaim) (candidates : List Path) : QueueManager :=
  candidates.foldl (removeUnreferencedWorkDir incomplete reclaim) manager

def historyRemove (id : JobId) (pruned : Bool) (reclaim : Reclaim) : QueueManager :=
  let retained := ((manager.history.lookup id).filter fun row => row.trash.isNone).elim []
    (historyWorkDirs incomplete id)
  let removed := { manager with history := manager.history.erase id }
  if pruned then removed.reclaimAll incomplete reclaim retained else removed

def historyMarkClientRemoved (ids : List JobId) (reclaim : Reclaim) : QueueManager :=
  manager.reclaimAll incomplete reclaim <| ids.flatMap fun id =>
    ((manager.history.lookup id).filter fun row =>
      row.trash.isNone && row.status = .failed).elim [] (historyWorkDirs incomplete id)

def historyTrash (ids : List JobId) (deadline : ℤ) : QueueManager :=
  { manager with
    history := manager.history.mapValues fun id row =>
      if id ∈ ids ∧ row.trash.isNone then { row with trash := some deadline } else row }

def historyRestore (ids : List JobId) (now : ℤ) : QueueManager :=
  { manager with
    history := manager.history.mapValues fun id row =>
      if id ∈ ids ∧ row.trash.any (now ≤ ·) then { row with trash := none } else row }

def isExpired (now : ℤ) (row : HistoryRow) : Bool := row.trash.any (· < now)

def historyPurgeExpired (now : ℤ) (pruned : Bool) (reclaim : Reclaim) : QueueManager :=
  let retained := manager.history.entries.flatMap fun row =>
    if isExpired now row.2 then historyWorkDirs incomplete row.1 row.2 else []
  let purged := { manager with
    history := manager.history.retain fun _ row => !isExpired now row }
  if pruned then purged.reclaimAll incomplete reclaim retained else purged

def historyClear (pruned : Bool) (reclaim : Reclaim) : QueueManager :=
  let retained := manager.history.entries.flatMap fun row =>
    if row.2.trash.isNone then historyWorkDirs incomplete row.1 row.2 else []
  let cleared := { manager with history := ∅ }
  if pruned then cleared.reclaimAll incomplete reclaim retained else cleared

def stop : QueueManager :=
  { manager with jobs := ∅, retries := ∅ }

def restoreFromDb (held : JobId → Bool) (listed : Bool) (reclaim : Reclaim) : QueueManager :=
  let swept := manager.stop.sweepOrphanedWorkDirs incomplete reclaim
  if listed then
    { swept with jobs := swept.rows.mapValues fun id row => row.restore (held id) }
  else swept

/-- A job in memory for which `move_to_history` is still to be called. -/
def isUnmoved (id : JobId) : Bool :=
  (manager.jobs.lookup id).any fun job => !job.moved

/-- One operation; the id of a new job was never given out before. -/
def next (label : Label) : Option QueueManager :=
  match label with
  | .addJob id admission =>
      if id ∈ manager.issued then none else some (manager.addJob incomplete id admission)
  | .addJobIdempotent id key digest admission =>
      if id ∈ manager.issued then none
      else some (manager.addJobIdempotent incomplete id key digest admission)
  | .retryHistoryEntry entry id admission =>
      if id ∈ manager.issued then none
      else some (manager.retryHistoryEntry incomplete entry id admission)
  | .setStatus id status =>
      if manager.isUnmoved id ∧ status ≠ .completed then some (manager.setStatus id status)
      else none
  | .persist id => some (manager.persist id)
  | .writeArticle id => if manager.isUnmoved id then some (manager.writeArticle id) else none
  | .moveToHistory id outcome =>
      if manager.isUnmoved id then some (manager.moveToHistory id outcome) else none
  | .leave id =>
      if (manager.jobs.lookup id).any JobState.moved then some (manager.leave id) else none
  | .removeJob id hasError outcome => some (manager.removeJob id hasError outcome)
  | .historyRemove id pruned reclaim => some (manager.historyRemove incomplete id pruned reclaim)
  | .historyMarkClientRemoved ids reclaim =>
      some (manager.historyMarkClientRemoved incomplete ids reclaim)
  | .historyTrash ids deadline => some (manager.historyTrash ids deadline)
  | .historyRestore ids now => some (manager.historyRestore ids now)
  | .historyPurgeExpired now pruned reclaim =>
      some (manager.historyPurgeExpired incomplete now pruned reclaim)
  | .historyClear pruned reclaim => some (manager.historyClear incomplete pruned reclaim)
  | .restart held listed reclaim => some (manager.restoreFromDb incomplete held listed reclaim)

def Step (incomplete : Path) (manager : QueueManager) (label : Label) (manager' : QueueManager) :
    Prop :=
  manager.next incomplete label = some manager'

end QueueManager

end Rustnzb.Web.WorkDirs
