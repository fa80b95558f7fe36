import Rustnzb.Web.Queue.Manager

/-!
# Edits of the queue

The queue in memory, the queue table, and what a restart makes of the table. The operations are the
user's edits, the status changes that starting and preempting jobs bring, the saves of the progress
and the shutdown. No job starts to unpack here, so none claims its output directory.

With what a job was admitted, and the priority last written for it, is not in the source; no
function reads it.
-/

namespace Rustnzb.Web.Edits

open Dispatch (JobId)
open Lib (Registry)
open Queue (JobStatus Priority)

structure Path where
  parent : Option (List Char)
  fileName : Option (List Char)
  deriving DecidableEq

structure Config where
  sanitizeJobName : String → String
  safeComponent : String → Bool
  outputDirFor : String → String → Option Path
  lowercase : Char → List Char

structure NzbJob where
  name : String
  category : String
  status : JobStatus
  priority : Priority
  totalBytes : ℕ
  downloadedBytes : ℕ
  addedAt : ℤ
  outputDir : Path
  deriving DecidableEq

structure JobState extends NzbJob where
  outputDirClaimed : Bool
  persistedStatus : Option JobStatus
  deriving DecidableEq

structure JobCheckpoint where
  downloadedBytes : ℕ
  outputDir : Option Path
  deriving DecidableEq

/-- A row of the queue table, with the checkpoint stored for the job. -/
structure Row where
  name : String
  category : String
  status : JobStatus
  priority : ℤ
  totalBytes : ℕ
  downloadedBytes : ℕ
  addedAt : ℤ
  outputDir : Path
  checkpoint : Option JobCheckpoint
  deriving DecidableEq

/-- The columns with which a job was admitted, and the priority that was last written. -/
structure Admitted where
  name : String
  category : String
  priority : Priority
  outputDir : Path
  deriving DecidableEq

structure QueueManager where
  jobs : Registry JobId JobState
  jobOrder : List JobId
  rows : Registry JobId Row
  admitted : Registry JobId Admitted

inductive QueueSortField where
  | remaining
  | name
  | size
  | age
  | priority
  deriving DecidableEq

inductive Label where
  | addJob (id : JobId) (job : NzbJob)
  | renameJob (id : JobId) (newName : String)
  | changeJobCategory (id : JobId) (category : String)
  /-- `ok`: the row is written. -/
  | setJobPriority (id : JobId) (priority : Priority) (ok : Bool)
  | moveJob (id : JobId) (position : ℕ)
  | sortQueue (field : QueueSortField) (ascending : Bool)
  | pauseJob (id : JobId) (ok : Bool)
  | start (id : JobId)
  | preempt (id : JobId) (ok : Bool)
  | progress (id : JobId) (decodedBytes : ℕ)
  | persistJobProgress (id : JobId)
  | shutdown
  /-- The process starts anew; `order` is the order in which the table lists the jobs, `held` the
  jobs that a global pause holds, and `isDir` the directories that exist. -/
  | restart (order : List JobId) (held : JobId → Bool) (isDir : Path → Bool)

def Priority.toI32 (priority : Priority) : ℤ := priority.toNat

def parsePriority (value : ℤ) : Priority :=
  if value = 0 then .low
  else if value = 1 then .normal
  else if value = 2 then .high
  else if value = 3 then .force
  else .normal

/-- `left.cmp(right)` of the queue's sort. -/
def QueueSortField.compare (config : Config) (field : QueueSortField) (left right : NzbJob) :
    Ordering :=
  match field with
  | .remaining =>
      let remaining (job : NzbJob) := max job.totalBytes 1 - job.downloadedBytes
      Ord.compare (remaining left * max right.totalBytes 1)
        (remaining right * max left.totalBytes 1)
  | .name =>
      Ord.compare (left.name.toList.flatMap config.lowercase)
        (right.name.toList.flatMap config.lowercase)
  | .size => Ord.compare left.totalBytes right.totalBytes
  | .age => Ord.compare right.addedAt left.addedAt
  | .priority => Ord.compare left.priority.toNat right.priority.toNat

def checkpointForJob (state : JobState) : JobCheckpoint where
  downloadedBytes := state.downloadedBytes
  outputDir := if state.outputDirClaimed then some state.outputDir else none

def isSuffixed (base claimed : List Char) : Bool :=
  claimed = base ||
    match claimed.drop base.length with
    | '.' :: digits => base.isPrefixOf claimed && digits ≠ [] && digits.all Char.isDigit
    | _ => false

/-- Whether a directory that an earlier attempt reserved is taken over. -/
def acceptsClaim (isDir : Path → Bool) (outputDir claimed : Path) : Bool :=
  claimed.parent.isSome && claimed.parent = outputDir.parent &&
    (match claimed.fileName, outputDir.fileName with
      | some claimed, some base => isSuffixed base claimed
      | _, _ => false) &&
    isDir claimed

namespace Row

def ofJob (job : NzbJob) : Row where
  name := job.name
  category := job.category
  status := job.status
  priority := Priority.toI32 job.priority
  totalBytes := job.totalBytes
  downloadedBytes := job.downloadedBytes
  addedAt := job.addedAt
  outputDir := job.outputDir
  checkpoint := none

def toJob (row : Row) : NzbJob where
  name := row.name
  category := row.category
  status := row.status
  priority := parsePriority row.priority
  totalBytes := row.totalBytes
  downloadedBytes := row.downloadedBytes
  addedAt := row.addedAt
  outputDir := row.outputDir

def claimedDir (row : Row) (isDir : Path → Bool) : Option Path :=
  (row.checkpoint.bind JobCheckpoint.outputDir).filter (acceptsClaim isDir row.outputDir)

def restoreStatus (row : Row) (held : Bool) : JobStatus :=
  if held then .paused
  else if row.status.isPostProcessing then .postProcessing
  else if row.status = .downloading then .queued
  else row.status

def restore (row : Row) (held : Bool) (isDir : Path → Bool) : JobState where
  toNzbJob := { row.toJob with
    status := row.restoreStatus held
    downloadedBytes :=
      if row.status = .downloading then
        (row.checkpoint.map JobCheckpoint.downloadedBytes).getD row.downloadedBytes
      else row.downloadedBytes
    outputDir :=
      if row.status = .downloading ∨ row.status.isPostProcessing then
        (row.claimedDir isDir).getD row.outputDir
      else row.outputDir }
  outputDirClaimed :=
    (row.status = .downloading || row.status.isPostProcessing) && (row.claimedDir isDir).isSome
  persistedStatus := none

end Row

namespace QueueManager

def init : QueueManager where
  jobs := ∅
  jobOrder := []
  rows := ∅
  admitted := ∅

section Operations

variable (config : Config) (manager : QueueManager) (id : JobId)

def addJob (job : NzbJob) : QueueManager :=
  if manager.rows.lookup id = none then
    { manager with
      jobs := manager.jobs.insert id {
        toNzbJob := { job with status := if job.status = .paused then .paused else .queued }
        outputDirClaimed := false
        persistedStatus := none }
      jobOrder := manager.jobOrder ++ [id]
      rows := manager.rows.insert id (Row.ofJob job)
      admitted := manager.admitted.insert id {
        name := job.name
        category := job.category
        priority := job.priority
        outputDir := job.outputDir } }
  else manager

def modifyJob (change : JobState → JobState) : QueueManager :=
  { manager with jobs := manager.jobs.modify id change }

def modifyRow (change : Row → Row) : QueueManager :=
  { manager with rows := manager.rows.modify id change }

def renameJob (newName : String) : QueueManager :=
  match manager.jobs.lookup id with
  | none => manager
  | some state =>
      match config.outputDirFor state.category (config.sanitizeJobName newName) with
      | none => manager
      | some outputDir =>
          manager.modifyJob id fun state => { state with
            name := config.sanitizeJobName newName
            outputDirClaimed := false
            outputDir := outputDir }

def changeJobCategory (category : String) : QueueManager :=
  if config.safeComponent category then
    match manager.jobs.lookup id with
    | none => manager
    | some state =>
        match config.outputDirFor category state.name with
        | none => manager
        | some outputDir =>
            manager.modifyJob id fun state => { state with
              category := category
              outputDirClaimed := false
              outputDir := outputDir }
  else manager

def priorityOf : ℕ := ((manager.jobs.lookup id).map fun state => state.priority.toNat).getD 0

def setJobPriority (priority : Priority) (ok : Bool) : QueueManager :=
  match manager.jobs.lookup id with
  | none => manager
  | some _ =>
      let changed := manager.modifyJob id fun state => { state with priority := priority }
      if ok then
        { changed with
          rows := manager.rows.modify id fun row => { row with priority := Priority.toI32 priority }
          admitted := manager.admitted.modify id fun admitted =>
            { admitted with priority := priority }
          jobOrder := manager.jobOrder.mergeSort fun left right =>
            changed.priorityOf right ≤ changed.priorityOf left }
      else changed

def moveJob (position : ℕ) : QueueManager :=
  if id ∈ manager.jobOrder then
    let order := manager.jobOrder.erase id
    { manager with jobOrder := order.insertIdx (min position order.length) id }
  else manager

def sortQueue (field : QueueSortField) (ascending : Bool) : QueueManager :=
  { manager with
    jobOrder := manager.jobOrder.mergeSort fun left right =>
      match manager.jobs.lookup left, manager.jobs.lookup right with
      | some left, some right =>
          let ordering := field.compare config left.toNzbJob right.toNzbJob
          if ascending then ordering.isLE else ordering.isGE
      | _, _ => true }

def queueUpdateProgress (state : JobState) : QueueManager :=
  manager.modifyRow id fun row => { row with
    status := state.status
    downloadedBytes := state.downloadedBytes }

/-- The job is paused, by the user or to make room, and its row says so. -/
def pauseJob (ok : Bool) : QueueManager :=
  match manager.jobs.lookup id with
  | none => manager
  | some state =>
      let paused := { state with status := JobStatus.paused, persistedStatus := some .paused }
      let changed := manager.modifyJob id fun _ => paused
      if ok then changed.queueUpdateProgress id paused else changed

def startJob : QueueManager :=
  manager.modifyJob id fun state =>
    if state.status = .queued then { state with status := .downloading } else state

def preempt (ok : Bool) : QueueManager :=
  match manager.jobs.lookup id with
  | some state => if state.status = .downloading then manager.pauseJob id ok else manager
  | none => manager

def progress (decodedBytes : ℕ) : QueueManager :=
  manager.modifyJob id fun state =>
    { state with downloadedBytes := state.downloadedBytes + decodedBytes }

/-- Save the counters and the checkpoint, and the status if it changed. -/
def persistJobProgress : QueueManager :=
  match manager.jobs.lookup id with
  | none => manager
  | some state =>
      let saved := manager.modifyRow id fun row => { row with
        downloadedBytes := state.downloadedBytes
        checkpoint := some (checkpointForJob state) }
      if state.persistedStatus = some state.status then saved
      else
        (saved.modifyRow id fun row => { row with status := state.status }).modifyJob id
          fun state => { state with persistedStatus := some state.status }

def shutdownState (state : JobState) : JobState :=
  if state.status = .downloading then { state with status := .queued } else state

def shutdownRow (state : JobState) (row : Row) : Row :=
  { row with
    status := (shutdownState state).status
    downloadedBytes := state.downloadedBytes
    checkpoint :=
      if state.status = .downloading then some (checkpointForJob state) else row.checkpoint }

def shutdown : QueueManager :=
  { manager with
    jobs := manager.jobs.mapValues fun _ => shutdownState
    rows := manager.rows.mapValues fun id row =>
      match manager.jobs.lookup id with
      | some state => shutdownRow state row
      | none => row }

/-- `ORDER BY priority DESC, added_at ASC` -/
def Listed (order : List JobId) : Prop :=
  order.Nodup ∧ (∀ id, id ∈ order ↔ id ∈ manager.rows) ∧
    order.Pairwise fun left right =>
      ∀ first ∈ manager.rows.lookup left, ∀ second ∈ manager.rows.lookup right,
        second.priority < first.priority ∨
          second.priority = first.priority ∧ first.addedAt ≤ second.addedAt

def restoreFromDb (order : List JobId) (held : JobId → Bool) (isDir : Path → Bool) : QueueManager :=
  { manager with
    jobs := manager.rows.mapValues fun id row => row.restore (held id) isDir
    jobOrder := order }

end Operations

inductive Step (config : Config) (manager : QueueManager) : Label → QueueManager → Prop where
  | addJob (id job) : Step config manager (.addJob id job) (manager.addJob id job)
  | renameJob (id newName) :
      Step config manager (.renameJob id newName) (manager.renameJob config id newName)
  | changeJobCategory (id category) :
      Step config manager (.changeJobCategory id category)
        (manager.changeJobCategory config id category)
  | setJobPriority (id priority ok) :
      Step config manager (.setJobPriority id priority ok) (manager.setJobPriority id priority ok)
  | moveJob (id position) : Step config manager (.moveJob id position) (manager.moveJob id position)
  | sortQueue (field ascending) :
      Step config manager (.sortQueue field ascending) (manager.sortQueue config field ascending)
  | pauseJob (id ok) : Step config manager (.pauseJob id ok) (manager.pauseJob id ok)
  | start (id) : Step config manager (.start id) (manager.startJob id)
  | preempt (id ok) : Step config manager (.preempt id ok) (manager.preempt id ok)
  | progress (id decodedBytes) :
      Step config manager (.progress id decodedBytes) (manager.progress id decodedBytes)
  | persistJobProgress (id) :
      Step config manager (.persistJobProgress id) (manager.persistJobProgress id)
  | shutdown : Step config manager .shutdown manager.shutdown
  | restart (order held isDir) (listed : manager.Listed order) :
      Step config manager (.restart order held isDir) (manager.restoreFromDb order held isDir)

end QueueManager

end Rustnzb.Web.Edits
