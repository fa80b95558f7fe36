import Mathlib.Data.Finset.Card
import Rustnzb.Lib.Run

/-!
# The media library's queue loop

An NZB is enqueued by storing its blob and inserting a queue row. The loop polls for a queue row
outside the ids it is working on and spawns a task, which processes the NZB and then moves the
item from the queue to the history, or pauses it.

Every database call is a step of its own and may fail. The pipeline itself is not in the
repository: `process` may end in any of its results. What it writes for the file tree is left out.
-/

namespace Rustnzb.Dav

open Lib

abbrev Uuid := ℕ

def maxConcurrent : ℕ := 2

def retryPause : ℕ := 60

structure QueueItem where
  id : Uuid
  createdAt : ℕ
  fileName : String
  jobName : String
  nzbFileSize : ℕ
  totalSegmentBytes : ℕ
  category : String
  priority : ℤ
  postProcessing : ℤ
  pauseUntil : Option ℕ
  deriving DecidableEq

inductive DownloadStatus where
  | completed
  | failed
  deriving DecidableEq, Repr

structure HistoryItem where
  createdAt : ℕ
  fileName : String
  jobName : String
  category : String
  downloadStatus : DownloadStatus
  totalSegmentBytes : ℕ
  downloadTimeSeconds : ℕ
  failMessage : Option String
  downloadDirId : Option Uuid
  nzbBlobId : Option Uuid
  deriving DecidableEq

inductive ProcessResult where
  | completed (jobDirId : Uuid)
  | retryable (message : String)
  | failed (message : String)
  | panics
  deriving DecidableEq

/-- The next call of `process_item`. -/
inductive Stage where
  | opening
  | loading
  | processing
  /-- The call of `insert_history_item`. -/
  | recording (status : DownloadStatus) (failMessage : Option String)
      (downloadDirId : Option Uuid)
  /-- The call of `delete_queue_item`, with what became of the insert before it. -/
  | deleting (recorded : Bool)
  | pausing
  | returned
  | panicked
  deriving DecidableEq

structure Task where
  item : QueueItem
  stage : Stage
  deriving DecidableEq

structure DavQueue where
  now : ℕ
  blobs : List Uuid
  queue : List QueueItem
  history : List HistoryItem
  drawn : List Uuid
  /-- Calls of `enqueue_nzb` whose blob is stored. -/
  pending : List QueueItem
  enqueued : List Uuid
  /-- The `JoinSet`: tasks that the loop has not joined yet. -/
  active : List Task
  activeIds : Finset Uuid

inductive Label where
  | elapse (seconds : ℕ)
  | putNzbBlob (id : Uuid) (fileName jobName : String) (nzbData : List UInt8) (ok : Bool)
  | insertQueueItem (index : ℕ) (ok : Bool)
  | poll (found : Option Uuid)
  | join (index : ℕ)
  | openDb (index : ℕ) (ok : Bool)
  | getNzbBlob (index : ℕ) (error : Option String)
  | process (index : ℕ) (result : ProcessResult)
  | insertHistoryItem (index : ℕ) (ok : Bool)
  | deleteQueueItem (index : ℕ) (ok : Bool)
  | updatePauseUntil (index : ℕ) (ok : Bool)
  /-- The process stops, and the loop is started on the same database. -/
  | restart

namespace DavQueue

def start : DavQueue where
  now := 0
  blobs := []
  queue := []
  history := []
  drawn := []
  pending := []
  enqueued := []
  active := []
  activeIds := ∅

def isPaused (state : DavQueue) (item : QueueItem) : Bool :=
  match item.pauseUntil with
  | none => false
  | some deadline => state.now < deadline

/-- `get_next_queue_item` may return this item. -/
def isNext (state : DavQueue) (item : QueueItem) : Bool :=
  !state.isPaused item && decide (item.id ∉ state.activeIds)

def setStage (state : DavQueue) (index : ℕ) (item : QueueItem) (stage : Stage) : DavQueue :=
  { state with active := state.active.set index { item := item, stage := stage } }

def putNzbBlob (state : DavQueue) (id : Uuid) (fileName jobName : String)
    (nzbData : List UInt8) (ok : Bool) : Option DavQueue :=
  if id ∈ state.drawn then none
  else if ok then
    some { state with
      drawn := id :: state.drawn
      blobs := id :: state.blobs
      pending := state.pending ++ [{
        id := id
        createdAt := state.now
        fileName := fileName
        jobName := jobName
        nzbFileSize := nzbData.length
        totalSegmentBytes := 0
        category := ""
        priority := 0
        postProcessing := 0
        pauseUntil := none }] }
  else some { state with drawn := id :: state.drawn }

def insertQueueItem (state : DavQueue) (index : ℕ) (ok : Bool) : Option DavQueue :=
  match state.pending[index]? with
  | none => none
  | some item =>
      if ok then
        some { state with
          pending := state.pending.eraseIdx index
          queue := state.queue ++ [item]
          enqueued := item.id :: state.enqueued }
      else some { state with pending := state.pending.eraseIdx index }

/-- Poll while fewer than `MAX_CONCURRENT` tasks are in the set. -/
def poll (state : DavQueue) : Option Uuid → Option DavQueue
  | none => some state
  | some id =>
      if state.active.length < maxConcurrent then
        match state.queue.find? fun item => decide (item.id = id) && state.isNext item with
        | none => none
        | some item =>
            some { state with
              active := state.active ++ [{ item := item, stage := .opening }]
              activeIds := insert item.id state.activeIds }
      else none

/-- A task that returned gives its id back; one that panicked has lost it. -/
def join (state : DavQueue) (index : ℕ) : Option DavQueue :=
  match state.active[index]? with
  | some ⟨item, .returned⟩ =>
      some { state with
        active := state.active.eraseIdx index
        activeIds := state.activeIds.erase item.id }
  | some ⟨_, .panicked⟩ => some { state with active := state.active.eraseIdx index }
  | _ => none

def openDb (state : DavQueue) (index : ℕ) (ok : Bool) : Option DavQueue :=
  match state.active[index]? with
  | some ⟨item, .opening⟩ =>
      some (state.setStage index item (if ok then .loading else .returned))
  | _ => none

def getNzbBlob (state : DavQueue) (index : ℕ) (error : Option String) : Option DavQueue :=
  match state.active[index]? with
  | some ⟨item, .loading⟩ =>
      match error with
      | some message => some (state.setStage index item (.recording .failed (some message) none))
      | none => if item.id ∈ state.blobs then some (state.setStage index item .processing) else none
  | _ => none

def process (state : DavQueue) (index : ℕ) (result : ProcessResult) : Option DavQueue :=
  match state.active[index]? with
  | some ⟨item, .processing⟩ =>
      match result with
      | .completed jobDirId =>
          some (state.setStage index item (.recording .completed none (some jobDirId)))
      | .retryable _ => some (state.setStage index item .pausing)
      | .failed message =>
          some (state.setStage index item (.recording .failed (some message) none))
      | .panics => some (state.setStage index item .panicked)
  | _ => none

def historyOf (state : DavQueue) (item : QueueItem) (status : DownloadStatus)
    (failMessage : Option String) (downloadDirId : Option Uuid) : HistoryItem where
  createdAt := state.now
  fileName := item.fileName
  jobName := item.jobName
  category := item.category
  downloadStatus := status
  totalSegmentBytes := item.totalSegmentBytes
  downloadTimeSeconds := 0
  failMessage := failMessage
  downloadDirId := downloadDirId
  nzbBlobId := some item.id

/-- The first call of `finish_item`; its error is only logged. -/
def insertHistoryItem (state : DavQueue) (index : ℕ) (ok : Bool) : Option DavQueue :=
  match state.active[index]? with
  | some ⟨item, .recording status failMessage downloadDirId⟩ =>
      if ok then
        some { state.setStage index item (.deleting true) with
          history := state.history ++ [state.historyOf item status failMessage downloadDirId] }
      else some (state.setStage index item (.deleting false))
  | _ => none

/-- The second call of `finish_item`, whatever became of the first. -/
def deleteQueueItem (state : DavQueue) (index : ℕ) (ok : Bool) : Option DavQueue :=
  match state.active[index]? with
  | some ⟨item, .deleting _⟩ =>
      if ok then
        some { state.setStage index item .returned with
          queue := state.queue.filter fun row => decide (row.id ≠ item.id) }
      else some (state.setStage index item .returned)
  | _ => none

def updatePauseUntil (state : DavQueue) (index : ℕ) (ok : Bool) : Option DavQueue :=
  match state.active[index]? with
  | some ⟨item, .pausing⟩ =>
      if ok then
        some { state.setStage index item .returned with
          queue := state.queue.map fun row =>
            if row.id = item.id then { row with pauseUntil := some (state.now + retryPause) }
            else row }
      else some (state.setStage index item .returned)
  | _ => none

/-- One step. `none`: it cannot happen in this state. -/
def step (state : DavQueue) : Label → Option DavQueue
  | .elapse seconds => some { state with now := state.now + seconds }
  | .putNzbBlob id fileName jobName nzbData ok => state.putNzbBlob id fileName jobName nzbData ok
  | .insertQueueItem index ok => state.insertQueueItem index ok
  | .poll found => state.poll found
  | .join index => state.join index
  | .openDb index ok => state.openDb index ok
  | .getNzbBlob index error => state.getNzbBlob index error
  | .process index result => state.process index result
  | .insertHistoryItem index ok => state.insertHistoryItem index ok
  | .deleteQueueItem index ok => state.deleteQueueItem index ok
  | .updatePauseUntil index ok => state.updatePauseUntil index ok
  | .restart => some { state with pending := [], active := [], activeIds := ∅ }

def Step (state : DavQueue) (label : Label) (next : DavQueue) : Prop :=
  state.step label = some next

end DavQueue

end Rustnzb.Dav
