import Rustnzb.Web.Queue.Manager

/-!
# From the queue to the history

One job: its rows in the two tables, its directories and what the process does with it.
`move_to_history` is taken apart into its file moves and its commits, each of which may fail. The
process may stop before any of these steps, and `restore_from_db` continues with the row it finds.

A job can be paused at any time before `move_to_history`. A resume while it is post-processing, a
removal by the user and the retention of the history are left out.
-/

namespace Rustnzb.Web.History

open Queue (JobStatus)

structure Entry where
  name : String
  regular : Bool
  symlink : Bool
  /-- `safe_join` takes its name. -/
  safe : Bool
  /-- It is, or it contains, a file that is neither an archive nor a PAR2 file. -/
  usable : Bool
  deriving DecidableEq

def hasUsableOutput (entries : List Entry) : Bool :=
  entries.any Entry.usable

/-- `rename` worked, or `copy` and `remove_file` did; the copy was made, but the file is still
there; or neither worked. -/
inductive MoveResult where
  | moved
  | copied
  | failed
  deriving DecidableEq

/-- What `on_job_finished` hands to `move_to_history`, and what it has left in the directories. -/
structure Verdict where
  failed : Bool
  ppLevel : ℕ
  stages : Bool
  output : List Entry
  work : List Entry
  deriving DecidableEq

inductive Phase where
  | stopped
  | listed
  | downloading
  /-- At the start of `on_job_finished`. -/
  | finishing
  | postProcessing
  /-- `move_to_history` moves the rest of the files. -/
  | moving (finalStatus : JobStatus) (rest : List Entry)
  | lookingUp
  | inserting
  | storingLogs (historyPersisted : Bool)
  | removing (historyPersisted : Bool)
  | cleaning
  | persisting
  | settled
  deriving DecidableEq

structure State where
  queue : Option JobStatus
  history : List JobStatus
  output : List Entry
  work : List Entry
  status : JobStatus
  persistedStatus : Option JobStatus
  phase : Phase
  /-- The outcome the job had when it first reached `move_to_history`. No function reads it. -/
  first : Option JobStatus
  deriving DecidableEq

inductive Label where
  | control (status : JobStatus) (written : Bool)
  | launch
  | checkpoint (written : Bool)
  | finish
  | abort
  | persist (written : Bool)
  | diskFull
  | pipeline (verdict : Verdict)
  | move (result : MoveResult)
  | unreadable
  | moved
  | lookUp (read : Bool)
  | insert (written : Bool)
  | storeLogs (written : Bool)
  | remove (written : Bool)
  | cleanUp (removed : Bool)
  | stop
  | restart (pausedByGlobal : Bool)
  deriving DecidableEq

namespace State

/-- `add_job` has written the row. -/
def start : State where
  queue := some .queued
  history := []
  output := []
  work := []
  status := .queued
  persistedStatus := some .queued
  phase := .listed
  first := none

def enter (state : State) (phase : Phase) : State := { state with phase := phase }

def setStatus (state : State) (status : JobStatus) : State := { state with status := status }

def updateStatus (state : State) (status : JobStatus) : State :=
  { state with queue := state.queue.map fun _ => status }

def persistJobProgress (state : State) (written : Bool) : State :=
  if state.persistedStatus = some state.status then state
  else if written then
    { state.updateStatus state.status with persistedStatus := some state.status }
  else state

def control (state : State) (status : JobStatus) (written : Bool) : State :=
  let state := { state with status := status, persistedStatus := some status }
  if written then state.updateStatus status else state

def finalStatus (state : State) (ppLevel : ℕ) (stages : Bool) : JobStatus :=
  if state.status = .failed then .failed
  else if 2 ≤ ppLevel ∧ stages ∧ !hasUsableOutput state.output ∧ !hasUsableOutput state.work then
    .failed
  else .completed

def leave (state : State) (verdict : Verdict) : State :=
  { state with
    output := verdict.output
    work := verdict.work
    status := if verdict.failed then .failed else state.status }

def moveToHistory (state : State) (ppLevel : ℕ) (stages : Bool) : State :=
  let finalStatus := state.finalStatus ppLevel stages
  { state with
    phase := .moving finalStatus (if finalStatus = .completed then state.work else [])
    first := state.first.or (some finalStatus) }

/-- Only a regular file with a safe name is moved, and never onto a symlink. -/
def movable (state : State) (entry : Entry) : Bool :=
  entry.regular && entry.safe &&
    !state.output.any fun other => other.name = entry.name && other.symlink

def moveEntry (state : State) (entry : Entry) (result : MoveResult) : State :=
  if state.movable entry then
    match result with
    | .failed => state
    | .copied =>
        { state with output := state.output.filter (·.name ≠ entry.name) ++ [entry] }
    | .moved =>
        { state with
          output := state.output.filter (·.name ≠ entry.name) ++ [entry]
          work := state.work.filter (·.name ≠ entry.name) }
  else state

/-- `history_insert_with_carried_bytes`. -/
def historyInsert (state : State) : State :=
  { state with history := state.history ++ [state.status] }

def queueRemove (state : State) (written : Bool) : State :=
  { state with queue := if written then none else state.queue }

/-- `cleanup_terminal_work_dir`. -/
def cleanUp (state : State) (removed : Bool) : State :=
  if state.status = .failed ∧ removed then { state with work := [] } else state

/-- `restore_from_db` for the row of the job. -/
def restore (state : State) (pausedByGlobal : Bool) : State :=
  match state.queue with
  | none => { state with phase := .settled }
  | some row =>
      let status := if row.isPostProcessing then .postProcessing else row
      { state with
        status :=
          if pausedByGlobal then .paused
          else if status = .downloading then .queued
          else status
        persistedStatus := none
        phase := if row.isPostProcessing then .finishing else .listed }

def next (state : State) (label : Label) : Option State :=
  match state.phase, label with
  | .stopped, .restart pausedByGlobal => some (state.restore pausedByGlobal)
  | .listed, .control status written =>
      if status.isOpen then some (state.control status written) else none
  | .listed, .launch => some ((state.setStatus .downloading).enter .downloading)
  | .downloading, .control status written =>
      if status.isOpen then some (state.control status written) else none
  | .downloading, .checkpoint written => some (state.persistJobProgress written)
  | .downloading, .finish => some ((state.setStatus .postProcessing).enter .finishing)
  | .downloading, .abort => some ((state.setStatus .failed).moveToHistory 0 false)
  | .finishing, .control .paused written => some (state.control .paused written)
  | .finishing, .persist written => some ((state.persistJobProgress written).enter .postProcessing)
  | .postProcessing, .control .paused written => some (state.control .paused written)
  | .postProcessing, .diskFull => some ((state.setStatus .failed).moveToHistory 0 true)
  | .postProcessing, .pipeline verdict =>
      some ((state.leave verdict).moveToHistory verdict.ppLevel verdict.stages)
  | .moving finalStatus (entry :: rest), .move result =>
      some ((state.moveEntry entry result).enter (.moving finalStatus rest))
  | .moving finalStatus (_ :: _), .unreadable => some (state.enter (.moving finalStatus []))
  | .moving finalStatus [], .moved => some ((state.setStatus finalStatus).enter .lookingUp)
  | .lookingUp, .lookUp true =>
      some (state.enter (if state.history = [] then .inserting else .storingLogs true))
  | .lookingUp, .lookUp false => some (state.enter (.storingLogs false))
  | .inserting, .insert true =>
      some (state.historyInsert.enter (.storingLogs true))
  | .inserting, .insert false => some (state.enter (.storingLogs false))
  | .storingLogs historyPersisted, .storeLogs _ => some (state.enter (.removing historyPersisted))
  | .removing historyPersisted, .remove written =>
      some ((state.queueRemove written).enter
        (if historyPersisted then .cleaning else .persisting))
  | .cleaning, .cleanUp removed => some ((state.cleanUp removed).enter .persisting)
  | .persisting, .persist written => some ((state.persistJobProgress written).enter .settled)
  | .stopped, .stop => none
  | _, .stop => some (state.enter .stopped)
  | _, _ => none

end State

def Step (state : State) (label : Label) (state' : State) : Prop :=
  state.next label = some state'

end Rustnzb.Web.History
