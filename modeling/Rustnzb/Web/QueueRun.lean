import Rustnzb.Dispatch.IncompleteNzb
import Rustnzb.Postproc.Par2
import Rustnzb.Web.Checkpoint

/-!
# A job between the engine, the queue manager and post-processing

The engine reports to the handler of its download through a bounded channel and drops what does not
fit. The queue manager counts failures from those reports, saves its count with a checkpoint, and
hands the count of the terminal message to post-processing; after a restart it hands over the saved
count instead. Here one job is followed through all of it, together with what is in the database and
the segments that have been written.

A save takes one snapshot and is one step, except where a crash tears it. The names, sizes,
timings and statistics of a job are left out.
-/

namespace Rustnzb.Web

open Dispatch (NzbJob NzbFile FileId ServerId WorkItem JobRun JobEvent Terminal IterationOrder
  FailureReport nzbSegmentGap incompleteNzbReason par2SortKey)
open Postproc (Par2FileSet Name)

inductive ProgressUpdate where
  | articleComplete (fileId : FileId) (segmentNumber decodedBytes : ℕ)
  | articleFailed (fileId : FileId) (segmentNumber : ℕ) (serverId : ServerId)
  | jobFinished (success : Bool) (articlesFailed : ℕ)
  | jobAborted (reason : String) (articlesFailed : ℕ)
  /-- `ArticleOutcome`, `WaitingForProviders` and `ProvidersAvailable`. -/
  | other

namespace ProgressUpdate

def ofTerminal : Terminal → ProgressUpdate
  | .jobFinished success articlesFailed _ => .jobFinished success articlesFailed
  | .jobAborted reason articlesFailed => .jobAborted reason articlesFailed

def ofArrival (decodedBytes : ℕ) (item : WorkItem) : ProgressUpdate :=
  .articleComplete item.fileId item.segmentNumber decodedBytes

def ofFailure (report : FailureReport) : ProgressUpdate :=
  .articleFailed report.item.fileId report.item.segmentNumber report.failure.serverId

def isFailure : ProgressUpdate → Bool
  | .articleFailed .. => true
  | _ => false

end ProgressUpdate

def progressChannelCapacity : ℕ := 10000

def trySendProgress (channel : List ProgressUpdate) (update : ProgressUpdate) :
    List ProgressUpdate :=
  if channel.length < progressChannelCapacity then channel ++ [update] else channel

inductive JobStatus where
  | queued
  | downloading
  | paused
  | postProcessing
  | failed
  deriving DecidableEq

structure JobState where
  job : NzbJob
  articlesFailed : ℕ
  status : JobStatus
  /-- `nzb_data` is there and the files of the job with it. -/
  loaded : Bool

/-- A context of the engine and the handler that reads its channel. -/
structure Download where
  engine : JobRun
  channel : List ProgressUpdate

structure QueueRow where
  status : JobStatus
  articlesFailed : ℕ
  checkpoint : Option JobCheckpoint

structure World where
  memory : Option JobState
  downloads : List Download
  stored : Option QueueRow
  /-- The calls of `on_job_finished` before `run_stages`, by the count they were given. -/
  finishing : List ℕ
  written : List (FileId × ℕ)

/-- How far a save had come when the process ended. -/
inductive Torn where
  | unsaved
  | counters
  | checkpointed
  deriving DecidableEq

inductive QueueEvent where
  /-- `launch_download` up to the disk check. -/
  | load
  | launch (enabledServerIds : List ServerId) (deferVolumes : Bool) (order : IterationOrder)
      (damageHint : ℕ) (damage : Option ℕ)
  | engine (download : ℕ) (event : JobEvent) (decodedBytes : ℕ)
  | sendOther (download : ℕ)
  /-- `handle_progress` takes an update; `unrepairable` when `parity_diagnosis` finds a reason. -/
  | handle (download : ℕ) (unrepairable : Bool)
  | setStatus (status : JobStatus) (saves : Bool)
  /-- `persist_job_progress`. -/
  | save
  /-- `queue_update_progress`. -/
  | saveProgress
  | crash (torn : Torn)
  | restore (pausedByGlobal : Bool)
  /-- A call of `on_job_finished` gets to `run_stages`, or ends before. -/
  | runStages (call : ℕ)
  /-- `move_to_history`. -/
  | archive
  | remove

namespace QueueRow

def saveCounters (row : QueueRow) (state : JobState) : QueueRow :=
  { row with articlesFailed := state.articlesFailed }

def saveCheckpoint (row : QueueRow) (state : JobState) : QueueRow :=
  { row with checkpoint := some (checkpointForJob state.job state.articlesFailed) }

def saveStatus (row : QueueRow) (state : JobState) : QueueRow :=
  { row with status := state.status }

def tear (row : QueueRow) (state : JobState) : Torn → QueueRow
  | .unsaved => row
  | .counters => row.saveCounters state
  | .checkpointed => (row.saveCounters state).saveCheckpoint state

def load (row : QueueRow) (nzb : NzbJob) (state : JobState) : JobState :=
  match row.checkpoint with
  | some checkpoint =>
      { state with
        job := applyCheckpoint nzb checkpoint
        articlesFailed := checkpoint.articlesFailed
        loaded := true }
  | none => { state with job := nzb, loaded := true }

def restore (row : QueueRow) (nzb : NzbJob) : JobState where
  job := { nzb with files := [] }
  articlesFailed := row.articlesFailed
  status := row.status
  loaded := false

end QueueRow

namespace World

def admitted (job : NzbJob) (written : List (FileId × ℕ)) (carries : Bool) : World where
  memory := some { job := job, articlesFailed := 0, status := .queued, loaded := true }
  downloads := []
  stored := some
    { status := .queued
      articlesFailed := 0
      checkpoint := if carries then some (checkpointForJob job 0) else none }
  finishing := []
  written := written

def finishAborted (world : World) (state : JobState) (download articlesFailed : ℕ) : World :=
  { world with
    memory := some { state with
      articlesFailed := max state.articlesFailed articlesFailed
      status := .failed }
    stored := none
    downloads := world.downloads.eraseIdx download }

/-- The handler of `download` takes `update`, with `rest` left in its channel. -/
def handle (world : World) (state : JobState) (download : ℕ) (engine : JobRun)
    (rest : List ProgressUpdate) (unrepairable : Bool) : ProgressUpdate → World
  | .articleComplete fileId segmentNumber decodedBytes =>
      { world with
        memory := some { state with
          job := markDownloaded state.job fileId segmentNumber decodedBytes }
        downloads := world.downloads.set download { engine := engine, channel := rest } }
  | .articleFailed fileId segmentNumber serverId =>
      { world with
        memory := some { state with
          job := recordFailure state.job fileId segmentNumber serverId
          articlesFailed := state.articlesFailed + 1 }
        downloads := world.downloads.set download { engine := engine, channel := rest } }
  | .jobFinished _ articlesFailed =>
      if unrepairable then world.finishAborted state download articlesFailed
      else
        { world with
          memory := some { state with status := .postProcessing }
          finishing := world.finishing ++ [articlesFailed]
          downloads := world.downloads.eraseIdx download }
  | .jobAborted _ articlesFailed => world.finishAborted state download articlesFailed
  | .other =>
      { world with
        downloads := world.downloads.set download { engine := engine, channel := rest } }

def updates (engine : JobRun) (event : JobEvent) (decodedBytes : ℕ) (next : JobRun) :
    List ProgressUpdate :=
  (engine.failure event).toList.map ProgressUpdate.ofFailure ++
    ((engine.arrival event).toList.map (ProgressUpdate.ofArrival decodedBytes) ++
      (next.ctx.sent.drop engine.ctx.sent.length).map ProgressUpdate.ofTerminal)

def step (nzb : NzbJob) (world : World) : QueueEvent → Option World
  | .load =>
      match world.memory, world.stored with
      | some state, some row =>
          -- the job was set to downloading before
          if state.loaded || state.status = .postProcessing then none
          else some { world with memory := some (row.load nzb state) }
      | _, _ => none
  | .launch enabledServerIds deferVolumes order damageHint damage =>
      match world.memory with
      | some state =>
          if !state.loaded || world.downloads.any fun download => download.engine.registered then
            none
          else
            some { world with
              downloads := world.downloads ++
                [{ engine := JobRun.submitted state.job enabledServerIds deferVolumes order
                      (incompleteNzbReason state.job) damageHint damage
                   channel := [] }] }
      | none => none
  | .engine index event decodedBytes =>
      match world.downloads[index]? with
      | some download =>
          (download.engine.step event).map fun next =>
            { world with
              downloads := world.downloads.set index
                { engine := next
                  channel := (updates download.engine event decodedBytes next).foldl
                    trySendProgress download.channel }
              written := world.written ++
                (download.engine.arrival event).toList.map WorkItem.key }
      | none => none
  | .sendOther index =>
      match world.downloads[index]? with
      | some download =>
          some { world with
            downloads := world.downloads.set index
              { download with channel := trySendProgress download.channel .other } }
      | none => none
  | .handle index unrepairable =>
      match world.memory, world.downloads[index]? with
      | some state, some { engine, channel := update :: rest } =>
          some (world.handle state index engine rest unrepairable update)
      | _, _ => none
  | .setStatus status saves =>
      match world.memory with
      | some state =>
          if status = .postProcessing || status = .failed then none
          else
            let state := { state with status := status }
            some { world with
              memory := some state
              stored := if saves then
                world.stored.map fun row => (row.saveCounters state).saveStatus state
              else world.stored }
      | none => none
  | .save =>
      world.memory.map fun state =>
        { world with
          stored := world.stored.map fun row =>
            ((row.saveCounters state).saveCheckpoint state).saveStatus state }
  | .saveProgress =>
      world.memory.map fun state =>
        { world with
          stored := world.stored.map fun row => (row.saveCounters state).saveStatus state }
  | .crash torn =>
      some { world with
        memory := none
        downloads := []
        finishing := []
        stored := match world.memory with
          | some state => world.stored.map fun row => row.tear state torn
          | none => world.stored }
  | .restore pausedByGlobal =>
      match world.memory, world.stored with
      | none, some row =>
          let state := { row.restore nzb with
            status := if pausedByGlobal then .paused
              else if row.status = .downloading then .queued else row.status }
          some { world with
            memory := some (if row.status = .downloading then row.load nzb state else state)
            finishing := if row.status = .postProcessing then [row.articlesFailed] else [] }
      | _, _ => none
  | .runStages call =>
      if call < world.finishing.length then
        some { world with finishing := world.finishing.eraseIdx call }
      else none
  | .archive => some { world with stored := none }
  | .remove =>
      some { world with memory := none, downloads := [], stored := none, finishing := [] }

def Honest (world : World) : QueueEvent → Prop
  | .engine index event _ => ∀ download ∈ world.downloads[index]?, download.engine.Honest event
  | _ => True

def Step (nzb : NzbJob) (world : World) (event : QueueEvent) (next : World) : Prop :=
  world.step nzb event = some next ∧ world.Honest event

end World

/-! ## The verify decision -/

inductive VerifyChoice where
  | absent
  | unparsed
  /-- None could be parsed; the repair stage runs without a verification. -/
  | repairOnly
  | skipped
  | verified
  deriving DecidableEq

/-- What `run_stages` does about PAR2, given the files it finds and the sets they parse into. -/
def verifyChoice (par2Files : List Name) (fileSets : List Par2FileSet) (articlesFailed : ℕ) :
    VerifyChoice :=
  if par2Files.isEmpty then .absent
  else if fileSets.isEmpty then if articlesFailed = 0 then .unparsed else .repairOnly
  else if articlesFailed = 0 then .skipped
  else .verified

end Rustnzb.Web
