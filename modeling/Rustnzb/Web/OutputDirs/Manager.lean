import Rustnzb.Dispatch.WorkItem
import Rustnzb.Lib.DirTree
import Rustnzb.Lib.Run

/-!
# Output directories of jobs

Jobs are unpacked while they are downloaded, finished, renamed, moved to the history and restored
after a restart, in any order. A job reserves its output directory with `create_dir` when something
is first going to be written there. An extraction writes to the path it was started with.

What `output_dir_for` gives is left open, as are the outcomes of the extractions, which rows say
that their job was active, and whatever may fail. Not modelled is that the pipeline waits for the
extraction it took over, and that there is no second one after a failed article: there are only more
orders. Not in the source are the makers of the directories and the owners of the files, what each
extraction and move has produced, the reservations, and the contents of the directories that were
given up.
-/

namespace Rustnzb.Web.OutputDirs

open Dispatch (JobId)
open Lib (Registry DirTree)

abbrev Path := List String

structure File where
  owner : Option JobId
  name : String
  deriving DecidableEq

abbrev Tree := DirTree String JobId File

def parent (path : Path) : Option Path :=
  if path = [] then none else some path.dropLast

def fileName (path : Path) : Option String := path.getLast?

def maxOutputDirSuffix : ℕ := 9999

def freeCandidate (tree : Tree) (base : Path) (name : String) (suffix : ℕ) : ℕ → Option Path
  | 0 => none
  | left + 1 =>
      let candidate :=
        if suffix = 0 then base else base.dropLast ++ [name ++ "." ++ toString suffix]
      if candidate ∈ tree then freeCandidate tree base name (suffix + 1) left else some candidate

/-- The directory that is going to be reserved. The parent is made first. -/
def candidateDir (tree : Tree) (base : Path) : Option Path :=
  (fileName base).bind fun name =>
    freeCandidate (tree.createDirAll base.dropLast) base name 0 (maxOutputDirSuffix + 1)

/-- `created`: nothing goes wrong on the way. -/
def claimUniqueOutputDir (tree : Tree) (base : Path) (owner : JobId) (created : Bool) :
    Option (Path × Tree) :=
  if created then
    (candidateDir tree base).map fun dir =>
      (dir, (tree.createDirAll base.dropLast).createDir dir owner)
  else none

def isSuffixed (base name : String) : Bool :=
  (base.toList ++ ['.']).isPrefixOf name.toList &&
    let suffix := name.toList.drop (base.toList.length + 1)
    !suffix.isEmpty && suffix.all Char.isDigit

def restoreClaimedOutputDir (tree : Tree) (outputDir : Path) (checkpoint : Option Path) :
    Option Path :=
  checkpoint.filter fun claimed =>
    (parent claimed).isSome && parent claimed = parent outputDir &&
      (match fileName claimed, fileName outputDir with
      | some claimed, some base => claimed = base || isSuffixed base claimed
      | _, _ => false) &&
        claimed ∈ tree

structure JobState where
  outputDir : Path
  outputDirClaimed : Bool
  nzbData : Bool
  directUnpacker : Bool
  /-- The job has been through `move_to_history`. -/
  moved : Bool
  deriving DecidableEq

/-- A row of the queue; `checkpoint` is the `output_dir` of its `job_data`. -/
structure Row where
  outputDir : Path
  checkpoint : Option Path
  deriving DecidableEq

/-- A file that an extraction or the final move of a job has written. -/
structure Product where
  job : JobId
  dir : Path
  name : String
  deriving DecidableEq

structure Store where
  dirs : Tree
  produced : List Product

structure HistoryEntry extends Store where
  id : JobId
  completed : Bool
  outputDir : Path

structure Claim where
  job : JobId
  dir : Path
  held : List File
  deriving DecidableEq

structure QueueManager extends Store where
  jobs : Registry JobId JobState
  rows : Registry JobId Row
  extractors : List (JobId × Path)
  /-- The runs of `on_job_finished`, each with its target. -/
  pipelines : Registry JobId Path
  snapshots : List (JobId × Option Path)
  history : List HistoryEntry
  issued : List JobId
  claims : List Claim
  released : List (List File)

inductive Label where
  | addJob (id : JobId) (outputDir : Path)
  /-- `launch_download`, as far as it reads the checkpoint. -/
  | launch (id : JobId) (read : Bool)
  /-- The first volume of an archive is there; `found`: there is an `unrar`. -/
  | directUnpack (id : JobId) (created found : Bool)
  | extract (id : JobId) (dir : Path) (name : String)
  | extractorEnds (id : JobId) (dir : Path)
  | abortUnpack (id : JobId)
  | snapshot (id : JobId)
  | store (id : JobId) (claimed : Option Path) (stored : Bool)
  /-- `rename_job` and `change_job_category`, with the new target. -/
  | retarget (id : JobId) (outputDir : Path) (removed : Bool)
  | onJobFinished (id : JobId) (created : Bool)
  | pipelineExtract (id : JobId) (name : String)
  | moveToHistory (id : JobId) (completed created : Bool) (names : List String)
      (removed inserted queueRemoved : Bool)
  | leave (id : JobId)
  /-- The jobs of `active` get their checkpoints applied, if they are `read`. -/
  | restart (listed : Bool) (active read : List JobId)
  | userMakes (dir : Path) (names : List String)
  deriving DecidableEq

namespace QueueManager

variable (manager : QueueManager) (id : JobId)

def init : QueueManager where
  dirs := ∅
  produced := []
  jobs := ∅
  rows := ∅
  extractors := []
  pipelines := ∅
  snapshots := []
  history := []
  issued := []
  claims := []
  released := []

def setJob (job : JobState) : QueueManager :=
  { manager with jobs := manager.jobs.insert id job }

def addJob (outputDir : Path) : QueueManager :=
  { manager with
    jobs := manager.jobs.insert id ⟨outputDir, false, true, false, false⟩
    rows := manager.rows.insert id ⟨outputDir, none⟩
    issued := id :: manager.issued }

def checkpoint (read : Bool) : Option Path :=
  if read then (manager.rows.lookup id).bind Row.checkpoint else none

def launch (job : JobState) (read : Bool) : QueueManager :=
  let loaded := { job with nzbData := true }
  if job.outputDirClaimed then manager.setJob id loaded
  else
    match restoreClaimedOutputDir manager.dirs job.outputDir (manager.checkpoint id read) with
    | some claimed =>
        manager.setJob id { loaded with outputDir := claimed, outputDirClaimed := true }
    | none => manager.setJob id loaded

/-- `claim_output_dir_fields`, which sets the job, too. -/
def claimOutputDir (job : JobState) (created : Bool) : QueueManager × JobState :=
  if job.outputDirClaimed then (manager, job)
  else
    match claimUniqueOutputDir manager.dirs job.outputDir id created with
    | some (dir, dirs) =>
        ({ manager with
          dirs := dirs
          claims := manager.claims ++ [⟨id, dir, dirs.filesUnder dir⟩] },
          { job with outputDir := dir, outputDirClaimed := true })
    | none => (manager, job)

def directUnpack (job : JobState) (created found : Bool) : QueueManager :=
  let (claimed, job) := manager.claimOutputDir id job created
  if found then
    { claimed.setJob id { job with directUnpacker := true } with
      extractors := (id, job.outputDir) :: claimed.extractors }
  else claimed.setJob id job

def produce (dir : Path) (name : String) : QueueManager :=
  { manager with
    dirs := manager.dirs.write dir ⟨some id, name⟩
    produced := ⟨id, dir, name⟩ :: manager.produced }

def store (claimed : Option Path) (stored : Bool) : QueueManager :=
  { manager with
    snapshots := manager.snapshots.erase (id, claimed)
    rows :=
      if stored then manager.rows.modify id fun row => { row with checkpoint := claimed }
      else manager.rows }

def removeDir (dir : Path) (removed : Bool) : Option Tree :=
  if removed && dir ∈ manager.dirs && manager.dirs.isEmpty dir then some (manager.dirs.erase dir)
  else none

/-- `release_output_dir_claim`; whether there was anything to remove does not matter. -/
def releaseOutputDirClaim (job : JobState) (removed : Bool) : QueueManager :=
  if job.outputDirClaimed then
    { manager with
      dirs := (manager.removeDir job.outputDir removed).getD manager.dirs
      released := manager.released ++ [manager.dirs.filesUnder job.outputDir] }
  else manager

def retarget (job : JobState) (outputDir : Path) (removed : Bool) : QueueManager :=
  (manager.releaseOutputDirClaim job removed).setJob id
    { job with outputDir := outputDir, outputDirClaimed := false }

def onJobFinished (job : JobState) (created : Bool) : QueueManager :=
  let (claimed, job) := manager.claimOutputDir id job created
  { claimed.setJob id { job with directUnpacker := false } with
    pipelines := claimed.pipelines.insert id job.outputDir }

/-- A completed job's directory is made, if need be, and the residual files are moved there. -/
def moveFiles (job : JobState) (created : Bool) (names : List String) : QueueManager × JobState :=
  let (claimed, job) := manager.claimOutputDir id job created
  let made := { claimed with dirs := claimed.dirs.createDirAll job.outputDir }
  (names.foldl (fun manager name => manager.produce id job.outputDir name) made, job)

def releaseEmpty (job : JobState) (removed : Bool) : QueueManager × JobState :=
  if job.outputDirClaimed then
    match manager.removeDir job.outputDir removed with
    | some dirs =>
        ({ manager with
          dirs := dirs
          released := manager.released ++ [manager.dirs.filesUnder job.outputDir] },
          { job with outputDirClaimed := false })
    | none => (manager, job)
  else (manager, job)

def recordHistory (job : JobState) (completed inserted queueRemoved : Bool) : QueueManager :=
  { manager with
    history :=
      if inserted && !manager.history.any fun entry => entry.id = id then
        ⟨manager.toStore, id, completed, job.outputDir⟩ :: manager.history
      else manager.history
    rows := if queueRemoved then manager.rows.erase id else manager.rows
    pipelines := manager.pipelines.erase id }

def moveToHistory (job : JobState) (completed created : Bool) (names : List String)
    (removed inserted queueRemoved : Bool) : QueueManager :=
  let (emptied, job) :=
    if completed then manager.moveFiles id job created names else manager.releaseEmpty job removed
  (emptied.recordHistory id job completed inserted queueRemoved).setJob id
    { job with moved := true }

def restored (active read : List JobId) (id : JobId) (row : Row) : JobState :=
  if id ∈ active then
    match restoreClaimedOutputDir manager.dirs row.outputDir
      (manager.checkpoint id (id ∈ read)) with
    | some claimed => ⟨claimed, true, true, false, false⟩
    | none => ⟨row.outputDir, false, true, false, false⟩
  else ⟨row.outputDir, false, false, false, false⟩

def restoreFromDb (listed : Bool) (active read : List JobId) : QueueManager :=
  { manager with
    jobs := if listed then manager.rows.mapValues (manager.restored active read) else ∅
    extractors := []
    pipelines := ∅
    snapshots := [] }

def userMakes (dir : Path) (names : List String) : QueueManager :=
  { manager with
    dirs := names.foldl (fun dirs name => dirs.write dir ⟨none, name⟩)
      (manager.dirs.createDirAll dir) }

def next (label : Label) : Option QueueManager :=
  match label with
  | .addJob id outputDir => if id ∈ manager.issued then none else some (manager.addJob id outputDir)
  | .launch id read =>
      (manager.jobs.lookup id).bind fun job =>
        if job.nzbData || job.moved then none else some (manager.launch id job read)
  | .directUnpack id created found =>
      (manager.jobs.lookup id).bind fun job =>
        if !job.nzbData || job.directUnpacker || job.moved || id ∈ manager.pipelines then none
        else some (manager.directUnpack id job created found)
  | .extract id dir name =>
      if (id, dir) ∈ manager.extractors then some (manager.produce id dir name) else none
  | .extractorEnds id dir =>
      some { manager with extractors := manager.extractors.erase (id, dir) }
  | .abortUnpack id =>
      (manager.jobs.lookup id).map fun job => manager.setJob id { job with directUnpacker := false }
  | .snapshot id =>
      (manager.jobs.lookup id).bind fun job =>
        if job.nzbData then
          let claimed := if job.outputDirClaimed then some job.outputDir else none
          some { manager with snapshots := (id, claimed) :: manager.snapshots }
        else none
  | .store id claimed stored =>
      if (id, claimed) ∈ manager.snapshots then some (manager.store id claimed stored) else none
  | .retarget id outputDir removed =>
      (manager.jobs.lookup id).map fun job => manager.retarget id job outputDir removed
  | .onJobFinished id created =>
      (manager.jobs.lookup id).bind fun job =>
        if !job.nzbData || job.moved || id ∈ manager.pipelines then none
        else some (manager.onJobFinished id job created)
  | .pipelineExtract id name =>
      (manager.pipelines.lookup id).map fun dir => manager.produce id dir name
  | .moveToHistory id completed created names removed inserted queueRemoved =>
      (manager.jobs.lookup id).bind fun job =>
        if !job.nzbData || job.moved || completed && id ∉ manager.pipelines then none
        else
          some (manager.moveToHistory id job completed created names removed inserted queueRemoved)
  | .leave id =>
      (manager.jobs.lookup id).bind fun job =>
        if job.moved then some { manager with jobs := manager.jobs.erase id } else none
  | .restart listed active read => some (manager.restoreFromDb listed active read)
  | .userMakes dir names =>
      if dir ∈ manager.dirs then none else some (manager.userMakes dir names)

def Step (manager : QueueManager) (label : Label) (manager' : QueueManager) : Prop :=
  manager.next label = some manager'

end QueueManager

end Rustnzb.Web.OutputDirs
