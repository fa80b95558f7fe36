import Mathlib.Algebra.Order.Floor.Div
import Mathlib.Data.String.Basic
import Rustnzb.Dispatch.WorkItem
import Rustnzb.Lib.Tally

/-!
# The hopeless tracker and its parity tier

`HopelessTracker` counts the articles of a job that failed. Its parity tier compares the slices that
are certainly damaged with the recovery slices that can still be had. The counters that only the
byte tiers and the clocks read are left out; those tiers are fractions of a job in floating point.
The sums stay exact: the sizes of a job are far below the bounds at which the source saturates.
-/

namespace Rustnzb.Web

open Dispatch (FileId ArticleFailureKind)
open Lib (Tally)

/-- An NZB file as the tracker reads it, with the declared sizes of its articles. -/
structure TrackedFile where
  id : FileId
  filename : String
  isPar2 : Bool
  par2SetName : Option String
  par2Vol : Option ℕ
  par2Blocks : Option ℕ
  articles : List ℕ
  deriving DecidableEq

namespace TrackedFile

def bytes (file : TrackedFile) : ℕ := file.articles.sum

def setName (file : TrackedFile) : Option String := file.par2SetName.map String.toLower

/-- The recovery blocks that the name declares; none for an index. -/
def blocks (file : TrackedFile) : ℕ :=
  if file.par2Vol.isSome then file.par2Blocks.getD 0 else 0

end TrackedFile

def isArchiveVolumeExt (ext : List Char) : Bool :=
  match ext with
  | [first, second, third] =>
      second.isDigit && third.isDigit && (first.isDigit || ('r' ≤ first && first ≤ 'z'))
  | _ => false

def knownExtensions : List String :=
  ["rar", "zip", "7z", "gz", "bz2", "xz", "tar", "mkv", "mp4", "avi", "wmv", "ts", "m4v", "mov",
    "mpg", "mpeg", "mp3", "flac", "ogg", "m4a", "aac", "wav", "srt", "sub", "idx", "ass", "ssa",
    "sup", "nfo", "jpg", "jpeg", "png", "gif", "bmp", "par2"]

def hasKnownExtension (name : String) : Bool :=
  let lower := name.toLower.toList
  if lower.contains '.' then
    let ext := lower.reverse.takeWhile (· ≠ '.')
    isArchiveVolumeExt ext.reverse || knownExtensions.contains (String.ofList ext.reverse)
  else false

def yencOverheadPct : ℕ := 103

def u64Max : ℕ := 2 ^ 64 - 1

structure HopelessTracker where
  recoveryCapacityBytes : ℕ
  recoveryBlocksTotal : ℕ
  recoveryBytesUnavailable : ℕ
  recoveryBlocksUnavailable : ℕ
  recoveryCapacityBySet : Tally String
  recoveryUnavailableBySet : Tally String
  recoveryBlocksBySet : Tally String
  sliceSizeBoundBySet : AList fun _ : String => ℕ
  sliceSizeBound : ℕ
  contentFileSets : AList fun _ : FileId => Option String
  pendingFileClassifications : List FileId
  hasPar2Set : Bool
  recoveryBlocksKnown : Bool
  /-- Content files with an article that every server refused, and the declared bytes refused. -/
  confirmedMissingFiles : Tally FileId
  confirmedMissingUnattributed : ℕ

inductive ParityAbort where
  | job (damaged available : ℕ)
  | set (setName : String) (damaged available : ℕ)
  deriving DecidableEq

structure HopelessAbort where
  tier : String
  reason : String
  deriving DecidableEq

namespace ParityAbort

def hopelessAbort : ParityAbort → HopelessAbort
  | .job damaged available =>
      { tier := "parity"
        reason := s!"Aborted: at least {damaged} slice(s) missing " ++
          s!"but the release only carries {available} recovery slice(s)" }
  | .set setName damaged available =>
      { tier := "parity"
        reason := s!"Aborted: at least {damaged} slice(s) missing in PAR2 set \"{setName}\" " ++
          s!"but it only carries {available} recovery slice(s)" }

end ParityAbort

namespace HopelessTracker

def empty : HopelessTracker where
  recoveryCapacityBytes := 0
  recoveryBlocksTotal := 0
  recoveryBytesUnavailable := 0
  recoveryBlocksUnavailable := 0
  recoveryCapacityBySet := ∅
  recoveryUnavailableBySet := ∅
  recoveryBlocksBySet := ∅
  sliceSizeBoundBySet := ∅
  sliceSizeBound := 0
  contentFileSets := ∅
  pendingFileClassifications := []
  hasPar2Set := false
  recoveryBlocksKnown := true
  confirmedMissingFiles := ∅
  confirmedMissingUnattributed := 0

/-- The part of `new` and `reclassify_as_par2` about a recovery volume of `blocks` blocks. -/
def declareVolume (tracker : HopelessTracker) (bytes blocks : ℕ) (setName : Option String) :
    HopelessTracker :=
  let tracker := { tracker with
    recoveryCapacityBytes := tracker.recoveryCapacityBytes + bytes
    recoveryBlocksTotal := tracker.recoveryBlocksTotal + blocks }
  match setName with
  | some setName =>
      { tracker with
        recoveryCapacityBySet := tracker.recoveryCapacityBySet.bump setName bytes
        recoveryBlocksBySet := tracker.recoveryBlocksBySet.bump setName blocks
        sliceSizeBoundBySet := tracker.sliceSizeBoundBySet.insert setName
          (min ((tracker.sliceSizeBoundBySet.lookup setName).getD u64Max) (bytes ⌈/⌉ blocks)) }
  | none => tracker

section DeclareVolume

variable (tracker : HopelessTracker) (bytes blocks : ℕ) (setName : Option String)

theorem declareVolume_frame :
    (tracker.declareVolume bytes blocks setName).contentFileSets = tracker.contentFileSets ∧
      (tracker.declareVolume bytes blocks setName).sliceSizeBound = tracker.sliceSizeBound ∧
      (tracker.declareVolume bytes blocks setName).recoveryBytesUnavailable =
        tracker.recoveryBytesUnavailable ∧
      (tracker.declareVolume bytes blocks setName).recoveryBlocksUnavailable =
        tracker.recoveryBlocksUnavailable ∧
      (tracker.declareVolume bytes blocks setName).recoveryUnavailableBySet =
        tracker.recoveryUnavailableBySet ∧
      (tracker.declareVolume bytes blocks setName).confirmedMissingFiles =
        tracker.confirmedMissingFiles ∧
      (tracker.declareVolume bytes blocks setName).confirmedMissingUnattributed =
        tracker.confirmedMissingUnattributed := by
  cases setName <;> exact ⟨rfl, rfl, rfl, rfl, rfl, rfl, rfl⟩

theorem mem_bound_declareVolume {name : String} :
    name ∈ (tracker.declareVolume bytes blocks setName).sliceSizeBoundBySet ↔
      setName = some name ∨ name ∈ tracker.sliceSizeBoundBySet := by
  cases setName with
  | none => simp [declareVolume]
  | some setName => simp [declareVolume, eq_comm]

end DeclareVolume

def recoverySetNames (files : List TrackedFile) : List String :=
  ((files.filter TrackedFile.isPar2).filterMap TrackedFile.setName).dedup

def associatedSet (files : List TrackedFile) (file : TrackedFile) : Option String :=
  match recoverySetNames files with
  | [setName] => some setName
  | setNames =>
      (setNames.filter fun setName =>
        setName.toList.isPrefixOf file.filename.toLower.toList).argmax String.length

/-- One file in the loop of `new`; `sliceSizeBound` is the bound of the unnamed sets there. -/
def addFile (files : List TrackedFile) (tracker : HopelessTracker) (file : TrackedFile) :
    HopelessTracker :=
  if file.isPar2 then
    let tracker := { tracker with
      hasPar2Set := true
      recoveryBlocksKnown := tracker.recoveryBlocksKnown &&
        !(file.par2Vol.isSome && file.par2Blocks.isNone)
      contentFileSets := tracker.contentFileSets.insert file.id file.setName }
    if 0 < file.blocks then
      { tracker.declareVolume file.bytes file.blocks file.setName with
        sliceSizeBound :=
          if file.setName.isSome then tracker.sliceSizeBound
          else max tracker.sliceSizeBound (file.bytes ⌈/⌉ file.blocks) }
    else tracker
  else
    { tracker with
      contentFileSets := tracker.contentFileSets.insert file.id (associatedSet files file)
      pendingFileClassifications :=
        if hasKnownExtension file.filename then tracker.pendingFileClassifications
        else tracker.pendingFileClassifications ++ [file.id] }

def new (files : List TrackedFile) : HopelessTracker :=
  let tracker := files.foldl (addFile files) empty
  { tracker with
    sliceSizeBound := (tracker.sliceSizeBoundBySet.entries.map Sigma.snd).foldl max
      tracker.sliceSizeBound }

def markFileClassified (tracker : HopelessTracker) (fileId : FileId) : HopelessTracker :=
  { tracker with
    pendingFileClassifications := tracker.pendingFileClassifications.filter (· ≠ fileId) }

def reclassifyAsPar2 (tracker : HopelessTracker) (fileId : FileId) (fileBytes : ℕ)
    (volume blocks : Option ℕ) (setName : Option String) : HopelessTracker :=
  let tracker := { tracker with
    hasPar2Set := true
    recoveryBlocksKnown := tracker.recoveryBlocksKnown && !(volume.isSome && blocks.isNone)
    confirmedMissingFiles := tracker.confirmedMissingFiles.erase fileId }
  let count := if volume.isSome then blocks.getD 0 else 0
  let tracker :=
    if 0 < count then
      { tracker.declareVolume fileBytes count (setName.map String.toLower) with
        sliceSizeBound := max tracker.sliceSizeBound (fileBytes ⌈/⌉ count) }
    else tracker
  { tracker with
    contentFileSets :=
      tracker.contentFileSets.insert fileId (setName.map String.toLower) }.markFileClassified
      fileId

theorem reclassifyAsPar2_frame (tracker : HopelessTracker) (fileId : FileId) (fileBytes : ℕ)
    (volume blocks : Option ℕ) (setName : Option String) :
    let next := tracker.reclassifyAsPar2 fileId fileBytes volume blocks setName
    next.contentFileSets = tracker.contentFileSets.insert fileId (setName.map String.toLower) ∧
      next.confirmedMissingFiles = tracker.confirmedMissingFiles.erase fileId ∧
      next.recoveryBytesUnavailable = tracker.recoveryBytesUnavailable ∧
      next.recoveryBlocksUnavailable = tracker.recoveryBlocksUnavailable ∧
      next.recoveryUnavailableBySet = tracker.recoveryUnavailableBySet ∧
      next.confirmedMissingUnattributed = tracker.confirmedMissingUnattributed := by
  intro next
  simp only [next, reclassifyAsPar2, markFileClassified]
  generalize (if volume.isSome then blocks.getD 0 else 0) = count
  split
  · rcases declareVolume_frame { tracker with
        hasPar2Set := true
        recoveryBlocksKnown := tracker.recoveryBlocksKnown && !(volume.isSome && blocks.isNone)
        confirmedMissingFiles := tracker.confirmedMissingFiles.erase fileId } fileBytes count
        (setName.map String.toLower) with
      ⟨sets, -, lostBytes, lostBlocks, lostBySet, confirmed, unattributed⟩
    exact ⟨by rw [sets], confirmed, lostBytes, lostBlocks, lostBySet, unattributed⟩
  · exact ⟨rfl, rfl, rfl, rfl, rfl, rfl⟩

def recordVolumeFailure (tracker : HopelessTracker) (fileId : Option FileId)
    (estimatedBytes : ℕ) : HopelessTracker :=
  let unavailable :=
    min (tracker.recoveryBytesUnavailable + estimatedBytes) tracker.recoveryCapacityBytes
  { tracker with
    recoveryBytesUnavailable := unavailable
    recoveryBlocksUnavailable :=
      if 0 < tracker.recoveryCapacityBytes ∧ 0 < tracker.recoveryBlocksTotal then
        min ((unavailable * tracker.recoveryBlocksTotal) ⌈/⌉ tracker.recoveryCapacityBytes)
          tracker.recoveryBlocksTotal
      else tracker.recoveryBlocksUnavailable
    recoveryUnavailableBySet :=
      match fileId.bind tracker.contentFileSets.lookup with
      | some (some setName) => tracker.recoveryUnavailableBySet.bump setName estimatedBytes
      | _ => tracker.recoveryUnavailableBySet }

def recordFileFailure (tracker : HopelessTracker) (fileId : Option FileId) (isPar2 : Bool)
    (estimatedBytes : ℕ) (kind : ArticleFailureKind) : HopelessTracker :=
  if isPar2 then tracker.recordVolumeFailure fileId estimatedBytes
  else if kind = .notFound then
    match fileId with
    | some id =>
        { tracker with
          confirmedMissingFiles := tracker.confirmedMissingFiles.bump id estimatedBytes }
    | none =>
        { tracker with confirmedMissingUnattributed := tracker.confirmedMissingUnattributed + 1 }
  else tracker

def recoveryBlocksAvailable (tracker : HopelessTracker) : ℕ :=
  tracker.recoveryBlocksTotal - tracker.recoveryBlocksUnavailable

def fileDamagedSlices (missingBytes sliceSizeBound : ℕ) : ℕ :=
  if sliceSizeBound = 0 ∨ sliceSizeBound = u64Max then 1
  else max ((missingBytes * 100 / yencOverheadPct) ⌈/⌉ sliceSizeBound) 1

def damagedSlicesLowerBound (tracker : HopelessTracker) : ℕ :=
  let damaged := (tracker.confirmedMissingFiles.entries.map fun entry =>
    fileDamagedSlices entry.2 tracker.sliceSizeBound).sum
  if damaged = 0 ∧ 0 < tracker.confirmedMissingUnattributed then 1 else damaged

def setRecoveryBlocksAvailable (tracker : HopelessTracker) (setName : String) : ℕ :=
  let blocks := tracker.recoveryBlocksBySet.count setName
  let capacity := tracker.recoveryCapacityBySet.count setName
  let lostBytes := min (tracker.recoveryUnavailableBySet.count setName) capacity
  blocks - if capacity = 0 then 0 else (lostBytes * blocks) ⌈/⌉ capacity

/-- The set of a file with a confirmed hole, if the set declares recovery blocks, and its bound. -/
def boundedSet (tracker : HopelessTracker) (fileId : FileId) : Option (String × ℕ) :=
  match tracker.contentFileSets.lookup fileId with
  | some (some setName) =>
      (tracker.sliceSizeBoundBySet.lookup setName).map fun bound => (setName, bound)
  | _ => none

def damagedBySet (tracker : HopelessTracker) : Tally String :=
  Tally.fill ∅ (fun entry => (tracker.boundedSet entry.1).map Prod.fst)
    (fun entry => fileDamagedSlices entry.2 (((tracker.boundedSet entry.1).map Prod.snd).getD 0))
    tracker.confirmedMissingFiles.entries

def parityCheck (tracker : HopelessTracker) : Option ParityAbort :=
  if !tracker.recoveryBlocksKnown then none
  else
    let damaged := tracker.damagedSlicesLowerBound
    let available := tracker.recoveryBlocksAvailable
    if available < damaged then some (.job damaged available)
    else
      (tracker.damagedBySet.entries.mergeSort fun left right => left.1 ≤ right.1).findSome?
        fun entry =>
          let available := tracker.setRecoveryBlocksAvailable entry.1
          if available < entry.2 then some (.set entry.1 entry.2 available) else none

def parityTier (tracker : HopelessTracker) (abortHopeless : Bool) : Option HopelessAbort :=
  if abortHopeless && tracker.hasPar2Set && tracker.pendingFileClassifications.isEmpty then
    tracker.parityCheck.map ParityAbort.hopelessAbort
  else none

end HopelessTracker

end Rustnzb.Web
