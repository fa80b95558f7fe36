import Rustnzb.Lib.Run
import Rustnzb.Web.HopelessTracker

/-!
# When the parity tier is right

A posting says what the articles of a job really carry: an article of a content file a range of the
file, and with it parts of the slices that the range meets; an article of a recovery volume parts of
some recovery slices, or only headers and critical packets. PAR2 sets are told apart by their lower
case name; `none` is the set of the files without one. What is refused everywhere is what was
reported as not found.
-/

namespace Rustnzb.Web

open Dispatch (FileId ArticleFailureKind)
open Lib (Run Tally execute)

inductive Nature where
  | content (setName : Option String)
  | par2 (setName : Option String) (vol blocks : Option ℕ)
  deriving DecidableEq

structure Posting where
  nature : FileId → Nature
  sliceSize : Option String → ℕ
  offset : FileId → ℕ → ℕ
  size : FileId → ℕ → ℕ
  carries : FileId → ℕ → Finset ℕ

structure RecordedFailure where
  fileId : FileId
  article : ℕ
  kind : ArticleFailureKind
  isPar2 : Bool
  bytes : ℕ
  deriving DecidableEq

/-- An attempt at a job: its files, its tracker and the failures recorded. -/
structure Attempt where
  files : List TrackedFile
  tracker : HopelessTracker
  failures : List RecordedFailure

inductive AttemptEvent where
  /-- `record_success`, which only the other tiers count. -/
  | success (fileId : FileId)
  | failure (fileId : FileId) (article : ℕ) (kind : ArticleFailureKind)
  | reclassify (fileId : FileId)
  /-- A yEnc header shows a name with another known extension. -/
  | classify (fileId : FileId)

namespace TrackedFile

def reveal (file : TrackedFile) (setName : Option String) (vol blocks : Option ℕ) : TrackedFile :=
  { file with isPar2 := true, par2SetName := setName, par2Vol := vol, par2Blocks := blocks }

end TrackedFile

namespace Attempt

def start (files : List TrackedFile) : Attempt where
  files := files
  tracker := .new files
  failures := []

def hasFailed (state : Attempt) (fileId : FileId) (article : ℕ) : Bool :=
  state.failures.any fun failure => failure.fileId = fileId && failure.article = article

def step (posting : Posting) (state : Attempt) : AttemptEvent → Option Attempt
  | .success _ => some state
  | .failure fileId article kind =>
      match state.files.find? fun file => file.id = fileId with
      | none => none
      | some file =>
          match file.articles[article]? with
          | none => none
          | some bytes =>
              if state.hasFailed fileId article then none
              else
                some { state with
                  tracker := state.tracker.recordFileFailure (some fileId) file.isPar2 bytes kind
                  failures := state.failures ++ [{
                    fileId := fileId
                    article := article
                    kind := kind
                    isPar2 := file.isPar2
                    bytes := bytes }] }
  | .reclassify fileId =>
      match state.files.find? fun file => file.id = fileId, posting.nature fileId with
      | some file, .par2 setName vol blocks =>
          if file.isPar2 then none
          else
            some { state with
              tracker := state.tracker.reclassifyAsPar2 fileId file.bytes vol blocks setName
              files := state.files.map fun file =>
                if file.id = fileId then file.reveal setName vol blocks else file }
      | _, _ => none
  | .classify fileId => some { state with tracker := state.tracker.markFileClassified fileId }

def Step (posting : Posting) (state : Attempt) (event : AttemptEvent) (next : Attempt) : Prop :=
  state.step posting event = some next

end Attempt

namespace Posting

variable (posting : Posting)

def setOf (fileId : FileId) : Option String :=
  match posting.nature fileId with
  | .content setName => setName
  | .par2 setName _ _ => setName.map String.toLower

def isContent (fileId : FileId) : Bool :=
  match posting.nature fileId with
  | .content _ => true
  | .par2 .. => false

def blocks (fileId : FileId) : ℕ :=
  match posting.nature fileId with
  | .content _ => 0
  | .par2 _ vol blocks => if vol.isSome then blocks.getD 0 else 0

def slices (fileId : FileId) (article : ℕ) : Finset ℕ :=
  (Finset.Ico (posting.offset fileId article)
    (posting.offset fileId article + posting.size fileId article)).image
      fun position => position / posting.sliceSize (posting.setOf fileId)

def refused (state : Attempt) (fileId : FileId) : Finset ℕ :=
  ((state.failures.filter fun failure =>
    failure.fileId = fileId ∧ failure.kind = .notFound).map RecordedFailure.article).toFinset

def damagedOf (state : Attempt) (fileId : FileId) : ℕ :=
  if posting.isContent fileId then
    ((refused state fileId).biUnion (posting.slices fileId)).card
  else 0

def destroyedOf (state : Attempt) (fileId : FileId) : ℕ :=
  if posting.isContent fileId then 0
  else ((refused state fileId).biUnion (posting.carries fileId)).card

def fetchableOf (state : Attempt) (fileId : FileId) : ℕ :=
  posting.blocks fileId - posting.destroyedOf state fileId

def overall (state : Attempt) (count : FileId → ℕ) : ℕ :=
  (state.files.map fun file => count file.id).sum

def inSet (state : Attempt) (setName : Option String) (count : FileId → ℕ) : ℕ :=
  overall state fun fileId => if posting.setOf fileId = setName then count fileId else 0

def Repairable (state : Attempt) : Prop :=
  ∀ setName, posting.inSet state setName (posting.damagedOf state) ≤
    posting.inSet state setName (posting.fetchableOf state)

/-- More slices are damaged than recovery slices can still be fetched. -/
def Exceeds (state : Attempt) : ParityAbort → Prop
  | .job _ _ => overall state (posting.fetchableOf state) < overall state (posting.damagedOf state)
  | .set setName _ _ => posting.inSet state (some setName) (posting.fetchableOf state) <
      posting.inSet state (some setName) (posting.damagedOf state)

/-- The files of a job and their articles are what the posting says. -/
structure Follows (files : List TrackedFile) : Prop where
  ids : (files.map TrackedFile.id).Nodup
  fits : ∀ file ∈ files, file.bytes ≤ u64Max
  positive : ∀ setName, 0 < posting.sliceSize setName
  named : ∀ file ∈ files, file.isPar2 = true →
    posting.nature file.id = .par2 file.par2SetName file.par2Vol file.par2Blocks
  associated : ∀ file ∈ files, ∀ setName, posting.nature file.id = .content setName →
    setName = HopelessTracker.associatedSet files file
  /-- An article is not empty, and yEnc adds at most three percent. -/
  sizes : ∀ file ∈ files, ∀ article bytes, file.articles[article]? = some bytes →
    0 < posting.size file.id article ∧ bytes * 100 ≤ posting.size file.id article * yencOverheadPct
  apart : ∀ file ∈ files, ∀ article other, article < other → other < file.articles.length →
    posting.offset file.id article + posting.size file.id article ≤ posting.offset file.id other
  whole : ∀ file ∈ files,
    posting.blocks file.id * posting.sliceSize (posting.setOf file.id) ≤ file.bytes
  carries : ∀ file ∈ files, ∀ article,
    posting.carries file.id article ⊆ Finset.range (posting.blocks file.id)

end Posting

/-! ## What the tracker should know -/

def declared (files : List TrackedFile) (weight : TrackedFile → ℕ) : ℕ :=
  ((files.filter TrackedFile.isPar2).map weight).sum

namespace TrackedFile

def blocksIn (setName : String) (file : TrackedFile) : ℕ :=
  if file.setName = some setName then file.blocks else 0

def volumeBytes (file : TrackedFile) : ℕ := if 0 < file.blocks then file.bytes else 0

def volumeBytesIn (setName : String) (file : TrackedFile) : ℕ :=
  if file.setName = some setName then file.volumeBytes else 0

end TrackedFile

namespace Attempt

/-- The declared bytes of the failed articles recorded as those of PAR2 files. -/
def lostBytes (state : Attempt) : ℕ :=
  ((state.failures.filter RecordedFailure.isPar2).map RecordedFailure.bytes).sum

def lostBytesIn (posting : Posting) (state : Attempt) (setName : String) : ℕ :=
  ((state.failures.filter fun failure =>
    failure.isPar2 ∧ posting.setOf failure.fileId = some setName).map RecordedFailure.bytes).sum

/-- The failed articles of PAR2 files destroy at least their share, by declared bytes, of the
recovery slices declared, in the job and in each set. -/
structure Fair (posting : Posting) (state : Attempt) : Prop where
  job : state.lostBytes * declared state.files TrackedFile.blocks ≤
    Posting.overall state (posting.destroyedOf state) *
      declared state.files TrackedFile.volumeBytes
  set : ∀ setName, state.lostBytesIn posting setName *
      declared state.files (TrackedFile.blocksIn setName) ≤
    posting.inSet state (some setName) (posting.destroyedOf state) *
      declared state.files (TrackedFile.volumeBytesIn setName)

def Classified (posting : Posting) (state : Attempt) : Prop :=
  ∀ file ∈ state.files, posting.isContent file.id = false → file.isPar2 = true

/-- A content file that lost an article is in a set of which a volume is known, or no volume is
known. -/
def Covered (posting : Posting) (state : Attempt) : Prop :=
  ∀ file ∈ state.files, posting.isContent file.id = true →
    (Posting.refused state file.id).Nonempty →
      (∃ volume ∈ state.files, volume.isPar2 = true ∧ 0 < volume.blocks ∧
        volume.setName = posting.setOf file.id) ∨
        ∀ volume ∈ state.files, volume.isPar2 = true → volume.blocks = 0

end Attempt

/-! ## Damaged slices -/

theorem card_le_mul_slices (positions : Finset ℕ) {sliceSize : ℕ} (positive : 0 < sliceSize) :
    positions.card ≤ sliceSize * (positions.image fun position => position / sliceSize).card := by
  apply Finset.card_le_mul_card_image
  intro slice _
  have within : (positions.filter fun position => position / sliceSize = slice) ⊆
      Finset.Ico (slice * sliceSize) (slice * sliceSize + sliceSize) := by
    intro position mem
    rcases Finset.mem_filter.mp mem with ⟨-, rfl⟩
    rw [Finset.mem_Ico]
    exact ⟨Nat.div_mul_le_self position sliceSize, Nat.lt_div_mul_add positive⟩
  have few := Finset.card_le_card within
  rwa [Nat.card_Ico, Nat.add_sub_cancel_left] at few

theorem fileDamagedSlices_le {positions : Finset ℕ} {missingBytes sliceSize sliceSizeBound : ℕ}
    (positive : 0 < sliceSize) (bounded : sliceSizeBound = 0 ∨ sliceSize ≤ sliceSizeBound)
    (some : positions.Nonempty) (decoded : missingBytes * 100 ≤ positions.card * yencOverheadPct) :
    HopelessTracker.fileDamagedSlices missingBytes sliceSizeBound ≤
      (positions.image fun position => position / sliceSize).card := by
  have one : 1 ≤ (positions.image fun position => position / sliceSize).card :=
    Finset.card_pos.mpr (some.image _)
  rw [HopelessTracker.fileDamagedSlices]
  split
  · exact one
  next known =>
    rw [not_or] at known
    have above := bounded.resolve_left known.1
    apply max_le _ one
    rw [ceilDiv_le_iff_le_mul (Nat.pos_of_ne_zero known.1)]
    calc missingBytes * 100 / yencOverheadPct
        ≤ positions.card * yencOverheadPct / yencOverheadPct := Nat.div_le_div_right decoded
      _ = positions.card := Nat.mul_div_cancel _ (by decide)
      _ ≤ sliceSize * (positions.image fun position => position / sliceSize).card :=
          card_le_mul_slices positions positive
      _ ≤ sliceSizeBound * (positions.image fun position => position / sliceSize).card :=
          Nat.mul_le_mul_right _ above

/-! ## Declared volumes -/

section Declared

variable {posting : Posting} {files next : List TrackedFile} {file : TrackedFile}
  {tracker : HopelessTracker}

open HopelessTracker in
/-- The tracker has counted the volumes among `files`. -/
structure Declares (posting : Posting) (files : List TrackedFile) (tracker : HopelessTracker) :
    Prop where
  blocks : tracker.recoveryBlocksTotal = declared files TrackedFile.blocks
  bytes : tracker.recoveryCapacityBytes = declared files TrackedFile.volumeBytes
  blocksIn : ∀ setName, tracker.recoveryBlocksBySet.count setName =
    declared files (TrackedFile.blocksIn setName)
  bytesIn : ∀ setName, tracker.recoveryCapacityBySet.count setName =
    declared files (TrackedFile.volumeBytesIn setName)
  bound : ∀ setName bound, tracker.sliceSizeBoundBySet.lookup setName = some bound →
    posting.sliceSize (some setName) ≤ bound

def Grows (files : List TrackedFile) (file : TrackedFile) (next : List TrackedFile) : Prop :=
  ∀ weight, declared next weight = declared files weight + weight file

namespace Declares

theorem empty (posting : Posting) : Declares posting [] .empty where
  blocks := rfl
  bytes := rfl
  blocksIn _ := rfl
  bytesIn _ := rfl
  bound _ _ found := by cases found

theorem same (declares : Declares posting files tracker)
    (same : ∀ weight, declared next weight = declared files weight) :
    Declares posting next tracker where
  blocks := declares.blocks.trans (same _).symm
  bytes := declares.bytes.trans (same _).symm
  blocksIn setName := (declares.blocksIn setName).trans (same _).symm
  bytesIn setName := (declares.bytesIn setName).trans (same _).symm
  bound := declares.bound

theorem index (declares : Declares posting files tracker) (grows : Grows files file next)
    (none : file.blocks = 0) : Declares posting next tracker := by
  constructor
  case blocks => simp [declares.blocks, grows TrackedFile.blocks, none]
  case bytes =>
    simp [declares.bytes, grows TrackedFile.volumeBytes, TrackedFile.volumeBytes, none]
  case blocksIn =>
    intro setName
    simp [declares.blocksIn, grows (TrackedFile.blocksIn setName), TrackedFile.blocksIn, none]
  case bytesIn =>
    intro setName
    simp [declares.bytesIn, grows (TrackedFile.volumeBytesIn setName), TrackedFile.volumeBytesIn,
      TrackedFile.volumeBytes, none]
  case bound => exact declares.bound

theorem volume (declares : Declares posting files tracker) (grows : Grows files file next)
    (some : 0 < file.blocks) (fits : posting.sliceSize file.setName ≤ file.bytes ⌈/⌉ file.blocks)
    (small : posting.sliceSize file.setName ≤ u64Max) :
    Declares posting next
      (tracker.declareVolume file.bytes file.blocks file.setName) := by
  rcases named : file.setName with _ | setName
  · constructor
    case blocks =>
      simp [HopelessTracker.declareVolume, declares.blocks, grows TrackedFile.blocks]
    case bytes =>
      simp [HopelessTracker.declareVolume, declares.bytes, grows TrackedFile.volumeBytes,
        TrackedFile.volumeBytes, some]
    case blocksIn =>
      intro other
      simp [HopelessTracker.declareVolume, declares.blocksIn, grows (TrackedFile.blocksIn other),
        TrackedFile.blocksIn, named]
    case bytesIn =>
      intro other
      simp [HopelessTracker.declareVolume, declares.bytesIn,
        grows (TrackedFile.volumeBytesIn other), TrackedFile.volumeBytesIn, named]
    case bound => exact declares.bound
  · rw [named] at fits small
    constructor
    case blocks =>
      simp [HopelessTracker.declareVolume, declares.blocks, grows TrackedFile.blocks]
    case bytes =>
      simp [HopelessTracker.declareVolume, declares.bytes, grows TrackedFile.volumeBytes,
        TrackedFile.volumeBytes, some]
    case blocksIn =>
      intro other
      simp [HopelessTracker.declareVolume, declares.blocksIn, grows (TrackedFile.blocksIn other),
        TrackedFile.blocksIn, named, Tally.count_bump, eq_comm]
    case bytesIn =>
      intro other
      simp [HopelessTracker.declareVolume, declares.bytesIn, TrackedFile.volumeBytes, some,
        grows (TrackedFile.volumeBytesIn other), TrackedFile.volumeBytesIn, named,
        Tally.count_bump, eq_comm]
    case bound =>
      intro other bound found
      simp only [HopelessTracker.declareVolume] at found
      by_cases same : other = setName
      · subst same
        rw [AList.lookup_insert, Option.some.injEq] at found
        rw [← found]
        apply le_min _ fits
        rcases before : tracker.sliceSizeBoundBySet.lookup other with _ | old
        · exact small
        · exact declares.bound other old before
      · rw [AList.lookup_insert_ne same] at found
        exact declares.bound other bound found

end Declares

def IsVolume (file : TrackedFile) : Prop := file.isPar2 = true ∧ 0 < file.blocks

/-- The bound covers the sets of the known volumes, and there is one only if there are any. -/
structure Bounded (posting : Posting) (files : List TrackedFile) (tracker : HopelessTracker) :
    Prop where
  covers : ∀ file ∈ files, IsVolume file →
    posting.sliceSize file.setName ≤ tracker.sliceSizeBound
  isNone : (∀ file ∈ files, ¬IsVolume file) → tracker.sliceSizeBound = 0

theorem declared_append_par2 (isPar2 : file.isPar2 = true) :
    Grows files file (files ++ [file]) := by
  intro weight
  simp [declared, isPar2]

theorem declared_append_content (isPar2 : file.isPar2 = false) (weight : TrackedFile → ℕ) :
    declared (files ++ [file]) weight = declared files weight := by
  simp [declared, isPar2]

structure Sized (posting : Posting) (file : TrackedFile) : Prop where
  fits : posting.sliceSize file.setName ≤ file.bytes ⌈/⌉ file.blocks
  small : posting.sliceSize file.setName ≤ u64Max

theorem sized
    (whole : posting.blocks file.id * posting.sliceSize (posting.setOf file.id) ≤ file.bytes)
    (bytes : file.bytes ≤ u64Max) (isBlocks : posting.blocks file.id = file.blocks)
    (isSet : posting.setOf file.id = file.setName) (some : 0 < file.blocks) :
    Sized posting file := by
  rw [isBlocks, isSet] at whole
  constructor
  · have rounded : file.bytes ≤ file.blocks * (file.bytes ⌈/⌉ file.blocks) :=
      (ceilDiv_le_iff_le_mul some).mp le_rfl
    exact Nat.le_of_mul_le_mul_left (whole.trans rounded) some
  · calc posting.sliceSize file.setName
        ≤ file.blocks * posting.sliceSize file.setName := Nat.le_mul_of_pos_left _ some
      _ ≤ u64Max := whole.trans bytes

/-- The loop of `new` after the files `done`. -/
structure Collected (posting : Posting) (files done : List TrackedFile)
    (tracker : HopelessTracker) : Prop where
  declares : Declares posting done tracker
  named : ∀ file ∈ done, IsVolume file → ∀ setName, file.setName = some setName →
    setName ∈ tracker.sliceSizeBoundBySet
  unnamed : ∀ file ∈ done, IsVolume file → file.setName = none →
    posting.sliceSize none ≤ tracker.sliceSizeBound
  isNone : (∀ file ∈ done, ¬IsVolume file) →
    tracker.sliceSizeBound = 0 ∧ tracker.sliceSizeBoundBySet = ∅
  sets : ∀ file ∈ done, tracker.contentFileSets.lookup file.id =
    some (if file.isPar2 then file.setName else HopelessTracker.associatedSet files file)
  fresh : tracker.recoveryBytesUnavailable = 0 ∧ tracker.recoveryBlocksUnavailable = 0 ∧
    tracker.recoveryUnavailableBySet = ∅ ∧ tracker.confirmedMissingFiles = ∅ ∧
      tracker.confirmedMissingUnattributed = 0

namespace Collected

variable {done : List TrackedFile}

theorem start (posting : Posting) (files : List TrackedFile) :
    Collected posting files [] .empty where
  declares := .empty posting
  named _ mem := by cases mem
  unnamed _ mem := by cases mem
  isNone _ := ⟨rfl, rfl⟩
  sets _ mem := by cases mem
  fresh := ⟨rfl, rfl, rfl, rfl, rfl⟩

section

variable (collected : Collected posting files done tracker)

include collected

theorem lookup_sets (isNew : ∀ other ∈ done, other.id ≠ file.id) {setName : Option String}
    (isSet : setName =
      if file.isPar2 then file.setName else HopelessTracker.associatedSet files file) :
    ∀ other ∈ done ++ [file], (tracker.contentFileSets.insert file.id setName).lookup other.id =
      some (if other.isPar2 then other.setName else HopelessTracker.associatedSet files other) := by
  intro other mem
  rcases List.mem_append.mp mem with old | last
  · rw [AList.lookup_insert_ne (isNew other old)]
    exact collected.sets other old
  · cases List.mem_singleton.mp last
    rw [AList.lookup_insert, isSet]

theorem extend (noVolume : ¬IsVolume file) {next : HopelessTracker}
    (declares : Declares posting (done ++ [file]) next)
    (bounds : next.sliceSizeBoundBySet = tracker.sliceSizeBoundBySet ∧
      next.sliceSizeBound = tracker.sliceSizeBound)
    (sets : ∀ other ∈ done ++ [file], next.contentFileSets.lookup other.id =
      some (if other.isPar2 then other.setName else HopelessTracker.associatedSet files other))
    (fresh : next.recoveryBytesUnavailable = 0 ∧ next.recoveryBlocksUnavailable = 0 ∧
      next.recoveryUnavailableBySet = ∅ ∧ next.confirmedMissingFiles = ∅ ∧
        next.confirmedMissingUnattributed = 0) : Collected posting files (done ++ [file]) next := by
  have onlyOld : ∀ other ∈ done ++ [file], IsVolume other → other ∈ done := by
    intro other mem isVolume
    rcases List.mem_append.mp mem with old | last
    · exact old
    · cases List.mem_singleton.mp last
      exact absurd isVolume noVolume
  constructor
  case declares => exact declares
  case named =>
    intro other mem isVolume
    rw [bounds.1]
    exact collected.named other (onlyOld other mem isVolume) isVolume
  case unnamed =>
    intro other mem isVolume
    rw [bounds.2]
    exact collected.unnamed other (onlyOld other mem isVolume) isVolume
  case isNone =>
    intro none
    rw [bounds.1, bounds.2]
    exact collected.isNone fun other old => none other (List.mem_append_left _ old)
  case sets => exact sets
  case fresh => exact fresh

theorem content (isNew : ∀ other ∈ done, other.id ≠ file.id) (isContent : file.isPar2 = false) :
    Collected posting files (done ++ [file]) (tracker.addFile files file) := by
  rw [HopelessTracker.addFile, if_neg (by simp [isContent])]
  have declares := collected.declares.same (declared_append_content isContent)
  apply collected.extend
  · simp [IsVolume, isContent]
  · exact ⟨declares.blocks, declares.bytes, declares.blocksIn, declares.bytesIn, declares.bound⟩
  · exact ⟨rfl, rfl⟩
  · exact collected.lookup_sets isNew (by simp [isContent])
  · exact collected.fresh

theorem index (isNew : ∀ other ∈ done, other.id ≠ file.id) (isPar2 : file.isPar2 = true)
    (noBlocks : file.blocks = 0) :
    Collected posting files (done ++ [file]) (tracker.addFile files file) := by
  rw [HopelessTracker.addFile, if_pos isPar2]
  simp only [noBlocks, lt_irrefl, if_false]
  have declares := collected.declares.index (declared_append_par2 isPar2) noBlocks
  apply collected.extend
  · simp [IsVolume, noBlocks]
  · exact ⟨declares.blocks, declares.bytes, declares.blocksIn, declares.bytesIn, declares.bound⟩
  · exact ⟨rfl, rfl⟩
  · exact collected.lookup_sets isNew (by simp [isPar2])
  · exact collected.fresh

theorem volume (isNew : ∀ other ∈ done, other.id ≠ file.id) (isVolume : IsVolume file)
    (isSized : Sized posting file) :
    Collected posting files (done ++ [file]) (tracker.addFile files file) := by
  rw [HopelessTracker.addFile, if_pos isVolume.1]
  simp only [isVolume.2, if_true]
  generalize noted : ({ tracker with
      hasPar2Set := true
      recoveryBlocksKnown := tracker.recoveryBlocksKnown &&
        !(file.par2Vol.isSome && file.par2Blocks.isNone)
      contentFileSets := tracker.contentFileSets.insert file.id file.setName } :
        HopelessTracker) = middle
  have declaresMiddle : Declares posting done middle := by
    rw [← noted]
    exact ⟨collected.declares.blocks, collected.declares.bytes, collected.declares.blocksIn,
      collected.declares.bytesIn, collected.declares.bound⟩
  have declares := declaresMiddle.volume (declared_append_par2 isVolume.1) isVolume.2
    isSized.fits isSized.small
  have bySet : middle.sliceSizeBoundBySet = tracker.sliceSizeBoundBySet := by rw [← noted]
  rcases middle.declareVolume_frame file.bytes file.blocks file.setName with
    ⟨sets, -, lostBytes, lostBlocks, lostBySet, confirmed, unattributed⟩
  constructor
  case declares =>
    exact ⟨declares.blocks, declares.bytes, declares.blocksIn, declares.bytesIn, declares.bound⟩
  case named =>
    intro other mem isOther setName named
    rw [HopelessTracker.mem_bound_declareVolume, bySet]
    rcases List.mem_append.mp mem with old | last
    · exact .inr (collected.named other old isOther setName named)
    · cases List.mem_singleton.mp last
      exact .inl named
  case unnamed =>
    intro other mem isOther named
    rcases List.mem_append.mp mem with old | last
    · have above := collected.unnamed other old isOther named
      dsimp only
      split
      · exact above
      · exact above.trans (le_max_left _ _)
    · cases List.mem_singleton.mp last
      have fits := isSized.fits
      rw [named] at fits ⊢
      exact fits.trans (le_max_right _ _)
  case isNone =>
    intro none
    exact absurd isVolume (none file (by simp))
  case sets =>
    dsimp only
    rw [sets, ← noted]
    exact collected.lookup_sets isNew (by simp [isVolume.1])
  case fresh =>
    dsimp only
    rw [lostBytes, lostBlocks, lostBySet, confirmed, unattributed, ← noted]
    exact collected.fresh

end

end Collected

theorem collected_foldl (posting : Posting) (files : List TrackedFile)
    (isSized : ∀ file ∈ files, IsVolume file → Sized posting file)
    (ids : (files.map TrackedFile.id).Nodup) :
    Collected posting files files
      (files.foldl (HopelessTracker.addFile files) HopelessTracker.empty) := by
  suffices upTo : ∀ done rest, done ++ rest = files →
      Collected posting files done
        (done.foldl (HopelessTracker.addFile files) HopelessTracker.empty) from
    upTo files [] (List.append_nil files)
  intro done
  induction done using List.reverseRecOn with
  | nil =>
      intro _ _
      exact .start posting files
  | append_singleton done file ih =>
      rintro rest split
      have before := ih (file :: rest) (by simpa using split)
      have mem : file ∈ files := by simp [← split]
      have isNew : ∀ other ∈ done, other.id ≠ file.id := by
        intro other old same
        rw [← split, List.append_assoc, List.map_append, List.nodup_append] at ids
        exact ids.2.2 other.id (List.mem_map_of_mem old) file.id (by simp) same
      rw [List.foldl_append, List.foldl_cons, List.foldl_nil]
      rcases isPar2 : file.isPar2 with _ | _
      · exact before.content isNew isPar2
      · rcases Nat.eq_zero_or_pos file.blocks with none | some
        · exact before.index isNew isPar2 none
        · exact before.volume isNew ⟨isPar2, some⟩ (isSized file mem ⟨isPar2, some⟩)

theorem le_foldl_max (start : ℕ) (values : List ℕ) :
    start ≤ values.foldl max start ∧ ∀ value ∈ values, value ≤ values.foldl max start := by
  induction values generalizing start with
  | nil => simp
  | cons value values ih =>
      rcases ih (max start value) with ⟨below, all⟩
      rw [List.foldl_cons]
      refine ⟨(le_max_left _ _).trans below, fun other mem => ?_⟩
      rcases List.mem_cons.mp mem with rfl | among
      · exact (le_max_right _ _).trans below
      · exact all other among

theorem bounded_new (collected : Collected posting files files
    (files.foldl (HopelessTracker.addFile files) HopelessTracker.empty)) :
    Bounded posting files (.new files) := by
  rw [HopelessTracker.new]
  generalize files.foldl (HopelessTracker.addFile files) HopelessTracker.empty = tracker
    at collected
  have largest := le_foldl_max tracker.sliceSizeBound
    (tracker.sliceSizeBoundBySet.entries.map Sigma.snd)
  constructor
  case covers =>
    intro file mem isVolume
    rcases named : file.setName with _ | setName
    · exact (collected.unnamed file mem isVolume named).trans largest.1
    · have isKey := collected.named file mem isVolume setName named
      rcases Option.isSome_iff_exists.mp (AList.lookup_isSome.mpr isKey) with ⟨bound, found⟩
      have isEntry := List.mem_map_of_mem (f := Sigma.snd) (AList.mem_lookup_iff.mp found)
      exact (collected.declares.bound setName bound found).trans (largest.2 bound isEntry)
  case isNone =>
    intro none
    rcases collected.isNone none with ⟨zero, empty⟩
    dsimp only
    rw [zero, empty]
    rfl

theorem grows_reveal (ids : (files.map TrackedFile.id).Nodup) (mem : file ∈ files)
    (isContent : file.isPar2 = false) (setName : Option String) (vol blocks : Option ℕ) :
    Grows files (file.reveal setName vol blocks) (files.map fun other =>
      if other.id = file.id then other.reveal setName vol blocks else other) := by
  intro weight
  induction files with
  | nil => cases mem
  | cons head files ih =>
      rw [List.map_cons, List.nodup_cons] at ids
      by_cases same : head.id = file.id
      · have isHead : file = head := by
          rcases List.mem_cons.mp mem with isHead | among
          · exact isHead
          · exact absurd (same ▸ List.mem_map_of_mem among) ids.1
        subst isHead
        have others : (files.map fun other =>
            if other.id = file.id then other.reveal setName vol blocks else other) = files := by
          refine (List.map_congr_left fun other among => ?_).trans (List.map_id files)
          rw [if_neg, id]
          intro eq
          exact ids.1 (eq ▸ List.mem_map_of_mem among)
        rw [List.map_cons, others]
        simp [declared, isContent, TrackedFile.reveal, Nat.add_comm]
      · have among : file ∈ files := by
          rcases List.mem_cons.mp mem with rfl | among
          · exact absurd rfl same
          · exact among
        have rest := ih ids.2 among
        simp only [declared] at rest ⊢
        rw [List.map_cons, if_neg same]
        rcases isPar2 : head.isPar2 with _ | _
        · simp [isPar2, rest]
        · simp [isPar2, rest, Nat.add_assoc]

section Reclassify

variable {fileId : FileId} {setName : Option String} {vol blocks : Option ℕ}

theorem Declares.reclassify (declares : Declares posting files tracker)
    (grows : Grows files (file.reveal setName vol blocks) next)
    (isSized : 0 < (file.reveal setName vol blocks).blocks →
      Sized posting (file.reveal setName vol blocks)) :
    Declares posting next (tracker.reclassifyAsPar2 fileId file.bytes vol blocks setName) := by
  have count : (if vol.isSome then blocks.getD 0 else 0) =
      (file.reveal setName vol blocks).blocks := rfl
  have named : setName.map String.toLower = (file.reveal setName vol blocks).setName := rfl
  have bytes : file.bytes = (file.reveal setName vol blocks).bytes := rfl
  simp only [HopelessTracker.reclassifyAsPar2, HopelessTracker.markFileClassified, count, named,
    bytes]
  split
  next some =>
    generalize noted : ({ tracker with
      hasPar2Set := true
      recoveryBlocksKnown := tracker.recoveryBlocksKnown && !(vol.isSome && blocks.isNone)
      confirmedMissingFiles := tracker.confirmedMissingFiles.erase fileId } :
        HopelessTracker) = middle
    have middleDeclares : Declares posting files middle := by
      rw [← noted]
      exact ⟨declares.blocks, declares.bytes, declares.blocksIn, declares.bytesIn, declares.bound⟩
    have after := middleDeclares.volume grows some (isSized some).fits (isSized some).small
    exact ⟨after.blocks, after.bytes, after.blocksIn, after.bytesIn, after.bound⟩
  next none =>
    have after := declares.index grows (Nat.eq_zero_of_not_pos none)
    exact ⟨after.blocks, after.bytes, after.blocksIn, after.bytesIn, after.bound⟩

theorem Bounded.reclassify (bounded : Bounded posting files tracker)
    (mem : ∀ other ∈ next, other = file.reveal setName vol blocks ∨ other ∈ files)
    (isThere : file.reveal setName vol blocks ∈ next)
    (stays : ∀ other ∈ files, IsVolume other → other ∈ next)
    (isSized : 0 < (file.reveal setName vol blocks).blocks →
      Sized posting (file.reveal setName vol blocks)) :
    Bounded posting next (tracker.reclassifyAsPar2 fileId file.bytes vol blocks setName) := by
  have bound : (tracker.reclassifyAsPar2 fileId file.bytes vol blocks setName).sliceSizeBound =
      if 0 < (file.reveal setName vol blocks).blocks then
        max tracker.sliceSizeBound
          ((file.reveal setName vol blocks).bytes ⌈/⌉ (file.reveal setName vol blocks).blocks)
      else tracker.sliceSizeBound := by
    have count : (if vol.isSome then blocks.getD 0 else 0) =
        (file.reveal setName vol blocks).blocks := rfl
    simp only [HopelessTracker.reclassifyAsPar2, HopelessTracker.markFileClassified, count]
    split <;> rfl
  constructor
  case covers =>
    intro other otherMem isVolume
    rw [bound]
    rcases mem other otherMem with rfl | old
    · rw [if_pos isVolume.2]
      exact (isSized isVolume.2).fits.trans (le_max_right _ _)
    · have covers := bounded.covers other old isVolume
      split
      · exact covers.trans (le_max_left _ _)
      · exact covers
  case isNone =>
    intro none
    rw [bound, if_neg]
    · exact bounded.isNone fun other old isVolume => none other (stays other old isVolume) isVolume
    · intro some
      exact none _ isThere ⟨rfl, some⟩

end Reclassify

end Declared

/-! ## What a run keeps -/

section Watches

variable {posting : Posting} {files : List TrackedFile} {state next : Attempt}
  {event : AttemptEvent}

def missingBytes (state : Attempt) (fileId : FileId) : ℕ :=
  ((state.failures.filter fun failure =>
    failure.fileId = fileId ∧ failure.kind = .notFound).map RecordedFailure.bytes).sum

theorem refused_append {state next : Attempt} {failure : RecordedFailure}
    (appended : next.failures = state.failures ++ [failure]) (fileId : FileId) :
    Posting.refused next fileId = Posting.refused state fileId ∪
      if failure.fileId = fileId ∧ failure.kind = .notFound then {failure.article} else ∅ := by
  simp only [Posting.refused, appended, List.filter_append, List.map_append, List.toFinset_append,
    List.filter_singleton]
  congr 1
  split
  next isRefused => simp [isRefused]
  next notRefused => simp [notRefused]

theorem destroyedOf_mono {failure : RecordedFailure}
    (appended : next.failures = state.failures ++ [failure]) (fileId : FileId) :
    posting.destroyedOf state fileId ≤ posting.destroyedOf next fileId := by
  simp only [Posting.destroyedOf]
  split
  · rfl
  · apply Finset.card_le_card
    apply Finset.biUnion_subset_biUnion_of_subset_left
    rw [refused_append appended]
    exact Finset.subset_union_left

theorem overall_mono {count other : FileId → ℕ} (sameFiles : next.files = state.files)
    (le : ∀ fileId, count fileId ≤ other fileId) :
    Posting.overall state count ≤ Posting.overall next other := by
  rw [Posting.overall, Posting.overall, sameFiles]
  exact List.sum_le_sum fun file _ => le file.id

structure Watches (posting : Posting) (files : List TrackedFile) (state : Attempt) : Prop where
  ids : state.files.map TrackedFile.id = files.map TrackedFile.id
  kept : ∀ file ∈ state.files, ∃ listed ∈ files, listed.id = file.id ∧
    listed.articles = file.articles ∧ (file.isPar2 = false → listed = file)
  named : ∀ file ∈ state.files, file.isPar2 = true →
    posting.nature file.id = .par2 file.par2SetName file.par2Vol file.par2Blocks
  sets : ∀ file ∈ state.files, state.tracker.contentFileSets.lookup file.id =
    some (if file.isPar2 then file.setName else HopelessTracker.associatedSet files file)
  declares : Declares posting state.files state.tracker
  bounded : Bounded posting state.files state.tracker
  recorded : ∀ failure ∈ state.failures, ∃ file ∈ state.files,
    file.id = failure.fileId ∧ file.articles[failure.article]? = some failure.bytes
  once : (state.failures.map fun failure => (failure.fileId, failure.article)).Nodup
  missing : ∀ file ∈ state.files, file.isPar2 = false →
    state.tracker.confirmedMissingFiles.count file.id = missingBytes state file.id
  confirmed : ∀ fileId ∈ state.tracker.confirmedMissingFiles, ∃ file ∈ state.files,
    file.id = fileId ∧ file.isPar2 = false ∧ (Posting.refused state fileId).Nonempty
  attributed : state.tracker.confirmedMissingUnattributed = 0
  lost : state.tracker.recoveryBytesUnavailable ≤ state.lostBytes
  lostIn : ∀ setName, state.tracker.recoveryUnavailableBySet.count setName ≤
    state.lostBytesIn posting setName
  destroyed : state.tracker.recoveryBlocksUnavailable ≤
    Posting.overall state (posting.destroyedOf state)

theorem blocks_of_named {file : TrackedFile}
    (named : posting.nature file.id = .par2 file.par2SetName file.par2Vol file.par2Blocks) :
    posting.blocks file.id = file.blocks ∧ posting.setOf file.id = file.setName ∧
      posting.isContent file.id = false := by
  simp [Posting.blocks, Posting.setOf, Posting.isContent, named, TrackedFile.blocks,
    TrackedFile.setName]

namespace Watches

theorem start (follows : posting.Follows files) : Watches posting files (.start files) := by
  have isSized : ∀ file ∈ files, IsVolume file → Sized posting file := by
    intro file mem isVolume
    rcases blocks_of_named (follows.named file mem isVolume.1) with ⟨blocks, isSet, -⟩
    exact sized (follows.whole file mem) (follows.fits file mem) blocks isSet isVolume.2
  have collected := collected_foldl posting files isSized follows.ids
  have bounded := bounded_new collected
  have declares := collected.declares
  rcases collected.fresh with ⟨lostBytes, lostBlocks, lostBySet, confirmed, unattributed⟩
  constructor
  case ids => rfl
  case kept => exact fun file mem => ⟨file, mem, rfl, rfl, fun _ => rfl⟩
  case named => exact follows.named
  case sets => exact collected.sets
  case declares =>
    exact ⟨declares.blocks, declares.bytes, declares.blocksIn, declares.bytesIn, declares.bound⟩
  case bounded => exact bounded
  case recorded => simp [Attempt.start]
  case once => simp [Attempt.start]
  case missing =>
    intro file _ _
    simp only [Attempt.start, HopelessTracker.new, confirmed]
    rfl
  case confirmed => simp [Attempt.start, HopelessTracker.new, confirmed]
  case attributed => exact unattributed
  case lost => exact lostBytes.le
  case lostIn =>
    intro setName
    simp [Attempt.start, HopelessTracker.new, lostBySet]
  case destroyed =>
    simp only [Attempt.start, HopelessTracker.new, lostBlocks]
    exact Nat.zero_le _

variable {file : TrackedFile}

theorem eq_of_id (follows : posting.Follows files) (watches : Watches posting files state)
    {other : TrackedFile} (mem : file ∈ state.files) (otherMem : other ∈ state.files)
    (same : other.id = file.id) : other = file := by
  have apart := follows.ids
  rw [← watches.ids] at apart
  exact List.inj_on_of_nodup_map apart otherMem mem same

theorem recorded_append (watches : Watches posting files state) (mem : file ∈ state.files)
    {failure : RecordedFailure} (isFile : failure.fileId = file.id)
    (listed : file.articles[failure.article]? = some failure.bytes)
    (isNew : state.hasFailed failure.fileId failure.article = false) :
    (∀ other ∈ state.failures ++ [failure], ∃ file ∈ state.files,
      file.id = other.fileId ∧ file.articles[other.article]? = some other.bytes) ∧
      ((state.failures ++ [failure]).map fun failure =>
        (failure.fileId, failure.article)).Nodup := by
  constructor
  · intro other isFailure
    rcases List.mem_append.mp isFailure with old | last
    · exact watches.recorded other old
    · cases List.mem_singleton.mp last
      exact ⟨file, mem, isFile.symm, listed⟩
  · rw [List.map_append, List.map_singleton, List.nodup_append]
    refine ⟨watches.once, List.nodup_singleton _, fun pair isPair last isLast same => ?_⟩
    rcases List.mem_map.mp isPair with ⟨other, isOther, rfl⟩
    rw [List.mem_singleton.mp isLast, Prod.mk.injEq] at same
    have failed : state.hasFailed failure.fileId failure.article = true := by
      rw [Attempt.hasFailed, List.any_eq_true]
      exact ⟨other, isOther, by simpa using same⟩
    rw [isNew] at failed
    cases failed

theorem missingBytes_append {failure : RecordedFailure}
    (appended : next.failures = state.failures ++ [failure]) (fileId : FileId) :
    missingBytes next fileId = missingBytes state fileId +
      if failure.fileId = fileId ∧ failure.kind = .notFound then failure.bytes else 0 := by
  simp only [missingBytes, appended, List.filter_append, List.map_append, List.sum_append,
    List.filter_singleton]
  congr 1
  split
  next isRefused => simp [isRefused]
  next notRefused => simp [notRefused]

theorem record (watches : Watches posting files state) (mem : file ∈ state.files)
    {failure : RecordedFailure} (isFile : failure.fileId = file.id)
    (listed : file.articles[failure.article]? = some failure.bytes)
    (isNew : state.hasFailed failure.fileId failure.article = false) {confirmed : Tally FileId}
    {lostBytes lostBlocks : ℕ} {lostBySet : Tally String} (next_eq : next = {
      files := state.files
      tracker := { state.tracker with
        confirmedMissingFiles := confirmed
        recoveryBytesUnavailable := lostBytes
        recoveryBlocksUnavailable := lostBlocks
        recoveryUnavailableBySet := lostBySet }
      failures := state.failures ++ [failure] })
    (missing : ∀ other ∈ state.files, other.isPar2 = false →
      confirmed.count other.id = missingBytes next other.id)
    (keys : ∀ fileId ∈ confirmed, fileId ∈ state.tracker.confirmedMissingFiles ∨
      fileId = file.id ∧ file.isPar2 = false ∧ failure.kind = .notFound)
    (lost : lostBytes ≤ next.lostBytes)
    (lostIn : ∀ setName, lostBySet.count setName ≤ next.lostBytesIn posting setName)
    (destroyed : lostBlocks ≤ Posting.overall next (posting.destroyedOf next)) :
    Watches posting files next := by
  rcases watches.recorded_append mem isFile listed isNew with ⟨recorded, once⟩
  have appended : next.failures = state.failures ++ [failure] := by rw [next_eq]
  have refused := refused_append appended
  subst next_eq
  constructor
  case ids => exact watches.ids
  case kept => exact watches.kept
  case named => exact watches.named
  case sets => exact watches.sets
  case declares =>
    exact ⟨watches.declares.blocks, watches.declares.bytes, watches.declares.blocksIn,
      watches.declares.bytesIn, watches.declares.bound⟩
  case bounded => exact ⟨watches.bounded.covers, watches.bounded.isNone⟩
  case recorded => exact recorded
  case once => exact once
  case missing => exact missing
  case confirmed =>
    intro fileId isKey
    rw [refused]
    rcases keys fileId isKey with old | ⟨rfl, isContent, isRefused⟩
    · rcases watches.confirmed fileId old with ⟨other, otherMem, isId, otherContent, some⟩
      exact ⟨other, otherMem, isId, otherContent, some.mono Finset.subset_union_left⟩
    · refine ⟨file, mem, rfl, isContent, ?_⟩
      simp [isFile, isRefused]
  case attributed => exact watches.attributed
  case lost => exact lost
  case lostIn => exact lostIn
  case destroyed => exact destroyed

theorem content_failure (watches : Watches posting files state) (mem : file ∈ state.files)
    (isContent : file.isPar2 = false) (failure : RecordedFailure)
    (isFile : failure.fileId = file.id) (asContent : failure.isPar2 = false)
    (listed : file.articles[failure.article]? = some failure.bytes)
    (isNew : state.hasFailed failure.fileId failure.article = false) (next_eq : next = { state with
      tracker := state.tracker.recordFileFailure (some failure.fileId) false failure.bytes
        failure.kind
      failures := state.failures ++ [failure] }) : Watches posting files next := by
  have appended : next.failures = state.failures ++ [failure] := by rw [next_eq]
  have sameFiles : next.files = state.files := by rw [next_eq]
  have missing := missingBytes_append appended
  have lost : state.tracker.recoveryBytesUnavailable ≤ next.lostBytes := by
    simpa [Attempt.lostBytes, appended, asContent] using watches.lost
  have lostIn : ∀ setName, state.tracker.recoveryUnavailableBySet.count setName ≤
      next.lostBytesIn posting setName := by
    intro setName
    simpa [Attempt.lostBytesIn, appended, asContent] using watches.lostIn setName
  have destroyed : state.tracker.recoveryBlocksUnavailable ≤
      Posting.overall next (posting.destroyedOf next) :=
    watches.destroyed.trans (overall_mono sameFiles (destroyedOf_mono appended))
  rw [HopelessTracker.recordFileFailure, if_neg (by simp)] at next_eq
  by_cases isRefused : failure.kind = .notFound
  · rw [if_pos isRefused] at next_eq
    apply watches.record mem isFile listed isNew next_eq _ _ lost lostIn destroyed
    · intro other otherMem otherContent
      rw [Tally.count_bump, watches.missing other otherMem otherContent, missing]
      simp [isRefused, eq_comm]
    · intro fileId isKey
      rcases Tally.mem_bump.mp isKey with rfl | old
      · exact .inr ⟨isFile, isContent, isRefused⟩
      · exact .inl old
  · rw [if_neg isRefused] at next_eq
    apply watches.record mem isFile listed isNew next_eq _ _ lost lostIn destroyed
    · intro other otherMem otherContent
      rw [watches.missing other otherMem otherContent, missing]
      simp [isRefused]
    · exact fun fileId isKey => .inl isKey

theorem par2_failure (follows : posting.Follows files) (watches : Watches posting files state)
    (mem : file ∈ state.files) (isPar2 : file.isPar2 = true) (failure : RecordedFailure)
    (isFile : failure.fileId = file.id) (asPar2 : failure.isPar2 = true)
    (listed : file.articles[failure.article]? = some failure.bytes)
    (isNew : state.hasFailed failure.fileId failure.article = false) (next_eq : next = { state with
      tracker := state.tracker.recordFileFailure (some failure.fileId) true failure.bytes
        failure.kind
      failures := state.failures ++ [failure] }) (fair : next.Fair posting) :
    Watches posting files next := by
  have appended : next.failures = state.failures ++ [failure] := by rw [next_eq]
  have sameFiles : next.files = state.files := by rw [next_eq]
  have lost : min (state.tracker.recoveryBytesUnavailable + failure.bytes)
      state.tracker.recoveryCapacityBytes ≤ next.lostBytes := by
    apply (min_le_left _ _).trans
    simpa [Attempt.lostBytes, appended, asPar2] using watches.lost
  rw [HopelessTracker.recordFileFailure, if_pos rfl, HopelessTracker.recordVolumeFailure] at next_eq
  apply watches.record mem isFile listed isNew next_eq
  case missing =>
    intro other otherMem otherContent
    rw [watches.missing other otherMem otherContent, missingBytes_append appended, if_neg,
      Nat.add_zero]
    rintro ⟨same, -⟩
    rw [watches.eq_of_id follows mem otherMem (isFile ▸ same.symm), isPar2] at otherContent
    cases otherContent
  case keys => exact fun fileId isKey => .inl isKey
  case lost => exact lost
  case lostIn =>
    intro setName
    have isSet := (blocks_of_named (watches.named file mem isPar2)).2.1
    have before := watches.lostIn setName
    have known := watches.sets file mem
    rw [if_pos isPar2] at known
    have grown : next.lostBytesIn posting setName = state.lostBytesIn posting setName +
        if file.setName = some setName then failure.bytes else 0 := by
      simp only [Attempt.lostBytesIn, appended, List.filter_append, List.map_append,
        List.sum_append, List.filter_singleton, asPar2, isFile, isSet]
      congr 1
      split
      next here => simp [here]
      next notHere => simp [notHere]
    rw [grown, isFile, Option.bind_some, known]
    rcases named : file.setName with _ | own
    · simpa using before
    · simp only [Option.some.injEq]
      rw [Tally.count_bump]
      by_cases same : setName = own
      · simpa [same] using before
      · simpa [same, Ne.symm same] using before
  case destroyed =>
    split
    next some =>
      apply (min_le_left _ _).trans
      rw [ceilDiv_le_iff_le_mul some.1]
      have share := fair.job
      rw [sameFiles, ← watches.declares.blocks, ← watches.declares.bytes] at share
      calc min (state.tracker.recoveryBytesUnavailable + failure.bytes)
            state.tracker.recoveryCapacityBytes * state.tracker.recoveryBlocksTotal
          ≤ next.lostBytes * state.tracker.recoveryBlocksTotal := Nat.mul_le_mul_right _ lost
        _ ≤ Posting.overall next (posting.destroyedOf next) *
              state.tracker.recoveryCapacityBytes := share
        _ = state.tracker.recoveryCapacityBytes *
              Posting.overall next (posting.destroyedOf next) := Nat.mul_comm _ _
    · exact watches.destroyed.trans (overall_mono sameFiles (destroyedOf_mono appended))

theorem mem_reveal {other : TrackedFile} {setName : Option String} {vol blocks : Option ℕ}
    (mem : file ∈ state.files) (otherMem : other ∈ state.files.map fun other =>
      if other.id = file.id then other.reveal setName vol blocks else other)
    (follows : posting.Follows files) (watches : Watches posting files state) :
    other = file.reveal setName vol blocks ∨ other ∈ state.files ∧ other.id ≠ file.id := by
  rcases List.mem_map.mp otherMem with ⟨old, oldMem, rfl⟩
  split
  next same =>
    rw [watches.eq_of_id follows mem oldMem same]
    exact .inl rfl
  next differs => exact .inr ⟨oldMem, differs⟩

theorem reclassify (follows : posting.Follows files) (watches : Watches posting files state)
    (mem : file ∈ state.files) (isContent : file.isPar2 = false) {setName : Option String}
    {vol blocks : Option ℕ} (nature : posting.nature file.id = .par2 setName vol blocks)
    (next_eq : next = { state with
      tracker := state.tracker.reclassifyAsPar2 file.id file.bytes vol blocks setName
      files := state.files.map fun other =>
        if other.id = file.id then other.reveal setName vol blocks else other }) :
    Watches posting files next := by
  rcases watches.kept file mem with ⟨listed, listedMem, sameId, sameArticles, -⟩
  have sameBytes : listed.bytes = (file.reveal setName vol blocks).bytes := by
    simp [TrackedFile.bytes, sameArticles, TrackedFile.reveal]
  have revealed : posting.nature (file.reveal setName vol blocks).id =
      .par2 (file.reveal setName vol blocks).par2SetName
        (file.reveal setName vol blocks).par2Vol (file.reveal setName vol blocks).par2Blocks :=
    nature
  rcases blocks_of_named revealed with ⟨isBlocks, isSet, -⟩
  have isSized : 0 < (file.reveal setName vol blocks).blocks →
      Sized posting (file.reveal setName vol blocks) := by
    intro some
    have whole := follows.whole listed listedMem
    have bytes := follows.fits listed listedMem
    rw [sameBytes] at whole bytes
    rw [sameId] at whole
    exact sized whole bytes isBlocks isSet some
  have ids := follows.ids
  rw [← watches.ids] at ids
  have grows := grows_reveal ids mem isContent setName vol blocks
  have stays : ∀ other ∈ state.files, other.id ≠ file.id → other ∈ next.files := by
    intro other otherMem differs
    rw [next_eq]
    exact List.mem_map.mpr ⟨other, otherMem, if_neg differs⟩
  have isThere : file.reveal setName vol blocks ∈ next.files := by
    rw [next_eq]
    exact List.mem_map.mpr ⟨file, mem, if_pos rfl⟩
  have cases : ∀ other ∈ next.files,
      other = file.reveal setName vol blocks ∨ other ∈ state.files ∧ other.id ≠ file.id := by
    rw [next_eq]
    exact fun other otherMem => mem_reveal mem otherMem follows watches
  have sameIds : next.files.map TrackedFile.id = state.files.map TrackedFile.id := by
    rw [next_eq, List.map_map]
    apply List.map_congr_left
    intro other _
    simp only [Function.comp]
    split <;> rfl
  have sameFailures : next.failures = state.failures := by rw [next_eq]
  rcases state.tracker.reclassifyAsPar2_frame file.id file.bytes vol blocks setName with
    ⟨sets, confirmed, lostBytes, lostBlocks, lostBySet, unattributed⟩
  have tracker : next.tracker =
      state.tracker.reclassifyAsPar2 file.id file.bytes vol blocks setName := by rw [next_eq]
  rw [← tracker] at sets confirmed lostBytes lostBlocks lostBySet unattributed
  constructor
  case ids => exact sameIds.trans watches.ids
  case kept =>
    intro other otherMem
    rcases cases other otherMem with rfl | ⟨old, -⟩
    · exact ⟨listed, listedMem, sameId, sameArticles, fun isContent => by cases isContent⟩
    · exact watches.kept other old
  case named =>
    intro other otherMem isPar2
    rcases cases other otherMem with rfl | ⟨old, -⟩
    · exact revealed
    · exact watches.named other old isPar2
  case sets =>
    intro other otherMem
    rw [sets]
    rcases cases other otherMem with rfl | ⟨old, differs⟩
    · exact AList.lookup_insert _
    · rw [AList.lookup_insert_ne differs]
      exact watches.sets other old
  case declares =>
    rw [tracker, next_eq]
    exact watches.declares.reclassify grows isSized
  case bounded =>
    rw [tracker]
    apply watches.bounded.reclassify
    · intro other otherMem
      rcases cases other otherMem with isRevealed | ⟨old, -⟩
      · exact .inl isRevealed
      · exact .inr old
    · exact isThere
    · intro other otherMem isVolume
      apply stays other otherMem
      intro same
      rw [watches.eq_of_id follows mem otherMem same, IsVolume, isContent] at isVolume
      cases isVolume.1
    · exact isSized
  case recorded =>
    intro failure isFailure
    rw [sameFailures] at isFailure
    rcases watches.recorded failure isFailure with ⟨other, otherMem, isId, isArticle⟩
    by_cases same : other.id = file.id
    · rw [watches.eq_of_id follows mem otherMem same] at isId isArticle
      exact ⟨_, isThere, isId, isArticle⟩
    · exact ⟨other, stays other otherMem same, isId, isArticle⟩
  case once => exact sameFailures ▸ watches.once
  case missing =>
    intro other otherMem otherContent
    rcases cases other otherMem with rfl | ⟨old, differs⟩
    · cases otherContent
    · have before := watches.missing other old otherContent
      rw [missingBytes, sameFailures, confirmed, Tally.count, AList.lookup_erase_ne differs]
      exact before
  case confirmed =>
    intro fileId isKey
    rw [confirmed, AList.mem_erase] at isKey
    rcases watches.confirmed fileId isKey.2 with ⟨other, otherMem, isId, otherContent, some⟩
    refine ⟨other, stays other otherMem (isId ▸ isKey.1), isId, otherContent, ?_⟩
    rwa [Posting.refused, sameFailures]
  case attributed => exact unattributed.trans watches.attributed
  case lost =>
    rw [lostBytes, Attempt.lostBytes, sameFailures]
    exact watches.lost
  case lostIn =>
    intro setName
    rw [lostBySet, Attempt.lostBytesIn, sameFailures]
    exact watches.lostIn setName
  case destroyed =>
    have same : Posting.overall next (posting.destroyedOf next) =
        Posting.overall state (posting.destroyedOf state) := by
      have counts : posting.destroyedOf next = posting.destroyedOf state := by
        funext fileId
        simp only [Posting.destroyedOf, Posting.refused, sameFailures]
      rw [counts]
      have sums := congrArg (fun ids => (ids.map (posting.destroyedOf state)).sum) sameIds
      simpa [Posting.overall, List.map_map, Function.comp_def] using sums
    rw [lostBlocks, same]
    exact watches.destroyed

end Watches

theorem Watches.step (follows : posting.Follows files) (watches : Watches posting files state)
    (move : Attempt.Step posting state event next) (fair : next.Fair posting) :
    Watches posting files next := by
  simp only [Attempt.Step] at move
  cases event with
  | success fileId =>
      cases move
      exact watches
  | classify fileId =>
      cases move
      exact ⟨watches.ids, watches.kept, watches.named, watches.sets, ⟨watches.declares.blocks,
        watches.declares.bytes, watches.declares.blocksIn, watches.declares.bytesIn,
        watches.declares.bound⟩, ⟨watches.bounded.covers, watches.bounded.isNone⟩, watches.recorded,
        watches.once, watches.missing, watches.confirmed, watches.attributed, watches.lost,
        watches.lostIn, watches.destroyed⟩
  | failure fileId article kind =>
      simp only [Attempt.step] at move
      split at move
      · cases move
      next file found =>
        have mem := List.mem_of_find?_eq_some found
        have isId := List.find?_some found
        simp only [decide_eq_true_eq] at isId
        subst isId
        split at move
        · cases move
        next bytes listed =>
          rcases Option.ite_none_left_eq_some.mp move with ⟨isNew, next_eq⟩
          rw [Option.some.injEq] at next_eq
          rw [Bool.not_eq_true] at isNew
          rcases isPar2 : file.isPar2 with _ | _
          · rw [isPar2] at next_eq
            exact watches.content_failure mem isPar2 ⟨file.id, article, kind, false, bytes⟩ rfl rfl
              listed isNew next_eq.symm
          · rw [isPar2] at next_eq
            exact watches.par2_failure follows mem isPar2 ⟨file.id, article, kind, true, bytes⟩ rfl
              rfl listed isNew next_eq.symm fair
  | reclassify fileId =>
      simp only [Attempt.step] at move
      split at move
      next file setName vol blocks found nature =>
        have mem := List.mem_of_find?_eq_some found
        have isId := List.find?_some found
        simp only [decide_eq_true_eq] at isId
        subst isId
        rcases Option.ite_none_left_eq_some.mp move with ⟨isContent, next_eq⟩
        rw [Option.some.injEq] at next_eq
        rw [Bool.not_eq_true] at isContent
        exact watches.reclassify follows mem isContent nature next_eq.symm
      · cases move

end Watches

/-! ## The verdict -/

section Verdict

variable {posting : Posting} {files : List TrackedFile} {state : Attempt}

def positions (posting : Posting) (state : Attempt) (fileId : FileId) : Finset ℕ :=
  (Posting.refused state fileId).biUnion fun article =>
    Finset.Ico (posting.offset fileId article)
      (posting.offset fileId article + posting.size fileId article)

theorem damagedOf_eq {fileId : FileId} (isContent : posting.isContent fileId = true) :
    posting.damagedOf state fileId = ((positions posting state fileId).image fun position =>
      position / posting.sliceSize (posting.setOf fileId)).card := by
  rw [Posting.damagedOf, if_pos isContent, positions, Finset.biUnion_image]
  rfl

namespace Watches

variable {file : TrackedFile} {entry : Sigma fun _ : FileId => ℕ}

section

variable (follows : posting.Follows files)

include follows

section

variable (watches : Watches posting files state)

include watches

theorem follows_article (mem : file ∈ state.files) :
    (∀ article bytes, file.articles[article]? = some bytes →
      0 < posting.size file.id article ∧
        bytes * 100 ≤ posting.size file.id article * yencOverheadPct) ∧
      ∀ article other, article < other → other < file.articles.length →
        posting.offset file.id article + posting.size file.id article ≤
          posting.offset file.id other := by
  rcases watches.kept file mem with ⟨listed, listedMem, sameId, sameArticles, -⟩
  rw [← sameId, ← sameArticles]
  exact ⟨follows.sizes listed listedMem, follows.apart listed listedMem⟩

theorem listed_of_refused
    (mem : file ∈ state.files) {article : ℕ} (refused : article ∈ Posting.refused state file.id) :
    ∃ bytes, file.articles[article]? = some bytes := by
  simp only [Posting.refused, List.mem_toFinset, List.mem_map, List.mem_filter,
    decide_eq_true_eq] at refused
  rcases refused with ⟨failure, ⟨isFailure, isFile, -⟩, rfl⟩
  rcases watches.recorded failure isFailure with ⟨other, otherMem, isId, listed⟩
  rw [watches.eq_of_id follows mem otherMem (isId.trans isFile)] at listed
  exact ⟨failure.bytes, listed⟩

theorem card_positions (mem : file ∈ state.files) :
    (positions posting state file.id).card =
      ∑ article ∈ Posting.refused state file.id, posting.size file.id article := by
  rw [positions, Finset.card_biUnion]
  · simp
  · have apart := (watches.follows_article follows mem).2
    have below : ∀ article ∈ Posting.refused state file.id, article < file.articles.length := by
      intro article refused
      rcases watches.listed_of_refused follows mem refused with ⟨bytes, listed⟩
      exact (List.getElem?_eq_some_iff.mp listed).1
    intro article refused other otherRefused differs
    rw [Function.onFun, Finset.disjoint_left]
    intro position inFirst inSecond
    rw [Finset.mem_Ico] at inFirst inSecond
    rcases lt_or_gt_of_ne differs with before | after
    · have gap := apart article other before (below other otherRefused)
      omega
    · have gap := apart other article after (below article refused)
      omega

theorem decoded_positions (mem : file ∈ state.files) :
    missingBytes state file.id * 100 ≤
      (positions posting state file.id).card * yencOverheadPct := by
  rw [watches.card_positions follows mem, Posting.refused, missingBytes]
  generalize among : (state.failures.filter fun failure =>
    failure.fileId = file.id ∧ failure.kind = .notFound) = failures
  have once : (failures.map RecordedFailure.article).Nodup := by
    have pairs : (failures.map fun failure => (failure.fileId, failure.article)).Nodup := by
      rw [← among]
      exact watches.once.sublist ((List.filter_sublist).map _)
    have split : (failures.map fun failure => (failure.fileId, failure.article)) =
        (failures.map RecordedFailure.article).map fun article => (file.id, article) := by
      rw [List.map_map]
      apply List.map_congr_left
      intro failure isFailure
      rw [← among, List.mem_filter] at isFailure
      simp only [decide_eq_true_eq] at isFailure
      simp [isFailure.2.1]
    rw [split] at pairs
    exact pairs.of_map
  rw [List.sum_toFinset _ once, List.map_map, ← List.sum_map_mul_right, ← List.sum_map_mul_right]
  apply List.sum_le_sum
  intro failure isFailure
  rw [← among, List.mem_filter] at isFailure
  simp only [decide_eq_true_eq] at isFailure
  rcases watches.recorded failure isFailure.1 with ⟨other, otherMem, isId, listed⟩
  rw [watches.eq_of_id follows mem otherMem (isId.trans isFailure.2.1)] at listed
  exact ((watches.follows_article follows mem).1 failure.article failure.bytes listed).2

theorem fileDamagedSlices_le (classified : state.Classified posting)
    (mem : entry ∈ state.tracker.confirmedMissingFiles.entries) {bound : ℕ}
    (bounded : bound = 0 ∨ posting.sliceSize (posting.setOf entry.1) ≤ bound) :
    HopelessTracker.fileDamagedSlices entry.2 bound ≤ posting.damagedOf state entry.1 := by
  rcases entry with ⟨fileId, bytes⟩
  rcases Tally.mem_of_mem_entries mem with ⟨isKey, count⟩
  rcases watches.confirmed fileId isKey with ⟨file, fileMem, rfl, notPar2, article, refused⟩
  have isContent : posting.isContent file.id = true := by
    rcases isContent : posting.isContent file.id with _ | _
    · rw [classified file fileMem isContent] at notPar2
      cases notPar2
    · rfl
  have missing : bytes = missingBytes state file.id :=
    count.symm.trans (watches.missing file fileMem notPar2)
  rw [damagedOf_eq isContent, missing]
  apply Web.fileDamagedSlices_le (follows.positive _) bounded
  · rcases watches.listed_of_refused follows fileMem refused with ⟨declared, listed⟩
    have some := ((watches.follows_article follows fileMem).1 article declared listed).1
    refine ⟨posting.offset file.id article, ?_⟩
    rw [positions, Finset.mem_biUnion]
    exact ⟨article, refused, by simpa using some⟩
  · exact watches.decoded_positions follows fileMem

end

end

theorem bounded_of_covered (watches : Watches posting files state) (covered : state.Covered posting)
    (classified : state.Classified posting)
    (mem : entry ∈ state.tracker.confirmedMissingFiles.entries) :
    state.tracker.sliceSizeBound = 0 ∨
      posting.sliceSize (posting.setOf entry.1) ≤ state.tracker.sliceSizeBound := by
  rcases watches.confirmed entry.1 (Tally.mem_of_mem_entries mem).1 with
    ⟨file, fileMem, isId, notPar2, refused⟩
  have isContent : posting.isContent file.id = true := by
    rcases isContent : posting.isContent file.id with _ | _
    · rw [classified file fileMem isContent] at notPar2
      cases notPar2
    · rfl
  rw [← isId] at refused ⊢
  rcases covered file fileMem isContent refused with ⟨volume, volumeMem, isPar2, some, same⟩ | none
  · right
    rw [← same]
    exact watches.bounded.covers volume volumeMem ⟨isPar2, some⟩
  · left
    apply watches.bounded.isNone
    intro volume volumeMem isVolume
    have zero := none volume volumeMem isVolume.1
    have some := isVolume.2
    omega

theorem damagedSlicesLowerBound_le (follows : posting.Follows files)
    (watches : Watches posting files state) (classified : state.Classified posting)
    (covered : state.Covered posting) :
    state.tracker.damagedSlicesLowerBound ≤
      Posting.overall state (posting.damagedOf state) := by
  rw [HopelessTracker.damagedSlicesLowerBound, if_neg (by simp [watches.attributed]),
    Posting.overall]
  apply Tally.sum_le_sum_of_keys TrackedFile.id state.tracker.confirmedMissingFiles.nodupKeys
  intro entry mem
  rcases watches.confirmed entry.1 (Tally.mem_of_mem_entries mem).1 with ⟨file, fileMem, isId, -⟩
  refine ⟨file, fileMem, isId, ?_⟩
  rw [isId]
  exact watches.fileDamagedSlices_le follows classified mem
    (watches.bounded_of_covered covered classified mem)

theorem boundedSet_spec (follows : posting.Follows files) (watches : Watches posting files state)
    (classified : state.Classified posting)
    (mem : entry ∈ state.tracker.confirmedMissingFiles.entries) {setName : String} {bound : ℕ}
    (isSet : state.tracker.boundedSet entry.1 = some (setName, bound)) :
    posting.setOf entry.1 = some setName ∧ posting.sliceSize (some setName) ≤ bound := by
  rcases watches.confirmed entry.1 (Tally.mem_of_mem_entries mem).1 with
    ⟨file, fileMem, isId, notPar2, -⟩
  have known := watches.sets file fileMem
  rw [isId, if_neg (by simp [notPar2])] at known
  rw [HopelessTracker.boundedSet, known] at isSet
  rcases associated : HopelessTracker.associatedSet files file with _ | own
  · simp [associated] at isSet
  · simp only [associated, Option.map_eq_some_iff, Prod.mk.injEq] at isSet
    rcases isSet with ⟨_, isBound, rfl, rfl⟩
    refine ⟨?_, watches.declares.bound _ _ isBound⟩
    rcases watches.kept file fileMem with ⟨listed, listedMem, -, -, same⟩
    rw [same notPar2] at listedMem
    rw [← isId, Posting.setOf]
    split
    next setName nature =>
      rw [follows.associated file listedMem setName nature, associated]
    next nature =>
      have isPar2 := classified file fileMem (by simp [Posting.isContent, nature])
      rw [notPar2] at isPar2
      cases isPar2

theorem damagedBySet_le (follows : posting.Follows files) (watches : Watches posting files state)
    (classified : state.Classified posting) (setName : String) :
    state.tracker.damagedBySet.count setName ≤
      posting.inSet state (some setName) (posting.damagedOf state) := by
  rw [HopelessTracker.damagedBySet, Tally.count_fill, Tally.count_empty, Nat.zero_add,
    Posting.inSet, Posting.overall]
  apply Tally.sum_le_sum_of_keys TrackedFile.id
  · exact state.tracker.confirmedMissingFiles.nodupKeys.sublist List.filter_sublist
  · intro entry mem
    rcases List.mem_filter.mp mem with ⟨isEntry, isSet⟩
    simp only [decide_eq_true_eq, Option.map_eq_some_iff] at isSet
    rcases isSet with ⟨⟨_, bound⟩, isSet, rfl⟩
    rcases watches.boundedSet_spec follows classified isEntry isSet with ⟨inSet, bounded⟩
    rcases watches.confirmed entry.1 (Tally.mem_of_mem_entries isEntry).1 with
      ⟨file, fileMem, isId, -⟩
    refine ⟨file, fileMem, isId, ?_⟩
    rw [isId, if_pos inSet, isSet]
    apply watches.fileDamagedSlices_le follows classified isEntry
    rw [inSet]
    exact .inr bounded

theorem declared_eq (classified : state.Classified posting)
    {weight : TrackedFile → ℕ} {count : FileId → ℕ}
    (same : ∀ file ∈ state.files, file.isPar2 = true → weight file = count file.id)
    (zero : ∀ fileId, posting.isContent fileId = true → count fileId = 0) :
    declared state.files weight = Posting.overall state count := by
  rw [Posting.overall, declared]
  simp only [Attempt.Classified] at classified
  generalize state.files = files at same classified
  induction files with
  | nil => rfl
  | cons file files ih =>
      simp only [List.mem_cons, forall_eq_or_imp] at same classified
      have rest := ih same.2 classified.2
      rcases isPar2 : file.isPar2 with _ | _
      · have isContent : posting.isContent file.id = true := by
          rcases isContent : posting.isContent file.id with _ | _
          · rw [classified.1 isContent] at isPar2
            cases isPar2
          · rfl
        simp [isPar2, zero file.id isContent, rest]
      · simp [isPar2, same.1 isPar2, rest]

section

variable (follows : posting.Follows files)

include follows

section

variable (watches : Watches posting files state)

include watches

theorem fetchableOf_add_destroyedOf (mem : file ∈ state.files) :
    posting.fetchableOf state file.id + posting.destroyedOf state file.id =
      posting.blocks file.id := by
  rw [Posting.fetchableOf]
  apply Nat.sub_add_cancel
  rw [Posting.destroyedOf]
  split
  · exact Nat.zero_le _
  · rcases watches.kept file mem with ⟨listed, listedMem, sameId, -, -⟩
    have within : (Posting.refused state file.id).biUnion (posting.carries file.id) ⊆
        Finset.range (posting.blocks file.id) := by
      rw [Finset.biUnion_subset, ← sameId]
      exact fun article _ => follows.carries listed listedMem article
    simpa using Finset.card_le_card within

theorem sum_fetchable (part : FileId → Prop) [DecidablePred part] :
    Posting.overall state
      (fun fileId => if part fileId then posting.fetchableOf state fileId else 0) +
        Posting.overall state
          (fun fileId => if part fileId then posting.destroyedOf state fileId else 0) =
      Posting.overall state fun fileId => if part fileId then posting.blocks fileId else 0 := by
  rw [Posting.overall, Posting.overall, Posting.overall, ← List.sum_map_add]
  congr 1
  apply List.map_congr_left
  intro file mem
  split
  · exact watches.fetchableOf_add_destroyedOf follows mem
  · rfl

theorem fetchable_le (classified : state.Classified posting) :
    Posting.overall state (posting.fetchableOf state) ≤ state.tracker.recoveryBlocksAvailable := by
  have total : Posting.overall state (posting.fetchableOf state) +
      Posting.overall state (posting.destroyedOf state) = Posting.overall state posting.blocks := by
    simpa only [if_true] using watches.sum_fetchable follows fun _ => True
  have known : declared state.files TrackedFile.blocks = Posting.overall state posting.blocks := by
    apply declared_eq classified
    · exact fun file mem isPar2 => (blocks_of_named (watches.named file mem isPar2)).1.symm
    · intro fileId isContent
      simp only [Posting.isContent] at isContent
      split at isContent
      next nature => simp [Posting.blocks, nature]
      · cases isContent
  have destroyed := watches.destroyed
  have blocks := watches.declares.blocks
  rw [HopelessTracker.recoveryBlocksAvailable]
  omega

theorem set_fetchable_le
    (classified : state.Classified posting) (fair : state.Fair posting) (setName : String) :
    posting.inSet state (some setName) (posting.fetchableOf state) ≤
      state.tracker.setRecoveryBlocksAvailable setName := by
  have total := watches.sum_fetchable follows fun fileId => posting.setOf fileId = some setName
  have known : declared state.files (TrackedFile.blocksIn setName) =
      Posting.overall state fun fileId =>
        if posting.setOf fileId = some setName then posting.blocks fileId else 0 := by
    apply declared_eq classified
    · intro file mem isPar2
      rcases blocks_of_named (watches.named file mem isPar2) with ⟨blocks, isSet, -⟩
      rw [TrackedFile.blocksIn, blocks, isSet]
    · intro fileId isContent
      simp only [Posting.isContent] at isContent
      split at isContent
      next nature => simp [Posting.blocks, nature]
      · cases isContent
  have blocks := watches.declares.blocksIn setName
  have bytes := watches.declares.bytesIn setName
  have share := fair.set setName
  have lost := watches.lostIn setName
  rw [← blocks, ← bytes] at share
  rw [HopelessTracker.setRecoveryBlocksAvailable]
  have few : (if state.tracker.recoveryCapacityBySet.count setName = 0 then 0
      else (min (state.tracker.recoveryUnavailableBySet.count setName)
        (state.tracker.recoveryCapacityBySet.count setName) *
          state.tracker.recoveryBlocksBySet.count setName) ⌈/⌉
            state.tracker.recoveryCapacityBySet.count setName) ≤
      posting.inSet state (some setName) (posting.destroyedOf state) := by
    split
    · exact Nat.zero_le _
    next some =>
      rw [ceilDiv_le_iff_le_mul (Nat.pos_of_ne_zero some)]
      calc min (state.tracker.recoveryUnavailableBySet.count setName)
            (state.tracker.recoveryCapacityBySet.count setName) *
              state.tracker.recoveryBlocksBySet.count setName
          ≤ state.lostBytesIn posting setName *
              state.tracker.recoveryBlocksBySet.count setName :=
            Nat.mul_le_mul_right _ ((min_le_left _ _).trans lost)
        _ ≤ posting.inSet state (.some setName) (posting.destroyedOf state) *
              state.tracker.recoveryCapacityBySet.count setName := share
        _ = state.tracker.recoveryCapacityBySet.count setName *
              posting.inSet state (.some setName) (posting.destroyedOf state) := Nat.mul_comm _ _
  simp only [Posting.inSet] at few total ⊢
  omega

theorem exceeds (classified : state.Classified posting) (covered : state.Covered posting)
    (fair : state.Fair posting) {abort : ParityAbort}
    (aborts : state.tracker.parityCheck = some abort) : posting.Exceeds state abort := by
  rw [HopelessTracker.parityCheck] at aborts
  split at aborts
  · cases aborts
  · dsimp only at aborts
    split at aborts
    next below =>
      cases aborts
      exact ((watches.fetchable_le follows classified).trans_lt below).trans_le
        (watches.damagedSlicesLowerBound_le follows classified covered)
    · rcases List.exists_of_findSome?_eq_some aborts with ⟨entry, mem, isAbort⟩
      rw [List.mem_mergeSort] at mem
      rcases Option.ite_none_right_eq_some.mp isAbort with ⟨below, ⟨⟩⟩
      have damaged := (Tally.mem_of_mem_entries mem).2
      rw [← damaged] at below
      exact ((watches.set_fetchable_le follows classified fair entry.1).trans_lt below).trans_le
        (watches.damagedBySet_le follows classified entry.1)

end

end

end Watches

theorem overall_le_of_inSet {count other : FileId → ℕ}
    (le : ∀ setName, posting.inSet state setName count ≤ posting.inSet state setName other) :
    Posting.overall state count ≤ Posting.overall state other := by
  have bySet : ∀ (count : FileId → ℕ) (files : List TrackedFile),
      (∀ file ∈ files, file ∈ state.files) → (files.map fun file => count file.id).sum =
        ∑ setName ∈ (state.files.map fun file => posting.setOf file.id).toFinset,
          (files.map fun file =>
            if posting.setOf file.id = setName then count file.id else 0).sum := by
    intro count files
    induction files with
    | nil => simp
    | cons file files ih =>
        intro among
        rw [List.map_cons, List.sum_cons, ih fun other mem =>
          among other (List.mem_cons_of_mem _ mem)]
        simp only [List.map_cons, List.sum_cons, Finset.sum_add_distrib, Finset.sum_ite_eq]
        rw [if_pos]
        rw [List.mem_toFinset]
        exact List.mem_map_of_mem (among file List.mem_cons_self)
  rw [Posting.overall, Posting.overall, bySet count _ fun _ => id, bySet other _ fun _ => id]
  exact Finset.sum_le_sum fun setName _ => le setName

theorem not_repairable {abort : ParityAbort} (exceeds : posting.Exceeds state abort) :
    ¬posting.Repairable state := by
  intro repairable
  cases abort with
  | job damaged available =>
      exact absurd (overall_le_of_inSet repairable) (Nat.not_le.mpr exceeds)
  | set setName damaged available =>
      exact absurd (repairable (some setName)) (Nat.not_le.mpr exceeds)

end Verdict

theorem fair_of_none {posting : Posting} {state : Attempt}
    (none : ∀ failure ∈ state.failures, failure.isPar2 = false) : state.Fair posting := by
  have noLost : state.failures.filter RecordedFailure.isPar2 = [] := by
    rw [List.filter_eq_nil_iff]
    intro failure mem
    simp [none failure mem]
  constructor
  · simp [Attempt.lostBytes, noLost]
  · intro setName
    have noLostIn : (state.failures.filter fun failure =>
        failure.isPar2 ∧ posting.setOf failure.fileId = some setName) = [] := by
      rw [List.filter_eq_nil_iff]
      intro failure mem
      simp [none failure mem]
    rw [Attempt.lostBytesIn, noLostIn]
    simp

/-- Two content files, an index and a volume of one recovery slice, all of one article. -/
def postedFiles : List TrackedFile :=
  [{ id := "a", filename := "a.mkv", isPar2 := false, par2SetName := none, par2Vol := none
     par2Blocks := none, articles := [100] },
    { id := "b", filename := "b.mkv", isPar2 := false, par2SetName := none, par2Vol := none
      par2Blocks := none, articles := [100] },
    { id := "index", filename := "p.par2", isPar2 := true, par2SetName := some "p"
      par2Vol := none, par2Blocks := none, articles := [50] },
    { id := "volume", filename := "p.vol0+1.par2", isPar2 := true, par2SetName := some "p"
      par2Vol := some 0, par2Blocks := some 1, articles := [150] }]

def posted : Posting where
  nature
    | "index" => .par2 (some "p") none none
    | "volume" => .par2 (some "p") (some 0) (some 1)
    | _ => .content (some "p")
  sliceSize _ := 100
  offset _ _ := 0
  size
    | "index", _ => 50
    | "volume", _ => 150
    | _, _ => 100
  carries
    | "volume", _ => {0}
    | _, _ => ∅

theorem follows_posted : posted.Follows postedFiles := by
  have single : HopelessTracker.recoverySetNames postedFiles = ["p"] := by decide +kernel
  constructor
  case ids => decide
  case fits => decide
  case positive => exact fun _ => Nat.succ_pos 99
  case named => decide
  case associated =>
    intro file mem setName nature
    rw [HopelessTracker.associatedSet, single]
    simp only [postedFiles, List.mem_cons, List.not_mem_nil, or_false] at mem
    rcases mem with rfl | rfl | rfl | rfl <;> cases nature <;> rfl
  case sizes =>
    have checked : ∀ file ∈ postedFiles, ∀ article : Fin file.articles.length,
        0 < posted.size file.id article ∧
          file.articles[article] * 100 ≤ posted.size file.id article * yencOverheadPct := by
      decide
    intro file mem article bytes listed
    rcases List.getElem?_eq_some_iff.mp listed with ⟨within, rfl⟩
    exact checked file mem ⟨article, within⟩
  case apart =>
    intro file mem article other after within
    simp only [postedFiles, List.mem_cons, List.not_mem_nil, or_false] at mem
    rcases mem with rfl | rfl | rfl | rfl <;> cases Nat.lt_one_iff.mp within <;> cases after
  case whole => decide
  case carries =>
    intro file mem article
    simp only [postedFiles, List.mem_cons, List.not_mem_nil, or_false] at mem
    rcases mem with rfl | rfl | rfl | rfl
    · exact Finset.empty_subset _
    · exact Finset.empty_subset _
    · exact Finset.empty_subset _
    · exact Finset.Subset.refl {0}

theorem fair_posted {state : Attempt} (sameFiles : state.files = postedFiles)
    (job : state.lostBytes ≤ Posting.overall state (posted.destroyedOf state) * 150)
    (set : state.lostBytesIn posted "p" ≤
      posted.inSet state (some "p") (posted.destroyedOf state) * 150) : state.Fair posted := by
  constructor
  · rw [sameFiles]
    exact (Nat.mul_one _).trans_le job
  · intro setName
    rw [sameFiles]
    by_cases same : setName = "p"
    · subst same
      have blocks : declared postedFiles (TrackedFile.blocksIn "p") = 1 := by decide +kernel
      have bytes : declared postedFiles (TrackedFile.volumeBytesIn "p") = 150 := by decide +kernel
      rwa [blocks, bytes, Nat.mul_one]
    · have sets : ∀ file ∈ postedFiles.filter TrackedFile.isPar2, file.setName = some "p" := by
        decide +kernel
      have none : declared postedFiles (TrackedFile.blocksIn setName) = 0 := by
        apply List.sum_eq_zero
        intro count mem
        rcases List.mem_map.mp mem with ⟨file, fileMem, rfl⟩
        rw [TrackedFile.blocksIn, sets file fileMem, if_neg]
        exact fun held => same (Option.some.inj held).symm
      rw [none, Nat.mul_zero]
      exact Nat.zero_le _

/-- The article of the volume is refused, and then one of a content file. -/
def volumeRefused : List AttemptEvent := [.failure "volume" 0 .notFound, .failure "a" 0 .notFound]

end Rustnzb.Web
