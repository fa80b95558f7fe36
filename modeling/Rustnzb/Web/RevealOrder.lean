import Rustnzb.Lib.Commuting
import Rustnzb.Web.ByteTiers
import Rustnzb.Web.ParityAbort

/-!
# The order of the calls of a tracker

A yEnc header may reveal late that a file is PAR2. Calls that count, in any order, leave a tracker
that reads the same. A reclassification takes back the bytes of a file but not the articles that
were counted before it, so that it always leaves a trace in the counters.
-/

namespace Rustnzb.Web

open Dispatch (FileId ArticleFailureKind)
open Lib (Tally)

/-- A call that `handle_progress` makes for a file, or two of them with what is PAR2 by then. -/
inductive TrackerCall where
  | success (fileId : FileId)
  | failure (fileId : FileId) (declaredBytes : ℕ) (kind : ArticleFailureKind)
  | reclassify (fileId : FileId)
  | markClassified (fileId : FileId)
  deriving DecidableEq

/-- What the yEnc name of a file tells of a PAR2 file. -/
structure RevealedName where
  setName : Option String
  vol : Option ℕ
  blocks : Option ℕ

structure TrackedJob where
  files : List TrackedFile
  tracker : JobTracker

namespace TrackedJob

def isPar2 (files : List TrackedFile) (fileId : FileId) : Bool :=
  (files.find? fun file => file.id = fileId).any TrackedFile.isPar2

def reveal (files : List TrackedFile) (fileId : FileId) (name : RevealedName) : List TrackedFile :=
  files.map fun file =>
    if file.id = fileId then file.reveal name.setName name.vol name.blocks else file

def start (files : List TrackedFile) : TrackedJob where
  files := files
  tracker := .new files

variable (names : FileId → RevealedName)

def step (job : TrackedJob) : TrackerCall → TrackedJob
  | .success fileId =>
      { job with tracker := job.tracker.recordSuccess (isPar2 job.files fileId) }
  | .failure fileId declaredBytes kind =>
      { job with
        tracker := job.tracker.recordFileFailure (some fileId) (isPar2 job.files fileId)
          declaredBytes kind }
  | .reclassify fileId =>
      match job.files.find? fun file => file.id = fileId with
      | some file =>
          if file.isPar2 then job
          else
            { files := reveal job.files fileId (names fileId)
              tracker := job.tracker.reclassifyAsPar2 fileId file.bytes file.articles.length
                (names fileId).vol (names fileId).blocks (names fileId).setName }
      | none => job
  | .markClassified fileId => { job with tracker := job.tracker.markFileClassified fileId }

def run (job : TrackedJob) (calls : List TrackerCall) : TrackedJob := calls.foldl (step names) job

def reclassified (files : List TrackedFile) (calls : List TrackerCall) : List TrackedFile :=
  files.map fun file =>
    if .reclassify file.id ∈ calls then
      file.reveal (names file.id).setName (names file.id).vol (names file.id).blocks
    else file

/-- Calls as a download makes them: a file is reclassified that is not yet known as PAR2, after an
article of it was received. -/
structure Ordered (files : List TrackedFile) (calls : List TrackerCall) : Prop where
  content : ∀ fileId, .reclassify fileId ∈ calls →
    (∃ file ∈ files, file.id = fileId) ∧ isPar2 files fileId = false
  received : ∀ before fileId after, calls = before ++ .reclassify fileId :: after →
    .success fileId ∈ before

/-- The counters are those of a tracker that knew the files from the start, and any other order of
the calls leads to the same verdict for every setting. -/
structure OrderFree (files : List TrackedFile) (calls : List TrackerCall) : Prop where
  counters : (run names (start files) calls).tracker.reading =
    (run names (start (reclassified names files calls)) calls).tracker.reading
  verdict : ∀ others, others.Perm calls → Ordered files others →
    ∀ (Pct : Type) (floats : Floats Pct) (requiredPct : Pct)
      (abortHopeless earlyFailureCheck : Bool),
      (run names (start files) others).tracker.check floats requiredPct abortHopeless
          earlyFailureCheck =
        (run names (start files) calls).tracker.check floats requiredPct abortHopeless
          earlyFailureCheck

/-! ## Counting calls -/

end TrackedJob

namespace Reading

def give {Key : Type*} [DecidableEq Key] (map : Key → Option ℕ) (key : Key) (amount : ℕ) :
    Key → Option ℕ :=
  fun other => if other = key then some ((map key).getD 0 + amount) else map other

theorem give_comm {Key : Type*} [DecidableEq Key] (map : Key → Option ℕ) (first second : Key)
    (amount other : ℕ) :
    give (give map first amount) second other = give (give map second other) first amount := by
  funext key
  by_cases same : first = second
  · subst same
    simp only [give, if_pos]
    split
    · simp [Nat.add_right_comm]
    · rfl
  · have same' : second ≠ first := Ne.symm same
    simp only [give, same, same', if_false]
    split_ifs <;> simp_all

theorem lookup_bump_eq_give {Key : Type*} [DecidableEq Key] (tally : Tally Key) (key : Key)
    (amount : ℕ) :
    (fun other => (tally.bump key amount).lookup other) =
      give (fun other => tally.lookup other) key amount := by
  funext other
  rw [Tally.lookup_bump]
  rfl

def recordSuccess (counters : Reading) (isPar2 : Bool) : Reading :=
  if isPar2 then counters
  else { counters with contentArticlesChecked := counters.contentArticlesChecked + 1 }

def recordVolumeFailure (counters : Reading) (fileId : FileId) (bytes : ℕ) : Reading :=
  let unavailable :=
    min (counters.recoveryBytesUnavailable + bytes) counters.recoveryCapacityBytes
  { counters with
    recoveryBytesUnavailable := unavailable
    recoveryBlocksUnavailable :=
      if 0 < counters.recoveryCapacityBytes ∧ 0 < counters.recoveryBlocksTotal then
        min ((unavailable * counters.recoveryBlocksTotal) ⌈/⌉ counters.recoveryCapacityBytes)
          counters.recoveryBlocksTotal
      else counters.recoveryBlocksUnavailable
    recoveryUnavailableBySet :=
      match counters.contentFileSets fileId with
      | some (some setName) => give counters.recoveryUnavailableBySet setName bytes
      | _ => counters.recoveryUnavailableBySet }

def recordContentFailure (counters : Reading) (fileId : FileId) (bytes : ℕ)
    (kind : ArticleFailureKind) : Reading :=
  { counters with
    confirmedMissingFiles :=
      if kind = .notFound then give counters.confirmedMissingFiles fileId bytes
      else counters.confirmedMissingFiles
    contentArticlesChecked := counters.contentArticlesChecked + 1
    contentArticlesFailed :=
      counters.contentArticlesFailed + if countsTowardHopeless kind then 1 else 0
    contentBytesMissing :=
      counters.contentBytesMissing + if countsTowardHopeless kind then bytes else 0
    missingContentBySet :=
      match counters.contentFileSets fileId with
      | some (some setName) =>
          if countsTowardHopeless kind then give counters.missingContentBySet setName bytes
          else counters.missingContentBySet
      | _ => counters.missingContentBySet
    unassociatedMissingBytes :=
      match counters.contentFileSets fileId with
      | some (some _) => counters.unassociatedMissingBytes
      | _ => counters.unassociatedMissingBytes + if countsTowardHopeless kind then bytes else 0 }

def markClassified (counters : Reading) (fileId : FileId) : Reading :=
  { counters with
    pendingFileClassifications := fun other =>
      counters.pendingFileClassifications other ∧ other ≠ fileId }

def step (isPar2 : FileId → Bool) (counters : Reading) : TrackerCall → Reading
  | .success fileId => counters.recordSuccess (isPar2 fileId)
  | .failure fileId bytes kind =>
      if isPar2 fileId then counters.recordVolumeFailure fileId bytes
      else counters.recordContentFailure fileId bytes kind
  | .reclassify _ => counters
  | .markClassified fileId => counters.markClassified fileId

theorem recordVolumeFailure_comm (counters : Reading) (first second : FileId) (bytes other : ℕ) :
    (counters.recordVolumeFailure first bytes).recordVolumeFailure second other =
      (counters.recordVolumeFailure second other).recordVolumeFailure first bytes := by
  have sums : min (min (counters.recoveryBytesUnavailable + bytes)
      counters.recoveryCapacityBytes + other) counters.recoveryCapacityBytes =
        min (min (counters.recoveryBytesUnavailable + other)
          counters.recoveryCapacityBytes + bytes) counters.recoveryCapacityBytes := by
    omega
  simp only [recordVolumeFailure, sums]
  congr 1
  · split_ifs <;> rfl
  · rcases counters.contentFileSets first with _ | _ | firstSet <;>
      rcases counters.contentFileSets second with _ | _ | secondSet <;>
        simp [give_comm]

theorem recordContentFailure_comm (counters : Reading) (first second : FileId) (bytes other : ℕ)
    (kind otherKind : ArticleFailureKind) :
    (counters.recordContentFailure first bytes kind).recordContentFailure second other otherKind =
      (counters.recordContentFailure second other otherKind).recordContentFailure first bytes
        kind := by
  simp only [recordContentFailure]
  congr 1
  · split_ifs <;> first | rfl | exact give_comm _ _ _ _ _
  · rcases counters.contentFileSets first with _ | _ | firstSet <;>
      rcases counters.contentFileSets second with _ | _ | secondSet <;>
        first | rfl | (split_ifs <;> first | rfl | exact give_comm _ _ _ _ _)
  · rcases counters.contentFileSets first with _ | _ | firstSet <;>
      rcases counters.contentFileSets second with _ | _ | secondSet <;>
        simp only [Nat.add_right_comm]
  · exact Nat.add_right_comm _ _ _
  · exact Nat.add_right_comm _ _ _

theorem markClassified_comm (counters : Reading) (first second : FileId) :
    (counters.markClassified first).markClassified second =
      (counters.markClassified second).markClassified first := by
  simp only [markClassified, and_right_comm]

theorem step_comm (isPar2 : FileId → Bool) (counters : Reading) (call other : TrackerCall) :
    (counters.step isPar2 call).step isPar2 other =
      (counters.step isPar2 other).step isPar2 call := by
  cases call with
  | reclassify fileId => rfl
  | success fileId =>
      cases other with
      | failure other bytes kind =>
          cases first : isPar2 fileId <;> cases second : isPar2 other <;>
            simp only [step, first, second] <;> rfl
      | success other =>
          cases first : isPar2 fileId <;> cases second : isPar2 other <;>
            simp only [step, first, second] <;> rfl
      | _ => cases first : isPar2 fileId <;> simp only [step, first] <;> rfl
  | failure fileId bytes kind =>
      cases other with
      | failure other otherBytes otherKind =>
          cases first : isPar2 fileId <;> cases second : isPar2 other <;>
            simp only [step, first, second, if_true, Bool.false_eq_true, if_false]
          · exact recordContentFailure_comm _ _ _ _ _ _ _
          · rfl
          · rfl
          · exact recordVolumeFailure_comm _ _ _ _ _
      | success other =>
          cases first : isPar2 fileId <;> cases second : isPar2 other <;>
            simp only [step, first, second] <;> rfl
      | _ => cases first : isPar2 fileId <;> simp only [step, first] <;> rfl
  | markClassified fileId =>
      cases other with
      | markClassified other => exact markClassified_comm counters fileId other
      | reclassify other => rfl
      | success other => cases second : isPar2 other <;> simp only [step, second] <;> rfl
      | failure other bytes kind =>
          cases second : isPar2 other <;> simp only [step, second] <;> rfl

end Reading

namespace JobTracker

theorem reading_recordSuccess (tracker : JobTracker) (isPar2 : Bool) :
    (tracker.recordSuccess isPar2).reading = tracker.reading.recordSuccess isPar2 := by
  cases isPar2 <;> rfl

theorem reading_volumeFailure (tracker : JobTracker) (fileId : FileId) (bytes : ℕ)
    (kind : ArticleFailureKind) :
    (tracker.recordFileFailure (some fileId) true bytes kind).reading =
      tracker.reading.recordVolumeFailure fileId bytes := by
  simp only [recordFileFailure, HopelessTracker.recordFileFailure, if_true,
    HopelessTracker.recordVolumeFailure, ContentCounters.recordFailure, Option.bind_some,
    Reading.recordVolumeFailure, reading]
  rcases tracker.parity.contentFileSets.lookup fileId with _ | _ | setName
  · rfl
  · rfl
  · simp only [Reading.lookup_bump_eq_give]
    rfl

theorem reading_contentFailure (tracker : JobTracker) (fileId : FileId) (bytes : ℕ)
    (kind : ArticleFailureKind) :
    (tracker.recordFileFailure (some fileId) false bytes kind).reading =
      tracker.reading.recordContentFailure fileId bytes kind := by
  simp only [recordFileFailure, HopelessTracker.recordFileFailure, Bool.false_eq_true, if_false,
    ContentCounters.recordFailure, Option.bind_some, Reading.recordContentFailure, reading]
  by_cases missing : kind = .notFound
  · subst missing
    rcases tracker.parity.contentFileSets.lookup fileId with _ | _ | setName <;>
      simp [countsTowardHopeless, Reading.lookup_bump_eq_give]
  · by_cases decode : kind = .decodeError
    · subst decode
      rcases tracker.parity.contentFileSets.lookup fileId with _ | _ | setName <;>
        simp [countsTowardHopeless, Reading.lookup_bump_eq_give]
    · have counted : countsTowardHopeless kind = false := by
        simp [countsTowardHopeless, missing, decode]
      rcases tracker.parity.contentFileSets.lookup fileId with _ | _ | setName <;>
        simp [counted, missing]

theorem reading_markFileClassified (tracker : JobTracker) (fileId : FileId) :
    (tracker.markFileClassified fileId).reading = tracker.reading.markClassified fileId := by
  simp [markFileClassified, HopelessTracker.markFileClassified, reading, Reading.markClassified]

end JobTracker

namespace TrackedJob

variable (names : FileId → RevealedName)

def Counts (call : TrackerCall) : Prop := ∀ fileId, call ≠ .reclassify fileId

def Alike (first second : TrackedJob) : Prop :=
  first.files = second.files ∧ first.tracker.reading = second.tracker.reading

theorem alike_equivalence : Equivalence Alike where
  refl _ := ⟨rfl, rfl⟩
  symm alike := ⟨alike.1.symm, alike.2.symm⟩
  trans first second := ⟨first.1.trans second.1, first.2.trans second.2⟩

theorem step_of_counts (job : TrackedJob) {call : TrackerCall} (counts : Counts call) :
    (step names job call).files = job.files ∧
      (step names job call).tracker.reading =
        job.tracker.reading.step (isPar2 job.files) call := by
  cases call with
  | success fileId => exact ⟨rfl, job.tracker.reading_recordSuccess _⟩
  | failure fileId bytes kind =>
      refine ⟨rfl, ?_⟩
      rw [step, Reading.step]
      cases isPar2 job.files fileId with
      | true => exact job.tracker.reading_volumeFailure fileId bytes kind
      | false => exact job.tracker.reading_contentFailure fileId bytes kind
  | reclassify fileId => exact absurd rfl (counts fileId)
  | markClassified fileId => exact ⟨rfl, job.tracker.reading_markFileClassified fileId⟩

theorem alike_run_of_perm {calls others : List TrackerCall} (perm : calls.Perm others)
    (counts : ∀ call ∈ calls, Counts call) (job : TrackedJob) :
    Alike (run names job calls) (run names job others) := by
  refine Lib.foldl_perm_of_commutes alike_equivalence ?_ ?_ perm counts job
  · rintro first second call counts ⟨files, reading⟩
    rcases step_of_counts names first counts with ⟨firstFiles, firstReading⟩
    rcases step_of_counts names second counts with ⟨secondFiles, secondReading⟩
    exact ⟨by rw [firstFiles, secondFiles, files],
      by rw [firstReading, secondReading, files, reading]⟩
  · intro job call other callCounts otherCounts
    rcases step_of_counts names job callCounts with ⟨callFiles, callReading⟩
    rcases step_of_counts names job otherCounts with ⟨otherFiles, otherReading⟩
    rcases step_of_counts names (step names job call) otherCounts with
      ⟨firstFiles, firstReading⟩
    rcases step_of_counts names (step names job other) callCounts with
      ⟨secondFiles, secondReading⟩
    refine ⟨by rw [firstFiles, secondFiles, callFiles, otherFiles], ?_⟩
    rw [firstReading, secondReading, callFiles, otherFiles, callReading, otherReading,
      Reading.step_comm]

/-! ## What a reclassification leaves -/

theorem find?_map_of_id {update : TrackedFile → TrackedFile}
    (id_eq : ∀ file, (update file).id = file.id) (files : List TrackedFile) (fileId : FileId) :
    (files.map update).find? (fun file => file.id = fileId) =
      (files.find? fun file => file.id = fileId).map update := by
  rw [List.find?_map]
  congr 2
  funext file
  simp [id_eq]

theorem isPar2_map {update : TrackedFile → TrackedFile} (revealed : FileId → Bool)
    (id_eq : ∀ file, (update file).id = file.id)
    (par2_eq : ∀ file, (update file).isPar2 = (file.isPar2 || revealed file.id))
    (files : List TrackedFile) (fileId : FileId) :
    isPar2 (files.map update) fileId =
      (isPar2 files fileId ||
        (revealed fileId && (files.find? fun file => file.id = fileId).isSome)) := by
  rw [isPar2, isPar2, find?_map_of_id id_eq]
  cases found : files.find? fun file => file.id = fileId with
  | none => simp
  | some file =>
      have same : file.id = fileId := by simpa using List.find?_some found
      simp [par2_eq, same]

theorem isPar2_reveal (files : List TrackedFile) (fileId other : FileId) (name : RevealedName) :
    isPar2 (reveal files fileId name) other =
      (isPar2 files other ||
        (decide (other = fileId) && (files.find? fun file => file.id = other).isSome)) := by
  refine isPar2_map (fun id => decide (id = fileId)) (fun file => ?_) (fun file => ?_) files other
  · split <;> rfl
  · split <;> simp_all [TrackedFile.reveal]

theorem isPar2_reclassified (files : List TrackedFile) (calls : List TrackerCall)
    (fileId : FileId) :
    isPar2 (reclassified names files calls) fileId =
      (isPar2 files fileId || (decide (.reclassify fileId ∈ calls) &&
        (files.find? fun file => file.id = fileId).isSome)) := by
  refine isPar2_map (fun id => decide (.reclassify id ∈ calls)) (fun file => ?_) (fun file => ?_)
    files fileId
  · split <;> rfl
  · split <;> simp_all [TrackedFile.reveal]

def checked (job : TrackedJob) : ℕ := job.tracker.content.contentArticlesChecked

theorem checked_step (job : TrackedJob) (call : TrackerCall) :
    checked (step names job call) = checked job +
      match call with
      | .success fileId | .failure fileId _ _ => if isPar2 job.files fileId then 0 else 1
      | _ => 0 := by
  cases call with
  | success fileId =>
      cases par2 : isPar2 job.files fileId <;>
        simp [step, checked, JobTracker.recordSuccess, ContentCounters.recordSuccess, par2]
  | failure fileId bytes kind =>
      cases par2 : isPar2 job.files fileId
      · simp only [step, checked, JobTracker.recordFileFailure, ContentCounters.recordFailure, par2,
          Bool.false_eq_true, if_false]
        split
        · split <;> rfl
        · rfl
      · simp [step, checked, JobTracker.recordFileFailure, ContentCounters.recordFailure, par2]
  | reclassify fileId =>
      simp only [step, checked]
      split
      · split
        · rfl
        · rfl
      · rfl
  | markClassified fileId => rfl

theorem reclassify_of_isPar2 (job : TrackedJob) {fileId : FileId}
    (par2 : isPar2 job.files fileId = true) : step names job (.reclassify fileId) = job := by
  rw [step]
  rw [isPar2] at par2
  cases found : job.files.find? fun file => file.id = fileId with
  | none => rfl
  | some file =>
      rw [found, Option.any_some] at par2
      simp only [par2, if_true]

theorem isPar2_of_step {job : TrackedJob} {call : TrackerCall} {fileId : FileId}
    (par2 : isPar2 (step names job call).files fileId = true) :
    isPar2 job.files fileId = true ∨ call = .reclassify fileId := by
  by_cases counts : Counts call
  · rw [(step_of_counts names job counts).1] at par2
    exact .inl par2
  · simp only [Counts, not_forall, not_not] at counts
    rcases counts with ⟨own, rfl⟩
    rw [step] at par2
    split at par2
    · split at par2
      · exact .inl par2
      · rw [isPar2_reveal, Bool.or_eq_true, Bool.and_eq_true, decide_eq_true_eq] at par2
        rcases par2 with known | ⟨rfl, -⟩
        · exact .inl known
        · exact .inr rfl
    · exact .inl par2

/-- The second job knows the PAR2 files of the first and all that calls will reveal. -/
structure Informed (job informed : TrackedJob) (calls : List TrackerCall) : Prop where
  knows : ∀ fileId, isPar2 job.files fileId = true → isPar2 informed.files fileId = true
  ahead : ∀ fileId, .reclassify fileId ∈ calls → isPar2 informed.files fileId = true

variable {job informed : TrackedJob} {call : TrackerCall} {calls : List TrackerCall}

theorem Informed.files_step (before : Informed job informed (call :: calls)) :
    (step names informed call).files = informed.files := by
  by_cases counts : Counts call
  · exact (step_of_counts names informed counts).1
  · simp only [Counts, not_forall, not_not] at counts
    rcases counts with ⟨own, rfl⟩
    rw [reclassify_of_isPar2 names informed (before.ahead own List.mem_cons_self)]

theorem Informed.step (before : Informed job informed (call :: calls)) :
    Informed (step names job call) (TrackedJob.step names informed call) calls := by
  constructor
  · intro fileId par2
    rw [before.files_step names]
    rcases isPar2_of_step names par2 with known | rfl
    · exact before.knows fileId known
    · exact before.ahead fileId List.mem_cons_self
  · intro fileId mem
    rw [before.files_step names]
    exact before.ahead fileId (List.mem_cons_of_mem call mem)

theorem Informed.checked_step_le (before : Informed job informed (call :: calls)) :
    checked (TrackedJob.step names informed call) + checked job ≤
      checked (TrackedJob.step names job call) + checked informed := by
  rw [checked_step, checked_step]
  cases call with
  | success fileId | failure fileId _ _ =>
      have := before.knows fileId
      simp only
      split_ifs <;> simp_all <;> omega
  | _ => simp only; omega

theorem Informed.checked_run_le (before : Informed job informed calls) :
    checked (run names informed calls) + checked job ≤
      checked (run names job calls) + checked informed := by
  induction calls generalizing job informed with
  | nil =>
      simp only [run, List.foldl_nil]
      omega
  | cons call rest ih =>
      have here := before.checked_step_le names
      have later := ih (before.step names)
      simp only [run, List.foldl_cons] at later ⊢
      omega

theorem Informed.checked_run_lt {front back : List TrackerCall} {fileId : FileId}
    (before : Informed job informed (front ++ .success fileId :: back))
    (hidden : .reclassify fileId ∉ front) (content : isPar2 job.files fileId = false)
    (par2 : isPar2 informed.files fileId = true) :
    checked (run names informed (front ++ .success fileId :: back)) + checked job <
      checked (run names job (front ++ .success fileId :: back)) + checked informed := by
  induction front generalizing job informed with
  | nil =>
      have later := (before.step names).checked_run_le names
      have mine := checked_step names job (.success fileId)
      have other := checked_step names informed (.success fileId)
      simp only [content, par2, if_true, Bool.false_eq_true, if_false] at mine other
      simp only [List.nil_append, run, List.foldl_cons] at later ⊢
      omega
  | cons call rest ih =>
      have here := before.checked_step_le names
      rw [List.mem_cons, not_or] at hidden
      have still : isPar2 (TrackedJob.step names job call).files fileId = false := by
        rw [Bool.eq_false_iff]
        intro known
        rcases isPar2_of_step names known with known | rfl
        · simp [content] at known
        · exact hidden.1 rfl
      have par2' : isPar2 (TrackedJob.step names informed call).files fileId = true := by
        rw [before.files_step names]
        exact par2
      have later := ih (before.step names) hidden.2 still par2'
      simp only [List.cons_append, run, List.foldl_cons] at later ⊢
      omega

theorem checked_start (files : List TrackedFile) : checked (start files) = 0 := by
  have kept (all : List TrackedFile) (counters : ContentCounters) :
      (files.foldl (ContentCounters.addFile all) counters).contentArticlesChecked =
        counters.contentArticlesChecked := by
    induction files generalizing counters with
    | nil => rfl
    | cons file rest ih =>
        rw [List.foldl_cons, ih, ContentCounters.addFile]
        split <;> rfl
  exact kept files .empty

theorem informed_start {files : List TrackedFile} (ordered : Ordered files calls) :
    Informed (start files) (start (reclassified names files calls)) calls := by
  constructor
  · intro fileId par2
    change isPar2 (reclassified names files calls) fileId = true
    rw [isPar2_reclassified, Bool.or_eq_true]
    exact .inl par2
  · intro fileId mem
    rcases (ordered.content fileId mem).1 with ⟨file, file_mem, rfl⟩
    change isPar2 (reclassified names files calls) file.id = true
    rw [isPar2_reclassified, Bool.or_eq_true, Bool.and_eq_true, decide_eq_true_eq,
      List.find?_isSome]
    exact .inr ⟨mem, file, file_mem, by simp⟩

theorem orderFree_iff {files : List TrackedFile}
    {calls : List TrackerCall} (ordered : Ordered files calls) :
    OrderFree names files calls ↔ ∀ fileId, .reclassify fileId ∉ calls := by
  constructor
  · intro free fileId mem
    have informed := informed_start names ordered
    have par2 := informed.ahead fileId mem
    rcases List.eq_append_cons_of_mem mem with ⟨before, after, split, first⟩
    have received := ordered.received before fileId after split
    rcases List.append_of_mem received with ⟨front, back, rfl⟩
    rw [List.append_assoc, List.cons_append] at split
    subst split
    have hidden : .reclassify fileId ∉ front := fun early =>
      first (List.mem_append_left _ early)
    have less := informed.checked_run_lt names hidden (ordered.content fileId mem).2 par2
    rw [checked_start, checked_start] at less
    have same := congrArg Reading.contentArticlesChecked free.counters
    exact absurd same (Nat.ne_of_gt less)
  · intro none
    have same : reclassified names files calls = files := by
      simp [reclassified, none]
    refine ⟨by rw [same], ?_⟩
    intro others perm _ Pct floats requiredPct abortHopeless earlyFailureCheck
    have counts : ∀ call ∈ others, Counts call := by
      rintro call mem fileId rfl
      exact none fileId (perm.mem_iff.mp mem)
    exact JobTracker.check_congr floats requiredPct (alike_run_of_perm names perm counts _).2
      abortHopeless earlyFailureCheck

/-- A content file of one article and a file whose name hides what it is. -/
def hiddenVolume : List TrackedFile :=
  [{ id := "content", filename := "a.mkv", isPar2 := false, par2SetName := none, par2Vol := none,
     par2Blocks := none, articles := [100] },
   { id := "volume", filename := "x", isPar2 := false, par2SetName := none, par2Vol := none,
     par2Blocks := none, articles := [50, 50] }]

def oneBlock (_ : FileId) : RevealedName where
  setName := some "p"
  vol := some 0
  blocks := some 1

def knownVolume : TrackedFile :=
  { id := "par2", filename := "p.vol0+2.par2", isPar2 := true, par2SetName := some "p",
    par2Vol := some 0, par2Blocks := some 2, articles := [70, 70] }

/-- An article of the content file and one of the known volume are refused. -/
def twoRefused : List TrackerCall :=
  [.success "volume", .failure "content" 100 .notFound, .failure "par2" 70 .notFound,
    .success "par2", .success "volume"]

theorem orderFree_twoRefused : OrderFree oneBlock (knownVolume :: hiddenVolume) twoRefused := by
  have none : ∀ fileId, .reclassify fileId ∉ twoRefused := by simp [twoRefused]
  refine (orderFree_iff oneBlock ⟨fun fileId mem => absurd mem (none fileId), ?_⟩).mpr none
  intro before fileId after split
  exact absurd (by simp [split]) (none fileId)

/-- The second article of the volume is refused before the volume is known, and after. -/
def refusedBefore : List TrackerCall :=
  [.success "volume", .failure "volume" 50 .notFound, .reclassify "volume",
    .failure "content" 100 .notFound]
def refusedAfter : List TrackerCall :=
  [.success "volume", .reclassify "volume", .failure "volume" 50 .notFound,
    .failure "content" 100 .notFound]

theorem ordered_of_first (rest : List TrackerCall)
    (only : ∀ fileId, .reclassify fileId ∈ rest → fileId = "volume") :
    Ordered hiddenVolume (.success "volume" :: rest) := by
  have only_all : ∀ fileId, .reclassify fileId ∈ TrackerCall.success "volume" :: rest →
      fileId = "volume" := by
    intro fileId mem
    exact only fileId (List.mem_of_ne_of_mem (by simp) mem)
  constructor
  · intro fileId mem
    rw [only_all fileId mem]
    exact ⟨⟨_, List.mem_cons_of_mem _ List.mem_cons_self, rfl⟩, by decide⟩
  · intro before fileId after split
    rw [only_all fileId (split ▸ by simp)]
    rcases before with _ | ⟨first, others⟩
    · simp at split
    · rw [List.cons_append, List.cons.injEq] at split
      rw [← split.1]
      exact List.mem_cons_self

def exampleFloats : Floats Unit where
  required _ bytes := bytes
  rateReached failed checked := 8 * checked ≤ 10 * failed
  projected bytes failed checked := (bytes * failed) ⌈/⌉ checked
  ratePercent _ _ := ""
  availability _ _ := ""
  percent _ := ""

/-- Refused after it is known, the article takes the block of the volume, and the job is
hopeless. -/
theorem not_orderFree_refused : ¬∀ (names : FileId → RevealedName) (files : List TrackedFile)
    (calls : List TrackerCall), Ordered files calls → OrderFree names files calls := by
  intro free
  have after := ordered_of_first refusedAfter.tail (by simp [refusedAfter])
  have before := ordered_of_first refusedBefore.tail (by simp [refusedBefore])
  have same := (free oneBlock hiddenVolume refusedAfter after).verdict refusedBefore (by decide)
    before Unit exampleFloats () true true
  have abort := congrArg Option.isNone same
  revert abort
  decide +kernel

end TrackedJob

end Rustnzb.Web
