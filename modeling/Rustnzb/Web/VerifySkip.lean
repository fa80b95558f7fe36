import Rustnzb.Web.QueueRun

/-!
# Verification is skipped only for a complete download

A count of zero reaches `run_stages` from a terminal message or from the database. Either way the
segments that the NZB lists for its content files are written, as long as the count has not lost a
failure on its way: an update was dropped, a save was torn, or a checkpoint was read back for the
wrong article. What the NZB leaves out is no failure to anyone, so that the content files are known
to be whole only when the NZB lists all of their segments, and what these say they hold is all of
the file.
-/

namespace Rustnzb.Web

open Dispatch (NzbJob NzbFile FileId ServerId WorkItem workItemOf JobRun JobEvent Terminal
  IterationOrder JobContext nzbSegmentGap incompleteNzbReason par2SortKey Article listed_of_no_gap)
open Postproc (Par2FileSet Name)
open Lib (Run execute)

def Complete (nzb : NzbJob) (written : List (FileId × ℕ)) : Prop :=
  ∀ file ∈ nzb.files, par2SortKey file.filename = 2 →
    ∀ highest ∈ file.articles.map Article.segmentNumber, ∀ segment, 1 ≤ segment →
      segment ≤ highest → segment ∈ file.articles.map Article.segmentNumber ∧
        (file.id, segment) ∈ written

def NoGap (nzb : NzbJob) : Prop :=
  ∀ file ∈ nzb.files, par2SortKey file.filename = 2 →
    nzbSegmentGap (file.articles.map Article.segmentNumber) = none

theorem Complete.mono {nzb : NzbJob} {written more : List (FileId × ℕ)}
    (complete : Complete nzb written) (subset : written ⊆ more) : Complete nzb more := by
  intro file fileMem isContent highest listed segment positive le
  rcases complete file fileMem isContent highest listed segment positive le with
    ⟨segmentListed, isWritten⟩
  exact ⟨segmentListed, subset isWritten⟩

/-- What was posted: the size of each file, and where the yEnc header of each article puts how many
bytes. -/
structure Upload where
  size : FileId → ℕ
  begins : FileId → ℕ → ℕ
  length : FileId → ℕ → ℕ

namespace Upload

def Holds (upload : Upload) (fileId : FileId) (segment offset : ℕ) : Prop :=
  upload.begins fileId segment ≤ offset ∧
    offset < upload.begins fileId segment + upload.length fileId segment

/-- The articles that are listed for a content file hold all of it. -/
def Covers (upload : Upload) (nzb : NzbJob) : Prop :=
  ∀ file ∈ nzb.files, par2SortKey file.filename = 2 → ∀ offset < upload.size file.id,
    ∃ segment ∈ file.articles.map Article.segmentNumber, 1 ≤ segment ∧
      upload.Holds file.id segment offset

/-- A byte of a content file was never written. -/
def Unwritten (upload : Upload) (nzb : NzbJob) (written : List (FileId × ℕ)) : Prop :=
  ∃ file ∈ nzb.files, par2SortKey file.filename = 2 ∧ ∃ offset < upload.size file.id,
    ∀ segment, (file.id, segment) ∈ written → ¬upload.Holds file.id segment offset

theorem not_unwritten {upload : Upload} {nzb : NzbJob} {written : List (FileId × ℕ)}
    (covers : upload.Covers nzb) (complete : Complete nzb written) :
    ¬upload.Unwritten nzb written := by
  rintro ⟨file, fileMem, isContent, offset, inside, never⟩
  rcases covers file fileMem isContent offset inside with ⟨segment, listed, positive, holds⟩
  exact never segment
    (complete file fileMem isContent segment listed segment positive le_rfl).2 holds

end Upload

/-! ## One download -/

/-- What holds of a download while `failed` failures are counted. -/
structure Download.Fetching (nzb : NzbJob) (written : List (FileId × ℕ)) (failed : ℕ)
    (download : Download) : Prop where
  submitted : ∃ job, Lists nzb job ∧ Truthful written job ∧
    download.engine.Delivering (JobRun.unfinishedItems job) written ∧
    ∀ item ∈ download.engine.ctx.held.items, ∃ file ∈ job.files,
      file.id = item.fileId ∧ par2SortKey file.filename = 1
  counted : 0 < download.engine.ctx.articlesFailed →
    0 < failed ∨ ∃ update ∈ download.channel, update.isFailure = true
  arrived : ∀ fileId segmentNumber decodedBytes,
    ProgressUpdate.articleComplete fileId segmentNumber decodedBytes ∈ download.channel →
      (fileId, segmentNumber) ∈ written
  announced : ∀ success articlesFailed,
    ProgressUpdate.jobFinished success articlesFailed ∈ download.channel →
      ∃ damage, Terminal.jobFinished success articlesFailed damage ∈ download.engine.ctx.sent
  ordered : ∀ (n : ℕ) (success : Bool) (articlesFailed : ℕ),
    download.channel[n]? = some (.jobFinished success articlesFailed) → 0 < articlesFailed →
      0 < failed ∨ ∃ update ∈ download.channel.take n, update.isFailure = true

namespace Download.Fetching

variable {nzb : NzbJob} {written more : List (FileId × ℕ)} {failed count : ℕ} {download : Download}

theorem mono (fetching : download.Fetching nzb written failed) (subset : written ⊆ more)
    (le : failed ≤ count) : download.Fetching nzb more count where
  submitted := by
    rcases fetching.submitted with ⟨job, lists, truthful, delivering, held⟩
    exact ⟨job, lists, truthful.mono subset, delivering.mono subset, held⟩
  counted some := (fetching.counted some).imp_left fun positive => positive.trans_le le
  arrived fileId segmentNumber decodedBytes mem :=
    subset (fetching.arrived fileId segmentNumber decodedBytes mem)
  announced := fetching.announced
  ordered n success articlesFailed isFinished some :=
    (fetching.ordered n success articlesFailed isFinished some).imp_left
      fun positive => positive.trans_le le

theorem complete (fetching : download.Fetching nzb written failed) (fresh : Fresh nzb)
    (noGap : NoGap nzb) {success : Bool}
    (finished : ProgressUpdate.jobFinished success 0 ∈ download.channel) :
    Complete nzb written := by
  rcases fetching.submitted with ⟨job, lists, truthful, delivering, held⟩
  rcases fetching.announced success 0 finished with ⟨damage, sent⟩
  intro file fileMem isContent highest listed segment positive le
  have segmentListed := listed_of_no_gap (noGap file fileMem isContent) listed positive le
  refine ⟨segmentListed, ?_⟩
  rcases lists.exists_file_of_original fileMem with ⟨own, ownMem, same⟩
  rcases List.mem_map.mp segmentListed with ⟨article, articleMem, rfl⟩
  rcases exists_article_of_listing same articleMem with ⟨current, currentMem, -, sameSegment⟩
  simp only [listing, Prod.mk.injEq] at same
  rw [← same.1, ← sameSegment]
  rcases done : current.downloaded with _ | _
  · -- the job was submitted without it
    have unfinished : workItemOf job own current ∈ JobRun.unfinishedItems job :=
      JobRun.mem_unfinishedItems.mpr ⟨own, ownMem, current, currentMem, done, rfl⟩
    rcases delivering.written_of_finished sent unfinished with isWritten | ⟨other, isHeld, key⟩
    · exact isWritten
    · -- only articles of recovery volumes are held back
      exfalso
      rcases held other isHeld with ⟨volume, volumeMem, sameId, isVolume⟩
      rcases lists.exists_file volumeMem with ⟨original, originalMem, equal⟩
      simp only [listing, Prod.mk.injEq] at equal
      have otherId : other.fileId = own.id := congrArg Prod.fst key
      have sameFile := fresh.eq_of_id originalMem fileMem (by
        rw [equal.1, sameId, otherId, same.1])
      rw [← equal.2.1, sameFile, isContent] at isVolume
      simp at isVolume
  · exact truthful own ownMem current currentMem done

theorem push (fetching : download.Fetching nzb written failed) {update : ProgressUpdate}
    (arrives : ∀ fileId segmentNumber decodedBytes,
      update = .articleComplete fileId segmentNumber decodedBytes →
        (fileId, segmentNumber) ∈ written)
    (tells : ∀ success articlesFailed, update = .jobFinished success articlesFailed →
      (∃ damage, Terminal.jobFinished success articlesFailed damage ∈
        download.engine.ctx.sent) ∧
      (0 < articlesFailed → 0 < failed ∨ ∃ update ∈ download.channel, update.isFailure = true)) :
    ({ download with channel := trySendProgress download.channel update } : Download).Fetching nzb
      written failed := by
  simp only [trySendProgress]
  split
  · refine ⟨fetching.submitted, fun some => ?_, ?_, ?_, ?_⟩
    · rcases fetching.counted some with positive | ⟨failure, mem, isFailure⟩
      · exact .inl positive
      · exact .inr ⟨failure, List.mem_append_left _ mem, isFailure⟩
    · intro fileId segmentNumber decodedBytes mem
      rcases List.mem_append.mp mem with before | now
      · exact fetching.arrived fileId segmentNumber decodedBytes before
      · exact arrives fileId segmentNumber decodedBytes (List.mem_singleton.mp now).symm
    · intro success articlesFailed mem
      rcases List.mem_append.mp mem with before | now
      · exact fetching.announced success articlesFailed before
      · exact (tells success articlesFailed (List.mem_singleton.mp now).symm).1
    · intro n success articlesFailed isFinished some
      rcases Nat.lt_trichotomy n download.channel.length with before | last | beyond
      · rw [List.getElem?_append_left before] at isFinished
        rw [List.take_append_of_le_length before.le]
        exact fetching.ordered n success articlesFailed isFinished some
      · rw [last, List.getElem?_concat_length, Option.some.injEq] at isFinished
        rw [last, List.take_left]
        exact (tells success articlesFailed isFinished).2 some
      · rw [List.getElem?_eq_none (by simp; omega)] at isFinished
        simp at isFinished
  · exact fetching

theorem subset_trySendProgress (channel : List ProgressUpdate) (update : ProgressUpdate) :
    channel ⊆ trySendProgress channel update := by
  simp only [trySendProgress]
  split
  · exact List.subset_append_left ..
  · exact List.Subset.refl _

theorem pushAll {updates : List ProgressUpdate} (fetching : download.Fetching nzb written failed)
    (arrives : ∀ fileId segmentNumber decodedBytes,
      .articleComplete fileId segmentNumber decodedBytes ∈ updates →
        (fileId, segmentNumber) ∈ written)
    (tells : ∀ success articlesFailed, .jobFinished success articlesFailed ∈ updates →
      (∃ damage, Terminal.jobFinished success articlesFailed damage ∈
        download.engine.ctx.sent) ∧
      (0 < articlesFailed → 0 < failed ∨ ∃ update ∈ download.channel, update.isFailure = true)) :
    ({ download with channel := updates.foldl trySendProgress download.channel } :
      Download).Fetching nzb written failed := by
  induction updates generalizing download with
  | nil => exact fetching
  | cons update updates ih =>
      have pushed := fetching.push
        (fun fileId segmentNumber decodedBytes isArrival =>
          arrives fileId segmentNumber decodedBytes (isArrival ▸ List.mem_cons_self))
        fun success articlesFailed isFinished =>
          tells success articlesFailed (isFinished ▸ List.mem_cons_self)
      apply ih pushed
      · intro fileId segmentNumber decodedBytes mem
        exact arrives fileId segmentNumber decodedBytes (List.mem_cons_of_mem _ mem)
      intro success articlesFailed mem
      rcases tells success articlesFailed (List.mem_cons_of_mem _ mem) with ⟨sent, counts⟩
      refine ⟨sent, fun some => (counts some).imp_right ?_⟩
      rintro ⟨failure, failureMem, isFailure⟩
      exact ⟨failure, subset_trySendProgress _ _ failureMem, isFailure⟩

theorem engine {event : JobEvent} {next : JobRun} (fetching : download.Fetching nzb written failed)
    (honest : download.engine.Honest event) (move : JobRun.Step download.engine event next)
    (room : (download.engine.failure event).isSome = true →
      download.channel.length < progressChannelCapacity) (decodedBytes : ℕ) :
    ({ engine := next
       channel := (World.updates download.engine event decodedBytes next).foldl trySendProgress
         download.channel } : Download).Fetching nzb
      (written ++ (download.engine.arrival event).toList.map WorkItem.key) failed := by
  let reports := (download.engine.failure event).toList.map ProgressUpdate.ofFailure
  have reported : ({ download with
      channel := reports.foldl trySendProgress download.channel } : Download).Fetching nzb written
        failed := by
    apply fetching.pushAll
    · intro fileId segmentNumber decodedBytes mem
      rcases List.mem_map.mp mem with ⟨report, -, absurd⟩
      simp [ProgressUpdate.ofFailure] at absurd
    · intro success articlesFailed mem
      rcases List.mem_map.mp mem with ⟨report, -, absurd⟩
      simp [ProgressUpdate.ofFailure] at absurd
  have failedNow := JobRun.articlesFailed_of_step move
  have moved : ({ engine := next, channel := reports.foldl trySendProgress download.channel } :
      Download).Fetching nzb
        (written ++ (download.engine.arrival event).toList.map WorkItem.key) failed := by
    refine ⟨?_, fun some => ?_, ?_, ?_, reported.ordered⟩
    · rcases fetching.submitted with ⟨job, lists, truthful, delivering, held⟩
      refine ⟨job, lists, truthful.mono (List.subset_append_left ..), delivering.step honest move,
        fun item isHeld => held item (JobRun.held_of_step move isHeld)⟩
    · rcases failure : download.engine.failure event with _ | report
      · rw [failedNow, failure] at some
        exact reported.counted some
      · right
        refine ⟨ProgressUpdate.ofFailure report, ?_, rfl⟩
        simp [reports, failure, trySendProgress, room (by simp [failure])]
    · intro fileId segmentNumber bytes mem
      exact List.mem_append_left _ (reported.arrived fileId segmentNumber bytes mem)
    · intro success articlesFailed mem
      rcases reported.announced success articlesFailed mem with ⟨damage, sent⟩
      exact ⟨damage, JobRun.sent_of_step move sent⟩
  rw [World.updates, List.foldl_append]
  apply moved.pushAll
  · intro fileId segmentNumber bytes mem
    rcases List.mem_append.mp mem with arrival | terminal
    · rcases List.mem_map.mp arrival with ⟨item, isArrival, same⟩
      simp only [ProgressUpdate.ofArrival, ProgressUpdate.articleComplete.injEq] at same
      rw [← same.1, ← same.2.1]
      exact List.mem_append_right _ (List.mem_map_of_mem isArrival)
    · rcases List.mem_map.mp terminal with ⟨_ | _, -, absurd⟩
      all_goals simp [ProgressUpdate.ofTerminal] at absurd
  intro success articlesFailed mem
  rcases List.mem_append.mp mem with arrival | terminal
  · rcases List.mem_map.mp arrival with ⟨item, -, absurd⟩
    simp [ProgressUpdate.ofArrival] at absurd
  · rcases List.mem_map.mp terminal with ⟨message, isNew, same⟩
    have sent := List.mem_of_mem_drop isNew
    rcases message with ⟨success', articlesFailed', damage⟩ | ⟨reason, articlesFailed'⟩
    · simp only [ProgressUpdate.ofTerminal, ProgressUpdate.jobFinished.injEq] at same
      rcases same with ⟨rfl, rfl⟩
      refine ⟨⟨damage, sent⟩, fun some => reported.counted ?_⟩
      rcases fetching.submitted with ⟨_, _, _, delivering, _⟩
      rcases JobRun.new_message_of_step delivering.settling move isNew with ⟨_ | reason, same⟩
      · simp only [JobContext.message, Terminal.jobFinished.injEq] at same
        rw [same.2.1] at some
        exact some
      · simp [JobContext.message] at same
    · simp [ProgressUpdate.ofTerminal] at same

theorem pop {engine : JobRun} {update : ProgressUpdate} {rest : List ProgressUpdate}
    (fetching : ({ engine := engine, channel := update :: rest } : Download).Fetching nzb written
      failed) (le : failed ≤ count) (counts : update.isFailure = true → 0 < count) :
    ({ engine := engine, channel := rest } : Download).Fetching nzb written count where
  submitted := fetching.submitted
  counted some := by
    rcases fetching.counted some with positive | ⟨failure, mem, isFailure⟩
    · exact .inl (positive.trans_le le)
    · rcases List.mem_cons.mp mem with rfl | later
      · exact .inl (counts isFailure)
      · exact .inr ⟨failure, later, isFailure⟩
  arrived fileId segmentNumber decodedBytes mem :=
    fetching.arrived fileId segmentNumber decodedBytes (List.mem_cons_of_mem _ mem)
  announced success articlesFailed mem :=
    fetching.announced success articlesFailed (List.mem_cons_of_mem _ mem)
  ordered n success articlesFailed isFinished some := by
    rcases fetching.ordered (n + 1) success articlesFailed isFinished some with
      positive | ⟨failure, mem, isFailure⟩
    · exact .inl (positive.trans_le le)
    · rw [List.take_succ_cons] at mem
      rcases List.mem_cons.mp mem with rfl | later
      · exact .inl (counts isFailure)
      · exact .inr ⟨failure, later, isFailure⟩

theorem launched {job : NzbJob} (lists : Lists nzb job) (truthful : Truthful written job)
    (untried : failed = 0 → Untried job) (enabledServerIds : List ServerId) (deferVolumes : Bool)
    (order : IterationOrder) (damageHint : ℕ) (damage : Option ℕ) :
    ({ engine := JobRun.submitted job enabledServerIds deferVolumes order (incompleteNzbReason job)
         damageHint damage
       channel := [] } : Download).Fetching nzb written failed where
  submitted := ⟨job, lists, truthful,
    (JobRun.delivering_submitted job enabledServerIds deferVolumes order (incompleteNzbReason job)
      damageHint damage).mono (List.nil_subset _), fun _ => JobRun.volume_of_held_submitted⟩
  counted some := by
    rcases JobRun.start_frame job deferVolumes order
      (JobRun.context job enabledServerIds (incompleteNzbReason job) damageHint damage)
      (Dispatch.buildWorkItems job enabledServerIds) with ⟨_, counted, _⟩
    left
    by_contra none
    have nobody : Dispatch.previouslyFailed job enabledServerIds = 0 := by
      simp only [Dispatch.previouslyFailed, List.length_eq_zero_iff, List.filter_eq_nil_iff,
        List.mem_flatMap]
      rintro article ⟨file, fileMem, articleMem⟩ isFailed
      simp only [Dispatch.isPreviouslyFailed, Bool.and_eq_true, Bool.not_eq_true',
        List.all_eq_true] at isFailed
      rcases isFailed with ⟨⟨notDone, someEnabled⟩, all⟩
      rw [untried (by omega) file fileMem article articleMem notDone] at all
      rcases enabledServerIds with _ | ⟨server, rest⟩
      · simp at someEnabled
      · simpa using all server List.mem_cons_self
    rw [JobRun.submitted, counted, JobRun.context, nobody] at some
    simp at some
  arrived fileId segmentNumber decodedBytes mem := by simp at mem
  announced success articlesFailed mem := by simp at mem
  ordered n success articlesFailed isFinished := by simp at isFinished

end Download.Fetching

/-! ## What is in memory and in the database -/

section Saved

variable {nzb : NzbJob} {written more : List (FileId × ℕ)}

structure JobState.Keeps (nzb : NzbJob) (written : List (FileId × ℕ)) (state : JobState) :
    Prop where
  lists : state.loaded = true → Lists nzb state.job
  unloaded : state.loaded = false → state.job.files = []
  truthful : Truthful written state.job
  untried : state.articlesFailed = 0 → Untried state.job
  finished : state.status = .postProcessing → state.articlesFailed = 0 → Complete nzb written

structure QueueRow.Keeps (nzb : NzbJob) (written : List (FileId × ℕ)) (row : QueueRow) : Prop where
  truthful : ∀ checkpoint ∈ row.checkpoint, checkpoint.Truthful nzb written
  counted : ∀ checkpoint ∈ row.checkpoint, checkpoint.Counted
  finished : row.status = .postProcessing → row.articlesFailed = 0 → Complete nzb written

namespace JobState.Keeps

variable {state : JobState}

theorem mono (keeps : state.Keeps nzb written) (subset : written ⊆ more) :
    state.Keeps nzb more where
  lists := keeps.lists
  unloaded := keeps.unloaded
  truthful := keeps.truthful.mono subset
  untried := keeps.untried
  finished isFinished none := (keeps.finished isFinished none).mono subset

theorem truthful_checkpoint (keeps : state.Keeps nzb written) :
    (checkpointForJob state.job state.articlesFailed).Truthful nzb written := by
  rcases loaded : state.loaded with _ | _
  · have noFiles := keeps.unloaded loaded
    constructor <;> simp [checkpointForJob, noFiles]
  · exact truthful_checkpointForJob (keeps.lists loaded) keeps.truthful _

theorem setStatus (keeps : state.Keeps nzb written) {status : JobStatus}
    (other : status ≠ .postProcessing) : ({ state with status := status }).Keeps nzb written where
  lists := keeps.lists
  unloaded := keeps.unloaded
  truthful := keeps.truthful
  untried := keeps.untried
  finished isFinished := absurd isFinished other

end JobState.Keeps

namespace QueueRow.Keeps

variable {row : QueueRow} {state : JobState}

section

variable (keeps : row.Keeps nzb written)

include keeps

theorem mono (subset : written ⊆ more) : row.Keeps nzb more where
  truthful checkpoint mem := (keeps.truthful checkpoint mem).mono subset
  counted := keeps.counted
  finished isFinished none := (keeps.finished isFinished none).mono subset

theorem saveProgress (kept : state.Keeps nzb written) :
    ((row.saveCounters state).saveStatus state).Keeps nzb written where
  truthful := keeps.truthful
  counted := keeps.counted
  finished := kept.finished

theorem saveCounters (kept : state.Keeps nzb written)
    (whole : row.status = .postProcessing → state.status = .postProcessing) :
    (row.saveCounters state).Keeps nzb written where
  truthful := keeps.truthful
  counted := keeps.counted
  finished isFinished := kept.finished (whole isFinished)

theorem saveCheckpoint (kept : state.Keeps nzb written) :
    (row.saveCheckpoint state).Keeps nzb written where
  truthful checkpoint mem := by
    cases mem
    exact kept.truthful_checkpoint
  counted checkpoint mem := by
    cases mem
    exact counted_checkpointForJob kept.untried
  finished := keeps.finished

theorem load (fresh : Fresh nzb) (apart : row.checkpoint.isSome = true → Distinguishable nzb)
    (unfinished : state.status ≠ .postProcessing) : (row.load nzb state).Keeps nzb written := by
  simp only [QueueRow.load]
  split
  next checkpoint saved =>
    constructor
    · exact fun _ => lists_applyCheckpoint nzb checkpoint
    · simp
    · exact truthful_applyCheckpoint fresh (apart (by simp [saved]))
        (keeps.truthful checkpoint saved)
    · exact untried_applyCheckpoint fresh (keeps.counted checkpoint saved)
    · exact fun isFinished => absurd isFinished unfinished
  · constructor
    · exact fun _ => Lists.refl nzb
    · simp
    · intro file fileMem article articleMem done
      simp [fresh.missing file fileMem article articleMem] at done
    · exact fun _ => fresh.untried
    · exact fun isFinished => absurd isFinished unfinished

end

end QueueRow.Keeps

end Saved

/-! ## Whole runs -/

namespace World

def Reloads (world : World) : QueueEvent → Prop
  | .load => ∃ row ∈ world.stored, row.checkpoint.isSome = true
  | .restore _ => ∃ row ∈ world.stored, row.status = .downloading ∧ row.checkpoint.isSome = true
  | _ => False

def DropsFailure (world : World) : QueueEvent → Prop
  | .engine index event _ => ∃ download ∈ world.downloads[index]?,
      (download.engine.failure event).isSome = true ∧
        progressChannelCapacity ≤ download.channel.length
  | _ => False

/-- A crash tears a save of a job that was started again while its row is still
`PostProcessing`. -/
def TearsFinished (world : World) : QueueEvent → Prop
  | .crash torn => torn ≠ .unsaved ∧ (∃ row ∈ world.stored, row.status = .postProcessing) ∧
      ∃ state ∈ world.memory, state.status ≠ .postProcessing
  | _ => False

/-- The count of failures is not lost in this step. -/
structure Sound (nzb : NzbJob) (world : World) (event : QueueEvent) : Prop where
  apart : world.Reloads event → Distinguishable nzb
  heard : ¬world.DropsFailure event
  whole : ¬world.TearsFinished event

structure Keeps (nzb : NzbJob) (world : World) : Prop where
  memory : ∀ state ∈ world.memory, state.Keeps nzb world.written
  downloads : ∀ download ∈ world.downloads, ∃ state ∈ world.memory, state.loaded = true ∧
    download.Fetching nzb world.written state.articlesFailed
  stored : ∀ row ∈ world.stored, row.Keeps nzb world.written
  finishing : ∀ failed ∈ world.finishing, failed = 0 → Complete nzb world.written

section Step

variable {nzb : NzbJob} {world next : World}

theorem Keeps.engine (keeps : world.Keeps nzb) {index : ℕ} {event : JobEvent} {decodedBytes : ℕ}
    (honest : world.Honest (.engine index event decodedBytes))
    (heard : ¬world.DropsFailure (.engine index event decodedBytes))
    (move : world.step nzb (.engine index event decodedBytes) = some next) : next.Keeps nzb := by
  simp only [step] at move
  split at move
  next download isDownload =>
    rcases Option.map_eq_some_iff.mp move with ⟨engine, moved, rfl⟩
    have more : world.written ⊆ world.written ++
        (download.engine.arrival event).toList.map WorkItem.key := List.subset_append_left ..
    refine ⟨fun state mem => (keeps.memory state mem).mono more, fun other mem => ?_,
      fun row mem => (keeps.stored row mem).mono more,
      fun failed mem none => (keeps.finishing failed mem none).mono more⟩
    rcases List.mem_or_eq_of_mem_set mem with before | rfl
    · rcases keeps.downloads other before with ⟨state, isState, loaded, fetching⟩
      exact ⟨state, isState, loaded, fetching.mono more le_rfl⟩
    · rcases keeps.downloads download (List.mem_of_getElem? isDownload) with
        ⟨state, isState, loaded, fetching⟩
      refine ⟨state, isState, loaded, fetching.engine (honest download isDownload) moved ?_ _⟩
      intro fails
      by_contra full
      exact heard ⟨download, isDownload, fails, not_lt.mp full⟩
  · simp at move

theorem Keeps.finishAborted (keeps : world.Keeps nzb) {state : JobState}
    (isState : world.memory = some state) (download articlesFailed : ℕ) :
    (world.finishAborted state download articlesFailed).Keeps nzb := by
  have kept := keeps.memory state isState
  refine ⟨fun after mem => ?_, fun other mem => ?_, by simp [World.finishAborted],
    keeps.finishing⟩
  · cases mem
    exact ⟨kept.lists, kept.unloaded, kept.truthful, fun none =>
      kept.untried (by simp at none; omega),
      by simp⟩
  · rcases keeps.downloads other (List.mem_of_mem_eraseIdx mem) with
      ⟨before, isBefore, loaded, fetching⟩
    rw [isState] at isBefore
    cases isBefore
    exact ⟨_, rfl, loaded, fetching.mono (List.Subset.refl _) (le_max_left ..)⟩

theorem Keeps.handle (keeps : world.Keeps nzb) (fresh : Fresh nzb) (noGap : NoGap nzb)
    {index : ℕ} {unrepairable : Bool}
    (move : world.step nzb (.handle index unrepairable) = some next) : next.Keeps nzb := by
  simp only [step] at move
  split at move
  next state engine update rest isState isDownload =>
    cases move
    have kept := keeps.memory state isState
    rcases keeps.downloads _ (List.mem_of_getElem? isDownload) with
      ⟨reader, isReader, loaded, fetching⟩
    rw [isState, Option.mem_some_iff] at isReader
    subst isReader
    -- the other downloads see at most a higher count
    have others : ∀ other ∈ world.downloads, ∀ count, state.articlesFailed ≤ count →
        other.Fetching nzb world.written count := by
      intro other mem count le
      rcases keeps.downloads other mem with ⟨before, isBefore, -, fetching⟩
      rw [isState, Option.mem_some_iff] at isBefore
      subst isBefore
      exact fetching.mono (List.Subset.refl _) le
    cases update with
    | articleComplete fileId segmentNumber decodedBytes =>
        have isWritten := fetching.arrived fileId segmentNumber decodedBytes List.mem_cons_self
        refine ⟨fun after mem => ?_, fun other mem => ?_, keeps.stored, keeps.finishing⟩
        · cases mem
          exact ⟨fun loaded => (kept.lists loaded).markDownloaded ..,
            fun unloaded => by simp [markDownloaded, kept.unloaded unloaded],
            kept.truthful.markDownloaded decodedBytes isWritten,
            fun none => (kept.untried none).markDownloaded fileId segmentNumber decodedBytes,
            kept.finished⟩
        · refine ⟨_, rfl, loaded, ?_⟩
          rcases List.mem_or_eq_of_mem_set mem with before | rfl
          · exact others other before _ le_rfl
          · exact fetching.pop le_rfl (by simp [ProgressUpdate.isFailure])
    | articleFailed fileId segmentNumber serverId =>
        refine ⟨fun after mem => ?_, fun other mem => ?_, keeps.stored, keeps.finishing⟩
        · cases mem
          exact ⟨fun loaded => (kept.lists loaded).recordFailure ..,
            fun unloaded => by simp [recordFailure, modifyFirst, kept.unloaded unloaded],
            kept.truthful.recordFailure fileId segmentNumber serverId, by simp, by simp⟩
        · refine ⟨_, rfl, loaded, ?_⟩
          rcases List.mem_or_eq_of_mem_set mem with before | rfl
          · exact others other before _ (Nat.le_succ _)
          · exact fetching.pop (Nat.le_succ _) fun _ => Nat.succ_pos _
    | jobFinished success articlesFailed =>
        simp only [World.handle]
        split
        · exact keeps.finishAborted isState index articlesFailed
        · have complete : articlesFailed = 0 → Complete nzb world.written := by
            rintro rfl
            exact fetching.complete fresh noGap List.mem_cons_self
          refine ⟨fun after mem => ?_, fun other mem => ?_, keeps.stored, fun failed mem none => ?_⟩
          · cases mem
            refine ⟨kept.lists, kept.unloaded, kept.truthful, kept.untried, fun _ none => ?_⟩
            apply complete
            by_contra some
            have counted := fetching.ordered 0 success articlesFailed rfl (Nat.pos_of_ne_zero some)
            simp only [List.take_zero, List.not_mem_nil, false_and, exists_false,
              or_false] at counted
            exact absurd none counted.ne'
          · exact ⟨_, rfl, loaded, others other (List.mem_of_mem_eraseIdx mem) _ le_rfl⟩
          · rcases List.mem_append.mp mem with before | now
            · exact keeps.finishing failed before none
            · rw [List.mem_singleton.mp now] at none
              exact complete none
    | jobAborted reason articlesFailed => exact keeps.finishAborted isState index articlesFailed
    | other =>
        refine ⟨keeps.memory, fun other mem => ?_, keeps.stored, keeps.finishing⟩
        refine ⟨state, isState, loaded, ?_⟩
        rcases List.mem_or_eq_of_mem_set mem with before | rfl
        · exact others other before _ le_rfl
        · exact fetching.pop le_rfl (by simp [ProgressUpdate.isFailure])
  · simp at move

theorem Keeps.restore (keeps : world.Keeps nzb) (fresh : Fresh nzb) {pausedByGlobal : Bool}
    (apart : world.Reloads (.restore pausedByGlobal) → Distinguishable nzb)
    (move : world.step nzb (.restore pausedByGlobal) = some next) : next.Keeps nzb := by
  simp only [step] at move
  split at move
  next row isGone isRow =>
    cases move
    have kept := keeps.stored row isRow
    refine ⟨fun state mem => ?_, fun download mem => ?_, keeps.stored, fun failed mem none => ?_⟩
    · rcases Option.mem_some_iff.mp mem with rfl
      split
      next isDownloading =>
        refine kept.load fresh (fun saved => apart ⟨row, isRow, isDownloading, saved⟩) ?_
        dsimp only
        split
        · simp
        · simp
      · refine ⟨by simp [QueueRow.restore], fun _ => rfl, ?_, ?_, ?_⟩
        · simp [Truthful, QueueRow.restore]
        · simp [Untried, QueueRow.restore]
        · dsimp only
          split
          · simp
          · exact kept.finished
    · rcases keeps.downloads download mem with ⟨state, isState, -⟩
      simp [isGone] at isState
    · dsimp only at mem
      split at mem
      next isFinished =>
        rw [List.mem_singleton.mp mem] at none
        exact kept.finished isFinished none
      · simp at mem
  · simp at move

theorem Keeps.step (keeps : world.Keeps nzb) (fresh : Fresh nzb) (noGap : NoGap nzb)
    {event : QueueEvent} (sound : Sound nzb world event) (move : Step nzb world event next) :
    next.Keeps nzb := by
  rcases move with ⟨move, honest⟩
  cases event with
  | engine index event decodedBytes => exact keeps.engine honest sound.heard move
  | handle index unrepairable => exact keeps.handle fresh noGap move
  | restore pausedByGlobal => exact keeps.restore fresh sound.apart move
  | load =>
      simp only [World.step] at move
      split at move
      next state row isState isRow =>
        split at move
        · simp at move
        next unloaded =>
          simp only [Bool.or_eq_true, decide_eq_true_eq, not_or, Bool.not_eq_true] at unloaded
          cases move
          refine ⟨fun after mem => ?_, fun download mem => ?_, keeps.stored, keeps.finishing⟩
          · cases mem
            exact (keeps.stored row isRow).load fresh (fun saved => sound.apart ⟨row, isRow, saved⟩)
              unloaded.2
          · rcases keeps.downloads download mem with ⟨before, isBefore, loaded, -⟩
            rw [isState, Option.mem_some_iff] at isBefore
            simp [← isBefore, unloaded.1] at loaded
      · simp at move
  | launch enabledServerIds deferVolumes order damageHint damage =>
      simp only [World.step] at move
      split at move
      next state isState =>
        split at move
        · simp at move
        next ready =>
          simp only [Bool.or_eq_true, Bool.not_eq_true', not_or, Bool.not_eq_false] at ready
          cases move
          have kept := keeps.memory state isState
          refine ⟨keeps.memory, fun download mem => ?_, keeps.stored, keeps.finishing⟩
          rcases List.mem_append.mp mem with before | now
          · exact keeps.downloads download before
          · rw [List.mem_singleton.mp now]
            exact ⟨state, isState, ready.1, .launched (kept.lists ready.1) kept.truthful
              kept.untried ..⟩
      · simp at move
  | sendOther index =>
      simp only [World.step] at move
      split at move
      next download isDownload =>
        cases move
        refine ⟨keeps.memory, fun other mem => ?_, keeps.stored, keeps.finishing⟩
        rcases List.mem_or_eq_of_mem_set mem with before | rfl
        · exact keeps.downloads other before
        · rcases keeps.downloads download (List.mem_of_getElem? isDownload) with
            ⟨state, isState, loaded, fetching⟩
          exact ⟨state, isState, loaded, fetching.push (by simp) (by simp)⟩
      · simp at move
  | setStatus status saves =>
      simp only [World.step] at move
      split at move
      next state isState =>
        split at move
        · simp at move
        next other =>
          simp only [Bool.or_eq_true, decide_eq_true_eq, not_or] at other
          cases move
          have kept := (keeps.memory state isState).setStatus other.1
          refine ⟨fun after mem => ?_, fun download mem => ?_, fun row mem => ?_, keeps.finishing⟩
          · cases mem
            exact kept
          · rcases keeps.downloads download mem with ⟨before, isBefore, loaded, fetching⟩
            rw [isState, Option.mem_some_iff] at isBefore
            subst isBefore
            exact ⟨_, rfl, loaded, fetching⟩
          · dsimp only at mem
            split at mem
            · rcases Option.mem_map.mp mem with ⟨before, isBefore, rfl⟩
              exact (keeps.stored before isBefore).saveProgress kept
            · exact keeps.stored row mem
      · simp at move
  | save =>
      rcases Option.map_eq_some_iff.mp move with ⟨state, isState, rfl⟩
      have kept := keeps.memory state isState
      refine ⟨keeps.memory, keeps.downloads, fun row mem => ?_, keeps.finishing⟩
      rcases Option.mem_map.mp mem with ⟨before, isBefore, rfl⟩
      exact ((keeps.stored before isBefore).saveProgress kept).saveCheckpoint kept
  | saveProgress =>
      rcases Option.map_eq_some_iff.mp move with ⟨state, isState, rfl⟩
      refine ⟨keeps.memory, keeps.downloads, fun row mem => ?_, keeps.finishing⟩
      rcases Option.mem_map.mp mem with ⟨before, isBefore, rfl⟩
      exact (keeps.stored before isBefore).saveProgress (keeps.memory state isState)
  | crash torn =>
      cases move
      refine ⟨by simp, by simp, fun row mem => ?_, by simp⟩
      dsimp only at mem
      split at mem
      next state isState =>
        rcases Option.mem_map.mp mem with ⟨before, isBefore, rfl⟩
        have kept := keeps.memory state isState
        have row := keeps.stored before isBefore
        have whole : torn ≠ .unsaved → before.status = .postProcessing →
            state.status = .postProcessing := by
          intro torn isFinished
          by_contra started
          exact sound.whole ⟨torn, ⟨before, isBefore, isFinished⟩, state, isState, started⟩
        cases torn with
        | unsaved => exact row
        | counters => exact row.saveCounters kept (whole (by simp))
        | checkpointed => exact (row.saveCounters kept (whole (by simp))).saveCheckpoint kept
      · exact keeps.stored row mem
  | runStages call =>
      simp only [World.step] at move
      split at move
      · cases move
        exact ⟨keeps.memory, keeps.downloads, keeps.stored,
          fun failed mem => keeps.finishing failed (List.mem_of_mem_eraseIdx mem)⟩
      · simp at move
  | archive =>
      cases move
      exact ⟨keeps.memory, keeps.downloads, by simp, keeps.finishing⟩
  | remove =>
      cases move
      exact ⟨by simp, by simp, by simp, by simp⟩

theorem keeps_admitted {job : NzbJob} {written : List (FileId × ℕ)} (lists : Lists nzb job)
    (truthful : Truthful written job) (untried : Untried job) (carries : Bool) :
    (admitted job written carries).Keeps nzb where
  memory state mem := by
    cases mem
    exact ⟨fun _ => lists, by simp, truthful, fun _ => untried, by simp⟩
  downloads := by simp [admitted]
  stored row mem := by
    cases mem
    refine ⟨fun checkpoint saved => ?_, fun checkpoint saved => ?_, by simp⟩
    all_goals
      dsimp only at saved
      split at saved
      next => cases saved; first
        | exact truthful_checkpointForJob lists truthful 0
        | exact counted_checkpointForJob fun _ => untried
      · simp at saved
  finishing := by simp [admitted]

theorem Keeps.run {job : NzbJob} {written : List (FileId × ℕ)} (fresh : Fresh nzb)
    (noGap : NoGap nzb) (lists : Lists nzb job) (truthful : Truthful written job)
    (untried : Untried job) {carries : Bool} {events : List QueueEvent}
    (run : Run (Step nzb) (admitted job written carries) events world)
    (sound : Run.Always (Step nzb) (admitted job written carries) (fun _ => Sound nzb) events) :
    world.Keeps nzb := by
  apply run.invariant_of_steps (fun _ world => world.Keeps nzb) sound
  · exact keeps_admitted lists truthful untried carries
  · intro _ world event next _ keeps sound move
    exact keeps.step fresh noGap sound move

end Step

/-- Post-processing that finds a recovery set skips the verification only if every segment of every
content file is written, and verifies when one is not, or a byte of a content file is not. -/
def VerifiesIncomplete (nzb : NzbJob) (upload : Upload) (world : World) : Prop :=
  ∀ failed ∈ world.finishing, ∀ par2Files fileSets,
    (verifyChoice par2Files fileSets failed = .skipped → Complete nzb world.written) ∧
    (par2Files ≠ [] → fileSets ≠ [] →
      ¬Complete nzb world.written ∨ upload.Unwritten nzb world.written →
        verifyChoice par2Files fileSets failed = .verified)

/-- Whatever the engine, the handlers, the user and crashes do: if the NZB lists every segment of
its content files, these hold all of them and no step loses a failure, verification is skipped only
for a complete download. -/
theorem verifies_incomplete {nzb job : NzbJob} {upload : Upload} {written : List (FileId × ℕ)}
    (fresh : Fresh nzb) (noGap : NoGap nzb) (covers : upload.Covers nzb) (lists : Lists nzb job)
    (truthful : Truthful written job) (untried : Untried job) {carries : Bool}
    {events : List QueueEvent} {world : World}
    (run : Run (Step nzb) (admitted job written carries) events world)
    (sound : Run.Always (Step nzb) (admitted job written carries) (fun _ => Sound nzb) events) :
    VerifiesIncomplete nzb upload world := by
  have keeps := Keeps.run fresh noGap lists truthful untried run sound
  intro failed mem par2Files fileSets
  have complete := keeps.finishing failed mem
  simp only [verifyChoice]
  constructor
  · split
    · simp
    · split
      · split <;> simp
      · split
        next none => exact fun _ => complete none
        · simp
  · intro found parsed incomplete
    have some : failed ≠ 0 := fun none => incomplete.elim (fun not => not (complete none))
      (Upload.not_unwritten covers (complete none))
    simp [found, parsed, some]

def article (messageId : String) (segmentNumber : ℕ) : Article where
  messageId := messageId
  segmentNumber := segmentNumber
  downloaded := false
  dataBegin := none
  dataSize := none
  triedServers := []

def oneFile (segments : List ℕ) : NzbJob where
  id := "job"
  files := [{
    id := "file"
    filename := "movie.mkv"
    par2Vol := none
    par2Blocks := none
    articles := segments.map fun segment => article (toString segment) segment }]

def fetched : List QueueEvent :=
  [.act 0 (.take 0), .act 0 (.answer 0 false JobRun.oneProvider "A" .present), .act 0 .advance,
    .act 0 .advance].map fun event => .engine 0 event 700

/-- A job of `count` articles is launched, downloaded and handed to post-processing. -/
def downloaded (count : ℕ) : List QueueEvent :=
  ([.launch ["A"] false Dispatch.Engine.listedAsIs 0 none, .engine 0 (.spawn false) 0] :
    List QueueEvent) ++ (List.replicate count fetched).flatten ++
    (List.replicate 4 (.engine 0 (.act 0 .advance) 0) : List QueueEvent) ++
    (List.replicate (count + 1) (.handle 0 false) : List QueueEvent)

/-- What `downloaded` consists of: workers get articles, and nothing fails. -/
def calm (world : World) : QueueEvent → Bool
  | .launch .. | .handle .. => true
  | .engine index event _ =>
      (match event with
        | .act _ (.answer _ _ _ _ .present) | .act _ (.take _) | .act _ .advance | .spawn _ => true
        | _ => false) &&
      (world.downloads[index]?).all fun download => (download.engine.failure event).isNone
  | _ => false

def calmStep (nzb : NzbJob) (world : World) (event : QueueEvent) : Option World :=
  if world.calm event then world.step nzb event else none

theorem step_functional (nzb : NzbJob) (world : World) (event : QueueEvent) (next other : World)
    (move : Step nzb world event next) (move' : Step nzb world event other) : next = other :=
  Option.some.inj (move.1.symm.trans move'.1)

theorem sound_calmStep (nzb : NzbJob) (world : World) (event : QueueEvent) (next : World)
    (move : calmStep nzb world event = some next) :
    Step nzb world event next ∧ Sound nzb world event := by
  simp only [calmStep] at move
  split at move
  next calm =>
    refine ⟨⟨move, ?_⟩, ?_, ?_, ?_⟩
    · cases event with
      | engine index event decodedBytes =>
          intro download _
          rcases event with ⟨_, _ | ⟨_, _, _, _, result⟩ | _ | _ | _⟩ | _ | _ | _ | _ | _ | _
          any_goals trivial
          cases result
          any_goals simp [World.calm] at calm
          simp [JobRun.Honest, JobContext.Honest]
      | _ => trivial
    · cases event <;> simp [World.calm, Reloads] at calm ⊢
    · cases event with
      | engine index event decodedBytes =>
          rintro ⟨download, isDownload, fails, -⟩
          simp only [World.calm, Bool.and_eq_true, Option.mem_def.mp isDownload, Option.all_some,
            Option.isNone_iff_eq_none] at calm
          simp [calm.2] at fails
      | _ => simp [DropsFailure]
    · cases event <;> simp [World.calm, TearsFinished] at calm ⊢
  · simp at move

/-- The articles of a file hold 700 bytes each, one after the other. -/
def thirds : Upload where
  size _ := 2100
  begins _ segment := 700 * (segment - 1)
  length _ _ := 700

/-- Both segments that the NZB lists arrive, and the one between them is never looked for. -/
theorem not_verifies_incomplete : ¬∀ (nzb : NzbJob) (upload : Upload)
    (events : List QueueEvent) (world : World), Fresh nzb →
      Run (Step nzb) (admitted nzb [] false) events world →
        VerifiesIncomplete nzb upload world := by
  intro verifies
  have executed : (execute (calmStep (oneFile [1, 3])) (admitted (oneFile [1, 3]) [] false)
      (downloaded 2)).map World.finishing = some [0] := by
    decide +kernel
  rcases Option.map_eq_some_iff.mp executed with ⟨world, executed, finishing⟩
  have run := (Run.always_of_execute (step_functional _) (sound_calmStep _) .start .nil executed).1
  have fresh : Fresh (oneFile [1, 3]) := by
    constructor <;> simp [oneFile, article, Untried]
  have skips := verifies _ thirds _ world fresh run 0 (by simp [finishing]) ["movie.par2".toList]
    [{ recoverySetId := 0, sliceSize := 1, fileOrder := [], files := [], recoveryBlockCount := 0 }]
  have complete := skips.1 rfl
  have listed := (complete _ List.mem_cons_self (by decide +kernel) 3 (by simp [article]) 2
    (by simp) (by simp)).1
  simp [article] at listed

theorem verifies_incomplete_three_articles : ∃ world : World, world.finishing = [0] ∧
    VerifiesIncomplete (oneFile [1, 2, 3]) thirds world := by
  have executed : (execute (calmStep (oneFile [1, 2, 3])) (admitted (oneFile [1, 2, 3]) [] false)
      (downloaded 3)).map World.finishing = some [0] := by
    decide +kernel
  rcases Option.map_eq_some_iff.mp executed with ⟨world, executed, finishing⟩
  rcases Run.always_of_execute (step_functional _) (sound_calmStep _) .start .nil executed with
    ⟨run, sound⟩
  have fresh : Fresh (oneFile [1, 2, 3]) := by
    constructor <;> simp [oneFile, article, Untried]
  have noGap : NoGap (oneFile [1, 2, 3]) := by
    intro file mem _
    cases List.mem_singleton.mp mem
    decide
  have covers : thirds.Covers (oneFile [1, 2, 3]) := by
    intro file mem _ offset inside
    cases List.mem_singleton.mp mem
    refine ⟨offset / 700 + 1, ?_, by simp, ?_⟩
    · simp [article, thirds] at inside ⊢
      omega
    · simp only [Upload.Holds, thirds, Nat.add_sub_cancel]
      omega
  have truthful : Truthful [] (oneFile [1, 2, 3]) := by
    simp [Truthful, oneFile, article]
  exact ⟨world, finishing,
    verifies_incomplete fresh noGap covers (Lists.refl _) truthful fresh.untried run sound⟩

end World

end Rustnzb.Web
