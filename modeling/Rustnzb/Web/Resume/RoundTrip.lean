import Rustnzb.Web.Resume.Tables

/-!
# What a checkpoint gives back

After each update a job is what a fresh parse with its checkpoint would be, exactly as long as the
updates are those of articles that the checkpoint tells apart, and say of a file what its articles
say.
-/

namespace Rustnzb.Web.Resume

open Dispatch (FileId ServerId ArticleFailure)
open Lib (Run readBack ReadsBack OwnsKey Copied)

structure CheckpointFormat where
  Text : Type
  write : JobCheckpoint → Text
  read : Text → Option JobCheckpoint
  read_write : ∀ checkpoint, read (write checkpoint) = some checkpoint

def restored (format : CheckpointFormat) (parsed : NzbJob) (saved : format.Text) : Option NzbJob :=
  (format.read saved).map fun checkpoint =>
    (restoreCheckpointAccounting (applyCheckpoint parsed checkpoint) checkpoint).1

/-- Saved and restored by a parse that gives its files new ids, the job is the same. -/
def RoundTrips (format : CheckpointFormat) (parsed : Core.NzbJob) (idsAgain : List FileId)
    (job : NzbJob) : Prop :=
  (restored format (freshJob idsAgain parsed) (format.write (checkpointForJob job))).map
    NzbJob.progress = some job.progress

abbrev Received := List (ServerId × String) × ProgressUpdate

def Step (job : NzbJob) (received : Received) (next : NzbJob) : Prop :=
  next = handleProgress received.1 job received.2

/-! ## The bytes of a file -/

def Article.counted (article : Article) : ℕ :=
  if article.downloaded then (article.dataSize.getD article.bytes).toNat else 0

theorem toNat_saturatingAdd (total bytes : UInt64) :
    (saturatingAdd total bytes).toNat = min (total.toNat + bytes.toNat) (2 ^ 64 - 1) := by
  rw [saturatingAdd, UInt64.toNat_ofNat']
  omega

theorem toNat_recordedBytes (articles : List Article) :
    (recordedBytes articles).toNat = min (articles.map Article.counted).sum (2 ^ 64 - 1) := by
  have folded : ∀ total : UInt64, (articles.foldl (fun total article =>
      if article.downloaded then saturatingAdd total (article.dataSize.getD article.bytes)
      else total) total).toNat =
        min (total.toNat + (articles.map Article.counted).sum) (2 ^ 64 - 1) := by
    induction articles with
    | nil =>
        intro total
        have bound := total.toNat_lt
        simp only [List.foldl_nil, List.map_nil, List.sum_nil]
        omega
    | cons article articles ih =>
        intro total
        simp only [List.foldl_cons, List.map_cons, List.sum_cons]
        rw [ih]
        split
        next done =>
          rw [toNat_saturatingAdd, Article.counted, if_pos done]
          omega
        next missing =>
          rw [Article.counted, if_neg missing]
          omega
  rw [recordedBytes, folded 0]
  simp

/-- The bytes of a file are those of its articles, and it is assembled just if it has them all. -/
structure NzbFile.Exact (file : NzbFile) : Prop where
  bytes : file.bytesDownloaded.toNat = (file.articles.map Article.counted).sum
  assembled : file.assembled = file.articles.all Article.downloaded

theorem NzbFile.Exact.accounted {file : NzbFile} (exact_ : file.Exact) : file.Accounted where
  bytes := by
    have bound := file.bytesDownloaded.toNat_lt
    apply UInt64.toNat_inj.mp
    rw [toNat_recordedBytes, ← exact_.bytes]
    omega
  assembled := exact_.assembled

section Success

variable {file : NzbFile} {segmentNumber : ℕ} {decodedBytes : UInt64} {fileComplete : Bool}

/-- A success that is news of a file: its article is listed and has no bytes yet, and it says that
the file is complete just if no other article is missing. -/
structure NzbFile.Expects (file : NzbFile) (segmentNumber : ℕ) (decodedBytes : UInt64)
    (fileComplete : Bool) : Prop where
  bytes : (∃ article ∈ file.articles, article.segmentNumber = segmentNumber ∧
      article.counted = 0 ∧ file.bytesDownloaded.toNat + decodedBytes.toNat < 2 ^ 64) ∨
    (decodedBytes = 0 ∧ ∀ article ∈ file.articles, article.segmentNumber ≠ segmentNumber)
  complete : file.assembled = true ∨
    (fileComplete = true ↔ ∀ article ∈ file.articles, article.downloaded = true ∨
      article.segmentNumber = segmentNumber)

theorem all_recordDecoded :
    (file.recordDecoded segmentNumber decodedBytes fileComplete).articles.all Article.downloaded =
        true ↔
      ∀ article ∈ file.articles, article.downloaded = true ∨
        article.segmentNumber = segmentNumber := by
  simp only [NzbFile.recordDecoded, List.all_map, List.all_eq_true, Function.comp]
  apply forall₂_congr
  intro article _
  by_cases own : article.segmentNumber = segmentNumber
  · simp [own, Article.markDownloaded]
  · simp [own]

theorem assembled_recordDecoded_iff
    (assembled : file.assembled = file.articles.all Article.downloaded) :
    (file.recordDecoded segmentNumber decodedBytes fileComplete).assembled =
        (file.recordDecoded segmentNumber decodedBytes fileComplete).articles.all
          Article.downloaded ↔
      file.assembled = true ∨
        (fileComplete = true ↔ ∀ article ∈ file.articles, article.downloaded = true ∨
          article.segmentNumber = segmentNumber) := by
  rw [Bool.eq_iff_iff, all_recordDecoded]
  simp only [NzbFile.recordDecoded, Bool.or_eq_true]
  by_cases whole : file.assembled = true
  · rw [assembled, List.all_eq_true] at whole
    have all : ∀ article ∈ file.articles, article.downloaded = true ∨
        article.segmentNumber = segmentNumber := fun article mem => .inl (whole article mem)
    rw [← List.all_eq_true, ← assembled] at whole
    simp only [whole, true_or, true_iff, iff_true]
    exact all
  · simp [whole]

variable (decodedBytes fileComplete) in
theorem sum_counted_recordDecoded
    (segments : (file.articles.map Article.segmentNumber).Nodup) {article : Article}
    (mem : article ∈ file.articles) (isArticle : article.segmentNumber = segmentNumber) :
    ((file.recordDecoded segmentNumber decodedBytes fileComplete).articles.map
        Article.counted).sum + article.counted =
      (file.articles.map Article.counted).sum + decodedBytes.toNat := by
  rcases List.append_of_mem mem with ⟨before, after, split⟩
  rw [split, List.map_append, List.map_cons, isArticle, List.nodup_middle,
    List.nodup_cons] at segments
  have others : ∀ part : List Article, (∀ other ∈ part, other ∈ before ++ after) →
      part.map (fun other => if other.segmentNumber = segmentNumber
        then other.markDownloaded decodedBytes else other) = part := by
    intro part subset
    conv_rhs => rw [← List.map_id part]
    apply List.map_congr_left
    intro other otherMem
    rw [if_neg, id_eq]
    rintro rfl
    apply segments.1
    rw [← List.map_append]
    exact List.mem_map_of_mem (subset other otherMem)
  have marked : (article.markDownloaded decodedBytes).counted = decodedBytes.toNat := rfl
  simp only [NzbFile.recordDecoded, split, List.map_append, List.map_cons,
    others before (fun _ => List.mem_append_left _),
      others after (fun _ => List.mem_append_right _),
    isArticle, if_true, List.sum_append, List.sum_cons, marked]
  omega

theorem articles_recordDecoded_of_unlisted
    (unlisted : ∀ article ∈ file.articles, article.segmentNumber ≠ segmentNumber) :
    (file.recordDecoded segmentNumber decodedBytes fileComplete).articles = file.articles := by
  simp only [NzbFile.recordDecoded]
  conv_rhs => rw [← List.map_id file.articles]
  apply List.map_congr_left
  intro article mem
  rw [if_neg (unlisted article mem), id_eq]

section

variable (segments : (file.articles.map Article.segmentNumber).Nodup)

include segments

theorem bytes_recordDecoded_iff
    (bytes : file.bytesDownloaded.toNat = (file.articles.map Article.counted).sum) :
    (file.recordDecoded segmentNumber decodedBytes fileComplete).bytesDownloaded =
        recordedBytes (file.recordDecoded segmentNumber decodedBytes fileComplete).articles ↔
      (∃ article ∈ file.articles, article.segmentNumber = segmentNumber ∧
          article.counted = 0 ∧ file.bytesDownloaded.toNat + decodedBytes.toNat < 2 ^ 64) ∨
        (decodedBytes = 0 ∧
          ∀ article ∈ file.articles, article.segmentNumber ≠ segmentNumber) := by
  have bound := file.bytesDownloaded.toNat_lt
  have decodedBound := decodedBytes.toNat_lt
  have live : (file.recordDecoded segmentNumber decodedBytes fileComplete).bytesDownloaded.toNat =
      (file.bytesDownloaded.toNat + decodedBytes.toNat) % 2 ^ 64 :=
    UInt64.toNat_add file.bytesDownloaded decodedBytes
  rw [← UInt64.toNat_inj, toNat_recordedBytes, live]
  by_cases listed : ∃ article ∈ file.articles, article.segmentNumber = segmentNumber
  · rcases listed with ⟨article, mem, isArticle⟩
    have total := sum_counted_recordDecoded decodedBytes fileComplete segments mem isArticle
    have small : article.counted < 2 ^ 64 := by
      rw [Article.counted]
      split
      · exact UInt64.toNat_lt _
      · omega
    rw [← bytes] at total
    constructor
    · intro same
      refine .inl ⟨article, mem, isArticle, ?_⟩
      omega
    · rintro (⟨other, otherMem, isOther, empty, fits⟩ | ⟨-, unlisted⟩)
      · have same := List.inj_on_of_nodup_map segments otherMem mem (isOther.trans isArticle.symm)
        subst same
        omega
      · exact absurd isArticle (unlisted article mem)
  · have unlisted : ∀ article ∈ file.articles, article.segmentNumber ≠ segmentNumber :=
      fun article mem isArticle => listed ⟨article, mem, isArticle⟩
    rw [articles_recordDecoded_of_unlisted unlisted, ← bytes]
    have zero : decodedBytes = 0 ↔ decodedBytes.toNat = 0 := by
      rw [← UInt64.toNat_inj]
      rfl
    constructor
    · intro same
      refine .inr ⟨zero.mpr ?_, unlisted⟩
      omega
    · rintro (⟨other, otherMem, isOther, -⟩ | ⟨nothing, -⟩)
      · exact absurd isOther (unlisted other otherMem)
      · have none := zero.mp nothing
        omega

theorem accounted_recordDecoded_iff (before : file.Exact) :
    (file.recordDecoded segmentNumber decodedBytes fileComplete).Accounted ↔
      file.Expects segmentNumber decodedBytes fileComplete := by
  constructor
  · intro after
    exact ⟨(bytes_recordDecoded_iff segments before.bytes).mp after.bytes,
      (assembled_recordDecoded_iff before.assembled).mp after.assembled⟩
  · intro expects
    exact ⟨(bytes_recordDecoded_iff segments before.bytes).mpr expects.bytes,
      (assembled_recordDecoded_iff before.assembled).mpr expects.complete⟩

theorem NzbFile.Exact.recordDecoded
    (before : file.Exact) (expects : file.Expects segmentNumber decodedBytes fileComplete) :
    (file.recordDecoded segmentNumber decodedBytes fileComplete).Exact where
  bytes := by
    have live : (file.recordDecoded segmentNumber decodedBytes
        fileComplete).bytesDownloaded.toNat =
          (file.bytesDownloaded.toNat + decodedBytes.toNat) % 2 ^ 64 :=
      UInt64.toNat_add file.bytesDownloaded decodedBytes
    have bound := file.bytesDownloaded.toNat_lt
    rcases expects.bytes with ⟨article, mem, isArticle, empty, fits⟩ | ⟨nothing, unlisted⟩
    · have total := sum_counted_recordDecoded decodedBytes fileComplete segments mem isArticle
      rw [← before.bytes] at total
      omega
    · rw [live, articles_recordDecoded_of_unlisted unlisted, ← before.bytes, nothing]
      simp only [UInt64.toNat_zero]
      omega
  assembled := (assembled_recordDecoded_iff before.assembled).mpr expects.complete

end

end Success

/-! ## One update -/

def ProgressUpdate.Fits (file : NzbFile) : ProgressUpdate → Prop
  | .articleComplete _ segmentNumber decodedBytes fileComplete _ _ =>
      file.Expects segmentNumber decodedBytes fileComplete
  | .articleFailed .. => True

/-- The checkpoint tells the article of the update apart, if the NZB lists it, and a success is news
of its file. -/
structure Restorable (original job : NzbJob) (update : ProgressUpdate) : Prop where
  owns : update.place ∈ places original.files →
    OwnsKey (restoredFrom original.files) (places original.files) update.place
  fits : ∀ file ∈ job.files, file.id = update.fileId → update.Fits file

/-- All files get back what their articles had, and articles account for their files. -/
def FilesRoundTrip (job : NzbJob) : Prop :=
  ∀ file ∈ job.files, ReadsFile job file ∧ file.Accounted

/-- A job after updates that round trip. -/
structure Settled (original job : NzbJob) : Prop where
  lists : Lists original job
  copied : Copied (restoredFrom original.files) .untouched (places original.files)
    (outcomeAt job.files)
  exact_ : ∀ file ∈ job.files, file.Exact

section Update

variable {file : NzbFile} {job original : NzbJob} {update : ProgressUpdate}

theorem recordDecoded_reveal (file : NzbFile) (yencFilename : Option String) (segmentNumber : ℕ)
    (decodedBytes : UInt64) (fileComplete : Bool) :
    let revealed := (file.reveal yencFilename).recordDecoded segmentNumber decodedBytes fileComplete
    let plain := file.recordDecoded segmentNumber decodedBytes fileComplete
    revealed.articles = plain.articles ∧ revealed.bytesDownloaded = plain.bytesDownloaded ∧
      revealed.assembled = plain.assembled := by
  rcases reveal_frame file yencFilename with ⟨-, -, articles, bytes, assembled⟩
  simp [NzbFile.recordDecoded, articles, bytes, assembled]

theorem counted_recordFailure (article : Article) (serverId : ServerId) :
    (article.recordFailure serverId).counted = article.counted := rfl

theorem downloaded_recordFailure (article : Article) (serverId : ServerId) :
    (article.recordFailure serverId).downloaded = article.downloaded := rfl

theorem articles_recordFailure (file : NzbFile) (segmentNumber : ℕ) (serverId : ServerId) :
    ((file.recordFailure segmentNumber serverId).articles.map Article.counted) =
        file.articles.map Article.counted ∧
      (file.recordFailure segmentNumber serverId).articles.all Article.downloaded =
        file.articles.all Article.downloaded := by
  have counted : ((file.recordFailure segmentNumber serverId).articles.map Article.counted) =
      file.articles.map Article.counted :=
    map_modifyFirst (fun article => counted_recordFailure article serverId) file.articles
  have downloaded : ((file.recordFailure segmentNumber serverId).articles.map Article.downloaded) =
      file.articles.map Article.downloaded :=
    map_modifyFirst (fun article => downloaded_recordFailure article serverId) file.articles
  refine ⟨counted, ?_⟩
  have all := congrArg (fun flags => flags.all id) downloaded
  simpa [List.all_map] using all

theorem NzbFile.Exact.recordFailure (before : file.Exact) (segmentNumber : ℕ)
    (serverId : ServerId) : (file.recordFailure segmentNumber serverId).Exact where
  bytes := by
    rw [(articles_recordFailure file segmentNumber serverId).1]
    exact before.bytes
  assembled := by
    rw [(articles_recordFailure file segmentNumber serverId).2]
    exact before.assembled

theorem accounted_changeFile_iff (segments : (file.articles.map Article.segmentNumber).Nodup)
    (before : file.Exact) : (update.changeFile file).Accounted ↔ update.Fits file := by
  cases update with
  | articleComplete fileId segmentNumber decodedBytes fileComplete serverId yencFilename =>
      rcases recordDecoded_reveal file yencFilename segmentNumber decodedBytes fileComplete with
        ⟨articles, bytes, assembled⟩
      have plain : (file.recordDecoded segmentNumber decodedBytes fileComplete).Accounted ↔
          file.Expects segmentNumber decodedBytes fileComplete :=
        accounted_recordDecoded_iff segments before
      rw [ProgressUpdate.Fits, ProgressUpdate.changeFile, ← plain]
      constructor
      · rintro ⟨bytes', assembled'⟩
        rw [articles, bytes] at bytes'
        rw [articles, assembled] at assembled'
        exact ⟨bytes', assembled'⟩
      · rintro ⟨bytes', assembled'⟩
        rw [← articles, ← bytes] at bytes'
        rw [← articles, ← assembled] at assembled'
        exact ⟨bytes', assembled'⟩
  | articleFailed fileId segmentNumber failure =>
      simp only [ProgressUpdate.Fits, iff_true]
      exact (before.recordFailure segmentNumber failure.serverId).accounted

theorem NzbFile.Exact.changeFile (segments : (file.articles.map Article.segmentNumber).Nodup)
    (before : file.Exact) (fits : update.Fits file) : (update.changeFile file).Exact := by
  cases update with
  | articleComplete fileId segmentNumber decodedBytes fileComplete serverId yencFilename =>
      rcases recordDecoded_reveal file yencFilename segmentNumber decodedBytes fileComplete with
        ⟨articles, bytes, assembled⟩
      have plain := before.recordDecoded segments fits
      rw [ProgressUpdate.changeFile]
      constructor
      · rw [bytes, articles]
        exact plain.bytes
      · rw [assembled, articles]
        exact plain.assembled
  | articleFailed fileId segmentNumber failure =>
      exact before.recordFailure segmentNumber failure.serverId

end Update

section Step

variable {file : NzbFile} {job original : NzbJob} {update : ProgressUpdate}

theorem places_of_lists (lists : Lists original job) :
    places job.files = places original.files := by
  rw [← places_blank, lists, places_blank]

theorem restoredFrom_of_lists (lists : Lists original job) :
    restoredFrom job.files = restoredFrom original.files := by
  funext place
  rw [← restoredFrom_blank, lists, restoredFrom_blank]

theorem readsFiles_iff (numbered : Numbered job.files) (lists : Lists original job) :
    (∀ file ∈ job.files, ReadsFile job file) ↔
      ReadsBack (restoredFrom original.files) .untouched (places original.files)
        (outcomeAt job.files) := by
  rw [← places_of_lists lists, ← restoredFrom_of_lists lists]
  constructor
  · rintro reads place ⟨file, mem, isFile, article, articleMem, isArticle⟩
    have own : (file.id, article.segmentNumber) = place := Prod.ext isFile isArticle
    rw [← own, outcomeAt_of_mem numbered mem articleMem]
    exact reads file mem article articleMem
  · intro reads file mem article articleMem
    have listed := reads (file.id, article.segmentNumber)
      ⟨file, mem, rfl, article, articleMem, rfl⟩
    rwa [outcomeAt_of_mem numbered mem articleMem] at listed

theorem filesRoundTrip_iff (numbered : Numbered job.files) (lists : Lists original job) :
    FilesRoundTrip job ↔
      ReadsBack (restoredFrom original.files) .untouched (places original.files)
        (outcomeAt job.files) ∧ ∀ file ∈ job.files, file.Accounted := by
  rw [← readsFiles_iff numbered lists]
  simp only [FilesRoundTrip, forall_and]

variable (servers : List (ServerId × String))

theorem accounted_handleProgress_iff (numbered : Numbered job.files)
    (before : ∀ file ∈ job.files, file.Exact) :
    (∀ file ∈ (handleProgress servers job update).files, file.Accounted) ↔
      ∀ file ∈ job.files, file.id = update.fileId → update.Fits file := by
  rw [files_handleProgress update servers numbered, List.forall_mem_map]
  apply forall₂_congr
  intro file mem
  by_cases own : file.id = update.fileId
  · rw [if_pos own, accounted_changeFile_iff (numbered.segments file mem) (before file mem)]
    simp [own]
  · rw [if_neg own]
    simp [own, (before file mem).accounted]

theorem outcomeAt_handleProgress_cases (lists : Lists original job)
    (numbered : Numbered original.files) :
    (∃ value, value ≠ ArticleOutcome.untouched ∧ update.place ∈ places original.files ∧
      outcomeAt (handleProgress servers job update).files =
        Function.update (outcomeAt job.files) update.place value) ∨
    (update.place ∉ places original.files ∧
      outcomeAt (handleProgress servers job update).files = outcomeAt job.files) := by
  have numberedJob := lists.numbered numbered
  by_cases listed : update.place ∈ places original.files
  · have present := listed
    rw [← places_of_lists lists] at present
    rcases present with ⟨file, mem, isFile, article, articleMem, isArticle⟩
    exact .inl ⟨(update.changeArticle article).outcome, outcome_changeArticle_ne update article,
      listed, outcomeAt_handleProgress update servers numberedJob mem isFile articleMem isArticle⟩
  · have absent := listed
    rw [← places_of_lists lists] at absent
    exact .inr ⟨listed, outcomeAt_handleProgress_of_absent update servers numberedJob absent⟩

theorem Settled.filesRoundTrip_iff (settled : Settled original job)
    (numbered : Numbered original.files) :
    FilesRoundTrip (handleProgress servers job update) ↔ Restorable original job update := by
  have numberedJob := settled.lists.numbered numbered
  have lists := lists_handleProgress update servers numberedJob settled.lists
  rw [Resume.filesRoundTrip_iff (lists.numbered numbered) lists,
    accounted_handleProgress_iff servers numberedJob settled.exact_]
  have owns_iff : ReadsBack (restoredFrom original.files) .untouched (places original.files)
        (outcomeAt (handleProgress servers job update).files) ↔
      (update.place ∈ places original.files →
        OwnsKey (restoredFrom original.files) (places original.files) update.place) := by
    rcases outcomeAt_handleProgress_cases servers settled.lists numbered with
      ⟨value, differs, listed, after⟩ | ⟨unlisted, after⟩
    · rw [after, settled.copied.readsBack_update_iff listed differs]
      simp [listed]
    · rw [after]
      simp [unlisted, settled.copied.readsBack]
  rw [owns_iff]
  constructor
  · rintro ⟨owns, fits⟩
    exact ⟨owns, fits⟩
  · rintro ⟨owns, fits⟩
    exact ⟨owns, fits⟩

theorem Settled.step (settled : Settled original job) (numbered : Numbered original.files)
    (restorable : Restorable original job update) :
    Settled original (handleProgress servers job update) where
  lists := lists_handleProgress update servers (settled.lists.numbered numbered) settled.lists
  copied := by
    rcases outcomeAt_handleProgress_cases servers settled.lists numbered with
      ⟨value, differs, listed, after⟩ | ⟨unlisted, after⟩
    · rw [after]
      exact settled.copied.update (restorable.owns listed)
    · rw [after]
      exact settled.copied
  exact_ := by
    have numberedJob := settled.lists.numbered numbered
    rw [files_handleProgress update servers numberedJob, List.forall_mem_map]
    intro file mem
    by_cases own : file.id = update.fileId
    · rw [if_pos own]
      exact (settled.exact_ file mem).changeFile (numberedJob.segments file mem)
        (restorable.fits file mem own)
    · rw [if_neg own]
      exact settled.exact_ file mem

end Step

/-! ## Runs -/

section Runs

variable {format : CheckpointFormat} {parsed : Core.NzbJob} {ids idsAgain : List FileId}
  {updates : List Received} {job : NzbJob}

theorem step_functional (state : NzbJob) (received : Received) (next other : NzbJob)
    (move : Step state received next) (move' : Step state received other) : next = other :=
  move.trans move'.symm

theorem roundTrips_iff (numbered : Numbered job.files) (lists : Lists (freshJob ids parsed) job)
    (newIds : NewIds parsed ids) (newIdsAgain : NewIds parsed idsAgain) :
    RoundTrips format parsed idsAgain job ↔ FilesRoundTrip job := by
  rw [FilesRoundTrip, ← progress_applyCheckpoint_iff numbered lists newIds newIdsAgain]
  simp only [RoundTrips, restored, format.read_write, Option.map_some, Option.some_inj]
  constructor
  · intro same
    have files := congrArg JobProgress.files same
    exact files
  · intro same
    simp only [NzbJob.progress] at same
    simp only [NzbJob.progress, restoreCheckpointAccounting, same]
    rfl

theorem exact_freshFile (id : FileId) {file : Core.NzbFile} (some : file.articles ≠ []) :
    (freshFile id file).Exact where
  bytes := by
    have none :
        (freshFile id file).articles.map Article.counted = file.articles.map fun _ => 0 := by
      simp only [freshFile, List.map_map]
      rfl
    rw [none]
    simp [freshFile]
  assembled := by
    rcases List.exists_cons_of_ne_nil some with ⟨segment, rest, isCons⟩
    simp [freshFile, freshArticle, isCons]

theorem articles_ne_nil_of_accounted {id : FileId} {file : Core.NzbFile}
    (accounted : (freshFile id file).Accounted) : file.articles ≠ [] := by
  intro empty
  have assembled := accounted.assembled
  simp [freshFile, empty] at assembled

theorem settled_freshJob (whole : ∀ file ∈ parsed.files, file.articles ≠ []) :
    Settled (freshJob ids parsed) (freshJob ids parsed) where
  lists := rfl
  copied := by
    have none : outcomeAt (freshJob ids parsed).files = fun _ => .untouched :=
      funext outcomeAt_freshJob
    rw [none]
    exact Lib.copied_default
  exact_ := by
    intro file mem
    rcases exists_freshFile mem with ⟨id, core, coreMem, rfl⟩
    exact exact_freshFile id (whole core coreMem)

theorem Settled.filesRoundTrip {original : NzbJob} (settled : Settled original job)
    (numbered : Numbered original.files) : FilesRoundTrip job := by
  apply (Resume.filesRoundTrip_iff (settled.lists.numbered numbered) settled.lists).mpr
  exact ⟨settled.copied.readsBack, fun file mem => (settled.exact_ file mem).accounted⟩

theorem settled_of_run (numbered : Numbered (freshJob ids parsed).files)
    (whole : ∀ file ∈ parsed.files, file.articles ≠ [])
    (run : Run Step (freshJob ids parsed) updates job)
    (restorable : Run.Always Step (freshJob ids parsed)
      (fun _ job received => Restorable (freshJob ids parsed) job received.2) updates) :
    Settled (freshJob ids parsed) job := by
  apply run.invariant_of_steps (fun _ job => Settled (freshJob ids parsed) job) restorable
  case base => exact settled_freshJob whole
  case preserve =>
    intro updates job received next _ settled isRestorable move
    rw [move]
    exact settled.step received.1 numbered isRestorable

/-- Every job on the way round trips, exactly if each file of the NZB has articles, and each update
is of an article that the checkpoint tells apart and is news of its file. -/
theorem round_trip_iff (format : CheckpointFormat) {nfc : List Char → List Char}
    {events : List Core.Event} (accepted : Core.parseNzb nfc events = .ok parsed)
    (newIds : NewIds parsed ids) (newIdsAgain : NewIds parsed idsAgain)
    (run : Run Step (freshJob ids parsed) updates job) :
    (∀ before after state, updates = before ++ after →
      Run Step (freshJob ids parsed) before state → RoundTrips format parsed idsAgain state) ↔
    (∀ file ∈ parsed.files, file.articles ≠ []) ∧
      Run.Always Step (freshJob ids parsed)
        (fun _ state received => Restorable (freshJob ids parsed) state received.2) updates := by
  have numbered : Numbered (freshJob ids parsed).files :=
    numbered_freshJob newIds (Core.nodup_numbers_parseNzb nfc accepted)
  have lists : ∀ {updates job}, Run Step (freshJob ids parsed) updates job →
      Lists (freshJob ids parsed) job := by
    intro updates job run
    apply run.invariant (fun _ job => Lists (freshJob ids parsed) job) rfl
    intro updates job received next _ lists move
    rw [move]
    exact lists_handleProgress received.2 received.1 (lists.numbered numbered) lists
  have trips_iff : ∀ {updates job}, Run Step (freshJob ids parsed) updates job →
      (RoundTrips format parsed idsAgain job ↔ FilesRoundTrip job) := fun run =>
    roundTrips_iff ((lists run).numbered numbered) (lists run) newIds newIdsAgain
  constructor
  case mp =>
    intro trips
    have whole : ∀ file ∈ parsed.files, file.articles ≠ [] := by
      have atStart := (trips_iff .start).mp (trips [] updates _ rfl .start)
      intro file mem
      rcases exists_mem_freshJob newIds mem with ⟨id, fresh⟩
      exact articles_ne_nil_of_accounted (atStart _ fresh).2
    refine ⟨whole, ?_⟩
    induction run with
    | start => exact Run.Always.nil
    | @snoc updates job received next run move ih =>
        have restorable := ih fun before after state split reached =>
          trips before (after ++ [received]) state (by simp [split]) reached
        have settled := settled_of_run numbered whole run restorable
        have trip := (trips_iff (run.snoc move)).mp
          (trips (updates ++ [received]) [] next (by simp) (run.snoc move))
        rw [move] at trip
        exact restorable.concat_of_functional step_functional run
          ((settled.filesRoundTrip_iff received.1 numbered).mp trip)
  case mpr =>
    rintro ⟨whole, restorable⟩ before after state rfl reached
    have settled := settled_of_run numbered whole reached restorable.of_append
    exact (trips_iff reached).mpr (settled.filesRoundTrip numbered)

end Runs

/-- A document of files of one segment each: their subjects and message ids. -/
def singles (files : List (String × String)) : List Core.Event :=
  files.flatMap fun file =>
    [.start "file" [{ key := "subject", decoded := some file.1, lossy := file.1 }],
      .start "segments" [],
      .start "segment" [{ key := "number", decoded := some "1", lossy := "1" },
        { key := "bytes", decoded := some "4", lossy := "4" }],
      .text file.2, .finish "segment", .finish "segments", .finish "file"]

def singlesJob (files : List (String × String)) : Core.NzbJob where
  files := files.map fun file =>
    { filename := file.1, bytes := 4, isPar2 := false, groups := []
      articles := [{ number := 1, bytes := 4, messageId := file.2 }] }
  totalBytes := 4 * files.length
  fileCount := files.length
  articleCount := files.length
  password := none

def plainFormat : CheckpointFormat where
  Text := JobCheckpoint
  write checkpoint := checkpoint
  read := some
  read_write _ := rfl

/-- A failure and a success of the first file, and a success of the second. -/
def someUpdates : List Received :=
  [([], .articleFailed "f" 1 { kind := .timeout, serverId := "s", message := "late" }),
    ([("s", "server")], .articleComplete "f" 1 3 true (some "s") none),
    ([], .articleComplete "g" 1 3 true none (some "b.par2"))]

theorem run_foldl (job : NzbJob) (updates : List Received) :
    Run Step job updates
      (updates.foldl (fun job received => handleProgress received.1 job received.2) job) := by
  induction updates using List.reverseRecOn with
  | nil => exact .start
  | append_singleton updates received ih =>
      rw [List.foldl_append]
      exact ih.snoc rfl

theorem round_trip_iff_two_files : ∃ job,
    Run Step (freshJob ["f", "g"] (singlesJob [("a", "a@x"), ("b", "b@x")])) someUpdates job ∧
      ((∀ before after state, someUpdates = before ++ after →
        Run Step (freshJob ["f", "g"] (singlesJob [("a", "a@x"), ("b", "b@x")])) before state →
          RoundTrips plainFormat (singlesJob [("a", "a@x"), ("b", "b@x")]) ["h", "k"] state) ↔
      (∀ file ∈ (singlesJob [("a", "a@x"), ("b", "b@x")]).files, file.articles ≠ []) ∧
        Run.Always Step (freshJob ["f", "g"] (singlesJob [("a", "a@x"), ("b", "b@x")]))
          (fun _ state received =>
            Restorable (freshJob ["f", "g"] (singlesJob [("a", "a@x"), ("b", "b@x")])) state
              received.2) someUpdates) := by
  have accepted : Core.parseNzb id (singles [("\"a\"", "a@x"), ("\"b\"", "b@x")]) =
      .ok (singlesJob [("a", "a@x"), ("b", "b@x")]) := by decide
  have run := run_foldl (freshJob ["f", "g"] (singlesJob [("a", "a@x"), ("b", "b@x")])) someUpdates
  exact ⟨_, run, round_trip_iff plainFormat accepted ⟨rfl, by decide⟩ ⟨rfl, by decide⟩ run⟩

/-- Of two files of one name the article that is missing comes back as downloaded. -/
theorem not_round_trip : ¬∀ (format : CheckpointFormat) (nfc : List Char → List Char)
    (events : List Core.Event) (parsed : Core.NzbJob) (ids idsAgain : List FileId)
    (updates : List Received) (job : NzbJob), Core.parseNzb nfc events = .ok parsed →
    NewIds parsed ids → NewIds parsed idsAgain → Run Step (freshJob ids parsed) updates job →
    RoundTrips format parsed idsAgain job := by
  intro trips
  have accepted : Core.parseNzb id (singles [("\"a\"", "a@x"), ("\"a\"", "b@x")]) =
      .ok (singlesJob [("a", "a@x"), ("a", "b@x")]) := by decide
  have run := run_foldl (freshJob ["f", "g"] (singlesJob [("a", "a@x"), ("a", "b@x")]))
    [([], .articleComplete "g" 1 4 true none none)]
  have trip := trips plainFormat id _ _ ["f", "g"] ["h", "k"] _ _ accepted ⟨rfl, by decide⟩
    ⟨rfl, by decide⟩ run
  have lost : ¬(restored plainFormat (freshJob ["h", "k"] (singlesJob [("a", "a@x"), ("a", "b@x")]))
      (checkpointForJob (handleProgress []
        (freshJob ["f", "g"] (singlesJob [("a", "a@x"), ("a", "b@x")]))
        (.articleComplete "g" 1 4 true none none)))).map NzbJob.progress =
      some (handleProgress [] (freshJob ["f", "g"] (singlesJob [("a", "a@x"), ("a", "b@x")]))
        (.articleComplete "g" 1 4 true none none)).progress := by decide
  exact lost trip

end Rustnzb.Web.Resume
