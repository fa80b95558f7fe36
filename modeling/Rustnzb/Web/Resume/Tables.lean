import Rustnzb.Lib.ReadBack
import Rustnzb.Web.Resume.Progress

/-!
# Outcomes by place

An article's place is the id of its file and its segment number. What a job records of its articles
is a table over places, an update changes the table at one place, and what `applyCheckpoint`
restores is the table read back through the names, message ids and segment numbers of the
checkpoint.
-/

namespace Rustnzb.Web.Resume

open Dispatch (FileId ServerId ArticleFailure)
open Lib (readBack)

/-! ## What is restored -/

structure ArticleOutcome where
  downloaded : Bool
  dataBegin : Option UInt64
  dataSize : Option UInt64
  crc32 : Option UInt32
  triedServers : List ServerId
  tries : ℕ
  deriving DecidableEq

structure FileProgress where
  outcomes : List ArticleOutcome
  bytesDownloaded : UInt64
  assembled : Bool
  deriving DecidableEq

structure JobProgress where
  files : List FileProgress
  downloadedBytes : UInt64
  filesCompleted : ℕ
  articlesDownloaded : ℕ
  articlesFailed : ℕ
  serverStats : List ServerArticleStats
  deriving DecidableEq

def ArticleOutcome.untouched : ArticleOutcome where
  downloaded := false
  dataBegin := none
  dataSize := none
  crc32 := none
  triedServers := []
  tries := 0

def Article.outcome (article : Article) : ArticleOutcome where
  downloaded := article.downloaded
  dataBegin := article.dataBegin
  dataSize := article.dataSize
  crc32 := article.crc32
  triedServers := article.triedServers
  tries := article.tries

def NzbFile.progress (file : NzbFile) : FileProgress where
  outcomes := file.articles.map Article.outcome
  bytesDownloaded := file.bytesDownloaded
  assembled := file.assembled

def NzbJob.progress (job : NzbJob) : JobProgress where
  files := job.files.map NzbFile.progress
  downloadedBytes := job.downloadedBytes
  filesCompleted := job.filesCompleted
  articlesDownloaded := job.articlesDownloaded
  articlesFailed := job.articlesFailed
  serverStats := job.serverStats

/-! ## What the NZB gives -/

def Article.blank (article : Article) : Article :=
  { article with
    downloaded := false, dataBegin := none, dataSize := none, crc32 := none, triedServers := [],
    tries := 0 }

def NzbFile.blank (file : NzbFile) : NzbFile where
  id := file.id
  filename := file.filename
  bytesDownloaded := 0
  isPar2 := false
  par2SetName := none
  par2Vol := none
  par2Blocks := none
  assembled := false
  articles := file.articles.map Article.blank

/-- Ids tell files apart, and segment numbers the articles of a file. -/
structure Numbered (files : List NzbFile) : Prop where
  ids : (files.map NzbFile.id).Nodup
  segments : ∀ file ∈ files, (file.articles.map Article.segmentNumber).Nodup

section Keyed

variable {α κ : Type} [DecidableEq κ] {key : α → κ} {items : List α}

theorem find?_key (nodup : (items.map key).Nodup) {item : α} (mem : item ∈ items) :
    items.find? (fun other => key other = key item) = some item := by
  rcases found : items.find? (fun other => key other = key item) with _ | other
  · have absent := List.find?_eq_none.mp found item mem
    simp at absent
  · have same : key other = key item := by simpa using List.find?_some found
    rw [List.inj_on_of_nodup_map nodup (List.mem_of_find?_eq_some found) mem same]

theorem modifyFirst_eq_map (nodup : (items.map key).Nodup) (wanted : κ) (change : α → α) :
    modifyFirst (fun item => key item = wanted) change items =
      items.map fun item => if key item = wanted then change item else item := by
  induction items with
  | nil => rfl
  | cons item items ih =>
      rw [List.map_cons, List.nodup_cons] at nodup
      simp only [modifyFirst, decide_eq_true_eq, List.map_cons]
      by_cases same : key item = wanted
      · have others : ∀ other ∈ items, key other ≠ wanted := by
          rintro other mem rfl
          exact nodup.1 (same ▸ List.mem_map_of_mem mem)
        rw [if_pos same, if_pos same]
        congr 1
        conv_lhs => rw [← List.map_id items]
        apply List.map_congr_left
        intro other mem
        rw [if_neg (others other mem), id_eq]
      · rw [if_neg same, if_neg same, ih nodup.2]

end Keyed

/-! ## Places -/

abbrev Place := FileId × ℕ

def fileAt (files : List NzbFile) (fileId : FileId) : Option NzbFile :=
  files.find? fun file => file.id = fileId

def NzbFile.articleAt (file : NzbFile) (segmentNumber : ℕ) : Option Article :=
  file.articles.find? fun article => article.segmentNumber = segmentNumber

def outcomeAt (files : List NzbFile) (place : Place) : ArticleOutcome :=
  (((fileAt files place.1).bind fun file => file.articleAt place.2).map Article.outcome).getD
    .untouched

def places (files : List NzbFile) : Set Place :=
  {place | ∃ file ∈ files, file.id = place.1 ∧
    ∃ article ∈ file.articles, article.segmentNumber = place.2}

def holder (files : List NzbFile) (name : String) : Option NzbFile :=
  files.reverse.find? fun file => file.filename = name

def NzbFile.savedFor (file : NzbFile) (article : Article) : Option Article :=
  file.articles.find? fun item =>
    item.messageId = article.messageId || item.segmentNumber = article.segmentNumber

def restoredFrom (files : List NzbFile) (place : Place) : Option Place :=
  (fileAt files place.1).bind fun file =>
    (file.articleAt place.2).bind fun article =>
      (holder files file.filename).bind fun saved =>
        (saved.savedFor article).map fun item => (saved.id, item.segmentNumber)

theorem fileAt_blank (files : List NzbFile) (fileId : FileId) :
    fileAt (files.map NzbFile.blank) fileId = (fileAt files fileId).map NzbFile.blank := by
  simp only [fileAt, List.find?_map]
  rfl

theorem articleAt_blank (file : NzbFile) (segmentNumber : ℕ) :
    file.blank.articleAt segmentNumber = (file.articleAt segmentNumber).map Article.blank := by
  simp only [NzbFile.articleAt, NzbFile.blank, List.find?_map]
  rfl

theorem holder_blank (files : List NzbFile) (name : String) :
    holder (files.map NzbFile.blank) name = (holder files name).map NzbFile.blank := by
  simp only [holder, ← List.map_reverse, List.find?_map]
  rfl

theorem savedFor_blank (file : NzbFile) (article : Article) :
    file.blank.savedFor article.blank = (file.savedFor article).map Article.blank := by
  simp only [NzbFile.savedFor, NzbFile.blank, List.find?_map]
  rfl

theorem restoredFrom_blank (files : List NzbFile) (place : Place) :
    restoredFrom (files.map NzbFile.blank) place = restoredFrom files place := by
  simp only [restoredFrom, fileAt_blank, Option.bind_map]
  congr 1
  funext file
  simp only [Function.comp, articleAt_blank, Option.bind_map]
  congr 1
  funext article
  have sameName : file.blank.filename = file.filename := rfl
  simp only [Function.comp, sameName, holder_blank, Option.bind_map]
  congr 1
  funext saved
  simp only [savedFor_blank, Option.map_map]
  rfl

theorem places_blank (files : List NzbFile) : places (files.map NzbFile.blank) = places files := by
  ext place
  constructor
  · rintro ⟨blank, mem, sameId, article, articleMem, sameNumber⟩
    rcases List.mem_map.mp mem with ⟨file, fileMem, rfl⟩
    rcases List.mem_map.mp articleMem with ⟨listed, listedMem, rfl⟩
    exact ⟨file, fileMem, sameId, listed, listedMem, sameNumber⟩
  · rintro ⟨file, mem, sameId, article, articleMem, sameNumber⟩
    exact ⟨file.blank, List.mem_map_of_mem mem, sameId, article.blank,
      List.mem_map_of_mem articleMem, sameNumber⟩

theorem numbered_blank {files : List NzbFile} (numbered : Numbered files) :
    Numbered (files.map NzbFile.blank) where
  ids := by
    rw [List.map_map]
    exact numbered.ids
  segments blank mem := by
    rcases List.mem_map.mp mem with ⟨file, fileMem, rfl⟩
    simp only [NzbFile.blank, List.map_map]
    exact numbered.segments file fileMem

section Restored

variable {job : NzbJob} {file : NzbFile} {article : Article}

variable {files : List NzbFile}

theorem fileAt_of_mem (numbered : Numbered files) (mem : file ∈ files) :
    fileAt files file.id = some file :=
  find?_key numbered.ids mem

theorem NzbFile.articleAt_of_mem (segments : (file.articles.map Article.segmentNumber).Nodup)
    (mem : article ∈ file.articles) : file.articleAt article.segmentNumber = some article :=
  find?_key segments mem

theorem outcomeAt_of_mem (numbered : Numbered files) (mem : file ∈ files)
    (articleMem : article ∈ file.articles) :
    outcomeAt files (file.id, article.segmentNumber) = article.outcome := by
  simp [outcomeAt, fileAt_of_mem numbered mem,
    NzbFile.articleAt_of_mem (numbered.segments file mem) articleMem]

theorem restoredFrom_of_mem (numbered : Numbered files) (mem : file ∈ files)
    (articleMem : article ∈ file.articles) :
    restoredFrom files (file.id, article.segmentNumber) =
      (holder files file.filename).bind fun saved =>
        (saved.savedFor article).map fun item => (saved.id, item.segmentNumber) := by
  simp [restoredFrom, fileAt_of_mem numbered mem,
    NzbFile.articleAt_of_mem (numbered.segments file mem) articleMem]

theorem lookupLast_map {α : Type} (files : List NzbFile) (value : NzbFile → α) (name : String) :
    lookupLast (files.map fun file => (file.filename, value file)) name =
      (holder files name).map value := by
  simp only [lookupLast, holder, ← List.map_reverse, List.find?_map, Option.map_map]
  rfl

theorem lookup_articles (job : NzbJob) (name : String) :
    (checkpointForJob job).articles.lookup name =
      (holder job.files name).map fun file => file.articles.map checkpointArticle := by
  simp only [checkpointForJob, lookup_collect, lookupLast_map]

theorem lookup_files (job : NzbJob) (name : String) :
    (checkpointForJob job).files.lookup name =
      (holder job.files name).map fun file =>
        (file.articles.filter Article.downloaded).map Article.segmentNumber := by
  simp only [checkpointForJob, lookup_collect, lookupLast_map]

theorem exists_holder (mem : file ∈ files) :
    ∃ saved ∈ files, holder files file.filename = some saved := by
  rcases found : holder files file.filename with _ | saved
  · have absent := List.find?_eq_none.mp found file (List.mem_reverse.mpr mem)
    simp at absent
  · exact ⟨saved, List.mem_reverse.mp (List.mem_of_find?_eq_some found), rfl⟩

theorem outcome_restoreArticle (numbered : Numbered job.files) (mem : file ∈ job.files)
    (articleMem : article ∈ file.articles) (byId : Option (List ℕ)) :
    (restoreArticle ((checkpointForJob job).articles.lookup file.filename)
      (((checkpointForJob job).files.lookup file.filename).or byId) article.blank).outcome =
        readBack (restoredFrom job.files) .untouched (outcomeAt job.files)
          (file.id, article.segmentNumber) := by
  rcases exists_holder mem with ⟨saved, savedMem, found⟩
  rw [readBack, restoredFrom_of_mem numbered mem articleMem, lookup_articles, lookup_files, found]
  simp only [Option.map_some, Option.some_or, Option.bind_some]
  rcases isSaved : saved.savedFor article with _ | item
  · have absent := List.find?_eq_none.mp isSaved
    have noItem : (saved.articles.map checkpointArticle).find? (fun item =>
        item.messageId = article.blank.messageId ||
          item.segmentNumber = article.blank.segmentNumber) = none := by
      rw [List.find?_map, Option.map_eq_none_iff]
      exact isSaved
    have unlisted : ((saved.articles.filter Article.downloaded).map
        Article.segmentNumber).contains article.blank.segmentNumber = false := by
      rw [List.contains_eq_mem, decide_eq_false_iff_not]
      intro listed
      rcases List.mem_map.mp listed with ⟨item, itemMem, sameNumber⟩
      have isSame : item.segmentNumber = article.segmentNumber := sameNumber
      have differs := absent item (List.mem_of_mem_filter itemMem)
      simp [isSame] at differs
    simp only [restoreArticle, Option.bind_some, noItem, Option.any_some, unlisted]
    rfl
  · have itemMem := List.mem_of_find?_eq_some isSaved
    have isItem : (saved.articles.map checkpointArticle).find? (fun item =>
        item.messageId = article.blank.messageId ||
          item.segmentNumber = article.blank.segmentNumber) = some (checkpointArticle item) := by
      rw [List.find?_map]
      exact congrArg (Option.map checkpointArticle) isSaved
    simp only [restoreArticle, Option.bind_some, isItem, Option.map_some, Option.getD_some]
    rw [outcomeAt_of_mem numbered savedMem itemMem]
    rfl

theorem Article.ext_of_blank {first second : Article} (sameListing : first.blank = second.blank)
    (sameOutcome : first.outcome = second.outcome) : first = second := by
  rcases first with ⟨⟩
  rcases second with ⟨⟩
  simp_all [Article.blank, Article.outcome]

theorem blank_restoreArticle (outcomes : Option (List ArticleCheckpoint))
    (segments : Option (List ℕ)) (article : Article) :
    (restoreArticle outcomes segments article).blank = article.blank := by
  simp only [restoreArticle]
  split
  · rfl
  · split <;> rfl

/-- A file's bytes and its assembled flag are what its articles account for. -/
structure NzbFile.Accounted (file : NzbFile) : Prop where
  bytes : file.bytesDownloaded = recordedBytes file.articles
  assembled : file.assembled = file.articles.all Article.downloaded

def ReadsFile (job : NzbJob) (file : NzbFile) : Prop :=
  ∀ article ∈ file.articles,
    readBack (restoredFrom job.files) .untouched (outcomeAt job.files)
      (file.id, article.segmentNumber) = article.outcome

theorem progress_restoreFile_iff (numbered : Numbered job.files) (mem : file ∈ job.files) :
    (restoreFile (checkpointForJob job) file.blank).progress = file.progress ↔
      ReadsFile job file ∧ file.Accounted := by
  have restored : ∀ article ∈ file.articles,
      (restoreArticle ((checkpointForJob job).articles.lookup file.filename)
        (((checkpointForJob job).files.lookup file.filename).or
          ((checkpointForJob job).files.lookup file.id)) article.blank).outcome =
        readBack (restoredFrom job.files) .untouched (outcomeAt job.files)
          (file.id, article.segmentNumber) :=
    fun article articleMem => outcome_restoreArticle numbered mem articleMem _
  have sameArticles : ReadsFile job file →
      (restoreFile (checkpointForJob job) file.blank).articles = file.articles := by
    intro reads
    simp only [restoreFile, NzbFile.blank, List.map_map]
    conv_rhs => rw [← List.map_id file.articles]
    apply List.map_congr_left
    intro article articleMem
    apply Article.ext_of_blank
    · exact blank_restoreArticle _ _ article.blank
    · exact (restored article articleMem).trans (reads article articleMem)
  constructor
  · intro same
    simp only [NzbFile.progress, FileProgress.mk.injEq] at same
    rcases same with ⟨outcomes, bytes, assembled⟩
    have reads : ReadsFile job file := by
      intro article articleMem
      rw [← restored article articleMem]
      simp only [restoreFile, NzbFile.blank, List.map_map] at outcomes
      exact List.map_inj_left.mp outcomes article articleMem
    refine ⟨reads, ?_, ?_⟩
    · rw [← bytes, ← sameArticles reads]
      rfl
    · rw [← assembled, ← sameArticles reads]
      rfl
  · rintro ⟨reads, accounted⟩
    have same := sameArticles reads
    simp only [NzbFile.progress, FileProgress.mk.injEq]
    refine ⟨by rw [same], ?_, ?_⟩
    · rw [accounted.bytes, ← same]
      rfl
    · rw [accounted.assembled, ← same]
      rfl

theorem progress_restoreFile_congr {checkpoint : JobCheckpoint} {first second : NzbFile}
    (sameName : first.filename = second.filename) (sameArticles : first.articles = second.articles)
    (known : checkpoint.files.lookup first.filename ≠ none) :
    (restoreFile checkpoint first).progress = (restoreFile checkpoint second).progress := by
  rcases found : checkpoint.files.lookup first.filename with _ | segments
  · exact absurd found known
  · have foundToo : checkpoint.files.lookup second.filename = some segments := by
      rw [← sameName]
      exact found
    have outcomes : checkpoint.articles.lookup first.filename =
        checkpoint.articles.lookup second.filename := by rw [sameName]
    simp only [restoreFile, NzbFile.progress, found, foundToo, Option.some_or, outcomes,
      sameArticles]

end Restored

/-! ## The whole job -/

section Fresh

def Lists (original job : NzbJob) : Prop :=
  job.files.map NzbFile.blank = original.files.map NzbFile.blank

def NzbFile.nameAndArticles (file : NzbFile) : String × List Article :=
  (file.filename, file.articles)

def listedFile (listed : String × List Article) : NzbFile where
  id := ""
  filename := listed.1
  bytesDownloaded := 0
  isPar2 := false
  par2SetName := none
  par2Vol := none
  par2Blocks := none
  assembled := false
  articles := listed.2

variable {parsed : Core.NzbJob} {ids idsAgain : List FileId}

theorem map_freshFile {β : Type} (newIds : NewIds parsed ids) {image : NzbFile → β}
    {listed : Core.NzbFile → β} (same : ∀ id file, image (freshFile id file) = listed file) :
    (freshJob ids parsed).files.map image = parsed.files.map listed := by
  have seconds : (List.zip ids parsed.files).map Prod.snd = parsed.files :=
    List.map_snd_zip (Nat.le_of_eq newIds.length_eq.symm)
  simp only [freshJob, List.map_zipWith, same]
  conv_rhs => rw [← seconds]
  rw [List.map_map, ← List.map_uncurry_zip_eq_zipWith]
  rfl

theorem ids_freshJob (newIds : NewIds parsed ids) :
    (freshJob ids parsed).files.map NzbFile.id = ids := by
  have firsts : (List.zip ids parsed.files).map Prod.fst = ids :=
    List.map_fst_zip (Nat.le_of_eq newIds.length_eq)
  simp only [freshJob, List.map_zipWith]
  conv_rhs => rw [← firsts]
  rw [← List.map_uncurry_zip_eq_zipWith]
  rfl

theorem exists_freshFile {file : NzbFile} (mem : file ∈ (freshJob ids parsed).files) :
    ∃ id, ∃ core ∈ parsed.files, file = freshFile id core := by
  rcases List.mem_iff_getElem.mp mem with ⟨i, inside, rfl⟩
  simp only [freshJob, List.length_zipWith] at inside
  refine ⟨ids[i], parsed.files[i], List.getElem_mem _, ?_⟩
  simp [freshJob]

theorem exists_mem_freshJob (newIds : NewIds parsed ids) {file : Core.NzbFile}
    (mem : file ∈ parsed.files) : ∃ id, freshFile id file ∈ (freshJob ids parsed).files := by
  rcases List.mem_iff_getElem.mp mem with ⟨i, inside, rfl⟩
  have hasId : i < ids.length := by
    rw [newIds.length_eq]
    exact inside
  have both : i < (freshJob ids parsed).files.length := by
    simp only [freshJob, List.length_zipWith]
    omega
  have found : (freshJob ids parsed).files[i] = freshFile ids[i] parsed.files[i] := by
    simp [freshJob]
  exact ⟨ids[i], found ▸ List.getElem_mem both⟩

theorem numbered_freshJob (newIds : NewIds parsed ids)
    (numbered : ∀ file ∈ parsed.files, (file.articles.map Core.Segment.number).Nodup) :
    Numbered (freshJob ids parsed).files where
  ids := by
    rw [ids_freshJob newIds]
    exact newIds.nodup
  segments file mem := by
    rcases exists_freshFile mem with ⟨id, core, coreMem, rfl⟩
    simp only [freshFile, List.map_map]
    exact numbered core coreMem

theorem outcomeAt_freshJob (place : Place) :
    outcomeAt (freshJob ids parsed).files place = .untouched := by
  rcases found : fileAt (freshJob ids parsed).files place.1 with _ | file
  · simp [outcomeAt, found]
  · rcases isArticle : file.articleAt place.2 with _ | article
    · simp [outcomeAt, found, isArticle]
    · rcases exists_freshFile (List.mem_of_find?_eq_some found) with ⟨id, core, -, rfl⟩
      rcases List.mem_map.mp (List.mem_of_find?_eq_some isArticle) with ⟨segment, -, rfl⟩
      simp only [outcomeAt, found, isArticle, Option.bind_some, Option.map_some, Option.getD_some]
      rfl

variable {job : NzbJob}

theorem Lists.numbered {original : NzbJob} (lists : Lists original job)
    (numbered : Numbered original.files) : Numbered job.files := by
  have blank := numbered_blank numbered
  rw [← lists] at blank
  constructor
  · have ids := blank.ids
    rw [List.map_map] at ids
    exact ids
  · intro file mem
    have segments := blank.segments file.blank (List.mem_map_of_mem mem)
    simp only [NzbFile.blank, List.map_map] at segments
    exact segments

theorem Lists.nameAndArticles (lists : Lists (freshJob ids parsed) job) (newIds : NewIds parsed ids)
    (newIdsAgain : NewIds parsed idsAgain) :
    (freshJob idsAgain parsed).files.map NzbFile.nameAndArticles =
      job.files.map fun file => file.blank.nameAndArticles := by
  have listed : (freshJob ids parsed).files.map (fun file => file.blank.nameAndArticles) =
      parsed.files.map fun file => (file.filename, file.articles.map freshArticle) := by
    apply map_freshFile newIds
    intro id file
    simp only [NzbFile.nameAndArticles, NzbFile.blank, freshFile, List.map_map]
    rfl
  have same : job.files.map (fun file => file.blank.nameAndArticles) =
      (freshJob ids parsed).files.map fun file => file.blank.nameAndArticles := by
    have mapped := congrArg (List.map NzbFile.nameAndArticles) lists
    rw [List.map_map, List.map_map] at mapped
    exact mapped
  rw [same, listed]
  exact map_freshFile newIdsAgain fun id file => rfl

/-- A fresh parse gets the job's progress from its checkpoint exactly if all articles read back, and
each file has the bytes and the flag that its articles account for. -/
theorem progress_applyCheckpoint_iff (numbered : Numbered job.files)
    (lists : Lists (freshJob ids parsed) job) (newIds : NewIds parsed ids)
    (newIdsAgain : NewIds parsed idsAgain) :
    (applyCheckpoint (freshJob idsAgain parsed) (checkpointForJob job)).progress.files =
        job.progress.files ↔
      ∀ file ∈ job.files, ReadsFile job file ∧ file.Accounted := by
  let restoredOf (listed : String × List Article) : FileProgress :=
    (restoreFile (checkpointForJob job) (listedFile listed)).progress
  have known : ∀ file ∈ job.files,
      (checkpointForJob job).files.lookup file.blank.filename ≠ none := by
    intro file mem
    rcases exists_holder mem with ⟨saved, -, found⟩
    have sameName : file.blank.filename = file.filename := rfl
    rw [lookup_files, sameName, found]
    simp
  have ofJob : ∀ file ∈ job.files,
      restoredOf file.blank.nameAndArticles =
        (restoreFile (checkpointForJob job) file.blank).progress := by
    intro file mem
    have same : (restoreFile (checkpointForJob job) file.blank).progress =
        (restoreFile (checkpointForJob job) (listedFile file.blank.nameAndArticles)).progress :=
      progress_restoreFile_congr rfl rfl (known file mem)
    exact same.symm
  have ofFresh : ∀ file ∈ (freshJob idsAgain parsed).files,
      (restoreFile (checkpointForJob job) file).progress = restoredOf file.nameAndArticles := by
    intro file mem
    have same : (checkpointForJob job).files.lookup file.filename ≠ none →
        (restoreFile (checkpointForJob job) file).progress =
          (restoreFile (checkpointForJob job) (listedFile file.nameAndArticles)).progress :=
      progress_restoreFile_congr rfl rfl
    apply same
    have listed : file.nameAndArticles ∈ job.files.map fun file => file.blank.nameAndArticles := by
      rw [← lists.nameAndArticles newIds newIdsAgain]
      exact List.mem_map_of_mem mem
    rcases List.mem_map.mp listed with ⟨other, otherMem, same⟩
    have sameName : other.blank.filename = file.filename := congrArg Prod.fst same
    rw [← sameName]
    exact known other otherMem
  have restored :
      (applyCheckpoint (freshJob idsAgain parsed) (checkpointForJob job)).progress.files =
      job.files.map fun file => (restoreFile (checkpointForJob job) file.blank).progress := by
    calc (applyCheckpoint (freshJob idsAgain parsed) (checkpointForJob job)).progress.files
        = (freshJob idsAgain parsed).files.map
            (fun file => (restoreFile (checkpointForJob job) file).progress) := by
          simp only [applyCheckpoint, NzbJob.progress, List.map_map]
          rfl
      _ = ((freshJob idsAgain parsed).files.map NzbFile.nameAndArticles).map restoredOf := by
          rw [List.map_map]
          exact List.map_congr_left ofFresh
      _ = job.files.map fun file => (restoreFile (checkpointForJob job) file.blank).progress := by
          rw [lists.nameAndArticles newIds newIdsAgain, List.map_map]
          exact List.map_congr_left ofJob
  rw [restored]
  simp only [NzbJob.progress, List.map_inj_left]
  exact forall₂_congr fun file mem => progress_restoreFile_iff numbered mem

end Fresh

/-! ## What an update changes -/

namespace ProgressUpdate

def fileId : ProgressUpdate → FileId
  | articleComplete fileId .. => fileId
  | articleFailed fileId .. => fileId

def segmentNumber : ProgressUpdate → ℕ
  | articleComplete _ segmentNumber .. => segmentNumber
  | articleFailed _ segmentNumber _ => segmentNumber

def place (update : ProgressUpdate) : Place := (update.fileId, update.segmentNumber)

def changeArticle : ProgressUpdate → Article → Article
  | articleComplete _ _ decodedBytes .., article => article.markDownloaded decodedBytes
  | articleFailed _ _ failure, article => article.recordFailure failure.serverId

def changeFile : ProgressUpdate → NzbFile → NzbFile
  | articleComplete _ segmentNumber decodedBytes fileComplete _ yencFilename, file =>
      (file.reveal yencFilename).recordDecoded segmentNumber decodedBytes fileComplete
  | articleFailed _ segmentNumber failure, file =>
      file.recordFailure segmentNumber failure.serverId

end ProgressUpdate

theorem reveal_frame (file : NzbFile) (yencFilename : Option String) :
    (file.reveal yencFilename).id = file.id ∧
      (file.reveal yencFilename).filename = file.filename ∧
      (file.reveal yencFilename).articles = file.articles ∧
      (file.reveal yencFilename).bytesDownloaded = file.bytesDownloaded ∧
      (file.reveal yencFilename).assembled = file.assembled := by
  simp only [NzbFile.reveal]
  split
  · exact ⟨rfl, rfl, rfl, rfl, rfl⟩
  · split <;> exact ⟨rfl, rfl, rfl, rfl, rfl⟩

section Update

variable {job : NzbJob} {file : NzbFile} {article : Article} (update : ProgressUpdate)

theorem blank_changeArticle (article : Article) :
    (update.changeArticle article).blank = article.blank := by
  cases update <;> rfl

theorem outcome_changeArticle_ne (article : Article) :
    (update.changeArticle article).outcome ≠ .untouched := by
  cases update with
  | articleComplete =>
      simp [ProgressUpdate.changeArticle, Article.markDownloaded, Article.outcome,
        ArticleOutcome.untouched]
  | articleFailed =>
      simp only [ProgressUpdate.changeArticle, Article.recordFailure, Article.outcome,
        ArticleOutcome.untouched, ne_eq, ArticleOutcome.mk.injEq]
      omega

theorem id_changeFile (file : NzbFile) : (update.changeFile file).id = file.id := by
  cases update with
  | articleComplete _ _ _ _ _ yencFilename => exact (reveal_frame file yencFilename).1
  | articleFailed => rfl

theorem filename_changeFile (file : NzbFile) :
    (update.changeFile file).filename = file.filename := by
  cases update with
  | articleComplete _ _ _ _ _ yencFilename => exact (reveal_frame file yencFilename).2.1
  | articleFailed => rfl

section

variable (segments : (file.articles.map Article.segmentNumber).Nodup)

include segments

theorem articles_changeFile :
    (update.changeFile file).articles = file.articles.map fun article =>
      if article.segmentNumber = update.segmentNumber then update.changeArticle article
      else article := by
  cases update with
  | articleComplete _ _ _ _ _ yencFilename =>
      simp only [ProgressUpdate.changeFile, NzbFile.recordDecoded,
        (reveal_frame file yencFilename).2.2.1]
      rfl
  | articleFailed _ segmentNumber failure => exact modifyFirst_eq_map segments segmentNumber _

theorem blank_changeFile :
    (update.changeFile file).blank = file.blank := by
  have articles : (update.changeFile file).articles.map Article.blank =
      file.articles.map Article.blank := by
    rw [articles_changeFile update segments, List.map_map]
    apply List.map_congr_left
    intro article _
    simp only [Function.comp]
    split
    · exact blank_changeArticle update article
    · rfl
  simp only [NzbFile.blank, id_changeFile, filename_changeFile, articles]

theorem articleAt_changeFile (segmentNumber : ℕ) :
    (update.changeFile file).articleAt segmentNumber =
      (file.articleAt segmentNumber).map fun article =>
        if segmentNumber = update.segmentNumber then update.changeArticle article else article := by
  have kept : (fun article : Article => decide (article.segmentNumber = segmentNumber)) ∘
      (fun article => if article.segmentNumber = update.segmentNumber
        then update.changeArticle article else article) =
      fun article => decide (article.segmentNumber = segmentNumber) := by
    funext article
    have same : (update.changeArticle article).blank.segmentNumber =
        article.blank.segmentNumber := by rw [blank_changeArticle]
    simp only [Article.blank] at same
    simp only [Function.comp]
    split
    · rw [same]
    · rfl
  rw [NzbFile.articleAt, articles_changeFile update segments, List.find?_map, kept]
  rcases found : file.articles.find? (fun article => article.segmentNumber = segmentNumber) with
    _ | article
  · simp [NzbFile.articleAt, found]
  · have isNumber : article.segmentNumber = segmentNumber := by
      simpa using List.find?_some found
    simp [NzbFile.articleAt, found, isNumber]

end

variable (servers : List (ServerId × String))

section

variable (numbered : Numbered job.files)

include numbered

theorem files_handleProgress :
    (handleProgress servers job update).files = job.files.map fun file =>
      if file.id = update.fileId then update.changeFile file else file := by
  cases update with
  | articleComplete fileId => exact modifyFirst_eq_map numbered.ids fileId _
  | articleFailed fileId => exact modifyFirst_eq_map numbered.ids fileId _

theorem lists_handleProgress {original : NzbJob}
    (lists : Lists original job) : Lists original (handleProgress servers job update) := by
  rw [Lists, ← lists, files_handleProgress update servers numbered, List.map_map]
  apply List.map_congr_left
  intro file mem
  simp only [Function.comp]
  split
  · exact blank_changeFile update (numbered.segments file mem)
  · rfl

theorem fileAt_handleProgress (fileId : FileId) :
    fileAt (handleProgress servers job update).files fileId =
      (fileAt job.files fileId).map fun file =>
        if fileId = update.fileId then update.changeFile file else file := by
  have kept : (fun file : NzbFile => decide (file.id = fileId)) ∘
      (fun file => if file.id = update.fileId then update.changeFile file else file) =
      fun file => decide (file.id = fileId) := by
    funext file
    simp only [Function.comp]
    split
    · rw [id_changeFile]
    · rfl
  rw [fileAt, files_handleProgress update servers numbered, List.find?_map, kept]
  rcases found : job.files.find? (fun file => file.id = fileId) with _ | file
  · simp [fileAt, found]
  · have isId : file.id = fileId := by simpa using List.find?_some found
    simp [fileAt, found, isId]

theorem outcomeAt_handleProgress_of_ne {place : Place} (elsewhere : place ≠ update.place) :
    outcomeAt (handleProgress servers job update).files place = outcomeAt job.files place := by
  simp only [outcomeAt, fileAt_handleProgress update servers numbered]
  rcases found : fileAt job.files place.1 with _ | file
  · rfl
  · have mem : file ∈ job.files := List.mem_of_find?_eq_some found
    simp only [Option.map_some, Option.bind_some]
    by_cases sameFile : place.1 = update.fileId
    · have otherNumber : place.2 ≠ update.segmentNumber :=
        fun sameNumber => elsewhere (Prod.ext sameFile sameNumber)
      rw [if_pos sameFile, articleAt_changeFile update (numbered.segments file mem)]
      simp [otherNumber]
    · rw [if_neg sameFile]

theorem outcomeAt_handleProgress (mem : file ∈ job.files)
    (isFile : file.id = update.fileId) (articleMem : article ∈ file.articles)
    (isArticle : article.segmentNumber = update.segmentNumber) :
    outcomeAt (handleProgress servers job update).files =
      Function.update (outcomeAt job.files) update.place
        (update.changeArticle article).outcome := by
  have found := fileAt_of_mem numbered mem
  have foundArticle := NzbFile.articleAt_of_mem (numbered.segments file mem) articleMem
  rw [isFile] at found
  rw [isArticle] at foundArticle
  funext place
  by_cases own : place = update.place
  · subst own
    rw [Function.update_self]
    simp only [outcomeAt, fileAt_handleProgress update servers numbered, ProgressUpdate.place,
      found, Option.map_some, Option.bind_some, if_true,
      articleAt_changeFile update (numbered.segments file mem), foundArticle, Option.getD_some]
  · rw [Function.update_of_ne own]
    exact outcomeAt_handleProgress_of_ne update servers numbered own

theorem outcomeAt_handleProgress_of_absent (absent : update.place ∉ places job.files) :
    outcomeAt (handleProgress servers job update).files = outcomeAt job.files := by
  funext place
  by_cases own : place = update.place
  · subst own
    simp only [outcomeAt, fileAt_handleProgress update servers numbered, ProgressUpdate.place]
    rcases found : fileAt job.files update.fileId with _ | file
    · rfl
    · have mem : file ∈ job.files := List.mem_of_find?_eq_some found
      have isFile : file.id = update.fileId := by simpa using List.find?_some found
      have noArticle : file.articleAt update.segmentNumber = none := by
        rcases foundArticle : file.articleAt update.segmentNumber with _ | article
        · rfl
        · have articleMem : article ∈ file.articles := List.mem_of_find?_eq_some foundArticle
          have isArticle : article.segmentNumber = update.segmentNumber := by
            simpa using List.find?_some foundArticle
          exact absurd ⟨file, mem, isFile, article, articleMem, isArticle⟩ absent
      simp [articleAt_changeFile update (numbered.segments file mem), noArticle]
  · exact outcomeAt_handleProgress_of_ne update servers numbered own

end

end Update

end Rustnzb.Web.Resume
