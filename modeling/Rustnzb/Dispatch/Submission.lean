import Rustnzb.Dispatch.HeldVolumes

/-!
# Submitting a job

The part of a job that the engine reads, and `build_job_submission`: which articles become work
items, and which recovery volumes may be deferred.
-/

namespace Rustnzb.Dispatch

structure Article where
  messageId : String
  segmentNumber : ℕ
  downloaded : Bool
  dataBegin : Option ℕ
  dataSize : Option ℕ
  triedServers : List ServerId

structure NzbFile where
  id : FileId
  filename : String
  par2Vol : Option ℕ
  par2Blocks : Option ℕ
  articles : List Article

structure NzbJob where
  id : JobId
  files : List NzbFile

def isPar2Index (filename : String) : Bool :=
  par2SortKey filename = 0

def isPreviouslyFailed (enabledServerIds : List ServerId) (article : Article) : Bool :=
  !article.downloaded && !enabledServerIds.isEmpty &&
    enabledServerIds.all fun server => article.triedServers.contains server

def workItemOf (job : NzbJob) (file : NzbFile) (article : Article) : WorkItem :=
  { jobId := job.id
    fileId := file.id
    filename := file.filename
    messageId := article.messageId
    segmentNumber := article.segmentNumber
    triedServers := article.triedServers
    providerOutcomes := ∅
    triesOnCurrent := 0
    outageTries := 0
    confirmRounds := 0
    asked := [] }

def buildWorkItems (job : NzbJob) (enabledServerIds : List ServerId) : List WorkItem :=
  job.files.flatMap fun file =>
    (file.articles.filter fun article =>
      !article.downloaded && !isPreviouslyFailed enabledServerIds article).map
        (workItemOf job file)

def previouslyFailed (job : NzbJob) (enabledServerIds : List ServerId) : ℕ :=
  ((job.files.flatMap NzbFile.articles).filter (isPreviouslyFailed enabledServerIds)).length

/-- The volumes of `files`, or `none` when one has no exponent or block count. -/
def volumesOf : List NzbFile → VolumeMap → Option VolumeMap
  | [], volumes => some volumes
  | file :: rest, volumes =>
      if par2SortKey file.filename ≠ 1 then volumesOf rest volumes
      else
        match file.par2Vol, file.par2Blocks with
        | some vol, some blocks => volumesOf rest (volumes.insert file.id (vol, blocks))
        | _, _ => none

/-- The recovery volumes that may be deferred; none without a PAR2 index. -/
def deferrableVolumes (job : NzbJob) : VolumeMap :=
  if job.files.any fun file => isPar2Index file.filename then
    (volumesOf job.files ∅).getD ∅
  else ∅

theorem mem_buildWorkItems {job : NzbJob} {enabledServerIds : List ServerId} {item : WorkItem} :
    item ∈ buildWorkItems job enabledServerIds ↔
      ∃ file ∈ job.files, ∃ article ∈ file.articles, article.downloaded = false ∧
        isPreviouslyFailed enabledServerIds article = false ∧
          item = workItemOf job file article := by
  simp only [buildWorkItems, List.mem_flatMap, List.mem_map, List.mem_filter, Bool.and_eq_true,
    Bool.not_eq_true']
  constructor
  · rintro ⟨file, fileMem, article, ⟨articleMem, notDone, notFailed⟩, rfl⟩
    exact ⟨file, fileMem, article, articleMem, notDone, notFailed, rfl⟩
  · rintro ⟨file, fileMem, article, articleMem, notDone, notFailed, rfl⟩
    exact ⟨file, fileMem, article, ⟨articleMem, notDone, notFailed⟩, rfl⟩

theorem exists_untried_of_not_previouslyFailed {enabledServerIds : List ServerId}
    {article : Article} (notDone : article.downloaded = false)
    (notFailed : isPreviouslyFailed enabledServerIds article = false)
    (someEnabled : enabledServerIds ≠ []) :
    ∃ server ∈ enabledServerIds, server ∉ article.triedServers := by
  by_contra noneUntried
  push Not at noneUntried
  have all : isPreviouslyFailed enabledServerIds article = true := by
    simp only [isPreviouslyFailed, notDone, Bool.not_false, Bool.true_and, Bool.and_eq_true,
      Bool.not_eq_true', List.isEmpty_eq_false_iff, List.all_eq_true]
    exact ⟨someEnabled, fun server serverMem => by simpa using noneUntried server serverMem⟩
  simp [all] at notFailed

end Rustnzb.Dispatch
