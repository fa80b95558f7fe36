import Rustnzb.Postproc.Extract
import Rustnzb.Web.DirectUnpack

/-!
# Which archives are deleted

Cleanup deletes every archive file of the job directory by its name or signature, and every archive
that the extraction stage took. That stage takes first volumes, leaves RAR sets to direct unpack
when direct unpack is content with what it ran, and knows a nested archive by its path alone. What
is deleted has been extracted exactly when each archive file of the job directory belongs to an
archive whose first volume is found, or that direct unpack took, as long as no member replaces a
nested archive and no cleanup rule matches one.
-/

namespace Rustnzb.Web

open Lib (Run)
open Postproc

def skipExtract (direct : Option DirectUnpacker) : Bool :=
  direct.any DirectUnpacker.allOk

def unpackConfig (ppLevel : ℕ) (direct : Option DirectUnpacker) (deleteArchives pipelineOk : Bool)
    (maxNestedArchiveDepth : ℕ) : UnpackConfig where
  pipelineOk := pipelineOk
  unpack := 2 ≤ ppLevel
  skipExtract := skipExtract direct
  maxNestedArchiveDepth := maxNestedArchiveDepth
  cleanupAfterExtract := true
  deleteArchives := deleteArchives

def Ended (direct : Option DirectUnpacker) : Prop :=
  ∀ unpacker ∈ direct, ∃ events, Run DirectUnpacker.Step .new events unpacker ∧
    unpacker.returned = true ∧ unpacker.killed = false

/-- Direct unpack has extracted the archive from a file that is now a volume of it. -/
def UnpackedDirectly (direct : Option DirectUnpacker) (job : Tree) (id : ArchiveId) : Prop :=
  ∃ unpacker ∈ direct, ∃ first ∈ job.files, unpacker.Unpacked first.posted ∧
    archiveOf first = some id

/-- The archive with `file` among its volumes was extracted: `file` was there when its first volume
was, or direct unpack extracted the archive. -/
def Extracted (direct : Option DirectUnpacker) (job : Tree) (log : List Extraction) (root : Root)
    (file : FileAt) (id : ArchiveId) : Prop :=
  (∃ extraction ∈ log, extraction.ok = true ∧ extraction.root = root ∧
    archiveOf extraction.file = some id ∧ file ∈ (extraction.before.get root).files) ∨
  root = .job ∧ UnpackedDirectly direct job id

def RemovesExtracted (direct : Option DirectUnpacker) (outcome : Outcome) : Prop :=
  ∀ root file, (root, file) ∈ outcome.removed → ∀ id, archiveOf file = some id →
    Extracted direct outcome.trees.job outcome.log root file id

/-- Every archive file of the job directory belongs to an archive that the extraction stage finds,
or that direct unpack has extracted. -/
def Reached (lower : Lowercase) (direct : Option DirectUnpacker) (job : Tree) : Prop :=
  ∀ file ∈ lower.findCleanupFiles job, ∀ id, archiveOf file = some id →
    (∃ archive ∈ lower.findArchives job, (skipExtract direct = true → archive.1 ≠ .rar) ∧
      archiveOf archive.2 = some id) ∨
    UnpackedDirectly direct job id

/-- No member of an archive replaces a nested archive, be it its own, by another file once that
archive is being extracted. -/
def Unreplaced (log : List Extraction) : Prop :=
  ∀ before extraction after, log = before ++ extraction :: after → extraction.root = .output →
    ∀ later ∈ extraction :: after, ∀ member ∈ later.members,
      member.path = extraction.file.path → member = extraction.file

def Unruled (ruled : Root → FileAt → Bool) (trees : Trees) : Prop :=
  ∀ root, ∀ file ∈ (trees.get root).files, ruled root file = true → archiveOf file = none

section Safety

variable {lower : Lowercase} {direct : Option DirectUnpacker} {trees : Trees}

def Taken (lower : Lowercase) (direct : Option DirectUnpacker) (trees : Trees)
    (archive : Archive) : Prop :=
  archive ∈ archivesIn lower .job trees ∧ (skipExtract direct = true → archive.kind ≠ .rar)

theorem exists_of_taken {archive : Archive} (taken : Taken lower direct trees archive) :
    ∃ found ∈ lower.findArchives trees.job, (skipExtract direct = true → found.1 ≠ .rar) ∧
      found.2.path = archive.path := by
  rcases taken with ⟨mem, notRar⟩
  rcases List.mem_map.mp mem with ⟨found, foundMem, rfl⟩
  exact ⟨found, foundMem, notRar, rfl⟩

theorem taken_iff {config : UnpackConfig} (skips : config.skipExtract = skipExtract direct)
    {archive : Archive} : Taken lower direct trees archive ↔ archive.root = .job ∧
      archive ∈ archivesIn lower config.sourceRoot trees ++ config.jobDirArchives lower trees := by
  simp only [Taken, UnpackConfig.sourceRoot, UnpackConfig.jobDirArchives, skips]
  rcases skipExtract direct with _ | _
  · simp only [Bool.false_eq_true, if_false, List.append_nil, false_implies, and_true]
    exact ⟨fun mem => ⟨root_of_mem_archivesIn mem, mem⟩, fun both => both.2⟩
  · simp only [if_true, true_implies, List.mem_append, List.mem_filter, decide_eq_true_eq]
    constructor
    · exact fun taken => ⟨root_of_mem_archivesIn taken.1, .inr taken⟩
    · rintro ⟨fromJob, inOutput | taken⟩
      · rw [root_of_mem_archivesIn inOutput] at fromJob
        simp at fromJob
      · exact taken

theorem eq_of_path {tree : Tree} {file other : FileAt} (mem : file ∈ tree.files)
    (otherMem : other ∈ tree.files) (same : file.path = other.path) : file = other :=
  List.inj_on_of_nodup_map tree.nodup mem otherMem same

variable {extract : Extractor} {ruled : Root → FileAt → Bool} {depth : ℕ}

theorem extraction_spec {config : UnpackConfig} (skips : config.skipExtract = skipExtract direct)
    {status : StageStatus} {stage : ExtractStage}
    (ran : config.extraction lower extract trees = (status, stage)) :
    stage.Tracks trees (Taken lower direct trees) ∧
      (status = .success → stage.allOk = true ∧ stage.Done stage.extracted) ∧
      (status = .skipped → stage.extracted = []) ∧
      ∀ archive, Taken lower direct trees archive → archive.key ∈ stage.extracted := by
  have taken : ∀ {archive : Archive}, Taken lower direct trees archive ↔ archive.root = .job ∧
      archive ∈ archivesIn lower config.sourceRoot trees ++ config.jobDirArchives lower trees :=
    taken_iff skips
  have scanned : config.sourceRoot = .job →
      ∀ archive ∈ archivesIn lower .job trees, Taken lower direct trees archive := by
    intro scansJob archive mem
    refine taken.mpr ⟨root_of_mem_archivesIn mem, List.mem_append_left _ ?_⟩
    rw [scansJob]
    exact mem
  have extra : ∀ archive ∈ config.jobDirArchives lower trees, Taken lower direct trees archive := by
    intro archive mem
    refine taken.mpr ⟨?_, List.mem_append_right _ mem⟩
    simp only [UnpackConfig.jobDirArchives] at mem
    split at mem
    · exact root_of_mem_archivesIn (List.mem_filter.mp mem).1
    · simp at mem
  have spec := runExtractStage_spec extract config.maxNestedArchiveDepth scanned extra
  simp only [UnpackConfig.extraction] at ran
  rw [ran] at spec
  rcases spec with ⟨tracks, done, skipped, covers⟩
  exact ⟨tracks, done, skipped, fun archive isTaken =>
    covers archive (taken.mp isTaken).2 (taken.mp isTaken).1⟩

variable {ppLevel : ℕ} {pipelineOk : Bool} {outcome : Outcome}

theorem finishStages_spec (unpacks : 2 ≤ ppLevel)
    (ran : finishStages lower extract ruled (unpackConfig ppLevel direct true pipelineOk depth)
      trees = outcome) (success : outcome.success = true) :
    ∃ stage : ExtractStage, ∃ extracted, stage.Tracks trees (Taken lower direct trees) ∧
      outcome.trees = stage.trees ∧ outcome.log = stage.log ∧
      outcome.removed = runCleanupStage lower ruled extracted true stage.trees ∧
      (∀ key ∈ extracted, ∃ extraction ∈ stage.log, extraction.ok = true ∧
        (extraction.root, extraction.file.path) = key) ∧
      ∀ archive, Taken lower direct trees archive → archive.key ∈ extracted := by
  rcases isResult : (unpackConfig ppLevel direct true pipelineOk depth).extraction lower extract
    trees with ⟨status, stage⟩
  rcases extraction_spec rfl isResult with ⟨tracks, done, skipped, covers⟩
  simp only [finishStages, isResult] at ran
  simp only [unpackConfig, unpacks, decide_true, Bool.true_and, if_true] at ran
  split at ran
  · cases status with
    | failed =>
        subst ran
        simp at success
    | success =>
        subst ran
        refine ⟨stage, stage.extracted, tracks, rfl, rfl, rfl, fun key mem => ?_, covers⟩
        rcases done rfl with ⟨allOk, all⟩
        rcases all key mem with ⟨extraction, extractionMem, isKey⟩
        exact ⟨extraction, extractionMem, tracks.ok allOk extraction extractionMem, isKey⟩
    | skipped =>
        subst ran
        refine ⟨stage, [], tracks, rfl, rfl, rfl, by simp, fun archive taken => ?_⟩
        rw [← skipped rfl]
        exact covers archive taken
  next notOk =>
    subst ran
    exact absurd success notOk

section Stage

variable {stage : ExtractStage} {extracted : List (Root × List Name)}

section

variable (tracks : stage.Tracks trees (Taken lower direct trees))

include tracks

theorem mem_job_of_extraction {extraction : Extraction} (mem : extraction ∈ stage.log)
    (fromJob : extraction.root = .job) : extraction.file ∈ trees.job.files := by
  have before := tracks.before extraction mem
  rw [fromJob, Trees.get, before.1] at before
  exact before.2

theorem reached_of_removes
    (removes : ∀ file ∈ lower.findCleanupFiles trees.job, ∀ id, archiveOf file = some id →
      Extracted direct trees.job stage.log .job file id) : Reached lower direct trees.job := by
  intro file candidate id isArchive
  rcases removes file candidate id isArchive with
    ⟨extraction, mem, -, fromJob, same, -⟩ | ⟨-, unpacked⟩
  · left
    rcases tracks.listed extraction mem fromJob with ⟨archive, taken, path⟩
    rcases exists_of_taken taken with ⟨found, foundMem, notRar, foundPath⟩
    refine ⟨found, foundMem, notRar, ?_⟩
    rw [eq_of_path (file_of_mem_findArchives foundMem) (mem_job_of_extraction tracks mem fromJob)
      (foundPath.trans path)]
    exact same
  · exact .inr unpacked

theorem extracted_of_reached
    (done : ∀ key ∈ extracted, ∃ extraction ∈ stage.log, extraction.ok = true ∧
      (extraction.root, extraction.file.path) = key)
    (covered : ∀ archive, Taken lower direct trees archive → archive.key ∈ extracted)
    (reached : Reached lower direct trees.job) {file : FileAt}
    (candidate : file ∈ lower.findCleanupFiles trees.job) {id : ArchiveId}
    (isArchive : archiveOf file = some id) : Extracted direct trees.job stage.log .job file id := by
  rcases reached file candidate id isArchive with ⟨found, foundMem, notRar, same⟩ | unpacked
  · left
    have taken : Taken lower direct trees { root := .job, kind := found.1, path := found.2.path } :=
      ⟨List.mem_map_of_mem (f := fun found : ArchiveType × FileAt =>
        ({ root := .job, kind := found.1, path := found.2.path } : Archive)) foundMem, notRar⟩
    rcases done _ (covered _ taken) with ⟨extraction, mem, ok, isKey⟩
    simp only [Archive.key, Prod.mk.injEq] at isKey
    have before := tracks.before extraction mem
    refine ⟨extraction, mem, ok, isKey.1, ?_, ?_⟩
    · rw [eq_of_path (mem_job_of_extraction tracks mem isKey.1) (file_of_mem_findArchives foundMem)
        isKey.2]
      exact same
    · rw [Trees.get, before.1]
      exact (List.mem_filter.mp candidate).1
  · exact .inr ⟨rfl, unpacked⟩

theorem extracted_of_taken (unreplaced : Unreplaced stage.log)
    (done : ∀ key ∈ extracted, ∃ extraction ∈ stage.log, extraction.ok = true ∧
      (extraction.root, extraction.file.path) = key) {root : Root} {path : List Name}
    (taken : (root, path) ∈ extracted) {file : FileAt}
    (found : (stage.trees.get root).lookup path = some file) {id : ArchiveId}
    (isArchive : archiveOf file = some id) : Extracted direct trees.job stage.log root file id := by
  left
  rcases done _ taken with ⟨extraction, mem, ok, isKey⟩
  simp only [Prod.mk.injEq] at isKey
  rcases isKey with ⟨sameRoot, rfl⟩
  have stays : (stage.trees.get root).lookup extraction.file.path = some extraction.file := by
    cases root with
    | job =>
        rw [Trees.get, tracks.job]
        exact Tree.lookup_of_mem (mem_job_of_extraction tracks mem sameRoot)
    | output =>
        rcases List.append_of_mem mem with ⟨before, after, split⟩
        exact tracks.stays before extraction after split sameRoot
          (unreplaced before extraction after split sameRoot)
  have same : file = extraction.file := Option.some.inj (found.symm.trans stays)
  subst same
  have before := (tracks.before extraction mem).2
  rw [sameRoot] at before
  exact ⟨extraction, mem, ok, sameRoot, isArchive, before⟩

end

end Stage

end Safety

def fileNamed (name : Name) : FileAt where
  directory := []
  name := name
  posted := name
  content := []

/-- A job directory of one file, and an empty output directory. -/
def oneFileTrees (name : Name) : Trees where
  job := { files := [fileNamed name], nodup := by simp }
  output := { files := [], nodup := by simp }

/-- `str::to_lowercase`, as far as it goes on ASCII names. -/
def asciiLower : Lowercase where
  pieces name := name.map fun char => [char.toLower]
  lowered name := by
    rw [List.forall₂_map_right_iff, List.forall₂_same]
    intro char _
    unfold Lowered
    split
    · rfl
    next large =>
      refine ⟨List.cons_ne_nil _ _, fun letter mem small => ?_⟩
      rw [List.mem_singleton.mp mem, toLower_eq large] at small
      exact absurd small large

def textExtractor : Extractor := fun _ _ _ _ => (true, [fileNamed "readme.txt".toList])

def oneFileOutcome (name : Name) : Outcome :=
  finishStages asciiLower textExtractor (fun _ _ => false) (unpackConfig 2 none true true 5)
    (oneFileTrees name)

end Rustnzb.Web
