import Rustnzb.Postproc.Detect

/-!
# Extraction and cleanup

The stages of `run_stages` after verification and repair. Archives are extracted into the output
directory, those of the job directory first and then what came out of them, down to a depth limit;
then the archives are deleted. What an extractor writes, and whether it reports success, is a
parameter, as are lower case and the files that the cleanup rules of the category match. Files that
cannot be removed are left out.

`log` is not in the source: it records every extraction, with what it found.
-/

namespace Rustnzb.Postproc

inductive Root where
  | job
  | output
  deriving DecidableEq

structure Trees where
  job : Tree
  output : Tree

def Trees.get (trees : Trees) : Root → Tree
  | .job => trees.job
  | .output => trees.output

structure Archive where
  root : Root
  kind : ArchiveType
  path : List Name
  deriving DecidableEq

namespace Archive

def key (archive : Archive) : Root × List Name := (archive.root, archive.path)

end Archive

def archivesIn (lower : Lowercase) (root : Root) (trees : Trees) : List Archive :=
  (lower.findArchives (trees.get root)).map fun (kind, file) =>
    { root := root, kind := kind, path := file.path }

theorem root_of_mem_archivesIn {lower : Lowercase} {root : Root} {trees : Trees} {archive : Archive}
    (mem : archive ∈ archivesIn lower root trees) : archive.root = root := by
  rcases List.mem_map.mp mem with ⟨_, -, rfl⟩
  rfl

theorem archivesIn_job (lower : Lowercase) {trees other : Trees} (same : trees.job = other.job) :
    archivesIn lower .job trees = archivesIn lower .job other := by
  simp only [archivesIn, Trees.get, same]

abbrev Extractor := ArchiveType → Root → FileAt → Trees → Bool × List FileAt

structure Extraction where
  root : Root
  kind : ArchiveType
  file : FileAt
  before : Trees
  ok : Bool
  members : List FileAt

structure ExtractStage where
  trees : Trees
  allOk : Bool
  processed : List (Root × List Name)
  extracted : List (Root × List Name)
  log : List Extraction

namespace ExtractStage

def extractOne (extract : Extractor) (stage : ExtractStage) (archive : Archive) : ExtractStage :=
  match (stage.trees.get archive.root).lookup archive.path with
  | none => { stage with allOk := false }
  | some file =>
      let (ok, members) := extract archive.kind archive.root file stage.trees
      { stage with
        trees := { stage.trees with output := members.foldl Tree.write stage.trees.output }
        allOk := stage.allOk && ok
        log := stage.log ++
          [{ root := archive.root
             kind := archive.kind
             file := file
             before := stage.trees
             ok := ok
             members := members }] }

def takeNew (processed : List (Root × List Name)) :
    List Archive → List Archive × List (Root × List Name)
  | [] => ([], processed)
  | archive :: rest =>
      if archive.key ∈ processed then takeNew processed rest
      else
        let (taken, all) := takeNew (archive.key :: processed) rest
        (archive :: taken, all)

def extractDepth (extract : Extractor) (stage : ExtractStage)
    (new : List Archive × List (Root × List Name)) : ExtractStage :=
  new.1.foldl (extractOne extract)
    { stage with
      processed := new.2
      extracted := stage.extracted ++ new.1.map Archive.key }

def extractDepths (lower : Lowercase) (extract : Extractor) :
    ℕ → Root → List Archive → ExtractStage → ExtractStage × Root
  | 0, scanRoot, _, stage => (stage, scanRoot)
  | depths + 1, scanRoot, extraArchives, stage =>
      let new := takeNew stage.processed (archivesIn lower scanRoot stage.trees ++ extraArchives)
      if new.1.isEmpty then ({ stage with processed := new.2 }, scanRoot)
      else
        let stage := stage.extractDepth extract new
        if stage.allOk then extractDepths lower extract depths .output [] stage
        else (stage, scanRoot)

end ExtractStage

inductive StageStatus where
  | success
  | skipped
  | failed
  deriving DecidableEq

/-- Archives that lay in the output directory before count as processed. -/
def ExtractStage.start (lower : Lowercase) (sourceRoot : Root) (trees : Trees) :
    ExtractStage where
  trees := trees
  allOk := true
  processed := if sourceRoot = .output then [] else (archivesIn lower .output trees).map Archive.key
  extracted := []
  log := []

def runExtractStage (lower : Lowercase) (extract : Extractor) (sourceRoot : Root)
    (extraArchives : List Archive) (maxNestedArchiveDepth : ℕ) (trees : Trees) :
    StageStatus × ExtractStage :=
  let (stage, scanRoot) := (ExtractStage.start lower sourceRoot trees).extractDepths lower extract
    (maxNestedArchiveDepth + 1) sourceRoot extraArchives
  if stage.extracted.isEmpty then (.skipped, stage)
  else if stage.allOk && (archivesIn lower scanRoot stage.trees).all fun archive =>
      archive.key ∈ stage.processed then (.success, stage)
  else (.failed, stage)

structure UnpackConfig where
  pipelineOk : Bool
  unpack : Bool
  skipExtract : Bool
  maxNestedArchiveDepth : ℕ
  cleanupAfterExtract : Bool
  deleteArchives : Bool

structure Outcome where
  success : Bool
  trees : Trees
  removed : List (Root × FileAt)
  log : List Extraction

def isPar2File (name : Name) : Bool :=
  match splitLast ['.'] name with
  | some (stem, extension) => !stem.isEmpty && lowercase extension = "par2".toList
  | none => false

/-- `run_cleanup_stage_with_rules`; `ruled` are the files that match a pattern or an unwanted
extension. -/
def runCleanupStage (lower : Lowercase) (ruled : Root → FileAt → Bool)
    (extracted : List (Root × List Name)) (deleteArchives : Bool) (trees : Trees) :
    List (Root × FileAt) :=
  let candidates := (lower.findCleanupFiles trees.job).map fun file => (Root.job, file)
  let found :=
    if deleteArchives then
      candidates ++ extracted.filterMap fun (root, path) =>
        ((trees.get root).lookup path).map fun file => (root, file)
    else candidates.filter fun (_, file) => isPar2File file.name
  found ++ [Root.job, Root.output].flatMap fun root =>
    ((trees.get root).files.filter (ruled root)).map fun file => (root, file)

namespace UnpackConfig

/-- The directory that is scanned first: what direct unpack has put out, if it did all it ran. -/
def sourceRoot (config : UnpackConfig) : Root :=
  if config.skipExtract then .output else .job

def jobDirArchives (config : UnpackConfig) (lower : Lowercase) (trees : Trees) : List Archive :=
  if config.skipExtract then
    (archivesIn lower .job trees).filter fun archive => archive.kind ≠ .rar
  else []

def extraction (config : UnpackConfig) (lower : Lowercase) (extract : Extractor) (trees : Trees) :
    StageStatus × ExtractStage :=
  runExtractStage lower extract config.sourceRoot (config.jobDirArchives lower trees)
    config.maxNestedArchiveDepth trees

end UnpackConfig

def finishStages (lower : Lowercase) (extract : Extractor) (ruled : Root → FileAt → Bool)
    (config : UnpackConfig) (trees : Trees) : Outcome :=
  if config.unpack && config.pipelineOk then
    let (status, stage) := config.extraction lower extract trees
    if status = .failed then
      { success := false, trees := stage.trees, removed := [], log := stage.log }
    else
      -- an extraction that is skipped reports no archive
      let extracted := if status = .success then stage.extracted else []
      { success := true
        trees := stage.trees
        removed :=
          if config.cleanupAfterExtract then
            runCleanupStage lower ruled extracted config.deleteArchives stage.trees
          else []
        log := stage.log }
  else { success := config.pipelineOk, trees := trees, removed := [], log := [] }

/-! ## What the stage does -/

namespace ExtractStage

variable {lower : Lowercase} {extract : Extractor} {start : Trees} {listed : Archive → Prop}
  {stage : ExtractStage}

/-- What holds of the stage and its log; `listed` says which archives of the job directory are
taken. -/
structure Tracks (start : Trees) (listed : Archive → Prop) (stage : ExtractStage) : Prop where
  job : stage.trees.job = start.job
  ok : stage.allOk = true → ∀ extraction ∈ stage.log, extraction.ok = true
  before : ∀ extraction ∈ stage.log, extraction.before.job = start.job ∧
    extraction.file ∈ (extraction.before.get extraction.root).files
  listed : ∀ extraction ∈ stage.log, extraction.root = .job →
    ∃ archive, listed archive ∧ archive.path = extraction.file.path
  stays : ∀ before extraction after, stage.log = before ++ extraction :: after →
    extraction.root = .output →
      (∀ later ∈ extraction :: after, ∀ member ∈ later.members,
        member.path = extraction.file.path → member = extraction.file) →
      stage.trees.output.lookup extraction.file.path = some extraction.file

def Done (stage : ExtractStage) (keys : List (Root × List Name)) : Prop :=
  ∀ key ∈ keys, ∃ extraction ∈ stage.log, (extraction.root, extraction.file.path) = key

variable (extract) in
theorem Tracks.extractOne (tracks : stage.Tracks start listed) {archive : Archive}
    (isListed : archive.root = .job → listed archive) :
    (stage.extractOne extract archive).Tracks start listed := by
  simp only [ExtractStage.extractOne]
  split
  · exact ⟨tracks.job, by simp, tracks.before, tracks.listed, tracks.stays⟩
  next file found =>
    constructor
    · exact tracks.job
    · intro allOk extraction mem
      simp only [Bool.and_eq_true] at allOk
      rcases List.mem_append.mp mem with before | now
      · exact tracks.ok allOk.1 extraction before
      · rw [List.mem_singleton.mp now]
        exact allOk.2
    · intro extraction mem
      rcases List.mem_append.mp mem with before | now
      · exact tracks.before extraction before
      · rw [List.mem_singleton.mp now]
        exact ⟨tracks.job, Tree.mem_of_lookup found⟩
    · intro extraction mem fromJob
      rcases List.mem_append.mp mem with before | now
      · exact tracks.listed extraction before fromJob
      · rw [List.mem_singleton.mp now] at fromJob ⊢
        exact ⟨archive, isListed fromJob, (Tree.path_of_lookup found).symm⟩
    · intro before extraction after split fromOutput keeps
      apply Tree.lookup_writes
      · rcases List.eq_nil_or_concat after with rfl | ⟨between, last, rfl⟩
        · rcases List.append_inj' split rfl with ⟨-, same⟩
          cases same
          dsimp only at fromOutput ⊢
          rw [fromOutput] at found
          rw [Tree.path_of_lookup found]
          exact found
        · rw [List.concat_eq_append, ← List.cons_append, ← List.append_assoc] at split
          rcases List.append_inj' split rfl with ⟨same, -⟩
          apply tracks.stays before extraction between same fromOutput
          intro later laterMem
          apply keeps later
          rw [List.concat_eq_append, ← List.cons_append]
          exact List.mem_append_left _ laterMem
      · rcases List.eq_nil_or_concat after with rfl | ⟨between, last, rfl⟩
        · rcases List.append_inj' split rfl with ⟨-, same⟩
          cases same
          exact keeps _ List.mem_cons_self
        · have isLast : last ∈ extraction :: between.concat last := by simp
          rw [List.concat_eq_append, ← List.cons_append, ← List.append_assoc] at split
          rcases List.append_inj' split rfl with ⟨-, same⟩
          cases same
          exact keeps _ isLast

theorem allOk_of_extractOne {archive : Archive}
    (allOk : (stage.extractOne extract archive).allOk = true) :
    stage.allOk = true ∧ ∃ extraction, (extraction.root, extraction.file.path) = archive.key ∧
      (stage.extractOne extract archive).log = stage.log ++ [extraction] := by
  simp only [ExtractStage.extractOne] at allOk ⊢
  split at allOk
  · simp at allOk
  next file found =>
    simp only [Bool.and_eq_true] at allOk
    refine ⟨allOk.1, _, ?_, rfl⟩
    simp [Archive.key, Tree.path_of_lookup found]

variable (extract) in
theorem Tracks.extractAll {archives : List Archive} (tracks : stage.Tracks start listed)
    (areListed : ∀ archive ∈ archives, archive.root = .job → listed archive) :
    (archives.foldl (ExtractStage.extractOne extract) stage).Tracks start listed ∧
      ((archives.foldl (ExtractStage.extractOne extract) stage).allOk = true →
        stage.allOk = true ∧
        stage.log ⊆ (archives.foldl (ExtractStage.extractOne extract) stage).log ∧
        (archives.foldl (ExtractStage.extractOne extract) stage).Done
          (archives.map Archive.key)) := by
  induction archives generalizing stage with
  | nil => exact ⟨tracks, fun allOk => ⟨allOk, List.Subset.refl _, by simp [Done]⟩⟩
  | cons archive rest ih =>
      have one := tracks.extractOne extract (areListed archive List.mem_cons_self)
      rcases ih one fun other mem => areListed other (List.mem_cons_of_mem archive mem) with
        ⟨after, progress⟩
      refine ⟨after, fun allOk => ?_⟩
      rcases progress allOk with ⟨first, grows, done⟩
      rcases allOk_of_extractOne first with ⟨before, extraction, isKey, log⟩
      rw [log] at grows
      refine ⟨before, fun other mem => grows (List.mem_append_left _ mem), ?_⟩
      intro key mem
      rcases List.mem_cons.mp mem with rfl | later
      · exact ⟨extraction, grows (by simp), isKey⟩
      · exact done key later

theorem extracted_extractAll (archives : List Archive) :
    (archives.foldl (ExtractStage.extractOne extract) stage).extracted = stage.extracted := by
  induction archives generalizing stage with
  | nil => rfl
  | cons archive rest ih =>
      rw [List.foldl_cons, ih]
      simp only [ExtractStage.extractOne]
      split <;> rfl

theorem extracted_extractDepth (new : List Archive × List (Root × List Name)) :
    (stage.extractDepth extract new).extracted = stage.extracted ++ new.1.map Archive.key :=
  extracted_extractAll new.1

variable (extract) in
theorem Tracks.extractDepth {new : List Archive × List (Root × List Name)}
    (tracks : stage.Tracks start listed) (done : stage.allOk = true → stage.Done stage.extracted)
    (areListed : ∀ archive ∈ new.1, archive.root = .job → listed archive) :
    (stage.extractDepth extract new).Tracks start listed ∧
      ((stage.extractDepth extract new).allOk = true →
        (stage.extractDepth extract new).Done (stage.extractDepth extract new).extracted) := by
  have ready : ({ stage with
      processed := new.2
      extracted := stage.extracted ++ new.1.map Archive.key } : ExtractStage).Tracks start listed :=
    ⟨tracks.job, tracks.ok, tracks.before, tracks.listed, tracks.stays⟩
  rcases ready.extractAll extract areListed with ⟨after, progress⟩
  refine ⟨after, fun allOk => ?_⟩
  rw [extracted_extractDepth]
  intro key mem
  rcases progress allOk with ⟨before, grows, now⟩
  rcases List.mem_append.mp mem with old | fresh
  · rcases done before key old with ⟨extraction, extractionMem, isKey⟩
    exact ⟨extraction, grows extractionMem, isKey⟩
  · exact now key fresh

theorem mem_takeNew (processed : List (Root × List Name)) (archives : List Archive) :
    (∀ archive ∈ (takeNew processed archives).1, archive ∈ archives) ∧
      ∀ archive ∈ archives, archive.key ∈ processed ∨
        archive.key ∈ (takeNew processed archives).1.map Archive.key := by
  induction archives generalizing processed with
  | nil => simp [takeNew]
  | cons archive rest ih =>
      simp only [takeNew]
      split
      next known =>
        rcases ih processed with ⟨taken, covered⟩
        refine ⟨fun other mem => List.mem_cons_of_mem _ (taken other mem), fun other mem => ?_⟩
        rcases List.mem_cons.mp mem with rfl | later
        · exact .inl known
        · exact covered other later
      next unknown =>
        rcases ih (archive.key :: processed) with ⟨taken, covered⟩
        constructor
        · intro other mem
          rcases List.mem_cons.mp mem with rfl | later
          · exact List.mem_cons_self
          · exact List.mem_cons_of_mem _ (taken other later)
        · intro other mem
          rcases List.mem_cons.mp mem with rfl | later
          · simp
          · rcases covered other later with known | new
            · rcases List.mem_cons.mp known with same | before
              · simp [same]
              · exact .inl before
            · exact .inr (by simp [new])

variable (extract) in
theorem Tracks.extractDepths (depths : ℕ) {scanRoot : Root} {extraArchives : List Archive}
    (tracks : stage.Tracks start listed) (done : stage.allOk = true → stage.Done stage.extracted)
    (scanned : scanRoot = .job → ∀ archive ∈ archivesIn lower .job start, listed archive)
    (extra : ∀ archive ∈ extraArchives, listed archive) :
    (stage.extractDepths lower extract depths scanRoot extraArchives).1.Tracks start listed ∧
      ((stage.extractDepths lower extract depths scanRoot extraArchives).1.allOk = true →
        (stage.extractDepths lower extract depths scanRoot extraArchives).1.Done
          (stage.extractDepths lower extract depths scanRoot extraArchives).1.extracted) := by
  induction depths generalizing stage scanRoot extraArchives with
  | zero => exact ⟨tracks, done⟩
  | succ depths ih =>
      have areListed : ∀ archive ∈ (takeNew stage.processed
          (archivesIn lower scanRoot stage.trees ++ extraArchives)).1,
            archive.root = .job → listed archive := by
        intro archive mem fromJob
        rcases List.mem_append.mp ((mem_takeNew _ _).1 archive mem) with inScan | isExtra
        · have root := root_of_mem_archivesIn inScan
          rw [fromJob] at root
          subst root
          rw [archivesIn_job lower tracks.job] at inScan
          exact scanned rfl archive inScan
        · exact extra archive isExtra
      rcases tracks.extractDepth extract done areListed with ⟨after, doneAll⟩
      simp only [ExtractStage.extractDepths]
      split
      · exact ⟨⟨tracks.job, tracks.ok, tracks.before, tracks.listed, tracks.stays⟩, done⟩
      · split
        · exact ih after doneAll (by simp) (by simp)
        · exact ⟨after, doneAll⟩

theorem subset_extractDepths (depths : ℕ) (scanRoot : Root) (extraArchives : List Archive)
    (stage : ExtractStage) : stage.extracted ⊆
      (stage.extractDepths lower extract depths scanRoot extraArchives).1.extracted := by
  induction depths generalizing stage scanRoot extraArchives with
  | zero => exact List.Subset.refl _
  | succ depths ih =>
      simp only [ExtractStage.extractDepths]
      split
      · exact List.Subset.refl _
      · split
        · refine List.Subset.trans ?_ (ih ..)
          rw [extracted_extractDepth]
          exact List.subset_append_left ..
        · rw [extracted_extractDepth]
          exact List.subset_append_left ..

theorem covers_extractDepths (depths : ℕ) (scanRoot : Root) (extraArchives : List Archive)
    (stage : ExtractStage) {archive : Archive}
    (mem : archive ∈ archivesIn lower scanRoot stage.trees ++ extraArchives) :
    archive.key ∈ stage.processed ∨ archive.key ∈
      (stage.extractDepths lower extract (depths + 1) scanRoot extraArchives).1.extracted := by
  rcases (mem_takeNew stage.processed _).2 archive mem with known | new
  · exact .inl known
  · right
    simp only [ExtractStage.extractDepths]
    split
    next empty =>
      rw [List.isEmpty_iff] at empty
      simp [empty] at new
    · split
      · apply subset_extractDepths
        rw [extracted_extractDepth]
        exact List.mem_append_right _ new
      · rw [extracted_extractDepth]
        exact List.mem_append_right _ new

end ExtractStage

theorem runExtractStage_spec {lower : Lowercase} (extract : Extractor) {sourceRoot : Root}
    {extraArchives : List Archive} (depth : ℕ) {trees : Trees} {listed : Archive → Prop}
    (scanned : sourceRoot = .job → ∀ archive ∈ archivesIn lower .job trees, listed archive)
    (extra : ∀ archive ∈ extraArchives, listed archive) :
    (runExtractStage lower extract sourceRoot extraArchives depth trees).2.Tracks trees listed ∧
      ((runExtractStage lower extract sourceRoot extraArchives depth trees).1 = .success →
        (runExtractStage lower extract sourceRoot extraArchives depth trees).2.allOk = true ∧
        (runExtractStage lower extract sourceRoot extraArchives depth trees).2.Done
          (runExtractStage lower extract sourceRoot extraArchives depth trees).2.extracted) ∧
      ((runExtractStage lower extract sourceRoot extraArchives depth trees).1 = .skipped →
        (runExtractStage lower extract sourceRoot extraArchives depth trees).2.extracted = []) ∧
      ∀ archive ∈ archivesIn lower sourceRoot trees ++ extraArchives, archive.root = .job →
        archive.key ∈
          (runExtractStage lower extract sourceRoot extraArchives depth trees).2.extracted := by
  have tracks : (ExtractStage.start lower sourceRoot trees).Tracks trees listed := by
    constructor <;> simp [ExtractStage.start]
  rcases tracks.extractDepths extract (depth + 1)
    (by simp [ExtractStage.start, ExtractStage.Done]) scanned extra with ⟨after, done⟩
  have covers : ∀ archive ∈ archivesIn lower sourceRoot trees ++ extraArchives,
      archive.root = .job → archive.key ∈ ((ExtractStage.start lower sourceRoot trees).extractDepths
        lower extract (depth + 1) sourceRoot extraArchives).1.extracted := by
    intro archive mem fromJob
    rcases ExtractStage.covers_extractDepths depth sourceRoot extraArchives
      (ExtractStage.start lower sourceRoot trees) mem with known | taken
    · -- only archives of the output directory are processed before
      dsimp only [ExtractStage.start] at known
      split at known
      · simp at known
      · rcases List.mem_map.mp known with ⟨other, otherMem, same⟩
        have sameRoot : other.root = archive.root := congrArg Prod.fst same
        rw [← sameRoot, root_of_mem_archivesIn otherMem] at fromJob
        simp at fromJob
    · exact taken
  simp only [runExtractStage]
  split
  next nothing => exact ⟨after, by simp, fun _ => List.isEmpty_iff.mp nothing, covers⟩
  · split
    next ended =>
      rw [Bool.and_eq_true] at ended
      exact ⟨after, fun _ => ⟨ended.1, done ended.1⟩, by simp, covers⟩
    · exact ⟨after, by simp, by simp, covers⟩

end Rustnzb.Postproc
