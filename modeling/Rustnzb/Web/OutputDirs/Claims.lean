import Rustnzb.Web.OutputDirs.Manager

/-!
# One job, one output directory

A reserved directory is one that its job has made, so that no two jobs have the same. What was given
to an extraction is a copy of the path: the job must not take another target while it runs, nor when
it has written something, and after a restart the checkpoint has to give the directory back.

Each section is about one job. It keeps what others have made and written, so that only its own job
has to be looked at.
-/

namespace Rustnzb.Web.OutputDirs

open Dispatch (JobId)
open Lib (Registry DirTree Run execute)
open Lib.DirTree (Grows Keeps Closed)

variable {manager manager' : QueueManager} {id other : JobId} {job job' : JobState} {dir : Path}

def MadeBy (tree : Tree) (id : JobId) (dir : Path) : Prop :=
  ∃ found, tree.lookup dir = some found ∧ found.maker = some id

def Store.Has (store : Store) (product : Product) : Prop :=
  ∃ found, store.dirs.lookup product.dir = some found ∧
    (⟨some product.job, product.name⟩ : File) ∈ found.files

/-- Every file of the job lies in the directory that the row records. -/
def HistoryEntry.Whole (entry : HistoryEntry) : Prop :=
  ∀ product ∈ entry.produced, product.job = entry.id →
    product.dir = entry.outputDir ∧ entry.Has product

namespace QueueManager

def Claims (manager : QueueManager) (id : JobId) (dir : Path) : Prop :=
  ∃ job, manager.jobs.lookup id = some job ∧ job.outputDirClaimed = true ∧ job.outputDir = dir

def InHistory (manager : QueueManager) (id : JobId) : Prop :=
  ∃ entry ∈ manager.history, entry.id = id

structure OneOutputDir (manager : QueueManager) : Prop where
  apart : ∀ first second dir, manager.Claims first dir → manager.Claims second dir →
    ¬manager.InHistory first → ¬manager.InHistory second → first = second
  made : ∀ id dir, manager.Claims id dir → ¬manager.InHistory id → MadeBy manager.dirs id dir
  empty : ∀ claim ∈ manager.claims, claim.held = []
  whole : ∀ entry ∈ manager.history, entry.completed = true → entry.Whole
  released : ∀ files ∈ manager.released, files = []

def Writes (manager : QueueManager) (id : JobId) (dir : Path) : Prop :=
  (id, dir) ∈ manager.extractors ∨ manager.pipelines.lookup id = some dir

def Reserves (manager : QueueManager) (job : JobState) (created : Bool) : Prop :=
  job.outputDirClaimed = true ∨
    created = true ∧ (candidateDir manager.dirs job.outputDir).isSome = true

/-- An extraction is started in a reserved directory only. The target of a job changes while nothing
is in its directory, and, before it is moved, nothing was written for it and nothing writes. And at
a restart the checkpoint of a job names the directory with its files, and none that another has
made. -/
def Careful (manager : QueueManager) : Label → Prop
  | .directUnpack id created found =>
      ∀ job, manager.jobs.lookup id = some job → found = true → manager.Reserves job created
  | .onJobFinished id created =>
      ∀ job, manager.jobs.lookup id = some job → manager.Reserves job created
  | .retarget id _ _ =>
      ∀ job, manager.jobs.lookup id = some job →
        (job.outputDirClaimed = true → manager.dirs.filesUnder job.outputDir = []) ∧
          (job.moved = false → (∀ product ∈ manager.produced, product.job ≠ id) ∧
            ∀ dir, ¬manager.Writes id dir)
  | .launch id read =>
      ∀ job, manager.jobs.lookup id = some job → job.outputDirClaimed = false →
        (∀ dir, restoreClaimedOutputDir manager.dirs job.outputDir (manager.checkpoint id read) =
          some dir → MadeBy manager.dirs id dir) ∧
            ∀ product ∈ manager.produced, product.job = id → read = true
  | .restart listed active read =>
      listed = true → ∀ id row, manager.rows.lookup id = some row →
        (∀ product ∈ manager.produced, product.job = id →
          restoreClaimedOutputDir manager.dirs row.outputDir row.checkpoint = some product.dir ∧
            (id ∈ active → id ∈ read)) ∧
          ∀ dir, id ∈ active → id ∈ read →
            restoreClaimedOutputDir manager.dirs row.outputDir row.checkpoint = some dir →
              MadeBy manager.dirs id dir
  | _ => True

end QueueManager

def Awaits (manager : QueueManager) (id : JobId) (job : JobState) (dir : Path) : Prop :=
  job.outputDirClaimed = true ∧ job.outputDir = dir ∨
    job.outputDirClaimed = false ∧ job.nzbData = false ∧
      restoreClaimedOutputDir manager.dirs job.outputDir (manager.checkpoint id true) = some dir

structure JobSound (manager : QueueManager) (id : JobId) (job : JobState) : Prop where
  claimed : job.outputDirClaimed = true → MadeBy manager.dirs id job.outputDir
  writes : job.moved = false → ∀ dir, manager.Writes id dir →
    job.outputDirClaimed = true ∧ job.outputDir = dir
  produced : job.moved = false → ∀ product ∈ manager.produced, product.job = id →
    Awaits manager id job product.dir
  snapshots : ∀ claimed, (id, claimed) ∈ manager.snapshots → job.nzbData = true

def Known (manager : QueueManager) (id : JobId) : Prop :=
  id ∈ manager.jobs ∨ id ∈ manager.rows ∨ (∃ product ∈ manager.produced, product.job = id) ∨
    (∃ dir, manager.Writes id dir) ∨ ∃ claimed, (id, claimed) ∈ manager.snapshots

structure Shared (manager : QueueManager) : Prop where
  closed : manager.dirs.Closed
  present : ∀ product ∈ manager.produced, manager.Has product
  issued : ∀ id, Known manager id → id ∈ manager.issued
  claims : ∀ claim ∈ manager.claims, claim.held = []
  whole : ∀ entry ∈ manager.history, entry.completed = true → entry.Whole
  released : ∀ files ∈ manager.released, files = []

structure Sound (manager : QueueManager) : Prop extends Shared manager where
  jobs : ∀ id job, manager.jobs.lookup id = some job → JobSound manager id job

/-- What a section about one job leaves to the others. -/
structure Frame (id : JobId) (manager manager' : QueueManager) : Prop where
  jobs : ∀ other, other ≠ id → manager'.jobs.lookup other = manager.jobs.lookup other
  rows : ∀ other, other ≠ id → manager'.rows.lookup other = manager.rows.lookup other
  dirs : Keeps id manager.dirs manager'.dirs
  produced : ∀ product ∈ manager'.produced, product ∈ manager.produced ∨ product.job = id
  writes : ∀ other dir, other ≠ id → manager'.Writes other dir → manager.Writes other dir
  snapshots : ∀ other claimed, other ≠ id → (other, claimed) ∈ manager'.snapshots →
    (other, claimed) ∈ manager.snapshots

theorem Frame.trans {manager'' : QueueManager} (first : Frame id manager manager')
    (second : Frame id manager' manager'') : Frame id manager manager'' where
  jobs other differs := (second.jobs other differs).trans (first.jobs other differs)
  rows other differs := (second.rows other differs).trans (first.rows other differs)
  dirs := first.dirs.trans second.dirs
  produced product isProduct :=
    (second.produced product isProduct).elim (first.produced product) .inr
  writes other dir differs isWriting :=
    first.writes other dir differs (second.writes other dir differs isWriting)
  snapshots other claimed differs isSnapshot :=
    first.snapshots other claimed differs (second.snapshots other claimed differs isSnapshot)

theorem restoreClaimedOutputDir_mono {tree tree' : Tree} {outputDir : Path}
    {checkpoint : Option Path}
    (restored : restoreClaimedOutputDir tree outputDir checkpoint = some dir)
    (isDir : dir ∈ tree') : restoreClaimedOutputDir tree' outputDir checkpoint = some dir := by
  rw [restoreClaimedOutputDir, Option.filter_eq_some_iff] at restored ⊢
  rcases restored with ⟨named, beside⟩
  refine ⟨named, ?_⟩
  rw [Bool.and_eq_true] at beside ⊢
  exact ⟨beside.1, decide_eq_true isDir⟩

theorem checkpoint_congr {read : Bool} (rows : manager'.rows.lookup id = manager.rows.lookup id) :
    manager'.checkpoint id read = manager.checkpoint id read := by
  rw [QueueManager.checkpoint, QueueManager.checkpoint, rows]

theorem JobSound.frame (sound : JobSound manager other job) (shared : Shared manager)
    (frame : Frame id manager manager') (differs : other ≠ id) : JobSound manager' other job where
  claimed isClaimed := by
    rcases sound.claimed isClaimed with ⟨found, isFound, maker⟩
    exact frame.dirs.lookup_of_maker differs isFound maker
  writes unmoved dir isWriting :=
    sound.writes unmoved dir (frame.writes other dir differs isWriting)
  produced unmoved product isProduct isOther := by
    rcases frame.produced product isProduct with isOld | isOwn
    · rcases sound.produced unmoved product isOld isOther with
        claimed | ⟨unclaimed, unread, restored⟩
      · exact .inl claimed
      · refine .inr ⟨unclaimed, unread, ?_⟩
        rcases shared.present product isOld with ⟨found, isFound, isFile⟩
        rcases frame.dirs.lookup_of_file isFound isFile with ⟨found', isFound', -⟩
        rw [checkpoint_congr (frame.rows other differs)]
        exact restoreClaimedOutputDir_mono restored
          (AList.lookup_isSome.mp (Option.isSome_of_mem isFound'))
    · exact absurd (isOther.symm.trans isOwn) differs
  snapshots claimed isSnapshot :=
    sound.snapshots claimed (frame.snapshots other claimed differs isSnapshot)

theorem Sound.frame (sound : Sound manager) (shared : Shared manager')
    (frame : Frame id manager manager')
    (own : ∀ job, manager'.jobs.lookup id = some job → JobSound manager' id job) :
    Sound manager' where
  toShared := shared
  jobs other job isJob := by
    by_cases same : other = id
    · subst same
      exact own job isJob
    · rw [frame.jobs other same] at isJob
      exact (sound.jobs other job isJob).frame sound.toShared frame same

theorem Frame.known (frame : Frame id manager manager') (differs : other ≠ id)
    (known : Known manager' other) : Known manager other := by
  rcases known with isJob | isRow | ⟨product, isProduct, isOther⟩ | ⟨dir, isWriting⟩ |
    ⟨claimed, isSnapshot⟩
  · rw [← AList.lookup_isSome, frame.jobs other differs, AList.lookup_isSome] at isJob
    exact .inl isJob
  · rw [← AList.lookup_isSome, frame.rows other differs, AList.lookup_isSome] at isRow
    exact .inr (.inl isRow)
  · rcases frame.produced product isProduct with isOld | isOwn
    · exact .inr (.inr (.inl ⟨product, isOld, isOther⟩))
    · exact absurd (isOther.symm.trans isOwn) differs
  · exact .inr (.inr (.inr (.inl ⟨dir, frame.writes other dir differs isWriting⟩)))
  · exact .inr (.inr (.inr (.inr ⟨claimed, frame.snapshots other claimed differs isSnapshot⟩)))

theorem Shared.issued_of_frame (shared : Shared manager) (frame : Frame id manager manager')
    (same : manager'.issued = manager.issued) (isIssued : id ∈ manager.issued) (other : JobId)
    (known : Known manager' other) : other ∈ manager'.issued := by
  rw [same]
  by_cases isOwn : other = id
  · subst isOwn
    exact isIssued
  · exact shared.issued other (frame.known isOwn known)

theorem Shared.present_of_keeps (shared : Shared manager)
    (keeps : Keeps id manager.dirs manager'.dirs) (product : Product)
    (isProduct : product ∈ manager.produced) : manager'.Has product := by
  rcases shared.present product isProduct with ⟨found, isFound, isFile⟩
  exact keeps.lookup_of_file isFound isFile

structure Worked (id : JobId) (manager manager' : QueueManager) (job : JobState) : Prop where
  shared : Shared manager'
  frame : Frame id manager manager'
  own : JobSound manager' id job
  issued : manager'.issued = manager.issued

theorem Frame.refl (id : JobId) (manager : QueueManager) : Frame id manager manager where
  jobs _ _ := rfl
  rows _ _ := rfl
  dirs := Grows.refl.keeps id
  produced _ isProduct := .inl isProduct
  writes _ _ _ isWriting := isWriting
  snapshots _ _ _ isSnapshot := isSnapshot

theorem frame_setJob : Frame id manager (manager.setJob id job) :=
  { Frame.refl id manager with
    jobs := fun _ differs => AList.lookup_insert_ne differs }

theorem Sound.issued_of_lookup (sound : Sound manager) (isJob : manager.jobs.lookup id = some job) :
    id ∈ manager.issued :=
  sound.issued id (.inl (AList.lookup_isSome.mp (Option.isSome_of_mem isJob)))

theorem Worked.sound (worked : Worked id manager manager' job) (sound : Sound manager)
    (isIssued : id ∈ manager.issued) : Sound (manager'.setJob id job) := by
  have isIssued' : id ∈ manager'.issued := worked.issued.symm ▸ isIssued
  have shared : Shared (manager'.setJob id job) :=
    { closed := worked.shared.closed
      present := worked.shared.present
      issued := worked.shared.issued_of_frame frame_setJob rfl isIssued'
      claims := worked.shared.claims
      whole := worked.shared.whole
      released := worked.shared.released }
  apply sound.frame shared (worked.frame.trans frame_setJob)
  intro found isFound
  rw [QueueManager.setJob, AList.lookup_insert] at isFound
  cases isFound
  exact ⟨worked.own.claimed, worked.own.writes, worked.own.produced, worked.own.snapshots⟩

theorem Sound.worked (sound : Sound manager) (isJob : manager.jobs.lookup id = some job) :
    Worked id manager manager job :=
  ⟨sound.toShared, Frame.refl id manager, sound.jobs id job isJob, rfl⟩

theorem JobSound.congr (sound : JobSound manager id job)
    (outputDir : job'.outputDir = job.outputDir)
    (claimed : job'.outputDirClaimed = job.outputDirClaimed) (nzbData : job'.nzbData = job.nzbData)
    (moved : job'.moved = false → job.moved = false) : JobSound manager id job' where
  claimed isClaimed := by
    rw [outputDir]
    exact sound.claimed (claimed.symm.trans isClaimed)
  writes unmoved := by
    rw [outputDir, claimed]
    exact sound.writes (moved unmoved)
  produced unmoved := by
    simp only [Awaits, outputDir, claimed, nzbData]
    exact sound.produced (moved unmoved)
  snapshots := by
    rw [nzbData]
    exact sound.snapshots

theorem freeCandidate_spec {tree : Tree} {base : Path} {name : String} {suffix left : ℕ}
    (found : freeCandidate tree base name suffix left = some dir) :
    dir ∉ tree ∧ dir.dropLast = base.dropLast := by
  induction left generalizing suffix with
  | zero => cases found
  | succ left ih =>
      have beside : (if suffix = 0 then base else base.dropLast ++ [name ++ "." ++ toString suffix]
          ).dropLast = base.dropLast := by
        split
        · rfl
        · rw [List.dropLast_concat]
      rw [freeCandidate] at found
      generalize (if suffix = 0 then base else base.dropLast ++ [name ++ "." ++ toString suffix]) =
        candidate at found beside
      split at found
      · exact ih found
      next absent =>
        cases found
        exact ⟨absent, beside⟩

theorem claimUniqueOutputDir_spec {tree dirs : Tree} {base : Path} {created : Bool}
    (claimed : claimUniqueOutputDir tree base id created = some (dir, dirs)) :
    dirs = (tree.createDirAll base.dropLast).createDir dir id ∧
      dir ∉ tree.createDirAll base.dropLast ∧ dir.dropLast = base.dropLast := by
  rw [claimUniqueOutputDir] at claimed
  split at claimed
  · rcases Option.map_eq_some_iff.mp claimed with ⟨candidate, isCandidate, same⟩
    rcases Option.bind_eq_some_iff.mp isCandidate with ⟨name, -, found⟩
    cases same
    exact ⟨rfl, freeCandidate_spec found⟩
  · cases claimed

/-- The reservation, if there is none yet: nothing writes for the job, and nothing was written. -/
theorem Sound.claimOutputDir (sound : Sound manager) (isJob : manager.jobs.lookup id = some job)
    (loaded : job.nzbData = true) (unmoved : job.moved = false) (created : Bool) :
    Worked id manager (manager.claimOutputDir id job created).1
      (manager.claimOutputDir id job created).2 := by
  have worked := sound.worked isJob
  rw [QueueManager.claimOutputDir]
  split
  · exact worked
  next unclaimed =>
    split
    next dir dirs claimed =>
      rcases claimUniqueOutputDir_spec claimed with ⟨rfl, absent, parent⟩
      have above : dir.dropLast ∈ manager.dirs.createDirAll job.outputDir.dropLast :=
        parent ▸ DirTree.self_mem_createDirAll
      have closed := DirTree.closed_createDirAll sound.closed job.outputDir.dropLast
      have grows : Grows manager.dirs
          ((manager.dirs.createDirAll job.outputDir.dropLast).createDir dir id) :=
        DirTree.grows_createDirAll.trans (DirTree.grows_insert absent _)
      have frame : Frame id manager { manager with
          dirs := (manager.dirs.createDirAll job.outputDir.dropLast).createDir dir id
          claims := manager.claims ++ [⟨id, dir, ((manager.dirs.createDirAll
            job.outputDir.dropLast).createDir dir id).filesUnder dir⟩] } :=
        { Frame.refl id manager with dirs := grows.keeps id }
      refine ⟨?_, frame, ?_, rfl⟩
      · exact {
          closed := DirTree.closed_createDir closed above id
          present := sound.toShared.present_of_keeps (grows.keeps id)
          issued := sound.toShared.issued_of_frame frame rfl (sound.issued_of_lookup isJob)
          claims := by
            intro claim isClaim
            rcases List.mem_append.mp isClaim with isOld | isNew
            · exact sound.claims claim isOld
            · cases List.mem_singleton.mp isNew
              exact DirTree.filesUnder_createDir closed absent id
          whole := sound.whole
          released := sound.released }
      · exact {
          claimed := fun _ => ⟨_, AList.lookup_insert _, rfl⟩
          writes := fun _ dir isWriting =>
            absurd (worked.own.writes unmoved dir isWriting).1 unclaimed
          produced := by
            intro _ product isProduct isOwn
            rcases worked.own.produced unmoved product isProduct isOwn with claimed | pending
            · exact absurd claimed.1 unclaimed
            · cases loaded.symm.trans pending.2.1
          snapshots := worked.own.snapshots }
    · exact worked

theorem claimed_of_reserves {created : Bool} (id : JobId)
    (reserves : manager.Reserves job created) :
    (manager.claimOutputDir id job created).2.outputDirClaimed = true := by
  rw [QueueManager.claimOutputDir]
  split
  next claimed => exact claimed
  next unclaimed =>
    rcases reserves with claimed | ⟨rfl, isCandidate⟩
    · exact absurd claimed unclaimed
    · rcases Option.isSome_iff_exists.mp isCandidate with ⟨dir, isDir⟩
      rw [claimUniqueOutputDir, if_pos rfl, isDir]
      rfl

theorem Worked.write (worked : Worked id manager manager' job) (isIssued : id ∈ manager.issued)
    (claimed : job.outputDirClaimed = true) (extractors : List (JobId × Path))
    (pipelines : Registry JobId Path) (writes : ∀ other dir, QueueManager.Writes
      { manager' with extractors := extractors, pipelines := pipelines } other dir →
        manager'.Writes other dir ∨ other = id ∧ dir = job.outputDir) :
    Worked id manager { manager' with extractors := extractors, pipelines := pipelines } job := by
  have frame : Frame id manager'
      { manager' with extractors := extractors, pipelines := pipelines } :=
    { Frame.refl id manager' with
      writes := fun other dir differs isWriting =>
        (writes other dir isWriting).resolve_right fun own => differs own.1 }
  refine ⟨?_, worked.frame.trans frame, ?_, worked.issued⟩
  · exact {
      closed := worked.shared.closed
      present := worked.shared.present
      issued := worked.shared.issued_of_frame frame rfl (worked.issued.symm ▸ isIssued)
      claims := worked.shared.claims
      whole := worked.shared.whole
      released := worked.shared.released }
  · refine ⟨worked.own.claimed, fun unmoved dir isWriting => ?_, worked.own.produced,
      worked.own.snapshots⟩
    rcases writes id dir isWriting with isOld | ⟨-, rfl⟩
    · exact worked.own.writes unmoved dir isOld
    · exact ⟨claimed, rfl⟩

theorem Sound.directUnpack (sound : Sound manager) (isJob : manager.jobs.lookup id = some job)
    (loaded : job.nzbData = true) (unmoved : job.moved = false) {created found : Bool}
    (careful : found = true → manager.Reserves job created) :
    Sound (manager.directUnpack id job created found) := by
  have worked := sound.claimOutputDir isJob loaded unmoved created
  have isIssued := sound.issued_of_lookup isJob
  rw [QueueManager.directUnpack]
  split
  next claimed job' isClaimed =>
  rw [isClaimed] at worked
  split
  next isFound =>
    have reserved := claimed_of_reserves id (careful isFound)
    rw [isClaimed] at reserved
    have started : Worked id manager { claimed with
        extractors := (id, job'.outputDir) :: claimed.extractors } job' := by
      refine worked.write isIssued reserved _ claimed.pipelines fun other dir isWriting => ?_
      rcases isWriting with isExtractor | isPipeline
      · rcases List.mem_cons.mp isExtractor with isNew | isOld
        · cases isNew
          exact .inr ⟨rfl, rfl⟩
        · exact .inl (.inl isOld)
      · exact .inl (.inr isPipeline)
    have unpacking : Worked id manager { claimed with
        extractors := (id, job'.outputDir) :: claimed.extractors }
          { job' with directUnpacker := true } :=
      { started with own := started.own.congr rfl rfl rfl fun unmoved => unmoved }
    exact unpacking.sound sound isIssued
  · exact worked.sound sound isIssued

theorem Sound.onJobFinished (sound : Sound manager) (isJob : manager.jobs.lookup id = some job)
    (loaded : job.nzbData = true) (unmoved : job.moved = false) {created : Bool}
    (careful : manager.Reserves job created) : Sound (manager.onJobFinished id job created) := by
  have worked := sound.claimOutputDir isJob loaded unmoved created
  have isIssued := sound.issued_of_lookup isJob
  have reserved := claimed_of_reserves id careful
  rw [QueueManager.onJobFinished]
  split
  next claimed job' isClaimed =>
  rw [isClaimed] at worked reserved
  have started : Worked id manager { claimed with
      pipelines := claimed.pipelines.insert id job'.outputDir } job' := by
    refine worked.write isIssued reserved claimed.extractors _ fun other dir isWriting => ?_
    rcases isWriting with isExtractor | isPipeline
    · exact .inl (.inl isExtractor)
    · by_cases same : other = id
      · subst same
        rw [AList.lookup_insert] at isPipeline
        exact .inr ⟨rfl, (Option.some_inj.mp isPipeline).symm⟩
      · rw [AList.lookup_insert_ne same] at isPipeline
        exact .inl (.inr isPipeline)
  have taken : Worked id manager { claimed with
      pipelines := claimed.pipelines.insert id job'.outputDir }
        { job' with directUnpacker := false } :=
    { started with own := started.own.congr rfl rfl rfl fun unmoved => unmoved }
  exact taken.sound sound isIssued

theorem frame_produce (id : JobId) (dir : Path) (name : String) :
    Frame id manager (manager.produce id dir name) :=
  { Frame.refl id manager with
    dirs := (DirTree.grows_write _ _).keeps id
    produced := by
      intro product isProduct
      rcases List.mem_cons.mp isProduct with rfl | isOld
      · exact .inr rfl
      · exact .inl isOld }

theorem Shared.produce (shared : Shared manager) (isIssued : id ∈ manager.issued) (name : String) :
    Shared (manager.produce id dir name) where
  closed := DirTree.closed_write shared.closed _
  present product isProduct := by
    rcases List.mem_cons.mp isProduct with rfl | isOld
    · exact DirTree.lookup_write _
    · exact shared.present_of_keeps (frame_produce id dir name).dirs product isOld
  issued := shared.issued_of_frame (frame_produce id dir name) rfl isIssued
  claims := shared.claims
  whole := shared.whole
  released := shared.released

theorem JobSound.grow (sound : JobSound manager id job) (shared : Shared manager) {dirs : Tree}
    (grows : Grows manager.dirs dirs) : JobSound { manager with dirs := dirs } id job where
  claimed isClaimed := by
    rcases sound.claimed isClaimed with ⟨found, isFound, maker⟩
    rcases grows _ found isFound with ⟨found', isFound', same, -⟩
    exact ⟨found', isFound', same.trans maker⟩
  writes := sound.writes
  produced unmoved product isProduct isOwn := by
    rcases sound.produced unmoved product isProduct isOwn with
      claimed | ⟨unclaimed, unread, restored⟩
    · exact .inl claimed
    · refine .inr ⟨unclaimed, unread, restoreClaimedOutputDir_mono restored (grows.mem ?_)⟩
      rcases shared.present product isProduct with ⟨found, isFound, -⟩
      exact AList.lookup_isSome.mp (Option.isSome_of_mem isFound)
  snapshots := sound.snapshots

theorem JobSound.produce (sound : JobSound manager id job) (shared : Shared manager)
    (target : job.moved = false → job.outputDirClaimed = true ∧ job.outputDir = dir)
    (name : String) : JobSound (manager.produce id dir name) id job := by
  have grown := sound.grow shared (DirTree.grows_write dir (⟨some id, name⟩ : File))
  refine ⟨grown.claimed, grown.writes, fun unmoved product isProduct isOwn => ?_, grown.snapshots⟩
  rcases List.mem_cons.mp isProduct with rfl | isOld
  · exact .inl (target unmoved)
  · exact grown.produced unmoved product isOld isOwn

theorem Sound.produce (sound : Sound manager) (isWriting : manager.Writes id dir) (name : String) :
    Sound (manager.produce id dir name) := by
  have isIssued : id ∈ manager.issued :=
    sound.issued id (.inr (.inr (.inr (.inl ⟨dir, isWriting⟩))))
  refine sound.frame (sound.toShared.produce isIssued name) (frame_produce id dir name)
    fun job isJob => ?_
  have own := sound.jobs id job isJob
  exact own.produce sound.toShared (fun unmoved => own.writes unmoved dir isWriting) name

theorem removeDir_spec {removed : Bool} {dirs : Tree}
    (isRemoved : manager.removeDir dir removed = some dirs) (made : MadeBy manager.dirs id dir)
    (closed : manager.dirs.Closed) :
    dirs.Closed ∧ Keeps id manager.dirs dirs ∧ manager.dirs.filesUnder dir = [] := by
  rw [QueueManager.removeDir] at isRemoved
  split at isRemoved
  next isEmpty =>
    cases isRemoved
    rw [Bool.and_eq_true] at isEmpty
    rcases made with ⟨found, isFound, maker⟩
    have files := (DirTree.isEmpty_iff.mp isEmpty.2 dir found isFound List.prefix_rfl).2
    exact ⟨DirTree.closed_erase closed isEmpty.2, DirTree.keeps_erase isFound maker files,
      DirTree.filesUnder_of_isEmpty isEmpty.2⟩
  · cases isRemoved

theorem Shared.release (shared : Shared manager) (isIssued : id ∈ manager.issued) {dirs : Tree}
    (closed : dirs.Closed) (keeps : Keeps id manager.dirs dirs) {files : List File}
    (empty : files = []) :
    Shared { manager with dirs := dirs, released := manager.released ++ [files] } := by
  have frame : Frame id manager
      { manager with dirs := dirs, released := manager.released ++ [files] } :=
    { Frame.refl id manager with dirs := keeps }
  exact {
    closed := closed
    present := shared.present_of_keeps keeps
    issued := shared.issued_of_frame frame rfl isIssued
    claims := shared.claims
    whole := shared.whole
    released := by
      intro held isHeld
      rcases List.mem_append.mp isHeld with isOld | isNew
      · exact shared.released held isOld
      · exact (List.mem_singleton.mp isNew).trans empty }

theorem Sound.retarget (sound : Sound manager) (isJob : manager.jobs.lookup id = some job)
    (empty : job.outputDirClaimed = true → manager.dirs.filesUnder job.outputDir = [])
    (idle : job.moved = false → (∀ product ∈ manager.produced, product.job ≠ id) ∧
      ∀ dir, ¬manager.Writes id dir) (outputDir : Path) (removed : Bool) :
    Sound (manager.retarget id job outputDir removed) := by
  have own := sound.jobs id job isJob
  have isIssued := sound.issued_of_lookup isJob
  have idleJob : ∀ base : QueueManager, base.produced = manager.produced →
      base.extractors = manager.extractors → base.pipelines = manager.pipelines →
        base.snapshots = manager.snapshots →
          JobSound base id { job with outputDir := outputDir, outputDirClaimed := false } := by
    intro base produced extractors pipelines snapshots
    refine ⟨nofun, fun unmoved dir isWriting => ?_,
      fun unmoved product isProduct isOwn => ?_, fun claimed isSnapshot => ?_⟩
    · rw [QueueManager.Writes, extractors, pipelines] at isWriting
      exact absurd isWriting ((idle unmoved).2 dir)
    · rw [produced] at isProduct
      exact absurd isOwn ((idle unmoved).1 product isProduct)
    · rw [snapshots] at isSnapshot
      exact own.snapshots claimed isSnapshot
  rw [QueueManager.retarget, QueueManager.releaseOutputDirClaim]
  split
  next claimed =>
    have kept : ((manager.removeDir job.outputDir removed).getD manager.dirs).Closed ∧
        Keeps id manager.dirs ((manager.removeDir job.outputDir removed).getD manager.dirs) := by
      cases isRemoved : manager.removeDir job.outputDir removed with
      | none => exact ⟨sound.closed, Grows.refl.keeps id⟩
      | some dirs =>
          rcases removeDir_spec isRemoved (own.claimed claimed) sound.closed with ⟨closed, keeps, -⟩
          exact ⟨closed, keeps⟩
    have worked : Worked id manager { manager with
        dirs := (manager.removeDir job.outputDir removed).getD manager.dirs
        released := manager.released ++ [manager.dirs.filesUnder job.outputDir] }
          { job with outputDir := outputDir, outputDirClaimed := false } :=
      ⟨sound.toShared.release isIssued kept.1 kept.2 (empty claimed),
        { Frame.refl id manager with dirs := kept.2 },
        idleJob _ rfl rfl rfl rfl, rfl⟩
    exact worked.sound sound isIssued
  · have worked : Worked id manager manager
        { job with outputDir := outputDir, outputDirClaimed := false } :=
      ⟨sound.toShared, Frame.refl id manager, idleJob _ rfl rfl rfl rfl, rfl⟩
    exact worked.sound sound isIssued

theorem Sound.releaseEmpty (sound : Sound manager) (isJob : manager.jobs.lookup id = some job)
    (removed : Bool) :
    Worked id manager (manager.releaseEmpty job removed).1
      { (manager.releaseEmpty job removed).2 with moved := true } := by
  have own := sound.jobs id job isJob
  have isIssued := sound.issued_of_lookup isJob
  have moved : Worked id manager manager { job with moved := true } :=
    ⟨sound.toShared, Frame.refl id manager, own.congr rfl rfl rfl nofun, rfl⟩
  rw [QueueManager.releaseEmpty]
  split
  next claimed =>
    split
    next dirs isRemoved =>
      rcases removeDir_spec isRemoved (own.claimed claimed) sound.closed with ⟨closed, keeps, empty⟩
      refine ⟨sound.toShared.release isIssued closed keeps empty,
        { Frame.refl id manager with dirs := keeps }, ?_, rfl⟩
      exact ⟨nofun, nofun, nofun, own.snapshots⟩
    · exact moved
  · exact moved

theorem Worked.produce (worked : Worked id manager manager' job) (isIssued : id ∈ manager.issued)
    (claimed : job.outputDirClaimed = true) (names : List String) :
    Worked id manager
      (names.foldl (fun manager name => manager.produce id job.outputDir name) manager') job := by
  induction names generalizing manager' with
  | nil => exact worked
  | cons name names ih =>
      rw [List.foldl_cons]
      apply ih
      exact ⟨worked.shared.produce (worked.issued.symm ▸ isIssued) name,
        worked.frame.trans (frame_produce id _ name),
        worked.own.produce worked.shared (fun _ => ⟨claimed, rfl⟩) name, worked.issued⟩

theorem Sound.moveFiles (sound : Sound manager) (isJob : manager.jobs.lookup id = some job)
    (claimed : job.outputDirClaimed = true) (created : Bool) (names : List String) :
    (manager.moveFiles id job created names).2 = job ∧
      Worked id manager (manager.moveFiles id job created names).1 job := by
  have isIssued := sound.issued_of_lookup isJob
  have same : manager.claimOutputDir id job created = (manager, job) := if_pos claimed
  rw [QueueManager.moveFiles, same]
  refine ⟨rfl, ?_⟩
  have grows : Grows manager.dirs (manager.dirs.createDirAll job.outputDir) :=
    DirTree.grows_createDirAll
  have frame : Frame id manager
      { manager with dirs := manager.dirs.createDirAll job.outputDir } :=
    { Frame.refl id manager with dirs := grows.keeps id }
  have made : Worked id manager
      { manager with dirs := manager.dirs.createDirAll job.outputDir } job := by
    refine ⟨?_, frame, (sound.jobs id job isJob).grow sound.toShared grows, rfl⟩
    exact {
      closed := DirTree.closed_createDirAll sound.closed _
      present := sound.toShared.present_of_keeps (grows.keeps id)
      issued := sound.toShared.issued_of_frame frame rfl isIssued
      claims := sound.claims
      whole := sound.whole
      released := sound.released }
  exact made.produce isIssued claimed names

theorem Worked.recordHistory (worked : Worked id manager manager' job)
    (isIssued : id ∈ manager.issued) {completed : Bool}
    (whole : completed = true → ∀ product ∈ manager'.produced, product.job = id →
      product.dir = job.outputDir) (inserted queueRemoved : Bool) :
    Worked id manager (manager'.recordHistory id job completed inserted queueRemoved)
      { job with moved := true } := by
  have frame : Frame id manager' (manager'.recordHistory id job completed inserted queueRemoved) :=
    { Frame.refl id manager' with
      rows := by
        intro other differs
        rw [QueueManager.recordHistory]
        split
        · exact AList.lookup_erase_ne differs
        · rfl
      writes := by
        rintro other dir differs (isExtractor | isPipeline)
        · exact .inl isExtractor
        · exact .inr ((AList.lookup_erase_ne differs).symm.trans isPipeline) }
  refine ⟨?_, worked.frame.trans frame, ?_, worked.issued⟩
  · exact {
      closed := worked.shared.closed
      present := worked.shared.present
      issued := worked.shared.issued_of_frame frame rfl (worked.issued.symm ▸ isIssued)
      claims := worked.shared.claims
      whole := by
        intro entry isEntry isCompleted
        rw [QueueManager.recordHistory] at isEntry
        dsimp only at isEntry
        split at isEntry
        · rcases List.mem_cons.mp isEntry with rfl | isOld
          · exact fun product isProduct isOwn => ⟨whole isCompleted product isProduct isOwn,
              worked.shared.present product isProduct⟩
          · exact worked.shared.whole entry isOld isCompleted
        · exact worked.shared.whole entry isEntry isCompleted
      released := worked.shared.released }
  · exact ⟨worked.own.claimed, nofun, nofun, worked.own.snapshots⟩

section

variable (sound : Sound manager)

include sound

theorem Sound.moveToHistory (isJob : manager.jobs.lookup id = some job)
    (loaded : job.nzbData = true) (unmoved : job.moved = false) {completed : Bool}
    (running : completed = true → id ∈ manager.pipelines) (created : Bool) (names : List String)
    (removed inserted queueRemoved : Bool) :
    Sound (manager.moveToHistory id job completed created names removed inserted queueRemoved) := by
  have own := sound.jobs id job isJob
  have isIssued := sound.issued_of_lookup isJob
  rw [QueueManager.moveToHistory]
  cases completed with
  | true =>
      rcases Option.isSome_iff_exists.mp (AList.lookup_isSome.mpr (running rfl)) with ⟨dir, isDir⟩
      have claimed := (own.writes unmoved dir (.inr isDir)).1
      rcases sound.moveFiles isJob claimed created names with ⟨same, worked⟩
      rw [if_pos rfl]
      split
      next emptied job' isMoved =>
      rw [isMoved] at same worked
      cases same
      refine (worked.recordHistory isIssued (fun _ product isProduct isOwn => ?_) inserted
        queueRemoved).sound sound isIssued
      rcases worked.own.produced unmoved product isProduct isOwn with awaited | pending
      · exact awaited.2.symm
      · cases claimed.symm.trans pending.1
  | false =>
      have worked := sound.releaseEmpty isJob removed
      rw [if_neg Bool.false_ne_true]
      split
      next emptied job' isMoved =>
      rw [isMoved] at worked
      have failed : false = true → ∀ product ∈ emptied.produced, product.job = id →
          product.dir = job'.outputDir := nofun
      exact (worked.recordHistory isIssued failed inserted queueRemoved).sound sound isIssued

theorem Sound.launch (isJob : manager.jobs.lookup id = some job) {read : Bool}
    (careful : manager.Careful (.launch id read)) : Sound (manager.launch id job read) := by
  have own := sound.jobs id job isJob
  have isIssued := sound.issued_of_lookup isJob
  rw [QueueManager.launch]
  dsimp only
  split
  next claimed =>
    have worked : Worked id manager manager { job with nzbData := true } := by
      refine ⟨sound.toShared, Frame.refl id manager,
        ⟨own.claimed, own.writes, ?_, fun _ _ => rfl⟩, rfl⟩
      intro unmoved product isProduct isOwn
      rcases own.produced unmoved product isProduct isOwn with awaited | pending
      · exact .inl awaited
      · cases claimed.symm.trans pending.1
    exact worked.sound sound isIssued
  next unclaimed =>
    rw [Bool.not_eq_true] at unclaimed
    rcases careful job isJob unclaimed with ⟨made, isRead⟩
    have idle : job.moved = false → ∀ dir, ¬manager.Writes id dir := by
      intro unmoved dir isWriting
      cases unclaimed.symm.trans (own.writes unmoved dir isWriting).1
    have awaited : job.moved = false → ∀ product ∈ manager.produced, product.job = id →
        restoreClaimedOutputDir manager.dirs job.outputDir (manager.checkpoint id read) =
          some product.dir := by
      intro unmoved product isProduct isOwn
      rw [isRead product isProduct isOwn]
      rcases own.produced unmoved product isProduct isOwn with awaited | pending
      · cases unclaimed.symm.trans awaited.1
      · exact pending.2.2
    split
    next claimed restored =>
      have worked : Worked id manager manager
          { job with nzbData := true, outputDir := claimed, outputDirClaimed := true } := by
        refine ⟨sound.toShared, Frame.refl id manager, ⟨fun _ => made claimed restored,
          fun unmoved dir isWriting => absurd isWriting (idle unmoved dir), ?_, fun _ _ => rfl⟩,
          rfl⟩
        intro unmoved product isProduct isOwn
        have same := restored.symm.trans (awaited unmoved product isProduct isOwn)
        exact .inl ⟨rfl, Option.some_inj.mp same⟩
      exact worked.sound sound isIssued
    next absent =>
      have worked : Worked id manager manager { job with nzbData := true } := by
        refine ⟨sound.toShared, Frame.refl id manager,
          ⟨own.claimed, own.writes, ?_, fun _ _ => rfl⟩, rfl⟩
        intro unmoved product isProduct isOwn
        cases absent.symm.trans (awaited unmoved product isProduct isOwn)
      exact worked.sound sound isIssued

theorem Sound.addJob (fresh : id ∉ manager.issued) (outputDir : Path) :
    Sound (manager.addJob id outputDir) := by
  have frame : Frame id manager (manager.addJob id outputDir) :=
    { Frame.refl id manager with
      jobs := fun _ differs => AList.lookup_insert_ne differs
      rows := fun _ differs => AList.lookup_insert_ne differs }
  have shared : Shared (manager.addJob id outputDir) :=
    { closed := sound.closed
      present := sound.present
      issued := by
        intro other known
        by_cases same : other = id
        · subst same
          exact List.mem_cons_self
        · exact List.mem_cons_of_mem _ (sound.issued other (frame.known same known))
      claims := sound.claims
      whole := sound.whole
      released := sound.released }
  apply sound.frame shared frame
  intro job isJob
  rw [QueueManager.addJob, AList.lookup_insert] at isJob
  cases isJob
  refine ⟨nofun, fun _ dir isWriting => ?_, fun _ product isProduct isOwn => ?_, fun _ _ => rfl⟩
  · exact absurd (sound.issued id (.inr (.inr (.inr (.inl ⟨dir, isWriting⟩))))) fresh
  · exact absurd (sound.issued id (.inr (.inr (.inl ⟨product, isProduct, isOwn⟩)))) fresh

theorem Sound.checkpoints (isIssued : id ∈ manager.issued)
    (rows : Registry JobId Row) (snapshots : List (JobId × Option Path))
    (frame : Frame id manager { manager with rows := rows, snapshots := snapshots })
    (own : ∀ job, manager.jobs.lookup id = some job →
      JobSound { manager with rows := rows, snapshots := snapshots } id job) :
    Sound { manager with rows := rows, snapshots := snapshots } := by
  have shared : Shared { manager with rows := rows, snapshots := snapshots } :=
    { closed := sound.closed
      present := sound.present
      issued := sound.toShared.issued_of_frame frame rfl isIssued
      claims := sound.claims
      whole := sound.whole
      released := sound.released }
  exact sound.frame shared frame own

theorem Sound.snapshot (isJob : manager.jobs.lookup id = some job)
    (loaded : job.nzbData = true) (claimed : Option Path) :
    Sound { manager with snapshots := (id, claimed) :: manager.snapshots } := by
  have frame : Frame id manager { manager with
      rows := manager.rows, snapshots := (id, claimed) :: manager.snapshots } :=
    { Frame.refl id manager with
      snapshots := by
        intro other held differs isSnapshot
        rcases List.mem_cons.mp isSnapshot with isNew | isOld
        · cases isNew
          exact absurd rfl differs
        · exact isOld }
  apply sound.checkpoints (sound.issued_of_lookup isJob) manager.rows _ frame
  intro found isFound
  cases isJob.symm.trans isFound
  have own := sound.jobs id job isJob
  exact ⟨own.claimed, own.writes, own.produced, fun _ _ => loaded⟩

theorem Sound.store {claimed : Option Path} (isSnapshot : (id, claimed) ∈ manager.snapshots)
    (stored : Bool) : Sound (manager.store id claimed stored) := by
  have rows : ∀ other, other ≠ id →
      (manager.store id claimed stored).rows.lookup other = manager.rows.lookup other := by
    intro other differs
    rw [QueueManager.store]
    dsimp only
    split
    · rw [Registry.lookup_modify, if_neg differs]
    · rfl
  have frame : Frame id manager (manager.store id claimed stored) :=
    { Frame.refl id manager with
      rows := rows
      snapshots := fun _ _ _ isHeld => List.mem_of_mem_erase isHeld }
  have isIssued := sound.issued id (.inr (.inr (.inr (.inr ⟨claimed, isSnapshot⟩))))
  apply sound.checkpoints isIssued _ _ frame
  intro job isJob
  have own := sound.jobs id job isJob
  have loaded := own.snapshots claimed isSnapshot
  refine ⟨own.claimed, own.writes, fun unmoved product isProduct isOwn => ?_,
    fun held isHeld => own.snapshots held (List.mem_of_mem_erase isHeld)⟩
  rcases own.produced unmoved product isProduct isOwn with awaited | pending
  · exact .inl awaited
  · cases loaded.symm.trans pending.2.1

theorem Sound.extractorEnds (id : JobId) (dir : Path) :
    Sound { manager with extractors := manager.extractors.erase (id, dir) } := by
  have writes : ∀ other target, QueueManager.Writes
      { manager with extractors := manager.extractors.erase (id, dir) } other target →
        manager.Writes other target := by
    rintro other target (isExtractor | isPipeline)
    · exact .inl (List.mem_of_mem_erase isExtractor)
    · exact .inr isPipeline
  have shared : Shared { manager with extractors := manager.extractors.erase (id, dir) } :=
    { closed := sound.closed
      present := sound.present
      issued := by
        rintro other (isJob | isRow | isProduct | ⟨target, isWriting⟩ | isSnapshot)
        · exact sound.issued other (.inl isJob)
        · exact sound.issued other (.inr (.inl isRow))
        · exact sound.issued other (.inr (.inr (.inl isProduct)))
        · have isOld := writes other target isWriting
          exact sound.issued other (.inr (.inr (.inr (.inl ⟨target, isOld⟩))))
        · exact sound.issued other (.inr (.inr (.inr (.inr isSnapshot))))
      claims := sound.claims
      whole := sound.whole
      released := sound.released }
  refine ⟨shared, fun other job isJob => ?_⟩
  have own := sound.jobs other job isJob
  exact ⟨own.claimed, fun unmoved target isWriting =>
    own.writes unmoved target (writes other target isWriting), own.produced, own.snapshots⟩

theorem Sound.abortUnpack (isJob : manager.jobs.lookup id = some job) :
    Sound (manager.setJob id { job with directUnpacker := false }) := by
  have worked : Worked id manager manager { job with directUnpacker := false } :=
    ⟨sound.toShared, Frame.refl id manager, (sound.jobs id job isJob).congr rfl rfl rfl
      fun unmoved => unmoved, rfl⟩
  exact worked.sound sound (sound.issued_of_lookup isJob)

theorem Sound.leave (isJob : manager.jobs.lookup id = some job) :
    Sound { manager with jobs := manager.jobs.erase id } := by
  have frame : Frame id manager { manager with jobs := manager.jobs.erase id } :=
    { Frame.refl id manager with
      jobs := fun _ differs => AList.lookup_erase_ne differs }
  have shared : Shared { manager with jobs := manager.jobs.erase id } :=
    { closed := sound.closed
      present := sound.present
      issued := sound.toShared.issued_of_frame frame rfl (sound.issued_of_lookup isJob)
      claims := sound.claims
      whole := sound.whole
      released := sound.released }
  apply sound.frame shared frame
  intro found isFound
  dsimp only at isFound
  rw [AList.lookup_erase] at isFound
  cases isFound

theorem Sound.userMakes (dir : Path) (names : List String) :
    Sound (manager.userMakes dir names) := by
  have written : ∀ tree : Tree, tree.Closed →
      (names.foldl (fun dirs name => dirs.write dir ⟨none, name⟩) tree).Closed ∧
        Grows tree (names.foldl (fun dirs name => dirs.write dir ⟨none, name⟩) tree) := by
    induction names with
    | nil => exact fun tree closed => ⟨closed, Grows.refl⟩
    | cons name names ih =>
        intro tree closed
        rcases ih (tree.write dir ⟨none, name⟩) (DirTree.closed_write closed _) with
          ⟨closed', grows⟩
        exact ⟨closed', (DirTree.grows_write _ _).trans grows⟩
  rcases written (manager.dirs.createDirAll dir) (DirTree.closed_createDirAll sound.closed dir) with
    ⟨closed, grows⟩
  have grown : Grows manager.dirs (manager.userMakes dir names).dirs :=
    DirTree.grows_createDirAll.trans grows
  refine ⟨?_, fun id job isJob => (sound.jobs id job isJob).grow sound.toShared grown⟩
  exact {
    closed := closed
    present := fun product isProduct => by
      rcases sound.present product isProduct with ⟨found, isFound, isFile⟩
      rcases grown _ found isFound with ⟨found', isFound', -, files⟩
      exact ⟨found', isFound', files isFile⟩
    issued := sound.issued
    claims := sound.claims
    whole := sound.whole
    released := sound.released }

theorem Sound.restoreFromDb {listed : Bool} {active read : List JobId}
    (careful : manager.Careful (.restart listed active read)) :
    Sound (manager.restoreFromDb listed active read) := by
  have isRow : ∀ id job, (manager.restoreFromDb listed active read).jobs.lookup id = some job →
      listed = true ∧ ∃ row, manager.rows.lookup id = some row ∧
        job = manager.restored active read id row := by
    intro id job isJob
    rw [QueueManager.restoreFromDb] at isJob
    dsimp only at isJob
    split at isJob
    next isListed =>
      rw [Registry.lookup_mapValues] at isJob
      rcases Option.map_eq_some_iff.mp isJob with ⟨row, isRow, rfl⟩
      exact ⟨isListed, row, isRow, rfl⟩
    · cases isJob
  refine ⟨?_, fun id job isJob => ?_⟩
  · exact {
      closed := sound.closed
      present := sound.present
      issued := by
        rintro id (isJob | isOld | isProduct | ⟨dir, isExtractor | isPipeline⟩ |
          ⟨claimed, isSnapshot⟩)
        · rcases Option.isSome_iff_exists.mp (AList.lookup_isSome.mpr isJob) with ⟨job, isJob⟩
          rcases isRow id job isJob with ⟨-, row, isRow, -⟩
          exact sound.issued id (.inr (.inl (AList.lookup_isSome.mp (Option.isSome_of_mem isRow))))
        · exact sound.issued id (.inr (.inl isOld))
        · exact sound.issued id (.inr (.inr (.inl isProduct)))
        · cases isExtractor
        · cases isPipeline
        · cases isSnapshot
      claims := sound.claims
      whole := sound.whole
      released := sound.released }
  · rcases isRow id job isJob with ⟨isListed, row, isRow, rfl⟩
    rcases careful isListed id row isRow with ⟨named, made⟩
    have checkpoint : ∀ isRead, manager.checkpoint id isRead =
        if isRead then row.checkpoint else none := by
      intro isRead
      rw [QueueManager.checkpoint, isRow]
      rfl
    have idle : ∀ dir, ¬(manager.restoreFromDb listed active read).Writes id dir := by
      rintro dir (isExtractor | isPipeline)
      · cases isExtractor
      · cases isPipeline
    rw [QueueManager.restored]
    split
    next isActive =>
      split
      next claimed restored =>
        have isRead : id ∈ read := by
          by_contra unread
          rw [decide_eq_false unread, checkpoint] at restored
          cases restored
        rw [decide_eq_true isRead, checkpoint] at restored
        refine ⟨fun _ => made claimed isActive isRead restored,
          fun _ dir isWriting => absurd isWriting (idle dir), fun _ product isProduct isOwn => ?_,
          fun _ _ => rfl⟩
        have same := restored.symm.trans (named product isProduct isOwn).1
        exact .inl ⟨rfl, Option.some_inj.mp same⟩
      next absent =>
        refine ⟨nofun, fun _ dir isWriting => absurd isWriting (idle dir),
          fun _ product isProduct isOwn => ?_, fun _ _ => rfl⟩
        rcases named product isProduct isOwn with ⟨restored, isRead⟩
        rw [decide_eq_true (isRead isActive), checkpoint] at absent
        cases absent.symm.trans restored
    · refine ⟨nofun, fun _ dir isWriting => absurd isWriting (idle dir),
        fun _ product isProduct isOwn => ?_, nofun⟩
      refine .inr ⟨rfl, rfl, ?_⟩
      have same : (manager.restoreFromDb listed active read).checkpoint id true =
          manager.checkpoint id true := rfl
      rw [same, checkpoint]
      exact (named product isProduct isOwn).1

end

end Rustnzb.Web.OutputDirs
