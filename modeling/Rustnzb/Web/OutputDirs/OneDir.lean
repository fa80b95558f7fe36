import Rustnzb.Web.OutputDirs.Claims

/-!
# Runs of careful sections

Every section keeps the invariant of the reservations, and so does a run.
-/

namespace Rustnzb.Web.OutputDirs

open Dispatch (JobId)
open Lib (Run execute)

variable {manager manager' : QueueManager} {label : Label}

theorem Sound.keep (sound : Sound manager) (careful : manager.Careful label)
    (move : QueueManager.Step manager label manager') : Sound manager' := by
  rw [QueueManager.Step] at move
  cases label with
  | addJob id outputDir =>
      rw [QueueManager.next] at move
      split at move
      · cases move
      next fresh =>
        cases move
        exact sound.addJob fresh outputDir
  | launch id read =>
      rcases Option.bind_eq_some_iff.mp move with ⟨job, isJob, move⟩
      split at move
      · cases move
      · cases move
        exact sound.launch isJob careful
  | directUnpack id created found =>
      rcases Option.bind_eq_some_iff.mp move with ⟨job, isJob, move⟩
      split at move
      · cases move
      next guard =>
        simp only [Bool.or_eq_true, Bool.not_eq_true', not_or, Bool.not_eq_true,
          Bool.not_eq_false] at guard
        cases move
        exact sound.directUnpack isJob guard.1.1.1 guard.1.2 (careful job isJob)
  | extract id dir name =>
      rw [QueueManager.next] at move
      split at move
      next isExtractor =>
        cases move
        exact sound.produce (.inl isExtractor) name
      · cases move
  | extractorEnds id dir =>
      cases move
      exact sound.extractorEnds id dir
  | abortUnpack id =>
      rcases Option.map_eq_some_iff.mp move with ⟨job, isJob, rfl⟩
      exact sound.abortUnpack isJob
  | snapshot id =>
      rcases Option.bind_eq_some_iff.mp move with ⟨job, isJob, move⟩
      split at move
      next loaded =>
        cases move
        exact sound.snapshot isJob loaded _
      · cases move
  | store id claimed stored =>
      rw [QueueManager.next] at move
      split at move
      next isSnapshot =>
        cases move
        exact sound.store isSnapshot stored
      · cases move
  | retarget id outputDir removed =>
      rcases Option.map_eq_some_iff.mp move with ⟨job, isJob, rfl⟩
      rcases careful job isJob with ⟨empty, idle⟩
      exact sound.retarget isJob empty idle outputDir removed
  | onJobFinished id created =>
      rcases Option.bind_eq_some_iff.mp move with ⟨job, isJob, move⟩
      split at move
      · cases move
      next guard =>
        simp only [Bool.or_eq_true, Bool.not_eq_true', not_or, Bool.not_eq_true,
          Bool.not_eq_false] at guard
        cases move
        exact sound.onJobFinished isJob guard.1.1 guard.1.2 (careful job isJob)
  | pipelineExtract id name =>
      rcases Option.map_eq_some_iff.mp move with ⟨dir, isPipeline, rfl⟩
      exact sound.produce (.inr isPipeline) name
  | moveToHistory id completed created names removed inserted queueRemoved =>
      rcases Option.bind_eq_some_iff.mp move with ⟨job, isJob, move⟩
      split at move
      · cases move
      next guard =>
        simp only [Bool.or_eq_true, Bool.and_eq_true, Bool.not_eq_true', not_or, not_and,
          Bool.not_eq_true, Bool.not_eq_false, decide_eq_true_eq, not_not] at guard
        cases move
        exact sound.moveToHistory isJob guard.1.1 guard.1.2 guard.2 created names removed inserted
          queueRemoved
  | leave id =>
      rcases Option.bind_eq_some_iff.mp move with ⟨job, isJob, move⟩
      split at move
      · cases move
        exact sound.leave isJob
      · cases move
  | restart listed active read =>
      cases move
      exact sound.restoreFromDb careful
  | userMakes dir names =>
      rw [QueueManager.next] at move
      split at move
      · cases move
      · cases move
        exact sound.userMakes dir names

theorem sound_init : Sound QueueManager.init where
  closed dir isDir := absurd isDir (AList.notMem_empty dir)
  present _ isProduct := by cases isProduct
  issued id known := by
    rcases known with isJob | isRow | ⟨product, isProduct, -⟩ | ⟨dir, isExtractor | isPipeline⟩ |
      ⟨claimed, isSnapshot⟩
    · exact absurd isJob (AList.notMem_empty id)
    · exact absurd isRow (AList.notMem_empty id)
    · cases isProduct
    · cases isExtractor
    · cases isPipeline
    · cases isSnapshot
  claims _ isClaim := by cases isClaim
  whole _ isEntry := by cases isEntry
  released _ isReleased := by cases isReleased
  jobs _ _ isJob := by cases isJob

theorem Sound.oneOutputDir (sound : Sound manager) : manager.OneOutputDir where
  apart first second dir isFirst isSecond _ _ := by
    rcases isFirst with ⟨job, isJob, claimed, rfl⟩
    rcases isSecond with ⟨other, isOther, claimed', same⟩
    rcases (sound.jobs first job isJob).claimed claimed with ⟨found, isFound, maker⟩
    rcases (sound.jobs second other isOther).claimed claimed' with ⟨found', isFound', maker'⟩
    rw [same] at isFound'
    cases isFound.symm.trans isFound'
    exact Option.some_inj.mp (maker.symm.trans maker')
  made id dir isClaimed _ := by
    rcases isClaimed with ⟨job, isJob, claimed, rfl⟩
    exact (sound.jobs id job isJob).claimed claimed
  empty := sound.claims
  whole := sound.whole
  released := sound.released

namespace QueueManager

/-- In a careful run each job has one output directory of its own, and its files are there. -/
theorem one_output_dir {labels : List Label} (run : Run Step init labels manager)
    (careful : Run.Always Step init (fun _ manager label => manager.Careful label) labels) :
    manager.OneOutputDir := by
  have sound := run.invariant_of_steps (fun _ manager => Sound manager) careful sound_init
    fun _ _ _ _ _ sound careful move => sound.keep careful move
  exact sound.oneOutputDir

def isMadeBy (tree : Tree) (id : JobId) (dir : Path) : Bool :=
  (tree.lookup dir).any fun found => found.maker = some id

def reserves (manager : QueueManager) (job : JobState) (created : Bool) : Bool :=
  job.outputDirClaimed || created && (candidateDir manager.dirs job.outputDir).isSome

def producesNothing (manager : QueueManager) (id : JobId) : Bool :=
  manager.produced.all fun product => product.job ≠ id

def isCareful (manager : QueueManager) : Label → Bool
  | .directUnpack id created found =>
      (manager.jobs.lookup id).all fun job => !found || manager.reserves job created
  | .onJobFinished id created =>
      (manager.jobs.lookup id).all fun job => manager.reserves job created
  | .retarget id _ _ =>
      (manager.jobs.lookup id).all fun job =>
        (!job.outputDirClaimed || (manager.dirs.filesUnder job.outputDir).isEmpty) &&
          (job.moved || manager.producesNothing id &&
            (manager.extractors.all fun extractor => extractor.1 ≠ id) && id ∉ manager.pipelines)
  | .launch id read =>
      (manager.jobs.lookup id).all fun job =>
        job.outputDirClaimed ||
          ((restoreClaimedOutputDir manager.dirs job.outputDir (manager.checkpoint id read)).all
            fun dir => isMadeBy manager.dirs id dir) && (read || manager.producesNothing id)
  | .restart listed active read =>
      !listed || manager.rows.entries.all fun entry =>
        let restored :=
          restoreClaimedOutputDir manager.dirs entry.2.outputDir entry.2.checkpoint
        (manager.produced.all fun product => product.job ≠ entry.1 ||
          restored = some product.dir && (entry.1 ∉ active || entry.1 ∈ read)) &&
          (entry.1 ∉ active || entry.1 ∉ read ||
            restored.all fun dir => isMadeBy manager.dirs entry.1 dir)
  | _ => true

theorem madeBy_of_isMadeBy {tree : Tree} {id : JobId} {dir : Path}
    (isMade : isMadeBy tree id dir = true) : MadeBy tree id dir := by
  rcases (Option.any_eq_true_iff_get _ _).mp isMade with ⟨isSome, maker⟩
  exact ⟨_, (Option.some_get isSome).symm, of_decide_eq_true maker⟩

theorem reserves_of_reserves {job : JobState} {created : Bool}
    (isReserved : manager.reserves job created = true) : manager.Reserves job created := by
  rw [reserves, Bool.or_eq_true, Bool.and_eq_true] at isReserved
  exact isReserved

theorem ne_of_producesNothing {id : JobId} (nothing : manager.producesNothing id = true) :
    ∀ product ∈ manager.produced, product.job ≠ id :=
  fun product isProduct => of_decide_eq_true (List.all_eq_true.mp nothing product isProduct)

theorem careful_of_isCareful (isCareful : manager.isCareful label = true) :
    manager.Careful label := by
  cases label with
  | directUnpack id created found =>
      intro job isJob isFound
      rw [QueueManager.isCareful, isJob, Option.all_some, isFound, Bool.not_true,
        Bool.false_or] at isCareful
      exact reserves_of_reserves isCareful
  | onJobFinished id created =>
      intro job isJob
      rw [QueueManager.isCareful, isJob, Option.all_some] at isCareful
      exact reserves_of_reserves isCareful
  | retarget id outputDir removed =>
      intro job isJob
      simp only [QueueManager.isCareful, isJob, Option.all_some, Bool.and_eq_true, Bool.or_eq_true,
        Bool.not_eq_true', List.isEmpty_iff, List.all_eq_true, decide_eq_true_eq] at isCareful
      refine ⟨fun claimed => isCareful.1.resolve_left (by simp [claimed]), fun unmoved => ?_⟩
      rcases isCareful.2.resolve_left (by simp [unmoved]) with ⟨⟨nothing, unwritten⟩, idle⟩
      refine ⟨ne_of_producesNothing nothing, ?_⟩
      rintro dir (isExtractor | isPipeline)
      · exact unwritten _ isExtractor rfl
      · exact idle (AList.lookup_isSome.mp (Option.isSome_of_mem isPipeline))
  | launch id read =>
      intro job isJob unclaimed
      simp only [QueueManager.isCareful, isJob, Option.all_some, unclaimed, Bool.false_or,
        Bool.and_eq_true, Bool.or_eq_true] at isCareful
      refine ⟨fun dir restored => ?_, fun product isProduct isOwn => ?_⟩
      · rw [restored, Option.all_some] at isCareful
        exact madeBy_of_isMadeBy isCareful.1
      · exact isCareful.2.resolve_right fun nothing =>
          ne_of_producesNothing nothing product isProduct isOwn
  | restart listed active read =>
      intro isListed id row isRow
      simp only [QueueManager.isCareful, isListed, Bool.not_true, Bool.false_or,
        List.all_eq_true] at isCareful
      have entry := isCareful ⟨id, row⟩ (AList.mem_lookup_iff.mp isRow)
      simp only [Bool.and_eq_true, Bool.or_eq_true, List.all_eq_true, decide_eq_true_eq] at entry
      refine ⟨fun product isProduct isOwn => ?_, fun dir isActive isRead restored => ?_⟩
      · rcases (entry.1 product isProduct).resolve_left (not_not.mpr isOwn) with ⟨restored, isRead⟩
        exact ⟨restored, fun isActive => isRead.resolve_left (not_not.mpr isActive)⟩
      · have made := entry.2.resolve_left (not_or.mpr ⟨not_not.mpr isActive, not_not.mpr isRead⟩)
        rw [restored, Option.all_some] at made
        exact madeBy_of_isMadeBy made
  | _ => trivial

def carefulNext (manager : QueueManager) (label : Label) : Option QueueManager :=
  if manager.isCareful label then manager.next label else none

theorem of_carefulNext (moved : manager.carefulNext label = some manager') :
    Step manager label manager' ∧ manager.Careful label := by
  rw [carefulNext] at moved
  split at moved
  next isCareful => exact ⟨moved, careful_of_isCareful isCareful⟩
  · cases moved

theorem exists_run {labels : List Label} {goal : QueueManager → Prop}
    (executed : ∃ manager ∈ execute next init labels, goal manager) :
    ∃ manager, Run Step init labels manager ∧ goal manager := by
  rcases executed with ⟨manager, isManager, isGoal⟩
  exact ⟨manager, Run.of_execute (fun _ _ _ moved => moved) Run.start isManager, isGoal⟩

def first : JobId := "11111111-1111-4111-8111-111111111111"

def second : JobId := "22222222-2222-4222-8222-222222222222"

def target (name : String) : Path := ["complete", "tv", name]

def unpacking (id : JobId) : List Label := [.addJob id (target "show"), .directUnpack id true true]

def finishing (id : JobId) : List Label :=
  [.onJobFinished id true, .moveToHistory id true true ["show.nfo"] false true true]

/-- The user has a directory of this name. The process stops in the middle of the extraction, after
the checkpoint. -/
def restarted : List Label :=
  ([.userMakes (target "show") ["notes"]] : List Label) ++ unpacking first ++
    ([.extract first (target "show.1") "show.mkv", .snapshot first,
      .store first (some (target "show.1")) true, .restart true [first] [first]] : List Label) ++
    finishing first

theorem one_output_dir_restarted : ∃ manager, Run Step init restarted manager ∧
    manager.OneOutputDir := by
  have executed : (execute carefulNext init restarted).isSome := by decide
  rcases Option.isSome_iff_exists.mp executed with ⟨manager, isManager⟩
  have moves : ∀ manager label manager', carefulNext manager label = some manager' →
      Step manager label manager' ∧ manager.Careful label :=
    fun _ _ _ moved => of_carefulNext moved
  rcases Run.always_of_execute (fun _ _ _ _ one other => Option.some_inj.mp (one.symm.trans other))
    moves Run.start Run.Always.nil isManager with ⟨run, careful⟩
  exact ⟨manager, run, one_output_dir run careful⟩

def renamed : List Label :=
  unpacking first ++ [.extract first (target "show") "show.mkv",
    .retarget first (target "other") true] ++ finishing first

def madeAnew : List Label :=
  unpacking first ++ ([.snapshot first, .store first (some (target "show")) true,
    .retarget first (target "other") true] : List Label) ++ unpacking second ++
      ([.snapshot second, .store second (some (target "show")) true,
        .restart true [first, second] [first, second]] : List Label)

def stopped : List Label :=
  unpacking first ++ [.extract first (target "show") "show.mkv", .restart true [first] [first]] ++
    finishing first

/-- Some file of a completed job is not in the directory of its row. -/
def isSplit (manager : QueueManager) : Bool :=
  manager.history.any fun entry => entry.completed && entry.produced.any fun product =>
    product.job = entry.id && product.dir ≠ entry.outputDir

theorem exists_not_whole (isSplit : manager.isSplit = true) :
    ∃ entry ∈ manager.history, entry.completed = true ∧ ¬entry.Whole := by
  rcases List.any_eq_true.mp isSplit with ⟨entry, isEntry, elsewhere⟩
  rcases Bool.and_eq_true_iff.mp elsewhere with ⟨completed, elsewhere⟩
  rcases List.any_eq_true.mp elsewhere with ⟨product, isProduct, elsewhere⟩
  rw [Bool.and_eq_true, decide_eq_true_eq, decide_eq_true_eq] at elsewhere
  exact ⟨entry, isEntry, completed,
    fun whole => elsewhere.2 (whole product isProduct elsewhere.1).1⟩

/-- Nothing fails when a job is renamed while it is unpacked: the file is left in the directory that
was given up. After a restart the checkpoint gives the directory that the renamed job had given up
back to it, although another job has made it anew. And a process that stops between the reservation
and the checkpoint leaves the file behind. -/
theorem not_one_output_dir :
    (∃ manager, Run Step init renamed manager ∧
      (∃ entry ∈ manager.history, entry.completed = true ∧ ¬entry.Whole) ∧
        ∃ files ∈ manager.released, files ≠ []) ∧
    (∃ manager, Run Step init madeAnew manager ∧ ∃ one other dir, one ≠ other ∧
      manager.Claims one dir ∧ manager.Claims other dir ∧ manager.history = []) ∧
    ∃ manager, Run Step init stopped manager ∧
      ∃ entry ∈ manager.history, entry.completed = true ∧ ¬entry.Whole := by
  refine ⟨?_, ?_, ?_⟩
  · have left : ∃ manager ∈ execute next init renamed, manager.isSplit = true ∧
        ∃ files ∈ manager.released, files ≠ [] := by decide
    rcases exists_run left with ⟨manager, run, isSplit, released⟩
    exact ⟨manager, run, exists_not_whole isSplit, released⟩
  · have both : ∃ manager ∈ execute next init madeAnew,
        manager.jobs.lookup first = some ⟨target "show", true, true, false, false⟩ ∧
          manager.jobs.lookup second = some ⟨target "show", true, true, false, false⟩ ∧
            manager.history.isEmpty = true := by decide
    rcases exists_run both with ⟨manager, run, isFirst, isSecond, isEmpty⟩
    exact ⟨manager, run, first, second, target "show", by decide, ⟨_, isFirst, rfl, rfl⟩,
      ⟨_, isSecond, rfl, rfl⟩, List.isEmpty_iff.mp isEmpty⟩
  · have left : ∃ manager ∈ execute next init stopped, manager.isSplit = true := by decide
    rcases exists_run left with ⟨manager, run, isSplit⟩
    exact ⟨manager, run, exists_not_whole isSplit⟩

end QueueManager

end Rustnzb.Web.OutputDirs
