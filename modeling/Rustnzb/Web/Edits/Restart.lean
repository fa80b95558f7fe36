import Mathlib.Tactic
import Rustnzb.Web.Edits.Queue

/-!
# What a restart keeps of the queue

The table keeps what a job was admitted with and the priority last written for it; no other edit of
the user reaches it. So a restart gives back the queue as it was exactly if the edits left the
names, the categories, the target directories and the order at what they were in the first place.
-/

namespace Rustnzb.Web.Edits

open Dispatch (JobId)
open Lib (Registry Run)
open Queue (JobStatus Priority)

structure SameChoices (state after : JobState) : Prop where
  name : after.name = state.name
  category : after.category = state.category
  priority : after.priority = state.priority
  outputDir : after.outputDir = state.outputDir

namespace QueueManager

structure Ahead (manager : QueueManager) (first second : JobId) : Prop where
  order : [first, second].Sublist manager.jobOrder
  equal : manager.priorityOf first = manager.priorityOf second

/-- A restart forgets none of the user's edits. -/
structure ForgetsNone (manager next : QueueManager) : Prop where
  jobs : ∀ id state, manager.jobs.lookup id = some state →
    ∃ after, next.jobs.lookup id = some after ∧ SameChoices state after
  order : ∀ first second, manager.Ahead first second →
    [first, second].Sublist next.jobOrder

/-- The job has the columns that it was admitted with and the priority last written. -/
structure AsAdmitted (state : JobState) (admitted : Admitted) : Prop where
  name : state.name = admitted.name
  category : state.category = admitted.category
  priority : state.priority = admitted.priority
  outputDir : state.outputDir = admitted.outputDir

/-- The edits that the table does not know have come to nothing: each job is as it was admitted,
and of two jobs of equal priority the older one is further up. -/
structure Unedited (manager : QueueManager) : Prop where
  jobs : ∀ id state, manager.jobs.lookup id = some state →
    ∃ admitted, manager.admitted.lookup id = some admitted ∧ AsAdmitted state admitted
  order : ∀ first second, manager.Ahead first second →
    ∀ older, manager.jobs.lookup first = some older → ∀ younger,
      manager.jobs.lookup second = some younger → older.addedAt < younger.addedAt

structure Recorded (state : JobState) (row : Row) (admitted : Admitted) : Prop where
  name : row.name = admitted.name
  category : row.category = admitted.category
  priority : row.priority = Priority.toI32 admitted.priority
  outputDir : row.outputDir = admitted.outputDir
  addedAt : row.addedAt = state.addedAt
  unclaimed : state.outputDirClaimed = false
  checkpoint : ∀ checkpoint ∈ row.checkpoint, checkpoint.outputDir = none

def Agree : Option JobState → Option Row → Option Admitted → Prop
  | some state, some row, some admitted => Recorded state row admitted
  | none, none, none => True
  | _, _, _ => False

structure Tracked (manager : QueueManager) : Prop where
  agree : ∀ id, Agree (manager.jobs.lookup id) (manager.rows.lookup id) (manager.admitted.lookup id)
  nodup : manager.jobOrder.Nodup
  ordered : ∀ id, id ∈ manager.jobOrder ↔ id ∈ manager.rows

section Rows

theorem parsePriority_toI32 (priority : Priority) :
    parsePriority (Priority.toI32 priority) = priority := by
  cases priority <;> rfl

variable {state : JobState} {row : Row} {admitted : Admitted}

theorem Recorded.restore_outputDir (recorded : Recorded state row admitted) (held : Bool)
    (isDir : Path → Bool) : (row.restore held isDir).outputDir = row.outputDir ∧
      (row.restore held isDir).outputDirClaimed = false := by
  have noClaim : row.claimedDir isDir = none := by
    unfold Row.claimedDir
    cases isStored : row.checkpoint with
    | none => rfl
    | some checkpoint => simp [recorded.checkpoint checkpoint isStored]
  simp [Row.restore, noClaim]

theorem Recorded.restore (recorded : Recorded state row admitted) (held : Bool)
    (isDir : Path → Bool) : AsAdmitted (row.restore held isDir) admitted where
  name := recorded.name
  category := recorded.category
  priority := by
    have isPriority : (row.restore held isDir).priority = parsePriority row.priority := rfl
    rw [isPriority, recorded.priority, parsePriority_toI32]
  outputDir := (recorded.restore_outputDir held isDir).1.trans recorded.outputDir

theorem Recorded.restored (recorded : Recorded state row admitted) (held : Bool)
    (isDir : Path → Bool) : Recorded (row.restore held isDir) row admitted :=
  { recorded with
    addedAt := rfl
    unclaimed := (recorded.restore_outputDir held isDir).2 }

end Rows

section Tracking

variable {config : Config} {manager next : QueueManager} {id : JobId}

theorem tracked_init : init.Tracked where
  agree _ := trivial
  nodup := List.nodup_nil
  ordered := by simp [init]

theorem Agree.map {state : Option JobState} {row : Option Row} {admitted : Option Admitted}
    {onState : JobState → JobState} {onRow : Row → Row} {onAdmitted : Admitted → Admitted}
    (agree : Agree state row admitted)
    (recorded : ∀ now before columns, state = some now → Recorded now before columns →
      Recorded (onState now) (onRow before) (onAdmitted columns)) :
    Agree (state.map onState) (row.map onRow) (admitted.map onAdmitted) := by
  rcases state with _ | state <;> rcases row with _ | row <;> rcases admitted with _ | admitted <;>
    first
    | exact agree
    | exact recorded state row admitted rfl agree

def Changes {Value : Type} (id : JobId) (change : Value → Value)
    (registry next : Registry JobId Value) : Prop :=
  ∀ other, next.lookup other =
    if other = id then (registry.lookup other).map change else registry.lookup other

theorem changes_modify {Value : Type} (registry : Registry JobId Value)
    (change : Value → Value) : Changes id change registry (registry.modify id change) :=
  fun _ => Registry.lookup_modify change

theorem changes_same {Value : Type} (registry : Registry JobId Value) :
    Changes id (fun value => value) registry registry := by
  intro other
  simp

theorem Changes.mem_iff {Value : Type} {change : Value → Value}
    {registry following : Registry JobId Value} (changes : Changes id change registry following)
    (other : JobId) : other ∈ following ↔ other ∈ registry := by
  rw [← AList.lookup_isSome, ← AList.lookup_isSome, changes other]
  split <;> simp

section

variable (tracked : manager.Tracked)

include tracked

theorem Tracked.changed {onState : JobState → JobState} {onRow : Row → Row}
    {onAdmitted : Admitted → Admitted} (jobs : Changes id onState manager.jobs next.jobs)
    (rows : Changes id onRow manager.rows next.rows)
    (admitted : Changes id onAdmitted manager.admitted next.admitted)
    (order : next.jobOrder.Perm manager.jobOrder)
    (recorded : ∀ state row columns, manager.jobs.lookup id = some state →
      Recorded state row columns → Recorded (onState state) (onRow row) (onAdmitted columns)) :
    next.Tracked where
  agree other := by
    rw [jobs, rows, admitted]
    split
    next same =>
      subst same
      exact (tracked.agree other).map recorded
    · exact tracked.agree other
  nodup := order.nodup_iff.mpr tracked.nodup
  ordered other := by
    rw [order.mem_iff, tracked.ordered, rows.mem_iff]

theorem Tracked.modifyJob {change : JobState → JobState}
    (recorded : ∀ state row columns, manager.jobs.lookup id = some state →
      Recorded state row columns → Recorded (change state) row columns) :
    (manager.modifyJob id change).Tracked :=
  tracked.changed (changes_modify _ _) (changes_same _) (changes_same _) (List.Perm.refl _)
    recorded

theorem Tracked.modifyRow {change : Row → Row}
    (recorded : ∀ state row columns, manager.jobs.lookup id = some state →
      Recorded state row columns → Recorded state (change row) columns) :
    (manager.modifyRow id change).Tracked :=
  tracked.changed (changes_same _) (changes_modify _ _) (changes_same _) (List.Perm.refl _)
    recorded

theorem Tracked.reorder {order : List JobId}
    (perm : order.Perm manager.jobOrder) : ({ manager with jobOrder := order }).Tracked where
  agree := tracked.agree
  nodup := perm.nodup_iff.mpr tracked.nodup
  ordered other := perm.mem_iff.trans (tracked.ordered other)

theorem Tracked.addJob {job : NzbJob} : (manager.addJob id job).Tracked := by
  unfold QueueManager.addJob
  split
  next isNew =>
    refine ⟨fun other => ?_, ?_, fun other => ?_⟩
    · by_cases same : other = id
      · subst same
        simp only [AList.lookup_insert]
        exact ⟨rfl, rfl, rfl, rfl, rfl, rfl, by simp [Row.ofJob]⟩
      · simp only [AList.lookup_insert_ne same]
        exact tracked.agree other
    · rw [List.nodup_append_comm, List.singleton_append, List.nodup_cons, tracked.ordered]
      exact ⟨AList.lookup_eq_none.mp isNew, tracked.nodup⟩
    · simp [tracked.ordered, AList.mem_insert, or_comm]
  · exact tracked

theorem Tracked.renameJob {newName : String} : (manager.renameJob config id newName).Tracked := by
  fun_cases QueueManager.renameJob config manager id newName
  · exact tracked
  · exact tracked
  · exact tracked.modifyJob fun _ _ _ _ recorded =>
      { recorded with unclaimed := rfl }

theorem Tracked.changeJobCategory {category : String} :
    (manager.changeJobCategory config id category).Tracked := by
  fun_cases QueueManager.changeJobCategory config manager id category
  · exact tracked
  · exact tracked
  · exact tracked.modifyJob fun _ _ _ _ recorded =>
      { recorded with unclaimed := rfl }
  · exact tracked

theorem Tracked.setJobPriority {priority : Priority} {ok : Bool} :
    (manager.setJobPriority id priority ok).Tracked := by
  fun_cases QueueManager.setJobPriority manager id priority ok
  · exact tracked
  · exact tracked.changed (changes_modify _ _) (changes_modify _ _) (changes_modify _ _)
      (List.mergeSort_perm _ _) fun _ _ _ _ recorded =>
        { recorded with priority := rfl }
  · exact tracked.modifyJob fun _ _ _ _ recorded => { recorded with }

theorem Tracked.moveJob {position : ℕ} : (manager.moveJob id position).Tracked := by
  fun_cases QueueManager.moveJob manager id position
  case case1 present _ =>
    apply tracked.reorder
    exact (List.perm_insertIdx _ _ (Nat.min_le_right _ _)).trans
      (List.perm_cons_erase present).symm
  case case2 => exact tracked

theorem Tracked.sortQueue {field : QueueSortField} {ascending : Bool} :
    (manager.sortQueue config field ascending).Tracked :=
  tracked.reorder (List.mergeSort_perm _ _)

theorem Tracked.pauseJob {ok : Bool} : (manager.pauseJob id ok).Tracked := by
  fun_cases QueueManager.pauseJob manager id ok
  case case1 => exact tracked
  case case2 state found paused changed isOk =>
    have isChanged : changed.Tracked := tracked.modifyJob fun now row columns isNow recorded => by
      cases found.symm.trans isNow
      exact { recorded with }
    exact isChanged.modifyRow fun now row columns _ recorded => { recorded with }
  case case3 state found paused changed notOk =>
    exact tracked.modifyJob fun now row columns isNow recorded => by
      cases found.symm.trans isNow
      exact { recorded with }

theorem Tracked.startJob : (manager.startJob id).Tracked := by
  apply tracked.modifyJob
  intro state row columns _ recorded
  split
  · exact { recorded with }
  · exact recorded

theorem Tracked.preempt {ok : Bool} : (manager.preempt id ok).Tracked := by
  fun_cases QueueManager.preempt manager id ok
  · exact tracked.pauseJob
  · exact tracked
  · exact tracked

theorem Tracked.progress {decodedBytes : ℕ} : (manager.progress id decodedBytes).Tracked :=
  tracked.modifyJob fun _ _ _ _ recorded => { recorded with }

end

theorem Recorded.checkpointed {state : JobState} {row : Row} {columns : Admitted}
    (recorded : Recorded state row columns) : (checkpointForJob state).outputDir = none :=
  if_neg (by simp [recorded.unclaimed])

theorem Tracked.persistJobProgress (tracked : manager.Tracked) :
    (manager.persistJobProgress id).Tracked := by
  fun_cases QueueManager.persistJobProgress manager id
  case case1 => exact tracked
  case case2 state found saved written =>
    exact tracked.modifyRow fun now row columns isNow recorded => by
      cases found.symm.trans isNow
      exact { recorded with checkpoint := by rintro _ ⟨⟩; exact recorded.checkpointed }
  case case3 state found saved changed =>
    have isSaved : saved.Tracked := tracked.modifyRow fun now row columns isNow recorded => by
      cases found.symm.trans isNow
      exact { recorded with checkpoint := by rintro _ ⟨⟩; exact recorded.checkpointed }
    apply Tracked.modifyJob
    · apply isSaved.modifyRow
      exact fun _ _ _ _ recorded => { recorded with }
    · exact fun _ _ _ _ recorded => { recorded with }

theorem Recorded.shutdown {state : JobState} {row : Row} {columns : Admitted}
    (recorded : Recorded state row columns) :
    Recorded (shutdownState state) (shutdownRow state row) columns := by
  have settled : Recorded (shutdownState state) row columns := by
    unfold shutdownState
    split
    · exact { recorded with }
    · exact recorded
  refine { settled with checkpoint := ?_ }
  intro checkpoint isStored
  unfold shutdownRow at isStored
  dsimp only at isStored
  split at isStored
  · cases isStored
    exact recorded.checkpointed
  · exact recorded.checkpoint checkpoint isStored

theorem Tracked.shutdown (tracked : manager.Tracked) : manager.shutdown.Tracked where
  agree id := by
    have agree := tracked.agree id
    unfold QueueManager.shutdown
    dsimp only
    rw [Registry.lookup_mapValues, Registry.lookup_mapValues]
    revert agree
    rcases manager.jobs.lookup id with _ | state <;> rcases manager.rows.lookup id with _ | row <;>
      rcases manager.admitted.lookup id with _ | columns <;> intro agree <;>
      first
      | exact agree
      | exact Recorded.shutdown agree
  nodup := tracked.nodup
  ordered id := by
    have sameRows : id ∈ manager.shutdown.rows ↔ id ∈ manager.rows := by
      rw [← AList.lookup_isSome, ← AList.lookup_isSome, QueueManager.shutdown,
        Registry.lookup_mapValues, Option.isSome_map]
    exact (tracked.ordered id).trans sameRows.symm

theorem Tracked.restoreFromDb {order : List JobId} {held : JobId → Bool} {isDir : Path → Bool}
    (tracked : manager.Tracked) (listed : manager.Listed order) :
    (manager.restoreFromDb order held isDir).Tracked where
  agree id := by
    have agree := tracked.agree id
    unfold QueueManager.restoreFromDb
    dsimp only
    rw [Registry.lookup_mapValues]
    revert agree
    rcases manager.jobs.lookup id with _ | state <;> rcases manager.rows.lookup id with _ | row <;>
      rcases manager.admitted.lookup id with _ | columns <;> intro agree <;>
      first
      | exact agree
      | exact agree.elim
      | exact Recorded.restored agree _ _
  nodup := listed.1
  ordered := listed.2.1

theorem Tracked.keep {label : Label} (tracked : manager.Tracked)
    (move : Step config manager label next) : next.Tracked := by
  cases move with
  | addJob => exact tracked.addJob
  | renameJob => exact tracked.renameJob
  | changeJobCategory => exact tracked.changeJobCategory
  | setJobPriority => exact tracked.setJobPriority
  | moveJob => exact tracked.moveJob
  | sortQueue => exact tracked.sortQueue
  | pauseJob => exact tracked.pauseJob
  | start => exact tracked.startJob
  | preempt => exact tracked.preempt
  | progress => exact tracked.progress
  | persistJobProgress => exact tracked.persistJobProgress
  | shutdown => exact tracked.shutdown
  | restart _ _ _ listed => exact tracked.restoreFromDb listed

theorem tracked_of_run {labels : List Label} (run : Run (Step config) init labels manager) :
    manager.Tracked := by
  apply run.invariant (fun _ manager => manager.Tracked) tracked_init
  intro labels manager label next _ tracked move
  exact tracked.keep move

end Tracking

section Order

variable {config : Config} {manager : QueueManager} {first second : JobId} {order : List JobId}

theorem pair_sublist (isFirst : first ∈ order) (isSecond : second ∈ order)
    (different : first ≠ second) :
    [first, second].Sublist order ∨ [second, first].Sublist order := by
  obtain ⟨before, after, rfl⟩ := List.append_of_mem isFirst
  rw [List.mem_append, List.mem_cons] at isSecond
  rcases isSecond with isBefore | rfl | isAfter
  · right
    exact (List.singleton_sublist.mpr isBefore).append
      ((List.nil_sublist after).cons_cons first)
  · exact absurd rfl different
  · left
    exact ((List.singleton_sublist.mpr isAfter).cons_cons first).trans
      (List.sublist_append_right before _)

theorem pair_not_swapped (nodup : order.Nodup) (forth : [first, second].Sublist order) :
    ¬ [second, first].Sublist order := by
  intro back
  induction order with
  | nil => simp at forth
  | cons head tail ih =>
      obtain ⟨isNew, rest⟩ := List.nodup_cons.mp nodup
      rcases List.sublist_cons_iff.mp forth with inTail | ⟨_, isFirst, secondInTail⟩ <;>
        rcases List.sublist_cons_iff.mp back with backInTail | ⟨_, isSecond, firstInTail⟩
      · exact ih rest inTail backInTail
      · cases isSecond
        exact isNew (inTail.subset (List.mem_cons_of_mem _ (List.mem_singleton_self _)))
      · cases isFirst
        exact isNew (backInTail.subset (List.mem_cons_of_mem _ (List.mem_singleton_self _)))
      · cases isFirst
        cases isSecond
        exact isNew (secondInTail.subset (List.mem_singleton_self _))

def sortKey (manager : QueueManager) (id : JobId) : ℤ ×ₗ ℤ :=
  toLex (((manager.rows.lookup id).map fun row => (-row.priority, row.addedAt)).getD (0, 0))

/-- A listing in which rows with equal keys come in the given order. -/
def listing (manager : QueueManager) (order : List JobId) : List JobId :=
  order.mergeSort fun left right => manager.sortKey left ≤ manager.sortKey right

theorem listed_listing (nodup : order.Nodup) (ordered : ∀ id, id ∈ order ↔ id ∈ manager.rows) :
    manager.Listed (manager.listing order) := by
  have perm : (manager.listing order).Perm order := List.mergeSort_perm _ _
  refine ⟨perm.nodup_iff.mpr nodup, fun id => perm.mem_iff.trans (ordered id), ?_⟩
  have sorted : (manager.listing order).Pairwise fun left right =>
      decide (manager.sortKey left ≤ manager.sortKey right) = true :=
    List.pairwise_mergeSort (fun left middle right => by simpa using le_trans)
      (fun left right => by simpa using le_total _ _) _
  apply sorted.imp
  intro left right isLe one isOne other isOther
  simp only [sortKey, Option.mem_def.mp isOne, Option.mem_def.mp isOther, Option.map_some,
    Option.getD_some, decide_eq_true_eq, Prod.Lex.toLex_le_toLex] at isLe
  omega

theorem sublist_listing (isLe : manager.sortKey first ≤ manager.sortKey second)
    (inOrder : [first, second].Sublist order) : [first, second].Sublist (manager.listing order) :=
  List.pair_sublist_mergeSort (fun left middle right => by simpa using le_trans)
    (fun left right => by simpa using le_total _ _) (by simpa using isLe) inOrder

end Order

section Restart

variable {config : Config} {manager : QueueManager} {first second : JobId}

theorem Tracked.find {id : JobId} {state : JobState} (tracked : manager.Tracked)
    (found : manager.jobs.lookup id = some state) :
    ∃ row columns, manager.rows.lookup id = some row ∧
      manager.admitted.lookup id = some columns ∧ Recorded state row columns := by
  have agree := tracked.agree id
  rw [found] at agree
  rcases isRow : manager.rows.lookup id with _ | row <;>
    rcases isAdmitted : manager.admitted.lookup id with _ | columns <;>
    rw [isRow, isAdmitted] at agree
  · exact agree.elim
  · exact agree.elim
  · exact agree.elim
  · exact ⟨row, columns, rfl, rfl, agree⟩

theorem Tracked.find_ordered {id : JobId} (tracked : manager.Tracked)
    (isOrdered : id ∈ manager.jobOrder) : ∃ state, manager.jobs.lookup id = some state := by
  have inRows : id ∈ manager.rows := (tracked.ordered id).mp isOrdered
  obtain ⟨row, isRow⟩ := Option.isSome_iff_exists.mp (AList.lookup_isSome.mpr inRows)
  have agree := tracked.agree id
  rw [isRow] at agree
  rcases isJob : manager.jobs.lookup id with _ | state
  · rw [isJob] at agree
    exact agree.elim
  · exact ⟨state, rfl⟩

theorem priorityOf_eq {id : JobId} {state : JobState}
    (found : manager.jobs.lookup id = some state) :
    manager.priorityOf id = state.priority.toNat := by
  rw [priorityOf, found]
  rfl

theorem Tracked.restored {id : JobId} {state : JobState} (tracked : manager.Tracked)
    (found : manager.jobs.lookup id = some state) (order : List JobId) (held : JobId → Bool)
    (isDir : Path → Bool) :
    ∃ columns after, manager.admitted.lookup id = some columns ∧
      (manager.restoreFromDb order held isDir).jobs.lookup id = some after ∧
        AsAdmitted after columns := by
  obtain ⟨row, columns, isRow, isAdmitted, recorded⟩ := tracked.find found
  refine ⟨columns, row.restore (held id) isDir, isAdmitted, ?_, recorded.restore _ _⟩
  rw [QueueManager.restoreFromDb, Registry.lookup_mapValues, isRow, Option.map_some]

theorem Tracked.row_eq {id : JobId} {state : JobState} {columns : Admitted}
    (tracked : manager.Tracked) (found : manager.jobs.lookup id = some state)
    (isAdmitted : manager.admitted.lookup id = some columns)
    (asAdmitted : AsAdmitted state columns) :
    ∃ row, manager.rows.lookup id = some row ∧ row.priority = manager.priorityOf id ∧
      row.addedAt = state.addedAt := by
  obtain ⟨row, others, isRow, sameAdmitted, recorded⟩ := tracked.find found
  cases isAdmitted.symm.trans sameAdmitted
  refine ⟨row, isRow, ?_, recorded.addedAt⟩
  rw [recorded.priority, ← asAdmitted.priority, priorityOf_eq found]
  rfl

theorem Unedited.row_eq {id : JobId} {state : JobState} (unedited : manager.Unedited)
    (tracked : manager.Tracked) (found : manager.jobs.lookup id = some state) :
    ∃ row, manager.rows.lookup id = some row ∧ row.priority = manager.priorityOf id ∧
      row.addedAt = state.addedAt := by
  obtain ⟨columns, isAdmitted, asAdmitted⟩ := unedited.jobs id state found
  exact tracked.row_eq found isAdmitted asAdmitted

theorem Tracked.ahead_ne (tracked : manager.Tracked) (ahead : manager.Ahead first second) :
    first ≠ second := by
  have nodup := tracked.nodup.sublist ahead.order
  simpa using nodup

theorem Tracked.ahead_mem (tracked : manager.Tracked) (ahead : manager.Ahead first second) :
    (first ∈ manager.jobOrder ∧ ∃ older, manager.jobs.lookup first = some older) ∧
      second ∈ manager.jobOrder ∧ ∃ younger, manager.jobs.lookup second = some younger := by
  have isFirst : first ∈ manager.jobOrder := ahead.order.subset (by simp)
  have isSecond : second ∈ manager.jobOrder := ahead.order.subset (by simp)
  exact ⟨⟨isFirst, tracked.find_ordered isFirst⟩, isSecond, tracked.find_ordered isSecond⟩

theorem Unedited.forgetsNone {order : List JobId} {held : JobId → Bool} {isDir : Path → Bool}
    (unedited : manager.Unedited) (tracked : manager.Tracked) (listed : manager.Listed order) :
    manager.ForgetsNone (manager.restoreFromDb order held isDir) where
  jobs id state found := by
    obtain ⟨columns, after, isAdmitted, isAfter, restored⟩ :=
      tracked.restored found order held isDir
    obtain ⟨same, isSame, kept⟩ := unedited.jobs id state found
    cases isAdmitted.symm.trans isSame
    exact ⟨after, isAfter, restored.name.trans kept.name.symm,
      restored.category.trans kept.category.symm, restored.priority.trans kept.priority.symm,
      restored.outputDir.trans kept.outputDir.symm⟩
  order first second ahead := by
    obtain ⟨⟨isFirst, older, isOlder⟩, isSecond, younger, isYounger⟩ := tracked.ahead_mem ahead
    have listsSame : ∀ id, id ∈ manager.jobOrder → id ∈ order :=
      fun id isOrdered => (listed.2.1 id).mpr ((tracked.ordered id).mp isOrdered)
    apply (pair_sublist (listsSame first isFirst) (listsSame second isSecond)
      (tracked.ahead_ne ahead)).resolve_right
    intro swapped
    obtain ⟨firstRow, isFirstRow, firstPriority, firstAdded⟩ := unedited.row_eq tracked isOlder
    obtain ⟨secondRow, isSecondRow, secondPriority, secondAdded⟩ :=
      unedited.row_eq tracked isYounger
    have isOrder := List.pairwise_pair.mp (listed.2.2.sublist swapped) secondRow isSecondRow
      firstRow isFirstRow
    have isStrict := unedited.order first second ahead older isOlder younger isYounger
    have isEqual := ahead.equal
    omega

theorem Tracked.exists_listed (tracked : manager.Tracked)
    (isFirst : first ∈ manager.jobOrder) (isSecond : second ∈ manager.jobOrder)
    (different : first ≠ second) (isLe : manager.sortKey second ≤ manager.sortKey first) :
    ∃ order, manager.Listed order ∧ [second, first].Sublist order := by
  have perm : manager.jobOrder.Perm (second :: manager.jobOrder.erase second) :=
    List.perm_cons_erase isSecond
  refine ⟨manager.listing (second :: manager.jobOrder.erase second), listed_listing ?_ ?_, ?_⟩
  · exact perm.nodup_iff.mp tracked.nodup
  · exact fun id => perm.mem_iff.symm.trans (tracked.ordered id)
  · apply sublist_listing isLe
    apply List.Sublist.cons_cons
    rw [List.singleton_sublist]
    exact (List.mem_erase_of_ne different).mpr isFirst

/-- A restart forgets nothing exactly if there is nothing to forget but what the table has. -/
theorem forgets_none_iff {labels : List Label} (run : Run (Step config) init labels manager) :
    (∀ order held isDir next, Step config manager (.restart order held isDir) next →
      manager.ForgetsNone next) ↔ manager.Unedited := by
  have tracked := tracked_of_run run
  constructor
  · intro forgetsNone
    have admitted : ∀ id state, manager.jobs.lookup id = some state →
        ∃ columns, manager.admitted.lookup id = some columns ∧ AsAdmitted state columns := by
      intro id state found
      have kept := forgetsNone _ (fun _ => false) (fun _ => false) _
        (.restart _ _ _ (listed_listing tracked.nodup tracked.ordered))
      obtain ⟨after, isAfter, choices⟩ := kept.jobs id state found
      obtain ⟨columns, restored, isAdmitted, isRestored, asAdmitted⟩ :=
        tracked.restored found _ _ _
      cases isAfter.symm.trans isRestored
      exact ⟨columns, isAdmitted, choices.name.symm.trans asAdmitted.name,
        choices.category.symm.trans asAdmitted.category,
        choices.priority.symm.trans asAdmitted.priority,
        choices.outputDir.symm.trans asAdmitted.outputDir⟩
    refine ⟨admitted, fun first second ahead older isOlder younger isYounger => ?_⟩
    by_contra notOlder
    obtain ⟨⟨isFirst, -⟩, isSecond, -⟩ := tracked.ahead_mem ahead
    obtain ⟨_, isAdmitted, asAdmitted⟩ := admitted first older isOlder
    obtain ⟨firstRow, isFirstRow, firstPriority, firstAdded⟩ :=
      tracked.row_eq isOlder isAdmitted asAdmitted
    obtain ⟨_, isAdmitted, asAdmitted⟩ := admitted second younger isYounger
    obtain ⟨secondRow, isSecondRow, secondPriority, secondAdded⟩ :=
      tracked.row_eq isYounger isAdmitted asAdmitted
    have isEqual := ahead.equal
    have isLe : manager.sortKey second ≤ manager.sortKey first := by
      simp only [sortKey, isFirstRow, isSecondRow, Option.map_some, Option.getD_some,
        Prod.Lex.toLex_le_toLex]
      omega
    obtain ⟨order, listed, swapped⟩ :=
      tracked.exists_listed isFirst isSecond (tracked.ahead_ne ahead) isLe
    have kept := forgetsNone order (fun _ => false) (fun _ => false) _ (.restart _ _ _ listed)
    exact pair_not_swapped listed.1 (kept.order first second ahead) swapped
  · intro unedited order held isDir next move
    cases move with
    | restart _ _ _ listed => exact unedited.forgetsNone tracked listed

end Restart

/-- Every name is taken as it is, and a job goes to the folder of its category. -/
def plain : Config where
  sanitizeJobName name := name
  safeComponent _ := true
  outputDirFor category name := some ⟨some category.toList, some name.toList⟩
  lowercase char := [char.toLower]

def jobNamed (name : String) (addedAt : ℤ) : NzbJob where
  name := name
  category := "tv"
  status := .queued
  priority := .normal
  totalBytes := 5
  downloadedBytes := 0
  addedAt := addedAt
  outputDir := ⟨some "tv".toList, some name.toList⟩

def twoAdded : QueueManager := (init.addJob "a" (jobNamed "show" 0)).addJob "b" (jobNamed "film" 1)

theorem run_twoAdded : Run (Step plain) init
    [.addJob "a" (jobNamed "show" 0), .addJob "b" (jobNamed "film" 1)] twoAdded :=
  (Run.start.snoc (.addJob _ _)).snoc (.addJob _ _)

/-- Both get a priority, and one of them is paused, renamed, and named as before. -/
def edited : QueueManager :=
  ((((twoAdded.setJobPriority "a" .high true).setJobPriority "b" .high true).pauseJob "a"
    true).renameJob plain "a" "series").renameJob plain "a" "show"

theorem run_edited : Run (Step plain) init
    [.addJob "a" (jobNamed "show" 0), .addJob "b" (jobNamed "film" 1),
      .setJobPriority "a" .high true, .setJobPriority "b" .high true, .pauseJob "a" true,
      .renameJob "a" "series", .renameJob "a" "show"] edited :=
  ((((run_twoAdded.snoc (.setJobPriority _ _ _)).snoc (.setJobPriority _ _ _)).snoc
    (.pauseJob _ _)).snoc (.renameJob _ _)).snoc (.renameJob _ _)

theorem jobOrder_edited : edited.jobOrder = ["a", "b"] := by
  have raised : (twoAdded.setJobPriority "a" .high true).jobOrder = ["a", "b"] :=
    List.mergeSort_of_pairwise (by decide)
  refine Eq.trans (congrArg (List.mergeSort · _) raised) ?_
  exact List.mergeSort_of_pairwise (by decide)

theorem unedited_edited : edited.Unedited := by
  have isA : edited.jobs.lookup "a" = some { jobNamed "show" 0 with
      status := .paused, priority := .high, outputDirClaimed := false,
      persistedStatus := some .paused } := by
    decide
  have isB : edited.jobs.lookup "b" = some { jobNamed "film" 1 with
      priority := .high, outputDirClaimed := false, persistedStatus := none } := by
    decide
  have ids : ∀ id state, edited.jobs.lookup id = some state → id = "a" ∨ id = "b" := by
    intro id state found
    have isKey : id ∈ edited.jobs.keys :=
      AList.mem_keys.mp (AList.lookup_isSome.mp (Option.isSome_of_mem found))
    have keys : edited.jobs.keys = ["a", "b"] := by decide
    simpa [keys] using isKey
  constructor
  · intro id state found
    rcases ids id state found with rfl | rfl
    · cases isA.symm.trans found
      exact ⟨⟨"show", "tv", .high, ⟨some "tv".toList, some "show".toList⟩⟩, by decide,
        by constructor <;> rfl⟩
    · cases isB.symm.trans found
      exact ⟨⟨"film", "tv", .high, ⟨some "tv".toList, some "film".toList⟩⟩, by decide,
        by constructor <;> rfl⟩
  · intro first second ahead older isOlder younger isYounger
    have different := (tracked_of_run run_edited).ahead_ne ahead
    rcases ids first older isOlder with rfl | rfl <;>
      rcases ids second younger isYounger with rfl | rfl
    · exact absurd rfl different
    · cases isA.symm.trans isOlder
      cases isB.symm.trans isYounger
      decide
    · exact absurd (jobOrder_edited ▸ ahead.order) (by decide)
    · exact absurd rfl different

/-- Priorities, a pause and the order survive, and so does a job that got its old name back. -/
theorem forgets_none_two : ∃ manager, manager.Ahead "a" "b" ∧
    ∀ order held isDir next, Step plain manager (.restart order held isDir) next →
      manager.ForgetsNone next :=
  ⟨edited, ⟨jobOrder_edited ▸ .refl _, by decide⟩,
    (forgets_none_iff run_edited).mpr unedited_edited⟩

theorem listed_twoAdded {manager : QueueManager} (rows : manager.rows = twoAdded.rows) :
    manager.Listed ["a", "b"] := by
  have ordered := (tracked_of_run run_twoAdded).ordered
  have first : twoAdded.rows.lookup "a" = some (Row.ofJob (jobNamed "show" 0)) := rfl
  have second : twoAdded.rows.lookup "b" = some (Row.ofJob (jobNamed "film" 1)) := rfl
  unfold Listed
  rw [rows]
  refine ⟨by decide, ordered, ?_⟩
  rw [List.pairwise_pair]
  intro one isOne other isOther
  cases first.symm.trans isOne
  cases second.symm.trans isOther
  exact .inr ⟨rfl, by decide⟩

/-- A new name, a new category and a new order are gone after the restart. -/
theorem not_forgets_none :
    (∃ manager, Run (Step plain) init (([.addJob "a" (jobNamed "show" 0),
        .addJob "b" (jobNamed "film" 1)] : List Label) ++
        ([.renameJob "a" "series"] : List Label)) manager ∧
      ∃ order held isDir next, Step plain manager (.restart order held isDir) next ∧
        ¬ manager.ForgetsNone next) ∧
    (∃ manager, Run (Step plain) init (([.addJob "a" (jobNamed "show" 0),
        .addJob "b" (jobNamed "film" 1)] : List Label) ++
        ([.changeJobCategory "b" "movies"] : List Label)) manager ∧
      ∃ order held isDir next, Step plain manager (.restart order held isDir) next ∧
        ¬ manager.ForgetsNone next) ∧
    ∃ manager, Run (Step plain) init (([.addJob "a" (jobNamed "show" 0),
        .addJob "b" (jobNamed "film" 1)] : List Label) ++
        ([.moveJob "b" 0] : List Label)) manager ∧
      ∃ order held isDir next, Step plain manager (.restart order held isDir) next ∧
        ¬ manager.ForgetsNone next := by
  refine ⟨⟨_, run_twoAdded.snoc (.renameJob _ _), _, fun _ => false, fun _ => false, _,
    .restart _ _ _ (listed_twoAdded rfl), fun kept => ?_⟩, ⟨_, run_twoAdded.snoc
      (.changeJobCategory _ _), _, fun _ => false, fun _ => false, _,
        .restart _ _ _ (listed_twoAdded rfl), fun kept => ?_⟩, ⟨_, run_twoAdded.snoc
          (.moveJob _ _), _, fun _ => false, fun _ => false, _,
            .restart _ _ _ (listed_twoAdded rfl), fun kept => ?_⟩⟩
  · obtain ⟨after, isAfter, same⟩ := kept.jobs "a" _ rfl
    cases isAfter
    exact absurd same.name (by decide)
  · obtain ⟨after, isAfter, same⟩ := kept.jobs "b" _ rfl
    cases isAfter
    exact absurd same.category (by decide)
  · have order := kept.order "b" "a" ⟨by decide, rfl⟩
    exact absurd order (by decide)

end QueueManager

end Rustnzb.Web.Edits
