import Rustnzb.Web.WorkDirs.Owners

/-!
# What is deleted

Each operation keeps the invariant of the owners and deletes only what nobody has. The references
that the clean-up reads are all there is to a directory, except for one that a completed job took
over; the invariant has it that this one is gone.
-/

namespace Rustnzb.Web.WorkDirs

open Dispatch (JobId)
open Lib (Registry Run execute)

variable {incomplete : Path} {manager manager' : QueueManager} {id : JobId} {label : Label}

structure Safe (incomplete : Path) (manager : QueueManager) : Prop where
  sound : Sound incomplete manager.toStore
  spares : ∀ deletion ∈ manager.deletions, deletion.Spares incomplete

section Lookups

variable {store store' : Store} {recorded : JobId → HistoryRow → Prop}

theorem Follows.of_lookup (jobs : ∀ id job, store'.jobs.lookup id = some job →
      (id ∈ store.jobs ∨ id ∈ store.rows) ∧ (job.moved = false → store.Holds id job.workDir))
    (rows : ∀ id row, store'.rows.lookup id = some row → store.Holds id row.workDir)
    (history : ∀ id row', store'.history.lookup id = some row' →
      (∃ row, store.history.lookup id = some row ∧ row'.status = row.status ∧
        row'.retryWorkDir = row.retryWorkDir) ∨ recorded id row')
    (dirs : ∀ dir ∈ store'.dirs, dir ∈ store.dirs ∨ ∃ id, store.Holds id dir)
    (issued : store'.issued = store.issued) : Follows store store' recorded where
  keys id isKey := by
    rcases isKey with isKey | isKey
    · obtain ⟨job, isJob⟩ := Option.isSome_iff_exists.mp (AList.lookup_isSome.mpr isKey)
      exact (jobs id job isJob).1
    · obtain ⟨row, isRow⟩ := Option.isSome_iff_exists.mp (AList.lookup_isSome.mpr isKey)
      exact (rows id row isRow).mem
  holds id dir holds := by
    rcases holds with ⟨job, isJob, unmoved, rfl⟩ | ⟨row, isRow, rfl⟩
    · exact (jobs id job isJob).2 unmoved
    · exact rows id row isRow
  history := history
  dirs := dirs
  issued _ isIssued := issued ▸ isIssued

theorem of_lookup_jobs {job : JobState} (isJob : store.jobs.lookup id = some job) :
    (id ∈ store.jobs ∨ id ∈ store.rows) ∧ (job.moved = false → store.Holds id job.workDir) :=
  ⟨.inl (AList.lookup_isSome.mp (Option.isSome_of_mem isJob)),
    fun unmoved => .inl ⟨job, isJob, unmoved, rfl⟩⟩

theorem of_lookup_rows {row : Row} (isRow : store.rows.lookup id = some row) :
    store.Holds id row.workDir :=
  .inr ⟨row, isRow, rfl⟩

theorem of_lookup_history {row : HistoryRow} (isRow : store.history.lookup id = some row) :
    ∃ old, store.history.lookup id = some old ∧ row.status = old.status ∧
      row.retryWorkDir = old.retryWorkDir :=
  ⟨row, isRow, rfl, rfl⟩

theorem shrinks_jobs {jobs : Registry JobId JobState} (old : ∀ id job, jobs.lookup id = some job →
      (id ∈ store.jobs ∨ id ∈ store.rows) ∧ (job.moved = false → store.Holds id job.workDir)) :
    Shrinks store { store with jobs := jobs } :=
  Follows.of_lookup old (fun _ _ isRow => of_lookup_rows isRow)
    (fun _ _ isRow => .inl (of_lookup_history isRow)) (fun _ isDir => .inl isDir) rfl

theorem shrinks_rows {rows : Registry JobId Row}
    (old : ∀ id row, rows.lookup id = some row → store.Holds id row.workDir) :
    Shrinks store { store with rows := rows } :=
  Follows.of_lookup (fun _ _ isJob => of_lookup_jobs isJob) old
    (fun _ _ isRow => .inl (of_lookup_history isRow)) (fun _ isDir => .inl isDir) rfl

theorem follows_history {history : Registry JobId HistoryRow}
    (old : ∀ id row', history.lookup id = some row' →
      (∃ row, store.history.lookup id = some row ∧ row'.status = row.status ∧
        row'.retryWorkDir = row.retryWorkDir) ∨ recorded id row') :
    Follows store { store with history := history } recorded :=
  Follows.of_lookup (fun _ _ isJob => of_lookup_jobs isJob) (fun _ _ isRow => of_lookup_rows isRow)
    old (fun _ isDir => .inl isDir) rfl

theorem shrinks_dirs {dirs : List Path}
    (old : ∀ dir ∈ dirs, dir ∈ store.dirs ∨ ∃ id, store.Holds id dir) :
    Shrinks store { store with dirs := dirs } :=
  Follows.of_lookup (fun _ _ isJob => of_lookup_jobs isJob) (fun _ _ isRow => of_lookup_rows isRow)
    (fun _ _ isRow => .inl (of_lookup_history isRow)) old rfl

theorem shrinks_insert_job {job : JobState} (isJob : store.jobs.lookup id = some job)
    {next : JobState} (unmoved : next.moved = false → job.moved = false)
    (same : next.workDir = job.workDir) :
    Shrinks store { store with jobs := store.jobs.insert id next } := by
  apply shrinks_jobs
  intro other found isFound
  by_cases isOther : other = id
  · subst isOther
    rw [AList.lookup_insert] at isFound
    cases isFound
    rw [same]
    exact ⟨(of_lookup_jobs isJob).1, fun isUnmoved => (of_lookup_jobs isJob).2 (unmoved isUnmoved)⟩
  · rw [AList.lookup_insert_ne isOther] at isFound
    exact of_lookup_jobs isFound

theorem shrinks_erase_job : Shrinks store { store with jobs := store.jobs.erase id } := by
  apply shrinks_jobs
  intro other job isJob
  exact of_lookup_jobs (Registry.lookup_of_lookup_erase isJob)

theorem shrinks_retain (keep : JobId → HistoryRow → Bool) :
    Shrinks store { store with history := store.history.retain keep } := by
  apply follows_history
  intro other row isRow
  rw [Registry.lookup_retain] at isRow
  exact .inl <| of_lookup_history (Option.filter_eq_some_iff.mp isRow).1

theorem shrinks_mapValues {change : JobId → HistoryRow → HistoryRow}
    (status : ∀ id row, (change id row).status = row.status)
    (dir : ∀ id row, (change id row).retryWorkDir = row.retryWorkDir) :
    Shrinks store { store with history := store.history.mapValues change } := by
  apply follows_history
  intro other row isRow
  rw [Registry.lookup_mapValues] at isRow
  rcases Option.map_eq_some_iff.mp isRow with ⟨old, isOld, rfl⟩
  exact .inl ⟨old, isOld, status other old, dir other old⟩

theorem shrinks_same (jobs : store'.jobs = store.jobs) (rows : store'.rows = store.rows)
    (history : store'.history = store.history) (dirs : store'.dirs = store.dirs)
    (issued : store'.issued = store.issued) : Shrinks store store' := by
  apply Follows.of_lookup
  · intro id job isJob
    exact of_lookup_jobs (jobs ▸ isJob)
  · intro id row isRow
    exact of_lookup_rows (rows ▸ isRow)
  · intro id row isRow
    exact .inl (of_lookup_history (history ▸ isRow))
  · intro dir isDir
    exact .inl (dirs ▸ isDir)
  · exact issued

end Lookups

theorem Safe.shrinks (safe : Safe incomplete manager)
    (shrinks : Shrinks manager.toStore manager'.toStore)
    (deletions : manager'.deletions = manager.deletions) : Safe incomplete manager' where
  sound := safe.sound.shrinks shrinks
  spares deletion isDeletion := safe.spares deletion (deletions ▸ isDeletion)

theorem shrinks_delete (owner : Option JobId) (dir : Path) (emptied removed : Bool) :
    Shrinks manager.toStore (manager.delete owner dir emptied removed).toStore := by
  apply shrinks_dirs
  intro other isDir
  left
  split at isDir
  · exact (List.mem_filter.mp isDir).1
  · exact isDir

theorem Safe.delete (safe : Safe incomplete manager) {owner : Option JobId} {dir : Path}
    {emptied : Bool} (removed : Bool) (inactive : ∀ id, ¬manager.Active id dir)
    (owned : ∀ id, manager.Owns incomplete id dir → owner = some id ∧ emptied = true) :
    Safe incomplete (manager.delete owner dir emptied removed) where
  sound := safe.sound.shrinks (shrinks_delete owner dir emptied removed)
  spares deletion isDeletion := by
    rcases List.mem_append.mp isDeletion with isOld | isNew
    · exact safe.spares deletion isOld
    · rw [List.mem_singleton] at isNew
      subst isNew
      exact ⟨inactive, owned⟩

theorem mem_referencedWorkDirs {dir : Path} (there : dir ∈ manager.dirs)
    (referenced : manager.Active id dir ∨
      ∃ row, manager.history.lookup id = some row ∧ row.status ≠ .failed ∧
        dir = incomplete ++ [id]) : dir ∈ manager.referencedWorkDirs incomplete := by
  rw [QueueManager.referencedWorkDirs, List.mem_filter, List.mem_append, List.mem_append]
  refine ⟨?_, by simpa using there⟩
  rcases referenced with (⟨job, isJob, open_, rfl⟩ | ⟨row, isRow, -, rfl⟩) |
    ⟨row, isRow, notFailed, rfl⟩
  · refine .inl (.inl (List.mem_filterMap.mpr ⟨⟨id, job⟩, AList.mem_lookup_iff.mp isJob, ?_⟩))
    simp [open_]
  · exact .inl (.inr (List.mem_map.mpr ⟨⟨id, row⟩, AList.mem_lookup_iff.mp isRow, rfl⟩))
  · refine .inr (List.mem_filterMap.mpr ⟨⟨id, row⟩, AList.mem_lookup_iff.mp isRow, ?_⟩)
    simp [notFailed]

theorem Sound.unreferenced (sound : Sound incomplete manager.toStore) {dir : Path}
    (there : dir ∈ manager.dirs) (free : dir ∉ manager.referencedWorkDirs incomplete) :
    (∀ id, ¬manager.Active id dir) ∧ ∀ id, ¬manager.Owns incomplete id dir := by
  constructor
  · intro id active
    exact free (mem_referencedWorkDirs there (.inl active))
  · rintro id ⟨row, isRow, notFailed, isDir⟩
    by_cases own : dir = incomplete ++ [id]
    · exact free (mem_referencedWorkDirs there (.inr ⟨row, isRow, notFailed, own⟩))
    · have isWorkDir := isDir.resolve_left own
      exact (sound.cleared id row dir isRow notFailed isWorkDir own).1 there

theorem Safe.removeUnreferencedWorkDir (safe : Safe incomplete manager) (reclaim : Reclaim)
    (candidate : Path) :
    Safe incomplete (manager.removeUnreferencedWorkDir incomplete reclaim candidate) := by
  rw [QueueManager.removeUnreferencedWorkDir]
  split
  next unreferenced =>
    rcases unreferenced with ⟨there, -, -, free⟩
    rcases safe.sound.unreferenced there free with ⟨inactive, unowned⟩
    exact safe.delete _ inactive fun id owns => absurd owns (unowned id)
  · exact safe

theorem Safe.reclaimAll (safe : Safe incomplete manager) (reclaim : Reclaim)
    (candidates : List Path) : Safe incomplete (manager.reclaimAll incomplete reclaim candidates) :=
  List.foldlRecOn candidates _ safe fun _ safe candidate _ =>
    safe.removeUnreferencedWorkDir reclaim candidate

theorem Safe.sweepOrphanedWorkDirs (safe : Safe incomplete manager) (reclaim : Reclaim) :
    Safe incomplete (manager.sweepOrphanedWorkDirs incomplete reclaim) := by
  rw [QueueManager.sweepOrphanedWorkDirs]
  split
  · have swept := List.foldlRecOn
      (motive := fun swept : QueueManager => Safe incomplete swept ∧ swept.jobs = manager.jobs ∧
        swept.rows = manager.rows ∧ swept.history = manager.history)
      manager.dirs (fun swept dir =>
        if QueueManager.isSwept incomplete dir ∧ dir ∉ manager.referencedWorkDirs incomplete then
          swept.delete none dir false (reclaim.removable dir)
        else swept) ⟨safe, rfl, rfl, rfl⟩ ?_
    · exact swept.1
    · rintro swept ⟨isSafe, jobs, rows, history⟩ dir there
      split
      next isOrphan =>
        rcases safe.sound.unreferenced there isOrphan.2 with ⟨inactive, unowned⟩
        refine ⟨isSafe.delete _ ?_ ?_, jobs, rows, history⟩
        · intro id active
          apply inactive id
          rwa [Store.Active, jobs, rows] at active
        · intro id owns
          rw [Store.Owns, history] at owns
          exact absurd owns (unowned id)
      · exact ⟨isSafe, jobs, rows, history⟩
  · exact safe

theorem admits_admitJob (workDir : Path) (admission : Admission) :
    Admits manager.toStore id workDir (manager.admitJob id workDir admission).toStore := by
  rw [QueueManager.admitJob]
  have made : ∀ dir ∈ manager.dirs.insert workDir, dir ∈ manager.dirs ∨ dir = workDir := by
    intro dir isDir
    exact (List.mem_insert_iff.mp isDir).symm
  dsimp only
  split
  · refine ⟨fun other isKey => ?_, fun other dir holds => ?_, rfl, made, rfl⟩
    · simp only [AList.mem_insert] at isKey
      tauto
    · by_cases isNew : other = id
      · subst isNew
        right
        rcases holds with ⟨job, isJob, -, rfl⟩ | ⟨row, isRow, rfl⟩
        · rw [AList.lookup_insert] at isJob
          cases isJob
          exact ⟨rfl, rfl⟩
        · rw [AList.lookup_insert] at isRow
          cases isRow
          exact ⟨rfl, rfl⟩
      · left
        rwa [Store.Holds, AList.lookup_insert_ne isNew, AList.lookup_insert_ne isNew] at holds
  · exact ⟨fun other isKey => .inr isKey, fun other dir holds => .inl holds, rfl, made, rfl⟩

theorem deletions_admitJob (workDir : Path) (admission : Admission) :
    (manager.admitJob id workDir admission).deletions = manager.deletions := by
  rw [QueueManager.admitJob]
  dsimp only
  split <;> rfl

theorem Safe.admitJob (safe : Safe incomplete manager) (fresh : id ∉ manager.issued)
    {workDir : Path} (free : Free incomplete manager.toStore id workDir) (admission : Admission) :
    Safe incomplete (manager.admitJob id workDir admission) where
  sound := safe.sound.admits fresh free (admits_admitJob workDir admission)
  spares := by
    rw [deletions_admitJob]
    exact safe.spares

theorem Safe.addJobIdempotent (safe : Safe incomplete manager) (fresh : id ∉ manager.issued)
    (key digest : String) (admission : Admission) :
    Safe incomplete (manager.addJobIdempotent incomplete id key digest admission) := by
  have admitted := safe.admitJob fresh (.inl rfl) admission
  rw [QueueManager.addJobIdempotent]
  split
  · exact safe
  · dsimp only
    split
    · exact admitted.shrinks (shrinks_same rfl rfl rfl rfl rfl) rfl
    · exact admitted

theorem free_retried {entry : JobId} {admission : Admission}
    (careful : manager.Careful incomplete (.retryHistoryEntry entry id admission))
    {row : HistoryRow} (isRow : manager.retried entry = some row) :
    Free incomplete manager.toStore id
      ((manager.retainedWorkDir incomplete row).getD (incomplete ++ [id])) := by
  cases retained : manager.retainedWorkDir incomplete row with
  | none => exact .inl rfl
  | some dir =>
      right
      have unheld := careful row dir isRow retained
      rw [QueueManager.retainedWorkDir] at retained
      split at retained
      next failed =>
        rcases Option.filter_eq_some_iff.mp retained with ⟨isDir, there⟩
        rw [Bool.and_eq_true, decide_eq_true_eq] at there
        rw [QueueManager.retried] at isRow
        split at isRow
        · cases isRow
        · exact ⟨there.2, unheld, entry, row, (Option.filter_eq_some_iff.mp isRow).1, failed, isDir⟩
      · cases retained

theorem Safe.retryHistoryEntry (safe : Safe incomplete manager) (fresh : id ∉ manager.issued)
    {entry : JobId} {admission : Admission}
    (careful : manager.Careful incomplete (.retryHistoryEntry entry id admission)) :
    Safe incomplete (manager.retryHistoryEntry incomplete entry id admission) := by
  have retained : Safe incomplete manager.retainRetries :=
    safe.shrinks (shrinks_same rfl rfl rfl rfl rfl) rfl
  rw [QueueManager.retryHistoryEntry]
  split
  · exact retained
  next row isRow =>
    have admitted := retained.admitJob fresh (free_retried careful isRow) admission
    dsimp only
    split
    · exact admitted.shrinks (shrinks_same rfl rfl rfl rfl rfl) rfl
    · exact admitted

theorem exists_of_isUnmoved (isUnmoved : manager.isUnmoved id = true) :
    ∃ job, manager.jobs.lookup id = some job ∧ job.moved = false := by
  rw [QueueManager.isUnmoved, Option.any_eq_true] at isUnmoved
  simpa using isUnmoved

theorem Safe.setStatus (safe : Safe incomplete manager) (isUnmoved : manager.isUnmoved id = true)
    (status : Queue.JobStatus) : Safe incomplete (manager.setStatus id status) := by
  rcases exists_of_isUnmoved isUnmoved with ⟨job, isJob, unmoved⟩
  rw [QueueManager.setStatus, isJob]
  exact safe.shrinks (shrinks_insert_job isJob (fun _ => unmoved) rfl) rfl

theorem Safe.persist (safe : Safe incomplete manager) : Safe incomplete (manager.persist id) := by
  rw [QueueManager.persist]
  split
  · exact safe
  · refine safe.shrinks (shrinks_rows fun other row isRow => ?_) rfl
    rw [Registry.lookup_modify] at isRow
    split at isRow
    · rcases Option.map_eq_some_iff.mp isRow with ⟨old, isOld, rfl⟩
      exact .inr ⟨old, isOld, rfl⟩
    · exact of_lookup_rows isRow

theorem Safe.writeArticle (safe : Safe incomplete manager)
    (isUnmoved : manager.isUnmoved id = true) : Safe incomplete (manager.writeArticle id) := by
  rcases exists_of_isUnmoved isUnmoved with ⟨job, isJob, unmoved⟩
  rw [QueueManager.writeArticle, isJob]
  refine safe.shrinks (shrinks_dirs fun dir isDir => ?_) rfl
  rcases List.mem_insert_iff.mp isDir with rfl | isOld
  · exact .inr ⟨id, .inl ⟨job, isJob, unmoved, rfl⟩⟩
  · exact .inl isOld

theorem shrinks_queueRemove (removed : Bool) :
    Shrinks manager.toStore (manager.queueRemove id removed).toStore := by
  rw [QueueManager.queueRemove]
  split
  · exact shrinks_rows fun other row isRow =>
      of_lookup_rows (Registry.lookup_of_lookup_erase isRow)
  · exact Follows.refl

theorem follows_historyInsert (row : HistoryRow) :
    Follows manager.toStore (manager.historyInsert id row).toStore fun other written =>
      other = id ∧ written = row ∧ id ∉ manager.history := by
  rw [QueueManager.historyInsert]
  split
  · exact follows_history fun other written isWritten => .inl (of_lookup_history isWritten)
  next isNew =>
    apply follows_history
    intro other written isWritten
    by_cases same : other = id
    · subst same
      rw [AList.lookup_insert] at isWritten
      exact .inr ⟨rfl, (Option.some_inj.mp isWritten).symm, isNew⟩
    · rw [AList.lookup_insert_ne same] at isWritten
      exact .inl (of_lookup_history isWritten)

def IsTerminalRow (manager : QueueManager) (id : JobId) (job : JobState) (outcome : Outcome)
    (other : JobId) (row : HistoryRow) : Prop :=
  other = id ∧ row.status = QueueManager.finalStatus job outcome.usable ∧
    row.retryWorkDir = some job.workDir ∧ manager.isListed id = false ∧
    manager.historyPersisted id outcome = true

theorem follows_recordTerminal {job : JobState} (isJob : manager.jobs.lookup id = some job)
    (outcome : Outcome) :
    Follows manager.toStore (manager.recordTerminal id job outcome).toStore
      (IsTerminalRow manager id job outcome) := by
  have finished : Shrinks manager.toStore (manager.finish id job outcome.usable).toStore :=
    shrinks_insert_job isJob nofun rfl
  have none : ∀ other row, False → IsTerminalRow manager id job outcome other row :=
    fun _ _ none => none.elim
  have kept : ∀ other (row row' : HistoryRow), row'.status = row.status →
      row'.retryWorkDir = row.retryWorkDir → IsTerminalRow manager id job outcome other row →
      IsTerminalRow manager id job outcome other row' := by
    rintro other row row' status dir ⟨same, isFinal, isDir, rest⟩
    exact ⟨same, status.trans isFinal, dir.trans isDir, rest⟩
  rw [QueueManager.recordTerminal]
  refine Follows.trans (Follows.trans (Follows.trans finished ?_ (fun _ _ _ _ _ none => none.elim)
    fun _ _ new => new) (shrinks_queueRemove outcome.queueRemoved) kept none)
    (shrinks_retain _) kept none
  split
  next inserted =>
    rcases inserted with ⟨isRead, unlisted, isWritten⟩
    rw [Bool.not_eq_true'] at unlisted
    refine Follows.trans Follows.refl (follows_historyInsert _) (fun _ _ _ _ _ none => none.elim) ?_
    rintro other row ⟨same, rfl, isNew⟩
    refine ⟨same, rfl, rfl, unlisted, ?_⟩
    have absent : id ∉ manager.history := isNew
    simp [QueueManager.historyPersisted, isRead, isWritten, absent]
  · exact follows_history fun other row isRow => .inl (of_lookup_history isRow)

@[simp]
theorem dirs_historyInsert (row : HistoryRow) :
    (manager.historyInsert id row).dirs = manager.dirs := by
  rw [QueueManager.historyInsert]
  split <;> rfl

@[simp]
theorem deletions_historyInsert (row : HistoryRow) :
    (manager.historyInsert id row).deletions = manager.deletions := by
  rw [QueueManager.historyInsert]
  split <;> rfl

@[simp]
theorem dirs_queueRemove (removed : Bool) :
    (manager.queueRemove id removed).dirs = manager.dirs := by
  rw [QueueManager.queueRemove]
  split <;> rfl

@[simp]
theorem deletions_queueRemove (removed : Bool) :
    (manager.queueRemove id removed).deletions = manager.deletions := by
  rw [QueueManager.queueRemove]
  split <;> rfl

@[simp]
theorem dirs_recordTerminal (job : JobState) (outcome : Outcome) :
    (manager.recordTerminal id job outcome).dirs = manager.dirs := by
  simp only [QueueManager.recordTerminal, QueueManager.historyEnforceRetention, dirs_queueRemove]
  split
  · rw [dirs_historyInsert]
    rfl
  · rfl

@[simp]
theorem deletions_recordTerminal (job : JobState) (outcome : Outcome) :
    (manager.recordTerminal id job outcome).deletions = manager.deletions := by
  simp only [QueueManager.recordTerminal, QueueManager.historyEnforceRetention,
    deletions_queueRemove]
  split
  · rw [deletions_historyInsert]
    rfl
  · rfl

theorem not_holds_recordTerminal (job : JobState) {outcome : Outcome}
    (removed : outcome.queueRemoved = true) (dir : Path) :
    ¬(manager.recordTerminal id job outcome).Holds id dir := by
  have isJob : (manager.recordTerminal id job outcome).jobs.lookup id =
      (manager.finish id job outcome.usable).jobs.lookup id := by
    simp only [QueueManager.recordTerminal, QueueManager.historyEnforceRetention,
      QueueManager.queueRemove, removed, if_true, QueueManager.historyInsert]
    split
    · split <;> rfl
    · rfl
  have isRow : (manager.recordTerminal id job outcome).rows.lookup id = none := by
    simp only [QueueManager.recordTerminal, QueueManager.historyEnforceRetention,
      QueueManager.queueRemove, removed, if_true, AList.lookup_erase]
  rintro (⟨finished, found, unmoved, -⟩ | ⟨row, found, -⟩)
  · rw [isJob, QueueManager.finish, AList.lookup_insert] at found
    cases found
    cases unmoved
  · rw [isRow] at found
    cases found

theorem shrinks_cleanup (dir : Path) (final : Queue.JobStatus) (emptied removed : Bool) :
    Shrinks manager.toStore
      (manager.cleanupTerminalWorkDir id dir final emptied removed).toStore := by
  unfold QueueManager.cleanupTerminalWorkDir
  split
  · split
    · exact shrinks_delete _ _ _ _
    · split
      · exact shrinks_delete _ _ _ _
      · exact Follows.refl
    · exact Follows.refl
  · exact Follows.refl

theorem mem_deletions_cleanup {dir : Path} {final : Queue.JobStatus} {emptied removed : Bool}
    {deletion : Deletion} (isDeletion : deletion ∈
      (manager.cleanupTerminalWorkDir id dir final emptied removed).deletions) :
    deletion ∈ manager.deletions ∨ dir ∈ manager.dirs ∧ ∃ isEmpty,
      (final = .completed → isEmpty = true) ∧
        deletion = ⟨some id, dir, isEmpty, manager.toStore⟩ := by
  unfold QueueManager.cleanupTerminalWorkDir at isDeletion
  split at isDeletion
  next there =>
    split at isDeletion
    · rcases List.mem_append.mp isDeletion with isOld | isNew
      · exact .inl isOld
      · exact .inr ⟨there, false, nofun, List.mem_singleton.mp isNew⟩
    · split at isDeletion
      · rcases List.mem_append.mp isDeletion with isOld | isNew
        · exact .inl isOld
        · exact .inr ⟨there, true, fun _ => rfl, List.mem_singleton.mp isNew⟩
      · exact .inl isDeletion
    · exact .inl isDeletion
  · exact .inl isDeletion

theorem not_mem_dirs_cleanup (dir : Path) :
    dir ∉ (manager.cleanupTerminalWorkDir id dir .completed true true).dirs := by
  unfold QueueManager.cleanupTerminalWorkDir
  split
  · simp [QueueManager.delete]
  next absent => exact absent

theorem finalStatus_eq (job : JobState) (usable : Bool) :
    QueueManager.finalStatus job usable = .failed ∨
      QueueManager.finalStatus job usable = .completed := by
  rw [QueueManager.finalStatus]
  split
  · exact .inl rfl
  · split
    · exact .inr rfl
    · exact .inl rfl

section Terminal

variable {job : JobState} {outcome : Outcome}

theorem inactive_recordTerminal (sound : Sound incomplete manager.toStore)
    (isJob : manager.jobs.lookup id = some job) (unmoved : job.moved = false)
    (removed : outcome.queueRemoved = true) (other : JobId) :
    ¬(manager.recordTerminal id job outcome).Holds other job.workDir := by
  intro holds
  have held : manager.Holds id job.workDir := .inl ⟨job, isJob, unmoved, rfl⟩
  have follows := follows_recordTerminal isJob outcome
  have same := sound.apart other id job.workDir (follows.holds other _ holds) held
  subst same
  exact not_holds_recordTerminal job removed _ holds

theorem owner_recordTerminal (sound : Sound incomplete manager.toStore)
    (isJob : manager.jobs.lookup id = some job) (unmoved : job.moved = false) {other : JobId}
    (owns : (manager.recordTerminal id job outcome).Owns incomplete other job.workDir) :
    other = id ∧ QueueManager.finalStatus job outcome.usable = .completed := by
  have held : manager.Holds id job.workDir := .inl ⟨job, isJob, unmoved, rfl⟩
  rcases owns with ⟨row, isRow, notFailed, isDir⟩
  rcases (follows_recordTerminal isJob outcome).history other row isRow with
    ⟨old, isOld, status, dir⟩ | ⟨same, status, -⟩
  · exfalso
    rw [status] at notFailed
    rw [dir] at isDir
    by_cases own : job.workDir = incomplete ++ [other]
    · rcases sound.held id _ held with ⟨origin, -, isOrigin, isId | spent⟩
      · subst isId
        have same := append_singleton_inj (own.symm.trans isOrigin)
        subst same
        exact sound.settled other old isOld (.inl notFailed) _ held
      · have same := append_singleton_inj (own.symm.trans isOrigin)
        subst same
        exact notFailed (spent.failed old isOld)
    · exact (sound.cleared other old _ isOld notFailed (isDir.resolve_left own) own).2 id held
  · refine ⟨same, ?_⟩
    rcases finalStatus_eq job outcome.usable with failed | completed
    · exact absurd (status.trans failed) notFailed
    · exact completed

theorem recorded_of_isTerminalRow (sound : Sound incomplete manager.toStore)
    (isJob : manager.jobs.lookup id = some job) (unmoved : job.moved = false)
    (careful : manager.Careful incomplete (.moveToHistory id outcome)) {other : JobId}
    {row : HistoryRow} (isTerminal : IsTerminalRow manager id job outcome other row) :
    Recorded incomplete manager.toStore
      ((manager.recordTerminal id job outcome).cleanupTerminalWorkDir id job.workDir
        (QueueManager.finalStatus job outcome.usable) outcome.emptied outcome.dirRemoved).toStore
      other row := by
  rcases isTerminal with ⟨rfl, status, dir, unlisted, persisted⟩
  have held : manager.Holds other job.workDir := .inl ⟨job, isJob, unmoved, rfl⟩
  rcases careful persisted with ⟨removed, cleared⟩
  constructor
  · exact sound.issued other (.inl (AList.lookup_isSome.mp (Option.isSome_of_mem isJob)))
  · intro path isPath
    cases dir.symm.trans isPath
    exact held
  · exact fun _ => ⟨_, held⟩
  · intro _ path holds
    exact not_holds_recordTerminal job removed path
      ((shrinks_cleanup _ _ _ _).holds other path holds)
  · intro notFailed path isPath foreign
    cases dir.symm.trans isPath
    have completed := (finalStatus_eq job outcome.usable).resolve_left fun failed =>
      notFailed (status.trans failed)
    by_cases there : job.workDir ∈ manager.dirs
    · rcases cleared job isJob unlisted completed foreign there with ⟨emptied, dirRemoved⟩
      rw [completed, emptied, dirRemoved]
      exact not_mem_dirs_cleanup _
    · intro there'
      unfold QueueManager.cleanupTerminalWorkDir at there'
      rw [if_neg (by simpa using there)] at there'
      exact there (by simpa using there')

theorem Safe.moveToHistory (safe : Safe incomplete manager)
    (isUnmoved : manager.isUnmoved id = true)
    (careful : manager.Careful incomplete (.moveToHistory id outcome)) :
    Safe incomplete (manager.moveToHistory id outcome) := by
  rcases exists_of_isUnmoved isUnmoved with ⟨job, isJob, unmoved⟩
  have follows := follows_recordTerminal isJob outcome
  rw [QueueManager.moveToHistory, isJob]
  dsimp only
  split
  next persisted =>
    constructor
    · apply safe.sound.follows (Follows.trans follows (shrinks_cleanup _ _ _ _) ?_
        fun _ _ none => none.elim)
      · exact fun other row isRow =>
          recorded_of_isTerminalRow safe.sound isJob unmoved careful isRow
      · rintro other row row' status dir ⟨same, isFinal, isDir, rest⟩
        exact ⟨same, status.trans isFinal, dir.trans isDir, rest⟩
    · intro deletion isDeletion
      rcases mem_deletions_cleanup isDeletion with isOld | ⟨there, isEmpty, emptied, rfl⟩
      · rw [deletions_recordTerminal] at isOld
        exact safe.spares deletion isOld
      · constructor
        · intro other active
          exact inactive_recordTerminal safe.sound isJob unmoved (careful persisted).1 other
            active.holds
        · intro other owns
          rcases owner_recordTerminal safe.sound isJob unmoved owns with ⟨rfl, completed⟩
          exact ⟨rfl, emptied completed⟩
  next unpersisted =>
    constructor
    · apply safe.sound.follows follows
      rintro other row ⟨-, -, -, -, persisted⟩
      exact absurd persisted unpersisted
    · rw [deletions_recordTerminal]
      exact safe.spares

end Terminal

section

variable (safe : Safe incomplete manager)

include safe

theorem Safe.historyEnforceRetention (dropped : List JobId) :
    Safe incomplete (manager.historyEnforceRetention dropped) :=
  safe.shrinks (shrinks_retain _) rfl

theorem Safe.leave (id : JobId) : Safe incomplete (manager.leave id) :=
  safe.shrinks shrinks_erase_job rfl

theorem Safe.queueRemove (id : JobId) (removed : Bool) :
    Safe incomplete (manager.queueRemove id removed) :=
  safe.shrinks (shrinks_queueRemove removed) (deletions_queueRemove removed)

theorem Safe.historyInsert (isKey : id ∈ manager.jobs)
    {row : HistoryRow} (failed : row.status = .failed) (none : row.retryWorkDir = none) :
    Safe incomplete (manager.historyInsert id row) where
  sound := by
    apply safe.sound.follows (follows_historyInsert row)
    rintro other written ⟨rfl, rfl, -⟩
    constructor
    · exact safe.sound.issued other (.inl isKey)
    · simp [none]
    · exact fun notFailed => absurd failed notFailed
    · simp [failed, none]
    · exact fun notFailed => absurd failed notFailed
  spares := by
    rw [deletions_historyInsert]
    exact safe.spares

theorem Safe.removeJob (hasError : Bool) (outcome : Outcome) :
    Safe incomplete (manager.removeJob id hasError outcome) := by
  rw [QueueManager.removeJob]
  split
  · exact safe
  next job isJob =>
    have isKey : id ∈ manager.jobs := AList.lookup_isSome.mp (Option.isSome_of_mem isJob)
    split
    · exact safe
    · split
      · dsimp only
        have recorded : Safe incomplete
            (if hasError ∧ !manager.isListed id ∧ outcome.historyWritten ∧ id ∉ manager.history then
              (manager.historyInsert id {
                status := .failed
                retryWorkDir := none
                nzbData := outcome.nzbData
                trash := none }).historyEnforceRetention outcome.dropped
            else manager) := by
          split
          · exact (safe.historyInsert isKey rfl rfl).historyEnforceRetention outcome.dropped
          · exact safe
        have left := (recorded.leave id).queueRemove id outcome.queueRemoved
        split
        · exact left.shrinks (shrinks_dirs fun dir isDir => .inl (List.mem_filter.mp isDir).1) rfl
        · exact left
      · exact safe.leave id

theorem Safe.historyRemove (pruned : Bool) (reclaim : Reclaim) :
    Safe incomplete (manager.historyRemove incomplete id pruned reclaim) := by
  have removed : Safe incomplete { manager with history := manager.history.erase id } :=
    safe.shrinks (follows_history fun other row isRow =>
      .inl (of_lookup_history (Registry.lookup_of_lookup_erase isRow))) rfl
  rw [QueueManager.historyRemove]
  split
  · exact removed.reclaimAll reclaim _
  · exact removed

theorem Safe.historyTrash (ids : List JobId) (deadline : ℤ) :
    Safe incomplete (manager.historyTrash ids deadline) := by
  refine safe.shrinks (shrinks_mapValues ?_ ?_) rfl
  · intro id row
    split <;> rfl
  · intro id row
    split <;> rfl

theorem Safe.historyRestore (ids : List JobId) (now : ℤ) :
    Safe incomplete (manager.historyRestore ids now) := by
  refine safe.shrinks (shrinks_mapValues ?_ ?_) rfl
  · intro id row
    split <;> rfl
  · intro id row
    split <;> rfl

theorem Safe.historyPurgeExpired (now : ℤ) (pruned : Bool) (reclaim : Reclaim) :
    Safe incomplete (manager.historyPurgeExpired incomplete now pruned reclaim) := by
  have purged : Safe incomplete { manager with
      history := manager.history.retain fun _ row => !QueueManager.isExpired now row } :=
    safe.shrinks (shrinks_retain _) rfl
  rw [QueueManager.historyPurgeExpired]
  split
  · exact purged.reclaimAll reclaim _
  · exact purged

theorem Safe.historyClear (pruned : Bool) (reclaim : Reclaim) :
    Safe incomplete (manager.historyClear incomplete pruned reclaim) := by
  have cleared : Safe incomplete { manager with history := ∅ } :=
    safe.shrinks (follows_history nofun) rfl
  rw [QueueManager.historyClear]
  split
  · exact cleared.reclaimAll reclaim _
  · exact cleared

theorem Safe.stop : Safe incomplete manager.stop := by
  refine safe.shrinks (Follows.of_lookup nofun ?_ ?_ ?_ rfl) rfl
  · exact fun _ _ isRow => of_lookup_rows isRow
  · exact fun _ _ isRow => .inl (of_lookup_history isRow)
  · exact fun _ isDir => .inl isDir

theorem Safe.restoreFromDb (held : JobId → Bool) (listed : Bool) (reclaim : Reclaim) :
    Safe incomplete (manager.restoreFromDb incomplete held listed reclaim) := by
  have swept := safe.stop.sweepOrphanedWorkDirs reclaim
  rw [QueueManager.restoreFromDb]
  split
  · refine swept.shrinks (shrinks_jobs fun id job isJob => ?_) rfl
    rw [Registry.lookup_mapValues] at isJob
    rcases Option.map_eq_some_iff.mp isJob with ⟨row, isRow, rfl⟩
    have holds := of_lookup_rows isRow
    exact ⟨holds.mem, fun _ => holds⟩
  · exact swept

end

theorem safe_init (incomplete : Path) (dirs : List Path) :
    Safe incomplete (QueueManager.init dirs) where
  sound := by
    constructor
    · rintro id (isKey | isKey | isKey)
      · exact absurd isKey (AList.notMem_empty id)
      · exact absurd isKey (AList.notMem_empty id)
      · exact absurd isKey (AList.notMem_empty id)
    · rintro id dir (⟨job, found, -⟩ | ⟨row, found, -⟩) <;> cases found
    · intro id row dir found
      cases found
    · rintro id other dir (⟨job, found, -⟩ | ⟨row, found, -⟩) <;> cases found
    · intro id row found
      cases found
    · intro id row dir found
      cases found
  spares _ isDeletion := absurd isDeletion List.not_mem_nil

theorem Safe.keep (safe : Safe incomplete manager) (careful : manager.Careful incomplete label)
    (move : QueueManager.Step incomplete manager label manager') : Safe incomplete manager' := by
  rw [QueueManager.Step] at move
  cases label with
  | addJob id admission =>
      dsimp only [QueueManager.next] at move
      split at move <;> cases move
      next fresh => exact safe.admitJob fresh (.inl rfl) admission
  | addJobIdempotent id key digest admission =>
      dsimp only [QueueManager.next] at move
      split at move <;> cases move
      next fresh => exact safe.addJobIdempotent fresh key digest admission
  | retryHistoryEntry entry id admission =>
      dsimp only [QueueManager.next] at move
      split at move <;> cases move
      next fresh => exact safe.retryHistoryEntry fresh careful
  | setStatus id status =>
      dsimp only [QueueManager.next] at move
      split at move <;> cases move
      next guard => exact safe.setStatus guard.1 status
  | persist id =>
      cases move
      exact safe.persist
  | writeArticle id =>
      dsimp only [QueueManager.next] at move
      split at move <;> cases move
      next isUnmoved => exact safe.writeArticle isUnmoved
  | moveToHistory id outcome =>
      dsimp only [QueueManager.next] at move
      split at move <;> cases move
      next isUnmoved => exact safe.moveToHistory isUnmoved careful
  | leave id =>
      dsimp only [QueueManager.next] at move
      split at move <;> cases move
      exact safe.leave id
  | removeJob id hasError outcome =>
      cases move
      exact safe.removeJob hasError outcome
  | historyRemove id pruned reclaim =>
      cases move
      exact safe.historyRemove pruned reclaim
  | historyMarkClientRemoved ids reclaim =>
      cases move
      exact safe.reclaimAll reclaim _
  | historyTrash ids deadline =>
      cases move
      exact safe.historyTrash ids deadline
  | historyRestore ids now =>
      cases move
      exact safe.historyRestore ids now
  | historyPurgeExpired now pruned reclaim =>
      cases move
      exact safe.historyPurgeExpired now pruned reclaim
  | historyClear pruned reclaim =>
      cases move
      exact safe.historyClear pruned reclaim
  | restart held listed reclaim =>
      cases move
      exact safe.restoreFromDb held listed reclaim

namespace QueueManager

/-- In a careful run, no two active jobs work in one directory, and none that an active job or a row
of the history has is deleted. -/
theorem one_owner {dirs : List Path} {labels : List Label}
    (run : Run (Step incomplete) (init dirs) labels manager)
    (careful : Run.Always (Step incomplete) (init dirs)
      (fun _ manager label => manager.Careful incomplete label) labels) :
    manager.OneOwner ∧ ∀ deletion ∈ manager.deletions, deletion.Spares incomplete := by
  have safe := run.invariant_of_steps (fun _ manager => Safe incomplete manager) careful
    (safe_init incomplete dirs) fun _ _ _ _ _ safe careful move => safe.keep careful move
  exact ⟨safe.sound.oneOwner, safe.spares⟩

def isHeld (manager : QueueManager) (dir : Path) : Bool :=
  (manager.jobs.entries.any fun job => !job.2.moved && job.2.workDir = dir) ||
    manager.rows.entries.any fun row => row.2.workDir = dir

theorem isHeld_of_holds {dir : Path} (holds : manager.Holds id dir) :
    manager.isHeld dir = true := by
  rw [isHeld, Bool.or_eq_true, List.any_eq_true, List.any_eq_true]
  rcases holds with ⟨job, isJob, unmoved, rfl⟩ | ⟨row, isRow, rfl⟩
  · refine .inl ⟨⟨id, job⟩, AList.mem_lookup_iff.mp isJob, ?_⟩
    simp [unmoved]
  · refine .inr ⟨⟨id, row⟩, AList.mem_lookup_iff.mp isRow, ?_⟩
    simp

def isCareful (incomplete : Path) (manager : QueueManager) : Label → Bool
  | .retryHistoryEntry entry _ _ =>
      (manager.retried entry).all fun row =>
        (manager.retainedWorkDir incomplete row).all fun dir => !manager.isHeld dir
  | .moveToHistory id outcome =>
      !manager.historyPersisted id outcome || outcome.queueRemoved &&
        (manager.jobs.lookup id).all fun job =>
          job.workDir = incomplete ++ [id] || finalStatus job outcome.usable = .failed ||
            outcome.emptied && outcome.dirRemoved
  | _ => true

theorem careful_of_isCareful (isCareful : manager.isCareful incomplete label = true) :
    manager.Careful incomplete label := by
  cases label with
  | retryHistoryEntry entry id admission =>
      intro row dir isRow isDir other holds
      simp only [QueueManager.isCareful, isRow, isDir, Option.all_some,
        Bool.not_eq_true'] at isCareful
      rw [isHeld_of_holds holds] at isCareful
      cases isCareful
  | moveToHistory id outcome =>
      intro persisted
      simp only [QueueManager.isCareful, persisted, Bool.not_true, Bool.false_or,
        Bool.and_eq_true] at isCareful
      refine ⟨isCareful.1, fun job isJob _ completed foreign _ => ?_⟩
      simpa [isJob, foreign, completed] using isCareful.2
  | _ => trivial

def carefulNext (incomplete : Path) (manager : QueueManager) (label : Label) :
    Option QueueManager :=
  if manager.isCareful incomplete label then manager.next incomplete label else none

theorem of_carefulNext (moved : manager.carefulNext incomplete label = some manager') :
    Step incomplete manager label manager' ∧ manager.Careful incomplete label := by
  rw [carefulNext] at moved
  split at moved
  next isCareful => exact ⟨moved, careful_of_isCareful isCareful⟩
  · cases moved

theorem exists_run {labels : List Label} {goal : QueueManager → Prop}
    (executed : ∃ manager ∈ execute (next incomplete) (init []) labels, goal manager) :
    ∃ manager, Run (Step incomplete) (init []) labels manager ∧ goal manager := by
  rcases executed with ⟨manager, isManager, isGoal⟩
  exact ⟨manager, Run.of_execute (fun _ _ _ moved => moved) Run.start isManager, isGoal⟩

def root : Path := ["incomplete"]

def first : JobId := "11111111-1111-4111-8111-111111111111"

def second : JobId := "22222222-2222-4222-8222-222222222222"

def third : JobId := "33333333-3333-4333-8333-333333333333"

def queued : Admission := ⟨false, false, true⟩

def failing (dirRemoved : Bool) : Outcome where
  usable := false
  emptied := false
  nzbData := true
  historyRead := true
  historyWritten := true
  queueRemoved := true
  dirRemoved := dirRemoved
  dropped := []

def reclaims : Reclaim := ⟨true, fun _ => true⟩

/-- The directory of the first job outlives its failure, and a retry takes it over. -/
def takenOver : List Label :=
  [.addJob first queued, .moveToHistory first (failing false),
    .retryHistoryEntry first second queued]

/-- The retry fails, and now the directory is deleted. -/
theorem one_owner_takenOver : ∃ manager,
    Run (Step root) (init []) (takenOver ++ [.moveToHistory second (failing true)]) manager ∧
      (manager.OneOwner ∧ ∀ deletion ∈ manager.deletions, deletion.Spares root) := by
  have executed : (execute (carefulNext root) (init [])
      (takenOver ++ [.moveToHistory second (failing true)])).isSome := by decide
  rcases Option.isSome_iff_exists.mp executed with ⟨manager, isManager⟩
  have moves : ∀ manager label manager', carefulNext root manager label = some manager' →
      Step root manager label manager' ∧ manager.Careful root label :=
    fun _ _ _ moved => of_carefulNext moved
  rcases Run.always_of_execute (fun _ _ _ _ one other => Option.some_inj.mp (one.symm.trans other))
    moves Run.start Run.Always.nil isManager with ⟨run, careful⟩
  exact ⟨manager, run, one_owner run careful⟩

/-- After a restart the entry is retried once more while its first retry is in the queue; and the
failure of one retry deletes the directory under the other. A completed retry that left files behind
loses them when the entry it retried is removed. -/
theorem not_one_owner :
    (∃ labels manager, Run (Step root) (init []) labels manager ∧ ¬manager.OneOwner) ∧
    (∃ labels manager, Run (Step root) (init []) labels manager ∧ ∃ deletion ∈ manager.deletions,
      ∃ id, deletion.store.Active id deletion.dir) ∧
    ∃ labels manager, Run (Step root) (init []) labels manager ∧ ∃ deletion ∈ manager.deletions,
      deletion.owner = none ∧ ∃ id, deletion.store.Owns root id deletion.dir := by
  refine ⟨⟨takenOver ++ ([.restart (fun _ => false) true reclaims,
    .retryHistoryEntry first third queued] : List Label), ?_⟩, ⟨takenOver ++ ([.restart (fun _ =>
      false) true reclaims, .retryHistoryEntry first third queued, .moveToHistory second
        (failing true)] : List Label), ?_⟩, ⟨takenOver ++ ([.moveToHistory second
          { failing false with usable := true }, .historyRemove first true reclaims] : List Label),
            ?_⟩⟩
  · have both : ∃ manager ∈ execute (next root) (init []) (takenOver ++
        [.restart (fun _ => false) true reclaims, .retryHistoryEntry first third queued]),
        manager.rows.lookup second = some ⟨.queued, root ++ [first]⟩ ∧
          manager.rows.lookup third = some ⟨.queued, root ++ [first]⟩ := by decide
    rcases exists_run both with ⟨manager, run, isSecond, isThird⟩
    refine ⟨manager, run, fun oneOwner => ?_⟩
    have same := oneOwner second third _ (.inr ⟨_, isSecond, rfl, rfl⟩)
      (.inr ⟨_, isThird, rfl, rfl⟩)
    exact absurd same (by decide)
  · have under : ∃ manager ∈ execute (next root) (init []) (takenOver ++
        [.restart (fun _ => false) true reclaims, .retryHistoryEntry first third queued,
          .moveToHistory second (failing true)]),
        ∃ deletion ∈ manager.deletions, deletion.dir = root ++ [first] ∧
          deletion.store.rows.lookup third = some ⟨.queued, root ++ [first]⟩ := by decide
    rcases exists_run under with ⟨manager, run, deletion, isDeletion, isDir, isThird⟩
    refine ⟨manager, run, deletion, isDeletion, third, ?_⟩
    rw [isDir]
    exact .inr ⟨_, isThird, rfl, rfl⟩
  · have under : ∃ manager ∈ execute (next root) (init []) (takenOver ++
        [.moveToHistory second { failing false with usable := true },
          .historyRemove first true reclaims]),
        ∃ deletion ∈ manager.deletions, deletion.owner = none ∧ deletion.dir = root ++ [first] ∧
          deletion.store.history.lookup second =
            some ⟨.completed, some (root ++ [first]), true, none⟩ := by decide
    rcases exists_run under with ⟨manager, run, deletion, isDeletion, unowned, isDir, isSecond⟩
    refine ⟨manager, run, deletion, isDeletion, unowned, second, ?_⟩
    rw [isDir]
    exact ⟨_, isSecond, by decide, .inr rfl⟩

end QueueManager

end Rustnzb.Web.WorkDirs
