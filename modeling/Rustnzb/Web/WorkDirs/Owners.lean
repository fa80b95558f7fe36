import Rustnzb.Web.WorkDirs.Manager

/-!
# The owner of a work directory

The name of a directory tells for which job it was made. That job has it, or the job has failed for
good and the directory has passed to a retry. As long as a retry takes over only what no job in the
queue works in, a directory has one owner, and the three functions that clean up take it from
nobody.

This needs that the row of the queue goes when the one of the history is written, and that a
completed retry leaves nothing behind in a directory it took over: its row owns the directory with
its own id only.
-/

namespace Rustnzb.Web.WorkDirs

open Dispatch (JobId)
open Lib (Registry Run)

section Specification

variable (incomplete : Path)

namespace Store

variable (store : Store) (id : JobId) (dir : Path)

/-- In memory or in the queue table, the job works in the directory and is neither completed nor
failed. -/
def Active : Prop :=
  (∃ job, store.jobs.lookup id = some job ∧ isTerminal job.status = false ∧ job.workDir = dir) ∨
    ∃ row, store.rows.lookup id = some row ∧ isTerminal row.status = false ∧ row.workDir = dir

def OneOwner : Prop :=
  ∀ id other dir, store.Active id dir → store.Active other dir → id = other

/-- A row of the history that has not failed, visible or in the trash, owns the directory with its
id and the one its job worked in. -/
def Owns : Prop :=
  ∃ row, store.history.lookup id = some row ∧ row.status ≠ .failed ∧
    (dir = incomplete ++ [id] ∨ row.retryWorkDir = some dir)

/-- The job is in the queue table, or in memory and still to be moved to the history. -/
def Holds : Prop :=
  (∃ job, store.jobs.lookup id = some job ∧ job.moved = false ∧ job.workDir = dir) ∨
    ∃ row, store.rows.lookup id = some row ∧ row.workDir = dir

end Store

/-- The directory is taken from nobody: no active job works in it, and it is no row's but that of
the job which clears away what it left empty itself. -/
def Deletion.Spares (deletion : Deletion) : Prop :=
  (∀ id, ¬deletion.store.Active id deletion.dir) ∧
    ∀ id, deletion.store.Owns incomplete id deletion.dir →
      deletion.owner = some id ∧ deletion.emptied = true

/-- What a retry takes over is held by no job in the queue; with the row of the history written,
the one of the queue is removed; and a job that completes in a directory made for another one leaves
no directory. -/
def QueueManager.Careful (manager : QueueManager) : Label → Prop
  | .retryHistoryEntry entry _ _ =>
      ∀ row dir, manager.retried entry = some row →
        manager.retainedWorkDir incomplete row = some dir → ∀ other, ¬manager.Holds other dir
  | .moveToHistory id outcome =>
      manager.historyPersisted id outcome = true →
        outcome.queueRemoved = true ∧
          ∀ job, manager.jobs.lookup id = some job → manager.isListed id = false →
            finalStatus job outcome.usable = .completed → job.workDir ≠ incomplete ++ [id] →
            job.workDir ∈ manager.dirs → outcome.emptied = true ∧ outcome.dirRemoved = true
  | _ => True

end Specification

section Invariant

variable (incomplete : Path) (store : Store)

/-- The job is neither in the queue nor in the history, or it is there as failed. -/
structure Spent (origin : JobId) : Prop where
  left : ∀ dir, ¬store.Holds origin dir
  failed : ∀ row, store.history.lookup origin = some row → row.status = .failed

def Named (id : JobId) (dir : Path) : Prop :=
  ∃ origin ∈ store.issued, dir = incomplete ++ [origin] ∧ (origin = id ∨ Spent store origin)

structure Sound : Prop where
  issued : ∀ id, id ∈ store.jobs ∨ id ∈ store.rows ∨ id ∈ store.history → id ∈ store.issued
  held : ∀ id dir, store.Holds id dir → Named incomplete store id dir
  worked : ∀ id row dir, store.history.lookup id = some row → row.retryWorkDir = some dir →
    Named incomplete store id dir
  apart : ∀ id other dir, store.Holds id dir → store.Holds other dir → id = other
  settled : ∀ id row, store.history.lookup id = some row →
    row.status ≠ .failed ∨ row.retryWorkDir ≠ none → ∀ dir, ¬store.Holds id dir
  cleared : ∀ id row dir, store.history.lookup id = some row → row.status ≠ .failed →
    row.retryWorkDir = some dir → dir ≠ incomplete ++ [id] →
    dir ∉ store.dirs ∧ ∀ other, ¬store.Holds other dir

structure Recorded (store' : Store) (id : JobId) (row : HistoryRow) : Prop where
  issued : id ∈ store.issued
  worked : ∀ dir, row.retryWorkDir = some dir → store.Holds id dir
  active : row.status ≠ .failed → ∃ dir, store.Holds id dir
  left : row.status ≠ .failed ∨ row.retryWorkDir ≠ none → ∀ dir, ¬store'.Holds id dir
  cleared : row.status ≠ .failed → ∀ dir, row.retryWorkDir = some dir →
    dir ≠ incomplete ++ [id] → dir ∉ store'.dirs

structure Follows (store' : Store) (recorded : JobId → HistoryRow → Prop) : Prop where
  keys : ∀ id, id ∈ store'.jobs ∨ id ∈ store'.rows → id ∈ store.jobs ∨ id ∈ store.rows
  holds : ∀ id dir, store'.Holds id dir → store.Holds id dir
  history : ∀ id row', store'.history.lookup id = some row' →
    (∃ row, store.history.lookup id = some row ∧ row'.status = row.status ∧
      row'.retryWorkDir = row.retryWorkDir) ∨ recorded id row'
  dirs : ∀ dir ∈ store'.dirs, dir ∈ store.dirs ∨ ∃ id, store.Holds id dir
  issued : ∀ id ∈ store.issued, id ∈ store'.issued

def Shrinks (store' : Store) : Prop := Follows store store' fun _ _ => False

end Invariant

section Rules

variable {incomplete : Path} {store store' store'' : Store} {id other : JobId} {dir : Path}
  {recorded : JobId → HistoryRow → Prop}

theorem Store.Holds.mem (holds : store.Holds id dir) : id ∈ store.jobs ∨ id ∈ store.rows := by
  rcases holds with ⟨job, isJob, -⟩ | ⟨row, isRow, -⟩
  · exact .inl (AList.lookup_isSome.mp (Option.isSome_of_mem isJob))
  · exact .inr (AList.lookup_isSome.mp (Option.isSome_of_mem isRow))

theorem Store.Active.holds (active : store.Active id dir) : store.Holds id dir := by
  rcases active with ⟨job, isJob, open_, isDir⟩ | ⟨row, isRow, -, isDir⟩
  · refine .inl ⟨job, isJob, ?_, isDir⟩
    by_contra moved
    rw [Bool.not_eq_false] at moved
    rw [job.isTerminal_of_moved moved] at open_
    exact absurd open_ (by decide)
  · exact .inr ⟨row, isRow, isDir⟩

theorem append_singleton_inj (same : incomplete ++ [id] = incomplete ++ [other]) : id = other := by
  simpa using same

theorem Sound.oneOwner (sound : Sound incomplete store) : store.OneOwner :=
  fun id other dir active active' => sound.apart id other dir active.holds active'.holds

theorem Follows.refl : Shrinks store store where
  keys _ isKey := isKey
  holds _ _ holds := holds
  history _ row isRow := .inl ⟨row, isRow, rfl, rfl⟩
  dirs _ isDir := .inl isDir
  issued _ isIssued := isIssued

theorem Follows.trans {first second : JobId → HistoryRow → Prop}
    (follows : Follows store store' first) (follows' : Follows store' store'' second)
    (old : ∀ id row row', row'.status = row.status → row'.retryWorkDir = row.retryWorkDir →
      first id row → recorded id row')
    (new : ∀ id row, second id row → recorded id row) : Follows store store'' recorded where
  keys id isKey := follows.keys id (follows'.keys id isKey)
  holds id dir holds := follows.holds id dir (follows'.holds id dir holds)
  history id row'' isRow := by
    rcases follows'.history id row'' isRow with ⟨row', isRow', status', dir'⟩ | isNew
    · rcases follows.history id row' isRow' with ⟨row, isRow, status, dir⟩ | isOld
      · exact .inl ⟨row, isRow, status'.trans status, dir'.trans dir⟩
      · exact .inr (old id row' row'' status' dir' isOld)
    · exact .inr (new id row'' isNew)
  dirs dir isDir := by
    rcases follows'.dirs dir isDir with isDir | ⟨id, holds⟩
    · exact follows.dirs dir isDir
    · exact .inr ⟨id, follows.holds id dir holds⟩
  issued id isIssued := follows'.issued id (follows.issued id isIssued)

theorem Spent.follows {origin : JobId} (spent : Spent store origin)
    (follows : Follows store store' recorded)
    (isRecorded : ∀ id row, recorded id row → Recorded incomplete store store' id row) :
    Spent store' origin where
  left dir holds := spent.left dir (follows.holds origin dir holds)
  failed row isRow := by
    rcases follows.history origin row isRow with ⟨old, isOld, status, -⟩ | new
    · rw [status]
      exact spent.failed old isOld
    · by_contra notFailed
      rcases (isRecorded origin row new).active notFailed with ⟨dir, holds⟩
      exact spent.left dir holds

theorem Named.follows (named : Named incomplete store id dir)
    (follows : Follows store store' recorded)
    (isRecorded : ∀ id row, recorded id row → Recorded incomplete store store' id row) :
    Named incomplete store' id dir := by
  rcases named with ⟨origin, isIssued, isDir, same | spent⟩
  · exact ⟨origin, follows.issued origin isIssued, isDir, .inl same⟩
  · exact ⟨origin, follows.issued origin isIssued, isDir, .inr (spent.follows follows isRecorded)⟩

theorem Sound.follows (sound : Sound incomplete store) (follows : Follows store store' recorded)
    (isRecorded : ∀ id row, recorded id row → Recorded incomplete store store' id row) :
    Sound incomplete store' where
  issued id isKey := by
    apply follows.issued
    rcases isKey with isKey | isKey | isKey
    · rcases follows.keys id (.inl isKey) with isKey | isKey
      · exact sound.issued id (.inl isKey)
      · exact sound.issued id (.inr (.inl isKey))
    · rcases follows.keys id (.inr isKey) with isKey | isKey
      · exact sound.issued id (.inl isKey)
      · exact sound.issued id (.inr (.inl isKey))
    · obtain ⟨row, isRow⟩ := Option.isSome_iff_exists.mp (AList.lookup_isSome.mpr isKey)
      rcases follows.history id row isRow with ⟨old, isOld, -⟩ | new
      · exact sound.issued id (.inr (.inr (AList.lookup_isSome.mp (Option.isSome_of_mem isOld))))
      · exact (isRecorded id row new).issued
  held id dir holds :=
    (sound.held id dir (follows.holds id dir holds)).follows follows isRecorded
  worked id row dir isRow isDir := by
    rcases follows.history id row isRow with ⟨old, isOld, -, same⟩ | new
    · exact (sound.worked id old dir isOld (same ▸ isDir)).follows follows isRecorded
    · have holds := (isRecorded id row new).worked dir isDir
      exact (sound.held id dir holds).follows follows isRecorded
  apart id other dir holds holds' :=
    sound.apart id other dir (follows.holds id dir holds) (follows.holds other dir holds')
  settled id row isRow isSettled dir holds := by
    rcases follows.history id row isRow with ⟨old, isOld, status, same⟩ | new
    · rw [status, same] at isSettled
      exact sound.settled id old isOld isSettled dir (follows.holds id dir holds)
    · exact (isRecorded id row new).left isSettled dir holds
  cleared id row dir isRow notFailed isDir foreign := by
    rcases follows.history id row isRow with ⟨old, isOld, status, same⟩ | new
    · rcases sound.cleared id old dir isOld (status ▸ notFailed) (same ▸ isDir) foreign with
        ⟨gone, free⟩
      refine ⟨fun there => ?_, fun other holds => free other (follows.holds other dir holds)⟩
      rcases follows.dirs dir there with there | ⟨other, holds⟩
      · exact gone there
      · exact free other holds
    · have recorded := isRecorded id row new
      refine ⟨recorded.cleared notFailed dir isDir foreign, fun other holds => ?_⟩
      have same := sound.apart other id dir (follows.holds other dir holds)
        (recorded.worked dir isDir)
      subst same
      exact recorded.left (.inl notFailed) dir holds

theorem Sound.shrinks (sound : Sound incomplete store) (shrinks : Shrinks store store') :
    Sound incomplete store' :=
  sound.follows shrinks fun _ _ none => none.elim

/-- What a new job may work in: a directory of its own, or one that is left from a failed job. -/
def Free (incomplete : Path) (store : Store) (id : JobId) (dir : Path) : Prop :=
  dir = incomplete ++ [id] ∨
    dir ∈ store.dirs ∧ (∀ other, ¬store.Holds other dir) ∧
      ∃ entry row, store.history.lookup entry = some row ∧ row.status = .failed ∧
        row.retryWorkDir = some dir

/-- A job enters, or at least its directory is made. -/
structure Admits (store : Store) (id : JobId) (dir : Path) (store' : Store) : Prop where
  keys : ∀ other, other ∈ store'.jobs ∨ other ∈ store'.rows →
    other = id ∨ other ∈ store.jobs ∨ other ∈ store.rows
  holds : ∀ other dir', store'.Holds other dir' →
    store.Holds other dir' ∨ other = id ∧ dir' = dir
  history : store'.history = store.history
  dirs : ∀ dir' ∈ store'.dirs, dir' ∈ store.dirs ∨ dir' = dir
  issued : store'.issued = id :: store.issued

theorem Sound.not_held (sound : Sound incomplete store) (fresh : id ∉ store.issued)
    (free : Free incomplete store id dir) : ¬store.Holds other dir := by
  intro holds
  rcases free with rfl | ⟨-, free, -⟩
  · rcases sound.held other _ holds with ⟨origin, isIssued, same, -⟩
    exact fresh (append_singleton_inj same ▸ isIssued)
  · exact free other holds

theorem Sound.ne_of_cleared (sound : Sound incomplete store) (fresh : id ∉ store.issued)
    (free : Free incomplete store id dir) {row : HistoryRow} {path : Path}
    (isRow : store.history.lookup other = some row) (isPath : row.retryWorkDir = some path)
    (gone : path ∉ store.dirs) : path ≠ dir := by
  rintro rfl
  rcases free with rfl | ⟨there, -⟩
  · rcases sound.worked other row _ isRow isPath with ⟨origin, isIssued, same, -⟩
    exact fresh (append_singleton_inj same ▸ isIssued)
  · exact gone there

theorem Admits.named (admits : Admits store id dir store') (fresh : id ∉ store.issued) {path : Path}
    (named : Named incomplete store other path) : Named incomplete store' other path := by
  rcases named with ⟨origin, isIssued, isPath, same | spent⟩
  · refine ⟨origin, ?_, isPath, .inl same⟩
    rw [admits.issued]
    exact List.mem_cons_of_mem id isIssued
  · refine ⟨origin, ?_, isPath, .inr ⟨fun path' holds => ?_, ?_⟩⟩
    · rw [admits.issued]
      exact List.mem_cons_of_mem id isIssued
    · rcases admits.holds origin path' holds with holds | ⟨same, -⟩
      · exact spent.left path' holds
      · exact fresh (same ▸ isIssued)
    · rw [admits.history]
      exact spent.failed

theorem Sound.named_free (sound : Sound incomplete store) (fresh : id ∉ store.issued)
    (free : Free incomplete store id dir) (admits : Admits store id dir store') :
    Named incomplete store' id dir := by
  rcases free with own | ⟨-, -, entry, row, isRow, failed, isDir⟩
  · refine ⟨id, ?_, own, .inl rfl⟩
    rw [admits.issued]
    exact List.mem_cons_self
  · rcases sound.worked entry row dir isRow isDir with ⟨origin, isIssued, isPath, same | spent⟩
    · subst same
      have isSpent : Spent store origin := by
        refine ⟨sound.settled origin row isRow (.inr (by simp [isDir])), fun other isOther => ?_⟩
        cases isRow.symm.trans isOther
        exact failed
      have isNamed : Named incomplete store id dir := ⟨origin, isIssued, isPath, .inr isSpent⟩
      exact admits.named fresh isNamed
    · exact admits.named fresh ⟨origin, isIssued, isPath, .inr spent⟩

theorem Sound.admits (sound : Sound incomplete store) (fresh : id ∉ store.issued)
    (free : Free incomplete store id dir) (admits : Admits store id dir store') :
    Sound incomplete store' where
  issued other isKey := by
    rw [admits.issued, List.mem_cons]
    rw [admits.history] at isKey
    have known : other = id ∨ other ∈ store.jobs ∨ other ∈ store.rows ∨ other ∈ store.history := by
      rcases isKey with isKey | isKey | isKey
      · rcases admits.keys other (.inl isKey) with same | isKey | isKey <;> tauto
      · rcases admits.keys other (.inr isKey) with same | isKey | isKey <;> tauto
      · tauto
    rcases known with same | known
    · exact .inl same
    · exact .inr (sound.issued other known)
  held other path holds := by
    rcases admits.holds other path holds with holds | ⟨rfl, rfl⟩
    · exact admits.named fresh (sound.held other path holds)
    · exact sound.named_free fresh free admits
  worked other row path isRow isPath := by
    rw [admits.history] at isRow
    exact admits.named fresh (sound.worked other row path isRow isPath)
  apart first second path holds holds' := by
    rcases admits.holds first path holds with holds | ⟨rfl, rfl⟩
    · rcases admits.holds second path holds' with holds' | ⟨rfl, rfl⟩
      · exact sound.apart first second path holds holds'
      · exact absurd holds (sound.not_held fresh free)
    · rcases admits.holds second path holds' with holds' | ⟨rfl, -⟩
      · exact absurd holds' (sound.not_held fresh free)
      · rfl
  settled other row isRow isSettled path holds := by
    rw [admits.history] at isRow
    rcases admits.holds other path holds with holds | ⟨rfl, -⟩
    · exact sound.settled other row isRow isSettled path holds
    · have isKey := AList.lookup_isSome.mp (Option.isSome_of_mem isRow)
      exact fresh (sound.issued other (.inr (.inr isKey)))
  cleared other row path isRow notFailed isPath foreign := by
    rw [admits.history] at isRow
    rcases sound.cleared other row path isRow notFailed isPath foreign with ⟨gone, unheld⟩
    have differs := sound.ne_of_cleared fresh free isRow isPath gone
    constructor
    · intro there
      rcases admits.dirs path there with there | same
      · exact gone there
      · exact differs same
    · intro second holds
      rcases admits.holds second path holds with holds | ⟨-, same⟩
      · exact unheld second holds
      · exact differs same

end Rules

end Rustnzb.Web.WorkDirs
