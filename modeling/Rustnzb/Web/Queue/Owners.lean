import Rustnzb.Web.HoldRequests
import Rustnzb.Web.Queue.Views

/-!
# Whose pause it is

A paused job was paused by the user or preempted by `move_job`, is held with the whole queue, or was
kept back by the disk check. One operation after the other leaves no pause without one of these, if
the rows that a restart reads show no other pause.
-/

namespace Rustnzb.Web.Queue

open Dispatch (JobId ServerId)

/-- The queue manager with what it does not keep: whom the user has paused and not resumed, and whom
`move_job` has preempted, as long as they stay paused. -/
structure PauseLog where
  manager : QueueManager
  user : Finset JobId
  preempted : Finset JobId

namespace QueueManager

def isPaused (manager : QueueManager) (id : JobId) : Bool :=
  (manager.jobs.lookup id).any fun state => state.status = .paused

def downloadingJobs (manager : QueueManager) : List JobId :=
  (manager.jobs.entries.filter fun entry => entry.2.isDownloading).map Sigma.fst

end QueueManager

namespace PauseLog

def new (maxActiveDownloads : ℕ) (servers : List ServerConfig) : PauseLog where
  manager := .new maxActiveDownloads servers
  user := ∅
  preempted := ∅

variable (log : PauseLog)

def userAfter : Operation → Finset JobId
  | .addJob id _ true _ | .pauseJob id => insert id log.user
  | .resumeJob id => if log.manager.gate.globallyPaused then log.user else log.user.erase id
  | _ => log.user

def preemptedAfter : Operation → Finset JobId
  | .moveJob _ _ => log.preempted ∪ log.manager.downloadingJobs.toFinset
  | .resumeJob id =>
      if log.manager.gate.globallyPaused then log.preempted else log.preempted.erase id
  | _ => log.preempted

def step (event : Operation × DiskCheck) : Option PauseLog :=
  (log.manager.step event).map fun next => {
    manager := next
    user := (log.userAfter event.1).filter fun id => next.isPaused id
    preempted := (log.preemptedAfter event.1).filter fun id => next.isPaused id }

def Step (log : PauseLog) (event : Operation × DiskCheck) (next : PauseLog) : Prop :=
  log.step event = some next

end PauseLog

inductive PauseOwner (log : PauseLog) (id : JobId) (state : JobState) : Prop
  | user (mem : id ∈ log.user)
  | hold (mem : id ∈ log.manager.globallyPausedJobs) (held : log.manager.gate.holds.any = true)
  | disk (code : state.failureCode = some .storageUnavailable)
  | server (message : state.errorMessage.isSome = true)

namespace QueueManager

/-- A restart finds no pause in a row but that of a job that is paused, and not for want of disk
space. -/
def FaithfulRows (manager : QueueManager) : Operation → Prop
  | .restart graceful => ∀ id row,
      (if graceful then manager.shutdown else manager).rows.lookup id = some row →
        row.status = .paused → ∃ state, manager.jobs.lookup id = some state ∧
          state.status = .paused ∧ state.failureCode ≠ some .storageUnavailable
  | _ => True

/-- The settings of the global pause are up to date. -/
structure Books (manager : QueueManager) : Prop where
  gate : manager.gate.Flagged
  listed : ∀ id ∈ manager.globallyPausedJobs, ∃ ids, manager.savedPausedJobs = some ids ∧ id ∈ ids
  written : manager.gate.holds.any = true → manager.savedPausedJobs ≠ none

end QueueManager

/-- A paused job is known to be the user's or preempted, held with the queue, or kept back by the
disk check, which leaves it no context. -/
def JobView.Owned (view : JobView) (held : Bool) (known : Prop) : Prop :=
  ∀ state, view.state = some state → state.status = .paused →
    known ∨ (view.held = true ∧ held = true) ∨
      (state.failureCode = some .storageUnavailable ∧ view.context = none)

namespace JobView.Owned

variable {view next : JobView} {held : Bool} {known : Prop}

theorem mono {after : Prop} (owned : view.Owned held known) (still : known → after) :
    view.Owned held after :=
  fun state found paused => (owned state found paused).imp_left still

theorem of_not_paused (notPaused : ∀ state, view.state = some state → state.status ≠ .paused) :
    view.Owned held known :=
  fun state found paused => absurd paused (notPaused state found)

theorem started {isOpen diskOk : Bool} (owned : view.Owned held known)
    (started : Started isOpen diskOk view next) : next.Owned held known := by
  cases started with
  | idle => exact owned
  | resumed | submitted =>
      apply of_not_paused
      intro state found
      cases found
      simp
  | heldBack _ _ _ absent =>
      intro state found paused
      cases found
      exact .inr (.inr ⟨rfl, absent⟩)

theorem requeue (view : JobView) : view.requeue.Owned held known := by
  apply of_not_paused
  intro state found
  rcases Option.map_eq_some_iff.mp found with ⟨before, -, rfl⟩
  simp

theorem holdAll (owned : view.Owned held known) : view.holdAll.Owned true known := by
  rcases found : view.state with _ | state
  · intro after isAfter
    simp [JobView.holdAll, found] at isAfter
  · rcases active : state.isActive with _ | _
    · have same : view.holdAll = view := by simp [JobView.holdAll, found, active]
      rw [same]
      intro after isAfter paused
      rcases owned after isAfter paused with isKnown | ⟨isHeld, -⟩ | disk
      · exact .inl isKnown
      · exact .inr (.inl ⟨isHeld, rfl⟩)
      · exact .inr (.inr disk)
    · intro after isAfter paused
      exact .inr (.inl ⟨by simp [JobView.holdAll, found, active], rfl⟩)

theorem releaseHold {any : Bool} (owned : view.Owned held known) :
    view.releaseHold.Owned any known := by
  intro after isAfter paused
  rcases Option.map_eq_some_iff.mp isAfter with ⟨state, found, rfl⟩
  split at paused
  · cases paused
  next stays =>
    rw [if_neg stays]
    rcases owned state found paused with isKnown | ⟨isHeld, -⟩ | disk
    · exact .inl isKnown
    · exact absurd ⟨isHeld, paused⟩ stays
    · exact .inr (.inr disk)

theorem resumeIf (owned : view.Owned held known) (test : JobState → Bool) :
    (view.resumeIf test).Owned held known := by
  intro after isAfter paused
  rcases Option.map_eq_some_iff.mp isAfter with ⟨state, found, rfl⟩
  split at paused
  · cases paused
  next stays =>
    rw [if_neg stays]
    exact owned state found paused

theorem mapState (owned : view.Owned held known) {change : JobState → JobState}
    (sameStatus : ∀ state, (change state).status = state.status)
    (code : view.context = none → ∀ state, state.failureCode = some .storageUnavailable →
      (change state).failureCode = some .storageUnavailable) :
    (view.mapState change).Owned held known := by
  intro after isAfter paused
  rcases Option.map_eq_some_iff.mp isAfter with ⟨state, found, rfl⟩
  rw [sameStatus] at paused
  rcases owned state found paused with isKnown | isHeld | ⟨disk, absent⟩
  · exact .inl isKnown
  · exact .inr (.inl isHeld)
  · exact .inr (.inr ⟨code absent state disk, absent⟩)

end JobView.Owned

namespace QueueManager

variable {disk : DiskCheck} {manager base next : QueueManager} {id other : JobId}
  {known after : JobId → Prop}

/-- Every pause has an owner, and the settings are up to date. -/
structure Kept (manager : QueueManager) (known : JobId → Prop) : Prop where
  books : manager.Books
  owned : ∀ id, (manager.view id).Owned manager.gate.holds.any (known id)

namespace Kept

theorem mono (kept : manager.Kept known) (still : ∀ id, known id → after id) : manager.Kept after :=
  ⟨kept.books, fun id => (kept.owned id).mono (still id)⟩

theorem change (kept : manager.Kept known) (sameGate : base.gate = manager.gate)
    (sameIds : base.globallyPausedJobs = manager.globallyPausedJobs)
    (sameSaved : base.savedPausedJobs = manager.savedPausedJobs)
    (owned : ∀ id, (base.view id).Owned manager.gate.holds.any (after id)) : base.Kept after := by
  constructor
  case books =>
    constructor
    · rw [sameGate]
      exact kept.books.gate
    · rw [sameIds, sameSaved]
      exact kept.books.listed
    · rw [sameGate, sameSaved]
      exact kept.books.written
  case owned => rwa [sameGate]

theorem changeShell (kept : manager.Kept known) (frame : base.shell = manager.shell)
    (owned : ∀ id, (base.view id).Owned manager.gate.holds.any (after id)) : base.Kept after := by
  have sameGate : base.gate = manager.gate := by
    have same := congrArg QueueManager.gate frame
    exact same
  have sameIds : base.globallyPausedJobs = manager.globallyPausedJobs := by
    have same := congrArg QueueManager.globallyPausedJobs frame
    exact same
  have sameSaved : base.savedPausedJobs = manager.savedPausedJobs := by
    have same := congrArg QueueManager.savedPausedJobs frame
    exact same
  exact kept.change sameGate sameIds sameSaved owned

theorem rewrite {ids : Finset JobId} (flagged : base.gate.Flagged)
    (isIds : base.globallyPausedJobs = ids) (isSaved : base.savedPausedJobs = some ids)
    (owned : ∀ id, (base.view id).Owned base.gate.holds.any (after id)) : base.Kept after := by
  refine ⟨⟨flagged, fun id mem => ⟨ids, isSaved, ?_⟩, fun _ => ?_⟩, owned⟩
  · rwa [isIds] at mem
  · simp [isSaved]

theorem lookup_of_modified {change : JobState → JobState}
    (states : base.jobs = (manager.modifyJob id change).jobs) (other : JobId) :
    base.jobs.lookup other =
      if other = id then (manager.jobs.lookup other).map change else manager.jobs.lookup other := by
  rw [states]
  exact Lib.Registry.lookup_modify change

section

variable (kept : manager.Kept known)

include kept

theorem startNextQueued :
    (QueueManager.startNextQueued disk manager).Kept known := by
  apply kept.changeShell (shell_startQueued _)
  intro id
  exact (kept.owned id).started (view_startNextQueued disk manager id)

theorem changeHolds {change : HoldGate → HoldGate × JobsRequest}
    (asks : manager.gate.Asks (change manager.gate)) :
    (QueueManager.changeHolds disk manager change).Kept known := by
  rw [QueueManager.changeHolds]
  rcases asked : (change manager.gate).2 with _ | _ | _
  case nothing =>
    have sameAny := asks.nothing asked
    constructor
    case books =>
      refine ⟨asks.flagged, kept.books.listed, fun held => kept.books.written ?_⟩
      rwa [← sameAny]
    case owned =>
      intro id
      have owned := kept.owned id
      rwa [← sameAny] at owned
  case pause =>
    apply Kept.rewrite asks.flagged rfl rfl
    intro id
    rw [request, view_pauseJobsForGlobalHold]
    have held := (kept.owned id).holdAll
    rw [← asks.pause asked] at held
    exact held
  case resume =>
    rw [request, resumeJobsAfterHolds]
    apply Kept.startNextQueued
    apply Kept.rewrite asks.flagged rfl rfl
    intro id
    have released :
        (manager.view id).releaseHold.Owned (change manager.gate).1.holds.any (known id) :=
      (kept.owned id).releaseHold
    intro state found paused
    apply released state _ paused
    rw [← found]
    simp [view, JobView.releaseHold, Lib.Registry.lookup_mapValues, setGloballyPausedJobs]

theorem resumePaused (test : JobState → Bool) :
    (QueueManager.resumePaused disk manager test).Kept known := by
  rw [QueueManager.resumePaused]
  split
  · exact kept
  · split
    · exact kept
    · apply Kept.startNextQueued
      refine kept.change rfl rfl rfl fun id state found paused => ?_
      apply (kept.owned id).resumeIf test state _ paused
      rw [← found]
      simp [view, JobView.resumeIf, JobView.mapState, Lib.Registry.lookup_mapValues]

theorem applyServerOverlay :
    (QueueManager.applyServerOverlay disk manager).Kept known := by
  rw [QueueManager.applyServerOverlay]
  split
  · exact kept
  · exact kept.resumePaused _

theorem ownedElsewhere (same : base.jobs.lookup id = manager.jobs.lookup id ∧
    base.contexts.lookup id = manager.contexts.lookup id)
    (sameIds : id ∈ base.globallyPausedJobs ↔ id ∈ manager.globallyPausedJobs)
    (still : known id → after id) : (base.view id).Owned manager.gate.holds.any (after id) := by
  have owned := (kept.owned id).mono still
  simpa only [JobView.Owned, view, same, sameIds] using owned

theorem changeOne (id : JobId) (sameGate : base.gate = manager.gate)
    (sameIds : base.globallyPausedJobs = manager.globallyPausedJobs)
    (sameSaved : base.savedPausedJobs = manager.savedPausedJobs)
    (own : (base.view id).Owned manager.gate.holds.any (after id))
    (others : ∀ other, other ≠ id → base.jobs.lookup other = manager.jobs.lookup other ∧
      base.contexts.lookup other = manager.contexts.lookup other)
    (still : ∀ other, other ≠ id → known other → after other) : base.Kept after := by
  apply kept.change sameGate sameIds sameSaved
  intro other
  by_cases same : other = id
  · rwa [same]
  · exact kept.ownedElsewhere (others other same) (by rw [sameIds]) (still other same)

theorem preemptIfNeeded (preempted : ∀ id, (manager.view id).IsDownloading → known id) :
    (QueueManager.preemptIfNeeded disk manager).Kept known := by
  have frame : (QueueManager.preemptIfNeeded disk manager).shell = manager.shell :=
    shell_preemptRounds _
  apply kept.changeShell frame
  intro id
  rcases view_preemptRounds disk manager id (manager.activeDownloadCount + 1) with
    ⟨middle, isMiddle, started⟩
  apply JobView.Owned.started _ started
  rcases isMiddle with rfl | ⟨downloading, -⟩
  · exact kept.owned id
  · exact fun _ _ _ => .inl (preempted id downloading)

theorem requeueOverLimit : manager.requeueOverLimit.Kept known := by
  rw [QueueManager.requeueOverLimit]
  split
  · exact kept
  · have frame := (requeueRounds_frame manager manager.activeDownloadCount).1
    apply kept.changeShell frame
    intro id
    rcases view_requeueRounds manager id manager.activeDownloadCount with same | ⟨-, requeued⟩
    · rw [same]
      exact kept.owned id
    · rw [requeued]
      exact .requeue _

theorem modifyJob (change : JobState → JobState)
    (states : base.jobs = (manager.modifyJob id change).jobs)
    (contexts : base.contexts = manager.contexts) (sameGate : base.gate = manager.gate)
    (sameIds : base.globallyPausedJobs = manager.globallyPausedJobs)
    (sameSaved : base.savedPausedJobs = manager.savedPausedJobs)
    (sameStatus : ∀ state, (change state).status = state.status)
    (code : manager.contexts.lookup id = none → ∀ state,
      state.failureCode = some .storageUnavailable →
        (change state).failureCode = some .storageUnavailable) : base.Kept known := by
  have lookup := lookup_of_modified states
  refine kept.changeOne id sameGate sameIds sameSaved ?_ ?_ fun _ _ isKnown => isKnown
  · have changed := (kept.owned id).mapState sameStatus code
    intro state found paused
    have isThere := lookup id
    rw [if_pos rfl] at isThere
    have owner := changed state (isThere.symm.trans found) paused
    simpa [view, sameIds, contexts, JobView.mapState] using owner
  · intro other differs
    rw [lookup, if_neg differs, contexts]
    exact ⟨rfl, rfl⟩

end

theorem mem_heldOf {rows : Lib.Registry JobId Row} {restore : JobId → Row → JobState × Bool} :
    id ∈ (((rows.mapValues restore).entries.filter fun entry => entry.2.2).map Sigma.fst).toFinset ↔
      ∃ row, rows.lookup id = some row ∧ (restore id row).2 = true := by
  have lookup : (rows.mapValues restore).lookup id = (rows.lookup id).map (restore id) :=
    Lib.Registry.lookup_mapValues restore
  rw [List.mem_toFinset, List.mem_map]
  constructor
  · rintro ⟨entry, filtered, rfl⟩
    rcases List.mem_filter.mp filtered with ⟨isEntry, isHeld⟩
    rw [Option.mem_def.mp (AList.mem_lookup_iff.mpr isEntry)] at lookup
    rcases Option.map_eq_some_iff.mp lookup.symm with ⟨row, isRow, same⟩
    exact ⟨row, isRow, by rw [same]; exact isHeld⟩
  · rintro ⟨row, isRow, isHeld⟩
    rw [isRow] at lookup
    exact ⟨⟨id, restore id row⟩, List.mem_filter.mpr ⟨AList.mem_lookup_iff.mp lookup, isHeld⟩, rfl⟩

section

variable (kept : manager.Kept known)

include kept

theorem restart (graceful : Bool) (faithful : manager.FaithfulRows (.restart graceful)) :
    (restoreFromDb disk (if graceful then manager.shutdown else manager)).Kept known := by
  rw [FaithfulRows] at faithful
  have sameGate : (if graceful then manager.shutdown else manager).gate = manager.gate := by
    split <;> rfl
  have sameSaved : (if graceful then manager.shutdown else manager).savedPausedJobs =
      manager.savedPausedJobs := by
    split <;> rfl
  generalize (if graceful then manager.shutdown else manager) = stopped at *
  rw [restoreFromDb]
  apply Kept.startNextQueued
  have wasPaused : PauseHolds.readFlag stopped.gate.settings "globally_paused" =
      manager.gate.holds.any := by
    rw [sameGate]
    exact kept.books.gate.flag
  have sameHolds : stopped.gate.restore.holds = manager.gate.holds := by
    rw [sameGate]
    exact kept.books.gate.saved.read
  have flagged : stopped.gate.restore.Flagged := by
    rw [sameGate]
    exact HoldGate.flagged_restore kept.books.gate
  rw [wasPaused, sameSaved]
  -- What the settings say of the job of a row that the global pause holds.
  have listed : ∀ id row,
      (restoreRow manager.gate.holds.any manager.savedPausedJobs id row).2 = true →
        manager.gate.holds.any = true ∧ ∃ ids, manager.savedPausedJobs = some ids ∧ id ∈ ids := by
    intro id row isHeld
    rcases (Bool.and_eq_true ..).mp isHeld with ⟨any, isHeld⟩
    refine ⟨any, ?_⟩
    rcases saved : manager.savedPausedJobs with _ | ids
    · exact absurd saved (kept.books.written any)
    · rw [saved] at isHeld
      exact ⟨ids, rfl, by simpa using isHeld⟩
  constructor
  case books =>
    refine ⟨flagged, fun id mem => ?_, fun held => kept.books.written (by rwa [← sameHolds])⟩
    rcases mem_heldOf.mp mem with ⟨row, isRow, isHeld⟩
    exact sameSaved ▸ (listed id row isHeld).2
  case owned =>
    intro id state found paused
    have found : ((stopped.rows.mapValues (restoreRow manager.gate.holds.any
        manager.savedPausedJobs)).mapValues fun _ job => job.1).lookup id = some state := found
    rw [Lib.Registry.lookup_mapValues, Lib.Registry.lookup_mapValues, Option.map_map] at found
    rcases Option.map_eq_some_iff.mp found with ⟨row, isRow, rfl⟩
    by_cases isHeld : (restoreRow manager.gate.holds.any manager.savedPausedJobs id row).2 = true
    · refine .inr (.inl ⟨?_, ?_⟩)
      · exact decide_eq_true (mem_heldOf.mpr ⟨row, isRow, isHeld⟩)
      · rw [sameHolds]
        exact (listed id row isHeld).1
    · have rowPaused : row.status = .paused := by
        rw [Bool.not_eq_true] at isHeld
        simp only [Function.comp_apply, restoreRow] at paused isHeld
        rw [isHeld] at paused
        revert paused
        rcases row.status <;> simp [JobStatus.isPostProcessing]
      rcases faithful id row isRow rowPaused with ⟨was, isWas, wasPaused, code⟩
      rcases kept.owned id was isWas wasPaused with isKnown | ⟨mem, any⟩ | ⟨disk, -⟩
      · exact .inl isKnown
      · rcases kept.books.listed id (of_decide_eq_true mem) with ⟨ids, saved, isListed⟩
        apply absurd _ isHeld
        simp [restoreRow, any, saved, isListed]
      · exact absurd disk code

theorem addJob (priority : Priority) (requestedPaused : Bool) (addedAt : ℤ)
    (still : ∀ other, known other → after other) (asked : requestedPaused = true → after id) :
    (QueueManager.addJob disk manager id priority requestedPaused addedAt).Kept after := by
  have kept := kept.mono still
  simp only [QueueManager.addJob]
  split
  next paused =>
    split
    next requested =>
      refine kept.changeOne id rfl rfl rfl ?_ ?_ fun _ _ isKnown => isKnown
      · exact fun _ _ _ => .inl (asked requested)
      · exact fun other differs => ⟨AList.lookup_insert_ne differs, rfl⟩
    next notRequested =>
      have held : manager.gate.holds.any = true := by
        rw [← kept.books.gate.saved.shown]
        simpa [notRequested] using paused
      refine Kept.rewrite kept.books.gate rfl rfl fun other state found isPaused => ?_
      by_cases same : other = id
      · refine .inr (.inl ⟨?_, held⟩)
        simp [view, setGloballyPausedJobs, same]
      · have wasThere : manager.jobs.lookup other = some state :=
          (AList.lookup_insert_ne same).symm.trans found
        rcases kept.owned other state wasThere isPaused with isKnown | ⟨isHeld, any⟩ | isDisk
        · exact .inl isKnown
        · refine .inr (.inl ⟨?_, any⟩)
          simpa [view, setGloballyPausedJobs, same] using isHeld
        · exact .inr (.inr isDisk)
  · apply Kept.startNextQueued
    refine kept.changeOne id rfl rfl rfl ?_ ?_ fun _ _ isKnown => isKnown
    · apply JobView.Owned.of_not_paused
      intro state found
      cases (AList.lookup_insert _).symm.trans found
      simp
    · exact fun other differs => ⟨AList.lookup_insert_ne differs, rfl⟩

theorem changeAside (id : JobId) (sameGate : base.gate = manager.gate)
    (isIds : base.globallyPausedJobs = manager.globallyPausedJobs.erase id)
    (isSaved : base.savedPausedJobs = some (manager.globallyPausedJobs.erase id))
    (own : ∀ state, base.jobs.lookup id = some state → state.status = .paused → after id)
    (others : ∀ other, other ≠ id → base.jobs.lookup other = manager.jobs.lookup other ∧
      base.contexts.lookup other = manager.contexts.lookup other)
    (still : ∀ other, other ≠ id → known other → after other) : base.Kept after := by
  refine Kept.rewrite (sameGate ▸ kept.books.gate) isIds isSaved fun other => ?_
  by_cases same : other = id
  · subst same
    exact fun state found paused => .inl (own state found paused)
  · rw [sameGate]
    exact kept.ownedElsewhere (others other same) (by simp [isIds, same]) (still other same)

theorem pauseJob (id : JobId) (still : ∀ other, known other → after other)
    (asked : after id) : (QueueManager.pauseJob disk manager id).1.Kept after := by
  simp only [QueueManager.pauseJob]
  split
  · refine kept.changeOne id rfl rfl rfl (fun _ _ _ => .inl asked) ?_ fun other _ => still other
    exact fun other differs => ⟨rfl, (Lib.Registry.lookup_modify _).trans (if_neg differs)⟩
  · apply Kept.startNextQueued
    refine kept.changeAside id rfl rfl rfl (fun _ _ _ => asked) ?_ fun other _ => still other
    exact fun other differs => ⟨(Lib.Registry.lookup_modify _).trans (if_neg differs),
      (Lib.Registry.lookup_modify _).trans (if_neg differs)⟩

theorem removeJob (id : JobId) : (manager.removeJob id).Kept known := by
  rw [QueueManager.removeJob]
  split
  next absent =>
    have absent : manager.jobs.lookup id = none := absent
    refine kept.changeOne id rfl rfl rfl ?_ ?_ fun _ _ isKnown => isKnown
    · intro state found
      cases absent.symm.trans found
    · exact fun other differs => ⟨rfl, AList.lookup_erase_ne differs⟩
  · split
    · exact kept
    · refine kept.changeAside id rfl rfl rfl ?_ ?_ fun _ _ isKnown => isKnown
      · intro state found
        cases (AList.lookup_erase id manager.jobs).symm.trans found
      · exact fun other differs => ⟨AList.lookup_erase_ne differs, AList.lookup_erase_ne differs⟩

theorem launchDownload {change : JobState → JobState} (absent : manager.contexts.lookup id = none)
    (starts : ∀ state, (change state).status = .downloading)
    (still : ∀ other, other ≠ id → known other → after other) :
    (QueueManager.launchDownload disk (manager.modifyJob id change) id).Kept after := by
  have frame : (QueueManager.launchDownload disk (manager.modifyJob id change) id).shell =
      manager.shell := by
    rw [QueueManager.launchDownload]
    split
    · rfl
    · split <;> rfl
  apply kept.changeShell frame
  intro other
  by_cases same : other = id
  · subst same
    have changed : ∀ state, ((manager.modifyJob other change).view other).state = some state →
        state.status = .downloading := by
      intro state found
      rw [view_modifyJob, if_pos rfl] at found
      rcases Option.map_eq_some_iff.mp found with ⟨before, -, rfl⟩
      exact starts before
    rw [QueueManager.launchDownload]
    split
    next missing =>
      intro state found
      cases missing.symm.trans found
    · split
      · apply JobView.Owned.of_not_paused
        rw [view_submitJob, if_pos rfl]
        intro state found
        simp [changed state found]
      · rw [view_modifyJob, if_pos rfl]
        intro state found _
        rcases Option.map_eq_some_iff.mp found with ⟨before, -, rfl⟩
        exact .inr (.inr ⟨rfl, absent⟩)
  · rw [view_launchDownload_ne same, view_modifyJob, if_neg same]
    exact (kept.owned other).mono (still other same)

theorem resumeJob (id : JobId)
    (still : ∀ other, known other → other ≠ id ∨ manager.gate.globallyPaused = true → after other) :
    (QueueManager.resumeJob disk manager id).1.Kept after := by
  simp only [QueueManager.resumeJob]
  split
  next closed => exact kept.mono fun other isKnown => still other isKnown (.inr closed)
  · have stillOther : ∀ other, other ≠ id → known other → after other :=
      fun other differs isKnown => still other isKnown (.inl differs)
    split
    next absent =>
      have absent : manager.jobs.lookup id = none := absent
      refine kept.changeOne id rfl rfl rfl ?_ (fun _ _ => ⟨rfl, rfl⟩) stillOther
      intro state found
      cases absent.symm.trans found
    · split
      · refine kept.changeOne id rfl rfl rfl ?_ ?_ stillOther
        · apply JobView.Owned.of_not_paused
          intro state found
          have found : ((manager.modifyJob id fun state => { state with
            status := .queued, persistedStatus := some .queued }).view id).state = some state :=
              found
          rw [view_modifyJob, if_pos rfl] at found
          rcases Option.map_eq_some_iff.mp found with ⟨before, -, rfl⟩
          simp
        · exact fun other differs => ⟨(Lib.Registry.lookup_modify _).trans (if_neg differs), rfl⟩
      · split
        · refine kept.changeOne id rfl rfl rfl ?_ ?_ stillOther
          · apply JobView.Owned.of_not_paused
            intro state found
            have found : ((manager.modifyJob id fun state => {
              restartState state with status := .downloading }).view id).state = some state := found
            rw [view_modifyJob, if_pos rfl] at found
            rcases Option.map_eq_some_iff.mp found with ⟨before, -, rfl⟩
            simp
          · exact fun other differs => ⟨(Lib.Registry.lookup_modify _).trans (if_neg differs),
              (Lib.Registry.lookup_modify _).trans (if_neg differs)⟩
        next absent =>
          have absent : manager.contexts.lookup id = none := by simpa [hasContext] using absent
          exact kept.launchDownload absent (fun _ => rfl) stillOther

theorem close {id : JobId} {change : JobState → JobState} (sameGate : base.gate = manager.gate)
    (sameIds : base.globallyPausedJobs = manager.globallyPausedJobs)
    (sameSaved : base.savedPausedJobs = manager.savedPausedJobs)
    (states : base.jobs = (manager.modifyJob id change).jobs)
    (contexts : ∀ other, other ≠ id → base.contexts.lookup other = manager.contexts.lookup other)
    (closes : ∀ state, (change state).status ≠ .paused) : base.Kept known := by
  have lookup := lookup_of_modified states
  refine kept.changeOne id sameGate sameIds sameSaved ?_ ?_ fun _ _ isKnown => isKnown
  · apply JobView.Owned.of_not_paused
    intro state found
    have found : base.jobs.lookup id = some state := found
    rw [lookup, if_pos rfl] at found
    rcases Option.map_eq_some_iff.mp found with ⟨before, -, rfl⟩
    exact closes before
  · intro other differs
    rw [lookup, if_neg differs]
    exact ⟨rfl, contexts other differs⟩

theorem jobFinished (id : JobId) (note : Option String) :
    (QueueManager.jobFinished disk manager id note).Kept known := by
  have finished : ((manager.releaseContext id).modifyJob id fun state => { state with
      status := .postProcessing, errorMessage := note.or state.errorMessage }).Kept known :=
    kept.close rfl rfl rfl rfl (fun _ differs => AList.lookup_erase_ne differs) fun _ => by simp
  have started : (QueueManager.startNextQueued disk ((manager.releaseContext id).modifyJob id
      fun state => { state with
        status := .postProcessing
        errorMessage := note.or state.errorMessage })).Kept known := finished.startNextQueued
  exact started.change rfl rfl rfl started.owned

theorem finishAborted (id : JobId) (reason : String) :
    (QueueManager.finishAborted disk manager id reason).Kept known := by
  simp only [QueueManager.finishAborted]
  apply Kept.startNextQueued
  split
  next absent =>
    have absent : manager.jobs.lookup id = none := absent
    refine kept.changeOne id rfl rfl rfl ?_ ?_ fun _ _ isKnown => isKnown
    · intro state found
      cases absent.symm.trans found
    · exact fun other differs => ⟨rfl, AList.lookup_erase_ne differs⟩
  · exact kept.close rfl rfl rfl rfl (fun _ differs => AList.lookup_erase_ne differs)
      fun _ => by simp [abortState]

theorem onJobFinished (id : JobId) (outcome : PostprocOutcome) :
    (QueueManager.onJobFinished disk manager id outcome).Kept known := by
  have closes : ∀ state, (outcome.finish state).status ≠ .paused := by
    intro state
    cases outcome with
    | completed | noUsableOutput =>
        simp only [PostprocOutcome.finish]
        split
        next failed => simp [failed]
        · simp
    | diskFull | pipelineFailed | scriptFailed => simp [PostprocOutcome.finish]
  simp only [QueueManager.onJobFinished]
  split
  · exact kept.change rfl rfl rfl kept.owned
  · have moved : (((({ manager with
        finishing := manager.finishing.erase id } : QueueManager).modifyJob id
          outcome.finish).moveToHistory id).expireLater id).Kept known :=
      kept.close rfl rfl rfl rfl (fun _ _ => rfl) closes
    split
    · exact moved.startNextQueued
    · exact moved

end

end Kept

theorem kept_step {log : PauseLog} {operation : Operation}
    (kept : log.manager.Kept fun id => id ∈ log.user ∨ id ∈ log.preempted)
    (move : Step log.manager (operation, disk) next)
    (faithful : log.manager.FaithfulRows operation) :
    next.Kept fun id => id ∈ log.userAfter operation ∨ id ∈ log.preemptedAfter operation := by
  cases operation with
  | addJob id priority requestedPaused addedAt =>
      rcases Option.ite_none_left_eq_some.mp move with ⟨-, ⟨⟩⟩
      apply kept.addJob
      · intro other isKnown
        rcases requestedPaused with _ | _
        · exact isKnown
        · exact isKnown.imp_left (Finset.mem_insert_of_mem)
      · rintro rfl
        exact .inl (Finset.mem_insert_self ..)
  | pauseJob id =>
      cases move
      exact kept.pauseJob id (fun other => Or.imp_left Finset.mem_insert_of_mem)
        (.inl (Finset.mem_insert_self ..))
  | resumeJob id =>
      cases move
      apply kept.resumeJob id
      intro other isKnown differs
      simp only [PauseLog.userAfter, PauseLog.preemptedAfter]
      split
      · exact isKnown
      next isOpen =>
        have differs := differs.resolve_right isOpen
        exact isKnown.imp (fun mem => Finset.mem_erase.mpr ⟨differs, mem⟩)
          fun mem => Finset.mem_erase.mpr ⟨differs, mem⟩
  | removeJob id =>
      cases move
      exact kept.removeJob id
  | setJobPriority id priority =>
      cases move
      simp only [setJobPriority]
      split
      · exact kept
      · apply Kept.startNextQueued
        exact kept.modifyJob (fun state => { state with priority := priority }) rfl rfl rfl rfl rfl
          (fun _ => rfl) fun _ _ code => code
  | moveJob id position =>
      cases move
      have stillKept : log.manager.Kept fun id => id ∈ log.userAfter (.moveJob id position) ∨
          id ∈ log.preemptedAfter (.moveJob id position) :=
        kept.mono fun other => Or.imp_right fun mem => Finset.mem_union_left _ mem
      simp only [moveJob]
      split
      · apply Kept.preemptIfNeeded
        · exact stillKept.change rfl rfl rfl stillKept.owned
        · rintro other ⟨state, found, downloading⟩
          refine .inr (Finset.mem_union_right _ (List.mem_toFinset.mpr ?_))
          exact List.mem_map.mpr ⟨⟨other, state⟩, List.mem_filter.mpr
            ⟨AList.mem_lookup_iff.mp found, by simp [JobState.isDownloading, downloading]⟩, rfl⟩
      · exact stillKept
  | sortQueue order =>
      rcases Option.ite_none_right_eq_some.mp move with ⟨-, ⟨⟩⟩
      exact kept.change rfl rfl rfl kept.owned
  | setMaxActiveDownloads max =>
      cases move
      apply Kept.startNextQueued
      apply Kept.requeueOverLimit
      exact kept.change rfl rfl rfl kept.owned
  | pauseAll =>
      cases move
      exact kept.changeHolds (HoldGate.asks_pauseAll kept.books.gate)
  | expireUserHold =>
      cases move
      exact kept.changeHolds (HoldGate.asks_expireUserHold kept.books.gate)
  | resumeAll =>
      cases move
      exact kept.changeHolds (HoldGate.asks_resumeAll _)
  | enforceDiskGuard low now =>
      cases move
      simp only [enforceDiskGuard]
      split
      · split
        · exact kept
        · exact kept.changeHolds (HoldGate.asks_pauseAllWithHold kept.books.gate now)
      · apply Kept.resumePaused
        split
        · exact kept.changeHolds (HoldGate.asks_clearDiskHold _)
        · exact kept
  | applySchedule decision enabled disabled =>
      cases move
      have held : (changeHolds disk log.manager fun gate =>
          gate.applyScheduleHold (decision.windows enabled)).Kept _ :=
        kept.changeHolds (HoldGate.asks_applyScheduleHold kept.books.gate _)
      simp only [applySchedule]
      generalize (if enabled then disabled else []) = names
      split
      · exact held
      · apply Kept.applyServerOverlay
        exact held.change rfl rfl rfl held.owned
  | updateServers servers =>
      cases move
      apply Kept.applyServerOverlay
      exact kept.change rfl rfl rfl kept.owned
  | waitingForProviders id message =>
      rcases Option.ite_none_right_eq_some.mp move with ⟨-, ⟨⟩⟩
      rw [waitingForProviders]
      split
      · exact kept
      · split
        · exact kept
        · exact kept.modifyJob (fun state => { state with errorMessage := some message })
            rfl rfl rfl rfl rfl (fun _ => rfl) fun _ _ code => code
  | providersAvailable id =>
      rcases Option.ite_none_right_eq_some.mp move with ⟨there, ⟨⟩⟩
      rw [providersAvailable]
      split
      · exact kept
      · split
        · refine kept.modifyJob (fun state =>
            { state with errorMessage := none, failureCode := none })
            rfl rfl rfl rfl rfl (fun _ => rfl) fun absent => ?_
          simp [hasContext, absent] at there
        · exact kept
  | hopeless id reason =>
      rcases Option.ite_none_right_eq_some.mp move with ⟨-, ⟨⟩⟩
      exact kept.modifyJob (fun state => { state with errorMessage := some reason })
        rfl rfl rfl rfl rfl (fun _ => rfl) fun _ _ code => code
  | jobFinished id note =>
      rcases Option.ite_none_right_eq_some.mp move with ⟨-, ⟨⟩⟩
      exact kept.jobFinished id note
  | jobAborted id reason =>
      rcases Option.ite_none_right_eq_some.mp move with ⟨-, ⟨⟩⟩
      exact kept.finishAborted id reason
  | onJobFinished id outcome =>
      rcases Option.ite_none_right_eq_some.mp move with ⟨-, ⟨⟩⟩
      exact kept.onJobFinished id outcome
  | expire id =>
      rcases Option.ite_none_right_eq_some.mp move with ⟨-, ⟨⟩⟩
      refine kept.changeOne id rfl rfl rfl ?_ ?_ fun _ _ isKnown => isKnown
      · intro state found
        cases (AList.lookup_erase id log.manager.jobs).symm.trans found
      · exact fun other differs => ⟨AList.lookup_erase_ne differs, rfl⟩
  | persistJobProgress id =>
      cases move
      rw [persistJobProgress]
      split
      · exact kept
      · split
        · exact kept
        · exact kept.modifyJob (fun state =>
            { state with persistedStatus := some state.status })
            rfl rfl rfl rfl rfl (fun _ => rfl) fun _ _ code => code
  | restart graceful =>
      cases move
      exact kept.restart graceful faithful

end QueueManager

end Rustnzb.Web.Queue
