import Rustnzb.Web.Queue.Manager

/-!
# What an operation does to one job

The view of a job is all that the queue manager keeps under its id. Starting queued jobs does at
most one of three things to a job, and only to a queued one: the held context is resumed, the job is
submitted, or the disk check holds it back.
-/

namespace Rustnzb.Web.Queue

open Dispatch (JobId ServerId)
open Lib (Registry)

@[ext]
structure JobView where
  state : Option JobState
  context : Option Bool
  held : Bool
  row : Option Row

namespace JobView

variable (view : JobView)

def mapState (change : JobState → JobState) : JobView :=
  { view with state := view.state.map change }

def mapContext (paused : Bool) : JobView :=
  { view with context := view.context.map fun _ => paused }

def mapStatus (status : JobStatus) : JobView :=
  { view with row := view.row.map fun row => { row with status := status } }

def pauseByUser : JobView :=
  { ((view.mapContext true).mapState QueueManager.userPause).mapStatus .paused with held := false }

def requeue : JobView :=
  ((view.mapContext true).mapState fun state =>
    { state with status := .queued, persistedStatus := some .queued }).mapStatus .queued

def preempt : JobView :=
  ((view.mapContext true).mapState fun state =>
    { state with status := .paused, persistedStatus := some .paused }).mapStatus .paused

def holdAll : JobView :=
  match view.state with
  | some state =>
      if state.isActive then
        { view with
          state := some { state with status := .paused }
          context := view.context.map fun _ => true
          held := true }
      else view
  | none => view

def releaseHold : JobView :=
  { view with
    state := view.state.map fun state =>
      if view.held ∧ state.status = .paused then QueueManager.unpause state else state
    held := false }

def resumeIf (test : JobState → Bool) : JobView :=
  view.mapState fun state =>
    if state.status = .paused && test state then QueueManager.unpause state else state

def IsDownloading : Prop := ∃ state, view.state = some state ∧ state.status = .downloading

end JobView

/-- What starting queued jobs does to a job; `isOpen` when no hold is on the queue. -/
inductive Started (isOpen diskOk : Bool) (view : JobView) : JobView → Prop
  | idle : Started isOpen diskOk view view
  | resumed {state : JobState} {paused : Bool} (opened : isOpen = true)
      (found : view.state = some state) (queued : state.status = .queued)
      (registered : view.context = some paused) :
      Started isOpen diskOk view
        { view with
          state := some { QueueManager.restartState state with status := .downloading }
          context := some false
          row := view.row.map fun row => { row with status := .downloading } }
  | submitted {state : JobState} (opened : isOpen = true) (found : view.state = some state)
      (queued : state.status = .queued) (absent : view.context = none) (roomy : diskOk = true) :
      Started isOpen diskOk view
        { view with
          state := some { state with status := .downloading }
          context := some false }
  | heldBack {state : JobState} (opened : isOpen = true) (found : view.state = some state)
      (queued : state.status = .queued) (absent : view.context = none) (low : diskOk = false) :
      Started isOpen diskOk view { view with state := some (QueueManager.diskHold state) }

theorem Started.of_not_queued {isOpen diskOk : Bool} {view next : JobView}
    (started : Started isOpen diskOk view next)
    (notQueued : ∀ state, view.state = some state → state.status ≠ .queued) : next = view := by
  cases started with
  | idle => rfl
  | resumed _ found queued | submitted _ found queued | heldBack _ found queued =>
      exact absurd queued (notQueued _ found)

namespace QueueManager

variable {disk : DiskCheck} {manager : QueueManager} {id other : JobId}

def view (manager : QueueManager) (id : JobId) : JobView where
  state := manager.jobs.lookup id
  context := manager.contexts.lookup id
  held := decide (id ∈ manager.globallyPausedJobs)
  row := manager.rows.lookup id

theorem view_modifyJob (change : JobState → JobState) :
    (manager.modifyJob id change).view other =
      if other = id then (manager.view other).mapState change else manager.view other := by
  rw [view, modifyJob, Lib.Registry.lookup_modify]
  split <;> rfl

theorem view_queueUpdateStatus (status : JobStatus) :
    (manager.queueUpdateStatus id status).view other =
      if other = id then (manager.view other).mapStatus status else manager.view other := by
  rw [view, queueUpdateStatus, Lib.Registry.lookup_modify]
  split <;> rfl

theorem view_queueUpdateErrorMessage (message : Option String) :
    (manager.queueUpdateErrorMessage id message).view other =
      if other = id then
        { manager.view other with
          row := (manager.view other).row.map fun row => { row with errorMessage := message } }
      else manager.view other := by
  rw [view, queueUpdateErrorMessage, Lib.Registry.lookup_modify]
  split <;> rfl

theorem view_pauseContext :
    (manager.pauseContext id).view other =
      if other = id then (manager.view other).mapContext true else manager.view other := by
  rw [view, pauseContext, Lib.Registry.lookup_modify]
  split <;> rfl

theorem view_resumeContext :
    (manager.resumeContext id).view other =
      if other = id then (manager.view other).mapContext false else manager.view other := by
  rw [view, resumeContext, Lib.Registry.lookup_modify]
  split <;> rfl

theorem view_releaseContext :
    (manager.releaseContext id).view other =
      if other = id then { manager.view other with context := none } else manager.view other := by
  rw [view, releaseContext]
  by_cases same : other = id
  · subst same
    simp [view]
  · simp [same, view]

theorem view_submitJob :
    (manager.submitJob id).view other =
      if other = id then { manager.view other with context := some false }
      else manager.view other := by
  rw [view, submitJob]
  by_cases same : other = id
  · subst same
    simp [view]
  · simp [same, view]

theorem view_setGloballyPausedJobs (ids : Finset JobId) :
    (manager.setGloballyPausedJobs ids).view other =
      { manager.view other with held := decide (other ∈ ids) } := rfl

/-! ## Starting queued jobs -/

/-- A fold that keeps its choice or takes a new one ends with one it has taken. -/
@[elab_as_elim]
theorem taken_of_foldl {α β : Type} {choose : Option β → α → Option β} {taken : β → Prop}
    (takes : ∀ chosen entry best, choose chosen entry = some best → chosen = some best ∨ taken best)
    {list : List α} {best : β} (found : list.foldl choose none = some best) : taken best := by
  induction list using List.reverseRecOn generalizing best with
  | nil => cases found
  | append_singleton list entry ih =>
      rw [List.foldl_concat] at found
      exact (takes _ _ _ found).elim ih id

theorem bestQueued_spec {best : JobId × ℕ} (found : manager.bestQueued = some best) :
    ∃ state, manager.jobs.lookup best.1 = some state ∧ state.status = .queued := by
  refine taken_of_foldl (fun best id next isNext => ?_) found
  split at isNext
  · exact .inl isNext
  next state found =>
    split at isNext
    next queued =>
      have isQueued : state.status = .queued := by simpa [JobState.isQueued] using queued
      split at isNext
      · cases isNext
        exact .inr ⟨state, found, isQueued⟩
      · split at isNext
        · cases isNext
          exact .inr ⟨state, found, isQueued⟩
        · exact .inl isNext
    · exact .inl isNext

theorem claim_spec {claimed : QueueManager}
    (claim : manager.claimNextDownloadSlot = some (id, claimed)) :
    manager.gate.globallyPaused = false ∧ manager.atLimit = false ∧
      (∃ state, manager.jobs.lookup id = some state ∧ state.status = .queued) ∧
      claimed = manager.modifyJob id fun state => { state with status := .downloading } := by
  rw [claimNextDownloadSlot] at claim
  rcases Option.ite_none_left_eq_some.mp claim with ⟨isOpen, claim⟩
  rcases Option.ite_none_left_eq_some.mp claim with ⟨slot, claim⟩
  rcases Option.map_eq_some_iff.mp claim with ⟨best, found, same⟩
  cases same
  exact ⟨by simpa using isOpen, by simpa using slot, bestQueued_spec found, rfl⟩

theorem view_startClaimed (disk : DiskCheck) {state : JobState}
    (found : manager.jobs.lookup id = some state) (queued : state.status = .queued) :
    let claimed := manager.modifyJob id fun state => { state with status := .downloading }
    Started true (disk id) (manager.view id) ((startClaimed disk claimed id).view id) ∧
      (∃ state, ((startClaimed disk claimed id).view id).state = some state ∧
        state.status ≠ .queued) ∧
      ∀ other, other ≠ id → (startClaimed disk claimed id).view other = manager.view other := by
  intro claimed
  have isClaimed : claimed.view id =
      { manager.view id with state := some { state with status := .downloading } } := by
    rw [view_modifyJob, if_pos rfl, JobView.mapState]
    simp [view, found]
  have others : ∀ other, other ≠ id → claimed.view other = manager.view other := by
    intro other differs
    simp [claimed, view_modifyJob, differs]
  have registered : claimed.contexts.lookup id = (manager.view id).context := rfl
  rw [startClaimed]
  split
  next alive =>
    rw [hasContext, registered] at alive
    rcases Option.isSome_iff_exists.mp alive with ⟨paused, context⟩
    rw [← and_assoc]
    constructor
    · have same : (claimed.resumeQueuedContext id).view id =
          { manager.view id with
            state := some { restartState state with status := .downloading }
            context := some false
            row := (manager.view id).row.map fun row => { row with status := .downloading } } := by
        simp only [resumeQueuedContext, view_resumeContext, view_queueUpdateStatus, view_modifyJob,
          if_true, isClaimed, JobView.mapState, JobView.mapStatus, JobView.mapContext,
          Option.map_some, context]
        rfl
      rw [same]
      exact ⟨.resumed rfl found queued context, _, rfl, by simp⟩
    · intro other differs
      simp [resumeQueuedContext, view_resumeContext, view_queueUpdateStatus, view_modifyJob,
        differs, others]
  next absent =>
    have context : (manager.view id).context = none := by
      simpa [hasContext, registered] using absent
    have isThere : claimed.jobs.lookup id = some { state with status := .downloading } :=
      congrArg JobView.state isClaimed
    rw [launchDownload, isThere]
    dsimp only
    split
    next roomy =>
      rw [← and_assoc]
      constructor
      · rw [view_submitJob, if_pos rfl, isClaimed, roomy]
        exact ⟨.submitted rfl found queued context rfl, _, rfl, by simp⟩
      · intro other differs
        rw [view_submitJob, if_neg differs, others other differs]
    next low =>
      rw [← and_assoc]
      constructor
      · have same : (claimed.modifyJob id diskHold).view id =
            { manager.view id with state := some (diskHold state) } := by
          simp only [view_modifyJob, if_true, isClaimed, JobView.mapState, Option.map_some]
          rfl
        rw [same]
        exact ⟨.heldBack rfl found queued context (by simpa using low), _, rfl, by simp [diskHold]⟩
      · intro other differs
        rw [view_modifyJob, if_neg differs, others other differs]

/-- Starting does not touch the holds, the order or the tasks. -/
def shell (manager : QueueManager) : QueueManager :=
  { manager with jobs := ∅, contexts := ∅, rows := ∅, submissions := [] }

theorem shell_startClaimed : (startClaimed disk manager id).shell = manager.shell := by
  rw [startClaimed]
  split
  · rfl
  · rw [launchDownload]
    split
    · rfl
    · split <;> rfl

theorem shell_startQueued (rounds : ℕ) :
    (startQueued disk rounds manager).shell = manager.shell := by
  induction rounds generalizing manager with
  | zero => rfl
  | succ rounds ih =>
      rw [startQueued]
      split
      · rfl
      next claimed claim =>
        have isClaimed := (claim_spec claim).2.2.2
        subst isClaimed
        exact ih.trans shell_startClaimed

@[simp]
theorem startNextQueued_frame :
    (startNextQueued disk manager).gate = manager.gate ∧
      (startNextQueued disk manager).maxActiveDownloads = manager.maxActiveDownloads ∧
      (startNextQueued disk manager).jobOrder = manager.jobOrder ∧
      (startNextQueued disk manager).globallyPausedJobs = manager.globallyPausedJobs ∧
      (startNextQueued disk manager).savedPausedJobs = manager.savedPausedJobs ∧
      (startNextQueued disk manager).configuredServers = manager.configuredServers ∧
      (startNextQueued disk manager).scheduleDisabledServers = manager.scheduleDisabledServers ∧
      (startNextQueued disk manager).finishing = manager.finishing ∧
      (startNextQueued disk manager).expiring = manager.expiring := by
  have same : ∀ {Part : Type} (part : QueueManager → Part),
      (∀ manager : QueueManager, part manager.shell = part manager) →
        part (startNextQueued disk manager) = part manager := by
    intro Part part blind
    rw [← blind, startNextQueued, shell_startQueued, blind]
  exact ⟨same gate fun _ => rfl, same maxActiveDownloads fun _ => rfl, same jobOrder fun _ => rfl,
    same globallyPausedJobs fun _ => rfl, same savedPausedJobs fun _ => rfl,
    same configuredServers fun _ => rfl, same scheduleDisabledServers fun _ => rfl,
    same finishing fun _ => rfl, same expiring fun _ => rfl⟩

theorem view_startQueued (disk : DiskCheck) (manager : QueueManager) (id : JobId) (rounds : ℕ) :
    Started (!manager.gate.globallyPaused) (disk id) (manager.view id)
      ((startQueued disk rounds manager).view id) := by
  induction rounds generalizing manager with
  | zero => exact .idle
  | succ rounds ih =>
      rw [startQueued]
      split
      · exact .idle
      next other claimed claim =>
        rcases claim_spec claim with ⟨isOpen, -, ⟨state, found, queued⟩, rfl⟩
        rcases view_startClaimed disk found queued with ⟨own, ⟨after, isAfter, started⟩, others⟩
        have rest := ih (startClaimed disk (manager.modifyJob other fun state =>
          { state with status := .downloading }) other)
        have sameGate : (startClaimed disk (manager.modifyJob other fun state =>
            { state with status := .downloading }) other).shell.gate = manager.gate := by
          rw [shell_startClaimed]
          rfl
        rw [shell] at sameGate
        rw [sameGate] at rest
        by_cases same : id = other
        · subst same
          rw [rest.of_not_queued (by simp [isAfter, started]), isOpen]
          exact own
        · rwa [others id same] at rest

theorem view_startNextQueued (disk : DiskCheck) (manager : QueueManager) (id : JobId) :
    Started (!manager.gate.globallyPaused) (disk id) (manager.view id)
      ((startNextQueued disk manager).view id) :=
  view_startQueued disk manager id _

theorem view_startNextQueued_eq
    (notQueued : ∀ state, manager.jobs.lookup id = some state → state.status ≠ .queued) :
    (startNextQueued disk manager).view id = manager.view id :=
  (view_startNextQueued disk manager id).of_not_queued notQueued

/-! ## Slots -/

theorem worstDownloading_spec {worst : JobId × ℕ × ℕ}
    (found : manager.worstDownloading = some worst) :
    ∃ state, manager.jobs.lookup worst.1 = some state ∧ state.status = .downloading := by
  refine taken_of_foldl (fun worst entry next isNext => ?_) found
  split at isNext
  · exact .inl isNext
  next state found =>
    split at isNext
    next downloading =>
      have isDownloading : state.status = .downloading := by
        simpa [JobState.isDownloading] using downloading
      split at isNext
      · cases isNext
        exact .inr ⟨state, found, isDownloading⟩
      · split at isNext
        · cases isNext
          exact .inr ⟨state, found, isDownloading⟩
        · exact .inl isNext
    · exact .inl isNext

theorem preempted_spec (found : manager.preempted = some id) :
    ∃ state, manager.jobs.lookup id = some state ∧ state.status = .downloading := by
  rw [preempted] at found
  split at found
  next worst isWorst =>
    rcases Option.ite_none_right_eq_some.mp found with ⟨-, ⟨⟩⟩
    exact worstDownloading_spec isWorst
  · cases found

theorem view_requeue :
    (manager.requeue id).view other =
      if other = id then (manager.view other).requeue else manager.view other := by
  rw [requeue, view_queueUpdateStatus, view_modifyJob, view_pauseContext]
  split <;> rfl

theorem view_preempt :
    (manager.preempt id).view other =
      if other = id then (manager.view other).preempt else manager.view other := by
  rw [preempt, view_queueUpdateStatus, view_modifyJob, view_pauseContext]
  split <;> rfl

theorem view_requeueRounds (manager : QueueManager) (id : JobId) (rounds : ℕ) :
    (requeueRounds rounds manager).view id = manager.view id ∨
      (manager.view id).IsDownloading ∧
        (requeueRounds rounds manager).view id = (manager.view id).requeue := by
  induction rounds generalizing manager with
  | zero => exact .inl rfl
  | succ rounds ih =>
      rw [requeueRounds]
      split
      · exact .inl rfl
      · split
        · exact .inl rfl
        next victim priority place worst =>
          rcases worstDownloading_spec worst with ⟨state, found, downloading⟩
          by_cases same : id = victim
          · subst same
            have requeued : (manager.requeue id).view id = (manager.view id).requeue := by
              rw [view_requeue, if_pos rfl]
            have isRequeued : (manager.view id).requeue.state =
                some { state with status := .queued, persistedStatus := some .queued } := by
              simp [JobView.requeue, JobView.mapStatus, JobView.mapState, JobView.mapContext, view,
                found]
            have stays : ¬((manager.requeue id).view id).IsDownloading := by
              rw [requeued]
              rintro ⟨after, isAfter, isDownloading⟩
              rw [isRequeued] at isAfter
              cases isAfter
              cases isDownloading
            refine .inr ⟨⟨state, found, downloading⟩, ?_⟩
            rcases ih (manager.requeue id) with rest | ⟨again, -⟩
            · rw [rest, requeued]
            · exact absurd again stays
          · have others : (manager.requeue victim).view id = manager.view id := by
              rw [view_requeue, if_neg same]
            have rest := ih (manager.requeue victim)
            rwa [others] at rest

theorem requeueRounds_frame (manager : QueueManager) (rounds : ℕ) :
    (requeueRounds rounds manager).shell = manager.shell ∧
      (requeueRounds rounds manager).submissions = manager.submissions := by
  induction rounds generalizing manager with
  | zero => exact ⟨rfl, rfl⟩
  | succ rounds ih =>
      rw [requeueRounds]
      split
      · exact ⟨rfl, rfl⟩
      · split
        · exact ⟨rfl, rfl⟩
        next victim _ _ _ => exact ih (manager.requeue victim)

theorem shell_preemptRounds (rounds : ℕ) :
    (preemptRounds disk rounds manager).shell = manager.shell := by
  induction rounds generalizing manager with
  | zero => rfl
  | succ rounds ih =>
      rw [preemptRounds]
      split
      · split
        · rfl
        · exact ih
      · exact shell_startQueued _

theorem view_preemptRounds (disk : DiskCheck) (manager : QueueManager) (id : JobId) (rounds : ℕ) :
    ∃ middle, (middle = manager.view id ∨
        (manager.view id).IsDownloading ∧ middle = (manager.view id).preempt) ∧
      Started (!manager.gate.globallyPaused) (disk id) middle
        ((preemptRounds disk rounds manager).view id) := by
  induction rounds generalizing manager with
  | zero => exact ⟨_, .inl rfl, .idle⟩
  | succ rounds ih =>
      rw [preemptRounds]
      split
      · split
        · exact ⟨_, .inl rfl, .idle⟩
        next victim isVictim =>
          rcases preempted_spec isVictim with ⟨state, found, downloading⟩
          rcases ih (manager.preempt victim) with ⟨middle, isMiddle, started⟩
          have sameGate : (manager.preempt victim).gate = manager.gate := rfl
          rw [sameGate] at started
          by_cases same : id = victim
          · subst same
            rw [view_preempt, if_pos rfl] at isMiddle
            have isPreempted : (manager.view id).preempt.state =
                some { state with status := .paused, persistedStatus := some .paused } := by
              simp [JobView.preempt, JobView.mapStatus, JobView.mapState, JobView.mapContext, view,
                found]
            have stays : ¬(manager.view id).preempt.IsDownloading := by
              rintro ⟨after, isAfter, isDownloading⟩
              rw [isPreempted] at isAfter
              cases isAfter
              cases isDownloading
            refine ⟨middle, .inr ⟨⟨state, found, downloading⟩, ?_⟩, started⟩
            rcases isMiddle with isMiddle | ⟨again, -⟩
            · exact isMiddle
            · exact absurd again stays
          · rw [view_preempt, if_neg same] at isMiddle
            exact ⟨middle, isMiddle, started⟩
      · exact ⟨_, .inl rfl, view_startNextQueued disk manager id⟩

/-! ## Holds -/

theorem mem_activeJobs :
    id ∈ manager.activeJobs ↔
      ∃ state, manager.jobs.lookup id = some state ∧ state.isActive = true := by
  rw [activeJobs, List.mem_map]
  constructor
  · rintro ⟨entry, filtered, rfl⟩
    rcases List.mem_filter.mp filtered with ⟨isEntry, active⟩
    exact ⟨entry.2, AList.mem_lookup_iff.mpr isEntry, active⟩
  · rintro ⟨state, found, active⟩
    exact ⟨⟨id, state⟩, List.mem_filter.mpr ⟨AList.mem_lookup_iff.mp found, active⟩, rfl⟩

theorem view_pauseJobsForGlobalHold :
    manager.pauseJobsForGlobalHold.view id = (manager.view id).holdAll := by
  rw [pauseJobsForGlobalHold, view_setGloballyPausedJobs, JobView.holdAll]
  simp only [view, Lib.Registry.lookup_mapValues, Finset.mem_union, List.mem_toFinset,
    mem_activeJobs]
  rcases manager.jobs.lookup id with _ | state
  · simp
  · rcases active : state.isActive with _ | _
    · simp [active]
    · simp [active]

theorem view_resumeJobsAfterHolds (disk : DiskCheck) (manager : QueueManager) (id : JobId) :
    Started (!manager.gate.globallyPaused) (disk id) (manager.view id).releaseHold
      ((resumeJobsAfterHolds disk manager).view id) := by
  have started := view_startNextQueued disk { manager.setGloballyPausedJobs ∅ with
    jobs := manager.jobs.mapValues fun id (state : JobState) =>
      if id ∈ manager.globallyPausedJobs ∧ state.status = .paused then unpause state
      else state } id
  have base : ({ manager.setGloballyPausedJobs ∅ with
      jobs := manager.jobs.mapValues fun id (state : JobState) =>
        if id ∈ manager.globallyPausedJobs ∧ state.status = .paused then unpause state
        else state } : QueueManager).view id = (manager.view id).releaseHold := by
    simp [view, JobView.releaseHold, Lib.Registry.lookup_mapValues, setGloballyPausedJobs]
  rw [base] at started
  exact started

theorem view_changeHolds (disk : DiskCheck) (manager : QueueManager) (id : JobId)
    (change : HoldGate → HoldGate × JobsRequest) :
    match (change manager.gate).2 with
    | .nothing => (changeHolds disk manager change).view id = manager.view id
    | .pause => (changeHolds disk manager change).view id = (manager.view id).holdAll
    | .resume => Started (!(change manager.gate).1.globallyPaused) (disk id)
        (manager.view id).releaseHold ((changeHolds disk manager change).view id) := by
  rw [changeHolds]
  cases (change manager.gate).2 with
  | nothing => rfl
  | pause => exact view_pauseJobsForGlobalHold
  | resume =>
      exact view_resumeJobsAfterHolds disk { manager with gate := (change manager.gate).1 } id

theorem changeHolds_frame (disk : DiskCheck) (manager : QueueManager)
    (change : HoldGate → HoldGate × JobsRequest) :
    (changeHolds disk manager change).gate = (change manager.gate).1 ∧
      (changeHolds disk manager change).maxActiveDownloads = manager.maxActiveDownloads ∧
      (changeHolds disk manager change).jobOrder = manager.jobOrder ∧
      (changeHolds disk manager change).configuredServers = manager.configuredServers ∧
      (changeHolds disk manager change).scheduleDisabledServers =
        manager.scheduleDisabledServers ∧
      (changeHolds disk manager change).finishing = manager.finishing ∧
      (changeHolds disk manager change).expiring = manager.expiring := by
  rw [changeHolds]
  cases (change manager.gate).2 with
  | nothing => exact ⟨rfl, rfl, rfl, rfl, rfl, rfl, rfl⟩
  | pause => exact ⟨rfl, rfl, rfl, rfl, rfl, rfl, rfl⟩
  | resume => simp [request, resumeJobsAfterHolds, setGloballyPausedJobs]

theorem view_resumePaused (disk : DiskCheck) (manager : QueueManager) (id : JobId)
    (test : JobState → Bool) :
    (resumePaused disk manager test).view id = manager.view id ∨
      manager.gate.globallyPaused = false ∧
        Started true (disk id) ((manager.view id).resumeIf test)
          ((resumePaused disk manager test).view id) := by
  rw [resumePaused]
  split
  · exact .inl rfl
  next isOpen =>
    split
    · exact .inl rfl
    · have isOpen : manager.gate.globallyPaused = false := by simpa using isOpen
      have started := view_startNextQueued disk { manager with
        jobs := manager.jobs.mapValues fun _ (state : JobState) =>
          if state.status = .paused && test state then unpause state else state } id
      have base : ({ manager with
          jobs := manager.jobs.mapValues fun _ (state : JobState) =>
            if state.status = .paused && test state then unpause state
            else state } : QueueManager).view id = (manager.view id).resumeIf test := by
        simp [view, JobView.resumeIf, JobView.mapState, Lib.Registry.lookup_mapValues]
      rw [base] at started
      dsimp only at started
      rw [isOpen] at started
      exact .inr ⟨isOpen, started⟩

/-! ## Operations on one job -/

section Operations

variable {next base : QueueManager}

theorem started_of_base (disk : DiskCheck) (same : base.view id = manager.view id)
    (sameGate : base.gate = manager.gate) :
    Started (!manager.gate.globallyPaused) (disk id) (manager.view id)
      ((startNextQueued disk base).view id) := by
  have started := view_startNextQueued disk base id
  rwa [same, sameGate] at started

theorem started_of_eq {isOpen diskOk : Bool} (same : next.view id = manager.view id) :
    Started isOpen diskOk (manager.view id) (next.view id) := by
  rw [same]
  exact .idle

theorem view_launchDownload_ne (differs : id ≠ other) :
    (launchDownload disk manager other).view id = manager.view id := by
  rw [launchDownload]
  split
  · rfl
  · split
    · rw [view_submitJob, if_neg differs]
    · rw [view_modifyJob, if_neg differs]

theorem view_toHistory_ne (differs : id ≠ other) (change : JobState → JobState) :
    (((manager.modifyJob other change).moveToHistory other).expireLater other).view id =
      manager.view id := by
  have changed : (manager.modifyJob other change).view id = manager.view id := by
    rw [view_modifyJob, if_neg differs]
  rw [← changed]
  simp only [view, expireLater, moveToHistory, AList.lookup_erase_ne differs]
  rfl

theorem view_step_ne {operation : Operation} (move : Step manager (operation, disk) next)
    (target : operation.target = some other) (differs : id ≠ other) :
    Started (!manager.gate.globallyPaused) (disk id) (manager.view id) (next.view id) := by
  cases operation with
  | addJob _ priority requestedPaused addedAt =>
      cases target
      rcases Option.ite_none_left_eq_some.mp move with ⟨-, ⟨⟩⟩
      simp only [addJob]
      split
      · apply started_of_eq
        split
        · simp [view, differs]
        · simp [view, differs, setGloballyPausedJobs]
      · apply started_of_base
        · simp [view, differs]
        · rfl
  | pauseJob =>
      cases target
      cases move
      simp only [pauseJob]
      split
      · apply started_of_eq
        rw [view_pauseContext, if_neg differs]
      · apply started_of_base
        · simp only [view_setGloballyPausedJobs, view_queueUpdateStatus, view_modifyJob,
            view_pauseContext, Finset.mem_erase, differs, ne_eq, not_false_eq_true,
            true_and]
          rfl
        · rfl
  | resumeJob =>
      cases target
      cases move
      apply started_of_eq
      simp only [resumeJob]
      split
      · rfl
      · split
        · rfl
        · split
          · simp only [view_queueUpdateStatus, view_modifyJob, if_neg differs]
          · split
            · simp only [view_resumeContext, view_queueUpdateStatus, view_modifyJob,
                if_neg differs]
            · rw [view_launchDownload_ne differs, view_modifyJob, if_neg differs]
  | removeJob =>
      cases target
      cases move
      apply started_of_eq
      rw [removeJob]
      split
      · rw [view_releaseContext, if_neg differs]
      · split
        · rfl
        · simp [view, differs, setGloballyPausedJobs, releaseContext]
  | setJobPriority _ priority =>
      cases target
      cases move
      simp only [setJobPriority]
      split
      · exact .idle
      · apply started_of_base
        · simp only [view, modifyJob, Lib.Registry.lookup_modify, if_neg differs]
          rfl
        · rfl
  | waitingForProviders _ message =>
      cases target
      rcases Option.ite_none_right_eq_some.mp move with ⟨-, ⟨⟩⟩
      apply started_of_eq
      rw [waitingForProviders]
      split
      · rfl
      · split
        · rfl
        · rw [view_queueUpdateErrorMessage, view_modifyJob, if_neg differs, if_neg differs]
  | providersAvailable =>
      cases target
      rcases Option.ite_none_right_eq_some.mp move with ⟨-, ⟨⟩⟩
      apply started_of_eq
      rw [providersAvailable]
      split
      · rfl
      · split
        · rw [view_queueUpdateErrorMessage, view_modifyJob, if_neg differs, if_neg differs]
        · rfl
  | hopeless _ reason =>
      cases target
      rcases Option.ite_none_right_eq_some.mp move with ⟨-, ⟨⟩⟩
      apply started_of_eq
      rw [hopeless, view_modifyJob, if_neg differs]
  | jobFinished _ note =>
      cases target
      rcases Option.ite_none_right_eq_some.mp move with ⟨-, ⟨⟩⟩
      apply started_of_base
      · rw [view_modifyJob, view_releaseContext, if_neg differs, if_neg differs]
      · rfl
  | jobAborted _ reason =>
      cases target
      rcases Option.ite_none_right_eq_some.mp move with ⟨-, ⟨⟩⟩
      apply started_of_base
      · have released : (manager.releaseContext other).view id = manager.view id := by
          rw [view_releaseContext, if_neg differs]
        split
        · exact released
        · rw [view_toHistory_ne differs, released]
      · split <;> rfl
  | onJobFinished _ outcome =>
      cases target
      rcases Option.ite_none_right_eq_some.mp move with ⟨-, ⟨⟩⟩
      simp only [onJobFinished]
      split
      · exact .idle
      · split
        · apply started_of_base
          · rw [view_toHistory_ne differs]
            rfl
          · rfl
        · apply started_of_eq
          rw [view_toHistory_ne differs]
          rfl
  | expire =>
      cases target
      rcases Option.ite_none_right_eq_some.mp move with ⟨-, ⟨⟩⟩
      apply started_of_eq
      simp [view, expire, differs]
  | persistJobProgress =>
      cases target
      cases move
      apply started_of_eq
      rw [persistJobProgress]
      split
      · rfl
      · split
        · rfl
        · rw [view_queueUpdateStatus, view_modifyJob, if_neg differs, if_neg differs]
  | moveJob | sortQueue | setMaxActiveDownloads | pauseAll | expireUserHold | resumeAll
  | enforceDiskGuard | applySchedule | updateServers | restart => cases target

end Operations

end QueueManager

end Rustnzb.Web.Queue
