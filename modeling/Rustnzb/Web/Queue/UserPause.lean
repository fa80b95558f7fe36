import Rustnzb.Web.Queue.Views

/-!
# A pause of the user

`pause_job` leaves no mark of its own. The paused job is told from the jobs that the server list,
the disk guard and the holds put back by what it does not have: an error message, the storage
failure code, a place among the globally paused jobs. The first of these it can have or get.
-/

namespace Rustnzb.Web.Queue

open Dispatch (JobId ServerId)
open Lib (Run)

namespace Operation

def lifts (id : JobId) : Operation → Bool
  | resumeJob other | removeJob other | jobFinished other _ | jobAborted other _
  | onJobFinished other _ | expire other => other = id
  | restart _ => true
  | _ => false

end Operation

namespace QueueManager

def appliesServers (manager : QueueManager) : Operation → Bool
  | .updateServers servers =>
      !manager.gate.globallyPaused &&
        !{ manager with configuredServers := servers }.enabledServers.isEmpty
  | .applySchedule decision enabled disabled =>
      let disabled := if enabled then disabled else []
      manager.scheduleDisabledServers ≠ disabled &&
        !(manager.gate.applyScheduleHold (decision.windows enabled)).1.globallyPaused &&
        !{ manager with scheduleDisabledServers := disabled }.enabledServers.isEmpty
  | _ => false

/-- No server list is applied while the job has an error message. -/
def Quiet (manager : QueueManager) (id : JobId) (operation : Operation) : Prop :=
  manager.appliesServers operation = true →
    ∀ state, manager.jobs.lookup id = some state → state.errorMessage = none

def IsPaused (manager : QueueManager) (id : JobId) : Prop :=
  (∃ state, manager.jobs.lookup id = some state ∧ state.status = .paused) ∧
    manager.contexts.lookup id ≠ some false

end QueueManager

structure JobView.UserPaused (view : JobView) : Prop where
  paused : ∃ state, view.state = some state ∧ state.status = .paused ∧
    state.failureCode ≠ some .storageUnavailable
  context : view.context ≠ some false
  held : view.held = false

namespace JobView.UserPaused

variable {view : JobView}

theorem holdAll_eq (kept : view.UserPaused) : view.holdAll = view := by
  rcases kept.paused with ⟨state, found, paused, -⟩
  simp [JobView.holdAll, found, JobState.isActive, JobState.isDownloading, JobState.isQueued,
    paused]

theorem releaseHold_eq (kept : view.UserPaused) : view.releaseHold = view := by
  have held := kept.held
  rcases view with ⟨state, context, isHeld, row⟩
  subst held
  simp [JobView.releaseHold]

theorem resumeIf_eq {test : JobState → Bool}
    (fails : ∀ state, view.state = some state → test state = false) :
    view.resumeIf test = view := by
  rcases view with ⟨state, context, isHeld, row⟩
  rcases state with _ | state
  · rfl
  · simp [JobView.resumeIf, JobView.mapState, fails state rfl]

theorem not_isDownloading (kept : view.UserPaused) : ¬view.IsDownloading := by
  rintro ⟨other, found, downloading⟩
  rcases kept.paused with ⟨state, isState, paused, -⟩
  rw [isState] at found
  cases found
  rw [paused] at downloading
  cases downloading

theorem started_eq {isOpen diskOk : Bool} {next : JobView} (kept : view.UserPaused)
    (started : Started isOpen diskOk view next) : next = view := by
  apply started.of_not_queued
  intro state found queued
  rcases kept.paused with ⟨other, isState, paused, -⟩
  rw [found] at isState
  cases isState
  rw [queued] at paused
  cases paused

end JobView.UserPaused

namespace QueueManager

variable {disk : DiskCheck} {manager : QueueManager} {id other : JobId}

theorem userPaused_startNextQueued (kept : (manager.view id).UserPaused) :
    ((startNextQueued disk manager).view id).UserPaused := by
  rwa [kept.started_eq (view_startNextQueued disk manager id)]

theorem view_changeHolds_of_kept (disk : DiskCheck) (kept : (manager.view id).UserPaused)
    (change : HoldGate → HoldGate × JobsRequest) :
    (changeHolds disk manager change).view id = manager.view id := by
  have changed := view_changeHolds disk manager id change
  split at changed
  · exact changed
  · exact changed.trans kept.holdAll_eq
  · rw [kept.releaseHold_eq] at changed
    exact kept.started_eq changed

section

variable (kept : (manager.view id).UserPaused)

include kept

theorem userPaused_changeHolds (change : HoldGate → HoldGate × JobsRequest) :
    ((changeHolds disk manager change).view id).UserPaused := by
  rwa [view_changeHolds_of_kept disk kept]

theorem userPaused_resumePaused {test : JobState → Bool}
    (fails : manager.gate.globallyPaused = false →
      ∀ state, manager.jobs.lookup id = some state → test state = false) :
    ((resumePaused disk manager test).view id).UserPaused := by
  rcases view_resumePaused disk manager id test with same | ⟨isOpen, started⟩
  · rwa [same]
  · rw [JobView.UserPaused.resumeIf_eq (fails isOpen)] at started
    rwa [kept.started_eq started]

theorem userPaused_resumeStorageHeldJobs :
    ((resumeStorageHeldJobs disk manager).view id).UserPaused := by
  apply userPaused_resumePaused kept
  intro _ state found
  rcases kept.paused with ⟨other, isState, -, code⟩
  rw [show (manager.view id).state = some state from found] at isState
  cases isState
  simpa using code

theorem userPaused_applyServerOverlay
    (quiet : manager.gate.globallyPaused = false → manager.enabledServers.isEmpty = false →
      ∀ state, manager.jobs.lookup id = some state → state.errorMessage = none) :
    ((applyServerOverlay disk manager).view id).UserPaused := by
  rw [applyServerOverlay]
  split
  · exact kept
  next some =>
    apply userPaused_resumePaused kept
    intro isOpen state found
    rw [quiet isOpen (by simpa using some) state found]
    rfl

theorem userPaused_preemptIfNeeded :
    ((preemptIfNeeded disk manager).view id).UserPaused := by
  rcases view_preemptRounds disk manager id (manager.activeDownloadCount + 1) with
    ⟨middle, rfl | ⟨downloading, -⟩, started⟩
  · rw [preemptIfNeeded]
    rwa [kept.started_eq started]
  · exact absurd downloading kept.not_isDownloading

theorem userPaused_requeueOverLimit :
    (manager.requeueOverLimit.view id).UserPaused := by
  rw [requeueOverLimit]
  split
  · exact kept
  · rcases view_requeueRounds manager id manager.activeDownloadCount with same | ⟨downloading, -⟩
    · rwa [same]
    · exact absurd downloading kept.not_isDownloading

end

theorem status_userPause (state : JobState) : (userPause state).status = .paused := by
  rw [userPause]
  split <;> rfl

theorem state_pauseByUser {state : JobState} (found : manager.jobs.lookup id = some state) :
    (manager.view id).pauseByUser.state = some (userPause state) := by
  simp [JobView.pauseByUser, JobView.mapStatus, JobView.mapState, JobView.mapContext, view, found]

/-- A pause, before the free slot is given to another job. -/
theorem view_setPaused (manager : QueueManager) (id : JobId) :
    ((((manager.pauseContext id).modifyJob id userPause).queueUpdateStatus id
      .paused).setGloballyPausedJobs (manager.globallyPausedJobs.erase id)).view id =
        (manager.view id).pauseByUser := by
  simp only [view_setGloballyPausedJobs, view_queueUpdateStatus, view_modifyJob,
    view_pauseContext, if_true, Finset.notMem_erase, decide_false]
  rfl

theorem view_pauseJob_self {state : JobState} (found : manager.jobs.lookup id = some state) :
    (pauseJob disk manager id).1.view id = (manager.view id).pauseByUser := by
  have isThere : (manager.pauseContext id).jobs.lookup id = some state := found
  simp only [pauseJob, isThere]
  refine (view_startNextQueued_eq fun after isAfter => ?_).trans (view_setPaused manager id)
  have isPaused :=
    (congrArg JobView.state (view_setPaused manager id)).trans (state_pauseByUser found)
  cases isAfter.symm.trans isPaused
  simp [status_userPause]

theorem userPaused_pauseJob {state : JobState} (found : manager.jobs.lookup id = some state) :
    ((pauseJob disk manager id).1.view id).UserPaused := by
  rw [view_pauseJob_self found]
  constructor
  case paused =>
    refine ⟨userPause state, state_pauseByUser found, status_userPause state, ?_⟩
    rw [userPause]
    split
    · simp
    next other => exact other
  case context =>
    simp only [JobView.pauseByUser, JobView.mapStatus, JobView.mapState, JobView.mapContext]
    cases (manager.view id).context <;> simp
  case held => rfl

theorem userPaused_modifyJob (kept : (manager.view id).UserPaused) (change : JobState → JobState)
    (leaves : ∀ state, state.status = .paused → state.failureCode ≠ some .storageUnavailable →
      (change state).status = .paused ∧ (change state).failureCode ≠ some .storageUnavailable) :
    ((manager.modifyJob id change).view id).UserPaused := by
  rw [view_modifyJob, if_pos rfl]
  rcases kept with ⟨⟨state, found, paused, code⟩, context, held⟩
  exact ⟨⟨change state, by simp [JobView.mapState, found], leaves state paused code⟩, context, held⟩

theorem userPaused_step {operation : Operation} {next : QueueManager}
    (kept : (manager.view id).UserPaused) (move : Step manager (operation, disk) next)
    (keeps : operation.lifts id = false) (quiet : manager.Quiet id operation) :
    (next.view id).UserPaused := by
  rcases kept.paused with ⟨state, found, paused, code⟩
  have found : manager.jobs.lookup id = some state := found
  by_cases another : ∃ other, operation.target = some other ∧ id ≠ other
  · rcases another with ⟨other, target, differs⟩
    rw [kept.started_eq (view_step_ne move target differs)]
    exact kept
  have own : ∀ other, operation.target = some other → id = other :=
    fun other target => not_not.mp fun differs => another ⟨other, target, differs⟩
  cases operation with
  | addJob other priority requestedPaused addedAt =>
      cases own other rfl
      rcases Option.ite_none_left_eq_some.mp move with ⟨fresh, -⟩
      simp [knows, found] at fresh
  | pauseJob other =>
      cases own other rfl
      cases move
      exact userPaused_pauseJob found
  | resumeJob other | removeJob other | jobFinished other _ | jobAborted other _
  | onJobFinished other _ | expire other =>
      cases own other rfl
      simp [Operation.lifts] at keeps
  | restart graceful => cases keeps
  | setJobPriority other priority =>
      cases own other rfl
      cases move
      simp only [setJobPriority, found]
      have changed := userPaused_modifyJob kept (fun state => { state with priority := priority })
        fun _ paused code => ⟨paused, code⟩
      exact userPaused_startNextQueued ⟨changed.paused, changed.context, changed.held⟩
  | moveJob other position =>
      cases move
      simp only [moveJob]
      split
      · exact userPaused_preemptIfNeeded kept
      · exact kept
  | sortQueue order =>
      rcases Option.ite_none_right_eq_some.mp move with ⟨-, ⟨⟩⟩
      exact kept
  | setMaxActiveDownloads max =>
      cases move
      exact userPaused_startNextQueued (userPaused_requeueOverLimit kept)
  | pauseAll | expireUserHold | resumeAll =>
      cases move
      exact userPaused_changeHolds kept _
  | enforceDiskGuard low now =>
      cases move
      simp only [enforceDiskGuard]
      split
      · split
        · exact kept
        · exact userPaused_changeHolds kept _
      · apply userPaused_resumeStorageHeldJobs
        split
        · exact userPaused_changeHolds kept _
        · exact kept
  | applySchedule decision enabled disabled =>
      cases move
      have same := view_changeHolds_of_kept disk kept fun gate =>
        gate.applyScheduleHold (decision.windows enabled)
      rcases changeHolds_frame disk manager fun gate =>
          gate.applyScheduleHold (decision.windows enabled) with
        ⟨sameGate, -, -, configured, excluded, -, -⟩
      have changed : ((changeHolds disk manager fun gate =>
          gate.applyScheduleHold (decision.windows enabled)).view id).UserPaused := by
        rwa [same]
      rw [Quiet] at quiet
      simp only [appliesServers] at quiet
      simp only [applySchedule]
      generalize (if enabled = true then disabled else []) = effective at quiet ⊢
      split
      · exact changed
      next differs =>
        refine userPaused_applyServerOverlay ?_ ?_
        · exact changed
        · intro isOpen some other isOther
          dsimp only at isOpen isOther
          rw [excluded] at differs
          rw [sameGate] at isOpen
          simp only [enabledServers, configured] at some
          apply quiet
          · simp only [enabledServers, differs, isOpen, some, ne_eq, not_false_eq_true, decide_true,
              Bool.not_false, Bool.and_self]
          · exact (congrArg JobView.state same).symm.trans isOther
  | updateServers servers =>
      cases move
      rw [updateServers]
      refine userPaused_applyServerOverlay ?_ ?_
      · exact kept
      · intro isOpen some
        dsimp only at isOpen
        exact quiet (by simp [appliesServers, isOpen, some])
  | waitingForProviders other message =>
      cases own other rfl
      rcases Option.ite_none_right_eq_some.mp move with ⟨-, ⟨⟩⟩
      simp only [waitingForProviders, found]
      split
      · exact kept
      · have changed := userPaused_modifyJob kept (fun state =>
          { state with errorMessage := some message }) fun _ paused code => ⟨paused, code⟩
        rw [view_queueUpdateErrorMessage, if_pos rfl]
        exact ⟨changed.paused, changed.context, changed.held⟩
  | providersAvailable other =>
      cases own other rfl
      rcases Option.ite_none_right_eq_some.mp move with ⟨-, ⟨⟩⟩
      simp only [providersAvailable, found]
      split
      · have changed := userPaused_modifyJob kept (fun state =>
          { state with errorMessage := none, failureCode := none })
          fun _ paused _ => ⟨paused, by simp⟩
        rw [view_queueUpdateErrorMessage, if_pos rfl]
        exact ⟨changed.paused, changed.context, changed.held⟩
      · exact kept
  | hopeless other reason =>
      cases own other rfl
      rcases Option.ite_none_right_eq_some.mp move with ⟨-, ⟨⟩⟩
      exact userPaused_modifyJob kept _ fun _ paused code => ⟨paused, code⟩
  | persistJobProgress other =>
      cases own other rfl
      cases move
      simp only [persistJobProgress, found]
      split
      · exact kept
      · have changed := userPaused_modifyJob kept (fun state =>
          { state with persistedStatus := some state.status }) fun _ paused code => ⟨paused, code⟩
        rw [view_queueUpdateStatus, if_pos rfl]
        exact ⟨changed.paused, changed.context, changed.held⟩

/-- A pause of the user lasts until the user lifts it or the download ends, as long as no server
list finds an error message on the job. -/
theorem user_pause_kept {first last : QueueManager} {state : JobState}
    (found : manager.jobs.lookup id = some state) (pause : Step manager (.pauseJob id, disk) first)
    {events : List (Operation × DiskCheck)} (run : Run Step first events last)
    (kept : ∀ event ∈ events, Operation.lifts id event.1 = false)
    (quiet : Run.Always Step first (fun _ manager event => manager.Quiet id event.1) events) :
    last.IsPaused id := by
  cases pause
  have both : Run.Always Step (pauseJob disk manager id).1 (fun _ manager event =>
      Operation.lifts id event.1 = false ∧ manager.Quiet id event.1) events := by
    intro before event after middle split reached
    refine ⟨kept event ?_, quiet before event after middle split reached⟩
    simp [split]
  have holds : (last.view id).UserPaused := by
    apply run.invariant_of_steps (fun _ manager => (manager.view id).UserPaused) both
    · exact userPaused_pauseJob found
    · rintro _ manager event next _ isPaused ⟨keeps, calm⟩ move
      exact userPaused_step isPaused move keeps calm
  rcases holds.paused with ⟨after, isAfter, paused, -⟩
  exact ⟨⟨after, isAfter, paused⟩, holds.context⟩

def roomy : DiskCheck := fun _ => true

def oneServer : List ServerConfig := [{ id := "news", enabled := true }]

def oneDownload : QueueManager :=
  addJob roomy (.new 1 oneServer) "job" .normal false 0

theorem user_pause_kept_holds : ∃ last : QueueManager, last.IsPaused "job" := by
  let first := (pauseJob roomy oneDownload "job").1
  let held : List (Operation × DiskCheck) := [(.pauseAll, roomy), (.resumeAll, roomy)]
  let updated : Operation × DiskCheck := (.updateServers oneServer, roomy)
  have facts : (oneDownload.jobs.lookup "job").isSome = true ∧
      (Lib.execute step first (held ++ [updated])).isSome = true ∧
      (Lib.execute step first held).all (fun manager =>
        (manager.jobs.lookup "job").all fun state => state.errorMessage.isNone) = true := by
    decide
  rcases facts with ⟨there, ends, silent⟩
  rcases Option.isSome_iff_exists.mp there with ⟨state, found⟩
  rcases Option.isSome_iff_exists.mp ends with ⟨last, executed⟩
  have run : Run Step first ([] ++ (held ++ [updated])) last :=
    Run.of_execute (fun _ _ _ move => move) .start executed
  refine ⟨last, user_pause_kept found rfl run ?_ ?_⟩
  · decide
  · refine Run.Always.concat ?_ ?_
    · apply Run.Always.of_forall
      intro event mem before manager
      rcases List.mem_pair.mp mem with rfl | rfl <;> exact fun applies => by cases applies
    · intro manager reached _ state found
      have executed : Lib.execute step first held = some manager :=
        reached.execute_eq fun _ _ _ move => move
      rw [executed] at silent
      simpa [found] using silent

theorem not_user_pause_kept : ¬∀ (max : ℕ) (servers : List ServerConfig)
    (before : List (Operation × DiskCheck)) (manager : QueueManager) (id : JobId)
    (state : JobState) (disk : DiskCheck) (first : QueueManager)
    (events : List (Operation × DiskCheck)) (last : QueueManager),
    Run Step (.new max servers) before manager → manager.jobs.lookup id = some state →
      state.status.isOpen = true → Step manager (.pauseJob id, disk) first →
        Run Step first events last → (∀ event ∈ events, Operation.lifts id event.1 = false) →
          last.IsPaused id := by
  intro stays
  let before : List (Operation × DiskCheck) := [(.addJob "job" .normal false 0, roomy)]
  let events : List (Operation × DiskCheck) :=
    [(.waitingForProviders "job" "Waiting for providers: news", roomy),
      (.updateServers oneServer, roomy)]
  have executed : (Lib.execute step (.new 1 oneServer) before).bind (fun manager =>
      (step manager (.pauseJob "job", roomy)).bind fun first =>
        (Lib.execute step first events).map fun last =>
          ((manager.jobs.lookup "job").map fun state => state.status.isOpen,
            last.contexts.lookup "job")) = some (some true, some false) := by
    decide
  rcases Option.bind_eq_some_iff.mp executed with ⟨manager, reached, executed⟩
  rcases Option.bind_eq_some_iff.mp executed with ⟨first, pause, executed⟩
  rcases Option.map_eq_some_iff.mp executed with ⟨last, ends, facts⟩
  simp only [Prod.mk.injEq, Option.map_eq_some_iff] at facts
  rcases facts with ⟨⟨state, found, isOpen⟩, unpaused⟩
  have admitted := Run.of_execute (fun _ _ _ move => move) .start reached
  have rest := Run.of_execute (fun _ _ _ move => move) .start ends
  exact (stays 1 oneServer _ manager "job" state roomy first _ last admitted found isOpen pause rest
    (by decide)).2 unpaused

end QueueManager

end Rustnzb.Web.Queue
