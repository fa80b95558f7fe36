import Rustnzb.Web.Queue.Agreement
import Rustnzb.Web.Queue.UserPause

/-!
# Statuses, contexts and slots over runs

Two operations do not look at the status they replace: `pause_job` and `resume_job` take a job back
from post-processing, and a download that is resumed while the slots are taken is called queued
while it goes on. Every other operation keeps the agreement.
-/

namespace Rustnzb.Web.Queue

open Dispatch (JobId ServerId)
open Lib (Run)

namespace Operation

def isRestart : Operation → Bool
  | restart _ => true
  | _ => false

end Operation

namespace QueueManager

/-- The job is not taken back from post-processing, and a download is not resumed while the slots
are taken. -/
def Fits (manager : QueueManager) : Operation → Prop
  | .pauseJob id => ∀ state, manager.jobs.lookup id = some state → state.status.isOpen = true
  | .resumeJob id => manager.gate.globallyPaused = false → ∀ state,
      manager.jobs.lookup id = some state →
        state.status.isOpen = true ∧ (state.status = .downloading → manager.atLimit = false)
  | _ => True

variable {disk : DiskCheck} {manager base next : QueueManager} {id other : JobId}

/-! ## Taking slots -/

theorem foldl_ne_none {Item Best : Type} {choose : Option Best → Item → Option Best} {item : Item}
    {items : List Item} (keeps : ∀ best item, best ≠ none → choose best item ≠ none)
    (mem : item ∈ items) (takes : ∀ best, choose best item ≠ none) (best : Option Best) :
    items.foldl choose best ≠ none := by
  have stays : ∀ (items : List Item) (best : Option Best), best ≠ none →
      items.foldl choose best ≠ none := by
    intro items
    induction items with
    | nil => exact fun _ found => found
    | cons other items ih => exact fun best found => ih _ (keeps best other found)
  rcases List.append_of_mem mem with ⟨before, after, rfl⟩
  rw [List.foldl_append, List.foldl_cons]
  exact stays after _ (takes _)

theorem worstDownloading_ne_none (mem : id ∈ manager.jobOrder)
    (downloading : (manager.view id).IsDownloading) : manager.worstDownloading ≠ none := by
  rcases downloading with ⟨state, found, downloading⟩
  have isFound : manager.jobs.lookup id = some state := found
  rcases List.mem_iff_getElem.mp mem with ⟨place, within, isId⟩
  have entry : (id, place) ∈ manager.jobOrder.zipIdx := by
    rw [List.mk_mem_zipIdx_iff_getElem?, List.getElem?_eq_getElem within, isId]
  apply foldl_ne_none _ entry
  · intro worst
    simp only [isFound, isDownloading_iff.mpr downloading, if_true]
    split
    · simp
    · split <;> simp
  · intro worst entry chosen
    split
    · exact chosen
    · split
      · split
        · simp
        · split <;> simp
      · exact chosen

theorem count_requeue {state : JobState} (found : manager.jobs.lookup id = some state)
    (downloading : state.status = .downloading) :
    (manager.requeue id).activeDownloadCount + 1 = manager.activeDownloadCount := by
  have counted := Lib.Registry.census_modify JobState.isDownloading (fun state : JobState =>
    { state with status := .queued, persistedStatus := some .queued }) found
  rw [isDownloading_iff.mpr downloading] at counted
  exact counted

theorem count_requeueRounds (manager : QueueManager)
    (ordered : ∀ id, manager.jobs.lookup id ≠ none → id ∈ manager.jobOrder)
    (rounds : ℕ) (enough : manager.activeDownloadCount ≤ manager.maxActiveDownloads + rounds) :
    (requeueRounds rounds manager).activeDownloadCount ≤ manager.maxActiveDownloads := by
  induction rounds generalizing manager with
  | zero => exact enough
  | succ rounds ih =>
      rw [requeueRounds]
      split
      next within => exact within
      next exceeded =>
        have positive : 0 < manager.activeDownloadCount := by omega
        rcases Lib.Registry.exists_of_census_pos JobState.isDownloading positive with
          ⟨entry, mem, downloading⟩
        have found := AList.mem_lookup_iff.mpr mem
        have chosen :=
          worstDownloading_ne_none (ordered entry.1 (by simp [Option.mem_def.mp found]))
          ⟨entry.2, found, isDownloading_iff.mp downloading⟩
        split
        next absent => exact absurd absent chosen
        next victim _ _ worst =>
          rcases worstDownloading_spec worst with ⟨state, isVictim, isDownloading⟩
          have count : (manager.requeue victim).activeDownloadCount + 1 =
              manager.activeDownloadCount := count_requeue isVictim isDownloading
          apply ih
          · intro id there
            apply ordered id
            intro absent
            apply there
            simp only [requeue, queueUpdateStatus, modifyJob, pauseContext]
            rw [Lib.Registry.lookup_modify, absent]
            split <;> rfl
          · have sameMax :
                (manager.requeue victim).maxActiveDownloads = manager.maxActiveDownloads :=
              rfl
            omega

theorem proceeds_setMaxActiveDownloads (agrees : manager.Agrees) (max : ℕ) :
    Proceeds manager (setMaxActiveDownloads disk manager max) := by
  let limited : QueueManager := { manager with maxActiveDownloads := max }
  have lowered : Proceeds manager limited.requeueOverLimit := by
    rw [requeueOverLimit]
    split
    next unlimited =>
      refine agrees.changeLimit (fun id => .refl _) (fun slots => ?_) rfl (fun _ mem _ => mem)
        (fun _ ends => ends.imp_right .inl)
      exact absurd unlimited slots.ne'
    · rcases requeueRounds_frame limited limited.activeDownloadCount with ⟨frame, sameSubmissions⟩
      rcases frame_of_shell frame with ⟨sameOrder, sameMax, sameFinishing, sameExpiring⟩
      apply agrees.changeLimit _ _ sameSubmissions
      · intro id mem _
        rwa [sameOrder]
      · intro id ends
        rw [sameFinishing, sameExpiring] at ends
        exact ends.imp_right .inl
      · intro id
        rcases view_requeueRounds limited id limited.activeDownloadCount with
          same | ⟨downloading, requeued⟩
        · rw [same]
          exact .refl _
        · rw [requeued]
          exact .requeue downloading
      · intro _
        rw [sameMax]
        exact count_requeueRounds limited agrees.ordered _ (Nat.le_add_left ..)
  exact lowered.trans (proceeds_startNextQueued lowered.agrees)

theorem proceeds_preemptIfNeeded (agrees : manager.Agrees) :
    Proceeds manager (preemptIfNeeded disk manager) := by
  rw [preemptIfNeeded]
  generalize manager.activeDownloadCount + 1 = rounds
  induction rounds generalizing manager with
  | zero => exact agrees.proceeds
  | succ rounds ih =>
      rw [preemptRounds]
      split
      · split
        · exact agrees.proceeds
        next victim isVictim =>
          have preempted : Proceeds manager (manager.preempt victim) := by
            refine agrees.changeJobs (fun id => ?_) ⟨rfl, rfl, rfl, rfl⟩ rfl
            rw [view_preempt]
            split
            next same =>
              subst same
              exact .preempt (preempted_spec isVictim)
            · exact .refl _
          exact preempted.trans (ih preempted.agrees)
      · exact proceeds_startNextQueued agrees

/-! ## Holds -/

theorem proceeds_changeHolds (agrees : manager.Agrees)
    (change : HoldGate → HoldGate × JobsRequest) :
    Proceeds manager (changeHolds disk manager change) := by
  have gated : Proceeds manager { manager with gate := (change manager.gate).1 } :=
    agrees.changeJobs (fun _ => .refl _) ⟨rfl, rfl, rfl, rfl⟩ rfl
  rw [changeHolds]
  cases (change manager.gate).2 with
  | nothing => exact gated
  | pause =>
      apply gated.trans
      refine gated.agrees.changeJobs (fun id => ?_) ⟨rfl, rfl, rfl, rfl⟩ rfl
      rw [request, view_pauseJobsForGlobalHold]
      exact .holdAll _
  | resume =>
      apply gated.trans
      rw [request, resumeJobsAfterHolds]
      have released : ∀ base : QueueManager, base.Agrees →
          Proceeds base { base.setGloballyPausedJobs ∅ with
            jobs := base.jobs.mapValues fun id (state : JobState) =>
              if id ∈ base.globallyPausedJobs ∧ state.status = .paused then unpause state
              else state } := by
        intro base agrees
        refine agrees.changeJobs (fun id => ?_) ⟨rfl, rfl, rfl, rfl⟩ rfl
        have isReleased : ({ base.setGloballyPausedJobs ∅ with
            jobs := base.jobs.mapValues fun id (state : JobState) =>
              if id ∈ base.globallyPausedJobs ∧ state.status = .paused then unpause state
              else state } : QueueManager).view id = (base.view id).releaseHold := by
          simp [view, JobView.releaseHold, Lib.Registry.lookup_mapValues, setGloballyPausedJobs]
        rw [isReleased]
        exact .releaseHold _
      have first := released _ gated.agrees
      exact first.trans (proceeds_startNextQueued first.agrees)

theorem proceeds_resumePaused (agrees : manager.Agrees) (test : JobState → Bool) :
    Proceeds manager (resumePaused disk manager test) := by
  rw [resumePaused]
  split
  · exact agrees.proceeds
  · split
    · exact agrees.proceeds
    · have resumed : Proceeds manager { manager with
          jobs := manager.jobs.mapValues fun _ (state : JobState) =>
            if state.status = .paused && test state then unpause state else state } := by
        refine agrees.changeJobs (fun id => ?_) ⟨rfl, rfl, rfl, rfl⟩ rfl
        have isResumed : ({ manager with
            jobs := manager.jobs.mapValues fun _ (state : JobState) =>
              if state.status = .paused && test state then unpause state
              else state } : QueueManager).view id = (manager.view id).resumeIf test := by
          simp [view, JobView.resumeIf, JobView.mapState, Lib.Registry.lookup_mapValues]
        rw [isResumed]
        exact .resumeIf _ test
      exact resumed.trans (proceeds_startNextQueued resumed.agrees)

theorem proceeds_applyServerOverlay (agrees : manager.Agrees) :
    Proceeds manager (applyServerOverlay disk manager) := by
  rw [applyServerOverlay]
  split
  · exact agrees.proceeds
  · exact proceeds_resumePaused agrees _

theorem proceeds_enforceDiskGuard (agrees : manager.Agrees) (low : Bool) (now : ℤ) :
    Proceeds manager (enforceDiskGuard disk manager low now) := by
  simp only [enforceDiskGuard]
  split
  · split
    · exact agrees.proceeds
    · exact proceeds_changeHolds agrees _
  · split
    · have cleared : Proceeds manager (changeHolds disk manager HoldGate.clearDiskHold) :=
        proceeds_changeHolds agrees _
      exact cleared.trans (proceeds_resumePaused cleared.agrees _)
    · exact proceeds_resumePaused agrees _

theorem proceeds_applySchedule (agrees : manager.Agrees) (decision : ScheduleDecision)
    (enabled : Bool) (disabled : List ServerId) :
    Proceeds manager (applySchedule disk manager decision enabled disabled) := by
  have held : Proceeds manager (changeHolds disk manager fun gate =>
      gate.applyScheduleHold (decision.windows enabled)) := proceeds_changeHolds agrees _
  simp only [applySchedule]
  generalize changeHolds disk manager (fun gate =>
    gate.applyScheduleHold (decision.windows enabled)) = middle at held ⊢
  generalize (if enabled then disabled else []) = names
  split
  · exact held
  · have listed : Proceeds middle { middle with scheduleDisabledServers := names } :=
      held.agrees.changeJobs (fun _ => .refl _) ⟨rfl, rfl, rfl, rfl⟩ rfl
    exact held.trans (listed.trans (proceeds_applyServerOverlay listed.agrees))

/-! ## Operations on one job -/

section

variable (agrees : manager.Agrees)

include agrees

theorem proceeds_addJob (fresh : manager.knows id = false)
    (priority : Priority) (requestedPaused : Bool) (addedAt : ℤ) :
    Proceeds manager (addJob disk manager id priority requestedPaused addedAt) := by
  simp only [addJob]
  split
  · split
    · refine agrees.add fresh (AList.lookup_insert _) rfl (by simp) ?_ rfl rfl rfl rfl rfl rfl
      exact fun other differs => AList.lookup_insert_ne differs
    · refine agrees.add fresh (AList.lookup_insert _) rfl (by simp) ?_ rfl rfl rfl rfl rfl rfl
      exact fun other differs => AList.lookup_insert_ne differs
  · let added : QueueManager := { manager with
      jobs := manager.jobs.insert id {
        status := .queued
        priority := priority
        errorMessage := none
        failureCode := none
        persistedStatus := none }
      rows := manager.rows.insert id {
        status := if requestedPaused then .paused else .queued
        priority := priority
        addedAt := addedAt
        errorMessage := none }
      jobOrder := manager.jobOrder ++ [id] }
    have adds : Proceeds manager added :=
      agrees.add fresh (AList.lookup_insert _) rfl (by simp)
        (fun other differs => AList.lookup_insert_ne differs) rfl rfl rfl rfl rfl rfl
    exact adds.trans (proceeds_startNextQueued adds.agrees)

theorem lookup_none_of_absent (absent : manager.jobs.lookup id = none) :
    manager.contexts.lookup id = none := by
  by_contra there
  rcases (agrees.views id).registered there with ⟨state, found, -⟩
  exact absurd (absent.symm.trans found) (by simp)

theorem proceeds_pauseJob (fits : manager.Fits (.pauseJob id)) :
    Proceeds manager (pauseJob disk manager id).1 := by
  simp only [pauseJob]
  split
  next absent =>
    have absent : manager.jobs.lookup id = none := absent
    refine agrees.changeJob id ?_ ?_ ⟨rfl, rfl, rfl, rfl⟩ rfl
    · apply Settles.of_same
      · rw [view_pauseContext, if_pos rfl]
        simp [JobView.mapContext, view, lookup_none_of_absent agrees absent]
      · rfl
    · intro other differs
      exact ⟨rfl, (Lib.Registry.lookup_modify _).trans (if_neg differs)⟩
  next state found =>
    have found : manager.jobs.lookup id = some state := found
    have paused : Proceeds manager
        ((((manager.pauseContext id).modifyJob id userPause).queueUpdateStatus id
          .paused).setGloballyPausedJobs (manager.globallyPausedJobs.erase id)) := by
      refine agrees.changeJob id ?_ ?_ ⟨rfl, rfl, rfl, rfl⟩ rfl
      · have isPaused := status_userPause state
        apply Settles.of_paused found
          ((congrArg JobView.state (view_setPaused manager id)).trans (state_pauseByUser found))
        · simp [view, setGloballyPausedJobs, queueUpdateStatus, QueueManager.modifyJob,
            pauseContext, Lib.Registry.lookup_modify]
        · exact fits state found
        · rw [isPaused]
          rfl
        · simp [isPaused]
      · intro other differs
        exact ⟨(Lib.Registry.lookup_modify _).trans (if_neg differs),
          (Lib.Registry.lookup_modify _).trans (if_neg differs)⟩
    exact paused.trans (proceeds_startNextQueued paused.agrees)

theorem proceeds_launchDownload {state : JobState}
    (found : manager.jobs.lookup id = some state) (isOpen : state.status.isOpen = true)
    (free : manager.atLimit = false) (absent : manager.contexts.lookup id = none)
    (change : JobState → JobState) (starts : ∀ state, (change state).status = .downloading) :
    Proceeds manager (launchDownload disk (manager.modifyJob id change) id) := by
  have others : ∀ other, other ≠ id →
      (launchDownload disk (manager.modifyJob id change) id).view other = manager.view other := by
    intro other differs
    rw [view_launchDownload_ne differs, view_modifyJob, if_neg differs]
  have context : (manager.modifyJob id change).contexts.lookup id = none := absent
  have submitted := submissions_launchDownload disk context
  have isThere : (manager.modifyJob id change).jobs.lookup id = some (change state) := by
    simp [QueueManager.modifyJob, Lib.Registry.lookup_modify, found]
  have launched : ∃ after,
      ((launchDownload disk (manager.modifyJob id change) id).view id).state = some after ∧
        after.status.isOpen = true ∧
          (((launchDownload disk (manager.modifyJob id change) id).view id).context = some false ↔
            after.status = .downloading) := by
    rw [launchDownload, isThere]
    dsimp only
    split
    · rw [view_submitJob, if_pos rfl]
      exact ⟨change state, isThere, by rw [starts]; rfl, by simp [starts]⟩
    · rw [view_modifyJob, if_pos rfl]
      refine ⟨diskHold (change state), ?_, rfl, ?_⟩
      · simp [JobView.mapState, view, isThere]
      · have absent : ((manager.modifyJob id change).view id).context = none := absent
        simp [JobView.mapState, absent, diskHold]
  rcases launched with ⟨after, isAfter, stays, downloads⟩
  apply agrees.start found isOpen free _ ⟨after, isAfter, stays⟩ others
  · rw [launchDownload]
    split
    · rfl
    · split <;> rfl
  · rcases submitted with ⟨same, sameContexts⟩ | appended
    · left
      rw [sameContexts]
      exact ⟨same, fun there => there⟩
    · exact .inr appended
  · constructor
    · rw [downloads]
      constructor
      · exact fun downloading => ⟨after, isAfter, downloading⟩
      · rintro ⟨other, isOther, downloading⟩
        cases isAfter.symm.trans isOther
        exact downloading
    · exact fun _ => ⟨after, isAfter, stays⟩

theorem proceeds_resumeJob (fits : manager.Fits (.resumeJob id)) :
    Proceeds manager (resumeJob disk manager id).1 := by
  simp only [resumeJob]
  split
  · exact agrees.proceeds
  next gateOpen =>
    have gateOpen : manager.gate.globallyPaused = false := by simpa using gateOpen
    split
    · exact agrees.proceeds
    next state found =>
      have found : manager.jobs.lookup id = some state := found
      rcases fits gateOpen state found with ⟨isOpen, slot⟩
      split
      next full =>
        have waits : state.status ≠ .downloading := fun downloading => by
          rw [slot downloading] at full
          cases full
        refine agrees.changeJob id ?_ ?_ ⟨rfl, rfl, rfl, rfl⟩ rfl
        · rw [view_queueUpdateStatus, if_pos rfl, view_modifyJob, if_pos rfl]
          have queued : Settles (manager.view id) ((manager.view id).mapState fun state =>
              { state with status := .queued, persistedStatus := some .queued }) := by
            apply Settles.mapState_of_waiting
            intro other isOther
            have same : some state = some other := found.symm.trans isOther
            cases same
            exact .inr ⟨isOpen, waits, rfl, by simp⟩
          exact queued.trans (.of_same rfl rfl)
        · intro other differs
          exact ⟨(Lib.Registry.lookup_modify _).trans (if_neg differs), rfl⟩
      next free =>
        have free : manager.atLimit = false := by simpa using free
        split
        next alive =>
          have resumed : (((manager.modifyJob id fun state =>
              { restartState state with status := .downloading }).queueUpdateStatus id
                .downloading).resumeContext id).view id =
                { manager.view id with
                  state := some { restartState state with status := .downloading }
                  context := some false
                  row := (manager.view id).row.map fun row =>
                    { row with status := .downloading } } := by
            rcases Option.isSome_iff_exists.mp alive with ⟨paused, registered⟩
            simp only [view_resumeContext, view_queueUpdateStatus, view_modifyJob, if_true,
              JobView.mapState, JobView.mapStatus, JobView.mapContext]
            simp [view, found, registered]
          apply agrees.start found isOpen free
          · rw [resumed]
            constructor <;> simp [JobView.IsDownloading, JobView.IsOpen, JobStatus.isOpen]
          · rw [resumed]
            exact ⟨_, rfl, rfl⟩
          · intro other differs
            simp [view_resumeContext, view_queueUpdateStatus, view_modifyJob, differs]
          · rfl
          · left
            refine ⟨rfl, fun _ absent => ?_⟩
            simp [hasContext, absent] at alive
        next absent =>
          have absent : manager.contexts.lookup id = none := by simpa [hasContext] using absent
          exact proceeds_launchDownload agrees found isOpen free absent _ fun _ => rfl

theorem Agrees.remove (gone : base.jobs = manager.jobs.erase id)
    (context : base.contexts.lookup id = none)
    (contexts : ∀ other, other ≠ id → base.contexts.lookup other = manager.contexts.lookup other)
    (order : base.jobOrder = manager.jobOrder.filter (· ≠ id))
    (sameMax : base.maxActiveDownloads = manager.maxActiveDownloads)
    (ending : ∀ other, other ∈ base.finishing ∨ other ∈ base.expiring →
      other ∈ manager.finishing ∨ other ∈ manager.expiring)
    (sameSubmissions : base.submissions = manager.submissions) : Proceeds manager base := by
  have absent : base.jobs.lookup id = none := by
    rw [gone]
    exact AList.lookup_erase _ _
  apply agrees.change _ sameMax sameSubmissions
  · intro other mem there
    have differs : other ≠ id := by
      rintro rfl
      exact there absent
    rw [order]
    exact List.mem_filter.mpr ⟨mem, by simpa using differs⟩
  · exact fun other ends => (ending other ends).imp_right .inl
  · intro other
    by_cases same : other = id
    · subst same
      apply Settles.of_closed context
      · rintro ⟨state, found, -⟩
        cases absent.symm.trans found
      · exact fun there => absurd absent there
      · exact .inr (.inl absent)
    · apply Settles.of_same (contexts other same)
      simp [view, gone, same]

theorem proceeds_removeJob : Proceeds manager (manager.removeJob id) := by
  rw [removeJob]
  split
  next absent =>
    have absent : manager.jobs.lookup id = none := absent
    refine agrees.changeJob id ?_ ?_ ⟨rfl, rfl, rfl, rfl⟩ rfl
    · apply Settles.of_same
      · rw [view_releaseContext, if_pos rfl]
        exact (lookup_none_of_absent agrees absent).symm
      · rfl
    · exact fun other differs => ⟨rfl, AList.lookup_erase_ne differs⟩
  · split
    · exact agrees.proceeds
    · exact agrees.remove rfl (AList.lookup_erase _ _) (fun other differs =>
        AList.lookup_erase_ne differs) rfl rfl (fun _ ends => ends) rfl

theorem proceeds_setJobPriority (priority : Priority) :
    Proceeds manager (setJobPriority disk manager id priority).1 := by
  simp only [setJobPriority]
  split
  · exact agrees.proceeds
  · have given : Proceeds manager (manager.modifyJob id fun state =>
        { state with priority := priority }) :=
      agrees.modifyJob (fun state => { state with priority := priority }) (fun _ => rfl) rfl rfl
        ⟨rfl, rfl, rfl, rfl⟩ rfl
    generalize manager.modifyJob id (fun state => { state with priority := priority }) = middle
      at given ⊢
    have sorted : Proceeds middle { middle with
        rows := middle.rows.modify id fun row => { row with priority := priority }
        jobOrder := middle.jobOrder.mergeSort fun left right =>
          middle.priorityOf right ≤ middle.priorityOf left } :=
      given.agrees.change (fun _ => .of_same rfl rfl) rfl rfl
        (fun other mem _ => List.mem_mergeSort.mpr mem) (fun _ ends => ends.imp_right .inl)
    exact given.trans (sorted.trans (proceeds_startNextQueued sorted.agrees))

theorem proceeds_moveJob (position : ℕ) :
    Proceeds manager (moveJob disk manager id position).1 := by
  simp only [moveJob]
  split
  next listed =>
    have moved : Proceeds manager { manager with
        jobOrder := (manager.jobOrder.erase id).insertIdx
          (min position (manager.jobOrder.erase id).length) id } := by
      refine agrees.change (fun _ => .refl _) rfl rfl (fun other mem _ => ?_)
        (fun _ ends => ends.imp_right .inl)
      rw [List.mem_insertIdx (Nat.min_le_right ..)]
      by_cases same : other = id
      · exact .inl same
      · exact .inr ((List.mem_erase_of_ne same).mpr mem)
    exact moved.trans (proceeds_preemptIfNeeded moved.agrees)
  · exact agrees.proceeds

end

/-! ## What the downloads report -/

theorem proceeds_jobFinished (agrees : manager.Agrees) (there : manager.hasContext id = true)
    (note : Option String) : Proceeds manager (jobFinished disk manager id note) := by
  have registered : manager.contexts.lookup id ≠ none := by
    intro absent
    simp [hasContext, absent] at there
  rcases (agrees.views id).registered registered with ⟨state, found, -⟩
  have found : manager.jobs.lookup id = some state := found
  let finish := fun state : JobState =>
    { state with status := .postProcessing, errorMessage := note.or state.errorMessage }
  have isThere : ((manager.releaseContext id).modifyJob id finish).jobs.lookup id =
      some (finish state) := by
    rw [QueueManager.modifyJob, Lib.Registry.lookup_modify, if_pos rfl]
    simp [releaseContext, found]
  have closed : ¬(((manager.releaseContext id).modifyJob id finish).view id).IsOpen := by
    rintro ⟨other, isOther, isOpen⟩
    cases isThere.symm.trans isOther
    cases isOpen
  have finished : Proceeds manager ((manager.releaseContext id).modifyJob id finish) := by
    refine agrees.changeJob id ?_ ?_ ⟨rfl, rfl, rfl, rfl⟩ rfl
    · exact .of_closed (AList.lookup_erase _ _) closed (fun _ => by simp [view, found])
        (.inr (.inr registered))
    · exact fun other differs => ⟨(Lib.Registry.lookup_modify _).trans (if_neg differs),
        AList.lookup_erase_ne differs⟩
  have started : Proceeds _ (startNextQueued disk _) := proceeds_startNextQueued finished.agrees
  have ended : ((manager.releaseContext id).modifyJob id finish).Ended id :=
    ⟨closed, agrees.registered id registered⟩
  apply (finished.trans started).trans
  refine started.agrees.change (fun _ => .refl _) rfl rfl (fun _ mem _ => mem) ?_
  rintro other (finishing | expiring)
  · rcases List.mem_append.mp finishing with before | own
    · exact .inl before
    · cases List.mem_singleton.mp own
      exact .inr (.inr (started.ended id ended).1.closed)
  · exact .inr (.inl expiring)

theorem Agrees.moveToHistory (agrees : manager.Agrees) (change : JobState → JobState)
    (finishing : List JobId) (among : ∀ other ∈ finishing, other ∈ manager.finishing)
    (context : base.contexts.lookup id = none)
    (contexts : ∀ other, other ≠ id → base.contexts.lookup other = manager.contexts.lookup other)
    (was : manager.contexts.lookup id ≠ none ∨ ¬(manager.view id).IsOpen)
    (states : base.jobs = (manager.modifyJob id change).jobs)
    (closes : ∀ state, manager.jobs.lookup id = some state → (change state).status.isOpen = false)
    (order : base.jobOrder = manager.jobOrder)
    (sameMax : base.maxActiveDownloads = manager.maxActiveDownloads)
    (isFinishing : base.finishing = finishing)
    (isExpiring : base.expiring = manager.expiring ++ [id])
    (sameSubmissions : base.submissions = manager.submissions) : Proceeds manager base := by
  have lookup : ∀ other, base.jobs.lookup other =
      if other = id then (manager.jobs.lookup other).map change else manager.jobs.lookup other := by
    intro other
    rw [states]
    exact Lib.Registry.lookup_modify change
  have closed : ¬(base.view id).IsOpen := by
    rintro ⟨state, found, isOpen⟩
    have found : base.jobs.lookup id = some state := found
    rw [lookup, if_pos rfl] at found
    rcases Option.map_eq_some_iff.mp found with ⟨before, wasThere, rfl⟩
    rw [closes before wasThere] at isOpen
    cases isOpen
  apply agrees.change _ sameMax sameSubmissions
  · intro other mem _
    rwa [order]
  · intro other ends
    rw [isFinishing, isExpiring] at ends
    rcases ends with finishes | expires
    · exact .inl (among other finishes)
    · rcases List.mem_append.mp expires with before | own
      · exact .inr (.inl before)
      · cases List.mem_singleton.mp own
        exact .inr (.inr closed)
  · intro other
    by_cases same : other = id
    · subst same
      apply Settles.of_closed context closed
      · intro there absent
        apply there
        have absent : manager.jobs.lookup other = none := absent
        simp [view, lookup, absent]
      · exact was.symm.imp_right .inr
    · apply Settles.of_same (contexts other same)
      simp [view, lookup, same]

theorem proceeds_finishAborted (agrees : manager.Agrees) (there : manager.hasContext id = true)
    (reason : String) : Proceeds manager (finishAborted disk manager id reason) := by
  have registered : manager.contexts.lookup id ≠ none := by
    intro absent
    simp [hasContext, absent] at there
  rcases (agrees.views id).registered registered with ⟨state, found, -⟩
  have isThere : (manager.releaseContext id).jobs.lookup id = some state := found
  simp only [finishAborted, isThere]
  have moved : Proceeds manager (((((manager.releaseContext id).modifyJob id
      (abortState reason)).moveToHistory id)).expireLater id) :=
    agrees.moveToHistory (abortState reason) manager.finishing (fun _ mem => mem)
      (AList.lookup_erase _ _) (fun _ differs => AList.lookup_erase_ne differs)
        (.inl registered) rfl
      (fun _ _ => rfl) rfl rfl rfl rfl rfl
  exact moved.trans (proceeds_startNextQueued moved.agrees)

theorem isOpen_finish (outcome : PostprocOutcome) {state : JobState}
    (closed : state.status.isOpen = false) : (outcome.finish state).status.isOpen = false := by
  cases outcome with
  | completed | noUsableOutput =>
      simp only [PostprocOutcome.finish]
      split
      · exact closed
      · rfl
  | diskFull | pipelineFailed | scriptFailed => rfl

theorem proceeds_onJobFinished (agrees : manager.Agrees) (mem : id ∈ manager.finishing)
    (outcome : PostprocOutcome) : Proceeds manager (onJobFinished disk manager id outcome) := by
  have closed := agrees.ending id (.inl mem)
  have context : manager.contexts.lookup id = none := by
    by_contra there
    exact closed ((agrees.views id).registered there)
  simp only [onJobFinished]
  split
  · exact agrees.change (fun _ => .refl _) rfl rfl (fun _ mem _ => mem) fun _ ends =>
      (ends.imp List.mem_of_mem_erase .inl)
  · have moved : Proceeds manager (((({ manager with
        finishing := manager.finishing.erase id } : QueueManager).modifyJob id
          outcome.finish).moveToHistory id).expireLater id) := by
      refine agrees.moveToHistory outcome.finish _ (fun _ => List.mem_of_mem_erase) context
        (fun _ _ => rfl) (.inr closed) rfl (fun state found => ?_) rfl rfl rfl rfl rfl
      apply isOpen_finish
      rw [← Bool.not_eq_true]
      exact fun isOpen => closed ⟨state, found, isOpen⟩
    split
    · exact moved.trans (proceeds_startNextQueued moved.agrees)
    · exact moved

theorem proceeds_expire (agrees : manager.Agrees) (mem : id ∈ manager.expiring) :
    Proceeds manager (manager.expire id) := by
  have context : manager.contexts.lookup id = none := by
    by_contra there
    exact agrees.ending id (.inr mem) ((agrees.views id).registered there)
  exact agrees.remove rfl context (fun _ _ => rfl) rfl rfl
    (fun _ ends => ends.imp_right List.mem_of_mem_erase) rfl

/-! ## Runs -/

theorem proceeds_step {operation : Operation} (agrees : manager.Agrees)
    (move : Step manager (operation, disk) next) (listed : operation.isRestart = false)
    (fits : manager.Fits operation) : Proceeds manager next := by
  cases operation with
  | addJob id priority requestedPaused addedAt =>
      rcases Option.ite_none_left_eq_some.mp move with ⟨fresh, ⟨⟩⟩
      exact proceeds_addJob agrees (by simpa using fresh) priority requestedPaused addedAt
  | pauseJob id =>
      cases move
      exact proceeds_pauseJob agrees fits
  | resumeJob id =>
      cases move
      exact proceeds_resumeJob agrees fits
  | removeJob id =>
      cases move
      exact proceeds_removeJob agrees
  | setJobPriority id priority =>
      cases move
      exact proceeds_setJobPriority agrees priority
  | moveJob id position =>
      cases move
      exact proceeds_moveJob agrees position
  | sortQueue order =>
      rcases Option.ite_none_right_eq_some.mp move with ⟨isPerm, ⟨⟩⟩
      exact agrees.change (fun _ => .refl _) rfl rfl
        (fun _ mem _ => (List.isPerm_iff.mp isPerm).mem_iff.mpr mem)
          (fun _ ends => ends.imp_right .inl)
  | setMaxActiveDownloads max =>
      cases move
      exact proceeds_setMaxActiveDownloads agrees max
  | pauseAll | expireUserHold | resumeAll =>
      cases move
      exact proceeds_changeHolds agrees _
  | enforceDiskGuard low now =>
      cases move
      exact proceeds_enforceDiskGuard agrees low now
  | applySchedule decision enabled disabled =>
      cases move
      exact proceeds_applySchedule agrees decision enabled disabled
  | updateServers servers =>
      cases move
      have updated : Proceeds manager { manager with configuredServers := servers } :=
        agrees.changeJobs (fun _ => .refl _) ⟨rfl, rfl, rfl, rfl⟩ rfl
      exact updated.trans (proceeds_applyServerOverlay updated.agrees)
  | waitingForProviders id message =>
      rcases Option.ite_none_right_eq_some.mp move with ⟨-, ⟨⟩⟩
      rw [waitingForProviders]
      split
      · exact agrees.proceeds
      · split
        · exact agrees.proceeds
        · exact agrees.modifyJob (fun state => { state with errorMessage := some message })
            (fun _ => rfl) rfl rfl ⟨rfl, rfl, rfl, rfl⟩ rfl
  | providersAvailable id =>
      rcases Option.ite_none_right_eq_some.mp move with ⟨-, ⟨⟩⟩
      rw [providersAvailable]
      split
      · exact agrees.proceeds
      · split
        · exact agrees.modifyJob (fun state =>
            { state with errorMessage := none, failureCode := none })
            (fun _ => rfl) rfl rfl ⟨rfl, rfl, rfl, rfl⟩ rfl
        · exact agrees.proceeds
  | hopeless id reason =>
      rcases Option.ite_none_right_eq_some.mp move with ⟨-, ⟨⟩⟩
      exact agrees.modifyJob (fun state => { state with errorMessage := some reason })
        (fun _ => rfl) rfl rfl ⟨rfl, rfl, rfl, rfl⟩ rfl
  | jobFinished id note =>
      rcases Option.ite_none_right_eq_some.mp move with ⟨there, ⟨⟩⟩
      exact proceeds_jobFinished agrees there note
  | jobAborted id reason =>
      rcases Option.ite_none_right_eq_some.mp move with ⟨there, ⟨⟩⟩
      exact proceeds_finishAborted agrees there reason
  | onJobFinished id outcome =>
      rcases Option.ite_none_right_eq_some.mp move with ⟨mem, ⟨⟩⟩
      exact proceeds_onJobFinished agrees mem outcome
  | expire id =>
      rcases Option.ite_none_right_eq_some.mp move with ⟨mem, ⟨⟩⟩
      exact proceeds_expire agrees mem
  | persistJobProgress id =>
      cases move
      rw [persistJobProgress]
      split
      · exact agrees.proceeds
      · split
        · exact agrees.proceeds
        · exact agrees.modifyJob (fun state =>
            { state with persistedStatus := some state.status })
            (fun _ => rfl) rfl rfl ⟨rfl, rfl, rfl, rfl⟩ rfl
  | restart => cases listed

theorem agrees_new (max : ℕ) (servers : List ServerConfig) : (new max servers).Agrees := by
  have noJob : ∀ id, (new max servers).jobs.lookup id = none := fun _ => AList.lookup_empty _
  have noContext : ∀ id, (new max servers).contexts.lookup id = none :=
    fun _ => AList.lookup_empty _
  constructor
  case views =>
    intro id
    constructor
    · simp [view, noContext, JobView.IsDownloading, noJob]
    · exact fun there => absurd (noContext id) there
  case ordered => exact fun id there => absurd (noJob id) there
  case ending => simp [new]
  case limited => exact fun _ => Nat.zero_le _
  case once => simp [new]
  case registered => exact fun id there => absurd (noContext id) there
  case closed => exact fun id there => absurd (noJob id) there

theorem Agrees.inStep (agrees : manager.Agrees) : manager.InStep where
  downloads id := (agrees.views id).downloads
  slots slots := by
    refine le_trans ?_ (agrees.limited slots)
    apply Lib.Registry.census_le_census
    intro id paused found unpaused
    have isUnpaused : paused = false := by simpa using unpaused
    subst isUnpaused
    rcases (agrees.views id).downloads.mp found with ⟨state, isThere, downloading⟩
    exact ⟨state, isThere, isDownloading_iff.mpr downloading⟩
  once := agrees.once

theorem Proceeds.keepsEnded (proceeds : Proceeds manager next) (agrees : manager.Agrees) :
    KeepsEnded manager next := by
  intro id state found closed
  have isClosed : ¬(manager.view id).IsOpen := by
    rintro ⟨other, isOther, isOpen⟩
    cases found.symm.trans isOther
    rw [closed] at isOpen
    cases isOpen
  rcases proceeds.ended id ⟨isClosed, agrees.closed id (by simp [found]) isClosed⟩ with
    ⟨ended, same⟩
  refine ⟨same, fun after isAfter => ?_⟩
  rw [← Bool.not_eq_true]
  exact fun isOpen => ended.closed ⟨after, isAfter, isOpen⟩

theorem view_pauseJob_paused {state : JobState} (found : manager.jobs.lookup id = some state) :
    (pauseJob disk manager id).1.jobs.lookup id = some (userPause state) :=
  (congrArg JobView.state (view_pauseJob_self found)).trans (state_pauseByUser found)

theorem isOpen_resumeJob {state : JobState} (disk : DiskCheck)
    (found : manager.jobs.lookup id = some state) (gateOpen : manager.gate.globallyPaused = false) :
    ∃ after, (resumeJob disk manager id).1.jobs.lookup id = some after ∧
      after.status.isOpen = true ∧ (manager.atLimit = true → after.status = .queued ∧
        (resumeJob disk manager id).1.contexts = manager.contexts) := by
  simp only [resumeJob, gateOpen, found, Bool.false_eq_true, if_false]
  split
  next full =>
    refine ⟨{ state with status := .queued, persistedStatus := some .queued }, ?_, rfl,
      fun _ => ⟨rfl, rfl⟩⟩
    exact (Lib.Registry.lookup_modify _).trans (by simp [found])
  next free =>
    have notFull : ∀ {Result : Prop}, manager.atLimit = true → Result :=
      fun full => absurd full free
    split
    · refine ⟨{ restartState state with status := .downloading }, ?_, rfl, notFull⟩
      exact (Lib.Registry.lookup_modify _).trans (by simp [found])
    · let launch := fun state : JobState =>
        { state with status := .downloading, errorMessage := none, failureCode := none }
      have launching : (manager.modifyJob id launch).jobs.lookup id = some (launch state) :=
        (Lib.Registry.lookup_modify _).trans (by simp [found])
      rw [launchDownload, launching]
      dsimp only
      split
      · exact ⟨launch state, launching, rfl, notFull⟩
      · refine ⟨diskHold (launch state), ?_, rfl, notFull⟩
        rw [QueueManager.modifyJob, Lib.Registry.lookup_modify, if_pos rfl]
        exact congrArg (Option.map diskHold) launching

theorem harms_of_not_fits {operation : Operation} (agrees : manager.Agrees)
    (move : Step manager (operation, disk) next) (unfit : ¬manager.Fits operation) :
    ¬next.InStep ∨ ¬KeepsEnded manager next := by
  cases operation with
  | pauseJob id =>
      cases move
      simp only [Fits, not_forall] at unfit
      rcases unfit with ⟨state, found, closed⟩
      right
      intro keeps
      have isClosed :=
        (keeps id state found (by simpa using closed)).2 _ (view_pauseJob_paused found)
      rw [status_userPause] at isClosed
      cases isClosed
  | resumeJob id =>
      cases move
      simp only [Fits, not_forall] at unfit
      rcases unfit with ⟨gateOpen, state, found, unfit⟩
      rcases isOpen_resumeJob disk found gateOpen with ⟨after, isAfter, isOpen, full⟩
      by_cases closed : state.status.isOpen = false
      · right
        intro keeps
        rw [(keeps id state found closed).2 after isAfter] at isOpen
        cases isOpen
      · simp only [Bool.not_eq_false] at closed
        simp only [closed, true_and, Classical.not_imp, Bool.not_eq_false] at unfit
        rcases unfit with ⟨downloading, isFull⟩
        rcases full isFull with ⟨queued, sameContexts⟩
        left
        intro inStep
        have unpaused := (agrees.views id).downloads.mpr ⟨state, found, downloading⟩
        have unpausedThen : (resumeJob disk manager id).1.contexts.lookup id = some false := by
          rw [sameContexts]
          exact unpaused
        rcases (inStep.downloads id).mp unpausedThen with ⟨other, isOther, isDownloading⟩
        cases isAfter.symm.trans isOther
        rw [queued] at isDownloading
        cases isDownloading
  | addJob | removeJob | setJobPriority | moveJob | sortQueue | setMaxActiveDownloads | pauseAll
  | expireUserHold | resumeAll | enforceDiskGuard | applySchedule | updateServers
  | waitingForProviders | providersAvailable | hopeless | jobFinished | jobAborted | onJobFinished
  | expire | persistJobProgress | restart => exact absurd trivial unfit

theorem step_functional (manager : QueueManager) (event : Operation × DiskCheck)
    (next other : QueueManager) (move : Step manager event next)
    (move' : Step manager event other) :
    next = other :=
  Option.some_inj.mp (move.symm.trans move')

theorem proceeds_of_run {init last : QueueManager} {events : List (Operation × DiskCheck)}
    (agrees : init.Agrees) (run : Run Step init events last)
    (listed : ∀ event ∈ events, event.1.isRestart = false)
    (fits : Run.Always Step init (fun _ manager event => manager.Fits event.1) events) :
    last.Agrees ∧ ∀ first second earlier, events = first ++ second → Run Step init first earlier →
      Proceeds earlier last := by
  have both : Run.Always Step init (fun _ manager event =>
      event.1.isRestart = false ∧ manager.Fits event.1) events := by
    intro before event after middle split reached
    refine ⟨listed event ?_, fits before event after middle split reached⟩
    simp [split]
  apply run.invariant_of_steps (fun events last => last.Agrees ∧ ∀ first second earlier,
    events = first ++ second → Run Step init first earlier → Proceeds earlier last) both
  · refine ⟨agrees, fun first second earlier split reached => ?_⟩
    rcases List.append_eq_nil_iff.mp split.symm with ⟨rfl, rfl⟩
    rw [reached.eq_init]
    exact agrees.proceeds
  · rintro events manager ⟨operation, disk⟩ next reached ⟨inStep, proceeds⟩ ⟨isListed, fit⟩ move
    have stepped := proceeds_step inStep move isListed fit
    refine ⟨stepped.agrees, fun first second earlier split upTo => ?_⟩
    rcases List.eq_nil_or_concat second with rfl | ⟨rest, event, rfl⟩
    · rw [List.append_nil] at split
      subst split
      rw [Run.unique step_functional upTo (reached.snoc move)]
      exact stepped.agrees.proceeds
    · rw [List.concat_eq_append, ← List.append_assoc] at split
      rcases List.append_inj' split rfl with ⟨same, -⟩
      exact (proceeds first rest earlier same upTo).trans stepped

def twoInTurn : List (Operation × DiskCheck) :=
  [(.addJob "first" .normal false 0, roomy), (.addJob "second" .normal false 1, roomy),
    (.pauseJob "first", roomy), (.resumeJob "first", roomy), (.jobFinished "second" none, roomy)]

end QueueManager

end Rustnzb.Web.Queue
