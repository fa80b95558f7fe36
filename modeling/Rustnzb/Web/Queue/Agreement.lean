import Rustnzb.Web.Queue.Views

/-!
# Agreement of statuses, contexts and slots

A job downloads just when its context is registered and not paused, and no more jobs do than there
are slots. Changes of jobs that start nothing keep that, and so does starting queued jobs.
-/

namespace Rustnzb.Web.Queue

open Dispatch (JobId)

namespace JobView

variable (view : JobView)

def IsOpen : Prop := ∃ state, view.state = some state ∧ state.status.isOpen = true

/-- The status and the dispatcher agree on whether the job downloads. -/
structure Agrees : Prop where
  downloads : view.context = some false ↔ view.IsDownloading
  registered : view.context ≠ none → view.IsOpen

end JobView

structure Settles (view next : JobView) : Prop where
  agrees : view.Agrees → next.Agrees
  downloads : next.IsDownloading → view.IsDownloading
  opened : next.IsOpen → view.IsOpen
  context : next.context ≠ none → view.context ≠ none
  present : next.state ≠ none → view.state ≠ none
  closed : ¬next.IsOpen → ¬view.IsOpen ∨ next.state = none ∨ view.context ≠ none

namespace QueueManager

def unpausedContexts (manager : QueueManager) : ℕ := manager.contexts.census fun paused => !paused

def submissionsOf (manager : QueueManager) (id : JobId) : List (JobId × Bool) :=
  manager.submissions.filter fun entry => entry.1 = id

/-- The download of the job is over: post-processing has the job, or it left the queue. -/
structure Ended (manager : QueueManager) (id : JobId) : Prop where
  closed : ¬(manager.view id).IsOpen
  submitted : manager.submissionsOf id ≠ []

structure Agrees (manager : QueueManager) : Prop where
  views : ∀ id, (manager.view id).Agrees
  ordered : ∀ id, manager.jobs.lookup id ≠ none → id ∈ manager.jobOrder
  ending : ∀ id, id ∈ manager.finishing ∨ id ∈ manager.expiring → ¬(manager.view id).IsOpen
  limited : 0 < manager.maxActiveDownloads →
    manager.activeDownloadCount ≤ manager.maxActiveDownloads
  once : ∀ entry ∈ manager.submissions, entry.2 = false
  registered : ∀ id, manager.contexts.lookup id ≠ none → manager.submissionsOf id ≠ []
  closed : ∀ id, manager.jobs.lookup id ≠ none → ¬(manager.view id).IsOpen →
    manager.submissionsOf id ≠ []

/-- The statuses, the dispatcher and the slots agree. -/
structure InStep (manager : QueueManager) : Prop where
  downloads : ∀ id, manager.contexts.lookup id = some false ↔
    ∃ state, manager.jobs.lookup id = some state ∧ state.status = .downloading
  slots : 0 < manager.maxActiveDownloads → manager.unpausedContexts ≤ manager.maxActiveDownloads
  once : ∀ entry ∈ manager.submissions, entry.2 = false

def KeepsEnded (manager next : QueueManager) : Prop :=
  ∀ id state, manager.jobs.lookup id = some state → state.status.isOpen = false →
    next.submissionsOf id = manager.submissionsOf id ∧
      ∀ state, next.jobs.lookup id = some state → state.status.isOpen = false

/-- What a step keeps: the agreement, and the end of the downloads that ended. -/
structure Proceeds (manager next : QueueManager) : Prop where
  agrees : next.Agrees
  ended : ∀ id, manager.Ended id → next.Ended id ∧ next.submissionsOf id = manager.submissionsOf id

end QueueManager

/-! ## Changes of one job -/

theorem JobView.IsDownloading.isOpen {view : JobView} (downloading : view.IsDownloading) :
    view.IsOpen := by
  rcases downloading with ⟨state, found, downloading⟩
  exact ⟨state, found, by rw [downloading]; rfl⟩

namespace Settles

variable {view next : JobView} {state after : JobState}

theorem refl (view : JobView) : Settles view view where
  agrees := id
  downloads := id
  opened := id
  context := id
  present := id
  closed := .inl

theorem trans {middle : JobView} (first : Settles view middle) (second : Settles middle next) :
    Settles view next where
  agrees agrees := second.agrees (first.agrees agrees)
  downloads downloading := first.downloads (second.downloads downloading)
  opened isOpen := first.opened (second.opened isOpen)
  context there := first.context (second.context there)
  present there := first.present (second.present there)
  closed ends := by
    rcases second.closed ends with before | gone | registered
    · rcases first.closed before with earlier | absent | was
      · exact .inl earlier
      · exact .inr (.inl (not_not.mp fun there => second.present there absent))
      · exact .inr (.inr was)
    · exact .inr (.inl gone)
    · exact .inr (.inr (first.context registered))

theorem of_open (found : view.state = some state) (isNext : next.state = some after)
    (isOpen : state.status.isOpen = true) (stays : after.status.isOpen = true)
    (downloads : view.Agrees → (next.context = some false ↔ after.status = .downloading))
    (frees : after.status = .downloading → state.status = .downloading)
    (context : next.context ≠ none → view.context ≠ none) : Settles view next where
  agrees agrees := by
    constructor
    · rw [downloads agrees]
      simp [JobView.IsDownloading, isNext]
    · exact fun _ => ⟨after, isNext, stays⟩
  downloads := by
    rintro ⟨other, isOther, downloading⟩
    rw [isNext] at isOther
    cases isOther
    exact ⟨state, found, frees downloading⟩
  opened _ := ⟨state, found, isOpen⟩
  context := context
  present _ := by simp [found]
  closed ends := absurd ⟨after, isNext, stays⟩ ends

theorem of_same (sameContext : next.context = view.context)
    (sameStatus : next.state.map JobState.status = view.state.map JobState.status) :
    Settles view next := by
  have isDownloading : next.IsDownloading ↔ view.IsDownloading := by
    have spec : ∀ view : JobView,
        view.IsDownloading ↔ view.state.map JobState.status = some .downloading := by
      simp [JobView.IsDownloading]
    rw [spec, spec, sameStatus]
  have isOpen : next.IsOpen ↔ view.IsOpen := by
    have spec : ∀ view : JobView,
        view.IsOpen ↔ (view.state.map JobState.status).any JobStatus.isOpen = true := by
      simp [JobView.IsOpen, Option.any_eq_true]
    rw [spec, spec, sameStatus]
  have isThere : next.state = none ↔ view.state = none := by
    rw [← Option.map_eq_none_iff, sameStatus, Option.map_eq_none_iff]
  constructor
  case agrees =>
    rintro ⟨downloads, registered⟩
    constructor
    · rw [sameContext, downloads, isDownloading]
    · rwa [sameContext, isOpen]
  case downloads => exact isDownloading.mp
  case opened => exact isOpen.mp
  case context => exact fun there => sameContext ▸ there
  case present => exact fun there absent => there (isThere.mpr absent)
  case closed => exact fun closed => .inl fun opened => closed (isOpen.mpr opened)

theorem of_closed (context : next.context = none) (closed : ¬next.IsOpen)
    (present : next.state ≠ none → view.state ≠ none)
    (was : ¬view.IsOpen ∨ next.state = none ∨ view.context ≠ none) : Settles view next where
  agrees _ := by
    constructor
    · constructor
      · simp [context]
      · exact fun downloading => absurd downloading.isOpen closed
    · exact fun there => absurd context there
  downloads downloading := absurd downloading.isOpen closed
  opened isOpen := absurd isOpen closed
  context there := absurd context there
  present := present
  closed _ := was

theorem mapState_of_waiting (change : JobState → JobState)
    (waits : ∀ state, view.state = some state →
      change state = state ∨ state.status.isOpen = true ∧ state.status ≠ .downloading ∧
        (change state).status.isOpen = true ∧ (change state).status ≠ .downloading) :
    Settles view (view.mapState change) := by
  rcases found : view.state with _ | state
  · refine of_same rfl ?_
    simp [JobView.mapState, found]
  · rcases waits state found with same | ⟨isOpen, waited, stays, waiting⟩
    · refine of_same rfl ?_
      simp [JobView.mapState, found, same]
    · apply of_open found (by simp [JobView.mapState, found]) isOpen stays
      · intro agrees
        simp only [JobView.mapState, agrees.downloads, waiting, iff_false]
        rintro ⟨other, isOther, downloading⟩
        rw [found] at isOther
        cases isOther
        exact waited downloading
      · exact fun downloading => absurd downloading waiting
      · exact id

theorem of_paused (found : view.state = some state) (isNext : next.state = some after)
    (context : next.context = view.context.map fun _ => true)
    (isOpen : state.status.isOpen = true) (stays : after.status.isOpen = true)
    (waits : after.status ≠ .downloading) : Settles view next := by
  apply of_open found isNext isOpen stays
  · intro _
    simp [context, waits]
  · exact fun downloading => absurd downloading waits
  · intro there absent
    simp [context, absent] at there

theorem requeue (downloading : view.IsDownloading) : Settles view view.requeue := by
  rcases downloading with ⟨state, found, downloading⟩
  apply of_paused found (by simp [JobView.requeue, JobView.mapStatus, JobView.mapState,
    JobView.mapContext, found]; rfl) rfl
  · rw [downloading]
    rfl
  · rfl
  · simp

theorem preempt (downloading : view.IsDownloading) : Settles view view.preempt := by
  rcases downloading with ⟨state, found, downloading⟩
  apply of_paused found (by simp [JobView.preempt, JobView.mapStatus, JobView.mapState,
    JobView.mapContext, found]; rfl) rfl
  · rw [downloading]
    rfl
  · rfl
  · simp

theorem holdAll (view : JobView) : Settles view view.holdAll := by
  rcases found : view.state with _ | state
  · rw [JobView.holdAll, found]
    exact refl view
  · rcases active : state.isActive with _ | _
    · simp only [JobView.holdAll, found, active]
      exact refl view
    · have isOpen : state.status.isOpen = true := by
        simp only [JobState.isActive, JobState.isDownloading, JobState.isQueued, Bool.or_eq_true,
          decide_eq_true_eq] at active
        rcases active with downloading | queued
        · rw [downloading]
          rfl
        · rw [queued]
          rfl
      have isNext : view.holdAll.state = some { state with status := .paused } := by
        simp [JobView.holdAll, found, active]
      apply of_paused found isNext _ isOpen
      · rfl
      · simp
      · simp [JobView.holdAll, found, active]

theorem releaseHold (view : JobView) : Settles view view.releaseHold := by
  have changed : Settles view (view.mapState fun state =>
      if view.held ∧ state.status = .paused then QueueManager.unpause state else state) := by
    apply mapState_of_waiting
    intro state _
    split
    next put => simp [QueueManager.unpause, put.2, JobStatus.isOpen]
    · exact .inl rfl
  exact changed.trans (of_same rfl rfl)

theorem resumeIf (view : JobView) (test : JobState → Bool) : Settles view (view.resumeIf test) := by
  apply mapState_of_waiting
  intro state _
  split
  next put =>
    simp only [Bool.and_eq_true, decide_eq_true_eq] at put
    simp [QueueManager.unpause, put.1, JobStatus.isOpen]
  · exact .inl rfl

end Settles

theorem Started.agrees {isOpen diskOk : Bool} {view next : JobView}
    (started : Started isOpen diskOk view next) (agrees : view.Agrees) :
    next.Agrees ∧ (next.IsOpen ↔ view.IsOpen) ∧ (next.state = none ↔ view.state = none) := by
  cases started with
  | idle => exact ⟨agrees, Iff.rfl, Iff.rfl⟩
  | resumed _ found queued | submitted _ found queued =>
      simp [JobView.IsOpen, found, queued, QueueManager.restartState, JobStatus.isOpen]
      constructor <;> simp [JobView.IsDownloading, JobView.IsOpen, JobStatus.isOpen]
  | heldBack _ found queued absent =>
      simp [JobView.IsOpen, found, queued, QueueManager.diskHold, JobStatus.isOpen]
      constructor <;> simp [JobView.IsDownloading, absent]

namespace QueueManager

variable {disk : DiskCheck} {manager base next : QueueManager} {id other : JobId}

theorem Proceeds.trans {middle : QueueManager} (first : Proceeds manager middle)
    (second : Proceeds middle next) : Proceeds manager next where
  agrees := second.agrees
  ended id ended := by
    rcases first.ended id ended with ⟨still, same⟩
    rcases second.ended id still with ⟨final, sameThen⟩
    exact ⟨final, sameThen.trans same⟩

theorem Agrees.proceeds (agrees : manager.Agrees) : Proceeds manager manager where
  agrees := agrees
  ended _ ended := ⟨ended, rfl⟩

variable {state : JobState}

theorem isDownloading_iff : state.isDownloading = true ↔ state.status = .downloading := by
  simp [JobState.isDownloading]

theorem activeDownloadCount_le
    (downloads : ∀ id, (base.view id).IsDownloading → (manager.view id).IsDownloading) :
    base.activeDownloadCount ≤ manager.activeDownloadCount := by
  apply Lib.Registry.census_le_census
  intro id state found downloading
  rcases downloads id ⟨state, found, isDownloading_iff.mp downloading⟩ with ⟨was, isWas, download⟩
  exact ⟨was, isWas, isDownloading_iff.mpr download⟩

theorem Agrees.changeLimit (agrees : manager.Agrees)
    (views : ∀ id, Settles (manager.view id) (base.view id))
    (limited : 0 < base.maxActiveDownloads → base.activeDownloadCount ≤ base.maxActiveDownloads)
    (sameSubmissions : base.submissions = manager.submissions)
    (order : ∀ id ∈ manager.jobOrder, base.jobs.lookup id ≠ none → id ∈ base.jobOrder)
    (ending : ∀ id, id ∈ base.finishing ∨ id ∈ base.expiring →
      id ∈ manager.finishing ∨ id ∈ manager.expiring ∨ ¬(base.view id).IsOpen) :
    Proceeds manager base := by
  have sameOf : ∀ id, base.submissionsOf id = manager.submissionsOf id := by
    intro id
    rw [submissionsOf, sameSubmissions, submissionsOf]
  refine ⟨?_, fun id ended =>
    ⟨⟨fun isOpen => ended.closed ((views id).opened isOpen), ?_⟩, sameOf id⟩⟩
  · constructor
    case views => exact fun id => (views id).agrees (agrees.views id)
    case ordered =>
      intro id there
      exact order id (agrees.ordered id ((views id).present there)) there
    case ending =>
      intro id ends isOpen
      have wasOpen := (views id).opened isOpen
      rcases ending id ends with finishing | expiring | closed
      · exact agrees.ending id (.inl finishing) wasOpen
      · exact agrees.ending id (.inr expiring) wasOpen
      · exact closed isOpen
    case limited => exact limited
    case once =>
      rw [sameSubmissions]
      exact agrees.once
    case registered =>
      intro id there
      rw [sameOf]
      exact agrees.registered id ((views id).context there)
    case closed =>
      intro id there closed
      rw [sameOf]
      rcases (views id).closed closed with before | gone | registered
      · exact agrees.closed id ((views id).present there) before
      · exact absurd gone there
      · exact agrees.registered id registered
  · rw [sameOf]
    exact ended.submitted

theorem Agrees.change (agrees : manager.Agrees)
    (views : ∀ id, Settles (manager.view id) (base.view id))
    (sameMax : base.maxActiveDownloads = manager.maxActiveDownloads)
    (sameSubmissions : base.submissions = manager.submissions)
    (order : ∀ id ∈ manager.jobOrder, base.jobs.lookup id ≠ none → id ∈ base.jobOrder)
    (ending : ∀ id, id ∈ base.finishing ∨ id ∈ base.expiring →
      id ∈ manager.finishing ∨ id ∈ manager.expiring ∨ ¬(base.view id).IsOpen) :
    Proceeds manager base := by
  apply agrees.changeLimit views _ sameSubmissions order ending
  rw [sameMax]
  intro slots
  exact (activeDownloadCount_le fun id => (views id).downloads).trans (agrees.limited slots)

theorem frame_of_shell (frame : next.shell = manager.shell) :
    next.jobOrder = manager.jobOrder ∧ next.maxActiveDownloads = manager.maxActiveDownloads ∧
      next.finishing = manager.finishing ∧ next.expiring = manager.expiring := by
  have order := congrArg jobOrder frame
  have max := congrArg maxActiveDownloads frame
  have tasks := congrArg finishing frame
  have views := congrArg expiring frame
  exact ⟨order, max, tasks, views⟩

theorem Agrees.changeJobs (agrees : manager.Agrees)
    (views : ∀ id, Settles (manager.view id) (base.view id))
    (frame : base.jobOrder = manager.jobOrder ∧
      base.maxActiveDownloads = manager.maxActiveDownloads ∧
        base.finishing = manager.finishing ∧ base.expiring = manager.expiring)
    (sameSubmissions : base.submissions = manager.submissions) : Proceeds manager base := by
  rcases frame with ⟨sameOrder, sameMax, sameFinishing, sameExpiring⟩
  apply agrees.change views sameMax sameSubmissions
  · intro id mem _
    rwa [sameOrder]
  · intro id ends
    rw [sameFinishing, sameExpiring] at ends
    exact ends.imp_right .inl

theorem Agrees.changeJob (agrees : manager.Agrees) (id : JobId)
    (own : Settles (manager.view id) (base.view id))
    (others : ∀ other, other ≠ id → base.jobs.lookup other = manager.jobs.lookup other ∧
      base.contexts.lookup other = manager.contexts.lookup other)
    (frame : base.jobOrder = manager.jobOrder ∧
      base.maxActiveDownloads = manager.maxActiveDownloads ∧
        base.finishing = manager.finishing ∧ base.expiring = manager.expiring)
    (sameSubmissions : base.submissions = manager.submissions) : Proceeds manager base := by
  apply agrees.changeJobs _ frame sameSubmissions
  intro other
  by_cases same : other = id
  · rwa [same]
  · rcases others other same with ⟨sameState, sameContext⟩
    exact .of_same sameContext (congrArg (Option.map JobState.status) sameState)

theorem Agrees.modifyJob (agrees : manager.Agrees) (change : JobState → JobState)
    (sameStatus : ∀ state, (change state).status = state.status)
    (states : base.jobs = (manager.modifyJob id change).jobs)
    (contexts : base.contexts = manager.contexts) (frame : base.jobOrder = manager.jobOrder ∧
      base.maxActiveDownloads = manager.maxActiveDownloads ∧
        base.finishing = manager.finishing ∧ base.expiring = manager.expiring)
    (sameSubmissions : base.submissions = manager.submissions) : Proceeds manager base := by
  have lookup : ∀ other, base.jobs.lookup other =
      if other = id then (manager.jobs.lookup other).map change else manager.jobs.lookup other := by
    intro other
    rw [states]
    exact Lib.Registry.lookup_modify change
  apply agrees.changeJob id _ _ frame sameSubmissions
  · apply Settles.of_same
    · rw [view, contexts]
      rfl
    · simp [view, lookup, Function.comp_def, sameStatus]
  · intro other differs
    rw [lookup, if_neg differs, contexts]
    exact ⟨rfl, rfl⟩

theorem Agrees.add (agrees : manager.Agrees) (fresh : manager.knows id = false)
    (added : base.jobs.lookup id = some state) (isOpen : state.status.isOpen = true)
    (waits : state.status ≠ .downloading)
    (others : ∀ other, other ≠ id → base.jobs.lookup other = manager.jobs.lookup other)
    (sameContexts : base.contexts = manager.contexts)
    (order : base.jobOrder = manager.jobOrder ++ [id])
    (sameMax : base.maxActiveDownloads = manager.maxActiveDownloads)
    (sameFinishing : base.finishing = manager.finishing)
    (sameExpiring : base.expiring = manager.expiring)
    (sameSubmissions : base.submissions = manager.submissions) : Proceeds manager base := by
  simp only [knows, Bool.or_eq_false_iff, Option.isSome_eq_false_iff, Option.isNone_iff_eq_none,
    List.contains_eq_mem, decide_eq_false_iff_not] at fresh
  rcases fresh with ⟨⟨⟨⟨⟨⟨⟨⟨-, -⟩, context⟩, -⟩, finishing⟩, expiring⟩, -⟩, -⟩, submitted⟩
  have sameOf : ∀ other, base.submissionsOf other = manager.submissionsOf other := by
    intro other
    rw [submissionsOf, sameSubmissions, submissionsOf]
  have ownOpen : (base.view id).IsOpen := ⟨state, added, isOpen⟩
  have waits : ¬(base.view id).IsDownloading := by
    intro downloading
    rcases downloading with ⟨other, isOther, downloading⟩
    have same : some state = some other := added.symm.trans isOther
    cases same
    exact waits downloading
  have ownAgrees : (base.view id).Agrees := by
    have absent : (base.view id).context = none := by
      rw [view, sameContexts]
      exact context
    constructor
    · apply iff_of_false _ waits
      simp [absent]
    · exact fun there => absurd absent there
  have unsubmitted : manager.submissionsOf id = [] := by
    simpa [submissionsOf] using submitted
  have settles : ∀ other, other ≠ id → Settles (manager.view other) (base.view other) := by
    intro other differs
    exact .of_same (congrArg (AList.lookup other) sameContexts)
      (congrArg (Option.map JobState.status) (others other differs))
  constructor
  case agrees =>
    constructor
    case views =>
      intro other
      by_cases same : other = id
      · rwa [same]
      · exact (settles other same).agrees (agrees.views other)
    case ordered =>
      intro other there
      rw [order, List.mem_append, List.mem_singleton]
      by_cases same : other = id
      · exact .inr same
      · rw [others other same] at there
        exact .inl (agrees.ordered other there)
    case ending =>
      intro other ends opened
      rw [sameFinishing, sameExpiring] at ends
      by_cases same : other = id
      · subst same
        exact ends.elim finishing expiring
      · exact agrees.ending other ends ((settles other same).opened opened)
    case limited =>
      have within : base.activeDownloadCount ≤ manager.activeDownloadCount := by
        apply activeDownloadCount_le
        intro other downloading
        by_cases same : other = id
        · subst same
          exact absurd downloading waits
        · exact (settles other same).downloads downloading
      rw [sameMax]
      exact fun slots => within.trans (agrees.limited slots)
    case once =>
      rw [sameSubmissions]
      exact agrees.once
    case registered =>
      intro other there
      rw [sameContexts] at there
      rw [sameOf]
      exact agrees.registered other there
    case closed =>
      intro other there closed
      rw [sameOf]
      by_cases same : other = id
      · subst same
        exact absurd ownOpen closed
      · rcases (settles other same).closed closed with before | gone | registered
        · exact agrees.closed other ((settles other same).present there) before
        · exact absurd gone there
        · exact agrees.registered other registered
  case ended =>
    intro other ended
    have differs : other ≠ id := by
      rintro rfl
      exact ended.submitted unsubmitted
    refine ⟨⟨fun opened => ended.closed ((settles other differs).opened opened), ?_⟩, sameOf other⟩
    rw [sameOf]
    exact ended.submitted

/-! ## Starting queued jobs -/

theorem submissionsOf_append
    (appended : next.submissions = manager.submissions ++ [(other, false)]) :
    next.submissionsOf id =
      manager.submissionsOf id ++ if other = id then [(other, false)] else [] := by
  rw [submissionsOf, appended, List.filter_append, submissionsOf]
  by_cases same : other = id
  · simp [same]
  · simp [same]

theorem submissions_launchDownload (disk : DiskCheck) (absent : manager.contexts.lookup id = none) :
    (launchDownload disk manager id).submissions = manager.submissions ∧
        (launchDownload disk manager id).contexts = manager.contexts ∨
      (launchDownload disk manager id).submissions = manager.submissions ++ [(id, false)] := by
  rw [launchDownload]
  split
  · exact .inl ⟨rfl, rfl⟩
  · split
    · exact .inr (by simp [submitJob, hasContext, absent])
    · exact .inl ⟨rfl, rfl⟩

theorem submissions_startClaimed :
    (startClaimed disk manager id).submissions = manager.submissions ∧
        ((startClaimed disk manager id).contexts.lookup id ≠ none →
          manager.contexts.lookup id ≠ none) ∨
      (startClaimed disk manager id).submissions = manager.submissions ++ [(id, false)] := by
  rw [startClaimed]
  split
  next alive =>
    left
    constructor
    · rfl
    · intro _ absent
      simp [hasContext, absent] at alive
  next absent =>
    have absent : manager.contexts.lookup id = none := by simpa [hasContext] using absent
    rcases submissions_launchDownload disk absent with ⟨same, sameContexts⟩ | appended
    · rw [sameContexts]
      exact .inl ⟨same, fun there => there⟩
    · exact .inr appended

theorem count_le_of_one (found : manager.jobs.lookup id = some state)
    (others : ∀ other, other ≠ id → base.view other = manager.view other) :
    base.activeDownloadCount ≤ manager.activeDownloadCount + 1 := by
  let claimed := manager.modifyJob id fun state => { state with status := .downloading }
  have counted : claimed.activeDownloadCount + state.isDownloading.toNat =
      manager.activeDownloadCount + 1 :=
    Lib.Registry.census_modify JobState.isDownloading
      (fun state : JobState => { state with status := .downloading }) found
  have within : base.activeDownloadCount ≤ claimed.activeDownloadCount := by
    apply activeDownloadCount_le
    intro other downloading
    rw [view_modifyJob]
    split
    next same =>
      subst same
      exact ⟨{ state with status := .downloading }, by simp [JobView.mapState, view, found], rfl⟩
    next differs => rwa [← others other differs]
  omega

theorem Agrees.start (agrees : manager.Agrees) (found : manager.jobs.lookup id = some state)
    (isOpen : state.status.isOpen = true) (free : manager.atLimit = false)
    (own : (next.view id).Agrees) (stays : (next.view id).IsOpen)
    (others : ∀ other, other ≠ id → next.view other = manager.view other)
    (frame : next.shell = manager.shell) (submitted : next.submissions = manager.submissions ∧
        (next.contexts.lookup id ≠ none → manager.contexts.lookup id ≠ none) ∨
      next.submissions = manager.submissions ++ [(id, false)]) : Proceeds manager next := by
  have wasOpen : (manager.view id).IsOpen := ⟨state, found, isOpen⟩
  have views : ∀ other, (next.view other).Agrees ∧
      ((next.view other).IsOpen ↔ (manager.view other).IsOpen) ∧
        (next.jobs.lookup other ≠ none → manager.jobs.lookup other ≠ none) := by
    intro other
    by_cases same : other = id
    · subst same
      exact ⟨own, iff_of_true stays wasOpen, fun _ => by simp [found]⟩
    · have sameState : next.jobs.lookup other = manager.jobs.lookup other :=
        congrArg JobView.state (others other same)
      rw [others other same, sameState]
      exact ⟨agrees.views other, Iff.rfl, fun there => there⟩
  have kept : ∀ other, manager.submissionsOf other ≠ [] → next.submissionsOf other ≠ [] := by
    intro other some
    rcases submitted with ⟨same, -⟩ | appended
    · rwa [submissionsOf, same]
    · rw [submissionsOf_append appended]
      simp [some]
  rcases frame_of_shell frame with ⟨sameOrder, sameMax, sameFinishing, sameExpiring⟩
  refine ⟨?_, ?_⟩
  · constructor
    case views => exact fun other => (views other).1
    case ordered =>
      intro other there
      rw [sameOrder]
      exact agrees.ordered other ((views other).2.2 there)
    case ending =>
      intro other ends opened
      rw [sameFinishing, sameExpiring] at ends
      exact agrees.ending other ends ((views other).2.1.mp opened)
    case limited =>
      have within := count_le_of_one found others
      rw [sameMax]
      intro slots
      simp only [atLimit, slots, decide_true, Bool.true_and, decide_eq_false_iff_not,
        not_le] at free
      omega
    case once =>
      rcases submitted with ⟨same, -⟩ | appended
      · rw [same]
        exact agrees.once
      · rw [appended]
        intro entry mem
        rcases List.mem_append.mp mem with before | last
        · exact agrees.once entry before
        · rw [List.mem_singleton.mp last]
    case registered =>
      intro other there
      by_cases same : other = id
      · subst same
        rcases submitted with ⟨same, registered⟩ | appended
        · exact kept other (agrees.registered other (registered there))
        · rw [submissionsOf_append appended]
          simp
      · have sameContext : next.contexts.lookup other = manager.contexts.lookup other :=
          congrArg JobView.context (others other same)
        rw [sameContext] at there
        exact kept other (agrees.registered other there)
    case closed =>
      intro other there closed
      exact kept other (agrees.closed other ((views other).2.2 there) fun opened =>
        closed ((views other).2.1.mpr opened))
  · intro other ended
    have differs : id ≠ other := by
      rintro rfl
      exact ended.closed wasOpen
    refine ⟨⟨fun opened => ended.closed ((views other).2.1.mp opened), kept other ended.submitted⟩,
      ?_⟩
    rcases submitted with ⟨same, -⟩ | appended
    · rw [submissionsOf, same, submissionsOf]
    · rw [submissionsOf_append appended, if_neg differs, List.append_nil]

theorem proceeds_startClaimed (disk : DiskCheck) (agrees : manager.Agrees)
    (free : manager.atLimit = false) (found : manager.jobs.lookup id = some state)
    (queued : state.status = .queued) :
    Proceeds manager (startClaimed disk (manager.modifyJob id fun state =>
      { state with status := .downloading }) id) := by
  rcases view_startClaimed disk found queued with ⟨own, -, others⟩
  have isOpen : state.status.isOpen = true := by
    rw [queued]
    rfl
  rcases own.agrees (agrees.views id) with ⟨ownAgrees, sameOpen, -⟩
  exact agrees.start found isOpen free ownAgrees (sameOpen.mpr ⟨state, found, isOpen⟩) others
    shell_startClaimed submissions_startClaimed

theorem proceeds_startNextQueued (agrees : manager.Agrees) :
    Proceeds manager (startNextQueued disk manager) := by
  rw [startNextQueued]
  generalize manager.jobs.census JobState.isQueued = rounds
  induction rounds generalizing manager with
  | zero => exact agrees.proceeds
  | succ rounds ih =>
      rw [startQueued]
      split
      · exact agrees.proceeds
      next claimed claim =>
        rcases claim_spec claim with ⟨-, free, ⟨state, found, queued⟩, rfl⟩
        have started := proceeds_startClaimed disk agrees free found queued
        exact started.trans (ih started.agrees)

end QueueManager

end Rustnzb.Web.Queue
