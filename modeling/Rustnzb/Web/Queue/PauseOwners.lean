import Rustnzb.Web.Queue.Owners
import Rustnzb.Web.Queue.UserPause

/-!
# Who lifts a pause

A paused job is lifted by whoever paused it: the user, the end of the holds on the queue, the disk
guard, a server list. A job that `move_job` preempted has none of these; it is resumed by hand. A
restart forgets the failure code, which is the disk guard's, and takes the row's word for a pause.
-/

namespace Rustnzb.Web.Queue

open Dispatch (JobId)
open Lib (Run)

namespace QueueManager

variable {disk : DiskCheck} {manager next : QueueManager} {id : JobId} {known : JobId → Prop}

/-! ## What lifts a pause -/

def PutBack (manager : QueueManager) (disk : DiskCheck) (id : JobId) : Prop :=
  ∃ state, manager.jobs.lookup id = some state ∧ (state.status = .paused → disk id = false)

/-- No queued job has a higher priority, or the same and a place before. -/
def FirstInLine (manager : QueueManager) (id : JobId) (state : JobState) : Prop :=
  ∃ before after, manager.jobOrder = before ++ id :: after ∧
    (∀ other ∈ before, ∀ rival, manager.jobs.lookup other = some rival → rival.status = .queued →
      rival.priority.toNat < state.priority.toNat) ∧
    ∀ other ∈ after, ∀ rival, manager.jobs.lookup other = some rival → rival.status = .queued →
      rival.priority.toNat ≤ state.priority.toNat

structure Lifting (manager : QueueManager) : Prop where
  hold : ∀ disk id state, manager.jobs.lookup id = some state → state.status = .paused →
    id ∈ manager.globallyPausedJobs → ∀ change : HoldGate → HoldGate × JobsRequest,
      (change manager.gate).2 = .resume → (changeHolds disk manager change).PutBack disk id
  disk : ∀ disk id state, manager.jobs.lookup id = some state → state.status = .paused →
    state.failureCode = some .storageUnavailable → manager.gate.holds.any = false → ∀ now,
      (enforceDiskGuard disk manager false now).PutBack disk id
  server : ∀ disk id state, manager.jobs.lookup id = some state → state.status = .paused →
    state.errorMessage.isSome = true → manager.gate.holds.any = false → ∀ servers,
      { manager with configuredServers := servers }.enabledServers ≠ [] →
        (updateServers disk manager servers).PutBack disk id
  requeued : ∀ id state, manager.jobs.lookup id = some state → state.status = .downloading →
    ∃ after, manager.requeueOverLimit.jobs.lookup id = some after ∧
      (after.status = .queued ∨ after.status = .downloading)
  next : ∀ disk id state, manager.jobs.lookup id = some state → state.status = .queued →
    manager.gate.holds.any = false → manager.atLimit = false → manager.FirstInLine id state →
      ∃ after, (startNextQueued disk manager).jobs.lookup id = some after ∧
        (after.status = .downloading ∧
            (startNextQueued disk manager).contexts.lookup id = some false ∨
          after.status = .paused ∧ after.failureCode = some .storageUnavailable ∧ disk id = false)

theorem putBack_of_started {isOpen : Bool} {view : JobView}
    (started : Started isOpen (disk id) view (next.view id)) {state : JobState}
    (found : view.state = some state) (notPaused : state.status ≠ .paused) :
    next.PutBack disk id := by
  generalize isNext : next.view id = after at started
  have lookup : next.jobs.lookup id = after.state := congrArg JobView.state isNext
  rw [PutBack, lookup]
  cases started with
  | idle => exact ⟨state, found, fun paused => absurd paused notPaused⟩
  | resumed | submitted => exact ⟨_, rfl, fun paused => by cases paused⟩
  | heldBack _ _ _ _ low => exact ⟨_, rfl, fun _ => low⟩

theorem putBack_changeHolds {state : JobState} (found : manager.jobs.lookup id = some state)
    (paused : state.status = .paused) (mem : id ∈ manager.globallyPausedJobs)
    {change : HoldGate → HoldGate × JobsRequest} (asked : (change manager.gate).2 = .resume) :
    (changeHolds disk manager change).PutBack disk id := by
  have started := view_changeHolds disk manager id change
  rw [asked] at started
  apply putBack_of_started started
  · have released : (manager.view id).releaseHold.state =
        some
          (if (manager.view id).held ∧ state.status = .paused then unpause state else state) := by
      simp [JobView.releaseHold, view, found]
    exact released
  · rw [if_pos ⟨decide_eq_true mem, paused⟩]
    simp [unpause]

theorem putBack_resumePaused {state : JobState} {test : JobState → Bool}
    (found : manager.jobs.lookup id = some state) (paused : state.status = .paused)
    (meets : test state = true) (isOpen : manager.gate.globallyPaused = false) :
    (resumePaused disk manager test).PutBack disk id := by
  have some : manager.jobs.census (fun state => state.status = .paused && test state) ≠ 0 := by
    have entry : (⟨id, state⟩ : Sigma fun _ : JobId => JobState) ∈ manager.jobs.entries :=
      AList.mem_lookup_iff.mp found
    apply Nat.ne_of_gt
    exact List.countP_pos_iff.mpr ⟨_, entry, by simp [paused, meets]⟩
  have started := view_startNextQueued disk { manager with
    jobs := manager.jobs.mapValues fun _ (state : JobState) =>
      if state.status = .paused && test state then unpause state else state } id
  rw [resumePaused, isOpen, if_neg Bool.false_ne_true, if_neg some]
  apply putBack_of_started started
  · have resumed : (manager.jobs.mapValues fun _ (state : JobState) =>
        if state.status = .paused && test state then unpause state else state).lookup id =
          Option.some (unpause state) := by
      simp [Lib.Registry.lookup_mapValues, found, paused, meets]
    exact resumed
  · simp [unpause]

theorem bestQueued_of_first {state : JobState} (found : manager.jobs.lookup id = some state)
    (queued : state.status = .queued) (first : manager.FirstInLine id state) :
    manager.bestQueued = some (id, state.priority.toNat) := by
  rcases first with ⟨before, after, split, above, below⟩
  rw [bestQueued, split, List.foldl_append, List.foldl_cons]
  generalize isChosen : List.foldl _ none before = chosen
  have lower : ∀ best, chosen = some best → best.2 < state.priority.toNat := by
    subst isChosen
    refine List.foldlRecOn (motive := fun chosen : Option (JobId × ℕ) =>
      ∀ best, chosen = some best → best.2 < state.priority.toNat) _ _ ?_ ?_
    · simp
    · intro best known other mem next isNext
      split at isNext
      · exact known next isNext
      next rival isRival =>
        split at isNext
        next isQueued =>
          have outranked :=
            above other mem rival isRival (by simpa [JobState.isQueued] using isQueued)
          split at isNext
          · cases isNext
            exact outranked
          · split at isNext
            · cases isNext
              exact outranked
            · exact known next isNext
        · exact known next isNext
  refine List.foldlRecOn (motive := fun chosen : Option (JobId × ℕ) =>
    chosen = some (id, state.priority.toNat)) _ _ ?_ ?_
  · simp only [found, JobState.isQueued, queued, decide_true, if_true]
    rcases chosen with _ | ⟨best, priority⟩
    · rfl
    · exact if_pos (lower _ rfl)
  · intro best isBest other mem
    subst isBest
    split
    · rfl
    next rival isRival =>
      split
      next isQueued =>
        have outranked :=
          below other mem rival isRival (by simpa [JobState.isQueued] using isQueued)
        exact if_neg (by omega)
      · rfl

theorem started_of_first {state : JobState} (found : manager.jobs.lookup id = some state)
    (queued : state.status = .queued) (isOpen : manager.gate.globallyPaused = false)
    (free : manager.atLimit = false) (first : manager.FirstInLine id state) :
    ∃ after, (startNextQueued disk manager).jobs.lookup id = some after ∧
      (after.status = .downloading ∧
          (startNextQueued disk manager).contexts.lookup id = some false ∨
        after.status = .paused ∧ after.failureCode = some .storageUnavailable ∧
          disk id = false) := by
  have positive : manager.jobs.census JobState.isQueued ≠ 0 := by
    have entry : (⟨id, state⟩ : Sigma fun _ : JobId => JobState) ∈ manager.jobs.entries :=
      AList.mem_lookup_iff.mp found
    apply Nat.ne_of_gt
    exact List.countP_pos_iff.mpr ⟨_, entry, by simp [JobState.isQueued, queued]⟩
  rcases Nat.exists_eq_succ_of_ne_zero positive with ⟨rounds, isRounds⟩
  let claimed := manager.modifyJob id fun state => { state with status := .downloading }
  have claim : manager.claimNextDownloadSlot = some (id, claimed) := by
    simp [claimNextDownloadSlot, isOpen, free, bestQueued_of_first found queued first, claimed]
  have same :
      startNextQueued disk manager = startQueued disk rounds (startClaimed disk claimed id) := by
    rw [startNextQueued, isRounds, startQueued, claim]
  rcases view_startClaimed disk found queued with ⟨own, ⟨after, isAfter, started⟩, -⟩
  have stays : (startNextQueued disk manager).view id = (startClaimed disk claimed id).view id := by
    rw [same]
    apply (view_startQueued disk _ id rounds).of_not_queued
    intro other isOther
    cases isAfter.symm.trans isOther
    exact started
  have lookup : (startNextQueued disk manager).jobs.lookup id = some after :=
    (congrArg JobView.state stays).trans isAfter
  have context : (startNextQueued disk manager).contexts.lookup id =
      ((startClaimed disk claimed id).view id).context := congrArg JobView.context stays
  refine ⟨after, lookup, ?_⟩
  rw [context]
  generalize (startClaimed disk claimed id).view id = final at own isAfter
  cases own with
  | idle =>
      have same : some state = some after := found.symm.trans isAfter
      cases same
      exact absurd queued started
  | resumed | submitted =>
      cases isAfter
      exact .inl ⟨rfl, rfl⟩
  | heldBack _ _ _ _ low =>
      cases isAfter
      exact .inr ⟨rfl, rfl, low⟩

theorem requeued_of_downloading {state : JobState} (found : manager.jobs.lookup id = some state)
    (downloading : state.status = .downloading) :
    ∃ after, manager.requeueOverLimit.jobs.lookup id = some after ∧
      (after.status = .queued ∨ after.status = .downloading) := by
  rw [requeueOverLimit]
  split
  · exact ⟨state, found, .inr downloading⟩
  · rcases view_requeueRounds manager id manager.activeDownloadCount with same | ⟨-, requeued⟩
    · exact ⟨state, (congrArg JobView.state same).trans found, .inr downloading⟩
    · refine ⟨{ state with status := .queued, persistedStatus := some .queued }, ?_, .inl rfl⟩
      apply (congrArg JobView.state requeued).trans
      simp [JobView.requeue, JobView.mapStatus, JobView.mapState, JobView.mapContext, view, found]

theorem Kept.lifting (kept : manager.Kept known) : manager.Lifting where
  hold _ _ _ found paused mem _ asked := putBack_changeHolds found paused mem asked
  disk disk id state found paused code noHold now := by
    have isOpen : manager.gate.globallyPaused = false := by
      rw [kept.books.gate.saved.shown, noHold]
    have noDisk : manager.gate.holds.disk.isSome = false := by
      simp only [PauseHolds.any, Bool.or_eq_false_iff] at noHold
      exact noHold.1.2
    simp only [enforceDiskGuard, noDisk, Bool.false_eq_true, if_false]
    exact putBack_resumePaused found paused (by simp [code]) isOpen
  server disk id state found paused message noHold servers enabled := by
    have isOpen : manager.gate.globallyPaused = false := by
      rw [kept.books.gate.saved.shown, noHold]
    have putBack : (resumeServerPausedJobs disk
        { manager with configuredServers := servers }).PutBack disk id :=
      putBack_resumePaused found paused message isOpen
    rwa [updateServers, QueueManager.applyServerOverlay, if_neg (by simpa using enabled)]
  requeued _ _ found downloading := requeued_of_downloading found downloading
  next disk id state found queued noHold free first := by
    refine started_of_first found queued ?_ free first
    rw [kept.books.gate.saved.shown, noHold]

end QueueManager

/-- Every pause has an owner, the ones of preempted jobs apart, as long as restarts find no pause
that the rows should not show; what the owners do lifts it, and a job that was requeued gets the
next slot when its turn comes. -/
theorem pause_owned {max : ℕ} {servers : List ServerConfig} {events : List (Operation × DiskCheck)}
    {log : PauseLog} (run : Run PauseLog.Step (.new max servers) events log)
    (faithful : Run.Always PauseLog.Step (.new max servers)
      (fun _ log event => log.manager.FaithfulRows event.1) events) :
    (∀ id state, log.manager.jobs.lookup id = some state → state.status = .paused →
      PauseOwner log id state ∨ id ∈ log.preempted) ∧ log.manager.Lifting := by
  have kept : log.manager.Kept fun id => id ∈ log.user ∨ id ∈ log.preempted := by
    apply run.invariant_of_steps (fun _ log => log.manager.Kept fun id =>
      id ∈ log.user ∨ id ∈ log.preempted) faithful
    · refine ⟨⟨HoldGate.flagged_new, by simp [PauseLog.new, QueueManager.new], fun held => ?_⟩, ?_⟩
      · cases held
      · intro id state found
        have found : (∅ : Lib.Registry JobId JobState).lookup id = some state := found
        cases (AList.lookup_empty id).symm.trans found
    · rintro _ log ⟨operation, disk⟩ after _ kept isFaithful move
      rcases Option.map_eq_some_iff.mp move with ⟨next, step, rfl⟩
      have stepped := QueueManager.kept_step kept step isFaithful
      refine ⟨stepped.books, fun id state found paused => ?_⟩
      have isPaused : next.isPaused id = true := by
        have found : next.jobs.lookup id = some state := found
        simp [QueueManager.isPaused, found, paused]
      rcases stepped.owned id state found paused with isKnown | other
      · left
        exact isKnown.imp (fun mem => Finset.mem_filter.mpr ⟨mem, isPaused⟩)
          fun mem => Finset.mem_filter.mpr ⟨mem, isPaused⟩
      · exact .inr other
  refine ⟨fun id state found paused => ?_, kept.lifting⟩
  rcases kept.owned id state found paused with (user | preempted) | ⟨mem, held⟩ | ⟨code, -⟩
  · exact .inl (.user user)
  · exact .inr preempted
  · exact .inl (.hold (of_decide_eq_true mem) held)
  · exact .inl (.disk code)

section Instances

open QueueManager (roomy oneServer)

def twoPauses : List (Operation × DiskCheck) :=
  [(.addJob "first" .normal true 0, roomy), (.addJob "second" .normal false 1, roomy),
    (.pauseAll, roomy)]

theorem pause_owned_two_pauses : ∃ log : PauseLog,
    (∀ id state, log.manager.jobs.lookup id = some state → state.status = .paused →
      PauseOwner log id state ∨ id ∈ log.preempted) ∧ log.manager.Lifting := by
  let restart : Operation × DiskCheck := (.restart true, roomy)
  have facts :
      (Lib.execute PauseLog.step (.new 1 oneServer) (twoPauses ++ [restart])).isSome = true ∧
      (Lib.execute PauseLog.step (.new 1 oneServer) twoPauses).all (fun log =>
        log.manager.shutdown.rows.entries.all fun entry =>
          (log.manager.jobs.lookup entry.1).any fun state =>
            state.status = .paused && state.failureCode ≠ some .storageUnavailable) = true := by
    decide
  rcases facts with ⟨ends, faithful⟩
  rcases Option.isSome_iff_exists.mp ends with ⟨log, executed⟩
  have run : Run PauseLog.Step (.new 1 oneServer) ([] ++ (twoPauses ++ [restart])) log :=
    Run.of_execute (fun _ _ _ move => move) .start executed
  refine ⟨log, pause_owned run ?_⟩
  refine Run.Always.concat ?_ ?_
  · apply Run.Always.of_forall
    intro event mem before log
    simp only [twoPauses, List.mem_cons, List.not_mem_nil, or_false] at mem
    rcases mem with rfl | rfl | rfl <;> exact trivial
  · intro log reached id row isRow _
    have executed : Lib.execute PauseLog.step (.new 1 oneServer) twoPauses = some log :=
      reached.execute_eq fun _ _ _ move => move
    rw [executed] at faithful
    have meets := List.all_eq_true.mp faithful ⟨id, row⟩ (AList.mem_lookup_iff.mp isRow)
    rcases found : log.manager.jobs.lookup id with _ | state
    · simp [found] at meets
    · exact ⟨state, rfl, by simpa [found] using meets⟩

theorem not_pause_owned : ¬∀ (max : ℕ) (servers : List ServerConfig)
    (events : List (Operation × DiskCheck)) (log : PauseLog),
    Run PauseLog.Step (.new max servers) events log → ∀ id state,
      log.manager.jobs.lookup id = some state → state.status = .paused →
        PauseOwner log id state := by
  intro owned
  let events : List (Operation × DiskCheck) :=
    [(.addJob "first" .normal false 0, roomy), (.addJob "second" .normal false 1, roomy),
      (.moveJob "second" 0, roomy)]
  have executed : (Lib.execute PauseLog.step (.new 1 oneServer) events).map (fun log =>
      ((log.manager.jobs.lookup "first").map fun state =>
          (state.status, state.failureCode, state.errorMessage),
        decide ("first" ∈ log.user), decide ("first" ∈ log.manager.globallyPausedJobs))) =
      some (some (.paused, none, none), false, false) := by
    decide
  rcases Option.map_eq_some_iff.mp executed with ⟨log, ends, facts⟩
  simp only [Prod.mk.injEq, Option.map_eq_some_iff, decide_eq_false_iff_not] at facts
  rcases facts with ⟨⟨state, found, paused, code, message⟩, notUser, notHeld⟩
  have run : Run PauseLog.Step (.new 1 oneServer) ([] ++ events) log :=
    Run.of_execute (fun _ _ _ move => move) .start ends
  cases owned 1 oneServer _ log run "first" state found paused with
  | user mem => exact notUser mem
  | hold mem => exact notHeld mem
  | disk isDisk => simp [code] at isDisk
  | server some => simp [message] at some

end Instances

end Rustnzb.Web.Queue
