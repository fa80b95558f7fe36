import Rustnzb.News.Accounting

/-!
# One outcome per item

No tag gets two outcomes, and the counters follow the outcomes. When no step loses an item, every
item that was taken has its outcome when the scheduler has exited.
-/

namespace Rustnzb.News

open Lib

/-- The counters are ticked once for each outcome that is not `Cancelled`, and for an item that is
about to get its `Failed`. -/
structure Counted (counters : Counters) (outcomes : List FetchOutcome) (giveUps : List WorkItem) :
    Prop where
  completed : ∀ file, counters.completedArticles file =
    outcomes.countP (fun outcome => (outcome.isSuccess || outcome.isFailed) &&
      outcome.item.file = file) + giveUps.countP fun item => item.file = file
  downloaded : ∀ job, counters.articlesDownloaded job =
    outcomes.countP fun outcome => outcome.isSuccess && outcome.item.job = job
  failed : ∀ job, counters.articlesFailed job =
    outcomes.countP (fun outcome => outcome.isFailed && outcome.item.job = job) +
      giveUps.countP fun item => item.job = job

namespace Counted

variable {counters : Counters} {outcomes : List FetchOutcome} {giveUps : List WorkItem}
  {item : WorkItem}

theorem cancel (counted : Counted counters outcomes giveUps) (items : List WorkItem) :
    Counted counters (outcomes ++ items.map .cancelled) giveUps where
  completed file := by
    simp [counted.completed file, FetchOutcome.isSuccess, FetchOutcome.isFailed, List.countP_map,
      Function.comp_def]
  downloaded job := by
    simp [counted.downloaded job, FetchOutcome.isSuccess, List.countP_map, Function.comp_def]
  failed job := by
    simp [counted.failed job, FetchOutcome.isFailed, List.countP_map, Function.comp_def]

theorem success (counted : Counted counters outcomes giveUps) (serverId : ServerId) (bytes : ℕ) :
    Counted (counters.downloaded item) (outcomes ++ [.success item serverId bytes]) giveUps where
  completed file := by
    have before := counted.completed file
    by_cases same : file = item.file
    · subst same
      simp [Counters.downloaded, before, FetchOutcome.isSuccess, FetchOutcome.item]
      omega
    · simp [Counters.downloaded, before, FetchOutcome.isSuccess, FetchOutcome.item, same,
        Ne.symm same]
  downloaded job := by
    have before := counted.downloaded job
    by_cases same : job = item.job
    · subst same
      simp [Counters.downloaded, before, FetchOutcome.isSuccess, FetchOutcome.item]
    · simp [Counters.downloaded, before, FetchOutcome.isSuccess, FetchOutcome.item, same,
        Ne.symm same]
  failed job := by
    simp [Counters.downloaded, counted.failed job, FetchOutcome.isFailed]

theorem giveUp (counted : Counted counters outcomes giveUps) :
    Counted (counters.givenUp item) outcomes (giveUps ++ [item]) where
  completed file := by
    have before := counted.completed file
    by_cases same : file = item.file
    · subst same
      simp [Counters.givenUp, before]
      omega
    · simp [Counters.givenUp, before, same, Ne.symm same]
  downloaded job := counted.downloaded job
  failed job := by
    have before := counted.failed job
    by_cases same : job = item.job
    · subst same
      simp [Counters.givenUp, before]
      omega
    · simp [Counters.givenUp, before, same, Ne.symm same]

theorem emit {emitted : List WorkItem} (counted : Counted counters outcomes (giveUps ++ emitted)) :
    Counted counters (outcomes ++ emitted.map .failed) giveUps where
  completed file := by
    have same : (fun outcome : FetchOutcome => (outcome.isSuccess || outcome.isFailed) &&
        outcome.item.file = file) ∘ .failed =
          fun item : WorkItem => decide (item.file = file) := rfl
    rw [counted.completed file, List.countP_append, List.countP_append, List.countP_map, same]
    omega
  downloaded job := by
    simp [counted.downloaded job, FetchOutcome.isSuccess, List.countP_map, Function.comp_def]
  failed job := by
    have same : (fun outcome : FetchOutcome => outcome.isFailed && outcome.item.job = job) ∘
        .failed = fun item : WorkItem => decide (item.job = job) := rfl
    rw [counted.failed job, List.countP_append, List.countP_append, List.countP_map, same]
    omega

end Counted

namespace Downloader

variable {state state' : Downloader}

structure WellFormed (state : Downloader) : Prop where
  tags : ((state.taken ++ state.work).map WorkItem.tag).Nodup
  routed : ∀ pair ∈ state.stage.routed, pair.1 ∈ state.queues
  fresh : ∀ key ∈ state.wrappers, key < state.spawned
  closing : state.stage = .closing ∨ state.stage = .exited → state.pending = []
  exited : state.stage = .exited → state.messages = [] ∧ state.wrappers.keys = []
  counted : Counted state.counters state.outcomes state.stage.giveUps

theorem wellFormed_start (servers : Registry ServerId ServerConfig) :
    (start servers).WellFormed where
  tags := List.nodup_nil
  routed := by simp [start, Stage.routed]
  fresh := by simp [start]
  closing := by simp [start]
  exited := by simp [start]
  counted := ⟨fun _ => rfl, fun _ => rfl, fun _ => rfl⟩

namespace WellFormed

section

variable (wellFormed : state.WellFormed)

include wellFormed

theorem of_stage (taken : state'.taken = state.taken)
    (work : state'.work = state.work) (wrappers : state'.wrappers = state.wrappers)
    (spawned : state'.spawned = state.spawned) (routed : state'.stage.routed = [])
    (closing : state'.stage ≠ .closing) (exited : state'.stage ≠ .exited)
    (counted : Counted state'.counters state'.outcomes state'.stage.giveUps) :
    state'.WellFormed where
  tags := by
    rw [taken, work]
    exact wellFormed.tags
  routed := by simp [routed]
  fresh := by
    rw [wrappers, spawned]
    exact wellFormed.fresh
  closing := by simp [closing, exited]
  exited := by simp [exited]
  counted := counted

theorem caller {turn : CallerTurn}
    (move : state.callerNext turn = some state') : state'.WellFormed := by
  revert move
  fun_cases callerNext <;> intro move <;> cases move
  case case2 item unused =>
      exact
        { wellFormed with
          tags := by
            rw [← List.append_assoc, List.map_append, List.nodup_append]
            refine ⟨wellFormed.tags, List.nodup_singleton _, ?_⟩
            rintro tag isTag other isOther rfl
            rw [List.map_singleton, List.mem_singleton] at isOther
            exact unused (isOther ▸ isTag) }
  all_goals exact { wellFormed with }

theorem counted_of_eq {giveUps : List WorkItem}
    (same : state.stage.giveUps = giveUps) : Counted state.counters state.outcomes giveUps :=
  same ▸ wellFormed.counted

theorem loop (none : state.stage.giveUps = []) : state.loop.WellFormed :=
  have counted := wellFormed.counted_of_eq none
  wellFormed.of_stage rfl rfl rfl rfl rfl nofun nofun counted

theorem setStage {stage : Stage} (none : state.stage.giveUps = [])
    (routed : stage.routed = []) (closing : stage ≠ .closing) (exited : stage ≠ .exited)
    (none' : stage.giveUps = []) : (state.setStage stage).WellFormed := by
  have counted := wellFormed.counted_of_eq (none.trans none'.symm)
  exact wellFormed.of_stage rfl rfl rfl rfl routed closing exited counted

theorem leaveLoop (none : state.stage.giveUps = []) :
    state.leaveLoop.WellFormed where
  tags := wellFormed.tags
  routed := by simp [Downloader.leaveLoop, Stage.routed]
  fresh := wellFormed.fresh
  closing := fun _ => rfl
  exited := nofun
  counted := (wellFormed.counted_of_eq none).cancel _

theorem keep {item : WorkItem} {left giveUps : List WorkItem} {routed : List (ServerId × WorkItem)}
    (stage : state.stage = .dispatching (item :: left) routed giveUps) :
    (state.keep item left routed giveUps).WellFormed where
  tags := wellFormed.tags
  routed := by
    have before := wellFormed.routed
    rw [stage] at before
    exact before
  fresh := wellFormed.fresh
  closing := by simp [Downloader.keep]
  exited := by simp [Downloader.keep]
  counted := by
    have before := wellFormed.counted
    rw [stage] at before
    exact before

theorem route {item : WorkItem} {left giveUps : List WorkItem} {routed : List (ServerId × WorkItem)}
    {selection : Selection} (stage : state.stage = .dispatching (item :: left) routed giveUps) :
    (state.route item left routed giveUps selection).WellFormed := by
  have before := wellFormed.routed
  have counted := wellFormed.counted
  rw [stage] at before counted
  fun_cases Downloader.route
  · exact wellFormed.keep stage
  · exact wellFormed.keep stage
  · exact
      { tags := wellFormed.tags
        routed := before
        fresh := wellFormed.fresh
        closing := by simp
        exited := by simp
        counted := counted.giveUp }
  next known =>
    exact
      { tags := wellFormed.tags
        routed := by
          intro pair mem
          rcases List.mem_append.mp mem with mem | mem
          · exact before pair mem
          · rw [List.mem_singleton.mp mem]
            exact known
        fresh := wellFormed.fresh
        closing := by simp
        exited := by simp
        counted := counted }
  · exact wellFormed.keep stage

theorem handleControl {first : Bool} {msg : ControlMsg}
    (none : state.stage.giveUps = []) : (state.handleControl first msg).WellFormed := by
  have counted := wellFormed.counted_of_eq none
  fun_cases Downloader.handleControl
  · exact wellFormed.of_stage rfl rfl rfl rfl rfl (by rintro ⟨⟩) (by rintro ⟨⟩) counted
  · exact wellFormed.of_stage rfl rfl rfl rfl rfl (by rintro ⟨⟩) (by rintro ⟨⟩) counted
  · exact wellFormed.of_stage rfl rfl rfl rfl rfl (by rintro ⟨⟩) (by rintro ⟨⟩) counted
  · refine wellFormed.of_stage rfl rfl rfl rfl rfl (by rintro ⟨⟩) (by rintro ⟨⟩) ?_
    dsimp only
    split
    · exact counted.cancel _
    · exact counted

theorem drainJob {jobId : JobId} {purge : Bool} {serverId : ServerId} {left : List ServerId}
    (none : state.stage.giveUps = []) : (state.drainJob jobId purge serverId left).WellFormed := by
  have counted := wellFormed.counted_of_eq none
  refine wellFormed.of_stage rfl rfl rfl rfl rfl nofun nofun ?_
  dsimp only [Downloader.drainJob]
  split
  · exact counted.cancel _
  · exact counted

end

theorem counted_handleMsg {giveUp : Bool} {msg : SchedulerMsg}
    (counted : Counted state.counters state.outcomes []) :
    Counted (state.handleMsg giveUp msg).counters (state.handleMsg giveUp msg).outcomes [] := by
  fun_cases Downloader.handleMsg
  · exact counted.success _ _
  next item _ _ =>
    have given : Counted (state.counters.givenUp item) state.outcomes ([] ++ [item]) :=
      counted.giveUp
    exact given.emit
  · exact counted
  · exact counted
  · exact counted

theorem frame_handleMsg (state : Downloader) (giveUp : Bool) (msg : SchedulerMsg) :
    (state.handleMsg giveUp msg).work = state.work ∧
      (state.handleMsg giveUp msg).wrappers = state.wrappers ∧
      (state.handleMsg giveUp msg).spawned = state.spawned := by
  fun_cases Downloader.handleMsg <;> exact ⟨rfl, rfl, rfl⟩

section

variable (wellFormed : state.WellFormed)

include wellFormed

theorem nextMessage {giveUp : Bool} {msg : SchedulerMsg}
    {rest : List SchedulerMsg} (none : state.stage.giveUps = []) :
    (({ state with messages := rest }.handleMsg giveUp msg).setStage .moreMessages).WellFormed := by
  have frame := frame_handleMsg { state with messages := rest } giveUp msg
  have counted : Counted ({ state with messages := rest }.handleMsg giveUp msg).counters
      ({ state with messages := rest }.handleMsg giveUp msg).outcomes [] :=
    counted_handleMsg (wellFormed.counted_of_eq none)
  exact wellFormed.of_stage taken_handleMsg frame.1 frame.2.1 frame.2.2 rfl nofun nofun counted

theorem drainMessage {giveUp : Bool} {msg : SchedulerMsg}
    {rest : List SchedulerMsg} (stage : state.stage = .closing) :
    ({ state with messages := rest }.handleMsg giveUp msg).dropPending.WellFormed := by
  have frame := frame_handleMsg { state with messages := rest } giveUp msg
  have at_ : ({ state with messages := rest }.handleMsg giveUp msg).stage = .closing :=
    stage_handleMsg.trans stage
  have counted : Counted state.counters state.outcomes [] :=
    wellFormed.counted_of_eq (by rw [stage]; rfl)
  exact
    { tags := by
        simp only [Downloader.dropPending, taken_handleMsg, frame.1]
        exact wellFormed.tags
      routed := by simp [Downloader.dropPending, at_, Stage.routed]
      fresh := by
        simp only [Downloader.dropPending, frame.2.1, frame.2.2]
        exact wellFormed.fresh
      closing := fun _ => rfl
      exited := by simp [Downloader.dropPending, at_]
      counted := by
        simp only [Downloader.dropPending, at_]
        exact counted_handleMsg counted }

theorem spawn {serverId : ServerId} {stage : Stage}
    (none : state.stage.giveUps = []) (none' : stage.giveUps = []) (routed : stage.routed = [])
    (closing : stage ≠ .closing) (exited : stage ≠ .exited) :
    ((state.spawnWrapper serverId).setStage stage).WellFormed where
  tags := wellFormed.tags
  routed := by simp [Downloader.setStage, routed]
  fresh := by
    intro key mem
    simp only [Downloader.setStage, Downloader.spawnWrapper, Registry.put,
      AList.mem_insert] at mem ⊢
    rcases mem with rfl | mem
    · exact Nat.lt_succ_self _
    · exact Nat.lt_succ_of_lt (wellFormed.fresh key mem)
  closing := by simp [Downloader.setStage, closing, exited]
  exited := by simp [Downloader.setStage, exited]
  counted := wellFormed.counted_of_eq (none.trans none'.symm)

theorem pushMany {serverId : ServerId} {item : WorkItem}
    {items giveUps : List WorkItem} {routed : List (ServerId × WorkItem)}
    (stage : state.stage = .dispatching [] ((serverId, item) :: routed) giveUps) :
    ((state.pushMany serverId items).setStage
      (.dispatching [] (routed.filter fun pair => pair.1 ≠ serverId) giveUps)).WellFormed where
  tags := wellFormed.tags
  routed := by
    intro pair mem
    have before := wellFormed.routed
    rw [stage] at before
    apply (Registry.mem_modify _).mpr
    exact before pair (List.mem_cons_of_mem _ (List.mem_of_mem_filter mem))
  fresh := wellFormed.fresh
  closing := by simp [Downloader.setStage]
  exited := by simp [Downloader.setStage]
  counted := wellFormed.counted_of_eq (by rw [stage]; rfl)

theorem takeItem {item : WorkItem} {rest : List WorkItem}
    (none : state.stage.giveUps = []) (work : state.work = item :: rest) :
    (state.takeItem item rest).WellFormed where
  tags := by
    have before := wellFormed.tags
    rwa [work, List.append_cons] at before
  routed := by simp [Downloader.takeItem, Stage.routed]
  fresh := wellFormed.fresh
  closing := by simp [Downloader.takeItem]
  exited := by simp [Downloader.takeItem]
  counted := wellFormed.counted_of_eq none

theorem scheduler {turn : SchedulerTurn}
    (move : state.schedulerNext turn = some state') : state'.WellFormed := by
  have idle : ∀ {stage : Stage}, state.stage = stage → stage.giveUps = [] →
      state.stage.giveUps = [] := fun at_ none => at_ ▸ none
  revert move
  fun_cases schedulerNext <;> intro move <;> cases move
  case case1 stage => exact wellFormed.spawn (idle stage rfl) rfl rfl (by rintro ⟨⟩) (by rintro ⟨⟩)
  case case2 stage =>
    exact wellFormed.setStage (idle stage rfl) rfl (by rintro ⟨⟩) (by rintro ⟨⟩) rfl
  case case3 stage => exact wellFormed.loop (idle stage rfl)
  case case5 stage => exact wellFormed.route stage
  case case7 stage batch => exact wellFormed.pushMany stage
  case case9 giveUps stage =>
      have counted : Counted state.counters state.outcomes ([] ++ giveUps) :=
        wellFormed.counted_of_eq (by rw [stage]; rfl)
      exact wellFormed.of_stage rfl rfl rfl rfl rfl (by rintro ⟨⟩) (by rintro ⟨⟩) counted.emit
  case case11 rest control stage =>
      have received : WellFormed { state with control := rest } := { wellFormed with }
      exact received.handleControl (idle stage rfl)
  case case12 rest control stage =>
      have received : WellFormed { state with control := rest } := { wellFormed with }
      exact received.handleControl (idle stage rfl)
  case case14 stage => exact wellFormed.drainJob (idle stage rfl)
  case case15 stage =>
      have counted := wellFormed.counted_of_eq (idle stage rfl)
      exact wellFormed.of_stage rfl rfl rfl rfl rfl (by rintro ⟨⟩) (by rintro ⟨⟩) counted
  case case17 stage => exact wellFormed.loop (idle stage rfl)
  case case19 work stage => exact wellFormed.takeItem (idle stage rfl) work
  case case20 work stage => exact wellFormed.takeItem (idle stage rfl) work
  case case22 stage => exact wellFormed.loop (idle stage rfl)
  case case24 stage _ _ => exact wellFormed.leaveLoop (idle stage rfl)
  case case25 stage _ _ => exact wellFormed.loop (idle stage rfl)
  case case28 stage => exact wellFormed.nextMessage (idle stage rfl)
  case case29 stage => exact wellFormed.nextMessage (idle stage rfl)
  case case31 stage => exact wellFormed.loop (idle stage rfl)
  case case33 stage => exact wellFormed.loop (idle stage rfl)
  case case35 stage _ _ =>
      have counted := wellFormed.counted_of_eq (idle stage rfl)
      exact wellFormed.of_stage rfl rfl rfl rfl rfl (by rintro ⟨⟩) (by rintro ⟨⟩) counted
  case case36 stage _ _ =>
      have counted := wellFormed.counted_of_eq (idle stage rfl)
      exact wellFormed.of_stage rfl rfl rfl rfl rfl (by rintro ⟨⟩) (by rintro ⟨⟩) counted
  case case39 stage _ => exact wellFormed.leaveLoop (idle stage rfl)
  case case42 stage => exact wellFormed.drainMessage stage
  case case44 messages stage gone =>
      exact
        { tags := wellFormed.tags
          routed := by simp [Downloader.setStage, Stage.routed]
          fresh := wellFormed.fresh
          closing := fun _ => wellFormed.closing (.inl stage)
          exited := fun _ => ⟨messages, gone⟩
          counted := wellFormed.counted_of_eq (idle stage rfl) }

theorem wrapper {key : ℕ} {turn : WrapperTurn}
    (move : state.wrapperNext key turn = some state') : state'.WellFormed := by
  rcases Option.bind_eq_some_iff.mp move with ⟨wrapper, found, moved⟩
  rcases Option.map_eq_some_iff.mp moved with ⟨⟨turned, new⟩, isTurn, rfl⟩
  have frame := framed_wrapperTurn isTurn
  have isKey : key ∈ state.wrappers := AList.lookup_isSome.mp (found ▸ rfl)
  exact
    { tags := by
        rw [frame.taken, frame.work]
        exact wellFormed.tags
      routed := by
        intro pair mem
        dsimp only at mem
        rw [frame.stage] at mem
        exact (frame.queues pair.1).mpr (wellFormed.routed pair mem)
      fresh := by
        intro other mem
        dsimp only at mem ⊢
        rw [frame.spawned]
        by_cases same : other = key
        · exact wellFormed.fresh other (same ▸ isKey)
        · apply wellFormed.fresh
          rwa [← AList.lookup_isSome, Registry.lookup_put_of_ne new same,
            AList.lookup_isSome] at mem
      closing := by
        rw [frame.stage, frame.pending]
        exact wellFormed.closing
      exited := by
        intro exited
        dsimp only at exited
        rw [frame.stage] at exited
        have none := (wellFormed.exited exited).2
        have absent : key ∉ state.wrappers.keys := by simp [none]
        exact absurd isKey absent
      counted := by
        rw [frame.counters, frame.outcomes, frame.stage]
        exact wellFormed.counted }

theorem step {label : Label} (move : state.Step label state') : state'.WellFormed := by
  cases label with
  | caller turn => exact wellFormed.caller move
  | scheduler turn => exact wellFormed.scheduler move
  | wrapper key turn => exact wellFormed.wrapper move

end

theorem of_run {servers : Registry ServerId ServerConfig} {labels : List Label}
    (run : Run Step (start servers) labels state) : state.WellFormed :=
  run.invariant (fun _ state => state.WellFormed) (wellFormed_start servers)
    fun _ _ _ _ _ wellFormed move => wellFormed.step move

theorem balance (wellFormed : state.WellFormed) {label : Label} (move : state.Step label state')
    (meets : WorkItem → Bool) :
    state'.accounted meets + (state.lost label).countP meets + state.taken.countP meets =
      state.accounted meets + state'.taken.countP meets := by
  cases label with
  | caller turn =>
      revert move
      rw [Step, next]
      fun_cases callerNext <;> intro move <;> cases move
      all_goals exact balance_of_eq rfl rfl rfl
  | scheduler turn =>
      apply accounted_schedulerNext wellFormed.routed ?_
        (fun stage => wellFormed.closing (.inl stage))
        move
      apply AList.lookup_eq_none.mpr
      intro mem
      exact Nat.lt_irrefl _ (wellFormed.fresh _ mem)
  | wrapper key turn => exact accounted_wrapperNext move

theorem queues_of_exited (wellFormed : state.WellFormed) (exited : state.stage = .exited)
    {label : Label} (move : state.Step label state') :
    state'.stage = .exited ∧ state'.queues = state.queues := by
  cases label with
  | caller turn =>
      revert move
      rw [Step, next]
      fun_cases callerNext <;> intro move <;> cases move
      all_goals exact ⟨exited, rfl⟩
  | scheduler turn =>
      rw [Step, next] at move
      cases turn <;> simp [schedulerNext, exited] at move
  | wrapper key turn =>
      rcases Option.bind_eq_some_iff.mp move with ⟨wrapper, found, -⟩
      have isKey : key ∈ state.wrappers.keys := AList.lookup_isSome.mp (found ▸ rfl)
      rw [(wellFormed.exited exited).2] at isKey
      cases isKey

end WellFormed

/-- A step that loses no item, and an exit that leaves none in a queue. -/
def Keeps (state : Downloader) (label : Label) : Prop :=
  state.lost label = [] ∧
    (label = .scheduler .exit → ∀ serverId, state.dequeOf serverId = [])

theorem stage_route_ne {item : WorkItem} {left giveUps : List WorkItem}
    {routed : List (ServerId × WorkItem)} {selection : Selection} :
    (state.route item left routed giveUps selection).stage ≠ .exited := by
  fun_cases route <;> simp [keep]

theorem stage_handleControl_ne {first : Bool} {msg : ControlMsg} :
    (state.handleControl first msg).stage ≠ .exited := by
  fun_cases handleControl <;> simp

theorem exit_of_scheduler {turn : SchedulerTurn} (running : state.stage ≠ .exited)
    (move : state.schedulerNext turn = some state') (exited : state'.stage = .exited) :
    turn = .exit ∧ state'.queues = state.queues := by
  revert move
  fun_cases schedulerNext <;> intro move <;> cases move
  case case5 => exact absurd exited stage_route_ne
  case case11 => exact absurd exited stage_handleControl_ne
  case case12 => exact absurd exited stage_handleControl_ne
  case case42 => exact absurd (stage_handleMsg.symm.trans exited) running
  case case44 => exact ⟨rfl, rfl⟩
  all_goals cases exited

theorem exited_of_exit (move : state.schedulerNext .exit = some state') :
    state'.stage = .exited ∧ state'.queues = state.queues := by
  simp only [schedulerNext] at move
  split at move
  · split at move
    · cases move
      exact ⟨rfl, rfl⟩
    · cases move
  · cases move

theorem exit_of_step {label : Label} (running : state.stage ≠ .exited)
    (move : state.Step label state') (exited : state'.stage = .exited) :
    label = .scheduler .exit ∧ state'.queues = state.queues := by
  cases label with
  | caller turn =>
      revert move
      rw [Step, next]
      fun_cases callerNext <;> intro move <;> cases move
      all_goals exact absurd exited running
  | wrapper key turn =>
      rcases Option.bind_eq_some_iff.mp move with ⟨wrapper, -, moved⟩
      rcases Option.map_eq_some_iff.mp moved with ⟨⟨turned, new⟩, isTurn, rfl⟩
      exact absurd ((framed_wrapperTurn isTurn).stage.symm.trans exited) running
  | scheduler turn =>
      rcases exit_of_scheduler running move exited with ⟨rfl, same⟩
      exact ⟨rfl, same⟩

theorem accounted_start (servers : Registry ServerId ServerConfig) (meets : WorkItem → Bool) :
    (start servers).accounted meets = 0 := by
  have none : (start servers).queues.total (fun queue => queue.deque.countP meets) = 0 := by
    apply Registry.total_eq_zero
    intro serverId queue found
    rw [start, Registry.lookup_mapValues] at found
    rcases Option.map_eq_some_iff.mp found with ⟨config, -, rfl⟩
    rfl
  rw [accounted, inFlight, none]
  rfl

/-- In a run, the items without a place and without an outcome are those that its steps lost. -/
theorem gone_of_run {servers : Registry ServerId ServerConfig} {labels : List Label}
    (run : Run Step (start servers) labels state) :
    ∃ gone : List WorkItem,
      (∀ meets, state.taken.countP meets = state.accounted meets + gone.countP meets) ∧
      (Run.Always Step (start servers) (fun _ => Keeps) labels ↔
        gone = [] ∧ (state.stage = .exited → ∀ serverId, state.dequeOf serverId = [])) := by
  apply run.invariant fun labels state => ∃ gone : List WorkItem,
    (∀ meets, state.taken.countP meets = state.accounted meets + gone.countP meets) ∧
    (Run.Always Step (start servers) (fun _ => Keeps) labels ↔
      gone = [] ∧ (state.stage = .exited → ∀ serverId, state.dequeOf serverId = []))
  · refine ⟨[], fun meets => (accounted_start servers meets).symm, ?_⟩
    exact ⟨fun _ => ⟨rfl, by simp [start]⟩, fun _ => Run.Always.nil⟩
  · rintro labels state label state' run ⟨gone, before, always⟩ move
    have wellFormed := WellFormed.of_run run
    refine ⟨gone ++ state.lost label, ?_, ?_⟩
    · intro meets
      have balance := wellFormed.balance move meets
      rw [List.countP_append]
      have held := before meets
      omega
    · constructor
      · intro kept
        have keeps := kept.last run
        rcases always.mp kept.of_snoc with ⟨none, empty⟩
        refine ⟨by rw [none, keeps.1]; rfl, fun exited serverId => ?_⟩
        by_cases was : state.stage = .exited
        · rw [dequeOf, (wellFormed.queues_of_exited was move).2]
          exact empty was serverId
        · rcases exit_of_step was move exited with ⟨isExit, same⟩
          rw [dequeOf, same]
          exact keeps.2 isExit serverId
      · rintro ⟨none, empty⟩
        rcases List.append_eq_nil_iff.mp none with ⟨noneBefore, noneNow⟩
        refine (always.mpr ⟨noneBefore, fun was serverId => ?_⟩).concat_of_functional
          (fun _ _ _ _ left right => Option.some.inj (left.symm.trans right)) run ⟨noneNow, ?_⟩
        · rcases wellFormed.queues_of_exited was move with ⟨exited, same⟩
          rw [dequeOf, ← same]
          exact empty exited serverId
        · rintro rfl serverId
          rcases exited_of_exit move with ⟨exited, same⟩
          rw [dequeOf, ← same]
          exact empty exited serverId

theorem countP_tag_le_one {items : List WorkItem} (apart : (items.map WorkItem.tag).Nodup)
    (tag : WorkTag) : items.countP (fun item => item.tag = tag) ≤ 1 := by
  have count := List.nodup_iff_count_le_one.mp apart tag
  rw [List.count_eq_countP, List.countP_map] at count
  exact count

theorem eq_nil_of_countP_tag {items : List WorkItem}
    (none : ∀ tag, items.countP (fun item => item.tag = tag) = 0) : items = [] := by
  apply List.eq_nil_iff_forall_not_mem.mpr
  intro item mem
  have absent := List.countP_eq_zero.mp (none item.tag) item mem
  exact absent (decide_eq_true rfl)

theorem inFlight_of_exited (wellFormed : state.WellFormed) (exited : state.stage = .exited)
    (meets : WorkItem → Bool) :
    state.inFlight meets = state.queues.total fun queue => queue.deque.countP meets := by
  have pending := wellFormed.closing (.inr exited)
  have messages := (wellFormed.exited exited).1
  have stage : Stage.exited.items = [] := rfl
  have wrappers : state.wrappers.total (fun wrapper => wrapper.stage.items.countP meets) = 0 := by
    apply Registry.total_eq_zero
    intro key wrapper found
    have isKey : key ∈ state.wrappers.keys := AList.lookup_isSome.mp (found ▸ rfl)
    rw [(wellFormed.exited exited).2] at isKey
    cases isKey
  rw [inFlight, pending, messages, exited, stage, wrappers]
  simp

theorem dequeOf_eq_nil_iff :
    (∀ serverId, state.dequeOf serverId = []) ↔
      ∀ tag, state.queues.total (fun queue => queue.deque.countP fun item => item.tag = tag) =
        0 := by
  constructor
  · intro empty tag
    apply Registry.total_eq_zero
    intro serverId queue found
    have none := empty serverId
    rw [dequeOf, found, Option.elim_some] at none
    rw [none]
    rfl
  · intro none serverId
    cases found : state.queues.lookup serverId with
    | none =>
        rw [dequeOf, found]
        rfl
    | some queue =>
        rw [dequeOf, found, Option.elim_some]
        apply eq_nil_of_countP_tag
        intro tag
        have part : (queue.deque.countP fun item => item.tag = tag) ≤
            state.queues.total (fun queue => queue.deque.countP fun item => item.tag = tag) :=
          Registry.le_total (fun queue => queue.deque.countP fun item => item.tag = tag) found
        have zero := none tag
        omega

/-- No tag gets two outcomes and the counters follow the outcomes, whatever happens. When the
scheduler has exited, every item that was taken has its outcome exactly if no step of the run lost
an item. -/
theorem one_outcome_iff_keeps {servers : Registry ServerId ServerConfig} {labels : List Label}
    (run : Run Step (start servers) labels state) :
    (∀ tag, state.outcomes.countP (fun outcome => outcome.tag = tag) ≤ 1) ∧
      Counted state.counters state.outcomes state.stage.giveUps ∧
      (state.stage = .exited →
        ((∀ item ∈ state.taken, state.outcomes.countP (fun outcome => outcome.tag = item.tag) = 1) ↔
          Run.Always Step (start servers) (fun _ => Keeps) labels)) := by
  have wellFormed := WellFormed.of_run run
  rcases gone_of_run run with ⟨gone, held, always⟩
  have apart : (state.taken.map WorkItem.tag).Nodup := by
    have tags := wellFormed.tags
    rw [List.map_append] at tags
    exact tags.of_append_left
  have resolved : ∀ tag, state.outcomes.countP (fun outcome => outcome.tag = tag) =
      state.resolved fun item => item.tag = tag := fun tag => rfl
  have split : ∀ tag, state.taken.countP (fun item => item.tag = tag) =
      state.inFlight (fun item => item.tag = tag) + state.resolved (fun item => item.tag = tag) +
        gone.countP (fun item => item.tag = tag) := fun tag => held _
  refine ⟨fun tag => ?_, wellFormed.counted, fun exited => ?_⟩
  · have most := countP_tag_le_one apart tag
    have parts := split tag
    rw [resolved]
    omega
  · rw [always, dequeOf_eq_nil_iff]
    constructor
    · intro each
      have none : ∀ tag, state.inFlight (fun item => item.tag = tag) = 0 ∧
          gone.countP (fun item => item.tag = tag) = 0 := by
        intro tag
        have most := countP_tag_le_one apart tag
        have parts := split tag
        by_cases some : 0 < state.taken.countP fun item => item.tag = tag
        · rcases List.countP_pos_iff.mp some with ⟨item, mem, same⟩
          have one := each item mem
          rw [of_decide_eq_true same, resolved] at one
          omega
        · omega
      refine ⟨eq_nil_of_countP_tag fun tag => (none tag).2, fun _ tag => ?_⟩
      rw [← inFlight_of_exited wellFormed exited]
      exact (none tag).1
    · rintro ⟨none, empty⟩ item mem
      have most := countP_tag_le_one apart item.tag
      have some : 0 < state.taken.countP fun other => other.tag = item.tag :=
        List.countP_pos_iff.mpr ⟨item, mem, decide_eq_true rfl⟩
      have parts := split item.tag
      rw [inFlight_of_exited wellFormed exited, empty exited, none, List.countP_nil] at parts
      rw [resolved]
      omega

def oneServer : Registry ServerId ServerConfig :=
  AList.insert "s" ⟨1, 1⟩ ∅

def oneItem : WorkItem := ⟨0, "job", 0, 0⟩

/-- The only wrapper is spawned, and the item is taken from the work channel. -/
def begun : List Label :=
  [.scheduler .spawn, .scheduler .spawn, .scheduler .spawn, .scheduler .emitGiveUps,
    .caller (.submit oneItem), .scheduler .takeWork, .scheduler .endWork]

def ended : List Label :=
  [.caller .shutdown, .scheduler .shutdown, .wrapper 0 .shutdown, .wrapper 0 .unregister,
    .wrapper 0 .drainAll, .wrapper 0 .returnStranded, .wrapper 0 .announce,
    .scheduler (.drainMessage false), .scheduler .exit]

def fetched : List Label :=
  begun ++
    ([.scheduler (.route (.server "s")), .scheduler .pushMany, .scheduler .emitGiveUps,
      .wrapper 0 .popBatch, .wrapper 0 .connected, .wrapper 0 (.receive (some 7)),
      .wrapper 0 .sendResult, .wrapper 0 .batchDone, .scheduler (.takeMessage false),
      .scheduler .endMessages, .scheduler .emitGiveUps] : List Label) ++
    ended

def summary (state : Downloader) : Bool × List WorkItem × List WorkTag :=
  (match state.stage with
    | .exited => true
    | _ => false,
  state.taken, state.outcomes.map FetchOutcome.tag)

theorem of_summary {items : List WorkItem} {tags : List WorkTag}
    (seen : state.summary = (true, items, tags)) :
    state.stage = .exited ∧ state.taken = items ∧
      ∀ tag, state.outcomes.countP (fun outcome => outcome.tag = tag) = tags.count tag := by
  rcases Prod.mk.inj seen with ⟨exited, rest⟩
  rcases Prod.mk.inj rest with ⟨taken, outcomes⟩
  refine ⟨?_, taken, fun tag => ?_⟩
  · cases stage : state.stage <;> simp [stage] at exited ⊢
  · rw [← outcomes, List.count_eq_countP, List.countP_map]
    rfl

theorem one_outcome_iff_keeps_fetched :
    ∃ state, Run Step (start oneServer) fetched state ∧ state.stage = .exited ∧
      Run.Always Step (start oneServer) (fun _ => Keeps) fetched := by
  have ends : (execute next (start oneServer) fetched).map summary =
      some (true, [oneItem], [0]) := by decide
  rcases Option.map_eq_some_iff.mp ends with ⟨state, executed, seen⟩
  rcases of_summary seen with ⟨exited, taken, outcomes⟩
  have run : Run Step (start oneServer) ([] ++ fetched) state :=
    Run.of_execute (fun _ _ _ move => move) .start executed
  refine ⟨state, run, exited, ((one_outcome_iff_keeps run).2.2 exited).mp ?_⟩
  intro item mem
  rw [taken, List.mem_singleton] at mem
  rw [mem, outcomes]
  rfl

/-- The purge of a job comes right after another command, while its item is pending. -/
def purgedInBurst : List Label :=
  begun ++
    ([.scheduler (.route .keep), .scheduler .emitGiveUps, .caller (.control (.pauseJob "other")),
      .caller (.control (.purgeJob "job")), .scheduler .takeControl, .scheduler .drainJob,
      .scheduler .drainJob, .scheduler .takeControl, .scheduler .drainJob, .scheduler .drainJob,
      .scheduler .endControl, .scheduler .emitGiveUps] : List Label) ++
    ended

theorem not_one_outcome_purgedInBurst :
    ¬∀ servers labels state, Run Step (start servers) labels state → state.stage = .exited →
      ∀ item ∈ state.taken,
        state.outcomes.countP (fun outcome => outcome.tag = item.tag) = 1 := by
  intro each
  have ends : (execute next (start oneServer) purgedInBurst).map summary =
      some (true, [oneItem], []) := by decide
  rcases Option.map_eq_some_iff.mp ends with ⟨state, executed, seen⟩
  rcases of_summary seen with ⟨exited, taken, outcomes⟩
  have run : Run Step (start oneServer) ([] ++ purgedInBurst) state :=
    Run.of_execute (fun _ _ _ move => move) .start executed
  have one := each oneServer purgedInBurst state run exited oneItem (by rw [taken]; simp)
  rw [outcomes] at one
  cases one

end Downloader

end Rustnzb.News
