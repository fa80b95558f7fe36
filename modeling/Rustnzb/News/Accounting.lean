import Rustnzb.News.Downloader

/-!
# Where an item is

Every item that the scheduler has taken is pending, in the scheduler's hands, in a queue, with a
wrapper or in a message, or it has an outcome, unless a step lost it.
-/

namespace Rustnzb.News

open Lib

def SchedulerMsg.items : SchedulerMsg → List WorkItem
  | .fetchResult item _ _ => [item]
  | .returnUnattempted items => items
  | .allWrappersExited _ => []

def SchedulerMsg.requeued (giveUp : Bool) : SchedulerMsg → List WorkItem
  | .fetchResult item _ none => if giveUp then [] else [item]
  | .returnUnattempted items => items
  | _ => []

def ControlMsg.dropped (pending : List WorkItem) : ControlMsg → List WorkItem
  | .purgeJob jobId => pending.filter fun item => item.jobId = jobId
  | _ => []

def WrapperStage.items : WrapperStage → List WorkItem
  | .connecting batch => batch
  | .streaming left | .failing left => left
  | .sending left item _ => item :: left
  | .returning stranded => stranded
  | _ => []

/-- The item that the batch timeout catches in the channel's `send`. -/
def WrapperStage.dropped (turn : WrapperTurn) : WrapperStage → List WorkItem
  | .sending _ item _ =>
      match turn with
      | .fatal => [item]
      | _ => []
  | _ => []

def Stage.routed : Stage → List (ServerId × WorkItem)
  | .dispatching _ routed _ => routed
  | _ => []

def Stage.giveUps : Stage → List WorkItem
  | .dispatching _ _ giveUps => giveUps
  | _ => []

def Stage.items : Stage → List WorkItem
  | .dispatching left routed giveUps => left ++ routed.map Prod.snd ++ giveUps
  | _ => []

@[simp]
theorem Stage.items_dispatching (left giveUps : List WorkItem)
    (routed : List (ServerId × WorkItem)) :
    (dispatching left routed giveUps).items = left ++ routed.map Prod.snd ++ giveUps := rfl

@[simp]
theorem Stage.items_closing : closing.items = [] := rfl

@[simp]
theorem Stage.items_moreControl : moreControl.items = [] := rfl

@[simp]
theorem Stage.items_moreMessages : moreMessages.items = [] := rfl

@[simp]
theorem Stage.items_draining (jobId : JobId) (purge : Bool) (left : List ServerId) :
    (draining jobId purge left).items = [] := rfl

namespace Downloader

variable {state state' : Downloader} {meets : WorkItem → Bool}

def inFlight (state : Downloader) (meets : WorkItem → Bool) : ℕ :=
  state.pending.countP meets + state.stage.items.countP meets +
    state.queues.total (fun queue => queue.deque.countP meets) +
    state.wrappers.total (fun wrapper => wrapper.stage.items.countP meets) +
    (state.messages.flatMap SchedulerMsg.items).countP meets

def resolved (state : Downloader) (meets : WorkItem → Bool) : ℕ :=
  state.outcomes.countP fun outcome => meets outcome.item

def accounted (state : Downloader) (meets : WorkItem → Bool) : ℕ :=
  state.inFlight meets + state.resolved meets

@[simp]
theorem item_cancelled : (fun outcome => meets (FetchOutcome.item outcome)) ∘ .cancelled = meets :=
  rfl

@[simp]
theorem item_failed : (fun outcome => meets (FetchOutcome.item outcome)) ∘ .failed = meets := rfl

theorem accounted_loop (none : state.stage.items = []) :
    state.loop.accounted meets = state.accounted meets := by
  simp only [accounted, inFlight, resolved, loop, none, Stage.items_dispatching, List.map_nil,
    List.append_nil, List.countP_nil]
  omega

theorem accounted_leaveLoop (none : state.stage.items = []) :
    state.leaveLoop.accounted meets = state.accounted meets := by
  simp only [accounted, inFlight, resolved, leaveLoop, none, Stage.items_closing,
    List.countP_append, List.countP_map, item_cancelled, List.countP_nil]
  omega

variable {item : WorkItem} {giveUps : List WorkItem} {routed : List (ServerId × WorkItem)}
  {giveUp : Bool}

theorem accounted_keep {left : List WorkItem}
    (stage : state.stage = .dispatching (item :: left) routed giveUps) :
    (state.keep item left routed giveUps).accounted meets = state.accounted meets := by
  simp only [accounted, inFlight, resolved, keep, stage, Stage.items_dispatching,
    List.countP_append, List.countP_cons, List.countP_nil]
  omega

theorem accounted_route {left : List WorkItem} {selection : Selection}
    (stage : state.stage = .dispatching (item :: left) routed giveUps) :
    (state.route item left routed giveUps selection).accounted meets = state.accounted meets := by
  fun_cases route
  · exact accounted_keep stage
  · exact accounted_keep stage
  · simp only [accounted, inFlight, resolved, stage, Stage.items_dispatching, List.countP_append,
      List.countP_cons, List.countP_nil]
    omega
  · simp only [accounted, inFlight, resolved, stage, Stage.items_dispatching, List.countP_append,
      List.countP_cons, List.countP_nil, List.map_append, List.map_cons, List.map_nil]
    omega
  · exact accounted_keep stage

theorem countP_filter_not (meets : WorkItem → Bool) (jobId : JobId) (items : List WorkItem) :
    (items.filter fun item => item.jobId ≠ jobId).countP meets +
      (items.filter fun item => item.jobId = jobId).countP meets = items.countP meets := by
  rw [List.countP_eq_countP_filter_add items meets fun item => item.jobId = jobId, Nat.add_comm]
  congr 3
  simp

theorem accounted_handleControl_true {msg : ControlMsg} (none : state.stage.items = []) :
    (state.handleControl true msg).accounted meets = state.accounted meets := by
  cases msg with
  | pauseJob jobId =>
      rw [handleControl]
      split <;> simp [accounted, inFlight, resolved, none]
  | resumeJob jobId => simp [handleControl, accounted, inFlight, resolved, none]
  | purgeJob jobId =>
      have parts := countP_filter_not meets jobId state.pending
      simp only [handleControl, accounted, inFlight, resolved, none, Stage.items_draining,
        if_true, List.countP_append, List.countP_map, item_cancelled, List.countP_nil]
      omega

theorem accounted_handleControl_false (state : Downloader) (msg : ControlMsg)
    (meets : WorkItem → Bool) (none : state.stage.items = []) :
    (state.handleControl false msg).accounted meets + (msg.dropped state.pending).countP meets =
      state.accounted meets := by
  cases msg with
  | pauseJob jobId =>
      rw [handleControl]
      split <;> simp [accounted, inFlight, resolved, none, ControlMsg.dropped]
  | resumeJob jobId =>
      simp [handleControl, accounted, inFlight, resolved, none, ControlMsg.dropped]
  | purgeJob jobId =>
      have parts := countP_filter_not meets jobId state.pending
      simp only [handleControl, accounted, inFlight, resolved, none, Stage.items_draining,
        Bool.false_eq_true, if_false, List.countP_nil, ControlMsg.dropped]
      omega

theorem total_deque (state : Downloader) (serverId : ServerId) (meets : WorkItem → Bool)
    (change : List WorkItem → List WorkItem) (fits : serverId ∈ state.queues ∨ change [] = []) :
    (state.queues.modify serverId fun queue =>
        { queue with deque := change queue.deque }).total (fun queue => queue.deque.countP meets) +
      (state.dequeOf serverId).countP meets =
    state.queues.total (fun queue => queue.deque.countP meets) +
      (change (state.dequeOf serverId)).countP meets := by
  have total := Registry.total_modify state.queues serverId
    (fun queue => queue.deque.countP meets) fun queue => { queue with deque := change queue.deque }
  rw [dequeOf]
  cases found : state.queues.lookup serverId with
  | some queue =>
      rw [found] at total
      exact total
  | none =>
      have absent : serverId ∉ state.queues := AList.lookup_eq_none.mp found
      rw [found] at total
      rw [Option.elim_none, fits.resolve_left absent]
      exact total

variable {serverId : ServerId}

theorem accounted_drainJob {jobId : JobId} {purge : Bool} {left : List ServerId}
    (none : state.stage.items = []) :
    (state.drainJob jobId purge serverId left).accounted meets = state.accounted meets := by
  have total := total_deque state serverId meets
    (List.filter fun item => item.jobId ≠ jobId) (.inr rfl)
  have parts := countP_filter_not meets jobId (state.dequeOf serverId)
  cases purge with
  | true =>
      simp only [drainJob, accounted, inFlight, resolved, none, Stage.items_draining, if_true,
        List.countP_append, List.countP_map, item_cancelled, List.countP_nil]
      omega
  | false =>
      simp only [drainJob, accounted, inFlight, resolved, none, Stage.items_draining,
        Bool.false_eq_true, if_false, List.countP_append, List.countP_nil]
      omega

variable {msg : SchedulerMsg}

theorem accounted_handleMsg :
    (state.handleMsg giveUp msg).accounted meets =
      state.accounted meets + msg.items.countP meets := by
  fun_cases handleMsg
  · simp only [accounted, inFlight, resolved, SchedulerMsg.items, List.countP_append,
      List.countP_singleton, FetchOutcome.item]
    omega
  · simp only [accounted, inFlight, resolved, SchedulerMsg.items, List.countP_append,
      List.countP_singleton, FetchOutcome.item]
    omega
  · simp only [accounted, inFlight, resolved, SchedulerMsg.items, List.countP_append]
    omega
  · simp only [accounted, inFlight, resolved, SchedulerMsg.items, List.countP_append]
    omega
  · simp [accounted, inFlight, resolved, setRespawn, SchedulerMsg.items]

theorem accounted_spawnWrapper (serverId : ServerId)
    (fresh : state.wrappers.lookup state.spawned = none) :
    (state.spawnWrapper serverId).accounted meets = state.accounted meets := by
  have total := Registry.total_put state.wrappers state.spawned
    (fun wrapper => wrapper.stage.items.countP meets) (some ⟨serverId, 0, .popping⟩)
  rw [fresh] at total
  have empty : WrapperStage.popping.items = [] := rfl
  simp only [Option.elim_none, Option.elim_some, empty, List.countP_nil, Nat.add_zero] at total
  simp [accounted, inFlight, resolved, spawnWrapper, total]

def lost (state : Downloader) : Label → List WorkItem
  | .scheduler .takeControl =>
      match state.stage, state.control with
      | .moreControl, msg :: _ => msg.dropped state.pending
      | _, _ => []
  | .scheduler (.drainMessage giveUp) => state.messages.head?.elim [] (SchedulerMsg.requeued giveUp)
  | .wrapper key turn =>
      (state.wrappers.lookup key).elim [] fun wrapper => wrapper.stage.dropped turn
  | _ => []

theorem accounted_setStage (state : Downloader) {stage : Stage} (none : state.stage.items = [])
    (none' : stage.items = []) :
    (state.setStage stage).accounted meets = state.accounted meets := by
  simp [accounted, inFlight, resolved, setStage, none, none']

theorem accounted_emitGiveUps (stage : state.stage = .dispatching [] [] giveUps) :
    accounted { state with
      outcomes := state.outcomes ++ giveUps.map .failed, stage := .selecting } meets =
      state.accounted meets := by
  have none : Stage.selecting.items = [] := rfl
  simp only [accounted, inFlight, resolved, stage, none, Stage.items_dispatching, List.map_nil,
    List.nil_append, List.countP_append, List.countP_map, item_failed, List.countP_nil]
  omega

theorem accounted_pushMany
    (stage : state.stage = .dispatching [] ((serverId, item) :: routed) giveUps)
    (known : serverId ∈ state.queues) :
    ((state.pushMany serverId ((((serverId, item) :: routed).filter
      fun pair => pair.1 = serverId).map Prod.snd)).setStage
        (.dispatching [] (routed.filter fun pair => pair.1 ≠ serverId) giveUps)).accounted meets =
      state.accounted meets := by
  have total := total_deque state serverId meets
    (fun deque => deque ++ (((serverId, item) :: routed).filter
      fun pair => pair.1 = serverId).map Prod.snd) (.inl known)
  have parts := List.countP_eq_countP_filter_add ((serverId, item) :: routed) (meets ∘ Prod.snd)
    fun pair => pair.1 = serverId
  have rest : (((serverId, item) :: routed).filter fun pair => !decide (pair.1 = serverId)) =
      routed.filter fun pair => pair.1 ≠ serverId := by
    simp
  rw [rest] at parts
  simp only [accounted, inFlight, resolved, setStage, pushMany, stage, Stage.items_dispatching,
    List.nil_append, List.countP_append, List.countP_map] at total ⊢
  omega

@[simp]
theorem taken_route {left : List WorkItem} {selection : Selection} :
    (state.route item left routed giveUps selection).taken = state.taken := by
  fun_cases route <;> rfl

@[simp]
theorem taken_handleControl {first : Bool} {msg : ControlMsg} :
    (state.handleControl first msg).taken = state.taken := by
  fun_cases handleControl <;> rfl

@[simp]
theorem taken_handleMsg : (state.handleMsg giveUp msg).taken = state.taken := by
  fun_cases handleMsg <;> rfl

theorem accounted_takeMessage {rest : List SchedulerMsg} (messages : state.messages = msg :: rest) :
    ({ state with messages := rest }.handleMsg giveUp msg).accounted meets =
      state.accounted meets := by
  rw [accounted_handleMsg]
  simp only [accounted, inFlight, resolved, messages, List.flatMap_cons, List.countP_append]
  omega

theorem stage_handleMsg : (state.handleMsg giveUp msg).stage = state.stage := by
  fun_cases handleMsg <;> rfl

theorem pending_handleMsg :
    (state.handleMsg giveUp msg).pending = state.pending ++ msg.requeued giveUp := by
  fun_cases handleMsg <;> simp_all [SchedulerMsg.requeued, setRespawn]

theorem accounted_dropPending (state : Downloader) (meets : WorkItem → Bool) :
    state.dropPending.accounted meets + state.pending.countP meets = state.accounted meets := by
  simp only [accounted, inFlight, resolved, dropPending, List.countP_nil]
  omega

theorem accounted_takeItem {rest : List WorkItem} (none : state.stage.items = []) :
    (state.takeItem item rest).accounted meets + state.taken.countP meets =
      state.accounted meets + (state.takeItem item rest).taken.countP meets := by
  have none' : Stage.moreWork.items = [] := rfl
  simp only [accounted, inFlight, resolved, takeItem, none, none', List.countP_append]
  omega

theorem accounted_setRespawn {respawn : Bool} :
    (state.setRespawn serverId respawn).accounted meets = state.accounted meets := by
  simp [accounted, inFlight, resolved, setRespawn]

theorem accounted_nextMessage {rest : List SchedulerMsg} (none : state.stage.items = [])
    (messages : state.messages = msg :: rest) :
    (({ state with messages := rest }.handleMsg giveUp msg).setStage .moreMessages).accounted
      meets =
      state.accounted meets := by
  rw [accounted_setStage _ _ rfl, accounted_takeMessage messages]
  rw [stage_handleMsg]
  exact none

theorem accounted_drainMessage {rest : List SchedulerMsg} (none : state.pending = [])
    (messages : state.messages = msg :: rest) :
    ({ state with messages := rest }.handleMsg giveUp msg).dropPending.accounted meets +
      (msg.requeued giveUp).countP meets = state.accounted meets := by
  have drained := accounted_dropPending ({ state with messages := rest }.handleMsg giveUp msg) meets
  have zero : state.pending.countP meets = 0 := by
    rw [none]
    rfl
  rw [accounted_takeMessage messages, pending_handleMsg, List.countP_append] at drained
  dsimp only at drained
  omega

theorem accounted_respawn_loop {respawn : Bool} (none : state.stage.items = []) :
    (state.setRespawn serverId respawn).loop.accounted meets = state.accounted meets := by
  rw [accounted_loop, accounted_setRespawn]
  exact none

theorem accounted_respawn_setStage {respawn : Bool} {stage : Stage} (none : state.stage.items = [])
    (none' : stage.items = []) :
    ((state.setRespawn serverId respawn).setStage stage).accounted meets =
      state.accounted meets := by
  rw [accounted_setStage _ _ none', accounted_setRespawn]
  exact none

theorem balance_of_eq {lost : List WorkItem}
    (accounted : state'.accounted meets = state.accounted meets)
    (taken : state'.taken = state.taken) (none : lost = []) :
    state'.accounted meets + lost.countP meets + state.taken.countP meets =
      state.accounted meets + state'.taken.countP meets := by
  rw [accounted, taken, none, List.countP_nil]
  omega

theorem accounted_schedulerNext {turn : SchedulerTurn}
    (routed : ∀ pair ∈ state.stage.routed, pair.1 ∈ state.queues)
    (fresh : state.wrappers.lookup state.spawned = none)
    (closing : state.stage = .closing → state.pending = [])
    (move : state.schedulerNext turn = some state') :
    state'.accounted meets + (state.lost (.scheduler turn)).countP meets +
      state.taken.countP meets = state.accounted meets + state'.taken.countP meets := by
  have idle : ∀ {stage : Stage}, state.stage = stage → stage.items = [] → state.stage.items = [] :=
    fun at_ none => at_ ▸ none
  revert move
  fun_cases schedulerNext <;> intro move <;> cases move
  case case1 serverId left rest stage =>
      have next : ((state.spawnWrapper serverId).setStage
          (.spawning ((serverId, left) :: rest))).accounted meets =
            (state.spawnWrapper serverId).accounted meets :=
        accounted_setStage _ (idle stage rfl) rfl
      exact balance_of_eq (next.trans (accounted_spawnWrapper serverId fresh)) rfl rfl
  case case2 stage => exact balance_of_eq (accounted_setStage _ (idle stage rfl) rfl) rfl rfl
  case case3 stage => exact balance_of_eq (accounted_loop (idle stage rfl)) rfl rfl
  case case5 stage => exact balance_of_eq (accounted_route stage) taken_route rfl
  case case7 serverId item pairs giveUps stage batch =>
      have known : serverId ∈ state.queues := by
        apply routed (serverId, item)
        rw [stage]
        exact List.mem_cons_self
      exact balance_of_eq (accounted_pushMany stage known) rfl rfl
  case case9 stage => exact balance_of_eq (accounted_emitGiveUps stage) rfl rfl
  case case11 control stage =>
      refine balance_of_eq (accounted_handleControl_true (idle stage rfl)) taken_handleControl ?_
      simp only [lost, stage]
  case case12 msg rest control stage =>
      have balance := accounted_handleControl_false { state with control := rest } msg meets
        (idle stage rfl)
      have lost : state.lost (.scheduler .takeControl) = msg.dropped state.pending := by
        simp only [lost, stage, control]
      rw [lost, taken_handleControl]
      exact congrArg (· + _) balance
  case case14 stage => exact balance_of_eq (accounted_drainJob (idle stage rfl)) rfl rfl
  case case15 stage => exact balance_of_eq (accounted_setStage _ (idle stage rfl) rfl) rfl rfl
  case case17 stage => exact balance_of_eq (accounted_loop (idle stage rfl)) rfl rfl
  case case19 stage =>
      simp only [lost, List.countP_nil, Nat.add_zero]
      exact accounted_takeItem (idle stage rfl)
  case case20 stage =>
      simp only [lost, List.countP_nil, Nat.add_zero]
      exact accounted_takeItem (idle stage rfl)
  case case22 stage => exact balance_of_eq (accounted_loop (idle stage rfl)) rfl rfl
  case case24 stage _ _ => exact balance_of_eq (accounted_leaveLoop (idle stage rfl)) rfl rfl
  case case25 stage _ _ => exact balance_of_eq (accounted_loop (idle stage rfl)) rfl rfl
  case case28 messages stage =>
      exact balance_of_eq (accounted_nextMessage (idle stage rfl) messages) taken_handleMsg rfl
  case case29 messages stage =>
      exact balance_of_eq (accounted_nextMessage (idle stage rfl) messages) taken_handleMsg rfl
  case case31 stage => exact balance_of_eq (accounted_loop (idle stage rfl)) rfl rfl
  case case33 stage => exact balance_of_eq (accounted_loop (idle stage rfl)) rfl rfl
  case case35 stage _ _ => exact balance_of_eq (accounted_respawn_loop (idle stage rfl)) rfl rfl
  case case36 stage _ _ =>
      exact balance_of_eq (accounted_respawn_setStage (idle stage rfl) rfl) rfl rfl
  case case39 stage _ => exact balance_of_eq (accounted_leaveLoop (idle stage rfl)) rfl rfl
  case case42 giveUp msg rest messages stage =>
      have lost : state.lost (.scheduler (.drainMessage giveUp)) = msg.requeued giveUp := by
        simp [lost, messages]
      have taken : ({ state with messages := rest }.handleMsg giveUp msg).dropPending.taken =
          state.taken := taken_handleMsg
      rw [lost, taken, accounted_drainMessage (closing stage) messages]
  case case44 stage _ => exact balance_of_eq (accounted_setStage _ (idle stage rfl) rfl) rfl rfl

theorem accounted_send :
    (state.send msg).accounted meets = state.accounted meets + msg.items.countP meets := by
  simp only [accounted, inFlight, resolved, send, List.flatMap_append, List.flatMap_cons,
    List.flatMap_nil, List.append_nil, List.countP_append]
  omega

theorem accounted_unregister :
    (state.unregister serverId).accounted meets = state.accounted meets := by
  simp [accounted, inFlight, resolved, unregister]

theorem accounted_setDeque (state : Downloader) (meets : WorkItem → Bool) (serverId : ServerId)
    (deque : List WorkItem) (fits : state.dequeOf serverId ≠ [] ∨ deque = []) :
    (state.setDeque serverId deque).accounted meets + (state.dequeOf serverId).countP meets =
      state.accounted meets + deque.countP meets := by
  have total := total_deque state serverId meets (fun _ => deque) (fits.imp_left fun some => by
    by_contra absent
    exact some (by rw [dequeOf, AList.lookup_eq_none.mpr absent]; rfl))
  simp only [accounted, inFlight, resolved, setDeque]
  omega

theorem accounted_wrapperTurn (meets : WorkItem → Bool) {wrapper : Wrapper} {turn : WrapperTurn}
    {new : Option Wrapper}
    (turned : state.wrapperTurn wrapper turn wrapper.stage = some (state', new)) :
    state'.accounted meets + new.elim 0 (fun wrapper => wrapper.stage.items.countP meets) +
      (wrapper.stage.dropped turn).countP meets =
        state.accounted meets + wrapper.stage.items.countP meets := by
  revert turned
  generalize wrapper.stage = stage
  fun_cases wrapperTurn <;> intro turned <;> cases turned
  case case2 depth some =>
      have moved := accounted_setDeque state meets wrapper.server
        ((state.dequeOf wrapper.server).drop depth) (.inl some)
      have parts := congrArg (List.countP meets)
        (List.take_append_drop depth (state.dequeOf wrapper.server))
      rw [List.countP_append] at parts
      simp only [Option.elim_some, WrapperStage.items, WrapperStage.dropped, List.countP_nil]
      omega
  case case8 terminalClass batch failures =>
      rw [accounted_send]
      split <;> simp [WrapperStage.items, WrapperStage.dropped, SchedulerMsg.items]
  case case18 =>
      rw [accounted_unregister]
      split <;> simp [WrapperStage.items, WrapperStage.dropped]
  case case19 =>
      have moved := accounted_setDeque state meets wrapper.server [] (.inr rfl)
      simp only [Option.elim_some, WrapperStage.items, WrapperStage.dropped,
        List.countP_nil] at moved ⊢
      exact moved
  case case20 stranded =>
      split <;> simp_all [accounted_send, WrapperStage.items, WrapperStage.dropped,
        SchedulerMsg.items]
  all_goals
    simp only [accounted_send, Option.elim_some, Option.elim_none, WrapperStage.items,
      WrapperStage.dropped, SchedulerMsg.items, List.countP_cons, List.countP_nil]
  all_goals omega

/-- What a turn of a wrapper leaves alone. -/
structure Framed (state state' : Downloader) : Prop where
  work : state'.work = state.work
  taken : state'.taken = state.taken
  outcomes : state'.outcomes = state.outcomes
  pending : state'.pending = state.pending
  stage : state'.stage = state.stage
  queues : ∀ serverId, serverId ∈ state'.queues ↔ serverId ∈ state.queues
  wrappers : state'.wrappers = state.wrappers
  spawned : state'.spawned = state.spawned
  counters : state'.counters = state.counters

theorem framed_wrapperTurn {wrapper : Wrapper} {turn : WrapperTurn} {new : Option Wrapper}
    (turned : state.wrapperTurn wrapper turn wrapper.stage = some (state', new)) :
    state.Framed state' := by
  revert turned
  generalize wrapper.stage = stage
  fun_cases wrapperTurn <;> intro turned <;> cases turned
  case case2 => exact ⟨rfl, rfl, rfl, rfl, rfl, by simp [setDeque], rfl, rfl, rfl⟩
  case case18 => exact ⟨rfl, rfl, rfl, rfl, rfl, by simp [unregister], rfl, rfl, rfl⟩
  case case19 => exact ⟨rfl, rfl, rfl, rfl, rfl, by simp [setDeque], rfl, rfl, rfl⟩
  case case20 => split <;> exact ⟨rfl, rfl, rfl, rfl, rfl, fun _ => .rfl, rfl, rfl, rfl⟩
  all_goals exact ⟨rfl, rfl, rfl, rfl, rfl, fun _ => .rfl, rfl, rfl, rfl⟩

theorem accounted_wrapperNext {key : ℕ} {turn : WrapperTurn}
    (move : state.wrapperNext key turn = some state') :
    state'.accounted meets + (state.lost (.wrapper key turn)).countP meets +
      state.taken.countP meets = state.accounted meets + state'.taken.countP meets := by
  rcases Option.bind_eq_some_iff.mp move with ⟨wrapper, found, moved⟩
  rcases Option.map_eq_some_iff.mp moved with ⟨⟨turned, new⟩, isTurn, rfl⟩
  have spec := accounted_wrapperTurn meets isTurn
  have frame := framed_wrapperTurn isTurn
  have total := Registry.total_put state.wrappers key
    (fun wrapper => wrapper.stage.items.countP meets) new
  have lost : state.lost (.wrapper key turn) = wrapper.stage.dropped turn := by
    rw [Downloader.lost, found]
    rfl
  rw [found, Option.elim_some] at total
  simp only [accounted, inFlight, resolved, frame.taken, frame.wrappers] at spec total ⊢
  rw [lost]
  omega

end Downloader

end Rustnzb.News
