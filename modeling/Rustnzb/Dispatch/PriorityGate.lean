import Rustnzb.Dispatch.EngineSteps

/-!
# The priority gate and changing health

A worker reads which servers of higher priority are healthy at the top of its loop, and applies
that list to every item it takes until it comes back there: for a whole pipeline fill, and for as
long as it waits for work. Circuits open and close meanwhile.
-/

namespace Rustnzb.Dispatch

open Lib

namespace Engine

/-- The enabled servers of higher priority than the worker's own. -/
def betters (servers : List ServerConfig) (worker : Worker) : List ServerConfig :=
  servers.filter fun server =>
    server.enabled && decide (server.priority < worker.server.priority) &&
      decide (server.id ≠ worker.server.id)

def BettersTried (servers : List ServerConfig) (providers : Providers) (worker : Worker)
    (item : WorkItem) : Prop :=
  ∀ better ∈ betters servers worker, providers.isAvailable better.id = true →
    better.id ∈ item.triedServers

instance (servers : List ServerConfig) (providers : Providers) (worker : Worker)
    (item : WorkItem) : Decidable (BettersTried servers providers worker item) :=
  inferInstanceAs (Decidable (∀ better ∈ betters servers worker,
    providers.isAvailable better.id = true → better.id ∈ item.triedServers))

/-- The worker's next poll takes the item, or takes another first and may then take this one. -/
def TakenAtPoll (engine : Engine) (worker : Worker) (item : WorkItem) : Prop :=
  ∃ popped rest, engine.queue.popWorkable worker.server.id worker.gate = some (popped, rest) ∧
    (popped = item ∨
      item ∈ rest.items ∧ SharedWorkQueue.isEligible worker.server.id worker.gate item = true)

/-- The worker's list is what the servers of higher priority were at this reading. -/
def HasGate (engine : Engine) (index : ℕ) (reading : Providers) : Prop :=
  ∃ worker, engine.workers[index]? = some worker ∧
    worker.gate = reading.higherPriorityServers worker.server.priority worker.server.id

section Frames

variable {engine next : Engine} {index : ℕ} {reading : Providers}

theorem mem_higherPriorityServers_iff {providers : Providers} {worker : Worker} {id : ServerId} :
    id ∈ providers.higherPriorityServers worker.server.priority worker.server.id ↔
      ∃ better ∈ betters providers.servers worker, better.id = id ∧
        providers.isAvailable id = true := by
  simp only [Providers.higherPriorityServers, betters, List.mem_map, List.mem_filter,
    Bool.and_eq_true, decide_eq_true_eq]
  constructor
  · rintro ⟨server, ⟨serverMem, isBetter, available⟩, rfl⟩
    exact ⟨server, ⟨serverMem, isBetter⟩, rfl, available⟩
  · rintro ⟨server, ⟨serverMem, isBetter⟩, rfl, available⟩
    exact ⟨server, ⟨serverMem, isBetter, available⟩, rfl⟩

theorem HasGate.of_workers (has : engine.HasGate index reading)
    (workers : next.workers = engine.workers) : next.HasGate index reading := by
  unfold HasGate
  rw [workers]
  exact has

theorem getElem?_setWorker_self {worker worker' : Worker}
    (isWorker : engine.workers[index]? = some worker) :
    (engine.setWorker index worker').workers[index]? = some worker' := by
  have bound := (List.getElem?_eq_some_iff.mp isWorker).1
  simp [Engine.setWorker, bound]

theorem HasGate.setWorker {changed : ℕ} {worker worker' : Worker}
    (has : engine.HasGate index reading) (isWorker : engine.workers[changed]? = some worker)
    (server : worker'.server = worker.server) (gate : worker'.gate = worker.gate) :
    (engine.setWorker changed worker').HasGate index reading := by
  rcases has with ⟨holder, isHolder, isGate⟩
  by_cases same : changed = index
  · subst same
    rw [isWorker, Option.some.injEq] at isHolder
    subst isHolder
    refine ⟨worker', getElem?_setWorker_self isWorker, ?_⟩
    rw [gate, server]
    exact isGate
  · exact ⟨holder, by simp [Engine.setWorker, same, isHolder], isGate⟩

@[simp] theorem workers_follow (route : Route) :
    (engine.follow route).workers = engine.workers := by
  cases route <;> rfl

theorem HasGate.keep {event : Event} (has : engine.HasGate index reading)
    (move : Step engine event next) (notRead : event ≠ .readGate index) :
    next.HasGate index reading := by
  cases event with
  | submit job enabledServerIds deferVolumes order =>
      cases move
      apply has.of_workers
      simp only [submit]
      split <;> rfl
  | releaseHeld jobId need =>
      simp only [Step, step, releaseHeld] at move
      split at move
      · simp at move
      · split at move
        · simp at move
        · cases move
          exact has.of_workers rfl
  | setServers | elapse | connected | connectFailed | pause | resume | releaseCompleted =>
      cases move
      exact has.of_workers rfl
  | spawn server =>
      simp only [Step, step] at move
      split at move
      · cases move
        rcases has with ⟨holder, isHolder, isGate⟩
        have bound := (List.getElem?_eq_some_iff.mp isHolder).1
        exact ⟨holder, by rw [List.getElem?_append_left bound, isHolder], isGate⟩
      · simp at move
  | readGate read =>
      have other : read ≠ index := fun same => notRead (same ▸ rfl)
      simp only [Step, step, readGate] at move
      split at move
      · simp at move
      · split at move
        · cases move
          rcases has with ⟨holder, isHolder, isGate⟩
          exact ⟨holder, by simp [Engine.setWorker, other, isHolder], isGate⟩
        · simp at move
  | take taker =>
      simp only [Step, step, take] at move
      split at move
      · simp at move
      next worker isWorker =>
        split at move
        · simp at move
        · split at move
          · simp at move
          next item queue popped =>
            have taken : (engine.setWorker taker { worker with
                inFlight := worker.inFlight ++ [item] }).HasGate index reading :=
              has.setWorker isWorker rfl rfl
            split at move
            · cases move
              exact has.of_workers rfl
            · split at move
              · cases move
                exact has.of_workers rfl
              · split at move
                · cases move
                  exact has.of_workers rfl
                · cases move
                  exact taken.of_workers rfl
  | answer answering position result =>
      rcases answer_spec move with
        ⟨worker, item, arm, left, others, isWorker, -, -, -, rfl⟩
      have kept : ({ engine with providers := arm.providers }.follow arm.route).HasGate index
          reading := has.of_workers (workers_follow _)
      have isWorker' : ({ engine with providers := arm.providers }.follow
          arm.route).workers[answering]? = some worker := by
        rw [workers_follow]
        exact isWorker
      have givenBack : (({ engine with providers := arm.providers }.follow arm.route).setWorker
          answering { worker with inFlight := left }).HasGate index reading :=
        kept.setWorker isWorker' rfl rfl
      exact givenBack.of_workers rfl
  | letGo worker =>
      simp only [Step, step, letGo] at move
      split at move
      · simp at move
      next holder isHolder =>
        cases move
        have emptied : (engine.setWorker worker { holder with inFlight := [] }).HasGate index
            reading := has.setWorker isHolder rfl rfl
        exact emptied.of_workers rfl
  | wake item =>
      simp only [Step, step, wake] at move
      split at move
      · simp at move
      · cases move
        exact has.of_workers rfl
  | sweep =>
      cases move
      apply has.of_workers
      simp only [sweep]
      split <;> rfl
  | abort jobId =>
      cases move
      apply has.of_workers
      simp only [abort]
      split
      · rfl
      · split <;> rfl
  | cancel jobId =>
      cases move
      apply has.of_workers
      simp only [cancel]
      split <;> rfl

theorem hasGate_of_readGate (move : Step engine (.readGate index) next) :
    next.HasGate index engine.providers := by
  simp only [Step, Engine.step, readGate] at move
  split at move
  · simp at move
  next worker isWorker =>
    split at move
    · cases move
      exact ⟨_, getElem?_setWorker_self isWorker, rfl⟩
    · simp at move

theorem hasGate_of_run {after : List Event} (run : Run Step engine after next)
    (has : engine.HasGate index reading) (notRead : Event.readGate index ∉ after) :
    next.HasGate index reading := by
  induction run with
  | start => exact has
  | snoc run move ih =>
      simp only [List.mem_append, List.mem_singleton, not_or] at notRead
      exact (ih notRead.1).keep move (Ne.symm notRead.2)

theorem servers_of_run {servers : List ServerConfig} {events : List Event}
    (run : Run Step (start servers) events engine)
    (fixed : ∀ changed, Event.setServers changed ∉ events) :
    engine.providers.servers = servers := by
  induction run with
  | start => rfl
  | snoc run move ih =>
      simp only [List.mem_append, List.mem_singleton, not_or] at fixed
      rcases move.facts.servers with same | ⟨changed, isSet, -⟩
      · exact same.trans (ih fun changed => (fixed changed).1)
      · exact absurd isSet.symm (fixed changed).2

theorem takenAtPoll_iff {worker : Worker} {item : WorkItem} (itemMem : item ∈ engine.queue.items) :
    engine.TakenAtPoll worker item ↔
      SharedWorkQueue.isEligible worker.server.id worker.gate item = true := by
  constructor
  · rintro ⟨popped, rest, isPopped, rfl | ⟨-, eligible⟩⟩
    · exact (SharedWorkQueue.popWorkable_eq_some isPopped).1
    · exact eligible
  · intro eligible
    have some := SharedWorkQueue.popWorkable_isSome_iff.mpr ⟨item, itemMem, eligible⟩
    rcases Option.isSome_iff_exists.mp some with ⟨⟨popped, rest⟩, isPopped⟩
    refine ⟨popped, rest, isPopped, ?_⟩
    have stays := (SharedWorkQueue.popWorkable_eq_some isPopped).2.mem_iff.mp itemMem
    rcases List.mem_cons.mp stays with same | left
    · exact .inl same.symm
    · exact .inr ⟨left, eligible⟩

end Frames

/-- When a worker uses its server only where better ones cannot serve, and does use it then: for
each item it depends on the circuits that changed since the worker last read its list. -/
theorem betters_first_iff {servers : List ServerConfig} {before after : List Event}
    {reading engine : Engine} {index : ℕ} {worker : Worker}
    (fixed : ∀ changed, Event.setServers changed ∉ before ++ .readGate index :: after)
    (readRun : Run Step (start servers) before reading)
    (run : Run Step (start servers) (before ++ .readGate index :: after) engine)
    (lastRead : Event.readGate index ∉ after) (isWorker : engine.workers[index]? = some worker) :
    (∀ item rest, engine.queue.popWorkable worker.server.id worker.gate = some (item, rest) →
      (BettersTried servers engine.providers worker item ↔
        ∀ better ∈ betters servers worker, better.id ∉ item.triedServers →
          engine.providers.isAvailable better.id = true →
            reading.providers.isAvailable better.id = true)) ∧
      ∀ item ∈ engine.queue.items, worker.server.id ∉ item.triedServers →
        BettersTried servers engine.providers worker item →
          (engine.TakenAtPoll worker item ↔
            ∀ better ∈ betters servers worker, better.id ∉ item.triedServers →
              reading.providers.isAvailable better.id = true →
                engine.providers.isAvailable better.id = true) := by
  have readServers : reading.providers.servers = servers :=
    servers_of_run readRun fun changed mem => fixed changed (List.mem_append_left _ mem)
  have isGate : worker.gate =
      reading.providers.higherPriorityServers worker.server.priority worker.server.id := by
    rcases run.exists_step with ⟨middle, read, upTo, move, readUpTo⟩
    rw [Run.unique step_functional upTo readRun] at move
    rw [List.append_cons] at run
    have rest := Run.of_append_of_functional step_functional run readUpTo
    rcases hasGate_of_run rest (hasGate_of_readGate move) lastRead with ⟨holder, isHolder, gate⟩
    rw [isWorker, Option.some.injEq] at isHolder
    rw [isHolder]
    exact gate
  have eligible_iff : ∀ item, SharedWorkQueue.isEligible worker.server.id worker.gate item = true ↔
      worker.server.id ∉ item.triedServers ∧ ∀ better ∈ betters servers worker,
        reading.providers.isAvailable better.id = true → better.id ∈ item.triedServers := by
    intro item
    simp only [SharedWorkQueue.isEligible_iff, isGate, mem_higherPriorityServers_iff, readServers]
    constructor
    · rintro ⟨untried, gateTried⟩
      exact ⟨untried, fun better isBetter was =>
        gateTried better.id ⟨better, isBetter, rfl, was⟩⟩
    · rintro ⟨untried, betterTried⟩
      refine ⟨untried, ?_⟩
      rintro id ⟨better, isBetter, rfl, was⟩
      exact betterTried better isBetter was
  constructor
  · intro item rest popped
    have eligible := (eligible_iff item).mp (SharedWorkQueue.popWorkable_eq_some popped).1
    constructor
    · intro tried better isBetter untried available
      exact absurd (tried better isBetter available) untried
    · intro steady better isBetter available
      by_contra untried
      exact untried (eligible.2 better isBetter (steady better isBetter untried available))
  · intro item itemMem untried due
    rw [takenAtPoll_iff itemMem, eligible_iff]
    constructor
    · rintro ⟨-, tried⟩ better isBetter notTried was
      exact absurd (tried better isBetter was) notTried
    · intro steady
      refine ⟨untried, ?_⟩
      intro better isBetter was
      by_contra notTried
      exact notTried (due better isBetter (steady better isBetter notTried was))

def mainServer : ServerConfig :=
  { id := "main", enabled := true, priority := 0, optional := false, pipelining := 1 }

def backupServer : ServerConfig :=
  { id := "backup", enabled := true, priority := 1, optional := false, pipelining := 1 }

def addArticle : Event := .submit (oneArticleJob []) ["main", "backup"] false listedAsIs

theorem betters_first_iff_main_down :
    ∃ engine worker item rest,
      Run Step (start [mainServer, backupServer])
        [.connectFailed "main" true, .spawn backupServer, .readGate 0, addArticle] engine ∧
      engine.workers[0]? = some worker ∧
      engine.queue.popWorkable worker.server.id worker.gate = some (item, rest) ∧
      BettersTried [mainServer, backupServer] engine.providers worker item ∧
      engine.TakenAtPoll worker item := by
  have readRun : ∃ reading, Run Step (start [mainServer, backupServer])
      [.connectFailed "main" true, .spawn backupServer] reading ∧
      reading.providers.isAvailable "main" = false :=
    ⟨_, run_of_execute rfl, by decide⟩
  have run : ∃ engine worker item rest, Run Step (start [mainServer, backupServer])
      ([.connectFailed "main" true, .spawn backupServer] ++ .readGate 0 :: [addArticle]) engine ∧
      engine.workers[0]? = some worker ∧
      engine.queue.popWorkable worker.server.id worker.gate = some (item, rest) ∧
      engine.providers.isAvailable "main" = false ∧ worker.server = backupServer ∧
      item ∈ engine.queue.items ∧ "backup" ∉ item.triedServers :=
    ⟨_, _, _, _, run_of_execute rfl, rfl, rfl, by decide, rfl, List.mem_cons_self, by decide⟩
  rcases readRun with ⟨reading, readRun, wasDown⟩
  rcases run with ⟨engine, worker, item, rest, run, isWorker, popped, down, isBackup, queued,
    untried⟩
  have spec := betters_first_iff (by simp [addArticle]) readRun run (by simp [addArticle]) isWorker
  have onlyMain : ∀ better ∈ betters [mainServer, backupServer] worker, better.id = "main" := by
    rw [betters, isBackup]
    decide
  have tried : BettersTried [mainServer, backupServer] engine.providers worker item := by
    rw [spec.1 item rest popped]
    intro better isBetter _ available
    rw [onlyMain better isBetter, down] at available
    simp at available
  refine ⟨engine, worker, item, rest, run, isWorker, popped, tried, ?_⟩
  rw [spec.2 item queued (by rw [isBackup]; exact untried) tried]
  intro better isBetter _ was
  rw [onlyMain better isBetter, wasDown] at was
  simp at was

/-- The main server comes back a moment after the backup's worker has read its list and found no
work; an article added then goes to the backup. And the main server fails while the backup's
worker waits: the worker leaves the article where it is. -/
theorem not_betters_first :
    (¬ ∀ engine worker item rest,
      Run Step (start [mainServer, backupServer])
        [.connectFailed "main" true, .elapse 119999, .spawn backupServer, .readGate 0, .elapse 1,
          addArticle] engine →
      engine.workers[0]? = some worker →
      engine.queue.popWorkable worker.server.id worker.gate = some (item, rest) →
      BettersTried [mainServer, backupServer] engine.providers worker item) ∧
    ¬ ∀ engine worker item,
      Run Step (start [mainServer, backupServer])
        [.spawn backupServer, .readGate 0, addArticle, .connectFailed "main" true] engine →
      engine.workers[0]? = some worker → item ∈ engine.queue.items →
      worker.server.id ∉ item.triedServers →
      BettersTried [mainServer, backupServer] engine.providers worker item →
      engine.TakenAtPoll worker item := by
  constructor
  · intro claimed
    have tried := claimed _ _ _ _ (run_of_execute rfl) rfl rfl mainServer (by decide) (by decide)
    exact absurd tried (by decide)
  · intro claimed
    have taken := claimed _ _ _ (run_of_execute rfl) rfl List.mem_cons_self (by decide) (by decide)
    rw [takenAtPoll_iff List.mem_cons_self] at taken
    exact absurd taken (by decide)

end Engine

end Rustnzb.Dispatch
