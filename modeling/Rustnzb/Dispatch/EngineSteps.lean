import Rustnzb.Dispatch.Engine

/-!
# What one step of the engine can do

Every item that is outstanding after a step was outstanding before it, was submitted by it, or is
what the step made of another item; and every report is one the step decided. Everything that the
later modules prove about runs is proved from these origins, never from the step function itself.
-/

namespace Rustnzb.Dispatch

open Lib

namespace Engine

inductive Resting (engine : Engine) (item : WorkItem) : Prop
  | queued (mem : item ∈ engine.queue.items)
  | inFlight (worker : Worker) (workerMem : worker ∈ engine.workers)
      (mem : item ∈ worker.inFlight)
  | held (jobId : JobId) (job : JobState) (registered : engine.jobs jobId = some job)
      (mem : item ∈ job.held.items)

def fetched (worker : Worker) (item : WorkItem) (result : FetchResult) : WorkItem :=
  item.note (.fetch worker.server.id worker.isPipelined result)

/-- The worker at `index` ends its fetch of `item` with `result`, which routes the item to
`route`. -/
structure Answered (engine : Engine) (event : Event) (next : Engine) (worker : Worker)
    (item : WorkItem) (result : FetchResult) (route : Route) : Prop where
  event_eq : ∃ index position, event = .answer index position result ∧
    engine.workers[index]? = some worker ∧ worker.inFlight[position]? = some item
  routed : RoutedBy next.providers worker.server.id worker.isPipelined
    (fetched worker item result) result route

theorem Answered.resting {engine next : Engine} {event : Event} {worker : Worker}
    {item : WorkItem} {result : FetchResult} {route : Route}
    (answered : Answered engine event next worker item result route) : engine.Resting item := by
  rcases answered.event_eq with ⟨index, position, -, isWorker, isItem⟩
  exact .inFlight worker (List.mem_of_getElem? isWorker) (List.mem_of_getElem? isItem)

/-- Queued, held, in flight or waiting for a confirm round. -/
def Outstanding (engine : Engine) (item : WorkItem) : Prop :=
  engine.Resting item ∨ item ∈ engine.delayed

inductive RestingOrigin (engine : Engine) (event : Event) (next : Engine) (item : WorkItem) : Prop
  | kept (before : engine.Resting item)
  | submitted (job : NzbJob) (enabledServerIds : List ServerId) (deferVolumes : Bool)
      (order : IterationOrder) (event_eq : event = .submit job enabledServerIds deferVolumes order)
      (mem : item ∈ buildWorkItems job enabledServerIds)
  | requeued (worker : Worker) (old : WorkItem) (result : FetchResult)
      (answered : Answered engine event next worker old result (.requeued item))
  | unanswered (worker : Worker) (old : WorkItem) (workerMem : worker ∈ engine.workers)
      (oldMem : old ∈ worker.inFlight) (item_eq : item = fetched worker old .unanswered)
  | woken (old : WorkItem) (oldMem : old ∈ engine.delayed) (item_eq : item = old.note .waited)

/-- Where an item of `next` that waits for a confirm round comes from. -/
inductive DelayedOrigin (engine : Engine) (event : Event) (next : Engine) (item : WorkItem) : Prop
  | kept (before : item ∈ engine.delayed)
  | confirming (worker : Worker) (old confirmed : WorkItem) (result : FetchResult)
      (answered : Answered engine event next worker old result (.confirming confirmed))
      (item_eq : item = confirmed.note (.confirm next.providers.requiredIds))

inductive ReportOrigin (engine : Engine) (event : Event) (next : Engine) (report : Report) : Prop
  | kept (before : report ∈ engine.reports)
  | routed (worker : Worker) (old : WorkItem) (result : FetchResult) (failure : FailureReport)
      (answered : Answered engine event next worker old result (.failed failure))
      (report_eq : report = { failure := failure, providers := next.providers })
  | swept (old : WorkItem) (event_eq : event = .sweep) (oldMem : old ∈ engine.queue.items)
      (down : optionalDown engine.providers = true) (taken : sweepTakes engine.providers old = true)
      (active : engine.isActive old.jobId = true)
      (report_eq : report = { failure := sweepFailure old, providers := engine.providers })

structure StepFacts (engine : Engine) (event : Event) (next : Engine) : Prop where
  resting : ∀ item, next.Resting item → RestingOrigin engine event next item
  delayed : ∀ item ∈ next.delayed, DelayedOrigin engine event next item
  reports : ∀ report ∈ next.reports, ReportOrigin engine event next report
  servers : next.providers.servers = engine.providers.servers ∨ ∃ servers,
    event = .setServers servers ∧
      next = { engine with providers := { engine.providers with servers := servers } }

section Parts

variable {engine next : Engine} {event : Event}

variable {item : WorkItem} {index : ℕ}

theorem Resting.of_queue (after : next.Resting item) (engine : Engine)
    (workers : next.workers = engine.workers) (jobs : next.jobs = engine.jobs) :
    item ∈ next.queue.items ∨ engine.Resting item := by
  cases after with
  | queued mem => exact Or.inl mem
  | inFlight worker workerMem mem => exact Or.inr (.inFlight worker (workers ▸ workerMem) mem)
  | held jobId job registered mem => exact Or.inr (.held jobId job (jobs ▸ registered) mem)

theorem Resting.of_providers {providers : Providers}
    (after : { engine with providers := providers }.Resting item) : engine.Resting item := by
  rcases after.of_queue engine rfl rfl with mem | before
  · exact .queued mem
  · exact before

theorem StepFacts.of_moved (resting : ∀ item, next.Resting item → engine.Resting item)
    (delayed : next.delayed = engine.delayed) (reports : next.reports = engine.reports)
    (servers : next.providers.servers = engine.providers.servers) :
    StepFacts engine event next where
  resting _ after := .kept (resting _ after)
  delayed _ mem := .kept (delayed ▸ mem)
  reports _ mem := .kept (reports ▸ mem)
  servers := Or.inl servers

theorem resting_setWorker {worker : Worker} (after : (engine.setWorker index worker).Resting item) :
    item ∈ worker.inFlight ∨ engine.Resting item := by
  cases after with
  | queued mem => exact Or.inr (.queued mem)
  | inFlight other otherMem mem =>
      rcases List.mem_or_eq_of_mem_set otherMem with before | rfl
      · exact Or.inr (.inFlight other before mem)
      · exact Or.inl mem
  | held jobId job registered mem => exact Or.inr (.held jobId job registered mem)

theorem mem_foldl_pushFront {change : WorkItem → WorkItem} {items : List WorkItem}
    {queue : SharedWorkQueue} :
    item ∈ (items.foldl (fun queue old => queue.pushFront (change old)) queue).items ↔
      item ∈ queue.items ∨ ∃ old ∈ items, item = change old := by
  induction items generalizing queue with
  | nil => simp
  | cons first rest ih =>
      rw [List.foldl_cons, ih]
      simp only [SharedWorkQueue.pushFront, List.mem_cons, exists_eq_or_imp]
      tauto

theorem mem_requeueAll {worker : Worker} {items : List WorkItem} :
    item ∈ (engine.requeueAll worker items).queue.items ↔
      item ∈ engine.queue.items ∨ ∃ old ∈ items, item = fetched worker old .unanswered :=
  mem_foldl_pushFront

theorem resting_requeueAll {worker : Worker} {items : List WorkItem}
    (after : (engine.requeueAll worker items).Resting item) :
    engine.Resting item ∨ ∃ old ∈ items, item = fetched worker old .unanswered := by
  rcases after.of_queue engine rfl rfl with mem | before
  · rcases mem_requeueAll.mp mem with before | made
    · exact Or.inl (.queued before)
    · exact Or.inr made
  · exact Or.inl before

theorem resting_follow {route : Route} (after : (engine.follow route).Resting item) :
    engine.Resting item ∨ route = .requeued item := by
  cases route with
  | requeued routed =>
      rcases after.of_queue engine rfl rfl with mem | before
      · rcases List.mem_cons.mp mem with rfl | before
        · exact Or.inr rfl
        · exact Or.inl (.queued before)
      · exact Or.inl before
  | _ =>
      rcases after.of_queue engine rfl rfl with mem | before
      · exact Or.inl (.queued mem)
      · exact Or.inl before

variable {jobId : JobId}

theorem resting_setJob {job : Option JobState} (after : (engine.setJob jobId job).Resting item) :
    engine.Resting item ∨ ∃ state, job = some state ∧ item ∈ state.held.items := by
  cases after with
  | queued mem => exact Or.inl (.queued mem)
  | inFlight worker workerMem mem => exact Or.inl (.inFlight worker workerMem mem)
  | held otherId other registered mem =>
      by_cases same : otherId = jobId
      · subst same
        exact Or.inr ⟨other, by simpa [setJob] using registered, mem⟩
      · exact Or.inl (.held otherId other (by simpa [setJob, same] using registered) mem)

theorem resting_setJob_of_held {job : Option JobState}
    (held : ∀ state, job = some state → ∃ before, engine.jobs jobId = some before ∧
      ∀ item ∈ state.held.items, item ∈ before.held.items)
    (after : (engine.setJob jobId job).Resting item) : engine.Resting item := by
  rcases resting_setJob after with before | ⟨state, isState, mem⟩
  · exact before
  · rcases held state isState with ⟨before, registered, sub⟩
    exact .held jobId before registered (sub item mem)

theorem submit_facts (job : NzbJob) (enabledServerIds : List ServerId) (deferVolumes : Bool)
    (order : IterationOrder) :
    StepFacts engine (.submit job enabledServerIds deferVolumes order)
      (engine.submit job enabledServerIds deferVolumes order) := by
  simp only [submit]
  split
  · exact .of_moved (fun _ after => after) rfl rfl rfl
  · set split := if deferVolumes && !(deferrableVolumes job).entries.isEmpty then
        HeldVolumes.new.hold order (buildWorkItems job enabledServerIds) (deferrableVolumes job)
      else (buildWorkItems job enabledServerIds, HeldVolumes.new) with splitEq
    have built : ∀ item, item ∈ split.1 ∨ item ∈ split.2.items →
        item ∈ buildWorkItems job enabledServerIds := by
      intro item mem
      rw [splitEq] at mem
      split at mem
      · rw [← List.mem_append] at mem
        exact (hold_perm order _ _ _).mem_iff.mp mem
      · simpa [HeldVolumes.new, HeldVolumes.items] using mem
    refine ⟨fun item after => ?_, fun _ mem => .kept mem, fun _ mem => .kept mem, Or.inl rfl⟩
    rcases after.of_queue (engine.setJob job.id _) rfl rfl with queued | after
    · rcases SharedWorkQueue.mem_submitItems.mp queued with before | now
      · exact .kept (.queued before)
      · exact .submitted job enabledServerIds deferVolumes order rfl (built item (Or.inl now))
    · rcases resting_setJob after with before | ⟨state, isState, mem⟩
      · exact .kept before
      · cases isState
        exact .submitted job enabledServerIds deferVolumes order rfl (built item (Or.inr mem))

theorem releaseHeld_facts {need : Option ℕ} (move : engine.releaseHeld jobId need = some next) :
    StepFacts engine event next := by
  simp only [releaseHeld] at move
  split at move
  · simp at move
  next job registered =>
    split at move
    · simp at move
    · have perm := releaseFor_perm job.held need
      cases move
      refine .of_moved (fun item after => ?_) rfl rfl rfl
      have sub : ∀ item ∈ ((job.held.releaseFor need).1).getD [] ++
          (job.held.releaseFor need).2.items, engine.Resting item :=
        fun item mem => .held jobId job registered (perm ▸ mem)
      rcases after.of_queue (engine.setJob jobId _) rfl rfl with queued | after
      · rcases SharedWorkQueue.mem_submitItems.mp queued with before | released
        · exact .queued before
        · exact sub item (List.mem_append_left _ released)
      · rcases resting_setJob after with before | ⟨state, isState, mem⟩
        · exact before
        · cases isState
          exact sub item (List.mem_append_right _ mem)

theorem take_facts (move : engine.take index = some next) : StepFacts engine event next := by
  simp only [take] at move
  split at move
  · simp at move
  next worker isWorker =>
    split at move
    · simp at move
    · split at move
      · simp at move
      next item queue popped =>
        have perm := (SharedWorkQueue.popWorkable_eq_some popped).2
        have fromQueue : ∀ other, other = item ∨ other ∈ queue.items → engine.Resting other := by
          intro other mem
          rw [← List.mem_cons] at mem
          exact .queued (perm.mem_iff.mpr mem)
        have dropped : StepFacts engine event { engine with queue := queue } := by
          refine .of_moved (fun other after => ?_) rfl rfl rfl
          rcases after.of_queue engine rfl rfl with mem | before
          · exact fromQueue other (Or.inr mem)
          · exact before
        split at move
        · cases move
          exact dropped
        next job registered =>
          split at move
          · cases move
            exact dropped
          · split at move
            · cases move
              refine .of_moved (fun other after => ?_) rfl rfl rfl
              rcases after.of_queue engine rfl rfl with mem | before
              · simp only [SharedWorkQueue.pushBack, List.mem_append, List.mem_singleton] at mem
                exact fromQueue other mem.symm
              · exact before
            · cases move
              refine .of_moved (fun other after => ?_) rfl rfl rfl
              rcases after.of_queue (engine.setWorker index _) rfl rfl with mem | after
              · exact fromQueue other (Or.inr mem)
              · rcases resting_setWorker after with mem | before
                · rcases List.mem_append.mp mem with held | taken
                  · exact .inFlight worker (List.mem_of_getElem? isWorker) held
                  · exact fromQueue other (Or.inl (List.mem_singleton.mp taken))
                · exact before

@[simp] theorem providers_follow (route : Route) :
    (engine.follow route).providers = engine.providers := by
  cases route <;> rfl

theorem delayed_follow {route : Route} (mem : item ∈ (engine.follow route).delayed) :
    item ∈ engine.delayed ∨ ∃ confirmed, route = .confirming confirmed ∧
      item = confirmed.note (.confirm engine.providers.requiredIds) := by
  cases route with
  | confirming confirmed =>
      rcases List.mem_append.mp mem with before | new
      · exact Or.inl before
      · exact Or.inr ⟨confirmed, rfl, List.mem_singleton.mp new⟩
  | _ => exact Or.inl mem

theorem reports_follow {route : Route} {report : Report}
    (mem : report ∈ (engine.follow route).reports) :
    report ∈ engine.reports ∨ ∃ failure, route = .failed failure ∧
      report = { failure := failure, providers := engine.providers } := by
  cases route with
  | failed failure =>
      rcases List.mem_append.mp mem with before | new
      · exact Or.inl before
      · exact Or.inr ⟨failure, rfl, List.mem_singleton.mp new⟩
  | _ => exact Or.inl mem

theorem answer_spec {position : ℕ} {result : FetchResult}
    (move : engine.answer index position result = some next) :
    ∃ worker item arm left others, engine.workers[index]? = some worker ∧
      worker.inFlight[position]? = some item ∧
      (∀ other ∈ left ++ others, other ∈ worker.inFlight) ∧
      arm = engine.armOf worker (fetched worker item result) result ∧
      next = ((({ engine with providers := arm.providers }.follow arm.route).setWorker index
        { worker with inFlight := left }).requeueAll worker others) := by
  simp only [answer] at move
  split at move
  · simp at move
  next worker isWorker =>
    split at move
    · simp at move
    next item isItem =>
      split at move
      · simp at move
      · have sub : ∀ other ∈ worker.inFlight.eraseIdx position, other ∈ worker.inFlight :=
          fun other mem => List.mem_of_mem_eraseIdx mem
        refine ⟨worker, item, engine.armOf worker (fetched worker item result) result, ?_⟩
        have nextEq := Option.some.inj move
        rw [← nextEq]
        by_cases all : (engine.armOf worker (fetched worker item result) result).requeuesAll = true
        · refine ⟨[], worker.inFlight.eraseIdx position, isWorker, isItem, by simpa using sub, rfl,
            ?_⟩
          simp only [fetched] at all ⊢
          rw [if_pos all, if_pos all]
        · refine ⟨worker.inFlight.eraseIdx position, [], isWorker, isItem, by simpa using sub, rfl,
            ?_⟩
          simp only [fetched] at all ⊢
          rw [if_neg all, if_neg all]
          rfl

theorem answer_facts {position : ℕ} {result : FetchResult}
    (move : engine.answer index position result = some next) :
    StepFacts engine (.answer index position result) next := by
  rcases answer_spec move with
    ⟨worker, item, arm, left, others, isWorker, isItem, sub, rfl, rfl⟩
  set arm := engine.armOf worker (fetched worker item result) result with armEq
  set after := (({ engine with providers := arm.providers }.follow arm.route).setWorker index
    { worker with inFlight := left }).requeueAll worker others with afterEq
  have providersEq : after.providers = arm.providers := providers_follow arm.route
  have workerMem : worker ∈ engine.workers := List.mem_of_getElem? isWorker
  have answered : ∀ route, arm.route = route →
      Answered engine (.answer index position result) after worker item result route := by
    rintro route rfl
    refine ⟨⟨index, position, rfl, isWorker, isItem⟩, ?_⟩
    rw [providersEq]
    exact workerArm_routedBy
  refine ⟨fun other resting => ?_, fun other mem => ?_, fun report mem => ?_, Or.inl ?_⟩
  · rcases resting_requeueAll resting with resting | ⟨old, oldMem, rfl⟩
    · rcases resting_setWorker resting with mem | resting
      · exact .kept (.inFlight worker workerMem (sub other (List.mem_append_left _ mem)))
      · rcases resting_follow resting with before | routed
        · exact .kept before.of_providers
        · exact .requeued worker item result (answered _ routed)
    · exact .unanswered worker old workerMem (sub old (List.mem_append_right _ oldMem)) rfl
  · rcases delayed_follow mem with before | ⟨confirmed, routed, rfl⟩
    · exact .kept before
    · exact .confirming worker item confirmed result (answered _ routed) (by rw [providersEq])
  · rcases reports_follow mem with before | ⟨failure, routed, rfl⟩
    · exact .kept before
    · exact .routed worker item result failure (answered _ routed) (by rw [providersEq])
  · rw [providersEq]
    exact servers_workerArm

theorem letGo_facts (move : engine.letGo index = some next) : StepFacts engine event next := by
  simp only [letGo] at move
  split at move
  · simp at move
  next worker isWorker =>
    cases move
    have workerMem : worker ∈ engine.workers := List.mem_of_getElem? isWorker
    refine ⟨fun other resting => ?_, fun _ mem => .kept mem, fun _ mem => .kept mem, Or.inl rfl⟩
    rcases resting_requeueAll resting with resting | ⟨old, oldMem, rfl⟩
    · rcases resting_setWorker resting with mem | before
      · simp at mem
      · exact .kept before
    · exact .unanswered worker old workerMem oldMem rfl

theorem wake_facts {position : ℕ} (move : engine.wake position = some next) :
    StepFacts engine event next := by
  simp only [wake] at move
  split at move
  · simp at move
  next item isItem =>
    cases move
    refine ⟨fun other resting => ?_, fun _ mem => .kept (List.mem_of_mem_eraseIdx mem),
      fun _ mem => .kept mem, Or.inl rfl⟩
    rcases resting.of_queue engine rfl rfl with mem | before
    · rcases List.mem_cons.mp mem with rfl | before
      · exact .woken item (List.mem_of_getElem? isItem) rfl
      · exact .kept (.queued before)
    · exact .kept before

theorem sweep_facts : StepFacts engine .sweep engine.sweep := by
  simp only [sweep]
  split
  · exact .of_moved (fun _ after => after) rfl rfl rfl
  next down =>
    refine ⟨fun other resting => ?_, fun _ mem => .kept mem, fun report mem => ?_, Or.inl rfl⟩
    · rcases resting.of_queue engine rfl rfl with mem | before
      · exact .kept (.queued (List.mem_of_mem_filter mem))
      · exact .kept before
    · rcases List.mem_append.mp mem with before | new
      · exact .kept before
      · simp only [List.mem_map, List.mem_filter, SharedWorkQueue.takeWhere] at new
        rcases new with ⟨old, ⟨⟨oldMem, taken⟩, active⟩, rfl⟩
        exact .swept old rfl oldMem (by simpa using down) taken active rfl

theorem drainJob_facts {job : Option JobState}
    (held : ∀ state, job = some state → ∃ before, engine.jobs jobId = some before ∧
      ∀ item ∈ state.held.items, item ∈ before.held.items) :
    StepFacts engine event
      { engine.setJob jobId job with queue := (engine.queue.drainJob jobId).2 } := by
  refine .of_moved (fun item after => ?_) rfl rfl rfl
  rcases after.of_queue (engine.setJob jobId job) rfl rfl with mem | after
  · exact .queued (List.mem_of_mem_filter mem)
  · exact resting_setJob_of_held held after

theorem abort_facts : StepFacts engine event (engine.abort jobId) := by
  simp only [abort]
  split
  · exact .of_moved (fun _ after => after) rfl rfl rfl
  next job registered =>
    split
    · exact .of_moved (fun _ after => after) rfl rfl rfl
    · apply drainJob_facts
      rintro state ⟨⟩
      exact ⟨job, registered, fun _ mem => mem⟩

theorem cancel_facts : StepFacts engine event (engine.cancel jobId) := by
  simp only [cancel]
  split
  · exact .of_moved (fun _ after => after) rfl rfl rfl
  · exact drainJob_facts (by simp)

theorem changeJob_facts {change : JobState → JobState}
    (keepsHeld : ∀ job, (change job).held = job.held) :
    StepFacts engine event (engine.changeJob jobId change) := by
  refine .of_moved (fun item after => resting_setJob_of_held ?_ after) rfl rfl rfl
  intro state isState
  rcases Option.map_eq_some_iff.mp isState with ⟨before, registered, rfl⟩
  exact ⟨before, registered, by simp [keepsHeld]⟩

theorem withProviders_facts {providers : Providers}
    (servers : providers.servers = engine.providers.servers ∨ ∃ servers,
      event = .setServers servers ∧ { engine with providers := providers } =
        { engine with providers := { engine.providers with servers := servers } }) :
    StepFacts engine event { engine with providers := providers } := by
  exact ⟨fun _ after => .kept after.of_providers, fun _ mem => .kept mem, fun _ mem => .kept mem,
    servers⟩

theorem spawn_facts {server : ServerConfig} {gate : List ServerId} :
    StepFacts engine event { engine with
      workers := engine.workers ++ [{ server := server, gate := gate, inFlight := [] }] } := by
  refine .of_moved (fun item after => ?_) rfl rfl rfl
  cases after with
  | queued mem => exact .queued mem
  | inFlight worker workerMem mem =>
      rcases List.mem_append.mp workerMem with before | new
      · exact .inFlight worker before mem
      · rw [List.mem_singleton.mp new] at mem
        simp at mem
  | held jobId job registered mem => exact .held jobId job registered mem

theorem readGate_facts (move : engine.readGate index = some next) :
    StepFacts engine event next := by
  simp only [readGate] at move
  split at move
  · simp at move
  next worker isWorker =>
    split at move
    · cases move
      refine .of_moved (fun item after => ?_) rfl rfl rfl
      rcases resting_setWorker after with mem | before
      · exact .inFlight worker (List.mem_of_getElem? isWorker) mem
      · exact before
    · simp at move

end Parts

theorem not_resting_start {servers : List ServerConfig} {item : WorkItem} :
    ¬(start servers).Resting item := by
  intro resting
  cases resting with
  | queued mem => simp [start, SharedWorkQueue.new] at mem
  | inFlight worker workerMem mem => simp [start] at workerMem
  | held jobId job registered mem => simp [start] at registered

theorem Step.facts {engine next : Engine} {event : Event} (move : Step engine event next) :
    StepFacts engine event next := by
  cases event with
  | submit job enabledServerIds deferVolumes order =>
      cases move
      exact submit_facts job enabledServerIds deferVolumes order
  | releaseHeld jobId need => exact releaseHeld_facts move
  | setServers servers =>
      cases move
      exact withProviders_facts (Or.inr ⟨servers, rfl, rfl⟩)
  | elapse | connected | connectFailed =>
      cases move
      exact withProviders_facts (Or.inl rfl)
  | spawn server =>
      simp only [Step, step] at move
      split at move
      · cases move
        exact spawn_facts
      · simp at move
  | readGate worker => exact readGate_facts move
  | take worker => exact take_facts move
  | answer worker item result => exact answer_facts move
  | letGo worker => exact letGo_facts move
  | wake item => exact wake_facts move
  | sweep =>
      cases move
      exact sweep_facts
  | pause | resume =>
      cases move
      exact changeJob_facts fun _ => rfl
  | abort jobId =>
      cases move
      exact abort_facts
  | cancel jobId =>
      cases move
      exact cancel_facts
  | releaseCompleted jobId =>
      cases move
      exact .of_moved (fun item after => resting_setJob_of_held (by simp) after) rfl rfl rfl

theorem step_functional (engine : Engine) (event : Event) (next other : Engine)
    (move : Step engine event next) (move' : Step engine event other) : next = other :=
  Option.some.inj (move.symm.trans move')

theorem run_of_execute {init next : Engine} {events : List Event}
    (executed : execute step init events = some next) : Run Step init events next :=
  Run.of_execute (fun _ _ _ => id) Run.start executed

def provider (id : ServerId) (optional : Bool) : ServerConfig :=
  { id := id, enabled := true, priority := 0, optional := optional, pipelining := 1 }

def oneArticleJob (triedServers : List ServerId) : NzbJob where
  id := "j"
  files := [{
    id := "f", filename := "f", par2Vol := none, par2Blocks := none
    articles := [{
      messageId := "m", segmentNumber := 1, downloaded := false, dataBegin := none
      dataSize := none, triedServers := triedServers }] }]

def listedAsIs : IterationOrder where
  list := id
  perm := List.Perm.refl

end Engine

end Rustnzb.Dispatch
