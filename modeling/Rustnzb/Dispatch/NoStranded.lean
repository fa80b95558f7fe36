import Rustnzb.Dispatch.EngineSteps

/-!
# No stranded article

A queued item is stranded when no worker will ever take it and the supervisor will never fail it.
The priority gate strands nothing: of the enabled servers that an item has not been tried on, the
one of the highest priority gets through. So an item waits for somebody as long as it has such a
server, and a worker keeps it that way as long as each enabled server in `triedServers` has an
outcome in `providerOutcomes`. An item that a restarted job brings back with `triedServers` and
without the outcomes breaks this, and so does an edit of the server list.
-/

namespace Rustnzb.Dispatch

open Lib

/-- A worker of some enabled server can take the item once that server is healthy. -/
def Takeable (providers : Providers) (item : WorkItem) : Prop :=
  ∃ server ∈ providers.servers, server.enabled = true ∧
    SharedWorkQueue.isEligible server.id
      ((providers.recordSuccess server.id).higherPriorityServers server.priority server.id)
      item = true

/-- The next call of `resolve_items_not_waiting_on_required_providers` takes the item. -/
def SweepResolves (providers : Providers) (item : WorkItem) : Prop :=
  Engine.optionalDown providers = true ∧ Engine.sweepTakes providers item = true

def HasUntried (providers : Providers) (item : WorkItem) : Prop :=
  ∃ id ∈ providers.enabledIds, id ∉ item.triedServers

variable {providers : Providers}

theorem mem_enabledIds {id : ServerId} :
    id ∈ providers.enabledIds ↔
      ∃ server ∈ providers.servers, server.enabled = true ∧ server.id = id := by
  simp [Providers.enabledIds, and_assoc]

theorem enabledIds_congr {other : Providers} (servers : providers.servers = other.servers) :
    providers.enabledIds = other.enabledIds := by
  rw [Providers.enabledIds, servers, Providers.enabledIds]

theorem requiredIds_subset {id : ServerId} (required : id ∈ providers.requiredIds) :
    id ∈ providers.enabledIds := by
  rcases List.mem_map.mp required with ⟨server, serverMem, rfl⟩
  rcases List.mem_filter.mp serverMem with ⟨isServer, isRequired⟩
  simp only [Providers.isRequired, Bool.and_eq_true] at isRequired
  exact mem_enabledIds.mpr ⟨server, isServer, isRequired.1, rfl⟩

/-- The priority gate lets some enabled server through whenever one has not been tried. -/
theorem takeable_iff_hasUntried {item : WorkItem} :
    Takeable providers item ↔ HasUntried providers item := by
  constructor
  · rintro ⟨server, serverMem, enabled, eligible⟩
    exact ⟨server.id, mem_enabledIds.mpr ⟨server, serverMem, enabled, rfl⟩,
      (SharedWorkQueue.isEligible_iff.mp eligible).1⟩
  · rintro ⟨id, idMem, untried⟩
    set waiting := (providers.servers.filter fun server =>
      server.enabled && !item.triedServers.contains server.id).toFinset with waitingEq
    have waitingMem : ∀ server, server ∈ waiting ↔
        server ∈ providers.servers ∧ server.enabled = true ∧ server.id ∉ item.triedServers := by
      simp [waitingEq]
    have nonempty : waiting.Nonempty := by
      rcases mem_enabledIds.mp idMem with ⟨server, serverMem, enabled, rfl⟩
      exact ⟨server, (waitingMem server).mpr ⟨serverMem, enabled, untried⟩⟩
    -- the waiting server of the lowest priority number: whatever gates it has been tried
    rcases waiting.exists_min_image ServerConfig.priority nonempty with ⟨first, firstMem, lowest⟩
    rcases (waitingMem first).mp firstMem with ⟨isServer, enabled, firstUntried⟩
    refine ⟨first, isServer, enabled, SharedWorkQueue.isEligible_iff.mpr ⟨firstUntried, ?_⟩⟩
    intro gate gateMem
    rcases List.mem_map.mp gateMem with ⟨other, otherMem, rfl⟩
    simp only [Providers.recordSuccess, List.mem_filter, Bool.and_eq_true,
      decide_eq_true_eq] at otherMem
    rcases otherMem with ⟨otherServer, ⟨⟨otherEnabled, lower⟩, -⟩, -⟩
    by_contra otherUntried
    have := lowest other ((waitingMem other).mpr ⟨otherServer, otherEnabled, otherUntried⟩)
    omega

namespace Engine

/-- No queued item of a registered, unpaused job waits in vain. -/
def NoStranded (engine : Engine) : Prop :=
  ∀ item ∈ engine.queue.items, ∀ job, engine.jobs item.jobId = some job → job.paused = false →
    (Takeable engine.providers item ∨ SweepResolves engine.providers item) ∧
      ¬((∀ id ∈ engine.providers.enabledIds, id ∈ item.triedServers) ∧
        ∃ id ∈ engine.providers.enabledIds, id ∉ item.providerOutcomes)

/-- What a step must not do for the items to keep a server to wait for: bring in an item without
one, take the last one away, or record the outcome of the last one while the outcome of another is
missing. -/
def KeepsServerToAsk (engine : Engine) : Event → Prop
  | .submit job enabledServerIds _ _ =>
      ∀ item ∈ buildWorkItems job enabledServerIds, HasUntried engine.providers item
  | .setServers servers =>
      ∀ item, engine.Outstanding item → HasUntried { engine.providers with servers := servers } item
  | .answer index position result =>
      ∀ worker item, engine.workers[index]? = some worker →
        worker.inFlight[position]? = some item → result.records worker.isPipelined item = true →
        (∀ id ∈ engine.providers.enabledIds, id ∉ item.triedServers → id = worker.server.id) →
        ∀ id ∈ engine.providers.enabledIds, id ≠ worker.server.id → id ∈ item.providerOutcomes
  | _ => True

theorem keepsServerToAsk_submit {engine : Engine} {job : NzbJob} {deferVolumes : Bool}
    {order : IterationOrder} (someEnabled : engine.providers.enabledIds ≠ []) :
    engine.KeepsServerToAsk (.submit job engine.providers.enabledIds deferVolumes order) := by
  intro item itemMem
  rcases mem_buildWorkItems.mp itemMem with ⟨file, -, article, -, notDone, notFailed, rfl⟩
  exact exists_untried_of_not_previouslyFailed notDone notFailed someEnabled

theorem hasUntried_withOutcome {providers : Providers} {server : ServerId} {item : WorkItem}
    {kind : ArticleFailureKind} (undecided : allEnabledProvidersDefinitive providers
      (item.withOutcome server kind).providerOutcomes = false)
    (recorded : (∀ id ∈ providers.enabledIds, id ∉ item.triedServers → id = server) →
      ∀ id ∈ providers.enabledIds, id ≠ server → id ∈ item.providerOutcomes) :
    HasUntried providers (item.withOutcome server kind) := by
  by_contra allTried
  have tried : ∀ id ∈ providers.enabledIds, id ∉ item.triedServers → id = server := by
    intro id idMem untried
    by_contra other
    exact allTried ⟨id, idMem, by simp [untried, other]⟩
  have definitive : allEnabledProvidersDefinitive providers
      (item.withOutcome server kind).providerOutcomes = true := by
    rw [allEnabledProvidersDefinitive_iff]
    intro id required
    rw [mem_providerOutcomes_withOutcome]
    by_cases same : id = server
    · exact Or.inl same
    · exact Or.inr (recorded tried id (requiredIds_subset required) same)
  rw [definitive] at undecided
  simp at undecided

theorem hasUntried_step {engine next : Engine} {event : Event}
    (before : ∀ item, engine.Outstanding item → HasUntried engine.providers item)
    (keeps : engine.KeepsServerToAsk event) (move : Step engine event next) :
    ∀ item, next.Outstanding item → HasUntried next.providers item := by
  rcases move.facts.servers with servers | ⟨servers, rfl, rfl⟩
  · have enabled : next.providers.enabledIds = engine.providers.enabledIds :=
      enabledIds_congr servers
    have old : ∀ item, engine.Outstanding item → HasUntried next.providers item := by
      intro item outstanding
      simpa [HasUntried, enabled] using before item outstanding
    rintro item (resting | waiting)
    · cases move.facts.resting item resting with
      | kept outstanding => exact old item (Or.inl outstanding)
      | submitted job enabledServerIds deferVolumes order event_eq mem =>
          subst event_eq
          simpa [HasUntried, enabled] using keeps item mem
      | requeued worker asked result answered =>
          have oldUntried := old asked (Or.inl answered.resting)
          rcases answered.routed.of_requeued with
            ⟨tries, outage, -, -, rfl⟩ | ⟨kind, isRecorded, -, undecided, rfl⟩
          · exact oldUntried
          · rcases answered.event_eq with ⟨index, position, rfl, isWorker, isItem⟩
            apply hasUntried_withOutcome undecided
            rw [enabled]
            exact keeps worker asked isWorker isItem isRecorded
      | unanswered worker asked workerMem oldMem item_eq =>
          rw [item_eq]
          exact old asked (Or.inl (.inFlight worker workerMem oldMem))
      | woken asked oldMem item_eq =>
          rw [item_eq]
          exact old asked (Or.inr oldMem)
    · cases move.facts.delayed item waiting with
      | kept outstanding => exact old item (Or.inr outstanding)
      | confirming worker asked confirmed result answered item_eq =>
          rcases answered.routed.of_confirming with ⟨kind, -, -, -, rfl⟩
          rcases old asked (Or.inl answered.resting) with ⟨id, idMem, -⟩
          rw [item_eq]
          exact ⟨id, idMem, by simp [WorkItem.note, WorkItem.startConfirm]⟩
  · intro item outstanding
    exact keeps item (outstanding.imp Resting.of_providers id)

theorem hasUntried_run {servers : List ServerConfig} {events : List Event} {engine : Engine}
    (run : Run Step (start servers) events engine)
    (always : Run.Always Step (start servers) (fun _ => KeepsServerToAsk) events) :
    ∀ item, engine.Outstanding item → HasUntried engine.providers item := by
  apply Run.invariant_of_steps
    (fun _ engine => ∀ item, engine.Outstanding item → HasUntried engine.providers item)
    run always
  · rintro item (resting | waiting)
    · exact absurd resting not_resting_start
    · simp [start] at waiting
  · intro _ engine event next _ before keeps move
    exact hasUntried_step before keeps move

theorem noStranded {servers : List ServerConfig} {events : List Event} {engine : Engine}
    (run : Run Step (start servers) events engine)
    (always : Run.Always Step (start servers) (fun _ => KeepsServerToAsk) events) :
    engine.NoStranded := by
  intro item itemMem job registered unpaused
  have untried := hasUntried_run run always item (Or.inl (.queued itemMem))
  refine ⟨Or.inl (takeable_iff_hasUntried.mpr untried), ?_⟩
  rintro ⟨allTried, -⟩
  rcases untried with ⟨id, idMem, notTried⟩
  exact notTried (allTried id idMem)

/-- A worker of A asks for the article. -/
def asking : List Event :=
  [.submit (oneArticleJob []) ["A", "B"] false listedAsIs] ++ [.spawn (provider "A" false)] ++
    [.readGate 0] ++ [.take 0]

/-- A refuses the article, and then C joins the servers. -/
theorem noStranded_refused_edited : ∃ engine : Engine, engine.NoStranded ∧
    engine.providers.enabledIds = ["B", "A", "C"] ∧
      ∃ item ∈ engine.queue.items, "A" ∈ item.providerOutcomes ∧ "B" ∉ item.triedServers := by
  have asked : Run.Always Step (start [provider "A" false, provider "B" false])
      (fun _ => KeepsServerToAsk) asking := by
    refine (((Run.Always.nil.concat ?_).concat ?_).concat ?_).concat ?_
    · intro engine run
      rw [run.eq_init]
      exact keepsServerToAsk_submit (by decide)
    all_goals intros; trivial
  have refused : Run.Always Step (start [provider "A" false, provider "B" false])
      (fun _ => KeepsServerToAsk) (asking ++ [.answer 0 0 (.error (.articleNotFound "m"))]) := by
    refine asked.concat fun engine run => ?_
    cases run.unique step_functional (run_of_execute rfl)
    intro worker item isWorker isItem _ onlyA
    cases isWorker
    cases isItem
    exact absurd (onlyA "B" (by decide) (by decide)) (by decide)
  have edited : Run.Always Step (start [provider "A" false, provider "B" false])
      (fun _ => KeepsServerToAsk) (asking ++ [.answer 0 0 (.error (.articleNotFound "m"))] ++
        [.setServers [provider "B" false, provider "A" false, provider "C" false]]) := by
    refine refused.concat fun engine run item outstanding => ?_
    rcases hasUntried_run run refused item outstanding with ⟨id, idMem, untried⟩
    cases run.unique step_functional (run_of_execute rfl)
    rcases List.mem_pair.mp idMem with rfl | rfl
    · exact ⟨"A", by decide, untried⟩
    · exact ⟨"B", by decide, untried⟩
  exact ⟨_, noStranded (run_of_execute rfl) edited, rfl, _,
    List.mem_cons_self, by decide, by decide⟩

/-- The article comes back with server A tried and no outcome. When B refuses it, every server has
been tried and A's outcome is missing. -/
theorem not_noStranded_restarted :
    ¬∀ (servers : List ServerConfig) (events : List Event) (engine : Engine),
      Run Step (start servers) events engine → engine.NoStranded := by
  intro always
  have executed : ∃ engine, execute step (start [provider "A" false, provider "B" false])
      [.submit (oneArticleJob ["A"]) ["A", "B"] false listedAsIs, .spawn (provider "B" false),
        .readGate 0, .take 0, .answer 0 0 (.error (.articleNotFound "m"))] = some engine ∧
      ∃ item ∈ engine.queue.items, ∃ job, engine.jobs item.jobId = some job ∧
        job.paused = false ∧ (∀ id ∈ engine.providers.enabledIds, id ∈ item.triedServers) ∧
        ∃ id ∈ engine.providers.enabledIds, id ∉ item.providerOutcomes := by
    refine ⟨_, rfl, ?_⟩
    refine ⟨_, List.mem_cons_self, _, rfl, rfl, ?_⟩
    exact ⟨by decide, "A", by decide, by decide⟩
  rcases executed with ⟨engine, executed, item, itemMem, job, registered, unpaused, tried, lacks⟩
  have notStranded := always _ _ engine (run_of_execute executed)
  exact (notStranded item itemMem job registered unpaused).2 ⟨tried, lacks⟩

end Engine

end Rustnzb.Dispatch
