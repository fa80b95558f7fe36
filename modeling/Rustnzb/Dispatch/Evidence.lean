import Rustnzb.Dispatch.EngineSteps

/-!
# An article is given up only on evidence

The recorded history of an item falls into rounds. A round is complete when every provider required
then has refused the article and the confirm delay is over; the outcomes of the item come from the
round under way. Both workers fail an article as absent only after the confirm rounds. The sweep of
the supervisor counts no rounds, so the same holds for it only when it meets no item early. Both
workers also end an article whose assembly failed, be it for the empty body of one server.
-/

namespace Rustnzb.Dispatch

open Lib

def Refused (server : ServerId) (entries : List Asked) : Prop :=
  ∃ pipelined result, Asked.fetch server pipelined result ∈ entries ∧ result.notHere = true

def Fetched (server : ServerId) (entries : List Asked) : Prop :=
  ∃ pipelined result, Asked.fetch server pipelined result ∈ entries

/-- `history` is made of complete rounds of refusals, as many as `rounds`, and of `current`. -/
inductive Rounds : List Asked → ℕ → List Asked → Prop
  | start : Rounds [] 0 []
  | fetch {history : List Asked} {rounds : ℕ} {current : List Asked} (server : ServerId)
      (pipelined : Bool) (result : FetchResult) (before : Rounds history rounds current) :
      Rounds (history ++ [.fetch server pipelined result]) rounds
        (current ++ [.fetch server pipelined result])
  | recorded {history : List Asked} {rounds : ℕ} {current : List Asked} (server : ServerId)
      (kind : ArticleFailureKind) (before : Rounds history rounds current) :
      Rounds (history ++ [.recorded server kind]) rounds (current ++ [.recorded server kind])
  | confirmed {history : List Asked} {rounds : ℕ} {current : List Asked}
      (required : List ServerId) (before : Rounds history rounds current)
      (refused : ∀ id ∈ required, Refused id current) :
      Rounds (history ++ [.confirm required] ++ [.waited]) (rounds + 1) []

/-- The article was refused by every required provider in the last round, after enough complete
rounds. -/
def Absent (providers : Providers) (item : WorkItem) : Prop :=
  ∃ rounds current, Rounds item.asked rounds current ∧ confirmAsksPerServer ≤ rounds ∧
    ∀ id ∈ providers.requiredIds, Refused id current

def AnsweredByAll (providers : Providers) (item : WorkItem) : Prop :=
  ∀ id ∈ providers.requiredIds, id ∈ item.providerOutcomes ∧ Fetched id item.asked

/-- The last fetch failed for a reason that no provider can mend. -/
def FailedLocally (item : WorkItem) : Prop :=
  ∃ server pipelined result, item.asked.getLast? = some (.fetch server pipelined result) ∧
    result.isLocal = true

/-- What an `ArticleFailed` message rests on. -/
structure Justified (report : Report) : Prop where
  absent : report.failure.failure.kind = .notFound ∨ report.failure.confirmed = true →
    Absent report.providers report.failure.item
  answered : AnsweredByAll report.providers report.failure.item ∨ FailedLocally report.failure.item

/-- The outcomes of an item as the round under way accounts for them. -/
structure Ledger (item : WorkItem) (current : List Asked) : Prop where
  rounds : Rounds item.asked item.confirmRounds current
  refused : ∀ id, item.providerOutcomes.lookup id = some .notFound → Refused id current
  fetched : ∀ id ∈ item.providerOutcomes, Fetched id current

def Waiting (item : WorkItem) : Prop :=
  Ledger (item.note .waited) []

theorem Refused.append {server : ServerId} {entries : List Asked} (refused : Refused server entries)
    (more : List Asked) : Refused server (entries ++ more) := by
  rcases refused with ⟨pipelined, result, mem, notHere⟩
  exact ⟨pipelined, result, List.mem_append_left more mem, notHere⟩

theorem Fetched.append {server : ServerId} {entries : List Asked} (fetched : Fetched server entries)
    (more : List Asked) : Fetched server (entries ++ more) := by
  rcases fetched with ⟨pipelined, result, mem⟩
  exact ⟨pipelined, result, List.mem_append_left more mem⟩

theorem Rounds.suffix {history current : List Asked} {rounds : ℕ}
    (isRounds : Rounds history rounds current) : ∃ earlier, history = earlier ++ current := by
  induction isRounds with
  | start => exact ⟨[], rfl⟩
  | fetch _ _ _ _ ih | recorded _ _ _ ih =>
      rcases ih with ⟨earlier, rfl⟩
      exact ⟨earlier, by simp⟩
  | confirmed => exact ⟨_, (List.append_nil _).symm⟩

def Asked.isWaited : Asked → Bool
  | .waited => true
  | _ => false

theorem Rounds.eq_countP {history current : List Asked} {rounds : ℕ}
    (isRounds : Rounds history rounds current) : history.countP Asked.isWaited = rounds := by
  induction isRounds with
  | start => rfl
  | fetch _ _ _ _ ih | recorded _ _ _ ih => simp [Asked.isWaited, ih]
  | confirmed _ _ _ ih => simp [Asked.isWaited, ih]

theorem lookup_of_allNotFound {outcomes : Outcomes} (refused : allNotFound outcomes = true)
    {id : ServerId} (mem : id ∈ outcomes) : outcomes.lookup id = some .notFound := by
  rcases Option.isSome_iff_exists.mp (AList.lookup_isSome.mpr mem) with ⟨kind, found⟩
  have entry : ⟨id, kind⟩ ∈ outcomes.entries := AList.mem_lookup_iff.mp found
  have isNotFound : kind = .notFound :=
    of_decide_eq_true (List.all_eq_true.mp refused ⟨id, kind⟩ entry)
  rw [found, isNotFound]

theorem allNotFound_of_failArticleEverywhere {item : WorkItem} {server : ServerId}
    {errorMsg : String}
    (isAbsent : (failArticleEverywhere item server errorMsg).failure.kind = .notFound ∨
      (failArticleEverywhere item server errorMsg).confirmed = true) :
    allNotFound item.providerOutcomes = true := by
  by_contra notAll
  simp [failArticleEverywhere, notAll] at isAbsent

section Ledger

variable {item : WorkItem} {current : List Asked}

theorem ledger_submitted {job : NzbJob} {enabledServerIds : List ServerId}
    (itemMem : item ∈ buildWorkItems job enabledServerIds) : Ledger item [] := by
  rcases mem_buildWorkItems.mp itemMem with ⟨file, -, article, -, -, -, rfl⟩
  exact ⟨.start, by simp [workItemOf], by simp [workItemOf]⟩

section

variable (ledger : Ledger item current)

include ledger

theorem Ledger.fetch (server : ServerId) (pipelined : Bool) (result : FetchResult) :
    Ledger (item.note (.fetch server pipelined result))
      (current ++ [.fetch server pipelined result]) where
  rounds := .fetch server pipelined result ledger.rounds
  refused id isNotFound := (ledger.refused id isNotFound).append _
  fetched id mem := (ledger.fetched id mem).append _

theorem Ledger.withCounters (tries outage : ℕ) : Ledger (item.withCounters tries outage) current :=
  ⟨ledger.rounds, ledger.refused, ledger.fetched⟩

theorem Ledger.withOutcome {server : ServerId} {kind : ArticleFailureKind}
    (evidence : kind = .notFound → Refused server current) (fetched : Fetched server current) :
    Ledger (item.withOutcome server kind) (current ++ [.recorded server kind]) where
  rounds := .recorded server kind ledger.rounds
  refused id isNotFound := by
    apply Refused.append
    simp only [WorkItem.withOutcome] at isNotFound
    by_cases same : id = server
    · subst same
      rw [AList.lookup_insert] at isNotFound
      exact evidence (Option.some.inj isNotFound)
    · rw [AList.lookup_insert_ne same] at isNotFound
      exact ledger.refused id isNotFound
  fetched id mem := by
    apply Fetched.append
    rcases mem_providerOutcomes_withOutcome.mp mem with rfl | before
    · exact fetched
    · exact ledger.fetched id before

variable {providers : Providers}

section

variable (definitive : allEnabledProvidersDefinitive providers item.providerOutcomes = true)

include definitive

theorem Ledger.refused_of_definitive (refused : allNotFound item.providerOutcomes = true) :
    ∀ id ∈ providers.requiredIds, Refused id current := by
  intro id required
  apply ledger.refused
  apply lookup_of_allNotFound refused
  exact allEnabledProvidersDefinitive_iff.mp definitive id required

theorem Ledger.startConfirm (refused : allNotFound item.providerOutcomes = true) :
    Waiting (item.startConfirm.note (.confirm providers.requiredIds)) where
  rounds := .confirmed _ ledger.rounds (ledger.refused_of_definitive definitive refused)
  refused := by simp [WorkItem.note, WorkItem.startConfirm]
  fetched := by simp [WorkItem.note, WorkItem.startConfirm]

theorem Ledger.answered :
    AnsweredByAll providers item := by
  intro id required
  have mem := allEnabledProvidersDefinitive_iff.mp definitive id required
  rcases ledger.rounds.suffix with ⟨earlier, history⟩
  rcases ledger.fetched id mem with ⟨pipelined, result, fetched⟩
  refine ⟨mem, pipelined, result, ?_⟩
  rw [history]
  exact List.mem_append_right earlier fetched

theorem Ledger.justified
    (enough : allNotFound item.providerOutcomes = true → confirmAsksPerServer ≤ item.confirmRounds)
    (server : ServerId) (errorMsg : String) :
    Justified { failure := failArticleEverywhere item server errorMsg, providers := providers }
    where
  absent isAbsent := by
    have refused := allNotFound_of_failArticleEverywhere isAbsent
    exact ⟨item.confirmRounds, current, ledger.rounds, enough refused,
      ledger.refused_of_definitive definitive refused⟩
  answered := Or.inl (ledger.answered definitive)

end

end

end Ledger

/-- A fetch that ends its article does so for a reason that no other server could mend. -/
def Event.Mends : Event → Prop
  | .answer _ _ result => result.endsArticle = true → result.isLocal = true
  | _ => True

namespace Engine

/-- The supervisor does not take an item that all have refused before its confirm rounds are
done. -/
def SweepsConfirmed (engine : Engine) : Event → Prop
  | .sweep =>
      optionalDown engine.providers = true → ∀ item ∈ engine.queue.items,
        sweepTakes engine.providers item = true → engine.isActive item.jobId = true →
        allNotFound item.providerOutcomes = true → confirmAsksPerServer ≤ item.confirmRounds
  | _ => True

structure Accounted (engine : Engine) : Prop where
  resting : ∀ item, engine.Resting item → ∃ current, Ledger item current
  delayed : ∀ item ∈ engine.delayed, Waiting item
  reports : ∀ report ∈ engine.reports, Justified report

theorem ledger_answered (worker : Worker) {item : WorkItem} {result : FetchResult}
    {current : List Asked} (ledger : Ledger item current) {kind : ArticleFailureKind}
    (evidence : kind = .notFound → result.notHere = true) :
    ∃ current, Ledger ((fetched worker item result).withOutcome worker.server.id kind) current := by
  have asked : Asked.fetch worker.server.id worker.isPipelined result ∈
      current ++ [Asked.fetch worker.server.id worker.isPipelined result] := by simp
  refine ⟨_, (ledger.fetch worker.server.id worker.isPipelined result).withOutcome ?_ ?_⟩
  · intro isNotFound
    exact ⟨worker.isPipelined, result, asked, evidence isNotFound⟩
  · exact ⟨worker.isPipelined, result, asked⟩

theorem accounted_start (servers : List ServerConfig) : (start servers).Accounted where
  resting _ resting := absurd resting not_resting_start
  delayed := by simp [start]
  reports := by simp [start]

theorem accounted_step {engine next : Engine} {event : Event} (accounted : engine.Accounted)
    (sound : engine.SweepsConfirmed event ∧ event.Mends) (move : Step engine event next) :
    next.Accounted where
  resting item resting := by
    cases move.facts.resting item resting with
    | kept before => exact accounted.resting item before
    | submitted job enabledServerIds deferVolumes order event_eq mem =>
        exact ⟨[], ledger_submitted mem⟩
    | requeued worker old result answered =>
        rcases accounted.resting old answered.resting with ⟨current, ledger⟩
        rcases answered.routed.of_requeued with
          ⟨tries, outage, -, -, rfl⟩ | ⟨kind, -, evidence, -, rfl⟩
        · exact ⟨_, (ledger.fetch worker.server.id worker.isPipelined result).withCounters _ _⟩
        · exact ledger_answered worker ledger evidence
    | unanswered worker old workerMem oldMem item_eq =>
        rcases accounted.resting old (.inFlight worker workerMem oldMem) with ⟨current, ledger⟩
        rw [item_eq]
        exact ⟨_, ledger.fetch worker.server.id worker.isPipelined .unanswered⟩
    | woken old oldMem item_eq =>
        rw [item_eq]
        exact ⟨[], accounted.delayed old oldMem⟩
  delayed item waiting := by
    cases move.facts.delayed item waiting with
    | kept before => exact accounted.delayed item before
    | confirming worker old after result answered item_eq =>
        rcases accounted.resting old answered.resting with ⟨current, ledger⟩
        rcases answered.routed.of_confirming with ⟨kind, evidence, definitive, refused, rfl⟩
        rcases ledger_answered worker ledger evidence with ⟨after, ledger⟩
        rw [item_eq]
        exact ledger.startConfirm definitive refused
  reports report mem := by
    cases move.facts.reports report mem with
    | kept before => exact accounted.reports report before
    | routed worker old result failure answered report_eq =>
        rcases accounted.resting old answered.resting with ⟨current, ledger⟩
        rw [report_eq]
        rcases answered.routed.of_failed with
          ⟨kind, errorMsg, evidence, definitive, enough, rfl⟩ | ⟨message, ends, rfl⟩
        · rcases ledger_answered worker ledger evidence with ⟨after, ledger⟩
          exact ledger.justified definitive enough _ _
        · refine ⟨by simp [failLocally], Or.inr ?_⟩
          rcases answered.event_eq with ⟨index, position, rfl, -⟩
          exact ⟨worker.server.id, worker.isPipelined, result,
            by simp [failLocally, fetched, WorkItem.note], sound.2 ends⟩
    | swept old event_eq oldMem down taken active report_eq =>
        subst event_eq
        rcases accounted.resting old (.queued oldMem) with ⟨current, ledger⟩
        rw [report_eq]
        have definitive := (Bool.and_eq_true_iff.mp taken).2
        exact ledger.justified definitive (sound.1 down old oldMem taken active) _ _

/-- In a run whose sweeps take no item early and where the local write alone ends an assembly, every
failed article was given up on evidence. -/
theorem reports_justified {servers : List ServerConfig} {events : List Event} {engine : Engine}
    (run : Run Step (start servers) events engine) (always : Run.Always Step (start servers)
      (fun _ engine event => engine.SweepsConfirmed event ∧ event.Mends) events) :
    ∀ report ∈ engine.reports, Justified report := by
  have accounted : engine.Accounted := by
    apply Run.invariant_of_steps (fun _ engine => engine.Accounted) run always
    · exact accounted_start servers
    · intro _ engine event next _ accounted sound move
      exact accounted_step accounted sound move
  exact accounted.reports

def fullDisk : List Event :=
  [.submit (oneArticleJob []) ["A"] false listedAsIs, .spawn (provider "A" false), .readGate 0,
    .take 0, .answer 0 0 (.assemblyError .io "disk full")]

theorem reports_justified_full_disk :
    ∃ engine, execute step (start [provider "A" false]) fullDisk = some engine ∧
      engine.reports.length = 1 ∧ ∀ report ∈ engine.reports, Justified report := by
  have executed : ∃ engine, execute step (start [provider "A" false]) fullDisk = some engine ∧
      engine.reports.length = 1 := ⟨_, rfl, rfl⟩
  rcases executed with ⟨engine, executed, oneReport⟩
  refine ⟨engine, executed, oneReport, ?_⟩
  apply reports_justified (run_of_execute executed)
  apply Run.Always.of_forall
  simp [fullDisk, SweepsConfirmed, Event.Mends, FetchResult.isLocal]

/-- Server A refuses, the optional server O becomes unavailable, and the sweep reports the article
absent after the first round. -/
theorem not_reports_justified_optional_down :
    ¬∀ (servers : List ServerConfig) (events : List Event) (engine : Engine),
      Run Step (start servers) events engine → ∀ report ∈ engine.reports, Justified report := by
  intro always
  have executed : ∃ engine, execute step (start [provider "A" false, provider "O" true])
      [.submit (oneArticleJob []) ["A", "O"] false listedAsIs, .spawn (provider "A" false),
        .readGate 0, .take 0, .answer 0 0 (.error (.articleNotFound "m")),
        .connectFailed "O" true, .sweep] = some engine ∧
      ∃ report ∈ engine.reports, report.failure.failure.kind = .notFound ∧
        report.failure.item.asked.countP Asked.isWaited = 0 := by
    refine ⟨_, rfl, ?_⟩
    exact ⟨_, List.mem_cons_self, rfl, rfl⟩
  rcases executed with ⟨engine, executed, report, reportMem, isNotFound, noDelay⟩
  have justified := always _ _ engine (run_of_execute executed) report reportMem
  rcases justified.absent (Or.inl isNotFound) with ⟨rounds, current, isRounds, enough, -⟩
  rw [← isRounds.eq_countP, noDelay] at enough
  simp [confirmAsksPerServer] at enough

end Engine

end Rustnzb.Dispatch
