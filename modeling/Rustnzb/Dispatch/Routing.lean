import Rustnzb.Dispatch.WorkQueue

/-!
# What becomes of a fetched article

The helpers shared by both workers decide whether an article goes back to the queue, waits for a
confirm round, or is resolved; the arms of the serial and the pipelined worker map each result of
a fetch to one of them. Each arm is a function of the item alone, so that its `Route` says the
whole fate of the item, once.
-/

namespace Rustnzb.Dispatch

/-- An `ArticleFailed` message with its `record_failure(_, confirmed)`. -/
structure FailureReport where
  item : WorkItem
  failure : ArticleFailure
  confirmed : Bool

/-- The fate of an item after a worker has dealt with it. -/
inductive Route where
  /-- `ArticleComplete`, then `resolve_one`. -/
  | delivered (item : WorkItem)
  /-- `resolve_one` without a report. -/
  | resolved (item : WorkItem)
  | requeued (item : WorkItem)
  /-- Back to the head of the queue after `CONFIRM_ROUND_DELAY`. -/
  | confirming (item : WorkItem)
  /-- `record_failure`, `ArticleFailed`, then `resolve_one`. -/
  | failed (report : FailureReport)

def Route.item : Route → WorkItem
  | delivered item | resolved item | requeued item | confirming item => item
  | failed report => report.item

def outcomesText (outcomes : Outcomes) : String :=
  ",".intercalate
    ((outcomes.entries.map fun entry => entry.1 ++ "=" ++ entry.2.asStr).insertionSort (· ≤ ·))

def allNotFound (outcomes : Outcomes) : Bool :=
  outcomes.entries.all fun entry => entry.2 = .notFound

/-- Resolve an article as failed: every required provider has given a definitive outcome. -/
def failArticleEverywhere (item : WorkItem) (serverId : ServerId) (errorMsg : String) :
    FailureReport :=
  let outcomes := outcomesText item.providerOutcomes
  let finalKind : ArticleFailureKind :=
    if allNotFound item.providerOutcomes then .notFound else .decodeError
  let failure : ArticleFailure :=
    if finalKind = .decodeError then
      { kind := .decodeError, serverId := serverId
        message := errorMsg ++ "; provider outcomes: " ++ outcomes }
    else
      { kind := .notFound, serverId := serverId
        message := "Article explicitly not found on every eligible provider; outcomes: " ++
          outcomes }
  { item := item, failure := failure, confirmed := decide (finalKind = .notFound) }

def WorkItem.withOutcome (item : WorkItem) (server : ServerId) (kind : ArticleFailureKind) :
    WorkItem :=
  { item with
    providerOutcomes := item.providerOutcomes.insert server kind
    triedServers :=
      if item.triedServers.contains server then item.triedServers
      else item.triedServers ++ [server]
    triesOnCurrent := 0
    outageTries := 0
    asked := item.asked ++ [.recorded server kind] }

def WorkItem.startConfirm (item : WorkItem) : WorkItem :=
  { item with
    confirmRounds := item.confirmRounds + 1
    providerOutcomes := ∅
    triedServers := [] }

/-- Mark the server as tried and requeue the article, ask again, or fail it. -/
def handleArticleNotAvailable (providers : Providers) (server : ServerId) (item : WorkItem)
    (kind : ArticleFailureKind) (errorMsg : String) : Route :=
  let item := item.withOutcome server kind
  let allDefinitive := allEnabledProvidersDefinitive providers item.providerOutcomes
  let allRefused := allNotFound item.providerOutcomes
  if allDefinitive && allRefused && decide (item.confirmRounds < confirmAsksPerServer) then
    .confirming item.startConfirm
  else if allDefinitive then .failed (failArticleEverywhere item server errorMsg)
  else .requeued item

/-- Retry on the same server up to `maxTriesPerServer` times, then record the error as this
server's definitive outcome. -/
def retryOrFailOver (providers : Providers) (server : ServerId) (item : WorkItem)
    (kind : ArticleFailureKind) (message : String) : Route :=
  let item := { item with triesOnCurrent := item.triesOnCurrent + 1 }
  if item.triesOnCurrent < maxTriesPerServer then .requeued item
  else
    handleArticleNotAvailable providers server item kind
      ("Article failed on every server; last error after " ++ toString maxTriesPerServer ++
        " attempts: " ++ message)

/-- A failure that no other server is asked to mend: the NZB leaves segments out, or the assembly
failed. -/
def failLocally (item : WorkItem) (server : ServerId) (message : String) : FailureReport :=
  { item := item
    failure := { kind := .decodeError, serverId := server, message := message }
    confirmed := false }

/-- What a worker does after one result: the item's route, the providers as they are when the
item is routed, and whether it requeues everything else it has in flight. -/
structure Arm where
  route : Route
  providers : Providers
  requeuesAll : Bool

/-- The arms that both workers share: the body was read, or the server said the article is not
here. -/
def decodedArm (providers : Providers) (server : ServerId) (item : WorkItem) :
    FetchResult → Option Route
  | .present => some (.delivered item)
  | .cancelled => some (.resolved item)
  | .decodeError message =>
      some (handleArticleNotAvailable providers server item .decodeError
        ("Decode error: " ++ message))
  | .incompleteNzb message =>
      some (.failed (failLocally item server ("Incomplete NZB: " ++ message)))
  | .assemblyError _ message =>
      some (.failed (failLocally item server ("Assembly error: " ++ message)))
  | .error e =>
      if e.notHere then
        some (handleArticleNotAvailable providers server item .notFound
          "Article not found on any server")
      else none
  | .stalled => none
  | .unanswered => none

def isAuthKind (kind : ArticleFailureKind) : Bool :=
  kind = .authFailed || kind = .permissionDenied

/-- `run_worker_serial` after `fetch_article_with_retry`. -/
def serialArm (providers : Providers) (server : ServerId) (item : WorkItem)
    (result : FetchResult) : Arm :=
  match decodedArm providers server item result with
  | some route => { route := route, providers := providers, requeuesAll := false }
  | none =>
      match result with
      | .error (.connection _) | .error (.io _) | .error (.tls _) =>
          { route := .requeued item, providers := providers, requeuesAll := false }
      | .error (.serviceUnavailable _) =>
          { route := .requeued item
            providers := providers.recordFailure server false
            requeuesAll := false }
      | .error (.authRequired _) | .error (.auth _) | .error (.permissionDenied _) =>
          { route := .requeued item
            providers := providers.recordFailure server true
            requeuesAll := false }
      | .error e =>
          { route := retryOrFailOver providers server item e.kind e.display
            providers := providers, requeuesAll := false }
      | .stalled =>
          { route := retryOrFailOver providers server item .timeout "connection stalled"
            providers := providers, requeuesAll := false }
      | _ => { route := .requeued item, providers := providers, requeuesAll := false }

/-- A 502, 480 or 403 says nothing about the article. -/
def NntpError.isServerWide (e : NntpError) : Bool :=
  e.kind = .serverDown || e.kind = .authFailed || e.kind = .permissionDenied

def NntpError.isArticleOutage (e : NntpError) : Bool :=
  e.kind = .timeout || e.kind = .connectionClosed || e.kind = .other

def pipelinedRetry (providers : Providers) (server : ServerId) (item : WorkItem)
    (e : NntpError) : Route :=
  if e.isServerWide then .requeued item
  else if e.isArticleOutage then
    let item := { item with outageTries := item.outageTries + 1 }
    if item.outageTries < maxOutageTriesPerServer then .requeued item
    else retryOrFailOver providers server item e.kind e.display
  else retryOrFailOver providers server item e.kind e.display

/-- `run_worker_pipelined` after a response, or after the whole pipeline was given up. -/
def pipelinedArm (providers : Providers) (server : ServerId) (item : WorkItem)
    (result : FetchResult) : Arm :=
  match decodedArm providers server item result with
  | some route => { route := route, providers := providers, requeuesAll := false }
  | none =>
      match result with
      | .error (.connection _) | .error (.io _) =>
          { route := .requeued item, providers := providers, requeuesAll := true }
      | .error e =>
          let providers :=
            if e.countsAgainstCircuitBreaker then
              providers.recordFailure server (isAuthKind e.kind)
            else providers
          { route := pipelinedRetry providers server item e
            providers := providers, requeuesAll := true }
      | _ => { route := .requeued item, providers := providers, requeuesAll := true }

/-- What a worker makes of a result: the arm of its loop, unless it is pipelined and the job is gone
or cancelled. A serial worker keeps the context it looked up before the fetch. -/
def workerArm (pipelined cancelled : Bool) (providers : Providers) (server : ServerId)
    (item : WorkItem) (result : FetchResult) : Arm :=
  if pipelined then
    if cancelled then { route := .resolved item, providers := providers, requeuesAll := false }
    else pipelinedArm providers server item result
  else serialArm providers server item result

section Fate

def WorkItem.withCounters (item : WorkItem) (tries outage : ℕ) : WorkItem :=
  { item with triesOnCurrent := tries, outageTries := outage }

/-- How many of its tries on the current server the item has used up. -/
def WorkItem.spent (item : WorkItem) : ℕ :=
  min item.outageTries (maxOutageTriesPerServer - 1) + item.triesOnCurrent

namespace FetchResult

def notHere : FetchResult → Bool
  | .error e => e.notHere
  | _ => false

/-- The results after which the item fails whatever other servers hold. -/
def endsArticle : FetchResult → Bool
  | .incompleteNzb _ | .assemblyError .. => true
  | _ => false

/-- The results that no other server could mend. -/
def isLocal : FetchResult → Bool
  | .incompleteNzb _ | .assemblyError .io _ => true
  | _ => false

def losesConnection (pipelined : Bool) : NntpError → Bool
  | .connection _ | .io _ => true
  | .tls _ => !pipelined
  | _ => false

def isCounted (pipelined : Bool) : FetchResult → Bool
  | .error e => !e.notHere && !e.isServerWide && !losesConnection pipelined e
  | .stalled => !pipelined
  | _ => false

def records (pipelined : Bool) (item : WorkItem) : FetchResult → Bool
  | .decodeError _ => true
  | .error e =>
      e.notHere || ((FetchResult.error e).isCounted pipelined &&
        decide (maxTriesPerServer ≤ item.triesOnCurrent + 1) &&
        (!(pipelined && e.isArticleOutage) ||
          decide (maxOutageTriesPerServer ≤ item.outageTries + 1)))
  | .stalled => !pipelined && decide (maxTriesPerServer ≤ item.triesOnCurrent + 1)
  | _ => false

end FetchResult

/-- The counters of an item that goes back to the queue without a new outcome. -/
structure CountersAfter (item : WorkItem) (counted : Bool) (tries outage : ℕ) : Prop where
  kept : item.spent ≤ (item.withCounters tries outage).spent
  spends : counted = true → item.spent < (item.withCounters tries outage).spent
  capped : tries = item.triesOnCurrent ∨ tries < maxTriesPerServer

inductive RoutedBy (providers : Providers) (server : ServerId) (pipelined : Bool)
    (item : WorkItem) (result : FetchResult) : Route → Prop
  | delivered (isPresent : result = .present) :
      RoutedBy providers server pipelined item result (.delivered item)
  | resolved : RoutedBy providers server pipelined item result (.resolved item)
  | requeued (tries outage : ℕ) (notRecorded : result.records pipelined item = false)
      (counters : CountersAfter item (result.isCounted pipelined) tries outage) :
      RoutedBy providers server pipelined item result
        (.requeued (item.withCounters tries outage))
  | handled (tries outage : ℕ) (kind : ArticleFailureKind) (errorMsg : String)
      (isRecorded : result.records pipelined item = true)
      (evidence : kind = .notFound → result.notHere = true) :
      RoutedBy providers server pipelined item result
        (handleArticleNotAvailable providers server (item.withCounters tries outage) kind errorMsg)
  | failedLocally (message : String) (ends : result.endsArticle = true) :
      RoutedBy providers server pipelined item result (.failed (failLocally item server message))

variable {providers : Providers} {server : ServerId} {pipelined : Bool} {item : WorkItem}
  {result : FetchResult}

theorem CountersAfter.refl : CountersAfter item false item.triesOnCurrent item.outageTries where
  kept := Nat.le_refl item.spent
  spends := by simp
  capped := Or.inl rfl

theorem requeued_routedBy (notRecorded : result.records pipelined item = false)
    (notCounted : result.isCounted pipelined = false) :
    RoutedBy providers server pipelined item result (.requeued item) :=
  .requeued item.triesOnCurrent item.outageTries notRecorded (notCounted ▸ .refl)

theorem decodedArm_eq_none (notDecoded : decodedArm providers server item result = none) :
    (∃ e, result = .error e ∧ e.notHere = false) ∨ result = .stalled ∨ result = .unanswered := by
  cases result with
  | error e =>
      simp only [decodedArm] at notDecoded
      split at notDecoded
      · simp at notDecoded
      next isHere => exact Or.inl ⟨e, rfl, by simpa using isHere⟩
  | stalled => exact Or.inr (Or.inl rfl)
  | unanswered => exact Or.inr (Or.inr rfl)
  | _ => simp [decodedArm] at notDecoded

theorem decodedArm_routedBy {route : Route}
    (decoded : decodedArm providers server item result = some route) :
    RoutedBy providers server pipelined item result route := by
  cases result with
  | present => exact Option.some.inj decoded ▸ .delivered rfl
  | cancelled => exact Option.some.inj decoded ▸ .resolved
  | decodeError message =>
      exact Option.some.inj decoded ▸ .handled item.triesOnCurrent item.outageTries .decodeError _
        rfl (by simp)
  | incompleteNzb message => exact Option.some.inj decoded ▸ .failedLocally _ rfl
  | assemblyError _ message => exact Option.some.inj decoded ▸ .failedLocally _ rfl
  | error e =>
      simp only [decodedArm] at decoded
      split at decoded
      next isNotHere =>
        exact Option.some.inj decoded ▸ .handled item.triesOnCurrent item.outageTries .notFound _
          (by simp [FetchResult.records, isNotHere]) fun _ => isNotHere
      · simp at decoded
  | stalled => simp [decodedArm] at decoded
  | unanswered => simp [decodedArm] at decoded

theorem notFound_of_kind {e : NntpError} (isNotFound : e.kind = .notFound) : e.notHere = true := by
  cases e <;> simp_all [NntpError.kind, NntpError.notHere]

theorem retryOrFailOver_routedBy (outage : ℕ) {kind : ArticleFailureKind} {message : String}
    (evidence : kind = .notFound → result.notHere = true)
    (moreOutage : item.outageTries ≤ outage)
    (records : result.records pipelined item =
      decide (maxTriesPerServer ≤ item.triesOnCurrent + 1)) :
    RoutedBy providers server pipelined item result
      (retryOrFailOver providers server (item.withCounters item.triesOnCurrent outage) kind
        message) := by
  simp only [retryOrFailOver]
  split
  next fewer =>
    have below : item.triesOnCurrent + 1 < maxTriesPerServer := fewer
    refine .requeued (item.triesOnCurrent + 1) outage ?_ ⟨?_, fun _ => ?_, Or.inr below⟩
    · simpa [records] using below
    · simp only [WorkItem.spent, WorkItem.withCounters]
      omega
    · simp only [WorkItem.spent, WorkItem.withCounters]
      omega
  next exhausted =>
    refine .handled (item.triesOnCurrent + 1) outage kind _ ?_ evidence
    rw [records]
    exact decide_eq_true (Nat.le_of_not_lt exhausted)

theorem serialArm_routedBy :
    RoutedBy (serialArm providers server item result).providers server false item result
      (serialArm providers server item result).route := by
  simp only [serialArm]
  split
  next route decoded => exact decodedArm_routedBy decoded
  next notDecoded =>
    rcases decodedArm_eq_none notDecoded with ⟨e, rfl, isHere⟩ | rfl | rfl
    · cases e with
      | connection | io | tls | serviceUnavailable | authRequired | auth | permissionDenied =>
          exact requeued_routedBy rfl rfl
      | articleNotFound | noSuchGroup | noArticleSelected => cases isHere
      | _ =>
          exact retryOrFailOver_routedBy item.outageTries notFound_of_kind (Nat.le_refl _)
            (by simp [FetchResult.records, FetchResult.isCounted, FetchResult.losesConnection,
              NntpError.notHere, NntpError.isServerWide, NntpError.kind])
    · exact retryOrFailOver_routedBy item.outageTries (by simp) (Nat.le_refl _) rfl
    · exact requeued_routedBy rfl rfl

theorem pipelinedRetry_routedBy {e : NntpError} (isHere : e.notHere = false)
    (keepsConnection : FetchResult.losesConnection true e = false) :
    RoutedBy providers server true item (.error e) (pipelinedRetry providers server item e) := by
  simp only [pipelinedRetry]
  split
  next serverWide =>
    apply requeued_routedBy
    · simp [FetchResult.records, FetchResult.isCounted, isHere, serverWide]
    · simp [FetchResult.isCounted, serverWide]
  next articleWide =>
    have counted : (FetchResult.error e).isCounted true = true := by
      simp [FetchResult.isCounted, isHere, keepsConnection, articleWide]
    split
    next outageKind =>
      split
      next fewer =>
        have below : item.outageTries + 1 < maxOutageTriesPerServer := fewer
        refine .requeued item.triesOnCurrent (item.outageTries + 1) ?_
          ⟨?_, fun _ => ?_, Or.inl rfl⟩
        · simp [FetchResult.records, isHere, outageKind, below]
        · simp only [WorkItem.spent, WorkItem.withCounters]
          omega
        · simp only [WorkItem.spent, WorkItem.withCounters]
          omega
      next exhausted =>
        have reached : maxOutageTriesPerServer ≤ item.outageTries + 1 :=
          Nat.le_of_not_lt exhausted
        exact retryOrFailOver_routedBy (item.outageTries + 1) notFound_of_kind (by omega)
          (by simp [FetchResult.records, isHere, counted, reached])
    next otherKind =>
      exact retryOrFailOver_routedBy item.outageTries notFound_of_kind (Nat.le_refl _)
        (by simp [FetchResult.records, isHere, counted, otherKind])

theorem pipelinedArm_routedBy :
    RoutedBy (pipelinedArm providers server item result).providers server true item result
      (pipelinedArm providers server item result).route := by
  simp only [pipelinedArm]
  split
  next route decoded => exact decodedArm_routedBy decoded
  next notDecoded =>
    rcases decodedArm_eq_none notDecoded with ⟨e, rfl, isHere⟩ | rfl | rfl
    · cases e with
      | connection | io => exact requeued_routedBy rfl rfl
      | _ => exact pipelinedRetry_routedBy isHere rfl
    · exact requeued_routedBy rfl rfl
    · exact requeued_routedBy rfl rfl

theorem workerArm_routedBy {cancelled : Bool} :
    RoutedBy (workerArm pipelined cancelled providers server item result).providers server pipelined
      item result (workerArm pipelined cancelled providers server item result).route := by
  cases pipelined with
  | true =>
      simp only [workerArm, if_true]
      split
      · exact .resolved
      · exact pipelinedArm_routedBy
  | false => exact serialArm_routedBy

theorem servers_serialArm :
    (serialArm providers server item result).providers.servers = providers.servers := by
  simp only [serialArm]
  split
  · rfl
  · split <;> rfl

theorem servers_pipelinedArm :
    (pipelinedArm providers server item result).providers.servers = providers.servers := by
  simp only [pipelinedArm]
  split
  · rfl
  · split
    case h_3 =>
      dsimp only
      split <;> rfl
    all_goals rfl

theorem servers_workerArm {cancelled : Bool} :
    (workerArm pipelined cancelled providers server item result).providers.servers =
      providers.servers := by
  simp only [workerArm]
  split
  · split
    · rfl
    · exact servers_pipelinedArm
  · exact servers_serialArm

/-- The three outcomes of `handle_article_not_available`, with what each of them has checked. -/
theorem handleArticleNotAvailable_cases (providers : Providers) (server : ServerId)
    (item : WorkItem) (kind : ArticleFailureKind) (errorMsg : String) :
    let recorded := item.withOutcome server kind
    let definitive := allEnabledProvidersDefinitive providers recorded.providerOutcomes
    (definitive = true ∧ allNotFound recorded.providerOutcomes = true ∧
        recorded.confirmRounds < confirmAsksPerServer ∧
        handleArticleNotAvailable providers server item kind errorMsg =
          .confirming recorded.startConfirm) ∨
      (definitive = true ∧
        (allNotFound recorded.providerOutcomes = true →
          confirmAsksPerServer ≤ recorded.confirmRounds) ∧
        handleArticleNotAvailable providers server item kind errorMsg =
          .failed (failArticleEverywhere recorded server errorMsg)) ∨
      (definitive = false ∧
        handleArticleNotAvailable providers server item kind errorMsg = .requeued recorded) := by
  intro recorded definitive
  set refused := allNotFound recorded.providerOutcomes with refusedEq
  have unfolded : handleArticleNotAvailable providers server item kind errorMsg =
      if definitive && refused && decide (recorded.confirmRounds < confirmAsksPerServer) then
        .confirming recorded.startConfirm
      else if definitive then .failed (failArticleEverywhere recorded server errorMsg)
      else .requeued recorded := rfl
  rw [unfolded]
  by_cases isDefinitive : definitive = true
  · by_cases confirms : refused = true ∧ recorded.confirmRounds < confirmAsksPerServer
    · refine Or.inl ⟨isDefinitive, confirms.1, confirms.2, if_pos ?_⟩
      rw [isDefinitive, confirms.1, decide_eq_true confirms.2]
      rfl
    · refine Or.inr (Or.inl ⟨isDefinitive, ?_, (if_neg ?_).trans (if_pos isDefinitive)⟩)
      · intro isRefused
        exact Nat.le_of_not_lt fun fewer => confirms ⟨isRefused, fewer⟩
      · rw [isDefinitive, Bool.true_and, Bool.and_eq_true, decide_eq_true_eq]
        exact confirms
  · refine Or.inr (Or.inr ⟨by simpa using isDefinitive, (if_neg ?_).trans (if_neg isDefinitive)⟩)
    rw [Bool.and_eq_true, Bool.and_eq_true]
    exact fun all => isDefinitive all.1.1

theorem RoutedBy.of_requeued {after : WorkItem}
    (routed : RoutedBy providers server pipelined item result (.requeued after)) :
    (∃ tries outage, result.records pipelined item = false ∧
        CountersAfter item (result.isCounted pipelined) tries outage ∧
        after = item.withCounters tries outage) ∨
      ∃ kind, result.records pipelined item = true ∧ (kind = .notFound → result.notHere = true) ∧
        allEnabledProvidersDefinitive providers (item.withOutcome server kind).providerOutcomes =
          false ∧
        after = item.withOutcome server kind := by
  generalize isRequeued : Route.requeued after = route at routed
  cases routed with
  | requeued tries outage notRecorded counters =>
      cases isRequeued
      exact Or.inl ⟨tries, outage, notRecorded, counters, rfl⟩
  | handled tries outage kind errorMsg isRecorded evidence =>
      rcases handleArticleNotAvailable_cases providers server (item.withCounters tries outage) kind
        errorMsg with
        ⟨_, _, _, handled⟩ | ⟨_, _, handled⟩ | ⟨notDefinitive, handled⟩
      · simp [handled] at isRequeued
      · simp [handled] at isRequeued
      · rw [handled] at isRequeued
        cases isRequeued
        exact Or.inr ⟨kind, isRecorded, evidence, notDefinitive, rfl⟩
  | _ => cases isRequeued

theorem RoutedBy.of_confirming {after : WorkItem}
    (routed : RoutedBy providers server pipelined item result (.confirming after)) :
    ∃ kind, (kind = .notFound → result.notHere = true) ∧
      allEnabledProvidersDefinitive providers (item.withOutcome server kind).providerOutcomes =
        true ∧
      allNotFound (item.withOutcome server kind).providerOutcomes = true ∧
      after = (item.withOutcome server kind).startConfirm := by
  generalize isConfirming : Route.confirming after = route at routed
  cases routed with
  | handled tries outage kind errorMsg isRecorded evidence =>
      rcases handleArticleNotAvailable_cases providers server (item.withCounters tries outage) kind
        errorMsg with
        ⟨definitive, refused, _, handled⟩ | ⟨_, _, handled⟩ | ⟨_, handled⟩
      · rw [handled] at isConfirming
        cases isConfirming
        exact ⟨kind, evidence, definitive, refused, rfl⟩
      · simp [handled] at isConfirming
      · simp [handled] at isConfirming
  | _ => cases isConfirming

theorem RoutedBy.of_failed {report : FailureReport}
    (routed : RoutedBy providers server pipelined item result (.failed report)) :
    (∃ kind errorMsg, (kind = .notFound → result.notHere = true) ∧
        allEnabledProvidersDefinitive providers (item.withOutcome server kind).providerOutcomes =
          true ∧
        (allNotFound (item.withOutcome server kind).providerOutcomes = true →
          confirmAsksPerServer ≤ item.confirmRounds) ∧
        report = failArticleEverywhere (item.withOutcome server kind) server errorMsg) ∨
      ∃ message, result.endsArticle = true ∧ report = failLocally item server message := by
  generalize isFailed : Route.failed report = route at routed
  cases routed with
  | handled tries outage kind errorMsg isRecorded evidence =>
      rcases handleArticleNotAvailable_cases providers server (item.withCounters tries outage) kind
        errorMsg with
        ⟨_, _, _, handled⟩ | ⟨definitive, rounds, handled⟩ | ⟨_, handled⟩
      · simp [handled] at isFailed
      · rw [handled] at isFailed
        cases isFailed
        exact Or.inl ⟨kind, errorMsg, evidence, definitive, rounds, rfl⟩
      · simp [handled] at isFailed
  | failedLocally message ends =>
      cases isFailed
      exact Or.inr ⟨message, ends, rfl⟩
  | _ => cases isFailed

@[simp] theorem mem_triedServers_withOutcome {kind : ArticleFailureKind} {id : ServerId} :
    id ∈ (item.withOutcome server kind).triedServers ↔ id ∈ item.triedServers ∨ id = server := by
  simp only [WorkItem.withOutcome, List.contains_eq_mem, decide_eq_true_eq]
  split
  next tried =>
    constructor
    · exact Or.inl
    · rintro (before | rfl)
      · exact before
      · exact tried
  · simp

@[simp] theorem mem_providerOutcomes_withOutcome {kind : ArticleFailureKind} {id : ServerId} :
    id ∈ (item.withOutcome server kind).providerOutcomes ↔
      id = server ∨ id ∈ item.providerOutcomes :=
  AList.mem_insert _

end Fate

end Rustnzb.Dispatch
