import Mathlib.Data.List.DropRight
import Rustnzb.Dispatch.EngineSteps

/-!
# Bounded attempts per article and server

`triesOnCurrent` and `outageTries` bound the fetches whose results count: each of them uses up a
try, and the counters start anew only when an outcome is recorded or a confirm round begins. The
errors after which a worker only reconnects use up nothing, and neither do the items that it lets
go with its connection.
-/

namespace Rustnzb.Dispatch

open Lib

namespace Asked

def restartsTries : Asked → Bool
  | .fetch _ _ _ => false
  | .recorded _ _ | .confirm _ | .waited => true

/-- The outcome of `server` is settled for this round, or a new round begins. -/
def settles (server : ServerId) : Asked → Bool
  | .fetch _ _ _ => false
  | .recorded id _ => id = server
  | .confirm _ | .waited => true

def isFetchOn (server : ServerId) : Asked → Bool
  | .fetch asked _ _ => asked = server
  | _ => false

def isCounted : Asked → Bool
  | .fetch _ pipelined result => result.isCounted pipelined
  | _ => false

end Asked

namespace WorkItem

def sinceRestart (item : WorkItem) : List Asked :=
  item.asked.rtakeWhile fun entry => !entry.restartsTries

def sinceSettled (item : WorkItem) (server : ServerId) : List Asked :=
  item.asked.rtakeWhile fun entry => !entry.settles server

/-- Its fetches on `server` for which `server` has no outcome yet. -/
def attempts (item : WorkItem) (server : ServerId) : ℕ :=
  (item.sinceSettled server).countP (Asked.isFetchOn server)

end WorkItem

/-- How many fetches the counters allow before an outcome is recorded. -/
def maxAttempts : ℕ := (maxOutageTriesPerServer - 1) + maxTriesPerServer

def AllCounted (item : WorkItem) (server : ServerId) : Prop :=
  ∀ entry ∈ item.sinceSettled server, entry.isFetchOn server = true → entry.isCounted = true

/-- No other server's outcome was recorded after the first attempt on `server`. -/
def Undisturbed (item : WorkItem) (server : ServerId) : Prop :=
  ∀ before other kind after, item.sinceSettled server = before ++ .recorded other kind :: after →
    ∀ entry ∈ before, entry.isFetchOn server = false

theorem rtakeWhile_of_imp {α : Type} {strong weak : α → Bool}
    (weaker : ∀ a, strong a = true → weak a = true) (list : List α) :
    ∃ before, list.rtakeWhile weak = before ++ list.rtakeWhile strong ∧
      (before = [] ∨ ∃ earlier last, before = earlier ++ [last] ∧ strong last = false) := by
  induction list using List.reverseRecOn with
  | nil => exact ⟨[], rfl, Or.inl rfl⟩
  | append_singleton list last ih =>
      by_cases isStrong : strong last = true
      · rcases ih with ⟨before, split, boundary⟩
        refine ⟨before, ?_, boundary⟩
        rw [List.rtakeWhile_concat_pos _ _ _ isStrong,
          List.rtakeWhile_concat_pos _ _ _ (weaker last isStrong), split, List.append_assoc]
      · rw [List.rtakeWhile_concat_neg _ _ _ isStrong]
        refine ⟨_, (List.append_nil _).symm, ?_⟩
        by_cases isWeak : weak last = true
        · exact Or.inr ⟨list.rtakeWhile weak, last, List.rtakeWhile_concat_pos _ _ _ isWeak,
            by simpa using isStrong⟩
        · exact Or.inl (List.rtakeWhile_concat_neg _ _ _ isWeak)

/-- The counters cover the counted fetches. -/
structure Budgeted (item : WorkItem) : Prop where
  spent : item.sinceRestart.countP Asked.isCounted ≤ item.spent
  tries : item.triesOnCurrent < maxTriesPerServer

section Budget

variable {item : WorkItem}

theorem sinceRestart_note_fetch {server : ServerId} {pipelined : Bool} {result : FetchResult} :
    (item.note (.fetch server pipelined result)).sinceRestart =
      item.sinceRestart ++ [.fetch server pipelined result] :=
  List.rtakeWhile_concat_pos _ _ _ rfl

theorem budgeted_submitted {job : NzbJob} {enabledServerIds : List ServerId}
    (itemMem : item ∈ buildWorkItems job enabledServerIds) : Budgeted item := by
  rcases mem_buildWorkItems.mp itemMem with ⟨file, -, article, -, -, -, rfl⟩
  exact ⟨by simp [WorkItem.sinceRestart, workItemOf], by simp [workItemOf, maxTriesPerServer]⟩

theorem Budgeted.withCounters (budgeted : Budgeted item) {server : ServerId} {pipelined : Bool}
    {result : FetchResult} {tries outage : ℕ}
    (counters : CountersAfter (item.note (.fetch server pipelined result))
      (result.isCounted pipelined) tries outage) :
    Budgeted ((item.note (.fetch server pipelined result)).withCounters tries outage) where
  spent := by
    have window : ((item.note (.fetch server pipelined result)).withCounters tries
        outage).sinceRestart = item.sinceRestart ++ [.fetch server pipelined result] :=
      sinceRestart_note_fetch
    have before := budgeted.spent
    have kept := counters.kept
    have spends := counters.spends
    have same : (item.note (.fetch server pipelined result)).spent = item.spent := rfl
    rw [window, List.countP_append, List.countP_singleton, Asked.isCounted]
    split
    next counted =>
      have := spends counted
      omega
    · omega
  tries := by
    rcases counters.capped with same | below
    · rw [WorkItem.withCounters, same]
      exact budgeted.tries
    · exact below

theorem budgeted_restarted (entry : Asked) (restarts : entry.restartsTries = true)
    (ends : item.asked.getLast? = some entry) (tries : item.triesOnCurrent < maxTriesPerServer) :
    Budgeted item where
  spent := by
    rcases List.getLast?_eq_some_iff.mp ends with ⟨earlier, history⟩
    have none : item.sinceRestart = [] := by
      rw [WorkItem.sinceRestart, history]
      exact List.rtakeWhile_concat_neg _ _ _ (by simp [restarts])
    simp [none]
  tries := tries

theorem Budgeted.spent_lt (budgeted : Budgeted item) : item.spent < maxAttempts := by
  have := budgeted.tries
  simp only [WorkItem.spent, maxAttempts]
  omega

theorem attempts_le {server : ServerId} (counted : AllCounted item server)
    (undisturbed : Undisturbed item server) :
    item.attempts server ≤ item.sinceRestart.countP Asked.isCounted := by
  have weaker :
      ∀ entry : Asked, (!entry.restartsTries) = true → (!entry.settles server) = true := by
    intro entry keeps
    cases entry <;> simp_all [Asked.restartsTries, Asked.settles]
  rcases rtakeWhile_of_imp weaker item.asked with ⟨before, split, boundary⟩
  have noneBefore : before.countP (Asked.isFetchOn server) = 0 := by
    rcases boundary with rfl | ⟨earlier, last, rfl, restarts⟩
    · rfl
    · have lastMem : last ∈ item.sinceSettled server := by
        rw [WorkItem.sinceSettled, split]
        simp
      cases last with
      | fetch asked pipelined result => simp [Asked.restartsTries] at restarts
      | recorded other kind =>
          rw [List.countP_eq_zero]
          intro entry entryMem
          rcases List.mem_append.mp entryMem with inEarlier | isLast
          · have window : item.sinceSettled server =
                earlier ++ .recorded other kind :: item.sinceRestart := by
              rw [WorkItem.sinceSettled, split, List.append_assoc]
              rfl
            simp [undisturbed earlier other kind _ window entry inEarlier]
          · rw [List.mem_singleton.mp isLast]
            simp [Asked.isFetchOn]
      | confirm | waited =>
          have := List.mem_rtakeWhile_imp lastMem
          simp [Asked.settles] at this
  calc item.attempts server
      = item.sinceRestart.countP (Asked.isFetchOn server) := by
        rw [WorkItem.attempts, WorkItem.sinceSettled, split, List.countP_append, noneBefore,
          Nat.zero_add, WorkItem.sinceRestart]
    _ ≤ item.sinceRestart.countP Asked.isCounted := by
        apply List.countP_mono_left
        intro entry entryMem isFetch
        apply counted entry _ isFetch
        rw [WorkItem.sinceSettled, split]
        exact List.mem_append_right before entryMem

end Budget

namespace Engine

theorem budgeted_step {engine next : Engine} {event : Event}
    (before : ∀ item, engine.Outstanding item → Budgeted item) (move : Step engine event next) :
    ∀ item, next.Outstanding item → Budgeted item := by
  rintro item (resting | waiting)
  · cases move.facts.resting item resting with
    | kept outstanding => exact before item (Or.inl outstanding)
    | submitted job enabledServerIds deferVolumes order event_eq mem =>
        exact budgeted_submitted mem
    | requeued worker old result answered =>
        have budgeted := before old (Or.inl answered.resting)
        rcases answered.routed.of_requeued with
          ⟨tries, outage, -, counters, rfl⟩ | ⟨kind, -, -, -, rfl⟩
        · exact budgeted.withCounters counters
        · apply budgeted_restarted (.recorded worker.server.id kind) rfl
          · simp [WorkItem.withOutcome]
          · simp [WorkItem.withOutcome, maxTriesPerServer]
    | unanswered worker old workerMem oldMem item_eq =>
        have budgeted := before old (Or.inl (.inFlight worker workerMem oldMem))
        rw [item_eq]
        exact budgeted.withCounters
          (.refl : CountersAfter (fetched worker old .unanswered) false _ _)
    | woken old oldMem item_eq =>
        have budgeted := before old (Or.inr oldMem)
        rw [item_eq]
        apply budgeted_restarted (.waited) rfl
        · simp [WorkItem.note]
        · exact budgeted.tries
  · cases move.facts.delayed item waiting with
    | kept outstanding => exact before item (Or.inr outstanding)
    | confirming worker old confirmed result answered item_eq =>
        rcases answered.routed.of_confirming with ⟨kind, -, -, -, rfl⟩
        rw [item_eq]
        apply budgeted_restarted (.confirm next.providers.requiredIds) rfl
        · simp [WorkItem.note]
        · simp [WorkItem.note, WorkItem.startConfirm, WorkItem.withOutcome, maxTriesPerServer]

theorem budgeted_run {servers : List ServerConfig} {events : List Event} {engine : Engine}
    (run : Run Step (start servers) events engine) :
    ∀ item, engine.Outstanding item → Budgeted item := by
  apply run.invariant (fun _ engine => ∀ item, engine.Outstanding item → Budgeted item)
  · rintro item (resting | waiting)
    · exact absurd resting not_resting_start
    · simp [start] at waiting
  · intro _ engine event next _ before move
    exact budgeted_step before move

/-- An article that is still outstanding has been fetched fewer times than the counters allow on a
server that has no outcome for it, if each of these fetches counted and no other server's outcome
came between them. -/
theorem attempts_lt_maxAttempts {servers : List ServerConfig} {events : List Event}
    {engine : Engine} (run : Run Step (start servers) events engine) {item : WorkItem}
    (outstanding : engine.Outstanding item) {server : ServerId} (counted : AllCounted item server)
    (undisturbed : Undisturbed item server) : item.attempts server < maxAttempts := by
  have budgeted := budgeted_run run item outstanding
  calc item.attempts server
      ≤ item.sinceRestart.countP Asked.isCounted := attempts_le counted undisturbed
    _ ≤ item.spent := budgeted.spent
    _ < maxAttempts := budgeted.spent_lt

def articleAfter (asked : List Asked) : WorkItem where
  jobId := "j"
  fileId := "f"
  filename := "f"
  messageId := "m"
  segmentNumber := 1
  triedServers := []
  providerOutcomes := ∅
  triesOnCurrent := 0
  outageTries := 0
  confirmRounds := 0
  asked := asked

/-- One server, one serial worker, one article at the head of the queue. -/
def atHead (asked : List Asked) : Engine where
  providers := { servers := [provider "A" false], health := fun _ => .new, now := 0 }
  queue := { items := [articleAfter asked], lastServed := (∅ : AList _).insert "A" "j" }
  workers := [{ server := provider "A" false, gate := [], inFlight := [] }]
  delayed := []
  jobs := Function.update (fun _ => none) "j"
    (some { paused := false, cancelled := false, aborted := false, held := .new })
  reports := []

def taken (asked : List Asked) : Engine :=
  { atHead asked with
    queue := { items := [], lastServed := (∅ : AList _).insert "A" "j" }
    workers := [{ server := provider "A" false, gate := [], inFlight := [articleAfter asked] }] }

def protocolError : FetchResult := .error (.protocol "451")

def articleRetried : WorkItem :=
  (articleAfter [.fetch "A" false protocolError]).withCounters 1 0

theorem attempts_lt_maxAttempts_protocol_error : articleRetried.attempts "A" < maxAttempts := by
  have executed : ∃ engine, execute step (start [provider "A" false])
      [.submit (oneArticleJob []) ["A"] false listedAsIs, .spawn (provider "A" false), .take 0,
        .answer 0 0 protocolError] = some engine ∧ articleRetried ∈ engine.queue.items :=
    ⟨_, rfl, List.mem_cons_self⟩
  rcases executed with ⟨engine, executed, queued⟩
  have window : articleRetried.sinceSettled "A" = [.fetch "A" false protocolError] := rfl
  have counted : AllCounted articleRetried "A" := by
    intro entry entryMem _
    rw [window, List.mem_singleton] at entryMem
    rw [entryMem]
    rfl
  have undisturbed : Undisturbed articleRetried "A" := by
    intro before other kind after split
    have recordedMem :
        Asked.recorded other kind ∈ articleRetried.sinceSettled "A" := by simp [split]
    simp [window] at recordedMem
  exact attempts_lt_maxAttempts (run_of_execute executed) (Or.inl (.queued queued)) counted
    undisturbed

/-- The server's circuit is closed, and the server answers no 502, 480, 481, 482 or 403. -/
def Serves (server : ServerId) (engine : Engine) (event : Event) : Prop :=
  engine.providers.isAvailable server = true ∧
    ∀ index position e, event = .answer index position (.error e) → e.isServerWide = false

def connectionLost : NntpError := .connection "reset by peer"

structure ServedRun (events : List Event) (engine : Engine) : Prop where
  run : Run Step (start [provider "A" false]) events engine
  always : Run.Always Step (start [provider "A" false]) (fun _ => Serves "A") events

theorem ServedRun.snoc {events : List Event} {engine : Engine} (served : ServedRun events engine)
    (event : Event) (next : Engine) (serves : Serves "A" engine event)
    (move : engine.step event = some next) : ServedRun (events ++ [event]) next where
  run := served.run.snoc move
  always := served.always.concat_of_functional step_functional served.run serves

/-- The worker takes the article and loses its connection, again and again. -/
def lostTimes : ℕ → List Event
  | 0 =>
      [] ++ [.submit (oneArticleJob []) ["A"] false listedAsIs] ++ [.spawn (provider "A" false)] ++
        [.take 0] ++ [.answer 0 0 (.error connectionLost)]
  | times + 1 => lostTimes times ++ [.take 0] ++ [.answer 0 0 (.error connectionLost)]

theorem servedRun_lostTimes (times : ℕ) : ServedRun (lostTimes times)
    (atHead (List.replicate (times + 1) (.fetch "A" false (.error connectionLost)))) := by
  induction times with
  | zero =>
      have started : ServedRun [] (start [provider "A" false]) := ⟨.start, .nil⟩
      have submitted := started.snoc (.submit (oneArticleJob []) ["A"] false listedAsIs) _
        ⟨rfl, by simp⟩ rfl
      have spawned := submitted.snoc (.spawn (provider "A" false)) _ ⟨rfl, by simp⟩ rfl
      have isTaken := spawned.snoc (.take 0) (taken []) ⟨rfl, by simp⟩ rfl
      exact isTaken.snoc _ _
        ⟨rfl, by simp [connectionLost, NntpError.isServerWide, NntpError.kind]⟩ rfl
  | succ times ih =>
      have isTaken := ih.snoc (.take 0) (taken _) ⟨rfl, by simp⟩ rfl
      rw [List.replicate_succ']
      exact isTaken.snoc _ _
        ⟨rfl, by simp [connectionLost, NntpError.isServerWide, NntpError.kind]⟩ rfl

/-- A serial worker counts no lost connection, so no bound holds. -/
theorem not_attempts_bounded : ¬∃ bound, ∀ (servers : List ServerConfig) (events : List Event)
    (engine : Engine) (item : WorkItem) (server : ServerId),
    Run Step (start servers) events engine →
    Run.Always Step (start servers) (fun _ => Serves server) events →
    engine.Outstanding item → item.attempts server ≤ bound := by
  rintro ⟨bound, bounded⟩
  have served := servedRun_lostTimes bound
  have attempts := bounded _ _ _
    (articleAfter (List.replicate (bound + 1) (.fetch "A" false (.error connectionLost)))) "A"
    served.run served.always (Or.inl (.queued List.mem_cons_self))
  have window : (articleAfter (List.replicate (bound + 1)
      (.fetch "A" false (.error connectionLost)))).attempts "A" = bound + 1 := by
    rw [WorkItem.attempts, WorkItem.sinceSettled, articleAfter, List.rtakeWhile_eq_self_iff.mpr]
    · simp [List.countP_replicate, Asked.isFetchOn]
    · intro entry entryMem
      rw [List.eq_of_mem_replicate entryMem]
      rfl
  omega

end Engine

end Rustnzb.Dispatch
