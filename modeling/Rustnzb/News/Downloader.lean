import Rustnzb.Lib.Registry
import Rustnzb.Lib.Run

/-!
# The news downloader

The scheduler, the queue of each server and the wrapper workers of `nzb-news`, which pass work items
by queues and channels. A turn goes up to the next access to one of them, or to one `await`.

A label says what the rest of the program answers: which server is selected for an article, from its
try lists and the servers' state and probes, or that it is given up; what a connection does; when a
time is over. The order in which `select!` polls is left out, since a message may arrive between two
polls, and so is the order in which `dispatch_pending` visits its items. An outcome is logged with
its item, of which the receiver sees only the tag; `taken` is not in the source.
-/

namespace Rustnzb.News

open Lib

abbrev ServerId := String
abbrev JobId := String
abbrev WorkTag := ℕ

structure WorkItem where
  tag : WorkTag
  jobId : JobId
  file : ℕ
  job : ℕ
  deriving DecidableEq

inductive FetchOutcome where
  | success (item : WorkItem) (serverId : ServerId) (bytes : ℕ)
  | failed (item : WorkItem)
  | cancelled (item : WorkItem)

namespace FetchOutcome

def item : FetchOutcome → WorkItem
  | success item _ _ | failed item | cancelled item => item

def tag (outcome : FetchOutcome) : WorkTag := outcome.item.tag

def isSuccess : FetchOutcome → Bool
  | success .. => true
  | _ => false

def isFailed : FetchOutcome → Bool
  | failed _ => true
  | _ => false

end FetchOutcome

inductive SchedulerMsg where
  /-- The length of the article, or `none` for an error. -/
  | fetchResult (item : WorkItem) (server : ServerId) (result : Option ℕ)
  | returnUnattempted (items : List WorkItem)
  | allWrappersExited (serverId : ServerId)

inductive ControlMsg where
  | pauseJob (jobId : JobId)
  | resumeJob (jobId : JobId)
  | purgeJob (jobId : JobId)

inductive WrapperStage where
  /-- In the `select!` of the shutdown and `pop_batch`. -/
  | popping
  | connecting (batch : List WorkItem)
  | streaming (left : List WorkItem)
  | sending (left : List WorkItem) (item : WorkItem) (result : Option ℕ)
  | failing (left : List WorkItem)
  | leaving
  | retiring
  | returning (stranded : List WorkItem)
  | announcing

structure Wrapper where
  server : ServerId
  consecutiveConnectFailures : ℕ
  stage : WrapperStage

structure ServerConfig where
  connections : ℕ
  pipelining : ℕ

structure ServerQueue where
  config : ServerConfig
  deque : List WorkItem
  activeWrappers : ℕ
  respawn : Bool

inductive Selection where
  | server (serverId : ServerId)
  /-- The item stays: no server can take it now, a probe is out, or the queue is full. -/
  | keep
  | giveUp

inductive Stage where
  | spawning (left : List (ServerId × ℕ))
  | dispatching (left : List WorkItem) (routed : List (ServerId × WorkItem))
      (giveUps : List WorkItem)
  | selecting
  /-- `drain_job` for a pause or a purge, at the queues that are left. -/
  | draining (jobId : JobId) (purge : Bool) (left : List ServerId)
  | moreControl
  | moreWork
  | moreMessages
  | closing
  | exited

structure Counters where
  completedArticles : ℕ → ℕ
  articlesDownloaded : ℕ → ℕ
  articlesFailed : ℕ → ℕ

namespace Counters

def zero : Counters := ⟨fun _ => 0, fun _ => 0, fun _ => 0⟩

/-- `record_article_downloaded` and `mark_article_completed`. -/
def downloaded (counters : Counters) (item : WorkItem) : Counters :=
  { counters with
    completedArticles := Function.update counters.completedArticles item.file
      (counters.completedArticles item.file + 1)
    articlesDownloaded := Function.update counters.articlesDownloaded item.job
      (counters.articlesDownloaded item.job + 1) }

/-- `record_article_given_up`. -/
def givenUp (counters : Counters) (item : WorkItem) : Counters :=
  { counters with
    completedArticles := Function.update counters.completedArticles item.file
      (counters.completedArticles item.file + 1)
    articlesFailed := Function.update counters.articlesFailed item.job
      (counters.articlesFailed item.job + 1) }

end Counters

structure Downloader where
  work : List WorkItem
  workClosed : Bool
  control : List ControlMsg
  messages : List SchedulerMsg
  outcomes : List FetchOutcome
  pending : List WorkItem
  pausedJobs : List JobId
  stage : Stage
  queues : Registry ServerId ServerQueue
  closed : Bool
  shutdown : Bool
  wrappers : Registry ℕ Wrapper
  spawned : ℕ
  counters : Counters
  taken : List WorkItem

inductive CallerTurn where
  | submit (item : WorkItem)
  | dropSenders
  | control (msg : ControlMsg)
  | shutdown

inductive SchedulerTurn where
  | spawn
  | route (selection : Selection)
  | pushMany
  | emitGiveUps
  | takeControl
  | drainJob
  | endControl
  | takeWork
  | endWork
  | workClosed
  /-- Whether an item that failed is given up is said by `select_server`. -/
  | takeMessage (giveUp : Bool)
  | endMessages
  | retryDispatch
  | respawn (serverId : ServerId)
  | shutdown
  | drainMessage (giveUp : Bool)
  | exit

inductive WrapperTurn where
  | popBatch
  | shutdown
  | queueClosed
  | connected
  | connectFailed (terminalClass : Bool)
  | pauseAbort
  | receive (result : Option ℕ)
  | sendResult
  | fatal
  | sendFailure
  | batchDone
  | unregister
  | drainAll
  | returnStranded
  | announce

inductive Label where
  | caller (turn : CallerTurn)
  | scheduler (turn : SchedulerTurn)
  | wrapper (key : ℕ) (turn : WrapperTurn)

def maxConsecutiveConnectFailures : ℕ := 3

namespace Downloader

def start (servers : Registry ServerId ServerConfig) : Downloader where
  work := []
  workClosed := false
  control := []
  messages := []
  outcomes := []
  pending := []
  pausedJobs := []
  stage := .spawning (servers.entries.map fun server => (server.1, max server.2.connections 1))
  queues := servers.mapValues fun _ config => ⟨config, [], 0, false⟩
  closed := false
  shutdown := false
  wrappers := ∅
  spawned := 0
  counters := .zero
  taken := []

def dequeOf (state : Downloader) (serverId : ServerId) : List WorkItem :=
  (state.queues.lookup serverId).elim [] ServerQueue.deque

def callerNext (state : Downloader) : CallerTurn → Option Downloader
  | .submit item =>
      if item.tag ∈ (state.taken ++ state.work).map WorkItem.tag then none
      else some { state with work := state.work ++ [item] }
  | .dropSenders => some { state with workClosed := true }
  | .control msg => some { state with control := state.control ++ [msg] }
  | .shutdown => some { state with shutdown := true }

def setStage (state : Downloader) (stage : Stage) : Downloader :=
  { state with stage := stage }

/-- The top of the loop: `dispatch_pending` begins. -/
def loop (state : Downloader) : Downloader :=
  { state with pending := [], stage := .dispatching state.pending [] [] }

def dropPending (state : Downloader) : Downloader :=
  { state with pending := [] }

def leaveLoop (state : Downloader) : Downloader :=
  { state with
    closed := true
    outcomes := state.outcomes ++ state.pending.map .cancelled
    pending := []
    stage := .closing }

def keep (state : Downloader) (item : WorkItem) (left : List WorkItem)
    (routed : List (ServerId × WorkItem)) (giveUps : List WorkItem) : Downloader :=
  { state with
    pending := state.pending ++ [item]
    stage := .dispatching left routed giveUps }

/-- One item of `dispatch_pending`'s first pass. -/
def route (state : Downloader) (item : WorkItem) (left : List WorkItem)
    (routed : List (ServerId × WorkItem)) (giveUps : List WorkItem) (selection : Selection) :
    Downloader :=
  if item.jobId ∈ state.pausedJobs then state.keep item left routed giveUps
  else
    match selection with
    | .keep => state.keep item left routed giveUps
    | .giveUp =>
        { state with
          counters := state.counters.givenUp item
          stage := .dispatching left routed (giveUps ++ [item]) }
    | .server serverId =>
        if serverId ∈ state.queues then
          { state with stage := .dispatching left (routed ++ [(serverId, item)]) giveUps }
        else state.keep item left routed giveUps

def pushMany (state : Downloader) (serverId : ServerId) (items : List WorkItem) : Downloader :=
  { state with queues := state.queues.modify serverId fun queue =>
      { queue with deque := queue.deque ++ items } }

def handleControl (state : Downloader) (first : Bool) : ControlMsg → Downloader
  | .pauseJob jobId =>
      if jobId ∈ state.pausedJobs then { state with stage := .moreControl }
      else
        { state with
          pausedJobs := jobId :: state.pausedJobs
          stage := .draining jobId false state.queues.keys }
  | .resumeJob jobId =>
      { state with
        pausedJobs := state.pausedJobs.filter fun paused => paused ≠ jobId
        stage := .moreControl }
  | .purgeJob jobId =>
      { state with
        pending := state.pending.filter fun item => item.jobId ≠ jobId
        outcomes :=
          if first then
            state.outcomes ++ (state.pending.filter fun item => item.jobId = jobId).map .cancelled
          else state.outcomes
        stage := .draining jobId true state.queues.keys }

def drainJob (state : Downloader) (jobId : JobId) (purge : Bool) (serverId : ServerId)
    (left : List ServerId) : Downloader :=
  let removed := (state.dequeOf serverId).filter fun item => item.jobId = jobId
  { state with
    queues := state.queues.modify serverId fun queue =>
      { queue with deque := queue.deque.filter fun item => item.jobId ≠ jobId }
    pending := if purge then state.pending else state.pending ++ removed
    outcomes := if purge then state.outcomes ++ removed.map .cancelled else state.outcomes
    stage := .draining jobId purge left }

def setRespawn (state : Downloader) (serverId : ServerId) (respawn : Bool) : Downloader :=
  { state with
    queues := state.queues.modify serverId fun queue => { queue with respawn := respawn } }

def handleMsg (state : Downloader) (giveUp : Bool) : SchedulerMsg → Downloader
  | .fetchResult item server (some bytes) =>
      { state with
        counters := state.counters.downloaded item
        outcomes := state.outcomes ++ [.success item server bytes] }
  | .fetchResult item _ none =>
      if giveUp then
        { state with
          counters := state.counters.givenUp item
          outcomes := state.outcomes ++ [.failed item] }
      else { state with pending := state.pending ++ [item] }
  | .returnUnattempted items => { state with pending := state.pending ++ items }
  | .allWrappersExited serverId => state.setRespawn serverId true

def takeItem (state : Downloader) (item : WorkItem) (rest : List WorkItem) : Downloader :=
  { state with
    work := rest
    pending := state.pending ++ [item]
    taken := state.taken ++ [item]
    stage := .moreWork }

def spawnWrapper (state : Downloader) (serverId : ServerId) : Downloader :=
  { state with
    queues := state.queues.modify serverId fun queue =>
      { queue with activeWrappers := queue.activeWrappers + 1 }
    wrappers := state.wrappers.put state.spawned (some ⟨serverId, 0, .popping⟩)
    spawned := state.spawned + 1 }

def schedulerNext (state : Downloader) : SchedulerTurn → Option Downloader
  | .spawn =>
      match state.stage with
      | .spawning ((serverId, left + 1) :: rest) =>
          some ((state.spawnWrapper serverId).setStage (.spawning ((serverId, left) :: rest)))
      | .spawning ((_, 0) :: rest) => some (state.setStage (.spawning rest))
      | .spawning [] => some state.loop
      | _ => none
  | .route selection =>
      match state.stage with
      | .dispatching (item :: left) routed giveUps =>
          some (state.route item left routed giveUps selection)
      | _ => none
  | .pushMany =>
      match state.stage with
      | .dispatching [] ((serverId, item) :: routed) giveUps =>
          let batch := ((serverId, item) :: routed).filter fun pair => pair.1 = serverId
          some ((state.pushMany serverId (batch.map Prod.snd)).setStage
            (.dispatching [] (routed.filter fun pair => pair.1 ≠ serverId) giveUps))
      | _ => none
  | .emitGiveUps =>
      match state.stage with
      | .dispatching [] [] giveUps =>
          some { state with outcomes := state.outcomes ++ giveUps.map .failed, stage := .selecting }
      | _ => none
  | .takeControl =>
      match state.stage, state.control with
      | .selecting, msg :: rest => some ({ state with control := rest }.handleControl true msg)
      | .moreControl, msg :: rest => some ({ state with control := rest }.handleControl false msg)
      | _, _ => none
  | .drainJob =>
      match state.stage with
      | .draining jobId purge (serverId :: left) => some (state.drainJob jobId purge serverId left)
      | .draining jobId purge [] =>
          some { state with
            pausedJobs :=
              if purge then state.pausedJobs.filter fun paused => paused ≠ jobId
              else state.pausedJobs
            stage := .moreControl }
      | _ => none
  | .endControl =>
      match state.stage, state.control with
      | .moreControl, [] => some state.loop
      | _, _ => none
  | .takeWork =>
      match state.stage, state.work with
      | .selecting, item :: rest | .moreWork, item :: rest =>
          some (state.takeItem item rest)
      | _, _ => none
  | .endWork =>
      match state.stage, state.work with
      | .moreWork, [] => some state.loop
      | _, _ => none
  | .workClosed =>
      match state.stage, state.work with
      | .selecting, [] =>
          if state.workClosed then
            if state.pending = [] then some state.leaveLoop else some state.loop
          else none
      | _, _ => none
  | .takeMessage giveUp =>
      match state.stage, state.messages with
      | .selecting, msg :: rest | .moreMessages, msg :: rest =>
          some (({ state with messages := rest }.handleMsg giveUp msg).setStage .moreMessages)
      | _, _ => none
  | .endMessages =>
      match state.stage, state.messages with
      | .moreMessages, [] => some state.loop
      | _, _ => none
  | .retryDispatch =>
      match state.stage with
      | .selecting => some state.loop
      | _ => none
  | .respawn serverId =>
      match state.stage, state.queues.lookup serverId with
      | .selecting, some queue =>
          if queue.respawn then
            if 0 < queue.activeWrappers then some (state.setRespawn serverId false).loop
            else
              some ((state.setRespawn serverId false).setStage
                (.spawning [(serverId, max queue.config.connections 1)]))
          else none
      | _, _ => none
  | .shutdown =>
      match state.stage with
      | .selecting => if state.shutdown then some state.leaveLoop else none
      | _ => none
  | .drainMessage giveUp =>
      match state.stage, state.messages with
      | .closing, msg :: rest =>
          -- requeued items go to a `Vec` of the call's own
          some ({ state with messages := rest }.handleMsg giveUp msg).dropPending
      | _, _ => none
  | .exit =>
      match state.stage, state.messages with
      | .closing, [] =>
          if state.wrappers.keys = [] then some (state.setStage .exited) else none
      | _, _ => none

def setDeque (state : Downloader) (serverId : ServerId) (deque : List WorkItem) : Downloader :=
  { state with queues := state.queues.modify serverId fun queue => { queue with deque := deque } }

def send (state : Downloader) (msg : SchedulerMsg) : Downloader :=
  { state with messages := state.messages ++ [msg] }

def unregister (state : Downloader) (serverId : ServerId) : Downloader :=
  { state with queues := state.queues.modify serverId fun queue =>
      { queue with activeWrappers := queue.activeWrappers - 1 } }

/-- What `unregister_wrapper` returns. -/
def remaining (state : Downloader) (serverId : ServerId) : ℕ :=
  (state.queues.lookup serverId).elim 0 fun queue => queue.activeWrappers - 1

def wrapperTurn (state : Downloader) (wrapper : Wrapper) :
    WrapperTurn → WrapperStage → Option (Downloader × Option Wrapper)
  | .popBatch, .popping =>
      match state.dequeOf wrapper.server with
      | [] => none
      | deque =>
          let depth := (state.queues.lookup wrapper.server).elim 1
            fun queue => max queue.config.pipelining 1
          some (state.setDeque wrapper.server (deque.drop depth),
            some { wrapper with stage := .connecting (deque.take depth) })
  | .shutdown, .popping =>
      if state.shutdown then some (state, some { wrapper with stage := .leaving }) else none
  | .queueClosed, .popping =>
      if state.dequeOf wrapper.server = [] ∧ state.closed = true then
        some (state, some { wrapper with stage := .leaving })
      else none
  | .connected, .connecting batch =>
      some (state,
        some { wrapper with consecutiveConnectFailures := 0, stage := .streaming batch })
  | .connectFailed terminalClass, .connecting batch =>
      let failures := wrapper.consecutiveConnectFailures + 1
      some (state.send (.returnUnattempted batch), some { wrapper with
        consecutiveConnectFailures := failures
        stage :=
          if terminalClass ∧ maxConsecutiveConnectFailures ≤ failures then .leaving else .popping })
  | .pauseAbort, .streaming left =>
      if left.any fun item => item.jobId ∈ state.pausedJobs then
        some (state.send (.returnUnattempted left), some { wrapper with stage := .popping })
      else none
  | .receive result, .streaming (item :: left) =>
      some (state, some { wrapper with stage := .sending left item result })
  | .sendResult, .sending left item result =>
      some (state.send (.fetchResult item wrapper.server result),
        some { wrapper with stage := .streaming left })
  | .fatal, .streaming left => some (state, some { wrapper with stage := .failing left })
  | .fatal, .sending left _ _ => some (state, some { wrapper with stage := .failing left })
  | .sendFailure, .failing (item :: left) =>
      some (state.send (.fetchResult item wrapper.server none),
        some { wrapper with stage := .failing left })
  | .batchDone, .streaming [] => some (state, some { wrapper with stage := .popping })
  | .batchDone, .failing [] => some (state, some { wrapper with stage := .popping })
  | .unregister, .leaving =>
      some (state.unregister wrapper.server,
        if state.remaining wrapper.server = 0 then
          some { wrapper with stage := .retiring } else none)
  | .drainAll, .retiring =>
      some (state.setDeque wrapper.server [],
        some { wrapper with stage := .returning (state.dequeOf wrapper.server) })
  | .returnStranded, .returning stranded =>
      some (if stranded = [] then state else state.send (.returnUnattempted stranded),
        some { wrapper with stage := .announcing })
  | .announce, .announcing => some (state.send (.allWrappersExited wrapper.server), none)
  | _, _ => none

def wrapperNext (state : Downloader) (key : ℕ) (turn : WrapperTurn) : Option Downloader :=
  (state.wrappers.lookup key).bind fun wrapper =>
    (state.wrapperTurn wrapper turn wrapper.stage).map fun turned =>
      { turned.1 with wrappers := state.wrappers.put key turned.2 }

def next (state : Downloader) : Label → Option Downloader
  | .caller turn => state.callerNext turn
  | .scheduler turn => state.schedulerNext turn
  | .wrapper key turn => state.wrapperNext key turn

def Step (state : Downloader) (label : Label) (state' : Downloader) : Prop :=
  state.next label = some state'

end Downloader

end Rustnzb.News
