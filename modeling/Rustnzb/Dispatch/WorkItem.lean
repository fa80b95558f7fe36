import Mathlib.Data.List.AList

/-!
# Articles, providers and failures

The data the download engine routes by: the work item of one article with what each provider has
said about it, the provider list with its circuit breakers, and the classification of NNTP errors.

`WorkItem.asked` is not in the source. It records every fetch of the article, every outcome and
every confirm round, so that statements can speak about what a provider was asked and answered. No
function of the engine reads it.
-/

namespace Rustnzb.Dispatch

abbrev ServerId := String
abbrev JobId := String
abbrev FileId := String

/-- Max times to retry an article on the same server before trying the next. -/
def maxTriesPerServer : ℕ := 3
/-- How many outages one article absorbs on a server before they count as tries. -/
def maxOutageTriesPerServer : ℕ := 10
/-- Consecutive connect failures before circuit-breaking a server. -/
def circuitBreakThreshold : ℕ := 3
def authFailureCooldown : ℕ := 120000
def transientFailureCooldown : ℕ := 30000
/-- Extra rounds an article refused by every server gets before it fails. -/
def confirmAsksPerServer : ℕ := 2

inductive ArticleFailureKind where
  | notFound
  | serverDown
  | authFailed
  | permissionDenied
  | decodeError
  | timeout
  | connectionClosed
  | protocol
  | other
  deriving DecidableEq, Repr

namespace ArticleFailureKind

def asStr : ArticleFailureKind → String
  | notFound => "not_found"
  | serverDown => "server_down"
  | authFailed => "auth_failed"
  | permissionDenied => "permission_denied"
  | decodeError => "decode_error"
  | timeout => "timeout"
  | connectionClosed => "connection_closed"
  | protocol => "protocol"
  | other => "other"

end ArticleFailureKind

structure ArticleFailure where
  kind : ArticleFailureKind
  serverId : ServerId
  message : String
  deriving DecidableEq

inductive NntpError where
  | connection (message : String)
  | tls (message : String)
  | auth (message : String)
  | authRequired (message : String)
  | permissionDenied (message : String)
  | serviceUnavailable (message : String)
  | articleNotFound (message : String)
  | noSuchGroup (message : String)
  | noArticleSelected (message : String)
  | protocol (message : String)
  | unsupportedCommand (message : String)
  | responseTooLarge (message : String)
  | io (message : String)
  | noConnectionsAvailable (message : String)
  | timeout (message : String)
  | allServersExhausted (message : String)
  | shutdown
  deriving DecidableEq

namespace NntpError

def kind : NntpError → ArticleFailureKind
  | articleNotFound _ => .notFound
  | serviceUnavailable _ => .serverDown
  | auth _ | authRequired _ => .authFailed
  | permissionDenied _ => .permissionDenied
  | connection _ | io _ => .connectionClosed
  | timeout _ => .timeout
  | protocol _ | unsupportedCommand _ | responseTooLarge _ => .protocol
  | noSuchGroup _ | noArticleSelected _ => .protocol
  | noConnectionsAvailable _ | allServersExhausted _ | tls _ | shutdown => .other

def display : NntpError → String
  | connection message => "Connection error: " ++ message
  | tls message => "TLS error: " ++ message
  | auth message => "Authentication failed: " ++ message
  | authRequired message => "Authentication required: " ++ message
  | permissionDenied message => "Permission denied: " ++ message
  | serviceUnavailable message => "Service unavailable: " ++ message
  | articleNotFound message => "Article not found: " ++ message
  | noSuchGroup message => "No such group: " ++ message
  | noArticleSelected message => "No article selected: " ++ message
  | protocol message => "Protocol error: " ++ message
  | unsupportedCommand message => "Unsupported command: " ++ message
  | responseTooLarge message => "Response too large: " ++ message
  | io message => "I/O error: " ++ message
  | noConnectionsAvailable message => "No connections available for server " ++ message
  | timeout message => "Timeout: " ++ message
  | allServersExhausted message => "All servers exhausted for article " ++ message
  | shutdown => "Downloader shut down"

def countsAgainstCircuitBreaker : NntpError → Bool
  | connection _ | io _ | tls _ | auth _ | authRequired _ | permissionDenied _
  | serviceUnavailable _ | timeout _ => true
  | _ => false

end NntpError

def containsText (text needle : String) : Bool :=
  text.toList.tails.any fun rest => needle.toList.isPrefixOf rest

def unexpectedArticleResponse (code : ℕ) (message : String) : NntpError :=
  let normalized := message.map Char.toLower
  let expiredSession := code = 400 &&
    ((containsText normalized "idle" && containsText normalized "timeout") ||
      (containsText normalized "session" &&
        (containsText normalized "timeout" || containsText normalized "expired" ||
          containsText normalized "closed")))
  if expiredSession then
    .connection ("NNTP session expired (" ++ toString code ++ "): " ++ message)
  else .protocol ("Unexpected ARTICLE response " ++ toString code ++ ": " ++ message)

/-- What a status line answers to an `ARTICLE` command, on a serial or a pipelined connection.
`body` is what reading the body gives after a 220. -/
def articleResponse {α : Type} (messageId : String) (code : ℕ) (message : String)
    (body : Except NntpError α) : Except NntpError α :=
  match code with
  | 220 => body
  | 430 => .error (.articleNotFound messageId)
  | 411 => .error (.noSuchGroup message)
  | 412 | 420 | 423 => .error (.noArticleSelected message)
  | 403 => .error (.permissionDenied message)
  | 480 => .error (.authRequired message)
  | 481 | 482 =>
      .error (.auth ("ARTICLE rejected (" ++ toString code ++ "): " ++ message))
  | 502 => .error (.serviceUnavailable message)
  | _ => .error (unexpectedArticleResponse code message)

def notHereCodes : List ℕ := [430, 411, 412, 420, 423]

def NntpError.notHere : NntpError → Bool
  | articleNotFound _ | noSuchGroup _ | noArticleSelected _ => true
  | _ => false

theorem notHere_unexpectedArticleResponse (code : ℕ) (message : String) :
    (unexpectedArticleResponse code message).notHere = false := by
  simp only [unexpectedArticleResponse]
  split <;> rfl

structure ServerConfig where
  id : ServerId
  enabled : Bool
  priority : ℕ
  optional : Bool
  pipelining : ℕ
  deriving DecidableEq

/-- The circuit breaker of one server. `disabledUntil` is on the clock of the pool, in
milliseconds. -/
structure ServerHealth where
  consecutiveFailures : ℕ
  disabledUntil : Option ℕ
  deriving DecidableEq

namespace ServerHealth

def new : ServerHealth := { consecutiveFailures := 0, disabledUntil := none }

def isAvailable (health : ServerHealth) (now : ℕ) : Bool :=
  match health.disabledUntil with
  | none => true
  | some deadline => now ≥ deadline

def recordFailure (health : ServerHealth) (now : ℕ) (isAuth : Bool) : ServerHealth :=
  let failures := health.consecutiveFailures + 1
  { consecutiveFailures := failures
    disabledUntil :=
      if isAuth || failures ≥ circuitBreakThreshold then
        some (now + if isAuth then authFailureCooldown else transientFailureCooldown)
      else health.disabledUntil }

end ServerHealth

/-- The server list, the health map and the clock, as one read of their locks sees them. A server
without a health entry is as good as new. -/
structure Providers where
  servers : List ServerConfig
  health : ServerId → ServerHealth
  now : ℕ

namespace Providers

def isAvailable (providers : Providers) (id : ServerId) : Bool :=
  (providers.health id).isAvailable providers.now

def isRequired (providers : Providers) (server : ServerConfig) : Bool :=
  server.enabled && !(server.optional && !providers.isAvailable server.id)

def enabledIds (providers : Providers) : List ServerId :=
  (providers.servers.filter fun server => server.enabled).map ServerConfig.id

def requiredIds (providers : Providers) : List ServerId :=
  (providers.servers.filter providers.isRequired).map ServerConfig.id

/-- Enabled and available servers with a lower priority number than `priority`. -/
def higherPriorityServers (providers : Providers) (priority : ℕ) (serverId : ServerId) :
    List ServerId :=
  (providers.servers.filter fun server =>
    server.enabled && decide (server.priority < priority) && decide (server.id ≠ serverId) &&
      providers.isAvailable server.id).map ServerConfig.id

/-- Count a failure of `server` against its circuit breaker. -/
def recordFailure (providers : Providers) (server : ServerId) (isAuth : Bool) : Providers :=
  { providers with
    health := Function.update providers.health server
      ((providers.health server).recordFailure providers.now isAuth) }

def recordSuccess (providers : Providers) (server : ServerId) : Providers :=
  { providers with health := Function.update providers.health server .new }

end Providers

abbrev Outcomes := AList fun _ : ServerId => ArticleFailureKind

def allEnabledProvidersDefinitive (providers : Providers) (outcomes : Outcomes) : Bool :=
  ((providers.servers.filter fun server => server.enabled).filter fun server =>
    !(server.optional && !providers.isAvailable server.id)).all fun server =>
      decide (server.id ∈ outcomes)

theorem allEnabledProvidersDefinitive_iff {providers : Providers} {outcomes : Outcomes} :
    allEnabledProvidersDefinitive providers outcomes = true ↔
      ∀ id ∈ providers.requiredIds, id ∈ outcomes := by
  simp only [allEnabledProvidersDefinitive, Providers.requiredIds, Providers.isRequired,
    List.all_eq_true, List.mem_filter, decide_eq_true_eq, List.mem_map, Bool.and_eq_true]
  constructor
  · rintro definitive id ⟨server, ⟨serverMem, enabled, needed⟩, rfl⟩
    exact definitive server ⟨⟨serverMem, enabled⟩, needed⟩
  · rintro definitive server ⟨⟨serverMem, enabled⟩, needed⟩
    exact definitive server.id ⟨server, ⟨serverMem, enabled, needed⟩, rfl⟩

/-- Why an article that was read is not assembled. -/
inductive AssemblyFault where
  /-- The local write failed. -/
  | io
  /-- The file, the segment or the range of the write is none of the assembler's. -/
  | rejected
  | emptySegmentData
  /-- The decode task panicked. -/
  | decodeTask
  deriving DecidableEq

/-- What one fetch of one article ended in, as the worker sees it. -/
inductive FetchResult where
  | present
  | error (e : NntpError)
  | decodeError (message : String)
  | assemblyError (fault : AssemblyFault) (message : String)
  | incompleteNzb (message : String)
  | cancelled
  | stalled
  /-- The connection was given up for another reason before a response was read. -/
  | unanswered
  deriving DecidableEq

inductive Asked where
  | fetch (server : ServerId) (pipelined : Bool) (result : FetchResult)
  | recorded (server : ServerId) (kind : ArticleFailureKind)
  /-- Every server in `required` has refused the article, which now waits to be asked again. -/
  | confirm (required : List ServerId)
  | waited

structure WorkItem where
  jobId : JobId
  fileId : FileId
  filename : String
  messageId : String
  segmentNumber : ℕ
  triedServers : List ServerId
  providerOutcomes : Outcomes
  triesOnCurrent : ℕ
  outageTries : ℕ
  confirmRounds : ℕ
  asked : List Asked

def WorkItem.note (item : WorkItem) (entry : Asked) : WorkItem :=
  { item with asked := item.asked ++ [entry] }

end Rustnzb.Dispatch
