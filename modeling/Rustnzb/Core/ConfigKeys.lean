import Rustnzb.Core.ConfigFields

/-!
# The configuration

`AppConfig` with its sections: the fields with their types and serde attributes, and what the
settings registry says of them. The sections are structs of structs in the source; here a
configuration is a value for each field, and `to_value` and `from_value` put the fields in the
objects of their sections and take them from there.
-/

namespace Rustnzb.Core.Config

open Lib

abbrev u8Max : ℕ := 2 ^ 8 - 1
abbrev u16Max : ℕ := 2 ^ 16 - 1
abbrev u32Max : ℕ := 2 ^ 32 - 1
abbrev u64Max : ℕ := 2 ^ 64 - 1

def serverConfig : ItemStruct where
  fields :=
    [.mk "id" (.plain .text) (some ""),
      .mk "name" (.plain .text) (some ""),
      .mk "host" (.plain .text) none,
      .mk "port" (.plain (.uint u16Max)) (some ⟨563, by decide⟩),
      .mk "ssl" (.plain .bool) (some true),
      .mk "ssl_verify" (.plain .bool) (some true),
      .mk "username" (.option .text) (some none),
      .mk "password" (.option .text) (some none),
      .mk "connections" (.plain (.uint u16Max)) (some ⟨8, by decide⟩),
      .mk "priority" (.plain (.uint u8Max)) (some ⟨0, by decide⟩),
      .mk "enabled" (.plain .bool) (some true),
      .mk "retention" (.plain (.uint u32Max)) (some ⟨0, by decide⟩),
      .mk "pipelining" (.plain (.uint u8Max)) (some ⟨4, by decide⟩),
      .mk "optional" (.plain .bool) (some false),
      .mk "compress" (.plain .bool) (some false),
      .mk "ramp_up_delay_ms" (.plain (.uint u32Max)) (some ⟨50, by decide⟩),
      .mk "recv_buffer_size" (.plain (.uint u32Max)) (some ⟨2 * 1024 * 1024, by decide⟩),
      .mk "proxy_url" (.option .text) (some none),
      .mk "trusted_fingerprint" (.option .text) (some none),
      .mk "connect_timeout_secs" (.plain (.uint u32Max)) (some ⟨30, by decide⟩)]
  denyUnknown := false
  distinct := by decide

def categoryConfig : ItemStruct where
  fields :=
    [.mk "name" (.plain .text) none,
      .mk "output_dir" (.option .path) (some none),
      .mk "post_processing" (.plain (.uint u8Max)) none,
      .mk "cleanup_patterns" .texts (some []),
      .mk "unwanted_extensions" .texts (some [])]
  denyUnknown := false
  distinct := by decide

def defaultCategory : Item categoryConfig.fields :=
  (("Default", none, ⟨3, by decide⟩, [], [], ()) :
    String × Option OsPath × { level : ℕ // level ≤ u8Max } × List String × List String × Unit)

def rssFeedConfig : ItemStruct where
  fields :=
    [.mk "name" (.plain .text) none,
      .mk "url" (.plain .text) none,
      .mk "poll_interval_secs" (.plain (.uint u64Max)) (some ⟨900, by decide⟩),
      .mk "category" (.option .text) (some none),
      .mk "filter_regex" (.option .text) (some none),
      .mk "enabled" (.plain .bool) (some true),
      .mk "auto_download" (.plain .bool) (some false),
      .mk "max_age_days" (.option (.uint u64Max)) (some none)]
  denyUnknown := false
  distinct := by decide

def scheduleActions : List String := ["pause", "speed_limit", "disable_servers"]

def scheduleRule : ItemStruct where
  fields :=
    [.mk "id" (.plain .text) (some ""),
      .mk "name" (.plain .text) (some ""),
      .mk "days" .texts (some []),
      .mk "start" (.plain .text) (some "00:00"),
      .mk "end" (.plain .text) (some "24:00"),
      .mk "action" (.plain (.enum scheduleActions)) (some ⟨"pause", by decide⟩),
      .mk "speed_limit_bps" (.plain (.uint u64Max)) (some ⟨0, by decide⟩),
      .mk "servers" .texts (some [])]
  denyUnknown := true
  distinct := by decide

inductive Kind where
  | bool
  | u64 (min max : ℕ)
  | usize (min max : ℕ)
  | u16 (min max : ℕ)
  | u8 (min max : ℕ)
  | f64 (min max : F64)
  | path (optional : Bool)
  | string (optional : Bool) (maxLen : Option ℕ)
  | secret (optional : Bool)
  | enum (values : List String)
  | stringList
  deriving DecidableEq

/-- The object a field is in: `AppConfig` itself or one of its sections. -/
inductive Section where
  | root
  | general
  | otel
  | dav
  | notifications
  | par2
  | schedule
  deriving DecidableEq

namespace Section

def nested : List Section := [general, otel, dav, notifications, par2, schedule]

def name : Section → String
  | root => ""
  | general => "general"
  | otel => "otel"
  | dav => "dav"
  | notifications => "notifications"
  | par2 => "par2"
  | schedule => "schedule"

def denyUnknown : Section → Bool
  | notifications => false
  | root | general | otel | dav | par2 | schedule => true

end Section

structure Field where
  owner : Section
  name : String
  type : FieldType
  missing : type.Value
  skipNone : Bool
  kind : Option Kind
  env : List String

/-- The fields of `AppConfig` and of its sections. -/
inductive Key where
  | configVersion
  | servers
  | categories
  | rssFeeds
  | listenAddr
  | port
  | apiKey
  | incompleteDir
  | completeDir
  | dataDir
  | speedLimitBps
  | cacheSize
  | logLevel
  | logLevelBeforeDebug
  | logFile
  | historyRetention
  | keepHistoryOnArrDelete
  | maxActiveDownloads
  | maxPostProcessingJobs
  | maxRepairWorkers
  | maxExtractWorkers
  | minFreeSpaceBytes
  | watchDir
  | rssHistoryLimit
  | directUnpack
  | maxNestedArchiveDepth
  | abortHopeless
  | earlyFailureCheck
  | requiredCompletionPct
  | articleTimeoutSecs
  | autoSortRemainingPct
  | rssDownloadedItemExpiryDays
  | duplicatePolicy
  | localImportDir
  | queueCompletePers
  | scriptsDir
  | scriptSuccess
  | scriptFailure
  | scriptTimeoutSecs
  | scriptMaxOutputBytes
  | fetchAllowPrivate
  | fetchAllowedHosts
  | groupMaxHeaders
  | shutdownTimeoutSecs
  | trustedProxies
  | stepUpTtlSecs
  | otelEnabled
  | otelEndpoint
  | otelLogsEnabled
  | otelLogsEndpoint
  | otelMetricsEnabled
  | otelMetricsEndpoint
  | otelServiceName
  | davEnabled
  | davAutoSendAll
  | davCategoryRules
  | davUsername
  | davPassword
  | davApiKey
  | davPlaybackReservePct
  | webhookUrl
  | appriseApiUrl
  | appriseUrls
  | ntfyServer
  | ntfyTopic
  | ntfyToken
  | deferVolumes
  | trustInflightVerify
  | scheduleEnabled
  | scheduleRules
  deriving DecidableEq

namespace Key

def field : Key → Field
  | configVersion => .mk .root "config_version" (.item (.plain (.uint u32Max)))
      ⟨0, by decide⟩ false (some (.u64 0 1000)) []
  | servers => .mk .root "servers" (.items serverConfig) [] false none []
  | categories => .mk .root "categories" (.items categoryConfig) [defaultCategory] false none []
  | rssFeeds => .mk .root "rss_feeds" (.items rssFeedConfig) [] false none []
  | listenAddr => .mk .general "listen_addr" (.item (.plain .text))
      "0.0.0.0" false (some (.string false (some 256))) ["RUSTNZB_LISTEN_ADDR"]
  | port => .mk .general "port" (.item (.plain (.uint u16Max)))
      ⟨9090, by decide⟩ false (some (.u16 1 65535)) ["RUSTNZB_PORT"]
  | apiKey => .mk .general "api_key" (.item (.option .text)) none false (some (.secret true)) []
  | incompleteDir => .mk .general "incomplete_dir" (.item (.plain .path))
      (.unicode "/downloads/incomplete") false (some (.path false)) []
  | completeDir => .mk .general "complete_dir" (.item (.plain .path))
      (.unicode "/downloads/complete") false (some (.path false)) []
  | dataDir => .mk .general "data_dir" (.item (.plain .path))
      (.unicode "/data") false (some (.path false)) ["RUSTNZB_DATA_DIR"]
  | speedLimitBps => .mk .general "speed_limit_bps" (.item (.plain (.uint u64Max)))
      ⟨0, by decide⟩ false (some (.u64 0 u64Max)) []
  | cacheSize => .mk .general "cache_size" (.item (.plain (.uint u64Max)))
      ⟨500 * 1024 * 1024, by decide⟩ false (some (.u64 0 u64Max)) []
  | logLevel => .mk .general "log_level" (.item (.plain .text))
      "info" false
        (some (.enum ["error", "warn", "info", "debug", "trace"])) ["RUSTNZB_LOG_LEVEL", "RUST_LOG"]
  | logLevelBeforeDebug => .mk .general "log_level_before_debug" (.item (.option .text))
      none true (some (.string true (some 16))) []
  | logFile => .mk .general "log_file" (.item (.option .path))
      none false (some (.path true)) ["RUSTNZB_LOG_FILE"]
  | historyRetention => .mk .general "history_retention" (.item (.option (.uint u64Max)))
      none false (some (.usize 0 u64Max)) []
  | keepHistoryOnArrDelete => .mk .general "keep_history_on_arr_delete" (.item (.plain .bool))
      true false (some .bool) []
  | maxActiveDownloads => .mk .general "max_active_downloads" (.item (.plain (.uint u64Max)))
      ⟨1, by decide⟩ false (some (.usize 1 100)) []
  | maxPostProcessingJobs => .mk .general "max_post_processing_jobs" (.item (.plain (.uint u64Max)))
      ⟨2, by decide⟩ false (some (.usize 1 32)) []
  | maxRepairWorkers => .mk .general "max_repair_workers" (.item (.plain (.uint u64Max)))
      ⟨1, by decide⟩ false (some (.usize 1 32)) []
  | maxExtractWorkers => .mk .general "max_extract_workers" (.item (.plain (.uint u64Max)))
      ⟨1, by decide⟩ false (some (.usize 1 32)) []
  | minFreeSpaceBytes => .mk .general "min_free_space_bytes" (.item (.plain (.uint u64Max)))
      ⟨1073741824, by decide⟩ false (some (.u64 0 u64Max)) []
  | watchDir => .mk .general "watch_dir" (.item (.option .path)) none false (some (.path true)) []
  | rssHistoryLimit => .mk .general "rss_history_limit" (.item (.option (.uint u64Max)))
      (some ⟨500, by decide⟩) false (some (.usize 0 1000000)) []
  | directUnpack => .mk .general "direct_unpack" (.item (.plain .bool)) true false (some .bool) []
  | maxNestedArchiveDepth => .mk .general "max_nested_archive_depth" (.item (.plain (.uint u8Max)))
      ⟨5, by decide⟩ false (some (.u8 1 20)) []
  | abortHopeless => .mk .general "abort_hopeless" (.item (.plain .bool)) true false (some .bool) []
  | earlyFailureCheck => .mk .general "early_failure_check" (.item (.plain .bool))
      true false (some .bool) []
  | requiredCompletionPct => .mk .general "required_completion_pct" .float
      (.ofNat 100) false (some (.f64 (.ofNat 0) (.ofNat 200))) []
  | articleTimeoutSecs => .mk .general "article_timeout_secs" (.item (.plain (.uint u64Max)))
      ⟨30, by decide⟩ false (some (.u64 1 3600)) []
  | autoSortRemainingPct => .mk .general "auto_sort_remaining_pct" (.item (.plain .bool))
      false false (some .bool) []
  | rssDownloadedItemExpiryDays =>
    .mk .general "rss_downloaded_item_expiry_days" (.item (.option (.uint u64Max)))
      none false (some (.u64 0 36500)) []
  | duplicatePolicy =>
    .mk .general "duplicate_policy" (.item (.plain (.enum ["allow", "warn", "skip"])))
      ⟨"warn", by decide⟩ false (some (.enum ["allow", "warn", "skip"])) []
  | localImportDir => .mk .general "local_import_dir" (.item (.option .path))
      none false (some (.path true)) []
  | queueCompletePers => .mk .general "queue_complete_pers" (.item (.plain .bool))
      false false (some .bool) []
  | scriptsDir => .mk .general "scripts_dir" (.item (.option .path))
      none false (some (.path true)) []
  | scriptSuccess => .mk .general "script_success" (.item (.option .path))
      none false (some (.path true)) []
  | scriptFailure => .mk .general "script_failure" (.item (.option .path))
      none false (some (.path true)) []
  | scriptTimeoutSecs => .mk .general "script_timeout_secs" (.item (.plain (.uint u64Max)))
      ⟨300, by decide⟩ false (some (.u64 1 86400)) []
  | scriptMaxOutputBytes => .mk .general "script_max_output_bytes" (.item (.plain (.uint u64Max)))
      ⟨1024 * 1024, by decide⟩ false (some (.usize 1024 (16 * 1024 * 1024))) []
  | fetchAllowPrivate => .mk .general "fetch_allow_private" (.item (.plain .bool))
      false false (some .bool) []
  | fetchAllowedHosts => .mk .general "fetch_allowed_hosts" (.item .texts)
      [] false (some .stringList) []
  | groupMaxHeaders => .mk .general "group_max_headers" (.item (.plain (.uint u64Max)))
      ⟨100000, by decide⟩ false (some (.usize 1 10000000)) []
  | shutdownTimeoutSecs => .mk .general "shutdown_timeout_secs" (.item (.plain (.uint u64Max)))
      ⟨30, by decide⟩ false (some (.u64 1 3600)) []
  | trustedProxies => .mk .general "trusted_proxies" (.item .texts) [] false (some .stringList) []
  | stepUpTtlSecs => .mk .general "step_up_ttl_secs" (.item (.plain (.uint u64Max)))
      ⟨300, by decide⟩ false (some (.u64 0 86400)) []
  | otelEnabled => .mk .otel "enabled" (.item (.plain .bool)) false false (some .bool) []
  | otelEndpoint => .mk .otel "endpoint" (.item (.plain .text))
      "http://localhost:4317" false (some (.string false (some 512))) []
  | otelLogsEnabled => .mk .otel "logs_enabled" (.item (.option .bool)) none false (some .bool) []
  | otelLogsEndpoint => .mk .otel "logs_endpoint" (.item (.option .text))
      none false (some (.string true (some 512))) []
  | otelMetricsEnabled => .mk .otel "metrics_enabled" (.item (.option .bool))
      none false (some .bool) []
  | otelMetricsEndpoint => .mk .otel "metrics_endpoint" (.item (.option .text))
      none false (some (.string true (some 512))) []
  | otelServiceName => .mk .otel "service_name" (.item (.plain .text))
      "rustnzb" false (some (.string false (some 128))) []
  | davEnabled => .mk .dav "enabled" (.item (.plain .bool))
      false false (some .bool) ["RUSTNZB_DAV_ENABLED"]
  | davAutoSendAll => .mk .dav "auto_send_all" (.item (.plain .bool)) false false (some .bool) []
  | davCategoryRules => .mk .dav "category_rules" (.item .texts) [] false (some .stringList) []
  | davUsername => .mk .dav "username" (.item (.option .text))
      none false (some (.string true (some 256))) []
  | davPassword => .mk .dav "password" (.item (.option .text)) none false (some (.secret true)) []
  | davApiKey => .mk .dav "api_key" (.item (.option .text)) none false (some (.secret true)) []
  | davPlaybackReservePct => .mk .dav "playback_reserve_pct" (.item (.plain (.uint u8Max)))
      ⟨25, by decide⟩ false (some (.u8 0 90)) []
  | webhookUrl => .mk .notifications "webhook_url" (.item (.plain .text))
      "" false (some (.secret false)) []
  | appriseApiUrl => .mk .notifications "apprise_api_url" (.item (.plain .text))
      "" false (some (.secret false)) []
  | appriseUrls => .mk .notifications "apprise_urls" (.item (.plain .text))
      "" false (some (.secret false)) []
  | ntfyServer => .mk .notifications "ntfy_server" (.item (.plain .text))
      "https://ntfy.sh" false (some (.string false (some 512))) []
  | ntfyTopic => .mk .notifications "ntfy_topic" (.item (.plain .text))
      "" false (some (.string false (some 256))) []
  | ntfyToken => .mk .notifications "ntfy_token" (.item (.plain .text))
      "" false (some (.secret false)) []
  | deferVolumes => .mk .par2 "defer_volumes" (.item (.plain .bool)) true false (some .bool) []
  | trustInflightVerify => .mk .par2 "trust_inflight_verify" (.item (.plain .bool))
      true false (some .bool) []
  | scheduleEnabled => .mk .schedule "enabled" (.item (.plain .bool)) false false (some .bool) []
  | scheduleRules => .mk .schedule "rules" (.items scheduleRule) [] false none []

def keys : Section → List Key
  | .root =>
      [.configVersion, .servers, .categories, .rssFeeds]
  | .general =>
      [.listenAddr, .port, .apiKey, .incompleteDir, .completeDir, .dataDir, .speedLimitBps,
        .cacheSize, .logLevel, .logLevelBeforeDebug, .logFile, .historyRetention,
        .keepHistoryOnArrDelete, .maxActiveDownloads, .maxPostProcessingJobs, .maxRepairWorkers,
        .maxExtractWorkers, .minFreeSpaceBytes, .watchDir, .rssHistoryLimit, .directUnpack,
        .maxNestedArchiveDepth, .abortHopeless, .earlyFailureCheck, .requiredCompletionPct,
        .articleTimeoutSecs, .autoSortRemainingPct, .rssDownloadedItemExpiryDays, .duplicatePolicy,
        .localImportDir, .queueCompletePers, .scriptsDir, .scriptSuccess, .scriptFailure,
        .scriptTimeoutSecs, .scriptMaxOutputBytes, .fetchAllowPrivate, .fetchAllowedHosts,
        .groupMaxHeaders, .shutdownTimeoutSecs, .trustedProxies, .stepUpTtlSecs]
  | .otel =>
      [.otelEnabled, .otelEndpoint, .otelLogsEnabled, .otelLogsEndpoint, .otelMetricsEnabled,
        .otelMetricsEndpoint, .otelServiceName]
  | .dav =>
      [.davEnabled, .davAutoSendAll, .davCategoryRules, .davUsername, .davPassword, .davApiKey,
        .davPlaybackReservePct]
  | .notifications =>
      [.webhookUrl, .appriseApiUrl, .appriseUrls, .ntfyServer, .ntfyTopic, .ntfyToken]
  | .par2 =>
      [.deferVolumes, .trustInflightVerify]
  | .schedule =>
      [.scheduleEnabled, .scheduleRules]

theorem mem_keys (key : Key) : key ∈ keys key.field.owner := by
  cases key <;> decide

theorem names_nodup (owner : Section) : ((keys owner).map fun key => key.field.name).Nodup := by
  cases owner <;> decide

def path (key : Key) : List String :=
  match key.field.owner with
  | .root => [key.field.name]
  | owner => [owner.name, key.field.name]

abbrev Value (key : Key) : Type := key.field.type.Value

theorem eq_of_name_eq {key other : Key} (sameOwner : key.field.owner = other.field.owner)
    (sameName : key.field.name = other.field.name) : key = other :=
  List.inj_on_of_nodup_map (names_nodup key.field.owner) key.mem_keys
    (sameOwner ▸ other.mem_keys) sameName

theorem root_name_ne (owner : Section) : ∀ key ∈ keys .root, key.field.name ≠ owner.name := by
  cases owner <;> decide

theorem path_of_root {key : Key} (isRoot : key.field.owner = .root) :
    key.path = [key.field.name] := by
  simp [path, isRoot]

theorem path_of_nested {key : Key} (isNested : key.field.owner ≠ .root) :
    key.path = [key.field.owner.name, key.field.name] := by
  unfold path
  split
  next isRoot => exact absurd isRoot isNested
  · rfl

end Key

theorem Section.eq_of_name_eq {owner other : Section} (same : owner.name = other.name) :
    owner = other := by
  cases owner <;> cases other <;> first | rfl | exact absurd same (by decide)

namespace Key

theorem apart {key other : Key} (differs : key ≠ other) : Json.Apart key.path other.path := by
  by_cases isRoot : key.field.owner = .root
  · rw [path_of_root isRoot]
    by_cases otherRoot : other.field.owner = .root
    · rw [path_of_root otherRoot]
      exact .inl fun same => differs (eq_of_name_eq (isRoot.trans otherRoot.symm) same)
    · rw [path_of_nested otherRoot]
      exact .inl (root_name_ne _ key (isRoot ▸ key.mem_keys))
  · rw [path_of_nested isRoot]
    by_cases otherRoot : other.field.owner = .root
    · rw [path_of_root otherRoot]
      exact .inl (root_name_ne _ other (otherRoot ▸ other.mem_keys)).symm
    · rw [path_of_nested otherRoot]
      by_cases sameOwner : key.field.owner = other.field.owner
      · exact .inr (.inl fun same => differs (eq_of_name_eq sameOwner same))
      · exact .inl fun same => sameOwner (Section.eq_of_name_eq same)

def all : List Key := (.root :: Section.nested).flatMap keys

theorem mem_all (key : Key) : key ∈ all := by
  rw [all, List.mem_flatMap]
  refine ⟨key.field.owner, ?_, key.mem_keys⟩
  cases key.field.owner <;> decide

end Key

def AppConfig : Type := (key : Key) → key.Value

namespace AppConfig

def set (config : AppConfig) (key : Key) (value : key.Value) : AppConfig :=
  Function.update config key value

@[simp]
theorem set_self (config : AppConfig) (key : Key) (value : key.Value) :
    config.set key value key = value :=
  Function.update_self key value config

theorem set_of_ne {key other : Key} (differs : other ≠ key) (config : AppConfig)
    (value : key.Value) : config.set key value other = config other :=
  Function.update_of_ne differs value config

def present (config : AppConfig) (key : Key) : Bool :=
  !(key.field.skipNone && key.field.type.isNone (config key))

def member (config : AppConfig) (key : Key) : String × Json Number :=
  (key.field.name, key.field.type.toValue (config key))

def members (config : AppConfig) (owner : Section) : List (String × Json Number) :=
  ((Key.keys owner).filter config.present).map config.member

def document (config : AppConfig) : Json Number :=
  .object (config.members .root ++
    Section.nested.map fun owner => (owner.name, .object (config.members owner)))

def writable (config : AppConfig) : Bool :=
  Key.all.all fun key => key.field.type.writable (config key)

def toValue (config : AppConfig) : Option (Json Number) :=
  if config.writable then some config.document else none

def readField (document : Json Number) (key : Key) : Option key.Value :=
  match document.at? key.path with
  | none => some key.field.missing
  | some value => key.field.type.fromValue value

def wellFormed (document : Json Number) : Bool :=
  document.knownIn ((Key.keys .root).map (·.field.name) ++ Section.nested.map Section.name) &&
    Section.nested.all fun owner =>
      match document.get owner.name with
      | none => true
      | some nested =>
          match nested with
          | .object _ =>
              !owner.denyUnknown || nested.knownIn ((Key.keys owner).map (·.field.name))
          | _ => false

def fromValue (document : Json Number) : Option AppConfig :=
  if all : wellFormed document = true ∧ ∀ key ∈ Key.all, (readField document key).isSome then
    some fun key => (readField document key).get (all.2 key key.mem_all)
  else none

end AppConfig

end Rustnzb.Core.Config
