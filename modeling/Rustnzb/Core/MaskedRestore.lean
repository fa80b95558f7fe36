import Rustnzb.Core.NzbParser
import Rustnzb.Core.SecretMasks

/-!
# Restoring a masked backup

A restore puts the stored secrets in the place of the masks of the document. The summary counts the
secrets it kept, and warns of each mask that has nothing to keep.
-/

namespace Rustnzb.Core

variable {Rest : Type}

/-- What a restore reports. -/
structure RestoreSummary where
  secretsKept : ℕ
  warnings : List String
  deriving DecidableEq

namespace RestoreSummary

def keep (summary : RestoreSummary) : RestoreSummary :=
  { summary with secretsKept := summary.secretsKept + 1 }

def warn (summary : RestoreSummary) (warning : String) : RestoreSummary :=
  { summary with warnings := summary.warnings ++ [warning] }

end RestoreSummary

def loginMask : List Char := secretMask ++ ['@']

def defaultEndpoint : List Char := "http://localhost:4317".toList

def isMask (value : Option (List Char)) : Bool := value = some secretMask

/-- A masked value stands for the stored one. -/
def mergeSecret (warning : String) (incoming stored : Option (List Char))
    (summary : RestoreSummary) : Option (List Char) × RestoreSummary :=
  if isMask incoming then
    match stored with
    | some existing => (some existing, summary.keep)
    | none => (none, summary.warn warning)
  else (incoming, summary)

def emptyWarning (field : String) : String :=
  s!"{field} was masked and this install has no value to keep; it stays empty"

def mergeText (field : String) (incoming stored : List Char) (summary : RestoreSummary) :
    List Char × RestoreSummary :=
  if incoming = secretMask then
    if stored = [] then ([], summary.warn (emptyWarning field)) else (stored, summary.keep)
  else (incoming, summary)

def endpointWarning : String :=
  "otel.endpoint is masked and this install has no matching endpoint to keep; " ++
    "it returns to the default"

/-- A masked endpoint stands for the stored one if that has the same mask. -/
def mergeEndpoint (incoming stored : List Char) (summary : RestoreSummary) :
    List Char × RestoreSummary :=
  if secretMask <:+: incoming then
    if incoming = maskProxyUserinfo stored then (stored, summary.keep)
    else (defaultEndpoint, summary.warn endpointWarning)
  else (incoming, summary)

def signalWarning (field : String) : String :=
  s!"{field} is masked and this install has no matching endpoint to keep; it stays unset"

def mergeSignalEndpoint (field : String) (incoming stored : Option (List Char))
    (summary : RestoreSummary) : Option (List Char) × RestoreSummary :=
  match incoming with
  | none => (incoming, summary)
  | some current =>
      if secretMask <:+: current then
        match stored with
        | some storedUrl =>
            if current = maskProxyUserinfo storedUrl then (some storedUrl, summary.keep)
            else (none, summary.warn (signalWarning field))
        | none => (none, summary.warn (signalWarning field))
      else (incoming, summary)

def feedWarning (name : String) : String :=
  s!"RSS feed `{name}` has a masked URL and this install has no matching feed; " ++
    "the feed was dropped, so add it again with its URL"

/-- A masked feed that no stored feed of its name has the mask of is dropped. -/
def mergeFeeds (stored : List (RssFeedConfig Rest)) :
    List (RssFeedConfig Rest) → RestoreSummary → List (RssFeedConfig Rest) × RestoreSummary
  | [], summary => ([], summary)
  | feed :: feeds, summary =>
      if secretMask <:+: feed.url then
        match stored.find? fun storedFeed =>
            storedFeed.name = feed.name ∧ maskUrlSecrets storedFeed.url = feed.url with
        | some storedFeed =>
            let rest := mergeFeeds stored feeds summary.keep
            ({ feed with url := storedFeed.url } :: rest.1, rest.2)
        | none => mergeFeeds stored feeds (summary.warn (feedWarning feed.name))
      else
        let rest := mergeFeeds stored feeds summary
        (feed :: rest.1, rest.2)

def serverLabel (server : ServerConfig Rest) : String :=
  if trim server.name.toList = [] then server.id else s!"{server.name} ({server.id})"

def unknownPasswordWarning (server : ServerConfig Rest) : String :=
  s!"server `{serverLabel server}` was masked and is not configured here; " ++
    "its password stays unset"

def unknownProxyWarning (server : ServerConfig Rest) : String :=
  s!"server `{serverLabel server}` has a masked proxy URL and is not configured here; " ++
    "the proxy stays unset"

def passwordWarning (server : ServerConfig Rest) : String :=
  s!"server `{serverLabel server}` was masked and has no stored password to keep"

def proxyWarning (server : ServerConfig Rest) : String :=
  s!"server `{serverLabel server}` has a masked proxy URL that does not match this install's; " ++
    "the proxy stays unset"

def mergeUnknownProxy (warning : String) (incoming : Option (List Char))
    (summary : RestoreSummary) : Option (List Char) × RestoreSummary :=
  match incoming with
  | none => (none, summary)
  | some url =>
      if loginMask <:+: url then (none, summary.warn warning) else (incoming, summary)

def mergeProxy (warning : String) (incoming stored : Option (List Char))
    (summary : RestoreSummary) : Option (List Char) × RestoreSummary :=
  match incoming with
  | none => (none, summary)
  | some url =>
      if some url = stored.map maskProxyUserinfo then (stored, summary.keep)
      else if loginMask <:+: url then (none, summary.warn warning)
      else (incoming, summary)

def mergeServer (stored : List (ServerConfig Rest)) (server : ServerConfig Rest)
    (summary : RestoreSummary) : ServerConfig Rest × RestoreSummary :=
  match stored.find? fun existing => existing.id = server.id with
  | none =>
      let (password, summary) :=
        mergeSecret (unknownPasswordWarning server) server.password none summary
      let (proxyUrl, summary) :=
        mergeUnknownProxy (unknownProxyWarning server) server.proxyUrl summary
      ({ server with password, proxyUrl }, summary)
  | some existing =>
      let (password, summary) :=
        mergeSecret (passwordWarning server) server.password existing.password summary
      let (proxyUrl, summary) :=
        mergeProxy (proxyWarning server) server.proxyUrl existing.proxyUrl summary
      ({ server with password, proxyUrl }, summary)

def mergeServers (stored : List (ServerConfig Rest)) :
    List (ServerConfig Rest) → RestoreSummary → List (ServerConfig Rest) × RestoreSummary
  | [], summary => ([], summary)
  | server :: servers, summary =>
      let (merged, summary) := mergeServer stored server summary
      let (others, summary) := mergeServers stored servers summary
      (merged :: others, summary)

def generalWarning : String :=
  "general.api_key was masked and this install has no key to keep; it stays unset"

def davPasswordWarning : String :=
  "dav.password was masked and this install has no password to keep; it stays unset"

def davApiKeyWarning : String :=
  "dav.api_key was masked and this install has no key to keep; it stays unset"

def mergeNotifications (incoming stored : NotificationConfig Rest) (summary : RestoreSummary) :
    NotificationConfig Rest × RestoreSummary :=
  let (webhookUrl, summary) :=
    mergeText "notifications.webhook_url" incoming.webhookUrl stored.webhookUrl summary
  let (appriseApiUrl, summary) :=
    mergeText "notifications.apprise_api_url" incoming.appriseApiUrl stored.appriseApiUrl summary
  let (appriseUrls, summary) :=
    mergeText "notifications.apprise_urls" incoming.appriseUrls stored.appriseUrls summary
  let (ntfyToken, summary) :=
    mergeText "notifications.ntfy_token" incoming.ntfyToken stored.ntfyToken summary
  let (ntfyTopic, summary) :=
    mergeText "notifications.ntfy_topic" incoming.ntfyTopic stored.ntfyTopic summary
  ({ incoming with webhookUrl, appriseApiUrl, appriseUrls, ntfyToken, ntfyTopic }, summary)

def mergeOtel (incoming stored : OtelConfig Rest) (summary : RestoreSummary) :
    OtelConfig Rest × RestoreSummary :=
  let (endpoint, summary) := mergeEndpoint incoming.endpoint stored.endpoint summary
  let (logsEndpoint, summary) :=
    mergeSignalEndpoint "otel.logs_endpoint" incoming.logsEndpoint stored.logsEndpoint summary
  let (metricsEndpoint, summary) :=
    mergeSignalEndpoint "otel.metrics_endpoint" incoming.metricsEndpoint stored.metricsEndpoint
      summary
  ({ incoming with endpoint, logsEndpoint, metricsEndpoint }, summary)

/-- The document with the stored secrets in the place of its masks. -/
def mergeSecrets (incoming stored : AppConfig Rest) (summary : RestoreSummary) :
    AppConfig Rest × RestoreSummary :=
  let (apiKey, summary) :=
    mergeSecret generalWarning incoming.general.apiKey stored.general.apiKey summary
  let (davPassword, summary) :=
    mergeSecret davPasswordWarning incoming.dav.password stored.dav.password summary
  let (davApiKey, summary) :=
    mergeSecret davApiKeyWarning incoming.dav.apiKey stored.dav.apiKey summary
  let (notifications, summary) :=
    mergeNotifications incoming.notifications stored.notifications summary
  let (otel, summary) := mergeOtel incoming.otel stored.otel summary
  let (rssFeeds, summary) := mergeFeeds stored.rssFeeds incoming.rssFeeds summary
  let (servers, summary) := mergeServers stored.servers incoming.servers summary
  ({ incoming with
      general := { incoming.general with apiKey }
      dav := { incoming.dav with password := davPassword, apiKey := davApiKey }
      notifications, otel, servers, rssFeeds }, summary)

/-! ## What is refused after the merge -/

def exactProblem (field : String) : String :=
  s!"{field} still contains the mask; this install has no stored value to keep"

def checkExact (field : String) (value : Option (List Char)) : List String :=
  if value = some secretMask then [exactProblem field] else []

def proxyProblem (index : ℕ) : String :=
  s!"servers[{index}].proxy_url still contains the mask; " ++
    "this install has no matching proxy to keep"

def checkProxy (index : ℕ) (server : ServerConfig Rest) : List String :=
  match server.proxyUrl with
  | none => []
  | some url => if loginMask <:+: url then [proxyProblem index] else []

def feedProblem (index : ℕ) (name : String) : String :=
  s!"rss_feeds[{index}] ({name}): the URL still contains the mask and " ++
    "this install has no matching feed URL to keep"

def checkFeed (index : ℕ) (feed : RssFeedConfig Rest) : List String :=
  if secretMask <:+: feed.url then [feedProblem index feed.name] else []

def endpointProblem (field : String) : String :=
  s!"{field} still contains the mask; this install has no matching endpoint to keep"

def checkEndpoint (field : String) (value : Option (List Char)) : List String :=
  match value with
  | none => []
  | some url => if loginMask <:+: url then [endpointProblem field] else []

def passwordField (index : ℕ) : String := s!"servers[{index}].password"

/-- The problems of a merged document, which the restore then refuses. -/
def checkMasks (config : AppConfig Rest) : List String :=
  checkExact "general.api_key" config.general.apiKey ++
  checkExact "dav.password" config.dav.password ++
  checkExact "dav.api_key" config.dav.apiKey ++
  checkExact "notifications.webhook_url" (some config.notifications.webhookUrl) ++
  checkExact "notifications.apprise_api_url" (some config.notifications.appriseApiUrl) ++
  checkExact "notifications.apprise_urls" (some config.notifications.appriseUrls) ++
  checkExact "notifications.ntfy_token" (some config.notifications.ntfyToken) ++
  checkExact "notifications.ntfy_topic" (some config.notifications.ntfyTopic) ++
  (config.servers.zipIdx.flatMap fun (server, index) =>
    checkExact (passwordField index) server.password) ++
  (config.servers.zipIdx.flatMap fun (server, index) => checkProxy index server) ++
  (config.rssFeeds.zipIdx.flatMap fun (feed, index) => checkFeed index feed) ++
  checkEndpoint "otel.endpoint" (some config.otel.endpoint) ++
  checkEndpoint "otel.logs_endpoint" config.otel.logsEndpoint ++
  checkEndpoint "otel.metrics_endpoint" config.otel.metricsEndpoint

end Rustnzb.Core
