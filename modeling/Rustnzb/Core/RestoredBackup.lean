import Rustnzb.Core.RestoreOutcomes

/-!
# A masked backup restored where it was made

The merge is to undo the masks, without a warning, and to count as kept what the masks had changed.
It counts by the masks it finds, and finds the URL of a feed by its name and its masked URL.
-/

namespace Rustnzb.Core

variable {Rest : Type}

def RestoreSummary.add (summary : RestoreSummary) (count : ℕ) : RestoreSummary :=
  { summary with secretsKept := summary.secretsKept + count }

theorem RestoreSummary.add_add (summary : RestoreSummary) (count more : ℕ) :
    (summary.add count).add more = summary.add (count + more) := by
  simp [add, Nat.add_assoc]

/-! ## What the masks change -/

def changed {α : Type} [DecidableEq α] (mask : α → α) (field : α) : ℕ :=
  if mask field = field then 0 else 1

def changedTexts (notifications : NotificationConfig Rest) : ℕ :=
  changed maskText notifications.webhookUrl + changed maskText notifications.appriseApiUrl +
    changed maskText notifications.appriseUrls + changed maskText notifications.ntfyToken +
      changed maskText notifications.ntfyTopic

def changedEndpoints (otel : OtelConfig Rest) : ℕ :=
  changed maskProxyUserinfo otel.endpoint +
    changed (Option.map maskProxyUserinfo) otel.logsEndpoint +
      changed (Option.map maskProxyUserinfo) otel.metricsEndpoint

def changedServer (server : ServerConfig Rest) : ℕ :=
  changed maskSecret server.password + changed (Option.map maskProxyUserinfo) server.proxyUrl

def changedFeed (feed : RssFeedConfig Rest) : ℕ := changed maskUrlSecrets feed.url

def changedFields (config : AppConfig Rest) : ℕ :=
  changed maskSecret config.general.apiKey + changed maskSecret config.dav.password +
    changed maskSecret config.dav.apiKey + changedTexts config.notifications +
      changedEndpoints config.otel + (config.rssFeeds.map changedFeed).sum +
        (config.servers.map changedServer).sum

/-! ## What the merge counts -/

def keptSecret (secret : Option (List Char)) : ℕ := if secret.isSome then 1 else 0

def keptText (secret : List Char) : ℕ := if secret = [] then 0 else 1

def keptUrl (mask : List Char → List Char) (url : List Char) : ℕ :=
  if secretMask <:+: mask url then 1 else 0

def keptSignal (url : Option (List Char)) : ℕ := (url.map (keptUrl maskProxyUserinfo)).getD 0

def keptServer (server : ServerConfig Rest) : ℕ :=
  keptSecret server.password + keptSecret server.proxyUrl

def keptFeed (feed : RssFeedConfig Rest) : ℕ := keptUrl maskUrlSecrets feed.url

def keptTexts (notifications : NotificationConfig Rest) : ℕ :=
  keptText notifications.webhookUrl + keptText notifications.appriseApiUrl +
    keptText notifications.appriseUrls + keptText notifications.ntfyToken +
      keptText notifications.ntfyTopic

def keptEndpoints (otel : OtelConfig Rest) : ℕ :=
  keptUrl maskProxyUserinfo otel.endpoint + keptSignal otel.logsEndpoint +
    keptSignal otel.metricsEndpoint

def keptFields (config : AppConfig Rest) : ℕ :=
  keptSecret config.general.apiKey + keptSecret config.dav.password +
    keptSecret config.dav.apiKey + keptTexts config.notifications + keptEndpoints config.otel +
      (config.rssFeeds.map keptFeed).sum + (config.servers.map keptServer).sum

def firstAlike (stored : List (RssFeedConfig Rest)) (feed : RssFeedConfig Rest) :
    Option (RssFeedConfig Rest) :=
  stored.find? fun storedFeed =>
    storedFeed.name = feed.name ∧ maskUrlSecrets storedFeed.url = maskUrlSecrets feed.url

def restoredFeed (stored : List (RssFeedConfig Rest)) (feed : RssFeedConfig Rest) :
    RssFeedConfig Rest :=
  if secretMask <:+: maskUrlSecrets feed.url then
    ((firstAlike stored feed).map fun storedFeed => { feed with url := storedFeed.url }).getD feed
  else feed

/-! ## Masks that show -/

section Masks

variable {url : List Char}

theorem infix_maskProxyUserinfo (masked : maskProxyUserinfo url ≠ url) :
    secretMask <:+: maskProxyUserinfo url := by
  cases split : Lib.splitScheme url with
  | none => exact absurd (maskProxyUserinfo_of_none split) masked
  | some pieces =>
      rw [maskProxyUserinfo_of_some split] at masked ⊢
      cases found : pastLogin pieces.2 with
      | none =>
          have same : pieces.1 ++ maskLogin pieces.2 = url := by
            rw [maskLogin, found]
            exact (Lib.append_of_splitScheme split).symm
          exact absurd same masked
      | some after =>
          refine ⟨pieces.1, '@' :: after, ?_⟩
          simp [maskLogin, found]

theorem maskQueryPart_of_none {parts : Lib.Url} (noQuery : parts.query = none) :
    maskQueryPart parts = parts := by
  rcases parts with ⟨authority, path, query, fragment⟩
  cases noQuery
  rfl

theorem infix_maskUrlSecrets (masked : maskUrlSecrets url ≠ url) :
    secretMask <:+: maskUrlSecrets url := by
  rw [maskUrlSecrets, maskQueryString_eq] at masked ⊢
  cases query : (Lib.Url.parse (maskProxyUserinfo url)).query with
  | none =>
      rw [maskQueryPart_of_none query, Lib.Url.render_parse] at masked ⊢
      exact infix_maskProxyUserinfo masked
  | some secret =>
      refine ⟨(Lib.Url.parse (maskProxyUserinfo url)).base ++ ['?'],
        Lib.part '#' (Lib.Url.parse (maskProxyUserinfo url)).fragment, ?_⟩
      simp [maskQueryPart, Lib.Url.render, Lib.Url.base, Lib.Url.tail, query, maskSecret, Lib.part]

end Masks

/-! ## One field -/

section Field

variable {summary : RestoreSummary}

theorem add_zero_summary : summary.add 0 = summary := rfl

theorem keep_eq_add : summary.keep = summary.add 1 := rfl

theorem mergeSecret_maskSecret (warning : String) (secret : Option (List Char)) :
    mergeSecret warning (maskSecret secret) secret summary =
      (secret, summary.add (keptSecret secret)) := by
  cases secret <;> rfl

theorem mergeText_maskText (field : String) (secret : List Char) :
    mergeText field (maskText secret) secret summary = (secret, summary.add (keptText secret)) := by
  by_cases empty : secret = []
  · subst empty
    rfl
  · simp [mergeText, maskText, keptText, empty, keep_eq_add]

theorem mergeEndpoint_mask (endpoint : List Char) :
    mergeEndpoint (maskProxyUserinfo endpoint) endpoint summary =
      (endpoint, summary.add (keptUrl maskProxyUserinfo endpoint)) := by
  by_cases shows : secretMask <:+: maskProxyUserinfo endpoint
  · simp [mergeEndpoint, keptUrl, shows, keep_eq_add]
  · have same : maskProxyUserinfo endpoint = endpoint := by
      by_contra other
      exact shows (infix_maskProxyUserinfo other)
    rw [same] at shows
    simp only [mergeEndpoint, keptUrl, same, if_neg shows, add_zero_summary]

theorem mergeSignalEndpoint_mask (field : String) (endpoint : Option (List Char)) :
    mergeSignalEndpoint field (endpoint.map maskProxyUserinfo) endpoint summary =
      (endpoint, summary.add (keptSignal endpoint)) := by
  cases endpoint with
  | none => rfl
  | some url =>
      by_cases shows : secretMask <:+: maskProxyUserinfo url
      · simp [mergeSignalEndpoint, keptSignal, keptUrl, shows, keep_eq_add]
      · have same : maskProxyUserinfo url = url := by
          by_contra other
          exact shows (infix_maskProxyUserinfo other)
        rw [same] at shows
        simp only [mergeSignalEndpoint, keptSignal, keptUrl, Option.map_some, same, if_neg shows,
          Option.getD_some, add_zero_summary]

theorem mergeProxy_mask (warning : String) (proxyUrl : Option (List Char)) :
    mergeProxy warning (proxyUrl.map maskProxyUserinfo) proxyUrl summary =
      (proxyUrl, summary.add (keptSecret proxyUrl)) := by
  cases proxyUrl with
  | none => rfl
  | some url => simp [mergeProxy, keptSecret, keep_eq_add]

end Field

/-! ## Servers and feeds -/

section Lists

variable {summary : RestoreSummary}

variable {stored : List (ServerConfig Rest)}

theorem find?_id (distinct : (stored.map ServerConfig.id).Nodup) {server : ServerConfig Rest}
    (here : server ∈ stored) :
    stored.find? (fun existing => existing.id = server.id) = some server := by
  induction stored with
  | nil => cases here
  | cons first others ih =>
      rw [List.map_cons, List.nodup_cons] at distinct
      rcases List.mem_cons.mp here with rfl | here
      · simp
      · have other : first.id ≠ server.id := by
          intro same
          exact distinct.1 (same ▸ List.mem_map_of_mem here)
        rw [List.find?_cons_of_neg (by simpa using other)]
        exact ih distinct.2 here

theorem mergeServer_maskServer (distinct : (stored.map ServerConfig.id).Nodup)
    {server : ServerConfig Rest} (here : server ∈ stored) :
    mergeServer stored (maskServer server) summary = (server, summary.add (keptServer server)) := by
  have found : stored.find? (fun existing => existing.id = (maskServer server).id) = some server :=
    find?_id distinct here
  simp only [mergeServer, found]
  simp only [maskServer, mergeSecret_maskSecret, mergeProxy_mask, RestoreSummary.add_add,
    keptServer]

theorem mergeServers_maskServer (distinct : (stored.map ServerConfig.id).Nodup)
    {servers : List (ServerConfig Rest)} (known : ∀ server ∈ servers, server ∈ stored) :
    mergeServers stored (servers.map maskServer) summary =
      (servers, summary.add (servers.map keptServer).sum) := by
  induction servers generalizing summary with
  | nil => rfl
  | cons server servers ih =>
      simp only [List.forall_mem_cons] at known
      simp only [List.map_cons, mergeServers, mergeServer_maskServer distinct known.1, ih known.2,
        RestoreSummary.add_add, List.sum_cons]

theorem firstAlike_of_mem {stored : List (RssFeedConfig Rest)} {feed : RssFeedConfig Rest}
    (here : feed ∈ stored) : ∃ first, firstAlike stored feed = some first := by
  rw [← Option.isSome_iff_exists, firstAlike, List.find?_isSome]
  exact ⟨feed, here, by simp⟩

theorem mergeFeeds_maskFeed {stored feeds : List (RssFeedConfig Rest)}
    (known : ∀ feed ∈ feeds, feed ∈ stored) :
    mergeFeeds stored (feeds.map maskFeed) summary =
      (feeds.map (restoredFeed stored), summary.add (feeds.map keptFeed).sum) := by
  induction feeds generalizing summary with
  | nil => rfl
  | cons feed feeds ih =>
      simp only [List.forall_mem_cons] at known
      rw [List.map_cons, mergeFeeds]
      by_cases shows : secretMask <:+: maskUrlSecrets feed.url
      · rcases firstAlike_of_mem known.1 with ⟨first, found⟩
        have sought : stored.find? (fun storedFeed => storedFeed.name = (maskFeed feed).name ∧
            maskUrlSecrets storedFeed.url = (maskFeed feed).url) = some first := found
        have masked : secretMask <:+: (maskFeed feed).url := shows
        rw [if_pos masked, sought]
        simp only [ih known.2, keep_eq_add, RestoreSummary.add_add]
        simp [restoredFeed, keptFeed, keptUrl, shows, found, maskFeed]
      · have same : maskUrlSecrets feed.url = feed.url := by
          by_contra other
          exact shows (infix_maskUrlSecrets other)
        have unmasked : maskFeed feed = feed := by
          rcases feed with ⟨name, url, rest⟩
          simp only [maskFeed, same]
        rw [unmasked]
        rw [same] at shows
        rw [if_neg shows]
        simp only [ih known.2]
        simp [restoredFeed, keptFeed, keptUrl, same, shows]

end Lists

theorem mergeSecrets_maskSecrets {config : AppConfig Rest}
    (distinct : (config.servers.map ServerConfig.id).Nodup) (summary : RestoreSummary) :
    mergeSecrets (maskSecrets config) config summary =
      ({ config with rssFeeds := config.rssFeeds.map (restoredFeed config.rssFeeds) },
        summary.add (keptFields config)) := by
  simp only [mergeSecrets, maskSecrets, maskDav, maskNotifications, maskOtel, mergeNotifications,
    mergeOtel, mergeSecret_maskSecret, mergeText_maskText, mergeEndpoint_mask,
    mergeSignalEndpoint_mask, mergeFeeds_maskFeed (fun _ here => here),
    mergeServers_maskServer distinct (fun _ here => here), RestoreSummary.add_add]
  simp only [keptFields, keptTexts, keptEndpoints, Nat.add_assoc]

/-! ## When the restore is exact -/

def Maskable (mask : List Char → List Char) (url : List Char) : Prop :=
  secretMask <:+: url → mask url ≠ url

structure ServerRestores (server : ServerConfig Rest) : Prop where
  password : server.password ≠ some secretMask
  proxyUrl : ∀ url, server.proxyUrl = some url → maskProxyUserinfo url ≠ url

/-- No secret reads like its mask, every proxy URL has a login, and feeds that share a name and a
masked URL share their URL. -/
structure RestoreSafe (config : AppConfig Rest) : Prop where
  apiKey : config.general.apiKey ≠ some secretMask
  davPassword : config.dav.password ≠ some secretMask
  davApiKey : config.dav.apiKey ≠ some secretMask
  texts : ∀ field ∈ textFields, field.2 config.notifications ≠ secretMask
  endpoint : Maskable maskProxyUserinfo config.otel.endpoint
  signals : ∀ field ∈ signalFields, ∀ url, field.2 config.otel = some url →
    Maskable maskProxyUserinfo url
  feeds : ∀ feed ∈ config.rssFeeds, Maskable maskUrlSecrets feed.url
  alike : ∀ feed ∈ config.rssFeeds, ∀ other ∈ config.rssFeeds, feed.name = other.name →
    maskUrlSecrets feed.url = maskUrlSecrets other.url → feed.url = other.url
  servers : ∀ server ∈ config.servers, ServerRestores server

section Count

theorem changed_le_one {α : Type} [DecidableEq α] (mask : α → α) (field : α) :
    changed mask field ≤ 1 := by
  unfold changed
  split <;> omega

theorem changedSecret_le (secret : Option (List Char)) :
    changed maskSecret secret ≤ keptSecret secret := by
  cases secret with
  | none => exact Nat.le_refl 0
  | some value => exact changed_le_one _ _

theorem changedSecret_eq_iff (secret : Option (List Char)) :
    changed maskSecret secret = keptSecret secret ↔ secret ≠ some secretMask := by
  cases secret with
  | none => simp [changed, keptSecret, maskSecret]
  | some value =>
      simp only [changed, keptSecret, maskSecret, Option.map_some, Option.isSome_some, if_true,
        Option.some.injEq, ne_eq, eq_comm]
      by_cases same : secretMask = value <;> simp [same]

theorem changedText_le (secret : List Char) : changed maskText secret ≤ keptText secret := by
  by_cases empty : secret = []
  · simp [changed, keptText, maskText, empty]
  · rw [keptText, if_neg empty]
    exact changed_le_one _ _

theorem changedText_eq_iff (secret : List Char) :
    changed maskText secret = keptText secret ↔ secret ≠ secretMask := by
  by_cases empty : secret = []
  · subst empty
    decide
  · by_cases same : secretMask = secret
    · simp [changed, keptText, maskText, empty, same]
    · simp [changed, keptText, maskText, empty, same, Ne.symm same]

variable {mask : List Char → List Char}

theorem changedUrl_le (shows : ∀ url, mask url ≠ url → secretMask <:+: mask url)
    (url : List Char) : changed mask url ≤ keptUrl mask url := by
  by_cases same : mask url = url
  · simp [changed, same]
  · simp [changed, keptUrl, same, shows url same]

theorem changedUrl_eq_iff (shows : ∀ url, mask url ≠ url → secretMask <:+: mask url)
    (url : List Char) : changed mask url = keptUrl mask url ↔ Maskable mask url := by
  by_cases same : mask url = url
  · simp [changed, keptUrl, Maskable, same]
  · simp [changed, keptUrl, Maskable, same, shows url same]

theorem changedProxyUrl_le (url : List Char) :
    changed maskProxyUserinfo url ≤ keptUrl maskProxyUserinfo url :=
  changedUrl_le (fun _ => infix_maskProxyUserinfo) url

theorem changedProxyUrl_eq_iff (url : List Char) :
    changed maskProxyUserinfo url = keptUrl maskProxyUserinfo url ↔
      Maskable maskProxyUserinfo url :=
  changedUrl_eq_iff (fun _ => infix_maskProxyUserinfo) url

theorem changedSignal_le (url : Option (List Char)) :
    changed (Option.map maskProxyUserinfo) url ≤ keptSignal url := by
  cases url with
  | none => exact Nat.le_refl 0
  | some url =>
      simpa [changed, keptSignal] using changedProxyUrl_le url

theorem changedSignal_eq_iff (url : Option (List Char)) :
    changed (Option.map maskProxyUserinfo) url = keptSignal url ↔
      ∀ text, url = some text → Maskable maskProxyUserinfo text := by
  cases url with
  | none => simp [changed, keptSignal]
  | some url =>
      simpa [changed, keptSignal] using changedProxyUrl_eq_iff url

theorem changedProxy_le (url : Option (List Char)) :
    changed (Option.map maskProxyUserinfo) url ≤ keptSecret url := by
  cases url with
  | none => exact Nat.le_refl 0
  | some url => exact changed_le_one _ _

theorem changedProxy_eq_iff (url : Option (List Char)) :
    changed (Option.map maskProxyUserinfo) url = keptSecret url ↔
      ∀ text, url = some text → maskProxyUserinfo text ≠ text := by
  cases url with
  | none => simp [changed, keptSecret]
  | some url => by_cases same : maskProxyUserinfo url = url <;> simp [changed, keptSecret, same]

theorem changedServer_le (server : ServerConfig Rest) : changedServer server ≤ keptServer server :=
  Nat.add_le_add (changedSecret_le _) (changedProxy_le _)

theorem changedServer_eq_iff (server : ServerConfig Rest) :
    changedServer server = keptServer server ↔ ServerRestores server := by
  have password := changedSecret_le server.password
  have proxyUrl := changedProxy_le server.proxyUrl
  have split : changedServer server = keptServer server ↔
      changed maskSecret server.password = keptSecret server.password ∧
        changed (Option.map maskProxyUserinfo) server.proxyUrl = keptSecret server.proxyUrl := by
    unfold changedServer keptServer
    omega
  rw [split, changedSecret_eq_iff, changedProxy_eq_iff]
  exact ⟨fun restores => ⟨restores.1, restores.2⟩, fun restores => ⟨restores.1, restores.2⟩⟩

theorem changedFeed_le (feed : RssFeedConfig Rest) : changedFeed feed ≤ keptFeed feed :=
  changedUrl_le (fun _ => infix_maskUrlSecrets) feed.url

theorem changedFeed_eq_iff (feed : RssFeedConfig Rest) :
    changedFeed feed = keptFeed feed ↔ Maskable maskUrlSecrets feed.url :=
  changedUrl_eq_iff (fun _ => infix_maskUrlSecrets) feed.url

theorem sum_map_eq_iff {α : Type} {less more : α → ℕ} (le : ∀ item, less item ≤ more item)
    (items : List α) :
    (items.map less).sum ≤ (items.map more).sum ∧
      ((items.map less).sum = (items.map more).sum ↔ ∀ item ∈ items, less item = more item) := by
  induction items with
  | nil => simp
  | cons item items ih =>
      have here := le item
      rcases ih with ⟨sums, equal⟩
      simp only [List.map_cons, List.sum_cons, List.forall_mem_cons, ← equal]
      omega

end Count

theorem restoredFeed_eq_iff (config : AppConfig Rest) :
    config.rssFeeds.map (restoredFeed config.rssFeeds) = config.rssFeeds ↔
      ∀ feed ∈ config.rssFeeds, ∀ other ∈ config.rssFeeds, feed.name = other.name →
        maskUrlSecrets feed.url = maskUrlSecrets other.url → feed.url = other.url := by
  have kept : config.rssFeeds.map (restoredFeed config.rssFeeds) = config.rssFeeds ↔
      ∀ feed ∈ config.rssFeeds, restoredFeed config.rssFeeds feed = feed := by
    constructor
    · intro whole feed here
      exact List.map_inj_left.mp (whole.trans (List.map_id _).symm) feed here
    · intro each
      exact (List.map_congr_left each).trans (List.map_id _)
  rw [kept]
  constructor
  · intro restored feed here other there name masks
    by_cases shows : secretMask <:+: maskUrlSecrets feed.url
    · rcases firstAlike_of_mem here with ⟨first, found⟩
      have foundOther : firstAlike config.rssFeeds other = some first := by
        rw [← found, firstAlike, firstAlike, name, masks]
      have url : ∀ alike ∈ config.rssFeeds, secretMask <:+: maskUrlSecrets alike.url →
          firstAlike config.rssFeeds alike = some first → first.url = alike.url := by
        intro alike isFeed shows foundAlike
        have same := restored alike isFeed
        rw [restoredFeed, if_pos shows, foundAlike, Option.map_some, Option.getD_some] at same
        have urls := congrArg RssFeedConfig.url same
        exact urls
      rw [← url feed here shows found, ← url other there (masks ▸ shows) foundOther]
    · have unchanged : ∀ text, ¬secretMask <:+: maskUrlSecrets text → maskUrlSecrets text = text :=
        fun text hidden => not_not.mp fun masked => hidden (infix_maskUrlSecrets masked)
      rw [← unchanged _ shows, masks, unchanged _ (masks ▸ shows)]
  · intro alike feed here
    unfold restoredFeed
    split
    · rcases firstAlike_of_mem here with ⟨first, found⟩
      have isFirst := List.find?_some found
      simp only [decide_eq_true_eq] at isFirst
      have url := alike first (List.mem_of_find?_eq_some found) feed here isFirst.1 isFirst.2
      simp [found, url]
    · rfl

/-- The merge undoes the masks, without a warning, and counts what they had changed. -/
def RestoresExactly (config : AppConfig Rest) : Prop :=
  ∀ summary, mergeSecrets (maskSecrets config) config summary =
    (config, summary.add (changedFields config))

theorem changedTexts_le (notifications : NotificationConfig Rest) :
    changedTexts notifications ≤ keptTexts notifications ∧
      (changedTexts notifications = keptTexts notifications ↔
        ∀ field ∈ textFields, field.2 notifications ≠ secretMask) := by
  have webhookUrl := changedText_le notifications.webhookUrl
  have appriseApiUrl := changedText_le notifications.appriseApiUrl
  have appriseUrls := changedText_le notifications.appriseUrls
  have ntfyToken := changedText_le notifications.ntfyToken
  have ntfyTopic := changedText_le notifications.ntfyTopic
  simp only [textFields, List.forall_mem_cons, List.not_mem_nil, false_imp_iff, implies_true,
    and_true, ← changedText_eq_iff, changedTexts, keptTexts]
  omega

theorem changedEndpoints_le (otel : OtelConfig Rest) :
    changedEndpoints otel ≤ keptEndpoints otel ∧
      (changedEndpoints otel = keptEndpoints otel ↔
        Maskable maskProxyUserinfo otel.endpoint ∧
          ∀ field ∈ signalFields, ∀ url, field.2 otel = some url →
            Maskable maskProxyUserinfo url) := by
  have endpoint := changedProxyUrl_le otel.endpoint
  have logsEndpoint := changedSignal_le otel.logsEndpoint
  have metricsEndpoint := changedSignal_le otel.metricsEndpoint
  simp only [signalFields, List.forall_mem_cons, List.not_mem_nil, false_imp_iff, implies_true,
    and_true]
  rw [← changedSignal_eq_iff otel.logsEndpoint, ← changedSignal_eq_iff otel.metricsEndpoint,
    ← changedProxyUrl_eq_iff, changedEndpoints, keptEndpoints]
  omega

theorem changedFields_eq_iff (config : AppConfig Rest) :
    changedFields config = keptFields config ↔
      config.general.apiKey ≠ some secretMask ∧ config.dav.password ≠ some secretMask ∧
        config.dav.apiKey ≠ some secretMask ∧
          (∀ field ∈ textFields, field.2 config.notifications ≠ secretMask) ∧
            (Maskable maskProxyUserinfo config.otel.endpoint ∧
              ∀ field ∈ signalFields, ∀ url, field.2 config.otel = some url →
                Maskable maskProxyUserinfo url) ∧
              (∀ feed ∈ config.rssFeeds, Maskable maskUrlSecrets feed.url) ∧
                ∀ server ∈ config.servers, ServerRestores server := by
  have apiKey := changedSecret_le config.general.apiKey
  have davPassword := changedSecret_le config.dav.password
  have davApiKey := changedSecret_le config.dav.apiKey
  have texts := changedTexts_le config.notifications
  have endpoints := changedEndpoints_le config.otel
  have feeds := sum_map_eq_iff changedFeed_le config.rssFeeds
  have servers := sum_map_eq_iff changedServer_le config.servers
  simp only [← changedSecret_eq_iff, ← texts.2, ← endpoints.2, ← changedFeed_eq_iff, ← feeds.2,
    ← changedServer_eq_iff, ← servers.2, changedFields, keptFields]
  omega

theorem restoresExactly_iff {config : AppConfig Rest}
    (distinct : (config.servers.map ServerConfig.id).Nodup) :
    RestoresExactly config ↔ RestoreSafe config := by
  have exact : RestoresExactly config ↔
      config.rssFeeds.map (restoredFeed config.rssFeeds) = config.rssFeeds ∧
        changedFields config = keptFields config := by
    constructor
    · intro restores
      have merged := (mergeSecrets_maskSecrets distinct ⟨0, []⟩).symm.trans (restores ⟨0, []⟩)
      rw [Prod.mk.injEq] at merged
      have counts := congrArg RestoreSummary.secretsKept merged.2
      simp only [RestoreSummary.add] at counts
      exact ⟨congrArg AppConfig.rssFeeds merged.1, by omega⟩
    · rintro ⟨feeds, counts⟩ summary
      rw [mergeSecrets_maskSecrets distinct, feeds, counts]
  rw [exact, restoredFeed_eq_iff, changedFields_eq_iff]
  constructor
  · rintro ⟨alike, apiKey, davPassword, davApiKey, texts, ⟨endpoint, signals⟩, feeds, servers⟩
    exact ⟨apiKey, davPassword, davApiKey, texts, endpoint, signals, feeds, alike, servers⟩
  · intro safe
    exact ⟨safe.alike, safe.apiKey, safe.davPassword, safe.davApiKey, safe.texts,
      ⟨safe.endpoint, safe.signals⟩, safe.feeds, safe.servers⟩

/-- A masked backup is restored exactly where it was made, if and only if no secret reads like a
mask, no proxy URL is without a login and no two feeds pass for one another. Whatever a document
masks is settled, and what is left of a mask is reported. -/
theorem restore_exact_and_settled (config : AppConfig Rest)
    (distinct : (config.servers.map ServerConfig.id).Nodup) :
    (RestoresExactly config ↔ RestoreSafe config) ∧
      ∀ document stored : AppConfig Rest, ∀ summary,
        MasksSettle document stored (mergeSecrets document stored summary).1
            (mergeSecrets document stored summary).2.warnings ∧
          MasksReported (mergeSecrets document stored summary).1 :=
  ⟨restoresExactly_iff distinct, fun document stored summary =>
    ⟨masksSettle_mergeSecrets document stored summary, masksReported _⟩⟩

def onlyFeeds (feeds : List (RssFeedConfig Unit)) : AppConfig Unit where
  general := ⟨some "key".toList, ()⟩
  dav := ⟨none, none, ()⟩
  notifications := ⟨[], [], [], [], [], ()⟩
  otel := ⟨"http://localhost:4317".toList, none, none, ()⟩
  servers := [⟨"s1", "news", some "pw".toList, some "socks5://user:pw@proxy:1080".toList, ()⟩]
  rssFeeds := feeds
  rest := ()

def namedFeeds : AppConfig Unit :=
  onlyFeeds [⟨"tv", "https://indexer/rss?t=5000&key=a".toList, ()⟩,
    ⟨"movies", "https://indexer/rss?t=2000&key=a".toList, ()⟩]

theorem restore_namedFeeds : RestoresExactly namedFeeds := by
  refine (restore_exact_and_settled namedFeeds (by decide)).1.mpr
    ⟨by decide, by decide, by decide, by decide, by rw [Maskable]; decide, ?_, ?_, by decide, ?_⟩
  · rintro field here url set
    fin_cases here <;> cases set
  · unfold Maskable
    decide
  · rintro server here
    fin_cases here
    exact ⟨by decide, by rintro url ⟨⟩; decide⟩

/-- Both feeds bear the name of the indexer, and differ in their queries only. -/
def twinFeeds : AppConfig Unit :=
  onlyFeeds [⟨"indexer", "https://indexer/rss?t=5000&key=a".toList, ()⟩,
    ⟨"indexer", "https://indexer/rss?t=2000&key=a".toList, ()⟩]

/-- The second feed comes back with the query of the first. -/
theorem not_restoresExactly_twinFeeds :
    ¬∀ config : AppConfig Unit, (config.servers.map ServerConfig.id).Nodup →
      RestoresExactly config := by
  intro restores
  have feeds := congrArg (fun merged => merged.1.rssFeeds)
    (restores twinFeeds (by decide) ⟨0, []⟩)
  revert feeds
  decide

end Rustnzb.Core
